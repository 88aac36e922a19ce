import Shortstack.ConsistentHash
import Shortstack.LibTokens
import Shortstack.StorageSpec

/-! The connections of a storage interface to its servers: for each of them the requests that
wait to be sent, the commands that are on their way and the replies that no callback has handled.
What a connection carries is a multiset, which a step changes only where it says. -/
namespace Shortstack
open Tokens

structure Connection (α ρ : Type) where
  queue : List α := []
  commands : List (List α) := []
  replies : List ρ := []
  deriving DecidableEq, Repr

namespace Connection
variable {α ρ ι : Type}

def submit (batchSize : ℤ) (a : α) (c : Connection α ρ) : Connection α ρ :=
  let (queue, batches) := enqueue batchSize c.queue a
  { c with queue := queue, commands := c.commands ++ batches }

def flush (c : Connection α ρ) : Connection α ρ :=
  { c with queue := [], commands := c.commands ++ Shortstack.flush c.queue }

/-- What a connection carries, as items for a request and items for a reply. -/
def items (request : α → ι) (reply : ρ → List ι) (c : Connection α ρ) : Multiset ι :=
  ((c.queue.map request : List ι) : Multiset ι) + ((c.commands.flatten.map request : List ι) : Multiset ι) +
    ((c.replies.flatMap reply : List ι) : Multiset ι)

variable {request : α → ι} {reply : ρ → List ι}

lemma items_submit (batchSize : ℤ) (a : α) (c : Connection α ρ) :
    (c.submit batchSize a).items request reply = c.items request reply + {request a} := by
  have kept := enqueue_flatten batchSize c.queue a
  have both : (((c.submit batchSize a).commands.flatten.map request : List ι) : Multiset ι) +
      (((c.submit batchSize a).queue.map request : List ι) : Multiset ι) =
      ((c.commands.flatten.map request : List ι) : Multiset ι) +
        ((c.queue.map request : List ι) : Multiset ι) + {request a} := by
    rw [Multiset.coe_add, ← List.map_append]
    simp only [submit, List.flatten_append, List.append_assoc, kept]
    simp only [List.map_append, ← Multiset.coe_add, add_assoc]
    rfl
  have replies : (c.submit batchSize a).replies = c.replies := rfl
  unfold items
  rw [replies, add_comm (((c.submit batchSize a).queue.map request : List ι) : Multiset ι), both]
  ac_rfl

lemma items_flush (c : Connection α ρ) :
    c.flush.items request reply = c.items request reply := by
  unfold items flush
  simp only [List.flatten_append, flush_flatten, List.map_append, List.map_nil, ← Multiset.coe_add,
    Multiset.coe_nil]
  ac_rfl

end Connection

/-- The connections of an interface, one for each server. -/
abbrev Connections (α ρ : Type) := List (Connection α ρ)

namespace Connections
variable {α ρ ι : Type}

def connect (servers : ℕ) : Connections α ρ := List.replicate servers {}

/-- `async_get` and `async_put`: a request goes to the server of its key. -/
def submit (batchSize : ℤ) (key : α → String) (cs : Connections α ρ) (a : α) : Connections α ρ :=
  cs.modify (consistentHash (key a) cs.length) (Connection.submit batchSize a)

def flush (cs : Connections α ρ) : Connections α ρ := cs.map Connection.flush

/-- A server answers the oldest command it was sent. -/
def serve (answer : List α → ρ) (cs : Connections α ρ) (i : ℕ) :
    Option (List α × Connections α ρ) :=
  match cs[i]? with
  | none => none
  | some c =>
    match c.commands with
    | [] => none
    | batch :: rest =>
      some (batch, cs.set i { c with commands := rest, replies := c.replies ++ [answer batch] })

/-- The oldest reply of a server. -/
def takeReply (cs : Connections α ρ) (i : ℕ) : Option (ρ × Connections α ρ) :=
  match cs[i]? with
  | none => none
  | some c =>
    match c.replies with
    | [] => none
    | reply :: rest => some (reply, cs.set i { c with replies := rest })

def items (request : α → ι) (reply : ρ → List ι) (cs : Connections α ρ) : Multiset ι :=
  (cs.map (Connection.items request reply)).sum

variable {request : α → ι} {reply : ρ → List ι} {cs cs' : Connections α ρ} {i : ℕ}

lemma items_split (request : α → ι) (reply : ρ → List ι) {c : Connection α ρ} (found : cs[i]? = some c) :
    ∃ rest, items request reply cs = rest + c.items request reply ∧
      ∀ c', items request reply (cs.set i c') = rest + c'.items request reply := by
  induction cs generalizing i with
  | nil => simp at found
  | cons d cs ih =>
    cases i with
    | zero =>
      obtain rfl : d = c := by simpa using found
      exact ⟨items request reply cs, add_comm _ _, fun c' => add_comm _ _⟩
    | succ i =>
      obtain ⟨rest, before, after⟩ := ih (by simpa using found)
      refine ⟨d.items request reply + rest, ?_, fun c' => ?_⟩
      · rw [add_assoc, ← before]
        rfl
      · rw [add_assoc, ← after]
        rfl

@[simp] lemma items_connect (servers : ℕ) :
    items request reply (connect servers : Connections α ρ) = 0 := by
  induction servers with
  | zero => rfl
  | succ servers ih =>
    have split : (connect (servers + 1) : Connections α ρ) = {} :: connect servers :=
      List.replicate_succ
    rw [split]
    unfold items at ih ⊢
    rw [List.map_cons, List.sum_cons, ih]
    rfl

lemma items_submit (some' : cs ≠ []) (batchSize : ℤ) (key : α → String) (a : α) :
    items request reply (submit batchSize key cs a) = items request reply cs + {request a} := by
  have inside := consistentHash_lt (key a) (List.length_pos_of_ne_nil some')
  obtain ⟨rest, before, after⟩ := items_split request reply
    (List.getElem?_eq_getElem inside)
  have changed : submit batchSize key cs a = cs.set (consistentHash (key a) cs.length)
      ((cs[consistentHash (key a) cs.length]).submit batchSize a) :=
    List.modify_eq_set_get _ inside
  rw [changed, after, before, Connection.items_submit, add_assoc]

@[simp] lemma length_submit (batchSize : ℤ) (key : α → String) (a : α) :
    (submit batchSize key cs a).length = cs.length := List.length_modify ..

lemma items_flush : items request reply cs.flush = items request reply cs := by
  unfold items flush
  rw [List.map_map]
  congr 1
  exact List.map_congr_left fun c _ => Connection.items_flush c

lemma items_submitAll (some' : cs ≠ []) (batchSize : ℤ) (key : α → String) (as : List α) :
    items request reply (as.foldl (submit batchSize key) cs) =
      items request reply cs + ((as.map request : List ι) : Multiset ι) := by
  induction as generalizing cs with
  | nil => simp
  | cons a as ih =>
    have more : submit batchSize key cs a ≠ [] := by
      rw [← List.length_pos_iff_ne_nil, length_submit]
      exact List.length_pos_of_ne_nil some'
    rw [List.foldl_cons, ih more, items_submit some', List.map_cons, ← Multiset.cons_coe,
      ← Multiset.singleton_add]
    ac_rfl

lemma trade_serve (request : α → ι) (reply : ρ → List ι) {answer : List α → ρ} {batch : List α}
    (taken : serve answer cs i = some (batch, cs')) :
    Trade (items request reply cs) (items request reply cs') ↑(batch.map request)
      ↑(reply (answer batch)) := by
  unfold serve at taken
  split at taken
  · simp at taken
  · next c found =>
    split at taken
    · simp at taken
    · next oldest others popped =>
      obtain ⟨rfl, rfl⟩ := Prod.mk.inj (Option.some.inj taken)
      obtain ⟨rest, before, after⟩ := items_split request reply found
      refine ⟨rest + { c with commands := others }.items request reply, ?_, ?_⟩
      · rw [before]
        simp only [Connection.items, popped, List.flatten_cons, List.map_append, ← Multiset.coe_add]
        ac_rfl
      · rw [after]
        simp only [Connection.items, List.flatMap_append, List.flatMap_singleton,
          ← Multiset.coe_add]
        ac_rfl

lemma items_takeReply (request : α → ι) (reply : ρ → List ι) {r : ρ} (taken : takeReply cs i = some (r, cs')) :
    items request reply cs = items request reply cs' + ↑(reply r) := by
  unfold takeReply at taken
  split at taken
  · simp at taken
  · next c found =>
    split at taken
    · simp at taken
    · next oldest others popped =>
      obtain ⟨rfl, rfl⟩ := Prod.mk.inj (Option.some.inj taken)
      obtain ⟨rest, before, after⟩ := items_split request reply found
      rw [before, after]
      simp only [Connection.items, popped, List.flatMap_cons, ← Multiset.coe_add]
      ac_rfl

lemma length_serve {answer : List α → ρ} {batch : List α}
    (taken : serve answer cs i = some (batch, cs')) : cs'.length = cs.length := by
  unfold serve at taken
  split at taken
  · simp at taken
  · split at taken
    · simp at taken
    · obtain ⟨rfl, rfl⟩ := Prod.mk.inj (Option.some.inj taken)
      exact List.length_set

lemma length_takeReply {r : ρ} (taken : takeReply cs i = some (r, cs')) :
    cs'.length = cs.length := by
  unfold takeReply at taken
  split at taken
  · simp at taken
  · split at taken
    · simp at taken
    · obtain ⟨rfl, rfl⟩ := Prod.mk.inj (Option.some.inj taken)
      exact List.length_set

lemma length_submitAll (batchSize : ℤ) (key : α → String) (as : List α) :
    (as.foldl (submit batchSize key) cs).length = cs.length := by
  induction as generalizing cs with
  | nil => rfl
  | cons a as ih => rw [List.foldl_cons, ih, length_submit]

lemma mapM_value {β : Type} (reply : List (α × Option β)) :
    (∃ batch : List (α × β), (reply.mapM fun e => e.2.map fun value => (e.1, value)) = some batch ∧
        reply = batch.map fun e => (e.1, some e.2)) ∨
      (reply.mapM fun e => e.2.map fun value => (e.1, value)) = none ∧ ∃ e ∈ reply, e.2 = none := by
  induction reply with
  | nil => exact .inl ⟨[], rfl, rfl⟩
  | cons e reply ih =>
    obtain ⟨a, _ | c⟩ := e
    · exact .inr ⟨by simp, (a, none), by simp⟩
    · rcases ih with ⟨batch, all, rfl⟩ | ⟨broken, e, mem, null⟩
      · exact .inl ⟨(a, c) :: batch, by simp [all], rfl⟩
      · exact .inr ⟨by simp [broken], e, List.mem_cons_of_mem _ mem, null⟩

/-- What holds of every request for a server, and of every reply that came from it. -/
def All (P : ℕ → α → Prop) (Q : ρ → Prop) (cs : Connections α ρ) : Prop :=
  ∀ i c, cs[i]? = some c → (∀ a ∈ c.queue ++ c.commands.flatten, P i a) ∧ ∀ r ∈ c.replies, Q r

variable {P : ℕ → α → Prop} {Q : ρ → Prop}

lemma All.set (h : All P Q cs) {c : Connection α ρ}
    (here : (∀ a ∈ c.queue ++ c.commands.flatten, P i a) ∧ ∀ r ∈ c.replies, Q r) :
    All P Q (cs.set i c) := by
  intro j d found
  rw [List.getElem?_set] at found
  split at found
  · next same =>
    split at found
    · obtain rfl := Option.some.inj found
      exact same ▸ here
    · simp at found
  · exact h j d found

lemma All.submit (h : All P Q cs) (batchSize : ℤ) (key : α → String) {a : α}
    (here : P (consistentHash (key a) cs.length) a) : All P Q (submit batchSize key cs a) := by
  rcases Nat.lt_or_ge (consistentHash (key a) cs.length) cs.length with inside | outside
  · have before := h _ _ (List.getElem?_eq_getElem inside)
    have changed : Connections.submit batchSize key cs a = cs.set (consistentHash (key a) cs.length)
        ((cs[consistentHash (key a) cs.length]).submit batchSize a) :=
      List.modify_eq_set_get _ inside
    rw [changed]
    refine h.set ⟨fun b mem => ?_, before.2⟩
    have kept := enqueue_flatten batchSize (cs[consistentHash (key a) cs.length]).queue a
    have either : b ∈ (cs[consistentHash (key a) cs.length]).commands.flatten ∨
        b ∈ (cs[consistentHash (key a) cs.length]).queue ++ [a] := by
      rw [← kept]
      simp only [Connection.submit, List.flatten_append, List.mem_append] at mem ⊢
      tauto
    rcases either with old | new
    · exact before.1 b (List.mem_append_right _ old)
    · rcases List.mem_append.mp new with old | new
      · exact before.1 b (List.mem_append_left _ old)
      · rw [List.mem_singleton.mp new]
        exact here
  · have same : Connections.submit batchSize key cs a = cs := List.modify_eq_self outside
    rw [same]
    exact h

lemma All.serve {answer : List α → ρ} {batch : List α} (h : All P Q cs)
    (taken : serve answer cs i = some (batch, cs'))
    (reply : (∀ a ∈ batch, P i a) → Q (answer batch)) : All P Q cs' := by
  unfold Connections.serve at taken
  split at taken
  · simp at taken
  · next c found =>
    split at taken
    · simp at taken
    · next oldest others popped =>
      obtain ⟨rfl, rfl⟩ := Prod.mk.inj (Option.some.inj taken)
      obtain ⟨requests, replies⟩ := h i c found
      rw [popped] at requests
      refine h.set ⟨fun a mem => requests a ?_, fun r mem => ?_⟩
      · simp only [List.flatten_cons, List.mem_append] at mem ⊢
        tauto
      · rcases List.mem_append.mp mem with old | new
        · exact replies r old
        · rw [List.mem_singleton.mp new]
          exact reply fun a mem => requests a (by simp [mem])

lemma All.takeReply {r : ρ} (h : All P Q cs) (taken : takeReply cs i = some (r, cs')) :
    Q r ∧ All P Q cs' := by
  unfold Connections.takeReply at taken
  split at taken
  · simp at taken
  · next c found =>
    split at taken
    · simp at taken
    · next oldest others popped =>
      obtain ⟨rfl, rfl⟩ := Prod.mk.inj (Option.some.inj taken)
      obtain ⟨requests, replies⟩ := h i c found
      rw [popped] at replies
      exact ⟨replies _ List.mem_cons_self,
        h.set ⟨requests, fun r mem => replies r (List.mem_cons_of_mem _ mem)⟩⟩

end Connections
end Shortstack
