import Shortstack.ClientTickets

/-! One register for each key, as a proxy offers them whose operations are gets when their value
is empty. A get may take effect late: it is answered with the value of a put, or with the one from
the start, and takes effect right after that put, or before all puts of its key. -/
namespace Shortstack
open Linearizability

@[simp] lemma ClientRequest.operation_key (seq : SequenceId) (r : ClientRequest) :
    (r.operation seq).key = r.key := by
  cases r <;> rfl

@[simp] lemma ClientRequest.operation_value (seq : SequenceId) (r : ClientRequest) :
    (r.operation seq).value = r.value := by
  cases r <;> rfl

@[simp] lemma ClientRequest.operation_seqId (seq : SequenceId) (r : ClientRequest) :
    (r.operation seq).seqId = seq := by
  cases r <;> rfl

/-- A put of an empty value is a get. -/
def keyValues (initial : String → String) :
    Object (String → String) ClientRequest (OpCode × String) where
  init := initial
  step values r :=
    if r.value = "" then (values, .get, values r.key)
    else (Function.update values r.key r.value, .put, "")

/-- Requests that change what is held under a key. -/
def Writes (key : String) (r : ClientRequest) : Prop := r.key = key ∧ r.value ≠ ""

instance (key : String) (r : ClientRequest) : Decidable (Writes key r) :=
  inferInstanceAs (Decidable (_ ∧ _))

section
variable {I : Type} {initial : String → String} {values : String → String} {key : String}
  {order : List (I × ClientRequest)} {history : List ClientEvent}

lemma keyValues_read {r : ClientRequest} (read : r.value = "") (values : String → String) :
    (keyValues initial).step values r = (values, .get, values r.key) := if_pos read

lemma keyValues_write {r : ClientRequest} (write : r.value ≠ "") (values : String → String) :
    (keyValues initial).step values r = (Function.update values r.key r.value, .put, "") :=
  if_neg write

lemma keyValues_after_of_no_put (none : ∀ x ∈ order, ¬ Writes key x.2) :
    (keyValues initial).after values order key = values key := by
  induction order generalizing values with
  | nil => rfl
  | cons x order ih =>
    refine (ih fun y hy => none y (List.mem_cons_of_mem x hy)).trans ?_
    dsimp only
    rcases eq_or_ne x.2.value "" with read | write
    · rw [keyValues_read read]
    · rw [keyValues_write write]
      exact Function.update_of_ne (fun same => none x List.mem_cons_self ⟨same.symm, write⟩) _ _

/-- A value that was put under a key, or was there at the start. -/
def Seen (initial : String → String) (order : List (I × ClientRequest)) (key u : String) : Prop :=
  u = initial key ∨ ∃ x ∈ order, Writes key x.2 ∧ x.2.value = u

lemma Seen.mono {order' : List (I × ClientRequest)} {u : String} (h : Seen initial order key u)
    (more : ∀ x ∈ order, x ∈ order') : Seen initial order' key u :=
  h.imp_right fun ⟨x, mem, put⟩ => ⟨x, more x mem, put⟩

lemma seen_after : Seen initial order key ((keyValues initial).after initial order key) := by
  induction order using List.reverseRecOn with
  | nil => exact .inl rfl
  | append_singleton order x ih =>
    rw [Object.after_concat]
    rcases eq_or_ne x.2.value "" with read | write
    · rw [keyValues_read read]
      exact ih.mono fun y hy => List.mem_append_left _ hy
    · rw [keyValues_write write]
      dsimp only
      rcases eq_or_ne x.2.key key with rfl | other
      · rw [Function.update_self]
        exact .inr ⟨x, by simp, ⟨rfl, write⟩, rfl⟩
      · rw [Function.update_of_ne other.symm]
        exact ih.mono fun y hy => List.mem_append_left _ hy

end

namespace KeyValues
variable {I : Type} (initial : String → String) (history : List (Event I ClientRequest (OpCode × String)))
  (order : List (I × ClientRequest))

/-- A request that has not taken effect. -/
def Open (i : I) (key value : String) : Prop :=
  i ∉ order.map Prod.fst ∧ ∃ r, .invoke i r ∈ history ∧ r.key = key ∧ r.value = value

/-- A get that may still take effect anywhere among the puts of its key. -/
def Late (i : I) (key : String) : Prop :=
  Open history order i key "" ∧ Behind history order (Writes key) i

/-- An answer that may be given: to a request that has taken effect, or to a late get. -/
def Due (i : I) (out : OpCode × String) : Prop :=
  (i, out) ∈ (keyValues initial).outputs initial order ∨
    ∃ key u, out = (.get, u) ∧ Late history order i key ∧ Seen initial order key u

/-- A history goes on and more requests have taken effect, those in a set. -/
structure Extends (new : I → Prop) (history : List (Event I ClientRequest (OpCode × String)))
    (order : List (I × ClientRequest)) (history' : List (Event I ClientRequest (OpCode × String)))
    (order' : List (I × ClientRequest)) : Prop where
  kept : ∀ e ∈ history, e ∈ history'
  grown : ∀ x ∈ order, x ∈ order'
  outputs : ∀ x ∈ (keyValues initial).outputs initial order,
    x ∈ (keyValues initial).outputs initial order'
  ids : ∀ i ∈ order'.map Prod.fst, i ∈ order.map Prod.fst ∨ new i
  behind : ∀ key i, (∃ r, .invoke i r ∈ history) → Behind history order (Writes key) i →
    Behind history' order' (Writes key) i

variable {initial history order} {history' : List (Event I ClientRequest (OpCode × String))}
  {order' : List (I × ClientRequest)} {new : I → Prop} {i : I} {key value : String}

section Extends
variable (ext : Extends initial new history order history' order')
include ext

lemma Open.extend (h : Open history order i key value) (other : ¬ new i) :
    Open history' order' i key value :=
  ⟨fun mem => (ext.ids _ mem).elim h.1 other, h.2.imp fun _ ⟨mem, same⟩ => ⟨ext.kept _ mem, same⟩⟩

lemma Late.extend (h : Late history order i key) (other : ¬ new i) : Late history' order' i key :=
  ⟨Open.extend ext h.1 other, ext.behind key i (h.1.2.imp fun _ mem => mem.1) h.2⟩

lemma Due.extend {out : OpCode × String} (h : Due initial history order i out) (other : ¬ new i) :
    Due initial history' order' i out :=
  h.imp (ext.outputs _) fun ⟨key, u, is, late, seen⟩ =>
    ⟨key, u, is, Late.extend ext late other, seen.mono ext.grown⟩

lemma Extends.trans {history'' : List (Event I ClientRequest (OpCode × String))}
    {order'' : List (I × ClientRequest)}
    (later : Extends initial (fun _ => False) history' order' history'' order'') :
    Extends initial new history order history'' order'' where
  kept e mem := later.kept e (ext.kept e mem)
  grown x mem := later.grown x (ext.grown x mem)
  outputs x mem := later.outputs x (ext.outputs x mem)
  ids i mem := (later.ids i mem).elim (ext.ids i) False.elim
  behind key i known h := later.behind key i (known.imp fun _ mem => ext.kept _ mem)
    (ext.behind key i known h)

end Extends

lemma extends_refl : Extends initial (fun _ => False) history order history order :=
  ⟨fun _ mem => mem, fun _ mem => mem, fun _ mem => mem, fun _ mem => .inl mem, fun _ _ _ h => h⟩

lemma extends_record {e : Event I ClientRequest (OpCode × String)}
    (fresh : ∀ i r, e = .invoke i r → ∀ r', .invoke i r' ∉ history) :
    Extends initial (fun _ => False) history order (history ++ [e]) order where
  kept _ mem := List.mem_append_left _ mem
  grown _ mem := mem
  outputs _ mem := mem
  ids _ mem := .inl mem
  behind _ i known h := h.record fun r same =>
    let ⟨r', mem⟩ := known
    fresh i r same r' mem

lemma extends_effect (lin : Linearizes (keyValues initial) history order) (i : I) (r : ClientRequest) :
    Extends initial (· = i) history order history (order ++ [(i, r)]) where
  kept _ mem := mem
  grown _ mem := List.mem_append_left _ mem
  outputs _ mem := by
    rw [Object.outputs_concat]
    exact List.mem_append_left _ mem
  ids _ mem := by
    rw [List.map_append, List.mem_append] at mem
    exact mem.imp_right fun here => by simpa using here
  behind _ _ _ h := h.effect lin (i, r)

lemma extends_insert {a b : List (I × ClientRequest)} {r : ClientRequest} (read : r.value = "") :
    Extends initial (· = i) history (a ++ b) history (a ++ (i, r) :: b) where
  kept _ mem := mem
  grown _ mem := (List.mem_append.mp mem).elim (List.mem_append_left _) fun old =>
    List.mem_append_right _ (List.mem_cons_of_mem _ old)
  outputs _ mem := by
    rw [Object.outputs_append, List.mem_append] at mem ⊢
    refine mem.imp_right fun later => ?_
    rw [Object.outputs, keyValues_read read]
    exact List.mem_cons_of_mem _ later
  ids _ mem := by
    simp only [List.map_append, List.map_cons, List.mem_append, List.mem_cons] at mem ⊢
    tauto
  behind _ _ _ h := h.insert fun write => write.2 read

/-- A late get may be answered with any value that was put under its key. -/
lemma Late.effect {u : String} (h : Late history order i key)
    (lin : Linearizes (keyValues initial) history order) (seen : Seen initial order key u) :
    ∃ a b r, order = a ++ b ∧ r.value = "" ∧
      Linearizes (keyValues initial) history (a ++ (i, r) :: b) ∧
      (i, (.get, u)) ∈ (keyValues initial).outputs initial (a ++ (i, r) :: b) := by
  obtain ⟨⟨new, r, invoked, rfl, read⟩, behind⟩ := h
  have reads : ∀ values, ((keyValues initial).step values r).1 = values := fun values => by
    rw [keyValues_read read]
  have answer : ∀ a b : List (I × ClientRequest), (keyValues initial).after initial a r.key = u →
      (i, (OpCode.get, u)) ∈ (keyValues initial).outputs initial (a ++ (i, r) :: b) := by
    intro a b held
    rw [Object.outputs_append, Object.outputs, keyValues_read read, held]
    exact List.mem_append_right _ List.mem_cons_self
  rcases seen with rfl | ⟨x, mem, put, rfl⟩
  · obtain ⟨a, b, rfl, early, lin'⟩ := behind.insert_before lin invoked new reads
    exact ⟨a, b, r, rfl, read, lin', answer a b (keyValues_after_of_no_put early)⟩
  · obtain ⟨a, b, rfl⟩ := List.append_of_mem mem
    refine ⟨a ++ [x], b, r, by simp, read, behind.insert_after lin put invoked new reads, answer _ b ?_⟩
    rw [Object.after_concat, keyValues_write put.2]
    dsimp only
    rw [put.1, Function.update_self]

lemma after_insert {a b : List (I × ClientRequest)} {r : ClientRequest} (read : r.value = "")
    (values : String → String) : (keyValues initial).after values (a ++ (i, r) :: b) =
      (keyValues initial).after values (a ++ b) := by
  rw [Object.after_append, Object.after_append]
  have first : ∀ values, (keyValues initial).after values ((i, r) :: b) =
      (keyValues initial).after ((keyValues initial).step values r).1 b := fun _ => rfl
  rw [first, keyValues_read read]

lemma Open.requests {α : Type} {l : List α} (id : α → I) (key value : α → String)
    (all : ∀ a ∈ l, Open history order (id a) (key a) (value a)) :
    ∃ batch : List (I × ClientRequest), (batch.map fun x => (x.1, x.2.key, x.2.value)) =
        (l.map fun a => (id a, key a, value a)) ∧
      ∀ x ∈ batch, .invoke x.1 x.2 ∈ history ∧ x.1 ∉ order.map Prod.fst := by
  induction l with
  | nil => exact ⟨[], rfl, by simp⟩
  | cons a l ih =>
    obtain ⟨batch, same, invoked⟩ := ih fun b hb => all b (List.mem_cons_of_mem a hb)
    obtain ⟨new, r, mem, key', value'⟩ := all a List.mem_cons_self
    refine ⟨(id a, r) :: batch, by simp [same, key', value'], fun x hx => ?_⟩
    rcases List.mem_cons.mp hx with rfl | later
    · exact ⟨mem, new⟩
    · exact invoked x later

lemma effects {batch : List (I × ClientRequest)} (lin : Linearizes (keyValues initial) history order)
    (invoked : ∀ x ∈ batch, .invoke x.1 x.2 ∈ history ∧ x.1 ∉ order.map Prod.fst)
    (once : (batch.map Prod.fst).Nodup) : Linearizes (keyValues initial) history (order ++ batch) ∧
      Extends initial (· ∈ batch.map Prod.fst) history order history (order ++ batch) := by
  induction batch using List.reverseRecOn with
  | nil =>
    rw [List.append_nil]
    exact ⟨lin, fun _ mem => mem, fun _ mem => mem, fun _ mem => mem, fun _ mem => .inl mem,
      fun _ _ _ h => h⟩
  | append_singleton batch x ih =>
    rw [List.map_append, List.nodup_append] at once
    obtain ⟨lin', ext⟩ := ih (fun y hy => invoked y (List.mem_append_left _ hy)) once.1
    obtain ⟨mem, new⟩ := invoked x (by simp)
    have fresh : x.1 ∉ (order ++ batch).map Prod.fst := by
      rw [List.map_append, List.mem_append, not_or]
      exact ⟨new, fun inside => once.2.2 x.1 inside x.1 (by simp) rfl⟩
    have last := extends_effect lin' x.1 x.2
    rw [← List.append_assoc]
    refine ⟨lin'.effect mem fresh, fun e he => last.kept e (ext.kept e he),
      fun y hy => last.grown y (ext.grown y hy), fun y hy => last.outputs y (ext.outputs y hy),
      fun i hi => ?_, fun key i known h => last.behind key i known (ext.behind key i known h)⟩
    rw [List.map_append, List.mem_append]
    rcases last.ids i hi with old | rfl
    · exact (ext.ids i old).imp_right .inl
    · exact .inr (.inr (by simp))

lemma outputs_reads {batch : List (I × ClientRequest)} (reads : ∀ x ∈ batch, x.2.value = "")
    (values : String → String) : (keyValues initial).after values batch = values ∧
      (keyValues initial).outputs values batch =
        batch.map fun x => (x.1, OpCode.get, values x.2.key) := by
  induction batch with
  | nil => exact ⟨rfl, rfl⟩
  | cons x batch ih =>
    obtain ⟨kept, rest⟩ := ih fun y hy => reads y (List.mem_cons_of_mem x hy)
    have here := @keyValues_read initial x.2 (reads x List.mem_cons_self) values
    have step : (keyValues initial).after values (x :: batch) =
        (keyValues initial).after ((keyValues initial).step values x.2).1 batch := rfl
    constructor
    · rw [step, here]
      exact kept
    · rw [Object.outputs, here, rest]
      rfl

lemma outputs_writes {batch : List (I × ClientRequest)} (writes : ∀ x ∈ batch, x.2.value ≠ "")
    (values : String → String) :
    (keyValues initial).outputs values batch = batch.map fun x => (x.1, OpCode.put, "") := by
  induction batch generalizing values with
  | nil => rfl
  | cons x batch ih =>
    have here := @keyValues_write initial x.2 (writes x List.mem_cons_self) values
    rw [Object.outputs, here, ih fun y hy => writes y (List.mem_cons_of_mem x hy)]
    rfl

end KeyValues
end Shortstack
