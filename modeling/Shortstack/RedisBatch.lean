import Shortstack.ConsistentHash
import Shortstack.LibGrouping
import Shortstack.Storage

/-! Synchronous access to the stores through the Redis client: single reads and writes, and
batches, which are split by the server of each key. The map of the per-server vectors is
traversed in an order that is an argument. -/
namespace Shortstack
open Grouping

/-- The connections of a client: the number of servers and what they hold. -/
structure Redis where
  numServers : ℕ
  store : ℕ → Kv

namespace Redis

def server (r : Redis) (key : String) : ℕ := consistentHash key r.numServers

def get (r : Redis) (key : String) : Except String String :=
  match r.store (r.server key) key with
  | some value => .ok value
  | none => .error "Reply is not a string"

/-- `SET` at one server. -/
def set (id : ℕ) (r : Redis) (p : String × String) : Redis :=
  { r with store := Function.update r.store id (Function.update (r.store id) p.1 (some p.2)) }

def put (r : Redis) (p : String × String) : Redis := r.set (r.server p.1) p

def mget (r : Redis) (id : ℕ) (keys : List String) : List (Option String) := keys.map (r.store id)

/-- `MSET` applies its pairs from left to right. -/
def mset (r : Redis) (id : ℕ) (pairs : List (String × String)) : Redis := pairs.foldl (set id) r

/-- One element of the reply to an `MGET`. -/
def nestedReply : Option String → Except String String
  | some value => .ok value
  | none => .error "GET returned NULL value"

def getBatch (iterate : AList (fun _ : ℕ => List String) → List (ℕ × List String)) (r : Redis)
    (keys : List String) : Except String (List String) :=
  ((iterate (groups r.server keys)).flatMap fun e => r.mget e.1 e.2).mapM nestedReply

def putBatch
    (iterate : AList (fun _ : ℕ => List (String × String)) → List (ℕ × List (String × String)))
    (r : Redis) (keys values : List String) : Redis :=
  (iterate (groups (fun p => r.server p.1) (keys.zip values))).foldl (fun r e => r.mset e.1 e.2) r

/-- Two orders in which a map of vectors can be traversed. -/
def ascending {β : Type} (m : AList (fun _ : ℕ => β)) : List (ℕ × β) :=
  (m.entries.map fun e => (e.1, e.2)).insertionSort fun a b => a.1 ≤ b.1

def descending {β : Type} (m : AList (fun _ : ℕ => β)) : List (ℕ × β) := (ascending m).reverse

lemma traversal_ascending {β : Type} (m : AList (fun _ : ℕ => β)) : Traversal m (ascending m) :=
  List.perm_insertionSort _ _

lemma traversal_descending {β : Type} (m : AList (fun _ : ℕ => β)) : Traversal m (descending m) :=
  (List.reverse_perm _).trans (traversal_ascending m)

section Reads
variable {iterate : AList (fun _ : ℕ => List String) → List (ℕ × List String)} {r : Redis}
  {keys : List String}

/-- The list holds, position by position, what single reads of the keys return. -/
def Agrees (r : Redis) (keys : List String) (out : Except String (List String)) : Prop :=
  ∃ values, out = .ok values ∧ List.Forall₂ (fun k v => r.get k = .ok v) keys values

/-- The servers of a batch in the order in which their replies are read. -/
def serverOrder (iterate : AList (fun _ : ℕ => List String) → List (ℕ × List String)) (r : Redis)
    (keys : List String) : List ℕ := (iterate (groups r.server keys)).map Prod.fst

lemma mapM_nestedReply (values : List String) :
    (values.map some).mapM nestedReply = .ok values := by
  induction values with
  | nil => rfl
  | cons v values ih =>
    rw [List.map_cons, List.mapM_cons, ih]
    rfl

lemma getBatch_eq (order : ∀ m, Traversal m (iterate m)) {value : String → String}
    (present : ∀ k ∈ keys, r.store (r.server k) k = some (value k)) :
    r.getBatch iterate keys =
      .ok ((regroup r.server (r.serverOrder iterate keys) keys).map value) := by
  have grouped := order (groups r.server keys)
  have replies : ((iterate (groups r.server keys)).flatMap fun e => r.mget e.1 e.2) =
      (((iterate (groups r.server keys)).flatMap Prod.snd).map value).map some := by
    rw [List.map_flatMap, List.map_flatMap]
    refine List.flatMap_congr fun e mem => ?_
    unfold mget
    rw [List.map_map]
    refine List.map_congr_left fun k inside => ?_
    rw [grouped.groups.2.2 e mem, List.mem_filter, decide_eq_true_eq] at inside
    rw [← inside.2]
    exact present k inside.1
  unfold getBatch serverOrder
  rw [replies, mapM_nestedReply, grouped.flatMap_snd]

lemma agrees_iff {value : String → String}
    (present : ∀ k ∈ keys, r.store (r.server k) k = some (value k)) (values : List String) :
    r.Agrees keys (.ok values) ↔ values = keys.map value := by
  have single : ∀ k ∈ keys, ∀ v, r.get k = .ok v ↔ value k = v := by
    intro k mem v
    unfold get
    rw [present k mem]
    simp
  constructor
  · rintro ⟨_, same, pairs⟩
    obtain rfl := Except.ok.inj same
    clear same
    induction pairs with
    | nil => rfl
    | cons first _ ih =>
      rw [List.map_cons, (single _ List.mem_cons_self _).mp first, ih
        (fun k mem => present k (List.mem_cons_of_mem _ mem))
        fun k mem => single k (List.mem_cons_of_mem _ mem)]
  · rintro rfl
    refine ⟨_, rfl, ?_⟩
    rw [List.forall₂_map_right_iff, List.forall₂_same]
    exact fun k mem => (single k mem _).mpr rfl

/-- Batched reads agree with single reads, whatever the servers hold, exactly when the servers
of the keys come in the order in which their replies are read. -/
theorem getBatch_agrees_iff (order : ∀ m, Traversal m (iterate m)) (numServers : ℕ)
    (keys : List String) :
    (∀ store : ℕ → Kv, (∀ k ∈ keys, (store (consistentHash k numServers) k).isSome = true) →
      Agrees ⟨numServers, store⟩ keys (getBatch iterate ⟨numServers, store⟩ keys)) ↔
    keys.Pairwise fun a b =>
      (serverOrder iterate ⟨numServers, fun _ _ => none⟩ keys).idxOf (consistentHash a numServers) ≤
        (serverOrder iterate ⟨numServers, fun _ _ => none⟩ keys).idxOf
          (consistentHash b numServers) := by
  obtain ⟨nodup, covers, -⟩ :=
    (order (groups (server ⟨numServers, fun _ _ => none⟩) keys)).groups
  have unmoved := regroup_eq_self_iff nodup covers
  refine Iff.trans ?_ unmoved
  constructor
  · intro agree
    have present : ∀ k ∈ keys, (fun (_ : ℕ) (k : String) => some k)
        (server ⟨numServers, fun _ k => some k⟩ k) k = some (id k) := fun _ _ => rfl
    have own := agree (fun _ k => some k) fun _ _ => rfl
    rw [getBatch_eq order present, agrees_iff present, List.map_id, List.map_id] at own
    exact own
  · intro same store stored
    have present : ∀ k ∈ keys, store (server ⟨numServers, store⟩ k) k =
        some ((store (consistentHash k numServers) k).getD "") := by
      intro k mem
      obtain ⟨v, found⟩ := Option.isSome_iff_exists.mp (stored k mem)
      rw [found]
      exact found
    rw [getBatch_eq order present, agrees_iff present]
    exact congrArg _ same

/-- Two servers that hold every key as its own value. -/
def mirror : Redis := ⟨2, fun _ k => some k⟩

theorem getBatch_agrees_iff_sorted :
    Agrees mirror ["1", "0"] (mirror.getBatch ascending ["1", "0"]) :=
  (getBatch_agrees_iff traversal_ascending 2 ["1", "0"]).mpr (by decide +kernel)
    (fun _ k => some k) (by decide)

/-- The first and the last key are at one server, the one between them at the other: no order
of the servers gives the values in the order of the keys. -/
theorem getBatch_mixes_values :
    ["0", "1", "2"].map mirror.server = [1, 0, 1] ∧
    ["0", "1", "2"].map mirror.get = [.ok "0", .ok "1", .ok "2"] ∧
    mirror.getBatch ascending ["0", "1", "2"] = .ok ["1", "0", "2"] ∧
    mirror.getBatch descending ["0", "1", "2"] = .ok ["0", "2", "1"] ∧
    ¬ Agrees mirror ["0", "1", "2"] (mirror.getBatch ascending ["0", "1", "2"]) ∧
    ¬ Agrees mirror ["0", "1", "2"] (mirror.getBatch descending ["0", "1", "2"]) := by
  have up : mirror.getBatch ascending ["0", "1", "2"] = .ok ["1", "0", "2"] := by decide +kernel
  have down : mirror.getBatch descending ["0", "1", "2"] = .ok ["0", "2", "1"] := by decide +kernel
  have own : ∀ k ∈ ["0", "1", "2"], mirror.store (mirror.server k) k = some (id k) :=
    fun _ _ => rfl
  refine ⟨by decide +kernel, by decide +kernel, up, down, ?_, ?_⟩
  · rw [up, agrees_iff own]
    decide
  · rw [down, agrees_iff own]
    decide

end Reads

section Writes
variable
  {iterate : AList (fun _ : ℕ => List (String × String)) → List (ℕ × List (String × String))}

lemma set_comm {r : Redis} {i j : ℕ} (other : i ≠ j) (p q : String × String) :
    (r.set i p).set j q = (r.set j q).set i p := by
  unfold set
  simp only [Redis.mk.injEq, true_and, Function.update_of_ne other, Function.update_of_ne other.symm]
  exact Function.update_comm other _ _ _

lemma foldl_put (r : Redis) (n : ℕ) (size : r.numServers = n) (pairs : List (String × String)) :
    pairs.foldl put r = pairs.foldl (fun r p => r.set (consistentHash p.1 n) p) r := by
  induction pairs generalizing r with
  | nil => rfl
  | cons p pairs ih =>
    rw [List.foldl_cons, List.foldl_cons, ih _ (by exact size)]
    unfold put server
    rw [size]

lemma put_server (r : Redis) (p : String × String) (k : String) : (r.put p).server k = r.server k :=
  rfl

lemma put_store (r : Redis) (p : String × String) (id : ℕ) (k : String) :
    (r.put p).store id k = if id = r.server p.1 ∧ k = p.1 then some p.2 else r.store id k := by
  unfold put set
  dsimp only
  by_cases server : id = r.server p.1
  · subst server
    rw [Function.update_self, Function.update_apply]
    simp
  · rw [Function.update_of_ne server, if_neg fun both => server both.1]

lemma foldl_put_other (pairs : List (String × String)) (r : Redis) {id : ℕ} {k : String}
    (other : id = r.server k → k ∉ pairs.map Prod.fst) :
    (pairs.foldl put r).store id k = r.store id k := by
  induction pairs generalizing r with
  | nil => rfl
  | cons p pairs ih =>
    rw [List.foldl_cons, ih (r.put p) fun own mem => other own (List.mem_cons_of_mem _ mem), put_store,
      if_neg]
    rintro ⟨own, rfl⟩
    exact other own List.mem_cons_self

lemma foldl_put_server (pairs : List (String × String)) (r : Redis) (k : String) :
    (pairs.foldl put r).server k = r.server k := by
  induction pairs generalizing r with
  | nil => rfl
  | cons p pairs ih => rw [List.foldl_cons, ih, put_server]

lemma foldl_put_last (before after : List (String × String)) (r : Redis) {k v : String}
    (last : k ∉ after.map Prod.fst) :
    ((before ++ (k, v) :: after).foldl put r).store (r.server k) k = some v := by
  rw [List.foldl_append, List.foldl_cons, foldl_put_other after _ fun _ => last, put_store]
  exact if_pos ⟨(foldl_put_server before r k).symm, rfl⟩

lemma putBatch_eq_foldl (order : ∀ m, Traversal m (iterate m)) (r : Redis)
    (keys values : List String) :
    r.putBatch iterate keys values = (keys.zip values).foldl put r := by
  have grouped := order (groups (fun p : String × String => r.server p.1) (keys.zip values))
  obtain ⟨nodup, covers, classes⟩ := grouped.groups
  have sets : ∀ (entries : List (ℕ × List (String × String))) (s : Redis),
      (∀ e ∈ entries, ∀ p ∈ e.2, r.server p.1 = e.1) →
      entries.foldl (fun s e => s.mset e.1 e.2) s =
        (entries.flatMap Prod.snd).foldl (fun s p => s.set (r.server p.1) p) s := by
    intro entries
    induction entries with
    | nil => exact fun _ _ => rfl
    | cons e entries ih =>
      intro s own
      rw [List.foldl_cons, List.flatMap_cons, List.foldl_append,
        ih _ fun x mem => own x (List.mem_cons_of_mem _ mem)]
      congr 1
      exact List.foldl_ext _ _ _ fun s p mem => by rw [own e List.mem_cons_self p mem]
  have own : ∀ e ∈ iterate (groups (fun p : String × String => r.server p.1) (keys.zip values)),
      ∀ p ∈ e.2, r.server p.1 = e.1 := by
    intro e mem p inside
    rw [classes e mem, List.mem_filter, decide_eq_true_eq] at inside
    exact inside.2
  have commute : ∀ (s : Redis) (p q : String × String), r.server p.1 ≠ r.server q.1 →
      (s.set (r.server p.1) p).set (r.server q.1) q =
        (s.set (r.server q.1) q).set (r.server p.1) p :=
    fun s p q other => set_comm other p q
  unfold putBatch
  rw [sets _ _ own, grouped.flatMap_snd, foldl_put r r.numServers rfl]
  exact @foldl_regroup _ _ _ _ _ (fun s p => s.set (r.server p.1) p) commute _ nodup _ covers r

/-- Batched writes leave every server as single writes one after the other do, in whatever order
the servers are served: each key at its server with the last value written to it, and all else
as it was. -/
theorem putBatch_eq (order : ∀ m, Traversal m (iterate m)) (r : Redis) (keys values : List String) :
    r.putBatch iterate keys values = (keys.zip values).foldl put r ∧
      (∀ before k v after, keys.zip values = before ++ (k, v) :: after → k ∉ after.map Prod.fst →
        (r.putBatch iterate keys values).store (r.server k) k = some v) ∧
      ∀ id k, (id = r.server k → k ∉ (keys.zip values).map Prod.fst) →
        (r.putBatch iterate keys values).store id k = r.store id k := by
  rw [putBatch_eq_foldl order]
  refine ⟨rfl, fun before k v after split last => ?_, fun id k => foldl_put_other _ r⟩
  rw [split]
  exact foldl_put_last before after r last

/-- The later value of "0" is stored at the server of "0", and the other server keeps its own. -/
theorem putBatch_eq_repeated :
    mirror.putBatch descending ["0", "1", "0"] ["a", "b", "c"] =
      [("0", "a"), ("1", "b"), ("0", "c")].foldl put mirror ∧
    (mirror.putBatch descending ["0", "1", "0"] ["a", "b", "c"]).store (mirror.server "0") "0" =
      some "c" ∧
    (mirror.putBatch descending ["0", "1", "0"] ["a", "b", "c"]).store (mirror.server "1") "0" =
      some "0" := by
  obtain ⟨same, last, other⟩ :=
    putBatch_eq traversal_descending mirror ["0", "1", "0"] ["a", "b", "c"]
  exact ⟨same, last [("0", "a"), ("1", "b")] "0" "c" [] rfl (by decide),
    other (mirror.server "1") "0" fun own => absurd own (by decide +kernel)⟩

end Writes
end Redis
end Shortstack
