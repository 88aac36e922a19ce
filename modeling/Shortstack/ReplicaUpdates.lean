import Shortstack.UpdateCache

/-! Calls to an update cache after a put. Every replica of the key owes one update: its first
`check_for_update` takes the value, and the entry goes with the last of them. Calls for one key
and calls for another do not touch each other. -/
namespace Shortstack

inductive CacheCall
  | checkForUpdate (key : String) (replica : ℕ)
  | checkForUpdateImmutable (key : String) (replica : ℕ)
  | populateReplicaUpdates (key value : String) (numReplicas : ℕ)
  deriving DecidableEq, Repr

namespace CacheCall

def key : CacheCall → String
  | checkForUpdate key _ => key
  | checkForUpdateImmutable key _ => key
  | populateReplicaUpdates key _ _ => key

def isPopulate : CacheCall → Bool
  | populateReplicaUpdates _ _ _ => true
  | _ => false

/-- The cache a call leaves. -/
def next (cache : UpdateCache) : CacheCall → UpdateCache
  | checkForUpdate key replica => (cache.checkForUpdate key replica).2
  | checkForUpdateImmutable _ _ => cache
  | populateReplicaUpdates key value numReplicas =>
    cache.populateReplicaUpdates key value numReplicas

/-- The string a call returns; a put returns none. -/
def answer (cache : UpdateCache) : CacheCall → String
  | checkForUpdate key replica => (cache.checkForUpdate key replica).1
  | checkForUpdateImmutable key replica => cache.checkForUpdateImmutable key replica
  | populateReplicaUpdates _ _ _ => ""

end CacheCall

namespace UpdateCache
open CacheCall

def calls (cache : UpdateCache) (ops : List CacheCall) : UpdateCache := ops.foldl next cache

variable {cache : UpdateCache} {k value : String} {n : ℕ} {ops : List CacheCall}

@[simp] lemma calls_nil (cache : UpdateCache) : cache.calls [] = cache := rfl

lemma calls_append_singleton (cache : UpdateCache) (ops : List CacheCall) (op : CacheCall) :
    cache.calls (ops ++ [op]) = op.next (cache.calls ops) := by
  simp [calls]

lemma lookup_checkForUpdate_ne {key : String} (other : k ≠ key) (cache : UpdateCache)
    (replica : ℕ) : (cache.checkForUpdate key replica).2.lookup k = cache.lookup k := by
  unfold checkForUpdate
  split
  · rfl
  · dsimp only
    split
    · exact AList.lookup_erase_ne other
    · exact AList.lookup_insert_ne other

lemma lookup_next_ne {op : CacheCall} (other : k ≠ op.key) (cache : UpdateCache) :
    (op.next cache).lookup k = cache.lookup k := by
  cases op with
  | checkForUpdate key replica => exact lookup_checkForUpdate_ne other cache replica
  | checkForUpdateImmutable key replica => rfl
  | populateReplicaUpdates key value n =>
    exact (lookup_populate cache key value n k).trans (if_neg other)

lemma lookup_checkForUpdate_congr {a b : UpdateCache} (same : a.lookup k = b.lookup k)
    (replica : ℕ) : (a.checkForUpdate k replica).1 = (b.checkForUpdate k replica).1 ∧
      (a.checkForUpdate k replica).2.lookup k = (b.checkForUpdate k replica).2.lookup k := by
  unfold checkForUpdate
  rw [same]
  cases found : b.lookup k with
  | none => exact ⟨rfl, by rw [same, found]⟩
  | some entry =>
    refine ⟨rfl, ?_⟩
    dsimp only
    split
    · rw [AList.lookup_erase, AList.lookup_erase]
    · rw [AList.lookup_insert, AList.lookup_insert]

lemma next_congr {a b : UpdateCache} {op : CacheCall}
    (same : a.lookup op.key = b.lookup op.key) :
    op.answer a = op.answer b ∧ (op.next a).lookup op.key = (op.next b).lookup op.key := by
  cases op with
  | checkForUpdate key replica => exact lookup_checkForUpdate_congr same replica
  | checkForUpdateImmutable key replica =>
    refine ⟨?_, same⟩
    change a.lookup key = b.lookup key at same
    simp only [CacheCall.answer, checkForUpdateImmutable, same]
  | populateReplicaUpdates key value n =>
    refine ⟨rfl, ?_⟩
    simp only [CacheCall.next, CacheCall.key, lookup_populate, if_true]

/-- The entry of a key is what the calls for this key alone make of it. -/
lemma lookup_calls_filter (cache : UpdateCache) (ops : List CacheCall) (k : String) :
    (cache.calls ops).lookup k = (cache.calls (ops.filter fun op => op.key = k)).lookup k := by
  induction ops using List.reverseRecOn with
  | nil => rfl
  | append_singleton ops op ih =>
    rw [calls_append_singleton, List.filter_append]
    rcases eq_or_ne op.key k with rfl | other
    · rw [List.filter_cons_of_pos (by simp), List.filter_nil, calls_append_singleton]
      exact (next_congr ih).2
    · rw [List.filter_cons_of_neg (by simpa using other), List.filter_nil, List.append_nil,
        lookup_next_ne other.symm, ih]

lemma checkForUpdateImmutable_eq (cache : UpdateCache) (key : String) (replica : ℕ) :
    cache.checkForUpdateImmutable key replica = (cache.checkForUpdate key replica).1 := by
  unfold checkForUpdateImmutable checkForUpdate
  cases cache.lookup key <;> rfl

/-- The bits of a key whose replicas were checked by some of the calls. -/
def unchecked (ops : List CacheCall) (k : String) (n : ℕ) : List Bool :=
  (List.range n).map fun i => decide (CacheCall.checkForUpdate k i ∉ ops)

lemma unchecked_nil (k : String) (n : ℕ) : unchecked [] k n = List.replicate n true := by
  simp [unchecked]

lemma getD_unchecked {i : ℕ} (inside : i < n) :
    (unchecked ops k n).getD i false = decide (CacheCall.checkForUpdate k i ∉ ops) := by
  simp [unchecked, inside]

lemma set_unchecked (ops : List CacheCall) (k : String) (n i : ℕ) :
    (unchecked ops k n).set i false = unchecked (ops ++ [.checkForUpdate k i]) k n := by
  refine List.ext_getElem (by simp [unchecked]) fun j hj hj' => ?_
  have inside : j < n := by simpa [unchecked] using hj'
  rw [List.getElem_set]
  rcases eq_or_ne i j with rfl | other
  · simp [unchecked]
  · simp [unchecked, other, Ne.symm other]

lemma unchecked_other {op : CacheCall} (other : ∀ i, op ≠ .checkForUpdate k i) :
    unchecked (ops ++ [op]) k n = unchecked ops k n := by
  simp [unchecked, (other _).symm]

lemma count_unchecked_eq_zero :
    (unchecked ops k n).count true = 0 ↔ ¬ ∃ i < n, CacheCall.checkForUpdate k i ∉ ops := by
  rw [List.count_eq_zero]
  simp [unchecked]

/-- The entry of a key some calls after a put: gone when every replica was checked. -/
def owed (ops : List CacheCall) (k value : String) (n : ℕ) : Option CacheEntry :=
  if (unchecked ops k n).count true = 0 then none else some ⟨value, unchecked ops k n⟩

lemma owed_next {op : CacheCall} (cache : UpdateCache) (own : op.key = k)
    (reads : op.isPopulate = false) (before : cache.lookup k = owed ops k value n) :
    (op.next cache).lookup k = owed (ops ++ [op]) k value n := by
  cases op with
  | populateReplicaUpdates key v m => simp [isPopulate] at reads
  | checkForUpdateImmutable key replica =>
    rw [owed, unchecked_other (by simp)]
    exact before
  | checkForUpdate key replica =>
    obtain rfl : key = k := own
    unfold owed at before
    simp only [CacheCall.next]
    unfold checkForUpdate
    split at before
    · next none =>
      rw [before]
      have still : (unchecked (ops ++ [.checkForUpdate key replica]) key n).count true = 0 := by
        rw [count_unchecked_eq_zero] at none ⊢
        rintro ⟨i, inside, left⟩
        exact none ⟨i, inside, fun mem => left (List.mem_append_left _ mem)⟩
      rw [owed, if_pos still]
      exact before
    · rw [before]
      dsimp only
      rw [set_unchecked, owed]
      split
      · exact AList.lookup_erase key cache
      · exact AList.lookup_insert cache

lemma lookup_calls (cache : UpdateCache) (k value : String) {n : ℕ} (pos : 0 < n)
    {ops : List CacheCall} (reads : ∀ op ∈ ops, op.key = k → op.isPopulate = false) :
    ((cache.populateReplicaUpdates k value n).calls ops).lookup k = owed ops k value n := by
  induction ops using List.reverseRecOn with
  | nil =>
    rw [calls_nil, lookup_populate, if_pos rfl, owed, unchecked_nil, Int.toNat_natCast,
      List.count_replicate_self, if_neg pos.ne']
  | append_singleton ops op ih =>
    have before := ih fun x mem => reads x (List.mem_append_left _ mem)
    rw [calls_append_singleton]
    rcases eq_or_ne op.key k with own | other
    · exact owed_next _ own (reads op (by simp) own) before
    · rw [lookup_next_ne other.symm, before, owed, owed, unchecked_other]
      rintro i rfl
      exact other rfl

lemma checkForUpdate_owed (before : cache.lookup k = owed ops k value n) {i : ℕ} (inside : i < n) :
    (cache.checkForUpdate k i).1 = if CacheCall.checkForUpdate k i ∈ ops then "" else value := by
  unfold owed at before
  unfold checkForUpdate
  split at before
  · next none =>
    rw [before]
    rw [count_unchecked_eq_zero] at none
    push Not at none
    rw [if_pos (none i inside)]
  · rw [before]
    dsimp only
    rw [getD_unchecked inside]
    by_cases checked : CacheCall.checkForUpdate k i ∈ ops
    · simp [checked]
    · simp [checked]

/-- After a put to a key the first check of every replica returns the value and each later one
nothing, whatever is called in between. A look at a replica returns what its check would. The
entry of the key lasts until all replicas are checked, and no call for the key shows in the
entry of another key. -/
theorem check_for_update_once (cache : UpdateCache) (k value : String) {n : ℕ} (pos : 0 < n)
    {ops : List CacheCall} (reads : ∀ op ∈ ops, op.key = k → op.isPopulate = false) :
    let start := cache.populateReplicaUpdates k value n
    (∀ before op after, ops = before ++ op :: after →
      (∀ i < n, op = .checkForUpdate k i → op.answer (start.calls before) =
        if CacheCall.checkForUpdate k i ∈ before then "" else value) ∧
      (∀ key i, op = .checkForUpdateImmutable key i →
        op.answer (start.calls before) =
          (CacheCall.checkForUpdate key i).answer (start.calls before) ∧
        op.next (start.calls before) = start.calls before)) ∧
    (((start.calls ops).lookup k).isSome = true ↔
      ∃ i < n, CacheCall.checkForUpdate k i ∉ ops) ∧
    ∀ other, other ≠ k → (start.calls ops).lookup other =
      (cache.calls (ops.filter fun op => op.key ≠ k)).lookup other := by
  refine ⟨?_, ?_, ?_⟩
  · rintro before op after rfl
    refine ⟨?_, ?_⟩
    · rintro i inside rfl
      exact checkForUpdate_owed (lookup_calls cache k value pos fun op mem =>
        reads op (List.mem_append_left _ mem)) inside
    · rintro key i rfl
      exact ⟨checkForUpdateImmutable_eq _ key i, rfl⟩
  · rw [lookup_calls cache k value pos reads, owed, ← not_iff_not, ← count_unchecked_eq_zero]
    split
    · next gone => simp [gone]
    · next left => simp [left]
  · intro other apart
    have fresh : (cache.populateReplicaUpdates k value n).lookup other = cache.lookup other :=
      (lookup_populate cache k value n other).trans (if_neg apart)
    have grow : ∀ ops : List CacheCall, (∀ op ∈ ops, op.key = other) →
        ((cache.populateReplicaUpdates k value n).calls ops).lookup other =
          (cache.calls ops).lookup other := by
      intro ops
      induction ops using List.reverseRecOn with
      | nil => exact fun _ => fresh
      | append_singleton ops op ih =>
        intro own
        have before := ih fun x mem => own x (List.mem_append_left _ mem)
        obtain rfl := own op (by simp)
        rw [calls_append_singleton, calls_append_singleton]
        exact (next_congr before).2
    rw [lookup_calls_filter, lookup_calls_filter cache, List.filter_filter]
    have same : (ops.filter fun op => decide (op.key = other) && decide (op.key ≠ k)) =
        ops.filter fun op => op.key = other := by
      refine List.filter_congr fun op _ => ?_
      rcases eq_or_ne op.key other with rfl | no
      · simp [apart]
      · simp [no]
    rw [same]
    exact grow _ fun op mem => by simpa using (List.mem_filter.mp mem).2

/-- Two replicas, the first of them checked twice. -/
theorem check_for_update_once_two :
    let start := (∅ : UpdateCache).populateReplicaUpdates "k" "v" 2
    ((start.calls [.checkForUpdate "k" 0, .checkForUpdate "k" 0]).lookup "k").isSome = true := by
  have law := @check_for_update_once ∅ "k" "v" 2 (by decide)
    [.checkForUpdate "k" 0, .checkForUpdate "k" 0] (by decide)
  exact law.2.1.mpr ⟨1, by decide, by decide⟩

end UpdateCache
end Shortstack
