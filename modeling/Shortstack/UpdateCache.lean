import Mathlib

/-! The update cache of an L2 instance: the last value put to a key and, for each
replica, whether it still has to receive that value. -/
namespace Shortstack

structure CacheEntry where
  value : String
  bits : List Bool
  deriving DecidableEq, Repr

abbrev UpdateCache := AList (fun _ : String => CacheEntry)

namespace UpdateCache

def populateReplicaUpdates (cache : UpdateCache) (key value : String) (numReplicas : ℤ) :
    UpdateCache :=
  cache.insert key ⟨value, List.replicate numReplicas.toNat true⟩

def checkForUpdateImmutable (cache : UpdateCache) (key : String) (replica : ℤ) : String :=
  match cache.lookup key with
  | some entry => if entry.bits.getD replica.toNat false then entry.value else ""
  | none => ""

/-- Two caches hold the same keys with the same values. -/
def SameContents (a b : UpdateCache) : Prop := ∀ key, a.lookup key = b.lookup key

lemma lookup_populate (cache : UpdateCache) (key value : String) (n : ℤ) (k : String) :
    (cache.populateReplicaUpdates key value n).lookup k =
      if k = key then some ⟨value, List.replicate n.toNat true⟩ else cache.lookup k := by
  unfold populateReplicaUpdates
  split
  · next h =>
    subst h
    exact AList.lookup_insert _
  · next h => exact AList.lookup_insert_ne h

lemma SameContents.check {a b : UpdateCache} (h : SameContents a b) (key : String) (replica : ℤ) :
    a.checkForUpdateImmutable key replica = b.checkForUpdateImmutable key replica := by
  simp only [checkForUpdateImmutable, h key]

/-- `check_for_update`: the value a replica still has to receive. Its bit is cleared, and an
entry without bits is erased. -/
def checkForUpdate (cache : UpdateCache) (key : String) (replica : ℕ) : String × UpdateCache :=
  match cache.lookup key with
  | none => ("", cache)
  | some entry =>
    let bits := entry.bits.set replica false
    (if entry.bits.getD replica false then entry.value else "",
      if bits.count true = 0 then cache.erase key else cache.insert key ⟨entry.value, bits⟩)

/-- Whether a replica still has to receive the value of its key. -/
def pendingBit (cache : UpdateCache) (key : String) (replica : ℕ) : Bool :=
  match cache.lookup key with
  | some entry => entry.bits.getD replica false
  | none => false

lemma pendingBit_populate (cache : UpdateCache) (key value : String) (n : ℕ) (k : String)
    (i : ℕ) : (cache.populateReplicaUpdates key value n).pendingBit k i =
      if k = key then decide (i < n) else cache.pendingBit k i := by
  unfold pendingBit
  rw [lookup_populate]
  rcases eq_or_ne k key with same | other
  · rw [if_pos same, if_pos same]
    dsimp only
    rw [Int.toNat_natCast]
    rcases lt_or_ge i n with inside | outside
    · simp [inside]
    · simp [not_lt.mpr outside]
  · rw [if_neg other, if_neg other]

lemma checkForUpdate_value {cache : UpdateCache} {key k : String} {replica : ℕ} {e : CacheEntry}
    (found : (cache.checkForUpdate key replica).2.lookup k = some e) :
    ∃ old, cache.lookup k = some old ∧ old.value = e.value := by
  unfold checkForUpdate at found
  split at found
  · exact ⟨e, found, rfl⟩
  · next entry lookup =>
    dsimp only at found
    rcases eq_or_ne k key with rfl | other
    · split at found
      · rw [AList.lookup_erase] at found
        simp at found
      · rw [AList.lookup_insert] at found
        obtain rfl := Option.some.inj found
        exact ⟨entry, lookup, rfl⟩
    · split at found
      · rw [AList.lookup_erase_ne other] at found
        exact ⟨e, found, rfl⟩
      · rw [AList.lookup_insert_ne other] at found
        exact ⟨e, found, rfl⟩

lemma pendingBit_checkForUpdate (cache : UpdateCache) (key : String) (replica : ℕ) (k : String)
    (i : ℕ) : (cache.checkForUpdate key replica).2.pendingBit k i =
      if k = key ∧ i = replica then false else cache.pendingBit k i := by
  unfold checkForUpdate
  cases lookup : cache.lookup key with
  | none =>
    dsimp only
    split
    · next same =>
      unfold pendingBit
      rw [same.1, lookup]
    · rfl
  | some entry =>
    dsimp only
    rcases eq_or_ne k key with rfl | other
    · have cleared : (entry.bits.set replica false).getD i false =
          if i = replica then false else entry.bits.getD i false := by
        rcases eq_or_ne i replica with rfl | away
        · rcases lt_or_ge i entry.bits.length with inside | outside
          · simp [inside]
          · rw [List.set_eq_of_length_le outside]
            simp [List.getElem?_eq_none outside]
        · simp [away, List.getElem?_set_ne (Ne.symm away)]
      have before : cache.pendingBit k i = entry.bits.getD i false := by
        unfold pendingBit
        rw [lookup]
      rw [before]
      simp only [true_and]
      split
      · next none =>
        unfold pendingBit
        rw [AList.lookup_erase]
        dsimp only
        rw [← cleared]
        by_contra set
        refine absurd none (Nat.pos_iff_ne_zero.mp (List.count_pos_iff.mpr ?_))
        rw [eq_comm, Bool.not_eq_false] at set
        rw [List.getD_eq_getElem?_getD] at set
        cases found : (entry.bits.set replica false)[i]? with
        | none => simp [found] at set
        | some b =>
          obtain rfl : b = true := by simpa [found] using set
          exact List.mem_of_getElem? found
      · unfold pendingBit
        rw [AList.lookup_insert]
        exact cleared
    · have apart : ¬ (k = key ∧ i = replica) := fun same => other same.1
      rw [if_neg apart]
      unfold pendingBit
      congr 1
      split
      · exact AList.lookup_erase_ne other
      · exact AList.lookup_insert_ne other

lemma checkForUpdate_fst (cache : UpdateCache) (key : String) (replica : ℕ) :
    (cache.pendingBit key replica = true ∧ ∃ e, cache.lookup key = some e ∧
      (cache.checkForUpdate key replica).1 = e.value) ∨
    cache.pendingBit key replica = false ∧ (cache.checkForUpdate key replica).1 = "" := by
  unfold checkForUpdate pendingBit
  cases cache.lookup key with
  | none => exact .inr ⟨rfl, rfl⟩
  | some entry =>
    dsimp only
    cases entry.bits.getD replica false with
    | true => exact .inl ⟨rfl, entry, rfl, rfl⟩
    | false => exact .inr ⟨rfl, rfl⟩

end UpdateCache
end Shortstack
