import Shortstack.Initializer
import Shortstack.LibOutcome
import Shortstack.UpdateCache

/-! New replicas of a key that take over labels of other keys. Their contents are missing until
the next access of the key, so real accesses are kept to the replicas before the first missing
one. The bits of a key that has no entry yet are created clear, though, and nothing is missing
then. -/
namespace Shortstack

namespace UpdateCache

/-- `edit_bit_vector_size`: an entry grows by replicas to update, a new entry has none. -/
def editBitVectorSize (cache : UpdateCache) (key : String) (size : ℕ) : UpdateCache :=
  match cache.lookup key with
  | some entry =>
    cache.insert key ⟨entry.value, (List.range size).map fun i => entry.bits.getD i true⟩
  | none => cache.insert key ⟨"", List.replicate size false⟩

def numLeadingZeros (bits : List Bool) : ℕ := bits.findIdx (· = true)

def mirrorUpdateCache (cache : UpdateCache) (key value : String) (bits : List Bool) :
    UpdateCache :=
  match cache.lookup key with
  | some entry =>
    cache.insert key ⟨entry.value,
      entry.bits.mapIdx fun i b => b || (decide (numLeadingZeros bits ≤ i) && decide (i < bits.length))⟩
  | none => cache.insert key ⟨value, bits⟩

/-- `check_if_missing`: the bits move to the other cache, and the entry goes. -/
def checkIfMissing (missing : UpdateCache) (key value : String) (cache : UpdateCache) :
    UpdateCache × UpdateCache :=
  match missing.lookup key with
  | some entry => (missing.erase key, cache.mirrorUpdateCache key value entry.bits)
  | none => (missing, cache)

/-- `sample_a_replica` with the values drawn by `prob` and `rand`. -/
def sampleAReplica (missing : UpdateCache) (key : String) (numReplicas : ℕ) (accessIsReal : Bool)
    (frequency : ℤ) (pMax draw : ℚ) (rand : ℕ) : Except String ℕ :=
  match missing.lookup key with
  | some entry =>
    let rInitialized := numLeadingZeros entry.bits
    if numReplicas < rInitialized then .error "Assertion failed: r_initialized <= num_replicas"
    else
      let pInitialized := (rInitialized * pMax - frequency) / (numReplicas * pMax - frequency)
      let repExists := decide (draw < pInitialized)
      if repExists || accessIsReal then
        if rInitialized = 0 then .error "division by zero" else .ok (rand % rInitialized)
      else if numReplicas = rInitialized then .error "division by zero"
      else .ok (rInitialized + rand % (numReplicas - rInitialized))
  | none => if numReplicas = 0 then .error "division by zero" else .ok (rand % numReplicas)

end UpdateCache

/-- The members of `pancake_proxy` that a change of replica counts touches. -/
structure ReplicaTable where
  replicaToLabel : AList (fun _ : String => ℕ)
  missingNewReplicas : UpdateCache

/-- The lists that collect the labels of removed replicas and the replicas without a label. -/
structure LabelMoves where
  unassignedLabels : List String
  needsLabels : List (String × ℕ)
  deriving DecidableEq, Repr

namespace ReplicaTable
open Initializer

/-- `std::string::operator=(char)`, to which the assignment of an `int` converts. -/
def charString (label : ℕ) : String := String.singleton (Char.ofNat (label % 256))

def releaseLabel (key : String) (x : ReplicaTable × LabelMoves) (i : ℕ) :
    Except String (ReplicaTable × LabelMoves) :=
  match x.1.replicaToLabel.lookup (replicaName key i) with
  | some label =>
    .ok ({ x.1 with replicaToLabel := x.1.replicaToLabel.erase (replicaName key i) },
      { x.2 with unassignedLabels := x.2.unassignedLabels ++ [charString label] })
  | none => .error "Assertion failed: replica_to_label_.find(key+std::to_string(i))"

def prepareForSwapping (dummyKey : String) (table : ReplicaTable) (moves : LabelMoves)
    (key : String) (rNew rOld : ℕ) : Except String (ReplicaTable × LabelMoves) :=
  if rOld < rNew then
    .ok (if key ≠ dummyKey then
        { table with missingNewReplicas := table.missingNewReplicas.editBitVectorSize key rNew }
      else table,
      { moves with
        needsLabels := moves.needsLabels ++
          (List.range' rOld (rNew - rOld)).map fun i => (key, i) })
  else if rNew < rOld then
    (List.range' rNew (rOld - rNew)).foldlM (releaseLabel key) (table, moves)
  else .ok (table, moves)

end ReplicaTable

namespace UpdateCache
variable {cache : UpdateCache} {k : String}

lemma numLeadingZeros_le_iff (bits : List Bool) (i : ℕ) :
    numLeadingZeros bits ≤ i ↔ ∃ j ≤ i, bits.getD j true = true := by
  induction bits generalizing i with
  | nil => exact ⟨fun _ => ⟨0, Nat.zero_le i, rfl⟩, fun _ => Nat.zero_le i⟩
  | cons b bits ih =>
    unfold numLeadingZeros at ih ⊢
    rw [List.findIdx_cons]
    cases b with
    | true => exact ⟨fun _ => ⟨0, Nat.zero_le i, rfl⟩, fun _ => Nat.zero_le i⟩
    | false =>
      cases i with
      | zero => simp
      | succ i =>
        have rest := ih i
        simp only [Bool.false_eq_true, decide_false, cond_false, Nat.add_le_add_iff_right, rest]
        constructor
        · rintro ⟨j, small, set⟩
          exact ⟨j + 1, by omega, set⟩
        · rintro ⟨j, small, set⟩
          cases j with
          | zero => simp at set
          | succ j => exact ⟨j, by omega, set⟩

/-- Bits that are added come after the first one that is set. -/
lemma numLeadingZeros_resize (bits : List Bool) (size : ℕ) :
    numLeadingZeros ((List.range size).map fun i => bits.getD i true) =
      min (numLeadingZeros bits) size := by
  refine eq_of_forall_ge_iff fun i => ?_
  rw [numLeadingZeros_le_iff, min_le_iff, numLeadingZeros_le_iff]
  constructor
  · rintro ⟨j, small, set⟩
    rcases lt_or_ge j size with inside | outside
    · refine .inl ⟨j, small, ?_⟩
      simpa [inside] using set
    · exact .inr (outside.trans small)
  · rintro (⟨j, small, set⟩ | all)
    · refine ⟨j, small, ?_⟩
      rcases lt_or_ge j size with inside | outside
      · simpa [inside] using set
      · simp [outside]
    · exact ⟨size, all, by simp⟩

lemma lookup_editBitVectorSize_ne {key : String} (other : k ≠ key) (size : ℕ) :
    (cache.editBitVectorSize key size).lookup k = cache.lookup k := by
  unfold editBitVectorSize
  split
  · exact AList.lookup_insert_ne other
  · exact AList.lookup_insert_ne other

lemma lookup_editBitVectorSize (cache : UpdateCache) (k : String) (size : ℕ) :
    (cache.editBitVectorSize k size).lookup k = some (match cache.lookup k with
      | some entry => ⟨entry.value, (List.range size).map fun i => entry.bits.getD i true⟩
      | none => ⟨"", List.replicate size false⟩) := by
  unfold editBitVectorSize
  cases cache.lookup k with
  | some entry => exact AList.lookup_insert cache
  | none => exact AList.lookup_insert cache

/-- The key has an entry with some clear bits first, at most as many as given. -/
def Clear (missing : UpdateCache) (k : String) (most : ℕ) : Prop :=
  ∃ entry, missing.lookup k = some entry ∧ 0 < numLeadingZeros entry.bits ∧
    numLeadingZeros entry.bits ≤ most

/-- The entry of the key marks the replicas of a range as missing. -/
def Marks (missing : UpdateCache) (k : String) (first last : ℕ) : Prop :=
  ∃ entry, missing.lookup k = some entry ∧
    ∀ i, first ≤ i → i < last → entry.bits[i]? = some true

variable {missing : UpdateCache} {most : ℕ}

lemma Clear.edit (clear : Clear missing k most) (key : String) {size : ℕ} (pos : 0 < size) :
    Clear (missing.editBitVectorSize key size) k most := by
  obtain ⟨entry, found, some', few⟩ := clear
  rcases eq_or_ne k key with rfl | other
  · refine ⟨_, lookup_editBitVectorSize missing k size, ?_, ?_⟩
    · rw [found]
      dsimp only
      rw [numLeadingZeros_resize]
      exact lt_min some' pos
    · rw [found]
      dsimp only
      rw [numLeadingZeros_resize]
      exact (min_le_left _ _).trans few
  · exact ⟨entry, (lookup_editBitVectorSize_ne other size).trans found, some', few⟩

lemma Clear.checkIfMissing {key : String} (clear : Clear missing k most) (other : k ≠ key)
    (value : String) (cache : UpdateCache) :
    Clear (missing.checkIfMissing key value cache).1 k most := by
  obtain ⟨entry, found, bounds⟩ := clear
  refine ⟨entry, ?_, bounds⟩
  unfold UpdateCache.checkIfMissing
  split
  · exact (AList.lookup_erase_ne other).trans found
  · exact found

lemma sampleAReplica_real (clear : Clear missing k most) {numReplicas : ℕ}
    (enough : most ≤ numReplicas) (frequency : ℤ) (pMax draw : ℚ) (rand : ℕ) :
    ∃ i < most, missing.sampleAReplica k numReplicas true frequency pMax draw rand = .ok i := by
  obtain ⟨entry, found, some', few⟩ := clear
  refine ⟨rand % numLeadingZeros entry.bits, (Nat.mod_lt _ some').trans_le few, ?_⟩
  unfold sampleAReplica
  rw [found]
  dsimp only
  rw [if_neg (by omega), Bool.or_true, if_pos rfl, if_neg some'.ne']

/-- Without a clear bit a real access divides by zero. -/
lemma numLeadingZeros_pos_of_sample {entry : CacheEntry} {numReplicas i rand : ℕ} {frequency : ℤ}
    {pMax draw : ℚ} (found : missing.lookup k = some entry)
    (sampled : missing.sampleAReplica k numReplicas true frequency pMax draw rand = .ok i) :
    0 < numLeadingZeros entry.bits := by
  unfold sampleAReplica at sampled
  rw [found] at sampled
  dsimp only at sampled
  split at sampled
  · simp at sampled
  · rw [Bool.or_true, if_pos rfl] at sampled
    split at sampled
    · simp at sampled
    · next some' => exact Nat.pos_of_ne_zero some'

end UpdateCache

/-- The state on which the functions for missing replicas work. -/
structure MissingState where
  table : ReplicaTable
  moves : LabelMoves
  updateCache : UpdateCache

inductive MissingCall
  | prepareForSwapping (key : String) (rNew rOld : ℕ)
  | checkIfMissing (key value : String)
  deriving DecidableEq, Repr

namespace MissingState
open UpdateCache ReplicaTable

def call (dummyKey : String) (s : MissingState) : MissingCall → Except String MissingState
  | .prepareForSwapping key rNew rOld =>
    (prepareForSwapping dummyKey s.table s.moves key rNew rOld).map fun x =>
      { s with table := x.1, moves := x.2 }
  | .checkIfMissing key value =>
    let (missing, cache) := s.table.missingNewReplicas.checkIfMissing key value s.updateCache
    .ok { s with table := { s.table with missingNewReplicas := missing }, updateCache := cache }

variable {s s' : MissingState} {dummyKey k : String} {most : ℕ}

lemma releaseLabels_missing {key : String} (is : List ℕ) {x x' : ReplicaTable × LabelMoves}
    (done : is.foldlM (releaseLabel key) x = .ok x') :
    x'.1.missingNewReplicas = x.1.missingNewReplicas := by
  refine @foldlM_preserves _ _ _ _ (fun y => y.1.missingNewReplicas = x.1.missingNewReplicas)
    is _ _ done rfl fun i _ y z same released => ?_
  unfold releaseLabel at released
  split at released
  · obtain rfl := Except.ok.inj released
    exact same
  · simp at released

lemma prepareForSwapping_missing {table table' : ReplicaTable} {moves moves' : LabelMoves}
    {key : String} {rNew rOld : ℕ}
    (done : prepareForSwapping dummyKey table moves key rNew rOld = .ok (table', moves')) :
    table'.missingNewReplicas = table.missingNewReplicas ∨
      0 < rNew ∧ table'.missingNewReplicas = table.missingNewReplicas.editBitVectorSize key rNew := by
  unfold prepareForSwapping at done
  split at done
  · next grows =>
    obtain ⟨rfl, rfl⟩ := Prod.ext_iff.mp (Except.ok.inj done)
    dsimp only
    split
    · exact .inr ⟨by omega, rfl⟩
    · exact .inl rfl
  · split at done
    · exact .inl (releaseLabels_missing _ done)
    · obtain ⟨rfl, rfl⟩ := Prod.ext_iff.mp (Except.ok.inj done)
      exact .inl rfl

lemma clear_call {op : MissingCall} (clear : Clear s.table.missingNewReplicas k most)
    (kept : ∀ value, op ≠ .checkIfMissing k value) (done : s.call dummyKey op = .ok s') :
    Clear s'.table.missingNewReplicas k most := by
  cases op with
  | prepareForSwapping key rNew rOld =>
    dsimp only [call] at done
    cases prepared : prepareForSwapping dummyKey s.table s.moves key rNew rOld with
    | error e => simp [prepared, Except.map] at done
    | ok x =>
      rw [prepared] at done
      obtain rfl := Except.ok.inj done
      rcases prepareForSwapping_missing prepared with same | ⟨pos, grown⟩
      · exact same ▸ clear
      · exact grown ▸ clear.edit key pos
  | checkIfMissing key value =>
    obtain rfl := Except.ok.inj done
    refine clear.checkIfMissing ?_ value s.updateCache
    rintro rfl
    exact kept value rfl

lemma clear_calls (ops : List MissingCall) (clear : Clear s.table.missingNewReplicas k most)
    (kept : ∀ value, MissingCall.checkIfMissing k value ∉ ops)
    (done : ops.foldlM (call dummyKey) s = .ok s') : Clear s'.table.missingNewReplicas k most := by
  refine @foldlM_preserves _ _ _ _ (fun s => Clear s.table.missingNewReplicas k most) ops _ _ done
    clear fun op mem s t clear done => clear_call clear ?_ done
  rintro value rfl
  exact kept value mem

/-- New replicas are marked as missing, and until the key is checked all real accesses go to
the replicas before them. -/
def Guarded (dummyKey : String) (s : MissingState) (k : String) (rNew rOld : ℕ) : Prop :=
  Marks s.table.missingNewReplicas k rOld rNew ∧
    ∀ (ops : List MissingCall) (s' : MissingState), (∀ value, MissingCall.checkIfMissing k value ∉ ops) →
      ops.foldlM (call dummyKey) s = .ok s' → ∀ frequency pMax draw rand,
        ∃ i < rOld, s'.table.missingNewReplicas.sampleAReplica k rNew true frequency pMax draw
          rand = .ok i

/-- The new replicas of a key are guarded exactly when the key has an entry already, its first
bit is clear and no bit of the new range is. -/
theorem prepareForSwapping_guarded_iff (dummyKey : String) (s : MissingState) {k : String}
    {rNew rOld : ℕ} (real : k ≠ dummyKey) (grows : rOld < rNew) :
    (∃ s', s.call dummyKey (.prepareForSwapping k rNew rOld) = .ok s' ∧
      Guarded dummyKey s' k rNew rOld) ↔
    ∃ entry, s.table.missingNewReplicas.lookup k = some entry ∧ entry.bits[0]? = some false ∧
      ∀ i b, rOld ≤ i → i < rNew → entry.bits[i]? = some b → b = true := by
  have called : s.call dummyKey (.prepareForSwapping k rNew rOld) = .ok
      { s with
        table := { s.table with
          missingNewReplicas := s.table.missingNewReplicas.editBitVectorSize k rNew }
        moves := { s.moves with
          needsLabels := s.moves.needsLabels ++
            (List.range' rOld (rNew - rOld)).map fun i => (k, i) } } := by
    simp only [call, prepareForSwapping, if_pos grows, if_pos real, Except.map]
  have after := lookup_editBitVectorSize s.table.missingNewReplicas k rNew
  constructor
  · rintro ⟨s', done, ⟨grown, found, marked⟩, sampled⟩
    obtain rfl := Except.ok.inj (called.symm.trans done)
    obtain rfl := Option.some.inj (after.symm.trans found)
    obtain ⟨i, -, real⟩ := sampled [] _ (by simp) rfl 0 0 0 0
    have some' := numLeadingZeros_pos_of_sample found real
    cases entry : s.table.missingNewReplicas.lookup k with
    | none =>
      rw [entry] at marked
      have := marked rOld le_rfl grows
      simp [grows] at this
    | some entry' =>
      rw [entry] at marked some'
      dsimp only at marked some'
      rw [numLeadingZeros_resize] at some'
      refine ⟨entry', rfl, ?_, fun i b low high bit => ?_⟩
      · have first := (not_le.mpr (some'.trans_le (min_le_left _ _)))
        rw [numLeadingZeros_le_iff] at first
        push Not at first
        have zero := first 0 le_rfl
        rw [List.getD_eq_getElem?_getD] at zero
        cases bit : entry'.bits[0]? with
        | none => simp [bit] at zero
        | some b => simpa [bit] using zero
      · have := marked i low high
        simpa [high, bit] using this
  · rintro ⟨entry, found, first, new⟩
    rw [found] at after
    refine ⟨_, called, ⟨_, after, fun i low high => ?_⟩, ?_⟩
    · cases bit : entry.bits[i]? with
      | none => simp [high, bit]
      | some b => simp [high, bit, new i b low high bit]
    · intro ops s' kept done frequency pMax draw rand
      have clear : Clear (s.table.missingNewReplicas.editBitVectorSize k rNew) k rOld := by
        refine ⟨_, after, ?_, ?_⟩
        · dsimp only
          rw [numLeadingZeros_resize]
          refine lt_min ?_ (by omega)
          rw [← not_le, numLeadingZeros_le_iff]
          rintro ⟨j, small, set⟩
          obtain rfl : j = 0 := by omega
          simp [first] at set
        · dsimp only
          rw [numLeadingZeros_resize, min_le_iff, numLeadingZeros_le_iff]
          refine .inl ⟨rOld, le_rfl, ?_⟩
          cases bit : entry.bits[rOld]? with
          | none => simp [bit]
          | some b => simp [bit, new rOld b le_rfl grows bit]
      exact sampleAReplica_real (clear_calls ops clear kept done) grows.le frequency pMax draw rand

/-- The first growth of a key: it has no entry, and its only old replica is the first. -/
def noEntry : MissingState := ⟨⟨∅, ∅⟩, ⟨[], []⟩, ∅⟩

/-- The entry is created with clear bits, and the new replica is sampled at once. -/
theorem noEntry_unguarded : ∃ s',
    noEntry.call "dummy" (.prepareForSwapping "k" 2 1) = .ok s' ∧
      ¬ Marks s'.table.missingNewReplicas "k" 1 2 ∧
      s'.table.missingNewReplicas.sampleAReplica "k" 2 true 0 (1 / 2) 0 1 = .ok 1 := by
  refine ⟨_, rfl, ?_, by decide +kernel⟩
  rintro ⟨entry, found, marked⟩
  obtain rfl : (⟨"", [false, false]⟩ : CacheEntry) = entry := Option.some.inj found
  exact absurd (marked 1 le_rfl (by decide)) (by decide)

/-- A key that grows again after its entry was made. -/
def grownOnce : MissingState := ⟨⟨∅, AList.singleton "k" ⟨"", [false, false]⟩⟩, ⟨[], []⟩, ∅⟩

theorem grownOnce_guarded : ∃ s',
    grownOnce.call "dummy" (.prepareForSwapping "k" 3 2) = .ok s' ∧ Guarded "dummy" s' "k" 3 2 :=
  (prepareForSwapping_guarded_iff "dummy" grownOnce (by decide) (by decide)).mpr
    ⟨⟨"", [false, false]⟩, rfl, rfl, fun i b low _ bit => by
      rw [List.getElem?_eq_none low] at bit
      simp at bit⟩

end MissingState
end Shortstack
