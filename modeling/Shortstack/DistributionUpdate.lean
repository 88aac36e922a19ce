import Shortstack.L2Operation
import Shortstack.MissingReplicas
import Shortstack.ReplicaLabels

/-! A new distribution in the centralised proxy. Replicas that are no longer needed release
their labels and new replicas take them over. A released label is stored as a character and
read back as a numeral, so no label survives the way from one replica to another; labels are
conserved only when none has to move. -/
namespace Shortstack
open Initializer

/-- The members of `pancake_proxy` that follow the distribution. -/
structure PancakeReplicas extends ReplicaTable where
  keyToNumberOfReplicas : AList (fun _ : String => ℤ)
  keyToFrequency : AList (fun _ : String => ℤ)
  newKeyToFrequency : AList (fun _ : String => ℤ)
  labelCount : ℕ
  dummyKeys : ℤ
  alpha : ℚ
  pMax : ℚ
  realDistribution : Distribution
  fakeDistribution : Distribution

namespace PancakeReplicas

/-- `insert_replicas`, apart from what it writes to the store. -/
def insertReplicas (s : PancakeReplicas) (key : String) (numReplicas : ℤ) : PancakeReplicas :=
  (List.range numReplicas.toNat).foldl
    (fun s i => { s with
      replicaToLabel := s.replicaToLabel.insert (replicaName key i) s.labelCount
      labelCount := s.labelCount + 1 }) s

def addKey (s : PancakeReplicas) (key : String) (numReplicas : ℤ) : PancakeReplicas :=
  { s with keyToNumberOfReplicas := s.keyToNumberOfReplicas.insert key numReplicas }
    |>.insertReplicas key numReplicas

/-- The proxy before `create_replicas`; frequencies are stored in an `int`. -/
def empty (dist : RealDistribution) : PancakeReplicas where
  replicaToLabel := ∅
  missingNewReplicas := ∅
  keyToNumberOfReplicas := ∅
  keyToFrequency := (dist.items.zip dist.probabilities).foldl
    (fun frequencies e => frequencies.insert e.1 ⌊e.2⌋) ∅
  newKeyToFrequency := ∅
  labelCount := 0
  dummyKeys := dist.dummyReplicaCount
  alpha := dist.alpha
  pMax := 0
  realDistribution := dist.toDistribution
  fakeDistribution := ⟨[], []⟩

def createReplicas (dist : RealDistribution) (dummyKey : String) : PancakeReplicas :=
  let s := dist.realCounts.foldl (fun s c => s.addKey c.1 c.2) (empty dist)
  let s := if dist.dummyReplicaCount ≠ 0 then s.addKey dummyKey dist.dummyReplicaCount else s
  { s with fakeDistribution := dist.fakeDistribution dummyKey }

/-- `perform_swapping`, for lists of the same length. -/
def performSwapping (labels : AList (fun _ : String => ℕ)) (unassigned : List String)
    (needs : List (String × ℕ)) : Except String (AList (fun _ : String => ℕ)) :=
  (needs.zip unassigned).foldlM (fun labels e =>
    match stoi e.2 with
    | some label => .ok (labels.insert (replicaName e.1.1 e.1.2) label.toNat)
    | none => .error "stoi") labels

def recomputeFakeDistribution (s : PancakeReplicas) (dummyKey : String) (dist : Distribution) :
    Except String PancakeReplicas :=
  let missing := s.missingNewReplicas.entries
  let count := fun key => (s.keyToNumberOfReplicas.lookup key).getD 0
  if ∀ e ∈ missing, (e.2.bits.length : ℤ) = count e.1 then
    let pMax := missing.foldl (fun (most : ℚ) e =>
      max most ((s.newKeyToFrequency.lookup e.1).getD 0)) (1 / dist.items.length)
    .ok { s with
      pMax := pMax
      fakeDistribution := ⟨dist.items ++ [dummyKey],
        List.zipWith (fun key p => count key * pMax - p) dist.items dist.probabilities ++
          [s.dummyKeys * pMax]⟩ }
  else .error "Assertion failed: bit_vec.size() == r"

/-- One key of the loop in `update_distribution`: its state, the lists and the number of
replicas so far. -/
def updateKey (dummyKey : String) (x : PancakeReplicas × LabelMoves × ℤ) (e : String × ℚ) :
    Except String (PancakeReplicas × LabelMoves × ℤ) :=
  let (s, moves, count) := x
  let rOld := (s.keyToNumberOfReplicas.lookup e.1).getD 0
  let rNew := ⌈e.2 / s.alpha⌉
  let s := { s with
    newKeyToFrequency := s.newKeyToFrequency.insert e.1 ⌊e.2⌋
    keyToNumberOfReplicas := s.keyToNumberOfReplicas.insert e.1 rNew }
  if 0 < rNew then
    (ReplicaTable.prepareForSwapping dummyKey s.toReplicaTable moves e.1 rNew.toNat rOld.toNat).map
      fun y => ({ s with toReplicaTable := y.1 }, y.2, count + rNew)
  else .error "Assertion failed: r_new > 0"

def updateDistribution (s : PancakeReplicas) (dummyKey : String) (dist : Distribution) :
    Except String PancakeReplicas := do
  let (s, moves, count) ←
    (dist.items.zip dist.probabilities).foldlM (updateKey dummyKey) (s, ⟨[], []⟩, 0)
  if 2 * dist.items.length ≤ count then
    throw "Assertion failed: new_num_real_replicas < 2*n"
  let dummyKeys := 2 * dist.items.length - count
  let (table, moves) ← ReplicaTable.prepareForSwapping dummyKey s.toReplicaTable moves dummyKey
    dummyKeys.toNat s.dummyKeys.toNat
  let s ← recomputeFakeDistribution { s with toReplicaTable := table, dummyKeys := dummyKeys }
    dummyKey dist
  if moves.needsLabels.length ≠ moves.unassignedLabels.length then
    throw "Assertion failed: needs_labels.size() == unassigned_labels.size()"
  let labels ← performSwapping s.replicaToLabel moves.unassignedLabels moves.needsLabels
  return { s with
    replicaToLabel := labels
    realDistribution := dist
    keyToFrequency := s.newKeyToFrequency }

/-- Labels were given to the names in this order. -/
structure Numbered (names : List String) (s : PancakeReplicas) : Prop where
  count : s.labelCount = names.length
  sound : ∀ name l, s.replicaToLabel.lookup name = some l → names[l]? = some name
  total : ∀ name ∈ names, ∃ l, s.replicaToLabel.lookup name = some l

section Create
variable {s : PancakeReplicas} {names : List String}

lemma Numbered.insert (h : Numbered names s) (replica : String) :
    Numbered (names ++ [replica]) { s with
      replicaToLabel := s.replicaToLabel.insert replica s.labelCount
      labelCount := s.labelCount + 1 } where
  count := by simp [h.count]
  sound := by
    intro name l found
    rcases eq_or_ne name replica with rfl | other
    · rw [AList.lookup_insert, Option.some.injEq] at found
      simp [← found, h.count]
    · rw [AList.lookup_insert_ne other] at found
      have old := h.sound name l found
      rw [List.getElem?_append_left (List.getElem?_eq_some_iff.mp old).1, old]
  total := by
    intro name mem
    rcases eq_or_ne name replica with rfl | other
    · exact ⟨_, AList.lookup_insert _⟩
    · dsimp only
      rw [AList.lookup_insert_ne other]
      exact h.total name (by simpa [other] using mem)

lemma Numbered.insertReplicas (h : Numbered names s) (key : String) (r : ℤ) :
    Numbered (names ++ (List.range r.toNat).map (replicaName key)) (s.insertReplicas key r) := by
  unfold PancakeReplicas.insertReplicas
  generalize List.range r.toNat = is
  induction is generalizing s names with
  | nil => simpa using h
  | cons i is ih => simpa using ih (h.insert (replicaName key i))

lemma insertReplicas_frame (s : PancakeReplicas) (key : String) (r : ℤ) :
    (s.insertReplicas key r).keyToNumberOfReplicas = s.keyToNumberOfReplicas ∧
      (s.insertReplicas key r).missingNewReplicas = s.missingNewReplicas ∧
      (s.insertReplicas key r).dummyKeys = s.dummyKeys ∧
      (s.insertReplicas key r).alpha = s.alpha := by
  unfold insertReplicas
  generalize List.range r.toNat = is
  induction is generalizing s with
  | nil => exact ⟨rfl, rfl, rfl, rfl⟩
  | cons i is ih => exact ih _

lemma Numbered.addKeys (h : Numbered names s) (counts : List (String × ℤ)) :
    Numbered (names ++ (replicaPairs counts).map fun x => replicaName x.1 x.2)
      (counts.foldl (fun s c => s.addKey c.1 c.2) s) := by
  induction counts generalizing s names with
  | nil => simpa [replicaPairs] using h
  | cons c counts ih =>
    have counted : Numbered names { s with
        keyToNumberOfReplicas := s.keyToNumberOfReplicas.insert c.1 c.2 } :=
      ⟨h.count, h.sound, h.total⟩
    have rest := ih (counted.insertReplicas c.1 c.2)
    rw [replicaPairs, List.flatMap_cons, List.map_append, List.map_map, ← List.append_assoc]
    exact rest

lemma addKeys_frame (s : PancakeReplicas) (counts : List (String × ℤ)) :
    let t := counts.foldl (fun s c => s.addKey c.1 c.2) s
    t.keyToNumberOfReplicas =
        counts.foldl (fun m c => m.insert c.1 c.2) s.keyToNumberOfReplicas ∧
      t.missingNewReplicas = s.missingNewReplicas ∧ t.dummyKeys = s.dummyKeys ∧
      t.alpha = s.alpha := by
  induction counts generalizing s with
  | nil => exact ⟨rfl, rfl, rfl, rfl⟩
  | cons c counts ih =>
    obtain ⟨counted, missing, dummies, alpha⟩ := insertReplicas_frame
      { s with keyToNumberOfReplicas := s.keyToNumberOfReplicas.insert c.1 c.2 } c.1 c.2
    obtain ⟨counted', missing', dummies', alpha'⟩ := ih (s.addKey c.1 c.2)
    refine ⟨counted'.trans ?_, missing'.trans missing, dummies'.trans dummies, alpha'.trans alpha⟩
    exact congrArg (fun m => counts.foldl
      (fun (m : AList fun _ : String => ℤ) c => m.insert c.1 c.2) m) counted

lemma lookup_foldl_insert {counts : List (String × ℤ)} (nodup : (counts.map Prod.fst).Nodup)
    (m : AList (fun _ : String => ℤ)) {k : String} :
    (∀ r, (k, r) ∈ counts → (counts.foldl (fun m c => m.insert c.1 c.2) m).lookup k = some r) ∧
    (k ∉ counts.map Prod.fst →
      (counts.foldl (fun m c => m.insert c.1 c.2) m).lookup k = m.lookup k) := by
  induction counts generalizing m with
  | nil => simp
  | cons c counts ih =>
    obtain ⟨fresh, nodup⟩ := List.nodup_cons.mp nodup
    obtain ⟨found, kept⟩ := ih nodup (m.insert c.1 c.2)
    refine ⟨fun r mem => ?_, fun absent => ?_⟩
    · rw [List.foldl_cons]
      rcases List.mem_cons.mp mem with rfl | mem
      · exact (kept fresh).trans (AList.lookup_insert m)
      · exact found r mem
    · rw [List.map_cons, List.mem_cons, not_or] at absent
      rw [List.foldl_cons, kept absent.2, AList.lookup_insert_ne absent.1]

end Create

/-- The names of all replicas under a distribution. -/
def names (dist : RealDistribution) (dummyKey : String) : List String :=
  (replicaPairs (dist.allCounts dummyKey)).map fun x => replicaName x.1 x.2

section Start
variable {dist : RealDistribution} {dummyKey : String}

lemma createReplicas_eq (dist : RealDistribution) (dummyKey : String) :
    createReplicas dist dummyKey =
      { (dist.allCounts dummyKey).foldl (fun s c => s.addKey c.1 c.2) (empty dist) with
        fakeDistribution := dist.fakeDistribution dummyKey } := by
  have positive := dist.dummyReplicaCount_pos
  simp only [createReplicas, RealDistribution.allCounts, List.foldl_append, List.foldl_cons,
    List.foldl_nil, ne_eq, positive.ne', not_false_eq_true, if_true]

lemma dummy_not_mem (distinct : (names dist dummyKey).Nodup) : dummyKey ∉ dist.items := by
  intro mem
  obtain ⟨r, real⟩ : ∃ r, (dummyKey, r) ∈ dist.realCounts := by
    rw [← dist.map_fst_realCounts, List.mem_map] at mem
    obtain ⟨⟨k, r⟩, real, rfl⟩ := mem
    exact ⟨r, real⟩
  have pos : 0 < r := @RealDistribution.counts_pos dist dummyKey _ _ (List.mem_append_left _ real)
  have first : (dummyKey, 0) ∈ replicaPairs dist.realCounts :=
    mem_replicaPairs.mpr ⟨r, real, pos⟩
  have second : (dummyKey, 0) ∈ replicaPairs [(dummyKey, dist.dummyReplicaCount)] :=
    mem_replicaPairs.mpr ⟨_, List.mem_singleton_self _, dist.dummyReplicaCount_pos⟩
  have twice : names dist dummyKey =
      (replicaPairs dist.realCounts).map (fun x => replicaName x.1 x.2) ++
        (replicaPairs [(dummyKey, dist.dummyReplicaCount)]).map fun x => replicaName x.1 x.2 := by
    rw [names, RealDistribution.allCounts, replicaPairs, List.flatMap_append, List.map_append]
    rfl
  rw [twice] at distinct
  exact List.disjoint_of_nodup_append distinct
    (List.mem_map.mpr ⟨_, first, rfl⟩) (List.mem_map.mpr ⟨_, second, rfl⟩)

lemma length_names (dist : RealDistribution) (dummyKey : String) :
    (names dist dummyKey).length = 2 * dist.items.length := by
  have sizes : ((replicaPairs (dist.allCounts dummyKey)).length : ℤ) =
      ((dist.allCounts dummyKey).map Prod.snd).sum := by
    have pos := fun c (mem : c ∈ dist.allCounts dummyKey) =>
      (@RealDistribution.counts_pos dist dummyKey c.1 c.2 mem).le
    generalize dist.allCounts dummyKey = counts at pos
    induction counts with
    | nil => rfl
    | cons c counts ih =>
      have rest := ih fun x mem => pos x (List.mem_cons_of_mem _ mem)
      have first := pos c List.mem_cons_self
      rw [replicaPairs, List.flatMap_cons, List.length_append, List.map_cons, List.sum_cons,
        ← rest, List.length_map, List.length_range, Nat.cast_add, Int.toNat_of_nonneg first]
      rfl
  have total : ((dist.allCounts dummyKey).map Prod.snd).sum = 2 * dist.items.length := by
    rw [RealDistribution.allCounts, List.map_append, List.sum_append, RealDistribution.realCounts_eq,
      List.map_snd_zip (by simp [dist.lengths])]
    simp [RealDistribution.dummyReplicaCount_eq, RealDistribution.keysCreated_eq]
  rw [names, List.length_map]
  exact_mod_cast sizes.trans total

/-- What `create_replicas` makes of the members that are read by an update. -/
structure Created (dist : RealDistribution) (dummyKey : String) (s : PancakeReplicas) : Prop where
  numbered : Numbered (names dist dummyKey) s
  counts : ∀ k r, (k, r) ∈ dist.allCounts dummyKey → s.keyToNumberOfReplicas.lookup k = some r
  missing : s.missingNewReplicas = ∅
  dummies : s.dummyKeys = dist.dummyReplicaCount
  alpha : s.alpha = dist.alpha

lemma created (distinct : (names dist dummyKey).Nodup) :
    Created dist dummyKey (createReplicas dist dummyKey) := by
  have start : Numbered [] (empty dist) := ⟨rfl, by simp [empty], by simp⟩
  obtain ⟨counted, missing, dummies, alpha⟩ :=
    addKeys_frame (empty dist) (dist.allCounts dummyKey)
  rw [createReplicas_eq]
  have filled := start.addKeys (dist.allCounts dummyKey)
  refine ⟨⟨filled.count, filled.sound, filled.total⟩, fun k r mem => ?_, missing, dummies, alpha⟩
  dsimp only
  rw [counted]
  exact (lookup_foldl_insert (RealDistribution.nodup_allCounts (dummy_not_mem distinct)) _).1 r mem

lemma Numbered.lookup_iff {names : List String} {s : PancakeReplicas} (h : Numbered names s)
    (distinct : names.Nodup) (name : String) (l : ℕ) :
    s.replicaToLabel.lookup name = some l ↔ names[l]? = some name := by
  refine ⟨h.sound name l, fun at' => ?_⟩
  obtain ⟨l', found⟩ := h.total name (List.mem_of_getElem? at')
  have same := h.sound name l' found
  obtain ⟨inside, is⟩ := List.getElem?_eq_some_iff.mp at'
  obtain ⟨inside', is'⟩ := List.getElem?_eq_some_iff.mp same
  obtain rfl := (distinct.getElem_inj_iff).mp (is.trans is'.symm)
  exact found

end Start

/-- The replicas a key loses or gains when its count changes. -/
def replicaRange (key : String) (first last : ℕ) : List (String × ℕ) :=
  (List.range' first (last - first)).map fun i => (key, i)

lemma mem_replicaRange {key : String} {first last : ℕ} {x : String × ℕ} :
    x ∈ replicaRange key first last ↔ x.1 = key ∧ first ≤ x.2 ∧ x.2 < last := by
  unfold replicaRange
  rw [List.mem_map]
  constructor
  · rintro ⟨i, mem, rfl⟩
    have := List.mem_range'_1.mp mem
    exact ⟨rfl, this.1, by omega⟩
  · rintro ⟨rfl, low, high⟩
    exact ⟨x.2, List.mem_range'_1.mpr ⟨low, by omega⟩, rfl⟩

@[simp] lemma replicaRange_self (key : String) (n : ℕ) : replicaRange key n n = [] := by
  simp [replicaRange]

lemma nodup_replicaRange (key : String) (first last : ℕ) :
    (replicaRange key first last).Nodup :=
  List.Nodup.map (fun _ _ same => congrArg Prod.snd same) List.nodup_range'

/-- The labels of some replicas were released, all others are as before. -/
structure Released (labels : AList (fun _ : String => ℕ)) (gone : List (String × ℕ))
    (x : ReplicaTable × LabelMoves) : Prop where
  lookup : ∀ name, x.1.replicaToLabel.lookup name =
    if name ∈ gone.map (fun y => replicaName y.1 y.2) then none else labels.lookup name
  unassigned : x.2.unassignedLabels = gone.map fun y =>
    ReplicaTable.charString ((labels.lookup (replicaName y.1 y.2)).getD 0)

section Prepare
variable {labels : AList (fun _ : String => ℕ)} {gone : List (String × ℕ)}
  {x : ReplicaTable × LabelMoves} {key dummyKey : String}

lemma Released.loop (h : Released labels gone x) {is : List ℕ}
    (distinct : ((gone ++ is.map fun i => (key, i)).map fun y => replicaName y.1 y.2).Nodup)
    (labelled : ∀ i ∈ is, ∃ l, labels.lookup (replicaName key i) = some l) :
    ∃ x', is.foldlM (ReplicaTable.releaseLabel key) x = .ok x' ∧
      Released labels (gone ++ is.map fun i => (key, i)) x' ∧
      x'.2.needsLabels = x.2.needsLabels := by
  induction is generalizing x gone with
  | nil => exact ⟨x, rfl, by simpa using h, rfl⟩
  | cons i is ih =>
    obtain ⟨l, found⟩ := labelled i List.mem_cons_self
    have fresh : replicaName key i ∉ gone.map fun y => replicaName y.1 y.2 := by
      intro mem
      rw [List.map_append] at distinct
      exact List.disjoint_of_nodup_append distinct mem (by simp)
    have now : x.1.replicaToLabel.lookup (replicaName key i) = some l := by
      rw [h.lookup, if_neg fresh, found]
    have next : Released labels (gone ++ [(key, i)])
        ({ x.1 with replicaToLabel := x.1.replicaToLabel.erase (replicaName key i) },
          { x.2 with unassignedLabels :=
              x.2.unassignedLabels ++ [ReplicaTable.charString l] }) := by
      refine ⟨fun name => ?_, ?_⟩
      · rcases eq_or_ne name (replicaName key i) with rfl | other
        · rw [if_pos (by simp)]
          exact AList.lookup_erase _ _
        · refine (AList.lookup_erase_ne other).trans ?_
          rw [h.lookup]
          have same : name ∈ (gone ++ [(key, i)]).map (fun y => replicaName y.1 y.2) ↔
              name ∈ gone.map fun y => replicaName y.1 y.2 := by simp [other]
          rw [if_congr same rfl rfl]
      · simp [h.unassigned, found]
    obtain ⟨x', done, released, needs⟩ := ih next (by simpa using distinct)
      fun j mem => labelled j (List.mem_cons_of_mem _ mem)
    refine ⟨x', ?_, by simpa using released, needs⟩
    rw [List.foldlM_cons]
    have first : ReplicaTable.releaseLabel key x i =
        .ok ({ x.1 with replicaToLabel := x.1.replicaToLabel.erase (replicaName key i) },
          { x.2 with unassignedLabels :=
              x.2.unassignedLabels ++ [ReplicaTable.charString l] }) := by
      unfold ReplicaTable.releaseLabel
      rw [now]
    rw [first]
    exact done

lemma Released.prepare (h : Released labels gone x) {rNew rOld : ℕ}
    (distinct : ((gone ++ replicaRange key rNew rOld).map fun y => replicaName y.1 y.2).Nodup)
    (labelled : ∀ y ∈ replicaRange key rNew rOld,
      ∃ l, labels.lookup (replicaName y.1 y.2) = some l) :
    ∃ x', ReplicaTable.prepareForSwapping dummyKey x.1 x.2 key rNew rOld = .ok x' ∧
      Released labels (gone ++ replicaRange key rNew rOld) x' ∧
      x'.2.needsLabels = x.2.needsLabels ++ replicaRange key rOld rNew ∧
      (rNew = rOld → x' = x) := by
  unfold ReplicaTable.prepareForSwapping
  rcases lt_trichotomy rOld rNew with grows | rfl | shrinks
  · have none : replicaRange key rNew rOld = [] := by
      simp [replicaRange, Nat.sub_eq_zero_of_le grows.le]
    rw [if_pos grows, none, List.append_nil]
    refine ⟨_, rfl, ⟨fun name => ?_, h.unassigned⟩, rfl, fun same => absurd same grows.ne'⟩
    rw [← h.lookup name]
    dsimp only
    split <;> rfl
  · rw [if_neg (lt_irrefl _), if_neg (lt_irrefl _)]
    exact ⟨x, rfl, by simpa using h, by simp, fun _ => rfl⟩
  · have none : replicaRange key rOld rNew = [] := by
      simp [replicaRange, Nat.sub_eq_zero_of_le shrinks.le]
    rw [if_neg shrinks.le.not_gt, if_pos shrinks, none, List.append_nil]
    obtain ⟨x', done, released, needs⟩ := @Released.loop labels gone x key h
      (List.range' rNew (rOld - rNew)) distinct fun i mem =>
        labelled (key, i) (List.mem_map.mpr ⟨i, mem, rfl⟩)
    exact ⟨x', done, released, needs, fun same => absurd same shrinks.ne⟩

end Prepare

/-- The replicas of keys with new counts that the old counts did not have, and the other way
round. -/
def gained (old : String → ℕ) (counts : List (String × ℤ)) : List (String × ℕ) :=
  counts.flatMap fun c => replicaRange c.1 (old c.1) c.2.toNat

def lost (old : String → ℕ) (counts : List (String × ℤ)) : List (String × ℕ) :=
  counts.flatMap fun c => replicaRange c.1 c.2.toNat (old c.1)

def oldCount (s : PancakeReplicas) (key : String) : ℕ :=
  ((s.keyToNumberOfReplicas.lookup key).getD 0).toNat

/-- The loop of `update_distribution` after some keys with their new counts. -/
structure Updated (old : PancakeReplicas) (done : List (String × ℤ))
    (x : PancakeReplicas × LabelMoves × ℤ) : Prop where
  released : Released old.replicaToLabel (lost (oldCount old) done) (x.1.toReplicaTable, x.2.1)
  needs : x.2.1.needsLabels = gained (oldCount old) done
  others : ∀ k, k ∉ done.map Prod.fst →
    x.1.keyToNumberOfReplicas.lookup k = old.keyToNumberOfReplicas.lookup k
  count : x.2.2 = (done.map Prod.snd).sum
  alpha : x.1.alpha = old.alpha
  dummies : x.1.dummyKeys = old.dummyKeys
  still : (∀ c ∈ done, c.2.toNat = oldCount old c.1) →
    x.1.missingNewReplicas = old.missingNewReplicas

section Update
variable {old : PancakeReplicas} {dummyKey : String}

/-- Lost replicas have distinct names and labels. -/
structure Releasable (old : PancakeReplicas) (counts : List (String × ℤ)) : Prop where
  distinct : ((lost (oldCount old) counts).map fun y => replicaName y.1 y.2).Nodup
  labelled : ∀ y ∈ lost (oldCount old) counts,
    ∃ l, old.replicaToLabel.lookup (replicaName y.1 y.2) = some l

lemma lost_append (f : String → ℕ) (a b : List (String × ℤ)) :
    lost f (a ++ b) = lost f a ++ lost f b := List.flatMap_append

lemma gained_append (f : String → ℕ) (a b : List (String × ℤ)) :
    gained f (a ++ b) = gained f a ++ gained f b := List.flatMap_append

lemma Releasable.left {a b : List (String × ℤ)} (h : Releasable old (a ++ b)) :
    Releasable old a := by
  obtain ⟨distinct, labelled⟩ := h
  rw [lost_append, List.map_append] at distinct
  refine ⟨distinct.of_append_left, fun y mem => labelled y ?_⟩
  rw [lost_append]
  exact List.mem_append_left _ mem

lemma Updated.step {done : List (String × ℤ)} {x : PancakeReplicas × LabelMoves × ℤ}
    (h : Updated old done x) {key : String} {p : ℚ} (fresh : key ∉ done.map Prod.fst)
    (pos : 0 < ⌈p / old.alpha⌉) (ready : Releasable old (done ++ [(key, ⌈p / old.alpha⌉)])) :
    ∃ x', updateKey dummyKey x (key, p) = .ok x' ∧
      Updated old (done ++ [(key, ⌈p / old.alpha⌉)]) x' := by
  obtain ⟨s, moves, count⟩ := x
  obtain ⟨distinct, labelled⟩ := ready
  have single : ∀ f : String → ℕ, lost f [(key, ⌈p / old.alpha⌉)] =
      replicaRange key ⌈p / old.alpha⌉.toNat (f key) := fun f => by simp [lost]
  rw [lost_append, single] at distinct labelled
  have before : ((s.keyToNumberOfReplicas.lookup key).getD 0).toNat = oldCount old key := by
    rw [oldCount, h.others key fresh]
  obtain ⟨⟨table, moves'⟩, prepared, released, needs, still⟩ :=
    @Released.prepare _ _ _ key dummyKey h.released _ _ distinct
      fun y mem => labelled y (List.mem_append_right _ mem)
  have alpha : s.alpha = old.alpha := h.alpha
  refine ⟨({ s with
    toReplicaTable := table
    newKeyToFrequency := s.newKeyToFrequency.insert key ⌊p⌋
    keyToNumberOfReplicas := s.keyToNumberOfReplicas.insert key ⌈p / old.alpha⌉ },
    moves', count + ⌈p / old.alpha⌉), ?_, ?_⟩
  · simp only [updateKey, alpha, if_pos pos, before, prepared, Except.map]
  · refine ⟨?_, ?_, fun k absent => ?_, ?_, h.alpha, h.dummies, fun same => ?_⟩
    · rw [lost_append, single]
      exact released
    · rw [gained_append, ← h.needs]
      refine needs.trans ?_
      simp [gained]
    · rw [List.map_append, List.mem_append, not_or] at absent
      dsimp only
      rw [AList.lookup_insert_ne (by simpa using absent.2)]
      exact h.others k absent.1
    · rw [List.map_append, List.sum_append, ← h.count]
      simp
    · have unchanged := still (same (key, ⌈p / old.alpha⌉) (by simp))
      obtain rfl : table = s.toReplicaTable := (Prod.ext_iff.mp unchanged).1
      exact h.still fun c mem => same c (List.mem_append_left _ mem)

lemma Updated.loop (todo : List (String × ℚ)) {done : List (String × ℤ)}
    {x : PancakeReplicas × LabelMoves × ℤ} (h : Updated old done x)
    (nodup : ((done ++ todo.map fun e => (e.1, ⌈e.2 / old.alpha⌉)).map Prod.fst).Nodup)
    (pos : ∀ e ∈ todo, 0 < ⌈e.2 / old.alpha⌉)
    (ready : Releasable old (done ++ todo.map fun e => (e.1, ⌈e.2 / old.alpha⌉))) :
    ∃ x', todo.foldlM (updateKey dummyKey) x = .ok x' ∧
      Updated old (done ++ todo.map fun e => (e.1, ⌈e.2 / old.alpha⌉)) x' := by
  induction todo generalizing done x with
  | nil => exact ⟨x, rfl, by simpa using h⟩
  | cons e todo ih =>
    have split : done ++ (e :: todo).map (fun e => (e.1, ⌈e.2 / old.alpha⌉)) =
        (done ++ [(e.1, ⌈e.2 / old.alpha⌉)]) ++ todo.map fun e => (e.1, ⌈e.2 / old.alpha⌉) := by
      simp
    rw [split] at nodup ready ⊢
    have fresh : e.1 ∉ done.map Prod.fst := by
      intro mem
      rw [List.map_append] at nodup
      have first := nodup.of_append_left
      rw [List.map_append] at first
      exact List.disjoint_of_nodup_append first mem (by simp)
    obtain ⟨x₁, first, updated⟩ := h.step fresh (pos e List.mem_cons_self) ready.left
    obtain ⟨x', rest, updated'⟩ := ih updated nodup
      (fun y mem => pos y (List.mem_cons_of_mem _ mem)) ready
    refine ⟨x', ?_, updated'⟩
    rw [List.foldlM_cons, first]
    exact rest

end Update

section Conserve
variable {dist dist' : RealDistribution} {dummyKey : String} {old : PancakeReplicas}

lemma Created.oldCount (h : Created dist dummyKey old) (perm : dist'.items.Perm dist.items)
    {c : String × ℤ} (mem : c ∈ dist'.allCounts dummyKey) :
    ∃ r, (c.1, r) ∈ dist.allCounts dummyKey ∧ old.oldCount c.1 = r.toNat := by
  have key : c.1 ∈ dist.items ++ [dummyKey] := by
    have := RealDistribution.mem_allCounts_iff.mpr ⟨c.2, mem⟩
    rw [List.mem_append] at this ⊢
    exact this.imp_left perm.mem_iff.mp
  obtain ⟨r, counted⟩ := RealDistribution.mem_allCounts_iff.mp key
  refine ⟨r, counted, ?_⟩
  rw [PancakeReplicas.oldCount, h.counts _ _ counted]
  rfl

lemma Created.mem_lost (h : Created dist dummyKey old) (perm : dist'.items.Perm dist.items)
    {y : String × ℕ} (mem : y ∈ lost old.oldCount (dist'.allCounts dummyKey)) :
    y ∈ replicaPairs (dist.allCounts dummyKey) := by
  obtain ⟨c, counted, range⟩ := List.mem_flatMap.mp mem
  obtain ⟨key, -, small⟩ := mem_replicaRange.mp range
  obtain ⟨r, before, is⟩ := h.oldCount perm counted
  refine mem_replicaPairs.mpr ⟨r, key ▸ before, ?_⟩
  rw [is] at small
  omega

lemma nodup_lost (f : String → ℕ) {counts : List (String × ℤ)}
    (nodup : (counts.map Prod.fst).Nodup) : (lost f counts).Nodup := by
  refine List.nodup_flatMap.mpr ⟨fun c _ => nodup_replicaRange _ _ _, ?_⟩
  refine (List.pairwise_map.mp nodup).imp fun apart y first second => apart ?_
  rw [← (mem_replicaRange.mp first).1, ← (mem_replicaRange.mp second).1]

lemma Created.releasable (h : Created dist dummyKey old) (perm : dist'.items.Perm dist.items)
    (distinct : (names dist dummyKey).Nodup) (distinct' : (names dist' dummyKey).Nodup) :
    Releasable old (dist'.allCounts dummyKey) where
  distinct := by
    refine (nodup_lost old.oldCount
      (RealDistribution.nodup_allCounts (dummy_not_mem distinct'))).map_on ?_
    intro x hx y hy same
    exact List.inj_on_of_nodup_map distinct (h.mem_lost perm hx) (h.mem_lost perm hy) same
  labelled y mem := h.numbered.total _ (List.mem_map.mpr ⟨y, h.mem_lost perm mem, rfl⟩)

lemma alpha_eq (perm : dist'.items.Perm dist.items) : dist'.alpha = dist.alpha := by
  rw [RealDistribution.alpha_eq, RealDistribution.alpha_eq, perm.length_eq]

/-- The labels between the release and the swap. -/
structure Prepared (old : PancakeReplicas) (counts : List (String × ℤ)) (s : PancakeReplicas)
    (moves : LabelMoves) : Prop where
  released : Released old.replicaToLabel (lost old.oldCount counts) (s.toReplicaTable, moves)
  needs : moves.needsLabels = gained old.oldCount counts
  still : (∀ c ∈ counts, c.2.toNat = old.oldCount c.1) →
    s.missingNewReplicas = old.missingNewReplicas

/-- What is left of `update_distribution` once the lists are made. -/
def finish (s : PancakeReplicas) (moves : LabelMoves) (dummyKey : String) (dist : Distribution) :
    Except String PancakeReplicas := do
  let s ← recomputeFakeDistribution s dummyKey dist
  if moves.needsLabels.length ≠ moves.unassignedLabels.length then
    throw "Assertion failed: needs_labels.size() == unassigned_labels.size()"
  let labels ← performSwapping s.replicaToLabel moves.unassignedLabels moves.needsLabels
  return { s with
    replicaToLabel := labels
    realDistribution := dist
    keyToFrequency := s.newKeyToFrequency }

lemma Created.prepared (h : Created dist dummyKey old) (perm : dist'.items.Perm dist.items)
    (distinct : (names dist dummyKey).Nodup) (distinct' : (names dist' dummyKey).Nodup) :
    ∃ s moves, Prepared old (dist'.allCounts dummyKey) s moves ∧
      updateDistribution old dummyKey dist'.toDistribution =
        finish s moves dummyKey dist'.toDistribution := by
  have other := dummy_not_mem distinct'
  have alpha : old.alpha = dist'.alpha := h.alpha.trans (alpha_eq perm).symm
  have ready := h.releasable perm distinct distinct'
  have counts : (dist'.items.zip dist'.probabilities).map (fun e => (e.1, ⌈e.2 / old.alpha⌉)) =
      dist'.realCounts := by
    rw [RealDistribution.realCounts_eq, List.zip_map_right, alpha]
    rfl
  have start : Updated old [] (old, ⟨[], []⟩, 0) :=
    ⟨⟨fun _ => by simp [lost], rfl⟩, rfl, fun _ _ => rfl, rfl, rfl, rfl, fun _ => rfl⟩
  obtain ⟨⟨s, moves, count⟩, looped, updated⟩ := @Updated.loop old dummyKey
    (dist'.items.zip dist'.probabilities) [] _ start
    (by rw [counts, List.nil_append, dist'.map_fst_realCounts]; exact dist'.nodup)
    (fun e mem => by rw [alpha]; exact dist'.replicaCount_pos (List.of_mem_zip mem).2)
    (by rw [counts, List.nil_append]; exact ready.left)
  rw [counts, List.nil_append] at updated
  have total : count = dist'.keysCreated := by
    rw [show count = _ from updated.count, RealDistribution.realCounts_eq,
      List.map_snd_zip (by simp [dist'.lengths])]
    rfl
  have few : ¬ 2 * (dist'.items.length : ℤ) ≤ count := by
    have := dist'.dummyReplicaCount_pos
    rw [RealDistribution.dummyReplicaCount_eq, ← total] at this
    omega
  have dummies : 2 * (dist'.items.length : ℤ) - count = dist'.dummyReplicaCount := by
    rw [total, RealDistribution.dummyReplicaCount_eq]
  have oldDummies : s.dummyKeys.toNat = old.oldCount dummyKey := by
    rw [show s.dummyKeys = _ from updated.dummies, h.dummies, PancakeReplicas.oldCount,
      h.counts dummyKey dist.dummyReplicaCount (by simp [RealDistribution.allCounts])]
    rfl
  have single : ∀ f : String → ℕ, lost f [(dummyKey, dist'.dummyReplicaCount)] =
      replicaRange dummyKey dist'.dummyReplicaCount.toNat (f dummyKey) := fun f => by simp [lost]
  have all := ready
  rw [RealDistribution.allCounts] at all
  obtain ⟨distinctLost, labelled⟩ := all
  rw [lost_append, single] at distinctLost labelled
  obtain ⟨⟨table, moves'⟩, done, released, needs, still⟩ :=
    @Released.prepare _ _ _ dummyKey dummyKey updated.released _ _ distinctLost
      fun y mem => labelled y (List.mem_append_right _ mem)
  refine ⟨{ s with toReplicaTable := table, dummyKeys := dist'.dummyReplicaCount }, moves',
    ⟨?_, ?_, fun same => ?_⟩, ?_⟩
  · rw [RealDistribution.allCounts, lost_append, single]
    exact released
  · have last : gained old.oldCount [(dummyKey, dist'.dummyReplicaCount)] =
        replicaRange dummyKey (old.oldCount dummyKey) dist'.dummyReplicaCount.toNat := by
      simp [gained]
    rw [RealDistribution.allCounts, gained_append, last, ← updated.needs]
    exact needs
  · have unchanged := still (same (dummyKey, dist'.dummyReplicaCount)
      (by simp [RealDistribution.allCounts]))
    obtain rfl : table = s.toReplicaTable := (Prod.ext_iff.mp unchanged).1
    exact updated.still fun c mem => same c (by simp [RealDistribution.allCounts, mem])
  · unfold updateDistribution finish
    rw [looped]
    simp only [bind, Except.bind, if_neg few, dummies, oldDummies]
    dsimp only at done
    rw [done]

lemma strtoll_singleton {c : Char} {z : ℤ} (read : strtoll (String.singleton c) = some z) :
    c.isDigit = true ∧ z = Nat.ofDigitChars 10 [c] 0 := by
  unfold strtoll at read
  rw [String.toList_singleton] at read
  cases space : isSpace c with
  | true =>
    rw [List.dropWhile_cons_of_pos space] at read
    simp at read
  | false =>
    rw [List.dropWhile_cons_of_neg (by simp [space])] at read
    split at read
    · next same =>
      obtain ⟨-, rfl⟩ := List.cons.inj same
      simp at read
    · next same =>
      obtain ⟨-, rfl⟩ := List.cons.inj same
      simp at read
    · cases digit : c.isDigit with
      | false => simp [digit] at read
      | true => exact ⟨rfl, by simpa [digit] using read.symm⟩

lemma stoi_charString_lt {l : ℕ} {z : ℤ} (read : stoi (ReplicaTable.charString l) = some z) :
    z.toNat < l := by
  have code : (Char.ofNat (l % 256)).toNat = l % 256 := by
    rw [Char.toNat_ofNat, if_pos (Or.inl (by omega))]
  have small := Nat.mod_le l 256
  unfold stoi at read
  obtain ⟨digit, rfl⟩ := strtoll_singleton (Option.filter_eq_some_iff.mp read).1
  have range := Char.isDigit_iff_toNat.mp digit
  rw [code] at range
  have zero : '0'.toNat = 48 := rfl
  rw [Nat.ofDigitChars_cons, Nat.ofDigitChars_nil, code, Int.toNat_natCast]
  omega

lemma performSwapping_cases {unassigned : List String} {needs : List (String × ℕ)}
    {labels labels' : AList (fun _ : String => ℕ)}
    (done : performSwapping labels unassigned needs = .ok labels') (name : String) :
    (∃ e ∈ needs.zip unassigned, ∃ z, stoi e.2 = some z ∧
      labels'.lookup name = some z.toNat) ∨ labels'.lookup name = labels.lookup name := by
  unfold performSwapping at done
  refine @foldlM_preserves _ _ _ _ (fun now : AList (fun _ : String => ℕ) =>
    (∃ e ∈ needs.zip unassigned, ∃ z, stoi e.2 = some z ∧ now.lookup name = some z.toNat) ∨
      now.lookup name = labels.lookup name) _ _ _ done (.inr rfl) fun e mem s t before step => ?_
  cases read : stoi e.2 with
  | none => simp [read] at step
  | some z =>
    rw [read] at step
    obtain rfl := Except.ok.inj step
    rcases eq_or_ne name (replicaName e.1.1 e.1.2) with rfl | other
    · exact .inl ⟨e, mem, z, read, AList.lookup_insert _⟩
    · rw [AList.lookup_insert_ne other]
      exact before

/-- Labels are defined on the replicas of the new distribution, each used once, and replicas
that both distributions have keep theirs. -/
structure LabelsConserved (dist dist' : RealDistribution) (dummyKey : String)
    (before after : AList (fun _ : String => ℕ)) : Prop where
  defined : ∀ name, name ∈ after ↔ name ∈ names dist' dummyKey
  bijective : Set.BijOn (fun x : String × ℕ => after.lookup (replicaName x.1 x.2))
    {x | x ∈ replicaPairs (dist'.allCounts dummyKey)}
    {l | ∃ m < 2 * dist.items.length, l = some m}
  kept : ∀ x ∈ replicaPairs (dist.allCounts dummyKey),
    x ∈ replicaPairs (dist'.allCounts dummyKey) →
      after.lookup (replicaName x.1 x.2) = before.lookup (replicaName x.1 x.2)

lemma finish_ok {s s' : PancakeReplicas} {moves : LabelMoves} {d : Distribution}
    (done : finish s moves dummyKey d = .ok s') :
    moves.needsLabels.length = moves.unassignedLabels.length ∧
      performSwapping s.replicaToLabel moves.unassignedLabels moves.needsLabels =
        .ok s'.replicaToLabel := by
  unfold finish recomputeFakeDistribution at done
  dsimp only at done
  split at done
  · simp only [bind, Except.bind] at done
    split at done
    · simp [throw, throwThe, MonadExceptOf.throw] at done
    · next same =>
      rw [not_not] at same
      refine ⟨same, ?_⟩
      cases swapped : performSwapping s.replicaToLabel moves.unassignedLabels
          moves.needsLabels with
      | error e => simp [swapped] at done
      | ok labels =>
        simp only [pure, Except.pure, swapped] at done
        rw [← Except.ok.inj done]
  · simp [bind, Except.bind] at done

/-- If a label is released, the largest of them is not given away again. -/
lemma no_bijection (h : Created dist dummyKey old) (perm : dist'.items.Perm dist.items)
    (distinct : (names dist dummyKey).Nodup) {s s' : PancakeReplicas} {moves : LabelMoves}
    (prepared : Prepared old (dist'.allCounts dummyKey) s moves) {d : Distribution}
    (done : finish s moves dummyKey d = .ok s')
    (some' : lost old.oldCount (dist'.allCounts dummyKey) ≠ []) :
    ¬ LabelsConserved dist dist' dummyKey old.replicaToLabel s'.replicaToLabel := by
  intro conserved
  let label := fun y : String × ℕ => (old.replicaToLabel.lookup (replicaName y.1 y.2)).getD 0
  have labelled : ∀ y ∈ lost old.oldCount (dist'.allCounts dummyKey),
      old.replicaToLabel.lookup (replicaName y.1 y.2) = some (label y) := by
    intro y mem
    obtain ⟨l, found⟩ := h.numbered.total _ (List.mem_map.mpr ⟨y, h.mem_lost perm mem, rfl⟩)
    simp [label, found]
  obtain ⟨top, inside, most⟩ : ∃ top ∈ lost old.oldCount (dist'.allCounts dummyKey),
      ∀ y ∈ lost old.oldCount (dist'.allCounts dummyKey), label y ≤ label top := by
    cases found : (lost old.oldCount (dist'.allCounts dummyKey)).argmax label with
    | none => exact absurd (List.argmax_eq_none.mp found) some'
    | some top => exact ⟨top, List.argmax_mem found, fun y mem => List.le_of_mem_argmax mem found⟩
  have place := (h.numbered.lookup_iff distinct _ _).mp (labelled top inside)
  have bound : label top < 2 * dist.items.length := by
    rw [← length_names dist dummyKey]
    exact (List.getElem?_eq_some_iff.mp place).1
  obtain ⟨y, -, taken⟩ := conserved.bijective.surjOn ⟨label top, bound, rfl⟩
  dsimp only at taken
  rcases performSwapping_cases (finish_ok done).2 (replicaName y.1 y.2) with
    ⟨e, mem, z, read, found⟩ | same
  · have gone := (List.of_mem_zip mem).2
    rw [prepared.released.unassigned, List.mem_map] at gone
    obtain ⟨x, lostX, is⟩ := gone
    rw [← is] at read
    have less : z.toNat < label x := stoi_charString_lt read
    rw [found, Option.some.injEq] at taken
    have := most x lostX
    omega
  · rw [same, prepared.released.lookup] at taken
    split at taken
    · simp at taken
    · next away =>
      have place' := (h.numbered.lookup_iff distinct _ _).mp taken
      rw [place, Option.some.injEq] at place'
      rw [← place'] at away
      exact away (List.mem_map.mpr ⟨top, inside, rfl⟩)

lemma conserved_of_same (h : Created dist dummyKey old)
    (distinct : (names dist dummyKey).Nodup)
    (same : ∀ c, c ∈ dist'.allCounts dummyKey ↔ c ∈ dist.allCounts dummyKey)
    {labels : AList (fun _ : String => ℕ)}
    (kept : ∀ name, labels.lookup name = old.replicaToLabel.lookup name) :
    LabelsConserved dist dist' dummyKey old.replicaToLabel labels := by
  have pairs : ∀ x, x ∈ replicaPairs (dist'.allCounts dummyKey) ↔
      x ∈ replicaPairs (dist.allCounts dummyKey) := fun x => by
    simp only [mem_replicaPairs, same]
  refine ⟨fun name => ?_, ⟨?_, ?_, ?_⟩, fun x _ _ => kept _⟩
  · rw [← AList.lookup_isSome, kept, Option.isSome_iff_exists]
    constructor
    · rintro ⟨l, found⟩
      have := List.mem_of_getElem? (h.numbered.sound name l found)
      simpa [names, pairs] using this
    · intro mem
      refine h.numbered.total name ?_
      simpa [names, pairs] using mem
  · intro x mem
    obtain ⟨l, found⟩ := h.numbered.total _ (List.mem_map.mpr ⟨x, (pairs x).mp mem, rfl⟩)
    refine ⟨l, ?_, (kept _).trans found⟩
    rw [← length_names dist dummyKey]
    exact (List.getElem?_eq_some_iff.mp (h.numbered.sound _ l found)).1
  · intro x mem y mem' equal
    dsimp only at equal
    rw [kept, kept] at equal
    obtain ⟨l, found⟩ := h.numbered.total _ (List.mem_map.mpr ⟨x, (pairs x).mp mem, rfl⟩)
    have one := h.numbered.sound _ l found
    rw [equal] at found
    have two := h.numbered.sound _ l found
    rw [one, Option.some.injEq] at two
    exact List.inj_on_of_nodup_map distinct ((pairs x).mp mem) ((pairs y).mp mem') two
  · rintro _ ⟨m, small, rfl⟩
    rw [← length_names dist dummyKey] at small
    obtain ⟨x, mem, name⟩ := List.mem_map.mp (List.getElem_mem small)
    refine ⟨x, (pairs x).mpr mem, ?_⟩
    dsimp only
    rw [kept, h.numbered.lookup_iff distinct, name]
    exact List.getElem?_eq_getElem small

lemma replicaRange_eq_nil {key : String} {first last : ℕ} :
    replicaRange key first last = [] ↔ last ≤ first := by
  rw [replicaRange, List.map_eq_nil_iff, List.range'_eq_nil_iff, Nat.sub_eq_zero_iff_le]

lemma mem_allCounts_congr (perm : dist'.items.Perm dist.items)
    (same : ∀ c ∈ dist'.realCounts, c ∈ dist.realCounts) (c : String × ℤ) :
    c ∈ dist'.allCounts dummyKey ↔ c ∈ dist.allCounts dummyKey := by
  have nodup : dist'.realCounts.Nodup := by
    refine List.Nodup.of_map Prod.fst ?_
    rw [dist'.map_fst_realCounts]
    exact dist'.nodup
  have sizes : dist.realCounts.length ≤ dist'.realCounts.length := by
    have counted : ∀ d : RealDistribution, d.realCounts.length = d.items.length := by
      intro d
      rw [← d.map_fst_realCounts, List.length_map]
    rw [counted dist, counted dist', perm.length_eq]
  have real := (List.Nodup.subperm nodup same).perm_of_length_le sizes
  have created : ∀ d : RealDistribution, (d.realCounts.map Prod.snd).sum = d.keysCreated := by
    intro d
    rw [RealDistribution.realCounts_eq, List.map_snd_zip (by simp [d.lengths])]
    rfl
  have dummies : dist'.dummyReplicaCount = dist.dummyReplicaCount := by
    rw [RealDistribution.dummyReplicaCount_eq, RealDistribution.dummyReplicaCount_eq, ← created,
      ← created, perm.length_eq, (real.map Prod.snd).sum_eq]
  simp only [RealDistribution.allCounts, List.mem_append, real.mem_iff, dummies]

lemma Created.same_of_nil (h : Created dist dummyKey old) (perm : dist'.items.Perm dist.items)
    (distinct : (names dist dummyKey).Nodup)
    (none : lost old.oldCount (dist'.allCounts dummyKey) = [])
    (none' : gained old.oldCount (dist'.allCounts dummyKey) = []) :
    ∀ c ∈ dist'.realCounts, c ∈ dist.realCounts := by
  intro c mem
  have all : c ∈ dist'.allCounts dummyKey := List.mem_append_left _ mem
  have low := replicaRange_eq_nil.mp (List.flatMap_eq_nil_iff.mp none c all)
  have high := replicaRange_eq_nil.mp (List.flatMap_eq_nil_iff.mp none' c all)
  obtain ⟨r, before, count⟩ := h.oldCount perm all
  have pos := @RealDistribution.counts_pos dist' dummyKey c.1 c.2 all
  have pos' := RealDistribution.counts_pos before
  obtain rfl : r = c.2 := by omega
  rcases List.mem_append.mp before with real | dummy
  · exact real
  · have key : c.1 ∈ dist.items := by
      rw [← perm.mem_iff, ← dist'.map_fst_realCounts]
      exact List.mem_map_of_mem mem
    rw [List.mem_singleton, Prod.mk.injEq] at dummy
    exact absurd (dummy.1 ▸ key) (dummy_not_mem distinct)

lemma Created.finish_same (h : Created dist dummyKey old)
    (same : ∀ c, c ∈ dist'.allCounts dummyKey ↔ c ∈ dist.allCounts dummyKey)
    {s : PancakeReplicas} {moves : LabelMoves} (d : Distribution)
    (prepared : Prepared old (dist'.allCounts dummyKey) s moves) :
    ∃ s', finish s moves dummyKey d = .ok s' ∧
      ∀ name, s'.replicaToLabel.lookup name = old.replicaToLabel.lookup name := by
  have counts : ∀ c ∈ dist'.allCounts dummyKey, c.2.toNat = old.oldCount c.1 := by
    intro c mem
    rw [PancakeReplicas.oldCount, h.counts _ _ ((same c).mp mem)]
    rfl
  have noneLost : lost old.oldCount (dist'.allCounts dummyKey) = [] :=
    List.flatMap_eq_nil_iff.mpr fun c mem => replicaRange_eq_nil.mpr (counts c mem).ge
  have noneGained : gained old.oldCount (dist'.allCounts dummyKey) = [] :=
    List.flatMap_eq_nil_iff.mpr fun c mem => replicaRange_eq_nil.mpr (counts c mem).le
  have needs := prepared.needs.trans noneGained
  have unassigned := prepared.released.unassigned
  rw [noneLost, List.map_nil] at unassigned
  have missing : s.missingNewReplicas.entries = [] := by
    rw [prepared.still counts, h.missing]
    rfl
  obtain ⟨t, recomputed, labels⟩ : ∃ t, recomputeFakeDistribution s dummyKey d = .ok t ∧
      t.replicaToLabel = s.replicaToLabel := by
    unfold recomputeFakeDistribution
    rw [missing]
    exact ⟨_, if_pos (by simp), rfl⟩
  refine ⟨{ t with realDistribution := d, keyToFrequency := t.newKeyToFrequency }, ?_, ?_⟩
  · unfold finish
    rw [recomputed, needs, unassigned]
    rfl
  · intro name
    have released := prepared.released.lookup name
    rw [noneLost, List.map_nil, if_neg List.not_mem_nil] at released
    exact (congrArg (AList.lookup name) labels).trans released

end Conserve

/-- After `create_replicas` an update over the same keys goes through and conserves the labels
exactly when no key changes its number of replicas. -/
theorem updateDistribution_conserves_iff (dist dist' : RealDistribution) (dummyKey : String)
    (perm : dist'.items.Perm dist.items) (distinct : (names dist dummyKey).Nodup)
    (distinct' : (names dist' dummyKey).Nodup) :
    (∃ s, updateDistribution (createReplicas dist dummyKey) dummyKey dist'.toDistribution = .ok s ∧
      LabelsConserved dist dist' dummyKey (createReplicas dist dummyKey).replicaToLabel
        s.replicaToLabel) ↔
    ∀ c ∈ dist'.realCounts, c ∈ dist.realCounts := by
  have h := created distinct
  obtain ⟨s, moves, prepared, updated⟩ := h.prepared perm distinct distinct'
  rw [updated]
  constructor
  · rintro ⟨s', done, conserved⟩
    have noneLost : lost (createReplicas dist dummyKey).oldCount (dist'.allCounts dummyKey) = [] := by
      by_contra some'
      exact no_bijection h perm distinct prepared done some' conserved
    have sizes := (finish_ok done).1
    rw [prepared.released.unassigned, prepared.needs, noneLost, List.map_nil,
      List.length_nil, List.length_eq_zero_iff] at sizes
    exact h.same_of_nil perm distinct noneLost sizes
  · intro same
    have all := @mem_allCounts_congr dist dist' dummyKey perm same
    obtain ⟨s', done, kept⟩ := h.finish_same all dist'.toDistribution prepared
    exact ⟨s', done, conserved_of_same h distinct all kept⟩

/-- Key `a` gets a second replica in exchange for one of the dummy key. -/
def tilted : RealDistribution where
  items := ["a", "b"]
  probabilities := [3 / 4, 1 / 4]
  nodup := RealDistribution.pair_nodup
  lengths := RealDistribution.quarters_length
  positive := RealDistribution.quarters_pos
  total := RealDistribution.quarters_sum

lemma names_evenPair_nodup : (names RealDistribution.evenPair "c").Nodup := by decide +kernel

/-- The label that the dummy key releases is no numeral once it is a character. -/
theorem updateDistribution_raises :
    tilted.items.Perm RealDistribution.evenPair.items ∧
      (names RealDistribution.evenPair "c").Nodup ∧ (names tilted "c").Nodup ∧
      updateDistribution (createReplicas RealDistribution.evenPair "c") "c"
        tilted.toDistribution = .error "stoi" := by
  refine ⟨.refl _, names_evenPair_nodup, by decide +kernel, ?_⟩
  have text : (match updateDistribution (createReplicas RealDistribution.evenPair "c") "c"
      tilted.toDistribution with
    | .ok _ => none
    | .error e => some e) = some "stoi" := by decide +kernel
  split at text
  · simp at text
  · next raised =>
    rw [raised, Option.some.inj text]

lemma thirds_length : ["a", "b"].length = ([2 / 3, 1 / 3] : List ℚ).length := rfl

lemma thirds_pos : ∀ p ∈ ([2 / 3, 1 / 3] : List ℚ), 0 < p := by
  intro p hp
  simp only [List.mem_cons, List.not_mem_nil, or_false] at hp
  rcases hp with rfl | rfl <;> norm_num

lemma thirds_sum : ([2 / 3, 1 / 3] : List ℚ).sum = 1 := by norm_num

/-- Both keys keep the number of replicas they have under `tilted`. -/
def thirds : RealDistribution where
  items := ["a", "b"]
  probabilities := [2 / 3, 1 / 3]
  nodup := RealDistribution.pair_nodup
  lengths := thirds_length
  positive := thirds_pos
  total := thirds_sum

theorem updateDistribution_conserves_thirds :
    ∃ s, updateDistribution (createReplicas tilted "c") "c" thirds.toDistribution = .ok s ∧
      LabelsConserved tilted thirds "c" (createReplicas tilted "c").replicaToLabel
        s.replicaToLabel :=
  (updateDistribution_conserves_iff tilted thirds "c" (.refl _) (by decide +kernel)
    (by decide +kernel)).mpr (by decide +kernel)

end PancakeReplicas
end Shortstack
