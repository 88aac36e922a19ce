import Shortstack.ReplicaLabels
import Shortstack.TraceFrequencies

/-! Frequency smoothing: replica counts and fake probabilities are chosen such that a fair
choice between a real and a fake key, followed by a uniform choice of a replica, hits every
replica with the same probability. -/
namespace Shortstack

/-- The probability of an item, zero for one that is not listed. -/
def Distribution.probabilityOf (d : Distribution) (k : String) : ℚ :=
  ((d.items.zip d.probabilities).lookup k).getD 0

namespace Initializer
variable {init : Initializer} {v : String}

/-- Labels written to the store, and those in the buffer, are the numbers given so far. -/
def Numbered (init : Initializer) : Prop :=
  init.written ++ init.labels = (List.range init.labelCount).map toString

lemma Numbered.insertReplica (h : Numbered init) (replica : String) :
    Numbered (init.insertReplica v replica) := by
  have more : init.written ++ (init.labels ++ [toString init.labelCount]) =
      (List.range (init.labelCount + 1)).map toString := by
    rw [← List.append_assoc, h, List.range_succ, List.map_append]
    rfl
  unfold Initializer.insertReplica Numbered
  dsimp only
  split
  · simp only [flush, List.append_nil]
    exact more
  · exact more

lemma Numbered.insertReplicas (h : Numbered init) (key : String) (r : ℤ) :
    Numbered (init.insertReplicas v key r) := by
  unfold Initializer.insertReplicas
  generalize List.range r.toNat = is
  induction is generalizing init with
  | nil => exact h
  | cons i is ih => exact ih (h.insertReplica _)

lemma Numbered.addKeys (h : Numbered init) (counts : List (String × ℤ)) :
    Numbered (init.addKeys v counts) := by
  induction counts generalizing init with
  | nil => exact h
  | cons c counts ih => exact ih (Numbered.insertReplicas (v := v) (show Numbered { init with
      keyToNumberOfReplicas := init.keyToNumberOfReplicas.insert c.1 c.2 } from h) c.1 c.2)

end Initializer

lemma lookup_zip {items : List String} {values : List ℚ} (nodup : items.Nodup) {i : ℕ} {k : String}
    {p : ℚ} (key : items[i]? = some k) (value : values[i]? = some p) :
    (items.zip values).lookup k = some p := by
  induction items generalizing values i with
  | nil => simp at key
  | cons a items ih =>
    obtain ⟨fresh, nodup⟩ := List.nodup_cons.mp nodup
    cases values with
    | nil => simp at value
    | cons b values =>
      cases i with
      | zero =>
        simp only [List.getElem?_cons_zero, Option.some.injEq] at key value
        simp [key, value]
      | succ i =>
        rw [List.getElem?_cons_succ] at key value
        have other : (k == a) = false := by
          rw [beq_eq_false_iff_ne]
          rintro rfl
          exact fresh (List.mem_of_getElem? key)
        rw [List.zip_cons_cons, List.lookup, other]
        exact ih nodup key value

lemma lookup_zip_none {items : List String} {values : List ℚ} {k : String} (absent : k ∉ items) :
    (items.zip values).lookup k = none := by
  rw [List.lookup_eq_none_iff]
  intro e he
  rw [bne_iff_ne]
  rintro rfl
  exact absent (List.of_mem_zip he).1

namespace RealDistribution
open Initializer
variable (dist : RealDistribution) (dummyKey v : String)

lemma alpha_pos : 0 < dist.alpha :=
  one_div_pos.mpr (by exact_mod_cast dist.items_length_pos)

/-- Rounding up takes away no replica, so the dummy key gets at most one for each key. -/
lemma dummyReplicaCount_le : dist.dummyReplicaCount ≤ dist.items.length := by
  have rounded : (dist.probabilities.map fun p => (dist.items.length : ℚ) * p).sum ≤
      (dist.probabilities.map fun p => (dist.replicaCount p : ℚ)).sum := by
    refine List.sum_le_sum fun p _ => ?_
    rw [replicaCount_eq]
    exact Int.le_ceil _
  rw [List.sum_map_mul_left, List.map_id', dist.total, mul_one] at rounded
  have created : (dist.items.length : ℚ) ≤ ((dist.keysCreated : ℤ) : ℚ) := by
    rw [keysCreated_eq, Int.cast_list_sum, List.map_map]
    exact rounded
  have : (dist.items.length : ℤ) ≤ dist.keysCreated := by exact_mod_cast created
  rw [dummyReplicaCount_eq]
  omega

variable {dist}

lemma fakeProbability_eq {p : ℚ} (hp : p ∈ dist.probabilities) :
    dist.fakeProbability p = dist.replicaCount p * dist.alpha - p := by
  have pos : ((dist.replicaCount p : ℤ) : ℚ) ≠ 0 := by
    exact_mod_cast (dist.replicaCount_pos hp).ne'
  unfold fakeProbability delta
  field_simp
  ring

lemma fakeProbability_nonneg {p : ℚ} (hp : p ∈ dist.probabilities) :
    0 ≤ dist.fakeProbability p := by
  rw [fakeProbability_eq hp, sub_nonneg, ← div_le_iff₀ dist.alpha_pos]
  exact Int.le_ceil _

lemma dummyProbability_eq : dist.dummyProbability = dist.dummyReplicaCount * dist.alpha := by
  unfold dummyProbability delta
  ring

lemma fakeDistribution_items :
    (dist.fakeDistribution dummyKey).items = dist.items ++ [dummyKey] := rfl

lemma fakeDistribution_probabilities :
    (dist.fakeDistribution dummyKey).probabilities =
      dist.probabilities.map dist.fakeProbability ++ [dist.dummyProbability] := by
  have pos := dist.dummyReplicaCount_pos
  simp only [fakeDistribution, ne_eq, pos.ne', not_false_eq_true, if_true]

lemma fake_nonneg {f : ℚ} (hf : f ∈ (dist.fakeDistribution dummyKey).probabilities) : 0 ≤ f := by
  rw [fakeDistribution_probabilities, List.mem_append, List.mem_map, List.mem_singleton] at hf
  rcases hf with ⟨p, hp, rfl⟩ | rfl
  · exact fakeProbability_nonneg hp
  · rw [dummyProbability_eq]
    have pos : (0 : ℚ) ≤ dist.dummyReplicaCount := by exact_mod_cast dist.dummyReplicaCount_pos.le
    exact mul_nonneg pos dist.alpha_pos.le

lemma fake_total : (dist.fakeDistribution dummyKey).probabilities.sum = 1 := by
  have n : (dist.items.length : ℚ) ≠ 0 := by exact_mod_cast dist.items_length_pos.ne'
  have each : dist.probabilities.map dist.fakeProbability =
      dist.probabilities.map fun p => (dist.replicaCount p : ℚ) * dist.alpha + -1 * p :=
    List.map_congr_left fun p hp => (fakeProbability_eq hp).trans (by ring)
  have created : (dist.probabilities.map fun p => (dist.replicaCount p : ℚ)).sum =
      dist.keysCreated := by
    rw [keysCreated_eq, Int.cast_list_sum, List.map_map]
    rfl
  rw [fakeDistribution_probabilities, List.sum_append, List.sum_singleton, each,
    dummyProbability_eq, List.sum_map_add, List.sum_map_mul_right, List.sum_map_mul_left,
    List.map_id', dist.total, created, dummyReplicaCount_eq, alpha_eq]
  push_cast
  field_simp
  ring

lemma createReplicas_written :
    (dist.createReplicas dummyKey v).written =
      (List.range (2 * dist.items.length)).map toString := by
  have numbered : Numbered (Initializer.addKeys v .empty (dist.allCounts dummyKey)) :=
    Numbered.addKeys (show Numbered Initializer.empty from rfl) _
  have filled := (@createReplicas_filled dist dummyKey v).1.count
  have size : ∀ counts : List (String × ℤ), (∀ c ∈ counts, 0 < c.2) →
      ((replicaPairs counts).length : ℤ) = (counts.map Prod.snd).sum := by
    intro counts
    induction counts with
    | nil => simp [replicaPairs]
    | cons c counts ih =>
      intro pos
      have rest := ih fun c hc => pos c (List.mem_cons_of_mem _ hc)
      have here := pos c List.mem_cons_self
      simp only [replicaPairs, List.flatMap_cons, List.length_append, List.length_map,
        List.length_range, List.map_cons, List.sum_cons] at rest ⊢
      push_cast
      rw [rest]
      omega
  have total : ((dist.allCounts dummyKey).map Prod.snd).sum = 2 * dist.items.length := by
    have real : dist.realCounts.map Prod.snd = dist.probabilities.map dist.replicaCount := by
      rw [realCounts_eq, List.map_snd_zip]
      simp [dist.lengths]
    rw [allCounts, List.map_append, List.sum_append, real]
    simp only [List.map_cons, List.map_nil, List.sum_singleton, dummyReplicaCount_eq, keysCreated_eq]
    ring
  have count : (dist.createReplicas dummyKey v).labelCount = 2 * dist.items.length := by
    have pairs := size (dist.allCounts dummyKey) fun c hc => counts_pos (k := c.1) (r := c.2) hc
    rw [total] at pairs
    rw [filled, List.length_map]
    exact_mod_cast pairs
  rw [createReplicas_eq] at count ⊢
  dsimp only at count ⊢
  split
  · next more =>
    rw [if_pos more] at count
    rw [← count]
    exact numbered
  · next none =>
    rw [if_neg none] at count
    rw [← count]
    unfold Numbered at numbered
    rwa [not_not.mp none, List.append_nil] at numbered

/-- Probabilities and number of replicas of a key of the extended distribution. -/
structure KeyRate (dist : RealDistribution) (dummyKey v k : String) (p f : ℚ) (r : ℤ) : Prop where
  real : dist.probabilityOf k = p
  fake : (dist.fakeDistribution dummyKey).probabilityOf k = f
  replicas : (dist.init dummyKey v).keyToNumberOfReplicas.lookup k = some r
  pos : 0 < r
  rate : p + f = r * dist.alpha

variable {dummyKey}

lemma keyRate_real (other : dummyKey ∉ dist.items) {i : ℕ} {k : String} {p : ℚ}
    (key : dist.items[i]? = some k) (value : dist.probabilities[i]? = some p) :
    KeyRate dist dummyKey v k p (dist.fakeProbability p) (dist.replicaCount p) := by
  have hp := List.mem_of_getElem? value
  have inside := (List.getElem?_eq_some_iff.mp key).1
  have nodup : (dist.items ++ [dummyKey]).Nodup :=
    List.Nodup.append dist.nodup (by simp) (by simpa using other)
  refine ⟨?_, ?_, ?_, dist.replicaCount_pos hp, ?_⟩
  · rw [Distribution.probabilityOf, lookup_zip dist.nodup key value]
    rfl
  · rw [Distribution.probabilityOf, fakeDistribution_probabilities, fakeDistribution_items,
      lookup_zip (i := i) (p := dist.fakeProbability p) nodup]
    · rfl
    · rw [List.getElem?_append_left inside, key]
    · rw [List.getElem?_append_left (by rwa [List.length_map, ← dist.lengths]), List.getElem?_map,
        value]
      rfl
  · refine (createReplicas_lookup v other k _).mpr (List.mem_append_left _ ?_)
    refine Distribution.mem_realCounts.mpr ⟨p, ?_, rfl⟩
    refine List.mem_of_getElem? (i := i) ?_
    rw [List.getElem?_zip_eq_some]
    exact ⟨key, value⟩
  · rw [fakeProbability_eq hp]
    ring

lemma keyRate_dummy (other : dummyKey ∉ dist.items) :
    KeyRate dist dummyKey v dummyKey 0 dist.dummyProbability dist.dummyReplicaCount := by
  have nodup : (dist.items ++ [dummyKey]).Nodup :=
    List.Nodup.append dist.nodup (by simp) (by simpa using other)
  refine ⟨?_, ?_, ?_, dist.dummyReplicaCount_pos, ?_⟩
  · rw [Distribution.probabilityOf, lookup_zip_none other]
    rfl
  · rw [Distribution.probabilityOf, fakeDistribution_probabilities, fakeDistribution_items,
      lookup_zip (i := dist.items.length) (p := dist.dummyProbability) nodup]
    · rfl
    · simp
    · simp [dist.lengths]
  · exact (createReplicas_lookup v other dummyKey _).mpr (List.mem_append_right _ (by simp))
  · rw [dummyProbability_eq]
    ring

lemma exists_keyRate (other : dummyKey ∉ dist.items) {k : String}
    (mem : k ∈ dist.items ++ [dummyKey]) : ∃ p f r, KeyRate dist dummyKey v k p f r := by
  rcases List.mem_append.mp mem with real | dummy
  · obtain ⟨i, key⟩ := List.mem_iff_getElem?.mp real
    have inside := (List.getElem?_eq_some_iff.mp key).1
    exact ⟨_, _, _, keyRate_real v other key
      (List.getElem?_eq_getElem (dist.lengths ▸ inside))⟩
  · rw [List.mem_singleton] at dummy
    subst dummy
    exact ⟨_, _, _, keyRate_dummy v other⟩

/-- What the replicas and the fake distribution of a real distribution must satisfy. -/
structure Smoothed (dist : RealDistribution) (dummyKey v : String) : Prop where
  real : ∀ k ∈ dist.items, ∃ r,
    (dist.init dummyKey v).keyToNumberOfReplicas.lookup k = some r ∧ 1 ≤ r
  dummy : ∃ d, (dist.init dummyKey v).keyToNumberOfReplicas.lookup dummyKey = some d ∧ 1 ≤ d ∧
    d ≤ dist.items.length ∧ d + (dist.items.map fun k =>
      ((dist.init dummyKey v).keyToNumberOfReplicas.lookup k).getD 0).sum = 2 * dist.items.length
  labels : (dist.createReplicas dummyKey v).written =
    (List.range (2 * dist.items.length)).map toString
  sizes : (dist.init dummyKey v).fakeDistribution.items.length =
    (dist.init dummyKey v).fakeDistribution.probabilities.length
  nonneg : ∀ f ∈ (dist.init dummyKey v).fakeDistribution.probabilities, 0 ≤ f
  total : (dist.init dummyKey v).fakeDistribution.probabilities.sum = 1
  uniform : ∀ k ∈ dist.items ++ [dummyKey], ∃ r,
    (dist.init dummyKey v).keyToNumberOfReplicas.lookup k = some r ∧
      1 / 2 * (dist.probabilityOf k + (dist.init dummyKey v).fakeDistribution.probabilityOf k) / r =
        1 / (2 * dist.items.length)

theorem smoothed (other : dummyKey ∉ dist.items) : Smoothed dist dummyKey v where
  real k hk := by
    obtain ⟨_, _, r, rate⟩ := exists_keyRate v other (List.mem_append_left _ hk)
    exact ⟨r, rate.replicas, rate.pos⟩
  dummy := by
    have counts : (dist.items.map fun k =>
        ((dist.init dummyKey v).keyToNumberOfReplicas.lookup k).getD 0) =
        dist.probabilities.map dist.replicaCount := by
      refine List.ext_getElem? fun i => ?_
      rw [List.getElem?_map, List.getElem?_map]
      rcases lt_or_ge i dist.items.length with inside | outside
      · have key := List.getElem?_eq_getElem inside
        have value := List.getElem?_eq_getElem (dist.lengths ▸ inside)
        rw [key, value, Option.map_some, Option.map_some, (keyRate_real v other key value).replicas]
        rfl
      · rw [List.getElem?_eq_none outside, List.getElem?_eq_none (dist.lengths ▸ outside)]
        rfl
    refine ⟨_, (keyRate_dummy v other).replicas, dist.dummyReplicaCount_pos,
      dist.dummyReplicaCount_le, ?_⟩
    rw [counts, dummyReplicaCount_eq, keysCreated_eq]
    ring
  labels := createReplicas_written dummyKey v
  sizes := by
    rw [init, fakeDistribution_probabilities]
    simp [fakeDistribution, dist.lengths]
  nonneg _ hf := fake_nonneg dummyKey hf
  total := fake_total dummyKey
  uniform k hk := by
    obtain ⟨p, f, r, rate⟩ := exists_keyRate v other hk
    have n : (dist.items.length : ℚ) ≠ 0 := by exact_mod_cast dist.items_length_pos.ne'
    have pos : ((r : ℤ) : ℚ) ≠ 0 := by exact_mod_cast rate.pos.ne'
    refine ⟨r, rate.replicas, ?_⟩
    rw [rate.real, show (dist.init dummyKey v).fakeDistribution.probabilityOf k = f from rate.fake,
      rate.rate, alpha_eq]
    field_simp

end RealDistribution

/-- The distribution read from a trace is smoothed exactly. -/
theorem smoothed_of_trace {iterate : AList (fun _ : String => ℤ) → List (String × ℤ)} {size : ℤ}
    {lines : List String} {dist : Distribution} {trace : List (List String × List String)}
    {dummyKey : String} (valueCipher : String) (order : IterationOrder iterate)
    (some' : lines ≠ [])
    (loaded : loadFrequenciesFromTrace iterate size lines = .ok (dist, trace))
    (other : dummyKey ∉ dist.items) :
    ∃ real : RealDistribution, real.toDistribution = dist ∧
      (∀ k, k ∈ dist.items ↔ k ∈ lines.map TraceState.traceKey) ∧
      dist.probabilities = dist.items.map (share lines) ∧
      real.Smoothed dummyKey valueCipher := by
  obtain ⟨real, rfl, occurs, shares⟩ := real_of_load order some' loaded
  exact ⟨real, rfl, occurs, shares, RealDistribution.smoothed valueCipher other⟩

theorem smoothed_of_trace_threeLines :
    ∃ real : RealDistribution, real.items = ["a", "b"] ∧ real.probabilities = [2 / 3, 1 / 3] ∧
      real.Smoothed "dummy" "cipher" := by
  have loaded : loadFrequenciesFromTrace (fun m => m.entries.map fun e => (e.1, e.2)) 2
      ["GET a", "PUT b x", "GET a"] =
      .ok (⟨["a", "b"], [2 / 3, 1 / 3]⟩, [(["a", "a"], []), (["b"], ["x"])]) := by
    decide +kernel
  obtain ⟨real, same, _, _, smooth⟩ := smoothed_of_trace "cipher"
    (fun m => .refl _) (by simp) loaded (show "dummy" ∉ ["a", "b"] by decide)
  exact ⟨real, by rw [same], by rw [same], smooth⟩

end Shortstack
