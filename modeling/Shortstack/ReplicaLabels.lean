import Shortstack.Initializer

/-! Labels of the replicas after `create_replicas`. The label map is keyed by the
key and the replica number written one after the other; the labels are distinct
exactly when no key continues another key by the digits of one of its replicas. -/
namespace Shortstack

namespace Initializer

/-- The replicas the other tiers may ask for. -/
def replicaSet (init : Initializer) : Set (String × ℕ) :=
  {x | ∃ r, init.keyToNumberOfReplicas.lookup x.1 = some r ∧ (x.2 : ℤ) < r}

/-- The label lookup of `forward_request`. -/
def labelOf (init : Initializer) (x : String × ℕ) : Option ℕ :=
  init.replicaToLabel.lookup (replicaName x.1 x.2)

/-- The replicas correspond one to one to the labels counted and written to the store. -/
def DistinctLabels (init : Initializer) : Prop :=
  Set.BijOn init.labelOf init.replicaSet {l | ∃ n < init.labelCount, l = some n} ∧
    ∀ s, s ∈ init.store ↔ ∃ n < init.labelCount, s = toString n

/-- The state after inserting replicas under the given names, in this order. -/
structure Filled (names : List String) (init : Initializer) : Prop where
  count : init.labelCount = names.length
  sound : ∀ s l, init.replicaToLabel.lookup s = some l → names[l]? = some s
  total : ∀ s ∈ names, ∃ l, init.replicaToLabel.lookup s = some l
  written : ∀ s, (s ∈ init.store ∨ s ∈ init.labels) ↔ ∃ n < names.length, s = toString n

variable {init : Initializer} {names : List String} {v : String}

lemma mem_foldl_insert (labels : List String) (store : AList (fun _ : String => String))
    (s : String) :
    s ∈ labels.foldl (fun store label => store.insert label v) store ↔
      s ∈ store ∨ s ∈ labels := by
  induction labels generalizing store with
  | nil => simp
  | cons label labels ih =>
    rw [List.foldl_cons, ih, AList.mem_insert, List.mem_cons]
    tauto

lemma mem_flush_store (s : String) :
    s ∈ (init.flush v).store ↔ s ∈ init.store ∨ s ∈ init.labels :=
  mem_foldl_insert init.labels init.store s

lemma insertReplica_labelCount (replica : String) :
    (init.insertReplica v replica).labelCount = init.labelCount + 1 := by
  unfold insertReplica
  dsimp only
  split <;> rfl

lemma insertReplica_replicaToLabel (replica : String) :
    (init.insertReplica v replica).replicaToLabel =
      init.replicaToLabel.insert replica init.labelCount := by
  unfold insertReplica
  dsimp only
  split <;> rfl

lemma insertReplica_keyToNumberOfReplicas (replica : String) :
    (init.insertReplica v replica).keyToNumberOfReplicas =
      init.keyToNumberOfReplicas := by
  unfold insertReplica
  dsimp only
  split <;> rfl

lemma mem_insertReplica (replica s : String) :
    (s ∈ (init.insertReplica v replica).store ∨
      s ∈ (init.insertReplica v replica).labels) ↔
    (s ∈ init.store ∨ s ∈ init.labels) ∨ s = toString init.labelCount := by
  unfold insertReplica
  dsimp only
  split
  · simp only [mem_flush_store, List.mem_append, List.mem_singleton, List.not_mem_nil, or_false]
    tauto
  · simp only [List.mem_append, List.mem_singleton]
    tauto

lemma Filled.insertReplica (h : Filled names init) (replica : String) :
    Filled (names ++ [replica]) (init.insertReplica v replica) where
  count := by simp [insertReplica_labelCount, h.count]
  sound := by
    intro s l found
    rw [insertReplica_replicaToLabel] at found
    rcases eq_or_ne s replica with rfl | other
    · rw [AList.lookup_insert, Option.some.injEq] at found
      simp [← found, h.count]
    · rw [AList.lookup_insert_ne other] at found
      have old := h.sound s l found
      rw [List.getElem?_append_left (List.getElem?_eq_some_iff.mp old).1, old]
  total := by
    intro s hs
    rw [insertReplica_replicaToLabel]
    rcases eq_or_ne s replica with rfl | other
    · exact ⟨_, AList.lookup_insert _⟩
    · rw [AList.lookup_insert_ne other]
      exact h.total s (by simpa [other] using hs)
  written := by
    intro s
    rw [mem_insertReplica, h.written, h.count, List.length_append, List.length_singleton]
    constructor
    · rintro (⟨n, hn, rfl⟩ | rfl)
      · exact ⟨n, by omega, rfl⟩
      · exact ⟨names.length, by omega, rfl⟩
    · rintro ⟨n, hn, rfl⟩
      rcases Nat.lt_or_ge n names.length with small | large
      · exact .inl ⟨n, small, rfl⟩
      · rw [show n = names.length by omega]
        exact .inr rfl

/-- The replicas of a list of keys with their counts, in order. -/
def replicaPairs (counts : List (String × ℤ)) : List (String × ℕ) :=
  counts.flatMap fun c => (List.range c.2.toNat).map fun i => (c.1, i)

lemma mem_replicaPairs {counts : List (String × ℤ)} {x : String × ℕ} :
    x ∈ replicaPairs counts ↔ ∃ r, (x.1, r) ∈ counts ∧ (x.2 : ℤ) < r := by
  simp only [replicaPairs, List.mem_flatMap, List.mem_map, List.mem_range]
  constructor
  · rintro ⟨⟨k, r⟩, hc, i, hi, rfl⟩
    exact ⟨r, hc, by simpa using hi⟩
  · rintro ⟨r, hc, hr⟩
    exact ⟨(x.1, r), hc, x.2, by simpa using hr, rfl⟩

lemma Filled.insertReplicas (h : Filled names init) (key : String) (r : ℤ) :
    Filled (names ++ (List.range r.toNat).map (replicaName key))
      (init.insertReplicas v key r) := by
  unfold Initializer.insertReplicas
  generalize List.range r.toNat = is
  induction is generalizing init names with
  | nil => simpa using h
  | cons i is ih => simpa using ih (h.insertReplica (replicaName key i))

lemma insertReplicas_keyToNumberOfReplicas (key : String) (r : ℤ) :
    (init.insertReplicas v key r).keyToNumberOfReplicas =
      init.keyToNumberOfReplicas := by
  unfold insertReplicas
  generalize List.range r.toNat = is
  induction is generalizing init with
  | nil => rfl
  | cons i is ih => rw [List.foldl_cons, ih, insertReplica_keyToNumberOfReplicas]

lemma addKey_keyToNumberOfReplicas (key : String) (r : ℤ) :
    (init.addKey v key r).keyToNumberOfReplicas =
      init.keyToNumberOfReplicas.insert key r := by
  rw [addKey, insertReplicas_keyToNumberOfReplicas]

lemma Filled.addKey (h : Filled names init) (key : String) (r : ℤ) :
    Filled (names ++ (List.range r.toNat).map (replicaName key))
      (init.addKey v key r) := by
  have counted : Filled names { init with
      keyToNumberOfReplicas := init.keyToNumberOfReplicas.insert key r } :=
    ⟨h.count, h.sound, h.total, h.written⟩
  exact counted.insertReplicas key r

/-- The loop of `create_replicas` over keys with their counts. -/
def addKeys (valueCipher : String) (init : Initializer) (counts : List (String × ℤ)) :
    Initializer :=
  counts.foldl (fun init c => init.addKey valueCipher c.1 c.2) init

lemma Filled.addKeys (h : Filled names init) (counts : List (String × ℤ)) :
    Filled (names ++ (replicaPairs counts).map fun x => replicaName x.1 x.2)
      (init.addKeys v counts) := by
  induction counts generalizing init names with
  | nil => simpa [Initializer.addKeys, replicaPairs] using h
  | cons c counts ih =>
    have rest := ih (h.addKey (v := v) c.1 c.2)
    simpa [Initializer.addKeys, replicaPairs, Function.comp_def] using rest

lemma addKeys_lookup (counts : List (String × ℤ)) (nodup : (counts.map Prod.fst).Nodup)
    (fresh : ∀ k ∈ counts.map Prod.fst, k ∉ init.keyToNumberOfReplicas) (k : String) (r : ℤ) :
    (init.addKeys v counts).keyToNumberOfReplicas.lookup k = some r ↔
      init.keyToNumberOfReplicas.lookup k = some r ∨ (k, r) ∈ counts := by
  induction counts generalizing init with
  | nil => simp [addKeys]
  | cons c counts ih =>
    rw [List.map_cons, List.nodup_cons] at nodup
    have next := @ih (init.addKey v c.1 c.2) nodup.2 (by
      intro k' hk'
      rw [addKey_keyToNumberOfReplicas, AList.mem_insert]
      rintro (rfl | old)
      · exact nodup.1 hk'
      · exact fresh k' (by simp [hk']) old)
    refine next.trans ?_
    rw [addKey_keyToNumberOfReplicas, List.mem_cons]
    rcases eq_or_ne k c.1 with rfl | other
    · have absent : init.keyToNumberOfReplicas.lookup c.1 = none :=
        AList.lookup_eq_none.mpr (fresh c.1 (by simp))
      have gone : (c.1, r) ∉ counts := fun h => nodup.1 (List.mem_map.mpr ⟨_, h, rfl⟩)
      simp only [AList.lookup_insert, absent, Option.some.injEq, gone, or_false, reduceCtorEq,
        false_or]
      constructor
      · rintro rfl
        rfl
      · intro h
        exact congrArg Prod.snd h.symm
    · have differ : (k, r) ≠ c := fun h => other (congrArg Prod.fst h)
      rw [AList.lookup_insert_ne other]
      simp [differ]

lemma nodup_replicaPairs {counts : List (String × ℤ)} (nodup : (counts.map Prod.fst).Nodup) :
    (replicaPairs counts).Nodup := by
  induction counts with
  | nil => simp [replicaPairs]
  | cons c counts ih =>
    rw [List.map_cons, List.nodup_cons] at nodup
    simp only [replicaPairs, List.flatMap_cons]
    refine List.Nodup.append ?_ (ih nodup.2) ?_
    · exact List.nodup_range.map fun i j hij => congrArg Prod.snd hij
    · intro x first rest
      obtain ⟨i, _, rfl⟩ := List.mem_map.mp first
      obtain ⟨r, hc, _⟩ := mem_replicaPairs.mp rest
      exact nodup.1 (List.mem_map.mpr ⟨_, hc, rfl⟩)

/-- Once everything is written, the labels are distinct exactly when the names are. -/
theorem Filled.distinctLabels_iff {pairs : List (String × ℕ)}
    (h : Filled (pairs.map fun x => replicaName x.1 x.2) init) (nodup : pairs.Nodup)
    (set : init.replicaSet = {x | x ∈ pairs}) (flushed : ∀ s ∈ init.labels, s ∈ init.store) :
    init.DistinctLabels ↔
      ∀ x ∈ pairs, ∀ y ∈ pairs, replicaName x.1 x.2 = replicaName y.1 y.2 → x = y := by
  have label : ∀ x ∈ pairs, ∃ l, init.labelOf x = some l ∧
      (pairs.map fun x => replicaName x.1 x.2)[l]? = some (replicaName x.1 x.2) := by
    intro x hx
    obtain ⟨l, found⟩ := h.total _ (List.mem_map.mpr ⟨x, hx, rfl⟩)
    exact ⟨l, found, h.sound _ _ found⟩
  constructor
  · rintro ⟨bijective, _⟩ x hx y hy name
    refine bijective.injOn (set ▸ hx) (set ▸ hy) ?_
    exact congrArg (fun s => (init.replicaToLabel.lookup s : Option ℕ)) name
  · intro inj
    refine ⟨⟨?_, ?_, ?_⟩, ?_⟩
    · intro x hx
      rw [set] at hx
      obtain ⟨l, found, position⟩ := label x hx
      exact ⟨l, h.count ▸ (List.getElem?_eq_some_iff.mp position).1, found⟩
    · intro x hx y hy same
      rw [set] at hx hy
      obtain ⟨l, foundx, positionx⟩ := label x hx
      obtain ⟨l', foundy, positiony⟩ := label y hy
      have : l = l' := Option.some.inj (by rw [← foundx, ← foundy, same])
      subst this
      exact inj x hx y hy (Option.some.inj (positionx.symm.trans positiony))
    · rintro _ ⟨n, hn, rfl⟩
      rw [h.count, List.length_map] at hn
      have hx : pairs[n] ∈ pairs := List.getElem_mem hn
      obtain ⟨l, found, position⟩ := label _ hx
      have hl := (List.getElem?_eq_some_iff.mp position).1
      rw [List.length_map] at hl
      rw [List.getElem?_map, List.getElem?_eq_getElem hl, Option.map_some,
        Option.some.injEq] at position
      have same : pairs[l] = pairs[n] := inj _ (List.getElem_mem hl) _ hx position
      rw [nodup.getElem_inj_iff] at same
      exact ⟨pairs[n], by rw [set]; exact hx, same ▸ found⟩
    · intro s
      rw [h.count, ← h.written]
      exact ⟨.inl, fun h => h.elim id (flushed s)⟩

/-- The keys `create` inserts, with their counts. -/
def inserted (counts : List (String × ℤ)) (dummy : String × ℤ) : List (String × ℤ) :=
  counts ++ if dummy.2 ≠ 0 then [dummy] else []

variable {counts : List (String × ℤ)} {dummy : String × ℤ}

lemma mem_inserted {c : String × ℤ} :
    c ∈ inserted counts dummy ↔ c ∈ counts ∨ dummy.2 ≠ 0 ∧ c = dummy := by
  unfold inserted
  split
  · next some' => simp [some']
  · next none => simp [none]

lemma nodup_inserted (nodup : (counts.map Prod.fst).Nodup) (other : dummy.1 ∉ counts.map Prod.fst) :
    ((inserted counts dummy).map Prod.fst).Nodup := by
  unfold inserted
  rw [List.map_append]
  refine List.Nodup.append nodup ?_ ?_
  · split <;> simp
  · split
    · simpa using other
    · simp

lemma create_eq (counts : List (String × ℤ)) (dummy : String × ℤ) :
    create counts dummy v =
      let init := addKeys v .empty (inserted counts dummy)
      if init.labels ≠ [] then init.flush v else init := by
  simp only [create, addKeys, inserted, List.foldl_append]
  split <;> rfl

lemma create_lookup (nodup : ((inserted counts dummy).map Prod.fst).Nodup) (k : String) (r : ℤ) :
    (create counts dummy v).keyToNumberOfReplicas.lookup k = some r ↔
      (k, r) ∈ inserted counts dummy := by
  have added := @addKeys_lookup .empty v (inserted counts dummy) nodup (by simp [empty]) k r
  rw [create_eq]
  dsimp only
  split
  · simpa [flush, empty] using added
  · simpa [empty] using added

lemma create_filled :
    Filled ((replicaPairs (inserted counts dummy)).map fun x => replicaName x.1 x.2)
      (create counts dummy v) ∧
    ∀ s ∈ (create counts dummy v).labels, s ∈ (create counts dummy v).store := by
  have start : Filled [] empty := ⟨rfl, by simp [empty], by simp, by simp [empty]⟩
  have filled := start.addKeys (v := v) (inserted counts dummy)
  rw [List.nil_append] at filled
  rw [create_eq]
  dsimp only
  split
  · refine ⟨⟨filled.count, filled.sound, filled.total, fun s => ?_⟩, fun s hs => ?_⟩
    · rw [← filled.written, mem_flush_store]
      exact ⟨fun h => h.elim id .inr, .inl⟩
    · exact (mem_flush_store s).mpr (.inr hs)
  · next empty => exact ⟨filled, by simp_all⟩

/-- Some key with a replica is another one followed by the digits of a positive number m, and the
shorter one has more than ten times m replicas. -/
def Clash (counts : List (String × ℤ)) : Prop :=
  ∃ (k : String) (m : ℕ) (r r' : ℤ), 1 ≤ m ∧ (k, r) ∈ counts ∧ 10 * (m : ℤ) < r ∧
    (k ++ toString m, r') ∈ counts ∧ 0 < r'

lemma shared_name_of_clash (clash : Clash counts) :
    ∃ x ∈ replicaPairs counts, ∃ y ∈ replicaPairs counts,
      replicaName x.1 x.2 = replicaName y.1 y.2 ∧ x ≠ y := by
  obtain ⟨k, m, r, r', positive, shorter, many, longer, some'⟩ := clash
  refine ⟨(k, 10 * m), mem_replicaPairs.mpr ⟨r, shorter, by exact_mod_cast many⟩,
    (k ++ toString m, 0), mem_replicaPairs.mpr ⟨r', longer, some'⟩, ?_, ?_⟩
  · simp only [replicaName]
    rw [Decimal.toString_ten_mul positive, String.append_assoc]
  · intro same
    have := congrArg Prod.snd same
    simp only at this
    omega

lemma name_injective_of_not_clash (free : ¬ Clash counts) {x y : String × ℕ}
    (hx : x ∈ replicaPairs counts) (hy : y ∈ replicaPairs counts)
    (name : replicaName x.1 x.2 = replicaName y.1 y.2) : x = y := by
  obtain ⟨r, hr, small⟩ := mem_replicaPairs.mp hx
  obtain ⟨r', hr', small'⟩ := mem_replicaPairs.mp hy
  rcases Decimal.append_toString_eq name with ⟨key, number⟩ | ⟨m, positive, longer, bound⟩ |
    ⟨m, positive, longer, bound⟩
  · exact Prod.ext key number
  · refine absurd ⟨x.1, m, r, r', positive, hr, ?_, longer ▸ hr', by omega⟩ free
    exact lt_of_le_of_lt (by exact_mod_cast bound) small
  · refine absurd ⟨y.1, m, r', r, positive, hr', ?_, longer ▸ hr, by omega⟩ free
    exact lt_of_le_of_lt (by exact_mod_cast bound) small'

/-- Whatever the counts are: the labels are distinct if and only if no two keys clash. -/
theorem distinctLabels_create_iff (nodup : ((inserted counts dummy).map Prod.fst).Nodup) :
    (create counts dummy v).DistinctLabels ↔ ¬ Clash (inserted counts dummy) := by
  obtain ⟨filled, flushed⟩ := @create_filled v counts dummy
  have set : (create counts dummy v).replicaSet = {x | x ∈ replicaPairs (inserted counts dummy)} := by
    ext x
    simp only [replicaSet, Set.mem_ofPred_eq, mem_replicaPairs, create_lookup nodup]
  rw [filled.distinctLabels_iff (nodup_replicaPairs nodup) set flushed]
  constructor
  · intro inj clash
    obtain ⟨x, hx, y, hy, name, differ⟩ := shared_name_of_clash clash
    exact differ (inj x hx y hy name)
  · intro free x hx y hy name
    exact name_injective_of_not_clash free hx hy name

end Initializer

lemma toDouble_pos {x : ℚ} (pos : 0 < x) : 0 < toDouble x := by
  have num : 0 < x.num.toNat := by
    have := Rat.num_pos.mpr pos
    omega
  unfold toDouble
  have up := roundDouble_num_pos num x.den_pos
  have down := roundDouble_pos x.num.toNat x.den
  positivity

namespace Distribution
open Initializer
variable {round : ℚ → ℚ} {dist : Distribution}

lemma map_fst_realCounts (lengths : dist.items.length = dist.probabilities.length) :
    (dist.realCounts round).map Prod.fst = dist.items := by
  rw [realCounts, List.map_fst_zip]
  simp [lengths]

lemma mem_realCounts {k : String} {r : ℤ} :
    (k, r) ∈ dist.realCounts round ↔
      ∃ p, (k, p) ∈ dist.items.zip dist.probabilities ∧ dist.replicaCount round p = r := by
  rw [realCounts, List.zip_map_right, List.mem_map]
  constructor
  · rintro ⟨⟨k', p⟩, hp, same⟩
    simp only [Prod.map_apply, id_eq, Prod.mk.injEq] at same
    exact ⟨p, same.1 ▸ hp, same.2⟩
  · rintro ⟨p, hp, rfl⟩
    exact ⟨(k, p), hp, rfl⟩

end Distribution

namespace KeyDistribution
open Initializer
variable {dist : KeyDistribution} {dummyKey : String}

lemma replicaCount_pos {round : ℚ → ℚ} (keeps : ∀ x, 0 < x → 0 < round x) {k : String} {p : ℚ}
    (mem : (k, p) ∈ dist.items.zip dist.probabilities) : 0 < dist.replicaCount round p := by
  obtain ⟨key, value⟩ := List.of_mem_zip mem
  have some' : 0 < dist.items.length := List.length_pos_of_mem key
  unfold Distribution.replicaCount Distribution.alpha
  rw [Int.ceil_pos]
  refine keeps _ (div_pos (dist.positive p value) (keeps _ ?_))
  exact one_div_pos.mpr (by exact_mod_cast some')

/-- What the counts of the real keys leave for the dummy key, in doubles. -/
def left (dist : KeyDistribution) : ℤ :=
  2 * dist.items.length -
    (dist.probabilities.map fun p => ⌈toDouble (p / toDouble (1 / dist.items.length))⌉).sum

/-- Some key, the dummy key included if anything is left for it, is another one followed by the
digits of a positive number m, and the shorter one gets more than ten times m replicas: a real
key of probability p if `p / (1.0 / n)` is above that in doubles, the dummy key if what is left
is. -/
def Clash (dist : KeyDistribution) (dummyKey : String) : Prop :=
  ∃ (k : String) (m : ℕ), 1 ≤ m ∧
    (k ++ toString m ∈ dist.items ∨ k ++ toString m = dummyKey ∧ 0 < dist.left) ∧
    ((∃ p, (k, p) ∈ dist.items.zip dist.probabilities ∧
        10 * (m : ℚ) < toDouble (p / toDouble (1 / dist.items.length))) ∨
      k = dummyKey ∧ 10 * (m : ℤ) < dist.left)

lemma clash_iff : Initializer.Clash (inserted (dist.realCounts toDouble)
    (dummyKey, dist.dummyReplicaCount toDouble)) ↔ dist.Clash dummyKey := by
  have count : dist.dummyReplicaCount toDouble = dist.left := rfl
  have above : ∀ (m : ℕ) p, 10 * (m : ℤ) < dist.replicaCount toDouble p ↔
      10 * (m : ℚ) < toDouble (p / toDouble (1 / dist.items.length)) := fun m p => by
    unfold Distribution.replicaCount Distribution.alpha
    rw [Int.lt_ceil]
    push_cast
    rfl
  unfold Initializer.Clash Clash
  simp only [mem_inserted, Distribution.mem_realCounts, count]
  constructor
  · rintro ⟨k, m, r, r', positive, shorter, many, longer, some'⟩
    refine ⟨k, m, positive, ?_, ?_⟩
    · rcases longer with ⟨p, mem, -⟩ | ⟨-, same⟩
      · exact .inl (List.of_mem_zip mem).1
      · obtain ⟨key, rfl⟩ := Prod.mk.inj same
        exact .inr ⟨key, some'⟩
    · rcases shorter with ⟨p, mem, rfl⟩ | ⟨-, same⟩
      · exact .inl ⟨p, mem, (above m p).mp many⟩
      · obtain ⟨key, rfl⟩ := Prod.mk.inj same
        exact .inr ⟨key, many⟩
  · rintro ⟨k, m, positive, longer, shorter⟩
    have some' : ∃ r', ((∃ p, (k ++ toString m, p) ∈ dist.items.zip dist.probabilities ∧
        dist.replicaCount toDouble p = r') ∨ dist.left ≠ 0 ∧
          (k ++ toString m, r') = (dummyKey, dist.left)) ∧ 0 < r' := by
      rcases longer with real | ⟨rfl, some'⟩
      · obtain ⟨i, inside, key⟩ := List.mem_iff_getElem.mp real
        have inside' : i < dist.probabilities.length := dist.lengths ▸ inside
        have mem : (k ++ toString m, dist.probabilities[i]) ∈ dist.items.zip dist.probabilities := by
          rw [← key, ← List.getElem_zip (h := by simp [← dist.lengths, inside])]
          exact List.getElem_mem _
        exact ⟨_, .inl ⟨_, mem, rfl⟩, replicaCount_pos (fun _ => toDouble_pos) mem⟩
      · exact ⟨_, .inr ⟨some'.ne', rfl⟩, some'⟩
    obtain ⟨r', longer, some'⟩ := some'
    rcases shorter with ⟨p, mem, many⟩ | ⟨rfl, many⟩
    · exact ⟨k, m, _, r', positive, .inl ⟨p, mem, rfl⟩, (above m p).mpr many, longer, some'⟩
    · exact ⟨k, m, _, r', positive, .inr ⟨by omega, rfl⟩, many, longer, some'⟩

/-- With the counts computed in doubles, the replicas get distinct labels, which are exactly the
labels written to the store, if and only if no two keys clash. -/
theorem distinctLabels_createReplicas_iff (dist : KeyDistribution) (dummyKey valueCipher : String)
    (other : dummyKey ∉ dist.items) :
    (dist.createReplicas toDouble dummyKey valueCipher).DistinctLabels ↔ ¬ dist.Clash dummyKey := by
  have keys := @Distribution.map_fst_realCounts toDouble _ dist.lengths
  rw [← clash_iff]
  refine distinctLabels_create_iff (nodup_inserted ?_ ?_)
  · rw [keys]
    exact dist.nodup
  · rw [keys]
    exact other

end KeyDistribution

namespace RealDistribution
open Initializer
variable (dist : RealDistribution) (dummyKey v : String)

lemma items_length_pos : 0 < dist.items.length := by
  rcases Nat.eq_zero_or_pos dist.items.length with empty | positive
  · have none : dist.probabilities = [] :=
      List.length_eq_zero_iff.mp (dist.lengths ▸ empty)
    have total := dist.total
    simp [none] at total
  · exact positive

lemma alpha_eq : dist.alpha = 1 / dist.items.length := rfl

lemma keysCreated_eq : dist.keysCreated = (dist.probabilities.map dist.replicaCount).sum := rfl

lemma dummyReplicaCount_eq : dist.dummyReplicaCount = 2 * dist.items.length - dist.keysCreated := rfl

lemma realCounts_eq : dist.realCounts = dist.items.zip (dist.probabilities.map dist.replicaCount) := rfl

lemma replicaCount_eq_ceil (p : ℚ) : dist.replicaCount p = ⌈p / dist.alpha⌉ := rfl

lemma replicaCount_eq (p : ℚ) : dist.replicaCount p = ⌈dist.items.length * p⌉ := by
  rw [replicaCount_eq_ceil, alpha_eq, div_div_eq_mul_div, div_one, mul_comm]

lemma replicaCount_pos {p : ℚ} (hp : p ∈ dist.probabilities) : 0 < dist.replicaCount p := by
  rw [replicaCount_eq, Int.ceil_pos]
  exact mul_pos (by exact_mod_cast dist.items_length_pos) (dist.positive p hp)

/-- Rounding up adds less than one replica for each key, so the dummy key gets some. -/
lemma dummyReplicaCount_pos : 0 < dist.dummyReplicaCount := by
  have nonempty : dist.probabilities ≠ [] := by
    intro none
    have := dist.items_length_pos
    rw [dist.lengths, none] at this
    simp at this
  have rounded : (dist.probabilities.map fun p => (dist.replicaCount p : ℚ)).sum <
      (dist.probabilities.map fun p => (dist.items.length : ℚ) * p + 1).sum := by
    refine List.sum_lt_sum_of_ne_nil nonempty _ _ fun p _ => ?_
    rw [replicaCount_eq]
    exact Int.ceil_lt_add_one _
  have exact : (dist.probabilities.map fun p => (dist.items.length : ℚ) * p + 1).sum =
      2 * dist.items.length := by
    rw [List.sum_map_add, List.sum_map_mul_left, List.map_id', dist.total]
    simp [← dist.lengths]
    ring
  have created : ((dist.keysCreated : ℤ) : ℚ) < 2 * dist.items.length := by
    rw [keysCreated_eq, Int.cast_list_sum, List.map_map, ← exact]
    exact rounded
  have : dist.keysCreated < 2 * dist.items.length := by exact_mod_cast created
  rw [dummyReplicaCount_eq]
  omega

def allCounts : List (String × ℤ) := dist.realCounts ++ [(dummyKey, dist.dummyReplicaCount)]

lemma inserted_eq : inserted dist.realCounts (dummyKey, dist.dummyReplicaCount) =
    dist.allCounts dummyKey := by
  rw [inserted, if_pos dist.dummyReplicaCount_pos.ne', allCounts]

lemma createReplicas_eq :
    dist.createReplicas dummyKey v =
      let init := Initializer.addKeys v .empty (dist.allCounts dummyKey)
      if init.labels ≠ [] then init.flush v else init := by
  rw [← inserted_eq]
  exact create_eq dist.realCounts (dummyKey, dist.dummyReplicaCount)

lemma map_fst_realCounts : dist.realCounts.map Prod.fst = dist.items :=
  Distribution.map_fst_realCounts dist.lengths

variable {dummyKey} {dist}

lemma map_fst_allCounts : (dist.allCounts dummyKey).map Prod.fst = dist.items ++ [dummyKey] := by
  rw [allCounts, List.map_append, map_fst_realCounts]
  rfl

lemma mem_allCounts_iff {k : String} :
    k ∈ dist.items ++ [dummyKey] ↔ ∃ r, (k, r) ∈ dist.allCounts dummyKey := by
  rw [← map_fst_allCounts, List.mem_map]
  constructor
  · rintro ⟨⟨k', r⟩, hr, rfl⟩
    exact ⟨r, hr⟩
  · rintro ⟨r, hr⟩
    exact ⟨(k, r), hr, rfl⟩

lemma nodup_allCounts (other : dummyKey ∉ dist.items) :
    ((dist.allCounts dummyKey).map Prod.fst).Nodup := by
  rw [map_fst_allCounts]
  exact List.Nodup.append dist.nodup (by simp) (by simpa using other)

lemma counts_pos {k : String} {r : ℤ} (h : (k, r) ∈ dist.allCounts dummyKey) : 0 < r := by
  rcases List.mem_append.mp h with real | dummy
  · obtain ⟨p, hp, rfl⟩ := Distribution.mem_realCounts.mp real
    exact dist.replicaCount_pos (List.of_mem_zip hp).2
  · rw [List.mem_singleton, Prod.mk.injEq] at dummy
    exact dummy.2 ▸ dist.dummyReplicaCount_pos

lemma createReplicas_lookup (other : dummyKey ∉ dist.items) (k : String) (r : ℤ) :
    (dist.createReplicas dummyKey v).keyToNumberOfReplicas.lookup k = some r ↔
      (k, r) ∈ dist.allCounts dummyKey := by
  have nodup : ((inserted dist.realCounts (dummyKey, dist.dummyReplicaCount)).map Prod.fst).Nodup := by
    rw [inserted_eq]
    exact nodup_allCounts other
  rw [← inserted_eq]
  exact create_lookup nodup k r

lemma createReplicas_filled :
    Filled ((replicaPairs (dist.allCounts dummyKey)).map fun x => replicaName x.1 x.2)
      (dist.createReplicas dummyKey v) ∧
    ∀ s ∈ (dist.createReplicas dummyKey v).labels, s ∈ (dist.createReplicas dummyKey v).store := by
  rw [← inserted_eq]
  exact create_filled

/-- Two keys, neither of them a continuation of the other or of the dummy key. -/
def evenPair : RealDistribution where
  items := ["a", "b"]
  probabilities := [1 / 2, 1 / 2]
  nodup := by decide
  lengths := rfl
  positive := by
    intro p hp
    simp only [List.mem_cons, List.not_mem_nil, or_false, or_self] at hp
    norm_num [hp]
  total := by norm_num

lemma pair_nodup : ["a", "b"].Nodup := by decide

lemma quarters_length : ["a", "b"].length = ([3 / 4, 1 / 4] : List ℚ).length := rfl

lemma quarters_pos : ∀ p ∈ ([3 / 4, 1 / 4] : List ℚ), 0 < p := by
  intro p hp
  simp only [List.mem_cons, List.not_mem_nil, or_false] at hp
  rcases hp with rfl | rfl <;> norm_num

lemma quarters_sum : ([3 / 4, 1 / 4] : List ℚ).sum = 1 := by norm_num

end RealDistribution

namespace KeyDistribution
open Initializer

/-- Eleven keys, the first one drawn nearly always. All probabilities are doubles. -/
def skewedUsers : KeyDistribution where
  items := ["user1", "user2", "user3", "user4", "user5", "user6", "user7", "user8", "user9",
    "user10", "user11"]
  probabilities := 507 / 512 :: List.replicate 10 (1 / 1024)
  nodup := by decide
  lengths := rfl
  positive := by
    intro p hp
    simp only [List.mem_cons, List.mem_replicate] at hp
    rcases hp with rfl | ⟨_, rfl⟩ <;> norm_num

lemma skewedUsers_clash : skewedUsers.Clash "dummy" := by
  refine ⟨"user1", 1, le_refl 1, .inl (by decide), .inl ⟨507 / 512, by simp [skewedUsers], ?_⟩⟩
  decide +kernel

/-- Replica 10 of `user1` and replica 0 of `user11` share a label. -/
theorem skewedUsers_labels_not_distinct :
    "dummy" ∉ skewedUsers.items ∧ skewedUsers.probabilities.sum = 1 ∧
      ¬ (skewedUsers.createReplicas toDouble "dummy" "cipher").DistinctLabels := by
  have other : "dummy" ∉ skewedUsers.items := by decide
  refine ⟨other, by norm_num [skewedUsers, List.replicate], fun distinct => ?_⟩
  have keys := @Distribution.map_fst_realCounts toDouble _ skewedUsers.lengths
  refine (distinctLabels_create_iff (nodup_inserted ?_ ?_)).mp distinct (clash_iff.mpr skewedUsers_clash)
  · rw [keys]
    exact skewedUsers.nodup
  · rw [keys]
    exact other

lemma evenPair_quotient :
    toDouble ((1 / 2) / toDouble (1 / RealDistribution.evenPair.items.length)) = 1 := by
  decide +kernel

theorem distinctLabels_createReplicas_evenPair : "c" ∉ RealDistribution.evenPair.items ∧
    (RealDistribution.evenPair.toDistribution.createReplicas toDouble "c" "cipher").DistinctLabels := by
  have other : "c" ∉ RealDistribution.evenPair.items := by decide
  refine ⟨other, (distinctLabels_createReplicas_iff RealDistribution.evenPair.toKeyDistribution "c"
    "cipher" other).mpr ?_⟩
  rintro ⟨k, m, positive, -, ⟨p, mem, many⟩ | ⟨-, many⟩⟩
  · have half : p = 1 / 2 := by
      have := (List.of_mem_zip mem).2
      simpa [RealDistribution.evenPair] using this
    have : (1 : ℚ) ≤ m := by exact_mod_cast positive
    rw [half, evenPair_quotient] at many
    linarith
  · have none : RealDistribution.evenPair.toKeyDistribution.left = 2 := by decide +kernel
    omega

end KeyDistribution
end Shortstack
