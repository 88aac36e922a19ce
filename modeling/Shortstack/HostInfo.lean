import Mathlib

/-! The hosts file. Instances of a tier stand in rows (replicas of a chain) and columns
(shards of the tier); the workers of a tier are numbered column by column, and each
instance computes the numbers of its own workers from the instances of its row. -/
namespace Shortstack

inductive HostType
  | l1
  | l2
  | l3
  | kv
  deriving DecidableEq, Repr

structure Host where
  instanceName : String
  type : HostType
  hostname : String
  port : ℕ
  row : ℕ
  column : ℕ
  numWorkers : ℕ
  deriving DecidableEq, Repr

abbrev HostInfo := List Host

namespace HostInfo
variable (hosts : HostInfo) (t : HostType)

def getHost (name : String) : Option Host := hosts.find? fun h => h.instanceName = name

def getHostsByType : List Host := hosts.filter fun h => h.type = t

def getReplicas (column : ℕ) : List Host :=
  (hosts.filter fun h => h.type = t ∧ h.column = column).insertionSort fun a b => a.row ≤ b.row

/-- The map from columns to their number of workers, later hosts replacing earlier ones. -/
def columns : AList (fun _ : ℕ => ℕ) :=
  (getHostsByType hosts t).foldl (fun cols h => cols.insert h.column h.numWorkers) ∅

def getNumColumns (countWorkers : Bool) : ℕ :=
  ((columns hosts t).entries.map fun e => if countWorkers then e.2 else 1).sum

def getBaseIdx (name : String) : Option ℕ :=
  (getHost hosts name).map fun h =>
    (((getHostsByType hosts h.type).filter fun peer =>
      peer.row = h.row ∧ peer.column < h.column).map Host.numWorkers).sum

/-- The numbers of workers of the first replicas, in the order `connect` visits them. -/
def firstReplicas : List ℕ :=
  (List.range (getNumColumns hosts t false)).map fun column =>
    ((getReplicas hosts t column).head?.map Host.numWorkers).getD 0

end HostInfo

/-- The instances of a tier fill a grid, one per cell, with equal numbers of workers in
each column. -/
structure Grid (hosts : HostInfo) (t : HostType) (rows : ℕ) (workers : List ℕ) : Prop where
  names : (hosts.map Host.instanceName).Nodup
  pos : 0 < rows
  inside : ∀ h ∈ hosts, h.type = t → h.row < rows ∧ workers[h.column]? = some h.numWorkers
  cell : ∀ r < rows, ∀ c < workers.length,
    ∃ h, hosts.filter (fun h => h.type = t ∧ h.row = r ∧ h.column = c) = [h]

namespace Grid
open HostInfo
variable {hosts : HostInfo} {t : HostType} {rows : ℕ} {workers : List ℕ}

lemma mem_cell (g : Grid hosts t rows workers) {r c : ℕ} (hr : r < rows) (hc : c < workers.length) :
    ∃ h ∈ hosts, h.type = t ∧ h.row = r ∧ h.column = c ∧
      hosts.filter (fun h => h.type = t ∧ h.row = r ∧ h.column = c) = [h] := by
  obtain ⟨h, only⟩ := g.cell r hr c hc
  have mem : h ∈ hosts.filter fun h => h.type = t ∧ h.row = r ∧ h.column = c := by
    rw [only]
    exact List.mem_singleton_self h
  simp only [List.mem_filter, decide_eq_true_eq] at mem
  exact ⟨h, mem.1, mem.2.1, mem.2.2.1, mem.2.2.2, only⟩

lemma getHost_eq (g : Grid hosts t rows workers) {h : Host} (mem : h ∈ hosts) :
    getHost hosts h.instanceName = some h := by
  obtain ⟨k, hk, rfl⟩ := List.mem_iff_getElem.mp mem
  unfold getHost
  rw [List.find?_eq_some_iff_getElem]
  refine ⟨by simp, k, hk, rfl, fun j hj => ?_⟩
  have := List.nodup_iff_injective_getElem.mp g.names
  simp only [Bool.not_eq_eq_eq_not, Bool.not_true, decide_eq_false_iff_not]
  intro same
  have eq : (⟨j, by simp; omega⟩ : Fin (hosts.map Host.instanceName).length) =
      ⟨k, by simpa using hk⟩ := this (by simpa using same)
  simp at eq
  omega

lemma sum_filter_or {α : Type} (f : α → ℕ) (l : List α) {p q r : α → Bool}
    (either : ∀ x, p x = (q x || r x)) (disjoint : ∀ x, q x = true → r x = false) :
    ((l.filter p).map f).sum = ((l.filter q).map f).sum + ((l.filter r).map f).sum := by
  induction l with
  | nil => rfl
  | cons x l ih =>
    have either := either x
    have disjoint := disjoint x
    cases hq : q x <;> cases hr : r x <;> simp_all <;> omega

lemma sum_row (g : Grid hosts t rows workers) {r : ℕ} (hr : r < rows) {c : ℕ}
    (hc : c ≤ workers.length) :
    ((hosts.filter fun h => h.type = t ∧ h.row = r ∧ h.column < c).map Host.numWorkers).sum =
      (workers.take c).sum := by
  induction c with
  | zero => simp
  | succ c ih =>
    obtain ⟨h, mem, type, _, rfl, only⟩ := g.mem_cell hr hc
    have count := (g.inside h mem type).2
    rw [sum_filter_or (q := fun x => x.type = t ∧ x.row = r ∧ x.column < h.column)
      (r := fun x => x.type = t ∧ x.row = r ∧ x.column = h.column) Host.numWorkers hosts
      ?either ?disjoint, ih (by omega), only, List.take_add_one, count]
    · simp
    · intro x
      simp only [← Bool.decide_or, Nat.lt_succ_iff_lt_or_eq]
      congr 1
      grind
    · intro x
      simp only [decide_eq_true_eq, decide_eq_false_iff_not]
      omega

theorem getBaseIdx_eq (g : Grid hosts t rows workers) {h : Host} (mem : h ∈ hosts)
    (type : h.type = t) :
    getBaseIdx hosts h.instanceName = some (workers.take h.column).sum := by
  obtain ⟨inRow, inColumn⟩ := g.inside h mem type
  have size := (List.getElem?_eq_some_iff.mp inColumn).1
  simp only [getBaseIdx, g.getHost_eq mem, Option.map_some, Option.some.injEq, getHostsByType,
    List.filter_filter, type]
  rw [← g.sum_row inRow size.le]
  congr 2
  refine List.filter_congr fun x _ => ?_
  simp only [← Bool.decide_and]
  congr 1
  grind

lemma lookup_foldl_columns (hs : List Host) (cols : AList fun _ : ℕ => ℕ) (c n : ℕ)
    (found : (hs.foldl (fun cols h => cols.insert h.column h.numWorkers) cols).lookup c = some n) :
    (∃ h ∈ hs, h.column = c ∧ h.numWorkers = n) ∨ cols.lookup c = some n := by
  induction hs generalizing cols with
  | nil => exact .inr found
  | cons h hs ih =>
    rw [List.foldl_cons] at found
    rcases ih _ found with ⟨x, hx, rest⟩ | first
    · exact .inl ⟨x, List.mem_cons_of_mem _ hx, rest⟩
    · rcases eq_or_ne c h.column with rfl | other
      · rw [AList.lookup_insert, Option.some.injEq] at first
        exact .inl ⟨h, List.mem_cons_self, rfl, first⟩
      · rw [AList.lookup_insert_ne other] at first
        exact .inr first

lemma mem_foldl_columns (hs : List Host) (cols : AList fun _ : ℕ => ℕ) {c : ℕ}
    (mem : c ∈ cols ∨ ∃ h ∈ hs, h.column = c) :
    c ∈ hs.foldl (fun cols h => cols.insert h.column h.numWorkers) cols := by
  induction hs generalizing cols with
  | nil => simpa using mem
  | cons h hs ih =>
    rw [List.foldl_cons]
    refine ih _ ?_
    rcases mem with old | ⟨x, hx, rfl⟩
    · exact .inl (AList.mem_insert _ |>.mpr (.inr old))
    · rcases List.mem_cons.mp hx with rfl | later
      · exact .inl (AList.mem_insert _ |>.mpr (.inl rfl))
      · exact .inr ⟨x, later, rfl⟩

lemma lookup_columns (g : Grid hosts t rows workers) (c : ℕ) :
    (columns hosts t).lookup c = workers[c]? := by
  have known : ∀ n, (columns hosts t).lookup c = some n → workers[c]? = some n := by
    intro n found
    rcases lookup_foldl_columns _ _ _ _ found with ⟨h, hh, rfl, rfl⟩ | none
    · simp only [getHostsByType, List.mem_filter, decide_eq_true_eq] at hh
      exact (g.inside h hh.1 hh.2).2
    · simp at none
  rcases lt_or_ge c workers.length with inside | outside
  · obtain ⟨h, mem, type, _, column, _⟩ := g.mem_cell g.pos inside
    have key : c ∈ columns hosts t :=
      mem_foldl_columns _ _ (.inr ⟨h, by simp [getHostsByType, mem, type], column⟩)
    obtain ⟨n, found⟩ := Option.isSome_iff_exists.mp (AList.lookup_isSome.mpr key)
    rw [found, known n found]
  · cases found : (columns hosts t).lookup c with
    | none => rw [List.getElem?_eq_none outside]
    | some n => rw [known n found]

lemma columns_perm (g : Grid hosts t rows workers) :
    (columns hosts t).entries.Perm
      (workers.zipIdx.map fun e => (⟨e.2, e.1⟩ : (_ : ℕ) × ℕ)) := by
  refine (List.perm_ext_iff_of_nodup ?_ ?_).mpr fun e => ?_
  · exact List.NodupKeys.nodup (columns hosts t).nodupKeys
  · refine List.Nodup.map (fun a b eq => ?_) ?_
    · simp only [Sigma.mk.injEq, heq_eq_eq] at eq
      exact Prod.ext eq.2 eq.1
    · exact List.Nodup.of_map Prod.snd (by rw [List.zipIdx_map_snd]; exact List.nodup_range')
  · rw [← AList.mem_lookup_iff, Option.mem_def, g.lookup_columns]
    simp only [List.mem_map, Prod.exists, List.mem_zipIdx_iff_getElem?]
    constructor
    · exact fun found => ⟨_, _, found, rfl⟩
    · rintro ⟨n, c, found, rfl⟩
      exact found

theorem getNumColumns_workers (g : Grid hosts t rows workers) :
    getNumColumns hosts t true = workers.sum := by
  unfold getNumColumns
  rw [(g.columns_perm.map _).sum_eq, List.map_map]
  congr 1
  exact List.zipIdx_map_fst 0 workers

theorem getNumColumns_columns (g : Grid hosts t rows workers) :
    getNumColumns hosts t false = workers.length := by
  unfold getNumColumns
  rw [(g.columns_perm.map _).sum_eq, List.map_map]
  simp [Function.comp_def]

/-- The replicas of a column stand in the order of their rows. -/
theorem getReplicas_rows (g : Grid hosts t rows workers) {c : ℕ} (hc : c < workers.length) :
    (getReplicas hosts t c).map Host.row = List.range rows := by
  let column := hosts.filter fun h => h.type = t ∧ h.column = c
  have count : ∀ r, (column.map Host.row).count r = if r < rows then 1 else 0 := by
    intro r
    have only : column.filter (fun h => h.row = r) =
        hosts.filter fun h => h.type = t ∧ h.row = r ∧ h.column = c := by
      simp only [column, List.filter_filter, ← Bool.decide_and]
      refine List.filter_congr fun x _ => ?_
      congr 1
      grind
    have size : (column.map Host.row).count r = (column.filter fun h => h.row = r).length := by
      rw [List.count_eq_countP, List.countP_map, List.countP_eq_length_filter]
      rfl
    rw [size, only]
    split
    · next inside =>
      obtain ⟨h, _, _, _, _, only⟩ := g.mem_cell inside hc
      rw [only, List.length_singleton]
    · next outside =>
      rw [List.length_eq_zero_iff, List.filter_eq_nil_iff]
      intro h mem
      simp only [decide_eq_true_eq]
      rintro ⟨type, rfl, _⟩
      exact outside (g.inside h mem type).1
  have perm : ((getReplicas hosts t c).map Host.row).Perm (List.range rows) := by
    refine ((List.perm_insertionSort _ column).map _).trans (List.perm_iff_count.mpr fun r => ?_)
    rw [count, List.count_range]
  have sorted : ((getReplicas hosts t c).map Host.row).Pairwise (· ≤ ·) :=
    List.pairwise_map.mpr (List.pairwise_insertionSort (fun a b : Host => a.row ≤ b.row) column)
  exact perm.eq_of_pairwise (fun a b _ _ hab hba => le_antisymm hab hba) sorted
    (List.pairwise_le_range)

theorem firstReplicas_eq (g : Grid hosts t rows workers) : firstReplicas hosts t = workers := by
  refine List.ext_getElem? fun c => ?_
  unfold firstReplicas
  rw [List.getElem?_map, g.getNumColumns_columns]
  rcases lt_or_ge c workers.length with inside | outside
  · rw [List.getElem?_range inside, Option.map_some]
    have order := g.getReplicas_rows inside
    cases replicas : getReplicas hosts t c with
    | nil =>
      rw [replicas, List.map_nil] at order
      have := congrArg List.length order
      rw [List.length_range, List.length_nil] at this
      exact absurd g.pos (by omega)
    | cons h rest =>
      have mem : h ∈ getReplicas hosts t c := by simp [replicas]
      simp only [getReplicas, List.mem_insertionSort, List.mem_filter, decide_eq_true_eq] at mem
      simpa [mem.2.2] using (g.inside h mem.1 mem.2.1).2.symm
  · rw [List.getElem?_eq_none (by simpa using outside), List.getElem?_eq_none outside]
    rfl

end Grid
end Shortstack
