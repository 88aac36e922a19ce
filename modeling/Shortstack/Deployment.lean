import Shortstack.HostInfo
import Shortstack.Ingest

/-! The configuration every instance computes from the hosts file at start-up. -/
namespace Shortstack
open HostInfo

/-- The files and options all instances are started with. -/
structure Deployment where
  hosts : HostInfo
  dummyKey : String
  keyToNumberOfReplicas : AList (fun _ : String => ℤ)
  counts : IntCounts keyToNumberOfReplicas
  replicaToLabel : AList (fun _ : String => ℕ)
  securityBatchSize : ℤ
  disableAllFalse : Bool
  updateCacheEnabled : Bool
  l1AckBatchSize : ℤ
  l2AckBatchSize : ℤ
  l3AckBatchSize : ℤ

namespace Deployment
variable (d : Deployment)

def hostAt (t : HostType) (row column : ℕ) : Option Host :=
  d.hosts.find? fun h => h.type = t ∧ h.row = row ∧ h.column = column

/-- `idx_` of a worker: the base index of its instance and its own number there. -/
def workerIdx (t : HostType) (row column worker : ℕ) : Option ℤ :=
  (d.hostAt t row column).bind fun h => (getBaseIdx d.hosts h.instanceName).map
    fun base : ℕ => ((base + worker : ℕ) : ℤ)

def rows (t : HostType) : ℕ := (getReplicas d.hosts t 0).length

def l1Config : L1Config where
  dummyKey := d.dummyKey
  keyToNumberOfReplicas := d.keyToNumberOfReplicas
  counts := d.counts
  securityBatchSize := d.securityBatchSize
  disableAllFalse := d.disableAllFalse
  ackBatchSize := d.l1AckBatchSize
  l2Workers := firstReplicas d.hosts .l2

/-- The index of an L2 worker is the same on all rows of its column. -/
def l2Config (column worker : ℕ) : L2Config where
  idx := (d.workerIdx .l2 0 column worker).getD 0
  dummyKey := d.dummyKey
  replicaToLabel := d.replicaToLabel
  keyToNumberOfReplicas := d.keyToNumberOfReplicas
  updateCacheEnabled := d.updateCacheEnabled
  ackBatchSize := d.l2AckBatchSize
  l1Workers := firstReplicas d.hosts .l1
  l3Workers := firstReplicas d.hosts .l3

/-- The L1 and L2 tiers; L1 workers are named by their number in the tier. -/
def ingest : IngestConfig where
  l1 := d.l1Config
  l1Rows := d.rows .l1
  l1Workers := firstReplicas d.hosts .l1
  l1Idx k row := ((locate (firstReplicas d.hosts .l1) k).bind fun a =>
    d.workerIdx .l1 row a.1 a.2).getD 0
  l2 := d.l2Config
  l2Rows := d.rows .l2

end Deployment

/-- A deployment whose tiers are grids. -/
structure GridDeployment extends Deployment where
  l1Rows : ℕ
  l2Rows : ℕ
  l3Rows : ℕ
  l1Workers : List ℕ
  l2Workers : List ℕ
  l3Workers : List ℕ
  l1Grid : Grid hosts .l1 l1Rows l1Workers
  l2Grid : Grid hosts .l2 l2Rows l2Workers
  l3Grid : Grid hosts .l3 l3Rows l3Workers

lemma locate_eq_some {workers : List ℕ} {k c w : ℕ} (h : locate workers k = some (c, w)) :
    (workers.take c).sum + w = k ∧ ∃ n, workers[c]? = some n ∧ w < n := by
  induction workers generalizing k c with
  | nil => simp [locate] at h
  | cons n workers ih =>
    unfold locate at h
    split at h
    · next inside =>
      obtain ⟨rfl, rfl⟩ := Prod.mk.inj (Option.some.inj h)
      exact ⟨by simp, n, by simp, inside⟩
    · next outside =>
      obtain ⟨⟨c', w'⟩, found, eq⟩ := Option.map_eq_some_iff.mp h
      obtain ⟨rfl, rfl⟩ := Prod.mk.inj eq
      obtain ⟨sum, m, size, less⟩ := ih found
      refine ⟨?_, m, by simpa using size, less⟩
      dsimp only
      rw [List.take_succ_cons, List.sum_cons]
      omega

lemma locate_isSome {workers : List ℕ} {k : ℕ} (h : k < workers.sum) :
    (locate workers k).isSome = true := by
  induction workers generalizing k with
  | nil => simp at h
  | cons n workers ih =>
    unfold locate
    split
    · rfl
    · next outside =>
      rw [List.sum_cons] at h
      rw [Option.isSome_map]
      exact ih (by omega)

namespace Grid
variable {hosts : HostInfo} {t : HostType} {rows : ℕ} {workers : List ℕ}

lemma of_counts (names : (hosts.map Host.instanceName).Nodup) (pos : 0 < rows)
    (inside : ∀ h ∈ hosts, h.type = t → h.row < rows ∧ workers[h.column]? = some h.numWorkers)
    (one : ∀ r < rows, ∀ c < workers.length,
      (hosts.filter fun h => h.type = t ∧ h.row = r ∧ h.column = c).length = 1) :
    Grid hosts t rows workers :=
  ⟨names, pos, inside, fun r hr c hc => List.length_eq_one_iff.mp (one r hr c hc)⟩

lemma length_getReplicas (g : Grid hosts t rows workers) {c : ℕ} (hc : c < workers.length) :
    (getReplicas hosts t c).length = rows := by
  have order := congrArg List.length (g.getReplicas_rows hc)
  simpa using order

end Grid

namespace GridDeployment
variable (d : GridDeployment)

lemma workerIdx_eq {t : HostType} {rows : ℕ} {workers : List ℕ} (g : Grid d.hosts t rows workers)
    {row column : ℕ} (hr : row < rows) (hc : column < workers.length) (worker : ℕ) :
    d.workerIdx t row column worker = some (((workers.take column).sum + worker : ℕ) : ℤ) := by
  obtain ⟨h, mem, type, inRow, inColumn, only⟩ := g.mem_cell hr hc
  have found : d.hostAt t row column = some h := by
    unfold Deployment.hostAt
    rw [← List.head?_filter, only]
    rfl
  unfold Deployment.workerIdx
  rw [found, Option.bind_some, g.getBaseIdx_eq mem type, Option.map_some, inColumn]

theorem l1Idx_eq {k row : ℕ} (hk : k < d.l1Workers.sum) (hr : row < d.l1Rows) :
    d.ingest.l1Idx k row = k := by
  obtain ⟨⟨c, w⟩, found⟩ := Option.isSome_iff_exists.mp (locate_isSome hk)
  obtain ⟨sum, n, size, _⟩ := locate_eq_some found
  have hc := (List.getElem?_eq_some_iff.mp size).1
  simp only [Deployment.ingest, d.l1Grid.firstReplicas_eq, found, Option.bind_some,
    d.workerIdx_eq d.l1Grid hr hc, Option.getD_some, sum]

@[simp] lemma ingest_l1Workers : d.ingest.l1Workers = d.l1Workers := d.l1Grid.firstReplicas_eq

@[simp] lemma ingest_l2Workers : d.ingest.l1.l2Workers = d.l2Workers := d.l2Grid.firstReplicas_eq

lemma ingest_l1Rows (some' : d.l1Workers ≠ []) : d.ingest.l1Rows = d.l1Rows :=
  d.l1Grid.length_getReplicas (List.length_pos_iff.mpr some')

lemma ingest_l2Rows (some' : d.l2Workers ≠ []) : d.ingest.l2Rows = d.l2Rows :=
  d.l2Grid.length_getReplicas (List.length_pos_iff.mpr some')

end GridDeployment
end Shortstack
