import Shortstack.Deployment
import Shortstack.ReverseConnector

/-! The number of a worker, computed three times: by the instance from the hosts on its row, by
the other tiers when they count the workers of the tier, and by a reverse connector when it
lays the connections to all columns one after the other. -/
namespace Shortstack
open HostInfo

namespace HostInfo
variable (hosts : HostInfo) (t : HostType)

/-- `base_idx + local_idx`, the `idx_` of a worker. -/
def workerIdx (name : String) (worker : ℕ) : Option ℕ :=
  (getBaseIdx hosts name).map fun base => base + worker

/-- The numbers of workers in the order in which the constructor of `reverse_connector` visits
them. -/
def lastReplicas : List ℕ :=
  (List.range (getNumColumns hosts t false)).map fun column =>
    ((getReplicas hosts t column).getLast?.map Host.numWorkers).getD 0

end HostInfo

/-- The connections of a reverse connector; one to a worker of an instance is a socket to its
host name and to its port plus the number of the worker. -/
structure Sockets where
  clients : List (List (Option (Host × ℕ)))
  clientArr : List (Option (Host × ℕ))
  deriving DecidableEq, Repr

namespace Sockets

/-- The two loops of `recompute_client_array`. -/
def recomputeClientArray (s : Sockets) : Sockets :=
  { s with
    clientArr := s.clients.foldl
      (fun arr column => column.foldl (fun arr client => arr ++ [client]) arr) [] }

def new (hosts : HostInfo) (t : HostType) : Sockets :=
  recomputeClientArray
    ⟨(lastReplicas hosts t).map fun numWorkers => List.replicate numWorkers none, []⟩

/-- `update_connections` to an instance of a column. -/
def updateConnections (s : Sockets) (h : Host) : Sockets :=
  recomputeClientArray
    { s with
      clients := s.clients.set h.column
        ((List.range h.numWorkers).map fun worker => some (h, worker)) }

def updates (s : Sockets) (calls : List Host) : Sockets := calls.foldl updateConnections s

lemma recomputeClientArray_eq (s : Sockets) :
    s.recomputeClientArray = { s with clientArr := s.clients.flatten } := by
  have push : ∀ (column : List (Option (Host × ℕ))) arr,
      column.foldl (fun arr client => arr ++ [client]) arr = arr ++ column := by
    intro column
    induction column with
    | nil => simp
    | cons client column ih => simp [ih]
  have all : ∀ (clients : List (List (Option (Host × ℕ)))) arr,
      clients.foldl (fun arr column => column.foldl (fun arr client => arr ++ [client]) arr) arr =
        arr ++ clients.flatten := by
    intro clients
    induction clients with
    | nil => simp
    | cons column clients ih =>
      intro arr
      rw [List.foldl_cons, ih, push, List.flatten_cons, List.append_assoc]
  rw [recomputeClientArray, all, List.nil_append]

/-- The rows the connections lead to. -/
def rows (s : Sockets) : List (List (Option ℕ)) :=
  s.clients.map fun column => column.map fun client => client.map fun x => x.1.row

/-- `ReverseConnector` keeps, of every connection, the row it leads to. -/
lemma rows_updates (s : Sockets) (calls : List Host) {rc : ReverseConnector}
    (same : rc.clients = s.rows) :
    (calls.foldl (fun rc h => rc.updateConnections h.column h.row h.numWorkers) rc).clients =
      (s.updates calls).rows := by
  induction calls generalizing s rc with
  | nil => exact same
  | cons h calls ih =>
    refine ih (s.updateConnections h) ?_
    rw [updateConnections, recomputeClientArray_eq]
    change rc.clients.set h.column (List.replicate h.numWorkers (some h.row)) = _
    simp [same, rows, List.map_set, List.map_const', Function.comp_def]

end Sockets

lemma locate_of_getElem? {workers : List ℕ} {c w n : ℕ} (size : workers[c]? = some n)
    (inside : w < n) : locate workers ((workers.take c).sum + w) = some (c, w) := by
  induction workers generalizing c with
  | nil => simp at size
  | cons m workers ih =>
    unfold locate
    cases c with
    | zero =>
      obtain rfl : m = n := by simpa using size
      simp [inside]
    | succ c =>
      rw [List.take_succ_cons, List.sum_cons, if_neg (by omega)]
      have rest : m + (workers.take c).sum + w - m = (workers.take c).sum + w := by omega
      rw [rest, ih (by simpa using size)]
      rfl

lemma flatten_mapIdx_locate {α : Type} (workers : List ℕ) (f : ℕ → ℕ → α) (id : ℕ) :
    (workers.mapIdx fun c n => (List.range n).map (f c)).flatten[id]? =
      (locate workers id).map fun a => f a.1 a.2 := by
  induction workers generalizing f id with
  | nil => simp [locate]
  | cons n workers ih =>
    rw [List.mapIdx_cons, List.flatten_cons, locate]
    split
    · next inside => rw [List.getElem?_append_left (by simpa)]; simp [inside]
    · next outside =>
      rw [List.getElem?_append_right (by simpa using outside), List.length_map, List.length_range,
        ih fun c => f (c + 1)]
      simp [Function.comp_def]

namespace Grid
variable {hosts : HostInfo} {t : HostType} {rows : ℕ} {workers : List ℕ}

lemma workerIdx_eq (g : Grid hosts t rows workers) {h : Host} (mem : h ∈ hosts)
    (type : h.type = t) (worker : ℕ) :
    workerIdx hosts h.instanceName worker = some ((workers.take h.column).sum + worker) := by
  rw [workerIdx, g.getBaseIdx_eq mem type]
  rfl

theorem lastReplicas_eq (g : Grid hosts t rows workers) : lastReplicas hosts t = workers := by
  refine List.ext_getElem? fun c => ?_
  unfold lastReplicas
  rw [List.getElem?_map, g.getNumColumns_columns]
  rcases lt_or_ge c workers.length with inside | outside
  · rw [List.getElem?_range inside, Option.map_some]
    have size := g.length_getReplicas inside
    have some' : getReplicas hosts t c ≠ [] := by
      intro none
      rw [none, List.length_nil] at size
      exact absurd g.pos (by omega)
    have mem := List.getLast_mem some'
    simp only [getReplicas, List.mem_insertionSort, List.mem_filter, decide_eq_true_eq] at mem
    have count := (g.inside _ mem.1 mem.2.1).2
    rw [mem.2.2] at count
    rw [List.getLast?_eq_some_getLast some', count]
    rfl
  · rw [List.getElem?_eq_none (by simpa using outside), List.getElem?_eq_none outside]
    rfl

end Grid

namespace Sockets
variable {hosts : HostInfo} {t : HostType} {rows : ℕ} {workers : List ℕ}

/-- The instance a column was connected to last. -/
def connected (calls : List Host) (column : ℕ) : Option Host :=
  calls.reverse.find? fun h => h.column = column

lemma clients_updates (g : Grid hosts t rows workers) {calls : List Host}
    (known : ∀ h ∈ calls, h ∈ hosts ∧ h.type = t) :
    ((new hosts t).updates calls).clients = workers.mapIdx fun c n =>
      (List.range n).map fun worker => (connected calls c).map fun h => (h, worker) := by
  induction calls using List.reverseRecOn with
  | nil =>
    refine List.ext_getElem? fun c => ?_
    simp [updates, new, recomputeClientArray, g.lastReplicas_eq, connected, List.map_const']
  | append_singleton calls h ih =>
    have before := ih fun x mem => known x (List.mem_append_left _ mem)
    obtain ⟨mem, type⟩ := known h (by simp)
    have count := (g.inside h mem type).2
    have size := (List.getElem?_eq_some_iff.mp count).1
    unfold updates at before ⊢
    rw [List.foldl_append, List.foldl_cons, List.foldl_nil, updateConnections,
      recomputeClientArray_eq]
    dsimp only
    rw [before]
    refine List.ext_getElem? fun c => ?_
    rw [List.getElem?_set]
    split
    · next same =>
      subst same
      rw [List.length_mapIdx, if_pos size, List.getElem?_mapIdx, count]
      simp [connected]
    · next other => simp [connected, other]

end Sockets

/-- The workers of a grid are numbered from 0 in the same way on every row, their number is what
the other tiers count, and the array of a reverse connector has the connection to each worker
at its number, whatever instances the columns were connected to. -/
theorem worker_indices_agree {hosts : HostInfo} {t : HostType} {rows : ℕ} {workers : List ℕ}
    (g : Grid hosts t rows workers) :
    (∀ h ∈ hosts, h.type = t → ∀ h' ∈ hosts, h'.type = t → h.column = h'.column → ∀ worker,
      workerIdx hosts h.instanceName worker = workerIdx hosts h'.instanceName worker) ∧
    (∀ row < rows, Set.BijOn (fun x : Host × ℕ => workerIdx hosts x.1.instanceName x.2)
      {x | x.1 ∈ hosts ∧ x.1.type = t ∧ x.1.row = row ∧ x.2 < x.1.numWorkers}
      {i | ∃ k < getNumColumns hosts t true, i = some k}) ∧
    ∀ calls : List Host, (∀ h ∈ calls, h ∈ hosts ∧ h.type = t) →
      ∀ h ∈ hosts, h.type = t → ∀ worker < h.numWorkers,
        ∃ i, workerIdx hosts h.instanceName worker = some i ∧
          ((Sockets.new hosts t).updates calls).clientArr[i]? =
            some ((Sockets.connected calls h.column).map fun target => (target, worker)) ∧
          seenAt (List.replicate (getNumColumns hosts t true) (-1)) i = some (-1) := by
  have below : ∀ h ∈ hosts, h.type = t → ∀ worker < h.numWorkers,
      (workers.take h.column).sum + worker < workers.sum := by
    intro h mem type worker inside
    have count := (g.inside h mem type).2
    obtain ⟨size, is⟩ := List.getElem?_eq_some_iff.mp count
    have split := List.sum_take_add_sum_drop workers h.column
    rw [List.drop_eq_getElem_cons size, List.sum_cons, is] at split
    omega
  refine ⟨fun h mem type h' mem' type' column worker => ?_, fun row hr => ⟨?_, ?_, ?_⟩,
    fun calls known h mem type worker inside => ?_⟩
  · rw [g.workerIdx_eq mem type, g.workerIdx_eq mem' type', column]
  · rintro ⟨h, worker⟩ ⟨mem, type, -, inside⟩
    refine ⟨_, ?_, g.workerIdx_eq mem type worker⟩
    rw [g.getNumColumns_workers]
    exact below h mem type worker inside
  · rintro ⟨h, worker⟩ ⟨mem, type, inRow, inside⟩ ⟨h', worker'⟩ ⟨mem', type', inRow', inside'⟩ same
    dsimp only at *
    rw [g.workerIdx_eq mem type, g.workerIdx_eq mem' type', Option.some.injEq] at same
    have place := locate_of_getElem? (g.inside h mem type).2 inside
    have place' := locate_of_getElem? (g.inside h' mem' type').2 inside'
    rw [same, place', Option.some.injEq, Prod.mk.injEq] at place
    obtain ⟨column, rfl⟩ := place
    obtain ⟨x, only⟩ := g.cell row hr h.column
      (List.getElem?_eq_some_iff.mp (g.inside h mem type).2).1
    have one : h ∈ [x] := by
      rw [← only]
      simp [mem, type, inRow]
    have two : h' ∈ [x] := by
      rw [← only]
      simp [mem', type', inRow', column]
    rw [List.mem_singleton] at one two
    rw [one, two]
  · rintro _ ⟨k, small, rfl⟩
    rw [g.getNumColumns_workers] at small
    obtain ⟨⟨c, worker⟩, found⟩ := Option.isSome_iff_exists.mp (locate_isSome small)
    obtain ⟨sum, n, size, inside⟩ := locate_eq_some found
    obtain ⟨h, mem, type, inRow, rfl, -⟩ := g.mem_cell hr (List.getElem?_eq_some_iff.mp size).1
    have count := (g.inside h mem type).2
    rw [size, Option.some.injEq] at count
    refine ⟨(h, worker), ⟨mem, type, inRow, count ▸ inside⟩, ?_⟩
    dsimp only
    rw [g.workerIdx_eq mem type, sum]
  · have small := below h mem type worker inside
    refine ⟨_, g.workerIdx_eq mem type worker, ?_, ?_⟩
    · have arr : ((Sockets.new hosts t).updates calls).clientArr =
          ((Sockets.new hosts t).updates calls).clients.flatten := by
        rcases List.eq_nil_or_concat calls with rfl | ⟨calls, last, rfl⟩
        · simp [Sockets.updates, Sockets.new, Sockets.recomputeClientArray_eq]
        · simp [Sockets.updates, Sockets.updateConnections, Sockets.recomputeClientArray_eq]
      rw [arr, Sockets.clients_updates g known, flatten_mapIdx_locate,
        locate_of_getElem? (g.inside h mem type).2 inside]
      rfl
    · rw [g.getNumColumns_workers, seenAt, if_neg (by omega), Int.toNat_natCast]
      exact List.getElem?_replicate_of_lt small

/-- The instances of the second of two columns. -/
def oneWorker (row : ℕ) : Host := ⟨"c" ++ toString row, .l1, "host2", 9000, row, 1, 1⟩

/-- Two columns of two rows, with three workers and one, in no order. -/
def mixedHosts : HostInfo :=
  [oneWorker 1, ⟨"a", .l1, "host0", 9000, 0, 0, 3⟩, oneWorker 0, ⟨"b", .l1, "host1", 9000, 1, 0, 3⟩]

/-- The second column is connected to its first row, then to its second one. -/
theorem worker_indices_agree_mixed :
    ∃ i, workerIdx mixedHosts "c1" 0 = some i ∧
      ((Sockets.new mixedHosts .l1).updates [oneWorker 0, oneWorker 1]).clientArr[i]? =
        some (some (oneWorker 1, 0)) ∧
      seenAt (List.replicate 4 (-1)) i = some (-1) := by
  have g : @Grid mixedHosts .l1 2 [3, 1] :=
    Grid.of_counts (by decide) (by decide) (by decide) (by decide)
  obtain ⟨-, -, reached⟩ := worker_indices_agree g
  obtain ⟨i, index, connected, slot⟩ := reached [oneWorker 0, oneWorker 1] (by decide)
    (oneWorker 1) (by decide) rfl 0 (by decide)
  have total : getNumColumns mixedHosts .l1 true = 4 := by decide
  exact ⟨i, index, connected, total ▸ slot⟩

end Shortstack
