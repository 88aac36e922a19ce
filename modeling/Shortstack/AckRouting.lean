import Shortstack.ChainRepair

/-! Acknowledgement connections across a failure. They are opened once, from every L3
instance of the first row to the L2 tails and from the L2 heads to the L1 tails, and no
repair opens them again, so they survive exactly the failures that change neither the end
they lead to nor the one they start from. -/
namespace Shortstack
open HostInfo ProxyManager

namespace ReverseConnector

/-- Open the connections to one column after the other. -/
def connectAll (rc : ReverseConnector) (targets : List Host) : ReverseConnector :=
  (targets.zipIdx).foldl (fun rc e => rc.updateConnections e.2 e.1.row e.1.numWorkers) rc

lemma clients_updateConnections (rc : ReverseConnector) (column row numWorkers : ℕ) :
    (rc.updateConnections column row numWorkers).clients =
      rc.clients.set column (List.replicate numWorkers (some row)) := rfl

lemma clients_connectAll (rc : ReverseConnector) (targets : List Host)
    (size : rc.clients.length = targets.length) :
    (rc.connectAll targets).clients =
      targets.map fun t => List.replicate t.numWorkers (some t.row) := by
  have from_k : ∀ (targets : List Host) (k : ℕ) (rc : ReverseConnector),
      rc.clients.length = k + targets.length →
      ((targets.zipIdx k).foldl
        (fun rc e => rc.updateConnections e.2 e.1.row e.1.numWorkers) rc).clients =
      rc.clients.take k ++ targets.map fun t => List.replicate t.numWorkers (some t.row) := by
    intro targets
    induction targets with
    | nil =>
      intro k rc size
      rw [List.length_nil, Nat.add_zero] at size
      simp [← size]
    | cons t targets ih =>
      intro k rc size
      rw [List.length_cons] at size
      rw [List.zipIdx_cons, List.foldl_cons, ih]
      · have last : (rc.clients.take k).length = k := by
          rw [List.length_take]
          omega
        rw [clients_updateConnections, List.take_set,
          List.take_succ_eq_append_getElem (by omega)]
        dsimp only
        rw [List.set_append_right _ _ last.le]
        simp [last]
      · rw [clients_updateConnections, List.length_set]
        omega
  have whole := from_k targets 0 rc (by omega)
  simpa [connectAll] using whole

end ReverseConnector

namespace Grid
variable {hosts : HostInfo} {t : HostType} {rows c i : ℕ} {workers : List ℕ}

lemma column (g : Grid hosts t rows workers) (hc : c < workers.length) :
    ChainColumn hosts t c rows := ⟨g.names, g.getReplicas_rows hc⟩

lemma numWorkers_replicaAt (g : Grid hosts t rows workers) (hc : c < workers.length)
    (hi : i < rows) : workers[c]? = some (replicaAt hosts t c i).numWorkers := by
  obtain ⟨mem, type, column⟩ := (g.column hc).mem_hosts hi
  have inside := (g.inside _ mem type).2
  rwa [column] at inside

lemma eq_replicaAt (g : Grid hosts t rows workers) {h : Host} (mem : h ∈ hosts)
    (type : h.type = t) : h.column < workers.length ∧ h.row < rows ∧
      h = replicaAt hosts t h.column h.row := by
  obtain ⟨row, column⟩ := g.inside h mem type
  have hc := (List.getElem?_eq_some_iff.mp column).1
  obtain ⟨mem', type', column'⟩ := (g.column hc).mem_hosts row
  obtain ⟨x, _, _, _, _, only⟩ := g.mem_cell row hc
  have one : h ∈ hosts.filter fun x => x.type = t ∧ x.row = h.row ∧ x.column = h.column := by
    simp [mem, type]
  have two : replicaAt hosts t h.column h.row ∈
      hosts.filter fun x => x.type = t ∧ x.row = h.row ∧ x.column = h.column := by
    simp [mem', type', column', (g.column hc).row row]
  rw [only, List.mem_singleton] at one two
  exact ⟨hc, row, one.trans two.symm⟩

lemma hostAt_eq {d : Deployment} (g : Grid d.hosts t rows workers) (hc : c < workers.length)
    (hi : i < rows) : d.hostAt t i c = some (replicaAt d.hosts t c i) := by
  obtain ⟨h, mem, type, row, column, only⟩ := g.mem_cell hi hc
  have same := (g.eq_replicaAt mem type).2.2
  rw [row, column] at same
  rw [Deployment.hostAt, ← List.head?_filter, only, same]
  rfl

lemma tails_eq (g : Grid hosts t rows workers) :
    tails hosts t = (List.range workers.length).map fun c => replicaAt hosts t c (rows - 1) := by
  have pos := g.pos
  rw [tails, g.getNumColumns_columns, ← List.filterMap_eq_map]
  refine List.filterMap_congr fun c hc => ?_
  have col := g.column (List.mem_range.mp hc)
  rw [List.getLast?_eq_getElem?, col.length, col.getElem? (by omega)]
  rfl

lemma heads_eq (g : Grid hosts t rows workers) :
    heads hosts t = (List.range workers.length).map fun c => replicaAt hosts t c 0 := by
  rw [heads, g.getNumColumns_columns, ← List.filterMap_eq_map]
  refine List.filterMap_congr fun c hc => ?_
  have col := g.column (List.mem_range.mp hc)
  rw [List.head?_eq_getElem?, col.getElem? g.pos]
  rfl

lemma mem_heads (g : Grid hosts t rows workers) {h : Host} (mem : h ∈ hosts) (type : h.type = t) :
    h ∈ heads hosts t ↔ h.row = 0 := by
  obtain ⟨hc, row, eq⟩ := g.eq_replicaAt mem type
  rw [g.heads_eq, List.mem_map]
  constructor
  · rintro ⟨c, hc', rfl⟩
    exact (g.column (List.mem_range.mp hc')).row g.pos
  · intro first
    exact ⟨h.column, List.mem_range.mpr hc, by rw [← first, ← eq]⟩

lemma heads_nodup (g : Grid hosts t rows workers) : (heads hosts t).Nodup := by
  rw [g.heads_eq]
  refine List.Nodup.map_on (fun a ha b hb same => ?_) List.nodup_range
  have column := congrArg Host.column same
  rwa [((g.column (List.mem_range.mp ha)).mem_hosts g.pos).2.2,
    ((g.column (List.mem_range.mp hb)).mem_hosts g.pos).2.2] at column

lemma clients_tails (g : Grid hosts t rows workers) :
    ((tails hosts t).map fun x => List.replicate x.numWorkers (some x.row)) =
      workers.map fun n => List.replicate n (some (rows - 1)) := by
  have pos := g.pos
  rw [g.tails_eq, List.map_map]
  refine List.ext_getElem (by simp) fun c hc hc' => ?_
  have inside : c < workers.length := by simpa using hc'
  have count := g.numWorkers_replicaAt inside (show rows - 1 < rows by omega)
  rw [List.getElem?_eq_getElem inside, Option.some.injEq] at count
  simp [(g.column inside).row (show rows - 1 < rows by omega), count]

end Grid

namespace Cluster
variable {d : Deployment} {s : Cluster}

/-- What the calls to one instance make of its acknowledgement connections. -/
def connect (rc : ReverseConnector) : ManagerCall → ReverseConnector
  | .updateConnections _ _ column (some target) =>
    rc.updateConnections column target.row target.numWorkers
  | _ => rc

def ackCalls (sources : List Host) (type : HostType) (targets : List Host) : List ManagerCall :=
  sources.flatMap fun h => targets.mapIdx fun j t => .updateConnections h type j (some t)

lemma setupReverseConnections_eq (hosts : HostInfo) :
    setupReverseConnections hosts = ackCalls (heads hosts .l3) .l2 (tails hosts .l2) ++
      ackCalls (heads hosts .l2) .l1 (tails hosts .l1) := rfl

lemma mem_ackCalls {sources targets : List Host} {type : HostType} {x : ManagerCall}
    (hx : x ∈ ackCalls sources type targets) :
    ∃ h ∈ sources, ∃ j, ∃ t ∈ targets, x = .updateConnections h type j (some t) := by
  simp only [ackCalls, List.mem_flatMap, List.mem_mapIdx] at hx
  obtain ⟨h, hh, j, hj, rfl⟩ := hx
  exact ⟨h, hh, j, _, List.getElem_mem hj, rfl⟩

lemma filter_ackCalls {sources : List Host} (distinct : sources.Nodup) (type : HostType)
    (targets : List Host) (h : Host) :
    (ackCalls sources type targets).filter (fun x => x.host = h) =
      if h ∈ sources then targets.mapIdx fun j t => .updateConnections h type j (some t)
      else [] := by
  induction sources with
  | nil => rfl
  | cons a sources ih =>
    obtain ⟨fresh, distinct⟩ := List.nodup_cons.mp distinct
    have split : ackCalls (a :: sources) type targets =
        (targets.mapIdx fun j t => .updateConnections a type j (some t)) ++
          ackCalls sources type targets := rfl
    rw [split, List.filter_append, ih distinct]
    rcases eq_or_ne h a with rfl | other
    · have all : (targets.mapIdx fun j t => ManagerCall.updateConnections h type j (some t)).filter
          (fun x => x.host = h) = targets.mapIdx fun j t => .updateConnections h type j (some t) := by
        refine List.filter_eq_self.mpr fun x hx => ?_
        obtain ⟨j, hj, rfl⟩ := List.mem_mapIdx.mp hx
        simp [ManagerCall.host]
      rw [all, if_neg fresh, if_pos List.mem_cons_self, List.append_nil]
    · have none : (targets.mapIdx fun j t => ManagerCall.updateConnections a type j (some t)).filter
          (fun x => x.host = h) = [] := by
        refine List.filter_eq_nil_iff.mpr fun x hx => ?_
        obtain ⟨j, hj, rfl⟩ := List.mem_mapIdx.mp hx
        exact fun same => other.symm (of_decide_eq_true same)
      rw [none, List.nil_append]
      simp [other]

lemma foldl_connect (targets : List Host) (h : Host) (type : HostType) (rc : ReverseConnector) :
    (targets.mapIdx fun j t => ManagerCall.updateConnections h type j (some t)).foldl connect rc =
      rc.connectAll targets := by
  rw [List.mapIdx_eq_zipIdx_map, List.foldl_map]
  rfl

lemma filter_host_cons_ne {x : ManagerCall} {calls : List ManagerCall} {h : Host}
    (other : x.host ≠ h) : (x :: calls).filter (fun x => x.host = h) =
      calls.filter fun x => x.host = h :=
  List.filter_cons_of_neg (by simpa using other)

lemma passed_eq {α : Type} {f : Host → ℕ → α} {h : Host} {ok : α → Bool}
    (good : ∀ w < h.numWorkers, ok (f h w) = true) : passed f h ok = h.numWorkers := by
  have all : (List.range h.numWorkers).takeWhile (fun w => ok (f h w)) = List.range h.numWorkers :=
    List.takeWhile_eq_self_iff.mpr fun w hw => good w (List.mem_range.mp hw)
  rw [passed, all, List.length_range]

lemma execute_acks_l3 (calls : List ManagerCall) (up : ∀ h, s.alive h = true)
    (shape : ∀ x ∈ calls, ∃ h j t, h.type = .l3 ∧ x = .updateConnections h .l2 j (some t)) :
    (s.execute d calls).status = .returned ∧ ∃ acks, (s.execute d calls).state =
        { s with l3Acks := acks } ∧ ∀ h w, acks h w = if w < h.numWorkers then
          (calls.filter fun x => x.host = h).foldl connect (s.l3Acks h w) else s.l3Acks h w := by
  induction calls generalizing s with
  | nil => exact ⟨rfl, s.l3Acks, rfl, fun h w => by simp⟩
  | cons x calls ih =>
    obtain ⟨a, j, t, type, rfl⟩ := shape x List.mem_cons_self
    have all : passed s.l3Acks a (fun _ => s.alive t) = a.numWorkers := passed_eq fun _ _ => up t
    have first : call d s (.updateConnections a .l2 j (some t)) =
        ⟨{ s with
            l3Acks := onWorkers s.l3Acks a a.numWorkers fun _ rc =>
              rc.updateConnections j t.row t.numWorkers },
          [.updateConnections a .l2 j (some t)], .returned⟩ := by
      simp only [call, ManagerCall.host, up a, Bool.not_true, Bool.false_eq_true, if_false,
        updateConnections, type, all, beq_self_eq_true, if_true]
    obtain ⟨returned, acks, state, value⟩ := ih (s := (call d s (.updateConnections a .l2 j
      (some t))).state) (by rw [first]; exact up) fun y hy => shape y (List.mem_cons_of_mem _ hy)
    rw [first] at returned state value
    have whole : s.execute d (.updateConnections a .l2 j (some t) :: calls) =
        (call d s (.updateConnections a .l2 j (some t))).andThen fun s => s.execute d calls := rfl
    rw [whole, first]
    refine ⟨returned, acks, state, fun h w => ?_⟩
    rw [value]
    rcases eq_or_ne h a with rfl | other
    · simp only [onWorkers, Function.update_self, ManagerCall.host, decide_true,
        List.filter_cons_of_pos, List.foldl_cons]
      split <;> rfl
    · rw [filter_host_cons_ne (x := .updateConnections a .l2 j (some t)) other.symm]
      simp only [onWorkers, Function.update_of_ne other]

/-- An L2 worker that can be told where the L1 tails are. -/
def AckReady (m : ChainModule L2State) : Prop := m.isHead = true ∧ m.user.ackIface.isSome = true

def connectWorker (m : ChainModule L2State) (x : ManagerCall) : ChainModule L2State :=
  m.withUser { m.user with ackIface := m.user.ackIface.map (connect · x) }

lemma connectAcks_ready {m : ChainModule L2State} (ready : AckReady m) (a t : Host) (j : ℕ) :
    (L2Proxy.connectAcks m j t.row t.numWorkers).status = .returned ∧
      (L2Proxy.connectAcks m j t.row t.numWorkers).state =
        connectWorker m (.updateConnections a .l1 j (some t)) := by
  obtain ⟨rc, iface⟩ := Option.isSome_iff_exists.mp ready.2
  unfold L2Proxy.connectAcks connectWorker
  rw [ready.1, iface]
  exact ⟨rfl, rfl⟩

lemma foldl_connectWorker (calls : List ManagerCall) (m : ChainModule L2State) :
    (calls.foldl connectWorker m) =
      m.withUser { m.user with ackIface := m.user.ackIface.map (calls.foldl connect ·) } := by
  induction calls generalizing m with
  | nil =>
    simp only [List.foldl_nil, Option.map_id']
    rfl
  | cons x calls ih =>
    rw [List.foldl_cons, ih]
    simp [connectWorker, Function.comp_def]

lemma execute_acks_l2 (calls : List ManagerCall) (up : ∀ h, s.alive h = true)
    (shape : ∀ x ∈ calls, ∃ h j t, h.type = .l2 ∧ (∀ w < h.numWorkers, AckReady (s.l2 h w)) ∧
      x = .updateConnections h .l1 j (some t)) :
    (s.execute d calls).status = .returned ∧ ∃ l2, (s.execute d calls).state = { s with l2 := l2 } ∧
      ∀ h w, l2 h w = if w < h.numWorkers then
        (calls.filter fun x => x.host = h).foldl connectWorker (s.l2 h w) else s.l2 h w := by
  induction calls generalizing s with
  | nil => exact ⟨rfl, s.l2, rfl, fun h w => by simp⟩
  | cons x calls ih =>
    obtain ⟨a, j, t, type, ready, rfl⟩ := shape x List.mem_cons_self
    have all : passed s.l2 a (fun m => (L2Proxy.connectAcks m j t.row t.numWorkers).status ==
        .returned && s.alive t) = a.numWorkers := by
      refine passed_eq fun w hw => ?_
      rw [(connectAcks_ready (ready w hw) a t j).1, up t]
      rfl
    have first : call d s (.updateConnections a .l1 j (some t)) =
        ⟨{ s with l2 := onWorkers s.l2 a a.numWorkers fun _ m =>
            (L2Proxy.connectAcks m j t.row t.numWorkers).state },
          [.updateConnections a .l1 j (some t)], .returned⟩ := by
      simp only [call, ManagerCall.host, up a, Bool.not_true, Bool.false_eq_true, if_false,
        updateConnections, type, all, beq_self_eq_true, if_true]
    have same : ∀ h w, AckReady (s.l2 h w) →
        AckReady (onWorkers s.l2 a a.numWorkers (fun _ m =>
          (L2Proxy.connectAcks m j t.row t.numWorkers).state) h w) := by
      intro h w before
      rcases eq_or_ne h a with rfl | other
      · simp only [onWorkers, Function.update_self]
        split
        · rw [(connectAcks_ready before h t j).2]
          exact ⟨before.1, by simpa [connectWorker] using before.2⟩
        · exact before
      · simpa only [onWorkers, Function.update_of_ne other] using before
    obtain ⟨returned, l2, state, value⟩ := ih (s := (call d s (.updateConnections a .l1 j
      (some t))).state) (by rw [first]; exact up) fun y hy => by
        obtain ⟨h, j', t', type', ready', rfl⟩ := shape y (List.mem_cons_of_mem _ hy)
        rw [first]
        exact ⟨h, j', t', type', fun w hw => same h w (ready' w hw), rfl⟩
    rw [first] at returned state value
    have whole : s.execute d (.updateConnections a .l1 j (some t) :: calls) =
        (call d s (.updateConnections a .l1 j (some t))).andThen fun s => s.execute d calls := rfl
    rw [whole, first]
    refine ⟨returned, l2, state, fun h w => ?_⟩
    rw [value]
    rcases eq_or_ne h a with rfl | other
    · simp only [onWorkers, Function.update_self, ManagerCall.host, decide_true,
        List.filter_cons_of_pos, List.foldl_cons]
      split
      · next hw => rw [(connectAcks_ready (ready w hw) h t j).2]
      · rfl
    · rw [filter_host_cons_ne (x := .updateConnections a .l1 j (some t)) other.symm]
      simp only [onWorkers, Function.update_of_ne other]

section Opened
variable (d : GridDeployment)

/-- All instances after `setup_reverse_connections`. -/
def opened (d : Deployment) : Outcome Cluster ManagerCall :=
  (start d).execute d (setupReverseConnections d.hosts)

lemma start_ackReady {c : ℕ} (hc : c < d.l2Workers.length) (w : ℕ) :
    AckReady ((start d.toDeployment).l2 (replicaAt d.hosts .l2 c 0) w) := by
  have head := (initRole_isHead (d.l2Grid.column hc) d.l2Grid.pos).mpr rfl
  refine ⟨head, ?_⟩
  simp only [start, ChainModule.setup, L2Proxy.callbacks, L2Proxy.setupCallback, head,
    L2Proxy.initState]
  rfl

lemma opened_eq : (opened d.toDeployment).status = .returned ∧ ∃ acks l2,
    (opened d.toDeployment).state = { start d.toDeployment with l3Acks := acks, l2 := l2 } ∧
    (∀ h ∈ d.hosts, h.type = .l3 → ∀ w < h.numWorkers, (acks h w).clients = if h.row = 0 then
      d.l2Workers.map fun n => List.replicate n (some (d.l2Rows - 1))
      else d.l2Workers.map fun n => List.replicate n none) ∧
    ∀ h ∈ d.hosts, h.type = .l2 → ∀ w < h.numWorkers, if h.row = 0 then
      ∃ rc, (l2 h w).user.ackIface = some rc ∧
        rc.clients = d.l1Workers.map fun n => List.replicate n (some (d.l1Rows - 1))
      else l2 h w = (start d.toDeployment).l2 h w := by
  have up : ∀ h, (start d.toDeployment).alive h = true := fun _ => rfl
  obtain ⟨returned3, acks, state3, value3⟩ := execute_acks_l3 (d := d.toDeployment)
    (ackCalls (heads d.hosts .l3) .l2 (tails d.hosts .l2)) up fun x hx => by
      obtain ⟨h, hh, j, t, _, rfl⟩ := mem_ackCalls hx
      rw [d.l3Grid.heads_eq, List.mem_map] at hh
      obtain ⟨c, hc, rfl⟩ := hh
      exact ⟨_, j, t, ((d.l3Grid.column (List.mem_range.mp hc)).mem_hosts d.l3Grid.pos).2.1, rfl⟩
  obtain ⟨returned2, l2, state2, value2⟩ := execute_acks_l2 (d := d.toDeployment)
    (s := { start d.toDeployment with l3Acks := acks })
    (ackCalls (heads d.hosts .l2) .l1 (tails d.hosts .l1)) up fun x hx => by
      obtain ⟨h, hh, j, t, _, rfl⟩ := mem_ackCalls hx
      rw [d.l2Grid.heads_eq, List.mem_map] at hh
      obtain ⟨c, hc, rfl⟩ := hh
      exact ⟨_, j, t, ((d.l2Grid.column (List.mem_range.mp hc)).mem_hosts d.l2Grid.pos).2.1,
        fun w _ => start_ackReady d (List.mem_range.mp hc) w, rfl⟩
  have whole : opened d.toDeployment = ((start d.toDeployment).execute d.toDeployment
      (ackCalls (heads d.hosts .l3) .l2 (tails d.hosts .l2))).andThen fun s =>
        s.execute d.toDeployment (ackCalls (heads d.hosts .l2) .l1 (tails d.hosts .l1)) := by
    rw [opened, setupReverseConnections_eq, execute, Outcome.forEach_append]
    rfl
  have result : (opened d.toDeployment).status = .returned ∧ (opened d.toDeployment).state =
      { start d.toDeployment with l3Acks := acks, l2 := l2 } := by
    rw [whole, Outcome.andThen, returned3]
    dsimp only
    rw [state3]
    exact ⟨returned2, state2⟩
  refine ⟨result.1, acks, l2, result.2, fun h mem type w hw => ?_, fun h mem type w hw => ?_⟩
  · rw [value3, if_pos hw, filter_ackCalls d.l3Grid.heads_nodup]
    simp only [d.l3Grid.mem_heads mem type]
    split
    · rw [foldl_connect, ReverseConnector.clients_connectAll, d.l2Grid.clients_tails]
      simp [start, ReverseConnector.new, ReverseConnector.recomputeClientArray,
        d.l2Grid.firstReplicas_eq, d.l2Grid.tails_eq]
    · simp [start, ReverseConnector.new, ReverseConnector.recomputeClientArray,
        d.l2Grid.firstReplicas_eq]
  · rw [value2, if_pos hw, filter_ackCalls d.l2Grid.heads_nodup]
    simp only [d.l2Grid.mem_heads mem type]
    split
    · next first =>
      obtain ⟨hc, _, eq⟩ := d.l2Grid.eq_replicaAt mem type
      have head := (initRole_isHead (d.l2Grid.column hc) d.l2Grid.pos).mpr rfl
      rw [first] at eq
      rw [foldl_connectWorker]
      refine ⟨(ReverseConnector.new d.l1Workers d.l2AckBatchSize).connectAll (tails d.hosts .l1),
        ?_, ?_⟩
      · rw [ChainModule.withUser_user, funext fun rc => foldl_connect (tails d.hosts .l1) h .l1 rc]
        rw [eq]
        simp only [start, ChainModule.setup, L2Proxy.callbacks, L2Proxy.setupCallback, head,
          L2Proxy.initState, Deployment.l2Config, d.l1Grid.firstReplicas_eq]
        rfl
      · rw [ReverseConnector.clients_connectAll, d.l1Grid.clients_tails]
        simp [ReverseConnector.new, ReverseConnector.recomputeClientArray, d.l1Grid.tails_eq]
    · rfl

end Opened

/-- The replicas of a column that are alive, in the order of their rows. -/
def liveReplicas (d : Deployment) (s : Cluster) (t : HostType) (c : ℕ) : List Host :=
  (getReplicas d.hosts t c).filter s.alive

def liveTail (d : Deployment) (s : Cluster) (t : HostType) (c : ℕ) : Option ℕ :=
  (liveReplicas d s t c).getLast?.map Host.row

/-- A batch arrives if the instance it is sent to is alive. -/
def ackUp (d : Deployment) (s : Cluster) (t : HostType) (b : AckBatch) : Bool :=
  (locate (firstReplicas d.hosts t) b.idx).any fun a => (d.hostAt t b.row a.1).any s.alive

/-- A connection to the live tail for each worker of a tier, so that no acknowledgement
raises. -/
structure Routed (d : Deployment) (s : Cluster) (t : HostType) (rc : ReverseConnector) : Prop where
  clients : rc.clients =
    (firstReplicas d.hosts t).mapIdx fun c n => List.replicate n (liveTail d s t c)
  answers : ∀ (id : ℕ) (seq : SequenceId), id < (firstReplicas d.hosts t).sum →
    (rc.sendAck (ackUp d s t) id seq).status = .returned

/-- Acknowledgements reach the live end of every chain. -/
structure AcksRouted (d : Deployment) (s : Cluster) : Prop where
  l3 : ∀ h ∈ d.hosts, h.type = .l3 → ∀ w < h.numWorkers, Routed d s .l2 (s.l3Acks h w)
  l2 : ∀ c h, (liveReplicas d s .l2 c).head? = some h → ∀ w < h.numWorkers,
    ∃ rc, (s.l2 h w).user.ackIface = some rc ∧ Routed d s .l1 rc

section Answers
variable {t : HostType} {rows : ℕ} {workers : List ℕ}

lemma flatten_locate (workers : List ℕ) (f : ℕ → Option ℕ) (id : ℕ) :
    (workers.mapIdx fun c n => List.replicate n (f c)).flatten[id]? =
      (locate workers id).map fun a => f a.1 := by
  induction workers generalizing f id with
  | nil => simp [locate]
  | cons n workers ih =>
    rw [List.mapIdx_cons, List.flatten_cons, locate]
    split
    · next inside => rw [List.getElem?_append_left (by simpa), List.getElem?_replicate_of_lt inside]; rfl
    · next outside =>
      rw [List.getElem?_append_right (by simpa using outside), List.length_replicate,
        ih fun c => f (c + 1)]
      simp [Function.comp_def]

lemma mem_liveReplicas {c : ℕ} {h : Host} (mem : h ∈ liveReplicas d s t c) :
    h ∈ d.hosts ∧ h.type = t ∧ h.column = c ∧ s.alive h = true := by
  simp only [liveReplicas, getReplicas, List.mem_filter, List.mem_insertionSort,
    decide_eq_true_eq] at mem
  exact ⟨mem.1.1, mem.1.2.1, mem.1.2.2, mem.2⟩

lemma routed_of_clients (g : Grid d.hosts t rows workers) {rc : ReverseConnector}
    (clients : rc.clients = workers.mapIdx fun c n => List.replicate n (liveTail d s t c))
    (live : ∀ c < workers.length, liveReplicas d s t c ≠ []) : Routed d s t rc := by
  have tier := g.firstReplicas_eq
  refine ⟨by rw [tier]; exact clients, fun id seq inside => ?_⟩
  rw [tier] at inside
  obtain ⟨⟨c, w⟩, found⟩ := Option.isSome_iff_exists.mp (locate_isSome inside)
  obtain ⟨_, n, size, _⟩ := locate_eq_some found
  have hc := (List.getElem?_eq_some_iff.mp size).1
  obtain ⟨h, last⟩ : ∃ h, (liveReplicas d s t c).getLast? = some h :=
    ⟨_, List.getLast?_eq_some_getLast (live c hc)⟩
  obtain ⟨mem, type, column, alive⟩ := mem_liveReplicas (List.mem_of_getLast? last)
  have here : rc.clientArr[id]? = some (some h.row) := by
    rw [ReverseConnector.clientArr, clients, flatten_locate, found]
    simp [liveTail, last]
  have size := (List.getElem?_eq_some_iff.mp here).1
  have arrives : ∀ queue, ackUp d s t ⟨id, h.row, queue⟩ = true := by
    intro queue
    obtain ⟨hc, row, eq⟩ := g.eq_replicaAt mem type
    rw [column] at hc eq
    simp only [ackUp, tier, found, Option.any_some, g.hostAt_eq hc row]
    rw [← eq]
    exact alive
  unfold ReverseConnector.sendAck
  rw [if_pos ⟨by omega, by exact_mod_cast size⟩, Int.toNat_natCast, List.getD_eq_getElem?_getD,
    here]
  dsimp only [Option.getD_some]
  split
  · rw [Outcome.send, if_pos (arrives _)]
  · rfl

end Answers

section Failure
variable {t : HostType} {rows c g : ℕ} {workers : List ℕ}

lemma liveReplicas_other {failed : Host}
    (alive : s.alive = Function.update (fun _ => true) failed false)
    (other : failed.type ≠ t ∨ failed.column ≠ c) :
    liveReplicas d s t c = getReplicas d.hosts t c := by
  refine List.filter_eq_self.mpr fun h mem => ?_
  simp only [getReplicas, List.mem_insertionSort, List.mem_filter, decide_eq_true_eq] at mem
  rw [alive, Function.update_of_ne]
  rintro rfl
  rcases other with type | column
  · exact type mem.2.1
  · exact column mem.2.2

lemma liveReplicas_failed (col : ChainColumn d.hosts t c rows) (hg : g < rows)
    (alive : s.alive = Function.update (fun _ => true) (replicaAt d.hosts t c g) false) :
    liveReplicas d s t c = (getReplicas d.hosts t c).eraseIdx g := by
  rw [← col.fixed_eq hg]
  refine List.filter_congr fun h mem => ?_
  simp only [getReplicas, List.mem_insertionSort, List.mem_filter, decide_eq_true_eq] at mem
  rw [alive]
  rcases eq_or_ne h (replicaAt d.hosts t c g) with rfl | other
  · simp
  · have names : h.instanceName ≠ (replicaAt d.hosts t c g).instanceName := fun same =>
      other (List.inj_on_of_nodup_map col.names mem.1 (col.mem_hosts hg).1 same)
    rw [Function.update_of_ne other]
    simpa using names

lemma liveTail_other (col : ChainColumn d.hosts t c rows) (pos : 0 < rows)
    (all : liveReplicas d s t c = getReplicas d.hosts t c) :
    liveTail d s t c = some (rows - 1) := by
  rw [liveTail, all, List.getLast?_eq_getElem?, col.length, col.getElem? (by omega),
    Option.map_some, col.row (by omega)]

lemma liveTail_failed (col : ChainColumn d.hosts t c rows) (two : 2 ≤ rows) (hg : g < rows)
    (others : liveReplicas d s t c = (getReplicas d.hosts t c).eraseIdx g) :
    liveTail d s t c = some (if g + 1 = rows then rows - 2 else rows - 1) := by
  rw [liveTail, others, List.getLast?_eq_getElem?, col.fixed_length hg]
  split
  · next last =>
    rw [List.getElem?_eraseIdx_of_lt (by omega), col.getElem? (by omega), Option.map_some,
      col.row (by omega)]
    congr 1
  · next inner =>
    rw [List.getElem?_eraseIdx_of_ge (by omega), show rows - 1 - 1 + 1 = rows - 1 by omega,
      col.getElem? (by omega), Option.map_some, col.row (by omega)]

lemma liveHead_failed (col : ChainColumn d.hosts t c rows) (two : 2 ≤ rows)
    (others : liveReplicas d s t c = (getReplicas d.hosts t c).eraseIdx g) :
    (liveReplicas d s t c).head? = some (replicaAt d.hosts t c (if g = 0 then 1 else 0)) := by
  rw [others, List.head?_eq_getElem?]
  split
  · next first => rw [first, List.getElem?_eraseIdx_of_ge le_rfl, col.getElem? (by omega)]
  · next later => rw [List.getElem?_eraseIdx_of_lt (by omega), col.getElem? (by omega)]

lemma next_ne_failed (col : ChainColumn d.hosts t c rows) (x : Host)
    (next : (getReplicas d.hosts t c)[g + 1]? = some x) : x ≠ replicaAt d.hosts t c g := by
  have inside : g + 1 < rows := by
    rw [← col.length]
    exact (List.getElem?_eq_some_iff.mp next).1
  rw [col.getElem? inside, Option.some.injEq] at next
  rw [← next]
  exact replicaAt_ne col (by omega)

lemma execute_relink_returned (failed h : Host) (role : ChainRole) (next : Option Host)
    (up : ∀ x, s.alive x = true) (other : h ≠ failed) (link : ∀ x, next = some x → x ≠ failed) :
    let crashed := { s with alive := Function.update s.alive failed false }
    crashed.up next = true ∧
    s.execute d [.crash failed, .setupChain h role next, .resendPending h next] =
      ⟨crashed.setupChain d h role next,
        [.crash failed, .setupChain h role next, .resendPending h next], .returned⟩ := by
  intro crashed
  have linked : crashed.up next = true := by
    cases next with
    | none => rfl
    | some x => exact (Function.update_of_ne (link x rfl) ..).trans (up x)
  have live : crashed.alive h = true := (Function.update_of_ne other ..).trans (up h)
  have kept : (crashed.setupChain d h role next).alive = crashed.alive := by
    unfold setupChain
    split <;> rfl
  have linked' : (crashed.setupChain d h role next).up next = true := by
    cases next with
    | none => rfl
    | some x => exact (congrFun kept x).trans linked
  refine ⟨linked, ?_⟩
  have first : call d s (.crash failed) = ⟨crashed, [.crash failed], .returned⟩ := by
    simp [call, ManagerCall.host, up, crashed]
  have second : call d crashed (.setupChain h role next) =
      ⟨crashed.setupChain d h role next, [.setupChain h role next], .returned⟩ := by
    simp [call, ManagerCall.host, live, linked]
  have third : call d (crashed.setupChain d h role next) (.resendPending h next) =
      ⟨crashed.setupChain d h role next, [.resendPending h next], .returned⟩ := by
    simp [call, ManagerCall.host, kept, live, linked']
  simp only [execute, Outcome.forEach, first, second, third, Outcome.andThen, Outcome.done]
  rfl

lemma setupChain_ackIface {h : Host} (type : h.type = .l2) (role : ChainRole) (next : Option Host)
    (link : s.up next = true) (x : Host) (w : ℕ) :
    ((s.setupChain d h role next).l2 x w).user.ackIface =
      if x = h ∧ w < h.numWorkers ∧ role.isHead = true ∧ (s.l2 x w).user.ackIface.isNone = true then
        some (ReverseConnector.new (firstReplicas d.hosts .l1) d.l2AckBatchSize)
      else (s.l2 x w).user.ackIface := by
  simp only [setupChain, type, onWorkers]
  rcases eq_or_ne x h with rfl | other
  · simp only [Function.update_self, true_and]
    by_cases inside : w < x.numWorkers
    · simp only [inside, if_true, true_and, setupWorker, link, ChainModule.setup, L2Proxy.callbacks,
        L2Proxy.setupCallback, Deployment.l2Config, Bool.and_eq_true]
    · simp [inside]
  · simp [other]

/-- An L1 worker that can be told where an L2 head is. -/
def TailReady (m : ChainModule L1State) : Prop := m.isTail = true ∧ m.user.l2Iface.isSome = true

lemma redirect_returned (calls : List ManagerCall) (newHead : Host) {n : ℕ}
    (column : d.l1Config.l2Workers[newHead.column]? = some n)
    (reached : s.reach d newHead.column newHead.row = true)
    (shape : ∀ x ∈ calls, ∃ h, h.type = .l1 ∧ s.alive h = true ∧
      (∀ w < h.numWorkers, TailReady (s.l1 h w)) ∧
      (x = .updateConnections h .l2 newHead.column (some newHead) ∨ x = .resendPending h none)) :
    (s.execute d calls).status = .returned ∧ (s.execute d calls).state.alive = s.alive ∧
      (s.execute d calls).state.l2 = s.l2 ∧ (s.execute d calls).state.l3Acks = s.l3Acks := by
  induction calls generalizing s with
  | nil => exact ⟨rfl, rfl, rfl, rfl⟩
  | cons x calls ih =>
    obtain ⟨h, type, live, ready, update | resend⟩ := shape x List.mem_cons_self
    · subst update
      let update := fun m => L1Proxy.updateConnections d.l1Config (s.reach d) m newHead.column
        newHead.row
      have goes : ∀ m, TailReady m → (update m).status = .returned ∧ TailReady (update m).state := by
        intro m ⟨tail, iface⟩
        obtain ⟨clients, some'⟩ := Option.isSome_iff_exists.mp iface
        simp only [update, L1Proxy.updateConnections, tail, some', column, reached, Bool.or_true,
          if_true, Outcome.done]
        exact ⟨trivial, tail, rfl⟩
      have all : passed s.l1 h (fun m => (update m).status == .returned) = h.numWorkers := by
        refine passed_eq fun w hw => ?_
        rw [(goes _ (ready w hw)).1]
        rfl
      have first : call d s (.updateConnections h .l2 newHead.column (some newHead)) =
          ⟨{ s with l1 := onWorkers s.l1 h h.numWorkers fun _ m => (update m).state },
            [.updateConnections h .l2 newHead.column (some newHead)], .returned⟩ := by
        simp only [call, ManagerCall.host, live, Bool.not_true, Bool.false_eq_true, if_false,
          updateConnections, type]
        simp only [update] at all ⊢
        simp only [all, beq_self_eq_true, if_true]
      have rest := ih (s := (call d s (.updateConnections h .l2 newHead.column
        (some newHead))).state) (by rw [first]; exact reached) fun y hy => by
          obtain ⟨a, type', live', ready', form⟩ := shape y (List.mem_cons_of_mem _ hy)
          rw [first]
          refine ⟨a, type', live', fun w hw => ?_, form⟩
          rcases eq_or_ne a h with rfl | other
          · simp only [onWorkers, Function.update_self, hw, if_true]
            exact (goes _ (ready' w hw)).2
          · simpa only [onWorkers, Function.update_of_ne other] using ready' w hw
      have whole : s.execute d (.updateConnections h .l2 newHead.column (some newHead) :: calls) =
          (call d s (.updateConnections h .l2 newHead.column (some newHead))).andThen
            fun s => s.execute d calls := rfl
      rw [whole]
      rw [first] at rest ⊢
      exact rest
    · subst resend
      have first : call d s (.resendPending h none) =
          ⟨s, [.resendPending h none], .returned⟩ := by
        simp [call, ManagerCall.host, live, up]
      have rest := ih reached fun y hy => shape y (List.mem_cons_of_mem _ hy)
      have whole : s.execute d (.resendPending h none :: calls) =
          (call d s (.resendPending h none)).andThen fun s => s.execute d calls := rfl
      rw [whole, first]
      exact rest

/-- What a repair leaves: all calls went through and the connections of the L3 tier are as
they were. -/
structure Repaired (s : Cluster) (failed : Host) (o : Outcome Cluster ManagerCall) : Prop where
  returned : o.status = .returned
  alive : o.state.alive = Function.update s.alive failed false
  l3Acks : o.state.l3Acks = s.l3Acks

lemma failNode_status {name : String} {calls : List ManagerCall}
    (plan : ProxyManager.failNode d.hosts name = ⟨calls, none⟩)
    (returned : (s.execute d calls).status = .returned) :
    (s.failNode d name).status = .returned := by
  unfold failNode
  rw [plan]
  simp only [Outcome.andThen, returned, Outcome.done]

lemma fail_l1_repaired (col : ChainColumn d.hosts .l1 c rows) (hg : g < rows)
    (up : ∀ h, s.alive h = true) :
    let o := s.failNode d (replicaAt d.hosts .l1 c g).instanceName
    Repaired s (replicaAt d.hosts .l1 c g) o ∧ o.state.l2 = s.l2 := by
  intro o
  have plan := col.failNode_l1 hg
  rcases Nat.eq_zero_or_pos g with rfl | pos
  · rw [if_neg (lt_irrefl 0)] at plan
    have crash : s.execute d [.crash (replicaAt d.hosts .l1 c 0)] =
        ⟨{ s with alive := Function.update s.alive (replicaAt d.hosts .l1 c 0) false },
          [.crash (replicaAt d.hosts .l1 c 0)], .returned⟩ := by
      simp [execute, Outcome.forEach, call, ManagerCall.host, up, Outcome.andThen]
    have state := (failNode_eq (s := s) plan).1
    have returned := failNode_status (s := s) plan (by rw [crash])
    rw [crash] at state
    exact ⟨⟨returned, by rw [state], by rw [state]⟩, by rw [state]⟩
  · rw [if_pos pos] at plan
    have hp : g - 1 < rows := by omega
    obtain ⟨_, run⟩ := execute_relink_returned (d := d) (replicaAt d.hosts .l1 c g)
      (replicaAt d.hosts .l1 c (g - 1)) (relinkRole rows g) (getReplicas d.hosts .l1 c)[g + 1]? up
      (replicaAt_ne col (by omega)) (next_ne_failed col)
    have state := (failNode_eq (s := s) plan).1
    have returned := failNode_status (s := s) plan (by rw [run])
    rw [run] at state
    simp only [setupChain, (col.mem_hosts hp).2.1] at state
    exact ⟨⟨returned, by rw [state], by rw [state]⟩, by rw [state]⟩

lemma fail_l2_repaired (col : ChainColumn d.hosts .l2 c rows) (hg : g < rows) (pos : 0 < g)
    (up : ∀ h, s.alive h = true) (ready : ∀ w < (replicaAt d.hosts .l2 c 0).numWorkers,
      (s.l2 (replicaAt d.hosts .l2 c 0) w).user.ackIface.isSome = true) :
    let o := s.failNode d (replicaAt d.hosts .l2 c g).instanceName
    Repaired s (replicaAt d.hosts .l2 c g) o ∧
      ∀ h w, (o.state.l2 h w).user.ackIface = (s.l2 h w).user.ackIface := by
  intro o
  have plan := col.failNode_l2 hg pos
  have hp : g - 1 < rows := by omega
  obtain ⟨link, run⟩ := execute_relink_returned (d := d) (replicaAt d.hosts .l2 c g)
    (replicaAt d.hosts .l2 c (g - 1)) (relinkRole rows g) (getReplicas d.hosts .l2 c)[g + 1]? up
    (replicaAt_ne col (by omega)) (next_ne_failed col)
  have state := (failNode_eq (s := s) plan).1
  have returned := failNode_status (s := s) plan (by rw [run])
  rw [run] at state
  have type := (col.mem_hosts hp).2.1
  refine ⟨⟨returned, ?_, ?_⟩, fun h w => ?_⟩
  · rw [state]
    simp only [setupChain, type]
  · rw [state]
    simp only [setupChain, type]
  · rw [state, setupChain_ackIface type _ _ link, if_neg]
    rintro ⟨rfl, inside, head, isNone⟩
    rw [relinkRole_isHead hg pos] at head
    subst head
    exact absurd (ready w inside) (by simpa using isNone)

lemma fail_l2_head_repaired (d : GridDeployment) {s : Cluster} (hc : c < d.l2Workers.length)
    (two : 1 < d.l2Rows) (up : ∀ h, s.alive h = true)
    (fresh : ∀ w < (replicaAt d.hosts .l2 c 1).numWorkers,
      (s.l2 (replicaAt d.hosts .l2 c 1) w).user.ackIface = none)
    (ready : ∀ h ∈ tails d.hosts .l1, ∀ w < h.numWorkers, TailReady (s.l1 h w)) :
    let o := s.failNode d.toDeployment (replicaAt d.hosts .l2 c 0).instanceName
    Repaired s (replicaAt d.hosts .l2 c 0) o ∧
      ∀ w < (replicaAt d.hosts .l2 c 1).numWorkers,
        (o.state.l2 (replicaAt d.hosts .l2 c 1) w).user.ackIface =
          some (ReverseConnector.new d.l1Workers d.l2AckBatchSize) := by
  intro o
  have col := d.l2Grid.column hc
  have plan := col.failNode_l2_head two
  have type := (col.mem_hosts two).2.1
  let role : ChainRole := if d.l2Rows = 2 then .singleton else .head
  let next := (getReplicas d.hosts .l2 c)[2]?
  let crashed := { s with alive := Function.update s.alive (replicaAt d.hosts .l2 c 0) false }
  have linked : crashed.up next = true := by
    cases found : next with
    | none => rfl
    | some x =>
      have inside : 2 < d.l2Rows := by
        rw [← col.length]
        exact (List.getElem?_eq_some_iff.mp found).1
      simp only [next, col.getElem? inside, Option.some.injEq] at found
      rw [← found]
      exact (Function.update_of_ne (replicaAt_ne col (by omega)) ..).trans (up _)
  have live : crashed.alive (replicaAt d.hosts .l2 c 1) = true :=
    (Function.update_of_ne (replicaAt_ne col one_ne_zero) ..).trans (up _)
  let linkedState := crashed.setupChain d.toDeployment (replicaAt d.hosts .l2 c 1) role next
  have kept : linkedState.alive = crashed.alive ∧ linkedState.l3Acks = crashed.l3Acks ∧
      linkedState.l1 = crashed.l1 := by
    simp only [linkedState, setupChain, type, and_self]
  have first : call d.toDeployment s (.crash (replicaAt d.hosts .l2 c 0)) =
      ⟨crashed, [.crash (replicaAt d.hosts .l2 c 0)], .returned⟩ := by
    simp [call, ManagerCall.host, up, crashed]
  have second : call d.toDeployment crashed (.setupChain (replicaAt d.hosts .l2 c 1) role next) =
      ⟨linkedState, [.setupChain (replicaAt d.hosts .l2 c 1) role next], .returned⟩ := by
    simp [call, ManagerCall.host, live, linked, linkedState]
  obtain ⟨returned, alive, l2, l3Acks⟩ := redirect_returned (d := d.toDeployment) (s := linkedState)
    (ChainColumn.redirectCalls d.hosts (replicaAt d.hosts .l2 c 1)) (replicaAt d.hosts .l2 c 1)
    (n := (replicaAt d.hosts .l2 c 1).numWorkers)
    (by
      rw [(col.mem_hosts two).2.2]
      simpa only [Deployment.l1Config, d.l2Grid.firstReplicas_eq] using
        d.l2Grid.numWorkers_replicaAt hc two)
    (by
      rw [reach, (col.mem_hosts two).2.2, col.row two, d.l2Grid.hostAt_eq hc two, kept.1]
      exact live)
    fun x hx => by
      have tail : ∀ h ∈ tails d.hosts .l1, h.type = .l1 ∧ linkedState.alive h = true ∧
          ∀ w < h.numWorkers, TailReady (linkedState.l1 h w) := by
        intro h hh
        refine ⟨tails_type hh, ?_, ?_⟩
        · rw [kept.1]
          refine (Function.update_of_ne (fun same => ?_) ..).trans (up h)
          have := tails_type hh
          rw [same, (col.mem_hosts (show 0 < d.l2Rows by omega)).2.1] at this
          simp at this
        · rw [kept.2.2]
          exact ready h hh
      simp only [ChainColumn.redirectCalls, List.mem_append, List.mem_map] at hx
      rcases hx with ⟨h, hh, rfl⟩ | ⟨h, hh, rfl⟩
      · exact ⟨h, (tail h hh).1, (tail h hh).2.1, (tail h hh).2.2, .inl rfl⟩
      · exact ⟨h, (tail h hh).1, (tail h hh).2.1, (tail h hh).2.2, .inr rfl⟩
  have run : (s.execute d.toDeployment (.crash (replicaAt d.hosts .l2 c 0) ::
      .setupChain (replicaAt d.hosts .l2 c 1) role next ::
      ChainColumn.redirectCalls d.hosts (replicaAt d.hosts .l2 c 1))).status = .returned ∧
      (s.execute d.toDeployment (.crash (replicaAt d.hosts .l2 c 0) ::
      .setupChain (replicaAt d.hosts .l2 c 1) role next ::
      ChainColumn.redirectCalls d.hosts (replicaAt d.hosts .l2 c 1))).state =
      (linkedState.execute d.toDeployment
        (ChainColumn.redirectCalls d.hosts (replicaAt d.hosts .l2 c 1))).state := by
    simp only [execute, Outcome.forEach, first, second, Outcome.andThen]
    exact ⟨returned, trivial⟩
  have state := (failNode_eq (s := s) plan).1.trans run.2
  refine ⟨⟨failNode_status plan run.1, ?_, ?_⟩, fun w inside => ?_⟩
  · rw [state, alive, kept.1]
  · rw [state, l3Acks, kept.2.1]
  · have head : role.isHead = true := by
      simp only [role]
      split <;> rfl
    rw [state, l2, setupChain_ackIface type _ _ linked, if_pos ⟨rfl, inside, head, by
      rw [fresh w inside]; rfl⟩, d.l1Grid.firstReplicas_eq]

end Failure

section Main
variable {d : GridDeployment} {s : Cluster} {t : HostType} {rows c g : ℕ} {workers : List ℕ}

/-- Every tier has a column and every instance a worker. -/
structure Staffed (d : GridDeployment) : Prop where
  l1 : d.l1Workers ≠ [] ∧ ∀ n ∈ d.l1Workers, 0 < n
  l2 : d.l2Workers ≠ [] ∧ ∀ n ∈ d.l2Workers, 0 < n
  l3 : d.l3Workers ≠ [] ∧ ∀ n ∈ d.l3Workers, 0 < n

/-- The L3 tier has one row, and the failed replica is neither an L1 tail nor at either end of
an L2 chain. -/
def Inner (d : GridDeployment) (t : HostType) (g : ℕ) : Prop :=
  d.l3Rows = 1 ∧ (t = .l1 → g + 1 < d.l1Rows) ∧ (t = .l2 → 0 < g ∧ g + 1 < d.l2Rows)

lemma map_eq_mapIdx {a : Option ℕ} {f : ℕ → Option ℕ} (same : ∀ c < workers.length, f c = a) :
    (workers.map fun n => List.replicate n a) =
      workers.mapIdx fun c n => List.replicate n (f c) := by
  refine List.ext_getElem (by simp) fun c hc hc' => ?_
  rw [List.getElem_map, List.getElem_mapIdx, same c (by simpa using hc)]

lemma eq_of_map_eq_mapIdx {a : Option ℕ} {f : ℕ → Option ℕ}
    (same : (workers.map fun n => List.replicate n a) =
      workers.mapIdx fun c n => List.replicate n (f c)) (pos : ∀ n ∈ workers, 0 < n)
    (hc : c < workers.length) : f c = a := by
  have here := congrArg (fun l => l[c]?) same
  simp only [List.getElem?_map, List.getElem?_mapIdx, List.getElem?_eq_getElem hc, Option.map_some,
    Option.some.injEq] at here
  have some' := pos _ (List.getElem_mem hc)
  have first := congrArg (fun l => l[0]?) here
  simp only [List.getElem?_replicate_of_lt some', Option.some.injEq] at first
  exact first.symm

lemma exists_worker (g : Grid d.hosts t rows workers) (some' : workers ≠ [] ∧ ∀ n ∈ workers, 0 < n)
    {i : ℕ} (hi : i < rows) : 0 < workers.length ∧ 0 < (replicaAt d.hosts t 0 i).numWorkers := by
  have hc := List.length_pos_iff.mpr some'.1
  refine ⟨hc, ?_⟩
  have count := g.numWorkers_replicaAt hc hi
  exact some'.2 _ (List.mem_of_getElem? count)

lemma l3_routed {acks : Host → ℕ → ReverseConnector} (l3Acks : s.l3Acks = acks)
    (clients : ∀ h ∈ d.hosts, h.type = .l3 → ∀ w < h.numWorkers, (acks h w).clients =
      if h.row = 0 then d.l2Workers.map fun n => List.replicate n (some (d.l2Rows - 1))
      else d.l2Workers.map fun n => List.replicate n none) :
    (d.l3Rows = 1 → (∀ c < d.l2Workers.length, liveTail d.toDeployment s .l2 c = some (d.l2Rows - 1)) →
      ∀ h ∈ d.hosts, h.type = .l3 → ∀ w < h.numWorkers,
        Routed d.toDeployment s .l2 (s.l3Acks h w)) ∧
    (Staffed d → (∀ c < d.l2Workers.length, (liveTail d.toDeployment s .l2 c).isSome = true) →
      (∀ h ∈ d.hosts, h.type = .l3 → ∀ w < h.numWorkers,
        Routed d.toDeployment s .l2 (s.l3Acks h w)) →
      d.l3Rows = 1 ∧ ∀ c < d.l2Workers.length,
        liveTail d.toDeployment s .l2 c = some (d.l2Rows - 1)) := by
  subst l3Acks
  constructor
  · intro one live h mem type w hw
    have row := (d.l3Grid.inside h mem type).1
    refine routed_of_clients d.l2Grid ?_ fun c hc none => ?_
    · rw [clients h mem type w hw, if_pos (by omega)]
      exact map_eq_mapIdx live
    · have := live c hc
      simp [liveTail, none] at this
  · intro staffed live routed
    have route : ∀ i < d.l3Rows, (if i = 0 then
        d.l2Workers.map fun n => List.replicate n (some (d.l2Rows - 1))
        else d.l2Workers.map fun n => List.replicate n none) =
        d.l2Workers.mapIdx fun c n => List.replicate n (liveTail d.toDeployment s .l2 c) := by
      intro i hi
      obtain ⟨hc, hw⟩ := exists_worker d.l3Grid staffed.l3 hi
      obtain ⟨mem, type, _⟩ := (d.l3Grid.column hc).mem_hosts hi
      have is := (routed _ mem type 0 hw).clients
      rwa [clients _ mem type 0 hw, (d.l3Grid.column hc).row hi, d.l2Grid.firstReplicas_eq] at is
    have pos := d.l3Grid.pos
    refine ⟨?_, fun c hc => eq_of_map_eq_mapIdx (route 0 pos) staffed.l2.2 hc⟩
    by_contra more
    have hc := List.length_pos_iff.mpr staffed.l2.1
    have second := route 1 (by omega)
    rw [if_neg one_ne_zero] at second
    have none := eq_of_map_eq_mapIdx second staffed.l2.2 hc
    have := live 0 hc
    rw [none] at this
    simp at this

lemma l1_routed {rc : ReverseConnector}
    (clients : rc.clients = d.l1Workers.map fun n => List.replicate n (some (d.l1Rows - 1)))
    (live : ∀ c < d.l1Workers.length, liveTail d.toDeployment s .l1 c = some (d.l1Rows - 1)) :
    Routed d.toDeployment s .l1 rc := by
  refine routed_of_clients d.l1Grid ?_ fun c hc none => ?_
  · rw [clients]
    exact map_eq_mapIdx live
  · have := live c hc
    simp [liveTail, none] at this

/-- All instances after one of them has failed and `fail_node` is over. -/
def recovered (d : Deployment) (t : HostType) (c g : ℕ) : Outcome Cluster ManagerCall :=
  (opened d).state.failNode d (replicaAt d.hosts t c g).instanceName

lemma start_tailReady {h : Host} (mem : h ∈ tails d.hosts .l1) (w : ℕ) :
    TailReady ((start d.toDeployment).l1 h w) := by
  rw [d.l1Grid.tails_eq, List.mem_map] at mem
  obtain ⟨c, hc, rfl⟩ := mem
  have pos := d.l1Grid.pos
  have tail := (initRole_isTail (d.l1Grid.column (List.mem_range.mp hc))
    (show d.l1Rows - 1 < d.l1Rows by omega)).mpr (by omega)
  refine ⟨tail, ?_⟩
  simp only [start, ChainModule.setup, L1Proxy.callbacks, L1Proxy.setupCallback, tail,
    L1Proxy.initState]
  rfl

lemma start_ackIface_none (hc : c < d.l2Workers.length) {i : ℕ} (hi : i < d.l2Rows) (pos : 0 < i)
    (w : ℕ) : ((start d.toDeployment).l2 (replicaAt d.hosts .l2 c i) w).user.ackIface = none := by
  have role : (initRole d.toDeployment (replicaAt d.hosts .l2 c i)).isHead = false := by
    have := initRole_isHead (d.l2Grid.column hc) hi
    by_contra head
    have := this.mp (by simpa using head)
    omega
  simp only [start, ChainModule.setup, L2Proxy.callbacks, L2Proxy.setupCallback, role,
    L2Proxy.initState]
  rfl

lemma liveHead_mem {h : Host} (head : (liveReplicas d.toDeployment s .l2 c).head? = some h) :
    c < d.l2Workers.length ∧ h ∈ d.hosts ∧ h.type = .l2 := by
  obtain ⟨mem, type, column, _⟩ := mem_liveReplicas (List.mem_of_head? head)
  have := (d.l2Grid.eq_replicaAt mem type).1
  rw [column] at this
  exact ⟨this, mem, type⟩

lemma acks_routed_l1 (two : 2 ≤ d.l1Rows) (hc : c < d.l1Workers.length) (hg : g < d.l1Rows) :
    (recovered d.toDeployment .l1 c g).status = .returned ∧
    (Inner d .l1 g → AcksRouted d.toDeployment (recovered d.toDeployment .l1 c g).state) ∧
    (Staffed d → AcksRouted d.toDeployment (recovered d.toDeployment .l1 c g).state →
      Inner d .l1 g) := by
  obtain ⟨_, acks, l2, state, clients, ifaces⟩ := opened_eq d
  have col := d.l1Grid.column hc
  have up : ∀ h, (opened d.toDeployment).state.alive h = true := by
    intro h
    rw [state]
    rfl
  obtain ⟨done, l2Kept⟩ := fail_l1_repaired (d := d.toDeployment) col hg up
  have alive : (recovered d.toDeployment .l1 c g).state.alive =
      Function.update (fun _ => true) (replicaAt d.hosts .l1 c g) false := by
    rw [recovered, done.alive, funext up]
  have type := (col.mem_hosts hg).2.1
  have column := (col.mem_hosts hg).2.2
  have whole : ∀ c', liveReplicas d.toDeployment (recovered d.toDeployment .l1 c g).state .l2 c' =
      getReplicas d.hosts .l2 c' := fun c' =>
    liveReplicas_other alive (.inl (by rw [type]; simp))
  have tails2 : ∀ c' < d.l2Workers.length, liveTail d.toDeployment
      (recovered d.toDeployment .l1 c g).state .l2 c' = some (d.l2Rows - 1) := fun c' hc' =>
    liveTail_other (d.l2Grid.column hc') d.l2Grid.pos (whole c')
  have tail1 := liveTail_failed col two hg (liveReplicas_failed col hg alive)
  have l3Acks : (recovered d.toDeployment .l1 c g).state.l3Acks = acks :=
    done.l3Acks.trans (by rw [state])
  have l2Same : (recovered d.toDeployment .l1 c g).state.l2 = l2 := l2Kept.trans (by rw [state])
  obtain ⟨route3, back3⟩ := l3_routed l3Acks clients
  refine ⟨done.returned, ?_, ?_⟩
  · rintro ⟨one, inner, -⟩
    have tails1 : ∀ c' < d.l1Workers.length, liveTail d.toDeployment
        (recovered d.toDeployment .l1 c g).state .l1 c' = some (d.l1Rows - 1) := by
      intro c' hc'
      rcases eq_or_ne c' c with rfl | other
      · have := inner rfl
        rw [tail1, if_neg (by omega)]
      · exact liveTail_other (d.l1Grid.column hc') d.l1Grid.pos
          (liveReplicas_other alive (.inr (by rw [column]; exact other.symm)))
    refine ⟨route3 one tails2, fun c' h head w hw => ?_⟩
    obtain ⟨hc', mem, type'⟩ := liveHead_mem head
    have first : h.row = 0 := by
      rw [whole, List.head?_eq_getElem?, (d.l2Grid.column hc').getElem? d.l2Grid.pos,
        Option.some.injEq] at head
      rw [← head, (d.l2Grid.column hc').row d.l2Grid.pos]
    have iface := ifaces h mem type' w hw
    rw [if_pos first] at iface
    obtain ⟨rc, found, clients1⟩ := iface
    exact ⟨rc, by rw [l2Same]; exact found, l1_routed clients1 tails1⟩
  · intro staffed routed
    refine ⟨(back3 staffed (fun c' hc' => by rw [tails2 c' hc']; rfl) routed.l3).1,
      fun _ => ?_, fun impossible => by simp at impossible⟩
    by_contra last
    obtain ⟨hc', hw⟩ := exists_worker d.l2Grid staffed.l2 d.l2Grid.pos
    have head : (liveReplicas d.toDeployment (recovered d.toDeployment .l1 c g).state .l2 0).head? =
        some (replicaAt d.hosts .l2 0 0) := by
      rw [whole, List.head?_eq_getElem?, (d.l2Grid.column hc').getElem? d.l2Grid.pos]
    obtain ⟨rc, found, is⟩ := routed.l2 0 _ head 0 hw
    obtain ⟨_, mem, type'⟩ := liveHead_mem head
    have iface := ifaces _ mem type' 0 hw
    rw [if_pos ((d.l2Grid.column hc').row d.l2Grid.pos)] at iface
    obtain ⟨rc', found', clients1⟩ := iface
    rw [l2Same, found', Option.some.injEq] at found
    subst found
    have same := is.clients
    rw [clients1, d.l1Grid.firstReplicas_eq] at same
    have stale := eq_of_map_eq_mapIdx same staffed.l1.2 hc
    rw [tail1, if_pos (by omega), Option.some.injEq] at stale
    omega

lemma acks_routed_l2_inner (two : 2 ≤ d.l2Rows) (hc : c < d.l2Workers.length) (hg : g < d.l2Rows)
    (pos : 0 < g) :
    (recovered d.toDeployment .l2 c g).status = .returned ∧
    (Inner d .l2 g → AcksRouted d.toDeployment (recovered d.toDeployment .l2 c g).state) ∧
    (Staffed d → AcksRouted d.toDeployment (recovered d.toDeployment .l2 c g).state →
      Inner d .l2 g) := by
  obtain ⟨_, acks, l2, state, clients, ifaces⟩ := opened_eq d
  have col := d.l2Grid.column hc
  have up : ∀ h, (opened d.toDeployment).state.alive h = true := by
    intro h
    rw [state]
    rfl
  obtain ⟨done, kept⟩ := fail_l2_repaired (d := d.toDeployment) col hg pos up fun w hw => by
    have iface := ifaces _ (col.mem_hosts d.l2Grid.pos).1 (col.mem_hosts d.l2Grid.pos).2.1 w hw
    rw [if_pos (col.row d.l2Grid.pos)] at iface
    obtain ⟨rc, found, _⟩ := iface
    rw [state]
    exact Option.isSome_iff_exists.mpr ⟨rc, found⟩
  have alive : (recovered d.toDeployment .l2 c g).state.alive =
      Function.update (fun _ => true) (replicaAt d.hosts .l2 c g) false := by
    rw [recovered, done.alive, funext up]
  have type := (col.mem_hosts hg).2.1
  have column := (col.mem_hosts hg).2.2
  have others := liveReplicas_failed col hg alive
  have rest : ∀ c', c' ≠ c → liveReplicas d.toDeployment (recovered d.toDeployment .l2 c g).state .l2
      c' = getReplicas d.hosts .l2 c' := fun c' other =>
    liveReplicas_other alive (.inr (by rw [column]; exact other.symm))
  have tail2 := liveTail_failed col two hg others
  have tails2 : ∀ c' < d.l2Workers.length, c' ≠ c → liveTail d.toDeployment
      (recovered d.toDeployment .l2 c g).state .l2 c' = some (d.l2Rows - 1) := fun c' hc' other =>
    liveTail_other (d.l2Grid.column hc') d.l2Grid.pos (rest c' other)
  have tails1 : ∀ c' < d.l1Workers.length, liveTail d.toDeployment
      (recovered d.toDeployment .l2 c g).state .l1 c' = some (d.l1Rows - 1) := fun c' hc' =>
    liveTail_other (d.l1Grid.column hc') d.l1Grid.pos
      (liveReplicas_other alive (.inl (by rw [type]; simp)))
  obtain ⟨route3, back3⟩ := l3_routed (s := (recovered d.toDeployment .l2 c g).state)
    (done.l3Acks.trans (by rw [state])) clients
  refine ⟨done.returned, ?_, ?_⟩
  · rintro ⟨one, -, inner⟩
    have inner := (inner rfl).2
    refine ⟨route3 one fun c' hc' => ?_, fun c' h head w hw => ?_⟩
    · rcases eq_or_ne c' c with rfl | other
      · rw [tail2, if_neg (by omega)]
      · exact tails2 c' hc' other
    · obtain ⟨hc', mem, type'⟩ := liveHead_mem head
      have first : h.row = 0 := by
        rcases eq_or_ne c' c with rfl | other
        · rw [liveHead_failed col two others, if_neg (by omega), Option.some.injEq] at head
          rw [← head, col.row d.l2Grid.pos]
        · rw [rest c' other, List.head?_eq_getElem?,
            (d.l2Grid.column hc').getElem? d.l2Grid.pos, Option.some.injEq] at head
          rw [← head, (d.l2Grid.column hc').row d.l2Grid.pos]
      have iface := ifaces h mem type' w hw
      rw [if_pos first] at iface
      obtain ⟨rc, found, clients1⟩ := iface
      refine ⟨rc, (kept h w).trans ?_, l1_routed clients1 tails1⟩
      rw [state]
      exact found
  · intro staffed routed
    have live : ∀ c' < d.l2Workers.length, (liveTail d.toDeployment
        (recovered d.toDeployment .l2 c g).state .l2 c').isSome = true := by
      intro c' hc'
      rcases eq_or_ne c' c with rfl | other
      · rw [tail2]
        rfl
      · rw [tails2 c' hc' other]
        rfl
    obtain ⟨one, same⟩ := back3 staffed live routed.l3
    refine ⟨one, fun impossible => by simp at impossible, fun _ => ⟨pos, ?_⟩⟩
    by_contra last
    have stale := same c hc
    rw [tail2, if_pos (by omega), Option.some.injEq] at stale
    omega

lemma acks_routed_l2_head (two : 2 ≤ d.l2Rows) (hc : c < d.l2Workers.length) :
    (recovered d.toDeployment .l2 c 0).status = .returned ∧
    (Staffed d → ¬ AcksRouted d.toDeployment (recovered d.toDeployment .l2 c 0).state) := by
  obtain ⟨_, acks, l2, state, _, ifaces⟩ := opened_eq d
  have col := d.l2Grid.column hc
  have one : 1 < d.l2Rows := by omega
  have up : ∀ h, (opened d.toDeployment).state.alive h = true := by
    intro h
    rw [state]
    rfl
  obtain ⟨mem, type, _⟩ := col.mem_hosts one
  obtain ⟨done, fresh⟩ := fail_l2_head_repaired d hc one up
    (fun w hw => by
      have iface := ifaces _ mem type w hw
      rw [if_neg (by rw [col.row one]; exact one_ne_zero)] at iface
      rw [state]
      exact (congrArg (fun m => m.user.ackIface) iface).trans (start_ackIface_none hc one one_pos w))
    (fun h hh w _ => by rw [state]; exact start_tailReady hh w)
  have alive : (recovered d.toDeployment .l2 c 0).state.alive =
      Function.update (fun _ => true) (replicaAt d.hosts .l2 c 0) false := by
    rw [recovered, done.alive, funext up]
  refine ⟨done.returned, fun staffed routed => ?_⟩
  have head := liveHead_failed col two (liveReplicas_failed col d.l2Grid.pos alive)
  rw [if_pos rfl] at head
  have count : 0 < (replicaAt d.hosts .l2 c 1).numWorkers :=
    staffed.l2.2 _ (List.mem_of_getElem? (d.l2Grid.numWorkers_replicaAt hc one))
  obtain ⟨rc, found, is⟩ := routed.l2 c _ head 0 count
  have new := (fresh 0 count).symm.trans found
  rw [Option.some.injEq] at new
  have same := is.clients
  rw [← new, d.l1Grid.firstReplicas_eq] at same
  have hc1 := List.length_pos_iff.mpr staffed.l1.1
  have none := eq_of_map_eq_mapIdx (a := none) same staffed.l1.2 hc1
  have tail := liveTail_other (d.l1Grid.column hc1) d.l1Grid.pos (liveReplicas_other alive (.inl (by
    rw [(col.mem_hosts d.l2Grid.pos).2.1]; simp)))
  rw [none] at tail
  simp at tail

/-- The instances of the replicated tiers, by tier, column and row. -/
def Site (d : GridDeployment) (t : HostType) (c g : ℕ) : Prop :=
  t = .l1 ∧ c < d.l1Workers.length ∧ g < d.l1Rows ∨
  t = .l2 ∧ c < d.l2Workers.length ∧ g < d.l2Rows

/-- After one failure acknowledgements reach the live ends of all chains if the L3 tier has one
row and the failed replica was neither an L1 tail nor at an end of an L2 chain, and, unless
there is nobody to send or receive them, only then. -/
theorem acks_routed_iff (d : GridDeployment) {t : HostType} {c g : ℕ} (two1 : 2 ≤ d.l1Rows)
    (two2 : 2 ≤ d.l2Rows) (site : Site d t c g) :
    (opened d.toDeployment).status = .returned ∧
    (recovered d.toDeployment t c g).status = .returned ∧
    (Inner d t g → AcksRouted d.toDeployment (recovered d.toDeployment t c g).state) ∧
    (Staffed d → AcksRouted d.toDeployment (recovered d.toDeployment t c g).state →
      Inner d t g) := by
  refine ⟨(opened_eq d).1, ?_⟩
  rcases site with ⟨rfl, hc, hg⟩ | ⟨rfl, hc, hg⟩
  · exact acks_routed_l1 two1 hc hg
  · rcases Nat.eq_zero_or_pos g with rfl | pos
    · obtain ⟨returned, lost⟩ := acks_routed_l2_head two2 hc
      exact ⟨returned, fun inner => absurd (inner.2.2 rfl).1 (lt_irrefl 0),
        fun staffed routed => absurd routed (lost staffed)⟩
    · exact acks_routed_l2_inner two2 hc hg pos

def longGrid : GridDeployment where
  toDeployment := longDeployment
  l1Rows := 2
  l2Rows := 4
  l3Rows := 1
  l1Workers := [1]
  l2Workers := [1]
  l3Workers := [1]
  l1Grid := Grid.of_counts (by decide +kernel) (by decide) (by decide +kernel) (by decide +kernel)
  l2Grid := Grid.of_counts (by decide +kernel) (by decide) (by decide +kernel) (by decide +kernel)
  l3Grid := Grid.of_counts (by decide +kernel) (by decide) (by decide +kernel) (by decide +kernel)

/-- The L2 tail fails: the L3 instance goes on acknowledging to it. -/
theorem acks_lost_with_l2_tail :
    2 ≤ longGrid.l1Rows ∧ 2 ≤ longGrid.l2Rows ∧ Site longGrid .l2 0 3 ∧
      ¬ AcksRouted longDeployment (recovered longDeployment .l2 0 3).state := by
  refine ⟨by decide, by decide, .inr ⟨rfl, by decide, by decide⟩, fun routed => ?_⟩
  have is := (routed.l3 (replicaAt longHosts .l3 0 0) (by decide +kernel) (by decide +kernel) 0
    (by decide +kernel)).clients
  have stale : ((recovered longDeployment .l2 0 3).state.l3Acks
      (replicaAt longHosts .l3 0 0) 0).clients = [[some 3]] := by decide +kernel
  have live : ((firstReplicas longDeployment.hosts .l2).mapIdx fun c n => List.replicate n
      (liveTail longDeployment (recovered longDeployment .l2 0 3).state .l2 c)) = [[some 2]] := by
    decide +kernel
  rw [stale, live] at is
  simp at is

theorem acks_routed_after_mid_failure :
    AcksRouted longDeployment (recovered longDeployment .l2 0 1).state :=
  (acks_routed_iff longGrid (by decide) (by decide) (.inr ⟨rfl, by decide, by decide⟩)).2.2.1
    ⟨rfl, by decide, fun _ => by decide⟩

end Main

end Cluster
end Shortstack
