import Shortstack.Deployment

/-! The manager that repairs the tiers after a failure. It only knows the hosts file, so
the calls it makes for a failed instance do not depend on earlier failures. A call to an
instance that is down, or that makes an instance connect to one that is down, raises and
ends the repair. -/
namespace Shortstack
open HostInfo

/-- A remote call of the manager, made for all workers of an instance. -/
inductive ManagerCall
  | crash (h : Host)
  | setupChain (h : Host) (role : ChainRole) (next : Option Host)
  | resendPending (h : Host) (next : Option Host)
  | updateConnections (h : Host) (type : HostType) (column : ℕ) (target : Option Host)
  | selectiveResendPending (h : Host) (column numColumns : ℕ)
  deriving DecidableEq, Repr

/-- The instance whose workers execute the call. -/
def ManagerCall.host : ManagerCall → Host
  | .crash h | .setupChain h .. | .resendPending h _ | .updateConnections h ..
  | .selectiveResendPending h .. => h

/-- The calls `fail_node` makes, and the error it ends with if none of them raises. -/
structure RepairPlan where
  calls : List ManagerCall
  error : Option String := none
  deriving DecidableEq, Repr

namespace ProxyManager
variable (hosts : HostInfo)

def getIdx (h : Host) (replicas : List Host) : Option ℕ :=
  replicas.findIdx? fun e => e.instanceName = h.instanceName

/-- Give the replica before the failed one its new role and successor. -/
def relinkCalls (replicas fixedReplicas : List Host) (idx : ℕ) : List ManagerCall :=
  match replicas[idx - 1]? with
  | none => []
  | some prev =>
    match getIdx prev fixedReplicas with
    | none => []
    | some prevIdx =>
      let role := if fixedReplicas.length = 1 then .singleton
        else if prevIdx = 0 then .head
        else if prevIdx = fixedReplicas.length - 1 then .tail
        else .mid
      let next := if prevIdx = fixedReplicas.length - 1 then none else fixedReplicas[prevIdx + 1]?
      [.setupChain prev role next, .resendPending prev next]

/-- The last replica of every column of a tier. -/
def tails (t : HostType) : List Host :=
  (List.range (getNumColumns hosts t false)).filterMap fun c => (getReplicas hosts t c).getLast?

/-- The first replica of every column of a tier. -/
def heads (t : HostType) : List Host :=
  (List.range (getNumColumns hosts t false)).filterMap fun c => (getReplicas hosts t c).head?

/-- The L2 head has failed: the next replica becomes head, and the L1 tails send to it. -/
def promoteCalls (fixedReplicas : List Host) : RepairPlan :=
  match fixedReplicas with
  | [] => ⟨[], some "Assertion failed: fixed_replicas.size() >= 1"⟩
  | newHead :: rest =>
    ⟨.setupChain newHead (if rest = [] then .singleton else .head) rest.head? ::
      ((tails hosts .l1).map fun l1Tail =>
        .updateConnections l1Tail .l2 newHead.column (some newHead)) ++
      (tails hosts .l1).map fun l1Tail => .resendPending l1Tail none, none⟩

def failL3Calls (column : ℕ) : List ManagerCall :=
  ((tails hosts .l2).map fun l2Tail => .updateConnections l2Tail .l3 column none) ++
    (tails hosts .l2).map fun l2Tail =>
      .selectiveResendPending l2Tail column (getNumColumns hosts .l3 false)

/-- `fail_node`. -/
def failNode (name : String) : RepairPlan :=
  match getHost hosts name with
  | none => ⟨[], some "Invalid instance name"⟩
  | some failed =>
    let replicas := getReplicas hosts failed.type failed.column
    let fixedReplicas := replicas.filter fun e => e.instanceName ≠ failed.instanceName
    let rest : RepairPlan := match failed.type, getIdx failed replicas with
      | .l1, some idx => ⟨if 0 < idx then relinkCalls replicas fixedReplicas idx else [], none⟩
      | .l2, some idx => if 0 < idx then ⟨relinkCalls replicas fixedReplicas idx, none⟩
        else promoteCalls hosts fixedReplicas
      | .l3, _ => ⟨failL3Calls hosts failed.column, none⟩
      | .kv, _ => ⟨[], some "Not implemented"⟩
      | _, none => ⟨[], some "Assertion failed: idx != -1"⟩
    ⟨.crash failed :: rest.calls, rest.error⟩

/-- `setup_reverse_connections`. -/
def setupReverseConnections : List ManagerCall :=
  ((heads hosts .l3).flatMap fun l3 => (tails hosts .l2).mapIdx fun j l2Tail =>
    .updateConnections l3 .l2 j (some l2Tail)) ++
  (heads hosts .l2).flatMap fun l2Head => (tails hosts .l1).mapIdx fun j l1Tail =>
    .updateConnections l2Head .l1 j (some l1Tail)

end ProxyManager

/-- All workers of all instances, as far as the manager changes them. -/
structure Cluster where
  alive : Host → Bool
  l1 : Host → ℕ → ChainModule L1State
  l2 : Host → ℕ → ChainModule L2State
  l3Acks : Host → ℕ → ReverseConnector

namespace Cluster
variable (d : Deployment) (s : Cluster)

def up : Option Host → Bool
  | some h => s.alive h
  | none => true

/-- The first workers of an instance change, the others stay. -/
def onWorkers {α : Type} (f : Host → ℕ → α) (h : Host) (n : ℕ) (g : ℕ → α → α) : Host → ℕ → α :=
  Function.update f h fun w => if w < n then g w (f h w) else f h w

/-- How many workers a loop over the workers of an instance gets through. -/
def passed {α : Type} (f : Host → ℕ → α) (h : Host) (ok : α → Bool) : ℕ :=
  ((List.range h.numWorkers).takeWhile fun w => ok (f h w)).length

/-- An L2 instance can be reached while it is alive. -/
def reach (column row : ℕ) : Bool := (d.hostAt .l2 row column).any s.alive

/-- `chain_module::setup` at a worker: the role is taken before the connection to the
successor is opened, and nothing more happens if that fails. -/
def setupWorker {σ μ : Type} (cb : Callbacks σ μ) (role : ChainRole) (next : Option Host)
    (m : ChainModule σ) : ChainModule σ :=
  if s.up next then m.setup cb role (next.map Host.row) else { m with role := role, next := none }

def setupChain (h : Host) (role : ChainRole) (next : Option Host) : Cluster :=
  match h.type with
  | .l1 =>
    { s with
      l1 := onWorkers s.l1 h h.numWorkers fun _ => s.setupWorker
        (L1Proxy.callbacks d.l1Config (fun _ => 0) (s.reach d)) role next }
  | .l2 =>
    { s with
      l2 := onWorkers s.l2 h h.numWorkers fun w => s.setupWorker
        (L2Proxy.callbacks (d.l2Config h.column w)) role next }
  | .l3 | .kv => s

/-- `update_connections` at the workers of an instance, one after the other. -/
def updateConnections (h : Host) (type : HostType) (column : ℕ) (target : Option Host) :
    Cluster × Bool :=
  match h.type, type, target with
  | .l1, .l2, some target =>
    let update := fun m => L1Proxy.updateConnections d.l1Config (s.reach d) m column target.row
    let n := passed s.l1 h fun m => (update m).status == .returned
    ({ s with l1 := onWorkers s.l1 h n fun _ m => (update m).state }, n == h.numWorkers)
  | .l2, .l1, some target =>
    let update := fun m => L2Proxy.connectAcks m column target.row target.numWorkers
    let n := passed s.l2 h fun m => (update m).status == .returned && s.alive target
    ({ s with l2 := onWorkers s.l2 h n fun _ m => (update m).state }, n == h.numWorkers)
  | .l2, .l3, none =>
    let update := fun m => L2Proxy.removeConnection m column
    let n := passed s.l2 h fun m => (update m).status == .returned
    ({ s with l2 := onWorkers s.l2 h n fun _ m => (update m).state }, n == h.numWorkers)
  | .l3, .l2, some target =>
    let n := passed s.l3Acks h fun _ => s.alive target
    ({ s with
        l3Acks := onWorkers s.l3Acks h n fun _ rc =>
          rc.updateConnections column target.row target.numWorkers }, n == h.numWorkers)
  | _, _, _ => (s, h.numWorkers == 0)

/-- One call of the manager. -/
def call (s : Cluster) (c : ManagerCall) : Outcome Cluster ManagerCall :=
  if !s.alive c.host then ⟨s, [c], .raised "connection refused"⟩
  else match c with
    | .crash h => ⟨{ s with alive := Function.update s.alive h false }, [c], .returned⟩
    | .setupChain h role next =>
      ⟨s.setupChain d h role next, [c],
        if s.up next then .returned else .raised "connection refused"⟩
    | .resendPending _ next =>
      ⟨s, [c], if s.up next then .returned else .raised "connection refused"⟩
    | .updateConnections h type column target =>
      let (s, ok) := s.updateConnections d h type column target
      ⟨s, [c], if ok then .returned else .raised "Invalid update_connections call"⟩
    | .selectiveResendPending h _ _ =>
      ⟨s, [c], if passed s.l2 h ChainModule.isTail = h.numWorkers then .returned
        else .raised "selective_resend_pending called on non-tail node"⟩

/-- Execute calls in order up to the first that raises. -/
def execute (calls : List ManagerCall) : Outcome Cluster ManagerCall :=
  Outcome.forEach (call d) calls s

/-- `fail_node`, with the calls it has made. -/
def failNode (name : String) : Outcome Cluster ManagerCall :=
  let plan := ProxyManager.failNode d.hosts name
  (s.execute d plan.calls).andThen fun s =>
    match plan.error with
    | none => .done s
    | some e => .raise s e

/-- The role `init_proxy` takes from the replicas of the column. -/
def initRole (h : Host) : ChainRole :=
  let replicas := getReplicas d.hosts h.type h.column
  if replicas.length = 1 then .singleton
  else if replicas.head?.map Host.instanceName = some h.instanceName then .head
  else if replicas.getLast?.map Host.instanceName = some h.instanceName then .tail
  else .mid

/-- The successor `init_proxy` finds: the replica on the next row. -/
def initNext (h : Host) : Option ℕ :=
  ((getReplicas d.hosts h.type h.column).reverse.find? fun e => e.row = h.row + 1).map Host.row

/-- Every instance as `init_proxy` leaves it. -/
def start : Cluster where
  alive _ := true
  l1 h w :=
    let m : ChainModule L1State :=
      { user := L1Proxy.initState ((d.workerIdx .l1 h.row h.column w).getD 0)
        chainAckBatchSize := d.l1AckBatchSize }
    m.setup (L1Proxy.callbacks d.l1Config (fun _ => 0) fun _ _ => true) (initRole d h)
      (initNext d h)
  l2 h w :=
    let m : ChainModule L2State :=
      { user := L2Proxy.initState (d.l2Config h.column w)
        chainAckBatchSize := d.l2AckBatchSize }
    m.setup (L2Proxy.callbacks (d.l2Config h.column w)) (initRole d h) (initNext d h)
  l3Acks _ _ := ReverseConnector.new (firstReplicas d.hosts .l2) d.l3AckBatchSize

end Cluster
end Shortstack
