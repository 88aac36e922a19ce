import Shortstack.HostInfo
import Shortstack.L1Proxy
import Shortstack.L2Column

/-! The L1 chains in front of the L2 columns. L1 workers are named by their number in the
tier, L2 workers by column and number. Every row of every L1 worker has one FIFO link to
every row of every L2 worker; a suffix of a link may be lost once one of its ends has
crashed. Acknowledgements of either tier from outside are arbitrary. -/
namespace Shortstack
open Transition

structure IngestConfig where
  l1 : L1Config
  l1Rows : ℕ
  l1Workers : List ℕ
  l1Idx : ℕ → ℕ → ℤ
  l2 : ℕ → ℕ → L2Config
  l2Rows : ℕ

/-- The worker of a row of an L2 column. -/
structure L2Target where
  column : ℕ
  worker : ℕ
  row : ℕ
  deriving DecidableEq, Repr

structure Ingest where
  l1 : ℕ → ChainNet L1State
  l2 : ℕ → L2Column ℕ
  link : ℕ → ℕ → L2Target → List L2Operation
  managerUp : Bool

/-- The random choices and the clock of one step of an L1 worker. -/
structure L1Oracle where
  pick : ℤ → ℕ
  clock : Option Int64

inductive IngestLabel
  | client (oracle : L1Oracle) (k row : ℕ) (op : L1Operation) (draws : ℕ → Draw)
  | l1 (oracle : L1Oracle) (k : ℕ) (label : NetLabel L1State)
  | ackL1 (oracle : L1Oracle) (k row : ℕ) (seqs : List SequenceId)
  | crashL1 (column row : ℕ)
  | deliver (ext : Outside L2Effect) (k row : ℕ) (x : L2Target)
  | lose (k row : ℕ) (x : L2Target) (kept : List L2Operation)
  | l2 (ext : Outside L2Effect) (column : ℕ) (label : L2Label ℕ)
  | reconnect (k row column newRow : ℕ)

structure IngestResult where
  state : Ingest
  sent : List (L2Sent ℕ)
  status : Status

/-- Column and position in it of the worker with a number, counting column by column. -/
def locate : List ℕ → ℕ → Option (ℕ × ℕ)
  | [], _ => none
  | n :: workers, k =>
    if k < n then some (0, k) else (locate workers (k - n)).map fun a => (a.1 + 1, a.2)

namespace Ingest
variable (cfg : IngestConfig) (s : Ingest)

/-- An L2 instance can be reached while it is alive. -/
def reach (column row : ℕ) : Bool := ((s.l2 column).net 0).alive row

def outside (clock : Option Int64) : Outside L1Effect where
  out e := ((s.l2 e.column).net e.worker).alive e.row
  clock := clock

/-- Put the operations sent by a row of an L1 worker on its links. -/
def forward (k row : ℕ) (outs : List L1Effect) : ℕ → ℕ → L2Target → List L2Operation :=
  fun a b x => if a = k ∧ b = row then
    s.link a b x ++ (outs.filter fun e => ⟨e.column, e.worker, e.row⟩ = x).map L1Effect.op
    else s.link a b x

def setLink (k row : ℕ) (x : L2Target) (ops : List L2Operation) :
    ℕ → ℕ → L2Target → List L2Operation :=
  fun a b c => if a = k ∧ b = row ∧ c = x then ops else s.link a b c

/-- Store an L1 chain after a step at one of its rows. -/
def absorb (k row : ℕ) (r : NetResult L1State L1Effect) : Ingest :=
  { s with l1 := Function.update s.l1 k r.net, link := s.forward k row r.outs }

def callbacks (oracle : L1Oracle) : Callbacks L1State L1Effect :=
  L1Proxy.callbacks cfg.l1 oracle.pick s.reach

/-- The manager gives up when a replica it made tail cannot connect to the L2 tier. -/
def survives (k : ℕ) : NetLabel L1State → Bool
  | .setup i =>
    !(((s.l1 k).survivorRole i).isTail && (((s.l1 k).node i).user.l2Iface).isNone &&
      L1Proxy.connectFails cfg.l1 s.reach)
  | _ => true

/-- Steps of the manager after `setup_chain`. -/
def afterSetup {σ : Type} : NetLabel σ → Bool
  | .fetch _ | .resend _ => true
  | _ => false

def step : IngestLabel → Option IngestResult
  | .client oracle k row op draws =>
    let net := s.l1 k
    if net.alive row then
      let m := net.node row
      let r := net.finish row (L1Proxy.processOp cfg.l1 oracle.pick s.reach
        (net.env (s.outside oracle.clock) m) m op draws)
      some ⟨s.absorb k row r, [], r.status⟩
    else none
  | .l1 oracle k label =>
    if label.internal && (s.managerUp || !afterSetup label) then
      ((s.l1 k).step (s.callbacks cfg oracle) (s.outside oracle.clock) label).map fun r =>
        ⟨{ s.absorb k (label.row (s.l1 k).acks) r with
          managerUp := s.managerUp && s.survives cfg k label }, [], r.status⟩
    else none
  | .ackL1 oracle k row seqs =>
    let net := s.l1 k
    if net.alive row then
      let m := net.node row
      let r := net.finish row (L1Proxy.externalAckBatch cfg.l1 (s.callbacks cfg oracle)
        (net.env (s.outside oracle.clock) m) m seqs)
      some ⟨s.absorb k row r, [], r.status⟩
    else none
  | .crashL1 column row =>
    some ⟨{ s with l1 := fun k => if (locate cfg.l1Workers k).map Prod.fst = some column then
      (s.l1 k).fail row else s.l1 k }, [], .returned⟩
  | .deliver ext k row x =>
    match s.link k row x with
    | [] => none
    | op :: rest =>
      ((s.l2 x.column).step (cfg.l2 x.column) ext (.request x.worker x.row op)).map fun r =>
        ⟨{ s with l2 := Function.update s.l2 x.column r.column, link := s.setLink k row x rest },
          r.sent, r.status⟩
  | .lose k row x kept =>
    if (!(s.l1 k).alive row || !((s.l2 x.column).net x.worker).alive x.row) &&
        kept.isPrefixOf (s.link k row x) then
      some ⟨{ s with link := s.setLink k row x kept }, [], .returned⟩
    else none
  | .l2 ext column label =>
    match label with
    | .request .. => none
    | label => ((s.l2 column).step (cfg.l2 column) ext label).map fun r =>
      ⟨{ s with l2 := Function.update s.l2 column r.column }, r.sent, r.status⟩
  | .reconnect k row column newRow =>
    let net := s.l1 k
    if s.managerUp && net.alive row then
      let r := net.finish row
        (L1Proxy.updateConnections cfg.l1 s.reach (net.node row) column newRow)
      some ⟨{ s.absorb k row r with managerUp := decide (r.status = .returned) }, [], r.status⟩
    else none

/-- Both tiers as `init_proxy` leaves them, with all instances up. -/
def start : Ingest where
  l1 k := ChainNet.start (L1Proxy.callbacks cfg.l1 (fun _ => 0) fun _ row => decide (row < cfg.l2Rows))
    (if k < cfg.l1Workers.sum then cfg.l1Rows else 0)
    (fun row => L1Proxy.initState (cfg.l1Idx k row)) fun _ => cfg.l1.ackBatchSize
  l2 c := L2Column.start (cfg.l2 c) cfg.l2Rows
  link _ _ _ := []
  managerUp := true

end Ingest

def ingestSystem (cfg : IngestConfig) : System Ingest IngestLabel where
  init s := s = Ingest.start cfg
  step s l := (s.step cfg l).map IngestResult.state

end Shortstack
