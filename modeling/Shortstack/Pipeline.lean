import Shortstack.Ingest
import Shortstack.Storage

/-! The three tiers in front of the stores. Operations travel from the L2 tier to the L3 tier
on one FIFO link for each pair of workers, acknowledgements travel back in batches; both may
be lost once one of their ends has crashed. The steps of the manager are separate steps at
each worker. The field `responses` is a history variable. -/
namespace Shortstack
open Transition

structure PipelineConfig extends IngestConfig where
  l3 : L3Config
  l3Workers : List ℕ
  server : ℕ → ℕ
  initialKv : ℕ → Kv

/-- Acknowledgements on their way to a worker of the L2 tier, or of the L1 tier. -/
structure L2AckMessage where
  src : ℕ × ℕ
  dst : L2Target
  seqs : List SequenceId
  deriving DecidableEq, Repr

structure L1AckMessage where
  src : L2Target
  dst : ℕ
  row : ℕ
  seqs : List SequenceId
  deriving DecidableEq, Repr

structure Pipeline where
  ingest : Ingest
  l3 : ℕ × ℕ → L3Worker
  l3Alive : ℕ → Bool
  link : L2Target → ℕ × ℕ → List L3Operation
  l2Acks : List L2AckMessage
  l1Acks : List L1AckMessage
  kv : ℕ → Kv
  responses : List ClientResponse

/-- The steps of an L3 worker and of its store. -/
inductive L3Label
  | serveGet
  | getReply
  | crypto
  | servePut
  | putReply
  | respond
  deriving DecidableEq, Repr

inductive PipelineLabel
  | client (oracle : L1Oracle) (k row : ℕ) (op : L1Operation) (draws : ℕ → Draw)
  | l1 (oracle : L1Oracle) (k : ℕ) (label : NetLabel L1State)
  | crashL1 (column row : ℕ)
  | l2Request (clock : Option Int64) (k row : ℕ) (x : L2Target)
  | loseL2 (k row : ℕ) (x : L2Target) (kept : List L2Operation)
  | l2 (clock : Option Int64) (column : ℕ) (label : L2Label ℕ)
  | reconnect (k row column newRow : ℕ)
  | l3Request (clock : Option Int64) (x : L2Target) (y : ℕ × ℕ)
  | loseL3 (x : L2Target) (y : ℕ × ℕ) (kept : List L3Operation)
  | l3 (clock : Option Int64) (y : ℕ × ℕ) (label : L3Label)
  | crashL3 (column : ℕ)
  | l2Ack (clock : Option Int64) (n : ℕ)
  | loseL2Ack (n : ℕ)
  | l1Ack (oracle : L1Oracle) (n : ℕ)
  | loseL1Ack (n : ℕ)
  | removeL3 (x : L2Target) (column : ℕ)
  | selectiveResend (clock : Option Int64) (x : L2Target) (column numColumns : ℕ) (ops : List ChainOp)
  | connectL1Acks (x : L2Target) (column row : ℕ)
  | connectL2Acks (y : ℕ × ℕ) (column row : ℕ)

structure PipelineResult where
  state : Pipeline
  status : Status

namespace Pipeline
variable (cfg : PipelineConfig) (s : Pipeline)

/-- What an L2 worker can reach: the L3 tier, and the L1 tier for acknowledgements. -/
def outside (clock : Option Int64) : Outside L2Effect where
  out
    | .forward column _ _ _ _ => s.l3Alive column
    | .ackL1 batch => (s.ingest.l1 batch.idx).alive batch.row
    | .populate _ _ _ => true
  clock := clock

/-- One message leaving an L2 column. -/
def post (column : ℕ) (s : Pipeline) (m : L2Sent ℕ) : Pipeline :=
  match m.message with
  | .request c k op =>
    { s with link := fun x y =>
        if x = ⟨column, m.worker, m.row⟩ ∧ y = (c, k) then s.link x y ++ [op] else s.link x y }
  | .ack batch =>
    { s with
      l1Acks := s.l1Acks ++ [⟨⟨column, m.worker, m.row⟩, batch.idx, batch.row, batch.seqs⟩] }

/-- Take over the L1 and L2 tiers after one of their steps. -/
def absorb (column : ℕ) (r : IngestResult) : PipelineResult :=
  ⟨r.sent.foldl (post column) { s with ingest := r.state }, r.status⟩

def ingestStep (column : ℕ) (label : IngestLabel) : Option PipelineResult :=
  (s.ingest.step cfg.toIngestConfig label).map (s.absorb column)

/-- A call of the manager at one row of an L2 worker. -/
def callL2 (x : L2Target) (o : Outcome (ChainModule L2State) (Send L2Effect)) :
    PipelineResult :=
  let col := s.ingest.l2 x.column
  let r := col.absorb (cfg.l2 x.column) x.worker x.row ((col.net x.worker).finish x.row o)
  s.absorb x.column
    ⟨{ s.ingest with l2 := Function.update s.ingest.l2 x.column r.column }, r.sent, r.status⟩

def setLink (x : L2Target) (y : ℕ × ℕ) (ops : List L3Operation) :
    L2Target → ℕ × ℕ → List L3Operation :=
  fun a b => if a = x ∧ b = y then ops else s.link a b

/-- Whether the L2 instance an acknowledgement leads to can be reached. -/
def ackUp (batch : AckBatch) : Bool :=
  match locate cfg.l3.l2Workers batch.idx with
  | some (c, w) => ((s.ingest.l2 c).net w).alive batch.row
  | none => false

def sendAcks (y : ℕ × ℕ) (batches : List AckBatch) : List L2AckMessage :=
  batches.filterMap fun b => (locate cfg.l3.l2Workers b.idx).map fun a =>
    ⟨y, ⟨a.1, a.2, b.row⟩, b.seqs⟩

def setWorker (y : ℕ × ℕ) (worker : L3Worker) : Pipeline :=
  { s with l3 := Function.update s.l3 y worker }

/-- Take over an L3 worker after a call, with the acknowledgements it has sent. -/
def finishL3 (y : ℕ × ℕ) (o : Outcome L3Worker AckBatch) : PipelineResult :=
  ⟨{ s.setWorker y o.state with l2Acks := s.l2Acks ++ sendAcks cfg y o.sent }, o.status⟩

/-- The steps of an L3 worker; a crashed one leaves its commands to the store. -/
def stepL3 (clock : Option Int64) (y : ℕ × ℕ) : L3Label → Option PipelineResult
  | .serveGet => ((s.l3 y).serveGet (s.kv (cfg.server y.1))).map fun worker =>
    ⟨s.setWorker y worker, .returned⟩
  | .servePut => ((s.l3 y).servePut (s.kv (cfg.server y.1))).map fun r =>
    ⟨{ s.setWorker y r.2 with kv := Function.update s.kv (cfg.server y.1) r.1 }, .returned⟩
  | .getReply => if s.l3Alive y.1 then
      ((s.l3 y).getCallback clock).map (s.finishL3 cfg y) else none
  | .crypto => if s.l3Alive y.1 then ((s.l3 y).cryptoRound cfg.l3 clock).map fun worker =>
      ⟨s.setWorker y worker, .returned⟩ else none
  | .putReply => if s.l3Alive y.1 then
      ((s.l3 y).putCallback cfg.l3 clock (s.ackUp cfg)).map (s.finishL3 cfg y) else none
  | .respond => if s.l3Alive y.1 then ((s.l3 y).respond cfg.l3).map fun r =>
      ⟨{ s.setWorker y r.2 with responses := s.responses ++ [r.1] }, .returned⟩ else none

def step : PipelineLabel → Option PipelineResult
  | .client oracle k row op draws => s.ingestStep cfg 0 (.client oracle k row op draws)
  | .l1 oracle k label => s.ingestStep cfg 0 (.l1 oracle k label)
  | .crashL1 column row => s.ingestStep cfg 0 (.crashL1 column row)
  | .l2Request clock k row x => s.ingestStep cfg x.column (.deliver (s.outside clock) k row x)
  | .loseL2 k row x kept => s.ingestStep cfg 0 (.lose k row x kept)
  | .l2 clock column label =>
    match label with
    | .externalAck .. => none
    | label => s.ingestStep cfg column (.l2 (s.outside clock) column label)
  | .reconnect k row column newRow => s.ingestStep cfg 0 (.reconnect k row column newRow)
  | .l3Request clock x y =>
    match s.link x y with
    | [] => none
    | op :: rest => if s.l3Alive y.1 then
        some ({ s with link := s.setLink x y rest }.finishL3 cfg y
          ((s.l3 y).asyncOperation cfg.l3 clock op)) else none
  | .loseL3 x y kept =>
    if (!((s.ingest.l2 x.column).net x.worker).alive x.row || !s.l3Alive y.1) &&
        kept.isPrefixOf (s.link x y) then
      some ⟨{ s with link := s.setLink x y kept }, .returned⟩ else none
  | .l3 clock y label => s.stepL3 cfg clock y label
  | .crashL3 column => some ⟨{ s with l3Alive := Function.update s.l3Alive column false }, .returned⟩
  | .l2Ack clock n =>
    match s.l2Acks[n]? with
    | none => none
    | some a => { s with l2Acks := s.l2Acks.eraseIdx n }.ingestStep cfg a.dst.column
        (.l2 (s.outside clock) a.dst.column (.externalAck a.dst.worker a.dst.row a.seqs))
  | .loseL2Ack n =>
    match s.l2Acks[n]? with
    | none => none
    | some a => if !s.l3Alive a.src.1 ||
          !((s.ingest.l2 a.dst.column).net a.dst.worker).alive a.dst.row then
        some ⟨{ s with l2Acks := s.l2Acks.eraseIdx n }, .returned⟩ else none
  | .l1Ack oracle n =>
    match s.l1Acks[n]? with
    | none => none
    | some a => { s with l1Acks := s.l1Acks.eraseIdx n }.ingestStep cfg 0
        (.ackL1 oracle a.dst a.row a.seqs)
  | .loseL1Ack n =>
    match s.l1Acks[n]? with
    | none => none
    | some a => if !((s.ingest.l2 a.src.column).net a.src.worker).alive a.src.row ||
          !(s.ingest.l1 a.dst).alive a.row then
        some ⟨{ s with l1Acks := s.l1Acks.eraseIdx n }, .returned⟩ else none
  | .removeL3 x column =>
    let net := (s.ingest.l2 x.column).net x.worker
    if net.alive x.row then
      some (s.callL2 cfg x (L2Proxy.removeConnection (net.node x.row) column)) else none
  | .selectiveResend clock x column numColumns ops =>
    let net := (s.ingest.l2 x.column).net x.worker
    let m := net.node x.row
    if net.alive x.row && decide (ops.Perm (m.pending.entries.map fun e => e.2)) then
      some (s.callL2 cfg x (L2Proxy.selectiveResendPending (cfg.l2 x.column x.worker)
        (net.env (s.outside clock) m) m column numColumns ops)) else none
  | .connectL1Acks x column row =>
    let net := (s.ingest.l2 x.column).net x.worker
    if net.alive x.row then
      some (s.callL2 cfg x (L2Proxy.connectAcks (net.node x.row) column row
        ((cfg.l1Workers[column]?).getD 0))) else none
  | .connectL2Acks y column row =>
    if s.l3Alive y.1 then
      some ⟨s.setWorker y ((s.l3 y).updateConnections column row
        ((cfg.l3.l2Workers[column]?).getD 0)), .returned⟩ else none

/-- All tiers as `init_proxy` leaves them. -/
def start : Pipeline where
  ingest := Ingest.start cfg.toIngestConfig
  l3 _ := L3Worker.initState cfg.l3
  l3Alive column := decide (column < cfg.l3Workers.length)
  link _ _ := []
  l2Acks := []
  l1Acks := []
  kv := cfg.initialKv
  responses := []

end Pipeline

def pipelineSystem (cfg : PipelineConfig) : System Pipeline PipelineLabel where
  init s := s = Pipeline.start cfg
  step s l := (s.step cfg l).map PipelineResult.state

end Shortstack
