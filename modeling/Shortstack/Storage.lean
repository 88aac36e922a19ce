import Shortstack.L3Proxy

/-! An L3 worker and its store. Every accepted operation reads its label, and writes it back
with the value that came along or, without one, with the value it has read. The two storage
interfaces of a worker have one connection each, on which the store answers in order;
reads wait in a queue until it is full, writes are flushed after each batch of answers. -/
namespace Shortstack

/-- An operation with the value written back for it. -/
structure L3Write where
  op : L3Operation
  plaintext : String
  cipher : String
  deriving DecidableEq, Repr

inductive OpCode
  | get
  | put
  deriving DecidableEq, Repr

structure ClientResponse where
  seqId : SequenceId
  opCode : OpCode
  result : String
  deriving DecidableEq, Repr

structure L3Config where
  storageBatchSize : ℤ
  ackBatchSize : ℤ
  ackDelivery : Bool
  respDelivery : Bool
  encryptionEnabled : Bool
  encrypt : String → String
  decrypt : String → String
  l2Workers : List ℕ

/-- The labels and ciphertexts a store holds. -/
abbrev Kv := String → Option String

/-- The fields `mgets` to `putReplies` are what is under way between the worker and its
store: commands not served yet, and answers not handled yet. -/
structure L3Worker where
  filter : L3State
  getQueue : List L3Operation
  mgets : List (List L3Operation)
  getReplies : List (List (L3Operation × Option String))
  cryptoQueue : List (List (L3Operation × String))
  msets : List (List L3Write)
  putReplies : List (List L3Write)
  respondQueue : List ClientResponse
  ackIface : ReverseConnector
  deriving DecidableEq, Repr

/-- Queue a request and take the whole queue as a batch once it is full. -/
def enqueue {α : Type} (batchSize : ℤ) (queue : List α) (a : α) : List α × List (List α) :=
  if sizeAtLeast (queue ++ [a]).length batchSize then ([], [queue ++ [a]]) else (queue ++ [a], [])

/-- `flush` sends what is queued, if there is anything. -/
def flush {α : Type} (queue : List α) : List (List α) := if queue.isEmpty then [] else [queue]

/-- Queue one request after the other, and flush. -/
def enqueueAll {α : Type} (batchSize : ℤ) : List α → List α → List (List α)
  | queue, [] => flush queue
  | queue, a :: rest =>
    let (queue, batches) := enqueue batchSize queue a
    batches ++ enqueueAll batchSize queue rest

namespace L3Worker
variable (cfg : L3Config)

def fakeClientId : Int64 := -1995

def initState : L3Worker where
  filter := L3Proxy.initState cfg.l2Workers.sum
  getQueue := []
  mgets := []
  getReplies := []
  cryptoQueue := []
  msets := []
  putReplies := []
  respondQueue := []
  ackIface := ReverseConnector.new cfg.l2Workers cfg.ackBatchSize

/-- The statistics of one stage: the time since the last one. -/
def elapsed (clock : Option Int64) (op : L3Operation) : L3Operation :=
  match clock with
  | some now => { op with
      seqId := { op.seqId with
        ts := some now
        diag := some (op.seqId.diag.getD "" ++ toString (now - op.seqId.ts.getD 0) ++ ",") } }
  | none => op

def arrived (clock : Option Int64) (op : L3Operation) : L3Operation :=
  match clock with
  | some now => { op with seqId := { op.seqId with ts := some now } }
  | none => op

def asyncGet (s : L3Worker) (op : L3Operation) : L3Worker :=
  let (queue, batches) := enqueue cfg.storageBatchSize s.getQueue op
  { s with getQueue := queue, mgets := s.mgets ++ batches }

/-- `async_operation`: the filter and, for what passes it, a read of the label. -/
def asyncOperation (clock : Option Int64) (s : L3Worker) (op : L3Operation) :
    Outcome L3Worker AckBatch :=
  let r := L3Proxy.asyncOperation clock s.filter op
  match r.status with
  | .returned => .done ({ s with filter := r.state }.asyncGet cfg (arrived clock op))
  | status => ⟨{ s with filter := r.state }, [], status⟩

/-- The store serves the oldest `MGET`. -/
def serveGet (kv : Kv) (s : L3Worker) : Option L3Worker :=
  match s.mgets with
  | [] => none
  | ops :: rest => some
    { s with
      mgets := rest
      getReplies := s.getReplies ++ [ops.map fun op => (op, kv op.label)] }

/-- The callback of an `MGET`: a label without a value raises. -/
def getCallback (clock : Option Int64) (s : L3Worker) : Option (Outcome L3Worker AckBatch) :=
  match s.getReplies with
  | [] => none
  | reply :: rest =>
    match reply.mapM fun e => e.2.map fun value => (elapsed clock e.1, value) with
    | some batch => some
      (.done { s with getReplies := rest, cryptoQueue := s.cryptoQueue ++ [batch] })
    | none => some (.raise { s with getReplies := rest } "GET returned NULL value")

/-- What is written back for a label that was read. -/
def writeBack (clock : Option Int64) (op : L3Operation) (cipher : String) : L3Write :=
  let plaintext := if op.value != "" then op.value
    else if cfg.encryptionEnabled then cfg.decrypt cipher else cipher
  ⟨elapsed clock (elapsed clock op), plaintext,
    if cfg.encryptionEnabled then cfg.encrypt plaintext else plaintext⟩

/-- One round of `crypto_thread`. -/
def cryptoRound (clock : Option Int64) (s : L3Worker) : Option L3Worker :=
  match s.cryptoQueue with
  | [] => none
  | batch :: rest => some
    { s with
      cryptoQueue := rest
      msets := s.msets ++ enqueueAll cfg.storageBatchSize []
        (batch.map fun e => writeBack cfg clock e.1 e.2) }

/-- The store serves the oldest `MSET`. -/
def servePut (kv : Kv) (s : L3Worker) : Option (Kv × L3Worker) :=
  match s.msets with
  | [] => none
  | writes :: rest => some
    (writes.foldl (fun kv e => Function.update kv e.op.label (some e.cipher)) kv,
      { s with msets := rest, putReplies := s.putReplies ++ [writes] })

def response (clock : Option Int64) (e : L3Write) : ClientResponse where
  seqId := (elapsed clock e.op).seqId
  opCode := if e.op.isRead then .get else .put
  result := if e.op.isRead then e.plaintext else ""

/-- The callback of an `MSET` for one operation: a response to the client of a real one, and
an acknowledgement. -/
def completeOne (clock : Option Int64) (up : AckBatch → Bool) (s : L3Worker) (e : L3Write) :
    Outcome L3Worker AckBatch :=
  let s := if e.op.seqId.clientId ≠ fakeClientId then
    { s with respondQueue := s.respondQueue ++ [response clock e] } else s
  if cfg.ackDelivery then
    (s.ackIface.sendAck up e.op.seqId.l2Idx e.op.seqId).embed
      (fun rc => { s with ackIface := rc }) id
  else .done s

def putCallback (clock : Option Int64) (up : AckBatch → Bool) (s : L3Worker) :
    Option (Outcome L3Worker AckBatch) :=
  match s.putReplies with
  | [] => none
  | writes :: rest => some
    (Outcome.forEach (completeOne cfg clock up) writes { s with putReplies := rest })

/-- One round of `responder_thread`. -/
def respond (s : L3Worker) : Option (ClientResponse × L3Worker) :=
  match s.respondQueue with
  | [] => none
  | r :: rest => some (if cfg.respDelivery then r else { r with result := "" },
    { s with respondQueue := rest })

def updateConnections (s : L3Worker) (column row numWorkers : ℕ) : L3Worker :=
  { s with ackIface := s.ackIface.updateConnections column row numWorkers }

end L3Worker
end Shortstack
