import Shortstack.ClientHistory
import Shortstack.KvConnections

/-! The Pancake proxy that is one process: its workers share an update cache and nothing else.
A worker fills a security batch for each client request and sends the batch to the store, reads
first; what was read is encrypted again and written back. Every worker has a thread for requests,
one for encryption and one for responses, and callbacks for the replies of the store, and the
update cache is used once for each half of `process_l2`. -/
namespace Shortstack
open Linearizability Transition

structure PProxyConfig where
  keyToNumberOfReplicas : AList (fun _ : String => ℤ)
  counts : IntCounts keyToNumberOfReplicas
  replicaToLabel : AList (fun _ : String => ℕ)
  securityBatchSize : ℤ
  storageBatchSize : ℤ
  kvHosts : ℕ
  encrypt : String → String
  decrypt : String → String
  updateCacheEnabled : Bool := true
  encryptionEnabled : Bool := true
  respDelivery : Bool := true

/-- What the slots of a batch are filled from. -/
def PProxyConfig.slots (cfg : PProxyConfig) : L1Config where
  dummyKey := ""
  keyToNumberOfReplicas := cfg.keyToNumberOfReplicas
  counts := cfg.counts
  securityBatchSize := cfg.securityBatchSize
  disableAllFalse := false
  ackBatchSize := 0
  l2Workers := []

/-- A worker. The batch that `process_op` sends is part of its state, with whether
`process_l2` has been through the update cache for the first operation of it. -/
structure PProxyWorker where
  internalQueue : List L1Operation
  batch : List L2Operation
  updated : Bool
  storageIface : Connections L3Operation (List (L3Operation × Option String))
  cryptoQueue : List (List (L3Operation × String))
  storageIface2 : Connections L3Write (List L3Write)
  respondQueue : List ClientResponse
  deriving DecidableEq, Repr

namespace PProxy
variable (cfg : PProxyConfig)

def fakeClientId : Int64 := -1995

def initState : PProxyWorker where
  internalQueue := []
  batch := []
  updated := false
  storageIface := .connect cfg.kvHosts
  cryptoQueue := []
  storageIface2 := .connect cfg.kvHosts
  respondQueue := []

/-- The slots of a batch are those of the L1 proxy, and all coins may come up false. -/
def createSecurityBatch (draws : ℕ → Draw) (queue : List L1Operation) :
    List L1Operation × Except String (List L2Operation) :=
  L1Proxy.fillBatch cfg.slots (L1Proxy.rounds cfg.slots draws) queue []

/-- `process_op` up to the loop over the batch. -/
def processOp (s : PProxyWorker) (op : L1Operation) (draws : ℕ → Draw) :
    Outcome PProxyWorker ClientResponse :=
  match createSecurityBatch cfg draws (s.internalQueue ++ [op]) with
  | (queue, .error e) => .raise { s with internalQueue := queue } e
  | (queue, .ok batch) => .done { s with internalQueue := queue, batch := batch, updated := false }

/-- An exception in `process_l2` ends the loop over the batch. -/
def abandon (s : PProxyWorker) : PProxyWorker := { s with batch := [], updated := false }

/-- `process_l2`, first half: a value is put into the update cache. -/
def updateCache (cache : UpdateCache) (s : PProxyWorker) :
    Option (UpdateCache × Outcome PProxyWorker ClientResponse) :=
  match s.batch, s.updated with
  | op :: _, false =>
    match cfg.keyToNumberOfReplicas.lookup op.key with
    | none => some (cache, .raise (abandon s) "Key not found")
    | some replicas => some
      (if cfg.updateCacheEnabled && op.value != "" then
        cache.populateReplicaUpdates op.key op.value replicas else cache,
        .done { s with updated := true })
  | _, _ => none

/-- What is sent to the store for an operation. -/
def l3Operation (cache : UpdateCache) (op : L2Operation) (label : ℕ) : L3Operation where
  seqId := op.seqId
  label := toString label
  value := if cfg.updateCacheEnabled then cache.checkForUpdateImmutable op.key op.replica.toInt
    else op.value
  isRead := op.value == ""
  dedup := false

/-- `process_l2`, second half: the value its replica has to receive, and a read of its label. -/
def processL2 (cache : UpdateCache) (s : PProxyWorker) :
    Option (Outcome PProxyWorker ClientResponse) :=
  match s.batch, s.updated with
  | op :: rest, true =>
    match cfg.replicaToLabel.lookup (op.key ++ toString op.replica) with
    | none => some (.raise (abandon s) "Replica not found in label map")
    | some label => some (.done
      { s with
        batch := rest
        updated := false
        storageIface := s.storageIface.submit cfg.storageBatchSize L3Operation.label
          (l3Operation cfg cache op label) })
  | _, _ => none

/-- A server answers the oldest `MGET` of a worker. -/
def serveGet (kv : Kv) (s : PProxyWorker) (i : ℕ) : Option PProxyWorker :=
  (s.storageIface.serve (fun ops => ops.map fun op => (op, kv op.label)) i).map fun r =>
    { s with storageIface := r.2 }

/-- `get_cb`; a label without a value raises before it. -/
def getCallback (s : PProxyWorker) (i : ℕ) : Option (Outcome PProxyWorker ClientResponse) :=
  match s.storageIface.takeReply i with
  | none => none
  | some (reply, storageIface) =>
    match reply.mapM fun e => e.2.map fun value => (e.1, value) with
    | some batch => some (.done
      { s with storageIface := storageIface, cryptoQueue := s.cryptoQueue ++ [batch] })
    | none => some (.raise { s with storageIface := storageIface } "GET returned NULL value")

def plaintext (cipher : String) : String :=
  if cfg.encryptionEnabled then cfg.decrypt cipher else cipher

/-- What is written back for a label that was read. -/
def writeBack (op : L3Operation) (cipher : String) : L3Write :=
  let plaintext := if op.value != "" then op.value else plaintext cfg cipher
  ⟨op, plaintext, if cfg.encryptionEnabled then cfg.encrypt plaintext else plaintext⟩

/-- The batch size of the interface that writes. -/
def writeBatchSize : ℤ := 10000000

/-- One round of `crypto_thread`. Batches from callbacks of different connections leave the queue
in any order. -/
def cryptoRound (s : PProxyWorker) (n : ℕ) : Option PProxyWorker :=
  match s.cryptoQueue[n]? with
  | none => none
  | some batch => some
    { s with
      cryptoQueue := s.cryptoQueue.eraseIdx n
      storageIface2 := Connections.flush
        ((batch.map fun e => writeBack cfg e.1 e.2).foldl
          (Connections.submit writeBatchSize fun e => e.op.label) s.storageIface2) }

/-- A server carries out the oldest `MSET` of a worker. -/
def servePut (kv : Kv) (s : PProxyWorker) (i : ℕ) : Option (Kv × PProxyWorker) :=
  (s.storageIface2.serve id i).map fun r =>
    (r.1.foldl (fun kv e => Function.update kv e.op.label (some e.cipher)) kv,
      { s with storageIface2 := r.2 })

def response (e : L3Write) : ClientResponse where
  seqId := e.op.seqId
  opCode := if e.op.isRead then .get else .put
  result := if e.op.isRead then e.plaintext else ""

/-- `put_cb`: responses for the operations of clients. -/
def putCallback (s : PProxyWorker) (i : ℕ) : Option PProxyWorker :=
  (s.storageIface2.takeReply i).map fun r =>
    { s with
      storageIface2 := r.2
      respondQueue := s.respondQueue ++
        (r.1.filter fun e => e.op.seqId.clientId ≠ fakeClientId).map response }

/-- One round of `responder_thread`. Callbacks of several connections push responses, so that the
next one to go may be any. -/
def respond (s : PProxyWorker) (n : ℕ) : Option (ClientResponse × PProxyWorker) :=
  match s.respondQueue[n]? with
  | none => none
  | some r => some (if cfg.respDelivery then r else { r with result := "" },
    { s with respondQueue := s.respondQueue.eraseIdx n })

end PProxy

/-- The process, with the servers of the store. -/
structure PProxyServer where
  cache : UpdateCache
  workers : ℕ → PProxyWorker
  kv : ℕ → Kv

/-- A step of one worker, or of a server of the store with a worker. -/
inductive PProxyStep
  | request (seq : SequenceId) (r : ClientRequest) (draws : ℕ → Draw)
  | update
  | lookup
  | serveGet (server : ℕ)
  | getReply (server : ℕ)
  | crypto (n : ℕ)
  | servePut (server : ℕ)
  | putReply (server : ℕ)
  | respond (n : ℕ)

structure PProxyLabel where
  worker : ℕ
  step : PProxyStep

namespace PProxyServer
variable (cfg : PProxyConfig)

/-- All workers are connected to all servers, which hold what the initializer left there. -/
def start (kv : ℕ → Kv) : PProxyServer := ⟨∅, fun _ => PProxy.initState cfg, kv⟩

def withWorker (s : PProxyServer) (x : ℕ) (w : PProxyWorker) : PProxyServer :=
  { s with workers := Function.update s.workers x w }

/-- A request is handled when the loop over the last batch is at its end. -/
def step (s : PProxyServer) (label : PProxyLabel) : Option PProxyServer :=
  let x := label.worker
  let w := s.workers x
  match label.step with
  | .request seq r draws =>
    if w.batch = [] then some (s.withWorker x (PProxy.processOp cfg w (r.operation seq) draws).state)
    else none
  | .update => (PProxy.updateCache cfg s.cache w).map fun r =>
    { s.withWorker x r.2.state with cache := r.1 }
  | .lookup => (PProxy.processL2 cfg s.cache w).map fun o => s.withWorker x o.state
  | .serveGet i => (PProxy.serveGet (s.kv i) w i).map (s.withWorker x)
  | .getReply i => (PProxy.getCallback w i).map fun o => s.withWorker x o.state
  | .crypto n => (PProxy.cryptoRound cfg w n).map (s.withWorker x)
  | .servePut i => (PProxy.servePut (s.kv i) w i).map fun r =>
    { s.withWorker x r.2 with kv := Function.update s.kv i r.1 }
  | .putReply i => (PProxy.putCallback w i).map (s.withWorker x)
  | .respond n => (PProxy.respond cfg w n).map fun r => s.withWorker x r.2

/-- What the clients see of a step. -/
def events (s : PProxyServer) (label : PProxyLabel) : List ClientEvent :=
  match label.step with
  | .request seq r _ => [.invoke seq.client r]
  | .respond n =>
    match PProxy.respond cfg (s.workers label.worker) n with
    | some (r, _) => [.respond r.seqId.client (r.opCode, r.result)]
    | none => []
  | _ => []

def system (kv : ℕ → Kv) : System PProxyServer PProxyLabel where
  init s := s = start cfg kv
  step := step cfg

/-- The process with the history of its clients. -/
def clientSystem (kv : ℕ → Kv) : System (PProxyServer × List ClientEvent) PProxyLabel :=
  record (system cfg kv) (events cfg)

/-- Steps of clients that give their requests different numbers. -/
def serves (x : PProxyServer × List ClientEvent) (label : PProxyLabel) : Prop :=
  match label.step with
  | .request seq _ _ => seq.clientId ≠ PProxy.fakeClientId ∧
    seq.client ∉ (invocations x.2).map Prod.fst
  | _ => True

end PProxyServer
end Shortstack
