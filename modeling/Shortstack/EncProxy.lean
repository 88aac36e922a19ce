import Shortstack.ClientTickets
import Shortstack.KvConnections

/-! The proxy that only encrypts. Its workers share one server of the store: gets go there at
once, in batches, and puts are encrypted a batch at a time. Keys are stored as they are. -/
namespace Shortstack
open Linearizability Transition

structure EncProxyConfig where
  storageBatchSize : ℤ
  encrypt : String → String
  decrypt : String → String
  encryptionEnabled : Bool := true
  respDelivery : Bool := true

structure EncProxyWorker where
  internalQueue : List L3Operation
  encryptQueue : List (List L3Operation)
  storageIface : Connections L3Operation (List (L3Operation × Option String))
  decryptQueue : List (List (L3Operation × String))
  storageIface2 : Connections L3Write (List L3Write)
  respondQueue : List ClientResponse
  deriving DecidableEq, Repr

namespace EncProxy
variable (cfg : EncProxyConfig)

/-- Each interface is connected to the one server of the host. -/
def initState : EncProxyWorker := ⟨[], [], .connect 1, [], .connect 1, []⟩

def processOp (s : EncProxyWorker) (op : L1Operation) : EncProxyWorker :=
  if op.value != "" then
    let (queue, batches) :=
      enqueue cfg.storageBatchSize s.internalQueue ⟨op.seqId, op.key, op.value, false, false⟩
    { s with internalQueue := queue, encryptQueue := s.encryptQueue ++ batches }
  else
    { s with
      storageIface := s.storageIface.submit cfg.storageBatchSize L3Operation.label
        ⟨op.seqId, op.key, "", true, false⟩ }

def flush (s : EncProxyWorker) : EncProxyWorker := { s with storageIface := s.storageIface.flush }

def plaintext (cipher : String) : String :=
  if cfg.encryptionEnabled then cfg.decrypt cipher else cipher

def encrypted (op : L3Operation) : L3Write :=
  ⟨op, op.value, if cfg.encryptionEnabled then cfg.encrypt op.value else op.value⟩

/-- One round of `encrypt_thread`. -/
def encryptRound (s : EncProxyWorker) : Option EncProxyWorker :=
  match s.encryptQueue with
  | [] => none
  | batch :: rest => some
    { s with
      encryptQueue := rest
      storageIface2 := Connections.flush ((batch.map (encrypted cfg)).foldl
        (Connections.submit cfg.storageBatchSize fun e => e.op.label) s.storageIface2) }

/-- The server answers the oldest `MGET` of a worker. -/
def serveGet (kv : Kv) (s : EncProxyWorker) : Option EncProxyWorker :=
  (s.storageIface.serve (fun ops => ops.map fun op => (op, kv op.label)) 0).map fun r =>
    { s with storageIface := r.2 }

/-- The server carries out the oldest `MSET` of a worker. -/
def servePut (kv : Kv) (s : EncProxyWorker) : Option (Kv × EncProxyWorker) :=
  (s.storageIface2.serve id 0).map fun r =>
    (r.1.foldl (fun kv e => Function.update kv e.op.label (some e.cipher)) kv,
      { s with storageIface2 := r.2 })

/-- `get_cb`; a key without a value raises before it. -/
def getCallback (s : EncProxyWorker) : Option (Outcome EncProxyWorker ClientResponse) :=
  match s.storageIface.takeReply 0 with
  | none => none
  | some (reply, storageIface) =>
    match reply.mapM fun e => e.2.map fun value => (e.1, value) with
    | some batch => some (.done
      { s with storageIface := storageIface, decryptQueue := s.decryptQueue ++ [batch] })
    | none => some (.raise { s with storageIface := storageIface } "GET returned NULL value")

/-- One round of `decrypt_thread`. -/
def decryptRound (s : EncProxyWorker) : Option EncProxyWorker :=
  match s.decryptQueue with
  | [] => none
  | batch :: rest => some
    { s with
      decryptQueue := rest
      respondQueue := s.respondQueue ++ batch.map fun e => ⟨e.1.seqId, .get, plaintext cfg e.2⟩ }

/-- `put_cb`. -/
def putCallback (s : EncProxyWorker) : Option EncProxyWorker :=
  (s.storageIface2.takeReply 0).map fun r =>
    { s with
      storageIface2 := r.2
      respondQueue := s.respondQueue ++ r.1.map fun e => ⟨e.op.seqId, .put, ""⟩ }

/-- One round of `responder_thread`. The decryption thread and the callbacks push responses, so
that the next one to go may be any. -/
def respond (s : EncProxyWorker) (n : ℕ) : Option (ClientResponse × EncProxyWorker) :=
  match s.respondQueue[n]? with
  | none => none
  | some r => some (if cfg.respDelivery then r else { r with result := "" },
    { s with respondQueue := s.respondQueue.eraseIdx n })

end EncProxy

/-- The workers of a host and the server they use. -/
structure EncProxyServer where
  workers : ℕ → EncProxyWorker
  kv : Kv

inductive EncProxyStep
  | request (seq : SequenceId) (r : ClientRequest)
  | flush
  | encrypt
  | serveGet
  | servePut
  | getReply
  | putReply
  | decrypt
  | respond (n : ℕ)
  deriving DecidableEq, Repr

structure EncProxyLabel where
  worker : ℕ
  step : EncProxyStep
  deriving DecidableEq, Repr

namespace EncProxyServer
variable (cfg : EncProxyConfig)

def start (kv : Kv) : EncProxyServer := ⟨fun _ => EncProxy.initState, kv⟩

def withWorker (s : EncProxyServer) (x : ℕ) (w : EncProxyWorker) : EncProxyServer :=
  { s with workers := Function.update s.workers x w }

def step (s : EncProxyServer) (label : EncProxyLabel) : Option EncProxyServer :=
  let x := label.worker
  let w := s.workers x
  match label.step with
  | .request seq r => some (s.withWorker x (EncProxy.processOp cfg w (r.operation seq)))
  | .flush => some (s.withWorker x (EncProxy.flush w))
  | .encrypt => (EncProxy.encryptRound cfg w).map (s.withWorker x)
  | .serveGet => (EncProxy.serveGet s.kv w).map (s.withWorker x)
  | .servePut => (EncProxy.servePut s.kv w).map fun r => { s.withWorker x r.2 with kv := r.1 }
  | .getReply => (EncProxy.getCallback w).map fun o => s.withWorker x o.state
  | .putReply => (EncProxy.putCallback w).map (s.withWorker x)
  | .decrypt => (EncProxy.decryptRound cfg w).map (s.withWorker x)
  | .respond n => (EncProxy.respond cfg w n).map fun r => s.withWorker x r.2

/-- What the clients see of a step. -/
def events (s : EncProxyServer) (label : EncProxyLabel) : List ClientEvent :=
  match label.step with
  | .request seq r => [.invoke seq.client r]
  | .respond n =>
    match EncProxy.respond cfg (s.workers label.worker) n with
    | some (r, _) => [.respond r.seqId.client (r.opCode, r.result)]
    | none => []
  | _ => []

def system (kv : Kv) : System EncProxyServer EncProxyLabel where
  init s := s = start kv
  step := step cfg

def clientSystem (kv : Kv) : System (EncProxyServer × List ClientEvent) EncProxyLabel :=
  record (system cfg kv) (events cfg)

/-- A client gives its requests different numbers. -/
def proper (x : EncProxyServer × List ClientEvent) (label : EncProxyLabel) : Prop :=
  match label.step with
  | .request seq _ => seq.client ∉ (invocations x.2).map Prod.fst
  | _ => True

end EncProxyServer
end Shortstack
