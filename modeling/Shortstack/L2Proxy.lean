import Shortstack.ConsistentHash
import Shortstack.L2Operation
import Shortstack.ReverseConnector

/-! The L2 proxy as a subclass of `chain_module`. The update cache is shared by the
workers of an instance, so the code of one worker only says what it does to the
cache; `forward` leaves the lookup of the value to the instance that owns it. -/
namespace Shortstack

/-- What an L2 worker is told at start-up. The columns of the tiers around it are given by
their numbers of workers. -/
structure L2Config where
  idx : ℤ
  dummyKey : String
  replicaToLabel : AList (fun _ : String => ℕ)
  keyToNumberOfReplicas : AList (fun _ : String => ℤ)
  updateCacheEnabled : Bool
  ackBatchSize : ℤ
  l1Workers : List ℕ
  l3Workers : List ℕ

structure L3Column where
  column : ℕ
  numWorkers : ℕ
  deriving DecidableEq, Repr

structure L2State where
  lastSeenSeq : List ℤ
  l3Iface : Option (List L3Column)
  ackIface : Option ReverseConnector
  deriving DecidableEq, Repr

/-- Effects of an L2 worker: an entry for the shared cache, an operation for an L3 worker,
acknowledgements for an L1 worker. -/
inductive L2Effect
  | populate (key value : String) (numReplicas : ℤ)
  | forward (column worker : ℕ) (label : String) (op : L2Operation) (dedup : Bool)
  | ackL1 (batch : AckBatch)
  deriving DecidableEq, Repr

namespace L2Proxy
variable (cfg : L2Config)

/-- State of a worker before its first `setup`. -/
def initState : L2State := ⟨List.replicate cfg.l1Workers.sum (-1), none, none⟩

def numberOfReplicas (key : String) : ℤ := (cfg.keyToNumberOfReplicas.lookup key).getD 0

def labelName (op : L2Operation) : String := op.key ++ toString op.replica

def runCommand (s : L2State) (seq : SequenceId) (args : ArgList) : Outcome L2State L2Effect :=
  match seenAt s.lastSeenSeq seq.l1Idx with
  | none => .raise s "last_seen_seq_ index out of range"
  | some last =>
    if seq.l1SeqNo ≤ last then .raise s "chain command with out-of-order sequency number"
    else
      let s := { s with lastSeenSeq := s.lastSeenSeq.set seq.l1Idx.toNat seq.l1SeqNo }
      match L2Operation.deserialize args with
      | .error e => .raise s e
      | .ok (op, _) =>
        if cfg.updateCacheEnabled && op.value != "" then
          ⟨s, [.populate op.key op.value (numberOfReplicas cfg op.key)], .returned⟩
        else .done s

/-- The routing of `l3proxy_interface::send_op`. -/
def routeL3 (clients : List L3Column) (label : String) : Option (ℕ × ℕ) :=
  match clients[consistentHash label clients.length]? with
  | some c => some (c.column, murmurHash64A label 1995 % c.numWorkers)
  | none => none

def stamp (clock : Option Int64) (seq : SequenceId) : SequenceId :=
  match clock with
  | some now =>
    { seq with diag := some (seq.diag.getD "" ++ toString (now - seq.ts.getD 0) ++ ",") }
  | none => seq

def forwardRequest (env : Env L2Effect) (s : L2State) (seq : SequenceId) (args : ArgList)
    (dedup : Bool) : Outcome L2State L2Effect :=
  match L2Operation.deserialize args with
  | .error e => .raise s e
  | .ok (op, _) =>
    match cfg.replicaToLabel.lookup (labelName op) with
    | none => .raise s "Replica not found in label map"
    | some l =>
      match s.l3Iface with
      | none => .done s
      | some clients =>
        match routeL3 clients (toString l) with
        | none => .raise s "no L3 connection"
        | some (column, worker) =>
          let seq := { stamp env.clock seq with l2Idx := cfg.idx, l2SeqNo := seq.serverSeqNo }
          .send env.out s (.forward column worker (toString l) { op with seqId := seq } dedup)

def setupCallback (role : ChainRole) (s : L2State) : L2State :=
  { s with
    l3Iface := if role.isTail && s.l3Iface.isNone then
      some (cfg.l3Workers.mapIdx fun column n => ⟨column, n⟩) else s.l3Iface
    ackIface := if role.isHead && s.ackIface.isNone then
      some (ReverseConnector.new cfg.l1Workers cfg.ackBatchSize) else s.ackIface }

def ackCallback (env : Env L2Effect) (role : ChainRole) (s : L2State) (seq : SequenceId) :
    Outcome L2State L2Effect :=
  if role.isHead then
    match s.ackIface with
    | none => .raise s "Invalid state"
    | some rc =>
      (rc.sendAck (fun b => env.out (.ackL1 b)) seq.l1Idx seq).embed
        (fun rc => { s with ackIface := some rc }) .ackL1
  else .done s

def callbacks : Callbacks L2State L2Effect where
  runCommand _ s seq args := runCommand cfg s seq args
  replicationComplete env s seq args := forwardRequest cfg env s seq args true
  setupCallback := setupCallback cfg
  ackCallback := ackCallback

/-- `async_operation`: the entry point for requests of the L1 tier. -/
def asyncOperation (env : Env L2Effect) (m : ChainModule L2State) (op : L2Operation) :
    Outcome (ChainModule L2State) (Send L2Effect) :=
  match seenAt m.user.lastSeenSeq op.seqId.l1Idx with
  | none => .raise m "last_seen_seq_ index out of range"
  | some last =>
    if op.seqId.l1SeqNo ≤ last then .drop m
    else if !m.isHead then .raise m "Received direct request at non-head node"
    else
      let seq := match env.clock with
        | some now => { op.seqId with ts := some now }
        | none => op.seqId
      if op.key ∈ cfg.keyToNumberOfReplicas then
        m.chainRequest (callbacks cfg) env seq { op with seqId := seq }.serialize
      else .raise m "Key not found"

/-- `external_ack_batch`: acknowledgements of the L3 tier name an operation by its number
in this chain. -/
def externalAckBatch (env : Env L2Effect) (m : ChainModule L2State) (seqs : List SequenceId) :
    Outcome (ChainModule L2State) (Send L2Effect) :=
  m.ackBatch (callbacks cfg) env (seqs.map fun q => { q with serverSeqNo := q.l2SeqNo })

/-- `L3_NUM_CORES`: the processes of one L3 machine, whose columns are removed together. -/
def l3NumCores : ℕ := 16

/-- `update_connections` for a failed L3 host: the connections to its processes go. A block that
ends behind the last connection has no defined behaviour in the source, and is an error here. -/
def removeConnection (m : ChainModule L2State) (column : ℕ) :
    Outcome (ChainModule L2State) (Send L2Effect) :=
  match m.isTail, m.user.l3Iface with
  | true, some clients =>
    if clients.length ≤ column then .raise m "remove_connection column out of range"
    else if clients.length < column + l3NumCores then .raise m "erase behind the last connection"
    else .done (m.withUser { m.user with
      l3Iface := some (clients.take column ++ clients.drop (column + l3NumCores)) })
  | _, _ => .raise m "Invalid update_connections call"

def filterRequest (args : ArgList) (column numColumns : ℕ) : Except String Bool :=
  match L2Operation.deserialize args with
  | .error e => .error e
  | .ok (op, _) =>
    match cfg.replicaToLabel.lookup (labelName op) with
    | none => .error "Replica not found in label map"
    | some l =>
      let id := consistentHash (toString l) numColumns
      .ok (decide (column ≤ id) && decide (id < column + l3NumCores))

/-- One iteration of `selective_resend_pending`. -/
def resendFiltered (env : Env L2Effect) (column numColumns : ℕ) (m : ChainModule L2State)
    (op : ChainOp) : Outcome (ChainModule L2State) (Send L2Effect) :=
  match filterRequest cfg op.args column numColumns with
  | .error e => .raise m e
  | .ok false => .done m
  | .ok true => m.call (forwardRequest cfg env m.user op.seq op.args false)

/-- `selective_resend_pending` over the pending operations, in the order of the hash map. -/
def selectiveResendPending (env : Env L2Effect) (m : ChainModule L2State) (column numColumns : ℕ)
    (ops : List ChainOp) : Outcome (ChainModule L2State) (Send L2Effect) :=
  if !m.isTail then .raise m "selective_resend_pending called on non-tail node"
  else Outcome.forEach (resendFiltered cfg env column numColumns) ops m

/-- `update_connections` for the tail of an L1 column. -/
def connectAcks (m : ChainModule L2State) (column row numWorkers : ℕ) :
    Outcome (ChainModule L2State) (Send L2Effect) :=
  match m.isHead, m.user.ackIface with
  | true, some rc => .done (m.withUser { m.user with
      ackIface := some (rc.updateConnections column row numWorkers) })
  | _, _ => .raise m "Invalid update_connections call"

end L2Proxy
end Shortstack
