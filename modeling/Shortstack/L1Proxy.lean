import Shortstack.ConsistentHash
import Shortstack.L2Operation

/-! The L1 proxy as a subclass of `chain_module`. Random choices are arguments: the coins
and samples of a security batch, and the column a request for the dummy key is sent to.
Reachability of L2 instances is an argument of `connect`. -/
namespace Shortstack

structure L1Operation where
  seqId : SequenceId := {}
  key : String
  value : String
  deriving DecidableEq, Repr

/-- The replica counts of a table are of type `int`. -/
def IntCounts (counts : AList (fun _ : String => ℤ)) : Prop :=
  ∀ e ∈ counts.entries, -2 ^ 31 ≤ e.2 ∧ e.2 < 2 ^ 31

instance (counts : AList (fun _ : String => ℤ)) : Decidable (IntCounts counts) :=
  inferInstanceAs (Decidable (∀ e ∈ counts.entries, _))

lemma IntCounts.of_lookup {counts : AList (fun _ : String => ℤ)} (h : IntCounts counts)
    {key : String} {r : ℤ} (found : counts.lookup key = some r) : -2 ^ 31 ≤ r ∧ r < 2 ^ 31 :=
  h ⟨key, r⟩ (AList.mem_lookup_iff.mp found)

lemma intCounts_empty : IntCounts ∅ := by simp [IntCounts]

structure L1Config where
  dummyKey : String
  keyToNumberOfReplicas : AList (fun _ : String => ℤ)
  counts : IntCounts keyToNumberOfReplicas
  securityBatchSize : ℤ
  disableAllFalse : Bool
  ackBatchSize : ℤ
  l2Workers : List ℕ

/-- The connections to one L2 column: the row they lead to and the number of workers. -/
structure L2Client where
  row : ℕ
  numWorkers : ℕ
  deriving DecidableEq, Repr

structure L1State where
  idx : ℤ
  internalQueue : List L1Operation
  pendingCount : AList (fun _ : ℤ => ℤ)
  l2Iface : Option (List L2Client)

/-- An operation for a worker of an L2 instance. -/
structure L1Effect where
  column : ℕ
  worker : ℕ
  row : ℕ
  op : L2Operation
  deriving DecidableEq, Repr

/-- The random choices for one slot of a security batch: the coin, a sample of either
distribution, and the number a replica is made of. -/
structure Draw where
  coin : Bool
  real : String
  fake : String
  replica : ℕ
  deriving DecidableEq, Repr, Inhabited

namespace L1Proxy
variable (cfg : L1Config)

def fakeClientId : Int64 := -1995

def initState (idx : ℤ) : L1State := ⟨idx, [], ∅, none⟩

/-- `rand_uint32(0, r - 1)` as an `int`. The bound is unsigned and wraps around for `r ≤ 0`. -/
def randReplica (n : ℕ) (r : ℤ) : Int32 := .ofInt (n % if 0 < r then r else 2 ^ 32 + r)

/-- The choices of the `security_batch_size_` rounds. -/
def rounds (draws : ℕ → Draw) : List Draw := (List.range cfg.securityBatchSize.toNat).map draws

/-- Coins of a batch; with all-false batches disabled the first coin is turned. -/
def tossCoins (draws : List Draw) : List Draw :=
  if cfg.disableAllFalse && !(draws.any Draw.coin) then
    match draws with
    | d :: rest => { d with coin := true } :: rest
    | [] => []
  else draws

/-- The operation of one slot before its replica is drawn, and the queue after it. -/
def fillSlot (d : Draw) (queue : List L1Operation) : L2Operation × List L1Operation :=
  if d.coin then
    match queue with
    | [] => (⟨{ clientId := fakeClientId }, d.real, 0, ""⟩, [])
    | op :: queue => (⟨op.seqId, op.key, 0, op.value⟩, queue)
  else (⟨{ clientId := fakeClientId }, d.fake, 0, ""⟩, queue)

/-- The batch so far and the queue, or the error that ended the loop. -/
def fillBatch : List Draw → List L1Operation → List L2Operation →
    List L1Operation × Except String (List L2Operation)
  | [], queue, batch => (queue, .ok batch)
  | d :: draws, queue, batch =>
    let (op, queue) := fillSlot d queue
    match cfg.keyToNumberOfReplicas.lookup op.key with
    | none => (queue, .error ("key not found: " ++ op.key))
    | some r => fillBatch draws queue (batch ++ [{ op with replica := randReplica d.replica r }])

def createSecurityBatch (draws : ℕ → Draw) (queue : List L1Operation) :
    List L1Operation × Except String (List L2Operation) :=
  fillBatch cfg (tossCoins cfg (rounds cfg draws)) queue []

/-- `insert` of the hash map keeps an entry that is already there. -/
def runCommand (s : L1State) (seq : SequenceId) (_ : ArgList) : Outcome L1State L1Effect :=
  .done
    { s with
      pendingCount := if seq.serverSeqNo ∈ s.pendingCount then s.pendingCount
        else s.pendingCount.insert seq.serverSeqNo cfg.securityBatchSize }

/-- The routing of `l2proxy_interface::send_op`. -/
def routeL2 (pick : ℤ → ℕ) (clients : List L2Client) (op : L2Operation) : Option (ℕ × ℕ × ℕ) :=
  let id := if op.key = cfg.dummyKey then pick op.seqId.l1SeqNo % clients.length
    else consistentHash op.key clients.length
  match clients[id]? with
  | some c => some (id, murmurHash64A (op.key ++ toString op.replica) 1995 % c.numWorkers, c.row)
  | none => none

def sendOp (pick : ℤ → ℕ) (env : Env L1Effect) (clients : List L2Client) (s : L1State)
    (op : L2Operation) : Outcome L1State L1Effect :=
  match routeL2 cfg pick clients op with
  | none => .raise s "no L2 connection"
  | some (column, worker, row) => .send env.out s ⟨column, worker, row, op⟩

/-- Slot `i` of batch `seq` as it is sent to the L2 tier. -/
def numberSlot (clock : Option Int64) (idx serverSeqNo : ℤ) (i : ℕ) (op : L2Operation) :
    L2Operation :=
  let seq := { op.seqId with l1Idx := idx, l1SeqNo := cfg.securityBatchSize * serverSeqNo + i }
  { op with
    seqId := match clock with
      | some now =>
        { seq with diag := some (seq.diag.getD "" ++ toString (now - seq.ts.getD 0) ++ ",") }
      | none => seq }

def replicationComplete (pick : ℤ → ℕ) (env : Env L1Effect) (s : L1State) (seq : SequenceId)
    (args : ArgList) : Outcome L1State L1Effect :=
  match L2Operation.deserializeBatch args with
  | .error e => .raise s e
  | .ok batch =>
    if (batch.length : ℤ) ≠ cfg.securityBatchSize then
      .raise s "Incorrectly sized security batch"
    else
      match s.l2Iface with
      | none => .done s
      | some clients =>
        Outcome.forEach (sendOp cfg pick env clients)
          (batch.mapIdx (numberSlot cfg env.clock s.idx seq.serverSeqNo)) s

/-- `connect`: the first replica of each column, up to the first that cannot be reached. -/
def connect (reach : ℕ → ℕ → Bool) : List L2Client :=
  (cfg.l2Workers.zipIdx.takeWhile fun c => c.1 == 0 || reach c.2 0).map fun c => ⟨0, c.1⟩

/-- `connect` raises when an instance cannot be reached. -/
def connectFails (reach : ℕ → ℕ → Bool) : Bool :=
  decide ((connect cfg reach).length < cfg.l2Workers.length)

def setupCallback (reach : ℕ → ℕ → Bool) (role : ChainRole) (s : L1State) : L1State :=
  if role.isTail && s.l2Iface.isNone then { s with l2Iface := some (connect cfg reach) } else s

def ackCallback (s : L1State) (seq : SequenceId) : Outcome L1State L1Effect :=
  .done { s with pendingCount := s.pendingCount.erase seq.serverSeqNo }

/-- The callbacks during one step: with its random choices and the instances it can reach. -/
def callbacks (pick : ℤ → ℕ) (reach : ℕ → ℕ → Bool) : Callbacks L1State L1Effect where
  runCommand _ s seq args := runCommand cfg s seq args
  replicationComplete := replicationComplete cfg pick
  setupCallback := setupCallback cfg reach
  ackCallback _ _ s seq := ackCallback s seq

/-- `process_op`: the entry point for client requests. -/
def processOp (pick : ℤ → ℕ) (reach : ℕ → ℕ → Bool) (env : Env L1Effect)
    (m : ChainModule L1State) (op : L1Operation) (draws : ℕ → Draw) :
    Outcome (ChainModule L1State) (Send L1Effect) :=
  if !m.isHead then .drop m
  else
    let op := match env.clock with
      | some now => { op with seqId := { op.seqId with ts := some now } }
      | none => op
    match createSecurityBatch cfg draws (m.user.internalQueue ++ [op]) with
    | (queue, .error e) => .raise (m.withUser { m.user with internalQueue := queue }) e
    | (queue, .ok batch) =>
      (m.withUser { m.user with internalQueue := queue }).chainRequest (callbacks cfg pick reach) env
        { clientId := -1, clientSeqNo := -1, serverSeqNo := -1 } (batch.flatMap L2Operation.serialize)

/-- `external_ack`: count down the slots of a batch, and acknowledge it when none is left. -/
def externalAck (cb : Callbacks L1State L1Effect) (env : Env L1Effect) (m : ChainModule L1State)
    (seq : SequenceId) : Outcome (ChainModule L1State) (Send L1Effect) :=
  let batch := seq.l1SeqNo.tdiv cfg.securityBatchSize
  match m.user.pendingCount.lookup batch with
  | none => .done m
  | some count =>
    let m := m.withUser { m.user with pendingCount := m.user.pendingCount.replace batch (count - 1) }
    if count - 1 = 0 then m.ack cb env { serverSeqNo := batch } else .done m

def externalAckBatch (cb : Callbacks L1State L1Effect) (env : Env L1Effect)
    (m : ChainModule L1State) (seqs : List SequenceId) :
    Outcome (ChainModule L1State) (Send L1Effect) :=
  Outcome.forEach (externalAck cfg cb env) seqs m

/-- `update_connections` for the head of an L2 column. -/
def updateConnections (reach : ℕ → ℕ → Bool) (m : ChainModule L1State) (column row : ℕ) :
    Outcome (ChainModule L1State) (Send L1Effect) :=
  match m.isTail, m.user.l2Iface, cfg.l2Workers[column]? with
  | true, some clients, some n =>
    if n == 0 || reach column row then
      .done (m.withUser { m.user with l2Iface := some (clients.set column ⟨row, n⟩) })
    else .raise m "open failed"
  | _, _, _ => .raise m "Invalid update_connections call"

end L1Proxy
end Shortstack
