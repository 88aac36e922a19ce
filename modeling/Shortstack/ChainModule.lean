import Shortstack.LibOutcome

/-! The replica of a replication chain: `chain_module` with its callbacks.
A subclass supplies its own state and the four virtual functions; connections
are named by the row of the replica at their other end. The field `ran` is a
history variable that records the commands passed to `run_command`. -/
namespace Shortstack

structure SequenceId where
  clientId : Int64 := 0
  clientSeqNo : Int64 := 0
  serverSeqNo : ℤ := 0
  l1Idx : ℤ := 0
  l1SeqNo : ℤ := 0
  l2Idx : ℤ := 0
  l2SeqNo : ℤ := 0
  ts : Option Int64 := none
  diag : Option String := none
  deriving DecidableEq, Repr, Inhabited

/-- What a client's request is known by: `client_id` and `client_seq_no`. -/
abbrev RequestId := Int64 × Int64

abbrev ArgList := List String

inductive ChainRole
  | singleton
  | head
  | mid
  | tail
  deriving DecidableEq, Repr

def ChainRole.isHead (r : ChainRole) : Bool := r == .head || r == .singleton

def ChainRole.isTail (r : ChainRole) : Bool := r == .tail || r == .singleton

structure ChainOp where
  seq : SequenceId
  args : ArgList
  deriving DecidableEq, Repr, Inhabited

/-- A message leaving a replica: to the next one, to the previous one, or out of
the chain through the subclass. -/
inductive Send (μ : Type)
  | request (op : ChainOp)
  | ackBatch (seqs : List SequenceId)
  | out (message : μ)
  deriving DecidableEq, Repr

/-- What the outside decides during a call: which connections are up, and the
clock reading when statistics are on. -/
structure Env (μ : Type) where
  next : Bool
  prev : Bool
  out : μ → Bool
  clock : Option Int64

def Env.up {μ : Type} (env : Env μ) : Send μ → Bool
  | .request _ => env.next
  | .ackBatch _ => env.prev
  | .out m => env.out m

structure Callbacks (σ μ : Type) where
  runCommand : Env μ → σ → SequenceId → ArgList → Outcome σ μ
  replicationComplete : Env μ → σ → SequenceId → ArgList → Outcome σ μ
  setupCallback : ChainRole → σ → σ
  ackCallback : Env μ → ChainRole → σ → SequenceId → Outcome σ μ

structure ChainModule (σ : Type) where
  role : ChainRole := .singleton
  chainSeqNo : ℤ := 0
  next : Option ℕ := none
  prev : Option ℕ := none
  pending : AList (fun _ : ℤ => ChainOp) := ∅
  ackQueue : List SequenceId := []
  chainAckBatchSize : ℤ := 1
  user : σ
  ran : List ChainOp := []

/-- A `size_t` compared with an `int`: a negative bound wraps to a huge one. -/
def sizeAtLeast (size : ℕ) (bound : ℤ) : Bool := decide (0 ≤ bound) && decide (bound ≤ size)

/-- An entry of a `last_seen_seq_` vector; an index outside it has none. -/
def seenAt (lastSeenSeq : List ℤ) (idx : ℤ) : Option ℤ :=
  if idx < 0 then none else lastSeenSeq[idx.toNat]?

namespace ChainModule
variable {σ μ : Type} (cb : Callbacks σ μ) (env : Env μ) (m : ChainModule σ)

def isHead : Bool := m.role.isHead

def isTail : Bool := m.role.isTail

/-- `insert` of the hash map keeps an entry that is already there. -/
def addPending (op : ChainOp) : AList (fun _ : ℤ => ChainOp) :=
  if op.seq.serverSeqNo ∈ m.pending then m.pending
  else m.pending.insert op.seq.serverSeqNo op

def removePending (seq : SequenceId) : AList (fun _ : ℤ => ChainOp) :=
  m.pending.erase seq.serverSeqNo

def withUser (u : σ) : ChainModule σ := { m with user := u }

/-- Code of the subclass acting on its own part of the replica. -/
def call (o : Outcome σ μ) : Outcome (ChainModule σ) (Send μ) := o.embed m.withUser .out

def setup (role : ChainRole) (next : Option ℕ) : ChainModule σ :=
  { m with role := role, next := next, user := cb.setupCallback role m.user }

def fetchSeq : ℤ := m.chainSeqNo

/-- The head numbers a command, every other replica keeps the number it received. -/
def numbered (seq : SequenceId) : SequenceId :=
  if m.isHead then { seq with serverSeqNo := m.chainSeqNo + 1 } else seq

/-- The bookkeeping of `chain_request` after the command was run. -/
def record (op : ChainOp) : ChainModule σ :=
  { m with
    chainSeqNo := m.chainSeqNo + 1
    pending := m.addPending op
    ran := m.ran ++ [op] }

def chainRequest (seq : SequenceId) (args : ArgList) : Outcome (ChainModule σ) (Send μ) :=
  let seq := m.numbered seq
  if seq.serverSeqNo ≤ m.chainSeqNo then .drop m
  else if seq.serverSeqNo > m.chainSeqNo + 1 then
    .raise m "Received out of order chain_request"
  else
    (m.call (cb.runCommand env m.user seq args)).andThen fun m =>
      let m := m.record ⟨seq, args⟩
      if m.isTail then m.call (cb.replicationComplete env m.user seq args)
      else .send env.up m (.request ⟨seq, args⟩)

/-- The pending operations above a number, in increasing order. -/
def pendingAfter (successorSeq : ℤ) : List ChainOp :=
  ((m.pending.entries.filter fun e => ¬ e.1 ≤ successorSeq).insertionSort
    fun a b => a.1 ≤ b.1).map fun e => e.2

def resendOne (m : ChainModule σ) (op : ChainOp) : Outcome (ChainModule σ) (Send μ) :=
  if m.isTail then m.call (cb.replicationComplete env m.user op.seq op.args)
  else .send env.up m (.request op)

def resendPending (successorSeq : ℤ) : Outcome (ChainModule σ) (Send μ) :=
  Outcome.forEach (resendOne cb env) (m.pendingAfter successorSeq) m

/-- Queue an acknowledgement for the previous replica and flush a full batch. -/
def pushAck (seq : SequenceId) : Outcome (ChainModule σ) (Send μ) :=
  let queue := m.ackQueue ++ [seq]
  if sizeAtLeast queue.length m.chainAckBatchSize then
    .send env.up { m with ackQueue := [] } (.ackBatch queue)
  else .done { m with ackQueue := queue }

def ack (seq : SequenceId) : Outcome (ChainModule σ) (Send μ) :=
  let m := { m with pending := m.removePending seq }
  (m.call (cb.ackCallback env m.role m.user seq)).andThen fun m =>
    if m.isHead then .done m else m.pushAck env seq

def ackBatch (seqs : List SequenceId) : Outcome (ChainModule σ) (Send μ) :=
  Outcome.forEach (ack cb env) seqs m

end ChainModule

/-- The requests, acknowledgement batches and outside messages among the sends. -/
def requestsOf {μ : Type} (sent : List (Send μ)) : List ChainOp :=
  sent.filterMap fun | .request op => some op | _ => none

def acksOf {μ : Type} (sent : List (Send μ)) : List (List SequenceId) :=
  sent.filterMap fun | .ackBatch seqs => some seqs | _ => none

def outsOf {μ : Type} (sent : List (Send μ)) : List μ :=
  sent.filterMap fun | .out m => some m | _ => none

end Shortstack
