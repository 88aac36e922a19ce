import Shortstack.ChainModule

/-! Acknowledgement connections to the tier before: one client and one queue for each
worker, flushed in batches. A connection is named by the row of the host it leads to. -/
namespace Shortstack

/-- A batch of acknowledgements on its way to a worker of another tier. -/
structure AckBatch where
  idx : ℕ
  row : ℕ
  seqs : List SequenceId
  deriving DecidableEq, Repr

structure ReverseConnector where
  clients : List (List (Option ℕ))
  ackQueues : List (List SequenceId)
  batchSize : ℤ
  deriving DecidableEq, Repr

namespace ReverseConnector

def clientArr (rc : ReverseConnector) : List (Option ℕ) := rc.clients.flatten

/-- Fresh queues for the present clients; acknowledgements still queued are lost. -/
def recomputeClientArray (rc : ReverseConnector) : ReverseConnector :=
  { rc with ackQueues := List.replicate rc.clientArr.length [] }

/-- The constructor: no connection is open yet. -/
def new (numWorkers : List ℕ) (batchSize : ℤ) : ReverseConnector :=
  recomputeClientArray ⟨numWorkers.map fun n => List.replicate n none, [], batchSize⟩

def updateConnections (rc : ReverseConnector) (column row numWorkers : ℕ) : ReverseConnector :=
  recomputeClientArray
    { rc with clients := rc.clients.set column (List.replicate numWorkers (some row)) }

/-- `send_ack` with the worker index the subclass routes to. -/
def sendAck (up : AckBatch → Bool) (rc : ReverseConnector) (id : ℤ) (seq : SequenceId) :
    Outcome ReverseConnector AckBatch :=
  if 0 ≤ id ∧ id < rc.clientArr.length then
    match rc.clientArr.getD id.toNat none with
    | none => .raise rc "connection to id uninitialized"
    | some row =>
      let queue := rc.ackQueues.getD id.toNat [] ++ [seq]
      if sizeAtLeast queue.length rc.batchSize then
        .send up { rc with ackQueues := rc.ackQueues.set id.toNat [] } ⟨id.toNat, row, queue⟩
      else .done { rc with ackQueues := rc.ackQueues.set id.toNat queue }
  else .raise rc "id out of bound"

end ReverseConnector
end Shortstack
