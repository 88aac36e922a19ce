import Shortstack.ChainNet
import Shortstack.L2Proxy
import Shortstack.UpdateCache

/-! A column of L2 instances: one replication chain for each worker, one update cache
for each row, shared by all workers of that instance. Workers are named by any type. -/
namespace Shortstack
open Transition

structure L3Operation where
  seqId : SequenceId
  label : String
  value : String
  isRead : Bool
  dedup : Bool
  deriving DecidableEq, Repr

/-- A message leaving the column. -/
inductive L2Out
  | request (column worker : ℕ) (op : L3Operation)
  | ack (batch : AckBatch)
  deriving DecidableEq, Repr

structure L2Column (ι : Type) where
  net : ι → ChainNet L2State
  cache : ℕ → UpdateCache

/-- The source of a message: worker and row. -/
structure L2Sent (ι : Type) where
  worker : ι
  row : ℕ
  message : L2Out
  deriving DecidableEq, Repr

structure L2Result (ι : Type) where
  column : L2Column ι
  sent : List (L2Sent ι)
  status : Status

inductive L2Label (ι : Type)
  | request (w : ι) (row : ℕ) (op : L2Operation)
  | chain (w : ι) (label : NetLabel L2State)
  | externalAck (w : ι) (row : ℕ) (seqs : List SequenceId)
  | crash (row : ℕ)

/-- The steps of a column without failures. -/
def L2Label.steady {ι : Type} : L2Label ι → Bool
  | .request .. | .externalAck .. => true
  | .chain _ label => label.steady
  | .crash _ => false

namespace L2Column
variable {ι : Type} [DecidableEq ι] (cfg : ι → L2Config) (ext : Outside L2Effect)

/-- The value `forward_request` sends: the cached update of the replica, or with the cache
disabled the value of the operation. -/
def forwardValue (cfg : L2Config) (cache : UpdateCache) (op : L2Operation) : String :=
  if cfg.updateCacheEnabled then cache.checkForUpdateImmutable op.key op.replica.toInt else op.value

/-- One effect of worker `w` on row `i`, on the cache of that row. -/
def apply (w : ι) (i : ℕ) (acc : UpdateCache × List (L2Sent ι)) :
    L2Effect → UpdateCache × List (L2Sent ι)
  | .populate key value n => (acc.1.populateReplicaUpdates key value n, acc.2)
  | .forward column worker label op dedup =>
    (acc.1, acc.2 ++ [⟨w, i, .request column worker
      ⟨op.seqId, label, forwardValue (cfg w) acc.1 op, op.value == "", dedup⟩⟩])
  | .ackL1 batch => (acc.1, acc.2 ++ [⟨w, i, .ack batch⟩])

/-- Store a worker's chain after a step and carry out its effects in order. -/
def absorb (col : L2Column ι) (w : ι) (i : ℕ) (r : NetResult L2State L2Effect) : L2Result ι :=
  let effects := r.outs.foldl (apply cfg w i) (col.cache i, [])
  ⟨⟨Function.update col.net w r.net, Function.update col.cache i effects.1⟩, effects.2, r.status⟩

def step (col : L2Column ι) : L2Label ι → Option (L2Result ι)
  | .request w i op =>
    let net := col.net w
    if net.alive i then
      let m := net.node i
      some (col.absorb cfg w i (net.finish i (L2Proxy.asyncOperation (cfg w) (net.env ext m) m op)))
    else none
  | .chain w label =>
    if label.internal then
      ((col.net w).step (L2Proxy.callbacks (cfg w)) ext label).map
        (col.absorb cfg w (label.row (col.net w).acks))
    else none
  | .externalAck w i seqs =>
    let net := col.net w
    if net.alive i then
      let m := net.node i
      some (col.absorb cfg w i
        (net.finish i (L2Proxy.externalAckBatch (cfg w) (net.env ext m) m seqs)))
    else none
  | .crash i =>
    some ⟨{ col with net := fun w => (col.net w).fail i }, [], .returned⟩

/-- A column as `init_proxy` leaves it. -/
def start (rows : ℕ) : L2Column ι where
  net w := ChainNet.start (L2Proxy.callbacks (cfg w)) rows (fun _ => L2Proxy.initState (cfg w))
    fun _ => (cfg w).ackBatchSize
  cache _ := ∅

end L2Column

/-- A column of any number of rows and workers with an arbitrary outside. -/
def l2System {ι : Type} [DecidableEq ι] (cfg : ι → L2Config) :
    System (L2Column ι) (Outside L2Effect × L2Label ι) where
  init col := ∃ rows, col = L2Column.start cfg rows
  step col l := (col.step cfg l.1 l.2).map L2Result.column

end Shortstack
