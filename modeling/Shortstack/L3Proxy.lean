import Shortstack.L2Column

/-! The entry point of an L3 worker: a filter for duplicates of each L2 worker in front
of the store. The field `gets` is a history variable, the operations passed on to
`async_get`. -/
namespace Shortstack

structure L3State where
  lastSeenSeq : List ℤ
  reqCnt : ℕ
  gets : List L3Operation
  deriving DecidableEq, Repr

namespace L3Proxy

def initState (l2Workers : ℕ) : L3State := ⟨List.replicate l2Workers (-1), 0, []⟩

def asyncOperation (clock : Option Int64) (s : L3State) (op : L3Operation) :
    Outcome L3State L3Operation :=
  match seenAt s.lastSeenSeq op.seqId.l2Idx with
  | none => .raise s "last_seen_seq_ index out of range"
  | some last =>
    if op.dedup ∧ op.seqId.l2SeqNo ≤ last then .drop s
    else
      let op := match clock with
        | some now => { op with seqId := { op.seqId with ts := some now } }
        | none => op
      .done
        { lastSeenSeq := s.lastSeenSeq.set op.seqId.l2Idx.toNat (max last op.seqId.l2SeqNo)
          reqCnt := s.reqCnt + 1
          gets := s.gets ++ [op] }

end L3Proxy

/-- The worker has accepted the operation an L2 worker gave this number. -/
def L3State.Accepted (s : L3State) (l2Idx l2SeqNo : ℤ) : Prop :=
  ∃ op ∈ s.gets, op.seqId.l2Idx = l2Idx ∧ op.seqId.l2SeqNo = l2SeqNo

instance (s : L3State) (l2Idx l2SeqNo : ℤ) : Decidable (s.Accepted l2Idx l2SeqNo) :=
  inferInstanceAs (Decidable (∃ op ∈ s.gets, _))

end Shortstack
