import Shortstack.L3Proxy

/-! An L2 column in front of the L3 workers. Every row of every L2 worker has one FIFO
link to every L3 worker; when the row crashes a suffix of each of its links may be
lost, and what is left of them arrives at any later moment. L3 workers stay up, and
acknowledge operations they have accepted. -/
namespace Shortstack
open Transition

structure EgressConfig (ι : Type) where
  l2 : ι → L2Config
  l2Workers : ℕ
  inRange : ∀ w, 0 ≤ (l2 w).idx ∧ (l2 w).idx < l2Workers
  distinct : Function.Injective fun w => (l2 w).idx
  connected : ∀ w, (l2 w).l3Workers ≠ []

/-- The field `resending` is a history variable: the row was made tail by `setup` and has
not finished `resend_pending` yet. -/
structure Egress (ι : Type) where
  column : L2Column ι
  l3 : ℕ × ℕ → L3State
  link : ι → ℕ → ℕ × ℕ → List L3Operation
  resending : ι → ℕ → Bool

inductive EgressLabel (ι : Type)
  | l2 (ackUp : AckBatch → Bool) (clock : Option Int64) (label : L2Label ι)
  | deliver (w : ι) (row : ℕ) (x : ℕ × ℕ) (clock : Option Int64)
  | foreign (x : ℕ × ℕ) (op : L3Operation) (clock : Option Int64)
  | ack (x : ℕ × ℕ) (w : ι) (row : ℕ) (seqs : List SequenceId) (ackUp : AckBatch → Bool)
  | lose (w : ι) (row : ℕ) (x : ℕ × ℕ) (kept : List L3Operation)

namespace Egress
variable {ι : Type} [DecidableEq ι] (cfg : EgressConfig ι) (s : Egress ι)

/-- L3 workers can always be reached; connections back to the L1 tier may be down. -/
def outside (ackUp : AckBatch → Bool) (clock : Option Int64) : Outside L2Effect where
  out
    | .ackL1 batch => ackUp batch
    | _ => true
  clock := clock

/-- The operations among the sends of a row that go to one L3 worker. -/
def arrivals (sent : List (L2Sent ι)) (w : ι) (row : ℕ) (x : ℕ × ℕ) : List L3Operation :=
  sent.filterMap fun m => match m.message with
    | .request c k op => if m.worker = w ∧ m.row = row ∧ (c, k) = x then some op else none
    | .ack _ => none

def absorb (r : L2Result ι) : Egress ι :=
  { s with
    column := r.column
    link := fun w row x => s.link w row x ++ arrivals r.sent w row x }

/-- A row that becomes tail has to resend; it has done so when the resending returns. -/
def track (label : L2Label ι) (r : L2Result ι) : ι → ℕ → Bool :=
  match label with
  | .chain w (.setup i) => fun a b =>
    if a = w ∧ b = i ∧ ((r.column.net w).node i).isTail ∧ ¬ ((s.column.net w).node i).isTail then
      true else s.resending a b
  | .chain w (.resend i) => fun a b =>
    if a = w ∧ b = i ∧ r.status = .returned then false else s.resending a b
  | _ => s.resending

def setLink (w : ι) (row : ℕ) (x : ℕ × ℕ) (ops : List L3Operation) :
    ι → ℕ → ℕ × ℕ → List L3Operation :=
  fun a b c => if a = w ∧ b = row ∧ c = x then ops else s.link a b c

def step : EgressLabel ι → Option (Egress ι)
  | .l2 ackUp clock label =>
    match label with
    | .externalAck .. => none
    | label => (s.column.step cfg.l2 (outside ackUp clock) label).map fun r =>
      { s.absorb r with resending := s.track label r }
  | .deliver w row x clock =>
    match s.link w row x with
    | [] => none
    | op :: rest => some
      { s with
        l3 := Function.update s.l3 x (L3Proxy.asyncOperation clock (s.l3 x) op).state
        link := s.setLink w row x rest }
  | .foreign x op clock => some
    { s with l3 := Function.update s.l3 x (L3Proxy.asyncOperation clock (s.l3 x) op).state }
  | .ack x w row seqs ackUp =>
    if ∀ q ∈ seqs, (s.l3 x).Accepted (cfg.l2 w).idx q.l2SeqNo then
      (s.column.step cfg.l2 (outside ackUp none) (.externalAck w row seqs)).map s.absorb
    else none
  | .lose w row x kept =>
    if !(s.column.net w).alive row && kept.isPrefixOf (s.link w row x) then
      some { s with link := s.setLink w row x kept }
    else none

def start (rows : ℕ) : Egress ι where
  column := L2Column.start cfg.l2 rows
  l3 _ := L3Proxy.initState cfg.l2Workers
  link _ _ _ := []
  resending _ _ := false

end Egress

def egressSystem {ι : Type} [DecidableEq ι] (cfg : EgressConfig ι) :
    System (Egress ι) (EgressLabel ι) where
  init s := ∃ rows, 0 < rows ∧ s = Egress.start cfg rows
  step s l := s.step cfg l

end Shortstack
