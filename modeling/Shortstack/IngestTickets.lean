import Shortstack.IngestChange
import Shortstack.LibTokens

/-! Where the requests of the clients are between their arrival and the L2 tier: in the queue
of an L1 head, in a batch on its way down an L1 chain, on a link, or among the commands an L2
head has run. None is duplicated. -/
namespace Shortstack
open ChainModule ChainNet L1Proxy Tokens

namespace Ingest
variable (cfg : IngestConfig)

inductive TicketPlace
  | queue (k : ℕ)
  | waiting (k : ℕ)
  | link (k row : ℕ) (x : L2Target)
  | log (c w : ℕ)
  deriving DecidableEq

def l1Tail (s : Ingest) (k : ℕ) : ChainModule L1State := (s.l1 k).node (cfg.l1Rows - 1)

/-- Batches the head of an L1 chain has run and its tail has not. -/
def waiting (s : Ingest) (k : ℕ) : List ChainOp :=
  ((s.l1 k).node 0).ran.drop (s.l1Tail cfg k).ran.length

def tickets (s : Ingest) : TicketPlace → List Ticket
  | .queue k => ((s.l1 k).node 0).user.internalQueue.map L1Operation.ticket
  | .waiting k => batchTickets cfg (s.waiting cfg k)
  | .link k row x => (s.link k row x).map L2Operation.ticket
  | .log c w => (s.head c w).ran.map ChainOp.ticket

/-- Copies of the requests of one kind in each place. -/
def copies (cfg : IngestConfig) (q : Ticket → Bool) (s : Ingest) (p : TicketPlace) : ℕ :=
  (s.tickets cfg p).countP q

variable {cfg} {s : Ingest}

lemma Unbroken.log_eq (h : Unbroken cfg s) {k i : ℕ} (alive : (s.l1 k).alive i = true) :
    (s.l1 k).rows = cfg.l1Rows ∧
      ((s.l1 k).node 0).ran = (s.l1Tail cfg k).ran ++ s.waiting cfg k := by
  have inside : i < (s.l1 k).rows := by simpa [(h.l1 k).alive] using alive
  have rows : (s.l1 k).rows = cfg.l1Rows := by
    have := h.rows1 k
    split at this
    · exact this
    · omega
  exact ⟨rows, (List.prefix_iff_eq_append.mp
    ((h.l1 k).prefix_of_le (Nat.zero_le (cfg.l1Rows - 1)) (by omega))).symm⟩

section L1
variable {label : IngestLabel} {k i : ℕ} {r : NetResult L1State L1Effect} {new : List ChainOp}
  {q : Ticket → Bool}

lemma L1Change.node_absorb (change : L1Change cfg s label k i r new) (k' j : ℕ) :
    ((s.absorb k i r).l1 k').node j =
      if k' = k ∧ j = i then r.net.node i else (s.l1 k').node j := by
  unfold absorb
  dsimp only
  rcases eq_or_ne k' k with rfl | hk
  · rcases eq_or_ne j i with rfl | hj
    · simp
    · simp [hj, change.node j hj]
  · simp [hk]

lemma L1Change.waiting (h : Unbroken cfg s) (change : L1Change cfg s label k i r new) :
    (batchTickets cfg ((s.absorb k i r).waiting cfg k)).countP q +
        (if i + 1 = cfg.l1Rows then (batchTickets cfg new).countP q else 0) =
      (batchTickets cfg (s.waiting cfg k)).countP q +
        if i = 0 then (batchTickets cfg new).countP q else 0 := by
  obtain ⟨rows, before⟩ := h.log_eq change.alive
  have inside : i < (s.l1 k).rows := by simpa [(h.l1 k).alive] using change.alive
  have alive' : ((s.absorb k i r).l1 k).alive i = true := by
    simp [absorb, change.streams.alive, change.rows, inside]
  obtain ⟨-, after⟩ := (h.updateL1 change).log_eq alive'
  have node := change.node_absorb k
  have ran := change.ran
  simp only [l1Tail, node, true_and] at after before ⊢
  replace after := congrArg (fun x => (batchTickets cfg x).countP q) after
  replace before := congrArg (fun x => (batchTickets cfg x).countP q) before
  simp only [batchTickets_append, List.countP_append] at after before
  have tail : cfg.l1Rows - 1 = i ↔ i + 1 = cfg.l1Rows := by omega
  rcases Classical.em (0 = i) with rfl | hi
  · rcases Classical.em (0 + 1 = cfg.l1Rows) with last | more
    · simp only [tail.mpr last, last, if_true, ran, batchTickets_append, List.countP_append] at *
      omega
    · simp only [mt tail.mp more, more, if_true, if_false, ran, batchTickets_append,
        List.countP_append] at *
      omega
  · rcases Classical.em (i + 1 = cfg.l1Rows) with last | more
    · simp only [tail.mpr last, last, hi, Ne.symm hi, if_true, if_false, ran, batchTickets_append,
        List.countP_append] at *
      omega
    · simp only [mt tail.mp more, more, hi, Ne.symm hi, if_false] at *
      omega

lemma L1Change.linked (h : Unbroken cfg s) (change : L1Change cfg s label k i r new)
    {X : Finset L2Target} (all : ∀ e ∈ r.outs, (⟨e.column, e.worker, e.row⟩ : L2Target) ∈ X) :
    ∑ x ∈ X, ((slotsFor r.outs x).map L2Operation.ticket).countP q ≤
      if i + 1 = cfg.l1Rows then (batchTickets cfg new).countP q else 0 := by
  have each : ∀ x, ((slotsFor r.outs x).map L2Operation.ticket).countP q =
      (r.outs.filter fun e => (⟨e.column, e.worker, e.row⟩ : L2Target) = x).countP
        fun e => q e.op.ticket := by
    intro x
    rw [slotsFor, List.countP_map, List.countP_map]
    rfl
  rw [Finset.sum_congr rfl fun x _ => each x,
    sum_countP_filter (fun e : L1Effect => (⟨e.column, e.worker, e.row⟩ : L2Target)) _ _ all]
  rcases change.sent with none | ⟨last, part⟩
  · rw [none]
    exact Nat.zero_le _
  · rw [if_pos (last.trans (h.log_eq change.alive).1)]
    have fewer := part.sublist.countP_le (p := q)
    rwa [List.countP_map] at fewer

lemma copies_l1 (h : Unbroken cfg s) (pads : ∀ key, q (.pad key) = false)
    (change : L1Change cfg s label k i r new) {n : ℕ} (bound : AtMost (copies cfg q s) n) :
    AtMost (copies cfg q (s.absorb k i r)) (n + label.submits.countP q) := by
  have node := change.node_absorb
  have queue := change.queue q pads
  have waits := change.waiting (q := q) h
  obtain ⟨X, targets⟩ : ∃ X : Finset L2Target, ∀ e ∈ r.outs,
      (⟨e.column, e.worker, e.row⟩ : L2Target) ∈ X :=
    ⟨(r.outs.map fun e => ⟨e.column, e.worker, e.row⟩).toFinset, fun e he =>
      List.mem_toFinset.mpr (List.mem_map_of_mem he)⟩
  have links := change.linked (q := q) h targets
  have link : ∀ row x, copies cfg q (s.absorb k i r) (.link k row x) =
      copies cfg q s (.link k row x) +
        if row = i then ((slotsFor r.outs x).map L2Operation.ticket).countP q else 0 := by
    intro row x
    simp only [copies, tickets, absorb, forward, true_and]
    rcases eq_or_ne row i with rfl | other
    · rw [if_pos rfl, if_pos rfl, List.map_append, List.countP_append]
      rfl
    · rw [if_neg other, if_neg other]
      rfl
  have none : ∀ x ∉ X, slotsFor r.outs x = [] := by
    intro x hx
    unfold slotsFor
    rw [List.map_eq_nil_iff, List.filter_eq_nil_iff]
    intro e he
    simp only [decide_eq_true_eq]
    rintro rfl
    exact hx (targets e he)
  refine bound.exchange (insert (.queue k) (insert (.waiting k) (X.image (.link k i)))) ?_ ?_
  · have inj : Set.InjOn (TicketPlace.link k i) X := fun a _ b _ same => by simpa using same
    rw [Finset.sum_insert (by simp), Finset.sum_insert (by simp), Finset.sum_insert (by simp),
      Finset.sum_insert (by simp), Finset.sum_image inj, Finset.sum_image inj,
      Finset.sum_congr rfl fun x _ => link i x]
    simp only [if_true, Finset.sum_add_distrib]
    have here : copies cfg q (s.absorb k i r) (.queue k) +
        (if i = 0 then (batchTickets cfg new).countP q else 0) ≤
          copies cfg q s (.queue k) + label.submits.countP q := by
      simp only [copies, tickets, node, true_and]
      rcases eq_or_ne i 0 with rfl | other
      · simpa using queue
      · rw [if_neg other, if_neg other.symm]
        exact Nat.le_add_right _ _
    simp only [copies, tickets] at here ⊢
    omega
  · intro p hp
    simp only [Finset.mem_insert, Finset.mem_image, not_or, not_exists, not_and] at hp
    cases p with
    | queue k' =>
      have other : k' ≠ k := fun same => hp.1 (by rw [same])
      simp only [copies, tickets, node, other, false_and, if_false]
      exact le_rfl
    | waiting k' =>
      have other : k' ≠ k := fun same => hp.2.1 (by rw [same])
      simp only [copies, tickets, Ingest.waiting, l1Tail, node, other, false_and, if_false]
      exact le_rfl
    | log c w => exact le_rfl
    | link k' row x =>
      rcases Classical.em (k' = k ∧ row = i) with ⟨rfl, rfl⟩ | away
      · have outside : x ∉ X := fun inside => hp.2.2 x inside rfl
        rw [link, none x outside]
        simp
      · simp only [copies, tickets, absorb, forward, if_neg away]
        exact le_rfl

end L1

section L2
variable {c w i : ℕ} {r : NetResult L2State L2Effect} {new : List ChainOp}

lemma L2Change.head_absorb (change : L2Change cfg s c w i r new)
    (link : ℕ → ℕ → L2Target → List L2Operation) (c' w' : ℕ) :
    (head { s with
      l2 := Function.update s.l2 c ((s.l2 c).absorb (cfg.l2 c) w i r).column
      link := link } c' w').ran =
      if c' = c ∧ w' = w ∧ i = 0 then (s.head c w).ran ++ new else (s.head c' w').ran := by
  unfold head
  dsimp only
  rcases eq_or_ne c' c with rfl | hc
  · rcases eq_or_ne w' w with rfl | hw
    · rcases eq_or_ne i 0 with rfl | hi
      · simp [L2Column.absorb, change.ran]
      · simp [L2Column.absorb, hi, change.node 0 hi.symm]
    · simp [L2Column.absorb, hw]
  · simp [hc]

lemma copies_congr {s' : Ingest} {q : Ticket → Bool} {n : ℕ} (bound : AtMost (copies cfg q s) n)
    (same : ∀ p, s'.tickets cfg p = s.tickets cfg p) (more : ℕ) :
    AtMost (copies cfg q s') (n + more) :=
  bound.mono (fun p => by rw [copies, same]; exact le_rfl) (Nat.le_add_right n more)

end L2

theorem copies_step (h : Unbroken cfg s) {q : Ticket → Bool}
    (pads : ∀ key, q (.pad key) = false) {label : IngestLabel} {r : IngestResult}
    (change : Change cfg s label r) {n : ℕ} (bound : AtMost (copies cfg q s) n) :
    AtMost (copies cfg q r.state) (n + label.submits.countP q) := by
  cases change with
  | none => exact copies_congr bound (fun _ => rfl) _
  | l1 change => exact copies_l1 h pads change bound
  | @l2 _ c _ w i r new status change follows =>
    refine copies_congr bound (fun p => ?_) _
    cases p with
    | log c' w' =>
      simp only [tickets, change.head_absorb s.link c' w']
      split
      · next here => rw [here.1, here.2.1, follows here.2.2, List.append_nil]
      · rfl
    | queue | waiting | link => rfl
  | @link _ k row c w i x rest r new status popped change taken =>
    have log := change.head_absorb (s.setLink k row ⟨c, w, i⟩ rest)
    refine bound.move (p := .link k row ⟨c, w, i⟩) (q := .log c w) (by simp) ?_ fun p hp hq => ?_
    · simp only [copies, tickets, log, setLink, and_self, if_true, popped, List.map_cons,
        List.countP_cons, true_and]
      rcases taken with rfl | ⟨rfl, same⟩
      · simp only [List.append_nil, ite_self]
        omega
      · rw [if_pos rfl, List.map_append, List.countP_append, same, List.countP_singleton]
        omega
    · cases p with
      | log c' w' =>
        have away : ¬ (c' = c ∧ w' = w ∧ i = 0) := by
          rintro ⟨rfl, rfl, -⟩
          exact hq rfl
        simp only [copies, tickets, log, if_neg away]
        exact le_rfl
      | link k' row' y =>
        have away : ¬ (k' = k ∧ row' = row ∧ y = ⟨c, w, i⟩) := by
          rintro ⟨rfl, rfl, rfl⟩
          exact hp rfl
        simp only [copies, tickets, setLink, if_neg away]
        exact le_rfl
      | queue | waiting => exact le_rfl

lemma copies_start {q : Ticket → Bool} : AtMost (copies cfg q (start cfg)) 0 := by
  refine atMost_zero_iff.mpr fun p => ?_
  cases p with
  | queue k =>
    have user := (@setupCallback_user cfg.l1 (fun _ row => decide (row < cfg.l2Rows))
      (initRole (if k < cfg.l1Workers.sum then cfg.l1Rows else 0) 0)
      (L1Proxy.initState (cfg.l1Idx k 0))).2
    have empty : (((start cfg).l1 k).node 0).user.internalQueue = [] := user
    simp [copies, tickets, empty]
  | waiting k =>
    simp [copies, tickets, waiting, batchTickets, start, ChainNet.start, ChainModule.setup]
  | link k row x => rfl
  | log c w => simp [copies, tickets, head, start, L2Column.start, ChainNet.start, ChainModule.setup]

end Ingest
end Shortstack
