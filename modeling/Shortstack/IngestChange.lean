import Shortstack.IngestCalm
import Shortstack.L2Forwarding

/-! What one step of the L1 and L2 tiers changes while none of their instances fails, whatever
the clients ask for: one row of one worker runs at most one command, and everything the row
sends belongs to that command. -/
namespace Shortstack
open ChainModule ChainNet L1Proxy

/-- What a client asked for. -/
structure Ticket where
  clientId : Int64
  clientSeqNo : Int64
  key : String
  value : String
  deriving DecidableEq, Repr

def L1Operation.ticket (op : L1Operation) : Ticket :=
  ⟨op.seqId.clientId, op.seqId.clientSeqNo, op.key, op.value⟩

def L2Operation.ticket (op : L2Operation) : Ticket :=
  ⟨op.seqId.clientId, op.seqId.clientSeqNo, op.key, op.value⟩

/-- What an access without a request stands for. -/
def Ticket.pad (key : String) : Ticket := ⟨fakeClientId, 0, key, ""⟩

/-- The request a command of an L2 chain was made for. -/
def ChainOp.ticket (op : ChainOp) : Ticket :=
  match L2Operation.deserialize op.args with
  | .ok (o, _) => ⟨op.seq.clientId, op.seq.clientSeqNo, o.key, o.value⟩
  | .error _ => .pad ""

/-- The request a step brings in. -/
def IngestLabel.submits : IngestLabel → List Ticket
  | .client _ _ _ op _ => [op.ticket]
  | _ => []

/-- What the tiers behind know an operation by. -/
structure Origin where
  l2Idx : ℤ
  l2SeqNo : ℤ
  clientId : Int64
  clientSeqNo : Int64
  deriving DecidableEq, Repr

def SequenceId.origin (seq : SequenceId) : Origin :=
  ⟨seq.l2Idx, seq.l2SeqNo, seq.clientId, seq.clientSeqNo⟩

/-- A command as the tiers behind an L2 worker know it. -/
def ChainOp.origin (idx : ℤ) (op : ChainOp) : Origin :=
  ⟨idx, op.seq.serverSeqNo, op.seq.clientId, op.seq.clientSeqNo⟩

namespace L1Proxy
variable {cfg : L1Config} {q : Ticket → Bool}

@[simp] lemma timed_ticket (clock : Option Int64) (op : L1Operation) :
    (timed clock op).ticket = op.ticket := by
  cases clock <;> rfl

@[simp] lemma numberSlot_ticket (clock : Option Int64) (idx n : ℤ) (i : ℕ) (op : L2Operation) :
    (numberSlot cfg clock idx n i op).ticket = op.ticket := by
  cases clock <;> rfl

lemma fillSlot_tickets (pads : ∀ key, q (.pad key) = false) (d : Draw)
    (queue : List L1Operation) :
    (if q (fillSlot d queue).1.ticket then 1 else 0) +
      ((fillSlot d queue).2.map L1Operation.ticket).countP q =
        (queue.map L1Operation.ticket).countP q := by
  have fake : ∀ key, (⟨{ clientId := fakeClientId }, key, 0, ""⟩ : L2Operation).ticket = .pad key :=
    fun _ => rfl
  unfold fillSlot
  split
  · cases queue with
    | nil => simp [fake, pads]
    | cons op queue =>
      rw [List.map_cons, List.countP_cons, add_comm]
      rfl
  · simp [fake, pads]

lemma fillBatch_tickets (pads : ∀ key, q (.pad key) = false) (draws : List Draw)
    (queue rest : List L1Operation) (batch whole : List L2Operation)
    (filled : fillBatch cfg draws queue batch = (rest, .ok whole)) :
    (whole.map L2Operation.ticket).countP q + (rest.map L1Operation.ticket).countP q =
      (batch.map L2Operation.ticket).countP q + (queue.map L1Operation.ticket).countP q := by
  induction draws generalizing queue batch with
  | nil =>
    simp only [fillBatch, Prod.mk.injEq, Except.ok.injEq] at filled
    rw [filled.1, filled.2]
  | cons d draws ih =>
    by_cases known : (fillSlot d queue).1.key ∈ cfg.keyToNumberOfReplicas
    · rw [fillBatch_cons known] at filled
      have slot := fillSlot_tickets pads d queue
      have later := ih _ _ filled
      rw [List.map_append, List.countP_append, List.map_singleton, List.countP_singleton,
        show (drawReplica cfg d (fillSlot d queue).1).ticket = (fillSlot d queue).1.ticket from
          rfl] at later
      omega
    · rw [fillBatch_unknown known] at filled
      simp at filled

end L1Proxy

namespace Ingest
variable (cfg : IngestConfig)

/-- The requests in the batches of a chain's log. -/
def batchTickets (ops : List ChainOp) : List Ticket :=
  ops.flatMap fun op => (batchOf cfg.l1 op.args).map L2Operation.ticket

/-- The worker exists in its column of the L2 tier. -/
def InL2 (c w : ℕ) : Prop := ∃ n, cfg.l1.l2Workers[c]? = some n ∧ w < n

/-- Both tiers in a run in which none of their instances fails. -/
structure Unbroken (s : Ingest) : Prop where
  l1 : ∀ k, Streams cfg.l1 (s.l1 k)
  rows1 : ∀ k, (s.l1 k).rows = if k < cfg.l1Workers.sum then cfg.l1Rows else 0
  l2 : ∀ c w, Flow (L2Proxy.replayable (cfg.l2 c w)) (L2Column.unseen (cfg.l2 c w)) ((s.l2 c).net w)
  rows2 : ∀ c w, ((s.l2 c).net w).rows = cfg.l2Rows
  iface : ∀ k i, ∀ clients ∈ ((s.l1 k).node i).user.l2Iface, clients = fullClients cfg.l1
  linked : ∀ k row x, s.link k row x ≠ [] → InL2 cfg x.column x.worker
  used : ∀ c w, (((s.l2 c).net w).node 0).ran ≠ [] → InL2 cfg c w

variable (s : Ingest)

/-- A step at row `i` of L1 worker `k`, which runs the commands `new`. -/
structure L1Change (label : IngestLabel) (k i : ℕ) (r : NetResult L1State L1Effect)
    (new : List ChainOp) : Prop where
  alive : (s.l1 k).alive i = true
  streams : Streams cfg.l1 r.net
  rows : r.net.rows = (s.l1 k).rows
  node : ∀ j, j ≠ i → r.net.node j = (s.l1 k).node j
  ran : (r.net.node i).ran = ((s.l1 k).node i).ran ++ new
  iface : (r.net.node i).user.l2Iface = ((s.l1 k).node i).user.l2Iface
  sent : r.outs = [] ∨ i + 1 = (s.l1 k).rows ∧
    (r.outs.map fun e => e.op.ticket) <+: batchTickets cfg new
  routed : ∀ e ∈ r.outs, InL2 cfg e.column e.worker
  queue : ∀ q : Ticket → Bool, (∀ key, q (.pad key) = false) →
    ((r.net.node i).user.internalQueue.map L1Operation.ticket).countP q +
        (if i = 0 then (batchTickets cfg new).countP q else 0) ≤
      (((s.l1 k).node i).user.internalQueue.map L1Operation.ticket).countP q +
        label.submits.countP q

/-- What a row of an L2 worker sends to the L3 tier: the command it has just run. -/
structure L2Forwards (c w i : ℕ) (new : List ChainOp) (e : L2Effect) : Prop where
  tail : i + 1 = cfg.l2Rows
  sent : ∃ column worker label o dedup, e = .forward column worker label o dedup ∧
    (∃ clients, (((s.l2 c).net w).node i).user.l3Iface = some clients ∧
      L2Proxy.routeL3 clients label = some (column, worker)) ∧
    ∃ op ∈ new, o.seqId.origin = op.origin (cfg.l2 c w).idx

/-- Row `i` of worker `w` of L2 column `c` runs the commands `new`. -/
structure L2Row (c w i : ℕ) (r : NetResult L2State L2Effect) (new : List ChainOp) : Prop where
  flow : Flow (L2Proxy.replayable (cfg.l2 c w)) (L2Column.unseen (cfg.l2 c w)) r.net
  rows : r.net.rows = ((s.l2 c).net w).rows
  node : ∀ j, j ≠ i → r.net.node j = ((s.l2 c).net w).node j
  ran : (r.net.node i).ran = (((s.l2 c).net w).node i).ran ++ new

/-- A step of the two tiers at that row. -/
structure L2Change (c w i : ℕ) (r : NetResult L2State L2Effect) (new : List ChainOp) : Prop
    extends L2Row cfg s c w i r new where
  number : ∀ op ∈ new, op.seq.serverSeqNo = (((s.l2 c).net w).node i).chainSeqNo + 1
  l3Iface : (r.net.node i).user.l3Iface = (((s.l2 c).net w).node i).user.l3Iface
  forwards : ∀ e ∈ r.outs, (∃ batch, e = .ackL1 batch) ∨ (∃ key value n, e = .populate key value n) ∨
    L2Forwards cfg s c w i new e
  once : r.outs.countP (fun e => match e with | .forward .. => true | _ => false) ≤ 1

/-- Everything a step can change. -/
inductive Change : IngestLabel → IngestResult → Prop
  | none {label status} : Change label ⟨s, [], status⟩
  | l1 {label k i r new status} (change : L1Change cfg s label k i r new) :
    Change label ⟨s.absorb k i r, [], status⟩
  | l2 {ext c label w i r new status} (change : L2Change cfg s c w i r new)
      (follows : i = 0 → new = []) :
    Change (.l2 ext c label) ⟨{ s with l2 := Function.update s.l2 c ((s.l2 c).absorb (cfg.l2 c) w i r).column },
      ((s.l2 c).absorb (cfg.l2 c) w i r).sent, status⟩
  | link {ext k row c w i x rest r new status} (popped : s.link k row ⟨c, w, i⟩ = x :: rest)
      (change : L2Change cfg s c w i r new) (taken : new = [] ∨ i = 0 ∧ new.map ChainOp.ticket = [x.ticket]) :
    Change (.deliver ext k row ⟨c, w, i⟩) ⟨{ s with
      l2 := Function.update s.l2 c ((s.l2 c).absorb (cfg.l2 c) w i r).column
      link := s.setLink k row ⟨c, w, i⟩ rest }, ((s.l2 c).absorb (cfg.l2 c) w i r).sent, status⟩

variable {cfg s}

lemma batchTickets_append (a b : List ChainOp) :
    batchTickets cfg (a ++ b) = batchTickets cfg a ++ batchTickets cfg b := List.flatMap_append

lemma slots_tickets (clock : Option Int64) (idx : ℤ) (op : ChainOp) :
    (slots cfg.l1 clock idx op).map L2Operation.ticket = batchTickets cfg [op] := by
  rw [batchTickets, List.flatMap_singleton]
  exact List.ext_getElem (by simp [slots]) fun j _ _ => by simp [slots]

lemma batchTickets_serialize (q : Ticket → Bool) (seq : SequenceId) (batch : List L2Operation) :
    (batchTickets cfg [⟨seq, batch.flatMap L2Operation.serialize⟩]).countP q ≤
      (batch.map L2Operation.ticket).countP q := by
  rw [batchTickets, List.flatMap_singleton, batchOf, L2Operation.deserializeBatch_serialize batch]
  dsimp only
  split
  · rw [List.map_map]
    exact le_rfl
  · simp

section L1
variable {oracle : L1Oracle} {label : IngestLabel} {k i : ℕ} {op : ChainOp} {m : ChainModule L1State}
  {net : ChainNet L1State} {o : Outcome (ChainModule L1State) (Send L1Effect)}

lemma Unbroken.routed (h : Unbroken cfg s) (workers : ∀ n ∈ cfg.l1.l2Workers, 0 < n)
    (some' : cfg.l1.l2Workers ≠ []) {pick : ℤ → ℕ} {clients : List L2Client}
    (iface : ((s.l1 k).node i).user.l2Iface = some clients) {e : L1Effect}
    (route : routeL2 cfg.l1 pick clients e.op = some (e.column, e.worker, e.row)) :
    InL2 cfg e.column e.worker := by
  obtain rfl := h.iface k i clients iface
  obtain ⟨c, n, found, routed⟩ := @routeL2_fullClients cfg.l1 pick some' e.op
  obtain ⟨column, rest⟩ := Prod.mk.inj (Option.some.inj (routed.symm.trans route))
  rw [← column, ← (Prod.mk.inj rest).1]
  exact ⟨n, found, Nat.mod_lt _ (workers n (List.mem_of_getElem? found))⟩

lemma L1Change.of_advanced (h : Unbroken cfg s) (workers : ∀ n ∈ cfg.l1.l2Workers, 0 < n)
    (some' : cfg.l1.l2Workers ≠ []) (alive : (s.l1 k).alive i = true)
    (agrees : Agrees m ((s.l1 k).node i))
    (iface : m.user.l2Iface = ((s.l1 k).node i).user.l2Iface) (node : net.node = (s.l1 k).node)
    (rows : net.rows = (s.l1 k).rows)
    (adv : Advanced (s.callbacks cfg oracle) ((s.l1 k).env (s.outside oracle.clock) m) m op o)
    (streams : Streams cfg.l1 (net.deposit i o))
    (queue : ∀ q : Ticket → Bool, (∀ key, q (.pad key) = false) →
      (m.user.internalQueue.map L1Operation.ticket).countP q +
          (if i = 0 then (batchTickets cfg [op]).countP q else 0) ≤
        (((s.l1 k).node i).user.internalQueue.map L1Operation.ticket).countP q +
          label.submits.countP q) :
    L1Change cfg s label k i (net.finish i o) [op] := by
  have isTail : m.isTail = ((s.l1 k).node i).isTail := by
    rw [ChainModule.isTail, agrees.role]
    rfl
  have user : o.state.user = (L1Proxy.runCommand cfg.l1 m.user op.seq op.args).state := by
    rw [adv.state, withUser_user]
    split
    · exact replicationComplete_state _ _ _
    · rfl
  have self : ((net.finish i o).net.node i) = o.state := by simp [finish]
  have kept : o.state.user.internalQueue = m.user.internalQueue ∧
      o.state.user.l2Iface = m.user.l2Iface := by
    rw [user]
    exact ⟨rfl, rfl⟩
  have outs : (net.finish i o).outs = if m.isTail then (L1Proxy.replicationComplete cfg.l1
      oracle.pick ((s.l1 k).env (s.outside oracle.clock) m)
      (L1Proxy.runCommand cfg.l1 m.user op.seq op.args).state op.seq op.args).sent else [] := adv.outs
  refine ⟨alive, streams, rows, fun j hj => ?_, ?_, ?_, ?_, fun e he => ?_, fun q pads => ?_⟩
  · simp [finish, hj, node]
  · rw [self, adv.state, withUser_ran, record_ran, agrees.ran]
  · rw [self, kept.2, iface]
  · cases tail : m.isTail with
    | false => exact .inl (by rw [outs, tail, if_neg Bool.false_ne_true])
    | true =>
      rw [outs, tail, if_pos rfl]
      rcases @replicationComplete_sent cfg.l1 oracle.pick ((s.l1 k).env (s.outside oracle.clock) m)
        (L1Proxy.runCommand cfg.l1 m.user op.seq op.args).state op with ⟨-, none⟩ | ⟨clients, -, part⟩
      · exact .inl none
      · right
        have whole := part.part.map L2Operation.ticket
        rw [slots_tickets, List.map_map] at whole
        exact ⟨((h.l1 k).isTail_iff alive).mp (isTail ▸ tail), whole⟩
  · rw [outs] at he
    split at he
    · obtain ⟨-, clients, found, route⟩ := @forwards_of_sent cfg.l1 oracle.pick
        ((s.l1 k).env (s.outside oracle.clock) m) m
        (L1Proxy.runCommand cfg.l1 m.user op.seq op.args).state rfl rfl op e he
      exact h.routed workers some' (iface ▸ found) route
    · simp at he
  · rw [self, kept.1]
    exact queue q pads

lemma L1Change.of_idle (alive : (s.l1 k).alive i = true) (node : net.node = (s.l1 k).node)
    (rows : net.rows = (s.l1 k).rows) (streams : Streams cfg.l1 (net.deposit i o))
    (ran : o.state.ran = ((s.l1 k).node i).ran)
    (iface : o.state.user.l2Iface = ((s.l1 k).node i).user.l2Iface) (outs : outsOf o.sent = [])
    (queue : ∀ q : Ticket → Bool, (o.state.user.internalQueue.map L1Operation.ticket).countP q ≤
      (((s.l1 k).node i).user.internalQueue.map L1Operation.ticket).countP q +
        label.submits.countP q) :
    L1Change cfg s label k i (net.finish i o) [] := by
  have self : ((net.finish i o).net.node i) = o.state := by simp [finish]
  have none : (net.finish i o).outs = [] := outs
  refine ⟨alive, streams, rows, fun j hj => ?_, ?_, ?_, .inl none, ?_, fun q _ => ?_⟩
  · simp [finish, hj, node]
  · rw [self, ran, List.append_nil]
  · rw [self, iface]
  · simp [none]
  · rw [self]
    simpa [batchTickets] using queue q

lemma client_change (h : Unbroken cfg s) (workers : ∀ n ∈ cfg.l1.l2Workers, 0 < n)
    (some' : cfg.l1.l2Workers ≠ []) {x : L1Operation} {draws : ℕ → Draw} {r : IngestResult}
    (taken : s.step cfg (.client oracle k i x draws) = some r) :
    Change cfg s (.client oracle k i x draws) r := by
  simp only [step, Option.ite_none_right_eq_some, Option.some.injEq] at taken
  obtain ⟨alive, rfl⟩ := taken
  have flow := (h.l1 k).flow oracle.pick s.reach
  rcases @processOp_cases cfg.l1 oracle.pick s.reach
      ((s.l1 k).env (s.outside oracle.clock) ((s.l1 k).node i)) ((s.l1 k).node i) x draws with
    ⟨-, dropped⟩ | ⟨head, queue, ⟨e, filled, raised⟩ | ⟨batch, filled, accepted⟩⟩
  · rw [dropped, ChainNet.finish, ChainNet.deposit_idle _ _ rfl rfl, Outcome.drop_sent, outsOf_nil,
      absorb_idle]
    exact .none
  · rw [raised]
    have node := (h.l1 k).node i
    refine .l1 (.of_idle alive rfl rfl (Flow.quiet (h.l1 k) rfl rfl
      ⟨node.count, node.numbers, node.pending⟩ rfl rfl rfl) rfl rfl rfl fun q => ?_)
    have part := @fillBatch_queue cfg.l1 (tossCoins cfg.l1 (rounds cfg.l1 draws))
      (((s.l1 k).node i).user.internalQueue ++ [timed oracle.clock x]) []
    have filled : fillBatch cfg.l1 (tossCoins cfg.l1 (rounds cfg.l1 draws)) (((s.l1 k).node i).user.internalQueue ++
      [timed oracle.clock x]) [] = (queue, .error e) := filled
    rw [filled] at part
    have fewer := (part.sublist.map L1Operation.ticket).countP_le (p := q)
    simpa [IngestLabel.submits] using fewer
  · rw [accepted]
    obtain rfl := (flow.isHead_iff alive).mp head
    have agrees := agrees_withUser ((s.l1 k).node 0)
      { ((s.l1 k).node 0).user with internalQueue := queue }
    obtain ⟨flow', ⟨no, _⟩ | ⟨_, adv⟩⟩ := @Flow.request _ _ _ _ _ _ _ flow (s.outside oracle.clock)
      alive _ agrees rfl { clientId := -1, clientSeqNo := -1, serverSeqNo := -1 } (batch.flatMap L2Operation.serialize)
      trivial
    · exact absurd trivial no
    · refine .l1 (.of_advanced h workers some' alive agrees rfl rfl rfl adv
        (streams_of_flow flow') fun q pads => ?_)
      have joined := fillBatch_tickets pads _ _ _ _ _ filled
      simp only [List.map_append, List.countP_append, List.map_nil, List.countP_nil, List.map_cons,
        timed_ticket] at joined
      simp only [withUser_user, if_true, IngestLabel.submits]
      refine (Nat.add_le_add_left (batchTickets_serialize q _ batch) _).trans ?_
      omega

lemma l1_change (h : Unbroken cfg s) (workers : ∀ n ∈ cfg.l1.l2Workers, 0 < n)
    (some' : cfg.l1.l2Workers ≠ []) {nl : NetLabel L1State} (steady : nl.steady = true)
    {r : IngestResult} (taken : s.step cfg (.l1 oracle k nl) = some r) :
    Change cfg s (.l1 oracle k nl) r := by
  simp only [step, Bool.and_eq_true, Option.ite_none_right_eq_some] at taken
  obtain ⟨⟨internal, -⟩, taken⟩ := taken
  obtain ⟨res, moved, rfl⟩ := Option.map_eq_some_iff.mp taken
  have flow := (h.l1 k).flow oracle.pick s.reach
  cases ChainNet.step_cases moved with
  | @deliver a j op rest popped alive =>
    have survives : s.survives cfg k (.deliver a j) = true := rfl
    rw [survives, absorb_same]
    obtain ⟨flow', rfl, adv⟩ := flow.deliver (s.outside oracle.clock) alive popped
    refine .l1 (.of_advanced h workers some' alive (agrees_meet _ _) ?_ rfl rfl adv
      (streams_of_flow flow') fun q _ => ?_)
    · rw [meet_user]
    · simp [NetLabel.row, meet_user, IngestLabel.submits]
  | @ackDeliver n a found alive =>
    have survives : s.survives cfg k (.ackDeliver n) = true := rfl
    have row : NetLabel.row (.ackDeliver n : NetLabel L1State) (s.l1 k).acks = a.dst := by
      simp [NetLabel.row, found]
    rw [survives, absorb_same, row]
    have effect := ackBatch_effect (s.callbacks cfg oracle)
      ((s.l1 k).env (s.outside oracle.clock) ((s.l1 k).node a.dst)) ((s.l1 k).node a.dst) a.seqs
      (P := fun _ => True) (by simp) (by simp)
    obtain ⟨_, _, _, state⟩ := effect.frame
    obtain ⟨_, user⟩ := @ackBatch_user cfg.l1 oracle.pick s.reach
      ((s.l1 k).env (s.outside oracle.clock) ((s.l1 k).node a.dst)) ((s.l1 k).node a.dst) a.seqs
    have iface := congrArg L1State.l2Iface user
    have queue := congrArg L1State.internalQueue user
    exact .l1 (.of_idle alive rfl rfl (streams_of_flow ((flow.dropAck _).acked effect rfl))
      (by rw [state]) iface (outs_ackBatch _ _) fun q => (congrArg (fun x =>
        (x.map L1Operation.ticket).countP q) queue).le.trans (Nat.le_add_right _ _))
  | request | ackFrom | touch | crash => simp [NetLabel.internal] at internal
  | setup | fetch | resend | lose | loseAck => simp [NetLabel.steady] at steady

lemma ackL1_change (h : Unbroken cfg s) {seqs : List SequenceId} {r : IngestResult}
    (taken : s.step cfg (.ackL1 oracle k i seqs) = some r) :
    Change cfg s (.ackL1 oracle k i seqs) r := by
  simp only [step, Option.ite_none_right_eq_some, Option.some.injEq] at taken
  obtain ⟨alive, rfl⟩ := taken
  have flow := (h.l1 k).flow oracle.pick s.reach
  have effect := @externalAckBatch_effect cfg.l1
    ((s.l1 k).env (s.outside oracle.clock) ((s.l1 k).node i)) (fun _ => True)
    (s.callbacks cfg oracle) ((s.l1 k).node i) seqs (by simp) (by simp)
  obtain ⟨_, _, _, state⟩ := effect.frame
  obtain ⟨⟨_, user⟩, outs⟩ := @externalAckBatch_user cfg.l1 oracle.pick s.reach
    ((s.l1 k).env (s.outside oracle.clock) ((s.l1 k).node i)) ((s.l1 k).node i) seqs
  have iface := congrArg L1State.l2Iface user
  have queue := congrArg L1State.internalQueue user
  exact .l1 (.of_idle alive rfl rfl (streams_of_flow (flow.acked effect rfl)) (by rw [state]) iface outs
    fun q => (congrArg (fun x => (x.map L1Operation.ticket).countP q) queue).le.trans
      (Nat.le_add_right _ _))

end L1

section L2
variable {label : IngestLabel} {c w i : ℕ} {ext : Outside L2Effect} {op : ChainOp}
  {m : ChainModule L2State} {net : ChainNet L2State}
  {o : Outcome (ChainModule L2State) (Send L2Effect)}

lemma forwardRequest_origin (c : L2Config) (env : Env L2Effect) (u : L2State) (op : ChainOp)
    (dedup : Bool) : (∀ e ∈ (L2Proxy.forwardRequest c env u op.seq op.args dedup).sent,
      ∃ column worker label o, e = .forward column worker label o dedup ∧
        (∃ clients, u.l3Iface = some clients ∧
          L2Proxy.routeL3 clients label = some (column, worker)) ∧
        o.seqId.origin = op.origin c.idx) ∧
      (L2Proxy.forwardRequest c env u op.seq op.args dedup).sent.length ≤ 1 := by
  unfold L2Proxy.forwardRequest
  split
  · simp
  · split
    · simp
    · split
      · simp
      · next clients iface =>
        split
        · simp
        · next l _ column worker route =>
          rw [Outcome.send_sent]
          split
          · refine ⟨fun e he => ?_, by simp⟩
            rw [List.mem_singleton.mp he]
            refine ⟨_, _, _, _, rfl, ⟨clients, iface, route⟩, ?_⟩
            cases env.clock <;> rfl
          · simp

lemma L2Change.of_advanced (h : Unbroken cfg s) (alive : ((s.l2 c).net w).alive i = true)
    (agrees : Agrees m (((s.l2 c).net w).node i)) (user : m.user = (((s.l2 c).net w).node i).user)
    (node : net.node = ((s.l2 c).net w).node) (rows : net.rows = ((s.l2 c).net w).rows)
    (adv : Advanced (L2Proxy.callbacks (cfg.l2 c w)) (((s.l2 c).net w).env ext m) m op o)
    (flow : Flow (L2Proxy.replayable (cfg.l2 c w)) (L2Column.unseen (cfg.l2 c w)) (net.deposit i o)) :
    L2Change cfg s c w i (net.finish i o) [op] := by
  have isTail : m.isTail = (((s.l2 c).net w).node i).isTail := by
    rw [ChainModule.isTail, agrees.role]
    rfl
  have self : ((net.finish i o).net.node i) = o.state := by simp [finish]
  have run := @L2Proxy.runCommand_l3Iface (cfg.l2 c w) m.user op.seq op.args
  have outs : (net.finish i o).outs = _ := adv.outs
  obtain ⟨forwards, once⟩ := forwardRequest_origin (cfg.l2 c w) (((s.l2 c).net w).env ext m)
    (L2Proxy.runCommand (cfg.l2 c w) m.user op.seq op.args).state op true
  refine ⟨⟨flow, rows, fun j hj => ?_, ?_⟩, fun x hx => ?_, ?_, fun e he => ?_, ?_⟩
  · simp [finish, hj, node]
  · rw [self, adv.state, withUser_ran, record_ran, agrees.ran]
  · rw [List.mem_singleton.mp hx, adv.number, agrees.count]
  · rw [self, adv.state, withUser_user, ← user]
    split
    · exact (congrArg L2State.l3Iface (L2Proxy.forwardRequest_state (cfg.l2 c w) _ _ _ _ _)).trans run
    · exact run
  · rw [outs, List.mem_append] at he
    rcases he with ran | sent
    · exact .inr (.inl (L2Proxy.runCommand_sent (cfg.l2 c w) m.user op.seq op.args e ran))
    · split at sent
      · next tail =>
        obtain ⟨column, worker, l, o', rfl, ⟨clients, iface, route⟩, origin⟩ := forwards e sent
        refine .inr (.inr ⟨?_, column, worker, l, o', true, rfl, ⟨clients, ?_, route⟩, op, by simp,
          origin⟩)
        · rw [isTail, (h.l2 c w).isTail_iff alive, h.rows2] at tail
          exact tail
        · rw [← user, ← run]
          exact iface
      · simp at sent
  · rw [outs, List.countP_append]
    have none : ((L2Proxy.callbacks (cfg.l2 c w)).runCommand (((s.l2 c).net w).env ext m) m.user op.seq
        op.args).sent.countP (fun e => match e with | .forward .. => true | _ => false) = 0 := by
      refine List.countP_eq_zero.mpr fun e he => ?_
      obtain ⟨_, _, _, rfl⟩ := L2Proxy.runCommand_sent (cfg.l2 c w) m.user op.seq op.args e he
      simp
    rw [none, zero_add]
    split
    · exact List.countP_le_length.trans once
    · simp

lemma L2Change.of_idle (node : net.node = ((s.l2 c).net w).node)
    (rows : net.rows = ((s.l2 c).net w).rows)
    (flow : Flow (L2Proxy.replayable (cfg.l2 c w)) (L2Column.unseen (cfg.l2 c w)) (net.deposit i o))
    (ran : o.state.ran = (((s.l2 c).net w).node i).ran)
    (l3Iface : o.state.user.l3Iface = (((s.l2 c).net w).node i).user.l3Iface)
    (acks : ∀ e ∈ outsOf o.sent, ∃ batch, e = L2Effect.ackL1 batch) :
    L2Change cfg s c w i (net.finish i o) [] := by
  have self : ((net.finish i o).net.node i) = o.state := by simp [finish]
  refine ⟨⟨flow, rows, fun j hj => ?_, ?_⟩, by simp, ?_, fun e he => .inl (acks e he), ?_⟩
  · simp [finish, hj, node]
  · rw [self, ran, List.append_nil]
  · rw [self, l3Iface]
  · refine (List.countP_eq_zero.mpr fun e he => ?_).le.trans (Nat.zero_le _)
    obtain ⟨batch, rfl⟩ := acks e he
    simp

lemma ticket_command (m : ChainModule L2State) (clock : Option Int64) (x : L2Operation) :
    ChainOp.ticket ⟨m.numbered (L2Proxy.timed clock x.seqId), L2Proxy.argsOf clock x⟩ =
      x.ticket := by
  have parsed := @L2Operation.deserialize_serialize
    { x with seqId := L2Proxy.timed clock x.seqId } [] (by simp [L2Operation.NoField])
  rw [List.append_nil] at parsed
  have client : ∀ seq : SequenceId, (m.numbered seq).clientId = seq.clientId ∧
      (m.numbered seq).clientSeqNo = seq.clientSeqNo := by
    intro seq
    unfold ChainModule.numbered
    split <;> exact ⟨rfl, rfl⟩
  simp only [ChainOp.ticket, L2Proxy.argsOf, parsed, client, L2Operation.ticket, L2Operation.plain]
  cases clock <;> rfl

lemma deliver_change (h : Unbroken cfg s) {k row : ℕ} {x : L2Target} {r : IngestResult}
    (taken : s.step cfg (.deliver ext k row x) = some r) :
    Change cfg s (.deliver ext k row x) r := by
  obtain ⟨c, w, i⟩ := x
  simp only [step] at taken
  split at taken
  · simp at taken
  · next x rest popped =>
    simp only [L2Column.step, Option.map_eq_some_iff, Option.ite_none_right_eq_some,
      Option.some.injEq] at taken
    obtain ⟨_, ⟨alive, rfl⟩, rfl⟩ := taken
    obtain ⟨flow, ⟨state, sent⟩ | ⟨rfl, known, runs, adv⟩⟩ :=
      L2Proxy.flow_asyncOperation (cfg.l2 c w) (h.l2 c w) ext alive x
    · refine .link popped (.of_idle rfl rfl flow (by rw [state]) (by rw [state]) ?_) (.inl rfl)
      simp [sent]
    · refine .link popped (.of_advanced h alive .rfl rfl rfl rfl adv flow) (.inr ⟨rfl, ?_⟩)
      rw [List.map_singleton, ticket_command]

lemma l2_change (h : Unbroken cfg s) {label : L2Label ℕ} (steady : label.steady = true)
    {r : IngestResult} (taken : s.step cfg (.l2 ext c label) = some r) :
    Change cfg s (.l2 ext c label) r := by
  have keeps := fun w env m seqs => L2Proxy.ackBatch_l3Iface (cfg.l2 c w) env m seqs
  cases label with
  | request => simp [step] at taken
  | crash => simp [L2Label.steady] at steady
  | externalAck w row seqs =>
    simp only [step, L2Column.step, Option.map_eq_some_iff, Option.ite_none_right_eq_some,
      Option.some.injEq] at taken
    obtain ⟨_, ⟨alive, rfl⟩, rfl⟩ := taken
    have effect := ackBatch_effect (L2Proxy.callbacks (cfg.l2 c w))
      (((s.l2 c).net w).env ext (((s.l2 c).net w).node row)) (((s.l2 c).net w).node row)
      (seqs.map fun q => { q with serverSeqNo := q.l2SeqNo }) (P := fun _ => True) (by simp) (by simp)
    obtain ⟨_, _, _, state⟩ := effect.frame
    refine .l2 (.of_idle rfl rfl ((h.l2 c w).ackBatch _ row _) ?_ (keeps w _ _ _)
      (L2Proxy.outs_ackBatch (cfg.l2 c w) _ _ _)) fun _ => rfl
    rw [L2Proxy.externalAckBatch, state]
  | chain w nl =>
    simp only [step, L2Column.step, Option.map_eq_some_iff, Option.ite_none_right_eq_some] at taken
    obtain ⟨_, ⟨internal, res, moved, rfl⟩, rfl⟩ := taken
    cases ChainNet.step_cases moved with
    | @deliver j a op rest popped alive =>
      obtain ⟨flow, rfl, adv⟩ := (h.l2 c w).deliver ext alive popped
      exact .l2 (.of_advanced h alive (agrees_meet _ _) (meet_user _ _) rfl rfl adv flow)
        fun zero => absurd zero (Nat.succ_ne_zero j)
    | @ackDeliver n a found alive =>
      have row : NetLabel.row (.ackDeliver n : NetLabel L2State) ((s.l2 c).net w).acks = a.dst := by
        simp [NetLabel.row, found]
      rw [row]
      have effect := ackBatch_effect (L2Proxy.callbacks (cfg.l2 c w))
        (((s.l2 c).net w).env ext (((s.l2 c).net w).node a.dst)) (((s.l2 c).net w).node a.dst) a.seqs
        (P := fun _ => True) (by simp) (by simp)
      obtain ⟨_, _, _, state⟩ := effect.frame
      exact .l2 (.of_idle rfl rfl (((h.l2 c w).dropAck _).ackBatch _ a.dst a.seqs) (by rw [state])
        (keeps w _ _ _) (L2Proxy.outs_ackBatch (cfg.l2 c w) _ _ _)) fun _ => rfl
    | request | ackFrom | touch | crash => simp [NetLabel.internal] at internal
    | setup | fetch | resend | lose | loseAck => simp [L2Label.steady, NetLabel.steady] at steady

end L2

/-- What a host in front of the L2 tier can count on. -/
structure Housed (cfg : IngestConfig) : Prop where
  l2Rows : 0 < cfg.l2Rows
  l2Workers : cfg.l1.l2Workers ≠ []
  workers : ∀ n ∈ cfg.l1.l2Workers, 0 < n

theorem Unbroken.change (housed : Housed cfg) (h : Unbroken cfg s) {label : IngestLabel}
    {r : IngestResult} (steady : label.steady = true) (taken : s.step cfg label = some r) :
    Change cfg s label r := by
  cases label with
  | client => exact client_change h housed.workers housed.l2Workers taken
  | l1 => exact l1_change h housed.workers housed.l2Workers steady taken
  | ackL1 => exact ackL1_change h taken
  | deliver => exact deliver_change h taken
  | l2 => exact l2_change h steady taken
  | crashL1 | lose | reconnect => simp [IngestLabel.steady] at steady

lemma Unbroken.updateL2 (h : Unbroken cfg s) {c w i : ℕ} {r : NetResult L2State L2Effect}
    {new : List ChainOp} (change : L2Row cfg s c w i r new)
    (inTier : i = 0 → new ≠ [] → InL2 cfg c w) {link : ℕ → ℕ → L2Target → List L2Operation}
    (fewer : ∀ k row x, link k row x ≠ [] → s.link k row x ≠ []) :
    Unbroken cfg { s with
      l2 := Function.update s.l2 c ((s.l2 c).absorb (cfg.l2 c) w i r).column
      link := link } := by
  have net : ∀ c' w', (Function.update s.l2 c ((s.l2 c).absorb (cfg.l2 c) w i r).column c').net w' =
      if c' = c ∧ w' = w then r.net else (s.l2 c').net w' := by
    intro c' w'
    rcases eq_or_ne c' c with rfl | hc
    · rcases eq_or_ne w' w with rfl | hw
      · simp [L2Column.absorb]
      · simp [L2Column.absorb, hw]
    · simp [hc]
  refine ⟨h.l1, h.rows1, fun c' w' => ?_, fun c' w' => ?_, h.iface,
    fun k row x some' => h.linked k row x (fewer k row x some'), fun c' w' ran => ?_⟩
  · rw [net]
    split
    · next here =>
      rw [here.1, here.2]
      exact change.flow
    · exact h.l2 c' w'
  · rw [net]
    split
    · next here => exact change.rows.trans (h.rows2 c w)
    · exact h.rows2 c' w'
  · rw [net] at ran
    split at ran
    · next here =>
      rw [here.1, here.2]
      rcases eq_or_ne 0 i with rfl | hi
      · rw [change.ran] at ran
        rcases eq_or_ne new [] with rfl | some'
        · rw [List.append_nil] at ran
          exact h.used c w ran
        · exact inTier rfl some'
      · rw [change.node 0 hi] at ran
        exact h.used c w ran
    · exact h.used c' w' ran

lemma Unbroken.updateL1 (h : Unbroken cfg s) {label : IngestLabel} {k i : ℕ}
    {r : NetResult L1State L1Effect} {new : List ChainOp} (change : L1Change cfg s label k i r new) :
    Unbroken cfg (s.absorb k i r) := by
  refine ⟨fun k' => ?_, fun k' => ?_, h.l2, h.rows2, fun k' j => ?_, fun k' row x some' => ?_, h.used⟩
  · rcases eq_or_ne k' k with rfl | other
    · simpa [absorb] using change.streams
    · simpa [absorb, other] using h.l1 k'
  · rcases eq_or_ne k' k with rfl | other
    · simpa [absorb, change.rows] using h.rows1 k'
    · simpa [absorb, other] using h.rows1 k'
  · rcases eq_or_ne k' k with rfl | other
    · simp only [absorb, Function.update_self]
      rcases eq_or_ne j i with rfl | hj
      · rw [change.iface]
        exact h.iface k' j
      · rw [change.node j hj]
        exact h.iface k' j
    · simpa [absorb, other] using h.iface k' j
  · simp only [absorb, forward] at some'
    split at some'
    · obtain ⟨op, hop⟩ := List.exists_mem_of_ne_nil _ some'
      rcases List.mem_append.mp hop with old | new'
      · exact h.linked k' row x (List.ne_nil_of_mem old)
      · obtain ⟨e, he, rfl⟩ := List.mem_map.mp new'
        obtain ⟨mem, target⟩ := List.mem_filter.mp he
        obtain rfl := of_decide_eq_true target
        exact change.routed e mem
    · exact h.linked k' row x some'

theorem Unbroken.next (h : Unbroken cfg s) {label : IngestLabel} {r : IngestResult}
    (change : Change cfg s label r) : Unbroken cfg r.state := by
  cases change with
  | none => exact h
  | l1 change => exact h.updateL1 change
  | l2 change follows =>
    exact h.updateL2 change.toL2Row (fun zero some' => absurd (follows zero) some') fun _ _ _ some' => some'
  | @link _ k row c w i x rest _ _ _ popped change =>
    refine h.updateL2 change.toL2Row (fun _ _ => h.linked k row ⟨c, w, i⟩ (by simp [popped]))
      fun k' row' y some' => ?_
    unfold setLink at some'
    split at some'
    · next here =>
      obtain ⟨rfl, rfl, rfl⟩ := here
      simp [popped]
    · exact some'

lemma unbroken_start (housed : Housed cfg) : Unbroken cfg (start cfg) := by
  have up : ∀ column : ℕ, (fun (_ row : ℕ) => decide (row < cfg.l2Rows)) column 0 = true :=
    fun _ => decide_eq_true housed.l2Rows
  refine ⟨?_, fun _ => rfl, ?_, fun _ _ => rfl, fun k i clients found => ?_,
    fun _ _ _ some' => absurd rfl some', fun c w ran => ?_⟩
  · exact fun k => streams_of_flow (Flow.start (replayable cfg.l1 _ _) _ _ _ fun _ _ => rfl)
  · exact fun c w => Flow.start (L2Proxy.replayable (cfg.l2 c w)) _ _ _ fun _ _ => rfl
  · have user : (((start cfg).l1 k).node i).user = setupCallback cfg.l1
        (fun _ row => decide (row < cfg.l2Rows))
        (initRole (if k < cfg.l1Workers.sum then cfg.l1Rows else 0) i)
        (L1Proxy.initState (cfg.l1Idx k i)) := rfl
    rw [user, Option.mem_def] at found
    generalize initRole (if k < cfg.l1Workers.sum then cfg.l1Rows else 0) i = role at found
    unfold setupCallback at found
    split at found
    · exact (Option.some.inj found).symm.trans (connect_all up)
    · simp [L1Proxy.initState] at found
  · simp [start, L2Column.start, ChainNet.start, ChainModule.setup] at ran

end Ingest
end Shortstack
