import Shortstack.AnswerTokens
import Shortstack.ClientDeployment
import Shortstack.ClientTickets
import Shortstack.L3Removal
import Shortstack.ResendOnce

/-! What an answer costs. While no L1 or L2 instance fails, every operation behind the L2 tier is
paid for by a command that an L2 tail has run, and every command by a request of a client. A
selective resend forwards some commands again, which must not be for the request in question. -/
namespace Shortstack
open ChainModule ChainNet Linearizability Tokens Transition

/-- The commands `filter_request` lets through. -/
def L2Proxy.filtered (cfg : L2Config) (column numColumns : ℕ) (ops : List ChainOp) : List ChainOp :=
  ops.filter fun op => filterRequest cfg op.args column numColumns = .ok true

/-- The commands a selective resend forwards again. -/
def PipelineLabel.resent (cfg : PipelineConfig) : PipelineLabel → List ChainOp
  | .selectiveResend _ x column numColumns ops =>
    L2Proxy.filtered (cfg.l2 x.column x.worker) column numColumns ops
  | _ => []

/-- No command of a client's request is forwarded again. -/
def PipelineLabel.spares (cfg : PipelineConfig) (j : RequestId) (label : PipelineLabel) : Prop :=
  ∀ op ∈ label.resent cfg, op.seq.client ≠ j

instance (cfg : PipelineConfig) (j : RequestId) (label : PipelineLabel) :
    Decidable (label.spares cfg j) :=
  inferInstanceAs (Decidable (∀ op ∈ label.resent cfg, op.seq.client ≠ j))

/-- The answers a step gives. -/
def PipelineLabel.answers (cfg : PipelineConfig) (s : Pipeline) : PipelineLabel → List ClientResponse
  | .l3 _ y .respond => (((s.l3 y).respond cfg.l3).map Prod.fst).toList
  | _ => []

/-- The request a step brings in. -/
def PipelineLabel.submits : PipelineLabel → List Ticket
  | .client _ _ _ op _ => [op.ticket]
  | _ => []

namespace L2Column
variable {cfg : IngestConfig} {s : Ingest} {c w i : ℕ} {r : NetResult L2State L2Effect}
  {new : List ChainOp} {q : Origin → Bool}

lemma forwarded_le (change : Ingest.L2Change cfg s c w i r new) :
    (r.outs.filterMap forwardOrigin).countP q ≤
      if i + 1 = cfg.l2Rows then (new.map (ChainOp.origin (cfg.l2 c w).idx)).countP q else 0 := by
  have short : (r.outs.filterMap forwardOrigin).length ≤ 1 := by
    rw [List.length_filterMap_eq_countP]
    refine le_trans (le_of_eq ?_) change.once
    refine List.countP_congr fun e _ => ?_
    cases e <;> simp [forwardOrigin]
  cases all : r.outs.filterMap forwardOrigin with
  | nil => exact Nat.zero_le _
  | cons o rest =>
    obtain rfl : rest = [] := by
      rw [all, List.length_cons] at short
      exact List.length_eq_zero_iff.mp (by omega)
    obtain ⟨e, sent, is⟩ := List.mem_filterMap.mp (all ▸ List.mem_singleton_self o :
      o ∈ r.outs.filterMap forwardOrigin)
    rcases change.forwards e sent with ⟨batch, rfl⟩ | ⟨key, value, n, rfl⟩ | forwards
    · simp [forwardOrigin] at is
    · simp [forwardOrigin] at is
    · obtain ⟨column, worker, label, o', dedup, rfl, -, op, mem, origin⟩ := forwards.sent
      obtain rfl : o'.seqId.origin = o := Option.some.inj is
      rw [if_pos forwards.tail, List.countP_singleton, origin]
      split
      · next is' => exact List.countP_pos_iff.mpr ⟨_, List.mem_map_of_mem mem, is'⟩
      · exact Nat.zero_le _

end L2Column

namespace L2Proxy
variable {cfg : L2Config} {env : Env L2Effect} {m : ChainModule L2State}

/-- The effect forwards one of the commands. -/
def ForwardsOf (cfg : L2Config) (ops : List ChainOp) (e : L2Effect) : Prop :=
  ∃ column worker label p dedup, e = .forward column worker label p dedup ∧
    ∃ op ∈ ops, p.seqId.origin = op.origin cfg.idx

/-- What the manager's calls can do to the tail of an L2 worker: change its interfaces and
forward some of its commands again. -/
structure Managed (cfg : L2Config) (m : ChainModule L2State) (ops : List ChainOp)
    (o : Outcome (ChainModule L2State) (Send L2Effect)) : Prop where
  state : ∃ u, o.state = m.withUser u ∧ u.lastSeenSeq = m.user.lastSeenSeq
  requests : requestsOf o.sent = []
  forwards : ∀ e ∈ outsOf o.sent, ForwardsOf cfg ops e

lemma managed_idle (m : ChainModule L2State) (status : Status) : Managed cfg m [] ⟨m, [], status⟩ :=
  ⟨⟨m.user, rfl, rfl⟩, rfl, by simp⟩

lemma managed_removeConnection (column : ℕ) : Managed cfg m [] (removeConnection m column) := by
  unfold removeConnection
  split
  · split
    · exact managed_idle m _
    · split
      · exact managed_idle m _
      · exact ⟨⟨_, rfl, rfl⟩, rfl, by simp⟩
  · exact managed_idle m _

lemma managed_connectAcks (column row n : ℕ) : Managed cfg m [] (connectAcks m column row n) := by
  unfold connectAcks
  split
  · exact ⟨⟨_, rfl, rfl⟩, rfl, by simp⟩
  · exact managed_idle m _

lemma resendFiltered_effect (column n : ℕ) {ops : List ChainOp} {op : ChainOp} (mem : op ∈ ops) :
    (resendFiltered cfg env column n m op).state = m ∧
      requestsOf (resendFiltered cfg env column n m op).sent = [] ∧
      ∀ e ∈ outsOf (resendFiltered cfg env column n m op).sent,
        ForwardsOf cfg (filtered cfg column n ops) e := by
  unfold resendFiltered
  split
  · exact ⟨rfl, rfl, by simp⟩
  · exact ⟨rfl, rfl, by simp⟩
  · next through =>
    have inside : op ∈ filtered cfg column n ops := List.mem_filter.mpr ⟨mem, decide_eq_true through⟩
    refine ⟨?_, ?_, fun e sent => ?_⟩
    · rw [call_state, forwardRequest_state, withUser_self]
    · rw [call_sent, requestsOf_out]
    · rw [call_sent, outsOf_out] at sent
      obtain ⟨c, w, label, p, is, -, origin⟩ :=
        (Ingest.forwardRequest_origin cfg env m.user op false).1 e sent
      exact ⟨c, w, label, p, false, is, op, inside, origin⟩

lemma resendFiltered_loop (column n : ℕ) (ops : List ChainOp) :
    let o := Outcome.forEach (resendFiltered cfg env column n) ops m
    o.state = m ∧ requestsOf o.sent = [] ∧
      ∀ e ∈ outsOf o.sent, ForwardsOf cfg (filtered cfg column n ops) e := by
  refine Outcome.forEach_induction (P := fun t sent => t = m ∧ requestsOf sent = [] ∧
    ∀ e ∈ outsOf sent, ForwardsOf cfg (filtered cfg column n ops) e) ops m [] ?_ ⟨rfl, rfl, by simp⟩
  rintro _ sent op mem ⟨rfl, requests, forwards⟩
  obtain ⟨state, none, here⟩ := @resendFiltered_effect cfg env _ column n ops op mem
  refine ⟨state, by rw [requestsOf_append, requests, none, List.append_nil], fun e he => ?_⟩
  rw [outsOf_append, List.mem_append] at he
  exact he.elim (forwards e) (here e)

lemma managed_selectiveResend (column n : ℕ) (ops : List ChainOp) :
    Managed cfg m (filtered cfg column n ops) (selectiveResendPending cfg env m column n ops) := by
  unfold selectiveResendPending
  split
  · exact ⟨⟨m.user, rfl, rfl⟩, rfl, by simp⟩
  · obtain ⟨state, requests, forwards⟩ := @resendFiltered_loop cfg env m column n ops
    exact ⟨⟨m.user, state, rfl⟩, requests, forwards⟩

end L2Proxy

namespace Pipeline
variable (cfg : PipelineConfig)

/-- The commands of some kind that the tail of an L2 worker has run. -/
def ranBy (q : Origin → Bool) (s : Pipeline) (p : ℕ × ℕ) : ℕ :=
  ((tailRan cfg s p.1 p.2).map (ChainOp.origin (cfg.l2 p.1 p.2).idx)).countP q

/-- There are no more operations of a kind behind the L2 tier than its tails have run. -/
def Paid (q : Origin → Bool) (s : Pipeline) : Prop :=
  ∃ n, Exactly (ranBy cfg q s) n ∧ AtMost (served q s) n

variable {cfg} {s s₀ s' : Pipeline} {q : Origin → Bool}

lemma Paid.mono (h : Paid cfg q s) (ran : ∀ c w, tailRan cfg s' c w = tailRan cfg s c w)
    (fewer : ∀ n, AtMost (served q s) n → AtMost (served q s') n) : Paid cfg q s' := by
  obtain ⟨n, exact', bound⟩ := h
  refine ⟨n, ?_, fewer n bound⟩
  rwa [show ranBy cfg q s' = ranBy cfg q s by
    funext p
    rw [ranBy, ranBy, ran]]

lemma absorb_served (column : ℕ) (r : IngestResult) {n : ℕ} (bound : AtMost (served q s) n) :
    AtMost (served q (s.absorb column r).state) (n + (sentOrigins r.sent).countP q) :=
  served_post column r.sent { s with ingest := r.state } (served_congr bound rfl rfl rfl rfl)

lemma l2Node_ran {c w i : ℕ} {r : NetResult L2State L2Effect} {new : List ChainOp} {t t' : Ingest}
    (change : Ingest.L2Row cfg.toIngestConfig t c w i r new)
    (l2 : t'.l2 = Function.update t.l2 c ((t.l2 c).absorb (cfg.l2 c) w i r).column) (x : L2Target) :
    (t'.l2Node x).ran = if x = ⟨c, w, i⟩ then (t.l2Node x).ran ++ new else (t.l2Node x).ran := by
  obtain ⟨c', w', j⟩ := x
  unfold Ingest.l2Node
  rw [l2]
  dsimp only
  by_cases hc : c' = c
  · subst hc
    by_cases hw : w' = w
    · subst hw
      by_cases hj : j = i
      · subst hj
        simp [L2Column.absorb, change.ran]
      · simp [L2Column.absorb, hj, change.node j hj]
    · simp [L2Column.absorb, hw]
  · simp [hc]

lemma Paid.row (h : Paid cfg q s) (rows : 0 < cfg.l2Rows) {c w i : ℕ} {r : NetResult L2State L2Effect}
    {new : List ChainOp} (change : Ingest.L2Row cfg.toIngestConfig s.ingest c w i r new)
    (forwarded : (r.outs.filterMap L2Column.forwardOrigin).countP q ≤
      if i + 1 = cfg.l2Rows then (new.map (ChainOp.origin (cfg.l2 c w).idx)).countP q else 0)
    (column : ℕ) {t : IngestResult}
    (l2 : t.state.l2 = Function.update s.ingest.l2 c ((s.ingest.l2 c).absorb (cfg.l2 c) w i r).column)
    (sent : t.sent = ((s.ingest.l2 c).absorb (cfg.l2 c) w i r).sent)
    (same : s₀.link = s.link ∧ s₀.l3 = s.l3 ∧ s₀.l3Alive = s.l3Alive ∧ s₀.responses = s.responses) :
    Paid cfg q (s₀.absorb column t).state := by
  obtain ⟨n, exact', bound⟩ := h
  have before : AtMost (served q s₀) n :=
    served_congr bound same.1 same.2.1 same.2.2.1 same.2.2.2
  have after := absorb_served column t before
  rw [sent, (L2Column.absorb_origins (cfg.l2 c) w i (s.ingest.l2 c) r).1] at after
  have ran : ∀ c' w', tailRan cfg (s₀.absorb column t).state c' w' =
      if l2Tail cfg c' w' = ⟨c, w, i⟩ then tailRan cfg s c' w' ++ new else tailRan cfg s c' w' := by
    intro c' w'
    rw [tailRan, absorb_ingest]
    exact l2Node_ran change l2 _
  refine ⟨n + if i + 1 = cfg.l2Rows then (new.map (ChainOp.origin (cfg.l2 c w).idx)).countP q else 0,
    exact'.gain (c, w) ?_ fun p other => ?_, after.mono (fun _ => le_rfl) (by omega)⟩
  · rw [ranBy, ran]
    by_cases last : i + 1 = cfg.l2Rows
    · rw [if_pos last, if_pos (by rw [l2Tail, ← last]; rfl), List.map_append, List.countP_append]
      rfl
    · rw [if_neg last, if_neg, add_zero]
      · rfl
      · rw [l2Tail, L2Target.mk.injEq]
        omega
  · rw [ranBy, ran, if_neg]
    · rfl
    · rintro same
      obtain ⟨hc, hw, -⟩ := L2Target.mk.inj same
      exact other (Prod.ext hc hw)

lemma Paid.ingest (h : Paid cfg q s) (rows : 0 < cfg.l2Rows) {il : IngestLabel} {ir : IngestResult}
    (change : Ingest.Change cfg.toIngestConfig s.ingest il ir) (column : ℕ)
    (same : s₀.link = s.link ∧ s₀.l3 = s.l3 ∧ s₀.l3Alive = s.l3Alive ∧ s₀.responses = s.responses) :
    Paid cfg q (s₀.absorb column ir).state := by
  have quiet : ∀ r : IngestResult, r.state.l2 = s.ingest.l2 → r.sent = [] →
      Paid cfg q (s₀.absorb column r).state := by
    intro r l2 sent
    refine h.mono (fun c w => ?_) fun n bound => ?_
    · rw [tailRan, absorb_ingest, Ingest.l2Node, l2]
      rfl
    · have after := absorb_served (s := s₀) column r
        (served_congr bound same.1 same.2.1 same.2.2.1 same.2.2.2)
      rwa [sent] at after
  cases change with
  | none => exact quiet _ rfl rfl
  | l1 => exact quiet _ rfl rfl
  | l2 change => exact h.row rows change.toL2Row (L2Column.forwarded_le change) column rfl rfl same
  | link _ change => exact h.row rows change.toL2Row (L2Column.forwarded_le change) column rfl rfl same

lemma Paid.manage (h : Paid cfg q s) (rows : 0 < cfg.l2Rows) {x : L2Target} {ops : List ChainOp}
    {o : Outcome (ChainModule L2State) (Send L2Effect)}
    (row : Ingest.L2Row cfg.toIngestConfig s.ingest x.column x.worker x.row
      (((s.ingest.l2 x.column).net x.worker).finish x.row o) [])
    (managed : L2Proxy.Managed (cfg.l2 x.column x.worker)
      (((s.ingest.l2 x.column).net x.worker).node x.row) ops o)
    (spared : ∀ op ∈ ops, q (op.origin (cfg.l2 x.column x.worker).idx) = false) :
    Paid cfg q (s.callL2 cfg x o).state := by
  refine h.row rows row ?_ x.column rfl rfl ⟨rfl, rfl, rfl, rfl⟩
  refine le_of_eq_of_le ?_ (Nat.zero_le _)
  refine List.countP_eq_zero.mpr fun origin mem => ?_
  obtain ⟨e, sent, is⟩ := List.mem_filterMap.mp mem
  obtain ⟨c, w, label, p, dedup, rfl, op, inside, same⟩ := managed.forwards e sent
  obtain rfl : p.seqId.origin = origin := Option.some.inj is
  rw [same, spared op inside]
  exact Bool.false_ne_true

lemma Manages.managed {label : PipelineLabel} {x : L2Target}
    {o : Outcome (ChainModule L2State) (Send L2Effect)} (source : Manages cfg s label x o) :
    ∃ ops, L2Proxy.Managed (cfg.l2 x.column x.worker)
        (((s.ingest.l2 x.column).net x.worker).node x.row) ops o ∧
      ∀ j, label.spares cfg j → ∀ op ∈ ops, op.seq.client ≠ j := by
  cases source with
  | removeL3 => exact ⟨[], L2Proxy.managed_removeConnection _, by simp⟩
  | selectiveResend => exact ⟨_, L2Proxy.managed_selectiveResend _ _ _, fun j spares => spares⟩
  | connectL1Acks => exact ⟨[], L2Proxy.managed_connectAcks _ _ _, by simp⟩

lemma row_of_managed (unbroken : Ingest.Unbroken cfg.toIngestConfig s.ingest) {x : L2Target}
    {ops : List ChainOp} {o : Outcome (ChainModule L2State) (Send L2Effect)}
    (managed : L2Proxy.Managed (cfg.l2 x.column x.worker)
      (((s.ingest.l2 x.column).net x.worker).node x.row) ops o) :
    Ingest.L2Row cfg.toIngestConfig s.ingest x.column x.worker x.row
      (((s.ingest.l2 x.column).net x.worker).finish x.row o) [] := by
  obtain ⟨u, state, seen⟩ := managed.state
  have flow := unbroken.l2 x.column x.worker
  have node := flow.node x.row
  refine ⟨?_, rfl, fun j hj => ?_, ?_⟩
  · apply flow.quiet
    · rw [state]
      rfl
    · rw [state]
      rfl
    · rw [state]
      exact ⟨node.count, node.numbers, node.pending⟩
    · rw [state]
      rfl
    · rw [state]
      exact seen
    · exact managed.requests
  · simp [finish, hj]
  · simp [finish, state]

lemma callL2_ran {x : L2Target} {o : Outcome (ChainModule L2State) (Send L2Effect)}
    (row : Ingest.L2Row cfg.toIngestConfig s.ingest x.column x.worker x.row
      (((s.ingest.l2 x.column).net x.worker).finish x.row o) []) (y : L2Target) :
    ((s.callL2 cfg x o).state.ingest.l2Node y).ran = (s.ingest.l2Node y).ran := by
  rw [callL2, absorb_ingest, l2Node_ran row, List.append_nil, ite_self]
  rfl

/-- What a step of an L3 worker leaves of the worker, and what it lets go. -/
structure ServesAt (s s' : Pipeline) (y : ℕ × ℕ) (worker : L3Worker) (out : List ClientResponse) :
    Prop where
  passes : L3Worker.Passes (s.l3 y) worker out
  ingest : s'.ingest = s.ingest
  link : s'.link = s.link
  l3 : s'.l3 = Function.update s.l3 y worker
  alive : s'.l3Alive = s.l3Alive
  responses : s'.responses = s.responses ++ out
  up : out = [] ∨ s.l3Alive y.1 = true

lemma stepL3_serves {clock : Option Int64} {y : ℕ × ℕ} {label : L3Label} {r : PipelineResult}
    (taken : s.stepL3 cfg clock y label = some r) :
    ∃ worker, ServesAt s r.state y worker ((PipelineLabel.l3 clock y label).answers cfg s) := by
  have still : s.responses = s.responses ++ [] := (List.append_nil _).symm
  cases label with
  | serveGet =>
    obtain ⟨worker, found, rfl⟩ := Option.map_eq_some_iff.mp taken
    exact ⟨worker, L3Worker.serveGet_passes found, rfl, rfl, rfl, rfl, still, .inl rfl⟩
  | servePut =>
    obtain ⟨⟨kv, worker⟩, found, rfl⟩ := Option.map_eq_some_iff.mp taken
    exact ⟨worker, L3Worker.servePut_passes found, rfl, rfl, rfl, rfl, still, .inl rfl⟩
  | getReply =>
    simp only [stepL3, Option.ite_none_right_eq_some, Option.map_eq_some_iff] at taken
    obtain ⟨-, o, found, rfl⟩ := taken
    exact ⟨o.state, L3Worker.getCallback_passes found, rfl, rfl, rfl, rfl, still, .inl rfl⟩
  | crypto =>
    simp only [stepL3, Option.ite_none_right_eq_some, Option.map_eq_some_iff] at taken
    obtain ⟨-, worker, found, rfl⟩ := taken
    exact ⟨worker, L3Worker.cryptoRound_passes found, rfl, rfl, rfl, rfl, still, .inl rfl⟩
  | putReply =>
    simp only [stepL3, Option.ite_none_right_eq_some, Option.map_eq_some_iff] at taken
    obtain ⟨-, o, found, rfl⟩ := taken
    exact ⟨o.state, L3Worker.putCallback_passes found, rfl, rfl, rfl, rfl, still, .inl rfl⟩
  | respond =>
    simp only [stepL3, Option.ite_none_right_eq_some, Option.map_eq_some_iff] at taken
    obtain ⟨alive, ⟨x, worker⟩, found, rfl⟩ := taken
    have out : (PipelineLabel.l3 clock y .respond).answers cfg s = [x] := by
      simp [PipelineLabel.answers, found]
    rw [out]
    exact ⟨worker, L3Worker.respond_passes found, rfl, rfl, rfl, rfl, rfl, .inr alive⟩

lemma Paid.serve (h : Paid cfg q s) {y : ℕ × ℕ} {worker : L3Worker} {out : List ClientResponse}
    (served : ServesAt s s' y worker out) : Paid cfg q s' := by
  refine h.mono (fun c w => by rw [tailRan, served.ingest]; rfl) fun n bound => ?_
  exact served_pass bound served.link served.l3 served.alive served.responses served.passes served.up

lemma Paid.accept (h : Paid cfg q s) {clock : Option Int64} {x : L2Target} {y : ℕ × ℕ}
    {op : L3Operation} {rest : List L3Operation} (popped : s.link x y = op :: rest) :
    Paid cfg q (({ s with link := s.setLink x y rest } : Pipeline).finishL3 cfg y
      ((s.l3 y).asyncOperation cfg.l3 clock op)).state := by
  refine h.mono (fun _ _ => rfl) fun n bound => ?_
  exact served_accept bound popped rfl rfl rfl rfl ((L3Worker.asyncOperation_held op).1 q)

/-- The operation is for this request. -/
def client (j : RequestId) (o : Origin) : Bool := (o.clientId, o.clientSeqNo) = j

/-- Every step with which no L1 or L2 instance fails keeps the balance, unless it forwards a
command of the request again. -/
theorem Paid.step (housed : Ingest.Housed cfg.toIngestConfig)
    (unbroken : Ingest.Unbroken cfg.toIngestConfig s.ingest) {j : RequestId}
    (h : Paid cfg (client j) s)
    {label : PipelineLabel} (calm : label.calm = true) (spares : label.spares cfg j) {r : PipelineResult}
    (taken : s.step cfg label = some r) : Paid cfg (client j) r.state := by
  rcases calm_entry calm taken with ⟨s₀, column, il, ir, source, steady, inner, rfl⟩ | ⟨case, none⟩
  · obtain ⟨-, link, l3, alive⟩ := source.frame
    refine h.ingest housed.l2Rows (unbroken.change housed steady inner) column ⟨link, l3, alive, ?_⟩
    cases source <;> rfl
  · cases case with
    | ingest source => exact absurd source (none _ _ _)
    | manager source =>
      obtain ⟨ops, managed, spared⟩ := source.managed
      exact h.manage housed.l2Rows (row_of_managed unbroken managed) managed fun op mem =>
        decide_eq_false (spared j spares op mem)
    | accept popped _ => exact h.accept popped
    | l3 taken =>
      obtain ⟨_, served⟩ := stepL3_serves taken
      exact h.serve served
    | @crashL3 column =>
      refine h.mono (fun _ _ => rfl) fun n bound => ?_
      refine served_fewer bound (fun _ _ => .refl _) rfl (fun c up => ?_) rfl
      have up : Function.update s.l3Alive column false c = true := up
      by_cases same : c = column
      · subst same
        simp at up
      · rwa [Function.update_of_ne same] at up
    | @loseL3 x y kept part =>
      refine h.mono (fun _ _ => rfl) fun n bound => ?_
      refine served_fewer bound (fun a b => ?_) rfl (fun _ up => up) rfl
      simp only [setLink]
      split
      · next here =>
        rw [here.1, here.2]
        exact part.sublist
      · exact .refl _
    | loseL2Ack => exact h.mono (fun _ _ => rfl) fun n bound => served_congr bound rfl rfl rfl rfl
    | @connectL2Acks y column row alive =>
      refine h.mono (fun _ _ => rfl) fun n bound => ?_
      exact served_pass (y := y) bound rfl rfl rfl (List.append_nil _).symm (.of_pipe (.refl _) rfl)
        (.inl rfl)

/-- In front of the L2 tier a step duplicates no request, whatever the clients ask for. -/
theorem fronts_step (housed : Ingest.Housed cfg.toIngestConfig)
    (unbroken : Ingest.Unbroken cfg.toIngestConfig s.ingest) {label : PipelineLabel}
    (calm : label.calm = true) {r : PipelineResult} (taken : s.step cfg label = some r) :
    Ingest.Unbroken cfg.toIngestConfig r.state.ingest ∧
      ∀ (q : Ticket → Bool) (n : ℕ), (∀ key, q (.pad key) = false) →
        AtMost (Ingest.copies cfg.toIngestConfig q s.ingest) n →
        AtMost (Ingest.copies cfg.toIngestConfig q r.state.ingest) (n + label.submits.countP q) := by
  have same : r.state.ingest = s.ingest → Ingest.Unbroken cfg.toIngestConfig r.state.ingest ∧
      ∀ (q : Ticket → Bool) (n : ℕ), (∀ key, q (.pad key) = false) →
        AtMost (Ingest.copies cfg.toIngestConfig q s.ingest) n →
        AtMost (Ingest.copies cfg.toIngestConfig q r.state.ingest) (n + label.submits.countP q) := by
    intro eq
    rw [eq]
    exact ⟨unbroken, fun q n _ bound => Ingest.copies_congr bound (fun _ => rfl) _⟩
  rcases calm_entry calm taken with ⟨s₀, column, il, ir, source, steady, inner, rfl⟩ | ⟨case, none⟩
  · have change := unbroken.change housed steady inner
    rw [absorb_ingest]
    refine ⟨unbroken.next change, fun q n pads bound => ?_⟩
    have stepped := Ingest.copies_step unbroken pads change bound
    cases source <;> exact stepped
  · cases case with
    | ingest source => exact absurd source (none _ _ _)
    | @manager _ x o source =>
      obtain ⟨ops, managed, -⟩ := source.managed
      have row := row_of_managed unbroken managed
      refine ⟨?_, fun q n _ bound => Ingest.copies_congr bound (fun p => ?_) _⟩
      · rw [callL2, absorb_ingest]
        exact unbroken.updateL2 row (fun _ some' => absurd rfl some') fun _ _ _ some' => some'
      · cases p with
        | log c w => exact congrArg (List.map ChainOp.ticket) (callL2_ran row ⟨c, w, 0⟩)
        | queue | waiting | link =>
          rw [callL2, absorb_ingest]
          rfl
    | l3 taken => exact same (stepL3_frame taken).1
    | accept | crashL3 | loseL3 | loseL2Ack | connectL2Acks => exact same rfl

/-- Every command of the L2 tier carries an operation. -/
def Parsed (s : Pipeline) : Prop :=
  ∀ x : L2Target, ∀ op ∈ (s.ingest.l2Node x).ran, (chainSlot op).isSome = true

theorem Parsed.step (h : Parsed s) (unbroken : Ingest.Unbroken cfg.toIngestConfig s.ingest)
    {label : PipelineLabel} (calm : label.calm = true) {r : PipelineResult}
    (taken : s.step cfg label = some r) : Parsed r.state := by
  rcases calm_entry calm taken with ⟨s₀, column, il, ir, -, -, inner, rfl⟩ | ⟨case, none⟩
  · intro x
    rw [absorb_ingest]
    exact Ingest.kept_step (fun c w => L2Proxy.parsed_kept (cfg.l2 c w)) (fun _ _ _ _ _ h => h)
      (fun c w i => h ⟨c, w, i⟩) inner x.column x.worker x.row
  · cases case with
    | ingest source => exact absurd source (none _ _ _)
    | manager source =>
      obtain ⟨ops, managed, -⟩ := source.managed
      intro x
      rw [callL2_ran (row_of_managed unbroken managed)]
      exact h x
    | l3 taken =>
      have same := (stepL3_frame taken).1
      unfold Parsed
      rw [same]
      exact h
    | accept | crashL3 | loseL3 | loseL2Ack | connectL2Acks => exact h

lemma ranBy_le (rows : 0 < cfg.l2Rows) (unbroken : Ingest.Unbroken cfg.toIngestConfig s.ingest)
    (parsed : Parsed s) (j : RequestId) (p : ℕ × ℕ) :
    ranBy cfg (client j) s p ≤ Ingest.copies cfg.toIngestConfig
      (fun t => (t.clientId, t.clientSeqNo) = j) s.ingest (.log p.1 p.2) := by
  have inside : cfg.l2Rows - 1 < ((s.ingest.l2 p.1).net p.2).rows := by
    rw [unbroken.rows2]
    omega
  have behind := (unbroken.l2 p.1 p.2).prefix_of_le (Nat.zero_le _) inside
  have each : ∀ op ∈ tailRan cfg s p.1 p.2,
      client j (op.origin (cfg.l2 p.1 p.2).idx) =
        decide ((op.ticket.clientId, op.ticket.clientSeqNo) = j) := by
    intro op mem
    have fits := parsed _ op mem
    cases found : L2Operation.deserialize op.args with
    | error e => simp [chainSlot, found] at fits
    | ok x =>
      have ticket : op.ticket = ⟨op.seq.clientId, op.seq.clientSeqNo, x.1.key, x.1.value⟩ := by
        simp only [ChainOp.ticket, found]
      rw [ticket]
      rfl
  rw [ranBy, Ingest.copies, Ingest.tickets, List.countP_map, List.countP_map]
  refine le_trans (le_of_eq ?_) (behind.sublist.countP_le)
  exact List.countP_congr fun op mem => by simp [each op mem]

/-- Only padding is not answered. -/
structure Honest (s : Pipeline) : Prop where
  waits : ∀ y, ∀ r ∈ (s.l3 y).respondQueue, r.seqId.clientId ≠ L3Worker.fakeClientId
  told : ∀ r ∈ s.responses, r.seqId.clientId ≠ L3Worker.fakeClientId

lemma Honest.serve (h : Honest s) {y : ℕ × ℕ} {worker : L3Worker} {out : List ClientResponse}
    (served : ServesAt s s' y worker out) : Honest s' := by
  have real := served.passes.real (h.waits y)
  refine ⟨fun y' r mem => ?_, fun r mem => ?_⟩
  · rw [served.l3, Function.update_apply] at mem
    split at mem
    · exact real r (List.mem_append_left _ mem)
    · exact h.waits y' r mem
  · rw [served.responses] at mem
    rcases List.mem_append.mp mem with old | new
    · exact h.told r old
    · exact real r (List.mem_append_right _ new)

lemma absorb_responses (column : ℕ) (r : IngestResult) :
    (s.absorb column r).state.responses = s.responses := by
  obtain ⟨_, _, result⟩ := absorb_frame s column r
  rw [result]

/-- A step gives its answers and no others, and none to padding. -/
theorem answers_step (h : Honest s) {label : PipelineLabel} (calm : label.calm = true)
    {r : PipelineResult} (taken : s.step cfg label = some r) :
    r.state.responses = s.responses ++ label.answers cfg s ∧ Honest r.state := by
  have quiet : label.answers cfg s = [] → r.state.responses = s.responses →
      (∀ y, (r.state.l3 y).respondQueue = (s.l3 y).respondQueue) →
      r.state.responses = s.responses ++ label.answers cfg s ∧ Honest r.state := by
    intro none same waits
    exact ⟨by rw [none, same, List.append_nil], fun y => by rw [waits]; exact h.waits y, by
      rw [same]; exact h.told⟩
  rcases calm_entry calm taken with ⟨s₀, column, il, ir, source, -, -, rfl⟩ | ⟨case, none⟩
  · have l3 := source.frame.2.2.1
    refine quiet (by cases source <;> rfl) ?_ fun y => by rw [absorb_l3, l3]
    rw [absorb_responses]
    cases source <;> rfl
  · cases case with
    | ingest source => exact absurd source (none _ _ _)
    | manager source =>
      refine quiet (by cases source <;> rfl) ?_ fun y => by rw [callL2, absorb_l3]
      rw [callL2, absorb_responses]
    | l3 taken =>
      obtain ⟨_, served⟩ := stepL3_serves taken
      exact ⟨served.responses, h.serve served⟩
    | @accept _ _ y op =>
      refine quiet rfl rfl fun y' => ?_
      simp only [finishL3, setWorker, Function.update_apply]
      split
      · next same => rw [same, (L3Worker.asyncOperation_held op).2.1]
      · rfl
    | @connectL2Acks y =>
      refine quiet rfl rfl fun y' => ?_
      simp only [setWorker, Function.update_apply]
      split
      · next same =>
        rw [same]
        rfl
      · rfl
    | crashL3 | loseL3 | loseL2Ack => exact quiet rfl rfl fun _ => rfl

lemma events_submits (label : ClientLabel) (none : ∀ oracle k row op draws,
    label ≠ .tiers (.client oracle k row op draws)) :
    (invocations (label.events cfg s)).map ClientRequest.ticket = label.pipeline.submits := by
  cases label with
  | request oracle k row seq r draws =>
    refine Eq.trans ?_ (congrArg (fun t => [t]) (ClientRequest.operation_ticket seq r).symm)
    rfl
  | tiers label =>
    rw [invocations_tiers, List.map_nil]
    cases label with
    | client => exact absurd rfl (none _ _ _ _ _)
    | _ => rfl

lemma events_answers (label : ClientLabel) (j : RequestId) :
    timesAnswered (label.events cfg s) j =
      (label.pipeline.answers cfg s).countP fun r => r.seqId.client = j := by
  cases label with
  | request => rfl
  | tiers label =>
    cases label with
    | l3 clock y label =>
      cases label with
      | respond =>
        simp only [ClientLabel.events, ClientLabel.pipeline, PipelineLabel.answers]
        cases (s.l3 y).respond cfg.l3 with
        | none => rfl
        | some r => simp [timesAnswered]
      | _ => rfl
    | _ => rfl

/-- Steps with which no L1 or L2 instance fails and no command of the request is forwarded again. -/
def sparing (cfg : PipelineConfig) (j : RequestId) (_ : Pipeline × List ClientEvent)
    (label : ClientLabel) : Prop :=
  label.pipeline.calm = true ∧ label.pipeline.spares cfg j

instance (j : RequestId) (x : Pipeline × List ClientEvent) (label : ClientLabel) :
    Decidable (sparing cfg j x label) := inferInstanceAs (Decidable (_ ∧ _))

/-- What is submitted pays for what the L2 tails run, and that for the answers. -/
structure Billed (cfg : PipelineConfig) (j : RequestId) (x : Pipeline × List ClientEvent) :
    Prop where
  unbroken : Ingest.Unbroken cfg.toIngestConfig x.1.ingest
  parsed : Parsed x.1
  copies : ∀ q : Ticket → Bool, (∀ key, q (.pad key) = false) →
    AtMost (Ingest.copies cfg.toIngestConfig q x.1.ingest)
      (((invocations x.2).map ClientRequest.ticket).countP q)
  paid : Paid cfg (client j) x.1
  honest : Honest x.1
  counted : timesAnswered x.2 j = x.1.responses.countP fun r => r.seqId.client = j

lemma Billed.step (housed : Ingest.Housed cfg.toIngestConfig) {j : RequestId}
    {x x' : Pipeline × List ClientEvent} (h : Billed cfg j x) {label : ClientLabel}
    (allowed : sparing cfg j x label) (taken : (clientSystem cfg).step x label = some x') :
    Billed cfg j x' := by
  obtain ⟨s', moved, rfl⟩ := Option.map_eq_some_iff.mp taken
  obtain ⟨⟨r, stepped, rfl⟩, none⟩ := servedSystem_step moved
  obtain ⟨calm, spares⟩ := allowed
  obtain ⟨unbroken, copies⟩ := fronts_step housed h.unbroken calm stepped
  obtain ⟨responses, honest⟩ := answers_step h.honest calm stepped
  refine ⟨unbroken, h.parsed.step h.unbroken calm stepped, fun q pads => ?_,
    h.paid.step housed h.unbroken calm spares stepped, honest, ?_⟩
  · rw [invocations_append, List.map_append, List.countP_append, events_submits label none]
    exact copies q _ pads (h.copies q pads)
  · rw [responses, List.countP_append, ← h.counted, ← events_answers]
    exact List.countP_append

lemma billed_start (housed : Ingest.Housed cfg.toIngestConfig) (j : RequestId) :
    Billed cfg j (start cfg, []) := by
  refine ⟨Ingest.unbroken_start housed, fun x op mem => ?_, fun q _ => Ingest.copies_start,
    ⟨0, ⟨∅, fun p _ => ?_, rfl⟩, ?_⟩, ⟨fun y r mem => ?_, fun r mem => ?_⟩, rfl⟩
  · simp [start, Ingest.start, Ingest.l2Node, L2Column.start, ChainNet.start, ChainModule.setup] at mem
  · have none : tailRan cfg (start cfg) p.1 p.2 = [] := by
      simp [tailRan, start, Ingest.start, Ingest.l2Node, L2Column.start, ChainNet.start,
        ChainModule.setup]
    rw [ranBy, none]
    rfl
  · refine atMost_zero_iff.mpr fun p => ?_
    cases p with
    | link | answers => simp [served, start]
    | worker => simp [served, start, L3Worker.held, L3Worker.pipe, L3Worker.initState]
  · simp [start, L3Worker.initState] at mem
  · simp [start] at mem

lemma Billed.few (housed : Ingest.Housed cfg.toIngestConfig) {j : RequestId}
    {x : Pipeline × List ClientEvent} (h : Billed cfg j x) :
    timesAnswered x.2 j ≤ timesInvoked x.2 j := by
  rw [h.counted]
  by_cases real : j.1 = L3Worker.fakeClientId
  · refine le_of_eq_of_le (List.countP_eq_zero.mpr fun r mem same => ?_) (Nat.zero_le _)
    have same : r.seqId.client = j := of_decide_eq_true same
    exact h.honest.told r mem ((congrArg Prod.fst same).trans real)
  · obtain ⟨n, ran, bound⟩ := h.paid
    have answered : (x.1.responses.countP fun r => r.seqId.client = j) ≤ n := by
      refine le_trans (le_of_eq ?_) (bound.le .answers)
      rw [served, List.countP_map]
      rfl
    have copies := h.copies (fun t => (t.clientId, t.clientSeqNo) = j) fun key =>
      decide_eq_false fun same => real (congrArg Prod.fst same).symm
    have submitted : ((invocations x.2).map ClientRequest.ticket).countP
        (fun t => (t.clientId, t.clientSeqNo) = j) = timesInvoked x.2 j := by
      rw [List.countP_map]
      rfl
    rw [submitted] at copies
    refine answered.trans (ran.le_of_atMost copies ⟨fun p => .log p.1 p.2, ?_⟩ fun p => ?_)
    · intro a b same
      obtain ⟨c, w⟩ := Ingest.TicketPlace.log.inj same
      exact Prod.ext c w
    · exact ranBy_le housed.l2Rows h.unbroken h.parsed j p

/-- No request gets more answers than it was submitted times, whatever the clients ask for and
however the tiers interleave, when L3 instances crash, links to them lose what they carry and the
manager takes them out; only a selective resend that forwards a request again can answer it
again. -/
theorem answers_paid (housed : Ingest.Housed cfg.toIngestConfig) (j : RequestId)
    {history : List ClientEvent} (run : Reaches (clientSystem cfg) (sparing cfg j) (s, history)) :
    timesAnswered history j ≤ timesInvoked history j := by
  have billed : Billed cfg j (s, history) := by
    refine run.invariant ?_ fun x label x' h allowed taken => h.step housed allowed taken
    rintro ⟨s, history⟩ ⟨rfl, rfl⟩
    exact billed_start housed j
  exact billed.few housed

end Pipeline

namespace GridDeployment

/-- One row of the first tiers in front of 20 L3 instances. -/
def farmDeployment : GridDeployment :=
  { Cluster.wideDeployment with
    hosts := ⟨"l1_0", .l1, "h", 9090, 0, 0, 1⟩ :: Cluster.wideL2 :: (List.range 20).map Cluster.wideL3
    keyToNumberOfReplicas := pairDeployment.keyToNumberOfReplicas
    counts := pairDeployment.counts
    replicaToLabel := pairDeployment.replicaToLabel
    securityBatchSize := 2
    l3Workers := List.replicate 20 1
    l1Grid := .of_counts (by decide +kernel) (by decide) (by decide +kernel) (by decide +kernel)
    l2Grid := .of_counts (by decide +kernel) (by decide) (by decide +kernel) (by decide +kernel)
    l3Grid := .of_counts (by decide +kernel) (by decide) (by decide +kernel) (by decide +kernel) }

/-- An L3 instance serves the next accesses and sends an answer. -/
def serveAt (column accesses : ℕ) : List PipelineLabel :=
  (.l3Request none ⟨0, 0, 0⟩ (column, 0) ::
    [.serveGet, .getReply, .crypto, .servePut, .putReply].map (.l3 none (column, 0))).flatMap
      (List.replicate accesses) ++ [.l3 none (column, 0) .respond]

/-- A get as it is pending at an L2 tail. -/
def pendingGet (number : ℤ) (client clientSeqNo : Int64) (key : String) (replica : Int32) :
    ChainOp where
  seq := { clientId := client, clientSeqNo := clientSeqNo, serverSeqNo := number, l1SeqNo := number + 1 }
  args := L2Operation.serialize ⟨{ clientId := client, clientSeqNo := clientSeqNo }, key, replica, ""⟩

/-- A get of "a" is answered, and still pending at the L2 tail when the machine crashes that a get
of "b" was sent to. The second get is forwarded again and answered, the first one is not. -/
def crashRun : List ClientLabel :=
  pairRequest 0 (.get "a") :: pairRequest 1 (.get "b") ::
    (List.replicate 3 (.l2Request none 0 0 ⟨0, 0, 0⟩) ++ serveAt 2 1 ++
      (List.range 16).map (fun i => .crashL3 (3 + i)) ++
      [.loseL3 ⟨0, 0, 0⟩ (13, 0) [], .removeL3 ⟨0, 0, 0⟩ 3, .selectiveResend none ⟨0, 0, 0⟩ 3 20
        [pendingGet 1 7 0 "a" 0, pendingGet 2 (-1995) 0 "dummy" 1, pendingGet 3 7 1 "b" 0]] ++
      serveAt 2 2 : List PipelineLabel).map .tiers

def crashHistory : List ClientEvent :=
  [.invoke (7, 0) (.get "a"), .invoke (7, 1) (.get "b"), .respond (7, 0) (.get, "cipher"),
    .respond (7, 1) (.get, "cipher")]

theorem answers_paid_crash :
    ∃ s, Reaches (clientSystem (farmDeployment.pipeline plainStore))
        (Pipeline.sparing (farmDeployment.pipeline plainStore) (7, 0)) (s, crashHistory) ∧
      timesAnswered crashHistory (7, 0) ≤ timesInvoked crashHistory (7, 0) := by
  have goes : (replay (clientSystem (farmDeployment.pipeline plainStore))
      (Pipeline.sparing (farmDeployment.pipeline plainStore) (7, 0))
      (Pipeline.start (farmDeployment.pipeline plainStore), []) crashRun).map Prod.snd =
        some crashHistory := by
    decide +kernel
  obtain ⟨s, run⟩ := reaches_of_replay goes
  have tables : farmDeployment.Initialized RealDistribution.evenPair "cipher" := ⟨rfl, rfl⟩
  have staffed : Cluster.Staffed farmDeployment :=
    ⟨⟨by decide, by decide⟩, ⟨by decide, by decide⟩, ⟨by decide, by decide⟩⟩
  have shape := (farmDeployment.pipeline_shaped plainStore staffed (by decide) tables).ingest
  exact ⟨s, run, Pipeline.answers_paid ⟨shape.l2Rows, shape.l2Workers, shape.workers⟩ (7, 0) run⟩

end GridDeployment
end Shortstack
