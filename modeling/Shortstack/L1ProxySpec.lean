import Shortstack.ChainLocal
import Shortstack.ChainReplication
import Shortstack.L1Proxy

/-! What the callbacks of an L1 worker do, stated once: the slots of a batch are sent to
the L2 tier in order, up to the first that cannot be sent, and everything else only moves
counters and acknowledgements. -/
namespace Shortstack.L1Proxy
open ChainModule
variable {cfg : L1Config} {pick : ℤ → ℕ} {reach : ℕ → ℕ → Bool} {env : Env L1Effect}

section Numbered
variable (cfg) (clock : Option Int64) (idx n : ℤ) (j : ℕ) (op : L2Operation)

@[simp] lemma numberSlot_l1Idx : (numberSlot cfg clock idx n j op).seqId.l1Idx = idx := by
  cases clock <;> rfl

@[simp] lemma numberSlot_l1SeqNo :
    (numberSlot cfg clock idx n j op).seqId.l1SeqNo = cfg.securityBatchSize * n + j := by
  cases clock <;> rfl

@[simp] lemma numberSlot_key : (numberSlot cfg clock idx n j op).key = op.key := by
  cases clock <;> rfl

@[simp] lemma numberSlot_replica : (numberSlot cfg clock idx n j op).replica = op.replica := by
  cases clock <;> rfl

end Numbered

/-- The slots of a batch, if it has the right size. -/
def batchOf (cfg : L1Config) (args : ArgList) : List L2Operation :=
  match L2Operation.deserializeBatch args with
  | .error _ => []
  | .ok batch => if (batch.length : ℤ) = cfg.securityBatchSize then batch else []

lemma batchOf_length {args : ArgList} {j : ℕ} {o : L2Operation}
    (found : (batchOf cfg args)[j]? = some o) : (j : ℤ) < cfg.securityBatchSize := by
  have inside := (List.getElem?_eq_some_iff.mp found).1
  unfold batchOf at inside
  split at inside
  · simp at inside
  · split at inside
    · omega
    · simp at inside

/-- The slots of a batch as they are sent. -/
def slots (cfg : L1Config) (clock : Option Int64) (idx : ℤ) (op : ChainOp) : List L2Operation :=
  (batchOf cfg op.args).mapIdx (numberSlot cfg clock idx op.seq.serverSeqNo)

/-- A prefix of the slots is sent, each to the worker it is routed to; all of them if the
loop returns. -/
structure SentPart (cfg : L1Config) (pick : ℤ → ℕ) (up : L1Effect → Bool)
    (clients : List L2Client) (ops : List L2Operation) (sent : List L1Effect)
    (status : Status) : Prop where
  part : sent.map L1Effect.op <+: ops
  routed : ∀ e ∈ sent,
    routeL2 cfg pick clients e.op = some (e.column, e.worker, e.row) ∧ up e = true
  all : status = .returned → sent.map L1Effect.op = ops

lemma sendOp_state (clients : List L2Client) (s : L1State) (op : L2Operation) :
    (sendOp cfg pick env clients s op).state = s := by
  unfold sendOp
  split
  · rfl
  · exact Outcome.send_state ..

lemma forEach_sendOp (clients : List L2Client) (s : L1State) (ops : List L2Operation) :
    (Outcome.forEach (sendOp cfg pick env clients) ops s).state = s ∧
      SentPart cfg pick env.out clients ops (Outcome.forEach (sendOp cfg pick env clients) ops s).sent
        (Outcome.forEach (sendOp cfg pick env clients) ops s).status := by
  induction ops with
  | nil => exact ⟨rfl, by simp [Outcome.forEach], by simp [Outcome.forEach], fun _ => rfl⟩
  | cons op ops ih =>
    obtain ⟨stay, part, routed, all⟩ := ih
    have same : (sendOp cfg pick env clients s op).state = s := sendOp_state clients s op
    unfold Outcome.forEach
    refine Outcome.andThen_rule (Q := fun o => o.state = s ∧
      SentPart cfg pick env.out clients (op :: ops) o.sent o.status) ?_ ?_
    · intro stopped
      refine ⟨same, ?_⟩
      have none : (sendOp cfg pick env clients s op).sent = [] := by
        unfold sendOp at stopped ⊢
        split
        · rfl
        · next route =>
          rw [route] at stopped
          unfold Outcome.send at stopped ⊢
          split
          · next up => simp [up] at stopped
          · rfl
      rw [none]
      exact ⟨by simp, by simp, fun ret => absurd ret stopped⟩
    · intro ret
      have one : ∃ e, (sendOp cfg pick env clients s op).sent = [e] ∧ e.op = op ∧
          routeL2 cfg pick clients e.op = some (e.column, e.worker, e.row) ∧ env.out e = true := by
        unfold sendOp at ret ⊢
        split
        · next route => simp [route] at ret
        · next column worker row route =>
          refine ⟨⟨column, worker, row, op⟩, ?_, rfl, route, ?_⟩
          · rw [route] at ret
            unfold Outcome.send at ret ⊢
            split
            · rfl
            · next down => simp [down] at ret
          · rw [route] at ret
            unfold Outcome.send at ret
            by_contra down
            simp [down] at ret
      obtain ⟨e, sent, rfl, route, up⟩ := one
      rw [same, sent]
      refine ⟨stay, ?_, ?_, fun ret => ?_⟩
      · simpa using part
      · intro x hx
        rcases List.mem_cons.mp hx with rfl | later
        · exact ⟨route, up⟩
        · exact routed x later
      · simpa using all ret

lemma replicationComplete_state (s : L1State) (seq : SequenceId) (args : ArgList) :
    (replicationComplete cfg pick env s seq args).state = s := by
  unfold replicationComplete
  split
  · rfl
  · split
    · rfl
    · split
      · rfl
      · exact (forEach_sendOp _ _ _).1

lemma replicationComplete_sent (s : L1State) (op : ChainOp) :
    (s.l2Iface = none ∧ (replicationComplete cfg pick env s op.seq op.args).sent = []) ∨
    ∃ clients, s.l2Iface = some clients ∧
      SentPart cfg pick env.out clients (slots cfg env.clock s.idx op)
        (replicationComplete cfg pick env s op.seq op.args).sent
        (replicationComplete cfg pick env s op.seq op.args).status := by
  unfold replicationComplete slots batchOf
  cases hclients : s.l2Iface with
  | none =>
    refine .inl ⟨rfl, ?_⟩
    cases L2Operation.deserializeBatch op.args with
    | error e => rfl
    | ok batch =>
      dsimp only
      split <;> rfl
  | some clients =>
    refine .inr ⟨clients, rfl, ?_⟩
    cases L2Operation.deserializeBatch op.args with
    | error e => exact ⟨by simp, by simp, by simp⟩
    | ok batch =>
      dsimp only
      rcases eq_or_ne (batch.length : ℤ) cfg.securityBatchSize with size | size
      · rw [if_neg (not_not.mpr size), if_pos size]
        exact (forEach_sendOp clients s _).2
      · rw [if_pos size, if_neg size]
        exact ⟨by simp, by simp, by simp⟩

/-- What a step of an L1 chain sends: slots of a command the row has run, as tail, with
its connections. -/
structure Forwards (cfg : L1Config) (pick : ℤ → ℕ) (clock : Option Int64) (m : ChainModule L1State)
    (op : ChainOp) (e : L1Effect) : Prop where
  slot : ∃ j o, (batchOf cfg op.args)[j]? = some o ∧
    e.op = numberSlot cfg clock m.user.idx op.seq.serverSeqNo j o
  route : ∃ clients, m.user.l2Iface = some clients ∧
    routeL2 cfg pick clients e.op = some (e.column, e.worker, e.row)

lemma forwards_of_sent {m : ChainModule L1State} {s : L1State} (idx : s.idx = m.user.idx)
    (iface : s.l2Iface = m.user.l2Iface) (op : ChainOp) :
    ∀ e ∈ (replicationComplete cfg pick env s op.seq op.args).sent,
      Forwards cfg pick env.clock m op e := by
  intro e he
  rcases replicationComplete_sent s op with ⟨_, none⟩ | ⟨clients, open', part, routed, _⟩
  · rw [none] at he
    simp at he
  · have inside : e.op ∈ slots cfg env.clock s.idx op :=
      part.subset (List.mem_map_of_mem he)
    obtain ⟨j, found⟩ := List.mem_iff_getElem?.mp inside
    rw [slots, List.getElem?_mapIdx, Option.map_eq_some_iff] at found
    obtain ⟨o, slot, eq⟩ := found
    exact ⟨⟨j, o, slot, idx ▸ eq.symm⟩, ⟨clients, iface ▸ open', (routed e he).1⟩⟩

lemma chainRequest_forwards {m : ChainModule L1State} (seq : SequenceId) (args : ArgList) :
    ∀ e ∈ outsOf (m.chainRequest (callbacks cfg pick reach) env seq args).sent,
      m.isTail = true ∧ (m.numbered seq).serverSeqNo = m.chainSeqNo + 1 ∧
      ⟨m.numbered seq, args⟩ ∈ (m.chainRequest (callbacks cfg pick reach) env seq args).state.ran ∧
      Forwards cfg pick env.clock m ⟨m.numbered seq, args⟩ e := by
  intro e he
  cases chainRequest_cases (callbacks cfg pick reach) env m seq args with
  | duplicate _ result | outOfOrder _ result =>
    rw [result] at he
    simp at he
  | failed _ _ result =>
    rw [result, call_sent, outsOf_out] at he
    simp [callbacks, runCommand] at he
  | completed number _ tail result =>
    rw [result] at he ⊢
    refine ⟨tail, number, by simp, ?_⟩
    rw [outsOf_out] at he
    exact @forwards_of_sent cfg pick env m
      (runCommand cfg m.user (m.numbered seq) args).state rfl rfl ⟨m.numbered seq, args⟩ e
      (by simpa [callbacks, runCommand] using he)
  | passed _ _ _ result =>
    rw [result, outsOf_append, outsOf_out, Outcome.send_sent] at he
    split at he <;> simp [callbacks, runCommand] at he

lemma resend_forwards {m : ChainModule L1State} (ops : List ChainOp) :
    ∀ e ∈ outsOf (Outcome.forEach (resendOne (callbacks cfg pick reach) env) ops m).sent,
      m.isTail = true ∧ ∃ op ∈ ops, Forwards cfg pick env.clock m op e := by
  have loop := Outcome.forEach_induction (f := resendOne (callbacks cfg pick reach) env) ops m []
    (P := fun t sent => t = m ∧ ∀ e ∈ outsOf sent,
      m.isTail = true ∧ ∃ op ∈ ops, Forwards cfg pick env.clock m op e) ?_ ⟨rfl, by simp⟩
  · rw [List.nil_append] at loop
    exact loop.2
  rintro t sent op hop ⟨rfl, before⟩
  unfold resendOne
  cases tail : t.isTail with
  | true =>
    rw [if_pos rfl]
    refine ⟨?_, ?_⟩
    · rw [call_state, show ((callbacks cfg pick reach).replicationComplete env t.user op.seq
        op.args).state = t.user from replicationComplete_state _ _ _, withUser_self]
    · intro e he
      rw [outsOf_append, call_sent, outsOf_out, List.mem_append] at he
      rcases he with old | new
      · exact ⟨rfl, (before e old).2⟩
      · exact ⟨rfl, op, hop, forwards_of_sent rfl rfl op e new⟩
  | false =>
    rw [if_neg Bool.false_ne_true]
    refine ⟨Outcome.send_state .., ?_⟩
    intro e he
    rw [outsOf_append, Outcome.send_sent] at he
    have old : e ∈ outsOf sent := by
      split at he <;> simpa using he
    exact absurd (tail ▸ (before e old).1) Bool.false_ne_true

lemma outs_ack (m : ChainModule L1State) (seq : SequenceId) :
    outsOf (m.ack (callbacks cfg pick reach) env seq).sent = [] := by
  unfold ChainModule.ack
  dsimp only
  refine Outcome.andThen_rule (Q := fun o : Outcome (ChainModule L1State) (Send L1Effect) =>
    outsOf o.sent = []) (fun _ => rfl) fun _ => ?_
  split
  · rfl
  · unfold pushAck
    dsimp only
    split
    · rw [Outcome.send_sent]
      split <;> rfl
    · rfl

lemma outs_ackBatch (m : ChainModule L1State) (seqs : List SequenceId) :
    outsOf (m.ackBatch (callbacks cfg pick reach) env seqs).sent = [] := by
  have loop := Outcome.forEach_induction (f := ChainModule.ack (callbacks cfg pick reach) env) seqs
    m [] (P := fun _ sent => outsOf sent = []) ?_ rfl
  · rw [List.nil_append] at loop
    exact loop
  intro t sent q _ none
  rw [outsOf_append, none, outs_ack]
  rfl

lemma user_kept (cfg : L1Config) (pick : ℤ → ℕ) (reach : ℕ → ℕ → Bool) (idx : ℤ)
    (iface : Option (List L2Client)) :
    ChainNet.Kept (callbacks cfg pick reach) fun m => m.user.idx = idx ∧ m.user.l2Iface = iface := by
  refine ChainNet.Kept.of_callbacks (J := fun _ (u : L1State) _ => u.idx = idx ∧ u.l2Iface = iface)
    ?_ ?_ ?_ ?_
  · exact fun _ _ _ _ _ h _ => h
  · exact fun _ _ _ _ _ h _ => h
  · intro env _ u _ seq args h
    rwa [show ((callbacks cfg pick reach).replicationComplete env u seq args).state = u from
      replicationComplete_state _ _ _]
  · exact fun _ _ _ _ _ _ h => h

/-- The acknowledgements a batch of external acknowledgements can lead to. -/
def batchAcks (cfg : L1Config) (seqs : List SequenceId) : List SequenceId :=
  seqs.map fun q => { serverSeqNo := q.l1SeqNo.tdiv cfg.securityBatchSize }

lemma externalAckBatch_effect {P : SequenceId → Prop} (cb : Callbacks L1State L1Effect)
    (m : ChainModule L1State) (seqs : List SequenceId) (queued : ∀ q ∈ m.ackQueue, P q)
    (given : ∀ q ∈ batchAcks cfg seqs, P q) :
    AckEffect m (batchAcks cfg seqs) P (externalAckBatch cfg cb env m seqs).state
      (externalAckBatch cfg cb env m seqs).sent := by
  suffices AckEffect m (batchAcks cfg seqs) P (externalAckBatch cfg cb env m seqs).state
      ([] ++ (externalAckBatch cfg cb env m seqs).sent) by simpa using this
  refine Outcome.forEach_induction seqs m [] (P := AckEffect m (batchAcks cfg seqs) P) ?_
    (.start queued)
  intro t sent q hq h
  have mem : ({ serverSeqNo := q.l1SeqNo.tdiv cfg.securityBatchSize } : SequenceId) ∈
      batchAcks cfg seqs := List.mem_map_of_mem hq
  unfold externalAck
  dsimp only
  split
  · simpa using h
  · split
    · exact (h.withUser _).ack mem (given _ mem)
    · simpa using h.withUser _

lemma ack_user (m : ChainModule L1State) (seq : SequenceId) :
    (m.ack (callbacks cfg pick reach) env seq).state.user =
      { m.user with pendingCount := m.user.pendingCount.erase seq.serverSeqNo } := by
  unfold ChainModule.ack
  dsimp only
  rw [show ChainModule.call { m with pending := m.removePending seq }
    ((callbacks cfg pick reach).ackCallback env m.role m.user seq) =
    .done (ChainModule.withUser { m with pending := m.removePending seq }
      { m.user with pendingCount := m.user.pendingCount.erase seq.serverSeqNo }) from rfl,
    Outcome.done_andThen]
  split
  · rfl
  · unfold ChainModule.pushAck
    dsimp only
    split
    · rw [Outcome.send_state]
      rfl
    · rfl

lemma ackBatch_user (m : ChainModule L1State) (seqs : List SequenceId) :
    ∃ p, (m.ackBatch (callbacks cfg pick reach) env seqs).state.user =
      { m.user with pendingCount := p } := by
  refine Outcome.forEach_induction (f := ChainModule.ack (callbacks cfg pick reach) env) seqs m []
    (P := fun t _ => ∃ p, t.user = { m.user with pendingCount := p }) ?_ ⟨_, rfl⟩
  rintro t _ q _ ⟨p, user⟩
  exact ⟨_, by rw [ack_user, user]⟩

lemma externalAckBatch_user (m : ChainModule L1State) (seqs : List SequenceId) :
    (∃ p, (externalAckBatch cfg (callbacks cfg pick reach) env m seqs).state.user =
      { m.user with pendingCount := p }) ∧
      outsOf (externalAckBatch cfg (callbacks cfg pick reach) env m seqs).sent = [] := by
  have loop := Outcome.forEach_induction (f := externalAck cfg (callbacks cfg pick reach) env) seqs m
    [] (P := fun t sent => (∃ p, t.user = { m.user with pendingCount := p }) ∧
      outsOf sent = []) ?_ ⟨⟨_, rfl⟩, rfl⟩
  · rw [List.nil_append] at loop
    exact loop
  rintro t sent q _ ⟨⟨p, user⟩, none⟩
  unfold externalAck
  dsimp only
  split
  · exact ⟨⟨p, user⟩, by simpa using none⟩
  · split
    · refine ⟨⟨_, by rw [ack_user, withUser_user, user]⟩, ?_⟩
      rw [outsOf_append, none, outs_ack]
      rfl
    · exact ⟨⟨_, by rw [Outcome.done_state, withUser_user, user]⟩, by simpa using none⟩

variable {net : ChainNet L1State} {ext : Outside L1Effect} {nl : NetLabel L1State}
  {res : NetResult L1State L1Effect}

/-- The label keeps the index and the connections of its row. -/
def keepsIface (net : ChainNet L1State) (nl : NetLabel L1State) : Prop :=
  ∀ i u, ChainNet.touches nl = some (i, u) →
    u.idx = (net.node i).user.idx ∧ u.l2Iface = (net.node i).user.l2Iface

theorem user_step (taken : net.step (callbacks cfg pick reach) ext nl = some res)
    (user : keepsIface net nl) (j : ℕ) :
    (res.net.node j).user.idx = (net.node j).user.idx ∧
    ((res.net.node j).user.l2Iface = (net.node j).user.l2Iface ∨
      nl = .setup j ∧ (net.survivorRole j).isTail = true ∧ (net.node j).user.l2Iface = none ∧
        (res.net.node j).user.l2Iface = some (connect cfg reach)) := by
  rcases Classical.em (∃ i, nl = .setup i) with ⟨i, rfl⟩ | other
  · cases ChainNet.step_cases taken with
    | @setup _ alive =>
      rcases eq_or_ne j i with rfl | hj
      · simp only [ChainNet.finish, ChainNet.deposit_node, Function.update_self, Outcome.done_state,
          ChainModule.setup, callbacks, setupCallback, true_and]
        split
        · next opened =>
          rw [Bool.and_eq_true, Option.isNone_iff_eq_none] at opened
          exact ⟨rfl, .inr ⟨opened.1, opened.2, rfl⟩⟩
        · exact ⟨rfl, .inl rfl⟩
      · simp [ChainNet.finish, hj]
  · have kept := ChainNet.Kept.step (I := fun i (m : ChainModule L1State) =>
      m.user.idx = (net.node i).user.idx ∧ m.user.l2Iface = (net.node i).user.l2Iface)
      (fun i => user_kept cfg pick reach _ _) (fun _ => ⟨rfl, rfl⟩) user
      (fun i label => absurd ⟨i, label⟩ other) taken j
    exact ⟨kept.1, .inl kept.2⟩

/-- Everything a step of an L1 chain sends to the L2 tier comes from a tail that runs a new
command or resends. -/
theorem forwards_of_step {acked : Prop} (inv : ChainNet.Inv acked net)
    (taken : net.step (callbacks cfg pick reach) ext nl = some res)
    (user : keepsIface net nl) : ∀ e ∈ res.outs, ∃ op,
      net.alive (nl.row net.acks) = true ∧ (net.node (nl.row net.acks)).isTail = true ∧
      (nl = .resend (nl.row net.acks) ∧ op ∈ (net.node (nl.row net.acks)).ran ∨
        op.seq.serverSeqNo = (net.node (nl.row net.acks)).chainSeqNo + 1) ∧
      op ∈ (res.net.node (nl.row net.acks)).ran ∧
      Forwards cfg pick ext.clock (net.node (nl.row net.acks)) op e := by
  intro e he
  cases ChainNet.step_cases taken with
  | @request i u seq args alive head =>
    obtain ⟨idx, iface⟩ := user i u rfl
    obtain ⟨tail, number, ran, slot, route⟩ := chainRequest_forwards seq args e he
    refine ⟨_, alive, tail, .inr number, by simpa [ChainNet.finish, NetLabel.row] using ran, ?_, ?_⟩
    · rw [withUser_user, idx] at slot
      exact slot
    · rw [withUser_user, iface] at route
      exact route
  | @deliver i j op rest link alive =>
    obtain ⟨tail, number, ran, slot, route⟩ := chainRequest_forwards op.seq op.args e he
    have same := ChainNet.agrees_meet (net.node j) i
    have user : (ChainNet.meet (net.node j) i).user = (net.node j).user := by
      unfold ChainNet.meet
      split <;> rfl
    refine ⟨_, alive, ?_, .inr (number.trans (by rw [same.count])),
      by simpa [ChainNet.finish, NetLabel.row] using ran, ?_, ?_⟩
    · rw [NetLabel.row, ChainModule.isTail, ← same.role]
      exact tail
    · rw [user] at slot
      exact slot
    · rw [user] at route
      exact route
  | @ackDeliver k a _ _ =>
    rw [ChainNet.finish, outs_ackBatch] at he
    simp at he
  | @ackFrom i u seqs _ =>
    rw [ChainNet.finish, outs_ackBatch] at he
    simp at he
  | @resend i n fetched alive =>
    obtain ⟨tail, op, pending, slot⟩ := resend_forwards ((net.node i).pendingAfter n) e he
    have ran := inv.pending_mem pending
    refine ⟨op, alive, tail, .inl ⟨rfl, ran⟩, (ChainNet.step_ran_extends taken i).subset ran, slot⟩
  | touch _ | setup _ | crash _ | fetch _ | lose _ _ | loseAck _ =>
    simp [ChainNet.finish] at he

/-- A client request as the head of an L1 chain queues it. -/
def timed (clock : Option Int64) (op : L1Operation) : L1Operation :=
  match clock with
  | some now => { op with seqId := { op.seqId with ts := some now } }
  | none => op

lemma randReplica_toInt (n : ℕ) {r : ℤ} (pos : 0 < r) (int : r < 2 ^ 31) :
    (randReplica n r).toInt = n % r := by
  have low := Int.emod_nonneg n pos.ne'
  have high := Int.emod_lt_of_pos n pos
  rw [randReplica, if_pos pos, Int32.toInt_ofInt_of_le (by omega) (by omega)]

lemma randReplica_range (n : ℕ) {r : ℤ} (pos : 0 < r) (int : r < 2 ^ 31) :
    0 ≤ (randReplica n r).toInt ∧ (randReplica n r).toInt < r := by
  rw [randReplica_toInt n pos int]
  exact ⟨Int.emod_nonneg _ pos.ne', Int.emod_lt_of_pos _ pos⟩

@[simp] lemma rounds_length (draws : ℕ → Draw) :
    (rounds cfg draws).length = cfg.securityBatchSize.toNat := by
  simp [rounds]

/-- A slot with the replica that is drawn for its key. -/
def drawReplica (cfg : L1Config) (d : Draw) (op : L2Operation) : L2Operation :=
  { op with replica := randReplica d.replica ((cfg.keyToNumberOfReplicas.lookup op.key).getD 0) }

/-- The operations of the slots, if all their keys are known. -/
def slotOps (cfg : L1Config) : List Draw → List L1Operation → List L2Operation
  | [], _ => []
  | d :: draws, queue => drawReplica cfg d (fillSlot d queue).1 ::
    slotOps cfg draws (fillSlot d queue).2

lemma fillBatch_cons {d : Draw} {draws : List Draw} {queue : List L1Operation}
    (known : (fillSlot d queue).1.key ∈ cfg.keyToNumberOfReplicas) (batch : List L2Operation) :
    fillBatch cfg (d :: draws) queue batch =
      fillBatch cfg draws (fillSlot d queue).2 (batch ++ [drawReplica cfg d (fillSlot d queue).1]) := by
  obtain ⟨r, found⟩ := Option.isSome_iff_exists.mp (AList.lookup_isSome.mpr known)
  simp only [fillBatch, drawReplica, found, Option.getD_some]

lemma fillBatch_unknown {d : Draw} {draws : List Draw} {queue : List L1Operation}
    (unknown : (fillSlot d queue).1.key ∉ cfg.keyToNumberOfReplicas) (batch : List L2Operation) :
    fillBatch cfg (d :: draws) queue batch =
      ((fillSlot d queue).2, .error ("key not found: " ++ (fillSlot d queue).1.key)) := by
  simp only [fillBatch, AList.lookup_eq_none.mpr unknown]

lemma fillBatch_slotOps {draws : List Draw} {queue : List L1Operation} {batch : List L2Operation}
    (known : ∀ op ∈ slotOps cfg draws queue, op.key ∈ cfg.keyToNumberOfReplicas) :
    (fillBatch cfg draws queue batch).2 = .ok (batch ++ slotOps cfg draws queue) := by
  induction draws generalizing queue batch with
  | nil => simp [fillBatch, slotOps]
  | cons d draws ih =>
    rw [fillBatch_cons (known (drawReplica cfg d (fillSlot d queue).1) List.mem_cons_self),
      ih fun op hop => known op (by rw [slotOps]; exact List.mem_cons_of_mem _ hop)]
    simp [slotOps]

lemma slotOps_range {draws : List Draw} {queue : List L1Operation} {r : ℤ} (pos : 0 < r) :
    ∀ o ∈ slotOps cfg draws queue, cfg.keyToNumberOfReplicas.lookup o.key = some r →
      0 ≤ o.replica.toInt ∧ o.replica.toInt < r := by
  induction draws generalizing queue with
  | nil => simp [slotOps]
  | cons d draws ih =>
    intro o ho found
    rcases List.mem_cons.mp ho with rfl | later
    · have drawn := randReplica_range d.replica pos (cfg.counts.of_lookup found).2
      rw [drawReplica] at found ⊢
      dsimp only at found ⊢
      rwa [found, Option.getD_some]
    · exact ih o later found

lemma slotOps_length (draws : List Draw) (queue : List L1Operation) :
    (slotOps cfg draws queue).length = draws.length := by
  induction draws generalizing queue with
  | nil => rfl
  | cons d draws ih => simp [slotOps, ih]

lemma slotOps_key {P : String → Prop} {draws : List Draw} {queue : List L1Operation}
    (samples : ∀ d ∈ draws, P d.real ∧ P d.fake) (queued : ∀ x ∈ queue, P x.key) :
    ∀ o ∈ slotOps cfg draws queue, P o.key := by
  induction draws generalizing queue with
  | nil => simp [slotOps]
  | cons d draws ih =>
    obtain ⟨real, fake⟩ := samples d List.mem_cons_self
    have filled : P (fillSlot d queue).1.key ∧ ∀ x ∈ (fillSlot d queue).2, P x.key := by
      unfold fillSlot
      split
      · cases queue with
        | nil => exact ⟨real, queued⟩
        | cons x queue =>
          exact ⟨queued x List.mem_cons_self, fun y hy => queued y (List.mem_cons_of_mem _ hy)⟩
      · exact ⟨fake, queued⟩
    intro o ho
    rcases List.mem_cons.mp ho with rfl | later
    · exact filled.1
    · exact ih (fun d hd => samples d (List.mem_cons_of_mem _ hd)) filled.2 o later

lemma fillSlot_queue (d : Draw) (queue : List L1Operation) : (fillSlot d queue).2 <:+ queue := by
  unfold fillSlot
  split
  · cases queue with
    | nil => exact List.suffix_rfl
    | cons x queue => exact List.suffix_cons x queue
  · exact List.suffix_rfl

lemma fillBatch_queue (draws : List Draw) (queue : List L1Operation) (batch : List L2Operation) :
    (fillBatch cfg draws queue batch).1 <:+ queue := by
  induction draws generalizing queue batch with
  | nil => exact List.suffix_rfl
  | cons d draws ih =>
    by_cases known : (fillSlot d queue).1.key ∈ cfg.keyToNumberOfReplicas
    · rw [fillBatch_cons known]
      exact (ih _ _).trans (fillSlot_queue d queue)
    · rw [fillBatch_unknown known]
      exact fillSlot_queue d queue

lemma tossCoins_length (draws : List Draw) : (tossCoins cfg draws).length = draws.length := by
  unfold tossCoins
  split
  · cases draws <;> rfl
  · rfl

lemma tossCoins_samples {P : String → Prop} {draws : List Draw}
    (samples : ∀ d ∈ draws, P d.real ∧ P d.fake) :
    ∀ d ∈ tossCoins cfg draws, P d.real ∧ P d.fake := by
  unfold tossCoins
  split
  · cases draws with
    | nil => simp
    | cons d draws =>
      intro x hx
      rcases List.mem_cons.mp hx with rfl | later
      · exact samples d List.mem_cons_self
      · exact samples x (List.mem_cons_of_mem _ later)
  · exact samples

@[simp] lemma timed_key (clock : Option Int64) (op : L1Operation) :
    (timed clock op).key = op.key := by
  cases clock <;> rfl

/-- A client request is refused by a replica that is not head, fails while the batch is
filled, or becomes a chain request. -/
theorem processOp_cases (m : ChainModule L1State) (op : L1Operation) (draws : ℕ → Draw) :
    (m.isHead = false ∧ processOp cfg pick reach env m op draws = .drop m) ∨
    m.isHead = true ∧ ∃ queue,
      ((∃ e, createSecurityBatch cfg draws (m.user.internalQueue ++ [timed env.clock op]) =
          (queue, .error e) ∧
        processOp cfg pick reach env m op draws =
          .raise (m.withUser { m.user with internalQueue := queue }) e) ∨
      ∃ batch, createSecurityBatch cfg draws (m.user.internalQueue ++ [timed env.clock op]) =
          (queue, .ok batch) ∧
        processOp cfg pick reach env m op draws =
          (m.withUser { m.user with internalQueue := queue }).chainRequest
            (callbacks cfg pick reach) env { clientId := -1, clientSeqNo := -1, serverSeqNo := -1 }
            (batch.flatMap L2Operation.serialize)) := by
  cases head : m.isHead with
  | false => exact .inl ⟨rfl, by simp [processOp, head]⟩
  | true =>
    refine .inr ⟨rfl, ?_⟩
    unfold processOp
    rw [head, Bool.not_true, if_neg Bool.false_ne_true]
    dsimp only
    split
    · next queue e made => exact ⟨queue, .inl ⟨e, made, rfl⟩⟩
    · next queue batch made => exact ⟨queue, .inr ⟨batch, made, rfl⟩⟩

lemma replicationComplete_not_dropped (s : L1State) (seq : SequenceId) (args : ArgList) :
    (replicationComplete cfg pick env s seq args).status ≠ .dropped := by
  have one : ∀ clients s op, (sendOp cfg pick env clients s op).status ≠ .dropped := by
    intro clients s op
    unfold sendOp
    split
    · simp
    · unfold Outcome.send
      split <;> simp
  have all : ∀ clients ops s, (Outcome.forEach (sendOp cfg pick env clients) ops s).status ≠
      .dropped := by
    intro clients ops
    induction ops with
    | nil => simp [Outcome.forEach]
    | cons op ops ih =>
      intro s
      exact Outcome.andThen_rule (Q := fun o => o.status ≠ .dropped) (fun _ => one clients s op)
        fun _ => ih _
  unfold replicationComplete
  split
  · simp
  · split
    · simp
    · split
      · simp
      · exact all _ _ _

lemma processOp_dropped_iff (m : ChainModule L1State) (op : L1Operation) (draws : ℕ → Draw) :
    (processOp cfg pick reach env m op draws).status = .dropped ↔ m.isHead = false := by
  rcases @processOp_cases cfg pick reach env m op draws with
    ⟨head, eq⟩ | ⟨head, queue, ⟨e, _, eq⟩ | ⟨batch, _, eq⟩⟩
  · simp [eq, head]
  · simp [eq, head]
  · rw [eq, head]
    refine iff_of_false ?_ (by simp)
    have numbered : ((m.withUser { m.user with internalQueue := queue }).numbered
        { clientId := -1, clientSeqNo := -1, serverSeqNo := -1 }).serverSeqNo =
        m.chainSeqNo + 1 := by
      rw [ChainModule.numbered_of_head (by simpa using head)]
      rfl
    unfold ChainModule.chainRequest
    simp only [numbered, ChainModule.withUser_chainSeqNo]
    rw [if_neg (by omega), if_neg (by omega)]
    refine Outcome.andThen_rule (Q := fun o => o.status ≠ .dropped) (fun _ => by
      simp [callbacks, runCommand]) fun _ => ?_
    dsimp only
    split
    · exact replicationComplete_not_dropped _ _ _
    · unfold Outcome.send
      split <;> simp

lemma updateConnections_cases (cfg : L1Config) (reach : ℕ → ℕ → Bool) (m : ChainModule L1State)
    (column row : ℕ) :
    (∃ clients n, m.isTail = true ∧ m.user.l2Iface = some clients ∧
      cfg.l2Workers[column]? = some n ∧ (n = 0 ∨ reach column row = true) ∧
      updateConnections cfg reach m column row =
        .done (m.withUser { m.user with l2Iface := some (clients.set column ⟨row, n⟩) })) ∨
    ∃ e, updateConnections cfg reach m column row = .raise m e := by
  unfold updateConnections
  split
  · next clients n tail iface size =>
    split
    · next reached =>
      exact .inl ⟨clients, n, tail, iface, size, by simpa using reached, rfl⟩
    · exact .inr ⟨_, rfl⟩
  · exact .inr ⟨_, rfl⟩

end Shortstack.L1Proxy
