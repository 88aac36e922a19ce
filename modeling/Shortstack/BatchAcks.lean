import Shortstack.PipelineDeployment

/-! The acknowledgement of security batches. An L1 worker counts the acknowledgements of the
slots of a batch without looking which slot each is for. A history records, in the order in
which the code handles them, the acknowledgements that arrive and the batches acknowledged in
return. -/
namespace Shortstack
open ChainModule Transition

lemma AList.lookup_replace {α : Type} [DecidableEq α] {β : Type} (s : AList fun _ : α => β)
    (a a' : α) (b : β) : (s.replace a b).lookup a' =
      if a' = a then (s.lookup a).map fun _ => b else s.lookup a' := by
  suffices ∀ l : List (Sigma fun _ : α => β), (l.kreplace a b).dlookup a' =
      if a' = a then (l.dlookup a).map fun _ => b else l.dlookup a' from this s.entries
  intro l
  induction l with
  | nil => simp [List.kreplace]
  | cons e l ih =>
    obtain ⟨x, y⟩ := e
    have skip : ∀ {z : α} (l : List (Sigma fun _ : α => β)) (w : α) (v : β), z ≠ w →
        (⟨w, v⟩ :: l).dlookup z = l.dlookup z := fun l w v ne => List.dlookup_cons_ne l ⟨w, v⟩ ne
    rcases eq_or_ne a x with rfl | other
    · rw [List.kreplace, List.lookmap_cons_some _ l (b := ⟨a, b⟩) (by simp)]
      rcases eq_or_ne a' a with rfl | ne
      · simp
      · rw [skip l a b ne, if_neg ne, skip l a y ne]
    · rw [List.kreplace, List.lookmap_cons_none _ _ (by simp [other]), ← List.kreplace]
      rcases eq_or_ne a' x with rfl | ne
      · simp [other.symm]
      · rw [skip _ x y ne, skip _ x y ne, skip _ x y other, ih]

inductive AckEvent
  | received (k row : ℕ) (l1SeqNo : ℤ)
  | acked (k row : ℕ) (batch : ℤ)
  deriving DecidableEq, Repr

namespace L1Proxy
variable (cfg : L1Config)

def batchNo (seq : SequenceId) : ℤ := seq.l1SeqNo.tdiv cfg.securityBatchSize

/-- The call takes a batch out of the pending map or acknowledges one up the chain. -/
def acknowledges (m : ChainModule L1State)
    (o : Outcome (ChainModule L1State) (Send L1Effect)) : Bool :=
  decide (o.state.pending.entries ≠ m.pending.entries) ||
    decide (o.state.ackQueue ≠ m.ackQueue) || !o.sent.isEmpty

/-- What happens during `external_ack_batch`, in order. -/
def ackEvents (cb : Callbacks L1State L1Effect) (env : Env L1Effect) (k row : ℕ) :
    List SequenceId → ChainModule L1State → List AckEvent
  | [], _ => []
  | q :: seqs, m =>
    let o := externalAck cfg cb env m q
    .received k row q.l1SeqNo ::
      ((if acknowledges m o then [.acked k row (batchNo cfg q)] else []) ++
        if o.status = .returned then ackEvents cb env k row seqs o.state else [])

/-- All slots of a batch have been acknowledged to one row. -/
def Full (events : List AckEvent) (k row : ℕ) (batch : ℤ) : Prop :=
  ∀ i : ℕ, (i : ℤ) < cfg.securityBatchSize →
    .received k row (cfg.securityBatchSize * batch + i) ∈ events

end L1Proxy

/-- A batch is acknowledged only after all its slots have been. -/
def L1Proxy.Justified (cfg : L1Config) (events : List AckEvent) : Prop :=
  ∀ pre post k row batch, events = pre ++ .acked k row batch :: post → Full cfg pre k row batch

namespace Pipeline
variable (cfg : PipelineConfig)

def ackEvents (s : Pipeline) : PipelineLabel → List AckEvent
  | .l1Ack oracle n =>
    match s.l1Acks[n]? with
    | none => []
    | some a =>
      let net := s.ingest.l1 a.dst
      L1Proxy.ackEvents cfg.l1 (s.ingest.callbacks cfg.toIngestConfig oracle)
        (net.env (s.ingest.outside oracle.clock) (net.node a.row)) a.dst a.row a.seqs
        (net.node a.row)
  | _ => []

/-- No acknowledgement reaches a row a second time while its batch is still counted there. -/
def acksOnce (p : Pipeline × List AckEvent) : PipelineLabel → Prop
  | .l1Ack _ n => ∀ a ∈ p.1.l1Acks[n]?, ∀ q ∈ a.seqs,
      L1Proxy.batchNo cfg.l1 q ∈ ((p.1.ingest.l1 a.dst).node a.row).user.pendingCount →
      .received a.dst a.row q.l1SeqNo ∉ p.2 ∧
        (a.seqs.map SequenceId.l1SeqNo).count q.l1SeqNo = 1
  | _ => True

instance (p : Pipeline × List AckEvent) (label : PipelineLabel) :
    Decidable (acksOnce cfg p label) :=
  match label with
  | .l1Ack _ n => inferInstanceAs (Decidable (∀ a ∈ p.1.l1Acks[n]?, ∀ q ∈ a.seqs,
      L1Proxy.batchNo cfg.l1 q ∈ ((p.1.ingest.l1 a.dst).node a.row).user.pendingCount →
      .received a.dst a.row q.l1SeqNo ∉ p.2 ∧
        (a.seqs.map SequenceId.l1SeqNo).count q.l1SeqNo = 1))
  | .client .. | .l1 .. | .crashL1 .. | .l2Request .. | .loseL2 .. | .l2 .. | .reconnect ..
  | .l3Request .. | .loseL3 .. | .l3 .. | .crashL3 .. | .l2Ack .. | .loseL2Ack .. | .loseL1Ack ..
  | .removeL3 .. | .selectiveResend .. | .connectL1Acks .. | .connectL2Acks .. => .isTrue trivial

end Pipeline

namespace L1Proxy
variable {cfg : L1Config}

lemma mem_of_card {batch : ℤ} {numbers : Finset ℤ} (pos : 0 < batch)
    (inside : ∀ n ∈ numbers, n.tdiv cfg.securityBatchSize = batch)
    (size : (numbers.card : ℤ) = cfg.securityBatchSize) {i : ℕ}
    (hi : (i : ℤ) < cfg.securityBatchSize) : cfg.securityBatchSize * batch + i ∈ numbers := by
  have positive : 0 < cfg.securityBatchSize := by omega
  have sub : numbers ⊆ Finset.Ico (cfg.securityBatchSize * batch)
      (cfg.securityBatchSize * batch + cfg.securityBatchSize) := by
    intro n hn
    have quotient := inside n hn
    have nonneg : 0 ≤ n := by
      by_contra neg
      have : n.tdiv cfg.securityBatchSize ≤ 0 := by
        rw [show n = -(-n) by omega, Int.neg_tdiv]
        have := Int.tdiv_nonneg (a := -n) (by omega) positive.le
        omega
      omega
    rw [Int.tdiv_eq_ediv_of_nonneg nonneg] at quotient
    have low := Int.mul_ediv_self_le (x := n) (k := cfg.securityBatchSize) positive.ne'
    have high := Int.lt_mul_ediv_self_add (x := n) positive
    rw [quotient] at low high
    exact Finset.mem_Ico.mpr ⟨low, high⟩
  have all := Finset.eq_of_subset_of_card_le sub (by rw [Int.card_Ico]; omega)
  rw [all]
  exact Finset.mem_Ico.mpr ⟨by omega, by omega⟩

/-- The counts of a replica: what is left of a batch and the different slots acknowledged so far
make up its size. Every batch it has run and no longer keeps is full, and so are those it
acknowledges. -/
structure Counted (cfg : L1Config) (got full : ℤ → Prop) (m : ChainModule L1State) : Prop where
  seqNo : 0 ≤ m.chainSeqNo
  count : ∀ batch c, m.user.pendingCount.lookup batch = some c → 0 < batch ∧ ∃ numbers : Finset ℤ,
    (∀ n ∈ numbers, got n ∧ n.tdiv cfg.securityBatchSize = batch) ∧
      c + numbers.card = cfg.securityBatchSize
  kept : ∀ op ∈ m.ran, op.seq.serverSeqNo ∈ m.pending ∨ full op.seq.serverSeqNo
  queue : ∀ q ∈ m.ackQueue, full q.serverSeqNo

variable {got full : ℤ → Prop} {m : ChainModule L1State} {pick : ℤ → ℕ} {reach : ℕ → ℕ → Bool}
  {env : Env L1Effect}

lemma Counted.mono (h : Counted cfg got full m) {got' full' : ℤ → Prop}
    (more : ∀ n, got n → got' n) (later : ∀ b, full b → full' b) : Counted cfg got' full' m where
  seqNo := h.seqNo
  count batch c found := by
    obtain ⟨pos, numbers, inside, sum⟩ := h.count batch c found
    exact ⟨pos, numbers, fun n hn => ⟨more n (inside n hn).1, (inside n hn).2⟩, sum⟩
  kept op hop := (h.kept op hop).imp_right (later _)
  queue q hq := later _ (h.queue q hq)

lemma Counted.frame (h : Counted cfg got full m) {t : ChainModule L1State}
    (seqNo : t.chainSeqNo = m.chainSeqNo) (count : t.user.pendingCount = m.user.pendingCount)
    (pending : t.pending = m.pending) (ran : t.ran = m.ran) (queue : t.ackQueue = m.ackQueue) :
    Counted cfg got full t where
  seqNo := seqNo ▸ h.seqNo
  count := count ▸ h.count
  kept := by
    rw [ran, pending]
    exact h.kept
  queue := queue ▸ h.queue

lemma Counted.run (h : Counted cfg got full m) {op : ChainOp}
    (number : op.seq.serverSeqNo = m.chainSeqNo + 1) :
    Counted cfg got full ((m.record op).withUser (runCommand cfg m.user op.seq op.args).state) where
  seqNo := by
    have := h.seqNo
    rw [withUser_chainSeqNo, record_chainSeqNo]
    omega
  count batch c found := by
    have old := h.seqNo
    simp only [withUser_user, runCommand, Outcome.done_state] at found
    split at found
    · exact h.count batch c found
    · rcases eq_or_ne batch op.seq.serverSeqNo with rfl | other
      · rw [AList.lookup_insert, Option.some.injEq] at found
        exact ⟨by omega, ∅, by simp, by simp [found]⟩
      · rw [AList.lookup_insert_ne other] at found
        exact h.count batch c found
  kept x hx := by
    rw [withUser_ran, record_ran, List.mem_append, List.mem_singleton] at hx
    rw [withUser_pending, record_pending, addPending]
    rcases hx with old | rfl
    · refine (h.kept x old).imp_left fun mem => ?_
      split
      · exact mem
      · exact AList.mem_insert _ |>.mpr (.inr mem)
    · left
      split
      · next mem => exact mem
      · exact AList.mem_insert _ |>.mpr (.inl rfl)
  queue := h.queue

lemma Counted.chainRequest (h : Counted cfg got full m) (seq : SequenceId) (args : ArgList) :
    Counted cfg got full (m.chainRequest (callbacks cfg pick reach) env seq args).state := by
  cases chainRequest_cases (callbacks cfg pick reach) env m seq args with
  | duplicate _ result | outOfOrder _ result =>
    rw [result]
    exact h
  | failed _ status _ => exact absurd rfl status
  | completed number _ _ result =>
    rw [result]
    dsimp only
    rw [show ((callbacks cfg pick reach).replicationComplete env ((callbacks cfg pick reach).runCommand
      env m.user (m.numbered seq) args).state (m.numbered seq) args).state = _ from
      replicationComplete_state _ _ _]
    exact h.run number
  | passed number _ _ result =>
    rw [result]
    exact h.run number

lemma resendPending_state (n : ℤ) :
    (m.resendPending (callbacks cfg pick reach) env n).state = m := by
  refine Outcome.forEach_induction (f := resendOne (callbacks cfg pick reach) env) (m.pendingAfter n)
    m [] (P := fun t _ => t = m) ?_ rfl
  rintro t _ op _ rfl
  unfold resendOne
  split
  · rw [call_state, show ((callbacks cfg pick reach).replicationComplete env t.user op.seq
      op.args).state = t.user from replicationComplete_state _ _ _, withUser_self]
  · exact Outcome.send_state ..

@[simp] lemma setupCallback_pendingCount (role : ChainRole) (u : L1State) :
    (setupCallback cfg reach role u).pendingCount = u.pendingCount := by
  unfold setupCallback
  split <;> rfl

lemma Counted.ack (h : Counted cfg got full m) {q : SequenceId} (complete : full q.serverSeqNo) :
    Counted cfg got full (m.ack (callbacks cfg pick reach) env q).state ∧
      ∀ b ∈ acksOf (m.ack (callbacks cfg pick reach) env q).sent, ∀ x ∈ b, full x.serverSeqNo := by
  have effect : AckEffect m [q] (fun x => full x.serverSeqNo)
      (m.ack (callbacks cfg pick reach) env q).state
      ([] ++ (m.ack (callbacks cfg pick reach) env q).sent) :=
    AckEffect.ack (.start h.queue) (by simp) complete
  obtain ⟨p, a, u, state⟩ := effect.frame
  refine ⟨⟨?_, ?_, ?_, effect.queue⟩, effect.acks⟩
  · rw [state]
    exact h.seqNo
  · intro batch c found
    rw [ack_user] at found
    rcases eq_or_ne batch q.serverSeqNo with rfl | other
    · rw [AList.lookup_erase] at found
      simp at found
    · rw [AList.lookup_erase_ne other] at found
      exact h.count batch c found
  · intro op hop
    have ran : op ∈ m.ran := by
      rw [state] at hop
      exact hop
    rcases h.kept op ran with mem | done
    · rcases effect.pending op.seq.serverSeqNo with same | ⟨-, x, hx, number⟩
      · left
        rw [← AList.lookup_isSome] at mem ⊢
        rw [same]
        exact mem
      · right
        rw [← number, List.mem_singleton.mp hx]
        exact complete
    · exact .inr done

lemma Counted.ackBatch (h : Counted cfg got full m) {seqs : List SequenceId}
    (complete : ∀ q ∈ seqs, full q.serverSeqNo) :
    Counted cfg got full (m.ackBatch (callbacks cfg pick reach) env seqs).state ∧
      ∀ b ∈ acksOf (m.ackBatch (callbacks cfg pick reach) env seqs).sent, ∀ x ∈ b,
        full x.serverSeqNo := by
  have loop := Outcome.forEach_induction (f := ChainModule.ack (callbacks cfg pick reach) env) seqs m
    [] (P := fun t sent => Counted cfg got full t ∧ ∀ b ∈ acksOf sent, ∀ x ∈ b, full x.serverSeqNo)
    ?_ ⟨h, by simp⟩
  · rw [List.nil_append] at loop
    exact loop
  rintro t sent q hq ⟨counted, before⟩
  have one : Counted cfg got full (t.ack (callbacks cfg pick reach) env q).state ∧
      ∀ b ∈ acksOf (t.ack (callbacks cfg pick reach) env q).sent, ∀ x ∈ b, full x.serverSeqNo :=
    counted.ack (complete q hq)
  obtain ⟨after, sends⟩ := one
  refine ⟨after, fun b hb => ?_⟩
  rw [acksOf_append, List.mem_append] at hb
  exact hb.elim (before b) (sends b)

/-- The counts of row `row` of worker `k` against a history. -/
def CountedAt (cfg : L1Config) (events : List AckEvent) (k row : ℕ) (m : ChainModule L1State) :
    Prop :=
  Counted cfg (fun n => .received k row n ∈ events) (fun b => ∃ row', Full cfg events k row' b) m

lemma Full.append {events : List AckEvent} {k row : ℕ} {b : ℤ} (h : Full cfg events k row b)
    (more : List AckEvent) : Full cfg (events ++ more) k row b :=
  fun i hi => List.mem_append_left more (h i hi)

lemma CountedAt.append {events : List AckEvent} {k row : ℕ} (h : CountedAt cfg events k row m)
    (more : List AckEvent) : CountedAt cfg (events ++ more) k row m :=
  h.mono (fun _ mem => List.mem_append_left more mem)
    fun _ ⟨row', complete⟩ => ⟨row', complete.append more⟩

lemma Justified.received {events : List AckEvent} (h : Justified cfg events) (k row : ℕ) (n : ℤ) :
    Justified cfg (events ++ [.received k row n]) := by
  intro pre post k' row' b eq
  rcases List.eq_nil_or_concat post with rfl | ⟨post, e, rfl⟩
  · rw [← List.concat_eq_append, ← List.concat_eq_append, List.concat_inj] at eq
    simp at eq
  · rw [List.concat_eq_append, ← List.cons_append, ← List.append_assoc, ← List.concat_eq_append,
      ← List.concat_eq_append, List.concat_inj] at eq
    exact h pre post k' row' b eq.1

lemma Justified.acked {events : List AckEvent} (h : Justified cfg events) {k row : ℕ} {b : ℤ}
    (full : Full cfg events k row b) : Justified cfg (events ++ [.acked k row b]) := by
  intro pre post k' row' b' eq
  rcases List.eq_nil_or_concat post with rfl | ⟨post, e, rfl⟩
  · rw [← List.concat_eq_append, ← List.concat_eq_append, List.concat_inj] at eq
    obtain ⟨rfl, same⟩ := eq
    simp only [AckEvent.acked.injEq] at same
    obtain ⟨rfl, rfl, rfl⟩ := same
    exact full
  · rw [List.concat_eq_append, ← List.cons_append, ← List.append_assoc, ← List.concat_eq_append,
      ← List.concat_eq_append, List.concat_inj] at eq
    exact h pre post k' row' b' eq.1

/-- What one external acknowledgement adds to the history. -/
def ackEvent (cfg : L1Config) (cb : Callbacks L1State L1Effect) (env : Env L1Effect) (k row : ℕ)
    (m : ChainModule L1State) (q : SequenceId) : List AckEvent :=
  .received k row q.l1SeqNo ::
    if acknowledges m (externalAck cfg cb env m q) then [.acked k row (batchNo cfg q)] else []

/-- The state and the sends of a call agree with the history after it. -/
structure Handled (cfg : L1Config) (events : List AckEvent) (k row : ℕ)
    (o : Outcome (ChainModule L1State) (Send L1Effect)) : Prop where
  counted : CountedAt cfg events k row o.state
  justified : Justified cfg events
  sent : ∀ b ∈ acksOf o.sent, ∀ x ∈ b, ∃ row', Full cfg events k row' x.serverSeqNo

lemma CountedAt.externalAck {events : List AckEvent} {k row : ℕ} (h : CountedAt cfg events k row m)
    (justified : Justified cfg events) {q : SequenceId}
    (fresh : batchNo cfg q ∈ m.user.pendingCount → .received k row q.l1SeqNo ∉ events) :
    Handled cfg (events ++ ackEvent cfg (callbacks cfg pick reach) env k row m q) k row
      (L1Proxy.externalAck cfg (callbacks cfg pick reach) env m q) := by
  set o := L1Proxy.externalAck cfg (callbacks cfg pick reach) env m q with call
  set after := events ++ ackEvent cfg (callbacks cfg pick reach) env k row m q with history
  have arrived : CountedAt cfg (events ++ [.received k row q.l1SeqNo]) k row m := h.append _
  have known : Justified cfg (events ++ [.received k row q.l1SeqNo]) := justified.received k row _
  have quiet : acknowledges m o = false → after = events ++ [.received k row q.l1SeqNo] := by
    intro silent
    rw [history, ackEvent, ← call, silent]
    rfl
  cases counted : m.user.pendingCount.lookup (batchNo cfg q) with
  | none =>
    have same : o = .done m := by
      simp only [call, L1Proxy.externalAck]
      rw [show m.user.pendingCount.lookup (q.l1SeqNo.tdiv cfg.securityBatchSize) = none from counted]
    rw [quiet (by simp [same, acknowledges]), same]
    exact ⟨arrived, known, by simp⟩
  | some c =>
    obtain ⟨pos, numbers, inside, sum⟩ := h.count _ _ counted
    have new : .received k row q.l1SeqNo ∉ events := by
      refine fresh ?_
      rw [← AList.lookup_isSome, counted]
      rfl
    have outside : q.l1SeqNo ∉ numbers := fun mem => new (inside _ mem).1
    have numbers' : ∀ n ∈ insert q.l1SeqNo numbers,
        AckEvent.received k row n ∈ events ++ [.received k row q.l1SeqNo] ∧
          n.tdiv cfg.securityBatchSize = batchNo cfg q := by
      intro n hn
      rcases Finset.mem_insert.mp hn with rfl | old
      · exact ⟨by simp, rfl⟩
      · exact ⟨List.mem_append_left _ (inside n old).1, (inside n old).2⟩
    have sum' : c - 1 + (insert q.l1SeqNo numbers).card = cfg.securityBatchSize := by
      rw [Finset.card_insert_of_notMem outside]
      push_cast
      omega
    have counting : CountedAt cfg (events ++ [.received k row q.l1SeqNo]) k row (m.withUser
        { m.user with pendingCount := m.user.pendingCount.replace (batchNo cfg q) (c - 1) }) := by
      refine { arrived with count := ?_ }
      intro batch c' found
      rw [withUser_user, AList.lookup_replace] at found
      split at found
      · next same =>
        subst same
        rw [counted, Option.map_some, Option.some.injEq] at found
        subst found
        exact ⟨pos, _, numbers', sum'⟩
      · exact arrived.count batch c' found
    have result : o = if c - 1 = 0 then (m.withUser { m.user with
          pendingCount := m.user.pendingCount.replace (batchNo cfg q) (c - 1) }).ack
            (callbacks cfg pick reach) env { serverSeqNo := batchNo cfg q }
        else .done (m.withUser { m.user with
          pendingCount := m.user.pendingCount.replace (batchNo cfg q) (c - 1) }) := by
      simp only [call, L1Proxy.externalAck]
      rw [show m.user.pendingCount.lookup (q.l1SeqNo.tdiv cfg.securityBatchSize) = some c
        from counted]
      rfl
    split at result
    · next last =>
      have all : Full cfg (events ++ [.received k row q.l1SeqNo]) k row (batchNo cfg q) :=
        fun i hi => (numbers' _ (mem_of_card pos (fun n hn => (numbers' n hn).2)
          (by omega) hi)).1
      have acked : Justified cfg after ∧ ∃ more, after = events ++ [.received k row q.l1SeqNo] ++
          more := by
        rw [history, ackEvent, ← List.singleton_append, ← List.append_assoc]
        split
        · exact ⟨known.acked all, _, rfl⟩
        · rw [List.append_nil]
          exact ⟨known, [], by simp⟩
      obtain ⟨justified', more, eq⟩ := acked
      rw [result]
      have full : ∃ row', Full cfg after k row' (batchNo cfg q) := ⟨row, eq ▸ all.append more⟩
      have counting' : CountedAt cfg after k row (m.withUser { m.user with
          pendingCount := m.user.pendingCount.replace (batchNo cfg q) (c - 1) }) :=
        eq ▸ counting.append more
      exact ⟨(Counted.ack counting' full).1, justified', (Counted.ack counting' full).2⟩
    · rw [quiet (by simp [result, acknowledges]), result]
      exact ⟨counting, known, by simp⟩

lemma mem_of_externalAck {q : SequenceId} {b : ℤ} (mem : b ∈ (L1Proxy.externalAck cfg
    (callbacks cfg pick reach) env m q).state.user.pendingCount) : b ∈ m.user.pendingCount := by
  unfold L1Proxy.externalAck at mem
  dsimp only at mem
  split at mem
  · exact mem
  · split at mem
    · rw [ack_user, AList.mem_erase, withUser_user, AList.mem_replace] at mem
      exact mem.2
    · rw [Outcome.done_state, withUser_user, AList.mem_replace] at mem
      exact mem

lemma CountedAt.externalAckBatch {events : List AckEvent} {k row : ℕ}
    (h : CountedAt cfg events k row m) (justified : Justified cfg events) {seqs : List SequenceId}
    (fresh : ∀ q ∈ seqs, batchNo cfg q ∈ m.user.pendingCount →
      .received k row q.l1SeqNo ∉ events ∧ (seqs.map SequenceId.l1SeqNo).count q.l1SeqNo = 1) :
    Handled cfg (events ++ ackEvents cfg (callbacks cfg pick reach) env k row seqs m) k row
      (L1Proxy.externalAckBatch cfg (callbacks cfg pick reach) env m seqs) := by
  induction seqs generalizing m events with
  | nil =>
    rw [ackEvents, List.append_nil]
    exact ⟨h, justified, by simp [L1Proxy.externalAckBatch, Outcome.forEach]⟩
  | cons q seqs ih =>
    have first : Handled cfg (events ++ ackEvent cfg (callbacks cfg pick reach) env k row m q) k row
        (L1Proxy.externalAck cfg (callbacks cfg pick reach) env m q) :=
      h.externalAck justified fun mem => (fresh q List.mem_cons_self mem).1
    have history : events ++ ackEvents cfg (callbacks cfg pick reach) env k row (q :: seqs) m =
        events ++ ackEvent cfg (callbacks cfg pick reach) env k row m q ++
        if (L1Proxy.externalAck cfg (callbacks cfg pick reach) env m q).status = .returned then
          ackEvents cfg (callbacks cfg pick reach) env k row seqs
            (L1Proxy.externalAck cfg (callbacks cfg pick reach) env m q).state else [] := by
      simp only [ackEvents, ackEvent, List.append_assoc, List.cons_append]
    rw [history, show L1Proxy.externalAckBatch cfg (callbacks cfg pick reach) env m (q :: seqs) =
      (L1Proxy.externalAck cfg (callbacks cfg pick reach) env m q).andThen fun m =>
        L1Proxy.externalAckBatch cfg (callbacks cfg pick reach) env m seqs from rfl]
    refine Outcome.andThen_rule (fun stopped => ?_) fun returned => ?_
    · rw [if_neg stopped, List.append_nil]
      exact first
    · rw [if_pos returned]
      have later := ih first.counted first.justified fun x hx mem => by
        obtain ⟨absent, once⟩ := fresh x (List.mem_cons_of_mem q hx) (mem_of_externalAck mem)
        have here : x.l1SeqNo ∈ seqs.map SequenceId.l1SeqNo := List.mem_map_of_mem hx
        rw [List.map_cons, List.count_cons] at once
        have some' := List.count_pos_iff.mpr here
        have other : x.l1SeqNo ≠ q.l1SeqNo := by
          rintro same
          rw [if_pos (by simp [same])] at once
          omega
        refine ⟨?_, by split at once <;> omega⟩
        rw [List.mem_append, not_or]
        refine ⟨absent, ?_⟩
        unfold ackEvent
        split
        · simp [other]
        · simp [other]
      refine ⟨later.counted, later.justified, fun b hb => ?_⟩
      rw [acksOf_append, List.mem_append] at hb
      rcases hb with old | new
      · intro x hx
        obtain ⟨row', full⟩ := first.sent b old x hx
        exact ⟨row', full.append _⟩
      · exact later.sent b new

/-- The counts of all rows, and the acknowledgements under way inside the chain. -/
structure NetCounted (cfg : L1Config) (events : List AckEvent) (k : ℕ) (net : ChainNet L1State) :
    Prop where
  node : ∀ row, CountedAt cfg events k row (net.node row)
  acks : ∀ a ∈ net.acks, ∀ q ∈ a.seqs, ∃ row', Full cfg events k row' q.serverSeqNo

variable {events : List AckEvent} {k : ℕ} {net : ChainNet L1State}

lemma NetCounted.append (h : NetCounted cfg events k net) (more : List AckEvent) :
    NetCounted cfg (events ++ more) k net where
  node row := (h.node row).append more
  acks a ha q hq := by
    obtain ⟨row', full⟩ := h.acks a ha q hq
    exact ⟨row', full.append more⟩

lemma NetCounted.deposit (h : NetCounted cfg events k net) (net₁ : ChainNet L1State)
    (node : net₁.node = net.node) (acks : ∀ a ∈ net₁.acks, a ∈ net.acks) {row : ℕ}
    {o : Outcome (ChainModule L1State) (Send L1Effect)} (state : CountedAt cfg events k row o.state)
    (sent : ∀ b ∈ acksOf o.sent, ∀ x ∈ b, ∃ row', Full cfg events k row' x.serverSeqNo) :
    NetCounted cfg events k (net₁.deposit row o) where
  node := ChainNet.deposit_local (by rw [node]; exact h.node) state
  acks a ha := by
    rcases ChainNet.mem_deposit_acks net₁ row o ha with old | new
    · exact h.acks a (acks a old)
    · exact sent a.seqs new

lemma NetCounted.step (h : NetCounted cfg events k net) {ext : Outside L1Effect}
    {nl : NetLabel L1State} {r : NetResult L1State L1Effect}
    (taken : net.step (callbacks cfg pick reach) ext nl = some r)
    (user : ∀ i u, ChainNet.touches nl = some (i, u) →
      u.pendingCount = (net.node i).user.pendingCount)
    (inner : ∀ i u seqs, nl ≠ .ackFrom i u seqs) : NetCounted cfg events k r.net := by
  have touched : ∀ i u, ChainNet.touches nl = some (i, u) →
      CountedAt cfg events k i ((net.node i).withUser u) :=
    fun i u eq => Counted.frame (h.node i) rfl (user i u eq) rfl rfl rfl
  cases ChainNet.step_cases taken with
  | @request i u seq args _ _ =>
    refine h.deposit net rfl (fun _ ha => ha) (Counted.chainRequest (touched i u rfl) seq args) ?_
    cases chainRequest_effect (callbacks cfg pick reach) (net.env ext ((net.node i).withUser u))
        ((net.node i).withUser u) seq args with
    | skipped _ _ _ none | ran _ _ _ none => simp [none]
  | @deliver i j op rest link _ =>
    have met : CountedAt cfg events k j (ChainNet.meet (net.node j) i) := by
      unfold ChainNet.meet
      split
      · exact h.node j
      · exact Counted.frame (h.node j) rfl rfl rfl rfl rfl
    refine h.deposit (net.setLink i j rest) rfl (fun _ ha => ha)
      (Counted.chainRequest met op.seq op.args) ?_
    cases chainRequest_effect (callbacks cfg pick reach)
        (net.env ext (ChainNet.meet (net.node j) i)) (ChainNet.meet (net.node j) i) op.seq
        op.args with
    | skipped _ _ _ none | ran _ _ _ none => simp [none]
  | @ackDeliver n a found _ =>
    have complete := h.acks a (List.mem_of_getElem? found)
    exact h.deposit { net with acks := net.acks.eraseIdx n } rfl
      (fun _ ha => List.mem_of_mem_eraseIdx ha)
      (Counted.ackBatch (h.node a.dst) complete).1 (Counted.ackBatch (h.node a.dst) complete).2
  | @ackFrom i u seqs _ => exact absurd rfl (inner i u seqs)
  | @touch i u _ => exact h.deposit net rfl (fun _ ha => ha) (touched i u rfl) (by simp)
  | @setup i _ =>
    refine h.deposit net rfl (fun _ ha => ha) (Counted.frame (h.node i) rfl ?_ rfl rfl rfl) (by simp)
    exact setupCallback_pendingCount _ _
  | @resend i n _ _ =>
    obtain ⟨_, _, _, none⟩ := resendPending_effect (callbacks cfg pick reach)
      (net.env ext (net.node i)) (net.node i) n
    refine h.deposit { net with fetched := Function.update net.fetched i Option.none } rfl
      (fun _ ha => ha) ?_ (by simp [none])
    rw [resendPending_state]
    exact h.node i
  | crash _ | fetch _ | lose _ _ => exact ⟨h.node, h.acks⟩
  | loseAck _ => exact ⟨h.node, fun a ha => h.acks a (List.mem_of_mem_eraseIdx ha)⟩

end L1Proxy

namespace Pipeline
open L1Proxy
variable {cfg : PipelineConfig}

/-- What a step does to the L1 chains. -/
inductive L1Change (cfg : PipelineConfig) (s : Pipeline) :
    PipelineLabel → (ℕ → ChainNet L1State) → Prop
  | ack {oracle n a ir} (found : s.l1Acks[n]? = some a)
      (taken : Ingest.StepCase cfg.toIngestConfig s.ingest (.ackL1 oracle a.dst a.row a.seqs) ir) :
    L1Change cfg s (.l1Ack oracle n) ir.state.l1
  | step {label il ir} (other : ∀ oracle n, label ≠ .l1Ack oracle n)
      (inner : ∀ oracle k row seqs, il ≠ .ackL1 oracle k row seqs)
      (taken : Ingest.StepCase cfg.toIngestConfig s.ingest il ir) : L1Change cfg s label ir.state.l1
  | same {label} (other : ∀ oracle n, label ≠ .l1Ack oracle n) : L1Change cfg s label s.ingest.l1

lemma l1Change_of_ingestStep {s s₀ : Pipeline} {label : PipelineLabel} {column : ℕ}
    {il : IngestLabel} {r : PipelineResult} (taken : s₀.ingestStep cfg column il = some r)
    (same : s₀.ingest = s.ingest) (other : ∀ oracle n, label ≠ .l1Ack oracle n)
    (inner : ∀ oracle k row seqs, il ≠ .ackL1 oracle k row seqs) :
    L1Change cfg s label r.state.ingest.l1 := by
  obtain ⟨ir, moved, rfl⟩ := Option.map_eq_some_iff.mp taken
  rw [same] at moved
  rw [absorb_ingest]
  exact .step other inner (Ingest.step_cases moved)

lemma callL2_l1 (s : Pipeline) (x : L2Target) (o : Outcome (ChainModule L2State) (Send L2Effect)) :
    (s.callL2 cfg x o).state.ingest.l1 = s.ingest.l1 := by
  unfold callL2
  rw [absorb_ingest]

lemma stepL3_ingest {s : Pipeline} {clock : Option Int64} {y : ℕ × ℕ} {label : L3Label}
    {r : PipelineResult} (taken : s.stepL3 cfg clock y label = some r) :
    r.state.ingest = s.ingest := by
  cases label <;> simp only [stepL3, Option.map_eq_some_iff, Option.ite_none_right_eq_some] at taken
  case serveGet | servePut =>
    obtain ⟨_, _, rfl⟩ := taken
    rfl
  case getReply | crypto | putReply | respond =>
    obtain ⟨_, _, _, rfl⟩ := taken
    rfl

theorem l1Change {s : Pipeline} {label : PipelineLabel} {r : PipelineResult}
    (taken : s.step cfg label = some r) : L1Change cfg s label r.state.ingest.l1 := by
  cases label with
  | client | l1 | crashL1 | l2Request | loseL2 | reconnect =>
    exact l1Change_of_ingestStep taken rfl (by simp) (by simp)
  | l2 clock column label =>
    cases label with
    | externalAck => simp [step] at taken
    | request | chain | crash => exact l1Change_of_ingestStep taken rfl (by simp) (by simp)
  | l2Ack clock n =>
    simp only [step] at taken
    split at taken
    · simp at taken
    · exact l1Change_of_ingestStep taken rfl (by simp) (by simp)
  | l1Ack oracle n =>
    simp only [step] at taken
    split at taken
    · simp at taken
    · next a found =>
      obtain ⟨ir, moved, rfl⟩ := Option.map_eq_some_iff.mp taken
      rw [absorb_ingest]
      exact .ack found (Ingest.step_cases moved)
  | l3Request clock x y =>
    simp only [step] at taken
    split at taken
    · simp at taken
    · simp only [Option.ite_none_right_eq_some, Option.some.injEq] at taken
      obtain ⟨-, rfl⟩ := taken
      exact .same (by simp)
  | l3 clock y label =>
    rw [stepL3_ingest taken]
    exact .same (by simp)
  | loseL2Ack n | loseL1Ack n =>
    simp only [step] at taken
    split at taken
    · simp at taken
    · simp only [Option.ite_none_right_eq_some, Option.some.injEq] at taken
      obtain ⟨-, rfl⟩ := taken
      exact .same (by simp)
  | loseL3 | connectL2Acks =>
    simp only [step, Option.ite_none_right_eq_some, Option.some.injEq] at taken
    obtain ⟨-, rfl⟩ := taken
    exact .same (by simp)
  | crashL3 column =>
    simp only [step, Option.some.injEq] at taken
    exact taken ▸ .same (by simp)
  | removeL3 | selectiveResend | connectL1Acks =>
    simp only [step, Option.ite_none_right_eq_some, Option.some.injEq] at taken
    obtain ⟨-, rfl⟩ := taken
    rw [callL2_l1]
    exact .same (by simp)

/-- The L1 chains against the history. -/
structure Acked (cfg : PipelineConfig) (p : Pipeline × List AckEvent) : Prop where
  net : ∀ k, NetCounted cfg.l1 p.2 k (p.1.ingest.l1 k)
  events : Justified cfg.l1 p.2

lemma ackEvents_other (s : Pipeline) {label : PipelineLabel}
    (other : ∀ oracle n, label ≠ .l1Ack oracle n) : ackEvents cfg s label = [] := by
  cases label with
  | l1Ack oracle n => exact absurd rfl (other oracle n)
  | _ => rfl

lemma Acked.ingest {p : Pipeline × List AckEvent} (h : Acked cfg p) {il : IngestLabel}
    {ir : IngestResult} (inner : ∀ oracle k row seqs, il ≠ .ackL1 oracle k row seqs)
    (taken : Ingest.StepCase cfg.toIngestConfig p.1.ingest il ir) (k : ℕ) :
    NetCounted cfg.l1 p.2 k (ir.state.l1 k) := by
  cases taken with
  | @l1 _ oracle k' nl res status source taken =>
    rcases eq_or_ne k k' with rfl | other
    · simp only [Ingest.absorb, Function.update_self]
      refine (h.net k).step taken ?_ ?_
      · intro i u touched
        cases source with
        | chain internal => cases nl <;> simp_all [NetLabel.internal, ChainNet.touches]
        | request | failed =>
          simp only [ChainNet.touches, Option.some.injEq, Prod.mk.injEq] at touched
          rw [← touched.1, ← touched.2]
      · rintro i u seqs rfl
        cases source with
        | chain internal => simp [NetLabel.internal] at internal
    · simp only [Ingest.absorb, Function.update_of_ne other]
      exact h.net k
  | refused | deliver | lose | l2 | abandoned => exact h.net k
  | ackL1 _ => exact absurd rfl (inner _ _ _ _)
  | @crashL1 column row =>
    dsimp only
    split
    · exact ⟨(h.net k).node, (h.net k).acks⟩
    · exact h.net k
  | @reconnect k' row column newRow clients n alive up iface tail size reached =>
    rcases eq_or_ne k k' with rfl | other
    · simp only [Ingest.absorb, Function.update_self]
      exact (h.net k).deposit _ rfl (fun _ ha => ha)
        (Counted.frame ((h.net k).node row) rfl rfl rfl rfl rfl) (by simp)
    · simp only [Ingest.absorb, Function.update_of_ne other]
      exact h.net k

theorem Acked.step {p : Pipeline × List AckEvent} (h : Acked cfg p) {label : PipelineLabel}
    {r : PipelineResult} (once : acksOnce cfg p label) (taken : p.1.step cfg label = some r) :
    Acked cfg (r.state, p.2 ++ ackEvents cfg p.1 label) := by
  suffices (∀ k, NetCounted cfg.l1 (p.2 ++ ackEvents cfg p.1 label) k (r.state.ingest.l1 k)) ∧
      Justified cfg.l1 (p.2 ++ ackEvents cfg p.1 label) from ⟨this.1, this.2⟩
  have change := l1Change taken
  generalize r.state.ingest.l1 = l1 at change ⊢
  cases change with
  | same other =>
    rw [ackEvents_other p.1 other, List.append_nil]
    exact ⟨h.net, h.events⟩
  | step other inner moved =>
    rw [ackEvents_other p.1 other, List.append_nil]
    exact ⟨h.ingest inner moved, h.events⟩
  | @ack oracle n a ir found moved =>
    cases moved with
    | l1 _ source _ => cases source
    | @ackL1 _ _ _ _ status alive =>
      have fresh := once a found
      have handled := @CountedAt.externalAckBatch cfg.l1 _ oracle.pick p.1.ingest.reach
        ((p.1.ingest.l1 a.dst).env (p.1.ingest.outside oracle.clock)
          ((p.1.ingest.l1 a.dst).node a.row)) _ _ _ ((h.net a.dst).node a.row) h.events _ fresh
      have events : ackEvents cfg p.1 (.l1Ack oracle n) = L1Proxy.ackEvents cfg.l1
          (callbacks cfg.l1 oracle.pick p.1.ingest.reach) ((p.1.ingest.l1 a.dst).env
            (p.1.ingest.outside oracle.clock) ((p.1.ingest.l1 a.dst).node a.row)) a.dst a.row a.seqs
          ((p.1.ingest.l1 a.dst).node a.row) := by
        simp only [ackEvents, found]
        rfl
      rw [events]
      refine ⟨fun k => ?_, handled.justified⟩
      rcases eq_or_ne k a.dst with rfl | other
      · simp only [Ingest.absorb, Function.update_self]
        exact ((h.net a.dst).append _).deposit _ rfl (fun _ ha => ha) handled.counted handled.sent
      · simp only [Ingest.absorb, Function.update_of_ne other]
        exact (h.net k).append _

lemma acked_start : Acked cfg (start cfg, []) where
  net k :=
    { node := fun row => by
        refine ⟨le_rfl, fun batch c found => ?_, by simp [start, Ingest.start, ChainNet.start,
          ChainModule.setup], by simp [start, Ingest.start, ChainNet.start, ChainModule.setup]⟩
        simp [start, Ingest.start, ChainNet.start, ChainModule.setup, callbacks, initState] at found
      acks := by simp [start, Ingest.start, ChainNet.start] }
  events := by
    intro pre post k row batch eq
    simp at eq

/-- In every run in which no row receives the acknowledgement of a slot twice while it counts
the batch, a batch is acknowledged only after all of its slots have been acknowledged to that
row; and a replica gives up no batch otherwise. -/
theorem batch_acked_full {p : Pipeline × List AckEvent}
    (run : Reaches (record (pipelineSystem cfg) (ackEvents cfg)) (acksOnce cfg) p) :
    (∀ pre post k row batch, p.2 = pre ++ .acked k row batch :: post →
      ∀ i : ℕ, (i : ℤ) < cfg.l1.securityBatchSize →
        .received k row (cfg.l1.securityBatchSize * batch + i) ∈ pre) ∧
    ∀ k row, ∀ op ∈ ((p.1.ingest.l1 k).node row).ran,
      op.seq.serverSeqNo ∉ ((p.1.ingest.l1 k).node row).pending →
      ∃ row', ∀ i : ℕ, (i : ℤ) < cfg.l1.securityBatchSize →
        .received k row' (cfg.l1.securityBatchSize * op.seq.serverSeqNo + i) ∈ p.2 := by
  have inv : Acked cfg p := by
    refine run.invariant (P := Acked cfg) ?_ ?_
    · rintro ⟨s, events⟩ ⟨start, none⟩
      rw [show s = _ from start, show events = _ from none]
      exact acked_start
    · intro q label t h once taken
      obtain ⟨next, moved, rfl⟩ := Option.map_eq_some_iff.mp taken
      obtain ⟨r, stepped, rfl⟩ := Option.map_eq_some_iff.mp moved
      exact h.step once stepped
  exact ⟨inv.events, fun k row op hop gone => (((inv.net k).node row).kept op hop).resolve_left gone⟩

end Pipeline

namespace GridDeployment

/-- One L1 instance, three L2 columns of two rows and one L3 instance. -/
def threeColumns : GridDeployment where
  hosts := [⟨"l1_0", .l1, "h", 9090, 0, 0, 1⟩,
    ⟨"l2_0", .l2, "h", 9190, 0, 0, 1⟩, ⟨"l2_1", .l2, "h", 9290, 1, 0, 1⟩,
    ⟨"l2_2", .l2, "h", 9390, 0, 1, 1⟩, ⟨"l2_3", .l2, "h", 9490, 1, 1, 1⟩,
    ⟨"l2_4", .l2, "h", 9590, 0, 2, 1⟩, ⟨"l2_5", .l2, "h", 9690, 1, 2, 1⟩,
    ⟨"l3_0", .l3, "h", 9790, 0, 0, 1⟩]
  dummyKey := "dummy"
  keyToNumberOfReplicas := (RealDistribution.evenPair.init "dummy" "cipher").keyToNumberOfReplicas
  counts := evenPair_counts
  replicaToLabel := (RealDistribution.evenPair.init "dummy" "cipher").replicaToLabel
  securityBatchSize := 2
  disableAllFalse := false
  updateCacheEnabled := true
  l1AckBatchSize := 1
  l2AckBatchSize := 1
  l3AckBatchSize := 1
  l1Rows := 1
  l2Rows := 2
  l3Rows := 1
  l1Workers := [1]
  l2Workers := [1, 1, 1]
  l3Workers := [1]
  l1Grid := .of_counts (by decide) (by decide) (by decide) (by decide)
  l2Grid := .of_counts (by decide) (by decide) (by decide) (by decide)
  l3Grid := .of_counts (by decide) (by decide) (by decide) (by decide)

/-- Requests for the dummy key are sent to this column. -/
def towards (column : ℕ) : L1Oracle := ⟨fun _ => column, none⟩

/-- The manager connects the acknowledgements of a column, from the L3 instance and to the L1
instance. -/
def connected (column : ℕ) : List PipelineLabel :=
  [.connectL2Acks (0, 0) column 1, .connectL1Acks ⟨column, 0, 0⟩ 0 0]

/-- A batch of a request for the dummy key and a client request. -/
def mixedBatch : PipelineLabel :=
  .client (towards 1) 0 0 ⟨{ clientId := 7 }, "a", "v"⟩
    fun i => ⟨i == 1, "b", "dummy", 0⟩

/-- The next operation for a column goes down its chain, is executed, and is acknowledged to the
L1 instance. -/
def served (column : ℕ) : List PipelineLabel :=
  [.l2Request none 0 0 ⟨column, 0, 0⟩, .l2 none column (.chain 0 (.deliver 0 1)),
    .l3Request none ⟨column, 0, 1⟩ (0, 0), .l3 none (0, 0) .serveGet, .l3 none (0, 0) .getReply,
    .l3 none (0, 0) .crypto, .l3 none (0, 0) .servePut, .l3 none (0, 0) .putReply, .l2Ack none 0,
    .l2 none column (.chain 0 (.ackDeliver 0)), .l1Ack (towards column) 0]

/-- The head of the first L2 column crashes, and the manager has the L1 instance send its pending
batch again; the request for the dummy key goes to the third column this time. -/
def headFailure : List PipelineLabel :=
  [.l2 none 0 (.crash 0), .l2 none 0 (.chain 0 (.setup 1)), .reconnect 0 0 0 1,
    .l1 (towards 2) 0 (.fetch 0), .l1 (towards 2) 0 (.resend 0)]

def recordedAcks : System (Pipeline × List AckEvent) PipelineLabel :=
  record (pipelineSystem (threeColumns.pipeline plainStore))
    (Pipeline.ackEvents (threeColumns.pipeline plainStore))

theorem batch_acked_full_mixed :
    ∃ p, Reaches recordedAcks (Pipeline.acksOnce (threeColumns.pipeline plainStore)) p ∧
      p.2 = [.received 0 0 2, .received 0 0 3, .acked 0 0 1] ∧
      .received 0 0 3 ∈ [AckEvent.received 0 0 2, .received 0 0 3] := by
  have start : recordedAcks.init (Pipeline.start (threeColumns.pipeline plainStore), []) := ⟨rfl, rfl⟩
  have reached := Reaches.of_replay (Pipeline.acksOnce (threeColumns.pipeline plainStore))
    (connected 0 ++ connected 1 ++ [mixedBatch] ++ served 1 ++ served 0) start (by decide +kernel)
  refine ⟨_, reached, by decide +kernel, ?_⟩
  exact (Pipeline.batch_acked_full reached).1 _ [] 0 0 1 (by decide +kernel) 1 (by decide +kernel)

/-- The request for the dummy key is executed by two columns; its second acknowledgement stands in
for the one of the client request, which is still waiting in the crashed column. -/
theorem duplicate_ack_completes_batch :
    ∃ p, Reaches recordedAcks (fun _ _ => True) p ∧
      p.2 = [.received 0 0 2, .received 0 0 2, .acked 0 0 1] ∧
      ((p.1.ingest.l1 0).node 0).pending.keys = [] ∧
      (p.1.ingest.link 0 0 ⟨0, 0, 1⟩).map (fun op => (op.key, op.seqId.l1SeqNo)) = [("a", 3)] := by
  have start : recordedAcks.init (Pipeline.start (threeColumns.pipeline plainStore), []) := ⟨rfl, rfl⟩
  have reached := Reaches.of_replay (fun _ _ => True)
    (connected 1 ++ connected 2 ++ [mixedBatch] ++ served 1 ++ headFailure ++ served 2) start
    (by decide +kernel)
  exact ⟨_, reached, by decide +kernel, by decide +kernel, by decide +kernel⟩

end GridDeployment
end Shortstack
