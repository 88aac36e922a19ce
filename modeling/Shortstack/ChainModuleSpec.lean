import Shortstack.ChainModule

/-! What one call can do to a replica, stated once for each entry point of
`chain_module`; the network proofs use these and never unfold the calls. -/
namespace Shortstack

lemma seenAt_set {seen : List ℤ} {idx old value : ℤ} (found : seenAt seen idx = some old)
    (other : ℤ) : seenAt (seen.set idx.toNat value) other =
      if other = idx then some value else seenAt seen other := by
  unfold seenAt at found ⊢
  split at found
  · simp at found
  · next pos =>
    have inside := (List.getElem?_eq_some_iff.mp found).1
    split_ifs with neg same same
    · omega
    · rfl
    · subst same
      simp [inside]
    · have : other.toNat ≠ idx.toNat := by omega
      simp [List.getElem?_set_ne this.symm]

section Sends
variable {μ : Type}

@[simp] lemma requestsOf_nil : requestsOf ([] : List (Send μ)) = [] := rfl
@[simp] lemma acksOf_nil : acksOf ([] : List (Send μ)) = [] := rfl
@[simp] lemma outsOf_nil : outsOf ([] : List (Send μ)) = [] := rfl

@[simp] lemma requestsOf_append (a b : List (Send μ)) :
    requestsOf (a ++ b) = requestsOf a ++ requestsOf b := List.filterMap_append
@[simp] lemma acksOf_append (a b : List (Send μ)) :
    acksOf (a ++ b) = acksOf a ++ acksOf b := List.filterMap_append
@[simp] lemma outsOf_append (a b : List (Send μ)) :
    outsOf (a ++ b) = outsOf a ++ outsOf b := List.filterMap_append

section Cons
variable (op : ChainOp) (b : List SequenceId) (m : μ) (sent : List (Send μ))

@[simp] lemma requestsOf_request : requestsOf (.request op :: sent) = op :: requestsOf sent := rfl
@[simp] lemma acksOf_request : acksOf (.request op :: sent) = acksOf sent := rfl
@[simp] lemma outsOf_request : outsOf (.request op :: sent) = outsOf sent := rfl
@[simp] lemma requestsOf_ackBatch : requestsOf (.ackBatch b :: sent) = requestsOf sent := rfl
@[simp] lemma acksOf_ackBatch : acksOf (.ackBatch b :: sent) = b :: acksOf sent := rfl
@[simp] lemma outsOf_ackBatch : outsOf (.ackBatch b :: sent) = outsOf sent := rfl
@[simp] lemma outsOf_cons : outsOf (.out m :: sent) = m :: outsOf sent := rfl

end Cons

@[simp] lemma requestsOf_out (ms : List μ) : requestsOf (ms.map Send.out) = [] := by
  induction ms with
  | nil => rfl
  | cons m ms _ => simp [requestsOf]

@[simp] lemma acksOf_out (ms : List μ) : acksOf (ms.map Send.out) = [] := by
  induction ms with
  | nil => rfl
  | cons m ms _ => simp [acksOf]

@[simp] lemma outsOf_out (ms : List μ) : outsOf (ms.map Send.out) = ms := by
  induction ms with
  | nil => rfl
  | cons m ms _ => simp [outsOf]

end Sends

namespace ChainModule
variable {σ μ : Type}

section Frame
variable (m : ChainModule σ) (u : σ) (op : ChainOp)

@[simp] lemma withUser_user : (m.withUser u).user = u := rfl
@[simp] lemma withUser_role : (m.withUser u).role = m.role := rfl
@[simp] lemma withUser_chainSeqNo : (m.withUser u).chainSeqNo = m.chainSeqNo := rfl
@[simp] lemma withUser_next : (m.withUser u).next = m.next := rfl
@[simp] lemma withUser_prev : (m.withUser u).prev = m.prev := rfl
@[simp] lemma withUser_pending : (m.withUser u).pending = m.pending := rfl
@[simp] lemma withUser_ackQueue : (m.withUser u).ackQueue = m.ackQueue := rfl
@[simp] lemma withUser_ran : (m.withUser u).ran = m.ran := rfl
@[simp] lemma withUser_isHead : (m.withUser u).isHead = m.isHead := rfl
@[simp] lemma withUser_isTail : (m.withUser u).isTail = m.isTail := rfl
@[simp] lemma withUser_withUser (v : σ) : (m.withUser u).withUser v = m.withUser v := rfl
@[simp] lemma withUser_self : m.withUser m.user = m := rfl

@[simp] lemma record_user : (m.record op).user = m.user := rfl
@[simp] lemma record_role : (m.record op).role = m.role := rfl
@[simp] lemma record_chainSeqNo : (m.record op).chainSeqNo = m.chainSeqNo + 1 := rfl
@[simp] lemma record_next : (m.record op).next = m.next := rfl
@[simp] lemma record_prev : (m.record op).prev = m.prev := rfl
@[simp] lemma record_pending : (m.record op).pending = m.addPending op := rfl
@[simp] lemma record_ackQueue : (m.record op).ackQueue = m.ackQueue := rfl
@[simp] lemma record_ran : (m.record op).ran = m.ran ++ [op] := rfl
@[simp] lemma record_isHead : (m.record op).isHead = m.isHead := rfl
@[simp] lemma record_isTail : (m.record op).isTail = m.isTail := rfl
@[simp] lemma record_withUser : (m.withUser u).record op = (m.record op).withUser u := rfl

@[simp] lemma call_state (o : Outcome σ μ) : (m.call o).state = m.withUser o.state := rfl
@[simp] lemma call_sent (o : Outcome σ μ) : (m.call o).sent = o.sent.map .out := rfl
@[simp] lemma call_status (o : Outcome σ μ) : (m.call o).status = o.status := rfl

end Frame

variable (cb : Callbacks σ μ) (env : Env μ) (m : ChainModule σ)

lemma numbered_of_head {m : ChainModule σ} (h : m.isHead = true) (seq : SequenceId) :
    m.numbered seq = { seq with serverSeqNo := m.chainSeqNo + 1 } := by simp [numbered, h]

lemma numbered_of_not_head {m : ChainModule σ} (h : m.isHead = false) (seq : SequenceId) :
    m.numbered seq = seq := by simp [numbered, h]

/-- Everything a chain request can do: it is a duplicate, out of order, fails in
`run_command`, or runs the next command and then completes it at the tail or passes it on. -/
inductive RequestCase (op : ChainOp) (run complete : Outcome σ μ)
    (o : Outcome (ChainModule σ) (Send μ)) : Prop
  | duplicate (old : op.seq.serverSeqNo ≤ m.chainSeqNo) (result : o = .drop m)
  | outOfOrder (late : m.chainSeqNo + 1 < op.seq.serverSeqNo)
      (result : o = .raise m "Received out of order chain_request")
  | failed (number : op.seq.serverSeqNo = m.chainSeqNo + 1) (status : run.status ≠ .returned)
      (result : o = m.call run)
  | completed (number : op.seq.serverSeqNo = m.chainSeqNo + 1) (returned : run.status = .returned)
      (tail : m.isTail = true)
      (result : o = ⟨(m.record op).withUser complete.state, (run.sent ++ complete.sent).map .out,
        complete.status⟩)
  | passed (number : op.seq.serverSeqNo = m.chainSeqNo + 1) (returned : run.status = .returned)
      (notTail : m.isTail = false)
      (result : o = ⟨(m.record op).withUser run.state,
        run.sent.map .out ++ (Outcome.send env.up m (.request op)).sent,
        (Outcome.send env.up m (.request op)).status⟩)

theorem chainRequest_cases (seq : SequenceId) (args : ArgList) :
    RequestCase env m ⟨m.numbered seq, args⟩ (cb.runCommand env m.user (m.numbered seq) args)
      (cb.replicationComplete env (cb.runCommand env m.user (m.numbered seq) args).state
        (m.numbered seq) args)
      (m.chainRequest cb env seq args) := by
  unfold chainRequest
  dsimp only
  rcases le_or_gt (m.numbered seq).serverSeqNo m.chainSeqNo with old | new
  · exact .duplicate old (if_pos old)
  rw [if_neg (by omega)]
  rcases lt_or_ge (m.chainSeqNo + 1) (m.numbered seq).serverSeqNo with late | next
  · exact .outOfOrder late (if_pos late)
  rw [if_neg (by omega)]
  have number : (m.numbered seq).serverSeqNo = m.chainSeqNo + 1 := by omega
  refine Outcome.andThen_rule (fun status => .failed number status rfl) fun returned => ?_
  cases tail : m.isTail with
  | true => exact .completed number returned tail (by simp [tail])
  | false =>
    refine .passed number returned tail ?_
    cases up : env.next <;> simp [tail, Outcome.send, Env.up, up]

/-- A chain request that is dropped, refused or fails leaves everything but the subclass
state alone; otherwise it runs exactly the next command, records it, and offers it to the
next replica. -/
inductive RequestEffect (op : ChainOp) (o : Outcome (ChainModule σ) (Send μ)) : Prop
  | skipped (u : σ) (state : o.state = m.withUser u)
      (requests : requestsOf o.sent = []) (acks : acksOf o.sent = [])
  | ran (u : σ) (number : op.seq.serverSeqNo = m.chainSeqNo + 1)
      (state : o.state = (m.record op).withUser u) (acks : acksOf o.sent = [])
      (requests : requestsOf o.sent =
        if m.isTail then [] else if env.next then [op] else [])

theorem chainRequest_effect (seq : SequenceId) (args : ArgList) :
    RequestEffect env m ⟨m.numbered seq, args⟩ (m.chainRequest cb env seq args) := by
  cases chainRequest_cases cb env m seq args with
  | duplicate _ result | outOfOrder _ result =>
    rw [result]
    exact .skipped m.user rfl rfl rfl
  | failed _ _ result =>
    rw [result]
    exact .skipped _ (call_state ..) (by simp) (by simp)
  | completed number _ tail result =>
    rw [result]
    exact .ran _ number rfl (by simp) (by simp [tail])
  | passed number _ notTail result =>
    rw [result]
    refine .ran _ number rfl ?_ ?_
    · cases up : env.next <;> simp [Outcome.send_sent, Env.up, up]
    · cases up : env.next <;> simp [notTail, Outcome.send_sent, Env.up, up]

lemma resend_of_tail (ops : List ChainOp) (tail : m.isTail = true) :
    ∃ u, (Outcome.forEach (resendOne cb env) ops m).state = m.withUser u ∧
      requestsOf (Outcome.forEach (resendOne cb env) ops m).sent = [] ∧
      acksOf (Outcome.forEach (resendOne cb env) ops m).sent = [] := by
  have loop := Outcome.forEach_induction (f := resendOne cb env) ops m []
    (P := fun t sent => ∃ u, t = m.withUser u ∧ requestsOf sent = [] ∧ acksOf sent = [])
    (by
      rintro _ sent op _ ⟨u, rfl, hr, ha⟩
      exact ⟨_, by simp [resendOne, tail]; rfl, by simp [resendOne, tail, hr],
        by simp [resendOne, tail, ha]⟩)
    ⟨m.user, rfl, rfl, rfl⟩
  simpa using loop

lemma resend_of_not_tail (ops : List ChainOp) (tail : m.isTail = false) :
    (Outcome.forEach (resendOne cb env) ops m).state = m ∧
      requestsOf (Outcome.forEach (resendOne cb env) ops m).sent =
        (if env.next then ops else []) ∧
      acksOf (Outcome.forEach (resendOne cb env) ops m).sent = [] := by
  induction ops with
  | nil => simp [Outcome.forEach]
  | cons op ops ih =>
    unfold Outcome.forEach
    refine Outcome.andThen_rule (Q := fun o => o.state = m ∧ requestsOf o.sent =
      (if env.next then op :: ops else []) ∧ acksOf o.sent = []) ?_ ?_
    · intro stopped
      cases up : env.next <;> simp_all [resendOne, Outcome.send, Env.up]
    · intro ret
      have stay : (resendOne cb env m op).state = m := by simp [resendOne, tail]
      cases up : env.next <;> simp_all [resendOne, Outcome.send, Env.up]

lemma outs_resend_of_not_tail (tail : m.isTail = false) (ops : List ChainOp) :
    outsOf (Outcome.forEach (resendOne cb env) ops m).sent = [] := by
  have loop := Outcome.forEach_induction (f := resendOne cb env) ops m []
    (P := fun t sent => t.isTail = false ∧ outsOf sent = []) ?_ ⟨tail, rfl⟩
  · simpa using loop.2
  rintro t sent op _ ⟨notTail, none⟩
  simp only [resendOne, notTail, Bool.false_eq_true, if_false, Outcome.send_state,
    Outcome.send_sent, outsOf_append, none, List.nil_append, true_and]
  split <;> rfl

theorem resendPending_effect (n : ℤ) :
    ∃ u, (m.resendPending cb env n).state = m.withUser u ∧
      requestsOf (m.resendPending cb env n).sent =
        (if m.isTail then [] else if env.next then m.pendingAfter n else []) ∧
      acksOf (m.resendPending cb env n).sent = [] := by
  unfold resendPending
  cases tail : m.isTail with
  | true => simpa using resend_of_tail cb env m (m.pendingAfter n) tail
  | false =>
    obtain ⟨hs, hr, ha⟩ := resend_of_not_tail cb env m (m.pendingAfter n) tail
    exact ⟨m.user, by simpa using hs, by simpa using hr, ha⟩

/-- Acknowledging touches the pending map, the ack queue and the subclass state only:
the pending entries that leave are among those acknowledged, and every acknowledgement
kept or passed on is an old one or a given one. -/
structure AckEffect (seqs : List SequenceId) (P : SequenceId → Prop) (t : ChainModule σ)
    (sent : List (Send μ)) : Prop where
  frame : ∃ p a u, t = { m with pending := p, ackQueue := a, user := u }
  pending : ∀ k, t.pending.lookup k = m.pending.lookup k ∨
    t.pending.lookup k = none ∧ ∃ q ∈ seqs, q.serverSeqNo = k
  queue : ∀ q ∈ t.ackQueue, P q
  requests : requestsOf sent = []
  acks : ∀ b ∈ acksOf sent, ∀ q ∈ b, P q

variable {cb env m} {seqs : List SequenceId} {P : SequenceId → Prop}

lemma AckEffect.call {t : ChainModule σ} {sent : List (Send μ)} (h : AckEffect m seqs P t sent)
    (o : Outcome σ μ) : AckEffect m seqs P (t.call o).state (sent ++ (t.call o).sent) where
  frame := by
    obtain ⟨p, a, u, rfl⟩ := h.frame
    exact ⟨p, a, o.state, rfl⟩
  pending := h.pending
  queue := h.queue
  requests := by simp [h.requests]
  acks := by simpa using h.acks

lemma AckEffect.remove {t : ChainModule σ} {sent : List (Send μ)} (h : AckEffect m seqs P t sent)
    {q : SequenceId} (hq : q ∈ seqs) :
    AckEffect m seqs P { t with pending := t.removePending q } sent where
  frame := by
    obtain ⟨p, a, u, rfl⟩ := h.frame
    exact ⟨_, a, u, rfl⟩
  pending := by
    intro k
    by_cases hk : k = q.serverSeqNo
    · subst hk
      exact .inr ⟨AList.lookup_erase _ _, q, hq, rfl⟩
    · simpa only [removePending, AList.lookup_erase_ne hk] using h.pending k
  queue := h.queue
  requests := h.requests
  acks := h.acks

lemma AckEffect.pushAck {t : ChainModule σ} {sent : List (Send μ)}
    (h : AckEffect m seqs P t sent) {q : SequenceId} (hq : P q) :
    AckEffect m seqs P (t.pushAck env q).state (sent ++ (t.pushAck env q).sent) := by
  obtain ⟨p, a, u, ht⟩ := h.frame
  have queue : ∀ q' ∈ t.ackQueue ++ [q], P q' := by
    intro q' hq'
    rcases List.mem_append.mp hq' with old | new
    · exact h.queue q' old
    · exact (List.mem_singleton.mp new) ▸ hq
  unfold ChainModule.pushAck
  dsimp only
  split
  · refine ⟨⟨p, [], u, by rw [Outcome.send_state, ht]⟩, ?_, by simp, ?_, ?_⟩
    · rw [Outcome.send_state]
      exact h.pending
    · rw [Outcome.send_sent, requestsOf_append, h.requests]
      split <;> rfl
    · intro b hb
      rw [Outcome.send_sent, acksOf_append, List.mem_append] at hb
      rcases hb with hb | hb
      · exact h.acks b hb
      · split at hb
        · simp only [acksOf_ackBatch, acksOf_nil, List.mem_singleton] at hb
          exact hb ▸ queue
        · simp at hb
  · exact ⟨⟨p, t.ackQueue ++ [q], u, by rw [Outcome.done_state, ht]⟩, h.pending, queue,
      by simpa using h.requests, by simpa using h.acks⟩

lemma AckEffect.withUser {t : ChainModule σ} {sent : List (Send μ)} (h : AckEffect m seqs P t sent)
    (u : σ) : AckEffect m seqs P (t.withUser u) sent where
  frame := by
    obtain ⟨p, a, v, rfl⟩ := h.frame
    exact ⟨p, a, u, rfl⟩
  pending := h.pending
  queue := h.queue
  requests := h.requests
  acks := h.acks

lemma AckEffect.ack {t : ChainModule σ} {sent : List (Send μ)} (h : AckEffect m seqs P t sent)
    {q : SequenceId} (hq : q ∈ seqs) (ok : P q) :
    AckEffect m seqs P (t.ack cb env q).state (sent ++ (t.ack cb env q).sent) := by
  unfold ChainModule.ack
  dsimp only
  have called := (h.remove hq).call (cb.ackCallback env t.role t.user q)
  refine Outcome.andThen_rule
    (Q := fun o => AckEffect m seqs P o.state (sent ++ o.sent)) (fun _ => called) fun _ => ?_
  split
  · simpa using called
  · simpa only [List.append_assoc] using called.pushAck ok

lemma AckEffect.start (queued : ∀ q ∈ m.ackQueue, P q) :
    AckEffect m seqs P m ([] : List (Send μ)) :=
  ⟨⟨m.pending, m.ackQueue, m.user, rfl⟩, fun _ => .inl rfl, queued, rfl, by simp⟩

theorem ackBatch_effect (cb : Callbacks σ μ) (env : Env μ) (m : ChainModule σ)
    (seqs : List SequenceId) (queued : ∀ q ∈ m.ackQueue, P q) (given : ∀ q ∈ seqs, P q) :
    AckEffect m seqs P (m.ackBatch cb env seqs).state (m.ackBatch cb env seqs).sent := by
  suffices AckEffect m seqs P (m.ackBatch cb env seqs).state
      ([] ++ (m.ackBatch cb env seqs).sent) by simpa using this
  refine Outcome.forEach_induction seqs m [] (P := AckEffect m seqs P) ?_ (.start queued)
  intro t sent q hq h
  exact h.ack hq (given q hq)

end ChainModule
end Shortstack
