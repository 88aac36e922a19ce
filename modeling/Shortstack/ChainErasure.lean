import Shortstack.ChainLocal

/-! Two replication chains that look alike. An erasure forgets a part of the subclass state, of
the commands and of the messages that leave the chain. If the callbacks act alike on states and
commands that look alike, then so do the chains. -/
namespace Shortstack
open ChainModule

/-- What is left of the subclass state, of a command and of a message for the outside. The
number of a command is kept apart. -/
structure Erasure (σ μ α β ν : Type) where
  user : σ → α
  op : ChainOp → β
  out : μ → Option ν
  free : ∀ seq args n, op ⟨{ seq with serverSeqNo := n }, args⟩ = op ⟨seq, args⟩

namespace Erasure
variable {σ μ α β ν : Type} (E : Erasure σ μ α β ν)

def command (op : ChainOp) : ℤ × β := (op.seq.serverSeqNo, E.op op)

structure SameModule (m m' : ChainModule σ) : Prop where
  role : m.role = m'.role
  count : m.chainSeqNo = m'.chainSeqNo
  next : m.next = m'.next
  user : E.user m.user = E.user m'.user

/-- Two calls of the subclass. -/
structure SameCall (o o' : Outcome σ μ) : Prop where
  user : E.user o.state = E.user o'.state
  outs : o.sent.filterMap E.out = o'.sent.filterMap E.out
  status : o.status = .returned ↔ o'.status = .returned

/-- Two calls of the replica. -/
structure SameOutcome (o o' : Outcome (ChainModule σ) (Send μ)) : Prop where
  module : E.SameModule o.state o'.state
  requests : (requestsOf o.sent).map E.command = (requestsOf o'.sent).map E.command
  outs : (outsOf o.sent).filterMap E.out = (outsOf o'.sent).filterMap E.out

structure Respects (cb cb' : Callbacks σ μ) (env env' : Env μ) : Prop where
  run : ∀ u u' op op', E.user u = E.user u' → E.command op = E.command op' →
    E.SameCall (cb.runCommand env u op.seq op.args) (cb'.runCommand env' u' op'.seq op'.args)
  complete : ∀ u u' op op', E.user u = E.user u' → E.command op = E.command op' →
    E.SameCall (cb.replicationComplete env u op.seq op.args)
      (cb'.replicationComplete env' u' op'.seq op'.args)

/-- Acknowledgements change nothing that is left. -/
def Deaf (cb : Callbacks σ μ) : Prop := ∀ env role u q,
  E.user (cb.ackCallback env role u q).state = E.user u ∧
    (cb.ackCallback env role u q).sent.filterMap E.out = []

structure SameNet (net net' : ChainNet σ) : Prop where
  alive : net.alive = net'.alive
  node : ∀ i, E.SameModule (net.node i) (net'.node i)
  link : ∀ i j, (net.link i j).map E.command = (net'.link i j).map E.command

variable {E} {m m' : ChainModule σ} {cb cb' : Callbacks σ μ} {env env' : Env μ}

lemma SameModule.rfl' (m : ChainModule σ) : E.SameModule m m := ⟨rfl, rfl, rfl, rfl⟩

lemma SameModule.symm (h : E.SameModule m m') : E.SameModule m' m :=
  ⟨h.role.symm, h.count.symm, h.next.symm, h.user.symm⟩

lemma SameModule.trans {m'' : ChainModule σ} (h : E.SameModule m m') (h' : E.SameModule m' m'') :
    E.SameModule m m'' :=
  ⟨h.role.trans h'.role, h.count.trans h'.count, h.next.trans h'.next, h.user.trans h'.user⟩

lemma SameModule.isHead (h : E.SameModule m m') : m.isHead = m'.isHead := by
  rw [ChainModule.isHead, h.role]
  rfl

lemma SameModule.isTail (h : E.SameModule m m') : m.isTail = m'.isTail := by
  rw [ChainModule.isTail, h.role]
  rfl

lemma SameModule.withUser (h : E.SameModule m m') {u u' : σ} (user : E.user u = E.user u') :
    E.SameModule (m.withUser u) (m'.withUser u') := ⟨h.role, h.count, h.next, user⟩

lemma SameModule.record (h : E.SameModule m m') (op op' : ChainOp) {u u' : σ}
    (user : E.user u = E.user u') :
    E.SameModule ((m.record op).withUser u) ((m'.record op').withUser u') :=
  ⟨h.role, congrArg (· + 1) h.count, h.next, user⟩

lemma SameCall.send {up up' : μ → Bool} {u u' : σ} {e e' : μ} (user : E.user u = E.user u')
    (reach : up e = up' e') (same : E.out e = E.out e') :
    E.SameCall (Outcome.send up u e) (Outcome.send up' u' e') := by
  unfold Outcome.send
  rw [reach]
  split
  · exact ⟨user, by simp only [List.filterMap_cons, same], by simp⟩
  · exact ⟨user, rfl, by simp⟩

lemma SameModule.numbered (h : E.SameModule m m') {seq seq' : SequenceId} {args args' : ArgList}
    (number : m.isHead = false → seq.serverSeqNo = seq'.serverSeqNo)
    (same : E.op ⟨seq, args⟩ = E.op ⟨seq', args'⟩) :
    E.command ⟨m.numbered seq, args⟩ = E.command ⟨m'.numbered seq', args'⟩ := by
  have heads := h.isHead
  cases head : m.isHead with
  | true =>
    rw [head] at heads
    rw [numbered_of_head head, numbered_of_head heads.symm]
    simp only [command, E.free, same, h.count]
  | false =>
    rw [head] at heads
    rw [numbered_of_not_head head, numbered_of_not_head heads.symm]
    simp only [command, same, number head]

theorem Respects.chainRequest (respects : E.Respects cb cb' env env') (h : E.SameModule m m')
    (next : env.next = env'.next) {seq seq' : SequenceId} {args args' : ArgList}
    (number : m.isHead = false → seq.serverSeqNo = seq'.serverSeqNo)
    (same : E.op ⟨seq, args⟩ = E.op ⟨seq', args'⟩) :
    E.SameOutcome (m.chainRequest cb env seq args) (m'.chainRequest cb' env' seq' args') := by
  have command := h.numbered number same
  have numbers : (m.numbered seq).serverSeqNo = (m'.numbered seq').serverSeqNo :=
    congrArg Prod.fst command
  have count := h.count
  have run := respects.run m.user m'.user _ _ h.user command
  have complete := respects.complete _ _ _ _ run.user command
  cases chainRequest_cases cb env m seq args with
  | duplicate old result =>
    cases chainRequest_cases cb' env' m' seq' args' with
    | duplicate _ result' =>
      rw [result, result']
      exact ⟨h, rfl, rfl⟩
    | outOfOrder _ _ | failed _ _ _ | completed _ _ _ _ | passed _ _ _ _ => dsimp only at *; omega
  | outOfOrder late result =>
    cases chainRequest_cases cb' env' m' seq' args' with
    | outOfOrder _ result' =>
      rw [result, result']
      exact ⟨h, rfl, rfl⟩
    | duplicate _ _ | failed _ _ _ | completed _ _ _ _ | passed _ _ _ _ => dsimp only at *; omega
  | failed n status result =>
    cases chainRequest_cases cb' env' m' seq' args' with
    | duplicate _ _ | outOfOrder _ _ => dsimp only at *; omega
    | failed _ _ result' =>
      rw [result, result']
      exact ⟨h.withUser run.user, by simp, by simpa using run.outs⟩
    | completed _ returned' _ _ | passed _ returned' _ _ => exact absurd (run.status.mpr returned') status
  | completed n returned tail result =>
    cases chainRequest_cases cb' env' m' seq' args' with
    | duplicate _ _ | outOfOrder _ _ => dsimp only at *; omega
    | failed _ status' _ => exact absurd (run.status.mp returned) status'
    | completed _ _ _ result' =>
      rw [result, result']
      refine ⟨h.record _ _ complete.user, by simp, ?_⟩
      simp only [outsOf_out, List.filterMap_append, run.outs, complete.outs]
    | passed _ _ notTail _ =>
      rw [← h.isTail, tail] at notTail
      exact absurd notTail (by simp)
  | passed n returned notTail result =>
    cases chainRequest_cases cb' env' m' seq' args' with
    | duplicate _ _ | outOfOrder _ _ => dsimp only at *; omega
    | failed _ status' _ => exact absurd (run.status.mp returned) status'
    | completed _ _ tail' _ =>
      rw [← h.isTail, notTail] at tail'
      exact absurd tail' (by simp)
    | passed _ _ _ result' =>
      rw [result, result']
      refine ⟨h.record _ _ run.user, ?_, ?_⟩
      · cases up : env.next <;> simp [Outcome.send_sent, Env.up, up, ← next, command]
      · cases up : env.next <;> simp [Outcome.send_sent, Env.up, up, ← next, run.outs]

lemma Deaf.ack (deaf : E.Deaf cb) (env : Env μ) (m : ChainModule σ) (q : SequenceId) :
    E.SameModule m (m.ack cb env q).state ∧ requestsOf (m.ack cb env q).sent = [] ∧
      (outsOf (m.ack cb env q).sent).filterMap E.out = [] := by
  obtain ⟨user, silent⟩ := deaf env m.role m.user q
  unfold ChainModule.ack
  dsimp only
  refine Outcome.andThen_rule (Q := fun o : Outcome (ChainModule σ) (Send μ) =>
    E.SameModule m o.state ∧ requestsOf o.sent = [] ∧ (outsOf o.sent).filterMap E.out = [])
    (fun _ => ⟨⟨rfl, rfl, rfl, user.symm⟩, by simp, by simpa using silent⟩) fun _ => ?_
  split
  · exact ⟨⟨rfl, rfl, rfl, user.symm⟩, by simp, by simpa using silent⟩
  · unfold pushAck
    dsimp only
    split
    · refine ⟨?_, ?_, ?_⟩
      · rw [Outcome.send_state]
        exact ⟨rfl, rfl, rfl, user.symm⟩
      · rw [Outcome.send_sent]
        split <;> simp
      · rw [Outcome.send_sent]
        split <;> simpa using silent
    · exact ⟨⟨rfl, rfl, rfl, user.symm⟩, by simp, by simpa using silent⟩

lemma Deaf.ackBatch (deaf : E.Deaf cb) (env : Env μ) (m : ChainModule σ) (seqs : List SequenceId) :
    E.SameModule m (m.ackBatch cb env seqs).state ∧ requestsOf (m.ackBatch cb env seqs).sent = [] ∧
      (outsOf (m.ackBatch cb env seqs).sent).filterMap E.out = [] := by
  have loop := Outcome.forEach_induction (f := ChainModule.ack cb env) seqs m [] (P := fun t sent =>
    E.SameModule m t ∧ requestsOf sent = [] ∧ (outsOf sent).filterMap E.out = []) ?_
    ⟨.rfl' m, rfl, rfl⟩
  · rw [List.nil_append] at loop
    exact loop
  rintro t sent q _ ⟨same, requests, outs⟩
  obtain ⟨same', requests', outs'⟩ := deaf.ack env t q
  exact ⟨same.trans same', by simp [requests, requests'], by simp [outs, outs']⟩

variable {net net' : ChainNet σ}

lemma SameNet.deposit (h : E.SameNet net net') {i : ℕ}
    {o o' : Outcome (ChainModule σ) (Send μ)} (same : E.SameOutcome o o') :
    E.SameNet (net.deposit i o) (net'.deposit i o') where
  alive := h.alive
  node j := by
    rcases eq_or_ne j i with rfl | other
    · simpa using same.module
    · simpa [other] using h.node j
  link a b := by
    simp only [ChainNet.deposit, same.module.next]
    split
    · rw [List.map_append, List.map_append, h.link, same.requests]
    · exact h.link a b

lemma SameNet.deposit_left (h : E.SameNet net net') {i : ℕ}
    {o : Outcome (ChainModule σ) (Send μ)} (same : E.SameModule (net.node i) o.state)
    (silent : requestsOf o.sent = []) : E.SameNet (net.deposit i o) net' where
  alive := h.alive
  node j := by
    rcases eq_or_ne j i with rfl | other
    · simpa using same.symm.trans (h.node j)
    · simpa [other] using h.node j
  link a b := by
    simp only [ChainNet.deposit, silent, List.append_nil, ite_self]
    exact h.link a b

lemma SameNet.rfl' (net : ChainNet σ) : E.SameNet net net := ⟨rfl, fun _ => .rfl' _, fun _ _ => rfl⟩

lemma SameNet.trans {net'' : ChainNet σ} (h : E.SameNet net net') (h' : E.SameNet net' net'') :
    E.SameNet net net'' :=
  ⟨h.alive.trans h'.alive, fun i => (h.node i).trans (h'.node i),
    fun i j => (h.link i j).trans (h'.link i j)⟩

lemma SameNet.symm (h : E.SameNet net net') : E.SameNet net' net :=
  ⟨h.alive.symm, fun i => (h.node i).symm, fun i j => (h.link i j).symm⟩

lemma SameNet.fewerAcks (h : E.SameNet net net') (acks : List AckMessage) :
    E.SameNet { net with acks := acks } net' := ⟨h.alive, h.node, h.link⟩

lemma SameNet.pop (h : E.SameNet net net') {i j : ℕ} {op op' : ChainOp} {rest rest' : List ChainOp}
    (link : net.link i j = op :: rest) (link' : net'.link i j = op' :: rest') :
    E.command op = E.command op' ∧ E.SameNet (net.setLink i j rest) (net'.setLink i j rest') := by
  have both := h.link i j
  rw [link, link', List.map_cons, List.map_cons, List.cons.injEq] at both
  refine ⟨both.1, h.alive, h.node, fun a b => ?_⟩
  simp only [ChainNet.setLink]
  split
  · exact both.2
  · exact h.link a b

lemma SameNet.up (h : E.SameNet net net') (same : E.SameModule m m') (ext ext' : Outside μ) :
    (net.env ext m).next = (net'.env ext' m').next := by
  simp only [ChainNet.env, same.next]
  unfold ChainNet.up
  rw [h.alive]

lemma SameModule.meet (h : E.SameModule m m') (i : ℕ) :
    E.SameModule (ChainNet.meet m i) (ChainNet.meet m' i) := by
  have one : ∀ m : ChainModule σ, E.SameModule (ChainNet.meet m i) m := by
    intro m
    unfold ChainNet.meet
    split <;> exact ⟨rfl, rfl, rfl, rfl⟩
  exact (one m).trans (h.trans (one m').symm)

theorem SameNet.step (h : E.SameNet net net') {ext ext' : Outside μ} {nl : NetLabel σ}
    {r r' : NetResult σ μ}
    (respects : ∀ m m', E.Respects cb cb' (net.env ext m) (net'.env ext' m'))
    (deaf : E.Deaf cb) (deaf' : E.Deaf cb') (internal : nl.internal = true)
    (steady : nl.steady = true) (taken : net.step cb ext nl = some r)
    (taken' : net'.step cb' ext' nl = some r') :
    E.SameNet r.net r'.net ∧ r.outs.filterMap E.out = r'.outs.filterMap E.out ∧
      (nl.row net.acks = nl.row net'.acks ∨ r.outs.filterMap E.out = []) := by
  cases nl with
  | deliver i j =>
    cases ChainNet.step_cases taken with
    | @deliver _ _ op rest link _ =>
      cases ChainNet.step_cases taken' with
      | @deliver _ _ op' rest' link' _ =>
        obtain ⟨command, popped⟩ := h.pop link link'
        have met := (h.node j).meet i
        have handled := (respects _ _).chainRequest met (h.up met ext ext')
          (fun _ => congrArg Prod.fst command) (congrArg Prod.snd command)
        exact ⟨popped.deposit handled, handled.outs, .inl rfl⟩
  | ackDeliver k =>
    cases ChainNet.step_cases taken with
    | @ackDeliver _ a _ _ =>
      cases ChainNet.step_cases taken' with
      | @ackDeliver _ a' _ _ =>
        obtain ⟨same, requests, outs⟩ := deaf.ackBatch (net.env ext (net.node a.dst))
          (net.node a.dst) a.seqs
        obtain ⟨same', requests', outs'⟩ := deaf'.ackBatch (net'.env ext' (net'.node a'.dst))
          (net'.node a'.dst) a'.seqs
        have left := (h.fewerAcks (net.acks.eraseIdx k)).deposit_left same requests
        have right := (left.symm.fewerAcks (net'.acks.eraseIdx k)).deposit_left same' requests'
        exact ⟨right.symm, outs.trans outs'.symm, .inr outs⟩
  | request | ackFrom => simp [NetLabel.internal] at internal
  | touch | crash | setup | fetch | resend | lose | loseAck => simp [NetLabel.steady] at steady

end Erasure
end Shortstack
