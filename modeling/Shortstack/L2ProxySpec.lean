import Shortstack.ChainFlow
import Shortstack.L2Column

/-! What the callbacks of an L2 worker do, stated once: which commands it can run, what
it does to the shared cache, and what an acknowledgement may send. -/
namespace Shortstack.L2Proxy
open ChainModule
variable (cfg : L2Config)

def Fits (args : ArgList) : Prop := ∃ op rest, L2Operation.deserialize args = .ok (op, rest)

/-- A command can be run if its L1 number is new for its L1 worker. -/
def Runs (seen : List ℤ) (op : ChainOp) : Prop :=
  ∃ last, seenAt seen op.seq.l1Idx = some last ∧ last < op.seq.l1SeqNo

/-- The entry a command puts into the cache, if it carries a value. -/
def cached (op : ChainOp) : Option (String × CacheEntry) :=
  match L2Operation.deserialize op.args with
  | .error _ => none
  | .ok (o, _) =>
    if cfg.updateCacheEnabled && o.value != "" then
      some (o.key, ⟨o.value, List.replicate (numberOfReplicas cfg o.key).toNat true⟩)
    else none

lemma runCommand_of_runs {s : L2State} {op : ChainOp} (fits : Fits op.args)
    (runs : Runs s.lastSeenSeq op) :
    ∃ o rest, L2Operation.deserialize op.args = .ok (o, rest) ∧
      runCommand cfg s op.seq op.args =
        ⟨{ s with lastSeenSeq := s.lastSeenSeq.set op.seq.l1Idx.toNat op.seq.l1SeqNo },
          if cfg.updateCacheEnabled && o.value != "" then
            [.populate o.key o.value (numberOfReplicas cfg o.key)] else [], .returned⟩ := by
  obtain ⟨o, rest, parsed⟩ := fits
  obtain ⟨last, found, newer⟩ := runs
  refine ⟨o, rest, parsed, ?_⟩
  simp only [runCommand, found, not_le.mpr newer, if_false, parsed]
  split <;> rfl

lemma runCommand_of_not_runs {s : L2State} {op : ChainOp} (no : ¬ Runs s.lastSeenSeq op) :
    ∃ e, runCommand cfg s op.seq op.args = .raise s e := by
  unfold runCommand
  cases found : seenAt s.lastSeenSeq op.seq.l1Idx with
  | none => exact ⟨_, rfl⟩
  | some last =>
    have old : op.seq.l1SeqNo ≤ last := by
      by_contra newer
      exact no ⟨last, found, not_le.mp newer⟩
    exact ⟨_, if_pos old⟩

lemma runCommand_sent (s : L2State) (seq : SequenceId) (args : ArgList) :
    ∀ e ∈ (runCommand cfg s seq args).sent, ∃ key value n, e = .populate key value n := by
  unfold runCommand
  split
  · simp
  · split
    · simp
    · dsimp only
      split
      · simp
      · split
        · simp
        · simp

lemma forwardRequest_state (env : Env L2Effect) (s : L2State) (seq : SequenceId) (args : ArgList)
    (dedup : Bool) : (forwardRequest cfg env s seq args dedup).state = s := by
  unfold forwardRequest
  repeat' split
  all_goals first | rfl | simp

lemma forwardRequest_sent (env : Env L2Effect) (s : L2State) (seq : SequenceId) (args : ArgList)
    (dedup : Bool) : ∀ e ∈ (forwardRequest cfg env s seq args dedup).sent,
      ∃ column worker label op, e = .forward column worker label op dedup := by
  unfold forwardRequest
  repeat' split
  all_goals try simp only [Outcome.raise_sent, Outcome.done_sent, List.not_mem_nil, false_implies,
    implies_true]
  intro e he
  rw [Outcome.send_sent] at he
  split at he
  · exact ⟨_, _, _, _, List.mem_singleton.mp he⟩
  · simp at he

lemma ackCallback_lastSeenSeq (env : Env L2Effect) (role : ChainRole) (s : L2State)
    (seq : SequenceId) : (ackCallback env role s seq).state.lastSeenSeq = s.lastSeenSeq := by
  unfold ackCallback
  split
  · cases s.ackIface <;> rfl
  · rfl

lemma ackCallback_sent (env : Env L2Effect) (role : ChainRole) (s : L2State) (seq : SequenceId) :
    ∀ e ∈ (ackCallback env role s seq).sent, ∃ batch, e = .ackL1 batch := by
  unfold ackCallback
  split
  · cases s.ackIface with
    | none => simp
    | some rc =>
      intro e he
      obtain ⟨batch, _, rfl⟩ := List.mem_map.mp he
      exact ⟨batch, rfl⟩
  · simp

/-- Whether an L2 worker can run a command depends only on the L1 numbers it has run. -/
def replayable : Replayable (callbacks cfg) (List ℤ) where
  view := L2State.lastSeenSeq
  fits := Fits
  ok := Runs
  upd seen op := seen.set op.seq.l1Idx.toNat op.seq.l1SeqNo
  run_returned _ u op fits ok := by
    obtain ⟨_, _, _, result⟩ := runCommand_of_runs cfg fits ok
    simp only [callbacks, result]
  run_view _ u op fits ok := by
    obtain ⟨_, _, _, result⟩ := runCommand_of_runs cfg fits ok
    simp only [callbacks, result]
  refused _ u op fits no := by
    obtain ⟨e, result⟩ := runCommand_of_not_runs cfg no
    simp [callbacks, result]
  complete _ _ _ _ := by simp [callbacks, forwardRequest_state]
  ack _ _ _ _ := ackCallback_lastSeenSeq ..

lemma fits_serialize (op : L2Operation) : Fits op.serialize := by
  have parsed := @L2Operation.deserialize_serialize op [] (by simp [L2Operation.NoField])
  rw [List.append_nil] at parsed
  exact ⟨_, _, parsed⟩

/-- The sequence number of an operation as the head of an L2 chain passes it on. -/
def timed (clock : Option Int64) (seq : SequenceId) : SequenceId :=
  match clock with
  | some now => { seq with ts := some now }
  | none => seq

@[simp] lemma timed_l1Idx (clock : Option Int64) (seq : SequenceId) :
    (timed clock seq).l1Idx = seq.l1Idx := by cases clock <;> rfl

@[simp] lemma timed_l1SeqNo (clock : Option Int64) (seq : SequenceId) :
    (timed clock seq).l1SeqNo = seq.l1SeqNo := by cases clock <;> rfl

lemma numbered_l1Idx (m : ChainModule L2State) (seq : SequenceId) :
    (m.numbered seq).l1Idx = seq.l1Idx := by
  unfold ChainModule.numbered
  split <;> rfl

lemma numbered_l1SeqNo (m : ChainModule L2State) (seq : SequenceId) :
    (m.numbered seq).l1SeqNo = seq.l1SeqNo := by
  unfold ChainModule.numbered
  split <;> rfl

/-- The chain arguments of an operation. -/
def argsOf (clock : Option Int64) (op : L2Operation) : ArgList :=
  { op with seqId := timed clock op.seqId }.serialize

/-- A direct request is refused and leaves no trace, or is new and becomes a chain request
of the head. -/
theorem asyncOperation_cases (env : Env L2Effect) (m : ChainModule L2State) (op : L2Operation) :
    ((asyncOperation cfg env m op).state = m ∧ (asyncOperation cfg env m op).sent = []) ∨
    (m.isHead = true ∧ op.key ∈ cfg.keyToNumberOfReplicas ∧
      Runs m.user.lastSeenSeq ⟨m.numbered (timed env.clock op.seqId), argsOf env.clock op⟩ ∧
      asyncOperation cfg env m op =
        m.chainRequest (callbacks cfg) env (timed env.clock op.seqId) (argsOf env.clock op)) := by
  unfold asyncOperation
  cases found : seenAt m.user.lastSeenSeq op.seqId.l1Idx with
  | none => exact .inl ⟨rfl, rfl⟩
  | some last =>
    dsimp only
    rcases le_or_gt op.seqId.l1SeqNo last with old | new
    · rw [if_pos old]
      exact .inl ⟨rfl, rfl⟩
    rw [if_neg (not_le.mpr new)]
    cases head : m.isHead with
    | false => exact .inl ⟨rfl, rfl⟩
    | true =>
      rcases Classical.em (op.key ∈ cfg.keyToNumberOfReplicas) with known | unknown
      · refine .inr ⟨rfl, known, ⟨last, ?_, ?_⟩, ?_⟩
        · rw [numbered_l1Idx, timed_l1Idx, found]
        · rw [numbered_l1SeqNo, timed_l1SeqNo]
          exact new
        · simp only [Bool.not_true, Bool.false_eq_true, if_false, if_pos known]
          rfl
      · simp only [Bool.not_true, Bool.false_eq_true, if_false, if_neg unknown]
        exact .inl ⟨rfl, rfl⟩

/-- A direct request in a chain without failures: refused, or run by the first row. -/
theorem flow_asyncOperation {net : ChainNet L2State} {seen : List ℤ} {i : ℕ}
    (h : ChainNet.Flow (replayable cfg) seen net) (ext : Outside L2Effect)
    (alive : net.alive i = true) (op : L2Operation) :
    ChainNet.Flow (replayable cfg) seen
      (net.deposit i (asyncOperation cfg (net.env ext (net.node i)) (net.node i) op)) ∧
    ((asyncOperation cfg (net.env ext (net.node i)) (net.node i) op).state = net.node i ∧
        (asyncOperation cfg (net.env ext (net.node i)) (net.node i) op).sent = [] ∨
      i = 0 ∧ op.key ∈ cfg.keyToNumberOfReplicas ∧
        Runs (net.node i).user.lastSeenSeq
          ⟨(net.node i).numbered (timed ext.clock op.seqId), argsOf ext.clock op⟩ ∧
        ChainNet.Advanced (callbacks cfg) (net.env ext (net.node i)) (net.node i)
          ⟨(net.node i).numbered (timed ext.clock op.seqId), argsOf ext.clock op⟩
          (asyncOperation cfg (net.env ext (net.node i)) (net.node i) op)) := by
  rcases asyncOperation_cases cfg (net.env ext (net.node i)) (net.node i) op with
    ⟨state, sent⟩ | ⟨head, known, runs, accepted⟩
  · refine ⟨?_, .inl ⟨state, sent⟩⟩
    exact h.quiet (by rw [state]) (by rw [state]) (by rw [state]; exact h.node i)
      (by rw [state]) (by rw [state]) (by simp [sent])
  · obtain rfl := (h.isHead_iff alive).mp head
    rw [accepted]
    obtain ⟨flow, ⟨no, _⟩ | ⟨_, adv⟩⟩ := h.request ext alive .rfl rfl
      (timed ext.clock op.seqId) (fits_serialize { op with seqId := timed ext.clock op.seqId })
    · exact absurd runs no
    · exact ⟨flow, .inr ⟨rfl, known, runs, adv⟩⟩

lemma outs_ackBatch (env : Env L2Effect) (m : ChainModule L2State) (seqs : List SequenceId) :
    ∀ e ∈ outsOf (m.ackBatch (callbacks cfg) env seqs).sent, ∃ batch, e = .ackL1 batch := by
  have loop := Outcome.forEach_induction (f := ChainModule.ack (callbacks cfg) env) seqs m []
    (P := fun _ sent => ∀ e ∈ outsOf sent, ∃ batch, e = L2Effect.ackL1 batch) ?_ (by simp)
  · rw [List.nil_append] at loop
    exact loop
  intro t sent q _ ht
  unfold ChainModule.ack
  dsimp only
  have called : ∀ e ∈ outsOf (sent ++ (({ t with pending := t.removePending q } :
      ChainModule L2State).call ((callbacks cfg).ackCallback env t.role t.user q)).sent),
      ∃ batch, e = L2Effect.ackL1 batch := by
    intro e he
    rw [outsOf_append, call_sent, outsOf_out, List.mem_append] at he
    rcases he with old | new
    · exact ht e old
    · exact ackCallback_sent env t.role t.user q e new
  refine Outcome.andThen_rule (Q := fun o : Outcome (ChainModule L2State) (Send L2Effect) =>
    ∀ e ∈ outsOf (sent ++ o.sent), ∃ batch, e = L2Effect.ackL1 batch) (fun _ => called) fun _ => ?_
  split
  · simpa using called
  · unfold pushAck
    dsimp only
    split
    · rw [Outcome.send_sent]
      split
      · simpa using called
      · simpa using called
    · simpa using called

lemma ackBatch_l3Iface (env : Env L2Effect) (m : ChainModule L2State) (seqs : List SequenceId) :
    (m.ackBatch (callbacks cfg) env seqs).state.user.l3Iface = m.user.l3Iface := by
  refine ChainNet.ackBatch_keeps (f := L2State.l3Iface) (fun env role u q => ?_) env m seqs
  dsimp only [callbacks, ackCallback]
  split
  · cases u.ackIface <;> rfl
  · rfl

lemma outs_resendPending (env : Env L2Effect) (m : ChainModule L2State) (n : ℤ) :
    ∀ e ∈ outsOf (m.resendPending (callbacks cfg) env n).sent,
      ∃ column worker label op, e = .forward column worker label op true := by
  have loop := Outcome.forEach_induction (f := resendOne (callbacks cfg) env) (m.pendingAfter n) m []
    (P := fun _ sent => ∀ e ∈ outsOf sent,
      ∃ column worker label op, e = L2Effect.forward column worker label op true) ?_ (by simp)
  · rw [List.nil_append] at loop
    exact loop
  intro t sent op _ before e he
  rw [outsOf_append, List.mem_append] at he
  rcases he with old | new
  · exact before e old
  unfold resendOne at new
  split at new
  · rw [call_sent, outsOf_out] at new
    exact forwardRequest_sent cfg _ _ _ _ _ e new
  · rw [Outcome.send_sent] at new
    split at new <;> simp at new

end Shortstack.L2Proxy
