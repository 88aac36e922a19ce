import Shortstack.L2ColumnSpec

/-! What the steps of an L2 worker's chain offer to the L3 tier: a tail forwards each new
command as it runs it, and all its pending commands in order when it resends. -/
namespace Shortstack
open ChainModule

namespace L2Proxy
variable {cfg : L2Config} {env : Env L2Effect}

/-- The operations for one L3 worker among the effects of a step. -/
def tags (x : ℕ × ℕ) (outs : List L2Effect) : List Tag := outs.filterMap (tagTo x)

@[simp] lemma tags_nil (x : ℕ × ℕ) : tags x [] = [] := rfl

@[simp] lemma tags_append (x : ℕ × ℕ) (a b : List L2Effect) :
    tags x (a ++ b) = tags x a ++ tags x b := List.filterMap_append

lemma tags_cons (x : ℕ × ℕ) (e : L2Effect) (outs : List L2Effect) :
    tags x (e :: outs) = (tagTo x e).toList ++ tags x outs := by
  unfold tags
  rw [List.filterMap_cons]
  cases tagTo x e <;> rfl

/-- The tag of a command of this worker. -/
def tagOf (cfg : L2Config) (op : ChainOp) : Tag := ⟨cfg.idx, op.seq.serverSeqNo, true⟩

lemma runCommand_l3Iface (s : L2State) (seq : SequenceId) (args : ArgList) :
    (runCommand cfg s seq args).state.l3Iface = s.l3Iface := by
  unfold runCommand
  repeat' split
  all_goals rfl

lemma tags_runCommand (x : ℕ × ℕ) (s : L2State) (seq : SequenceId) (args : ArgList) :
    tags x (runCommand cfg s seq args).sent = [] := by
  unfold runCommand
  repeat' split
  all_goals rfl

lemma tags_ackBatch (x : ℕ × ℕ) (m : ChainModule L2State) (seqs : List SequenceId) :
    tags x (outsOf (m.ackBatch (callbacks cfg) env seqs).sent) = [] := by
  refine List.filterMap_eq_nil_iff.mpr fun e he => ?_
  obtain ⟨batch, rfl⟩ := outs_ackBatch cfg env m seqs e he
  rfl

/-- The row is connected to the whole L3 tier if it is tail. -/
def Connected (cfg : L2Config) (m : ChainModule L2State) : Prop :=
  (m.user.l3Iface = none ∨ m.user.l3Iface = some (l3Columns cfg)) ∧
    (m.isTail = true → m.user.l3Iface = some (l3Columns cfg))

lemma connected_kept (cfg : L2Config) : ChainNet.Kept (callbacks cfg) (Connected cfg) := by
  refine ChainNet.Kept.of_callbacks (J := fun role (u : L2State) _ =>
    (u.l3Iface = none ∨ u.l3Iface = some (l3Columns cfg)) ∧
      (role.isTail = true → u.l3Iface = some (l3Columns cfg))) ?_ ?_ ?_ ?_
  · intro _ role u _ op h _
    simpa only [callbacks, runCommand_l3Iface] using h
  · intro _ role u _ op h _
    simpa only [callbacks, runCommand_l3Iface] using h
  · intro _ role u _ seq args h
    simpa only [callbacks, forwardRequest_state] using h
  · intro env role role' u _ q h
    have same : (ackCallback env role' u q).state.l3Iface = u.l3Iface := by
      unfold ackCallback
      split
      · cases u.ackIface <;> rfl
      · rfl
    simpa only [callbacks, same] using h

lemma connected_setup (cfg : L2Config) {m : ChainModule L2State} (role : ChainRole)
    (next : Option ℕ)
    (before : m.user.l3Iface = none ∨ m.user.l3Iface = some (l3Columns cfg)) :
    Connected cfg (m.setup (callbacks cfg) role next) := by
  rcases before with closed | opened
  · cases tail : role.isTail with
    | true => simp [Connected, ChainModule.setup, callbacks, setupCallback, tail, closed, l3Columns]
    | false => simp [Connected, ChainModule.setup, callbacks, setupCallback, tail, closed,
        ChainModule.isTail]
  · simp [Connected, ChainModule.setup, callbacks, setupCallback, opened]

lemma chainRequest_tags {m : ChainModule L2State} (open' : Connected cfg m)
    (up : ∀ c k l op d, env.out (.forward c k l op d) = true) (seq : SequenceId) (args : ArgList) :
    ((∀ x, tags x (outsOf (m.chainRequest (callbacks cfg) env seq args).sent) = []) ∧
      ((m.chainRequest (callbacks cfg) env seq args).state.isTail = true →
        (m.chainRequest (callbacks cfg) env seq args).state.chainSeqNo = m.chainSeqNo)) ∨
    (m.isTail = true ∧ (m.numbered seq).serverSeqNo = m.chainSeqNo + 1 ∧
      (m.chainRequest (callbacks cfg) env seq args).state.chainSeqNo = m.chainSeqNo + 1 ∧
      ⟨m.numbered seq, args⟩ ∈ (m.chainRequest (callbacks cfg) env seq args).state.ran ∧
      ∀ x, tags x (outsOf (m.chainRequest (callbacks cfg) env seq args).sent) =
        if dest cfg args = some x then [tagOf cfg ⟨m.numbered seq, args⟩] else []) := by
  cases chainRequest_cases (callbacks cfg) env m seq args with
  | duplicate _ result | outOfOrder _ result =>
    rw [result]
    exact .inl ⟨fun _ => rfl, fun _ => rfl⟩
  | failed _ _ result =>
    rw [result]
    refine .inl ⟨fun x => ?_, fun _ => rfl⟩
    rw [call_sent, outsOf_out]
    exact tags_runCommand x m.user _ _
  | completed number _ tail result =>
    rw [result]
    refine .inr ⟨tail, number, rfl, by simp, fun x => ?_⟩
    rw [outsOf_out, tags_append, show tags x ((callbacks cfg).runCommand env m.user
      (m.numbered seq) args).sent = [] from tags_runCommand x m.user _ _, List.nil_append]
    refine (forwardRequest_tags up ?_).1 x
    simp only [callbacks, runCommand_l3Iface, open'.2 tail]
  | passed _ _ notTail result =>
    rw [result]
    refine .inl ⟨fun x => ?_, fun tail => ?_⟩
    · rw [outsOf_append, outsOf_out, tags_append, show tags x ((callbacks cfg).runCommand env
        m.user (m.numbered seq) args).sent = [] from tags_runCommand x m.user _ _, List.nil_append,
        Outcome.send_sent]
      split <;> rfl
    · rw [withUser_isTail, record_isTail, notTail] at tail
      simp at tail

/-- A tail that resends offers its pending commands in order, up to the first one that has
no L3 worker. -/
lemma resend_tags {m : ChainModule L2State} (tail : m.isTail = true)
    (iface : m.user.l3Iface = some (l3Columns cfg))
    (up : ∀ c k l op d, env.out (.forward c k l op d) = true) (ops : List ChainOp) :
    ∃ pre post, ops = pre ++ post ∧
      ((Outcome.forEach (resendOne (callbacks cfg) env) ops m).status = .returned → post = []) ∧
      ∀ x, tags x (outsOf (Outcome.forEach (resendOne (callbacks cfg) env) ops m).sent) =
        (pre.filter fun op => dest cfg op.args = some x).map (tagOf cfg) := by
  induction ops with
  | nil => exact ⟨[], [], rfl, fun _ => rfl, fun _ => rfl⟩
  | cons op ops ih =>
    obtain ⟨pre, post, cut, all, sent⟩ := ih
    obtain ⟨first, returns⟩ :=
      @forwardRequest_tags cfg env m.user op.seq op.args up iface
    have one : resendOne (callbacks cfg) env m op =
        m.call (forwardRequest cfg env m.user op.seq op.args true) := by
      simp [resendOne, tail, callbacks]
    have stay : (resendOne (callbacks cfg) env m op).state = m := by
      rw [one, call_state, forwardRequest_state, withUser_self]
    have outs : ∀ x, tags x (outsOf (resendOne (callbacks cfg) env m op).sent) =
        if dest cfg op.args = some x then [tagOf cfg op] else [] := by
      intro x
      rw [one, call_sent, outsOf_out]
      exact first x
    unfold Outcome.forEach
    refine Outcome.andThen_rule (Q := fun o : Outcome (ChainModule L2State) (Send L2Effect) =>
      ∃ pre post, op :: ops = pre ++ post ∧ (o.status = .returned → post = []) ∧
        ∀ x, tags x (outsOf o.sent) =
          (pre.filter fun op => dest cfg op.args = some x).map (tagOf cfg)) ?_ ?_
    · intro stopped
      have nowhere : dest cfg op.args = none := by
        rw [one, call_status] at stopped
        simpa using fun some => stopped (returns.mpr some)
      refine ⟨[], op :: ops, rfl, fun ret => absurd ret stopped, fun x => ?_⟩
      rw [outs x, nowhere]
      rfl
    · intro _
      rw [stay]
      refine ⟨op :: pre, post, by rw [cut, List.cons_append], all, fun x => ?_⟩
      rw [outsOf_append, tags_append, outs x, sent x, List.filter_cons]
      rcases Classical.em (dest cfg op.args = some x) with hit | miss
      · simp [hit]
      · simp [miss]

end L2Proxy

namespace ChainNet
open L2Proxy

/-- The step would make its row run a new command. -/
def runsNext (net : ChainNet L2State) : NetLabel L2State → Prop
  | .request .. => True
  | .deliver j i => ∃ op ∈ (net.link j i).head?,
    ((net.node i).numbered op.seq).serverSeqNo = (net.node i).chainSeqNo + 1
  | _ => False

/-- What a step offers to the L3 tier. -/
inductive Offers (cfg : L2Config) (net : ChainNet L2State) (nl : NetLabel L2State)
    (res : NetResult L2State L2Effect) : Prop
  | quiet (outs : ∀ x, tags x res.outs = [])
      (still : ∀ i, (res.net.node i).isTail = true →
        (res.net.node i).chainSeqNo = (net.node i).chainSeqNo)
      (resent : ∀ i, nl = .resend i → (res.net.node i).isTail = false)
  | fresh (i : ℕ) (op : ChainOp) (row : nl.row net.acks = i) (alive : net.alive i = true)
      (tail : (net.node i).isTail = true) (runs : net.runsNext nl)
      (number : op.seq.serverSeqNo = (net.node i).chainSeqNo + 1)
      (count : (res.net.node i).chainSeqNo = (net.node i).chainSeqNo + 1)
      (ran : op ∈ (res.net.node i).ran) (others : ∀ j, j ≠ i → res.net.node j = net.node j)
      (outs : ∀ x, tags x res.outs = if dest cfg op.args = some x then [tagOf cfg op] else [])
  | resent (i : ℕ) (n : ℤ) (pre post : List ChainOp) (label : nl = .resend i)
      (fetched : net.fetched i = some n) (alive : net.alive i = true)
      (tail : (net.node i).isTail = true)
      (still : ∀ j, (res.net.node j).chainSeqNo = (net.node j).chainSeqNo ∧
        (res.net.node j).ran = (net.node j).ran)
      (cut : (net.node i).pendingAfter n = pre ++ post)
      (all : res.status = .returned → post = [])
      (outs : ∀ x, tags x res.outs =
        (pre.filter fun op => dest cfg op.args = some x).map (tagOf cfg))

variable {cfg : L2Config} {net : ChainNet L2State}

lemma offers_chainRequest {net₁ : ChainNet L2State} {i : ℕ} {m : ChainModule L2State}
    {nl : NetLabel L2State} {env : Env L2Effect} (node : net₁.node = net.node)
    (same : Agrees m (net.node i)) (connected : Connected cfg m)
    (up : ∀ c k l op d, env.out (.forward c k l op d) = true) (alive : net.alive i = true)
    (row : nl.row net.acks = i) (label : ∀ j, nl ≠ .resend j) (seq : SequenceId) (args : ArgList)
    (runs : (m.numbered seq).serverSeqNo = m.chainSeqNo + 1 → net.runsNext nl) :
    Offers cfg net nl (net₁.finish i (m.chainRequest (callbacks cfg) env seq args)) := by
  have others : ∀ j, j ≠ i →
      ((net₁.finish i (m.chainRequest (callbacks cfg) env seq args)).net.node j) = net.node j := by
    intro j hj
    simp [finish, hj, node]
  rcases chainRequest_tags connected up seq args with
    ⟨none, still⟩ | ⟨tail, number, count, ran, outs⟩
  · refine .quiet none (fun j hj => ?_) fun j hj => absurd hj (label j)
    rcases eq_or_ne j i with rfl | other
    · simp only [finish, deposit_node, Function.update_self] at hj ⊢
      rw [still hj, same.count]
    · rw [others j other]
  · refine .fresh i ⟨m.numbered seq, args⟩ row alive ?_ (runs number) ?_ ?_ ?_ others outs
    · rw [ChainModule.isTail, ← same.role]
      exact tail
    · exact number.trans (by rw [same.count])
    · simpa [finish, ← same.count] using count
    · simpa [finish] using ran

theorem offers_of_step {ext : Outside L2Effect} {nl : NetLabel L2State}
    {res : NetResult L2State L2Effect} (taken : net.step (callbacks cfg) ext nl = some res)
    (user : net.keepsUser nl) (connected : ∀ i, Connected cfg (net.node i))
    (up : ∀ c k l op d, ext.out (.forward c k l op d) = true) : Offers cfg net nl res := by
  have same : ∀ (net₁ : ChainNet L2State) (i : ℕ) (o : Outcome (ChainModule L2State)
      (Send L2Effect)), net₁.node = net.node → o.state.chainSeqNo = (net.node i).chainSeqNo →
      ∀ j, ((net₁.finish i o).net.node j).chainSeqNo = (net.node j).chainSeqNo := by
    intro net₁ i o node count j
    rcases eq_or_ne j i with rfl | other
    · simpa [finish] using count
    · simp [finish, other, node]
  have acked : ∀ (m : ChainModule L2State) env seqs,
      (m.ackBatch (callbacks cfg) env seqs).state.chainSeqNo = m.chainSeqNo := by
    intro m env seqs
    obtain ⟨p, a, u, state⟩ := (ackBatch_effect (callbacks cfg) env m seqs (P := fun _ => True)
      (by simp) (by simp)).frame
    rw [state]
  cases step_cases taken with
  | @request i u seq args alive head =>
    obtain rfl := user i u rfl
    exact offers_chainRequest rfl .rfl (connected i) up alive rfl (by simp) seq args
      fun _ => trivial
  | @deliver i j op rest link alive =>
    refine @offers_chainRequest cfg net (net.setLink i j rest) j (meet (net.node j) i)
      (.deliver i j) (net.env ext (meet (net.node j) i)) rfl (agrees_meet _ i) ?_ up alive rfl (by simp) op.seq op.args
      fun number => ⟨op, by simp [link], ?_⟩
    · exact (connected_kept cfg).meet _ i (connected j)
    · rw [← (agrees_meet (net.node j) i).numbered, ← (agrees_meet (net.node j) i).count]
      exact number
  | @ackDeliver k a found alive =>
    exact .quiet (fun x => tags_ackBatch x _ _) (fun j _ => same _ _ _ rfl (acked ..) j) (by simp)
  | @ackFrom i u seqs alive =>
    obtain rfl := user i u rfl
    exact .quiet (fun x => tags_ackBatch x _ _) (fun j _ => same _ _ _ rfl (acked ..) j) (by simp)
  | @touch i u alive => exact .quiet (fun _ => rfl) (fun j _ => same _ _ _ rfl rfl j) (by simp)
  | @setup i alive => exact .quiet (fun _ => rfl) (fun j _ => same _ _ _ rfl rfl j) (by simp)
  | crash _ | fetch _ | lose _ _ | loseAck _ =>
    exact .quiet (fun _ => rfl) (fun _ _ => rfl) (by simp)
  | @resend i n fetched alive =>
    obtain ⟨u, state, _, _⟩ :=
      resendPending_effect (callbacks cfg) (net.env ext (net.node i)) (net.node i) n
    cases tail : (net.node i).isTail with
    | true =>
      obtain ⟨pre, post, cut, all, outs⟩ :=
        @resend_tags cfg (net.env ext (net.node i)) (net.node i) tail ((connected i).2 tail) up
          ((net.node i).pendingAfter n)
      refine .resent i n pre post rfl fetched alive tail (fun j => ?_) cut all outs
      rcases eq_or_ne j i with rfl | other
      · simp [finish, state]
      · simp [finish, other]
    | false =>
      refine .quiet (fun x => ?_) (fun j _ => same _ _ _ rfl (by rw [state]; rfl) j) ?_
      · exact congrArg (tags x) (outs_resend_of_not_tail _ _ _ tail _)
      · rintro j ⟨⟩
        simp [finish, state, tail]

end ChainNet
end Shortstack
