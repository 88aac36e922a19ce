import Shortstack.ChainInvariant

/-! Properties of single replicas. A property that every entry point of a replica keeps
holds on every row of a chain, however its steps are interleaved. -/
namespace Shortstack.ChainNet
open ChainModule
variable {σ μ : Type} {net : ChainNet σ}

/-- The row whose subclass state a label replaces, and the new state. -/
def touches : NetLabel σ → Option (ℕ × σ)
  | .request i u .. | .ackFrom i u _ | .touch i u => some (i, u)
  | _ => none

/-- The label leaves the subclass state of its row to the code of the subclass. -/
def keepsUser (net : ChainNet σ) (l : NetLabel σ) : Prop :=
  ∀ i u, touches l = some (i, u) → u = (net.node i).user

/-- Every entry point of a replica but `setup` keeps the property. -/
structure Kept (cb : Callbacks σ μ) (I : ChainModule σ → Prop) : Prop where
  request : ∀ env m seq args, I m → I (m.chainRequest cb env seq args).state
  ack : ∀ env m q, I m → I (m.ack cb env q).state
  resend : ∀ env m n, I m → I (m.resendPending cb env n).state
  meet : ∀ m i, I m → I (ChainNet.meet m i)

variable {cb : Callbacks σ μ}

lemma Kept.ackBatch {I : ChainModule σ → Prop} (kept : Kept cb I) (env : Env μ)
    (m : ChainModule σ) (seqs : List SequenceId) (h : I m) : I (m.ackBatch cb env seqs).state :=
  Outcome.forEach_induction (f := ChainModule.ack cb env) seqs m [] (P := fun t _ => I t)
    (fun t _ q _ ht => kept.ack env t q ht) h

lemma deposit_local {I : ℕ → ChainModule σ → Prop} {i : ℕ}
    {o : Outcome (ChainModule σ) (Send μ)} (h : ∀ j, I j (net.node j)) (state : I i o.state) :
    ∀ j, I j ((net.deposit i o).node j) := by
  intro j
  rcases eq_or_ne j i with rfl | hj
  · simpa using state
  · simpa [hj] using h j

theorem Kept.step {I : ℕ → ChainModule σ → Prop} (kept : ∀ j, Kept cb (I j))
    (h : ∀ j, I j (net.node j)) {ext : Outside μ} {l : NetLabel σ}
    (user : ∀ i u, touches l = some (i, u) → I i ((net.node i).withUser u))
    (setup : ∀ i, l = .setup i →
      I i ((net.node i).setup cb (net.survivorRole i) (net.nextSurvivor i)))
    {r : NetResult σ μ} (taken : net.step cb ext l = some r) : ∀ j, I j (r.net.node j) := by
  cases step_cases taken with
  | @request i u seq args _ _ =>
    exact deposit_local h ((kept i).request _ _ _ _ (user i u rfl))
  | @deliver i j _ _ _ _ =>
    exact deposit_local h ((kept j).request _ _ _ _ ((kept j).meet _ _ (h j)))
  | @ackDeliver _ a _ _ => exact deposit_local h ((kept a.dst).ackBatch _ _ _ (h a.dst))
  | @ackFrom i u _ _ => exact deposit_local h ((kept i).ackBatch _ _ _ (user i u rfl))
  | @touch i u _ => exact deposit_local h (user i u rfl)
  | @setup i _ => exact deposit_local h (setup i rfl)
  | @resend i _ _ _ => exact deposit_local h ((kept i).resend _ _ _ (h i))
  | crash | fetch | lose | loseAck => exact h

lemma keepsUser.withUser {l : NetLabel σ} (h : net.keepsUser l) {I : ℕ → ChainModule σ → Prop}
    (all : ∀ j, I j (net.node j)) :
    ∀ i u, touches l = some (i, u) → I i ((net.node i).withUser u) := by
  intro i u touched
  rw [h i u touched, withUser_self]
  exact all i

/-- Keeping a property that only looks at the role, the subclass state and the commands
run, from what the callbacks do to it. -/
lemma Kept.of_callbacks {J : ChainRole → σ → List ChainOp → Prop}
    (run : ∀ env role u ran (op : ChainOp), J role u ran →
      (cb.runCommand env u op.seq op.args).status = .returned →
      J role (cb.runCommand env u op.seq op.args).state (ran ++ [op]))
    (fail : ∀ env role u ran (op : ChainOp), J role u ran →
      (cb.runCommand env u op.seq op.args).status ≠ .returned →
      J role (cb.runCommand env u op.seq op.args).state ran)
    (complete : ∀ env role u ran seq args, J role u ran →
      J role (cb.replicationComplete env u seq args).state ran)
    (ack : ∀ env role role' u ran q, J role u ran →
      J role (cb.ackCallback env role' u q).state ran) :
    Kept cb fun m => J m.role m.user m.ran where
  request env m seq args h := by
    cases chainRequest_cases cb env m seq args with
    | duplicate _ result | outOfOrder _ result =>
      rw [result]
      exact h
    | failed _ status result =>
      rw [result]
      exact fail env m.role m.user m.ran ⟨m.numbered seq, args⟩ h status
    | completed _ returned _ result =>
      rw [result]
      exact complete _ _ _ _ _ _ (run env m.role m.user m.ran ⟨m.numbered seq, args⟩ h returned)
    | passed _ returned _ result =>
      rw [result]
      exact run env m.role m.user m.ran ⟨m.numbered seq, args⟩ h returned
  ack env m q h := by
    have called := ack env m.role m.role m.user m.ran q h
    unfold ChainModule.ack
    dsimp only
    refine Outcome.andThen_rule (Q := fun o : Outcome (ChainModule σ) (Send μ) =>
      J o.state.role o.state.user o.state.ran) (fun _ => called) fun _ => ?_
    split
    · exact called
    · unfold pushAck
      dsimp only
      split
      · rw [Outcome.send_state]
        exact called
      · exact called
  resend env m n h := by
    refine Outcome.forEach_induction (f := resendOne cb env) (m.pendingAfter n) m []
      (P := fun t _ => J t.role t.user t.ran) ?_ h
    intro t _ op _ ht
    unfold resendOne
    split
    · exact complete _ _ _ _ _ _ ht
    · rw [Outcome.send_state]
      exact ht
  meet m i h := by
    unfold ChainNet.meet
    split <;> exact h

/-- A property of commands that holds wherever a command is: in the lists of commands run
and on the links. -/
structure Everywhere (Q : ChainOp → Prop) (net : ChainNet σ) : Prop where
  ran : ∀ i, ∀ op ∈ (net.node i).ran, Q op
  link : ∀ i j, ∀ op ∈ net.link i j, Q op

variable {Q : ChainOp → Prop}

lemma Everywhere.deposit {net₁ : ChainNet σ} {i : ℕ} {o : Outcome (ChainModule σ) (Send μ)}
    (h : Everywhere Q net₁) (ran : ∀ op ∈ o.state.ran, Q op)
    (requests : ∀ op ∈ requestsOf o.sent, Q op) : Everywhere Q (net₁.deposit i o) := by
  refine ⟨deposit_local (I := fun _ m => ∀ op ∈ m.ran, Q op) h.ran ran, ?_⟩
  intro a b op hop
  rcases mem_deposit_link net₁ i o hop with old | ⟨_, _, new⟩
  · exact h.link a b op old
  · exact requests op new

lemma Everywhere.fewer (h : Everywhere Q net) {net' : ChainNet σ} (node : net'.node = net.node)
    (link : ∀ i j, ∀ op ∈ net'.link i j, op ∈ net.link i j) : Everywhere Q net' :=
  ⟨fun i => node ▸ h.ran i, fun i j op hop => h.link i j op (link i j op hop)⟩

lemma Everywhere.chainRequest {net₁ : ChainNet σ} (h : Everywhere Q net₁) {i : ℕ} {env : Env μ}
    {m : ChainModule σ} (ran : ∀ op ∈ m.ran, Q op) {seq : SequenceId} {args : ArgList}
    (new : Q ⟨m.numbered seq, args⟩) :
    Everywhere Q (net₁.deposit i (m.chainRequest cb env seq args)) := by
  cases chainRequest_effect cb env m seq args with
  | skipped u state requests _ =>
    exact h.deposit (by rw [state]; exact ran) (by simp [requests])
  | ran u _ state _ requests =>
    refine h.deposit ?_ ?_
    · rw [state]
      intro op hop
      rw [withUser_ran, record_ran, List.mem_append, List.mem_singleton] at hop
      rcases hop with old | rfl
      · exact ran op old
      · exact new
    · intro op hop
      rw [requests] at hop
      split_ifs at hop <;> simp_all

/-- The property does not look at the number a command has in the chain. -/
def Unnumbered (Q : ChainOp → Prop) : Prop :=
  ∀ seq args n, Q ⟨seq, args⟩ → Q ⟨{ seq with serverSeqNo := n }, args⟩

lemma Unnumbered.numbered (h : Unnumbered Q) (m : ChainModule σ) {seq : SequenceId}
    {args : ArgList} (hq : Q ⟨seq, args⟩) : Q ⟨m.numbered seq, args⟩ := by
  unfold ChainModule.numbered
  split
  · exact h seq args _ hq
  · exact hq

/-- A property of the requests of the head holds everywhere in the chain after every step. -/
theorem Everywhere.step (h : Everywhere Q net) {acked : Prop} (inv : Inv acked net)
    (free : Unnumbered Q) {ext : Outside μ} {l : NetLabel σ}
    (given : ∀ i u seq args, l = .request i u seq args → Q ⟨seq, args⟩)
    {r : NetResult σ μ} (taken : net.step cb ext l = some r) : Everywhere Q r.net := by
  have acks : ∀ (m : ChainModule σ) env seqs, (∀ op ∈ m.ran, Q op) →
      (∀ op ∈ (m.ackBatch cb env seqs).state.ran, Q op) ∧
      ∀ op ∈ requestsOf (m.ackBatch cb env seqs).sent, Q op := by
    intro m env seqs ran
    have effect := ackBatch_effect cb env m seqs (P := fun _ => True) (by simp) (by simp)
    obtain ⟨p, a, u, state⟩ := effect.frame
    exact ⟨by rw [state]; exact ran, by simp [effect.requests]⟩
  cases step_cases taken with
  | @request i u seq args _ _ =>
    exact h.chainRequest (m := (net.node i).withUser u) (h.ran i)
      (free.numbered _ (given i u seq args rfl))
  | @deliver i j op rest link _ =>
    have popped : Everywhere Q (net.setLink i j rest) := by
      refine h.fewer rfl fun a b x hx => ?_
      simp only [setLink] at hx
      split at hx
      · next at_ij =>
        rw [at_ij.1, at_ij.2, link]
        exact List.mem_cons_of_mem _ hx
      · exact hx
    refine popped.chainRequest ?_ (free.numbered _ (h.link i j op (by simp [link])))
    rw [(agrees_meet (net.node j) i).ran]
    exact h.ran j
  | @ackDeliver k a _ _ =>
    obtain ⟨ran, requests⟩ := acks (net.node a.dst) (net.env ext (net.node a.dst)) a.seqs (h.ran a.dst)
    have popped : Everywhere Q { net with acks := net.acks.eraseIdx k } :=
      h.fewer rfl fun _ _ _ hx => hx
    exact popped.deposit ran requests
  | @ackFrom i u seqs _ =>
    obtain ⟨ran, requests⟩ := acks ((net.node i).withUser u) _ seqs (h.ran i)
    exact h.deposit ran requests
  | @touch i u _ | @setup i _ => exact h.deposit (h.ran i) (by simp)
  | @resend i n _ _ =>
    obtain ⟨u, state, requests, _⟩ := resendPending_effect cb (net.env ext (net.node i)) (net.node i) n
    have cleared : Everywhere Q { net with fetched := Function.update net.fetched i none } :=
      h.fewer rfl fun _ _ _ hx => hx
    refine cleared.deposit (by rw [state]; exact h.ran i) ?_
    intro op hop
    rw [requests] at hop
    split_ifs at hop
    · simp at hop
    · exact h.ran i op (inv.pending_mem hop)
    · simp at hop
  | crash _ | fetch _ | loseAck _ => exact h.fewer rfl fun _ _ _ hx => hx
  | @lose i j kept _ sub =>
    refine h.fewer rfl fun a b x hx => ?_
    simp only [setLink] at hx
    split at hx
    · next at_ij =>
      rw [at_ij.1, at_ij.2]
      exact sub.subset hx
    · exact hx

end Shortstack.ChainNet
