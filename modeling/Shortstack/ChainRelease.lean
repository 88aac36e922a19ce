import Shortstack.ChainInvariant

/-! What is known of a command that has left a pending map. If every acknowledgement
that enters the chain from outside is for a number with some property, then every
acknowledgement inside the chain is, and so is every command no longer pending. -/
namespace Shortstack.ChainNet
open ChainModule
variable {σ μ : Type} {P : ℤ → Prop} {net : ChainNet σ}

structure Released (P : ℤ → Prop) (net : ChainNet σ) : Prop where
  pending : ∀ i, net.alive i = true → ∀ op ∈ (net.node i).ran,
    (net.node i).pending.lookup op.seq.serverSeqNo = none → P op.seq.serverSeqNo
  queue : ∀ i, net.alive i = true → ∀ q ∈ (net.node i).ackQueue, P q.serverSeqNo
  acks : ∀ a ∈ net.acks, ∀ q ∈ a.seqs, P q.serverSeqNo

lemma Released.mono {Q : ℤ → Prop} (h : Released P net) (imp : ∀ k, P k → Q k) :
    Released Q net :=
  ⟨fun i hi op hop none => imp _ (h.pending i hi op hop none),
    fun i hi q hq => imp _ (h.queue i hi q hq), fun a ha q hq => imp _ (h.acks a ha q hq)⟩

lemma Released.deposit (h : Released P net) {i : ℕ} {net₁ : ChainNet σ}
    {o : Outcome (ChainModule σ) (Send μ)} (node : net₁.node = net.node)
    (alive : net₁.alive = net.alive) (fewer : ∀ a ∈ net₁.acks, a ∈ net.acks)
    (pending : ∀ op ∈ o.state.ran, o.state.pending.lookup op.seq.serverSeqNo = none →
      P op.seq.serverSeqNo)
    (queue : ∀ q ∈ o.state.ackQueue, P q.serverSeqNo)
    (acks : ∀ b ∈ acksOf o.sent, ∀ q ∈ b, P q.serverSeqNo) : Released P (net₁.deposit i o) := by
  have self : (net₁.deposit i o).node i = o.state := by simp
  have others : ∀ j, j ≠ i → (net₁.deposit i o).node j = net.node j := fun j hj => by
    simp [hj, node]
  refine ⟨?_, ?_, ?_⟩
  · intro j hj
    rw [deposit_alive, alive] at hj
    rcases eq_or_ne j i with rfl | hji
    · rw [self]
      exact pending
    · rw [others j hji]
      exact h.pending j hj
  · intro j hj
    rw [deposit_alive, alive] at hj
    rcases eq_or_ne j i with rfl | hji
    · rw [self]
      exact queue
    · rw [others j hji]
      exact h.queue j hj
  · intro a ha
    rcases mem_deposit_acks net₁ i o ha with old | new
    · exact h.acks a (fewer a old)
    · exact acks _ new

lemma Released.fewer (h : Released P net) {net' : ChainNet σ} (node : net'.node = net.node)
    (alive : ∀ i, net'.alive i = true → net.alive i = true)
    (acks : ∀ a ∈ net'.acks, a ∈ net.acks) : Released P net' :=
  ⟨fun i hi => node ▸ h.pending i (alive i hi), fun i hi => node ▸ h.queue i (alive i hi),
    fun a ha => h.acks a (acks a ha)⟩

lemma Released.fail (h : Released P net) (i : ℕ) : Released P (net.fail i) := by
  refine h.fewer rfl (fun j hj => ?_) fun _ ha => ha
  rcases eq_or_ne j i with rfl | hji
  · simp [ChainNet.fail] at hj
  · simpa [ChainNet.fail, hji] using hj

lemma Released.chainRequest (h : Released P net) {acked : Prop} (inv : Inv acked net)
    (cb : Callbacks σ μ) (env : Env μ) {i : ℕ} {net₁ : ChainNet σ} (node : net₁.node = net.node)
    (alive : net₁.alive = net.alive) (fewer : ∀ a ∈ net₁.acks, a ∈ net.acks)
    (hi : net.alive i = true) {m : ChainModule σ} (same : Agrees m (net.node i))
    (seq : SequenceId) (args : ArgList) :
    Released P (net₁.deposit i (m.chainRequest cb env seq args)) := by
  cases chainRequest_effect cb env m seq args with
  | skipped u state _ acks =>
    refine h.deposit node alive fewer ?_ ?_ (by simp [acks])
    · rw [state, withUser_ran, withUser_pending, same.ran, same.pending]
      exact h.pending i hi
    · rw [state, withUser_ackQueue, same.queue]
      exact h.queue i hi
  | ran u number state acks _ =>
    refine h.deposit node alive fewer ?_ ?_ (by simp [acks])
    · intro op hop none
      rw [state, withUser_pending, lookup_addPending (same.nodeInv (inv.node i)) number] at none
      split at none
      · simp at none
      · next other =>
        rw [state, withUser_ran, record_ran, List.mem_append, List.mem_singleton] at hop
        rcases hop with old | rfl
        · exact h.pending i hi op (same.ran ▸ old) (same.pending ▸ none)
        · exact absurd rfl other
    · rw [state, withUser_ackQueue, record_ackQueue, same.queue]
      exact h.queue i hi

lemma Released.ackBatch (h : Released P net) (cb : Callbacks σ μ) (env : Env μ) {i : ℕ}
    {net₁ : ChainNet σ} (node : net₁.node = net.node) (alive : net₁.alive = net.alive)
    (fewer : ∀ a ∈ net₁.acks, a ∈ net.acks) (hi : net.alive i = true) (u : σ)
    {seqs : List SequenceId} (ok : ∀ q ∈ seqs, P q.serverSeqNo) :
    Released P (net₁.deposit i (((net.node i).withUser u).ackBatch cb env seqs)) := by
  have effect := ackBatch_effect cb env ((net.node i).withUser u) seqs
    (P := fun q => P q.serverSeqNo) (h.queue i hi) ok
  obtain ⟨p, a, v, state⟩ := effect.frame
  refine h.deposit node alive fewer ?_ effect.queue effect.acks
  intro op hop none
  have ran : op ∈ (net.node i).ran := by
    rw [state] at hop
    exact hop
  rcases effect.pending op.seq.serverSeqNo with same | ⟨_, q, hq, number⟩
  · exact h.pending i hi op ran (same ▸ none)
  · exact number ▸ ok q hq

theorem Released.step (h : Released P net) {acked : Prop} (inv : Inv acked net)
    (cb : Callbacks σ μ) (ext : Outside μ) (l : NetLabel σ)
    (given : ∀ i u seqs, l = .ackFrom i u seqs → ∀ q ∈ seqs, P q.serverSeqNo)
    {r : NetResult σ μ} (taken : net.step cb ext l = some r) : Released P r.net := by
  cases step_cases taken with
  | @request i user seq args hi _ =>
    exact h.chainRequest inv cb _ rfl rfl (fun _ ha => ha) hi (agrees_withUser _ user) seq args
  | @deliver i j op rest hlink hj =>
    have popped : Released P (net.setLink i j rest) := h.fewer rfl (fun _ hi => hi) fun _ ha => ha
    exact popped.chainRequest (inv.popLink hlink) cb _ rfl rfl (fun _ ha => ha) hj
      (agrees_meet _ i) _ _
  | @ackDeliver k a ha hlive =>
    have popped : Released P { net with acks := net.acks.eraseIdx k } :=
      h.fewer rfl (fun _ hi => hi) fun x hx => List.mem_of_mem_eraseIdx hx
    exact popped.ackBatch cb _ rfl rfl (fun _ hx => hx) hlive (net.node a.dst).user
      (h.acks a (List.mem_of_getElem? ha))
  | @ackFrom i user seqs hi =>
    exact h.ackBatch cb _ rfl rfl (fun _ ha => ha) hi user (given i user seqs rfl)
  | @touch i _ hi | @setup i hi =>
    exact h.deposit rfl rfl (fun _ ha => ha) (h.pending i hi) (h.queue i hi) (by simp)
  | @crash i _ => exact h.fail i
  | @resend i n _ hi =>
    obtain ⟨u, state, _, acks⟩ :=
      resendPending_effect cb (net.env ext (net.node i)) (net.node i) n
    refine h.deposit rfl rfl (fun _ ha => ha) ?_ ?_ (by simp [acks])
    · rw [state]
      exact h.pending i hi
    · rw [state]
      exact h.queue i hi
  | fetch _ | lose _ _ => exact h.fewer rfl (fun _ hi => hi) fun _ ha => ha
  | loseAck _ => exact h.fewer rfl (fun _ hi => hi) fun x hx => List.mem_of_mem_eraseIdx hx

lemma Released.start (cb : Callbacks σ μ) (rows : ℕ) (user : ℕ → σ) (ackBatchSize : ℕ → ℤ) :
    Released P (ChainNet.start cb rows user ackBatchSize) :=
  ⟨by simp [ChainNet.start, ChainModule.setup], by simp [ChainNet.start, ChainModule.setup],
    by simp [ChainNet.start]⟩

end Shortstack.ChainNet
