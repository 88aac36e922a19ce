import Shortstack.ChainInvariant

/-! The replication chain while no replica fails. If every replica decides alike
whether a command can be run, each link holds exactly the commands its two ends
differ by, and a command delivered is never a duplicate, never out of order and
never refused by `run_command`. -/
namespace Shortstack
variable {σ μ : Type}

/-- A subclass whose `run_command` depends only on a view of its state that the commands
run so far determine, and whose other callbacks leave that view alone. -/
structure Replayable (cb : Callbacks σ μ) (V : Type) where
  view : σ → V
  fits : ArgList → Prop
  ok : V → ChainOp → Prop
  upd : V → ChainOp → V
  run_returned : ∀ env u op, fits op.args → ok (view u) op →
    (cb.runCommand env u op.seq op.args).status = .returned
  run_view : ∀ env u op, fits op.args → ok (view u) op →
    view (cb.runCommand env u op.seq op.args).state = upd (view u) op
  refused : ∀ env u op, fits op.args → ¬ ok (view u) op →
    (cb.runCommand env u op.seq op.args).status ≠ .returned ∧
      view (cb.runCommand env u op.seq op.args).state = view u
  complete : ∀ env u seq args, view (cb.replicationComplete env u seq args).state = view u
  ack : ∀ env role u seq, view (cb.ackCallback env role u seq).state = view u

namespace ChainNet
open ChainModule
variable {cb : Callbacks σ μ} {V : Type} {R : Replayable cb V} {v₀ : V} {net : ChainNet σ}

/-- The invariant of a chain without failures. -/
structure Flow (R : Replayable cb V) (v₀ : V) (net : ChainNet σ) : Prop where
  alive : ∀ i, net.alive i = decide (i < net.rows)
  role : ∀ i, (net.node i).role = initRole net.rows i
  next : ∀ i, (net.node i).next = initNext net.rows i
  node : ∀ i, NodeInv (net.node i)
  link : ∀ i, i + 1 < net.rows → (net.node i).ran = (net.node (i + 1)).ran ++ net.link i (i + 1)
  other : ∀ i j, j ≠ i + 1 → net.link i j = []
  view : ∀ i, R.view (net.node i).user = (net.node i).ran.foldl R.upd v₀
  valid : ∀ i pre op post, (net.node i).ran = pre ++ op :: post →
    R.fits op.args ∧ R.ok (pre.foldl R.upd v₀) op

lemma initRole_isHead_iff {rows i : ℕ} (hi : i < rows) :
    (initRole rows i).isHead = true ↔ i = 0 := by
  constructor
  · intro h
    exact initRole_isHead h hi
  · rintro rfl
    unfold initRole
    split_ifs <;> first | rfl | omega

lemma initRole_isTail_iff {rows i : ℕ} (hi : i < rows) :
    (initRole rows i).isTail = true ↔ i + 1 = rows := by
  constructor
  · intro h
    exact initRole_isTail h hi
  · intro h
    unfold initRole
    split_ifs <;> first | rfl | omega

lemma Flow.isHead_iff (h : Flow R v₀ net) {i : ℕ} (hi : net.alive i = true) :
    (net.node i).isHead = true ↔ i = 0 := by
  rw [ChainModule.isHead, h.role]
  exact initRole_isHead_iff (by simpa [h.alive] using hi)

lemma Flow.isTail_iff (h : Flow R v₀ net) {i : ℕ} (hi : net.alive i = true) :
    (net.node i).isTail = true ↔ i + 1 = net.rows := by
  rw [ChainModule.isTail, h.role]
  exact initRole_isTail_iff (by simpa [h.alive] using hi)

lemma Flow.up_next (h : Flow R v₀ net) {i : ℕ} (hi : net.alive i = true)
    (notTail : (net.node i).isTail = false) : net.up (net.node i).next = true := by
  have hlt : i < net.rows := by simpa [h.alive] using hi
  have hne : i + 1 ≠ net.rows := fun h' => by
    rw [(h.isTail_iff hi).mpr h'] at notTail
    simp at notTail
  rw [h.next, initNext, if_pos (by omega)]
  simp only [up, h.alive, decide_eq_true_eq]
  omega

lemma Flow.quiet (h : Flow R v₀ net) {i : ℕ} {o : Outcome (ChainModule σ) (Send μ)}
    (role : o.state.role = (net.node i).role) (next : o.state.next = (net.node i).next)
    (node : NodeInv o.state) (ran : o.state.ran = (net.node i).ran)
    (view : R.view o.state.user = R.view (net.node i).user) (requests : requestsOf o.sent = []) :
    Flow R v₀ (net.deposit i o) := by
  have same : ∀ j, ((net.deposit i o).node j).role = (net.node j).role ∧
      ((net.deposit i o).node j).next = (net.node j).next ∧
      ((net.deposit i o).node j).ran = (net.node j).ran ∧
      R.view ((net.deposit i o).node j).user = R.view (net.node j).user ∧
      NodeInv ((net.deposit i o).node j) := by
    intro j
    rcases eq_or_ne j i with rfl | hj
    · simpa using ⟨role, next, ran, view, node⟩
    · simpa [hj] using h.node j
  have links : (net.deposit i o).link = net.link := by
    funext a b
    simp [deposit, requests]
  refine ⟨h.alive, ?_, ?_, ?_, ?_, ?_, ?_, ?_⟩
  · exact fun j => (same j).1.trans (h.role j)
  · exact fun j => (same j).2.1.trans (h.next j)
  · exact fun j => (same j).2.2.2.2
  · intro j hj
    rw [(same j).2.2.1, (same (j + 1)).2.2.1, links]
    exact h.link j hj
  · rw [links]
    exact h.other
  · intro j
    rw [(same j).2.2.1, (same j).2.2.2.1]
    exact h.view j
  · intro j
    rw [(same j).2.2.1]
    exact h.valid j

/-- Running the next command on row `i`, taken from the link before it if there is one. -/
lemma Flow.advance (h : Flow R v₀ net) {i : ℕ} {net₁ : ChainNet σ} {op : ChainOp}
    {o : Outcome (ChainModule σ) (Send μ)} (hi : net.alive i = true)
    (source : i = 0 ∧ net₁ = net ∨
      ∃ j rest, i = j + 1 ∧ net.link j i = op :: rest ∧ net₁ = net.setLink j i rest)
    (role : o.state.role = (net.node i).role) (next : o.state.next = (net.node i).next)
    (node : NodeInv o.state) (ran : o.state.ran = (net.node i).ran ++ [op])
    (view : R.view o.state.user = R.upd (R.view (net.node i).user) op)
    (fits : R.fits op.args) (ok : R.ok (R.view (net.node i).user) op)
    (requests : requestsOf o.sent = if (net.node i).isTail then [] else [op]) :
    Flow R v₀ (net₁.deposit i o) := by
  have node₁ : net₁.node = net.node := by
    rcases source with ⟨_, rfl⟩ | ⟨j, rest, _, _, rfl⟩ <;> rfl
  have alive₁ : net₁.alive = net.alive := by
    rcases source with ⟨_, rfl⟩ | ⟨j, rest, _, _, rfl⟩ <;> rfl
  have rows₁ : net₁.rows = net.rows := by
    rcases source with ⟨_, rfl⟩ | ⟨j, rest, _, _, rfl⟩ <;> rfl
  have self : (net₁.deposit i o).node i = o.state := by simp
  have others : ∀ j, j ≠ i → (net₁.deposit i o).node j = net.node j := by
    intro j hj
    simp [hj, node₁]
  have hlt : i < net.rows := by simpa [h.alive] using hi
  refine ⟨?_, ?_, ?_, ?_, ?_, ?_, ?_, ?_⟩
  · intro j
    rw [deposit_alive, deposit_rows, alive₁, rows₁]
    exact h.alive j
  · intro j
    rw [deposit_rows, rows₁]
    rcases eq_or_ne j i with rfl | hj
    · rw [self, role, h.role]
    · rw [others j hj, h.role]
  · intro j
    rw [deposit_rows, rows₁]
    rcases eq_or_ne j i with rfl | hj
    · rw [self, next, h.next]
    · rw [others j hj, h.next]
  · intro j
    rcases eq_or_ne j i with rfl | hj
    · exact self ▸ node
    · exact others j hj ▸ h.node j
  · intro j hj
    rw [deposit_rows, rows₁] at hj
    have old := h.link j hj
    rcases eq_or_ne j i with rfl | hji
    · have notTail : (net.node j).isTail = false := by
        rw [Bool.eq_false_iff]
        intro tail
        have := (h.isTail_iff hi).mp tail
        omega
      have here : (net₁.deposit j o).link j (j + 1) = net.link j (j + 1) ++ [op] := by
        have untouched : net₁.link j (j + 1) = net.link j (j + 1) := by
          rcases source with ⟨_, rfl⟩ | ⟨a, rest, ha, _, rfl⟩
          · rfl
          · simp only [setLink]
            rw [if_neg (by omega)]
        have succ : o.state.next = some (j + 1) := by
          rw [next, h.next, initNext, if_pos hj]
        simp only [deposit, succ, true_and, if_true]
        rw [untouched, requests, notTail]
        rfl
      rw [self, others (j + 1) (by omega), here, ran, old, List.append_assoc]
    · have untouched : (net₁.deposit i o).link j (j + 1) = net₁.link j (j + 1) := by
        simp [deposit, hji]
      rw [others j hji, untouched]
      rcases eq_or_ne (j + 1) i with rfl | hjs
      · rcases source with ⟨zero, _⟩ | ⟨a, rest, ha, popped, rfl⟩
        · omega
        · obtain rfl : j = a := by omega
          rw [self, ran, old, popped]
          simp [setLink]
      · rw [others (j + 1) hjs, old]
        congr 1
        rcases source with ⟨_, rfl⟩ | ⟨a, rest, ha, _, rfl⟩
        · rfl
        · simp only [setLink]
          rw [if_neg (by omega)]
  · intro a b hab
    have empty : net₁.link a b = [] := by
      rcases source with ⟨_, rfl⟩ | ⟨j, rest, hj, _, rfl⟩
      · exact h.other a b hab
      · simp only [setLink]
        rw [if_neg (by omega)]
        exact h.other a b hab
    simp only [deposit]
    split
    · next hc =>
      obtain ⟨rfl, hn⟩ := hc
      rw [next, h.next, initNext, Option.ite_none_right_eq_some, Option.some.injEq] at hn
      omega
    · exact empty
  · intro j
    rcases eq_or_ne j i with rfl | hj
    · rw [self, view, ran, h.view, List.foldl_append]
      rfl
    · rw [others j hj, h.view]
  · intro j pre x post hsplit
    rcases eq_or_ne j i with rfl | hj
    · rw [self, ran] at hsplit
      rcases List.eq_nil_or_concat post with rfl | ⟨post', y, rfl⟩
      · obtain ⟨hpre, hx⟩ := List.append_inj' hsplit rfl
        obtain rfl : op = x := by simpa using hx
        rw [← hpre, ← h.view]
        exact ⟨fits, ok⟩
      · have shape : (net.node j).ran ++ [op] = (pre ++ x :: post') ++ [y] := by
          simpa using hsplit
        exact h.valid j pre x post' (List.append_inj' shape rfl).1
    · rw [others j hj] at hsplit
      exact h.valid j pre x post hsplit

/-- What a chain request does on a row that is about to run the next command: it runs it,
hands it to the subclass at the tail, and passes it on anywhere else. -/
structure Advanced (cb : Callbacks σ μ) (env : Env μ) (m : ChainModule σ) (op : ChainOp)
    (o : Outcome (ChainModule σ) (Send μ)) : Prop where
  number : op.seq.serverSeqNo = m.chainSeqNo + 1
  returned : (cb.runCommand env m.user op.seq op.args).status = .returned
  state : o.state = (m.record op).withUser (if m.isTail then
    (cb.replicationComplete env (cb.runCommand env m.user op.seq op.args).state
      op.seq op.args).state else (cb.runCommand env m.user op.seq op.args).state)
  outs : outsOf o.sent = (cb.runCommand env m.user op.seq op.args).sent ++ if m.isTail then
    (cb.replicationComplete env (cb.runCommand env m.user op.seq op.args).state
      op.seq op.args).sent else []
  requests : requestsOf o.sent = if m.isTail then [] else [op]
  acks : acksOf o.sent = []
  status : o.status = if m.isTail then
    (cb.replicationComplete env (cb.runCommand env m.user op.seq op.args).state
      op.seq op.args).status else .returned

lemma advanced_of_runnable (R : Replayable cb V) (env : Env μ) (m : ChainModule σ)
    (seq : SequenceId) {args : ArgList}
    (number : (m.numbered seq).serverSeqNo = m.chainSeqNo + 1) (fits : R.fits args)
    (ok : R.ok (R.view m.user) ⟨m.numbered seq, args⟩) (up : m.isTail = false → env.next = true) :
    Advanced cb env m ⟨m.numbered seq, args⟩ (m.chainRequest cb env seq args) := by
  cases chainRequest_cases cb env m seq args with
  | duplicate old _ => exact absurd number (ne_of_lt (by simp only at old; omega))
  | outOfOrder late _ => exact absurd number (ne_of_gt (by simpa using late))
  | failed _ status _ => exact absurd (R.run_returned env m.user _ fits ok) status
  | completed number returned tail result =>
    rw [result]
    exact ⟨number, returned, by simp [tail], by simp [tail], by simp [tail], by simp, by simp [tail]⟩
  | passed number returned notTail result =>
    rw [result]
    refine ⟨number, returned, ?_, ?_, ?_, ?_, ?_⟩ <;>
      simp [notTail, Outcome.send, Env.up, up notTail]

lemma Advanced.flow {env : Env μ} {m : ChainModule σ} {op : ChainOp}
    {o : Outcome (ChainModule σ) (Send μ)} (adv : Advanced cb env m op o) (h : Flow R v₀ net)
    {i : ℕ} {net₁ : ChainNet σ} (hi : net.alive i = true) (same : Agrees m (net.node i))
    (view : R.view m.user = R.view (net.node i).user)
    (source : i = 0 ∧ net₁ = net ∨
      ∃ j rest, i = j + 1 ∧ net.link j i = op :: rest ∧ net₁ = net.setLink j i rest)
    (fits : R.fits op.args) (ok : R.ok (R.view (net.node i).user) op) :
    Flow R v₀ (net₁.deposit i o) := by
  have isTail : m.isTail = (net.node i).isTail := by rw [ChainModule.isTail, same.role]; rfl
  refine h.advance hi source ?_ ?_ ?_ ?_ ?_ fits ok (isTail ▸ adv.requests)
  · rw [adv.state]
    exact same.role
  · rw [adv.state]
    exact same.next
  · rw [adv.state]
    have recorded := (same.nodeInv (h.node i)).record adv.number
    exact ⟨recorded.count, recorded.numbers, recorded.pending⟩
  · rw [adv.state, withUser_ran, record_ran, same.ran]
  · rw [adv.state, withUser_user, ← view]
    split
    · rw [R.complete, R.run_view env m.user op fits (view ▸ ok)]
    · rw [R.run_view env m.user op fits (view ▸ ok)]

/-- A request at the head is refused by `run_command` or runs as the next command. -/
theorem Flow.request (h : Flow R v₀ net) (ext : Outside μ) (hi : net.alive 0 = true)
    {m : ChainModule σ} (same : Agrees m (net.node 0))
    (view : R.view m.user = R.view (net.node 0).user) (seq : SequenceId) {args : ArgList}
    (fits : R.fits args) :
    Flow R v₀ (net.deposit 0 (m.chainRequest cb (net.env ext m) seq args)) ∧
      (¬ R.ok (R.view m.user) ⟨m.numbered seq, args⟩ ∧
          m.chainRequest cb (net.env ext m) seq args =
            m.call (cb.runCommand (net.env ext m) m.user (m.numbered seq) args) ∨
        R.ok (R.view m.user) ⟨m.numbered seq, args⟩ ∧
          Advanced cb (net.env ext m) m ⟨m.numbered seq, args⟩
            (m.chainRequest cb (net.env ext m) seq args)) := by
  have head : m.isHead = true := by
    rw [ChainModule.isHead, same.role]
    exact (h.isHead_iff hi).mpr rfl
  have number : (m.numbered seq).serverSeqNo = m.chainSeqNo + 1 := by
    rw [numbered_of_head head]
  rcases Classical.em (R.ok (R.view m.user) ⟨m.numbered seq, args⟩) with ok | no
  · have adv := advanced_of_runnable R (net.env ext m) m seq number fits ok fun notTail => by
      have tail : (net.node 0).isTail = false := by
        rw [ChainModule.isTail, ← same.role]
        exact notTail
      simp only [env, same.next]
      exact h.up_next hi tail
    exact ⟨adv.flow h hi same view (.inl ⟨rfl, rfl⟩) fits (view ▸ ok), .inr ⟨ok, adv⟩⟩
  · have refused := R.refused (net.env ext m) m.user ⟨m.numbered seq, args⟩ fits no
    have result : m.chainRequest cb (net.env ext m) seq args =
        m.call (cb.runCommand (net.env ext m) m.user (m.numbered seq) args) := by
      cases chainRequest_cases cb (net.env ext m) m seq args with
      | duplicate old _ => exact absurd number (ne_of_lt (by simp only at old; omega))
      | outOfOrder late _ => exact absurd number (ne_of_gt (by simpa using late))
      | failed _ _ result => exact result
      | completed _ returned _ _ | passed _ returned _ _ => exact absurd returned refused.1
    refine ⟨?_, .inl ⟨no, result⟩⟩
    rw [result]
    have node := same.nodeInv (h.node 0)
    exact h.quiet same.role same.next ⟨node.count, node.numbers, node.pending⟩ same.ran
      (refused.2.trans view) (by simp)

theorem Flow.deliver (h : Flow R v₀ net) (ext : Outside μ) {i j : ℕ} {op : ChainOp}
    {rest : List ChainOp} (hj : net.alive j = true) (popped : net.link i j = op :: rest) :
    let m := meet (net.node j) i
    let o := m.chainRequest cb (net.env ext m) op.seq op.args
    Flow R v₀ ((net.setLink i j rest).deposit j o) ∧ j = i + 1 ∧
      Advanced cb (net.env ext m) m op o := by
  intro m o
  have same : Agrees m (net.node j) := agrees_meet _ _
  have user : m.user = (net.node j).user := by
    simp only [m, meet]
    split <;> rfl
  have step : j = i + 1 := by
    by_contra other
    rw [h.other i j other] at popped
    simp at popped
  have inside : j < net.rows := by simpa [h.alive] using hj
  have log := h.link i (by omega)
  rw [← step, popped] at log
  obtain ⟨fits, ok⟩ := h.valid i _ _ _ log
  rw [← h.view j, ← user] at ok
  have notHead : m.isHead = false := by
    rw [ChainModule.isHead, same.role, Bool.eq_false_iff]
    intro head
    have := (h.isHead_iff hj).mp head
    omega
  have number : op.seq.serverSeqNo = m.chainSeqNo + 1 := by
    have := (h.node i).numbers (net.node j).ran.length op (by rw [log]; simp)
    rw [this, same.count, (h.node j).count]
  have adv : Advanced cb (net.env ext m) m op o := by
    have runnable := advanced_of_runnable R (net.env ext m) m op.seq
      (by rw [numbered_of_not_head notHead]; exact number) fits
      (by rw [numbered_of_not_head notHead]; exact ok)
      (fun notTail => by
        have tail : (net.node j).isTail = false := by
          rw [ChainModule.isTail, ← same.role]
          exact notTail
        simp only [env, same.next]
        exact h.up_next hj tail)
    rwa [numbered_of_not_head notHead] at runnable
  exact ⟨adv.flow h hj same (by rw [user]) (.inr ⟨i, rest, step, step ▸ popped, by rw [step]⟩) fits
    (user ▸ ok), step, adv⟩

lemma ackBatch_keeps {W : Type} {f : σ → W}
    (keeps : ∀ env role u seq, f (cb.ackCallback env role u seq).state = f u) (env : Env μ)
    (m : ChainModule σ) (seqs : List SequenceId) : f (m.ackBatch cb env seqs).state.user = f m.user := by
  refine Outcome.forEach_induction (f := ChainModule.ack cb env) seqs m []
    (P := fun t _ => f t.user = f m.user) ?_ rfl
  intro t _ q _ ht
  have called := (keeps env t.role t.user q).trans ht
  unfold ChainModule.ack
  dsimp only
  refine Outcome.andThen_rule
    (Q := fun o : Outcome (ChainModule σ) (Send μ) => f o.state.user = f m.user) (fun _ => called)
    fun _ => ?_
  split
  · exact called
  · unfold pushAck
    dsimp only
    split
    · rw [Outcome.send_state]
      exact called
    · exact called

lemma view_ackBatch (R : Replayable cb V) (env : Env μ) (m : ChainModule σ)
    (seqs : List SequenceId) : R.view (m.ackBatch cb env seqs).state.user = R.view m.user :=
  ackBatch_keeps R.ack env m seqs

lemma Flow.acked (h : Flow R v₀ net) {i : ℕ} {seqs : List SequenceId} {P : SequenceId → Prop}
    {o : Outcome (ChainModule σ) (Send μ)} (effect : AckEffect (net.node i) seqs P o.state o.sent)
    (view : R.view o.state.user = R.view (net.node i).user) : Flow R v₀ (net.deposit i o) := by
  obtain ⟨p, a, u, state⟩ := effect.frame
  refine h.quiet (by rw [state]) (by rw [state]) ?_ (by rw [state]) view effect.requests
  refine ⟨by rw [state]; exact (h.node i).count, by rw [state]; exact (h.node i).numbers, ?_⟩
  intro k op found
  rcases effect.pending k with same | ⟨gone, _⟩
  · have := (h.node i).pending k op (same ▸ found)
    rwa [state]
  · rw [gone] at found
    simp at found

theorem Flow.ackBatch (h : Flow R v₀ net) (env : Env μ) (i : ℕ) (seqs : List SequenceId) :
    Flow R v₀ (net.deposit i ((net.node i).ackBatch cb env seqs)) :=
  h.acked (ackBatch_effect cb env (net.node i) seqs (P := fun _ => True) (by simp) (by simp))
    (view_ackBatch R env (net.node i) seqs)

lemma Flow.dropAck (h : Flow R v₀ net) (acks : List AckMessage) :
    Flow R v₀ { net with acks := acks } :=
  ⟨h.alive, h.role, h.next, h.node, h.link, h.other, h.view, h.valid⟩

lemma Flow.start (R : Replayable cb V) {v₀ : V} (rows : ℕ) (user : ℕ → σ) (ackBatchSize : ℕ → ℤ)
    (view : ∀ i role, R.view (cb.setupCallback role (user i)) = v₀) :
    Flow R v₀ (ChainNet.start cb rows user ackBatchSize) where
  alive _ := rfl
  role _ := rfl
  next _ := rfl
  node _ := ⟨rfl, by simp [ChainNet.start, ChainModule.setup],
    by simp [ChainNet.start, ChainModule.setup]⟩
  link _ _ := rfl
  other _ _ _ := rfl
  view i := view i _
  valid _ _ _ _ h := by simp [ChainNet.start, ChainModule.setup] at h

lemma Flow.prefix_of_le (h : Flow R v₀ net) {i j : ℕ} (hij : i ≤ j) (hj : j < net.rows) :
    (net.node j).ran <+: (net.node i).ran := by
  induction hij with
  | refl => exact List.prefix_rfl
  | @step j _ ih =>
    refine List.IsPrefix.trans ?_ (ih (by omega))
    exact ⟨_, (h.link j hj).symm⟩

lemma Flow.ran_eq (h : Flow R v₀ net)
    (idle : ∀ i, i + 1 < net.rows → net.link i (i + 1) = []) {j : ℕ}
    (hj : j < net.rows) : (net.node j).ran = (net.node 0).ran := by
  induction j with
  | zero => rfl
  | succ j ih =>
    have := h.link j hj
    rw [idle j hj, List.append_nil] at this
    rw [← this]
    exact ih (by omega)

end ChainNet
end Shortstack
