import Shortstack.ChainFlow
import Shortstack.ChainReplication

/-! Acknowledgements on their way up a chain. A replica sends them on the connection it
was first requested on. While that connection leads to the live replica before it, every
acknowledged command leaves the pending maps of all replicas before; a crash leaves it
pointing at the dead replica unless the successor had not been requested yet. -/
namespace Shortstack

namespace ChainModule
variable {σ μ : Type} (cb : Callbacks σ μ) (env : Env μ) (m : ChainModule σ)

/-- The calls of `ack_callback` for a batch all return. -/
def ackAll (role : ChainRole) : σ → List SequenceId → Prop
  | _, [] => True
  | u, q :: qs => (cb.ackCallback env role u q).status = .returned ∧
    ackAll role (cb.ackCallback env role u q).state qs

instance (role : ChainRole) (u : σ) (seqs : List SequenceId) :
    Decidable (ackAll cb env role u seqs) :=
  match seqs with
  | [] => isTrue trivial
  | q :: qs =>
    have : Decidable (ackAll cb env role (cb.ackCallback env role u q).state qs) :=
      instDecidableAckAll role _ qs
    inferInstanceAs (Decidable (_ ∧ _))

variable {cb env m}

lemma ack_passes {q : SequenceId} (returned : (cb.ackCallback env m.role m.user q).status = .returned)
    (up : m.isHead = true ∨ env.prev = true) :
    (m.ack cb env q).status = .returned ∧
    (m.ack cb env q).state.user = (cb.ackCallback env m.role m.user q).state ∧
    (m.ack cb env q).state.role = m.role ∧
    (m.ack cb env q).state.pending = m.pending.erase q.serverSeqNo ∧
    (m.isHead = false → (acksOf (m.ack cb env q).sent).flatten ++ (m.ack cb env q).state.ackQueue =
      m.ackQueue ++ [q]) := by
  let called := ({ m with pending := m.removePending q } : ChainModule σ).withUser
    (cb.ackCallback env m.role m.user q).state
  let next : Outcome (ChainModule σ) (Send μ) :=
    if called.isHead then .done called else called.pushAck env q
  have whole : m.ack cb env q =
      ⟨next.state, (cb.ackCallback env m.role m.user q).sent.map .out ++ next.sent,
        next.status⟩ := by
    unfold ack
    simp only [Outcome.andThen, call_status, returned]
    rfl
  rw [whole]
  cases head : m.isHead with
  | true =>
    have done : next = .done called := if_pos head
    rw [done]
    exact ⟨rfl, rfl, rfl, rfl, by simp⟩
  | false =>
    have prev : env.prev = true := by simpa [head] using up
    have push : next = called.pushAck env q := if_neg (by
      rw [show called.isHead = false from head]
      simp)
    rw [push, pushAck]
    dsimp only
    split
    · simp only [Outcome.send, Env.up, prev, if_true, acksOf_append, acksOf_out, List.nil_append]
      exact ⟨trivial, rfl, rfl, rfl, fun _ => by simp [called]⟩
    · simp only [Outcome.done, acksOf_out, List.append_nil]
      exact ⟨trivial, rfl, rfl, rfl, fun _ => by simp [called]⟩

lemma ackBatch_passes {seqs : List SequenceId} (go : ackAll cb env m.role m.user seqs)
    (up : m.isHead = true ∨ env.prev = true) :
    (∀ k, (m.ackBatch cb env seqs).state.pending.lookup k =
      if k ∈ seqs.map SequenceId.serverSeqNo then none else m.pending.lookup k) ∧
    (m.isHead = false → (acksOf (m.ackBatch cb env seqs).sent).flatten ++
      (m.ackBatch cb env seqs).state.ackQueue = m.ackQueue ++ seqs) := by
  induction seqs generalizing m with
  | nil => simp [ackBatch, Outcome.forEach]
  | cons q seqs ih =>
    obtain ⟨returned, rest⟩ := go
    obtain ⟨status, user, role, pending, queue⟩ := ack_passes returned up
    have head : (m.ack cb env q).state.isHead = m.isHead := by
      rw [isHead, role, isHead]
    obtain ⟨pendings, queues⟩ := ih (m := (m.ack cb env q).state)
      (by rw [role, user]; exact rest) (by rw [head]; exact up)
    have whole : m.ackBatch cb env (q :: seqs) =
        ⟨((m.ack cb env q).state.ackBatch cb env seqs).state,
          (m.ack cb env q).sent ++ ((m.ack cb env q).state.ackBatch cb env seqs).sent,
          ((m.ack cb env q).state.ackBatch cb env seqs).status⟩ := by
      simp only [ackBatch, Outcome.forEach, Outcome.andThen, status]
    rw [whole]
    refine ⟨fun k => ?_, fun notHead => ?_⟩
    · rw [pendings, pending]
      by_cases here : k = q.serverSeqNo
      · subst here
        simp
      · rw [AList.lookup_erase_ne here]
        simp [here]
    · have first := queue notHead
      have later := queues (head.trans notHead)
      simp only [acksOf_append, List.flatten_append, List.append_assoc]
      rw [later, ← List.append_assoc, first]
      simp

lemma RequestEffect.frame {env : Env μ} {m : ChainModule σ} {op : ChainOp}
    {o : Outcome (ChainModule σ) (Send μ)} (effect : RequestEffect env m op o) :
    o.state.next = m.next ∧ o.state.prev = m.prev ∧ o.state.role = m.role := by
  cases effect with
  | skipped u state =>
    rw [state]
    exact ⟨rfl, rfl, rfl⟩
  | ran u _ state =>
    rw [state]
    exact ⟨rfl, rfl, rfl⟩

end ChainModule

namespace ChainNet
open ChainModule Transition
variable {σ μ : Type} {cb : Callbacks σ μ} {ext : Outside μ} {net : ChainNet σ}

/-- Row `i` is the last live row before `j`. -/
structure LivePred (net : ChainNet σ) (i j : ℕ) : Prop where
  before : i < j
  alive : net.alive i = true
  between : ∀ p, i < p → p < j → net.alive p = false

/-- Runs in which at most one replica crashes, a middle one, and no acknowledgement is lost
to an exception of the subclass. -/
def oneMiddleCrash (cb : Callbacks σ μ) (net : ChainNet σ) (l : Outside μ × NetLabel σ) : Prop :=
  ackedRan net l ∧ match l.2 with
    | .crash i => (∀ r < net.rows, net.alive r = true) ∧ 0 < i ∧ i + 1 < net.rows
    | .ackDeliver k => ∀ a ∈ net.acks[k]?, ackAll cb (net.env l.1 (net.node a.dst))
        (net.node a.dst).role (net.node a.dst).user a.seqs
    | .ackFrom i user seqs => ackAll cb (net.env l.1 ((net.node i).withUser user)) (net.node i).role
        user seqs
    | _ => True

/-- The successor of a replica that crashes was not requested before the crash, and the
first request it handles is not one the crashed replica had sent. -/
def successorUnmet (net : ChainNet σ) (l : Outside μ × NetLabel σ) : Prop :=
  match l.2 with
  | .crash i => (net.node (i + 1)).prev = none
  | .deliver i j => (net.node j).prev = none → net.alive i = true
  | _ => True

instance (cb : Callbacks σ μ) (net : ChainNet σ) (l : Outside μ × NetLabel σ) :
    Decidable (oneMiddleCrash cb net l) :=
  match l with
  | (_, .crash _) | (_, .ackDeliver _) | (_, .ackFrom ..) | (_, .request ..) | (_, .deliver ..)
  | (_, .touch ..) | (_, .setup ..) | (_, .fetch ..) | (_, .resend ..) | (_, .lose ..)
  | (_, .loseAck ..) => inferInstanceAs (Decidable (_ ∧ _))

instance (net : ChainNet σ) (l : Outside μ × NetLabel σ) : Decidable (successorUnmet net l) :=
  match l with
  | (_, .crash i) => inferInstanceAs (Decidable ((net.node (i + 1)).prev = none))
  | (_, .deliver i j) =>
    inferInstanceAs (Decidable ((net.node j).prev = none → net.alive i = true))
  | (_, .ackDeliver _) | (_, .ackFrom ..) | (_, .request ..) | (_, .touch ..) | (_, .setup ..)
  | (_, .fetch ..) | (_, .resend ..) | (_, .lose ..) | (_, .loseAck ..) => isTrue trivial

/-- Connections between live replicas. -/
structure Wired (net : ChainNet σ) : Prop where
  front : 0 < net.rows → net.alive 0 = true ∧ (net.node 0).isHead = true
  toward : ∀ i j, net.link i j ≠ [] → ∀ p, i < p → p < j → net.alive p = false
  back : ∀ j i, net.alive j = true → (net.node j).prev = some i → LivePred net i j
  met : ∀ j, 0 < j → net.alive j = true → (net.node j).chainSeqNo ≠ 0 → (net.node j).prev ≠ none

lemma Wired.of_deposit (w : Wired net) (net₁ : ChainNet σ) (rows : net₁.rows = net.rows)
    (alive : net₁.alive = net.alive) (node : net₁.node = net.node)
    (link : ∀ a b, net₁.link a b ≠ [] → net.link a b ≠ []) {i : ℕ}
    {o : Outcome (ChainModule σ) (Send μ)} (head : i = 0 → (net.node 0).isHead = true →
      o.state.isHead = true) (sends : ∀ b, o.state.next = some b → requestsOf o.sent ≠ [] →
      ∀ p, i < p → p < b → net.alive p = false)
    (prev : ∀ p, o.state.prev = some p → (net.node i).prev = some p ∨ LivePred net p i)
    (met : 0 < i → net.alive i = true → o.state.chainSeqNo ≠ 0 → o.state.prev ≠ none) :
    Wired (net₁.deposit i o) where
  front := by
    rw [deposit_rows, deposit_alive, deposit_node, rows, alive, node]
    intro some'
    obtain ⟨live, first⟩ := w.front some'
    refine ⟨live, ?_⟩
    rcases eq_or_ne 0 i with rfl | other
    · rw [Function.update_self]
      exact head rfl first
    · rw [Function.update_of_ne other]
      exact first
  toward a b busy p hp hp' := by
    rw [deposit_alive, alive]
    obtain ⟨op, hop⟩ := List.exists_mem_of_ne_nil _ busy
    rcases mem_deposit_link _ _ _ hop with old | ⟨rfl, next, new⟩
    · exact w.toward a b (link a b (List.ne_nil_of_mem old)) p hp hp'
    · exact sends b next (List.ne_nil_of_mem new) p hp hp'
  back j p hj := by
    rw [deposit_alive, alive] at hj
    have same : ∀ p j, LivePred net p j → LivePred (net₁.deposit i o) p j := by
      intro p j live
      refine ⟨live.before, ?_, ?_⟩
      · rw [deposit_alive, alive]
        exact live.alive
      · rw [deposit_alive, alive]
        exact live.between
    rw [deposit_node]
    rcases eq_or_ne j i with rfl | other
    · rw [Function.update_self]
      intro found
      rcases prev p found with old | new
      · exact same _ _ (w.back j p hj old)
      · exact same _ _ new
    · rw [Function.update_of_ne other, node]
      exact fun found => same _ _ (w.back j p hj found)
  met j pos hj := by
    rw [deposit_alive, alive] at hj
    rw [deposit_node]
    rcases eq_or_ne j i with rfl | other
    · rw [Function.update_self]
      exact met pos hj
    · rw [Function.update_of_ne other, node]
      exact w.met j pos hj

lemma Wired.of_fewer (w : Wired net) {net₁ : ChainNet σ} (rows : net₁.rows = net.rows)
    (alive : net₁.alive = net.alive) (node : net₁.node = net.node)
    (link : ∀ a b, net₁.link a b ≠ [] → net.link a b ≠ []) : Wired net₁ where
  front := by
    rw [rows, alive, node]
    exact w.front
  toward a b busy := by
    rw [alive]
    exact w.toward a b (link a b busy)
  back j p := by
    rw [alive, node]
    intro hj found
    obtain ⟨before, live, between⟩ := w.back j p hj found
    exact ⟨before, by rw [alive]; exact live, by rw [alive]; exact between⟩
  met := by
    rw [alive, node]
    exact w.met

lemma setLink_busy {i j a b : ℕ} {kept : List ChainOp} (less : net.link i j = [] → kept = [])
    (busy : (net.setLink i j kept).link a b ≠ []) : net.link a b ≠ [] := by
  intro empty
  simp only [setLink] at busy
  split at busy
  · next here =>
    obtain ⟨rfl, rfl⟩ := here
    exact busy (less empty)
  · exact busy empty

lemma no_request_inside (inv : Inv True net) (w : Wired net) {i : ℕ} (pos : 0 < i)
    (hi : net.alive i = true) : (net.node i).isHead = false := by
  by_contra head
  have below := inv.heads i hi (by simpa using head) 0 pos
  have := (w.front (lt_of_le_of_lt (Nat.zero_le i) (inv.bound i hi))).1
  rw [this] at below
  simp at below

lemma meet_prev (m : ChainModule σ) (i : ℕ) : (meet m i).prev = some (m.prev.getD i) := by
  unfold meet
  cases found : m.prev with
  | none => rfl
  | some p => exact found

lemma meet_role (m : ChainModule σ) (i : ℕ) : (meet m i).role = m.role := by
  unfold meet
  split <;> rfl

lemma meet_next (m : ChainModule σ) (i : ℕ) : (meet m i).next = m.next := by
  unfold meet
  split <;> rfl

theorem Wired.step (w : Wired net) (inv : Inv True net) {l : NetLabel σ} {r : NetResult σ μ}
    (one : oneMiddleCrash cb net (ext, l)) (unmet : successorUnmet net (ext, l))
    (taken : net.step cb ext l = some r) : Wired r.net := by
  have ahead : ∀ i, net.alive i = true → ∀ b, (net.node i).next = some b →
      ∀ p, i < p → p < b → net.alive p = false := fun i hi b next =>
    (inv.next i b hi next).2
  cases step_cases taken with
  | @request i user seq args alive head =>
    obtain ⟨next, prev, role⟩ := (chainRequest_effect cb (net.env ext ((net.node i).withUser user))
      ((net.node i).withUser user) seq args).frame
    refine w.of_deposit net rfl rfl rfl (fun _ _ h => h) ?_ ?_ ?_ ?_
    · intro _ _
      rw [isHead, role]
      exact head
    · intro b found _
      rw [next] at found
      exact ahead i alive b found
    · intro p found
      rw [prev] at found
      exact .inl found
    · intro pos
      rw [no_request_inside inv w pos alive] at head
      simp at head
  | @deliver i j op rest link alive =>
    obtain ⟨next, prev, role⟩ := (chainRequest_effect cb (net.env ext (meet (net.node j) i))
      (meet (net.node j) i) op.seq op.args).frame
    refine w.of_deposit (net.setLink i j rest) rfl rfl rfl (fun a b => setLink_busy (by simp [link])) ?_ ?_ ?_ ?_
    · rintro rfl first
      rw [isHead, role, meet_role]
      exact first
    · intro b found _
      rw [next, meet_next] at found
      exact ahead j alive b found
    · intro p found
      rw [prev, meet_prev, Option.some.injEq] at found
      cases known : (net.node j).prev with
      | some q =>
        rw [known] at found
        exact .inl (congrArg some found)
      | none =>
        rw [known] at found
        subst found
        exact .inr ⟨inv.ahead i j op (by simp [link]), unmet known,
          w.toward i j (by simp [link])⟩
    · intro _ _ _
      rw [prev, meet_prev]
      simp
  | @ackDeliver k a found alive =>
    obtain ⟨⟨_, _, _, frame⟩, _, _, requests, _⟩ := ackBatch_effect (P := fun _ => True) cb
      (net.env ext (net.node a.dst)) (net.node a.dst) a.seqs (fun _ _ => trivial)
      fun _ _ => trivial
    refine w.of_deposit { net with acks := net.acks.eraseIdx k } rfl rfl rfl (fun _ _ h => h) ?_ ?_ ?_ ?_
    · rw [frame]
      intro zero first
      rw [← zero] at first
      exact first
    · exact fun _ _ busy => absurd requests busy
    · rw [frame]
      exact fun p found => .inl found
    · rw [frame]
      exact w.met a.dst
  | @ackFrom i user seqs alive =>
    obtain ⟨⟨_, _, _, frame⟩, _, _, requests, _⟩ := ackBatch_effect (P := fun _ => True) cb
      (net.env ext ((net.node i).withUser user)) ((net.node i).withUser user) seqs
      (fun _ _ => trivial) fun _ _ => trivial
    refine w.of_deposit net rfl rfl rfl (fun _ _ h => h) ?_ ?_ ?_ ?_
    · rw [frame]
      rintro rfl first
      exact first
    · exact fun _ _ busy => absurd requests busy
    · rw [frame]
      exact fun p found => .inl found
    · rw [frame]
      exact w.met i
  | @touch i user alive =>
    refine w.of_deposit net rfl rfl rfl (fun _ _ h => h) ?_ ?_ (fun p found => .inl found) (w.met i)
    · rintro rfl first
      exact first
    · exact fun _ _ busy => absurd rfl busy
  | @setup i alive =>
    refine w.of_deposit net rfl rfl rfl (fun _ _ h => h) ?_ ?_ (fun p found => .inl found) (w.met i)
    · rintro rfl _
      simp only [Outcome.done_state, isHead, ChainModule.setup, survivorRole, hasBelow,
        List.range_zero, List.any_nil]
      cases net.hasAbove 0 <;> rfl
    · exact fun _ _ busy => absurd rfl busy
  | fetch => exact w.of_fewer rfl rfl rfl fun _ _ h => h
  | @resend i n fetched alive =>
    obtain ⟨u, state, _⟩ := resendPending_effect cb (net.env ext (net.node i)) (net.node i) n
    refine w.of_deposit { net with fetched := Function.update net.fetched i none } rfl rfl rfl (fun _ _ h => h) ?_ ?_ ?_ ?_
    · rw [state]
      rintro rfl first
      exact first
    · intro b found _
      rw [state] at found
      exact ahead i alive b found
    · rw [state]
      exact fun p found => .inl found
    · rw [state]
      exact w.met i
  | lose down sub =>
    refine w.of_fewer rfl rfl rfl fun a b => setLink_busy fun empty => ?_
    rw [empty] at sub
    exact List.sublist_nil.mp sub
  | loseAck => exact w.of_fewer rfl rfl rfl fun _ _ h => h
  | @crash i alive =>
    obtain ⟨all, pos, inside⟩ := one.2
    have down : ∀ p, net.alive p = false → (net.fail i).alive p = false := by
      intro p hp
      rcases eq_or_ne p i with rfl | other
      · exact Function.update_self ..
      · exact (Function.update_of_ne other ..).trans hp
    have was : ∀ p, (net.fail i).alive p = true → p ≠ i ∧ net.alive p = true := by
      intro p hp
      rcases eq_or_ne p i with rfl | other
      · simp [fail] at hp
      · exact ⟨other, (Function.update_of_ne other ..).symm.trans hp⟩
    refine ⟨fun hr => ?_, fun a b busy p hp hp' => down p (w.toward a b busy p hp hp'), ?_, ?_⟩
    · exact ⟨(Function.update_of_ne pos.ne ..).trans (w.front hr).1, (w.front hr).2⟩
    · intro j p hj found
      obtain ⟨other, live⟩ := was j hj
      obtain ⟨before, alive', between⟩ := w.back j p live found
      have ne : p ≠ i := by
        rintro rfl
        have next : j = p + 1 := by
          by_contra far
          have := between (p + 1) (by omega) (by omega)
          rw [all (p + 1) inside] at this
          simp at this
        rw [next] at found
        exact absurd (unmet.symm.trans found) (by simp)
      exact ⟨before, (Function.update_of_ne ne ..).trans alive', fun q hq hq' =>
        down q (between q hq hq')⟩
    · intro j hj live
      exact w.met j hj (was j live).2

/-- The number of an acknowledgement on its way from `j` to `i`. -/
def Underway (net : ChainNet σ) (j i : ℕ) (n : ℤ) : Prop :=
  n ∈ (net.node j).ackQueue.map SequenceId.serverSeqNo ∨
    ∃ a ∈ net.acks, a.src = j ∧ a.dst = i ∧ n ∈ a.seqs.map SequenceId.serverSeqNo

/-- What a live replica has acknowledged, the one before it has acknowledged too, or will. -/
def Settled (net : ChainNet σ) : Prop :=
  ∀ i j, LivePred net i j → net.alive j = true → ∀ n : ℤ, 1 ≤ n → n ≤ (net.node j).chainSeqNo →
    (net.node j).pending.lookup n = none →
    (net.node i).pending.lookup n = none ∨ Underway net j i n

lemma LivePred.unique {i j p : ℕ} (one : LivePred net i j) (two : LivePred net p j) : i = p := by
  rcases lt_trichotomy i p with below | same | above
  · have := one.between p below two.before
    rw [two.alive] at this
    simp at this
  · exact same
  · have := two.between i above one.before
    rw [one.alive] at this
    simp at this

/-- A step at one row after which the replicas owe each other no acknowledgement they did not
owe before. -/
lemma Settled.of_deposit (h : Settled net) (net₁ : ChainNet σ) {k : ℕ}
    {o : Outcome (ChainModule σ) (Send μ)} (alive : net₁.alive = net.alive)
    (node : net₁.node = net.node)
    (above : ∀ i, LivePred net i k → net.alive k = true → ∀ n : ℤ, 1 ≤ n →
      n ≤ o.state.chainSeqNo → o.state.pending.lookup n = none →
      (net.node i).pending.lookup n = none ∨ Underway (net₁.deposit k o) k i n)
    (below : ∀ j, LivePred net k j → net.alive j = true → ∀ n : ℤ, 1 ≤ n →
      n ≤ (net.node j).chainSeqNo →
      ((net.node k).pending.lookup n = none ∨ Underway net j k n) →
      o.state.pending.lookup n = none ∨ Underway (net₁.deposit k o) j k n)
    (kept : ∀ a ∈ net.acks, a.dst ≠ k → a ∈ net₁.acks) :
    Settled (net₁.deposit k o) := by
  have same : ∀ i j, LivePred (net₁.deposit k o) i j → LivePred net i j := by
    rintro i j ⟨before, live, between⟩
    rw [deposit_alive, alive] at live between
    exact ⟨before, live, between⟩
  intro i j pred hj n hn hle none
  replace pred := same i j pred
  rw [deposit_alive, alive] at hj
  rw [deposit_node] at hle none ⊢
  rcases eq_or_ne j k with rfl | hjk
  · rw [Function.update_self] at hle none
    rw [Function.update_of_ne pred.before.ne, node]
    exact above i pred hj n hn hle none
  · rw [Function.update_of_ne hjk, node] at hle none
    have before := h i j pred hj n hn hle none
    rcases eq_or_ne i k with rfl | hik
    · rw [Function.update_self]
      exact below j pred hj n hn hle before
    · rw [Function.update_of_ne hik, node]
      refine before.imp id fun way => ?_
      rcases way with queued | ⟨a, ha, src, dst, mem⟩
      · left
        rw [deposit_node, Function.update_of_ne hjk, node]
        exact queued
      · exact .inr ⟨a, List.mem_append_left _ (kept a ha (by omega)), src, dst, mem⟩

lemma Settled.of_quiet (h : Settled net) (net₁ : ChainNet σ) {k : ℕ}
    {o : Outcome (ChainModule σ) (Send μ)} (alive : net₁.alive = net.alive)
    (node : net₁.node = net.node) (acks : net₁.acks = net.acks)
    (seq : o.state.chainSeqNo = (net.node k).chainSeqNo)
    (pending : o.state.pending = (net.node k).pending)
    (queue : o.state.ackQueue = (net.node k).ackQueue) : Settled (net₁.deposit k o) := by
  have way : ∀ j i n, Underway net j i n → Underway (net₁.deposit k o) j i n := by
    intro j i n
    rintro (queued | ⟨a, ha, src, dst, mem⟩)
    · left
      rw [deposit_node]
      rcases eq_or_ne j k with rfl | other
      · rw [Function.update_self, queue]
        exact queued
      · rw [Function.update_of_ne other, node]
        exact queued
    · exact .inr ⟨a, List.mem_append_left _ (acks ▸ ha), src, dst, mem⟩
  refine h.of_deposit net₁ alive node ?_ ?_ fun a ha _ => acks ▸ ha
  · intro i pred hk n hn hle none
    rw [seq] at hle
    rw [pending] at none
    exact (h i k pred hk n hn hle none).imp id (way k i n)
  · intro j _ _ n _ _ before
    rw [pending]
    exact before.imp id (way j k n)

lemma Settled.of_run (h : Settled net) (inv : Inv True net) (net₁ : ChainNet σ) {k : ℕ}
    {m : ChainModule σ} {o : Outcome (ChainModule σ) (Send μ)} {op : ChainOp} {u : σ}
    (alive : net₁.alive = net.alive) (node : net₁.node = net.node) (acks : net₁.acks = net.acks)
    (hk : net.alive k = true) (agrees : Agrees m (net.node k))
    (number : op.seq.serverSeqNo = m.chainSeqNo + 1)
    (state : o.state = (m.record op).withUser u) : Settled (net₁.deposit k o) := by
  have nodeInv := agrees.nodeInv (inv.node k)
  have lookup : ∀ n, o.state.pending.lookup n = if n = op.seq.serverSeqNo then some op
      else (net.node k).pending.lookup n := by
    intro n
    rw [state, withUser_pending, lookup_addPending nodeInv number, agrees.pending]
  have way : ∀ j i n, Underway net j i n → Underway (net₁.deposit k o) j i n := by
    intro j i n
    rintro (queued | ⟨a, ha, src, dst, mem⟩)
    · left
      rw [deposit_node]
      rcases eq_or_ne j k with rfl | other
      · rw [Function.update_self, state, withUser_ackQueue, record_ackQueue, agrees.queue]
        exact queued
      · rw [Function.update_of_ne other, node]
        exact queued
    · exact .inr ⟨a, List.mem_append_left _ (acks ▸ ha), src, dst, mem⟩
  have seq : m.chainSeqNo = (net.node k).chainSeqNo := agrees.count
  refine h.of_deposit net₁ alive node ?_ ?_ fun a ha _ => acks ▸ ha
  · intro i pred _ n hn hle none
    rw [lookup] at none
    rw [state, withUser_chainSeqNo, record_chainSeqNo] at hle
    split at none
    · simp at none
    · next other =>
      exact (h i k pred hk n hn (by omega) none).imp id (way k i n)
  · intro j pred hj n _ hle before
    have prefix' := (inv.log k j pred.before hk hj).length_le
    have countK := (inv.node k).count
    have countJ := (inv.node j).count
    rw [lookup, if_neg (by omega)]
    exact before.imp id (way j k n)

lemma Settled.of_acks (h : Settled net) (w : Wired net) (inv : Inv True net) (net₁ : ChainNet σ)
    {k : ℕ} {m : ChainModule σ} {seqs : List SequenceId} (alive : net₁.alive = net.alive)
    (node : net₁.node = net.node) (hk : net.alive k = true) (agrees : Agrees m (net.node k))
    (prev : m.prev = (net.node k).prev) (go : ackAll cb (net.env ext m) m.role m.user seqs)
    (acks : ∀ a ∈ net.acks, a ∈ net₁.acks ∨ a.dst = k ∧ a.seqs = seqs) :
    Settled (net₁.deposit k (m.ackBatch cb (net.env ext m) seqs)) := by
  obtain ⟨⟨p, q, u, frame⟩, removed, -⟩ := ackBatch_effect (P := fun _ => True) cb
    (net.env ext m) m seqs (fun _ _ => trivial) fun _ _ => trivial
  have seq : (m.ackBatch cb (net.env ext m) seqs).state.chainSeqNo = (net.node k).chainSeqNo := by
    rw [frame]
    exact agrees.count
  have up : (net.node k).chainSeqNo ≠ 0 → m.isHead = true ∨ (net.env ext m).prev = true := by
    intro busy
    rcases Nat.eq_zero_or_pos k with rfl | pos
    · left
      rw [isHead, agrees.role]
      exact (w.front (lt_of_le_of_lt (Nat.zero_le 0) (inv.bound 0 hk))).2
    · right
      obtain ⟨i, known⟩ := Option.ne_none_iff_exists'.mp (w.met k pos hk busy)
      simp only [env, prev, known, ChainNet.up]
      exact (w.back k i hk known).alive
  refine h.of_deposit net₁ alive node ?_ ?_ ?_
  · intro i pred _ n hn hle none
    rw [seq] at hle
    have busy : (net.node k).chainSeqNo ≠ 0 := by omega
    have pos : 0 < k := lt_of_le_of_lt (Nat.zero_le i) pred.before
    have notHead : m.isHead = false := by
      rw [isHead, agrees.role]
      exact no_request_inside inv w pos hk
    obtain ⟨pendings, queues⟩ := ackBatch_passes go (up busy)
    obtain ⟨p, known⟩ := Option.ne_none_iff_exists'.mp (w.met k pos hk busy)
    obtain rfl : i = p := pred.unique (w.back k p hk known)
    have sent : ∀ n ∈ (m.ackQueue ++ seqs).map SequenceId.serverSeqNo,
        Underway (net₁.deposit k (m.ackBatch cb (net.env ext m) seqs)) k i n := by
      intro n mem
      rw [← queues notHead, List.map_append, List.mem_append] at mem
      rcases mem with flushed | queued
      · obtain ⟨x, hx, number⟩ := List.mem_map.mp flushed
        obtain ⟨batch, hb, hx⟩ := List.mem_flatten.mp hx
        refine .inr ⟨⟨k, i, batch⟩, ?_, rfl, rfl, List.mem_map.mpr ⟨x, hx, number⟩⟩
        have target : (m.ackBatch cb (net.env ext m) seqs).state.prev = some i := by
          rw [frame]
          exact prev.trans known
        simp only [deposit, target, List.mem_append, List.mem_map]
        exact .inr ⟨batch, hb, rfl⟩
      · left
        rw [deposit_node, Function.update_self]
        exact queued
    rw [pendings] at none
    split at none
    · next given =>
      refine .inr (sent n ?_)
      rw [List.map_append, List.mem_append]
      exact .inr given
    · rw [agrees.pending] at none
      refine (h i k pred hk n hn hle none).imp id fun way => ?_
      rcases way with queued | ⟨a, ha, src, dst, mem⟩
      · refine sent n ?_
        rw [List.map_append, List.mem_append, agrees.queue]
        exact .inl queued
      · rcases acks a ha with kept | ⟨consumed, _⟩
        · exact .inr ⟨a, List.mem_append_left _ kept, src, dst, mem⟩
        · exact absurd pred.before (by omega)
  · intro j pred hj n hn hle before
    have order := (inv.log k j pred.before hk hj).length_le
    have countK := (inv.node k).count
    have countJ := (inv.node j).count
    obtain ⟨pendings, -⟩ := ackBatch_passes go (up (by omega))
    rw [pendings, agrees.pending]
    rcases before with gone | queued | ⟨a, ha, src, dst, mem⟩
    · left
      split
      · rfl
      · exact gone
    · refine .inr (.inl ?_)
      rw [deposit_node, Function.update_of_ne pred.before.ne', node]
      exact queued
    · rcases acks a ha with kept | ⟨_, same⟩
      · exact .inr (.inr ⟨a, List.mem_append_left _ kept, src, dst, mem⟩)
      · rw [same] at mem
        exact .inl (if_pos mem)
  · intro a ha other
    rcases acks a ha with kept | ⟨consumed, _⟩
    · exact kept
    · exact absurd consumed other

lemma mem_eraseIdx_or {α : Type} {l : List α} {k : ℕ} {a b : α} (found : l[k]? = some b)
    (mem : a ∈ l) : a ∈ l.eraseIdx k ∨ a = b := by
  rw [List.eraseIdx_eq_take_drop_succ, List.mem_append]
  rw [← List.take_append_drop k l, List.mem_append,
    ← List.cons_getElem_drop_succ (h := (List.getElem?_eq_some_iff.mp found).1), List.mem_cons,
    (List.getElem?_eq_some_iff.mp found).2] at mem
  rcases mem with early | here | late
  · exact .inl (.inl early)
  · exact .inr here
  · exact .inl (.inr late)

lemma loseAck_down {k : ℕ} {r : NetResult σ μ} (taken : net.step cb ext (.loseAck k) = some r) :
    ∃ a, net.acks[k]? = some a ∧ (net.alive a.src = false ∨ net.alive a.dst = false) := by
  simp only [ChainNet.step] at taken
  split at taken
  · simp at taken
  · next a found =>
    simp only [Option.ite_none_right_eq_some, Bool.or_eq_true, Bool.not_eq_true'] at taken
    exact ⟨a, found, taken.1⟩

lemma Settled.of_same (h : Settled net) {net₁ : ChainNet σ} (alive : net₁.alive = net.alive)
    (node : net₁.node = net.node) (acks : net₁.acks = net.acks) : Settled net₁ := by
  rintro i j ⟨before, live, between⟩ hj n hn
  rw [alive] at live between hj
  simp only [Underway, node, acks]
  exact h i j ⟨before, live, between⟩ hj n hn

lemma Settled.request (h : Settled net) (inv : Inv True net) (net₁ : ChainNet σ) {k : ℕ}
    {m : ChainModule σ} (alive : net₁.alive = net.alive) (node : net₁.node = net.node)
    (acks : net₁.acks = net.acks) (hk : net.alive k = true) (agrees : Agrees m (net.node k))
    (env : Env μ) (seq : SequenceId) (args : ArgList) :
    Settled (net₁.deposit k (m.chainRequest cb env seq args)) := by
  cases chainRequest_effect cb env m seq args with
  | skipped u state =>
    exact h.of_quiet net₁ alive node acks (by rw [state]; exact agrees.count)
      (by rw [state]; exact agrees.pending) (by rw [state]; exact agrees.queue)
  | ran u number state => exact h.of_run inv net₁ alive node acks hk agrees number state

theorem Settled.step (h : Settled net) (w : Wired net) (inv : Inv True net) {l : NetLabel σ}
    {r : NetResult σ μ} (one : oneMiddleCrash cb net (ext, l))
    (unmet : successorUnmet net (ext, l)) (taken : net.step cb ext l = some r) :
    Settled r.net := by
  cases step_cases taken with
  | request alive head => exact h.request inv net rfl rfl rfl alive (agrees_withUser ..) _ _ _
  | @deliver i j op rest link alive =>
    exact h.request inv (net.setLink i j rest) rfl rfl rfl alive (agrees_meet ..) _ _ _
  | @ackDeliver k a found alive =>
    refine h.of_acks w inv { net with acks := net.acks.eraseIdx k } rfl rfl alive
      Agrees.rfl rfl (one.2 a found) fun b hb => ?_
    rcases mem_eraseIdx_or found hb with kept | rfl
    · exact .inl kept
    · exact .inr ⟨rfl, rfl⟩
  | @ackFrom i user seqs alive =>
    exact h.of_acks w inv net rfl rfl alive (agrees_withUser ..) rfl one.2 fun b hb => .inl hb
  | touch alive => exact h.of_quiet net rfl rfl rfl rfl rfl rfl
  | setup alive => exact h.of_quiet net rfl rfl rfl rfl rfl rfl
  | fetch alive => exact h.of_same rfl rfl rfl
  | @resend i n fetched alive =>
    obtain ⟨u, state, _⟩ := resendPending_effect cb (net.env ext (net.node i)) (net.node i) n
    exact h.of_quiet { net with fetched := Function.update net.fetched i none } rfl rfl rfl
      (by rw [state]; rfl) (by rw [state]; rfl) (by rw [state]; rfl)
  | lose => exact h.of_same rfl rfl rfl
  | @loseAck k a found =>
    obtain ⟨b, found', down⟩ := loseAck_down taken
    obtain rfl : a = b := by simpa using found.symm.trans found'
    intro i j pred hj n hn hle none
    refine (h i j ⟨pred.before, pred.alive, pred.between⟩ hj n hn hle none).imp id fun way => ?_
    rcases way with queued | ⟨c, hc, src, dst, mem⟩
    · exact .inl queued
    · rcases mem_eraseIdx_or found hc with kept | rfl
      · exact .inr ⟨c, kept, src, dst, mem⟩
      · have live := pred.alive
        rw [src, dst] at down
        rcases down with gone | gone
        · exact absurd (hj.symm.trans gone) (by simp)
        · exact absurd (live.symm.trans gone) (by simp)
  | @crash m alive =>
    obtain ⟨all, pos, inside⟩ := one.2
    intro i j pred hj n hn hle none
    have was : ∀ p, (net.fail m).alive p = true → p ≠ m ∧ net.alive p = true := by
      intro p hp
      rcases eq_or_ne p m with rfl | other
      · simp [fail] at hp
      · exact ⟨other, (Function.update_of_ne other ..).symm.trans hp⟩
    obtain ⟨_, liveJ⟩ := was j hj
    obtain ⟨_, liveI⟩ := was i pred.alive
    have close : ∀ p, i < p → p < j → p = m := by
      intro p hp hp'
      by_contra other
      have dead := pred.between p hp hp'
      have live := all p (lt_trans hp' (inv.bound j liveJ))
      rw [show (net.fail m).alive p = net.alive p from Function.update_of_ne other ..] at dead
      rw [live] at dead
      simp at dead
    have between := pred.before
    rcases eq_or_ne j (i + 1) with rfl | far
    · exact h i (i + 1) ⟨between, liveI, fun p _ _ => by omega⟩ liveJ n hn hle none
    · have gap := close (i + 1) (by omega) (by omega)
      have next : j = m + 1 := by
        by_contra further
        have := close (m + 1) (by omega) (by omega)
        omega
      subst next
      have fresh : (net.node (m + 1)).chainSeqNo = 0 := by
        by_contra busy
        exact w.met (m + 1) (by omega) liveJ busy unmet
      change n ≤ (net.node (m + 1)).chainSeqNo at hle
      omega

lemma Wired.start (cb : Callbacks σ μ) (rows : ℕ) (user : ℕ → σ) (ackBatchSize : ℕ → ℤ) :
    Wired (ChainNet.start cb rows user ackBatchSize) where
  front pos := ⟨by simpa [ChainNet.start] using pos, (initRole_isHead_iff pos).mpr rfl⟩
  toward i j busy := absurd rfl busy
  back j i _ found := by simp [ChainNet.start, ChainModule.setup] at found
  met j _ _ busy := absurd rfl busy

lemma exists_livePred {i j : ℕ} (before : i < j) (hi : net.alive i = true) :
    ∃ p, LivePred net p j ∧ i ≤ p := by
  have bound : i ≤ j - 1 := by omega
  have top := Nat.findGreatest_le (P := fun p => net.alive p = true) (j - 1)
  refine ⟨Nat.findGreatest (fun p => net.alive p = true) (j - 1), ⟨by omega,
    Nat.findGreatest_spec (P := fun p => net.alive p = true) bound hi, fun p hp hp' => ?_⟩,
    Nat.le_findGreatest bound hi⟩
  simpa using Nat.findGreatest_is_greatest hp (show p ≤ j - 1 by omega)

/-- Where no replica has crashed after its successor was first requested, acknowledgements
follow the chain: the connection of a replica leads to the live replica before it, from the
first request of that replica on, and with no acknowledgement under way a command one replica
has acknowledged is pending at no live replica before it. -/
theorem acks_follow_chain {net : ChainNet σ} (reached : Reaches (chainSystem cb)
    (fun net l => oneMiddleCrash cb net l ∧ successorUnmet net l) net) :
    (∀ i j ext r, LivePred net i j → oneMiddleCrash cb net (ext, .deliver i j) →
      successorUnmet net (ext, .deliver i j) → net.step cb ext (.deliver i j) = some r →
      (r.net.node j).prev = some i) ∧
    (∀ i j, net.alive j = true → LivePred net i j → (net.node j).prev ≠ none →
      (net.node j).prev = some i) ∧
    ((∀ k < net.rows, net.alive k = true → (net.node k).ackQueue = []) → net.acks = [] →
      ∀ i j, i < j → net.alive i = true → net.alive j = true → ∀ n : ℤ, 1 ≤ n →
        n ≤ (net.node j).chainSeqNo → (net.node j).pending.lookup n = none →
        (net.node i).pending.lookup n = none) := by
  obtain ⟨inv, w, h⟩ : Inv True net ∧ Wired net ∧ Settled net := by
    refine reached.invariant (P := fun net => Inv True net ∧ Wired net ∧ Settled net) ?_ ?_
    · rintro _ ⟨rows, user, size, rfl⟩
      refine ⟨Inv.start .., Wired.start .., ?_⟩
      intro i j _ _ n hn hle
      change n ≤ 0 at hle
      omega
    · rintro net ⟨ext, l⟩ t ⟨inv, w, h⟩ ⟨one, unmet⟩ taken
      obtain ⟨r, step, rfl⟩ := Option.map_eq_some_iff.mp taken
      exact ⟨inv.step cb ext l (fun _ => one.1) step, w.step inv one unmet step,
        h.step w inv one unmet step⟩
  refine ⟨?_, ?_, ?_⟩
  · intro i j ext r pred _ _ taken
    cases step_cases taken with
    | @deliver _ _ op rest link alive =>
      obtain ⟨_, prev, _⟩ := (chainRequest_effect cb (net.env ext (meet (net.node j) i))
        (meet (net.node j) i) op.seq op.args).frame
      have here : (meet (net.node j) i).prev = some i := by
        rw [meet_prev]
        cases known : (net.node j).prev with
        | none => rfl
        | some p => rw [Option.getD_some, pred.unique (w.back j p alive known)]
      simp only [finish, deposit_node, Function.update_self]
      exact prev.trans here
  · intro i j hj pred met
    obtain ⟨p, known⟩ := Option.ne_none_iff_exists'.mp met
    rw [known, pred.unique (w.back j p hj known)]
  · intro empty still i j before hi hj n hn hle gone
    induction j using Nat.strong_induction_on with
    | _ j ih =>
      obtain ⟨p, pred, above⟩ := exists_livePred before hi
      have order := (inv.log p j pred.before pred.alive hj).length_le
      have countP := (inv.node p).count
      have countJ := (inv.node j).count
      have goneP : (net.node p).pending.lookup n = none := by
        refine (h p j pred hj n hn hle gone).resolve_right ?_
        rintro (queued | ⟨a, ha, _⟩)
        · rw [empty j (inv.bound j hj) hj] at queued
          simp at queued
        · rw [still] at ha
          simp at ha
      rcases eq_or_ne i p with rfl | other
      · exact goneP
      · exact ih p pred.before (by omega) pred.alive (by omega) goneP

def plainRun (labels : List (NetLabel Unit)) : List (Outside Unit × NetLabel Unit) :=
  labels.map fun l => (⟨fun _ => true, none⟩, l)

/-- The middle row crashes before it has passed anything on. -/
def unmetRun : List (Outside Unit × NetLabel Unit) :=
  plainRun [.request 0 () {} ["a"], .deliver 0 1, .crash 1, .setup 0, .fetch 0, .resend 0,
    .deliver 0 2, .ackFrom 2 () [{ serverSeqNo := 1 }], .ackDeliver 0]

theorem acks_follow_chain_of_unmetRun :
    ∃ net, Reaches (chainSystem plainCallbacks)
        (fun net l => oneMiddleCrash plainCallbacks net l ∧ successorUnmet net l) net ∧
      net.alive 1 = false ∧ (net.node 2).chainSeqNo = 1 ∧ (net.node 2).prev = some 0 ∧
      (net.node 0).pending.lookup 1 = none := by
  have start : (chainSystem plainCallbacks).init
      (ChainNet.start plainCallbacks 3 (fun _ => ()) fun _ => 1) := ⟨3, _, _, rfl⟩
  have reached := Reaches.of_replay (fun net l =>
    oneMiddleCrash plainCallbacks net l ∧ successorUnmet net l) unmetRun start (by decide +kernel)
  obtain ⟨_, connected, settled⟩ := acks_follow_chain reached
  refine ⟨_, reached, by decide +kernel, by decide +kernel, ?_, ?_⟩
  · refine connected 0 2 (by decide +kernel) ⟨by decide, by decide +kernel, ?_⟩ (by decide +kernel)
    intro p hp hp'
    obtain rfl : p = 1 := by omega
    decide +kernel
  · exact settled (by decide +kernel) (by decide +kernel) 0 2 (by decide) (by decide +kernel)
      (by decide +kernel) 1 le_rfl (by decide +kernel) (by decide +kernel)

/-- The middle row crashes after the last one was requested through it. -/
def metRun : List (Outside Unit × NetLabel Unit) :=
  plainRun [.request 0 () {} ["a"], .deliver 0 1, .deliver 1 2, .crash 1, .setup 0, .fetch 0,
    .resend 0, .request 0 () {} ["b"]]

/-- The last row handles a request of its new predecessor and goes on acknowledging to the
crashed row, so its acknowledgement never reaches the head. -/
theorem acks_to_crashed_row :
    ∃ net r, Reaches (chainSystem plainCallbacks) (oneMiddleCrash plainCallbacks) net ∧
      net.alive 1 = false ∧ LivePred net 0 2 ∧
      net.step plainCallbacks ⟨fun _ => true, none⟩ (.deliver 0 2) = some r ∧
      (r.net.node 2).prev = some 1 ∧
      ∃ net', Reaches (chainSystem plainCallbacks) (oneMiddleCrash plainCallbacks) net' ∧
        (∀ k < net'.rows, net'.alive k = true → (net'.node k).ackQueue = []) ∧ net'.acks = [] ∧
        net'.alive 0 = true ∧ net'.alive 2 = true ∧ (net'.node 2).chainSeqNo = 2 ∧
        (net'.node 2).pending.lookup 2 = none ∧ (net'.node 0).pending.lookup 2 ≠ none := by
  have start : (chainSystem plainCallbacks).init
      (ChainNet.start plainCallbacks 3 (fun _ => ()) fun _ => 1) := ⟨3, _, _, rfl⟩
  have reached := Reaches.of_replay (oneMiddleCrash plainCallbacks) metRun start (by decide +kernel)
  have later := Reaches.of_replay (oneMiddleCrash plainCallbacks)
    (metRun ++ plainRun [.deliver 0 2, .ackFrom 2 () [{ serverSeqNo := 2 }]]) start
    (by decide +kernel)
  refine ⟨_, _, reached, by decide +kernel, ⟨by decide, by decide +kernel, ?_⟩, rfl,
    by decide +kernel, _, later, by decide +kernel, by decide +kernel, by decide +kernel,
    by decide +kernel, by decide +kernel, by decide +kernel, by decide +kernel⟩
  intro p hp hp'
  obtain rfl : p = 1 := by omega
  decide +kernel

end ChainNet
end Shortstack
