import Shortstack.ChainNet

/-! The invariant of the replication chain and its preservation by every step.
The commands run by the first survivor are the log of the chain; every other
survivor has run a prefix of it, and every request in flight to a survivor that
has live predecessors carries an entry those predecessors have run. -/
namespace Shortstack.ChainNet
open ChainModule
variable {σ μ : Type} {acked : Prop}

/-- Every live replica has run the acknowledged number, if the outside acknowledges only
commands that were run. -/
def AckOk (acked : Prop) (net : ChainNet σ) (q : SequenceId) : Prop :=
  acked → ∀ r, net.alive r = true → q.serverSeqNo ≤ (net.node r).chainSeqNo

/-- The bookkeeping of one replica agrees with the commands it has run. -/
structure NodeInv (m : ChainModule σ) : Prop where
  count : m.chainSeqNo = m.ran.length
  numbers : ∀ (k : ℕ) op, m.ran[k]? = some op → op.seq.serverSeqNo = k + 1
  pending : ∀ k op, m.pending.lookup k = some op → op ∈ m.ran ∧ op.seq.serverSeqNo = k

structure Inv (acked : Prop) (net : ChainNet σ) : Prop where
  node : ∀ i, NodeInv (net.node i)
  log : ∀ i j, i < j → net.alive i = true → net.alive j = true →
    (net.node j).ran <+: (net.node i).ran
  inflight : ∀ i j, net.alive j = true → ∀ op ∈ net.link i j, ∀ p < j, net.alive p = true →
    op ∈ (net.node p).ran
  heads : ∀ i, net.alive i = true → (net.node i).isHead = true → ∀ p < i, net.alive p = false
  tails : ∀ i, net.alive i = true → (net.node i).isTail = true → ∀ j, i < j → net.alive j = false
  next : ∀ i j, net.alive i = true → (net.node i).next = some j →
    i < j ∧ ∀ p, i < p → p < j → net.alive p = false
  kept : acked → ∀ i j, i < j → net.alive i = true → net.alive j = true → ∀ op ∈ (net.node i).ran,
    (net.node i).pending.lookup op.seq.serverSeqNo = none →
    op.seq.serverSeqNo ≤ (net.node j).chainSeqNo
  queue : ∀ i, net.alive i = true → ∀ q ∈ (net.node i).ackQueue, AckOk acked net q
  acks : ∀ a ∈ net.acks, ∀ q ∈ a.seqs, AckOk acked net q
  bound : ∀ i, net.alive i = true → i < net.rows
  ahead : ∀ i j, ∀ op ∈ net.link i j, i < j

section Lookup

lemma NodeInv.mem_iff {m : ChainModule σ} (h : NodeInv m) {op : ChainOp} :
    op ∈ m.ran ↔ ∃ k : ℕ, m.ran[k]? = some op ∧ op.seq.serverSeqNo = k + 1 := by
  constructor
  · intro hop
    obtain ⟨k, hk⟩ := List.mem_iff_getElem?.mp hop
    exact ⟨k, hk, h.numbers k op hk⟩
  · rintro ⟨k, hk, _⟩
    exact List.mem_of_getElem? hk

lemma NodeInv.number_bounds {m : ChainModule σ} (h : NodeInv m) {op : ChainOp}
    (hop : op ∈ m.ran) : 1 ≤ op.seq.serverSeqNo ∧ op.seq.serverSeqNo ≤ m.chainSeqNo := by
  obtain ⟨k, hk, hn⟩ := h.mem_iff.mp hop
  have := (List.getElem?_eq_some_iff.mp hk).1
  rw [hn, h.count]
  omega

lemma NodeInv.extends_log {m t : ChainModule σ} (hm : NodeInv m) (ht : NodeInv t)
    (pre : m.ran <+: t.ran) {op : ChainOp} (hop : op ∈ t.ran)
    (number : op.seq.serverSeqNo = m.chainSeqNo + 1) : m.ran ++ [op] <+: t.ran := by
  obtain ⟨k, hk, hn⟩ := ht.mem_iff.mp hop
  obtain ⟨rest, hrest⟩ := pre
  have hlen : k = m.ran.length := by
    have := hm.count
    omega
  rw [← hrest, hlen, List.getElem?_append_right (le_refl _), Nat.sub_self] at hk
  cases rest with
  | nil => simp at hk
  | cons r rest =>
    simp only [List.getElem?_cons_zero, Option.some.injEq] at hk
    subst hk
    exact ⟨rest, by rw [← hrest]; simp⟩

lemma NodeInv.record {m : ChainModule σ} (h : NodeInv m) {op : ChainOp}
    (number : op.seq.serverSeqNo = m.chainSeqNo + 1) : NodeInv (m.record op) := by
  have fresh : op.seq.serverSeqNo ∉ m.pending := by
    intro hmem
    obtain ⟨old, hold⟩ := Option.isSome_iff_exists.mp (AList.lookup_isSome.mpr hmem)
    obtain ⟨hran, hseq⟩ := h.pending _ _ hold
    have := (h.number_bounds hran).2
    omega
  refine ⟨?_, ?_, ?_⟩
  · simp [h.count]
  · intro k op' hk
    rw [record_ran] at hk
    by_cases hlt : k < m.ran.length
    · rw [List.getElem?_append_left hlt] at hk
      exact h.numbers k op' hk
    · rw [List.getElem?_append_right (by omega)] at hk
      have hk0 : k - m.ran.length = 0 := by
        by_contra hne
        rw [List.getElem?_eq_none (by simp; omega)] at hk
        simp at hk
      rw [hk0, List.getElem?_cons_zero, Option.some.injEq] at hk
      subst hk
      rw [number, h.count]
      omega
  · intro k op' hk
    rw [record_pending, addPending, if_neg fresh] at hk
    by_cases hkn : k = op.seq.serverSeqNo
    · subst hkn
      rw [AList.lookup_insert, Option.some.injEq] at hk
      subst hk
      exact ⟨by simp, rfl⟩
    · rw [AList.lookup_insert_ne hkn] at hk
      obtain ⟨hran, hseq⟩ := h.pending k op' hk
      exact ⟨by simp [hran], hseq⟩

lemma lookup_addPending {m : ChainModule σ} (h : NodeInv m) {op : ChainOp}
    (number : op.seq.serverSeqNo = m.chainSeqNo + 1) (k : ℤ) :
    (m.record op).pending.lookup k =
      if k = op.seq.serverSeqNo then some op else m.pending.lookup k := by
  have fresh : op.seq.serverSeqNo ∉ m.pending := by
    intro hmem
    obtain ⟨old, hold⟩ := Option.isSome_iff_exists.mp (AList.lookup_isSome.mpr hmem)
    obtain ⟨hran, hseq⟩ := h.pending _ _ hold
    have := (h.number_bounds hran).2
    omega
  rw [record_pending, addPending, if_neg fresh]
  split
  · next hk => rw [hk, AList.lookup_insert]
  · next hk => rw [AList.lookup_insert_ne hk]

end Lookup

section Deposit
variable (net : ChainNet σ) (i : ℕ) (o : Outcome (ChainModule σ) (Send μ))

@[simp] lemma deposit_alive : (net.deposit i o).alive = net.alive := rfl
@[simp] lemma deposit_rows : (net.deposit i o).rows = net.rows := rfl
@[simp] lemma deposit_node : (net.deposit i o).node = Function.update net.node i o.state := rfl
@[simp] lemma deposit_fetched : (net.deposit i o).fetched = net.fetched := rfl

lemma mem_deposit_link {a b : ℕ} {op : ChainOp} (h : op ∈ (net.deposit i o).link a b) :
    op ∈ net.link a b ∨ (a = i ∧ o.state.next = some b ∧ op ∈ requestsOf o.sent) := by
  simp only [deposit] at h
  split at h
  · next hc =>
    rcases List.mem_append.mp h with h | h
    · exact .inl h
    · exact .inr ⟨hc.1, hc.2, h⟩
  · exact .inl h

lemma mem_deposit_acks {a : AckMessage} (h : a ∈ (net.deposit i o).acks) :
    a ∈ net.acks ∨ a.seqs ∈ acksOf o.sent := by
  simp only [deposit, List.mem_append] at h
  rcases h with h | h
  · exact .inl h
  · split at h
    · obtain ⟨b, hb, rfl⟩ := List.mem_map.mp h
      exact .inr hb
    · simp at h

end Deposit
section Survivors
variable {net : ChainNet σ} {i j : ℕ}

lemma hasBelow_eq_false : net.hasBelow i = false ↔ ∀ p < i, net.alive p = false := by
  simp [hasBelow]

lemma hasAbove_eq_false (h : Inv acked net) :
    net.hasAbove i = false ↔ ∀ j, i < j → net.alive j = false := by
  simp only [hasAbove, List.any_eq_false, List.mem_range, Bool.and_eq_true, decide_eq_true_eq,
    not_and, Bool.not_eq_true]
  constructor
  · intro none j hij
    by_contra live
    exact live (none j (h.bound j (by simpa using live)) hij)
  · exact fun none j _ hij => none j hij

lemma survivorRole_isHead (hr : (net.survivorRole i).isHead = true) :
    ∀ p < i, net.alive p = false := by
  apply hasBelow_eq_false.mp
  unfold survivorRole at hr
  cases hb : net.hasBelow i with
  | false => rfl
  | true => cases ha : net.hasAbove i <;> simp [hb, ha, ChainRole.isHead] at hr

lemma survivorRole_isTail (h : Inv acked net) (hr : (net.survivorRole i).isTail = true) :
    ∀ j, i < j → net.alive j = false := by
  apply (hasAbove_eq_false h).mp
  unfold survivorRole at hr
  cases ha : net.hasAbove i with
  | false => rfl
  | true => cases hb : net.hasBelow i <;> simp [hb, ha, ChainRole.isTail] at hr

lemma nextSurvivor_some (hn : net.nextSurvivor i = some j) :
    i < j ∧ net.alive j = true ∧ ∀ p, i < p → p < j → net.alive p = false := by
  obtain ⟨hj, a, b, hab, hbefore⟩ := List.find?_eq_some_iff_append.mp hn
  simp only [Bool.and_eq_true, decide_eq_true_eq] at hj
  refine ⟨hj.1, hj.2, fun p hip hpj => ?_⟩
  have hlen : a.length = j ∧ j < net.rows := by
    have hget : (List.range net.rows)[a.length]? = some j := by simp [hab]
    rw [List.getElem?_eq_some_iff] at hget
    obtain ⟨hlt, he⟩ := hget
    rw [List.getElem_range] at he
    rw [List.length_range] at hlt
    omega
  have hp : p ∈ a := by
    have hget : (List.range net.rows)[p]? = some p := by
      rw [List.getElem?_eq_some_iff]
      exact ⟨by rw [List.length_range]; omega, by simp⟩
    rw [hab, List.getElem?_append_left (by omega)] at hget
    exact List.mem_of_getElem? hget
  have := hbefore p hp
  simpa [hip] using this

end Survivors

/-- Two replicas that differ at most in the subclass state and the connection back. -/
structure Agrees (m t : ChainModule σ) : Prop where
  role : m.role = t.role
  next : m.next = t.next
  count : m.chainSeqNo = t.chainSeqNo
  ran : m.ran = t.ran
  pending : m.pending = t.pending
  queue : m.ackQueue = t.ackQueue

lemma Agrees.rfl {m : ChainModule σ} : Agrees m m :=
  ⟨Eq.refl _, Eq.refl _, Eq.refl _, Eq.refl _, Eq.refl _, Eq.refl _⟩

lemma agrees_withUser (m : ChainModule σ) (u : σ) : Agrees (m.withUser u) m :=
  ⟨rfl, rfl, rfl, rfl, rfl, rfl⟩

lemma agrees_meet (m : ChainModule σ) (p : ℕ) : Agrees (meet m p) m := by
  unfold meet
  split <;> exact ⟨rfl, rfl, rfl, rfl, rfl, rfl⟩

lemma Agrees.nodeInv {m t : ChainModule σ} (h : Agrees m t) (ht : NodeInv t) : NodeInv m :=
  ⟨by rw [h.count, h.ran]; exact ht.count, by rw [h.ran]; exact ht.numbers,
    by rw [h.ran, h.pending]; exact ht.pending⟩

lemma Agrees.numbered {m t : ChainModule σ} (h : Agrees m t) (seq : SequenceId) :
    m.numbered seq = t.numbered seq := by
  unfold ChainModule.numbered ChainModule.isHead
  rw [h.role, h.count]

section Steps
variable {net : ChainNet σ} {i : ℕ} {o : Outcome (ChainModule σ) (Send μ)}

/-- A step that leaves roles, numbers and logs alone, removes only pending entries every
survivor has run, and sends only logged commands and safe acknowledgements. -/
lemma Inv.quiet (h : Inv acked net) (hi : net.alive i = true)
    (role : o.state.role = (net.node i).role) (next : o.state.next = (net.node i).next)
    (count : o.state.chainSeqNo = (net.node i).chainSeqNo)
    (ran : o.state.ran = (net.node i).ran)
    (pending : ∀ k, o.state.pending.lookup k = (net.node i).pending.lookup k ∨
      o.state.pending.lookup k = none ∧ ∃ q, q.serverSeqNo = k ∧ AckOk acked net q)
    (queue : ∀ q ∈ o.state.ackQueue, AckOk acked net q)
    (requests : ∀ op ∈ requestsOf o.sent, op ∈ (net.node i).ran)
    (acks : ∀ b ∈ acksOf o.sent, ∀ q ∈ b, AckOk acked net q) : Inv acked (net.deposit i o) := by
  have hran : ∀ j, ((net.deposit i o).node j).ran = (net.node j).ran := by
    intro j
    by_cases hj : j = i
    · subst hj; simpa using ran
    · simp [hj]
  have hcount : ∀ j, ((net.deposit i o).node j).chainSeqNo = (net.node j).chainSeqNo := by
    intro j
    by_cases hj : j = i
    · subst hj; simpa using count
    · simp [hj]
  have hrole : ∀ j, ((net.deposit i o).node j).role = (net.node j).role := by
    intro j
    by_cases hj : j = i
    · subst hj; simpa using role
    · simp [hj]
  have hnext : ∀ j, ((net.deposit i o).node j).next = (net.node j).next := by
    intro j
    by_cases hj : j = i
    · subst hj; simpa using next
    · simp [hj]
  have hpending : ∀ j k, ((net.deposit i o).node j).pending.lookup k =
      (net.node j).pending.lookup k ∨
      ((net.deposit i o).node j).pending.lookup k = none ∧
        ∃ q, q.serverSeqNo = k ∧ AckOk acked net q := by
    intro j k
    by_cases hj : j = i
    · subst hj; simpa using pending k
    · simp [hj]
  have hok : ∀ q, AckOk acked net q → AckOk acked (net.deposit i o) q := by
    intro q hq hack r hr
    rw [hcount]
    exact hq hack r hr
  refine ⟨?_, ?_, ?_, ?_, ?_, ?_, ?_, ?_, ?_, h.bound, ?_⟩
  · intro j
    refine ⟨by rw [hcount, hran]; exact (h.node j).count, by rw [hran]; exact (h.node j).numbers, ?_⟩
    intro k op hk
    rw [hran]
    rcases hpending j k with same | ⟨gone, _⟩
    · exact (h.node j).pending k op (same ▸ hk)
    · rw [gone] at hk
      simp at hk
  · intro a b hab ha hb
    rw [hran, hran]
    exact h.log a b hab ha hb
  · intro a b hb op hop p hp hpl
    rw [hran]
    rcases mem_deposit_link net i o hop with old | ⟨rfl, hto, new⟩
    · exact h.inflight a b hb op old p hp hpl
    · obtain ⟨hab, gap⟩ := h.next a b hi (next ▸ hto)
      have hin := requests op new
      rcases lt_trichotomy p a with hpa | rfl | hpa
      · exact (h.log p a hpa hpl hi).subset hin
      · exact hin
      · rw [deposit_alive, gap p hpa hp] at hpl
        simp at hpl
  · intro a ha hhead
    rw [ChainModule.isHead, hrole] at hhead
    exact h.heads a ha hhead
  · intro a ha htail
    rw [ChainModule.isTail, hrole] at htail
    exact h.tails a ha htail
  · intro a b ha hn
    rw [hnext] at hn
    exact h.next a b ha hn
  · intro hack a b hab ha hb op hop hnone
    rw [hran] at hop
    rw [hcount]
    rcases hpending a op.seq.serverSeqNo with same | ⟨_, q, hq, hqok⟩
    · exact h.kept hack a b hab ha hb op hop (same ▸ hnone)
    · exact hq ▸ hqok hack b hb
  · intro a ha q hq
    apply hok
    by_cases hai : a = i
    · subst hai
      exact queue q (by simpa using hq)
    · exact h.queue a ha q (by simpa [hai] using hq)
  · intro a ha q hq
    apply hok
    rcases mem_deposit_acks net i o ha with old | new
    · exact h.acks a old q hq
    · exact acks _ new q hq
  · intro a b op hop
    rcases mem_deposit_link net i o hop with old | ⟨rfl, hto, _⟩
    · exact h.ahead a b op old
    · exact (h.next a b hi (next ▸ hto)).1

lemma Inv.run (h : Inv acked net) {m : ChainModule σ} {op : ChainOp}
    (same : Agrees m (net.node i))
    (number : op.seq.serverSeqNo = (net.node i).chainSeqNo + 1)
    (logged : ∀ p < i, net.alive p = true → op ∈ (net.node p).ran) :
    Inv acked (net.deposit (μ := μ) i (.done (m.record op))) := by
  obtain ⟨role, next, count, ran, pending, queue⟩ := same
  have hm : NodeInv m := Agrees.nodeInv ⟨role, next, count, ran, pending, queue⟩ (h.node i)
  have number' : op.seq.serverSeqNo = m.chainSeqNo + 1 := by rw [count, number]
  let net' := net.deposit (μ := μ) i (.done (m.record op))
  have self : net'.node i = m.record op := by simp [net']
  have other : ∀ j, j ≠ i → net'.node j = net.node j := fun j hj => by simp [net', hj]
  have grows : ∀ j, (net.node j).ran <+: (net'.node j).ran := by
    intro j
    by_cases hj : j = i
    · rw [hj, self, record_ran, ran]
      exact List.prefix_append _ _
    · rw [other j hj]
  have climbs : ∀ j, (net.node j).chainSeqNo ≤ (net'.node j).chainSeqNo := by
    intro j
    by_cases hj : j = i
    · rw [hj, self, record_chainSeqNo, count]
      omega
    · rw [other j hj]
  have hok : ∀ q, AckOk acked net q → AckOk acked net' q := fun q hq hack r hr =>
    (hq hack r hr).trans (climbs r)
  have hrole : ∀ j, (net'.node j).role = (net.node j).role := by
    intro j
    by_cases hj : j = i
    · rw [hj, self, record_role, role]
    · rw [other j hj]
  refine ⟨?_, ?_, ?_, ?_, ?_, ?_, ?_, ?_, ?_, h.bound, ?_⟩
  · intro j
    by_cases hj : j = i
    · subst hj
      simpa [net'] using hm.record number'
    · simpa [hj] using h.node j
  · intro a b hab ha hb
    change (net'.node b).ran <+: (net'.node a).ran
    by_cases hbi : b = i
    · subst hbi
      rw [self, record_ran, other a (by omega)]
      exact hm.extends_log (h.node a) (ran ▸ h.log a b hab ha hb) (logged a hab ha) number'
    · rw [other b hbi]
      exact (h.log a b hab ha hb).trans (grows a)
  · intro a b hb x hx p hp hpl
    change x ∈ (net'.node p).ran
    have old : x ∈ net.link a b := by
      rcases mem_deposit_link net i _ hx with old | ⟨_, _, new⟩
      · exact old
      · simp at new
    exact (grows p).subset (h.inflight a b hb x old p hp hpl)
  · intro a ha hhead
    exact h.heads a ha ((congrArg ChainRole.isHead (hrole a)).symm.trans hhead)
  · intro a ha htail
    exact h.tails a ha ((congrArg ChainRole.isTail (hrole a)).symm.trans htail)
  · intro a b ha hn
    by_cases hai : a = i
    · subst hai
      exact h.next a b ha (by simpa [next] using hn)
    · exact h.next a b ha (by simpa [hai] using hn)
  · intro hack a b hab ha hb x hx hnone
    change x ∈ (net'.node a).ran at hx
    change (net'.node a).pending.lookup x.seq.serverSeqNo = none at hnone
    change x.seq.serverSeqNo ≤ (net'.node b).chainSeqNo
    by_cases hai : a = i
    · subst hai
      rw [self, lookup_addPending hm number'] at hnone
      split at hnone
      · simp at hnone
      · next hne =>
        rw [self, record_ran, List.mem_append, List.mem_singleton] at hx
        rcases hx with hx | rfl
        · exact (h.kept hack a b hab ha hb x (ran ▸ hx) (pending ▸ hnone)).trans (climbs b)
        · exact absurd rfl hne
    · rw [other a hai] at hx hnone
      exact (h.kept hack a b hab ha hb x hx hnone).trans (climbs b)
  · intro a ha q hq
    apply hok
    by_cases hai : a = i
    · subst hai
      exact h.queue a ha q (by simpa [queue] using hq)
    · exact h.queue a ha q (by simpa [hai] using hq)
  · intro a ha q hq
    apply hok
    rcases mem_deposit_acks net i _ ha with old | new
    · exact h.acks a old q hq
    · simp at new
  · intro a b x hx
    rcases mem_deposit_link net i _ hx with old | ⟨_, _, new⟩
    · exact h.ahead a b x old
    · simp at new

lemma deposit_deposit (net : ChainNet σ) (i : ℕ) (m : ChainModule σ)
    (o : Outcome (ChainModule σ) (Send μ)) :
    (net.deposit (μ := μ) i (.done m)).deposit i o = net.deposit i o := by
  simp only [deposit, Outcome.done_state, Outcome.done_sent, requestsOf_nil, acksOf_nil,
    List.append_nil, ite_self, List.map_nil, Function.update_idem]
  congr 1
  cases m.prev <;> simp

lemma Inv.fewer (h : Inv acked net) {net' : ChainNet σ} (rows : net'.rows = net.rows)
    (node : net'.node = net.node) (alive : net'.alive = net.alive)
    (link : ∀ a b, ∀ op ∈ net'.link a b, op ∈ net.link a b)
    (acks : ∀ a ∈ net'.acks, a ∈ net.acks) : Inv acked net' := by
  obtain ⟨rows', node', alive', link', acks', fetched'⟩ := net'
  subst rows node alive
  exact ⟨h.node, h.log, fun a b hb op hop => h.inflight a b hb op (link a b op hop), h.heads,
    h.tails, h.next, h.kept, h.queue, fun a ha => h.acks a (acks a ha), h.bound,
    fun a b op hop => h.ahead a b op (link a b op hop)⟩

lemma Inv.popLink (h : Inv acked net) {j : ℕ} {op : ChainOp} {rest : List ChainOp}
    (popped : net.link i j = op :: rest) : Inv acked (net.setLink i j rest) := by
  refine h.fewer rfl rfl rfl ?_ fun _ ha => ha
  intro a b x hx
  simp only [setLink] at hx
  split at hx
  · next hab =>
    rw [hab.1, hab.2, popped]
    exact List.mem_cons_of_mem _ hx
  · exact hx

lemma Inv.crash (h : Inv acked net) (i : ℕ) :
    Inv acked (net.fail i) := by
  have live : ∀ j, Function.update net.alive i false j = true → net.alive j = true := by
    intro j hj
    by_cases hji : j = i
    · subst hji; simp at hj
    · simpa [hji] using hj
  have dead : ∀ j, net.alive j = false → Function.update net.alive i false j = false := by
    intro j hj
    by_cases hji : j = i
    · subst hji; simp
    · simpa [hji] using hj
  exact ⟨h.node, fun a b hab ha hb => h.log a b hab (live a ha) (live b hb),
    fun a b hb op hop p hp hpl => h.inflight a b (live b hb) op hop p hp (live p hpl),
    fun a ha hh p hp => dead p (h.heads a (live a ha) hh p hp),
    fun a ha ht j hj => dead j (h.tails a (live a ha) ht j hj),
    fun a b ha hn => ⟨(h.next a b (live a ha) hn).1,
      fun p hap hpb => dead p ((h.next a b (live a ha) hn).2 p hap hpb)⟩,
    fun hack a b hab ha hb => h.kept hack a b hab (live a ha) (live b hb),
    fun a ha q hq hack r hr => h.queue a (live a ha) q hq hack r (live r hr),
    fun a ha q hq hack r hr => h.acks a ha q hq hack r (live r hr),
    fun a ha => h.bound a (live a ha), h.ahead⟩

lemma Inv.setup (h : Inv acked net) (cb : Callbacks σ μ) (i : ℕ) :
    Inv acked (net.deposit (μ := μ) i
      (.done ((net.node i).setup cb (net.survivorRole i) (net.nextSurvivor i)))) := by
  let net' := net.deposit (μ := μ) i
    (.done ((net.node i).setup cb (net.survivorRole i) (net.nextSurvivor i)))
  have self : net'.node i = (net.node i).setup cb (net.survivorRole i) (net.nextSurvivor i) := by
    simp [net']
  have other : ∀ j, j ≠ i → net'.node j = net.node j := fun j hj => by simp [net', hj]
  have same : ∀ j, (net'.node j).ran = (net.node j).ran ∧
      (net'.node j).chainSeqNo = (net.node j).chainSeqNo ∧
      (net'.node j).pending = (net.node j).pending ∧
      (net'.node j).ackQueue = (net.node j).ackQueue := by
    intro j
    by_cases hj : j = i
    · rw [hj, self]
      exact ⟨rfl, rfl, rfl, rfl⟩
    · rw [other j hj]
      exact ⟨rfl, rfl, rfl, rfl⟩
  have hok : ∀ q, AckOk acked net q → AckOk acked net' q := fun q hq hack r hr =>
    (same r).2.1 ▸ hq hack r hr
  change Inv acked net'
  refine ⟨?_, ?_, ?_, ?_, ?_, ?_, ?_, ?_, ?_, h.bound, ?_⟩
  · intro j
    obtain ⟨hran, hcount, hpend, _⟩ := same j
    exact ⟨by rw [hcount, hran]; exact (h.node j).count, by rw [hran]; exact (h.node j).numbers,
      by rw [hran, hpend]; exact (h.node j).pending⟩
  · intro a b hab ha hb
    rw [(same a).1, (same b).1]
    exact h.log a b hab ha hb
  · intro a b hb op hop p hp hpl
    rw [(same p).1]
    rcases mem_deposit_link net i _ hop with old | ⟨_, _, new⟩
    · exact h.inflight a b hb op old p hp hpl
    · simp at new
  · intro a ha hhead
    by_cases hai : a = i
    · rw [hai, self] at hhead
      exact fun p hp => survivorRole_isHead hhead p (hai ▸ hp)
    · rw [other a hai] at hhead
      exact h.heads a ha hhead
  · intro a ha htail
    by_cases hai : a = i
    · rw [hai, self] at htail
      exact fun j hj => survivorRole_isTail h htail j (hai ▸ hj)
    · rw [other a hai] at htail
      exact h.tails a ha htail
  · intro a b ha hn
    by_cases hai : a = i
    · rw [hai, self] at hn
      obtain ⟨hlt, _, gap⟩ := nextSurvivor_some hn
      exact hai ▸ ⟨hlt, gap⟩
    · rw [other a hai] at hn
      exact h.next a b ha hn
  · intro hack a b hab ha hb op hop hnone
    rw [(same a).1] at hop
    rw [(same a).2.2.1] at hnone
    rw [(same b).2.1]
    exact h.kept hack a b hab ha hb op hop hnone
  · intro a ha q hq
    rw [(same a).2.2.2] at hq
    exact hok q (h.queue a ha q hq)
  · intro a ha q hq
    rcases mem_deposit_acks net i _ ha with old | new
    · exact hok q (h.acks a old q hq)
    · simp at new
  · intro a b op hop
    rcases mem_deposit_link net i _ hop with old | ⟨_, _, new⟩
    · exact h.ahead a b op old
    · simp at new

/-- A chain request at a live replica whose live predecessors have the command in their
logs, if the replica keeps the number it carries. -/
lemma Inv.chainRequest (h : Inv acked net) (cb : Callbacks σ μ) (env : Env μ) (hi : net.alive i = true)
    {m : ChainModule σ} (same : Agrees m (net.node i)) (seq : SequenceId) (args : ArgList)
    (logged : m.isHead = false → ∀ p < i, net.alive p = true → ⟨seq, args⟩ ∈ (net.node p).ran) :
    Inv acked (net.deposit i (m.chainRequest cb env seq args)) := by
  have logged' : ∀ p < i, net.alive p = true →
      (⟨m.numbered seq, args⟩ : ChainOp) ∈ (net.node p).ran := by
    intro p hp hpl
    cases hh : m.isHead with
    | true =>
      have hhead : (net.node i).isHead = true := by
        rw [ChainModule.isHead, ← same.role]
        exact hh
      rw [h.heads i hi hhead p hp] at hpl
      simp at hpl
    | false =>
      rw [numbered_of_not_head hh]
      exact logged hh p hp hpl
  cases chainRequest_effect cb env m seq args with
  | skipped u state requests acks =>
    refine h.quiet hi ?_ ?_ ?_ ?_ ?_ ?_ ?_ ?_
    · rw [state]; exact same.role
    · rw [state]; exact same.next
    · rw [state]; exact same.count
    · rw [state]; exact same.ran
    · intro k
      rw [state, withUser_pending, same.pending]
      exact .inl rfl
    · rw [state, withUser_ackQueue, same.queue]
      exact h.queue i hi
    · simp [requests]
    · simp [acks]
  | ran u number state acks requests =>
    rw [← deposit_deposit (μ := μ) net i (m.record ⟨m.numbered seq, args⟩)]
    have hrun := h.run (μ := μ) same (number.trans (by rw [same.count])) logged'
    refine hrun.quiet hi ?_ ?_ ?_ ?_ ?_ ?_ ?_ ?_
    · rw [state]; simp
    · rw [state]; simp
    · rw [state]; simp
    · rw [state]; simp
    · intro k
      rw [state]
      simp
    · rw [state, withUser_ackQueue]
      exact fun q hq => hrun.queue i hi q (by simpa using hq)
    · intro op hop
      rw [requests] at hop
      split_ifs at hop <;> simp_all
    · simp [acks]

lemma Inv.acknowledged (h : Inv acked net) (hi : net.alive i = true) {m : ChainModule σ}
    (same : Agrees m (net.node i)) {seqs : List SequenceId}
    (ok : ∀ q ∈ seqs, AckOk acked net q)
    (effect : AckEffect m seqs (AckOk acked net) o.state o.sent) :
    Inv acked (net.deposit i o) := by
  obtain ⟨p, a, v, state⟩ := effect.frame
  refine h.quiet hi (by rw [state]; exact same.role) (by rw [state]; exact same.next)
    (by rw [state]; exact same.count) (by rw [state]; exact same.ran) ?_ effect.queue
    (by simp [effect.requests]) effect.acks
  intro k
  rcases effect.pending k with kept | ⟨gone, q, hq, hk⟩
  · exact .inl (kept.trans (by rw [same.pending]))
  · exact .inr ⟨gone, q, hk, ok q hq⟩

lemma Inv.ackBatch (h : Inv acked net) (cb : Callbacks σ μ) (env : Env μ) (hi : net.alive i = true)
    (u : σ) {seqs : List SequenceId} (ok : ∀ q ∈ seqs, AckOk acked net q) :
    Inv acked (net.deposit i (((net.node i).withUser u).ackBatch cb env seqs)) :=
  h.acknowledged hi (agrees_withUser _ u) ok
    (ackBatch_effect cb env ((net.node i).withUser u) seqs (h.queue i hi) ok)

lemma Inv.ackOk_of_tail (h : Inv acked net) (hi : net.alive i = true)
    (tail : (net.node i).isTail = true) {q : SequenceId}
    (hq : acked → q.serverSeqNo ≤ (net.node i).chainSeqNo) : AckOk acked net q := by
  intro hack r hr
  have hq := hq hack
  rcases lt_trichotomy r i with hri | rfl | hri
  · have := (h.log r i hri hr hi).length_le
    rw [(h.node i).count] at hq
    rw [(h.node r).count]
    omega
  · exact hq
  · rw [h.tails i hi tail r hri] at hr
    simp at hr

lemma Inv.pending_mem (h : Inv acked net) {n : ℤ} {op : ChainOp}
    (hop : op ∈ (net.node i).pendingAfter n) : op ∈ (net.node i).ran := by
  simp only [pendingAfter, List.mem_map, List.mem_insertionSort, List.mem_filter] at hop
  obtain ⟨e, ⟨he, _⟩, rfl⟩ := hop
  exact ((h.node i).pending e.1 e.2 (AList.mem_lookup_iff.mpr he)).1

/-- Every step of the chain keeps the invariant, whatever the outside does. -/
theorem Inv.step (h : Inv acked net) (cb : Callbacks σ μ) (ext : Outside μ) (l : NetLabel σ)
    (ok : acked → ackedRan net (ext, l)) {r : NetResult σ μ} (taken : net.step cb ext l = some r) :
    Inv acked r.net := by
  cases step_cases taken with
  | @request i user seq args hi hhead =>
    refine h.chainRequest cb _ hi (agrees_withUser _ user) seq args fun nothead => ?_
    rw [withUser_isHead, hhead] at nothead
    simp at nothead
  | @deliver i j op rest hlink hj =>
    refine (h.popLink hlink).chainRequest cb _ hj (agrees_meet (net.node j) i) op.seq op.args ?_
    intro _ p hp hpl
    exact h.inflight i j hj op (by simp [hlink]) p hp hpl
  | @ackDeliver k a ha hlive =>
    have popped : Inv acked { net with acks := net.acks.eraseIdx k } :=
      h.fewer rfl rfl rfl (fun _ _ _ hx => hx) fun x hx => List.mem_of_mem_eraseIdx hx
    exact popped.ackBatch cb _ hlive (net.node a.dst).user (h.acks a (List.mem_of_getElem? ha))
  | @ackFrom i user seqs hi =>
    refine h.ackBatch cb _ hi user fun q hq hack => ?_
    exact h.ackOk_of_tail hi (ok hack).1 (fun hack => (ok hack).2 q hq) hack
  | @touch i user hi =>
    exact h.quiet hi rfl rfl rfl rfl (fun _ => .inl rfl) (h.queue i hi) (by simp) (by simp)
  | @crash i _ => exact h.crash i
  | @setup i _ => exact h.setup cb i
  | fetch _ => exact h.fewer rfl rfl rfl (fun _ _ _ hx => hx) fun _ hx => hx
  | @resend i n _ hi =>
    have cleared : Inv acked { net with fetched := Function.update net.fetched i none } :=
      h.fewer rfl rfl rfl (fun _ _ _ hx => hx) fun _ hx => hx
    obtain ⟨u, state, requests, acks⟩ :=
      resendPending_effect cb (net.env ext (net.node i)) (net.node i) n
    refine cleared.quiet hi (by rw [state]; rfl) (by rw [state]; rfl) (by rw [state]; rfl)
      (by rw [state]; rfl) (fun k => by rw [state]; exact .inl rfl)
      (by rw [state]; exact h.queue i hi) ?_ (by simp [acks])
    intro op hop
    rw [requests] at hop
    split_ifs at hop
    · simp at hop
    · exact h.pending_mem hop
    · simp at hop
  | @lose i j kept _ sub =>
    refine h.fewer rfl rfl rfl ?_ fun _ hx => hx
    intro a b x hx
    simp only [setLink] at hx
    split at hx
    · next hab =>
      rw [hab.1, hab.2]
      exact sub.subset hx
    · exact hx
  | loseAck _ =>
    exact h.fewer rfl rfl rfl (fun _ _ _ hx => hx) fun x hx => List.mem_of_mem_eraseIdx hx

lemma initRole_isHead {rows i : ℕ} (h : (initRole rows i).isHead = true) (hi : i < rows) :
    i = 0 := by
  unfold initRole at h
  split_ifs at h <;> simp_all [ChainRole.isHead]

lemma initRole_isTail {rows i : ℕ} (h : (initRole rows i).isTail = true) (hi : i < rows) :
    i + 1 = rows := by
  unfold initRole at h
  split_ifs at h <;> simp_all [ChainRole.isTail]

lemma Inv.start (cb : Callbacks σ μ) (rows : ℕ) (user : ℕ → σ) (ackBatchSize : ℕ → ℤ) :
    Inv acked (ChainNet.start cb rows user ackBatchSize) := by
  refine ⟨?_, ?_, ?_, ?_, ?_, ?_, ?_, ?_, ?_, ?_, ?_⟩
  · intro i
    exact ⟨rfl, by simp [ChainNet.start, ChainModule.setup],
      by simp [ChainNet.start, ChainModule.setup]⟩
  · intro i j _ _ _
    exact List.prefix_rfl
  · intro i j _ op hop
    simp [ChainNet.start] at hop
  · intro i hi hhead p hp
    have := initRole_isHead hhead (by simpa [ChainNet.start] using hi)
    omega
  · intro i hi htail j hj
    have := initRole_isTail htail (by simpa [ChainNet.start] using hi)
    simp only [ChainNet.start, decide_eq_false_iff_not]
    omega
  · intro i j _ hn
    simp only [ChainNet.start, ChainModule.setup, initNext, Option.ite_none_right_eq_some,
      Option.some.injEq] at hn
    exact ⟨by omega, fun p _ _ => by omega⟩
  · intro _ i j _ _ _ op hop
    simp [ChainNet.start, ChainModule.setup] at hop
  · intro i _ q hq
    simp [ChainNet.start, ChainModule.setup] at hq
  · intro a ha
    simp [ChainNet.start] at ha
  · intro i hi
    simpa [ChainNet.start] using hi
  · intro i j op hop
    simp [ChainNet.start] at hop

theorem Inv.reaches {cb : Callbacks σ μ} {ok : ChainNet σ → Outside μ × NetLabel σ → Prop}
    (h : Transition.Reaches (chainSystem cb) ok net)
    (imp : ∀ net l, ok net l → acked → ackedRan net l) : Inv acked net := by
  refine h.invariant ?_ ?_
  · rintro _ ⟨rows, user, ackBatchSize, rfl⟩
    exact Inv.start cb rows user ackBatchSize
  · intro s l t hs allowed taken
    obtain ⟨r, hr, rfl⟩ := Option.map_eq_some_iff.mp taken
    exact hs.step cb l.1 l.2 (imp s l allowed) hr

end Steps
end Shortstack.ChainNet
