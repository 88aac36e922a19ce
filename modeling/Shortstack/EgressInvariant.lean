import Shortstack.ChainRelease
import Shortstack.ChainReplication
import Shortstack.Egress
import Shortstack.L2Forwarding
import Shortstack.LibHighWater

/-! Failover between the L2 and the L3 tier. An L3 worker remembers one number for each
L2 worker, so it may discard a command it has never accepted as soon as a later command
overtakes an earlier one. A row that was made tail and has not resent yet is where this
can happen; as long as such a row runs no new command, nothing is lost. -/
namespace Shortstack
open ChainModule L2Proxy HighWater Transition

namespace ChainNet
variable {σ : Type} {net : ChainNet σ} {m : ChainModule σ}

lemma NodeInv.pendingAfter_sorted (h : NodeInv m) (n : ℤ) :
    (m.pendingAfter n).Pairwise fun a b => a.seq.serverSeqNo ≤ b.seq.serverSeqNo := by
  let entries := (m.pending.entries.filter fun e => ¬ e.1 ≤ n).insertionSort fun a b => a.1 ≤ b.1
  have sorted : entries.Pairwise fun a b => a.1 ≤ b.1 := List.pairwise_insertionSort _ _
  have keyed : ∀ e ∈ entries, e.2.seq.serverSeqNo = e.1 := by
    intro e he
    have inside := (List.mem_filter.mp ((List.mem_insertionSort _).mp he)).1
    exact (h.pending e.1 e.2 (AList.mem_lookup_iff.mpr inside)).2
  change (entries.map fun e => e.2).Pairwise _
  rw [List.pairwise_map]
  refine sorted.imp_of_mem fun {a b} ha hb le => ?_
  rw [keyed a ha, keyed b hb]
  exact le

lemma NodeInv.mem_pendingAfter (h : NodeInv m) {n : ℤ} {op : ChainOp} (hop : op ∈ m.ran)
    (above : n < op.seq.serverSeqNo) (kept : m.pending.lookup op.seq.serverSeqNo ≠ none) :
    op ∈ m.pendingAfter n := by
  obtain ⟨other, found⟩ := Option.ne_none_iff_exists'.mp kept
  obtain ⟨ran, number⟩ := h.pending _ _ found
  obtain rfl := h.number_inj ran hop number
  simp only [pendingAfter, List.mem_map, List.mem_insertionSort, List.mem_filter]
  exact ⟨⟨_, other⟩, ⟨AList.mem_lookup_iff.mp found, by simpa using above⟩, rfl⟩

lemma Inv.mem_first {acked : Prop} (h : Inv acked net) (head : net.alive 0 = true) {i : ℕ}
    (alive : net.alive i = true) {op : ChainOp} (hop : op ∈ (net.node i).ran) :
    op ∈ (net.node 0).ran := by
  rcases Nat.eq_zero_or_pos i with rfl | pos
  · exact hop
  · exact (h.log 0 i pos head alive).subset hop

lemma Inv.mem_of_first {acked : Prop} (h : Inv acked net) (head : net.alive 0 = true) {i : ℕ}
    (alive : net.alive i = true) {op : ChainOp} (hop : op ∈ (net.node 0).ran)
    (le : op.seq.serverSeqNo ≤ (net.node i).chainSeqNo) : op ∈ (net.node i).ran := by
  rcases Nat.eq_zero_or_pos i with rfl | pos
  · exact hop
  · exact h.mem_of_number pos head alive hop le

lemma Inv.count_le_first {acked : Prop} (h : Inv acked net) (head : net.alive 0 = true) {i : ℕ}
    (alive : net.alive i = true) : (net.node i).chainSeqNo ≤ (net.node 0).chainSeqNo := by
  rcases Nat.eq_zero_or_pos i with rfl | pos
  · exact le_rfl
  · have := (h.log 0 i pos head alive).length_le
    rw [(h.node i).count, (h.node 0).count]
    omega

end ChainNet

namespace Egress

/-- Numbers of the commands for one L3 worker. -/
def wanted (cfg : L2Config) (net : ChainNet L2State) (x : ℕ × ℕ) : Set ℤ :=
  {n | ∃ op ∈ (net.node 0).ran, op.seq.serverSeqNo = n ∧ dest cfg op.args = some x}

/-- Numbers of this L2 worker that the L3 worker has accepted. -/
def accepted (cfg : L2Config) (l3 : ℕ × ℕ → L3State) (x : ℕ × ℕ) : Set ℤ :=
  {n | (l3 x).Accepted cfg.idx n}

/-- The invariant of one L2 worker in front of the L3 tier; `offered` is what is on its
links. -/
structure Safe (cfg : L2Config) (net : ChainNet L2State) (offered : ℕ → ℕ × ℕ → List Tag)
    (l3 : ℕ × ℕ → L3State) (resending : ℕ → Bool) : Prop where
  chain : ChainNet.Inv False net
  head : net.alive 0 = true
  connected : ∀ i, Connected cfg (net.node i)
  tagged : ∀ i x, ∀ t ∈ offered i x,
    t.idx = cfg.idx ∧ t.dedup = true ∧ t.number ∈ wanted cfg net x
  covered : ∀ i x,
    Covered (wanted cfg net x) (accepted cfg l3 x) ((offered i x).map Tag.number)
  mark : ∀ x, ∃ high, seenAt (l3 x).lastSeenSeq cfg.idx = some high ∧
    Closed (wanted cfg net x) (accepted cfg l3 x) high ∧ high ≤ (net.node 0).chainSeqNo
  known : ∀ x, accepted cfg l3 x ⊆ wanted cfg net x
  settled : ∀ i, net.alive i = true → (net.node i).isTail = true → resending i = false →
    ∀ x, ∀ n ∈ wanted cfg net x, n ≤ (net.node i).chainSeqNo →
      n ∈ accepted cfg l3 x ∨ n ∈ (offered i x).map Tag.number
  released : ChainNet.Released (fun n => ∃ x, n ∈ accepted cfg l3 x) net

variable {cfg : L2Config} {net : ChainNet L2State} {offered : ℕ → ℕ × ℕ → List Tag}
  {l3 : ℕ × ℕ → L3State} {resending : ℕ → Bool}

lemma Safe.wanted_le (h : Safe cfg net offered l3 resending) {x : ℕ × ℕ} {n : ℤ}
    (hn : n ∈ wanted cfg net x) : n ≤ (net.node 0).chainSeqNo := by
  obtain ⟨op, ran, rfl, _⟩ := hn
  exact ((h.chain.node 0).number_bounds ran).2

lemma Safe.wanted_dest (h : Safe cfg net offered l3 resending) {x : ℕ × ℕ} {op : ChainOp}
    (ran : op ∈ (net.node 0).ran) (hn : op.seq.serverSeqNo ∈ wanted cfg net x) :
    dest cfg op.args = some x := by
  obtain ⟨other, ran', number, goes⟩ := hn
  rwa [(h.chain.node 0).number_inj ran' ran number] at goes

lemma Safe.accepted_of_released (h : Safe cfg net offered l3 resending) {i : ℕ}
    (alive : net.alive i = true) {op : ChainOp} (ran : op ∈ (net.node i).ran)
    (gone : (net.node i).pending.lookup op.seq.serverSeqNo = none) {x : ℕ × ℕ}
    (goes : dest cfg op.args = some x) : op.seq.serverSeqNo ∈ accepted cfg l3 x := by
  obtain ⟨y, hy⟩ := h.released.pending i alive op ran gone
  have := h.wanted_dest (h.chain.mem_first h.head alive ran) (h.known y hy)
  rw [goes, Option.some.injEq] at this
  exact this ▸ hy

section Move
variable {ext : Outside L2Effect} {nl : NetLabel L2State} {res : NetResult L2State L2Effect}

/-- Only numbers above everything known so far become of interest in a step. -/
lemma wanted_step (chain : ChainNet.Inv False net)
    (taken : net.step (callbacks cfg) ext nl = some res) (chain' : ChainNet.Inv False res.net)
    (x : ℕ × ℕ) : ∀ n ∈ wanted cfg res.net x,
      n ∈ wanted cfg net x ∨ (net.node 0).chainSeqNo < n := by
  rintro _ ⟨op, ran, rfl, goes⟩
  obtain ⟨rest, grown⟩ := ChainNet.step_ran_extends taken 0
  obtain ⟨k, found, number⟩ := (chain'.node 0).mem_iff.mp ran
  have count := (chain.node 0).count
  rcases lt_or_ge k (net.node 0).ran.length with old | new
  · rw [← grown, List.getElem?_append_left old] at found
    exact .inl ⟨op, List.mem_of_getElem? found, rfl, goes⟩
  · exact .inr (by omega)

lemma wanted_mono (taken : net.step (callbacks cfg) ext nl = some res) (x : ℕ × ℕ) :
    wanted cfg net x ⊆ wanted cfg res.net x := by
  rintro _ ⟨op, ran, rfl, goes⟩
  exact ⟨op, (ChainNet.step_ran_extends taken 0).subset ran, rfl, goes⟩

lemma count_mono (chain : ChainNet.Inv False net)
    (taken : net.step (callbacks cfg) ext nl = some res) (chain' : ChainNet.Inv False res.net)
    (i : ℕ) : (net.node i).chainSeqNo ≤ (res.net.node i).chainSeqNo := by
  have := (ChainNet.step_ran_extends taken i).length_le
  rw [(chain.node i).count, (chain'.node i).count]
  omega

/-- A step of the worker's chain, with what it puts on the links of its row. Only a row that
is not resending may run a new command as tail, and a tail resends everything. -/
theorem Safe.move (h : Safe cfg net offered l3 resending)
    (taken : net.step (callbacks cfg) ext nl = some res) (user : net.keepsUser nl)
    (up : ∀ c k l op d, ext.out (.forward c k l op d) = true) (stays : ∀ i, nl ≠ .crash i)
    (given : ∀ i u seqs, nl = .ackFrom i u seqs → ∀ q ∈ seqs,
      ∃ x, q.serverSeqNo ∈ accepted cfg l3 x)
    (waits : net.runsNext nl → resending (nl.row net.acks) = false)
    (whole : ∀ i n, nl = .resend i → net.fetched i = some n → (net.node i).isTail = true → n = -1)
    {resending' : ℕ → Bool}
    (tracked : ∀ i, resending' i = false → (res.net.node i).isTail = true →
      (net.node i).isTail = true ∧
        (resending i = false ∨ nl = .resend i ∧ res.status = .returned)) :
    Safe cfg res.net
      (fun i x => offered i x ++ if i = nl.row net.acks then tags x res.outs else [])
      l3 resending' := by
  have chain' := h.chain.step (callbacks cfg) ext nl (fun no => no.elim) taken
  have live := ChainNet.step_alive taken stays
  have head : res.net.alive 0 = true := live ▸ h.head
  have fresher : ∀ x, ∀ n ∈ wanted cfg res.net x,
      n ∈ wanted cfg net x ∨ (net.node 0).chainSeqNo < n := wanted_step h.chain taken chain'
  have more : ∀ x, wanted cfg net x ⊆ wanted cfg res.net x := wanted_mono taken
  have climbs := count_mono h.chain taken chain'
  have covered' : ∀ i x,
      Covered (wanted cfg res.net x) (accepted cfg l3 x) ((offered i x).map Tag.number) := by
    intro i x
    refine (h.covered i x).insert fun m hm => (fresher x m hm).imp_right fun above n hn => ?_
    obtain ⟨t, ht, rfl⟩ := List.mem_map.mp hn
    exact (h.wanted_le (h.tagged i x t ht).2.2).trans above.le
  have mark' : ∀ x, ∃ high, seenAt (l3 x).lastSeenSeq cfg.idx = some high ∧
      Closed (wanted cfg res.net x) (accepted cfg l3 x) high ∧
        high ≤ (res.net.node 0).chainSeqNo := by
    intro x
    obtain ⟨high, found, closed, le⟩ := h.mark x
    refine ⟨high, found, closed.insert fun m hm => (fresher x m hm).imp_right fun above => ?_,
      le.trans (climbs 0)⟩
    omega
  have settled' : ∀ i, net.alive i = true → (net.node i).isTail = true → resending i = false →
      ∀ x, ∀ n ∈ wanted cfg res.net x, n ≤ (net.node i).chainSeqNo →
        n ∈ accepted cfg l3 x ∨ n ∈ (offered i x).map Tag.number := by
    intro i alive tail done x n hn le
    refine h.settled i alive tail done x n ?_ le
    rcases fresher x n hn with old | above
    · exact old
    · have := h.chain.count_le_first h.head alive
      omega
  have released' := h.released.step h.chain (callbacks cfg) ext nl given taken
  have connected' := ChainNet.Kept.step (fun _ => connected_kept cfg) h.connected
    (user.withUser h.connected) (fun i _ => connected_setup cfg _ _ (h.connected i).1) taken
  have known' : ∀ x, accepted cfg l3 x ⊆ wanted cfg res.net x := fun x => (h.known x).trans (more x)
  have log : ∀ i, res.net.alive i = true → ∀ op ∈ (res.net.node i).ran, ∀ x,
      dest cfg op.args = some x → op.seq.serverSeqNo ∈ wanted cfg res.net x :=
    fun i alive op ran x goes => ⟨op, chain'.mem_first head alive ran, rfl, goes⟩
  suffices parts : (∀ x, ∀ t ∈ tags x res.outs,
      t.idx = cfg.idx ∧ t.dedup = true ∧ t.number ∈ wanted cfg res.net x) ∧
      (∀ x, ((tags x res.outs).map Tag.number).Pairwise (· ≤ ·)) ∧
      (∀ x, ∀ n ∈ (tags x res.outs).map Tag.number, ∀ m ∈ wanted cfg res.net x, m < n →
        m ∈ accepted cfg l3 x ∨ m ∈ (offered (nl.row net.acks) x).map Tag.number ∨
          m ∈ (tags x res.outs).map Tag.number) ∧
      (∀ i, res.net.alive i = true → (res.net.node i).isTail = true → resending' i = false →
        ∀ x, ∀ n ∈ wanted cfg res.net x, n ≤ (res.net.node i).chainSeqNo →
          n ∈ accepted cfg l3 x ∨ n ∈ (offered i x).map Tag.number ∨
            i = nl.row net.acks ∧ n ∈ (tags x res.outs).map Tag.number) by
    obtain ⟨tagged, sorted, ready, settles⟩ := parts
    refine ⟨chain', head, connected', ?_, ?_, mark', known', ?_, released'⟩
    · intro i x t ht
      rcases List.mem_append.mp ht with old | new
      · obtain ⟨idx, dedup, hw⟩ := h.tagged i x t old
        exact ⟨idx, dedup, more x hw⟩
      · split at new
        · exact tagged x t new
        · simp at new
    · intro i x
      split
      · next row =>
        rw [List.map_append]
        exact (covered' i x).append (sorted x) (row ▸ ready x)
      · rw [List.append_nil]
        exact covered' i x
    · intro i alive tail done x n hn le
      rw [List.map_append, List.mem_append]
      rcases settles i alive tail done x n hn le with old | inside | ⟨row, new⟩
      · exact .inl old
      · exact .inr (.inl inside)
      · rw [if_pos row]
        exact .inr (.inr new)
  cases ChainNet.offers_of_step taken user h.connected up with
  | quiet outs still notResent =>
    simp only [outs, List.not_mem_nil, false_implies, implies_true, List.map_nil,
      List.Pairwise.nil, and_false, or_false, true_and]
    intro i alive tail done x n hn le
    obtain ⟨wasTail, wasDone | ⟨rfl, _⟩⟩ := tracked i done tail
    · exact settled' i (live ▸ alive) wasTail wasDone x n hn (still i tail ▸ le)
    · rw [notResent i rfl] at tail
      simp at tail
  | fresh i op row alive tail runs number count ran others outs =>
    have done := row ▸ waits runs
    have numbers : ∀ x, (tags x res.outs).map Tag.number =
        if dest cfg op.args = some x then [op.seq.serverSeqNo] else [] := by
      intro x
      rw [outs x]
      split <;> rfl
    simp only [numbers, row]
    refine ⟨fun x t ht => ?_, fun x => ?_, fun x n hn m hm less => ?_, ?_⟩
    · rw [outs x] at ht
      split at ht
      · next goes =>
        rw [List.mem_singleton.mp ht]
        exact ⟨rfl, rfl, log i (live ▸ alive) op ran x goes⟩
      · simp at ht
    · split <;> simp
    · split at hn
      · rw [List.mem_singleton.mp hn, number] at less
        exact (settled' i alive tail done x m hm (by omega)).imp_right .inl
      · simp at hn
    · intro j alive' tail' done' x n hn le
      rcases eq_or_ne j i with rfl | other
      · rw [count] at le
        rcases le_or_gt n (net.node j).chainSeqNo with old | new
        · exact (settled' j alive tail done x n hn old).imp_right .inl
        · obtain ⟨op', ran', rfl, goes⟩ := hn
          obtain rfl := (chain'.node 0).number_inj ran'
            (chain'.mem_first head (live ▸ alive) ran) (by omega)
          exact .inr (.inr ⟨rfl, by simp [goes]⟩)
      · rw [others j other] at le
        obtain ⟨wasTail, wasDone | ⟨rfl, _⟩⟩ := tracked j done' tail'
        · exact (settled' j (live ▸ alive') wasTail wasDone x n hn le).imp_right .inl
        · exact absurd row other
  | resent i n pre post label fetched alive tail still cut all outs =>
    subst label
    obtain rfl := whole i n rfl fetched tail
    have numbers : ∀ x, (tags x res.outs).map Tag.number =
        (pre.filter fun op => dest cfg op.args = some x).map fun op => op.seq.serverSeqNo := by
      intro x
      rw [outs x, List.map_map]
      rfl
    have sorted := (h.chain.node i).pendingAfter_sorted (-1)
    rw [cut, List.pairwise_append] at sorted
    have isPending : ∀ op ∈ pre, op ∈ (net.node i).ran := fun op hop =>
      h.chain.pending_mem (cut ▸ List.mem_append_left post hop)
    have resent : ∀ x, ∀ m ∈ wanted cfg res.net x, m ≤ (net.node i).chainSeqNo →
        m ∈ accepted cfg l3 x ∨ ∃ op ∈ pre ++ post, op.seq.serverSeqNo = m ∧
          dest cfg op.args = some x := by
      rintro x _ ⟨op, ran, rfl, goes⟩ le
      rw [(still 0).2] at ran
      have ran' := h.chain.mem_of_first h.head alive ran le
      by_cases gone : (net.node i).pending.lookup op.seq.serverSeqNo = none
      · exact .inl (h.accepted_of_released alive ran' gone goes)
      · have := ((h.chain.node i).number_bounds ran').1
        exact .inr ⟨op, cut ▸ (h.chain.node i).mem_pendingAfter ran' (by omega) gone, rfl, goes⟩
    simp only [numbers, NetLabel.row]
    refine ⟨fun x t ht => ?_, fun x => ?_, fun x n hn m hm less => ?_, ?_⟩
    · rw [outs x, List.mem_map] at ht
      obtain ⟨op, hop, rfl⟩ := ht
      obtain ⟨hop, goes⟩ := List.mem_filter.mp hop
      exact ⟨rfl, rfl, log i (live ▸ alive) op ((still i).2 ▸ isPending op hop) x
        (of_decide_eq_true goes)⟩
    · exact List.pairwise_map.mpr (sorted.1.sublist List.filter_sublist)
    · obtain ⟨op, hop, rfl⟩ := List.mem_map.mp hn
      have inPre := List.mem_of_mem_filter hop
      have le := ((h.chain.node i).number_bounds (isPending op inPre)).2
      rcases resent x m hm (by omega) with old | ⟨other, hother, rfl, goes⟩
      · exact .inl old
      · refine .inr (.inr (List.mem_map.mpr ⟨other, List.mem_filter.mpr ⟨?_, by simpa using goes⟩,
          rfl⟩))
        rcases List.mem_append.mp hother with before | after
        · exact before
        · have := sorted.2.2 op inPre other after
          omega
    · intro j alive' tail' done' x n hn le
      rw [(still j).1] at le
      obtain ⟨wasTail, wasDone | ⟨same, returned⟩⟩ := tracked j done' tail'
      · exact (settled' j (live ▸ alive') wasTail wasDone x n hn le).imp_right .inl
      · obtain rfl : i = j := by simpa using same
        rcases resent x n hn le with old | ⟨op, hop, rfl, goes⟩
        · exact .inl old
        · rw [all returned, List.append_nil] at hop
          exact .inr (.inr ⟨rfl, List.mem_map.mpr ⟨op, List.mem_filter.mpr ⟨hop, by simpa using goes⟩,
            rfl⟩⟩)

end Move

lemma Safe.fail (h : Safe cfg net offered l3 resending) {i : ℕ} (other : i ≠ 0) :
    Safe cfg (net.fail i) offered l3 resending where
  chain := h.chain.crash i
  head := by simpa [ChainNet.fail, other.symm] using h.head
  connected := h.connected
  tagged := h.tagged
  covered := h.covered
  mark := h.mark
  known := h.known
  settled j alive := by
    refine h.settled j ?_
    rcases eq_or_ne j i with rfl | hj
    · simp [ChainNet.fail] at alive
    · simpa [ChainNet.fail, hj] using alive
  released := h.released.fail i

lemma Safe.lose (h : Safe cfg net offered l3 resending) {i : ℕ} {x : ℕ × ℕ}
    (dead : net.alive i = false) {offered' : ℕ → ℕ × ℕ → List Tag}
    (kept : offered' i x <+: offered i x)
    (others : ∀ j y, ¬ (j = i ∧ y = x) → offered' j y = offered j y) :
    Safe cfg net offered' l3 resending := by
  have fewer : ∀ j y, offered' j y <+: offered j y := by
    intro j y
    rcases Classical.em (j = i ∧ y = x) with ⟨rfl, rfl⟩ | other
    · exact kept
    · rw [others j y other]
  refine ⟨h.chain, h.head, h.connected, ?_, ?_, h.mark, h.known, ?_, h.released⟩
  · exact fun j y t ht => h.tagged j y t ((fewer j y).subset ht)
  · exact fun j y => (h.covered j y).truncate ((fewer j y).map _)
  · intro j alive tail done y
    have other : ¬ (j = i ∧ y = x) := by
      rintro ⟨rfl, _⟩
      rw [dead] at alive
      simp at alive
    rw [others j y other]
    exact h.settled j alive tail done y

lemma Safe.congr (h : Safe cfg net offered l3 resending) {l3' : ℕ × ℕ → L3State}
    (same : ∀ x, accepted cfg l3' x = accepted cfg l3 x)
    (seen : ∀ x, seenAt (l3' x).lastSeenSeq cfg.idx = seenAt (l3 x).lastSeenSeq cfg.idx) :
    Safe cfg net offered l3' resending := by
  refine ⟨h.chain, h.head, h.connected, h.tagged, ?_, ?_, ?_, ?_, ?_⟩
  · simpa only [same] using h.covered
  · simpa only [same, seen] using h.mark
  · simpa only [same] using h.known
  · simpa only [same] using h.settled
  · simpa only [same] using h.released

end Egress

namespace L3Proxy
variable {s : L3State} {op : L3Operation} {clock : Option Int64}

lemma asyncOperation_of_seen {last : ℤ} (found : seenAt s.lastSeenSeq op.seqId.l2Idx = some last) :
    (op.dedup = true ∧ op.seqId.l2SeqNo ≤ last ∧ asyncOperation clock s op = .drop s) ∨
    ((op.dedup = true → last < op.seqId.l2SeqNo) ∧
      (asyncOperation clock s op).status = .returned ∧
      (∀ idx, seenAt (asyncOperation clock s op).state.lastSeenSeq idx =
        if idx = op.seqId.l2Idx then some (max last op.seqId.l2SeqNo)
        else seenAt s.lastSeenSeq idx) ∧
      ∀ idx n, (asyncOperation clock s op).state.Accepted idx n ↔
        s.Accepted idx n ∨ op.seqId.l2Idx = idx ∧ op.seqId.l2SeqNo = n) := by
  unfold asyncOperation
  simp only [found]
  split
  · next dup => exact .inl ⟨dup.1, dup.2, rfl⟩
  · next fresh =>
    refine .inr ⟨fun dedup => ?_, rfl, fun idx => ?_, fun idx n => ?_⟩
    · by_contra le
      exact fresh ⟨dedup, not_lt.mp le⟩
    · cases clock <;> exact seenAt_set found idx
    · cases clock <;> simp [L3State.Accepted, or_and_right, exists_or]

end L3Proxy

namespace Egress
variable {cfg : L2Config} {net : ChainNet L2State} {offered : ℕ → ℕ × ℕ → List Tag}
  {l3 : ℕ × ℕ → L3State} {resending : ℕ → Bool}

lemma Safe.pop (h : Safe cfg net offered l3 resending) {i : ℕ} {x : ℕ × ℕ} {t : Tag}
    {rest : List Tag} (first : offered i x = t :: rest) {offered' : ℕ → ℕ × ℕ → List Tag}
    (popped : offered' i x = rest)
    (others : ∀ j y, ¬ (j = i ∧ y = x) → offered' j y = offered j y) {l3' : ℕ × ℕ → L3State}
    (grow : ∀ y, accepted cfg l3 y ⊆ accepted cfg l3' y) (now : t.number ∈ accepted cfg l3' x)
    (known : ∀ y, accepted cfg l3' y ⊆ wanted cfg net y)
    (mark : ∀ y, ∃ high, seenAt (l3' y).lastSeenSeq cfg.idx = some high ∧
      Closed (wanted cfg net y) (accepted cfg l3' y) high ∧ high ≤ (net.node 0).chainSeqNo) :
    Safe cfg net offered' l3' resending := by
  refine ⟨h.chain, h.head, h.connected, ?_, ?_, mark, known, ?_, ?_⟩
  · intro j y u hu
    refine h.tagged j y u ?_
    rcases Classical.em (j = i ∧ y = x) with ⟨rfl, rfl⟩ | other
    · rw [first]
      exact List.mem_cons_of_mem _ (popped ▸ hu)
    · rwa [others j y other] at hu
  · intro j y
    have before := (h.covered j y).mono (Set.Subset.refl _) (grow y)
    rcases Classical.em (j = i ∧ y = x) with ⟨rfl, rfl⟩ | other
    · rw [first] at before
      rw [popped]
      exact before.pop fun _ => now
    · rwa [others j y other]
  · intro j alive tail done y n hn le
    rcases h.settled j alive tail done y n hn le with old | inside
    · exact .inl (grow y old)
    rcases Classical.em (j = i ∧ y = x) with ⟨rfl, rfl⟩ | other
    · rw [first, List.map_cons, List.mem_cons] at inside
      rcases inside with rfl | inside
      · exact .inl now
      · exact .inr (popped ▸ inside)
    · exact .inr (others j y other ▸ inside)
  · exact h.released.mono fun n ⟨y, hy⟩ => ⟨y, grow y hy⟩

/-- What an L3 worker does with the first operation on a link: if it discards it as a
duplicate, it has accepted the command of that number before. -/
lemma Safe.accept (h : Safe cfg net offered l3 resending) (clock : Option Int64) {i : ℕ} {x : ℕ × ℕ}
    (op : L3Operation) {rest : List Tag}
    (first : offered i x = ⟨op.seqId.l2Idx, op.seqId.l2SeqNo, op.dedup⟩ :: rest)
    (offered' : ℕ → ℕ × ℕ → List Tag) (popped : offered' i x = rest)
    (others : ∀ j y, ¬ (j = i ∧ y = x) → offered' j y = offered j y) :
    ((L3Proxy.asyncOperation clock (l3 x) op).status = .dropped →
      op.seqId.l2SeqNo ∈ accepted cfg l3 x) ∧
    Safe cfg net offered'
      (Function.update l3 x (L3Proxy.asyncOperation clock (l3 x) op).state) resending := by
  obtain ⟨own, dedup, hw⟩ := h.tagged i x _ (first ▸ List.mem_cons_self)
  dsimp only at own dedup hw
  obtain ⟨high, found, closed, le⟩ := h.mark x
  rcases @L3Proxy.asyncOperation_of_seen _ op clock high (own ▸ found) with
    ⟨_, old, result⟩ | ⟨newer, returned, seen, grown⟩
  · have before := closed _ hw old
    refine ⟨fun _ => before, ?_⟩
    rw [result, Outcome.drop_state, Function.update_eq_self]
    exact h.pop first popped others (fun _ => Set.Subset.refl _) before h.known h.mark
  · refine ⟨fun dropped => by simp [returned] at dropped, ?_⟩
    have at_x : ∀ n, n ∈ accepted cfg (Function.update l3 x
        (L3Proxy.asyncOperation clock (l3 x) op).state) x ↔
        n ∈ accepted cfg l3 x ∨ op.seqId.l2SeqNo = n := by
      intro n
      simp only [accepted, Function.update_self, Set.mem_ofPred_eq, grown, own, true_and]
    have elsewhere : ∀ y, y ≠ x → accepted cfg (Function.update l3 x
        (L3Proxy.asyncOperation clock (l3 x) op).state) y = accepted cfg l3 y := by
      intro y hy
      simp only [accepted, Function.update_of_ne hy]
    refine h.pop first popped others ?_ ((at_x _).mpr (.inr rfl)) ?_ ?_
    · intro y
      rcases eq_or_ne y x with rfl | other
      · exact fun n hn => (at_x n).mpr (.inl hn)
      · rw [elsewhere y other]
    · intro y
      rcases eq_or_ne y x with rfl | other
      · intro n hn
        rcases (at_x n).mp hn with old | rfl
        · exact h.known y old
        · exact hw
      · rw [elsewhere y other]
        exact h.known y
    · intro y
      rcases eq_or_ne y x with rfl | other
      · refine ⟨op.seqId.l2SeqNo, ?_, ?_, h.wanted_le hw⟩
        · rw [Function.update_self, seen, if_pos own.symm, max_eq_right (newer dedup).le]
        · have links := h.covered i y
          rw [first] at links
          exact links.closed (fun n hn => (at_x n).mpr (.inl hn)) ((at_x _).mpr (.inr rfl))
      · rw [elsewhere y other, Function.update_of_ne other]
        exact h.mark y

end Egress
end Shortstack
