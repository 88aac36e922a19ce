import Shortstack.IngestFlow

/-! The invariant of the L1 and L2 tiers without failures, over one step. -/
namespace Shortstack
open ChainModule ChainNet L1Proxy HighWater

namespace Ingest
variable {cfg : IngestConfig} {s : Ingest}

section Effects

/-- The slots of a batch carry ascending numbers, one range for each batch. -/
lemma numberSlot_ascending (c : L1Config) (clock : Option Int64) (idx n : ℤ)
    (batch : List L2Operation) :
    ((batch.mapIdx (numberSlot c clock idx n)).map fun op => op.seqId.l1SeqNo).Pairwise (· < ·) := by
  rw [List.pairwise_map, List.pairwise_iff_getElem]
  intro a b ha hb less
  simp only [List.getElem_mapIdx, numberSlot_l1SeqNo]
  omega

lemma mem_numberSlot {c : L1Config} {clock : Option Int64} {idx n : ℤ} {batch : List L2Operation}
    {op : L2Operation} (mem : op ∈ batch.mapIdx (numberSlot c clock idx n))
    (size : (batch.length : ℤ) = c.securityBatchSize) :
    ∃ o ∈ batch, op.seqId.l1Idx = idx ∧ op.key = o.key ∧ op.replica = o.replica ∧
      c.securityBatchSize * n ≤ op.seqId.l1SeqNo ∧
      op.seqId.l1SeqNo < c.securityBatchSize * (n + 1) := by
  obtain ⟨j, hj, rfl⟩ := List.mem_mapIdx.mp mem
  refine ⟨batch[j], List.getElem_mem hj, numberSlot_l1Idx .., numberSlot_key .., numberSlot_replica ..,
    ?_, ?_⟩
  · rw [numberSlot_l1SeqNo]
    omega
  · rw [numberSlot_l1SeqNo, mul_add]
    omega

variable {oracle : L1Oracle} {k i : ℕ} {op : ChainOp} {m : ChainModule L1State}
  {net : ChainNet L1State} {o : Outcome (ChainModule L1State) (Send L1Effect)}

lemma L1Runs.user (runs : L1Runs cfg s oracle k i op m net o) :
    o.state.user = (runCommand cfg.l1 m.user op.seq op.args).state := by
  rw [runs.adv.state, withUser_user]
  split
  · exact replicationComplete_state _ _ _
  · rfl

lemma L1Runs.isTail (runs : L1Runs cfg s oracle k i op m net o) :
    m.isTail = ((s.l1 k).node i).isTail := by
  rw [ChainModule.isTail, runs.agrees.role]
  rfl

lemma Calm.tail_iff (h : Calm cfg s) (inTier : k < cfg.l1Workers.sum)
    (alive : (s.l1 k).alive i = true) :
    ((s.l1 k).node i).isTail = true ↔ i + 1 = cfg.l1Rows := by
  rw [(h.l1 k).isTail_iff alive, h.rows1, if_pos inTier]

lemma Calm.alive_iff (h : Calm cfg s) :
    (s.l1 k).alive i = true ↔ k < cfg.l1Workers.sum ∧ i < cfg.l1Rows := by
  rw [(h.l1 k).alive, h.rows1, decide_eq_true_eq]
  split <;> simp_all

lemma Calm.alive2_iff (h : Calm cfg s) {c w i : ℕ} :
    ((s.l2 c).net w).alive i = true ↔ i < cfg.l2Rows := by
  rw [(h.l2 c w).alive, h.rows2, decide_eq_true_eq]

lemma L1Runs.outs (shape : Shaped cfg) (h : Calm cfg s)
    (runs : L1Runs cfg s oracle k i op m net o) :
    o.status = .returned ∧
    (i + 1 ≠ cfg.l1Rows ∧ outsOf o.sent = [] ∨
      i + 1 = cfg.l1Rows ∧ ∃ batch, L2Operation.deserializeBatch op.args = .ok batch ∧
        (batch.length : ℤ) = cfg.l1.securityBatchSize ∧
        (∀ x ∈ batch, Good cfg x.key x.replica) ∧
        (outsOf o.sent).map L1Effect.op =
          batch.mapIdx (numberSlot cfg.l1 oracle.clock k op.seq.serverSeqNo) ∧
        ∀ e ∈ outsOf o.sent, routeL2 cfg.l1 oracle.pick (fullClients cfg.l1) e.op =
          some (e.column, e.worker, e.row)) := by
  obtain ⟨inTier, inside⟩ := h.alive_iff.mp runs.alive
  have tail := h.tail_iff inTier runs.alive
  rw [← runs.isTail] at tail
  have status := runs.adv.status
  have outs := runs.adv.outs
  rcases Classical.em (i + 1 = cfg.l1Rows) with last | before
  · rw [if_pos (tail.mpr last)] at status outs
    obtain ⟨batch, parsed, size, good⟩ := runs.batch
    have iface : (runCommand cfg.l1 m.user op.seq op.args).state.l2Iface =
        some (fullClients cfg.l1) := by
      rw [show (runCommand cfg.l1 m.user op.seq op.args).state.l2Iface = m.user.l2Iface from rfl,
        runs.iface]
      exact h.iface k i runs.alive (runs.isTail ▸ tail.mpr last)
    have idx : (runCommand cfg.l1 m.user op.seq op.args).state.idx = k := by
      rw [show (runCommand cfg.l1 m.user op.seq op.args).state.idx = m.user.idx from rfl, runs.idx,
        h.idx, shape.idx k inTier i inside]
    have up : ∀ c w x n, cfg.l1.l2Workers[c]? = some n →
        ((s.l1 k).env (s.outside oracle.clock) m).out ⟨c, w, 0, x⟩ = true :=
      fun c w _ _ _ => h.alive2_iff.mpr shape.l2Rows
    obtain ⟨returned, sent, routed⟩ := @replicationComplete_full cfg.l1 oracle.pick _
      shape.l2Workers up _ iface op batch parsed size
    rw [idx] at sent
    refine ⟨status.trans returned, .inr ⟨last, batch, parsed, size, good, ?_, ?_⟩⟩
    · rw [outs]
      exact sent
    · rw [outs]
      exact routed
  · have follower : m.isTail = false := by
      rw [← Bool.not_eq_true]
      exact fun yes => before (tail.mp yes)
    simp only [follower, Bool.false_eq_true, if_false, List.append_nil] at status outs
    exact ⟨status, .inl ⟨before, outs⟩⟩

/-- The slots a row puts on the link to one L2 worker. -/
def slotsFor (outs : List L1Effect) (x : L2Target) : List L2Operation :=
  (outs.filter fun e => ⟨e.column, e.worker, e.row⟩ = x).map L1Effect.op

lemma slotsFor_sublist (outs : List L1Effect) (x : L2Target) :
    (slotsFor outs x).Sublist (outs.map L1Effect.op) := List.filter_sublist.map _

lemma L1Runs.slots (shape : Shaped cfg) (h : Calm cfg s)
    (runs : L1Runs cfg s oracle k i op m net o) (x : L2Target) :
    (slotsFor (outsOf o.sent) x ≠ [] → i + 1 = cfg.l1Rows ∧ x.row = 0 ∧
      ∃ n, cfg.l1.l2Workers[x.column]? = some n ∧ x.worker < n) ∧
    (∀ y ∈ slotsFor (outsOf o.sent) x, y.seqId.l1Idx = k ∧ Good cfg y.key y.replica ∧
      cfg.l1.securityBatchSize * op.seq.serverSeqNo ≤ y.seqId.l1SeqNo ∧
      y.seqId.l1SeqNo < cfg.l1.securityBatchSize * (op.seq.serverSeqNo + 1)) ∧
    ((slotsFor (outsOf o.sent) x).map fun y => y.seqId.l1SeqNo).Pairwise (· < ·) := by
  obtain ⟨-, ⟨-, none⟩ | ⟨last, batch, -, size, good, sent, routed⟩⟩ := runs.outs shape h
  · rw [none]
    simp [slotsFor]
  · refine ⟨fun some' => ⟨last, ?_⟩, fun y hy => ?_, ?_⟩
    · obtain ⟨y, hy⟩ := List.exists_mem_of_ne_nil _ some'
      obtain ⟨e, he, rfl⟩ := List.mem_map.mp hy
      obtain ⟨he, target⟩ := List.mem_filter.mp he
      obtain ⟨c, n, found, route⟩ := @routeL2_fullClients cfg.l1 oracle.pick shape.l2Workers e.op
      have same := (routed e he).symm.trans route
      simp only [Option.some.injEq, Prod.mk.injEq] at same
      have target : ⟨e.column, e.worker, e.row⟩ = x := by simpa using target
      rw [← target]
      refine ⟨same.2.2, n, by rw [same.1]; exact found, ?_⟩
      dsimp only
      rw [same.2.1]
      exact Nat.mod_lt _ (shape.workers n (List.mem_of_getElem? found))
    · have mem := (slotsFor_sublist _ x).subset hy
      rw [sent] at mem
      obtain ⟨o', ho', idx, key, replica, low, high⟩ := mem_numberSlot mem size
      rw [idx, key, replica]
      exact ⟨rfl, good o' ho', low, high⟩
    · have order := numberSlot_ascending cfg.l1 oracle.clock k op.seq.serverSeqNo batch
      rw [← sent] at order
      exact order.sublist ((slotsFor_sublist _ x).map _)

lemma Streams.isTail_eq {c : L1Config} {net net' : ChainNet L1State} (h : Streams c net)
    (h' : Streams c net') (rows : net'.rows = net.rows) (j : ℕ) :
    net'.alive j = net.alive j ∧ (net'.node j).isTail = (net.node j).isTail := by
  rw [ChainModule.isTail, ChainModule.isTail, h.alive, h'.alive, h.role, h'.role, rows]
  exact ⟨rfl, rfl⟩

lemma Calm.updateL1 (h : Calm cfg s) {net' : ChainNet L1State}
    {link' : ℕ → ℕ → L2Target → List L2Operation} (flow : Streams cfg.l1 net')
    (rows : net'.rows = (s.l1 k).rows)
    (idx : ∀ j, (net'.node j).user.idx = ((s.l1 k).node j).user.idx)
    (iface : ∀ j, (net'.node j).user.l2Iface = ((s.l1 k).node j).user.l2Iface)
    (queue : ∀ j, ∀ x ∈ (net'.node j).user.internalQueue, x.key ∈ cfg.l1.keyToNumberOfReplicas)
    (batches : ∀ x ∈ (net'.node 0).ran, GoodBatch cfg x.args)
    (other : ∀ k' row x, k' ≠ k → link' k' row x = s.link k' row x)
    (ends : ∀ row x, link' k row x ≠ [] → k < cfg.l1Workers.sum ∧ row + 1 = cfg.l1Rows ∧
      x.row = 0 ∧ ∃ n, cfg.l1.l2Workers[x.column]? = some n ∧ x.worker < n)
    (linked : ∀ row x, ∀ y ∈ link' k row x, y.seqId.l1Idx = k ∧ Good cfg y.key y.replica)
    (numbers : ∀ row x, k < cfg.l1Workers.sum → row + 1 = cfg.l1Rows → ∀ seen,
      Ascends seen ((s.link k row x).map fun y => y.seqId.l1SeqNo)
        (cfg.l1.securityBatchSize * (((s.l1 k).node row).chainSeqNo + 1)) →
      Ascends seen ((link' k row x).map fun y => y.seqId.l1SeqNo)
        (cfg.l1.securityBatchSize * ((net'.node row).chainSeqNo + 1))) :
    Calm cfg { s with l1 := Function.update s.l1 k net', link := link' } := by
  have self : Function.update s.l1 k net' k = net' := Function.update_self ..
  have rest : ∀ k', k' ≠ k → Function.update s.l1 k net' k' = s.l1 k' :=
    fun k' hk => Function.update_of_ne hk ..
  refine ⟨?_, ?_, h.l2, h.rows2, ?_, ?_, ?_, ?_, h.commands, ?_, ?_, ?_⟩
  · intro k'
    dsimp only
    rcases eq_or_ne k' k with rfl | hk
    · rw [self]
      exact flow
    · rw [rest k' hk]
      exact h.l1 k'
  · intro k'
    dsimp only
    rcases eq_or_ne k' k with rfl | hk
    · rw [self, rows]
      exact h.rows1 k'
    · rw [rest k' hk]
      exact h.rows1 k'
  · intro k' j
    dsimp only
    rcases eq_or_ne k' k with rfl | hk
    · rw [self, idx]
      exact h.idx k' j
    · rw [rest k' hk]
      exact h.idx k' j
  · intro k' j
    dsimp only
    rcases eq_or_ne k' k with rfl | hk
    · rw [self, iface, (Streams.isTail_eq (h.l1 k') flow rows j).1,
        (Streams.isTail_eq (h.l1 k') flow rows j).2]
      exact h.iface k' j
    · rw [rest k' hk]
      exact h.iface k' j
  · intro k' j
    dsimp only
    rcases eq_or_ne k' k with rfl | hk
    · rw [self]
      exact queue j
    · rw [rest k' hk]
      exact h.queue k' j
  · intro k'
    dsimp only
    rcases eq_or_ne k' k with rfl | hk
    · rw [self]
      exact batches
    · rw [rest k' hk]
      exact h.batches k'
  · intro k' row x
    dsimp only
    rcases eq_or_ne k' k with rfl | hk
    · exact ends row x
    · rw [other k' row x hk]
      exact h.ends k' row x
  · intro k' row x
    dsimp only
    rcases eq_or_ne k' k with rfl | hk
    · exact linked row x
    · rw [other k' row x hk]
      exact h.linked k' row x
  · intro k' row c w inTier last
    obtain ⟨seen, found, ascends⟩ := h.numbers k' row c w inTier last
    refine ⟨seen, found, ?_⟩
    dsimp only
    rcases eq_or_ne k' k with rfl | hk
    · rw [self]
      exact numbers row ⟨c, w, 0⟩ inTier last seen ascends
    · rw [rest k' hk, other k' row _ hk]
      exact ascends

theorem Calm.l1Run (shape : Shaped cfg) (h : Calm cfg s)
    (runs : L1Runs cfg s oracle k i op m net o) : Calm cfg (s.absorb k i (net.finish i o)) := by
  obtain ⟨inTier, -⟩ := h.alive_iff.mp runs.alive
  have self : (net.deposit i o).node i = o.state := by simp
  have rest : ∀ j, j ≠ i → (net.deposit i o).node j = (s.l1 k).node j := by
    intro j hj
    rw [deposit_node, Function.update_of_ne hj, runs.node]
  have number : op.seq.serverSeqNo = ((s.l1 k).node i).chainSeqNo + 1 :=
    runs.adv.number.trans (by rw [runs.agrees.count])
  have count : o.state.chainSeqNo = ((s.l1 k).node i).chainSeqNo + 1 := by
    rw [runs.adv.state, ← runs.agrees.count]
    rfl
  have ran : o.state.ran = ((s.l1 k).node i).ran ++ [op] := by
    rw [runs.adv.state, withUser_ran, record_ran, runs.agrees.ran]
  have link : ∀ row x, s.forward k i (outsOf o.sent) k row x =
      if row = i then s.link k row x ++ slotsFor (outsOf o.sent) x else s.link k row x := by
    intro row x
    simp only [forward, true_and, slotsFor]
  refine h.updateL1 runs.flow ?_ ?_ ?_ ?_ ?_ ?_ ?_ ?_ ?_
  · exact runs.rows
  · intro j
    rcases eq_or_ne j i with rfl | hj
    · rw [finish, self, runs.user]
      exact runs.idx
    · rw [finish, rest j hj]
  · intro j
    rcases eq_or_ne j i with rfl | hj
    · rw [finish, self, runs.user]
      exact runs.iface
    · rw [finish, rest j hj]
  · intro j
    rcases eq_or_ne j i with rfl | hj
    · rw [finish, self, runs.user]
      exact runs.queue
    · rw [finish, rest j hj]
      exact h.queue k j
  · intro x hx
    rcases eq_or_ne 0 i with rfl | hi
    · rw [finish, self, ran, List.mem_append, List.mem_singleton] at hx
      rcases hx with old | rfl
      · exact h.batches k x old
      · exact runs.batch
    · rw [finish, rest 0 hi] at hx
      exact h.batches k x hx
  · intro k' row x hk
    simp [forward, hk]
  · intro row x some'
    rw [finish, link] at some'
    split at some'
    · next same =>
      rcases Classical.em (slotsFor (outsOf o.sent) x = []) with none | new
      · rw [none, List.append_nil] at some'
        exact h.ends k row x some'
      · obtain ⟨last, target⟩ := (runs.slots shape h x).1 new
        exact ⟨inTier, same ▸ last, target⟩
    · exact h.ends k row x some'
  · intro row x y hy
    rw [finish, link] at hy
    split at hy
    · rcases List.mem_append.mp hy with old | new
      · exact h.linked k row x y old
      · obtain ⟨idx, good, -⟩ := (runs.slots shape h x).2.1 y new
        exact ⟨idx, good⟩
    · exact h.linked k row x y hy
  · intro row x _ last seen ascends
    rw [finish, link]
    rcases eq_or_ne row i with rfl | hi
    · obtain ⟨-, range, order⟩ := runs.slots shape h x
      rw [if_pos rfl, self, count, List.map_append]
      refine ascends.push order (fun n hn => ?_) ?_
      · obtain ⟨y, hy, rfl⟩ := List.mem_map.mp hn
        rw [← number]
        exact (range y hy).2.2
      · have := shape.size
        nlinarith
    · rw [if_neg hi, rest row hi]
      exact ascends

/-- Acknowledgements change counters and pending maps only. -/
structure L1Quiet (cfg : IngestConfig) (s : Ingest) (k i : ℕ) (net : ChainNet L1State)
    (o : Outcome (ChainModule L1State) (Send L1Effect)) : Prop where
  alive : (s.l1 k).alive i = true
  node : net.node = (s.l1 k).node
  rows : net.rows = (s.l1 k).rows
  frame : ∃ p a u, o.state = { (s.l1 k).node i with pending := p, ackQueue := a, user := u }
  user : ∃ p, o.state.user = { ((s.l1 k).node i).user with pendingCount := p }
  outs : outsOf o.sent = []
  flow : Streams cfg.l1 (net.deposit i o)

lemma L1Acks.quiet {label : IngestLabel} (h : Calm cfg s)
    (source : L1Acks cfg s label oracle k i net o) : L1Quiet cfg s k i net o := by
  have flow := (h.l1 k).flow oracle.pick s.reach
  cases source with
  | @chain _ _ n a found alive =>
    have effect := ackBatch_effect (s.callbacks cfg oracle)
      ((s.l1 k).env (s.outside oracle.clock) ((s.l1 k).node a.dst)) ((s.l1 k).node a.dst) a.seqs
      (P := fun _ => True) (by simp) (by simp)
    exact ⟨alive, rfl, rfl, effect.frame, ackBatch_user _ _, outs_ackBatch _ _,
      streams_of_flow ((flow.dropAck ((s.l1 k).acks.eraseIdx n)).acked effect rfl)⟩
  | @external _ _ _ seqs alive =>
    have effect := @externalAckBatch_effect cfg.l1
      ((s.l1 k).env (s.outside oracle.clock) ((s.l1 k).node i)) (fun _ => True)
      (s.callbacks cfg oracle) ((s.l1 k).node i) seqs (by simp) (by simp)
    obtain ⟨user, outs⟩ := @externalAckBatch_user cfg.l1 oracle.pick s.reach
      ((s.l1 k).env (s.outside oracle.clock) ((s.l1 k).node i)) ((s.l1 k).node i) seqs
    exact ⟨alive, rfl, rfl, effect.frame, user, outs, streams_of_flow (flow.acked effect rfl)⟩

theorem Calm.l1Quiet (h : Calm cfg s) (quiet : L1Quiet cfg s k i net o) :
    Calm cfg (s.absorb k i (net.finish i o)) := by
  obtain ⟨p, a, u, state⟩ := quiet.frame
  obtain ⟨count, user⟩ := quiet.user
  have self : (net.deposit i o).node i = o.state := by simp
  have rest : ∀ j, j ≠ i → (net.deposit i o).node j = (s.l1 k).node j := by
    intro j hj
    rw [deposit_node, Function.update_of_ne hj, quiet.node]
  have ran : ∀ j, ((net.deposit i o).node j).ran = ((s.l1 k).node j).ran ∧
      ((net.deposit i o).node j).chainSeqNo = ((s.l1 k).node j).chainSeqNo := by
    intro j
    rcases eq_or_ne j i with rfl | hj
    · rw [self, state]
      exact ⟨rfl, rfl⟩
    · rw [rest j hj]
      exact ⟨rfl, rfl⟩
  have link : s.forward k i (outsOf o.sent) = s.link := by rw [quiet.outs, forward_nil]
  unfold absorb finish
  dsimp only
  rw [link]
  refine h.updateL1 quiet.flow quiet.rows ?_ ?_ ?_ ?_ (fun _ _ _ _ => rfl) (h.ends k) (h.linked k) ?_
  · intro j
    rcases eq_or_ne j i with rfl | hj
    · rw [self, user]
    · rw [rest j hj]
  · intro j
    rcases eq_or_ne j i with rfl | hj
    · rw [self, user]
    · rw [rest j hj]
  · intro j
    rcases eq_or_ne j i with rfl | hj
    · rw [self, user]
      exact h.queue k j
    · rw [rest j hj]
      exact h.queue k j
  · rw [(ran 0).1]
    exact h.batches k
  · intro row x _ _ seen ascends
    rw [(ran row).2]
    exact ascends

end Effects

section Column
variable {c w i : ℕ} {op : ChainOp} {m : ChainModule L2State} {net : ChainNet L2State}
  {o : Outcome (ChainModule L2State) (Send L2Effect)} {ext : Outside L2Effect}

lemma Calm.updateL2 (h : Calm cfg s) {col : L2Column ℕ} {net' : ChainNet L2State}
    {link' : ℕ → ℕ → L2Target → List L2Operation}
    (nets : col.net = Function.update (s.l2 c).net w net')
    (flow : Flow (L2Proxy.replayable (cfg.l2 c w)) (L2Column.unseen (cfg.l2 c w)) net')
    (rows : net'.rows = ((s.l2 c).net w).rows)
    (commands : ∀ x ∈ (net'.node 0).ran, GoodArgs cfg x.args)
    (fewer : ∀ k row x, (link' k row x).Sublist (s.link k row x))
    (other : ∀ k row x, ¬ (x.column = c ∧ x.worker = w) → link' k row x = s.link k row x)
    (numbers : ∀ k row, k < cfg.l1Workers.sum → row + 1 = cfg.l1Rows →
      ∃ seen, seenAt (net'.node 0).user.lastSeenSeq k = some seen ∧
        Ascends seen ((link' k row ⟨c, w, 0⟩).map fun op => op.seqId.l1SeqNo)
          (cfg.l1.securityBatchSize * (((s.l1 k).node row).chainSeqNo + 1))) :
    Calm cfg { s with l2 := Function.update s.l2 c col, link := link' } := by
  have self : (Function.update s.l2 c col c).net w = net' := by simp [nets]
  have rest : ∀ c' w', ¬ (c' = c ∧ w' = w) →
      (Function.update s.l2 c col c').net w' = (s.l2 c').net w' := by
    intro c' w' away
    rcases eq_or_ne c' c with rfl | hc
    · simp [nets, show w' ≠ w from fun eq => away ⟨rfl, eq⟩]
    · simp [hc]
  have nonempty : ∀ k row x, link' k row x ≠ [] → s.link k row x ≠ [] := by
    intro k row x some' none
    have := fewer k row x
    rw [none, List.sublist_nil] at this
    exact some' this
  refine ⟨h.l1, h.rows1, ?_, ?_, h.idx, h.iface, h.queue, h.batches, ?_, ?_, ?_, ?_⟩
  · intro c' w'
    dsimp only
    rcases Classical.em (c' = c ∧ w' = w) with ⟨rfl, rfl⟩ | away
    · rw [self]
      exact flow
    · rw [rest c' w' away]
      exact h.l2 c' w'
  · intro c' w'
    dsimp only
    rcases Classical.em (c' = c ∧ w' = w) with ⟨rfl, rfl⟩ | away
    · rw [self, rows]
      exact h.rows2 c' w'
    · rw [rest c' w' away]
      exact h.rows2 c' w'
  · intro c' w'
    dsimp only [head]
    rcases Classical.em (c' = c ∧ w' = w) with ⟨rfl, rfl⟩ | away
    · rw [self]
      exact commands
    · rw [rest c' w' away]
      exact h.commands c' w'
  · exact fun k row x some' => h.ends k row x (nonempty k row x some')
  · exact fun k row x op hop => h.linked k row x op ((fewer k row x).subset hop)
  · intro k row c' w' inTier last
    dsimp only [head]
    rcases Classical.em (c' = c ∧ w' = w) with ⟨rfl, rfl⟩ | away
    · rw [self]
      exact numbers k row inTier last
    · rw [rest c' w' away, other k row ⟨c', w', 0⟩ away]
      exact h.numbers k row c' w' inTier last

lemma L2Runs.seen (runs : L2Runs cfg s ext c w i op m net o) :
    o.state.user.lastSeenSeq = m.user.lastSeenSeq.set op.seq.l1Idx.toNat op.seq.l1SeqNo := by
  have fits : L2Proxy.Fits op.args := runs.args.imp fun _ h => h.imp fun _ h => h.1
  have run := (L2Proxy.replayable (cfg.l2 c w)).run_view (((s.l2 c).net w).env ext m) m.user op fits
    runs.runs
  rw [runs.adv.state, withUser_user]
  split
  · exact ((L2Proxy.replayable (cfg.l2 c w)).complete _ _ _ _).trans run
  · exact run

lemma L2Runs.ran (runs : L2Runs cfg s ext c w i op m net o) :
    o.state.ran = (((s.l2 c).net w).node i).ran ++ [op] := by
  rw [runs.adv.state, withUser_ran, record_ran, runs.agrees.ran]

theorem Calm.l2Run (h : Calm cfg s) {label : IngestLabel}
    {link : ℕ → ℕ → L2Target → List L2Operation}
    (source : L2Source s label ext c w i op m net link)
    (runs : L2Runs cfg s ext c w i op m net o) :
    Calm cfg { s with
      l2 := Function.update s.l2 c ((s.l2 c).absorb (cfg.l2 c) w i (net.finish i o)).column
      link := link } := by
  have self : (net.deposit i o).node i = o.state := by simp
  have rest : ∀ j, j ≠ i → (net.deposit i o).node j = ((s.l2 c).net w).node j := by
    intro j hj
    rw [deposit_node, Function.update_of_ne hj, runs.node]
  have commands : ∀ x ∈ ((net.deposit i o).node 0).ran, GoodArgs cfg x.args := by
    intro x hx
    rcases eq_or_ne 0 i with rfl | hi
    · rw [self, runs.ran, List.mem_append, List.mem_singleton] at hx
      rcases hx with old | rfl
      · exact h.commands c w x old
      · exact runs.args
    · rw [rest 0 hi] at hx
      exact h.commands c w x hx
  cases source with
  | @chain _ _ _ j _ rest' alive popped =>
    refine h.updateL2 rfl runs.flow runs.rows commands (fun _ _ _ => .refl _) (fun _ _ _ _ => rfl) ?_
    intro k row inTier last
    rw [finish, rest 0 (by omega)]
    exact h.numbers k row c w inTier last
  | @link _ k row _ _ x rest' alive popped =>
    obtain ⟨idx, -⟩ := h.linked k row ⟨c, w, 0⟩ x (by simp [popped])
    refine h.updateL2 rfl runs.flow runs.rows commands (fun k' row' y => ?_) (fun k' row' y away => ?_)
      fun k' row' inTier last => ?_
    · unfold setLink
      split
      · next same =>
        obtain ⟨rfl, rfl, rfl⟩ := same
        rw [popped]
        exact List.sublist_cons_self x rest'
      · exact .refl _
    · unfold setLink
      rw [if_neg]
      rintro ⟨-, -, rfl⟩
      exact away ⟨rfl, rfl⟩
    · obtain ⟨seen, found, ascends⟩ := h.numbers k' row' c w inTier last
      obtain ⟨inTier₀, last₀, -⟩ := h.ends k row ⟨c, w, 0⟩ (by simp [popped])
      obtain ⟨seen₀, found₀, -⟩ := h.numbers k row c w inTier₀ last₀
      have row_eq : row' = row := by omega
      rw [finish, self, runs.seen, L2Proxy.numbered_l1Idx, L2Proxy.timed_l1Idx, L2Proxy.numbered_l1SeqNo,
        L2Proxy.timed_l1SeqNo, idx, seenAt_set found₀, row_eq]
      rcases eq_or_ne k' k with rfl | hk
      · rw [row_eq, popped, List.map_cons] at ascends
        refine ⟨_, if_pos rfl, ?_⟩
        rw [show s.setLink k' row ⟨c, w, 0⟩ rest' k' row ⟨c, w, 0⟩ = rest' by simp [setLink]]
        exact ascends.pop.2
      · refine ⟨seen, ?_, ?_⟩
        · rw [if_neg (by exact_mod_cast hk)]
          exact found
        · rw [show s.setLink k row ⟨c, w, 0⟩ rest' k' row ⟨c, w, 0⟩ = s.link k' row ⟨c, w, 0⟩ by
            simp [setLink, hk]]
          exact row_eq ▸ ascends

/-- A row of an L2 worker that runs nothing. -/
structure L2Quiet (cfg : IngestConfig) (s : Ingest) (c w i : ℕ) (net : ChainNet L2State)
    (o : Outcome (ChainModule L2State) (Send L2Effect)) : Prop where
  alive : ((s.l2 c).net w).alive i = true
  node : net.node = ((s.l2 c).net w).node
  rows : net.rows = ((s.l2 c).net w).rows
  ran : o.state.ran = (((s.l2 c).net w).node i).ran
  seen : o.state.user.lastSeenSeq = (((s.l2 c).net w).node i).user.lastSeenSeq
  flow : Flow (L2Proxy.replayable (cfg.l2 c w)) (L2Column.unseen (cfg.l2 c w)) (net.deposit i o)

lemma L2Acks.quiet {label : IngestLabel} (h : Calm cfg s)
    (source : L2Acks cfg s label ext c w i net o) : L2Quiet cfg s c w i net o := by
  have view := view_ackBatch (L2Proxy.replayable (cfg.l2 c w))
  cases source with
  | @chain _ _ _ n a found alive =>
    have effect := ackBatch_effect (L2Proxy.callbacks (cfg.l2 c w))
      (((s.l2 c).net w).env ext (((s.l2 c).net w).node a.dst)) (((s.l2 c).net w).node a.dst) a.seqs
      (P := fun _ => True) (by simp) (by simp)
    obtain ⟨_, _, _, state⟩ := effect.frame
    exact ⟨alive, rfl, rfl, by rw [state], view _ _ _,
      ((h.l2 c w).dropAck (((s.l2 c).net w).acks.eraseIdx n)).acked effect (view _ _ _)⟩
  | @external _ _ _ _ seqs alive =>
    have effect := ackBatch_effect (L2Proxy.callbacks (cfg.l2 c w))
      (((s.l2 c).net w).env ext (((s.l2 c).net w).node i)) (((s.l2 c).net w).node i)
      (seqs.map fun q => { q with serverSeqNo := q.l2SeqNo }) (P := fun _ => True) (by simp) (by simp)
    obtain ⟨_, _, _, state⟩ := effect.frame
    exact ⟨alive, rfl, rfl, by rw [L2Proxy.externalAckBatch, state], view _ _ _,
      (h.l2 c w).acked effect (view _ _ _)⟩

theorem Calm.l2Quiet (h : Calm cfg s) (quiet : L2Quiet cfg s c w i net o) :
    Calm cfg { s with
      l2 := Function.update s.l2 c ((s.l2 c).absorb (cfg.l2 c) w i (net.finish i o)).column } := by
  have same : ∀ j, ((net.deposit i o).node j).ran = (((s.l2 c).net w).node j).ran ∧
      ((net.deposit i o).node j).user.lastSeenSeq =
        (((s.l2 c).net w).node j).user.lastSeenSeq := by
    intro j
    rw [deposit_node, quiet.node]
    rcases eq_or_ne j i with rfl | hj
    · rw [Function.update_self]
      exact ⟨quiet.ran, quiet.seen⟩
    · rw [Function.update_of_ne hj]
      exact ⟨rfl, rfl⟩
  refine h.updateL2 rfl quiet.flow quiet.rows ?_ (fun _ _ _ => .refl _) (fun _ _ _ _ => rfl) ?_
  · rw [finish, (same 0).1]
    exact h.commands c w
  · intro k row inTier last
    rw [finish, (same 0).2]
    exact h.numbers k row c w inTier last

/-- One row of an L2 worker. -/
def l2Node (s : Ingest) (x : L2Target) : ChainModule L2State :=
  ((s.l2 x.column).net x.worker).node x.row

lemma l2Node_absorb (node : net.node = ((s.l2 c).net w).node)
    (link : ℕ → ℕ → L2Target → List L2Operation) (x : L2Target) :
    l2Node { s with
      l2 := Function.update s.l2 c ((s.l2 c).absorb (cfg.l2 c) w i (net.finish i o)).column
      link := link } x = if x = ⟨c, w, i⟩ then o.state else s.l2Node x := by
  obtain ⟨c', w', j⟩ := x
  unfold l2Node
  dsimp only
  rcases eq_or_ne c' c with rfl | hc
  · rcases eq_or_ne w' w with rfl | hw
    · rcases eq_or_ne j i with rfl | hj
      · simp [L2Column.absorb, finish]
      · simp [L2Column.absorb, finish, hj, node]
    · simp [L2Column.absorb, hw]
  · simp [hc]

lemma Calm.tail2_iff (h : Calm cfg s) (alive : ((s.l2 c).net w).alive i = true) :
    (((s.l2 c).net w).node i).isTail = true ↔ i + 1 = cfg.l2Rows := by
  rw [(h.l2 c w).isTail_iff alive, h.rows2]

end Column

theorem Calm.step (shape : Shaped cfg) (h : Calm cfg s) {label : IngestLabel} {r : IngestResult}
    (taken : SteadyCase cfg s label r) : Calm cfg r.state := by
  cases taken with
  | ignored => exact h
  | l1Run _ runs => exact h.l1Run shape runs
  | l1Acks source => exact h.l1Quiet (source.quiet h)
  | l2Run source runs => exact h.l2Run source runs
  | l2Acks source => exact h.l2Quiet (source.quiet h)

lemma connect_all {c : L1Config} {reach : ℕ → ℕ → Bool} (up : ∀ column, reach column 0 = true) :
    connect c reach = fullClients c := by
  have whole : c.l2Workers.zipIdx.takeWhile (fun x => x.1 == 0 || reach x.2 0) =
      c.l2Workers.zipIdx := by
    rw [List.takeWhile_eq_self_iff]
    intro x _
    simp [up]
  rw [connect, whole, fullClients]
  conv_rhs => rw [← List.zipIdx_map_fst 0 c.l2Workers, List.map_map]
  rfl

lemma setupCallback_user {c : L1Config} {reach : ℕ → ℕ → Bool} (role : ChainRole) (u : L1State) :
    (setupCallback c reach role u).idx = u.idx ∧
      (setupCallback c reach role u).internalQueue = u.internalQueue := by
  unfold setupCallback
  split <;> exact ⟨rfl, rfl⟩

lemma calm_start (shape : Shaped cfg) : Calm cfg (start cfg) := by
  have up : ∀ column : ℕ, (fun (_ row : ℕ) => decide (row < cfg.l2Rows)) column 0 = true :=
    fun _ => decide_eq_true shape.l2Rows
  have user : ∀ k i, (((start cfg).l1 k).node i).user.idx = cfg.l1Idx k i ∧
      (((start cfg).l1 k).node i).user.internalQueue = [] := by
    exact fun k i => setupCallback_user _ (L1Proxy.initState (cfg.l1Idx k i))
  refine ⟨?_, fun _ => rfl, ?_, fun _ _ => rfl, fun k i => (user k i).1, ?_, ?_, ?_, ?_, ?_, ?_, ?_⟩
  · exact fun k => streams_of_flow (Flow.start (replayable cfg.l1 _ _) _ _ _ fun _ _ => rfl)
  · exact fun c w => Flow.start (L2Proxy.replayable (cfg.l2 c w)) _ _ _ fun _ _ => rfl
  · intro k i _ tail
    have role : (initRole (if k < cfg.l1Workers.sum then cfg.l1Rows else 0) i).isTail = true := tail
    simp only [start, ChainNet.start, ChainModule.setup, L1Proxy.callbacks, setupCallback,
      L1Proxy.initState, role, Option.isNone_none, Bool.and_self, if_true]
    rw [connect_all up]
  · intro k i op hop
    rw [(user k i).2] at hop
    simp at hop
  · intro k op hop
    simp [start, ChainNet.start, ChainModule.setup] at hop
  · intro c w op hop
    simp [head, start, L2Column.start, ChainNet.start, ChainModule.setup] at hop
  · exact fun k row x some' => absurd rfl some'
  · intro k row x op hop
    simp [start] at hop
  · intro k row c w inTier _
    have seen : seenAt ((start cfg).head c w).user.lastSeenSeq k = some (-1) := by
      simp only [head, start, L2Column.start, ChainNet.start, ChainModule.setup, L2Proxy.callbacks,
        L2Proxy.setupCallback, L2Proxy.initState, shape.l1Workers]
      unfold seenAt
      rw [if_neg (by omega)]
      simp [inTier]
    refine ⟨-1, seen, by simp [start], ?_⟩
    have size := shape.size
    simp only [start, List.map_nil, List.mem_singleton, forall_eq, ChainNet.start,
      ChainModule.setup]
    omega

end Ingest
end Shortstack
