import Shortstack.PipelineFlow
import Shortstack.StorageSpec

/-! The pipeline while none of its instances fails. The chains of the L2 tier number their
commands, their tails forward them in that order, and every L3 worker sees the numbers of an
L2 worker ascend: no duplicate test fires and no request is refused in any tier. -/
namespace Shortstack
open ChainModule ChainNet HighWater Transition

lemma L2Proxy.routeL3_l3Columns {cfg : L2Config} (connected : cfg.l3Workers ≠ []) (label : String) :
    ∃ c n, cfg.l3Workers[c]? = some n ∧
      routeL3 (l3Columns cfg) label = some (c, murmurHash64A label 1995 % n) := by
  have size : (l3Columns cfg).length = cfg.l3Workers.length := by simp [l3Columns]
  have inside := consistentHash_lt label (List.length_pos_of_ne_nil connected)
  refine ⟨consistentHash label cfg.l3Workers.length, _, List.getElem?_eq_getElem inside, ?_⟩
  rw [routeL3, size]
  simp [l3Columns, List.getElem?_eq_getElem inside]

lemma L2Proxy.connectAcks_state (m : ChainModule L2State) (column row n : ℕ) :
    ∃ u, (connectAcks m column row n).state = m.withUser u ∧
      u.lastSeenSeq = m.user.lastSeenSeq ∧ u.l3Iface = m.user.l3Iface ∧
      (connectAcks m column row n).sent = [] := by
  unfold connectAcks
  split
  · exact ⟨_, rfl, rfl, rfl, rfl⟩
  · exact ⟨m.user, rfl, rfl, rfl, rfl⟩

namespace Ingest

variable {cfg : IngestConfig} {s : Ingest} {c w i : ℕ} {net : ChainNet L2State}
  {o : Outcome (ChainModule L2State) (Send L2Effect)}

lemma arrivals_acks (acks : ∀ e ∈ outsOf o.sent, ∃ batch, e = L2Effect.ackL1 batch) (v j : ℕ)
    (y : ℕ × ℕ) :
    Egress.arrivals ((s.l2 c).absorb (cfg.l2 c) w i (net.finish i o)).sent v j y = [] := by
  have tagged := Egress.arrivals_absorb (cfg.l2 c) (s.l2 c) w i (net.finish i o) v j y
  have none : L2Proxy.tags y (net.finish i o).outs = [] := by
    refine List.filterMap_eq_nil_iff.mpr fun e he => ?_
    obtain ⟨batch, rfl⟩ := acks e he
    rfl
  rw [none, ite_self] at tagged
  exact List.map_eq_nil_iff.mp tagged

lemma L2Acks.outs {label : IngestLabel} {ext : Outside L2Effect}
    (source : L2Acks cfg s label ext c w i net o) :
    (∀ e ∈ outsOf o.sent, ∃ batch, e = L2Effect.ackL1 batch) ∧
      o.state.user.l3Iface = (((s.l2 c).net w).node i).user.l3Iface := by
  cases source with
  | chain =>
    exact ⟨L2Proxy.outs_ackBatch (cfg.l2 c w) _ _ _, L2Proxy.ackBatch_l3Iface (cfg.l2 c w) _ _ _⟩
  | external =>
    exact ⟨L2Proxy.outs_ackBatch (cfg.l2 c w) _ _ _, L2Proxy.ackBatch_l3Iface (cfg.l2 c w) _ _ _⟩

lemma L2Runs.l3Iface {ext : Outside L2Effect} {op : ChainOp} {m : ChainModule L2State}
    (runs : L2Runs cfg s ext c w i op m net o) :
    o.state.user.l3Iface = (((s.l2 c).net w).node i).user.l3Iface := by
  rw [runs.adv.state, withUser_user, ← runs.user]
  have run := @L2Proxy.runCommand_l3Iface (cfg.l2 c w) m.user op.seq op.args
  split
  · exact (congrArg L2State.l3Iface (L2Proxy.forwardRequest_state (cfg.l2 c w) _ _ _ _ _)).trans run
  · exact run

end Ingest

namespace Pipeline
variable (cfg : PipelineConfig)

structure Steady (s : Pipeline) : Prop where
  calm : Ingest.Calm cfg.toIngestConfig s.ingest
  up : ∀ column, s.l3Alive column = decide (column < cfg.l3Workers.length)
  iface : ∀ x : L2Target, x.row + 1 = cfg.l2Rows →
    (s.ingest.l2Node x).user.l3Iface = some (L2Proxy.l3Columns (cfg.l2 x.column x.worker))
  used : ∀ x, (s.ingest.l2Node x).ran ≠ [] → InL2 cfg x.column x.worker
  ends : ∀ x y, s.link x y ≠ [] → InL2 cfg x.column x.worker ∧ x.row + 1 = cfg.l2Rows
  linked : ∀ x y, ∀ op ∈ s.link x y,
    op.seqId.l2Idx = (cfg.l2 x.column x.worker).idx ∧ op.dedup = true
  numbers : ∀ x y, InL2 cfg x.column x.worker → x.row + 1 = cfg.l2Rows →
    ∃ seen, seenAt (s.l3 y).filter.lastSeenSeq (cfg.l2 x.column x.worker).idx = some seen ∧
      Ascends seen ((s.link x y).map fun op => op.seqId.l2SeqNo)
        ((s.ingest.l2Node x).chainSeqNo + 1)

variable {cfg} {s : Pipeline}

lemma Enters.frame {label : PipelineLabel} {s₀ : Pipeline} {column : ℕ} {il : IngestLabel}
    (source : Enters s label s₀ column il) :
    s₀.ingest = s.ingest ∧ s₀.link = s.link ∧ s₀.l3 = s.l3 ∧ s₀.l3Alive = s.l3Alive := by
  cases source <;> exact ⟨rfl, rfl, rfl, rfl⟩

lemma Enters.runs {label : PipelineLabel} {s₀ : Pipeline} {column : ℕ} {il : IngestLabel}
    (source : Enters s label s₀ column il) {ext : Outside L2Effect} {c w i : ℕ} {op : ChainOp}
    {m : ChainModule L2State} {net : ChainNet L2State} {link : ℕ → ℕ → L2Target → List L2Operation}
    (comes : Ingest.L2Source s.ingest il ext c w i op m net link) :
    column = c ∧ ∃ clock, ext = s.outside clock := by
  cases source with
  | l2Request =>
    cases comes
    exact ⟨rfl, _, rfl⟩
  | l2 =>
    cases comes
    exact ⟨rfl, _, rfl⟩
  | client | l1 | l2Ack | l1Ack => cases comes

lemma Enters.acks {label : PipelineLabel} {s₀ : Pipeline} {column : ℕ} {il : IngestLabel}
    (source : Enters s label s₀ column il) {ext : Outside L2Effect} {c w i : ℕ}
    {net : ChainNet L2State} {o : Outcome (ChainModule L2State) (Send L2Effect)}
    (comes : Ingest.L2Acks cfg.toIngestConfig s.ingest il ext c w i net o) :
    column = c ∧ ∃ clock, ext = s.outside clock := by
  cases source with
  | l2 =>
    cases comes <;> exact ⟨rfl, _, rfl⟩
  | l2Ack =>
    cases comes
    exact ⟨rfl, _, rfl⟩
  | client | l1 | l2Request | l1Ack => cases comes

section Runs
variable {clock : Option Int64} {c w i : ℕ} {op : ChainOp} {m : ChainModule L2State}
  {net : ChainNet L2State} {o : Outcome (ChainModule L2State) (Send L2Effect)}

/-- The tail of an L2 worker forwards every command it runs. -/
theorem Steady.forwards (shape : Shaped cfg) (h : Steady cfg s)
    (runs : Ingest.L2Runs cfg.toIngestConfig s.ingest (s.outside clock) c w i op m net o) :
    o.status = .returned ∧
    (i + 1 ≠ cfg.l2Rows ∧
        ((s.ingest.l2 c).absorb (cfg.l2 c) w i (net.finish i o)).sent = [] ∨
      i + 1 = cfg.l2Rows ∧ ∃ p rest l y n, L2Operation.deserialize op.args = .ok (p, rest) ∧
        Ingest.Good cfg.toIngestConfig p.key p.replica ∧
        (cfg.l2 c w).replicaToLabel.lookup (L2Proxy.labelName p) = some l ∧
        L2Proxy.routeL3 (L2Proxy.l3Columns (cfg.l2 c w)) (toString l) = some y ∧
        cfg.l3Workers[y.1]? = some n ∧ y.2 = murmurHash64A (toString l) 1995 % n ∧
        ((s.ingest.l2 c).absorb (cfg.l2 c) w i (net.finish i o)).sent =
          [⟨w, i, .request y.1 y.2 (L2Proxy.l3Operation (cfg.l2 c w) clock
            (L2Column.afterPut (cfg.l2 c w) ((s.ingest.l2 c).cache i) op) op.seq p l true)⟩]) := by
  have tail := runs.isTail.trans (Bool.eq_iff_iff.mpr ((h.calm.tail2_iff runs.alive).trans
    (decide_eq_true_iff (p := i + 1 = cfg.l2Rows)).symm))
  rcases Classical.em (i + 1 = cfg.l2Rows) with last | before
  · have iface : m.user.l3Iface = some (L2Proxy.l3Columns (cfg.l2 c w)) := by
      rw [runs.user]
      exact h.iface ⟨c, w, i⟩ last
    obtain ⟨p, rest, l, parsed, good, labelled, sent, status⟩ :=
      runs.forwarded shape.ingest (fun _ _ _ _ _ => rfl) (tail.trans (decide_eq_true last)) iface
    have connected : (cfg.l2 c w).l3Workers ≠ [] := shape.connected c w ▸ shape.l3Workers
    obtain ⟨column, n, found, route⟩ := L2Proxy.routeL3_l3Columns connected (toString l)
    rw [shape.connected] at found
    have up : s.l3Alive column = true := by
      rw [h.up]
      exact decide_eq_true (List.getElem?_eq_some_iff.mp found).1
    have reached : L2Proxy.target s.l3Alive (L2Proxy.l3Columns (cfg.l2 c w)) l =
        some (column, murmurHash64A (toString l) 1995 % n) := by
      rw [L2Proxy.target, route, Option.filter_some, if_pos up]
    rw [reached] at sent status
    exact ⟨status.mpr rfl, .inr ⟨last, p, rest, l, _, n, parsed, good, labelled, route, found, rfl,
      sent⟩⟩
  · obtain ⟨status, sent⟩ := runs.absorbed.2 (tail.trans (decide_eq_false before))
    exact ⟨status, .inl ⟨before, sent⟩⟩

end Runs

section Steps
variable {c w i : ℕ} {s₀ : Pipeline} {ir : IngestResult} {node : ChainModule L2State}

lemma Steady.absorb (h : Steady cfg s) (new : ℕ × ℕ → List L3Operation)
    (link₀ : s₀.link = s.link) (l3₀ : s₀.l3 = s.l3) (alive₀ : s₀.l3Alive = s.l3Alive)
    (calm : Ingest.Calm cfg.toIngestConfig ir.state)
    (nodes : ∀ x, ir.state.l2Node x = if x = ⟨c, w, i⟩ then node else s.ingest.l2Node x)
    (arrive : ∀ (x : L2Target) y,
      (if x.column = c then Egress.arrivals ir.sent x.worker x.row y else []) =
        if x = ⟨c, w, i⟩ then new y else [])
    (iface : node.user.l3Iface = (s.ingest.l2Node ⟨c, w, i⟩).user.l3Iface)
    (used : node.ran ≠ [] → InL2 cfg c w)
    (ends : ∀ y, new y ≠ [] → InL2 cfg c w ∧ i + 1 = cfg.l2Rows)
    (linked : ∀ y, ∀ op ∈ new y, op.seqId.l2Idx = (cfg.l2 c w).idx ∧ op.dedup = true)
    (order : ∀ y, ((new y).map fun op => op.seqId.l2SeqNo).Pairwise (· < ·))
    (range : ∀ y, ∀ op ∈ new y, (s.ingest.l2Node ⟨c, w, i⟩).chainSeqNo < op.seqId.l2SeqNo ∧
      op.seqId.l2SeqNo ≤ node.chainSeqNo)
    (count : (s.ingest.l2Node ⟨c, w, i⟩).chainSeqNo ≤ node.chainSeqNo) :
    Steady cfg (s₀.absorb c ir).state := by
  have links : ∀ x y, (s₀.absorb c ir).state.link x y =
      s.link x y ++ if x = ⟨c, w, i⟩ then new y else [] := by
    intro x y
    rw [absorb_link, arrive, link₀]
  refine ⟨?_, ?_, ?_, ?_, ?_, ?_, ?_⟩
  · rw [absorb_ingest]
    exact calm
  · rw [absorb_l3Alive, alive₀]
    exact h.up
  · intro x last
    rw [absorb_ingest, nodes]
    split
    · next here =>
      rw [iface, ← here]
      exact h.iface x last
    · exact h.iface x last
  · intro x ran
    rw [absorb_ingest, nodes] at ran
    split at ran
    · next here =>
      rw [here]
      exact used ran
    · exact h.used x ran
  · intro x y some'
    rw [links] at some'
    split at some'
    · next here =>
      rcases Classical.em (new y = []) with none | new'
      · rw [none, List.append_nil] at some'
        exact h.ends x y some'
      · rw [here]
        exact ends y new'
    · rw [List.append_nil] at some'
      exact h.ends x y some'
  · intro x y op hop
    rw [links] at hop
    rcases List.mem_append.mp hop with old | fresh
    · exact h.linked x y op old
    · split at fresh
      · next here =>
        rw [here]
        exact linked y op fresh
      · simp at fresh
  · intro x y inTier last
    obtain ⟨seen, found, ascends⟩ := h.numbers x y inTier last
    refine ⟨seen, ?_, ?_⟩
    · rw [absorb_l3, l3₀]
      exact found
    · rw [links, absorb_ingest, nodes]
      split
      · next here =>
        rw [here] at ascends ⊢
        rw [List.map_append]
        refine ascends.push (order y) (fun n hn => ?_) (by omega)
        obtain ⟨op, hop, rfl⟩ := List.mem_map.mp hn
        have := range y op hop
        exact ⟨by omega, by omega⟩
      · rw [List.append_nil]
        exact ascends

lemma Steady.keep (h : Steady cfg s) {s' : Pipeline}
    (calm : Ingest.Calm cfg.toIngestConfig s'.ingest)
    (nodes : ∀ x, s'.ingest.l2Node x = s.ingest.l2Node x) (link : s'.link = s.link)
    (filter : ∀ y, (s'.l3 y).filter = (s.l3 y).filter) (alive : s'.l3Alive = s.l3Alive) :
    Steady cfg s' := by
  refine ⟨calm, alive ▸ h.up, fun x => ?_, fun x => ?_, link ▸ h.ends, link ▸ h.linked,
    fun x y => ?_⟩
  · rw [nodes]
    exact h.iface x
  · rw [nodes]
    exact h.used x
  · rw [nodes, link, filter]
    exact h.numbers x y

lemma arrivals_request (y : ℕ × ℕ) (op : L3Operation) (x : L2Target) (y' : ℕ × ℕ) :
    (if x.column = c then Egress.arrivals [⟨w, i, .request y.1 y.2 op⟩] x.worker x.row y' else []) =
      if x = ⟨c, w, i⟩ then if y' = y then [op] else [] else [] := by
  obtain ⟨c', w', j⟩ := x
  by_cases here : c' = c ∧ w' = w ∧ j = i
  · obtain ⟨rfl, rfl, rfl⟩ := here
    by_cases hit : y' = y
    · simp [Egress.arrivals, hit]
    · simp [Egress.arrivals, hit, Ne.symm hit]
  · by_cases column : c' = c
    · have away : ¬ (w = w' ∧ i = j ∧ (y.1, y.2) = y') :=
        fun same => here ⟨column, same.1.symm, same.2.1.symm⟩
      have other : ¬ (⟨c', w', j⟩ : L2Target) = ⟨c, w, i⟩ := by
        simpa using here
      simp only [Egress.arrivals, List.filterMap_cons, if_neg away, List.filterMap_nil, ite_self,
        if_neg other]
    · simp [column]

lemma Steady.ingestStep (shape : Shaped cfg) (h : Steady cfg s) {label : PipelineLabel} {column : ℕ}
    {il : IngestLabel} (source : Enters s label s₀ column il)
    (taken : Ingest.SteadyCase cfg.toIngestConfig s.ingest il ir) :
    Steady cfg (s₀.absorb column ir).state := by
  have calm := h.calm.step shape.ingest taken
  obtain ⟨-, link₀, l3₀, alive₀⟩ := source.frame
  have unchanged : ir.sent = [] → ir.state.l2 = s.ingest.l2 →
      Steady cfg (s₀.absorb column ir).state := by
    intro sent l2
    refine h.keep ?_ (fun x => ?_) ?_ (fun y => ?_) ?_
    · rw [absorb_ingest]
      exact calm
    · rw [absorb_ingest, Ingest.l2Node, l2]
      rfl
    · funext x y
      rw [absorb_link, sent, link₀]
      simp [Egress.arrivals]
    · rw [absorb_l3, l3₀]
    · rw [absorb_l3Alive, alive₀]
  cases taken with
  | ignored => exact unchanged rfl rfl
  | l1Run => exact unchanged rfl rfl
  | l1Acks => exact unchanged rfl rfl
  | @l2Acks _ ext c w i net o comes =>
    obtain ⟨rfl, -⟩ := source.acks comes
    have quiet := comes.quiet h.calm
    obtain ⟨_, _, _, frame⟩ : ∃ p a u, o.state = { ((s.ingest.l2 column).net w).node i with
        pending := p, ackQueue := a, user := u } := by
      cases comes with
      | chain => exact (ackBatch_effect _ _ _ _ (P := fun _ => True) (by simp) (by simp)).frame
      | external => exact (ackBatch_effect _ _ _ _ (P := fun _ => True) (by simp) (by simp)).frame
    have count : o.state.chainSeqNo = (s.ingest.l2Node ⟨column, w, i⟩).chainSeqNo := by
      rw [frame]
      rfl
    refine h.absorb (fun _ => []) link₀ l3₀ alive₀ calm (fun x => ?_) (fun x y => ?_) comes.outs.2
      ?_ ?_ ?_ ?_ ?_ count.ge
    · exact Ingest.l2Node_absorb quiet.node s.ingest.link x
    · rw [Ingest.arrivals_acks comes.outs.1, ite_self, ite_self]
    · rw [quiet.ran]
      exact h.used ⟨column, w, i⟩
    · simp
    · simp
    · simp
    · simp
  | @l2Run _ ext c w i op m net link o comes runs =>
    obtain ⟨rfl, clock, rfl⟩ := source.runs comes
    have number : op.seq.serverSeqNo = (s.ingest.l2Node ⟨column, w, i⟩).chainSeqNo + 1 :=
      runs.adv.number.trans (by rw [runs.agrees.count]; rfl)
    have count : o.state.chainSeqNo = (s.ingest.l2Node ⟨column, w, i⟩).chainSeqNo + 1 := by
      rw [runs.adv.state, ← number, runs.adv.number]
      rfl
    have inTier : InL2 cfg column w := by
      rcases runs.first with rfl | ran
      · cases comes with
        | @link _ k row _ _ _ _ alive popped =>
          obtain ⟨-, -, -, n, found, less⟩ := h.calm.ends k row ⟨column, w, 0⟩ (by simp [popped])
          exact ⟨n, found, less⟩
      · exact h.used ⟨column, w, 0⟩ (List.ne_nil_of_mem ran)
    have nodes := @Ingest.l2Node_absorb cfg.toIngestConfig s.ingest column w i net o runs.node link
    obtain ⟨-, ⟨before, sent⟩ | ⟨last, p, rest, l, y, n, -, -, -, -, -, -, sent⟩⟩ :=
      h.forwards shape runs
    · refine h.absorb (fun _ => []) link₀ l3₀ alive₀ calm nodes (fun x y => ?_) runs.l3Iface
        (fun _ => inTier) ?_ ?_ ?_ ?_ (by omega)
      · rw [sent]
        simp [Egress.arrivals]
      · simp
      · simp
      · simp
      · simp
    · generalize made : L2Proxy.l3Operation (cfg.l2 column w) clock
        (L2Column.afterPut (cfg.l2 column w) ((s.ingest.l2 column).cache i) op) op.seq p l true =
        next at sent
      have idx : next.seqId.l2Idx = (cfg.l2 column w).idx ∧ next.dedup = true := by
        rw [← made]
        exact ⟨rfl, rfl⟩
      have seqNo : next.seqId.l2SeqNo = op.seq.serverSeqNo := by
        rw [← made]
        rfl
      have mem : ∀ y' op', op' ∈ (if y' = y then [next] else []) → op' = next := by
        intro y' op' hop
        split at hop
        · exact List.mem_singleton.mp hop
        · simp at hop
      refine h.absorb (fun y' => if y' = y then [next] else []) link₀ l3₀ alive₀ calm nodes
        (fun x y' => ?_) runs.l3Iface (fun _ => inTier) (fun _ _ => ⟨inTier, last⟩)
        (fun y' op' hop => ?_) (fun y' => ?_) (fun y' op' hop => ?_) (by omega)
      · dsimp only
        rw [sent]
        exact arrivals_request y next x y'
      · rw [mem y' op' hop]
        exact idx
      · split <;> simp
      · rw [mem y' op' hop, seqNo]
        exact ⟨by omega, by omega⟩

lemma Steady.connectAcks_quiet (h : Steady cfg s) {x : L2Target} (column row n : ℕ)
    (alive : ((s.ingest.l2 x.column).net x.worker).alive x.row = true) :
    Ingest.L2Quiet cfg.toIngestConfig s.ingest x.column x.worker x.row
      ((s.ingest.l2 x.column).net x.worker) (L2Proxy.connectAcks
        (((s.ingest.l2 x.column).net x.worker).node x.row) column row n) := by
  obtain ⟨u, state, seen, iface, sent⟩ := L2Proxy.connectAcks_state
    (((s.ingest.l2 x.column).net x.worker).node x.row) column row n
  have flow := h.calm.l2 x.column x.worker
  have node := flow.node x.row
  refine ⟨alive, rfl, rfl, by rw [state]; rfl, by rw [state]; exact seen, ?_⟩
  refine flow.quiet ?_ ?_ ?_ ?_ ?_ ?_
  · rw [state]
    rfl
  · rw [state]
    rfl
  · rw [state]
    exact ⟨node.count, node.numbers, node.pending⟩
  · rw [state]
    rfl
  · rw [state]
    exact seen
  · rw [sent]
    rfl

lemma Steady.connectAcks (h : Steady cfg s) {x : L2Target} {column row n : ℕ}
    (alive : ((s.ingest.l2 x.column).net x.worker).alive x.row = true) :
    Steady cfg (s.callL2 cfg x (L2Proxy.connectAcks
      (((s.ingest.l2 x.column).net x.worker).node x.row) column row n)).state := by
  have quiet := h.connectAcks_quiet column row n alive
  obtain ⟨u, state, seen, iface, sent⟩ := L2Proxy.connectAcks_state
    (((s.ingest.l2 x.column).net x.worker).node x.row) column row n
  have nodes := @Ingest.l2Node_absorb cfg.toIngestConfig s.ingest x.column x.worker x.row
    ((s.ingest.l2 x.column).net x.worker) (L2Proxy.connectAcks
      (((s.ingest.l2 x.column).net x.worker).node x.row) column row n) rfl s.ingest.link
  refine h.absorb (fun _ => []) rfl rfl rfl (h.calm.l2Quiet quiet) nodes (fun z y => ?_) ?_ ?_ ?_ ?_
    ?_ ?_ ?_
  · rw [Ingest.arrivals_acks (by simp [sent]), ite_self, ite_self]
  · rw [state]
    exact iface
  · rw [state]
    exact h.used x
  · simp
  · simp
  · simp
  · simp
  · rw [state]
    exact le_rfl

lemma Steady.accept (shape : Shaped cfg) (h : Steady cfg s) {clock : Option Int64} {x : L2Target}
    {y : ℕ × ℕ} {op : L3Operation} {rest : List L3Operation} (popped : s.link x y = op :: rest) :
    ((s.l3 y).asyncOperation cfg.l3 clock op).status = .returned ∧
      Steady cfg (({ s with link := s.setLink x y rest } : Pipeline).finishL3 cfg y
        ((s.l3 y).asyncOperation cfg.l3 clock op)).state := by
  obtain ⟨inTier, last⟩ := h.ends x y (by simp [popped])
  obtain ⟨idx, dedup⟩ := h.linked x y op (by simp [popped])
  obtain ⟨seen, found, ascends⟩ := h.numbers x y inTier last
  rw [popped, List.map_cons] at ascends
  obtain ⟨new, ascends⟩ := ascends.pop
  rw [← idx] at found
  have passed : (L3Proxy.asyncOperation clock (s.l3 y).filter op).status = .returned ∧
      (L3Proxy.asyncOperation clock (s.l3 y).filter op).state.lastSeenSeq =
        (s.l3 y).filter.lastSeenSeq.set op.seqId.l2Idx.toNat op.seqId.l2SeqNo := by
    simp only [L3Proxy.asyncOperation, found, dedup, not_le.mpr new, and_false, if_false]
    refine ⟨rfl, ?_⟩
    cases clock <;> simp [max_eq_right new.le]
  have status : ((s.l3 y).asyncOperation cfg.l3 clock op).status = .returned ∧
      ((s.l3 y).asyncOperation cfg.l3 clock op).state.filter =
        (L3Proxy.asyncOperation clock (s.l3 y).filter op).state := by
    simp only [L3Worker.asyncOperation, passed.1]
    exact ⟨rfl, rfl⟩
  have filter : ∀ y', ((({ s with link := s.setLink x y rest } : Pipeline).finishL3 cfg y
      ((s.l3 y).asyncOperation cfg.l3 clock op)).state.l3 y').filter.lastSeenSeq =
      if y' = y then (s.l3 y).filter.lastSeenSeq.set op.seqId.l2Idx.toNat op.seqId.l2SeqNo
        else (s.l3 y').filter.lastSeenSeq := by
    intro y'
    simp only [finishL3, setWorker]
    rcases eq_or_ne y' y with rfl | other
    · rw [Function.update_self, if_pos rfl, status.2, passed.2]
    · rw [Function.update_of_ne other, if_neg other]
  have fewer : ∀ x' y', (s.setLink x y rest x' y').Sublist (s.link x' y') := by
    intro x' y'
    unfold setLink
    split
    · next here =>
      rw [here.1, here.2, popped]
      exact List.sublist_cons_self op rest
    · exact .refl _
  refine ⟨status.1, h.calm, h.up, h.iface, h.used, fun x' y' some' => ?_, fun x' y' op' hop => ?_,
    fun x' y' inTier' last' => ?_⟩
  · refine h.ends x' y' fun none => some' ?_
    have sub := fewer x' y'
    rw [none, List.sublist_nil] at sub
    exact sub
  · exact h.linked x' y' op' ((fewer x' y').subset hop)
  · obtain ⟨seen', found', ascends'⟩ := h.numbers x' y' inTier' last'
    rw [filter]
    rcases eq_or_ne y' y with rfl | other
    · rw [if_pos rfl, seenAt_set found]
      rcases eq_or_ne x' x with rfl | hx
      · refine ⟨op.seqId.l2SeqNo, if_pos idx.symm, ?_⟩
        rw [show (({ s with link := s.setLink x' y' rest } : Pipeline).finishL3 cfg y'
          ((s.l3 y').asyncOperation cfg.l3 clock op)).state.link x' y' = rest from
          if_pos ⟨rfl, rfl⟩]
        exact ascends
      · have apart : (cfg.l2 x'.column x'.worker).idx ≠ op.seqId.l2Idx := by
          intro same
          obtain ⟨column, worker⟩ := shape.distinct _ _ _ _ inTier' inTier (same.trans idx)
          obtain ⟨c', w', r'⟩ := x'
          obtain ⟨c, w, r⟩ := x
          obtain rfl : c' = c := column
          obtain rfl : w' = w := worker
          obtain rfl : r' = r := by
            simp only at last last'
            omega
          exact hx rfl
        refine ⟨seen', (if_neg apart).trans found', ?_⟩
        rw [show (({ s with link := s.setLink x y' rest } : Pipeline).finishL3 cfg y'
          ((s.l3 y').asyncOperation cfg.l3 clock op)).state.link x' y' = s.link x' y' from
          if_neg fun same => hx same.1]
        exact ascends'
    · rw [if_neg other]
      refine ⟨seen', found', ?_⟩
      rw [show (({ s with link := s.setLink x y rest } : Pipeline).finishL3 cfg y
        ((s.l3 y).asyncOperation cfg.l3 clock op)).state.link x' y' = s.link x' y' from
        if_neg fun same => other same.2]
      exact ascends'

lemma stepL3_frame {clock : Option Int64} {y : ℕ × ℕ} {label : L3Label} {r : PipelineResult}
    (taken : s.stepL3 cfg clock y label = some r) :
    r.state.ingest = s.ingest ∧ r.state.link = s.link ∧ r.state.l3Alive = s.l3Alive ∧
      ∀ y', (r.state.l3 y').filter = (s.l3 y').filter := by
  have same : ∀ worker : L3Worker, worker.filter = (s.l3 y).filter →
      ∀ y', (Function.update s.l3 y worker y').filter = (s.l3 y').filter := by
    intro worker filter y'
    rcases eq_or_ne y' y with rfl | other
    · rw [Function.update_self, filter]
    · rw [Function.update_of_ne other]
  cases label with
  | serveGet =>
    simp only [stepL3, L3Worker.serveGet, Option.map_eq_some_iff] at taken
    obtain ⟨worker, found, rfl⟩ := taken
    split at found
    · simp at found
    · exact ⟨rfl, rfl, rfl, same worker (by rw [← Option.some.inj found])⟩
  | servePut =>
    simp only [stepL3, L3Worker.servePut, Option.map_eq_some_iff] at taken
    obtain ⟨worker, found, rfl⟩ := taken
    split at found
    · simp at found
    · exact ⟨rfl, rfl, rfl, same worker.2 (by rw [← Option.some.inj found])⟩
  | getReply =>
    simp only [stepL3, L3Worker.getCallback, Option.ite_none_right_eq_some,
      Option.map_eq_some_iff] at taken
    obtain ⟨-, o, found, rfl⟩ := taken
    split at found
    · simp at found
    · split at found <;>
        exact ⟨rfl, rfl, rfl, same o.state (by rw [← Option.some.inj found]; rfl)⟩
  | crypto =>
    simp only [stepL3, L3Worker.cryptoRound, Option.ite_none_right_eq_some,
      Option.map_eq_some_iff] at taken
    obtain ⟨-, worker, found, rfl⟩ := taken
    split at found
    · simp at found
    · exact ⟨rfl, rfl, rfl, same worker (by rw [← Option.some.inj found])⟩
  | putReply =>
    simp only [stepL3, L3Worker.putCallback, Option.ite_none_right_eq_some,
      Option.map_eq_some_iff] at taken
    obtain ⟨-, o, found, rfl⟩ := taken
    split at found
    · simp at found
    · next writes rest _ =>
      obtain ⟨_, _, -, state⟩ := @L3Worker.completeAll_state cfg.l3 clock (s.ackUp cfg) writes
        { s.l3 y with putReplies := rest }
      refine ⟨rfl, rfl, rfl, same o.state ?_⟩
      rw [← Option.some.inj found, state]
  | respond =>
    simp only [stepL3, L3Worker.respond, Option.ite_none_right_eq_some,
      Option.map_eq_some_iff] at taken
    obtain ⟨-, worker, found, rfl⟩ := taken
    split at found
    · simp at found
    · exact ⟨rfl, rfl, rfl, same worker.2 (by rw [← Option.some.inj found])⟩

end Steps

end Pipeline

/-- The steps that handle a request: at the head of an L1 chain, along the chains of both
tiers, at the head of an L2 chain and at an L3 worker. -/
def PipelineLabel.handles : PipelineLabel → Bool
  | .client _ _ row _ _ => row == 0
  | .l1 _ _ (.deliver ..) | .l2Request .. | .l2 _ _ (.chain _ (.deliver ..)) | .l3Request .. => true
  | _ => false

namespace Pipeline
variable {cfg : PipelineConfig} {s : Pipeline}

/-- Runs in which no instance fails, with valid requests and draws. -/
def failureFree (cfg : PipelineConfig) (_ : Pipeline) (label : PipelineLabel) : Prop :=
  label.steady = true ∧ Valid cfg label

lemma calm_of_steady {label : PipelineLabel} (steady : label.steady = true) : label.calm = true := by
  cases label <;> simp_all [PipelineLabel.steady, PipelineLabel.calm]

theorem Steady.step (shape : Shaped cfg) (h : Steady cfg s) {label : PipelineLabel}
    {r : PipelineResult} (free : failureFree cfg s label) (taken : s.step cfg label = some r) :
    Steady cfg r.state := by
  cases calm_cases shape.ingest h.calm (calm_of_steady free.1) free.2 taken with
  | ingest source case => exact h.ingestStep shape source case
  | manager source =>
    cases source with
    | connectL1Acks alive => exact h.connectAcks alive
    | removeL3 | selectiveResend => simp [failureFree, PipelineLabel.steady] at free
  | accept popped _ => exact (h.accept shape popped).2
  | l3 taken =>
    obtain ⟨ingest, link, alive, filter⟩ := stepL3_frame taken
    exact h.keep (ingest ▸ h.calm) (fun x => by rw [ingest]) link filter alive
  | @connectL2Acks y _ _ _ =>
    refine h.keep h.calm (fun _ => rfl) rfl (fun y' => ?_) rfl
    simp only [setWorker]
    rcases eq_or_ne y' y with rfl | other
    · rw [Function.update_self]
      rfl
    · rw [Function.update_of_ne other]
  | crashL3 | loseL3 | loseL2Ack => simp [failureFree, PipelineLabel.steady] at free

lemma steady_start (shape : Shaped cfg) : Steady cfg (start cfg) := by
  refine ⟨Ingest.calm_start shape.ingest, fun _ => rfl, fun x last => ?_, fun x ran => ?_,
    fun _ _ some' => absurd rfl some', fun _ _ _ hop => by simp [start] at hop,
    fun x y inTier _ => ?_⟩
  · have tail : (initRole cfg.l2Rows x.row).isTail = true :=
      (initRole_isTail_iff (by omega)).mpr last
    simp [start, Ingest.start, Ingest.l2Node, L2Column.start, ChainNet.start, ChainModule.setup,
      L2Proxy.callbacks, L2Proxy.setupCallback, L2Proxy.initState, tail, L2Proxy.l3Columns]
  · simp [start, Ingest.start, Ingest.l2Node, L2Column.start, ChainNet.start,
      ChainModule.setup] at ran
  · obtain ⟨low, high⟩ := shape.idx x.column x.worker inTier
    refine ⟨-1, ?_, by simp [start], ?_⟩
    · have inside : (cfg.l2 x.column x.worker).idx.toNat < cfg.l3.l2Workers.sum := by
        rw [shape.workers]
        omega
      simp [start, L3Worker.initState, L3Proxy.initState, seenAt, not_lt.mpr low, inside]
    · simp [start, Ingest.start, Ingest.l2Node, L2Column.start, ChainNet.start, ChainModule.setup]

theorem steady_reaches (shape : Shaped cfg) (run : Reaches (pipelineSystem cfg) (failureFree cfg) s) :
    Steady cfg s := by
  refine run.invariant (fun s init => init ▸ steady_start shape) fun s label s' h free taken => ?_
  obtain ⟨r, moved, rfl⟩ := Option.map_eq_some_iff.mp taken
  exact h.step shape free moved

/-- A step that handles a request passes every filter and every check. -/
theorem Steady.handled (shape : Shaped cfg) (h : Steady cfg s) {label : PipelineLabel}
    {r : PipelineResult} (free : failureFree cfg s label) (handles : label.handles = true)
    (taken : s.step cfg label = some r) : r.status = .returned := by
  cases calm_cases shape.ingest h.calm (calm_of_steady free.1) free.2 taken with
  | ingest source case =>
    rw [absorb_status]
    cases case with
    | ignored follower =>
      cases source
      simp [PipelineLabel.handles, follower] at handles
    | l1Run _ runs => exact (runs.outs shape.ingest h.calm).1
    | l1Acks acks => cases acks <;> cases source <;> simp [PipelineLabel.handles] at handles
    | l2Run comes runs =>
      obtain ⟨-, clock, rfl⟩ := source.runs comes
      exact (h.forwards shape runs).1
    | l2Acks acks => cases acks <;> cases source <;> simp [PipelineLabel.handles] at handles
  | manager source => cases source <;> simp [PipelineLabel.handles] at handles
  | accept popped _ => exact (h.accept shape popped).1
  | l3 | crashL3 | loseL3 | loseL2Ack | connectL2Acks => simp [PipelineLabel.handles] at handles

end Pipeline
end Shortstack
