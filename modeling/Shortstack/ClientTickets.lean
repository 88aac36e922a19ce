import Shortstack.ClientHistory
import Shortstack.IngestOnce
import Shortstack.IngestTickets

/-! Where the requests of a history are in front of the L2 tails: none of them is there more than
once, nothing else is, and all accesses to a replica meet in one worker of the L2 tier. -/
namespace Shortstack
open ChainModule ChainNet L1Proxy Linearizability Tokens Transition

namespace ClientRequest

def value : ClientRequest → String
  | .get _ => ""
  | .put _ value => value

def ticket (x : RequestId × ClientRequest) : Ticket := ⟨x.1.1, x.1.2, x.2.key, x.2.value⟩

lemma operation_ticket (seq : SequenceId) (r : ClientRequest) :
    (r.operation seq).ticket = ticket (seq.client, r) := by
  cases r <;> rfl

end ClientRequest

namespace Ingest
variable (cfg : IngestConfig)

/-- Accesses to a replica of a key that is not padding travel to one worker. -/
structure Routed (s : Ingest) : Prop where
  link : ∀ k row x, ∀ op ∈ s.link k row x, op.key ≠ cfg.l1.dummyKey →
    routeFull cfg.l1 op.key op.replica = some (x.column, x.worker)
  ran : ∀ c w, ∀ op ∈ (s.head c w).ran, ∀ p rest, L2Operation.deserialize op.args = .ok (p, rest) →
    p.key ≠ cfg.l1.dummyKey → routeFull cfg.l1 p.key p.replica = some (c, w)

variable {cfg} {s : Ingest}

lemma Routed.l1Run (shape : Shaped cfg) (calm : Calm cfg s) (h : Routed cfg s) {oracle : L1Oracle}
    {k i : ℕ} {op : ChainOp} {m : ChainModule L1State} {net : ChainNet L1State}
    {o : Outcome (ChainModule L1State) (Send L1Effect)}
    (runs : L1Runs cfg s oracle k i op m net o) :
    Routed cfg (s.absorb k i (net.finish i o)) := by
  refine ⟨fun k' row x y mem real => ?_, h.ran⟩
  simp only [absorb, forward] at mem
  split at mem
  · rcases List.mem_append.mp mem with old | new
    · exact h.link k' row x y old real
    · obtain ⟨e, he, rfl⟩ := List.mem_map.mp new
      obtain ⟨sent, target⟩ := List.mem_filter.mp he
      obtain rfl := of_decide_eq_true target
      rcases (runs.outs shape calm).2 with ⟨-, none⟩ | ⟨-, batch, -, -, -, -, routed⟩
      · have none : (net.finish i o).outs = [] := none
        rw [none] at sent
        simp at sent
      · refine routeL2_full ?_ real (routed e sent)
        rw [fullClients, List.map_map]
        exact List.map_id _
  · exact h.link k' row x y mem real

lemma Routed.l2Run (h : Routed cfg s) {label : IngestLabel} {ext : Outside L2Effect} {c w i : ℕ}
    {op : ChainOp} {m : ChainModule L2State} {net : ChainNet L2State}
    {o : Outcome (ChainModule L2State) (Send L2Effect)}
    {link : ℕ → ℕ → L2Target → List L2Operation} (source : L2Source s label ext c w i op m net link)
    (runs : L2Runs cfg s ext c w i op m net o) :
    Routed cfg { s with
      l2 := Function.update s.l2 c ((s.l2 c).absorb (cfg.l2 c) w i (net.finish i o)).column
      link := link } := by
  have heads : ∀ c' w', (head { s with
      l2 := Function.update s.l2 c ((s.l2 c).absorb (cfg.l2 c) w i (net.finish i o)).column
      link := link } c' w').ran = if c' = c ∧ w' = w ∧ i = 0 then (s.head c w).ran ++ [op]
        else (s.head c' w').ran := by
    intro c' w'
    have node := @l2Node_absorb cfg s c w i net o runs.node link ⟨c', w', 0⟩
    rw [show head _ c' w' = _ from node]
    simp only [L2Target.mk.injEq]
    split
    · next here =>
      rw [if_pos ⟨here.1, here.2.1, here.2.2.symm⟩, runs.ran, ← here.2.2]
      rfl
    · next away =>
      rw [if_neg fun here => away ⟨here.1, here.2.1, here.2.2.symm⟩]
      rfl
  cases source with
  | chain =>
    refine ⟨h.link, fun c' w' x mem => h.ran c' w' x ?_⟩
    rw [heads, if_neg (by simp)] at mem
    exact mem
  | @link _ k row _ _ x rest alive popped =>
    refine ⟨fun k' row' z y mem => h.link k' row' z y ?_, fun c' w' y mem p rest' parsed real => ?_⟩
    · simp only [setLink] at mem
      split at mem
      · next here =>
        obtain ⟨rfl, rfl, rfl⟩ := here
        rw [popped]
        exact List.mem_cons_of_mem x mem
      · exact mem
    · rw [heads] at mem
      split at mem
      · next here =>
        rw [here.1, here.2.1]
        rcases List.mem_append.mp mem with old | new
        · exact h.ran c w y old p rest' parsed real
        · have read := @L2Operation.deserialize_serialize
            { x with seqId := L2Proxy.timed ext.clock x.seqId } [] (by simp [L2Operation.NoField])
          rw [List.append_nil] at read
          rw [List.mem_singleton.mp new] at parsed
          obtain ⟨rfl, -⟩ := Prod.mk.inj (Except.ok.inj (read.symm.trans parsed))
          exact h.link k row ⟨c, w, 0⟩ x (by simp [popped]) real
      · exact h.ran c' w' y mem p rest' parsed real

lemma Routed.l2Quiet (h : Routed cfg s) {c w i : ℕ} {net : ChainNet L2State}
    {o : Outcome (ChainModule L2State) (Send L2Effect)} (quiet : L2Quiet cfg s c w i net o) :
    Routed cfg { s with
      l2 := Function.update s.l2 c ((s.l2 c).absorb (cfg.l2 c) w i (net.finish i o)).column } := by
  refine ⟨h.link, fun c' w' x mem => h.ran c' w' x ?_⟩
  have node := @l2Node_absorb cfg s c w i net o quiet.node s.link ⟨c', w', 0⟩
  rw [show head _ c' w' = _ from node] at mem
  split at mem
  · next here =>
    obtain ⟨rfl, rfl, rfl⟩ := L2Target.mk.inj here
    rw [quiet.ran] at mem
    exact mem
  · exact mem

theorem Routed.step (shape : Shaped cfg) (calm : Calm cfg s) (h : Routed cfg s) {label : IngestLabel}
    {r : IngestResult} (taken : SteadyCase cfg s label r) : Routed cfg r.state := by
  cases taken with
  | ignored => exact h
  | l1Run _ runs => exact h.l1Run shape calm runs
  | @l1Acks _ oracle k i net o source =>
    have outs : (net.finish i o).outs = [] := (source.quiet calm).outs
    refine ⟨fun k' row x y mem => h.link k' row x y ?_, h.ran⟩
    simpa [absorb, outs, forward_nil] using mem
  | l2Run source runs => exact h.l2Run source runs
  | l2Acks source => exact h.l2Quiet (source.quiet calm)

lemma routed_start : Routed cfg (start cfg) := by
  refine ⟨fun _ _ _ _ mem => by simp [start] at mem, fun c w op mem => ?_⟩
  simp [head, start, L2Column.start, ChainNet.start, ChainModule.setup] at mem

end Ingest

namespace Pipeline
variable (cfg : PipelineConfig)

/-- The requests of a history in front of the L2 tails. -/
structure Submitted (s : Pipeline) (history : List ClientEvent) : Prop where
  once : ((invocations history).map Prod.fst).Nodup
  real : ∀ x ∈ invocations history, x.1.1 ≠ fakeClientId
  unbroken : Ingest.Unbroken cfg.toIngestConfig s.ingest
  copies : ∀ q : Ticket → Bool, (∀ key, q (.pad key) = false) →
    AtMost (Ingest.copies cfg.toIngestConfig q s.ingest)
      (((invocations history).map ClientRequest.ticket).countP q)
  routed : Ingest.Routed cfg.toIngestConfig s.ingest

variable {cfg} {s s' : Pipeline} {history history' : List ClientEvent}

lemma Submitted.keep (h : Submitted cfg s history)
    (same : invocations history' = invocations history) : Submitted cfg s history' := by
  obtain ⟨once, real, unbroken, copies, routed⟩ := h
  rw [← same] at once real copies
  exact ⟨once, real, unbroken, copies, routed⟩

lemma Submitted.congr (h : Submitted cfg s history) (same : s'.ingest = s.ingest) :
    Submitted cfg s' history :=
  ⟨h.once, h.real, same ▸ h.unbroken, same ▸ h.copies, same ▸ h.routed⟩

lemma Submitted.ingest (shape : Shaped cfg) (steady : Steady cfg s) (h : Submitted cfg s history)
    {il : IngestLabel} {ir : IngestResult} (calm : il.steady = true)
    (valid : Ingest.Valid cfg.toIngestConfig il)
    (taken : s.ingest.step cfg.toIngestConfig il = some ir) (same : s'.ingest = ir.state)
    {new : List (RequestId × ClientRequest)} (submits : il.submits = new.map ClientRequest.ticket)
    (history' : List ClientEvent) (grown : invocations history' = invocations history ++ new)
    (once : ((invocations history').map Prod.fst).Nodup)
    (real : ∀ x ∈ new, x.1.1 ≠ fakeClientId) :
    Submitted cfg s' history' := by
  have housed : Ingest.Housed cfg.toIngestConfig :=
    ⟨shape.ingest.l2Rows, shape.ingest.l2Workers, shape.ingest.workers⟩
  have change := h.unbroken.change housed calm taken
  refine ⟨once, fun x mem => ?_, same ▸ h.unbroken.next change, fun q pads => ?_, ?_⟩
  · rw [grown] at mem
    exact (List.mem_append.mp mem).elim (h.real x) (real x)
  · rw [same, grown, List.map_append, List.countP_append, ← submits]
    exact Ingest.copies_step h.unbroken pads change (h.copies q pads)
  · rw [same]
    exact h.routed.step shape.ingest steady.calm
      (Ingest.steady_cases shape.ingest steady.calm calm valid taken)

lemma Submitted.quiet (h : Submitted cfg s history) {c w i : ℕ} {net : ChainNet L2State}
    {o : Outcome (ChainModule L2State) (Send L2Effect)}
    (quiet : Ingest.L2Quiet cfg.toIngestConfig s.ingest c w i net o)
    (same : s'.ingest = { s.ingest with
      l2 := Function.update s.ingest.l2 c
        ((s.ingest.l2 c).absorb (cfg.l2 c) w i (net.finish i o)).column }) :
    Submitted cfg s' history := by
  have row : Ingest.L2Row cfg.toIngestConfig s.ingest c w i (net.finish i o) [] := by
    refine ⟨quiet.flow, quiet.rows, fun j hj => ?_, ?_⟩
    · simp [finish, hj, quiet.node]
    · simp [finish, quiet.ran]
  refine ⟨h.once, h.real, ?_, fun q pads => ?_, ?_⟩
  · rw [same]
    exact h.unbroken.updateL2 row (fun _ some' => absurd rfl some') fun _ _ _ some' => some'
  · rw [same]
    refine Ingest.copies_congr (h.copies q pads) (fun p => ?_) 0
    cases p with
    | log c' w' =>
      have node := @Ingest.l2Node_absorb cfg.toIngestConfig s.ingest c w i net o quiet.node
        s.ingest.link ⟨c', w', 0⟩
      have ran : (Ingest.l2Node _ ⟨c', w', 0⟩).ran = (s.ingest.head c' w').ran :=
        (congrArg ChainModule.ran node).trans (by
          split
          · next here =>
            obtain ⟨rfl, rfl, rfl⟩ := L2Target.mk.inj here
            exact quiet.ran
          · rfl)
      exact congrArg (List.map ChainOp.ticket) ran
    | queue | waiting | link => rfl
  · rw [same]
    exact h.routed.l2Quiet quiet

lemma invocations_tiers (label : PipelineLabel) :
    invocations ((ClientLabel.tiers label).events cfg s) = [] := by
  unfold ClientLabel.events
  split
  · next eq => simp at eq
  · split <;> rfl
  · rfl

lemma Submitted.step (shape : Shaped cfg) (steady : Steady cfg s) (h : Submitted cfg s history)
    {label : ClientLabel} (free : failureFree cfg s label.pipeline) (proper : label.proper history)
    (taken : (servedSystem cfg).step s label = some s') :
    Submitted cfg s' (history ++ label.events cfg s) := by
  cases label with
  | request oracle k row seq r draws =>
    obtain ⟨res, moved, rfl⟩ := Option.map_eq_some_iff.mp taken
    obtain ⟨client, fresh⟩ := proper
    rcases calm_entry (calm_of_steady free.1) moved with
      ⟨s₀, column, il, ir, source, calm, inner, rfl⟩ | ⟨-, none⟩
    · cases source
      refine @Submitted.ingest _ _ _ _ shape steady h _ _ calm free.2 inner (absorb_ingest ..)
        [(seq.client, r)] ?_ _ ?_ ?_ ?_
      · rw [List.map_singleton, ← ClientRequest.operation_ticket]
        rfl
      · rw [invocations_append]
        rfl
      · rw [invocations_append, List.map_append, List.nodup_append]
        refine ⟨h.once, List.nodup_singleton _, fun a ha b hb => ?_⟩
        rintro rfl
        rw [List.mem_singleton.mp hb] at ha
        exact fresh ha
      · intro x mem
        rw [List.mem_singleton.mp mem]
        exact client
    · exact absurd .client (none s 0 (.client oracle k row (r.operation seq) draws))
  | tiers label =>
    have same : invocations (history ++ (ClientLabel.tiers label).events cfg s) =
        invocations history := by
      rw [invocations_append, invocations_tiers, List.append_nil]
    obtain ⟨⟨res, moved, rfl⟩, tier⟩ := servedSystem_step taken
    refine Submitted.keep ?_ same
    rcases calm_entry (calm_of_steady free.1) moved with
      ⟨s₀, column, il, ir, source, calm, inner, rfl⟩ | ⟨case, none⟩
    · have valid : Ingest.Valid cfg.toIngestConfig il ∧ il.submits = [] := by
        cases source with
        | client => exact absurd rfl (tier _ _ _ _ _)
        | l1 | l2Request | l2 | l2Ack | l1Ack => exact ⟨trivial, rfl⟩
      exact @Submitted.ingest _ _ _ _ shape steady h _ _ calm valid.1 inner (absorb_ingest ..) [] valid.2
        history (List.append_nil _).symm h.once (by simp)
    · cases case with
      | ingest source => exact absurd source (none _ _ _)
      | manager source =>
        cases source with
        | connectL1Acks alive =>
          rename_i x column row
          exact h.quiet (steady.connectAcks_quiet column row _ alive) (absorb_ingest ..)
        | removeL3 | selectiveResend =>
          simp [failureFree, ClientLabel.pipeline, PipelineLabel.steady] at free
      | l3 taken => exact h.congr (stepL3_frame taken).1
      | accept | loseL3 | loseL2Ack | crashL3 | connectL2Acks => exact h.congr rfl

lemma submitted_start (shape : Shaped cfg) : Submitted cfg (start cfg) [] := by
  refine ⟨List.nodup_nil, by simp [invocations], ?_, fun q _ => Ingest.copies_start, Ingest.routed_start⟩
  exact Ingest.unbroken_start
    ⟨shape.ingest.l2Rows, shape.ingest.l2Workers, shape.ingest.workers⟩

section Tail
variable {clock : Option Int64} {op : ChainOp} {p : L2Operation} {c w l : ℕ} {y : ℕ × ℕ}

lemma tailRan_le_head (shape : Shaped cfg) (unbroken : Ingest.Unbroken cfg.toIngestConfig s.ingest)
    (c w : ℕ) : tailRan cfg s c w <+: (s.ingest.head c w).ran := by
  have rows := shape.ingest.l2Rows
  have inside : cfg.l2Rows - 1 < ((s.ingest.l2 c).net w).rows := by
    rw [unbroken.rows2]
    omega
  exact (unbroken.l2 c w).prefix_of_le (Nat.zero_le _) inside

lemma Submitted.request (h : Submitted cfg s history) (mem : op ∈ (s.ingest.head c w).ran) :
    (∃ key, op.ticket = .pad key) ∨ ∃ x ∈ invocations history, ClientRequest.ticket x = op.ticket := by
  by_contra neither
  rw [not_or, not_exists] at neither
  have none : ((invocations history).map ClientRequest.ticket).countP (fun t => t = op.ticket) = 0 := by
    rw [List.countP_eq_zero]
    intro t ht same
    obtain ⟨x, mem, rfl⟩ := List.mem_map.mp ht
    exact neither.2 ⟨x, mem, of_decide_eq_true same⟩
  have bound := h.copies (fun t => t = op.ticket) fun key => decide_eq_false (neither.1 key ·.symm)
  have here : 0 < Ingest.copies cfg.toIngestConfig (fun t => t = op.ticket) s.ingest (.log c w) :=
    List.countP_pos_iff.mpr ⟨op.ticket, List.mem_map_of_mem mem, decide_eq_true rfl⟩
  have := bound.le (.log c w)
  omega

lemma Submitted.alone (h : Submitted cfg s history) {i : RequestId} (client : i.1 ≠ fakeClientId) :
    AtMost (Ingest.copies cfg.toIngestConfig (fun t => (t.clientId, t.clientSeqNo) = i) s.ingest) 1 := by
  refine (h.copies _ fun key => decide_eq_false ?_).mono (fun _ => le_rfl) ?_
  · rintro rfl
    exact client rfl
  · have ids : ((invocations history).map ClientRequest.ticket).countP
        (fun t => (t.clientId, t.clientSeqNo) = i) = ((invocations history).map Prod.fst).count i := by
      rw [List.countP_map, List.count, List.countP_map]
      refine List.countP_congr fun x _ => ?_
      simp [ClientRequest.ticket]
    rw [ids]
    exact List.nodup_iff_count_le_one.mp h.once i

lemma l3Operation_access {cfg : L2Config} {cache : UpdateCache} {seq : SequenceId} {dedup : Bool} :
    (L2Proxy.l3Operation cfg clock cache seq p l dedup).access = ⟨(seq.clientId, seq.clientSeqNo),
      toString l, L2Column.forwardValue cfg cache p, p.value == ""⟩ := by
  cases clock <;> rfl

lemma TailRuns.ticket (runs : TailRuns cfg s s' clock c w y op p l) :
    op.ticket = ⟨op.seq.clientId, op.seq.clientSeqNo, p.key, p.value⟩ := by
  obtain ⟨rest, parsed⟩ := runs.parsed
  simp only [ChainOp.ticket, parsed]

lemma TailRuns.mem_head (shape : Shaped cfg) (runs : TailRuns cfg s s' clock c w y op p l)
    (submitted : Submitted cfg s' history) : op ∈ (s'.ingest.head c w).ran := by
  refine (tailRan_le_head shape submitted.unbroken c w).subset ?_
  rw [runs.ran, if_pos ⟨rfl, rfl⟩]
  exact List.mem_append_right _ List.mem_cons_self

lemma TailRuns.fresh (shape : Shaped cfg) (runs : TailRuns cfg s s' clock c w y op p l)
    (submitted : Submitted cfg s' history) (client : op.ticket.clientId ≠ fakeClientId) {c' w' : ℕ}
    {op' : ChainOp} (mem : op' ∈ tailRan cfg s c' w') :
    (op'.ticket.clientId, op'.ticket.clientSeqNo) ≠ (op.ticket.clientId, op.ticket.clientSeqNo) := by
  intro same
  have alone := submitted.alone (i := (op.ticket.clientId, op.ticket.clientSeqNo)) client
  have count : ∀ c w, ((tailRan cfg s' c w).map ChainOp.ticket).countP (fun t =>
      (t.clientId, t.clientSeqNo) = (op.ticket.clientId, op.ticket.clientSeqNo)) ≤
      Ingest.copies cfg.toIngestConfig (fun t =>
        (t.clientId, t.clientSeqNo) = (op.ticket.clientId, op.ticket.clientSeqNo)) s'.ingest
        (.log c w) := fun c w =>
    ((tailRan_le_head shape submitted.unbroken c w).sublist.map _).countP_le
  rcases Classical.em (c' = c ∧ w' = w) with ⟨rfl, rfl⟩ | apart
  · have twice := (count c' w').trans (alone.le _)
    have old : 0 < ((tailRan cfg s c' w').map ChainOp.ticket).countP (fun t =>
        (t.clientId, t.clientSeqNo) = (op.ticket.clientId, op.ticket.clientSeqNo)) :=
      List.countP_pos_iff.mpr ⟨op'.ticket, List.mem_map_of_mem mem, decide_eq_true same⟩
    rw [runs.ran, if_pos ⟨rfl, rfl⟩, List.map_append, List.countP_append] at twice
    simp only [List.map_singleton, List.countP_singleton, decide_true, if_true] at twice
    omega
  · have here := (count c w).trans_lt' (List.countP_pos_iff.mpr ⟨op.ticket, List.mem_map_of_mem (by
      rw [runs.ran, if_pos ⟨rfl, rfl⟩]
      exact List.mem_append_right _ List.mem_cons_self), decide_eq_true rfl⟩)
    have there := (count c' w').trans_lt' (List.countP_pos_iff.mpr ⟨op'.ticket, List.mem_map_of_mem (by
      rwa [runs.ran, if_neg apart]), decide_eq_true same⟩)
    exact apart (Ingest.TicketPlace.log.inj (alone.unique there here))

end Tail

end Pipeline
end Shortstack
