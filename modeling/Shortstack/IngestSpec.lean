import Shortstack.Ingest
import Shortstack.L1ProxySpec
import Shortstack.L2ColumnSpec

/-! What one step of the L1 and L2 tiers can be. -/
namespace Shortstack.Ingest
open ChainModule
variable (cfg : IngestConfig) (s : Ingest)

/-- The step of an L1 chain behind a step of the tiers. -/
inductive Comes : IngestLabel → L1Oracle → ℕ → NetLabel L1State → Prop
  | chain {oracle k nl} (internal : nl.internal = true)
      (gate : s.managerUp = true ∨ afterSetup nl = false) : Comes (.l1 oracle k nl) oracle k nl
  | request {oracle k row op draws queue batch}
      (filled : L1Proxy.createSecurityBatch cfg.l1 draws (((s.l1 k).node row).user.internalQueue ++
        [L1Proxy.timed oracle.clock op]) = (queue, .ok batch)) :
    Comes (.client oracle k row op draws) oracle k
      (.request row { ((s.l1 k).node row).user with internalQueue := queue }
        { clientId := -1, clientSeqNo := -1, serverSeqNo := -1 }
        (batch.flatMap L2Operation.serialize))
  | failed {oracle k row op draws queue} : Comes (.client oracle k row op draws) oracle k
      (.touch row { ((s.l1 k).node row).user with internalQueue := queue })

inductive StepCase : IngestLabel → IngestResult → Prop
  | l1 {label oracle k nl res} (status : Status) (source : Comes cfg s label oracle k nl)
      (taken : (s.l1 k).step (s.callbacks cfg oracle) (s.outside oracle.clock) nl = some res) :
    StepCase label ⟨{ s.absorb k (nl.row (s.l1 k).acks) res with
      managerUp := s.managerUp && s.survives cfg k nl }, [], status⟩
  | refused {oracle k row op draws status} :
    StepCase (.client oracle k row op draws) ⟨s, [], status⟩
  | ackL1 {oracle k row seqs status} (alive : (s.l1 k).alive row = true) :
    StepCase (.ackL1 oracle k row seqs) ⟨s.absorb k row ((s.l1 k).finish row
      (L1Proxy.externalAckBatch cfg.l1 (s.callbacks cfg oracle)
        ((s.l1 k).env (s.outside oracle.clock) ((s.l1 k).node row)) ((s.l1 k).node row) seqs)),
      [], status⟩
  | crashL1 {column row} : StepCase (.crashL1 column row)
      ⟨{ s with l1 := fun k => if (locate cfg.l1Workers k).map Prod.fst = some column then
        (s.l1 k).fail row else s.l1 k }, [], .returned⟩
  | deliver {ext k row x op rest r} (link : s.link k row x = op :: rest)
      (taken : (s.l2 x.column).step (cfg.l2 x.column) ext (.request x.worker x.row op) = some r) :
    StepCase (.deliver ext k row x) ⟨{ s with
      l2 := Function.update s.l2 x.column r.column, link := s.setLink k row x rest },
      r.sent, r.status⟩
  | lose {k row x kept}
      (down : (s.l1 k).alive row = false ∨ ((s.l2 x.column).net x.worker).alive x.row = false)
      (part : kept <+: s.link k row x) : StepCase (.lose k row x kept)
      ⟨{ s with link := s.setLink k row x kept }, [], .returned⟩
  | l2 {ext column label r} (inner : ∀ w row op, label ≠ .request w row op)
      (taken : (s.l2 column).step (cfg.l2 column) ext label = some r) :
    StepCase (.l2 ext column label)
      ⟨{ s with l2 := Function.update s.l2 column r.column }, r.sent, r.status⟩
  | reconnect {k row column newRow clients n} (alive : (s.l1 k).alive row = true)
      (up : s.managerUp = true) (iface : ((s.l1 k).node row).user.l2Iface = some clients)
      (tail : ((s.l1 k).node row).isTail = true) (size : cfg.l1.l2Workers[column]? = some n)
      (reached : n = 0 ∨ s.reach column newRow = true) :
    StepCase (.reconnect k row column newRow) ⟨s.absorb k row ((s.l1 k).finish row
      (.done (((s.l1 k).node row).withUser { ((s.l1 k).node row).user with
        l2Iface := some (clients.set column ⟨newRow, n⟩) }))), [], .returned⟩
  | abandoned {k row column newRow status} (up : s.managerUp = true) :
    StepCase (.reconnect k row column newRow) ⟨{ s with managerUp := false }, [], status⟩

variable {cfg s}

lemma Comes.keepsIface {label : IngestLabel} {oracle : L1Oracle} {k : ℕ} {nl : NetLabel L1State}
    (h : Comes cfg s label oracle k nl) : L1Proxy.keepsIface (s.l1 k) nl := by
  intro i u touched
  cases h with
  | chain internal => cases nl <;> simp_all [NetLabel.internal, ChainNet.touches]
  | request | failed =>
    simp only [ChainNet.touches, Option.some.injEq, Prod.mk.injEq] at touched
    rw [← touched.1, ← touched.2]
    exact ⟨rfl, rfl⟩

lemma Comes.no_crash {label : IngestLabel} {oracle : L1Oracle} {k : ℕ} {nl : NetLabel L1State}
    (h : Comes cfg s label oracle k nl) (i : ℕ) : nl ≠ .crash i := by
  rintro rfl
  cases h with
  | chain internal => simp [NetLabel.internal] at internal

lemma Comes.manager {label : IngestLabel} {oracle : L1Oracle} {k i : ℕ} {nl : NetLabel L1State}
    (h : Comes cfg s label oracle k nl) (resend : nl = .resend i) : s.managerUp = true := by
  cases h with
  | chain internal gate =>
    rcases gate with up | other
    · exact up
    · simp [resend, afterSetup] at other
  | request | failed => simp at resend

lemma forward_nil (k row : ℕ) : s.forward k row [] = s.link := by
  funext a b x
  simp [forward]

lemma absorb_idle (k row : ℕ) (status : Status) :
    s.absorb k row ⟨s.l1 k, [], status⟩ = s := by
  unfold absorb
  rw [forward_nil, Function.update_eq_self]

lemma survives_touch (k i : ℕ) (u : L1State) : s.survives cfg k (.touch i u) = true := rfl

lemma survives_request (k i : ℕ) (u : L1State) (seq : SequenceId) (args : ArgList) :
    s.survives cfg k (.request i u seq args) = true := rfl

theorem step_cases {label : IngestLabel} {r : IngestResult} (taken : s.step cfg label = some r) :
    StepCase cfg s label r := by
  cases label with
  | client oracle k row op draws =>
    simp only [step, Option.ite_none_right_eq_some, Option.some.injEq] at taken
    obtain ⟨alive, rfl⟩ := taken
    rcases @L1Proxy.processOp_cases cfg.l1 oracle.pick s.reach
        ((s.l1 k).env (s.outside oracle.clock) ((s.l1 k).node row)) ((s.l1 k).node row) op draws with
      ⟨_, dropped⟩ | ⟨head, queue, ⟨e, _, raised⟩ | ⟨batch, filled, accepted⟩⟩
    · rw [dropped, ChainNet.finish, ChainNet.deposit_idle _ _ rfl rfl, Outcome.drop_sent, outsOf_nil,
        absorb_idle]
      exact .refused
    · rw [raised]
      have source : Comes cfg s (.client oracle k row op draws) oracle k
          (.touch row { ((s.l1 k).node row).user with internalQueue := queue }) := .failed
      have moved : (s.l1 k).step (s.callbacks cfg oracle) (s.outside oracle.clock)
          (.touch row { ((s.l1 k).node row).user with internalQueue := queue }) =
          some ((s.l1 k).finish row (.done (((s.l1 k).node row).withUser
            { ((s.l1 k).node row).user with internalQueue := queue }))) := by
        simp [ChainNet.step, alive]
      have result : ∀ status, StepCase cfg s (.client oracle k row op draws) ⟨_, [], status⟩ :=
        fun status => .l1 status source moved
      rw [survives_touch, Bool.and_true] at result
      exact result _
    · rw [accepted]
      have source : Comes cfg s (.client oracle k row op draws) oracle k
          (.request row { ((s.l1 k).node row).user with internalQueue := queue }
            { clientId := -1, clientSeqNo := -1, serverSeqNo := -1 }
            (batch.flatMap L2Operation.serialize)) := .request filled
      have moved : (s.l1 k).step (s.callbacks cfg oracle) (s.outside oracle.clock)
          (.request row { ((s.l1 k).node row).user with internalQueue := queue }
            { clientId := -1, clientSeqNo := -1, serverSeqNo := -1 }
            (batch.flatMap L2Operation.serialize)) = some ((s.l1 k).finish row
              ((((s.l1 k).node row).withUser { ((s.l1 k).node row).user with
                internalQueue := queue }).chainRequest (s.callbacks cfg oracle)
                ((s.l1 k).env (s.outside oracle.clock) ((s.l1 k).node row))
                { clientId := -1, clientSeqNo := -1, serverSeqNo := -1 }
                (batch.flatMap L2Operation.serialize))) := by
        simp only [ChainNet.step, alive, head, Bool.and_self, if_true]
        rfl
      have result : ∀ status, StepCase cfg s (.client oracle k row op draws) ⟨_, [], status⟩ :=
        fun status => .l1 status source moved
      rw [survives_request, Bool.and_true] at result
      exact result _
  | l1 oracle k nl =>
    simp only [step, Bool.and_eq_true, Bool.or_eq_true, Bool.not_eq_true',
      Option.ite_none_right_eq_some] at taken
    obtain ⟨⟨internal, gate⟩, taken⟩ := taken
    obtain ⟨res, hres, rfl⟩ := Option.map_eq_some_iff.mp taken
    exact .l1 _ (.chain internal gate) hres
  | ackL1 oracle k row seqs =>
    simp only [step, Option.ite_none_right_eq_some, Option.some.injEq] at taken
    obtain ⟨alive, rfl⟩ := taken
    exact .ackL1 alive
  | crashL1 column row =>
    simp only [step, Option.some.injEq] at taken
    exact taken ▸ .crashL1
  | deliver ext k row x =>
    simp only [step] at taken
    split at taken
    · simp at taken
    · next op rest link =>
      obtain ⟨r, hr, rfl⟩ := Option.map_eq_some_iff.mp taken
      exact .deliver link hr
  | lose k row x kept =>
    simp only [step, Bool.and_eq_true, Bool.or_eq_true, Bool.not_eq_true',
      Option.ite_none_right_eq_some, Option.some.injEq] at taken
    obtain ⟨⟨down, part⟩, rfl⟩ := taken
    exact .lose down (List.isPrefixOf_iff_prefix.mp part)
  | l2 ext column label =>
    cases label with
    | request => simp [step] at taken
    | chain | externalAck | crash =>
      simp only [step] at taken
      obtain ⟨r, hr, rfl⟩ := Option.map_eq_some_iff.mp taken
      exact .l2 (by simp) hr
  | reconnect k row column newRow =>
    simp only [step, Bool.and_eq_true, Option.ite_none_right_eq_some, Option.some.injEq] at taken
    obtain ⟨⟨up, alive⟩, rfl⟩ := taken
    rcases L1Proxy.updateConnections_cases cfg.l1 s.reach ((s.l1 k).node row) column newRow with
      ⟨clients, n, tail, iface, size, reached, done⟩ | ⟨e, raised⟩
    · rw [done]
      have result : StepCase cfg s (.reconnect k row column newRow) _ :=
        .reconnect alive up iface tail size reached
      simpa [absorb, up, ChainNet.finish] using result
    · rw [raised, ChainNet.finish, ChainNet.deposit_idle _ _ rfl rfl, Outcome.raise_sent,
        outsOf_nil, absorb_idle]
      exact .abandoned up

end Shortstack.Ingest
