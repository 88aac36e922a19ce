import Shortstack.EgressFailover
import Shortstack.IngestCalm
import Shortstack.Pipeline

/-! What one step of the pipeline can be while no L1 or L2 instance fails, and what the L2
tails send to the L3 tier. -/
namespace Shortstack
open ChainModule ChainNet HighWater Transition

/-- No L1 or L2 instance fails. -/
def PipelineLabel.calm : PipelineLabel → Bool
  | .l1 _ _ label => label.steady
  | .l2 _ _ label => label.steady
  | .crashL1 .. | .loseL2 .. | .reconnect .. | .loseL1Ack .. => false
  | _ => true

/-- No instance fails. -/
def PipelineLabel.steady : PipelineLabel → Bool
  | .crashL3 .. | .loseL3 .. | .loseL2Ack .. | .removeL3 .. | .selectiveResend .. => false
  | label => label.calm

namespace L2Proxy
variable {cfg : L2Config}

/-- The operation the L3 tier receives for a command, and its label. -/
def l3Operation (cfg : L2Config) (clock : Option Int64) (cache : UpdateCache) (seq : SequenceId)
    (o : L2Operation) (label : ℕ) (dedup : Bool) : L3Operation :=
  ⟨{ stamp clock seq with l2Idx := cfg.idx, l2SeqNo := seq.serverSeqNo }, toString label,
    L2Column.forwardValue cfg cache o, o.value == "", dedup⟩

/-- The L3 worker a label is forwarded to, if its column can be reached. -/
def target (reach : ℕ → Bool) (clients : List L3Column) (label : ℕ) : Option (ℕ × ℕ) :=
  (routeL3 clients (toString label)).filter fun y => reach y.1

lemma forwardRequest_target (env : Env L2Effect) {reach : ℕ → Bool}
    (out : ∀ c k label o dedup, env.out (.forward c k label o dedup) = reach c) (s : L2State)
    (seq : SequenceId) {args : ArgList} (dedup : Bool) {o : L2Operation} {rest : ArgList} {l : ℕ}
    {clients : List L3Column} (parsed : L2Operation.deserialize args = .ok (o, rest))
    (labelled : cfg.replicaToLabel.lookup (labelName o) = some l)
    (iface : s.l3Iface = some clients) :
    (forwardRequest cfg env s seq args dedup).sent =
        ((target reach clients l).toList.map fun y => .forward y.1 y.2 (toString l)
          { o with seqId := { stamp env.clock seq with
            l2Idx := cfg.idx
            l2SeqNo := seq.serverSeqNo } } dedup) ∧
      ((forwardRequest cfg env s seq args dedup).status = .returned ↔
        (target reach clients l).isSome = true) := by
  simp only [forwardRequest, parsed, labelled, iface, target]
  cases routeL3 clients (toString l) with
  | none => simp
  | some y =>
    cases up : reach y.1 with
    | false => simp [Outcome.send, out, up]
    | true => simp only [Outcome.send, out, up, Option.filter_some, if_true, Option.toList_some,
        List.map_cons, List.map_nil, Option.isSome_some, and_self]

end L2Proxy

namespace Ingest
variable {cfg : IngestConfig} {s : Ingest} {c w i : ℕ} {op : ChainOp} {m : ChainModule L2State}
  {net : ChainNet L2State} {o : Outcome (ChainModule L2State) (Send L2Effect)}
  {ext : Outside L2Effect}

lemma L2Runs.isTail (runs : L2Runs cfg s ext c w i op m net o) :
    m.isTail = (((s.l2 c).net w).node i).isTail := by
  rw [ChainModule.isTail, runs.agrees.role]
  rfl

/-- A row that runs a command updates its cache, and forwards it if it is the tail. -/
theorem L2Runs.absorbed (runs : L2Runs cfg s ext c w i op m net o) :
    ((s.l2 c).absorb (cfg.l2 c) w i (net.finish i o)).column.cache =
        Function.update (s.l2 c).cache i (L2Column.afterPut (cfg.l2 c w) ((s.l2 c).cache i) op) ∧
      (m.isTail = false → o.status = .returned ∧
        ((s.l2 c).absorb (cfg.l2 c) w i (net.finish i o)).sent = []) := by
  have fits : L2Proxy.Fits op.args := runs.args.imp fun _ h => h.imp fun _ h => h.1
  have cache := L2Column.cache_of_advanced (c := cfg.l2 c) (i := i) runs.adv fits runs.runs
    ((s.l2 c).cache i)
  refine ⟨congrArg (Function.update (s.l2 c).cache i) cache, fun notTail => ?_⟩
  obtain ⟨p, rest, parsed, run⟩ := L2Proxy.runCommand_of_runs (cfg.l2 c w) fits runs.runs
  have outs := runs.adv.outs
  have status := runs.adv.status
  simp only [notTail, Bool.false_eq_true, if_false, List.append_nil] at outs status
  refine ⟨status, ?_⟩
  simp only [L2Column.absorb, finish, outs, L2Proxy.callbacks, run]
  split <;> rfl

theorem L2Runs.forwarded (shape : Shaped cfg) (runs : L2Runs cfg s ext c w i op m net o)
    {reach : ℕ → Bool} (out : ∀ c k label o dedup, ext.out (.forward c k label o dedup) = reach c)
    (tail : m.isTail = true) {clients : List L3Column} (iface : m.user.l3Iface = some clients) :
    ∃ p rest l, L2Operation.deserialize op.args = .ok (p, rest) ∧ Good cfg p.key p.replica ∧
      (cfg.l2 c w).replicaToLabel.lookup (L2Proxy.labelName p) = some l ∧
      ((s.l2 c).absorb (cfg.l2 c) w i (net.finish i o)).sent =
        ((L2Proxy.target reach clients l).toList.map fun y => ⟨w, i, .request y.1 y.2
          (L2Proxy.l3Operation (cfg.l2 c w) ext.clock
            (L2Column.afterPut (cfg.l2 c w) ((s.l2 c).cache i) op) op.seq p l true)⟩) ∧
      (o.status = .returned ↔ (L2Proxy.target reach clients l).isSome = true) := by
  obtain ⟨p, rest, parsed, good⟩ := runs.args
  obtain ⟨l, labelled⟩ := shape.labels c w p.key p.replica good
  obtain ⟨p', rest', parsed', run⟩ := L2Proxy.runCommand_of_runs (cfg.l2 c w)
    ⟨p, rest, parsed⟩ runs.runs
  obtain ⟨rfl, rfl⟩ : p = p' ∧ rest = rest' := by simpa [parsed] using parsed'
  refine ⟨p, rest, l, parsed, good, labelled, ?_⟩
  have outs := runs.adv.outs
  have status := runs.adv.status
  simp only [tail, if_true, L2Proxy.callbacks, run] at outs status
  obtain ⟨sent, returned⟩ := L2Proxy.forwardRequest_target (((s.l2 c).net w).env ext m) out
    { m.user with lastSeenSeq := m.user.lastSeenSeq.set op.seq.l1Idx.toNat op.seq.l1SeqNo } op.seq
    true parsed labelled iface
  rw [status, returned]
  refine ⟨?_, Iff.rfl⟩
  simp only [L2Column.absorb, finish, outs, sent]
  cases L2Proxy.target reach clients l with
  | none =>
    simp only [Option.toList_none, List.map_nil, List.append_nil]
    split <;> rfl
  | some y =>
    simp only [Option.toList_some, List.map_cons, List.map_nil, List.foldl_append, List.foldl_cons,
      List.foldl_nil, L2Column.afterPut, L2Proxy.cached, parsed]
    split <;> rfl

end Ingest

namespace Pipeline
variable (cfg : PipelineConfig)

/-- The worker exists in its column of the L2 tier. -/
def InL2 (c w : ℕ) : Prop := ∃ n, cfg.l1.l2Workers[c]? = some n ∧ w < n

/-- What a grid of hosts and the tables of the initializer guarantee for all tiers. -/
structure Shaped : Prop where
  ingest : Ingest.Shaped cfg.toIngestConfig
  l3Workers : cfg.l3Workers ≠ []
  connected : ∀ c w, (cfg.l2 c w).l3Workers = cfg.l3Workers
  workers : cfg.l3.l2Workers = cfg.l1.l2Workers
  idx : ∀ c w, InL2 cfg c w → 0 ≤ (cfg.l2 c w).idx ∧ (cfg.l2 c w).idx < cfg.l1.l2Workers.sum
  distinct : ∀ c w c' w', InL2 cfg c w → InL2 cfg c' w' → (cfg.l2 c w).idx = (cfg.l2 c' w').idx →
    c = c' ∧ w = w'

variable (s : Pipeline)

/-- Steps of the L1 and L2 tiers; acknowledgements of the tier behind are taken first. -/
inductive Enters : PipelineLabel → Pipeline → ℕ → IngestLabel → Prop
  | client {oracle k row op draws} :
    Enters (.client oracle k row op draws) s 0 (.client oracle k row op draws)
  | l1 {oracle k label} : Enters (.l1 oracle k label) s 0 (.l1 oracle k label)
  | l2Request {clock k row x} : Enters (.l2Request clock k row x) s x.column
      (.deliver (s.outside clock) k row x)
  | l2 {clock column label} (inner : ∀ w row seqs, label ≠ .externalAck w row seqs) :
    Enters (.l2 clock column label) s column (.l2 (s.outside clock) column label)
  | l2Ack {clock n a} (found : s.l2Acks[n]? = some a) :
    Enters (.l2Ack clock n) { s with l2Acks := s.l2Acks.eraseIdx n } a.dst.column
      (.l2 (s.outside clock) a.dst.column (.externalAck a.dst.worker a.dst.row a.seqs))
  | l1Ack {oracle n a} (found : s.l1Acks[n]? = some a) :
    Enters (.l1Ack oracle n) { s with l1Acks := s.l1Acks.eraseIdx n } 0
      (.ackL1 oracle a.dst a.row a.seqs)

/-- Calls of the manager at an L2 worker, which run no command. -/
inductive Manages : PipelineLabel → L2Target → Outcome (ChainModule L2State) (Send L2Effect) → Prop
  | removeL3 {x : L2Target} {column : ℕ}
      (alive : ((s.ingest.l2 x.column).net x.worker).alive x.row = true) :
    Manages (.removeL3 x column) x
      (L2Proxy.removeConnection (((s.ingest.l2 x.column).net x.worker).node x.row) column)
  | selectiveResend {clock} {x : L2Target} {column numColumns ops}
      (alive : ((s.ingest.l2 x.column).net x.worker).alive x.row = true)
      (perm : ops.Perm ((((s.ingest.l2 x.column).net x.worker).node x.row).pending.entries.map
        fun e => e.2)) :
    Manages (.selectiveResend clock x column numColumns ops) x
      (L2Proxy.selectiveResendPending (cfg.l2 x.column x.worker)
        (((s.ingest.l2 x.column).net x.worker).env (s.outside clock)
          (((s.ingest.l2 x.column).net x.worker).node x.row))
        (((s.ingest.l2 x.column).net x.worker).node x.row) column numColumns ops)
  | connectL1Acks {x : L2Target} {column row : ℕ}
      (alive : ((s.ingest.l2 x.column).net x.worker).alive x.row = true) :
    Manages (.connectL1Acks x column row) x
      (L2Proxy.connectAcks (((s.ingest.l2 x.column).net x.worker).node x.row) column row
        ((cfg.l1Workers[column]?).getD 0))

/-- Everything a step can be while no L1 or L2 instance fails. -/
inductive CalmCase : PipelineLabel → PipelineResult → Prop
  | ingest {label s₀ column il ir} (source : Enters s label s₀ column il)
      (taken : Ingest.SteadyCase cfg.toIngestConfig s.ingest il ir) :
    CalmCase label (s₀.absorb column ir)
  | manager {label x o} (source : Manages cfg s label x o) : CalmCase label (s.callL2 cfg x o)
  | accept {clock x y op rest} (popped : s.link x y = op :: rest) (alive : s.l3Alive y.1 = true) :
    CalmCase (.l3Request clock x y) (({ s with link := s.setLink x y rest } : Pipeline).finishL3 cfg
      y ((s.l3 y).asyncOperation cfg.l3 clock op))
  | l3 {clock y label r} (taken : s.stepL3 cfg clock y label = some r) :
    CalmCase (.l3 clock y label) r
  | crashL3 {column} : CalmCase (.crashL3 column)
      ⟨{ s with l3Alive := Function.update s.l3Alive column false }, .returned⟩
  | loseL3 {x y kept} (part : kept <+: s.link x y) : CalmCase (.loseL3 x y kept)
      ⟨{ s with link := s.setLink x y kept }, .returned⟩
  | loseL2Ack {n} : CalmCase (.loseL2Ack n) ⟨{ s with l2Acks := s.l2Acks.eraseIdx n }, .returned⟩
  | connectL2Acks {y column row} (alive : s.l3Alive y.1 = true) :
    CalmCase (.connectL2Acks y column row) ⟨s.setWorker y ((s.l3 y).updateConnections column row
      ((cfg.l3.l2Workers[column]?).getD 0)), .returned⟩

/-- Client requests are for known keys, samples are drawn from the tables. -/
def Valid : PipelineLabel → Prop
  | .client oracle k row op draws =>
    Ingest.Valid cfg.toIngestConfig (.client oracle k row op draws)
  | _ => True

variable {cfg s}

lemma entry_of_ingestStep {label : PipelineLabel} {s₀ : Pipeline} {column : ℕ} {il : IngestLabel}
    {r : PipelineResult} (source : Enters s label s₀ column il) (steady : il.steady = true)
    (taken : s₀.ingestStep cfg column il = some r) (same : s₀.ingest = s.ingest) :
    ∃ s₀ column il ir, Enters s label s₀ column il ∧ il.steady = true ∧
      s.ingest.step cfg.toIngestConfig il = some ir ∧ r = s₀.absorb column ir := by
  obtain ⟨ir, moved, rfl⟩ := Option.map_eq_some_iff.mp taken
  rw [same] at moved
  exact ⟨s₀, column, il, ir, source, steady, moved, rfl⟩

/-- A step while no L1 or L2 instance fails is a step of these tiers or one behind them. -/
theorem calm_entry {label : PipelineLabel} {r : PipelineResult} (calm : label.calm = true)
    (taken : s.step cfg label = some r) :
    (∃ s₀ column il ir, Enters s label s₀ column il ∧ il.steady = true ∧
        s.ingest.step cfg.toIngestConfig il = some ir ∧ r = s₀.absorb column ir) ∨
      CalmCase cfg s label r ∧ ∀ s₀ column il, ¬ Enters s label s₀ column il := by
  cases label with
  | client oracle k row op draws => exact .inl (entry_of_ingestStep .client rfl taken rfl)
  | l1 oracle k nl => exact .inl (entry_of_ingestStep .l1 calm taken rfl)
  | l2Request clock k row x => exact .inl (entry_of_ingestStep .l2Request rfl taken rfl)
  | l2 clock column label =>
    cases label with
    | externalAck => simp [step] at taken
    | request | chain | crash => exact .inl (entry_of_ingestStep (.l2 (by simp)) calm taken rfl)
  | l2Ack clock n =>
    simp only [step] at taken
    split at taken
    · simp at taken
    · next a found => exact .inl (entry_of_ingestStep (.l2Ack found) rfl taken rfl)
  | l1Ack oracle n =>
    simp only [step] at taken
    split at taken
    · simp at taken
    · next a found => exact .inl (entry_of_ingestStep (.l1Ack found) rfl taken rfl)
  | l3Request clock x y =>
    simp only [step] at taken
    split at taken
    · simp at taken
    · next op rest popped =>
      simp only [Option.ite_none_right_eq_some, Option.some.injEq] at taken
      obtain ⟨alive, rfl⟩ := taken
      exact .inr ⟨.accept popped alive, fun _ _ _ source => nomatch source⟩
  | loseL3 x y kept =>
    simp only [step, Bool.and_eq_true, Option.ite_none_right_eq_some, Option.some.injEq] at taken
    obtain ⟨⟨-, part⟩, rfl⟩ := taken
    exact .inr ⟨.loseL3 (List.isPrefixOf_iff_prefix.mp part), fun _ _ _ source => nomatch source⟩
  | l3 clock y label => exact .inr ⟨.l3 taken, fun _ _ _ source => nomatch source⟩
  | crashL3 column =>
    simp only [step, Option.some.injEq] at taken
    exact .inr ⟨taken ▸ .crashL3, fun _ _ _ source => nomatch source⟩
  | loseL2Ack n =>
    simp only [step] at taken
    split at taken
    · simp at taken
    · simp only [Option.ite_none_right_eq_some, Option.some.injEq] at taken
      obtain ⟨-, rfl⟩ := taken
      exact .inr ⟨.loseL2Ack, fun _ _ _ source => nomatch source⟩
  | removeL3 x column =>
    simp only [step, Option.ite_none_right_eq_some, Option.some.injEq] at taken
    obtain ⟨alive, rfl⟩ := taken
    exact .inr ⟨.manager (.removeL3 alive), fun _ _ _ source => nomatch source⟩
  | selectiveResend clock x column numColumns ops =>
    simp only [step, Bool.and_eq_true, decide_eq_true_eq, Option.ite_none_right_eq_some,
      Option.some.injEq] at taken
    obtain ⟨⟨alive, perm⟩, rfl⟩ := taken
    exact .inr ⟨.manager (.selectiveResend alive perm), fun _ _ _ source => nomatch source⟩
  | connectL1Acks x column row =>
    simp only [step, Option.ite_none_right_eq_some, Option.some.injEq] at taken
    obtain ⟨alive, rfl⟩ := taken
    exact .inr ⟨.manager (.connectL1Acks alive), fun _ _ _ source => nomatch source⟩
  | connectL2Acks y column row =>
    simp only [step, Option.ite_none_right_eq_some, Option.some.injEq] at taken
    obtain ⟨alive, rfl⟩ := taken
    exact .inr ⟨.connectL2Acks alive, fun _ _ _ source => nomatch source⟩
  | crashL1 | loseL2 | reconnect | loseL1Ack => simp [PipelineLabel.calm] at calm

theorem calm_cases (shape : Ingest.Shaped cfg.toIngestConfig)
    (h : Ingest.Calm cfg.toIngestConfig s.ingest) {label : PipelineLabel} {r : PipelineResult}
    (calm : label.calm = true) (valid : Valid cfg label) (taken : s.step cfg label = some r) :
    CalmCase cfg s label r := by
  rcases calm_entry calm taken with ⟨s₀, column, il, ir, source, steady, moved, rfl⟩ | ⟨case, -⟩
  · have known : Ingest.Valid cfg.toIngestConfig il := by
      cases source with
      | client => exact valid
      | l1 | l2Request | l2 | l2Ack | l1Ack => trivial
    exact .ingest source (Ingest.steady_cases shape h steady known moved)
  · exact case

section Absorb
variable (s : Pipeline) (column : ℕ) (r : IngestResult)

lemma foldl_post (sent : List (L2Sent ℕ)) (s : Pipeline) :
    ∃ link l1Acks, sent.foldl (post column) s = { s with link := link, l1Acks := l1Acks } ∧
      (∀ x y, link x y = s.link x y ++
        if x.column = column then Egress.arrivals sent x.worker x.row y else []) ∧
      l1Acks = s.l1Acks ++ sent.filterMap fun m => match m.message with
        | .request .. => none
        | .ack batch => some ⟨⟨column, m.worker, m.row⟩, batch.idx, batch.row, batch.seqs⟩ := by
  induction sent generalizing s with
  | nil => exact ⟨s.link, s.l1Acks, rfl, by simp [Egress.arrivals], by simp⟩
  | cons m sent ih =>
    obtain ⟨link, acks, result, links, acked⟩ := ih (post column s m)
    refine ⟨link, acks, ?_, fun x y => ?_, ?_⟩
    · rw [List.foldl_cons, result]
      unfold post
      split <;> rfl
    · obtain ⟨c, w, i⟩ := x
      rw [links]
      obtain ⟨w', i', message⟩ := m
      cases message with
      | ack batch => simp [post, Egress.arrivals]
      | request c' k' op =>
        by_cases here : c = column
        · subst here
          by_cases hit : w' = w ∧ i' = i ∧ (c', k') = y
          · obtain ⟨rfl, rfl, rfl⟩ := hit
            simp [post, Egress.arrivals]
          · have away : ¬ ((⟨c, w, i⟩ : L2Target) = ⟨c, w', i'⟩ ∧ y = (c', k')) := by
              rintro ⟨same, rfl⟩
              simp only [L2Target.mk.injEq, true_and] at same
              exact hit ⟨same.1.symm, same.2.symm, rfl⟩
            have arrivals : Egress.arrivals (⟨w', i', .request c' k' op⟩ :: sent) w i y =
                Egress.arrivals sent w i y := by
              simp [Egress.arrivals, hit]
            dsimp only [post]
            rw [if_neg away, arrivals]
        · simp [post, here]
    · rw [acked]
      obtain ⟨w', i', message⟩ := m
      cases message <;> simp [post]

lemma absorb_frame : ∃ link l1Acks, (s.absorb column r).state =
    { s with ingest := r.state, link := link, l1Acks := l1Acks } := by
  obtain ⟨link, acks, result, -⟩ := foldl_post column r.sent { s with ingest := r.state }
  exact ⟨link, acks, result⟩

@[simp] lemma absorb_ingest : (s.absorb column r).state.ingest = r.state := by
  obtain ⟨_, _, result⟩ := absorb_frame s column r
  rw [result]

@[simp] lemma absorb_l3 : (s.absorb column r).state.l3 = s.l3 := by
  obtain ⟨_, _, result⟩ := absorb_frame s column r
  rw [result]

@[simp] lemma absorb_l3Alive : (s.absorb column r).state.l3Alive = s.l3Alive := by
  obtain ⟨_, _, result⟩ := absorb_frame s column r
  rw [result]

@[simp] lemma absorb_status : (s.absorb column r).status = r.status := rfl

lemma absorb_link (x : L2Target) (y : ℕ × ℕ) : (s.absorb column r).state.link x y =
    s.link x y ++ if x.column = column then Egress.arrivals r.sent x.worker x.row y else [] := by
  obtain ⟨_, _, result, link, -⟩ := foldl_post column r.sent { s with ingest := r.state }
  rw [show (s.absorb column r).state = _ from result]
  exact link x y

end Absorb

end Pipeline
end Shortstack
