import Shortstack.PipelineDeployment
import Shortstack.PipelineErasure
import Shortstack.StoreStock

/-! What the stores see of a run without failures. Two runs with the same schedule, whose
batches ask for the same replicas of the same keys, send the same commands to every store; when
each of them answers and acknowledges what came back is its own affair. -/
namespace Shortstack
open ChainModule Transition

namespace L1Proxy

/-- The keys and replicas of the batch a client request leads to. -/
def drawn (cfg : L1Config) (clock : Option Int64) (m : ChainModule L1State) (op : L1Operation)
    (draws : ℕ → Draw) : Option (List (String × Int32)) :=
  match createSecurityBatch cfg draws (m.user.internalQueue ++ [timed clock op]) with
  | (_, .ok batch) => some (batch.map L2Operation.target)
  | (_, .error _) => none

variable {cfg : L1Config} {pick : ℤ → ℕ} {reach reach' : ℕ → ℕ → Bool} {env env' : Env L1Effect}
  {m m' : ChainModule L1State}

lemma processOp_same (same : SameReach env env') (next : env.next = env'.next)
    (h : erasure.SameModule m m') {op op' : L1Operation} {draws draws' : ℕ → Draw}
    (batch : drawn cfg env.clock m op draws = drawn cfg env'.clock m' op' draws') :
    erasure.SameOutcome (processOp cfg pick reach env m op draws)
      (processOp cfg pick reach' env' m' op' draws') := by
  unfold drawn at batch
  rcases @processOp_cases cfg pick reach env m op draws with
    ⟨head, eq⟩ | ⟨head, queue, ⟨e, made, eq⟩ | ⟨ops, made, eq⟩⟩ <;>
  rcases @processOp_cases cfg pick reach' env' m' op' draws' with
    ⟨head', eq'⟩ | ⟨head', queue', ⟨e', made', eq'⟩ | ⟨ops', made', eq'⟩⟩ <;>
  rw [eq, eq']
  · exact ⟨h, rfl, rfl⟩
  · simp [← h.isHead, head] at head'
  · simp [← h.isHead, head] at head'
  · simp [← h.isHead, head] at head'
  · exact ⟨h.withUser h.user, rfl, rfl⟩
  · simp [made, made'] at batch
  · simp [← h.isHead, head] at head'
  · simp [made, made'] at batch
  · simp only [made, made', Option.some.injEq] at batch
    have started : erasure.SameModule (m.withUser { m.user with internalQueue := queue })
        (m'.withUser { m'.user with internalQueue := queue' }) := h.withUser h.user
    refine (respects cfg pick reach reach' same).chainRequest started next (fun _ => rfl) ?_
    simp only [erasure, L2Operation.batchTargets, L2Operation.deserializeBatch_serialize,
      List.map_map]
    exact congrArg some batch

lemma externalAckBatch_same (cb : Callbacks L1State L1Effect) (seqs : List SequenceId)
    (pick : ℤ → ℕ) (reach : ℕ → ℕ → Bool) (made : cb = callbacks cfg pick reach) :
    erasure.SameModule m (externalAckBatch cfg cb env m seqs).state ∧
      requestsOf (externalAckBatch cfg cb env m seqs).sent = [] ∧
      outsOf (externalAckBatch cfg cb env m seqs).sent = [] := by
  subst made
  have effect := @externalAckBatch_effect cfg env (fun _ => True) (callbacks cfg pick reach) m seqs
    (by simp) (by simp)
  obtain ⟨⟨p, user⟩, outs⟩ := @externalAckBatch_user cfg pick reach env m seqs
  obtain ⟨_, _, _, state⟩ := effect.frame
  refine ⟨⟨?_, ?_, ?_, by rw [user]; rfl⟩, effect.requests, outs⟩ <;> rw [state]

end L1Proxy

namespace Ingest
variable {cfg : IngestConfig} {s s' : Ingest}

structure Alike (s s' : Ingest) : Prop where
  l1 : ∀ k, L1Proxy.erasure.SameNet (s.l1 k) (s'.l1 k)
  l2 : ∀ c w, L2Proxy.erasure.SameNet ((s.l2 c).net w) ((s'.l2 c).net w)
  slots : ∀ k row x, (s.link k row x).map L2Operation.numbered =
    (s'.link k row x).map L2Operation.numbered

lemma Alike.rfl' (s : Ingest) : Alike s s :=
  ⟨fun _ => .rfl' _, fun _ _ => .rfl' _, fun _ _ _ => rfl⟩

lemma Alike.symm (h : Alike s s') : Alike s' s :=
  ⟨fun k => (h.l1 k).symm, fun c w => (h.l2 c w).symm, fun k row x => (h.slots k row x).symm⟩

lemma Alike.trans {s'' : Ingest} (h : Alike s s') (h' : Alike s' s'') : Alike s s'' :=
  ⟨fun k => (h.l1 k).trans (h'.l1 k), fun c w => (h.l2 c w).trans (h'.l2 c w),
    fun k row x => (h.slots k row x).trans (h'.slots k row x)⟩

lemma Alike.sameReach (h : Alike s s') (clock clock' : Option Int64) (net net' : ChainNet L1State)
    (m m' : ChainModule L1State) : L1Proxy.SameReach (net.env (s.outside clock) m)
      (net'.env (s'.outside clock') m') := by
  intro e e' column worker row
  simp only [ChainNet.env, outside, column, worker, row, (h.l2 e'.column e'.worker).alive]

lemma forward_same (k row : ℕ) {outs outs' : List L1Effect}
    (slots : ∀ k row x, (s.link k row x).map L2Operation.numbered =
      (s'.link k row x).map L2Operation.numbered)
    (same : outs.filterMap L1Proxy.erasure.out = outs'.filterMap L1Proxy.erasure.out) (a b : ℕ)
    (x : L2Target) : (s.forward k row outs a b x).map L2Operation.numbered =
      (s'.forward k row outs' a b x).map L2Operation.numbered := by
  have sent : ∀ outs : List L1Effect,
      ((outs.filter fun e => ⟨e.column, e.worker, e.row⟩ = x).map L1Effect.op).map
        L2Operation.numbered =
      ((outs.filterMap L1Proxy.erasure.out).filter fun e => e.1 = x).map Prod.snd := by
    intro outs
    induction outs with
    | nil => rfl
    | cons e outs ih =>
      by_cases here : (⟨e.column, e.worker, e.row⟩ : L2Target) = x
      · simpa [L1Proxy.erasure, here] using ih
      · simpa [L1Proxy.erasure, here] using ih
  simp only [forward]
  split
  · rw [List.map_append, List.map_append, sent, sent, same, slots]
  · exact slots a b x

lemma Alike.absorb (h : Alike s s') {k row row' : ℕ} {r r' : NetResult L1State L1Effect}
    (net : L1Proxy.erasure.SameNet r.net r'.net)
    (outs : r.outs.filterMap L1Proxy.erasure.out = r'.outs.filterMap L1Proxy.erasure.out)
    (rows : row = row' ∨ r.outs.filterMap L1Proxy.erasure.out = []) :
    Alike (s.absorb k row r) (s'.absorb k row' r') where
  l1 k' := by
    rcases eq_or_ne k' k with rfl | other
    · simpa [Ingest.absorb] using net
    · simpa [Ingest.absorb, other] using h.l1 k'
  l2 := h.l2
  slots a b x := by
    rcases rows with rfl | none
    · exact forward_same k row h.slots outs a b x
    · have silent : ∀ outs : List L1Effect, outs.filterMap L1Proxy.erasure.out = [] → outs = [] := by
        intro outs none
        simpa [L1Proxy.erasure, List.filterMap_eq_nil_iff, List.eq_nil_iff_forall_not_mem] using none
      simp only [Ingest.absorb, silent r.outs none, silent r'.outs (outs ▸ none), forward_nil]
      exact h.slots a b x

lemma Alike.column (h : Alike s s') (c : ℕ) {col col' : L2Column ℕ}
    (net : ∀ w, L2Proxy.erasure.SameNet (col.net w) (col'.net w)) :
    Alike { s with l2 := Function.update s.l2 c col }
      { s' with l2 := Function.update s'.l2 c col' } where
  l1 := h.l1
  l2 c' w := by
    rcases eq_or_ne c' c with rfl | other
    · simpa using net w
    · simpa [other] using h.l2 c' w
  slots := h.slots

lemma alike_of_l2 {c w i : ℕ} {o : Outcome (ChainModule L2State) (Send L2Effect)}
    (same : L2Proxy.erasure.SameModule (((s.l2 c).net w).node i) o.state)
    (requests : requestsOf o.sent = [])
    (outs : (outsOf o.sent).filterMap L2Proxy.erasure.out = []) :
    Alike { s with l2 := Function.update s.l2 c ((s.l2 c).absorb (cfg.l2 c) w i
        (((s.l2 c).net w).finish i o)).column } s ∧
      ∀ v j y, (Egress.arrivals ((s.l2 c).absorb (cfg.l2 c) w i
        (((s.l2 c).net w).finish i o)).sent v j y).map L3Operation.outline = [] := by
  have net := (Erasure.SameNet.rfl' ((s.l2 c).net w)).deposit_left same requests
  obtain ⟨nets, sent⟩ := @L2Column.absorb_left ℕ _ (cfg.l2 c) (s.l2 c) w i
    (((s.l2 c).net w).finish i o) net outs
  have after := (Alike.rfl' s).column c nets
  rw [Function.update_eq_self] at after
  exact ⟨after, sent⟩

/-- Operations can be forwarded to the same columns of the L3 tier. -/
def SameReach (ext ext' : Outside L2Effect) : Prop := ∀ c k k' l l' o o' d d',
  ext.out (.forward c k l o d) = ext'.out (.forward c k' l' o' d')

/-- Steps on the way to the L3 tier that look alike. -/
inductive SameLabel (cfg : IngestConfig) (s s' : Ingest) : IngestLabel → IngestLabel → Prop
  | client {oracle oracle' k row op op' draws draws'} (pick : oracle.pick = oracle'.pick)
      (batch : L1Proxy.drawn cfg.l1 oracle.clock ((s.l1 k).node row) op draws =
        L1Proxy.drawn cfg.l1 oracle'.clock ((s'.l1 k).node row) op' draws') :
    SameLabel cfg s s' (.client oracle k row op draws) (.client oracle' k row op' draws')
  | l1 {oracle oracle' k nl} (pick : oracle.pick = oracle'.pick) (steady : nl.steady = true) :
    SameLabel cfg s s' (.l1 oracle k nl) (.l1 oracle' k nl)
  | deliver {ext ext' k row x} (reach : SameReach ext ext') :
    SameLabel cfg s s' (.deliver ext k row x) (.deliver ext' k row x)
  | chain {ext ext' c w nl} (reach : SameReach ext ext') (steady : nl.steady = true) :
    SameLabel cfg s s' (.l2 ext c (.chain w nl)) (.l2 ext' c (.chain w nl))

theorem Alike.step (h : Alike s s') {il il' : IngestLabel} {r r' : IngestResult}
    (same : SameLabel cfg s s' il il') (taken : s.step cfg il = some r)
    (taken' : s'.step cfg il' = some r') :
    Alike r.state r'.state ∧ ∀ w i y, (Egress.arrivals r.sent w i y).map L3Operation.outline =
      (Egress.arrivals r'.sent w i y).map L3Operation.outline := by
  cases same with
  | @client oracle oracle' k row op op' draws draws' pick batch =>
    simp only [Ingest.step, Option.ite_none_right_eq_some, Option.some.injEq] at taken taken'
    obtain ⟨-, rfl⟩ := taken
    obtain ⟨-, rfl⟩ := taken'
    have handled := @L1Proxy.processOp_same cfg.l1 oracle'.pick s.reach s'.reach _ _ _ _
      (h.sameReach oracle.clock oracle'.clock (s.l1 k) (s'.l1 k) ((s.l1 k).node row)
        ((s'.l1 k).node row)) ((h.l1 k).up ((h.l1 k).node row) _ _) ((h.l1 k).node row) _ _ _ _ batch
    rw [pick]
    exact ⟨h.absorb ((h.l1 k).deposit handled) handled.outs (.inl rfl), fun _ _ _ => rfl⟩
  | @l1 oracle oracle' k nl pick steady =>
    simp only [Ingest.step, Option.ite_none_right_eq_some, Option.map_eq_some_iff, Bool.and_eq_true]
      at taken taken'
    obtain ⟨⟨internal, -⟩, n, moved, rfl⟩ := taken
    obtain ⟨-, n', moved', rfl⟩ := taken'
    have respects : ∀ m m', L1Proxy.erasure.Respects (s.callbacks cfg oracle)
        (s'.callbacks cfg oracle') ((s.l1 k).env (s.outside oracle.clock) m)
        ((s'.l1 k).env (s'.outside oracle'.clock) m') := by
      intro m m'
      unfold callbacks
      rw [pick]
      exact L1Proxy.respects cfg.l1 oracle'.pick _ _ (h.sameReach _ _ _ _ m m')
    obtain ⟨net, outs, rows⟩ := (h.l1 k).step respects (L1Proxy.deaf _ _ _) (L1Proxy.deaf _ _ _) internal
      steady moved moved'
    have absorbed := h.absorb (k := k) net outs rows
    exact ⟨⟨absorbed.l1, absorbed.l2, absorbed.slots⟩, fun _ _ _ => rfl⟩
  | @deliver ext ext' k row x reach =>
    simp only [Ingest.step] at taken taken'
    split at taken
    · simp at taken
    · next op rest link =>
      split at taken'
      · simp at taken'
      · next op' rest' link' =>
        obtain ⟨o, moved, rfl⟩ := Option.map_eq_some_iff.mp taken
        obtain ⟨o', moved', rfl⟩ := Option.map_eq_some_iff.mp taken'
        have both := h.slots k row x
        rw [link, link', List.map_cons, List.map_cons, List.cons.injEq] at both
        simp only [L2Column.step, Option.ite_none_right_eq_some, Option.some.injEq] at moved moved'
        obtain ⟨-, rfl⟩ := moved
        obtain ⟨-, rfl⟩ := moved'
        have node := (h.l2 x.column x.worker).node x.row
        have handled := @L2Proxy.asyncOperation_same (cfg.l2 x.column x.worker)
          (((s.l2 x.column).net x.worker).env ext (((s.l2 x.column).net x.worker).node x.row))
          (((s'.l2 x.column).net x.worker).env ext' (((s'.l2 x.column).net x.worker).node x.row))
          reach ((h.l2 x.column x.worker).up node ext ext') _ _ node op op' both.1
        obtain ⟨nets, sent⟩ := @L2Column.absorb_same ℕ _ (cfg.l2 x.column) _ _ (h.l2 x.column)
          x.worker x.row x.row (((s.l2 x.column).net x.worker).finish x.row _)
          (((s'.l2 x.column).net x.worker).finish x.row _) ((h.l2 x.column x.worker).deposit handled) handled.outs (.inl rfl)
        have after := h.column x.column nets
        refine ⟨⟨after.l1, after.l2, fun a b c => ?_⟩, sent⟩
        simp only [setLink]
        split
        · exact both.2
        · exact h.slots a b c
  | @chain ext ext' c w nl reach steady =>
    simp only [Ingest.step, L2Column.step, Option.ite_none_right_eq_some, Option.map_eq_some_iff]
      at taken taken'
    obtain ⟨_, ⟨internal, o, moved, rfl⟩, rfl⟩ := taken
    obtain ⟨_, ⟨-, o', moved', rfl⟩, rfl⟩ := taken'
    obtain ⟨net, outs, rows⟩ := (h.l2 c w).step (fun m m' => L2Proxy.respects (cfg.l2 c w) reach)
      (L2Proxy.deaf _) (L2Proxy.deaf _) internal steady moved moved'
    obtain ⟨nets, sent⟩ := @L2Column.absorb_same ℕ _ (cfg.l2 c) _ _ (h.l2 c) w _ _ _ _ net outs rows
    exact ⟨h.column c nets, sent⟩

end Ingest

/-- A command as a store receives it. -/
structure StoreCommand where
  worker : ℕ × ℕ
  server : ℕ
  kind : OpCode
  labels : List String
  deriving DecidableEq, Repr

/-- The schedule of a step: what it is, without the clock and without the client's request. -/
def PipelineLabel.schedule : PipelineLabel → PipelineLabel
  | .client oracle k row _ _ => .client ⟨oracle.pick, none⟩ k row ⟨{}, "", ""⟩ default
  | .l1 oracle k label => .l1 ⟨oracle.pick, none⟩ k label
  | .l2Request _ k row x => .l2Request none k row x
  | .l2 _ column label => .l2 none column label
  | .l3Request _ x y => .l3Request none x y
  | .l3 _ y label => .l3 none y label
  | .l2Ack _ n => .l2Ack none n
  | .l1Ack oracle n => .l1Ack ⟨oracle.pick, none⟩ n
  | .selectiveResend _ x column numColumns ops => .selectiveResend none x column numColumns ops
  | label => label

namespace Pipeline
variable (cfg : PipelineConfig)

/-- The commands the stores receive in a step. -/
def storeCommands (s : Pipeline) : PipelineLabel → List StoreCommand
  | .l3 _ y .serveGet => ((s.l3 y).mgets.take 1).map fun ops =>
    ⟨y, cfg.server y.1, .get, ops.map L3Operation.label⟩
  | .l3 _ y .servePut => ((s.l3 y).msets.take 1).map fun writes =>
    ⟨y, cfg.server y.1, .put, writes.map fun e => e.op.label⟩
  | _ => []

/-- The batch a step makes of a client request asks for these keys and replicas. -/
def drawn (s : Pipeline) : PipelineLabel → Option (List (String × Int32))
  | .client oracle k row op draws =>
    L1Proxy.drawn cfg.l1 oracle.clock ((s.ingest.l1 k).node row) op draws
  | _ => none

/-- Steps that only answer and acknowledge. -/
def quiet : PipelineLabel → Bool
  | .l2Ack .. | .l1Ack .. | .connectL1Acks .. | .connectL2Acks .. | .l3 _ _ .putReply
  | .l3 _ _ .respond => true
  | _ => false

/-- Two runs without failures on the same schedule, whose batches ask for the same. Either may
answer and acknowledge on its own. -/
def sameSchedule (p : Pipeline × Pipeline) : Option PipelineLabel × Option PipelineLabel → Prop
  | (some l, some l') => l.steady = true ∧ l'.steady = true ∧ l.schedule = l'.schedule ∧
      drawn cfg p.1 l = drawn cfg p.2 l'
  | (some l, none) | (none, some l) => quiet l = true
  | (none, none) => True

structure Alike (s s' : Pipeline) : Prop where
  ingest : Ingest.Alike s.ingest s'.ingest
  alive : s.l3Alive = s'.l3Alive
  link : ∀ x y, (s.link x y).map L3Operation.outline = (s'.link x y).map L3Operation.outline
  l3 : ∀ y, (s.l3 y).outline = (s'.l3 y).outline
  kv : ∀ server label, (s.kv server label).isSome = (s'.kv server label).isSome

variable {cfg} {s s' : Pipeline}

lemma Alike.symm (h : Alike s s') : Alike s' s :=
  ⟨h.ingest.symm, h.alive.symm, fun x y => (h.link x y).symm, fun y => (h.l3 y).symm,
    fun server label => (h.kv server label).symm⟩

lemma Alike.trans {s'' : Pipeline} (h : Alike s s') (h' : Alike s' s'') : Alike s s'' :=
  ⟨h.ingest.trans h'.ingest, h.alive.trans h'.alive, fun x y => (h.link x y).trans (h'.link x y),
    fun y => (h.l3 y).trans (h'.l3 y), fun server label => (h.kv server label).trans
      (h'.kv server label)⟩

lemma Alike.sameReach (h : Alike s s') (clock clock' : Option Int64) :
    Ingest.SameReach (s.outside clock) (s'.outside clock') := by
  intro c k k' l l' o o' d d'
  simp only [outside, h.alive]

lemma Alike.ingestStep (h : Alike s s') {column : ℕ} {il il' : IngestLabel} {r r' : PipelineResult}
    (same : Ingest.SameLabel cfg.toIngestConfig s.ingest s'.ingest il il')
    (taken : s.ingestStep cfg column il = some r)
    (taken' : s'.ingestStep cfg column il' = some r') : Alike r.state r'.state := by
  obtain ⟨ir, moved, rfl⟩ := Option.map_eq_some_iff.mp taken
  obtain ⟨ir', moved', rfl⟩ := Option.map_eq_some_iff.mp taken'
  obtain ⟨after, sent⟩ := h.ingest.step same moved moved'
  refine ⟨by simpa using after, by simpa using h.alive, fun x y => ?_, by simpa using h.l3, ?_⟩
  · rw [absorb_link, absorb_link, List.map_append, List.map_append, h.link]
    split
    · rw [sent]
    · rfl
  · obtain ⟨_, _, result⟩ := absorb_frame s column ir
    obtain ⟨_, _, result'⟩ := absorb_frame s' column ir'
    rw [result, result']
    exact h.kv

lemma alike_of_absorb {s₀ : Pipeline} {column : ℕ} {ir : IngestResult}
    (frame : ∃ l2Acks l1Acks, s₀ = { s with l2Acks := l2Acks, l1Acks := l1Acks })
    (after : Ingest.Alike ir.state s.ingest)
    (sent : ∀ w i y, (Egress.arrivals ir.sent w i y).map L3Operation.outline = []) :
    Alike (s₀.absorb column ir).state s := by
  obtain ⟨_, _, rfl⟩ := frame
  refine ⟨by simpa using after, by simp, fun x y => ?_, by simp, ?_⟩
  · rw [absorb_link, List.map_append]
    split
    · rw [sent, List.append_nil]
    · rw [List.map_nil, List.append_nil]
  · obtain ⟨_, _, result⟩ := absorb_frame _ column ir
    rw [result]
    exact fun _ _ => rfl

lemma alike_of_callL2 {x : L2Target} {o : Outcome (ChainModule L2State) (Send L2Effect)}
    (same : L2Proxy.erasure.SameModule (((s.ingest.l2 x.column).net x.worker).node x.row) o.state)
    (silent : o.sent = []) : Alike (s.callL2 cfg x o).state s := by
  obtain ⟨after, sent⟩ := @Ingest.alike_of_l2 cfg.toIngestConfig s.ingest x.column x.worker x.row o
    same (by simp [silent]) (by simp [silent])
  exact alike_of_absorb ⟨s.l2Acks, s.l1Acks, rfl⟩ after sent

lemma alike_of_worker {y : ℕ × ℕ} {w : L3Worker} {l2Acks : List L2AckMessage}
    {responses : List ClientResponse} (same : w.outline = (s.l3 y).outline) :
    Alike { s.setWorker y w with l2Acks := l2Acks, responses := responses } s where
  ingest := .rfl' _
  alive := rfl
  link _ _ := rfl
  l3 y' := by
    rcases eq_or_ne y' y with rfl | other
    · simpa [setWorker] using same
    · simp [setWorker, other]
  kv _ _ := rfl

/-- Answers and acknowledgements change nothing that matters to the stores. -/
theorem alike_of_quiet {label : PipelineLabel} {r : PipelineResult} (ok : quiet label = true)
    (taken : s.step cfg label = some r) : Alike r.state s := by
  cases label with
  | l2Ack clock n =>
    simp only [step] at taken
    split at taken
    · simp at taken
    · next a found =>
      obtain ⟨ir, moved, rfl⟩ := Option.map_eq_some_iff.mp taken
      simp only [Ingest.step, L2Column.step, Option.map_eq_some_iff,
        Option.ite_none_right_eq_some, Option.some.injEq] at moved
      obtain ⟨_, ⟨-, rfl⟩, rfl⟩ := moved
      obtain ⟨same, requests, outs⟩ := (L2Proxy.deaf (cfg.l2 a.dst.column a.dst.worker)).ackBatch
        (((s.ingest.l2 a.dst.column).net a.dst.worker).env (s.outside clock)
          (((s.ingest.l2 a.dst.column).net a.dst.worker).node a.dst.row))
        (((s.ingest.l2 a.dst.column).net a.dst.worker).node a.dst.row)
        (a.seqs.map fun q => { q with serverSeqNo := q.l2SeqNo })
      obtain ⟨after, sent⟩ := @Ingest.alike_of_l2 cfg.toIngestConfig s.ingest a.dst.column
        a.dst.worker a.dst.row _ same requests outs
      exact alike_of_absorb ⟨s.l2Acks.eraseIdx n, s.l1Acks, rfl⟩ after sent
  | l1Ack oracle n =>
    simp only [step] at taken
    split at taken
    · simp at taken
    · next a found =>
      obtain ⟨ir, moved, rfl⟩ := Option.map_eq_some_iff.mp taken
      simp only [Ingest.step, Option.ite_none_right_eq_some, Option.some.injEq] at moved
      obtain ⟨-, rfl⟩ := moved
      obtain ⟨same, requests, outs⟩ := @L1Proxy.externalAckBatch_same cfg.l1
        ((s.ingest.l1 a.dst).env (s.ingest.outside oracle.clock) ((s.ingest.l1 a.dst).node a.row))
        ((s.ingest.l1 a.dst).node a.row) (s.ingest.callbacks cfg.toIngestConfig oracle) a.seqs
        oracle.pick s.ingest.reach rfl
      have net := (Erasure.SameNet.rfl' (s.ingest.l1 a.dst)).deposit_left same requests
      refine alike_of_absorb ⟨s.l2Acks, s.l1Acks.eraseIdx n, rfl⟩ ?_ fun _ _ _ => rfl
      refine ⟨fun k => ?_, fun _ _ => .rfl' _, fun k row x => ?_⟩
      · rcases eq_or_ne k a.dst with rfl | other
        · simpa [Ingest.absorb, ChainNet.finish] using net
        · simpa [Ingest.absorb, other] using Erasure.SameNet.rfl' (s.ingest.l1 k)
      · simp only [Ingest.absorb, ChainNet.finish, outs, Ingest.forward_nil]
  | connectL1Acks x column row =>
    simp only [step, Option.ite_none_right_eq_some, Option.some.injEq] at taken
    obtain ⟨-, rfl⟩ := taken
    unfold L2Proxy.connectAcks
    split
    · exact alike_of_callL2 ⟨rfl, rfl, rfl, rfl⟩ rfl
    · exact alike_of_callL2 (.rfl' _) rfl
  | connectL2Acks y column row =>
    simp only [step, Option.ite_none_right_eq_some, Option.some.injEq] at taken
    obtain ⟨-, rfl⟩ := taken
    exact alike_of_worker rfl
  | l3 clock y label =>
    cases label with
    | putReply =>
      simp only [step, stepL3, Option.ite_none_right_eq_some, Option.map_eq_some_iff] at taken
      obtain ⟨-, o, moved, rfl⟩ := taken
      exact alike_of_worker (L3Worker.putCallback_outline moved)
    | respond =>
      simp only [step, stepL3, Option.ite_none_right_eq_some, Option.map_eq_some_iff] at taken
      obtain ⟨-, ⟨answer, w⟩, moved, rfl⟩ := taken
      exact alike_of_worker (L3Worker.respond_outline moved)
    | serveGet | getReply | crypto | servePut => simp [quiet] at ok
  | _ => simp [quiet] at ok

lemma quiet_schedule (label : PipelineLabel) : quiet label.schedule = quiet label := by
  cases label with
  | l3 clock y label => cases label <;> rfl
  | _ => rfl

lemma Alike.stepL3 (h : Alike s s') {clock clock' : Option Int64} {y : ℕ × ℕ} {label : L3Label}
    {r r' : PipelineResult} (busy : quiet (.l3 clock y label) = false)
    (taken : s.stepL3 cfg clock y label = some r)
    (taken' : s'.stepL3 cfg clock' y label = some r') : Alike r.state r'.state := by
  have workers : ∀ {w w' : L3Worker}, w.outline = w'.outline →
      ∀ y', (Function.update s.l3 y w y').outline = (Function.update s'.l3 y w' y').outline := by
    intro w w' same y'
    rcases eq_or_ne y' y with rfl | other
    · simpa using same
    · simpa [other] using h.l3 y'
  cases label with
  | serveGet =>
    simp only [Pipeline.stepL3, Option.map_eq_some_iff] at taken taken'
    obtain ⟨w, served, rfl⟩ := taken
    obtain ⟨w', served', rfl⟩ := taken'
    exact ⟨h.ingest, h.alive, h.link, workers (L3Worker.serveGet_outline (h.l3 y)
      (h.kv (cfg.server y.1)) served served'), h.kv⟩
  | getReply =>
    simp only [Pipeline.stepL3, Option.map_eq_some_iff, Option.ite_none_right_eq_some]
      at taken taken'
    obtain ⟨-, o, read, rfl⟩ := taken
    obtain ⟨-, o', read', rfl⟩ := taken'
    exact ⟨h.ingest, h.alive, h.link, workers (L3Worker.getCallback_outline (h.l3 y) read read'),
      h.kv⟩
  | crypto =>
    simp only [Pipeline.stepL3, Option.map_eq_some_iff, Option.ite_none_right_eq_some]
      at taken taken'
    obtain ⟨-, w, round, rfl⟩ := taken
    obtain ⟨-, w', round', rfl⟩ := taken'
    exact ⟨h.ingest, h.alive, h.link, workers (L3Worker.cryptoRound_outline (h.l3 y) round round'),
      h.kv⟩
  | servePut =>
    simp only [Pipeline.stepL3, Option.map_eq_some_iff] at taken taken'
    obtain ⟨⟨kv, w⟩, served, rfl⟩ := taken
    obtain ⟨⟨kv', w'⟩, served', rfl⟩ := taken'
    obtain ⟨same, stock⟩ := L3Worker.servePut_outline (h.l3 y) (h.kv (cfg.server y.1)) served served'
    refine ⟨h.ingest, h.alive, h.link, workers same, fun server label => ?_⟩
    dsimp only
    rcases eq_or_ne server (cfg.server y.1) with rfl | other
    · simpa using stock label
    · simpa [other] using h.kv server label
  | putReply | respond => simp [quiet] at busy

theorem Alike.step (h : Alike s s') {label label' : PipelineLabel} {r r' : PipelineResult}
    (same : sameSchedule cfg (s, s') (some label, some label')) (taken : s.step cfg label = some r)
    (taken' : s'.step cfg label' = some r') : Alike r.state r'.state := by
  obtain ⟨steady, steady', schedule, batch⟩ := same
  dsimp only at steady steady' schedule batch
  cases still : quiet label with
  | true =>
    have still' : quiet label' = true := by
      rw [← quiet_schedule, ← schedule, quiet_schedule, still]
    exact (alike_of_quiet still taken).trans (h.trans (alike_of_quiet still' taken').symm)
  | false =>
    cases label with
    | client oracle k row op draws =>
      cases label' <;> simp only [PipelineLabel.schedule, reduceCtorEq, PipelineLabel.client.injEq,
        L1Oracle.mk.injEq] at schedule
      obtain ⟨⟨pick, -⟩, rfl, rfl, -⟩ := schedule
      exact h.ingestStep (.client pick batch) taken taken'
    | l1 oracle k nl =>
      cases label' <;> simp only [PipelineLabel.schedule, reduceCtorEq, PipelineLabel.l1.injEq,
        L1Oracle.mk.injEq] at schedule
      obtain ⟨⟨pick, -⟩, rfl, rfl⟩ := schedule
      exact h.ingestStep (.l1 pick steady) taken taken'
    | l2Request clock k row x =>
      cases label' <;> simp only [PipelineLabel.schedule, reduceCtorEq,
        PipelineLabel.l2Request.injEq] at schedule
      obtain ⟨-, rfl, rfl, rfl⟩ := schedule
      exact h.ingestStep (.deliver (h.sameReach _ _)) taken taken'
    | l2 clock column l2label =>
      cases label' <;> simp only [PipelineLabel.schedule, reduceCtorEq,
        PipelineLabel.l2.injEq] at schedule
      obtain ⟨-, rfl, rfl⟩ := schedule
      cases l2label with
      | chain w nl => exact h.ingestStep (.chain (h.sameReach _ _) steady) taken taken'
      | request | externalAck => simp [Pipeline.step, Pipeline.ingestStep, Ingest.step] at taken
      | crash => simp [PipelineLabel.steady, PipelineLabel.calm, L2Label.steady] at steady
    | l3Request clock x y =>
      cases label' <;> simp only [PipelineLabel.schedule, reduceCtorEq,
        PipelineLabel.l3Request.injEq] at schedule
      obtain ⟨-, rfl, rfl⟩ := schedule
      simp only [Pipeline.step] at taken taken'
      split at taken
      · simp at taken
      · next op rest popped =>
        split at taken'
        · simp at taken'
        · next op' rest' popped' =>
          simp only [Option.ite_none_right_eq_some, Option.some.injEq] at taken taken'
          obtain ⟨-, rfl⟩ := taken
          obtain ⟨-, rfl⟩ := taken'
          have both := h.link x y
          rw [popped, popped', List.map_cons, List.map_cons, List.cons.injEq] at both
          refine ⟨h.ingest, h.alive, fun a b => ?_, fun y' => ?_, h.kv⟩
          · simp only [finishL3, setWorker, setLink]
            split
            · exact both.2
            · exact h.link a b
          · simp only [finishL3, setWorker]
            rcases eq_or_ne y' y with rfl | other
            · simpa using L3Worker.asyncOperation_outline (h.l3 y') both.1
            · simpa [other] using h.l3 y'
    | l3 clock y l3label =>
      cases label' <;> simp only [PipelineLabel.schedule, reduceCtorEq,
        PipelineLabel.l3.injEq] at schedule
      obtain ⟨-, rfl, rfl⟩ := schedule
      exact h.stepL3 still taken taken'
    | l2Ack | l1Ack | connectL1Acks | connectL2Acks => simp [quiet] at still
    | crashL1 | loseL2 | reconnect | loseL3 | crashL3 | loseL2Ack | loseL1Ack | removeL3
      | selectiveResend => simp [PipelineLabel.steady, PipelineLabel.calm] at steady

lemma Alike.storeCommands (h : Alike s s') {label label' : PipelineLabel}
    (schedule : label.schedule = label'.schedule) :
    Pipeline.storeCommands cfg s label = Pipeline.storeCommands cfg s' label' := by
  have erased : ∀ (s : Pipeline) label, Pipeline.storeCommands cfg s label =
      match label with
      | .l3 _ y .serveGet => ((s.l3 y).outline.mgets.take 1).map fun labels =>
        ⟨y, cfg.server y.1, .get, labels⟩
      | .l3 _ y .servePut => ((s.l3 y).outline.msets.take 1).map fun labels =>
        ⟨y, cfg.server y.1, .put, labels⟩
      | _ => [] := by
    intro s label
    unfold Pipeline.storeCommands
    split <;> simp [L3Worker.outline, ← List.map_take, Function.comp_def]
  have timeless : ∀ (s : Pipeline) (label : PipelineLabel), Pipeline.storeCommands cfg s label =
      Pipeline.storeCommands cfg s label.schedule := by
    intro s label
    cases label with
    | l3 clock y label => cases label <;> rfl
    | _ => rfl
  rw [timeless, schedule, timeless s', erased, erased]
  simp only [h.l3]

lemma storeCommands_quiet {label : PipelineLabel} (still : quiet label = true) :
    Pipeline.storeCommands cfg s label = [] := by
  cases label with
  | l3 clock y label =>
    cases label with
    | putReply | respond => rfl
    | serveGet | getReply | crypto | servePut => simp [quiet] at still
  | _ => rfl

end Pipeline

/-- The labels one L3 worker has read, and written, in the order of the commands. -/
def labelsOf (kind : OpCode) (y : ℕ × ℕ) (commands : List StoreCommand) : List String :=
  (commands.filter fun c => c.worker = y ∧ c.kind = kind).flatMap StoreCommand.labels

lemma labelsOf_append (kind : OpCode) (y : ℕ × ℕ) (commands more : List StoreCommand) :
    labelsOf kind y (commands ++ more) = labelsOf kind y commands ++ labelsOf kind y more := by
  simp [labelsOf]

/-- The slots of a worker against the commands the store has received from it: what was accepted
is read in order, and what was read is written back in order. -/
structure WritesBack (y : ℕ × ℕ) (commands : List StoreCommand) (w : L3Worker) : Prop where
  read : w.filter.gets.map L3Operation.label = labelsOf .get y commands ++
    w.mgets.flatten.map L3Operation.label ++ w.getQueue.map L3Operation.label
  written : labelsOf .get y commands = labelsOf .put y commands ++
    w.msets.flatten.map (fun e => e.op.label) ++ w.cryptoQueue.flatten.map (fun e => e.1.label) ++
    w.getReplies.flatten.map fun e => e.1.label
  answered : ∀ reply ∈ w.getReplies, ∀ e ∈ reply, e.2.isSome = true

namespace WritesBack
variable {cfg : L3Config} {clock : Option Int64} {y : ℕ × ℕ} {commands : List StoreCommand}
  {w t : L3Worker}

lemma frame (h : WritesBack y commands w) (filter : t.filter = w.filter)
    (getQueue : t.getQueue = w.getQueue) (mgets : t.mgets = w.mgets)
    (getReplies : t.getReplies = w.getReplies) (cryptoQueue : t.cryptoQueue = w.cryptoQueue)
    (msets : t.msets = w.msets) : WritesBack y commands t where
  read := by
    rw [filter, mgets, getQueue]
    exact h.read
  written := by
    rw [msets, cryptoQueue, getReplies]
    exact h.written
  answered := getReplies ▸ h.answered

lemma asyncOperation (h : WritesBack y commands w) (op : L3Operation) :
    WritesBack y commands (w.asyncOperation cfg clock op).state := by
  have filtered : (L3Proxy.asyncOperation clock w.filter op).status = .returned ∧
        (L3Proxy.asyncOperation clock w.filter op).state.gets.map L3Operation.label =
          w.filter.gets.map L3Operation.label ++ [op.label] ∨
      (L3Proxy.asyncOperation clock w.filter op).status ≠ .returned ∧
        (L3Proxy.asyncOperation clock w.filter op).state = w.filter := by
    unfold L3Proxy.asyncOperation
    split
    · exact .inr ⟨by simp, rfl⟩
    · split
      · exact .inr ⟨by simp, rfl⟩
      · left
        cases clock <;> simp
  unfold L3Worker.asyncOperation
  dsimp only
  rcases filtered with ⟨status, gets⟩ | ⟨status, same⟩
  · rw [status]
    have joined := enqueue_flatten cfg.storageBatchSize w.getQueue (L3Worker.arrived clock op)
    refine ⟨?_, h.written, h.answered⟩
    have labels := congrArg (List.map L3Operation.label) joined
    simp only [List.map_append, List.map_cons, List.map_nil, L3Worker.arrived_label] at labels
    simp only [Outcome.done_state, L3Worker.asyncGet, gets, h.read, List.flatten_append,
      List.map_append, List.append_assoc, labels]
  · split
    · next returned => exact absurd returned status
    · rw [same]
      exact h.frame rfl rfl rfl rfl rfl rfl

lemma serveGet (h : WritesBack y commands w) {kv : Kv} {server : ℕ}
    (stock : ∀ ops ∈ w.mgets.head?, ∀ op ∈ ops, (kv op.label).isSome = true)
    (served : w.serveGet kv = some t) :
    WritesBack y (commands ++ (w.mgets.take 1).map fun ops =>
      ⟨y, server, .get, ops.map L3Operation.label⟩) t := by
  unfold L3Worker.serveGet at served
  split at served
  · simp at served
  · next ops rest popped =>
    rw [← Option.some.inj served]
    have read := h.read
    rw [popped] at stock read ⊢
    have one : labelsOf .get y [(⟨y, server, .get, ops.map L3Operation.label⟩ : StoreCommand)] =
        ops.map L3Operation.label := by
      simp [labelsOf]
    have none : labelsOf .put y [(⟨y, server, .get, ops.map L3Operation.label⟩ : StoreCommand)] =
        [] := by
      simp [labelsOf]
    simp only [List.take_succ_cons, List.take_zero, List.map_cons, List.map_nil]
    refine ⟨?_, ?_, ?_⟩
    · rw [labelsOf_append, one, read]
      simp
    · rw [labelsOf_append, labelsOf_append, one, none, List.append_nil, h.written]
      simp [Function.comp_def]
    · intro reply hreply
      rcases List.mem_append.mp hreply with old | new
      · exact h.answered reply old
      · rw [List.mem_singleton.mp new]
        intro e he
        obtain ⟨op, hop, rfl⟩ := List.mem_map.mp he
        exact stock ops (by simp) op hop

lemma getCallback (h : WritesBack y commands w) {o : Outcome L3Worker AckBatch}
    (taken : w.getCallback clock = some o) : WritesBack y commands o.state := by
  unfold L3Worker.getCallback at taken
  split at taken
  · simp at taken
  · next reply rest popped =>
    have whole := @L3Worker.mapM_outline clock reply
    have all : (reply.map fun e => (e.1.label, e.2.isSome)).all Prod.snd = true := by
      rw [List.all_eq_true]
      intro e he
      obtain ⟨x, hx, rfl⟩ := List.mem_map.mp he
      exact h.answered reply (by simp [popped]) x hx
    rw [if_pos all] at whole
    have written := h.written
    rw [popped] at written
    split at taken
    · next batch parsed =>
      rw [← Option.some.inj taken]
      rw [parsed, Option.map_some, Option.some.injEq, List.map_map] at whole
      refine ⟨h.read, ?_, fun r hr => h.answered r (by rw [popped]; exact List.mem_cons_of_mem _ hr)⟩
      rw [written]
      have labels : batch.map (fun e => e.1.label) = reply.map fun e => e.1.label := whole
      simp [labels]
    · next parsed => simp [parsed] at whole

lemma cryptoRound (h : WritesBack y commands w) (taken : w.cryptoRound cfg clock = some t) :
    WritesBack y commands t := by
  unfold L3Worker.cryptoRound at taken
  split at taken
  · simp at taken
  · next batch rest popped =>
    rw [← Option.some.inj taken]
    refine ⟨h.read, ?_, h.answered⟩
    rw [h.written, popped]
    simp [enqueueAll_flatten, Function.comp_def, L3Worker.writeBack_label]

lemma servePut (h : WritesBack y commands w) {kv kv' : Kv} {server : ℕ}
    (served : w.servePut kv = some (kv', t)) :
    WritesBack y (commands ++ (w.msets.take 1).map fun writes =>
      ⟨y, server, .put, writes.map fun e => e.op.label⟩) t := by
  unfold L3Worker.servePut at served
  split at served
  · simp at served
  · next writes rest popped =>
    obtain ⟨-, rfl⟩ := Prod.mk.inj (Option.some.inj served)
    have written := h.written
    rw [popped] at written ⊢
    have one : labelsOf .put y
        [(⟨y, server, .put, writes.map fun e => e.op.label⟩ : StoreCommand)] =
        writes.map fun e => e.op.label := by
      simp [labelsOf]
    have none : labelsOf .get y
        [(⟨y, server, .put, writes.map fun e => e.op.label⟩ : StoreCommand)] = [] := by
      simp [labelsOf]
    simp only [List.take_succ_cons, List.take_zero, List.map_cons, List.map_nil]
    refine ⟨?_, ?_, h.answered⟩
    · rw [labelsOf_append, none, List.append_nil]
      exact h.read
    · rw [labelsOf_append, labelsOf_append, one, none, List.append_nil, written]
      simp

lemma putCallback (h : WritesBack y commands w) {up : AckBatch → Bool}
    {o : Outcome L3Worker AckBatch} (taken : w.putCallback cfg clock up = some o) :
    WritesBack y commands o.state := by
  unfold L3Worker.putCallback at taken
  split at taken
  · simp at taken
  · rw [← Option.some.inj taken]
    refine Outcome.forEach_induction (f := L3Worker.completeOne cfg clock up) _ _ []
      (P := fun t _ => WritesBack y commands t) ?_ (h.frame rfl rfl rfl rfl rfl rfl)
    intro t _ e _ before
    unfold L3Worker.completeOne
    dsimp only
    split
    · split <;> exact before.frame rfl rfl rfl rfl rfl rfl
    · split <;> exact before.frame rfl rfl rfl rfl rfl rfl

lemma append (h : WritesBack y commands w) {more : List StoreCommand}
    (other : ∀ c ∈ more, c.worker ≠ y) : WritesBack y (commands ++ more) w := by
  have none : ∀ kind, labelsOf kind y more = [] := by
    intro kind
    rw [labelsOf, List.filter_eq_nil_iff.mpr, List.flatMap_nil]
    intro c hc
    simp [other c hc]
  refine ⟨?_, ?_, h.answered⟩
  · rw [labelsOf_append, none, List.append_nil]
    exact h.read
  · rw [labelsOf_append, labelsOf_append, none, none, List.append_nil, List.append_nil]
    exact h.written

end WritesBack

namespace Pipeline
variable {cfg : PipelineConfig} {s : Pipeline}

lemma writesBack_stepL3 {commands : List StoreCommand}
    (h : ∀ y, WritesBack y commands (s.l3 y)) {clock : Option Int64} {y : ℕ × ℕ} {label : L3Label}
    {r : PipelineResult} (stock : ∀ ops ∈ (s.l3 y).mgets.head?, ∀ op ∈ ops,
      (s.kv (cfg.server y.1) op.label).isSome = true)
    (taken : s.stepL3 cfg clock y label = some r) :
    ∀ y', WritesBack y' (commands ++ storeCommands cfg s (.l3 clock y label)) (r.state.l3 y') := by
  have here : ∀ {w : L3Worker} {more : List StoreCommand}, WritesBack y (commands ++ more) w →
      (∀ c ∈ more, c.worker = y) →
      ∀ y', WritesBack y' (commands ++ more) (Function.update s.l3 y w y') := by
    intro w more same own y'
    rcases eq_or_ne y' y with rfl | other
    · simpa using same
    · rw [Function.update_of_ne other]
      exact (h y').append fun c hc eq => other (eq.symm.trans (own c hc))
  have silent : ∀ {w : L3Worker}, WritesBack y commands w →
      ∀ y', WritesBack y' (commands ++ []) (Function.update s.l3 y w y') :=
    fun same => here (by simpa using same) (by simp)
  cases label with
  | serveGet =>
    simp only [stepL3, Option.map_eq_some_iff] at taken
    obtain ⟨w, served, rfl⟩ := taken
    refine here ((h y).serveGet stock served) fun c hc => ?_
    obtain ⟨ops, -, rfl⟩ := List.mem_map.mp hc
    rfl
  | servePut =>
    simp only [stepL3, Option.map_eq_some_iff] at taken
    obtain ⟨⟨kv, w⟩, served, rfl⟩ := taken
    refine here ((h y).servePut served) fun c hc => ?_
    obtain ⟨writes, -, rfl⟩ := List.mem_map.mp hc
    rfl
  | getReply =>
    simp only [stepL3, Option.map_eq_some_iff, Option.ite_none_right_eq_some] at taken
    obtain ⟨-, o, read, rfl⟩ := taken
    exact silent ((h y).getCallback read)
  | crypto =>
    simp only [stepL3, Option.map_eq_some_iff, Option.ite_none_right_eq_some] at taken
    obtain ⟨-, w, round, rfl⟩ := taken
    exact silent ((h y).cryptoRound round)
  | putReply =>
    simp only [stepL3, Option.map_eq_some_iff, Option.ite_none_right_eq_some] at taken
    obtain ⟨-, o, wrote, rfl⟩ := taken
    exact silent ((h y).putCallback wrote)
  | respond =>
    simp only [stepL3, Option.map_eq_some_iff, Option.ite_none_right_eq_some] at taken
    obtain ⟨-, ⟨answer, w⟩, sent, rfl⟩ := taken
    refine silent ?_
    unfold L3Worker.respond at sent
    split at sent
    · simp at sent
    · obtain ⟨-, rfl⟩ := Prod.mk.inj (Option.some.inj sent)
      exact (h y).frame rfl rfl rfl rfl rfl rfl

theorem writesBack_step {commands : List StoreCommand} (h : ∀ y, WritesBack y commands (s.l3 y))
    {label : PipelineLabel} {r : PipelineResult} (steady : label.steady = true)
    (stock : ∀ y, ∀ ops ∈ (s.l3 y).mgets.head?, ∀ op ∈ ops,
      (s.kv (cfg.server y.1) op.label).isSome = true) (taken : s.step cfg label = some r) :
    ∀ y, WritesBack y (commands ++ storeCommands cfg s label) (r.state.l3 y) := by
  have ingest : ∀ {s₀ : Pipeline} {column : ℕ} {il : IngestLabel},
      s₀.ingestStep cfg column il = some r → s₀.l3 = s.l3 →
      ∀ y, WritesBack y (commands ++ []) (r.state.l3 y) := by
    intro s₀ column il moved same y
    obtain ⟨ir, -, rfl⟩ := Option.map_eq_some_iff.mp moved
    rw [absorb_l3, same, List.append_nil]
    exact h y
  cases label with
  | client | l1 | l2Request => exact ingest taken rfl
  | l2 clock column label =>
    cases label with
    | externalAck => simp [step] at taken
    | request | chain | crash => exact ingest taken rfl
  | l2Ack clock n =>
    simp only [step] at taken
    split at taken
    · simp at taken
    · exact ingest taken rfl
  | l1Ack oracle n =>
    simp only [step] at taken
    split at taken
    · simp at taken
    · exact ingest taken rfl
  | l3Request clock x y =>
    simp only [step] at taken
    split at taken
    · simp at taken
    · next op rest popped =>
      simp only [Option.ite_none_right_eq_some, Option.some.injEq] at taken
      obtain ⟨-, rfl⟩ := taken
      intro y'
      simp only [storeCommands, List.append_nil, finishL3, setWorker]
      rcases eq_or_ne y' y with rfl | other
      · simpa using (h y').asyncOperation op
      · simpa [other] using h y'
  | l3 clock y label => exact writesBack_stepL3 h (stock y) taken
  | connectL1Acks x column row =>
    simp only [step, Option.ite_none_right_eq_some, Option.some.injEq] at taken
    obtain ⟨-, rfl⟩ := taken
    intro y
    simp only [storeCommands, List.append_nil, callL2, absorb_l3]
    exact h y
  | connectL2Acks y column row =>
    simp only [step, Option.ite_none_right_eq_some, Option.some.injEq] at taken
    obtain ⟨-, rfl⟩ := taken
    intro y'
    simp only [storeCommands, List.append_nil, setWorker]
    rcases eq_or_ne y' y with rfl | other
    · rw [Function.update_self]
      exact (h y').frame rfl rfl rfl rfl rfl rfl
    · simpa [other] using h y'
  | crashL1 | loseL2 | reconnect | loseL3 | crashL3 | loseL2Ack | loseL1Ack | removeL3
    | selectiveResend => simp [PipelineLabel.steady, PipelineLabel.calm] at steady

lemma Alike.rfl' (s : Pipeline) : Alike s s :=
  ⟨.rfl' _, rfl, fun _ _ => rfl, fun _ => rfl, fun _ _ => rfl⟩

lemma Alike.move (h : Alike s s') {l : Option PipelineLabel × Option PipelineLabel}
    {t t' : Pipeline × List StoreCommand} {events events' : List StoreCommand}
    (same : sameSchedule cfg (s, s') l) (equal : events = events')
    (moved : (record (pipelineSystem cfg) (Pipeline.storeCommands cfg)).move (s, events) l.1 = some t)
    (moved' : (record (pipelineSystem cfg) (Pipeline.storeCommands cfg)).move (s', events') l.2 =
      some t') : Alike t.1 t'.1 ∧ t.2 = t'.2 := by
  have taken : ∀ {s : Pipeline} {events : List StoreCommand} {label : PipelineLabel}
      {t : Pipeline × List StoreCommand},
      (record (pipelineSystem cfg) (Pipeline.storeCommands cfg)).move (s, events) (some label) =
        some t → ∃ r, s.step cfg label = some r ∧
          t = (r.state, events ++ Pipeline.storeCommands cfg s label) := by
    intro s events label t moved
    obtain ⟨_, stepped, rfl⟩ := Option.map_eq_some_iff.mp moved
    obtain ⟨r, went, rfl⟩ := Option.map_eq_some_iff.mp stepped
    exact ⟨r, went, rfl⟩
  obtain ⟨_ | label, _ | label'⟩ := l
  · rw [← Option.some.inj moved, ← Option.some.inj moved']
    exact ⟨h, equal⟩
  · obtain ⟨r', went', rfl⟩ := taken moved'
    rw [← Option.some.inj moved]
    refine ⟨h.trans (alike_of_quiet same went').symm, ?_⟩
    rw [storeCommands_quiet same, List.append_nil, equal]
  · obtain ⟨r, went, rfl⟩ := taken moved
    rw [← Option.some.inj moved']
    refine ⟨(alike_of_quiet same went).trans h, ?_⟩
    rw [storeCommands_quiet same, List.append_nil, equal]
  · obtain ⟨r, went, rfl⟩ := taken moved
    obtain ⟨r', went', rfl⟩ := taken moved'
    exact ⟨h.step same went went', by rw [equal, h.storeCommands same.2.2.1]⟩

/-- Two runs without failures on one schedule, whose batches ask for the same replicas of the same
keys, send the same commands to the stores. And if the stores hold at the start what they may be
asked for, every slot that leaves the queue of its L3 worker is read once, in order, and then
written back once, in order. -/
theorem stores_see_replicas_only (cfg : PipelineConfig) :
    (∀ p, Reaches (pair (record (pipelineSystem cfg) (storeCommands cfg)))
        (fun p l => sameSchedule cfg (p.1.1, p.2.1) l) p → p.1.2 = p.2.2) ∧
    (Stocked cfg → ∀ q, Reaches (record (pipelineSystem cfg) (storeCommands cfg))
        (fun _ l => l.steady = true) q → ∀ y,
      (q.1.l3 y).filter.gets.map L3Operation.label = labelsOf .get y q.2 ++
        (q.1.l3 y).mgets.flatten.map L3Operation.label ++
        (q.1.l3 y).getQueue.map L3Operation.label ∧
      labelsOf .get y q.2 = labelsOf .put y q.2 ++
        (q.1.l3 y).msets.flatten.map (fun e => e.op.label) ++
        (q.1.l3 y).cryptoQueue.flatten.map (fun e => e.1.label) ++
        (q.1.l3 y).getReplies.flatten.map fun e => e.1.label) := by
  constructor
  · intro p run
    have inv : Alike p.1.1 p.2.1 ∧ p.1.2 = p.2.2 := by
      refine run.invariant (P := fun p => Alike p.1.1 p.2.1 ∧ p.1.2 = p.2.2) ?_ ?_
      · rintro ⟨⟨s, e⟩, s', e'⟩ ⟨⟨init, none⟩, init', none'⟩
        dsimp only at none none' ⊢
        rw [show s = _ from init, show s' = _ from init', none, none']
        exact ⟨.rfl' _, rfl⟩
      · rintro ⟨⟨s, e⟩, s', e'⟩ l t ⟨alike, events⟩ same taken
        obtain ⟨u, moved, rest⟩ := Option.bind_eq_some_iff.mp taken
        obtain ⟨u', moved', rfl⟩ := Option.map_eq_some_iff.mp rest
        exact alike.move same events moved moved'
    exact inv.2
  · intro stocked q run y
    have inv : Directed cfg q.1 ∧ ∀ y, WritesBack y q.2 (q.1.l3 y) := by
      refine run.invariant (P := fun q => Directed cfg q.1 ∧ ∀ y, WritesBack y q.2 (q.1.l3 y)) ?_ ?_
      · rintro ⟨s, e⟩ ⟨init, none⟩
        dsimp only at none ⊢
        rw [show s = _ from init, none]
        exact ⟨directed_start, fun _ => ⟨rfl, rfl, by simp [start, L3Worker.initState]⟩⟩
      · rintro ⟨s, e⟩ l t ⟨directed, before⟩ steady taken
        obtain ⟨_, stepped, rfl⟩ := Option.map_eq_some_iff.mp taken
        obtain ⟨r, went, rfl⟩ := Option.map_eq_some_iff.mp stepped
        exact ⟨directed.step steady went,
          writesBack_step before steady (fun _ => directed.held stocked) went⟩
    exact ⟨(inv.2 y).read, (inv.2 y).written⟩

end Pipeline

namespace GridDeployment

/-- The way of the first slot of a batch to the store and back. -/
def accessRun (clock : Option Int64) (client : PipelineLabel) : List PipelineLabel :=
  [client, .l1 ⟨fun _ => 0, clock⟩ 0 (.deliver 0 1), .l2Request clock 0 1 ⟨0, 0, 0⟩,
    .l2 clock 0 (.chain 0 (.deliver 0 1)), .l3Request clock ⟨0, 0, 1⟩ (0, 0),
    .l3 clock (0, 0) .serveGet, .l3 clock (0, 0) .getReply, .l3 clock (0, 0) .crypto,
    .l3 clock (0, 0) .servePut]

/-- The client of the first run has put a value, and gets an answer in the end. -/
def putAccess : List PipelineLabel :=
  accessRun none (.client ⟨fun _ => 0, none⟩ 0 0 ⟨{ clientId := 7 }, "a", "v"⟩
    fun i => ⟨i == 0, "a", "dummy", i⟩)

def putAnswer : List PipelineLabel := [.l3 none (0, 0) .putReply, .l3 none (0, 0) .respond]

/-- Next to it, a batch of two fake slots that leaves the client's get waiting. -/
def putAndFake : List (Option PipelineLabel × Option PipelineLabel) :=
  (putAccess.zip (accessRun (some 5) (.client ⟨fun _ => 0, some 5⟩ 0 0 ⟨{ clientId := 9 }, "b", ""⟩
    fun i => ⟨false, "a", if i = 0 then "a" else "dummy", i⟩))).map (fun l => (some l.1, some l.2)) ++
  putAnswer.map fun l => (some l, none)

def accesses : System (Pipeline × List StoreCommand) PipelineLabel :=
  record (pipelineSystem (pairDeployment.pipeline plainStore))
    (Pipeline.storeCommands (pairDeployment.pipeline plainStore))

theorem stores_see_replicas_only_putAndFake :
    (∃ p, Reaches (pair accesses) (fun p l =>
        Pipeline.sameSchedule (pairDeployment.pipeline plainStore) (p.1.1, p.2.1) l) p ∧
      p.1.2 = [⟨(0, 0), 0, .get, ["0"]⟩, ⟨(0, 0), 0, .put, ["0"]⟩] ∧
      p.1.1.kv 0 "0" = some "v" ∧ p.2.1.kv 0 "0" = some "cipher" ∧
      p.1.1.responses.length = 1 ∧ p.2.1.responses.length = 0 ∧ p.1.2 = p.2.2) ∧
    ∃ q, Reaches accesses (fun _ l => l.steady = true) q ∧ labelsOf .get (0, 0) q.2 = ["0"] ∧
      labelsOf .get (0, 0) q.2 = labelsOf .put (0, 0) q.2 ++
        (q.1.l3 (0, 0)).msets.flatten.map (fun e => e.op.label) ++
        (q.1.l3 (0, 0)).cryptoQueue.flatten.map (fun e => e.1.label) ++
        (q.1.l3 (0, 0)).getReplies.flatten.map fun e => e.1.label := by
  have start : accesses.init (Pipeline.start (pairDeployment.pipeline plainStore), []) := ⟨rfl, rfl⟩
  have stocked : Pipeline.Stocked (pairDeployment.pipeline plainStore) := fun _ _ _ => rfl
  have both : (pair accesses).init ((Pipeline.start (pairDeployment.pipeline plainStore), []),
      (Pipeline.start (pairDeployment.pipeline plainStore), [])) := ⟨start, start⟩
  constructor
  · have scheduled : ∀ l ∈ putAndFake, ∀ p : Pipeline × Pipeline,
        (∀ a ∈ l.1, ∀ b ∈ l.2, Pipeline.drawn (pairDeployment.pipeline plainStore) p.1 a =
          Pipeline.drawn (pairDeployment.pipeline plainStore) p.2 b) →
        Pipeline.sameSchedule (pairDeployment.pipeline plainStore) p l := by
      intro l hl p same
      simp only [putAndFake, putAccess, putAnswer, accessRun, List.zip_cons_cons,
        List.zip_nil_right, List.map_cons, List.map_nil, List.cons_append, List.nil_append,
        List.mem_cons, List.not_mem_nil, or_false] at hl
      rcases hl with rfl | rfl | rfl | rfl | rfl | rfl | rfl | rfl | rfl | rfl | rfl <;>
        first | exact ⟨rfl, rfl, rfl, same _ rfl _ rfl⟩ | exact rfl
    have goes : ((replay (pair accesses) (fun p l =>
        ∀ a ∈ l.1, ∀ b ∈ l.2, Pipeline.drawn (pairDeployment.pipeline plainStore) p.1.1 a =
          Pipeline.drawn (pairDeployment.pipeline plainStore) p.2.1 b)
        ((Pipeline.start (pairDeployment.pipeline plainStore), []),
          (Pipeline.start (pairDeployment.pipeline plainStore), [])) putAndFake).map fun p =>
            (p.1.2, p.1.1.kv 0 "0", p.2.1.kv 0 "0", p.1.1.responses.length,
              p.2.1.responses.length)) =
        some ([⟨(0, 0), 0, .get, ["0"]⟩, ⟨(0, 0), 0, .put, ["0"]⟩], some "v", some "cipher", 1, 0) := by
      decide +kernel
    obtain ⟨p, run, seen⟩ := Option.map_eq_some_iff.mp goes
    simp only [Prod.mk.injEq] at seen
    have reached : Reaches (pair accesses) (fun p l =>
        Pipeline.sameSchedule (pairDeployment.pipeline plainStore) (p.1.1, p.2.1) l) p :=
      (Reaches.init both).replay_of (fun l hl s => scheduled l hl (s.1.1, s.2.1)) run
    exact ⟨p, reached, seen.1, seen.2.1, seen.2.2.1, seen.2.2.2.1, seen.2.2.2.2,
      (Pipeline.stores_see_replicas_only _).1 p reached⟩
  · have goes : ((replay accesses (fun _ l => l.steady = true)
        (Pipeline.start (pairDeployment.pipeline plainStore), []) putAccess).map fun q =>
          labelsOf .get (0, 0) q.2) = some ["0"] := by
      decide +kernel
    obtain ⟨q, run, seen⟩ := Option.map_eq_some_iff.mp goes
    have reached : Reaches accesses (fun _ l => l.steady = true) q := (Reaches.init start).replay run
    exact ⟨q, reached, seen, ((Pipeline.stores_see_replicas_only _).2 stocked q reached (0, 0)).2⟩

end GridDeployment
end Shortstack
