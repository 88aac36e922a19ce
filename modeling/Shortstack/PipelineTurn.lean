import Shortstack.PipelineSteady
import Shortstack.StorageValues

/-! What a step without failures is to the tails of the L2 tier and to the stores behind them:
nothing, a command that a tail runs and forwards, or a step of an L3 worker. -/
namespace Shortstack.Pipeline
open ChainModule ChainNet
variable (cfg : PipelineConfig)

/-- The last row of an L2 worker. -/
def l2Tail (c w : ℕ) : L2Target := ⟨c, w, cfg.l2Rows - 1⟩

def tailCache (s : Pipeline) (c : ℕ) : UpdateCache := (s.ingest.l2 c).cache (cfg.l2Rows - 1)

def tailRan (s : Pipeline) (c w : ℕ) : List ChainOp := (s.ingest.l2Node (l2Tail cfg c w)).ran

/-- The tail of an L2 worker runs a command, an access to a replica, and forwards it. -/
structure TailRuns (s s' : Pipeline) (clock : Option Int64) (c w : ℕ) (y : ℕ × ℕ) (op : ChainOp)
    (p : L2Operation) (l : ℕ) : Prop where
  parsed : ∃ rest, L2Operation.deserialize op.args = .ok (p, rest)
  good : Ingest.Good cfg.toIngestConfig p.key p.replica
  labelled : (cfg.l2 c w).replicaToLabel.lookup (L2Proxy.labelName p) = some l
  route : L2Proxy.routeL3 (L2Proxy.l3Columns (cfg.l2 c w)) (toString l) = some y
  cache : ∀ c', tailCache cfg s' c' = if c' = c then
    L2Column.afterPut (cfg.l2 c w) (tailCache cfg s c) op else tailCache cfg s c'
  ran : ∀ c' w', tailRan cfg s' c' w' = if c' = c ∧ w' = w then tailRan cfg s c w ++ [op] else
    tailRan cfg s c' w'
  link : ∀ x y', s'.link x y' = if x = l2Tail cfg c w ∧ y' = y then s.link x y' ++
    [L2Proxy.l3Operation (cfg.l2 c w) clock (tailCache cfg s' c) op.seq p l true] else s.link x y'
  l3 : s'.l3 = s.l3
  kv : s'.kv = s.kv

/-- Nothing changes at the tails and behind them. -/
structure Still (s s' : Pipeline) : Prop where
  cache : ∀ c, tailCache cfg s' c = tailCache cfg s c
  ran : ∀ c w, tailRan cfg s' c w = tailRan cfg s c w
  link : s'.link = s.link
  l3 : s'.l3 = s.l3
  kv : s'.kv = s.kv

inductive Turn (s s' : Pipeline) : Prop
  | still (same : Still cfg s s')
  | run {clock c w y op p l} (runs : TailRuns cfg s s' clock c w y op p l)
  | accept {clock x y op rest} (popped : s.link x y = op :: rest)
      (returned : ((s.l3 y).asyncOperation cfg.l3 clock op).status = .returned)
      (ingest : s'.ingest = s.ingest) (link : s'.link = s.setLink x y rest)
      (l3 : s'.l3 = Function.update s.l3 y ((s.l3 y).asyncOperation cfg.l3 clock op).state)
      (kv : s'.kv = s.kv)
  | serve {y worker kv} (served : L3Worker.Serves cfg.l3 (s.kv (cfg.server y.1)) (s.l3 y) kv worker)
      (ingest : s'.ingest = s.ingest) (link : s'.link = s.link)
      (l3 : s'.l3 = Function.update s.l3 y worker)
      (kv : s'.kv = Function.update s.kv (cfg.server y.1) kv)

variable {cfg} {s s₀ : Pipeline}

lemma absorb_kv (column : ℕ) (r : IngestResult) : (s.absorb column r).state.kv = s.kv := by
  obtain ⟨_, _, result⟩ := absorb_frame s column r
  rw [result]

lemma Enters.kv {label : PipelineLabel} {column : ℕ} {il : IngestLabel}
    (source : Enters s label s₀ column il) : s₀.kv = s.kv := by
  cases source <;> rfl

lemma still_l2 {c w i : ℕ} {net : ChainNet L2State}
    {o : Outcome (ChainModule L2State) (Send L2Effect)} {link : ℕ → ℕ → L2Target → List L2Operation}
    {status : Status} (link₀ : s₀.link = s.link) (l3₀ : s₀.l3 = s.l3) (kv₀ : s₀.kv = s.kv)
    (node : net.node = ((s.ingest.l2 c).net w).node)
    (ran : o.state.ran = (((s.ingest.l2 c).net w).node i).ran ∨ i + 1 ≠ cfg.l2Rows)
    (cache : ((s.ingest.l2 c).absorb (cfg.l2 c) w i (net.finish i o)).column.cache
      (cfg.l2Rows - 1) = (s.ingest.l2 c).cache (cfg.l2Rows - 1))
    (sent : ∀ v j y, Egress.arrivals
      ((s.ingest.l2 c).absorb (cfg.l2 c) w i (net.finish i o)).sent v j y = []) (rows : 0 < cfg.l2Rows) :
    Still cfg s (s₀.absorb c ⟨{ s.ingest with
      l2 := Function.update s.ingest.l2 c ((s.ingest.l2 c).absorb (cfg.l2 c) w i (net.finish i o)).column
      link := link }, ((s.ingest.l2 c).absorb (cfg.l2 c) w i (net.finish i o)).sent, status⟩).state := by
  refine ⟨fun c' => ?_, fun c' w' => ?_, ?_, (absorb_l3 ..).trans l3₀, (absorb_kv ..).trans kv₀⟩
  · rw [tailCache, absorb_ingest]
    dsimp only
    rcases eq_or_ne c' c with rfl | other
    · rw [Function.update_self]
      exact cache
    · rw [Function.update_of_ne other]
      rfl
  · rw [tailRan, absorb_ingest, Ingest.l2Node_absorb node]
    split
    · next here =>
      obtain ⟨rfl, rfl, rfl⟩ := L2Target.mk.inj here
      rcases ran with same | before
      · exact same
      · omega
    · rfl
  · funext x y
    rw [absorb_link, link₀]
    dsimp only
    rw [sent, ite_self, List.append_nil]

lemma cache_absorb {c w i : ℕ} {col : L2Column ℕ} {r : NetResult L2State L2Effect}
    (none : ∀ e ∈ r.outs, ∃ batch, e = L2Effect.ackL1 batch) (j : ℕ) :
    (col.absorb (cfg.l2 c) w i r).column.cache j = col.cache j := by
  have same := @L2Column.apply_fst_of_no_populate _ (cfg.l2 c) w i r.outs
    (fun e he k v m isPut => by
      obtain ⟨batch, rfl⟩ := none e he
      simp at isPut) (col.cache i, [])
  simp only [L2Column.absorb, same, Function.update_eq_self]

lemma still_acks {c w i : ℕ} {net : ChainNet L2State}
    {o : Outcome (ChainModule L2State) (Send L2Effect)} {link : ℕ → ℕ → L2Target → List L2Operation}
    {status : Status} (link₀ : s₀.link = s.link) (l3₀ : s₀.l3 = s.l3) (kv₀ : s₀.kv = s.kv)
    (node : net.node = ((s.ingest.l2 c).net w).node)
    (ran : o.state.ran = (((s.ingest.l2 c).net w).node i).ran)
    (acks : ∀ e ∈ outsOf o.sent, ∃ batch, e = L2Effect.ackL1 batch) (rows : 0 < cfg.l2Rows) :
    Still cfg s (s₀.absorb c ⟨{ s.ingest with
      l2 := Function.update s.ingest.l2 c ((s.ingest.l2 c).absorb (cfg.l2 c) w i (net.finish i o)).column
      link := link }, ((s.ingest.l2 c).absorb (cfg.l2 c) w i (net.finish i o)).sent, status⟩).state :=
  still_l2 link₀ l3₀ kv₀ node (.inl ran) (cache_absorb acks _)
    (fun v j y => @Ingest.arrivals_acks cfg.toIngestConfig _ _ _ _ _ _ acks v j y) rows

lemma still_l1 {column : ℕ} {ir : IngestResult} (link₀ : s₀.link = s.link) (l3₀ : s₀.l3 = s.l3)
    (kv₀ : s₀.kv = s.kv) (l2 : ir.state.l2 = s.ingest.l2) (sent : ir.sent = []) :
    Still cfg s (s₀.absorb column ir).state := by
  refine ⟨fun c => ?_, fun c w => ?_, ?_, (absorb_l3 ..).trans l3₀, (absorb_kv ..).trans kv₀⟩
  · rw [tailCache, absorb_ingest, l2]
    rfl
  · rw [tailRan, absorb_ingest, Ingest.l2Node, l2]
    rfl
  · funext x y
    rw [absorb_link, link₀, sent]
    simp [Egress.arrivals]

lemma Steady.ingestTurn (shape : Shaped cfg) (h : Steady cfg s) {label : PipelineLabel} {column : ℕ}
    {il : IngestLabel} {ir : IngestResult} (source : Enters s label s₀ column il)
    (taken : Ingest.SteadyCase cfg.toIngestConfig s.ingest il ir) :
    Turn cfg s (s₀.absorb column ir).state := by
  obtain ⟨-, link₀, l3₀, -⟩ := source.frame
  have kv₀ := source.kv
  have rows := shape.ingest.l2Rows
  cases taken with
  | ignored => exact .still (still_l1 link₀ l3₀ kv₀ rfl rfl)
  | l1Run => exact .still (still_l1 link₀ l3₀ kv₀ rfl rfl)
  | l1Acks => exact .still (still_l1 link₀ l3₀ kv₀ rfl rfl)
  | @l2Acks _ ext c w i net o comes =>
    obtain ⟨rfl, -⟩ := source.acks comes
    have quiet := comes.quiet h.calm
    exact .still (still_acks link₀ l3₀ kv₀ quiet.node quiet.ran comes.outs.1 rows)
  | @l2Run _ ext c w i op m net link o comes runs =>
    obtain ⟨rfl, clock, rfl⟩ := source.runs comes
    have cache := runs.absorbed.1
    obtain ⟨-, ⟨before, sent⟩ | ⟨last, p, rest, l, y, n, parsed, good, labelled, route, -, -, sent⟩⟩ :=
      h.forwards shape runs
    · refine .still (still_l2 link₀ l3₀ kv₀ runs.node (.inr before) ?_ (fun v j y => ?_) rows)
      · rw [cache, Function.update_of_ne (by omega)]
      · rw [sent]
        rfl
    · obtain rfl : i = cfg.l2Rows - 1 := by omega
      have after : tailCache cfg (s₀.absorb column ⟨{ s.ingest with
            l2 := Function.update s.ingest.l2 column ((s.ingest.l2 column).absorb (cfg.l2 column) w
              (cfg.l2Rows - 1) (net.finish (cfg.l2Rows - 1) o)).column
            link := link }, ((s.ingest.l2 column).absorb (cfg.l2 column) w (cfg.l2Rows - 1)
              (net.finish (cfg.l2Rows - 1) o)).sent, o.status⟩).state column =
          L2Column.afterPut (cfg.l2 column w) (tailCache cfg s column) op := by
        rw [tailCache, absorb_ingest]
        dsimp only
        rw [Function.update_self, cache, Function.update_self]
        rfl
      refine @Turn.run _ _ _ clock column w y op p l ⟨⟨rest, parsed⟩, good, labelled, route,
        fun c' => ?_, fun c' w' => ?_, fun x y' => ?_, (absorb_l3 ..).trans l3₀,
        (absorb_kv ..).trans kv₀⟩
      · split
        · next here =>
          rw [here]
          exact after
        · next other =>
          rw [tailCache, absorb_ingest]
          dsimp only
          rw [Function.update_of_ne other]
          rfl
      · rw [tailRan, absorb_ingest, Ingest.l2Node_absorb runs.node]
        simp only [l2Tail, L2Target.mk.injEq, and_true]
        split
        · exact runs.ran
        · rfl
      · rw [absorb_link, link₀, after, sent, arrivals_request, l2Tail]
        rcases Classical.em (x = ⟨column, w, cfg.l2Rows - 1⟩) with here | away
        · rcases eq_or_ne y' y with same | other
          · rw [if_pos here, if_pos same, if_pos ⟨here, same⟩]
            rfl
          · rw [if_pos here, if_neg other, if_neg fun both => other both.2, List.append_nil]
        · rw [if_neg away, if_neg fun both => away both.1, List.append_nil]

lemma stepL3_turn {clock : Option Int64} {y : ℕ × ℕ} {label : L3Label} {r : PipelineResult}
    (taken : s.stepL3 cfg clock y label = some r) : Turn cfg s r.state := by
  have read : ∀ {worker : L3Worker} {s' : Pipeline},
      L3Worker.Serves cfg.l3 (s.kv (cfg.server y.1)) (s.l3 y) (s.kv (cfg.server y.1)) worker →
      s'.ingest = s.ingest → s'.link = s.link → s'.l3 = Function.update s.l3 y worker →
      s'.kv = s.kv → Turn cfg s s' := by
    intro worker s' served ingest link l3 kv
    exact .serve served ingest link l3 (by rw [kv, Function.update_eq_self])
  cases label with
  | serveGet =>
    obtain ⟨worker, found, rfl⟩ := Option.map_eq_some_iff.mp taken
    exact read (.serveGet found) rfl rfl rfl rfl
  | servePut =>
    obtain ⟨⟨kv, worker⟩, found, rfl⟩ := Option.map_eq_some_iff.mp taken
    exact .serve (.servePut found) rfl rfl rfl rfl
  | getReply =>
    simp only [stepL3, Option.ite_none_right_eq_some, Option.map_eq_some_iff] at taken
    obtain ⟨-, o, found, rfl⟩ := taken
    exact read (.getReply found) rfl rfl rfl rfl
  | crypto =>
    simp only [stepL3, Option.ite_none_right_eq_some, Option.map_eq_some_iff] at taken
    obtain ⟨-, worker, found, rfl⟩ := taken
    exact read (.crypto found) rfl rfl rfl rfl
  | putReply =>
    simp only [stepL3, Option.ite_none_right_eq_some, Option.map_eq_some_iff] at taken
    obtain ⟨-, o, found, rfl⟩ := taken
    exact read (.putReply found) rfl rfl rfl rfl
  | respond =>
    simp only [stepL3, Option.ite_none_right_eq_some, Option.map_eq_some_iff] at taken
    obtain ⟨-, worker, found, rfl⟩ := taken
    exact read (.respond found) rfl rfl rfl rfl

/-- Everything a step without failures can be. -/
theorem Steady.turn (shape : Shaped cfg) (h : Steady cfg s) {label : PipelineLabel}
    {r : PipelineResult} (free : failureFree cfg s label) (taken : s.step cfg label = some r) :
    Turn cfg s r.state := by
  cases calm_cases shape.ingest h.calm (calm_of_steady free.1) free.2 taken with
  | ingest source case => exact h.ingestTurn shape source case
  | manager source =>
    cases source with
    | connectL1Acks alive =>
      rename_i x column row
      obtain ⟨_, state, -, -, sent⟩ := L2Proxy.connectAcks_state
        (((s.ingest.l2 x.column).net x.worker).node x.row) column row
        ((cfg.l1Workers[column]?).getD 0)
      refine .still (still_acks rfl rfl rfl rfl ?_ (fun e he => ?_) shape.ingest.l2Rows)
      · rw [state]
        rfl
      · rw [sent] at he
        simp at he
    | removeL3 | selectiveResend => simp [failureFree, PipelineLabel.steady] at free
  | accept popped _ => exact .accept popped (h.accept shape popped).1 rfl rfl rfl rfl
  | l3 taken => exact stepL3_turn taken
  | @connectL2Acks y column row alive =>
    refine .serve (y := y) .connect rfl rfl rfl ?_
    rw [Function.update_eq_self]
    rfl
  | crashL3 | loseL3 | loseL2Ack => simp [failureFree, PipelineLabel.steady] at free

/-- What holds of every access on its way to the L3 tier or held there, and of every response
that waits there. -/
structure Carried (P : L2Target → ℕ × ℕ → Access → Prop) (Q : ClientResponse → Prop) (s : Pipeline) :
    Prop where
  sent : ∀ x y, ∀ op ∈ s.link x y, P x y op.access
  held : ∀ y, ∀ a ∈ (s.l3 y).traffic [], ∃ x, P x y a
  waits : ∀ y, ∀ r ∈ (s.l3 y).respondQueue, Q r

section Carried
variable {P P' : L2Target → ℕ × ℕ → Access → Prop} {Q Q' : ClientResponse → Prop} {s' : Pipeline}

lemma Carried.mono (h : Carried P Q s) (imp : ∀ x y a, P x y a → P' x y a) (imp' : ∀ r, Q r → Q' r) :
    Carried P' Q' s :=
  ⟨fun x y op mem => imp x y _ (h.sent x y op mem), fun y a mem => (h.held y a mem).imp fun x => imp x y a,
    fun y r mem => imp' r (h.waits y r mem)⟩

lemma Carried.congr (h : Carried P Q s) (link : s'.link = s.link) (l3 : s'.l3 = s.l3) :
    Carried P Q s' :=
  ⟨link ▸ h.sent, l3 ▸ h.held, l3 ▸ h.waits⟩

lemma Carried.run (h : Carried P Q s) {clock : Option Int64} {c w : ℕ} {y : ℕ × ℕ} {op : ChainOp}
    {p : L2Operation} {l : ℕ} (runs : TailRuns cfg s s' clock c w y op p l)
    (new : P (l2Tail cfg c w) y
      (L2Proxy.l3Operation (cfg.l2 c w) clock (tailCache cfg s' c) op.seq p l true).access) :
    Carried P Q s' := by
  refine ⟨fun x y' op' mem => ?_, runs.l3 ▸ h.held, runs.l3 ▸ h.waits⟩
  rw [runs.link] at mem
  split at mem
  · next here =>
    rw [here.1, here.2] at mem ⊢
    rcases List.mem_append.mp mem with old | last
    · exact h.sent _ _ op' old
    · rw [List.mem_singleton.mp last]
      exact new
  · exact h.sent x y' op' mem

lemma Carried.accept (h : Carried P Q s) {clock : Option Int64} {x : L2Target} {y : ℕ × ℕ}
    {op : L3Operation} {rest : List L3Operation} (popped : s.link x y = op :: rest)
    (returned : ((s.l3 y).asyncOperation cfg.l3 clock op).status = .returned)
    (link : s'.link = s.setLink x y rest)
    (l3 : s'.l3 = Function.update s.l3 y ((s.l3 y).asyncOperation cfg.l3 clock op).state) :
    Carried P Q s' := by
  refine ⟨fun x' y' op' mem => h.sent x' y' op' ?_, fun y' a mem => ?_, fun y' r mem => ?_⟩
  · simp only [link, setLink] at mem
    split at mem
    · next here =>
      obtain ⟨rfl, rfl⟩ := here
      rw [popped]
      exact List.mem_cons_of_mem op mem
    · exact mem
  · rw [l3] at mem
    rcases eq_or_ne y' y with rfl | other
    · rw [Function.update_self, (L3Worker.accepted_traffic returned []).1] at mem
      simp only [L3Worker.traffic, List.map_append, List.map_cons, List.map_nil, List.mem_append,
        List.mem_singleton] at mem
      rcases mem with old | rfl
      · exact h.held y' a (by simpa [L3Worker.traffic] using old)
      · exact ⟨x, h.sent x y' op (by simp [popped])⟩
    · rw [Function.update_of_ne other] at mem
      exact h.held y' a mem
  · rw [l3] at mem
    rcases eq_or_ne y' y with rfl | other
    · rw [Function.update_self,
        (L3Worker.asyncOperation_pipe L3Worker.stable_access op).2.2.2.2.1] at mem
      exact h.waits y' r mem
    · rw [Function.update_of_ne other] at mem
      exact h.waits y' r mem

lemma Carried.serve (h : Carried P Q s) {y : ℕ × ℕ} {worker : L3Worker} {kv kv' : Kv}
    (served : L3Worker.Serves cfg.l3 kv (s.l3 y) kv' worker) (link : s'.link = s.link)
    (l3 : s'.l3 = Function.update s.l3 y worker)
    (answers : ∀ clock, ∀ e ∈ (s.l3 y).putReplies.flatten, ∀ x, P x y e.op.access →
      e.op.seqId.clientId ≠ L3Worker.fakeClientId → Q (L3Worker.response clock e)) :
    Carried P Q s' := by
  refine ⟨link ▸ h.sent, fun y' a mem => ?_, fun y' r mem => ?_⟩
  · rw [l3] at mem
    rcases eq_or_ne y' y with rfl | other
    · rw [Function.update_self] at mem
      exact h.held y' a (served.traffic.subset mem)
    · rw [Function.update_of_ne other] at mem
      exact h.held y' a mem
  · rw [l3] at mem
    rcases eq_or_ne y' y with rfl | other
    · rw [Function.update_self] at mem
      rcases served.responses r mem with old | ⟨e, he, client, clock, rfl⟩
      · exact h.waits y' r old
      · obtain ⟨x, carried⟩ :=
          h.held y' e.op.access (L3Worker.mem_traffic_of_written (List.mem_append_left _ he))
        exact answers clock e he x carried client
    · rw [Function.update_of_ne other] at mem
      exact h.waits y' r mem

lemma carried_start : Carried P Q (start cfg) := by
  refine ⟨fun x y op mem => ?_, fun y a mem => ?_, fun y r mem => ?_⟩
  · simp [start] at mem
  · simp [start, L3Worker.traffic, L3Worker.pipe, L3Worker.initState] at mem
  · simp [start, L3Worker.initState] at mem

end Carried

end Shortstack.Pipeline
