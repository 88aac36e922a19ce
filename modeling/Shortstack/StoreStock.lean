import Shortstack.PipelineSteady

/-! The labels the stores are asked for. While no instance fails, every L2 tail keeps its
connections to the whole L3 tier, so a label only reaches the L3 worker it is routed to; and a
store never loses a label it held at the start. -/
namespace Shortstack
open ChainModule ChainNet Transition

namespace L2Proxy
variable {cfg : L2Config} {env : Env L2Effect}

/-- A label of the worker's table that is routed to this L3 worker. -/
def Routes (cfg : L2Config) (y : ℕ × ℕ) (label : String) : Prop :=
  ∃ name l, cfg.replicaToLabel.lookup name = some l ∧ label = toString l ∧
    routeL3 (l3Columns cfg) label = some y

/-- The effects of a row that is connected to the whole L3 tier. -/
def Directed (cfg : L2Config) : L2Effect → Prop
  | .forward column worker label _ _ => Routes cfg (column, worker) label
  | _ => True

lemma forwardRequest_directed {u : L2State}
    (iface : u.l3Iface = none ∨ u.l3Iface = some (l3Columns cfg)) (seq : SequenceId)
    (args : ArgList) (dedup : Bool) :
    ∀ e ∈ (forwardRequest cfg env u seq args dedup).sent, Directed cfg e := by
  unfold forwardRequest
  split
  · simp
  · next op _ _ =>
    split
    · simp
    · next l found =>
      split
      · simp
      · next clients here =>
        obtain rfl : clients = l3Columns cfg := by simpa [here] using iface
        split
        · simp
        · next column worker route =>
          intro e he
          rw [Outcome.send_sent] at he
          split at he
          · rw [List.mem_singleton.mp he]
            exact ⟨labelName op, l, found, rfl, route⟩
          · simp at he

lemma runCommand_directed (u : L2State) (seq : SequenceId) (args : ArgList) :
    ∀ e ∈ (runCommand cfg u seq args).sent, Directed cfg e := by
  intro e he
  obtain ⟨_, _, _, rfl⟩ := runCommand_sent cfg u seq args e he
  trivial

lemma chainRequest_directed {m : ChainModule L2State} (open' : Connected cfg m) (seq : SequenceId)
    (args : ArgList) :
    ∀ e ∈ outsOf (m.chainRequest (callbacks cfg) env seq args).sent, Directed cfg e := by
  cases chainRequest_cases (callbacks cfg) env m seq args with
  | duplicate _ result | outOfOrder _ result =>
    rw [result]
    simp
  | failed _ _ result =>
    rw [result, call_sent, outsOf_out]
    exact runCommand_directed m.user _ _
  | completed _ _ _ result =>
    rw [result, outsOf_out]
    intro e he
    rcases List.mem_append.mp he with ran | sent
    · exact runCommand_directed m.user _ _ e ran
    · refine forwardRequest_directed ?_ _ _ _ e sent
      simpa only [callbacks, runCommand_l3Iface] using open'.1
  | passed _ _ _ result =>
    rw [result, outsOf_append, outsOf_out]
    intro e he
    rcases List.mem_append.mp he with ran | sent
    · exact runCommand_directed m.user _ _ e ran
    · rw [Outcome.send_sent] at sent
      split at sent <;> simp at sent

lemma resendPending_directed {m : ChainModule L2State} (open' : Connected cfg m) (n : ℤ) :
    ∀ e ∈ outsOf (m.resendPending (callbacks cfg) env n).sent, Directed cfg e := by
  have loop := Outcome.forEach_induction (f := resendOne (callbacks cfg) env) (m.pendingAfter n) m []
    (P := fun t sent => t.user = m.user ∧ ∀ e ∈ outsOf sent, Directed cfg e) ?_ (by simp)
  · rw [List.nil_append] at loop
    exact loop.2
  rintro t sent op - ⟨user, before⟩
  unfold resendOne
  split
  · rw [call_state, call_sent, outsOf_append, outsOf_out]
    refine ⟨?_, fun e he => ?_⟩
    · rw [withUser_user, ← user]
      exact forwardRequest_state cfg _ _ _ _ _
    · rcases List.mem_append.mp he with old | new
      · exact before e old
      · exact forwardRequest_directed (user ▸ open'.1) _ _ _ e new
  · rw [Outcome.send_state, Outcome.send_sent]
    refine ⟨user, ?_⟩
    split <;> simpa using before

end L2Proxy

namespace L2Column
open L2Proxy
variable {ι : Type} [DecidableEq ι] {cfg : ι → L2Config} {ext : Outside L2Effect}
  {col : L2Column ι}

lemma absorb_directed {w : ι} {i : ℕ} {r : NetResult L2State L2Effect}
    (outs : ∀ e ∈ r.outs, Directed (cfg w) e) (v : ι) (j : ℕ) (y : ℕ × ℕ) :
    ∀ op ∈ Egress.arrivals (col.absorb cfg w i r).sent v j y, Routes (cfg w) y op.label := by
  have loop : ∀ (outs : List L2Effect) (acc : UpdateCache × List (L2Sent ι)),
      (∀ e ∈ outs, Directed (cfg w) e) →
      (∀ op ∈ Egress.arrivals acc.2 v j y, Routes (cfg w) y op.label) →
      ∀ op ∈ Egress.arrivals (outs.foldl (apply cfg w i) acc).2 v j y,
        Routes (cfg w) y op.label := by
    intro outs
    induction outs with
    | nil => exact fun _ _ before => before
    | cons e outs ih =>
      intro acc all before
      refine ih _ (fun e' he' => all e' (List.mem_cons_of_mem _ he')) ?_
      have first := all e List.mem_cons_self
      cases e with
      | populate => exact before
      | ackL1 batch =>
        simpa [apply, Egress.arrivals_append, Egress.arrivals] using before
      | forward column worker label op dedup =>
        intro x hx
        simp only [apply, Egress.arrivals_append, List.mem_append] at hx
        rcases hx with old | new
        · exact before x old
        · simp only [Egress.arrivals, List.filterMap_cons, List.filterMap_nil] at new
          split at new
          · simp at new
          · next found =>
            obtain ⟨⟨-, -, rfl⟩, made⟩ := Option.ite_none_right_eq_some.mp found
            rw [List.mem_singleton.mp new, ← Option.some.inj made]
            exact first
  exact loop r.outs _ outs (by simp [Egress.arrivals])

/-- Rows that are connected to the whole L3 tier stay so, and send labels where they are routed. -/
theorem connected_step (h : ∀ w j, Connected (cfg w) ((col.net w).node j)) {label : L2Label ι}
    {r : L2Result ι} (taken : col.step cfg ext label = some r) :
    (∀ w j, Connected (cfg w) ((r.column.net w).node j)) ∧
      ∀ v j y, ∀ op ∈ Egress.arrivals r.sent v j y, ∃ w, Routes (cfg w) y op.label := by
  refine ⟨kept_step (fun w => connected_kept (cfg w))
    (fun w _ role next before => connected_setup (cfg w) role next before.1) h taken, ?_⟩
  cases step_cases taken with
  | crash | refused => simp [Egress.arrivals]
  | @moved _ w nl res source moved =>
    intro v j y op hop
    refine ⟨w, absorb_directed (fun e he => ?_) v j y op hop⟩
    have user := source.keepsUser
    cases ChainNet.step_cases moved with
    | @request i u seq args alive head =>
      obtain rfl := user i u rfl
      exact chainRequest_directed (h w i) seq args e he
    | @deliver i j op rest link alive =>
      exact chainRequest_directed ((connected_kept (cfg w)).meet _ i (h w j)) op.seq op.args e he
    | ackDeliver _ _ | ackFrom _ =>
      obtain ⟨batch, rfl⟩ := outs_ackBatch (cfg w) _ _ _ e he
      trivial
    | @resend i n fetched alive => exact resendPending_directed (h w i) n e he
    | touch _ | setup _ | crash _ | fetch _ | lose _ _ | loseAck _ => simp [ChainNet.finish] at he

end L2Column

namespace Ingest
open L2Proxy
variable {cfg : IngestConfig} {s : Ingest}

/-- A label that some L2 worker may send to this L3 worker. -/
def Asks (cfg : IngestConfig) (y : ℕ × ℕ) (label : String) : Prop :=
  ∃ c w, Routes (cfg.l2 c w) y label

lemma connected_column (h : ∀ c w j, Connected (cfg.l2 c w) (((s.l2 c).net w).node j)) {c : ℕ}
    {ext : Outside L2Effect} {label : L2Label ℕ} {r : L2Result ℕ}
    (taken : (s.l2 c).step (cfg.l2 c) ext label = some r) :
    (∀ c' w j, Connected (cfg.l2 c' w) ((((Function.update s.l2 c r.column) c').net w).node j)) ∧
      ∀ v j y, ∀ op ∈ Egress.arrivals r.sent v j y, Asks cfg y op.label := by
  obtain ⟨after, sent⟩ := L2Column.connected_step (h c) taken
  refine ⟨fun c' => ?_, fun v j y op hop => ⟨c, sent v j y op hop⟩⟩
  rcases eq_or_ne c' c with rfl | other
  · simpa using after
  · simpa [other] using h c'

theorem connected_step (h : ∀ c w j, Connected (cfg.l2 c w) (((s.l2 c).net w).node j))
    {label : IngestLabel} {r : IngestResult} (taken : s.step cfg label = some r) :
    (∀ c w j, Connected (cfg.l2 c w) (((r.state.l2 c).net w).node j)) ∧
      ∀ v j y, ∀ op ∈ Egress.arrivals r.sent v j y, Asks cfg y op.label := by
  have silent : ∀ v j y, ∀ op ∈ Egress.arrivals ([] : List (L2Sent ℕ)) v j y,
      Asks cfg y op.label := by
    simp [Egress.arrivals]
  cases label with
  | client | ackL1 | lose | reconnect =>
    simp only [step, Option.ite_none_right_eq_some, Option.some.injEq] at taken
    obtain ⟨-, rfl⟩ := taken
    exact ⟨h, silent⟩
  | l1 oracle k nl =>
    simp only [step, Option.ite_none_right_eq_some, Option.map_eq_some_iff] at taken
    obtain ⟨-, _, -, rfl⟩ := taken
    exact ⟨h, silent⟩
  | crashL1 =>
    simp only [step, Option.some.injEq] at taken
    subst taken
    exact ⟨h, silent⟩
  | deliver ext k row x =>
    simp only [step] at taken
    split at taken
    · simp at taken
    · obtain ⟨_, moved, rfl⟩ := Option.map_eq_some_iff.mp taken
      exact connected_column h moved
  | l2 ext c label =>
    cases label with
    | request => simp [step] at taken
    | chain | externalAck | crash =>
      simp only [step, Option.map_eq_some_iff] at taken
      obtain ⟨_, moved, rfl⟩ := taken
      exact connected_column h moved

lemma connected_start (c w j : ℕ) :
    Connected (cfg.l2 c w) ((((start cfg).l2 c).net w).node j) :=
  connected_setup (cfg.l2 c w) (initRole cfg.l2Rows j) (initNext cfg.l2Rows j) (.inl rfl)

end Ingest

namespace Pipeline
open L2Proxy
variable {cfg : PipelineConfig} {s : Pipeline}

/-- Every store holds the labels it may be asked for when the pipeline starts. -/
def Stocked (cfg : PipelineConfig) : Prop :=
  ∀ y label, Ingest.Asks cfg.toIngestConfig y label →
    (cfg.initialKv (cfg.server y.1) label).isSome = true

/-- Labels under way are where they are routed, and the stores have lost none. -/
structure Directed (cfg : PipelineConfig) (s : Pipeline) : Prop where
  connected : ∀ c w j, Connected (cfg.l2 c w) (((s.ingest.l2 c).net w).node j)
  link : ∀ x y, ∀ op ∈ s.link x y, Ingest.Asks cfg.toIngestConfig y op.label
  pipe : ∀ y, ∀ label ∈ (s.l3 y).pipe.map L3Operation.label,
    Ingest.Asks cfg.toIngestConfig y label
  kv : ∀ server label, (cfg.initialKv server label).isSome = true →
    (s.kv server label).isSome = true

lemma stable_label : L3Worker.Stable L3Operation.label := fun _ _ _ _ _ _ _ _ _ => rfl

lemma Directed.absorb (h : Directed cfg s) {s₀ : Pipeline} (column : ℕ) {ir : IngestResult}
    (link : s₀.link = s.link) (l3 : s₀.l3 = s.l3) (kv : s₀.kv = s.kv)
    (connected : ∀ c w j, Connected (cfg.l2 c w) (((ir.state.l2 c).net w).node j))
    (sent : ∀ v j y, ∀ op ∈ Egress.arrivals ir.sent v j y,
      Ingest.Asks cfg.toIngestConfig y op.label) : Directed cfg (s₀.absorb column ir).state := by
  refine ⟨by simpa using connected, fun x y op hop => ?_, by simpa [l3] using h.pipe, ?_⟩
  · rw [absorb_link, link] at hop
    rcases List.mem_append.mp hop with old | new
    · exact h.link x y op old
    · split at new
      · exact sent _ _ _ op new
      · simp at new
  · obtain ⟨_, _, result⟩ := absorb_frame s₀ column ir
    rw [result]
    exact kv ▸ h.kv

lemma Directed.ingestStep (h : Directed cfg s) {s₀ : Pipeline} {column : ℕ} {il : IngestLabel}
    {r : PipelineResult} (taken : s₀.ingestStep cfg column il = some r)
    (frame : s₀.ingest = s.ingest ∧ s₀.link = s.link ∧ s₀.l3 = s.l3 ∧ s₀.kv = s.kv) :
    Directed cfg r.state := by
  obtain ⟨ingest, link, l3, kv⟩ := frame
  obtain ⟨ir, moved, rfl⟩ := Option.map_eq_some_iff.mp taken
  obtain ⟨connected, sent⟩ := Ingest.connected_step (ingest ▸ h.connected) moved
  exact h.absorb column link l3 kv connected sent

lemma Directed.connectAcks (h : Directed cfg s) (x : L2Target) (column row n : ℕ) :
    Directed cfg (s.callL2 cfg x
      (L2Proxy.connectAcks (((s.ingest.l2 x.column).net x.worker).node x.row) column row n)).state := by
  obtain ⟨u, state, -, iface, sent⟩ := L2Proxy.connectAcks_state
    (((s.ingest.l2 x.column).net x.worker).node x.row) column row n
  refine h.absorb x.column rfl rfl rfl (fun c w j => ?_) fun v j y => ?_
  · have before := h.connected c w j
    rcases eq_or_ne c x.column with rfl | other
    · rcases eq_or_ne w x.worker with rfl | other
      · rcases eq_or_ne j x.row with rfl | other
        · have after : Connected (cfg.l2 x.column x.worker)
              ((((s.ingest.l2 x.column).net x.worker).node x.row).withUser u) := by
            simpa only [Connected, withUser_user, iface, withUser_isTail] using before
          simpa [L2Column.absorb, ChainNet.finish, state] using after
        · simpa [L2Column.absorb, ChainNet.finish, other] using before
      · simpa [L2Column.absorb, other] using before
    · simpa [other] using before
  · rw [Ingest.arrivals_acks (by simp [sent])]
    simp

lemma Directed.worker (h : Directed cfg s) {y : ℕ × ℕ} {w : L3Worker} {kv : ℕ → Kv}
    {l2Acks : List L2AckMessage} {responses : List ClientResponse}
    (pipe : (w.pipe.map L3Operation.label).Sublist ((s.l3 y).pipe.map L3Operation.label))
    (stock : ∀ server label, (s.kv server label).isSome = true →
      (kv server label).isSome = true) :
    Directed cfg { s.setWorker y w with kv := kv, l2Acks := l2Acks, responses := responses } where
  connected := h.connected
  link := h.link
  pipe y' label hlabel := by
    rcases eq_or_ne y' y with rfl | other
    · exact h.pipe y' label (pipe.subset (by simpa [setWorker] using hlabel))
    · exact h.pipe y' label (by simpa [setWorker, other] using hlabel)
  kv server label held := stock server label (h.kv server label held)

lemma servePut_holds {w t : L3Worker} {kv kv' : Kv} (served : w.servePut kv = some (kv', t))
    (label : String) (held : (kv label).isSome = true) : (kv' label).isSome = true := by
  unfold L3Worker.servePut at served
  split at served
  · simp at served
  · next writes rest popped =>
    obtain ⟨rfl, -⟩ := Prod.mk.inj (Option.some.inj served)
    clear popped served
    induction writes generalizing kv with
    | nil => exact held
    | cons e writes ih =>
      refine ih ?_
      rcases eq_or_ne label e.op.label with rfl | other
      · simp
      · simpa [other] using held

lemma Directed.stepL3 (h : Directed cfg s) {clock : Option Int64} {y : ℕ × ℕ} {label : L3Label}
    {r : PipelineResult} (taken : s.stepL3 cfg clock y label = some r) : Directed cfg r.state := by
  cases label with
  | serveGet =>
    simp only [Pipeline.stepL3, Option.map_eq_some_iff] at taken
    obtain ⟨w, served, rfl⟩ := taken
    refine h.worker ?_ fun _ _ held => held
    rw [(L3Worker.serveGet_pipe served).1]
  | servePut =>
    simp only [Pipeline.stepL3, Option.map_eq_some_iff] at taken
    obtain ⟨⟨kv, w⟩, served, rfl⟩ := taken
    refine h.worker ?_ fun server label held => ?_
    · rw [(L3Worker.servePut_pipe served).1]
    · rcases eq_or_ne server (cfg.server y.1) with rfl | other
      · simpa using servePut_holds served label held
      · simpa [other] using held
  | getReply =>
    simp only [Pipeline.stepL3, Option.map_eq_some_iff, Option.ite_none_right_eq_some] at taken
    obtain ⟨-, o, read, rfl⟩ := taken
    refine h.worker ?_ fun _ _ held => held
    obtain ⟨⟨-, same⟩ | ⟨-, fewer⟩, -⟩ := L3Worker.getCallback_pipe stable_label read
    · rw [same]
    · exact fewer
  | crypto =>
    simp only [Pipeline.stepL3, Option.map_eq_some_iff, Option.ite_none_right_eq_some] at taken
    obtain ⟨-, w, round, rfl⟩ := taken
    refine h.worker ?_ fun _ _ held => held
    rw [(L3Worker.cryptoRound_pipe stable_label round).1]
  | putReply =>
    simp only [Pipeline.stepL3, Option.map_eq_some_iff, Option.ite_none_right_eq_some] at taken
    obtain ⟨-, o, wrote, rfl⟩ := taken
    refine h.worker ?_ fun _ _ held => held
    unfold L3Worker.putCallback at wrote
    split at wrote
    · simp at wrote
    · next writes rest popped =>
      obtain ⟨_, _, -, state⟩ := @L3Worker.completeAll_state cfg.l3 clock (s.ackUp cfg) writes
        { s.l3 y with putReplies := rest }
      rw [← Option.some.inj wrote, state]
      simp [L3Worker.pipe, popped]
  | respond =>
    simp only [Pipeline.stepL3, Option.map_eq_some_iff, Option.ite_none_right_eq_some] at taken
    obtain ⟨-, ⟨answer, w⟩, sent, rfl⟩ := taken
    refine h.worker ?_ fun _ _ held => held
    unfold L3Worker.respond at sent
    split at sent
    · simp at sent
    · obtain ⟨-, rfl⟩ := Prod.mk.inj (Option.some.inj sent)
      rfl

theorem Directed.step (h : Directed cfg s) {label : PipelineLabel} {r : PipelineResult}
    (steady : label.steady = true) (taken : s.step cfg label = some r) : Directed cfg r.state := by
  cases label with
  | client | l1 | l2Request => exact h.ingestStep taken ⟨rfl, rfl, rfl, rfl⟩
  | l2 clock column label =>
    cases label with
    | externalAck => simp [Pipeline.step] at taken
    | request | chain | crash => exact h.ingestStep taken ⟨rfl, rfl, rfl, rfl⟩
  | l2Ack | l1Ack =>
    simp only [Pipeline.step] at taken
    split at taken
    · simp at taken
    · exact h.ingestStep taken ⟨rfl, rfl, rfl, rfl⟩
  | l3Request clock x y =>
    simp only [Pipeline.step] at taken
    split at taken
    · simp at taken
    · next op rest popped =>
      simp only [Option.ite_none_right_eq_some, Option.some.injEq] at taken
      obtain ⟨-, rfl⟩ := taken
      refine ⟨h.connected, fun a b => ?_, fun y' => ?_, h.kv⟩
      · simp only [finishL3, setWorker, setLink]
        split
        · next here =>
          obtain ⟨rfl, rfl⟩ := here
          exact fun op' hop => h.link a b op' (by simp [popped, hop])
        · exact h.link a b
      · simp only [finishL3, setWorker]
        rcases eq_or_ne y' y with rfl | other
        · rw [Function.update_self]
          obtain ⟨⟨-, more⟩ | ⟨-, same⟩, -⟩ :=
            @L3Worker.asyncOperation_pipe cfg.l3 _ _ clock (s.l3 y') stable_label op
          · rw [more]
            intro label hlabel
            rcases List.mem_append.mp hlabel with old | new
            · exact h.pipe y' label old
            · rw [List.mem_singleton.mp new]
              exact h.link x y' op (by simp [popped])
          · rw [same]
            exact h.pipe y'
        · rw [Function.update_of_ne other]
          exact h.pipe y'
  | l3 clock y label => exact h.stepL3 taken
  | connectL1Acks x column row =>
    simp only [Pipeline.step, Option.ite_none_right_eq_some, Option.some.injEq] at taken
    obtain ⟨-, rfl⟩ := taken
    exact h.connectAcks x column row _
  | connectL2Acks y column row =>
    simp only [Pipeline.step, Option.ite_none_right_eq_some, Option.some.injEq] at taken
    obtain ⟨-, rfl⟩ := taken
    exact h.worker (.refl _) fun _ _ held => held
  | crashL1 | loseL2 | reconnect | loseL3 | crashL3 | loseL2Ack | loseL1Ack | removeL3
    | selectiveResend => simp [PipelineLabel.steady, PipelineLabel.calm] at steady

theorem Directed.held (h : Directed cfg s) (stocked : Stocked cfg) {y : ℕ × ℕ} :
    ∀ ops ∈ (s.l3 y).mgets.head?, ∀ op ∈ ops, (s.kv (cfg.server y.1) op.label).isSome = true := by
  intro ops first op hop
  refine h.kv _ _ (stocked y op.label (h.pipe y op.label (List.mem_map_of_mem ?_)))
  have asked : op ∈ (s.l3 y).mgets.flatten :=
    List.mem_flatten_of_mem (List.mem_of_mem_head? first) hop
  simp [L3Worker.pipe, asked]

lemma directed_start : Directed cfg (start cfg) where
  connected := Ingest.connected_start
  link _ _ _ hop := by simp [start] at hop
  pipe _ _ hlabel := by simp [start, L3Worker.initState, L3Worker.pipe] at hlabel
  kv _ _ held := held

end Pipeline
end Shortstack
