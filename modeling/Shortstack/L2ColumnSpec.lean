import Shortstack.ChainLocal
import Shortstack.L2ProxySpec

/-! What one step of an L2 column can be, and what a worker forwards to the L3 tier in
it. Every step is a crash of an instance, a refused request, or a step of one worker's
chain in which only code of the L2 proxy touches the state of the worker. -/
namespace Shortstack
open ChainModule

namespace ChainNet

lemma deposit_idle {σ μ : Type} (net : ChainNet σ) (i : ℕ)
    {o : Outcome (ChainModule σ) (Send μ)} (state : o.state = net.node i) (sent : o.sent = []) :
    net.deposit i o = net := by
  unfold deposit
  rw [state, sent]
  simp only [requestsOf_nil, acksOf_nil, List.append_nil, ite_self, List.map_nil,
    Function.update_eq_self]
  cases (net.node i).prev <;> simp

end ChainNet

namespace L2Column
variable {ι : Type} [DecidableEq ι] (cfg : ι → L2Config) (ext : Outside L2Effect)
  (col : L2Column ι)

/-- The step of a worker's chain behind a step of the column. -/
inductive Comes : L2Label ι → ι → NetLabel L2State → Prop
  | chain {w nl} (internal : nl.internal = true) : Comes (.chain w nl) w nl
  | request {w i op} (head : ((col.net w).node i).isHead = true)
      (known : op.key ∈ (cfg w).keyToNumberOfReplicas)
      (runs : L2Proxy.Runs ((col.net w).node i).user.lastSeenSeq
        ⟨((col.net w).node i).numbered (L2Proxy.timed ext.clock op.seqId),
          L2Proxy.argsOf ext.clock op⟩) :
    Comes (.request w i op) w (.request i ((col.net w).node i).user
      (L2Proxy.timed ext.clock op.seqId) (L2Proxy.argsOf ext.clock op))
  | ack {w i seqs} : Comes (.externalAck w i seqs) w (.ackFrom i ((col.net w).node i).user
      (seqs.map fun q => { q with serverSeqNo := q.l2SeqNo }))

inductive StepCase : L2Label ι → L2Result ι → Prop
  | crash {i} :
    StepCase (.crash i) ⟨{ col with net := fun w => (col.net w).fail i }, [], .returned⟩
  | refused {w i op status} : StepCase (.request w i op) ⟨col, [], status⟩
  | moved {label w nl res} (source : Comes cfg ext col label w nl)
      (taken : (col.net w).step (L2Proxy.callbacks (cfg w)) ext nl = some res) :
    StepCase label (col.absorb cfg w (nl.row (col.net w).acks) res)

variable {cfg ext col}

lemma absorb_idle (w : ι) (i : ℕ) (status : Status) :
    col.absorb cfg w i ⟨col.net w, [], status⟩ = ⟨col, [], status⟩ := by
  simp [absorb]

theorem step_cases {label : L2Label ι} {r : L2Result ι} (taken : col.step cfg ext label = some r) :
    StepCase cfg ext col label r := by
  cases label with
  | request w i op =>
    simp only [step, Option.ite_none_right_eq_some, Option.some.injEq] at taken
    obtain ⟨alive, rfl⟩ := taken
    rcases L2Proxy.asyncOperation_cases (cfg w) ((col.net w).env ext ((col.net w).node i))
        ((col.net w).node i) op with ⟨state, sent⟩ | ⟨head, known, runs, accepted⟩
    · rw [ChainNet.finish, ChainNet.deposit_idle _ _ state sent, sent, outsOf_nil, absorb_idle]
      exact .refused
    · rw [accepted]
      refine .moved (.request head known runs) ?_
      simp [ChainNet.step, alive, head, ChainNet.env]
  | chain w nl =>
    simp only [step, Option.ite_none_right_eq_some] at taken
    obtain ⟨internal, taken⟩ := taken
    obtain ⟨res, hres, rfl⟩ := Option.map_eq_some_iff.mp taken
    exact .moved (.chain internal) hres
  | externalAck w i seqs =>
    simp only [step, Option.ite_none_right_eq_some, Option.some.injEq] at taken
    obtain ⟨alive, rfl⟩ := taken
    refine .moved .ack ?_
    simp [ChainNet.step, alive, L2Proxy.externalAckBatch]
  | crash i =>
    simp only [step, Option.some.injEq] at taken
    exact taken ▸ .crash

omit [DecidableEq ι] in
lemma Comes.keepsUser {label : L2Label ι} {w : ι} {nl : NetLabel L2State}
    (h : Comes cfg ext col label w nl) : (col.net w).keepsUser nl := by
  intro i u touched
  cases h with
  | chain internal => cases nl <;> simp_all [NetLabel.internal, ChainNet.touches]
  | request | ack =>
    simp only [ChainNet.touches, Option.some.injEq, Prod.mk.injEq] at touched
    rw [← touched.1, ← touched.2]

theorem kept_step {I : ι → ChainModule L2State → Prop}
    (kept : ∀ w, ChainNet.Kept (L2Proxy.callbacks (cfg w)) (I w))
    (setup : ∀ w m role next, I w m → I w (m.setup (L2Proxy.callbacks (cfg w)) role next))
    (h : ∀ w j, I w ((col.net w).node j)) {label : L2Label ι} {r : L2Result ι}
    (taken : col.step cfg ext label = some r) : ∀ w j, I w ((r.column.net w).node j) := by
  cases step_cases taken with
  | crash => exact h
  | refused => exact h
  | @moved _ w nl res source moved =>
    intro v j
    rcases eq_or_ne v w with rfl | other
    · have after := ChainNet.Kept.step (fun _ => kept v) (h v) (source.keepsUser.withUser (h v))
        (fun i _ => setup v _ _ _ (h v i)) moved j
      simpa [absorb] using after
    · simpa [absorb, other] using h v j

theorem inv_step (h : ∀ w, ChainNet.Inv False (col.net w)) {label : L2Label ι} {r : L2Result ι}
    (taken : col.step cfg ext label = some r) : ∀ w, ChainNet.Inv False (r.column.net w) := by
  cases step_cases taken with
  | @crash i => exact fun w => (h w).crash i
  | refused => exact h
  | @moved _ w nl res source moved =>
    intro v
    rcases eq_or_ne v w with rfl | other
    · simpa [absorb] using (h v).step _ ext nl False.elim moved
    · simpa [absorb, other] using h v

theorem everywhere_step {Q : ι → ChainOp → Prop} (inv : ∀ w, ChainNet.Inv False (col.net w))
    (free : ∀ w, ChainNet.Unnumbered (Q w)) (h : ∀ w, ChainNet.Everywhere (Q w) (col.net w))
    {label : L2Label ι} {r : L2Result ι}
    (given : ∀ w i op, label = .request w i op →
      Q w ⟨L2Proxy.timed ext.clock op.seqId, L2Proxy.argsOf ext.clock op⟩)
    (taken : col.step cfg ext label = some r) :
    ∀ w, ChainNet.Everywhere (Q w) (r.column.net w) := by
  cases step_cases taken with
  | crash => exact fun w => (h w).fewer rfl fun _ _ _ hx => hx
  | refused => exact h
  | @moved _ w nl res source moved =>
    intro v
    rcases eq_or_ne v w with rfl | other
    · have after : ChainNet.Everywhere (Q v) res.net := by
        refine (h v).step (inv v) (free v) (fun i u seq args isRequest => ?_) moved
        cases source with
        | chain internal => simp [isRequest, NetLabel.internal] at internal
        | @request _ i op =>
          simp only [NetLabel.request.injEq] at isRequest
          rw [← isRequest.2.2.1, ← isRequest.2.2.2]
          exact given v _ _ rfl
        | ack => simp at isRequest
      simpa [absorb] using after
    · simpa [absorb, other] using h v

/-- The cache after a command was run: its entry replaces the old one. -/
def afterPut (c : L2Config) (cache : UpdateCache) (op : ChainOp) : UpdateCache :=
  match L2Proxy.cached c op with
  | some (k, e) => cache.insert k e
  | none => cache

omit [DecidableEq ι] in
lemma apply_fst_of_no_populate (w : ι) (i : ℕ) (outs : List L2Effect)
    (none : ∀ e ∈ outs, ∀ k v m, e ≠ .populate k v m) (acc : UpdateCache × List (L2Sent ι)) :
    (outs.foldl (apply cfg w i) acc).1 = acc.1 := by
  induction outs generalizing acc with
  | nil => rfl
  | cons e outs ih =>
    rw [List.foldl_cons, ih (fun e he => none e (by simp [he]))]
    cases e with
    | populate k v m => exact absurd rfl (none _ (by simp) k v m)
    | forward | ackL1 => rfl

omit [DecidableEq ι] in
lemma runCommand_cache (c : ι → L2Config) (w : ι) (i : ℕ) (s : L2State) (op : ChainOp)
    (cache : UpdateCache) :
    let o := L2Proxy.runCommand (c w) s op.seq op.args
    (o.status = .returned →
      (o.sent.foldl (apply c w i) (cache, [])).1 = afterPut (c w) cache op) ∧
    (o.status ≠ .returned → o.sent = []) := by
  dsimp only
  unfold L2Proxy.runCommand
  cases seenAt s.lastSeenSeq op.seq.l1Idx with
  | none => simp
  | some last =>
    dsimp only
    split
    · simp
    · cases parsed : L2Operation.deserialize op.args with
      | error e => simp
      | ok p =>
        dsimp only
        simp only [afterPut, L2Proxy.cached, parsed]
        split <;> simp [apply, UpdateCache.populateReplicaUpdates]

omit [DecidableEq ι] in
lemma chainRequest_cache (c : ι → L2Config) (w : ι) (i : ℕ) (env : Env L2Effect)
    (m : ChainModule L2State) (seq : SequenceId) (args : ArgList) (cache : UpdateCache) :
    let o := m.chainRequest (L2Proxy.callbacks (c w)) env seq args
    let after := ((outsOf o.sent).foldl (apply c w i) (cache, [])).1
    after = cache ∨ ∃ op, o.state.ran = m.ran ++ [op] ∧ after = afterPut (c w) cache op := by
  dsimp only
  obtain ⟨ran, failed⟩ := runCommand_cache c w i m.user ⟨m.numbered seq, args⟩ cache
  cases ChainModule.chainRequest_cases (L2Proxy.callbacks (c w)) env m seq args with
  | duplicate _ result | outOfOrder _ result =>
    rw [result]
    exact .inl rfl
  | failed _ status result =>
    rw [result, call_sent, outsOf_out]
    left
    have none : ((L2Proxy.callbacks (c w)).runCommand env m.user (m.numbered seq) args).sent = [] :=
      failed status
    rw [none]
    rfl
  | completed _ returned _ result =>
    refine .inr ⟨⟨m.numbered seq, args⟩, by rw [result]; simp, ?_⟩
    rw [result, outsOf_out, List.foldl_append, apply_fst_of_no_populate]
    · exact ran returned
    · intro e he k v n populate
      obtain ⟨_, _, _, _, rfl⟩ := L2Proxy.forwardRequest_sent (c w) _ _ _ _ _ e he
      simp at populate
  | passed _ returned _ result =>
    refine .inr ⟨⟨m.numbered seq, args⟩, by rw [result]; simp, ?_⟩
    rw [result, outsOf_append, outsOf_out, Outcome.send_sent]
    split
    · rw [outsOf_request, outsOf_nil, List.append_nil]
      exact ran returned
    · rw [outsOf_nil, List.append_nil]
      exact ran returned

/-- The update cache of an instance changes only when one of its workers runs a command. -/
theorem cache_step {label : L2Label ι} {r : L2Result ι} (taken : col.step cfg ext label = some r)
    (i : ℕ) : r.column.cache i = col.cache i ∨
      ∃ w op, ((r.column.net w).node i).ran = ((col.net w).node i).ran ++ [op] ∧
        r.column.cache i = afterPut (cfg w) (col.cache i) op := by
  cases step_cases taken with
  | crash => exact .inl rfl
  | refused => exact .inl rfl
  | @moved _ w nl res source moved =>
    rcases eq_or_ne i (nl.row (col.net w).acks) with rfl | other
    · have quiet : ∀ outs : List L2Effect, res.outs = outs →
          (∀ e ∈ outs, ∀ k v n, e ≠ .populate k v n) →
          (res.outs.foldl (apply cfg w (nl.row (col.net w).acks))
            (col.cache (nl.row (col.net w).acks), [])).1 = col.cache (nl.row (col.net w).acks) := by
        rintro _ rfl none
        exact apply_fst_of_no_populate w _ _ none _
      simp only [absorb, Function.update_self]
      cases ChainNet.step_cases moved with
      | @request i u seq args _ _ =>
        rcases chainRequest_cache cfg w i _ ((col.net w).node i |>.withUser u) seq args
          (col.cache i) with same | ⟨op, ran, after⟩
        · exact .inl same
        · exact .inr ⟨w, op, by simpa [ChainNet.finish, NetLabel.row] using ran, after⟩
      | @deliver a i op rest _ _ =>
        rcases chainRequest_cache cfg w i _ (ChainNet.meet ((col.net w).node i) a) op.seq op.args
          (col.cache i) with same | ⟨op, ran, after⟩
        · exact .inl same
        · rw [(ChainNet.agrees_meet ((col.net w).node i) a).ran] at ran
          exact .inr ⟨w, op, by simpa [ChainNet.finish, NetLabel.row] using ran, after⟩
      | ackDeliver _ _ =>
        refine .inl (quiet _ rfl fun e he k v n => ?_)
        obtain ⟨batch, rfl⟩ := L2Proxy.outs_ackBatch (cfg w) _ _ _ e he
        simp
      | ackFrom _ =>
        refine .inl (quiet _ rfl fun e he k v n => ?_)
        obtain ⟨batch, rfl⟩ := L2Proxy.outs_ackBatch (cfg w) _ _ _ e he
        simp
      | resend _ _ =>
        refine .inl (quiet _ rfl fun e he k v n => ?_)
        obtain ⟨_, _, _, _, rfl⟩ := L2Proxy.outs_resendPending (cfg w) _ _ _ e he
        simp
      | touch _ | setup _ | crash _ | fetch _ | lose _ _ | loseAck _ =>
        exact .inl (quiet _ rfl (by simp [ChainNet.finish]))
    · simp [absorb, other]

end L2Column

namespace L2Proxy
variable (cfg : L2Config)

/-- The L3 tier as a tail sees it. -/
def l3Columns : List L3Column := cfg.l3Workers.mapIdx fun column n => ⟨column, n⟩

/-- The L3 worker a command is for. -/
def dest (args : ArgList) : Option (ℕ × ℕ) :=
  match L2Operation.deserialize args with
  | .error _ => none
  | .ok (op, _) =>
    match cfg.replicaToLabel.lookup (labelName op) with
    | none => none
    | some l => routeL3 (l3Columns cfg) (toString l)

/-- What an L3 worker looks at before it accepts an operation: the L2 worker, the number
and whether duplicates are to be discarded. -/
structure Tag where
  idx : ℤ
  number : ℤ
  dedup : Bool
  deriving DecidableEq

/-- The tag of an effect that is an operation for one L3 worker. -/
def tagTo (x : ℕ × ℕ) : L2Effect → Option Tag
  | .forward c k _ op dedup =>
    if (c, k) = x then some ⟨op.seqId.l2Idx, op.seqId.l2SeqNo, dedup⟩ else none
  | _ => none

variable {cfg}

lemma forwardRequest_tags {env : Env L2Effect} {s : L2State} {seq : SequenceId} {args : ArgList}
    (up : ∀ c k l op d, env.out (.forward c k l op d) = true)
    (iface : s.l3Iface = some (l3Columns cfg)) :
    (∀ x, (forwardRequest cfg env s seq args true).sent.filterMap (tagTo x) =
      if dest cfg args = some x then [⟨cfg.idx, seq.serverSeqNo, true⟩] else []) ∧
    ((forwardRequest cfg env s seq args true).status = .returned ↔ (dest cfg args).isSome) := by
  unfold forwardRequest dest
  cases L2Operation.deserialize args with
  | error e => simp
  | ok parsed =>
    dsimp only
    rcases Option.eq_none_or_eq_some (cfg.replicaToLabel.lookup (labelName parsed.1)) with
      found | ⟨l, found⟩
    · simp [found]
    simp only [found, iface]
    cases routeL3 (l3Columns cfg) (toString l) with
    | none => simp
    | some route =>
      refine ⟨fun x => ?_, by simp [Outcome.send, up]⟩
      rw [Outcome.send_sent, if_pos (up ..)]
      rcases eq_or_ne route x with rfl | other
      · simp [tagTo]
      · simp [tagTo, other]

/-- The commands a worker has run, with their L1 numbers increasing for each L1 worker and
not above the ones it has seen. -/
def Ascending (u : L2State) (ran : List ChainOp) : Prop :=
  (∀ op ∈ ran, ∃ last, seenAt u.lastSeenSeq op.seq.l1Idx = some last ∧ op.seq.l1SeqNo ≤ last) ∧
    ran.Pairwise fun a b => a.seq.l1Idx = b.seq.l1Idx → a.seq.l1SeqNo < b.seq.l1SeqNo

lemma runCommand_seen (cfg : L2Config) (s : L2State) (seq : SequenceId) (args : ArgList) :
    (∃ last, seenAt s.lastSeenSeq seq.l1Idx = some last ∧ last < seq.l1SeqNo ∧
      (runCommand cfg s seq args).state.lastSeenSeq =
        s.lastSeenSeq.set seq.l1Idx.toNat seq.l1SeqNo) ∨
    ((runCommand cfg s seq args).status ≠ .returned ∧
      (runCommand cfg s seq args).state.lastSeenSeq = s.lastSeenSeq) := by
  unfold runCommand
  cases found : seenAt s.lastSeenSeq seq.l1Idx with
  | none => exact .inr ⟨by simp, rfl⟩
  | some last =>
    dsimp only
    rcases le_or_gt seq.l1SeqNo last with old | new
    · rw [if_pos old]
      exact .inr ⟨by simp, rfl⟩
    · rw [if_neg (not_le.mpr new)]
      refine .inl ⟨last, rfl, new, ?_⟩
      cases L2Operation.deserialize args with
      | error e => rfl
      | ok parsed =>
        dsimp only
        split <;> rfl

lemma seen_mono {seen : List ℤ} {idx number last : ℤ} (found : seenAt seen idx = some last)
    (newer : last < number) {other old : ℤ}
    (before : ∃ l, seenAt seen other = some l ∧ old ≤ l) :
    ∃ l, seenAt (seen.set idx.toNat number) other = some l ∧ old ≤ l := by
  obtain ⟨l, hl, le⟩ := before
  rw [seenAt_set found]
  split
  · next same =>
    subst same
    rw [found, Option.some.injEq] at hl
    exact ⟨number, rfl, by omega⟩
  · exact ⟨l, hl, le⟩

lemma ascending_kept (cfg : L2Config) :
    ChainNet.Kept (callbacks cfg) fun m => Ascending m.user m.ran := by
  refine ChainNet.Kept.of_callbacks (J := fun _ u ran => Ascending u ran) ?_ ?_ ?_ ?_
  · intro _ _ u ran op h returned
    rcases runCommand_seen cfg u op.seq op.args with ⟨last, found, newer, seen⟩ | ⟨failed, _⟩
    · refine ⟨fun x hx => ?_, ?_⟩
      · rw [callbacks, seen]
        rcases List.mem_append.mp hx with old | new
        · exact seen_mono found newer (h.1 x old)
        · rw [List.mem_singleton.mp new, seenAt_set found, if_pos rfl]
          exact ⟨_, rfl, le_rfl⟩
      · refine List.pairwise_append.mpr ⟨h.2, List.pairwise_singleton _ _, ?_⟩
        intro a ha b hb same
        rw [List.mem_singleton.mp hb] at same ⊢
        obtain ⟨l, hl, le⟩ := h.1 a ha
        rw [same, found, Option.some.injEq] at hl
        omega
    · exact absurd returned failed
  · intro _ _ u ran op h _
    refine ⟨fun x hx => ?_, h.2⟩
    rcases runCommand_seen cfg u op.seq op.args with ⟨last, found, newer, seen⟩ | ⟨_, seen⟩
    · rw [callbacks, seen]
      exact seen_mono found newer (h.1 x hx)
    · rw [callbacks, seen]
      exact h.1 x hx
  · intro _ _ u ran seq args h
    simpa only [callbacks, forwardRequest_state] using h
  · intro _ _ _ u ran q h
    simpa only [Ascending, callbacks, ackCallback_lastSeenSeq] using h

end L2Proxy
end Shortstack
