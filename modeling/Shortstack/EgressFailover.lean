import Shortstack.EgressInvariant

/-! Failover between the L2 and the L3 tier over whole runs. -/
namespace Shortstack
open ChainModule L2Proxy HighWater Transition

lemma L2Proxy.dest_isSome {cfg : L2Config} (connected : cfg.l3Workers ≠ []) {args : ArgList}
    {op : L2Operation} {rest : ArgList} (parsed : L2Operation.deserialize args = .ok (op, rest))
    {l : ℕ} (labelled : cfg.replicaToLabel.lookup (labelName op) = some l) :
    ∃ x, dest cfg args = some x := by
  have size : (l3Columns cfg).length = cfg.l3Workers.length := by simp [l3Columns]
  have inside := consistentHash_lt (toString l) (size ▸ List.length_pos_of_ne_nil connected)
  simp only [dest, parsed, labelled, routeL3, List.getElem?_eq_getElem inside]
  exact ⟨_, rfl⟩

namespace Egress
variable {ι : Type} [DecidableEq ι] {cfg : EgressConfig ι} {s : Egress ι}

def tagOf (op : L3Operation) : Tag := ⟨op.seqId.l2Idx, op.seqId.l2SeqNo, op.dedup⟩

/-- What is on the links of one L2 worker. -/
def offered (s : Egress ι) (w : ι) (i : ℕ) (x : ℕ × ℕ) : List Tag := (s.link w i x).map tagOf

def Inv (cfg : EgressConfig ι) (s : Egress ι) : Prop :=
  ∀ w, Safe (cfg.l2 w) (s.column.net w) (s.offered w) s.l3 (s.resending w)

lemma arrivals_append (a b : List (L2Sent ι)) (w : ι) (i : ℕ) (x : ℕ × ℕ) :
    arrivals (a ++ b) w i x = arrivals a w i x ++ arrivals b w i x := List.filterMap_append

lemma arrivals_absorb (l2 : ι → L2Config) (col : L2Column ι) (w : ι) (i : ℕ)
    (res : NetResult L2State L2Effect) (v : ι) (j : ℕ) (x : ℕ × ℕ) :
    (arrivals (col.absorb l2 w i res).sent v j x).map tagOf =
      if v = w ∧ j = i then tags x res.outs else [] := by
  have loop : ∀ (outs : List L2Effect) (acc : UpdateCache × List (L2Sent ι)),
      (arrivals (outs.foldl (L2Column.apply l2 w i) acc).2 v j x).map tagOf =
        (arrivals acc.2 v j x).map tagOf ++ if v = w ∧ j = i then tags x outs else [] := by
    intro outs
    induction outs with
    | nil => simp
    | cons e outs ih =>
      intro acc
      rw [List.foldl_cons, ih, tags_cons]
      cases e with
      | populate key value n => simp [L2Column.apply, tagTo]
      | ackL1 batch => simp [L2Column.apply, arrivals, tagTo]
      | forward c k label op dedup =>
        simp only [L2Column.apply, arrivals_append, List.map_append, List.append_assoc]
        congr 1
        by_cases here : v = w ∧ j = i
        · obtain ⟨rfl, rfl⟩ := here
          by_cases hit : (c, k) = x
          · simp [arrivals, tagTo, tagOf, hit]
          · simp [arrivals, tagTo, hit]
        · have : ¬ (w = v ∧ i = j ∧ (c, k) = x) := fun h => here ⟨h.1.symm, h.2.1.symm⟩
          simp [arrivals, here, this]
  simpa [L2Column.absorb, arrivals] using loop res.outs (col.cache i, [])

/-- The failures considered: an instance of the first row does not crash, a tail resends
everything it has pending, and the L2 workers of other columns keep to their own
numbers. -/
def inScope (cfg : EgressConfig ι) (s : Egress ι) : EgressLabel ι → Prop
  | .l2 _ _ (.crash i) => i ≠ 0
  | .l2 _ _ (.chain w (.resend i)) =>
    ((s.column.net w).node i).isTail = true → (s.column.net w).fetched i = some (-1)
  | .foreign _ op _ => ∀ w, op.seqId.l2Idx ≠ (cfg.l2 w).idx
  | _ => True

/-- A row that was made tail runs no new command before it has resent the old ones. -/
def waits (s : Egress ι) : EgressLabel ι → Prop
  | .l2 _ _ (.request w i op) => s.resending w i = true →
    ∀ last ∈ seenAt ((s.column.net w).node i).user.lastSeenSeq op.seqId.l1Idx,
      op.seqId.l1SeqNo ≤ last
  | .l2 _ _ (.chain w (.deliver j i)) => s.resending w i = true →
    ∀ op ∈ ((s.column.net w).link j i).head?,
      (((s.column.net w).node i).numbered op.seq).serverSeqNo ≠
        ((s.column.net w).node i).chainSeqNo + 1
  | _ => True

lemma Inv.moved (h : Inv cfg s) {ext : Outside L2Effect} {w : ι} {nl : NetLabel L2State}
    {res : NetResult L2State L2Effect}
    (taken : (s.column.net w).step (callbacks (cfg.l2 w)) ext nl = some res)
    (user : (s.column.net w).keepsUser nl)
    (up : ∀ c k l op d, ext.out (.forward c k l op d) = true) (stays : ∀ i, nl ≠ .crash i)
    (given : ∀ i u seqs, nl = .ackFrom i u seqs → ∀ q ∈ seqs,
      ∃ x, (s.l3 x).Accepted (cfg.l2 w).idx q.serverSeqNo)
    (waits : (s.column.net w).runsNext nl →
      s.resending w (nl.row (s.column.net w).acks) = false)
    (whole : ∀ i n, nl = .resend i → (s.column.net w).fetched i = some n →
      ((s.column.net w).node i).isTail = true → n = -1)
    {resending' : ι → ℕ → Bool}
    (tracked : ∀ i, resending' w i = false → (res.net.node i).isTail = true →
      ((s.column.net w).node i).isTail = true ∧
        (s.resending w i = false ∨ nl = .resend i ∧ res.status = .returned))
    (others : ∀ v, v ≠ w → resending' v = s.resending v) :
    Inv cfg { s.absorb (s.column.absorb cfg.l2 w (nl.row (s.column.net w).acks) res) with
      resending := resending' } := by
  intro v
  have links : ∀ i x, ({ s.absorb (s.column.absorb cfg.l2 w (nl.row (s.column.net w).acks) res) with
      resending := resending' } : Egress ι).offered v i x =
        s.offered v i x ++ if v = w ∧ i = nl.row (s.column.net w).acks
          then tags x res.outs else [] := by
    intro i x
    simp only [offered, absorb, List.map_append, arrivals_absorb]
  rcases eq_or_ne v w with rfl | other
  · have moved := (h v).move taken user up stays given waits whole tracked
    simp only [true_and] at links
    rw [← funext fun i => funext fun x => links i x] at moved
    simpa [absorb, L2Column.absorb] using moved
  · have same : ({ s.absorb (s.column.absorb cfg.l2 w (nl.row (s.column.net w).acks) res) with
        resending := resending' } : Egress ι).offered v = s.offered v := by
      funext i x
      rw [links, if_neg (fun both => other both.1), List.append_nil]
    rw [same]
    simpa [absorb, L2Column.absorb, other, others v other] using h v

omit [DecidableEq ι] in
lemma Inv.quiet (h : Inv cfg s) {s' : Egress ι} (column : s'.column = s.column)
    (l3 : s'.l3 = s.l3) (link : s'.link = s.link) (resending : s'.resending = s.resending) :
    Inv cfg s' := by
  intro v
  rw [column, l3, resending, show s'.offered = s.offered by unfold offered; rw [link]]
  exact h v

lemma absorb_link (r : L2Result ι) (sent : r.sent = []) : (s.absorb r).link = s.link := by
  funext w i x
  simp [absorb, sent, arrivals]

/-- A tail that need not resend was tail before and had nothing to resend, or has just
resent everything. -/
lemma track_done (s : Egress ι) {w : ι} {nl : NetLabel L2State} {ext : Outside L2Effect} {i : ℕ}
    {res : NetResult L2State L2Effect} {l2 : ι → L2Config}
    (taken : (s.column.net w).step (callbacks (l2 w)) ext nl = some res)
    (done : s.track (.chain w nl) (s.column.absorb l2 w (nl.row (s.column.net w).acks) res) w i =
      false) (tail : (res.net.node i).isTail = true) :
    ((s.column.net w).node i).isTail = true ∧
      (s.resending w i = false ∨ nl = .resend i ∧ res.status = .returned) := by
  have role : nl ≠ .setup i → ((s.column.net w).node i).isTail = true := by
    intro other
    rwa [ChainModule.isTail, ChainNet.step_role taken other] at tail
  cases nl with
  | setup j =>
    rcases eq_or_ne i j with rfl | other
    · simp only [track, L2Column.absorb, Function.update_self, true_and, tail] at done
      split at done
      · simp at done
      · next was => exact ⟨by simpa using was, .inl done⟩
    · have := role (by simpa using other.symm)
      exact ⟨this, .inl (by simpa [track, other] using done)⟩
  | resend j =>
    refine ⟨role (by simp), ?_⟩
    simp only [track, L2Column.absorb, true_and] at done
    split at done
    · next same => exact .inr ⟨by rw [same.1], same.2⟩
    · exact .inl done
  | request | deliver | ackDeliver | ackFrom | touch | crash | fetch | lose | loseAck =>
    exact ⟨role (by simp), .inl done⟩

lemma Inv.column (h : Inv cfg s) {ackUp : AckBatch → Bool} {clock : Option Int64} {label : L2Label ι}
    (scope : inScope cfg s (.l2 ackUp clock label)) (waiting : waits s (.l2 ackUp clock label))
    (notAck : ∀ w i seqs, label ≠ .externalAck w i seqs) {r : L2Result ι}
    (taken : s.column.step cfg.l2 (outside ackUp clock) label = some r) :
    Inv cfg { s.absorb r with resending := s.track label r } := by
  cases L2Column.step_cases taken with
  | @crash i =>
    intro v
    have failed := (h v).fail (i := i) scope
    have same : s.offered v = fun j x => ((s.absorb
        ⟨{ s.column with net := fun w => (s.column.net w).fail i }, [], .returned⟩).link v j x).map
          tagOf := by
      rw [absorb_link _ rfl]
      rfl
    rw [same] at failed
    exact failed
  | refused => exact h.quiet rfl rfl (absorb_link _ rfl) rfl
  | @moved _ w nl res source moved =>
    have user := source.keepsUser
    cases source with
    | ack => exact absurd rfl (notAck _ _ _)
    | request head known runs =>
      refine h.moved moved user (fun _ _ _ _ _ => rfl) (by simp) (by simp) (fun _ => ?_) (by simp)
        (fun j done tail => ⟨?_, .inl done⟩) fun _ _ => rfl
      · obtain ⟨last, found, newer⟩ := runs
        rw [numbered_l1Idx, timed_l1Idx] at found
        rw [numbered_l1SeqNo, timed_l1SeqNo] at newer
        by_contra busy
        have := waiting (by simpa [NetLabel.row] using busy) last found
        omega
      · rwa [ChainModule.isTail, ChainNet.step_role moved (by simp)] at tail
    | chain internal =>
      refine h.moved moved user (fun _ _ _ _ _ => rfl) ?_ ?_ ?_ ?_ ?_ ?_
      · rintro i rfl
        simp [NetLabel.internal] at internal
      · rintro i u seqs rfl
        simp [NetLabel.internal] at internal
      · intro runs
        cases nl with
        | request => simp [NetLabel.internal] at internal
        | deliver j i =>
          obtain ⟨op, first, number⟩ := runs
          by_contra busy
          exact waiting (by simpa [NetLabel.row] using busy) op first number
        | ackDeliver | ackFrom | touch | crash | setup | fetch | resend | lose | loseAck =>
          exact runs.elim
      · rintro i n rfl fetched tail
        have all := scope tail
        rw [fetched, Option.some.injEq] at all
        exact all
      · intro j done tail
        exact s.track_done moved done tail
      · intro v other
        cases nl <;> simp [track, other]

lemma Safe.elsewhere {l2 : L2Config} {net : ChainNet L2State} {offered : ℕ → ℕ × ℕ → List Tag}
    {l3 : ℕ × ℕ → L3State} {resending : ℕ → Bool} (h : Safe l2 net offered l3 resending)
    {x : ℕ × ℕ} {op : L3Operation} (other : op.seqId.l2Idx ≠ l2.idx) (clock : Option Int64) :
    Safe l2 net offered (Function.update l3 x (L3Proxy.asyncOperation clock (l3 x) op).state)
      resending := by
  have same : seenAt (L3Proxy.asyncOperation clock (l3 x) op).state.lastSeenSeq l2.idx =
        seenAt (l3 x).lastSeenSeq l2.idx ∧
      ∀ n, (L3Proxy.asyncOperation clock (l3 x) op).state.Accepted l2.idx n ↔
        (l3 x).Accepted l2.idx n := by
    cases found : seenAt (l3 x).lastSeenSeq op.seqId.l2Idx with
    | none => simp [L3Proxy.asyncOperation, found]
    | some last =>
      rcases @L3Proxy.asyncOperation_of_seen _ op clock last found with
        ⟨_, _, result⟩ | ⟨_, _, seen, grown⟩
      · simp [result]
      · exact ⟨by rw [seen, if_neg other.symm], fun n => by simp [grown, other]⟩
  refine h.congr ?_ ?_
  · intro y
    rcases eq_or_ne y x with rfl | hy
    · simp only [accepted, Function.update_self, same.2]
    · simp only [accepted, Function.update_of_ne hy]
  · intro y
    rcases eq_or_ne y x with rfl | hy
    · rw [Function.update_self, same.1]
    · rw [Function.update_of_ne hy]

theorem Inv.step (h : Inv cfg s) {l : EgressLabel ι} (scope : inScope cfg s l)
    (waiting : waits s l) {t : Egress ι} (taken : s.step cfg l = some t) : Inv cfg t := by
  cases l with
  | l2 ackUp clock label =>
    have moved : (∀ w i seqs, label ≠ .externalAck w i seqs) ∧ ∃ r,
        s.column.step cfg.l2 (outside ackUp clock) label = some r ∧
        { s.absorb r with resending := s.track label r } = t := by
      cases label with
      | externalAck => simp [Egress.step] at taken
      | request | chain | crash =>
        exact ⟨by simp, Option.map_eq_some_iff.mp (by simpa only [Egress.step] using taken)⟩
    obtain ⟨notAck, r, hr, rfl⟩ := moved
    exact h.column scope waiting notAck hr
  | deliver w i x clock =>
    simp only [Egress.step] at taken
    split at taken
    · simp at taken
    · next op rest link =>
      obtain rfl := Option.some.inj taken
      intro v
      rcases eq_or_ne v w with rfl | other
      · have first : s.offered v i x = tagOf op :: rest.map tagOf := by simp [offered, link]
        refine ((h v).accept clock op first _ ?_ ?_).2
        · simp [offered, setLink]
        · intro j y hne
          simp [offered, setLink, hne]
      · have same : ({ s with
            l3 := Function.update s.l3 x (L3Proxy.asyncOperation clock (s.l3 x) op).state
            link := s.setLink w i x rest } : Egress ι).offered v = s.offered v := by
          funext j y
          simp [offered, setLink, other]
        rw [same]
        refine (h v).elsewhere ?_ clock
        have own := ((h w).tagged i x (tagOf op) (by simp [offered, link])).1
        rw [show op.seqId.l2Idx = (cfg.l2 w).idx from own]
        exact fun eq => other (cfg.distinct eq).symm
  | foreign x op clock =>
    obtain rfl := Option.some.inj taken
    exact fun v => (h v).elsewhere (scope v) clock
  | ack x w i seqs ackUp =>
    simp only [Egress.step, Option.ite_none_right_eq_some] at taken
    obtain ⟨acked, taken⟩ := taken
    obtain ⟨r, hr, rfl⟩ := Option.map_eq_some_iff.mp taken
    cases L2Column.step_cases hr with
    | @moved _ w nl res source moved =>
      have user := source.keepsUser
      cases source with
      | ack =>
        refine h.moved moved user (fun _ _ _ _ _ => rfl) (by simp) ?_ (fun no => no.elim) (by simp)
          (fun j done tail => ⟨?_, .inl done⟩) fun _ _ => rfl
        · rintro i u seqs' ⟨⟩ q hq
          obtain ⟨q', hq', rfl⟩ := List.mem_map.mp hq
          exact ⟨x, acked q' hq'⟩
        · rwa [ChainModule.isTail, ChainNet.step_role moved (by simp)] at tail
  | lose w i x kept =>
    simp only [Egress.step, Bool.and_eq_true, Bool.not_eq_true', Option.ite_none_right_eq_some,
      Option.some.injEq] at taken
    obtain ⟨⟨dead, sub⟩, rfl⟩ := taken
    intro v
    rcases eq_or_ne v w with rfl | other
    · refine (h v).lose dead (x := x) ?_ ?_
      · simpa [offered, setLink] using (List.isPrefixOf_iff_prefix.mp sub).map tagOf
      · intro j y hne
        simp [offered, setLink, hne]
    · have same : ({ s with link := s.setLink w i x kept } : Egress ι).offered v = s.offered v := by
        funext j y
        simp [offered, setLink, other]
      rw [same]
      exact h v

omit [DecidableEq ι] in
lemma inv_start (cfg : EgressConfig ι) {rows : ℕ} (pos : 0 < rows) : Inv cfg (start cfg rows) := by
  intro w
  have ran : ∀ i, ((((start cfg rows).column.net w).node i)).ran = [] := fun _ => rfl
  have wanted : ∀ x, wanted (cfg.l2 w) ((start cfg rows).column.net w) x = ∅ := by
    intro x
    ext n
    simp [Egress.wanted, ran]
  have accepted : ∀ x, accepted (cfg.l2 w) (start cfg rows).l3 x = ∅ := by
    intro x
    ext n
    simp [Egress.accepted, L3State.Accepted, start, L3Proxy.initState]
  have offered : ∀ i x, (start cfg rows).offered w i x = [] := fun _ _ => rfl
  refine ⟨ChainNet.Inv.start _ _ _ _, ?_, ?_, by simp [offered], by simp [offered], ?_, ?_, ?_,
    ChainNet.Released.start _ _ _ _⟩
  · simpa [start, L2Column.start, ChainNet.start] using pos
  · exact fun i => connected_setup (cfg.l2 w) (initRole rows i) (initNext rows i) (.inl rfl)
  · intro x
    refine ⟨-1, ?_, by simp [Closed, wanted], by simp [start, L2Column.start, ChainNet.start,
      ChainModule.setup]⟩
    have range := cfg.inRange w
    simp only [start, L3Proxy.initState, seenAt, if_neg (not_lt.mpr range.1)]
    exact List.getElem?_replicate_of_lt (by omega)
  · simp [accepted]
  · simp [wanted]

/-- In every run in which a row made tail runs no new command before it has resent the old
ones: an L3 worker discards only operations whose number it has accepted before, and once a
tail has resent, every command it has run was accepted by its L3 worker as soon as the link
to that worker is empty. -/
theorem failover_loses_no_command
    (h : Reaches (egressSystem cfg) (fun s l => inScope cfg s l ∧ waits s l) s) :
    (∀ w i x op rest clock, s.link w i x = op :: rest →
      (L3Proxy.asyncOperation clock (s.l3 x) op).status = .dropped →
      (s.l3 x).Accepted op.seqId.l2Idx op.seqId.l2SeqNo) ∧
    (∀ w i, (s.column.net w).alive i = true → ((s.column.net w).node i).isTail = true →
      s.resending w i = false → ∀ op ∈ ((s.column.net w).node i).ran, ∀ parsed rest l,
        L2Operation.deserialize op.args = .ok (parsed, rest) →
        (cfg.l2 w).replicaToLabel.lookup (labelName parsed) = some l →
        ∃ x, dest (cfg.l2 w) op.args = some x ∧
          (s.link w i x = [] → (s.l3 x).Accepted (cfg.l2 w).idx op.seq.serverSeqNo)) := by
  have inv : Inv cfg s := by
    refine h.invariant ?_ ?_
    · rintro _ ⟨rows, pos, rfl⟩
      exact inv_start cfg pos
    · intro s l t hs allowed taken
      exact hs.step allowed.1 allowed.2 taken
  refine ⟨?_, ?_⟩
  · intro w i x op rest clock link dropped
    have first : s.offered w i x = tagOf op :: rest.map tagOf := by simp [offered, link]
    have own := ((inv w).tagged i x (tagOf op) (by simp [first])).1
    rw [show op.seqId.l2Idx = (cfg.l2 w).idx from own]
    exact ((inv w).accept clock op first
      (fun j y => if j = i ∧ y = x then rest.map tagOf else s.offered w j y) (by simp)
      (fun j y other => by simp [other])).1 dropped
  · intro w i alive tail done op ran parsed rest l hparse label
    obtain ⟨x, goes⟩ := dest_isSome (cfg.connected w) hparse label
    refine ⟨x, goes, fun drained => ?_⟩
    have mem := (inv w).chain.mem_first (inv w).head alive ran
    have bound := (((inv w).chain.node i).number_bounds ran).2
    rcases (inv w).settled i alive tail done x _ ⟨op, mem, rfl, goes⟩ bound with old | inside
    · exact old
    · simp [offered, drained] at inside

/-- One L2 worker, one key and one L3 worker. -/
def oneWorker : EgressConfig Unit where
  l2 _ :=
    { idx := 0
      dummyKey := "d"
      replicaToLabel := (∅ : AList (fun _ : String => ℕ)) |>.insert "a0" 0
      keyToNumberOfReplicas := (∅ : AList (fun _ : String => ℤ)) |>.insert "a" 1
      updateCacheEnabled := true
      ackBatchSize := 1
      l1Workers := [1]
      l3Workers := [1] }
  l2Workers := 1
  inRange := by decide
  distinct := fun _ _ _ => rfl
  connected := by decide

section Runs

def quietNet (l : L2Label Unit) : EgressLabel Unit := .l2 (fun _ => true) none l

/-- The first command is forwarded by the tail, which crashes before it arrives; the other
row is made tail. -/
def lostForward : List (EgressLabel Unit) :=
  [quietNet (.request () 0 ⟨{ l1SeqNo := 0 }, "a", 0, ""⟩), quietNet (.chain () (.deliver 0 1)),
    quietNet (.crash 1), .lose () 1 (0, 0) [], quietNet (.chain () (.setup 0))]

/-- It runs a second command before it resends the first. -/
def overtaking : List (EgressLabel Unit) :=
  lostForward ++ [quietNet (.request () 0 ⟨{ l1SeqNo := 1 }, "a", 0, ""⟩),
    .deliver () 0 (0, 0) none, quietNet (.chain () (.fetch 0)), quietNet (.chain () (.resend 0))]

instance (s : Egress Unit) (l : EgressLabel Unit) : Decidable (inScope oneWorker s l) := by
  unfold inScope
  split <;> infer_instance

instance (s : Egress Unit) (l : EgressLabel Unit) : Decidable (waits s l) := by
  unfold waits
  split <;> infer_instance

/-- The second command overtakes the first, which the L3 worker then discards without ever
having accepted it. -/
theorem command_lost_by_overtaking :
    ∃ s, Reaches (egressSystem oneWorker) (inScope oneWorker) s ∧ ∃ op rest,
      s.link () 0 (0, 0) = op :: rest ∧
      (L3Proxy.asyncOperation none (s.l3 (0, 0)) op).status = .dropped ∧
      ¬ (s.l3 (0, 0)).Accepted op.seqId.l2Idx op.seqId.l2SeqNo := by
  have start : (egressSystem oneWorker).init (start oneWorker 2) := ⟨2, by decide, rfl⟩
  have reached := Reaches.of_replay (inScope oneWorker) overtaking start rfl
  exact ⟨_, reached, ⟨{ serverSeqNo := 1, l2SeqNo := 1 }, "0", "", true, true⟩,
    [⟨{ serverSeqNo := 2, l1SeqNo := 1, l2SeqNo := 2 }, "0", "", true, true⟩],
    by decide +kernel, by decide +kernel, by decide +kernel⟩

/-- It resends before it runs the second command. -/
def waiting : List (EgressLabel Unit) :=
  lostForward ++ [quietNet (.chain () (.fetch 0)), quietNet (.chain () (.resend 0)),
    quietNet (.request () 0 ⟨{ l1SeqNo := 1 }, "a", 0, ""⟩), .deliver () 0 (0, 0) none,
    .deliver () 0 (0, 0) none]

theorem command_kept_by_waiting :
    ∃ s, Reaches (egressSystem oneWorker) (fun s l => inScope oneWorker s l ∧ waits s l) s ∧
      (s.column.net ()).alive 1 = false ∧ (s.l3 (0, 0)).Accepted 0 1 := by
  have start : (egressSystem oneWorker).init (start oneWorker 2) := ⟨2, by decide, rfl⟩
  have reached := Reaches.of_replay (fun s l => inScope oneWorker s l ∧ waits s l) waiting start rfl
  refine ⟨_, reached, rfl, ?_⟩
  have first : (⟨{ serverSeqNo := 1 }, argsOf none ⟨{ l1SeqNo := 0 }, "a", 0, ""⟩⟩ : ChainOp) ∈
      ((((replay (egressSystem oneWorker) (fun s l => inScope oneWorker s l ∧ waits s l)
        (Egress.start oneWorker 2) waiting).get rfl).column.net ()).node 0).ran := by
    decide +kernel
  obtain ⟨x, goes, arrived⟩ := (failover_loses_no_command reached).2 () 0 rfl rfl rfl _ first
    ⟨{ l1SeqNo := 0 }, "a", 0, ""⟩ [] 0 (by decide +kernel) (by decide +kernel)
  obtain rfl : (0, 0) = x := Option.some.inj (Eq.trans (by decide +kernel) goes)
  exact arrived (by decide +kernel)

end Runs

end Egress
end Shortstack
