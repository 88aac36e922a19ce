import Shortstack.ChainErasure
import Shortstack.PipelineFlow

/-! Two runs of the pipeline that differ in what the clients want. The erasures of the L1 and
L2 tiers keep the key and the replica of every operation and its numbers, but neither its value
nor the client it is for. -/
namespace Shortstack
open ChainModule Transition

namespace L2Operation

def target (op : L2Operation) : String × Int32 := (op.key, op.replica)

/-- An operation on its way to the L2 tier. -/
def numbered (op : L2Operation) : (String × Int32) × ℤ × ℤ :=
  (op.target, op.seqId.l1Idx, op.seqId.l1SeqNo)

/-- Keys and replicas of a batch, if it can be decoded. -/
def batchTargets (args : ArgList) : Option (List (String × Int32)) :=
  match deserializeBatch args with
  | .ok batch => some (batch.map target)
  | .error _ => none

def argTarget (args : ArgList) : Option (String × Int32) :=
  match deserialize args with
  | .ok (op, _) => some op.target
  | .error _ => none

end L2Operation

namespace L1Proxy
variable {cfg : L1Config} {pick : ℤ → ℕ} {env env' : Env L1Effect}

def erasure : Erasure L1State L1Effect (ℤ × Option (List L2Client))
    (Option (List (String × Int32))) (L2Target × (String × Int32) × ℤ × ℤ) where
  user u := (u.idx, u.l2Iface)
  op op := L2Operation.batchTargets op.args
  out e := some (⟨e.column, e.worker, e.row⟩, e.op.numbered)
  free _ _ _ := rfl

/-- What an instance can reach depends on the address of a message only. -/
def SameReach (env env' : Env L1Effect) : Prop := ∀ e e' : L1Effect, e.column = e'.column →
  e.worker = e'.worker → e.row = e'.row → env.out e = env'.out e'

lemma routeL2_numbered (clients : List L2Client) {op op' : L2Operation}
    (same : op.numbered = op'.numbered) :
    routeL2 cfg pick clients op = routeL2 cfg pick clients op' := by
  simp only [L2Operation.numbered, L2Operation.target, Prod.mk.injEq] at same
  obtain ⟨⟨key, replica⟩, -, number⟩ := same
  simp only [routeL2, key, replica, number]

lemma sendOp_same (reach : SameReach env env') (clients : List L2Client) {s s' : L1State}
    {op op' : L2Operation} (user : erasure.user s = erasure.user s')
    (same : op.numbered = op'.numbered) :
    erasure.SameCall (sendOp cfg pick env clients s op) (sendOp cfg pick env' clients s' op') := by
  unfold sendOp
  rw [routeL2_numbered clients same]
  cases routeL2 cfg pick clients op' with
  | none => exact ⟨user, rfl, by simp⟩
  | some a =>
    obtain ⟨column, worker, row⟩ := a
    exact .send user (reach _ _ rfl rfl rfl) (by simp [erasure, same])

lemma forEach_sendOp_same (reach : SameReach env env') (clients : List L2Client)
    {ops ops' : List L2Operation} (same : ops.map L2Operation.numbered = ops'.map L2Operation.numbered)
    {s s' : L1State} (user : erasure.user s = erasure.user s') :
    erasure.SameCall (Outcome.forEach (sendOp cfg pick env clients) ops s)
      (Outcome.forEach (sendOp cfg pick env' clients) ops' s') := by
  induction ops generalizing ops' s s' with
  | nil =>
    obtain rfl : ops' = [] := by simpa using same.symm
    exact ⟨user, rfl, by simp [Outcome.forEach]⟩
  | cons op ops ih =>
    cases ops' with
    | nil => simp at same
    | cons op' ops' =>
      rw [List.map_cons, List.map_cons, List.cons.injEq] at same
      have first := @sendOp_same cfg pick env env' reach clients s s' op op' user same.1
      have rest := ih same.2 first.user
      unfold Outcome.forEach
      refine Outcome.andThen_rule (Q := fun o => erasure.SameCall o _) (fun stopped => ?_)
        fun returned => ?_
      · refine Outcome.andThen_rule (Q := fun o => erasure.SameCall _ o) (fun _ => first)
          fun returned' => absurd (first.status.mpr returned') stopped
      · refine Outcome.andThen_rule (Q := fun o => erasure.SameCall _ o)
          (fun stopped' => absurd (first.status.mp returned) stopped') fun _ => ?_
        exact ⟨rest.user, by simp only [List.filterMap_append, first.outs, rest.outs], rest.status⟩

lemma respects (cfg : L1Config) (pick : ℤ → ℕ) (reach reach' : ℕ → ℕ → Bool)
    (same : SameReach env env') :
    erasure.Respects (callbacks cfg pick reach) (callbacks cfg pick reach') env env' where
  run u u' op op' user _ := ⟨user, rfl, by simp [callbacks, runCommand]⟩
  complete u u' op op' user command := by
    have number : op.seq.serverSeqNo = op'.seq.serverSeqNo := congrArg Prod.fst command
    have batches : L2Operation.batchTargets op.args = L2Operation.batchTargets op'.args :=
      congrArg Prod.snd command
    have idx : u.idx = u'.idx := congrArg Prod.fst user
    have iface : u.l2Iface = u'.l2Iface := congrArg Prod.snd user
    simp only [callbacks, replicationComplete]
    unfold L2Operation.batchTargets at batches
    cases parsed : L2Operation.deserializeBatch op.args with
    | error e =>
      cases parsed' : L2Operation.deserializeBatch op'.args with
      | error e' => exact ⟨user, rfl, by simp⟩
      | ok batch' => simp [parsed, parsed'] at batches
    | ok batch =>
      cases parsed' : L2Operation.deserializeBatch op'.args with
      | error e' => simp [parsed, parsed'] at batches
      | ok batch' =>
        simp only [parsed, parsed', Option.some.injEq] at batches
        have size : batch.length = batch'.length := by simpa using congrArg List.length batches
        simp only [size]
        split
        · exact ⟨user, rfl, by simp⟩
        · rw [← iface]
          cases u.l2Iface with
          | none => exact ⟨user, rfl, by simp⟩
          | some clients =>
            refine forEach_sendOp_same same clients ?_ user
            refine List.ext_getElem (by simpa using size) fun i hi hi' => ?_
            have target := congrArg (fun l => l[i]?) batches
            simp only [List.length_map, List.length_mapIdx] at hi hi'
            simp only [List.getElem?_map, List.getElem?_eq_getElem hi, List.getElem?_eq_getElem hi',
              Option.map_some, Option.some.injEq, L2Operation.target, Prod.mk.injEq] at target
            simp [L2Operation.numbered, L2Operation.target, target, idx, number]

lemma deaf (cfg : L1Config) (pick : ℤ → ℕ) (reach : ℕ → ℕ → Bool) :
    erasure.Deaf (callbacks cfg pick reach) := fun _ _ _ _ => ⟨rfl, rfl⟩

end L1Proxy

/-- What the L3 tier routes and filters by. -/
def L3Operation.outline (op : L3Operation) : String × ℤ × ℤ × Bool :=
  (op.label, op.seqId.l2Idx, op.seqId.l2SeqNo, op.dedup)

namespace L2Proxy
variable {cfg : L2Config} {env env' : Env L2Effect}

def erasure : Erasure L2State L2Effect (List ℤ × Option (List L3Column))
    (ℤ × ℤ × Option (String × Int32)) ((ℕ × ℕ) × String × ℤ × ℤ × Bool) where
  user u := (u.lastSeenSeq, u.l3Iface)
  op op := (op.seq.l1Idx, op.seq.l1SeqNo, L2Operation.argTarget op.args)
  out
    | .forward column worker label op dedup =>
      some ((column, worker), label, op.seqId.l2Idx, op.seqId.l2SeqNo, dedup)
    | .populate .. | .ackL1 _ => none
  free _ _ _ := rfl

/-- Whether an operation can be forwarded depends on its column only. -/
def SameReach (env env' : Env L2Effect) : Prop := ∀ c k k' l l' o o' d d',
  env.out (.forward c k l o d) = env'.out (.forward c k' l' o' d')

lemma deserialize_same {args args' : ArgList}
    (same : L2Operation.argTarget args = L2Operation.argTarget args') :
    (∃ e e', L2Operation.deserialize args = .error e ∧ L2Operation.deserialize args' = .error e') ∨
    ∃ o o' rest rest', L2Operation.deserialize args = .ok (o, rest) ∧
      L2Operation.deserialize args' = .ok (o', rest') ∧ o.key = o'.key ∧ o.replica = o'.replica := by
  unfold L2Operation.argTarget at same
  cases parsed : L2Operation.deserialize args with
  | error e =>
    cases parsed' : L2Operation.deserialize args' with
    | error e' => exact .inl ⟨e, e', rfl, rfl⟩
    | ok p' => simp [parsed, parsed'] at same
  | ok p =>
    cases parsed' : L2Operation.deserialize args' with
    | error e' => simp [parsed, parsed'] at same
    | ok p' =>
      simp only [parsed, parsed', Option.some.injEq, L2Operation.target, Prod.mk.injEq] at same
      exact .inr ⟨p.1, p'.1, p.2, p'.2, rfl, rfl, same.1, same.2⟩

lemma runCommand_same {u u' : L2State} {op op' : ChainOp}
    (user : erasure.user u = erasure.user u') (command : erasure.command op = erasure.command op') :
    erasure.SameCall (runCommand cfg u op.seq op.args) (runCommand cfg u' op'.seq op'.args) := by
  have seen : u.lastSeenSeq = u'.lastSeenSeq := congrArg Prod.fst user
  have iface : u.l3Iface = u'.l3Iface := congrArg Prod.snd user
  have idx : op.seq.l1Idx = op'.seq.l1Idx := congrArg (fun c => c.2.1) command
  have number : op.seq.l1SeqNo = op'.seq.l1SeqNo := congrArg (fun c => c.2.2.1) command
  have target : L2Operation.argTarget op.args = L2Operation.argTarget op'.args :=
    congrArg (fun c => c.2.2.2) command
  unfold runCommand
  rw [seen, idx, number]
  split
  · exact ⟨user, rfl, by simp⟩
  · split
    · exact ⟨user, rfl, by simp⟩
    · have after : erasure.user { u with
          lastSeenSeq := u'.lastSeenSeq.set op'.seq.l1Idx.toNat op'.seq.l1SeqNo } =
          erasure.user { u' with
            lastSeenSeq := u'.lastSeenSeq.set op'.seq.l1Idx.toNat op'.seq.l1SeqNo } := by
        simp only [erasure, iface]
      rcases deserialize_same target with ⟨e, e', parsed, parsed'⟩ |
        ⟨o, o', rest, rest', parsed, parsed', -, -⟩
      · simp only [parsed, parsed']
        exact ⟨after, rfl, by simp⟩
      · simp only [parsed, parsed']
        split <;> split <;> exact ⟨after, rfl, by simp⟩

lemma forwardRequest_same (reach : SameReach env env') {u u' : L2State} {op op' : ChainOp}
    (dedup : Bool) (user : erasure.user u = erasure.user u')
    (command : erasure.command op = erasure.command op') :
    erasure.SameCall (forwardRequest cfg env u op.seq op.args dedup)
      (forwardRequest cfg env' u' op'.seq op'.args dedup) := by
  have iface : u.l3Iface = u'.l3Iface := congrArg Prod.snd user
  have number : op.seq.serverSeqNo = op'.seq.serverSeqNo := congrArg Prod.fst command
  have target : L2Operation.argTarget op.args = L2Operation.argTarget op'.args :=
    congrArg (fun c => c.2.2.2) command
  unfold forwardRequest
  rcases deserialize_same target with ⟨e, e', parsed, parsed'⟩ |
    ⟨o, o', rest, rest', parsed, parsed', key, replica⟩
  · simp only [parsed, parsed']
    exact ⟨user, rfl, by simp⟩
  · have name : labelName o = labelName o' := by rw [labelName, key, replica, labelName]
    simp only [parsed, parsed', iface]
    rw [name]
    cases cfg.replicaToLabel.lookup (labelName o') with
    | none => exact ⟨user, rfl, by simp⟩
    | some l =>
      cases u'.l3Iface with
      | none => exact ⟨user, rfl, by simp⟩
      | some clients =>
        dsimp only
        cases routeL3 clients (toString l) with
        | none => exact ⟨user, rfl, by simp⟩
        | some y =>
          dsimp only
          exact .send user (reach ..) (by simp [erasure, number])

lemma respects (cfg : L2Config) (same : SameReach env env') :
    erasure.Respects (callbacks cfg) (callbacks cfg) env env' where
  run _ _ _ _ user command := runCommand_same user command
  complete _ _ _ _ user command := forwardRequest_same same true user command

lemma deaf (cfg : L2Config) : erasure.Deaf (callbacks cfg) := by
  intro env role u q
  simp only [callbacks, ackCallback]
  split
  · split
    · exact ⟨rfl, rfl⟩
    · refine ⟨rfl, ?_⟩
      simp only [Outcome.embed_sent, List.filterMap_map, Function.comp_def, erasure,
        List.filterMap_none]
  · exact ⟨rfl, rfl⟩

lemma argTarget_serialize (op : L2Operation) :
    L2Operation.argTarget op.serialize = some op.target := by
  have parsed := @L2Operation.deserialize_serialize op [] (by simp [L2Operation.NoField])
  rw [List.append_nil] at parsed
  rw [L2Operation.argTarget, parsed]
  rfl

lemma asyncOperation_same (reach : SameReach env env') (next : env.next = env'.next)
    {m m' : ChainModule L2State} (h : erasure.SameModule m m') {op op' : L2Operation}
    (same : op.numbered = op'.numbered) :
    erasure.SameOutcome (asyncOperation cfg env m op) (asyncOperation cfg env' m' op') := by
  have seen : m.user.lastSeenSeq = m'.user.lastSeenSeq := congrArg Prod.fst h.user
  simp only [L2Operation.numbered, L2Operation.target, Prod.mk.injEq] at same
  obtain ⟨⟨key, replica⟩, idx, number⟩ := same
  have stopped : ∀ o o' : Outcome (ChainModule L2State) (Send L2Effect), o.state = m →
      o'.state = m' → o.sent = [] → o'.sent = [] → erasure.SameOutcome o o' := by
    intro o o' state state' sent sent'
    exact ⟨by rw [state, state']; exact h, by rw [sent, sent'], by rw [sent, sent']⟩
  unfold asyncOperation
  rw [seen, idx, number, h.isHead, key]
  cases seenAt m'.user.lastSeenSeq op'.seqId.l1Idx with
  | none => exact stopped _ _ rfl rfl rfl rfl
  | some last =>
    dsimp only
    split
    · exact stopped _ _ rfl rfl rfl rfl
    · split
      · exact stopped _ _ rfl rfl rfl rfl
      · next head =>
        split
        · refine (respects cfg reach).chainRequest h next (fun notHead => ?_) ?_
          · rw [h.isHead] at notHead
            simp [notHead] at head
          · simp only [erasure, argTarget_serialize, L2Operation.target, replica]
            cases env.clock <;> cases env'.clock <;> simp [idx, number]
        · exact stopped _ _ rfl rfl rfl rfl

end L2Proxy

section Queues
variable {α β : Type} (f : α → β)

lemma enqueue_map (n : ℤ) (queue : List α) (a : α) :
    enqueue n (queue.map f) (f a) =
      ((enqueue n queue a).1.map f, (enqueue n queue a).2.map (List.map f)) := by
  unfold enqueue
  simp only [List.length_append, List.length_map, List.length_singleton]
  split <;> simp

lemma flush_map (queue : List α) : flush (queue.map f) = (flush queue).map (List.map f) := by
  cases queue <;> rfl

lemma enqueueAll_map (n : ℤ) (queue as : List α) :
    enqueueAll n (queue.map f) (as.map f) = (enqueueAll n queue as).map (List.map f) := by
  induction as generalizing queue with
  | nil => exact flush_map f queue
  | cons a as ih =>
    rw [List.map_cons, enqueueAll, enqueueAll]
    simp only [enqueue_map, ih, List.map_append]

end Queues

/-- What the storage stages of an L3 worker look like from outside. -/
structure WorkerOutline where
  lastSeenSeq : List ℤ
  getQueue : List String
  mgets : List (List String)
  getReplies : List (List (String × Bool))
  cryptoQueue : List (List String)
  msets : List (List String)

namespace L3Worker
variable {cfg : L3Config} {clock clock' : Option Int64} {w w' t t' : L3Worker}

def outline (w : L3Worker) : WorkerOutline where
  lastSeenSeq := w.filter.lastSeenSeq
  getQueue := w.getQueue.map L3Operation.label
  mgets := w.mgets.map (List.map L3Operation.label)
  getReplies := w.getReplies.map (List.map fun e => (e.1.label, e.2.isSome))
  cryptoQueue := w.cryptoQueue.map (List.map fun e => e.1.label)
  msets := w.msets.map (List.map fun e => e.op.label)

lemma filter_outline {s s' : L3State} (seen : s.lastSeenSeq = s'.lastSeenSeq)
    {op op' : L3Operation} (same : op.outline = op'.outline) :
    (L3Proxy.asyncOperation clock s op).status = (L3Proxy.asyncOperation clock' s' op').status ∧
      (L3Proxy.asyncOperation clock s op).state.lastSeenSeq =
        (L3Proxy.asyncOperation clock' s' op').state.lastSeenSeq := by
  simp only [L3Operation.outline, Prod.mk.injEq] at same
  obtain ⟨-, idx, number, dedup⟩ := same
  unfold L3Proxy.asyncOperation
  rw [seen, idx, number, dedup]
  cases seenAt s'.lastSeenSeq op'.seqId.l2Idx with
  | none => exact ⟨rfl, seen⟩
  | some last =>
    dsimp only
    split
    · exact ⟨rfl, seen⟩
    · cases clock <;> cases clock' <;> simp [idx, number]

lemma arrived_label (op : L3Operation) : (arrived clock op).label = op.label := by
  cases clock <;> rfl

lemma elapsed_label (op : L3Operation) : (elapsed clock op).label = op.label := by
  cases clock <;> rfl

lemma writeBack_label (op : L3Operation) (cipher : String) :
    (writeBack cfg clock op cipher).op.label = op.label :=
  (elapsed_label _).trans (elapsed_label _)

lemma asyncGet_outline (h : w.outline = w'.outline) {op op' : L3Operation}
    (same : op.label = op'.label) : (w.asyncGet cfg op).outline = (w'.asyncGet cfg op').outline := by
  have queue := congrArg WorkerOutline.getQueue h
  have joined := enqueue_map L3Operation.label cfg.storageBatchSize w.getQueue op
  have joined' := enqueue_map L3Operation.label cfg.storageBatchSize w'.getQueue op'
  simp only [outline] at queue
  rw [queue, same, joined', Prod.mk.injEq] at joined
  simp only [outline, asyncGet, List.map_append, ← joined.1, ← joined.2]
  simp only [outline, WorkerOutline.mk.injEq] at h
  simp only [h]

lemma asyncOperation_outline (h : w.outline = w'.outline) {op op' : L3Operation}
    (same : op.outline = op'.outline) :
    (w.asyncOperation cfg clock op).state.outline =
      (w'.asyncOperation cfg clock' op').state.outline := by
  obtain ⟨status, seen⟩ := @filter_outline clock clock' w.filter w'.filter
    (congrArg WorkerOutline.lastSeenSeq h) op op' same
  have moved : ({ w with filter := (L3Proxy.asyncOperation clock w.filter op).state } :
      L3Worker).outline = ({ w' with
        filter := (L3Proxy.asyncOperation clock' w'.filter op').state } : L3Worker).outline := by
    simp only [outline, WorkerOutline.mk.injEq] at h ⊢
    exact ⟨seen, h.2⟩
  unfold asyncOperation
  dsimp only
  rw [status]
  split
  · refine asyncGet_outline moved ?_
    rw [arrived_label, arrived_label]
    exact congrArg Prod.fst same
  · exact moved

lemma serveGet_outline (h : w.outline = w'.outline) {kv kv' : Kv}
    (stock : ∀ label, (kv label).isSome = (kv' label).isSome) (served : w.serveGet kv = some t)
    (served' : w'.serveGet kv' = some t') : t.outline = t'.outline := by
  have queue := congrArg WorkerOutline.mgets h
  unfold serveGet at served served'
  simp only [outline] at queue
  split at served
  · simp at served
  · next ops rest popped =>
    split at served'
    · simp at served'
    · next ops' rest' popped' =>
      rw [popped, popped', List.map_cons, List.map_cons, List.cons.injEq] at queue
      rw [← Option.some.inj served, ← Option.some.inj served']
      have read : ops.map (fun op => (op.label, (kv op.label).isSome)) =
          ops'.map fun op => (op.label, (kv' op.label).isSome) := by
        have labels := congrArg (List.map fun l => (l, (kv l).isSome)) queue.1
        simpa [List.map_map, Function.comp_def, stock] using labels
      simp only [outline, WorkerOutline.mk.injEq] at h ⊢
      refine ⟨h.1, h.2.1, queue.2, ?_, h.2.2.2.2.1, h.2.2.2.2.2⟩
      rw [List.map_append, List.map_append, h.2.2.2.1]
      simp [Function.comp_def, read]

lemma mapM_outline (reply : List (L3Operation × Option String)) :
    (reply.mapM fun e : L3Operation × Option String =>
        e.2.map fun value => (elapsed clock e.1, value)).map (List.map fun e => e.1.label) =
      if (reply.map fun e => (e.1.label, e.2.isSome)).all Prod.snd then
        some ((reply.map fun e => (e.1.label, e.2.isSome)).map Prod.fst) else none := by
  induction reply with
  | nil => rfl
  | cons e reply ih =>
    obtain ⟨op, value⟩ := e
    cases value with
    | none => simp
    | some value =>
      simp only [List.mapM_cons, Option.map_some, Option.bind_eq_bind, Option.bind_some,
        Option.pure_def, List.map_cons, Option.isSome_some, List.all_cons, Bool.true_and]
      cases rest : reply.mapM fun e : L3Operation × Option String =>
          e.2.map fun value => (elapsed clock e.1, value) with
      | none =>
        rw [rest] at ih
        simp only [Option.map_none] at ih
        split at ih
        · simp at ih
        · next none => simp [none]
      | some batch =>
        rw [rest] at ih
        simp only [Option.map_some] at ih
        split at ih
        · next all =>
          rw [if_pos all, Option.some.injEq] at *
          simp [elapsed_label, ih]
        · simp at ih

lemma getCallback_outline (h : w.outline = w'.outline) {o o' : Outcome L3Worker AckBatch}
    (taken : w.getCallback clock = some o) (taken' : w'.getCallback clock' = some o') :
    o.state.outline = o'.state.outline := by
  have queue := congrArg WorkerOutline.getReplies h
  unfold getCallback at taken taken'
  simp only [outline] at queue
  split at taken
  · simp at taken
  · next reply rest popped =>
    split at taken'
    · simp at taken'
    · next reply' rest' popped' =>
      rw [popped, popped', List.map_cons, List.map_cons, List.cons.injEq] at queue
      have read := @mapM_outline clock reply
      have read' := @mapM_outline clock' reply'
      rw [queue.1, ← read'] at read
      simp only [outline, WorkerOutline.mk.injEq] at h
      split at taken
      · next batch parsed =>
        split at taken'
        · next batch' parsed' =>
          rw [parsed, parsed', Option.map_some, Option.map_some, Option.some.injEq] at read
          rw [← Option.some.inj taken, ← Option.some.inj taken']
          simp [outline, h, queue.2, read]
        · next parsed' => simp [parsed, parsed'] at read
      · next parsed =>
        split at taken'
        · next batch' parsed' => simp [parsed, parsed'] at read
        · rw [← Option.some.inj taken, ← Option.some.inj taken']
          simp [outline, h, queue.2]

lemma cryptoRound_outline (h : w.outline = w'.outline) (taken : w.cryptoRound cfg clock = some t)
    (taken' : w'.cryptoRound cfg clock' = some t') : t.outline = t'.outline := by
  have queue := congrArg WorkerOutline.cryptoQueue h
  unfold cryptoRound at taken taken'
  simp only [outline] at queue
  split at taken
  · simp at taken
  · next batch rest popped =>
    split at taken'
    · simp at taken'
    · next batch' rest' popped' =>
      rw [popped, popped', List.map_cons, List.map_cons, List.cons.injEq] at queue
      have written : ∀ (clock : Option Int64) (batch : List (L3Operation × String)),
          (enqueueAll cfg.storageBatchSize [] (batch.map fun e => writeBack cfg clock e.1 e.2)).map
            (List.map fun e => e.op.label) =
          enqueueAll cfg.storageBatchSize [] (batch.map fun e => e.1.label) := by
        intro clock batch
        rw [← enqueueAll_map, List.map_nil, List.map_map]
        simp [Function.comp_def, writeBack_label]
      simp only [outline, WorkerOutline.mk.injEq] at h
      rw [← Option.some.inj taken, ← Option.some.inj taken']
      simp only [outline, List.map_append, written, queue, h]

lemma servePut_outline (h : w.outline = w'.outline) {kv kv' after after' : Kv}
    (stock : ∀ label, (kv label).isSome = (kv' label).isSome)
    (served : w.servePut kv = some (after, t)) (served' : w'.servePut kv' = some (after', t')) :
    t.outline = t'.outline ∧ ∀ label, (after label).isSome = (after' label).isSome := by
  have queue := congrArg WorkerOutline.msets h
  unfold servePut at served served'
  simp only [outline] at queue
  split at served
  · simp at served
  · next writes rest popped =>
    split at served'
    · simp at served'
    · next writes' rest' popped' =>
      rw [popped, popped', List.map_cons, List.map_cons, List.cons.injEq] at queue
      obtain ⟨rfl, rfl⟩ := Prod.mk.inj (Option.some.inj served)
      obtain ⟨rfl, rfl⟩ := Prod.mk.inj (Option.some.inj served')
      have stored : ∀ (writes : List L3Write) (kv : Kv) (label : String),
          (writes.foldl (fun (kv : Kv) e => Function.update kv e.op.label (some e.cipher)) kv
            label).isSome = (decide (label ∈ writes.map fun e => e.op.label) || (kv label).isSome) := by
        intro writes
        induction writes with
        | nil => simp
        | cons e writes ih =>
          intro kv label
          rw [List.foldl_cons, ih]
          rcases eq_or_ne label e.op.label with rfl | other
          · simp
          · simp [other]
      refine ⟨?_, fun label => ?_⟩
      · simp only [outline, WorkerOutline.mk.injEq] at h
        simp [outline, h, queue.2]
      · rw [stored, stored, queue.1, stock]

lemma completeOne_outline (up : AckBatch → Bool) (e : L3Write) :
    (completeOne cfg clock up w e).state.outline = w.outline := by
  unfold completeOne
  dsimp only
  split
  · split <;> rfl
  · split <;> rfl

lemma putCallback_outline {up : AckBatch → Bool} {o : Outcome L3Worker AckBatch}
    (taken : w.putCallback cfg clock up = some o) : o.state.outline = w.outline := by
  unfold putCallback at taken
  split at taken
  · simp at taken
  · rw [← Option.some.inj taken]
    refine Outcome.forEach_induction (f := completeOne cfg clock up) _ _ []
      (P := fun t _ => t.outline = w.outline) ?_ rfl
    intro t _ e _ same
    rw [completeOne_outline, same]

lemma respond_outline {r : ClientResponse} (taken : w.respond cfg = some (r, t)) :
    t.outline = w.outline := by
  unfold respond at taken
  split at taken
  · simp at taken
  · obtain ⟨-, rfl⟩ := Prod.mk.inj (Option.some.inj taken)
    rfl

end L3Worker

namespace L2Column
variable {ι : Type} [DecidableEq ι] {cfg : ι → L2Config} {col col' : L2Column ι}

lemma arrivals_absorb (w : ι) (i : ℕ) (r : NetResult L2State L2Effect) (v : ι) (j : ℕ) (y : ℕ × ℕ) :
    (Egress.arrivals (col.absorb cfg w i r).sent v j y).map L3Operation.outline =
      if w = v ∧ i = j then ((r.outs.filterMap L2Proxy.erasure.out).filter fun e => e.1 = y).map
        Prod.snd else [] := by
  suffices ∀ acc : UpdateCache × List (L2Sent ι),
      (Egress.arrivals (r.outs.foldl (apply cfg w i) acc).2 v j y).map L3Operation.outline =
        (Egress.arrivals acc.2 v j y).map L3Operation.outline ++
        if w = v ∧ i = j then ((r.outs.filterMap L2Proxy.erasure.out).filter fun e => e.1 = y).map
          Prod.snd else [] by
    simpa [absorb, Egress.arrivals] using this (col.cache i, [])
  generalize r.outs = outs
  induction outs with
  | nil => simp
  | cons e outs ih =>
    intro acc
    rw [List.foldl_cons, ih]
    cases e with
    | populate key value n => rfl
    | ackL1 batch =>
      simp [apply, Egress.arrivals, L2Proxy.erasure, List.filterMap_append]
    | forward column worker label op dedup =>
      simp only [apply, Egress.arrivals, List.filterMap_append, List.map_append, List.append_assoc,
        List.append_cancel_left_eq]
      by_cases here : w = v ∧ i = j
      · obtain ⟨rfl, rfl⟩ := here
        by_cases there : (column, worker) = y
        · simp [L2Proxy.erasure, there, L3Operation.outline]
        · simp [L2Proxy.erasure, there]
      · have away : ¬ (w = v ∧ i = j ∧ (column, worker) = y) := fun h => here ⟨h.1, h.2.1⟩
        simp [here, away]

/-- Two steps of a worker that look alike, on the same row unless nothing is left of what they
send. -/
lemma absorb_same (h : ∀ w, L2Proxy.erasure.SameNet (col.net w) (col'.net w)) {w : ι} {i i' : ℕ}
    {r r' : NetResult L2State L2Effect} (net : L2Proxy.erasure.SameNet r.net r'.net)
    (outs : r.outs.filterMap L2Proxy.erasure.out = r'.outs.filterMap L2Proxy.erasure.out)
    (rows : i = i' ∨ r.outs.filterMap L2Proxy.erasure.out = []) :
    (∀ v, L2Proxy.erasure.SameNet ((col.absorb cfg w i r).column.net v)
        ((col'.absorb cfg w i' r').column.net v)) ∧
      ∀ v j y, (Egress.arrivals (col.absorb cfg w i r).sent v j y).map L3Operation.outline =
        (Egress.arrivals (col'.absorb cfg w i' r').sent v j y).map L3Operation.outline := by
  refine ⟨fun v => ?_, fun v j y => ?_⟩
  · rcases eq_or_ne v w with rfl | other
    · simpa [absorb] using net
    · simpa [absorb, other] using h v
  · rw [arrivals_absorb, arrivals_absorb, ← outs]
    rcases rows with rfl | none
    · rfl
    · simp [none]

lemma absorb_left {w : ι} {i : ℕ} {r : NetResult L2State L2Effect}
    (net : L2Proxy.erasure.SameNet r.net (col.net w))
    (outs : r.outs.filterMap L2Proxy.erasure.out = []) :
    (∀ v, L2Proxy.erasure.SameNet ((col.absorb cfg w i r).column.net v) (col.net v)) ∧
      ∀ v j y, (Egress.arrivals (col.absorb cfg w i r).sent v j y).map L3Operation.outline = [] := by
  refine ⟨fun v => ?_, fun v j y => ?_⟩
  · rcases eq_or_ne v w with rfl | other
    · simpa [absorb] using net
    · simpa [absorb, other] using Erasure.SameNet.rfl' (col.net v)
  · rw [arrivals_absorb, outs]
    simp

end L2Column
end Shortstack
