import Shortstack.Storage

/-! An L3 worker and its store as one queue: operations enter it when they are accepted and
leave it when their value was written back; every stage in between keeps their order. -/
namespace Shortstack

section Queues
variable {α β : Type}

lemma enqueue_flatten (n : ℤ) (queue : List α) (a : α) :
    (enqueue n queue a).2.flatten ++ (enqueue n queue a).1 = queue ++ [a] := by
  unfold enqueue
  split <;> simp

lemma flush_flatten (queue : List α) : (flush queue).flatten = queue := by
  unfold flush
  split
  · next none => simpa using none.symm
  · simp

lemma enqueueAll_flatten (n : ℤ) (queue as : List α) :
    (enqueueAll n queue as).flatten = queue ++ as := by
  induction as generalizing queue with
  | nil => simp [enqueueAll, flush_flatten]
  | cons a as ih =>
    unfold enqueueAll
    rw [List.flatten_append, ih, ← List.append_assoc, enqueue_flatten, List.append_assoc]
    rfl

lemma forall₂_of_mapM {f : α → Option β} {as : List α} {bs : List β} (read : as.mapM f = some bs) :
    List.Forall₂ (fun a b => f a = some b) as bs := by
  induction as generalizing bs with
  | nil =>
    obtain rfl : bs = [] := by simpa using read.symm
    exact .nil
  | cons a as ih =>
    simp only [List.mapM_cons, Option.bind_eq_bind, Option.bind_eq_some_iff, Option.pure_def,
      Option.some.injEq] at read
    obtain ⟨b, here, rest, later, rfl⟩ := read
    exact .cons here (ih later)

lemma exists_of_mem_mapM {f : α → Option β} {as : List α} {bs : List β} (read : as.mapM f = some bs)
    {b : β} (mem : b ∈ bs) : ∃ a ∈ as, f a = some b := by
  have each := forall₂_of_mapM read
  clear read
  induction each with
  | nil => simp at mem
  | cons here _ ih =>
    rcases List.mem_cons.mp mem with rfl | later
    · exact ⟨_, List.mem_cons_self, here⟩
    · obtain ⟨a, ha, found⟩ := ih later
      exact ⟨a, List.mem_cons_of_mem _ ha, found⟩

end Queues

namespace L3Worker

/-- The operations under way, oldest first. -/
def pipe (s : L3Worker) : List L3Operation :=
  s.putReplies.flatten.map L3Write.op ++ s.msets.flatten.map L3Write.op ++
    s.cryptoQueue.flatten.map Prod.fst ++ s.getReplies.flatten.map Prod.fst ++ s.mgets.flatten ++
    s.getQueue

/-- What no stage changes of an operation. -/
def Stable {β : Type} (f : L3Operation → β) : Prop :=
  ∀ op seq, seq.clientId = op.seqId.clientId → seq.clientSeqNo = op.seqId.clientSeqNo →
    seq.serverSeqNo = op.seqId.serverSeqNo → seq.l1Idx = op.seqId.l1Idx →
    seq.l1SeqNo = op.seqId.l1SeqNo → seq.l2Idx = op.seqId.l2Idx →
    seq.l2SeqNo = op.seqId.l2SeqNo → f { op with seqId := seq } = f op

variable {cfg : L3Config} {β : Type} {f : L3Operation → β} {clock : Option Int64} {s t : L3Worker}

lemma Stable.elapsed (stable : Stable f) (op : L3Operation) : f (elapsed clock op) = f op := by
  cases clock with
  | none => rfl
  | some now => exact stable op _ rfl rfl rfl rfl rfl rfl rfl

lemma Stable.arrived (stable : Stable f) (op : L3Operation) : f (arrived clock op) = f op := by
  cases clock with
  | none => rfl
  | some now => exact stable op _ rfl rfl rfl rfl rfl rfl rfl

lemma asyncOperation_pipe (stable : Stable f) (op : L3Operation) :
    ((s.asyncOperation cfg clock op).status = .returned ∧
        (s.asyncOperation cfg clock op).state.pipe.map f = s.pipe.map f ++ [f op] ∨
      (s.asyncOperation cfg clock op).status ≠ .returned ∧
        (s.asyncOperation cfg clock op).state.pipe = s.pipe) ∧
    (s.asyncOperation cfg clock op).sent = [] ∧
    (s.asyncOperation cfg clock op).state.filter =
      (L3Proxy.asyncOperation clock s.filter op).state ∧
    (s.asyncOperation cfg clock op).status = (L3Proxy.asyncOperation clock s.filter op).status ∧
    (s.asyncOperation cfg clock op).state.respondQueue = s.respondQueue ∧
    (s.asyncOperation cfg clock op).state.ackIface = s.ackIface := by
  unfold asyncOperation
  dsimp only
  split
  · next returned =>
    refine ⟨.inl ⟨rfl, ?_⟩, rfl, rfl, returned.symm, rfl, rfl⟩
    have joined := enqueue_flatten cfg.storageBatchSize s.getQueue (arrived clock op)
    simp only [Outcome.done_state, asyncGet, pipe, List.flatten_append, List.append_assoc, joined]
    simp [stable.arrived]
  · next status other => exact ⟨.inr ⟨other, rfl⟩, rfl, rfl, rfl, rfl, rfl⟩

lemma serveGet_pipe {kv : Kv} (served : s.serveGet kv = some t) :
    t.pipe = s.pipe ∧ t.respondQueue = s.respondQueue ∧ t.ackIface = s.ackIface := by
  unfold serveGet at served
  split at served
  · simp at served
  · next ops rest popped =>
    rw [← Option.some.inj served]
    simp [pipe, popped, Function.comp_def]

lemma servePut_pipe {kv kv' : Kv} (served : s.servePut kv = some (kv', t)) :
    t.pipe = s.pipe ∧ t.respondQueue = s.respondQueue ∧ t.ackIface = s.ackIface := by
  unfold servePut at served
  split at served
  · simp at served
  · next writes rest popped =>
    obtain ⟨-, rfl⟩ := Prod.mk.inj (Option.some.inj served)
    simp [pipe, popped]

lemma getCallback_pipe (stable : Stable f) {o : Outcome L3Worker AckBatch}
    (taken : s.getCallback clock = some o) :
    (o.status = .returned ∧ o.state.pipe.map f = s.pipe.map f ∨
      o.status ≠ .returned ∧ (o.state.pipe.map f).Sublist (s.pipe.map f)) ∧ o.sent = [] ∧
    o.state.respondQueue = s.respondQueue ∧ o.state.ackIface = s.ackIface := by
  unfold getCallback at taken
  split at taken
  · simp at taken
  · next reply rest popped =>
    split at taken
    · next batch read =>
      rw [← Option.some.inj taken]
      refine ⟨.inl ⟨rfl, ?_⟩, rfl, rfl, rfl⟩
      have kept : batch.map (fun e => f e.1) = reply.map fun e => f e.1 := by
        have each := forall₂_of_mapM read
        clear popped taken read
        induction each with
        | nil => rfl
        | cons here _ ih =>
          obtain ⟨value, -, rfl⟩ := Option.map_eq_some_iff.mp here
          rw [List.map_cons, List.map_cons, ih, stable.elapsed]
      simp [pipe, popped, Function.comp_def, kept]
    · rw [← Option.some.inj taken]
      refine ⟨.inr ⟨by simp, ?_⟩, rfl, rfl, rfl⟩
      simp [pipe, popped]

lemma cryptoRound_pipe (stable : Stable f) (taken : s.cryptoRound cfg clock = some t) :
    t.pipe.map f = s.pipe.map f ∧ t.respondQueue = s.respondQueue ∧ t.ackIface = s.ackIface := by
  unfold cryptoRound at taken
  split at taken
  · simp at taken
  · next batch rest popped =>
    rw [← Option.some.inj taken]
    refine ⟨?_, rfl, rfl⟩
    have written : ∀ e : L3Operation × String, f (writeBack cfg clock e.1 e.2).op = f e.1 := by
      intro e
      exact (stable.elapsed _).trans (stable.elapsed _)
    simp [pipe, popped, enqueueAll_flatten, Function.comp_def, written]

/-- The responses to the real ones among completed writes. -/
def answers (clock : Option Int64) (writes : List L3Write) : List ClientResponse :=
  (writes.filter fun e => e.op.seqId.clientId ≠ fakeClientId).map (response clock)

lemma answers_append (a b : List L3Write) :
    answers clock (a ++ b) = answers clock a ++ answers clock b := by
  rw [answers, List.filter_append, List.map_append]
  rfl

lemma completeOne_state (up : AckBatch → Bool) (s : L3Worker) (e : L3Write) :
    ∃ rc, (completeOne cfg clock up s e).state =
      { s with respondQueue := s.respondQueue ++ answers clock [e], ackIface := rc } := by
  unfold completeOne
  dsimp only
  rcases Classical.em (e.op.seqId.clientId = fakeClientId) with fake | real
  · have none : answers clock [e] = [] := by simp [answers, fake]
    rw [if_neg (not_not.mpr fake), none, List.append_nil]
    split
    · exact ⟨_, rfl⟩
    · exact ⟨s.ackIface, rfl⟩
  · have one : answers clock [e] = [response clock e] := by simp [answers, real]
    rw [if_pos real, one]
    split
    · exact ⟨_, rfl⟩
    · exact ⟨s.ackIface, rfl⟩

lemma completeAll_state (up : AckBatch → Bool) (writes : List L3Write) (s : L3Worker) :
    ∃ (completed : List L3Write) (rc : ReverseConnector), completed <+: writes ∧
      (Outcome.forEach (completeOne cfg clock up) writes s).state =
        { s with respondQueue := s.respondQueue ++ answers clock completed, ackIface := rc } := by
  induction writes generalizing s with
  | nil => exact ⟨[], s.ackIface, List.prefix_rfl, by simp [Outcome.forEach, answers]⟩
  | cons e writes ih =>
    obtain ⟨rc, one⟩ := @completeOne_state cfg clock up s e
    unfold Outcome.forEach
    refine Outcome.andThen_rule (Q := fun o : Outcome L3Worker AckBatch => ∃ completed rc,
      completed <+: e :: writes ∧ o.state =
        { s with respondQueue := s.respondQueue ++ answers clock completed, ackIface := rc })
      (fun _ => ?_) fun _ => ?_
    · exact ⟨[e], rc, by simp, one⟩
    · obtain ⟨completed, rc', part, state⟩ := ih (completeOne cfg clock up s e).state
      refine ⟨e :: completed, rc', List.cons_prefix_cons.mpr ⟨rfl, part⟩, ?_⟩
      dsimp only
      rw [state, one, List.append_assoc, ← answers_append, List.singleton_append]

end L3Worker
end Shortstack
