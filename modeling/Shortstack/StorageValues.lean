import Shortstack.StorageSpec

/-! What an L3 worker reads and writes under one label. No operation without a value follows
one with a value, so an operation without one reads what the label held at the start and
writes it back. -/
namespace Shortstack

def SequenceId.client (seq : SequenceId) : RequestId := (seq.clientId, seq.clientSeqNo)

/-- What decides the effect of an operation on its label, and its answer. -/
structure Access where
  client : RequestId
  label : String
  value : String
  isRead : Bool
  deriving DecidableEq, Repr

def L3Operation.access (op : L3Operation) : Access :=
  ⟨op.seqId.client, op.label, op.value, op.isRead⟩

/-- Who is told what by a response. -/
def ClientResponse.told (r : ClientResponse) : RequestId × OpCode × String :=
  (r.seqId.client, r.opCode, r.result)

namespace Access
variable (initial : String) (a : Access)

/-- What a label holds after an operation: the value it carries, or the one from the start. -/
def outcome : String := if a.value != "" then a.value else initial

def answer : RequestId × OpCode × String :=
  (a.client, if a.isRead then (.get, a.outcome initial) else (.put, ""))

end Access

namespace L3Config
variable (cfg : L3Config)

def plaintext (cipher : String) : String :=
  if cfg.encryptionEnabled then cfg.decrypt cipher else cipher

/-- Decryption gives back what was encrypted. -/
def Lossless : Prop := cfg.encryptionEnabled = true → ∀ text, cfg.decrypt (cfg.encrypt text) = text

end L3Config

namespace L3Worker

/-- The steps of a worker and its store. -/
inductive Serves (cfg : L3Config) (kv : Kv) (s : L3Worker) : Kv → L3Worker → Prop
  | serveGet {t} (taken : s.serveGet kv = some t) : Serves cfg kv s kv t
  | servePut {kv' t} (taken : s.servePut kv = some (kv', t)) : Serves cfg kv s kv' t
  | getReply {clock o} (taken : s.getCallback clock = some o) : Serves cfg kv s kv o.state
  | crypto {clock t} (taken : s.cryptoRound cfg clock = some t) : Serves cfg kv s kv t
  | putReply {clock up o} (taken : s.putCallback cfg clock up = some o) : Serves cfg kv s kv o.state
  | respond {r t} (taken : s.respond cfg = some (r, t)) : Serves cfg kv s kv t
  | connect {column row n} : Serves cfg kv s kv (s.updateConnections column row n)

/-- The operations at a worker and on their way to it, oldest first. -/
def traffic (s : L3Worker) (coming : List L3Operation) : List Access :=
  (s.pipe ++ coming).map L3Operation.access

/-- Those among them whose label was not read yet. -/
def unread (s : L3Worker) (coming : List L3Operation) : List Access :=
  (s.mgets.flatten ++ s.getQueue ++ coming).map L3Operation.access

/-- A worker and its store tell the truth about a label. -/
structure Truthful (cfg : L3Config) (initial label : String) (untouched : Prop) (kv : Kv)
    (s : L3Worker) (coming : List L3Operation) : Prop where
  order : (s.traffic coming).Pairwise fun a b =>
    a.label = label → b.label = label → a.value ≠ "" → b.value ≠ ""
  quiet : untouched → ∀ a ∈ s.traffic coming, a.label = label → a.value = ""
  stored : (untouched ∨ ∃ a ∈ s.unread coming, a.label = label ∧ a.value = "") →
    ∀ c ∈ kv label, cfg.plaintext c = initial
  replied : ∀ e ∈ s.getReplies.flatten, e.1.label = label → e.1.value = "" →
    ∀ c ∈ e.2, cfg.plaintext c = initial
  read : ∀ e ∈ s.cryptoQueue.flatten, e.1.label = label → e.1.value = "" →
    cfg.plaintext e.2 = initial
  written : ∀ e ∈ s.putReplies.flatten ++ s.msets.flatten, e.op.label = label →
    e.plaintext = e.op.access.outcome initial ∧ cfg.plaintext e.cipher = e.plaintext

variable {cfg : L3Config} {initial label : String} {untouched untouched' : Prop} {kv kv' : Kv}
  {s t : L3Worker} {coming : List L3Operation} {clock : Option Int64}

lemma stable_access : Stable L3Operation.access := by
  intro op seq client number _ _ _ _ _
  simp only [L3Operation.access, SequenceId.client, client, number]

@[simp] lemma elapsed_access (op : L3Operation) : (elapsed clock op).access = op.access :=
  stable_access.elapsed op

@[simp] lemma arrived_access (op : L3Operation) : (arrived clock op).access = op.access :=
  stable_access.arrived op

lemma plaintext_writeBack (lossless : cfg.Lossless) (op : L3Operation) (cipher : String) :
    cfg.plaintext (writeBack cfg clock op cipher).cipher =
      (writeBack cfg clock op cipher).plaintext := by
  simp only [writeBack, L3Config.plaintext]
  split
  · next enabled => exact lossless enabled _
  · rfl

lemma writeBack_plaintext (op : L3Operation) (cipher : String) :
    (writeBack cfg clock op cipher).plaintext = op.access.outcome (cfg.plaintext cipher) := rfl

@[simp] lemma writeBack_access (op : L3Operation) (cipher : String) :
    (writeBack cfg clock op cipher).op.access = op.access := by
  simp [writeBack]

/-- What a label holds after writes: one of them, or what it held before. -/
lemma foldl_write {writes : List L3Write} {c : String}
    (found : writes.foldl (fun (kv : Kv) e => Function.update kv e.op.label (some e.cipher)) kv label =
      some c) :
    (∃ e ∈ writes, e.op.label = label ∧ e.cipher = c) ∨ kv label = some c := by
  induction writes generalizing kv with
  | nil => exact .inr found
  | cons e writes ih =>
    rcases ih found with ⟨e', mem, here⟩ | old
    · exact .inl ⟨e', List.mem_cons_of_mem e mem, here⟩
    · dsimp only at old
      rcases eq_or_ne label e.op.label with same | other
      · rw [same, Function.update_self, Option.some.injEq] at old
        exact .inl ⟨e, List.mem_cons_self, same.symm, old⟩
      · rw [Function.update_of_ne other] at old
        exact .inr old

lemma foldl_write_of_ne {writes : List L3Write} (none : ∀ e ∈ writes, e.op.label ≠ label) :
    writes.foldl (fun (kv : Kv) e => Function.update kv e.op.label (some e.cipher)) kv label =
      kv label := by
  induction writes generalizing kv with
  | nil => rfl
  | cons e writes ih =>
    rw [List.foldl_cons, ih fun x hx => none x (List.mem_cons_of_mem e hx),
      Function.update_of_ne (none e List.mem_cons_self).symm]

lemma mem_traffic_of_written {e : L3Write} (mem : e ∈ s.putReplies.flatten ++ s.msets.flatten) :
    e.op.access ∈ s.traffic coming := by
  refine List.mem_map.mpr ⟨e.op, ?_, rfl⟩
  simp only [pipe, List.mem_append, List.mem_map] at mem ⊢
  rcases mem with put | set
  · exact .inl (.inl (.inl (.inl (.inl (.inl ⟨e, put, rfl⟩)))))
  · exact .inl (.inl (.inl (.inl (.inl (.inr ⟨e, set, rfl⟩)))))

/-- Before an operation without a value was read, no other one had a value. -/
lemma Truthful.before (h : Truthful cfg initial label untouched kv s coming) {e : L3Write}
    (mem : e ∈ s.putReplies.flatten ++ s.msets.flatten) (here : e.op.label = label)
    (later : untouched ∨ ∃ a ∈ s.unread coming, a.label = label ∧ a.value = "") :
    e.op.value = "" := by
  rcases later with untouched | ⟨a, unread, label', empty⟩
  · exact h.quiet untouched _ (mem_traffic_of_written mem) here
  · by_contra value
    have split : s.traffic coming = ((s.putReplies.flatten ++ s.msets.flatten).map fun e =>
        e.op.access) ++ ((s.cryptoQueue.flatten.map Prod.fst ++ s.getReplies.flatten.map Prod.fst).map
          L3Operation.access ++ s.unread coming) := by
      simp [traffic, pipe, L3Worker.unread, Function.comp_def]
    have order := h.order
    rw [split, List.pairwise_append] at order
    exact order.2.2 _ (List.mem_map_of_mem mem) a (List.mem_append_right _ unread) here label' value
      empty

lemma Truthful.pass (h : Truthful cfg initial label untouched kv s coming)
    (traffic : (t.traffic coming).Sublist (s.traffic coming))
    (unread : ∀ a ∈ t.unread coming, a ∈ s.unread coming)
    (replied : ∀ e ∈ t.getReplies.flatten, e.1.label = label → e.1.value = "" →
      ∀ c ∈ e.2, cfg.plaintext c = initial)
    (read : ∀ e ∈ t.cryptoQueue.flatten, e.1.label = label → e.1.value = "" →
      cfg.plaintext e.2 = initial)
    (written : ∀ e ∈ t.putReplies.flatten ++ t.msets.flatten, e.op.label = label →
      e.plaintext = e.op.access.outcome initial ∧ cfg.plaintext e.cipher = e.plaintext) :
    Truthful cfg initial label untouched kv t coming where
  order := h.order.sublist traffic
  quiet free a mem := h.quiet free a (traffic.subset mem)
  stored free := h.stored (free.imp_right fun ⟨a, mem, here⟩ => ⟨a, unread a mem, here⟩)
  replied := replied
  read := read
  written := written

lemma traffic_of_pipe (same : (t.pipe.map L3Operation.access).Sublist (s.pipe.map L3Operation.access)) :
    (t.traffic coming).Sublist (s.traffic coming) := by
  simp only [traffic, List.map_append]
  exact same.append_right _

lemma accepted_traffic {op : L3Operation}
    (returned : (s.asyncOperation cfg clock op).status = .returned) (rest : List L3Operation) :
    let t := (s.asyncOperation cfg clock op).state
    t.traffic rest = s.traffic (op :: rest) ∧ t.unread rest = s.unread (op :: rest) ∧
      t.getReplies = s.getReplies ∧ t.cryptoQueue = s.cryptoQueue ∧
      t.putReplies = s.putReplies ∧ t.msets = s.msets := by
  have passed : (L3Proxy.asyncOperation clock s.filter op).status = .returned :=
    (asyncOperation_pipe stable_access op).2.2.2.1.symm.trans returned
  have joined := enqueue_flatten cfg.storageBatchSize s.getQueue (arrived clock op)
  have state : (s.asyncOperation cfg clock op).state =
      ({ s with filter := (L3Proxy.asyncOperation clock s.filter op).state } : L3Worker).asyncGet cfg
        (arrived clock op) := by
    unfold asyncOperation
    dsimp only
    rw [passed]
    rfl
  have unread : (s.asyncOperation cfg clock op).state.unread rest = s.unread (op :: rest) := by
    rw [state]
    simp only [L3Worker.unread, asyncGet, List.flatten_append, List.append_assoc]
    rw [← List.append_assoc (enqueue _ _ _).2.flatten, joined]
    simp
  refine ⟨?_, unread, ?_, ?_, ?_, ?_⟩
  · rw [state] at unread ⊢
    simp only [L3Worker.unread, List.map_append, List.append_assoc] at unread
    simp only [L3Worker.traffic, pipe, List.map_append, List.append_assoc, unread]
    rfl
  all_goals
    rw [state]
    rfl

section Steps
variable (h : Truthful cfg initial label untouched kv s coming)
include h

lemma Truthful.serveGet (taken : s.serveGet kv = some t) :
    Truthful cfg initial label untouched kv t coming := by
  have pipe := (serveGet_pipe taken).1
  unfold L3Worker.serveGet at taken
  split at taken
  · simp at taken
  · next ops rest popped =>
    obtain rfl := Option.some.inj taken
    refine h.pass (traffic_of_pipe (by rw [pipe])) (fun a mem => ?_) (fun e mem here empty c held => ?_)
      h.read h.written
    · simp only [unread, popped, List.flatten_cons, List.append_assoc, List.map_append,
        List.mem_append] at mem ⊢
      exact .inr mem
    · rw [List.flatten_append, List.mem_append] at mem
      rcases mem with old | new
      · exact h.replied e old here empty c held
      · obtain ⟨op, hop, rfl⟩ : ∃ op ∈ ops, (op, kv op.label) = e := by simpa using new
        refine h.stored (.inr ⟨op.access, ?_, here, empty⟩) c (here ▸ held)
        simp only [unread, popped, List.flatten_cons, List.append_assoc, List.map_append,
          List.mem_append]
        exact .inl (List.mem_map_of_mem hop)

lemma Truthful.servePut (taken : s.servePut kv = some (kv', t)) :
    Truthful cfg initial label untouched kv' t coming := by
  have pipe := (servePut_pipe taken).1
  unfold L3Worker.servePut at taken
  split at taken
  · simp at taken
  · next writes rest popped =>
    obtain ⟨rfl, rfl⟩ := Prod.mk.inj (Option.some.inj taken)
    refine ⟨h.order.sublist (traffic_of_pipe (by rw [pipe])), fun free a mem => ?_,
      fun free c held => ?_, h.replied, h.read, fun e mem => ?_⟩
    · exact h.quiet free a ((traffic_of_pipe (by rw [pipe])).subset mem)
    · rcases foldl_write held with ⟨e, mem, here, rfl⟩ | old
      · have inside : e ∈ s.putReplies.flatten ++ s.msets.flatten := by
          simp [popped, mem]
        obtain ⟨plain, cipher⟩ := h.written e inside here
        rw [cipher, plain, Access.outcome, show e.op.access.value = "" from h.before inside here free]
        rfl
      · exact h.stored free c old
    · refine h.written e ?_
      simp only [popped, List.flatten_append, List.flatten_cons, List.flatten_nil, List.append_nil,
        List.mem_append] at mem ⊢
      tauto

lemma Truthful.getCallback {o : Outcome L3Worker AckBatch} (taken : s.getCallback clock = some o) :
    Truthful cfg initial label untouched kv o.state coming := by
  have pipe := (getCallback_pipe stable_access taken).1
  have traffic : (o.state.traffic coming).Sublist (s.traffic coming) := by
    rcases pipe with ⟨-, same⟩ | ⟨-, part⟩
    · exact traffic_of_pipe (by rw [same])
    · exact traffic_of_pipe part
  unfold L3Worker.getCallback at taken
  split at taken
  · simp at taken
  · next reply rest popped =>
    have later : ∀ e ∈ rest.flatten, e ∈ s.getReplies.flatten := by
      intro e mem
      rw [popped, List.flatten_cons]
      exact List.mem_append_right _ mem
    split at taken
    · next batch read =>
      obtain rfl := Option.some.inj taken
      refine h.pass traffic (fun a mem => mem) (fun e mem => h.replied e (later e mem))
        (fun e mem here empty => ?_) h.written
      rw [Outcome.done_state, List.flatten_append, List.mem_append] at mem
      rcases mem with old | new
      · exact h.read e old here empty
      · rw [List.flatten_singleton] at new
        obtain ⟨⟨op, value⟩, mem, taken⟩ := exists_of_mem_mapM read new
        obtain ⟨c, rfl, rfl⟩ := Option.map_eq_some_iff.mp taken
        have same : (elapsed clock op).access = op.access := elapsed_access op
        refine h.replied (op, some c) ?_ ((congrArg Access.label same).symm.trans here)
          ((congrArg Access.value same).symm.trans empty) c rfl
        rw [popped, List.flatten_cons]
        exact List.mem_append_left _ mem
    · obtain rfl := Option.some.inj taken
      exact h.pass traffic (fun a mem => mem) (fun e mem => h.replied e (later e mem)) h.read h.written

lemma Truthful.cryptoRound (lossless : cfg.Lossless) (taken : s.cryptoRound cfg clock = some t) :
    Truthful cfg initial label untouched kv t coming := by
  have pipe := (cryptoRound_pipe stable_access taken).1
  unfold L3Worker.cryptoRound at taken
  split at taken
  · simp at taken
  · next batch rest popped =>
    obtain rfl := Option.some.inj taken
    refine h.pass (traffic_of_pipe (by rw [pipe])) (fun a mem => mem) h.replied
      (fun e mem => h.read e (by rw [popped, List.flatten_cons]; exact List.mem_append_right _ mem))
      (fun e mem here => ?_)
    rw [List.flatten_append, ← List.append_assoc, List.mem_append] at mem
    rcases mem with old | new
    · exact h.written e old here
    · rw [enqueueAll_flatten, List.nil_append, List.mem_map] at new
      obtain ⟨⟨op, cipher⟩, mem, rfl⟩ := new
      refine ⟨?_, plaintext_writeBack lossless op cipher⟩
      rw [writeBack_plaintext, writeBack_access]
      have label' : op.label = label :=
        (congrArg Access.label (@writeBack_access cfg clock op cipher)).symm.trans here
      rcases eq_or_ne op.value "" with empty | value
      · rw [h.read (op, cipher) (by rw [popped, List.flatten_cons]; exact List.mem_append_left _ mem)
          label' empty]
      · simp [Access.outcome, L3Operation.access, value]

lemma Truthful.putCallback {up : AckBatch → Bool} {o : Outcome L3Worker AckBatch}
    (taken : s.putCallback cfg clock up = some o) :
    Truthful cfg initial label untouched kv o.state coming := by
  unfold L3Worker.putCallback at taken
  split at taken
  · simp at taken
  · next writes rest popped =>
    obtain rfl := Option.some.inj taken
    obtain ⟨completed, rc, -, state⟩ :=
      @completeAll_state cfg clock up writes { s with putReplies := rest }
    rw [state]
    refine h.pass (traffic_of_pipe ?_) (fun a mem => mem) h.replied h.read fun e mem => h.written e ?_
    · simp only [pipe, popped, List.flatten_cons, List.map_append, List.append_assoc]
      exact List.sublist_append_right _ _
    · rw [popped, List.flatten_cons, List.append_assoc]
      exact List.mem_append_right _ mem

theorem Truthful.serve (lossless : cfg.Lossless) (taken : Serves cfg kv s kv' t) :
    Truthful cfg initial label untouched kv' t coming := by
  cases taken with
  | serveGet taken => exact h.serveGet taken
  | servePut taken => exact h.servePut taken
  | getReply taken => exact h.getCallback taken
  | crypto taken => exact h.cryptoRound lossless taken
  | putReply taken => exact h.putCallback taken
  | respond taken =>
    unfold L3Worker.respond at taken
    split at taken
    · simp at taken
    · obtain ⟨-, rfl⟩ := Prod.mk.inj (Option.some.inj taken)
      exact ⟨h.order, h.quiet, h.stored, h.replied, h.read, h.written⟩
  | connect => exact ⟨h.order, h.quiet, h.stored, h.replied, h.read, h.written⟩

lemma Truthful.accept {op : L3Operation} {rest : List L3Operation} (popped : coming = op :: rest)
    (returned : (s.asyncOperation cfg clock op).status = .returned) :
    Truthful cfg initial label untouched kv (s.asyncOperation cfg clock op).state rest := by
  obtain ⟨traffic, unread, replies, crypto, replied, sets⟩ := accepted_traffic returned rest
  rw [← popped] at traffic unread
  exact ⟨traffic ▸ h.order, traffic ▸ h.quiet, unread ▸ h.stored, replies ▸ h.replied,
    crypto ▸ h.read, by rw [replied, sets]; exact h.written⟩

lemma Truthful.acceptOther {op : L3Operation} (other : op.label ≠ label)
    (returned : (s.asyncOperation cfg clock op).status = .returned) :
    Truthful cfg initial label untouched kv (s.asyncOperation cfg clock op).state coming := by
  obtain ⟨traffic, unread, replies, crypto, replied, sets⟩ := accepted_traffic returned coming
  have inserted : ∀ a, a ∈ s.traffic (op :: coming) → a.label = label → a ∈ s.traffic coming := by
    intro a mem here
    simp only [L3Worker.traffic, List.map_append, List.map_cons, List.mem_append, List.mem_cons] at mem ⊢
    rcases mem with old | rfl | later
    · exact .inl old
    · exact absurd here other
    · exact .inr later
  refine ⟨?_, fun free a mem here => ?_, fun free => h.stored (free.imp_right ?_), replies ▸ h.replied,
    crypto ▸ h.read, by rw [replied, sets]; exact h.written⟩
  · have order := h.order
    rw [traffic]
    simp only [L3Worker.traffic, List.map_append, List.map_cons, List.pairwise_append,
      List.pairwise_cons, List.mem_cons] at order ⊢
    refine ⟨order.1, ⟨fun b _ here => absurd here other, order.2.1⟩, ?_⟩
    rintro a ha b (rfl | hb) here here'
    · exact absurd here' other
    · exact order.2.2 a ha b hb here here'
  · rw [traffic] at mem
    exact h.quiet free a (inserted a mem here) here
  · rintro ⟨a, mem, here, empty⟩
    rw [unread] at mem
    refine ⟨a, ?_, here, empty⟩
    simp only [L3Worker.unread, List.map_append, List.map_cons, List.mem_append, List.mem_cons] at mem ⊢
    rcases mem with old | rfl | later
    · exact .inl old
    · exact absurd here other
    · exact .inr later

lemma Truthful.touch (imp : untouched' → untouched) :
    Truthful cfg initial label untouched' kv s coming :=
  ⟨h.order, fun free => h.quiet (imp free), fun free => h.stored (free.imp_left imp), h.replied, h.read,
    h.written⟩

/-- An operation for the label is sent: with a value, or while there was none. -/
lemma Truthful.arrive {op : L3Operation} (imp : untouched' → untouched)
    (carries : op.label = label → op.value = "" → untouched)
    (empty : op.label = label → untouched' → op.value = "") :
    Truthful cfg initial label untouched' kv s (coming ++ [op]) := by
  have traffic : s.traffic (coming ++ [op]) = s.traffic coming ++ [op.access] := by
    simp [L3Worker.traffic]
  have unread : s.unread (coming ++ [op]) = s.unread coming ++ [op.access] := by
    simp [L3Worker.unread]
  refine ⟨?_, fun free a mem here => ?_, ?_, h.replied, h.read, h.written⟩
  · rw [traffic, List.pairwise_append]
    refine ⟨h.order, List.pairwise_singleton _ _, fun a ha b hb here here' value none => ?_⟩
    rw [List.mem_singleton.mp hb] at here' none
    exact value (h.quiet (carries here' none) a ha here)
  · rw [traffic, List.mem_append, List.mem_singleton] at mem
    rcases mem with old | rfl
    · exact h.quiet (imp free) a old here
    · exact empty here free
  · rw [unread]
    rintro (free | ⟨a, mem, here, none⟩)
    · exact h.stored (.inl (imp free))
    · rcases List.mem_append.mp mem with old | new
      · exact h.stored (.inr ⟨a, old, here, none⟩)
      · rw [List.mem_singleton.mp new] at here none
        exact h.stored (.inl (carries here none))

lemma Truthful.congr_kv (same : kv' label = kv label) :
    Truthful cfg initial label untouched kv' s coming :=
  ⟨h.order, h.quiet, by rw [same]; exact h.stored, h.replied, h.read, h.written⟩

end Steps

lemma Serves.kv_eq (taken : Serves cfg kv s kv' t) (none : ∀ a ∈ s.traffic [], a.label ≠ label) :
    kv' label = kv label := by
  cases taken with
  | servePut taken =>
    unfold L3Worker.servePut at taken
    split at taken
    · simp at taken
    · next writes rest popped =>
      obtain ⟨rfl, rfl⟩ := Prod.mk.inj (Option.some.inj taken)
      refine foldl_write_of_ne fun e mem => ?_
      exact none e.op.access (mem_traffic_of_written (by simp [popped, mem]))
  | _ => rfl

lemma Serves.traffic (taken : Serves cfg kv s kv' t) :
    (t.traffic coming).Sublist (s.traffic coming) := by
  refine traffic_of_pipe ?_
  cases taken with
  | serveGet taken => rw [(serveGet_pipe taken).1]
  | servePut taken => rw [(servePut_pipe taken).1]
  | getReply taken =>
    rcases (getCallback_pipe stable_access taken).1 with ⟨-, same⟩ | ⟨-, part⟩
    · rw [same]
    · exact part
  | crypto taken => rw [(cryptoRound_pipe stable_access taken).1]
  | putReply taken =>
    unfold L3Worker.putCallback at taken
    split at taken
    · simp at taken
    · next writes rest popped =>
      obtain rfl := Option.some.inj taken
      obtain ⟨completed, rc, -, state⟩ :=
        @completeAll_state cfg _ _ writes { s with putReplies := rest }
      rw [state]
      simp only [pipe, popped, List.flatten_cons, List.map_append, List.append_assoc]
      exact List.sublist_append_right _ _
  | respond taken =>
    unfold L3Worker.respond at taken
    split at taken
    · simp at taken
    · obtain ⟨-, rfl⟩ := Prod.mk.inj (Option.some.inj taken)
      exact .refl _
  | connect => exact .refl _

lemma Truthful.told (h : Truthful cfg initial label untouched kv s coming) {e : L3Write}
    (mem : e ∈ s.putReplies.flatten) (here : e.op.label = label) :
    (response clock e).told = e.op.access.answer initial := by
  obtain ⟨plain, -⟩ := h.written e (List.mem_append_left _ mem) here
  have client : (elapsed clock e.op).seqId.client = e.op.access.client :=
    congrArg Access.client (@elapsed_access clock e.op)
  simp only [ClientResponse.told, response, client, Access.answer, plain]
  have kind : e.op.access.isRead = e.op.isRead := rfl
  rw [kind]
  cases e.op.isRead <;> rfl

lemma respond_popped {r : ClientResponse} (taken : s.respond cfg = some (r, t)) :
    ∃ r' ∈ s.respondQueue, r.seqId = r'.seqId ∧ r.opCode = r'.opCode ∧
      r.result = if cfg.respDelivery then r'.result else "" := by
  unfold L3Worker.respond at taken
  split at taken
  · simp at taken
  · next r' rest popped =>
    obtain ⟨rfl, -⟩ := Prod.mk.inj (Option.some.inj taken)
    refine ⟨r', by simp [popped], ?_⟩
    cases cfg.respDelivery <;> exact ⟨rfl, rfl, rfl⟩

lemma Serves.responses (taken : Serves cfg kv s kv' t) : ∀ r ∈ t.respondQueue, r ∈ s.respondQueue ∨
    ∃ e ∈ s.putReplies.flatten, e.op.seqId.clientId ≠ fakeClientId ∧ ∃ clock, r = response clock e := by
  intro r mem
  cases taken with
  | serveGet taken => exact .inl ((serveGet_pipe taken).2.1 ▸ mem)
  | servePut taken => exact .inl ((servePut_pipe taken).2.1 ▸ mem)
  | getReply taken => exact .inl ((getCallback_pipe stable_access taken).2.2.1 ▸ mem)
  | crypto taken => exact .inl ((cryptoRound_pipe stable_access taken).2.1 ▸ mem)
  | @putReply clock up o taken =>
    unfold L3Worker.putCallback at taken
    split at taken
    · simp at taken
    · next writes rest popped =>
      obtain rfl := Option.some.inj taken
      obtain ⟨completed, rc, part, state⟩ :=
        @completeAll_state cfg clock up writes { s with putReplies := rest }
      rw [state, List.mem_append] at mem
      rcases mem with old | new
      · exact .inl old
      · obtain ⟨e, he, rfl⟩ := List.mem_map.mp new
        obtain ⟨inside, real⟩ := List.mem_filter.mp he
        refine .inr ⟨e, ?_, of_decide_eq_true real, clock, rfl⟩
        rw [popped, List.flatten_cons]
        exact List.mem_append_left _ (part.subset inside)
  | respond taken =>
    unfold L3Worker.respond at taken
    split at taken
    · simp at taken
    · next r' rest popped =>
      obtain ⟨-, rfl⟩ := Prod.mk.inj (Option.some.inj taken)
      rw [popped]
      exact .inl (List.mem_cons_of_mem r' mem)
  | connect => exact .inl mem

end L3Worker
end Shortstack
