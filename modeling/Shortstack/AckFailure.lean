import Shortstack.L2ProxySpec

/-! A list of acknowledgements at an L2 replica when `send_ack` refuses one of them. The
replica takes the entry of an acknowledgement out of `pending_` before it passes the
acknowledgement on, and an exception ends the loop over the list. -/
namespace Shortstack

namespace ReverseConnector

/-- `recompute_client_array` makes one queue for each client. -/
def Matched (rc : ReverseConnector) : Prop := rc.ackQueues.length = rc.clientArr.length

/-- There is no open connection for the worker. -/
def refuses (rc : ReverseConnector) (id : ℤ) : Bool :=
  !decide (0 ≤ id ∧ id < rc.clientArr.length) || (rc.clientArr.getD id.toNat none).isNone

/-- Acknowledgements that wait for their batch to fill. -/
def waiting (rc : ReverseConnector) : ℕ := (rc.ackQueues.map List.length).sum

lemma waiting_set (rc : ReverseConnector) {i : ℕ} (inside : i < rc.ackQueues.length)
    (queue : List SequenceId) :
    ({ rc with ackQueues := rc.ackQueues.set i queue } : ReverseConnector).waiting +
      (rc.ackQueues.getD i []).length = rc.waiting + queue.length := by
  unfold waiting
  dsimp only
  generalize rc.ackQueues = queues at inside
  induction queues generalizing i with
  | nil => simp at inside
  | cons x queues ih =>
    cases i with
    | zero =>
      simp only [List.set_cons_zero, List.map_cons, List.sum_cons, List.getD_cons_zero]
      omega
    | succ i =>
      have rest := ih (by simpa using inside)
      simp only [List.set_cons_succ, List.map_cons, List.sum_cons, List.getD_cons_succ]
      omega

variable {up : AckBatch → Bool} {rc : ReverseConnector} {id : ℤ}

lemma sendAck_refused (no : rc.refuses id = true) (seq : SequenceId) :
    ∃ e, rc.sendAck up id seq = .raise rc e := by
  unfold refuses at no
  unfold sendAck
  split
  · next inside =>
    simp only [inside, and_self, decide_true, Bool.not_true, Bool.false_or,
      Option.isNone_iff_eq_none] at no
    rw [no]
    exact ⟨_, rfl⟩
  · exact ⟨_, rfl⟩

/-- What is handed over by a batch. -/
def batched (sent : List AckBatch) : ℕ := (sent.map fun b => b.seqs.length).sum

lemma batched_append (a b : List AckBatch) : batched (a ++ b) = batched a + batched b := by
  simp [batched]

lemma sendAck_accepted (works : ∀ b, up b = true) (yes : rc.refuses id = false)
    (matched : rc.Matched) (seq : SequenceId) :
    (rc.sendAck up id seq).status = .returned ∧
      (rc.sendAck up id seq).state.clients = rc.clients ∧ (rc.sendAck up id seq).state.Matched ∧
      (rc.sendAck up id seq).state.waiting + batched (rc.sendAck up id seq).sent =
        rc.waiting + 1 := by
  unfold refuses at yes
  rw [Bool.or_eq_false_iff, Bool.not_eq_false', decide_eq_true_eq] at yes
  obtain ⟨inside, client⟩ := yes
  obtain ⟨row, open'⟩ : ∃ row, rc.clientArr.getD id.toNat none = some row := by
    cases found : rc.clientArr.getD id.toNat none with
    | none =>
      rw [found] at client
      simp at client
    | some row => exact ⟨row, rfl⟩
  have index : id.toNat < rc.ackQueues.length := by
    rw [matched]
    omega
  unfold sendAck
  rw [if_pos inside, open']
  dsimp only
  split
  · have emptied := rc.waiting_set index []
    unfold Outcome.send
    rw [if_pos (works _)]
    refine ⟨rfl, rfl, by simpa [Matched, clientArr] using matched, ?_⟩
    simp only [batched, List.map_cons, List.map_nil, List.sum_cons, List.sum_nil,
      List.length_append, List.length_singleton]
    rw [List.length_nil] at emptied
    omega
  · have grown := rc.waiting_set index (rc.ackQueues.getD id.toNat [] ++ [seq])
    refine ⟨rfl, rfl, by simpa [Matched, clientArr] using matched, ?_⟩
    rw [List.length_append, List.length_singleton] at grown
    simp only [Outcome.done_state, Outcome.done_sent, batched, List.map_nil, List.sum_nil]
    omega

end ReverseConnector

namespace L2Proxy
open ChainModule ReverseConnector
variable {cfg : L2Config} {env : Env L2Effect} {m : ChainModule L2State}

/-- `ack_callback` raises: at a head, without a connection to the L1 worker. -/
def refused (m : ChainModule L2State) (q : SequenceId) : Bool :=
  m.isHead && match m.user.ackIface with
    | none => true
    | some rc => rc.refuses q.l1Idx

/-- The effect of one acknowledgement on its own; a refused one has none. -/
def ackAlone (cfg : L2Config) (env : Env L2Effect) (m : ChainModule L2State) (q : SequenceId) :
    ChainModule L2State × List (Send L2Effect) :=
  if refused m q then (m, [])
  else ((m.ack (callbacks cfg) env q).state, (m.ack (callbacks cfg) env q).sent)

/-- Every acknowledgement of a list has the effect it has on its own. -/
def ackEach (cfg : L2Config) (env : Env L2Effect) :
    List SequenceId → ChainModule L2State → ChainModule L2State × List (Send L2Effect)
  | [], m => (m, [])
  | q :: seqs, m =>
    ((ackEach cfg env seqs (ackAlone cfg env m q).1).1,
      (ackAlone cfg env m q).2 ++ (ackEach cfg env seqs (ackAlone cfg env m q).1).2)

/-- The refused acknowledgement is not pending, or was acknowledged before in the list, and
all after it are refused too. -/
def SparesOthers (m : ChainModule L2State) (seqs : List SequenceId) : Prop :=
  ∀ before q after, seqs = before ++ q :: after → (∀ x ∈ before, refused m x = false) →
    refused m q = true →
    (q.serverSeqNo ∉ m.pending ∨ ∃ x ∈ before, x.serverSeqNo = q.serverSeqNo) ∧
      ∀ x ∈ after, refused m x = true

/-- Acknowledgements on their way to the L1 tier, waiting or sent. -/
def toL1 (m : ChainModule L2State) (sent : List (Send L2Effect)) : ℕ :=
  (match m.user.ackIface with
    | none => 0
    | some rc => rc.waiting) +
  batched ((outsOf sent).filterMap fun | .ackL1 b => some b | _ => none)

/-- The connector of a replica has one queue for each client. -/
def Wired (m : ChainModule L2State) : Prop := ∀ rc ∈ m.user.ackIface, rc.Matched

lemma ack_of_head (head : m.isHead = true) (q : SequenceId) :
    m.ack (callbacks cfg) env q =
      ChainModule.call { m with pending := m.removePending q } (ackCallback env m.role m.user q) := by
  unfold ChainModule.ack
  dsimp only
  show Outcome.andThen (ChainModule.call { m with pending := m.removePending q }
    (ackCallback env m.role m.user q)) _ = _
  generalize ackCallback env m.role m.user q = o
  obtain ⟨u, sent, _ | _ | e⟩ := o
  · have still : (ChainModule.withUser { m with pending := m.removePending q } u).isHead = true :=
      head
    simp [Outcome.andThen, ChainModule.call, Outcome.embed, still]
  · rfl
  · rfl

lemma ack_of_inner (inner : m.isHead = false) (q : SequenceId) :
    m.ack (callbacks cfg) env q =
      ChainModule.pushAck env { m with pending := m.removePending q } q := by
  have callback : (callbacks cfg).ackCallback env m.role m.user q = .done m.user := by
    show ackCallback env m.role m.user q = .done m.user
    unfold ackCallback
    rw [show m.role.isHead = false from inner, if_neg Bool.false_ne_true]
  unfold ChainModule.ack
  dsimp only
  rw [callback, show ChainModule.call { m with pending := m.removePending q }
    (.done m.user : Outcome L2State L2Effect) = .done { m with pending := m.removePending q } from
    rfl, Outcome.done_andThen]
  rw [if_neg]
  rw [show ChainModule.isHead { m with pending := m.removePending q } = false from inner]
  simp

lemma ack_refused {q : SequenceId} (no : refused m q = true) :
    ∃ e, m.ack (callbacks cfg) env q = .raise { m with pending := m.removePending q } e := by
  unfold refused at no
  rw [Bool.and_eq_true] at no
  obtain ⟨head, no⟩ := no
  rw [ack_of_head head]
  unfold ackCallback
  rw [if_pos (show m.role.isHead = true from head)]
  cases iface : m.user.ackIface with
  | none => exact ⟨_, rfl⟩
  | some rc =>
    rw [iface] at no
    obtain ⟨e, raised⟩ := sendAck_refused no q
    refine ⟨e, ?_⟩
    dsimp only
    rw [raised]
    simp [Outcome.raise, Outcome.embed, ChainModule.call, ChainModule.withUser, ← iface]

/-- The replica after an acknowledgement that is not refused. -/
structure Acked (m m' : ChainModule L2State) (q : SequenceId) : Prop where
  pending : m'.pending = m.removePending q
  wired : Wired m'
  head : m'.isHead = m.isHead
  refused : ∀ x, refused m' x = refused m x

lemma ack_inner (works : ∀ message, env.up message = true) (wired : Wired m)
    (inner : m.isHead = false) (q : SequenceId) :
    (m.ack (callbacks cfg) env q).status = .returned ∧
      Acked m (m.ack (callbacks cfg) env q).state q := by
  rw [ack_of_inner inner]
  unfold ChainModule.pushAck
  dsimp only
  split
  · unfold Outcome.send
    rw [if_pos (works _)]
    exact ⟨rfl, rfl, wired, rfl, fun _ => rfl⟩
  · exact ⟨rfl, rfl, wired, rfl, fun _ => rfl⟩

lemma ack_head (works : ∀ message, env.up message = true) (wired : Wired m)
    (head : m.isHead = true) {q : SequenceId} (yes : refused m q = false) :
    (m.ack (callbacks cfg) env q).status = .returned ∧
      Acked m (m.ack (callbacks cfg) env q).state q ∧
      ∀ sent, toL1 (m.ack (callbacks cfg) env q).state
        (sent ++ (m.ack (callbacks cfg) env q).sent) = toL1 m sent + 1 := by
  have accepts := yes
  unfold refused at accepts
  rw [head, Bool.true_and] at accepts
  rw [ack_of_head head]
  unfold ackCallback
  rw [if_pos (show m.role.isHead = true from head)]
  cases iface : m.user.ackIface with
  | none => simp [iface] at accepts
  | some rc =>
    rw [iface] at accepts
    have open' : ∀ b, (fun b => env.out (.ackL1 b)) b = true := fun b => works (.out (.ackL1 b))
    obtain ⟨returned, clients, matched, count⟩ :=
      sendAck_accepted open' accepts (wired rc iface) q
    dsimp only at returned clients matched count ⊢
    refine ⟨returned, ⟨rfl, ?_, rfl, ?_⟩, ?_⟩
    · rintro rc' same
      obtain rfl := Option.some.inj same
      exact matched
    · intro x
      unfold refused refuses clientArr
      rw [iface]
      simp only [call_state, withUser_isHead, withUser_user, Outcome.embed_state]
      rw [show rc.clients = _ from clients.symm]
      rfl
    · intro sent
      unfold toL1
      rw [iface]
      simp only [call_state, call_sent, Outcome.embed_state, Outcome.embed_sent, withUser_user,
        outsOf_append, outsOf_out, List.filterMap_append]
      have acks : ∀ bs : List AckBatch, ((bs.map L2Effect.ackL1).filterMap
          fun | .ackL1 b => some b | _ => none) = bs := by
        intro bs
        induction bs with
        | nil => rfl
        | cons b bs ih => simp
      rw [acks, batched_append]
      omega

lemma ackEach_toL1 (works : ∀ message, env.up message = true) (wired : Wired m)
    (head : m.isHead = true) (seqs : List SequenceId) (sent : List (Send L2Effect)) :
    toL1 (ackEach cfg env seqs m).1 (sent ++ (ackEach cfg env seqs m).2) =
      toL1 m sent + seqs.countP fun q => !refused m q := by
  induction seqs generalizing m sent with
  | nil => simp [ackEach]
  | cons q seqs ih =>
    unfold ackEach ackAlone
    cases no : refused m q with
    | true =>
      simp only [if_true, List.nil_append]
      rw [ih wired head, List.countP_cons_of_neg (by simp [no])]
    | false =>
      obtain ⟨-, acked, count⟩ := @ack_head cfg _ _ works wired head _ no
      simp only [Bool.false_eq_true, if_false]
      rw [← List.append_assoc, ih acked.wired (acked.head.trans head), count,
        List.countP_cons_of_pos (by simp [no])]
      simp only [acked.refused]
      omega

lemma ackEach_refused {seqs : List SequenceId} (no : ∀ x ∈ seqs, refused m x = true) :
    ackEach cfg env seqs m = (m, []) := by
  induction seqs with
  | nil => rfl
  | cons q seqs ih =>
    unfold ackEach ackAlone
    rw [if_pos (no q List.mem_cons_self), ih fun x mem => no x (List.mem_cons_of_mem _ mem)]
    rfl

lemma sparesOthers_accepted {m' : ChainModule L2State} {q : SequenceId} (acked : Acked m m' q)
    (yes : refused m q = false) (seqs : List SequenceId) :
    SparesOthers m (q :: seqs) ↔ SparesOthers m' seqs := by
  have pending : ∀ n, n ∉ m'.pending ↔ n ∉ m.pending ∨ q.serverSeqNo = n := by
    intro n
    rw [acked.pending, removePending, AList.mem_erase]
    tauto
  constructor
  · intro h before x after split fine no
    have := h (q :: before) x after (by rw [split]; rfl) ?_ (by rw [← acked.refused]; exact no)
    · simp only [List.mem_cons, exists_eq_or_imp] at this
      rw [pending]
      refine ⟨by tauto, fun y mem => ?_⟩
      rw [acked.refused]
      exact this.2 y mem
    · intro y mem
      rcases List.mem_cons.mp mem with rfl | mem
      · exact yes
      · rw [← acked.refused]
        exact fine y mem
  · intro h before x after split fine no
    cases before with
    | nil =>
      obtain ⟨rfl, -⟩ := List.cons.inj split
      rw [yes] at no
      simp at no
    | cons y before =>
      obtain ⟨rfl, tail⟩ := List.cons.inj split
      have := h before x after tail
        (fun z mem => by rw [acked.refused]; exact fine z (List.mem_cons_of_mem _ mem))
        (by rw [acked.refused]; exact no)
      rw [pending] at this
      simp only [List.mem_cons, exists_eq_or_imp]
      refine ⟨by tauto, fun z mem => ?_⟩
      rw [← acked.refused]
      exact this.2 z mem

lemma sparesOthers_refused {q : SequenceId} (no : refused m q = true) (seqs : List SequenceId) :
    SparesOthers m (q :: seqs) ↔ q.serverSeqNo ∉ m.pending ∧ ∀ x ∈ seqs, refused m x = true := by
  constructor
  · intro h
    simpa using h [] q seqs rfl (by simp) no
  · rintro ⟨absent, rest⟩ before x after split fine _
    cases before with
    | nil =>
      obtain ⟨rfl, rfl⟩ := List.cons.inj split
      exact ⟨.inl absent, rest⟩
    | cons y before =>
      obtain ⟨rfl, -⟩ := List.cons.inj split
      have := fine q List.mem_cons_self
      rw [no] at this
      simp at this

lemma removePending_eq_iff (q : SequenceId) :
    m.removePending q = m.pending ↔ q.serverSeqNo ∉ m.pending := by
  constructor
  · intro same mem
    rw [← same, removePending, AList.mem_erase] at mem
    exact mem.1 rfl
  · intro absent
    refine AList.ext ?_
    exact List.kerase_of_notMem_keys fun mem => absent (AList.mem_keys.mpr mem)

lemma ackBatch_isolates_iff (works : ∀ message, env.up message = true) (wired : Wired m)
    (seqs : List SequenceId) :
    ((m.ackBatch (callbacks cfg) env seqs).state, (m.ackBatch (callbacks cfg) env seqs).sent) =
      ackEach cfg env seqs m ↔ SparesOthers m seqs := by
  unfold ChainModule.ackBatch
  induction seqs generalizing m with
  | nil => simp [Outcome.forEach, ackEach, SparesOthers]
  | cons q seqs ih =>
    unfold Outcome.forEach
    cases no : refused m q with
    | false =>
      have accepted : (m.ack (callbacks cfg) env q).status = .returned ∧
          Acked m (m.ack (callbacks cfg) env q).state q := by
        cases head : m.isHead with
        | true => exact ⟨(ack_head works wired head no).1, (ack_head works wired head no).2.1⟩
        | false => exact ack_inner works wired head q
      obtain ⟨returned, acked⟩ := accepted
      have each : ackEach cfg env (q :: seqs) m =
          ((ackEach cfg env seqs (m.ack (callbacks cfg) env q).state).1,
            (m.ack (callbacks cfg) env q).sent ++
              (ackEach cfg env seqs (m.ack (callbacks cfg) env q).state).2) := by
        rw [ackEach, ackAlone, no]
        rfl
      rw [sparesOthers_accepted acked no, ← ih acked.wired, each]
      unfold Outcome.andThen
      rw [returned, Prod.mk.injEq, Prod.ext_iff, List.append_cancel_left_eq]
    | true =>
      obtain ⟨e, raised⟩ := @ack_refused cfg env m q no
      have head : m.isHead = true := by
        unfold refused at no
        exact (Bool.and_eq_true_iff.mp no).1
      rw [sparesOthers_refused no, raised]
      unfold ackEach ackAlone
      rw [if_pos no]
      show (({ m with pending := m.removePending q } : ChainModule L2State), []) =
        ((ackEach cfg env seqs m).1, [] ++ (ackEach cfg env seqs m).2) ↔ _
      constructor
      · intro same
        obtain ⟨state, sent⟩ := Prod.mk.inj same
        have count := @ackEach_toL1 cfg env m works wired head seqs []
        rw [← state, ← sent] at count
        have none : seqs.countP (fun x => !refused m x) = 0 := by
          change toL1 m [] = _ at count
          omega
        have rest : ∀ x ∈ seqs, refused m x = true := by
          intro x mem
          simpa using List.countP_eq_zero.mp none x mem
        rw [ackEach_refused rest] at state
        exact ⟨(removePending_eq_iff q).mp (congrArg ChainModule.pending state), rest⟩
      · rintro ⟨absent, rest⟩
        rw [ackEach_refused rest, (removePending_eq_iff q).mpr absent]
        rfl

/-- An acknowledgement of the L3 tier, as the chain gets it. -/
def externalSeq (q : SequenceId) : SequenceId := { q with serverSeqNo := q.l2SeqNo }

/-- Lists of acknowledgements from the chain and from the L3 tier: a refused one costs nothing
but itself exactly when it is not pending and no accepted one comes after it. -/
theorem failing_ack_isolated_iff (works : ∀ message, env.up message = true) (wired : Wired m)
    (seqs : List SequenceId) :
    (((m.ackBatch (callbacks cfg) env seqs).state, (m.ackBatch (callbacks cfg) env seqs).sent) =
      ackEach cfg env seqs m ↔ SparesOthers m seqs) ∧
    (((externalAckBatch cfg env m seqs).state, (externalAckBatch cfg env m seqs).sent) =
      ackEach cfg env (seqs.map externalSeq) m ↔ SparesOthers m (seqs.map externalSeq)) :=
  ⟨ackBatch_isolates_iff works wired seqs, ackBatch_isolates_iff works wired (seqs.map externalSeq)⟩

def bareConfig : L2Config := ⟨0, "dummy", ∅, ∅, false, 1, [1, 1], []⟩

def openEnv : Env L2Effect := ⟨true, true, fun _ => true, none⟩

/-- A single replica that is connected to the second of two L1 workers only. -/
def halfWired : ChainModule L2State where
  pending := (AList.singleton 1 ⟨{ serverSeqNo := 1 }, []⟩).insert 2 ⟨{ serverSeqNo := 2 }, []⟩
  user := ⟨[], none, some ⟨[[none], [some 0]], [[], []], 1⟩⟩

lemma wired_halfWired : Wired halfWired := by
  intro rc same
  obtain rfl := Option.some.inj same
  rfl

lemma openEnv_up (message : Send L2Effect) : openEnv.up message = true := by
  cases message <;> rfl

/-- An acknowledgement that is accepted, and one that is refused and not pending. -/
def refusedLast : List SequenceId := [{ serverSeqNo := 2, l1Idx := 1 }, { serverSeqNo := 9 }]

lemma refusedLast_spares : SparesOthers halfWired refusedLast := by
  intro before q after split fine no
  cases before with
  | nil =>
    obtain ⟨rfl, rfl⟩ := List.cons.inj split
    exact absurd no (by decide)
  | cons x before =>
    obtain ⟨rfl, rest⟩ := List.cons.inj split
    cases before with
    | nil =>
      obtain ⟨rfl, rfl⟩ := List.cons.inj rest
      exact ⟨.inl (by decide), by simp⟩
    | cons y before =>
      obtain ⟨-, none⟩ := List.cons.inj rest
      simp at none

/-- The refused one does no harm at the end of the list. -/
theorem failing_ack_isolated_iff_last :
    (halfWired.ackBatch (callbacks bareConfig) openEnv refusedLast).status =
      .raised "connection to id uninitialized" ∧
    ((halfWired.ackBatch (callbacks bareConfig) openEnv refusedLast).state,
      (halfWired.ackBatch (callbacks bareConfig) openEnv refusedLast).sent) =
      ackEach bareConfig openEnv refusedLast halfWired :=
  ⟨by decide, (failing_ack_isolated_iff openEnv_up wired_halfWired refusedLast).1.mpr
    refusedLast_spares⟩

/-- The first acknowledgement is refused and its entry is gone; the second, which is accepted on
its own, is not processed. -/
theorem failing_ack_takes_entry :
    let o := halfWired.ackBatch (callbacks bareConfig) openEnv
      [{ serverSeqNo := 1, l1Idx := 0 }, { serverSeqNo := 2, l1Idx := 1 }]
    o.status = .raised "connection to id uninitialized" ∧ 1 ∉ o.state.pending ∧
      2 ∈ o.state.pending ∧ o.sent = [] ∧
      o.sent ≠ (ackEach bareConfig openEnv [{ serverSeqNo := 1, l1Idx := 0 },
        { serverSeqNo := 2, l1Idx := 1 }] halfWired).2 ∧
      2 ∉ (halfWired.ack (callbacks bareConfig) openEnv
        { serverSeqNo := 2, l1Idx := 1 }).state.pending ∧
      (halfWired.ack (callbacks bareConfig) openEnv { serverSeqNo := 2, l1Idx := 1 }).sent =
        [.out (.ackL1 ⟨1, 0, [{ serverSeqNo := 2, l1Idx := 1 }]⟩)] := by
  decide

end L2Proxy
end Shortstack
