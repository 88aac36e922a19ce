import Shortstack.IngestTickets
import Shortstack.PipelineFlow
import Shortstack.StorageSpec

/-! Where the operations an L2 tail has forwarded are: on a link to the L3 tier, at an L3 worker,
or answered. Operations that wait for or at a crashed L3 worker are lost. -/
namespace Shortstack
open ChainModule Transition Tokens

namespace L3Worker
variable {cfg : L3Config} {clock : Option Int64} {s t : L3Worker}

/-- Operations on their way through a worker, and answers it has not sent yet. -/
def held (s : L3Worker) : List Origin :=
  s.pipe.map (fun op => op.seqId.origin) ++ s.respondQueue.map fun r => r.seqId.origin

lemma stable_origin : Stable fun op : L3Operation => op.seqId.origin := by
  intro op seq client number _ _ _ idx seqNo
  simp only [SequenceId.origin, client, number, idx, seqNo]

/-- What a worker holds after a step, with what has left it as an answer. -/
structure Passes (s t : L3Worker) (out : List ClientResponse) : Prop where
  held : ∀ q : Origin → Bool, t.held.countP q + (out.map fun r => r.seqId.origin).countP q ≤
    s.held.countP q
  real : (∀ r ∈ s.respondQueue, r.seqId.clientId ≠ fakeClientId) →
    ∀ r ∈ t.respondQueue ++ out, r.seqId.clientId ≠ fakeClientId

lemma Passes.of_pipe
    (pipe : (t.pipe.map fun op => op.seqId.origin).Sublist (s.pipe.map fun op => op.seqId.origin))
    (queue : t.respondQueue = s.respondQueue) : Passes s t [] := by
  refine ⟨fun q => ?_, fun real r hr => real r (by simpa [queue] using hr)⟩
  have fewer := pipe.countP_le (p := q)
  simp only [L3Worker.held, queue, List.countP_append, List.map_nil, List.countP_nil, add_zero]
  omega

lemma serveGet_passes {kv : Kv} (taken : s.serveGet kv = some t) : Passes s t [] := by
  obtain ⟨pipe, queue, -⟩ := serveGet_pipe taken
  exact .of_pipe (by rw [pipe]) queue

lemma servePut_passes {kv kv' : Kv} (taken : s.servePut kv = some (kv', t)) : Passes s t [] := by
  obtain ⟨pipe, queue, -⟩ := servePut_pipe taken
  exact .of_pipe (by rw [pipe]) queue

lemma getCallback_passes {o : Outcome L3Worker AckBatch} (taken : s.getCallback clock = some o) :
    Passes s o.state [] := by
  obtain ⟨⟨-, same⟩ | ⟨-, part⟩, -, queue, -⟩ := getCallback_pipe stable_origin taken
  · exact .of_pipe (by rw [same]) queue
  · exact .of_pipe part queue

lemma cryptoRound_passes (taken : s.cryptoRound cfg clock = some t) : Passes s t [] := by
  obtain ⟨pipe, queue, -⟩ := cryptoRound_pipe stable_origin taken
  exact .of_pipe (by rw [pipe]) queue

lemma answers_origin (writes : List L3Write) :
    ((answers clock writes).map fun r => r.seqId.origin).Sublist
        (writes.map fun e => e.op.seqId.origin) ∧
      ∀ r ∈ answers clock writes, r.seqId.clientId ≠ fakeClientId := by
  have origin : ∀ e : L3Write, (response clock e).seqId.origin = e.op.seqId.origin :=
    fun e => @Stable.elapsed _ _ clock stable_origin e.op
  constructor
  · rw [answers, List.map_map, show (fun r : ClientResponse => r.seqId.origin) ∘ response clock =
      fun e => e.op.seqId.origin from funext origin]
    exact List.filter_sublist.map _
  · intro r mem
    obtain ⟨e, real, rfl⟩ := List.mem_map.mp mem
    have client := congrArg Origin.clientId (origin e)
    exact fun fake => of_decide_eq_true (List.mem_filter.mp real).2 (client.symm.trans fake)

lemma putCallback_passes {up : AckBatch → Bool} {o : Outcome L3Worker AckBatch}
    (taken : s.putCallback cfg clock up = some o) : Passes s o.state [] := by
  unfold putCallback at taken
  split at taken
  · simp at taken
  · next writes rest popped =>
    rw [← Option.some.inj taken]
    obtain ⟨completed, rc, part, state⟩ :=
      @completeAll_state cfg clock up writes { s with putReplies := rest }
    obtain ⟨once, answered⟩ := @answers_origin clock completed
    rw [state]
    refine ⟨fun q => ?_, fun real r hr => ?_⟩
    · have fewer := (once.trans (part.sublist.map _)).countP_le (p := q)
      simp only [L3Worker.held, L3Worker.pipe, popped, List.flatten_cons, List.map_append,
        List.countP_append, List.map_map, Function.comp_def, List.map_nil, List.countP_nil] at fewer ⊢
      omega
    · rw [List.append_nil] at hr
      exact (List.mem_append.mp hr).elim (real r) (answered r)

lemma respond_passes {r : ClientResponse × L3Worker} (taken : s.respond cfg = some r) :
    Passes s r.2 [r.1] := by
  unfold respond at taken
  split at taken
  · simp at taken
  · next x rest popped =>
    rw [← Option.some.inj taken]
    have seqId : (if cfg.respDelivery then x else { x with result := "" }).seqId = x.seqId := by
      split <;> rfl
    refine ⟨fun q => ?_, fun real r hr => ?_⟩
    · simp only [L3Worker.held, L3Worker.pipe, popped, List.map_cons, List.countP_append,
        List.countP_cons, seqId, List.map_nil, List.countP_nil]
      omega
    · rcases List.mem_append.mp hr with old | new
      · exact real r (by rw [popped]; exact List.mem_cons_of_mem x old)
      · rw [List.mem_singleton.mp new, seqId]
        exact real x (by simp [popped])

lemma asyncOperation_held (op : L3Operation) :
    (∀ q : Origin → Bool, (s.asyncOperation cfg clock op).state.held.countP q ≤
      s.held.countP q + [op.seqId.origin].countP q) ∧
    (s.asyncOperation cfg clock op).state.respondQueue = s.respondQueue ∧
    (s.asyncOperation cfg clock op).sent = [] := by
  obtain ⟨moved, sent, -, -, queue, -⟩ := @asyncOperation_pipe cfg _ _ clock s stable_origin op
  refine ⟨fun q => ?_, queue, sent⟩
  rcases moved with ⟨-, joined⟩ | ⟨-, same⟩
  · simp only [held, joined, queue, List.countP_append]
    omega
  · simp only [held, same, queue]
    omega

end L3Worker

namespace Pipeline

inductive OriginPlace
  | link (x : L2Target) (y : ℕ × ℕ)
  | worker (y : ℕ × ℕ)
  | answers
  deriving DecidableEq

/-- Copies of operations on links to live L3 workers, at live L3 workers and among the answers. -/
def served (q : Origin → Bool) (s : Pipeline) : OriginPlace → ℕ
  | .link x y => if s.l3Alive y.1 then ((s.link x y).map fun op => op.seqId.origin).countP q else 0
  | .worker y => if s.l3Alive y.1 then (s.l3 y).held.countP q else 0
  | .answers => (s.responses.map fun r => r.seqId.origin).countP q

/-- The operations a column sends to the L3 tier. -/
def sentOrigins (sent : List (L2Sent ℕ)) : List Origin :=
  sent.filterMap fun m => match m.message with
    | .request _ _ op => some op.seqId.origin
    | .ack _ => none

variable {q : Origin → Bool} {s s' : Pipeline} {n : ℕ}

lemma served_post (column : ℕ) (sent : List (L2Sent ℕ)) (s : Pipeline) {n : ℕ}
    (bound : AtMost (served q s) n) :
    AtMost (served q (sent.foldl (post column) s)) (n + (sentOrigins sent).countP q) := by
  induction sent generalizing s n with
  | nil => exact bound
  | cons m sent ih =>
    have one : AtMost (served q (post column s m)) (n + (sentOrigins [m]).countP q) := by
      obtain ⟨w, i, message⟩ := m
      cases message with
      | ack batch => exact bound
      | request c k op =>
        have count : (sentOrigins [⟨w, i, .request c k op⟩]).countP q =
            if q op.seqId.origin then 1 else 0 := by
          simp [sentOrigins]
        refine bound.exchange {.link ⟨column, w, i⟩ (c, k)} ?_ fun p hp => ?_
        · rw [Finset.sum_singleton, Finset.sum_singleton, count]
          simp only [served, post, and_self, if_true, List.map_append, List.countP_append,
            List.map_singleton, List.countP_singleton]
          split
          · exact le_rfl
          · exact Nat.zero_le _
        · cases p with
          | link x y =>
            have away : ¬ (x = ⟨column, w, i⟩ ∧ y = (c, k)) := by
              rintro ⟨rfl, rfl⟩
              simp at hp
            simp only [served, post, if_neg away]
            exact le_rfl
          | worker | answers => exact le_rfl
    have rest := ih (post column s m) one
    rw [List.foldl_cons]
    refine rest.mono (fun _ => le_rfl) ?_
    rw [show sentOrigins (m :: sent) = sentOrigins [m] ++ sentOrigins sent by
      rw [sentOrigins, sentOrigins, sentOrigins, ← List.filterMap_append]
      rfl, List.countP_append]
    omega

lemma served_congr (bound : AtMost (served q s) n) (link : s'.link = s.link)
    (l3 : s'.l3 = s.l3) (alive : s'.l3Alive = s.l3Alive) (responses : s'.responses = s.responses) :
    AtMost (served q s') n := by
  refine bound.mono (fun p => ?_) le_rfl
  cases p <;> simp only [served, link, l3, alive, responses] <;> exact le_rfl

lemma served_fewer (bound : AtMost (served q s) n)
    (link : ∀ x y, (s'.link x y).Sublist (s.link x y)) (l3 : s'.l3 = s.l3)
    (alive : ∀ c, s'.l3Alive c = true → s.l3Alive c = true) (responses : s'.responses = s.responses) :
    AtMost (served q s') n := by
  refine bound.mono (fun p => ?_) le_rfl
  cases p with
  | link x y =>
    simp only [served]
    split
    · next up =>
      rw [if_pos (alive y.1 up)]
      exact ((link x y).map _).countP_le
    · exact Nat.zero_le _
  | worker y =>
    simp only [served, l3]
    split
    · next up =>
      rw [if_pos (alive y.1 up)]
    · exact Nat.zero_le _
  | answers =>
    simp only [served, responses]
    exact le_rfl

lemma served_accept {x : L2Target} {y : ℕ × ℕ} {op : L3Operation} {rest : List L3Operation}
    {worker : L3Worker} (bound : AtMost (served q s) n) (popped : s.link x y = op :: rest)
    (link : s'.link = s.setLink x y rest) (l3 : s'.l3 = Function.update s.l3 y worker)
    (alive : s'.l3Alive = s.l3Alive) (responses : s'.responses = s.responses)
    (joined : worker.held.countP q ≤ (s.l3 y).held.countP q + [op.seqId.origin].countP q) :
    AtMost (served q s') n := by
  refine bound.move (p := .link x y) (q := .worker y) (by simp) ?_ fun p hp hq => ?_
  · simp only [served, link, l3, alive, setLink, and_self, if_true, Function.update_self, popped,
      List.map_cons, List.countP_cons]
    rw [List.countP_singleton] at joined
    split
    · omega
    · omega
  · cases p with
    | link x' y' =>
      have away : ¬ (x' = x ∧ y' = y) := by
        rintro ⟨rfl, rfl⟩
        exact hp rfl
      simp only [served, link, alive, setLink, if_neg away]
      exact le_rfl
    | worker y' =>
      have away : y' ≠ y := fun same => hq (by rw [same])
      simp only [served, l3, alive, Function.update_of_ne away]
      exact le_rfl
    | answers =>
      simp only [served, responses]
      exact le_rfl

lemma served_pass {y : ℕ × ℕ} {worker : L3Worker} {answers : List ClientResponse}
    (bound : AtMost (served q s) n) (link : s'.link = s.link)
    (l3 : s'.l3 = Function.update s.l3 y worker) (alive : s'.l3Alive = s.l3Alive)
    (responses : s'.responses = s.responses ++ answers)
    (pass : L3Worker.Passes (s.l3 y) worker answers) (up : answers = [] ∨ s.l3Alive y.1 = true) :
    AtMost (served q s') n := by
  have others : ∀ p, p ≠ .worker y → p ≠ .answers → served q s' p ≤ served q s p := by
    intro p hp hq
    cases p with
    | link x' y' =>
      simp only [served, link, alive]
      exact le_rfl
    | worker y' =>
      have away : y' ≠ y := fun same => hp (by rw [same])
      simp only [served, l3, alive, Function.update_of_ne away]
      exact le_rfl
    | answers => exact absurd rfl hq
  cases live : s.l3Alive y.1 with
  | true =>
    refine bound.move (p := .worker y) (q := .answers) (by simp) ?_ others
    have left := pass.held q
    simp only [served, l3, alive, responses, live, if_true, Function.update_self, List.map_append,
      List.countP_append]
    omega
  | false =>
    obtain rfl : answers = [] := up.resolve_right (by simp [live])
    refine bound.mono (fun p => ?_) le_rfl
    by_cases hp : p = .worker y
    · subst hp
      simp [served, alive, live]
    · by_cases hq : p = .answers
      · subst hq
        simp [served, responses]
      · exact others p hp hq

end Pipeline

namespace L2Column
variable (cfg : ℕ → L2Config) (w i : ℕ)

/-- An operation for an L3 worker among the effects of a row. -/
def forwardOrigin : L2Effect → Option Origin
  | .forward _ _ _ o _ => some o.seqId.origin
  | _ => none

lemma foldl_apply_origins (outs : List L2Effect) (acc : UpdateCache × List (L2Sent ℕ)) :
    ∃ sent, (outs.foldl (apply cfg w i) acc).2 = acc.2 ++ sent ∧
      Pipeline.sentOrigins sent = outs.filterMap forwardOrigin ∧
      ∀ m ∈ sent, m.worker = w ∧ m.row = i ∧ ∀ c k op, m.message = .request c k op →
        ∃ label o dedup, .forward c k label o dedup ∈ outs ∧ op.seqId = o.seqId := by
  induction outs generalizing acc with
  | nil => exact ⟨[], by simp, rfl, by simp⟩
  | cons e outs ih =>
    obtain ⟨sent, result, origins, from'⟩ := ih (apply cfg w i acc e)
    have later : ∀ m ∈ sent, m.worker = w ∧ m.row = i ∧ ∀ c k op, m.message = .request c k op →
        ∃ label o dedup, .forward c k label o dedup ∈ e :: outs ∧ op.seqId = o.seqId := by
      intro m hm
      obtain ⟨worker, row, requests⟩ := from' m hm
      refine ⟨worker, row, fun c k op message => ?_⟩
      obtain ⟨label, o, dedup, mem, seqId⟩ := requests c k op message
      exact ⟨label, o, dedup, List.mem_cons_of_mem e mem, seqId⟩
    rw [List.foldl_cons, result]
    cases e with
    | populate key value n => exact ⟨sent, rfl, origins, later⟩
    | forward c k label o dedup =>
      refine ⟨_ :: sent, by rw [apply, List.append_assoc, List.singleton_append], ?_, ?_⟩
      · exact congrArg (o.seqId.origin :: ·) origins
      · intro m hm
        rcases List.mem_cons.mp hm with rfl | hm
        · refine ⟨rfl, rfl, fun c' k' op message => ?_⟩
          obtain ⟨rfl, rfl, rfl⟩ := L2Out.request.inj message
          exact ⟨label, o, dedup, List.mem_cons_self, rfl⟩
        · exact later m hm
    | ackL1 batch =>
      refine ⟨⟨w, i, .ack batch⟩ :: sent, by rw [apply, List.append_assoc, List.singleton_append],
        origins, ?_⟩
      intro m hm
      rcases List.mem_cons.mp hm with rfl | hm
      · exact ⟨rfl, rfl, fun c' k' op message => by simp at message⟩
      · exact later m hm

lemma absorb_origins (col : L2Column ℕ) (r : NetResult L2State L2Effect) :
    Pipeline.sentOrigins (col.absorb cfg w i r).sent = r.outs.filterMap forwardOrigin ∧
      ∀ m ∈ (col.absorb cfg w i r).sent, m.worker = w ∧ m.row = i ∧
        ∀ c k op, m.message = .request c k op →
          ∃ label o dedup, .forward c k label o dedup ∈ r.outs ∧ op.seqId = o.seqId := by
  obtain ⟨sent, result, origins, from'⟩ := foldl_apply_origins cfg w i r.outs (col.cache i, [])
  have same : (col.absorb cfg w i r).sent = sent := result
  rw [same]
  exact ⟨origins, from'⟩

end L2Column
end Shortstack
