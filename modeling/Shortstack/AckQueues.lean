import Shortstack.AckFailure
import Shortstack.WorkerIndex

/-! Acknowledgement queues when columns are connected anew. Every update replaces the queues of
all columns, so what waits for a worker is lost when another column is updated. Apart from that
acknowledgements arrive in order, and where they go changes with the own column only. -/
namespace Shortstack

/-- A call to a reverse connector, with the state of the connections when acknowledgements are
sent; a column always has its number of workers. -/
inductive ReverseCall
  | sendAck (up : AckBatch → Bool) (id : ℤ) (seq : SequenceId)
  | updateConnections (column row : ℕ)

namespace ReverseCall

def isUpdate : ReverseCall → Bool
  | updateConnections _ _ => true
  | sendAck _ _ _ => false

def next (workers : List ℕ) (rc : ReverseConnector) : ReverseCall → ReverseConnector
  | sendAck up id seq => (rc.sendAck up id seq).state
  | updateConnections column row => rc.updateConnections column row (workers.getD column 0)

/-- The batches a call passes to connections, whether they come through or not. -/
def handed (rc : ReverseConnector) : ReverseCall → List AckBatch
  | sendAck _ id seq => (rc.sendAck (fun _ => true) id seq).sent
  | updateConnections _ _ => []

/-- The acknowledgement a call accepts, with the index of its worker. -/
def accepted (rc : ReverseConnector) : ReverseCall → List (ℕ × SequenceId)
  | sendAck _ id seq => if rc.refuses id then [] else [(id.toNat, seq)]
  | updateConnections _ _ => []

end ReverseCall

namespace ReverseConnector

lemma sendAck_state (up : AckBatch → Bool) (rc : ReverseConnector) (id : ℤ) (seq : SequenceId) :
    (rc.sendAck up id seq).state = (rc.sendAck (fun _ => true) id seq).state := by
  unfold sendAck
  split
  · split
    · rfl
    · dsimp only
      split
      · rw [Outcome.send_state, Outcome.send_state]
      · rfl
  · rfl

def calls (workers : List ℕ) (rc : ReverseConnector) (ops : List ReverseCall) :
    ReverseConnector := ops.foldl (ReverseCall.next workers) rc

/-- What a list of calls passes to connections. -/
def handedBy (workers : List ℕ) : ReverseConnector → List ReverseCall → List AckBatch
  | _, [] => []
  | rc, op :: ops => op.handed rc ++ handedBy workers (op.next workers rc) ops

def acceptedBy (workers : List ℕ) : ReverseConnector → List ReverseCall → List (ℕ × SequenceId)
  | _, [] => []
  | rc, op :: ops => op.accepted rc ++ acceptedBy workers (op.next workers rc) ops

/-- The part of one worker. -/
def handedTo (id : ℕ) (batches : List AckBatch) : List SequenceId :=
  (batches.filter fun b => b.idx = id).flatMap AckBatch.seqs

def acceptedFor (id : ℕ) (acks : List (ℕ × SequenceId)) : List SequenceId :=
  (acks.filter fun a => a.1 = id).map Prod.snd

def waitingFor (rc : ReverseConnector) (id : ℕ) : List SequenceId := rc.ackQueues.getD id []

/-- Too few acknowledgements for a batch. -/
def Partial (rc : ReverseConnector) (queue : List SequenceId) : Prop :=
  queue = [] ∨ sizeAtLeast queue.length rc.batchSize = false

variable {workers : List ℕ} {rc : ReverseConnector} {ops : List ReverseCall} {id : ℕ}

lemma calls_append (rc : ReverseConnector) (ops ops' : List ReverseCall) :
    rc.calls workers (ops ++ ops') = (rc.calls workers ops).calls workers ops' := by
  simp [calls]

lemma handedBy_append (rc : ReverseConnector) (ops : List ReverseCall) (op : ReverseCall) :
    handedBy workers rc (ops ++ [op]) =
      handedBy workers rc ops ++ op.handed (rc.calls workers ops) := by
  induction ops generalizing rc with
  | nil => simp [handedBy, calls]
  | cons x ops ih => simp [handedBy, calls, ih]

lemma acceptedBy_append (rc : ReverseConnector) (ops : List ReverseCall) (op : ReverseCall) :
    acceptedBy workers rc (ops ++ [op]) =
      acceptedBy workers rc ops ++ op.accepted (rc.calls workers ops) := by
  induction ops generalizing rc with
  | nil => simp [acceptedBy, calls]
  | cons x ops ih => simp [acceptedBy, calls, ih]

/-- What one call does to the queue of a worker. -/
structure QueueStep (rc rc' : ReverseConnector) (op : ReverseCall) (id : ℕ) : Prop where
  conserved : rc.waitingFor id ++ acceptedFor id (op.accepted rc) =
    handedTo id (op.handed rc) ++ rc'.waitingFor id
  left : Partial rc (rc.waitingFor id) → Partial rc' (rc'.waitingFor id)
  row : ∀ b ∈ op.handed rc, rc.clientArr.getD b.idx none = some b.row

lemma sendAck_open {target : ℤ} (yes : rc.refuses target = false) (seq : SequenceId) :
    ∃ row, rc.clientArr.getD target.toNat none = some row ∧ target.toNat < rc.clientArr.length ∧
      rc.sendAck (fun _ => true) target seq =
        if sizeAtLeast (rc.waitingFor target.toNat ++ [seq]).length rc.batchSize then
          ⟨{ rc with ackQueues := rc.ackQueues.set target.toNat [] },
            [⟨target.toNat, row, rc.waitingFor target.toNat ++ [seq]⟩], .returned⟩
        else .done { rc with
          ackQueues := rc.ackQueues.set target.toNat (rc.waitingFor target.toNat ++ [seq]) } := by
  unfold refuses at yes
  rw [Bool.or_eq_false_iff, Bool.not_eq_false', decide_eq_true_eq] at yes
  obtain ⟨inside, client⟩ := yes
  obtain ⟨row, open'⟩ : ∃ row, rc.clientArr.getD target.toNat none = some row := by
    rw [← Option.isSome_iff_exists, ← Option.not_isNone, client]
    rfl
  refine ⟨row, open', by omega, ?_⟩
  unfold sendAck waitingFor
  rw [if_pos inside, open']
  rfl

lemma waitingFor_set (rc : ReverseConnector) {i : ℕ} (inside : i < rc.ackQueues.length)
    (queue : List SequenceId) (id : ℕ) :
    ({ rc with ackQueues := rc.ackQueues.set i queue } : ReverseConnector).waitingFor id =
      if i = id then queue else rc.waitingFor id := by
  unfold waitingFor
  rw [List.getD_eq_getElem?_getD, List.getElem?_set, List.getD_eq_getElem?_getD]
  split
  · simp
  · rfl

lemma queueStep_sendAck (matched : rc.Matched) (up : AckBatch → Bool) (target : ℤ)
    (seq : SequenceId) (id : ℕ) :
    QueueStep rc (rc.sendAck up target seq).state (.sendAck up target seq) id := by
  rw [sendAck_state]
  cases refused : rc.refuses target with
  | true =>
    obtain ⟨e, raised⟩ := @sendAck_refused (fun _ => true) rc target refused seq
    have none : (ReverseCall.sendAck up target seq).handed rc = [] := by
      rw [ReverseCall.handed, raised]
      rfl
    refine ⟨?_, ?_, ?_⟩
    · rw [none, ReverseCall.accepted, if_pos refused, raised]
      simp [acceptedFor, handedTo]
    · rw [raised]
      exact fun h => h
    · simp [none]
  | false =>
    obtain ⟨row, open', inside, sent⟩ := sendAck_open refused seq
    rw [← matched] at inside
    have arrives : acceptedFor id ((ReverseCall.sendAck up target seq).accepted rc) =
        if target.toNat = id then [seq] else [] := by
      rw [ReverseCall.accepted, if_neg (by simp [refused])]
      by_cases own : target.toNat = id <;> simp [acceptedFor, own]
    by_cases full : sizeAtLeast (rc.waitingFor target.toNat ++ [seq]).length rc.batchSize = true
    · rw [if_pos full] at sent
      have batch : (ReverseCall.sendAck up target seq).handed rc =
          [⟨target.toNat, row, rc.waitingFor target.toNat ++ [seq]⟩] := by
        rw [ReverseCall.handed, sent]
      rw [sent]
      refine ⟨?_, ?_, ?_⟩
      · rw [arrives, batch, waitingFor_set rc inside]
        by_cases own : target.toNat = id
        · simp [own, handedTo]
        · simp [own, handedTo]
      · intro before
        rw [waitingFor_set rc inside]
        split
        · exact .inl rfl
        · exact before
      · rw [batch]
        simp only [List.mem_singleton, forall_eq]
        exact open'
    · rw [if_neg full] at sent
      have none : (ReverseCall.sendAck up target seq).handed rc = [] := by
        rw [ReverseCall.handed, sent]
        rfl
      rw [sent]
      refine ⟨?_, ?_, by simp [none]⟩
      · rw [arrives, none, Outcome.done_state, waitingFor_set rc inside]
        by_cases own : target.toNat = id
        · simp [own, handedTo]
        · simp [own, handedTo]
      · intro before
        rw [Outcome.done_state, waitingFor_set rc inside]
        split
        · exact .inr (by simpa using full)
        · exact before

lemma matched_sendAck (matched : rc.Matched) (up : AckBatch → Bool) (target : ℤ)
    (seq : SequenceId) :
    (rc.sendAck up target seq).state.Matched ∧
      (rc.sendAck up target seq).state.clients = rc.clients ∧
      (rc.sendAck up target seq).state.batchSize = rc.batchSize := by
  rw [sendAck_state]
  cases refused : rc.refuses target with
  | true =>
    obtain ⟨e, raised⟩ := @sendAck_refused (fun _ => true) rc target refused seq
    rw [raised]
    exact ⟨matched, rfl, rfl⟩
  | false =>
    obtain ⟨row, -, -, sent⟩ := sendAck_open refused seq
    rw [sent]
    split
    · exact ⟨by simpa [Matched, clientArr] using matched, rfl, rfl⟩
    · exact ⟨by simpa [Matched, clientArr] using matched, rfl, rfl⟩

lemma waitingFor_updateConnections (rc : ReverseConnector) (column row numWorkers id : ℕ) :
    (rc.updateConnections column row numWorkers).waitingFor id = [] := by
  unfold waitingFor updateConnections recomputeClientArray
  dsimp only
  rw [List.getD_eq_getElem?_getD, List.getElem?_replicate]
  split <;> rfl

/-- The row of the last update of a column. -/
def lastRow (ops : List ReverseCall) (column : ℕ) : Option ℕ :=
  ops.reverse.findSome? fun
    | .updateConnections c row => if c = column then some row else none
    | .sendAck _ _ _ => none

/-- The connector some calls after its construction. -/
structure Connected (workers : List ℕ) (batchSize : ℤ) (ops : List ReverseCall)
    (rc : ReverseConnector) : Prop where
  matched : rc.Matched
  clients : rc.clients = workers.mapIdx fun c n => List.replicate n (lastRow ops c)
  size : rc.batchSize = batchSize

lemma connected_calls (workers : List ℕ) (batchSize : ℤ) (ops : List ReverseCall) :
    Connected workers batchSize ops ((new workers batchSize).calls workers ops) := by
  induction ops using List.reverseRecOn with
  | nil =>
    refine ⟨by simp [calls, new, recomputeClientArray, Matched, clientArr], ?_, rfl⟩
    refine List.ext_getElem? fun c => ?_
    simp [calls, new, recomputeClientArray, lastRow]
  | append_singleton ops op ih =>
    rw [calls_append]
    change Connected workers batchSize (ops ++ [op])
      (op.next workers ((new workers batchSize).calls workers ops))
    generalize (new workers batchSize).calls workers ops = rc at ih
    cases op with
    | sendAck up target seq =>
      obtain ⟨matched, clients, size⟩ := matched_sendAck ih.matched up target seq
      refine ⟨matched, clients.trans (ih.clients.trans ?_), size.trans ih.size⟩
      simp [lastRow]
    | updateConnections column row =>
      refine ⟨by simp [ReverseCall.next, updateConnections, recomputeClientArray, Matched,
        clientArr], ?_, ih.size⟩
      change rc.clients.set column (List.replicate (workers.getD column 0) (some row)) = _
      rw [ih.clients]
      refine List.ext_getElem? fun c => ?_
      rw [List.getElem?_set]
      split
      · next same =>
        subst same
        rw [List.length_mapIdx, List.getElem?_mapIdx]
        split
        · next inside => simp [lastRow, inside]
        · next outside => simp [List.getElem?_eq_none (not_lt.mp outside)]
      · next other => simp [lastRow, other]

/-- How an acknowledgement leaves the queue of its worker. -/
inductive Fate
  | passed
  | dropped
  deriving DecidableEq

/-- What leaves the queue of a worker with a call: a batch goes to the connection, and an update of
any column drops all that waits. -/
def leaves (id : ℕ) (rc : ReverseConnector) : ReverseCall → List (Fate × SequenceId)
  | op@(.sendAck _ _ _) => (handedTo id (op.handed rc)).map (Fate.passed, ·)
  | .updateConnections _ _ => (rc.waitingFor id).map (Fate.dropped, ·)

def departures (workers : List ℕ) (id : ℕ) : ReverseConnector → List ReverseCall →
    List (Fate × SequenceId)
  | _, [] => []
  | rc, op :: ops => leaves id rc op ++ departures workers id (op.next workers rc) ops

/-- What was accepted for a worker has left its queue in order or waits. Only what was waiting at
an update, less than a batch, has not gone to the connection. -/
structure Accounted (workers : List ℕ) (rc : ReverseConnector) (ops : List ReverseCall) (id : ℕ) :
    Prop where
  accepted : acceptedFor id (acceptedBy workers rc ops) =
    (departures workers id rc ops).map Prod.snd ++ (rc.calls workers ops).waitingFor id
  passed : handedTo id (handedBy workers rc ops) =
    ((departures workers id rc ops).filter fun d => d.1 = .passed).map Prod.snd
  waiting : Partial rc ((rc.calls workers ops).waitingFor id)
  emptied : ∀ before op after, ops = before ++ op :: after → op.isUpdate = true →
    Partial rc ((rc.calls workers before).waitingFor id) ∧
      (rc.calls workers (before ++ [op])).waitingFor id = []

lemma departures_append (rc : ReverseConnector) (ops : List ReverseCall) (op : ReverseCall) :
    departures workers id rc (ops ++ [op]) =
      departures workers id rc ops ++ leaves id (rc.calls workers ops) op := by
  induction ops generalizing rc with
  | nil => simp [departures, calls]
  | cons x ops ih => simp [departures, calls, ih]

lemma handedTo_append (id : ℕ) (a b : List AckBatch) :
    handedTo id (a ++ b) = handedTo id a ++ handedTo id b := by
  simp [handedTo]

lemma acceptedFor_append (id : ℕ) (a b : List (ℕ × SequenceId)) :
    acceptedFor id (a ++ b) = acceptedFor id a ++ acceptedFor id b := by
  simp [acceptedFor]

lemma emptied_append {op : ReverseCall} (h : Accounted workers rc ops id)
    (last : op.isUpdate = true → (rc.calls workers (ops ++ [op])).waitingFor id = [])
    {before after : List ReverseCall} {u : ReverseCall} (split : ops ++ [op] = before ++ u :: after)
    (update : u.isUpdate = true) : Partial rc ((rc.calls workers before).waitingFor id) ∧
      (rc.calls workers (before ++ [u])).waitingFor id = [] := by
  rcases List.eq_nil_or_concat after with rfl | ⟨rest, x, rfl⟩
  · obtain ⟨rfl, same⟩ := List.append_inj' split rfl
    obtain rfl := List.singleton_inj.mp same
    exact ⟨h.waiting, last update⟩
  · rw [List.concat_eq_append, ← List.cons_append, ← List.append_assoc] at split
    exact h.emptied before u rest (List.append_inj' split rfl).1 update

lemma Accounted.step (h : Accounted workers rc ops id) (matched : (rc.calls workers ops).Matched)
    (same : (rc.calls workers ops).batchSize = rc.batchSize) (op : ReverseCall) :
    Accounted workers rc (ops ++ [op]) id := by
  have after : rc.calls workers (ops ++ [op]) = op.next workers (rc.calls workers ops) := by
    rw [calls_append]
    rfl
  cases op with
  | sendAck up target seq =>
    have step := queueStep_sendAck matched up target seq id
    obtain ⟨-, -, size⟩ := matched_sendAck matched up target seq
    refine ⟨?_, ?_, ?_, fun _ _ _ => emptied_append h fun update => Bool.noConfusion update⟩
    · rw [acceptedBy_append, acceptedFor_append, h.accepted, after, departures_append,
        List.map_append, List.append_assoc, List.append_assoc, step.conserved, leaves, List.map_map]
      simp [Function.comp_def, ReverseCall.next]
    · rw [handedBy_append, handedTo_append, h.passed, departures_append, List.filter_append,
        List.map_append, leaves, List.filter_map]
      simp [Function.comp_def]
    · have left := step.left
      unfold Partial at left ⊢
      rw [size, same] at left
      rw [after]
      exact left h.waiting
  | updateConnections column row =>
    have empty : (rc.calls workers (ops ++ [.updateConnections column row])).waitingFor id = [] := by
      rw [after]
      exact waitingFor_updateConnections _ _ _ _ _
    refine ⟨?_, ?_, .inl empty, fun _ _ _ => emptied_append h fun _ => empty⟩
    · rw [acceptedBy_append, acceptedFor_append, h.accepted, empty, departures_append,
        List.map_append, leaves, List.map_map]
      simp [ReverseCall.accepted, acceptedFor, Function.comp_def]
    · rw [handedBy_append, handedTo_append, h.passed, departures_append, List.filter_append,
        List.map_append, leaves, List.filter_map]
      simp [ReverseCall.handed, handedTo, Function.comp_def]

lemma handed_row {batchSize : ℤ} (connected : Connected workers batchSize ops rc) {column n : ℕ}
    (size : workers[column]? = some n) {worker : ℕ} (inside : worker < n) (op : ReverseCall)
    {b : AckBatch} (mem : b ∈ op.handed rc) (own : b.idx = (workers.take column).sum + worker) :
    lastRow ops column = some b.row := by
  cases op with
  | updateConnections column row => simp [ReverseCall.handed] at mem
  | sendAck up target seq =>
    have here := (queueStep_sendAck connected.matched up target seq b.idx).row b mem
    have clients : rc.clientArr = (workers.mapIdx fun c n =>
        (List.range n).map fun _ => lastRow ops c).flatten := by
      rw [clientArr, connected.clients]
      simp [List.map_const']
    rw [List.getD_eq_getElem?_getD, clients, own,
      flatten_mapIdx_locate workers fun c _ => lastRow ops c, locate_of_getElem? size inside] at here
    exact here

lemma lastRow_append {column : ℕ} (before after : List ReverseCall)
    (since : ∀ row, ReverseCall.updateConnections column row ∉ after) :
    lastRow (before ++ after) column = lastRow before column := by
  induction after using List.reverseRecOn with
  | nil => rw [List.append_nil]
  | append_singleton after op ih =>
    rw [← ih fun row mem => since row (List.mem_append_left _ mem), ← List.append_assoc, lastRow,
      List.reverse_append, List.reverse_singleton, List.singleton_append, List.findSome?_cons]
    cases op with
    | sendAck up id seq => rfl
    | updateConnections c row =>
      have other : c ≠ column := by
        rintro rfl
        exact since row (by simp)
      simp [other, lastRow]

/-- Since the last update of its column the acknowledgements accepted for a worker were passed to
its connection in order, or wait, apart from those that waited at an update of another column.
All went where its own column was connected to. -/
theorem acks_lost_by_updates_only (workers : List ℕ) (batchSize : ℤ) {column n : ℕ}
    (size : workers[column]? = some n) {worker : ℕ} (inside : worker < n)
    {before after : List ReverseCall}
    (start : before = [] ∨ ∃ ops row, before = ops ++ [.updateConnections column row])
    (since : ∀ row, ReverseCall.updateConnections column row ∉ after) :
    let id := (workers.take column).sum + worker
    let rc := (new workers batchSize).calls workers before
    Accounted workers rc after id ∧
      ∀ b ∈ handedBy workers rc after, b.idx = id → lastRow before column = some b.row := by
  dsimp only
  have connected : ∀ ops, Connected workers batchSize (before ++ ops)
      (((new workers batchSize).calls workers before).calls workers ops) := fun ops => by
    rw [← calls_append]
    exact connected_calls workers batchSize (before ++ ops)
  have same : ((new workers batchSize).calls workers before).batchSize = batchSize := by
    simpa [calls] using (connected []).size
  have empty : ∀ id, ((new workers batchSize).calls workers before).waitingFor id = [] := by
    intro id
    rcases start with rfl | ⟨ops, row, rfl⟩
    · unfold calls new recomputeClientArray waitingFor
      rw [List.foldl_nil, List.getD_eq_getElem?_getD, List.getElem?_replicate]
      split <;> rfl
    · rw [calls_append]
      exact waitingFor_updateConnections _ _ _ _ _
  generalize (new workers batchSize).calls workers before = rc at connected same empty
  induction after using List.reverseRecOn with
  | nil =>
    refine ⟨⟨?_, rfl, .inl (empty _), fun _ _ _ none => by simp at none⟩, by simp [handedBy]⟩
    exact (empty _).symm
  | append_singleton after op ih =>
    obtain ⟨accounted, rows⟩ := ih fun row mem => since row (List.mem_append_left _ mem)
    refine ⟨accounted.step (connected after).matched ((connected after).size.trans same.symm) op, ?_⟩
    intro b mem own
    rw [handedBy_append] at mem
    rcases List.mem_append.mp mem with mem | mem
    · exact rows b mem own
    · rw [← handed_row (connected after) size inside op mem own]
      exact (lastRow_append before after fun row mem =>
        since row (List.mem_append_left _ mem)).symm

/-- The first column is connected before this, and an acknowledgement waits for its worker when
the second column is connected once more. Two later ones fill a batch. -/
def secondUpdate : List ReverseCall :=
  [.updateConnections 1 3, .sendAck (fun _ => true) 0 {}, .updateConnections 1 4]

def secondBatch : List ReverseCall :=
  [.sendAck (fun _ => true) 0 { clientSeqNo := 1 }, .sendAck (fun _ => false) 0 { clientSeqNo := 2 }]

/-- One is dropped and two are passed on. -/
theorem acks_lost_by_updates_only_one :
    let rc := (new [1, 1] 2).calls [1, 1] [.updateConnections 0 3]
    Accounted [1, 1] rc (secondUpdate ++ secondBatch) 0 ∧
      (∀ b ∈ handedBy [1, 1] rc (secondUpdate ++ secondBatch), b.idx = 0 → b.row = 3) ∧
      departures [1, 1] 0 rc (secondUpdate ++ secondBatch) =
        [(.dropped, {}), (.passed, { clientSeqNo := 1 }), (.passed, { clientSeqNo := 2 })] := by
  obtain ⟨accounted, rows⟩ := @acks_lost_by_updates_only [1, 1] 2 0 1 rfl 0 Nat.one_pos
    [.updateConnections 0 3] (secondUpdate ++ secondBatch) (.inr ⟨[], 3, rfl⟩)
    (by simp [secondUpdate, secondBatch])
  refine ⟨accounted, fun b mem own => ?_, by decide +kernel⟩
  exact (Option.some.inj (rows b mem own)).symm

/-- The acknowledgement is accepted, and neither passed on nor waiting afterwards. -/
theorem other_column_loses_ack :
    let rc := (new [1, 1] 2).calls [1, 1] [.updateConnections 0 3]
    acceptedFor 0 (acceptedBy [1, 1] rc secondUpdate) = [{}] ∧
      handedTo 0 (handedBy [1, 1] rc secondUpdate) ++
        (rc.calls [1, 1] secondUpdate).waitingFor 0 = [] := by
  decide

end ReverseConnector
end Shortstack
