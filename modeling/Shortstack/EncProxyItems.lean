import Shortstack.EncProxy

/-! What a worker of the encryption proxy holds, and how its steps pass it on. -/
namespace Shortstack
open Tokens

/-- An operation in the place where it is. -/
inductive EncProxyItem
  | queued (op : L3Operation)
  | write (e : L3Write)
  | written (e : L3Write)
  | read (op : L3Operation)
  | replied (e : L3Operation × Option String)
  | cipher (e : L3Operation × String)
  | response (r : ClientResponse)

namespace EncProxyItem

def seqId : EncProxyItem → SequenceId
  | .queued op => op.seqId
  | .write e => e.op.seqId
  | .written e => e.op.seqId
  | .read op => op.seqId
  | .replied e => e.1.seqId
  | .cipher e => e.1.seqId
  | .response r => r.seqId

def client (it : EncProxyItem) : RequestId := it.seqId.client

end EncProxyItem

namespace EncProxyWorker

def items (w : EncProxyWorker) : Multiset EncProxyItem :=
  .ofList (w.internalQueue.map .queued) + .ofList (w.encryptQueue.flatten.map .queued) +
    w.storageIface2.items .write (List.map .written) + w.storageIface.items .read (List.map .replied) +
    .ofList (w.decryptQueue.flatten.map .cipher) + .ofList (w.respondQueue.map .response)

/-- Each interface has its connection. -/
structure Connected (w : EncProxyWorker) : Prop where
  reads : w.storageIface ≠ []
  writes : w.storageIface2 ≠ []

end EncProxyWorker

namespace EncProxy
variable {cfg : EncProxyConfig} {w w' : EncProxyWorker} {kv kv' : Kv}
  {o : Outcome EncProxyWorker ClientResponse} {n : ℕ}

lemma items_initState : EncProxyWorker.items initState = 0 := by
  simp [EncProxyWorker.items, initState]

lemma ne_nil_of_length {α : Type} {l l' : List α} (same : l'.length = l.length) (h : l ≠ []) : l' ≠ [] :=
  List.ne_nil_of_length_pos (same ▸ List.length_pos_of_ne_nil h)

lemma items_processOp (connected : w.Connected) (op : L1Operation) :
    (processOp cfg w op).Connected ∧ ∃ it : EncProxyItem, (processOp cfg w op).items = w.items + {it} ∧
      it.seqId = op.seqId ∧
      (op.value ≠ "" ∧ it = .queued ⟨op.seqId, op.key, op.value, false, false⟩ ∨
        op.value = "" ∧ it = .read ⟨op.seqId, op.key, "", true, false⟩) := by
  unfold processOp
  split
  · next write =>
    have some' : op.value ≠ "" := by simpa using write
    refine ⟨⟨connected.reads, connected.writes⟩, _, ?_, rfl, .inl ⟨some', rfl⟩⟩
    have kept := enqueue_flatten cfg.storageBatchSize w.internalQueue
      ⟨op.seqId, op.key, op.value, false, false⟩
    have queues : Multiset.ofList ((enqueue cfg.storageBatchSize w.internalQueue
        ⟨op.seqId, op.key, op.value, false, false⟩).1.map EncProxyItem.queued) +
        Multiset.ofList ((w.encryptQueue ++ (enqueue cfg.storageBatchSize w.internalQueue
          ⟨op.seqId, op.key, op.value, false, false⟩).2).flatten.map EncProxyItem.queued) =
        .ofList (w.internalQueue.map .queued) + .ofList (w.encryptQueue.flatten.map .queued) +
          {.queued ⟨op.seqId, op.key, op.value, false, false⟩} := by
      rw [add_comm, Multiset.coe_add, ← List.map_append, List.flatten_append, List.append_assoc, kept]
      simp only [List.map_append, ← Multiset.coe_add, List.map_singleton, Multiset.coe_singleton]
      ac_rfl
    simp only [EncProxyWorker.items]
    rw [queues]
    ac_rfl
  · next read =>
    have none : op.value = "" := by simpa using read
    refine ⟨⟨ne_nil_of_length (Connections.length_submit ..) connected.reads, connected.writes⟩, _, ?_,
      rfl, .inr ⟨none, rfl⟩⟩
    simp only [EncProxyWorker.items, Connections.items_submit connected.reads]
    ac_rfl

lemma items_flush : (flush w).items = w.items := by
  simp only [EncProxyWorker.items, flush, Connections.items_flush]

lemma trade_encryptRound (connected : w.Connected) (taken : encryptRound cfg w = some w') :
    w'.Connected ∧ ∃ batch : List L3Operation, Trade w.items w'.items (.ofList (batch.map .queued))
      (.ofList (batch.map fun op => .write (encrypted cfg op))) := by
  unfold encryptRound at taken
  split at taken
  · simp at taken
  · next batch rest popped =>
    rw [← Option.some.inj taken]
    have leave : Multiset.ofList (w.encryptQueue.flatten.map EncProxyItem.queued) =
        .ofList (rest.flatten.map .queued) + .ofList (batch.map .queued) := by
      rw [popped, List.flatten_cons, List.map_append, add_comm, Multiset.coe_add]
    have enter : (Connections.flush ((batch.map (encrypted cfg)).foldl (Connections.submit
        cfg.storageBatchSize fun e => e.op.label) w.storageIface2)).items EncProxyItem.write
          (List.map .written) = w.storageIface2.items .write (List.map .written) +
        .ofList (batch.map fun op => .write (encrypted cfg op)) := by
      rw [Connections.items_flush, Connections.items_submitAll connected.writes, List.map_map]
      rfl
    have passed others := ((Trade.drop leave).add_left others).pass (.gain enter)
    exact ⟨⟨connected.reads, ne_nil_of_length ((List.length_map _).trans
      (Connections.length_submitAll ..)) connected.writes⟩, batch, (((passed _).add _).add _).add _⟩

lemma trade_serveGet (connected : w.Connected) (taken : serveGet kv w = some w') :
    w'.Connected ∧ ∃ ops : List L3Operation, Trade w.items w'.items (.ofList (ops.map .read))
      (.ofList (ops.map fun op => .replied (op, kv op.label))) := by
  obtain ⟨⟨ops, cs⟩, served, rfl⟩ := Option.map_eq_some_iff.mp taken
  have moved := Connections.trade_serve EncProxyItem.read (List.map .replied) served
  rw [List.map_map] at moved
  exact ⟨⟨ne_nil_of_length (Connections.length_serve served) connected.reads, connected.writes⟩,
    ops, ((moved.add_left _).add _).add _⟩

lemma trade_servePut (connected : w.Connected) (taken : servePut kv w = some (kv', w')) :
    w'.Connected ∧ ∃ writes : List L3Write,
      kv' = writes.foldl (fun (kv : Kv) e => Function.update kv e.op.label (some e.cipher)) kv ∧
      Trade w.items w'.items (.ofList (writes.map .write)) (.ofList (writes.map .written)) := by
  obtain ⟨⟨writes, cs⟩, served, result⟩ := Option.map_eq_some_iff.mp taken
  obtain ⟨rfl, rfl⟩ := Prod.mk.inj result
  have moved := Connections.trade_serve EncProxyItem.write (List.map .written) served
  exact ⟨⟨connected.reads, ne_nil_of_length (Connections.length_serve served) connected.writes⟩,
    writes, rfl, (((moved.add_left _).add _).add _).add _⟩

lemma trade_getCallback (connected : w.Connected) (taken : getCallback w = some o) :
    o.state.Connected ∧ ((∃ batch : List (L3Operation × String), Trade w.items o.state.items
        (.ofList (batch.map fun e => .replied (e.1, some e.2))) (.ofList (batch.map .cipher))) ∨
      ∃ gone, Trade w.items o.state.items gone 0) := by
  unfold getCallback at taken
  split at taken
  · simp at taken
  · next reply cs popped =>
    have less := Connections.items_takeReply EncProxyItem.read (List.map .replied) popped
    have reads := ne_nil_of_length (Connections.length_takeReply popped) connected.reads
    rcases Connections.mapM_value reply with ⟨batch, all, rfl⟩ | ⟨broken, null⟩
    · rw [all] at taken
      rw [← Option.some.inj taken]
      rw [List.map_map] at less
      have enter : Multiset.ofList ((w.decryptQueue ++ [batch]).flatten.map EncProxyItem.cipher) =
          .ofList (w.decryptQueue.flatten.map .cipher) + .ofList (batch.map .cipher) := by
        rw [List.flatten_append, List.flatten_singleton, List.map_append, Multiset.coe_add]
      have passed others := ((Trade.drop less).add_left others).pass (.gain enter)
      exact ⟨⟨reads, connected.writes⟩, .inl ⟨batch, (passed _).add _⟩⟩
    · rw [broken] at taken
      rw [← Option.some.inj taken]
      have dropped others := (Trade.drop less).add_left others
      exact ⟨⟨reads, connected.writes⟩, .inr ⟨_, ((dropped _).add _).add _⟩⟩

lemma trade_decryptRound (connected : w.Connected) (taken : decryptRound cfg w = some w') :
    w'.Connected ∧ ∃ batch : List (L3Operation × String), Trade w.items w'.items
      (.ofList (batch.map .cipher))
      (.ofList (batch.map fun e => .response ⟨e.1.seqId, .get, plaintext cfg e.2⟩)) := by
  unfold decryptRound at taken
  split at taken
  · simp at taken
  · next batch rest popped =>
    rw [← Option.some.inj taken]
    have leave : Multiset.ofList (w.decryptQueue.flatten.map EncProxyItem.cipher) =
        .ofList (rest.flatten.map .cipher) + .ofList (batch.map .cipher) := by
      rw [popped, List.flatten_cons, List.map_append, add_comm, Multiset.coe_add]
    have dropped others := (Trade.drop leave).add_left others
    exact ⟨⟨connected.reads, connected.writes⟩, batch, (dropped _).pass (.gain (ofList_map_append ..))⟩

lemma trade_putCallback (connected : w.Connected) (taken : putCallback w = some w') :
    w'.Connected ∧ ∃ writes : List L3Write, Trade w.items w'.items (.ofList (writes.map .written))
      (.ofList (writes.map fun e => .response ⟨e.op.seqId, .put, ""⟩)) := by
  obtain ⟨⟨writes, cs⟩, popped, rfl⟩ := Option.map_eq_some_iff.mp taken
  have less := Connections.items_takeReply EncProxyItem.write (List.map .written) popped
  have dropped others := (Trade.drop less).add_left others
  exact ⟨⟨connected.reads, ne_nil_of_length (Connections.length_takeReply popped) connected.writes⟩,
    writes, (((dropped _).add _).add _).pass (.gain (ofList_map_append ..))⟩

lemma trade_respond (connected : w.Connected) {r : ClientResponse}
    (taken : respond cfg w n = some (r, w')) :
    w'.Connected ∧ ∃ r', Trade w.items w'.items {.response r'} 0 ∧
      r = if cfg.respDelivery then r' else { r' with result := "" } := by
  unfold respond at taken
  split at taken
  · simp at taken
  · next r' found =>
    obtain ⟨rfl, rfl⟩ := Prod.mk.inj (Option.some.inj taken)
    have less := ofList_map_eraseIdx EncProxyItem.response found
    exact ⟨⟨connected.reads, connected.writes⟩, r', (Trade.drop less).add_left _, rfl⟩

end EncProxy
end Shortstack
