import Shortstack.IngestChange
import Shortstack.PProxy

/-! What a worker of the Pancake proxy holds: every operation is in one place, and a step of the
worker passes some of them on. -/
namespace Shortstack
open Tokens

/-- An operation in the place where it is. -/
inductive PProxyItem
  | queued (op : L1Operation)
  | slot (op : L2Operation) (updated : Bool)
  | read (op : L3Operation)
  | replied (e : L3Operation × Option String)
  | cipher (e : L3Operation × String)
  | write (e : L3Write)
  | response (r : ClientResponse)

namespace PProxyItem

def seqId : PProxyItem → SequenceId
  | .queued op => op.seqId
  | .slot op _ => op.seqId
  | .read op => op.seqId
  | .replied e => e.1.seqId
  | .cipher e => e.1.seqId
  | .write e => e.op.seqId
  | .response r => r.seqId

def client (it : PProxyItem) : RequestId := it.seqId.client

end PProxyItem

namespace PProxyWorker

def slots (w : PProxyWorker) : List PProxyItem :=
  match w.batch with
  | [] => []
  | op :: rest => .slot op w.updated :: rest.map fun op => .slot op false

def items (w : PProxyWorker) : Multiset PProxyItem :=
  .ofList (w.internalQueue.map .queued ++ w.slots) +
    w.storageIface.items PProxyItem.read (List.map .replied) +
    Multiset.ofList (w.cryptoQueue.flatten.map PProxyItem.cipher) +
    w.storageIface2.items PProxyItem.write (List.map .write) +
    Multiset.ofList (w.respondQueue.map PProxyItem.response)

/-- Both interfaces are connected to all servers. -/
structure Connected (cfg : PProxyConfig) (w : PProxyWorker) : Prop where
  reads : w.storageIface.length = cfg.kvHosts
  writes : w.storageIface2.length = cfg.kvHosts

lemma Connected.congr {cfg : PProxyConfig} {w w' : PProxyWorker} (h : w.Connected cfg)
    (reads : w'.storageIface.length = w.storageIface.length)
    (writes : w'.storageIface2.length = w.storageIface2.length) : w'.Connected cfg :=
  ⟨reads.trans h.reads, writes.trans h.writes⟩

end PProxyWorker

namespace L1Proxy
variable {cfg : L1Config}

lemma fillBatch_ok {draws : List Draw} {queue rest : List L1Operation} {batch whole : List L2Operation}
    (filled : fillBatch cfg draws queue batch = (rest, .ok whole)) :
    whole = batch ++ slotOps cfg draws queue ∧
      ∀ op ∈ slotOps cfg draws queue, op.key ∈ cfg.keyToNumberOfReplicas := by
  induction draws generalizing queue batch with
  | nil =>
    simp only [fillBatch, Prod.mk.injEq, Except.ok.injEq] at filled
    simp [slotOps, filled.2]
  | cons d draws ih =>
    by_cases known : (fillSlot d queue).1.key ∈ cfg.keyToNumberOfReplicas
    · rw [fillBatch_cons known] at filled
      obtain ⟨rfl, rest⟩ := ih filled
      refine ⟨by simp [slotOps], fun op mem => ?_⟩
      rcases List.mem_cons.mp mem with rfl | later
      · exact known
      · exact rest op later
    · rw [fillBatch_unknown known] at filled
      simp at filled

lemma mem_slotOps {draws : List Draw} {queue : List L1Operation} :
    ∀ op ∈ slotOps cfg draws queue, op.seqId.clientId = fakeClientId ∧ op.value = "" ∨
      ∃ x ∈ queue, op.seqId = x.seqId ∧ op.key = x.key ∧ op.value = x.value := by
  induction draws generalizing queue with
  | nil => simp [slotOps]
  | cons d draws ih =>
    intro op mem
    rcases List.mem_cons.mp mem with rfl | later
    · unfold fillSlot
      split
      · cases queue with
        | nil => exact .inl ⟨rfl, rfl⟩
        | cons x queue => exact .inr ⟨x, List.mem_cons_self, rfl, rfl, rfl⟩
      · exact .inl ⟨rfl, rfl⟩
    · obtain other | ⟨x, hx, same⟩ := ih op later
      · exact .inl other
      · exact .inr ⟨x, (fillSlot_queue d queue).subset hx, same⟩

end L1Proxy

namespace PProxy
variable {cfg : PProxyConfig} {w w' : PProxyWorker} {cache cache' : UpdateCache} {kv kv' : Kv}
  {o : Outcome PProxyWorker ClientResponse} {i n : ℕ} {j : RequestId}
open PProxyWorker PProxyItem

lemma items_initState : (initState cfg).items = 0 := by
  simp [PProxyWorker.items, initState, slots]

lemma connected_initState : (initState cfg).Connected cfg :=
  ⟨List.length_replicate, List.length_replicate⟩

lemma slots_of_not_updated (clean : w.updated = false) :
    w.slots = w.batch.map fun op => .slot op false := by
  unfold slots
  rw [clean]
  cases w.batch <;> rfl

/-- The places behind the batch. -/
def behind (w : PProxyWorker) : Multiset PProxyItem :=
  w.storageIface.items PProxyItem.read (List.map .replied) +
    Multiset.ofList (w.cryptoQueue.flatten.map PProxyItem.cipher) +
    w.storageIface2.items PProxyItem.write (List.map .write) +
    Multiset.ofList (w.respondQueue.map PProxyItem.response)

lemma items_eq (w : PProxyWorker) :
    w.items = .ofList (w.internalQueue.map .queued ++ w.slots) + behind w := by
  simp only [PProxyWorker.items, behind, add_assoc]

/-- The slots of a batch. -/
def batchSlots (cfg : PProxyConfig) (draws : ℕ → Draw) (queue : List L1Operation) :
    List L2Operation :=
  L1Proxy.slotOps cfg.slots (L1Proxy.rounds cfg.slots draws) queue

lemma processOp_state (op : L1Operation) (draws : ℕ → Draw) :
    (processOp cfg w op draws).state.storageIface = w.storageIface ∧
      (processOp cfg w op draws).state.storageIface2 = w.storageIface2 := by
  unfold processOp
  split <;> exact ⟨rfl, rfl⟩

lemma trade_processOp (idle : w.batch = []) (op : L1Operation) (draws : ℕ → Draw) :
    ∃ rest batch, Trade w.items (processOp cfg w op draws).state.items
        (.ofList (w.internalQueue.map .queued))
        (.ofList (rest.map .queued ++ batch.map fun op => .slot op false)) ∧
      rest <:+ w.internalQueue ++ [op] ∧
      ((batch = [] ∧ ¬ ∀ o ∈ batchSlots cfg draws (w.internalQueue ++ [op]),
          o.key ∈ cfg.keyToNumberOfReplicas) ∨
        batch = batchSlots cfg draws (w.internalQueue ++ [op]) ∧
        (∀ o ∈ batch, o.key ∈ cfg.keyToNumberOfReplicas) ∧
        ∀ j : RequestId, j.1 ≠ fakeClientId →
          rest.countP (fun x => x.seqId.client = j) + batch.countP (fun x => x.seqId.client = j) =
            (w.internalQueue ++ [op]).countP fun x => x.seqId.client = j) := by
  have before : w.items = behind w + .ofList (w.internalQueue.map .queued) := by
    have none : w.slots = [] := by
      unfold slots
      rw [idle]
    rw [items_eq, none, List.append_nil, add_comm]
  have after : ∀ rest batch, PProxyWorker.items
      { w with internalQueue := rest, batch := batch, updated := false } =
        behind w + .ofList (rest.map .queued ++ batch.map fun op => .slot op false) := by
    intro rest batch
    rw [items_eq, slots_of_not_updated rfl, add_comm]
    rfl
  have taken := @L1Proxy.fillBatch_queue cfg.slots (L1Proxy.rounds cfg.slots draws)
    (w.internalQueue ++ [op]) []
  unfold processOp createSecurityBatch
  split
  · next rest e filled =>
    rw [filled] at taken
    refine ⟨rest, [], ⟨_, before, ?_⟩, taken, .inl ⟨rfl, fun known => ?_⟩⟩
    · have none : slots { w with internalQueue := rest } = [] := by
        unfold slots
        dsimp only
        rw [idle]
      rw [items_eq, Outcome.raise_state, none, add_comm]
      rfl
    · have whole := @L1Proxy.fillBatch_slotOps cfg.slots (L1Proxy.rounds cfg.slots draws)
        (w.internalQueue ++ [op]) [] known
      rw [filled] at whole
      simp at whole
  · next rest batch filled =>
    rw [filled] at taken
    obtain ⟨rfl, known⟩ := L1Proxy.fillBatch_ok filled
    rw [List.nil_append] at filled ⊢
    refine ⟨rest, _, ⟨_, before, after rest _⟩, taken, .inr ⟨rfl, known, fun j real => ?_⟩⟩
    have moved := L1Proxy.fillBatch_tickets
      (q := fun t => decide ((t.clientId, t.clientSeqNo) = j))
      (fun key => decide_eq_false fun same => real (congrArg Prod.fst same).symm) _ _ _ _ _ filled
    simp only [List.countP_map, List.map_nil, List.countP_nil, zero_add] at moved
    exact (Nat.add_comm _ _).trans moved

lemma ofList_middle (a b : List PProxyItem) (it : PProxyItem) :
    Multiset.ofList (a ++ it :: b) = .ofList (a ++ b) + {it} := by
  simp only [← Multiset.coe_add, ← Multiset.cons_coe, ← Multiset.singleton_add]
  ac_rfl

lemma slots_abandon : (abandon w).items + .ofList w.slots = w.items := by
  have none : (abandon w).slots = [] := rfl
  rw [items_eq, items_eq, none, List.append_nil, ← Multiset.coe_add]
  have same : behind (abandon w) = behind w := rfl
  rw [same]
  simp only [abandon]
  ac_rfl

lemma updateCache_cases (taken : updateCache cfg cache w = some (cache', o)) :
    (∃ op n, cfg.keyToNumberOfReplicas.lookup op.key = some n ∧
      cache' = (if cfg.updateCacheEnabled && op.value != "" then
        cache.populateReplicaUpdates op.key op.value n else cache) ∧
      o.state = { w with updated := true } ∧
      Trade w.items o.state.items {.slot op false} {.slot op true}) ∨
    cache' = cache ∧ o.state = abandon w ∧
      (∃ op ∈ w.batch, cfg.keyToNumberOfReplicas.lookup op.key = none) ∧
      Trade w.items o.state.items (.ofList w.slots) 0 := by
  unfold updateCache at taken
  split at taken
  · next op rest batch clean =>
    split at taken
    · next unknown =>
      obtain ⟨rfl, rfl⟩ := Prod.mk.inj (Option.some.inj taken)
      exact .inr ⟨rfl, rfl, ⟨op, by simp [batch], unknown⟩, .drop slots_abandon.symm⟩
    · next n known =>
      obtain ⟨rfl, rfl⟩ := Prod.mk.inj (Option.some.inj taken)
      refine .inl ⟨op, n, known, rfl, rfl, .ofList (w.internalQueue.map .queued ++
        rest.map fun op => .slot op false) + behind w, ?_, ?_⟩
      · rw [items_eq, slots_of_not_updated clean, batch, List.map_cons, ofList_middle, add_right_comm]
      · have marked : slots { w with updated := true } =
            .slot op true :: rest.map fun op => .slot op false := by
          unfold slots
          dsimp only
          rw [batch]
        rw [items_eq, Outcome.done_state, marked, ofList_middle, add_right_comm]
        rfl
  · simp at taken

lemma processL2_cases (some' : w.storageIface ≠ []) (taken : processL2 cfg cache w = some o) :
    (∃ op rest label, w.batch = op :: rest ∧
      cfg.replicaToLabel.lookup (op.key ++ toString op.replica) = some label ∧
      o.state =
        { w with
          batch := rest
          updated := false
          storageIface := w.storageIface.submit cfg.storageBatchSize L3Operation.label
            (l3Operation cfg cache op label) } ∧
      Trade w.items o.state.items {.slot op true} {.read (l3Operation cfg cache op label)}) ∨
    o.state = abandon w ∧
      (∃ op ∈ w.batch, cfg.replicaToLabel.lookup (op.key ++ toString op.replica) = none) ∧
      Trade w.items o.state.items (.ofList w.slots) 0 := by
  unfold processL2 at taken
  split at taken
  · next op rest batch marked =>
    split at taken
    · next unknown =>
      rw [← Option.some.inj taken]
      exact .inr ⟨rfl, ⟨op, by simp [batch], unknown⟩, .drop slots_abandon.symm⟩
    · next label known =>
      rw [← Option.some.inj taken]
      refine .inl ⟨op, rest, label, batch, known, rfl, .ofList (w.internalQueue.map .queued ++
        rest.map fun op => .slot op false) + behind w, ?_, ?_⟩
      · have slots : w.slots = .slot op true :: rest.map fun op => .slot op false := by
          unfold slots
          rw [batch, marked]
        rw [items_eq, slots, ofList_middle, add_right_comm]
      · rw [items_eq, Outcome.done_state, slots_of_not_updated rfl, add_assoc]
        congr 1
        simp only [behind, Connections.items_submit some']
        ac_rfl
  · simp at taken

lemma trade_serveGet (taken : serveGet kv w i = some w') :
    ∃ ops : List L3Operation, Trade w.items w'.items (.ofList (ops.map .read))
      (.ofList (ops.map fun op => .replied (op, kv op.label))) := by
  obtain ⟨⟨ops, cs⟩, served, rfl⟩ := Option.map_eq_some_iff.mp taken
  have moved := Connections.trade_serve PProxyItem.read (List.map .replied) served
  rw [List.map_map] at moved
  exact ⟨ops, (((moved.add_left _).add _).add _).add _⟩

lemma getCallback_cases (taken : getCallback w i = some o) :
    ∃ reply cs, w.storageIface.takeReply i = some (reply, cs) ∧
      ((∃ batch : List (L3Operation × String),
        o.state = { w with storageIface := cs, cryptoQueue := w.cryptoQueue ++ [batch] } ∧
        Trade w.items o.state.items (.ofList (batch.map fun e => .replied (e.1, some e.2)))
          (.ofList (batch.map .cipher))) ∨
      o.state = { w with storageIface := cs } ∧ (∃ e ∈ reply, e.2 = none) ∧
        Trade w.items o.state.items (.ofList (reply.map .replied)) 0) := by
  unfold getCallback at taken
  split at taken
  · simp at taken
  · next reply cs popped =>
    have less := Connections.items_takeReply PProxyItem.read (List.map .replied) popped
    refine ⟨reply, cs, popped, ?_⟩
    rcases Connections.mapM_value reply with ⟨batch, all, rfl⟩ | ⟨broken, null⟩
    · rw [all] at taken
      rw [← Option.some.inj taken]
      rw [List.map_map] at less
      have enter : Multiset.ofList ((w.cryptoQueue ++ [batch]).flatten.map PProxyItem.cipher) =
          .ofList (w.cryptoQueue.flatten.map .cipher) + .ofList (batch.map .cipher) := by
        rw [List.flatten_append, List.flatten_singleton, List.map_append, Multiset.coe_add]
      have passed others := ((Trade.drop less).add_left others).pass (.gain enter)
      exact .inl ⟨batch, rfl, ((passed _).add _).add _⟩
    · rw [broken] at taken
      rw [← Option.some.inj taken]
      have dropped others := (Trade.drop less).add_left others
      exact .inr ⟨rfl, null, (((dropped _).add _).add _).add _⟩

lemma trade_cryptoRound (some' : w.storageIface2 ≠ []) (taken : cryptoRound cfg w n = some w') :
    ∃ batch : List (L3Operation × String), Trade w.items w'.items (.ofList (batch.map .cipher))
      (.ofList (batch.map fun e => .write (writeBack cfg e.1 e.2))) := by
  unfold cryptoRound at taken
  split at taken
  · simp at taken
  · next batch found =>
    rw [← Option.some.inj taken]
    have leave : Multiset.ofList (w.cryptoQueue.flatten.map PProxyItem.cipher) =
        .ofList ((w.cryptoQueue.eraseIdx n).flatten.map .cipher) + .ofList (batch.map .cipher) := by
      rw [add_comm, Multiset.coe_add, ← List.map_append, ← List.flatten_cons]
      refine Multiset.coe_eq_coe.mpr ((List.Perm.flatten ?_).map _)
      obtain ⟨inside, rfl⟩ := List.getElem?_eq_some_iff.mp found
      exact (List.getElem_cons_eraseIdx_perm inside).symm
    have enter : (Connections.flush ((batch.map fun e => writeBack cfg e.1 e.2).foldl
        (Connections.submit writeBatchSize fun e => e.op.label) w.storageIface2)).items
          PProxyItem.write (List.map .write) = w.storageIface2.items .write (List.map .write) +
        .ofList (batch.map fun e => .write (writeBack cfg e.1 e.2)) := by
      rw [Connections.items_flush, Connections.items_submitAll some', List.map_map]
      rfl
    have passed others := ((Trade.drop leave).add_left others).pass (.gain enter)
    exact ⟨batch, (passed _).add _⟩

lemma trade_servePut (taken : servePut kv w i = some (kv', w')) :
    ∃ writes : List L3Write, (∀ e ∈ writes, PProxyItem.write e ∈ w.items) ∧
      kv' = writes.foldl (fun (kv : Kv) e => Function.update kv e.op.label (some e.cipher)) kv ∧
      w'.items = w.items := by
  obtain ⟨⟨writes, cs⟩, served, result⟩ := Option.map_eq_some_iff.mp taken
  obtain ⟨rfl, rfl⟩ := Prod.mk.inj result
  obtain ⟨rest, before, after⟩ :=
    Connections.trade_serve PProxyItem.write (List.map .write) served
  refine ⟨writes, fun e mem => ?_, rfl, ?_⟩
  · have inside : PProxyItem.write e ∈ w.storageIface2.items PProxyItem.write (List.map .write) := by
      rw [before]
      exact Multiset.mem_add.mpr (.inr (Multiset.mem_coe.mpr (List.mem_map_of_mem mem)))
    simp only [PProxyWorker.items, Multiset.mem_add]
    exact .inl (.inr inside)
  · simp only [PProxyWorker.items, before, after, slots]
    rfl

lemma trade_putCallback (taken : putCallback w i = some w') :
    ∃ writes : List L3Write, Trade w.items w'.items (.ofList (writes.map .write))
      (.ofList ((writes.filter fun e => e.op.seqId.clientId ≠ fakeClientId).map fun e =>
        .response (response e))) := by
  obtain ⟨⟨writes, cs⟩, popped, rfl⟩ := Option.map_eq_some_iff.mp taken
  have less := Connections.items_takeReply PProxyItem.write (List.map .write) popped
  have dropped others := (Trade.drop less).add_left others
  exact ⟨writes, (dropped _).pass (.gain (ofList_map_append ..))⟩

lemma trade_respond {r : ClientResponse} (taken : respond cfg w n = some (r, w')) :
    ∃ r', Trade w.items w'.items {.response r'} 0 ∧
      r = if cfg.respDelivery then r' else { r' with result := "" } := by
  unfold respond at taken
  split at taken
  · simp at taken
  · next r' found =>
    obtain ⟨rfl, rfl⟩ := Prod.mk.inj (Option.some.inj taken)
    have less := ofList_map_eraseIdx PProxyItem.response found
    exact ⟨r', (Trade.drop less).add_left _, rfl⟩

end PProxy
end Shortstack
