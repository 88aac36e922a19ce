import Shortstack.PProxyService

/-! With complete tables, a store that holds every label and clients that ask for known keys the
Pancake proxy loses no request: every one is answered once or still held by one worker. -/
namespace Shortstack
open Linearizability Transition Tokens PProxy

/-- Every key has replicas, every replica has a label, and its server holds a value for it. -/
structure PProxyConfig.Complete (cfg : PProxyConfig) (kv : ℕ → Kv) : Prop where
  hosts : 0 < cfg.kvHosts
  replicas : ∀ key n, cfg.keyToNumberOfReplicas.lookup key = some n → 0 < n
  labels : ∀ key replica, cfg.HasReplica key replica → ∃ l, cfg.HasLabel key replica l
  stored : ∀ key replica l, cfg.HasLabel key replica l →
    (kv (consistentHash (toString l) cfg.kvHosts) (toString l)).isSome = true

namespace PProxyServer

/-- Requests and samples are for known keys. -/
def Known (cfg : PProxyConfig) (label : PProxyLabel) : Prop :=
  match label.step with
  | .request _ r draws => r.key ∈ cfg.keyToNumberOfReplicas ∧
    ∀ d ∈ L1Proxy.rounds cfg.slots draws,
      d.real ∈ cfg.keyToNumberOfReplicas ∧ d.fake ∈ cfg.keyToNumberOfReplicas
  | _ => True

/-- The label of an operation is one of a replica, and the server is the one of the label. -/
def Placed (cfg : PProxyConfig) (i : ℕ) (op : L3Operation) : Prop :=
  ∃ key replica l, cfg.HasLabel key replica l ∧ op.label = toString l ∧
    consistentHash (toString l) cfg.kvHosts = i

/-- A worker that nothing stops. -/
structure Whole (cfg : PProxyConfig) (w : PProxyWorker) : Prop where
  connected : w.Connected cfg
  queued : ∀ op ∈ w.internalQueue, op.key ∈ cfg.keyToNumberOfReplicas
  batch : ∀ op ∈ w.batch, cfg.HasReplica op.key op.replica.toInt
  reads : Connections.All (Placed cfg) (fun reply => ∀ e ∈ reply, e.2.isSome = true) w.storageIface

/-- Operations are traded one for one, but for a request that comes in and an answer that goes. -/
def Balanced (w w' : PProxyWorker) (history history' : List ClientEvent) : Prop :=
  ∃ gone more, Trade w.items w'.items gone more ∧ ∀ j : RequestId, j.1 ≠ fakeClientId →
    ∃ k, timesInvoked history' j = timesInvoked history j + k ∧
      (more.countP fun it => it.client = j) + timesAnswered history' j =
        (gone.countP fun it => it.client = j) + timesAnswered history j + k

variable {cfg : PProxyConfig} {w w' : PProxyWorker} {cache cache' : UpdateCache} {kv kv' : Kv}
  {o : Outcome PProxyWorker ClientResponse} {i n : ℕ} {history : List ClientEvent}
  {gone more : Multiset PProxyItem}

lemma balanced_of_trade (trade : Trade w.items w'.items gone more)
    (same : ∀ j : RequestId, j.1 ≠ fakeClientId →
      (more.countP fun it => it.client = j) = gone.countP fun it => it.client = j) :
    Balanced w w' history history :=
  ⟨gone, more, trade, fun j real => ⟨0, rfl, by rw [same j real, add_zero]⟩⟩

lemma Whole.request (h : Whole cfg w) (idle : w.batch = []) {seq : SequenceId} {r : ClientRequest}
    {draws : ℕ → Draw} (asks : r.key ∈ cfg.keyToNumberOfReplicas)
    (samples : ∀ d ∈ L1Proxy.rounds cfg.slots draws,
      d.real ∈ cfg.keyToNumberOfReplicas ∧ d.fake ∈ cfg.keyToNumberOfReplicas)
    (replicas : ∀ key n, cfg.keyToNumberOfReplicas.lookup key = some n → 0 < n) :
    Whole cfg (processOp cfg w (r.operation seq) draws).state ∧
      Balanced w (processOp cfg w (r.operation seq) draws).state history
        (history ++ [.invoke seq.client r]) := by
  have keys : ∀ x ∈ w.internalQueue ++ [r.operation seq], x.key ∈ cfg.keyToNumberOfReplicas := by
    intro x mem
    rcases List.mem_append.mp mem with old | new
    · exact h.queued x old
    · rw [List.mem_singleton.mp new, ClientRequest.operation_key]
      exact asks
  have known := @L1Proxy.slotOps_key cfg.slots (· ∈ cfg.keyToNumberOfReplicas) _ _ samples keys
  obtain ⟨rest, batch, trade, left, ⟨-, unknown⟩ | ⟨rfl, -, count⟩⟩ :=
    @trade_processOp cfg w idle (r.operation seq) draws
  · exact absurd known unknown
  have filled := @L1Proxy.fillBatch_slotOps cfg.slots (L1Proxy.rounds cfg.slots draws)
    (w.internalQueue ++ [r.operation seq]) [] known
  have queue := @L1Proxy.fillBatch_queue cfg.slots (L1Proxy.rounds cfg.slots draws)
    (w.internalQueue ++ [r.operation seq]) []
  refine ⟨?_, _, _, trade, fun j real => ⟨_, timesInvoked_invoke r, ?_⟩⟩
  · unfold processOp createSecurityBatch
    split
    · next broken =>
      rw [broken] at filled
      simp at filled
    · next whole =>
      rw [whole] at filled queue
      obtain rfl := Except.ok.inj filled
      refine ⟨h.connected.congr rfl rfl, fun op mem => keys op (queue.subset mem),
        fun op mem => ?_, h.reads⟩
      obtain ⟨n, found⟩ := Option.isSome_iff_exists.mp (AList.lookup_isSome.mpr (known op mem))
      exact ⟨n, found, L1Proxy.slotOps_range (replicas op.key n found) op mem found⟩
  · have moved := count j real
    have new : decide ((r.operation seq).seqId.client = j) = decide (seq.client = j) := by
      rw [ClientRequest.operation_seqId]
    rw [List.countP_append, List.countP_singleton] at moved
    simp only [new, decide_eq_true_eq] at moved
    rw [timesAnswered_invoke]
    simp only [Multiset.coe_countP, List.countP_append, List.countP_map]
    change rest.countP (fun y => decide (y.seqId.client = j)) +
      (batchSlots cfg draws (w.internalQueue ++ [r.operation seq])).countP
        (fun y => decide (y.seqId.client = j)) + timesAnswered history j =
      w.internalQueue.countP (fun y => decide (y.seqId.client = j)) + timesAnswered history j + _
    omega

lemma Whole.updateCache (h : Whole cfg w) (taken : PProxy.updateCache cfg cache w = some (cache', o)) :
    Whole cfg o.state ∧ Balanced w o.state history history := by
  rcases updateCache_cases taken with ⟨op, n, -, -, state, trade⟩ | ⟨-, -, ⟨op, mem, unknown⟩, -⟩
  · rw [state] at trade ⊢
    exact ⟨⟨h.connected.congr rfl rfl, h.queued, h.batch, h.reads⟩, balanced_of_trade trade fun j _ => rfl⟩
  · obtain ⟨n, found, -⟩ := h.batch op mem
    rw [unknown] at found
    simp at found

lemma Whole.processL2 {s : ℕ → Kv} (complete : cfg.Complete s) (h : Whole cfg w)
    (taken : PProxy.processL2 cfg cache w = some o) :
    Whole cfg o.state ∧ Balanced w o.state history history := by
  have some' : w.storageIface ≠ [] :=
    List.ne_nil_of_length_pos (h.connected.reads ▸ complete.hosts)
  rcases processL2_cases some' taken with
    ⟨op, rest, label, batch, labelled, state, trade⟩ | ⟨-, ⟨op, mem, unknown⟩, -⟩
  · have here : cfg.HasReplica op.key op.replica.toInt := h.batch op (by simp [batch])
    rw [state] at trade ⊢
    refine ⟨⟨h.connected.congr (Connections.length_submit ..) rfl, h.queued, fun op' mem => ?_, ?_⟩,
      balanced_of_trade trade fun j _ => rfl⟩
    · exact h.batch op' (by rw [batch]; exact List.mem_cons_of_mem op mem)
    · refine h.reads.submit _ _ ⟨op.key, op.replica.toInt, label, ⟨here, labelled⟩, rfl, ?_⟩
      rw [h.connected.reads]
      rfl
  · obtain ⟨l, -, found⟩ := complete.labels _ _ (h.batch op mem)
    exact absurd (unknown.symm.trans found) (by simp)

lemma Whole.serveGet (h : Whole cfg w) (stored : ∀ op, Placed cfg i op → (kv op.label).isSome = true)
    (taken : PProxy.serveGet kv w i = some w') :
    Whole cfg w' ∧ Balanced w w' history history := by
  obtain ⟨ops, trade⟩ := trade_serveGet taken
  refine ⟨?_, balanced_of_trade trade fun j _ => ?_⟩
  · obtain ⟨r, served, rfl⟩ := Option.map_eq_some_iff.mp taken
    refine ⟨h.connected.congr (Connections.length_serve served) rfl, h.queued, h.batch,
      h.reads.serve served fun placed e mem => ?_⟩
    obtain ⟨op, hop, rfl⟩ := List.mem_map.mp mem
    exact stored op (placed op hop)
  · simp only [Multiset.coe_countP, List.countP_map]
    rfl

lemma Whole.getCallback (h : Whole cfg w) (taken : PProxy.getCallback w i = some o) :
    Whole cfg o.state ∧ Balanced w o.state history history := by
  obtain ⟨reply, cs, popped, ⟨batch, state, trade⟩ | ⟨-, ⟨e, mem, null⟩, -⟩⟩ := getCallback_cases taken
  · rw [state] at trade ⊢
    refine ⟨⟨h.connected.congr (Connections.length_takeReply popped) rfl, h.queued, h.batch,
      (h.reads.takeReply popped).2⟩, balanced_of_trade trade fun j _ => ?_⟩
    simp only [Multiset.coe_countP, List.countP_map]
    rfl
  · have found := (h.reads.takeReply popped).1 e mem
    rw [null] at found
    simp at found

lemma Whole.cryptoRound (hosts : 0 < cfg.kvHosts) (h : Whole cfg w)
    (taken : PProxy.cryptoRound cfg w n = some w') : Whole cfg w' ∧ Balanced w w' history history := by
  have some' : w.storageIface2 ≠ [] := List.ne_nil_of_length_pos (h.connected.writes ▸ hosts)
  obtain ⟨batch, trade⟩ := trade_cryptoRound some' taken
  refine ⟨?_, balanced_of_trade trade fun j _ => ?_⟩
  · unfold PProxy.cryptoRound at taken
    split at taken
    · simp at taken
    · rw [← Option.some.inj taken]
      exact ⟨h.connected.congr rfl ((List.length_map _).trans (Connections.length_submitAll ..)),
        h.queued, h.batch, h.reads⟩
  · simp only [Multiset.coe_countP, List.countP_map]
    rfl

lemma Whole.servePut (h : Whole cfg w) (taken : PProxy.servePut kv w i = some (kv', w')) :
    Whole cfg w' ∧ Balanced w w' history history := by
  obtain ⟨writes, -, -, same⟩ := trade_servePut taken
  have trade : Trade w.items w'.items 0 0 := same ▸ .refl _
  refine ⟨?_, balanced_of_trade trade fun j _ => rfl⟩
  obtain ⟨r, served, moved⟩ := Option.map_eq_some_iff.mp taken
  rw [← (Prod.mk.inj moved).2]
  exact ⟨h.connected.congr rfl (Connections.length_serve served), h.queued, h.batch, h.reads⟩

lemma Whole.putCallback (h : Whole cfg w) (taken : PProxy.putCallback w i = some w') :
    Whole cfg w' ∧ Balanced w w' history history := by
  obtain ⟨writes, trade⟩ := trade_putCallback taken
  refine ⟨?_, balanced_of_trade trade fun j real => ?_⟩
  · obtain ⟨r, popped, rfl⟩ := Option.map_eq_some_iff.mp taken
    exact ⟨h.connected.congr rfl (Connections.length_takeReply popped), h.queued, h.batch, h.reads⟩
  · simp only [Multiset.coe_countP, List.countP_map, List.countP_filter]
    refine List.countP_congr fun e _ => ?_
    change (decide (e.op.seqId.client = j) && decide (e.op.seqId.clientId ≠ fakeClientId)) = true ↔
      decide (e.op.seqId.client = j) = true
    simp only [Bool.and_eq_true, decide_eq_true_eq, and_iff_left_iff_imp]
    rintro rfl
    exact real

lemma Whole.respond (h : Whole cfg w) {r : ClientResponse} (taken : PProxy.respond cfg w n = some (r, w')) :
    Whole cfg w' ∧
      Balanced w w' history (history ++ [.respond r.seqId.client (r.opCode, r.result)]) := by
  obtain ⟨r', trade, sent⟩ := trade_respond taken
  have client : r.seqId = r'.seqId := by
    rw [sent]
    split <;> rfl
  refine ⟨?_, _, _, trade, fun j _ => ⟨0, timesInvoked_respond .., ?_⟩⟩
  · unfold PProxy.respond at taken
    split at taken
    · simp at taken
    · rw [← (Prod.mk.inj (Option.some.inj taken)).2]
      exact ⟨h.connected.congr rfl rfl, h.queued, h.batch, h.reads⟩
  · rw [timesAnswered_respond, client, Multiset.countP_zero, ← Multiset.cons_zero,
      Multiset.countP_cons, Multiset.countP_zero]
    change 0 + (_ + if r'.seqId.client = j then 1 else 0) =
      0 + (if r'.seqId.client = j then 1 else 0) + _ + 0
    omega

lemma foldl_write_isSome {writes : List L3Write} {label : String} (before : (kv label).isSome = true) :
    (writes.foldl (fun (kv : Kv) e => Function.update kv e.op.label (some e.cipher)) kv label).isSome =
      true := by
  induction writes generalizing kv with
  | nil => exact before
  | cons e writes ih =>
    refine ih ?_
    dsimp only
    rw [Function.update_apply]
    split
    · rfl
    · exact before

/-- All workers go on, all labels are stored, and no request is lost. -/
structure Conserves (cfg : PProxyConfig) (s : PProxyServer) (history : List ClientEvent) : Prop where
  whole : ∀ x, Whole cfg (s.workers x)
  complete : cfg.Complete s.kv
  exact' : ∀ j : RequestId, j.1 ≠ fakeClientId →
    Exactly (copies PProxyItem.client s.pools (timesAnswered history) j) (timesInvoked history j)

variable {s s' : PProxyServer} {history' : List ClientEvent} {label : PProxyLabel} {x : ℕ}

lemma Conserves.change {stores : ℕ → Kv} (h : Conserves cfg s history) (complete : cfg.Complete stores)
    (whole : Whole cfg w) (balanced : Balanced (s.workers x) w history history') :
    Conserves cfg { s with
      cache := cache, workers := Function.update s.workers x w, kv := stores } history' := by
  refine ⟨fun y => ?_, complete, fun j real => ?_⟩
  · dsimp only
    rw [Function.update_apply]
    split
    · exact whole
    · exact h.whole y
  · obtain ⟨gone, more, trade, moved⟩ := balanced
    obtain ⟨k, asked, balance⟩ := moved j real
    rw [pools_update, asked]
    exact (h.exact' j real).trade trade balance

theorem Conserves.step (h : Conserves cfg s history)
    (known : Known cfg label) (taken : step cfg s label = some s') :
    Conserves cfg s' (history ++ events cfg s label) := by
  obtain ⟨x, l⟩ := label
  have stored : ∀ i op, Placed cfg i op → (s.kv i op.label).isSome = true := by
    rintro i op ⟨key, replica, l, has, label, rfl⟩
    rw [label]
    exact h.complete.stored key replica l has
  have quiet : ∀ {t : PProxyServer}, Conserves cfg t history → Conserves cfg t (history ++ []) := fun h =>
    (List.append_nil history).symm ▸ h
  cases l with
  | request seq r draws =>
    simp only [PProxyServer.step] at taken
    split at taken
    · next idle =>
      rw [← Option.some.inj taken]
      obtain ⟨whole, balanced⟩ := (h.whole x).request idle known.1 known.2 h.complete.replicas
      exact h.change h.complete whole balanced
    · simp at taken
  | update =>
    obtain ⟨⟨cache, o⟩, moved, rfl⟩ := Option.map_eq_some_iff.mp taken
    obtain ⟨whole, balanced⟩ := (h.whole x).updateCache moved
    exact quiet (h.change h.complete whole balanced)
  | lookup =>
    obtain ⟨o, moved, rfl⟩ := Option.map_eq_some_iff.mp taken
    obtain ⟨whole, balanced⟩ := (h.whole x).processL2 h.complete moved
    exact quiet (h.change h.complete whole balanced)
  | serveGet i =>
    obtain ⟨w, moved, rfl⟩ := Option.map_eq_some_iff.mp taken
    obtain ⟨whole, balanced⟩ := (h.whole x).serveGet (stored i) moved
    exact quiet (h.change h.complete whole balanced)
  | getReply i =>
    obtain ⟨o, moved, rfl⟩ := Option.map_eq_some_iff.mp taken
    obtain ⟨whole, balanced⟩ := (h.whole x).getCallback moved
    exact quiet (h.change h.complete whole balanced)
  | crypto n =>
    obtain ⟨w, moved, rfl⟩ := Option.map_eq_some_iff.mp taken
    obtain ⟨whole, balanced⟩ := (h.whole x).cryptoRound h.complete.hosts moved
    exact quiet (h.change h.complete whole balanced)
  | servePut i =>
    obtain ⟨⟨kv, w⟩, moved, rfl⟩ := Option.map_eq_some_iff.mp taken
    obtain ⟨whole, balanced⟩ := (h.whole x).servePut moved
    refine quiet (h.change ⟨h.complete.hosts, h.complete.replicas, h.complete.labels, fun key replica l has => ?_⟩ whole balanced)
    have before := h.complete.stored key replica l has
    obtain ⟨writes, -, rfl, -⟩ := trade_servePut moved
    rw [Function.update_apply]
    split
    · next same =>
      rw [same] at before
      exact foldl_write_isSome before
    · exact before
  | putReply i =>
    obtain ⟨w, moved, rfl⟩ := Option.map_eq_some_iff.mp taken
    obtain ⟨whole, balanced⟩ := (h.whole x).putCallback moved
    exact quiet (h.change h.complete whole balanced)
  | respond n =>
    obtain ⟨⟨r, w⟩, moved, rfl⟩ := Option.map_eq_some_iff.mp taken
    have seen : events cfg s ⟨x, .respond n⟩ = [.respond r.seqId.client (r.opCode, r.result)] := by
      simp only [events, moved]
    rw [seen]
    obtain ⟨whole, balanced⟩ := (h.whole x).respond moved
    exact h.change h.complete whole balanced

instance (label : PProxyLabel) : Decidable (Known cfg label) :=
  match label with
  | ⟨_, .request ..⟩ => inferInstanceAs (Decidable (_ ∧ _))
  | ⟨_, .update⟩ => inferInstanceAs (Decidable True)
  | ⟨_, .lookup⟩ => inferInstanceAs (Decidable True)
  | ⟨_, .serveGet _⟩ => inferInstanceAs (Decidable True)
  | ⟨_, .getReply _⟩ => inferInstanceAs (Decidable True)
  | ⟨_, .crypto _⟩ => inferInstanceAs (Decidable True)
  | ⟨_, .servePut _⟩ => inferInstanceAs (Decidable True)
  | ⟨_, .putReply _⟩ => inferInstanceAs (Decidable True)
  | ⟨_, .respond _⟩ => inferInstanceAs (Decidable True)

end PProxyServer
end Shortstack
