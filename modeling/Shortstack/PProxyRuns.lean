import Shortstack.LibDecimal
import Shortstack.PProxyOrder

/-! Runs of the Pancake proxy. However its workers and the servers of the store interleave, the
answers are those of one register for each key, and no request is answered twice. -/
namespace Shortstack
open Linearizability Transition Tokens KeyValues PProxy

namespace PProxyServer

/-- The update cache holds what was put last, for all replicas. -/
def Cached (cfg : PProxyConfig) (initial : String → String)
    (order : List (RequestId × ClientRequest)) (cache : UpdateCache) : Prop :=
  ∀ key, match cache.lookup key with
    | none => ∀ x ∈ order, ¬ Writes key x.2
    | some e => e.value = (keyValues initial).after initial order key ∧ e.value ≠ "" ∧
      ∀ n ∈ cfg.keyToNumberOfReplicas.lookup key, e.bits = List.replicate n.toNat true

lemma Cached.populate {cfg : PProxyConfig} {initial : String → String}
    {order : List (RequestId × ClientRequest)} {cache : UpdateCache} {n : ℤ} {r : ClientRequest}
    (h : Cached cfg initial order cache) (i : RequestId)
    (known : cfg.keyToNumberOfReplicas.lookup r.key = some n) (write : r.value ≠ "") :
    Cached cfg initial (order ++ [(i, r)]) (cache.populateReplicaUpdates r.key r.value n) := by
  intro key
  rw [UpdateCache.lookup_populate, Object.after_concat, keyValues_write write]
  rcases eq_or_ne key r.key with rfl | other
  · rw [if_pos rfl]
    dsimp only
    rw [Function.update_self]
    refine ⟨rfl, write, fun m found => ?_⟩
    rw [known] at found
    rw [Option.mem_some_iff.mp found]
  · have before := h key
    rw [if_neg other]
    dsimp only
    rw [Function.update_of_ne other]
    split
    · next none =>
      rw [none] at before
      intro x mem put
      rcases List.mem_append.mp mem with old | new
      · exact before x old put
      · rw [List.mem_singleton.mp new] at put
        exact other put.1.symm
    · next e found =>
      rw [found] at before
      exact before

lemma Cached.read {cfg : PProxyConfig} {initial : String → String}
    {order order' : List (RequestId × ClientRequest)} {cache : UpdateCache}
    (h : Cached cfg initial order cache)
    (same : (keyValues initial).after initial order' = (keyValues initial).after initial order)
    (writes : ∀ key, ∀ x ∈ order', Writes key x.2 → x ∈ order) : Cached cfg initial order' cache := by
  intro key
  have before := h key
  split
  · next none =>
    rw [none] at before
    exact fun x mem put => before x (writes key x mem put) put
  · next e found =>
    rw [found] at before
    rw [same]
    exact before

/-- What the workers hold. -/
def pools (s : PProxyServer) (x : ℕ) : Multiset PProxyItem := (s.workers x).items

/-- There is an order in which the requests took effect, and everything on its way agrees
with it. -/
structure Ordered (cfg : PProxyConfig) (initial : String → String) (s : PProxyServer)
    (history : List ClientEvent) (order : List (RequestId × ClientRequest)) : Prop where
  connected : ∀ x, (s.workers x).Connected cfg
  lin : Linearizes (keyValues initial) history order
  cached : Cached cfg initial order s.cache
  stored : ∀ i label, ∀ c ∈ s.kv i label, Holds cfg initial order label (plaintext cfg c)
  sound : ∀ x, ∀ it ∈ (s.workers x).items, Sound cfg initial history order it
  numbered : ((invocations history).map Prod.fst).Nodup
  single : ∀ j : RequestId, j.1 ≠ fakeClientId →
    AtMost (copies PProxyItem.client s.pools (timesAnswered history) j) (timesInvoked history j)

variable {cfg : PProxyConfig} {initial : String → String} {s s' : PProxyServer}
  {history history' : List ClientEvent} {order order' : List (RequestId × ClientRequest)} {x : ℕ}
  {w : PProxyWorker} {cache : UpdateCache} {kv : ℕ → Kv} {gone more : Multiset PProxyItem}
  {label : PProxyLabel}

lemma pools_update (x : ℕ) (w : PProxyWorker) :
    pools { s with cache := cache, workers := Function.update s.workers x w, kv := kv } =
      Function.update s.pools x w.items :=
  Function.comp_update PProxyWorker.items s.workers x w

lemma Ordered.change (h : Ordered cfg initial s history order) {new : RequestId → Prop}
    (connected : w.Connected cfg) (trade : Trade (s.workers x).items w.items gone more)
    (lin : Linearizes (keyValues initial) history' order')
    (ext : Extends initial new history order history' order')
    (given : ∀ i, new i → i.1 ≠ fakeClientId ∧ ∃ g ∈ gone, g.client = i)
    (cached : Cached cfg initial order' cache)
    (stored : ∀ i label, ∀ c ∈ kv i label, Holds cfg initial order' label (plaintext cfg c))
    (sound : ∀ it ∈ more, Sound cfg initial history' order' it)
    (numbered : ((invocations history').map Prod.fst).Nodup)
    (balance : ∀ j : RequestId, j.1 ≠ fakeClientId → ∃ k,
      timesInvoked history' j = timesInvoked history j + k ∧
      (more.countP fun it => it.client = j) + timesAnswered history' j ≤
        (gone.countP fun it => it.client = j) + timesAnswered history j + k) :
    Ordered cfg initial { s with
      cache := cache, workers := Function.update s.workers x w, kv := kv } history' order' := by
  have few : ∀ i : RequestId, i.1 ≠ fakeClientId →
      AtMost (copies PProxyItem.client s.pools (timesAnswered history) i) 1 := fun i real =>
    (h.single i real).mono (fun _ => le_rfl) (timesInvoked_le_one h.numbered)
  have held : ∀ y, ∀ it ∈ s.pools y, Sound cfg initial history order it := h.sound
  have all := forall_of_trade held trade sound (fun it old other => Sound.extend ext old other)
    fun i fresh => ⟨few i (given i fresh).1, (given i fresh).2⟩
  refine ⟨fun y => ?_, lin, cached, stored, fun y => ?_, numbered, fun j real => ?_⟩
  · dsimp only
    rw [Function.update_apply]
    split
    · exact connected
    · exact h.connected y
  · have held := all y
    rw [← pools_update x w] at held
    exact held
  · obtain ⟨k, asked, moved⟩ := balance j real
    rw [pools_update, asked]
    exact (h.single j real).trade trade moved

lemma Ordered.pass (h : Ordered cfg initial s history order) (connected : w.Connected cfg)
    (trade : Trade (s.workers x).items w.items gone more)
    (sound : ∀ it ∈ more, Sound cfg initial history order it)
    (fewer : ∀ j : RequestId,
      more.countP (fun it => it.client = j) ≤ gone.countP fun it => it.client = j) :
    Ordered cfg initial (s.withWorker x w) history order :=
  h.change connected trade h.lin extends_refl (fun _ none => none.elim) h.cached h.stored sound h.numbered
    fun j _ => ⟨0, rfl, Nat.add_le_add_right (fewer j) _⟩

lemma Ordered.given_up (h : Ordered cfg initial s history order)
    (trade : Trade (s.workers x).items w.items gone more) :
    ∀ it ∈ gone, Sound cfg initial history order it := by
  obtain ⟨rest, before, -⟩ := trade
  exact fun it mem => h.sound x it (before ▸ Multiset.mem_add.mpr (.inr mem))

lemma Ordered.drop (h : Ordered cfg initial s history order) (connected : w.Connected cfg)
    (trade : Trade (s.workers x).items w.items gone 0) :
    Ordered cfg initial (s.withWorker x w) history order :=
  h.pass connected trade (fun _ mem => absurd mem (Multiset.notMem_zero _)) fun j => by simp

section Passing
variable {i n : ℕ}

lemma Ordered.serveGet (h : Ordered cfg initial s history order)
    (taken : PProxy.serveGet (s.kv i) (s.workers x) i = some w) :
    Ordered cfg initial (s.withWorker x w) history order := by
  obtain ⟨ops, trade⟩ := trade_serveGet taken
  have connected : w.Connected cfg := by
    obtain ⟨r, served, rfl⟩ := Option.map_eq_some_iff.mp taken
    exact ⟨(Connections.length_serve served).trans (h.connected x).reads, (h.connected x).writes⟩
  refine h.pass connected trade (fun it mem => ?_) fun j => ?_
  · obtain ⟨op, hop, rfl⟩ := List.mem_map.mp (Multiset.mem_coe.mp mem)
    exact (h.given_up trade _ (Multiset.mem_coe.mpr (List.mem_map_of_mem hop))).replied (h.stored i)
  · simp only [Multiset.coe_countP, List.countP_map]
    exact le_rfl

lemma Ordered.getCallback (h : Ordered cfg initial s history order)
    {o : Outcome PProxyWorker ClientResponse}
    (taken : PProxy.getCallback (s.workers x) i = some o) :
    Ordered cfg initial (s.withWorker x o.state) history order := by
  obtain ⟨reply, cs, popped, passed⟩ := getCallback_cases taken
  have connected : o.state.Connected cfg := by
    rcases passed with ⟨batch, state, -⟩ | ⟨state, -⟩
    · rw [state]
      exact (h.connected x).congr (Connections.length_takeReply popped) rfl
    · rw [state]
      exact (h.connected x).congr (Connections.length_takeReply popped) rfl
  rcases passed with ⟨batch, -, trade⟩ | ⟨-, -, trade⟩
  · refine h.pass connected trade (fun it mem => ?_) fun j => ?_
    · obtain ⟨e, he, rfl⟩ := List.mem_map.mp (Multiset.mem_coe.mp mem)
      exact (h.given_up trade _ (Multiset.mem_coe.mpr (List.mem_map_of_mem he))).cipher
    · simp only [Multiset.coe_countP, List.countP_map]
      exact le_rfl
  · exact h.drop connected trade

lemma Ordered.cryptoRound (hosts : 0 < cfg.kvHosts) (lossless : cfg.Lossless)
    (h : Ordered cfg initial s history order)
    (taken : PProxy.cryptoRound cfg (s.workers x) n = some w) :
    Ordered cfg initial (s.withWorker x w) history order := by
  have some' : (s.workers x).storageIface2 ≠ [] :=
    List.ne_nil_of_length_pos ((h.connected x).writes ▸ hosts)
  obtain ⟨batch, trade⟩ := trade_cryptoRound some' taken
  have connected : w.Connected cfg := by
    unfold PProxy.cryptoRound at taken
    split at taken
    · simp at taken
    · rw [← Option.some.inj taken]
      refine ⟨(h.connected x).reads, ?_⟩
      rw [← (h.connected x).writes]
      exact (List.length_map _).trans (Connections.length_submitAll ..)
  refine h.pass connected trade (fun it mem => ?_) fun j => ?_
  · obtain ⟨e, he, rfl⟩ := List.mem_map.mp (Multiset.mem_coe.mp mem)
    exact (h.given_up trade _ (Multiset.mem_coe.mpr (List.mem_map_of_mem he))).write lossless
  · simp only [Multiset.coe_countP, List.countP_map]
    exact le_rfl

lemma Ordered.putCallback (h : Ordered cfg initial s history order)
    (taken : PProxy.putCallback (s.workers x) i = some w) :
    Ordered cfg initial (s.withWorker x w) history order := by
  obtain ⟨writes, trade⟩ := trade_putCallback taken
  have connected : w.Connected cfg := by
    obtain ⟨r, popped, rfl⟩ := Option.map_eq_some_iff.mp taken
    exact ⟨(h.connected x).reads, (Connections.length_takeReply popped).trans (h.connected x).writes⟩
  refine h.pass connected trade (fun it mem => ?_) fun j => ?_
  · obtain ⟨e, he, rfl⟩ := List.mem_map.mp (Multiset.mem_coe.mp mem)
    obtain ⟨inside, real⟩ := List.mem_filter.mp he
    have real := of_decide_eq_true real
    exact ⟨real, (h.given_up trade _ (Multiset.mem_coe.mpr (List.mem_map_of_mem inside))).2.2 real⟩
  · simp only [Multiset.coe_countP, List.countP_map]
    exact List.filter_sublist.countP_le

lemma Ordered.servePut (h : Ordered cfg initial s history order) {kv' : Kv}
    (taken : PProxy.servePut (s.kv i) (s.workers x) i = some (kv', w)) :
    Ordered cfg initial { s.withWorker x w with kv := Function.update s.kv i kv' } history order := by
  obtain ⟨writes, inside, rfl, same⟩ := trade_servePut taken
  have connected : w.Connected cfg := by
    obtain ⟨r, served, moved⟩ := Option.map_eq_some_iff.mp taken
    rw [← (Prod.mk.inj moved).2]
    exact ⟨(h.connected x).reads, (Connections.length_serve served).trans (h.connected x).writes⟩
  have trade : Trade (s.workers x).items w.items 0 0 := same ▸ .refl _
  refine h.change connected trade h.lin extends_refl (fun _ none => none.elim) h.cached (fun i' label c held => ?_)
    (fun _ mem => absurd mem (Multiset.notMem_zero _)) h.numbered
    fun j _ => ⟨0, rfl, le_rfl⟩
  rcases eq_or_ne i' i with rfl | other
  · rw [Function.update_self] at held
    rcases L3Worker.foldl_write held with ⟨e, mem, rfl, rfl⟩ | old
    · have sound := h.sound x _ (inside e mem)
      exact sound.2.1 ▸ sound.1
    · exact h.stored i' label c old
  · rw [Function.update_of_ne other] at held
    exact h.stored i' label c held

end Passing

lemma Ordered.updateCache (enabled : cfg.updateCacheEnabled = true)
    (h : Ordered cfg initial s history order) {o : Outcome PProxyWorker ClientResponse}
    (taken : PProxy.updateCache cfg s.cache (s.workers x) = some (cache, o)) :
    ∃ order', Ordered cfg initial { s.withWorker x o.state with cache := cache } history order' := by
  rcases updateCache_cases taken with ⟨op, n, known, rfl, state, trade⟩ | ⟨rfl, state, -, trade⟩
  swap
  · exact ⟨order, h.drop (state ▸ (h.connected x).congr rfl rfl) trade⟩
  have connected : o.state.Connected cfg := state ▸ (h.connected x).congr rfl rfl
  obtain ⟨replica, fake, real⟩ := h.given_up trade _ (Multiset.mem_singleton_self _)
  simp only [Bool.false_eq_true, false_and, if_false] at real
  rcases eq_or_ne op.value "" with none | some'
  · rw [none]
    simp only [bne_self_eq_false, Bool.and_false, Bool.false_eq_true, if_false]
    refine ⟨order, h.pass connected trade (fun it mem => ?_) fun j => ?_⟩
    · rw [Multiset.mem_singleton.mp mem]
      refine ⟨replica, fake, fun isReal => ?_⟩
      rw [if_neg fun both => both.2 none]
      exact real isReal
    · exact le_of_eq rfl
  · have isReal : op.seqId.clientId ≠ fakeClientId := fun isFake => some' (fake isFake)
    obtain ⟨new, r, invoked, key, value⟩ := real isReal
    rw [if_pos (by simp [enabled, some']), ← key, ← value]
    rw [← value] at some'
    rw [← key] at known
    have lin := h.lin.effect invoked new
    refine ⟨order ++ [(op.seqId.client, r)], h.change connected trade lin (extends_effect h.lin _ r)
      (fun i is => ?_) (h.cached.populate _ known some') (fun i label c held => ?_) (fun it mem => ?_)
      h.numbered fun j _ => ⟨0, rfl, le_rfl⟩⟩
    · subst is
      exact ⟨isReal, _, Multiset.mem_singleton_self _, rfl⟩
    · exact (h.stored i label c held).mono fun _ => List.mem_append_left _
    · rw [Multiset.mem_singleton.mp mem]
      refine ⟨replica, fake, fun _ => ?_⟩
      rw [if_pos ⟨rfl, value ▸ some'⟩, Object.outputs_concat, keyValues_write some']
      simp

lemma Cached.check {key : String} {replica : ℤ} (h : Cached cfg initial order s.cache)
    (has : cfg.HasReplica key replica) :
    (s.cache.checkForUpdateImmutable key replica = "" ∧ ∀ x ∈ order, ¬ Writes key x.2) ∨
    s.cache.checkForUpdateImmutable key replica ≠ "" ∧
      s.cache.checkForUpdateImmutable key replica = (keyValues initial).after initial order key := by
  obtain ⟨n, known, low, high⟩ := has
  have here := h key
  unfold UpdateCache.checkForUpdateImmutable
  cases found : s.cache.lookup key with
  | none =>
    rw [found] at here
    exact .inl ⟨rfl, here⟩
  | some e =>
    rw [found] at here
    obtain ⟨value, some', bits⟩ := here
    have marked : e.bits.getD replica.toNat false = true := by
      rw [bits n known, List.getD_eq_getElem?_getD, List.getElem?_replicate,
        if_pos ((Int.toNat_lt_toNat (lt_of_le_of_lt low high)).mpr high)]
      rfl
    dsimp only
    rw [if_pos marked]
    exact .inr ⟨some', value⟩

/-- A get takes effect when its replica has to receive a value; otherwise it waits for the value
of its label. -/
lemma Ordered.processL2 (hosts : 0 < cfg.kvHosts) (apart : cfg.LabelsApart)
    (enabled : cfg.updateCacheEnabled = true) (h : Ordered cfg initial s history order)
    {o : Outcome PProxyWorker ClientResponse}
    (taken : PProxy.processL2 cfg s.cache (s.workers x) = some o) :
    ∃ order', Ordered cfg initial (s.withWorker x o.state) history order' := by
  have some' : (s.workers x).storageIface ≠ [] :=
    List.ne_nil_of_length_pos ((h.connected x).reads ▸ hosts)
  rcases processL2_cases some' taken with ⟨op, rest, label, -, labelled, state, trade⟩ | ⟨state, -, trade⟩
  swap
  · exact ⟨order, h.drop (state ▸ (h.connected x).congr rfl rfl) trade⟩
  have connected : o.state.Connected cfg :=
    state ▸ (h.connected x).congr (Connections.length_submit ..) rfl
  obtain ⟨replica, fake, real⟩ := h.given_up trade _ (Multiset.mem_singleton_self _)
  have hasLabel : cfg.HasLabel op.key op.replica.toInt label := ⟨replica, labelled⟩
  have value : (l3Operation cfg s.cache op label).value =
      s.cache.checkForUpdateImmutable op.key op.replica.toInt := if_pos enabled
  have kind : (l3Operation cfg s.cache op label).isRead = true ↔ op.value = "" := beq_iff_eq
  have done : op.seqId.clientId ≠ fakeClientId → (l3Operation cfg s.cache op label).isRead = false →
      (op.seqId.client, (OpCode.put, "")) ∈ (keyValues initial).outputs initial order := by
    intro isReal write
    have put : op.value ≠ "" := fun none => by rw [kind.mpr none] at write; simp at write
    have := real isReal
    rwa [if_pos ⟨rfl, put⟩] at this
  have waits : op.seqId.clientId ≠ fakeClientId → op.value = "" →
      Open history order op.seqId.client op.key "" := by
    intro isReal none
    have := real isReal
    rwa [if_neg fun both => both.2 none, none] at this
  have fewer : ∀ j : RequestId, Multiset.countP (fun it => it.client = j)
      {PProxyItem.read (l3Operation cfg s.cache op label)} ≤
        Multiset.countP (fun it => it.client = j) {PProxyItem.slot op true} := fun j => le_of_eq rfl
  rcases h.cached.check replica with ⟨none, noPut⟩ | ⟨found, held⟩
  · refine ⟨order, h.pass connected trade (fun it mem => ?_) fewer⟩
    rw [Multiset.mem_singleton.mp mem]
    refine ⟨fun some' => absurd (value.trans none) some', done,
      fun _ _ some' => absurd (value.trans none) some', fun isReal read _ => ?_⟩
    exact ⟨_, _, _, hasLabel, rfl, waits isReal (kind.mp read), .of_none noPut⟩
  · have holds : Holds cfg initial order (toString label)
        (s.cache.checkForUpdateImmutable op.key op.replica.toInt) := by
      intro key replica' l has same
      obtain rfl := Decimal.toString_injective same
      obtain rfl := apart _ _ _ _ _ hasLabel has
      rw [held]
      exact seen_after
    have sent : (l3Operation cfg s.cache op label).value ≠ "" := by rwa [value]
    by_cases effect : op.seqId.clientId ≠ fakeClientId ∧ op.value = ""
    · obtain ⟨isReal, read⟩ := effect
      obtain ⟨new, r, invoked, key, none⟩ := waits isReal read
      have lin := h.lin.effect invoked new
      have ext := extends_effect h.lin op.seqId.client r
      refine ⟨order ++ [(op.seqId.client, r)], h.change connected trade lin ext (fun i is => ?_)
        (h.cached.read ?_ fun k y mem put => ?_) (fun i l c stored => ?_) (fun it mem => ?_)
        h.numbered fun j _ => ⟨0, rfl, Nat.add_le_add_right (fewer j) _⟩⟩
      · subst is
        exact ⟨isReal, _, Multiset.mem_singleton_self _, rfl⟩
      · rw [Object.after_concat, keyValues_read none]
      · rcases List.mem_append.mp mem with old | new
        · exact old
        · rw [List.mem_singleton.mp new] at put
          exact absurd none put.2
      · exact (h.stored i l c stored).mono ext.grown
      · rw [Multiset.mem_singleton.mp mem]
        refine ⟨fun _ => ?_, fun isReal write => ext.outputs _ (done isReal write), fun _ _ _ => ?_,
          fun _ _ none => absurd none sent⟩
        · rw [value]
          exact holds.mono ext.grown
        · rw [value, held, Object.outputs_concat, keyValues_read none, key]
          exact List.mem_append_right _ (List.mem_singleton_self _)
    · refine ⟨order, h.pass connected trade (fun it mem => ?_) fewer⟩
      rw [Multiset.mem_singleton.mp mem]
      refine ⟨fun _ => ?_, done, fun isReal read _ => absurd ⟨isReal, kind.mp read⟩ effect,
        fun _ _ none => absurd none sent⟩
      rw [value]
      exact holds

lemma Ordered.request (h : Ordered cfg initial s history order) {seq : SequenceId} {r : ClientRequest}
    {draws : ℕ → Draw} (idle : (s.workers x).batch = [])
    (replicas : ∀ key n, cfg.keyToNumberOfReplicas.lookup key = some n → 0 < n)
    (free : serves (s, history) ⟨x, .request seq r draws⟩) :
    Ordered cfg initial (s.withWorker x (processOp cfg (s.workers x) (r.operation seq) draws).state)
      (history ++ [.invoke seq.client r]) order := by
  obtain ⟨real, fresh⟩ := free
  have fresh : ∀ r', .invoke seq.client r' ∉ history := fun r' mem =>
    fresh (List.mem_map.mpr ⟨_, mem_invocations.mpr mem, rfl⟩)
  obtain ⟨rest, batch, trade, left, filled⟩ :=
    @trade_processOp cfg (s.workers x) idle (r.operation seq) draws
  obtain ⟨reads, writes⟩ := @processOp_state cfg (s.workers x) (r.operation seq) draws
  have connected := (h.connected x).congr (congrArg List.length reads) (congrArg List.length writes)
  have ext : Extends initial (fun _ => False) history order (history ++ [.invoke seq.client r]) order :=
    extends_record fun i r' same r'' => by
      rw [← (Event.invoke.inj same).1]
      exact fresh r''
  have waiting : ∀ y ∈ (s.workers x).internalQueue ++ [r.operation seq],
      y.seqId.clientId ≠ fakeClientId ∧
        Open (history ++ [.invoke seq.client r]) order y.seqId.client y.key y.value := by
    intro y mem
    rcases List.mem_append.mp mem with old | new
    · have sound := h.given_up trade (.queued y) (Multiset.mem_coe.mpr (List.mem_map_of_mem old))
      exact ⟨sound.1, Open.extend ext sound.2 not_false⟩
    · rw [List.mem_singleton.mp new]
      simp only [ClientRequest.operation_key, ClientRequest.operation_value, ClientRequest.operation_seqId]
      refine ⟨real, fun mem => ?_, r, by simp, rfl, rfl⟩
      obtain ⟨z, hz, same⟩ := List.mem_map.mp mem
      exact fresh z.2 (same ▸ h.lin.invoked z hz)
  refine h.change connected trade (h.lin.invoke fresh r) ext (fun _ none => none.elim) h.cached h.stored
    (fun it mem => ?_) ?_ fun j notFake => ?_
  · rcases List.mem_append.mp (Multiset.mem_coe.mp mem) with queued | slot
    · obtain ⟨y, hy, rfl⟩ := List.mem_map.mp queued
      exact waiting y (left.subset hy)
    · obtain ⟨op, hop, rfl⟩ := List.mem_map.mp slot
      rcases filled with ⟨rfl, -⟩ | ⟨rfl, known, -⟩
      · simp at hop
      obtain ⟨n, found⟩ := Option.isSome_iff_exists.mp (AList.lookup_isSome.mpr (known op hop))
      refine ⟨⟨n, found, L1Proxy.slotOps_range (replicas op.key n found) op hop found⟩, fun fake => ?_, fun isReal => ?_⟩
      · rcases L1Proxy.mem_slotOps op hop with ⟨-, none⟩ | ⟨y, hy, seqId, -, -⟩
        · exact none
        · exact absurd (seqId ▸ fake) (waiting y hy).1
      · rw [if_neg fun both => absurd both.1 Bool.false_ne_true]
        rcases L1Proxy.mem_slotOps op hop with ⟨fake, -⟩ | ⟨y, hy, seqId, key, value⟩
        · exact absurd fake isReal
        · rw [seqId, key, value]
          exact (waiting y hy).2
  · rw [invocations_append, List.map_append, List.nodup_append]
    refine ⟨h.numbered, List.nodup_singleton _, fun a mem b new => ?_⟩
    rintro rfl
    rw [List.mem_singleton.mp new] at mem
    obtain ⟨y, hy, same⟩ := List.mem_map.mp mem
    have same : y.1 = seq.client := same
    exact fresh y.2 (same ▸ mem_invocations.mp hy)
  · refine ⟨_, timesInvoked_invoke .., ?_⟩
    have limit : rest.countP (fun y => y.seqId.client = j) + batch.countP (fun y => y.seqId.client = j) ≤
        ((s.workers x).internalQueue ++ [r.operation seq]).countP fun y => y.seqId.client = j := by
      rcases filled with ⟨rfl, -⟩ | ⟨rfl, -, count⟩
      · rw [List.countP_nil, add_zero]
        exact left.sublist.countP_le
      · exact (count j notFake).le
    have new : decide ((r.operation seq).seqId.client = j) = decide (seq.client = j) := by
      rw [ClientRequest.operation_seqId]
    rw [List.countP_append, List.countP_singleton] at limit
    simp only [new, decide_eq_true_eq] at limit
    rw [timesAnswered_invoke]
    simp only [Multiset.coe_countP, List.countP_append, List.countP_map]
    change rest.countP (fun y => decide (y.seqId.client = j)) +
      batch.countP (fun y => decide (y.seqId.client = j)) + timesAnswered history j ≤
      (s.workers x).internalQueue.countP (fun y => decide (y.seqId.client = j)) +
        timesAnswered history j + _
    omega

/-- An answer is sent. A get that is late takes effect among the puts of its key. -/
lemma Ordered.respond (delivered : cfg.respDelivery = true) (h : Ordered cfg initial s history order)
    {n : ℕ} {r : ClientResponse} (taken : PProxy.respond cfg (s.workers x) n = some (r, w)) :
    ∃ order', Ordered cfg initial (s.withWorker x w)
      (history ++ [.respond r.seqId.client (r.opCode, r.result)]) order' := by
  obtain ⟨r, trade, rfl⟩ := trade_respond taken
  rw [if_pos delivered]
  have connected : w.Connected cfg := by
    unfold PProxy.respond at taken
    split at taken
    · simp at taken
    · rw [← (Prod.mk.inj (Option.some.inj taken)).2]
      exact ⟨(h.connected x).reads, (h.connected x).writes⟩
  have numbered : ((invocations (history ++
      [.respond r.seqId.client (r.opCode, r.result)])).map Prod.fst).Nodup := by
    rw [invocations_append]
    exact (List.append_nil (invocations history)).symm ▸ h.numbered
  have balance : ∀ j : RequestId, j.1 ≠ fakeClientId → ∃ k,
      timesInvoked (history ++ [.respond r.seqId.client (r.opCode, r.result)]) j =
        timesInvoked history j + k ∧
      (Multiset.countP (fun it => it.client = j) (0 : Multiset PProxyItem)) +
        timesAnswered (history ++ [.respond r.seqId.client (r.opCode, r.result)]) j ≤
      (Multiset.countP (fun it => it.client = j) {PProxyItem.response r}) + timesAnswered history j + k := by
    refine fun j _ => ⟨0, timesInvoked_respond .., ?_⟩
    rw [timesAnswered_respond, Multiset.countP_zero, ← Multiset.cons_zero, Multiset.countP_cons,
      Multiset.countP_zero]
    change 0 + (_ + if r.seqId.client = j then 1 else 0) ≤
      0 + (if r.seqId.client = j then 1 else 0) + _ + 0
    omega
  obtain ⟨real, due⟩ := h.given_up trade _ (Multiset.mem_singleton_self _)
  have recorded : ∀ order', Extends initial (fun _ => False) history order'
      (history ++ [.respond r.seqId.client (r.opCode, r.result)]) order' :=
    fun order' => extends_record fun i r' same => by simp at same
  rcases due with done | ⟨key, u, answer, late, seen⟩
  · exact ⟨order, h.change connected trade (h.lin.respond done) (recorded order)
      (fun _ none => none.elim) h.cached h.stored (fun _ mem => absurd mem (Multiset.notMem_zero _))
      numbered balance⟩
  · obtain ⟨a, b, request, rfl, read, lin, out⟩ := late.effect h.lin seen
    have inserted : Extends initial (· = r.seqId.client) history (a ++ b) history
        (a ++ (r.seqId.client, request) :: b) := extends_insert read
    have ext := Extends.trans inserted (recorded _)
    refine ⟨a ++ (r.seqId.client, request) :: b, h.change connected trade (lin.respond (answer ▸ out)) ext
      (fun i is => ?_) (h.cached.read (after_insert read _) fun k y mem put => ?_)
      (fun i l c held => (h.stored i l c held).mono ext.grown)
      (fun _ mem => absurd mem (Multiset.notMem_zero _)) numbered balance⟩
    · subst is
      exact ⟨real, _, Multiset.mem_singleton_self _, rfl⟩
    · rcases List.mem_append.mp mem with old | later
      · exact List.mem_append_left _ old
      · rcases List.mem_cons.mp later with rfl | old
        · exact absurd read put.2
        · exact List.mem_append_right _ old

lemma ordered_start (filled : cfg.Filled initial kv) : Ordered cfg initial (start cfg kv) [] [] where
  connected _ := connected_initState
  lin := linearizes_nil
  cached key := by
    have none : (start cfg kv).cache.lookup key = none := rfl
    rw [none]
    simp
  stored i label c held key replica l has same := by
    subst same
    exact .inl (filled key replica l has i c held)
  sound x it mem := by
    rw [show ((start cfg kv).workers x).items = 0 from items_initState] at mem
    exact absurd mem (Multiset.notMem_zero _)
  numbered := List.nodup_nil
  single j _ := by
    refine atMost_zero_iff.mpr fun p => ?_
    cases p with
    | none => rfl
    | some x =>
      change Multiset.countP _ (initState cfg).items = 0
      rw [items_initState]
      rfl

/-- What a proxy needs to keep the values of its keys apart and up to date. -/
structure Keeps (cfg : PProxyConfig) : Prop where
  hosts : 0 < cfg.kvHosts
  replicas : ∀ key n, cfg.keyToNumberOfReplicas.lookup key = some n → 0 < n
  apart : cfg.LabelsApart
  cached : cfg.updateCacheEnabled = true
  lossless : cfg.Lossless
  delivered : cfg.respDelivery = true

theorem Ordered.step (keeps : Keeps cfg) (h : Ordered cfg initial s history order)
    (free : serves (s, history) label) (taken : step cfg s label = some s') :
    ∃ order', Ordered cfg initial s' (history ++ events cfg s label) order' := by
  obtain ⟨x, l⟩ := label
  have quiet : ∀ {t : PProxyServer}, Ordered cfg initial t history order →
      ∃ order', Ordered cfg initial t (history ++ []) order' := fun h =>
    ⟨order, (List.append_nil history).symm ▸ h⟩
  cases l with
  | request seq r draws =>
    simp only [step] at taken
    split at taken
    · next idle =>
      rw [← Option.some.inj taken]
      exact ⟨order, h.request idle keeps.replicas free⟩
    · simp at taken
  | update =>
    obtain ⟨⟨cache, o⟩, moved, rfl⟩ := Option.map_eq_some_iff.mp taken
    rw [show events cfg s ⟨x, .update⟩ = [] from rfl, List.append_nil]
    exact h.updateCache keeps.cached moved
  | lookup =>
    obtain ⟨o, moved, rfl⟩ := Option.map_eq_some_iff.mp taken
    rw [show events cfg s ⟨x, .lookup⟩ = [] from rfl, List.append_nil]
    exact h.processL2 keeps.hosts keeps.apart keeps.cached moved
  | serveGet i =>
    obtain ⟨w, moved, rfl⟩ := Option.map_eq_some_iff.mp taken
    exact quiet (h.serveGet moved)
  | getReply i =>
    obtain ⟨o, moved, rfl⟩ := Option.map_eq_some_iff.mp taken
    exact quiet (h.getCallback moved)
  | crypto n =>
    obtain ⟨w, moved, rfl⟩ := Option.map_eq_some_iff.mp taken
    exact quiet (h.cryptoRound keeps.hosts keeps.lossless moved)
  | servePut i =>
    obtain ⟨⟨kv, w⟩, moved, rfl⟩ := Option.map_eq_some_iff.mp taken
    exact quiet (h.servePut moved)
  | putReply i =>
    obtain ⟨w, moved, rfl⟩ := Option.map_eq_some_iff.mp taken
    exact quiet (h.putCallback moved)
  | respond n =>
    obtain ⟨⟨r, w⟩, moved, rfl⟩ := Option.map_eq_some_iff.mp taken
    have seen : events cfg s ⟨x, .respond n⟩ = [.respond r.seqId.client (r.opCode, r.result)] := by
      simp only [events, moved]
    rw [seen]
    exact h.respond keeps.delivered moved

theorem ordered_reaches (keeps : Keeps cfg) (filled : cfg.Filled initial kv)
    (run : Reaches (clientSystem cfg kv) serves (s, history)) :
    ∃ order, Ordered cfg initial s history order := by
  have all := run.invariant (P := fun p => ∃ order, Ordered cfg initial p.1 p.2 order)
    (fun p init => ?_) fun p label q h free taken => ?_
  · exact all
  · obtain ⟨s, history⟩ := p
    obtain ⟨rfl, rfl⟩ := init
    exact ⟨[], ordered_start filled⟩
  · obtain ⟨order, h⟩ := h
    obtain ⟨s', moved, rfl⟩ := Option.map_eq_some_iff.mp taken
    exact h.step keeps free moved

end PProxyServer
end Shortstack
