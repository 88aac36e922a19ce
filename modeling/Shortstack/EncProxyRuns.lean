import Shortstack.EncProxyItems
import Shortstack.KeyValues

/-! Runs of the encryption proxy. A request takes effect when the server carries out the command
it is in, and the answers are those of one register for each key. -/
namespace Shortstack
open Linearizability Transition Tokens KeyValues

namespace EncProxy
variable (cfg : EncProxyConfig) (initial : String → String) (history : List ClientEvent)
  (order : List (RequestId × ClientRequest))

/-- What is true of an operation in its place. -/
def Sound : EncProxyItem → Prop
  | .queued op => op.value ≠ "" ∧ Open history order op.seqId.client op.label op.value
  | .write e => e.op.value ≠ "" ∧ Open history order e.op.seqId.client e.op.label e.op.value ∧
    plaintext cfg e.cipher = e.op.value
  | .written e => (e.op.seqId.client, (OpCode.put, "")) ∈ (keyValues initial).outputs initial order
  | .read op => Open history order op.seqId.client op.label ""
  | .replied e => ∀ c ∈ e.2,
    (e.1.seqId.client, (OpCode.get, plaintext cfg c)) ∈ (keyValues initial).outputs initial order
  | .cipher e => (e.1.seqId.client, (OpCode.get, plaintext cfg e.2)) ∈
    (keyValues initial).outputs initial order
  | .response r => (r.seqId.client, (r.opCode, r.result)) ∈ (keyValues initial).outputs initial order

/-- The store holds what was put last. -/
def Stores (kv : Kv) (values : String → String) : Prop :=
  ∀ key, ∀ c ∈ kv key, plaintext cfg c = values key

/-- Decryption gives back what was encrypted. -/
def Lossless : Prop := cfg.encryptionEnabled = true → ∀ text, cfg.decrypt (cfg.encrypt text) = text

variable {cfg initial history order} {history' : List ClientEvent}
  {order' : List (RequestId × ClientRequest)} {new : RequestId → Prop} {kv : Kv}

lemma Sound.extend (ext : Extends initial new history order history' order') {it : EncProxyItem}
    (h : Sound cfg initial history order it) (other : ¬ new it.client) :
    Sound cfg initial history' order' it := by
  cases it with
  | queued op => exact ⟨h.1, Open.extend ext h.2 other⟩
  | write e => exact ⟨h.1, Open.extend ext h.2.1 other, h.2.2⟩
  | written e => exact ext.outputs _ h
  | read op => exact Open.extend ext h other
  | replied e => exact fun c mem => ext.outputs _ (h c mem)
  | cipher e => exact ext.outputs _ h
  | response r => exact ext.outputs _ h

lemma Stores.foldl {writes : List L3Write} {batch : List (RequestId × ClientRequest)}
    {values : String → String} (h : Stores cfg kv values)
    (same : (batch.map fun x => (x.1, x.2.key, x.2.value)) =
      writes.map fun e => (e.op.seqId.client, e.op.label, e.op.value))
    (encrypted : ∀ e ∈ writes, e.op.value ≠ "" ∧ plaintext cfg e.cipher = e.op.value) :
    Stores cfg (writes.foldl (fun kv e => Function.update kv e.op.label (some e.cipher)) kv)
      ((keyValues initial).after values batch) := by
  induction writes generalizing kv values batch with
  | nil =>
    obtain rfl : batch = [] := by simpa using same
    exact h
  | cons e writes ih =>
    cases batch with
    | nil => simp at same
    | cons x batch =>
      simp only [List.map_cons, List.cons.injEq, Prod.mk.injEq] at same
      obtain ⟨⟨-, key, value⟩, rest⟩ := same
      obtain ⟨some', plain⟩ := encrypted e List.mem_cons_self
      have step : (keyValues initial).after values (x :: batch) =
          (keyValues initial).after ((keyValues initial).step values x.2).1 batch := rfl
      rw [step, keyValues_write (value ▸ some'), key, value]
      refine ih (fun k c held => ?_) rest fun e' mem => encrypted e' (List.mem_cons_of_mem e mem)
      dsimp only at held ⊢
      rw [Function.update_apply] at held ⊢
      split at held
      · next here =>
        obtain rfl := Option.some.inj held
        rw [if_pos here]
        exact plain
      · next other =>
        rw [if_neg other]
        exact h k c held

end EncProxy

namespace EncProxyServer
open EncProxy

def pools (s : EncProxyServer) (x : ℕ) : Multiset EncProxyItem := (s.workers x).items

/-- There is an order in which the requests took effect, and everything on its way agrees
with it. -/
structure Ordered (cfg : EncProxyConfig) (initial : String → String) (s : EncProxyServer)
    (history : List ClientEvent) (order : List (RequestId × ClientRequest)) : Prop where
  connected : ∀ x, (s.workers x).Connected
  lin : Linearizes (keyValues initial) history order
  stored : Stores cfg s.kv ((keyValues initial).after initial order)
  sound : ∀ x, ∀ it ∈ s.pools x, Sound cfg initial history order it
  numbered : ((invocations history).map Prod.fst).Nodup
  single : ∀ j : RequestId,
    AtMost (copies EncProxyItem.client s.pools (timesAnswered history) j) (timesInvoked history j)

variable {cfg : EncProxyConfig} {initial : String → String} {s s' : EncProxyServer}
  {history history' : List ClientEvent} {order order' : List (RequestId × ClientRequest)} {x : ℕ}
  {w : EncProxyWorker} {kv : Kv} {gone more : Multiset EncProxyItem} {label : EncProxyLabel}

lemma pools_update (x : ℕ) (w : EncProxyWorker) :
    pools { workers := Function.update s.workers x w, kv := kv } =
      Function.update s.pools x w.items :=
  Function.comp_update EncProxyWorker.items s.workers x w

lemma Ordered.few (h : Ordered cfg initial s history order) (j : RequestId) :
    AtMost (copies EncProxyItem.client s.pools (timesAnswered history) j) 1 :=
  (h.single j).mono (fun _ => le_rfl) (timesInvoked_le_one h.numbered)

lemma Ordered.change (h : Ordered cfg initial s history order) {new : RequestId → Prop}
    (connected : w.Connected) (trade : Trade (s.pools x) w.items gone more)
    (lin : Linearizes (keyValues initial) history' order')
    (ext : Extends initial new history order history' order')
    (given : ∀ i, new i → ∃ g ∈ gone, g.client = i)
    (stored : Stores cfg kv ((keyValues initial).after initial order'))
    (sound : ∀ it ∈ more, Sound cfg initial history' order' it)
    (numbered : ((invocations history').map Prod.fst).Nodup)
    (balance : ∀ j : RequestId, ∃ k, timesInvoked history' j = timesInvoked history j + k ∧
      (more.countP fun it => it.client = j) + timesAnswered history' j ≤
        (gone.countP fun it => it.client = j) + timesAnswered history j + k) :
    Ordered cfg initial { workers := Function.update s.workers x w, kv := kv } history' order' := by
  have all := forall_of_trade h.sound trade sound
    (fun it old other => Sound.extend ext old other) fun i fresh => ⟨h.few i, given i fresh⟩
  refine ⟨fun y => ?_, lin, stored, fun y => ?_, numbered, fun j => ?_⟩
  · dsimp only
    rw [Function.update_apply]
    split
    · exact connected
    · exact h.connected y
  · rw [pools_update]
    exact all y
  · obtain ⟨k, asked, moved⟩ := balance j
    rw [pools_update, asked]
    exact (h.single j).trade trade moved

lemma Ordered.pass (h : Ordered cfg initial s history order) (connected : w.Connected)
    (trade : Trade (s.pools x) w.items gone more)
    (sound : ∀ it ∈ more, Sound cfg initial history order it)
    (fewer : ∀ j : RequestId,
      (more.countP fun it => it.client = j) ≤ gone.countP fun it => it.client = j) :
    Ordered cfg initial (s.withWorker x w) history order :=
  h.change connected trade h.lin extends_refl (fun _ none => none.elim) h.stored sound h.numbered
    fun j => ⟨0, rfl, Nat.add_le_add_right (fewer j) _⟩

lemma Ordered.given_up (h : Ordered cfg initial s history order)
    (trade : Trade (s.pools x) w.items gone more) :
    ∀ it ∈ gone, Sound cfg initial history order it := by
  obtain ⟨rest, before, -⟩ := trade
  exact fun it mem => h.sound x it (before ▸ Multiset.mem_add.mpr (.inr mem))

lemma Ordered.request (h : Ordered cfg initial s history order) {seq : SequenceId} {r : ClientRequest}
    (fresh : seq.client ∉ (invocations history).map Prod.fst) :
    Ordered cfg initial (s.withWorker x (processOp cfg (s.workers x) (r.operation seq)))
      (history ++ [.invoke seq.client r]) order := by
  have fresh' : ∀ r', .invoke seq.client r' ∉ history := fun r' mem =>
    fresh (List.mem_map.mpr ⟨_, mem_invocations.mpr mem, rfl⟩)
  obtain ⟨connected, it, joined, who, place⟩ :=
    @items_processOp cfg _ (h.connected x) (r.operation seq)
  rw [ClientRequest.operation_seqId] at who place
  rw [ClientRequest.operation_key, ClientRequest.operation_value] at place
  have opened : Open (history ++ [.invoke seq.client r]) order seq.client r.key r.value := by
    refine ⟨fun mem => ?_, r, by simp, rfl, rfl⟩
    obtain ⟨z, hz, same⟩ := List.mem_map.mp mem
    exact fresh' z.2 (same ▸ h.lin.invoked z hz)
  have trade : Trade (s.pools x) (processOp cfg (s.workers x) (r.operation seq)).items 0 {it} :=
    .gain joined
  refine h.change connected trade (h.lin.invoke fresh' r)
    (extends_record fun i r' same r'' => ?_) (fun _ none => none.elim) h.stored (fun it' mem => ?_) ?_
    fun j => ⟨_, timesInvoked_invoke .., ?_⟩
  · rw [← (Event.invoke.inj same).1]
    exact fresh' r''
  · rw [Multiset.mem_singleton.mp mem]
    rcases place with ⟨some', rfl⟩ | ⟨none, rfl⟩
    · exact ⟨some', opened⟩
    · rw [none] at opened
      exact opened
  · rw [invocations_append, List.map_append, List.nodup_append]
    refine ⟨h.numbered, List.nodup_singleton _, fun a mem b new => ?_⟩
    rintro rfl
    rw [List.mem_singleton.mp new] at mem
    exact fresh mem
  · rw [timesAnswered_invoke, ← Multiset.cons_zero, Multiset.countP_cons, Multiset.countP_zero]
    have same : it.client = seq.client := congrArg SequenceId.client who
    rw [same]
    omega

lemma Ordered.serveGet (h : Ordered cfg initial s history order)
    (taken : EncProxy.serveGet s.kv (s.workers x) = some w) :
    ∃ order', Ordered cfg initial (s.withWorker x w) history order' := by
  obtain ⟨connected, ops, trade⟩ := trade_serveGet (h.connected x) taken
  have given := h.given_up trade
  obtain ⟨batch, same, invoked⟩ := Open.requests (l := ops) (fun op => op.seqId.client) L3Operation.label
    (fun _ => "") fun op mem => given (.read op) (Multiset.mem_coe.mpr (List.mem_map_of_mem mem))
  have ids : batch.map Prod.fst = ops.map fun op => op.seqId.client := by
    simpa [Function.comp_def] using congrArg (List.map Prod.fst) same
  have once : (batch.map Prod.fst).Nodup := ids ▸
    nodup_of_trade EncProxyItem.read h.few trade
  obtain ⟨lin, ext⟩ := effects h.lin invoked once
  have reads : ∀ y ∈ batch, y.2.value = "" := by
    intro y mem
    have image : (y.1, y.2.key, y.2.value) ∈ ops.map fun op => (op.seqId.client, op.label, "") :=
      same ▸ List.mem_map_of_mem
        (f := fun x : RequestId × ClientRequest => (x.1, x.2.key, x.2.value)) mem
    obtain ⟨op, -, eq⟩ := List.mem_map.mp image
    exact (congrArg (fun p => p.2.2) eq).symm
  obtain ⟨kept, outputs⟩ := @outputs_reads _ initial batch reads
    ((keyValues initial).after initial order)
  refine ⟨order ++ batch, h.change connected trade lin ext (fun i mem => ?_) ?_ (fun it mem => ?_)
    h.numbered fun j => ⟨0, rfl, ?_⟩⟩
  · rw [ids] at mem
    obtain ⟨op, hop, rfl⟩ := List.mem_map.mp mem
    exact ⟨.read op, Multiset.mem_coe.mpr (List.mem_map_of_mem hop), rfl⟩
  · rw [Object.after_append, kept]
    exact h.stored
  · obtain ⟨op, hop, rfl⟩ := List.mem_map.mp (Multiset.mem_coe.mp mem)
    intro c held
    have image : (op.seqId.client, op.label, "") ∈
        batch.map fun x : RequestId × ClientRequest => (x.1, x.2.key, x.2.value) :=
      same ▸ List.mem_map_of_mem hop
    obtain ⟨y, hy, eq⟩ := List.mem_map.mp image
    obtain ⟨id, key, -⟩ : y.1 = op.seqId.client ∧ y.2.key = op.label ∧ y.2.value = "" := by
      simpa using eq
    rw [Object.outputs_append, outputs, h.stored op.label c held, ← key, ← id]
    exact List.mem_append_right _ (List.mem_map_of_mem
      (f := fun x => (x.1, OpCode.get, (keyValues initial).after initial order x.2.key)) hy)
  · simp only [Multiset.coe_countP, List.countP_map]
    exact le_rfl

lemma Ordered.servePut (h : Ordered cfg initial s history order)
    (taken : EncProxy.servePut s.kv (s.workers x) = some (kv, w)) :
    ∃ order', Ordered cfg initial { s.withWorker x w with kv := kv } history order' := by
  obtain ⟨connected, writes, rfl, trade⟩ := trade_servePut (h.connected x) taken
  have given : ∀ e ∈ writes, Sound cfg initial history order (.write e) := fun e mem =>
    h.given_up trade _ (Multiset.mem_coe.mpr (List.mem_map_of_mem mem))
  obtain ⟨batch, same, invoked⟩ := Open.requests (l := writes) (fun e => e.op.seqId.client)
    (fun e => e.op.label) (fun e => e.op.value) fun e mem => (given e mem).2.1
  have ids : batch.map Prod.fst = writes.map fun e => e.op.seqId.client := by
    simpa [Function.comp_def] using congrArg (List.map Prod.fst) same
  have once : (batch.map Prod.fst).Nodup := ids ▸
    nodup_of_trade EncProxyItem.write h.few trade
  obtain ⟨lin, ext⟩ := effects h.lin invoked once
  have puts : ∀ y ∈ batch, y.2.value ≠ "" := by
    intro y mem
    have image : (y.1, y.2.key, y.2.value) ∈
        writes.map fun e => (e.op.seqId.client, e.op.label, e.op.value) :=
      same ▸ List.mem_map_of_mem
        (f := fun x : RequestId × ClientRequest => (x.1, x.2.key, x.2.value)) mem
    obtain ⟨e, he, eq⟩ := List.mem_map.mp image
    have value : e.op.value = y.2.value := congrArg (fun p => p.2.2) eq
    exact value ▸ (given e he).1
  refine ⟨order ++ batch, h.change connected trade lin ext (fun i mem => ?_) ?_ (fun it mem => ?_)
    h.numbered fun j => ⟨0, rfl, ?_⟩⟩
  · rw [ids] at mem
    obtain ⟨e, he, rfl⟩ := List.mem_map.mp mem
    exact ⟨.write e, Multiset.mem_coe.mpr (List.mem_map_of_mem he), rfl⟩
  · rw [Object.after_append]
    exact h.stored.foldl same fun e mem => ⟨(given e mem).1, (given e mem).2.2⟩
  · obtain ⟨e, he, rfl⟩ := List.mem_map.mp (Multiset.mem_coe.mp mem)
    have image : e.op.seqId.client ∈ batch.map Prod.fst := by
      rw [ids]
      exact List.mem_map_of_mem (f := fun e : L3Write => e.op.seqId.client) he
    obtain ⟨y, hy, id⟩ := List.mem_map.mp image
    change (e.op.seqId.client, _) ∈ _
    rw [Object.outputs_append, outputs_writes puts, ← id]
    exact List.mem_append_right _ (List.mem_map_of_mem (f := fun x => (x.1, OpCode.put, "")) hy)
  · simp only [Multiset.coe_countP, List.countP_map]
    exact le_rfl

lemma Ordered.respond (delivered : cfg.respDelivery = true) (h : Ordered cfg initial s history order)
    {n : ℕ} {r : ClientResponse} (taken : EncProxy.respond cfg (s.workers x) n = some (r, w)) :
    Ordered cfg initial (s.withWorker x w)
      (history ++ [.respond r.seqId.client (r.opCode, r.result)]) order := by
  obtain ⟨connected, r, trade, rfl⟩ := trade_respond (h.connected x) taken
  rw [if_pos delivered]
  have done := h.given_up trade _ (Multiset.mem_singleton_self _)
  refine h.change connected trade (h.lin.respond done) (extends_record fun i r' same => by simp at same)
    (fun _ none => none.elim) h.stored (fun _ mem => absurd mem (Multiset.notMem_zero _)) ?_
    fun j => ⟨0, timesInvoked_respond .., ?_⟩
  · rw [invocations_append]
    exact (List.append_nil (invocations history)).symm ▸ h.numbered
  · rw [timesAnswered_respond, Multiset.countP_zero, ← Multiset.cons_zero, Multiset.countP_cons,
      Multiset.countP_zero]
    change 0 + (_ + if r.seqId.client = j then 1 else 0) ≤
      0 + (if r.seqId.client = j then 1 else 0) + _ + 0
    omega

theorem Ordered.step (lossless : Lossless cfg) (delivered : cfg.respDelivery = true)
    (h : Ordered cfg initial s history order) (free : proper (s, history) label)
    (taken : step cfg s label = some s') :
    ∃ order', Ordered cfg initial s' (history ++ events cfg s label) order' := by
  obtain ⟨x, l⟩ := label
  have quiet : ∀ {t : EncProxyServer}, Ordered cfg initial t history order →
      ∃ order', Ordered cfg initial t (history ++ []) order' := fun h =>
    ⟨order, (List.append_nil history).symm ▸ h⟩
  cases l with
  | request seq r =>
    rw [← Option.some.inj taken]
    exact ⟨order, h.request free⟩
  | flush =>
    rw [← Option.some.inj taken]
    have same : EncProxyWorker.items (EncProxy.flush (s.workers x)) = s.pools x := items_flush
    have trade : Trade (s.pools x) (EncProxyWorker.items (EncProxy.flush (s.workers x))) 0 0 :=
      same ▸ .refl _
    refine quiet (h.pass ?_ trade
      (fun _ mem => absurd mem (Multiset.notMem_zero _)) fun j => le_rfl)
    exact ⟨ne_nil_of_length (List.length_map _) (h.connected x).reads, (h.connected x).writes⟩
  | encrypt =>
    obtain ⟨w, moved, rfl⟩ := Option.map_eq_some_iff.mp taken
    obtain ⟨connected, batch, trade⟩ := trade_encryptRound (h.connected x) moved
    refine quiet (h.pass connected trade (fun it mem => ?_) fun j => ?_)
    · obtain ⟨op, hop, rfl⟩ := List.mem_map.mp (Multiset.mem_coe.mp mem)
      obtain ⟨some', opened⟩ := h.given_up trade (.queued op)
        (Multiset.mem_coe.mpr (List.mem_map_of_mem hop))
      refine ⟨some', opened, ?_⟩
      simp only [encrypted, plaintext]
      split
      · next enabled => exact lossless enabled _
      · rfl
    · simp only [Multiset.coe_countP, List.countP_map]
      exact le_rfl
  | serveGet =>
    obtain ⟨w, moved, rfl⟩ := Option.map_eq_some_iff.mp taken
    rw [show events cfg s ⟨x, .serveGet⟩ = [] from rfl, List.append_nil]
    exact h.serveGet moved
  | servePut =>
    obtain ⟨⟨kv, w⟩, moved, rfl⟩ := Option.map_eq_some_iff.mp taken
    rw [show events cfg s ⟨x, .servePut⟩ = [] from rfl, List.append_nil]
    exact h.servePut moved
  | getReply =>
    obtain ⟨o, moved, rfl⟩ := Option.map_eq_some_iff.mp taken
    obtain ⟨connected, ⟨batch, trade⟩ | ⟨gone, trade⟩⟩ := trade_getCallback (h.connected x) moved
    · refine quiet (h.pass connected trade (fun it mem => ?_) fun j => ?_)
      · obtain ⟨e, he, rfl⟩ := List.mem_map.mp (Multiset.mem_coe.mp mem)
        exact h.given_up trade (.replied (e.1, some e.2)) (Multiset.mem_coe.mpr (List.mem_map_of_mem
          (f := fun e : L3Operation × String => EncProxyItem.replied (e.1, some e.2)) he)) e.2 rfl
      · simp only [Multiset.coe_countP, List.countP_map]
        exact le_rfl
    · exact quiet (h.pass connected trade (fun _ mem => absurd mem (Multiset.notMem_zero _))
        fun j => by simp)
  | putReply =>
    obtain ⟨w, moved, rfl⟩ := Option.map_eq_some_iff.mp taken
    obtain ⟨connected, writes, trade⟩ := trade_putCallback (h.connected x) moved
    refine quiet (h.pass connected trade (fun it mem => ?_) fun j => ?_)
    · obtain ⟨e, he, rfl⟩ := List.mem_map.mp (Multiset.mem_coe.mp mem)
      exact h.given_up trade (.written e) (Multiset.mem_coe.mpr (List.mem_map_of_mem he))
    · simp only [Multiset.coe_countP, List.countP_map]
      exact le_rfl
  | decrypt =>
    obtain ⟨w, moved, rfl⟩ := Option.map_eq_some_iff.mp taken
    obtain ⟨connected, batch, trade⟩ := trade_decryptRound (h.connected x) moved
    refine quiet (h.pass connected trade (fun it mem => ?_) fun j => ?_)
    · obtain ⟨e, he, rfl⟩ := List.mem_map.mp (Multiset.mem_coe.mp mem)
      exact h.given_up trade (.cipher e) (Multiset.mem_coe.mpr (List.mem_map_of_mem he))
    · simp only [Multiset.coe_countP, List.countP_map]
      exact le_rfl
  | respond n =>
    obtain ⟨⟨r, w⟩, moved, rfl⟩ := Option.map_eq_some_iff.mp taken
    have seen : events cfg s ⟨x, .respond n⟩ = [.respond r.seqId.client (r.opCode, r.result)] := by
      simp only [events, moved]
    rw [seen]
    exact ⟨order, h.respond delivered moved⟩

lemma ordered_start (stored : Stores cfg kv initial) : Ordered cfg initial (start kv) [] [] where
  connected _ := ⟨by simp [start, initState, Connections.connect], by simp [start, initState, Connections.connect]⟩
  lin := linearizes_nil
  stored := stored
  sound x it mem := by
    rw [show (start kv).pools x = 0 from items_initState] at mem
    exact absurd mem (Multiset.notMem_zero _)
  numbered := List.nodup_nil
  single j := by
    refine atMost_zero_iff.mpr fun p => ?_
    cases p with
    | none => rfl
    | some x =>
      change Multiset.countP _ ((start kv).pools x) = 0
      rw [show (start kv).pools x = 0 from items_initState]
      rfl

theorem ordered_reaches (lossless : Lossless cfg) (delivered : cfg.respDelivery = true)
    (stored : Stores cfg kv initial)
    (run : Reaches (clientSystem cfg kv) proper (s, history)) :
    ∃ order, Ordered cfg initial s history order := by
  have all := run.invariant (P := fun p => ∃ order, Ordered cfg initial p.1 p.2 order)
    (fun p init => ?_) fun p label q h free taken => ?_
  · exact all
  · obtain ⟨s, history⟩ := p
    obtain ⟨rfl, rfl⟩ := init
    exact ⟨[], ordered_start stored⟩
  · obtain ⟨order, h⟩ := h
    obtain ⟨s', moved, rfl⟩ := Option.map_eq_some_iff.mp taken
    exact h.step lossless delivered free moved

/-- The answers are those of one register for each key, and no request is answered twice. -/
theorem encrypted_answers_linearize (lossless : Lossless cfg) (delivered : cfg.respDelivery = true)
    (stored : Stores cfg kv initial) (run : Reaches (clientSystem cfg kv) proper (s, history)) :
    Linearizable (keyValues initial) history ∧
      ∀ j, timesAnswered history j ≤ timesInvoked history j := by
  obtain ⟨order, h⟩ := ordered_reaches lossless delivered stored run
  exact ⟨⟨order, h.lin⟩, fun j => (h.single j).le none⟩

instance (x : EncProxyServer × List ClientEvent) (label : EncProxyLabel) : Decidable (proper x label) :=
  match label with
  | ⟨_, .request ..⟩ => inferInstanceAs (Decidable (¬ _))
  | ⟨_, .flush⟩ => inferInstanceAs (Decidable True)
  | ⟨_, .encrypt⟩ => inferInstanceAs (Decidable True)
  | ⟨_, .serveGet⟩ => inferInstanceAs (Decidable True)
  | ⟨_, .servePut⟩ => inferInstanceAs (Decidable True)
  | ⟨_, .getReply⟩ => inferInstanceAs (Decidable True)
  | ⟨_, .putReply⟩ => inferInstanceAs (Decidable True)
  | ⟨_, .decrypt⟩ => inferInstanceAs (Decidable True)
  | ⟨_, .respond _⟩ => inferInstanceAs (Decidable True)

/-- Batches of two requests, encrypted by reversal. -/
def pairs : EncProxyConfig where
  storageBatchSize := 2
  encrypt text := .ofList text.toList.reverse
  decrypt text := .ofList text.toList.reverse

/-- Two puts of one worker are carried out together, and two gets of another one later. -/
def pairsRun : List EncProxyLabel :=
  [⟨0, .request { clientId := 7, clientSeqNo := 0 } (.put "a" "one")⟩,
    ⟨0, .request { clientId := 7, clientSeqNo := 1 } (.put "a" "two")⟩,
    ⟨1, .request { clientId := 8, clientSeqNo := 0 } (.get "a")⟩,
    ⟨0, .encrypt⟩, ⟨0, .servePut⟩, ⟨0, .putReply⟩, ⟨0, .respond 1⟩,
    ⟨1, .request { clientId := 8, clientSeqNo := 1 } (.get "b")⟩,
    ⟨1, .serveGet⟩, ⟨1, .getReply⟩, ⟨1, .decrypt⟩, ⟨1, .respond 0⟩, ⟨1, .respond 0⟩]

def pairsHistory : List ClientEvent :=
  [.invoke (7, 0) (.put "a" "one"), .invoke (7, 1) (.put "a" "two"), .invoke (8, 0) (.get "a"),
    .respond (7, 1) (.put, ""), .invoke (8, 1) (.get "b"), .respond (8, 0) (.get, "two"),
    .respond (8, 1) (.get, "old")]

theorem encrypted_answers_linearize_pairs :
    ∃ s, Reaches (clientSystem pairs fun _ => some "dlo") proper (s, pairsHistory) ∧
      Linearizable (keyValues fun _ => "old") pairsHistory ∧
      ∀ j, timesAnswered pairsHistory j ≤ timesInvoked pairsHistory j := by
  have goes : (replay (clientSystem pairs fun _ => some "dlo") proper (start fun _ => some "dlo", [])
      pairsRun).map Prod.snd = some pairsHistory := by decide +kernel
  have init : (clientSystem pairs fun _ => some "dlo").init (start fun _ => some "dlo", []) := ⟨rfl, rfl⟩
  obtain ⟨s, run⟩ := Reaches.of_replay_record init goes
  refine ⟨s, run, encrypted_answers_linearize (fun _ text => ?_) rfl (fun _ c held => ?_) run⟩
  · simp [pairs]
  · obtain rfl := Option.some.inj held
    decide +kernel

end EncProxyServer
end Shortstack
