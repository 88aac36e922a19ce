import Shortstack.ClientTickets

/-! The keys of the store as registers. A request takes effect when the tail of an L2 worker runs
it: the update cache of the tail's instance holds the value of every key that was put, and the
labels of the others still hold what they held at the start. -/
namespace Shortstack
open ChainModule ChainNet L1Proxy Linearizability Tokens Transition L3Worker

lemma routeFull_column {cfg : L1Config} {key : String} {replica replica' : Int32} {c w c' w' : ℕ}
    (a : routeFull cfg key replica = some (c, w)) (b : routeFull cfg key replica' = some (c', w')) :
    c = c' := by
  simp only [routeFull] at a b
  split at a
  · next n found =>
    simp only [found] at b
    exact (Prod.mk.inj (Option.some.inj a)).1.symm.trans (Prod.mk.inj (Option.some.inj b)).1
  · simp at a

namespace Pipeline
variable (cfg : PipelineConfig) (initial : String)

/-- The options under which values are kept: labels of different replicas are different, they
hold one plaintext at the start, and values are cached. -/
structure Keeping : Prop where
  cached : ∀ c w, (cfg.l2 c w).updateCacheEnabled = true
  injective : ∀ c w c' w' key replica key' replica' l,
    Ingest.Good cfg.toIngestConfig key replica → Ingest.Good cfg.toIngestConfig key' replica' →
    (cfg.l2 c w).replicaToLabel.lookup (key ++ toString replica) = some l →
    (cfg.l2 c' w').replicaToLabel.lookup (key' ++ toString replica') = some l →
      key = key' ∧ replica = replica'
  lossless : cfg.l3.Lossless
  stored : ∀ n l c, cfg.initialKv n l = some c → cfg.l3.plaintext c = initial

/-- The way of the accesses to a replica. -/
structure Lane (key : String) (replica : Int32) (c w l : ℕ) (y : ℕ × ℕ) : Prop where
  good : Ingest.Good cfg.toIngestConfig key replica
  real : key ≠ cfg.l1.dummyKey
  worker : routeFull cfg.l1 key replica = some (c, w)
  label : (cfg.l2 c w).replicaToLabel.lookup (key ++ toString replica) = some l
  target : L2Proxy.routeL3 (L2Proxy.l3Columns (cfg.l2 c w)) (toString l) = some y

/-- The values of the registers after operations in this order. -/
def value (order : List (RequestId × ClientRequest)) : String → String :=
  (registers initial).after (registers initial).init order

/-- What an access has been told when it was sent to an L3 worker. -/
structure Sent (order : List (RequestId × ClientRequest)) (x : L2Target) (y : ℕ × ℕ) (a : Access)
    (key : String) (replica : Int32) (c w l : ℕ) : Prop where
  good : Ingest.Good cfg.toIngestConfig key replica
  found : (cfg.l2 c w).replicaToLabel.lookup (key ++ toString replica) = some l
  label : a.label = toString l
  source : x = l2Tail cfg c w
  target : L2Proxy.routeL3 (L2Proxy.l3Columns (cfg.l2 c w)) (toString l) = some y
  worker : key ≠ cfg.l1.dummyKey → routeFull cfg.l1 key replica = some (c, w)
  told : a.client.1 ≠ L1Proxy.fakeClientId → key ≠ cfg.l1.dummyKey ∧
    a.answer initial ∈ (registers initial).outputs (registers initial).init order

def Under (order : List (RequestId × ClientRequest)) (x : L2Target) (y : ℕ × ℕ) (a : Access) :
    Prop :=
  ∃ key replica c w l, Sent cfg initial order x y a key replica c w l

/-- The entry a cache holds for a key with this value. -/
def Caches (cache : UpdateCache) (key : String) (n : ℤ) (v : String) : Prop :=
  match cache.lookup key with
  | none => v = initial
  | some e => e = ⟨v, List.replicate n.toNat true⟩ ∧ v ≠ ""

/-- The requests took effect in this order, and everything under way respects it. -/
structure Served (s : Pipeline) (history : List ClientEvent)
    (order : List (RequestId × ClientRequest)) : Prop where
  lin : Linearizes (registers initial) history order
  ran : ∀ i, i ∈ order.map Prod.fst ↔ ∃ c w, ∃ op ∈ tailRan cfg s c w,
    op.ticket.clientId ≠ L1Proxy.fakeClientId ∧ (op.ticket.clientId, op.ticket.clientSeqNo) = i
  cache : ∀ key replica c w n, key ≠ cfg.l1.dummyKey → routeFull cfg.l1 key replica = some (c, w) →
    cfg.l1.keyToNumberOfReplicas.lookup key = some n →
    Caches initial (tailCache cfg s c) key n (value initial order key)
  carried : Carried (Under cfg initial order)
    (fun r => r.told ∈ (registers initial).outputs (registers initial).init order) s
  truth : ∀ key replica c w l y, Lane cfg key replica c w l y →
    Truthful cfg.l3 initial (toString l) ((tailCache cfg s c).lookup key = none)
      (s.kv (cfg.server y.1)) (s.l3 y) (s.link (l2Tail cfg c w) y)

variable {cfg initial} {s s' : Pipeline} {history : List ClientEvent}
  {order : List (RequestId × ClientRequest)} {x : L2Target} {y : ℕ × ℕ} {a : Access} {key : String}
  {replica : Int32} {c w l : ℕ}

lemma Sent.lane (keeping : Keeping cfg initial) (h : Sent cfg initial order x y a key replica c w l)
    {key' : String} {replica' : Int32} {c' w' l' : ℕ} {y' : ℕ × ℕ}
    (lane : Lane cfg key' replica' c' w' l' y') (same : a.label = toString l') :
    key = key' ∧ replica = replica' ∧ x = l2Tail cfg c' w' ∧ y = y' := by
  obtain rfl := Decimal.toString_injective (h.label.symm.trans same)
  obtain ⟨rfl, rfl⟩ := keeping.injective c w c' w' key replica key' replica' l h.good lane.good h.found
    lane.label
  obtain ⟨rfl, rfl⟩ := Prod.mk.inj (Option.some.inj ((h.worker lane.real).symm.trans lane.worker))
  exact ⟨rfl, rfl, h.source, Option.some.inj (h.target.symm.trans lane.target)⟩

lemma Sent.real (h : Sent cfg initial order x y a key replica c w l)
    (client : a.client.1 ≠ L1Proxy.fakeClientId) : Lane cfg key replica c w l y :=
  ⟨h.good, (h.told client).1, h.worker (h.told client).1, h.found, h.target⟩

lemma Sent.mono (h : Sent cfg initial order x y a key replica c w l)
    (more : List (RequestId × ClientRequest)) :
    Sent cfg initial (order ++ more) x y a key replica c w l := by
  refine ⟨h.good, h.found, h.label, h.source, h.target, h.worker, fun client => ?_⟩
  rw [Object.outputs_append]
  exact ⟨(h.told client).1, List.mem_append_left _ (h.told client).2⟩

section Behind
variable {history' : List ClientEvent}

lemma Served.still (h : Served cfg initial s history order)
    (lin : Linearizes (registers initial) history' order) (same : Still cfg s s') :
    Served cfg initial s' history' order where
  lin := lin
  ran i := by simp only [same.ran, h.ran]
  cache key replica c w n := by
    rw [same.cache]
    exact h.cache key replica c w n
  carried := h.carried.congr same.link same.l3
  truth key replica c w l y lane := by
    rw [same.cache, same.kv, same.l3, same.link]
    exact h.truth key replica c w l y lane

lemma Served.accept (keeping : Keeping cfg initial) (h : Served cfg initial s history order)
    (lin : Linearizes (registers initial) history' order) {clock : Option Int64} {x : L2Target}
    {y : ℕ × ℕ} {op : L3Operation} {rest : List L3Operation} (popped : s.link x y = op :: rest)
    (returned : ((s.l3 y).asyncOperation cfg.l3 clock op).status = .returned)
    (ingest : s'.ingest = s.ingest) (link : s'.link = s.setLink x y rest)
    (l3 : s'.l3 = Function.update s.l3 y ((s.l3 y).asyncOperation cfg.l3 clock op).state)
    (kv : s'.kv = s.kv) : Served cfg initial s' history' order := by
  have cache : ∀ c, tailCache cfg s' c = tailCache cfg s c := fun c => by rw [tailCache, ingest]; rfl
  have ran : ∀ c w, tailRan cfg s' c w = tailRan cfg s c w := fun c w => by rw [tailRan, ingest]; rfl
  obtain ⟨key', replica', c', w', l', sent⟩ := h.carried.sent x y op (by simp [popped])
  refine ⟨lin, fun i => by simp only [ran, h.ran], fun key replica c w n => ?_,
    h.carried.accept popped returned link l3, fun key replica c w l y' lane => ?_⟩
  · rw [cache]
    exact h.cache key replica c w n
  · have truth := h.truth key replica c w l y' lane
    rw [cache, kv, l3, link]
    rcases eq_or_ne y' y with rfl | other
    · rw [Function.update_self]
      rcases eq_or_ne (l2Tail cfg c w) x with rfl | away
      · rw [show s.setLink (l2Tail cfg c w) y' rest (l2Tail cfg c w) y' = rest from if_pos ⟨rfl, rfl⟩]
        exact truth.accept popped returned
      · rw [show s.setLink x y' rest (l2Tail cfg c w) y' = s.link (l2Tail cfg c w) y' from
          if_neg fun same => away same.1]
        refine truth.acceptOther (fun same => ?_) returned
        exact away (sent.lane keeping lane same).2.2.1.symm
    · rw [Function.update_of_ne other,
        show s.setLink x y rest (l2Tail cfg c w) y' = s.link (l2Tail cfg c w) y' from
          if_neg fun same => other same.2]
      exact truth

lemma Served.serve (keeping : Keeping cfg initial) (h : Served cfg initial s history order)
    (lin : Linearizes (registers initial) history' order) {y : ℕ × ℕ} {worker : L3Worker} {kv : Kv}
    (served : Serves cfg.l3 (s.kv (cfg.server y.1)) (s.l3 y) kv worker)
    (ingest : s'.ingest = s.ingest) (link : s'.link = s.link)
    (l3 : s'.l3 = Function.update s.l3 y worker)
    (stored : s'.kv = Function.update s.kv (cfg.server y.1) kv) :
    Served cfg initial s' history' order := by
  have cache : ∀ c, tailCache cfg s' c = tailCache cfg s c := fun c => by rw [tailCache, ingest]; rfl
  have ran : ∀ c w, tailRan cfg s' c w = tailRan cfg s c w := fun c w => by rw [tailRan, ingest]; rfl
  refine ⟨lin, fun i => by simp only [ran, h.ran], fun key replica c w n => ?_,
    h.carried.serve served link l3 fun clock e he x carried client => ?_,
    fun key replica c w l y' lane => ?_⟩
  · rw [cache]
    exact h.cache key replica c w n
  · obtain ⟨key, replica, c, w, l, sent⟩ := carried
    rw [(h.truth key replica c w l y (sent.real client)).told he sent.label]
    exact (sent.told client).2
  · have truth := h.truth key replica c w l y' lane
    rw [cache, l3, link, stored]
    rcases eq_or_ne y' y with rfl | other
    · rw [Function.update_self, Function.update_self]
      exact truth.serve keeping.lossless served
    · rw [Function.update_of_ne other]
      refine truth.congr_kv ?_
      rcases eq_or_ne (cfg.server y'.1) (cfg.server y.1) with same | apart
      · rw [same, Function.update_self]
        refine served.kv_eq fun a mem here => ?_
        obtain ⟨_, _, _, _, _, _, sent⟩ := h.carried.held y a mem
        exact other (sent.lane keeping lane here).2.2.2.symm
      · rw [Function.update_of_ne apart]

end Behind

section Run
variable {clock : Option Int64} {op : ChainOp} {p : L2Operation} {history' : List ClientEvent}
  {more : List (RequestId × ClientRequest)}

/-- What a tail that runs a command adds to the order: nothing for padding, or the request. -/
structure Effect (cfg : PipelineConfig) (initial : String) (history' : List ClientEvent)
    (order more : List (RequestId × ClientRequest)) (op : ChainOp) (p : L2Operation) : Prop where
  lin : Linearizes (registers initial) history' (order ++ more)
  ran : ∀ i, i ∈ more.map Prod.fst ↔
    op.ticket.clientId ≠ L1Proxy.fakeClientId ∧ (op.ticket.clientId, op.ticket.clientSeqNo) = i
  values : ∀ key, value initial (order ++ more) key =
    if p.value ≠ "" ∧ key = p.key then p.value else value initial order key
  real : op.ticket.clientId ≠ L1Proxy.fakeClientId ∨ p.value ≠ "" → p.key ≠ cfg.l1.dummyKey
  told : op.ticket.clientId ≠ L1Proxy.fakeClientId →
    ((op.ticket.clientId, op.ticket.clientSeqNo),
      if p.value == "" then (OpCode.get, value initial (order ++ more) p.key) else (.put, "")) ∈
        (registers initial).outputs (registers initial).init (order ++ more)

lemma Served.effect (shape : Shaped cfg) (h : Served cfg initial s history order)
    (lin : Linearizes (registers initial) history' order)
    (submitted : Submitted cfg s' history')
    (regular : ∀ x ∈ invocations history', x.2.Regular cfg.l1.dummyKey)
    (runs : TailRuns cfg s s' clock c w y op p l) :
    ∃ more, Effect cfg initial history' order more op p := by
  have ticket := runs.ticket
  rcases submitted.request (runs.mem_head shape submitted) with ⟨key, pad⟩ | ⟨⟨i, r⟩, invoked, asked⟩
  · rw [ticket, Ticket.pad, Ticket.mk.injEq] at pad
    obtain ⟨client, -, -, value⟩ := pad
    have fake : op.ticket.clientId = L1Proxy.fakeClientId := by
      rw [ticket]
      exact client
    refine ⟨[], ?_, fun i => ?_, fun key => ?_, ?_, fun real => absurd fake real⟩
    · rwa [List.append_nil]
    · simp [fake]
    · rw [List.append_nil, if_neg fun put => put.1 value]
    · rintro (real | put)
      · exact absurd fake real
      · exact absurd value put
  · have id : (op.ticket.clientId, op.ticket.clientSeqNo) = i := by
      rw [← asked]
      rfl
    have client := submitted.real _ invoked
    obtain ⟨kind, real⟩ := regular _ invoked
    have client' : op.ticket.clientId ≠ L1Proxy.fakeClientId := by
      rw [← asked]
      exact client
    have key : r.key = p.key := by
      have := congrArg Ticket.key asked
      rwa [ticket] at this
    have value : r.value = p.value := by
      have := congrArg Ticket.value asked
      rwa [ticket] at this
    have new : i ∉ order.map Prod.fst := by
      intro mem
      obtain ⟨c', w', op', ran, -, same⟩ := (h.ran i).mp mem
      exact runs.fresh shape submitted client' ran (same.trans id.symm)
    refine ⟨[(i, r)], lin.effect (mem_invocations.mp invoked) new, fun j => ?_, fun k => ?_, fun _ => ?_,
      fun _ => ?_⟩
    · rw [id]
      simp [client', eq_comm]
    · rw [Pipeline.value, Object.after_concat, ← value, ← key]
      cases r with
      | get k' => exact (if_neg fun put => put.1 rfl).symm
      | put k' v =>
        have put : v ≠ "" := by simpa [ClientRequest.effective] using kind
        simp only [registers, ClientRequest.value, ClientRequest.key, ne_eq, put, not_false_eq_true,
          true_and, Function.update_apply]
        rfl
    · rw [← key]
      exact real
    · rw [id, Object.outputs_concat, List.mem_append, List.mem_singleton]
      refine .inr (congrArg (Prod.mk i) ?_)
      rw [Pipeline.value, Object.after_concat, ← value, ← key]
      cases r with
      | get k' => rfl
      | put k' v =>
        have put : v ≠ "" := by simpa [ClientRequest.effective] using kind
        simp [registers, ClientRequest.value, put]

lemma TailRuns.lookup (keeping : Keeping cfg initial)
    (runs : TailRuns cfg s s' clock c w y op p l) (c' : ℕ) (key : String) :
    (tailCache cfg s' c').lookup key = if c' = c ∧ p.value ≠ "" ∧ key = p.key then
      some ⟨p.value, List.replicate (L2Proxy.numberOfReplicas (cfg.l2 c w) p.key).toNat true⟩
    else (tailCache cfg s c').lookup key := by
  obtain ⟨rest, parsed⟩ := runs.parsed
  rw [runs.cache]
  rcases eq_or_ne c' c with rfl | other
  · rw [if_pos rfl, L2Column.lookup_afterPut, L2Column.puts_singleton]
    simp only [L2Proxy.cached, parsed, keeping.cached, Bool.true_and, true_and, bne_iff_ne]
    rcases eq_or_ne p.value "" with none | put
    · simp [none]
    · rcases eq_or_ne key p.key with rfl | away
      · simp [put]
      · simp [put, away, away.symm]
  · rw [if_neg other, if_neg fun here => other here.1]

lemma Served.run (shape : Shaped cfg) (keeping : Keeping cfg initial)
    (h : Served cfg initial s history order) (submitted : Submitted cfg s' history')
    (runs : TailRuns cfg s s' clock c w y op p l)
    (effect : Effect cfg initial history' order more op p) :
    Served cfg initial s' history' (order ++ more) := by
  have ticket := runs.ticket
  have lookup := runs.lookup keeping
  have routed : p.key ≠ cfg.l1.dummyKey → routeFull cfg.l1 p.key p.replica = some (c, w) := by
    obtain ⟨rest, parsed⟩ := runs.parsed
    exact submitted.routed.ran c w op (runs.mem_head shape submitted) p rest parsed
  have cache : ∀ key replica c w n, key ≠ cfg.l1.dummyKey →
      routeFull cfg.l1 key replica = some (c, w) → cfg.l1.keyToNumberOfReplicas.lookup key = some n →
      Caches initial (tailCache cfg s' c) key n (value initial (order ++ more) key) := by
    intro key replica c' w' n real route counted
    rw [Caches, lookup, effect.values]
    rcases Classical.em (p.value ≠ "" ∧ key = p.key) with ⟨put, rfl⟩ | other
    · rw [if_pos ⟨(routeFull_column (routed real) route).symm, put, rfl⟩, if_pos ⟨put, rfl⟩]
      refine ⟨?_, put⟩
      rw [L2Proxy.numberOfReplicas, shape.ingest.tables, counted]
      rfl
    · rw [if_neg fun here => other here.2, if_neg other]
      exact h.cache key replica c' w' n real route counted
  have untouched : ∀ c' key, (tailCache cfg s' c').lookup key = none →
      (tailCache cfg s c').lookup key = none := by
    intro c' key none
    rw [lookup] at none
    split at none
    · simp at none
    · exact none
  -- what the tail forwards is the value of the register, or nothing where it is the initial one
  have forwards : p.key ≠ cfg.l1.dummyKey →
      let v := L2Column.forwardValue (cfg.l2 c w) (tailCache cfg s' c) p
      (v = "" ↔ (tailCache cfg s' c).lookup p.key = none) ∧
        (if v != "" then v else initial) = value initial (order ++ more) p.key := by
    intro real
    obtain ⟨n, counted, low, high⟩ := runs.good
    have held := cache p.key p.replica c w n real (routed real) counted
    dsimp only
    rw [L2Column.forwardValue, if_pos (keeping.cached c w), UpdateCache.checkForUpdateImmutable]
    rw [Caches] at held
    cases found : (tailCache cfg s' c).lookup p.key with
    | none =>
      simp only [found] at held
      simp [held]
    | some e =>
      simp only [found] at held
      obtain ⟨rfl, put⟩ := held
      have bit : (List.replicate n.toNat true).getD p.replica.toInt.toNat false = true := by
        rw [List.getD_eq_getElem _ _ (by rw [List.length_replicate]; omega), List.getElem_replicate]
      simp only [bit]
      simp [put]
  set new := L2Proxy.l3Operation (cfg.l2 c w) clock (tailCache cfg s' c) op.seq p l true with hnew
  have client : new.access.client = (op.ticket.clientId, op.ticket.clientSeqNo) := by
    rw [ticket, hnew, l3Operation_access]
  have sent : Sent cfg initial (order ++ more) (l2Tail cfg c w) y new.access p.key p.replica c w l := by
    refine ⟨runs.good, runs.labelled, rfl, rfl, runs.route, routed, fun real => ?_⟩
    rw [client] at real
    have key := effect.real (.inl real)
    refine ⟨key, ?_⟩
    have told := effect.told real
    rw [← (forwards key).2, ← client] at told
    exact told
  have carried : Carried (Under cfg initial (order ++ more)) (fun r =>
      r.told ∈ (registers initial).outputs (registers initial).init (order ++ more)) s := by
    refine h.carried.mono ?_ fun r told => ?_
    · rintro x y' a ⟨key, replica, c', w', l', before⟩
      exact ⟨key, replica, c', w', l', before.mono more⟩
    · rw [Object.outputs_append]
      exact List.mem_append_left _ told
  refine ⟨effect.lin, fun i => ?_, cache, carried.run runs ⟨p.key, p.replica, c, w, l, sent⟩,
    fun key replica c' w' l' y' lane => ?_⟩
  · rw [List.map_append, List.mem_append, h.ran, effect.ran]
    constructor
    · rintro (⟨c', w', op', old, real, rfl⟩ | ⟨real, rfl⟩)
      · refine ⟨c', w', op', ?_, real, rfl⟩
        rw [runs.ran]
        split
        · next here =>
          rw [here.1, here.2] at old
          exact List.mem_append_left _ old
        · exact old
      · refine ⟨c, w, op, ?_, real, rfl⟩
        rw [runs.ran, if_pos ⟨rfl, rfl⟩]
        exact List.mem_append_right _ List.mem_cons_self
    · rintro ⟨c', w', op', ran, real, rfl⟩
      rw [runs.ran] at ran
      split at ran
      · rcases List.mem_append.mp ran with old | here
        · exact .inl ⟨c, w, op', old, real, rfl⟩
        · obtain rfl := List.mem_singleton.mp here
          exact .inr ⟨real, rfl⟩
      · exact .inl ⟨c', w', op', ran, real, rfl⟩
  · have truth := h.truth key replica c' w' l' y' lane
    rw [runs.kv, runs.l3, runs.link]
    split
    · next here =>
      rw [here.1, here.2] at truth ⊢
      have same : new.label = toString l' → p.key = key ∧ c = c' := by
        intro label
        obtain ⟨key, -, source, -⟩ := sent.lane keeping lane label
        exact ⟨key, congrArg L2Target.column source⟩
      refine truth.arrive (untouched c' key) (fun label empty => ?_) fun label none => ?_
      · obtain ⟨rfl, rfl⟩ := same label
        exact untouched c _ ((forwards lane.real).1.mp empty)
      · obtain ⟨rfl, rfl⟩ := same label
        exact (forwards lane.real).1.mpr none
    · exact truth.touch (untouched c' key)

end Run

end Pipeline
end Shortstack
