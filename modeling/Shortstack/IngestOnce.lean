import Shortstack.IngestSpec

/-! Where an operation of the L1 tier can be in the L2 tier. Every slot on its way or run
comes from a batch of one L1 chain, and a slot that is not for the dummy key only ever
goes to one worker of one column. -/
namespace Shortstack
open ChainModule L1Proxy

/-- An operation as the L2 tier identifies and executes it. -/
structure Slot where
  idx : ℤ
  number : ℤ
  key : String
  replica : Int32
  value : String
  deriving DecidableEq

def L2Operation.slot (op : L2Operation) : Slot :=
  ⟨op.seqId.l1Idx, op.seqId.l1SeqNo, op.key, op.replica, op.value⟩

/-- The slot a command of an L2 chain carries. -/
def chainSlot (op : ChainOp) : Option Slot :=
  match L2Operation.deserialize op.args with
  | .ok (o, _) => some ⟨op.seq.l1Idx, op.seq.l1SeqNo, o.key, o.replica, o.value⟩
  | .error _ => none

lemma chainSlot_argsOf (clock : Option Int64) (op : L2Operation) :
    chainSlot ⟨L2Proxy.timed clock op.seqId, L2Proxy.argsOf clock op⟩ = some op.slot := by
  have parsed := @L2Operation.deserialize_serialize
    { op with seqId := L2Proxy.timed clock op.seqId } [] (by simp [L2Operation.NoField])
  rw [List.append_nil] at parsed
  simp only [chainSlot, L2Proxy.argsOf, parsed, L2Operation.slot, L2Operation.plain,
    L2Proxy.timed_l1Idx, L2Proxy.timed_l1SeqNo]

lemma chainSlot_unnumbered (P : Slot → Prop) :
    ChainNet.Unnumbered fun op => ∀ slot, chainSlot op = some slot → P slot :=
  fun _ _ _ h => h

lemma number_inj {n b b' : ℤ} {j j' : ℕ} (hj : (j : ℤ) < n) (hj' : (j' : ℤ) < n)
    (eq : n * b + j = n * b' + j') : b = b' ∧ j = j' := by
  have multiple : n ∣ ((j' : ℤ) - j) := ⟨b - b', by linarith⟩
  have zero := Int.eq_zero_of_abs_lt_dvd multiple (by rw [abs_lt]; constructor <;> omega)
  have same : n * b = n * b' := by omega
  exact ⟨mul_left_cancel₀ (by omega) same, by omega⟩

namespace L1Proxy

/-- The column and worker of a slot that is not for the dummy key, with all connections. -/
def routeFull (cfg : L1Config) (key : String) (replica : Int32) : Option (ℕ × ℕ) :=
  let id := consistentHash key cfg.l2Workers.length
  match cfg.l2Workers[id]? with
  | some n => some (id, murmurHash64A (key ++ toString replica) 1995 % n)
  | none => none

lemma routeL2_full {cfg : L1Config} {pick : ℤ → ℕ} {clients : List L2Client} {op : L2Operation}
    {c w r : ℕ} (full : clients.map L2Client.numWorkers = cfg.l2Workers)
    (real : op.key ≠ cfg.dummyKey) (route : routeL2 cfg pick clients op = some (c, w, r)) :
    routeFull cfg op.key op.replica = some (c, w) := by
  simp only [routeL2, if_neg real] at route
  simp only [routeFull, ← full, List.length_map, List.getElem?_map]
  split at route
  · next client found =>
    simp only [Option.some.injEq, Prod.mk.injEq] at route
    rw [found, Option.map_some]
    dsimp only
    rw [route.1, route.2.1]
  · simp at route

/-- The random choice of a column is only made for the dummy key. -/
lemma routeL2_congr {cfg : L1Config} {pick pick' : ℤ → ℕ} {clients : List L2Client}
    {op op' : L2Operation} (real : op.key ≠ cfg.dummyKey) (key : op.key = op'.key)
    (replica : op.replica = op'.replica) :
    routeL2 cfg pick clients op = routeL2 cfg pick' clients op' := by
  unfold routeL2
  rw [if_neg real, if_neg (key ▸ real), key, replica]

lemma connect_full {cfg : L1Config} {reach : ℕ → ℕ → Bool} (ok : connectFails cfg reach = false) :
    (connect cfg reach).map L2Client.numWorkers = cfg.l2Workers := by
  simp only [connectFails, decide_eq_false_iff_not, not_lt, connect, List.length_map] at ok
  have whole : cfg.l2Workers.zipIdx.takeWhile (fun c => c.1 == 0 || reach c.2 0) =
      cfg.l2Workers.zipIdx := by
    refine (List.takeWhile_prefix _).eq_of_length_le ?_
    rwa [List.length_zipIdx]
  rw [connect, whole, List.map_map]
  exact List.zipIdx_map_fst 0 cfg.l2Workers

end L1Proxy

namespace Ingest
variable {cfg : IngestConfig} {s t : Ingest}

/-- The slot is on its way to a worker of a column, or in its chain, or was run there. -/
inductive Occurs (s : Ingest) (c w : ℕ) (slot : Slot) : Prop
  | link {k row r op} (mem : op ∈ s.link k row ⟨c, w, r⟩) (eq : op.slot = slot)
  | ran {i op} (mem : op ∈ (((s.l2 c).net w).node i).ran) (eq : chainSlot op = some slot)
  | chain {i j op} (mem : op ∈ ((s.l2 c).net w).link i j) (eq : chainSlot op = some slot)

/-- The slot belongs to a batch of an L1 chain, which all its live replicas have run. -/
structure Origin (cfg : IngestConfig) (s : Ingest) (slot : Slot) (k : ℕ) (op : ChainOp) (j : ℕ)
    (o : L2Operation) : Prop where
  idx : slot.idx = k
  ran : op ∈ ((s.l1 k).node 0).ran
  batch : (batchOf cfg.l1 op.args)[j]? = some o
  number : slot.number = cfg.l1.securityBatchSize * op.seq.serverSeqNo + j
  content : slot.key = o.key ∧ slot.replica = o.replica ∧ slot.value = o.value
  known : ∀ i, (s.l1 k).alive i = true →
    op.seq.serverSeqNo ≤ ((s.l1 k).node i).chainSeqNo

structure Once (cfg : IngestConfig) (s : Ingest) : Prop where
  l1 : ∀ k, ChainNet.Inv False (s.l1 k)
  l2 : ∀ c w, ChainNet.Inv False ((s.l2 c).net w)
  within : ∀ k i, (s.l1 k).alive i = true → k < cfg.l1Workers.sum ∧ i < cfg.l1Rows
  head : ∀ k i, (s.l1 k).alive i = true → (s.l1 k).alive 0 = true
  idx : ∀ k i, (s.l1 k).alive i = true → ((s.l1 k).node i).user.idx = k
  iface : s.managerUp = true → ∀ k i clients, ((s.l1 k).node i).user.l2Iface = some clients →
    clients.map L2Client.numWorkers = cfg.l1.l2Workers
  origin : ∀ c w slot, Occurs s c w slot → ∃ k op j o, Origin cfg s slot k op j o
  routed : s.managerUp = true → ∀ c w slot, Occurs s c w slot → slot.key ≠ cfg.l1.dummyKey →
    routeFull cfg.l1 slot.key slot.replica = some (c, w)
  unique : ∀ c w c' w' slot slot', Occurs s c w slot → Occurs s c' w' slot' →
    slot.idx = slot'.idx → slot.number = slot'.number → slot.key ≠ cfg.l1.dummyKey →
    (c, w) = (c', w')
  ascending : ∀ c w i, L2Proxy.Ascending (((s.l2 c).net w).node i).user
    (((s.l2 c).net w).node i).ran

lemma Origin.same (inv : ∀ k, ChainNet.Inv False (s.l1 k)) {slot slot' : Slot} {k k' : ℕ}
    {op op' : ChainOp} {j j' : ℕ} {o o' : L2Operation} (h : Origin cfg s slot k op j o)
    (h' : Origin cfg s slot' k' op' j' o') (idx : slot.idx = slot'.idx)
    (number : slot.number = slot'.number) : k = k' ∧ op = op' ∧ j = j' ∧ o = o' := by
  obtain rfl : k = k' := by
    have := h.idx.symm.trans (idx.trans h'.idx)
    exact_mod_cast this
  obtain ⟨same, rfl⟩ := number_inj (batchOf_length h.batch) (batchOf_length h'.batch)
    (h.number.symm.trans (number.trans h'.number))
  obtain rfl := ((inv k).node 0).number_inj h.ran h'.ran same
  have batch := h.batch.symm.trans h'.batch
  exact ⟨rfl, rfl, rfl, Option.some.inj batch⟩

lemma Origin.content_eq {slot slot' : Slot} {k k' : ℕ} {op op' : ChainOp} {j j' : ℕ}
    {o : L2Operation} (h : Origin cfg s slot k op j o) (h' : Origin cfg t slot' k' op' j' o) :
    slot.key = slot'.key ∧ slot.replica = slot'.replica ∧ slot.value = slot'.value := by
  rw [h.content.1, h.content.2.1, h.content.2.2, h'.content.1, h'.content.2.1, h'.content.2.2]
  exact ⟨rfl, rfl, rfl⟩

lemma Once.shrink (h : Once cfg s) (l1 : t.l1 = s.l1)
    (up : t.managerUp = true → s.managerUp = true)
    (l2 : ∀ c w, ChainNet.Inv False ((t.l2 c).net w))
    (fewer : ∀ c w slot, Occurs t c w slot → Occurs s c w slot)
    (ascending : ∀ c w i, L2Proxy.Ascending (((t.l2 c).net w).node i).user
      (((t.l2 c).net w).node i).ran) : Once cfg t where
  l1 := l1 ▸ h.l1
  l2 := l2
  within := l1 ▸ h.within
  head := l1 ▸ h.head
  idx := l1 ▸ h.idx
  iface hup := l1 ▸ h.iface (up hup)
  origin c w slot occurs := by
    obtain ⟨k, op, j, o, from'⟩ := h.origin c w slot (fewer c w slot occurs)
    exact ⟨k, op, j, o, from'.idx, l1 ▸ from'.ran, from'.batch, from'.number, from'.content,
      l1 ▸ from'.known⟩
  routed hup c w slot occurs := h.routed (up hup) c w slot (fewer c w slot occurs)
  unique c w c' w' slot slot' occurs occurs' :=
    h.unique c w c' w' slot slot' (fewer c w slot occurs) (fewer c' w' slot' occurs')
  ascending := ascending

/-- Store an L1 chain with what one of its rows has sent. -/
def replace (s : Ingest) (k row : ℕ) (net : ChainNet L1State) (outs : List L1Effect) (up : Bool) :
    Ingest :=
  { s with l1 := Function.update s.l1 k net, link := s.forward k row outs, managerUp := up }

lemma Occurs.of_replace {k row : ℕ} {net : ChainNet L1State} {outs : List L1Effect} {up : Bool}
    {c w : ℕ} {slot : Slot} (h : Occurs (s.replace k row net outs up) c w slot) :
    Occurs s c w slot ∨ ∃ e ∈ outs, e.column = c ∧ e.worker = w ∧ e.op.slot = slot := by
  cases h with
  | @link a b r op mem eq =>
    simp only [replace, forward] at mem
    split at mem
    · rcases List.mem_append.mp mem with old | new
      · exact .inl (.link old eq)
      · obtain ⟨e, he, rfl⟩ := List.mem_map.mp new
        obtain ⟨he, target⟩ := List.mem_filter.mp he
        simp only [decide_eq_true_eq, L2Target.mk.injEq] at target
        exact .inr ⟨e, he, target.1, target.2.1, eq⟩
    · exact .inl (.link mem eq)
  | ran mem eq => exact .inl (.ran mem eq)
  | chain mem eq => exact .inl (.chain mem eq)

/-- An L1 chain moves on: its rows keep their commands, and a row sends slots of new
commands, or of old ones while the manager is up. -/
structure Moves (cfg : IngestConfig) (s : Ingest) (k row : ℕ) (net : ChainNet L1State)
    (outs : List L1Effect) (up : Bool) : Prop where
  inv : ChainNet.Inv False net
  alive : net.alive = (s.l1 k).alive
  grows : ∀ i, ((s.l1 k).node i).ran <+: (net.node i).ran
  idx : ∀ i, (net.node i).user.idx = ((s.l1 k).node i).user.idx
  iface : up = true → ∀ i clients, (net.node i).user.l2Iface = some clients →
    clients.map L2Client.numWorkers = cfg.l1.l2Workers
  manager : up = true → s.managerUp = true
  sent : ∀ e ∈ outs, ∃ pick clock op, (s.l1 k).alive row = true ∧
    ((s.l1 k).node row).isTail = true ∧
    (s.managerUp = true ∨ op.seq.serverSeqNo = ((s.l1 k).node row).chainSeqNo + 1) ∧
    op ∈ (net.node row).ran ∧ Forwards cfg.l1 pick clock ((s.l1 k).node row) op e

variable {k row : ℕ} {net : ChainNet L1State} {outs : List L1Effect} {up : Bool}

lemma Moves.count_le (m : Moves cfg s k row net outs up) (h : Once cfg s) (i : ℕ) :
    ((s.l1 k).node i).chainSeqNo ≤ (net.node i).chainSeqNo := by
  rw [((h.l1 k).node i).count, (m.inv.node i).count]
  exact_mod_cast (m.grows i).length_le

lemma Origin.replace (m : Moves cfg s k row net outs up) (h : Once cfg s) {slot : Slot} {k' : ℕ}
    {op : ChainOp} {j : ℕ} {o : L2Operation} (from' : Origin cfg s slot k' op j o) :
    Origin cfg (s.replace k row net outs up) slot k' op j o := by
  rcases eq_or_ne k' k with rfl | other
  · refine ⟨from'.idx, ?_, from'.batch, from'.number, from'.content, fun i hi => ?_⟩
    · simpa [Ingest.replace] using (m.grows 0).subset from'.ran
    · simp only [Ingest.replace, Function.update_self] at hi ⊢
      exact (from'.known i (m.alive ▸ hi)).trans (m.count_le h i)
  · refine ⟨from'.idx, ?_, from'.batch, from'.number, from'.content, fun i hi => ?_⟩
    · simpa [Ingest.replace, other] using from'.ran
    · simp only [Ingest.replace, Function.update_of_ne other] at hi ⊢
      exact from'.known i hi

lemma Moves.mem_of_tail (m : Moves cfg s k row net outs up) (h : Once cfg s) {i : ℕ} {op : ChainOp}
    (tail : ((s.l1 k).node row).isTail = true) (live : (s.l1 k).alive row = true)
    (alive : (s.l1 k).alive i = true) (ran : op ∈ (net.node row).ran) : op ∈ (net.node i).ran := by
  rcases lt_trichotomy i row with below | rfl | above
  · exact (m.inv.log i row below (m.alive ▸ alive) (m.alive ▸ live)).subset ran
  · exact ran
  · rw [(h.l1 k).tails row live tail i above] at alive
    simp at alive

lemma Moves.origin (m : Moves cfg s k row net outs up) (h : Once cfg s) {e : L1Effect}
    (he : e ∈ outs) : ∃ pick op j o clients,
      Origin cfg (s.replace k row net outs up) e.op.slot k op j o ∧
      (s.managerUp = true ∨ op.seq.serverSeqNo = ((s.l1 k).node row).chainSeqNo + 1) ∧
      (s.l1 k).alive row = true ∧ ((s.l1 k).node row).user.l2Iface = some clients ∧
      routeL2 cfg.l1 pick clients e.op = some (e.column, e.worker, e.row) := by
  obtain ⟨pick, clock, op, live, tail, fresh, ran, ⟨j, o, found, eq⟩, clients, iface, route⟩ :=
    m.sent e he
  refine ⟨pick, op, j, o, clients, ?_, fresh, live, iface, route⟩
  have first := h.head k row live
  have fields : e.op.slot = ⟨((s.l1 k).node row).user.idx,
      cfg.l1.securityBatchSize * op.seq.serverSeqNo + j, o.key, o.replica, o.value⟩ := by
    rw [eq]
    cases clock <;> rfl
  refine ⟨?_, ?_, found, by rw [fields], by rw [fields]; exact ⟨rfl, rfl, rfl⟩, fun i hi => ?_⟩
  · rw [fields]
    exact h.idx k row live
  · simpa [Ingest.replace] using m.mem_of_tail h tail live first ran
  · simp only [Ingest.replace, Function.update_self] at hi ⊢
    exact ((m.inv.node i).number_bounds (m.mem_of_tail h tail live (m.alive ▸ hi) ran)).2

lemma Once.inv_replace (m : Moves cfg s k row net outs up) (h : Once cfg s) (k' : ℕ) :
    ChainNet.Inv False ((s.replace k row net outs up).l1 k') := by
  rcases eq_or_ne k' k with rfl | other
  · simpa [Ingest.replace] using m.inv
  · simpa [Ingest.replace, other] using h.l1 k'

/-- A slot sent now and a slot that was on its way before, of one number, go to one worker. -/
lemma Moves.same_route (m : Moves cfg s k row net outs up) (h : Once cfg s) {e : L1Effect}
    (he : e ∈ outs) {c w : ℕ} {slot : Slot} (old : Occurs s c w slot)
    (idx : slot.idx = e.op.slot.idx) (number : slot.number = e.op.slot.number)
    (real : slot.key ≠ cfg.l1.dummyKey) : (c, w) = (e.column, e.worker) := by
  obtain ⟨pick, op, j, o, clients, now, fresh, live, iface, route⟩ := m.origin h he
  obtain ⟨k', op', j', o', before⟩ := h.origin c w slot old
  obtain ⟨rfl, rfl, rfl, rfl⟩ := (before.replace m h).same (h.inv_replace m) now idx number
  rcases fresh with manager | fresh
  · obtain ⟨key, replica, _⟩ := before.content_eq now
    have there := h.routed manager c w slot old real
    have here := routeL2_full (h.iface manager _ _ _ iface) (key ▸ real : e.op.slot.key ≠ _) route
    rw [key, replica] at there
    exact Option.some.inj (there.symm.trans here)
  · have := before.known row live
    omega

lemma Once.replace (h : Once cfg s) (m : Moves cfg s k row net outs up) :
    Once cfg (s.replace k row net outs up) where
  l1 := h.inv_replace m
  l2 := h.l2
  within k' i hi := by
    rcases eq_or_ne k' k with rfl | other
    · simp only [Ingest.replace, Function.update_self, m.alive] at hi
      exact h.within k' i hi
    · simp only [Ingest.replace, Function.update_of_ne other] at hi
      exact h.within k' i hi
  head k' i hi := by
    rcases eq_or_ne k' k with rfl | other
    · simp only [Ingest.replace, Function.update_self, m.alive] at hi ⊢
      exact h.head k' i hi
    · simp only [Ingest.replace, Function.update_of_ne other] at hi ⊢
      exact h.head k' i hi
  idx k' i hi := by
    rcases eq_or_ne k' k with rfl | other
    · simp only [Ingest.replace, Function.update_self, m.alive, m.idx] at hi ⊢
      exact h.idx k' i hi
    · simp only [Ingest.replace, Function.update_of_ne other] at hi ⊢
      exact h.idx k' i hi
  iface hup k' i clients open' := by
    rcases eq_or_ne k' k with rfl | other
    · simp only [Ingest.replace, Function.update_self] at open'
      exact m.iface hup i clients open'
    · simp only [Ingest.replace, Function.update_of_ne other] at open'
      exact h.iface (m.manager hup) k' i clients open'
  origin c w slot occurs := by
    rcases occurs.of_replace with old | ⟨e, he, _, _, rfl⟩
    · obtain ⟨k', op, j, o, from'⟩ := h.origin c w slot old
      exact ⟨k', op, j, o, from'.replace m h⟩
    · obtain ⟨_, op, j, o, _, from', _⟩ := m.origin h he
      exact ⟨k, op, j, o, from'⟩
  routed hup c w slot occurs real := by
    rcases occurs.of_replace with old | ⟨e, he, rfl, rfl, rfl⟩
    · exact h.routed (m.manager hup) c w slot old real
    · obtain ⟨_, _, _, _, clients, _, _, live, iface, route⟩ := m.origin h he
      exact routeL2_full (h.iface (m.manager hup) k row clients iface) real route
  unique c w c' w' slot slot' occurs occurs' idx number real := by
    rcases occurs.of_replace, occurs'.of_replace with
      ⟨old | ⟨e, he, rfl, rfl, rfl⟩, old' | ⟨e', he', rfl, rfl, rfl⟩⟩
    · exact h.unique c w c' w' slot slot' old old' idx number real
    · exact m.same_route h he' old idx number real
    · obtain ⟨_, _, _, _, _, now, _⟩ := m.origin h he
      obtain ⟨k', op', j', o', before⟩ := h.origin c' w' slot' old'
      obtain ⟨rfl, rfl, rfl, rfl⟩ :=
        now.same (h.inv_replace m) (before.replace m h) idx number
      exact (m.same_route h he old' idx.symm number.symm
        ((now.content_eq before).1 ▸ real)).symm
    · obtain ⟨_, _, _, _, clients, now, _, _, iface, route⟩ := m.origin h he
      obtain ⟨_, _, _, _, clients', now', _, _, iface', route'⟩ := m.origin h he'
      obtain ⟨_, rfl, rfl, rfl⟩ := now.same (h.inv_replace m) now' idx number
      obtain ⟨key, replica, _⟩ := now.content_eq now'
      obtain rfl := Option.some.inj (iface.symm.trans iface')
      rw [routeL2_congr real key replica, route', Option.some.injEq] at route
      rw [Prod.mk.injEq, Prod.mk.injEq] at route
      rw [route.1, route.2.1]
  ascending := h.ascending

lemma moves_of_step (h : Once cfg s) {label : IngestLabel} {oracle : L1Oracle} {k : ℕ}
    {nl : NetLabel L1State} {res : NetResult L1State L1Effect}
    (source : Comes cfg s label oracle k nl)
    (taken : (s.l1 k).step (s.callbacks cfg oracle) (s.outside oracle.clock) nl = some res) :
    Moves cfg s k (nl.row (s.l1 k).acks) res.net res.outs
      (s.managerUp && s.survives cfg k nl) where
  inv := (h.l1 k).step _ _ nl False.elim taken
  alive := ChainNet.step_alive taken source.no_crash
  grows := ChainNet.step_ran_extends taken
  idx i := (user_step taken source.keepsIface i).1
  iface hup i clients open' := by
    obtain ⟨manager, stays⟩ := Bool.and_eq_true_iff.mp hup
    rcases (user_step taken source.keepsIface i).2 with same | ⟨rfl, tail, none, connected⟩
    · exact h.iface manager k i clients (same ▸ open')
    · obtain rfl := Option.some.inj (connected.symm.trans open')
      refine connect_full ?_
      simpa [survives, tail, none] using stays
  manager hup := (Bool.and_eq_true_iff.mp hup).1
  sent e he := by
    obtain ⟨op, live, tail, from', ran, forwards⟩ :=
      forwards_of_step (h.l1 k) taken source.keepsIface e he
    refine ⟨oracle.pick, oracle.clock, op, live, tail, ?_, ran, forwards⟩
    rcases from' with ⟨resend, _⟩ | fresh
    · exact .inl (source.manager resend)
    · exact .inr fresh

lemma moves_quiet (h : Once cfg s) {k row : ℕ} {o : Outcome (ChainModule L1State) (Send L1Effect)}
    (inv : ChainNet.Inv False ((s.l1 k).deposit row o))
    (ran : o.state.ran = ((s.l1 k).node row).ran)
    (idx : o.state.user.idx = ((s.l1 k).node row).user.idx)
    (iface : s.managerUp = true → ∀ clients, o.state.user.l2Iface = some clients →
      clients.map L2Client.numWorkers = cfg.l1.l2Workers)
    (none : outsOf o.sent = []) :
    Moves cfg s k row ((s.l1 k).deposit row o) (outsOf o.sent) s.managerUp := by
  refine ⟨inv, rfl, ?_, ?_, ?_, id, by simp [none]⟩
  · refine ChainNet.deposit_local (I := fun i m => ((s.l1 k).node i).ran <+: m.ran)
      (fun _ => List.prefix_rfl) ?_
    rw [ran]
  · exact ChainNet.deposit_local (I := fun i (m : ChainModule L1State) => m.user.idx = ((s.l1 k).node i).user.idx)
      (fun _ => rfl) idx
  · intro hup i clients
    exact ChainNet.deposit_local (I := fun _ (m : ChainModule L1State) =>
      m.user.l2Iface = some clients → clients.map L2Client.numWorkers = cfg.l1.l2Workers)
      (fun i open' => h.iface hup k i clients open') (iface hup clients) i

lemma moves_of_ack (h : Once cfg s) {oracle : L1Oracle} {k row : ℕ} (seqs : List SequenceId)
    (env : Env L1Effect) (alive : (s.l1 k).alive row = true) :
    let o := externalAckBatch cfg.l1 (s.callbacks cfg oracle) env ((s.l1 k).node row) seqs
    Moves cfg s k row ((s.l1 k).deposit row o) (outsOf o.sent) s.managerUp := by
  have any : ∀ q : SequenceId, ChainNet.AckOk False (s.l1 k) q := fun _ no => no.elim
  have effect : AckEffect ((s.l1 k).node row) (batchAcks cfg.l1 seqs) (ChainNet.AckOk False (s.l1 k))
      (externalAckBatch cfg.l1 (s.callbacks cfg oracle) env ((s.l1 k).node row) seqs).state
      (externalAckBatch cfg.l1 (s.callbacks cfg oracle) env ((s.l1 k).node row) seqs).sent :=
    externalAckBatch_effect _ _ seqs (fun q _ => any q) (fun q _ => any q)
  obtain ⟨⟨p, user⟩, none⟩ := @externalAckBatch_user cfg.l1 oracle.pick s.reach env
    ((s.l1 k).node row) seqs
  obtain ⟨p, a, u, state⟩ := effect.frame
  have idx := congrArg L1State.idx user
  have iface := congrArg L1State.l2Iface user
  refine moves_quiet h ((h.l1 k).acknowledged alive .rfl (fun q _ => any q) effect) ?_ idx ?_ none
  · rw [state]
  · exact fun hup clients open' => h.iface hup k row clients (iface.symm.trans open')

lemma moves_of_reconnect (h : Once cfg s) {k row column newRow n : ℕ} {clients : List L2Client}
    (alive : (s.l1 k).alive row = true) (iface : ((s.l1 k).node row).user.l2Iface = some clients)
    (size : cfg.l1.l2Workers[column]? = some n) :
    let u := { ((s.l1 k).node row).user with l2Iface := some (clients.set column ⟨newRow, n⟩) }
    let o : Outcome (ChainModule L1State) (Send L1Effect) :=
      .done (((s.l1 k).node row).withUser u)
    Moves cfg s k row ((s.l1 k).deposit row o) (outsOf o.sent) s.managerUp := by
  refine moves_quiet h ?_ rfl rfl (fun hup clients' open' => ?_) rfl
  · exact (h.l1 k).quiet alive rfl rfl rfl rfl (fun _ => .inl rfl) ((h.l1 k).queue row alive)
      (by simp) (by simp)
  · obtain rfl := Option.some.inj open'
    have full := h.iface hup k row clients iface
    rw [List.map_set, full]
    refine List.ext_getElem? fun c => ?_
    rcases eq_or_ne c column with rfl | other
    · rw [List.getElem?_set_self', size]
      rfl
    · rw [List.getElem?_set_ne other.symm]

lemma Once.column (h : Once cfg s) {c : ℕ} {ext : Outside L2Effect} {label : L2Label ℕ}
    {r : L2Result ℕ} {link : ℕ → ℕ → L2Target → List L2Operation}
    (taken : (s.l2 c).step (cfg.l2 c) ext label = some r)
    (fewer : ∀ k row x, ∀ op ∈ link k row x, op ∈ s.link k row x)
    (given : ∀ w i op, label = .request w i op → Occurs s c w op.slot) :
    Once cfg { s with l2 := Function.update s.l2 c r.column, link := link } := by
  have places := L2Column.everywhere_step (h.l2 c)
    (Q := fun w op => ∀ slot, chainSlot op = some slot → Occurs s c w slot)
    (fun w => chainSlot_unnumbered (Occurs s c w))
    (fun w => ⟨fun i op mem slot eq => .ran mem eq, fun i j op mem slot eq => .chain mem eq⟩)
    (fun w i op isRequest slot eq => by
      rw [chainSlot_argsOf, Option.some.injEq] at eq
      exact eq ▸ given w i op isRequest) taken
  have chains := L2Column.inv_step (h.l2 c) taken
  have ascending := L2Column.kept_step (I := fun _ m => L2Proxy.Ascending m.user m.ran)
    (fun w => L2Proxy.ascending_kept (cfg.l2 c w)) (fun _ _ _ _ asc => asc) (h.ascending c) taken
  refine h.shrink rfl id ?_ ?_ ?_
  · intro d w
    rcases eq_or_ne d c with rfl | other
    · simpa using chains w
    · simpa [other] using h.l2 d w
  · intro d w slot occurs
    cases occurs with
    | link mem eq => exact .link (fewer _ _ _ _ mem) eq
    | ran mem eq =>
      rcases eq_or_ne d c with rfl | other
      · simp only [Function.update_self] at mem
        exact (places w).ran _ _ mem slot eq
      · simp only [Function.update_of_ne other] at mem
        exact .ran mem eq
    | chain mem eq =>
      rcases eq_or_ne d c with rfl | other
      · simp only [Function.update_self] at mem
        exact (places w).link _ _ _ mem slot eq
      · simp only [Function.update_of_ne other] at mem
        exact .chain mem eq
  · intro d w
    rcases eq_or_ne d c with rfl | other
    · simpa using ascending w
    · simpa [other] using h.ascending d w

/-- The head of an L1 chain crashes last. -/
def headLast (cfg : IngestConfig) (s : Ingest) : IngestLabel → Prop
  | .crashL1 column row => row = 0 → ∀ k < cfg.l1Workers.sum,
    (locate cfg.l1Workers k).map Prod.fst = some column →
      ∀ i < cfg.l1Rows, 0 < i → (s.l1 k).alive i = false
  | _ => True

instance (cfg : IngestConfig) (s : Ingest) (l : IngestLabel) : Decidable (headLast cfg s l) := by
  unfold headLast
  split <;> infer_instance

lemma Once.crashL1 (h : Once cfg s) {column row : ℕ} (last : headLast cfg s (.crashL1 column row)) :
    Once cfg { s with
      l1 := fun k => if (locate cfg.l1Workers k).map Prod.fst = some column then
        (s.l1 k).fail row else s.l1 k } := by
  let t : Ingest := { s with
    l1 := fun k => if (locate cfg.l1Workers k).map Prod.fst = some column then
      (s.l1 k).fail row else s.l1 k }
  have node : ∀ k, (t.l1 k).node = (s.l1 k).node := fun k => by
    simp only [t]
    split <;> rfl
  have fewer : ∀ k i, (t.l1 k).alive i = true → (s.l1 k).alive i = true := by
    intro k i hi
    simp only [t] at hi
    split at hi
    · rcases eq_or_ne i row with rfl | other
      · simp [ChainNet.fail] at hi
      · simpa [ChainNet.fail, other] using hi
    · exact hi
  have same : ∀ c w slot, Occurs t c w slot → Occurs s c w slot := by
    intro c w slot occurs
    cases occurs with
    | link mem eq => exact .link mem eq
    | ran mem eq => exact .ran mem eq
    | chain mem eq => exact .chain mem eq
  refine ⟨fun k => ?_, h.l2, fun k i hi => h.within k i (fewer k i hi), fun k i hi => ?_,
    fun k i hi => ?_, fun hup k i clients open' => ?_, fun c w slot occurs => ?_,
    fun hup c w slot occurs => h.routed hup c w slot (same c w slot occurs),
    fun c w c' w' slot slot' occurs occurs' =>
      h.unique c w c' w' slot slot' (same c w slot occurs) (same c' w' slot' occurs'), h.ascending⟩
  · dsimp only
    split
    · exact (h.l1 k).crash row
    · exact h.l1 k
  · have before := h.head k i (fewer k i hi)
    dsimp only at hi ⊢
    split at hi
    · next there =>
      rw [if_pos there]
      rcases Nat.eq_zero_or_pos row with rfl | positive
      · rcases Nat.eq_zero_or_pos i with rfl | later
        · simp [ChainNet.fail] at hi
        · have alive : (s.l1 k).alive i = true := by simpa [ChainNet.fail, later.ne'] using hi
          obtain ⟨inTier, inRows⟩ := h.within k i alive
          rw [last rfl k inTier there i inRows later] at alive
          simp at alive
      · simpa [ChainNet.fail, positive.ne] using before
    · next there =>
      rw [if_neg there]
      exact before
  · rw [node k]
    exact h.idx k i (fewer k i hi)
  · rw [node k] at open'
    exact h.iface hup k i clients open'
  · obtain ⟨k, op, j, o, from'⟩ := h.origin c w slot (same c w slot occurs)
    refine ⟨k, op, j, o, from'.idx, ?_, from'.batch, from'.number, from'.content, fun i hi => ?_⟩
    · rw [node k]
      exact from'.ran
    · rw [node k]
      exact from'.known i (fewer k i hi)

theorem Once.step (h : Once cfg s) {label : IngestLabel} {r : IngestResult}
    (last : headLast cfg s label) (taken : s.step cfg label = some r) : Once cfg r.state := by
  cases step_cases taken with
  | l1 status source moved => exact h.replace (moves_of_step h source moved)
  | refused => exact h
  | ackL1 alive => exact h.replace (moves_of_ack h _ _ alive)
  | crashL1 => exact h.crashL1 last
  | @deliver ext k row x op rest r link moved =>
    refine h.column moved ?_ ?_
    · intro a b y o mem
      simp only [setLink] at mem
      split at mem
      · next there =>
        rw [there.1, there.2.1, there.2.2, link]
        exact List.mem_cons_of_mem _ mem
      · exact mem
    · intro w i o isRequest
      obtain ⟨rfl, rfl, rfl⟩ := L2Label.request.inj isRequest
      exact .link (by rw [link]; exact List.mem_cons_self) rfl
  | @lose k row x kept down part =>
    refine h.shrink rfl id h.l2 ?_ h.ascending
    intro c w slot occurs
    cases occurs with
    | @link a b r op mem eq =>
      have before : op ∈ s.link a b ⟨c, w, r⟩ := by
        simp only [setLink] at mem
        split at mem
        · next there =>
          rw [there.1, there.2.1, there.2.2]
          exact part.subset mem
        · exact mem
      exact .link before eq
    | ran mem eq => exact .ran mem eq
    | chain mem eq => exact .chain mem eq
  | @l2 ext column label r inner moved =>
    exact h.column moved (fun _ _ _ _ mem => mem) fun w i op isRequest =>
      absurd isRequest (inner w i op)
  | reconnect alive up iface _ size _ => exact h.replace (moves_of_reconnect h alive iface size)
  | abandoned up =>
    refine h.shrink rfl (fun hup => by simp at hup) h.l2 ?_ h.ascending
    intro c w slot occurs
    cases occurs with
    | link mem eq => exact .link mem eq
    | ran mem eq => exact .ran mem eq
    | chain mem eq => exact .chain mem eq

end Ingest
end Shortstack
