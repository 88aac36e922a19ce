import Shortstack.CacheAgreement
import Shortstack.IngestSpec
import Shortstack.LibHighWater

/-! The L1 and L2 tiers while none of their instances fails. Batches are numbered by the heads
of the L1 chains and forwarded in that order, so the numbers on every link ascend and are new
to the worker they lead to: nothing is refused. -/
namespace Shortstack
open ChainModule ChainNet L1Proxy HighWater

namespace L1Proxy

/-- Every command of an L1 chain can be run. -/
def replayable (cfg : L1Config) (pick : ℤ → ℕ) (reach : ℕ → ℕ → Bool) :
    Replayable (callbacks cfg pick reach) Unit where
  view _ := ()
  fits _ := True
  ok _ _ := True
  upd _ _ := ()
  run_returned _ _ _ _ _ := rfl
  run_view _ _ _ _ _ := rfl
  refused _ _ _ _ no := absurd trivial no
  complete _ _ _ _ := rfl
  ack _ _ _ _ := rfl

/-- An L1 chain without failures; the random choices of its callbacks do not matter. -/
def Streams (cfg : L1Config) (net : ChainNet L1State) : Prop :=
  Flow (replayable cfg (fun _ => 0) fun _ _ => true) () net

lemma Streams.flow {cfg : L1Config} {net : ChainNet L1State} (h : Streams cfg net) (pick : ℤ → ℕ)
    (reach : ℕ → ℕ → Bool) : Flow (replayable cfg pick reach) () net :=
  ⟨h.alive, h.role, h.next, h.node, h.link, h.other, h.view, h.valid⟩

lemma streams_of_flow {cfg : L1Config} {net : ChainNet L1State} {pick : ℤ → ℕ}
    {reach : ℕ → ℕ → Bool} (h : Flow (replayable cfg pick reach) () net) : Streams cfg net :=
  ⟨h.alive, h.role, h.next, h.node, h.link, h.other, h.view, h.valid⟩

/-- Connections to the first row of every L2 column. -/
def fullClients (cfg : L1Config) : List L2Client := cfg.l2Workers.map fun n => ⟨0, n⟩

variable {cfg : L1Config} {pick : ℤ → ℕ} {env : Env L1Effect}

lemma routeL2_fullClients (some' : cfg.l2Workers ≠ []) (op : L2Operation) :
    ∃ c n, cfg.l2Workers[c]? = some n ∧ routeL2 cfg pick (fullClients cfg) op =
      some (c, murmurHash64A (op.key ++ toString op.replica) 1995 % n, 0) := by
  have positive : 0 < cfg.l2Workers.length := List.length_pos_iff.mpr some'
  have size : (fullClients cfg).length = cfg.l2Workers.length := List.length_map _
  unfold routeL2
  dsimp only
  set id := if op.key = cfg.dummyKey then pick op.seqId.l1SeqNo % (fullClients cfg).length
    else consistentHash op.key (fullClients cfg).length with hid
  have inside : id < cfg.l2Workers.length := by
    rw [hid, size]
    split
    · exact Nat.mod_lt _ positive
    · exact consistentHash_lt _ positive
  refine ⟨id, cfg.l2Workers[id], List.getElem?_eq_getElem inside, ?_⟩
  simp [fullClients, List.getElem?_eq_getElem inside]

lemma forEach_sendOp_returned (some' : cfg.l2Workers ≠ [])
    (up : ∀ c w op n, cfg.l2Workers[c]? = some n → env.out ⟨c, w, 0, op⟩ = true) (s : L1State)
    (ops : List L2Operation) :
    (Outcome.forEach (sendOp cfg pick env (fullClients cfg)) ops s).status = .returned := by
  induction ops with
  | nil => rfl
  | cons op ops ih =>
    obtain ⟨c, n, found, route⟩ := @routeL2_fullClients cfg pick some' op
    have one : sendOp cfg pick env (fullClients cfg) s op =
        ⟨s, [⟨c, murmurHash64A (op.key ++ toString op.replica) 1995 % n, 0, op⟩], .returned⟩ := by
      simp [sendOp, route, Outcome.send, up c _ op n found]
    simp only [Outcome.forEach, one, Outcome.andThen]
    exact ih

lemma replicationComplete_full (some' : cfg.l2Workers ≠ [])
    (up : ∀ c w op n, cfg.l2Workers[c]? = some n → env.out ⟨c, w, 0, op⟩ = true) {s : L1State}
    (iface : s.l2Iface = some (fullClients cfg)) {op : ChainOp} {batch : List L2Operation}
    (parsed : L2Operation.deserializeBatch op.args = .ok batch)
    (size : (batch.length : ℤ) = cfg.securityBatchSize) :
    (replicationComplete cfg pick env s op.seq op.args).status = .returned ∧
    (replicationComplete cfg pick env s op.seq op.args).sent.map L1Effect.op =
      batch.mapIdx (numberSlot cfg env.clock s.idx op.seq.serverSeqNo) ∧
    ∀ e ∈ (replicationComplete cfg pick env s op.seq op.args).sent,
      routeL2 cfg pick (fullClients cfg) e.op = some (e.column, e.worker, e.row) := by
  have returned : (replicationComplete cfg pick env s op.seq op.args).status = .returned := by
    simp only [replicationComplete, parsed, size, iface, ne_eq, not_true_eq_false, if_false]
    exact forEach_sendOp_returned some' up s _
  rcases @replicationComplete_sent cfg pick env s op with
    ⟨none, _⟩ | ⟨clients, open', part⟩
  · rw [iface] at none
    simp at none
  · obtain rfl := Option.some.inj (open'.symm.trans iface)
    have all := part.all returned
    rw [slots, batchOf, parsed] at all
    dsimp only at all
    rw [if_pos size] at all
    exact ⟨returned, all, fun e he => (part.routed e he).1⟩

end L1Proxy

namespace L2Proxy
variable {cfg : L2Config}

lemma asyncOperation_new {env : Env L2Effect} {m : ChainModule L2State} {op : L2Operation}
    {last : ℤ} (head : m.isHead = true) (seen : seenAt m.user.lastSeenSeq op.seqId.l1Idx = some last)
    (new : last < op.seqId.l1SeqNo) (known : op.key ∈ cfg.keyToNumberOfReplicas) :
    asyncOperation cfg env m op =
      m.chainRequest (callbacks cfg) env (timed env.clock op.seqId) (argsOf env.clock op) := by
  have later : ¬ op.seqId.l1SeqNo ≤ last := by omega
  simp only [asyncOperation, seen, if_neg later, head, Bool.not_true, Bool.false_eq_true, if_false,
    if_pos known]
  rfl

end L2Proxy

/-- The steps of the two tiers without failures. -/
def IngestLabel.steady : IngestLabel → Bool
  | .client .. | .ackL1 .. | .deliver .. => true
  | .l1 _ _ label => label.steady
  | .l2 _ _ label => label.steady
  | .crashL1 .. | .lose .. | .reconnect .. => false

namespace Ingest
variable (cfg : IngestConfig)

/-- The replica exists: the key is known and has that many replicas. -/
def Good (key : String) (replica : Int32) : Prop :=
  ∃ r, cfg.l1.keyToNumberOfReplicas.lookup key = some r ∧ 0 ≤ replica.toInt ∧ replica.toInt < r

/-- What a grid of hosts and the tables of the initializer guarantee. -/
structure Shaped : Prop where
  size : 1 ≤ cfg.l1.securityBatchSize
  l1Rows : 0 < cfg.l1Rows
  l2Rows : 0 < cfg.l2Rows
  l2Workers : cfg.l1.l2Workers ≠ []
  workers : ∀ n ∈ cfg.l1.l2Workers, 0 < n
  idx : ∀ k < cfg.l1Workers.sum, ∀ row < cfg.l1Rows, cfg.l1Idx k row = k
  l1Workers : ∀ c w, (cfg.l2 c w).l1Workers = cfg.l1Workers
  replicas : ∀ key r, cfg.l1.keyToNumberOfReplicas.lookup key = some r → 0 < r
  tables : ∀ c w, (cfg.l2 c w).keyToNumberOfReplicas = cfg.l1.keyToNumberOfReplicas
  labels : ∀ c w key replica, Good cfg key replica →
    ∃ l, (cfg.l2 c w).replicaToLabel.lookup (key ++ toString replica) = some l

/-- The arguments of a batch whose slots all access existing replicas. -/
def GoodBatch (args : ArgList) : Prop :=
  ∃ batch, L2Operation.deserializeBatch args = .ok batch ∧
    (batch.length : ℤ) = cfg.l1.securityBatchSize ∧ ∀ o ∈ batch, Good cfg o.key o.replica

/-- The arguments of an access to an existing replica. -/
def GoodArgs (args : ArgList) : Prop :=
  ∃ o rest, L2Operation.deserialize args = .ok (o, rest) ∧ Good cfg o.key o.replica

/-- A client request for a known key, with samples of known keys. -/
def Valid : IngestLabel → Prop
  | .client _ _ _ op draws => op.key ∈ cfg.l1.keyToNumberOfReplicas ∧
    ∀ d ∈ rounds cfg.l1 draws, d.real ∈ cfg.l1.keyToNumberOfReplicas ∧
      d.fake ∈ cfg.l1.keyToNumberOfReplicas
  | _ => True

/-- The head of an L2 worker. -/
def head (s : Ingest) (c w : ℕ) : ChainModule L2State := ((s.l2 c).net w).node 0

/-- The two tiers in a run in which none of their instances fails. -/
structure Calm (s : Ingest) : Prop where
  l1 : ∀ k, Streams cfg.l1 (s.l1 k)
  rows1 : ∀ k, (s.l1 k).rows = if k < cfg.l1Workers.sum then cfg.l1Rows else 0
  l2 : ∀ c w, Flow (L2Proxy.replayable (cfg.l2 c w)) (L2Column.unseen (cfg.l2 c w))
    ((s.l2 c).net w)
  rows2 : ∀ c w, ((s.l2 c).net w).rows = cfg.l2Rows
  idx : ∀ k i, ((s.l1 k).node i).user.idx = cfg.l1Idx k i
  iface : ∀ k i, (s.l1 k).alive i = true → ((s.l1 k).node i).isTail = true →
    ((s.l1 k).node i).user.l2Iface = some (fullClients cfg.l1)
  queue : ∀ k i, ∀ op ∈ ((s.l1 k).node i).user.internalQueue, op.key ∈ cfg.l1.keyToNumberOfReplicas
  batches : ∀ k, ∀ op ∈ ((s.l1 k).node 0).ran, GoodBatch cfg op.args
  commands : ∀ c w, ∀ op ∈ (s.head c w).ran, GoodArgs cfg op.args
  ends : ∀ k row x, s.link k row x ≠ [] → k < cfg.l1Workers.sum ∧ row + 1 = cfg.l1Rows ∧
    x.row = 0 ∧ ∃ n, cfg.l1.l2Workers[x.column]? = some n ∧ x.worker < n
  linked : ∀ k row x, ∀ op ∈ s.link k row x, op.seqId.l1Idx = k ∧ Good cfg op.key op.replica
  numbers : ∀ k row c w, k < cfg.l1Workers.sum → row + 1 = cfg.l1Rows →
    ∃ seen, seenAt (s.head c w).user.lastSeenSeq k = some seen ∧
      Ascends seen ((s.link k row ⟨c, w, 0⟩).map fun op => op.seqId.l1SeqNo)
        (cfg.l1.securityBatchSize * (((s.l1 k).node row).chainSeqNo + 1))

section Cases
variable (s : Ingest)

/-- Where the next command of row `i` of an L1 worker comes from; `m` is the row and `net` the
chain when it is run. -/
inductive L1Source : IngestLabel → L1Oracle → ℕ → ℕ → ChainOp → ChainModule L1State →
    ChainNet L1State → Prop
  | client {oracle k op draws queue} (alive : (s.l1 k).alive 0 = true)
      (valid : Valid cfg (.client oracle k 0 op draws))
      (filled : createSecurityBatch cfg.l1 draws (((s.l1 k).node 0).user.internalQueue ++
        [timed oracle.clock op]) = (queue, .ok (slotOps cfg.l1 (tossCoins cfg.l1 (rounds cfg.l1 draws))
          (((s.l1 k).node 0).user.internalQueue ++ [timed oracle.clock op])))) :
    L1Source (.client oracle k 0 op draws) oracle k 0
      ⟨((s.l1 k).node 0).numbered { clientId := -1, clientSeqNo := -1, serverSeqNo := -1 },
        (slotOps cfg.l1 (tossCoins cfg.l1 (rounds cfg.l1 draws)) (((s.l1 k).node 0).user.internalQueue ++
          [timed oracle.clock op])).flatMap L2Operation.serialize⟩
      (((s.l1 k).node 0).withUser { ((s.l1 k).node 0).user with internalQueue := queue }) (s.l1 k)
  | chain {oracle k j op rest} (alive : (s.l1 k).alive (j + 1) = true)
      (popped : (s.l1 k).link j (j + 1) = op :: rest) :
    L1Source (.l1 oracle k (.deliver j (j + 1))) oracle k (j + 1) op
      (meet ((s.l1 k).node (j + 1)) j) ((s.l1 k).setLink j (j + 1) rest)

/-- Row `i` of an L1 worker runs the next command and, if it is the tail, sends its slots. -/
structure L1Runs (oracle : L1Oracle) (k i : ℕ) (op : ChainOp) (m : ChainModule L1State)
    (net : ChainNet L1State) (o : Outcome (ChainModule L1State) (Send L1Effect)) : Prop where
  alive : (s.l1 k).alive i = true
  agrees : Agrees m ((s.l1 k).node i)
  idx : m.user.idx = ((s.l1 k).node i).user.idx
  iface : m.user.l2Iface = ((s.l1 k).node i).user.l2Iface
  count : m.user.pendingCount = ((s.l1 k).node i).user.pendingCount
  queue : ∀ x ∈ m.user.internalQueue, x.key ∈ cfg.l1.keyToNumberOfReplicas
  rows : net.rows = (s.l1 k).rows
  node : net.node = (s.l1 k).node
  adv : Advanced (s.callbacks cfg oracle) ((s.l1 k).env (s.outside oracle.clock) m) m op o
  flow : Streams cfg.l1 (net.deposit i o)
  batch : GoodBatch cfg op.args
  first : i = 0 ∨ op ∈ ((s.l1 k).node 0).ran

inductive L2Source : IngestLabel → Outside L2Effect → ℕ → ℕ → ℕ → ChainOp →
    ChainModule L2State → ChainNet L2State → (ℕ → ℕ → L2Target → List L2Operation) → Prop
  | link {ext k row c w op rest} (alive : ((s.l2 c).net w).alive 0 = true)
      (popped : s.link k row ⟨c, w, 0⟩ = op :: rest) :
    L2Source (.deliver ext k row ⟨c, w, 0⟩) ext c w 0
      ⟨(s.head c w).numbered (L2Proxy.timed ext.clock op.seqId), L2Proxy.argsOf ext.clock op⟩
      (s.head c w) ((s.l2 c).net w) (s.setLink k row ⟨c, w, 0⟩ rest)
  | chain {ext c w j op rest} (alive : ((s.l2 c).net w).alive (j + 1) = true)
      (popped : ((s.l2 c).net w).link j (j + 1) = op :: rest) :
    L2Source (.l2 ext c (.chain w (.deliver j (j + 1)))) ext c w (j + 1) op
      (meet (((s.l2 c).net w).node (j + 1)) j) (((s.l2 c).net w).setLink j (j + 1) rest) s.link

/-- Row `i` of an L2 worker runs the next command and, if it is the tail, forwards it. -/
structure L2Runs (ext : Outside L2Effect) (c w i : ℕ) (op : ChainOp) (m : ChainModule L2State)
    (net : ChainNet L2State) (o : Outcome (ChainModule L2State) (Send L2Effect)) : Prop where
  alive : ((s.l2 c).net w).alive i = true
  agrees : Agrees m (((s.l2 c).net w).node i)
  user : m.user = (((s.l2 c).net w).node i).user
  rows : net.rows = ((s.l2 c).net w).rows
  node : net.node = ((s.l2 c).net w).node
  adv : Advanced (L2Proxy.callbacks (cfg.l2 c w)) (((s.l2 c).net w).env ext m) m op o
  flow : Flow (L2Proxy.replayable (cfg.l2 c w)) (L2Column.unseen (cfg.l2 c w)) (net.deposit i o)
  runs : L2Proxy.Runs m.user.lastSeenSeq op
  args : GoodArgs cfg op.args
  first : i = 0 ∨ op ∈ (s.head c w).ran

/-- Acknowledgements reach row `i` of an L1 worker from the next row or from the L2 tier. -/
inductive L1Acks : IngestLabel → L1Oracle → ℕ → ℕ → ChainNet L1State →
    Outcome (ChainModule L1State) (Send L1Effect) → Prop
  | chain {oracle k n a} (found : (s.l1 k).acks[n]? = some a)
      (alive : (s.l1 k).alive a.dst = true) :
    L1Acks (.l1 oracle k (.ackDeliver n)) oracle k a.dst
      { s.l1 k with acks := (s.l1 k).acks.eraseIdx n }
      (((s.l1 k).node a.dst).ackBatch (s.callbacks cfg oracle)
        ((s.l1 k).env (s.outside oracle.clock) ((s.l1 k).node a.dst)) a.seqs)
  | external {oracle k row seqs} (alive : (s.l1 k).alive row = true) :
    L1Acks (.ackL1 oracle k row seqs) oracle k row (s.l1 k)
      (L1Proxy.externalAckBatch cfg.l1 (s.callbacks cfg oracle)
        ((s.l1 k).env (s.outside oracle.clock) ((s.l1 k).node row)) ((s.l1 k).node row) seqs)

/-- Acknowledgements reach row `i` of an L2 worker from the next row or from the L3 tier. -/
inductive L2Acks : IngestLabel → Outside L2Effect → ℕ → ℕ → ℕ → ChainNet L2State →
    Outcome (ChainModule L2State) (Send L2Effect) → Prop
  | chain {ext c w n a} (found : ((s.l2 c).net w).acks[n]? = some a)
      (alive : ((s.l2 c).net w).alive a.dst = true) :
    L2Acks (.l2 ext c (.chain w (.ackDeliver n))) ext c w a.dst
      { (s.l2 c).net w with acks := ((s.l2 c).net w).acks.eraseIdx n }
      ((((s.l2 c).net w).node a.dst).ackBatch (L2Proxy.callbacks (cfg.l2 c w))
        (((s.l2 c).net w).env ext (((s.l2 c).net w).node a.dst)) a.seqs)
  | external {ext c w row seqs} (alive : ((s.l2 c).net w).alive row = true) :
    L2Acks (.l2 ext c (.externalAck w row seqs)) ext c w row ((s.l2 c).net w)
      (L2Proxy.externalAckBatch (cfg.l2 c w)
        (((s.l2 c).net w).env ext (((s.l2 c).net w).node row)) (((s.l2 c).net w).node row) seqs)

/-- Everything a step of the two tiers can be as long as none of their instances fails. -/
inductive SteadyCase : IngestLabel → IngestResult → Prop
  | ignored {oracle k row op draws} (follower : row ≠ 0) :
    SteadyCase (.client oracle k row op draws) ⟨s, [], .dropped⟩
  | l1Run {label oracle k i op m net o} (source : L1Source cfg s label oracle k i op m net)
      (runs : L1Runs cfg s oracle k i op m net o) :
    SteadyCase label ⟨s.absorb k i (net.finish i o), [], o.status⟩
  | l1Acks {label oracle k i net o} (source : L1Acks cfg s label oracle k i net o) :
    SteadyCase label ⟨s.absorb k i (net.finish i o), [], o.status⟩
  | l2Run {label ext c w i op m net link o}
      (source : L2Source s label ext c w i op m net link)
      (runs : L2Runs cfg s ext c w i op m net o) :
    SteadyCase label
      ⟨{ s with
        l2 := Function.update s.l2 c ((s.l2 c).absorb (cfg.l2 c) w i (net.finish i o)).column
        link := link },
        ((s.l2 c).absorb (cfg.l2 c) w i (net.finish i o)).sent, o.status⟩
  | l2Acks {label ext c w i net o} (source : L2Acks cfg s label ext c w i net o) :
    SteadyCase label
      ⟨{ s with
        l2 := Function.update s.l2 c ((s.l2 c).absorb (cfg.l2 c) w i (net.finish i o)).column },
        ((s.l2 c).absorb (cfg.l2 c) w i (net.finish i o)).sent, o.status⟩

end Cases

variable {cfg} {s : Ingest}

lemma meet_user {σ : Type} (m : ChainModule σ) (i : ℕ) : (meet m i).user = m.user := by
  unfold meet
  split <;> rfl

lemma absorb_same {k i : ℕ} (r : NetResult L1State L1Effect) :
    ({ s.absorb k i r with managerUp := s.managerUp && true } : Ingest) = s.absorb k i r := by
  rw [Bool.and_true]
  rfl

lemma batch_filled (shape : Shaped cfg) (h : Calm cfg s) {oracle : L1Oracle} {k : ℕ} {op : L1Operation}
    {draws : ℕ → Draw} (valid : Valid cfg (.client oracle k 0 op draws)) :
    ∀ o ∈ slotOps cfg.l1 (tossCoins cfg.l1 (rounds cfg.l1 draws)) (((s.l1 k).node 0).user.internalQueue ++
      [timed oracle.clock op]), Good cfg o.key o.replica := by
  obtain ⟨known, samples⟩ := valid
  have queued : ∀ x ∈ ((s.l1 k).node 0).user.internalQueue ++ [timed oracle.clock op],
      x.key ∈ cfg.l1.keyToNumberOfReplicas := by
    intro x hx
    rcases List.mem_append.mp hx with old | new
    · exact h.queue k 0 x old
    · rw [List.mem_singleton.mp new, timed_key]
      exact known
  intro o ho
  have key := slotOps_key (P := fun key => key ∈ cfg.l1.keyToNumberOfReplicas)
    (tossCoins_samples samples) queued o ho
  obtain ⟨r, found⟩ := Option.isSome_iff_exists.mp (AList.lookup_isSome.mpr key)
  exact ⟨r, found, slotOps_range (shape.replicas o.key r found) o ho found⟩

theorem steady_cases (shape : Shaped cfg) (h : Calm cfg s) {label : IngestLabel} {r : IngestResult}
    (steady : label.steady = true) (valid : Valid cfg label)
    (taken : s.step cfg label = some r) : SteadyCase cfg s label r := by
  cases label with
  | client oracle k row op draws =>
    simp only [step, Option.ite_none_right_eq_some, Option.some.injEq] at taken
    obtain ⟨alive, rfl⟩ := taken
    have flow := (h.l1 k).flow oracle.pick s.reach
    rcases @processOp_cases cfg.l1 oracle.pick s.reach
        ((s.l1 k).env (s.outside oracle.clock) ((s.l1 k).node row)) ((s.l1 k).node row) op draws with
      ⟨follower, dropped⟩ | ⟨head, queue, failed⟩
    · have other : row ≠ 0 := fun zero => by
        rw [(flow.isHead_iff alive).mpr zero] at follower
        simp at follower
      rw [dropped, ChainNet.finish, ChainNet.deposit_idle _ _ rfl rfl, Outcome.drop_sent, outsOf_nil,
        absorb_idle]
      exact .ignored other
    · obtain rfl := (flow.isHead_iff alive).mp head
      have good := batch_filled shape h valid
      have filled := @fillBatch_slotOps cfg.l1 (tossCoins cfg.l1 (rounds cfg.l1 draws))
        (((s.l1 k).node 0).user.internalQueue ++ [timed oracle.clock op]) [] fun o ho =>
        AList.lookup_isSome.mp (Option.isSome_iff_exists.mpr
          ((good o ho).imp fun _ found => found.1))
      rcases failed with ⟨e, error, _⟩ | ⟨batch, made, accepted⟩
      · have broken : fillBatch cfg.l1 (tossCoins cfg.l1 (rounds cfg.l1 draws))
            (((s.l1 k).node 0).user.internalQueue ++ [timed oracle.clock op]) [] =
            (queue, .error e) := error
        rw [broken] at filled
        simp at filled
      · have whole : fillBatch cfg.l1 (tossCoins cfg.l1 (rounds cfg.l1 draws))
            (((s.l1 k).node 0).user.internalQueue ++ [timed oracle.clock op]) [] =
            (queue, .ok batch) := made
        have same : batch = slotOps cfg.l1 (tossCoins cfg.l1 (rounds cfg.l1 draws))
            (((s.l1 k).node 0).user.internalQueue ++ [timed oracle.clock op]) := by
          rw [whole, List.nil_append] at filled
          exact Except.ok.inj filled
        subst same
        rw [accepted]
        obtain ⟨flow', ⟨no, _⟩ | ⟨_, adv⟩⟩ := flow.request (s.outside oracle.clock) alive
          (agrees_withUser ((s.l1 k).node 0) { ((s.l1 k).node 0).user with internalQueue := queue })
          rfl { clientId := -1, clientSeqNo := -1, serverSeqNo := -1 } trivial
        · exact absurd trivial no
        · refine .l1Run (.client alive valid made) ⟨alive, agrees_withUser _ _, rfl, rfl, rfl, ?_,
            rfl, rfl, adv, streams_of_flow flow', ?_, .inl rfl⟩
          · intro x hx
            have suffix := @fillBatch_queue cfg.l1 (tossCoins cfg.l1 (rounds cfg.l1 draws))
              (((s.l1 k).node 0).user.internalQueue ++ [timed oracle.clock op]) []
            rw [whole] at suffix
            rcases List.mem_append.mp (suffix.subset hx) with old | new
            · exact h.queue k 0 x old
            · rw [List.mem_singleton.mp new, timed_key]
              exact valid.1
          · refine ⟨_, L2Operation.deserializeBatch_serialize _, ?_, ?_⟩
            · rw [List.length_map, slotOps_length, tossCoins_length, rounds_length,
                Int.toNat_of_nonneg (by have := shape.size; omega)]
            · intro o ho
              obtain ⟨o', ho', rfl⟩ := List.mem_map.mp ho
              exact good o' ho'
  | l1 oracle k nl =>
    simp only [step, Bool.and_eq_true, Option.ite_none_right_eq_some] at taken
    obtain ⟨⟨internal, -⟩, taken⟩ := taken
    obtain ⟨res, moved, rfl⟩ := Option.map_eq_some_iff.mp taken
    cases ChainNet.step_cases moved with
    | @deliver i j op rest popped alive =>
      have survives : s.survives cfg k (.deliver i j) = true := rfl
      rw [survives, absorb_same]
      have flow := (h.l1 k).flow oracle.pick s.reach
      obtain ⟨flow', rfl, adv⟩ := flow.deliver (s.outside oracle.clock) alive popped
      have inside : i + 1 < (s.l1 k).rows := by simpa [flow.alive] using alive
      have ran : op ∈ ((s.l1 k).node 0).ran := by
        refine (flow.prefix_of_le (Nat.zero_le i) (by omega)).subset ?_
        rw [flow.link i inside, popped]
        simp
      refine .l1Run (.chain alive popped) ⟨alive, agrees_meet _ _, ?_, ?_, ?_, ?_, rfl, rfl, adv,
        streams_of_flow flow', h.batches k op ran, .inr ran⟩
      · exact congrArg L1State.idx (meet_user _ _)
      · exact congrArg L1State.l2Iface (meet_user _ _)
      · exact congrArg L1State.pendingCount (meet_user _ _)
      · rw [meet_user]
        exact h.queue k (i + 1)
    | @ackDeliver n a found alive =>
      have survives : s.survives cfg k (.ackDeliver n) = true := rfl
      have row : NetLabel.row (.ackDeliver n : NetLabel L1State) (s.l1 k).acks = a.dst := by
        simp [NetLabel.row, found]
      rw [survives, absorb_same, row]
      exact .l1Acks (.chain found alive)
    | request | ackFrom | touch | crash => simp [NetLabel.internal] at internal
    | setup | fetch | resend | lose | loseAck => simp [IngestLabel.steady, NetLabel.steady] at steady
  | ackL1 oracle k row seqs =>
    simp only [step, Option.ite_none_right_eq_some, Option.some.injEq] at taken
    obtain ⟨alive, rfl⟩ := taken
    exact .l1Acks (.external alive)
  | deliver ext k row x =>
    simp only [step] at taken
    split at taken
    · simp at taken
    · next op rest popped =>
      obtain ⟨inTier, last, first, n, column, worker⟩ := h.ends k row x (by simp [popped])
      obtain ⟨c, w, r⟩ := x
      obtain rfl : r = 0 := first
      simp only [L2Column.step, Option.map_eq_some_iff, Option.ite_none_right_eq_some,
        Option.some.injEq] at taken
      obtain ⟨_, ⟨alive, rfl⟩, rfl⟩ := taken
      obtain ⟨idx, good⟩ := h.linked k row ⟨c, w, 0⟩ op (by simp [popped])
      obtain ⟨seen, found, ascends⟩ := h.numbers k row c w inTier last
      rw [popped, List.map_cons] at ascends
      have new := ascends.pop.1
      rw [← idx] at found
      have known : op.key ∈ (cfg.l2 c w).keyToNumberOfReplicas := by
        rw [shape.tables]
        exact AList.lookup_isSome.mp (Option.isSome_iff_exists.mpr (good.imp fun _ h => h.1))
      have runs : L2Proxy.Runs (s.head c w).user.lastSeenSeq
          ⟨(s.head c w).numbered (L2Proxy.timed ext.clock op.seqId),
            L2Proxy.argsOf ext.clock op⟩ := by
        refine ⟨seen, ?_, ?_⟩
        · rw [L2Proxy.numbered_l1Idx, L2Proxy.timed_l1Idx]
          exact found
        · rw [L2Proxy.numbered_l1SeqNo, L2Proxy.timed_l1SeqNo]
          exact new
      have isHead : (s.head c w).isHead = true := ((h.l2 c w).isHead_iff alive).mpr rfl
      have parsed := @L2Operation.deserialize_serialize
        { op with seqId := L2Proxy.timed ext.clock op.seqId } [] (by simp [L2Operation.NoField])
      rw [List.append_nil] at parsed
      obtain ⟨flow', ⟨no, _⟩ | ⟨_, adv⟩⟩ := (h.l2 c w).request ext alive .rfl rfl
        (L2Proxy.timed ext.clock op.seqId) (L2Proxy.fits_serialize
          { op with seqId := L2Proxy.timed ext.clock op.seqId })
      · exact absurd runs no
      · have accepted := @L2Proxy.asyncOperation_new (cfg.l2 c w)
          (((s.l2 c).net w).env ext (((s.l2 c).net w).node 0)) _ op seen isHead found new known
        have result : SteadyCase cfg s (.deliver ext k row ⟨c, w, 0⟩) _ :=
          .l2Run (.link alive popped) ⟨alive, .rfl, rfl, rfl, rfl, adv, flow', runs,
            ⟨_, _, parsed, good⟩, .inl rfl⟩
        rw [show L2Proxy.asyncOperation (cfg.l2 c w) (((s.l2 c).net w).env ext
          (((s.l2 c).net w).node 0)) (((s.l2 c).net w).node 0) op = _ from accepted]
        exact result
  | l2 ext column label =>
    cases label with
    | request => simp [step] at taken
    | crash => simp [IngestLabel.steady, L2Label.steady] at steady
    | externalAck w row seqs =>
      simp only [step, L2Column.step, Option.map_eq_some_iff, Option.ite_none_right_eq_some,
        Option.some.injEq] at taken
      obtain ⟨_, ⟨alive, rfl⟩, rfl⟩ := taken
      exact .l2Acks (.external alive)
    | chain w nl =>
      simp only [step, L2Column.step, Option.map_eq_some_iff,
        Option.ite_none_right_eq_some] at taken
      obtain ⟨_, ⟨internal, res, moved, rfl⟩, rfl⟩ := taken
      cases ChainNet.step_cases moved with
      | @deliver i j op rest popped alive =>
        obtain ⟨flow', rfl, adv⟩ := (h.l2 column w).deliver ext alive popped
        have inside : i + 1 < ((s.l2 column).net w).rows := by
          simpa [(h.l2 column w).alive] using alive
        have before := (h.l2 column w).link i inside
        rw [popped] at before
        have ran : op ∈ (s.head column w).ran := by
          refine ((h.l2 column w).prefix_of_le (Nat.zero_le i) (by omega)).subset ?_
          simp [before]
        obtain ⟨_, runs⟩ := (h.l2 column w).valid i _ _ _ before
        rw [← (h.l2 column w).view (i + 1), ← meet_user _ i] at runs
        exact .l2Run (.chain alive popped) ⟨alive, agrees_meet _ _, meet_user _ _, rfl, rfl, adv,
          flow', runs, h.commands column w op ran, .inr ran⟩
      | @ackDeliver n a found alive =>
        have row : NetLabel.row (.ackDeliver n : NetLabel L2State) ((s.l2 column).net w).acks =
            a.dst := by
          simp [NetLabel.row, found]
        rw [row]
        exact .l2Acks (.chain found alive)
      | request | ackFrom | touch | crash => simp [NetLabel.internal] at internal
      | setup | fetch | resend | lose | loseAck =>
        simp [IngestLabel.steady, L2Label.steady, NetLabel.steady] at steady
  | crashL1 | lose | reconnect => simp [IngestLabel.steady] at steady

end Ingest
end Shortstack
