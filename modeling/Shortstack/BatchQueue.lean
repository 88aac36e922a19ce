import Shortstack.L1ProxySpec
import Shortstack.LibTransition
import Shortstack.Initializer

/-! The queue of an L1 head over whole runs. Requests leave it in the order they came, each in
a slot that is flagged true, and every other slot is fake. When a key is unknown the requests
taken for the same batch are gone. -/
namespace Shortstack

/-- The request a slot of a batch was filled with. -/
def L2Operation.request (op : L2Operation) : L1Operation := ⟨op.seqId, op.key, op.value⟩

namespace L1Proxy
open ChainModule Transition
variable {cfg : L1Config} {pick : ℤ → ℕ} {reach : ℕ → ℕ → Bool} {env : Env L1Effect}

/-- The flags of the slots: a true coin that finds a request. -/
def slotFlags : List Draw → List L1Operation → List Bool
  | [], _ => []
  | d :: draws, queue => (d.coin && !queue.isEmpty) :: slotFlags draws (fillSlot d queue).2

/-- The vector `is_trues` that `create_security_batch` fills beside the batch. -/
def isTrues (cfg : L1Config) (draws : ℕ → Draw) (queue : List L1Operation) : List Bool :=
  slotFlags (tossCoins cfg (rounds cfg draws)) queue

/-- The requests in the slots that are flagged true. -/
def flagged (batch : List (L2Operation × Bool)) : List L1Operation :=
  (batch.filter Prod.snd).map fun slot => slot.1.request

lemma slotFlags_length (draws : List Draw) (queue : List L1Operation) :
    (slotFlags draws queue).length = draws.length := by
  induction draws generalizing queue with
  | nil => rfl
  | cons d draws ih => simp [slotFlags, ih]

/-- Every true coin takes one request. -/
def leftOver (draws : List Draw) (queue : List L1Operation) : List L1Operation :=
  queue.drop (draws.countP Draw.coin)

lemma leftOver_cons (d : Draw) (draws : List Draw) (queue : List L1Operation) :
    leftOver (d :: draws) queue = leftOver draws (fillSlot d queue).2 := by
  unfold leftOver fillSlot
  cases hc : d.coin with
  | false => simp [hc]
  | true => cases queue <;> simp [hc]

lemma fillBatch_known {draws : List Draw} {queue : List L1Operation} {batch : List L2Operation}
    (known : ∀ op ∈ slotOps cfg draws queue, op.key ∈ cfg.keyToNumberOfReplicas) :
    fillBatch cfg draws queue batch = (leftOver draws queue, .ok (batch ++ slotOps cfg draws queue)) := by
  refine Prod.ext ?_ (fillBatch_slotOps known)
  induction draws generalizing queue batch with
  | nil => rfl
  | cons d draws ih =>
    rw [fillBatch_cons (known (drawReplica cfg d (fillSlot d queue).1) List.mem_cons_self),
      leftOver_cons]
    exact ih fun op hop => known op (by rw [slotOps]; exact List.mem_cons_of_mem _ hop)

lemma flagged_slotOps (cfg : L1Config) (draws : List Draw) (queue : List L1Operation) :
    flagged ((slotOps cfg draws queue).zip (slotFlags draws queue)) ++ leftOver draws queue = queue := by
  induction draws generalizing queue with
  | nil => rfl
  | cons d draws ih =>
    rw [leftOver_cons, slotOps, slotFlags, List.zip_cons_cons, flagged]
    have rest := ih (fillSlot d queue).2
    unfold flagged at rest
    cases hc : d.coin with
    | false =>
      have same : (fillSlot d queue).2 = queue := by simp [fillSlot, hc]
      rw [same] at rest ⊢
      simpa using rest
    | true =>
      cases queue with
      | nil => simpa [fillSlot, hc] using rest
      | cons op queue =>
        have popped : (fillSlot d (op :: queue)) = (⟨op.seqId, op.key, 0, op.value⟩, queue) := by
          simp [fillSlot, hc]
        rw [popped] at rest ⊢
        simpa [L2Operation.request, drawReplica] using rest

lemma fake_of_unflagged {draws : List Draw} {queue : List L1Operation} {op : L2Operation}
    (slot : (op, false) ∈ (slotOps cfg draws queue).zip (slotFlags draws queue)) :
    op.seqId.clientId = fakeClientId ∧ op.value = "" := by
  induction draws generalizing queue with
  | nil => simp [slotOps] at slot
  | cons d draws ih =>
    rw [slotOps, slotFlags, List.zip_cons_cons, List.mem_cons] at slot
    rcases slot with first | later
    · obtain ⟨rfl, flag⟩ := Prod.mk.inj first
      unfold fillSlot
      cases hc : d.coin with
      | false => exact ⟨rfl, rfl⟩
      | true =>
        cases queue with
        | nil => exact ⟨rfl, rfl⟩
        | cons op queue => simp [hc] at flag
    · exact ih later

/-- A key with at least one replica. -/
def HasReplicas (cfg : L1Config) (key : String) : Prop :=
  ∃ r, cfg.keyToNumberOfReplicas.lookup key = some r ∧ 0 < r

lemma HasReplicas.mem {key : String} (h : HasReplicas cfg key) : key ∈ cfg.keyToNumberOfReplicas := by
  obtain ⟨r, found, -⟩ := h
  exact AList.lookup_isSome.mp (by rw [found]; rfl)

/-- What the random functions can return: samples among the items of the two distributions. -/
def Rolled (real fake : Distribution) (draws : List Draw) : Prop :=
  ∀ d ∈ draws, d.real ∈ real.items ∧ d.fake ∈ fake.items

/-- A call of `process_op` and what the outside decides during it. -/
structure Call where
  pick : ℤ → ℕ
  reach : ℕ → ℕ → Bool
  env : Env L1Effect
  op : L1Operation
  draws : ℕ → Draw

/-- A replica with the batches it has created, each slot with its flag, and the requests
submitted to it. -/
structure BatchHistory where
  node : ChainModule L1State
  batches : List (List (L2Operation × Bool))
  submitted : List L1Operation

namespace BatchHistory

/-- The queue `create_security_batch` finds. -/
def offered (h : BatchHistory) (c : Call) : List L1Operation :=
  h.node.user.internalQueue ++ [timed c.env.clock c.op]

def processOp (cfg : L1Config) (h : BatchHistory) (c : Call) : BatchHistory where
  node := (L1Proxy.processOp cfg c.pick c.reach c.env h.node c.op c.draws).state
  batches := match (createSecurityBatch cfg c.draws (h.offered c)).2 with
    | .ok batch => h.batches ++ [batch.zip (isTrues cfg c.draws (h.offered c))]
    | .error _ => h.batches
  submitted := h.submitted ++ [timed c.env.clock c.op]

end BatchHistory

/-- An L1 head that starts with an empty queue and handles one call after the other. -/
def batching (cfg : L1Config) : System BatchHistory Call where
  init h := h.node.isHead = true ∧ h.node.user.internalQueue = [] ∧ h.batches = [] ∧
    h.submitted = []
  step h c := some (h.processOp cfg c)

/-- A call with a known key and possible outcomes of the random functions. -/
def Answerable (cfg : L1Config) (real fake : Distribution) (_ : BatchHistory) (c : Call) : Prop :=
  HasReplicas cfg c.op.key ∧ Rolled real fake (rounds cfg c.draws)

/-- Where the requests are. -/
structure Batched (cfg : L1Config) (h : BatchHistory) : Prop where
  head : h.node.isHead = true
  queued : ∀ op ∈ h.node.user.internalQueue, HasReplicas cfg op.key
  exact : h.batches.flatMap flagged ++ h.node.user.internalQueue = h.submitted
  size : ∀ batch ∈ h.batches, batch.length = cfg.securityBatchSize.toNat
  replica : ∀ batch ∈ h.batches, ∀ slot ∈ batch, ∃ r,
    cfg.keyToNumberOfReplicas.lookup slot.1.key = some r ∧ 0 ≤ slot.1.replica.toInt ∧
      slot.1.replica.toInt < r
  fake : ∀ batch ∈ h.batches, ∀ op, (op, false) ∈ batch →
    op.seqId.clientId = fakeClientId ∧ op.value = ""
  drained : cfg.disableAllFalse = true → 1 ≤ cfg.securityBatchSize →
    h.node.user.internalQueue = []

lemma queue_kept (cfg : L1Config) (pick : ℤ → ℕ) (reach : ℕ → ℕ → Bool) (role : ChainRole)
    (queue : List L1Operation) : ChainNet.Kept (callbacks cfg pick reach)
      fun m => m.role = role ∧ m.user.internalQueue = queue := by
  refine ChainNet.Kept.of_callbacks
    (J := fun r (u : L1State) _ => r = role ∧ u.internalQueue = queue) ?_ ?_ ?_ ?_
  · exact fun _ _ _ _ _ h _ => h
  · exact fun _ _ _ _ _ h _ => h
  · intro env _ u _ seq args h
    rwa [show ((callbacks cfg pick reach).replicationComplete env u seq args).state = u from
      replicationComplete_state _ _ _]
  · exact fun _ _ _ _ _ _ h => h

lemma tossCoins_true {draws : List Draw} (disabled : cfg.disableAllFalse = true)
    (some' : draws ≠ []) : 0 < (tossCoins cfg draws).countP Draw.coin := by
  unfold tossCoins
  cases hany : draws.any Draw.coin with
  | true =>
    simp only [disabled, Bool.not_true, Bool.and_false, Bool.false_eq_true, if_false]
    obtain ⟨d, mem, coin⟩ := List.any_eq_true.mp hany
    exact List.countP_pos_iff.mpr ⟨d, mem, coin⟩
  | false =>
    cases draws with
    | nil => exact absurd rfl some'
    | cons d draws => simp [disabled]

variable {real fake : Distribution} {h : BatchHistory} {c : Call}

lemma slotOps_known (tables : ∀ k, k ∈ real.items ∨ k ∈ fake.items → HasReplicas cfg k)
    {queue : List L1Operation} (queued : ∀ op ∈ queue, HasReplicas cfg op.key)
    (rolled : Rolled real fake (rounds cfg c.draws)) :
    ∀ o ∈ slotOps cfg (tossCoins cfg (rounds cfg c.draws)) queue, HasReplicas cfg o.key := by
  refine slotOps_key ?_ queued
  refine tossCoins_samples fun d hd => ?_
  obtain ⟨r, f⟩ := rolled d hd
  exact ⟨tables _ (.inl r), tables _ (.inr f)⟩

lemma processOp_known (head : h.node.isHead = true)
    (known : ∀ o ∈ slotOps cfg (tossCoins cfg (rounds cfg c.draws)) (h.offered c), HasReplicas cfg o.key) :
    (h.processOp cfg c).node.isHead = true ∧
    (h.processOp cfg c).node.user.internalQueue =
      leftOver (tossCoins cfg (rounds cfg c.draws)) (h.offered c) ∧
    (h.processOp cfg c).batches = h.batches ++
      [(slotOps cfg (tossCoins cfg (rounds cfg c.draws)) (h.offered c)).zip (isTrues cfg c.draws (h.offered c))] := by
  have filled : createSecurityBatch cfg c.draws (h.offered c) =
      (leftOver (tossCoins cfg (rounds cfg c.draws)) (h.offered c),
        .ok (slotOps cfg (tossCoins cfg (rounds cfg c.draws)) (h.offered c))) := by
    unfold createSecurityBatch
    rw [fillBatch_known fun o ho => (known o ho).mem, List.nil_append]
  have kept := (queue_kept cfg c.pick c.reach h.node.role
    (leftOver (tossCoins cfg (rounds cfg c.draws)) (h.offered c))).request c.env
      (h.node.withUser { h.node.user with
        internalQueue := leftOver (tossCoins cfg (rounds cfg c.draws)) (h.offered c) })
      { clientId := -1, clientSeqNo := -1, serverSeqNo := -1 }
      ((slotOps cfg (tossCoins cfg (rounds cfg c.draws)) (h.offered c)).flatMap L2Operation.serialize) ⟨rfl, rfl⟩
  unfold BatchHistory.processOp
  dsimp only
  rw [filled]
  rcases @processOp_cases cfg c.pick c.reach c.env h.node c.op c.draws with
    ⟨other, _⟩ | ⟨_, queue, ⟨e, failed, _⟩ | ⟨batch, created, eq⟩⟩
  · rw [head] at other
    simp at other
  · rw [show h.node.user.internalQueue ++ [timed c.env.clock c.op] = h.offered c from rfl,
      filled] at failed
    simp at failed
  · rw [show h.node.user.internalQueue ++ [timed c.env.clock c.op] = h.offered c from rfl,
      filled, Prod.mk.injEq, Except.ok.injEq] at created
    rw [eq, ← created.1, ← created.2]
    refine ⟨?_, kept.2, rfl⟩
    unfold ChainModule.isHead at head ⊢
    rw [kept.1, head]

lemma Batched.processOp (tables : ∀ k, k ∈ real.items ∨ k ∈ fake.items → HasReplicas cfg k)
    (inv : Batched cfg h) (ok : Answerable cfg real fake h c) :
    Batched cfg (h.processOp cfg c) := by
  obtain ⟨key, rolled⟩ := ok
  have queued : ∀ op ∈ h.offered c, HasReplicas cfg op.key := by
    intro op hop
    rcases List.mem_append.mp hop with old | new
    · exact inv.queued op old
    · rw [List.mem_singleton.mp new, timed_key]
      exact key
  have known := slotOps_known tables queued rolled
  obtain ⟨head, queue, batches⟩ := processOp_known inv.head known
  have last : ∀ {P : List (L2Operation × Bool) → Prop}, (∀ b ∈ h.batches, P b) →
      P ((slotOps cfg (tossCoins cfg (rounds cfg c.draws)) (h.offered c)).zip (isTrues cfg c.draws (h.offered c))) →
      ∀ b ∈ (h.processOp cfg c).batches, P b := by
    intro P old new b hb
    rw [batches, List.mem_append, List.mem_singleton] at hb
    rcases hb with hb | rfl
    · exact old b hb
    · exact new
  refine ⟨head, ?_, ?_, last inv.size ?_, last inv.replica ?_, last inv.fake ?_, ?_⟩
  · rw [queue]
    exact fun op hop => queued op (List.drop_subset _ _ hop)
  · rw [queue, batches, List.flatMap_append, List.flatMap_singleton, List.append_assoc]
    unfold isTrues
    rw [flagged_slotOps]
    unfold BatchHistory.offered BatchHistory.processOp
    rw [← List.append_assoc, inv.exact]
  · rw [List.length_zip, slotOps_length, isTrues, slotFlags_length, tossCoins_length, rounds_length]
    exact min_self _
  · intro slot mem
    have inside := (List.of_mem_zip mem).1
    obtain ⟨r, found, pos⟩ := known _ inside
    exact ⟨r, found, slotOps_range pos _ inside found⟩
  · exact fun op => fake_of_unflagged
  · intro disabled some'
    have before := inv.drained disabled some'
    have coins : 0 < (tossCoins cfg (rounds cfg c.draws)).countP Draw.coin := by
      refine tossCoins_true disabled fun none => ?_
      have size := @rounds_length cfg c.draws
      rw [none, List.length_nil] at size
      omega
    rw [queue, leftOver, List.drop_eq_nil_iff, BatchHistory.offered, before]
    simpa using coins

/-- Batching neither loses, duplicates nor reorders requests: what the flagged slots carry and
what is queued is what was submitted; all batches are full and all other slots fake. -/
theorem requests_batched_exactly
    (tables : ∀ k, k ∈ real.items ∨ k ∈ fake.items → HasReplicas cfg k) {h : BatchHistory}
    (run : Reaches (batching cfg) (Answerable cfg real fake) h) : Batched cfg h := by
  refine run.invariant ?_ ?_
  · rintro h ⟨head, queue, batches, submitted⟩
    refine ⟨head, ?_, ?_, ?_, ?_, ?_, fun _ _ => queue⟩ <;> simp [queue, batches, submitted]
  · intro h c t inv ok taken
    cases taken
    exact inv.processOp tables ok

lemma twoKeys_counts : IntCounts ((AList.singleton "a" 1).insert "b" 2) := by decide

/-- Two keys, "b" with two replicas. -/
def twoKeys : L1Config where
  dummyKey := "dummy"
  keyToNumberOfReplicas := (AList.singleton "a" 1).insert "b" 2
  counts := twoKeys_counts
  securityBatchSize := 2
  disableAllFalse := false
  ackBatchSize := 1
  l2Workers := []

def idleHead : ChainModule L1State := { user := initState 0 }

def twoKeysCall : Call :=
  ⟨fun _ => 0, fun _ _ => true, ⟨true, true, fun _ => true, none⟩, ⟨{ clientId := 7 }, "a", "v"⟩,
    fun i => ⟨i == 1, "a", "b", 3⟩⟩

theorem requests_batched_exactly_twoKeys :
    Batched twoKeys (BatchHistory.processOp twoKeys ⟨idleHead, [], []⟩ twoKeysCall) := by
  have tables : ∀ k, k ∈ ["a", "b"] ∨ k ∈ ["b"] → HasReplicas twoKeys k := by
    intro k mem
    have : k = "a" ∨ k = "b" := by simpa [or_assoc] using mem
    rcases this with rfl | rfl
    · exact ⟨1, by decide, by decide⟩
    · exact ⟨2, by decide, by decide⟩
  have rolled : ∀ d ∈ rounds twoKeys twoKeysCall.draws, d.real ∈ ["a", "b"] ∧ d.fake ∈ ["b"] := by
    decide
  exact @requests_batched_exactly twoKeys ⟨["a", "b"], []⟩ ⟨["b"], []⟩ tables _
    (.step (.init ⟨by decide, rfl, rfl, rfl⟩) ⟨⟨1, by decide, by decide⟩, rolled⟩ rfl)

section UnknownKeys

/-- The requests whose key is in the replica table. -/
def knownRequests (cfg : L1Config) (queue : List L1Operation) : List L1Operation :=
  queue.filter fun op => op.key ∈ cfg.keyToNumberOfReplicas

/-- A slot with an unknown key comes before the first request with a known one is taken: the
request in front is unknown, or a fake sample before the first true coin is. -/
def FailsFirst (cfg : L1Config) (draws : List Draw) (queue : List L1Operation) : Prop :=
  (∀ op ∈ queue.head?, op.key ∉ cfg.keyToNumberOfReplicas) ∨
    ∃ d ∈ draws.takeWhile (fun d => !d.coin), d.fake ∉ cfg.keyToNumberOfReplicas

lemma knownRequests_lost {op : L1Operation} {queue rest : List L1Operation}
    (known : op.key ∈ cfg.keyToNumberOfReplicas) (suffix : rest <:+ queue) :
    knownRequests cfg rest ≠ knownRequests cfg (op :: queue) := by
  intro same
  have shorter := (suffix.sublist.filter fun x => decide (x.key ∈ cfg.keyToNumberOfReplicas)).length_le
  have longer := congrArg List.length same
  unfold knownRequests at longer
  rw [List.filter_cons_of_pos (by simpa using known), List.length_cons] at longer
  omega

lemma fillBatch_spares_iff {draws : List Draw} {queue : List L1Operation} {batch : List L2Operation}
    {e : String} (some' : queue ≠ []) (failed : (fillBatch cfg draws queue batch).2 = .error e) :
    knownRequests cfg (fillBatch cfg draws queue batch).1 = knownRequests cfg queue ↔
      FailsFirst cfg draws queue := by
  induction draws generalizing batch with
  | nil => simp [fillBatch] at failed
  | cons d draws ih =>
    cases hc : d.coin with
    | false =>
      have slot : fillSlot d queue = (⟨{ clientId := fakeClientId }, d.fake, 0, ""⟩, queue) := by
        simp [fillSlot, hc]
      have first : FailsFirst cfg (d :: draws) queue ↔
          d.fake ∉ cfg.keyToNumberOfReplicas ∨ FailsFirst cfg draws queue := by
        unfold FailsFirst
        rw [List.takeWhile_cons_of_pos (by simp [hc])]
        simp only [List.mem_cons, exists_eq_or_imp]
        tauto
      have key : (fillSlot d queue).1.key = d.fake := by rw [slot]
      have rest : (fillSlot d queue).2 = queue := by rw [slot]
      rw [first]
      by_cases known : (fillSlot d queue).1.key ∈ cfg.keyToNumberOfReplicas
      · rw [fillBatch_cons known, rest] at failed ⊢
        rw [ih failed]
        exact ⟨Or.inr, fun h => h.resolve_left (not_not.mpr (key ▸ known))⟩
      · rw [fillBatch_unknown known, rest]
        exact iff_of_true rfl (.inl (key ▸ known))
    | true =>
      cases queue with
      | nil => exact absurd rfl some'
      | cons op queue =>
        have slot : fillSlot d (op :: queue) = (⟨op.seqId, op.key, 0, op.value⟩, queue) := by
          simp [fillSlot, hc]
        have first : FailsFirst cfg (d :: draws) (op :: queue) ↔
            op.key ∉ cfg.keyToNumberOfReplicas := by
          unfold FailsFirst
          rw [List.takeWhile_cons_of_neg (by simp [hc])]
          simp
        have key : (fillSlot d (op :: queue)).1.key = op.key := by rw [slot]
        have rest : (fillSlot d (op :: queue)).2 = queue := by rw [slot]
        rw [first]
        by_cases known : op.key ∈ cfg.keyToNumberOfReplicas
        · rw [fillBatch_cons (key ▸ known), rest]
          exact iff_of_false (knownRequests_lost known (fillBatch_queue draws queue _))
            (not_not.mpr known)
        · rw [fillBatch_unknown (key ▸ known), rest]
          refine iff_of_true ?_ known
          unfold knownRequests
          rw [List.filter_cons_of_neg (by simpa using known)]

lemma chainRequest_message (m : ChainModule L1State) (seq : SequenceId) (batch : List L2Operation)
    (k : String) : (m.chainRequest (callbacks cfg pick reach) env seq
      (batch.flatMap L2Operation.serialize)).status ≠ .raised ("key not found: " ++ k) := by
  have other : ∀ e : String, e.toList.head? ≠ some 'k' → e ≠ "key not found: " ++ k := by
    rintro e first rfl
    simp at first
  have send : ∀ {σ μ : Type} (up : μ → Bool) (s : σ) (x : μ), (Outcome.send up s x).status ≠
      .raised ("key not found: " ++ k) := by
    intro σ μ up s x
    unfold Outcome.send
    split
    · simp
    · simpa using other _ (by decide)
  have one : ∀ clients s op, (sendOp cfg pick env clients s op).status ≠
      .raised ("key not found: " ++ k) := by
    intro clients s op
    unfold sendOp
    split
    · simpa using other _ (by decide)
    · exact send _ _ _
  have all : ∀ clients ops s, (Outcome.forEach (sendOp cfg pick env clients) ops s).status ≠
      .raised ("key not found: " ++ k) := by
    intro clients ops
    induction ops with
    | nil => simp [Outcome.forEach]
    | cons op ops ih =>
      intro s
      exact Outcome.andThen_rule (Q := fun o => o.status ≠ .raised ("key not found: " ++ k))
        (fun _ => one clients s op) fun _ => ih _
  have complete : ∀ s seq, (replicationComplete cfg pick env s seq
      (batch.flatMap L2Operation.serialize)).status ≠ .raised ("key not found: " ++ k) := by
    intro s seq
    unfold replicationComplete
    rw [L2Operation.deserializeBatch_serialize]
    dsimp only
    split
    · simpa using other _ (by decide)
    · split
      · simp
      · exact all _ _ _
  cases chainRequest_cases (callbacks cfg pick reach) env m seq
    (batch.flatMap L2Operation.serialize) with
  | duplicate _ result =>
    rw [result]
    simp
  | outOfOrder _ result =>
    rw [result]
    simpa using other _ (by decide)
  | failed _ status _ => exact absurd rfl status
  | completed _ _ _ result =>
    rw [result]
    exact complete _ _
  | passed _ _ _ result =>
    rw [result]
    exact send _ _ _

/-- When `process_op` raises for an unknown key, it has handed no batch to the chain, and the
requests with known keys are all still queued in their order exactly when the failing slot
comes before the first of them. -/
theorem known_requests_spared_iff {m : ChainModule L1State} {op : L1Operation} {draws : ℕ → Draw}
    {k : String} (raised : (processOp cfg pick reach env m op draws).status =
      .raised ("key not found: " ++ k)) :
    ((processOp cfg pick reach env m op draws).state.ran = m.ran ∧
      (processOp cfg pick reach env m op draws).sent = []) ∧
    (knownRequests cfg (processOp cfg pick reach env m op draws).state.user.internalQueue =
        knownRequests cfg (m.user.internalQueue ++ [timed env.clock op]) ↔
      FailsFirst cfg (tossCoins cfg (rounds cfg draws)) (m.user.internalQueue ++ [op])) := by
  rcases @processOp_cases cfg pick reach env m op draws with
    ⟨_, eq⟩ | ⟨_, queue, ⟨e, failed, eq⟩ | ⟨batch, _, eq⟩⟩
  · simp [eq] at raised
  · rw [eq]
    refine ⟨⟨rfl, rfl⟩, ?_⟩
    have spares := @fillBatch_spares_iff cfg _ (m.user.internalQueue ++ [timed env.clock op]) _ _
      (by simp) (congrArg Prod.snd failed)
    have rest : (fillBatch cfg (tossCoins cfg (rounds cfg draws))
        (m.user.internalQueue ++ [timed env.clock op]) []).1 = queue := congrArg Prod.fst failed
    rw [rest] at spares
    have front : FailsFirst cfg (tossCoins cfg (rounds cfg draws)) (m.user.internalQueue ++ [timed env.clock op]) ↔
        FailsFirst cfg (tossCoins cfg (rounds cfg draws)) (m.user.internalQueue ++ [op]) := by
      unfold FailsFirst
      cases m.user.internalQueue <;> simp
    exact spares.trans front
  · rw [eq] at raised
    exact absurd raised (chainRequest_message _ _ _ _)

def allUp : Env L1Effect := ⟨true, true, fun _ => true, none⟩

/-- A head that holds a request for "a" from an earlier call. -/
def waitingHead : ChainModule L1State :=
  { user := { initState 0 with internalQueue := [⟨{ clientId := 7 }, "a", "v"⟩] } }

def strangeOp : L1Operation := ⟨{ clientId := 8 }, "z", ""⟩

def trueCoins (_ : ℕ) : Draw := ⟨true, "a", "b", 0⟩

/-- A head that holds a request for an unknown key. -/
def strangeHead : ChainModule L1State :=
  { user := { initState 0 with internalQueue := [strangeOp] } }

/-- The request for an unknown key is taken first and raises; the one behind it is kept. -/
theorem known_requests_spared_iff_strange :
    knownRequests twoKeys [strangeOp, ⟨{ clientId := 7 }, "a", "v"⟩] =
      [⟨{ clientId := 7 }, "a", "v"⟩] ∧
    knownRequests twoKeys (processOp twoKeys (fun _ => 0) (fun _ _ => true) allUp strangeHead
      ⟨{ clientId := 7 }, "a", "v"⟩ trueCoins).state.user.internalQueue =
      knownRequests twoKeys [strangeOp, ⟨{ clientId := 7 }, "a", "v"⟩] :=
  ⟨by decide, (@known_requests_spared_iff twoKeys (fun _ => 0) (fun _ _ => true) allUp strangeHead
    ⟨{ clientId := 7 }, "a", "v"⟩ trueCoins "z" (by decide)).2.mpr (.inl (by decide))⟩

/-- The request for "a" is taken from the queue, and the next slot raises. -/
theorem known_request_lost :
    (processOp twoKeys (fun _ => 0) (fun _ _ => true) allUp waitingHead strangeOp trueCoins).status =
      .raised ("key not found: " ++ "z") ∧
    (processOp twoKeys (fun _ => 0) (fun _ _ => true) allUp waitingHead strangeOp trueCoins).sent =
      [] ∧
    (processOp twoKeys (fun _ => 0) (fun _ _ => true) allUp waitingHead strangeOp
      trueCoins).state.ran = [] ∧
    knownRequests twoKeys (processOp twoKeys (fun _ => 0) (fun _ _ => true) allUp waitingHead
      strangeOp trueCoins).state.user.internalQueue = [] ∧
    knownRequests twoKeys (waitingHead.user.internalQueue ++ [strangeOp]) =
      [⟨{ clientId := 7 }, "a", "v"⟩] := by
  decide

end UnknownKeys

end L1Proxy
end Shortstack
