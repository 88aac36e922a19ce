import Shortstack.ClientRuns

/-! The clients of a grid of hosts whose tables come from the initializer: how their requests
are answered in runs without failures. -/
namespace Shortstack
open Linearizability Transition

/-- The kinds of the answers are those of the requests, and requests take effect as what they
are. -/
structure Faithful (initial : String) (history : List ClientEvent) : Prop where
  kind : ∀ i r out, .invoke i r ∈ history → .respond i out ∈ history → r.InKind out
  written : ∀ i key v out j out', .invoke i (.put key v) ∈ history →
    (∀ i' v', .invoke i' (.put key v') ∈ history → i' = i) →
    [Event.respond i out, .invoke j (.get key)].Sublist history → .respond j out' ∈ history →
      out' = (.get, v)
  unchanged : Linearizable (registers initial) history

lemma written_of_linearizes {initial : String} {history : List ClientEvent}
    {order : List (RequestId × ClientRequest)}
    (once : ((invocations history).map Prod.fst).Nodup)
    (lin : Linearizes (registers initial) history order) {i j : RequestId} {key v : String}
    {out out' : OpCode × String} (put : .invoke i (.put key v) ∈ history)
    (only : ∀ i' v', .invoke i' (.put key v') ∈ history → i' = i)
    (after : [Event.respond i out, .invoke j (.get key)].Sublist history)
    (answered : .respond j out' ∈ history) : out' = (.get, v) := by
  obtain ⟨before, r, later, rfl, result⟩ := (registers initial).mem_outputs (lin.outputs j out' answered)
  obtain rfl : r = .get key := by
    refine invocation_unique once (lin.invoked (j, r) (by simp)) (after.subset (by simp))
  have ordered := lin.realTime i out j (.get key) after (lin.answered answered)
  have nodup := lin.once
  rw [List.map_append, List.map_cons] at ordered nodup
  obtain ⟨⟨i', r⟩, mem, rfl⟩ := List.mem_map.mp (mem_before nodup ordered)
  obtain rfl : r = .put key v :=
    invocation_unique once (lin.invoked _ (List.mem_append_left _ mem)) put
  have held : (registers initial).after (registers initial).init before key = v := by
    refine registers_after_of_put ⟨_, mem, rfl⟩ fun x hx v' isPut => ?_
    have invoked := lin.invoked x (List.mem_append_left _ hx)
    rw [isPut] at invoked
    rw [only _ _ invoked] at invoked
    exact (ClientRequest.put.inj (invocation_unique once invoked put)).2
  rw [result]
  exact congrArg (Prod.mk OpCode.get) held

namespace Deployment
variable (d : Deployment)

def HasReplica (key : String) (replica : ℤ) : Prop :=
  ∃ r, d.keyToNumberOfReplicas.lookup key = some r ∧ 0 ≤ replica ∧ replica < r

/-- Different replicas have different labels. -/
def LabelsInjective : Prop :=
  ∀ key replica key' replica' l, d.HasReplica key replica → d.HasReplica key' replica' →
    d.replicaToLabel.lookup (key ++ toString replica) = some l →
    d.replicaToLabel.lookup (key' ++ toString replica') = some l → key = key' ∧ replica = replica'

/-- Steps without failures of clients that number their requests. -/
def serves (dist : RealDistribution) (x : Pipeline × List ClientEvent) (label : ClientLabel) : Prop :=
  d.undisturbed dist x.1 label.pipeline ∧ label.proper x.2

instance (dist : RealDistribution) (x : Pipeline × List ClientEvent) (label : ClientLabel) :
    Decidable (d.serves dist x label) := by
  unfold serves
  cases label <;> unfold ClientLabel.proper <;> infer_instance

instance (dummyKey : String) (label : ClientLabel) : Decidable (label.Regular dummyKey) := by
  cases label <;> unfold ClientLabel.Regular
  · unfold ClientRequest.Regular
    infer_instance
  · infer_instance

end Deployment

namespace StoreOptions
variable (store : StoreOptions)

def plaintext (cipher : String) : String :=
  if store.encryptionEnabled then store.decrypt cipher else cipher

/-- Decryption gives back what was encrypted. -/
def Lossless : Prop :=
  store.encryptionEnabled = true → ∀ text, store.decrypt (store.encrypt text) = text

/-- All labels hold one plaintext at the start. -/
def Filled (initial : String) : Prop :=
  ∀ n l c, store.initialKv n l = some c → store.plaintext c = initial

end StoreOptions

namespace GridDeployment
variable {d : GridDeployment} {store : StoreOptions} {dist : RealDistribution} {v initial : String}
  {s : Pipeline} {history : List ClientEvent}

lemma keeping (cached : d.updateCacheEnabled = true) (injective : d.LabelsInjective)
    (lossless : store.Lossless) (filled : store.Filled initial) :
    Pipeline.Keeping (d.pipeline store) initial := by
  refine ⟨fun _ _ => cached, fun _ _ _ _ key replica key' replica' l has has' found found' => ?_,
    lossless, filled⟩
  have same := injective key replica.toInt key' replica'.toInt l has has' found found'
  exact ⟨same.1, Int32.toInt_inj.mp same.2⟩

lemma clientsFree_of_serves (tables : d.Initialized dist v) {x : Pipeline × List ClientEvent}
    {label : ClientLabel} (free : d.serves dist x label) :
    Pipeline.clientsFree (d.pipeline store) x label :=
  ⟨failureFree_of_undisturbed tables free.1, free.2⟩

/-- A client's request at the L1 head of a pair, in a batch with an access to padding. -/
def pairRequest (number : Int64) (r : ClientRequest) : ClientLabel :=
  .request ⟨fun _ => 0, none⟩ 0 0 { clientId := 7, clientSeqNo := number } r
    fun i => ⟨i == 0, "a", "dummy", i⟩

/-- A batch reaches the L2 tier, the next accesses travel to the store and back, and an answer is
sent. -/
def passage (accesses : ℕ) : List ClientLabel :=
  (.l1 ⟨fun _ => 0, none⟩ 0 (.deliver 0 1) ::
    ([.l2Request none 0 1 ⟨0, 0, 0⟩, .l2 none 0 (.chain 0 (.deliver 0 1)),
      .l3Request none ⟨0, 0, 1⟩ (0, 0), .l3 none (0, 0) .serveGet, .l3 none (0, 0) .getReply,
      .l3 none (0, 0) .crypto, .l3 none (0, 0) .servePut, .l3 none (0, 0) .putReply].flatMap
        (List.replicate accesses) ++ [.l3 none (0, 0) .respond])).map .tiers

/-- A put, and a get after its answer. -/
def putGetRun : List ClientLabel :=
  pairRequest 0 (.put "a" "v") :: passage 1 ++ pairRequest 1 (.get "a") :: passage 2

def putGetHistory : List ClientEvent :=
  [.invoke (7, 0) (.put "a" "v"), .respond (7, 0) (.put, ""),
    .invoke (7, 1) (.get "a"), .respond (7, 1) (.get, "v")]

lemma pair_staffed : Cluster.Staffed pairDeployment :=
  ⟨⟨by decide, by decide⟩, ⟨by decide, by decide⟩, ⟨by decide, by decide⟩⟩

lemma pair_labelsInjective : pairDeployment.LabelsInjective := by
  have known : ∀ key replica, pairDeployment.HasReplica key replica →
      (key, replica) ∈ [("dummy", 0), ("dummy", 1), ("b", 0), ("a", (0 : ℤ))] := by
    rintro key replica ⟨r, found, low, high⟩
    have entry : (⟨key, r⟩ : (_ : String) × ℤ) ∈ pairDeployment.keyToNumberOfReplicas.entries :=
      AList.mem_lookup_iff.mp found
    rw [show pairDeployment.keyToNumberOfReplicas.entries = [⟨"dummy", 2⟩, ⟨"b", 1⟩, ⟨"a", 1⟩] by
      decide +kernel] at entry
    simp only [List.mem_cons, Sigma.mk.injEq, heq_eq_eq, List.not_mem_nil, or_false] at entry
    rcases entry with ⟨rfl, rfl⟩ | ⟨rfl, rfl⟩ | ⟨rfl, rfl⟩ <;> interval_cases replica <;> simp
  have differ : ∀ x ∈ [("dummy", 0), ("dummy", 1), ("b", 0), ("a", (0 : ℤ))],
      ∀ y ∈ [("dummy", 0), ("dummy", 1), ("b", 0), ("a", (0 : ℤ))],
        pairDeployment.replicaToLabel.lookup (x.1 ++ toString x.2) =
          pairDeployment.replicaToLabel.lookup (y.1 ++ toString y.2) → x = y := by
    decide +kernel
  intro key replica key' replica' l here there found found'
  exact Prod.mk.inj (differ _ (known key replica here) _ (known key' replica' there)
    (found.trans found'.symm))

lemma reaches_of_replay {cfg : PipelineConfig}
    {ok : Pipeline × List ClientEvent → ClientLabel → Prop} [∀ x l, Decidable (ok x l)]
    {labels : List ClientLabel}
    (goes : (replay (clientSystem cfg) ok (Pipeline.start cfg, []) labels).map Prod.snd = some history) :
    ∃ s, Reaches (clientSystem cfg) ok (s, history) := by
  obtain ⟨⟨s, _⟩, run, rfl⟩ := Option.map_eq_some_iff.mp goes
  have start : (clientSystem cfg).init (Pipeline.start cfg, []) := ⟨rfl, rfl⟩
  exact ⟨s, (Reaches.init start).replay run⟩

/-- The responses form a linearizable history of one register for each key. -/
theorem linearizable (staffed : Cluster.Staffed d) (size : 1 ≤ d.securityBatchSize)
    (tables : d.Initialized dist v) (cached : d.updateCacheEnabled = true)
    (injective : d.LabelsInjective) (lossless : store.Lossless) (filled : store.Filled initial)
    (delivered : store.respDelivery = true)
    (run : Reaches (clientSystem (d.pipeline store))
      (fun x label => d.serves dist x label ∧ label.Regular d.dummyKey) (s, history)) :
    Linearizable (registers initial) history := by
  have ordered := Pipeline.ordered_reaches (d.pipeline_shaped store staffed size tables)
    (keeping cached injective lossless filled) delivered
    (run.mono fun _ _ free => ⟨clientsFree_of_serves tables free.1, free.2⟩)
  obtain ⟨order, served⟩ := ordered.served
  exact ⟨order, served.lin⟩

theorem linearizable_putGet :
    ∃ s, Reaches (clientSystem (pairDeployment.pipeline plainStore)) (fun x label =>
        pairDeployment.serves RealDistribution.evenPair x label ∧ label.Regular pairDeployment.dummyKey)
        (s, putGetHistory) ∧ Linearizable (registers "cipher") putGetHistory := by
  obtain ⟨s, run⟩ := @reaches_of_replay putGetHistory (pairDeployment.pipeline plainStore)
    (fun x label => pairDeployment.serves RealDistribution.evenPair x label ∧
      label.Regular pairDeployment.dummyKey) _ putGetRun (by decide +kernel)
  refine ⟨s, run, linearizable pair_staffed (by decide) ⟨rfl, rfl⟩ rfl pair_labelsInjective ?_ ?_ rfl run⟩
  · exact fun _ _ => rfl
  · rintro n l c ⟨⟩
    rfl

/-- Where responses are sent without their results, a get reads nothing. -/
def mutedStore : StoreOptions := { plainStore with respDelivery := false }

def mutedHistory : List ClientEvent := [.invoke (7, 0) (.get "a"), .respond (7, 0) (.get, "")]

theorem muted_get :
    pairDeployment.updateCacheEnabled = true ∧ pairDeployment.LabelsInjective ∧ mutedStore.Lossless ∧
      mutedStore.Filled "cipher" ∧
    ∃ s, Reaches (clientSystem (pairDeployment.pipeline mutedStore)) (fun x label =>
        pairDeployment.serves RealDistribution.evenPair x label ∧ label.Regular pairDeployment.dummyKey)
        (s, mutedHistory) ∧ ¬ Linearizable (registers "cipher") mutedHistory := by
  refine ⟨rfl, pair_labelsInjective, fun _ _ => rfl, ?_, ?_⟩
  · rintro n l c ⟨⟩
    rfl
  obtain ⟨s, run⟩ := @reaches_of_replay mutedHistory (pairDeployment.pipeline mutedStore)
    (fun x label => pairDeployment.serves RealDistribution.evenPair x label ∧
      label.Regular pairDeployment.dummyKey) _ (pairRequest 0 (.get "a") :: passage 1)
    (by decide +kernel)
  refine ⟨s, run, ?_⟩
  rintro ⟨order, lin⟩
  have mem := lin.outputs (7, 0) (.get, "") (by simp [mutedHistory])
  obtain ⟨before, r, later, rfl, result⟩ := (registers "cipher").mem_outputs mem
  have asked := lin.invoked ((7, 0), r) (by simp)
  obtain rfl : r = .get "a" := by simpa [mutedHistory] using asked
  have kept : (registers "cipher").after (registers "cipher").init before "a" = "cipher" := by
    refine registers_after_of_no_put fun x mem v put => ?_
    have invoked := lin.invoked x (List.mem_append_left _ mem)
    simp [mutedHistory, put] at invoked
  have none : "" = (registers "cipher").after (registers "cipher").init before "a" :=
    congrArg Prod.snd result
  rw [kept] at none
  simp at none

/-- An answer has the kind of its request unless that puts an empty value; where none does,
requests take effect as what they are. -/
theorem faithful_iff (staffed : Cluster.Staffed d) (size : 1 ≤ d.securityBatchSize)
    (tables : d.Initialized dist v) :
    (∀ s history, Reaches (clientSystem (d.pipeline store)) (d.serves dist) (s, history) →
      ∀ i r out, .invoke i r ∈ history → .respond i out ∈ history →
        (r.InKind out ↔ r.effective = true)) ∧
    (d.updateCacheEnabled = true → d.LabelsInjective → store.Lossless → store.respDelivery = true →
      ∀ initial, store.Filled initial → ∀ s history,
        Reaches (clientSystem (d.pipeline store))
          (fun x label => d.serves dist x label ∧ label.Regular d.dummyKey) (s, history) →
        Faithful initial history) := by
  have shape := d.pipeline_shaped store staffed size tables
  refine ⟨fun s history run i r out asked told => ?_, ?_⟩
  · have serving := Pipeline.serving_reaches shape
      (run.mono fun _ _ free => clientsFree_of_serves tables free)
    obtain ⟨r', asked', read⟩ := serving.kinds.told i out told
    obtain rfl := invocation_unique serving.submitted.once asked asked'
    exact ClientRequest.inKind_iff read
  · intro cached injective lossless delivered initial filled s history run
    have ordered := Pipeline.ordered_reaches shape (keeping cached injective lossless filled) delivered
      (run.mono fun _ _ free => ⟨clientsFree_of_serves tables free.1, free.2⟩)
    obtain ⟨order, served⟩ := ordered.served
    have once := ordered.serving.submitted.once
    refine ⟨fun i r out asked told => ?_, fun i key v out j out' put only after answered =>
      written_of_linearizes once served.lin put only after answered, order, served.lin⟩
    obtain ⟨r', asked', read⟩ := ordered.serving.kinds.told i out told
    obtain rfl := invocation_unique once asked asked'
    exact (ClientRequest.inKind_iff read).mpr (ordered.regular (i, r) (mem_invocations.mpr asked)).1

theorem faithful_putGet :
    (∀ s history, Reaches (clientSystem (pairDeployment.pipeline plainStore))
      (pairDeployment.serves RealDistribution.evenPair) (s, history) →
        ∀ i r out, .invoke i r ∈ history → .respond i out ∈ history →
          (r.InKind out ↔ r.effective = true)) ∧ Faithful "cipher" putGetHistory := by
  have result := @faithful_iff pairDeployment plainStore RealDistribution.evenPair "cipher" pair_staffed
    (by decide) ⟨rfl, rfl⟩
  refine ⟨result.1, ?_⟩
  obtain ⟨s, run⟩ := @reaches_of_replay putGetHistory (pairDeployment.pipeline plainStore)
    (fun x label => pairDeployment.serves RealDistribution.evenPair x label ∧
      label.Regular pairDeployment.dummyKey) _ putGetRun (by decide +kernel)
  refine result.2 rfl pair_labelsInjective (fun _ _ => rfl) rfl "cipher" ?_ s _ run
  rintro n l c ⟨⟩
  rfl

/-- The answer to a put of an empty value is that of a get. -/
def emptyPutHistory : List ClientEvent :=
  [.invoke (7, 0) (.put "a" ""), .respond (7, 0) (.get, "cipher")]

theorem emptyPut_reads :
    ∃ s, Reaches (clientSystem (pairDeployment.pipeline plainStore))
      (pairDeployment.serves RealDistribution.evenPair) (s, emptyPutHistory) ∧
        ¬ Faithful "cipher" emptyPutHistory := by
  obtain ⟨s, run⟩ := @reaches_of_replay emptyPutHistory (pairDeployment.pipeline plainStore)
    (pairDeployment.serves RealDistribution.evenPair) _ (pairRequest 0 (.put "a" "") :: passage 1)
    (by decide +kernel)
  refine ⟨s, run, fun faithful => ?_⟩
  have put := faithful.kind (7, 0) (.put "a" "") (.get, "cipher") (by simp [emptyPutHistory])
    (by simp [emptyPutHistory])
  simp [ClientRequest.InKind] at put

end GridDeployment
end Shortstack
