import Shortstack.AckRouting
import Shortstack.PipelineSteady
import Shortstack.ReplicaLabels
import Shortstack.ResendOnce

/-! The pipeline of a grid of hosts whose tables come from the initializer, and what holds of
all its runs without failures. -/
namespace Shortstack
open Transition

/-- The options of the L3 tier, and the stores behind it. -/
structure StoreOptions where
  storageBatchSize : ℤ
  ackDelivery : Bool
  respDelivery : Bool
  encryptionEnabled : Bool
  encrypt : String → String
  decrypt : String → String
  server : ℕ → ℕ
  initialKv : ℕ → Kv

def Deployment.pipeline (d : Deployment) (store : StoreOptions) : PipelineConfig where
  toIngestConfig := d.ingest
  l3 :=
    { storageBatchSize := store.storageBatchSize
      ackBatchSize := d.l3AckBatchSize
      ackDelivery := store.ackDelivery
      respDelivery := store.respDelivery
      encryptionEnabled := store.encryptionEnabled
      encrypt := store.encrypt
      decrypt := store.decrypt
      l2Workers := HostInfo.firstReplicas d.hosts .l2 }
  l3Workers := HostInfo.firstReplicas d.hosts .l3
  server := store.server
  initialKv := store.initialKv

/-- The tables of a deployment come from the initializer. -/
def Deployment.Initialized (d : Deployment) (dist : RealDistribution) (valueCipher : String) : Prop :=
  d.keyToNumberOfReplicas = (dist.init d.dummyKey valueCipher).keyToNumberOfReplicas ∧
    d.replicaToLabel = (dist.init d.dummyKey valueCipher).replicaToLabel

namespace Initializer
variable {init : Initializer} {v : String}

lemma mem_of_addKeys_lookup (counts : List (String × ℤ)) {k : String} {r : ℤ}
    (found : (init.addKeys v counts).keyToNumberOfReplicas.lookup k = some r) :
    init.keyToNumberOfReplicas.lookup k = some r ∨ (k, r) ∈ counts := by
  induction counts generalizing init with
  | nil => exact .inl found
  | cons c counts ih =>
    have rest : ((init.addKey v c.1 c.2).addKeys v counts).keyToNumberOfReplicas.lookup k = some r :=
      found
    rcases ih rest with old | later
    · rw [addKey_keyToNumberOfReplicas] at old
      rcases eq_or_ne k c.1 with rfl | other
      · rw [AList.lookup_insert, Option.some.injEq] at old
        exact .inr (by simp [← old])
      · rw [AList.lookup_insert_ne other] at old
        exact .inl old
    · exact .inr (List.mem_cons_of_mem c later)

lemma mem_addKeys (counts : List (String × ℤ)) {k : String} :
    k ∈ (init.addKeys v counts).keyToNumberOfReplicas ↔
      k ∈ init.keyToNumberOfReplicas ∨ k ∈ counts.map Prod.fst := by
  induction counts generalizing init with
  | nil => simp [addKeys]
  | cons c counts ih =>
    have rest := @ih (init.addKey v c.1 c.2)
    rw [addKey_keyToNumberOfReplicas, AList.mem_insert] at rest
    rw [show init.addKeys v (c :: counts) = (init.addKey v c.1 c.2).addKeys v counts from rfl, rest,
      List.map_cons, List.mem_cons]
    tauto

end Initializer

namespace RealDistribution
variable {dist : RealDistribution} {dummyKey v : String}

lemma mem_init_table {k : String} :
    k ∈ (dist.init dummyKey v).keyToNumberOfReplicas ↔ k ∈ dist.items ++ [dummyKey] := by
  have added := @Initializer.mem_addKeys .empty v (dist.allCounts dummyKey) k
  rw [map_fst_allCounts] at added
  simp only [Initializer.empty, AList.notMem_empty, false_or] at added
  rw [← added, show (dist.init dummyKey v).keyToNumberOfReplicas =
    (dist.createReplicas dummyKey v).keyToNumberOfReplicas from rfl, createReplicas_eq]
  dsimp only
  split <;> rfl

lemma mem_allCounts_of_table {k : String} {r : ℤ}
    (found : (dist.init dummyKey v).keyToNumberOfReplicas.lookup k = some r) :
    (k, r) ∈ dist.allCounts dummyKey := by
  have found : (dist.createReplicas dummyKey v).keyToNumberOfReplicas.lookup k = some r := found
  rw [createReplicas_eq] at found
  dsimp only at found
  have added : ((Initializer.addKeys v .empty (dist.allCounts dummyKey))).keyToNumberOfReplicas.lookup
      k = some r := by
    split at found
    · exact found
    · exact found
  rcases Initializer.mem_of_addKeys_lookup _ added with none | mem
  · simp [Initializer.empty] at none
  · exact mem

lemma replicas_pos {k : String} {r : ℤ}
    (found : (dist.init dummyKey v).keyToNumberOfReplicas.lookup k = some r) : 0 < r :=
  counts_pos (mem_allCounts_of_table found)

theorem label_of_replica {k : String} {r replica : ℤ}
    (found : (dist.init dummyKey v).keyToNumberOfReplicas.lookup k = some r) (low : 0 ≤ replica)
    (high : replica < r) :
    ∃ l, (dist.init dummyKey v).replicaToLabel.lookup (k ++ toString replica) = some l := by
  have counted := mem_allCounts_of_table found
  obtain ⟨n, rfl⟩ := Int.eq_ofNat_of_zero_le low
  have name : Initializer.replicaName k n ∈ (Initializer.replicaPairs (dist.allCounts dummyKey)).map
      fun x => Initializer.replicaName x.1 x.2 :=
    List.mem_map.mpr ⟨(k, n), Initializer.mem_replicaPairs.mpr ⟨r, counted, high⟩, rfl⟩
  exact (@createReplicas_filled dist dummyKey v).1.total _ name

end RealDistribution

namespace GridDeployment
variable (d : GridDeployment) (store : StoreOptions)

lemma l2Idx_eq {c w n : ℕ} (found : d.l2Workers[c]? = some n) :
    (d.l2Config c w).idx = (((d.l2Workers.take c).sum + w : ℕ) : ℤ) := by
  simp [Deployment.l2Config,
    d.workerIdx_eq d.l2Grid d.l2Grid.pos (List.getElem?_eq_some_iff.mp found).1]

lemma ingest_shaped (staffed : Cluster.Staffed d) (size : 1 ≤ d.securityBatchSize)
    {dist : RealDistribution} {v : String} (tables : d.Initialized dist v) :
    Ingest.Shaped d.ingest where
  size := size
  l1Rows := by
    rw [d.ingest_l1Rows staffed.l1.1]
    exact d.l1Grid.pos
  l2Rows := by
    rw [d.ingest_l2Rows staffed.l2.1]
    exact d.l2Grid.pos
  l2Workers := by
    rw [d.ingest_l2Workers]
    exact staffed.l2.1
  workers := by
    rw [d.ingest_l2Workers]
    exact staffed.l2.2
  idx k hk row hr := by
    rw [d.ingest_l1Workers] at hk
    rw [d.ingest_l1Rows staffed.l1.1] at hr
    exact d.l1Idx_eq hk hr
  l1Workers _ _ := rfl
  replicas key r found := by
    have known : d.keyToNumberOfReplicas.lookup key = some r := found
    rw [tables.1] at known
    exact RealDistribution.replicas_pos known
  tables _ _ := rfl
  labels c w key replica good := by
    obtain ⟨r, found, low, high⟩ := good
    have known : d.keyToNumberOfReplicas.lookup key = some r := found
    rw [tables.1] at known
    obtain ⟨l, labelled⟩ := RealDistribution.label_of_replica known low high
    rw [← tables.2] at labelled
    exact ⟨l, labelled⟩

lemma take_sum_add_inj {workers : List ℕ} {c c' w w' n n' : ℕ} (hc : workers[c]? = some n)
    (hw : w < n) (hc' : workers[c']? = some n') (hw' : w' < n')
    (same : (workers.take c).sum + w = (workers.take c').sum + w') : c = c' ∧ w = w' := by
  induction workers generalizing c c' with
  | nil => simp at hc
  | cons m workers ih =>
    cases c with
    | zero =>
      cases c' with
      | zero => simpa using same
      | succ c' =>
        obtain rfl : m = n := by simpa using hc
        simp only [List.take_zero, List.sum_nil, List.take_succ_cons, List.sum_cons] at same
        omega
    | succ c =>
      cases c' with
      | zero =>
        obtain rfl : m = n' := by simpa using hc'
        simp only [List.take_zero, List.sum_nil, List.take_succ_cons, List.sum_cons] at same
        omega
      | succ c' =>
        simp only [List.take_succ_cons, List.sum_cons] at same
        obtain ⟨rfl, rfl⟩ := ih (by simpa using hc) (by simpa using hc') (by omega)
        exact ⟨rfl, rfl⟩

lemma take_sum_add_lt {workers : List ℕ} {c w n : ℕ} (hc : workers[c]? = some n) (hw : w < n) :
    (workers.take c).sum + w < workers.sum := by
  induction workers generalizing c with
  | nil => simp at hc
  | cons m workers ih =>
    cases c with
    | zero =>
      obtain rfl : m = n := by simpa using hc
      simp only [List.take_zero, List.sum_nil, List.sum_cons]
      omega
    | succ c =>
      have := ih (c := c) (by simpa using hc)
      simp only [List.take_succ_cons, List.sum_cons]
      omega

theorem pipeline_shaped (staffed : Cluster.Staffed d) (size : 1 ≤ d.securityBatchSize)
    {dist : RealDistribution} {v : String} (tables : d.Initialized dist v) :
    Pipeline.Shaped (d.pipeline store) where
  ingest := d.ingest_shaped staffed size tables
  l3Workers := by
    rw [show (d.pipeline store).l3Workers = _ from d.l3Grid.firstReplicas_eq]
    exact staffed.l3.1
  connected _ _ := rfl
  workers := rfl
  idx c w inTier := by
    obtain ⟨n, found, less⟩ := inTier
    rw [show (d.pipeline store).l1.l2Workers = _ from d.ingest_l2Workers] at found ⊢
    rw [show (d.pipeline store).l2 c w = d.l2Config c w from rfl, d.l2Idx_eq found]
    exact ⟨by positivity, by exact_mod_cast take_sum_add_lt found less⟩
  distinct c w c' w' inTier inTier' same := by
    obtain ⟨n, found, less⟩ := inTier
    obtain ⟨n', found', less'⟩ := inTier'
    rw [show (d.pipeline store).l1.l2Workers = _ from d.ingest_l2Workers] at found found'
    rw [show (d.pipeline store).l2 c w = d.l2Config c w from rfl, d.l2Idx_eq found,
      show (d.pipeline store).l2 c' w' = d.l2Config c' w' from rfl, d.l2Idx_eq found'] at same
    exact take_sum_add_inj found less found' less' (by exact_mod_cast same)

end GridDeployment

/-- A client asks for a known key; the samples come from the two distributions. -/
def Deployment.Sampled (d : Deployment) (dist : RealDistribution) : PipelineLabel → Prop
  | .client _ _ _ op draws => op.key ∈ d.keyToNumberOfReplicas ∧
    ∀ x ∈ L1Proxy.rounds d.l1Config draws,
      x.real ∈ dist.items ∧ x.fake ∈ (dist.fakeDistribution d.dummyKey).items
  | _ => True

/-- Runs in which no instance fails. -/
def Deployment.undisturbed (d : Deployment) (dist : RealDistribution) (_ : Pipeline)
    (label : PipelineLabel) : Prop :=
  label.steady = true ∧ d.Sampled dist label

namespace GridDeployment
variable {d : GridDeployment} {store : StoreOptions} {dist : RealDistribution} {v : String}
  {s : Pipeline}

lemma failureFree_of_undisturbed (tables : d.Initialized dist v) {label : PipelineLabel}
    (free : d.undisturbed dist s label) : Pipeline.failureFree (d.pipeline store) s label := by
  refine ⟨free.1, ?_⟩
  cases label with
  | client oracle k row op draws =>
    obtain ⟨-, known, samples⟩ := free
    have table : ∀ key ∈ dist.items ++ [d.dummyKey], key ∈ d.keyToNumberOfReplicas := by
      intro key mem
      rw [tables.1]
      exact RealDistribution.mem_init_table.mpr mem
    refine ⟨known, fun x hx => ?_⟩
    obtain ⟨real, fake⟩ := samples x hx
    exact ⟨table _ (List.mem_append_left _ real), table _ fake⟩
  | _ => trivial

theorem steady_of_undisturbed (staffed : Cluster.Staffed d) (size : 1 ≤ d.securityBatchSize)
    (tables : d.Initialized dist v)
    (run : Reaches (pipelineSystem (d.pipeline store)) (d.undisturbed dist) s) :
    Pipeline.Steady (d.pipeline store) s :=
  Pipeline.steady_reaches (d.pipeline_shaped store staffed size tables)
    (run.mono fun _ _ free => failureFree_of_undisturbed tables free)

/-- Every request that any tier handles is accepted. -/
theorem no_request_refused (staffed : Cluster.Staffed d) (size : 1 ≤ d.securityBatchSize)
    (tables : d.Initialized dist v)
    (run : Reaches (pipelineSystem (d.pipeline store)) (d.undisturbed dist) s)
    {label : PipelineLabel} (free : d.undisturbed dist s label) (handles : label.handles = true)
    {r : PipelineResult} (taken : s.step (d.pipeline store) label = some r) :
    r.status = .returned :=
  (steady_of_undisturbed staffed size tables run).handled
    (d.pipeline_shaped store staffed size tables) (failureFree_of_undisturbed tables free) handles taken

instance (d : Deployment) (dist : RealDistribution) (s : Pipeline) (label : PipelineLabel) :
    Decidable (d.undisturbed dist s label) := by
  unfold Deployment.undisturbed
  cases label <;> unfold Deployment.Sampled <;> infer_instance

lemma evenPair_counts :
    IntCounts (RealDistribution.evenPair.init "dummy" "cipher").keyToNumberOfReplicas := by
  decide +kernel

def pairDeployment : GridDeployment :=
  { Ingest.smallDeployment with
    keyToNumberOfReplicas := (RealDistribution.evenPair.init "dummy" "cipher").keyToNumberOfReplicas
    counts := evenPair_counts
    replicaToLabel := (RealDistribution.evenPair.init "dummy" "cipher").replicaToLabel
    securityBatchSize := 2 }

def plainStore : StoreOptions := ⟨1, true, true, false, id, id, id, fun _ _ => some "cipher"⟩

/-- A put in a batch of two travels down both chains and reaches the L3 instance. -/
def putRun : List PipelineLabel :=
  let oracle : L1Oracle := ⟨fun _ => 0, none⟩
  [.client oracle 0 0 ⟨{ clientId := 7 }, "a", "v"⟩
      fun i => ⟨i == 0, "a", "dummy", i⟩,
    .l1 oracle 0 (.deliver 0 1), .l2Request none 0 1 ⟨0, 0, 0⟩, .l2 none 0 (.chain 0 (.deliver 0 1))]

theorem putRun_accepted :
    ∃ s r, Reaches (pipelineSystem (pairDeployment.pipeline plainStore))
        (pairDeployment.undisturbed RealDistribution.evenPair) s ∧
      s.step (pairDeployment.pipeline plainStore) (.l3Request none ⟨0, 0, 1⟩ (0, 0)) = some r ∧
      r.status = .returned := by
  have staffed : Cluster.Staffed pairDeployment :=
    ⟨⟨by decide, by decide⟩, ⟨by decide, by decide⟩, ⟨by decide, by decide⟩⟩
  have goes : ((replay (pipelineSystem (pairDeployment.pipeline plainStore))
      (pairDeployment.undisturbed RealDistribution.evenPair)
      (Pipeline.start (pairDeployment.pipeline plainStore)) putRun).bind fun s =>
        s.step (pairDeployment.pipeline plainStore)
          (.l3Request none ⟨0, 0, 1⟩ (0, 0))).isSome = true := by
    decide +kernel
  obtain ⟨r, done⟩ := Option.isSome_iff_exists.mp goes
  obtain ⟨s, run, taken⟩ := Option.bind_eq_some_iff.mp done
  have reached := (Reaches.init rfl).replay run
  have free : pairDeployment.undisturbed RealDistribution.evenPair s
      (.l3Request none ⟨0, 0, 1⟩ (0, 0)) := ⟨rfl, trivial⟩
  exact ⟨s, r, reached, taken,
    no_request_refused staffed (by decide) ⟨rfl, rfl⟩ reached free rfl taken⟩

end GridDeployment
end Shortstack
