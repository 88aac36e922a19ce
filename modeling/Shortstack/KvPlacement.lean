import Shortstack.Deployment
import Shortstack.ReplicaLabels

/-! Where a label is stored. The initializer spreads the labels over all KV hosts by their
hash; an L3 instance uses the one KV host that has the position of its own hostname among the
hostnames of the L3 tier. -/
namespace Shortstack

namespace HostInfo

/-- `get_host_idx`: the position of a hostname among the hostnames of a tier, sorted and
without repetitions. -/
def getHostIdx (hosts : HostInfo) (t : HostType) (hostname : String) : Option ℕ :=
  ((((getHostsByType hosts t).map Host.hostname).insertionSort (· ≤ ·)).destutter
    (· ≠ ·)).findIdx? (· = hostname)

end HostInfo

namespace Deployment
open HostInfo
variable (d : Deployment)

def kvHosts : List Host := getHostsByType d.hosts .kv

/-- The client of the initializer has a connection to every KV host. -/
def initializerServer (label : String) : Option Host :=
  d.kvHosts[consistentHash label d.kvHosts.length]?

/-- The L3 instance an L2 tail sends a label to. -/
def l3Instance (label : String) : Option Host :=
  (L2Proxy.routeL3 ((firstReplicas d.hosts .l3).mapIdx fun column n => ⟨column, n⟩) label).bind
    fun x => (getReplicas d.hosts .l3 x.1).head?

/-- The KV host of an L3 instance, `kv_hosts[redis_idx]`. -/
def l3Server (h : Host) : Option Host := (getHostIdx d.hosts .l3 h.hostname).bind (d.kvHosts[·]?)

/-- The KV host an L3 instance reads a label from is the one the initializer has written it to. -/
def SameStore (label : String) : Prop :=
  ∃ h i, d.l3Instance label = some h ∧ getHostIdx d.hosts .l3 h.hostname = some i ∧
    i < d.kvHosts.length ∧ consistentHash label d.kvHosts.length = i

/-- The rank of an L3 instance follows the hash of a label that is routed to it. With as many KV
hosts as columns, or fewer, it is the column of the instance as far as there are KV hosts;
otherwise it is where the jumps of the hash lead last among the KV hosts. -/
def Follows (columns : ℕ) (label : String) (column rank : ℕ) : Prop :=
  if d.kvHosts.length = 1 then rank = 0
  else if column < d.kvHosts.length ∧ d.kvHosts.length ≤ columns then rank = column
  else IsGreatest {x | (∃ i, candidate jump (murmurHash64A label 1995) i = x) ∧
    x < d.kvHosts.length} rank

/-- There is a KV host, and every L3 instance that labels are routed to follows them. -/
def Aligned (columns : ℕ) (labels : List String) : Prop :=
  ∀ label ∈ labels, 0 < d.kvHosts.length ∧ ∀ h, d.l3Instance label = some h →
    ∃ rank, getHostIdx d.hosts .l3 h.hostname = some rank ∧ d.Follows columns label h.column rank

end Deployment

namespace GridDeployment
open HostInfo Deployment
variable {d : GridDeployment}

lemma l3Instance_eq (some' : d.l3Workers ≠ []) (label : String) :
    ∃ h ∈ d.hosts, h.type = .l3 ∧ h.column = consistentHash label d.l3Workers.length ∧
      d.l3Instance label = some h := by
  have inside : consistentHash label d.l3Workers.length < d.l3Workers.length :=
    consistentHash_lt label (List.length_pos_of_ne_nil some')
  have rows := d.l3Grid.getReplicas_rows inside
  obtain ⟨h, rest, replicas⟩ : ∃ h rest,
      getReplicas d.hosts .l3 (consistentHash label d.l3Workers.length) = h :: rest := by
    refine List.exists_cons_of_ne_nil fun none => ?_
    rw [none] at rows
    have pos := d.l3Grid.pos
    have empty : d.l3Rows = 0 := by simpa using (congrArg List.length rows).symm
    omega
  have mem : h ∈ getReplicas d.hosts .l3 (consistentHash label d.l3Workers.length) := by
    rw [replicas]
    exact List.mem_cons_self
  unfold getReplicas at mem
  rw [List.mem_insertionSort, List.mem_filter, decide_eq_true_eq] at mem
  refine ⟨h, mem.1, mem.2.1, mem.2.2, ?_⟩
  unfold Deployment.l3Instance L2Proxy.routeL3
  rw [d.l3Grid.firstReplicas_eq]
  simp [inside, replicas]

lemma follows_iff {d : Deployment} {columns : ℕ} (small : columns ≤ 2 ^ 31)
    (small' : d.kvHosts.length ≤ 2 ^ 31) (some' : 0 < d.kvHosts.length) (label : String) (rank : ℕ) :
    d.Follows columns label (consistentHash label columns) rank ↔
      consistentHash label d.kvHosts.length = rank := by
  have bucket := jumpConsistentHash_isGreatest (n := d.kvHosts.length) (by omega) some'
    (murmurHash64A label 1995)
  unfold Deployment.Follows
  split
  · next one =>
    have below := consistentHash_lt label some'
    omega
  · split
    · next few =>
      have stays : consistentHash label d.kvHosts.length = consistentHash label columns :=
        jumpConsistentHash_eq (by omega) few.2 few.1
      rw [stays]
      exact eq_comm
    · exact ⟨fun greatest => bucket.unique greatest, fun same => same ▸ bucket⟩

lemma sameStore_server {d : Deployment} {label : String} (h : d.SameStore label) :
    ∃ h server, d.l3Instance label = some h ∧ d.l3Server h = some server ∧
      d.initializerServer label = some server := by
  obtain ⟨h, i, found, rank, inside, server⟩ := h
  refine ⟨h, d.kvHosts[i], found, ?_, ?_⟩
  · rw [Deployment.l3Server, rank, Option.bind_some, List.getElem?_eq_getElem inside]
  · rw [Deployment.initializerServer, server, List.getElem?_eq_getElem inside]

/-- Every label of the initializer is read from the store it was written to if and only if the L3
instances that labels are routed to are aligned with the KV hosts. -/
theorem same_store_iff (some' : d.l3Workers ≠ []) (small : d.l3Workers.length ≤ 2 ^ 31)
    (small' : d.kvHosts.length ≤ 2 ^ 31) (dist : KeyDistribution) (v : String) :
    (∀ label ∈ (dist.createReplicas toDouble d.dummyKey v).written, d.SameStore label ∧
      ∃ h server, d.l3Instance label = some h ∧ d.l3Server h = some server ∧
        d.initializerServer label = some server) ↔
    d.Aligned d.l3Workers.length (dist.createReplicas toDouble d.dummyKey v).written := by
  constructor
  · intro same label mem
    obtain ⟨h, i, found, rank, inside, server⟩ := (same label mem).1
    obtain ⟨x, -, -, column, routed⟩ := l3Instance_eq some' label
    obtain rfl := Option.some.inj (routed.symm.trans found)
    have some'' : 0 < d.kvHosts.length := by omega
    refine ⟨some'', fun h' found' => ?_⟩
    obtain rfl := Option.some.inj (found.symm.trans found')
    exact ⟨i, rank, column ▸ (follows_iff small small' some'' label i).mpr server⟩
  · intro aligned label mem
    obtain ⟨some'', follow⟩ := aligned label mem
    obtain ⟨h, -, -, column, found⟩ := l3Instance_eq some' label
    obtain ⟨i, rank, follows⟩ := follow h found
    have server := (follows_iff small small' some'' label i).mp (column ▸ follows)
    have same : d.SameStore label :=
      ⟨h, i, found, rank, server ▸ consistentHash_lt label some'', server⟩
    exact ⟨same, sameStore_server same⟩

/-- With one KV host for each column it is enough that the ranks of the first row are the columns. -/
lemma aligned_of_ranks (some' : d.l3Workers ≠ []) (size : d.kvHosts.length = d.l3Workers.length)
    {labels : List String} (ranks : ∀ label ∈ labels, ∀ h, d.l3Instance label = some h →
      getHostIdx d.hosts .l3 h.hostname = some h.column) :
    d.Aligned d.l3Workers.length labels := by
  have pos := List.length_pos_of_ne_nil some'
  refine fun label mem => ⟨by omega, fun h found => ⟨_, ranks label mem h found, ?_⟩⟩
  obtain ⟨x, -, -, column, routed⟩ := l3Instance_eq some' label
  obtain rfl := Option.some.inj (routed.symm.trans found)
  have inside := consistentHash_lt label pos
  unfold Deployment.Follows
  split
  · omega
  · rw [if_pos ⟨by omega, size.le⟩]

/-- Two KV hosts and two columns of L3 instances with the given hostnames on the first row, the
same two the other way round on the second one. -/
def storeHosts (first second : String) : HostInfo :=
  [⟨"l1_0", .l1, "p", 9090, 0, 0, 1⟩, ⟨"l2_0", .l2, "p", 9290, 0, 0, 1⟩,
    ⟨"l3_0", .l3, first, 9490, 0, 0, 1⟩, ⟨"l3_1", .l3, second, 9590, 0, 1, 1⟩,
    ⟨"l3_2", .l3, second, 9690, 1, 0, 1⟩, ⟨"l3_3", .l3, first, 9790, 1, 1, 1⟩,
    ⟨"kv_0", .kv, "s", 6379, 0, 0, 1⟩, ⟨"kv_1", .kv, "t", 6379, 0, 1, 1⟩]

/-- The L3 instances of a row are on different machines. -/
def splitDeployment : GridDeployment where
  hosts := storeHosts "a" "b"
  dummyKey := "dummy"
  keyToNumberOfReplicas := ∅
  counts := intCounts_empty
  replicaToLabel := ∅
  securityBatchSize := 1
  disableAllFalse := false
  updateCacheEnabled := true
  l1AckBatchSize := 1
  l2AckBatchSize := 1
  l3AckBatchSize := 1
  l1Rows := 1
  l2Rows := 1
  l3Rows := 2
  l1Workers := [1]
  l2Workers := [1]
  l3Workers := [1, 1]
  l1Grid := .of_counts (by decide) (by decide) (by decide) (by decide)
  l2Grid := .of_counts (by decide) (by decide) (by decide) (by decide)
  l3Grid := .of_counts (by decide) (by decide) (by decide) (by decide)

/-- All L3 instances on one machine. -/
def sharedDeployment : GridDeployment :=
  { splitDeployment with
    hosts := storeHosts "a" "a"
    l1Grid := .of_counts (by decide) (by decide) (by decide) (by decide)
    l2Grid := .of_counts (by decide) (by decide) (by decide) (by decide)
    l3Grid := .of_counts (by decide) (by decide) (by decide) (by decide) }

/-- The second row, which no label is routed to, does not matter. -/
theorem same_store_iff_split : splitDeployment.SameStore "0" ∧ splitDeployment.SameStore "1" ∧
    splitDeployment.SameStore "2" ∧ splitDeployment.SameStore "3" := by
  have written : (RealDistribution.evenPair.toDistribution.createReplicas toDouble
      splitDeployment.dummyKey "cipher").written = ["0", "1", "2", "3"] := by
    decide +kernel
  have aligned : splitDeployment.Aligned splitDeployment.l3Workers.length
      (RealDistribution.evenPair.toDistribution.createReplicas toDouble splitDeployment.dummyKey
        "cipher").written := by
    rw [written]
    refine aligned_of_ranks (by decide) (by decide) ?_
    decide +kernel
  have same := (@same_store_iff splitDeployment (by decide) (by decide) (by decide)
    RealDistribution.evenPair.toKeyDistribution "cipher").mpr aligned
  rw [written] at same
  have all := fun label mem => (same label mem).1
  exact ⟨all "0" (by decide), all "1" (by decide), all "2" (by decide), all "3" (by decide)⟩

/-- The first label is written to the second KV host, and read from the first one. -/
theorem shared_store_misplaces :
    "0" ∈ (RealDistribution.evenPair.toDistribution.createReplicas toDouble sharedDeployment.dummyKey
      "cipher").written ∧
    sharedDeployment.initializerServer "0" = some ⟨"kv_1", .kv, "t", 6379, 0, 1, 1⟩ ∧
    sharedDeployment.l3Instance "0" = some ⟨"l3_1", .l3, "a", 9590, 0, 1, 1⟩ ∧
    sharedDeployment.l3Server ⟨"l3_1", .l3, "a", 9590, 0, 1, 1⟩ =
      some ⟨"kv_0", .kv, "s", 6379, 0, 0, 1⟩ ∧
    ¬ sharedDeployment.SameStore "0" := by
  have written : "0" ∈ (RealDistribution.evenPair.toDistribution.createReplicas toDouble
      sharedDeployment.dummyKey "cipher").written := by
    decide +kernel
  have routed : sharedDeployment.l3Instance "0" = some ⟨"l3_1", .l3, "a", 9590, 0, 1, 1⟩ := by
    decide +kernel
  have rank : getHostIdx sharedDeployment.hosts .l3 "a" = some 0 := by decide +kernel
  have server : consistentHash "0" sharedDeployment.kvHosts.length = 1 := by decide +kernel
  refine ⟨written, by decide +kernel, routed, by decide +kernel, ?_⟩
  rintro ⟨h, i, found, position, -, same⟩
  obtain rfl := Option.some.inj (routed.symm.trans found)
  obtain rfl := Option.some.inj (rank.symm.trans position)
  rw [server] at same
  simp at same

end GridDeployment
end Shortstack
