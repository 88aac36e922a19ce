import Shortstack.JumpHash
import Shortstack.Pipeline
import Shortstack.ProxyManager

/-! What an L2 tail does when an L3 instance fails. It erases a block of connections of fixed
size at the column of the instance, and hashes labels over the connections that are left. -/
namespace Shortstack

namespace L2Proxy
variable {clients : List L3Column} {c hash : ℕ}

/-- The connection and the worker `send_op` picks for the hash of a label. -/
def connection (clients : List L3Column) (hash : ℕ) : Option (L3Column × ℕ) :=
  clients[jumpConsistentHash hash clients.length]?.map fun x => (x, hash % x.numWorkers)

/-- The connections without the block at a column. -/
def withoutBlock (clients : List L3Column) (c : ℕ) : List L3Column :=
  clients.take c ++ clients.drop (c + l3NumCores)

lemma removeConnection_iface {m : ChainModule L2State} (tail : m.isTail = true)
    (iface : m.user.l3Iface = some clients) (inside : c + l3NumCores ≤ clients.length) :
    (removeConnection m c).state.user.l3Iface = some (withoutBlock clients c) := by
  have cores : l3NumCores = 16 := rfl
  unfold removeConnection
  rw [tail, iface]
  dsimp only
  rw [if_neg (by omega), if_neg (by omega)]
  rfl

lemma withoutBlock_length (inside : c + l3NumCores ≤ clients.length) :
    (withoutBlock clients c).length = clients.length - l3NumCores := by
  unfold withoutBlock
  rw [List.length_append, List.length_take, List.length_drop]
  omega

lemma withoutBlock_getElem? (inside : c + l3NumCores ≤ clients.length) (i : ℕ) :
    (withoutBlock clients c)[i]? = clients[if i < c then i else i + l3NumCores]? := by
  unfold withoutBlock
  have size : (clients.take c).length = c := by
    rw [List.length_take]
    omega
  split
  · next before =>
    rw [List.getElem?_append_left (by omega), List.getElem?_take_of_lt before]
  · next after =>
    rw [List.getElem?_append_right (by omega), size, List.getElem?_drop]
    congr 1
    omega

/-- Removing a block leaves a label outside it at its connection exactly when its column is in
front of the block, or is one of the last columns, as many as a block has, and its label jumps
to the bucket a block below as the last one below the new number of connections. -/
theorem survivor_keeps_label_iff {m : ChainModule L2State} (tail : m.isTail = true)
    (iface : m.user.l3Iface = some clients) (distinct : clients.Nodup)
    (small : clients.length ≤ 2 ^ 31) (inside : c + l3NumCores < clients.length)
    (outside : ¬ (c ≤ jumpConsistentHash hash clients.length ∧
      jumpConsistentHash hash clients.length < c + l3NumCores)) :
    (removeConnection m c).state.user.l3Iface.bind (connection · hash) = connection clients hash ↔
      jumpConsistentHash hash clients.length < c ∨
        clients.length - l3NumCores ≤ jumpConsistentHash hash clients.length ∧
          IsGreatest {x | (∃ i, candidate jump hash i = x) ∧ x < clients.length - l3NumCores}
            (jumpConsistentHash hash clients.length - l3NumCores) := by
  have cores : l3NumCores = 16 := rfl
  have before := @jumpConsistentHash_lt clients.length hash (by omega)
  have after := @jumpConsistentHash_lt (clients.length - l3NumCores) hash (by omega)
  rw [removeConnection_iface tail iface (by omega), Option.bind_some]
  unfold connection
  rw [withoutBlock_length (by omega), withoutBlock_getElem? (by omega)]
  set old := jumpConsistentHash hash clients.length with hold
  set new := jumpConsistentHash hash (clients.length - l3NumCores) with hnew
  have greatest : IsGreatest {x | (∃ i, candidate jump hash i = x) ∧ x < clients.length - l3NumCores}
      new := jumpConsistentHash_isGreatest (by omega) (by omega) hash
  have stay : old < clients.length - l3NumCores → new = old :=
    jumpConsistentHash_eq (by omega) (Nat.sub_le _ _)
  have same : ∀ i (_ : i < clients.length), (clients[i]?.map fun x => (x, hash % x.numWorkers)) =
      clients[old]?.map (fun x => (x, hash % x.numWorkers)) ↔ i = old := by
    intro i hi
    rw [List.getElem?_eq_getElem hi, List.getElem?_eq_getElem before]
    refine ⟨fun eq => ?_, ?_⟩
    · have eq := (Prod.mk.inj (Option.some.inj eq)).1
      exact (distinct.getElem_inj_iff).mp eq
    · rintro rfl
      rfl
  rw [same _ (by split <;> omega)]
  constructor
  · intro eq
    rcases Nat.lt_or_ge old c with front | behind
    · exact .inl front
    · have moved : new + l3NumCores = old := by
        split at eq <;> omega
      refine .inr ⟨?_, ?_⟩
      · by_contra inner
        have := stay (by omega)
        omega
      · rwa [← moved, Nat.add_sub_cancel]
  · rintro (front | ⟨last, same⟩)
    · rw [stay (by omega), if_pos front]
    · have moved := greatest.unique same
      rw [if_neg (by omega), moved]
      omega

def fortyColumns : List L3Column := (List.range 40).map fun i => ⟨i, 1⟩

def fortyTail : ChainModule L2State := { user := ⟨[], some fortyColumns, none⟩ }

lemma fortyTail_greatest :
    IsGreatest {x | (∃ i, candidate jump (murmurHash64A "42" 1995) i = x) ∧
        x < fortyColumns.length - l3NumCores}
      (jumpConsistentHash (murmurHash64A "42" 1995) fortyColumns.length - l3NumCores) := by
  have last : jumpConsistentHash (murmurHash64A "42" 1995) fortyColumns.length - l3NumCores =
      jumpConsistentHash (murmurHash64A "42" 1995) (fortyColumns.length - l3NumCores) := by
    decide +kernel
  rw [last]
  exact jumpConsistentHash_isGreatest (by decide +kernel) (by decide) _

/-- The label "42" is at the last column, before and after the removal of the first block. -/
theorem survivor_keeps_label_iff_last :
    (removeConnection fortyTail 0).state.user.l3Iface.bind
      (connection · (murmurHash64A "42" 1995)) =
      connection fortyColumns (murmurHash64A "42" 1995) :=
  (survivor_keeps_label_iff rfl rfl (by decide) (by decide) (by decide) (by decide +kernel)).mpr
    (.inr ⟨by decide +kernel, fortyTail_greatest⟩)

/-- The label "0" moves from column 31 to column 18 when columns 0 to 15 are removed. -/
theorem survivor_loses_label : consistentHash "0" 40 = 31 ∧
    routeL3 fortyColumns "0" = some (31, 0) ∧
    (removeConnection fortyTail 0).state.user.l3Iface.bind (routeL3 · "0") = some (18, 0) ∧
    (removeConnection fortyTail 0).state.user.l3Iface.bind
      (connection · (murmurHash64A "0" 1995)) ≠
      connection fortyColumns (murmurHash64A "0" 1995) := by
  decide +kernel

end L2Proxy

namespace Cluster
open HostInfo ProxyManager L2Proxy
variable (d : Deployment)

/-- The connections to all L3 instances, in the order of their columns. -/
def allColumns : List L3Column := (firstReplicas d.hosts .l3).mapIdx fun column n => ⟨column, n⟩

/-- The connections to the instances that have not failed. -/
def survivors (gone : List Host) : List L3Column :=
  (allColumns d).filter fun x => x.column ∉ gone.map Host.column

/-- Workers of the L2 tails. -/
def AtTails (P : Host → ℕ → Prop) : Prop := ∀ h ∈ tails d.hosts .l2, ∀ w < h.numWorkers, P h w

/-- The operation is on a label that the worker routes to a column. -/
def RoutedTo (m : ChainModule L2State) (op : ChainOp) (column : ℕ) : Prop :=
  ∃ o rest l clients worker, L2Operation.deserialize op.args = .ok (o, rest) ∧
    d.replicaToLabel.lookup (L2Proxy.labelName o) = some l ∧ m.user.l3Iface = some clients ∧
    L2Proxy.routeL3 clients (toString l) = some (column, worker)

/-- What one call of `fail_node` has to do for an L3 instance: the erased block is within the
connections, the pending operations of the instance are resent, and the connections to all
instances alive are left. -/
structure RemovesOne (s : Cluster) (gone : List Host) (failed : Host) : Prop where
  inside : AtTails d fun h w => ∀ clients ∈ (s.l2 h w).user.l3Iface,
    failed.column + l3NumCores ≤ clients.length
  resent : AtTails d fun h w => ∀ e ∈ (s.l2 h w).pending.entries,
    RoutedTo d (s.l2 h w) e.2 failed.column →
      L2Proxy.filterRequest (d.l2Config h.column w) e.2.args failed.column
        (getNumColumns d.hosts .l3 false) = .ok true
  left : AtTails d fun h w => ((s.failNode d failed.instanceName).state.l2 h w).user.l3Iface =
    some (survivors d (gone ++ [failed]))

/-- Every call of a sequence does so. -/
def RemovesExactly : Cluster → List Host → List Host → Prop
  | _, _, [] => True
  | s, gone, failed :: rest => RemovesOne d s gone failed ∧
    RemovesExactly (s.failNode d failed.instanceName).state (gone ++ [failed]) rest

/-- Every L2 tail is connected to all L3 instances. -/
def FullyConnected (s : Cluster) : Prop :=
  AtTails d fun h w => (s.l2 h w).user.l3Iface = some (allColumns d)

section Never
variable {d}

/-- As many connections as there are instances, or fewer by a whole block. -/
def Shrunk (size : ℕ) (m : ChainModule L2State) : Prop :=
  ∃ clients, m.user.l3Iface = some clients ∧
    (clients.length = size ∨ clients.length + l3NumCores ≤ size)

lemma Shrunk.removeConnection {size : ℕ} {m : ChainModule L2State} (h : Shrunk size m) (column : ℕ) :
    Shrunk size (L2Proxy.removeConnection m column).state := by
  obtain ⟨clients, iface, length⟩ := h
  unfold L2Proxy.removeConnection
  rw [iface]
  cases m.isTail with
  | false => exact ⟨clients, iface, length⟩
  | true =>
    dsimp only
    split
    · exact ⟨clients, iface, length⟩
    · split
      · exact ⟨clients, iface, length⟩
      · refine ⟨_, rfl, ?_⟩
        rw [List.length_append, List.length_take, List.length_drop]
        omega

/-- The calls `fail_node` makes for an L3 column. -/
def ForColumn (column : ℕ) : ManagerCall → Prop
  | .crash _ => True
  | .updateConnections _ type c target => type = .l3 ∧ c = column ∧ target = none
  | .selectiveResendPending .. => True
  | _ => False

lemma call_shrunk {s : Cluster} {size column : ℕ} {h : Host} {w : ℕ} (before : Shrunk size (s.l2 h w)) {c : ManagerCall}
    (here : ForColumn column c) : Shrunk size ((call d s c).state.l2 h w) := by
  unfold call
  split
  · exact before
  · cases c with
    | crash h' => exact before
    | selectiveResendPending h' c n => exact before
    | setupChain _ _ _ | resendPending _ _ => exact here.elim
    | updateConnections h' type c target =>
      obtain ⟨rfl, rfl, rfl⟩ := here
      dsimp only
      unfold updateConnections
      cases h'.type with
      | l1 | l3 | kv => exact before
      | l2 =>
        dsimp only
        unfold onWorkers
        rcases eq_or_ne h h' with rfl | other
        · rw [Function.update_self]
          split
          · exact before.removeConnection c
          · exact before
        · rw [Function.update_of_ne other]
          exact before

lemma failNode_shrunk {s : Cluster} {failed : Host} (found : getHost d.hosts failed.instanceName =
    some failed) (type : failed.type = .l3) {size : ℕ} {h : Host} {w : ℕ} (before : Shrunk size (s.l2 h w)) :
    Shrunk size ((s.failNode d failed.instanceName).state.l2 h w) := by
  have plan : ProxyManager.failNode d.hosts failed.instanceName =
      ⟨.crash failed :: failL3Calls d.hosts failed.column, none⟩ := by
    unfold ProxyManager.failNode
    rw [found]
    simp only [type]
  have calls : ∀ c ∈ ManagerCall.crash failed :: failL3Calls d.hosts failed.column,
      ForColumn failed.column c := by
    intro c mem
    rcases List.mem_cons.mp mem with rfl | mem
    · trivial
    rcases List.mem_append.mp mem with mem | mem
    · obtain ⟨x, -, rfl⟩ := List.mem_map.mp mem
      exact ⟨rfl, rfl, rfl⟩
    · obtain ⟨x, -, rfl⟩ := List.mem_map.mp mem
      trivial
  have loop := Outcome.forEach_induction (f := call d) (.crash failed ::
    failL3Calls d.hosts failed.column) s [] (P := fun s _ => Shrunk size (s.l2 h w))
    (fun t sent c mem ok => call_shrunk ok (calls c mem)) before
  unfold Cluster.failNode
  rw [plan]
  exact Outcome.andThen_rule (Q := fun o : Outcome Cluster ManagerCall => Shrunk size (o.state.l2 h w))
    (fun _ => loop)
    fun _ => loop

variable {d : GridDeployment}

lemma allColumns_columns : (allColumns d.toDeployment).map L3Column.column =
    List.range d.l3Workers.length := by
  unfold allColumns
  rw [d.l3Grid.firstReplicas_eq]
  refine List.ext_getElem (by simp) fun i hi hi' => ?_
  simp

lemma survivors_length {failed : Host} (mem : failed ∈ d.hosts) (type : failed.type = .l3) :
    (survivors d.toDeployment [failed]).length + 1 = d.l3Workers.length := by
  have column : failed.column < d.l3Workers.length :=
    (List.getElem?_eq_some_iff.mp (d.l3Grid.inside failed mem type).2).1
  have kept : (survivors d.toDeployment [failed]).map L3Column.column =
      (List.range d.l3Workers.length).erase failed.column := by
    rw [List.nodup_range.erase_eq_filter, ← allColumns_columns, List.filter_map]
    unfold survivors
    congr 1
    refine List.filter_congr fun x _ => ?_
    rw [Bool.eq_iff_iff]
    simp
  have length := congrArg List.length kept
  rw [List.length_map, List.length_erase_of_mem (List.mem_range.mpr column), List.length_range]
    at length
  omega

/-- No call of `fail_node` for an L3 instance removes exactly the failed instance: the erased
block leaves the connections, or takes more than one. -/
theorem l3_removal_never_exact {s : Cluster} (connected : FullyConnected d.toDeployment s)
    (tail : ∃ h ∈ tails d.hosts .l2, 0 < h.numWorkers) {failed : Host} (mem : failed ∈ d.hosts)
    (type : failed.type = .l3) (rest : List Host) :
    ¬ RemovesExactly d.toDeployment s [] (failed :: rest) := by
  rintro ⟨one, -⟩
  obtain ⟨h, isTail, some'⟩ := tail
  have size : (allColumns d.toDeployment).length = d.l3Workers.length := by
    simpa using congrArg List.length (@allColumns_columns d)
  have iface := connected h isTail 0 some'
  have before : Shrunk d.l3Workers.length (s.l2 h 0) := ⟨_, iface, .inl size⟩
  obtain ⟨clients, after, length⟩ :=
    failNode_shrunk (d.l3Grid.getHost_eq mem) type before
  have left := one.left h isTail 0 some'
  dsimp only at left
  rw [after, List.nil_append] at left
  have count := survivors_length mem type
  rw [← Option.some.inj left] at count
  have cores : l3NumCores = 16 := rfl
  omega

def wideL2 : Host := ⟨"l2_0", .l2, "h", 9290, 0, 0, 1⟩

def wideL3 (column : ℕ) : Host := ⟨"l3_" ++ toString column, .l3, "h", 9490 + column, 0, column, 1⟩

/-- One L1 and one L2 instance and 17 L3 instances. -/
def wideDeployment : GridDeployment where
  hosts := ⟨"l1_0", .l1, "h", 9090, 0, 0, 1⟩ :: wideL2 :: (List.range 17).map wideL3
  dummyKey := "dummy"
  keyToNumberOfReplicas := ∅
  counts := intCounts_empty
  replicaToLabel := ∅
  securityBatchSize := 1
  disableAllFalse := false
  updateCacheEnabled := true
  l1AckBatchSize := 1
  l2AckBatchSize := 1
  l3AckBatchSize := 1
  l1Rows := 1
  l2Rows := 1
  l3Rows := 1
  l1Workers := [1]
  l2Workers := [1]
  l3Workers := List.replicate 17 1
  l1Grid := .of_counts (by decide +kernel) (by decide) (by decide +kernel) (by decide +kernel)
  l2Grid := .of_counts (by decide +kernel) (by decide) (by decide +kernel) (by decide +kernel)
  l3Grid := .of_counts (by decide +kernel) (by decide) (by decide +kernel) (by decide +kernel)

lemma wide_connected : FullyConnected wideDeployment.toDeployment (start wideDeployment.toDeployment) := by
  unfold FullyConnected AtTails
  decide +kernel

theorem l3_removal_never_exact_wide : ¬ RemovesExactly wideDeployment.toDeployment
    (start wideDeployment.toDeployment) [] [wideL3 0, wideL3 3] :=
  l3_removal_never_exact wide_connected ⟨wideL2, by decide +kernel, by decide⟩ (by decide +kernel) rfl
    [wideL3 3]

/-- The failure of one of 17 instances leaves the L2 tail with one connection. -/
theorem l3_failure_removes_block :
    ((start wideDeployment.toDeployment).failNode wideDeployment.toDeployment "l3_0").status =
      .returned ∧
    (((start wideDeployment.toDeployment).failNode wideDeployment.toDeployment "l3_0").state.l2
      wideL2 0).user.l3Iface = some [⟨16, 1⟩] ∧
    (survivors wideDeployment.toDeployment [wideL3 0]).length = 16 ∧
    ¬ RemovesExactly wideDeployment.toDeployment (start wideDeployment.toDeployment) []
      [wideL3 0] := by
  have after : (((start wideDeployment.toDeployment).failNode wideDeployment.toDeployment
      "l3_0").state.l2 wideL2 0).user.l3Iface = some [⟨16, 1⟩] := by
    decide +kernel
  have expected : (survivors wideDeployment.toDeployment [wideL3 0]).length = 16 := by
    decide +kernel
  refine ⟨by decide +kernel, after, expected, ?_⟩
  rintro ⟨one, -⟩
  have left := one.left wideL2 (by decide +kernel) 0 (by decide)
  have same := Option.some.inj (after.symm.trans left)
  rw [List.nil_append] at same
  rw [← same] at expected
  simp at expected

end Never

end Cluster
end Shortstack
