import Shortstack.Deployment
import Shortstack.IngestOnce

/-! Resending never runs an operation twice at the L2 tier, whichever L1 rows but heads and
whichever L2 rows crash, and however late the messages of crashed rows arrive. -/
namespace Shortstack
open Transition L1Proxy

namespace L2Proxy

lemma parsed_kept (cfg : L2Config) :
    ChainNet.Kept (callbacks cfg) fun m => ∀ op ∈ m.ran, (chainSlot op).isSome = true := by
  refine ChainNet.Kept.of_callbacks
    (J := fun _ _ ran => ∀ op ∈ ran, (chainSlot op).isSome = true) ?_ ?_ ?_ ?_
  · intro _ _ u ran op before returned x hx
    rcases List.mem_append.mp hx with old | new
    · exact before x old
    · rw [List.mem_singleton.mp new]
      cases parsed : L2Operation.deserialize op.args with
      | ok p => simp [chainSlot, parsed]
      | error e =>
        simp only [callbacks, runCommand, parsed] at returned
        split at returned
        · simp at returned
        · split at returned <;> simp at returned
  · exact fun _ _ _ _ _ h _ => h
  · exact fun _ _ _ _ _ _ h => h
  · exact fun _ _ _ _ _ _ h => h

end L2Proxy

namespace Ingest
variable {s : Ingest} {cfg : IngestConfig}

lemma step_column {label : IngestLabel} {r : IngestResult} (taken : s.step cfg label = some r) :
    r.state.l2 = s.l2 ∨ ∃ c ext l x, (s.l2 c).step (cfg.l2 c) ext l = some x ∧
      r.state.l2 = Function.update s.l2 c x.column := by
  cases step_cases taken with
  | l1 | refused | ackL1 | crashL1 | lose | reconnect | abandoned => exact .inl rfl
  | @deliver ext k row x op rest y _ moved => exact .inr ⟨x.column, ext, _, y, moved, rfl⟩
  | @l2 ext column l x _ moved => exact .inr ⟨column, ext, l, x, moved, rfl⟩

lemma kept_step {I : ChainModule L2State → Prop}
    (kept : ∀ c w, ChainNet.Kept (L2Proxy.callbacks (cfg.l2 c w)) I)
    (setup : ∀ c w m role next, I m → I (m.setup (L2Proxy.callbacks (cfg.l2 c w)) role next))
    (h : ∀ c w i, I (((s.l2 c).net w).node i)) {label : IngestLabel} {r : IngestResult}
    (taken : s.step cfg label = some r) : ∀ c w i, I (((r.state.l2 c).net w).node i) := by
  rcases step_column taken with same | ⟨c, ext, l, x, moved, eq⟩
  · rwa [same]
  · intro c' w i
    rw [eq]
    rcases eq_or_ne c' c with rfl | other
    · rw [Function.update_self]
      exact L2Column.kept_step (I := fun _ => I) (kept c') (setup c') (h c') moved w i
    · rw [Function.update_of_ne other]
      exact h c' w i

lemma cache_step {label : IngestLabel} {r : IngestResult} (taken : s.step cfg label = some r)
    (c i : ℕ) : (r.state.l2 c).cache i = (s.l2 c).cache i ∨
      ∃ w op, (((r.state.l2 c).net w).node i).ran = (((s.l2 c).net w).node i).ran ++ [op] ∧
        (r.state.l2 c).cache i = L2Column.afterPut (cfg.l2 c w) ((s.l2 c).cache i) op := by
  rcases step_column taken with same | ⟨c', ext, l, x, moved, eq⟩
  · exact .inl (by rw [same])
  · rw [eq]
    rcases eq_or_ne c c' with rfl | other
    · rw [Function.update_self]
      exact L2Column.cache_step moved i
    · rw [Function.update_of_ne other]
      exact .inl rfl

variable (d : GridDeployment)

lemma connect_start : (connect d.ingest.l1 fun _ row => decide (row < d.ingest.l2Rows)).map
    L2Client.numWorkers = d.ingest.l1.l2Workers := by
  refine connect_full ?_
  rcases eq_or_ne d.l2Workers [] with none | some'
  · simp [connectFails, none]
  · have reached : 0 < d.ingest.l2Rows := by
      rw [d.ingest_l2Rows some']
      exact d.l2Grid.pos
    simp [connectFails, connect, reached, List.takeWhile_eq_self_iff.mpr]

lemma start_user (cfg : IngestConfig) (k i : ℕ) :
    (((start cfg).l1 k).node i).user = initState (cfg.l1Idx k i) ∨
    (((start cfg).l1 k).node i).user = { initState (cfg.l1Idx k i) with
      l2Iface := some (connect cfg.l1 fun _ row => decide (row < cfg.l2Rows)) } := by
  simp only [start, ChainNet.start, ChainModule.setup, L1Proxy.callbacks, setupCallback]
  generalize initRole _ i = role
  split
  · exact .inr rfl
  · exact .inl rfl

lemma not_occurs_start (c w : ℕ) (slot : Slot) : ¬ Occurs (start cfg) c w slot := by
  intro occurs
  cases occurs with
  | link mem | ran mem | chain mem =>
    simp [start, L2Column.start, ChainNet.start, ChainModule.setup] at mem

lemma Once.start : Once d.ingest (start d.ingest) where
  l1 _ := ChainNet.Inv.start _ _ _ _
  l2 _ _ := ChainNet.Inv.start _ _ _ _
  within k i hi := by
    simp only [Ingest.start, ChainNet.start, decide_eq_true_eq] at hi
    split at hi
    · next inside => exact ⟨inside, hi⟩
    · omega
  head k i hi := by
    simp only [Ingest.start, ChainNet.start, decide_eq_true_eq] at hi ⊢
    omega
  idx k i hi := by
    simp only [Ingest.start, ChainNet.start, decide_eq_true_eq] at hi
    split at hi
    · next inside =>
      rw [d.ingest_l1Workers] at inside
      have some' : d.l1Workers ≠ [] := by
        rintro none
        simp [none] at inside
      rw [d.ingest_l1Rows some'] at hi
      have idx : d.ingest.l1Idx k i = k := d.l1Idx_eq inside hi
      rcases start_user d.ingest k i with user | user
      · rw [user]
        exact idx
      · rw [user]
        exact idx
    · omega
  iface _ k i clients open' := by
    rcases start_user d.ingest k i with user | user
    · simp [user, initState] at open'
    · rw [user] at open'
      rw [← Option.some.inj open']
      exact connect_start d
  origin c w slot occurs := absurd occurs (not_occurs_start c w slot)
  routed _ c w slot occurs := absurd occurs (not_occurs_start c w slot)
  unique c w _ _ slot _ occurs := absurd occurs (not_occurs_start c w slot)
  ascending c w i := by
    simp [Ingest.start, L2Column.start, ChainNet.start, ChainModule.setup, L2Proxy.Ascending]

variable {d}

lemma Once.reaches (h : Reaches (ingestSystem d.ingest) (headLast d.ingest) s) :
    Once d.ingest s := by
  refine h.invariant ?_ ?_
  · rintro _ rfl
    exact .start d
  · intro s l t once allowed taken
    obtain ⟨r, hr, rfl⟩ := Option.map_eq_some_iff.mp taken
    exact once.step allowed hr

lemma parsed_reaches (h : Reaches (ingestSystem d.ingest) (headLast d.ingest) s) (c w i : ℕ) :
    ∀ op ∈ (((s.l2 c).net w).node i).ran, (chainSlot op).isSome = true := by
  refine h.invariant (P := fun s => ∀ c w i, ∀ op ∈ (((s.l2 c).net w).node i).ran,
    (chainSlot op).isSome = true) ?_ ?_ c w i
  · rintro _ rfl c w i op mem
    simp [Ingest.start, L2Column.start, ChainNet.start, ChainModule.setup] at mem
  · intro s l t before _ taken
    obtain ⟨r, hr, rfl⟩ := Option.map_eq_some_iff.mp taken
    exact kept_step (fun c w => L2Proxy.parsed_kept (d.ingest.l2 c w))
      (fun _ _ _ _ _ h => h) before hr

lemma count_le_one {u : L2State} {ran : List ChainOp} (h : L2Proxy.Ascending u ran)
    (idx number : ℤ) :
    ran.countP (fun op => op.seq.l1Idx = idx ∧ op.seq.l1SeqNo = number) ≤ 1 := by
  have ordered := h.2
  clear h
  induction ran with
  | nil => simp
  | cons op ran ih =>
    obtain ⟨first, rest⟩ := List.pairwise_cons.mp ordered
    rw [List.countP_cons]
    split
    · next here =>
      simp only [decide_eq_true_eq] at here
      have none : ran.countP (fun op => op.seq.l1Idx = idx ∧ op.seq.l1SeqNo = number) = 0 := by
        rw [List.countP_eq_zero]
        intro x hx
        simp only [decide_eq_true_eq]
        rintro ⟨same, eq⟩
        have := first x hx (here.1.trans same.symm)
        omega
      omega
    · simpa using ih rest

/-- Resending never runs a real operation twice: in every reachable state each list of
commands holds an operation at most once, with increasing numbers for each L1 worker; two
replicas that run an operation that is not for the dummy key belong to one worker of one
column and run the same operation; and the update cache of an instance changes only when
one of its workers runs an operation it has not run before. -/
theorem real_operation_runs_once
    (h : Reaches (ingestSystem d.ingest) (headLast d.ingest) s) :
    (∀ c w i idx number, (((s.l2 c).net w).node i).ran.countP
      (fun op => op.seq.l1Idx = idx ∧ op.seq.l1SeqNo = number) ≤ 1) ∧
    (∀ c w i, (((s.l2 c).net w).node i).ran.Pairwise fun a b =>
      a.seq.l1Idx = b.seq.l1Idx → a.seq.l1SeqNo < b.seq.l1SeqNo) ∧
    (∀ c w i c' w' i' op op' slot, op ∈ (((s.l2 c).net w).node i).ran →
      op' ∈ (((s.l2 c').net w').node i').ran → op.seq.l1Idx = op'.seq.l1Idx →
      op.seq.l1SeqNo = op'.seq.l1SeqNo → chainSlot op = some slot → slot.key ≠ d.dummyKey →
      c = c' ∧ w = w' ∧ chainSlot op' = some slot) ∧
    (∀ label r, headLast d.ingest s label → s.step d.ingest label = some r → ∀ c i,
      (r.state.l2 c).cache i = (s.l2 c).cache i ∨
      ∃ w op, (((r.state.l2 c).net w).node i).ran = (((s.l2 c).net w).node i).ran ++ [op] ∧
        (r.state.l2 c).cache i = L2Column.afterPut (d.ingest.l2 c w) ((s.l2 c).cache i) op ∧
        ∀ old ∈ (((s.l2 c).net w).node i).ran,
          ¬ (old.seq.l1Idx = op.seq.l1Idx ∧ old.seq.l1SeqNo = op.seq.l1SeqNo)) := by
  have once := Once.reaches h
  refine ⟨fun c w i => count_le_one (once.ascending c w i), fun c w i => (once.ascending c w i).2,
    ?_, ?_⟩
  · intro c w i c' w' i' op op' slot hop hop' idx number found real
    obtain ⟨slot', found'⟩ := Option.isSome_iff_exists.mp (parsed_reaches h c' w' i' op' hop')
    have fields : ∀ {o : ChainOp} {x : Slot}, chainSlot o = some x →
        x.idx = o.seq.l1Idx ∧ x.number = o.seq.l1SeqNo := by
      intro o x eq
      unfold chainSlot at eq
      split at eq
      · rw [← Option.some.inj eq]
        exact ⟨rfl, rfl⟩
      · simp at eq
    have sameIdx : slot.idx = slot'.idx := by rw [(fields found).1, (fields found').1, idx]
    have sameNumber : slot.number = slot'.number := by rw [(fields found).2, (fields found').2, number]
    have here : Occurs s c w slot := .ran hop found
    have there : Occurs s c' w' slot' := .ran hop' found'
    obtain ⟨rfl, rfl⟩ := Prod.mk.inj
      (once.unique c w c' w' slot slot' here there sameIdx sameNumber real)
    obtain ⟨_, _, _, _, from'⟩ := once.origin c w slot here
    obtain ⟨_, _, _, _, from''⟩ := once.origin c w slot' there
    obtain ⟨rfl, rfl, rfl, rfl⟩ := from'.same once.l1 from'' sameIdx sameNumber
    obtain ⟨key, replica, value⟩ := from'.content_eq from''
    refine ⟨rfl, rfl, ?_⟩
    rw [found', Option.some.injEq]
    obtain ⟨_, _, _, _, _⟩ := slot
    obtain ⟨_, _, _, _, _⟩ := slot'
    simp_all
  · intro label r last taken c i
    rcases cache_step taken c i with same | ⟨w, op, ran, after⟩
    · exact .inl same
    · refine .inr ⟨w, op, ran, after, fun old hold same => ?_⟩
      have ordered := ((once.step last taken).ascending c w i).2
      rw [ran, List.pairwise_append] at ordered
      have := ordered.2.2 old hold op (List.mem_singleton_self op) same.1
      omega

/-- Two L1 rows, two L2 rows and one L3 instance, with one worker each. -/
def smallHosts : HostInfo :=
  [⟨"l1_0", .l1, "h", 9090, 0, 0, 1⟩, ⟨"l1_1", .l1, "h", 9190, 1, 0, 1⟩,
    ⟨"l2_0", .l2, "h", 9290, 0, 0, 1⟩, ⟨"l2_1", .l2, "h", 9390, 1, 0, 1⟩,
    ⟨"l3_0", .l3, "h", 9490, 0, 0, 1⟩]

lemma smallDeployment_counts :
    IntCounts ([("a", (1 : ℤ)), ("dummy", 1)].foldl (fun m e => m.insert e.1 e.2) ∅) := by decide

def smallDeployment : GridDeployment where
  hosts := smallHosts
  dummyKey := "dummy"
  keyToNumberOfReplicas := [("a", (1 : ℤ)), ("dummy", 1)].foldl (fun m e => m.insert e.1 e.2) ∅
  counts := smallDeployment_counts
  replicaToLabel := [("a0", 0), ("dummy0", 1)].foldl (fun m e => m.insert e.1 e.2) ∅
  securityBatchSize := 1
  disableAllFalse := false
  updateCacheEnabled := true
  l1AckBatchSize := 1
  l2AckBatchSize := 1
  l3AckBatchSize := 1
  l1Rows := 2
  l2Rows := 2
  l3Rows := 1
  l1Workers := [1]
  l2Workers := [1]
  l3Workers := [1]
  l1Grid := .of_counts (by decide) (by decide) (by decide) (by decide)
  l2Grid := .of_counts (by decide) (by decide) (by decide) (by decide)
  l3Grid := .of_counts (by decide) (by decide) (by decide) (by decide)

/-- A put reaches both L2 rows, the L2 head crashes, and the L1 tail sends its pending batch
again to the promoted row. -/
def resentPut : List IngestLabel :=
  let oracle : L1Oracle := ⟨fun _ => 0, none⟩
  let ext : Outside L2Effect := ⟨fun _ => true, none⟩
  [.client oracle 0 0 ⟨{ clientId := 7 }, "a", "v"⟩ fun _ => ⟨true, "a", "dummy", 0⟩,
    .l1 oracle 0 (.deliver 0 1), .deliver ext 0 1 ⟨0, 0, 0⟩, .l2 ext 0 (.chain 0 (.deliver 0 1)),
    .l2 ext 0 (.crash 0), .l2 ext 0 (.chain 0 (.setup 1)), .reconnect 0 1 0 1,
    .l1 oracle 0 (.fetch 1), .l1 oracle 0 (.resend 1), .deliver ext 0 1 ⟨0, 0, 1⟩]

theorem real_operation_runs_once_of_resentPut :
    ∃ s, Reaches (ingestSystem smallDeployment.ingest) (headLast smallDeployment.ingest) s ∧
      s.link 0 1 ⟨0, 0, 1⟩ = [] ∧ (((s.l2 0).net 0).node 1).ran.length = 1 ∧
      (((s.l2 0).net 0).node 1).ran.countP
        (fun op => op.seq.l1Idx = 0 ∧ op.seq.l1SeqNo = 1) ≤ 1 := by
  have start : (ingestSystem smallDeployment.ingest).init (start smallDeployment.ingest) := rfl
  have reached := Reaches.of_replay (headLast smallDeployment.ingest) resentPut start
    (by decide +kernel)
  refine ⟨_, reached, by decide +kernel, by decide +kernel,
    (real_operation_runs_once reached).1 0 0 1 0 1⟩

end Ingest
end Shortstack
