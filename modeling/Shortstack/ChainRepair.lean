import Shortstack.L1ProxySpec
import Shortstack.ManagerRelink

/-! Chains under the manager's repairs. One failed replica of an L2 column is repaired
correctly wherever it stands, further ones only if the replicas next to them are still
alive; in an L1 column the loss of the head is not repaired at all. -/
namespace Shortstack
open HostInfo ProxyManager

/-- Calls that repair the chain an instance belongs to. -/
def ManagerCall.repairs : ManagerCall → Bool
  | .setupChain .. | .resendPending .. => true
  | _ => false

namespace Cluster
variable {d : Deployment} {s : Cluster} {c rows : ℕ}

/-- Which rows of a column are alive. -/
def rowAlive (d : Deployment) (s : Cluster) (t : HostType) (c i : ℕ) : Bool :=
  s.alive (replicaAt d.hosts t c i)

def roleL1 (d : Deployment) (s : Cluster) (c w i : ℕ) : ChainRole :=
  (s.l1 (replicaAt d.hosts .l1 c i) w).role

def nextL1 (d : Deployment) (s : Cluster) (c w i : ℕ) : Option ℕ :=
  (s.l1 (replicaAt d.hosts .l1 c i) w).next

def roleL2 (d : Deployment) (s : Cluster) (c w i : ℕ) : ChainRole :=
  (s.l2 (replicaAt d.hosts .l2 c i) w).role

def nextL2 (d : Deployment) (s : Cluster) (c w i : ℕ) : Option ℕ :=
  (s.l2 (replicaAt d.hosts .l2 c i) w).next

lemma replicaAt_row {t : HostType} (col : ChainColumn d.hosts t c rows) (i : ℕ) :
    (replicaAt d.hosts t c i).row = i := by
  rcases lt_or_ge i rows with inside | outside
  · exact col.row inside
  · unfold replicaAt
    rw [List.getD_eq_getElem?_getD, col.getElem?_none outside]
    rfl

lemma replicaAt_ne {t : HostType} (col : ChainColumn d.hosts t c rows) {i j : ℕ} (h : i ≠ j) :
    replicaAt d.hosts t c i ≠ replicaAt d.hosts t c j := by
  intro same
  have rows' := congrArg Host.row same
  rw [replicaAt_row col, replicaAt_row col] at rows'
  exact h rows'

lemma rowAlive_crash {t : HostType} (col : ChainColumn d.hosts t c rows) (g : ℕ) :
    rowAlive d { s with alive := Function.update s.alive (replicaAt d.hosts t c g) false } t c =
      Function.update (rowAlive d s t c) g false := by
  funext i
  rcases eq_or_ne i g with rfl | other
  · simp [rowAlive]
  · simp [rowAlive, other, replicaAt_ne col other]

/-- An L2 column of four replicas between an L1 column of two and one L3 instance. -/
def longHosts : HostInfo :=
  [⟨"l1_0", .l1, "h", 9090, 0, 0, 1⟩, ⟨"l1_1", .l1, "h", 9190, 1, 0, 1⟩,
    ⟨"l2_0", .l2, "h", 9290, 0, 0, 1⟩, ⟨"l2_1", .l2, "h", 9390, 1, 0, 1⟩,
    ⟨"l2_2", .l2, "h", 9490, 2, 0, 1⟩, ⟨"l2_3", .l2, "h", 9590, 3, 0, 1⟩,
    ⟨"l3_0", .l3, "h", 9690, 0, 0, 1⟩]

lemma longDeployment_counts :
    IntCounts ([("a", (1 : ℤ)), ("dummy", 1)].foldl (fun m e => m.insert e.1 e.2) ∅) := by decide

def longDeployment : Deployment where
  hosts := longHosts
  dummyKey := "dummy"
  keyToNumberOfReplicas := [("a", (1 : ℤ)), ("dummy", 1)].foldl (fun m e => m.insert e.1 e.2) ∅
  counts := longDeployment_counts
  replicaToLabel := [("a0", 0), ("dummy0", 1)].foldl (fun m e => m.insert e.1 e.2) ∅
  securityBatchSize := 1
  disableAllFalse := false
  updateCacheEnabled := true
  l1AckBatchSize := 1
  l2AckBatchSize := 1
  l3AckBatchSize := 1

section Start

lemma initRole_isHead {t : HostType} (col : ChainColumn d.hosts t c rows) {i : ℕ} (hi : i < rows) :
    (initRole d (replicaAt d.hosts t c i)).isHead = true ↔ i = 0 := by
  obtain ⟨_, type, column⟩ := col.mem_hosts hi
  have first : (getReplicas d.hosts t c).head? = some (replicaAt d.hosts t c 0) := by
    rw [List.head?_eq_getElem?, col.getElem? (by omega)]
  unfold initRole
  simp only [type, column, col.length, first, Option.map_some, Option.some.injEq]
  split_ifs with one head
  · exact iff_of_true rfl (by omega)
  · exact iff_of_true rfl (col.name_inj (by omega) hi head).symm
  · refine iff_of_false (by simp [ChainRole.isHead]) ?_
    rintro rfl
    exact head rfl
  · refine iff_of_false (by simp [ChainRole.isHead]) ?_
    rintro rfl
    exact head rfl

lemma initRole_isTail {t : HostType} (col : ChainColumn d.hosts t c rows) {i : ℕ} (hi : i < rows) :
    (initRole d (replicaAt d.hosts t c i)).isTail = true ↔ i + 1 = rows := by
  obtain ⟨_, type, column⟩ := col.mem_hosts hi
  have first : (getReplicas d.hosts t c).head? = some (replicaAt d.hosts t c 0) := by
    rw [List.head?_eq_getElem?, col.getElem? (by omega)]
  have last : (getReplicas d.hosts t c).getLast? = some (replicaAt d.hosts t c (rows - 1)) := by
    rw [List.getLast?_eq_getElem?, col.length, col.getElem? (by omega)]
  unfold initRole
  simp only [type, column, col.length, first, last, Option.map_some, Option.some.injEq]
  split_ifs with one head tail
  · exact iff_of_true rfl (by omega)
  · have := col.name_inj (by omega) hi head
    exact iff_of_false (by simp [ChainRole.isTail]) (by omega)
  · have := col.name_inj (by omega) hi tail
    exact iff_of_true rfl (by omega)
  · refine iff_of_false (by simp [ChainRole.isTail]) fun eq => tail ?_
    rw [show rows - 1 = i by omega]

lemma initNext_eq {t : HostType} (col : ChainColumn d.hosts t c rows) {i : ℕ} (hi : i < rows) :
    initNext d (replicaAt d.hosts t c i) = if i + 1 < rows then some (i + 1) else none := by
  obtain ⟨_, type, column⟩ := col.mem_hosts hi
  have onRow : ∀ x ∈ getReplicas d.hosts t c, x.row < rows := by
    intro x hx
    have : x.row ∈ (getReplicas d.hosts t c).map Host.row := List.mem_map_of_mem hx
    rw [col.order] at this
    exact List.mem_range.mp this
  unfold initNext
  rw [type, column, col.row hi]
  split
  · next inside =>
    obtain ⟨x, found⟩ : ∃ x, (getReplicas d.hosts t c).reverse.find?
        (fun e => decide (e.row = i + 1)) = some x := by
      refine Option.isSome_iff_exists.mp (List.find?_isSome.mpr
        ⟨_, List.mem_reverse.mpr (col.mem inside), ?_⟩)
      simp [col.row inside]
    have row := List.find?_some found
    rw [found, Option.map_some]
    simpa using row
  · next outside =>
    rw [Option.map_eq_none_iff, List.find?_eq_none]
    intro x hx
    have := onRow x (List.mem_reverse.mp hx)
    simp only [decide_eq_true_eq]
    omega

lemma formed_of_init {t : HostType} (col : ChainColumn d.hosts t c rows) {alive : ℕ → Bool}
    {role : ℕ → ChainRole} {next : ℕ → Option ℕ} (all : ∀ i, alive i = true)
    (roles : ∀ i, role i = initRole d (replicaAt d.hosts t c i))
    (nexts : ∀ i, next i = initNext d (replicaAt d.hosts t c i)) :
    Formed rows alive role next where
  head i hi _ := by
    rw [roles, initRole_isHead col hi]
    constructor
    · omega
    · intro none
      by_contra pos
      have := none 0 (by omega)
      rw [all] at this
      simp at this
  tail i hi _ := by
    rw [roles, initRole_isTail col hi]
    constructor
    · omega
    · intro none
      by_contra inside
      have := none (i + 1) (by omega) (by omega)
      rw [all] at this
      simp at this
  next i hi _ := by
    rw [nexts, initNext_eq col hi]
    split
    · next inside => exact ⟨by omega, inside, all _, by omega⟩
    · next outside => exact fun j hj hj' => absurd hj' (by omega)

end Start

section Execute

lemma sent_subset (calls : List ManagerCall) : ∀ x ∈ (s.execute d calls).sent, x ∈ calls := by
  have one : ∀ (s : Cluster) (x : ManagerCall), (call d s x).sent = [x] := by
    intro s x
    unfold call
    split
    · rfl
    · cases x <;> rfl
  have loop := Outcome.forEach_induction (f := call d) calls s []
    (P := fun _ sent => ∀ x ∈ sent, x ∈ calls) ?_ (by simp)
  · rw [List.nil_append] at loop
    exact loop
  · intro s sent x hx before y hy
    rw [one, List.mem_append, List.mem_singleton] at hy
    rcases hy with old | rfl
    · exact before y old
    · exact hx

lemma tails_type {hosts : HostInfo} {t : HostType} {x : Host} (hx : x ∈ tails hosts t) :
    x.type = t := by
  simp only [tails, List.mem_filterMap] at hx
  obtain ⟨c, _, last⟩ := hx
  have mem := List.mem_of_getLast? last
  simp only [getReplicas, List.mem_insertionSort, List.mem_filter, decide_eq_true_eq] at mem
  exact mem.2.1

lemma execute_redirect (newHead : Host) :
    (s.execute d (ChainColumn.redirectCalls d.hosts newHead)).state.l2 = s.l2 ∧
      (s.execute d (ChainColumn.redirectCalls d.hosts newHead)).state.alive = s.alive := by
  have loop := Outcome.forEach_induction (f := call d) (ChainColumn.redirectCalls d.hosts newHead) s
    [] (P := fun t _ => t.l2 = s.l2 ∧ t.alive = s.alive) ?_ ⟨rfl, rfl⟩
  · exact loop
  · intro t _ x hx before
    simp only [ChainColumn.redirectCalls, List.mem_append, List.mem_map] at hx
    unfold call
    split
    · exact before
    · rcases hx with ⟨h, hh, rfl⟩ | ⟨h, hh, rfl⟩
      · simp only [updateConnections, tails_type hh]
        exact before
      · exact before

lemma setupWorker_role {σ μ : Type} (cb : Callbacks σ μ) (role : ChainRole) (next : Option Host)
    (m : ChainModule σ) : (s.setupWorker cb role next m).role = role := by
  unfold setupWorker
  split <;> rfl

lemma setupWorker_next {σ μ : Type} (cb : Callbacks σ μ) (role : ChainRole) (next : Option Host)
    (m : ChainModule σ) :
    (s.setupWorker cb role next m).next = if s.up next then next.map Host.row else none := by
  unfold setupWorker
  split <;> rfl

lemma next_of_replicas {t : HostType} (col : ChainColumn d.hosts t c rows) (j : ℕ) :
    (if s.up (getReplicas d.hosts t c)[j]? then (getReplicas d.hosts t c)[j]?.map Host.row
      else none) = if j < rows ∧ rowAlive d s t c j = true then some j else none := by
  rcases lt_or_ge j rows with inside | outside
  · rw [col.getElem? inside, Option.map_some, col.row inside]
    simp only [up, rowAlive, inside, true_and]
    congr
  · rw [col.getElem?_none outside]
    simp [up, show ¬ j < rows by omega]

lemma execute_relink (d : Deployment) (s : Cluster) (failed h : Host) (role : ChainRole)
    (next : Option Host) (rest : List ManagerCall) (up : s.alive failed = true) :
    let crashed := { s with alive := Function.update s.alive failed false }
    let linked := crashed.setupChain d h role next
    let o := s.execute d (.crash failed :: .setupChain h role next :: rest)
    .setupChain h role next ∈ o.sent ∧ (crashed.alive h = false → o.state = crashed) ∧
    (crashed.alive h = true → o.state = linked ∨ o.state = (linked.execute d rest).state) := by
  intro crashed linked o
  have first : call d s (.crash failed) = ⟨crashed, [.crash failed], .returned⟩ := by
    simp [call, ManagerCall.host, up, crashed]
  have whole : o = ⟨((call d crashed (.setupChain h role next)).andThen fun t => t.execute d rest).state,
      [.crash failed] ++
        ((call d crashed (.setupChain h role next)).andThen fun t => t.execute d rest).sent,
      ((call d crashed (.setupChain h role next)).andThen fun t => t.execute d rest).status⟩ := by
    simp only [o, execute, Outcome.forEach, first, Outcome.andThen]
  rw [whole]
  cases live : crashed.alive h with
  | false => simp [call, ManagerCall.host, live, Outcome.andThen]
  | true =>
    cases link : crashed.up next with
    | false => simp [call, ManagerCall.host, live, link, Outcome.andThen, linked]
    | true => simp [call, ManagerCall.host, live, link, Outcome.andThen, linked]

lemma execute_resend (h : Host) (next : Option Host) :
    (s.execute d [.resendPending h next]).state = s := by
  simp only [execute, Outcome.forEach, call]
  refine Outcome.andThen_rule (Q := fun o : Outcome Cluster ManagerCall => o.state = s) ?_ ?_
  · intro _
    split <;> rfl
  · intro _
    split <;> rfl

lemma failNode_eq {name : String} {calls : List ManagerCall}
    (plan : ProxyManager.failNode d.hosts name = ⟨calls, none⟩) :
    (s.failNode d name).state = (s.execute d calls).state ∧
      (s.failNode d name).sent = (s.execute d calls).sent := by
  unfold failNode
  rw [plan]
  refine Outcome.andThen_rule (Q := fun o => o.state = (s.execute d calls).state ∧
    o.sent = (s.execute d calls).sent) (fun _ => ⟨rfl, rfl⟩) fun _ => ⟨rfl, ?_⟩
  simp

lemma onWorkers_setup {t : HostType} {σ μ : Type} (s : Cluster) (f : Host → ℕ → ChainModule σ)
    (cb : ℕ → Callbacks σ μ) {p w : ℕ} (col : ChainColumn d.hosts t c rows)
    (worker : w < (replicaAt d.hosts t c p).numWorkers) (role : ChainRole) (j : ℕ) :
    let f' := onWorkers f (replicaAt d.hosts t c p) (replicaAt d.hosts t c p).numWorkers
      fun w => s.setupWorker (cb w) role (getReplicas d.hosts t c)[j]?
    (f' (replicaAt d.hosts t c p) w).role = role ∧
    (f' (replicaAt d.hosts t c p) w).next =
      (if j < rows ∧ rowAlive d s t c j = true then some j else none) ∧
    ∀ i, i ≠ p → f' (replicaAt d.hosts t c i) w = f (replicaAt d.hosts t c i) w := by
  simp only [onWorkers, Function.update_self, worker, if_true]
  refine ⟨setupWorker_role .., ?_, fun i other => ?_⟩
  · rw [setupWorker_next]
    exact next_of_replicas col j
  · rw [Function.update_of_ne (replicaAt_ne col other)]

lemma setupChain_l1 (d : Deployment) (s : Cluster) {p w : ℕ} (col : ChainColumn d.hosts .l1 c rows)
    (hp : p < rows) (worker : w < (replicaAt d.hosts .l1 c p).numWorkers) (role : ChainRole) (j : ℕ) :
    let t := s.setupChain d (replicaAt d.hosts .l1 c p) role (getReplicas d.hosts .l1 c)[j]?
    t.alive = s.alive ∧ roleL1 d t c w p = role ∧
    nextL1 d t c w p = (if j < rows ∧ rowAlive d s .l1 c j = true then some j else none) ∧
    ∀ i, i ≠ p → roleL1 d t c w i = roleL1 d s c w i ∧ nextL1 d t c w i = nextL1 d s c w i := by
  obtain ⟨atRole, atNext, others⟩ := onWorkers_setup s s.l1
    (fun _ => L1Proxy.callbacks d.l1Config (fun _ => 0) (s.reach d)) col worker role j
  simp only [setupChain, (col.mem_hosts hp).2.1, roleL1, nextL1]
  exact ⟨trivial, atRole, atNext, fun i other => by rw [others i other]; exact ⟨rfl, rfl⟩⟩

lemma setupChain_l2 (d : Deployment) (s : Cluster) {p w : ℕ} (col : ChainColumn d.hosts .l2 c rows)
    (hp : p < rows) (worker : w < (replicaAt d.hosts .l2 c p).numWorkers) (role : ChainRole) (j : ℕ) :
    let t := s.setupChain d (replicaAt d.hosts .l2 c p) role (getReplicas d.hosts .l2 c)[j]?
    t.alive = s.alive ∧ roleL2 d t c w p = role ∧
    nextL2 d t c w p = (if j < rows ∧ rowAlive d s .l2 c j = true then some j else none) ∧
    ∀ i, i ≠ p → roleL2 d t c w i = roleL2 d s c w i ∧ nextL2 d t c w i = nextL2 d s c w i := by
  obtain ⟨atRole, atNext, others⟩ := onWorkers_setup s s.l2
    (fun w => L2Proxy.callbacks (d.l2Config (replicaAt d.hosts .l2 c p).column w)) col worker role j
  simp only [setupChain, (col.mem_hosts hp).2.1, roleL2, nextL2]
  exact ⟨trivial, atRole, atNext, fun i other => by rw [others i other]; exact ⟨rfl, rfl⟩⟩

end Execute

section L2
variable {w g : ℕ}

/-- The repair of one failure leaves a chain, and repairs only live replicas. -/
def Stands (d : Deployment) (c rows w : ℕ) (o : Outcome Cluster ManagerCall) : Prop :=
  Formed rows (rowAlive d o.state .l2 c) (roleL2 d o.state c w) (nextL2 d o.state c w) ∧
    ∀ x ∈ o.sent, x.repairs = true → o.state.alive x.host = true

lemma stands_relink (col : ChainColumn d.hosts .l2 c rows)
    (workers : ∀ i < rows, w < (replicaAt d.hosts .l2 c i).numWorkers)
    (formed : Formed rows (rowAlive d s .l2 c) (roleL2 d s c w) (nextL2 d s c w))
    (hg : g < rows) (pos : 0 < g) (live : rowAlive d s .l2 c g = true) :
    (s.failNode d (replicaAt d.hosts .l2 c g).instanceName).state.alive =
      Function.update s.alive (replicaAt d.hosts .l2 c g) false ∧
    (Stands d c rows w (s.failNode d (replicaAt d.hosts .l2 c g).instanceName) ↔
      NeighboursUp rows (rowAlive d s .l2 c) g) := by
  obtain ⟨state, sent⟩ := failNode_eq (s := s) (col.failNode_l2 hg pos)
  have hp : g - 1 < rows := by omega
  have apart : replicaAt d.hosts .l2 c (g - 1) ≠ replicaAt d.hosts .l2 c g :=
    replicaAt_ne col (by omega)
  have same : Function.update s.alive (replicaAt d.hosts .l2 c g) false
      (replicaAt d.hosts .l2 c (g - 1)) = rowAlive d s .l2 c (g - 1) :=
    Function.update_of_ne apart ..
  obtain ⟨made, dead, linked⟩ := execute_relink d s (replicaAt d.hosts .l2 c g)
    (replicaAt d.hosts .l2 c (g - 1)) (relinkRole rows g) (getReplicas d.hosts .l2 c)[g + 1]?
    [.resendPending (replicaAt d.hosts .l2 c (g - 1)) (getReplicas d.hosts .l2 c)[g + 1]?] live
  rw [execute_resend, or_self] at linked
  dsimp only at dead linked
  rw [← state, same] at dead linked
  rw [← sent] at made
  cases up : rowAlive d s .l2 c (g - 1) with
  | false =>
    have result := dead up
    refine ⟨by rw [result], iff_of_false ?_ ?_⟩
    · rintro ⟨_, addressed⟩
      have := addressed _ made rfl
      rw [result] at this
      exact absurd (same.symm.trans this) (by rw [up]; simp)
    · rw [NeighboursUp, if_neg (by omega)]
      simp [up]
  | true =>
    have result := linked up
    obtain ⟨alive, role, next, others⟩ := setupChain_l2 d
      { s with alive := Function.update s.alive (replicaAt d.hosts .l2 c g) false } col hp
      (workers _ hp) (relinkRole rows g) (g + 1)
    rw [← result] at alive role next others
    rw [rowAlive_crash col, Function.update_of_ne (by omega)] at next
    have rowsAlive : rowAlive d (s.failNode d (replicaAt d.hosts .l2 c g).instanceName).state .l2 c =
        Function.update (rowAlive d s .l2 c) g false := by
      rw [← rowAlive_crash col]
      funext i
      rw [rowAlive, alive]
      rfl
    have addressed : ∀ x ∈ (s.failNode d (replicaAt d.hosts .l2 c g).instanceName).sent,
        x.repairs = true →
        (s.failNode d (replicaAt d.hosts .l2 c g).instanceName).state.alive x.host = true := by
      intro x hx isRepair
      rw [sent] at hx
      rw [alive]
      have listed := sent_subset _ x hx
      simp only [List.mem_cons, List.not_mem_nil, or_false] at listed
      rcases listed with rfl | rfl | rfl
      · simp [ManagerCall.repairs] at isRepair
      · exact same.trans up
      · exact same.trans up
    refine ⟨alive, ?_⟩
    rw [Stands, and_iff_left addressed, rowsAlive, formed.relink_iff hg pos up role next others,
      NeighboursUp, if_neg (by omega), and_iff_right up]

lemma stands_promote (col : ChainColumn d.hosts .l2 c rows)
    (workers : ∀ i < rows, w < (replicaAt d.hosts .l2 c i).numWorkers)
    (formed : Formed rows (rowAlive d s .l2 c) (roleL2 d s c w) (nextL2 d s c w))
    (two : 1 < rows) (live : rowAlive d s .l2 c 0 = true)
    (l1Up : ∀ h : Host, h.type = .l1 → s.alive h = true) :
    (s.failNode d (replicaAt d.hosts .l2 c 0).instanceName).state.alive =
      Function.update s.alive (replicaAt d.hosts .l2 c 0) false ∧
    (Stands d c rows w (s.failNode d (replicaAt d.hosts .l2 c 0).instanceName) ↔
      NeighboursUp rows (rowAlive d s .l2 c) 0) := by
  obtain ⟨state, sent⟩ := failNode_eq (s := s) (col.failNode_l2_head two)
  have same : Function.update s.alive (replicaAt d.hosts .l2 c 0) false
      (replicaAt d.hosts .l2 c 1) = rowAlive d s .l2 c 1 :=
    Function.update_of_ne (replicaAt_ne col one_ne_zero) ..
  obtain ⟨made, dead, linked⟩ := execute_relink d s (replicaAt d.hosts .l2 c 0)
    (replicaAt d.hosts .l2 c 1) (if rows = 2 then .singleton else .head)
    (getReplicas d.hosts .l2 c)[2]? (ChainColumn.redirectCalls d.hosts (replicaAt d.hosts .l2 c 1))
    live
  dsimp only at dead linked
  rw [← state, same] at dead linked
  rw [← sent] at made
  cases up : rowAlive d s .l2 c 1 with
  | false =>
    have result := dead up
    refine ⟨by rw [result], iff_of_false ?_ ?_⟩
    · rintro ⟨_, addressed⟩
      have := addressed _ made rfl
      rw [result] at this
      exact absurd (same.symm.trans this) (by rw [up]; simp)
    · rw [NeighboursUp, if_pos rfl]
      simp [up]
  | true =>
    obtain ⟨alive, role, next, others⟩ := setupChain_l2 d
      { s with alive := Function.update s.alive (replicaAt d.hosts .l2 c 0) false } col two
      (workers _ two) (if rows = 2 then .singleton else .head) 2
    have frame : (s.failNode d (replicaAt d.hosts .l2 c 0).instanceName).state.l2 =
        (setupChain d { s with alive := Function.update s.alive (replicaAt d.hosts .l2 c 0) false }
          (replicaAt d.hosts .l2 c 1) (if rows = 2 then .singleton else .head)
          (getReplicas d.hosts .l2 c)[2]?).l2 ∧
        (s.failNode d (replicaAt d.hosts .l2 c 0).instanceName).state.alive =
          Function.update s.alive (replicaAt d.hosts .l2 c 0) false := by
      rcases linked up with result | result
      · rw [result]
        exact ⟨rfl, alive⟩
      · rw [result]
        obtain ⟨l2, alive'⟩ := execute_redirect (d := d) (s := setupChain d
          { s with alive := Function.update s.alive (replicaAt d.hosts .l2 c 0) false }
          (replicaAt d.hosts .l2 c 1) (if rows = 2 then .singleton else .head)
          (getReplicas d.hosts .l2 c)[2]?) (replicaAt d.hosts .l2 c 1)
        exact ⟨l2, alive'.trans alive⟩
    rw [rowAlive_crash col, Function.update_of_ne two_ne_zero] at next
    simp only [roleL2, nextL2, ← frame.1] at role next others
    have rowsAlive : rowAlive d (s.failNode d (replicaAt d.hosts .l2 c 0).instanceName).state .l2 c =
        Function.update (rowAlive d s .l2 c) 0 false := by
      rw [← rowAlive_crash col]
      funext i
      rw [rowAlive, frame.2]
      rfl
    have addressed : ∀ x ∈ (s.failNode d (replicaAt d.hosts .l2 c 0).instanceName).sent,
        x.repairs = true →
        (s.failNode d (replicaAt d.hosts .l2 c 0).instanceName).state.alive x.host = true := by
      intro x hx isRepair
      rw [sent] at hx
      rw [frame.2]
      have listed := sent_subset _ x hx
      simp only [List.mem_cons, ChainColumn.redirectCalls, List.mem_append, List.mem_map] at listed
      rcases listed with rfl | rfl | ⟨h, hh, rfl⟩ | ⟨h, hh, rfl⟩
      · simp [ManagerCall.repairs] at isRepair
      · exact same.trans up
      · simp [ManagerCall.repairs] at isRepair
      · have type := tails_type hh
        have other : h ≠ replicaAt d.hosts .l2 c 0 := by
          rintro rfl
          rw [(col.mem_hosts (show 0 < rows by omega)).2.1] at type
          simp at type
        rw [ManagerCall.host, Function.update_of_ne other]
        exact l1Up h type
    have chain : Formed rows (Function.update (rowAlive d s .l2 c) 0 false)
        (roleL2 d (s.failNode d (replicaAt d.hosts .l2 c 0).instanceName).state c w)
        (nextL2 d (s.failNode d (replicaAt d.hosts .l2 c 0).instanceName).state c w) ↔
        (2 < rows → rowAlive d s .l2 c 2 = true) := formed.promote_iff two up role next others
    refine ⟨frame.2, ?_⟩
    rw [Stands, and_iff_left addressed, rowsAlive, chain, NeighboursUp, if_pos rfl,
      and_iff_right up]

/-- `fail_node` for the replicas on the given rows of an L2 column, one after the other. -/
def failRows (d : Deployment) (c : ℕ) (s : Cluster) (fails : List ℕ) : Cluster :=
  fails.foldl (fun s g => (s.failNode d (replicaAt d.hosts .l2 c g).instanceName).state) s

lemma failRows_append (fails : List ℕ) (g : ℕ) : failRows d c s (fails ++ [g]) =
    ((failRows d c s fails).failNode d (replicaAt d.hosts .l2 c g).instanceName).state := by
  simp [failRows]

/-- The instances that are down are the ones that were failed. -/
def OnlyDown (d : Deployment) (c : ℕ) (s : Cluster) (fails : List ℕ) : Prop :=
  ∀ h, s.alive h = decide (h ∉ fails.map (replicaAt d.hosts .l2 c))

lemma OnlyDown.rowAlive_eq {fails : List ℕ} (down : OnlyDown d c s fails)
    (col : ChainColumn d.hosts .l2 c rows) :
    rowAlive d s .l2 c = fun i => decide (i ∉ fails) := by
  funext i
  rw [rowAlive, down]
  congr 1
  simp only [List.mem_map, not_exists, not_and, eq_iff_iff]
  constructor
  · exact fun none mem => none i mem rfl
  · exact fun out j mem same => out ((by_contra fun ne => replicaAt_ne col ne same) ▸ mem)

lemma OnlyDown.l1Up {fails : List ℕ} (down : OnlyDown d c s fails)
    (col : ChainColumn d.hosts .l2 c rows) (inside : ∀ g ∈ fails, g < rows) (h : Host)
    (type : h.type = .l1) : s.alive h = true := by
  rw [down, decide_eq_true_eq, List.mem_map]
  rintro ⟨g, mem, rfl⟩
  rw [(col.mem_hosts (inside g mem)).2.1] at type
  simp at type

lemma stands_step {fails : List ℕ} (col : ChainColumn d.hosts .l2 c rows)
    (workers : ∀ i < rows, w < (replicaAt d.hosts .l2 c i).numWorkers)
    (formed : Formed rows (rowAlive d s .l2 c) (roleL2 d s c w) (nextL2 d s c w))
    (down : OnlyDown d c s fails) (inside : ∀ g ∈ fails, g < rows) (hg : g < rows)
    (two : 1 < rows) (fresh : g ∉ fails) :
    OnlyDown d c (s.failNode d (replicaAt d.hosts .l2 c g).instanceName).state (fails ++ [g]) ∧
    (Stands d c rows w (s.failNode d (replicaAt d.hosts .l2 c g).instanceName) ↔
      NeighboursUp rows (fun i => decide (i ∉ fails)) g) := by
  have live : rowAlive d s .l2 c g = true := by
    rw [down.rowAlive_eq col]
    simpa using fresh
  have step : (s.failNode d (replicaAt d.hosts .l2 c g).instanceName).state.alive =
      Function.update s.alive (replicaAt d.hosts .l2 c g) false ∧
    (Stands d c rows w (s.failNode d (replicaAt d.hosts .l2 c g).instanceName) ↔
      NeighboursUp rows (rowAlive d s .l2 c) g) := by
    rcases Nat.eq_zero_or_pos g with rfl | pos
    · exact stands_promote col workers formed two live (down.l1Up col inside)
    · exact stands_relink col workers formed hg pos live
  rw [← down.rowAlive_eq col]
  refine ⟨fun h => ?_, step.2⟩
  rw [step.1]
  rcases eq_or_ne h (replicaAt d.hosts .l2 c g) with rfl | other
  · simp
  · rw [Function.update_of_ne other, down h]
    simp [other]

/-- An L2 chain stays well formed under a sequence of failures exactly if every repair finds
the replicas it relies on alive: the one it relinks, the one it links it to, and, if the
failed replica is not one of the first two, another one before these. -/
theorem l2_chain_stands_iff (fails : List ℕ) (col : ChainColumn d.hosts .l2 c rows)
    (workers : ∀ i < rows, w < (replicaAt d.hosts .l2 c i).numWorkers)
    (distinct : fails.Nodup) (inside : ∀ g ∈ fails, g < rows) (left : fails.length < rows) :
    (∀ before g after, fails = before ++ g :: after → Stands d c rows w
      ((failRows d c (start d) before).failNode d (replicaAt d.hosts .l2 c g).instanceName)) ↔
    ∀ before g after, fails = before ++ g :: after →
      NeighboursUp rows (fun i => decide (i ∉ before)) g := by
  have two : ∀ before g after, fails = before ++ g :: after → 1 < rows := by
    rintro before g after rfl
    rw [List.length_append, List.length_cons] at left
    omega
  have initial : Formed rows (rowAlive d (start d) .l2 c) (roleL2 d (start d) c w)
      (nextL2 d (start d) c w) :=
    formed_of_init col (fun _ => rfl) (fun _ => rfl) fun _ => rfl
  have reached : ∀ before rest : List ℕ, fails = before ++ rest →
      (∀ pre g post, before = pre ++ g :: post → Stands d c rows w
        ((failRows d c (start d) pre).failNode d (replicaAt d.hosts .l2 c g).instanceName)) →
      OnlyDown d c (failRows d c (start d) before) before ∧
      Formed rows (rowAlive d (failRows d c (start d) before) .l2 c)
        (roleL2 d (failRows d c (start d) before) c w)
        (nextL2 d (failRows d c (start d) before) c w) := by
    intro before
    induction before using List.reverseRecOn with
    | nil => exact fun _ _ _ => ⟨fun _ => rfl, initial⟩
    | append_singleton before x ih =>
      intro rest eq stood
      rw [List.append_assoc, List.singleton_append] at eq
      obtain ⟨down, formed⟩ := ih (x :: rest) eq fun pre g post split =>
        stood pre g (post ++ [x]) (by rw [split]; simp)
      have now := stood before x [] rfl
      have fresh : x ∉ before := by
        rw [eq] at distinct
        intro mem
        exact (List.nodup_append.mp distinct).2.2 x mem x List.mem_cons_self rfl
      rw [failRows_append]
      exact ⟨(stands_step col workers formed down (fun g mem => inside g (by simp [eq, mem]))
        (inside x (by simp [eq])) (two _ _ _ eq) fresh).1, now.1⟩
  have step : ∀ before g after, fails = before ++ g :: after →
      (∀ pre g post, before = pre ++ g :: post → Stands d c rows w
        ((failRows d c (start d) pre).failNode d (replicaAt d.hosts .l2 c g).instanceName)) →
      (Stands d c rows w ((failRows d c (start d) before).failNode d
        (replicaAt d.hosts .l2 c g).instanceName) ↔
        NeighboursUp rows (fun i => decide (i ∉ before)) g) := by
    intro before g after eq stood
    obtain ⟨down, formed⟩ := reached before (g :: after) eq stood
    have fresh : g ∉ before := by
      rw [eq] at distinct
      intro mem
      exact (List.nodup_append.mp distinct).2.2 g mem g List.mem_cons_self rfl
    exact (stands_step col workers formed down (fun x mem => inside x (by simp [eq, mem]))
      (inside g (by simp [eq])) (two _ _ _ eq) fresh).2
  constructor
  · intro stands before g after eq
    refine (step before g after eq fun pre x post split => ?_).mp (stands before g after eq)
    exact stands pre x (post ++ g :: after) (by rw [eq, split]; simp)
  · intro up
    have all : ∀ before rest : List ℕ, fails = before ++ rest → ∀ pre g post,
        before = pre ++ g :: post → Stands d c rows w
          ((failRows d c (start d) pre).failNode d (replicaAt d.hosts .l2 c g).instanceName) := by
      intro before
      induction before using List.reverseRecOn with
      | nil => intro _ _ pre g post split; simp at split
      | append_singleton before x ih =>
        intro rest eq pre g post split
        rw [List.append_assoc, List.singleton_append] at eq
        rcases List.eq_nil_or_concat post with rfl | ⟨post', y, rfl⟩
        · obtain ⟨rfl, last⟩ := List.append_inj' split rfl
          obtain rfl := (List.cons.inj last).1
          exact (step before x rest eq (ih (x :: rest) eq)).mpr (up before x rest eq)
        · rw [List.concat_eq_append, ← List.cons_append, ← List.append_assoc] at split
          exact ih (x :: rest) eq pre g post' (List.append_inj' split rfl).1
    intro before g after eq
    exact all fails [] (List.append_nil fails).symm before g after eq

lemma longColumn_l2 : ChainColumn longDeployment.hosts .l2 0 4 :=
  ⟨by decide +kernel, by decide +kernel⟩

lemma longColumn_l1 : ChainColumn longDeployment.hosts .l1 0 2 :=
  ⟨by decide +kernel, by decide +kernel⟩

/-- After the loss of row 1 the repair of row 2 is addressed to the dead row 1. -/
theorem l2_chain_broken_by_neighbour :
    [1, 2].Nodup ∧ (∀ g ∈ [1, 2], g < 4) ∧
    ¬ ∀ before g after, [1, 2] = before ++ g :: after → Stands longDeployment 0 4 0
      ((failRows longDeployment 0 (start longDeployment) before).failNode longDeployment
        (replicaAt longDeployment.hosts .l2 0 g).instanceName) := by
  refine ⟨by decide, by decide, fun stands => ?_⟩
  have addressed := (stands [1] 2 [] rfl).2
    (.setupChain (replicaAt longDeployment.hosts .l2 0 1) .mid
      (some (replicaAt longDeployment.hosts .l2 0 3))) (by decide +kernel) rfl
  exact absurd addressed (by decide +kernel)

theorem l2_chain_stands_of_apart :
    Stands longDeployment 0 4 0 ((start longDeployment).failNode longDeployment
      (replicaAt longDeployment.hosts .l2 0 3).instanceName) ∧
    Stands longDeployment 0 4 0 ((failRows longDeployment 0 (start longDeployment) [3]).failNode
      longDeployment (replicaAt longDeployment.hosts .l2 0 1).instanceName) := by
  have stands := (l2_chain_stands_iff (w := 0) [3, 1] longColumn_l2 (by decide +kernel)
    (by decide) (by decide) (by decide)).mpr fun before g after eq => by
    match before, eq with
    | [], eq =>
      obtain ⟨rfl, -⟩ := List.cons.inj eq
      exact ⟨by decide, by decide, .inr ⟨0, by decide, by decide⟩⟩
    | [x], eq =>
      obtain ⟨rfl, rest⟩ := List.cons.inj eq
      obtain ⟨rfl, -⟩ := List.cons.inj rest
      exact ⟨by decide, by decide, .inl rfl⟩
    | x :: y :: before, eq => simp at eq
  exact ⟨stands [] 3 [1] rfl, stands [3] 1 [] rfl⟩

end L2

section L1
variable {w g : ℕ}

/-- The survivors form a chain: one of them is head, one is tail, and the successors link
them in order. -/
structure Chained (rows : ℕ) (alive : ℕ → Bool) (role : ℕ → ChainRole) (next : ℕ → Option ℕ) :
    Prop where
  oneHead : ∃! i, i < rows ∧ alive i = true ∧ (role i).isHead = true
  oneTail : ∃! i, i < rows ∧ alive i = true ∧ (role i).isTail = true
  linked : ∀ i < rows, alive i = true → NextLive rows alive i (next i)

lemma exists_first_live {alive : ℕ → Bool} (some' : ∃ i < rows, alive i = true) :
    ∃ i < rows, alive i = true ∧ ∀ p < i, alive p = false := by
  classical
  obtain ⟨i₀, hi₀, live₀⟩ := some'
  have live : ∃ i, alive i = true := ⟨i₀, live₀⟩
  exact ⟨Nat.find live, lt_of_le_of_lt (Nat.find_min' live live₀) hi₀, Nat.find_spec live,
    fun p hp => by simpa using Nat.find_min live hp⟩

lemma exists_last_live {alive : ℕ → Bool} (some' : ∃ i < rows, alive i = true) :
    ∃ i < rows, alive i = true ∧ ∀ j, i < j → j < rows → alive j = false := by
  obtain ⟨i₀, hi₀, live₀⟩ := some'
  have bound : i₀ ≤ rows - 1 := by omega
  have top := Nat.findGreatest_le (P := fun i => alive i = true) (rows - 1)
  refine ⟨Nat.findGreatest (fun i => alive i = true) (rows - 1), by omega,
    Nat.findGreatest_spec (P := fun i => alive i = true) bound live₀, fun j hj hj' => ?_⟩
  simpa using Nat.findGreatest_is_greatest hj (show j ≤ rows - 1 by omega)

lemma chained_of_formed {alive : ℕ → Bool} {role : ℕ → ChainRole} {next : ℕ → Option ℕ}
    (h : Formed rows alive role next) (some' : ∃ i < rows, alive i = true) :
    Chained rows alive role next := by
  obtain ⟨a, ha, liveA, first⟩ := exists_first_live some'
  obtain ⟨z, hz, liveZ, last⟩ := exists_last_live some'
  refine ⟨⟨a, ⟨ha, liveA, (h.head a ha liveA).mpr first⟩, ?_⟩,
    ⟨z, ⟨hz, liveZ, (h.tail z hz liveZ).mpr last⟩, ?_⟩, h.next⟩
  · rintro j ⟨hj, live, head⟩
    have none := (h.head j hj live).mp head
    rcases lt_trichotomy j a with below | same | above
    · simp [first j below] at live
    · exact same
    · simp [none a above] at liveA
  · rintro j ⟨hj, live, tail⟩
    have none := (h.tail j hj live).mp tail
    rcases lt_trichotomy j z with below | same | above
    · simp [none z below hz] at liveZ
    · exact same
    · simp [last j above hj] at live

lemma fail_l1 (col : ChainColumn d.hosts .l1 c rows)
    (workers : ∀ i < rows, w < (replicaAt d.hosts .l1 c i).numWorkers) (hg : g < rows) :
    let t := ((start d).failNode d (replicaAt d.hosts .l1 c g).instanceName).state
    rowAlive d t .l1 c = Function.update (fun _ => true) g false ∧
    (g = 0 → ∀ i, roleL1 d t c w i = roleL1 d (start d) c w i) ∧
    (0 < g → Formed rows (Function.update (fun _ => true) g false) (roleL1 d t c w)
      (nextL1 d t c w)) := by
  have plan := col.failNode_l1 hg
  have all : rowAlive d (start d) .l1 c = fun _ => true := rfl
  rcases Nat.eq_zero_or_pos g with rfl | pos
  · rw [if_neg (lt_irrefl 0)] at plan
    obtain ⟨state, _⟩ := failNode_eq (s := start d) plan
    have crash : (execute d (start d) [.crash (replicaAt d.hosts .l1 c 0)]).state =
        { start d with
          alive := Function.update (start d).alive (replicaAt d.hosts .l1 c 0) false } := by
      simp [execute, Outcome.forEach, call, ManagerCall.host, start, Outcome.andThen]
    intro t
    have result : t = { start d with
        alive := Function.update (start d).alive (replicaAt d.hosts .l1 c 0) false } :=
      state.trans crash
    refine ⟨?_, fun _ i => by rw [result]; rfl, by omega⟩
    rw [result, rowAlive_crash col, all]
  · rw [if_pos pos] at plan
    obtain ⟨state, _⟩ := failNode_eq (s := start d) plan
    have hp : g - 1 < rows := by omega
    obtain ⟨_, _, linked⟩ := execute_relink d (start d) (replicaAt d.hosts .l1 c g)
      (replicaAt d.hosts .l1 c (g - 1)) (relinkRole rows g) (getReplicas d.hosts .l1 c)[g + 1]?
      [.resendPending (replicaAt d.hosts .l1 c (g - 1)) (getReplicas d.hosts .l1 c)[g + 1]?] rfl
    rw [execute_resend, or_self] at linked
    have up : Function.update (start d).alive (replicaAt d.hosts .l1 c g) false
        (replicaAt d.hosts .l1 c (g - 1)) = true :=
      Function.update_of_ne (replicaAt_ne col (by omega)) ..
    have result := state.trans (linked up)
    obtain ⟨alive, role, next, others⟩ := setupChain_l1 d
      { start d with alive := Function.update (start d).alive (replicaAt d.hosts .l1 c g) false } col
      hp (workers _ hp) (relinkRole rows g) (g + 1)
    rw [← result] at alive role next others
    rw [rowAlive_crash col, Function.update_of_ne (by omega), all] at next
    intro t
    have rowsAlive : rowAlive d t .l1 c = Function.update (fun _ => true) g false := by
      rw [← all, ← rowAlive_crash col]
      funext i
      rw [rowAlive, alive]
      rfl
    refine ⟨rowsAlive, by omega, fun _ => ?_⟩
    have initial : Formed rows (fun _ => true) (roleL1 d (start d) c w) (nextL1 d (start d) c w) :=
      formed_of_init col (fun _ => rfl) (fun _ => rfl) fun _ => rfl
    refine (initial.relink_iff hg pos rfl role next others).mpr ⟨fun _ => rfl, ?_⟩
    rcases eq_or_ne g 1 with one | more
    · exact .inl one
    · exact .inr ⟨0, by omega, rfl⟩

/-- Client requests are accepted at a survivor. -/
def Accepts (d : Deployment) (s : Cluster) (c rows w : ℕ) : Prop :=
  ∃ i < rows, rowAlive d s .l1 c i = true ∧ ∀ pick reach env op draws,
    (L1Proxy.processOp d.l1Config pick reach env (s.l1 (replicaAt d.hosts .l1 c i) w) op
      draws).status ≠ .dropped

/-- An L1 column forms a chain at start-up, and its survivors form one that accepts requests
after the loss of any one replica but the head. -/
theorem l1_chain_survives_iff (col : ChainColumn d.hosts .l1 c rows)
    (workers : ∀ i < rows, w < (replicaAt d.hosts .l1 c i).numWorkers) (two : 2 ≤ rows)
    (hg : g < rows) :
    Chained rows (rowAlive d (start d) .l1 c) (roleL1 d (start d) c w) (nextL1 d (start d) c w) ∧
    (let t := ((start d).failNode d (replicaAt d.hosts .l1 c g).instanceName).state
     Chained rows (rowAlive d t .l1 c) (roleL1 d t c w) (nextL1 d t c w) ∧ Accepts d t c rows w ↔
      0 < g) := by
  have initial : Formed rows (fun _ => true) (roleL1 d (start d) c w) (nextL1 d (start d) c w) :=
    formed_of_init col (fun _ => rfl) (fun _ => rfl) fun _ => rfl
  obtain ⟨alive, untouched, formed⟩ := fail_l1 (w := w) col workers hg
  refine ⟨chained_of_formed initial ⟨0, by omega, rfl⟩, ?_⟩
  intro t
  constructor
  · rintro ⟨chained, -⟩
    by_contra first
    obtain rfl : g = 0 := by omega
    obtain ⟨i, ⟨hi, live, head⟩, _⟩ := chained.oneHead
    rw [untouched rfl] at head
    have zero : i = 0 := (initRole_isHead col hi).mp head
    rw [alive, zero] at live
    simp at live
  · intro pos
    have chained : Chained rows (rowAlive d t .l1 c) (roleL1 d t c w) (nextL1 d t c w) := by
      rw [alive]
      refine chained_of_formed (formed pos) ⟨0, by omega, ?_⟩
      rw [Function.update_of_ne (by omega)]
    obtain ⟨i, ⟨hi, live, head⟩, _⟩ := chained.oneHead
    refine ⟨chained, i, hi, live, fun pick reach env op draws dropped => ?_⟩
    rw [L1Proxy.processOp_dropped_iff] at dropped
    exact absurd (head.symm.trans dropped) (by simp)

/-- The head of the L1 column is lost: the other replica stays a tail. -/
theorem l1_chain_lost_with_head :
    ¬ (let t := ((start longDeployment).failNode longDeployment
        (replicaAt longDeployment.hosts .l1 0 0).instanceName).state
      Chained 2 (rowAlive longDeployment t .l1 0) (roleL1 longDeployment t 0 0)
        (nextL1 longDeployment t 0 0) ∧ Accepts longDeployment t 0 2 0) := by
  rintro ⟨chained, -⟩
  obtain ⟨i, ⟨hi, live, head⟩, _⟩ := chained.oneHead
  have zero : i = 0 := by
    by_contra ne
    obtain rfl : i = 1 := by omega
    exact absurd head (by decide +kernel)
  subst zero
  exact absurd live (by decide +kernel)

theorem l1_chain_survives_tail :
    let t := ((start longDeployment).failNode longDeployment
      (replicaAt longDeployment.hosts .l1 0 1).instanceName).state
    Chained 2 (rowAlive longDeployment t .l1 0) (roleL1 longDeployment t 0 0)
      (nextL1 longDeployment t 0 0) ∧ Accepts longDeployment t 0 2 0 :=
  (l1_chain_survives_iff longColumn_l1 (by decide +kernel) le_rfl (by decide)).2.mpr (by decide)

end L1
end Cluster
end Shortstack
