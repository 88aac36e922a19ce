import Shortstack.ProxyManager

/-! What the manager's repair of a chain does to roles and successors. The calls are
computed from the hosts file alone; here they are given by the row of the failed replica. -/
namespace Shortstack
open HostInfo ProxyManager

/-- A column with one replica on each of the first rows. -/
structure ChainColumn (hosts : HostInfo) (t : HostType) (c rows : ℕ) : Prop where
  names : (hosts.map Host.instanceName).Nodup
  order : (getReplicas hosts t c).map Host.row = List.range rows

/-- The replica of a column on a row. -/
def replicaAt (hosts : HostInfo) (t : HostType) (c row : ℕ) : Host :=
  (getReplicas hosts t c).getD row ⟨"", t, "", 0, row, c, 0⟩

namespace ChainColumn
variable {hosts : HostInfo} {t : HostType} {c rows : ℕ}

lemma length (h : ChainColumn hosts t c rows) : (getReplicas hosts t c).length = rows := by
  have size := congrArg List.length h.order
  simpa using size

lemma getElem? (h : ChainColumn hosts t c rows) {i : ℕ} (hi : i < rows) :
    (getReplicas hosts t c)[i]? = some (replicaAt hosts t c i) := by
  have size := h.length
  unfold replicaAt
  rw [List.getD_eq_getElem?_getD, List.getElem?_eq_getElem (by omega)]
  rfl

lemma getElem?_none (h : ChainColumn hosts t c rows) {i : ℕ} (hi : rows ≤ i) :
    (getReplicas hosts t c)[i]? = none := by
  rw [List.getElem?_eq_none_iff, h.length]
  exact hi

lemma mem (h : ChainColumn hosts t c rows) {i : ℕ} (hi : i < rows) :
    replicaAt hosts t c i ∈ getReplicas hosts t c := List.mem_of_getElem? (h.getElem? hi)

lemma row (h : ChainColumn hosts t c rows) {i : ℕ} (hi : i < rows) :
    (replicaAt hosts t c i).row = i := by
  have at_i : ((getReplicas hosts t c).map Host.row)[i]? = some i := by
    rw [h.order, List.getElem?_range hi]
  rw [List.getElem?_map, h.getElem? hi, Option.map_some, Option.some.injEq] at at_i
  exact at_i

lemma mem_hosts (h : ChainColumn hosts t c rows) {i : ℕ} (hi : i < rows) :
    replicaAt hosts t c i ∈ hosts ∧ (replicaAt hosts t c i).type = t ∧
      (replicaAt hosts t c i).column = c := by
  have mem := h.mem hi
  simp only [getReplicas, List.mem_insertionSort, List.mem_filter, decide_eq_true_eq] at mem
  exact ⟨mem.1, mem.2.1, mem.2.2⟩

lemma nodup_names (h : ChainColumn hosts t c rows) :
    ((getReplicas hosts t c).map Host.instanceName).Nodup := by
  have perm := (List.perm_insertionSort (fun a b : Host => a.row ≤ b.row)
    (hosts.filter fun h => h.type = t ∧ h.column = c)).map Host.instanceName
  rw [getReplicas, perm.nodup_iff]
  exact h.names.sublist (List.filter_sublist.map _)

lemma name_inj (h : ChainColumn hosts t c rows) {i j : ℕ} (hi : i < rows) (hj : j < rows)
    (same : (replicaAt hosts t c i).instanceName = (replicaAt hosts t c j).instanceName) :
    i = j := by
  have size := h.length
  have inj := List.nodup_iff_injective_getElem.mp h.nodup_names
  have at_i := h.getElem? hi
  have at_j := h.getElem? hj
  rw [List.getElem?_eq_getElem (by omega), Option.some.injEq] at at_i at_j
  have eq : (⟨i, by simpa [size] using hi⟩ :
      Fin ((getReplicas hosts t c).map Host.instanceName).length) =
      ⟨j, by simpa [size] using hj⟩ := inj (by simpa [at_i, at_j] using same)
  simpa using eq

lemma getHost_eq (h : ChainColumn hosts t c rows) {i : ℕ} (hi : i < rows) :
    getHost hosts (replicaAt hosts t c i).instanceName = some (replicaAt hosts t c i) := by
  have mem := (h.mem_hosts hi).1
  unfold getHost
  obtain ⟨x, found⟩ : ∃ x, hosts.find? (fun x => decide
      (x.instanceName = (replicaAt hosts t c i).instanceName)) = some x :=
    Option.isSome_iff_exists.mp (List.find?_isSome.mpr ⟨_, mem, by simp⟩)
  have name := List.find?_some found
  have other := List.mem_of_find?_eq_some found
  rw [found, List.inj_on_of_nodup_map h.names other mem (by simpa using name)]

lemma getIdx_eq (h : ChainColumn hosts t c rows) {i : ℕ} (hi : i < rows) :
    getIdx (replicaAt hosts t c i) (getReplicas hosts t c) = some i := by
  have size := h.length
  unfold getIdx
  rw [List.findIdx?_eq_some_iff_getElem]
  refine ⟨by omega, ?_, fun j hj => ?_⟩
  · have at_i := h.getElem? hi
    rw [List.getElem?_eq_getElem (by omega), Option.some.injEq] at at_i
    simp [at_i]
  · have at_j := h.getElem? (show j < rows by omega)
    rw [List.getElem?_eq_getElem (by omega), Option.some.injEq] at at_j
    rw [at_j]
    simp only [Bool.not_eq_true, decide_eq_false_iff_not]
    exact fun same => absurd (h.name_inj (by omega) hi same) (by omega)

lemma fixed_eq (h : ChainColumn hosts t c rows) {g : ℕ} (hg : g < rows) :
    (getReplicas hosts t c).filter
        (fun e => e.instanceName ≠ (replicaAt hosts t c g).instanceName) =
      (getReplicas hosts t c).eraseIdx g := by
  have size := h.length
  have split : getReplicas hosts t c = (getReplicas hosts t c).take g ++
      replicaAt hosts t c g :: (getReplicas hosts t c).drop (g + 1) := by
    have at_g := h.getElem? hg
    rw [List.getElem?_eq_getElem (by omega), Option.some.injEq] at at_g
    rw [← at_g, List.cons_getElem_drop_succ, List.take_append_drop]
  have nodup := h.nodup_names
  rw [split, List.map_append, List.map_cons, List.nodup_middle, List.nodup_cons,
    ← List.map_append] at nodup
  rw [List.eraseIdx_eq_take_drop_succ]
  conv_lhs => rw [split]
  rw [List.filter_append, List.filter_cons_of_neg (by simp), ← List.filter_append,
    List.filter_eq_self]
  intro x hx
  simp only [ne_eq, decide_eq_true_eq]
  exact fun same => nodup.1 (List.mem_map.mpr ⟨x, hx, same⟩)

lemma fixed_length (h : ChainColumn hosts t c rows) {g : ℕ} (hg : g < rows) :
    ((getReplicas hosts t c).eraseIdx g).length = rows - 1 := by
  have size := h.length
  rw [List.length_eraseIdx_of_lt (by omega), size]

lemma fixed_getIdx (h : ChainColumn hosts t c rows) {g i : ℕ} (hg : g < rows) (hi : i < g) :
    getIdx (replicaAt hosts t c i) ((getReplicas hosts t c).eraseIdx g) = some i := by
  have found := h.getIdx_eq (show i < rows by omega)
  have size := h.length
  have short := h.fixed_length hg
  unfold getIdx at found ⊢
  rw [List.findIdx?_eq_some_iff_getElem] at found ⊢
  obtain ⟨_, here, before⟩ := found
  refine ⟨by omega, ?_, fun j hj => ?_⟩
  · rw [List.getElem_eraseIdx_of_lt (by omega) hi]
    exact here
  · rw [List.getElem_eraseIdx_of_lt (by omega) (by omega)]
    exact before j hj

end ChainColumn

/-- The role of the replica before the failed one, in a chain without earlier failures. -/
def relinkRole (rows g : ℕ) : ChainRole :=
  if rows = 2 then .singleton else if g = 1 then .head else if g + 1 = rows then .tail else .mid

lemma relinkRole_isHead {rows g : ℕ} (hg : g < rows) (pos : 0 < g) :
    (relinkRole rows g).isHead = true ↔ g = 1 := by
  unfold relinkRole
  split_ifs <;> simp [ChainRole.isHead] <;> omega

lemma relinkRole_isTail {rows g : ℕ} (hg : g < rows) (pos : 0 < g) :
    (relinkRole rows g).isTail = true ↔ g + 1 = rows := by
  unfold relinkRole
  split_ifs <;> simp [ChainRole.isTail] <;> omega

namespace ChainColumn
variable {hosts : HostInfo} {t : HostType} {c rows : ℕ}

/-- The repair of a failed replica that is not the first: the one before it is linked to
the one after it. -/
theorem relinkCalls_eq (h : ChainColumn hosts t c rows) {g : ℕ} (hg : g < rows) (pos : 0 < g) :
    relinkCalls (getReplicas hosts t c) ((getReplicas hosts t c).eraseIdx g) g =
      [.setupChain (replicaAt hosts t c (g - 1)) (relinkRole rows g) (getReplicas hosts t c)[g + 1]?,
        .resendPending (replicaAt hosts t c (g - 1)) (getReplicas hosts t c)[g + 1]?] := by
  have short := h.fixed_length hg
  have role : (if rows - 1 = 1 then ChainRole.singleton else if g - 1 = 0 then .head
      else if g - 1 = rows - 1 - 1 then .tail else .mid) = relinkRole rows g := by
    unfold relinkRole
    rcases eq_or_ne rows 2 with two | two
    · rw [if_pos two, if_pos (by omega)]
    · rw [if_neg two, if_neg (by omega)]
      rcases eq_or_ne g 1 with one | one
      · rw [if_pos one, if_pos (by omega)]
      · rw [if_neg one, if_neg (by omega)]
        rcases eq_or_ne (g + 1) rows with last | last
        · rw [if_pos last, if_pos (by omega)]
        · rw [if_neg last, if_neg (by omega)]
  have next : (if g - 1 = rows - 1 - 1 then none
      else ((getReplicas hosts t c).eraseIdx g)[g - 1 + 1]?) = (getReplicas hosts t c)[g + 1]? := by
    split
    · rw [h.getElem?_none (by omega)]
    · rw [show g - 1 + 1 = g by omega, List.getElem?_eraseIdx_of_ge (le_refl g)]
  unfold relinkCalls
  rw [h.getElem? (show g - 1 < rows by omega)]
  dsimp only
  rw [h.fixed_getIdx hg (show g - 1 < g by omega)]
  dsimp only
  rw [short, role, next]

theorem failNode_l1 (h : ChainColumn hosts .l1 c rows) {g : ℕ} (hg : g < rows) :
    failNode hosts (replicaAt hosts .l1 c g).instanceName =
      ⟨.crash (replicaAt hosts .l1 c g) :: if 0 < g then
        [.setupChain (replicaAt hosts .l1 c (g - 1)) (relinkRole rows g)
          (getReplicas hosts .l1 c)[g + 1]?,
        .resendPending (replicaAt hosts .l1 c (g - 1)) (getReplicas hosts .l1 c)[g + 1]?]
        else [], none⟩ := by
  obtain ⟨_, type, column⟩ := h.mem_hosts hg
  unfold failNode
  rw [h.getHost_eq hg]
  dsimp only
  rw [type, column, h.getIdx_eq hg, h.fixed_eq hg]
  dsimp only
  split
  · next pos => rw [h.relinkCalls_eq hg pos]
  · rfl

theorem failNode_l2 (h : ChainColumn hosts .l2 c rows) {g : ℕ} (hg : g < rows) (pos : 0 < g) :
    failNode hosts (replicaAt hosts .l2 c g).instanceName =
      ⟨[.crash (replicaAt hosts .l2 c g),
        .setupChain (replicaAt hosts .l2 c (g - 1)) (relinkRole rows g)
          (getReplicas hosts .l2 c)[g + 1]?,
        .resendPending (replicaAt hosts .l2 c (g - 1)) (getReplicas hosts .l2 c)[g + 1]?],
        none⟩ := by
  obtain ⟨_, type, column⟩ := h.mem_hosts hg
  unfold failNode
  rw [h.getHost_eq hg]
  dsimp only
  rw [type, column, h.getIdx_eq hg, h.fixed_eq hg]
  dsimp only
  rw [if_pos pos, h.relinkCalls_eq hg pos]

/-- The calls to the L1 tails after an L2 head was replaced. -/
def redirectCalls (hosts : HostInfo) (newHead : Host) : List ManagerCall :=
  ((tails hosts .l1).map fun l1Tail =>
    .updateConnections l1Tail .l2 newHead.column (some newHead)) ++
  (tails hosts .l1).map fun l1Tail => .resendPending l1Tail none

theorem failNode_l2_head (h : ChainColumn hosts .l2 c rows) (two : 1 < rows) :
    failNode hosts (replicaAt hosts .l2 c 0).instanceName =
      ⟨.crash (replicaAt hosts .l2 c 0) ::
        .setupChain (replicaAt hosts .l2 c 1) (if rows = 2 then .singleton else .head)
          (getReplicas hosts .l2 c)[2]? ::
        redirectCalls hosts (replicaAt hosts .l2 c 1), none⟩ := by
  have hg : 0 < rows := by omega
  obtain ⟨_, type, column⟩ := h.mem_hosts hg
  have size := h.length
  have split : (getReplicas hosts .l2 c).eraseIdx 0 =
      replicaAt hosts .l2 c 1 :: (getReplicas hosts .l2 c).drop 2 := by
    have at_one := h.getElem? two
    rw [List.getElem?_eq_getElem (by omega), Option.some.injEq] at at_one
    rw [← at_one, List.cons_getElem_drop_succ, List.eraseIdx_zero, ← List.drop_one]
  have last : (getReplicas hosts .l2 c).drop 2 = [] ↔ rows = 2 := by
    rw [List.drop_eq_nil_iff, size]
    omega
  unfold failNode
  rw [h.getHost_eq hg]
  dsimp only
  rw [type, column, h.getIdx_eq hg, h.fixed_eq hg]
  simp only [lt_irrefl, if_false, split, promoteCalls, last, List.head?_drop, List.cons_append,
    redirectCalls]

end ChainColumn

/-- The successor of a live row among the live rows. -/
def NextLive (rows : ℕ) (alive : ℕ → Bool) (i : ℕ) : Option ℕ → Prop
  | some j => i < j ∧ j < rows ∧ alive j = true ∧ ∀ p, i < p → p < j → alive p = false
  | none => ∀ j, i < j → j < rows → alive j = false

/-- The live rows form a chain: the first one and no other acts as head, the last one and no
other as tail, and each one's successor is the next live one. -/
structure Formed (rows : ℕ) (alive : ℕ → Bool) (role : ℕ → ChainRole) (next : ℕ → Option ℕ) :
    Prop where
  head : ∀ i < rows, alive i = true → ((role i).isHead = true ↔ ∀ p < i, alive p = false)
  tail : ∀ i < rows, alive i = true →
    ((role i).isTail = true ↔ ∀ j, i < j → j < rows → alive j = false)
  next : ∀ i < rows, alive i = true → NextLive rows alive i (next i)

/-- What the manager relies on when it repairs a chain: the replica it gives a new role is
alive, so is the one it links it to, and the role computed without earlier failures is
still right. -/
def NeighboursUp (rows : ℕ) (alive : ℕ → Bool) (g : ℕ) : Prop :=
  if g = 0 then alive 1 = true ∧ (2 < rows → alive 2 = true)
  else alive (g - 1) = true ∧ (g + 1 < rows → alive (g + 1) = true) ∧
    (g = 1 ∨ ∃ p < g - 1, alive p = true)

namespace Formed
variable {rows g : ℕ} {alive : ℕ → Bool} {role role' : ℕ → ChainRole} {next next' : ℕ → Option ℕ}

lemma update_alive {i : ℕ} (other : i ≠ g) : Function.update alive g false i = alive i :=
  Function.update_of_ne other ..

lemma alive_of_update {i : ℕ} (h : Function.update alive g false i = true) :
    i ≠ g ∧ alive i = true := by
  rcases eq_or_ne i g with rfl | other
  · simp at h
  · rw [update_alive other] at h
    exact ⟨other, h⟩

lemma update_eq_false {i : ℕ} : Function.update alive g false i = false ↔
    (i ≠ g → alive i = false) := by
  rcases eq_or_ne i g with rfl | other
  · simp
  · simp [other]

lemma nextLive_update {i : ℕ} {n : Option ℕ} (h : NextLive rows alive i n) (other : n ≠ some g) :
    NextLive rows (Function.update alive g false) i n := by
  cases n with
  | none => exact fun j hij hj => update_eq_false.mpr fun _ => h j hij hj
  | some j =>
    have hj : j ≠ g := fun same => other (by rw [same])
    exact ⟨h.1, h.2.1, by rw [update_alive hj]; exact h.2.2.1,
      fun p hip hpj => update_eq_false.mpr fun _ => h.2.2.2 p hip hpj⟩

lemma next_ne {i j : ℕ} (h : NextLive rows alive i (next i)) (hij : i < j) (hj : j < g)
    (live : alive j = true) : next i ≠ some g := by
  intro eq
  rw [eq] at h
  rw [h.2.2.2 j hij hj] at live
  simp at live

/-- A row that keeps its role and successor, with a live row between it and the failed one
if it stands before it, and a live row below the failed one if it stands after it. -/
lemma keep (h : Formed rows alive role next) {i : ℕ} (hi : i < rows) (live : alive i = true)
    (before : i < g → ∃ j, i < j ∧ j < g ∧ j < rows ∧ alive j = true)
    (after : g < i → ∃ p < i, p ≠ g ∧ alive p = true) (other : i ≠ g) :
    ((role i).isHead = true ↔ ∀ p < i, Function.update alive g false p = false) ∧
    ((role i).isTail = true ↔ ∀ j, i < j → j < rows → Function.update alive g false j = false) ∧
    NextLive rows (Function.update alive g false) i (next i) := by
  refine ⟨?_, ?_, ?_⟩
  · rw [h.head i hi live]
    constructor
    · exact fun none p hp => update_eq_false.mpr fun _ => none p hp
    · intro none p hp
      rcases lt_or_gt_of_ne other with below | above
      · exact update_eq_false.mp (none p hp) (by omega)
      · obtain ⟨q, hq, hqg, up⟩ := after above
        have := update_eq_false.mp (none q hq) hqg
        rw [this] at up
        simp at up
  · rw [h.tail i hi live]
    constructor
    · exact fun none j hij hj => update_eq_false.mpr fun _ => none j hij hj
    · intro none j hij hj
      rcases lt_or_gt_of_ne other with below | above
      · obtain ⟨q, hiq, hqg, hq, up⟩ := before below
        have := update_eq_false.mp (none q hiq hq) (by omega)
        rw [this] at up
        simp at up
      · exact update_eq_false.mp (none j hij hj) (by omega)
  · refine nextLive_update (h.next i hi live) ?_
    rcases lt_or_gt_of_ne other with below | above
    · obtain ⟨q, hiq, hqg, _, up⟩ := before below
      exact next_ne (h.next i hi live) hiq hqg up
    · intro eq
      have := h.next i hi live
      rw [eq] at this
      exact absurd this.1 (by omega)

/-- The chain after a replica that is not the first has failed, its predecessor being alive. -/
theorem relink_iff (h : Formed rows alive role next) (hg : g < rows) (pos : 0 < g)
    (up : alive (g - 1) = true) (roleAt : role' (g - 1) = relinkRole rows g)
    (nextAt : next' (g - 1) = if g + 1 < rows ∧ alive (g + 1) = true then some (g + 1) else none)
    (others : ∀ i, i ≠ g - 1 → role' i = role i ∧ next' i = next i) :
    Formed rows (Function.update alive g false) role' next' ↔
      (g + 1 < rows → alive (g + 1) = true) ∧ (g = 1 ∨ ∃ p < g - 1, alive p = true) := by
  have up' : Function.update alive g false (g - 1) = true := by
    rw [update_alive (by omega)]
    exact up
  constructor
  · intro formed
    have first := formed.head (g - 1) (by omega) up'
    have last := formed.tail (g - 1) (by omega) up'
    have link := formed.next (g - 1) (by omega) up'
    rw [roleAt, relinkRole_isHead hg pos] at first
    rw [roleAt, relinkRole_isTail hg pos] at last
    rw [nextAt] at link
    constructor
    · intro inside
      by_contra down
      rw [if_neg (by tauto)] at link
      have := last.mpr link
      omega
    · by_contra none
      push Not at none
      exact none.1 (first.mpr fun p hp => update_eq_false.mpr fun _ => by simpa using none.2 p hp)
  · rintro ⟨above, below⟩
    have link : NextLive rows (Function.update alive g false) (g - 1) (next' (g - 1)) := by
      rw [nextAt]
      split
      · next inside =>
        refine ⟨by omega, inside.1, by rw [update_alive (by omega)]; exact inside.2, ?_⟩
        intro p hp hp'
        obtain rfl : p = g := by omega
        simp
      · next outside =>
        intro j hj hj'
        refine update_eq_false.mpr fun other => ?_
        exact absurd (above (by omega)) (fun live => outside ⟨by omega, live⟩)
    refine ⟨fun i hi live => ?_, fun i hi live => ?_, fun i hi live => ?_⟩
    all_goals
      obtain ⟨other, live⟩ := alive_of_update live
      rcases eq_or_ne i (g - 1) with rfl | away
    · rw [roleAt, relinkRole_isHead hg pos]
      constructor
      · omega
      · intro none
        rcases below with one | ⟨p, hp, live'⟩
        · exact one
        · rw [update_eq_false.mp (none p hp) (by omega)] at live'
          simp at live'
    · rw [(others i away).1]
      exact (h.keep hi live (fun below => ⟨g - 1, by omega, by omega, by omega, up⟩)
        (fun above => ⟨g - 1, by omega, by omega, up⟩) other).1
    · rw [roleAt, relinkRole_isTail hg pos]
      constructor
      · intro last j hj hj'
        obtain rfl : j = g := by omega
        simp
      · intro none
        by_contra inside
        have live' := above (by omega)
        rw [update_eq_false.mp (none (g + 1) (by omega) (by omega)) (by omega)] at live'
        simp at live'
    · rw [(others i away).1]
      exact (h.keep hi live (fun below => ⟨g - 1, by omega, by omega, by omega, up⟩)
        (fun above => ⟨g - 1, by omega, by omega, up⟩) other).2.1
    · exact link
    · rw [(others i away).2]
      exact (h.keep hi live (fun below => ⟨g - 1, by omega, by omega, by omega, up⟩)
        (fun above => ⟨g - 1, by omega, by omega, up⟩) other).2.2

/-- The chain after its first replica has failed, the second one being alive. -/
theorem promote_iff (h : Formed rows alive role next) (two : 1 < rows) (up : alive 1 = true)
    (roleAt : role' 1 = if rows = 2 then .singleton else .head)
    (nextAt : next' 1 = if 2 < rows ∧ alive 2 = true then some 2 else none)
    (others : ∀ i, i ≠ 1 → role' i = role i ∧ next' i = next i) :
    Formed rows (Function.update alive 0 false) role' next' ↔ (2 < rows → alive 2 = true) := by
  have up' : Function.update alive 0 false 1 = true := by
    rw [update_alive one_ne_zero]
    exact up
  have isHead : (role' 1).isHead = true := by
    rw [roleAt]
    split <;> rfl
  have isTail : (role' 1).isTail = true ↔ rows = 2 := by
    rw [roleAt]
    split_ifs with size <;> simp [ChainRole.isTail, size]
  constructor
  · intro formed inside
    by_contra down
    have last := formed.tail 1 two up'
    have link := formed.next 1 two up'
    rw [nextAt, if_neg (by tauto)] at link
    have := isTail.mp (last.mpr link)
    omega
  · intro above
    have link : NextLive rows (Function.update alive 0 false) 1 (next' 1) := by
      rw [nextAt]
      split
      · next inside =>
        refine ⟨by omega, inside.1, by rw [update_alive two_ne_zero]; exact inside.2, ?_⟩
        omega
      · next outside =>
        intro j hj hj'
        exact absurd (above (by omega)) (fun live => outside ⟨by omega, live⟩)
    refine ⟨fun i hi live => ?_, fun i hi live => ?_, fun i hi live => ?_⟩
    all_goals
      obtain ⟨other, live⟩ := alive_of_update live
      rcases eq_or_ne i 1 with rfl | away
    · refine iff_of_true isHead fun p hp => ?_
      obtain rfl : p = 0 := by omega
      simp
    · rw [(others i away).1]
      exact (h.keep hi live (by omega) (fun above => ⟨1, by omega, by omega, up⟩) other).1
    · rw [isTail]
      constructor
      · omega
      · intro none
        by_contra inside
        have live' := above (by omega)
        rw [update_eq_false.mp (none 2 (by omega) (by omega)) (by omega)] at live'
        simp at live'
    · rw [(others i away).1]
      exact (h.keep hi live (by omega) (fun above => ⟨1, by omega, by omega, up⟩) other).2.1
    · exact link
    · rw [(others i away).2]
      exact (h.keep hi live (by omega) (fun above => ⟨1, by omega, by omega, up⟩) other).2.2

end Formed
end Shortstack
