import Shortstack.ChainInvariant

/-! Safety of the replication chain over whole runs: survivors never diverge, and a
broken chain can always be repaired from the pending map of a predecessor. Heads may
crash as well: the next survivor is then promoted by `setup` and numbers further
commands itself. -/
namespace Shortstack.ChainNet
open ChainModule Transition
variable {σ μ : Type} {cb : Callbacks σ μ} {net : ChainNet σ}

/-- Survivors never diverge. In every reachable state of a chain of any length, the
commands run by a live replica are a prefix of those run by any live replica before it,
the command at position k has number k + 1, and the counter is the number of commands. -/
theorem survivors_run_prefixes (h : Reachable (chainSystem cb) net) :
    (∀ i j, i < j → net.alive i = true → net.alive j = true →
      (net.node j).ran <+: (net.node i).ran) ∧
    (∀ i, net.alive i = true → ∀ (k : ℕ) op, (net.node i).ran[k]? = some op →
      op.seq.serverSeqNo = k + 1) ∧
    (∀ i, net.alive i = true → (net.node i).chainSeqNo = (net.node i).ran.length) := by
  have inv : Inv False net := Inv.reaches h fun _ _ _ no => no.elim
  exact ⟨inv.log, fun i _ => (inv.node i).numbers, fun i _ => (inv.node i).count⟩

/-- Callbacks of a subclass that keeps no state of its own. -/
def plainCallbacks : Callbacks Unit Unit where
  runCommand _ u _ _ := .done u
  replicationComplete _ u _ _ := .done u
  setupCallback _ u := u
  ackCallback _ _ u _ := .done u

/-- Three rows; the first two commands reach the middle row and one of them the last, the
middle row crashes, a third command is lost, the head is linked to the last row, a fourth
command arrives out of order there, and the late request of the crashed row is delivered
before the head resends. -/
def relinkRun : List (Outside Unit × NetLabel Unit) :=
  [.request 0 () {} ["a"], .request 0 () {} ["b"], .deliver 0 1, .deliver 0 1, .deliver 1 2,
    .crash 1, .request 0 () {} ["c"], .setup 0, .request 0 () {} ["d"], .fetch 0, .deliver 0 2,
    .deliver 1 2, .resend 0, .deliver 0 2, .deliver 0 2].map fun l => (⟨fun _ => true, none⟩, l)

theorem survivors_run_prefixes_of_relinkRun :
    ∃ net, Reachable (chainSystem plainCallbacks) net ∧ net.alive 1 = false ∧
      (net.node 2).chainSeqNo = 3 ∧ (net.node 0).chainSeqNo = 4 ∧
      (net.node 2).ran <+: (net.node 0).ran := by
  have start : (chainSystem plainCallbacks).init
      (ChainNet.start plainCallbacks 3 (fun _ => ()) fun _ => 1) := ⟨3, _, _, rfl⟩
  have reached := Reaches.of_replay (fun _ _ => True) relinkRun start rfl
  exact ⟨_, reached, rfl, rfl, rfl,
    (survivors_run_prefixes reached).1 0 2 (by decide) rfl rfl⟩

section Resend
variable {m : ChainModule σ}

lemma NodeInv.ran_sorted (h : NodeInv m) :
    m.ran.Pairwise fun a b => a.seq.serverSeqNo < b.seq.serverSeqNo := by
  rw [List.pairwise_iff_getElem]
  intro a b ha hb hab
  have hna := h.numbers a m.ran[a] (by simp)
  have hnb := h.numbers b m.ran[b] (by simp)
  omega

lemma NodeInv.number_inj (h : NodeInv m) {a b : ChainOp} (ha : a ∈ m.ran) (hb : b ∈ m.ran)
    (eq : a.seq.serverSeqNo = b.seq.serverSeqNo) : a = b := by
  obtain ⟨i, hi, hni⟩ := h.mem_iff.mp ha
  obtain ⟨j, hj, hnj⟩ := h.mem_iff.mp hb
  have : i = j := by omega
  subst this
  rw [hi] at hj
  exact Option.some.inj hj

lemma NodeInv.mem_drop_iff (h : NodeInv m) {n : ℕ} {op : ChainOp} :
    op ∈ m.ran.drop n ↔ op ∈ m.ran ∧ (n : ℤ) < op.seq.serverSeqNo := by
  rw [List.mem_iff_getElem?, h.mem_iff]
  constructor
  · rintro ⟨k, hk⟩
    rw [List.getElem?_drop] at hk
    have := h.numbers (n + k) op hk
    exact ⟨⟨n + k, hk, this⟩, by omega⟩
  · rintro ⟨⟨k, hk, hnum⟩, hlt⟩
    exact ⟨k - n, by rw [List.getElem?_drop, show n + (k - n) = k by omega]; exact hk⟩

/-- If every command above a number is still pending, then what is pending above it is
exactly the rest of the log, in order. -/
theorem NodeInv.pendingAfter_eq (h : NodeInv m) {n : ℕ}
    (kept : ∀ op ∈ m.ran, (n : ℤ) < op.seq.serverSeqNo →
      m.pending.lookup op.seq.serverSeqNo = some op) :
    m.pendingAfter n = m.ran.drop n := by
  let key : ChainOp → (_ : ℤ) × ChainOp := fun op => ⟨op.seq.serverSeqNo, op⟩
  let entries := m.pending.entries.filter fun e => ¬ e.1 ≤ (n : ℤ)
  have sorted : (entries.insertionSort fun a b => a.1 ≤ b.1).Pairwise fun a b => a.1 ≤ b.1 :=
    List.pairwise_insertionSort _ _
  have log : ((m.ran.drop n).map key).Pairwise fun a b => a.1 < b.1 := by
    rw [List.pairwise_map]
    exact h.ran_sorted.sublist (List.drop_sublist n m.ran)
  have mem : ∀ e, e ∈ entries ↔ e ∈ (m.ran.drop n).map key := by
    intro e
    simp only [entries, key, List.mem_filter, List.mem_map, h.mem_drop_iff, decide_eq_true_eq,
      not_le]
    constructor
    · rintro ⟨he, hlt⟩
      obtain ⟨hran, hnum⟩ := h.pending e.1 e.2 (AList.mem_lookup_iff.mpr he)
      refine ⟨e.2, ⟨hran, by omega⟩, ?_⟩
      rw [hnum]
    · rintro ⟨op, ⟨hran, hlt⟩, rfl⟩
      exact ⟨AList.mem_lookup_iff.mp (kept op hran hlt), hlt⟩
  have perm : (entries.insertionSort fun a b => a.1 ≤ b.1).Perm ((m.ran.drop n).map key) := by
    refine (List.perm_insertionSort _ _).trans ?_
    refine (List.perm_ext_iff_of_nodup ?_ ?_).mpr mem
    · exact (List.NodupKeys.nodup m.pending.nodupKeys).filter _
    · exact log.imp fun hlt he => absurd (congrArg Sigma.fst he) (ne_of_lt hlt)
  have keys : ∀ a b, a ∈ entries.insertionSort (fun a b => a.1 ≤ b.1) →
      b ∈ (m.ran.drop n).map key → a.1 ≤ b.1 → b.1 ≤ a.1 → a = b := by
    intro a b ha hb hab hba
    obtain ⟨x, hx, rfl⟩ := List.mem_map.mp ((mem a).mp ((List.mem_insertionSort _).mp ha))
    obtain ⟨y, hy, rfl⟩ := List.mem_map.mp hb
    rw [h.number_inj (List.mem_of_mem_drop hx) (List.mem_of_mem_drop hy) (le_antisymm hab hba)]
  have := List.Perm.eq_of_pairwise keys sorted (log.imp fun hlt => le_of_lt hlt) perm
  calc m.pendingAfter n = (entries.insertionSort fun a b => a.1 ≤ b.1).map fun e => e.2 := rfl
    _ = ((m.ran.drop n).map key).map fun e => e.2 := by rw [this]
    _ = m.ran.drop n := by
      rw [List.map_map, show (fun e : (_ : ℤ) × ChainOp => e.2) ∘ key = id from rfl, List.map_id]

end Resend
section Monotone

/-- No step takes back a command: every replica only extends its list. -/
theorem step_ran_extends {ext : Outside μ} {l : NetLabel σ} {r : NetResult σ μ}
    (taken : net.step cb ext l = some r) (i : ℕ) :
    (net.node i).ran <+: (r.net.node i).ran := by
  have settle : ∀ (net' : ChainNet σ) (j : ℕ) (o : Outcome (ChainModule σ) (Send μ)),
      net'.node = net.node → (net.node j).ran <+: o.state.ran →
      (net.node i).ran <+: ((net'.deposit j o).node i).ran := by
    intro net' j o node grows
    by_cases hij : i = j
    · subst hij
      simpa using grows
    · simp [hij, node]
  have request : ∀ (m : ChainModule σ) env seq args,
      m.ran <+: (m.chainRequest cb env seq args).state.ran := by
    intro m env seq args
    cases chainRequest_effect cb env m seq args with
    | skipped u state => rw [state, withUser_ran]
    | ran u _ state => rw [state]; simp
  have ackBatch : ∀ (m : ChainModule σ) env seqs, (m.ackBatch cb env seqs).state.ran = m.ran := by
    intro m env seqs
    obtain ⟨p, a, u, state⟩ := (ackBatch_effect cb env m seqs (P := fun _ => True)
      (by simp) (by simp)).frame
    rw [state]
  cases step_cases taken with
  | @request j user seq args _ _ =>
    exact settle net j _ rfl (request ((net.node j).withUser user) _ _ _)
  | @deliver a j _ _ _ _ =>
    refine settle _ j _ rfl ?_
    rw [← (agrees_meet (net.node j) a).ran]
    exact request _ _ _ _
  | ackDeliver _ _ => exact settle _ _ _ rfl (by rw [ackBatch])
  | @ackFrom j user seqs _ => exact settle net j _ rfl (by rw [ackBatch, withUser_ran])
  | @touch j user _ => exact settle net j _ rfl (by simp)
  | @setup j _ => exact settle net j _ rfl (by simp [ChainModule.setup])
  | @resend j n _ _ =>
    obtain ⟨u, state, _⟩ := resendPending_effect cb (net.env ext (net.node j)) (net.node j) n
    exact settle _ j _ rfl (by rw [state, withUser_ran])
  | crash _ | fetch _ | lose _ _ | loseAck _ => exact List.prefix_rfl

/-- Only `setup` changes the role of a replica. -/
theorem step_role {ext : Outside μ} {l : NetLabel σ} {r : NetResult σ μ}
    (taken : net.step cb ext l = some r) {i : ℕ} (other : l ≠ .setup i) :
    (r.net.node i).role = (net.node i).role := by
  have settle : ∀ (net' : ChainNet σ) (j : ℕ) (o : Outcome (ChainModule σ) (Send μ)),
      net'.node = net.node → o.state.role = (net.node j).role →
      ((net'.deposit j o).node i).role = (net.node i).role := by
    intro net' j o node same
    rcases eq_or_ne i j with rfl | hij
    · simpa using same
    · simp [hij, node]
  have request : ∀ (m : ChainModule σ) env seq args,
      (m.chainRequest cb env seq args).state.role = m.role := by
    intro m env seq args
    cases chainRequest_effect cb env m seq args with
    | skipped u state => rw [state, withUser_role]
    | ran u _ state => rw [state]; simp
  have ackBatch : ∀ (m : ChainModule σ) env seqs,
      (m.ackBatch cb env seqs).state.role = m.role := by
    intro m env seqs
    obtain ⟨p, a, u, state⟩ := (ackBatch_effect cb env m seqs (P := fun _ => True)
      (by simp) (by simp)).frame
    rw [state]
  cases step_cases taken with
  | request _ _ => exact settle _ _ _ rfl (request _ _ _ _)
  | @deliver a j _ _ _ _ =>
    exact settle _ j _ rfl ((request _ _ _ _).trans (agrees_meet (net.node j) a).role)
  | ackDeliver _ _ => exact settle _ _ _ rfl (ackBatch _ _ _)
  | ackFrom _ => exact settle _ _ _ rfl (ackBatch _ _ _)
  | touch _ => exact settle _ _ _ rfl rfl
  | @setup j _ =>
    have hij : i ≠ j := fun same => other (by rw [same])
    simp [finish, hij]
  | @resend j n _ _ =>
    obtain ⟨u, state, _⟩ := resendPending_effect cb (net.env ext (net.node j)) (net.node j) n
    exact settle _ j _ rfl (by rw [state, withUser_role])
  | crash _ | fetch _ | lose _ _ | loseAck _ => rfl

end Monotone

/-- A live replica still holds in its pending map every command a later one has not run. -/
lemma Inv.lookup_of_missing {acked : Prop} (inv : Inv acked net) (hack : acked) {i j : ℕ}
    (hij : i < j) (hi : net.alive i = true) (hj : net.alive j = true) {op : ChainOp}
    (hop : op ∈ (net.node i).ran) (miss : (net.node j).chainSeqNo < op.seq.serverSeqNo) :
    (net.node i).pending.lookup op.seq.serverSeqNo = some op := by
  cases found : (net.node i).pending.lookup op.seq.serverSeqNo with
  | none =>
    have := inv.kept hack i j hij hi hj op hop found
    omega
  | some other =>
    obtain ⟨hran, hnum⟩ := (inv.node i).pending _ _ found
    rw [(inv.node i).number_inj hran hop hnum]

lemma Inv.mem_of_number {acked : Prop} (inv : Inv acked net) {i j : ℕ} (hij : i < j)
    (hi : net.alive i = true) (hj : net.alive j = true) {op : ChainOp}
    (hop : op ∈ (net.node i).ran) (le : op.seq.serverSeqNo ≤ (net.node j).chainSeqNo) :
    op ∈ (net.node j).ran := by
  obtain ⟨k, hk, hnum⟩ := (inv.node i).mem_iff.mp hop
  obtain ⟨rest, hrest⟩ := inv.log i j hij hi hj
  have hlt : k < (net.node j).ran.length := by
    have := (inv.node j).count
    omega
  rw [← hrest, List.getElem?_append_left hlt] at hk
  exact List.mem_of_getElem? hk

/-- A chain can always be repaired from the pending map of a predecessor: an entry leaves
it only when every later survivor has run the command, every command a later survivor has
not run is still in it, and resending from the number fetched from that survivor offers
exactly the commands it misses, in order. -/
theorem repairable_from_pending (h : Reaches (chainSystem cb) ackedRan net) :
    (∀ l net', ackedRan net l → (chainSystem cb).step net l = some net' →
      ∀ i k op, net'.alive i = true → (net.node i).pending.lookup k = some op →
        (net'.node i).pending.lookup k = none →
        ∀ j, i < j → net'.alive j = true → op ∈ (net'.node j).ran) ∧
    (∀ i j, i < j → net.alive i = true → net.alive j = true →
      ∀ k, (net.node j).chainSeqNo < k → k ≤ (net.node i).chainSeqNo →
        ∃ (n : ℕ) (op : ChainOp), k = n + 1 ∧ (net.node i).ran[n]? = some op ∧
          (net.node i).pending.lookup k = some op) ∧
    (∀ i j, i < j → net.alive i = true → net.alive j = true → ∀ env : Env μ, env.next = true →
      requestsOf ((net.node i).resendPending cb env (net.node j).fetchSeq).sent =
        (net.node i).ran.drop (net.node j).ran.length) := by
  have inv : Inv True net := Inv.reaches h fun _ _ ok _ => ok
  refine ⟨?_, ?_, ?_⟩
  · intro l net' ok taken i k op hi hin hout j hij hj
    have inv' : Inv True net' := Inv.reaches (h.step ok taken) fun _ _ ok _ => ok
    obtain ⟨r, hr, rfl⟩ := Option.map_eq_some_iff.mp taken
    obtain ⟨hran, hnum⟩ := (inv.node i).pending k op hin
    have hran' := (step_ran_extends hr i).subset hran
    exact inv'.mem_of_number hij hi hj hran'
      (inv'.kept trivial i j hij hi hj op hran' (hnum.symm ▸ hout))
  · intro i j hij hi hj k hlow hhigh
    have count := (inv.node i).count
    have countj := (inv.node j).count
    have hlt : (k - 1).toNat < (net.node i).ran.length := by omega
    have hget := List.getElem?_eq_getElem hlt
    have hnum := (inv.node i).numbers _ _ hget
    have hk : k = ((k - 1).toNat : ℤ) + 1 := by omega
    refine ⟨_, _, hk, hget, ?_⟩
    have found := inv.lookup_of_missing trivial hij hi hj (List.mem_of_getElem? hget) (by omega)
    rwa [hnum, ← hk] at found
  · intro i j hij hi hj env hup
    have notTail : (net.node i).isTail = false := by
      by_contra tail
      rw [Bool.not_eq_false] at tail
      rw [inv.tails i hi tail j hij] at hj
      simp at hj
    obtain ⟨u, _, requests, _⟩ :=
      resendPending_effect cb env (net.node i) (net.node j).fetchSeq
    rw [requests, notTail, hup, fetchSeq, (inv.node j).count]
    simp only [Bool.false_eq_true, if_false, if_true]
    refine (inv.node i).pendingAfter_eq fun op hop hlt => ?_
    exact inv.lookup_of_missing trivial hij hi hj hop ((inv.node j).count ▸ hlt)

/-- The same run with an acknowledgement of the first command by the last row. -/
theorem repairable_from_pending_of_relinkRun :
    ∃ net, Reaches (chainSystem plainCallbacks) ackedRan net ∧
      (net.node 0).pending.lookup 1 = none ∧ (net.node 2).chainSeqNo = 1 ∧
      requestsOf ((net.node 0).resendPending plainCallbacks ⟨true, true, fun _ => true, none⟩
        (net.node 2).fetchSeq).sent = (net.node 0).ran.drop 1 := by
  have start : (chainSystem plainCallbacks).init
      (ChainNet.start plainCallbacks 3 (fun _ => ()) fun _ => 1) := ⟨3, _, _, rfl⟩
  have reached := Reaches.of_replay ackedRan (relinkRun.take 5 ++
    [.ackFrom 2 () [{ serverSeqNo := 1 }], .ackDeliver 0, .ackDeliver 0].map
      fun l => (⟨fun _ => true, none⟩, l)) start rfl
  exact ⟨_, reached, rfl, rfl, (repairable_from_pending reached).2.2 0 2 (by decide) rfl rfl _ rfl⟩

end Shortstack.ChainNet
