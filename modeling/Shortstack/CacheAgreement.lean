import Shortstack.L2ColumnSpec

/-! Do the instances of an L2 column agree on their update caches? Each worker's chain
orders its own commands, but the workers of an instance share one cache, so two puts
to one key that travel in different chains may be applied in different orders. -/
namespace Shortstack.L2Column
open ChainNet ChainModule L2Proxy Transition
variable {ι : Type} [DecidableEq ι] {cfg : ι → L2Config} {col : L2Column ι} {n : ℕ}

/-- The entries the commands of a list put under a key. -/
def puts (cfg : L2Config) (k : String) (ops : List ChainOp) : List CacheEntry :=
  ops.filterMap fun op => match cached cfg op with
    | some (k', e) => if k' = k then some e else none
    | none => none

/-- The commands the head of a worker's chain has run and a row has not. -/
def missing (col : L2Column ι) (w : ι) (i : ℕ) : List ChainOp :=
  ((col.net w).node 0).ran.drop ((col.net w).node i).ran.length

/-- A put to the key is on its way between two rows of a worker's chain. -/
def PutInFlight (cfg : ι → L2Config) (col : L2Column ι) (w : ι) (k : String) : Prop :=
  ∃ i j, puts (cfg w) k ((col.net w).link i j) ≠ []

@[simp] lemma puts_nil (c : L2Config) (k : String) : puts c k [] = [] := rfl

@[simp] lemma puts_append (c : L2Config) (k : String) (a b : List ChainOp) :
    puts c k (a ++ b) = puts c k a ++ puts c k b := List.filterMap_append

lemma puts_singleton (c : L2Config) (k : String) (op : ChainOp) :
    puts c k [op] = match cached c op with
      | some (k', e) => if k' = k then [e] else []
      | none => [] := by
  simp only [puts, List.filterMap_cons, List.filterMap_nil]
  rcases cached c op with _ | ⟨k', e⟩
  · rfl
  · by_cases h : k' = k <;> simp [h]

lemma lookup_afterPut (c : L2Config) (cache : UpdateCache) (op : ChainOp) (k : String) :
    (afterPut c cache op).lookup k = ((puts c k [op]).getLast?).or (cache.lookup k) := by
  rw [puts_singleton, afterPut]
  rcases cached c op with _ | ⟨k', e⟩
  · rfl
  · rcases eq_or_ne k' k with rfl | other
    · simp [AList.lookup_insert]
    · simp [AList.lookup_insert_ne other.symm, other]

omit [DecidableEq ι] in
lemma cache_of_advanced {c : ι → L2Config} {w : ι} {i : ℕ} {env : Env L2Effect}
    {m : ChainModule L2State} {op : ChainOp} {o : Outcome (ChainModule L2State) (Send L2Effect)}
    (adv : Advanced (callbacks (c w)) env m op o) (fits : Fits op.args)
    (runs : Runs m.user.lastSeenSeq op) (cache : UpdateCache) :
    ((outsOf o.sent).foldl (apply c w i) (cache, [])).1 = afterPut (c w) cache op := by
  obtain ⟨p, rest, parsed, result⟩ := runCommand_of_runs (c w) fits runs
  have run : ((callbacks (c w)).runCommand env m.user op.seq op.args).sent =
      if (c w).updateCacheEnabled && p.value != "" then
        [.populate p.key p.value (numberOfReplicas (c w) p.key)] else [] := by
    simp only [callbacks, result]
  rw [adv.outs, List.foldl_append, apply_fst_of_no_populate, run]
  · simp only [afterPut, cached, parsed]
    split <;> rfl
  · intro e he k v m' populate
    split at he
    · obtain ⟨_, _, _, _, rfl⟩ := forwardRequest_sent (c w) _ _ _ _ _ e he
      simp at populate
    · simp at he

/-- A worker's numbers of the last L1 commands at start-up. -/
def unseen (c : L2Config) : List ℤ := List.replicate c.l1Workers.sum (-1)

/-- The rows agree on a key unless puts to it are on their way, which then all travel in one
chain and end with the put the head has in its cache. -/
structure Agree (cfg : ι → L2Config) (n : ℕ) (col : L2Column ι) : Prop where
  flow : ∀ w, Flow (replayable (cfg w)) (unseen (cfg w)) (col.net w)
  rows : ∀ w, (col.net w).rows = n
  last : ∀ w i k e, i < n → (puts (cfg w) k (col.missing w i)).getLast? = some e →
    (col.cache 0).lookup k = some e
  same : ∀ i k, i < n → (∀ w, puts (cfg w) k (col.missing w i) = []) →
    (col.cache i).lookup k = (col.cache 0).lookup k
  single : ∀ k w w' i i', i < n → i' < n → puts (cfg w) k (col.missing w i) ≠ [] →
    puts (cfg w') k (col.missing w' i') ≠ [] → w = w'

variable {col' : L2Column ι} {w : ι} {i : ℕ} {op : ChainOp}

lemma Agree.run_head (h : Agree cfg n col)
    (flow : ∀ w, Flow (replayable (cfg w)) (unseen (cfg w)) (col'.net w))
    (rows : ∀ w, (col'.net w).rows = n)
    (here : ∀ j, 0 < j → j < n → col'.missing w j = col.missing w j ++ [op])
    (there : ∀ w' j, w' ≠ w → j < n → col'.missing w' j = col.missing w' j)
    (head : ∀ w', col'.missing w' 0 = [])
    (cache : col'.cache = Function.update col.cache 0 (afterPut (cfg w) (col.cache 0) op))
    (alone : ∀ k, puts (cfg w) k [op] ≠ [] →
      ∀ w' j, w' ≠ w → j < n → puts (cfg w') k (col.missing w' j) = []) : Agree cfg n col' := by
  have lookup : ∀ k, (col'.cache 0).lookup k =
      ((puts (cfg w) k [op]).getLast?).or ((col.cache 0).lookup k) := by
    intro k
    rw [cache, Function.update_self, lookup_afterPut]
  have other : ∀ j, j ≠ 0 → col'.cache j = col.cache j := fun j hj => by simp [cache, hj]
  refine ⟨flow, rows, ?_, ?_, ?_⟩
  · intro w₁ j k e hj found
    rw [lookup]
    rcases Nat.eq_zero_or_pos j with rfl | positive
    · simp [head] at found
    rcases eq_or_ne w₁ w with rfl | hw
    · rw [here j positive hj, puts_append, List.getLast?_append] at found
      cases new : (puts (cfg w₁) k [op]).getLast? with
      | none =>
        rw [new, Option.none_or] at found
        rw [Option.none_or]
        exact h.last w₁ j k e hj found
      | some e' =>
        rw [new, Option.some_or] at found
        rw [Option.some_or, found]
    · rw [there w₁ j hw hj] at found
      rcases eq_or_ne (puts (cfg w) k [op]) [] with none | put
      · rw [none]
        exact h.last w₁ j k e hj found
      · rw [alone k put w₁ j hw hj] at found
        simp at found
  · intro j k hj none
    rcases Nat.eq_zero_or_pos j with rfl | positive
    · rfl
    have empty := none w
    rw [here j positive hj, puts_append, List.append_eq_nil_iff] at empty
    rw [other j (by omega), lookup, empty.2]
    refine h.same j k hj fun w' => ?_
    rcases eq_or_ne w' w with rfl | hw
    · exact empty.1
    · rw [← there w' j hw hj]
      exact none w'
  · intro k w₁ w₂ j j' hj hj' first second
    rcases eq_or_ne (puts (cfg w) k [op]) [] with none | put
    · have old : ∀ w' l, l < n → puts (cfg w') k (col'.missing w' l) ≠ [] →
          puts (cfg w') k (col.missing w' l) ≠ [] := by
        intro w' l hl some
        rcases Nat.eq_zero_or_pos l with rfl | positive
        · simp [head] at some
        rcases eq_or_ne w' w with rfl | hw
        · rw [here l positive hl, puts_append, none, List.append_nil] at some
          exact some
        · exact there w' l hw hl ▸ some
      exact h.single k w₁ w₂ j j' hj hj' (old w₁ j hj first) (old w₂ j' hj' second)
    · have mine : ∀ w' l, l < n → puts (cfg w') k (col'.missing w' l) ≠ [] → w' = w := by
        intro w' l hl some
        by_contra hw
        rw [there w' l hw hl] at some
        exact some (alone k put w' l hw hl)
      rw [mine w₁ j hj first, mine w₂ j' hj' second]

lemma Agree.run_row (h : Agree cfg n col)
    (flow : ∀ w, Flow (replayable (cfg w)) (unseen (cfg w)) (col'.net w))
    (rows : ∀ w, (col'.net w).rows = n) (hi : 0 < i) (hin : i < n)
    (here : col.missing w i = op :: col'.missing w i)
    (there : ∀ w' j, (w' ≠ w ∨ j ≠ i) → j < n → col'.missing w' j = col.missing w' j)
    (cache : col'.cache = Function.update col.cache i (afterPut (cfg w) (col.cache i) op)) :
    Agree cfg n col' := by
  have head : col'.cache 0 = col.cache 0 := by rw [cache, Function.update_of_ne (by omega)]
  have split : ∀ k, puts (cfg w) k (col.missing w i) =
      puts (cfg w) k [op] ++ puts (cfg w) k (col'.missing w i) := by
    intro k
    rw [here, ← puts_append]
    rfl
  have fewer : ∀ w' k j, j < n → puts (cfg w') k (col'.missing w' j) ≠ [] →
      puts (cfg w') k (col.missing w' j) ≠ [] := by
    intro w' k j hj some
    rcases Classical.em (w' ≠ w ∨ j ≠ i) with away | at_
    · exact there w' j away hj ▸ some
    · obtain ⟨rfl, rfl⟩ : w' = w ∧ j = i := by tauto
      rw [split]
      exact fun none => some (List.append_eq_nil_iff.mp none).2
  refine ⟨flow, rows, ?_, ?_, ?_⟩
  · intro w₁ j k e hj found
    rw [head]
    rcases Classical.em (w₁ ≠ w ∨ j ≠ i) with away | at_
    · rw [there w₁ j away hj] at found
      exact h.last w₁ j k e hj found
    · obtain ⟨rfl, rfl⟩ : w₁ = w ∧ j = i := by tauto
      refine h.last w₁ j k e hj ?_
      rw [split, List.getLast?_append, found]
      rfl
  · intro j k hj none
    rw [head]
    rcases eq_or_ne j i with rfl | hji
    · rw [cache, Function.update_self, lookup_afterPut]
      have rest : ∀ w', w' ≠ w → puts (cfg w') k (col.missing w' j) = [] := fun w' hw => by
        rw [← there w' j (.inl hw) hj]
        exact none w'
      cases new : (puts (cfg w) k [op]).getLast? with
      | none =>
        rw [Option.none_or]
        refine h.same j k hj fun w' => ?_
        rcases eq_or_ne w' w with rfl | hw
        · rw [split, none, List.append_nil]
          exact List.getLast?_eq_none_iff.mp new
        · exact rest w' hw
      | some e =>
        rw [Option.some_or]
        refine (h.last w j k e hj ?_).symm
        rw [split, none, List.append_nil, new]
    · rw [cache, Function.update_of_ne hji]
      refine h.same j k hj fun w' => ?_
      rw [← there w' j (.inr hji) hj]
      exact none w'
  · intro k w₁ w₂ j j' hj hj' first second
    exact h.single k w₁ w₂ j j' hj hj' (fewer w₁ k j hj first) (fewer w₂ k j' hj' second)

omit [DecidableEq ι] in
lemma Agree.quiet (h : Agree cfg n col)
    (flow : ∀ w, Flow (replayable (cfg w)) (unseen (cfg w)) (col'.net w))
    (rows : ∀ w, (col'.net w).rows = n)
    (ran : ∀ w j, ((col'.net w).node j).ran = ((col.net w).node j).ran)
    (cache : col'.cache = col.cache) : Agree cfg n col' := by
  have missing : ∀ w j, col'.missing w j = col.missing w j := fun w j => by
    simp only [L2Column.missing, ran]
  refine ⟨flow, rows, ?_, ?_, ?_⟩
  · intro w j k e
    rw [missing, cache]
    exact h.last w j k e
  · intro j k hj none
    rw [cache]
    exact h.same j k hj fun w => missing w j ▸ none w
  · intro k w w' j j'
    rw [missing, missing]
    exact h.single k w w' j j'

/-- A replica makes a chain request of a direct one: it is head, and the request is new and for a
known key. -/
def Accepts (cfg : L2Config) (m : ChainModule L2State) (op : L2Operation) : Prop :=
  m.isHead = true ∧ op.key ∈ cfg.keyToNumberOfReplicas ∧
    ∃ last ∈ seenAt m.user.lastSeenSeq op.seqId.l1Idx, last < op.seqId.l1SeqNo

/-- A put is accepted only while no other worker's chain carries a put to the same key. -/
def NoRivalPut (cfg : ι → L2Config) (col : L2Column ι) : L2Label ι → Prop
  | .request w i op => Accepts (cfg w) ((col.net w).node i) op → op.value ≠ "" →
    ∀ w', w' ≠ w → ¬ PutInFlight cfg col w' op.key
  | _ => True

def steadyPuts (cfg : ι → L2Config) (col : L2Column ι) (l : Outside L2Effect × L2Label ι) : Prop :=
  l.2.steady = true ∧ NoRivalPut cfg col l.2

section Steps

omit [DecidableEq ι] in
lemma ran_eq_append_missing (h : Agree cfg n col) (w : ι) {j : ℕ} (hj : j < n) :
    ((col.net w).node 0).ran = ((col.net w).node j).ran ++ col.missing w j := by
  obtain ⟨rest, split⟩ := (h.flow w).prefix_of_le (Nat.zero_le j) (by rw [h.rows]; exact hj)
  simp only [missing, ← split, List.drop_left]

omit [DecidableEq ι] in
lemma mem_link_of_mem_missing (h : Agree cfg n col) {w : ι} {j : ℕ} (hj : j < n) {op : ChainOp}
    (hop : op ∈ col.missing w j) : ∃ i, op ∈ (col.net w).link i (i + 1) := by
  induction j with
  | zero => simp [missing] at hop
  | succ j ih =>
    have step := (h.flow w).link j (by rw [h.rows]; exact hj)
    have here := ran_eq_append_missing h w hj
    have before := ran_eq_append_missing h w (show j < n by omega)
    rw [step, List.append_assoc] at before
    have tail := List.append_cancel_left (here.symm.trans before)
    rw [tail, List.mem_append] at hop
    rcases hop with flying | older
    · exact ⟨j, flying⟩
    · exact ih (by omega) older

omit [DecidableEq ι] in
lemma puts_missing_eq_nil (h : Agree cfg n col) {w : ι} {j : ℕ} {k : String} (hj : j < n)
    (none : ¬ PutInFlight cfg col w k) : puts (cfg w) k (col.missing w j) = [] := by
  by_contra some
  obtain ⟨e, he⟩ := List.exists_mem_of_ne_nil _ some
  obtain ⟨op, hop, put⟩ := List.mem_filterMap.mp he
  obtain ⟨i, flying⟩ := mem_link_of_mem_missing h hj hop
  exact none ⟨i, i + 1, List.ne_nil_of_mem (List.mem_filterMap.mpr ⟨op, flying, put⟩)⟩

lemma flow_update (h : Agree cfg n col) {net : ChainNet L2State}
    (flow : Flow (replayable (cfg w)) (unseen (cfg w)) net) :
    ∀ w', Flow (replayable (cfg w')) (unseen (cfg w')) (Function.update col.net w net w') := by
  intro w'
  rcases eq_or_ne w' w with rfl | hw
  · simpa using flow
  · simpa [hw] using h.flow w'

lemma rows_update (h : Agree cfg n col) {net : ChainNet L2State} (rows : net.rows = n) :
    ∀ w', (Function.update col.net w net w').rows = n := by
  intro w'
  rcases eq_or_ne w' w with rfl | hw
  · simpa using rows
  · simpa [hw] using h.rows w'

lemma Agree.absorb_quiet (h : Agree cfg n col) {r : NetResult L2State L2Effect}
    (flow : Flow (replayable (cfg w)) (unseen (cfg w)) r.net) (rows : r.net.rows = n)
    (ran : ∀ j, (r.net.node j).ran = ((col.net w).node j).ran)
    (outs : ∀ e ∈ r.outs, ∀ k v m, e ≠ .populate k v m) :
    Agree cfg n (col.absorb cfg w i r).column := by
  refine h.quiet (flow_update h flow) (rows_update h rows) ?_ ?_
  · intro w' j
    rcases eq_or_ne w' w with rfl | hw
    · simpa [absorb] using ran j
    · simp [absorb, hw]
  · simp only [absorb, apply_fst_of_no_populate w i r.outs outs, Function.update_eq_self]

lemma ran_deposit (net : ChainNet L2State) {o : Outcome (ChainModule L2State) (Send L2Effect)}
    (j : ℕ) (ran : o.state.ran = (net.node i).ran ++ [op]) :
    ((net.deposit i o).node j).ran =
      if j = i then (net.node i).ran ++ [op] else (net.node j).ran := by
  rcases eq_or_ne j i with rfl | hj
  · simpa using ran
  · simp [hj]

lemma Advanced.ran_state {m : ChainModule L2State} {env : Env L2Effect} {c : L2Config}
    {o : Outcome (ChainModule L2State) (Send L2Effect)}
    (adv : Advanced (callbacks c) env m op o) : o.state.ran = m.ran ++ [op] := by
  rw [adv.state, withUser_ran, record_ran]

lemma puts_argsOf {c : L2Config} {k : String} {clock : Option Int64} {o : L2Operation}
    {seq : SequenceId} (put : puts c k [⟨seq, argsOf clock o⟩] ≠ []) :
    o.value ≠ "" ∧ o.key = k := by
  have parsed := @L2Operation.deserialize_serialize
    { o with seqId := timed clock o.seqId } [] (by simp [L2Operation.NoField])
  rw [List.append_nil] at parsed
  simp only [puts_singleton, cached, argsOf, parsed, L2Operation.plain] at put
  rcases Classical.em ((c.updateCacheEnabled && o.value != "") = true) with enabled | disabled
  · rw [if_pos enabled] at put
    refine ⟨by simpa using (Bool.and_eq_true_iff.mp enabled).2, ?_⟩
    by_contra other
    simp [other] at put
  · rw [if_neg disabled] at put
    simp at put

lemma missing_head (h : Agree cfg n col)
    {o : Outcome (ChainModule L2State) (Send L2Effect)} {col' : L2Column ι}
    (ran : o.state.ran = ((col.net w).node 0).ran ++ [op])
    (chain : col'.net = Function.update col.net w ((col.net w).deposit 0 o)) {j : ℕ}
    (positive : 0 < j) (hj : j < n) : col'.missing w j = col.missing w j ++ [op] := by
  have split := ran_eq_append_missing h w hj
  have first := ran_deposit (col.net w) 0 ran
  have later := ran_deposit (col.net w) j ran
  rw [if_pos rfl] at first
  rw [if_neg (by omega)] at later
  simp only [missing, chain, Function.update_self]
  rw [first, later, List.drop_append_of_le_length]
  rw [split, List.length_append]
  omega

theorem Agree.request (h : Agree cfg n col) {ext : Outside L2Effect} {o : L2Operation}
    (alive : (col.net w).alive i = true)
    (alone : Accepts (cfg w) ((col.net w).node i) o → o.value ≠ "" →
      ∀ w', w' ≠ w → ¬ PutInFlight cfg col w' o.key) :
    Agree cfg n (col.absorb cfg w i ((col.net w).finish i (asyncOperation (cfg w)
      ((col.net w).env ext ((col.net w).node i)) ((col.net w).node i) o))).column := by
  obtain ⟨flow, ⟨state, sent⟩ | ⟨rfl, known, runs, adv⟩⟩ :=
    flow_asyncOperation (cfg w) (h.flow w) ext alive o
  · refine h.absorb_quiet flow (h.rows w) ?_ (by simp [finish, sent])
    intro j
    rcases eq_or_ne j i with rfl | hj
    · simp [finish, state]
    · simp [finish, hj]
  · refine h.run_head (flow_update h flow) (rows_update h (h.rows w)) ?_ ?_ ?_
      (congrArg (Function.update col.cache 0)
        (cache_of_advanced adv (fits_serialize _) runs (col.cache 0))) ?_
    · intro j positive hj
      exact missing_head h (Advanced.ran_state adv) rfl positive hj
    · intro w' j hw _
      simp [missing, absorb, hw]
    · intro w'
      simp [missing]
    · intro k put w' j hw hj
      obtain ⟨value, key⟩ := puts_argsOf put
      obtain ⟨last, found, new⟩ := runs
      rw [numbered_l1Idx, timed_l1Idx] at found
      rw [numbered_l1SeqNo, timed_l1SeqNo] at new
      have accepts : Accepts (cfg w) ((col.net w).node 0) o :=
        ⟨((h.flow w).isHead_iff alive).mpr rfl, known, last, found, new⟩
      exact puts_missing_eq_nil h hj (key ▸ alone accepts value w' hw)

theorem Agree.deliver (h : Agree cfg n col) {ext : Outside L2Effect} {a b : ℕ}
    {rest : List ChainOp} (alive : (col.net w).alive b = true)
    (popped : (col.net w).link a b = op :: rest) :
    Agree cfg n (col.absorb cfg w b (((col.net w).setLink a b rest).finish b
      ((meet ((col.net w).node b) a).chainRequest (callbacks (cfg w))
        ((col.net w).env ext (meet ((col.net w).node b) a)) op.seq op.args))).column := by
  obtain ⟨flow, rfl, adv⟩ := (h.flow w).deliver ext alive popped
  have user : (meet ((col.net w).node (a + 1)) a).user = ((col.net w).node (a + 1)).user := by
    unfold meet
    split <;> rfl
  have ran := Advanced.ran_state adv
  rw [(agrees_meet _ a).ran] at ran
  have inside : a + 1 < n := by simpa [(h.flow w).alive, h.rows w] using alive
  have before := (h.flow w).link a (by rw [h.rows]; exact inside)
  rw [popped] at before
  obtain ⟨fits, runs⟩ := (h.flow w).valid a _ _ _ before
  rw [← (h.flow w).view (a + 1), ← user] at runs
  have split := ran_eq_append_missing h w inside
  have longer := ran_eq_append_missing h w (show a < n by omega)
  rw [before, List.append_assoc] at longer
  have first := List.append_cancel_left (split.symm.trans longer)
  refine h.run_row (flow_update h flow) (rows_update h (h.rows w)) (Nat.succ_pos a) inside ?_ ?_
    (congrArg (Function.update col.cache (a + 1))
      (cache_of_advanced adv fits runs (col.cache (a + 1))))
  · have here := ran_deposit ((col.net w).setLink a (a + 1) rest) (a + 1) ran
    have head := ran_deposit ((col.net w).setLink a (a + 1) rest) 0 ran
    rw [if_pos rfl] at here
    rw [if_neg (by omega)] at head
    have all : ((col.net w).node 0).ran =
        ((col.net w).node (a + 1)).ran ++ [op] ++ (rest ++ col.missing w a) := by
      rw [longer]
      simp
    have tail : ((col.net w).node 0).ran.drop (((col.net w).node (a + 1)).ran ++ [op]).length =
        rest ++ col.missing w a := by
      rw [all, List.drop_left]
    rw [first, List.cons_append, ← tail]
    congr 1
    simp only [missing, absorb, finish, Function.update_self]
    rw [here, head]
    rfl
  · intro w' j away hj
    rcases eq_or_ne w' w with rfl | hw
    · have hja : j ≠ a + 1 := by tauto
      simp [missing, absorb, finish, hja, setLink]
    · simp [missing, absorb, hw]

theorem Agree.ackBatch (h : Agree cfg n col) {net : ChainNet L2State} {env : Env L2Effect}
    {i' : ℕ} {seqs : List SequenceId} (flow : Flow (replayable (cfg w)) (unseen (cfg w)) net)
    (node : net.node = (col.net w).node) (rows : net.rows = n) :
    Agree cfg n (col.absorb cfg w i'
      (net.finish i ((net.node i).ackBatch (callbacks (cfg w)) env seqs))).column := by
  obtain ⟨p, a, u, state⟩ := (ackBatch_effect (callbacks (cfg w)) env (net.node i) seqs
    (P := fun _ => True) (by simp) (by simp)).frame
  refine h.absorb_quiet (flow.ackBatch env i seqs) rows ?_ ?_
  · intro j
    rcases eq_or_ne j i with rfl | hj
    · simp only [finish, deposit_node, Function.update_self]
      rw [state, node]
    · simp [finish, hj, node]
  · intro e he k v m populate
    obtain ⟨batch, rfl⟩ := outs_ackBatch (cfg w) env (net.node i) seqs e he
    simp at populate

theorem Agree.step (h : Agree cfg n col) {ext : Outside L2Effect} {l : L2Label ι}
    {r : L2Result ι} (steady : l.steady = true) (alone : NoRivalPut cfg col l)
    (taken : col.step cfg ext l = some r) : Agree cfg n r.column := by
  cases l with
  | request w i o =>
    simp only [L2Column.step, Option.ite_none_right_eq_some, Option.some.injEq] at taken
    obtain ⟨alive, rfl⟩ := taken
    exact h.request alive alone
  | chain w l =>
    simp only [L2Column.step, Option.ite_none_right_eq_some, Option.map_eq_some_iff] at taken
    obtain ⟨internal, t, taken, rfl⟩ := taken
    cases l with
    | deliver a b =>
      simp only [ChainNet.step] at taken
      split at taken
      · simp at taken
      · next op rest popped =>
        simp only [Option.ite_none_right_eq_some, Option.some.injEq] at taken
        obtain ⟨alive, rfl⟩ := taken
        exact h.deliver alive popped
    | ackDeliver k =>
      simp only [ChainNet.step] at taken
      split at taken
      · simp at taken
      · next a found =>
        simp only [Option.ite_none_right_eq_some, Option.some.injEq] at taken
        obtain ⟨_, rfl⟩ := taken
        exact h.ackBatch ((h.flow w).dropAck ((col.net w).acks.eraseIdx k)) rfl (h.rows w)
    | request | ackFrom | touch | crash => simp [NetLabel.internal] at internal
    | setup | fetch | resend | lose | loseAck => simp [L2Label.steady, NetLabel.steady] at steady
  | externalAck w i seqs =>
    simp only [L2Column.step, Option.ite_none_right_eq_some, Option.some.injEq] at taken
    obtain ⟨_, rfl⟩ := taken
    exact h.ackBatch (h.flow w) rfl (h.rows w)
  | crash i => simp [L2Label.steady] at steady

omit [DecidableEq ι] in
lemma agree_start (cfg : ι → L2Config) (rows : ℕ) : Agree cfg rows (start cfg rows) := by
  have flow : ∀ w, Flow (replayable (cfg w)) (unseen (cfg w)) ((start cfg rows).net w) :=
    fun w => Flow.start (replayable (cfg w)) rows _ _ fun _ _ => rfl
  have missing : ∀ w j, (start cfg rows).missing w j = [] := fun _ _ => rfl
  exact ⟨flow, fun _ => rfl, by simp [missing], fun _ _ _ _ => rfl, by simp [missing]⟩

end Steps

/-- No chain request is in flight. -/
def Idle (col : L2Column ι) : Prop :=
  ∀ w, ∀ i < (col.net w).rows, ∀ j < (col.net w).rows, (col.net w).link i j = []

omit [DecidableEq ι] in
lemma missing_of_idle (h : Agree cfg n col) (idle : col.Idle) (w : ι) {j : ℕ} (hj : j < n) :
    col.missing w j = [] := by
  have all : ((col.net w).node j).ran = ((col.net w).node 0).ran := by
    refine (h.flow w).ran_eq (fun i hi => ?_) (by rw [h.rows]; exact hj)
    exact idle w i (by omega) (i + 1) hi
  simp [missing, all]

/-- In every run without failures in which a put is accepted only while no other worker's
chain carries a put to the same key, all instances of the column hold the same cache
whenever no chain request is in flight, and serve the same value for every replica. -/
theorem caches_agree (h : Reaches (l2System cfg) (steadyPuts cfg) col) (idle : col.Idle) :
    ∀ w, ∀ i < (col.net w).rows, ∀ j < (col.net w).rows,
      (col.cache i).SameContents (col.cache j) ∧
        ∀ key replica, (col.cache i).checkForUpdateImmutable key replica =
          (col.cache j).checkForUpdateImmutable key replica := by
  have inv : ∃ n, Agree cfg n col := by
    refine h.invariant (P := fun col => ∃ n, Agree cfg n col) ?_ ?_
    · rintro _ ⟨rows, rfl⟩
      exact ⟨rows, agree_start cfg rows⟩
    · rintro s l t ⟨n, agree⟩ ⟨steady, alone⟩ taken
      obtain ⟨r, hr, rfl⟩ := Option.map_eq_some_iff.mp taken
      exact ⟨n, agree.step steady alone hr⟩
  obtain ⟨n, agree⟩ := inv
  intro w i hi j hj
  rw [agree.rows] at hi hj
  have same : (col.cache i).SameContents (col.cache j) := by
    intro k
    have none : ∀ l < n, ∀ w, puts (cfg w) k (col.missing w l) = [] := fun l hl w => by
      rw [missing_of_idle agree idle w hl]
      rfl
    rw [agree.same i k hi (none i hi), agree.same j k hj (none j hj)]
  exact ⟨same, same.check⟩

/-- A column of two workers for one key with three replicas. -/
def twoWorkers (w : Fin 2) : L2Config where
  idx := w
  dummyKey := "d"
  replicaToLabel := (∅ : AList (fun _ : String => ℕ)) |>.insert "a0" 0 |>.insert "a1" 1
    |>.insert "a2" 2
  keyToNumberOfReplicas := (∅ : AList (fun _ : String => ℤ)) |>.insert "a" 3
  updateCacheEnabled := true
  ackBatchSize := 1
  l1Workers := [1]
  l3Workers := [1]

/-- Two puts to the key, numbered by one L1 worker. -/
def putX : L2Operation := ⟨{ l1SeqNo := 3 }, "a", 2, "x"⟩

def putY : L2Operation := ⟨{ l1SeqNo := 4 }, "a", 1, "y"⟩

/-- The head applies the first put before the second, the other row the second before the
first. -/
def crossingPuts : List (Outside L2Effect × L2Label (Fin 2)) :=
  [.request 0 0 putX, .request 1 0 putY, .chain 1 (.deliver 0 1), .chain 0 (.deliver 0 1)].map
    fun l => (⟨fun _ => true, none⟩, l)

/-- The two puts hash to different workers, and their chains deliver them in opposite
orders: with no request in flight the two rows hold different values for the key. -/
theorem caches_differ_after_crossingPuts :
    murmurHash64A (labelName putX) 1995 % 2 = 0 ∧ murmurHash64A (labelName putY) 1995 % 2 = 1 ∧
    ∃ col, Reaches (l2System twoWorkers) (fun _ l => l.2.steady = true) col ∧ col.Idle ∧
      (col.net 0).rows = 2 ∧ ((col.cache 0).lookup "a").map CacheEntry.value = some "y" ∧
      ((col.cache 1).lookup "a").map CacheEntry.value = some "x" := by
  have start : (l2System twoWorkers).init (L2Column.start twoWorkers 2) := ⟨2, rfl⟩
  have reached := Reaches.of_replay (fun _ l => l.2.steady = true) crossingPuts start rfl
  refine ⟨by decide, by decide, _, reached, ?_, rfl, rfl, rfl⟩
  intro w
  fin_cases w <;>
  · intro i hi j hj
    replace hi : i < 2 := hi
    replace hj : j < 2 := hj
    interval_cases i <;> interval_cases j <;> rfl

/-- One put travels down the chain of its worker alone. -/
theorem caches_agree_after_one_put :
    ∃ col, Reaches (l2System twoWorkers) (steadyPuts twoWorkers) col ∧ col.Idle ∧
      ((col.cache 1).lookup "a").map CacheEntry.value = some "x" ∧
      (col.cache 0).SameContents (col.cache 1) := by
  have start : (l2System twoWorkers).init (L2Column.start twoWorkers 2) := ⟨2, rfl⟩
  have put : Reaches (l2System twoWorkers) (steadyPuts twoWorkers) _ :=
    .step (l := (⟨fun _ => true, none⟩, .request 0 0 putX)) (.init start)
      ⟨rfl, fun _ _ _ _ ⟨_, _, flying⟩ => flying rfl⟩ rfl
  have delivered : Reaches (l2System twoWorkers) (steadyPuts twoWorkers) _ :=
    .step (l := (⟨fun _ => true, none⟩, .chain 0 (.deliver 0 1))) put ⟨rfl, trivial⟩ rfl
  refine ⟨_, delivered, ?idle, rfl, (caches_agree delivered ?idle 0 0 (by decide) 1 (by decide)).1⟩
  intro w
  fin_cases w <;>
  · intro i hi j hj
    replace hi : i < 2 := hi
    replace hj : j < 2 := hj
    interval_cases i <;> interval_cases j <;> rfl

end Shortstack.L2Column
