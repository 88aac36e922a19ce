import Shortstack.Initializer

/-! The frequencies of a trace. Every line holds an operation, a key and for a put a value;
the real distribution gives each key its share of the lines. The iteration order of the
hash map is an argument. -/
namespace Shortstack

/-- What `load_frequencies_from_trace` has read so far. -/
structure TraceState where
  getKeys : List String
  putKeys : List String
  putValues : List String
  trace : List (List String × List String)
  keyToFrequency : AList (fun _ : String => ℤ)
  frequencySum : ℤ

namespace TraceState

def empty : TraceState := ⟨[], [], [], [], ∅, 0⟩

/-- The part of a text before its first blank. -/
def beforeBlank (s : String) : String := .ofList (s.toList.takeWhile (· ≠ ' '))

/-- The part after the first blank; without a blank `find` returns `npos` and the part is the
whole text. -/
def afterBlank (s : String) : String :=
  match s.toList.dropWhile (· ≠ ' ') with
  | [] => s
  | _ :: rest => .ofList rest

/-- Key and value of a line. -/
def parseLine (line : String) : String × String :=
  let key := afterBlank line
  if ' ' ∈ key.toList then (beforeBlank key, afterBlank key) else (key, "")

def traceKey (line : String) : String := (parseLine line).1

/-- Put the line into the batch of its kind, and start a new batch when that one is full. -/
def addToBatch (clientBatchSize : ℤ) (st : TraceState) (key val : String) : TraceState :=
  if val = "" then
    let getKeys := st.getKeys ++ [key]
    if (getKeys.length : ℤ) = clientBatchSize then
      { st with
        getKeys := []
        trace := st.trace ++ [(getKeys, [])] }
    else { st with getKeys := getKeys }
  else
    let putKeys := st.putKeys ++ [key]
    let putValues := st.putValues ++ [val]
    if (putKeys.length : ℤ) = clientBatchSize then
      { st with
        putKeys := []
        putValues := []
        trace := st.trace ++ [(putKeys, putValues)] }
    else
      { st with
        putKeys := putKeys
        putValues := putValues }

def countKey (st : TraceState) (key : String) : TraceState :=
  { st with
    keyToFrequency := st.keyToFrequency.insert key
      (match st.keyToFrequency.lookup key with
        | none => 1
        | some f => f + 1)
    frequencySum := st.frequencySum + 1 }

/-- One line of the trace; an operation name in the place of the key fails an assertion. -/
def readLine (clientBatchSize : ℤ) (st : TraceState) (line : String) : Except String TraceState :=
  let (key, val) := parseLine line
  if key = "PUT" ∨ key = "GET" then .error "Assertion failed"
  else .ok ((st.addToBatch clientBatchSize key val).countKey key)

/-- The batches that are not full. -/
def flushBatches (st : TraceState) : List (List String × List String) :=
  st.trace ++ (if st.getKeys ≠ [] then [(st.getKeys, [])] else []) ++
    if st.putKeys ≠ [] then [(st.putKeys, st.putValues)] else []

end TraceState

def loadFrequenciesFromTrace (iterate : AList (fun _ : String => ℤ) → List (String × ℤ))
    (clientBatchSize : ℤ) (lines : List String) :
    Except String (Distribution × List (List String × List String)) :=
  match lines.foldlM (TraceState.readLine clientBatchSize) .empty with
  | .error e => .error e
  | .ok st =>
    let pairs := iterate st.keyToFrequency
    .ok (⟨pairs.map Prod.fst, pairs.map fun e => e.2 / (st.frequencySum : ℚ)⟩, st.flushBatches)

namespace TraceState
variable {st t : TraceState} {size : ℤ}

/-- The counters after the given lines. -/
structure Counted (lines : List String) (st : TraceState) : Prop where
  sum : st.frequencySum = lines.length
  count : ∀ k f, st.keyToFrequency.lookup k = some f ↔
    f = ((lines.map traceKey).count k : ℤ) ∧ 0 < f

lemma counted_empty : Counted [] empty :=
  ⟨rfl, fun k f => by simp [empty]; omega⟩

lemma Counted.readLine {lines : List String} (h : Counted lines st) {line : String}
    (read : readLine size st line = .ok t) : Counted (lines ++ [line]) t := by
  unfold TraceState.readLine at read
  have whole : t = (st.addToBatch size (parseLine line).1 (parseLine line).2).countKey
      (parseLine line).1 := by
    dsimp only at read
    split at read
    · simp at read
    · exact (Except.ok.inj read).symm
  have batch : ∀ key val, (st.addToBatch size key val).keyToFrequency = st.keyToFrequency ∧
      (st.addToBatch size key val).frequencySum = st.frequencySum := by
    intro key val
    unfold addToBatch
    split
    · dsimp only
      split <;> exact ⟨rfl, rfl⟩
    · dsimp only
      split <;> exact ⟨rfl, rfl⟩
  obtain ⟨same, total⟩ := batch (parseLine line).1 (parseLine line).2
  rw [whole]
  refine ⟨by simp [countKey, total, h.sum], fun k f => ?_⟩
  simp only [countKey, same, List.map_append, List.map_cons, List.map_nil, List.count_append]
  by_cases here : k = traceKey line
  · subst here
    have old := h.count (traceKey line)
    rw [show (parseLine line).1 = traceKey line from rfl, AList.lookup_insert,
      List.count_singleton_self]
    cases found : st.keyToFrequency.lookup (traceKey line) with
    | none =>
      have none : (lines.map traceKey).count (traceKey line) = 0 := by
        by_contra some'
        have := (old _).mpr ⟨rfl, by omega⟩
        rw [found] at this
        simp at this
      simp only [Option.some.injEq, none]
      omega
    | some g =>
      obtain ⟨value, _⟩ := (old g).mp found
      simp only [Option.some.injEq, value]
      push_cast
      omega
  · rw [show (parseLine line).1 = traceKey line from rfl, AList.lookup_insert_ne here,
      List.count_singleton, if_neg (by simpa using fun same => here same.symm), Nat.add_zero]
    exact h.count k f

lemma counted_of_read {lines : List String}
    (read : lines.foldlM (TraceState.readLine size) empty = .ok t) : Counted lines t := by
  have from_any : ∀ (lines before : List String) (st : TraceState), Counted before st →
      lines.foldlM (TraceState.readLine size) st = .ok t → Counted (before ++ lines) t := by
    intro lines
    induction lines with
    | nil =>
      intro before st h read
      obtain rfl : st = t := Except.ok.inj read
      simpa using h
    | cons line lines ih =>
      intro before st h read
      rw [List.foldlM_cons] at read
      cases first : TraceState.readLine size st line with
      | error e => rw [first] at read; simp [Bind.bind, Except.bind] at read
      | ok u =>
        rw [first] at read
        have := ih (before ++ [line]) u (h.readLine first) read
        simpa using this
  exact from_any lines [] empty counted_empty read

end TraceState

open TraceState

/-- Some order of the entries of the map. -/
def IterationOrder (iterate : AList (fun _ : String => ℤ) → List (String × ℤ)) : Prop :=
  ∀ m, (iterate m).Perm (m.entries.map fun e => (e.1, e.2))

/-- The share of a key in a trace. -/
def share (lines : List String) (k : String) : ℚ :=
  ((lines.map traceKey).count k : ℚ) / lines.length

/-- A trace that is not empty gives every key that occurs in it its share of the lines. -/
theorem real_of_load {iterate : AList (fun _ : String => ℤ) → List (String × ℤ)} {size : ℤ}
    {lines : List String} {dist : Distribution} {trace : List (List String × List String)}
    (order : IterationOrder iterate) (some' : lines ≠ [])
    (loaded : loadFrequenciesFromTrace iterate size lines = .ok (dist, trace)) :
    ∃ real : RealDistribution, real.toDistribution = dist ∧
      (∀ k, k ∈ dist.items ↔ k ∈ lines.map traceKey) ∧
      dist.probabilities = dist.items.map (share lines) := by
  unfold loadFrequenciesFromTrace at loaded
  split at loaded
  · simp at loaded
  · next st read =>
    have counted := counted_of_read read
    obtain ⟨rfl, -⟩ := Prod.mk.inj (Except.ok.inj loaded)
    have perm := order st.keyToFrequency
    have value : ∀ e ∈ iterate st.keyToFrequency,
        e.2 = ((lines.map traceKey).count e.1 : ℤ) ∧ 0 < e.2 := by
      intro e he
      obtain ⟨x, hx, rfl⟩ := List.mem_map.mp (perm.mem_iff.mp he)
      exact (counted.count x.1 x.2).mp (AList.mem_lookup_iff.mpr hx)
    have keys : ((iterate st.keyToFrequency).map Prod.fst).Perm st.keyToFrequency.keys := by
      have := perm.map Prod.fst
      rwa [List.map_map] at this
    have nodup : ((iterate st.keyToFrequency).map Prod.fst).Nodup :=
      keys.nodup_iff.mpr st.keyToFrequency.nodupKeys
    have occurs : ∀ k, k ∈ (iterate st.keyToFrequency).map Prod.fst ↔ k ∈ lines.map traceKey := by
      intro k
      rw [keys.mem_iff]
      constructor
      · intro mem
        obtain ⟨f, found⟩ := Option.isSome_iff_exists.mp (AList.lookup_isSome.mpr mem)
        have := (counted.count k f).mp found
        exact List.count_pos_iff.mp (by omega)
      · intro mem
        have pos := List.count_pos_iff.mpr mem
        have found := (counted.count k _).mpr ⟨rfl, by exact_mod_cast pos⟩
        exact AList.lookup_isSome.mp (by rw [found]; rfl)
    have probabilities : ((iterate st.keyToFrequency).map fun e => e.2 / (st.frequencySum : ℚ)) =
        ((iterate st.keyToFrequency).map Prod.fst).map (share lines) := by
      rw [List.map_map]
      refine List.map_congr_left fun e he => ?_
      rw [(value e he).1, counted.sum]
      simp [share]
    have pos : (0 : ℚ) < lines.length := by
      exact_mod_cast List.length_pos_iff.mpr some'
    have total : (((iterate st.keyToFrequency).map Prod.fst).map (share lines)).sum = 1 := by
      have distinct : ((iterate st.keyToFrequency).map Prod.fst).Perm (lines.map traceKey).dedup :=
        (List.perm_ext_iff_of_nodup nodup (List.nodup_dedup _)).mpr fun k => by
          rw [occurs, List.mem_dedup]
      have counts : ((lines.map traceKey).dedup.map (share lines)).sum =
          (((lines.map traceKey).dedup.map fun k => (lines.map traceKey).count k).sum : ℚ) /
            lines.length := by
        have each : share lines = fun k =>
            ((lines.map traceKey).count k : ℚ) * (lines.length : ℚ)⁻¹ :=
          funext fun k => div_eq_mul_inv ..
        rw [each, List.sum_map_mul_right, div_eq_mul_inv]
        push_cast
        rw [List.map_map]
        rfl
      rw [(distinct.map _).sum_eq, counts, List.sum_map_count_dedup_eq_length, List.length_map]
      exact div_self pos.ne'
    refine ⟨⟨⟨⟨_, _⟩, nodup, by simp, fun p hp => ?_⟩, (congrArg List.sum probabilities).trans total⟩, rfl,
      occurs, probabilities⟩
    obtain ⟨e, he, rfl⟩ := List.mem_map.mp hp
    rw [counted.sum]
    exact div_pos (by exact_mod_cast (value e he).2) (by exact_mod_cast pos)

end Shortstack
