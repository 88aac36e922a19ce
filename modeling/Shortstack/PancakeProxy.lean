import Shortstack.Storage
import Shortstack.UpdateCache

/-! The centralised proxy executes a batch in one go: it reads the labels of all its slots,
then serves the slots one after the other from what was read and from the update cache, and
writes all labels back. No new replicas are missing, and the store answers in order. -/
namespace Shortstack

structure PancakeConfig where
  keyToNumberOfReplicas : AList (fun _ : String => ℕ)
  replicaToLabel : AList (fun _ : String => ℕ)
  encrypt : String → String
  decrypt : String → String

structure PancakeState where
  store : Kv
  cache : UpdateCache

/-- An operation of a batch, whether it is a real one, and the replica drawn for it. -/
structure BatchSlot where
  key : String
  value : String
  isTrue : Bool
  replica : ℕ
  deriving DecidableEq, Repr

namespace PancakeProxy
variable (cfg : PancakeConfig)

def numReplicas (key : String) : ℕ := (cfg.keyToNumberOfReplicas.lookup key).getD 0

def label (key : String) (replica : ℕ) : String :=
  toString ((cfg.replicaToLabel.lookup (key ++ toString replica)).getD 0)

/-- The body of the loop over a batch: the plaintext that is answered and written back. -/
def serveSlot (cache : UpdateCache) (slot : BatchSlot) (plaintext : String) :
    String × UpdateCache :=
  let cache := if slot.value ≠ "" then
    cache.populateReplicaUpdates slot.key slot.value (numReplicas cfg slot.key) else cache
  let (update, cache) := cache.checkForUpdate slot.key slot.replica
  (if update = "" then plaintext else update, cache)

def serveSlots : List (BatchSlot × String) → UpdateCache → List String × UpdateCache
  | [], cache => ([], cache)
  | (slot, plaintext) :: rest, cache =>
    let (answer, cache) := serveSlot cfg cache slot plaintext
    let (answers, cache) := serveSlots rest cache
    (answer :: answers, cache)

/-- One label after the other, as the store applies a batch of writes. -/
def putAll : List (String × String) → Kv → Kv
  | [], store => store
  | (l, cipher) :: rest, store => putAll rest (Function.update store l (some cipher))

/-- `execute_batch`: the state after it and the promises of the slots that are real. -/
def executeBatch (s : PancakeState) (slots : List BatchSlot) :
    Except String (PancakeState × List (Option String)) :=
  match slots.mapM fun slot => s.store (label cfg slot.key slot.replica) with
  | none => .error "GET returned NULL value"
  | some responses =>
    let (answers, cache) := serveSlots cfg (slots.zip (responses.map cfg.decrypt)) s.cache
    .ok (⟨putAll ((slots.map fun slot => label cfg slot.key slot.replica).zip
        (answers.map cfg.encrypt)) s.store, cache⟩,
      List.zipWith (fun slot answer => if slot.isTrue then some answer else none) slots answers)

end PancakeProxy

/-- The value of the last put to each key. -/
def BatchSlot.updates (latest : String → String) (slot : BatchSlot) : String → String :=
  if slot.value ≠ "" then Function.update latest slot.key slot.value else latest

namespace PancakeProxy

/-- Replicas that are not pending hold the latest value of their key, and so does the cache. -/
structure Coherent (cfg : PancakeConfig) (latest : String → String) (s : PancakeState) : Prop where
  stored : ∀ k i, i < numReplicas cfg k → (s.store (label cfg k i)).isSome = true
  clear : ∀ k i, i < numReplicas cfg k → s.cache.pendingBit k i = false →
    (s.store (label cfg k i)).map cfg.decrypt = some (latest k)
  entry : ∀ k e, s.cache.lookup k = some e → e.value = latest k

/-- Labels of different replicas are different. -/
def LabelsApart (cfg : PancakeConfig) : Prop :=
  ∀ k i k' i', i < numReplicas cfg k → i' < numReplicas cfg k' →
    label cfg k i = label cfg k' i' → k = k' ∧ i = i'

/-- What a replica holds when the batch is read. -/
def held (cfg : PancakeConfig) (s : PancakeState) (k : String) (i : ℕ) : String :=
  ((s.store (label cfg k i)).map cfg.decrypt).getD ""

/-- The slot puts to the key. -/
def Puts (k : String) (slot : BatchSlot) : Prop := slot.key = k ∧ slot.value ≠ ""

/-- The replica is accessed by one of the slots, and none after it puts to its key. -/
def Touched (slots : List BatchSlot) (k : String) (i : ℕ) : Prop :=
  ∃ before slot after, slots = before ++ slot :: after ∧ slot.key = k ∧ slot.replica = i ∧
    ∀ x ∈ after, ¬ Puts k x

def latestAfter (latest : String → String) (slots : List BatchSlot) : String → String :=
  slots.foldl BatchSlot.updates latest

/-- A read of a replica whose update was taken by a slot before it, while what was read from
the store is older. The cache cannot pass on an empty value. -/
def Stale (cfg : PancakeConfig) (latest : String → String) (s : PancakeState)
    (before : List BatchSlot) (slot : BatchSlot) : Prop :=
  slot.value = "" ∧ held cfg s slot.key slot.replica ≠ latestAfter latest before slot.key ∧
    (latestAfter latest before slot.key = "" ∨ Touched before slot.key slot.replica)

section Spec
variable {cfg : PancakeConfig} {latest : String → String} {s : PancakeState}
  {slots before : List BatchSlot} {slot : BatchSlot}

lemma latestAfter_append (slots : List BatchSlot) (slot : BatchSlot) :
    latestAfter latest (slots ++ [slot]) = slot.updates (latestAfter latest slots) := by
  unfold latestAfter
  rw [List.foldl_append]
  rfl

lemma latestAfter_of_not_puts {slots : List BatchSlot} {k : String}
    (none : ∀ x ∈ slots, ¬ Puts k x) (latest : String → String) :
    latestAfter latest slots k = latest k := by
  induction slots generalizing latest with
  | nil => rfl
  | cons x slots ih =>
    unfold latestAfter at ih ⊢
    rw [List.foldl_cons, ih fun y mem => none y (List.mem_cons_of_mem _ mem)]
    unfold BatchSlot.updates
    split
    · next put =>
      refine Function.update_of_ne (fun same => ?_) _ _
      exact none x List.mem_cons_self ⟨same.symm, put⟩
    · rfl

lemma touched_append (slots : List BatchSlot) (slot : BatchSlot) (k : String) (i : ℕ) :
    Touched (slots ++ [slot]) k i ↔
      slot.key = k ∧ slot.replica = i ∨ Touched slots k i ∧ ¬ Puts k slot := by
  constructor
  · rintro ⟨before, x, after, split, key, replica, none⟩
    rcases List.eq_nil_or_concat after with rfl | ⟨after, y, rfl⟩
    · obtain ⟨rfl, same⟩ := List.append_inj' split rfl
      obtain rfl : slot = x := by simpa using same
      exact .inl ⟨key, replica⟩
    · rw [List.concat_eq_append, ← List.cons_append, ← List.append_assoc] at split
      obtain ⟨rfl, same⟩ := List.append_inj' split rfl
      obtain rfl : slot = y := by simpa using same
      refine .inr ⟨⟨before, x, after, rfl, key, replica, fun z mem => none z ?_⟩, none slot ?_⟩
      · simp [mem]
      · simp
  · rintro (⟨key, replica⟩ | ⟨⟨before, x, after, rfl, key, replica, none⟩, other⟩)
    · exact ⟨slots, slot, [], rfl, key, replica, by simp⟩
    · refine ⟨before, x, after ++ [slot], by simp, key, replica, fun z mem => ?_⟩
      rcases List.mem_append.mp mem with mem | mem
      · exact none z mem
      · rw [List.mem_singleton.mp mem]
        exact other

/-- The bits of the cache after some slots: pending, unless the replica was accessed since the
last put. -/
structure Tracks (cfg : PancakeConfig) (latest : String → String) (s : PancakeState)
    (before : List BatchSlot) (cache : UpdateCache) : Prop where
  bit : ∀ k i, i < numReplicas cfg k → (cache.pendingBit k i = true ↔
    ¬ Touched before k i ∧ ((∃ x ∈ before, Puts k x) ∨ s.cache.pendingBit k i = true))
  value : ∀ k e, cache.lookup k = some e → e.value = latestAfter latest before k

lemma tracks_nil (coherent : Coherent cfg latest s) : Tracks cfg latest s [] s.cache where
  bit k i _ := by
    have none : ¬ Touched [] k i := by
      rintro ⟨before, x, after, split, -⟩
      simp at split
    simp [none]
  value := coherent.entry

/-- The cache `check_for_update` finds. -/
def populated (cfg : PancakeConfig) (cache : UpdateCache) (slot : BatchSlot) : UpdateCache :=
  if slot.value ≠ "" then
    cache.populateReplicaUpdates slot.key slot.value (numReplicas cfg slot.key) else cache

lemma serveSlot_eq (cache : UpdateCache) (slot : BatchSlot) (plaintext : String) :
    serveSlot cfg cache slot plaintext =
      (if ((populated cfg cache slot).checkForUpdate slot.key slot.replica).1 = "" then plaintext
        else ((populated cfg cache slot).checkForUpdate slot.key slot.replica).1,
      ((populated cfg cache slot).checkForUpdate slot.key slot.replica).2) := rfl

lemma Tracks.filled {cache : UpdateCache} (h : Tracks cfg latest s before cache)
    (slot : BatchSlot) :
    (∀ k i, i < numReplicas cfg k → ((populated cfg cache slot).pendingBit k i = true ↔
      Puts k slot ∨ cache.pendingBit k i = true)) ∧
    ∀ k e, (populated cfg cache slot).lookup k = some e →
      e.value = latestAfter latest (before ++ [slot]) k := by
  rw [latestAfter_append]
  unfold populated BatchSlot.updates Puts
  split
  · next put =>
    constructor
    · intro k i inside
      rw [UpdateCache.pendingBit_populate]
      rcases eq_or_ne k slot.key with rfl | other
      · simp [inside, put]
      · simp [other, Ne.symm other]
    · intro k e found
      rw [UpdateCache.lookup_populate] at found
      rcases eq_or_ne k slot.key with rfl | other
      · rw [if_pos rfl] at found
        rw [← Option.some.inj found, Function.update_self]
      · rw [if_neg other] at found
        rw [Function.update_of_ne other]
        exact h.value k e found
  · next read =>
    refine ⟨fun k i _ => ?_, h.value⟩
    simp [not_not.mp read]

lemma Tracks.step {cache : UpdateCache} (h : Tracks cfg latest s before cache)
    (slot : BatchSlot) (plaintext : String) :
    Tracks cfg latest s (before ++ [slot]) (serveSlot cfg cache slot plaintext).2 where
  bit k i inside := by
    rw [serveSlot_eq, UpdateCache.pendingBit_checkForUpdate, touched_append]
    by_cases access : k = slot.key ∧ i = slot.replica
    · rw [if_pos access]
      simp [access.1, access.2]
    · rw [if_neg access, (h.filled slot).1 k i inside, h.bit k i inside]
      have apart : ¬ (slot.key = k ∧ slot.replica = i) := fun same => access ⟨same.1.symm, same.2.symm⟩
      simp only [List.mem_append, List.mem_singleton, or_and_right, exists_or, exists_eq_left]
      by_cases put : Puts k slot <;> simp [put, apart]
  value k e found := by
    rw [serveSlot_eq] at found
    obtain ⟨old, before', same⟩ := UpdateCache.checkForUpdate_value found
    rw [← same]
    exact (h.filled slot).2 k old before'

lemma Tracks.answer {cache : UpdateCache} (h : Tracks cfg latest s before cache)
    (coherent : Coherent cfg latest s) (inside : slot.replica < numReplicas cfg slot.key) :
    (Stale cfg latest s before slot → (serveSlot cfg cache slot
      (held cfg s slot.key slot.replica)).1 = held cfg s slot.key slot.replica) ∧
    (¬ Stale cfg latest s before slot → (serveSlot cfg cache slot
      (held cfg s slot.key slot.replica)).1 = latestAfter latest (before ++ [slot]) slot.key) := by
  have bits := (h.filled slot).1 slot.key slot.replica inside
  have values := (h.filled slot).2 slot.key
  rw [serveSlot_eq]
  dsimp only
  by_cases put : slot.value = ""
  · -- A read: the cache is the one the slots before have left.
    have same : latestAfter latest (before ++ [slot]) slot.key = latestAfter latest before slot.key := by
      rw [latestAfter_append, BatchSlot.updates, if_neg (not_not.mpr put)]
    have none : ¬ Puts slot.key slot := fun puts => puts.2 put
    rw [h.bit slot.key slot.replica inside] at bits
    rw [same] at values ⊢
    rcases UpdateCache.checkForUpdate_fst (populated cfg cache slot) slot.key slot.replica with
      ⟨set, e, found, update⟩ | ⟨unset, update⟩
    · rw [update, values e found]
      constructor
      · rintro ⟨-, -, empty | touched⟩
        · rw [if_pos empty]
        · exact absurd touched ((bits.mp set).resolve_left none).1
      · intro fresh
        split
        · next empty =>
          by_contra older
          exact fresh ⟨put, older, .inl empty⟩
        · rfl
    · rw [update, if_pos rfl]
      refine ⟨fun _ => rfl, fun fresh => ?_⟩
      by_contra older
      have open' : ¬ Touched before slot.key slot.replica :=
        fun touched => fresh ⟨put, older, .inr touched⟩
      rw [← Bool.not_eq_true, bits] at unset
      push Not at unset
      obtain ⟨unput, unset⟩ := unset.2 open'
      rw [latestAfter_of_not_puts unput] at older
      have clear := coherent.clear slot.key slot.replica inside (by simpa using unset)
      unfold held at older
      rw [clear] at older
      exact older rfl
  · have puts : Puts slot.key slot := ⟨rfl, put⟩
    refine ⟨fun stale => absurd stale.1 put, fun _ => ?_⟩
    rcases UpdateCache.checkForUpdate_fst (populated cfg cache slot) slot.key slot.replica with
      ⟨-, e, found, update⟩ | ⟨unset, -⟩
    · have value : latestAfter latest (before ++ [slot]) slot.key = slot.value := by
        rw [latestAfter_append, BatchSlot.updates, if_pos put, Function.update_self]
      rw [update, values e found, value, if_neg put]
    · rw [bits.mpr (.inl puts)] at unset
      simp at unset

lemma serveSlots_append (a b : List (BatchSlot × String)) (cache : UpdateCache) :
    serveSlots cfg (a ++ b) cache =
      ((serveSlots cfg a cache).1 ++ (serveSlots cfg b (serveSlots cfg a cache).2).1,
        (serveSlots cfg b (serveSlots cfg a cache).2).2) := by
  induction a generalizing cache with
  | nil => rfl
  | cons x a ih =>
    obtain ⟨slot, plaintext⟩ := x
    simp only [List.cons_append, serveSlots, ih]

lemma serveSlots_length (a : List (BatchSlot × String)) (cache : UpdateCache) :
    (serveSlots cfg a cache).1.length = a.length := by
  induction a generalizing cache with
  | nil => rfl
  | cons x a ih =>
    obtain ⟨slot, plaintext⟩ := x
    simp only [serveSlots, List.length_cons, ih]

/-- The slots with what is read for them. -/
def reads (cfg : PancakeConfig) (s : PancakeState) (slots : List BatchSlot) :
    List (BatchSlot × String) := slots.map fun x => (x, held cfg s x.key x.replica)

lemma tracks_serveSlots (coherent : Coherent cfg latest s) (slots : List BatchSlot) :
    Tracks cfg latest s slots (serveSlots cfg (reads cfg s slots) s.cache).2 := by
  induction slots using List.reverseRecOn with
  | nil => exact tracks_nil coherent
  | append_singleton slots x ih =>
    unfold reads at ih ⊢
    rw [List.map_append, serveSlots_append]
    exact ih.step x (held cfg s x.key x.replica)

/-- The plaintext a slot is answered with, after those before it. -/
def answerOf (cfg : PancakeConfig) (s : PancakeState) (before : List BatchSlot) (slot : BatchSlot) :
    String :=
  (serveSlot cfg (serveSlots cfg (reads cfg s before) s.cache).2 slot
    (held cfg s slot.key slot.replica)).1

lemma serveSlots_split (before : List BatchSlot) (slot : BatchSlot) (after : List BatchSlot) :
    ∃ rest, rest.length = after.length ∧ (serveSlots cfg (reads cfg s (before ++ slot :: after))
      s.cache).1 = (serveSlots cfg (reads cfg s before) s.cache).1 ++
        answerOf cfg s before slot :: rest := by
  unfold reads answerOf
  rw [List.map_append, List.map_cons, serveSlots_append]
  refine ⟨_, ?_, rfl⟩
  rw [serveSlots_length, List.length_map]

lemma answerOf_spec (coherent : Coherent cfg latest s) (before : List BatchSlot)
    (inside : slot.replica < numReplicas cfg slot.key) :
    (Stale cfg latest s before slot →
      answerOf cfg s before slot = held cfg s slot.key slot.replica) ∧
    (¬ Stale cfg latest s before slot →
      answerOf cfg s before slot = latestAfter latest (before ++ [slot]) slot.key) :=
  (tracks_serveSlots coherent before).answer coherent inside

lemma answerOf_eq_iff (coherent : Coherent cfg latest s) (before : List BatchSlot)
    (inside : slot.replica < numReplicas cfg slot.key) :
    answerOf cfg s before slot = latestAfter latest (before ++ [slot]) slot.key ↔
      ¬ Stale cfg latest s before slot := by
  refine ⟨fun right stale => ?_, (answerOf_spec coherent before inside).2⟩
  rw [(answerOf_spec coherent before inside).1 stale, latestAfter_append, BatchSlot.updates,
    if_neg (not_not.mpr stale.1)] at right
  exact stale.2.1 right

/-- The writes of a batch. -/
def writes (cfg : PancakeConfig) (slots : List BatchSlot) (answers : List String) :
    List (String × String) :=
  (slots.map fun x => label cfg x.key x.replica).zip (answers.map cfg.encrypt)

lemma putAll_other {pairs : List (String × String)} {store : Kv} {l : String}
    (other : ∀ p ∈ pairs, p.1 ≠ l) : putAll pairs store l = store l := by
  induction pairs generalizing store with
  | nil => rfl
  | cons p pairs ih =>
    obtain ⟨l', cipher⟩ := p
    rw [putAll, ih fun q mem => other q (List.mem_cons_of_mem _ mem)]
    exact Function.update_of_ne (Ne.symm (other _ List.mem_cons_self)) _ _

lemma putAll_last (a : List (String × String)) {b : List (String × String)} {store : Kv}
    {l cipher : String} (last : ∀ p ∈ b, p.1 ≠ l) :
    putAll (a ++ (l, cipher) :: b) store l = some cipher := by
  induction a generalizing store with
  | nil =>
    rw [List.nil_append, putAll, putAll_other last]
    exact Function.update_self ..
  | cons p a ih =>
    obtain ⟨l', cipher'⟩ := p
    rw [List.cons_append, putAll]
    exact ih

/-- The last slot that accesses a replica decides what is stored for it. -/
lemma putAll_writes_last (apart : LabelsApart cfg) {after : List BatchSlot}
    (inside : slot.replica < numReplicas cfg slot.key)
    (range : ∀ x ∈ after, x.replica < numReplicas cfg x.key)
    (last : ∀ x ∈ after, ¬ (x.key = slot.key ∧ x.replica = slot.replica)) (store : Kv) :
    putAll (writes cfg (before ++ slot :: after)
      (serveSlots cfg (reads cfg s (before ++ slot :: after)) s.cache).1) store
      (label cfg slot.key slot.replica) = some (cfg.encrypt (answerOf cfg s before slot)) := by
  obtain ⟨rest, size, answers⟩ := @serveSlots_split cfg s before slot after
  unfold writes
  rw [answers, List.map_append, List.map_append, List.map_cons, List.map_cons, List.zip_append,
    List.zip_cons_cons]
  · refine putAll_last _ fun p mem same => ?_
    obtain ⟨x, inAfter, named⟩ := List.mem_map.mp (List.of_mem_zip mem).1
    exact last x inAfter (apart _ _ _ _ (range x inAfter) inside (named.trans same))
  · rw [List.length_map, List.length_map, serveSlots_length, reads, List.length_map]

lemma putAll_writes_none (apart : LabelsApart cfg) {k : String} {i : ℕ}
    (inside : i < numReplicas cfg k) (range : ∀ x ∈ slots, x.replica < numReplicas cfg x.key)
    (none : ∀ x ∈ slots, ¬ (x.key = k ∧ x.replica = i)) (answers : List String) (store : Kv) :
    putAll (writes cfg slots answers) store (label cfg k i) = store (label cfg k i) := by
  refine putAll_other fun p mem same => ?_
  obtain ⟨x, inSlots, named⟩ := List.mem_map.mp (List.of_mem_zip mem).1
  exact none x inSlots (apart _ _ _ _ (range x inSlots) inside (named.trans same))

lemma exists_last {p : BatchSlot → Prop} (some' : ∃ x ∈ slots, p x) :
    ∃ before x after, slots = before ++ x :: after ∧ p x ∧ ∀ y ∈ after, ¬ p y := by
  induction slots with
  | nil => simp at some'
  | cons x slots ih =>
    by_cases later : ∃ y ∈ slots, p y
    · obtain ⟨before, y, after, rfl, py, none⟩ := ih later
      exact ⟨x :: before, y, after, rfl, py, none⟩
    · push Not at later
      obtain ⟨y, mem, py⟩ := some'
      rcases List.mem_cons.mp mem with rfl | mem
      · exact ⟨[], y, slots, rfl, py, later⟩
      · exact absurd py (later y mem)

/-- The state a batch leaves. -/
def served (cfg : PancakeConfig) (s : PancakeState) (slots : List BatchSlot) : PancakeState :=
  ⟨putAll (writes cfg slots (serveSlots cfg (reads cfg s slots) s.cache).1) s.store,
    (serveSlots cfg (reads cfg s slots) s.cache).2⟩

lemma executeBatch_eq (coherent : Coherent cfg latest s)
    (range : ∀ x ∈ slots, x.replica < numReplicas cfg x.key) :
    executeBatch cfg s slots = .ok (served cfg s slots,
      List.zipWith (fun slot answer => if slot.isTrue then some answer else none) slots
        (serveSlots cfg (reads cfg s slots) s.cache).1) := by
  have responses : ∃ rs, (slots.mapM fun x => s.store (label cfg x.key x.replica)) = some rs ∧
      slots.zip (rs.map cfg.decrypt) = reads cfg s slots := by
    induction slots with
    | nil => exact ⟨[], rfl, rfl⟩
    | cons x slots ih =>
      obtain ⟨rs, read, zipped⟩ := ih fun y mem => range y (List.mem_cons_of_mem _ mem)
      obtain ⟨c, found⟩ := Option.isSome_iff_exists.mp
        (coherent.stored x.key x.replica (range x List.mem_cons_self))
      refine ⟨c :: rs, ?_, ?_⟩
      · rw [List.mapM_cons, found, read]
        rfl
      · rw [List.map_cons, List.zip_cons_cons, zipped]
        simp [reads, held, found]
  obtain ⟨rs, read, zipped⟩ := responses
  unfold executeBatch
  rw [read]
  dsimp only
  rw [zipped]
  rfl

/-- The slot is the last that accesses its replica, and no put to its key comes after it. -/
structure Last (slots before : List BatchSlot) (slot : BatchSlot) (after : List BatchSlot) :
    Prop where
  split : slots = before ++ slot :: after
  access : ∀ x ∈ after, ¬ (x.key = slot.key ∧ x.replica = slot.replica)
  puts : ∀ x ∈ after, ¬ Puts slot.key x

lemma exists_last_of_touched {k : String} {i : ℕ} (touched : Touched slots k i) :
    ∃ before slot after, Last slots before slot after ∧ slot.key = k ∧ slot.replica = i := by
  obtain ⟨before, x, after, rfl, rfl, rfl, none⟩ := touched
  obtain ⟨mid, y, rest, split, ⟨key, replica⟩, last⟩ := @exists_last
    (x :: after) (fun y => y.key = x.key ∧ y.replica = x.replica) ⟨x, List.mem_cons_self, rfl, rfl⟩
  have later : ∀ z ∈ rest, z ∈ after := by
    intro z mem
    cases mid with
    | nil => exact (List.cons.inj split).2 ▸ mem
    | cons w mid =>
      rw [(List.cons.inj split).2]
      simp [mem]
  refine ⟨before ++ mid, y, rest, ⟨by rw [split]; simp, ?_, ?_⟩, key, replica⟩
  · rw [key, replica]
    exact last
  · rw [key]
    exact fun z mem => none z (later z mem)

/-- With no put after it, a stale slot makes the last access of its replica stale. -/
lemma exists_last_of_stale {after : List BatchSlot} (split : slots = before ++ slot :: after)
    (stale : Stale cfg latest s before slot) (none : ∀ x ∈ after, ¬ Puts slot.key x) :
    ∃ before' slot' after', Last slots before' slot' after' ∧ Stale cfg latest s before' slot' := by
  obtain ⟨mid, y, rest, found, ⟨key, replica⟩, last⟩ := @exists_last
    (slot :: after) (fun y => y.key = slot.key ∧ y.replica = slot.replica) ⟨slot, List.mem_cons_self, rfl, rfl⟩
  cases mid with
  | nil =>
    obtain ⟨rfl, rfl⟩ := List.cons.inj found
    exact ⟨before, slot, after, ⟨split, last, none⟩, stale⟩
  | cons w mid =>
    obtain ⟨rfl, rfl⟩ := List.cons.inj found
    have unput : ∀ x ∈ slot :: mid, ¬ Puts slot.key x := by
      intro x mem
      rcases List.mem_cons.mp mem with rfl | mem
      · exact fun put => put.2 stale.1
      · exact none x (by simp [mem])
    have same : latestAfter latest (before ++ slot :: mid) slot.key =
        latestAfter latest before slot.key := by
      have later := latestAfter_of_not_puts unput (latestAfter latest before)
      unfold latestAfter at later ⊢
      rw [List.foldl_append, later]
    refine ⟨before ++ slot :: mid, y, rest, ⟨by rw [split]; simp, ?_, ?_⟩, ?_, ?_, ?_⟩
    · rw [key, replica]
      exact last
    · rw [key]
      exact fun z mem => none z (by simp [mem])
    · by_contra put
      exact none y (by simp) ⟨key, put⟩
    · rw [key, replica, same]
      exact stale.2.1
    · rw [key, replica]
      exact .inr ⟨before, slot, mid, rfl, rfl, rfl, fun x mem => none x (by simp [mem])⟩

lemma served_last (apart : LabelsApart cfg) (round : ∀ v, cfg.decrypt (cfg.encrypt v) = v)
    (range : ∀ x ∈ slots, x.replica < numReplicas cfg x.key) {after : List BatchSlot}
    (last : Last slots before slot after) :
    ((served cfg s slots).store (label cfg slot.key slot.replica)).map cfg.decrypt =
      some (answerOf cfg s before slot) := by
  obtain ⟨rfl, access, -⟩ := last
  unfold served
  dsimp only
  rw [putAll_writes_last apart (range slot (by simp)) (fun x mem => range x (by simp [mem])) access,
    Option.map_some, round]

lemma Last.unchanged {after : List BatchSlot} (last : Last slots before slot after) :
    latestAfter latest slots slot.key = latestAfter latest (before ++ [slot]) slot.key := by
  have later := latestAfter_of_not_puts last.puts (latestAfter latest (before ++ [slot]))
  rw [← later, last.split]
  unfold latestAfter
  simp

lemma coherent_served_iff (apart : LabelsApart cfg) (round : ∀ v, cfg.decrypt (cfg.encrypt v) = v)
    (coherent : Coherent cfg latest s) (range : ∀ x ∈ slots, x.replica < numReplicas cfg x.key) :
    Coherent cfg (latestAfter latest slots) (served cfg s slots) ↔
      ∀ before slot after, slots = before ++ slot :: after → Stale cfg latest s before slot →
        ∃ x ∈ after, Puts slot.key x := by
  have tracks := tracks_serveSlots coherent slots
  constructor
  · intro fine before slot after split stale
    by_contra none
    push Not at none
    obtain ⟨before', slot', after', last, stale'⟩ := exists_last_of_stale split stale none
    have inside := range slot' (by simp [last.split])
    have unset : (served cfg s slots).cache.pendingBit slot'.key slot'.replica = false := by
      rw [← Bool.not_eq_true]
      intro set
      exact ((tracks.bit _ _ inside).mp set).1
        ⟨before', slot', after', last.split, rfl, rfl, last.puts⟩
    have clear := fine.clear _ _ inside unset
    rw [served_last apart round range last, last.unchanged] at clear
    exact (answerOf_eq_iff coherent before' inside).mp (Option.some.inj clear) stale'
  · intro followed
    have stored : ∀ k i, i < numReplicas cfg k → Touched slots k i →
        ((served cfg s slots).store (label cfg k i)).map cfg.decrypt =
          some (latestAfter latest slots k) := by
      rintro k i inside touched
      obtain ⟨before, slot, after, last, rfl, rfl⟩ := exists_last_of_touched touched
      rw [served_last apart round range last, last.unchanged]
      refine congrArg some ((answerOf_eq_iff coherent before inside).mpr fun stale => ?_)
      obtain ⟨x, mem, put⟩ := followed before slot after last.split stale
      exact last.puts x mem put
    have untouched : ∀ k i, i < numReplicas cfg k →
        (∀ x ∈ slots, ¬ (x.key = k ∧ x.replica = i)) →
        (served cfg s slots).store (label cfg k i) = s.store (label cfg k i) :=
      fun k i inside none => putAll_writes_none apart inside range none _ _
    refine ⟨fun k i inside => ?_, fun k i inside unset => ?_, tracks.value⟩
    · by_cases accessed : ∃ x ∈ slots, x.key = k ∧ x.replica = i
      · obtain ⟨before, slot, after, rfl, ⟨rfl, rfl⟩, none⟩ := exists_last accessed
        unfold served
        dsimp only
        rw [putAll_writes_last apart inside (fun x mem => range x (by simp [mem])) none]
        rfl
      · push Not at accessed
        rw [untouched k i inside fun x mem same => accessed x mem same.1 same.2]
        exact coherent.stored k i inside
    · by_cases touched : Touched slots k i
      · exact stored k i inside touched
      · have bits := (tracks.bit k i inside).not.mp (by
          rw [Bool.not_eq_true]
          exact unset)
        push Not at bits
        obtain ⟨unput, clear⟩ := bits touched
        have none : ∀ x ∈ slots, ¬ (x.key = k ∧ x.replica = i) := by
          rintro x mem ⟨key, replica⟩
          obtain ⟨before, after, rfl⟩ := List.append_of_mem mem
          exact touched ⟨before, x, after, rfl, key, replica, fun y hy => unput y (by simp [hy])⟩
        rw [untouched k i inside none, coherent.clear k i inside (by simpa using clear),
          latestAfter_of_not_puts unput]

lemma promise_eq (before : List BatchSlot) (slot : BatchSlot) (after : List BatchSlot) :
    (List.zipWith (fun (slot : BatchSlot) answer => if slot.isTrue then some answer else none)
      (before ++ slot :: after)
      (serveSlots cfg (reads cfg s (before ++ slot :: after)) s.cache).1)[before.length]? =
      some (if slot.isTrue then some (answerOf cfg s before slot) else none) := by
  obtain ⟨rest, -, answers⟩ := @serveSlots_split cfg s before slot after
  have size : before.length = (serveSlots cfg (reads cfg s before) s.cache).1.length := by
    rw [serveSlots_length, reads, List.length_map]
  have at' : (before ++ slot :: after)[before.length]? = some slot := by simp
  have answer : ((serveSlots cfg (reads cfg s before) s.cache).1 ++
      answerOf cfg s before slot :: rest)[before.length]? = some (answerOf cfg s before slot) := by
    rw [size]
    simp
  rw [answers, List.getElem?_zipWith, at', answer]

/-- Executing a batch keeps the replicas and the cache coherent and answers every real read with
the latest value exactly when every stale slot is a fake read with a put to its key after it. -/
theorem execute_batch_coherent_iff (apart : LabelsApart cfg)
    (round : ∀ v, cfg.decrypt (cfg.encrypt v) = v) (coherent : Coherent cfg latest s)
    (range : ∀ x ∈ slots, x.replica < numReplicas cfg x.key) :
    ∃ s' promises, executeBatch cfg s slots = .ok (s', promises) ∧
      ((Coherent cfg (latestAfter latest slots) s' ∧
        ∀ before slot after, slots = before ++ slot :: after → slot.isTrue = true →
          slot.value = "" →
          promises[before.length]? = some (some (latestAfter latest before slot.key))) ↔
      ∀ before slot after, slots = before ++ slot :: after → Stale cfg latest s before slot →
        slot.isTrue = false ∧ ∃ x ∈ after, Puts slot.key x) := by
  refine ⟨_, _, executeBatch_eq coherent range, ?_⟩
  rw [coherent_served_iff apart round coherent range]
  have right : ∀ before slot after, slots = before ++ slot :: after → slot.value = "" →
      (answerOf cfg s before slot = latestAfter latest before slot.key ↔
        ¬ Stale cfg latest s before slot) := by
    intro before slot after split read
    rw [← answerOf_eq_iff coherent before (range slot (by simp [split])), latestAfter_append,
      BatchSlot.updates, if_neg (not_not.mpr read)]
  constructor
  · rintro ⟨followed, answered⟩ before slot after split stale
    refine ⟨?_, followed before slot after split stale⟩
    rw [← Bool.not_eq_true]
    intro real
    have promise := answered before slot after split real stale.1
    rw [split, promise_eq, real] at promise
    exact (right before slot after split stale.1).mp
      (Option.some.inj (Option.some.inj promise)) stale
  · intro harmless
    refine ⟨fun before slot after split stale => (harmless before slot after split stale).2, ?_⟩
    intro before slot after split real read
    rw [split, promise_eq, real, if_pos rfl, (right before slot after split read).mpr]
    intro stale
    have := (harmless before slot after split stale).1
    rw [real] at this
    simp at this

end Spec

/-- One key with one replica, stored in the clear. -/
def oneReplica : PancakeConfig where
  keyToNumberOfReplicas := AList.singleton "a" 1
  replicaToLabel := AList.singleton "a0" 7
  encrypt := id
  decrypt := id

def oldState : PancakeState := ⟨fun _ => some "old", ∅⟩

lemma oneReplica_inside {k : String} {i : ℕ} (inside : i < numReplicas oneReplica k) :
    k = "a" ∧ i = 0 := by
  rcases eq_or_ne k "a" with rfl | other
  · have one : numReplicas oneReplica "a" = 1 := by decide
    exact ⟨rfl, by omega⟩
  · have none : numReplicas oneReplica k = 0 := by
      simp [numReplicas, oneReplica, AList.lookup, AList.singleton, List.dlookup_cons_ne, other]
    omega

lemma labelsApart_oneReplica : LabelsApart oneReplica := by
  intro k i k' i' inside inside' _
  obtain ⟨rfl, rfl⟩ := oneReplica_inside inside
  obtain ⟨rfl, rfl⟩ := oneReplica_inside inside'
  exact ⟨rfl, rfl⟩

lemma coherent_oldState : Coherent oneReplica (fun _ => "old") oldState where
  stored _ _ _ := rfl
  clear _ _ _ _ := rfl
  entry _ _ found := by simp [oldState] at found

def putSlot : BatchSlot := ⟨"a", "new", true, 0⟩

def getSlot : BatchSlot := ⟨"a", "", true, 0⟩

theorem execute_batch_coherent_iff_put : ∃ s' promises,
    executeBatch oneReplica oldState [putSlot] = .ok (s', promises) ∧
      Coherent oneReplica (latestAfter (fun _ => "old") [putSlot]) s' := by
  have range : ∀ x ∈ [putSlot], x.replica < numReplicas oneReplica x.key := by decide
  obtain ⟨s', promises, executed, exactly⟩ := execute_batch_coherent_iff labelsApart_oneReplica
    (fun _ => rfl) coherent_oldState range
  refine ⟨s', promises, executed, (exactly.mpr ?_).1⟩
  intro before slot after split stale
  obtain rfl : slot = putSlot := by
    have mem : slot ∈ [putSlot] := by simp [split]
    simpa using mem
  exact absurd stale.1 (by decide)

/-- The put takes the only pending bit itself, and the read after it finds what was read before
the batch: it is answered with the old value and writes it back. -/
theorem execute_batch_loses_put : Coherent oneReplica (fun _ => "old") oldState ∧
    latestAfter (fun _ => "old") [putSlot, getSlot] "a" = "new" ∧
    ∃ s' promises, executeBatch oneReplica oldState [putSlot, getSlot] = .ok (s', promises) ∧
      promises = [some "new", some "old"] ∧ s'.store (label oneReplica "a" 0) = some "old" ∧
      ¬ Coherent oneReplica (latestAfter (fun _ => "old") [putSlot, getSlot]) s' := by
  refine ⟨coherent_oldState, by decide, _, _, rfl, by decide, by decide, ?_⟩
  intro after
  have clear := after.clear "a" 0 (by decide) (by decide)
  exact absurd clear (by decide)

end PancakeProxy
end Shortstack
