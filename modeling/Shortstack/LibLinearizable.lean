import Mathlib

/-! Linearizability of a history of invocations and responses. The order in which operations
take effect is built along the run: an operation may be invoked, take effect after that and,
once it has taken effect, be answered with the output it had there. -/
namespace Shortstack.Linearizability
variable {S I O R : Type*}

/-- A sequential object. -/
structure Object (S O R : Type*) where
  init : S
  step : S → O → S × R

inductive Event (I O R : Type*)
  | invoke (i : I) (op : O)
  | respond (i : I) (out : R)
  deriving DecidableEq, Repr

namespace Object
variable (obj : Object S O R)

/-- The state after operations were carried out one after the other. -/
def after (s : S) (order : List (I × O)) : S := order.foldl (fun s x => (obj.step s x.2).1) s

/-- Their outputs. -/
def outputs : S → List (I × O) → List (I × R)
  | _, [] => []
  | s, x :: order => (x.1, (obj.step s x.2).2) :: outputs (obj.step s x.2).1 order

@[simp] lemma after_nil (s : S) : obj.after s ([] : List (I × O)) = s := rfl

lemma after_append (s : S) (a b : List (I × O)) :
    obj.after s (a ++ b) = obj.after (obj.after s a) b := List.foldl_append

lemma after_concat (s : S) (order : List (I × O)) (x : I × O) :
    obj.after s (order ++ [x]) = (obj.step (obj.after s order) x.2).1 := by
  rw [after_append]
  rfl

lemma outputs_append (s : S) (a b : List (I × O)) :
    obj.outputs s (a ++ b) = obj.outputs s a ++ obj.outputs (obj.after s a) b := by
  induction a generalizing s with
  | nil => rfl
  | cons x a ih =>
    rw [List.cons_append, outputs, ih]
    rfl

lemma outputs_concat (s : S) (order : List (I × O)) (x : I × O) :
    obj.outputs s (order ++ [x]) =
      obj.outputs s order ++ [(x.1, (obj.step (obj.after s order) x.2).2)] := by
  rw [outputs_append]
  rfl

@[simp] lemma map_fst_outputs (s : S) (order : List (I × O)) :
    (obj.outputs s order).map Prod.fst = order.map Prod.fst := by
  induction order generalizing s with
  | nil => rfl
  | cons x order ih => rw [outputs, List.map_cons, List.map_cons, ih]

lemma mem_outputs {s : S} {order : List (I × O)} {i : I} {out : R}
    (mem : (i, out) ∈ obj.outputs s order) :
    ∃ before op later, order = before ++ (i, op) :: later ∧
      out = (obj.step (obj.after s before) op).2 := by
  induction order generalizing s with
  | nil => simp [outputs] at mem
  | cons x order ih =>
    rcases List.mem_cons.mp mem with here | later
    · obtain ⟨rfl, rfl⟩ := Prod.mk.inj here
      exact ⟨[], x.2, order, rfl, rfl⟩
    · obtain ⟨before, op, rest, rfl, result⟩ := ih later
      exact ⟨x :: before, op, rest, rfl, result⟩

end Object

def invocations (history : List (Event I O R)) : List (I × O) :=
  history.filterMap fun
    | .invoke i op => some (i, op)
    | .respond .. => none

@[simp] lemma mem_invocations {history : List (Event I O R)} {i : I} {op : O} :
    (i, op) ∈ invocations history ↔ .invoke i op ∈ history := by
  simp only [invocations, List.mem_filterMap]
  constructor
  · rintro ⟨e, mem, eq⟩
    cases e with
    | invoke =>
      obtain ⟨rfl, rfl⟩ := Prod.mk.inj (Option.some.inj eq)
      exact mem
    | respond => simp at eq
  · exact fun mem => ⟨_, mem, rfl⟩

lemma invocations_append (a b : List (Event I O R)) :
    invocations (a ++ b) = invocations a ++ invocations b := List.filterMap_append

/-- How often a number was invoked, and how often it was answered. -/
def timesInvoked [DecidableEq I] (history : List (Event I O R)) (i : I) : ℕ :=
  (invocations history).countP fun x => x.1 = i

def timesAnswered [DecidableEq I] (history : List (Event I O R)) (i : I) : ℕ :=
  history.countP fun
    | .invoke .. => false
    | .respond j _ => j = i

section
variable [DecidableEq I] {history : List (Event I O R)} {i j : I}

lemma timesInvoked_le_one (once : ((invocations history).map Prod.fst).Nodup) :
    timesInvoked history i ≤ 1 := by
  have few := List.nodup_iff_count_le_one.mp once i
  rwa [List.count, List.countP_map] at few

@[simp] lemma timesInvoked_invoke (op : O) :
    timesInvoked (history ++ [.invoke i op]) j = timesInvoked history j + if i = j then 1 else 0 := by
  unfold timesInvoked
  rw [invocations_append, List.countP_append]
  congr 1
  exact (List.countP_singleton ..).trans (by simp)

@[simp] lemma timesInvoked_respond (out : R) :
    timesInvoked (history ++ [.respond i out]) j = timesInvoked history j := by
  unfold timesInvoked
  rw [invocations_append, List.countP_append]
  rfl

@[simp] lemma timesAnswered_invoke (op : O) :
    timesAnswered (history ++ [.invoke i op]) j = timesAnswered history j := by
  unfold timesAnswered
  rw [List.countP_append]
  rfl

@[simp] lemma timesAnswered_respond (out : R) :
    timesAnswered (history ++ [.respond i out]) j =
      timesAnswered history j + if i = j then 1 else 0 := by
  unfold timesAnswered
  rw [List.countP_append]
  congr 1
  exact (List.countP_singleton ..).trans (by simp)

end

lemma invocation_unique {history : List (Event I O R)} {i : I} {op op' : O}
    (once : ((invocations history).map Prod.fst).Nodup) (h : .invoke i op ∈ history)
    (h' : .invoke i op' ∈ history) : op = op' :=
  congrArg Prod.snd (List.inj_on_of_nodup_map once (mem_invocations.mpr h) (mem_invocations.mpr h') rfl)

lemma mem_before {α : Type*} {a b : List α} {i j : α} (once : (a ++ j :: b).Nodup)
    (ordered : [i, j].Sublist (a ++ j :: b)) : i ∈ a := by
  induction a with
  | nil =>
    have last : j ∉ b := (List.nodup_cons.mp once).1
    cases ordered with
    | cons _ rest => exact absurd (rest.subset (by simp)) last
    | cons_cons _ rest => exact absurd (rest.subset (by simp)) last
  | cons x a ih =>
    cases ordered with
    | cons _ rest => exact List.mem_cons_of_mem x (ih (List.nodup_cons.mp once).2 rest)
    | cons_cons _ rest => exact List.mem_cons_self

/-- The operations of a history took effect in this order: each of them once and after its
invocation, with the output of its response, and before all that were invoked later. -/
structure Linearizes (obj : Object S O R) (history : List (Event I O R)) (order : List (I × O)) :
    Prop where
  once : (order.map Prod.fst).Nodup
  invoked : ∀ x ∈ order, .invoke x.1 x.2 ∈ history
  outputs : ∀ i out, .respond i out ∈ history → (i, out) ∈ obj.outputs obj.init order
  realTime : ∀ i out j op, [Event.respond i out, .invoke j op].Sublist history →
    j ∈ order.map Prod.fst → [i, j].Sublist (order.map Prod.fst)

def Linearizable (obj : Object S O R) (history : List (Event I O R)) : Prop :=
  ∃ order, Linearizes obj history order

variable {obj : Object S O R} {history : List (Event I O R)} {order : List (I × O)} {i : I} {op : O}
  {out : R}

lemma linearizes_nil : Linearizes obj ([] : List (Event I O R)) [] where
  once := List.nodup_nil
  invoked _ mem := by simp at mem
  outputs _ _ mem := by simp at mem
  realTime _ _ _ _ part := by simp at part

namespace Linearizes

lemma answered (h : Linearizes obj history order) (mem : .respond i out ∈ history) :
    i ∈ order.map Prod.fst := by
  rw [← obj.map_fst_outputs obj.init]
  exact List.mem_map.mpr ⟨_, h.outputs i out mem, rfl⟩

lemma invoke (h : Linearizes obj history order) (new : ∀ op, .invoke i op ∉ history) (op : O) :
    Linearizes obj (history ++ [.invoke i op]) order where
  once := h.once
  invoked x mem := List.mem_append_left _ (h.invoked x mem)
  outputs j out mem := h.outputs j out (by simpa using mem)
  realTime j out k op' part mem := by
    refine h.realTime j out k op' ?_ mem
    obtain ⟨a, b, split, inOld, inNew⟩ := List.sublist_append_iff.mp part
    rcases List.sublist_singleton.mp inNew with rfl | rfl
    · rw [List.append_nil] at split
      exact split ▸ inOld
    · obtain rfl : k = i := by
        have last := congrArg List.getLast? split
        simp only [List.getLast?_cons_cons, List.getLast?_singleton, List.getLast?_append,
          Option.some_or, Option.some.injEq, Event.invoke.injEq] at last
        exact last.1
      obtain ⟨x, hx, rfl⟩ := List.mem_map.mp mem
      exact absurd (h.invoked x hx) (new x.2)

lemma effect (h : Linearizes obj history order) (invoked : .invoke i op ∈ history)
    (new : i ∉ order.map Prod.fst) : Linearizes obj history (order ++ [(i, op)]) where
  once := by
    rw [List.map_append, List.nodup_append]
    refine ⟨h.once, List.nodup_singleton _, fun x hx y hy => ?_⟩
    rw [List.map_singleton, List.mem_singleton] at hy
    rintro rfl
    rw [hy] at hx
    exact new hx
  invoked x mem := by
    rcases List.mem_append.mp mem with old | here
    · exact h.invoked x old
    · rw [List.mem_singleton.mp here]
      exact invoked
  outputs j out mem := by
    rw [obj.outputs_concat]
    exact List.mem_append_left _ (h.outputs j out mem)
  realTime j out k op' part mem := by
    have first := h.answered (part.subset List.mem_cons_self)
    rw [List.map_append, List.mem_append, List.map_singleton, List.mem_singleton] at mem
    rw [List.map_append, List.map_singleton]
    rcases mem with old | rfl
    · exact (h.realTime j out k op' part old).trans (List.sublist_append_left _ _)
    · exact (List.singleton_sublist.mpr first).append (List.Sublist.refl [k])

lemma respond (h : Linearizes obj history order)
    (done : (i, out) ∈ obj.outputs obj.init order) :
    Linearizes obj (history ++ [.respond i out]) order where
  once := h.once
  invoked x mem := List.mem_append_left _ (h.invoked x mem)
  outputs j out' mem := by
    rcases List.mem_append.mp mem with old | here
    · exact h.outputs j out' old
    · obtain ⟨rfl, rfl⟩ := Event.respond.inj (List.mem_singleton.mp here)
      exact done
  realTime j out' k op' part mem := by
    refine h.realTime j out' k op' ?_ mem
    obtain ⟨a, b, split, inOld, inNew⟩ := List.sublist_append_iff.mp part
    rcases List.sublist_singleton.mp inNew with rfl | rfl
    · rw [List.append_nil] at split
      exact split ▸ inOld
    · have last := congrArg List.getLast? split
      simp at last

/-- An operation that changes nothing takes effect late, at an earlier place of the order, but
after all that were answered before it was invoked. -/
lemma insert {a b : List (I × O)} (h : Linearizes obj history (a ++ b))
    (invoked : .invoke i op ∈ history) (new : i ∉ (a ++ b).map Prod.fst)
    (reads : ∀ s, (obj.step s op).1 = s)
    (answered : ∀ j out op', [Event.respond j out, .invoke i op'].Sublist history →
      j ∈ a.map Prod.fst) : Linearizes obj history (a ++ (i, op) :: b) := by
  have grown : ((a ++ b).map Prod.fst).Sublist ((a ++ (i, op) :: b).map Prod.fst) :=
    ((List.Sublist.refl a).append (List.sublist_cons_self (i, op) b)).map Prod.fst
  refine ⟨?_, fun x mem => ?_, fun j out mem => ?_, fun j out k op' part mem => ?_⟩
  · have moved : ((a ++ (i, op) :: b).map Prod.fst).Perm (i :: (a ++ b).map Prod.fst) :=
      (List.perm_middle (a := (i, op))).map Prod.fst
    exact moved.nodup_iff.mpr (List.nodup_cons.mpr ⟨new, h.once⟩)
  · rcases List.mem_append.mp mem with old | later
    · exact h.invoked x (List.mem_append_left _ old)
    · rcases List.mem_cons.mp later with rfl | old
      · exact invoked
      · exact h.invoked x (List.mem_append_right _ old)
  · have before := h.outputs j out mem
    rw [obj.outputs_append, List.mem_append] at before ⊢
    refine before.imp_right fun later => ?_
    rw [Object.outputs, reads]
    exact List.mem_cons_of_mem _ later
  · rcases eq_or_ne k i with rfl | other
    · have first := answered j out op' part
      rw [List.map_append, List.map_cons]
      exact (List.singleton_sublist.mpr first).append
        (List.singleton_sublist.mpr List.mem_cons_self)
    · refine (h.realTime j out k op' part ?_).trans grown
      simpa [other] using mem

end Linearizes

/-- Every operation of a kind took effect after all that were answered before the invocation of
this one. -/
def Behind (history : List (Event I O R)) (order : List (I × O)) (kind : O → Prop) (i : I) : Prop :=
  ∀ j out op, [Event.respond j out, .invoke i op].Sublist history →
    ∀ x ∈ order, kind x.2 → [j, x.1].Sublist (order.map Prod.fst)

namespace Behind
variable {kind : O → Prop} {order' : List (I × O)}

lemma of_none (none : ∀ x ∈ order, ¬ kind x.2) : Behind history order kind i :=
  fun _ _ _ _ x mem is => absurd is (none x mem)

lemma record (h : Behind history order kind i) {e : Event I O R} (other : ∀ op, e ≠ .invoke i op) :
    Behind (history ++ [e]) order kind i := by
  intro j out op part
  refine h j out op ?_
  obtain ⟨a, b, split, inOld, inNew⟩ := List.sublist_append_iff.mp part
  rcases List.sublist_singleton.mp inNew with rfl | rfl
  · rw [List.append_nil] at split
    exact split ▸ inOld
  · have last := congrArg List.getLast? split
    simp only [List.getLast?_cons_cons, List.getLast?_singleton, List.getLast?_append,
      Option.some_or, Option.some.injEq] at last
    exact absurd last.symm (other op)

lemma effect (h : Behind history order kind i) (lin : Linearizes obj history order) (x : I × O) :
    Behind history (order ++ [x]) kind i := by
  intro j out op part y mem is
  rw [List.map_append]
  rcases List.mem_append.mp mem with old | new
  · exact (h j out op part y old is).trans (List.sublist_append_left _ _)
  · rw [List.mem_singleton.mp new]
    exact (List.singleton_sublist.mpr (lin.answered (part.subset List.mem_cons_self))).append
      (List.Sublist.refl [x.1])

lemma insert {a b : List (I × O)} (h : Behind history (a ++ b) kind i) {x : I × O}
    (other : ¬ kind x.2) : Behind history (a ++ x :: b) kind i := by
  intro j out op part y mem is
  refine (h j out op part y ?_ is).trans
    (((List.Sublist.refl a).append (List.sublist_cons_self x b)).map Prod.fst)
  rcases List.mem_append.mp mem with old | later
  · exact List.mem_append_left _ old
  · rcases List.mem_cons.mp later with rfl | old
    · exact absurd is other
    · exact List.mem_append_right _ old

/-- An operation that changes nothing may take effect before all of the kind. -/
lemma insert_before (h : Behind history order kind i) (lin : Linearizes obj history order)
    (invoked : .invoke i op ∈ history) (new : i ∉ order.map Prod.fst)
    (reads : ∀ s, (obj.step s op).1 = s) :
    ∃ a b, order = a ++ b ∧ (∀ x ∈ a, ¬ kind x.2) ∧
      Linearizes obj history (a ++ (i, op) :: b) := by
  classical
  let early := fun x : I × O => decide (¬ kind x.2)
  have split : order = order.takeWhile early ++ order.dropWhile early :=
    List.takeWhile_append_dropWhile.symm
  refine ⟨order.takeWhile early, order.dropWhile early, split, fun x mem => ?_, ?_⟩
  · exact of_decide_eq_true (List.mem_takeWhile_imp (p := early) mem)
  refine (split ▸ lin).insert invoked (split ▸ new) reads fun j out op' part => ?_
  have done := lin.answered (part.subset List.mem_cons_self)
  cases later : order.dropWhile early with
  | nil =>
    rw [later, List.append_nil] at split
    exact split ▸ done
  | cons x b =>
    have is : kind x.2 := by
      have head := List.head?_dropWhile_not early order
      rw [later] at head
      simpa [early] using head
    have once := lin.once
    have ordered := h j out op' part x (by rw [split, later]; simp) is
    rw [split, later, List.map_append, List.map_cons] at once ordered
    exact mem_before once ordered

/-- An operation that changes nothing may take effect right after one of the kind. -/
lemma insert_after {a b : List (I × O)} {x : I × O} (h : Behind history (a ++ x :: b) kind i)
    (lin : Linearizes obj history (a ++ x :: b)) (is : kind x.2)
    (invoked : .invoke i op ∈ history) (new : i ∉ (a ++ x :: b).map Prod.fst)
    (reads : ∀ s, (obj.step s op).1 = s) :
    Linearizes obj history (a ++ [x] ++ (i, op) :: b) := by
  have split : a ++ x :: b = a ++ [x] ++ b := by simp
  refine (split ▸ lin).insert invoked (split ▸ new) reads fun j out op' part => ?_
  have once := lin.once
  have ordered := h j out op' part x (by simp) is
  rw [List.map_append, List.map_cons] at once ordered
  rw [List.map_append]
  exact List.mem_append_left _ (mem_before once ordered)

end Behind
end Shortstack.Linearizability
