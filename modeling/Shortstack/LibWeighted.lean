import Mathlib

/-! Finite random choices as lists of outcomes with rational weights. Outcomes may be
repeated, so nothing has to be decided to combine choices; only expectations are compared. -/
namespace Shortstack

structure Weighted (α : Type*) where
  atoms : List (α × ℚ)

namespace Weighted
variable {α β : Type*}

def ret (a : α) : Weighted α := ⟨[(a, 1)]⟩

/-- A choice whose outcome decides the next one. -/
def bind (d : Weighted α) (f : α → Weighted β) : Weighted β :=
  ⟨d.atoms.flatMap fun e => (f e.1).atoms.map fun t => (t.1, e.2 * t.2)⟩

def expect (d : Weighted α) (g : α → ℚ) : ℚ := (d.atoms.map fun e => e.2 * g e.1).sum

/-- The outcomes of a choice. -/
def Possible (d : Weighted α) (a : α) : Prop := ∃ w, (a, w) ∈ d.atoms

/-- The weights of a choice add up to one. -/
def Total (d : Weighted α) : Prop := d.expect (fun _ => 1) = 1

@[simp] theorem expect_ret (a : α) (g : α → ℚ) : (ret a).expect g = g a := by
  simp [expect, ret]

theorem expect_cons (e : α × ℚ) (atoms : List (α × ℚ)) (g : α → ℚ) :
    expect ⟨e :: atoms⟩ g = e.2 * g e.1 + expect ⟨atoms⟩ g := by simp [expect]

theorem expect_mul_left (d : Weighted α) (c : ℚ) (g : α → ℚ) :
    d.expect (fun a => c * g a) = c * d.expect g := by
  unfold expect
  rw [← List.sum_map_mul_left]
  congr 1
  refine List.map_congr_left fun e _ => ?_
  ring

theorem expect_add (d : Weighted α) (g h : α → ℚ) :
    d.expect (fun a => g a + h a) = d.expect g + d.expect h := by
  unfold expect
  rw [← List.sum_map_add]
  congr 1
  refine List.map_congr_left fun e _ => ?_
  ring

/-- Expectations only depend on the possible outcomes. -/
theorem expect_congr {d : Weighted α} {g h : α → ℚ} (same : ∀ a, d.Possible a → g a = h a) :
    d.expect g = d.expect h := by
  unfold expect
  congr 1
  refine List.map_congr_left fun e he => ?_
  rw [same e.1 ⟨e.2, he⟩]

/-- A choice that the outcome does not depend on can be left out. -/
theorem Total.expect_const {d : Weighted α} (h : d.Total) {c : ℚ} {g : α → ℚ}
    (same : ∀ a, d.Possible a → g a = c) : d.expect g = c := by
  rw [expect_congr (h := fun _ => c * 1) fun a ha => (same a ha).trans (mul_one c).symm,
    expect_mul_left, h, mul_one]

theorem expect_bind (d : Weighted α) (f : α → Weighted β) (g : β → ℚ) :
    (d.bind f).expect g = d.expect fun a => (f a).expect g := by
  unfold expect bind
  rw [List.map_flatMap, List.flatMap_def, List.sum_flatten, List.map_map]
  congr 1
  refine List.map_congr_left fun e _ => ?_
  rw [Function.comp_apply, List.map_map, ← List.sum_map_mul_left]
  congr 1
  refine List.map_congr_left fun t _ => ?_
  simp only [Function.comp_apply]
  ring

theorem possible_ret {a b : α} (h : (ret a).Possible b) : b = a := by
  obtain ⟨w, mem⟩ := h
  exact congrArg Prod.fst (List.mem_singleton.mp mem)

theorem possible_bind {d : Weighted α} {f : α → Weighted β} {b : β} (h : (d.bind f).Possible b) :
    ∃ a, d.Possible a ∧ (f a).Possible b := by
  obtain ⟨w, mem⟩ := h
  obtain ⟨e, he, mem⟩ := List.mem_flatMap.mp mem
  obtain ⟨t, ht, same⟩ := List.mem_map.mp mem
  obtain ⟨rfl, _⟩ := Prod.mk.inj same
  exact ⟨e.1, ⟨e.2, he⟩, t.2, ht⟩

theorem total_ret (a : α) : (ret a).Total := expect_ret a _

theorem Total.bind {d : Weighted α} {f : α → Weighted β} (h : d.Total)
    (each : ∀ a, d.Possible a → (f a).Total) : (d.bind f).Total := by
  rw [Total, expect_bind]
  exact h.expect_const each

/-- Independent choices can be made in either order. -/
theorem expect_comm (d : Weighted α) (e : Weighted β) (g : α → β → ℚ) :
    (d.expect fun a => e.expect (g a)) = e.expect fun b => d.expect fun a => g a b := by
  obtain ⟨atoms⟩ := d
  induction atoms with
  | nil => simp [expect]
  | cons x atoms ih =>
    simp only [expect_cons]
    rw [ih, expect_add, expect_mul_left]

/-- The probability of an outcome. -/
def prob [DecidableEq α] (d : Weighted α) (a : α) : ℚ := d.expect fun b => if b = a then 1 else 0

end Weighted
end Shortstack
