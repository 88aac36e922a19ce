import Mathlib

/-! Decimal numerals glued to a string without a separator. Two such strings are
equal only if the heads are, or if one head continues the other by the leading
digits of its numeral. -/
namespace Shortstack.Decimal

lemma toDigits_split {d : List Char} {i j : ℕ} (nonempty : d ≠ [])
    (split : Nat.toDigits 10 i = d ++ Nat.toDigits 10 j) :
    ∃ m, 1 ≤ m ∧ d = Nat.toDigits 10 m ∧ 10 * m ≤ i := by
  induction j using Nat.strong_induction_on generalizing i with
  | _ j ih =>
    have large : 10 ≤ i := by
      by_contra small
      have length := congrArg List.length split
      rw [Nat.toDigits_of_lt_base (by omega), List.length_append] at length
      have := List.length_pos_of_ne_nil nonempty
      have := Nat.length_toDigits_pos (b := 10) (n := j)
      simp only [List.length_singleton] at length
      omega
    rw [Nat.toDigits_of_base_le (by decide) large] at split
    rcases Nat.lt_or_ge j 10 with short | long
    · rw [Nat.toDigits_of_lt_base short] at split
      have cut := List.append_inj_left' split rfl
      exact ⟨i / 10, by omega, cut.symm, by omega⟩
    · rw [Nat.toDigits_of_base_le (by decide) long, ← List.append_assoc] at split
      have cut := List.append_inj_left' split rfl
      obtain ⟨m, positive, digits, bound⟩ := ih (j / 10) (by omega) cut
      exact ⟨m, positive, digits, by omega⟩

lemma toString_injective {i j : ℕ} (h : toString i = toString j) : i = j := by
  have digits := congrArg (fun s => Nat.ofDigitChars 10 s.toList 0) h
  simpa [Nat.toString_eq_repr, Nat.toList_repr] using digits

lemma toString_ten_mul {m : ℕ} (positive : 1 ≤ m) :
    toString (10 * m) = toString m ++ toString 0 := by
  apply String.toList_inj.mp
  have glue := Nat.toDigits_append_toDigits (b := 10) (n := m) (d := 0) (by decide) positive
    (by decide)
  simpa [Nat.toString_eq_repr, Nat.toList_repr] using glue.symm

/-- Two strings of a head and a numeral clash only if the heads agree or one head is the
other followed by the leading digits of its numeral. -/
theorem append_toString_eq {k l : String} {i j : ℕ} (h : k ++ toString i = l ++ toString j) :
    (k = l ∧ i = j) ∨ (∃ m, 1 ≤ m ∧ l = k ++ toString m ∧ 10 * m ≤ i) ∨
      ∃ m, 1 ≤ m ∧ k = l ++ toString m ∧ 10 * m ≤ j := by
  have lists : k.toList ++ Nat.toDigits 10 i = l.toList ++ Nat.toDigits 10 j := by
    simpa [Nat.toString_eq_repr, Nat.toList_repr] using congrArg String.toList h
  have extend : ∀ {a b : String} {x : ℕ} {d : List Char}, d = Nat.toDigits 10 x →
      b.toList = a.toList ++ d → b = a ++ toString x := by
    intro a b x d digits tail
    apply String.toList_inj.mp
    simp [Nat.toString_eq_repr, Nat.toList_repr, tail, digits]
  rcases List.append_eq_append_iff.mp lists with ⟨d, head, rest⟩ | ⟨d, head, rest⟩
  · rcases eq_or_ne d [] with rfl | nonempty
    · have same : k = l := String.toList_inj.mp (by simpa using head.symm)
      subst same
      exact .inl ⟨rfl, toString_injective ((String.append_right_inj k).mp h)⟩
    · obtain ⟨m, positive, digits, bound⟩ := toDigits_split nonempty rest
      exact .inr (.inl ⟨m, positive, extend digits head, bound⟩)
  · rcases eq_or_ne d [] with rfl | nonempty
    · have same : k = l := String.toList_inj.mp (by simpa using head)
      subst same
      exact .inl ⟨rfl, toString_injective ((String.append_right_inj k).mp h)⟩
    · obtain ⟨m, positive, digits, bound⟩ := toDigits_split nonempty rest
      exact .inr (.inr ⟨m, positive, extend digits head, bound⟩)

end Shortstack.Decimal
