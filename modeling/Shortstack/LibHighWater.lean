import Mathlib

/-! A duplicate filter that remembers only the highest number it has accepted, fed by
FIFO links. The filter never discards a number it has not accepted as long as every
link offers the numbers of interest in order, without gaps. -/
namespace Shortstack.HighWater
variable {S S' G G' : Set ℤ} {link : List ℤ} {n high : ℤ}

/-- Ahead of any number on the link, every smaller number of interest was accepted already
or is on the link too. -/
def Covered (S G : Set ℤ) (link : List ℤ) : Prop :=
  ∀ pre n post, link = pre ++ n :: post → ∀ m ∈ S, m < n → m ∈ G ∨ m ∈ pre

/-- Everything of interest up to the mark was accepted. -/
def Closed (S G : Set ℤ) (high : ℤ) : Prop := ∀ m ∈ S, m ≤ high → m ∈ G

@[simp] lemma covered_nil : Covered S G [] := by
  intro pre n post h
  simp at h

lemma Covered.mono (h : Covered S G link) (sub : S' ⊆ S) (grow : G ⊆ G') : Covered S' G' link := by
  intro pre n post split m hm less
  rcases h pre n post split m (sub hm) less with old | before
  · exact .inl (grow old)
  · exact .inr before

lemma Closed.mono (h : Closed S G high) (sub : S' ⊆ S) (grow : G ⊆ G') : Closed S' G' high :=
  fun m hm le => grow (h m (sub hm) le)

lemma Covered.insert (h : Covered S G link) (new : ∀ m ∈ S', m ∈ S ∨ ∀ n ∈ link, n ≤ m) :
    Covered S' G link := by
  intro pre n post split m hm less
  rcases new m hm with old | above
  · exact h pre n post split m old less
  · have := above n (by simp [split])
    omega

lemma Closed.insert (h : Closed S G high) (new : ∀ m ∈ S', m ∈ S ∨ high < m) :
    Closed S' G high := by
  intro m hm le
  rcases new m hm with old | above
  · exact h m old le
  · omega

lemma Covered.truncate {kept : List ℤ} (h : Covered S G link) (pre : kept <+: link) :
    Covered S G kept := by
  obtain ⟨lost, rfl⟩ := pre
  intro pre n post split
  exact h pre n (post ++ lost) (by simp [split])

lemma Covered.pop (h : Covered S G (n :: link)) (seen : n ∈ S → n ∈ G) : Covered S G link := by
  intro pre x post split m hm less
  rcases h (n :: pre) x post (by simp [split]) m hm less with old | before
  · exact .inl old
  · rcases List.mem_cons.mp before with rfl | inside
    · exact .inl (seen hm)
    · exact .inr inside

lemma Covered.closed (h : Covered S G (n :: link)) (grow : G ⊆ G') (now : n ∈ G') :
    Closed S G' n := by
  intro m hm le
  rcases eq_or_lt_of_le le with rfl | less
  · exact now
  · rcases h [] n link rfl m hm less with old | before
    · exact grow old
    · simp at before

lemma Covered.append {ns : List ℤ} (h : Covered S G link) (sorted : ns.Pairwise (· ≤ ·))
    (ready : ∀ n ∈ ns, ∀ m ∈ S, m < n → m ∈ G ∨ m ∈ link ∨ m ∈ ns) :
    Covered S G (link ++ ns) := by
  intro pre n post split m hm less
  rcases List.append_eq_append_iff.mp split with ⟨mid, rfl, rest⟩ | ⟨mid, rfl, rest⟩
  · have hn : n ∈ ns := by simp [rest]
    rcases ready n hn m hm less with old | before | later
    · exact .inl old
    · exact .inr (List.mem_append_left _ before)
    · rw [rest, List.mem_append, List.mem_cons] at later
      rcases later with before | rfl | after
      · exact .inr (List.mem_append_right _ before)
      · omega
      · rw [rest, List.pairwise_append, List.pairwise_cons] at sorted
        have := sorted.2.1.1 m after
        omega
  · cases mid with
    | nil =>
      obtain rfl : ns = n :: post := by simpa using rest.symm
      rcases ready n (by simp) m hm less with old | before | later
      · exact .inl old
      · exact .inr (by simpa using before)
      · rcases List.mem_cons.mp later with rfl | after
        · omega
        · have := (List.pairwise_cons.mp sorted).1 m after
          omega
    | cons x mid =>
      obtain ⟨rfl, rfl⟩ := List.cons.inj rest
      exact h pre n mid rfl m hm less

/-- Numbers on a link in ascending order, above the last one its receiver has seen and below
a bound. -/
def Ascends (seen : ℤ) (numbers : List ℤ) (bound : ℤ) : Prop :=
  (seen :: numbers).Pairwise (· < ·) ∧ ∀ n ∈ seen :: numbers, n < bound

lemma Ascends.pop {seen bound : ℤ} {numbers : List ℤ} (h : Ascends seen (n :: numbers) bound) :
    seen < n ∧ Ascends n numbers bound := by
  obtain ⟨order, below⟩ := h
  obtain ⟨first, rest⟩ := List.pairwise_cons.mp order
  exact ⟨first n List.mem_cons_self, rest, fun m hm => below m (List.mem_cons_of_mem _ hm)⟩

lemma Ascends.push {seen bound bound' : ℤ} {numbers new : List ℤ} (h : Ascends seen numbers bound)
    (order : new.Pairwise (· < ·)) (range : ∀ n ∈ new, bound ≤ n ∧ n < bound')
    (grows : bound ≤ bound') : Ascends seen (numbers ++ new) bound' := by
  obtain ⟨old, below⟩ := h
  refine ⟨?_, fun n hn => ?_⟩
  · rw [← List.cons_append, List.pairwise_append]
    refine ⟨old, order, fun a ha b hb => ?_⟩
    have := below a ha
    have := (range b hb).1
    omega
  · rw [← List.cons_append, List.mem_append] at hn
    rcases hn with before | after
    · have := below n before
      omega
    · exact (range n after).2

end Shortstack.HighWater
