import Mathlib

/-! Lists split into groups by a class of their elements, and the groups put one after the
other in the order in which a map is traversed. -/
namespace Shortstack.Grouping

variable {α ι σ : Type*} [DecidableEq ι] (f : α → ι)

/-- Append every element to the group of its class. -/
def groups (l : List α) : AList (fun _ : ι => List α) :=
  l.foldl (fun m a => m.insert (f a) ((m.lookup (f a)).getD [] ++ [a])) ∅

/-- The groups one after the other. -/
def regroup (ids : List ι) (l : List α) : List α := ids.flatMap fun i => l.filter (f · = i)

/-- The entries of a map in some order. -/
def Traversal {β : Type*} (m : AList (fun _ : ι => β)) (entries : List (ι × β)) : Prop :=
  entries.Perm (m.entries.map fun e => (e.1, e.2))

variable {f}

lemma groups_append (l : List α) (a : α) : groups f (l ++ [a]) =
    (groups f l).insert (f a) (((groups f l).lookup (f a)).getD [] ++ [a]) := by
  unfold groups
  rw [List.foldl_append]
  rfl

lemma lookup_groups (l : List α) (i : ι) : (groups f l).lookup i =
    if l.filter (f · = i) = [] then none else some (l.filter (f · = i)) := by
  induction l using List.reverseRecOn with
  | nil => rfl
  | append_singleton l a ih =>
    rw [groups_append, List.filter_append]
    rcases eq_or_ne i (f a) with rfl | other
    · rw [AList.lookup_insert, ih]
      split
      · next none => simp [none]
      · simp
    · rw [AList.lookup_insert_ne other, ih]
      simp [Ne.symm other]

lemma Traversal.groups {l : List α} {entries : List (ι × List α)}
    (h : Traversal (groups f l) entries) :
    (entries.map Prod.fst).Nodup ∧ (∀ a ∈ l, f a ∈ entries.map Prod.fst) ∧
      ∀ e ∈ entries, e.2 = l.filter (f · = e.1) := by
  have keys : (entries.map Prod.fst).Perm (Grouping.groups f l).keys := by
    refine (h.map Prod.fst).trans (.of_eq ?_)
    simp [AList.keys, List.keys, Function.comp_def]
  refine ⟨keys.nodup_iff.mpr (AList.keys_nodup _), ?_, ?_⟩
  · intro a mem
    refine keys.mem_iff.mpr (AList.mem_keys.mp (AList.lookup_isSome.mp ?_))
    rw [lookup_groups, if_neg]
    · rfl
    · exact List.ne_nil_of_mem (List.mem_filter.mpr ⟨mem, by simp⟩)
  · intro e mem
    obtain ⟨x, inside, rfl⟩ := List.mem_map.mp (h.mem_iff.mp mem)
    have found : (Grouping.groups f l).lookup x.1 = some x.2 := AList.mem_lookup_iff.mpr inside
    rw [lookup_groups] at found
    split at found
    · simp at found
    · exact (Option.some.inj found).symm

lemma Traversal.flatMap_snd {l : List α} {entries : List (ι × List α)}
    (h : Traversal (Grouping.groups f l) entries) :
    entries.flatMap Prod.snd = regroup f (entries.map Prod.fst) l := by
  unfold regroup
  rw [List.flatMap_map]
  exact List.flatMap_congr h.groups.2.2

lemma regroup_cons {i : ι} {ids : List ι} (fresh : i ∉ ids) (l : List α) :
    regroup f (i :: ids) l = l.filter (f · = i) ++ regroup f ids (l.filter (f · ≠ i)) := by
  unfold regroup
  rw [List.flatMap_cons]
  congr 1
  refine List.flatMap_congr fun j mem => ?_
  have other : j ≠ i := by
    rintro rfl
    exact fresh mem
  rw [List.filter_filter]
  refine List.filter_congr fun a _ => ?_
  rcases eq_or_ne (f a) j with rfl | away
  · simp [other]
  · simp [away]

section Order

/-- The position of the class of an element in the traversal. -/
def Before (f : α → ι) (ids : List ι) (a b : α) : Prop := ids.idxOf (f a) ≤ ids.idxOf (f b)

lemma pairwise_regroup {ids : List ι} (nodup : ids.Nodup) (l : List α) :
    (regroup f ids l).Pairwise (Before f ids) := by
  refine List.pairwise_flatMap.mpr ⟨fun i _ => ?_, ?_⟩
  · refine List.Pairwise.imp_of_mem ?_ (List.pairwise_of_forall (fun _ _ => trivial) :
      (l.filter (f · = i)).Pairwise fun _ _ => True)
    intro a b ha hb _
    have classA : f a = i := by simpa using (List.mem_filter.mp ha).2
    have classB : f b = i := by simpa using (List.mem_filter.mp hb).2
    unfold Before
    rw [classA, classB]
  · rw [List.pairwise_iff_getElem]
    intro i j hi hj before a ha b hb
    have classA : f a = ids[i] := by simpa using (List.mem_filter.mp ha).2
    have classB : f b = ids[j] := by simpa using (List.mem_filter.mp hb).2
    unfold Before
    rw [classA, classB, nodup.idxOf_getElem, nodup.idxOf_getElem]
    exact before.le

lemma filter_append_of_pairwise {i : ι} {ids : List ι} {l : List α}
    (sorted : l.Pairwise (Before f (i :: ids))) :
    l.filter (f · = i) ++ l.filter (f · ≠ i) = l := by
  induction l with
  | nil => rfl
  | cons a l ih =>
    obtain ⟨first, rest⟩ := List.pairwise_cons.mp sorted
    rcases eq_or_ne (f a) i with same | other
    · simpa [same] using ih rest
    · have none : l.filter (f · = i) = [] := by
        rw [List.filter_eq_nil_iff]
        intro b mem classB
        have order := first b mem
        unfold Before at order
        rw [of_decide_eq_true classB, List.idxOf_cons_self, List.idxOf_cons_ne _ (Ne.symm other)]
          at order
        omega
      have all : l.filter (f · ≠ i) = l := by simpa [none] using ih rest
      rw [List.filter_cons_of_neg (by simpa using other),
        List.filter_cons_of_pos (by simpa using other), none, all]
      rfl

/-- Grouping a list leaves it as it is exactly when its classes come in the order of the
traversal. -/
theorem regroup_eq_self_iff {ids : List ι} (nodup : ids.Nodup) {l : List α}
    (covers : ∀ a ∈ l, f a ∈ ids) :
    regroup f ids l = l ↔ l.Pairwise (Before f ids) := by
  refine ⟨fun same => same ▸ pairwise_regroup nodup l, fun sorted => ?_⟩
  induction ids generalizing l with
  | nil =>
    cases l with
    | nil => rfl
    | cons a l => exact absurd (covers a List.mem_cons_self) List.not_mem_nil
  | cons i ids ih =>
    obtain ⟨fresh, nodup⟩ := List.nodup_cons.mp nodup
    rw [regroup_cons fresh, ih nodup]
    · exact filter_append_of_pairwise sorted
    · intro a mem
      obtain ⟨mem, other⟩ := List.mem_filter.mp mem
      exact (List.mem_cons.mp (covers a mem)).resolve_left (by simpa using other)
    · refine (sorted.filter _).imp_of_mem fun ha hb order => ?_
      have otherA : i ≠ f _ := Ne.symm (by simpa using (List.mem_filter.mp ha).2)
      have otherB : i ≠ f _ := Ne.symm (by simpa using (List.mem_filter.mp hb).2)
      unfold Before at order ⊢
      rw [List.idxOf_cons_ne _ otherA, List.idxOf_cons_ne _ otherB] at order
      omega

end Order

section Fold
variable {step : σ → α → σ}

lemma foldl_past {a : α} (bs : List α) (s : σ)
    (commute : ∀ s, ∀ b ∈ bs, step (step s a) b = step (step s b) a) :
    bs.foldl step (step s a) = step (bs.foldl step s) a := by
  induction bs generalizing s with
  | nil => rfl
  | cons b bs ih =>
    rw [List.foldl_cons, commute s b List.mem_cons_self]
    exact ih _ fun s x hx => commute s x (List.mem_cons_of_mem _ hx)

lemma foldl_split (commute : ∀ s a b, f a ≠ f b → step (step s a) b = step (step s b) a) (i : ι)
    (l : List α) (s : σ) :
    (l.filter (f · = i) ++ l.filter (f · ≠ i)).foldl step s = l.foldl step s := by
  induction l generalizing s with
  | nil => rfl
  | cons a l ih =>
    rcases eq_or_ne (f a) i with same | other
    · simpa [same] using ih (step s a)
    · have past := foldl_past (l.filter (f · = i)) s fun s b hb => by
        have classB : f b = i := by simpa using (List.mem_filter.mp hb).2
        exact commute s a b (by rw [classB]; exact other)
      rw [List.filter_cons_of_neg (by simpa using other),
        List.filter_cons_of_pos (by simpa using other), List.foldl_cons, ← ih,
        List.foldl_append, List.foldl_append, List.foldl_cons, past]

/-- Steps of different classes commute, so the groups may be taken in any order. -/
theorem foldl_regroup (commute : ∀ s a b, f a ≠ f b → step (step s a) b = step (step s b) a)
    {ids : List ι} (nodup : ids.Nodup) {l : List α} (covers : ∀ a ∈ l, f a ∈ ids) (s : σ) :
    (regroup f ids l).foldl step s = l.foldl step s := by
  induction ids generalizing l s with
  | nil =>
    cases l with
    | nil => rfl
    | cons a l => exact absurd (covers a List.mem_cons_self) List.not_mem_nil
  | cons i ids ih =>
    obtain ⟨fresh, nodup⟩ := List.nodup_cons.mp nodup
    rw [regroup_cons fresh, ← foldl_split commute i l, List.foldl_append, List.foldl_append,
      ih nodup]
    intro a mem
    obtain ⟨mem, other⟩ := List.mem_filter.mp mem
    exact (List.mem_cons.mp (covers a mem)).resolve_left (by simpa using other)

end Fold
end Shortstack.Grouping
