import Mathlib

/-! Tokens that wait in places and move between them. A function gives the number of copies
of one token in each place; a step that keeps the sum over the places it touches keeps every
bound on the total. -/
namespace Shortstack.Tokens
variable {P : Type*} {f g : P → ℕ} {n m : ℕ}

/-- The places hold at most `n` copies together. -/
def AtMost (f : P → ℕ) (n : ℕ) : Prop := ∀ S : Finset P, ∑ p ∈ S, f p ≤ n

/-- The places hold exactly `n` copies together. -/
def Exactly (f : P → ℕ) (n : ℕ) : Prop := ∃ S : Finset P, (∀ p ∉ S, f p = 0) ∧ ∑ p ∈ S, f p = n

lemma atMost_zero_iff : AtMost f 0 ↔ ∀ p, f p = 0 := by
  constructor
  · intro h p
    have := h {p}
    simpa using this
  · intro h S
    simp [h]

lemma AtMost.mono (h : AtMost f n) (fewer : ∀ p, g p ≤ f p) (more : n ≤ m) : AtMost g m :=
  fun S => (Finset.sum_le_sum fun p _ => fewer p).trans ((h S).trans more)

lemma AtMost.exchange [DecidableEq P] (h : AtMost f n) (T : Finset P) {k : ℕ}
    (inside : ∑ p ∈ T, g p ≤ ∑ p ∈ T, f p + k) (outside : ∀ p ∉ T, g p ≤ f p) :
    AtMost g (n + k) := by
  intro S
  have split : ∀ e : P → ℕ, ∑ p ∈ S ∪ T, e p = ∑ p ∈ T, e p + ∑ p ∈ S \ T, e p := by
    intro e
    rw [Finset.union_comm, ← Finset.union_sdiff_self_eq_union,
      Finset.sum_union Finset.disjoint_sdiff]
  have rest : ∑ p ∈ S \ T, g p ≤ ∑ p ∈ S \ T, f p :=
    Finset.sum_le_sum fun p hp => outside p (Finset.mem_sdiff.mp hp).2
  have grown : ∑ p ∈ S, g p ≤ ∑ p ∈ S ∪ T, g p :=
    Finset.sum_le_sum_of_subset Finset.subset_union_left
  have bound := h (S ∪ T)
  rw [split] at bound grown
  omega

lemma AtMost.move [DecidableEq P] (h : AtMost f n) {p q : P} (ne : p ≠ q)
    (moved : g p + g q ≤ f p + f q) (rest : ∀ r, r ≠ p → r ≠ q → g r ≤ f r) : AtMost g n := by
  refine h.exchange {p, q} (k := 0) ?_ fun r hr => ?_
  · rw [Finset.sum_pair ne, Finset.sum_pair ne]
    exact moved
  · simp only [Finset.mem_insert, Finset.mem_singleton, not_or] at hr
    exact rest r hr.1 hr.2

lemma AtMost.unique (h : AtMost f 1) {p q : P} (hp : 0 < f p) (hq : 0 < f q) : p = q := by
  classical
  by_contra ne
  have := h {p, q}
  rw [Finset.sum_pair ne] at this
  omega

lemma AtMost.le (h : AtMost f n) (p : P) : f p ≤ n := by
  have := h {p}
  simpa using this

lemma Exactly.gain [DecidableEq P] (h : Exactly f n) (p : P) {k : ℕ} (here : g p = f p + k)
    (rest : ∀ r, r ≠ p → g r = f r) : Exactly g (n + k) := by
  obtain ⟨S, outside, total⟩ := h
  have larger : ∑ r ∈ insert p S, f r = n := by
    rw [← total]
    exact (Finset.sum_subset (Finset.subset_insert p S) fun r _ hr => outside r hr).symm
  refine ⟨insert p S, fun r hr => ?_, ?_⟩
  · rw [Finset.mem_insert, not_or] at hr
    exact (rest r hr.1).trans (outside r hr.2)
  · have split : ∀ e : P → ℕ, ∑ r ∈ insert p S, e r = e p + ∑ r ∈ S.erase p, e r := by
      intro e
      rw [← Finset.add_sum_erase _ _ (Finset.mem_insert_self p S), Finset.erase_insert_eq_erase]
    have others : ∑ r ∈ S.erase p, g r = ∑ r ∈ S.erase p, f r :=
      Finset.sum_congr rfl fun r mem => rest r (Finset.ne_of_mem_erase mem)
    rw [split] at larger ⊢
    omega

/-- Tokens that are found again in different places of another kind. -/
lemma Exactly.le_of_atMost {Q : Type*} {e : Q → ℕ} (h : Exactly f n) (bound : AtMost e m)
    (place : P ↪ Q) (fewer : ∀ p, f p ≤ e (place p)) : n ≤ m := by
  obtain ⟨S, -, rfl⟩ := h
  refine (Finset.sum_le_sum fun p _ => fewer p).trans ?_
  rw [← Finset.sum_map S place e]
  exact bound _

lemma sum_countP_filter {α β : Type*} [DecidableEq β] (target : α → β) (q : α → Bool)
    (sent : List α) {X : Finset β} (all : ∀ a ∈ sent, target a ∈ X) :
    ∑ x ∈ X, (sent.filter fun a => target a = x).countP q = sent.countP q := by
  induction sent with
  | nil => simp
  | cons a sent ih =>
    have rest := ih fun b hb => all b (List.mem_cons_of_mem a hb)
    have here : ∀ x, ((a :: sent).filter fun b => target b = x).countP q =
        (sent.filter fun b => target b = x).countP q + if x = target a then (if q a then 1 else 0)
          else 0 := by
      intro x
      rw [List.filter_cons]
      rcases eq_or_ne (target a) x with same | other
      · simp [same, List.countP_cons]
      · simp [other, other.symm]
    rw [Finset.sum_congr rfl fun x _ => here x, Finset.sum_add_distrib, rest,
      Finset.sum_ite_eq' X (target a), if_pos (all a List.mem_cons_self), List.countP_cons]

/-- Some of the tokens in a place are given up for others. -/
def Trade {ι : Type*} (before after gone new : Multiset ι) : Prop :=
  ∃ rest, before = rest + gone ∧ after = rest + new

namespace Trade
variable {ι : Type*} {before after gone new : Multiset ι} {q : ι → Prop} [DecidablePred q] {a : ι}

lemma refl (before : Multiset ι) : Trade before before 0 0 := ⟨before, by simp, by simp⟩

lemma drop (h : before = after + gone) : Trade before after gone 0 := ⟨after, h, by simp⟩

lemma gain (h : after = before + new) : Trade before after 0 new := ⟨before, by simp, h⟩

lemma add (h : Trade before after gone new) (other : Multiset ι) :
    Trade (before + other) (after + other) gone new := by
  obtain ⟨rest, rfl, rfl⟩ := h
  exact ⟨rest + other, by ac_rfl, by ac_rfl⟩

lemma add_left (h : Trade before after gone new) (other : Multiset ι) :
    Trade (other + before) (other + after) gone new := by
  rw [add_comm other before, add_comm other after]
  exact h.add other

lemma pass {start finish : Multiset ι} (leave : Trade before after gone 0)
    (enter : Trade start finish 0 new) : Trade (before + start) (after + finish) gone new := by
  obtain ⟨rest, rfl, rfl⟩ := leave
  obtain ⟨others, rfl, rfl⟩ := enter
  exact ⟨rest + others, by rw [add_zero]; ac_rfl, by rw [add_zero]; ac_rfl⟩

lemma countP_eq (h : Trade before after gone new) :
    after.countP q + gone.countP q = before.countP q + new.countP q := by
  obtain ⟨rest, rfl, rfl⟩ := h
  simp only [Multiset.countP_add]
  omega

lemma mem (h : Trade before after gone new) (inside : a ∈ after) : a ∈ new ∨ a ∈ before := by
  obtain ⟨rest, rfl, rfl⟩ := h
  rcases Multiset.mem_add.mp inside with old | here
  · exact .inr (Multiset.mem_add.mpr (.inl old))
  · exact .inl here

/-- Where only one token of a kind is, no more of it are left when it was given up. -/
lemma mem_of_single (h : Trade before after gone new) (single : before.countP q ≤ 1) {g : ι}
    (given : g ∈ gone) (is : q g) (inside : a ∈ after) : a ∈ new ∨ a ∈ before ∧ ¬ q a := by
  obtain ⟨rest, rfl, rfl⟩ := h
  rcases Multiset.mem_add.mp inside with old | here
  · refine .inr ⟨Multiset.mem_add.mpr (.inl old), fun other => ?_⟩
    have one := Multiset.countP_pos_of_mem given is
    have two := Multiset.countP_pos_of_mem old other
    rw [Multiset.countP_add] at single
    omega
  · exact .inl here

end Trade

section Queues
variable {ι α β : Type*}

lemma ofList_map_append (place : β → ι) (f : α → β) (queue : List β) (batch : List α) :
    Multiset.ofList ((queue ++ batch.map f).map place) =
      .ofList (queue.map place) + .ofList (batch.map fun a => place (f a)) := by
  rw [List.map_append, List.map_map, Multiset.coe_add]
  rfl

lemma ofList_map_eraseIdx (place : β → ι) {queue : List β} {n : ℕ} {b : β} (found : queue[n]? = some b) :
    Multiset.ofList (queue.map place) = .ofList ((queue.eraseIdx n).map place) + {place b} := by
  rw [add_comm, Multiset.singleton_add, Multiset.cons_coe, ← List.map_cons]
  refine Multiset.coe_eq_coe.mpr (List.Perm.map _ ?_)
  obtain ⟨inside, rfl⟩ := List.getElem?_eq_some_iff.mp found
  exact (List.getElem_cons_eraseIdx_perm inside).symm

end Queues

section Pools
variable {ι I X : Type*} [DecidableEq I] {client : ι → I} {pools : X → Multiset ι}
  {out out' : I → ℕ} {j : I} {x : X} {after gone new : Multiset ι} {k : ℕ}

/-- The copies of a token: in the pools of some parties, and among those that have left. -/
def copies (client : ι → I) (pools : X → Multiset ι) (out : I → ℕ) (j : I) : Option X → ℕ
  | some x => (pools x).countP fun it => client it = j
  | none => out j

lemma nodup_of_trade {α : Type*} (f : α → ι) {as : List α}
    (few : ∀ i, AtMost (copies client pools out i) 1)
    (trade : Trade (pools x) after (.ofList (as.map f)) new) : (as.map fun a => client (f a)).Nodup := by
  refine List.nodup_iff_count_le_one.mpr fun i => ?_
  obtain ⟨rest, before, -⟩ := trade
  have one := (few i).le (some x)
  rw [copies, before, Multiset.countP_add, Multiset.coe_countP, List.countP_map] at one
  rw [List.count, List.countP_map]
  refine le_trans (le_of_eq ?_) ((Nat.le_add_left _ _).trans one)
  exact List.countP_congr fun a _ => by simp

variable [DecidableEq X]

lemma AtMost.trade (h : AtMost (copies client pools out j) n) (trade : Trade (pools x) after gone new)
    (balance : (new.countP fun it => client it = j) + out' j ≤
      (gone.countP fun it => client it = j) + out j + k) :
    AtMost (copies client (Function.update pools x after) out' j) (n + k) := by
  refine h.exchange {some x, none} ?_ fun p other => ?_
  · have moved := trade.countP_eq (q := fun it => client it = j)
    rw [Finset.sum_pair (by simp), Finset.sum_pair (by simp)]
    simp only [copies, Function.update_self]
    omega
  · cases p with
    | none => simp at other
    | some y =>
      have apart : y ≠ x := fun same => other (by simp [same])
      simp only [copies, Function.update_of_ne apart]
      exact le_rfl

lemma Exactly.trade (h : Exactly (copies client pools out j) n) (trade : Trade (pools x) after gone new)
    (balance : (new.countP fun it => client it = j) + out' j =
      (gone.countP fun it => client it = j) + out j + k) :
    Exactly (copies client (Function.update pools x after) out' j) (n + k) := by
  obtain ⟨S, none', total⟩ := h
  have sum : ∀ f : Option X → ℕ, ∑ p ∈ S ∪ {some x, none}, f p =
      ∑ p ∈ (S ∪ {some x, none}) \ {some x, none}, f p + (f (some x) + f none) := by
    intro f
    rw [← Finset.sum_pair (by simp), Finset.sum_sdiff Finset.subset_union_right]
  have before : ∑ p ∈ S ∪ {some x, none}, copies client pools out j p = n := by
    rw [← total]
    exact (Finset.sum_subset Finset.subset_union_left fun p _ outside => none' p outside).symm
  have moved := trade.countP_eq (q := fun it => client it = j)
  have elsewhere : ∀ p ∉ ({some x, none} : Finset (Option X)),
      copies client (Function.update pools x after) out' j p = copies client pools out j p := by
    intro p other
    cases p with
    | none => simp at other
    | some y =>
      have apart : y ≠ x := fun same => other (by simp [same])
      simp only [copies, Function.update_of_ne apart]
  refine ⟨S ∪ {some x, none}, fun p outside => ?_, ?_⟩
  · rw [Finset.mem_union, not_or] at outside
    exact (elsewhere p outside.2).trans (none' p outside.1)
  · have here : copies client (Function.update pools x after) out' j (some x) =
        after.countP fun it => client it = j := by
      rw [copies, Function.update_self]
    have now : ∑ p ∈ S ∪ {some x, none}, copies client (Function.update pools x after) out' j p =
        ∑ p ∈ (S ∪ {some x, none}) \ {some x, none}, copies client pools out j p +
          ((after.countP fun it => client it = j) + out' j) := by
      rw [sum, here]
      exact congrArg (· + _) (Finset.sum_congr rfl fun p mem =>
        elsewhere p (Finset.mem_sdiff.mp mem).2)
    have then' : n = ∑ p ∈ (S ∪ {some x, none}) \ {some x, none}, copies client pools out j p +
        (((pools x).countP fun it => client it = j) + out j) := before.symm.trans (sum _)
    omega

/-- What holds of all tokens holds after a trade, if the only copies of some are given up. -/
lemma forall_of_trade {P Q : ι → Prop} {fresh : I → Prop} (h : ∀ y, ∀ it ∈ pools y, P it)
    (trade : Trade (pools x) after gone new) (brought : ∀ it ∈ new, Q it)
    (kept : ∀ it, P it → ¬ fresh (client it) → Q it)
    (given : ∀ i, fresh i → AtMost (copies client pools out i) 1 ∧ ∃ g ∈ gone, client g = i) :
    ∀ y, ∀ it ∈ Function.update pools x after y, Q it := by
  intro y it mem
  rw [Function.update_apply] at mem
  split at mem
  · next same =>
    subst same
    by_cases is : fresh (client it)
    · obtain ⟨few, g, hg, who⟩ := given _ is
      rcases trade.mem_of_single (q := fun a => client a = client it) (few.le (some y)) hg who mem with
        here | ⟨-, other⟩
      · exact brought it here
      · exact absurd rfl other
    · rcases trade.mem mem with here | old
      · exact brought it here
      · exact kept it (h y it old) is
  · next other =>
    refine kept it (h y it mem) fun is => ?_
    obtain ⟨few, g, hg, who⟩ := given _ is
    obtain ⟨rest, before, -⟩ := trade
    have here : 0 < copies client pools out (client it) (some x) :=
      Multiset.countP_pos.mpr ⟨g, before ▸ Multiset.mem_add.mpr (.inr hg), who⟩
    have there : 0 < copies client pools out (client it) (some y) :=
      Multiset.countP_pos.mpr ⟨it, mem, rfl⟩
    exact other (Option.some.inj (few.unique there here))

end Pools
end Shortstack.Tokens
