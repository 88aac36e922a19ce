import Mathlib

/-! Labelled transition systems given by a partial step function. A run may be
restricted by a guard on the state before each step, so that one system serves
both unrestricted and conditional statements. -/
namespace Shortstack.Transition

structure System (S L : Type*) where
  init : S → Prop
  step : S → L → Option S

variable {S L : Type*} {sys : System S L}

/-- States reached by runs all of whose steps satisfy the guard. -/
inductive Reaches (sys : System S L) (ok : S → L → Prop) : S → Prop
  | init {s : S} (start : sys.init s) : Reaches sys ok s
  | step {s t : S} {l : L} (prior : Reaches sys ok s) (allowed : ok s l)
      (taken : sys.step s l = some t) : Reaches sys ok t

def Reachable (sys : System S L) (s : S) : Prop := Reaches sys (fun _ _ => True) s

/-- Induction rule for guarded runs. -/
theorem Reaches.invariant {ok : S → L → Prop} {P : S → Prop} {s : S}
    (h : Reaches sys ok s) (base : ∀ s, sys.init s → P s)
    (next : ∀ s l t, P s → ok s l → sys.step s l = some t → P t) : P s := by
  induction h with
  | init start => exact base _ start
  | step _ allowed taken ih => exact next _ _ _ ih allowed taken

theorem Reaches.mono {ok ok' : S → L → Prop} {s : S} (h : Reaches sys ok s)
    (imp : ∀ s l, ok s l → ok' s l) : Reaches sys ok' s := by
  induction h with
  | init start => exact .init start
  | step _ allowed taken ih => exact .step ih (imp _ _ allowed) taken

theorem Reaches.reachable {ok : S → L → Prop} {s : S} (h : Reaches sys ok s) :
    Reachable sys s := h.mono fun _ _ _ => trivial

/-- The system together with a record of what its steps bring about. -/
def record {E : Type*} (sys : System S L) (event : S → L → List E) : System (S × List E) L where
  init p := sys.init p.1 ∧ p.2 = []
  step p l := (sys.step p.1 l).map fun t => (t, p.2 ++ event p.1 l)

/-- Recording restricts no run. -/
theorem Reaches.recorded {E : Type*} (event : S → L → List E) {ok : S → L → Prop} {s : S}
    (h : Reaches sys ok s) :
    ∃ events, Reaches (record sys event) (fun p l => ok p.1 l) (s, events) := by
  induction h with
  | init start => exact ⟨[], .init ⟨start, rfl⟩⟩
  | @step s t l _ allowed taken ih =>
    obtain ⟨events, reached⟩ := ih
    exact ⟨events ++ event s l, .step reached allowed (by simp [record, taken])⟩

/-- A step of a run, or a pause. -/
def System.move (sys : System S L) (s : S) : Option L → Option S
  | none => some s
  | some l => sys.step s l

/-- Two runs of a system side by side, either of which may pause while the other goes on. -/
def pair (sys : System S L) : System (S × S) (Option L × Option L) where
  init p := sys.init p.1 ∧ sys.init p.2
  step p l := (sys.move p.1 l.1).bind fun t => (sys.move p.2 l.2).map fun u => (t, u)

/-- Replay of a list of labels, refusing a label the guard rejects. -/
def replay (sys : System S L) (ok : S → L → Prop) [∀ s l, Decidable (ok s l)] :
    S → List L → Option S
  | s, [] => some s
  | s, l :: ls => if ok s l then (sys.step s l).bind fun t => replay sys ok t ls else none

/-- The guard of a replay may be weaker as long as the labels make up for it. -/
theorem Reaches.replay_of {ok ok' : S → L → Prop} [∀ s l, Decidable (ok' s l)] {ls : List L} {s t : S}
    (h : Reaches sys ok s) (imp : ∀ l ∈ ls, ∀ s, ok' s l → ok s l)
    (run : replay sys ok' s ls = some t) : Reaches sys ok t := by
  induction ls generalizing s with
  | nil =>
    simp only [Transition.replay, Option.some.injEq] at run
    exact run ▸ h
  | cons l ls ih =>
    simp only [Transition.replay] at run
    split at run
    · next allowed =>
      obtain ⟨u, taken, rest⟩ := Option.bind_eq_some_iff.mp run
      exact ih (.step h (imp l List.mem_cons_self s allowed) taken)
        (fun x hx => imp x (List.mem_cons_of_mem l hx)) rest
    · exact absurd run (by simp)

theorem Reaches.replay {ok : S → L → Prop} [∀ s l, Decidable (ok s l)] {ls : List L} {s t : S}
    (h : Reaches sys ok s) (run : replay sys ok s ls = some t) : Reaches sys ok t :=
  h.replay_of (fun _ _ _ allowed => allowed) run

/-- A replay that goes through ends in a state its labels reach. -/
theorem Reaches.of_replay (ok : S → L → Prop) [∀ s l, Decidable (ok s l)] (ls : List L) {s : S}
    (start : sys.init s) (run : (Transition.replay sys ok s ls).isSome = true) :
    Reaches sys ok ((Transition.replay sys ok s ls).get run) :=
  (Reaches.init start).replay (Option.some_get run).symm

/-- The same for a system with a record, of which only the record is known at the end. -/
theorem Reaches.of_replay_record {E : Type*} {sys : System (S × E) L} {ok : S × E → L → Prop}
    [∀ s l, Decidable (ok s l)] {ls : List L} {x : S × E} {e : E} (start : sys.init x)
    (run : (Transition.replay sys ok x ls).map Prod.snd = some e) : ∃ s, Reaches sys ok (s, e) := by
  obtain ⟨⟨s, _⟩, goes, rfl⟩ := Option.map_eq_some_iff.mp run
  exact ⟨s, (Reaches.init start).replay goes⟩

end Shortstack.Transition
