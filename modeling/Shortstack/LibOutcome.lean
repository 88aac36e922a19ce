import Mathlib

/-! Sequential code that updates a state, sends messages and may leave early.
An exception keeps the state and the messages sent before it, as in a language
without rollback, and ends every enclosing loop. -/
namespace Shortstack

inductive Status
  | returned
  | dropped
  | raised (message : String)
  deriving DecidableEq, Repr

structure Outcome (σ μ : Type*) where
  state : σ
  sent : List μ
  status : Status
  deriving DecidableEq, Repr

namespace Outcome
variable {σ τ μ ν α : Type*}

def done (s : σ) : Outcome σ μ := ⟨s, [], .returned⟩

def raise (s : σ) (message : String) : Outcome σ μ := ⟨s, [], .raised message⟩

/-- The early return of a routine that ignores its argument. -/
def drop (s : σ) : Outcome σ μ := ⟨s, [], .dropped⟩

/-- One send; a connection that is down raises. -/
def send (up : μ → Bool) (s : σ) (m : μ) : Outcome σ μ :=
  if up m then ⟨s, [m], .returned⟩ else ⟨s, [], .raised "send failed"⟩

def andThen (o : Outcome σ μ) (f : σ → Outcome σ μ) : Outcome σ μ :=
  match o.status with
  | .returned => ⟨(f o.state).state, o.sent ++ (f o.state).sent, (f o.state).status⟩
  | _ => o

/-- A loop over a list that stops at the first iteration that does not return. -/
def forEach (f : σ → α → Outcome σ μ) : List α → σ → Outcome σ μ
  | [], s => done s
  | a :: as, s => (f s a).andThen (forEach f as)

/-- Run code of a part of the state inside the whole. -/
def embed (put : τ → σ) (wrap : ν → μ) (o : Outcome τ ν) : Outcome σ μ :=
  ⟨put o.state, o.sent.map wrap, o.status⟩

@[simp] theorem done_state (s : σ) : (done s : Outcome σ μ).state = s := rfl
@[simp] theorem done_sent (s : σ) : (done s : Outcome σ μ).sent = [] := rfl
@[simp] theorem done_status (s : σ) : (done s : Outcome σ μ).status = .returned := rfl
@[simp] theorem raise_state (s : σ) (e : String) : (raise s e : Outcome σ μ).state = s := rfl
@[simp] theorem raise_sent (s : σ) (e : String) : (raise s e : Outcome σ μ).sent = [] := rfl
@[simp] theorem raise_status (s : σ) (e : String) :
    (raise s e : Outcome σ μ).status = .raised e := rfl
@[simp] theorem drop_state (s : σ) : (drop s : Outcome σ μ).state = s := rfl
@[simp] theorem drop_sent (s : σ) : (drop s : Outcome σ μ).sent = [] := rfl
@[simp] theorem drop_status (s : σ) : (drop s : Outcome σ μ).status = .dropped := rfl

@[simp] theorem send_state (up : μ → Bool) (s : σ) (m : μ) : (send up s m).state = s := by
  unfold send
  split <;> rfl

theorem send_sent (up : μ → Bool) (s : σ) (m : μ) :
    (send up s m).sent = if up m then [m] else [] := by
  unfold send
  split <;> rfl

@[simp] theorem embed_state (put : τ → σ) (wrap : ν → μ) (o : Outcome τ ν) :
    (embed put wrap o).state = put o.state := rfl
@[simp] theorem embed_sent (put : τ → σ) (wrap : ν → μ) (o : Outcome τ ν) :
    (embed put wrap o).sent = o.sent.map wrap := rfl
@[simp] theorem embed_status (put : τ → σ) (wrap : ν → μ) (o : Outcome τ ν) :
    (embed put wrap o).status = o.status := rfl

@[simp] theorem done_andThen (s : σ) (f : σ → Outcome σ μ) : (done s).andThen f = f s := by
  simp [andThen, done]

theorem andThen_assoc (o : Outcome σ μ) (f g : σ → Outcome σ μ) :
    (o.andThen f).andThen g = o.andThen fun s => (f s).andThen g := by
  obtain ⟨s, sent, _ | _ | e⟩ := o
  · simp only [andThen]
    split <;> simp
  · rfl
  · rfl

theorem forEach_append (f : σ → α → Outcome σ μ) (as bs : List α) (s : σ) :
    forEach f (as ++ bs) s = (forEach f as s).andThen (forEach f bs) := by
  induction as generalizing s with
  | nil => simp [forEach]
  | cons a as ih =>
    simp only [List.cons_append, forEach, andThen_assoc]
    congr
    funext s
    exact ih s

/-- Rule for a sequence: the second part runs only after a normal return. -/
theorem andThen_rule {Q : Outcome σ μ → Prop} {o : Outcome σ μ} {f : σ → Outcome σ μ}
    (stop : o.status ≠ .returned → Q o)
    (go : o.status = .returned →
      Q ⟨(f o.state).state, o.sent ++ (f o.state).sent, (f o.state).status⟩) :
    Q (o.andThen f) := by
  unfold andThen
  cases h : o.status with
  | returned => exact go h
  | dropped => exact stop (by simp [h])
  | raised e => exact stop (by simp [h])

/-- Step-to-loop rule for a property of the state and of the messages sent so far. -/
theorem forEach_induction {f : σ → α → Outcome σ μ} {P : σ → List μ → Prop} (as : List α)
    (s : σ) (sent : List μ)
    (step : ∀ s sent, ∀ a ∈ as, P s sent → P (f s a).state (sent ++ (f s a).sent))
    (base : P s sent) :
    P (forEach f as s).state (sent ++ (forEach f as s).sent) := by
  induction as generalizing s sent with
  | nil => simpa [forEach] using base
  | cons a as ih =>
    have first := step s sent a (by simp) base
    unfold forEach
    refine andThen_rule (Q := fun o => P o.state (sent ++ o.sent)) (fun _ => first) fun _ => ?_
    have rest := ih _ _ (fun s sent b hb => step s sent b (by simp [hb])) first
    simpa only [List.append_assoc] using rest

end Outcome

/-- A loop that may fail keeps what each of its iterations keeps. -/
theorem foldlM_preserves {ε : Type*} {f : σ → α → Except ε σ} {P : σ → Prop} (as : List α)
    {s t : σ} (done : as.foldlM f s = .ok t) (start : P s)
    (keep : ∀ a ∈ as, ∀ s t, P s → f s a = .ok t → P t) : P t := by
  induction as generalizing s with
  | nil =>
    obtain rfl := Except.ok.inj done
    exact start
  | cons a as ih =>
    rw [List.foldlM_cons] at done
    cases first : f s a with
    | error e => simp [first, bind, Except.bind] at done
    | ok s₁ =>
      rw [first] at done
      exact ih done (keep a List.mem_cons_self _ _ start first) fun b mem =>
        keep b (List.mem_cons_of_mem _ mem)

end Shortstack
