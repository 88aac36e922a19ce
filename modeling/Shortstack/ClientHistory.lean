import Shortstack.LibLinearizable
import Shortstack.PipelineTurn

/-! The pipeline as its clients see it: they submit gets and puts under numbers of their own and
are answered by the L3 tier. On the way to it the kind of a request is the emptiness of its
value. -/
namespace Shortstack
open Linearizability Transition

inductive ClientRequest
  | get (key : String)
  | put (key value : String)
  deriving DecidableEq, Repr

namespace ClientRequest

def key : ClientRequest → String
  | .get key => key
  | .put key _ => key

/-- `async_get` and `async_put` of the L1 proxy. -/
def operation (seq : SequenceId) : ClientRequest → L1Operation
  | .get key => ⟨seq, key, ""⟩
  | .put key value => ⟨seq, key, value⟩

/-- A put of an empty value looks like a get. -/
def effective : ClientRequest → Bool
  | .get _ => true
  | .put _ value => value != ""

/-- Neither a put of an empty value nor a request for the key of padding. -/
def Regular (dummyKey : String) (r : ClientRequest) : Prop :=
  r.effective = true ∧ r.key ≠ dummyKey

end ClientRequest

/-- One register for each key; a put is answered with an empty result. -/
def registers (initial : String) : Object (String → String) ClientRequest (OpCode × String) where
  init _ := initial
  step values
    | .get key => (values, .get, values key)
    | .put key value => (Function.update values key value, .put, "")

section Registers
variable {I : Type} {initial : String} {values : String → String} {key value : String}

lemma registers_after_of_no_put {order : List (I × ClientRequest)}
    (none : ∀ x ∈ order, ∀ v, x.2 ≠ .put key v) :
    (registers initial).after values order key = values key := by
  induction order generalizing values with
  | nil => rfl
  | cons x order ih =>
    have rest := fun values => @ih values fun y hy => none y (List.mem_cons_of_mem x hy)
    obtain ⟨i, k | ⟨k, v⟩⟩ := x
    · exact rest values
    · have other : key ≠ k := by
        rintro rfl
        exact none _ List.mem_cons_self v rfl
      exact (rest _).trans (Function.update_of_ne other _ _)

lemma registers_after_of_put {order : List (I × ClientRequest)}
    (some' : ∃ x ∈ order, x.2 = .put key value) (only : ∀ x ∈ order, ∀ v, x.2 = .put key v → v = value) :
    (registers initial).after values order key = value := by
  induction order using List.reverseRecOn with
  | nil => simp at some'
  | append_singleton order x ih =>
    rw [Object.after_concat]
    obtain ⟨i, k | ⟨k, v⟩⟩ := x
    · refine ih ?_ fun y hy => only y (List.mem_append_left _ hy)
      obtain ⟨y, mem, put⟩ := some'
      rcases List.mem_append.mp mem with old | here
      · exact ⟨y, old, put⟩
      · rw [List.mem_singleton.mp here] at put
        simp at put
    · rcases eq_or_ne key k with rfl | other
      · have same := only _ (List.mem_append_right _ List.mem_cons_self) v rfl
        exact (Function.update_self ..).trans same
      · refine (Function.update_of_ne other _ _).trans
          (ih ?_ fun y hy => only y (List.mem_append_left _ hy))
        obtain ⟨y, mem, put⟩ := some'
        rcases List.mem_append.mp mem with old | here
        · exact ⟨y, old, put⟩
        · rw [List.mem_singleton.mp here] at put
          exact absurd (ClientRequest.put.inj put).1.symm other

end Registers

abbrev ClientEvent := Event RequestId ClientRequest (OpCode × String)

/-- A request of a client, or a step of the tiers. -/
inductive ClientLabel
  | request (oracle : L1Oracle) (k row : ℕ) (seq : SequenceId) (r : ClientRequest)
      (draws : ℕ → Draw)
  | tiers (label : PipelineLabel)

namespace ClientLabel

def pipeline : ClientLabel → PipelineLabel
  | .request oracle k row seq r draws => .client oracle k row (r.operation seq) draws
  | .tiers label => label

/-- What the clients see of a step. -/
def events (cfg : PipelineConfig) (s : Pipeline) : ClientLabel → List ClientEvent
  | .request _ _ _ seq r _ => [.invoke seq.client r]
  | .tiers (.l3 _ y .respond) =>
    match (s.l3 y).respond cfg.l3 with
    | some (r, _) => [.respond r.seqId.client (r.opCode, r.result)]
    | none => []
  | .tiers _ => []

end ClientLabel

/-- The pipeline with requests of its clients. -/
def servedSystem (cfg : PipelineConfig) : System Pipeline ClientLabel where
  init s := s = Pipeline.start cfg
  step s label :=
    match label with
    | .tiers (.client ..) => none
    | label => (s.step cfg label.pipeline).map PipelineResult.state

lemma servedSystem_step {cfg : PipelineConfig} {s s' : Pipeline} {label : ClientLabel}
    (taken : (servedSystem cfg).step s label = some s') :
    (∃ r, s.step cfg label.pipeline = some r ∧ r.state = s') ∧
      ∀ oracle k row op draws, label ≠ .tiers (.client oracle k row op draws) := by
  simp only [servedSystem] at taken
  split at taken
  · simp at taken
  · next none =>
    exact ⟨Option.map_eq_some_iff.mp taken, fun oracle k row op draws => none oracle k row op draws⟩

/-- The same with the history of requests and responses. -/
def clientSystem (cfg : PipelineConfig) : System (Pipeline × List ClientEvent) ClientLabel :=
  record (servedSystem cfg) (ClientLabel.events cfg)

namespace ClientLabel

/-- A client gives its requests different numbers. -/
def proper (history : List ClientEvent) : ClientLabel → Prop
  | .request _ _ _ seq _ _ => seq.clientId ≠ L1Proxy.fakeClientId ∧
    seq.client ∉ (invocations history).map Prod.fst
  | .tiers _ => True

def Regular (dummyKey : String) : ClientLabel → Prop
  | .request _ _ _ _ r _ => r.Regular dummyKey
  | .tiers _ => True

end ClientLabel
end Shortstack
