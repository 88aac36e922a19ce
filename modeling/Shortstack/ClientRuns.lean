import Shortstack.ClientKinds
import Shortstack.ClientRegisters
import Shortstack.PipelineDeployment

/-! Whatever the clients ask for and however the tiers interleave, without failures the
responses are those of one register for each key. -/
namespace Shortstack
open Linearizability Transition

namespace Pipeline
variable {cfg : PipelineConfig} {initial : String} {s s' : Pipeline} {history : List ClientEvent}
  {order : List (RequestId × ClientRequest)} {label : ClientLabel}

lemma Served.events (delivered : cfg.l3.respDelivery = true)
    (h : Served cfg initial s history order) (proper : label.proper history) :
    Linearizes (registers initial) (history ++ label.events cfg s) order := by
  unfold ClientLabel.events
  split
  · next oracle k row seq r draws =>
    obtain ⟨-, fresh⟩ := proper
    refine h.lin.invoke (fun op mem => fresh ?_) r
    exact List.mem_map.mpr ⟨_, mem_invocations.mpr mem, rfl⟩
  · next clock y =>
    split
    · next r worker taken =>
      obtain ⟨r', waits, seqId, code, result⟩ := L3Worker.respond_popped taken
      have told := h.carried.waits y r' waits
      rw [if_pos delivered] at result
      rw [ClientResponse.told, ← seqId, ← code, ← result] at told
      exact h.lin.respond told
    · rw [List.append_nil]
      exact h.lin
  · rw [List.append_nil]
    exact h.lin

theorem Served.step (shape : Shaped cfg) (keeping : Keeping cfg initial)
    (delivered : cfg.l3.respDelivery = true) (steady : Steady cfg s)
    (h : Served cfg initial s history order) (free : failureFree cfg s label.pipeline)
    (proper : label.proper history) (taken : (servedSystem cfg).step s label = some s')
    (submitted : Submitted cfg s' (history ++ label.events cfg s))
    (regular : ∀ x ∈ invocations (history ++ label.events cfg s), x.2.Regular cfg.l1.dummyKey) :
    ∃ more, Served cfg initial s' (history ++ label.events cfg s) (order ++ more) := by
  have lin := h.events delivered proper
  obtain ⟨⟨r, moved, rfl⟩, -⟩ := servedSystem_step taken
  cases steady.turn shape free moved with
  | still same => exact ⟨[], by rw [List.append_nil]; exact h.still lin same⟩
  | run runs =>
    obtain ⟨more, effect⟩ := h.effect shape lin submitted regular runs
    exact ⟨more, h.run shape keeping submitted runs effect⟩
  | accept popped returned ingest link l3 kv =>
    exact ⟨[], by rw [List.append_nil]; exact h.accept keeping lin popped returned ingest link l3 kv⟩
  | serve served ingest link l3 kv =>
    exact ⟨[], by rw [List.append_nil]; exact h.serve keeping lin served ingest link l3 kv⟩

lemma served_start (keeping : Keeping cfg initial) : Served cfg initial (start cfg) [] [] := by
  have cache : ∀ c key, (tailCache cfg (start cfg) c).lookup key = none := fun _ _ => rfl
  refine ⟨linearizes_nil, fun i => ?_, fun key replica c w n _ _ _ => ?_, carried_start,
    fun key replica c w l y _ => ?_⟩
  · simp [tailRan, start, Ingest.start, Ingest.l2Node, L2Column.start, ChainNet.start,
      ChainModule.setup]
  · rw [Caches, cache]
    rfl
  · refine ⟨?_, ?_, fun _ cipher held => keeping.stored _ _ cipher held, ?_, ?_, ?_⟩
    all_goals simp [start, L3Worker.traffic, L3Worker.pipe, L3Worker.initState]

variable (cfg) in
/-- Steps without failures of clients that number their requests. -/
def clientsFree (x : Pipeline × List ClientEvent) (label : ClientLabel) : Prop :=
  failureFree cfg x.1 label.pipeline ∧ label.proper x.2

/-- The tiers in such a run. -/
structure Serving (cfg : PipelineConfig) (x : Pipeline × List ClientEvent) : Prop where
  steady : Steady cfg x.1
  submitted : Submitted cfg x.1 x.2
  kinds : Kinds x.1 x.2

lemma Serving.step (shape : Shaped cfg) {x x' : Pipeline × List ClientEvent} (h : Serving cfg x)
    (free : clientsFree cfg x label) (taken : (clientSystem cfg).step x label = some x') :
    Serving cfg x' := by
  obtain ⟨s', moved, rfl⟩ := Option.map_eq_some_iff.mp taken
  have submitted := h.submitted.step shape h.steady free.1 free.2 moved
  have kinds := h.kinds.step shape h.steady free.1 moved submitted
  obtain ⟨⟨r, done, rfl⟩, -⟩ := servedSystem_step moved
  exact ⟨h.steady.step shape free.1 done, submitted, kinds⟩

theorem serving_reaches (shape : Shaped cfg) {x : Pipeline × List ClientEvent}
    (run : Reaches (clientSystem cfg) (clientsFree cfg) x) : Serving cfg x := by
  refine run.invariant (fun x init => ?_) fun x label x' h free taken => h.step shape free taken
  obtain ⟨s, history⟩ := x
  obtain ⟨rfl, rfl⟩ := init
  exact ⟨steady_start shape, submitted_start shape, kinds_start⟩

lemma regular_events (regular : label.Regular cfg.l1.dummyKey) :
    ∀ y ∈ invocations (label.events cfg s), y.2.Regular cfg.l1.dummyKey := by
  cases label with
  | request oracle k row seq r draws =>
    intro y mem
    rw [List.mem_singleton.mp mem]
    exact regular
  | tiers label =>
    intro y mem
    rw [invocations_tiers] at mem
    simp at mem

/-- The tiers in a run of regular requests: there is an order in which they took effect. -/
structure Ordered (cfg : PipelineConfig) (initial : String) (x : Pipeline × List ClientEvent) :
    Prop where
  serving : Serving cfg x
  regular : ∀ y ∈ invocations x.2, y.2.Regular cfg.l1.dummyKey
  served : ∃ order, Served cfg initial x.1 x.2 order

theorem ordered_reaches (shape : Shaped cfg) (keeping : Keeping cfg initial)
    (delivered : cfg.l3.respDelivery = true) {x : Pipeline × List ClientEvent}
    (run : Reaches (clientSystem cfg)
      (fun x label => clientsFree cfg x label ∧ label.Regular cfg.l1.dummyKey) x) :
    Ordered cfg initial x := by
  refine run.invariant (fun x init => ?_) fun x label x' h free taken => ?_
  · obtain ⟨s, history⟩ := x
    obtain ⟨rfl, rfl⟩ := init
    exact ⟨⟨steady_start shape, submitted_start shape, kinds_start⟩, by simp [invocations], [],
      served_start keeping⟩
  · obtain ⟨free, regular⟩ := free
    obtain ⟨order, served⟩ := h.served
    have serving := h.serving.step shape free taken
    obtain ⟨s', moved, rfl⟩ := Option.map_eq_some_iff.mp taken
    have regular' : ∀ y ∈ invocations (x.2 ++ label.events cfg x.1), y.2.Regular cfg.l1.dummyKey := by
      intro y mem
      rw [invocations_append] at mem
      exact (List.mem_append.mp mem).elim (h.regular y) (regular_events regular y)
    obtain ⟨more, next⟩ := served.step shape keeping delivered h.serving.steady free.1 free.2 moved
      serving.submitted regular'
    exact ⟨serving, regular', order ++ more, next⟩

end Pipeline
end Shortstack
