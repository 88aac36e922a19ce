import Shortstack.ClientTickets

/-! The kind of a request is not sent along: every tier reads it off the value. An answer has the
kind of its request, unless that was a put of an empty value. -/
namespace Shortstack
open Linearizability Transition

namespace ClientRequest

/-- The answer has the kind of the request. -/
def InKind : ClientRequest → OpCode × String → Prop
  | .get _, out => out.1 = .get
  | .put _ _, out => out = (.put, "")

/-- What the tiers make of a request by its value. -/
def Read (r : ClientRequest) (out : OpCode × String) : Prop :=
  if r.value = "" then out.1 = .get else out = (.put, "")

lemma inKind_iff {r : ClientRequest} {out : OpCode × String} (read : r.Read out) :
    r.InKind out ↔ r.effective = true := by
  cases r with
  | get key => simpa [InKind, effective, Read, value] using read
  | put key v =>
    rcases eq_or_ne v "" with rfl | some'
    · have get : out.1 = .get := read
      refine ⟨fun put => ?_, fun put => by simp [effective] at put⟩
      rw [show out = (.put, "") from put] at get
      simp at get
    · have put : out = (.put, "") := by simpa [Read, value, some'] using read
      exact ⟨fun _ => by simpa [effective] using some', fun _ => put⟩

end ClientRequest

namespace Pipeline
variable {cfg : PipelineConfig} {s s' : Pipeline} {history history' : List ClientEvent}

/-- An access of a client has the kind of its request. -/
def Asked (history : List ClientEvent) (a : Access) : Prop :=
  a.client.1 ≠ L1Proxy.fakeClientId → ∃ r, .invoke a.client r ∈ history ∧ a.isRead = (r.value == "")

def Answered (history : List ClientEvent) (i : RequestId) (out : OpCode × String) : Prop :=
  ∃ r, .invoke i r ∈ history ∧ r.Read out

/-- Every access and every answer has the kind of its request. -/
structure Kinds (s : Pipeline) (history : List ClientEvent) : Prop where
  carried : Carried (fun _ _ => Asked history)
    (fun r => Answered history r.seqId.client (r.opCode, r.result)) s
  told : ∀ i out, .respond i out ∈ history → Answered history i out

lemma Asked.mono {a : Access} (h : Asked history a) (more : ∀ e ∈ history, e ∈ history') :
    Asked history' a :=
  fun client => (h client).imp fun _ asked => ⟨more _ asked.1, asked.2⟩

lemma Answered.mono {i : RequestId} {out : OpCode × String} (h : Answered history i out)
    (more : ∀ e ∈ history, e ∈ history') : Answered history' i out :=
  h.imp fun _ answered => ⟨more _ answered.1, answered.2⟩

lemma Kinds.events (h : Kinds s history) (label : ClientLabel) {i : RequestId}
    {out : OpCode × String}
    (mem : .respond i out ∈ label.events cfg s) : Answered history i out := by
  unfold ClientLabel.events at mem
  split at mem
  · simp at mem
  · next clock y =>
    split at mem
    · next r worker taken =>
      obtain ⟨rfl, rfl⟩ := Event.respond.inj (List.mem_singleton.mp mem)
      obtain ⟨r', waits, seqId, code, result⟩ := L3Worker.respond_popped taken
      obtain ⟨req, invoked, read⟩ := h.carried.waits y r' waits
      refine ⟨req, seqId ▸ invoked, ?_⟩
      unfold ClientRequest.Read at read ⊢
      split
      · next get =>
        rw [if_pos get] at read
        exact code.trans read
      · next put =>
        rw [if_neg put] at read
        obtain ⟨putCode, empty⟩ := Prod.mk.inj read
        rw [code, putCode, result, empty, ite_self]
    · simp at mem
  · simp at mem

theorem Kinds.step (shape : Shaped cfg) (steady : Steady cfg s) (h : Kinds s history)
    {label : ClientLabel} (free : failureFree cfg s label.pipeline)
    (taken : (servedSystem cfg).step s label = some s')
    (submitted : Submitted cfg s' (history ++ label.events cfg s)) :
    Kinds s' (history ++ label.events cfg s) := by
  have more : ∀ e ∈ history, e ∈ history ++ label.events cfg s := fun e => List.mem_append_left _
  have carried : Carried (fun _ _ => Asked (history ++ label.events cfg s)) (fun r =>
      Answered (history ++ label.events cfg s) r.seqId.client (r.opCode, r.result)) s :=
    h.carried.mono (fun _ _ _ asked => asked.mono more) fun _ answered => answered.mono more
  refine ⟨?_, fun i out mem => ?_⟩
  · obtain ⟨⟨r, moved, rfl⟩, -⟩ := servedSystem_step taken
    cases steady.turn shape free moved with
    | still same => exact carried.congr same.link same.l3
    | run runs =>
      refine carried.run runs fun client => ?_
      rw [l3Operation_access] at client ⊢
      have ticket := runs.ticket
      rcases submitted.request (runs.mem_head shape submitted) with ⟨key, pad⟩ | ⟨x, invoked, asked⟩
      · rw [ticket] at pad
        exact absurd (congrArg Ticket.clientId pad) client
      · rw [ticket] at asked
        refine ⟨x.2, mem_invocations.mp ?_, ?_⟩
        · rw [show (_, _) = x.1 from Prod.ext (congrArg Ticket.clientId asked).symm
            (congrArg Ticket.clientSeqNo asked).symm]
          exact invoked
        · rw [show x.2.value = _ from congrArg Ticket.value asked]
    | accept popped returned _ link l3 _ => exact carried.accept popped returned link l3
    | serve served _ link l3 _ =>
      refine carried.serve served link l3 fun clock e _ _ asked client => ?_
      obtain ⟨r, invoked, kind⟩ := asked client
      have same : (L3Worker.elapsed clock e.op).seqId.client = e.op.access.client :=
        congrArg Access.client (@L3Worker.elapsed_access clock e.op)
      refine ⟨r, ?_, ?_⟩
      · rw [L3Worker.response, same]
        exact invoked
      · have read : e.op.isRead = (r.value == "") := kind
        simp only [ClientRequest.Read, L3Worker.response, read]
        split <;> simp_all
  · rcases List.mem_append.mp mem with old | new
    · exact (h.told i out old).mono more
    · exact (h.events label new).mono more

lemma kinds_start : Kinds (start cfg) [] := ⟨carried_start, by simp⟩

end Pipeline
end Shortstack
