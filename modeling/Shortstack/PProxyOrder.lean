import Shortstack.KeyValues
import Shortstack.PProxyItems

/-! The order in which the requests at a Pancake proxy take effect. A put takes effect when it
enters the update cache, a get when it finds its value there; a get that finds none takes effect
when it is answered, with the value its label held. -/
namespace Shortstack
open Linearizability Transition Tokens KeyValues

namespace PProxyConfig
variable (cfg : PProxyConfig)

def HasReplica (key : String) (replica : ℤ) : Prop :=
  ∃ n, cfg.keyToNumberOfReplicas.lookup key = some n ∧ 0 ≤ replica ∧ replica < n

def HasLabel (key : String) (replica : ℤ) (l : ℕ) : Prop :=
  cfg.HasReplica key replica ∧ cfg.replicaToLabel.lookup (key ++ toString replica) = some l

/-- Replicas of different keys have different labels. -/
def LabelsApart : Prop :=
  ∀ key replica key' replica' l, cfg.HasLabel key replica l → cfg.HasLabel key' replica' l → key = key'

/-- Decryption gives back what was encrypted. -/
def Lossless : Prop := cfg.encryptionEnabled = true → ∀ text, cfg.decrypt (cfg.encrypt text) = text

/-- Where the store holds a value for a replica at the start, it is the one of the key. -/
def Filled (initial : String → String) (kv : ℕ → Kv) : Prop :=
  ∀ key replica l, cfg.HasLabel key replica l → ∀ i, ∀ c ∈ kv i (toString l),
    PProxy.plaintext cfg c = initial key

end PProxyConfig

namespace PProxy
variable (cfg : PProxyConfig) (initial : String → String) (history : List ClientEvent)
  (order : List (RequestId × ClientRequest))

/-- A value that may be read under a label. -/
def Holds (label u : String) : Prop :=
  ∀ key replica l, cfg.HasLabel key replica l → toString l = label → Seen initial order key u

/-- An access that is forwarded: its label may receive its value, and a request with a value has
taken effect. -/
structure Forwarded (op : L3Operation) : Prop where
  holds : op.value ≠ "" → Holds cfg initial order op.label op.value
  put : op.seqId.clientId ≠ fakeClientId → op.isRead = false →
    (op.seqId.client, (.put, "")) ∈ (keyValues initial).outputs initial order
  cached : op.seqId.clientId ≠ fakeClientId → op.isRead = true → op.value ≠ "" →
    (op.seqId.client, (.get, op.value)) ∈ (keyValues initial).outputs initial order
  late : op.seqId.clientId ≠ fakeClientId → op.isRead = true → op.value = "" →
    ∃ key replica l, cfg.HasLabel key replica l ∧ toString l = op.label ∧
      Late history order op.seqId.client key

/-- What is true of an operation in its place. -/
def Sound : PProxyItem → Prop
  | .queued op => op.seqId.clientId ≠ fakeClientId ∧ Open history order op.seqId.client op.key op.value
  | .slot op updated => cfg.HasReplica op.key op.replica.toInt ∧
    (op.seqId.clientId = fakeClientId → op.value = "") ∧
    (op.seqId.clientId ≠ fakeClientId → if updated = true ∧ op.value ≠ "" then
        (op.seqId.client, (.put, "")) ∈ (keyValues initial).outputs initial order
      else Open history order op.seqId.client op.key op.value)
  | .read op => Forwarded cfg initial history order op
  | .replied e => Forwarded cfg initial history order e.1 ∧
    ∀ c ∈ e.2, Holds cfg initial order e.1.label (plaintext cfg c)
  | .cipher e => Forwarded cfg initial history order e.1 ∧
    Holds cfg initial order e.1.label (plaintext cfg e.2)
  | .write e => Holds cfg initial order e.op.label e.plaintext ∧ plaintext cfg e.cipher = e.plaintext ∧
    (e.op.seqId.clientId ≠ fakeClientId → Due initial history order e.op.seqId.client
      ((response e).opCode, (response e).result))
  | .response r => r.seqId.clientId ≠ fakeClientId ∧
    Due initial history order r.seqId.client (r.opCode, r.result)

variable {cfg initial history order} {history' : List ClientEvent}
  {order' : List (RequestId × ClientRequest)} {new : RequestId → Prop}

lemma Holds.mono {label u : String} (h : Holds cfg initial order label u)
    (more : ∀ x ∈ order, x ∈ order') : Holds cfg initial order' label u :=
  fun key replica l found same => (h key replica l found same).mono more

section Extends
variable (ext : Extends initial new history order history' order')
include ext

lemma Forwarded.extend {op : L3Operation} (h : Forwarded cfg initial history order op)
    (other : ¬ new op.seqId.client) : Forwarded cfg initial history' order' op where
  holds some' := (h.holds some').mono ext.grown
  put real write := ext.outputs _ (h.put real write)
  cached real read some' := ext.outputs _ (h.cached real read some')
  late real read none :=
    let ⟨key, replica, l, found, same, late⟩ := h.late real read none
    ⟨key, replica, l, found, same, Late.extend ext late other⟩

lemma Sound.extend {it : PProxyItem} (h : Sound cfg initial history order it)
    (other : ¬ new it.client) : Sound cfg initial history' order' it := by
  cases it with
  | queued op => exact ⟨h.1, Open.extend ext h.2 other⟩
  | slot op updated =>
    refine ⟨h.1, h.2.1, fun real => ?_⟩
    have before := h.2.2 real
    split
    · next done =>
      rw [if_pos done] at before
      exact ext.outputs _ before
    · next waits =>
      rw [if_neg waits] at before
      exact Open.extend ext before other
  | read op => exact Forwarded.extend ext h other
  | replied e => exact ⟨Forwarded.extend ext h.1 other, fun c mem => (h.2 c mem).mono ext.grown⟩
  | cipher e => exact ⟨Forwarded.extend ext h.1 other, h.2.mono ext.grown⟩
  | write e => exact ⟨h.1.mono ext.grown, h.2.1, fun real => Due.extend ext (h.2.2 real) other⟩
  | response r => exact ⟨h.1, Due.extend ext h.2 other⟩

end Extends

lemma Sound.replied {op : L3Operation} {kv : Kv} (h : Sound cfg initial history order (.read op))
    (stored : ∀ label, ∀ c ∈ kv label, Holds cfg initial order label (plaintext cfg c)) :
    Sound cfg initial history order (.replied (op, kv op.label)) :=
  ⟨h, fun c mem => stored op.label c mem⟩

lemma Sound.cipher {op : L3Operation} {c : String}
    (h : Sound cfg initial history order (.replied (op, some c))) :
    Sound cfg initial history order (.cipher (op, c)) :=
  ⟨h.1, h.2 c rfl⟩

lemma Sound.write (lossless : cfg.Lossless) {op : L3Operation} {c : String}
    (h : Sound cfg initial history order (.cipher (op, c))) :
    Sound cfg initial history order (.write (writeBack cfg op c)) := by
  obtain ⟨forwarded, read⟩ := h
  have same : plaintext cfg (writeBack cfg op c).cipher = (writeBack cfg op c).plaintext := by
    simp only [writeBack, plaintext]
    split
    · next enabled => exact lossless enabled _
    · rfl
  rcases eq_or_ne op.value "" with none | some'
  · have plain : (writeBack cfg op c).plaintext = plaintext cfg c := by simp [writeBack, none]
    refine ⟨plain ▸ read, same, fun real => ?_⟩
    cases kind : op.isRead with
    | false =>
      have answer : (response (writeBack cfg op c)).opCode = .put ∧
          (response (writeBack cfg op c)).result = "" := by simp [response, writeBack, kind]
      rw [answer.1, answer.2]
      exact .inl (forwarded.put real kind)
    | true =>
      have answer : (response (writeBack cfg op c)).opCode = .get ∧
          (response (writeBack cfg op c)).result = plaintext cfg c := by
        simp [response, writeBack, kind, none]
      rw [answer.1, answer.2]
      obtain ⟨key, replica, l, found, label, late⟩ := forwarded.late real kind none
      exact .inr ⟨key, _, rfl, late, read key replica l found label⟩
  · have plain : (writeBack cfg op c).plaintext = op.value := by simp [writeBack, some']
    refine ⟨plain ▸ forwarded.holds some', same, fun real => .inl ?_⟩
    cases kind : op.isRead with
    | false =>
      have answer : (response (writeBack cfg op c)).opCode = .put ∧
          (response (writeBack cfg op c)).result = "" := by simp [response, writeBack, kind]
      rw [answer.1, answer.2]
      exact forwarded.put real kind
    | true =>
      have answer : (response (writeBack cfg op c)).opCode = .get ∧
          (response (writeBack cfg op c)).result = op.value := by
        simp [response, writeBack, kind, some']
      rw [answer.1, answer.2]
      exact forwarded.cached real kind some'

end PProxy
end Shortstack
