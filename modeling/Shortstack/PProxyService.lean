import Shortstack.PProxyRuns

/-! The Pancake proxy as its clients see it, whatever they ask for and however its workers, their
threads and the servers of the store interleave. -/
namespace Shortstack
open Linearizability Transition Tokens KeyValues PProxy

namespace PProxyServer
variable {cfg : PProxyConfig} {initial : String → String} {kv : ℕ → Kv} {s : PProxyServer}
  {history : List ClientEvent}

instance (x : PProxyServer × List ClientEvent) (label : PProxyLabel) : Decidable (serves x label) :=
  match label with
  | ⟨_, .request ..⟩ => inferInstanceAs (Decidable (_ ∧ _))
  | ⟨_, .update⟩ => inferInstanceAs (Decidable True)
  | ⟨_, .lookup⟩ => inferInstanceAs (Decidable True)
  | ⟨_, .serveGet _⟩ => inferInstanceAs (Decidable True)
  | ⟨_, .getReply _⟩ => inferInstanceAs (Decidable True)
  | ⟨_, .crypto _⟩ => inferInstanceAs (Decidable True)
  | ⟨_, .servePut _⟩ => inferInstanceAs (Decidable True)
  | ⟨_, .putReply _⟩ => inferInstanceAs (Decidable True)
  | ⟨_, .respond _⟩ => inferInstanceAs (Decidable True)

/-- The answers are those of one register for each key, though a get may read its label long
before it is answered and labels may hold old values. No request is answered twice. -/
theorem answers_linearize (keeps : Keeps cfg) (filled : cfg.Filled initial kv)
    (run : Reaches (clientSystem cfg kv) serves (s, history)) :
    Linearizable (keyValues initial) history ∧
      ∀ j : RequestId, j.1 ≠ fakeClientId → timesAnswered history j ≤ timesInvoked history j := by
  obtain ⟨order, h⟩ := ordered_reaches keeps filled run
  exact ⟨⟨order, h.lin⟩, fun j real => (h.single j real).le none⟩

def backwards (text : String) : String := .ofList text.toList.reverse

lemma backwards_backwards (text : String) : backwards (backwards text) = text := by
  simp [backwards]

lemma oneKey_counts : IntCounts ((∅ : AList fun _ : String => ℤ).insert "a" 1) := by decide

def oneKey : PProxyConfig where
  keyToNumberOfReplicas := (∅ : AList fun _ : String => ℤ).insert "a" 1
  counts := oneKey_counts
  replicaToLabel := (∅ : AList fun _ : String => ℕ).insert "a0" 0
  securityBatchSize := 1
  storageBatchSize := 1
  kvHosts := 1
  encrypt := backwards
  decrypt := backwards

lemma oneKey_count {key : String} {n : ℤ} (found : oneKey.keyToNumberOfReplicas.lookup key = some n) :
    key = "a" ∧ n = 1 := by
  obtain rfl : key = "a" := by
    by_contra other
    rw [show oneKey.keyToNumberOfReplicas = (∅ : AList fun _ : String => ℤ).insert "a" 1 from rfl,
      AList.lookup_insert_ne other] at found
    simp at found
  exact ⟨rfl, Option.some.inj (found.symm.trans (by decide))⟩

lemma oneKey_replica {key : String} {replica : ℤ} (has : oneKey.HasReplica key replica) :
    key = "a" ∧ replica = 0 := by
  obtain ⟨n, found, low, high⟩ := has
  obtain ⟨rfl, rfl⟩ := oneKey_count found
  exact ⟨rfl, by omega⟩

lemma oneKey_apart : oneKey.LabelsApart := by
  intro key replica key' replica' l has has'
  rw [(oneKey_replica has.1).1, (oneKey_replica has'.1).1]

lemma oneKey_replicas (key : String) (n : ℤ)
    (found : oneKey.keyToNumberOfReplicas.lookup key = some n) : 0 < n :=
  (oneKey_count found).2 ▸ Int.one_pos

lemma oneKey_keeps : Keeps oneKey :=
  ⟨Nat.one_pos, oneKey_replicas, oneKey_apart, rfl, fun _ => backwards_backwards, rfl⟩

def oldKv : ℕ → Kv := fun _ _ => some "dlo"

lemma oneKey_filled : oneKey.Filled (fun _ => "old") oldKv := by
  rintro _ _ _ _ _ _ ⟨⟩
  change backwards "dlo" = "old"
  decide +kernel

/-- A request at a worker, up to the update cache. -/
def submits (worker : ℕ) (client number : Int64) (r : ClientRequest) : List PProxyLabel :=
  [⟨worker, .request { clientId := client, clientSeqNo := number } r fun _ => ⟨true, "a", "a", 0⟩⟩,
    ⟨worker, .update⟩]

def finishes (worker : ℕ) : List PProxyLabel :=
  [.getReply 0, .crypto 0, .servePut 0, .putReply 0, .respond 0].map (PProxyLabel.mk worker)

/-- A get reads its label, a put overtakes it, and both are answered before another get. -/
def overtaking : List PProxyLabel :=
  submits 0 7 0 (.get "a") ++ [⟨0, .lookup⟩, ⟨0, .serveGet 0⟩] ++ submits 1 8 0 (.put "a" "new") ++
    finishes 0 ++ [⟨1, .lookup⟩, ⟨1, .serveGet 0⟩] ++ finishes 1 ++
    submits 0 7 1 (.get "a") ++ [⟨0, .lookup⟩, ⟨0, .serveGet 0⟩] ++ finishes 0

def overtakingHistory : List ClientEvent :=
  [.invoke (7, 0) (.get "a"), .invoke (8, 0) (.put "a" "new"), .respond (7, 0) (.get, "old"),
    .respond (8, 0) (.put, ""), .invoke (7, 1) (.get "a"), .respond (7, 1) (.get, "new")]

theorem answers_linearize_overtaking :
    ∃ s, Reaches (clientSystem oneKey oldKv) serves (s, overtakingHistory) ∧
      Linearizable (keyValues fun _ => "old") overtakingHistory ∧
      ∀ j : RequestId, j.1 ≠ fakeClientId →
        timesAnswered overtakingHistory j ≤ timesInvoked overtakingHistory j := by
  have goes : (replay (clientSystem oneKey oldKv) serves (start oneKey oldKv, [])
      overtaking).map Prod.snd = some overtakingHistory := by decide +kernel
  have init : (clientSystem oneKey oldKv).init (start oneKey oldKv, []) := ⟨rfl, rfl⟩
  obtain ⟨s, run⟩ := Reaches.of_replay_record init goes
  exact ⟨s, run, answers_linearize oneKey_keeps oneKey_filled run⟩

end PProxyServer
end Shortstack
