import Shortstack.ConsistentHash
import Shortstack.StorageSpec

/-! The storage interface of an L3 worker over several servers. Every server has a queue of reads
and a queue of writes; a queue is sent as one command when it is full or flushed. What is sent to
a server and what still waits for it are together the requests that hash to it. -/
namespace Shortstack

abbrev GetRequest := String × L3Operation

abbrev PutRequest := String × String × L3Operation

/-- A read with the operations that its callback holds. -/
structure MGet where
  keys : List String
  ops : List L3Operation
  deriving DecidableEq, Repr

/-- A write with the operations that its callback holds. -/
structure MSet where
  keyVals : List (String × String)
  ops : List L3Operation
  deriving DecidableEq, Repr

/-- A queue of one server and the commands made from it so far. -/
structure Lane (α β : Type) where
  queue : List α
  issued : List β
  deriving DecidableEq, Repr

namespace Lane
variable {α β : Type}

def flushQueue (command : List α → β) (lane : Lane α β) : Lane α β :=
  if lane.queue.isEmpty then lane else ⟨[], lane.issued ++ [command lane.queue]⟩

def submit (command : List α → β) (batchSize : ℤ) (a : α) (lane : Lane α β) : Lane α β :=
  let lane := { lane with queue := lane.queue ++ [a] }
  if sizeAtLeast lane.queue.length batchSize then lane.flushQueue command else lane

end Lane

/-- A reply of the store. -/
inductive Reply
  | error (message : String)
  | null
  | text (value : String)
  | array (replies : List Reply)
  deriving Repr

structure RedisInterface where
  storageBatchSize : ℤ
  clients : ℕ
  getQueues : List (Lane GetRequest MGet)
  putQueues : List (Lane PutRequest MSet)

namespace RedisInterface

/-- The constructor connects to one server. -/
def new (batchSize : ℤ) : RedisInterface := ⟨batchSize, 1, [⟨[], []⟩], [⟨[], []⟩]⟩

def addServer (s : RedisInterface) : RedisInterface :=
  { s with
    clients := s.clients + 1
    getQueues := s.getQueues ++ [⟨[], []⟩]
    putQueues := s.putQueues ++ [⟨[], []⟩] }

/-- The two vectors that are filled while the queue is emptied. -/
def mget (requests : List GetRequest) : MGet :=
  requests.foldl (fun c r => ⟨c.keys ++ [r.1], c.ops ++ [r.2]⟩) ⟨[], []⟩

def mset (requests : List PutRequest) : MSet :=
  requests.foldl (fun c r => ⟨c.keyVals ++ [(r.1, r.2.1)], c.ops ++ [r.2.2]⟩) ⟨[], []⟩

def asyncGet (s : RedisInterface) (key : String) (op : L3Operation) : RedisInterface :=
  { s with
    getQueues := s.getQueues.modify (consistentHash key s.clients)
      (Lane.submit mget s.storageBatchSize (key, op)) }

def asyncPut (s : RedisInterface) (key value : String) (op : L3Operation) : RedisInterface :=
  { s with
    putQueues := s.putQueues.modify (consistentHash key s.clients)
      (Lane.submit mset s.storageBatchSize (key, value, op)) }

def flush (s : RedisInterface) : RedisInterface :=
  { s with
    putQueues := s.putQueues.map (Lane.flushQueue mset)
    getQueues := s.getQueues.map (Lane.flushQueue mget) }

/-- One element of the array in a reply. -/
def nestedValue : Reply → Except String String
  | .error message => .error message
  | .null => .error "GET returned NULL value"
  | .text value => .ok value
  | .array _ => .error "Reply is not a string"

/-- The arguments the callback of `MGET` passes on. -/
def getReply (command : MGet) : Reply → Except String (List L3Operation × List String)
  | .error message => .error message
  | .null => .error "GET returned NULL value"
  | .text _ => .error "Reply is not an array"
  | .array replies => (replies.mapM nestedValue).map fun vals => (command.ops, vals)

def putReply (command : MSet) : Reply → Except String (List L3Operation)
  | .error message => .error message
  | _ => .ok command.ops

end RedisInterface

inductive KvCall
  | asyncGet (key : String) (op : L3Operation)
  | asyncPut (key value : String) (op : L3Operation)
  | flush
  deriving DecidableEq, Repr

namespace KvCall

def run (s : RedisInterface) : KvCall → RedisInterface
  | asyncGet key op => s.asyncGet key op
  | asyncPut key value op => s.asyncPut key value op
  | flush => s.flush

def getRequest : KvCall → Option GetRequest
  | asyncGet key op => some (key, op)
  | _ => none

def putRequest : KvCall → Option PutRequest
  | asyncPut key value op => some (key, value, op)
  | _ => none

end KvCall

namespace Lane
variable {α β : Type} {command : List α → β} {content : β → List α}

/-- The requests sent and waiting, oldest first. -/
def history (content : β → List α) (lane : Lane α β) : List α :=
  lane.issued.flatMap content ++ lane.queue

lemma flushQueue_eq (lane : Lane α β) : lane.flushQueue command =
    ⟨[], lane.issued ++ (Shortstack.flush lane.queue).map command⟩ := by
  unfold flushQueue Shortstack.flush
  split
  · next none =>
    obtain ⟨queue, issued⟩ := lane
    obtain rfl : queue = [] := List.isEmpty_iff.mp none
    simp
  · rfl

lemma submit_eq (batchSize : ℤ) (a : α) (lane : Lane α β) : lane.submit command batchSize a =
    ⟨(enqueue batchSize lane.queue a).1,
      lane.issued ++ (enqueue batchSize lane.queue a).2.map command⟩ := by
  unfold submit enqueue
  dsimp only
  split
  · rw [flushQueue, if_neg (by simp)]
    rfl
  · simp

lemma flatMap_commands (inverse : ∀ q, content (command q) = q) (batches : List (List α)) :
    (batches.map command).flatMap content = batches.flatten := by
  rw [List.flatMap_map, List.flatMap_def]
  simp [inverse]

lemma flushQueue_history (inverse : ∀ q, content (command q) = q) (lane : Lane α β) :
    (lane.flushQueue command).history content = lane.history content := by
  rw [flushQueue_eq, history, List.flatMap_append, flatMap_commands inverse, flush_flatten,
    List.append_nil, history]

lemma submit_history (inverse : ∀ q, content (command q) = q) (batchSize : ℤ) (a : α)
    (lane : Lane α β) :
    (lane.submit command batchSize a).history content = lane.history content ++ [a] := by
  rw [submit_eq, history, List.flatMap_append, flatMap_commands inverse, List.append_assoc,
    enqueue_flatten, ← List.append_assoc, history]

lemma flushQueue_issued {P : β → Prop} {lane : Lane α β} (made : ∀ q, q ≠ [] → P (command q))
    (before : ∀ c ∈ lane.issued, P c) : ∀ c ∈ (lane.flushQueue command).issued, P c := by
  unfold flushQueue
  split
  · exact before
  · next some' =>
    intro c mem
    rcases List.mem_append.mp mem with mem | mem
    · exact before c mem
    · rw [List.mem_singleton.mp mem]
      exact made _ fun none => some' (by simp [none])

lemma submit_issued {P : β → Prop} {lane : Lane α β} (made : ∀ q, q ≠ [] → P (command q))
    (batchSize : ℤ) (a : α) (before : ∀ c ∈ lane.issued, P c) :
    ∀ c ∈ (lane.submit command batchSize a).issued, P c := by
  unfold submit
  dsimp only
  split
  · exact flushQueue_issued made before
  · exact before

end Lane

/-- The lanes of all servers for one kind of request: what was sent to each server and what waits
for it are the requests submitted that hash to it, and commands are made from requests. -/
structure Conserved {α β : Type} (content : β → List α) (P : β → Prop) (key : α → String)
    (servers : ℕ) (submitted : List α) (lanes : List (Lane α β)) : Prop where
  length : lanes.length = servers
  history : ∀ i lane, lanes[i]? = some lane →
    lane.history content = submitted.filter fun a => consistentHash (key a) servers = i
  made : ∀ lane ∈ lanes, ∀ c ∈ lane.issued, P c

namespace Conserved
variable {α β : Type} {content : β → List α} {command : List α → β} {P : β → Prop}
  {key : α → String} {servers : ℕ} {submitted : List α} {lanes : List (Lane α β)}

lemma start (servers : ℕ) :
    Conserved content P key servers [] (List.replicate servers ⟨[], []⟩) where
  length := List.length_replicate
  history i lane found := by
    rw [List.eq_of_mem_replicate (List.mem_of_getElem? found)]
    rfl
  made lane mem c inside := by
    rw [List.eq_of_mem_replicate mem] at inside
    simp at inside

lemma submit (h : Conserved content P key servers submitted lanes)
    (inverse : ∀ q, content (command q) = q) (made : ∀ q, q ≠ [] → P (command q))
    (batchSize : ℤ) (a : α) :
    Conserved content P key servers (submitted ++ [a])
      (lanes.modify (consistentHash (key a) servers) (Lane.submit command batchSize a)) where
  length := by rw [List.length_modify, h.length]
  history i lane found := by
    rw [List.getElem?_modify] at found
    obtain ⟨old, before, rfl⟩ := Option.map_eq_some_iff.mp found
    rw [List.filter_append]
    split
    · next same =>
      rw [Lane.submit_history inverse, h.history i old before]
      simp [same]
    · next other => simp [h.history i old before, other]
  made lane mem := by
    obtain ⟨i, found⟩ := List.mem_iff_getElem?.mp mem
    rw [List.getElem?_modify] at found
    obtain ⟨old, before, rfl⟩ := Option.map_eq_some_iff.mp found
    split
    · exact Lane.submit_issued made batchSize a (h.made old (List.mem_of_getElem? before))
    · exact h.made old (List.mem_of_getElem? before)

lemma flush (h : Conserved content P key servers submitted lanes)
    (inverse : ∀ q, content (command q) = q) (made : ∀ q, q ≠ [] → P (command q)) :
    Conserved content P key servers submitted (lanes.map (Lane.flushQueue command)) where
  length := by rw [List.length_map, h.length]
  history i lane found := by
    rw [List.getElem?_map] at found
    obtain ⟨old, before, rfl⟩ := Option.map_eq_some_iff.mp found
    rw [Lane.flushQueue_history inverse, h.history i old before]
  made lane mem := by
    obtain ⟨old, before, rfl⟩ := List.mem_map.mp mem
    exact Lane.flushQueue_issued made (h.made old before)

lemma one_key (h : Conserved content P key servers submitted lanes) (k : String) {i : ℕ}
    {lane : Lane α β} (found : lanes[i]? = some lane) :
    (lane.history content).filter (fun a => key a = k) =
      if consistentHash k servers = i then submitted.filter fun a => key a = k else [] := by
  rw [h.history i lane found, List.filter_filter]
  split
  · next same =>
    refine List.filter_congr fun a _ => ?_
    rcases eq_or_ne (key a) k with rfl | other
    · simp [same]
    · simp [other]
  · next other =>
    refine List.filter_eq_nil_iff.mpr fun a _ => ?_
    rcases eq_or_ne (key a) k with rfl | apart
    · simp [other]
    · simp [apart]

end Conserved

namespace RedisInterface

lemma mget_eq (requests : List GetRequest) :
    mget requests = ⟨requests.map Prod.fst, requests.map Prod.snd⟩ := by
  have fill : ∀ (requests : List GetRequest) (c : MGet),
      requests.foldl (fun c r => (⟨c.keys ++ [r.1], c.ops ++ [r.2]⟩ : MGet)) c =
        ⟨c.keys ++ requests.map Prod.fst, c.ops ++ requests.map Prod.snd⟩ := by
    intro requests
    induction requests with
    | nil => simp
    | cons r requests ih => simp [ih]
  rw [mget, fill]
  rfl

lemma mset_eq (requests : List PutRequest) :
    mset requests = ⟨requests.map fun r => (r.1, r.2.1), requests.map fun r => r.2.2⟩ := by
  have fill : ∀ (requests : List PutRequest) (c : MSet),
      requests.foldl
        (fun c r => (⟨c.keyVals ++ [(r.1, r.2.1)], c.ops ++ [r.2.2]⟩ : MSet)) c =
        ⟨c.keyVals ++ requests.map fun r => (r.1, r.2.1),
          c.ops ++ requests.map fun r => r.2.2⟩ := by
    intro requests
    induction requests with
    | nil => simp
    | cons r requests ih => simp [ih]
  rw [mset, fill]
  rfl

/-- The requests of a command. -/
def gets (command : MGet) : List GetRequest := command.keys.zip command.ops

def puts (command : MSet) : List PutRequest :=
  List.zipWith (fun kv op => (kv.1, kv.2, op)) command.keyVals command.ops

lemma gets_mget (requests : List GetRequest) : gets (mget requests) = requests := by
  rw [mget_eq, gets]
  exact (List.zip_of_prod rfl rfl).symm

lemma puts_mset (requests : List PutRequest) : puts (mset requests) = requests := by
  rw [mset_eq, puts, List.zipWith_map, List.zipWith_self]
  simp

/-- A read that is sent hands the callback its own operations, each next to the reply for its
own key. -/
def PairsReplies (command : MGet) : Prop :=
  command.ops ≠ [] ∧ command.ops.length = command.keys.length ∧
    ∀ vals : List String, vals.length = command.keys.length →
      getReply command (.array (vals.map .text)) = .ok (command.ops, vals)

def HandsBack (command : MSet) : Prop :=
  command.ops ≠ [] ∧ command.ops.length = command.keyVals.length ∧
    putReply command (.text "OK") = .ok command.ops

lemma pairsReplies_mget {requests : List GetRequest} (some' : requests ≠ []) :
    PairsReplies (mget requests) := by
  rw [mget_eq]
  have all : ∀ vals : List String, (vals.map Reply.text).mapM nestedValue = .ok vals := by
    intro vals
    induction vals with
    | nil => rfl
    | cons v vals ih =>
      rw [List.map_cons, List.mapM_cons, ih]
      rfl
  refine ⟨by simpa using some', by simp, fun vals _ => ?_⟩
  rw [getReply, all]
  rfl

lemma handsBack_mset {requests : List PutRequest} (some' : requests ≠ []) :
    HandsBack (mset requests) := by
  rw [mset_eq]
  exact ⟨by simpa using some', by simp, rfl⟩

/-- The state after some calls. -/
structure Accounts (servers : ℕ) (calls : List KvCall) (s : RedisInterface) : Prop where
  clients : s.clients = servers
  gets : Conserved gets PairsReplies Prod.fst servers (calls.filterMap KvCall.getRequest)
    s.getQueues
  puts : Conserved puts HandsBack Prod.fst servers (calls.filterMap KvCall.putRequest) s.putQueues

def servers (batchSize : ℤ) (more : ℕ) : RedisInterface := addServer^[more] (new batchSize)

lemma accounts_start (batchSize : ℤ) (more : ℕ) :
    Accounts (more + 1) [] (servers batchSize more) := by
  have shape : servers batchSize more =
      ⟨batchSize, more + 1, List.replicate (more + 1) ⟨[], []⟩,
        List.replicate (more + 1) ⟨[], []⟩⟩ := by
    unfold servers
    induction more with
    | zero => rfl
    | succ more ih =>
      rw [Function.iterate_succ_apply', ih, addServer]
      simp [← List.replicate_succ']
  rw [shape]
  exact ⟨rfl, .start _, .start _⟩

lemma Accounts.step {n : ℕ} {calls : List KvCall} {s : RedisInterface} (h : Accounts n calls s)
    (call : KvCall) : Accounts n (calls ++ [call]) (call.run s) := by
  cases call with
  | asyncGet key op =>
    refine ⟨h.clients, ?_, ?_⟩
    · rw [List.filterMap_append]
      unfold KvCall.run asyncGet
      rw [h.clients]
      exact h.gets.submit gets_mget (fun _ => pairsReplies_mget) s.storageBatchSize (key, op)
    · rw [List.filterMap_append, List.filterMap_cons_none rfl, List.filterMap_nil, List.append_nil]
      exact h.puts
  | asyncPut key value op =>
    refine ⟨h.clients, ?_, ?_⟩
    · rw [List.filterMap_append, List.filterMap_cons_none rfl, List.filterMap_nil, List.append_nil]
      exact h.gets
    · rw [List.filterMap_append]
      unfold KvCall.run asyncPut
      rw [h.clients]
      exact h.puts.submit puts_mset (fun _ => handsBack_mset) s.storageBatchSize (key, value, op)
  | flush =>
    refine ⟨h.clients, ?_, ?_⟩
    · rw [List.filterMap_append, List.filterMap_cons_none rfl, List.filterMap_nil, List.append_nil]
      exact h.gets.flush gets_mget fun _ => pairsReplies_mget
    · rw [List.filterMap_append, List.filterMap_cons_none rfl, List.filterMap_nil, List.append_nil]
      exact h.puts.flush puts_mset fun _ => handsBack_mset

lemma accounts_run (batchSize : ℤ) (more : ℕ) (calls : List KvCall) :
    Accounts (more + 1) calls (calls.foldl KvCall.run (servers batchSize more)) := by
  induction calls using List.reverseRecOn with
  | nil => exact accounts_start batchSize more
  | append_singleton calls call ih =>
    rw [List.foldl_append]
    exact ih.step call

/-- What a server got and what waits for it are the requests that hash to it, in order, and a
key has one server. -/
def Routed {α β : Type} (content : β → List α) (key : α → String) (servers : ℕ)
    (submitted : List α) (lanes : List (Lane α β)) : Prop :=
  lanes.length = servers ∧ ∀ i lane, lanes[i]? = some lane →
    lane.issued.flatMap content ++ lane.queue =
      submitted.filter (fun a => consistentHash (key a) servers = i) ∧
    ∀ k, (lane.issued.flatMap content ++ lane.queue).filter (fun a => key a = k) =
      if consistentHash k servers = i then submitted.filter fun a => key a = k else []

lemma routed_of_conserved {α β : Type} {content : β → List α} {P : β → Prop} {key : α → String}
    {servers : ℕ} {submitted : List α} {lanes : List (Lane α β)}
    (h : Conserved content P key servers submitted lanes) :
    Routed content key servers submitted lanes :=
  ⟨h.length, fun i lane found => ⟨h.history i lane found, fun k => h.one_key k found⟩⟩

/-- Whatever is called, no read and no write is lost or mixed up between the servers, every
command hands its own operations to the callback next to the replies for its keys, and a flush
leaves nothing waiting. -/
theorem kv_queues_conserve (batchSize : ℤ) (more : ℕ) (calls : List KvCall) :
    let s := calls.foldl KvCall.run (servers batchSize more)
    Routed gets Prod.fst (more + 1) (calls.filterMap KvCall.getRequest) s.getQueues ∧
    Routed puts Prod.fst (more + 1) (calls.filterMap KvCall.putRequest) s.putQueues ∧
    (∀ key, consistentHash key (more + 1) < more + 1) ∧
    (∀ lane ∈ s.getQueues, ∀ c ∈ lane.issued, PairsReplies c) ∧
    (∀ lane ∈ s.putQueues, ∀ c ∈ lane.issued, HandsBack c) ∧
    (∀ lane ∈ s.flush.getQueues, lane.queue = []) ∧
    ∀ lane ∈ s.flush.putQueues, lane.queue = [] := by
  have h := accounts_run batchSize more calls
  refine ⟨routed_of_conserved h.gets, routed_of_conserved h.puts,
    fun key => consistentHash_lt key (Nat.succ_pos more), h.gets.made, h.puts.made, ?_, ?_⟩
  · intro lane mem
    obtain ⟨old, -, rfl⟩ := List.mem_map.mp mem
    rw [Lane.flushQueue_eq]
  · intro lane mem
    obtain ⟨old, -, rfl⟩ := List.mem_map.mp mem
    rw [Lane.flushQueue_eq]

end RedisInterface
end Shortstack
