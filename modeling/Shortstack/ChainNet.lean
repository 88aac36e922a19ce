import Shortstack.ChainModuleSpec
import Shortstack.LibTransition

/-! A replication chain as a network of replicas. Rows are the replicas of one
column in chain order; requests travel on one FIFO link per ordered pair of rows,
acknowledgement batches travel back. A crash leaves the messages in flight where
they are: they may still be delivered, or be lost, at any later moment. The three
relink steps of the manager (`setup`, `fetch`, `resend`) are separate steps. -/
namespace Shortstack
open Transition

structure AckMessage where
  src : ℕ
  dst : ℕ
  seqs : List SequenceId
  deriving DecidableEq, Repr

structure ChainNet (σ : Type) where
  rows : ℕ
  node : ℕ → ChainModule σ
  alive : ℕ → Bool
  link : ℕ → ℕ → List ChainOp
  acks : List AckMessage
  fetched : ℕ → Option ℤ

/-- Connections that leave the chain, and the clock, as seen during one step. -/
structure Outside (μ : Type) where
  out : μ → Bool
  clock : Option Int64

inductive NetLabel (σ : Type)
  | request (i : ℕ) (user : σ) (seq : SequenceId) (args : ArgList)
  | deliver (i j : ℕ)
  | ackDeliver (k : ℕ)
  | ackFrom (i : ℕ) (user : σ) (seqs : List SequenceId)
  | touch (i : ℕ) (user : σ)
  | crash (i : ℕ)
  | setup (i : ℕ)
  | fetch (i : ℕ)
  | resend (i : ℕ)
  | lose (i j : ℕ) (kept : List ChainOp)
  | loseAck (k : ℕ)

/-- The steps of a chain without failures. -/
def NetLabel.steady {σ : Type} : NetLabel σ → Bool
  | .request .. | .deliver .. | .ackDeliver .. | .ackFrom .. => true
  | _ => false

/-- The row at which a step of a chain executes code. -/
def NetLabel.row {σ : Type} : NetLabel σ → List AckMessage → ℕ
  | .request i .., _ | .deliver _ i, _ | .ackFrom i .., _ | .touch i _, _ | .crash i, _
  | .setup i, _ | .fetch i, _ | .resend i, _ | .lose i .., _ => i
  | .ackDeliver k, acks | .loseAck k, acks => ((acks[k]?).map AckMessage.dst).getD 0

/-- Steps of a chain that come from inside the tier or from the manager. -/
def NetLabel.internal {σ : Type} : NetLabel σ → Bool
  | .request .. | .ackFrom .. | .touch .. | .crash .. => false
  | _ => true

structure NetResult (σ μ : Type) where
  net : ChainNet σ
  outs : List μ
  status : Status

namespace ChainNet
variable {σ μ : Type} (cb : Callbacks σ μ) (ext : Outside μ) (net : ChainNet σ)

def setLink (i j : ℕ) (ops : List ChainOp) : ChainNet σ :=
  { net with link := fun a b => if a = i ∧ b = j then ops else net.link a b }

def up (peer : Option ℕ) : Bool :=
  match peer with
  | some j => net.alive j
  | none => false

def env (m : ChainModule σ) : Env μ := ⟨net.up m.next, net.up m.prev, ext.out, ext.clock⟩

/-- Put the sends of a replica on its links. -/
def deposit (i : ℕ) (o : Outcome (ChainModule σ) (Send μ)) : ChainNet σ :=
  { net with
    node := Function.update net.node i o.state
    link := fun a b => if a = i ∧ o.state.next = some b then
      net.link a b ++ requestsOf o.sent else net.link a b
    acks := net.acks ++ match o.state.prev with
      | some p => (acksOf o.sent).map (⟨i, p, ·⟩)
      | none => [] }

def finish (i : ℕ) (o : Outcome (ChainModule σ) (Send μ)) : NetResult σ μ :=
  ⟨net.deposit i o, outsOf o.sent, o.status⟩

/-- The first request a handler sees binds the connection back to the previous replica;
later ones leave it as it is. -/
def meet (m : ChainModule σ) (i : ℕ) : ChainModule σ :=
  match m.prev with
  | some _ => m
  | none => { m with prev := some i }

/-- The replica on row `i` is gone. -/
def fail (i : ℕ) : ChainNet σ := { net with alive := Function.update net.alive i false }

def hasBelow (i : ℕ) : Bool := (List.range i).any net.alive

def hasAbove (i : ℕ) : Bool := (List.range net.rows).any fun j => decide (i < j) && net.alive j

/-- The role the manager gives a survivor from its position among the survivors. -/
def survivorRole (i : ℕ) : ChainRole :=
  match net.hasBelow i, net.hasAbove i with
  | false, false => .singleton
  | false, true => .head
  | true, true => .mid
  | true, false => .tail

def nextSurvivor (i : ℕ) : Option ℕ :=
  (List.range net.rows).find? fun j => decide (i < j) && net.alive j

/-- The number the manager passes to `resend_pending`: the one fetched from the next
survivor, or -1 if there is none. -/
def successorSeq (i : ℕ) : ℤ :=
  match net.nextSurvivor i with
  | some j => (net.node j).fetchSeq
  | none => -1

def step : NetLabel σ → Option (NetResult σ μ)
  | .request i user seq args =>
    if net.alive i && (net.node i).isHead then
      let m := (net.node i).withUser user
      some (net.finish i (m.chainRequest cb (net.env ext m) seq args))
    else none
  | .deliver i j =>
    match net.link i j with
    | [] => none
    | op :: rest =>
      if net.alive j then
        let m := meet (net.node j) i
        some ((net.setLink i j rest).finish j (m.chainRequest cb (net.env ext m) op.seq op.args))
      else none
  | .ackDeliver k =>
    match net.acks[k]? with
    | none => none
    | some a =>
      if net.alive a.dst then
        let m := net.node a.dst
        some ({ net with acks := net.acks.eraseIdx k }.finish a.dst
          (m.ackBatch cb (net.env ext m) a.seqs))
      else none
  | .ackFrom i user seqs =>
    if net.alive i then
      let m := (net.node i).withUser user
      some (net.finish i (m.ackBatch cb (net.env ext m) seqs))
    else none
  | .touch i user =>
    if net.alive i then some (net.finish i (.done ((net.node i).withUser user))) else none
  | .crash i =>
    if net.alive i then
      some ⟨net.fail i, [], .returned⟩
    else none
  | .setup i =>
    if net.alive i then
      some (net.finish i (.done ((net.node i).setup cb (net.survivorRole i) (net.nextSurvivor i))))
    else none
  | .fetch i =>
    if net.alive i then
      some ⟨{ net with fetched := Function.update net.fetched i (some (net.successorSeq i)) },
        [], .returned⟩
    else none
  | .resend i =>
    match net.fetched i with
    | none => none
    | some n =>
      if net.alive i then
        let m := net.node i
        some ({ net with fetched := Function.update net.fetched i none }.finish i
          (m.resendPending cb (net.env ext m) n))
      else none
  | .lose i j kept =>
    if (!net.alive i || !net.alive j) && kept.isSublist (net.link i j) then
      some ⟨net.setLink i j kept, [], .returned⟩
    else none
  | .loseAck k =>
    match net.acks[k]? with
    | none => none
    | some a =>
      if !net.alive a.src || !net.alive a.dst then
        some ⟨{ net with acks := net.acks.eraseIdx k }, [], .returned⟩
      else none

/-- Everything a step can be, with what its guard has checked. -/
inductive StepCase : NetLabel σ → NetResult σ μ → Prop
  | request {i user seq args} (alive : net.alive i = true) (head : (net.node i).isHead = true) :
    StepCase (.request i user seq args) (net.finish i (((net.node i).withUser user).chainRequest cb
      (net.env ext ((net.node i).withUser user)) seq args))
  | deliver {i j op rest} (link : net.link i j = op :: rest) (alive : net.alive j = true) :
    StepCase (.deliver i j) ((net.setLink i j rest).finish j ((meet (net.node j) i).chainRequest cb
      (net.env ext (meet (net.node j) i)) op.seq op.args))
  | ackDeliver {k a} (found : net.acks[k]? = some a) (alive : net.alive a.dst = true) :
    StepCase (.ackDeliver k) ({ net with acks := net.acks.eraseIdx k }.finish a.dst
      ((net.node a.dst).ackBatch cb (net.env ext (net.node a.dst)) a.seqs))
  | ackFrom {i user seqs} (alive : net.alive i = true) :
    StepCase (.ackFrom i user seqs) (net.finish i (((net.node i).withUser user).ackBatch cb
      (net.env ext ((net.node i).withUser user)) seqs))
  | touch {i user} (alive : net.alive i = true) :
    StepCase (.touch i user) (net.finish i (.done ((net.node i).withUser user)))
  | crash {i} (alive : net.alive i = true) : StepCase (.crash i) ⟨net.fail i, [], .returned⟩
  | setup {i} (alive : net.alive i = true) : StepCase (.setup i) (net.finish i
      (.done ((net.node i).setup cb (net.survivorRole i) (net.nextSurvivor i))))
  | fetch {i} (alive : net.alive i = true) : StepCase (.fetch i)
      ⟨{ net with fetched := Function.update net.fetched i (some (net.successorSeq i)) },
        [], .returned⟩
  | resend {i n} (fetched : net.fetched i = some n) (alive : net.alive i = true) :
    StepCase (.resend i) ({ net with fetched := Function.update net.fetched i none }.finish i
      ((net.node i).resendPending cb (net.env ext (net.node i)) n))
  | lose {i j kept} (down : net.alive i = false ∨ net.alive j = false)
      (sub : kept.Sublist (net.link i j)) :
    StepCase (.lose i j kept) ⟨net.setLink i j kept, [], .returned⟩
  | loseAck {k a} (found : net.acks[k]? = some a) :
    StepCase (.loseAck k) ⟨{ net with acks := net.acks.eraseIdx k }, [], .returned⟩

theorem step_cases {cb : Callbacks σ μ} {ext : Outside μ} {net : ChainNet σ} {l : NetLabel σ}
    {r : NetResult σ μ} (taken : net.step cb ext l = some r) : StepCase cb ext net l r := by
  cases l with
  | request i user seq args =>
    simp only [step, Bool.and_eq_true, Option.ite_none_right_eq_some, Option.some.injEq] at taken
    obtain ⟨⟨alive, head⟩, rfl⟩ := taken
    exact .request alive head
  | deliver i j =>
    simp only [step] at taken
    split at taken
    · simp at taken
    · next op rest link =>
      simp only [Option.ite_none_right_eq_some, Option.some.injEq] at taken
      obtain ⟨alive, rfl⟩ := taken
      exact .deliver link alive
  | ackDeliver k =>
    simp only [step] at taken
    split at taken
    · simp at taken
    · next a found =>
      simp only [Option.ite_none_right_eq_some, Option.some.injEq] at taken
      obtain ⟨alive, rfl⟩ := taken
      exact .ackDeliver found alive
  | ackFrom i user seqs =>
    simp only [step, Option.ite_none_right_eq_some, Option.some.injEq] at taken
    obtain ⟨alive, rfl⟩ := taken
    exact .ackFrom alive
  | touch i user =>
    simp only [step, Option.ite_none_right_eq_some, Option.some.injEq] at taken
    obtain ⟨alive, rfl⟩ := taken
    exact .touch alive
  | crash i =>
    simp only [step, Option.ite_none_right_eq_some, Option.some.injEq] at taken
    obtain ⟨alive, rfl⟩ := taken
    exact .crash alive
  | setup i =>
    simp only [step, Option.ite_none_right_eq_some, Option.some.injEq] at taken
    obtain ⟨alive, rfl⟩ := taken
    exact .setup alive
  | fetch i =>
    simp only [step, Option.ite_none_right_eq_some, Option.some.injEq] at taken
    obtain ⟨alive, rfl⟩ := taken
    exact .fetch alive
  | resend i =>
    simp only [step] at taken
    split at taken
    · simp at taken
    · next n fetched =>
      simp only [Option.ite_none_right_eq_some, Option.some.injEq] at taken
      obtain ⟨alive, rfl⟩ := taken
      exact .resend fetched alive
  | lose i j kept =>
    simp only [step, Bool.and_eq_true, Bool.or_eq_true, Bool.not_eq_true',
      Option.ite_none_right_eq_some, Option.some.injEq] at taken
    obtain ⟨⟨down, sub⟩, rfl⟩ := taken
    exact .lose down (List.isSublist_iff_sublist.mp sub)
  | loseAck k =>
    simp only [step] at taken
    split at taken
    · simp at taken
    · next a found =>
      simp only [Option.ite_none_right_eq_some, Option.some.injEq] at taken
      obtain ⟨_, rfl⟩ := taken
      exact .loseAck found

lemma step_alive {cb : Callbacks σ μ} {ext : Outside μ} {net : ChainNet σ} {l : NetLabel σ}
    {r : NetResult σ μ} (taken : net.step cb ext l = some r) (stays : ∀ i, l ≠ .crash i) :
    r.net.alive = net.alive := by
  cases step_cases taken with
  | @crash i _ => exact absurd rfl (stays i)
  | request | deliver | ackDeliver | ackFrom | touch | setup | fetch | resend | lose | loseAck => rfl

end ChainNet

/-- Role and successor of a replica at start-up, from the sorted rows of its column. -/
def initRole (rows i : ℕ) : ChainRole :=
  if rows = 1 then .singleton
  else if i = 0 then .head
  else if i + 1 = rows then .tail
  else .mid

def initNext (rows i : ℕ) : Option ℕ := if i + 1 < rows then some (i + 1) else none

/-- A chain as `init_proxy` leaves it on every row. -/
def ChainNet.start {σ μ : Type} (cb : Callbacks σ μ) (rows : ℕ) (user : ℕ → σ)
    (ackBatchSize : ℕ → ℤ) : ChainNet σ where
  rows := rows
  node i := ({ user := user i, chainAckBatchSize := ackBatchSize i } : ChainModule σ).setup cb
    (initRole rows i) (initNext rows i)
  alive i := decide (i < rows)
  link _ _ := []
  acks := []
  fetched _ := none

/-- The chain with an arbitrary outside. -/
def chainSystem {σ μ : Type} (cb : Callbacks σ μ) :
    System (ChainNet σ) (Outside μ × NetLabel σ) where
  init net := ∃ rows user ackBatchSize, net = ChainNet.start cb rows user ackBatchSize
  step net l := (net.step cb l.1 l.2).map NetResult.net

/-- Only the tail is acknowledged from outside, and only for commands it has run. -/
def ackedRan {σ μ : Type} (net : ChainNet σ) (l : Outside μ × NetLabel σ) : Prop :=
  match l.2 with
  | .ackFrom i _ seqs =>
    (net.node i).isTail = true ∧ ∀ q ∈ seqs, q.serverSeqNo ≤ (net.node i).chainSeqNo
  | _ => True

instance {σ μ : Type} (net : ChainNet σ) (l : Outside μ × NetLabel σ) :
    Decidable (ackedRan net l) :=
  match l with
  | (_, .ackFrom i _ seqs) =>
    inferInstanceAs (Decidable ((net.node i).isTail = true ∧
      ∀ q ∈ seqs, q.serverSeqNo ≤ (net.node i).chainSeqNo))
  | (_, .request ..) | (_, .deliver ..) | (_, .ackDeliver ..) | (_, .touch ..) | (_, .crash ..)
  | (_, .setup ..) | (_, .fetch ..) | (_, .resend ..) | (_, .lose ..) | (_, .loseAck ..) =>
    isTrue trivial

end Shortstack
