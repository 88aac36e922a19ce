import Shortstack.ChainModule
import Shortstack.LibDecimal

/-! The operations an L1 batch is made of and their flat encoding as chain
arguments. The index into the argument vector is kept as the remaining suffix. -/
namespace Shortstack

/-- `isspace` of the C locale. -/
def isSpace (c : Char) : Bool := c == ' ' || (decide (9 ≤ c.toNat) && decide (c.toNat ≤ 13))

/-- `strtoll`: leading blanks, a sign, digits, and whatever follows them. -/
def strtoll (s : String) : Option ℤ :=
  let digits := fun (cs : List Char) =>
    let ds := cs.takeWhile Char.isDigit
    if ds.isEmpty then none else some (Nat.ofDigitChars 10 ds 0 : ℤ)
  match s.toList.dropWhile isSpace with
  | '-' :: cs => (digits cs).map Neg.neg
  | '+' :: cs => digits cs
  | cs => digits cs

/-- `std::stoll`: a number outside of the range of `long long` is refused as well. -/
def stoll (s : String) : Option ℤ :=
  (strtoll s).filter fun z => decide (-2 ^ 63 ≤ z) && decide (z < 2 ^ 63)

/-- `std::stoi`: the same for the range of `int`. -/
def stoi (s : String) : Option ℤ :=
  (strtoll s).filter fun z => decide (-2 ^ 31 ≤ z) && decide (z < 2 ^ 31)

structure L2Operation where
  seqId : SequenceId := {}
  key : String
  replica : Int32
  value : String
  deriving DecidableEq, Repr, Inhabited

namespace L2Operation

def serialize (op : L2Operation) : ArgList :=
  [toString op.seqId.clientId, toString op.seqId.clientSeqNo, op.key, toString op.replica,
    op.value] ++
  (match op.seqId.ts with
    | some t => ["$ts$", toString t]
    | none => []) ++
  (match op.seqId.diag with
    | some d => ["$diag$", d]
    | none => [])

def readDiag (seq : SequenceId) : ArgList → SequenceId × ArgList
  | tag :: d :: rest =>
    if tag = "$diag$" then ({ seq with diag := some d }, rest) else (seq, tag :: d :: rest)
  | args => (seq, args)

def readTs (seq : SequenceId) : ArgList → Except String (SequenceId × ArgList)
  | tag :: t :: rest =>
    if tag = "$ts$" then
      match stoll t with
      | some t => .ok (readDiag { seq with ts := some (.ofInt t) } rest)
      | none => .error "stoll"
    else .ok (readDiag seq (tag :: t :: rest))
  | args => .ok (readDiag seq args)

def deserialize : ArgList → Except String (L2Operation × ArgList)
  | clientId :: clientSeqNo :: key :: replica :: value :: rest =>
    match stoll clientId, stoll clientSeqNo with
    | some clientId, some clientSeqNo =>
      match stoi replica with
      | some replica =>
        match readTs { clientId := .ofInt clientId, clientSeqNo := .ofInt clientSeqNo } rest with
        | .ok (seq, rest) => .ok (⟨seq, key, .ofInt replica, value⟩, rest)
        | .error e => .error e
      | none => .error "stoi"
    | _, _ => .error "stoll"
  | _ => .error "l2_operation deserialize failed"

/-- The loop of `replication_complete` over all operations of a batch. -/
def deserializeAll : ℕ → ArgList → Except String (List L2Operation)
  | 0, _ => .ok []
  | fuel + 1, args =>
    if args.isEmpty then .ok []
    else match deserialize args with
      | .ok (op, rest) =>
        match deserializeAll fuel rest with
        | .ok ops => .ok (op :: ops)
        | .error e => .error e
      | .error e => .error e

def deserializeBatch (args : ArgList) : Except String (List L2Operation) :=
  deserializeAll args.length args

/-- What survives the encoding: the client's part of the sequence number. -/
def plain (op : L2Operation) : L2Operation :=
  { op with
    seqId :=
      { clientId := op.seqId.clientId
        clientSeqNo := op.seqId.clientSeqNo
        ts := op.seqId.ts
        diag := op.seqId.diag } }

section Roundtrip

lemma takeWhile_isDigit_toDigits (n : ℕ) :
    (Nat.toDigits 10 n).takeWhile Char.isDigit = Nat.toDigits 10 n := by
  rw [List.takeWhile_eq_self_iff]
  intro c hc
  exact Nat.isDigit_of_mem_toDigits (by decide) (by decide) hc

lemma dropWhile_isSpace_toDigits (n : ℕ) :
    (Nat.toDigits 10 n).dropWhile isSpace = Nat.toDigits 10 n := by
  cases digits : Nat.toDigits 10 n with
  | nil => rfl
  | cons c cs =>
    have digit : c.isDigit = true :=
      Nat.isDigit_of_mem_toDigits (b := 10) (n := n) (by decide) (by decide) (by simp [digits])
    have visible : isSpace c = false := by
      have bounds := Char.isDigit_iff_toNat.mp digit
      simp only [isSpace, Bool.or_eq_false_iff, beq_eq_false_iff_ne, Bool.and_eq_false_iff,
        decide_eq_false_iff_not]
      constructor
      · rintro rfl
        exact absurd bounds.1 (by decide)
      · have zero : '0'.toNat = 48 := rfl
        right
        omega
    simp [visible]

lemma strtoll_toDigits (n : ℕ) :
    (let ds := (Nat.toDigits 10 n).takeWhile Char.isDigit
     if ds.isEmpty then none else some (Nat.ofDigitChars 10 ds 0 : ℤ)) = some (n : ℤ) := by
  simp only [takeWhile_isDigit_toDigits, List.isEmpty_iff, Nat.toDigits_ne_nil, if_false,
    Nat.ofDigitChars_ten_toDigits]

lemma strtoll_toString_nat (n : ℕ) : strtoll (toString n) = some (n : ℤ) := by
  have signless : ∀ c cs, Nat.toDigits 10 n = c :: cs → c ≠ '-' ∧ c ≠ '+' := by
    intro c cs digits
    have digit : c.isDigit = true :=
      Nat.isDigit_of_mem_toDigits (b := 10) (n := n) (by decide) (by decide) (by simp [digits])
    constructor <;> rintro rfl <;> exact absurd digit (by decide)
  have value := strtoll_toDigits n
  simp only [strtoll, Nat.toString_eq_repr, Nat.toList_repr, dropWhile_isSpace_toDigits]
  cases digits : Nat.toDigits 10 n with
  | nil => exact absurd digits Nat.toDigits_ne_nil
  | cons c cs =>
    obtain ⟨minus, plus⟩ := signless c cs digits
    rw [digits] at value
    split
    · next h => exact absurd (List.cons.inj h).1 minus
    · next h => exact absurd (List.cons.inj h).1 plus
    · exact value

lemma strtoll_toString (z : ℤ) : strtoll (toString z) = some z := by
  cases z with
  | ofNat n => exact strtoll_toString_nat n
  | negSucc n =>
    have text : (toString (Int.negSucc n)).toList = '-' :: Nat.toDigits 10 (n + 1) := by
      simp [toString, Int.repr, Nat.toList_repr]
    have value := strtoll_toDigits (n + 1)
    have visible : isSpace '-' = false := by decide
    simp only [strtoll, text, List.dropWhile_cons, visible, Bool.false_eq_true, if_false]
    rw [value]
    rfl

lemma stoll_toString {z : ℤ} (low : -2 ^ 63 ≤ z) (high : z < 2 ^ 63) :
    stoll (toString z) = some z := by
  rw [stoll, strtoll_toString, Option.filter_some, if_pos]
  simpa using ⟨low, high⟩

lemma stoi_toString {z : ℤ} (low : -2 ^ 31 ≤ z) (high : z < 2 ^ 31) :
    stoi (toString z) = some z := by
  rw [stoi, strtoll_toString, Option.filter_some, if_pos]
  simpa using ⟨low, high⟩

lemma stoll_toString_int64 (z : Int64) : stoll (toString z) = some z.toInt :=
  stoll_toString z.le_toInt z.toInt_lt

lemma stoi_toString_int32 (z : Int32) : stoi (toString z) = some z.toInt :=
  stoi_toString z.le_toInt z.toInt_lt

lemma toString_ne_tag {tag : String} (h : stoll tag = none) (z : Int64) : toString z ≠ tag := by
  intro same
  have := stoll_toString_int64 z
  rw [same, h] at this
  simp at this

/-- The rest of an argument list holds no optional field of the operation before it. -/
def NoField (rest : ArgList) : Prop :=
  ∀ tag ∈ rest.head?, tag ≠ "$ts$" ∧ tag ≠ "$diag$"

lemma readDiag_of_noField {rest : ArgList} (h : NoField rest) (seq : SequenceId) :
    readDiag seq rest = (seq, rest) := by
  match rest with
  | [] | [_] => rfl
  | tag :: d :: rest => simp [readDiag, (h tag (by simp)).2]

lemma readTs_of_noField {rest : ArgList} (h : NoField rest) (seq : SequenceId) :
    readTs seq rest = .ok (readDiag seq rest) := by
  match rest with
  | [] | [_] => rfl
  | tag :: d :: rest => simp [readTs, (h tag (by simp)).1]

lemma readDiag_field {rest : ArgList} (h : NoField rest) (seq : SequenceId)
    (absent : seq.diag = none) (diag : Option String) :
    readDiag seq ((match diag with
      | some d => ["$diag$", d]
      | none => []) ++ rest) = ({ seq with diag := diag }, rest) := by
  cases diag with
  | none =>
    rw [List.nil_append, readDiag_of_noField h, ← absent]
  | some d => simp [readDiag]

theorem deserialize_serialize (op : L2Operation) {rest : ArgList} (h : NoField rest) :
    deserialize (op.serialize ++ rest) = .ok (op.plain, rest) := by
  obtain ⟨seq, key, replica, value⟩ := op
  simp only [serialize, List.cons_append, List.nil_append, List.append_assoc, deserialize,
    stoll_toString_int64, stoi_toString_int32, Int64.ofInt_toInt, Int32.ofInt_toInt, plain]
  cases hts : seq.ts with
  | some t =>
    simp only [List.cons_append, List.nil_append, readTs, stoll_toString_int64, Int64.ofInt_toInt,
      if_true]
    rw [readDiag_field h _ rfl]
  | none =>
    simp only [List.nil_append]
    have read : ∀ seq' : SequenceId, seq'.diag = none →
        readTs seq' ((match seq.diag with
          | some d => ["$diag$", d]
          | none => []) ++ rest) = .ok ({ seq' with diag := seq.diag }, rest) := by
      intro seq' absent
      rw [← readDiag_field h seq' absent]
      cases seq.diag with
      | none => exact readTs_of_noField h seq'
      | some d => simp [readTs]
    rw [read _ rfl]

lemma noField_serialize (ops : List L2Operation) : NoField (ops.flatMap serialize) := by
  cases ops with
  | nil => simp [NoField]
  | cons op ops =>
    intro tag htag
    simp only [List.flatMap_cons, serialize, List.cons_append, List.head?_cons,
      Option.mem_def, Option.some.injEq] at htag
    rw [← htag]
    exact ⟨toString_ne_tag (by decide) _, toString_ne_tag (by decide) _⟩

lemma length_le_flatMap_serialize (ops : List L2Operation) :
    ops.length ≤ (ops.flatMap serialize).length := by
  induction ops with
  | nil => simp
  | cons op ops ih =>
    simp only [List.flatMap_cons, List.length_append, List.length_cons, serialize]
    omega

lemma deserializeAll_serialize (ops : List L2Operation) {fuel : ℕ} (enough : ops.length ≤ fuel) :
    deserializeAll fuel (ops.flatMap serialize) = .ok (ops.map plain) := by
  induction ops generalizing fuel with
  | nil => cases fuel <;> rfl
  | cons op ops ih =>
    cases fuel with
    | zero => simp at enough
    | succ fuel =>
      have nonempty : (op.serialize ++ ops.flatMap serialize).isEmpty = false := by
        simp [serialize]
      rw [List.flatMap_cons, deserializeAll, nonempty,
        deserialize_serialize op (noField_serialize ops)]
      simp only [Bool.false_eq_true, if_false]
      rw [ih (by simpa using enough)]
      rfl

theorem deserializeBatch_serialize (ops : List L2Operation) :
    deserializeBatch (ops.flatMap serialize) = .ok (ops.map plain) :=
  deserializeAll_serialize ops (length_le_flatMap_serialize ops)

/-- The loop of `replication_complete` runs to the end of its arguments and yields `ops`. -/
inductive Decodes : ArgList → List L2Operation → Prop
  | done : Decodes [] []
  | next {args rest : ArgList} {op : L2Operation} {ops : List L2Operation} (more : args ≠ [])
      (read : deserialize args = .ok (op, rest)) (later : Decodes rest ops) :
      Decodes args (op :: ops)

/-- What the encoding has to preserve. -/
structure SameRequest (op out : L2Operation) : Prop where
  clientId : out.seqId.clientId = op.seqId.clientId
  clientSeqNo : out.seqId.clientSeqNo = op.seqId.clientSeqNo
  key : out.key = op.key
  replica : out.replica = op.replica
  value : out.value = op.value
  ts : out.seqId.ts = op.seqId.ts
  diag : out.seqId.diag = op.seqId.diag

lemma sameRequest_plain (op : L2Operation) : SameRequest op op.plain :=
  ⟨rfl, rfl, rfl, rfl, rfl, rfl, rfl⟩

lemma decodes_serialize (ops : List L2Operation) :
    Decodes (ops.flatMap serialize) (ops.map plain) := by
  induction ops with
  | nil => exact .done
  | cons op ops ih =>
    have more : (op :: ops).flatMap serialize ≠ [] := by simp [serialize]
    rw [List.flatMap_cons] at more ⊢
    exact .next more (deserialize_serialize op (noField_serialize ops)) ih

/-- Decoding a replicated batch reads all of it and gives the operations back, in their order
and with the optional fields that were set, whatever the keys and values are. -/
theorem batch_decodes (ops : List L2Operation) :
    ∃ out, Decodes (ops.flatMap serialize) out ∧
      deserializeBatch (ops.flatMap serialize) = .ok out ∧ List.Forall₂ SameRequest ops out := by
  refine ⟨ops.map plain, decodes_serialize ops, deserializeBatch_serialize ops, ?_⟩
  rw [List.forall₂_map_right_iff, List.forall₂_same]
  exact fun op _ => sameRequest_plain op

end Roundtrip
end L2Operation
end Shortstack
