import Mathlib

/-! Hashing of keys and labels: `MurmurHash64A` and the jump consistent hash, with
the double-precision quotient and product of the latter rounded to nearest even. -/
namespace Shortstack

def word : ℕ := 2 ^ 64

def utf8Bytes (s : String) : List ℕ :=
  s.toList.flatMap fun c => (String.utf8EncodeChar c).map UInt8.toNat

/-- Little-endian value of a block of bytes. -/
def littleEndian : List ℕ → ℕ
  | [] => 0
  | b :: bs => b + 256 * littleEndian bs

namespace Murmur

def m : ℕ := 0xc6a4a7935bd1e995

def r : ℕ := 47

def mixBlock (h : ℕ) (block : List ℕ) : ℕ :=
  let k := littleEndian block * m % word
  let k := Nat.xor k (k >>> r)
  let k := k * m % word
  Nat.xor h k * m % word

/-- The loop over whole blocks and the switch over the bytes left at the end. -/
def absorb : ℕ → ℕ → List ℕ → ℕ
  | 0, h, _ => h
  | fuel + 1, h, bytes =>
    if 8 ≤ bytes.length then absorb fuel (mixBlock h (bytes.take 8)) (bytes.drop 8)
    else if bytes.length = 0 then h
    else Nat.xor h (littleEndian bytes) * m % word

def finish (h : ℕ) : ℕ :=
  let h := Nat.xor h (h >>> r)
  let h := h * m % word
  Nat.xor h (h >>> r)

end Murmur

def murmurHash64A (s : String) (seed : ℕ) : ℕ :=
  let bytes := utf8Bytes s
  Murmur.finish
    (Murmur.absorb (bytes.length + 1) (Nat.xor seed (bytes.length * Murmur.m % word)) bytes)

/-- Round a ratio of naturals to 53 significant bits, ties to even; the result is again a
ratio, over a power of two. -/
def roundDouble (num den : ℕ) : ℕ × ℕ :=
  let scale := 2 ^ (64 + Nat.log2 den)
  let q := num * scale / den
  let unit := 2 ^ (Nat.log2 q - 52)
  let low := 2 * (q % unit)
  let up := unit < low ∨ low = unit ∧ (num * scale % den ≠ 0 ∨ q / unit % 2 = 1)
  (if up then (q / unit + 1) * unit else q / unit * unit, scale)

/-- The next candidate bucket, `(b + 1) * (double(1LL << 31) / double((key >> 33) + 1))`. -/
def jump (b key : ℕ) : ℕ :=
  let q := roundDouble (2 ^ 31) ((key >>> 33) + 1)
  let p := roundDouble ((b + 1) * q.1) q.2
  p.1 / p.2

def jumpLoop (numBuckets : ℕ) : ℕ → ℕ → ℕ → ℕ → ℕ
  | 0, b, _, _ => b
  | fuel + 1, b, j, key =>
    if j < numBuckets then
      let key := (key * 2862933555777941757 + 1) % word
      jumpLoop numBuckets fuel j (jump j key) key
    else b

def jumpConsistentHash (key numBuckets : ℕ) : ℕ := jumpLoop numBuckets (numBuckets + 1) 1 0 key

def consistentHash (s : String) (numBuckets : ℕ) : ℕ :=
  jumpConsistentHash (murmurHash64A s 1995) numBuckets

lemma jumpLoop_lt {numBuckets fuel b j key : ℕ} (h : b < numBuckets) :
    jumpLoop numBuckets fuel b j key < numBuckets := by
  induction fuel generalizing b j key with
  | zero => exact h
  | succ fuel ih =>
    unfold jumpLoop
    split
    · next inside => exact ih inside
    · exact h

theorem consistentHash_lt (s : String) {numBuckets : ℕ} (h : 0 < numBuckets) :
    consistentHash s numBuckets < numBuckets := by
  unfold consistentHash jumpConsistentHash jumpLoop
  rw [if_pos h]
  exact jumpLoop_lt h

end Shortstack
