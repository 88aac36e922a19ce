import Shortstack.JumpHash

/-! The jump consistent hash with an exact quotient. The buckets it jumps to depend on the key
alone; the number of buckets only says where the loop stops. -/
namespace Shortstack

/-- The next candidate bucket, the quotient taken before it is cut off. -/
def exactJump (b key : ℕ) : ℕ :=
  ⌊((b : ℚ) + 1) * (2 ^ 31 / ((key >>> 33 : ℕ) + 1))⌋₊

/-- The loop of `JumpConsistentHash`, with a bound on the number of iterations. -/
def exactJumpLoop (numBuckets : ℕ) : ℕ → ℕ → ℕ → ℕ → Option ℕ
  | 0, _, _, _ => none
  | fuel + 1, b, j, key =>
    if j < numBuckets then
      let key := nextKey key
      exactJumpLoop numBuckets fuel j (exactJump j key) key
    else some b

/-- The loop ends and returns the bucket. -/
def Returns (key numBuckets bucket : ℕ) : Prop :=
  ∃ enough, ∀ fuel ≥ enough, exactJumpLoop numBuckets fuel 1 0 key = some bucket

/-- The shifted state has 31 bits, so that every jump goes up. -/
lemma lt_exactJump (b : ℕ) {key : ℕ} (small : key < word) : b < exactJump b key := by
  have bits : key >>> 33 < 2 ^ 31 := by
    rw [Nat.shiftRight_eq_div_pow, Nat.div_lt_iff_lt_mul (by positivity)]
    unfold word at small
    omega
  have quotient : (1 : ℚ) ≤ 2 ^ 31 / ((key >>> 33 : ℕ) + 1) := by
    rw [le_div_iff₀ (by positivity), one_mul]
    exact_mod_cast bits
  unfold exactJump
  rw [← Nat.add_one_le_iff, Nat.le_floor_iff (by positivity), Nat.cast_succ]
  calc (b : ℚ) + 1 = (b + 1) * 1 := (mul_one _).symm
    _ ≤ (b + 1) * (2 ^ 31 / ((key >>> 33 : ℕ) + 1)) :=
      mul_le_mul_of_nonneg_left quotient (by positivity)

lemma candidate_strictMono (key : ℕ) : StrictMono (candidate exactJump key) :=
  strictMono_nat_of_lt_succ fun i => lt_exactJump (candidate exactJump key i) (nextKey_lt _)

lemma exactJumpLoop_eq (key n : ℕ) {fuel b i : ℕ} (some' : 0 < fuel)
    (enough : n < fuel + candidate exactJump key i) :
    ∃ r, exactJumpLoop n fuel b (candidate exactJump key i) (jumpState exactJump key i).2 = some r ∧
      (candidate exactJump key i < n →
        ∃ m, r = candidate exactJump key m ∧ r < n ∧ n ≤ candidate exactJump key (m + 1)) ∧
      (n ≤ candidate exactJump key i → r = b) := by
  induction fuel generalizing b i with
  | zero => exact absurd some' (lt_irrefl 0)
  | succ fuel ih =>
    unfold exactJumpLoop
    have up : candidate exactJump key i < candidate exactJump key (i + 1) :=
      candidate_strictMono key (Nat.lt_succ_self i)
    by_cases below : candidate exactJump key i < n
    · rw [if_pos below]
      obtain ⟨r, run, inside, outside⟩ := @ih (candidate exactJump key i) (i + 1) (by omega) (by omega)
      refine ⟨r, run, fun _ => ?_, fun above => absurd below (by omega)⟩
      by_cases further : candidate exactJump key (i + 1) < n
      · exact inside further
      · exact ⟨i, outside (by omega), outside (by omega) ▸ below, by omega⟩
    · rw [if_neg below]
      exact ⟨b, rfl, fun under => absurd under below, fun _ => rfl⟩

lemma returns_candidate (key : ℕ) {n : ℕ} (pos : 1 ≤ n) :
    ∃ m, Returns key n (candidate exactJump key m) ∧ candidate exactJump key m < n ∧
      n ≤ candidate exactJump key (m + 1) := by
  have run : ∀ fuel ≥ n + 1, ∃ m, exactJumpLoop n fuel 1 0 key = some (candidate exactJump key m) ∧
      candidate exactJump key m < n ∧ n ≤ candidate exactJump key (m + 1) := by
    intro fuel enough
    obtain ⟨r, run, inside, -⟩ := @exactJumpLoop_eq key n fuel 1 0 (by omega) (by omega)
    obtain ⟨m, rfl, below, above⟩ := inside pos
    exact ⟨m, run, below, above⟩
  obtain ⟨m, -, below, above⟩ := run (n + 1) le_rfl
  refine ⟨m, ⟨n + 1, fun fuel enough => ?_⟩, below, above⟩
  obtain ⟨m', run', below', above'⟩ := run fuel enough
  have mono := candidate_strictMono key
  have one := mono.lt_iff_lt.mp (below.trans_le above')
  have two := mono.lt_iff_lt.mp (below'.trans_le above)
  obtain rfl : m = m' := by omega
  exact run'

/-- For every key the loop ends with the largest bucket below the number of buckets in a
strictly increasing sequence from 0 on that depends on the key alone, so that one bucket more
moves a key to the new bucket or nowhere. -/
theorem jump_hash_sequence (key : ℕ) :
    candidate exactJump key 0 = 0 ∧ StrictMono (candidate exactJump key) ∧
      ∀ n, 1 ≤ n → ∃ bucket, Returns key n bucket ∧ bucket < n ∧
        IsGreatest {x | (∃ i, candidate exactJump key i = x) ∧ x < n} bucket ∧
        ∃ bucket', Returns key (n + 1) bucket' ∧ (bucket' = bucket ∨ bucket' = n) := by
  have mono := candidate_strictMono key
  refine ⟨rfl, mono, fun n pos => ?_⟩
  obtain ⟨m, returns, below, above⟩ := returns_candidate key pos
  obtain ⟨m', returns', below', above'⟩ := returns_candidate key (Nat.le_add_left 1 n)
  have greatest : ∀ i, candidate exactJump key i < n → i ≤ m := fun i small =>
    Nat.lt_succ_iff.mp (mono.lt_iff_lt.mp (small.trans_le above))
  refine ⟨_, returns, below, ⟨⟨⟨m, rfl⟩, below⟩, ?_⟩, _, returns', ?_⟩
  · rintro _ ⟨⟨i, rfl⟩, small⟩
    exact mono.monotone (greatest i small)
  · rcases Nat.lt_succ_iff_lt_or_eq.mp below' with small | same
    · have one := greatest m' small
      have two := mono.lt_iff_lt.mp ((below.trans (Nat.lt_succ_self n)).trans_le above')
      obtain rfl : m' = m := by omega
      exact .inl rfl
    · exact .inr same

/-- From 40 to 41 buckets. -/
theorem jump_hash_sequence_forty : ∃ bucket bucket', Returns 7 40 bucket ∧ Returns 7 41 bucket' ∧
    IsGreatest {x | (∃ i, candidate exactJump 7 i = x) ∧ x < 40} bucket ∧
    (bucket' = bucket ∨ bucket' = 40) := by
  obtain ⟨bucket, returns, -, greatest, bucket', returns', next⟩ :=
    (jump_hash_sequence 7).2.2 40 (by norm_num)
  exact ⟨bucket, bucket', returns, returns', greatest, next⟩

end Shortstack
