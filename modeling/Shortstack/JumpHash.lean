import Shortstack.ConsistentHash

/-! The jumps of the consistent hash. Rounding to double precision keeps every jump strictly
upwards, so the hash of a key over fewer buckets is an earlier point of the same sequence. -/
namespace Shortstack

/-- Dropping all but 53 bits keeps a number above every multiple of a power of two with that
many bits. -/
lemma le_floor_unit {n e q : ℕ} (small : n ≤ 2 ^ 53) (below : n * 2 ^ e ≤ q) :
    n * 2 ^ e ≤ q / 2 ^ (Nat.log2 q - 52) * 2 ^ (Nat.log2 q - 52) := by
  have multiple : ∀ k, k * 2 ^ (Nat.log2 q - 52) ≤ q →
      k * 2 ^ (Nat.log2 q - 52) ≤ q / 2 ^ (Nat.log2 q - 52) * 2 ^ (Nat.log2 q - 52) := fun k hk =>
    Nat.mul_le_mul_right _ ((Nat.le_div_iff_mul_le (by positivity)).mpr hk)
  rcases le_or_gt (Nat.log2 q - 52) e with fine | coarse
  · have split : n * 2 ^ e = n * 2 ^ (e - (Nat.log2 q - 52)) * 2 ^ (Nat.log2 q - 52) := by
      rw [mul_assoc, ← pow_add, Nat.sub_add_cancel fine]
    rw [split] at below ⊢
    exact multiple _ below
  · have some' : q ≠ 0 := by
      rintro rfl
      simp at coarse
    have top : 2 ^ 52 * 2 ^ (Nat.log2 q - 52) = 2 ^ Nat.log2 q := by
      rw [← pow_add]
      congr 1
      omega
    calc n * 2 ^ e ≤ 2 ^ 53 * 2 ^ e := Nat.mul_le_mul_right _ small
      _ = 2 ^ (53 + e) := (pow_add ..).symm
      _ ≤ 2 ^ Nat.log2 q := Nat.pow_le_pow_right (by norm_num) (by omega)
      _ = 2 ^ 52 * 2 ^ (Nat.log2 q - 52) := top.symm
      _ ≤ _ := multiple _ (top ▸ Nat.log2_self_le some')

/-- A ratio that is at least an integer of 53 bits is not rounded below it. -/
lemma le_roundDouble {n num den : ℕ} (small : n ≤ 2 ^ 53) (pos : 0 < den) (h : n * den ≤ num) :
    n * (roundDouble num den).2 ≤ (roundDouble num den).1 := by
  unfold roundDouble
  dsimp only
  set e := 64 + Nat.log2 den with he
  set q := num * 2 ^ e / den with hq
  have below : n * 2 ^ e ≤ q := by
    rw [hq, Nat.le_div_iff_mul_le pos]
    calc n * 2 ^ e * den = n * den * 2 ^ e := by ring
      _ ≤ num * 2 ^ e := Nat.mul_le_mul_right _ h
  have floor : n * 2 ^ e ≤ q / 2 ^ (Nat.log2 q - 52) * 2 ^ (Nat.log2 q - 52) :=
    le_floor_unit small below
  split
  · exact floor.trans (Nat.mul_le_mul_right _ (Nat.le_succ _))
  · exact floor

lemma roundDouble_num_pos {num den : ℕ} (some' : 0 < num) (pos : 0 < den) :
    0 < (roundDouble num den).1 := by
  unfold roundDouble
  dsimp only
  set q := num * 2 ^ (64 + Nat.log2 den) / den with hq
  have one : 1 * 2 ^ 0 ≤ q := by
    rw [hq, Nat.le_div_iff_mul_le pos, one_mul, pow_zero, one_mul]
    calc den ≤ 2 ^ (Nat.log2 den + 1) := Nat.lt_log2_self.le
      _ ≤ 2 ^ (64 + Nat.log2 den) := Nat.pow_le_pow_right (by norm_num) (by omega)
      _ ≤ num * 2 ^ (64 + Nat.log2 den) := Nat.le_mul_of_pos_left _ some'
  have floor := le_floor_unit (by norm_num) one
  split
  · exact Nat.mul_pos (Nat.succ_pos _) (by positivity)
  · omega

lemma roundDouble_pos (num den : ℕ) : 0 < (roundDouble num den).2 := by
  unfold roundDouble
  positivity

lemma le_jump {n b : ℕ} (small : n ≤ 2 ^ 53) (above : n ≤ b + 1) {key : ℕ} (hkey : key < word) :
    n ≤ jump b key := by
  have bits : key >>> 33 < 2 ^ 31 := by
    rw [Nat.shiftRight_eq_div_pow, Nat.div_lt_iff_lt_mul (by positivity)]
    unfold word at hkey
    omega
  unfold jump
  dsimp only
  set q := roundDouble (2 ^ 31) ((key >>> 33) + 1) with hq
  have one : 1 * q.2 ≤ q.1 := le_roundDouble (by norm_num) (by omega) (by omega)
  have next : n * (roundDouble ((b + 1) * q.1) q.2).2 ≤ (roundDouble ((b + 1) * q.1) q.2).1 := by
    refine le_roundDouble small (hq ▸ roundDouble_pos _ _) (Nat.mul_le_mul above ?_)
    rwa [one_mul] at one
  exact (Nat.le_div_iff_mul_le (roundDouble_pos _ _)).mpr next

lemma lt_jump {b : ℕ} (small : b + 1 ≤ 2 ^ 53) {key : ℕ} (hkey : key < word) : b < jump b key :=
  le_jump small le_rfl hkey

/-- The generator of the next key. -/
def nextKey (key : ℕ) : ℕ := (key * 2862933555777941757 + 1) % word

lemma nextKey_lt (key : ℕ) : nextKey key < word := Nat.mod_lt _ (by unfold word; positivity)

/-- The buckets a key jumps to, each with the state of the generator. -/
def jumpState (jump : ℕ → ℕ → ℕ) (key : ℕ) : ℕ → ℕ × ℕ
  | 0 => (0, key)
  | i + 1 =>
    let next := nextKey (jumpState jump key i).2
    (jump (jumpState jump key i).1 next, next)

def candidate (jump : ℕ → ℕ → ℕ) (key i : ℕ) : ℕ := (jumpState jump key i).1

lemma jumpLoop_succ (n fuel b j key : ℕ) : jumpLoop n (fuel + 1) b j key =
    if j < n then jumpLoop n fuel j (jump j (nextKey key)) (nextKey key) else b := rfl

variable {m n : ℕ}

lemma le_jumpLoop (small : n ≤ 2 ^ 53) {fuel b j key : ℕ} (up : b < j) :
    b ≤ jumpLoop n fuel b j key := by
  induction fuel generalizing b j key with
  | zero => exact le_rfl
  | succ fuel ih =>
    rw [jumpLoop_succ]
    split
    · exact up.le.trans (ih (lt_jump (by omega) (nextKey_lt key)))
    · exact le_rfl

/-- The loops over fewer and over more buckets stay together until the first jump between. -/
lemma jumpLoop_eq (small : n ≤ 2 ^ 53) (fewer : m ≤ n) {fuel fuel' b j key : ℕ}
    (enough : m ≤ fuel + j) (enough' : n ≤ fuel' + j) (up : b < j)
    (below : jumpLoop n fuel' b j key < m) :
    jumpLoop m fuel b j key = jumpLoop n fuel' b j key := by
  induction fuel' generalizing fuel b j key with
  | zero =>
    have done : ¬ j < m := by omega
    cases fuel with
    | zero => rfl
    | succ fuel => rw [jumpLoop_succ, if_neg done, jumpLoop]
  | succ fuel' ih =>
    rw [jumpLoop_succ] at below ⊢
    by_cases inside : j < n
    · rw [if_pos inside] at below ⊢
      have higher := lt_jump (b := j) (by omega) (nextKey_lt key)
      have reached : j < m := (le_jumpLoop small higher).trans_lt below
      cases fuel with
      | zero => omega
      | succ fuel =>
        rw [jumpLoop_succ, if_pos reached]
        exact ih (by omega) (by omega) higher below
    · rw [if_neg inside] at below ⊢
      cases fuel with
      | zero => rfl
      | succ fuel => rw [jumpLoop_succ, if_neg (by omega)]

/-- A key that is hashed to one of the first buckets stays there when only these are left. -/
theorem jumpConsistentHash_eq (small : n ≤ 2 ^ 53) (fewer : m ≤ n) {key : ℕ}
    (below : jumpConsistentHash key n < m) :
    jumpConsistentHash key m = jumpConsistentHash key n := by
  have some' : 0 < m := by omega
  unfold jumpConsistentHash at below ⊢
  rw [jumpLoop_succ, if_pos (by omega)] at below ⊢
  rw [jumpLoop_succ, if_pos (by omega)]
  have higher := lt_jump (b := 0) (by norm_num) (nextKey_lt key)
  exact jumpLoop_eq small fewer (by omega) (by omega) higher below

lemma candidate_succ (key i : ℕ) : candidate jump key (i + 1) =
    jump (candidate jump key i) (nextKey (jumpState jump key i).2) := rfl

lemma le_candidate (small : m ≤ 2 ^ 53) {key i j : ℕ} (above : m ≤ candidate jump key i)
    (later : i ≤ j) : m ≤ candidate jump key j := by
  induction j, later using Nat.le_induction with
  | base => exact above
  | succ j _ ih => exact le_jump small (ih.trans (Nat.le_succ _)) (nextKey_lt _)

lemma jumpLoop_candidate (small : n ≤ 2 ^ 53) (key : ℕ) {fuel b i : ℕ}
    (enough : n ≤ fuel + candidate jump key i) :
    (candidate jump key i < n → ∃ l, candidate jump key l < n ∧ n ≤ candidate jump key (l + 1) ∧
        jumpLoop n fuel b (candidate jump key i) (jumpState jump key i).2 = candidate jump key l) ∧
      (n ≤ candidate jump key i →
        jumpLoop n fuel b (candidate jump key i) (jumpState jump key i).2 = b) := by
  induction fuel generalizing b i with
  | zero => exact ⟨fun below => absurd below (by omega), fun _ => rfl⟩
  | succ fuel ih =>
    rw [jumpLoop_succ]
    refine ⟨fun below => ?_, fun above => if_neg (by omega)⟩
    have up := lt_jump (b := candidate jump key i) (by omega) (nextKey_lt (jumpState jump key i).2)
    rw [← candidate_succ] at up
    obtain ⟨inside, outside⟩ := @ih (candidate jump key i) (i + 1) (by omega)
    rw [if_pos below]
    by_cases further : candidate jump key (i + 1) < n
    · exact inside further
    · exact ⟨i, below, by omega, outside (by omega)⟩

theorem jumpConsistentHash_isGreatest (small : n ≤ 2 ^ 53) (some' : 0 < n) (key : ℕ) :
    IsGreatest {x | (∃ i, candidate jump key i = x) ∧ x < n} (jumpConsistentHash key n) := by
  obtain ⟨l, below, above, returned⟩ :=
    (@jumpLoop_candidate n small key (n + 1) 1 0 (by omega)).1 some'
  have returned : jumpConsistentHash key n = candidate jump key l := returned
  rw [returned]
  refine ⟨⟨⟨l, rfl⟩, below⟩, ?_⟩
  rintro _ ⟨⟨j, rfl⟩, inside⟩
  rcases Nat.lt_or_ge l j with later | earlier
  · exact absurd (le_candidate small above later) (by omega)
  · exact le_candidate (by omega) le_rfl earlier

lemma jumpConsistentHash_lt {key : ℕ} (some' : 0 < n) : jumpConsistentHash key n < n := by
  unfold jumpConsistentHash
  rw [jumpLoop_succ, if_pos some']
  exact jumpLoop_lt some'

end Shortstack
