import Shortstack.L1ProxySpec
import Shortstack.LibWeighted
import Shortstack.Smoothing

/-! The access pattern of a security batch. Coins are fair and independent, client keys and
samples follow the real and the fake distribution, and a replica is drawn uniformly. Every
slot then hits every replica equally often, except the first one when batches without a real
slot are disabled: its coin is turned in one more case. -/
namespace Shortstack
open Weighted

/-- `prob(delta_)` -/
def tossCoin : Weighted Bool := ⟨[(true, delta), (false, 1 - delta)]⟩

def Distribution.sample (d : Distribution) : Weighted String := ⟨d.items.zip d.probabilities⟩

/-- The number `rand_uint32(0, r - 1)` makes a replica of. -/
def uniformBelow (r : ℤ) : Weighted ℕ := ⟨(List.range r.toNat).map fun i => (i, 1 / (r : ℚ))⟩

namespace L1Proxy
variable (cfg : L1Config) (real fake : Distribution)

/-- Queued requests with keys that follow the real distribution. -/
def sampleQueue : List L1Operation → Weighted (List L1Operation)
  | [] => ret []
  | op :: queue => real.sample.bind fun k => (sampleQueue queue).bind fun queue =>
    ret ({ op with key := k } :: queue)

def tosses : ℕ → Weighted (List Bool)
  | 0 => ret []
  | n + 1 => tossCoin.bind fun c => (tosses n).bind fun coins => ret (c :: coins)

/-- The coins a batch uses. -/
def usedCoins (coins : List Bool) : List Bool :=
  (tossCoins cfg (coins.map fun c => ⟨c, "", "", 0⟩)).map Draw.coin

/-- The random choices for slots with the given coins, before and after the adjustment. -/
def sampleDraws : List (Bool × Bool) → List L1Operation → Weighted (List Draw)
  | [], _ => ret []
  | c :: coins, queue => real.sample.bind fun a => fake.sample.bind fun f =>
    let slot := fillSlot ⟨c.2, a, f, 0⟩ queue
    (uniformBelow ((cfg.keyToNumberOfReplicas.lookup slot.1.key).getD 0)).bind fun replica =>
      (sampleDraws coins slot.2).bind fun draws => ret (⟨c.1, a, f, replica⟩ :: draws)

def sampleBatch (queue : List L1Operation) : Weighted (List Draw) :=
  (tosses cfg.securityBatchSize.toNat).bind fun coins =>
    sampleDraws cfg real fake (coins.zip (usedCoins cfg coins)) queue

/-- Key and replica a slot of the batch accesses. -/
def accessed (draws : List Draw) (queue : List L1Operation) (i : ℕ) : Option (String × ℤ) :=
  match (createSecurityBatch cfg (fun j => draws.getD j default) queue).2 with
  | .error _ => none
  | .ok batch => batch[i]?.map fun op => (op.key, op.replica.toInt)

/-- The probability that slot `i` accesses a replica, with the given requests in the queue. -/
def slotProbability (queue : List L1Operation) (i : ℕ) (x : String × ℤ) : ℚ :=
  ((sampleQueue real queue).bind fun queue => (sampleBatch cfg real fake queue).bind fun draws =>
    ret (accessed cfg draws queue i)).prob (some x)

section Coins

lemma tossCoin_total : tossCoin.Total := by
  simp [Weighted.Total, tossCoin, expect, delta]

lemma tosses_total (n : ℕ) : (tosses n).Total := by
  induction n with
  | zero => exact total_ret _
  | succ n ih => exact tossCoin_total.bind fun _ _ => ih.bind fun _ _ => total_ret _

lemma tosses_length {n : ℕ} {coins : List Bool} (h : (tosses n).Possible coins) :
    coins.length = n := by
  induction n generalizing coins with
  | zero => rw [possible_ret h, List.length_nil]
  | succ n ih =>
    obtain ⟨c, _, h⟩ := possible_bind h
    obtain ⟨rest, hr, h⟩ := possible_bind h
    rw [possible_ret h, List.length_cons, ih hr]

lemma expect_coin {n i : ℕ} (hi : i < n) :
    (tosses n).expect (fun coins => if coins[i]? = some true then 1 else 0) = 1 / 2 := by
  induction n generalizing i with
  | zero => omega
  | succ n ih =>
    rw [tosses, expect_bind]
    cases i with
    | zero =>
      have each : ∀ c, ((tosses n).bind fun coins => ret (c :: coins)).expect
          (fun coins => if coins[0]? = some true then 1 else 0) = if c = true then 1 else 0 := by
        intro c
        rw [expect_bind]
        refine (tosses_total n).expect_const fun coins _ => ?_
        simp
      simp only [each]
      simp [tossCoin, expect, delta]
    | succ i =>
      have each : ∀ c, ((tosses n).bind fun coins => ret (c :: coins)).expect
          (fun coins => if coins[i + 1]? = some true then 1 else 0) = 1 / 2 := by
        intro c
        rw [expect_bind, ← ih (show i < n by omega)]
        simp
      simp only [each]
      exact tossCoin_total.expect_const fun _ _ => rfl

lemma expect_all_false (n : ℕ) :
    (tosses n).expect (fun coins => if coins.any id = false then 1 else 0) = 1 / 2 ^ n := by
  induction n with
  | zero => simp [tosses]
  | succ n ih =>
    have each : ∀ c, ((tosses n).bind fun coins => ret (c :: coins)).expect
        (fun coins => if coins.any id = false then 1 else 0) =
        if c = true then 0 else 1 / 2 ^ n := by
      intro c
      rw [expect_bind]
      cases c with
      | true => exact (tosses_total n).expect_const fun coins _ => by simp
      | false => simp [← ih]
    rw [tosses, expect_bind]
    simp only [each]
    simp only [tossCoin, delta, expect_cons]
    simp [expect, pow_succ]
    ring

end Coins

section Samples

lemma sample_total {d : Distribution} (lengths : d.items.length = d.probabilities.length)
    (total : d.probabilities.sum = 1) : d.sample.Total := by
  have weights : (d.items.zip d.probabilities).map Prod.snd = d.probabilities :=
    List.map_snd_zip lengths.ge
  simp only [Weighted.Total, Distribution.sample, expect, mul_one]
  rw [← total]
  exact congrArg List.sum weights

lemma sample_possible {d : Distribution} {k : String} (h : d.sample.Possible k) : k ∈ d.items := by
  obtain ⟨w, mem⟩ := h
  exact (List.of_mem_zip mem).1

lemma sample_prob {d : Distribution} (nodup : d.items.Nodup) (k : String) :
    d.sample.prob k = d.probabilityOf k := by
  have each : ∀ (items : List String) (values : List ℚ), items.Nodup →
      expect ⟨items.zip values⟩ (fun b => if b = k then 1 else 0) =
        ((items.zip values).lookup k).getD 0 := by
    intro items
    induction items with
    | nil => intro values _; rfl
    | cons a items ih =>
      intro values nodup
      obtain ⟨fresh, nodup⟩ := List.nodup_cons.mp nodup
      cases values with
      | nil => rfl
      | cons p values =>
        rw [List.zip_cons_cons, expect_cons, ih values nodup, List.lookup_cons]
        by_cases here : a = k
        · subst here
          simp [lookup_zip_none fresh]
        · have other : (k == a) = false := beq_eq_false_iff_ne.mpr (Ne.symm here)
          simp [here, other]
  exact each d.items d.probabilities nodup

lemma uniformBelow_total {r : ℤ} (pos : 0 < r) : (uniformBelow r).Total := by
  have n : ((r : ℤ) : ℚ) ≠ 0 := by exact_mod_cast pos.ne'
  have size : ((r.toNat : ℕ) : ℚ) = r := by exact_mod_cast Int.toNat_of_nonneg pos.le
  simp only [Weighted.Total, uniformBelow, expect, mul_one, List.map_map]
  rw [show (fun e : ℕ × ℚ => e.2) ∘ (fun i => (i, 1 / (r : ℚ))) =
    fun _ => 1 / (r : ℚ) from rfl, List.map_const', List.sum_replicate, List.length_range,
    nsmul_eq_mul, size]
  field_simp

lemma uniformBelow_possible {r : ℤ} {n : ℕ} (h : (uniformBelow r).Possible n) : (n : ℤ) < r := by
  obtain ⟨w, mem⟩ := h
  simp only [uniformBelow, List.mem_map, List.mem_range, Prod.mk.injEq] at mem
  obtain ⟨m, below, rfl, -⟩ := mem
  omega

lemma uniformBelow_replica {r ρ : ℤ} (int : r < 2 ^ 31) (low : 0 ≤ ρ) (high : ρ < r) :
    (uniformBelow r).expect (fun n => if (randReplica n r).toInt = ρ then 1 else 0) = 1 / r := by
  have each : ∀ n : ℕ, expect ⟨(List.range n).map fun i => (i, 1 / (r : ℚ))⟩
      (fun b : ℕ => if (b : ℤ) = ρ then 1 else 0) = if ρ < n then 1 / (r : ℚ) else 0 := by
    intro n
    induction n with
    | zero =>
      rw [if_neg (by omega)]
      rfl
    | succ n ih =>
      have split : expect ⟨(List.range (n + 1)).map fun i => (i, 1 / (r : ℚ))⟩
          (fun b : ℕ => if (b : ℤ) = ρ then 1 else 0) =
          expect ⟨(List.range n).map fun i => (i, 1 / (r : ℚ))⟩
            (fun b : ℕ => if (b : ℤ) = ρ then 1 else 0) +
            1 / (r : ℚ) * if (n : ℤ) = ρ then 1 else 0 := by
        simp [expect, List.range_succ]
      rw [split, ih]
      push_cast
      rcases lt_trichotomy ρ (n : ℤ) with below | same | above
      · rw [if_pos below, if_neg (by omega), if_pos (by omega)]
        ring
      · rw [if_neg (by omega), if_pos same.symm, if_pos (by omega)]
        ring
      · rw [if_neg (by omega), if_neg (by omega), if_neg (by omega)]
        ring
  have whole := each r.toNat
  rw [if_pos (by omega)] at whole
  rw [← whole]
  refine expect_congr fun n drawn => ?_
  have below := uniformBelow_possible drawn
  have same : (randReplica n r).toInt = n := by
    rw [randReplica_toInt n (low.trans_lt high) int, Int.emod_eq_of_lt (by omega) below]
  rw [same]

end Samples

section Slots
variable {cfg real fake}

/-- The draws with the coins a batch uses. -/
def withCoins (coins : List Bool) (draws : List Draw) : List Draw :=
  List.zipWith (fun c d => { d with coin := c }) coins draws

lemma tossCoins_eq (draws : List Draw) :
    tossCoins cfg draws = withCoins (usedCoins cfg (draws.map Draw.coin)) draws := by
  have self : ∀ draws : List Draw, withCoins (draws.map Draw.coin) draws = draws := by
    intro draws
    induction draws with
    | nil => rfl
    | cons d draws ih => exact congrArg (d :: ·) ih
  have same : ((draws.map Draw.coin).map fun c => (⟨c, "", "", 0⟩ : Draw)).any Draw.coin =
      draws.any Draw.coin := by
    simp [List.any_map, Function.comp_def]
  unfold usedCoins tossCoins
  rw [same]
  split
  · cases draws with
    | nil => rfl
    | cons d draws =>
      have rest := self draws
      simp only [List.map_cons, List.map_map, withCoins, List.zipWith_cons_cons] at rest ⊢
      exact congrArg ({ d with coin := true } :: ·) rest.symm
  · simp only [List.map_map]
    exact (self draws).symm

/-- Distributions over keys the replica table knows. -/
structure Tables (cfg : L1Config) (real fake : Distribution) : Prop where
  realTotal : real.sample.Total
  fakeTotal : fake.sample.Total
  known : ∀ k, k ∈ real.items ∨ k ∈ fake.items →
    ∃ r, cfg.keyToNumberOfReplicas.lookup k = some r ∧ 0 < r

/-- The keys of queued requests are in the replica table. -/
def Known (cfg : L1Config) (queue : List L1Operation) : Prop :=
  ∀ op ∈ queue, ∃ r, cfg.keyToNumberOfReplicas.lookup op.key = some r ∧ 0 < r

lemma fillSlot_known (tables : Tables cfg real fake) {queue : List L1Operation}
    (known : Known cfg queue) {c : Bool} {a f : String} {ρ : ℕ} (ha : real.sample.Possible a)
    (hf : fake.sample.Possible f) :
    (∃ r, cfg.keyToNumberOfReplicas.lookup (fillSlot ⟨c, a, f, ρ⟩ queue).1.key = some r ∧ 0 < r) ∧
      Known cfg (fillSlot ⟨c, a, f, ρ⟩ queue).2 := by
  unfold fillSlot
  cases c with
  | false => exact ⟨tables.known f (.inr (sample_possible hf)), known⟩
  | true =>
    cases queue with
    | nil => exact ⟨tables.known a (.inl (sample_possible ha)), known⟩
    | cons op queue => exact ⟨known op List.mem_cons_self, fun op hop =>
        known op (List.mem_cons_of_mem _ hop)⟩

lemma fillSlot_replica (c : Bool) (a f : String) (ρ ρ' : ℕ) (queue : List L1Operation) :
    fillSlot ⟨c, a, f, ρ⟩ queue = fillSlot ⟨c, a, f, ρ'⟩ queue := rfl

lemma sampleDraws_total (tables : Tables cfg real fake) (coins : List (Bool × Bool))
    {queue : List L1Operation} (known : Known cfg queue) :
    (sampleDraws cfg real fake coins queue).Total := by
  induction coins generalizing queue with
  | nil => exact total_ret _
  | cons c coins ih =>
    refine tables.realTotal.bind fun a ha => tables.fakeTotal.bind fun f hf => ?_
    obtain ⟨⟨r, found, pos⟩, rest⟩ := fillSlot_known (c := c.2) (ρ := 0) tables known ha hf
    dsimp only
    rw [found]
    exact (uniformBelow_total pos).bind fun _ _ => (ih rest).bind fun _ _ => total_ret _

/-- The possible draws for given coins: they carry the tossed coins, and all keys they lead
to are known. -/
lemma sampleDraws_possible (tables : Tables cfg real fake) {coins : List (Bool × Bool)}
    {queue : List L1Operation} (known : Known cfg queue) {draws : List Draw}
    (h : (sampleDraws cfg real fake coins queue).Possible draws) :
    draws.map Draw.coin = coins.map Prod.fst ∧
      ∀ op ∈ slotOps cfg (withCoins (coins.map Prod.snd) draws) queue,
        op.key ∈ cfg.keyToNumberOfReplicas := by
  induction coins generalizing queue draws with
  | nil =>
    rw [possible_ret h]
    exact ⟨rfl, by simp [withCoins, slotOps]⟩
  | cons c coins ih =>
    obtain ⟨a, ha, h⟩ := possible_bind h
    obtain ⟨f, hf, h⟩ := possible_bind h
    obtain ⟨ρ, _, h⟩ := possible_bind h
    obtain ⟨rest, hr, h⟩ := possible_bind h
    obtain ⟨⟨r, found, _⟩, later⟩ := fillSlot_known (c := c.2) (ρ := 0) tables known ha hf
    obtain ⟨coinsRest, knownRest⟩ := ih later hr
    rw [possible_ret h]
    refine ⟨by rw [List.map_cons, List.map_cons, coinsRest], ?_⟩
    simp only [List.map_cons, withCoins, List.zipWith_cons_cons, slotOps, List.mem_cons]
    rintro op (rfl | hop)
    · exact AList.lookup_isSome.mp (by rw [drawReplica, fillSlot_replica _ _ _ ρ 0, found]; rfl)
    · exact knownRest op hop

lemma rounds_getD {draws : List Draw} (full : draws.length = cfg.securityBatchSize.toNat) :
    rounds cfg (fun j => draws.getD j default) = draws := by
  refine List.ext_getElem (by simp [full]) fun j _ inside => ?_
  simp [rounds, List.getElem?_eq_getElem inside]

lemma accessed_eq (tables : Tables cfg real fake) {coins : List Bool} {queue : List L1Operation}
    (known : Known cfg queue) {draws : List Draw}
    (h : (sampleDraws cfg real fake (coins.zip (usedCoins cfg coins)) queue).Possible draws)
    (size : (usedCoins cfg coins).length = coins.length)
    (full : coins.length = cfg.securityBatchSize.toNat) (i : ℕ) :
    accessed cfg draws queue i = (slotOps cfg (withCoins (usedCoins cfg coins) draws) queue)[i]?.map
      fun op => (op.key, op.replica.toInt) := by
  obtain ⟨tossed, keys⟩ := sampleDraws_possible tables known h
  rw [List.map_fst_zip size.ge] at tossed
  rw [List.map_snd_zip size.le] at keys
  have whole : draws.length = cfg.securityBatchSize.toNat := by
    rw [← full, ← congrArg List.length tossed, List.length_map]
  unfold accessed createSecurityBatch
  rw [rounds_getD whole, tossCoins_eq, tossed, fillBatch_slotOps keys, List.nil_append]

lemma usedCoins_length (coins : List Bool) : (usedCoins cfg coins).length = coins.length := by
  unfold usedCoins tossCoins
  split
  · cases coins <;> simp
  · simp

lemma sampleQueue_total (tables : Tables cfg real fake) (queue : List L1Operation) :
    (sampleQueue real queue).Total := by
  induction queue with
  | nil => exact total_ret _
  | cons op queue ih => exact tables.realTotal.bind fun _ _ => ih.bind fun _ _ => total_ret _

lemma sampleQueue_known (tables : Tables cfg real fake) {queue drawn : List L1Operation}
    (h : (sampleQueue real queue).Possible drawn) : Known cfg drawn := by
  induction queue generalizing drawn with
  | nil =>
    rw [possible_ret h]
    exact fun op hop => absurd hop List.not_mem_nil
  | cons op queue ih =>
    obtain ⟨k, hk, h⟩ := possible_bind h
    obtain ⟨rest, hr, h⟩ := possible_bind h
    rw [possible_ret h]
    rintro op hop
    rcases List.mem_cons.mp hop with rfl | hop
    · exact tables.known k (.inl (sample_possible hk))
    · exact ih hr op hop

/-- Whether slot `i` accesses the replica. -/
def hits (i : ℕ) (x : String × ℤ) (ops : List L2Operation) : ℚ :=
  if ops[i]?.map (fun op => (op.key, op.replica.toInt)) = some x then 1 else 0

/-- The chance of slot `i`, for given coins and queue. -/
def chance (cfg : L1Config) (real fake : Distribution) (i : ℕ) (x : String × ℤ)
    (coins : List (Bool × Bool)) (queue : List L1Operation) : ℚ :=
  (sampleDraws cfg real fake coins queue).expect fun draws =>
    hits i x (slotOps cfg (withCoins (coins.map Prod.snd) draws) queue)

/-- The chance that the next slot accesses a key. -/
def keyChance (real fake : Distribution) (k : String) (c : Bool) (queue : List L1Operation) : ℚ :=
  if c then
    match queue with
    | [] => real.probabilityOf k
    | op :: _ => if op.key = k then 1 else 0
  else fake.probabilityOf k

lemma expect_key (tables : Tables cfg real fake) (realNodup : real.items.Nodup)
    (fakeNodup : fake.items.Nodup) (k : String) (c : Bool) (queue : List L1Operation) :
    (real.sample.expect fun a => fake.sample.expect fun f =>
      if (fillSlot ⟨c, a, f, 0⟩ queue).1.key = k then 1 else 0) =
      keyChance real fake k c queue := by
  unfold keyChance
  cases c with
  | false => exact tables.realTotal.expect_const fun _ _ => sample_prob fakeNodup k
  | true =>
    cases queue with
    | nil =>
      refine Eq.trans (expect_congr fun a _ => ?_) (sample_prob realNodup k)
      exact tables.fakeTotal.expect_const fun f _ => rfl
    | cons op queue =>
      refine tables.realTotal.expect_const fun a _ => ?_
      exact tables.fakeTotal.expect_const fun f _ => rfl

lemma expect_replica (tables : Tables cfg real fake) {k a f : String} {r ρ : ℤ}
    (count : cfg.keyToNumberOfReplicas.lookup k = some r) (low : 0 ≤ ρ) (high : ρ < r)
    (c : Bool × Bool) (coins : List (Bool × Bool)) {queue : List L1Operation}
    (known : Known cfg queue) (ha : real.sample.Possible a) (hf : fake.sample.Possible f) :
    ((uniformBelow ((cfg.keyToNumberOfReplicas.lookup
        (fillSlot ⟨c.2, a, f, 0⟩ queue).1.key).getD 0)).bind fun replica =>
      (sampleDraws cfg real fake coins (fillSlot ⟨c.2, a, f, 0⟩ queue).2).bind fun draws =>
        ret ((⟨c.1, a, f, replica⟩ : Draw) :: draws)).expect
      (fun draws => hits 0 (k, ρ) (slotOps cfg (withCoins ((c :: coins).map Prod.snd) draws) queue)) =
    1 / r * if (fillSlot ⟨c.2, a, f, 0⟩ queue).1.key = k then 1 else 0 := by
  obtain ⟨⟨r', found, pos⟩, rest⟩ := fillSlot_known (c := c.2) (ρ := 0) tables known ha hf
  have replica : ∀ ρ', ((sampleDraws cfg real fake coins
        (fillSlot ⟨c.2, a, f, 0⟩ queue).2).bind fun draws =>
        ret ((⟨c.1, a, f, ρ'⟩ : Draw) :: draws)).expect
      (fun draws => hits 0 (k, ρ) (slotOps cfg (withCoins ((c :: coins).map Prod.snd) draws) queue)) =
      (if (fillSlot ⟨c.2, a, f, 0⟩ queue).1.key = k then 1 else 0) *
        if (randReplica ρ' r').toInt = ρ then 1 else 0 := by
    intro ρ'
    rw [expect_bind]
    refine (sampleDraws_total tables coins rest).expect_const fun draws _ => ?_
    rw [expect_ret, List.map_cons, withCoins, List.zipWith_cons_cons, slotOps, hits,
      List.getElem?_cons_zero, Option.map_some, fillSlot_replica _ _ _ ρ' 0]
    simp only [drawReplica, found, Option.getD_some, Option.some.injEq, Prod.mk.injEq]
    split_ifs <;> simp_all
  rw [expect_bind, found, Option.getD_some]
  simp only [replica]
  rw [expect_mul_left]
  split
  · next same =>
    rw [same, count, Option.some.injEq] at found
    rw [← found, uniformBelow_replica (cfg.counts.of_lookup count).2 low high]
    ring
  · ring

lemma chance_first (tables : Tables cfg real fake) (realNodup : real.items.Nodup)
    (fakeNodup : fake.items.Nodup) {k : String} {r ρ : ℤ}
    (count : cfg.keyToNumberOfReplicas.lookup k = some r) (low : 0 ≤ ρ) (high : ρ < r)
    (c : Bool × Bool) (coins : List (Bool × Bool)) {queue : List L1Operation}
    (known : Known cfg queue) :
    chance cfg real fake 0 (k, ρ) (c :: coins) queue = 1 / r * keyChance real fake k c.2 queue := by
  rw [chance, sampleDraws, expect_bind, ← expect_key tables realNodup fakeNodup, ← expect_mul_left]
  refine expect_congr fun a ha => ?_
  rw [expect_bind, ← expect_mul_left]
  exact expect_congr fun f hf => expect_replica tables count low high c coins known ha hf

lemma chance_later (tables : Tables cfg real fake) (i : ℕ) (x : String × ℤ) (c : Bool × Bool)
    (coins : List (Bool × Bool)) {queue : List L1Operation} (known : Known cfg queue) :
    chance cfg real fake (i + 1) x (c :: coins) queue =
      chance cfg real fake i x coins (if c.2 then queue.tail else queue) := by
  have rest : ∀ a f, (fillSlot ⟨c.2, a, f, 0⟩ queue).2 = if c.2 then queue.tail else queue := by
    intro a f
    unfold fillSlot
    cases c.2 with
    | false => rfl
    | true => cases queue <;> rfl
  rw [chance, sampleDraws, expect_bind]
  refine tables.realTotal.expect_const fun a ha => ?_
  rw [expect_bind]
  refine tables.fakeTotal.expect_const fun f hf => ?_
  obtain ⟨⟨r, found, pos⟩, _⟩ := fillSlot_known (c := c.2) (ρ := 0) tables known ha hf
  rw [expect_bind, found, Option.getD_some]
  refine (uniformBelow_total pos).expect_const fun ρ _ => ?_
  rw [expect_bind, rest a f, chance]
  refine expect_congr fun draws _ => ?_
  rw [expect_ret, List.map_cons, withCoins, List.zipWith_cons_cons, slotOps,
    fillSlot_replica _ _ _ ρ 0, rest a f, hits, List.getElem?_cons_succ]
  rfl

lemma expect_chance (tables : Tables cfg real fake) (realNodup : real.items.Nodup)
    (fakeNodup : fake.items.Nodup) {k : String} {r ρ : ℤ}
    (count : cfg.keyToNumberOfReplicas.lookup k = some r) (low : 0 ≤ ρ) (high : ρ < r)
    (coins : List (Bool × Bool)) {i : ℕ} (hi : i < coins.length) (queue : List L1Operation) :
    (sampleQueue real queue).expect (chance cfg real fake i (k, ρ) coins) =
      1 / r * if (coins.map Prod.snd)[i]? = some true then real.probabilityOf k
        else fake.probabilityOf k := by
  induction coins generalizing i queue with
  | nil => simp at hi
  | cons c coins ih =>
    cases i with
    | zero =>
      have first : (sampleQueue real queue).expect (chance cfg real fake 0 (k, ρ) (c :: coins)) =
          1 / r * (sampleQueue real queue).expect (keyChance real fake k c.2) := by
        rw [← expect_mul_left]
        exact expect_congr fun drawn hd => chance_first tables realNodup fakeNodup count low high c
          coins (sampleQueue_known tables hd)
      rw [first, List.map_cons, List.getElem?_cons_zero]
      congr 1
      unfold keyChance
      cases c.2 with
      | false => exact (sampleQueue_total tables queue).expect_const fun _ _ => rfl
      | true =>
        cases queue with
        | nil => exact expect_ret _ _
        | cons op queue =>
          rw [sampleQueue, expect_bind, if_pos rfl, ← sample_prob realNodup]
          refine expect_congr fun a _ => ?_
          rw [expect_bind]
          exact (sampleQueue_total tables queue).expect_const fun _ _ => expect_ret _ _
    | succ i =>
      have inside : i < coins.length := by simpa using hi
      have later : (sampleQueue real queue).expect (chance cfg real fake (i + 1) (k, ρ)
          (c :: coins)) = (sampleQueue real queue).expect fun drawn =>
            chance cfg real fake i (k, ρ) coins (if c.2 then drawn.tail else drawn) :=
        expect_congr fun drawn hd => chance_later tables i (k, ρ) c coins
          (sampleQueue_known tables hd)
      rw [later, List.map_cons, List.getElem?_cons_succ]
      cases c.2 with
      | false => exact ih inside queue
      | true =>
        cases queue with
        | nil => exact ih inside []
        | cons op queue =>
          rw [← ih inside queue, sampleQueue, expect_bind]
          refine tables.realTotal.expect_const fun a _ => ?_
          rw [expect_bind]
          exact expect_congr fun drawn _ => expect_ret _ _

lemma usedCoin_up {coins : List Bool} (some' : coins ≠ []) (i : ℕ) :
    (if (usedCoins cfg coins)[i]? = some true then 1 else 0 : ℚ) =
      (if coins[i]? = some true then 1 else 0) +
        if cfg.disableAllFalse ∧ i = 0 then (if coins.any id = false then 1 else 0) else 0 := by
  obtain ⟨c, coins, rfl⟩ := List.exists_cons_of_ne_nil some'
  have all : ((c :: coins).map fun c => (⟨c, "", "", 0⟩ : Draw)).any Draw.coin =
      (c :: coins).any id := by
    rw [List.any_map]
    rfl
  have kept : (((c :: coins).map fun c => (⟨c, "", "", 0⟩ : Draw)).map Draw.coin) = c :: coins := by
    simp [Function.comp_def]
  have rest : ((coins.map fun c => (⟨c, "", "", 0⟩ : Draw)).map Draw.coin) = coins := by
    simp [Function.comp_def]
  unfold usedCoins tossCoins
  rw [all]
  cases cfg.disableAllFalse with
  | false => simp only [Bool.false_and, Bool.false_eq_true, if_false, false_and, kept, add_zero]
  | true =>
    cases none : (c :: coins).any id with
    | true => simp only [Bool.not_true, Bool.and_false, Bool.false_eq_true, if_false, kept,
        Bool.true_eq_false, ite_self, add_zero]
    | false =>
      have down : c = false := by
        simp only [List.any_cons, Bool.or_eq_false_iff, id_eq] at none
        exact none.1
      subst down
      cases i with
      | zero => simp
      | succ i =>
        simp only [List.map_cons, Bool.not_false, Bool.and_self, if_true, rest,
          List.getElem?_cons_succ, Nat.add_eq_zero_iff, one_ne_zero, and_false, if_false, add_zero]

lemma expect_usedCoin {n i : ℕ} (hi : i < n) :
    (tosses n).expect (fun coins => if (usedCoins cfg coins)[i]? = some true then 1 else 0) =
      if cfg.disableAllFalse ∧ i = 0 then 1 / 2 + 1 / 2 ^ n else 1 / 2 := by
  have up : (tosses n).expect
      (fun coins => if (usedCoins cfg coins)[i]? = some true then 1 else 0) =
      (tosses n).expect fun coins => (if coins[i]? = some true then 1 else 0) +
        if cfg.disableAllFalse ∧ i = 0 then (if coins.any id = false then 1 else 0) else 0 := by
    refine expect_congr fun coins hc => usedCoin_up ?_ i
    rintro rfl
    have := tosses_length hc
    simp at this
    omega
  rw [up, expect_add, expect_coin hi]
  split
  · rw [expect_all_false]
  · rw [(tosses_total n).expect_const fun _ _ => rfl, add_zero]

lemma slotProbability_eq (tables : Tables cfg real fake) (realNodup : real.items.Nodup)
    (fakeNodup : fake.items.Nodup) {k : String} {r ρ : ℤ}
    (count : cfg.keyToNumberOfReplicas.lookup k = some r) (low : 0 ≤ ρ) (high : ρ < r)
    (queue : List L1Operation) {i : ℕ} (hi : i < cfg.securityBatchSize.toNat) {up : ℚ}
    (rate : up = if cfg.disableAllFalse ∧ i = 0 then 1 / 2 + 1 / 2 ^ cfg.securityBatchSize.toNat
      else 1 / 2) :
    slotProbability cfg real fake queue i (k, ρ) =
      (up * real.probabilityOf k + (1 - up) * fake.probabilityOf k) / r := by
  have batch : ∀ drawn, (sampleQueue real queue).Possible drawn →
      (((sampleBatch cfg real fake drawn).bind fun draws =>
        ret (accessed cfg draws drawn i)).expect fun b => if b = some (k, ρ) then 1 else 0) =
      (tosses cfg.securityBatchSize.toNat).expect fun coins =>
        chance cfg real fake i (k, ρ) (coins.zip (usedCoins cfg coins)) drawn := by
    intro drawn hd
    have known := sampleQueue_known tables hd
    rw [expect_bind, sampleBatch, expect_bind]
    refine expect_congr fun coins hc => ?_
    rw [chance, List.map_snd_zip (usedCoins_length coins).le]
    refine expect_congr fun draws hdraws => ?_
    rw [expect_ret, accessed_eq tables known hdraws (usedCoins_length coins) (tosses_length hc),
      hits]
  have coin : ∀ coins, (tosses cfg.securityBatchSize.toNat).Possible coins →
      (sampleQueue real queue).expect (fun drawn => chance cfg real fake i (k, ρ)
        (coins.zip (usedCoins cfg coins)) drawn) =
      fake.probabilityOf k / r + (real.probabilityOf k - fake.probabilityOf k) / r *
        if (usedCoins cfg coins)[i]? = some true then 1 else 0 := by
    intro coins hc
    have inside : i < (coins.zip (usedCoins cfg coins)).length := by
      rw [List.length_zip, usedCoins_length, min_self, tosses_length hc]
      exact hi
    rw [expect_chance tables realNodup fakeNodup count low high _ inside queue,
      List.map_snd_zip (usedCoins_length coins).le]
    split <;> ring
  rw [slotProbability, prob, expect_bind, expect_congr batch, expect_comm, expect_congr coin,
    expect_add, expect_mul_left, expect_usedCoin hi, ← rate,
    (tosses_total _).expect_const fun _ _ => rfl]
  ring

end Slots

section Smoothed
open RealDistribution
variable {cfg} {dist : RealDistribution} {dummyKey v : String}

lemma tables_of_dist (other : dummyKey ∉ dist.items)
    (table : cfg.keyToNumberOfReplicas = (dist.init dummyKey v).keyToNumberOfReplicas) :
    Tables cfg dist.toDistribution (dist.init dummyKey v).fakeDistribution where
  realTotal := sample_total dist.lengths dist.total
  fakeTotal := by
    have smooth : Smoothed dist dummyKey v := smoothed v other
    exact sample_total smooth.sizes smooth.total
  known k hk := by
    have mem : k ∈ dist.items ++ [dummyKey] := by
      rcases hk with real | fake
      · exact List.mem_append_left _ real
      · exact fake
    have rates : ∃ p f r, KeyRate dist dummyKey v k p f r := exists_keyRate v other mem
    obtain ⟨_, _, r, rate⟩ := rates
    exact ⟨r, by rw [table]; exact rate.replicas, rate.pos⟩

/-- A slot accesses every replica with the same probability, unless it is the first of a batch
that must not be all fake: then real accesses have a share of `1 / 2 + 1 / 2 ^ size`. -/
theorem slot_smoothed (other : dummyKey ∉ dist.items)
    (table : cfg.keyToNumberOfReplicas = (dist.init dummyKey v).keyToNumberOfReplicas)
    (queue : List L1Operation) {i : ℕ} (hi : i < cfg.securityBatchSize.toNat) {k : String}
    {r ρ : ℤ} (count : cfg.keyToNumberOfReplicas.lookup k = some r) (low : 0 ≤ ρ) (high : ρ < r) :
    slotProbability cfg dist.toDistribution (dist.init dummyKey v).fakeDistribution queue i (k, ρ) =
      if cfg.disableAllFalse ∧ i = 0 then
        ((1 / 2 + 1 / 2 ^ cfg.securityBatchSize.toNat) * dist.probabilityOf k +
          (1 / 2 - 1 / 2 ^ cfg.securityBatchSize.toNat) *
            (dist.init dummyKey v).fakeDistribution.probabilityOf k) / r
      else 1 / (2 * dist.items.length) := by
  have mem : k ∈ dist.items ++ [dummyKey] := by
    rw [table] at count
    exact mem_allCounts_iff.mpr ⟨r, (createReplicas_lookup v other k r).mp count⟩
  have fakeNodup : (dist.init dummyKey v).fakeDistribution.items.Nodup :=
    List.Nodup.append dist.nodup (by simp) (by simpa using other)
  rw [slotProbability_eq (tables_of_dist other table) dist.nodup fakeNodup count low high queue hi
    rfl]
  split
  · ring
  · have rates : ∃ p f r, KeyRate dist dummyKey v k p f r := exists_keyRate v other mem
    obtain ⟨p, f, r', rate⟩ := rates
    have same : r' = r := by
      have found := rate.replicas
      rw [← table, count, Option.some.injEq] at found
      exact found.symm
    have n : (dist.items.length : ℚ) ≠ 0 := by exact_mod_cast dist.items_length_pos.ne'
    have pos : ((r : ℤ) : ℚ) ≠ 0 := by exact_mod_cast (low.trans_lt high).ne'
    have sum : dist.probabilityOf k + (dist.init dummyKey v).fakeDistribution.probabilityOf k =
        r * (1 / dist.items.length) := by
      rw [rate.real, show (dist.init dummyKey v).fakeDistribution.probabilityOf k = f from
        rate.fake, rate.rate, same, alpha_eq]
    calc _ = 1 / 2 * (dist.probabilityOf k +
          (dist.init dummyKey v).fakeDistribution.probabilityOf k) / r := by ring
      _ = 1 / (2 * dist.items.length) := by
        rw [sum]
        field_simp

/-- Two keys, one drawn three times as often as the other. -/
def unevenPair : RealDistribution where
  items := ["a", "b"]
  probabilities := [3 / 4, 1 / 4]
  nodup := RealDistribution.pair_nodup
  lengths := RealDistribution.quarters_length
  positive := RealDistribution.quarters_pos
  total := RealDistribution.quarters_sum

lemma unevenPair_counts : IntCounts (unevenPair.init "dummy" "cipher").keyToNumberOfReplicas := by
  decide +kernel

def unevenConfig (disableAllFalse : Bool) : L1Config where
  dummyKey := "dummy"
  keyToNumberOfReplicas := (unevenPair.init "dummy" "cipher").keyToNumberOfReplicas
  counts := unevenPair_counts
  securityBatchSize := 2
  disableAllFalse := disableAllFalse
  ackBatchSize := 1
  l2Workers := [1]

theorem slot_smoothed_unevenPair :
    slotProbability (unevenConfig true) unevenPair.toDistribution
      (unevenPair.init "dummy" "cipher").fakeDistribution [⟨{}, "b", ""⟩] 1 ("a", 1) = 1 / 4 := by
  have other : "dummy" ∉ unevenPair.items := by decide
  have count : (unevenConfig true).keyToNumberOfReplicas.lookup "a" = some 2 := by decide +kernel
  rw [slot_smoothed (ρ := 1) other rfl [⟨{}, "b", ""⟩] (show 1 < 2 by decide) count (by decide)
    (by decide)]
  norm_num [unevenPair]

/-- The first slot of a batch that must not be all fake prefers the frequent key. -/
theorem first_slot_biased :
    slotProbability (unevenConfig true) unevenPair.toDistribution
      (unevenPair.init "dummy" "cipher").fakeDistribution [] 0 ("a", 0) = 5 / 16 ∧
    (5 / 16 : ℚ) ≠ 1 / (2 * unevenPair.items.length) := by
  refine ⟨by decide +kernel, ?_⟩
  norm_num [unevenPair]

end Smoothed

end L1Proxy
end Shortstack
