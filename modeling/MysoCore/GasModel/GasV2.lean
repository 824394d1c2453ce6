/-
Rounding the computation charge (myso-types/src/gas_model/gas_v2.rs): the
bucket table, the three rounding modes of `bucketize_computation`, and
what they charge for every gas usage a meter from `new_with_budget` can
reach.

# Buckets

`computation_bucket m` pushes a bucket `[prev, t]` for each threshold up
to `m` and stops at the first above it (`bucketLoop_eq`), then pushes one
up to `m` itself, or `[0, max m 1]` when the table is still empty. So the
table is `chainBuckets 0` of a strictly increasing list of tops ending at
`max m 1` (`computation_bucket_eq`): contiguous from zero, each bucket
costing its top (`BucketTable`). For a usage within the last top,
`get_bucket_cost` returns the least top at or above it
(`isLeast_get_bucket_cost`).

# Rounding

A step rounds up to its least positive multiple at or above the usage
(`isLeast_stepped`). `half_digits_rounding n` rounds up to the least
multiple of `10^⌊⌊log₁₀ n⌋ / 2⌋` at or above `n`, by less than that base,
whose square is at most `n` (`half_digits_rounding_spec`); it is monotone
across digit boundaries as well (`half_digits_rounding_mono`).

# The charge

A meter from `new_with_budget` never uses more than
`max_gas_computation_bucket` units (`gas_used_le_max_bucket`), so in every
mode the rounded usage is at least the usage and grows with it, and the
charge is at least the usage times the effective price
(`computation_charge_spec`). The effective price is the gas price, except
for an aborted transaction under `max_gas_price_rgp_factor_for_aborted_transactions`,
where it is capped at that factor times the reference gas price.
-/
import MysoCore.GasModel.Tables
import MysoCore.Lib.Rounding
import Mathlib

namespace MysoCore.GasModel

open Rounding

-- ============================================================ the source

/-- `ComputationBucket`. -/
structure ComputationBucket where
  min : ℕ
  max : ℕ
  cost : ℕ
  deriving DecidableEq, Repr

namespace ComputationBucket

def new (min max cost : ℕ) : ComputationBucket := ⟨min, max, cost⟩

/-- `ComputationBucket::simple`: a bucket costing its top. -/
def simple (min max : ℕ) : ComputationBucket := new min max max

end ComputationBucket

def BUCKET_THRESHOLDS : List ℕ := [1_000, 5_000, 10_000, 20_000, 50_000, 200_000, 1_000_000]

/-- `get_bucket_cost`: the cost of the first bucket whose top reaches the
usage, or else of the last bucket. -/
def get_bucket_cost (table : List ComputationBucket) (computation_cost : ℕ) : ℕ :=
  match table.find? (fun bucket => decide (computation_cost ≤ bucket.max)) with
  | some bucket => bucket.cost
  | none =>
    match table.getLast? with
    | none => BUCKET_THRESHOLDS.getLast?.getD 1_000_000
    | some bucket => bucket.cost

/-- The loop of `computation_bucket`: a bucket `[prev, threshold]` for
each threshold up to `max_bucket_cost`, breaking at the first above it. -/
def bucketLoop (max_bucket_cost : ℕ) :
    List ℕ → List ComputationBucket → ℕ → List ComputationBucket × ℕ
  | [], buckets, prev => (buckets, prev)
  | threshold :: rest, buckets, prev =>
    if threshold ≤ max_bucket_cost then
      bucketLoop max_bucket_cost rest (buckets ++ [.simple prev threshold]) threshold
    else (buckets, prev)

/-- `computation_bucket`. -/
def computation_bucket (max_bucket_cost : ℕ) : List ComputationBucket :=
  let loop := bucketLoop max_bucket_cost BUCKET_THRESHOLDS [] 0
  let buckets :=
    if loop.2 < max_bucket_cost then loop.1 ++ [.simple loop.2 max_bucket_cost] else loop.1
  if buckets.isEmpty then buckets ++ [.simple 0 (max max_bucket_cost 1)] else buckets

-- ============================================================ bucket tables

/-- The buckets between consecutive tops, from `prev` on. -/
def chainBuckets : ℕ → List ℕ → List ComputationBucket
  | _, [] => []
  | prev, top :: tops => .simple prev top :: chainBuckets top tops

/-- A table of contiguous buckets from zero up to `top`: each starts where
the one before ends, their tops increase strictly, and each costs its
top. -/
structure BucketTable (table : List ComputationBucket) (top : ℕ) : Prop where
  first : table.head?.map ComputationBucket.min = some 0
  contiguous : table.IsChain fun a b => b.min = a.max
  increasing : table.Pairwise fun a b => a.max < b.max
  proper : ∀ b ∈ table, b.min < b.max
  cost_eq : ∀ b ∈ table, b.cost = b.max
  last : table.getLast?.map ComputationBucket.max = some top

theorem bucketLoop_eq (m : ℕ) :
    ∀ (ts : List ℕ) (buckets : List ComputationBucket) (prev : ℕ),
      bucketLoop m ts buckets prev =
        (buckets ++ chainBuckets prev (ts.takeWhile fun t => decide (t ≤ m)),
          (prev :: ts.takeWhile fun t => decide (t ≤ m)).getLast (List.cons_ne_nil _ _))
  | [], buckets, prev => by simp [bucketLoop, chainBuckets]
  | t :: ts, buckets, prev => by
    by_cases ht : t ≤ m
    · rw [bucketLoop, if_pos ht, bucketLoop_eq m ts, List.takeWhile_cons_of_pos (by simpa using ht)]
      simp [chainBuckets]
    · rw [bucketLoop, if_neg ht, List.takeWhile_cons_of_neg (by simpa using ht)]
      simp [chainBuckets]

theorem chainBuckets_append (prev top : ℕ) :
    ∀ tops : List ℕ, chainBuckets prev (tops ++ [top]) =
      chainBuckets prev tops ++ [.simple ((prev :: tops).getLast (List.cons_ne_nil _ _)) top]
  | [] => rfl
  | t :: tops => by
    rw [List.cons_append, chainBuckets, chainBuckets_append t top tops, chainBuckets,
      List.getLast_cons (List.cons_ne_nil _ _)]
    rfl

theorem map_max_chainBuckets : ∀ (prev : ℕ) (tops : List ℕ),
    (chainBuckets prev tops).map ComputationBucket.max = tops
  | _, [] => rfl
  | _, t :: tops => by rw [chainBuckets, List.map_cons, map_max_chainBuckets t tops]; rfl

theorem cost_eq_of_mem_chainBuckets : ∀ {prev : ℕ} {tops : List ℕ},
    ∀ b ∈ chainBuckets prev tops, b.cost = b.max
  | _, [], _, hb => absurd hb List.not_mem_nil
  | _, t :: tops, b, hb => by
    rcases List.mem_cons.mp hb with rfl | hb
    · rfl
    · exact cost_eq_of_mem_chainBuckets b hb

/-- Over increasing tops from `prev`, each bucket starts below its top. -/
theorem proper_of_mem_chainBuckets : ∀ {prev : ℕ} {tops : List ℕ},
    (prev :: tops).Pairwise (· < ·) → ∀ b ∈ chainBuckets prev tops, b.min < b.max
  | _, [], _, _, hb => absurd hb List.not_mem_nil
  | _, t :: tops, hs, b, hb => by
    obtain ⟨hprev, hs⟩ := List.pairwise_cons.mp hs
    rcases List.mem_cons.mp hb with rfl | hb
    · exact hprev t List.mem_cons_self
    · exact proper_of_mem_chainBuckets hs b hb

/-- Each bucket starts where the one before ends. -/
theorem isChain_chainBuckets : ∀ (prev : ℕ) (tops : List ℕ),
    (chainBuckets prev tops).IsChain fun a b => b.min = a.max
  | _, [] => List.IsChain.nil
  | _, [_] => List.isChain_singleton _
  | prev, t :: t' :: tops => by
    rw [chainBuckets, chainBuckets, List.isChain_cons_cons]
    refine ⟨rfl, ?_⟩
    have h := isChain_chainBuckets t (t' :: tops)
    rwa [chainBuckets] at h

/-- Increasing tops, positive and ending at `top`, make a bucket table up
to `top`. -/
theorem BucketTable.of_tops {tops : List ℕ} {top : ℕ} (hs : (0 :: tops).Pairwise (· < ·))
    (hlast : tops.getLast? = some top) : BucketTable (chainBuckets 0 tops) top where
  first := by
    cases tops with
    | nil => cases hlast
    | cons t tops => rfl
  contiguous := isChain_chainBuckets 0 tops
  increasing := List.pairwise_map.mp <| by
    rw [map_max_chainBuckets]
    exact (List.pairwise_cons.mp hs).2
  proper := proper_of_mem_chainBuckets hs
  cost_eq := cost_eq_of_mem_chainBuckets
  last := by rw [← List.getLast?_map, map_max_chainBuckets, hlast]

theorem thresholds_sorted : (0 :: BUCKET_THRESHOLDS).Pairwise (· < ·) := by decide

/-- `computation_bucket m` is the table of increasing tops from zero to
`max m 1`: the thresholds up to `m`, then `m` unless it is the last of
them, or `1` alone for `m = 0`. -/
theorem computation_bucket_eq (m : ℕ) :
    ∃ tops, computation_bucket m = chainBuckets 0 tops ∧ (0 :: tops).Pairwise (· < ·) ∧
      tops.getLast? = some (max m 1) := by
  simp only [computation_bucket, bucketLoop_eq, List.nil_append]
  -- the thresholds the loop takes increase from zero and stay within `m`
  have hL : (0 :: BUCKET_THRESHOLDS.takeWhile fun t => decide (t ≤ m)).Pairwise (· < ·) :=
    thresholds_sorted.sublist ((List.takeWhile_sublist _).cons_cons 0)
  have hle : ∀ t ∈ (0 :: BUCKET_THRESHOLDS.takeWhile fun t => decide (t ≤ m)), t ≤ m := by
    intro t ht
    rcases List.mem_cons.mp ht with rfl | ht
    · exact Nat.zero_le _
    · simpa using List.mem_takeWhile_imp ht
  generalize BUCKET_THRESHOLDS.takeWhile (fun t => decide (t ≤ m)) = L at hL hle ⊢
  have hprev := hle _ (List.getLast_mem (List.cons_ne_nil 0 L))
  have hmax := le_getLast_of_pairwise hL (List.cons_ne_nil 0 L)
  by_cases hlt : (0 :: L).getLast (List.cons_ne_nil 0 L) < m
  · -- a last bucket up to `m`
    have hm : max m 1 = m := max_eq_left (by omega)
    refine ⟨L ++ [m], ?_, ?_, by rw [List.getLast?_append_of_ne_nil _ (List.cons_ne_nil _ _), hm]; rfl⟩
    · rw [if_pos hlt, ← chainBuckets_append, if_neg]
      cases L <;> simp [chainBuckets]
    · rw [← List.cons_append, List.pairwise_append]
      refine ⟨hL, List.pairwise_singleton _ _, fun a ha b hb => ?_⟩
      rw [List.mem_singleton.mp hb]
      exact lt_of_le_of_lt (hmax a ha) hlt
  · -- `m` is the last threshold taken, or zero with none taken
    have heq : (0 :: L).getLast (List.cons_ne_nil 0 L) = m := le_antisymm hprev (not_lt.mp hlt)
    rw [if_neg hlt]
    cases L with
    | nil =>
      obtain rfl : m = 0 := heq.symm
      exact ⟨[1], rfl, by decide, rfl⟩
    | cons t L =>
      have ht : 0 < m := heq ▸ lt_of_lt_of_le ((List.pairwise_cons.mp hL).1 t List.mem_cons_self)
        (hmax t (List.mem_cons_of_mem 0 List.mem_cons_self))
      refine ⟨t :: L, by simp [chainBuckets], hL, ?_⟩
      rw [max_eq_left ht, ← heq, List.getLast_cons (List.cons_ne_nil _ _),
        List.getLast?_eq_some_getLast (List.cons_ne_nil _ _)]

/-- `computation_bucket m` is a table of buckets from zero up to
`max m 1`. -/
theorem bucketTable_computation_bucket (m : ℕ) :
    BucketTable (computation_bucket m) (max m 1) := by
  obtain ⟨tops, heq, hs, hlast⟩ := computation_bucket_eq m
  rw [heq]
  exact BucketTable.of_tops hs hlast

/-- In a table up to `top`, a usage within `top` costs the least top at or
above it. -/
theorem BucketTable.isLeast_get_bucket_cost {table : List ComputationBucket} {top u : ℕ}
    (h : BucketTable table top) (hu : u ≤ top) :
    IsLeast {z | z ∈ table.map ComputationBucket.max ∧ u ≤ z} (get_bucket_cost table u) := by
  have hsorted : (table.map ComputationBucket.max).Pairwise (· < ·) := List.pairwise_map.mpr h.increasing
  have htop : top ∈ table.map ComputationBucket.max := by
    have hlast := h.last
    rw [← List.getLast?_map] at hlast
    exact List.mem_of_getLast? hlast
  obtain ⟨y, hfind, hleast⟩ := isLeast_find? hsorted ⟨top, htop, hu⟩
  rw [List.find?_map] at hfind
  obtain ⟨b, hb, rfl⟩ := Option.map_eq_some_iff.mp hfind
  -- the bucket found is the one `get_bucket_cost` returns, and costs its top
  have hcost : get_bucket_cost table u = b.cost := by
    unfold get_bucket_cost
    rw [show (table.find? fun bucket => decide (u ≤ bucket.max)) = some b from hb]
  rw [hcost, h.cost_eq b (List.mem_of_find?_eq_some hb)]
  exact hleast

-- ============================================================ rounding

/-- `half_digits_rounding`: round up keeping just over half the digits. -/
def half_digits_rounding (n : ℕ) : ℕ :=
  if n < 1000 then 1000
  else
    let digits := Nat.log 10 n
    let drop := digits / 2
    let base := 10 ^ drop
    divCeil n base * base

/-- `GasRoundingMode`. -/
inductive GasRoundingMode
  | Bucketize
  | Stepped (step : ℕ)
  | KeepHalfDigits
  deriving DecidableEq, Repr

/-- The gas units `bucketize_computation` charges for `gas_used`, before it
multiplies by the price; `none` where Rust panics, on a remainder by a
zero step. -/
def rounded_gas (mode : GasRoundingMode) (table : List ComputationBucket) (gas_used : ℕ) :
    Option ℕ :=
  match mode with
  | .KeepHalfDigits => some (half_digits_rounding gas_used)
  | .Stepped gas_rounding =>
    if gas_rounding = 0 then none
    else if gas_used > 0 ∧ gas_used % gas_rounding = 0 then some gas_used
    else some ((gas_used / gas_rounding + 1) * gas_rounding)
  | .Bucketize => some (get_bucket_cost table gas_used)

/-- A step rounds up to its least positive multiple at or above the
usage. -/
theorem isLeast_stepped {r : ℕ} (hr : 0 < r) (table : List ComputationBucket) (u : ℕ) :
    ∃ c, rounded_gas (.Stepped r) table u = some c ∧ IsLeast {z | 0 < z ∧ r ∣ z ∧ u ≤ z} c := by
  have hr0 : r ≠ 0 := Nat.pos_iff_ne_zero.mp hr
  by_cases hexact : u > 0 ∧ u % r = 0
  · refine ⟨u, by rw [rounded_gas, if_neg hr0, if_pos hexact], ?_, fun z hz => hz.2.2⟩
    exact ⟨hexact.1, Nat.dvd_of_mod_eq_zero hexact.2, le_rfl⟩
  · refine ⟨(u / r + 1) * r, by rw [rounded_gas, if_neg hr0, if_neg hexact], ?_⟩
    rcases Nat.eq_zero_or_pos u with rfl | hu
    · -- nothing used: one step
      rw [Nat.zero_div, Nat.zero_add, Nat.one_mul]
      exact ⟨⟨hr, Nat.dvd_refl r, Nat.zero_le r⟩, fun z ⟨hz, hdvd, _⟩ => Nat.le_of_dvd hz hdvd⟩
    · -- a usage between steps: the next multiple up
      have hmod : u % r ≠ 0 := fun h => hexact ⟨hu, h⟩
      have hceil : IsLeast (multiplesFrom r u) (divCeil u r * r) := isLeast_divCeil_mul hr
      rw [divCeil_mul_eq, if_neg hmod] at hceil
      exact ⟨⟨Nat.mul_pos (Nat.succ_pos _) hr, hceil.1.2, hceil.1.1⟩,
        fun z ⟨_, hdvd, hle⟩ => hceil.2 ⟨hle, hdvd⟩⟩

theorem half_digits_rounding_of_le {n : ℕ} (hn : 1000 ≤ n) :
    half_digits_rounding n = divCeil n (10 ^ (Nat.log 10 n / 2)) * 10 ^ (Nat.log 10 n / 2) := by
  rw [half_digits_rounding, if_neg (Nat.not_lt.mpr hn)]

/-- From a thousand on, `half_digits_rounding` rounds up to the least
multiple of `10^⌊⌊log₁₀ n⌋ / 2⌋`, by less than that base, whose square is
at most `n`. -/
theorem half_digits_rounding_spec {n : ℕ} (hn : 1000 ≤ n) :
    IsLeast (multiplesFrom (10 ^ (Nat.log 10 n / 2)) n) (half_digits_rounding n) ∧
      half_digits_rounding n < n + 10 ^ (Nat.log 10 n / 2) ∧
      10 ^ (Nat.log 10 n / 2) * 10 ^ (Nat.log 10 n / 2) ≤ n := by
  have hbase : 0 < 10 ^ (Nat.log 10 n / 2) := Nat.pow_pos (by decide)
  rw [half_digits_rounding_of_le hn]
  refine ⟨isLeast_divCeil_mul hbase, divCeil_mul_lt hbase, ?_⟩
  calc 10 ^ (Nat.log 10 n / 2) * 10 ^ (Nat.log 10 n / 2)
      = 10 ^ (Nat.log 10 n / 2 + Nat.log 10 n / 2) := (Nat.pow_add _ _ _).symm
    _ ≤ 10 ^ Nat.log 10 n := Nat.pow_le_pow_right (by decide) (by omega)
    _ ≤ n := Nat.pow_log_le_self 10 (by omega)

theorem le_half_digits_rounding (n : ℕ) : n ≤ half_digits_rounding n := by
  by_cases hn : n < 1000
  · rw [half_digits_rounding, if_pos hn]
    exact hn.le
  · exact (half_digits_rounding_spec (Nat.not_lt.mp hn)).1.1.1

/-- `half_digits_rounding` is monotone, across digit boundaries too. -/
theorem half_digits_rounding_mono : Monotone half_digits_rounding := by
  intro n n' hle
  by_cases hn' : n' < 1000
  · rw [half_digits_rounding, if_pos (lt_of_le_of_lt hle hn'), half_digits_rounding, if_pos hn']
  by_cases hn : n < 1000
  · calc half_digits_rounding n = 1000 := by rw [half_digits_rounding, if_pos hn]
      _ ≤ n' := Nat.not_lt.mp hn'
      _ ≤ half_digits_rounding n' := le_half_digits_rounding n'
  have h₁ := (half_digits_rounding_spec (Nat.not_lt.mp hn)).1
  rcases Nat.eq_or_lt_of_le (Nat.log_mono_right hle : Nat.log 10 n ≤ Nat.log 10 n') with heq | hlt
  · -- the same base: the rounding of `n'` is a multiple of it above `n`
    have h₂ := (half_digits_rounding_spec (Nat.not_lt.mp hn')).1.1
    rw [← heq] at h₂
    exact h₁.2 ⟨le_trans hle h₂.1, h₂.2⟩
  · -- more digits: the next power of ten is a multiple of the smaller
    -- base above `n`, and at most `n'`
    have hpow : 10 ^ (Nat.log 10 n + 1) ∈ multiplesFrom (10 ^ (Nat.log 10 n / 2)) n :=
      ⟨(Nat.lt_pow_succ_log_self (by decide) n).le, Nat.pow_dvd_pow 10 (by omega)⟩
    calc half_digits_rounding n ≤ 10 ^ (Nat.log 10 n + 1) := h₁.2 hpow
      _ ≤ 10 ^ Nat.log 10 n' := Nat.pow_le_pow_right (by decide) hlt
      _ ≤ n' := Nat.pow_log_le_self 10 (by omega)
      _ ≤ half_digits_rounding n' := le_half_digits_rounding n'

/-- Over a bucket table up to `max m 1` and a step of at least one, the
rounding of any usage up to `m` is at least the usage and grows with
it. -/
theorem rounded_gas_spec {mode : GasRoundingMode} {table : List ComputationBucket} {m : ℕ}
    (hmode : ∀ r, mode = .Stepped r → 0 < r) (htable : BucketTable table (max m 1))
    {u u' : ℕ} (hle : u ≤ u') (hu' : u' ≤ m) :
    ∃ c c', rounded_gas mode table u = some c ∧ rounded_gas mode table u' = some c' ∧
      u ≤ c ∧ c ≤ c' := by
  cases mode with
  | KeepHalfDigits =>
    exact ⟨_, _, rfl, rfl, le_half_digits_rounding u, half_digits_rounding_mono hle⟩
  | Stepped r =>
    -- the least multiples above a larger usage are among those above a smaller one
    obtain ⟨c, hc, hleast⟩ := isLeast_stepped (hmode r rfl) table u
    obtain ⟨c', hc', hleast'⟩ := isLeast_stepped (hmode r rfl) table u'
    exact ⟨c, c', hc, hc', hleast.1.2.2,
      hleast'.mono hleast fun z ⟨hz, hdvd, hu⟩ => ⟨hz, hdvd, le_trans hle hu⟩⟩
  | Bucketize =>
    have hleast := htable.isLeast_get_bucket_cost (le_trans (le_trans hle hu') (le_max_left m 1))
    have hleast' := htable.isLeast_get_bucket_cost (le_trans hu' (le_max_left m 1))
    exact ⟨_, _, rfl, rfl, hleast.1.2, hleast'.mono hleast fun z ⟨hz, hu⟩ => ⟨hz, le_trans hle hu⟩⟩

-- ============================================================ the charge

/-- The fields of `ProtocolConfig` the modelled functions read. -/
structure ProtocolConfig where
  max_gas_computation_bucket : ℕ
  gas_rounding_halve_digits : Bool
  gas_rounding_step : Option ℕ
  max_gas_price_rgp_factor_for_aborted_transactions : Option ℕ
  deriving DecidableEq, Repr

/-- `MySoCostTable`, with the fields `bucketize_computation` reads. -/
structure MySoCostTable where
  computation_bucket : List ComputationBucket
  max_gas_price_rgp_factor_for_aborted_transactions : Option ℕ
  deriving DecidableEq, Repr

/-- `MySoCostTable::new`. -/
def MySoCostTable.new (c : ProtocolConfig) : MySoCostTable where
  computation_bucket := MysoCore.GasModel.computation_bucket c.max_gas_computation_bucket
  max_gas_price_rgp_factor_for_aborted_transactions :=
    c.max_gas_price_rgp_factor_for_aborted_transactions

inductive ExecutionError
  | InsufficientGas
  deriving DecidableEq, Repr

/-- `MySoGasStatus`, with the fields the computation charge reads and
writes; the storage accounting is left out. -/
structure MySoGasStatus where
  gas_status : GasStatus
  cost_table : MySoCostTable
  gas_budget : ℕ
  computation_cost : ℕ
  charge : Bool
  gas_price : ℕ
  reference_gas_price : ℕ
  gas_rounding_mode : GasRoundingMode
  deriving DecidableEq, Repr

namespace MySoGasStatus

/-- `MySoGasStatus::new`, which raises a zero step to one. -/
def new (move_gas_status : GasStatus) (gas_budget : ℕ) (charge : Bool)
    (gas_price reference_gas_price : ℕ) (gas_rounding_mode : GasRoundingMode)
    (cost_table : MySoCostTable) : MySoGasStatus :=
  let gas_rounding_mode :=
    match gas_rounding_mode with
    | .Bucketize => .Bucketize
    | .Stepped val => .Stepped (max val 1)
    | .KeepHalfDigits => .KeepHalfDigits
  { gas_status := move_gas_status, cost_table, gas_budget, computation_cost := 0, charge,
    gas_price, reference_gas_price, gas_rounding_mode }

/-- `new` leaves no zero step. -/
theorem new_stepped_pos {move_gas_status : GasStatus} {gas_budget : ℕ} {charge : Bool}
    {gas_price reference_gas_price : ℕ} {gas_rounding_mode : GasRoundingMode}
    {cost_table : MySoCostTable} {r : ℕ}
    (hr : (new move_gas_status gas_budget charge gas_price reference_gas_price gas_rounding_mode
      cost_table).gas_rounding_mode = .Stepped r) : 0 < r := by
  cases gas_rounding_mode with
  | Stepped val =>
    simp only [new, GasRoundingMode.Stepped.injEq] at hr
    omega
  | Bucketize | KeepHalfDigits => simp [new] at hr

/-- `new_with_budget`: the Move meter's budget is capped at
`max_gas_computation_bucket` units at the gas price; `none` where the
meter asserts a zero gas price. -/
def new_with_budget (gas_budget gas_price reference_gas_price : ℕ) (config : ProtocolConfig) :
    Option MySoGasStatus :=
  let max_computation_budget := config.max_gas_computation_bucket * gas_price
  let computation_budget :=
    if gas_budget > max_computation_budget then max_computation_budget else gas_budget
  let myso_cost_table := MySoCostTable.new config
  let gas_rounding_mode :=
    if config.gas_rounding_halve_digits then GasRoundingMode.KeepHalfDigits
    else
      match config.gas_rounding_step with
      | some step => .Stepped step
      | none => .Bucketize
  (GasStatus.new computation_budget gas_price).map fun gas_status =>
    new gas_status gas_budget true gas_price reference_gas_price gas_rounding_mode myso_cost_table

/-- The price `bucketize_computation` charges at: the gas price, capped for
an aborted transaction when the cost table sets a factor of the reference
gas price. -/
def effective_gas_price (self : MySoGasStatus) (aborted : Option Bool) : ℕ :=
  match self.cost_table.max_gas_price_rgp_factor_for_aborted_transactions, aborted.getD false with
  | some factor, true => min self.gas_price (factor * self.reference_gas_price)
  | _, _ => self.gas_price

/-- The charge `bucketize_computation` computes, before it saturates at
the budget; `none` where it panics. -/
def computation_charge (self : MySoGasStatus) (aborted : Option Bool) : Option ℕ :=
  (rounded_gas self.gas_rounding_mode self.cost_table.computation_bucket
    self.gas_status.gas_used_pre_gas_price).map (· * self.effective_gas_price aborted)

/-- `bucketize_computation`: `none` where it panics. -/
def bucketize_computation (self : MySoGasStatus) (aborted : Option Bool) :
    Option (MySoGasStatus × Except ExecutionError Unit) :=
  (self.computation_charge aborted).map fun gas_used =>
    if self.gas_budget ≤ gas_used then
      ({ self with computation_cost := self.gas_budget }, .error .InsufficientGas)
    else ({ self with computation_cost := gas_used }, .ok ())

/-- The status after the VM has run the Move meter. -/
def runMeter (self : MySoGasStatus) (ops : List MeterOp) : MySoGasStatus :=
  { self with gas_status := self.gas_status.run ops }

/-- What `new_with_budget` builds: a meter from a budget within
`max_gas_computation_bucket` units, the configuration's cost table, the
prices given, and no zero step. -/
theorem new_with_budget_cases {gas_budget gas_price reference_gas_price : ℕ}
    {config : ProtocolConfig} {status : MySoGasStatus}
    (h : new_with_budget gas_budget gas_price reference_gas_price config = some status) :
    (∃ budget, GasStatus.new budget gas_price = some status.gas_status ∧
      budget ≤ config.max_gas_computation_bucket * gas_price) ∧
    status.cost_table = MySoCostTable.new config ∧ status.gas_price = gas_price ∧
    status.reference_gas_price = reference_gas_price ∧
    ∀ r, status.gas_rounding_mode = .Stepped r → 0 < r := by
  unfold new_with_budget at h
  obtain ⟨gas_status, hgs, rfl⟩ := Option.map_eq_some_iff.mp h
  exact ⟨⟨_, hgs, by split_ifs with hcap <;> omega⟩, rfl, rfl, rfl,
    fun r hr => new_stepped_pos hr⟩

/-- From `new_with_budget`, whatever the VM charges, the meter never uses
more than `max_gas_computation_bucket` units. -/
theorem gas_used_le_max_bucket {gas_budget gas_price reference_gas_price : ℕ}
    {config : ProtocolConfig} {status : MySoGasStatus}
    (h : new_with_budget gas_budget gas_price reference_gas_price config = some status)
    (ops : List MeterOp) :
    (status.runMeter ops).gas_status.gas_used_pre_gas_price ≤ config.max_gas_computation_bucket := by
  obtain ⟨⟨budget, hnew, hbudget⟩, -⟩ := new_with_budget_cases h
  have hp : 0 < gas_price := by
    unfold GasStatus.new at hnew
    split_ifs at hnew with hp
    exact hp
  calc (status.runMeter ops).gas_status.gas_used_pre_gas_price ≤ budget / gas_price :=
        GasStatus.run_gas_used_le hnew ops
    _ ≤ config.max_gas_computation_bucket * gas_price / gas_price := Nat.div_le_div_right hbudget
    _ = config.max_gas_computation_bucket := Nat.mul_div_cancel _ hp

/-- The effective price is at most the gas price. -/
theorem effective_gas_price_le (self : MySoGasStatus) (aborted : Option Bool) :
    self.effective_gas_price aborted ≤ self.gas_price := by
  unfold effective_gas_price
  split
  · exact Nat.min_le_left _ _
  · exact le_rfl

/-- Unless the transaction aborted and the cost table sets a factor, the
effective price is the gas price. -/
theorem effective_gas_price_of_uncapped (self : MySoGasStatus) (aborted : Option Bool)
    (h : aborted ≠ some true ∨
      self.cost_table.max_gas_price_rgp_factor_for_aborted_transactions = none) :
    self.effective_gas_price aborted = self.gas_price := by
  unfold effective_gas_price
  split
  · next factor hfactor habort =>
    -- `unwrap_or(false)` is true only on `some true`
    have : aborted = some true := by
      cases aborted with
      | none => simp at habort
      | some b => simpa using habort
    rcases h with h | h
    · exact absurd this h
    · simp [hfactor] at h
  · rfl

/-- Running the meter changes neither the mode, the cost table nor the
prices the charge reads. -/
theorem computation_charge_runMeter (self : MySoGasStatus) (ops : List MeterOp)
    (aborted : Option Bool) :
    (self.runMeter ops).computation_charge aborted =
      (rounded_gas self.gas_rounding_mode self.cost_table.computation_bucket
        (self.runMeter ops).gas_status.gas_used_pre_gas_price).map
        (· * self.effective_gas_price aborted) := rfl

/-- `bucketize_computation` records the charge, saturated at the budget,
and fails exactly when the budget does not exceed it. -/
theorem bucketize_computation_of_charge {self : MySoGasStatus} {aborted : Option Bool} {c : ℕ}
    (hc : self.computation_charge aborted = some c) :
    ∃ r, self.bucketize_computation aborted = some r ∧
      r.1.computation_cost = min self.gas_budget c ∧ (r.2 = .ok () ↔ c < self.gas_budget) := by
  refine ⟨_, by rw [bucketize_computation, hc]; rfl, ?_⟩
  dsimp only
  split_ifs with hle
  · exact ⟨(Nat.min_eq_left hle).symm, by simp; omega⟩
  · exact ⟨(Nat.min_eq_right (Nat.le_of_not_le hle)).symm, by simp; omega⟩

/-- From `new_with_budget`, after any run of the meter the charge exists,
is at least the units used at the effective price, and grows with the
units used. -/
theorem computation_charge_spec {gas_budget gas_price reference_gas_price : ℕ}
    {config : ProtocolConfig} {status : MySoGasStatus}
    (h : new_with_budget gas_budget gas_price reference_gas_price config = some status)
    (aborted : Option Bool) {ops ops' : List MeterOp}
    (hle : (status.runMeter ops).gas_status.gas_used_pre_gas_price ≤
      (status.runMeter ops').gas_status.gas_used_pre_gas_price) :
    ∃ c c', (status.runMeter ops).computation_charge aborted = some c ∧
      (status.runMeter ops').computation_charge aborted = some c' ∧
      (status.runMeter ops).gas_status.gas_used_pre_gas_price *
        status.effective_gas_price aborted ≤ c ∧ c ≤ c' := by
  obtain ⟨-, htable, -, -, hmode⟩ := new_with_budget_cases h
  have hbuckets : BucketTable status.cost_table.computation_bucket
      (max config.max_gas_computation_bucket 1) := by
    rw [htable]
    exact bucketTable_computation_bucket config.max_gas_computation_bucket
  obtain ⟨r, r', hr, hr', hur, hrr'⟩ :=
    rounded_gas_spec hmode hbuckets hle (gas_used_le_max_bucket h ops')
  refine ⟨r * status.effective_gas_price aborted, r' * status.effective_gas_price aborted,
    ?_, ?_, Nat.mul_le_mul_right _ hur, Nat.mul_le_mul_right _ hrr'⟩
  · rw [computation_charge_runMeter, hr]
    rfl
  · rw [computation_charge_runMeter, hr']
    rfl

end MySoGasStatus

/-- The computation charge rounds up and is monotone, at the effective
price: the buckets of `computation_bucket m` chain from zero to
`max m 1` and `get_bucket_cost` picks the least bucket top at or above the
usage; a step of at least one rounds to the least positive multiple;
`half_digits_rounding` keeps the upper half of the digits, rounding up by
less than a power of ten whose square is at most the value, and is
monotone; and from `new_with_budget` the usage stays within
`max_gas_computation_bucket`, the charge is at least the usage at the
effective price, grows with the usage, and the effective price is the
gas price except for an aborted transaction under a factor.

The conjuncts on `half_digits_rounding` are over ℕ. The source computes
it in `u64`, where `divCeil n base * base` wraps for `n` within a base of
`2 ^ 64` (above about `1.8 * 10 ^ 19`); a usage within
`max_gas_computation_bucket` is far below that, and there the two agree. -/
theorem computation_charge_rounds_up :
    (∀ m, BucketTable (computation_bucket m) (max m 1)) ∧
    (∀ m u, u ≤ max m 1 →
      IsLeast {z | z ∈ (computation_bucket m).map ComputationBucket.max ∧ u ≤ z}
        (get_bucket_cost (computation_bucket m) u)) ∧
    (∀ table r u, ∃ c, rounded_gas (.Stepped (max r 1)) table u = some c ∧
      IsLeast {z | 0 < z ∧ max r 1 ∣ z ∧ u ≤ z} c) ∧
    (∀ n, n < 1000 → half_digits_rounding n = 1000) ∧
    (∀ n, 1000 ≤ n →
      IsLeast (Rounding.multiplesFrom (10 ^ (Nat.log 10 n / 2)) n) (half_digits_rounding n) ∧
      half_digits_rounding n < n + 10 ^ (Nat.log 10 n / 2) ∧
      10 ^ (Nat.log 10 n / 2) * 10 ^ (Nat.log 10 n / 2) ≤ n) ∧
    Monotone half_digits_rounding ∧
    ∀ gas_budget gas_price reference_gas_price config status,
      MySoGasStatus.new_with_budget gas_budget gas_price reference_gas_price config = some status →
      (∀ ops, (status.runMeter ops).gas_status.gas_used_pre_gas_price ≤
        config.max_gas_computation_bucket) ∧
      (∀ aborted ops ops', (status.runMeter ops).gas_status.gas_used_pre_gas_price ≤
          (status.runMeter ops').gas_status.gas_used_pre_gas_price →
        ∃ c c', (status.runMeter ops).computation_charge aborted = some c ∧
          (status.runMeter ops').computation_charge aborted = some c' ∧
          (status.runMeter ops).gas_status.gas_used_pre_gas_price *
            status.effective_gas_price aborted ≤ c ∧ c ≤ c') ∧
      ∀ aborted, status.effective_gas_price aborted ≤ gas_price ∧
        (aborted ≠ some true ∨ config.max_gas_price_rgp_factor_for_aborted_transactions = none →
          status.effective_gas_price aborted = gas_price) := by
  refine ⟨bucketTable_computation_bucket, fun m u hu => ?_,
    fun table r u => isLeast_stepped (by omega) table u,
    fun n hn => by simp [half_digits_rounding, hn], fun n hn => half_digits_rounding_spec hn,
    half_digits_rounding_mono, ?_⟩
  · exact (bucketTable_computation_bucket m).isLeast_get_bucket_cost hu
  · intro gas_budget gas_price reference_gas_price config status h
    obtain ⟨-, htable, hprice, -, -⟩ := MySoGasStatus.new_with_budget_cases h
    refine ⟨MySoGasStatus.gas_used_le_max_bucket h,
      fun aborted ops ops' hle => MySoGasStatus.computation_charge_spec h aborted hle,
      fun aborted => ⟨hprice ▸ status.effective_gas_price_le aborted, fun hun => ?_⟩⟩
    rw [← hprice]
    exact status.effective_gas_price_of_uncapped aborted (by rw [htable]; exact hun)

/-- A configuration with buckets up to five million units, neither the
halving nor a step, and aborted transactions capped at a hundred times
the reference gas price. Protocol version 90 has that bucket limit and
that cap, but since version 14 also rounds in steps of 1000
(`gas_rounding_step`), which this configuration leaves out. -/
def cappedConfig : ProtocolConfig := ⟨5_000_000, false, none, some 100⟩

/-- An aborted transaction at a gas price above the cap is charged below
its usage at its own gas price: a thousand units at 200 MIST, with a
reference gas price of one, cost 100000 MIST. -/
theorem aborted_charge_below_gas_price :
    ∃ status, MySoGasStatus.new_with_budget 1_000_000_000 200 1 cappedConfig = some status ∧
      (status.runMeter [.deduct_gas 1_000_000]).gas_status.gas_used_pre_gas_price = 1000 ∧
      (status.runMeter [.deduct_gas 1_000_000]).computation_charge (some true) = some 100_000 ∧
      100_000 < 1000 * 200 :=
  ⟨_, rfl, by decide, by decide, by decide⟩

theorem charge_rounds_up_capped_config :
    ∃ status, MySoGasStatus.new_with_budget 1_000_000_000 200 1 cappedConfig = some status ∧
      (status.runMeter [.deduct_gas 1_000_000]).gas_status.gas_used_pre_gas_price ≤ 5_000_000 ∧
      half_digits_rounding 999 = 1000 := by
  obtain ⟨-, -, -, hsmall, -, -, hstatus⟩ := computation_charge_rounds_up
  exact ⟨_, rfl, (hstatus 1_000_000_000 200 1 cappedConfig _ rfl).1 [.deduct_gas 1_000_000],
    hsmall 999 (by decide)⟩

end MysoCore.GasModel
