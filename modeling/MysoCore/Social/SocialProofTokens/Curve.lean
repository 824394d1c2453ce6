/-
The bonding curve of social proof tokens in closed form
(myso-social/sources/social_proof_tokens.move): `calculate_sum_squares`,
`calculate_buy_price`, `calculate_sell_price` and `calculate_token_price`
against the sums they stand for.

# Sums of squares

`calculate_sum_squares n` divides `n(n+1)(2n+1)` by six. Six times
`1² + … + n²` is that product (`six_mul_sumSquares`), so the division is
exact and the function returns the sum; its four asserts together say
exactly that the product fits in a `u64` (`sum_squares_guards`,
`calculate_sum_squares_eq`).

# Prices

A buy of `k` tokens past the supply `s` takes the squares over
`s … s + k - 1` as the difference of two closed forms
(`sumSquares_split`), so its price is `k·b + ⌊q·Σ i² / 10000⌋`, and it
aborts exactly when one of the products it forms leaves a `u64`
(`calculate_buy_price_eq`). Within a buy that goes through, the price of
each supply goes through as well, and rounding the quadratic part down
once over the range is at least rounding it down at each supply
(`sum_token_price_le`).
-/
import MysoCore.Social.SocialProofTokens.Trading
import Mathlib

namespace MysoCore.Social.SocialProofTokens

open ExceptFold

-- ============================================================ sums of squares

/-- `1² + … + n²`. -/
def sumSquares (n : ℕ) : ℕ := ∑ i ∈ Finset.range (n + 1), i ^ 2

/-- The squares of the supplies a trade of `k` tokens past `s` spans,
`s² + … + (s + k - 1)²`. -/
def squares (s k : ℕ) : ℕ := ∑ i ∈ Finset.Ico s (s + k), i ^ 2

theorem six_mul_sumSquares (n : ℕ) : 6 * sumSquares n = n * (n + 1) * (2 * n + 1) := by
  induction n with
  | zero => rfl
  | succ n ih =>
    rw [sumSquares, Finset.sum_range_succ, Nat.mul_add, ← sumSquares, ih]
    ring

/-- The asserts of `calculate_sum_squares`, each against the bound `M`:
all four hold exactly when the product `n(n+1)(2n+1)` is within it. -/
theorem sum_squares_guards {n : ℕ} (M : ℕ) (hn : n ≠ 0) :
    (n < M ∧ n ≤ M / (n + 1) ∧ n ≤ (M - 1) / 2 ∧ n * (n + 1) ≤ M / (2 * n + 1)) ↔
      n * (n + 1) * (2 * n + 1) ≤ M := by
  rw [Nat.le_div_iff_mul_le (by omega : 0 < n + 1), Nat.le_div_iff_mul_le (by omega : 0 < 2),
    Nat.le_div_iff_mul_le (by omega : 0 < 2 * n + 1)]
  constructor
  · exact fun h => h.2.2.2
  · intro h
    -- each earlier product divides the last one
    have h₁ : n * (n + 1) ≤ n * (n + 1) * (2 * n + 1) := Nat.le_mul_of_pos_right _ (by omega)
    have h₂ : 2 * n + 1 ≤ n * (n + 1) * (2 * n + 1) :=
      Nat.le_mul_of_pos_left _ (Nat.mul_pos (by omega) (by omega))
    have h₃ : n * 2 ≤ n * (n + 1) := Nat.mul_le_mul_left _ (by omega)
    refine ⟨by omega, by omega, by omega, h⟩

/-- `calculate_sum_squares` is `1² + … + n²`, and aborts exactly when
`n(n+1)(2n+1)` leaves a `u64`. -/
theorem calculate_sum_squares_eq (n : ℕ) :
    calculate_sum_squares n =
      if n * (n + 1) * (2 * n + 1) ≤ MAX_U64 then .ok (sumSquares n) else .error .EOverflow := by
  rcases Nat.eq_zero_or_pos n with rfl | hpos
  · rfl
  have hn : n ≠ 0 := Nat.pos_iff_ne_zero.mp hpos
  have hsum : n * (n + 1) * (2 * n + 1) / 6 = sumSquares n := by
    rw [← six_mul_sumSquares, Nat.mul_div_cancel_left _ (by norm_num)]
  by_cases hfit : n * (n + 1) * (2 * n + 1) ≤ MAX_U64
  · obtain ⟨h₁, h₂, h₃, h₄⟩ := (sum_squares_guards MAX_U64 hn).mpr hfit
    simp [calculate_sum_squares, hn, require, h₁, h₂, h₃, h₄, hfit, hsum]
  · rw [if_neg hfit]
    -- the first assert that fails aborts the call
    have hguards := mt (sum_squares_guards MAX_U64 hn).mp hfit
    simp only [calculate_sum_squares, if_neg hn, require]
    by_cases h₁ : n < MAX_U64
    · by_cases h₂ : n ≤ MAX_U64 / (n + 1)
      · by_cases h₃ : n ≤ (MAX_U64 - 1) / 2
        · have h₄ : ¬ n * (n + 1) ≤ MAX_U64 / (2 * n + 1) := fun h₄ => hguards ⟨h₁, h₂, h₃, h₄⟩
          simp [h₁, h₂, h₃, h₄]
        · simp [h₁, h₂, h₃]
      · simp [h₁, h₂]
    · simp [h₁]

-- ============================================================ prices

/-- The closed forms a buy subtracts: the squares up to the supply
before `s`, the first term of the sum that starts at `s`. -/
theorem sumSquares_below (s : ℕ) :
    sumSquares (if s = 0 then 0 else s - 1) = ∑ i ∈ Finset.range s, i ^ 2 := by
  rcases Nat.eq_zero_or_pos s with rfl | hs
  · rfl
  · rw [if_neg (Nat.pos_iff_ne_zero.mp hs), sumSquares, Nat.sub_add_cancel hs]

theorem sumSquares_split {s k : ℕ} (hk : 0 < k) :
    sumSquares (s + k - 1) = sumSquares (if s = 0 then 0 else s - 1) + squares s k := by
  rw [sumSquares_below, sumSquares, Nat.sub_add_cancel (by omega),
    ← Finset.sum_range_add_sum_Ico _ (Nat.le_add_right s k), squares]

/-- The supply before `s` is below the last one a buy reaches, so its
closed form fits whenever the last one's does. -/
theorem sum_squares_start_eq {s k : ℕ}
    (hfit : (s + k - 1) * (s + k - 1 + 1) * (2 * (s + k - 1) + 1) ≤ MAX_U64) :
    calculate_sum_squares (if s = 0 then 0 else s - 1) =
      .ok (sumSquares (if s = 0 then 0 else s - 1)) := by
  have hle : (if s = 0 then 0 else s - 1) ≤ s + k - 1 := by split <;> omega
  rw [calculate_sum_squares_eq, if_pos]
  calc _ ≤ (s + k - 1) * (s + k - 1 + 1) * (2 * (s + k - 1) + 1) :=
        Nat.mul_le_mul (Nat.mul_le_mul hle (by omega)) (by omega)
    _ ≤ MAX_U64 := hfit

variable {base_price quadratic_coefficient : ℕ}

/-- `calculate_buy_price` in closed form: `k·b + ⌊q·Σ i² / 10000⌋` over the
supplies `s … s + k - 1`, aborting exactly when the base part, the
product `n(n+1)(2n+1)` at the last supply, the quadratic product or the
total leaves a `u64`. -/
theorem calculate_buy_price_eq (hb : 0 < base_price) (hq : 0 < quadratic_coefficient)
    {s k : ℕ} (hk : 0 < k) :
    calculate_buy_price base_price quadratic_coefficient s k =
      if k * base_price ≤ MAX_U64 ∧
          (s + k - 1) * (s + k - 1 + 1) * (2 * (s + k - 1) + 1) ≤ MAX_U64 ∧
          quadratic_coefficient * squares s k ≤ MAX_U64 ∧
          k * base_price + quadratic_coefficient * squares s k / 10000 ≤ MAX_U64 then
        .ok (k * base_price + quadratic_coefficient * squares s k / 10000,
          (k * base_price + quadratic_coefficient * squares s k / 10000) / k)
      else .error .EOverflow := by
  have hk0 : k ≠ 0 := Nat.pos_iff_ne_zero.mp hk
  simp only [calculate_buy_price, if_neg hk0]
  by_cases h₁ : k * base_price ≤ MAX_U64
  · have h₁' : k ≤ MAX_U64 / base_price := (Nat.le_div_iff_mul_le hb).mpr h₁
    by_cases h₂ : (s + k - 1) * (s + k - 1 + 1) * (2 * (s + k - 1) + 1) ≤ MAX_U64
    · -- both closed forms fit, and their difference is the range's squares
      rw [calculate_sum_squares_eq (s + k - 1), if_pos h₂, sum_squares_start_eq h₂]
      have hsplit : sumSquares (s + k - 1) = sumSquares (if s = 0 then 0 else s - 1) + squares s k :=
        sumSquares_split hk
      have hge : sumSquares (s + k - 1) ≥ sumSquares (if s = 0 then 0 else s - 1) := by omega
      have hrange :
          sumSquares (s + k - 1) - sumSquares (if s = 0 then 0 else s - 1) = squares s k := by omega
      simp only [require, if_pos h₁', if_pos hge, hrange, pure_bind, ok_bind]
      by_cases h₃ : quadratic_coefficient * squares s k ≤ MAX_U64
      · have h₃' : squares s k ≤ MAX_U64 / quadratic_coefficient :=
          (Nat.le_div_iff_mul_le hq).mpr (by rw [Nat.mul_comm]; exact h₃)
        have hquad : quadratic_coefficient * squares s k / 10000 ≤ MAX_U64 :=
          Nat.le_trans (Nat.div_le_self _ _) h₃
        rw [if_pos h₃', pure_bind, Nat.mul_comm (squares s k)]
        -- the last assert is the total's bound, written as a subtraction
        by_cases h₄ : k * base_price + quadratic_coefficient * squares s k / 10000 ≤ MAX_U64
        · have h₄' : k * base_price ≤ MAX_U64 - quadratic_coefficient * squares s k / 10000 := by
            omega
          simp [h₁, h₂, h₃, h₄, h₄']
        · have h₄' : ¬ k * base_price ≤ MAX_U64 - quadratic_coefficient * squares s k / 10000 := by
            omega
          simp [h₄, h₄']
      · have h₃' : ¬ squares s k ≤ MAX_U64 / quadratic_coefficient := fun h =>
          h₃ (by rw [Nat.mul_comm]; exact (Nat.le_div_iff_mul_le hq).mp h)
        simp [h₃, h₃']
    · rw [calculate_sum_squares_eq (s + k - 1), if_neg h₂]
      simp [require, h₁', h₂]
  · have h₁' : ¬ k ≤ MAX_U64 / base_price := mt (Nat.le_div_iff_mul_le hb).mp h₁
    simp [require, h₁', h₁]

/-- Within a buy that goes through, the price at each supply it spans
goes through too: each square is at most the range's sum. -/
theorem calculate_token_price_of_mem (hq : 0 < quadratic_coefficient) {s k i : ℕ}
    (hi : i ∈ Finset.Ico s (s + k)) (hquad : quadratic_coefficient * squares s k ≤ MAX_U64)
    (htotal : k * base_price + quadratic_coefficient * squares s k / 10000 ≤ MAX_U64) :
    calculate_token_price base_price quadratic_coefficient i =
      .ok (base_price + quadratic_coefficient * i ^ 2 / 10000) := by
  have hk : 1 ≤ k := by
    have := Finset.mem_Ico.mp hi
    omega
  have hsq : i * i ≤ squares s k := by
    rw [← Nat.pow_two]
    exact (Finset.single_le_sum (fun j _ => Nat.zero_le (j ^ 2)) hi : i ^ 2 ≤ squares s k)
  have hmul : quadratic_coefficient * (i * i) ≤ quadratic_coefficient * squares s k :=
    Nat.mul_le_mul_left _ hsq
  -- the three asserts, each from the buy's bounds
  have h₁ : i = 0 ∨ i ≤ MAX_U64 / i := by
    rcases Nat.eq_zero_or_pos i with h0 | hpos
    · exact .inl h0
    · exact .inr ((Nat.le_div_iff_mul_le hpos).mpr
        (Nat.le_trans hsq (Nat.le_trans (Nat.le_mul_of_pos_left _ hq) hquad)))
  have h₂ : i * i ≤ MAX_U64 / quadratic_coefficient :=
    (Nat.le_div_iff_mul_le hq).mpr (by rw [Nat.mul_comm]; exact Nat.le_trans hmul hquad)
  have h₃ : quadratic_coefficient * (i * i) / 10000 ≤ MAX_U64 - base_price := by
    have hdiv : quadratic_coefficient * (i * i) / 10000 ≤ quadratic_coefficient * squares s k / 10000 :=
      Nat.div_le_div_right hmul
    have hbase : base_price ≤ k * base_price := Nat.le_mul_of_pos_left _ hk
    omega
  simp [calculate_token_price, require, h₁, h₂, h₃, Nat.pow_two]

/-- Rounding the quadratic part down once over the range is at least
rounding it down at each supply. -/
theorem sum_token_price_le (s k : ℕ) :
    ∑ i ∈ Finset.Ico s (s + k), (base_price + quadratic_coefficient * i ^ 2 / 10000) ≤
      k * base_price + quadratic_coefficient * squares s k / 10000 := by
  rw [Finset.sum_add_distrib, Finset.sum_const, Nat.card_Ico, Nat.add_sub_cancel_left, nsmul_eq_mul]
  apply Nat.add_le_add_left
  rw [squares, Finset.mul_sum, Nat.le_div_iff_mul_le (by norm_num), Finset.sum_mul]
  exact Finset.sum_le_sum fun i _ => Nat.div_mul_le_self _ _

-- ============================================================ the curve in closed form

/-- The bonding curve is computed exactly: `calculate_sum_squares` is the
sum of the squares, aborting only when `n(n+1)(2n+1)` leaves a `u64`;
a buy of `k` tokens past `s` costs `k·b + ⌊q·Σ i² / 10000⌋` over
`s … s + k - 1`, aborting only when one of its products leaves a `u64`;
the sale of the last `k` of `s + k` is the same; and the buy's price is
at least the sum of the prices at each supply it spans, all of which go
through. -/
theorem bonding_curve_closed_form :
    (∀ n, calculate_sum_squares n =
      if n * (n + 1) * (2 * n + 1) ≤ MAX_U64 then .ok (sumSquares n) else .error .EOverflow) ∧
    ∀ base_price quadratic_coefficient s k,
      0 < base_price → 0 < quadratic_coefficient → 0 < k →
      calculate_buy_price base_price quadratic_coefficient s k =
        (if k * base_price ≤ MAX_U64 ∧
            (s + k - 1) * (s + k - 1 + 1) * (2 * (s + k - 1) + 1) ≤ MAX_U64 ∧
            quadratic_coefficient * squares s k ≤ MAX_U64 ∧
            k * base_price + quadratic_coefficient * squares s k / 10000 ≤ MAX_U64 then
          .ok (k * base_price + quadratic_coefficient * squares s k / 10000,
            (k * base_price + quadratic_coefficient * squares s k / 10000) / k)
        else .error .EOverflow) ∧
      calculate_sell_price base_price quadratic_coefficient (s + k) k =
        calculate_buy_price base_price quadratic_coefficient s k ∧
      ∀ r, calculate_buy_price base_price quadratic_coefficient s k = .ok r →
        (∀ i ∈ Finset.Ico s (s + k), calculate_token_price base_price quadratic_coefficient i =
          .ok (base_price + quadratic_coefficient * i ^ 2 / 10000)) ∧
        ∑ i ∈ Finset.Ico s (s + k), (base_price + quadratic_coefficient * i ^ 2 / 10000) ≤ r.1 := by
  refine ⟨calculate_sum_squares_eq, fun base_price quadratic_coefficient s k hb hq hk => ?_⟩
  have hbuy := calculate_buy_price_eq hb hq (s := s) hk
  refine ⟨hbuy, calculate_sell_price_add _ _ s k, fun r hr => ?_⟩
  rw [hbuy] at hr
  split at hr
  · next hfit =>
    obtain ⟨-, -, hquad, htotal⟩ := hfit
    obtain rfl := (Except.ok.injEq _ _).mp hr
    exact ⟨fun i hi => calculate_token_price_of_mem hq hi hquad htotal, sum_token_price_le s k⟩
  · cases hr

theorem bonding_curve_three_tokens :
    0 < 100 ∧ 0 < 10000 ∧ 0 < 3 ∧ calculate_buy_price 100 10000 0 3 = .ok (305, 101) ∧
      calculate_sell_price 100 10000 3 3 = .ok (305, 101) := by
  obtain ⟨-, hprice⟩ := bonding_curve_closed_form
  obtain ⟨hbuy, hsell, -⟩ := hprice 100 10000 0 3 (by decide) (by decide) (by decide)
  have hsq : squares 0 3 = 5 := by decide
  have hok : calculate_buy_price 100 10000 0 3 = .ok (305, 101) := by
    rw [hbuy, hsq]
    decide
  exact ⟨by decide, by decide, by decide, hok, hsell.trans hok⟩

end MysoCore.Social.SocialProofTokens
