/-
How much the insurance pays an insured on one SPoT position
(insurance.move).

# One policy

`buy_coverage` caps a policy's covered amount by the insured's position
on its option, and `claim` pays the covered share of what the insured
still holds there, up to the covered amount. So one claim pays at most
the coverage share of the position the claim reads
(`claimPayout_le_position`, `apply_claim_paid_le`).

# Several policies

`buy_coverage` reads the position but not the coverage already bought on
it, and the exposure limits it enforces are on reserves, with no limit
when they are zero. An insured can buy the same cover twice, and both
claims pay: in `doubleCoverRun` address 4 covers its 10000 on the losing
option at 10% twice, and is paid 1000 by each claim, twice the 10% of its
position.
-/
import MysoCore.Social.Insurance.Solvency

namespace MysoCore.Social.Insurance

open SortedMap ExceptFold
open SocialProofOfTruth (SpotConfig SpotRecord)

-- ============================================================ one policy

/-- The payout of a claim is at most the coverage share of the position
it reads. -/
theorem claimPayout_le_position {record : SpotObject} {policy : CoveragePolicy}
    {outcome payout : ℕ} (h : claimPayout record policy outcome = .ok payout) :
    payout ≤ record.record.get_user_option_amount policy.insured policy.option_id *
      policy.coverage_bps / BPS_DENOM := by
  unfold claimPayout at h
  split at h
  · split at h
    · simp only [require_bind_eq_ok, pure_eq_ok] at h
      obtain ⟨-, rfl⟩ := h
      -- the eligible amount is the position, or the covered amount below it
      apply Nat.div_le_div_right
      apply Nat.mul_le_mul_right
      split <;> omega
    · simp only [pure_eq_ok] at h
      rw [← h]
      exact Nat.zero_le _
  · simp only [pure_eq_ok] at h
    rw [← h]
    exact Nat.zero_le _

/-- A claim pays at most the coverage share of the position it reads. -/
theorem claim_paid_le_position {config : InsuranceConfig} {spot_config : SpotConfig}
    {vault vault' : UnderwriterVault} {record : SpotObject} {policy policy' : CoveragePolicy}
    {clock : ℕ} {ctx : TxContext} {payments : Payments}
    (h : claim config spot_config vault record policy clock ctx = .ok (vault', policy', payments)) :
    paid payments ≤ record.record.get_user_option_amount policy.insured policy.option_id *
      policy.coverage_bps / BPS_DENOM := by
  unfold claim at h
  simp only [require_bind_eq_ok] at h
  obtain ⟨-, -, -, -, -, -, -, -, h⟩ := h
  obtain ⟨outcome, -, h⟩ := bind_eq_ok h
  obtain ⟨payout, hpayout, h⟩ := bind_eq_ok h
  obtain ⟨⟨capital, sent⟩, hsend, h⟩ := bind_eq_ok h
  obtain ⟨⟨v₂, p₂⟩, -, h⟩ := bind_eq_ok h
  simp only [pure_eq_ok, Prod.mk.injEq] at h
  obtain ⟨-, -, rfl⟩ := h
  rw [(sendPart_eq_ok hsend).2]
  exact claimPayout_le_position hpayout

/-- On any vault, a claim call on policy `i` sends nothing, or at most the
coverage share of the position of that policy's insured that the record
passed holds. -/
theorem apply_claim_paid_le {tx : InsuranceTx} {s s' : Underwriting} {payments : Payments}
    {spot_config : SpotConfig} {record : SpotObject} {i : ℕ}
    (hcall : tx.call = .claim spot_config record i) (h : Insurance.apply tx s = .ok (s', payments)) :
    payments = [] ∨ ∃ policy, s.policies[i]? = some policy ∧
      paid payments ≤ record.record.get_user_option_amount policy.insured policy.option_id *
        policy.coverage_bps / BPS_DENOM := by
  unfold Insurance.apply at h
  rw [hcall] at h
  rcases onPolicy_eq_ok h with ⟨-, hnil⟩ | ⟨policy, vault', policy', hp, hclaim, -⟩
  · exact .inl hnil
  · exact .inr ⟨policy, hp, claim_paid_le_position hclaim⟩

-- ============================================================ the same cover twice

/-- The underwriter deposits 5000; at time 1000 address 4 covers its
position of 10000 on the second option at 10% for an hour, twice (a
reserve of 1000 for a premium of 41 each time). -/
def doubleCoverRun : List InsuranceTx :=
  [⟨enabledConfig, 1000, ⟨9, 0, 0⟩, .deposit_capital 5000⟩,
   ⟨enabledConfig, 1000, ⟨4, 0, 0⟩,
     .buy_coverage spotEnabled ⟨40, betMarket⟩ 1 10000 1000 3600000 41⟩,
   ⟨enabledConfig, 1000, ⟨4, 0, 0⟩,
     .buy_coverage spotEnabled ⟨40, betMarket⟩ 1 10000 1000 3600000 41⟩]

/-- Address 4's claim on policy `i` once the first option has won. -/
def claimOnLoss (i : ℕ) : InsuranceTx :=
  ⟨enabledConfig, 2000, ⟨4, 0, 0⟩, .claim spotEnabled ⟨40, resolvedMarket⟩ i⟩

/-- The insurance pays an insured per policy, not per position: a claim
pays at most the coverage share of the position it reads, but after
`doubleCoverRun` address 4, holding 10000 on the losing option, has two
policies on it at 1000 bps, and each claim pays it 1000, together twice
the `10000 * 1000 / 10000` of its position. -/
theorem insurance_pays_per_policy :
    (∀ (tx : InsuranceTx) (s s' : Underwriting) (payments : Payments) spot_config record i,
      tx.call = .claim spot_config record i → Insurance.apply tx s = .ok (s', payments) →
      payments = [] ∨ ∃ policy, s.policies[i]? = some policy ∧
        paid payments ≤ record.record.get_user_option_amount policy.insured policy.option_id *
          policy.coverage_bps / BPS_DENOM) ∧
    resolvedMarket.get_user_option_amount 4 1 = 10000 ∧
    ((run ⟨newVault, []⟩ doubleCoverRun).policies.map fun p =>
      (p.market_id, p.insured, p.option_id, p.covered_amount, p.coverage_bps, p.status)) =
      [(40, 4, 1, 10000, 1000, .ACTIVE), (40, 4, 1, 10000, 1000, .ACTIVE)] ∧
    (Insurance.apply (claimOnLoss 0) (run ⟨newVault, []⟩ doubleCoverRun)).map Prod.snd =
      .ok [(.address 4, 1000)] ∧
    (Insurance.apply (claimOnLoss 1) (run ⟨newVault, []⟩ (doubleCoverRun ++ [claimOnLoss 0]))).map
      Prod.snd = .ok [(.address 4, 1000)] ∧
    10000 * 1000 / BPS_DENOM < 1000 + 1000 :=
  ⟨fun _ _ _ _ _ _ _ hcall h => apply_claim_paid_le hcall h, rfl, by decide, by rfl, by rfl,
    by decide⟩

theorem insurance_claim_second_policy :
    ∃ policy, (run ⟨newVault, []⟩ (doubleCoverRun ++ [claimOnLoss 0])).policies[1]? = some policy ∧
      paid [(Payee.address 4, 1000)] ≤
        resolvedMarket.get_user_option_amount policy.insured policy.option_id *
          policy.coverage_bps / BPS_DENOM := by
  rcases insurance_pays_per_policy.1 (claimOnLoss 1)
      (run ⟨newVault, []⟩ (doubleCoverRun ++ [claimOnLoss 0])) _ [(.address 4, 1000)] spotEnabled
      ⟨40, resolvedMarket⟩ 1 rfl rfl with hnil | hsome
  · cases hnil
  · exact hsome

end MysoCore.Social.Insurance
