/-
Whether an underwriter's vault can pay what it has reserved
(insurance.move): its capital against `reserved`.

# What keeps it solvent

A deposit adds capital, a withdrawal takes only free capital, a
purchase locks a reserve that fits in the free capital and adds its
premium, an expiry releases a reserve, and a claim pays at most the
policy's reserve (`claimPayout_le`) while it releases it. So every call
but a cancellation keeps the capital at or above `reserved`
(`Solvent.apply`), every run without cancellations keeps it so
(`Solvent.run`), and on such a vault no claim is short of capital
(`claim_ne_ENotEnough`).

# What a cancellation does

A cancellation releases only the policy's reserve but pays back the
premium for the time left, checked against the capital alone. A premium can be larger than its reserve, and
the refund then comes out of what the other policies reserve: the run
of `cancel_refund_breaks_solvency` leaves a vault with a capital of 141
against a reserve of 1000, and the other policy's claim of its whole
reserve aborts.
-/
import MysoCore.Social.Insurance.Ledger

namespace MysoCore.Social.Insurance

open SortedMap ExceptFold
open SocialProofOfTruth (SpotConfig SpotRecord)

/-- A vault whose capital covers what it has reserved. -/
def Solvent (s : Underwriting) : Prop := s.vault.reserved ≤ s.vault.capital

/-- The calls that refund a premium. -/
def InsuranceCall.isCancel : InsuranceCall → Bool
  | .cancel_coverage .. => true
  | _ => false

theorem sendPart_ok {value amount : ℕ} (payee : Payee) (h : amount ≤ value) :
    ∃ r, sendPart value payee amount = .ok r := by
  unfold sendPart
  split
  · rw [balance_split_of_le h]
    exact ⟨_, rfl⟩
  · exact ⟨_, rfl⟩

-- ============================================================ the cancellation's run

/-- The vault after the cancellation: the refund of 3000 took the
capital from 3141 to 141, and only the reserve of 100 left `reserved`. -/
def cancelledVault : Underwriting where
  vault :=
    { id := 1, underwriter := 9, capital := 141, reserved := 1000,
      base_rate_bps_per_day := 10000, utilization_multiplier_bps := 0,
      max_exposure_per_market := 0, max_exposure_per_user := 0,
      market_exposures := [(40, ⟨40, 1000, [(0, 0), (1, 1000)]⟩)],
      user_exposures := [(3, 0), (4, 1000)] }
  policies :=
    [⟨40, 3, 0, 1000, 1000, 3000, 1000, 2592001000, 1, .CANCELLED⟩,
     ⟨40, 4, 1, 10000, 1000, 41, 1000, 3601000, 1, .ACTIVE⟩]

/-- Address 4's claim once the first option has won. -/
def claimAfterCancel : InsuranceTx :=
  ⟨enabledConfig, 2000, ⟨4, 0, 0⟩, .claim spotEnabled ⟨40, resolvedMarket⟩ 1⟩

-- ============================================================ one call

section call

variable {s s' : Underwriting} {tx : InsuranceTx} {payments : Payments}

/-- Every call but a cancellation keeps a vault that keeps the ledger
solvent: what leaves the capital is free capital or a released
reserve. -/
theorem Solvent.apply (h : LedgerOK s) (hsol : Solvent s) (hcall : tx.call.isCancel = false)
    (happ : Insurance.apply tx s = .ok (s', payments)) : Solvent s' := by
  unfold Solvent at hsol ⊢
  unfold Insurance.apply at happ
  split at happ
  · -- deposit_capital
    obtain ⟨vault, hdep, happ⟩ := bind_eq_ok happ
    simp only [pure_eq_ok, Prod.mk.injEq] at happ
    obtain ⟨rfl, -⟩ := happ
    rw [deposit_capital_eq_ok hdep]
    dsimp only
    omega
  · -- withdraw_capital: only free capital leaves
    obtain ⟨⟨vault, _⟩, hwd, happ⟩ := bind_eq_ok happ
    simp only [pure_eq_ok, Prod.mk.injEq] at happ
    obtain ⟨rfl, -⟩ := happ
    obtain ⟨hfree, rfl, -⟩ := withdraw_capital_eq_ok hwd
    dsimp only
    omega
  · -- buy_coverage: the reserve fits in the free capital
    obtain ⟨⟨vault, policy, _⟩, hbuy, happ⟩ := bind_eq_ok happ
    simp only [pure_eq_ok, Prod.mk.injEq] at happ
    obtain ⟨rfl, -⟩ := happ
    obtain ⟨-, -, -, hfree, hcapital, hreserved, -⟩ := buy_coverage_eq_ok h.sorted hbuy
    dsimp only
    omega
  · next heq =>
      rw [heq] at hcall
      cases hcall
  · -- claim: the payout is at most the reserve released
    rcases onPolicy_eq_ok happ with ⟨rfl, -⟩ | ⟨p, vault', p', hp, hclaim, rfl⟩
    · exact hsol
    · obtain ⟨-, hpaid, capital, hcap, hrel⟩ := claim_eq_ok hclaim
      obtain ⟨-, hreserved, -, -, hcapital, -⟩ :=
        releasePolicy_eq_ok (h.with_capital capital).sorted hrel
      dsimp only at hcapital hreserved ⊢
      omega
  · -- expire_policy: a reserve is released
    rcases onPolicy_eq_ok happ with ⟨rfl, -⟩ | ⟨p, vault', p', hp, hexpire, rfl⟩
    · exact hsol
    · obtain ⟨⟨vault'', p''⟩, hexp, hf⟩ := bind_eq_ok hexpire
      simp only [pure_eq_ok, Prod.mk.injEq] at hf
      obtain ⟨rfl, rfl, -⟩ := hf
      rcases expire_policy_eq_ok hexp with ⟨rfl, rfl⟩ | ⟨-, hrel⟩
      · exact hsol
      · obtain ⟨-, hreserved, -, -, hcapital, -⟩ := releasePolicy_eq_ok h.sorted hrel
        dsimp only
        omega

theorem Solvent.step (h : LedgerOK s) (hsol : Solvent s) (hcall : tx.call.isCancel = false) :
    Solvent (Insurance.step s tx) := by
  unfold Insurance.step
  split
  · next r happ => exact hsol.apply h hcall (show Insurance.apply tx s = .ok (r.1, r.2) from happ)
  · exact hsol

/-- Every run without cancellations keeps a vault that keeps the ledger
solvent. -/
theorem Solvent.run (h : LedgerOK s) (hsol : Solvent s) {txs : List InsuranceTx}
    (hcalls : ∀ tx ∈ txs, tx.call.isCancel = false) : Solvent (Insurance.run s txs) :=
  (foldl_inv (fun s => LedgerOK s ∧ Solvent s) ⟨h, hsol⟩
    (fun _ tx htx hs => ⟨hs.1.step tx, hs.2.step hs.1 (hcalls tx htx)⟩)).2

end call

/-- On a solvent vault that keeps the ledger no claim is short of
capital: its payout is at most its reserve, which `reserved` holds. -/
theorem claim_ne_ENotEnough {s : Underwriting} (h : LedgerOK s) (hsol : Solvent s) {i : ℕ}
    {p : CoveragePolicy} (hp : s.policies[i]? = some p) (config : InsuranceConfig)
    (spot_config : SpotConfig) (record : SpotObject) (clock : ℕ) (ctx : TxContext) :
    claim config spot_config s.vault record p clock ctx ≠ .error .ENotEnough := by
  intro hc
  unfold claim at hc
  simp only [require_bind_eq_error, reduceCtorEq, and_false, false_or] at hc
  obtain ⟨-, -, hactive, -, -, -, -, -, hc⟩ := hc
  rcases bind_eq_error.mp hc with hc | ⟨_, -, hc⟩
  · cases expectSome_eq_error hc
  rcases bind_eq_error.mp hc with hc | ⟨payout, hpayout, hc⟩
  · cases claimPayout_eq_error hc
  have hle : payout ≤ s.vault.capital :=
    calc payout ≤ policyReserve p := claimPayout_le hpayout
      _ = activeReserve p := (activeReserve_of_active hactive).symm
      _ ≤ totalReserve s.policies := activeReserve_le_totalReserve (List.mem_of_getElem? hp)
      _ = s.vault.reserved := h.reserved_eq.symm
      _ ≤ s.vault.capital := hsol
  obtain ⟨⟨capital, _⟩, hsend⟩ := sendPart_ok (.address p.insured) hle
  rw [hsend] at hc
  obtain ⟨_, hrel⟩ := h.releasePolicy_ok hp hactive capital .CLAIMED
  simp only [ok_bind] at hc
  rw [hrel] at hc
  cases hc

/-- Without the cancellation of `cancelRun`, the vault holds 3141 against
a reserve of 1100, and address 4's policy is not short when it claims. -/
theorem uncancelled_claim_not_short :
    Solvent (run ⟨newVault, []⟩ (cancelRun.take 3)) ∧
      (run ⟨newVault, []⟩ (cancelRun.take 3)).policies[1]? =
        some ⟨40, 4, 1, 10000, 1000, 41, 1000, 3601000, 1, .ACTIVE⟩ ∧
      claim enabledConfig spotEnabled (run ⟨newVault, []⟩ (cancelRun.take 3)).vault
          ⟨40, resolvedMarket⟩ ⟨40, 4, 1, 10000, 1000, 41, 1000, 3601000, 1, .ACTIVE⟩ 2000 ⟨4, 0, 0⟩ ≠
        .error .ENotEnough := by
  have hs : Solvent (run ⟨newVault, []⟩ (cancelRun.take 3)) := by
    unfold Solvent
    decide
  have hp : (run ⟨newVault, []⟩ (cancelRun.take 3)).policies[1]? =
      some ⟨40, 4, 1, 10000, 1000, 41, 1000, 3601000, 1, .ACTIVE⟩ := by
    decide
  exact ⟨hs, hp, claim_ne_ENotEnough ((LedgerOK.create_vault 1 10000 0 0 0 ⟨9, 0, 0⟩).run _) hs hp
    enabledConfig spotEnabled ⟨40, resolvedMarket⟩ 2000 ⟨4, 0, 0⟩⟩

-- ============================================================ a refund out of another reserve

/-- A cancellation refunds a premium larger than the policy's reserve
out of another policy's reserve: after the run the vault holds 141
against a reserve of 1000, and the other policy's claim of its whole
reserve aborts in `balance::split`. -/
theorem cancel_refund_breaks_solvency :
    SocialProofOfTruth.create_spot_record_for_post ⟨⟩ spotEnabled true ["yes", "no"] none none
        ⟨7, 0, 0⟩ = .ok newMarket ∧
      resolvedMarket.status = .RESOLVED ∧ resolvedMarket.outcome = some 0 ∧
      run ⟨newVault, []⟩ cancelRun = cancelledVault ∧
      cancelledVault.vault.capital < cancelledVault.vault.reserved ∧
      Insurance.apply claimAfterCancel cancelledVault = .error .ENotEnough :=
  ⟨by rfl, rfl, rfl, by decide, by decide, by rfl⟩

end MysoCore.Social.Insurance
