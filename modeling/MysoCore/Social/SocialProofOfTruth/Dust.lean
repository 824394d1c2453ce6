/-
What a settled SPoT record keeps in its escrow beyond what it owes
(social_proof_of_truth.move).

# Settled records

Once a record is resolved or refunded, no call but a bet or a claim
succeeds on it: the withdrawal asks for an open record, and both
resolutions and the refund for an unresolved one. A claim takes its
pending payout out of the escrow and out of what is owed alike, and
`place_spot_bet` checks no status, so a bet adds to the escrow and to
nothing owed. So what the escrow holds beyond the pending payouts
(`stranded`) never decreases on a settled record (`apply_stranded_le`,
`stranded_le_run`): whatever is stranded there stays.

# Two ways to strand more than dust

A bet placed after the resolution is never owed to anyone, and a
resolution to an option nobody bet on owes nothing at all. In
`lateBetRun` a bet of 500 follows the resolution; in `emptyWinnerRun`
the oracle resolves to the option with no bet, and the escrow net of the
fee, 990, is owed to no one.
-/
import MysoCore.Social.SocialProofOfTruth.Resolution

namespace MysoCore.Social.SocialProofOfTruth

open SortedMap ExceptFold SpotRecord

/-- A record resolved or refunded. -/
def Settled (rec : SpotRecord) : Prop := rec.status = .RESOLVED ∨ rec.status = .REFUNDABLE

/-- What the escrow holds beyond the payouts owed. -/
def stranded (rec : SpotRecord) : ℕ := rec.escrow - valSum rec.pending_payouts

/-- The bets on the outcome a record was resolved to. -/
def winningBets (rec : SpotRecord) : ℕ :=
  (rec.bets.filter fun b => decide (rec.outcome = some b.option_id)).length

theorem Settled.not_unresolved {rec : SpotRecord} (h : Settled rec) : ¬ Unresolved rec := by
  rcases h with h | h <;> simp [Unresolved, h]

section settled

variable {spot_config : SpotConfig} {rec rec' : SpotRecord} {ctx : TxContext} {call : SpotCall}
  {payments : Payments}

/-- On a settled record a call that succeeds is a bet, which adds to the
escrow, or a claim, which takes the same out of the escrow and of what is
owed. -/
theorem apply_stranded_le (hok : SpotOK rec) (hs : Settled rec)
    (h : apply rec spot_config ctx call = .ok (rec', payments)) :
    rec'.status = rec.status ∧ stranded rec ≤ stranded rec' := by
  cases call with
  | place_spot_bet payment option_id amount =>
    obtain ⟨-, _, -, rfl⟩ := place_spot_bet_eq_ok h
    refine ⟨rfl, ?_⟩
    unfold stranded
    dsimp only
    omega
  | withdraw_spot_bet bet_index =>
    exact absurd (Or.inl (withdraw_spot_bet_eq_ok h).1) hs.not_unresolved
  | oracle_resolve outcome_option_id confidence_bps reasoning evidence_urls =>
    have h' : oracle_resolve ⟨⟩ spot_config rec outcome_option_id confidence_bps reasoning
        evidence_urls ctx = .ok (rec', payments) := h
    rcases (oracle_resolve_eq_ok h').2 with ⟨hopen, -⟩ | hfin
    · exact absurd (Or.inl hopen) hs.not_unresolved
    · exact absurd (finalize_resolution_and_payout_eq_ok hfin).1 hs.not_unresolved
  | finalize_via_dao outcome reasoning evidence_urls =>
    exact absurd (finalize_resolution_and_payout_eq_ok (finalize_via_dao_eq_ok h)).1
      hs.not_unresolved
  | refund_unresolved =>
    have h' : refund_unresolved ⟨⟩ rec ctx = .ok (rec', payments) := h
    exact absurd (refund_unresolved_eq_ok h').1 hs.not_unresolved
  | claim_payout =>
    obtain ⟨-, pending_amount, hp, hle, rfl, -⟩ := claim_payout_eq_ok h
    refine ⟨rfl, ?_⟩
    -- the claim's entry leaves the pending payouts as it leaves the escrow
    have hsum : valSum (eraseKey ctx.sender rec.pending_payouts) +
        (lookup ctx.sender rec.pending_payouts).getD 0 = valSum rec.pending_payouts :=
      hok.sorted_pending_payouts.valSum_eraseKey
    rw [hp, Option.getD_some] at hsum
    unfold stranded
    dsimp only
    omega

/-- A call's effect on a settled record keeping the invariant: still
settled, still keeping it, and stranding at least as much. -/
theorem step_stranded_le (hok : SpotOK rec) (hs : Settled rec)
    (c : SpotConfig × TxContext × SpotCall) (hcfg : FeesBounded c.1) :
    SpotOK (step rec c) ∧ Settled (step rec c) ∧ stranded rec ≤ stranded (step rec c) := by
  unfold step
  split
  · rename_i res hres
    obtain ⟨hstatus, hle⟩ := apply_stranded_le hok hs hres
    exact ⟨hok.apply hcfg hres, by unfold Settled; rw [hstatus]; exact hs, hle⟩
  · exact ⟨hok, hs, le_rfl⟩

/-- Along any run from a settled record, it stays settled and strands at
least as much. -/
theorem stranded_le_run (hok : SpotOK rec) (hs : Settled rec) :
    ∀ {calls : List (SpotConfig × TxContext × SpotCall)}, (∀ c ∈ calls, FeesBounded c.1) →
      Settled (run rec calls) ∧ stranded rec ≤ stranded (run rec calls) := by
  -- by induction on the run, from each state reached
  intro calls
  induction calls generalizing rec with
  | nil => exact fun _ => ⟨hs, le_rfl⟩
  | cons c calls ih =>
    intro hcalls
    obtain ⟨hok', hs', hle⟩ := step_stranded_le hok hs c (hcalls c List.mem_cons_self)
    obtain ⟨hsettled, hle'⟩ := ih hok' hs' fun c' hc' => hcalls c' (List.mem_cons_of_mem c hc')
    exact ⟨hsettled, le_trans hle hle'⟩

end settled

-- ============================================================ two runs

/-- SPoT enabled, with a confidence threshold of 70% and a fee of 1%
split evenly. -/
def dustConfig : SpotConfig := ⟨true, 7000, 0, 100, 5000, 0, 10000⟩

/-- A new record on two options. -/
def openRecord : SpotRecord :=
  { created_epoch := 0, status := .OPEN, outcome := none, escrow := 0,
    betting_options := ["yes", "no"], option_escrow := [], user_option_amounts := [],
    bets := [], resolution_window_epochs := none, max_resolution_window_epochs := none,
    last_resolution_epoch := 0, resolution_timestamp_ms := 0, pending_payouts := [] }

/-- Address 3 bets 1000 on the first option and address 4 10000 on the
second; the oracle resolves to the first, owing address 3 the whole
10890 left after the fee; then address 5 bets 500 on the second. -/
def lateBetRun : List (SpotConfig × TxContext × SpotCall) :=
  [(dustConfig, ⟨3, 0, 0⟩, .place_spot_bet 1000 0 1000),
   (dustConfig, ⟨4, 0, 0⟩, .place_spot_bet 10000 1 10000),
   (dustConfig, ⟨7, 0, 0⟩, .oracle_resolve 0 9000 "the post holds up" ["evidence"]),
   (dustConfig, ⟨5, 0, 0⟩, .place_spot_bet 500 1 500)]

/-- Address 3 bets 1000 on the first option, and the oracle resolves to
the second. -/
def emptyWinnerRun : List (SpotConfig × TxContext × SpotCall) :=
  [(dustConfig, ⟨3, 0, 0⟩, .place_spot_bet 1000 0 1000),
   (dustConfig, ⟨7, 0, 0⟩, .oracle_resolve 1 9000 "the post is false" ["evidence"])]

/-- A settled record strands more than dust: on a settled record the
stranded amount never decreases, and a bet after the resolution leaves
500 stranded against one winning bet, a resolution to an option nobody
bet on 990 against none. -/
theorem spot_escrow_strands_late_bets :
    (∀ rec : SpotRecord, SpotOK rec → Settled rec →
      ∀ calls : List (SpotConfig × TxContext × SpotCall), (∀ c ∈ calls, FeesBounded c.1) →
        Settled (run rec calls) ∧ stranded rec ≤ stranded (run rec calls)) ∧
    create_spot_record_for_post ⟨⟩ dustConfig true ["yes", "no"] none none ⟨7, 0, 0⟩ =
      .ok openRecord ∧
    (run openRecord lateBetRun).status = .RESOLVED ∧ stranded (run openRecord lateBetRun) = 500 ∧
    winningBets (run openRecord lateBetRun) = 1 ∧
    (run openRecord emptyWinnerRun).status = .RESOLVED ∧
    stranded (run openRecord emptyWinnerRun) = 990 ∧ winningBets (run openRecord emptyWinnerRun) = 0 :=
  ⟨fun _ hok hs _ hcalls => stranded_le_run hok hs hcalls, rfl, by decide, by decide, by decide,
    by decide, by decide, by decide⟩

/-- The 500 of the late bet stays stranded whatever follows, here a claim
by the winner. -/
theorem late_bet_stays_stranded :
    Settled (run (run openRecord lateBetRun) [(dustConfig, ⟨3, 0, 0⟩, .claim_payout)]) ∧
      500 ≤ stranded (run (run openRecord lateBetRun) [(dustConfig, ⟨3, 0, 0⟩, .claim_payout)]) := by
  have hok : SpotOK (run openRecord lateBetRun) :=
    (create_spot_record_for_post_ok (rfl : create_spot_record_for_post ⟨⟩ dustConfig true
      ["yes", "no"] none none ⟨7, 0, 0⟩ = .ok openRecord)).2.run (by decide)
  obtain ⟨hsettled, hle⟩ := spot_escrow_strands_late_bets.1 _ hok (Or.inl (by decide))
    [(dustConfig, ⟨3, 0, 0⟩, .claim_payout)] (by decide)
  exact ⟨hsettled, le_trans (by decide) hle⟩

end MysoCore.Social.SocialProofOfTruth
