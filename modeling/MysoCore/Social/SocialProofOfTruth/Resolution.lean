/-
Who resolves a SPoT record, and with what outcome
(social_proof_of_truth.move, `oracle_resolve`, `finalize_via_dao`).

# Two doors

A record leaves the unresolved phase resolved only through
`finalize_resolution_and_payout`, which two entry functions call: the
oracle's, which takes the oracle capability and checks that the
outcome is one of the record's options, and the DAO's. The DAO's door
takes no capability and reads nothing of the sender
(`finalize_via_dao_sender_blind`): in the source it is a public entry
function with no check of who calls it, and it passes the outcome on
unchecked. Any sender can therefore resolve an open record, to any
outcome, including one that is no option at all, in which case no bet
wins and the escrow net of the fee stays in the record with nothing
owed against it (`finalize_via_dao_resolves_for_anyone`).
-/
import MysoCore.Social.SocialProofOfTruth.Escrow

namespace MysoCore.Social.SocialProofOfTruth

open SortedMap

/-- A configuration with a fee of one percent, split evenly. -/
def onePercentConfig : SpotConfig := ⟨true, 7000, 0, 100, 5000, 0, 10000⟩

/-- A new record on two options, with no resolution windows. -/
def twoOptionRecord : SpotRecord :=
  { created_epoch := 0, status := .OPEN, outcome := none, escrow := 0,
    betting_options := ["yes", "no"], option_escrow := [], user_option_amounts := [],
    bets := [], resolution_window_epochs := none, max_resolution_window_epochs := none,
    last_resolution_epoch := 0, resolution_timestamp_ms := 0, pending_payouts := [] }

/-- That record after a bet of a thousand on its first option. -/
def oneBetRecord : SpotRecord :=
  run twoOptionRecord [(onePercentConfig, ⟨1, 0, 0⟩, .place_spot_bet 1000 0 1000)]

section doors

variable {spot_config : SpotConfig} {rec rec' : SpotRecord} {ctx : TxContext} {call : SpotCall}
  {payments : Payments}

/-- A resolution records its outcome. -/
theorem finalize_resolution_and_payout_outcome {outcome : ℕ}
    (h : finalize_resolution_and_payout spot_config rec outcome ctx = .ok (rec', payments)) :
    rec'.outcome = some outcome := by
  rcases (finalize_resolution_and_payout_eq_ok h).2 with ⟨-, _, -, rfl⟩ | ⟨-, _, -, rfl⟩ <;> rfl

/-- Only two calls resolve an unresolved record: the oracle's, with one
of the record's options as the outcome, and the DAO's, with the
outcome it is given. -/
theorem resolved_by_oracle_or_dao (h : apply rec spot_config ctx call = .ok (rec', payments))
    (hu : Unresolved rec) (hres : rec'.status = .RESOLVED) :
    (∃ outcome confidence_bps reasoning evidence_urls,
        call = .oracle_resolve outcome confidence_bps reasoning evidence_urls ∧
        outcome < rec.betting_options.length ∧ rec'.outcome = some outcome) ∨
      ∃ outcome reasoning evidence_urls,
        call = .finalize_via_dao outcome reasoning evidence_urls ∧ rec'.outcome = some outcome := by
  have hu' : ¬ Unresolved rec' := by
    rintro (h' | h') <;> rw [hres] at h' <;> cases h'
  cases call with
  | place_spot_bet payment option_id amount =>
    obtain ⟨-, _, -, rfl⟩ := place_spot_bet_eq_ok h
    exact absurd hu hu'
  | withdraw_spot_bet bet_index =>
    obtain ⟨-, _, -, _, _, _, _, -, -, rfl⟩ := withdraw_spot_bet_eq_ok h
    exact absurd hu hu'
  | oracle_resolve outcome confidence_bps reasoning evidence_urls =>
    have h' : SocialProofOfTruth.oracle_resolve ⟨⟩ spot_config rec outcome confidence_bps
        reasoning evidence_urls ctx = .ok (rec', payments) := h
    obtain ⟨hopt, hcase⟩ := oracle_resolve_eq_ok h'
    rcases hcase with ⟨-, rfl⟩ | hf
    · exact absurd (.inr rfl) hu'
    · exact .inl ⟨outcome, confidence_bps, reasoning, evidence_urls, rfl, hopt,
        finalize_resolution_and_payout_outcome hf⟩
  | finalize_via_dao outcome reasoning evidence_urls =>
    exact .inr ⟨outcome, reasoning, evidence_urls, rfl,
      finalize_resolution_and_payout_outcome (finalize_via_dao_eq_ok h)⟩
  | refund_unresolved =>
    have h' : SocialProofOfTruth.refund_unresolved ⟨⟩ rec ctx = .ok (rec', payments) := h
    obtain ⟨-, _, -, rfl⟩ := refund_unresolved_eq_ok h'
    cases hres
  | claim_payout =>
    obtain ⟨hres', -⟩ := claim_payout_eq_ok h
    exact absurd hu (by rintro (h' | h') <;> rw [hres'] at h' <;> cases h')

theorem one_bet_record_dao_resolved :
    ∃ rec' payments,
      apply oneBetRecord onePercentConfig ⟨9, 0, 0⟩ (.finalize_via_dao 0 none none) =
        .ok (rec', payments) ∧ rec'.status = .RESOLVED ∧
      ((∃ outcome confidence_bps reasoning evidence_urls,
          SpotCall.finalize_via_dao 0 none none =
            .oracle_resolve outcome confidence_bps reasoning evidence_urls ∧
          outcome < oneBetRecord.betting_options.length ∧ rec'.outcome = some outcome) ∨
        ∃ outcome reasoning evidence_urls,
          SpotCall.finalize_via_dao 0 none none = .finalize_via_dao outcome reasoning evidence_urls ∧
          rec'.outcome = some outcome) := by
  have h := (rfl : apply oneBetRecord onePercentConfig ⟨9, 0, 0⟩ (.finalize_via_dao 0 none none) =
    .ok _)
  exact ⟨_, _, h, rfl, resolved_by_oracle_or_dao h (.inl rfl) rfl⟩

end doors

/-- The DAO's door does not depend on who calls it. -/
theorem finalize_via_dao_sender_blind (spot_config : SpotConfig) (rec : SpotRecord) (outcome : ℕ)
    (reasoning : Option String) (evidence_urls : Option (List String)) (ctx : TxContext)
    (sender : ℕ) :
    finalize_via_dao spot_config rec outcome reasoning evidence_urls { ctx with sender } =
      finalize_via_dao spot_config rec outcome reasoning evidence_urls ctx := rfl

/-- Any sender resolves an open record through the DAO's door, to an
outcome that is none of its options: the record with one bet of a
thousand on the first of two options is resolved to option seven, the
fee of one percent goes to the platform and the treasury, and the rest
stays in the escrow with no payout owed against it. -/
theorem finalize_via_dao_resolves_for_anyone (sender epoch epoch_timestamp_ms : ℕ) :
    create_spot_record_for_post ⟨⟩ onePercentConfig true ["yes", "no"] none none ⟨1, 0, 0⟩ =
        .ok twoOptionRecord ∧
      Unresolved oneBetRecord ∧
      finalize_via_dao onePercentConfig oneBetRecord 7 none none
          ⟨sender, epoch, epoch_timestamp_ms⟩ =
        .ok (resolvedWith oneBetRecord 7 990 [] ⟨sender, epoch, epoch_timestamp_ms⟩,
          [(.platform, 5), (.treasury, 5)]) ∧
      oneBetRecord.betting_options.length ≤ 7 ∧ ¬ Refunding 7 :=
  ⟨rfl, .inl rfl, by rfl, by decide, by decide⟩

end MysoCore.Social.SocialProofOfTruth
