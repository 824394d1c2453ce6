/-
Social Proof of Truth (myso-social/sources/social_proof_of_truth.move):
a prediction market on a post's truthfulness. Bets on one of a record's
two to ten options go to the record's escrow; the oracle resolves the
record, or hands it to the DAO when it is not confident enough, and the
winners' pro-rata shares of the escrow net of the fee become pending
payouts they claim after a delay. A draw, an unapplicable outcome or a
record left unresolved past its window refunds every bet.

# The model

A `SpotRecord` keeps its tables (`Table<u8, u64>`, `Table<address,
vector<u64>>`, `Table<address, u64>`) as sorted association lists, its
status as the `Status` its `u8` constants name, and its escrow as the
balance's value. Each entry function takes the configuration, the
record and the transaction context, and returns the new record with the
coins the call sends out, or the abort. The objects a call only passes
on (the post, the platform, the treasury), the events, the version
checks and the fields nothing modelled reads are left out; a reasoning
text matters only through its length.

A run is a sequence of calls, each under the configuration and the
context it is made in; an aborted call leaves the record as it was.
-/
import MysoCore.Social.Basic
import MysoCore.Lib.SortedMap
import MysoCore.Lib.Vector
import Mathlib

namespace MysoCore.Social.SocialProofOfTruth

open SortedMap ExceptFold

/-- The aborts of the modelled code, named by the source's constants. -/
inductive Abort
  | EDisabled
  | EInvalidAmount
  | EAlreadyResolved
  | ETooEarly
  | EWrongStatus
  | ENotOracle
  | ENoBets
  | EOverflow
  | EInvalidReasoning
  | EInvalidOptionId
  | EWithdrawalNotAllowed
  | EBetNotFound
  | EDuplicateOption
  | ETooManyBets
  -- balance.move, for `balance::split` and `coin::split`
  | ENotEnough
  -- vector.move, for `vector::borrow` past the end
  | EIndexOutOfBounds
  deriving DecidableEq, Repr

/-- A record's status (`STATUS_OPEN` and the rest). -/
inductive Status
  | OPEN
  | DAO_REQUIRED
  | RESOLVED
  | REFUNDABLE
  deriving DecidableEq, Repr

def OUTCOME_DRAW : ℕ := 255
def OUTCOME_UNAPPLICABLE : ℕ := 254
def MAX_U64 : ℕ := 18446744073709551615
def MAX_REASONING_LENGTH : ℕ := 5000
def MAX_EVIDENCE_URLS : ℕ := 10
def MIN_REASONING_LENGTH : ℕ := 10
def MAX_BETTING_OPTIONS : ℕ := 10
def MIN_BETTING_OPTIONS : ℕ := 2

/-- The capability `oracle_resolve`, `refund_unresolved` and record
creation take: only its owner can make those calls. -/
structure SpotOracleAdminCap where

/-- The fields of `SpotConfig` the modelled calls read. -/
structure SpotConfig where
  enable_flag : Bool
  confidence_threshold_bps : ℕ
  payout_delay_ms : ℕ
  fee_bps : ℕ
  fee_split_bps_platform : ℕ
  max_single_bet : ℕ
  max_bets_per_record : ℕ
  deriving DecidableEq, Repr

/-- `SpotBet`. -/
structure SpotBet where
  user : ℕ
  option_id : ℕ
  amount : ℕ
  timestamp : ℕ
  deriving DecidableEq, Repr

/-- `SpotRecord`, without its object and post ids and its version. -/
structure SpotRecord where
  created_epoch : ℕ
  status : Status
  outcome : Option ℕ
  escrow : ℕ
  betting_options : List String
  option_escrow : List (ℕ × ℕ)
  user_option_amounts : List (ℕ × List ℕ)
  bets : List SpotBet
  resolution_window_epochs : Option ℕ
  max_resolution_window_epochs : Option ℕ
  last_resolution_epoch : ℕ
  resolution_timestamp_ms : ℕ
  pending_payouts : List (ℕ × ℕ)
  deriving DecidableEq, Repr

/-- The coins a call sends out, in order. -/
abbrev Payments := List (Payee × ℕ)

namespace SpotRecord

-- ============================================================ getters

/-- `get_option_escrow`: an option's escrow, zero if it has none. -/
def get_option_escrow (rec : SpotRecord) (option_id : ℕ) : ℕ :=
  (lookup option_id rec.option_escrow).getD 0

/-- `get_user_option_amount`: what a user has on an option, zero if the
user has no entry or the entry is too short. -/
def get_user_option_amount (rec : SpotRecord) (user option_id : ℕ) : ℕ :=
  match lookup user rec.user_option_amounts with
  | none => 0
  | some amounts => amounts[option_id]?.getD 0

def is_open (rec : SpotRecord) : Bool := rec.status = .OPEN
def is_resolved (rec : SpotRecord) : Bool := rec.status = .RESOLVED

/-- The loop of `finalize_resolution_and_payout` that totals the escrow
of the options `0 .. options_len - 1`. -/
def totalEscrow (rec : SpotRecord) : ℕ :=
  ((List.range rec.betting_options.length).map rec.get_option_escrow).sum

end SpotRecord

open SpotRecord

-- ============================================================ record creation

/-- `create_spot_record_for_post`, for a post whose SPoT flag is
`spot_enabled`: a new open record with empty tables. -/
def create_spot_record_for_post (_cap : SpotOracleAdminCap) (config : SpotConfig)
    (spot_enabled : Bool) (betting_options : List String)
    (resolution_window_epochs max_resolution_window_epochs : Option ℕ) (ctx : TxContext) :
    Except Abort SpotRecord := do
  require config.enable_flag .EDisabled
  require spot_enabled .EDisabled
  require (betting_options.length ≥ MIN_BETTING_OPTIONS) .EInvalidAmount
  require (betting_options.length ≤ MAX_BETTING_OPTIONS) .EInvalidAmount
  -- the double loop over the pairs `i < j` asserting `option_i != option_j`
  require betting_options.Nodup .EDuplicateOption
  pure
    { created_epoch := ctx.epoch
      status := .OPEN
      outcome := none
      escrow := 0
      betting_options
      option_escrow := []
      user_option_amounts := []
      bets := []
      resolution_window_epochs
      max_resolution_window_epochs
      last_resolution_epoch := 0
      resolution_timestamp_ms := 0
      pending_payouts := [] }

-- ============================================================ fees and refunds

/-- The fee `withdraw_spot_bet` takes on a bet's amount and
`finalize_resolution_and_payout` on the total escrow. -/
def feeOn (spot_config : SpotConfig) (amount : ℕ) : ℕ :=
  if spot_config.fee_bps > 0 then amount * spot_config.fee_bps / 10000 else 0

/-- The fee block shared by `withdraw_spot_bet` and
`finalize_resolution_and_payout`: a positive fee leaves the escrow, the
platform's share of it going to the platform and the rest to the
ecosystem treasury. -/
def takeFee (spot_config : SpotConfig) (escrow fee : ℕ) : Except Abort (ℕ × Payments) :=
  if fee > 0 then do
    let platform_part := fee * spot_config.fee_split_bps_platform / 10000
    let treasury_part := fee - platform_part
    let escrow ← balance_split .ENotEnough escrow fee
    -- `coin::split(&mut fee_coin, platform_part)`
    let _ ← balance_split .ENotEnough fee platform_part
    pure (escrow,
      (if platform_part > 0 then [(.platform, platform_part)] else []) ++
      (if treasury_part > 0 then [(.treasury, treasury_part)] else []))
  else pure (escrow, [])

/-- One bet of the refund loop: its amount, if any, leaves the escrow
for its user. -/
def refundBet (acc : ℕ × Payments) (bet : SpotBet) : Except Abort (ℕ × Payments) :=
  if bet.amount > 0 then do
    let escrow ← balance_split .ENotEnough acc.1 bet.amount
    pure (escrow, acc.2 ++ [(.address bet.user, bet.amount)])
  else pure acc

/-- The refund loop shared by `refund_unresolved` and the draw branch of
`finalize_resolution_and_payout`: every bet with an amount gets it back
out of the escrow. -/
def refundBets (escrow : ℕ) (bets : List SpotBet) : Except Abort (ℕ × Payments) :=
  bets.foldlM refundBet (escrow, [])

/-- One bet of the payout loop: a winning bet's pro-rata share of the
distributable escrow, if positive, is added to its user's pending
payout. -/
def creditPayout (outcome winning_total distributable : ℕ) (pending_payouts : List (ℕ × ℕ))
    (bet : SpotBet) : List (ℕ × ℕ) :=
  if bet.option_id = outcome ∧ winning_total > 0 ∧ bet.amount > 0 then
    let payout := bet.amount * distributable / winning_total
    if payout > 0 then alter bet.user (fun p => p.getD 0 + payout) pending_payouts
    else pending_payouts
  else pending_payouts

/-- The payout loop of `finalize_resolution_and_payout`, over the bets
in order. -/
def creditPayouts (outcome winning_total distributable : ℕ) (pending_payouts : List (ℕ × ℕ))
    (bets : List SpotBet) : List (ℕ × ℕ) :=
  bets.foldl (creditPayout outcome winning_total distributable) pending_payouts

-- ============================================================ bets

/-- `place_spot_bet`, paying with a coin of value `payment`: the amount
goes to the escrow and to the option's and the user's totals, the rest
of the coin goes back to the sender. -/
def place_spot_bet (spot_config : SpotConfig) (rec : SpotRecord) (payment option_id amount : ℕ)
    (ctx : TxContext) : Except Abort (SpotRecord × Payments) := do
  require spot_config.enable_flag .EDisabled
  require (amount > 0) .EInvalidAmount
  require (spot_config.max_single_bet > 0 → amount ≤ spot_config.max_single_bet) .EInvalidAmount
  require (payment ≥ amount) .EInvalidAmount
  require (rec.bets.length < spot_config.max_bets_per_record) .ETooManyBets
  require (option_id < rec.betting_options.length) .EInvalidOptionId
  let current_escrow := rec.get_option_escrow option_id
  require (current_escrow ≤ MAX_U64 - amount) .EOverflow
  -- a new user's entry is a zero for each option
  let user_amounts := (lookup ctx.sender rec.user_option_amounts).getD
    (List.replicate rec.betting_options.length 0)
  match user_amounts[option_id]? with
  | none => throw .EIndexOutOfBounds
  | some current_user_amount =>
      require (current_user_amount ≤ MAX_U64 - amount) .EOverflow
      pure
        ({ rec with
            escrow := rec.escrow + amount
            option_escrow := alter option_id (fun _ => current_escrow + amount) rec.option_escrow
            bets := rec.bets ++ [⟨ctx.sender, option_id, amount, ctx.epoch⟩]
            user_option_amounts := alter ctx.sender
              (fun _ => user_amounts.set option_id (current_user_amount + amount))
              rec.user_option_amounts },
          if payment - amount > 0 then [(.address ctx.sender, payment - amount)] else [])

/-- `withdraw_spot_bet`'s update of the option escrow: lowered by the
amount if it holds that much. -/
def withdrawOptionEscrow (option_escrow : List (ℕ × ℕ)) (bet : SpotBet) : List (ℕ × ℕ) :=
  match lookup bet.option_id option_escrow with
  | some current_escrow =>
      if current_escrow ≥ bet.amount then
        alter bet.option_id (fun _ => current_escrow - bet.amount) option_escrow
      else option_escrow
  | none => option_escrow

/-- `withdraw_spot_bet`'s update of the user's amounts: the option's
amount lowered by the bet if the entry has the option and that much. -/
def withdrawUserAmounts (user_option_amounts : List (ℕ × List ℕ)) (bet : SpotBet) :
    List (ℕ × List ℕ) :=
  match lookup bet.user user_option_amounts with
  | some user_amounts =>
      match user_amounts[bet.option_id]? with
      | some current_user_amount =>
          if current_user_amount ≥ bet.amount then
            alter bet.user (fun _ => user_amounts.set bet.option_id
              (current_user_amount - bet.amount)) user_option_amounts
          else user_option_amounts
      | none => user_option_amounts
  | none => user_option_amounts

/-- `withdraw_spot_bet`'s refund of the bet net of its fee. -/
def refundNet (escrow refund_amount user : ℕ) : Except Abort (ℕ × Payments) :=
  if refund_amount > 0 then do
    let escrow ← balance_split .ENotEnough escrow refund_amount
    pure (escrow, [(.address user, refund_amount)])
  else pure (escrow, [])

/-- `withdraw_spot_bet`: the sender's bet at an index leaves the open
record, its fee to the platform and the treasury and the rest back to
the sender. -/
def withdraw_spot_bet (spot_config : SpotConfig) (rec : SpotRecord) (bet_index : ℕ)
    (ctx : TxContext) : Except Abort (SpotRecord × Payments) := do
  require spot_config.enable_flag .EDisabled
  require (rec.status = .OPEN) .EWithdrawalNotAllowed
  match rec.bets[bet_index]? with
  | none => throw .EBetNotFound
  | some bet =>
      require (bet.user = ctx.sender) .EInvalidAmount
      require (bet.amount > 0) .EInvalidAmount
      let fee := feeOn spot_config bet.amount
      let refund_amount := bet.amount - fee
      let (escrow, fee_payments) ← takeFee spot_config rec.escrow fee
      let (escrow, refund_payments) ← refundNet escrow refund_amount bet.user
      pure
        ({ rec with
            escrow
            option_escrow := withdrawOptionEscrow rec.option_escrow bet
            user_option_amounts := withdrawUserAmounts rec.user_option_amounts bet
            bets := MoveVector.swapRemove rec.bets bet_index },
          fee_payments ++ refund_payments)

-- ============================================================ resolution

/-- The record `finalize_resolution_and_payout` leaves: resolved with
the outcome, at the context's epoch and time. -/
def resolvedWith (rec : SpotRecord) (outcome escrow : ℕ) (pending_payouts : List (ℕ × ℕ))
    (ctx : TxContext) : SpotRecord :=
  { rec with
    escrow
    pending_payouts
    status := .RESOLVED
    outcome := some outcome
    last_resolution_epoch := ctx.epoch
    resolution_timestamp_ms := ctx.epoch_timestamp_ms }

/-- `finalize_resolution_and_payout`: a draw or an unapplicable outcome
refunds every bet; any other outcome takes the fee off the total escrow
and credits the winners' shares of the rest as pending payouts. Either
way the record is resolved with that outcome. -/
def finalize_resolution_and_payout (spot_config : SpotConfig) (rec : SpotRecord) (outcome : ℕ)
    (ctx : TxContext) : Except Abort (SpotRecord × Payments) := do
  require (rec.status = .OPEN ∨ rec.status = .DAO_REQUIRED) .EWrongStatus
  require (rec.bets.length > 0) .ENoBets
  let total_escrow := rec.totalEscrow
  if outcome = OUTCOME_DRAW ∨ outcome = OUTCOME_UNAPPLICABLE then
    let (escrow, refunds) ← refundBets rec.escrow rec.bets
    pure (resolvedWith rec outcome escrow rec.pending_payouts ctx, refunds)
  else
    let winning_total := rec.get_option_escrow outcome
    let fee := feeOn spot_config total_escrow
    let distributable := total_escrow - fee
    let (escrow, fee_payments) ← takeFee spot_config rec.escrow fee
    pure (resolvedWith rec outcome escrow
        (creditPayouts outcome winning_total distributable rec.pending_payouts rec.bets) ctx,
      fee_payments)

/-- `oracle_resolve`, by the holder of the oracle capability: a valid
option with a confidence at the threshold resolves the open record; a
lower confidence hands it to the DAO. -/
def oracle_resolve (_cap : SpotOracleAdminCap) (spot_config : SpotConfig) (rec : SpotRecord)
    (outcome_option_id confidence_bps : ℕ) (reasoning : String) (evidence_urls : List String)
    (ctx : TxContext) : Except Abort (SpotRecord × Payments) := do
  require (rec.status = .OPEN) .EWrongStatus
  require (rec.outcome = none) .EAlreadyResolved
  -- the resolution window, if the record has one
  require (rec.resolution_window_epochs.all fun window => ctx.epoch ≥ rec.created_epoch + window)
    .ETooEarly
  require (outcome_option_id < rec.betting_options.length) .EInvalidOptionId
  require (reasoning.utf8ByteSize ≥ MIN_REASONING_LENGTH) .EInvalidReasoning
  require (reasoning.utf8ByteSize ≤ MAX_REASONING_LENGTH) .EInvalidReasoning
  require (evidence_urls.length > 0) .EInvalidAmount
  require (evidence_urls.length ≤ MAX_EVIDENCE_URLS) .EInvalidAmount
  if confidence_bps < spot_config.confidence_threshold_bps then
    pure ({ rec with status := .DAO_REQUIRED }, [])
  else finalize_resolution_and_payout spot_config rec outcome_option_id ctx

/-- `finalize_via_dao`: resolves an open record or one handed to the
DAO with the given outcome. -/
def finalize_via_dao (spot_config : SpotConfig) (rec : SpotRecord) (outcome : ℕ)
    (reasoning : Option String) (evidence_urls : Option (List String)) (ctx : TxContext) :
    Except Abort (SpotRecord × Payments) := do
  require (rec.status = .DAO_REQUIRED ∨ rec.status = .OPEN) .EWrongStatus
  require (rec.outcome = none) .EAlreadyResolved
  -- the reasoning and the evidence, if given
  require (reasoning.all fun reasoning_val => reasoning_val.utf8ByteSize ≤ MAX_REASONING_LENGTH)
    .EInvalidReasoning
  require (evidence_urls.all fun urls => urls.length ≤ MAX_EVIDENCE_URLS) .EInvalidAmount
  finalize_resolution_and_payout spot_config rec outcome ctx

/-- `refund_unresolved`, by the holder of the oracle capability: a
record unresolved past its maximal window refunds every bet. -/
def refund_unresolved (_cap : SpotOracleAdminCap) (rec : SpotRecord) (ctx : TxContext) :
    Except Abort (SpotRecord × Payments) := do
  match rec.max_resolution_window_epochs with
  | none => throw .EInvalidAmount
  | some max_window =>
      require (ctx.epoch ≥ rec.created_epoch + max_window) .ETooEarly
      require (rec.status = .OPEN ∨ rec.status = .DAO_REQUIRED) .EWrongStatus
      require (rec.bets.length > 0) .ENoBets
      let (escrow, refunds) ← refundBets rec.escrow rec.bets
      pure
        ({ rec with
            escrow
            status := .REFUNDABLE
            outcome := none
            last_resolution_epoch := ctx.epoch },
          refunds)

/-- `claim_payout`: once the delay after resolution has passed, the
sender's pending payout leaves the escrow. -/
def claim_payout (spot_config : SpotConfig) (rec : SpotRecord) (ctx : TxContext) :
    Except Abort (SpotRecord × Payments) := do
  require spot_config.enable_flag .EDisabled
  require (rec.status = .RESOLVED) .EWrongStatus
  require rec.outcome.isSome .ENotOracle
  match lookup ctx.sender rec.pending_payouts with
  | none => throw .EBetNotFound
  | some pending_amount =>
      require (pending_amount > 0) .EInvalidAmount
      require (rec.resolution_timestamp_ms > 0) .EInvalidAmount
      require (ctx.epoch_timestamp_ms ≥ rec.resolution_timestamp_ms + spot_config.payout_delay_ms)
        .ETooEarly
      let escrow ← balance_split .ENotEnough rec.escrow pending_amount
      pure
        ({ rec with
            escrow
            pending_payouts := SortedMap.eraseKey ctx.sender rec.pending_payouts },
          [(.address ctx.sender, pending_amount)])

-- ============================================================ runs

/-- The calls on a record after its creation. -/
inductive SpotCall
  | place_spot_bet (payment option_id amount : ℕ)
  | withdraw_spot_bet (bet_index : ℕ)
  | oracle_resolve (outcome_option_id confidence_bps : ℕ) (reasoning : String)
      (evidence_urls : List String)
  | finalize_via_dao (outcome : ℕ) (reasoning : Option String)
      (evidence_urls : Option (List String))
  | refund_unresolved
  | claim_payout
  deriving DecidableEq, Repr

/-- One call, under its configuration and context. -/
def apply (rec : SpotRecord) (spot_config : SpotConfig) (ctx : TxContext) :
    SpotCall → Except Abort (SpotRecord × Payments)
  | .place_spot_bet payment option_id amount =>
      place_spot_bet spot_config rec payment option_id amount ctx
  | .withdraw_spot_bet bet_index => withdraw_spot_bet spot_config rec bet_index ctx
  | .oracle_resolve outcome_option_id confidence_bps reasoning evidence_urls =>
      oracle_resolve ⟨⟩ spot_config rec outcome_option_id confidence_bps reasoning evidence_urls
        ctx
  | .finalize_via_dao outcome reasoning evidence_urls =>
      finalize_via_dao spot_config rec outcome reasoning evidence_urls ctx
  | .refund_unresolved => refund_unresolved ⟨⟩ rec ctx
  | .claim_payout => claim_payout spot_config rec ctx

/-- A call's effect on the record: an aborted call changes nothing. -/
def step (rec : SpotRecord) (call : SpotConfig × TxContext × SpotCall) : SpotRecord :=
  match apply rec call.1 call.2.1 call.2.2 with
  | .ok r => r.1
  | .error _ => rec

/-- The record after a sequence of calls. -/
def run (rec : SpotRecord) (calls : List (SpotConfig × TxContext × SpotCall)) : SpotRecord :=
  calls.foldl step rec

end MysoCore.Social.SocialProofOfTruth
