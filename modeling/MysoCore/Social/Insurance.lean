/-
Insurance for SPoT positions (myso-social/sources/insurance.move): an
underwriter's vault sells coverage against the option a SPoT position
is on losing. A policy locks a reserve, its covered part of the covered
amount, against the vault's capital, and pays a premium into it; the
reserve is released when the policy is cancelled while the market is
open (with a pro-rated refund of the premium), claimed after the
record's resolution (with a payout when its option lost), or expired.

# The model

A vault keeps its capital as the balance's value, its `reserved`
total, and its exposure tables (`Table<address, MarketExposure>`, each
market's `Table<u8, u64>` and `Table<address, u64>`) as sorted
association lists; `get_market_exposure_mut` adds a market's entry as
the source does, and a write through the reference it returns is
`setMarketExposure`. A policy is its `CoveragePolicy` object, and a
SPoT record is read through the accessors `insurance.move` calls, over
the record's model and its object id. Each entry function takes the
configuration and the objects it is passed and returns the vault and
the policy it changes with the coins it sends out, or the abort. The
events, the versions and their migrations are left out.

A run is a sequence of calls on one vault and the policies bought from
it, each made under its configuration, clock and context, with the SPoT
records it is passed as they stand then; an aborted call leaves the
vault and the policies as they were.
-/
import MysoCore.Social.SocialProofOfTruth

namespace MysoCore.Social.Insurance

open SortedMap ExceptFold
open SocialProofOfTruth (SpotConfig SpotRecord OUTCOME_DRAW OUTCOME_UNAPPLICABLE)

/-- The aborts of the modelled code, named by the source's constants. -/
inductive Abort
  | ENotAdmin
  | EDisabled
  | EInvalidCoverage
  | EInvalidDuration
  | EInvalidAmount
  | EInvalidVault
  | EInsufficientCapital
  | EMarketClosed
  | EPolicyNotActive
  | EPolicyExpired
  | ENotPolicyOwner
  | EOverflow
  | EMarketMismatch
  | EExposureLimit
  | EInsufficientPremium
  | EExposureInvariantBroken
  -- balance.move, for `balance::split`
  | ENotEnough
  deriving DecidableEq, Repr

/-- The coins a call sends out, in order. -/
abbrev Payments := List (Payee × ℕ)

/-- A policy's status (`STATUS_ACTIVE` and the rest). -/
inductive Status
  | ACTIVE
  | CANCELLED
  | CLAIMED
  | EXPIRED
  deriving DecidableEq, Repr

def BPS_DENOM : ℕ := 10000
def DAY_MS : ℕ := 86400000
def MAX_U64 : ℕ := 18446744073709551615
def DEFAULT_MIN_COVERAGE_BPS : ℕ := 1000
def DEFAULT_MAX_COVERAGE_BPS : ℕ := 9000
def DEFAULT_MAX_DURATION_MS : ℕ := 30 * DAY_MS
def DEFAULT_FEE_BPS : ℕ := 50

/-- The fields of `InsuranceConfig` the modelled calls read. -/
structure InsuranceConfig where
  enable_flag : Bool
  min_coverage_bps : ℕ
  max_coverage_bps : ℕ
  max_duration_ms : ℕ
  fee_bps : ℕ
  deriving DecidableEq, Repr

/-- `MarketExposure`: what a vault has reserved on one market, in all
and per option. -/
structure MarketExposure where
  market_id : ℕ
  total_reserved : ℕ
  reserved_by_option : List (ℕ × ℕ)
  deriving DecidableEq, Repr

/-- `UnderwriterVault`, without its version. -/
structure UnderwriterVault where
  id : ℕ
  underwriter : ℕ
  capital : ℕ
  reserved : ℕ
  base_rate_bps_per_day : ℕ
  utilization_multiplier_bps : ℕ
  max_exposure_per_market : ℕ
  max_exposure_per_user : ℕ
  market_exposures : List (ℕ × MarketExposure)
  user_exposures : List (ℕ × ℕ)
  deriving DecidableEq, Repr

/-- `CoveragePolicy`, without its object id. -/
structure CoveragePolicy where
  market_id : ℕ
  insured : ℕ
  option_id : ℕ
  covered_amount : ℕ
  coverage_bps : ℕ
  premium_paid : ℕ
  start_time_ms : ℕ
  expiry_time_ms : ℕ
  vault_id : ℕ
  status : Status
  deriving DecidableEq, Repr

/-- A `SpotRecord` object as the calls are passed it: its id and its
contents. -/
structure SpotObject where
  id : ℕ
  record : SpotRecord
  deriving DecidableEq, Repr

/-- `spot::get_id_address`. -/
def SpotObject.get_id_address (o : SpotObject) : ℕ := o.id

-- ============================================================ configuration

/-- The checks `init_config` and `set_config` make of new parameters. -/
def checkConfig (min_coverage_bps max_coverage_bps max_duration_ms fee_bps : ℕ) :
    Except Abort Unit := do
  require (min_coverage_bps > 0) .EInvalidCoverage
  require (min_coverage_bps ≤ max_coverage_bps) .EInvalidCoverage
  require (max_coverage_bps ≤ BPS_DENOM) .EInvalidCoverage
  require (max_duration_ms > 0) .EInvalidDuration
  require (fee_bps ≤ BPS_DENOM) .EInvalidCoverage

/-- `init_config`: a new configuration, disabled. -/
def init_config (min_coverage_bps max_coverage_bps max_duration_ms fee_bps : ℕ) :
    Except Abort InsuranceConfig := do
  checkConfig min_coverage_bps max_coverage_bps max_duration_ms fee_bps
  pure ⟨false, min_coverage_bps, max_coverage_bps, max_duration_ms, fee_bps⟩

/-- `set_config`, by the holder of the admin capability. -/
def set_config (config : InsuranceConfig)
    (min_coverage_bps max_coverage_bps max_duration_ms fee_bps : ℕ) :
    Except Abort InsuranceConfig := do
  checkConfig min_coverage_bps max_coverage_bps max_duration_ms fee_bps
  pure { config with min_coverage_bps, max_coverage_bps, max_duration_ms, fee_bps }

/-- `set_enable_flag`, by the holder of the admin capability. -/
def set_enable_flag (config : InsuranceConfig) (enable_flag : Bool) : InsuranceConfig :=
  { config with enable_flag }

/-- `bootstrap_init`: the default configuration, disabled. -/
def bootstrap_init : InsuranceConfig :=
  ⟨false, DEFAULT_MIN_COVERAGE_BPS, DEFAULT_MAX_COVERAGE_BPS, DEFAULT_MAX_DURATION_MS,
    DEFAULT_FEE_BPS⟩

-- ============================================================ capital

/-- `create_vault`: a new vault of the sender's, with no capital and
empty tables; `id` is the one `object::new` gives it. -/
def create_vault (id base_rate_bps_per_day utilization_multiplier_bps max_exposure_per_market
    max_exposure_per_user : ℕ) (ctx : TxContext) : UnderwriterVault where
  id
  underwriter := ctx.sender
  capital := 0
  reserved := 0
  base_rate_bps_per_day
  utilization_multiplier_bps
  max_exposure_per_market
  max_exposure_per_user
  market_exposures := []
  user_exposures := []

/-- `deposit_capital`, paying with a coin of value `payment`. -/
def deposit_capital (config : InsuranceConfig) (vault : UnderwriterVault) (payment : ℕ) :
    Except Abort UnderwriterVault := do
  require config.enable_flag .EDisabled
  require (payment > 0) .EInvalidAmount
  pure { vault with capital := vault.capital + payment }

/-- `withdraw_capital`, by the underwriter: at most the capital that is
not reserved. -/
def withdraw_capital (config : InsuranceConfig) (vault : UnderwriterVault) (amount : ℕ)
    (ctx : TxContext) : Except Abort (UnderwriterVault × Payments) := do
  require config.enable_flag .EDisabled
  require (ctx.sender = vault.underwriter) .ENotAdmin
  require (amount > 0) .EInvalidAmount
  require (vault.capital ≥ vault.reserved) .EOverflow
  let free_capital := vault.capital - vault.reserved
  require (free_capital ≥ amount) .EInsufficientCapital
  let capital ← balance_split .ENotEnough vault.capital amount
  pure ({ vault with capital }, [(.address vault.underwriter, amount)])

/-- A part of the capital out to its payee, when it is not zero. -/
def sendPart (value : ℕ) (payee : Payee) (amount : ℕ) : Except Abort (ℕ × Payments) :=
  if amount > 0 then do
    let value ← balance_split .ENotEnough value amount
    pure (value, [(payee, amount)])
  else pure (value, [])

-- ============================================================ pricing

/-- The utilization `quote_premium` prices by: the reserved share of the
capital in basis points, full when there is no capital. -/
def utilizationBps (vault : UnderwriterVault) : Except Abort ℕ :=
  if vault.capital = 0 then pure BPS_DENOM
  else do
    let utilization := vault.reserved * BPS_DENOM / vault.capital
    require (utilization ≤ MAX_U64) .EOverflow
    pure utilization

/-- `quote_premium`: the covered part of the amount at the vault's daily
rate, raised with its utilization, over the duration. -/
def quote_premium (vault : UnderwriterVault) (covered_amount coverage_bps duration_ms : ℕ) :
    Except Abort ℕ := do
  let utilization_bps ← utilizationBps vault
  let utilization_factor := utilization_bps * vault.utilization_multiplier_bps / BPS_DENOM
  let total_rate_bps_per_day := vault.base_rate_bps_per_day + utilization_factor
  let numerator := covered_amount * coverage_bps * total_rate_bps_per_day * duration_ms
  let denominator := BPS_DENOM * BPS_DENOM * DAY_MS
  let premium := numerator / denominator
  require (premium ≤ MAX_U64) .EOverflow
  pure premium

/-- `compute_reserve`: the covered part of the covered amount. -/
def compute_reserve (covered_amount coverage_bps : ℕ) : Except Abort ℕ := do
  let reserve := covered_amount * coverage_bps / BPS_DENOM
  require (reserve ≤ MAX_U64) .EOverflow
  pure reserve

-- ============================================================ exposure tables

/-- `get_user_exposure`: zero for a user with no entry. -/
def get_user_exposure (vault : UnderwriterVault) (insured : ℕ) : ℕ :=
  (lookup insured vault.user_exposures).getD 0

/-- `set_user_exposure`: both branches, the overwrite and the
`table::add` of a new entry, set the user's entry. -/
def set_user_exposure (vault : UnderwriterVault) (insured amount : ℕ) : UnderwriterVault :=
  { vault with user_exposures := alter insured (fun _ => amount) vault.user_exposures }

/-- `get_option_reserved`: zero for an option with no entry. -/
def get_option_reserved (exposure : MarketExposure) (option_id : ℕ) : ℕ :=
  (lookup option_id exposure.reserved_by_option).getD 0

/-- `set_option_reserved`, like `set_user_exposure`. -/
def set_option_reserved (exposure : MarketExposure) (option_id amount : ℕ) : MarketExposure :=
  { exposure with
    reserved_by_option := alter option_id (fun _ => amount) exposure.reserved_by_option }

/-- A write of a market's entry, through the reference
`get_market_exposure_mut` returns or a `table::borrow_mut`. -/
def setMarketExposure (vault : UnderwriterVault) (market_id : ℕ) (exposure : MarketExposure) :
    UnderwriterVault :=
  { vault with market_exposures := alter market_id (fun _ => exposure) vault.market_exposures }

/-- `get_market_exposure_mut`: the market's entry, which it first adds
empty when there is none, with the vault that then holds it. -/
def get_market_exposure_mut (vault : UnderwriterVault) (market_id : ℕ) :
    UnderwriterVault × MarketExposure :=
  match lookup market_id vault.market_exposures with
  | some exposure => (vault, exposure)
  | none => (setMarketExposure vault market_id ⟨market_id, 0, []⟩, ⟨market_id, 0, []⟩)

/-- The per-user limit of `enforce_exposure_limits`, checked when set. -/
def checkUserLimit (vault : UnderwriterVault) (insured reserve_amount : ℕ) :
    Except Abort Unit :=
  if vault.max_exposure_per_user > 0 then do
    let current_user := get_user_exposure vault insured
    require (current_user ≤ MAX_U64 - reserve_amount) .EOverflow
    let new_user := current_user + reserve_amount
    require (new_user ≤ vault.max_exposure_per_user) .EExposureLimit
  else pure ()

/-- The per-market limit of `enforce_exposure_limits`, checked when set. -/
def checkMarketLimit (max_exposure_per_market : ℕ) (exposure : MarketExposure)
    (reserve_amount : ℕ) : Except Abort Unit :=
  if max_exposure_per_market > 0 then do
    require (exposure.total_reserved ≤ MAX_U64 - reserve_amount) .EOverflow
    let new_total := exposure.total_reserved + reserve_amount
    require (new_total ≤ max_exposure_per_market) .EExposureLimit
  else pure ()

/-- `enforce_exposure_limits`: the limits and the option's overflow
check, which leave the vault with the market's entry. -/
def enforce_exposure_limits (vault : UnderwriterVault)
    (market_id insured option_id reserve_amount : ℕ) : Except Abort UnderwriterVault := do
  checkUserLimit vault insured reserve_amount
  let (vault, exposure) := get_market_exposure_mut vault market_id
  checkMarketLimit vault.max_exposure_per_market exposure reserve_amount
  let option_reserved := get_option_reserved exposure option_id
  require (option_reserved ≤ MAX_U64 - reserve_amount) .EOverflow
  pure vault

/-- `add_exposure`: the reserve added to the market's total, to its
option's and to the user's. -/
def add_exposure (vault : UnderwriterVault) (market_id insured option_id reserve_amount : ℕ) :
    Except Abort UnderwriterVault := do
  let (vault, exposure) := get_market_exposure_mut vault market_id
  require (exposure.total_reserved ≤ MAX_U64 - reserve_amount) .EOverflow
  let exposure := { exposure with total_reserved := exposure.total_reserved + reserve_amount }
  let option_reserved := get_option_reserved exposure option_id
  require (option_reserved ≤ MAX_U64 - reserve_amount) .EOverflow
  let vault := setMarketExposure vault market_id
    (set_option_reserved exposure option_id (option_reserved + reserve_amount))
  let current_user := get_user_exposure vault insured
  require (current_user ≤ MAX_U64 - reserve_amount) .EOverflow
  pure (set_user_exposure vault insured (current_user + reserve_amount))

/-- A `table::contains` asserted before the `table::borrow` of its
entry, or an `option::is_some` before an `option::borrow`. -/
def expectSome {α : Type} (err : Abort) (entry : Option α) : Except Abort α :=
  match entry with
  | some value => pure value
  | none => throw err

/-- `release_exposure`: the reserve taken off the market's total, its
option's and the user's, each of which must have an entry that holds
it. -/
def release_exposure (vault : UnderwriterVault) (market_id insured option_id reserve_amount : ℕ) :
    Except Abort UnderwriterVault :=
  if reserve_amount = 0 then pure vault
  else do
    let exposure ← expectSome .EExposureInvariantBroken (lookup market_id vault.market_exposures)
    require (exposure.total_reserved ≥ reserve_amount) .EExposureInvariantBroken
    let exposure := { exposure with total_reserved := exposure.total_reserved - reserve_amount }
    let current_option ← expectSome .EExposureInvariantBroken
      (lookup option_id exposure.reserved_by_option)
    require (current_option ≥ reserve_amount) .EExposureInvariantBroken
    let vault := setMarketExposure vault market_id
      (set_option_reserved exposure option_id (current_option - reserve_amount))
    let current_user ← expectSome .EExposureInvariantBroken (lookup insured vault.user_exposures)
    require (current_user ≥ reserve_amount) .EExposureInvariantBroken
    pure (set_user_exposure vault insured (current_user - reserve_amount))

/-- The end of `cancel_coverage`, `claim` and `expire_policy`: the
policy's reserve is released from the exposure tables and from
`reserved`, and the policy takes its new status. -/
def releasePolicy (vault : UnderwriterVault) (policy : CoveragePolicy) (status : Status) :
    Except Abort (UnderwriterVault × CoveragePolicy) := do
  let reserve_amount ← compute_reserve policy.covered_amount policy.coverage_bps
  let vault ← release_exposure vault policy.market_id policy.insured policy.option_id
    reserve_amount
  require (vault.reserved ≥ reserve_amount) .EOverflow
  pure ({ vault with reserved := vault.reserved - reserve_amount }, { policy with status })

-- ============================================================ policies

/-- `buy_coverage`, paying with a coin of value `payment` at time
`clock`: the covered amount is the request, up to the sender's position
on the option; its reserve must fit in the free capital, the premium
joins the capital and the rest of the coin goes back. -/
def buy_coverage (config : InsuranceConfig) (spot_config : SpotConfig) (vault : UnderwriterVault)
    (record : SpotObject) (option_id requested_coverage_amount coverage_bps duration_ms payment : ℕ)
    (clock : ℕ) (ctx : TxContext) : Except Abort (UnderwriterVault × CoveragePolicy × Payments) := do
  require config.enable_flag .EDisabled
  require spot_config.enable_flag .EMarketClosed
  require record.record.is_open .EMarketClosed
  require (coverage_bps ≥ config.min_coverage_bps) .EInvalidCoverage
  require (coverage_bps ≤ config.max_coverage_bps) .EInvalidCoverage
  require (duration_ms > 0 ∧ duration_ms ≤ config.max_duration_ms) .EInvalidDuration
  require (requested_coverage_amount > 0) .EInvalidAmount
  let insured := ctx.sender
  let market_id := record.get_id_address
  let position_amount := record.record.get_user_option_amount insured option_id
  let covered_amount :=
    if requested_coverage_amount ≤ position_amount then requested_coverage_amount
    else position_amount
  require (covered_amount > 0) .EInvalidAmount
  let reserve_amount ← compute_reserve covered_amount coverage_bps
  require (vault.capital ≥ vault.reserved) .EOverflow
  let free_capital := vault.capital - vault.reserved
  require (free_capital ≥ reserve_amount) .EInsufficientCapital
  require (vault.reserved ≤ MAX_U64 - reserve_amount) .EOverflow
  let vault ← enforce_exposure_limits vault market_id insured option_id reserve_amount
  let premium ← quote_premium vault covered_amount coverage_bps duration_ms
  require (premium > 0) .EInsufficientPremium
  require (payment ≥ premium) .EInsufficientPremium
  let change := payment - premium
  let vault ← add_exposure
    { vault with capital := vault.capital + premium, reserved := vault.reserved + reserve_amount }
    market_id insured option_id reserve_amount
  require (clock ≤ MAX_U64 - duration_ms) .EOverflow
  pure (vault,
    { market_id, insured, option_id, covered_amount, coverage_bps
      premium_paid := premium
      start_time_ms := clock
      expiry_time_ms := clock + duration_ms
      vault_id := vault.id
      status := .ACTIVE },
    if change > 0 then [(.address insured, change)] else [])

/-- `cancel_coverage`, by the insured while the market is open: the
premium for the time left, net of the fee, goes back out of the
capital, and the reserve is released. -/
def cancel_coverage (config : InsuranceConfig) (spot_config : SpotConfig)
    (vault : UnderwriterVault) (record : SpotObject) (policy : CoveragePolicy) (clock : ℕ)
    (ctx : TxContext) : Except Abort (UnderwriterVault × CoveragePolicy × Payments) := do
  require config.enable_flag .EDisabled
  require spot_config.enable_flag .EMarketClosed
  require record.record.is_open .EMarketClosed
  require (policy.status = .ACTIVE) .EPolicyNotActive
  require (ctx.sender = policy.insured) .ENotPolicyOwner
  require (policy.market_id = record.get_id_address) .EMarketMismatch
  require (policy.vault_id = vault.id) .EInvalidVault
  require (clock < policy.expiry_time_ms) .EPolicyExpired
  let total_duration := policy.expiry_time_ms - policy.start_time_ms
  let remaining := policy.expiry_time_ms - clock
  let original_refund := policy.premium_paid * remaining / total_duration
  require (original_refund ≤ MAX_U64) .EOverflow
  let fee := original_refund * config.fee_bps / BPS_DENOM
  let net_refund := original_refund - fee
  require (vault.capital ≥ original_refund) .EInsufficientCapital
  let (capital, fee_payments) ← sendPart vault.capital .treasury fee
  let (capital, refund_payments) ← sendPart capital (.address policy.insured) net_refund
  let (vault, policy) ← releasePolicy { vault with capital } policy .CANCELLED
  pure (vault, policy, fee_payments ++ refund_payments)

/-- The payout of `claim`: nothing on a draw, on an unapplicable outcome
or when the policy's own option won; otherwise the covered part of what
the insured still holds on the option, up to the covered amount. -/
def claimPayout (record : SpotObject) (policy : CoveragePolicy) (outcome : ℕ) :
    Except Abort ℕ :=
  if outcome ≠ OUTCOME_DRAW ∧ outcome ≠ OUTCOME_UNAPPLICABLE then
    if outcome ≠ policy.option_id then do
      let current_position :=
        record.record.get_user_option_amount policy.insured policy.option_id
      let eligible_amount :=
        if current_position < policy.covered_amount then current_position
        else policy.covered_amount
      let payout := eligible_amount * policy.coverage_bps / BPS_DENOM
      require (payout ≤ MAX_U64) .EOverflow
      pure payout
    else pure 0
  else pure 0

/-- `claim`, by the insured once the record is resolved and before the
policy expires: the payout leaves the capital, and the reserve is
released. -/
def claim (config : InsuranceConfig) (spot_config : SpotConfig) (vault : UnderwriterVault)
    (record : SpotObject) (policy : CoveragePolicy) (clock : ℕ) (ctx : TxContext) :
    Except Abort (UnderwriterVault × CoveragePolicy × Payments) := do
  require config.enable_flag .EDisabled
  require spot_config.enable_flag .EMarketClosed
  require (policy.status = .ACTIVE) .EPolicyNotActive
  require (ctx.sender = policy.insured) .ENotPolicyOwner
  require (policy.market_id = record.get_id_address) .EMarketMismatch
  require (policy.vault_id = vault.id) .EInvalidVault
  require record.record.is_resolved .EMarketClosed
  require (clock ≤ policy.expiry_time_ms) .EPolicyExpired
  let outcome ← expectSome .EMarketClosed record.record.outcome
  let payout ← claimPayout record policy outcome
  let (capital, payments) ← sendPart vault.capital (.address policy.insured) payout
  let (vault, policy) ← releasePolicy { vault with capital } policy .CLAIMED
  pure (vault, policy, payments)

/-- `expire_policy`, by anyone: an active policy of the vault past its
expiry releases its reserve; any other call returns at once. -/
def expire_policy (vault : UnderwriterVault) (policy : CoveragePolicy) (clock : ℕ) :
    Except Abort (UnderwriterVault × CoveragePolicy) :=
  if policy.status ≠ .ACTIVE then pure (vault, policy)
  else if policy.vault_id ≠ vault.id then pure (vault, policy)
  else if clock < policy.expiry_time_ms then pure (vault, policy)
  else releasePolicy vault policy .EXPIRED

-- ============================================================ runs

/-- A vault with the policies bought from it, each at the index of its
purchase. -/
structure Underwriting where
  vault : UnderwriterVault
  policies : List CoveragePolicy
  deriving DecidableEq, Repr

/-- The calls on a vault after its creation; a policy is named by its
index. -/
inductive InsuranceCall
  | deposit_capital (payment : ℕ)
  | withdraw_capital (amount : ℕ)
  | buy_coverage (spot_config : SpotConfig) (record : SpotObject)
      (option_id requested_coverage_amount coverage_bps duration_ms payment : ℕ)
  | cancel_coverage (spot_config : SpotConfig) (record : SpotObject) (policy : ℕ)
  | claim (spot_config : SpotConfig) (record : SpotObject) (policy : ℕ)
  | expire_policy (policy : ℕ)
  deriving DecidableEq, Repr

/-- A call with what it is made under: the configuration, the clock's
time and the transaction context. -/
structure InsuranceTx where
  config : InsuranceConfig
  clock : ℕ
  ctx : TxContext
  call : InsuranceCall
  deriving DecidableEq, Repr

/-- A call on one policy, which writes it back. A policy that does not
exist cannot be passed: such a call does nothing. -/
def onPolicy (s : Underwriting) (i : ℕ)
    (f : CoveragePolicy → Except Abort (UnderwriterVault × CoveragePolicy × Payments)) :
    Except Abort (Underwriting × Payments) :=
  match s.policies[i]? with
  | none => pure (s, [])
  | some policy => do
      let (vault, policy, payments) ← f policy
      pure (⟨vault, s.policies.set i policy⟩, payments)

/-- One call, with the coins it sends out. -/
def apply (tx : InsuranceTx) (s : Underwriting) : Except Abort (Underwriting × Payments) :=
  match tx.call with
  | .deposit_capital payment => do
      let vault ← deposit_capital tx.config s.vault payment
      pure ({ s with vault }, [])
  | .withdraw_capital amount => do
      let (vault, payments) ← withdraw_capital tx.config s.vault amount tx.ctx
      pure ({ s with vault }, payments)
  | .buy_coverage spot_config record option_id requested_coverage_amount coverage_bps duration_ms
      payment => do
      let (vault, policy, payments) ← buy_coverage tx.config spot_config s.vault record option_id
        requested_coverage_amount coverage_bps duration_ms payment tx.clock tx.ctx
      pure (⟨vault, s.policies ++ [policy]⟩, payments)
  | .cancel_coverage spot_config record i => onPolicy s i fun policy =>
      cancel_coverage tx.config spot_config s.vault record policy tx.clock tx.ctx
  | .claim spot_config record i => onPolicy s i fun policy =>
      claim tx.config spot_config s.vault record policy tx.clock tx.ctx
  | .expire_policy i => onPolicy s i fun policy => do
      let (vault, policy) ← expire_policy s.vault policy tx.clock
      pure (vault, policy, [])

/-- A call's effect: an aborted call changes nothing. -/
def step (s : Underwriting) (tx : InsuranceTx) : Underwriting :=
  match apply tx s with
  | .ok r => r.1
  | .error _ => s

/-- The vault and its policies after a sequence of calls. -/
def run (s : Underwriting) (txs : List InsuranceTx) : Underwriting :=
  txs.foldl step s

end MysoCore.Social.Insurance
