/-
Social proof tokens (myso-social/sources/social_proof_tokens.move): a
token for a post or a profile, traded against MYSO on a quadratic
bonding curve. A pool sells new tokens at the curve's price over the
next supplies and buys tokens back at the price of the last supplies;
each trade pays a fee, cut into a creator's, a platform's and the
ecosystem treasury's part.

# The model

A `TokenPool` keeps its holders table (`Table<address, u64>`) as a
sorted association list and its balance as the balance's value; a
`SocialToken` is the token object a trader holds and passes in. A
trade takes the registries it reads (who has a profile, who blocks
whom), the configuration, the pool and the sender's context, and
returns the new pool and token with the coins the call sends out, or
the abort. The `_with_platform` variants differ from the plain calls
in checking the platform (approved, joined by the sender, not blocking
the sender) and in sending the platform's part of the fee to the
platform's treasury and not the ecosystem's; each pair is one
definition here over an optional platform, and each call keeps its own
name. Events, version checks, the objects a call only passes on and the
fields nothing modelled reads (symbols, names, timestamps) are left
out.

# Arithmetic

The code's own overflow asserts against `MAX_U64` are modelled, as are
`balance::split`'s and `table::add`'s aborts. Of Move's arithmetic
aborts (`Social.Basic`) one is modelled too: a sale subtracts the
amount from the seller's holders entry, which is smaller than the
token object's amount once tokens change hands, and then aborts
(`ArithmeticError`).
-/
import MysoCore.Social.Basic
import MysoCore.Lib.SortedMap
import Mathlib

namespace MysoCore.Social.SocialProofTokens

open SortedMap ExceptFold

/-- The aborts of the modelled code, named by the source's constants. -/
inductive Abort
  | ENotAuthorized
  | EInvalidFeeConfig
  | ETokenAlreadyExists
  | EExceededMaxHold
  | EInsufficientFunds
  | ENoTokensOwned
  | EInvalidID
  | EInsufficientLiquidity
  | ESelfTrading
  | EInvalidTokenType
  | EViralThresholdNotMet
  | EBlockedUser
  | ETradingHalted
  | EOverflow
  | EUserNotJoinedPlatform
  | EUserBlockedByPlatform
  | EReservationPoolConverted
  | EAlreadyOwnsTokens
  | ETooManyReservers
  | ECannotSplit
  | ECannotMerge
  -- balance.move, for `balance::split` and `coin::split`
  | ENotEnough
  -- dynamic_field.move, for `table::add` of a key already there and
  -- `table::borrow` of a key not there
  | EFieldAlreadyExists
  | EFieldDoesNotExist
  -- Move's own abort on an arithmetic underflow
  | ArithmeticError
  deriving DecidableEq, Repr

def MAX_U64 : ℕ := 18446744073709551615

def TOKEN_TYPE_PROFILE : ℕ := 1
def TOKEN_TYPE_POST : ℕ := 2

abbrev Payments := List (Payee × ℕ)

/-- The fields of `SocialProofTokensConfig` the modelled code reads. -/
structure SocialProofTokensConfig where
  trading_creator_fee_bps : ℕ
  trading_platform_fee_bps : ℕ
  trading_treasury_fee_bps : ℕ
  reservation_creator_fee_bps : ℕ
  reservation_platform_fee_bps : ℕ
  reservation_treasury_fee_bps : ℕ
  base_price : ℕ
  quadratic_coefficient : ℕ
  max_hold_percent_bps : ℕ
  post_threshold : ℕ
  profile_threshold : ℕ
  max_individual_reservation_bps : ℕ
  max_reservers_per_pool : ℕ
  trading_enabled : Bool
  deriving DecidableEq, Repr

/-- What the registries answer: whether an address has a profile
(`profile::lookup_profile_by_owner` is `some`) and whether one address
blocks another (`block_list::is_blocked`). -/
structure Registries where
  has_profile : ℕ → Bool
  is_blocked : ℕ → ℕ → Bool

/-- What a `_with_platform` call reads about its platform: whether the
platform registry approves it (`platform::is_approved`), who joined it
(`platform::has_joined_platform`), and whom it blocks
(`block_list::is_blocked` with the platform's address as the blocker). -/
structure PlatformView where
  approved : Bool
  has_joined : ℕ → Bool
  blocks : ℕ → Bool

/-- The fields of `TokenInfo` the modelled code reads. -/
structure TokenInfo where
  token_type : ℕ
  owner : ℕ
  associated_id : ℕ
  circulating_supply : ℕ
  base_price : ℕ
  quadratic_coefficient : ℕ
  deriving DecidableEq, Repr

structure TokenPool where
  -- the pool object's address
  id : ℕ
  info : TokenInfo
  myso_balance : ℕ
  holders : List (ℕ × ℕ)
  poc_redirect_to : Option ℕ
  poc_redirect_percentage : Option ℕ
  deriving DecidableEq, Repr

structure SocialToken where
  pool_id : ℕ
  token_type : ℕ
  amount : ℕ
  deriving DecidableEq, Repr

-- ============================================================ fees

def calculate_total_fee_bps (config : SocialProofTokensConfig) : ℕ :=
  config.trading_creator_fee_bps + config.trading_platform_fee_bps + config.trading_treasury_fee_bps

def validate_trading_fees (config : SocialProofTokensConfig) : Except Abort Unit :=
  require (calculate_total_fee_bps config > 0 ∧ calculate_total_fee_bps config ≤ 10000)
    .EInvalidFeeConfig

def calculate_fee_amount_safe (amount fee_bps : ℕ) : Except Abort ℕ :=
  if amount = 0 ∨ fee_bps = 0 then pure 0
  else do
    require (amount ≤ MAX_U64 / fee_bps) .EOverflow
    pure (amount * fee_bps / 10000)

def calculate_component_fee_safe (fee_amount component_bps total_bps : ℕ) : Except Abort ℕ :=
  if fee_amount = 0 ∨ component_bps = 0 ∨ total_bps = 0 then pure 0
  else do
    require (fee_amount ≤ MAX_U64 / component_bps) .EOverflow
    pure (fee_amount * component_bps / total_bps)

/-- A trade's fee and its three parts; the treasury's is what the
creator's and the platform's leave of the fee. -/
structure TradingFees where
  fee_amount : ℕ
  creator_fee : ℕ
  platform_fee : ℕ
  treasury_fee : ℕ
  deriving DecidableEq, Repr

/-- The fee of `amount` at a total rate and its creator's and
platform's parts at their rates, as every trade and reservation
computes them once the rates are validated. -/
def splitFee (amount total_fee_bps creator_fee_bps platform_fee_bps : ℕ) :
    Except Abort TradingFees := do
  let fee_amount ← calculate_fee_amount_safe amount total_fee_bps
  let creator_fee ← calculate_component_fee_safe fee_amount creator_fee_bps total_fee_bps
  let platform_fee ← calculate_component_fee_safe fee_amount platform_fee_bps total_fee_bps
  pure ⟨fee_amount, creator_fee, platform_fee, fee_amount - creator_fee - platform_fee⟩

/-- The fee of a trade of `amount` MYSO, as every trade computes it. -/
def tradingFees (config : SocialProofTokensConfig) (amount : ℕ) : Except Abort TradingFees := do
  validate_trading_fees config
  splitFee amount (calculate_total_fee_bps config) config.trading_creator_fee_bps
    config.trading_platform_fee_bps

-- ============================================================ the curve

/-- `1² + … + n²` in closed form, under the source's overflow asserts. -/
def calculate_sum_squares (n : ℕ) : Except Abort ℕ :=
  if n = 0 then pure 0
  else do
    require (n < MAX_U64) .EOverflow
    require (n ≤ MAX_U64 / (n + 1)) .EOverflow
    let n_times_n_plus_one := n * (n + 1)
    require (n ≤ (MAX_U64 - 1) / 2) .EOverflow
    let two_n_plus_one := 2 * n + 1
    require (n_times_n_plus_one ≤ MAX_U64 / two_n_plus_one) .EOverflow
    pure (n_times_n_plus_one * two_n_plus_one / 6)

/-- The curve's price at one supply: `base_price + q * supply² / 10000`. -/
def calculate_token_price (base_price quadratic_coefficient supply : ℕ) : Except Abort ℕ := do
  require (supply = 0 ∨ supply ≤ MAX_U64 / supply) .EOverflow
  let squared_supply := supply * supply
  require (squared_supply = 0 ∨ squared_supply ≤ MAX_U64 / quadratic_coefficient) .EOverflow
  let product := quadratic_coefficient * squared_supply / 10000
  require (product ≤ MAX_U64 - base_price) .EOverflow
  pure (base_price + product)

/-- The price of `amount` tokens past `current_supply`: the curve over
the supplies `current_supply … current_supply + amount - 1`, with the
quadratic part rounded down once over the whole range; and the average
price. -/
def calculate_buy_price (base_price quadratic_coefficient current_supply amount : ℕ) :
    Except Abort (ℕ × ℕ) :=
  if amount = 0 then pure (0, 0)
  else do
    require (amount ≤ MAX_U64 / base_price) .EOverflow
    let base_component := amount * base_price
    let end_supply := current_supply + amount - 1
    let start_supply_minus_one := if current_supply = 0 then 0 else current_supply - 1
    let sum_squares_end ← calculate_sum_squares end_supply
    let sum_squares_start ← calculate_sum_squares start_supply_minus_one
    require (sum_squares_end ≥ sum_squares_start) .EOverflow
    let sum_squares_range := sum_squares_end - sum_squares_start
    require (sum_squares_range ≤ MAX_U64 / quadratic_coefficient) .EOverflow
    let quadratic_component := sum_squares_range * quadratic_coefficient / 10000
    require (base_component ≤ MAX_U64 - quadratic_component) .EOverflow
    let total_price := base_component + quadratic_component
    pure (total_price, total_price / amount)

/-- The refund for the last `amount` tokens of `current_supply`: the
curve over `current_supply - amount … current_supply - 1`. -/
def calculate_sell_price (base_price quadratic_coefficient current_supply amount : ℕ) :
    Except Abort (ℕ × ℕ) :=
  if amount = 0 then pure (0, 0)
  else do
    require (current_supply ≥ amount) .EInsufficientLiquidity
    let start_supply := current_supply - amount
    let end_supply := current_supply - 1
    require (amount ≤ MAX_U64 / base_price) .EOverflow
    let base_component := amount * base_price
    let sum_squares_end ← calculate_sum_squares end_supply
    let sum_squares_start ←
      if start_supply = 0 then pure 0 else calculate_sum_squares (start_supply - 1)
    require (sum_squares_end ≥ sum_squares_start) .EOverflow
    let sum_squares_range := sum_squares_end - sum_squares_start
    require (sum_squares_range ≤ MAX_U64 / quadratic_coefficient) .EOverflow
    let quadratic_component := sum_squares_range * quadratic_coefficient / 10000
    require (base_component ≤ MAX_U64 - quadratic_component) .EOverflow
    let total_refund := base_component + quadratic_component
    pure (total_refund, total_refund / amount)

-- ============================================================ paying the fee

def has_poc_redirection (pool : TokenPool) : Bool :=
  pool.poc_redirect_to.isSome && pool.poc_redirect_percentage.isSome

def calculate_poc_split (amount redirect_percentage : ℕ) : Except Abort (ℕ × ℕ) := do
  require (redirect_percentage ≤ 100) .EInvalidFeeConfig
  let redirected_amount := amount * redirect_percentage / 100
  pure (redirected_amount, amount - redirected_amount)

def apply_token_poc_redirection (pool : TokenPool) (amount : ℕ) : Except Abort (ℕ × ℕ) :=
  if has_poc_redirection pool then
    -- `option::borrow` of the percentage: `has_poc_redirection` says it is there
    calculate_poc_split amount (pool.poc_redirect_percentage.getD 0)
  else pure (0, amount)

/-- Where a creator fee goes once it is out of its coin: the redirected
part to the redirect address, the rest (when there is any) to the
owner. -/
def creatorFeeTransfers (redirect_to : Option ℕ) (owner creator_fee_amount redirected_amount : ℕ) :
    Payments :=
  if redirected_amount > 0 then
    -- `option::borrow` of the address: only a redirection moves anything
    (.address (redirect_to.getD 0), redirected_amount) ::
      if creator_fee_amount - redirected_amount > 0 then
        [(.address owner, creator_fee_amount - redirected_amount)]
      else []
  else [(.address owner, creator_fee_amount)]

/-- `distribute_creator_fee`: the creator fee out of a coin of `value`.
A sale's `distribute_creator_fee_from_pool` is the same with the pool's
balance as the coin. -/
def distribute_creator_fee (pool : TokenPool) (creator_fee_amount value : ℕ) :
    Except Abort (ℕ × Payments) :=
  if creator_fee_amount = 0 then pure (value, [])
  else do
    let (redirected_amount, _) ← apply_token_poc_redirection pool creator_fee_amount
    let value ← balance_split .ENotEnough value creator_fee_amount
    pure (value, creatorFeeTransfers pool.poc_redirect_to pool.info.owner creator_fee_amount
      redirected_amount)

/-- Where the platform's part of a fee goes: the ecosystem treasury,
or a `_with_platform` call's platform. -/
def platformPayee : Option PlatformView → Payee
  | none => .treasury
  | some _ => .platform

/-- One part of a fee out of a coin of `value` to its payee, when it is
not zero. -/
def sendPart (value : ℕ) (payee : Payee) (amount : ℕ) : Except Abort (ℕ × Payments) :=
  if amount > 0 then do
    let value ← balance_split .ENotEnough value amount
    pure (value, [(payee, amount)])
  else pure (value, [])

/-- The `if (fee_amount > 0)` block of every trade and reservation: the
creator's, the platform's and the treasury's parts out of `value`, the
coin the fee is paid from (the payment for a buy or a reservation, the
pool for a sale or a withdrawal). `creatorFee` pays the creator's part
out of a coin, which each call does its own way. -/
def distributeFees (creatorFee : ℕ → ℕ → Except Abort (ℕ × Payments))
    (platform : Option PlatformView) (fees : TradingFees) (value : ℕ) :
    Except Abort (ℕ × Payments) :=
  if fees.fee_amount > 0 then do
    let (value, creator) ← creatorFee fees.creator_fee value
    let (value, platformPart) ← sendPart value (platformPayee platform) fees.platform_fee
    let (value, treasuryPart) ← sendPart value .treasury fees.treasury_fee
    pure (value, creator ++ platformPart ++ treasuryPart)
  else pure (value, [])

/-- What a buy does with its payment coin: the fee out to its payees,
the price net of the fee into the pool, the change back to the buyer.
The new pool balance and the coins sent out. -/
def payForBuy (pool : TokenPool) (platform : Option PlatformView) (fees : TradingFees)
    (price payment buyer : ℕ) : Except Abort (ℕ × Payments) := do
  let (payment, fee_payments) ← distributeFees (distribute_creator_fee pool) platform fees payment
  let net_amount := price - fees.fee_amount
  let payment ← balance_split .ENotEnough payment net_amount
  pure (pool.myso_balance + net_amount,
    fee_payments ++ if payment > 0 then [(.address buyer, payment)] else [])

-- ============================================================ trades

/-- The `_with_platform` calls' validation of the platform and the
sender; nothing for the plain calls. -/
def platformChecks (platform : Option PlatformView) (user : ℕ) : Except Abort Unit :=
  match platform with
  | none => pure ()
  | some p => do
      require p.approved .ENotAuthorized
      require (p.has_joined user) .EUserNotJoinedPlatform
      require (!p.blocks user) .EUserBlockedByPlatform

/-- A buy's bound on one wallet: what it holds after the buy is at most
`max_hold_percent_bps` of the supply after the buy. -/
def checkMaxHold (config : SocialProofTokensConfig) (circulating_supply current_hold amount : ℕ) :
    Except Abort Unit := do
  require (circulating_supply ≤ MAX_U64 - amount) .EOverflow
  let new_supply := circulating_supply + amount
  require (new_supply = 0 ∨ new_supply ≤ MAX_U64 / config.max_hold_percent_bps) .EOverflow
  let max_hold := new_supply * config.max_hold_percent_bps / 10000
  require (current_hold ≤ MAX_U64 - amount) .EOverflow
  require (current_hold + amount ≤ max_hold) .EExceededMaxHold

/-- `table::add`: a new key's entry, or the abort when the key is there. -/
def table_add (k v : ℕ) (t : List (ℕ × ℕ)) : Except Abort (List (ℕ × ℕ)) :=
  match lookup k t with
  | some _ => throw .EFieldAlreadyExists
  | none => pure (alter k (fun _ => v) t)

/-- `buy_tokens` and `buy_tokens_with_platform`: a first purchase. The
buyer must hold nothing yet; the pool mints the buyer a new token. -/
def buyFirstTokens (registries : Registries) (platform : Option PlatformView)
    (config : SocialProofTokensConfig) (pool : TokenPool) (payment amount : ℕ) (ctx : TxContext) :
    Except Abort (TokenPool × SocialToken × Payments) := do
  require config.trading_enabled .ETradingHalted
  let buyer := ctx.sender
  require (registries.has_profile buyer) .ENotAuthorized
  platformChecks platform buyer
  require (buyer ≠ pool.info.owner) .ESelfTrading
  require (!registries.is_blocked buyer pool.info.owner) .EBlockedUser
  let (price, _) ← calculate_buy_price pool.info.base_price pool.info.quadratic_coefficient
    pool.info.circulating_supply amount
  require (payment ≥ price) .EInsufficientFunds
  let fees ← tradingFees config price
  let (myso_balance, payments) ← payForBuy pool platform fees price payment buyer
  let current_hold := (lookup buyer pool.holders).getD 0
  checkMaxHold config pool.info.circulating_supply current_hold amount
  require (current_hold = 0) .EAlreadyOwnsTokens
  let holders ← table_add buyer amount pool.holders
  require (pool.info.circulating_supply ≤ MAX_U64 - amount) .EOverflow
  let circulating_supply := pool.info.circulating_supply + amount
  -- the new price goes to the event only, but its asserts can abort the call
  let _ ← calculate_token_price pool.info.base_price pool.info.quadratic_coefficient
    circulating_supply
  pure ({ pool with info := { pool.info with circulating_supply }, myso_balance, holders },
    ⟨pool.id, pool.info.token_type, amount⟩, payments)

/-- A holders entry grown by an amount, or added by `table::add` when
there is none: a further purchase's update of the buyer's entry, and
the new pool's credit of each reserver and of the owner. -/
def creditHolder (holders : List (ℕ × ℕ)) (holder amount : ℕ) : Except Abort (List (ℕ × ℕ)) :=
  match lookup holder holders with
  | some holder_balance => do
      require (holder_balance ≤ MAX_U64 - amount) .EOverflow
      pure (alter holder (fun _ => holder_balance + amount) holders)
  | none => table_add holder amount holders

/-- `buy_more_tokens` and `buy_more_tokens_with_platform`: a purchase
onto a token the buyer passes in, which must be of this pool. -/
def buyMoreTokens (registries : Registries) (platform : Option PlatformView)
    (config : SocialProofTokensConfig) (pool : TokenPool) (payment amount : ℕ)
    (social_token : SocialToken) (ctx : TxContext) :
    Except Abort (TokenPool × SocialToken × Payments) := do
  require config.trading_enabled .ETradingHalted
  let buyer := ctx.sender
  require (registries.has_profile buyer) .ENotAuthorized
  platformChecks platform buyer
  require (buyer ≠ pool.info.owner) .ESelfTrading
  require (!registries.is_blocked buyer pool.info.owner) .EBlockedUser
  require (social_token.pool_id = pool.id) .EInvalidID
  let (price, _) ← calculate_buy_price pool.info.base_price pool.info.quadratic_coefficient
    pool.info.circulating_supply amount
  require (payment ≥ price) .EInsufficientFunds
  let fees ← tradingFees config price
  let (myso_balance, payments) ← payForBuy pool platform fees price payment buyer
  let current_hold := (lookup buyer pool.holders).getD 0
  checkMaxHold config pool.info.circulating_supply current_hold amount
  let holders ← creditHolder pool.holders buyer amount
  require (pool.info.circulating_supply ≤ MAX_U64 - amount) .EOverflow
  let circulating_supply := pool.info.circulating_supply + amount
  require (social_token.amount ≤ MAX_U64 - amount) .EOverflow
  let _ ← calculate_token_price pool.info.base_price pool.info.quadratic_coefficient
    circulating_supply
  pure ({ pool with info := { pool.info with circulating_supply }, myso_balance, holders },
    { social_token with amount := social_token.amount + amount }, payments)

/-- A sale's update of the seller's holders entry: dropped when the
sale is all of it, lowered otherwise. -/
def sellHolders (holders : List (ℕ × ℕ)) (seller holder_balance amount : ℕ) :
    Except Abort (List (ℕ × ℕ)) :=
  if holder_balance = amount then pure (eraseKey seller holders)
  else do
    require (amount ≤ holder_balance) .ArithmeticError
    pure (alter seller (fun _ => holder_balance - amount) holders)

/-- `sell_tokens` and `sell_tokens_with_platform`: the pool buys back
`amount` of the seller's token at the curve's refund, pays the
seller the refund net of the fee and pays the fee out of its balance
too. -/
def sellTokens (registries : Registries) (platform : Option PlatformView)
    (config : SocialProofTokensConfig) (pool : TokenPool) (social_token : SocialToken)
    (amount : ℕ) (ctx : TxContext) : Except Abort (TokenPool × SocialToken × Payments) := do
  require config.trading_enabled .ETradingHalted
  let seller := ctx.sender
  require (registries.has_profile seller) .ENotAuthorized
  platformChecks platform seller
  require (social_token.pool_id = pool.id) .EInvalidID
  require (social_token.amount ≥ amount) .EInsufficientLiquidity
  let (refund_amount, _) ← calculate_sell_price pool.info.base_price
    pool.info.quadratic_coefficient pool.info.circulating_supply amount
  let fees ← tradingFees config refund_amount
  let net_refund := refund_amount - fees.fee_amount
  require (pool.myso_balance ≥ refund_amount) .EInsufficientLiquidity
  match lookup seller pool.holders with
  | none => throw .ENoTokensOwned
  | some holder_balance => do
      let holders ← sellHolders pool.holders seller holder_balance amount
      let circulating_supply := pool.info.circulating_supply - amount
      let myso_balance ← balance_split .ENotEnough pool.myso_balance net_refund
      -- the fee comes out of the pool's balance after the refund
      let (myso_balance, fee_payments) ←
        distributeFees (distribute_creator_fee pool) platform fees myso_balance
      let _ ← calculate_token_price pool.info.base_price pool.info.quadratic_coefficient
        circulating_supply
      pure ({ pool with info := { pool.info with circulating_supply }, myso_balance, holders },
        { social_token with amount := social_token.amount - amount },
        fee_payments ++ [(.address seller, net_refund)])

def buy_tokens (registries : Registries) (config : SocialProofTokensConfig) (pool : TokenPool)
    (payment amount : ℕ) (ctx : TxContext) : Except Abort (TokenPool × SocialToken × Payments) :=
  buyFirstTokens registries none config pool payment amount ctx

def buy_tokens_with_platform (registries : Registries) (platform : PlatformView)
    (config : SocialProofTokensConfig) (pool : TokenPool) (payment amount : ℕ) (ctx : TxContext) :
    Except Abort (TokenPool × SocialToken × Payments) :=
  buyFirstTokens registries (some platform) config pool payment amount ctx

def buy_more_tokens (registries : Registries) (config : SocialProofTokensConfig)
    (pool : TokenPool) (payment amount : ℕ) (social_token : SocialToken) (ctx : TxContext) :
    Except Abort (TokenPool × SocialToken × Payments) :=
  buyMoreTokens registries none config pool payment amount social_token ctx

def buy_more_tokens_with_platform (registries : Registries) (platform : PlatformView)
    (config : SocialProofTokensConfig) (pool : TokenPool) (payment amount : ℕ)
    (social_token : SocialToken) (ctx : TxContext) :
    Except Abort (TokenPool × SocialToken × Payments) :=
  buyMoreTokens registries (some platform) config pool payment amount social_token ctx

def sell_tokens (registries : Registries) (config : SocialProofTokensConfig) (pool : TokenPool)
    (social_token : SocialToken) (amount : ℕ) (ctx : TxContext) :
    Except Abort (TokenPool × SocialToken × Payments) :=
  sellTokens registries none config pool social_token amount ctx

def sell_tokens_with_platform (registries : Registries) (platform : PlatformView)
    (config : SocialProofTokensConfig) (pool : TokenPool) (social_token : SocialToken)
    (amount : ℕ) (ctx : TxContext) : Except Abort (TokenPool × SocialToken × Payments) :=
  sellTokens registries (some platform) config pool social_token amount ctx

-- ============================================================ runs

/-- A trade on one pool, with the token object the trader passes in
where the call takes one. -/
inductive TradeCall
  | buy_tokens (payment amount : ℕ)
  | buy_tokens_with_platform (platform : PlatformView) (payment amount : ℕ)
  | buy_more_tokens (payment amount : ℕ) (social_token : SocialToken)
  | buy_more_tokens_with_platform (platform : PlatformView) (payment amount : ℕ)
      (social_token : SocialToken)
  | sell_tokens (social_token : SocialToken) (amount : ℕ)
  | sell_tokens_with_platform (platform : PlatformView) (social_token : SocialToken) (amount : ℕ)

/-- One trade on a pool. -/
def apply (registries : Registries) (config : SocialProofTokensConfig)
    (pool : TokenPool) (ctx : TxContext) : TradeCall → Except Abort (TokenPool × SocialToken × Payments)
  | .buy_tokens payment amount => buy_tokens registries config pool payment amount ctx
  | .buy_tokens_with_platform platform payment amount =>
      buy_tokens_with_platform registries platform config pool payment amount ctx
  | .buy_more_tokens payment amount t => buy_more_tokens registries config pool payment amount t ctx
  | .buy_more_tokens_with_platform platform payment amount t =>
      buy_more_tokens_with_platform registries platform config pool payment amount t ctx
  | .sell_tokens t amount => sell_tokens registries config pool t amount ctx
  | .sell_tokens_with_platform platform t amount =>
      sell_tokens_with_platform registries platform config pool t amount ctx

/-- A trade made under the registries and configuration of its
transaction; an aborted trade leaves the pool as it was. -/
def step (pool : TokenPool)
    (call : Registries × SocialProofTokensConfig × TxContext × TradeCall) : TokenPool :=
  match apply call.1 call.2.1 pool call.2.2.1 call.2.2.2 with
  | .ok (pool', _, _) => pool'
  | .error _ => pool

def run (pool : TokenPool)
    (calls : List (Registries × SocialProofTokensConfig × TxContext × TradeCall)) : TokenPool :=
  calls.foldl step pool

end MysoCore.Social.SocialProofTokens
