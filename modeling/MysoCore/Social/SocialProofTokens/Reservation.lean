/-
Reservations towards a post's or a profile's token
(social_proof_tokens.move, the reservation functions and
`create_social_proof_token`): before a token exists, anyone may reserve
MYSO towards it in its reservation pool, paying a fee; once the
registry's total reaches the threshold, the owner converts the pool
into the token's pool, sharing the initial supply among the reservers
in proportion to what each reserved and giving the owner what rounding
leaves.

# The model

A `ReservationPoolObject` keeps its reservations table as a sorted
association list, its reservers vector as a list and its balance as
the balance's value; the `TokenRegistry` keeps its two tables, keyed by
the post's or profile's address. What a call reads of the post or
profile it reserves towards is its `ReservationTarget`. The four
`reserve_towards_*` entry points are one definition over the target
and an optional platform, each under its own name; the two withdrawals
differ in more than the platform (the platform variant charges a fee
and pays it out of the pool), and keep a body each. The address of the
new token pool that `object::new` gives is an argument of the
conversion.
-/
import MysoCore.Social.SocialProofTokens

namespace MysoCore.Social.SocialProofTokens

open SortedMap ExceptFold

/-- The fields of `ReservationPool` the modelled code reads. -/
structure ReservationPool where
  associated_id : ℕ
  token_type : ℕ
  owner : ℕ
  total_reserved : ℕ
  required_threshold : ℕ
  deriving DecidableEq, Repr

structure ReservationPoolObject where
  info : ReservationPool
  myso_balance : ℕ
  reservations : List (ℕ × ℕ)
  reservers : List ℕ
  converted : Bool
  deriving DecidableEq, Repr

/-- The registry's tables, keyed by a post's or profile's address. -/
structure TokenRegistry where
  tokens : List (ℕ × TokenInfo)
  reservation_pools : List (ℕ × ReservationPool)
  deriving DecidableEq, Repr

/-- What the reservation calls read of a post: its address, its owner
and its revenue redirection (`post::get_revenue_redirect_to` and
`post::get_revenue_redirect_percentage`). -/
structure PostView where
  id : ℕ
  owner : ℕ
  revenue_redirect_to : Option ℕ
  revenue_redirect_percentage : Option ℕ
  deriving DecidableEq, Repr

/-- What opening a profile's reservation pool reads of the profile. -/
structure ProfileView where
  id : ℕ
  owner : ℕ
  deriving DecidableEq, Repr

/-- What a reservation is towards: a post, whose object the call passes
in, or a profile. -/
inductive ReservationTarget
  | post (post : PostView)
  | profile
  deriving DecidableEq, Repr

def ReservationTarget.token_type : ReservationTarget → ℕ
  | .post _ => TOKEN_TYPE_POST
  | .profile => TOKEN_TYPE_PROFILE

/-- The threshold a target's reservations count towards. -/
def ReservationTarget.threshold (config : SocialProofTokensConfig) : ReservationTarget → ℕ
  | .post _ => config.post_threshold
  | .profile => config.profile_threshold

-- ============================================================ fees

def calculate_reservation_total_fee_bps (config : SocialProofTokensConfig) : ℕ :=
  config.reservation_creator_fee_bps + config.reservation_platform_fee_bps +
    config.reservation_treasury_fee_bps

def validate_reservation_fees (config : SocialProofTokensConfig) : Except Abort Unit :=
  require (calculate_reservation_total_fee_bps config > 0 ∧
    calculate_reservation_total_fee_bps config ≤ 10000) .EInvalidFeeConfig

/-- The fee of a reservation or a withdrawal of `amount`. -/
def reservationFees (config : SocialProofTokensConfig) (amount : ℕ) : Except Abort TradingFees := do
  validate_reservation_fees config
  splitFee amount (calculate_reservation_total_fee_bps config) config.reservation_creator_fee_bps
    config.reservation_platform_fee_bps

def apply_post_poc_redirection (post : PostView) (amount : ℕ) : Except Abort (ℕ × ℕ) :=
  if post.revenue_redirect_to.isSome && post.revenue_redirect_percentage.isSome then do
    let redirect_percentage := post.revenue_redirect_percentage.getD 0
    require (redirect_percentage ≤ 100) .EInvalidFeeConfig
    calculate_poc_split amount redirect_percentage
  else pure (0, amount)

/-- `distribute_reservation_creator_fee`: a post reservation's creator
fee out of a coin of `value`, through the post's redirection. -/
def distribute_reservation_creator_fee (reservation_pool : ReservationPoolObject) (post : PostView)
    (creator_fee_amount value : ℕ) : Except Abort (ℕ × Payments) :=
  if creator_fee_amount = 0 then pure (value, [])
  else do
    let (redirected_amount, _) ← apply_post_poc_redirection post creator_fee_amount
    let value ← balance_split .ENotEnough value creator_fee_amount
    pure (value, creatorFeeTransfers post.revenue_redirect_to reservation_pool.info.owner
      creator_fee_amount redirected_amount)

def distribute_reservation_creator_fee_no_poc (reservation_pool : ReservationPoolObject)
    (creator_fee_amount value : ℕ) : Except Abort (ℕ × Payments) :=
  if creator_fee_amount = 0 then pure (value, [])
  else do
    let value ← balance_split .ENotEnough value creator_fee_amount
    pure (value, [(.address reservation_pool.info.owner, creator_fee_amount)])

/-- The creator's part of a reservation's fee: through the post's
redirection for a post, straight to the owner for a profile. -/
def reservationCreatorFee (reservation_pool : ReservationPoolObject) :
    ReservationTarget → ℕ → ℕ → Except Abort (ℕ × Payments)
  | .post post => distribute_reservation_creator_fee reservation_pool post
  | .profile => distribute_reservation_creator_fee_no_poc reservation_pool

/-- `distribute_reservation_fees_with_post` and its siblings
(`_with_post_and_platform`, `_no_poc`, `_no_poc_with_platform`): the fee
of `amount` out of the payment. What is left of the payment, the fee,
and the coins sent out. -/
def distributeReservationFees (config : SocialProofTokensConfig)
    (reservation_pool : ReservationPoolObject) (target : ReservationTarget)
    (platform : Option PlatformView) (amount payment : ℕ) :
    Except Abort (ℕ × TradingFees × Payments) := do
  let fees ← reservationFees config amount
  let (payment, fee_payments) ←
    distributeFees (reservationCreatorFee reservation_pool target) platform fees payment
  pure (payment, fees, fee_payments)

-- ============================================================ opening a pool

/-- `create_reservation_pool_for_post` and
`create_reservation_pool_for_profile`: the owner of the post or profile
at `associated_id` opens its reservation pool, empty, with an entry in
the registry. -/
def createReservationPool (target : ReservationTarget) (config : SocialProofTokensConfig)
    (registry : TokenRegistry) (associated_id owner : ℕ) (ctx : TxContext) :
    Except Abort (TokenRegistry × ReservationPoolObject) := do
  require config.trading_enabled .ETradingHalted
  require (ctx.sender = owner) .ENotAuthorized
  require (lookup associated_id registry.reservation_pools = none) .ETokenAlreadyExists
  let info : ReservationPool :=
    ⟨associated_id, target.token_type, owner, 0, target.threshold config⟩
  pure ({ registry with
      reservation_pools := alter associated_id (fun _ => info) registry.reservation_pools },
    ⟨info, 0, [], [], false⟩)

def create_reservation_pool_for_post (registry : TokenRegistry) (config : SocialProofTokensConfig)
    (post : PostView) (ctx : TxContext) : Except Abort (TokenRegistry × ReservationPoolObject) :=
  createReservationPool (.post post) config registry post.id post.owner ctx

def create_reservation_pool_for_profile (registry : TokenRegistry)
    (config : SocialProofTokensConfig) (profile : ProfileView) (ctx : TxContext) :
    Except Abort (TokenRegistry × ReservationPoolObject) :=
  createReservationPool .profile config registry profile.id profile.owner ctx

-- ============================================================ reservations

/-- A post's reservation checks that the post is the pool's; a
profile's reads no object. -/
def targetChecks (target : ReservationTarget) (associated_id : ℕ) : Except Abort Unit :=
  match target with
  | .post post => require (post.id = associated_id) .EInvalidID
  | .profile => pure ()

/-- The amount a reservation counts: all of it when the payment covers
the fee on top, else the amount less the fee. -/
def reservationNet (payment amount fee_amount : ℕ) : Except Abort ℕ :=
  if payment ≥ amount + fee_amount then pure amount
  else do
    require (payment ≥ amount) .EInsufficientFunds
    pure (amount - fee_amount)

/-- A reservation's update of the table and of the reservers: an entry
there grows; a new reserver, within the limit, gets an entry and goes to
the end of the list. -/
def addReservation (config : SocialProofTokensConfig) (pool : ReservationPoolObject)
    (reserver net_amount : ℕ) : Except Abort (List (ℕ × ℕ) × List ℕ) :=
  match lookup reserver pool.reservations with
  | some reservation_balance => do
      require (reservation_balance ≤ MAX_U64 - net_amount) .EOverflow
      pure (alter reserver (fun _ => reservation_balance + net_amount) pool.reservations,
        pool.reservers)
  | none => do
      require (pool.reservers.length < config.max_reservers_per_pool) .ETooManyReservers
      let reservations ← table_add reserver net_amount pool.reservations
      pure (reservations, pool.reservers ++ [reserver])

/-- The registry's entry for a pool set to the pool's new total, when
the registry has one. -/
def registryMirror (registry : TokenRegistry) (associated_id total_reserved : ℕ) : TokenRegistry :=
  match lookup associated_id registry.reservation_pools with
  | some registry_pool =>
      { registry with
        reservation_pools := alter associated_id (fun _ => { registry_pool with total_reserved })
          registry.reservation_pools }
  | none => registry

/-- The registry after a reservation: its entry mirrors the pool's new
total, and a pool the registry has no entry for gets one. -/
def registryReserve (registry : TokenRegistry) (target : ReservationTarget)
    (config : SocialProofTokensConfig) (info : ReservationPool) : TokenRegistry :=
  match lookup info.associated_id registry.reservation_pools with
  | some _ => registryMirror registry info.associated_id info.total_reserved
  | none =>
      { registry with
        reservation_pools := alter info.associated_id
          (fun _ => ⟨info.associated_id, target.token_type, info.owner, info.total_reserved,
            target.threshold config⟩)
          registry.reservation_pools }

/-- The four `reserve_towards_*` entry points: the sender reserves
`amount` towards the pool's post or profile, the fee on top when the
payment covers it and out of the amount otherwise; the change goes back. -/
def reserveTowards (target : ReservationTarget) (platform : Option PlatformView)
    (config : SocialProofTokensConfig) (registry : TokenRegistry) (pool : ReservationPoolObject)
    (payment amount : ℕ) (ctx : TxContext) :
    Except Abort (TokenRegistry × ReservationPoolObject × Payments) := do
  require config.trading_enabled .ETradingHalted
  require (!pool.converted) .EReservationPoolConverted
  let reserver := ctx.sender
  require (pool.info.token_type = target.token_type) .EInvalidTokenType
  targetChecks target pool.info.associated_id
  require (payment ≥ amount ∧ amount > 0) .EInsufficientFunds
  platformChecks platform reserver
  validate_reservation_fees config
  let fee_amount ← calculate_fee_amount_safe amount (calculate_reservation_total_fee_bps config)
  let net_amount ← reservationNet payment amount fee_amount
  let (remaining_payment, _, fee_payments) ←
    distributeReservationFees config pool target platform amount payment
  let max_individual_reservation :=
    target.threshold config * config.max_individual_reservation_bps / 10000
  let current_reservation := (lookup reserver pool.reservations).getD 0
  require (current_reservation + net_amount ≤ max_individual_reservation) .EExceededMaxHold
  let remaining_payment ← balance_split .ENotEnough remaining_payment net_amount
  let (reservations, reservers) ← addReservation config pool reserver net_amount
  require (pool.info.total_reserved ≤ MAX_U64 - net_amount) .EOverflow
  let info := { pool.info with total_reserved := pool.info.total_reserved + net_amount }
  pure (registryReserve registry target config info,
    { pool with info, myso_balance := pool.myso_balance + net_amount, reservations, reservers },
    fee_payments ++ if remaining_payment > 0 then [(.address reserver, remaining_payment)] else [])

def reserve_towards_post (registry : TokenRegistry) (config : SocialProofTokensConfig)
    (pool : ReservationPoolObject) (post : PostView) (payment amount : ℕ) (ctx : TxContext) :
    Except Abort (TokenRegistry × ReservationPoolObject × Payments) :=
  reserveTowards (.post post) none config registry pool payment amount ctx

def reserve_towards_post_with_platform (registry : TokenRegistry)
    (config : SocialProofTokensConfig) (pool : ReservationPoolObject) (platform : PlatformView)
    (post : PostView) (payment amount : ℕ) (ctx : TxContext) :
    Except Abort (TokenRegistry × ReservationPoolObject × Payments) :=
  reserveTowards (.post post) (some platform) config registry pool payment amount ctx

def reserve_towards_profile (registry : TokenRegistry) (config : SocialProofTokensConfig)
    (pool : ReservationPoolObject) (payment amount : ℕ) (ctx : TxContext) :
    Except Abort (TokenRegistry × ReservationPoolObject × Payments) :=
  reserveTowards .profile none config registry pool payment amount ctx

def reserve_towards_profile_with_platform (registry : TokenRegistry)
    (config : SocialProofTokensConfig) (pool : ReservationPoolObject) (platform : PlatformView)
    (payment amount : ℕ) (ctx : TxContext) :
    Except Abort (TokenRegistry × ReservationPoolObject × Payments) :=
  reserveTowards .profile (some platform) config registry pool payment amount ctx

-- ============================================================ withdrawals

/-- A withdrawal's update of the table and of the reservers: an entry
that goes to nothing is dropped, and so is the reserver's first place
in the list (the loop's `vector::remove` and `break`); otherwise the
entry is lowered. -/
def removeReservation (pool : ReservationPoolObject) (reserver current_reservation amount : ℕ) :
    List (ℕ × ℕ) × List ℕ :=
  if current_reservation = amount then
    (eraseKey reserver pool.reservations, pool.reservers.erase reserver)
  else (alter reserver (fun _ => current_reservation - amount) pool.reservations, pool.reservers)

/-- `withdraw_reservation`: the sender takes back `amount` of what they
reserved, with no fee. -/
def withdraw_reservation (registry : TokenRegistry) (pool : ReservationPoolObject) (amount : ℕ)
    (ctx : TxContext) : Except Abort (TokenRegistry × ReservationPoolObject × Payments) := do
  let reserver := ctx.sender
  require (!pool.converted) .EReservationPoolConverted
  require (amount > 0) .EInsufficientFunds
  match lookup reserver pool.reservations with
  | none => throw .ENoTokensOwned
  | some current_reservation => do
      require (current_reservation ≥ amount) .EInsufficientLiquidity
      require (pool.myso_balance ≥ amount) .EInsufficientLiquidity
      let (reservations, reservers) := removeReservation pool reserver current_reservation amount
      let total_reserved := pool.info.total_reserved - amount
      let myso_balance ← balance_split .ENotEnough pool.myso_balance amount
      pure (registryMirror registry pool.info.associated_id total_reserved,
        { pool with
          info := { pool.info with total_reserved }
          myso_balance
          reservations
          reservers },
        [(.address reserver, amount)])

/-- `withdraw_reservation_with_platform`: the sender withdraws `amount`
gross; the fee on it is paid out of the pool, and the reservation and
the total are lowered by the amount net of the fee. -/
def withdraw_reservation_with_platform (registry : TokenRegistry)
    (config : SocialProofTokensConfig) (pool : ReservationPoolObject) (platform : PlatformView)
    (amount : ℕ) (ctx : TxContext) :
    Except Abort (TokenRegistry × ReservationPoolObject × Payments) := do
  let reserver := ctx.sender
  require (!pool.converted) .EReservationPoolConverted
  require (amount > 0) .EInsufficientFunds
  platformChecks (some platform) reserver
  match lookup reserver pool.reservations with
  | none => throw .ENoTokensOwned
  | some current_reservation => do
      let fees ← reservationFees config amount
      let net_amount := amount - fees.fee_amount
      require (current_reservation ≥ net_amount) .EInsufficientLiquidity
      require (pool.myso_balance ≥ amount) .EInsufficientLiquidity
      let (reservations, reservers) :=
        removeReservation pool reserver current_reservation net_amount
      let total_reserved := pool.info.total_reserved - net_amount
      -- the fee out of the pool, the creator's part straight to the owner
      let (myso_balance, fee_payments) ←
        distributeFees (fun creator_fee value => sendPart value (.address pool.info.owner) creator_fee)
          (some platform) fees pool.myso_balance
      let myso_balance ← balance_split .ENotEnough myso_balance net_amount
      pure (registryMirror registry pool.info.associated_id total_reserved,
        { pool with
          info := { pool.info with total_reserved }
          myso_balance
          reservations
          reservers },
        fee_payments ++ [(.address reserver, net_amount)])

-- ============================================================ conversion

/-- `can_create_auction`: the registry's total for the pool has reached
the registry's threshold. -/
def can_create_auction (registry : TokenRegistry) (associated_id : ℕ) : Bool :=
  match lookup associated_id registry.reservation_pools with
  | some reservation_pool => decide (reservation_pool.total_reserved ≥ reservation_pool.required_threshold)
  | none => false

/-- The supply a conversion mints: `total_reserved ^ 0.75 / 1000` by
integer square roots (`math::sqrt` rounds down, as `Nat.sqrt`), ten
times that for a post, and at least one token. -/
def initialSupply (token_type total_reserved : ℕ) : Except Abort ℕ := do
  let sqrt_reserved := Nat.sqrt total_reserved
  let fourth_root_reserved := Nat.sqrt sqrt_reserved
  require (sqrt_reserved = 0 ∨ sqrt_reserved ≤ MAX_U64 / fourth_root_reserved) .EOverflow
  let scale_factor := sqrt_reserved * fourth_root_reserved / 1000
  let initial_token_supply :=
    if token_type = TOKEN_TYPE_PROFILE then scale_factor else scale_factor * 10
  pure (if initial_token_supply = 0 then 1 else initial_token_supply)

/-- What the distribution loop carries: the new pool's holders, the
tokens handed out so far, and the token objects sent to reservers. -/
structure Distribution where
  holders : List (ℕ × ℕ)
  distributed_total : ℕ
  minted : List (ℕ × SocialToken)
  deriving DecidableEq, Repr

/-- One turn of the distribution loop: the reserver's share of the
supply, `reservation * supply / total_reserved` rounded down, when it is
not zero. -/
def distributeShare (reservations : List (ℕ × ℕ)) (pool_address token_type initial_token_supply
    total_reserved : ℕ) (acc : Distribution) (reserver : ℕ) : Except Abort Distribution :=
  match lookup reserver reservations with
  | none => throw .EFieldDoesNotExist
  | some reservation_amount => do
      require (reservation_amount ≤ MAX_U64 / initial_token_supply) .EOverflow
      let token_amount := reservation_amount * initial_token_supply / total_reserved
      if token_amount > 0 then do
        let holders ← creditHolder acc.holders reserver token_amount
        require (acc.distributed_total ≤ MAX_U64 - token_amount) .EOverflow
        pure ⟨holders, acc.distributed_total + token_amount,
          acc.minted ++ [(reserver, ⟨pool_address, token_type, token_amount⟩)]⟩
      else pure acc

/-- What rounding leaves of the initial supply goes to the owner. -/
def creditRemainder (holders : List (ℕ × ℕ)) (owner remainder : ℕ) :
    Except Abort (List (ℕ × ℕ)) :=
  if remainder > 0 then creditHolder holders owner remainder else pure holders

/-- `create_social_proof_token`: the owner converts a pool whose
registry total has reached its threshold into the token's pool, at the
address `pool_address`. The new registry, the emptied reservation pool,
the token's pool and the tokens sent to the reservers. -/
def create_social_proof_token (config : SocialProofTokensConfig) (registry : TokenRegistry)
    (pool : ReservationPoolObject) (pool_address : ℕ) (ctx : TxContext) :
    Except Abort (TokenRegistry × ReservationPoolObject × TokenPool × List (ℕ × SocialToken)) := do
  require config.trading_enabled .ETradingHalted
  let associated_id := pool.info.associated_id
  require (ctx.sender = pool.info.owner) .ENotAuthorized
  require (can_create_auction registry associated_id) .EViralThresholdNotMet
  require (lookup associated_id registry.tokens = none) .ETokenAlreadyExists
  let total_reserved := pool.info.total_reserved
  let initial_token_supply ← initialSupply pool.info.token_type total_reserved
  require (pool.reservers.length ≤ config.max_reservers_per_pool) .ETooManyReservers
  let acc ← pool.reservers.foldlM
    (distributeShare pool.reservations pool_address pool.info.token_type initial_token_supply
      total_reserved) ⟨[], 0, []⟩
  let remainder := initial_token_supply - acc.distributed_total
  let holders ← creditRemainder acc.holders pool.info.owner remainder
  let distributed_total := acc.distributed_total + remainder
  let info : TokenInfo := ⟨pool.info.token_type, pool.info.owner, associated_id, distributed_total,
    config.base_price, config.quadratic_coefficient⟩
  let registry := registryMirror registry associated_id 0
  pure ({ registry with tokens := alter associated_id (fun _ => info) registry.tokens },
    { pool with
      info := { pool.info with total_reserved := 0 }
      myso_balance := 0
      converted := true },
    ⟨pool_address, info, pool.myso_balance, holders, none, none⟩,
    acc.minted)

-- ============================================================ runs

/-- A call on one reservation pool before its conversion. -/
inductive ReservationCall
  | reserve (target : ReservationTarget) (platform : Option PlatformView) (payment amount : ℕ)
  | withdraw_reservation (amount : ℕ)
  | withdraw_reservation_with_platform (platform : PlatformView) (amount : ℕ)

/-- One call on the registry and the pool. -/
def applyReservation (config : SocialProofTokensConfig) (registry : TokenRegistry)
    (pool : ReservationPoolObject) (ctx : TxContext) :
    ReservationCall → Except Abort (TokenRegistry × ReservationPoolObject × Payments)
  | .reserve target platform payment amount =>
      reserveTowards target platform config registry pool payment amount ctx
  | .withdraw_reservation amount => withdraw_reservation registry pool amount ctx
  | .withdraw_reservation_with_platform platform amount =>
      withdraw_reservation_with_platform registry config pool platform amount ctx

/-- A call made under the configuration and the context of its
transaction; an aborted call leaves the registry and the pool as they
were. -/
def reservationStep (s : TokenRegistry × ReservationPoolObject)
    (call : SocialProofTokensConfig × TxContext × ReservationCall) :
    TokenRegistry × ReservationPoolObject :=
  match applyReservation call.1 s.1 s.2 call.2.1 call.2.2 with
  | .ok (registry, pool, _) => (registry, pool)
  | .error _ => s

def reservationRun (s : TokenRegistry × ReservationPoolObject)
    (calls : List (SocialProofTokensConfig × TxContext × ReservationCall)) :
    TokenRegistry × ReservationPoolObject :=
  calls.foldl reservationStep s

end MysoCore.Social.SocialProofTokens
