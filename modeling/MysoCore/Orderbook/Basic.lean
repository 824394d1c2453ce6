/-
The arithmetic and the value types the order book is built from
(orderbook/sources/helper/constants.move, helper/math.move,
state/balances.move, vault/myso_price.move).

# Numbers and aborts

Move's `u64` and `u128` are natural numbers here. Move aborts a
transaction on overflow, on underflow and on division by zero, and an
aborted transaction changes nothing; a run of the source that does not
abort computes the same values as the model, so every theorem over the
model's runs holds of the source's successful runs. The aborts the code
raises itself (`assert!` and `abort`) are modelled, each by the source's
error constant: they are the `Abort` a modelled function returns.

That covers what holds of the states a run reaches, not which calls
abort: a result that a call aborts only on its own checks speaks of the
model's aborts, and an overflow abort the model leaves out is not among
them. Where an abort result would rest on an addition, the model keeps
its overflow (`account.Account.add_stake`, and `u64_add` under it).

# Fixed point

`math::mul` and `math::div` are fixed-point operations with nine decimal
places, both rounding down; fees and prices are numbers of that scale.
A product rounded down and divided back falls short whenever it was not
exact (`math.div_mul_lt`).
-/
import Mathlib

namespace MysoCore.Orderbook

/-- The aborts of the modelled code, named by the source's constants. -/
inductive Abort
  -- book.move
  | EInvalidAmountIn
  -- order_info.move
  | EOrderInvalidPrice
  | EOrderBelowMinimumSize
  | EOrderInvalidLotSize
  | EInvalidExpireTimestamp
  | EInvalidOrderType
  | EPOSTOrderCrossesOrderbook
  | EFOKOrderCannotBeFullyFilled
  | EMarketOrderCannotBePostOnly
  | ESelfMatchingCancelTaker
  -- big_vector.move
  | ENotFound
  | EExists
  -- math.move and vec_set.move
  | EInvalidPrecision
  | EKeyAlreadyExists
  -- balance_manager.move and balance.move
  | EBalanceManagerBalanceTooLow
  | ENotEnough
  -- state.move and pool.move
  | EMaxOpenOrders
  | EInvalidQuantityIn
  | EMinimumQuantityOutNotMet
  deriving DecidableEq, Repr

-- ============================================================ constants

namespace constants

def float_scaling : ℕ := 1_000_000_000
def fee_penalty_multiplier : ℕ := 1_250_000_000
def max_fills : ℕ := 100
def min_price : ℕ := 1
def max_price : ℕ := 2 ^ 63 - 1

-- order types
def no_restriction : ℕ := 0
def immediate_or_cancel : ℕ := 1
def fill_or_kill : ℕ := 2
def post_only : ℕ := 3
def max_restriction : ℕ := 3

-- self-matching options
def self_matching_allowed : ℕ := 0
def cancel_taker : ℕ := 1
def cancel_maker : ℕ := 2

-- order statuses
def live : ℕ := 0
def partially_filled : ℕ := 1
def filled : ℕ := 2
def canceled : ℕ := 3
def expired : ℕ := 4

def max_open_orders : ℕ := 100

-- the gas price penalty
def default_ewma_alpha : ℕ := 10_000_000
def default_z_score_threshold : ℕ := 3_000_000_000
def default_additional_taker_fee : ℕ := 1_000_000

end constants

-- ============================================================ fixed point

namespace math

/-- `math::mul`: `x * y / FLOAT_SCALING`, rounded down. -/
def mul (x y : ℕ) : ℕ := x * y / constants.float_scaling

/-- `math::div`: `x * FLOAT_SCALING / y`, rounded down. -/
def div (x y : ℕ) : ℕ := x * constants.float_scaling / y

/-- `math::div_round_up`: `x * FLOAT_SCALING / y`, rounded up. -/
def div_round_up (x y : ℕ) : ℕ :=
  x * constants.float_scaling / y + if x * constants.float_scaling % y = 0 then 0 else 1

/-- `math::mul_u128`: `math::mul` on `u128`. -/
def mul_u128 (x y : ℕ) : ℕ := x * y / constants.float_scaling

/-- `math::sqrt`: the square root of `x` to `precision`, rounded down. -/
def sqrt (x precision : ℕ) : Except Abort ℕ :=
  if ¬ precision ≤ constants.float_scaling then .error .EInvalidPrecision
  else
    let multiplier := constants.float_scaling / precision
    let scaled_x := x * multiplier * constants.float_scaling
    .ok (Nat.sqrt scaled_x / multiplier)

/-- Dividing a product rounded down by one factor gives back less than
the other factor when the product was not exact. -/
theorem div_mul_lt {x y : ℕ} (hy : 0 < y) (hexact : x * y % constants.float_scaling ≠ 0) :
    div (mul x y) y < x := by
  unfold div mul
  -- the product rounded down, scaled back, falls short of the product
  have hshort : x * y / constants.float_scaling * constants.float_scaling < x * y := by
    refine Nat.lt_of_le_of_ne (Nat.div_mul_le_self _ _) fun hback => hexact ?_
    exact Nat.mod_eq_zero_of_dvd ⟨_, hback.symm.trans (Nat.mul_comm _ _)⟩
  exact (Nat.div_lt_iff_lt_mul hy).mpr hshort

end math

-- ============================================================ balances

/-- `Balances`: amounts of the base, quote and MYSO assets. -/
structure Balances where
  base : ℕ
  quote : ℕ
  myso : ℕ
  deriving DecidableEq, Repr

namespace Balances

def empty : Balances := ⟨0, 0, 0⟩

def add_balances (self other : Balances) : Balances :=
  ⟨self.base + other.base, self.quote + other.quote, self.myso + other.myso⟩

def add_base (self : Balances) (base : ℕ) : Balances := { self with base := self.base + base }

def add_quote (self : Balances) (quote : ℕ) : Balances := { self with quote := self.quote + quote }

/-- `Balances::mul`: every amount times a fixed-point factor. -/
def mul (self : Balances) (factor : ℕ) : Balances :=
  ⟨math.mul self.base factor, math.mul self.quote factor, math.mul self.myso factor⟩

def non_zero_value (self : Balances) : ℕ :=
  if self.base > 0 then self.base else if self.quote > 0 then self.quote else self.myso

end Balances

-- ============================================================ fee prices

/-- `OrderMySoPrice`: the MYSO conversion an order pays its fees at; a
zero `myso_per_asset` means the fees are paid in the traded assets. -/
structure OrderMySoPrice where
  asset_is_base : Bool
  myso_per_asset : ℕ
  deriving DecidableEq, Repr

namespace OrderMySoPrice

/-- `MySoPrice::empty_myso_price`: fees paid in the input asset. -/
def empty : OrderMySoPrice := ⟨false, 0⟩

/-- `OrderMySoPrice::fee_quantity`: the fee base of a trade, in MYSO when
there is a conversion, and otherwise in the input asset with the fee
penalty applied. -/
def fee_quantity (self : OrderMySoPrice) (base_quantity quote_quantity : ℕ) (is_bid : Bool) :
    Balances :=
  let myso_quantity :=
    if self.asset_is_base then math.mul base_quantity self.myso_per_asset
    else math.mul quote_quantity self.myso_per_asset
  if self.myso_per_asset > 0 then ⟨0, 0, myso_quantity⟩
  else if is_bid then ⟨0, math.mul quote_quantity constants.fee_penalty_multiplier, 0⟩
  else ⟨math.mul base_quantity constants.fee_penalty_multiplier, 0, 0⟩

/-- `OrderMySoPrice::myso_quantity_u128`: a `u128` volume in MYSO. -/
def myso_quantity_u128 (self : OrderMySoPrice) (base_quantity quote_quantity : ℕ) : ℕ :=
  if self.asset_is_base then math.mul_u128 base_quantity self.myso_per_asset
  else math.mul_u128 quote_quantity self.myso_per_asset

/-- Without a conversion a bid's fee base is its quote with the penalty. -/
@[simp] theorem fee_quantity_empty_bid (base_quantity quote_quantity : ℕ) :
    empty.fee_quantity base_quantity quote_quantity true =
      ⟨0, math.mul quote_quantity constants.fee_penalty_multiplier, 0⟩ := rfl

/-- Without a conversion an ask's fee base is its base with the penalty. -/
@[simp] theorem fee_quantity_empty_ask (base_quantity quote_quantity : ℕ) :
    empty.fee_quantity base_quantity quote_quantity false =
      ⟨math.mul base_quantity constants.fee_penalty_multiplier, 0, 0⟩ := rfl

end OrderMySoPrice

end MysoCore.Orderbook
