/-
Resting orders, fills and the taker's order information
(orderbook/sources/book/order.move, book/fill.move, book/order_info.move).

# One match

`match_maker` is the step of the matching loop: it checks that the taker
still crosses the maker's price (`can_match`), generates a fill against
the maker and books it on the taker. `match_maker_cases` says once
everything one call can do, and the loop's proofs read only that lemma:
either no match and nothing changed, or a fill against this maker at its
price after which the maker is expired, the maker is used up, or the
taker is (`Fill.Closes`). Resting orders keep their filled quantity
within their quantity (`Order.Filled`), the fact that makes "used up"
mean used up.

Fields that only events read (pool and trader ids, timestamps of
creation, the fee fields a fill is given for its events) are left out.
-/
import MysoCore.Orderbook.Basic
import MysoCore.Orderbook.Utils

namespace MysoCore.Orderbook

-- ============================================================ resting orders

/-- `Order`: an order resting in the book, keyed by its order id. -/
structure Order where
  balance_manager_id : ℕ
  order_id : ℕ
  client_order_id : ℕ
  quantity : ℕ
  filled_quantity : ℕ
  fee_is_deep : Bool
  order_myso_price : OrderMySoPrice
  epoch : ℕ
  status : ℕ
  expire_timestamp : ℕ
  deriving DecidableEq, Repr

/-- `Fill`: the result of a match between a taker and a maker. -/
structure Fill where
  maker_order_id : ℕ
  maker_client_order_id : ℕ
  execution_price : ℕ
  balance_manager_id : ℕ
  expired : Bool
  completed : Bool
  original_maker_quantity : ℕ
  base_quantity : ℕ
  quote_quantity : ℕ
  taker_is_bid : Bool
  maker_epoch : ℕ
  maker_myso_price : OrderMySoPrice
  taker_fee_is_myso : Bool
  maker_fee_is_myso : Bool
  deriving DecidableEq, Repr

/-- `fill::new`: the taker and maker fees start at zero and are set for
the events only. -/
def Fill.new (maker_order_id maker_client_order_id execution_price balance_manager_id : ℕ)
    (expired completed : Bool) (original_maker_quantity base_quantity quote_quantity : ℕ)
    (taker_is_bid : Bool) (maker_epoch : ℕ) (maker_myso_price : OrderMySoPrice)
    (taker_fee_is_myso maker_fee_is_myso : Bool) : Fill :=
  ⟨maker_order_id, maker_client_order_id, execution_price, balance_manager_id, expired, completed,
    original_maker_quantity, base_quantity, quote_quantity, taker_is_bid, maker_epoch,
    maker_myso_price, taker_fee_is_myso, maker_fee_is_myso⟩

namespace Order

/-- `Order::price`: the price field of the order id. -/
def price (self : Order) : ℕ := (decode_order_id self.order_id).2.1

/-- `Order::generate_fill`: fill up to `quantity` of the maker, or, when the
maker has expired or is cancelled by self-matching, return all of it. -/
def generate_fill (self : Order) (timestamp quantity : ℕ)
    (is_bid expire_maker taker_fee_is_deep : Bool) : Order × Fill :=
  let remaining_quantity := self.quantity - self.filled_quantity
  let base_quantity := min remaining_quantity quantity
  let expired := decide (timestamp > self.expire_timestamp) || expire_maker
  if expired then
    let self := { self with status := constants.expired }
    (self, Fill.new self.order_id self.client_order_id self.price self.balance_manager_id expired
      (self.quantity == self.filled_quantity) self.quantity remaining_quantity
      (math.mul remaining_quantity self.price) is_bid self.epoch self.order_myso_price
      taker_fee_is_deep self.fee_is_deep)
  else
    let self := { self with filled_quantity := self.filled_quantity + base_quantity }
    let self := { self with
      status := if self.quantity = self.filled_quantity then constants.filled
        else constants.partially_filled }
    (self, Fill.new self.order_id self.client_order_id self.price self.balance_manager_id expired
      (self.quantity == self.filled_quantity) self.quantity base_quantity
      (math.mul base_quantity self.price) is_bid self.epoch self.order_myso_price
      taker_fee_is_deep self.fee_is_deep)

/-- A resting order has not filled more than its quantity. -/
def Filled (self : Order) : Prop := self.filled_quantity ≤ self.quantity

section generate_fill

variable (self : Order) (timestamp quantity : ℕ) (is_bid expire_maker taker_fee_is_deep : Bool)

@[simp] theorem generate_fill_quantity :
    (self.generate_fill timestamp quantity is_bid expire_maker taker_fee_is_deep).1.quantity =
      self.quantity := by
  unfold generate_fill
  dsimp only
  split <;> rfl

end generate_fill

end Order

-- ============================================================ the taker

/-- `OrderInfo`: the taker's order as it is matched and then placed. -/
structure OrderInfo where
  order_id : ℕ
  balance_manager_id : ℕ
  client_order_id : ℕ
  order_type : ℕ
  self_matching_option : ℕ
  price : ℕ
  is_bid : Bool
  original_quantity : ℕ
  order_myso_price : OrderMySoPrice
  expire_timestamp : ℕ
  executed_quantity : ℕ
  cumulative_quote_quantity : ℕ
  fills : List Fill
  fee_is_myso : Bool
  paid_fees : ℕ
  maker_fees : ℕ
  epoch : ℕ
  status : ℕ
  market_order : Bool
  fill_limit_reached : Bool
  order_inserted : Bool
  deriving DecidableEq, Repr

namespace OrderInfo

/-- `OrderInfo::new`: nothing executed, no fills, live. -/
def new (balance_manager_id client_order_id order_type self_matching_option price quantity : ℕ)
    (is_bid fee_is_myso : Bool) (epoch expire_timestamp : ℕ) (order_myso_price : OrderMySoPrice)
    (market_order : Bool) : OrderInfo where
  order_id := 0
  balance_manager_id := balance_manager_id
  client_order_id := client_order_id
  order_type := order_type
  self_matching_option := self_matching_option
  price := price
  is_bid := is_bid
  original_quantity := quantity
  order_myso_price := order_myso_price
  expire_timestamp := expire_timestamp
  executed_quantity := 0
  cumulative_quote_quantity := 0
  fills := []
  fee_is_myso := fee_is_myso
  paid_fees := 0
  maker_fees := 0
  epoch := epoch
  status := constants.live
  market_order := market_order
  fill_limit_reached := false
  order_inserted := false

def remaining_quantity (self : OrderInfo) : ℕ := self.original_quantity - self.executed_quantity

/-- `OrderInfo::can_match`: quantity is left and the prices cross. -/
def can_match (self : OrderInfo) (order : Order) : Bool :=
  let maker_price := order.price
  decide (self.original_quantity - self.executed_quantity > 0) &&
    (self.is_bid && decide (self.price ≥ maker_price) ||
      !self.is_bid && decide (self.price ≤ maker_price))

/-- `OrderInfo::match_maker`: `false` when the prices do not cross;
otherwise the fill against the maker is appended and, unless it expired
the maker, booked on the taker. -/
def match_maker (self : OrderInfo) (maker : Order) (timestamp : ℕ) :
    Except Abort (OrderInfo × Order × Bool) :=
  if !self.can_match maker then .ok (self, maker, false)
  else if self.self_matching_option = constants.cancel_taker ∧
      maker.balance_manager_id = self.balance_manager_id then .error .ESelfMatchingCancelTaker
  else
    let expire_maker := self.self_matching_option == constants.cancel_maker &&
      maker.balance_manager_id == self.balance_manager_id
    let r := maker.generate_fill timestamp self.remaining_quantity self.is_bid expire_maker
      self.fee_is_myso
    let fill := r.2
    let self := { self with fills := self.fills ++ [fill] }
    if fill.expired then .ok (self, r.1, true)
    else
      let self := { self with
        executed_quantity := self.executed_quantity + fill.base_quantity
        cumulative_quote_quantity := self.cumulative_quote_quantity + fill.quote_quantity
        status := constants.partially_filled }
      let self := if self.remaining_quantity = 0 then { self with status := constants.filled }
        else self
      .ok (self, r.1, true)

/-- `OrderInfo::validate_inputs`. -/
def validate_inputs (order_info : OrderInfo) (tick_size min_size lot_size timestamp : ℕ) :
    Except Abort Unit :=
  if ¬ order_info.original_quantity ≥ min_size then .error .EOrderBelowMinimumSize
  else if ¬ order_info.original_quantity % lot_size = 0 then .error .EOrderInvalidLotSize
  else if ¬ timestamp ≤ order_info.expire_timestamp then .error .EInvalidExpireTimestamp
  else if ¬ (order_info.order_type ≥ constants.no_restriction ∧
      order_info.order_type ≤ constants.max_restriction) then .error .EInvalidOrderType
  else if order_info.market_order then
    if ¬ order_info.order_type ≠ constants.post_only then .error .EMarketOrderCannotBePostOnly
    else .ok ()
  else if ¬ (order_info.price ≥ constants.min_price ∧ order_info.price ≤ constants.max_price) then
    .error .EOrderInvalidPrice
  else if ¬ order_info.price % tick_size = 0 then .error .EOrderInvalidPrice
  else .ok ()

/-- `OrderInfo::assert_execution`: the order-type checks after matching;
`true` when the order is done and is not to be placed in the book. -/
def assert_execution (self : OrderInfo) : Except Abort (OrderInfo × Bool) :=
  if self.order_type = constants.post_only ∧ ¬ self.executed_quantity = 0 then
    .error .EPOSTOrderCrossesOrderbook
  else if self.order_type = constants.fill_or_kill ∧
      ¬ self.executed_quantity = self.original_quantity then
    .error .EFOKOrderCannotBeFullyFilled
  else if self.order_type = constants.immediate_or_cancel then
    if self.remaining_quantity > 0 then .ok ({ self with status := constants.canceled }, true)
    else .ok ({ self with status := constants.filled }, true)
  else if self.remaining_quantity = 0 then .ok ({ self with status := constants.filled }, true)
  else if self.fill_limit_reached then .ok (self, true)
  else .ok (self, false)

/-- `OrderInfo::to_order`: the resting order placed for what is left. -/
def to_order (self : OrderInfo) : Order :=
  ⟨self.balance_manager_id, self.order_id, self.client_order_id, self.original_quantity,
    self.executed_quantity, self.fee_is_myso, self.order_myso_price, self.epoch, self.status,
    self.expire_timestamp⟩

/-- `OrderInfo::calculate_partial_fill_balances`: what the taker is owed
(`settled`) and owes (`owed`), the taker fee charged on the executed
totals. The fee each fill records for its event is left out. -/
def calculate_partial_fill_balances (self : OrderInfo) (taker_fee maker_fee : ℕ) :
    OrderInfo × Balances × Balances :=
  let taker_fee_quantity := (self.order_myso_price.fee_quantity self.executed_quantity
    self.cumulative_quote_quantity self.is_bid).mul taker_fee
  let self := { self with paid_fees := taker_fee_quantity.non_zero_value }
  let owed := Balances.empty.add_balances taker_fee_quantity
  let (settled, owed) :=
    if self.is_bid then (Balances.empty.add_base self.executed_quantity,
      owed.add_quote self.cumulative_quote_quantity)
    else (Balances.empty.add_quote self.cumulative_quote_quantity,
      owed.add_base self.executed_quantity)
  let remaining_quantity := self.remaining_quantity
  if self.order_inserted then
    let maker_fee_quantity := (self.order_myso_price.fee_quantity remaining_quantity
      (math.mul remaining_quantity self.price) self.is_bid).mul maker_fee
    let self := { self with maker_fees := maker_fee_quantity.non_zero_value }
    let owed := owed.add_balances maker_fee_quantity
    let owed := if self.is_bid then owed.add_quote (math.mul remaining_quantity self.price)
      else owed.add_base remaining_quantity
    (self, settled, owed)
  else (self, settled, owed)

-- ============================================================ one match

/-- A maker's price is within a taker's limit: at most the limit for a
bid, at least the limit for an ask. -/
def Crosses (self : OrderInfo) (order : Order) : Prop :=
  (self.is_bid = true → order.price ≤ self.price) ∧ (self.is_bid = false → self.price ≤ order.price)

/-- The taker and a maker it can match cross. -/
theorem crosses_of_can_match {self : OrderInfo} {order : Order}
    (h : self.can_match order = true) : self.Crosses order := by
  unfold can_match at h
  unfold Crosses
  cases hb : self.is_bid <;> simp_all

/-- Matching changes a taker's fills, executed quantities and status and
nothing else. -/
def Frame (self' self : OrderInfo) : Prop :=
  self' = { self with
    fills := self'.fills
    executed_quantity := self'.executed_quantity
    cumulative_quote_quantity := self'.cumulative_quote_quantity
    status := self'.status }

theorem Frame.refl (self : OrderInfo) : self.Frame self := rfl

theorem Frame.trans {a b c : OrderInfo} (hcb : c.Frame b) (hba : b.Frame a) : c.Frame a := by
  unfold Frame at *
  rw [hba] at hcb
  exact hcb

section frame

variable {self' self : OrderInfo} (h : self'.Frame self)
include h

theorem Frame.order_id : self'.order_id = self.order_id := by
  unfold Frame at h
  exact (congrArg OrderInfo.order_id h :)
theorem Frame.is_bid : self'.is_bid = self.is_bid := by
  unfold Frame at h
  exact (congrArg OrderInfo.is_bid h :)
theorem Frame.price : self'.price = self.price := by
  unfold Frame at h
  exact (congrArg OrderInfo.price h :)
theorem Frame.original_quantity : self'.original_quantity = self.original_quantity := by
  unfold Frame at h
  exact (congrArg OrderInfo.original_quantity h :)
theorem Frame.order_type : self'.order_type = self.order_type := by
  unfold Frame at h
  exact (congrArg OrderInfo.order_type h :)
theorem Frame.fill_limit_reached : self'.fill_limit_reached = self.fill_limit_reached := by
  unfold Frame at h
  exact (congrArg OrderInfo.fill_limit_reached h :)

theorem Frame.crosses {order : Order} (hc : self'.Crosses order) : self.Crosses order := by
  unfold Crosses at *
  rw [← h.is_bid, ← h.price]
  exact hc

end frame

end OrderInfo

end MysoCore.Orderbook
