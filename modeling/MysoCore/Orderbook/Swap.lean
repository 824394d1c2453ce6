/-
Swaps without a balance manager (orderbook/sources/pool.move
`swap_exact_quantity`), with what a swap runs through: the taker fee
(state/trade_params.move, state/ewma.move, the taker part of
state/state.move `process_create`), the temporary balance manager
(balance_manager.move) and the settlement with the vault
(vault/vault.move).

# The settlement

`settle_balance_manager` moves, asset by asset, the net of what the
manager is owed and what it owes: out of the vault first, then out of
the manager. `settle_balance_manager_ok` is its effect when both sides
hold enough, and `settle_balance_manager_too_low` its abort when the
vault holds enough and the manager does not.

# Quote and execution

A swap sizes its market order by a quote (`Book.get_quantity_out`),
which takes the taker fee off fill by fill, each fee rounded down; the
order's execution charges the fee once, on the totals
(`OrderInfo.calculate_partial_fill_balances`), and that fee can exceed
the sum of the rounded ones. `swap_exact_quantity_quoted_bid_aborts` is
a book of three asks where the quote for 1761 quote is 1760 base, and
the market bid for it owes 1762 quote.
-/
import MysoCore.Orderbook.Invariant

namespace MysoCore.Orderbook

/-- The transaction context a swap reads: the epoch, the gas price, and
the id `object::new` hands the temporary balance manager. -/
structure TxContext where
  epoch : ℕ
  gas_price : ℕ
  fresh_id : ℕ
  deriving DecidableEq, Repr

-- ============================================================ the taker fee

/-- `TradeParams`: the pool's fees and the stake that halves the taker
fee. -/
structure TradeParams where
  taker_fee : ℕ
  maker_fee : ℕ
  stake_required : ℕ
  deriving DecidableEq, Repr

/-- `TradeParams::taker_fee_for_user`: half the taker fee for an account
with enough stake and volume. -/
def TradeParams.taker_fee_for_user (self : TradeParams) (active_stake volume_in_deep : ℕ) : ℕ :=
  if active_stake ≥ self.stake_required ∧ volume_in_deep ≥ self.stake_required then
    self.taker_fee / 2
  else self.taker_fee

/-- `EWMAState`: the smoothed mean and variance of the gas price, and
the penalty a taker pays when the gas price is far above the mean. -/
structure EWMAState where
  mean : ℕ
  variance : ℕ
  alpha : ℕ
  z_score_threshold : ℕ
  additional_taker_fee : ℕ
  last_updated_timestamp : ℕ
  enabled : Bool
  deriving DecidableEq, Repr

namespace EWMAState

/-- `ewma::init_ewma_state`: disabled, at the current gas price. -/
def init_ewma_state (ctx : TxContext) : EWMAState where
  mean := ctx.gas_price * constants.float_scaling
  variance := 0
  alpha := constants.default_ewma_alpha
  z_score_threshold := constants.default_z_score_threshold
  additional_taker_fee := constants.default_additional_taker_fee
  last_updated_timestamp := 0
  enabled := false

/-- `EWMAState::update`: one smoothing step per timestamp. -/
def update (self : EWMAState) (current_timestamp : ℕ) (ctx : TxContext) : EWMAState :=
  if current_timestamp = self.last_updated_timestamp then self
  else
    let alpha := self.alpha
    let one_minute_alpha := constants.float_scaling - alpha
    let gas_price := ctx.gas_price * constants.float_scaling
    let mean_new := math.mul alpha gas_price + math.mul one_minute_alpha self.mean
    let diff := if gas_price > self.mean then gas_price - self.mean else self.mean - gas_price
    let diff_squared := math.mul diff diff
    let variance_new := if self.variance = 0 then diff_squared
      else math.mul self.variance one_minute_alpha + math.mul alpha diff_squared
    { self with
      last_updated_timestamp := current_timestamp
      mean := mean_new
      variance := variance_new }

/-- `EWMAState::z_score`: the distance of the gas price from the mean, in
standard deviations. -/
def z_score (self : EWMAState) (ctx : TxContext) : Except Abort ℕ :=
  if self.variance = 0 then .ok 0
  else
    let gas_price := ctx.gas_price * constants.float_scaling
    let diff := if gas_price > self.mean then gas_price - self.mean else self.mean - gas_price
    match math.sqrt self.variance constants.float_scaling with
    | .error e => .error e
    | .ok std_dev => .ok (math.div diff std_dev)

/-- `EWMAState::apply_taker_penalty`. -/
def apply_taker_penalty (self : EWMAState) (taker_fee : ℕ) (ctx : TxContext) : Except Abort ℕ :=
  let gas_price := ctx.gas_price * constants.float_scaling
  if !self.enabled || decide (gas_price < self.mean) then .ok taker_fee
  else
    match self.z_score ctx with
    | .error e => .error e
    | .ok z_score =>
        .ok (if z_score > self.z_score_threshold then taker_fee + self.additional_taker_fee
          else taker_fee)

/-- A disabled penalty leaves the fee as it is. -/
theorem apply_taker_penalty_of_disabled {self : EWMAState} (h : self.enabled = false)
    (taker_fee : ℕ) (ctx : TxContext) : self.apply_taker_penalty taker_fee ctx = .ok taker_fee := by
  simp [apply_taker_penalty, h]

end EWMAState

-- ============================================================ the taker's account

/-- The part of `Account` the taker's side of an order reads and writes:
its open orders, volumes, active stake and balances. -/
structure Account where
  open_orders : List ℕ
  taker_volume : ℕ
  maker_volume : ℕ
  active_stake : ℕ
  settled_balances : Balances
  owed_balances : Balances
  deriving DecidableEq, Repr

namespace Account

/-- `account::empty`. -/
def empty : Account := ⟨[], 0, 0, 0, Balances.empty, Balances.empty⟩

def total_volume (self : Account) : ℕ := self.taker_volume + self.maker_volume

/-- `Account::add_order`: `VecSet::insert`, which aborts on a present key. -/
def add_order (self : Account) (order_id : ℕ) : Except Abort Account :=
  if order_id ∈ self.open_orders then .error .EKeyAlreadyExists
  else .ok { self with open_orders := self.open_orders ++ [order_id] }

def add_taker_volume (self : Account) (volume : ℕ) : Account :=
  { self with taker_volume := self.taker_volume + volume }

/-- `Account::settle`: the settled and owed balances, reset. -/
def settle (self : Account) : Account × Balances × Balances :=
  ({ self with settled_balances := Balances.empty, owed_balances := Balances.empty },
    self.settled_balances, self.owed_balances)

end Account

/-- The taker's side of `State::process_create`, over the taker's account
as `update_account` leaves it: the taker fee for the account, the order
recorded when it rests, and the balances the taker is owed and owes.
The makers' side (`process_fills`) and `History` are left out: they
change the makers' accounts and the fee history, which the taker's
settlement does not read. -/
def process_create (trade_params : TradeParams) (ewma_state : EWMAState) (account : Account)
    (order_info : OrderInfo) (ctx : TxContext) :
    Except Abort (Account × OrderInfo × Balances × Balances) :=
  let account_volume := account.total_volume
  let account_stake := account.active_stake
  let avg_executed_price := if order_info.executed_quantity > 0 then
      math.div order_info.cumulative_quote_quantity order_info.executed_quantity
    else 0
  let account_volume_in_deep := order_info.order_myso_price.myso_quantity_u128 account_volume
    (math.mul_u128 account_volume avg_executed_price)
  let taker_fee_without_penalty :=
    trade_params.taker_fee_for_user account_stake account_volume_in_deep
  match ewma_state.apply_taker_penalty taker_fee_without_penalty ctx with
  | .error e => .error e
  | .ok taker_fee =>
      let maker_fee := trade_params.maker_fee
      let recorded : Except Abort Account :=
        if order_info.order_inserted then
          if ¬ account.open_orders.length < constants.max_open_orders then .error .EMaxOpenOrders
          else account.add_order order_info.order_id
        else .ok account
      match recorded with
      | .error e => .error e
      | .ok account =>
          let account := account.add_taker_volume order_info.executed_quantity
          let r := order_info.calculate_partial_fill_balances taker_fee maker_fee
          let s := account.settle
          .ok (s.1, r.1, r.2.1.add_balances s.2.1, r.2.2.add_balances s.2.2)

-- ============================================================ assets and balances

/-- The three assets of a pool. -/
inductive Asset
  | base
  | quote
  | myso
  deriving DecidableEq, Repr

namespace Balances

/-- The amount of one asset. -/
def get (self : Balances) : Asset → ℕ
  | .base => self.base
  | .quote => self.quote
  | .myso => self.myso

/-- The balances with the amount of one asset replaced. -/
def set (self : Balances) : Asset → ℕ → Balances
  | .base, v => { self with base := v }
  | .quote, v => { self with quote := v }
  | .myso, v => { self with myso := v }

@[simp] theorem get_set_self (self : Balances) (a : Asset) (v : ℕ) : (self.set a v).get a = v := by
  cases a <;> rfl

@[simp] theorem get_set_of_ne {self : Balances} {a a' : Asset} (h : a' ≠ a) (v : ℕ) :
    (self.set a v).get a' = self.get a' := by
  cases a <;> cases a' <;> first | rfl | exact absurd rfl h

@[simp] theorem set_get (self : Balances) (a : Asset) : self.set a (self.get a) = self := by
  cases a <;> rfl

/-- `balance::split`: take `value` of one asset out, aborting when there
is less. -/
def split (self : Balances) (a : Asset) (value : ℕ) : Except Abort Balances :=
  if self.get a ≥ value then .ok (self.set a (self.get a - value)) else .error .ENotEnough

/-- `balance::join`. -/
def join (self : Balances) (a : Asset) (value : ℕ) : Balances := self.set a (self.get a + value)

end Balances

/-- `BalanceManager`: its id and its balances of the pool's assets. -/
structure BalanceManager where
  id : ℕ
  balances : Balances
  deriving DecidableEq, Repr

namespace BalanceManager

/-- `balance_manager::new`: empty, under a fresh id. -/
def new (ctx : TxContext) : BalanceManager := ⟨ctx.fresh_id, Balances.empty⟩

/-- `BalanceManager::deposit_with_proof`. -/
def deposit_with_proof (self : BalanceManager) (a : Asset) (amount : ℕ) : BalanceManager :=
  { self with balances := self.balances.join a amount }

/-- `BalanceManager::withdraw_with_proof` of an amount (`withdraw_all`
false): the manager without it, aborting when it holds less. -/
def withdraw_with_proof (self : BalanceManager) (a : Asset) (withdraw_amount : ℕ) :
    Except Abort BalanceManager :=
  if self.balances.get a ≥ withdraw_amount then
    .ok { self with balances := self.balances.set a (self.balances.get a - withdraw_amount) }
  else .error .EBalanceManagerBalanceTooLow

end BalanceManager

-- ============================================================ the settlement

section settle

variable (a : Asset) (balances_out balances_in : Balances)

/-- One asset of `Vault::settle_balance_manager` paid out: the vault
pays the manager what it is owed of the asset beyond what it owes. -/
def settle_out (vault : Balances) (balance_manager : BalanceManager) :
    Except Abort (Balances × BalanceManager) :=
  if balances_out.get a > balances_in.get a then
    match vault.split a (balances_out.get a - balances_in.get a) with
    | .error e => .error e
    | .ok vault =>
        .ok (vault, balance_manager.deposit_with_proof a (balances_out.get a - balances_in.get a))
  else .ok (vault, balance_manager)

/-- One asset of `Vault::settle_balance_manager` paid in: the manager
pays the vault what it owes of the asset beyond what it is owed. -/
def settle_in (vault : Balances) (balance_manager : BalanceManager) :
    Except Abort (Balances × BalanceManager) :=
  if balances_in.get a > balances_out.get a then
    match balance_manager.withdraw_with_proof a (balances_in.get a - balances_out.get a) with
    | .error e => .error e
    | .ok balance_manager =>
        .ok (vault.join a (balances_in.get a - balances_out.get a), balance_manager)
  else .ok (vault, balance_manager)

variable {a balances_out balances_in} {vault : Balances} {balance_manager : BalanceManager}

/-- Paying out moves the net amount, when the vault holds it. -/
theorem settle_out_eq (h : balances_out.get a - balances_in.get a ≤ vault.get a) :
    settle_out a balances_out balances_in vault balance_manager =
      .ok (vault.set a (vault.get a - (balances_out.get a - balances_in.get a)),
        balance_manager.deposit_with_proof a (balances_out.get a - balances_in.get a)) := by
  unfold settle_out
  split
  · simp [Balances.split, h]
  · next hle =>
      have hz : balances_out.get a - balances_in.get a = 0 := by omega
      simp [hz, BalanceManager.deposit_with_proof, Balances.join]

/-- Paying in moves the net amount, when the manager holds it. -/
theorem settle_in_eq (h : balances_in.get a - balances_out.get a ≤ balance_manager.balances.get a) :
    settle_in a balances_out balances_in vault balance_manager =
      .ok (vault.join a (balances_in.get a - balances_out.get a),
        { balance_manager with
          balances := balance_manager.balances.set a
            (balance_manager.balances.get a - (balances_in.get a - balances_out.get a)) }) := by
  unfold settle_in
  split
  · simp [BalanceManager.withdraw_with_proof, h]
  · next hle =>
      have hz : balances_in.get a - balances_out.get a = 0 := by omega
      simp [hz, Balances.join]

/-- Paying in aborts when the manager holds less than it owes. -/
theorem settle_in_eq_error
    (h : balance_manager.balances.get a < balances_in.get a - balances_out.get a) :
    settle_in a balances_out balances_in vault balance_manager =
      .error .EBalanceManagerBalanceTooLow := by
  unfold settle_in
  rw [if_pos (by omega)]
  simp [BalanceManager.withdraw_with_proof, Nat.not_le.mpr h]

end settle

/-- `Vault::settle_balance_manager`: every asset paid out, then every
asset paid in. -/
def settle_balance_manager (vault : Balances) (balances_out balances_in : Balances)
    (balance_manager : BalanceManager) : Except Abort (Balances × BalanceManager) := do
  let (vault, balance_manager) ← settle_out .base balances_out balances_in vault balance_manager
  let (vault, balance_manager) ← settle_out .quote balances_out balances_in vault balance_manager
  let (vault, balance_manager) ← settle_out .myso balances_out balances_in vault balance_manager
  let (vault, balance_manager) ← settle_in .base balances_out balances_in vault balance_manager
  let (vault, balance_manager) ← settle_in .quote balances_out balances_in vault balance_manager
  settle_in .myso balances_out balances_in vault balance_manager

section settle_spec

variable {vault balances_out balances_in : Balances} {balance_manager : BalanceManager}

/-- The settlement moves the net amount of every asset, when the vault
holds what it pays out and the manager what it pays in. -/
theorem settle_balance_manager_ok
    (hv : ∀ a, balances_out.get a - balances_in.get a ≤ vault.get a)
    (hm : ∀ a, balances_in.get a - balances_out.get a ≤ balance_manager.balances.get a) :
    ∃ vault' balance_manager',
      settle_balance_manager vault balances_out balances_in balance_manager =
        .ok (vault', balance_manager') ∧ balance_manager'.id = balance_manager.id ∧
      ∀ a, vault'.get a + (balances_out.get a - balances_in.get a) =
          vault.get a + (balances_in.get a - balances_out.get a) ∧
        balance_manager'.balances.get a + (balances_in.get a - balances_out.get a) =
          balance_manager.balances.get a + (balances_out.get a - balances_in.get a) := by
  -- a manager paid out to first still holds what it pays in
  have hm' : ∀ a, balances_in.get a - balances_out.get a ≤
      balance_manager.balances.get a + (balances_out.get a - balances_in.get a) :=
    fun a => le_add_right (hm a)
  unfold settle_balance_manager
  simp only [bind, Except.bind]
  rw [settle_out_eq (hv .base)]
  dsimp only
  rw [settle_out_eq (by simpa using hv .quote)]
  dsimp only
  rw [settle_out_eq (by simpa using hv .myso)]
  dsimp only
  rw [settle_in_eq (by simpa [BalanceManager.deposit_with_proof, Balances.join] using hm' .base)]
  dsimp only
  rw [settle_in_eq (by simpa [BalanceManager.deposit_with_proof, Balances.join] using hm' .quote)]
  dsimp only
  rw [settle_in_eq (by simpa [BalanceManager.deposit_with_proof, Balances.join] using hm' .myso)]
  refine ⟨_, _, rfl, rfl, fun a => ?_⟩
  have hva := hv a
  have hma := hm a
  cases a <;> simp [BalanceManager.deposit_with_proof, Balances.join] <;> omega

/-- The settlement aborts when the vault holds what it pays out and the
manager holds less of some asset than it pays in. -/
theorem settle_balance_manager_too_low
    (hv : ∀ a, balances_out.get a - balances_in.get a ≤ vault.get a)
    (hm : ∃ a, balance_manager.balances.get a < balances_in.get a - balances_out.get a) :
    settle_balance_manager vault balances_out balances_in balance_manager =
      .error .EBalanceManagerBalanceTooLow := by
  obtain ⟨a, ha⟩ := hm
  unfold settle_balance_manager
  simp only [bind, Except.bind]
  rw [settle_out_eq (hv .base)]
  dsimp only
  rw [settle_out_eq (by simpa using hv .quote)]
  dsimp only
  rw [settle_out_eq (by simpa using hv .myso)]
  dsimp only
  -- the first asset the manager is short of aborts
  by_cases hb : balances_in.get .base - balances_out.get .base ≤
      balance_manager.balances.get .base + (balances_out.get .base - balances_in.get .base)
  · rw [settle_in_eq (by simpa [BalanceManager.deposit_with_proof, Balances.join] using hb)]
    dsimp only
    by_cases hq : balances_in.get .quote - balances_out.get .quote ≤
        balance_manager.balances.get .quote + (balances_out.get .quote - balances_in.get .quote)
    · rw [settle_in_eq (by simpa [BalanceManager.deposit_with_proof, Balances.join] using hq)]
      dsimp only
      apply settle_in_eq_error
      cases a <;> simp [BalanceManager.deposit_with_proof, Balances.join] <;> omega
    · have hq' := Nat.lt_of_not_le hq
      rw [settle_in_eq_error (by simpa [BalanceManager.deposit_with_proof, Balances.join] using hq')]
  · have hb' := Nat.lt_of_not_le hb
    rw [settle_in_eq_error (by simpa [BalanceManager.deposit_with_proof, Balances.join] using hb')]

end settle_spec

-- ============================================================ the pool

/-- The part of `Pool` a swap reads and writes: the book, the trade
parameters, the gas price penalty (a dynamic field, absent until the
first order), the vault, and the MYSO conversion
`myso_price.get_order_myso_price` gives an order paying in MYSO. -/
structure Pool where
  book : Book
  trade_params : TradeParams
  ewma_state : Option EWMAState
  vault : Balances
  order_myso_price : OrderMySoPrice

namespace Pool

/-- `pool::get_quantity_out`: the quote for an order paying its fee in
MYSO. -/
def get_quantity_out (self : Pool) (base_quantity quote_quantity clock : ℕ) :
    Except Abort (ℕ × ℕ × ℕ) :=
  self.book.get_quantity_out base_quantity quote_quantity self.trade_params.taker_fee
    self.order_myso_price self.book.lot_size true clock

/-- `pool::get_quantity_out_input_fee`: the quote for an order paying its
fee in the input asset. -/
def get_quantity_out_input_fee (self : Pool) (base_quantity quote_quantity clock : ℕ) :
    Except Abort (ℕ × ℕ × ℕ) :=
  self.book.get_quantity_out base_quantity quote_quantity self.trade_params.taker_fee
    OrderMySoPrice.empty self.book.lot_size false clock

/-- `pool::update_ewma_state`: the penalty state, created when absent,
after one update. -/
def update_ewma_state (self : Pool) (clock : ℕ) (ctx : TxContext) : Pool :=
  { self with
    ewma_state := some ((self.ewma_state.getD (EWMAState.init_ewma_state ctx)).update clock ctx) }

/-- `pool::place_order_int`, for a balance manager without a referral,
over the taker's account as `update_account` leaves it: the order is
matched and placed, the taker's fees and balances worked out, and the
balances settled with the vault. -/
def place_order_int (self : Pool) (balance_manager : BalanceManager) (account : Account)
    (client_order_id order_type self_matching_option price quantity : ℕ)
    (is_bid pay_with_myso : Bool) (expire_timestamp clock : ℕ) (market_order : Bool)
    (ctx : TxContext) : Except Abort (Pool × BalanceManager × Account × OrderInfo) :=
  let self := self.update_ewma_state clock ctx
  let ewma_state := self.ewma_state.getD (EWMAState.init_ewma_state ctx)
  let order_myso_price := if pay_with_myso then self.order_myso_price else OrderMySoPrice.empty
  let order_info := OrderInfo.new balance_manager.id client_order_id order_type
    self_matching_option price quantity is_bid pay_with_myso ctx.epoch expire_timestamp
    order_myso_price market_order
  match self.book.create_order order_info clock with
  | .error e => .error e
  | .ok (book, order_info) =>
      match process_create self.trade_params ewma_state account order_info ctx with
      | .error e => .error e
      | .ok (account, order_info, settled, owed) =>
          match settle_balance_manager self.vault settled owed balance_manager with
          | .error e => .error e
          | .ok (vault, balance_manager) =>
              .ok ({ self with book := book, vault := vault }, balance_manager, account, order_info)

/-- `pool::place_market_order`: an immediate-or-cancel order at the
extreme price. -/
def place_market_order (self : Pool) (balance_manager : BalanceManager) (account : Account)
    (client_order_id self_matching_option quantity : ℕ) (is_bid pay_with_myso : Bool)
    (clock : ℕ) (ctx : TxContext) : Except Abort (Pool × BalanceManager × Account × OrderInfo) :=
  self.place_order_int balance_manager account client_order_id constants.immediate_or_cancel
    self_matching_option (if is_bid then constants.max_price else constants.min_price) quantity
    is_bid pay_with_myso clock clock true ctx

/-- `pool::swap_exact_quantity`: a market order sized by a quote, placed
through a fresh balance manager holding the inputs; the pool and the
three amounts out. An order below the minimum size returns the inputs. -/
def swap_exact_quantity (self : Pool) (base_in quote_in myso_in min_out clock : ℕ)
    (ctx : TxContext) : Except Abort (Pool × ℕ × ℕ × ℕ) :=
  let base_quantity := base_in
  let quote_quantity := quote_in
  let taker_fee := self.trade_params.taker_fee
  let input_fee_rate := math.mul taker_fee constants.fee_penalty_multiplier
  if (decide (base_quantity > 0) != decide (quote_quantity > 0)) = false then
    .error .EInvalidQuantityIn
  else
    let pay_with_myso := decide (myso_in > 0)
    let is_bid := decide (quote_quantity > 0)
    let quoted : Except Abort ℕ :=
      if is_bid then
        match (if pay_with_myso then self.get_quantity_out 0 quote_quantity clock
            else self.get_quantity_out_input_fee 0 quote_quantity clock) with
        | .error e => .error e
        | .ok r => .ok r.1
      else .ok (if !pay_with_myso then
          math.div base_quantity (constants.float_scaling + input_fee_rate)
        else base_quantity)
    match quoted with
    | .error e => .error e
    | .ok base_quantity =>
        let base_quantity := base_quantity - base_quantity % self.book.lot_size
        if base_quantity < self.book.min_size then .ok (self, base_in, quote_in, myso_in)
        else
          -- a fresh manager: a fresh account, which `update_account` leaves empty
          let temp_balance_manager := ((BalanceManager.new ctx).deposit_with_proof .base base_in
            |>.deposit_with_proof .quote quote_in).deposit_with_proof .myso myso_in
          match self.place_market_order temp_balance_manager Account.empty 0
              constants.self_matching_allowed base_quantity is_bid pay_with_myso clock ctx with
          | .error e => .error e
          | .ok (self, temp_balance_manager, _, _) =>
              let base_out := temp_balance_manager.balances.base
              let quote_out := temp_balance_manager.balances.quote
              let myso_out := temp_balance_manager.balances.myso
              if is_bid ∧ ¬ base_out ≥ min_out then .error .EMinimumQuantityOutNotMet
              else if !is_bid ∧ ¬ quote_out ≥ min_out then .error .EMinimumQuantityOutNotMet
              else .ok (self, base_out, quote_out, myso_out)

end Pool

-- ============================================================ a quote the execution exceeds

/-- Three asks at one quote per base, of 480, 480 and 800 base, on an
empty book with tick, lot and minimum size 1. -/
def quoteGapAsks : List (OrderInfo × ℕ) :=
  [(OrderInfo.new 1 0 constants.no_restriction constants.self_matching_allowed 1_000_000_000 480
      false false 0 (2 ^ 64 - 1) OrderMySoPrice.empty false, 0),
    (OrderInfo.new 2 0 constants.no_restriction constants.self_matching_allowed 1_000_000_000 480
      false false 0 (2 ^ 64 - 1) OrderMySoPrice.empty false, 0),
    (OrderInfo.new 3 0 constants.no_restriction constants.self_matching_allowed 1_000_000_000 800
      false false 0 (2 ^ 64 - 1) OrderMySoPrice.empty false, 0)]

/-- The pool of those asks, with their base in the vault, a taker fee of
ten basis points and no gas price penalty yet. -/
def quoteGapPool : Pool where
  book := ((Book.empty 1 1 1).create_orders quoteGapAsks).1
  trade_params := ⟨1_000_000, 500_000, 100_000_000⟩
  ewma_state := none
  vault := ⟨1760, 0, 0⟩
  order_myso_price := OrderMySoPrice.empty

def quoteGapCtx : TxContext := ⟨0, 1000, 7⟩

/-- For 1761 quote the quote is 1760 base, at least the minimum size; the
market bid of 1760 fills all three asks and owes 1760 quote plus a fee
of 2 on the totals, where the quote took off fees of 0, 0 and 1, so the
settlement aborts. -/
theorem swap_exact_quantity_quoted_bid_aborts :
    quoteGapPool.get_quantity_out_input_fee 0 1761 0 = .ok (1760, 0, 0) ∧
    quoteGapPool.book.lot_size = 1 ∧ quoteGapPool.book.min_size ≤ 1760 ∧
    quoteGapPool.swap_exact_quantity 0 1761 0 0 0 quoteGapCtx =
      .error .EBalanceManagerBalanceTooLow :=
  ⟨rfl, rfl, by decide, rfl⟩

/-- One more unit of quote settles, and the swap returns the 1760 base. -/
example : (quoteGapPool.swap_exact_quantity 0 1762 0 0 0 quoteGapCtx).toOption.map
    (fun r => r.2) = some (1760, 0, 0) := rfl

end MysoCore.Orderbook
