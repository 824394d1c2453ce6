/-
The account a pool keeps for each balance manager
(orderbook/sources/state/account.move), with the aborts of the pool's
state (state/state.move, state/governance.move, state/history.move and
the containers they keep).

# The lazy epoch

An account is brought to the current epoch only when the pool next
touches it (`Account.update`): the volumes of its last epoch are handed
back for the rebate and cleared, the stake added during that epoch
becomes active, and the proposal it made and the vote it cast lapse.
Between two touches an account is a record of the epoch it was last
touched in, which is how the governance tallies tell a vote of this
epoch from a stale one.

# Stake

Stake moves between three places: added stake is inactive until the
account's next epoch, active stake votes and earns the fee discount, and
removed stake, active and inactive alike, is credited back to the
settled balances. `update_stake` and `add_stake_eq_ok` say that an epoch
change and an addition keep the total as the code reports it to
governance; `remove_stake` zeroes both. An addition is the one place
here where the model keeps Move's `u64` abort (`add_stake_eq_error`):
a stake that takes the account's total to `2 ^ 64` aborts the call.

# The taker's fields

`Account.taker` reads the fields the taker's side of an order
(`Orderbook.process_create`) reads and writes, and `Account.withTaker`
writes them back: the pool's `process_create` is the taker's side over
them.
-/
import MysoCore.Orderbook.Swap
import MysoCore.Lib.VecMap
import MysoCore.Lib.ExceptFold

namespace MysoCore.Orderbook

open ExceptFold

/-- The aborts of the pool's state and of the containers it keeps, named
by the source's constants; an abort of the book's code is carried as
it is. -/
inductive StateAbort
  | abort (e : Abort)
  -- state.move
  | ENoStake
  | EAlreadyProposed
  -- governance.move
  | EInvalidMakerFee
  | EInvalidTakerFee
  | EProposalDoesNotExist
  | EMaxProposalsReachedNotEnoughVotes
  | EWhitelistedPoolCannotChange
  -- history.move
  | EHistoricVolumesNotFound
  -- vec_set.move and vec_map.move
  | EKeyAlreadyExists
  | EKeyDoesNotExist
  -- dynamic_field.move, under table.move
  | EFieldAlreadyExists
  | EFieldDoesNotExist
  -- the Move VM's own abort, on an overflow of its arithmetic
  | ARITHMETIC_ERROR
  deriving DecidableEq, Repr

/-- A Move `u64` addition: the sum, or the VM's abort when the sum does
not fit in 64 bits. -/
def u64_add (a b : ℕ) : Except StateAbort ℕ :=
  if a + b < 2 ^ 64 then .ok (a + b) else .error .ARITHMETIC_ERROR

/-- Both outcomes of a `u64` addition: it succeeds with the sum exactly
when the sum is in range. -/
theorem u64_add_eq_ok {a b c : ℕ} : u64_add a b = .ok c ↔ a + b < 2 ^ 64 ∧ a + b = c := by
  unfold u64_add
  split
  · case isTrue h => exact ⟨fun h' => ⟨h, Except.ok.inj h'⟩, fun h' => h'.2 ▸ rfl⟩
  · case isFalse h => exact ⟨fun h' => (nomatch h'), fun h' => absurd h'.1 h⟩

/-- `Balances::add_myso`. -/
def Balances.add_myso (self : Balances) (myso : ℕ) : Balances := { self with myso := self.myso + myso }

/-- `Fill::get_settled_maker_quantities`: what the maker is credited, its
own asset back when the fill expired it, else the counter asset. -/
def Fill.get_settled_maker_quantities (self : Fill) : Balances :=
  let (base, quote) := if self.expired then
      if self.taker_is_bid then (self.base_quantity, 0) else (0, self.quote_quantity)
    else if self.taker_is_bid then (0, self.quote_quantity) else (self.base_quantity, 0)
  ⟨base, quote, 0⟩

namespace account

/-- `Account`: an account's data for the epoch it was last touched in. -/
structure Account where
  epoch : ℕ
  open_orders : List ℕ
  taker_volume : ℕ
  maker_volume : ℕ
  active_stake : ℕ
  inactive_stake : ℕ
  created_proposal : Bool
  voted_proposal : Option ℕ
  unclaimed_rebates : Balances
  settled_balances : Balances
  owed_balances : Balances
  deriving DecidableEq, Repr

namespace Account

/-- `account::empty`: a fresh account in the current epoch. -/
def empty (ctx : TxContext) : Account :=
  ⟨ctx.epoch, [], 0, 0, 0, 0, false, none, Balances.empty, Balances.empty, Balances.empty⟩

def total_volume (self : Account) : ℕ := self.taker_volume + self.maker_volume

/-- `Account::update`: on the first touch of a new epoch, the previous
epoch, maker volume and active stake, with the volumes cleared, the
inactive stake made active and the proposal and vote lapsed; zeros
otherwise. -/
def update (self : Account) (ctx : TxContext) : Account × ℕ × ℕ × ℕ :=
  if self.epoch = ctx.epoch then (self, 0, 0, 0)
  else
    ({ self with
        epoch := ctx.epoch
        maker_volume := 0
        taker_volume := 0
        active_stake := self.active_stake + self.inactive_stake
        inactive_stake := 0
        created_proposal := false
        voted_proposal := none },
      self.epoch, self.maker_volume, self.active_stake)

def add_settled_balances (self : Account) (balances : Balances) : Account :=
  { self with settled_balances := self.settled_balances.add_balances balances }

def add_owed_balances (self : Account) (balances : Balances) : Account :=
  { self with owed_balances := self.owed_balances.add_balances balances }

/-- `Account::add_order`: `VecSet::insert`, which aborts on a present
order id. -/
def add_order (self : Account) (order_id : ℕ) : Except StateAbort Account :=
  if order_id ∈ self.open_orders then .error .EKeyAlreadyExists
  else .ok { self with open_orders := self.open_orders ++ [order_id] }

/-- `Account::remove_order`: `VecSet::remove`, which aborts on an absent
order id. -/
def remove_order (self : Account) (order_id : ℕ) : Except StateAbort Account :=
  if order_id ∈ self.open_orders then .ok { self with open_orders := self.open_orders.erase order_id }
  else .error .EKeyDoesNotExist

/-- `Account::process_maker_fill`: the maker credited, its volume grown by
a fill that did not expire it, and the order dropped when the fill
expired or completed it. -/
def process_maker_fill (self : Account) (fill : Fill) : Except StateAbort Account :=
  let self := self.add_settled_balances fill.get_settled_maker_quantities
  let self := if !fill.expired then { self with maker_volume := self.maker_volume + fill.base_quantity }
    else self
  if fill.expired || fill.completed then self.remove_order fill.maker_order_id else .ok self

def add_taker_volume (self : Account) (volume : ℕ) : Account :=
  { self with taker_volume := self.taker_volume + volume }

/-- `Account::set_voted_proposal`: the vote replaced, the previous one
returned. -/
def set_voted_proposal (self : Account) (proposal : Option ℕ) : Account × Option ℕ :=
  ({ self with voted_proposal := proposal }, self.voted_proposal)

def set_created_proposal (self : Account) (created : Bool) : Account :=
  { self with created_proposal := created }

/-- `Account::settle`: the settled and owed balances, reset. -/
def settle (self : Account) : Account × Balances × Balances :=
  ({ self with settled_balances := Balances.empty, owed_balances := Balances.empty },
    self.settled_balances, self.owed_balances)

def add_rebates (self : Account) (rebates : Balances) : Account :=
  { self with unclaimed_rebates := self.unclaimed_rebates.add_balances rebates }

/-- `Account::claim_rebates`: the unclaimed rebates moved to the settled
balances and returned. -/
def claim_rebates (self : Account) : Account × Balances :=
  ({ self with
      settled_balances := self.settled_balances.add_balances self.unclaimed_rebates
      unclaimed_rebates := Balances.empty },
    self.unclaimed_rebates)

/-- `Account::add_stake`: the new stake is inactive and owed in MYSO;
the total stake before and after. Each of its four additions is a `u64`
one and aborts on overflow. -/
def add_stake (self : Account) (stake : ℕ) : Except StateAbort (Account × ℕ × ℕ) := do
  let stake_before ← u64_add self.active_stake self.inactive_stake
  let inactive_stake ← u64_add self.inactive_stake stake
  -- `Balances::add_myso`, whose addition is a `u64` one too
  let myso ← u64_add self.owed_balances.myso stake
  let self := { self with inactive_stake, owed_balances := { self.owed_balances with myso } }
  let stake_after ← u64_add self.active_stake self.inactive_stake
  pure (self, stake_before, stake_after)

/-- `Account::remove_stake`: all stake credited back and the vote
withdrawn. -/
def remove_stake (self : Account) : Account :=
  let stake_before := self.active_stake + self.inactive_stake
  { self with
    active_stake := 0
    inactive_stake := 0
    voted_proposal := none
    settled_balances := self.settled_balances.add_myso stake_before }

-- ============================================================ the taker's fields

/-- The fields the taker's side of an order reads and writes. -/
def taker (self : Account) : Orderbook.Account :=
  ⟨self.open_orders, self.taker_volume, self.maker_volume, self.active_stake, self.settled_balances,
    self.owed_balances⟩

/-- The taker's fields written back. -/
def withTaker (self : Account) (t : Orderbook.Account) : Account :=
  { self with
    open_orders := t.open_orders
    taker_volume := t.taker_volume
    maker_volume := t.maker_volume
    active_stake := t.active_stake
    settled_balances := t.settled_balances
    owed_balances := t.owed_balances }

-- ============================================================ what each call keeps

variable (self : Account)

@[simp] theorem update_epoch (ctx : TxContext) : (self.update ctx).1.epoch = ctx.epoch := by
  unfold update
  split
  · next h => exact h
  · rfl

/-- A second touch in an epoch changes nothing. -/
theorem update_of_eq {ctx : TxContext} (h : self.epoch = ctx.epoch) :
    self.update ctx = (self, 0, 0, 0) :=
  if_pos h

/-- An epoch change keeps the total stake. -/
theorem update_stake (ctx : TxContext) :
    (self.update ctx).1.active_stake + (self.update ctx).1.inactive_stake =
      self.active_stake + self.inactive_stake := by
  unfold update
  split
  · rfl
  · simp

/-- An epoch change withdraws the proposal and the vote; a second touch
keeps them, with the active stake. -/
theorem update_cases (ctx : TxContext) :
    (self.epoch = ctx.epoch ∧ (self.update ctx).1 = self) ∨
      (self.epoch ≠ ctx.epoch ∧ (self.update ctx).1.voted_proposal = none ∧
        (self.update ctx).1.created_proposal = false ∧ (self.update ctx).1.inactive_stake = 0) := by
  unfold update
  split
  · next h => exact .inl ⟨h, rfl⟩
  · next h => exact .inr ⟨h, rfl, rfl, rfl⟩

@[simp] theorem update_open_orders (ctx : TxContext) :
    (self.update ctx).1.open_orders = self.open_orders := by
  unfold update
  split <;> rfl

/-- A successful addition: the total stake stayed below `2 ^ 64`, the
stake became inactive and owed, and the totals reported are the old and
the new one. -/
theorem add_stake_eq_ok {stake : ℕ} {r : Account × ℕ × ℕ} (h : self.add_stake stake = .ok r) :
    self.active_stake + self.inactive_stake + stake < 2 ^ 64 ∧
      r = ({ self with
          inactive_stake := self.inactive_stake + stake
          owed_balances := self.owed_balances.add_myso stake },
        self.active_stake + self.inactive_stake, self.active_stake + self.inactive_stake + stake) := by
  obtain ⟨before, h1, h⟩ := bind_eq_ok h
  obtain ⟨inactive, h2, h⟩ := bind_eq_ok h
  obtain ⟨myso, h3, h⟩ := bind_eq_ok h
  obtain ⟨after, h4, h⟩ := bind_eq_ok h
  obtain ⟨-, rfl⟩ := u64_add_eq_ok.mp h1
  obtain ⟨-, rfl⟩ := u64_add_eq_ok.mp h2
  obtain ⟨-, rfl⟩ := u64_add_eq_ok.mp h3
  obtain ⟨hlt, rfl⟩ := u64_add_eq_ok.mp h4
  dsimp only at hlt
  rw [pure_eq_ok] at h
  subst h
  refine ⟨by omega, ?_⟩
  simp only [Balances.add_myso, Nat.add_assoc]

/-- `add_stake` aborts exactly when the new total stake or the owed MYSO
would reach `2 ^ 64`. -/
theorem add_stake_eq_error (stake : ℕ) :
    (∃ e, self.add_stake stake = .error e) ↔
      2 ^ 64 ≤ self.active_stake + self.inactive_stake + stake ∨
        2 ^ 64 ≤ self.owed_balances.myso + stake := by
  simp only [add_stake, u64_add]
  split_ifs <;> simp
  -- the last guard reads the first three's sums
  · split_ifs <;> simp <;> omega
  all_goals omega

/-- The taker's side writes back what it read when nothing changed. -/
@[simp] theorem withTaker_taker : self.withTaker self.taker = self := rfl

@[simp] theorem taker_open_orders : self.taker.open_orders = self.open_orders := rfl

@[simp] theorem taker_active_stake : self.taker.active_stake = self.active_stake := rfl

end Account

end account

end MysoCore.Orderbook
