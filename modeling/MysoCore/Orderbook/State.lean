/-
The pool's state (orderbook/sources/state/state.move): the accounts of
its balance managers, the fee history and the governance, and the calls
through which the pool changes them.

# One call

Every call first brings the governance and then the history to the
current epoch (`State.refresh`), and the caller's account with them
(`State.update_account`, which opens the account on its first use and
hands the volumes of the account's last epoch to the rebate). Then it
does its own part on the account and the governance. An abort anywhere
reverts the transaction, so a call is one `Except` over the whole state.

# Orders

`process_create` runs the makers' side over the fills of an order
(`process_fills`: each maker credited, its volume counted in the history
and its maker fee collected) and then the taker's side,
`Orderbook.process_create`, over the taker's fields of its account
(`Account.taker`), whose taker fee goes to the history as well.
`process_cancel` and `process_modify` refund a resting order at the
maker fee of the epoch the order was placed in.

# Stake and votes

`process_stake` and `process_unstake` move stake in and out of an
account and its voting power in and out of the governance's total;
`process_vote` moves the account's votes to a proposal and
`process_proposal` adds one and votes for it. The pool id the source
passes along is read by the events only, which are left out.

`update_account_eq` and `refresh_eq_ok` say what the two refreshes do
without the table's aborts, which `update_account` cannot reach; the
calls' proofs go through them.
-/
import MysoCore.Orderbook.Governance
import MysoCore.Orderbook.History

namespace MysoCore.Orderbook

-- ============================================================ orders and their fees

/-- `Order::is_bid`: the side bit of the order id. -/
def Order.is_bid (self : Order) : Bool := (decode_order_id self.order_id).1

def Order.set_canceled (self : Order) : Order := { self with status := constants.canceled }

/-- `Order::calculate_cancel_refund`: what is locked for the cancelled
quantity, all that is left unless given, and its maker fee. -/
def Order.calculate_cancel_refund (self : Order) (maker_fee : ℕ) (cancel_quantity : Option ℕ) :
    Balances :=
  let cancel_quantity := cancel_quantity.getD (self.quantity - self.filled_quantity)
  let fee_quantity := (self.order_myso_price.fee_quantity cancel_quantity
    (math.mul cancel_quantity self.price) self.is_bid).mul maker_fee
  let (base_out, quote_out) := if self.is_bid then (0, math.mul cancel_quantity self.price)
    else (cancel_quantity, 0)
  (Balances.mk base_out quote_out 0).add_balances fee_quantity

/-- `OrderInfo::paid_fees_balances`: the taker fee in the asset it was
paid in. -/
def OrderInfo.paid_fees_balances (self : OrderInfo) : Balances :=
  if self.fee_is_myso then ⟨0, 0, self.paid_fees⟩
  else if self.is_bid then ⟨0, self.paid_fees, 0⟩
  else ⟨self.paid_fees, 0, 0⟩

/-- The taker's side of an order changes neither the stake nor the maker
volume of the taker's account. -/
theorem process_create_taker_stake {trade_params : TradeParams} {ewma_state : EWMAState}
    {account : Account} {order_info : OrderInfo} {ctx : TxContext}
    {r : Account × OrderInfo × Balances × Balances}
    (h : process_create trade_params ewma_state account order_info ctx = .ok r) :
    r.1.active_stake = account.active_stake ∧ r.1.maker_volume = account.maker_volume := by
  unfold process_create at h
  dsimp only at h
  generalize ewma_state.apply_taker_penalty (trade_params.taker_fee_for_user account.active_stake
      (order_info.order_myso_price.myso_quantity_u128 account.total_volume
        (math.mul_u128 account.total_volume (if order_info.executed_quantity > 0 then
          math.div order_info.cumulative_quote_quantity order_info.executed_quantity else 0)))) ctx =
    penalty at h
  cases penalty with
  | error e => cases h
  | ok taker_fee =>
      dsimp only at h
      generalize hrec : (if order_info.order_inserted = true then
          if ¬account.open_orders.length < constants.max_open_orders then
            Except.error Abort.EMaxOpenOrders
          else account.add_order order_info.order_id
        else Except.ok account) = recorded at h
      cases recorded with
      | error e => cases h
      | ok recorded =>
          cases h
          -- recording the order writes the open orders only
          split at hrec
          · split at hrec
            · cases hrec
            · unfold Account.add_order at hrec
              split at hrec
              · cases hrec
              · cases hrec
                exact ⟨rfl, rfl⟩
          · cases hrec
            exact ⟨rfl, rfl⟩

namespace state

open ExceptFold account history governance

/-- `State`: the pool's accounts, keyed by balance manager, its fee
history and its governance. -/
structure State where
  accounts : VecMap ℕ account.Account
  history : History
  governance : Governance

namespace State

/-- `state::empty`: no account, and a history opened at the trade
parameters of the new governance. -/
def empty (whitelisted stable_pool : Bool) (ctx : TxContext) : State :=
  let governance := Governance.empty whitelisted stable_pool ctx
  let trade_params := governance.trade_params
  let history := History.empty trade_params ctx.epoch ctx
  { history, governance, accounts := VecMap.empty }

/-- The first two lines of every call: the governance brought to the
current epoch, then the history, opened at the trade parameters the
governance has adopted. -/
def refresh (self : State) (ctx : TxContext) : Except StateAbort State := do
  let governance := self.governance.update ctx
  let history ← self.history.update governance.trade_params ctx
  pure { self with governance, history }

/-- The rebate half of `update_account`, over what `Account::update`
returns: an account that made and staked in an earlier epoch is
credited its rebate for it. -/
def collect_rebates (history : History) (updated : Orderbook.account.Account × ℕ × ℕ × ℕ) :
    Except StateAbort (History × Orderbook.account.Account) :=
  let (account, prev_epoch, maker_volume, active_stake) := updated
  if prev_epoch > 0 ∧ maker_volume > 0 ∧ active_stake > 0 then do
    let (history, rebates) ← history.calculate_rebate_amount prev_epoch maker_volume active_stake
    pure (history, account.add_rebates rebates)
  else pure (history, account)

/-- `State::update_account`: the account opened if it is new, then
brought to the current epoch and credited its rebate. -/
def update_account (self : State) (balance_manager_id : ℕ) (ctx : TxContext) :
    Except StateAbort State := do
  let accounts ← if !self.accounts.contains balance_manager_id then
      self.accounts.insert balance_manager_id (account.Account.empty ctx) .EFieldAlreadyExists
    else pure self.accounts
  let account ← accounts.borrow balance_manager_id .EFieldDoesNotExist
  let (history, account) ← collect_rebates self.history (account.update ctx)
  pure { self with accounts := accounts.set balance_manager_id account, history }

/-- One turn of the loop of `State::process_fills`: the maker brought to
the epoch and credited; a fill that did not expire the maker counts its
volume and collects its maker fee at the rate of the maker's epoch, an
expired one refunds that fee to the maker. The fee the fill records for
its event is left out. -/
def process_fill (self : State) (fill : Fill) (ctx : TxContext) : Except StateAbort State := do
  let maker := fill.balance_manager_id
  let self ← self.update_account maker ctx
  let account ← self.accounts.borrow maker .EFieldDoesNotExist
  let account ← account.process_maker_fill fill
  let base_volume := fill.base_quantity
  let quote_volume := fill.quote_quantity
  let historic_maker_fee ← self.history.historic_maker_fee fill.maker_epoch
  let maker_is_bid := !fill.taker_is_bid
  let fee_quantity :=
    (fill.maker_myso_price.fee_quantity base_volume quote_volume maker_is_bid).mul historic_maker_fee
  if !fill.expired then
    let history := (self.history.add_volume base_volume account.active_stake).add_total_fees_collected
      fee_quantity
    pure { self with accounts := self.accounts.set maker account, history }
  else
    pure { self with accounts := self.accounts.set maker (account.add_settled_balances fee_quantity) }

/-- `State::process_fills`. -/
def process_fills (self : State) (fills : List Fill) (ctx : TxContext) : Except StateAbort State :=
  fills.foldlM (fun self fill => self.process_fill fill ctx) self

/-- `State::process_create`: the makers' side over the fills, then the
taker's side over the taker's account, whose fee is collected. The
order, with the fees it paid, and what the taker is owed and owes. The
penalty event is left out. -/
def process_create (self : State) (order_info : OrderInfo) (ewma_state : EWMAState)
    (ctx : TxContext) : Except StateAbort (State × OrderInfo × Balances × Balances) := do
  let self ← self.refresh ctx
  let self ← self.process_fills order_info.fills ctx
  let balance_manager_id := order_info.balance_manager_id
  let self ← self.update_account balance_manager_id ctx
  let account ← self.accounts.borrow balance_manager_id .EFieldDoesNotExist
  let (taker, order_info, settled, owed) ←
    (Orderbook.process_create self.governance.trade_params ewma_state account.taker order_info
      ctx).mapError .abort
  let history := self.history.add_total_fees_collected order_info.paid_fees_balances
  pure ({ self with accounts := self.accounts.set balance_manager_id (account.withTaker taker), history },
    order_info, settled, owed)

/-- `State::withdraw_settled_amounts`: an account's balances, settled;
nothing for a balance manager with no account. -/
def withdraw_settled_amounts (self : State) (balance_manager_id : ℕ) : State × Balances × Balances :=
  match self.accounts.get balance_manager_id with
  | some account =>
      let (account, settled, owed) := account.settle
      ({ self with accounts := self.accounts.set balance_manager_id account }, settled, owed)
  | none => (self, Balances.empty, Balances.empty)

/-- `State::process_cancel`: the order cancelled and dropped from the
account, what it locked refunded with its maker fee, and the account
settled. -/
def process_cancel (self : State) (order : Order) (balance_manager_id : ℕ) (ctx : TxContext) :
    Except StateAbort (State × Order × Balances × Balances) := do
  let self ← self.refresh ctx
  let self ← self.update_account balance_manager_id ctx
  let order := order.set_canceled
  let epoch := order.epoch
  let maker_fee ← self.history.historic_maker_fee epoch
  let balances := order.calculate_cancel_refund maker_fee none
  let account ← self.accounts.borrow balance_manager_id .EFieldDoesNotExist
  let account ← account.remove_order order.order_id
  let account := account.add_settled_balances balances
  let (account, settled, owed) := account.settle
  pure ({ self with accounts := self.accounts.set balance_manager_id account }, order, settled, owed)

/-- `State::process_modify`: the cancelled part of the order refunded
with its maker fee, and the account settled. -/
def process_modify (self : State) (balance_manager_id cancel_quantity : ℕ) (order : Order)
    (ctx : TxContext) : Except StateAbort (State × Balances × Balances) := do
  let self ← self.refresh ctx
  let self ← self.update_account balance_manager_id ctx
  let epoch := order.epoch
  let maker_fee ← self.history.historic_maker_fee epoch
  let balances := order.calculate_cancel_refund maker_fee (some cancel_quantity)
  let account ← self.accounts.borrow balance_manager_id .EFieldDoesNotExist
  let account := account.add_settled_balances balances
  let (account, settled, owed) := account.settle
  pure ({ self with accounts := self.accounts.set balance_manager_id account }, settled, owed)

/-- `State::process_stake`: the stake added to the account and its
voting power to the governance. -/
def process_stake (self : State) (balance_manager_id new_stake : ℕ) (ctx : TxContext) :
    Except StateAbort (State × Balances × Balances) := do
  let self ← self.refresh ctx
  let self ← self.update_account balance_manager_id ctx
  let account ← self.accounts.borrow balance_manager_id .EFieldDoesNotExist
  let (account, stake_before, stake_after) ← account.add_stake new_stake
  let governance ← self.governance.adjust_voting_power stake_before stake_after
  let (account, settled, owed) := account.settle
  pure ({ self with accounts := self.accounts.set balance_manager_id account, governance },
    settled, owed)

/-- `State::process_unstake`: all stake removed from the account, its
voting power from the governance, and its active stake's votes from the
proposal it voted for. -/
def process_unstake (self : State) (balance_manager_id : ℕ) (ctx : TxContext) :
    Except StateAbort (State × Balances × Balances) := do
  let self ← self.refresh ctx
  let self ← self.update_account balance_manager_id ctx
  let account ← self.accounts.borrow balance_manager_id .EFieldDoesNotExist
  let active_stake := account.active_stake
  let inactive_stake := account.inactive_stake
  let voted_proposal := account.voted_proposal
  let account := account.remove_stake
  let governance ← self.governance.adjust_voting_power (active_stake + inactive_stake) 0
  let governance ← governance.adjust_vote voted_proposal none active_stake
  let (account, settled, owed) := account.settle
  pure ({ self with accounts := self.accounts.set balance_manager_id account, governance },
    settled, owed)

/-- `State::process_vote`: an account with active stake moves its votes
to the proposal. -/
def process_vote (self : State) (balance_manager_id proposal_id : ℕ) (ctx : TxContext) :
    Except StateAbort State := do
  let self ← self.refresh ctx
  let self ← self.update_account balance_manager_id ctx
  let account ← self.accounts.borrow balance_manager_id .EFieldDoesNotExist
  require (account.active_stake > 0) .ENoStake
  let (account, prev_proposal) := account.set_voted_proposal (some proposal_id)
  let governance ← self.governance.adjust_vote prev_proposal (some proposal_id) account.active_stake
  pure { self with accounts := self.accounts.set balance_manager_id account, governance }

/-- `State::process_proposal`: an account with active stake that has not
proposed in this epoch adds a proposal, under its own id, and votes for
it. -/
def process_proposal (self : State) (balance_manager_id taker_fee maker_fee stake_required : ℕ)
    (ctx : TxContext) : Except StateAbort State := do
  let self ← self.refresh ctx
  let self ← self.update_account balance_manager_id ctx
  let account ← self.accounts.borrow balance_manager_id .EFieldDoesNotExist
  let stake := account.active_stake
  let proposal_created := account.created_proposal
  require (stake > 0) .ENoStake
  require (!proposal_created) .EAlreadyProposed
  let account := account.set_created_proposal true
  let governance ← self.governance.add_proposal taker_fee maker_fee stake_required stake
    balance_manager_id
  { self with accounts := self.accounts.set balance_manager_id account, governance }.process_vote
    balance_manager_id balance_manager_id ctx

/-- `State::process_claim_rebates`: the rebates moved to the settled
balances, and the account settled. The amount claimed is read by the
events only. -/
def process_claim_rebates (self : State) (balance_manager_id : ℕ) (ctx : TxContext) :
    Except StateAbort (State × Balances × Balances) := do
  let self ← self.refresh ctx
  let self ← self.update_account balance_manager_id ctx
  let account ← self.accounts.borrow balance_manager_id .EFieldDoesNotExist
  let account := account.claim_rebates.1
  let (account, settled, owed) := account.settle
  pure ({ self with accounts := self.accounts.set balance_manager_id account }, settled, owed)

-- ============================================================ the two refreshes

variable {self self' : State} {ctx : TxContext}

theorem refresh_eq_ok : self.refresh ctx = .ok self' ↔ ∃ history,
    self.history.update (self.governance.update ctx).trade_params ctx = .ok history ∧
      self' = { self with governance := self.governance.update ctx, history } := by
  unfold refresh
  constructor
  · intro h
    obtain ⟨history, hh, h⟩ := bind_eq_ok h
    exact ⟨history, hh, (pure_eq_ok.mp h).symm⟩
  · rintro ⟨history, hh, rfl⟩
    simp only [hh, ok_bind, pure_eq_ok]

/-- The account `update_account` brings to the epoch: the one in the
table, or a new one. -/
def accountOf (self : State) (balance_manager_id : ℕ) (ctx : TxContext) : account.Account :=
  (self.accounts.get balance_manager_id).getD (account.Account.empty ctx)

/-- `update_account` without the table's aborts, which it cannot reach. -/
theorem update_account_eq (balance_manager_id : ℕ) (ctx : TxContext) :
    self.update_account balance_manager_id ctx =
      (fun r => { self with accounts := self.accounts.set balance_manager_id r.2, history := r.1 }) <$>
        collect_rebates self.history ((self.accountOf balance_manager_id ctx).update ctx) := by
  unfold update_account accountOf
  cases hget : self.accounts.get balance_manager_id with
  | none =>
      have hc : self.accounts.contains balance_manager_id = false := by
        rw [Bool.eq_false_iff, Ne, VecMap.contains_eq_true, not_not]
        exact hget
      have hb : (self.accounts.set balance_manager_id (account.Account.empty ctx)).borrow
          balance_manager_id StateAbort.EFieldDoesNotExist = .ok (account.Account.empty ctx) :=
        VecMap.borrow_eq_ok.mpr (by simp)
      simp only [hc, Bool.not_false, if_true, VecMap.insert_of_get_eq_none hget, ok_bind, hb,
        Option.getD_none]
      cases collect_rebates self.history ((account.Account.empty ctx).update ctx) with
      | error e => rfl
      | ok r => simp [Functor.map, Except.map, VecMap.set_set]
  | some a =>
      have hc : self.accounts.contains balance_manager_id = true := by simp [hget]
      have hb : self.accounts.borrow balance_manager_id StateAbort.EFieldDoesNotExist = .ok a :=
        VecMap.borrow_eq_ok.mpr hget
      simp only [hc, Bool.not_true, Bool.false_eq_true, if_false, pure_bind, hb, ok_bind,
        Option.getD_some]
      cases collect_rebates self.history (a.update ctx) with
      | error e => rfl
      | ok r => rfl

/-- What the rebate half does: nothing on a second touch in the epoch;
on the first, the account brought to the epoch, and its rebate for its
last epoch credited when it made and staked in it. -/
theorem collect_rebates_eq_ok {history history' : History} {a a' : account.Account}
    (h : collect_rebates history (a.update ctx) = .ok (history', a')) :
    (a.epoch = ctx.epoch ∧ history' = history ∧ a' = a) ∨
      (a.epoch ≠ ctx.epoch ∧ ((history' = history ∧ a' = (a.update ctx).1) ∨
        ∃ rebates, history.calculate_rebate_amount a.epoch a.maker_volume a.active_stake =
          .ok (history', rebates) ∧ a' = (a.update ctx).1.add_rebates rebates)) := by
  by_cases he : a.epoch = ctx.epoch
  · -- a second touch returns zeros, so no rebate
    rw [a.update_of_eq he] at h
    simp only [collect_rebates, gt_iff_lt, lt_self_iff_false, false_and, if_false, pure_eq_ok,
      Prod.mk.injEq] at h
    exact .inl ⟨he, h.1.symm, h.2.symm⟩
  · have hu : a.update ctx = ((a.update ctx).1, a.epoch, a.maker_volume, a.active_stake) := by
      unfold Account.update
      rw [if_neg he]
    rw [hu] at h
    unfold collect_rebates at h
    dsimp only at h
    refine .inr ⟨he, ?_⟩
    split at h
    · obtain ⟨r, hr, h⟩ := bind_eq_ok h
      rw [pure_eq_ok, Prod.mk.injEq] at h
      obtain ⟨rfl, rfl⟩ := h
      exact .inr ⟨r.2, hr, rfl⟩
    · rw [pure_eq_ok, Prod.mk.injEq] at h
      exact .inl ⟨h.1.symm, h.2.symm⟩

-- ============================================================ what each call does

/-- The first lines of every call but `process_create`: the pool and the
caller's account brought to the epoch. -/
theorem touch_eq_ok {balance_manager_id : ℕ} {β : Type} {f : State → Except StateAbort β} {b : β}
    (h : (do let self ← self.refresh ctx; let self ← self.update_account balance_manager_id ctx; f self) =
      .ok b) :
    ∃ mid mid', self.refresh ctx = .ok mid ∧ mid.update_account balance_manager_id ctx = .ok mid' ∧
      f mid' = .ok b := by
  obtain ⟨mid, hmid, h⟩ := bind_eq_ok h
  obtain ⟨mid', hmid', h⟩ := bind_eq_ok h
  exact ⟨mid, mid', hmid, hmid', h⟩

theorem process_stake_eq_ok {balance_manager_id new_stake : ℕ} {r : State × Balances × Balances}
    (h : self.process_stake balance_manager_id new_stake ctx = .ok r) :
    ∃ mid mid' account, self.refresh ctx = .ok mid ∧
      mid.update_account balance_manager_id ctx = .ok mid' ∧
      mid'.accounts.get balance_manager_id = some account ∧
      account.active_stake + account.inactive_stake + new_stake < 2 ^ 64 ∧
      r.1 = { mid' with
        accounts := mid'.accounts.set balance_manager_id
          ({ account with
              inactive_stake := account.inactive_stake + new_stake
              owed_balances := account.owed_balances.add_myso new_stake }).settle.1
        governance := { mid'.governance with
          voting_power := mid'.governance.voting_power +
            votingPower (account.active_stake + account.inactive_stake + new_stake) -
            votingPower (account.active_stake + account.inactive_stake) } } := by
  obtain ⟨mid, mid', hmid, hmid', h⟩ := touch_eq_ok h
  obtain ⟨account, hacc, h⟩ := bind_eq_ok h
  obtain ⟨added, hadd, h⟩ := bind_eq_ok h
  obtain ⟨hlt, rfl⟩ := account.add_stake_eq_ok hadd
  simp only [Governance.adjust_voting_power_eq, ok_bind, pure_eq_ok] at h
  refine ⟨mid, mid', account, hmid, hmid', VecMap.borrow_eq_ok.mp hacc, hlt, ?_⟩
  rw [← h]

theorem process_unstake_eq_ok {balance_manager_id : ℕ} {r : State × Balances × Balances}
    (h : self.process_unstake balance_manager_id ctx = .ok r) :
    ∃ mid mid' account governance, self.refresh ctx = .ok mid ∧
      mid.update_account balance_manager_id ctx = .ok mid' ∧
      mid'.accounts.get balance_manager_id = some account ∧
      { mid'.governance with
        voting_power := mid'.governance.voting_power -
          votingPower (account.active_stake + account.inactive_stake) }.adjust_vote
        account.voted_proposal none account.active_stake = .ok governance ∧
      r.1 = { mid' with
        accounts := mid'.accounts.set balance_manager_id account.remove_stake.settle.1, governance } := by
  obtain ⟨mid, mid', hmid, hmid', h⟩ := touch_eq_ok h
  obtain ⟨account, hacc, h⟩ := bind_eq_ok h
  simp only [Governance.adjust_voting_power_eq, votingPower_zero, Nat.add_zero, ok_bind] at h
  obtain ⟨governance, hg, h⟩ := bind_eq_ok h
  rw [pure_eq_ok] at h
  exact ⟨mid, mid', account, governance, hmid, hmid', VecMap.borrow_eq_ok.mp hacc, hg, by rw [← h]⟩

theorem process_vote_eq_ok {balance_manager_id proposal_id : ℕ}
    (h : self.process_vote balance_manager_id proposal_id ctx = .ok self') :
    ∃ mid mid' account governance, self.refresh ctx = .ok mid ∧
      mid.update_account balance_manager_id ctx = .ok mid' ∧
      mid'.accounts.get balance_manager_id = some account ∧ account.active_stake > 0 ∧
      mid'.governance.adjust_vote account.voted_proposal (some proposal_id) account.active_stake =
        .ok governance ∧
      self' = { mid' with
        accounts := mid'.accounts.set balance_manager_id (account.set_voted_proposal (some proposal_id)).1
        governance } := by
  obtain ⟨mid, mid', hmid, hmid', h⟩ := touch_eq_ok h
  obtain ⟨account, hacc, h⟩ := bind_eq_ok h
  rw [require_bind_eq_ok] at h
  obtain ⟨hstake, h⟩ := h
  obtain ⟨governance, hg, h⟩ := bind_eq_ok h
  rw [pure_eq_ok] at h
  exact ⟨mid, mid', account, governance, hmid, hmid', VecMap.borrow_eq_ok.mp hacc, hstake, hg, h.symm⟩

theorem process_proposal_eq_ok {balance_manager_id taker_fee maker_fee stake_required : ℕ}
    (h : self.process_proposal balance_manager_id taker_fee maker_fee stake_required ctx = .ok self') :
    ∃ mid mid' account governance, self.refresh ctx = .ok mid ∧
      mid.update_account balance_manager_id ctx = .ok mid' ∧
      mid'.accounts.get balance_manager_id = some account ∧ account.active_stake > 0 ∧
      account.created_proposal = false ∧
      mid'.governance.add_proposal taker_fee maker_fee stake_required account.active_stake
        balance_manager_id = .ok governance ∧
      { mid' with
        accounts := mid'.accounts.set balance_manager_id (account.set_created_proposal true)
        governance }.process_vote balance_manager_id balance_manager_id ctx = .ok self' := by
  obtain ⟨mid, mid', hmid, hmid', h⟩ := touch_eq_ok h
  obtain ⟨account, hacc, h⟩ := bind_eq_ok h
  simp only [require_bind_eq_ok, Bool.not_eq_eq_eq_not, Bool.not_true] at h
  obtain ⟨hstake, hcreated, h⟩ := h
  obtain ⟨governance, hg, h⟩ := bind_eq_ok h
  exact ⟨mid, mid', account, governance, hmid, hmid', VecMap.borrow_eq_ok.mp hacc, hstake, hcreated,
    hg, h⟩

theorem process_claim_rebates_eq_ok {balance_manager_id : ℕ} {r : State × Balances × Balances}
    (h : self.process_claim_rebates balance_manager_id ctx = .ok r) :
    ∃ mid mid' account, self.refresh ctx = .ok mid ∧
      mid.update_account balance_manager_id ctx = .ok mid' ∧
      mid'.accounts.get balance_manager_id = some account ∧
      r.1 = { mid' with
        accounts := mid'.accounts.set balance_manager_id account.claim_rebates.1.settle.1 } := by
  obtain ⟨mid, mid', hmid, hmid', h⟩ := touch_eq_ok h
  obtain ⟨account, hacc, h⟩ := bind_eq_ok h
  rw [pure_eq_ok] at h
  exact ⟨mid, mid', account, hmid, hmid', VecMap.borrow_eq_ok.mp hacc, by rw [← h]⟩

theorem process_cancel_eq_ok {order : Order} {balance_manager_id : ℕ}
    {r : State × Order × Balances × Balances}
    (h : self.process_cancel order balance_manager_id ctx = .ok r) :
    ∃ mid mid' account account' maker_fee, self.refresh ctx = .ok mid ∧
      mid.update_account balance_manager_id ctx = .ok mid' ∧
      mid'.history.historic_maker_fee order.epoch = .ok maker_fee ∧
      mid'.accounts.get balance_manager_id = some account ∧
      account.remove_order order.order_id = .ok account' ∧
      r.1 = { mid' with
        accounts := mid'.accounts.set balance_manager_id (account'.add_settled_balances
          (order.set_canceled.calculate_cancel_refund maker_fee none)).settle.1 } := by
  obtain ⟨mid, mid', hmid, hmid', h⟩ := touch_eq_ok h
  obtain ⟨maker_fee, hfee, h⟩ := bind_eq_ok h
  obtain ⟨account, hacc, h⟩ := bind_eq_ok h
  obtain ⟨account', hrem, h⟩ := bind_eq_ok h
  rw [pure_eq_ok] at h
  exact ⟨mid, mid', account, account', maker_fee, hmid, hmid', hfee, VecMap.borrow_eq_ok.mp hacc, hrem,
    by rw [← h]⟩

theorem process_modify_eq_ok {balance_manager_id cancel_quantity : ℕ} {order : Order}
    {r : State × Balances × Balances}
    (h : self.process_modify balance_manager_id cancel_quantity order ctx = .ok r) :
    ∃ mid mid' account maker_fee, self.refresh ctx = .ok mid ∧
      mid.update_account balance_manager_id ctx = .ok mid' ∧
      mid'.history.historic_maker_fee order.epoch = .ok maker_fee ∧
      mid'.accounts.get balance_manager_id = some account ∧
      r.1 = { mid' with
        accounts := mid'.accounts.set balance_manager_id (account.add_settled_balances
          (order.calculate_cancel_refund maker_fee (some cancel_quantity))).settle.1 } := by
  obtain ⟨mid, mid', hmid, hmid', h⟩ := touch_eq_ok h
  obtain ⟨maker_fee, hfee, h⟩ := bind_eq_ok h
  obtain ⟨account, hacc, h⟩ := bind_eq_ok h
  rw [pure_eq_ok] at h
  exact ⟨mid, mid', account, maker_fee, hmid, hmid', hfee, VecMap.borrow_eq_ok.mp hacc, by rw [← h]⟩

/-- A fill: the maker brought to the epoch and credited, then its volume
and maker fee counted when the fill did not expire it, or the fee
refunded to it when it did. -/
theorem process_fill_eq_ok {fill : Fill} (h : self.process_fill fill ctx = .ok self') :
    ∃ mid account account' fees, self.update_account fill.balance_manager_id ctx = .ok mid ∧
      mid.accounts.get fill.balance_manager_id = some account ∧
      account.process_maker_fill fill = .ok account' ∧
      self' = if !fill.expired then
          { mid with
            accounts := mid.accounts.set fill.balance_manager_id account'
            history := (mid.history.add_volume fill.base_quantity account'.active_stake).add_total_fees_collected
              fees }
        else
          { mid with
            accounts := mid.accounts.set fill.balance_manager_id (account'.add_settled_balances fees) } := by
  unfold process_fill at h
  obtain ⟨mid, hmid, h⟩ := bind_eq_ok h
  obtain ⟨account, hacc, h⟩ := bind_eq_ok h
  obtain ⟨account', hfill, h⟩ := bind_eq_ok h
  obtain ⟨maker_fee, -, h⟩ := bind_eq_ok h
  refine ⟨mid, account, account', (fill.maker_myso_price.fee_quantity fill.base_quantity
    fill.quote_quantity !fill.taker_is_bid).mul maker_fee, hmid, VecMap.borrow_eq_ok.mp hacc, hfill, ?_⟩
  split at h
  · next hexp =>
      rw [pure_eq_ok] at h
      rw [if_pos hexp, ← h]
  · next hexp =>
      rw [pure_eq_ok] at h
      rw [if_neg hexp, ← h]

theorem process_create_eq_ok {order_info : OrderInfo} {ewma_state : EWMAState}
    {r : State × OrderInfo × Balances × Balances}
    (h : self.process_create order_info ewma_state ctx = .ok r) :
    ∃ mid mid' mid'' account out, self.refresh ctx = .ok mid ∧
      mid.process_fills order_info.fills ctx = .ok mid' ∧
      mid'.update_account order_info.balance_manager_id ctx = .ok mid'' ∧
      mid''.accounts.get order_info.balance_manager_id = some account ∧
      Orderbook.process_create mid''.governance.trade_params ewma_state account.taker order_info ctx =
        .ok out ∧
      r.1 = { mid'' with
        accounts := mid''.accounts.set order_info.balance_manager_id (account.withTaker out.1)
        history := mid''.history.add_total_fees_collected out.2.1.paid_fees_balances } := by
  unfold process_create at h
  obtain ⟨mid, hmid, h⟩ := bind_eq_ok h
  obtain ⟨mid', hmid', h⟩ := bind_eq_ok h
  obtain ⟨mid'', hmid'', h⟩ := bind_eq_ok h
  obtain ⟨account, hacc, h⟩ := bind_eq_ok h
  obtain ⟨out, hout, h⟩ := bind_eq_ok h
  rw [mapError_eq_ok] at hout
  rw [pure_eq_ok] at h
  exact ⟨mid, mid', mid'', account, out, hmid, hmid', hmid'', VecMap.borrow_eq_ok.mp hacc, hout,
    by rw [← h]⟩

theorem withdraw_settled_amounts_cases (balance_manager_id : ℕ) :
    (self.accounts.get balance_manager_id = none ∧
        (self.withdraw_settled_amounts balance_manager_id).1 = self) ∨
      ∃ account, self.accounts.get balance_manager_id = some account ∧
        (self.withdraw_settled_amounts balance_manager_id).1 =
          { self with accounts := self.accounts.set balance_manager_id account.settle.1 } := by
  unfold withdraw_settled_amounts
  split
  · next account hget => exact .inr ⟨account, hget, rfl⟩
  · next hget => exact .inl ⟨hget, rfl⟩

end State

end state

end MysoCore.Orderbook
