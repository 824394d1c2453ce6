/-
The eager funds-withdraw scheduler (eager_scheduler/mod.rs,
account_state.rs, pending_withdraw.rs): a withdraw is decided as soon
as the funds of each of its accounts are known to suffice, and decided
insufficient only once its version is settled.

# Model

Each account the scheduler has seen withdraws for has an
`AccountState`: its last settled balance, the funds reserved for each
unsettled version and the withdraws that could not yet reserve, in
order. A reservation is made against the last settled balance less
everything still reserved, a bound that settlements can only loosen
when each settled change is at least minus what was reserved at its
version. A withdraw that cannot reserve waits at the front of its
account's queue and blocks the ones behind it; a settlement retries the
queue of every account it touches (`settle_funds`, with its `while`
loop as `reserveWhile`), and at its own version a withdraw is decided
either way.

A `PendingWithdraw` is shared (`Arc`) between the queues of its
accounts and changed through its locks: the model keeps one table of
them, by place (`withdraws`), and a queue holds places. `sent` is the
sender: `none` while it is held, and once it is taken, the status sent
through it. The withdraw's digest is read from the transaction itself.
-/
import MysoCore.ExecutionScheduler.FundsWithdraw

namespace MysoCore.ExecutionScheduler.FundsWithdraw

open SortedMap ExceptFold

variable {δ α : Type} [LinearOrder α]

-- ============================================================ pending withdraws

/-- A withdraw waiting to be decided: its version, its sender and the
accounts it has not reserved from yet. -/
structure PendingWithdraw (α : Type) where
  accumulator_version : ℕ
  sent : Option ScheduleStatus
  pending : List (α × ℕ)

/-- The pending withdraws, by place. -/
abbrev Withdraws (α : Type) := WithdrawId → PendingWithdraw α

namespace PendingWithdraw

/-- `PendingWithdraw::new`: nothing reserved, the sender held. -/
def new (accumulator_version : ℕ) (withdraw : TxFundsWithdraw δ α) : PendingWithdraw α :=
  ⟨accumulator_version, none, withdraw.reservations⟩

/-- `pending_amount`: what is still to reserve from an account. -/
def pending_amount (w : PendingWithdraw α) (account_id : α) : Except Panic ℕ :=
  match lookup account_id w.pending with
  | some amount => pure amount
  | none => throw .noPendingAmount

/-- `is_scheduled`: the sender has been taken. -/
def is_scheduled (w : PendingWithdraw α) : Bool := w.sent.isSome

/-- `remove_pending_account`: an account reserved; the last one sends
`SufficientFunds`. -/
def remove_pending_account (w : PendingWithdraw α) (account_id : α) :
    Except Panic (PendingWithdraw α) := do
  require (account_id ∈ keys w.pending) .accountNotPending
  let pending := eraseKey account_id w.pending
  if pending = [] then
    (fun _ => { w with pending, sent := some .SufficientFunds }) <$>
      require (w.sent = none) .senderTaken
  else pure { w with pending }

/-- `notify_insufficient_funds`: `InsufficientFunds` sent, unless the
sender is already taken. -/
def notify_insufficient_funds (w : PendingWithdraw α) : PendingWithdraw α :=
  match w.sent with
  | none => { w with sent := some .InsufficientFunds }
  | some _ => w

end PendingWithdraw

-- ============================================================ account states

/-- The funds reserved for each unsettled version, in version order, and
their total. -/
structure ReservedFunds where
  reserved_funds : List (ℕ × ℕ)
  total_reserved_funds_amount : ℕ
  deriving DecidableEq, Repr

namespace ReservedFunds

/-- `add_reserved_fund`: added to the last version's entry if it is the
same version, else a new last entry. -/
def add_reserved_fund (rf : ReservedFunds) (accumulator_version amount : ℕ) :
    Except Panic ReservedFunds :=
  let total_reserved_funds_amount := rf.total_reserved_funds_amount + amount
  let pushed : ReservedFunds :=
    ⟨rf.reserved_funds ++ [(accumulator_version, amount)], total_reserved_funds_amount⟩
  match rf.reserved_funds.getLast? with
  | some (version, reserved) =>
      if version = accumulator_version then
        pure ⟨rf.reserved_funds.dropLast ++ [(version, reserved + amount)], total_reserved_funds_amount⟩
      else (fun _ => pushed) <$> require (version < accumulator_version) .reservationsOutOfOrder
  | none => pure pushed

/-- `settle_fund`: the first entry released once its version is settled. -/
def settle_fund (rf : ReservedFunds) (next_version : ℕ) : Except Panic ReservedFunds :=
  match rf.reserved_funds with
  | (version, amount) :: rest =>
      if version + 1 = next_version then
        (fun _ => ⟨rest, rf.total_reserved_funds_amount - amount⟩) <$>
          require (amount ≤ rf.total_reserved_funds_amount) .reservedUnderflow
      else (fun _ => rf) <$> require (next_version ≤ version) .reservationUnsettled
  | [] => pure rf

end ReservedFunds

/-- What the scheduler tracks of an account: its last settled balance
and the version it was read at, its reserved funds and the withdraws
waiting to reserve. -/
structure AccountState where
  last_updated_balance : ℕ
  last_updated_version : ℕ
  reserved_funds : ReservedFunds
  pending_reservations : List WithdrawId
  deriving DecidableEq, Repr

namespace AccountState

/-- `AccountState::new`. -/
def new (init_balance init_version : ℕ) : AccountState :=
  ⟨init_balance, init_version, ⟨[], 0⟩, []⟩

/-- `try_reserve_front`: the first waiting withdraw reserves if the
funds cover it and everything reserved, is decided insufficient at its
own version, and else goes back to the front; `true` when it was
decided. -/
def try_reserve_front (account_id : α) (last_settled_version : ℕ) (withdraws : Withdraws α)
    (s : AccountState) : Except Panic (Bool × AccountState × Withdraws α) :=
  match s.pending_reservations with
  | [] => pure (false, s, withdraws)
  | id :: rest => do
      let pending_withdraw := withdraws id
      require (s.last_updated_version ≤ pending_withdraw.accumulator_version) .withdrawBeforeUpdate
      require (last_settled_version ≤ pending_withdraw.accumulator_version) .withdrawBeforeSettlement
      let to_reserve ← pending_withdraw.pending_amount account_id
      if s.reserved_funds.total_reserved_funds_amount + to_reserve ≤ s.last_updated_balance then do
        let reserved_funds ← s.reserved_funds.add_reserved_fund pending_withdraw.accumulator_version
          to_reserve
        let pending_withdraw ← pending_withdraw.remove_pending_account account_id
        pure (true, { s with reserved_funds, pending_reservations := rest },
          Function.update withdraws id pending_withdraw)
      else if pending_withdraw.accumulator_version = last_settled_version then
        pure (true, { s with pending_reservations := rest },
          Function.update withdraws id pending_withdraw.notify_insufficient_funds)
      else pure (false, s, withdraws)

/-- `try_reserve_new_withdraw`: a new withdraw joins the queue and is
tried at once only if nothing waits before it. -/
def try_reserve_new_withdraw (account_id : α) (new_withdraw : WithdrawId)
    (last_settled_version : ℕ) (withdraws : Withdraws α) (s : AccountState) :
    Except Panic (Bool × AccountState × Withdraws α) :=
  let queued := { s with pending_reservations := s.pending_reservations ++ [new_withdraw] }
  match s.pending_reservations.getLast? with
  | some last =>
      (fun _ => (false, queued, withdraws)) <$>
        require ((withdraws last).accumulator_version ≤ (withdraws new_withdraw).accumulator_version)
          .withdrawsOutOfOrder
  | none => queued.try_reserve_front account_id last_settled_version withdraws

/-- The settled change of a settlement newer than the balance: balance
and version brought up to it. -/
def updateBalance (settled : ℤ) (next_version : ℕ) (s : AccountState) : Except Panic AccountState :=
  if s.last_updated_version < next_version then
    (fun _ => { s with last_updated_balance := ((s.last_updated_balance : ℤ) + settled).toNat
                       last_updated_version := next_version }) <$>
      require (0 ≤ (s.last_updated_balance : ℤ) + settled) .negativeBalance
  else pure s

/-- `while self.try_reserve_front(next_version) {}`, with fuel: each
round that decides a withdraw takes it off the queue, so fuel one more
than the queue's length runs the loop to its end (`AccountState.reserveWhile_ok`). -/
def reserveWhile (account_id : α) (next_version : ℕ) :
    ℕ → Withdraws α → AccountState → Except Panic (AccountState × Withdraws α)
  | 0, withdraws, s => pure (s, withdraws)
  | fuel + 1, withdraws, s => do
      let r ← s.try_reserve_front account_id next_version withdraws
      if r.1 then reserveWhile account_id next_version fuel r.2.2 r.2.1 else pure (r.2.1, r.2.2)

/-- `AccountState::settle_funds`: the settled change taken in, the
settled version's reservations released, and the queue retried. -/
def settle_funds (account_id : α) (settled : ℤ) (next_version : ℕ) (withdraws : Withdraws α)
    (s : AccountState) : Except Panic (AccountState × Withdraws α) := do
  let s ← s.updateBalance settled next_version
  let reserved_funds ← s.reserved_funds.settle_fund next_version
  let s := { s with reserved_funds }
  s.reserveWhile account_id next_version (s.pending_reservations.length + 1) withdraws

/-- `is_empty`: nothing waits and nothing is reserved. -/
def is_empty (s : AccountState) : Bool :=
  s.pending_reservations.isEmpty && s.reserved_funds.reserved_funds.isEmpty

end AccountState

-- ============================================================ the scheduler

/-- The scheduler's inner state: the tracked accounts, the accounts each
scheduled version withdraws from, and the current accumulator version. -/
structure InnerState (α : Type) where
  tracked_accounts : α → Option AccountState
  pending_settlements : ℕ → Option (Finset α)
  accumulator_version : ℕ

/-- `EagerFundsWithdrawScheduler`: its inner state and the pending
withdraws its queues point to. -/
structure EagerFundsWithdrawScheduler (α : Type) where
  inner_state : InnerState α
  withdraws : Withdraws α

namespace EagerFundsWithdrawScheduler

/-- `EagerFundsWithdrawScheduler::new`. -/
def new (starting_accumulator_version : ℕ) : EagerFundsWithdrawScheduler α :=
  ⟨⟨fun _ => none, fun _ => none, starting_accumulator_version⟩, fun _ => ⟨0, none, []⟩⟩

/-- `tracked_accounts.entry(account_id).or_insert_with(..)`: the
account's state, or a new one from the balance read for it. -/
def entryOrInsert (init_balances : α → Option (ℕ × ℕ)) (s : EagerFundsWithdrawScheduler α)
    (account_id : α) : Except Panic AccountState :=
  match s.inner_state.tracked_accounts account_id with
  | some entry => pure entry
  | none =>
      match init_balances account_id with
      | some (balance, version) => pure (AccountState.new balance version)
      | none => throw .untrackedAccount

/-- One account of a withdraw: its state tries the withdraw. -/
def reserveAccount (init_balances : α → Option (ℕ × ℕ)) (id : WithdrawId)
    (cur_accumulator_version : ℕ) (s : EagerFundsWithdrawScheduler α) (account_id : α) :
    Except Panic (EagerFundsWithdrawScheduler α) := do
  let entry ← entryOrInsert init_balances s account_id
  let r ← entry.try_reserve_new_withdraw account_id id cur_accumulator_version s.withdraws
  pure ⟨{ s.inner_state with
            tracked_accounts := Function.update s.inner_state.tracked_accounts account_id (some r.2.1) },
        r.2.2⟩

/-- The result of a withdraw once each of its accounts has tried it:
its status if it was decided, else its receiver. -/
def withdrawResult (s : EagerFundsWithdrawScheduler α) (id : WithdrawId) : ScheduleResult :=
  match (s.withdraws id).sent with
  | some status => .ScheduleResult status
  | none => .Pending id

/-- One withdraw of `schedule_withdraws`, at its position in the batch. -/
def scheduleWithdraw (init_balances : α → Option (ℕ × ℕ)) (accumulator_version : ℕ)
    (cur_accumulator_version : ℕ) (acc : EagerFundsWithdrawScheduler α × List (δ × ScheduleResult))
    (withdraw : TxFundsWithdraw δ α × ℕ) :
    Except Panic (EagerFundsWithdrawScheduler α × List (δ × ScheduleResult)) := do
  let id := (accumulator_version, withdraw.2)
  let s := { acc.1 with
    withdraws := Function.update acc.1.withdraws id (PendingWithdraw.new accumulator_version withdraw.1) }
  let s ← (keys withdraw.1.reservations).foldlM
    (reserveAccount init_balances id cur_accumulator_version) s
  pure (s, acc.2 ++ [(withdraw.1.tx_digest, s.withdrawResult id)])

/-- The balances read for the accounts not yet tracked. -/
def initBalances (funds_read : MockFundsRead α) (untracked_accounts : List α) :
    α → Option (ℕ × ℕ) :=
  fun account_id =>
    if account_id ∈ untracked_accounts then some (funds_read.get_latest_account_amount account_id)
    else none

/-- The withdraws of a batch tried in order, then the batch's accounts
recorded for the settlement of its version. -/
def scheduleBatch (funds_read : MockFundsRead α) (s : EagerFundsWithdrawScheduler α)
    (reservations : WithdrawReservations δ α) (untracked_accounts : List α) :
    Except Panic (EagerFundsWithdrawScheduler α × List (δ × ScheduleResult)) := do
  let r ← reservations.withdraws.zipIdx.foldlM
    (scheduleWithdraw (initBalances funds_read untracked_accounts) reservations.accumulator_version
      s.inner_state.accumulator_version) (s, [])
  (fun _ => (⟨{ r.1.inner_state with
                  pending_settlements := Function.update r.1.inner_state.pending_settlements
                    reservations.accumulator_version (some reservations.all_accounts) },
              r.1.withdraws⟩, r.2)) <$>
    require (r.1.inner_state.pending_settlements reservations.accumulator_version = none)
      .versionScheduledTwice

/-- `schedule_withdraws`: skip a settled version, or one an account has
moved past; else try every withdraw. -/
def schedule_withdraws (funds_read : MockFundsRead α) (s : EagerFundsWithdrawScheduler α)
    (reservations : WithdrawReservations δ α) :
    Except Panic (EagerFundsWithdrawScheduler α × List (δ × ScheduleResult)) :=
  if reservations.accumulator_version < s.inner_state.accumulator_version then
    pure (s, reservations.notify_skip_schedule)
  else
    let untracked_accounts := (SortedSet.ascending reservations.all_accounts).filter fun a =>
      (s.inner_state.tracked_accounts a).isNone
    if untracked_accounts.any fun a =>
        decide (reservations.accumulator_version < (funds_read.get_latest_account_amount a).2) then
      pure (s, reservations.notify_skip_schedule)
    else scheduleBatch funds_read s reservations untracked_accounts

/-- One affected account of a settlement: settled if it is tracked, and
no longer tracked once empty. -/
def settleAccount (settlement : FundsSettlement α) (s : EagerFundsWithdrawScheduler α)
    (object_id : α) : Except Panic (EagerFundsWithdrawScheduler α) :=
  match s.inner_state.tracked_accounts object_id with
  | none => pure s
  | some account_state =>
      (fun r => ⟨{ s.inner_state with
                    tracked_accounts := Function.update s.inner_state.tracked_accounts object_id
                      (if r.1.is_empty then none else some r.1) },
                 r.2⟩) <$>
        account_state.settle_funds object_id ((lookup object_id settlement.funds_changes).getD 0)
          settlement.next_accumulator_version s.withdraws

/-- The accounts a settlement must process: those with withdraws at the
version it settles or at the one it reaches, and those it changes. -/
def affectedAccounts (s : EagerFundsWithdrawScheduler α) (settlement : FundsSettlement α) : Finset α :=
  (s.inner_state.pending_settlements s.inner_state.accumulator_version).getD ∅ ∪
    (s.inner_state.pending_settlements settlement.next_accumulator_version).getD ∅ ∪
    (keys settlement.funds_changes).toFinset

/-- `settle_funds`: a settled version is ignored; the next one bumps the
version, drops the settled version's record and settles every affected
account in order. -/
def settle_funds (s : EagerFundsWithdrawScheduler α) (settlement : FundsSettlement α) :
    Except Panic (EagerFundsWithdrawScheduler α) :=
  if settlement.next_accumulator_version ≤ s.inner_state.accumulator_version then pure s
  else do
    require (settlement.next_accumulator_version = s.inner_state.accumulator_version + 1)
      .settlementOutOfOrder
    let bumped : EagerFundsWithdrawScheduler α :=
      ⟨{ s.inner_state with
           accumulator_version := settlement.next_accumulator_version
           pending_settlements :=
             Function.update s.inner_state.pending_settlements s.inner_state.accumulator_version none },
       s.withdraws⟩
    (SortedSet.ascending (s.affectedAccounts settlement)).foldlM (settleAccount settlement) bumped

/-- The eager scheduler behind the trait; a receiver reads its
withdraw's sender. -/
def impl : FundsWithdrawSchedulerTrait (EagerFundsWithdrawScheduler α) δ α where
  schedule_withdraws funds_read s reservations := s.schedule_withdraws funds_read reservations
  settle_funds _ s settlement := s.settle_funds settlement
  channel s id := (s.withdraws id).sent

end EagerFundsWithdrawScheduler

/-- `TestScheduler::new_eager`. -/
def TestScheduler.new_eager (init_version : ℕ) (init_funds : List (α × ℕ)) :
    TestScheduler (EagerFundsWithdrawScheduler α) α :=
  ⟨MockFundsRead.new init_version init_funds, EagerFundsWithdrawScheduler.new init_version⟩

end MysoCore.ExecutionScheduler.FundsWithdraw
