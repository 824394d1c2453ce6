/-
The funds-withdraw schedulers of the execution scheduler
(execution_scheduler/funds_withdraw_scheduler/address_funds): what a
scheduler is given and what it answers (mod.rs), the mock account store
the tests read balances from (mock_funds_read.rs), and the test harness
that drives a scheduler and the store together (test_scheduler.rs).

# Model

Account ids are any linearly ordered type, as `AccumulatorObjId` is an
ordered object id, and digests any type. Versions and amounts are
natural numbers and funds changes integers; the `u64`, `u128` and
`i128` overflows the code checks with `checked_add` cannot happen in
the model. A `BTreeMap` that the code iterates is a sorted association
list that carries its sortedness, a `BTreeSet` a `Finset` read in order
(`SortedSet.ascending`), and a map the code reads only by key a
function.

A panic of the code, an `assert!` or an `unwrap` on nothing, is a
`Panic` error naming the check, so that a run that does not panic is a
run of the code.

# Channels

A oneshot channel is what has been sent through it. A withdraw is known
by its place (`WithdrawId`): the accumulator version of its batch and
its position there, which is unique since a version has one batch. A
`Pending` result names the withdraw whose receiver it holds, and each
scheduler says what that withdraw's channel holds (`channel`). The maps
the schedulers return are keyed by digest; the model keeps their
entries in the order of the withdraws, which is what a caller reads
with distinct digests.

# The harness

`TestScheduler` is a store and a scheduler; settling funds changes
settles the store first and then tells the scheduler, as
`settle_funds_changes` does. A `Run` also keeps what the caller
scheduled and what it was answered, so that a withdraw's outcome can be
read at the end: the status it was given at once, or what its receiver
holds (`Run.resolved`).
-/
import MysoCore.Lib.ExceptFold
import MysoCore.Lib.SortedMap
import MysoCore.Lib.SortedSet

namespace MysoCore.ExecutionScheduler.FundsWithdraw

open SortedMap ExceptFold

/-- The status of scheduling a transaction's withdraws. -/
inductive ScheduleStatus
  | SufficientFunds
  | InsufficientFunds
  | SkipSchedule
  deriving DecidableEq, Repr

/-- A withdraw's place: the accumulator version its batch reads and its
position in the batch. -/
abbrev WithdrawId := ℕ × ℕ

set_option linter.dupNamespace false in
/-- The result of scheduling a transaction: a status, or the receiver of
the withdraw whose status comes later. -/
inductive ScheduleResult
  | ScheduleResult (status : ScheduleStatus)
  | Pending (receiver : WithdrawId)
  deriving DecidableEq, Repr

/-- The checks of the code that panic when they fail. -/
inductive Panic
  -- `assert_eq!(next_version, settlement.next_accumulator_version)` and its kin
  | settlementOutOfOrder
  -- `assert!(new_balance >= 0)`
  | negativeBalance
  -- `try_reserve_new_withdraw`: queued withdraws in version order
  | withdrawsOutOfOrder
  -- `try_reserve_front`: `accumulator_version() >= self.last_updated_version`
  | withdrawBeforeUpdate
  -- `try_reserve_front`: `accumulator_version() >= last_settled_version`
  | withdrawBeforeSettlement
  -- `add_reserved_fund`: `entry.0 < accumulator_version`
  | reservationsOutOfOrder
  -- `settle_fund`: `entry.0 >= next_version`
  | reservationUnsettled
  -- `settle_fund`: `checked_sub(entry.1).unwrap()`
  | reservedUnderflow
  -- `schedule_withdraws`: `assert!(old.is_none())`
  | versionScheduledTwice
  -- `init_balances.get(&account_id).cloned().unwrap()`
  | untrackedAccount
  -- `pending_amount`: `get(account_id).copied().unwrap()`
  | noPendingAmount
  -- `remove_pending_account`: `pending.remove(account_id).unwrap()`
  | accountNotPending
  -- `remove_pending_account`: `sender.lock().take().unwrap()`
  | senderTaken
  -- `unwrap_status` of a pending result
  | expectedScheduleResult
  deriving DecidableEq, Repr

variable {δ α : Type} [LinearOrder α]

/-- `ScheduleResult::unwrap_status`. -/
def ScheduleResult.unwrap_status : FundsWithdraw.ScheduleResult → Except Panic ScheduleStatus
  | .ScheduleResult status => pure status
  | .Pending _ => throw .expectedScheduleResult

-- ============================================================ requests

/-- A settlement: the version it brings the accumulator to and the
change of each account. -/
structure FundsSettlement (α : Type) [LinearOrder α] where
  next_accumulator_version : ℕ
  funds_changes : List (α × ℤ)
  sorted : Sorted funds_changes

/-- A transaction's withdraws: the amount it reserves from each account. -/
structure TxFundsWithdraw (δ α : Type) [LinearOrder α] where
  tx_digest : δ
  reservations : List (α × ℕ)
  sorted : Sorted reservations

/-- A batch of transactions reading one accumulator version. -/
structure WithdrawReservations (δ α : Type) [LinearOrder α] where
  accumulator_version : ℕ
  withdraws : List (TxFundsWithdraw δ α)

/-- Every transaction of the batch skipped. -/
def WithdrawReservations.notify_skip_schedule (r : WithdrawReservations δ α) :
    List (δ × ScheduleResult) :=
  r.withdraws.map fun withdraw => (withdraw.tx_digest, .ScheduleResult .SkipSchedule)

/-- The accounts the batch withdraws from. -/
def WithdrawReservations.all_accounts (r : WithdrawReservations δ α) : Finset α :=
  (r.withdraws.flatMap fun withdraw => keys withdraw.reservations).toFinset

theorem WithdrawReservations.mem_all_accounts {r : WithdrawReservations δ α} {a : α} :
    a ∈ r.all_accounts ↔ ∃ w ∈ r.withdraws, a ∈ keys w.reservations := by
  simp [all_accounts]

-- ============================================================ the store

/-- The mock account store: its accumulator version and the last entry
of each account's history, the version it was written at and the amount
(an entry of `None` reads as zero and is kept as zero). -/
structure MockFundsRead (α : Type) where
  cur_version : ℕ
  amounts : α → Option (ℕ × ℕ)

/-- `MockFundsRead::new`: every initial amount written at the initial
version. -/
def MockFundsRead.new (init_version : ℕ) (init_amounts : List (α × ℕ)) : MockFundsRead α where
  cur_version := init_version
  amounts a := (lookup a init_amounts).map fun amount => (init_version, amount)

/-- `get_latest_account_amount`: the last amount of an account and the
version it was written at; an account never written has nothing at the
current version. -/
def MockFundsRead.get_latest_account_amount (r : MockFundsRead α) (account_id : α) : ℕ × ℕ :=
  match r.amounts account_id with
  | some (version, amount) => (amount, version)
  | none => (0, r.cur_version)

/-- One account of `settle_funds_changes`: its latest amount plus its
change, written at the new version. -/
def MockFundsRead.settleAccount (new_version : ℕ) (r : MockFundsRead α) (change : α × ℤ) :
    Except Panic (MockFundsRead α) := do
  let new_balance := ((r.get_latest_account_amount change.1).1 : ℤ) + change.2
  require (0 ≤ new_balance) .negativeBalance
  pure { r with amounts := Function.update r.amounts change.1 (some (new_version, new_balance.toNat)) }

/-- `settle_funds_changes`: the accounts written at the next version,
then the version bumped. -/
def MockFundsRead.settle_funds_changes (r : MockFundsRead α) (funds_changes : List (α × ℤ))
    (next_accumulator_version : ℕ) : Except Panic (MockFundsRead α) := do
  let new_accumulator_version := r.cur_version + 1
  require (new_accumulator_version = next_accumulator_version) .settlementOutOfOrder
  let r ← funds_changes.foldlM (settleAccount new_accumulator_version) r
  pure { r with cur_version := new_accumulator_version }

-- ============================================================ schedulers

/-- `FundsWithdrawSchedulerTrait` over a scheduler's state `S`, given the
store it reads, and what the channel of each withdraw holds. -/
structure FundsWithdrawSchedulerTrait (S δ α : Type) [LinearOrder α] where
  schedule_withdraws : MockFundsRead α → S → WithdrawReservations δ α →
    Except Panic (S × List (δ × ScheduleResult))
  settle_funds : MockFundsRead α → S → FundsSettlement α → Except Panic S
  channel : S → WithdrawId → Option ScheduleStatus

-- ============================================================ the harness

/-- `TestScheduler`: a store and a scheduler reading it. -/
structure TestScheduler (S α : Type) where
  mock_read : MockFundsRead α
  scheduler : S

variable {S : Type}

/-- `TestScheduler::schedule_withdraws`. -/
def TestScheduler.schedule_withdraws (impl : FundsWithdrawSchedulerTrait S δ α)
    (t : TestScheduler S α) (accumulator_version : ℕ) (withdraws : List (TxFundsWithdraw δ α)) :
    Except Panic (TestScheduler S α × List (δ × ScheduleResult)) :=
  (fun r => ({ t with scheduler := r.1 }, r.2)) <$>
    impl.schedule_withdraws t.mock_read t.scheduler ⟨accumulator_version, withdraws⟩

/-- `TestScheduler::settle_funds_changes`: the store settles, then the
scheduler. -/
def TestScheduler.settle_funds_changes (impl : FundsWithdrawSchedulerTrait S δ α)
    (t : TestScheduler S α) (settlement : FundsSettlement α) : Except Panic (TestScheduler S α) := do
  let mock_read ← t.mock_read.settle_funds_changes settlement.funds_changes
    settlement.next_accumulator_version
  let scheduler ← impl.settle_funds mock_read t.scheduler settlement
  pure ⟨mock_read, scheduler⟩

/-- What a test does: schedule a batch, or settle funds changes. -/
inductive Event (δ α : Type) [LinearOrder α]
  | schedule_withdraws (accumulator_version : ℕ) (withdraws : List (TxFundsWithdraw δ α))
  | settle_funds_changes (settlement : FundsSettlement α)

/-- A batch as the test scheduled it, with the store's version then. -/
structure ScheduledBatch (δ α : Type) [LinearOrder α] where
  withdraws : List (TxFundsWithdraw δ α)
  scheduled_at : ℕ

/-- A test in progress: the harness, the batch scheduled at each
version and the result each withdraw was answered. -/
structure Run (S δ α : Type) [LinearOrder α] where
  test : TestScheduler S α
  batches : ℕ → Option (ScheduledBatch δ α)
  results : WithdrawId → Option ScheduleResult

/-- A test that has done nothing yet. -/
def Run.init (t : TestScheduler S α) : Run S δ α := ⟨t, fun _ => none, fun _ => none⟩

/-- The results of a batch at version `v`, recorded by place. -/
def recordResults (v : ℕ) (results : List (δ × ScheduleResult))
    (old : WithdrawId → Option ScheduleResult) : WithdrawId → Option ScheduleResult :=
  fun id => if id.1 = v then (results[id.2]?).map Prod.snd else old id

/-- One event of a test. -/
def Run.step (impl : FundsWithdrawSchedulerTrait S δ α) (r : Run S δ α) :
    Event δ α → Except Panic (Run S δ α)
  | .schedule_withdraws v withdraws =>
      (fun out => { test := out.1
                    batches := Function.update r.batches v (some ⟨withdraws, r.test.mock_read.cur_version⟩)
                    results := recordResults v out.2 r.results }) <$>
        r.test.schedule_withdraws impl v withdraws
  | .settle_funds_changes settlement =>
      (fun test => { r with test }) <$> r.test.settle_funds_changes impl settlement

/-- A test's events in order, stopping at the first panic. -/
def Run.run (impl : FundsWithdrawSchedulerTrait S δ α) (r : Run S δ α) (events : List (Event δ α)) :
    Except Panic (Run S δ α) :=
  events.foldlM (Run.step impl) r

/-- How a withdraw was resolved: the status it was answered, or what
its receiver has been sent. -/
def Run.resolved (impl : FundsWithdrawSchedulerTrait S δ α) (r : Run S δ α) (id : WithdrawId) :
    Option ScheduleStatus :=
  match r.results id with
  | some (.ScheduleResult status) => some status
  | some (.Pending receiver) => impl.channel r.test.scheduler receiver
  | none => none

end MysoCore.ExecutionScheduler.FundsWithdraw
