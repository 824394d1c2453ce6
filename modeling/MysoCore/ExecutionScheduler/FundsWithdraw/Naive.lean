/-
The naive funds-withdraw scheduler (naive_scheduler.rs): a batch is
processed once the accumulator reaches its version, against the
balances read from the store then.

# Model

`process_withdraws` reads every account of the batch once and walks the
transactions in order, deducting each reservation that the remaining
funds of its account cover and failing the transaction, but not its
other deductions, on one that they do not: the reservations of one
transaction are not atomic. A batch for a later version spawns a task
that waits on the version channel; the task is modelled as run as soon
as a settlement brings the version to its batch's, before the next call
(`wake`), which is how the tests observe it.
-/
import Mathlib
import MysoCore.ExecutionScheduler.FundsWithdraw

namespace MysoCore.ExecutionScheduler.FundsWithdraw

open SortedMap ExceptFold

variable {δ α : Type} [LinearOrder α]

/-- The naive scheduler: the value of its accumulator-version channel,
the batches of the tasks still waiting for their version, and what the
channel of each pending withdraw has been sent. -/
structure NaiveFundsWithdrawScheduler (δ α : Type) [LinearOrder α] where
  accumulator_version : ℕ
  waiting : List (WithdrawReservations δ α)
  sent : WithdrawId → Option ScheduleStatus

namespace NaiveFundsWithdrawScheduler

/-- `NaiveFundsWithdrawScheduler::new`. -/
def new (cur_accumulator_version : ℕ) : NaiveFundsWithdrawScheduler δ α :=
  ⟨cur_accumulator_version, [], fun _ => none⟩

/-- One reservation of a transaction: deducted from its account's funds
if they cover it, else the transaction fails. -/
def reserveWithdraw (state : (α → ℕ) × Bool) (reservation : α × ℕ) : (α → ℕ) × Bool :=
  if state.1 reservation.1 < reservation.2 then (state.1, false)
  else (Function.update state.1 reservation.1 (state.1 reservation.1 - reservation.2), state.2)

/-- One transaction of `process_withdraws`: its reservations tried in
account order, and its status. -/
def processWithdraw (state : (α → ℕ) × List (δ × ScheduleResult)) (withdraw : TxFundsWithdraw δ α) :
    (α → ℕ) × List (δ × ScheduleResult) :=
  let (cur_funds, success) := withdraw.reservations.foldl reserveWithdraw (state.1, true)
  let status := if success then ScheduleStatus.SufficientFunds else .InsufficientFunds
  (cur_funds, state.2 ++ [(withdraw.tx_digest, .ScheduleResult status)])

/-- `process_withdraws`: skip the batch if an account has moved past its
version, else decide its transactions in order against the balances
read now. -/
def process_withdraws (funds_read : MockFundsRead α) (reservations : WithdrawReservations δ α) :
    List (δ × ScheduleResult) :=
  if (SortedSet.ascending reservations.all_accounts).any fun account_id =>
      decide (reservations.accumulator_version < (funds_read.get_latest_account_amount account_id).2) then
    reservations.notify_skip_schedule
  else
    (reservations.withdraws.foldl processWithdraw
      (fun account_id => (funds_read.get_latest_account_amount account_id).1, [])).2

/-- `schedule_withdraws`: skip a settled version, process the current
one, and spawn a task for a later one. -/
def schedule_withdraws (funds_read : MockFundsRead α) (s : NaiveFundsWithdrawScheduler δ α)
    (reservations : WithdrawReservations δ α) :
    NaiveFundsWithdrawScheduler δ α × List (δ × ScheduleResult) :=
  let cur_version := s.accumulator_version
  if reservations.accumulator_version < cur_version then (s, reservations.notify_skip_schedule)
  else if cur_version = reservations.accumulator_version then
    (s, process_withdraws funds_read reservations)
  else
    ({ s with waiting := s.waiting ++ [reservations] },
      reservations.withdraws.zipIdx.map fun w =>
        (w.1.tx_digest, .Pending (reservations.accumulator_version, w.2)))

/-- `settle_funds`: a settled version is ignored, the next one sent on
the channel. -/
def settle_funds (s : NaiveFundsWithdrawScheduler δ α) (settlement : FundsSettlement α) :
    Except Panic (NaiveFundsWithdrawScheduler δ α) :=
  let next_version := s.accumulator_version + 1
  if settlement.next_accumulator_version < next_version then pure s
  else
    (fun _ => { s with accumulator_version := next_version }) <$>
      require (next_version = settlement.next_accumulator_version) .settlementOutOfOrder

/-- A spawned task once the channel has reached its version: skip if it
is passed, else process the batch and send each result to its
withdraw's channel. -/
def runTask (funds_read : MockFundsRead α) (s : NaiveFundsWithdrawScheduler δ α)
    (reservations : WithdrawReservations δ α) : Except Panic (NaiveFundsWithdrawScheduler δ α) := do
  let v := reservations.accumulator_version
  let statuses ← if v < s.accumulator_version then
      pure (reservations.withdraws.map fun _ => ScheduleStatus.SkipSchedule)
    else (process_withdraws funds_read reservations).mapM fun r => r.2.unwrap_status
  pure { s with sent := fun id => if id.1 = v then statuses[id.2]? else s.sent id }

/-- The tasks the channel's value wakes, run in the order they were
spawned. -/
def wake (funds_read : MockFundsRead α) (s : NaiveFundsWithdrawScheduler δ α) :
    Except Panic (NaiveFundsWithdrawScheduler δ α) :=
  (s.waiting.filter fun r => r.accumulator_version ≤ s.accumulator_version).foldlM (runTask funds_read)
    { s with waiting := s.waiting.filter fun r => s.accumulator_version < r.accumulator_version }

/-- The naive scheduler behind the trait: a settlement wakes the tasks
waiting for the new version. -/
def impl : FundsWithdrawSchedulerTrait (NaiveFundsWithdrawScheduler δ α) δ α where
  schedule_withdraws funds_read s reservations := pure (schedule_withdraws funds_read s reservations)
  settle_funds funds_read s settlement := do
    let s ← s.settle_funds settlement
    s.wake funds_read
  channel s id := s.sent id

end NaiveFundsWithdrawScheduler

/-- `TestScheduler::new_naive`. -/
def TestScheduler.new_naive (init_version : ℕ) (init_funds : List (α × ℕ)) :
    TestScheduler (NaiveFundsWithdrawScheduler δ α) α :=
  ⟨MockFundsRead.new init_version init_funds, NaiveFundsWithdrawScheduler.new init_version⟩

end MysoCore.ExecutionScheduler.FundsWithdraw
