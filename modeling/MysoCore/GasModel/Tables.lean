/-
The Move VM's gas meter (myso-types/src/gas_model/tables.rs): the budget
in internal units, the units left, and what a run of charges does to
them.

# The meter

`GasStatus::new` turns a budget in MIST into gas units at the gas price,
and those into internal units, a thousand to the unit. Every charge of
the meter (instructions, stack, bytes, natives) ends in `deduct_gas`,
the only writer of `gas_left`, and metering can be switched off
(`set_metering`). So a run of the meter is a list of deductions and
switches (`MeterOp`); none of them touches the initial budget
(`run_initial_budget`), and the gas used, counted down from it and
rounded down to units, never exceeds it (`gas_used_le_initial`). From
`new` that is at most the budget divided by the gas price
(`run_gas_used_le`).
-/
import Mathlib

namespace MysoCore.GasModel

/-- The status codes the modelled meter returns. -/
inductive StatusCode
  | OUT_OF_GAS
  deriving DecidableEq, Repr

/-- `GasStatus`, with what its gas accounting reads: the internal units
left and at the start, the gas price, and whether it charges. The
stack and instruction tiers only price a charge before `deduct_gas`
takes it, and are left out. -/
structure GasStatus where
  gas_left : ℕ
  gas_price : ℕ
  initial_budget : ℕ
  charge : Bool
  deriving DecidableEq, Repr

/-- Internal units per gas unit (`ToUnit<InternalGasUnit> for GasUnit`). -/
def INTERNAL_UNIT_MULTIPLIER : ℕ := 1000

namespace GasStatus

/-- `to_internal_units`: gas units to internal units. -/
def to_internal_units (val : ℕ) : ℕ := val * INTERNAL_UNIT_MULTIPLIER

/-- `InternalGas::to_unit_round_down`: internal units to gas units,
rounded down (its saturation at `u64::MAX` never applies, the result
being at most its argument). -/
def to_unit_round_down (val : ℕ) : ℕ := val / INTERNAL_UNIT_MULTIPLIER

/-- `GasStatus::new`: `none` where it asserts a zero gas price. -/
def new (budget gas_price : ℕ) : Option GasStatus :=
  if gas_price > 0 then
    some ⟨to_internal_units (budget / gas_price), gas_price,
      to_internal_units (budget / gas_price), true⟩
  else none

/-- `deduct_gas`: take `amount` internal units, or empty the meter and
fail when fewer are left. -/
def deduct_gas (self : GasStatus) (amount : ℕ) : GasStatus × Except StatusCode Unit :=
  if !self.charge then (self, .ok ())
  else if amount ≤ self.gas_left then ({ self with gas_left := self.gas_left - amount }, .ok ())
  else ({ self with gas_left := 0 }, .error .OUT_OF_GAS)

/-- `set_metering`. -/
def set_metering (self : GasStatus) (enabled : Bool) : GasStatus := { self with charge := enabled }

/-- `gas_used_pre_gas_price`: the units used, counted down from the
initial budget. -/
def gas_used_pre_gas_price (self : GasStatus) : ℕ :=
  if self.gas_left ≤ self.initial_budget then
    to_unit_round_down (self.initial_budget - self.gas_left)
  else to_unit_round_down self.initial_budget

end GasStatus

-- ============================================================ runs of the meter

/-- What the VM does to the meter's accounting between its creation and
the final charge. -/
inductive MeterOp
  | deduct_gas (amount : ℕ)
  | set_metering (enabled : Bool)
  deriving DecidableEq, Repr

namespace GasStatus

def apply (self : GasStatus) : MeterOp → GasStatus
  | .deduct_gas amount => (self.deduct_gas amount).1
  | .set_metering enabled => self.set_metering enabled

/-- A run of the meter, going on after a failed deduction as the VM's
caller may. -/
def run (self : GasStatus) (ops : List MeterOp) : GasStatus := ops.foldl apply self

theorem apply_initial_budget (self : GasStatus) (op : MeterOp) :
    (self.apply op).initial_budget = self.initial_budget := by
  cases op with
  | deduct_gas amount =>
    show (self.deduct_gas amount).1.initial_budget = _
    unfold deduct_gas
    split_ifs <;> rfl
  | set_metering enabled => rfl

theorem run_initial_budget (self : GasStatus) :
    ∀ ops : List MeterOp, (self.run ops).initial_budget = self.initial_budget := by
  -- by induction on the run, generalizing the state it starts from
  intro ops
  induction ops generalizing self with
  | nil => rfl
  | cons op ops ih => rw [run, List.foldl_cons, ← run, ih, apply_initial_budget]

/-- The gas used is at most the initial budget, in units. -/
theorem gas_used_le_initial (self : GasStatus) :
    self.gas_used_pre_gas_price ≤ to_unit_round_down self.initial_budget := by
  unfold gas_used_pre_gas_price to_unit_round_down
  split_ifs
  · exact Nat.div_le_div_right (Nat.sub_le _ _)
  · exact Nat.le_refl _

/-- After any run of a meter from `new`, the gas used is at most the
budget divided by the gas price. -/
theorem run_gas_used_le {budget gas_price : ℕ} {self : GasStatus}
    (h : GasStatus.new budget gas_price = some self) (ops : List MeterOp) :
    (self.run ops).gas_used_pre_gas_price ≤ budget / gas_price := by
  unfold GasStatus.new at h
  split_ifs at h with hp
  obtain rfl := Option.some.inj h
  calc (GasStatus.run _ ops).gas_used_pre_gas_price
      ≤ to_unit_round_down (GasStatus.run _ ops).initial_budget := gas_used_le_initial _
    _ = budget / gas_price := by
      rw [run_initial_budget, to_unit_round_down, to_internal_units, INTERNAL_UNIT_MULTIPLIER,
        Nat.mul_div_cancel _ (by decide : 0 < 1000)]

end GasStatus

end MysoCore.GasModel
