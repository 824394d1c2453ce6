/-
What the models of the social contracts (myso-social/sources) share:
the transaction context, where the coins a call sends out go, and
`balance::split`.

# Numbers and aborts

As in the order book's model, Move's `u64` and `u128` are natural
numbers, and Move's aborts on overflow, underflow and division by zero
are not modelled: a run of the source that does not abort computes what
the model computes. The aborts the code raises itself are modelled by
each module's error constants, and so is the abort of `balance::split`
and `coin::split` on a balance too small, which the solvency results
are about.
-/
import MysoCore.Lib.ExceptFold
import Mathlib

namespace MysoCore.Social

/-- The fields of `TxContext` the modelled code reads. -/
structure TxContext where
  sender : ℕ
  epoch : ℕ
  epoch_timestamp_ms : ℕ
  deriving DecidableEq, Repr

/-- Where a call sends the coins it takes out of an object. -/
inductive Payee
  | address (a : ℕ)
  -- `platform::add_to_treasury`
  | platform
  -- the ecosystem treasury's address
  | treasury
  deriving DecidableEq, Repr

/-- The total of the coins a call sends out. -/
def paid (payments : List (Payee × ℕ)) : ℕ := (payments.map Prod.snd).sum

@[simp] theorem paid_nil : paid [] = 0 := rfl

@[simp] theorem paid_cons (p : Payee × ℕ) (payments : List (Payee × ℕ)) :
    paid (p :: payments) = p.2 + paid payments := by
  simp [paid]

@[simp] theorem paid_append (ps qs : List (Payee × ℕ)) : paid (ps ++ qs) = paid ps + paid qs := by
  simp [paid]

/-- `balance::split` (and `coin::split`): what is left of a balance of
`value` once `amount` is taken out, or the module's own name for
balance.move's `ENotEnough`. -/
def balance_split {ε : Type} (notEnough : ε) (value amount : ℕ) : Except ε ℕ :=
  if amount ≤ value then .ok (value - amount) else .error notEnough

section balance_split

variable {ε : Type} {e : ε} {value amount rest : ℕ}

@[simp] theorem balance_split_eq_ok :
    balance_split e value amount = .ok rest ↔ amount ≤ value ∧ rest = value - amount := by
  unfold balance_split
  split
  · simp_all [eq_comm]
  · simp only [reduceCtorEq, false_iff, not_and]
    omega

theorem balance_split_of_le (h : amount ≤ value) :
    balance_split e value amount = .ok (value - amount) := by
  simp [h]

@[simp] theorem balance_split_bind_eq_ok {β : Type} {f : ℕ → Except ε β} {b : β} :
    (balance_split e value amount >>= f) = .ok b ↔ amount ≤ value ∧ f (value - amount) = .ok b := by
  unfold balance_split
  by_cases h : amount ≤ value <;> simp [h]

@[simp] theorem balance_split_bind_eq_error {β : Type} {f : ℕ → Except ε β} {e' : ε} :
    (balance_split e value amount >>= f) = .error e' ↔
      (value < amount ∧ e = e') ∨ (amount ≤ value ∧ f (value - amount) = .error e') := by
  unfold balance_split
  by_cases h : amount ≤ value
  · simp [h, Nat.not_lt.mpr h]
  · simp [h]
    omega

end balance_split

end MysoCore.Social
