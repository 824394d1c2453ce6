/-
Fixed-width unsigned words as natural numbers.

A `w`-bit word is a natural number below `2 ^ w`. Arithmetic that a
release build performs without overflow checks wraps around: the
`wrapping*` operations below are those results, named after the
standard-library methods that make the same computation explicit. The
lemmas say when a wrapping operation is the plain one, which is how the
layers above discharge overflow once an invariant bounds the operands.
-/
import Mathlib

namespace Word

variable (w : ℕ)

-- ============================================================ operations

/-- Wrapping addition of two `w`-bit words. -/
def wrappingAdd (a b : ℕ) : ℕ := (a + b) % 2 ^ w

/-- Wrapping subtraction of two `w`-bit words: `a - b`, plus `2 ^ w` when
it would go below zero. -/
def wrappingSub (a b : ℕ) : ℕ := (a + 2 ^ w - b) % 2 ^ w

/-- Wrapping multiplication of two `w`-bit words. -/
def wrappingMul (a b : ℕ) : ℕ := (a * b) % 2 ^ w

-- ====================================================== no-overflow cases

variable {w}

theorem wrappingMul_of_lt {a b : ℕ} (h : a * b < 2 ^ w) : wrappingMul w a b = a * b :=
  Nat.mod_eq_of_lt h

theorem wrappingSub_of_le {a b : ℕ} (hb : b ≤ a) (ha : a < 2 ^ w) :
    wrappingSub w a b = a - b := by
  unfold wrappingSub
  have hre : a + 2 ^ w - b = (a - b) + 2 ^ w := by omega
  rw [hre, Nat.add_mod_right]
  exact Nat.mod_eq_of_lt (by omega)

/-- Folding wrapping additions over a list reduces the plain sum once. -/
theorem foldl_wrappingAdd (l : List ℕ) (a : ℕ) :
    l.foldl (wrappingAdd w) (a % 2 ^ w) = (a + l.sum) % 2 ^ w := by
  induction l generalizing a with
  | nil => simp
  | cons x l ih =>
      simp only [List.foldl_cons, List.sum_cons]
      have hstep : wrappingAdd w (a % 2 ^ w) x = (a + x) % 2 ^ w := by
        unfold wrappingAdd
        rw [Nat.add_mod, Nat.mod_mod, ← Nat.add_mod]
      rw [hstep, ih, Nat.add_assoc]

end Word
