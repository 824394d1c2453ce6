/-
Rounding up: to a multiple of a step, and to the next value of a sorted
list.

# Multiples

`divCeil a b` is the quotient rounded up, computed as Rust's `div_ceil`
does, from the floor quotient and the remainder. For `b > 0`,
`divCeil a b * b` is the least multiple of `b` at or above `a`
(`isLeast_divCeil_mul`), and lies below `a + b` (`divCeil_mul_lt`).

# Sorted lists

On a strictly increasing list, the first element at or above a bound is
the least such element (`isLeast_find?`). Each rounding here is the least
element of a set that shrinks as the value rounded grows, so every such
rounding is monotone (`IsLeast.mono` from Mathlib).
-/
import Mathlib

namespace Rounding

-- ============================================================ multiples

/-- The quotient rounded up, as Rust's `div_ceil`: the floor quotient,
plus one when the division leaves a remainder. -/
def divCeil (a b : ℕ) : ℕ :=
  if a % b > 0 then a / b + 1 else a / b

/-- The multiples of `b` at or above `a`. -/
def multiplesFrom (b a : ℕ) : Set ℕ := {m | a ≤ m ∧ b ∣ m}

variable {a b : ℕ}

theorem divCeil_mul_eq :
    divCeil a b * b = if a % b = 0 then a else (a / b + 1) * b := by
  unfold divCeil
  split_ifs with h₁ h₂ h₂
  · omega
  · rfl
  · exact Nat.div_mul_cancel (Nat.dvd_of_mod_eq_zero h₂)
  · omega

/-- `divCeil a b * b` is the least multiple of `b` at or above `a`. -/
theorem isLeast_divCeil_mul (hb : 0 < b) : IsLeast (multiplesFrom b a) (divCeil a b * b) := by
  rw [divCeil_mul_eq]
  have hdiv := Nat.div_add_mod a b
  have hmod := Nat.mod_lt a hb
  split_ifs with h
  · exact ⟨⟨le_rfl, Nat.dvd_of_mod_eq_zero h⟩, fun m hm => hm.1⟩
  · refine ⟨⟨?_, Nat.dvd_mul_left b _⟩, fun m ⟨hle, c, hc⟩ => ?_⟩
    · rw [Nat.add_mul, Nat.one_mul, Nat.mul_comm]
      omega
    · -- a multiple `c·b` past `a` has `c` above the floor quotient
      subst hc
      have hq : a / b < c := by
        by_contra hge
        have : b * c ≤ b * (a / b) := Nat.mul_le_mul_left b (Nat.le_of_not_lt hge)
        omega
      calc (a / b + 1) * b ≤ c * b := Nat.mul_le_mul_right b hq
        _ = b * c := Nat.mul_comm c b

theorem divCeil_mul_lt (hb : 0 < b) : divCeil a b * b < a + b := by
  rw [divCeil_mul_eq]
  have hdiv := Nat.div_add_mod a b
  split_ifs with h
  · omega
  · rw [Nat.add_mul, Nat.one_mul, Nat.mul_comm]
    omega

-- ============================================================ sorted lists

section sorted

variable {α : Type*} [LinearOrder α]

/-- On a strictly increasing list that reaches `u`, the first element at
or above `u` is the least one. -/
theorem isLeast_find? {u : α} :
    ∀ {l : List α}, l.Pairwise (· < ·) → (∃ y ∈ l, u ≤ y) →
      ∃ y, l.find? (fun y => decide (u ≤ y)) = some y ∧ IsLeast {z | z ∈ l ∧ u ≤ z} y
  | [], _, ⟨_, hy, _⟩ => absurd hy List.not_mem_nil
  | x :: l, hl, hex => by
    obtain ⟨hx, hl⟩ := List.pairwise_cons.mp hl
    by_cases hux : u ≤ x
    · -- the head is at or above `u`, and below everything after it
      refine ⟨x, by simp [hux], ⟨List.mem_cons_self, hux⟩, fun z ⟨hz, _⟩ => ?_⟩
      rcases List.mem_cons.mp hz with rfl | hz
      · exact le_rfl
      · exact le_of_lt (hx z hz)
    · have hex' : ∃ y ∈ l, u ≤ y := by
        obtain ⟨y, hy, huy⟩ := hex
        rcases List.mem_cons.mp hy with rfl | hy
        · exact absurd huy hux
        · exact ⟨y, hy, huy⟩
      obtain ⟨y, hfind, hmem, hleast⟩ := isLeast_find? hl hex'
      refine ⟨y, by simp [hux, hfind], ⟨List.mem_cons_of_mem x hmem.1, hmem.2⟩, ?_⟩
      rintro z ⟨hz, huz⟩
      rcases List.mem_cons.mp hz with rfl | hz
      · exact absurd huz hux
      · exact hleast ⟨hz, huz⟩

/-- The last element of a strictly increasing list is its largest. -/
theorem le_getLast_of_pairwise {l : List α} (hl : l.Pairwise (· < ·)) (hne : l ≠ []) :
    ∀ x ∈ l, x ≤ l.getLast hne := by
  intro x hx
  rw [← List.dropLast_append_getLast hne] at hx hl
  rcases List.mem_append.mp hx with hx | hx
  · exact le_of_lt (List.pairwise_append.mp hl |>.2.2 x hx _ List.mem_cons_self)
  · exact le_of_eq (List.mem_singleton.mp hx)

end sorted

end Rounding
