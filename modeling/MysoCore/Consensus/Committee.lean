/-
The consensus committee (consensus/config/src/committee.rs): the
authorities of one epoch with their stakes, and the two thresholds every
counting rule of the protocol compares against.

# The model

`Stake` is a `u64`. A release build sums the authorities' stakes and
doubles the quorum without overflow checks, so `Committee.new` computes
those with the wrapping operations of `Lib/Word.lean`; every other step of
`new` is the source's. The committee keeps only the stake of each
authority: the keys, addresses and host names are never read by the
modelled code. Indexing an authority out of range panics in the source;
the model uses Lean's panicking `l[i]!`, whose value there is the default
authority, of stake zero.

# What the thresholds give

With `f = (T - 1) / 3` the threshold arithmetic is three facts:
`3 f < T`, the quorum `T - f` and the validity `f + 1`, and two quorums
together exceed the total by a validity (`quorum_add_quorum`). They hold
for every committee `new` builds, with no assumption on the stakes beyond
what `new` asserts.
-/
import MysoCore.Lib.Weight
import MysoCore.Lib.Word

namespace MysoCore.Consensus

open Quorum Word

/-- One authority of the committee; only its stake (`Stake`, a `u64`) is
modelled. Authorities are named by their position in the committee, the
source's `AuthorityIndex`. -/
structure Authority where
  stake : ℕ
  deriving Repr, DecidableEq, Inhabited

/-- `Committee`: the authorities of one epoch and the thresholds derived
from their total stake. -/
structure Committee where
  epoch : ℕ
  total_stake : ℕ
  quorum_threshold : ℕ
  validity_threshold : ℕ
  authorities : List Authority
  deriving Repr, DecidableEq

namespace Committee

-- ========================================================== construction

/-- `Committee::new`. Each `assert!` of the source that fails makes the
result `none`. -/
def new (epoch : ℕ) (authorities : List Authority) : Option Committee :=
  if authorities.isEmpty then none
  else if ¬ authorities.length < 2 ^ 32 - 1 then none
  else
    -- `authorities.iter().map(|a| a.stake).sum()`, wrapping in `u64`
    let total_stake := (authorities.map Authority.stake).sum % 2 ^ 64
    if total_stake = 0 then none
    else
      -- tolerate integer f faults when total stake is 3f+1
      let fault_tolerance := (total_stake - 1) / 3
      let quorum_threshold := total_stake - fault_tolerance
      let validity_threshold := fault_tolerance + 1
      if wrappingSub 64 (wrappingMul 64 2 quorum_threshold) fault_tolerance > total_stake then
        some { epoch, total_stake, quorum_threshold, validity_threshold, authorities }
      else none

-- ============================================================= accessors

/-- `Committee::size`. -/
def size (c : Committee) : ℕ := c.authorities.length

/-- `Committee::stake`: the stake of one authority, by index. -/
def stake (c : Committee) (i : ℕ) : ℕ := c.authorities[i]!.stake

/-- `Committee::is_valid_index`. -/
def is_valid_index (c : Committee) (i : ℕ) : Bool := decide (i < c.size)

/-- `Committee::reached_quorum`: the stake is at least 2f+1. -/
def reached_quorum (c : Committee) (s : ℕ) : Bool := decide (s ≥ c.quorum_threshold)

/-- `Committee::reached_validity`: the stake is at least f+1. -/
def reached_validity (c : Committee) (s : ℕ) : Bool := decide (s ≥ c.validity_threshold)

/-- The stake held by a set of authorities. -/
def stakeOf (c : Committee) (s : Finset ℕ) : ℕ := weight c.stake s

/-- The authorities of the committee, as indices. -/
def indices (c : Committee) : Finset ℕ := Finset.range c.size

@[simp] theorem reached_quorum_iff (c : Committee) (s : ℕ) :
    c.reached_quorum s = true ↔ c.quorum_threshold ≤ s := by
  simp [reached_quorum]

@[simp] theorem reached_validity_iff (c : Committee) (s : ℕ) :
    c.reached_validity s = true ↔ c.validity_threshold ≤ s := by
  simp [reached_validity]

/-- An index past the end is the default authority, of stake zero. -/
theorem stake_of_not_valid {c : Committee} {i : ℕ} (hi : ¬ i < c.size) :
    c.stake i = 0 := by
  unfold stake
  rw [getElem!_neg c.authorities i hi]
  rfl

-- ================================================== the built committees

/-- What `new` returns, field by field. -/
theorem new_eq_some {epoch : ℕ} {authorities : List Authority} {c : Committee}
    (h : new epoch authorities = some c) :
    c.authorities = authorities ∧ c.epoch = epoch ∧
      c.total_stake = (authorities.map Authority.stake).sum % 2 ^ 64 ∧
      c.total_stake ≠ 0 ∧
      c.quorum_threshold = c.total_stake - (c.total_stake - 1) / 3 ∧
      c.validity_threshold = (c.total_stake - 1) / 3 + 1 := by
  unfold new at h
  dsimp only at h
  split at h
  · cases h
  split at h
  · cases h
  split at h
  · cases h
  next hT =>
    split at h
    · cases h
      exact ⟨rfl, rfl, rfl, hT, rfl, rfl⟩
    · cases h

/-- `new` succeeds on every non-empty list of fewer than `2 ^ 32 - 1`
authorities whose total stake is positive and whose `u64` arithmetic does
not overflow: the stakes sum below `2 ^ 64` and so does twice the quorum.
The assertion on quorum intersection then holds, from `3 f < T`. -/
theorem new_isSome {epoch : ℕ} {authorities : List Authority} (hne : authorities ≠ [])
    (hlen : authorities.length < 2 ^ 32 - 1)
    (hpos : 0 < (authorities.map Authority.stake).sum)
    (hsum : (authorities.map Authority.stake).sum < 2 ^ 64)
    (hdouble : 2 * ((authorities.map Authority.stake).sum -
      ((authorities.map Authority.stake).sum - 1) / 3) < 2 ^ 64) :
    (new epoch authorities).isSome := by
  unfold new
  dsimp only
  have hempty : authorities.isEmpty = false := List.isEmpty_eq_false_iff.mpr hne
  rw [hempty, if_neg (by simp), if_neg (by omega), Nat.mod_eq_of_lt hsum,
    if_neg (by omega)]
  -- the doubled quorum and the subtraction do not wrap
  have hmul : wrappingMul 64 2 _ = _ := wrappingMul_of_lt hdouble
  rw [hmul, wrappingSub_of_le (by omega) hdouble, if_pos (by omega)]
  rfl

/-- The invariant of a committee built by `new`: its thresholds are the
ones derived from a non-zero total. -/
structure Built (c : Committee) : Prop where
  total_pos : 0 < c.total_stake
  quorum_eq : c.quorum_threshold = c.total_stake - (c.total_stake - 1) / 3
  validity_eq : c.validity_threshold = (c.total_stake - 1) / 3 + 1

theorem built_of_new {epoch : ℕ} {authorities : List Authority} {c : Committee}
    (h : new epoch authorities = some c) : c.Built := by
  obtain ⟨-, -, -, hT, hq, hv⟩ := new_eq_some h
  exact ⟨Nat.pos_of_ne_zero hT, hq, hv⟩

section Built

variable {c : Committee} (hc : c.Built)
include hc

/-- **Two quorums exceed the total by a validity**: `2 (T - f) ≥ T + f + 1`,
from `3 f < T`. -/
theorem quorum_add_quorum :
    c.total_stake + c.validity_threshold ≤ c.quorum_threshold + c.quorum_threshold := by
  have := hc.total_pos
  rw [hc.quorum_eq, hc.validity_eq]
  omega

/-- A quorum is a validity plus at least `f` more: `T - f ≥ 2 f + 1`. -/
theorem validity_add_fault_le_quorum :
    c.validity_threshold + (c.total_stake - 1) / 3 ≤ c.quorum_threshold := by
  have := hc.total_pos
  rw [hc.quorum_eq, hc.validity_eq]
  omega

end Built

-- ================================================= the stake of the whole

/-- Summing stakes by index is summing the stake list. -/
theorem sum_range_stake (l : List Authority) :
    ∑ i ∈ Finset.range l.length, (l[i]!).stake = (l.map Authority.stake).sum := by
  induction l with
  | nil => simp
  | cons a l ih =>
      rw [List.length_cons, Finset.sum_range_succ']
      simp only [List.map_cons, List.sum_cons]
      have hshift : ∀ i ∈ Finset.range l.length, ((a :: l)[i + 1]!).stake = (l[i]!).stake := by
        intro i _
        simp
      rw [Finset.sum_congr rfl hshift, ih]
      simp only [getElem!_pos (a :: l) 0 (by simp), List.getElem_cons_zero]
      omega

/-- The stake of all authorities is the unwrapped sum of the stakes. -/
theorem stakeOf_indices (c : Committee) :
    c.stakeOf c.indices = (c.authorities.map Authority.stake).sum :=
  sum_range_stake c.authorities

/-- When the sum does not wrap, the authorities together hold the total. -/
theorem stakeOf_indices_of_new {epoch : ℕ} {authorities : List Authority} {c : Committee}
    (h : new epoch authorities = some c)
    (hsum : (authorities.map Authority.stake).sum < 2 ^ 64) :
    c.stakeOf c.indices = c.total_stake := by
  obtain ⟨ha, -, hT, -⟩ := new_eq_some h
  rw [stakeOf_indices, hT, ha, Nat.mod_eq_of_lt hsum]

/-- Indices past the end hold no stake, so every set of indices weighs
what its valid part does. -/
theorem stake_zero_outside (c : Committee) (s : Finset ℕ) :
    ∀ a ∈ s, a ∉ c.indices → c.stake a = 0 := by
  intro a _ ha
  apply stake_of_not_valid
  simpa [indices] using ha

end Committee

end MysoCore.Consensus
