/-
Threshold scans over weighted values: walk the list, adding each weight
to a running total with a given addition, and stop at the first value
whose addition takes the total past a threshold. Weighted medians are
such scans over a sorted list with half the total weight as threshold.

# The two outcomes

`firstAbove_eq_some` splits the list at the value returned: the total
passes the threshold with that value and had not with the values before
it. `firstAbove_eq_none` says a scan that finds nothing ends at or below
the threshold. The addition is arbitrary, so the lemmas hold for wrapping
machine arithmetic as for plain sums.
-/
import Mathlib

namespace Scan

variable {β : Type*} (add : ℕ → ℕ → ℕ) (half : ℕ)

/-- The first value at which the running total, started at `acc`,
exceeds `half`. -/
def firstAbove : ℕ → List (β × ℕ) → Option β
  | _, [] => none
  | acc, (v, w) :: rest => if add acc w > half then some v else firstAbove (add acc w) rest

/-- The running total after the weights of a list. -/
def total (acc : ℕ) (l : List (β × ℕ)) : ℕ := l.foldl (fun a q => add a q.2) acc

variable {add half}

@[simp] theorem total_nil (acc : ℕ) : total add acc ([] : List (β × ℕ)) = acc := rfl

@[simp] theorem total_cons (acc : ℕ) (q : β × ℕ) (l : List (β × ℕ)) :
    total add acc (q :: l) = total add (add acc q.2) l := rfl

/-- A value found splits the list: the total passes `half` with it and had
not passed it before. -/
theorem firstAbove_eq_some {v : β} :
    ∀ {acc : ℕ} {l : List (β × ℕ)}, firstAbove add half acc l = some v →
      ∃ pre x post, l = pre ++ x :: post ∧ x.1 = v ∧ half < total add acc (pre ++ [x]) ∧
        (pre = [] ∨ total add acc pre ≤ half)
  | _, [], h => by cases h
  | acc, (v', w) :: rest, h => by
      unfold firstAbove at h
      split at h
      · next hpass =>
          exact ⟨[], (v', w), rest, rfl, Option.some.inj h, by simpa using hpass, Or.inl rfl⟩
      · next hstay =>
          -- the value comes later: move this pair into the prefix
          obtain ⟨pre, x, post, rfl, hx, hpass, hbefore⟩ := firstAbove_eq_some h
          refine ⟨(v', w) :: pre, x, post, rfl, hx, by simpa using hpass, Or.inr ?_⟩
          rcases hbefore with rfl | hbefore
          · simpa using hstay
          · simpa using hbefore

/-- A scan that finds nothing ends at or below `half`. -/
theorem firstAbove_eq_none :
    ∀ {acc : ℕ} {l : List (β × ℕ)}, firstAbove add half acc l = none →
      l = [] ∨ total add acc l ≤ half
  | _, [], _ => Or.inl rfl
  | acc, (v, w) :: rest, h => by
      unfold firstAbove at h
      split at h
      · cases h
      · next hstay =>
          refine Or.inr ?_
          rcases firstAbove_eq_none h with rfl | hle
          · simpa using hstay
          · simpa using hle

end Scan
