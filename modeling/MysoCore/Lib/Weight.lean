/-
Weighted finite sets: the arithmetic under every quorum argument.

A weight gives each member of a finite set a natural number and
`weight w s` sums it over `s`. The fact that carries the quorum proofs
built on this file is that two sets inside one universe overlap in at
least their excess over it (`weight_inter_ge`): two heavy sets share a
heavy part.

Everything here is stated over an arbitrary type with decidable equality;
the consensus layer instantiates it at authority indices and stakes.
-/
import Mathlib

namespace Quorum

variable {α : Type*} (w : α → ℕ)

-- ================================================================ weight

/-- Total weight of a finite set. -/
def weight (s : Finset α) : ℕ := ∑ a ∈ s, w a

@[simp] theorem weight_empty : weight w ∅ = 0 := Finset.sum_empty

/-- Adding a new member adds its weight. -/
theorem weight_insert [DecidableEq α] {a : α} {s : Finset α} (ha : a ∉ s) :
    weight w (insert a s) = w a + weight w s :=
  Finset.sum_insert ha

/-- Weight is monotone in the set. -/
theorem weight_mono {s t : Finset α} (h : s ⊆ t) : weight w s ≤ weight w t :=
  Finset.sum_le_sum_of_subset h

/-- Inclusion–exclusion for weights. -/
theorem weight_union_add_inter [DecidableEq α] (s t : Finset α) :
    weight w (s ∪ t) + weight w (s ∩ t) = weight w s + weight w t :=
  Finset.sum_union_inter

/-- Members outside `u` that weigh nothing can be dropped. -/
theorem weight_inter_of_zero_outside [DecidableEq α] {s u : Finset α} (hs : ∀ a ∈ s, a ∉ u → w a = 0) :
    weight w (s ∩ u) = weight w s := by
  apply Finset.sum_subset Finset.inter_subset_left
  intro a has hnot
  exact hs a has (fun hu => hnot (Finset.mem_inter.mpr ⟨has, hu⟩))

-- ====================================================== quorum intersection

/-- **Quorum intersection.** Two sets whose members outside a universe `u`
weigh nothing overlap in at least the amount by which their weights
together exceed `u`'s. -/
theorem weight_inter_ge [DecidableEq α] {s t u : Finset α} (hs : ∀ a ∈ s, a ∉ u → w a = 0)
    (ht : ∀ a ∈ t, a ∉ u → w a = 0) :
    weight w s + weight w t ≤ weight w u + weight w (s ∩ t) := by
  -- work with the parts inside `u`, which weigh the same
  have hs' := weight_inter_of_zero_outside w hs
  have ht' := weight_inter_of_zero_outside w ht
  have hu : weight w ((s ∩ u) ∪ (t ∩ u)) ≤ weight w u :=
    weight_mono w (Finset.union_subset Finset.inter_subset_right Finset.inter_subset_right)
  have hie := weight_union_add_inter w (s ∩ u) (t ∩ u)
  have hcap : weight w ((s ∩ u) ∩ (t ∩ u)) ≤ weight w (s ∩ t) :=
    weight_mono w (fun a ha => by
      simp only [Finset.mem_inter] at ha ⊢
      exact ⟨ha.1.1, ha.2.1⟩)
  omega

end Quorum
