/-
Searching sorted separators: the binary search for a partition point, and
the children of a search-tree node fenced by its pivots.

# Partition points

`partitionLoop` is the loop of a binary search over `xs[lo, hi)` for the
first index where a predicate holds: it halves the interval at
`(hi - lo) / 2 + lo`, keeping everything below `lo` failing the
predicate and everything from `hi` on satisfying it. On a list where the
predicate, once true, stays true, the search lands on the partition point
(`partitionPoint_spec`): the predicate fails before it and holds from it
on. Across such a cut, the first element satisfying the predicate is the
first one past the cut (`find?_append_of_cut`), and a filter by a
predicate holding before the cut and failing past it keeps the part
before (`filter_append_of_cut`).

# Fences

`Fenced P lo hi cs ks` says the children `cs`, separated by the pivots
`ks`, each lie within their fences: the first from `lo` to the first
pivot, each next one from the pivot before it to the pivot after it, the
last up to `hi`. When no child is empty the pivots increase
(`Fenced.pivots_sorted`), the contents of the children concatenated in
order are sorted within the outer fences (`Fenced.pairwise_flatMap`),
and the child a key belongs to is the one after the pivots at or below
it (`Fenced.descend`).
-/
import Mathlib

namespace Fence

-- ============================================================ partition points

section partition_point

variable {α : Type*} (p : α → Bool)

/-- The binary search for the first index of `xs[lo, hi)` where `p`
holds. -/
def partitionLoop (xs : List α) (lo hi : ℕ) (hhi : hi ≤ xs.length) : ℕ :=
  if hlt : lo < hi then
    have hmid : (hi - lo) / 2 + lo < xs.length := by omega
    if p xs[(hi - lo) / 2 + lo] then partitionLoop xs lo ((hi - lo) / 2 + lo) (by omega)
    else partitionLoop xs ((hi - lo) / 2 + lo + 1) hi hhi
  else lo
termination_by hi - lo

/-- The binary search over the whole list. -/
def partitionPoint (xs : List α) : ℕ := partitionLoop p xs 0 xs.length (Nat.le_refl _)

/-- `r` cuts `xs` where `p` starts to hold: it fails before `r` and holds
from `r` on. -/
def IsPartitionPoint (xs : List α) (r : ℕ) : Prop :=
  r ≤ xs.length ∧ (∀ j (hj : j < xs.length), j < r → p xs[j] = false) ∧
    ∀ j (hj : j < xs.length), r ≤ j → p xs[j] = true

variable {p} {xs : List α}

/-- The loop keeps what fails below `lo` and what holds from `hi` on, so
when the interval closes its bound is the partition point. -/
theorem partitionLoop_spec (hmono : xs.Pairwise fun x y => p x → p y) (lo hi : ℕ)
    (hhi : hi ≤ xs.length) (hle : lo ≤ hi) (hlo : ∀ j (hj : j < xs.length), j < lo → p xs[j] = false)
    (hup : ∀ j (hj : j < xs.length), hi ≤ j → p xs[j] = true) :
    IsPartitionPoint p xs (partitionLoop p xs lo hi hhi) := by
  have hrel := List.pairwise_iff_getElem.mp hmono
  fun_induction partitionLoop p xs lo hi hhi with
  | case1 lo hi hhi hlt hmid hp ih =>
    -- `p` holds at the midpoint, hence everywhere after it
    refine ih (by omega) hlo fun j hj hj' => ?_
    rcases Nat.eq_or_lt_of_le hj' with heq | hlt'
    · simpa [← heq] using hp
    · exact hrel _ _ hmid hj hlt' hp
  | case2 lo hi hhi hlt hmid hp ih =>
    -- `p` fails at the midpoint, hence everywhere before it
    refine ih (by omega) (fun j hj hj' => ?_) hup
    rcases Nat.lt_succ_iff_lt_or_eq.mp hj' with hlt' | heq
    · by_contra hpj
      exact hp (hrel _ _ hj hmid hlt' (by simpa using hpj))
    · simpa [heq] using hp
  | case3 lo hi hhi hlt =>
    have : lo = hi := by omega
    subst this
    exact ⟨hhi, hlo, hup⟩

theorem partitionPoint_spec (hmono : xs.Pairwise fun x y => p x → p y) :
    IsPartitionPoint p xs (partitionPoint p xs) :=
  partitionLoop_spec hmono 0 xs.length (Nat.le_refl _) (Nat.zero_le _)
    (fun _ _ h => absurd h (Nat.not_lt_zero _)) (fun _ hj h => absurd hj (Nat.not_lt.mpr h))

/-- A partition point cuts the list into a part failing `p` and a part
satisfying it. -/
theorem IsPartitionPoint.take_drop {r : ℕ} (h : IsPartitionPoint p xs r) :
    (∀ x ∈ xs.take r, p x = false) ∧ ∀ x ∈ xs.drop r, p x = true := by
  obtain ⟨-, hlo, hup⟩ := h
  constructor
  · intro x hx
    obtain ⟨j, hj, rfl⟩ := List.getElem_of_mem hx
    rw [List.getElem_take]
    exact hlo j _ (by simp at hj; omega)
  · intro x hx
    obtain ⟨j, hj, rfl⟩ := List.getElem_of_mem hx
    rw [List.getElem_drop]
    exact hup _ _ (Nat.le_add_right r j)

/-- Across a cut where `p` starts to hold, the first element satisfying
`p` is the first one past the cut. -/
theorem find?_append_of_cut {l₁ l₂ : List α} (h₁ : ∀ x ∈ l₁, p x = false)
    (h₂ : ∀ x ∈ l₂, p x = true) : (l₁ ++ l₂).find? p = l₂.head? := by
  rw [List.find?_append, List.find?_eq_none.mpr fun x hx => by simp [h₁ x hx], Option.none_or]
  cases l₂ with
  | nil => rfl
  | cons x l₂ => rw [List.find?_cons_of_pos (h₂ x List.mem_cons_self), List.head?_cons]

/-- Across a cut where `p` stops holding, filtering by `p` keeps the part
before the cut. -/
theorem filter_append_of_cut {l₁ l₂ : List α} (h₁ : ∀ x ∈ l₁, p x = true)
    (h₂ : ∀ x ∈ l₂, p x = false) : (l₁ ++ l₂).filter p = l₁ := by
  rw [List.filter_append, List.filter_eq_self.mpr h₁,
    List.filter_eq_nil_iff.mpr fun x hx => by simp [h₂ x hx], List.append_nil]

end partition_point

-- ============================================================ fences

section fences

variable {α ι : Type*} [LinearOrder α]

/-- A key at or above a lower fence; `none` is no fence. -/
def Above (lo : Option α) (k : α) : Prop := ∀ l ∈ lo, l ≤ k

/-- A key below an upper fence; `none` is no fence. -/
def Below (hi : Option α) (k : α) : Prop := ∀ h ∈ hi, k < h

@[simp] theorem above_none (k : α) : Above none k := fun _ h => by cases h

@[simp] theorem below_none (k : α) : Below none k := fun _ h => by cases h

@[simp] theorem above_some {l k : α} : Above (some l) k ↔ l ≤ k := by simp [Above]

@[simp] theorem below_some {h k : α} : Below (some h) k ↔ k < h := by simp [Below]

/-- The children `cs` between the pivots `ks`, each within its fences. -/
inductive Fenced (P : ι → Option α → Option α → Prop) : Option α → Option α → List ι → List α → Prop
  | last {c lo hi} : P c lo hi → Fenced P lo hi [c] []
  | cons {c k cs ks lo hi} : P c lo (some k) → Fenced P (some k) hi cs ks →
      Fenced P lo hi (c :: cs) (k :: ks)

variable {P : ι → Option α → Option α → Prop} {lo hi : Option α} {cs : List ι} {ks : List α}

omit [LinearOrder α] in
/-- One child more than pivots. -/
theorem Fenced.length_eq (h : Fenced P lo hi cs ks) : cs.length = ks.length + 1 := by
  induction h with
  | last => rfl
  | cons _ _ ih => simp [ih]

section nonempty

-- no child is empty: each has a key within its fences
variable (hne : ∀ c l h, P c l h → ∃ x, Above l x ∧ Below h x)
include hne

theorem Fenced.nonempty (h : Fenced P lo hi cs ks) : ∃ x, Above lo x ∧ Below hi x := by
  induction h with
  | last hc => exact hne _ _ _ hc
  | cons hc _ ih =>
    obtain ⟨x, hx, hxk⟩ := hne _ _ _ hc
    obtain ⟨y, hky, hy⟩ := ih
    exact ⟨x, hx, fun h hh => lt_trans (below_some.mp hxk) (lt_of_le_of_lt (above_some.mp hky) (hy h hh))⟩

/-- Every pivot is strictly above the lower fence and below the upper
one. -/
theorem Fenced.pivots_within (h : Fenced P lo hi cs ks) :
    ∀ k ∈ ks, (∀ l ∈ lo, l < k) ∧ Below hi k := by
  induction h with
  | last => simp
  | @cons c k cs ks lo hi hc hrest ih =>
    obtain ⟨x, hx, hxk⟩ := hne _ _ _ hc
    -- the first pivot sits between the first child's keys and the rest's
    have hk : (∀ l ∈ lo, l < k) ∧ Below hi k := by
      obtain ⟨y, hky, hy⟩ := hrest.nonempty hne
      exact ⟨fun l hl => lt_of_le_of_lt (hx l hl) (below_some.mp hxk),
        fun h hh => lt_of_le_of_lt (above_some.mp hky) (hy h hh)⟩
    intro k' hk'
    rcases List.mem_cons.mp hk' with rfl | hk'
    · exact hk
    · obtain ⟨hlo', hhi'⟩ := ih k' hk'
      exact ⟨fun l hl => lt_trans (hk.1 l hl) (hlo' k rfl), hhi'⟩

theorem Fenced.pivots_sorted (h : Fenced P lo hi cs ks) : ks.Pairwise (· < ·) := by
  induction h with
  | last => exact List.Pairwise.nil
  | cons _ hrest ih =>
    exact List.Pairwise.cons (fun k' hk' => (hrest.pivots_within hne k' hk').1 _ rfl) ih

end nonempty

/-- The contents of the children, in order: not empty and sorted within
the outer fences when each child's is so within its own. -/
theorem Fenced.pairwise_flatMap {L : ι → List α}
    (hL : ∀ c l h, P c l h → L c ≠ [] ∧ (L c).Pairwise (· < ·) ∧ ∀ x ∈ L c, Above l x ∧ Below h x)
    (h : Fenced P lo hi cs ks) :
    cs.flatMap L ≠ [] ∧ (cs.flatMap L).Pairwise (· < ·) ∧
      ∀ x ∈ cs.flatMap L, Above lo x ∧ Below hi x := by
  induction h with
  | last hc => simpa using hL _ _ _ hc
  | @cons c k cs ks lo hi hc _ ih =>
    obtain ⟨hne, hs, hw⟩ := hL _ _ _ hc
    obtain ⟨hne', hs', hw'⟩ := ih
    -- the first child's keys are below the pivot, the rest's at or above it
    have hsplit : ∀ x ∈ L c, ∀ y ∈ cs.flatMap L, x < y := fun x hx y hy =>
      lt_of_lt_of_le (below_some.mp (hw x hx).2) (above_some.mp (hw' y hy).1)
    obtain ⟨x₀, hx₀⟩ := List.exists_mem_of_ne_nil _ hne
    obtain ⟨y₀, hy₀⟩ := List.exists_mem_of_ne_nil _ hne'
    refine ⟨by simp [hne], by simpa using List.pairwise_append.mpr ⟨hs, hs', hsplit⟩, ?_⟩
    intro y hy
    rw [List.flatMap_cons, List.mem_append] at hy
    rcases hy with hy | hy
    · exact ⟨(hw y hy).1, fun h hh => lt_trans (hsplit y hy y₀ hy₀) ((hw' y₀ hy₀).2 h hh)⟩
    · exact ⟨fun l hl => le_of_lt (lt_of_le_of_lt ((hw x₀ hx₀).1 l hl) (hsplit x₀ hx₀ y hy)),
        (hw' y hy).2⟩

omit [LinearOrder α] in
/-- Each child's lower fence is the outer one or a pivot. -/
theorem Fenced.lower_mem (h : Fenced P lo hi cs ks) :
    ∀ c ∈ cs, ∃ l u, P c l u ∧ (l = lo ∨ ∃ x ∈ ks, l = some x) := by
  induction h with
  | last hc =>
    intro c' hc'
    rw [List.mem_singleton.mp hc']
    exact ⟨_, _, hc, Or.inl rfl⟩
  | @cons c k cs ks lo hi hc _ ih =>
    intro c' hc'
    rcases List.mem_cons.mp hc' with rfl | hc'
    · exact ⟨_, _, hc, Or.inl rfl⟩
    · obtain ⟨l, u, hP, hl | ⟨x, hx, hl⟩⟩ := ih c' hc'
      · exact ⟨l, u, hP, Or.inr ⟨k, List.mem_cons_self, hl⟩⟩
      · exact ⟨l, u, hP, Or.inr ⟨x, List.mem_cons_of_mem _ hx, hl⟩⟩

/-- The child a key within the outer fences belongs to: the one after the
pivots at or below it. The children before it end at or below the key,
those after it start above it. -/
theorem Fenced.descend {k : α} (h : Fenced P lo hi cs ks) {ks₁ ks₂ : List α}
    (hks : ks = ks₁ ++ ks₂) (h₁ : ∀ x ∈ ks₁, x ≤ k) (h₂ : ∀ x ∈ ks₂, k < x)
    (hlo : Above lo k) (hhi : Below hi k) :
    ∃ pre c post l u, cs = pre ++ c :: post ∧ pre.length = ks₁.length ∧
      P c l u ∧ Above l k ∧ Below u k ∧
      (∀ c' ∈ pre, ∃ l' u', P c' l' (some u') ∧ u' ≤ k) ∧
      (∀ c' ∈ post, ∃ l' u', P c' (some l') u' ∧ k < l') := by
  induction h generalizing ks₁ with
  | last hc =>
    obtain ⟨rfl, -⟩ := List.append_eq_nil_iff.mp hks.symm
    exact ⟨[], _, [], _, _, rfl, rfl, hc, hlo, hhi, by simp, by simp⟩
  | @cons c k₀ cs ks lo hi hc hrest ih =>
    rcases ks₁ with _ | ⟨x, ks₁⟩
    · -- the key is below the first pivot: it belongs to the first child
      subst hks
      have hk₀ : k < k₀ := h₂ k₀ List.mem_cons_self
      refine ⟨[], c, cs, lo, some k₀, rfl, rfl, hc, hlo, below_some.mpr hk₀, by simp, ?_⟩
      intro c' hc'
      obtain ⟨l, u, hP, rfl | ⟨x, hx, rfl⟩⟩ := hrest.lower_mem c' hc'
      · exact ⟨k₀, u, hP, hk₀⟩
      · exact ⟨x, u, hP, h₂ x (List.mem_cons_of_mem _ hx)⟩
    · -- the key is at or above the first pivot: it belongs to the rest
      simp only [List.cons_append, List.cons.injEq] at hks
      obtain ⟨rfl, hks⟩ := hks
      have hx : k₀ ≤ k := h₁ k₀ List.mem_cons_self
      obtain ⟨pre, c', post, l, u, rfl, hlen, hP, hl, hu, hpre, hpost⟩ :=
        ih hks (fun y hy => h₁ y (List.mem_cons_of_mem _ hy)) (above_some.mpr hx) hhi
      refine ⟨c :: pre, c', post, l, u, rfl, by simp [hlen], hP, hl, hu, ?_, hpost⟩
      intro c'' hc''
      rcases List.mem_cons.mp hc'' with rfl | hc''
      · exact ⟨lo, k₀, hc, hx⟩
      · exact hpre c'' hc''

end fences

end Fence
