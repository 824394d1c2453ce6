/-
Splitting a pool into shares, as contracts that pay a pot out pro rata
do: shares `a * D / W` rounded down, for members whose weights `a` sum
to at most `W`, add up to at most the pot `D`; and a total kept per
key, for keys below `n`, sums back over the keys to the whole.
-/
import Mathlib

namespace Shares

variable {α : Type*}

-- ============================================================ rounding down

/-- Rounding each part down loses against rounding their sum. -/
theorem sum_div_le_div_sum (l : List α) (f : α → ℕ) (W : ℕ) :
    (l.map fun x => f x / W).sum ≤ (l.map f).sum / W := by
  induction l with
  | nil => simp
  | cons x xs ih =>
    simp only [List.map_cons, List.sum_cons]
    calc f x / W + (xs.map fun x => f x / W).sum
        ≤ f x / W + (xs.map f).sum / W := Nat.add_le_add_left ih _
      _ ≤ (f x + (xs.map f).sum) / W := Nat.div_add_div_le_add_div

/-- Pro-rata shares of a pot, by weights summing to at most the total
weight, add up to at most the pot. -/
theorem sum_mul_div_le (l : List α) (a : α → ℕ) {D W : ℕ} (h : (l.map a).sum ≤ W) :
    (l.map fun x => a x * D / W).sum ≤ D := by
  rcases Nat.eq_zero_or_pos W with rfl | hW
  · simp
  · calc (l.map fun x => a x * D / W).sum
        ≤ (l.map fun x => a x * D).sum / W := sum_div_le_div_sum l _ W
      _ = (l.map a).sum * D / W := by rw [List.sum_map_mul_right]
      _ ≤ W * D / W := Nat.div_le_div_right (Nat.mul_le_mul_right D h)
      _ = D := Nat.mul_div_cancel_left D hW

/-- A part of `a` of at most one whole, rounded down, is at most `a`. -/
theorem mul_div_le_of_le (a : ℕ) {b c : ℕ} (h : b ≤ c) : a * b / c ≤ a := by
  rcases Nat.eq_zero_or_pos c with rfl | hc
  · simp
  · exact Nat.div_le_of_le_mul (by rw [Nat.mul_comm c a]; exact Nat.mul_le_mul_left a h)

/-- Two parts of `a`, rounded down each, whose weights make at most one
whole, add up to at most `a`. -/
theorem mul_div_add_mul_div_le (a : ℕ) {b₁ b₂ c : ℕ} (h : b₁ + b₂ ≤ c) :
    a * b₁ / c + a * b₂ / c ≤ a :=
  calc a * b₁ / c + a * b₂ / c
      ≤ (a * b₁ + a * b₂) / c := Nat.div_add_div_le_add_div
    _ = a * (b₁ + b₂) / c := by rw [Nat.mul_add]
    _ ≤ a := mul_div_le_of_le a h

-- ============================================================ totals per key

/-- A sum over the keys below `n`, as a `Finset` sum. -/
theorem sum_map_range (g : ℕ → ℕ) (n : ℕ) :
    ((List.range n).map g).sum = ∑ o ∈ Finset.range n, g o := rfl

/-- The total of the members with one key. -/
def keyTotal (l : List α) (key f : α → ℕ) (o : ℕ) : ℕ :=
  ((l.filter fun x => key x = o).map f).sum

@[simp] theorem keyTotal_nil (key f : α → ℕ) (o : ℕ) : keyTotal [] key f o = 0 := rfl

theorem keyTotal_cons (x : α) (l : List α) (key f : α → ℕ) (o : ℕ) :
    keyTotal (x :: l) key f o = (if key x = o then f x else 0) + keyTotal l key f o := by
  unfold keyTotal
  by_cases h : key x = o <;> simp [h]

theorem keyTotal_append (l₁ l₂ : List α) (key f : α → ℕ) (o : ℕ) :
    keyTotal (l₁ ++ l₂) key f o = keyTotal l₁ key f o + keyTotal l₂ key f o := by
  simp [keyTotal]

theorem keyTotal_perm {l l' : List α} (h : l.Perm l') (key f : α → ℕ) (o : ℕ) :
    keyTotal l key f o = keyTotal l' key f o :=
  ((h.filter _).map f).sum_eq

/-- A total per key, as the sum over all members of their weight at that key. -/
theorem keyTotal_eq_sum_ite (l : List α) (key f : α → ℕ) (o : ℕ) :
    keyTotal l key f o = (l.map fun x => if key x = o then f x else 0).sum := by
  induction l with
  | nil => rfl
  | cons x xs ih => rw [keyTotal_cons, ih, List.map_cons, List.sum_cons]

/-- A member's weight counts in the total of its key. -/
theorem le_keyTotal_of_mem {l : List α} {x : α} (hx : x ∈ l) (key f : α → ℕ) :
    f x ≤ keyTotal l key f (key x) :=
  List.le_sum_of_mem (List.mem_map_of_mem (List.mem_filter.mpr ⟨hx, by simp⟩))

/-- Replacing a member of a list trades its weight for the new one's. -/
theorem sum_map_set {l : List α} {i : ℕ} {x : α} (hx : l[i]? = some x) (y : α) (f : α → ℕ) :
    ((l.set i y).map f).sum + f x = (l.map f).sum + f y := by
  induction l generalizing i with
  | nil => simp at hx
  | cons z zs ih =>
    cases i with
    | zero =>
      simp only [List.getElem?_cons_zero, Option.some.injEq] at hx
      subst hx
      simp only [List.set_cons_zero, List.map_cons, List.sum_cons]
      omega
    | succ i =>
      have := ih (by simpa using hx)
      simp only [List.set_cons_succ, List.map_cons, List.sum_cons]
      omega

/-- Replacing a member trades its weight for the new one's in the totals
of their keys. -/
theorem keyTotal_set {l : List α} {i : ℕ} {x : α} (hx : l[i]? = some x) (y : α)
    (key f : α → ℕ) (o : ℕ) :
    keyTotal (l.set i y) key f o + (if key x = o then f x else 0) =
      keyTotal l key f o + (if key y = o then f y else 0) := by
  rw [keyTotal_eq_sum_ite, keyTotal_eq_sum_ite]
  exact sum_map_set hx y _

/-- Totals kept per key, over keys listed once each that cover every
member of positive weight, sum back to the whole. -/
theorem sum_keyTotal_of_nodup (l : List α) (key f : α → ℕ) {K : List ℕ} (hK : K.Nodup)
    (h : ∀ x ∈ l, 0 < f x → key x ∈ K) :
    (K.map (keyTotal l key f)).sum = (l.map f).sum := by
  induction l with
  | nil =>
    show (K.map fun _ => 0).sum = 0
    simp
  | cons x xs ih =>
    have hxs : ∀ y ∈ xs, 0 < f y → key y ∈ K := fun y hy => h y (List.mem_cons_of_mem x hy)
    -- the new member counts once when its key is listed, and weighs nothing when not
    have hpoint : (K.map fun o => if key x = o then f x else 0).sum = f x := by
      rw [← List.sum_toFinset _ hK, Finset.sum_ite_eq]
      split
      · rfl
      · next hnot =>
        have : ¬ 0 < f x := fun hpos => hnot (List.mem_toFinset.mpr (h x List.mem_cons_self hpos))
        omega
    calc (K.map (keyTotal (x :: xs) key f)).sum
        = (K.map fun o => (if key x = o then f x else 0) + keyTotal xs key f o).sum := by
          congr 1
          exact List.map_congr_left fun o _ => keyTotal_cons x xs key f o
      _ = f x + (xs.map f).sum := by rw [List.sum_map_add, hpoint, ih hxs]
      _ = ((x :: xs).map f).sum := by simp

/-- A total kept per key, for keys below `n`, sums back to the whole. -/
theorem sum_range_keyTotal (l : List α) (key f : α → ℕ) {n : ℕ} (h : ∀ x ∈ l, key x < n) :
    ((List.range n).map (keyTotal l key f)).sum = (l.map f).sum := by
  induction l with
  | nil => simp [sum_map_range]
  | cons x xs ih =>
    have hx : key x ∈ Finset.range n := Finset.mem_range.mpr (h x List.mem_cons_self)
    have hxs : ∀ y ∈ xs, key y < n := fun y hy => h y (List.mem_cons_of_mem x hy)
    -- the new member counts once, at its own key
    have hpoint : ((List.range n).map fun o => if key x = o then f x else 0).sum = f x := by
      rw [sum_map_range, Finset.sum_ite_eq, if_pos hx]
    calc ((List.range n).map (keyTotal (x :: xs) key f)).sum
        = ((List.range n).map fun o => (if key x = o then f x else 0) + keyTotal xs key f o).sum := by
          congr 1
          exact List.map_congr_left fun o _ => keyTotal_cons x xs key f o
      _ = f x + (xs.map f).sum := by rw [List.sum_map_add, hpoint, ih hxs]
      _ = ((x :: xs).map f).sum := by simp

end Shares
