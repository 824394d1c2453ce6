/-
Removing a member from a vector by moving the last member into its
place and popping the last slot: the constant-time removal that does
not keep the order. What is left is the vector without that member, up
to order.
-/
import Mathlib

namespace MoveVector

variable {α : Type*}

/-- Overwrite index `i` with the last member unless `i` is the last
index, then pop the last slot (`vector::swap_remove`). -/
def swapRemove (l : List α) (i : ℕ) : List α :=
  match l.getLast? with
  | none => l
  | some last => (if i ≠ l.length - 1 then l.set i last else l).dropLast

theorem swapRemove_concat (init : List α) (last : α) {i : ℕ} (hi : i ≤ init.length) :
    swapRemove (init ++ [last]) i = if i ≠ init.length then init.set i last else init := by
  simp only [swapRemove, List.getLast?_concat, List.length_append, List.length_singleton,
    Nat.add_sub_cancel]
  split
  · rename_i hi
    rw [List.set_append, if_pos (by omega : i < init.length)]
    exact List.dropLast_concat
  · exact List.dropLast_concat

open List in
/-- The removed member and what is left are the vector, reordered. -/
theorem getElem_cons_swapRemove_perm {l : List α} {i : ℕ} (hi : i < l.length) :
    (l[i] :: swapRemove l i).Perm l := by
  rcases List.eq_nil_or_concat l with rfl | ⟨init, last, rfl⟩
  · simp at hi
  · simp only [List.concat_eq_append, List.length_append, List.length_singleton] at hi ⊢
    rw [swapRemove_concat init last (by omega)]
    by_cases hlast : i = init.length
    · -- the last member itself is removed: nothing moves
      subst hlast
      simpa [if_neg] using (List.perm_append_singleton last init).symm
    · have hi' : i < init.length := by omega
      rw [if_pos hlast, List.getElem_append_left hi']
      -- the last member moves into the gap
      calc init[i] :: init.set i last ~ init[i] :: last :: init.eraseIdx i :=
            (List.set_perm_cons_eraseIdx hi' last).cons _
        _ ~ last :: init[i] :: init.eraseIdx i := List.Perm.swap _ _ _
        _ ~ last :: init := (List.getElem_cons_eraseIdx_perm hi').cons _
        _ ~ init ++ [last] := (List.perm_append_singleton last init).symm

theorem mem_of_mem_swapRemove {l : List α} {i : ℕ} {x : α} (hi : i < l.length)
    (hx : x ∈ swapRemove l i) : x ∈ l :=
  (getElem_cons_swapRemove_perm hi).subset (List.mem_cons_of_mem _ hx)

end MoveVector
