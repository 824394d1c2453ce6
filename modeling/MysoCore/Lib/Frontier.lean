/-
Descending frontier explorations: a finite frontier of nodes of a linear
order; while its largest node is not one to stop at, that node is
replaced by its successors. An expanded node leaves the frontier and its
successors join it, so when the exploration stops the frontier holds
exactly the stopping nodes reachable from the start through nodes it
does not stop at.

# The invariant

`Inv` relates the frontier `S` and the expanded nodes `P`: everything on
the frontier is reachable, no expanded node is a stopping one, every
start node is on the frontier or expanded, and so is every successor of
an expanded node. `Inv.init` starts it, `Inv.step` carries it over one
expansion and `Inv.mem_iff` reads off the frontier once every node on it
is a stopping node.

# The order

The order is what lets the exploration look at the largest node only:
below a stopping node every node is one (`forall_stop_of_max`), and
successors below the expanded node leave a frontier below it
(`max_lt_of_expand`), so the largest node goes down at every expansion.
-/
import Mathlib

namespace Frontier

variable {α : Type*} (E : α → α → Prop) (stop : α → Prop) (start : Finset α)

/-- The links an exploration follows: out of nodes it does not stop at. -/
def Edge (x y : α) : Prop := E x y ∧ ¬ stop x

/-- The nodes reachable from the start through nodes not stopped at. -/
def Reach (y : α) : Prop := ∃ a ∈ start, Relation.ReflTransGen (Edge E stop) a y

/-- The exploration invariant, for frontier `S` and expanded nodes `P`. -/
structure Inv (S P : Finset α) : Prop where
  reach : ∀ y ∈ S, Reach E stop start y
  expanded : ∀ p ∈ P, ¬ stop p
  start_mem : ∀ a ∈ start, a ∈ S ∨ a ∈ P
  closed : ∀ p ∈ P, ∀ y, E p y → y ∈ S ∨ y ∈ P

variable {E stop start}

/-- The start is the first frontier, with nothing expanded. -/
theorem Inv.init : Inv E stop start start ∅ where
  reach a ha := ⟨a, ha, Relation.ReflTransGen.refl⟩
  expanded p hp := absurd hp (Finset.notMem_empty p)
  start_mem _ ha := Or.inl ha
  closed p hp := absurd hp (Finset.notMem_empty p)

/-- Expanding a frontier node `m` not stopped at, replacing it by its
successors `N`, keeps the invariant. -/
theorem Inv.step [DecidableEq α] {S P N : Finset α} {m : α} (h : Inv E stop start S P) (hm : m ∈ S)
    (hstop : ¬ stop m) (hN : ∀ y, y ∈ N ↔ E m y) :
    Inv E stop start (S.erase m ∪ N) (insert m P) := by
  -- a node that was held stays held: `m` moves to the expanded ones
  have hmove : ∀ y, y ∈ S ∨ y ∈ P → y ∈ S.erase m ∪ N ∨ y ∈ insert m P := by
    intro y hy
    by_cases hym : y = m
    · exact Or.inr (hym ▸ Finset.mem_insert_self m P)
    · rcases hy with hy | hy
      · exact Or.inl (Finset.mem_union_left N (Finset.mem_erase.mpr ⟨hym, hy⟩))
      · exact Or.inr (Finset.mem_insert_of_mem hy)
  refine ⟨?_, ?_, ?_, ?_⟩
  · intro y hy
    rcases Finset.mem_union.mp hy with hy | hy
    · exact h.reach y (Finset.mem_of_mem_erase hy)
    · obtain ⟨a, ha, hpath⟩ := h.reach m hm
      exact ⟨a, ha, hpath.tail ⟨(hN y).mp hy, hstop⟩⟩
  · intro p hp
    rcases Finset.mem_insert.mp hp with rfl | hp
    · exact hstop
    · exact h.expanded p hp
  · intro a ha
    exact hmove a (h.start_mem a ha)
  · intro p hp y hpy
    rcases Finset.mem_insert.mp hp with rfl | hp
    · exact Or.inl (Finset.mem_union_right _ ((hN y).mpr hpy))
    · exact hmove y (h.closed p hp y hpy)

/-- Every node a path of links reaches from a held node is held, as long
as no node on the frontier is expanded further. -/
theorem Inv.held_of_path {S P : Finset α} (h : Inv E stop start S P) (hS : ∀ y ∈ S, stop y)
    {a y : α} (ha : a ∈ S ∨ a ∈ P) (hpath : Relation.ReflTransGen (Edge E stop) a y) :
    y ∈ S ∨ y ∈ P := by
  induction hpath with
  | refl => exact ha
  | tail _ hxy ih =>
      -- the link leaves a node not stopped at, which is not on the frontier
      obtain ⟨hE, hx⟩ := hxy
      rcases ih with hxS | hxP
      · exact absurd (hS _ hxS) hx
      · exact h.closed _ hxP _ hE

/-- Once every node on the frontier is a stopping node, the frontier is
exactly the reachable stopping nodes. -/
theorem Inv.mem_iff {S P : Finset α} (h : Inv E stop start S P) (hS : ∀ y ∈ S, stop y) (y : α) :
    y ∈ S ↔ stop y ∧ Reach E stop start y := by
  constructor
  · intro hy
    exact ⟨hS y hy, h.reach y hy⟩
  · rintro ⟨hy, a, ha, hpath⟩
    rcases h.held_of_path hS (h.start_mem a ha) hpath with hyS | hyP
    · exact hyS
    · exact absurd hy (h.expanded y hyP)

-- ================================================================ the order

section order

variable [LinearOrder α]

/-- With a stopping rule closed downwards, a frontier whose largest node
is a stopping node holds stopping nodes only. -/
theorem forall_stop_of_max {S : Finset α} {m : α} (hdown : ∀ x y, y ≤ x → stop x → stop y)
    (hmax : S.max = m) (hstop : stop m) : ∀ y ∈ S, stop y :=
  fun y hy => hdown m y (Finset.le_max_of_eq hy hmax) hstop

/-- Replacing the largest node by successors below it leaves a frontier
whose largest node, if any, is below it. -/
theorem max_lt_of_expand [DecidableEq α] {S N : Finset α} {m : α} (hmax : S.max = m) (hN : ∀ y ∈ N, y < m) :
    (S.erase m ∪ N).max < m := by
  have hlt : ∀ y ∈ S.erase m ∪ N, y < m := by
    intro y hy
    rcases Finset.mem_union.mp hy with hy | hy
    · obtain ⟨hym, hyS⟩ := Finset.mem_erase.mp hy
      exact lt_of_le_of_ne (Finset.le_max_of_eq hyS hmax) hym
    · exact hN y hy
  cases hmax' : (S.erase m ∪ N).max with
  | bot => exact WithBot.bot_lt_coe m
  | coe m' => exact WithBot.coe_lt_coe.mpr (hlt m' (Finset.mem_of_max hmax'))

end order

end Frontier
