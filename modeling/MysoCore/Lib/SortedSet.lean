/-
Finite sets of a linear order read in order, as an ordered container
iterates them: the members of a `Finset`, smallest first, and a sorted
list kept as a set, so that its head is its first member.

# Computing the order

`ascending` sorts the members by insertion sort, a structural recursion
the kernel evaluates, so that a run of a model over concrete sets reduces
by `decide`; the sorted list does not depend on the order the set's
representation lists its members in (`List.Perm.eq_of_pairwise'`).
`insertOrdered` adds a member to a sorted list where it belongs, keeping
it strictly increasing (`pairwise_lt_insertOrdered`).

# Popping the first members

A loop that pops the first member of a sorted set while it satisfies a
predicate holding on a prefix of the order pops exactly the members that
satisfy it (`mem_takeWhile_iff_of_closed`), leaves the others
(`mem_dropWhile_iff_of_closed`) and keeps the last member unless it pops
all (`getLast?_dropWhile`).

# Maps to sets

An ordered map whose values are sets, updated by adding members to the
set of a key (`entry(k).or_default().insert(x)` and its `extend`), keeps
a relation between every key and the members of its set when the added
members are related to the key (`forall_mem_alter_union`,
`forall_mem_alter_insert`).
-/
import Mathlib
import MysoCore.Lib.SortedMap

namespace SortedSet

variable {α : Type*} [LinearOrder α]

/-- The members of a finite set, smallest first. -/
def ascending (s : Finset α) : List α :=
  Quot.liftOn s.val (List.insertionSort (· ≤ ·)) fun _ _ h =>
    List.Perm.eq_of_pairwise' (List.pairwise_insertionSort _ _) (List.pairwise_insertionSort _ _)
      (((List.perm_insertionSort _ _).trans h).trans (List.perm_insertionSort _ _).symm)

@[simp] theorem mem_ascending {s : Finset α} {x : α} : x ∈ ascending s ↔ x ∈ s := by
  rcases s with ⟨l, hl⟩
  induction l using Quot.ind
  exact List.mem_insertionSort _

/-- The members come strictly increasing: each once, in order. -/
theorem pairwise_lt_ascending (s : Finset α) : (ascending s).Pairwise (· < ·) := by
  rcases s with ⟨l, hl⟩
  induction l using Quot.ind
  rename_i l
  have hle : (l.insertionSort (· ≤ ·)).Pairwise (· ≤ ·) := List.pairwise_insertionSort _ _
  have hnd : (l.insertionSort (· ≤ ·)).Nodup := (List.perm_insertionSort _ l).nodup_iff.mpr hl
  exact (hle.and hnd).imp fun h => lt_of_le_of_ne h.1 h.2

/-- A member added to a sorted list, before the first larger one, unless
it is there. -/
def insertOrdered (x : α) (l : List α) : List α :=
  if x ∈ l then l else l.orderedInsert (· ≤ ·) x

@[simp] theorem mem_insertOrdered {x y : α} {l : List α} :
    y ∈ insertOrdered x l ↔ y = x ∨ y ∈ l := by
  unfold insertOrdered
  split
  · next hx =>
      constructor
      · exact Or.inr
      · rintro (rfl | hy)
        · exact hx
        · exact hy
  · exact List.mem_orderedInsert _

/-- Adding a member keeps a sorted list strictly increasing. -/
theorem pairwise_lt_insertOrdered {x : α} {l : List α} (h : l.Pairwise (· < ·)) :
    (insertOrdered x l).Pairwise (· < ·) := by
  unfold insertOrdered
  split
  · exact h
  · next hx =>
      -- sorted by the order, and without repeats: so strictly increasing
      have hle : (l.orderedInsert (· ≤ ·) x).Pairwise (· ≤ ·) :=
        (h.imp le_of_lt).orderedInsert x l
      have hnd : (l.orderedInsert (· ≤ ·) x).Nodup :=
        (List.perm_orderedInsert _ x l).nodup_iff.mpr
          (List.nodup_cons.mpr ⟨hx, h.imp ne_of_lt⟩)
      exact (hle.and hnd).imp fun h => lt_of_le_of_ne h.1 h.2

-- ============================================================ popping the first members

section popping

variable {β : Type*} {p : β → Bool} {l : List β}

/-- On a list whose members satisfying `p` come first, the members
popped while `p` holds are those satisfying it. -/
theorem mem_takeWhile_iff_of_closed (hl : l.Pairwise fun x y => p y → p x) {x : β} :
    x ∈ l.takeWhile p ↔ x ∈ l ∧ p x := by
  induction l with
  | nil => simp
  | cons a l ih =>
      obtain ⟨ha, hl⟩ := List.pairwise_cons.mp hl
      by_cases hpa : p a
      · rw [List.takeWhile_cons_of_pos hpa, List.mem_cons, List.mem_cons, ih hl]
        constructor
        · rintro (rfl | ⟨hx, hpx⟩)
          · exact ⟨Or.inl rfl, hpa⟩
          · exact ⟨Or.inr hx, hpx⟩
        · rintro ⟨rfl | hx, hpx⟩
          · exact Or.inl rfl
          · exact Or.inr ⟨hx, hpx⟩
      · -- the head fails, and with it every later member
        rw [List.takeWhile_cons_of_neg hpa]
        simp only [List.not_mem_nil, false_iff, not_and]
        intro hx hpx
        rcases List.mem_cons.mp hx with rfl | hx
        · exact hpa hpx
        · exact hpa (ha x hx hpx)

/-- What is left once they are popped is the members not satisfying it. -/
theorem mem_dropWhile_iff_of_closed (hl : l.Pairwise fun x y => p y → p x) {x : β} :
    x ∈ l.dropWhile p ↔ x ∈ l ∧ ¬ p x := by
  induction l with
  | nil => simp
  | cons a l ih =>
      obtain ⟨ha, hl⟩ := List.pairwise_cons.mp hl
      by_cases hpa : p a
      · rw [List.dropWhile_cons_of_pos hpa, ih hl, List.mem_cons]
        constructor
        · rintro ⟨hx, hpx⟩
          exact ⟨Or.inr hx, hpx⟩
        · rintro ⟨rfl | hx, hpx⟩
          · exact absurd hpa hpx
          · exact ⟨hx, hpx⟩
      · -- nothing is popped: no member satisfies `p`
        rw [List.dropWhile_cons_of_neg hpa]
        constructor
        · intro hx
          refine ⟨hx, ?_⟩
          rcases List.mem_cons.mp hx with rfl | hx
          · exact hpa
          · exact fun hpx => hpa (ha x hx hpx)
        · exact fun h => h.1

/-- Popping from the front keeps the last member, unless it pops all. -/
theorem getLast?_dropWhile (h : l.dropWhile p ≠ []) : (l.dropWhile p).getLast? = l.getLast? := by
  obtain ⟨y, hy⟩ := List.getLast?_isSome.mpr h |> Option.isSome_iff_exists.mp
  conv_rhs => rw [← List.takeWhile_append_dropWhile (p := p) (l := l)]
  rw [List.getLast?_append, hy]
  rfl

end popping

-- ============================================================ maps to sets

section maps

open SortedMap

variable {κ : Type*} [LinearOrder κ] {P : κ → α → Prop} {k : κ} {l : List (κ × Finset α)}

/-- Adding to the set of a key members related to it keeps every member
related to its key. -/
theorem forall_mem_alter_union {u : Finset α} (hl : ∀ e ∈ l, ∀ x ∈ e.2, P e.1 x)
    (hu : ∀ x ∈ u, P k x) : ∀ e ∈ alter k (fun s => s.getD ∅ ∪ u) l, ∀ x ∈ e.2, P e.1 x := by
  refine forall_mem_alter hl ?_ ?_
  · intro x hx
    exact hu x (by simpa using hx)
  · intro s hs x hx
    rcases Finset.mem_union.mp hx with hx | hx
    · exact hl _ hs x hx
    · exact hu x hx

/-- Adding to the set of a key one member related to it keeps every
member related to its key. -/
theorem forall_mem_alter_insert {a : α} (hl : ∀ e ∈ l, ∀ x ∈ e.2, P e.1 x) (ha : P k a) :
    ∀ e ∈ alter k (fun s => insert a (s.getD ∅)) l, ∀ x ∈ e.2, P e.1 x := by
  refine forall_mem_alter hl ?_ ?_
  · intro x hx
    have hxa : x = a := by simpa using hx
    exact hxa ▸ ha
  · intro s hs x hx
    rcases Finset.mem_insert.mp hx with rfl | hx
    · exact ha
    · exact hl _ hs x hx

end maps

end SortedSet
