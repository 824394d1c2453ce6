/-
Marking worklist traversals: pop a node, record it, push the successors
that are not yet marked and mark them. The nodes marked before the
traversal began are never entered, so a complete run records exactly the
nodes reachable from the root through unmarked nodes.

# The invariant

`Inv` relates the marks `V`, the recorded nodes `done` and the stack
`todo`: the marks are the initial marks plus `done` and `todo`, which
hold no node twice and none marked initially; all of them are
reachable; the root is among them; and every successor of a recorded
node is recorded or on the stack. `Inv.init` starts it, `Inv.step`
carries it over one pop, and `Inv.done_iff` reads off the result once
the stack is empty.

# Lazy marking

A lazily marking traversal marks a node when it pops it, not when it
pushes it: it pops a node, drops it if it is out of bounds or marked,
and otherwise records and marks it and queues all its successors, so a
node may be queued many times. `LazyInv` carries the same facts for
this order: the marks are the initial marks plus the recorded nodes,
recorded once each and all reachable through open nodes (in bounds and
not marked initially); every queued node is the root or a successor of
a recorded one; and every open successor of a recorded node is recorded
or queued. `LazyInv.skip` and `LazyInv.enter` carry it over the two
kinds of pop and `LazyInv.done_iff` reads off the result.
-/
import Mathlib

namespace Worklist

variable {α : Type*} (E : α → α → Prop) (V₀ : α → Prop) (root : α)

/-- The edges a traversal follows: into nodes not marked before it began. -/
def Edge (x y : α) : Prop := E x y ∧ ¬ V₀ y

/-- The nodes a complete traversal records. -/
def Reach (y : α) : Prop := Relation.ReflTransGen (Edge E V₀) root y

/-- The traversal invariant, for marks `V`, recorded nodes `done` and
stack `todo`. -/
structure Inv (V : α → Prop) (done todo : List α) : Prop where
  marked : ∀ y, V y ↔ V₀ y ∨ y ∈ done ∨ y ∈ todo
  nodup : (done ++ todo).Nodup
  fresh : ∀ y ∈ done ++ todo, ¬ V₀ y
  reach : ∀ y ∈ done ++ todo, Reach E V₀ root y
  root_mem : root ∈ done ∨ root ∈ todo
  closed : ∀ x ∈ done, ∀ y, Edge E V₀ x y → y ∈ done ∨ y ∈ todo

variable {E V₀ root}

/-- Marking the root and pushing it starts the invariant. -/
theorem Inv.init {V : α → Prop} (hV : ∀ y, V y ↔ V₀ y ∨ y = root) (hroot : ¬ V₀ root) :
    Inv E V₀ root V [] [root] where
  marked y := by simpa using hV y
  nodup := List.nodup_singleton root
  fresh y hy := by
    rw [List.nil_append, List.mem_singleton] at hy
    exact hy ▸ hroot
  reach y hy := by
    rw [List.nil_append, List.mem_singleton] at hy
    exact hy ▸ Relation.ReflTransGen.refl
  root_mem := Or.inr List.mem_cons_self
  closed x hx := by cases hx

/-- The pushed successors are fresh and kept apart from everything the
invariant already holds. -/
private theorem Inv.not_mem_of_unmarked {V : α → Prop} {done todo : List α}
    (hinv : Inv E V₀ root V done todo) {y : α} (hy : ¬ V y) : y ∉ done ∧ y ∉ todo ∧ ¬ V₀ y := by
  have h := (hinv.marked y).not.mp hy
  exact ⟨fun h' => h (Or.inr (Or.inl h')), fun h' => h (Or.inr (Or.inr h')),
    fun h' => h (Or.inl h')⟩

/-- Popping `x`, recording it and pushing (in order) its unmarked
successors `ns`, marked as they go, keeps the invariant. -/
theorem Inv.step {V V' : α → Prop} {done rest ns : List α} {x : α}
    (hinv : Inv E V₀ root V done (x :: rest))
    (hns : ∀ y, y ∈ ns ↔ E x y ∧ ¬ V y) (hnd : ns.Nodup)
    (hV' : ∀ y, V' y ↔ V y ∨ y ∈ ns) :
    Inv E V₀ root V' (done ++ [x]) (ns.reverse ++ rest) := by
  have hx : Reach E V₀ root x := hinv.reach x (by simp)
  have hold : (done ++ x :: rest).Nodup := hinv.nodup
  have hnew : ∀ y ∈ ns, y ∉ done ∧ y ∉ x :: rest ∧ ¬ V₀ y := fun y hy =>
    hinv.not_mem_of_unmarked ((hns y).mp hy).2
  -- every node that was held stays held, now or on the stack
  have hmove : ∀ y, y ∈ done ∨ y ∈ x :: rest → y ∈ done ++ [x] ∨ y ∈ ns.reverse ++ rest := by
    intro y hy
    simp only [List.mem_cons, List.mem_append, List.mem_reverse] at hy ⊢
    tauto
  refine ⟨?_, ?_, ?_, ?_, ?_, ?_⟩
  · intro y
    rw [hV', hinv.marked]
    simp only [List.mem_cons, List.mem_append, List.mem_reverse]
    tauto
  · -- the new list holds what the old one held, and the pushed nodes besides
    have hperm : (done ++ [x] ++ (ns.reverse ++ rest)).Perm (ns ++ (done ++ x :: rest)) := by
      classical
      rw [List.perm_iff_count]
      intro a
      simp only [List.count_append, List.count_reverse, List.count_cons, List.count_nil]
      omega
    refine hperm.nodup_iff.mpr (List.nodup_append.mpr ⟨hnd, hold, ?_⟩)
    intro a ha b hb hab
    obtain ⟨hd, hr, -⟩ := hnew a ha
    rw [List.mem_append] at hb
    rcases hb with hb | hb
    · exact hd (hab ▸ hb)
    · exact hr (hab ▸ hb)
  · intro y hy
    simp only [List.mem_append, List.mem_singleton, List.mem_reverse] at hy
    rcases hy with (hy | rfl) | hy | hy
    · exact hinv.fresh y (by simp [hy])
    · exact hinv.fresh y (by simp)
    · exact (hnew y hy).2.2
    · exact hinv.fresh y (by simp [hy])
  · intro y hy
    simp only [List.mem_append, List.mem_singleton, List.mem_reverse] at hy
    rcases hy with (hy | rfl) | hy | hy
    · exact hinv.reach y (by simp [hy])
    · exact hx
    · exact hx.tail ⟨((hns y).mp hy).1, (hnew y hy).2.2⟩
    · exact hinv.reach y (by simp [hy])
  · exact hmove root hinv.root_mem
  · intro x' hx' y hxy
    rw [List.mem_append, List.mem_singleton] at hx'
    rcases hx' with hx' | rfl
    · exact hmove y (hinv.closed x' hx' y hxy)
    · -- a successor of the popped node is pushed now unless it was marked already
      by_cases hVy : V y
      · rcases (hinv.marked y).mp hVy with h | h
        · exact absurd h hxy.2
        · exact hmove y h
      · exact Or.inr (by simp [(hns y).mpr ⟨hxy.1, hVy⟩])

/-- Once the stack is empty, the recorded nodes are exactly the
reachable ones. -/
theorem Inv.done_iff {V : α → Prop} {done : List α} (hinv : Inv E V₀ root V done []) (y : α) :
    y ∈ done ↔ Reach E V₀ root y := by
  constructor
  · intro hy
    exact hinv.reach y (by simp [hy])
  · intro hy
    have hroot : root ∈ done := by simpa using hinv.root_mem
    induction hy with
    | refl => exact hroot
    | tail _ hxy ih => simpa using hinv.closed _ ih _ hxy

-- ================================================================ lazy marking

section lazy

variable (E V₀ root) (Q : α → Prop)

/-- The nodes a lazily marking traversal may enter: in bounds and not
marked before it began. -/
def Open (y : α) : Prop := Q y ∧ ¬ V₀ y

/-- The nodes a complete lazy traversal records: an open root and what
its links reach through open nodes. -/
def LazyReach (y : α) : Prop :=
  Open V₀ Q root ∧ Relation.ReflTransGen (fun x z => E x z ∧ Open V₀ Q z) root y

/-- The lazy traversal invariant, for marks `V`, recorded nodes `done`
and queue `todo`. -/
structure LazyInv (V : α → Prop) (done todo : List α) : Prop where
  marked : ∀ y, V y ↔ V₀ y ∨ y ∈ done
  nodup : done.Nodup
  reach : ∀ y ∈ done, LazyReach E V₀ root Q y
  pending : ∀ y ∈ todo, y = root ∨ ∃ x ∈ done, E x y
  root_mem : Open V₀ Q root → root ∈ done ∨ root ∈ todo
  closed : ∀ x ∈ done, ∀ y, E x y → Open V₀ Q y → y ∈ done ∨ y ∈ todo

variable {E V₀ Q root}

/-- What a lazy traversal reaches is open. -/
theorem LazyReach.open {y : α} (h : LazyReach E V₀ root Q y) : Open V₀ Q y := by
  obtain ⟨hroot, hpath⟩ := h
  cases hpath.cases_tail with
  | inl h => exact h ▸ hroot
  | inr h =>
      obtain ⟨x, -, -, hz⟩ := h
      exact hz

/-- Queuing the root, with the initial marks, starts the invariant. -/
theorem LazyInv.init {V : α → Prop} (hV : ∀ y, V y ↔ V₀ y) : LazyInv E V₀ root Q V [] [root] where
  marked y := by simpa using hV y
  nodup := List.nodup_nil
  reach y hy := by cases hy
  pending y hy := Or.inl (List.mem_singleton.mp hy)
  root_mem _ := Or.inr List.mem_cons_self
  closed x hx := by cases hx

/-- Dropping a popped node out of bounds or marked keeps the invariant:
an open node that is marked is recorded already. -/
theorem LazyInv.skip {V : α → Prop} {done rest : List α} {y : α}
    (hinv : LazyInv E V₀ root Q V done (y :: rest)) (hy : ¬ Q y ∨ V y) :
    LazyInv E V₀ root Q V done rest := by
  -- an open node queued as `y` is one the traversal recorded
  have hkeep : ∀ z, Open V₀ Q z → z ∈ done ∨ z ∈ y :: rest → z ∈ done ∨ z ∈ rest := by
    intro z hz hmem
    rcases hmem with hmem | hmem
    · exact Or.inl hmem
    · rcases List.mem_cons.mp hmem with rfl | hmem
      · rcases hy with hy | hy
        · exact absurd hz.1 hy
        · rcases (hinv.marked z).mp hy with h | h
          · exact absurd h hz.2
          · exact Or.inl h
      · exact Or.inr hmem
  refine ⟨hinv.marked, hinv.nodup, hinv.reach, ?_, ?_, ?_⟩
  · intro z hz
    exact hinv.pending z (List.mem_cons_of_mem y hz)
  · intro hroot
    exact hkeep root hroot (hinv.root_mem hroot)
  · intro x hx z hxz hz
    exact hkeep z hz (hinv.closed x hx z hxz hz)

/-- Recording and marking a popped node in bounds and unmarked, and
queuing its successors `ns`, keeps the invariant. -/
theorem LazyInv.enter {V V' : α → Prop} {done rest ns : List α} {y : α}
    (hinv : LazyInv E V₀ root Q V done (y :: rest)) (hQ : Q y) (hV : ¬ V y)
    (hns : ∀ z, z ∈ ns ↔ E y z) (hV' : ∀ z, V' z ↔ V z ∨ z = y) :
    LazyInv E V₀ root Q V' (done ++ [y]) (rest ++ ns) := by
  have hmarked := (hinv.marked y).not.mp hV
  have hopen : Open V₀ Q y := ⟨hQ, fun h => hmarked (Or.inl h)⟩
  have hdone : y ∉ done := fun h => hmarked (Or.inr h)
  -- every node that was held stays held, now or in the queue
  have hmove : ∀ z, z ∈ done ∨ z ∈ y :: rest → z ∈ done ++ [y] ∨ z ∈ rest ++ ns := by
    intro z hz
    simp only [List.mem_cons, List.mem_append] at hz ⊢
    tauto
  refine ⟨?_, ?_, ?_, ?_, ?_, ?_⟩
  · intro z
    rw [hV', hinv.marked]
    simp only [List.mem_append, List.mem_singleton]
    tauto
  · exact List.nodup_append.mpr ⟨hinv.nodup, List.nodup_singleton y,
      fun a ha b hb hab => hdone (List.mem_singleton.mp hb ▸ hab ▸ ha)⟩
  · intro z hz
    rcases List.mem_append.mp hz with hz | hz
    · exact hinv.reach z hz
    · -- the popped node is the root or a successor of a recorded one
      rw [List.mem_singleton.mp hz]
      rcases hinv.pending y List.mem_cons_self with rfl | ⟨x, hx, hxy⟩
      · exact ⟨hopen, Relation.ReflTransGen.refl⟩
      · obtain ⟨hroot, hpath⟩ := hinv.reach x hx
        exact ⟨hroot, hpath.tail ⟨hxy, hopen⟩⟩
  · intro z hz
    rcases List.mem_append.mp hz with hz | hz
    · rcases hinv.pending z (List.mem_cons_of_mem y hz) with h | ⟨x, hx, hxz⟩
      · exact Or.inl h
      · exact Or.inr ⟨x, List.mem_append_left [y] hx, hxz⟩
    · exact Or.inr ⟨y, List.mem_append_right done List.mem_cons_self, (hns z).mp hz⟩
  · intro hroot
    exact hmove root (hinv.root_mem hroot)
  · intro x hx z hxz hz
    rcases List.mem_append.mp hx with hx | hx
    · exact hmove z (hinv.closed x hx z hxz hz)
    · rw [List.mem_singleton.mp hx] at hxz
      exact Or.inr (List.mem_append_right rest ((hns z).mpr hxz))

/-- Once the queue is empty, the recorded nodes are exactly those a lazy
traversal reaches. -/
theorem LazyInv.done_iff {V : α → Prop} {done : List α} (hinv : LazyInv E V₀ root Q V done [])
    (y : α) : y ∈ done ↔ LazyReach E V₀ root Q y := by
  constructor
  · exact hinv.reach y
  · rintro ⟨hroot, hpath⟩
    have hmem : root ∈ done := by simpa using hinv.root_mem hroot
    induction hpath with
    | refl => exact hmem
    | tail _ hxz ih => simpa using hinv.closed _ ih _ hxz.1 hxz.2

end lazy

end Worklist
