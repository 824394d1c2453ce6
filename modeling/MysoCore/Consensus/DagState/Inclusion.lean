/-
`DagState::link_causal_history` and `has_been_included`
(consensus/core/src/dag_state.rs): the blocks an own proposal newly
links, whose transactions its votes then cover.

# The model

`targets` is the source's `VecDeque`, a list popped at the front and
extended at the back. `recent_blocks.get_mut` finds the cache entry of a
reference (`lookup`), and setting its flag marks the entries under that
reference (`markIncluded`). The loop ends because each pass shortens the
queue or marks an entry that was not included (its `termination_by`).
A panic is an `Except.error` with the fixed part of its message.

# What it links

The loop is a lazily marking traversal (`Worklist.LazyInv`): the open
references are those above the GC round not included when the call
began, and the links are the ancestor links (`Link`). A call that
returns links each reference once, exactly those the traversal reaches
from the root (`Linkable`), and leaves the state with exactly those
marked (`link_causal_history_spec`). Afterwards the root is marked or
closed, so a second call from it links nothing; and since what a call
links was not marked before it, a run of calls (`linkRun`) never links a
reference twice. A call returns whenever the cache holds the ancestors
above the GC round of its blocks (`link_causal_history_ok`).
-/
import MysoCore.Lib.ExceptFold
import MysoCore.Consensus.DagState.Ancestors

namespace MysoCore.Consensus.DagState

open Worklist

/-- `DagState::has_been_included`. -/
def has_been_included (s : DagState) (block_ref : BlockRef) : Except String Bool :=
  match s.lookup block_ref with
  | some bi => .ok bi.included
  | none => .error "Attempted to query for inclusion status for a block not in cached data"

/-- Mark the cache entries under `r` included. -/
def markIncluded (s : DagState) (r : BlockRef) : DagState :=
  { s with recent_blocks := s.recent_blocks.map fun bi =>
      if bi.block.reference = r then { bi with included := true } else bi }

/-- The number of cached blocks not yet included: what the loop of
`link_causal_history` consumes. -/
def unincludedCount (s : DagState) : ℕ :=
  s.recent_blocks.countP fun bi => !bi.included

/-- Marking an entry not yet included drops the count. -/
theorem unincludedCount_markIncluded {s : DagState} {r : BlockRef} {bi : BlockInfo}
    (hbi : s.lookup r = some bi) (hni : bi.included = false) :
    (s.markIncluded r).unincludedCount < s.unincludedCount := by
  have hmem : bi ∈ s.recent_blocks := List.mem_of_find?_eq_some hbi
  have hkey : bi.block.reference = r := lookup_reference hbi
  refine countP_map_lt_of_imp (fun bi' _ => ?_) bi hmem (by simp [hni]) (by simp [hkey])
  -- marking only ever sets the flag
  by_cases h : bi'.block.reference = r <;> simp [h]

-- the names `hbi` and `hinc` are read by the termination proof only
set_option linter.unusedVariables false in
/-- The loop of `link_causal_history`: pop the front reference; skip it
at or below the GC round or when included; else link it, mark it and
queue its ancestors. -/
def linkLoop (gc_round : ℕ) (s : DagState) (targets linked_blocks : List BlockRef) :
    Except String (DagState × List BlockRef) :=
  match targets with
  | [] => .ok (s, linked_blocks)
  | block_ref :: targets =>
      if block_ref.round ≤ gc_round then linkLoop gc_round s targets linked_blocks
      else match hbi : s.lookup block_ref with
        | none => .error "Block is not in DAG state"
        | some block_info =>
            if hinc : block_info.included then linkLoop gc_round s targets linked_blocks
            else linkLoop gc_round (s.markIncluded block_ref) (targets ++ block_info.block.ancestors)
              (linked_blocks ++ [block_ref])
termination_by (s.unincludedCount, targets.length)
decreasing_by
  · exact Prod.Lex.right _ (by simp)
  · exact Prod.Lex.right _ (by simp)
  · exact Prod.Lex.left _ _ (unincludedCount_markIncluded hbi (by simpa using hinc))

/-- `DagState::link_causal_history`. -/
def link_causal_history (s : DagState) (root_block : BlockRef) :
    Except String (DagState × List BlockRef) :=
  linkLoop s.gc_round s [root_block] []

/-- A run of calls, each on the state the one before left, with what
they link in order. -/
def linkRun (s : DagState) (roots : List BlockRef) : Except String (DagState × List BlockRef) :=
  roots.foldlM (fun acc root => do
    let (s', linked) ← acc.1.link_causal_history root
    pure (s', acc.2 ++ linked)) (s, [])

-- ================================================================ one pass

section loop

variable {gc_round : ℕ} {s : DagState} {r : BlockRef} {rest linked : List BlockRef}

theorem linkLoop_nil (gc_round : ℕ) (s : DagState) (linked : List BlockRef) :
    linkLoop gc_round s [] linked = .ok (s, linked) := by
  rw [linkLoop]

/-- A reference at or below the GC round is skipped. -/
theorem linkLoop_of_le (hr : r.round ≤ gc_round) :
    linkLoop gc_round s (r :: rest) linked = linkLoop gc_round s rest linked := by
  rw [linkLoop, if_pos hr]

/-- A reference above the GC round that the cache misses panics. -/
theorem linkLoop_of_lookup_none (hr : ¬ r.round ≤ gc_round) (h : s.lookup r = none) :
    linkLoop gc_round s (r :: rest) linked = .error "Block is not in DAG state" := by
  rw [linkLoop, if_neg hr]
  split
  · rfl
  · next bi hbi => rw [h] at hbi; cases hbi

/-- An included reference is skipped. -/
theorem linkLoop_of_included {bi : BlockInfo} (hr : ¬ r.round ≤ gc_round) (h : s.lookup r = some bi)
    (hinc : bi.included = true) :
    linkLoop gc_round s (r :: rest) linked = linkLoop gc_round s rest linked := by
  rw [linkLoop, if_neg hr]
  split
  · next hbi => rw [h] at hbi; cases hbi
  · next bi' hbi =>
      rw [h, Option.some.injEq] at hbi
      subst hbi
      rw [dif_pos hinc]

/-- A cached reference not yet included is linked and marked, and its
ancestors are queued. -/
theorem linkLoop_of_not_included {bi : BlockInfo} (hr : ¬ r.round ≤ gc_round)
    (h : s.lookup r = some bi) (hinc : bi.included = false) :
    linkLoop gc_round s (r :: rest) linked =
      linkLoop gc_round (s.markIncluded r) (rest ++ bi.block.ancestors) (linked ++ [r]) := by
  rw [linkLoop, if_neg hr]
  split
  · next hbi => rw [h] at hbi; cases hbi
  · next bi' hbi =>
      rw [h, Option.some.injEq] at hbi
      subst hbi
      rw [dif_neg (by simp [hinc])]

end loop

-- ================================================================ marks

/-- Marking keeps every entry's block, so it finds the entries it found
before, marked. -/
theorem lookup_markIncluded (s : DagState) (r r' : BlockRef) :
    (s.markIncluded r).lookup r' = (s.lookup r').map fun bi =>
      if bi.block.reference = r then { bi with included := true } else bi := by
  unfold lookup markIncluded
  rw [List.find?_map]
  congr 2
  funext bi
  by_cases h : bi.block.reference = r <;> simp [h]

/-- Marking changes no entry's block. -/
@[simp] theorem block_lookup_markIncluded (s : DagState) (r r' : BlockRef) :
    ((s.markIncluded r).lookup r').map BlockInfo.block = (s.lookup r').map BlockInfo.block := by
  rw [lookup_markIncluded, Option.map_map]
  congr 1
  funext bi
  by_cases h : bi.block.reference = r <;> simp [h]

/-- Marking references one after the other changes no entry's block. -/
theorem block_lookup_foldl_markIncluded (r' : BlockRef) :
    ∀ (refs : List BlockRef) (s : DagState),
      ((refs.foldl markIncluded s).lookup r').map BlockInfo.block = (s.lookup r').map BlockInfo.block
  | [], _ => rfl
  | r :: refs, s => by
      rw [List.foldl_cons, block_lookup_foldl_markIncluded r' refs, block_lookup_markIncluded]

/-- An entry found after marking holds the block of the entry found
before. -/
theorem lookup_of_foldl_markIncluded {s : DagState} {refs : List BlockRef} {r : BlockRef}
    {bi : BlockInfo} (h : (refs.foldl markIncluded s).lookup r = some bi) :
    ∃ bi₀, s.lookup r = some bi₀ ∧ bi₀.block = bi.block := by
  have hblock := block_lookup_foldl_markIncluded r refs s
  rw [h] at hblock
  exact Option.map_eq_some_iff.mp hblock.symm

@[simp] theorem gc_round_markIncluded (s : DagState) (r : BlockRef) :
    (s.markIncluded r).gc_round = s.gc_round := rfl

theorem gc_round_foldl_markIncluded :
    ∀ (refs : List BlockRef) (s : DagState), (refs.foldl markIncluded s).gc_round = s.gc_round
  | [], _ => rfl
  | r :: refs, s => by rw [List.foldl_cons, gc_round_foldl_markIncluded refs]; rfl

/-- Marking `r` sets the flag of `r` and of nothing else. -/
theorem has_been_included_markIncluded (s : DagState) (r r' : BlockRef) :
    (s.markIncluded r).has_been_included r' = (s.has_been_included r').map (· || decide (r' = r)) := by
  unfold has_been_included
  rw [lookup_markIncluded]
  cases h : s.lookup r' with
  | none => rfl
  | some bi =>
      have hkey := lookup_reference h
      by_cases hr : r' = r <;> simp [hkey, hr, Except.map]

/-- A reference is included when the cache says so. -/
def Included (s : DagState) (r : BlockRef) : Prop := s.has_been_included r = .ok true

/-- Marking a cached reference adds it, and only it, to the included
ones. -/
theorem included_markIncluded_iff {s : DagState} {r : BlockRef} {bi : BlockInfo}
    (h : s.lookup r = some bi) (r' : BlockRef) :
    Included (s.markIncluded r) r' ↔ Included s r' ∨ r' = r := by
  unfold Included
  rw [has_been_included_markIncluded]
  by_cases hr : r' = r
  · subst hr
    simp [has_been_included, h, Except.map]
  · cases s.has_been_included r' <;> simp [hr, Except.map]

-- ================================================================ the traversal

/-- The references a call from `root` links: above the GC round, not
included, and reached from the root through such references along the
ancestor links. -/
def Linkable (s : DagState) (root : BlockRef) (r : BlockRef) : Prop :=
  LazyReach (Link s) (Included s) root (fun r => s.gc_round < r.round) r

/-- What the loop carries from the state `s₀` a call began in: the state
is `s₀` with the linked references marked, and the lazy traversal
invariant holds for the marks the cache reads. -/
structure LinkInv (s₀ : DagState) (root : BlockRef) (s : DagState) (targets linked : List BlockRef) :
    Prop where
  state : s = linked.foldl markIncluded s₀
  lazy : LazyInv (Link s₀) (Included s₀) root (fun r => s₀.gc_round < r.round) (Included s) linked targets

section inv

variable {s₀ s : DagState} {root r : BlockRef} {rest linked : List BlockRef}

/-- A reference the loop finds in the cache links from `s₀` to the
ancestors of the block it finds. -/
theorem LinkInv.link_iff {bi : BlockInfo} (hinv : LinkInv s₀ root s (r :: rest) linked)
    (hr : ¬ r.round ≤ s₀.gc_round) (h : s.lookup r = some bi) (z : BlockRef) :
    z ∈ bi.block.ancestors ↔ Link s₀ r z := by
  rw [hinv.state] at h
  -- `s₀` finds an entry with the same block, read by `get_block` above round zero
  obtain ⟨bi₀, hbi₀, hblock₀⟩ := lookup_of_foldl_markIncluded h
  have hget : s₀.get_block r = some bi.block := by
    rw [get_block_of_lookup (by omega) hbi₀, hblock₀]
  simp [Link, hget]

/-- Skipping a reference at or below the GC round keeps the invariant. -/
theorem LinkInv.skip_of_le (hinv : LinkInv s₀ root s (r :: rest) linked)
    (hr : r.round ≤ s₀.gc_round) : LinkInv s₀ root s rest linked :=
  ⟨hinv.state, hinv.lazy.skip (Or.inl (by omega))⟩

/-- Skipping an included reference keeps the invariant. -/
theorem LinkInv.skip_of_included {bi : BlockInfo} (hinv : LinkInv s₀ root s (r :: rest) linked)
    (h : s.lookup r = some bi) (hinc : bi.included = true) : LinkInv s₀ root s rest linked :=
  ⟨hinv.state, hinv.lazy.skip (Or.inr (by simp [Included, has_been_included, h, hinc]))⟩

/-- Linking a cached reference not yet included keeps the invariant. -/
theorem LinkInv.enter {bi : BlockInfo} (hinv : LinkInv s₀ root s (r :: rest) linked)
    (hr : ¬ r.round ≤ s₀.gc_round) (h : s.lookup r = some bi) (hinc : bi.included = false) :
    LinkInv s₀ root (s.markIncluded r) (rest ++ bi.block.ancestors) (linked ++ [r]) := by
  refine ⟨?_, ?_⟩
  · rw [List.foldl_append, ← hinv.state]
    rfl
  · have hnot : ¬ Included s r := by simp [Included, has_been_included, h, hinc]
    exact hinv.lazy.enter (by omega) hnot (hinv.link_iff hr h) (included_markIncluded_iff h)

end inv

/-- A run of the loop that returns keeps the invariant to its end. -/
theorem linkLoop_inv {s₀ : DagState} {root : BlockRef} :
    ∀ {s : DagState} {targets linked : List BlockRef} {s' : DagState} {out : List BlockRef},
      linkLoop s₀.gc_round s targets linked = .ok (s', out) →
      LinkInv s₀ root s targets linked → LinkInv s₀ root s' [] out := by
  intro s targets linked
  induction s, targets, linked using linkLoop.induct s₀.gc_round with
  | case1 s linked =>
      intro s' out h hinv
      rw [linkLoop_nil, Except.ok.injEq, Prod.mk.injEq] at h
      obtain ⟨rfl, rfl⟩ := h
      exact hinv
  | case2 s linked r rest hr ih =>
      intro s' out h hinv
      rw [linkLoop_of_le hr] at h
      exact ih h (hinv.skip_of_le hr)
  | case3 s linked r rest hr hbi =>
      intro s' out h _
      rw [linkLoop_of_lookup_none hr hbi] at h
      cases h
  | case4 s linked r rest hr bi hbi hinc ih =>
      intro s' out h hinv
      rw [linkLoop_of_included hr hbi hinc] at h
      exact ih h (hinv.skip_of_included hbi hinc)
  | case5 s linked r rest hr bi hbi hinc ih =>
      intro s' out h hinv
      have hinc' : bi.included = false := by simpa using hinc
      rw [linkLoop_of_not_included hr hbi hinc'] at h
      exact ih h (hinv.enter hr hbi hinc')

/-- A call that returns links each reference once, exactly the linkable
ones, and leaves the state with exactly those marked. -/
theorem link_causal_history_spec {s s' : DagState} {root : BlockRef} {linked : List BlockRef}
    (h : s.link_causal_history root = .ok (s', linked)) :
    s' = linked.foldl markIncluded s ∧ linked.Nodup ∧ (∀ r, r ∈ linked ↔ Linkable s root r) ∧
      ∀ r, Included s' r ↔ Included s r ∨ r ∈ linked := by
  have hinit : LinkInv s root s [root] [] := ⟨rfl, LazyInv.init fun _ => Iff.rfl⟩
  have hinv := linkLoop_inv h hinit
  exact ⟨hinv.state, hinv.lazy.nodup, hinv.lazy.done_iff, hinv.lazy.marked⟩

/-- After a call the root is included or at or below the GC round. -/
theorem link_causal_history_root {s s' : DagState} {root : BlockRef} {linked : List BlockRef}
    (h : s.link_causal_history root = .ok (s', linked)) :
    root.round ≤ s.gc_round ∨ Included s' root := by
  obtain ⟨-, -, hmem, hmarks⟩ := link_causal_history_spec h
  by_cases hr : root.round ≤ s.gc_round
  · exact Or.inl hr
  · refine Or.inr ((hmarks root).mpr ?_)
    by_cases hinc : Included s root
    · exact Or.inl hinc
    · -- an open root is linked
      exact Or.inr ((hmem root).mpr ⟨⟨by omega, hinc⟩, Relation.ReflTransGen.refl⟩)

/-- A second call from the same root, with the GC round unchanged,
links nothing. -/
theorem link_causal_history_again {s s' : DagState} {root : BlockRef} {linked : List BlockRef}
    (h : s.link_causal_history root = .ok (s', linked)) :
    s'.link_causal_history root = .ok (s', []) := by
  have hgc : s'.gc_round = s.gc_round := by
    rw [(link_causal_history_spec h).1, gc_round_foldl_markIncluded]
  unfold link_causal_history
  rcases link_causal_history_root h with hr | hinc
  · rw [linkLoop_of_le (by omega), linkLoop_nil]
  · -- the root is cached and included, so the pop skips it
    unfold Included has_been_included at hinc
    split at hinc
    · next bi hbi =>
        have hbinc : bi.included = true := by simpa using hinc
        by_cases hr : root.round ≤ s'.gc_round
        · rw [linkLoop_of_le hr, linkLoop_nil]
        · rw [linkLoop_of_included hr hbi hbinc, linkLoop_nil]
    · cases hinc

/-- What a call links was not included before it. -/
theorem not_included_of_linked {s s' : DagState} {root r : BlockRef} {linked : List BlockRef}
    (h : s.link_causal_history root = .ok (s', linked)) (hr : r ∈ linked) : ¬ Included s r :=
  (((link_causal_history_spec h).2.2.1 r).mp hr).open.2

/-- A run of calls that returns links each reference once, and marks
exactly what it links. -/
theorem linkRun_spec {s s' : DagState} {roots out : List BlockRef}
    (h : s.linkRun roots = .ok (s', out)) :
    out.Nodup ∧ ∀ r, Included s' r ↔ Included s r ∨ r ∈ out := by
  refine ExceptFold.foldlM_inv
    (fun acc : DagState × List BlockRef => acc.2.Nodup ∧ ∀ r, Included acc.1 r ↔ Included s r ∨ r ∈ acc.2)
    ⟨List.nodup_nil, fun r => by simp⟩ ?_ h
  rintro ⟨s₁, out₁⟩ root acc _ ⟨hnd, hmarks⟩ hstep
  obtain ⟨⟨s₂, linked⟩, hcall, hacc⟩ := ExceptFold.bind_eq_ok hstep
  cases hacc
  obtain ⟨-, hnd₂, -, hmarks₂⟩ := link_causal_history_spec hcall
  refine ⟨List.nodup_append.mpr ⟨hnd, hnd₂, ?_⟩, fun r => ?_⟩
  · -- what was linked before is included now, and a call links nothing included
    intro a ha b hb hab
    subst hab
    exact not_included_of_linked hcall hb ((hmarks a).mpr (Or.inr ha))
  · rw [hmarks₂, hmarks, List.mem_append]
    tauto

-- ================================================================ no panic

/-- The cache holds, above the GC round, the ancestors of every block it
holds. -/
def CachedAbove (s : DagState) : Prop :=
  ∀ r bi, s.lookup r = some bi → ∀ a ∈ bi.block.ancestors, s.gc_round < a.round → (s.lookup a).isSome

/-- From a state that holds the ancestors above the GC round, the loop
returns as long as what it has queued above the GC round is cached. -/
theorem linkLoop_ok {s₀ : DagState} (hcache : CachedAbove s₀) :
    ∀ {s : DagState} {targets linked : List BlockRef},
      (∀ a ∈ targets, s₀.gc_round < a.round → (s₀.lookup a).isSome) →
      s = linked.foldl markIncluded s₀ → ∃ s' out, linkLoop s₀.gc_round s targets linked = .ok (s', out) := by
  intro s targets linked
  induction s, targets, linked using linkLoop.induct s₀.gc_round with
  | case1 s linked =>
      intro _ _
      exact ⟨s, linked, linkLoop_nil _ s linked⟩
  | case2 s linked r rest hr ih =>
      intro htargets hs
      rw [linkLoop_of_le hr]
      exact ih (fun a ha => htargets a (List.mem_cons_of_mem r ha)) hs
  | case3 s linked r rest hr hbi =>
      intro htargets hs
      -- marking keeps the entries, so the cache misses what `s₀` held
      have hblock := block_lookup_foldl_markIncluded r linked s₀
      rw [← hs, hbi] at hblock
      have hsome := htargets r List.mem_cons_self (by omega)
      rw [Option.isSome_iff_exists] at hsome
      obtain ⟨bi₀, hbi₀⟩ := hsome
      rw [hbi₀] at hblock
      cases hblock
  | case4 s linked r rest hr bi hbi hinc ih =>
      intro htargets hs
      rw [linkLoop_of_included hr hbi hinc]
      exact ih (fun a ha => htargets a (List.mem_cons_of_mem r ha)) hs
  | case5 s linked r rest hr bi hbi hinc ih =>
      intro htargets hs
      have hinc' : bi.included = false := by simpa using hinc
      rw [linkLoop_of_not_included hr hbi hinc']
      rw [hs] at hbi
      obtain ⟨bi₀, hbi₀, hblock₀⟩ := lookup_of_foldl_markIncluded hbi
      refine ih (fun a ha hgc => ?_) (by rw [List.foldl_append, ← hs]; rfl)
      rcases List.mem_append.mp ha with ha | ha
      · exact htargets a (List.mem_cons_of_mem r ha) hgc
      · exact hcache r bi₀ hbi₀ a (hblock₀ ▸ ha) hgc

/-- A call returns on a state that holds the ancestors above the GC round
and the root, if it is above it. -/
theorem link_causal_history_ok {s : DagState} {root : BlockRef} (hcache : CachedAbove s)
    (hroot : s.gc_round < root.round → (s.lookup root).isSome) :
    ∃ s' linked, s.link_causal_history root = .ok (s', linked) := by
  refine linkLoop_ok hcache (fun a ha => ?_) rfl
  rw [List.mem_singleton.mp ha]
  exact hroot

/-- `link_causal_history` marks each block once: a call that returns
links, without duplicates, exactly the references above the GC round not
yet included that the root reaches through such references, marks them,
and a second call from the root links nothing; and a run of calls never
links a reference twice. -/
theorem link_causal_history_links_once :
    (∀ (s s' : DagState) (root : BlockRef) (linked : List BlockRef),
      s.link_causal_history root = .ok (s', linked) →
      linked.Nodup ∧ (∀ r, r ∈ linked ↔ Linkable s root r) ∧
      (∀ r, Included s' r ↔ Included s r ∨ r ∈ linked) ∧
      s'.link_causal_history root = .ok (s', [])) ∧
    ∀ (s s' : DagState) (roots linked : List BlockRef),
      s.linkRun roots = .ok (s', linked) → linked.Nodup := by
  refine ⟨fun s s' root linked h => ?_, fun s s' roots linked h => (linkRun_spec h).1⟩
  obtain ⟨-, hnd, hmem, hmarks⟩ := link_causal_history_spec h
  exact ⟨hnd, hmem, hmarks, link_causal_history_again h⟩

/-- Two cached rounds over a genesis block, none included, with the GC
round at zero. -/
def twoRounds : DagState :=
  ⟨[⟨0, 0, 0, 0, 0, [], [], []⟩],
    [⟨⟨0, 1, 0, 1, 0, [⟨0, 0, 0⟩], [], []⟩, false, false⟩,
      ⟨⟨0, 2, 0, 2, 0, [⟨1, 0, 1⟩], [], []⟩, false, false⟩],
    fun _ => none, none, [], 0⟩

/-- From the round-two block a call links it and the round-one block,
stops at the genesis block, and a second call links nothing. -/
theorem link_causal_history_two_rounds :
    ((twoRounds.markIncluded ⟨2, 0, 2⟩).markIncluded ⟨1, 0, 1⟩).link_causal_history ⟨2, 0, 2⟩ =
      .ok ((twoRounds.markIncluded ⟨2, 0, 2⟩).markIncluded ⟨1, 0, 1⟩, []) ∧
    ([⟨2, 0, 2⟩, ⟨1, 0, 1⟩] : List BlockRef).Nodup := by
  have hcall : twoRounds.link_causal_history ⟨2, 0, 2⟩ =
      .ok ((twoRounds.markIncluded ⟨2, 0, 2⟩).markIncluded ⟨1, 0, 1⟩, [⟨2, 0, 2⟩, ⟨1, 0, 1⟩]) := by
    have h₂ : twoRounds.lookup ⟨2, 0, 2⟩ = some ⟨⟨0, 2, 0, 2, 0, [⟨1, 0, 1⟩], [], []⟩, false, false⟩ := by
      decide
    have h₁ : (twoRounds.markIncluded ⟨2, 0, 2⟩).lookup ⟨1, 0, 1⟩ =
        some ⟨⟨0, 1, 0, 1, 0, [⟨0, 0, 0⟩], [], []⟩, false, false⟩ := by
      decide
    rw [link_causal_history, linkLoop_of_not_included (by decide) h₂ rfl]
    simp only [List.nil_append]
    rw [linkLoop_of_not_included (by decide) h₁ rfl]
    simp only [List.nil_append, List.singleton_append]
    rw [linkLoop_of_le (by decide), linkLoop_nil]
  have hrun : twoRounds.linkRun [⟨2, 0, 2⟩] =
      .ok ((twoRounds.markIncluded ⟨2, 0, 2⟩).markIncluded ⟨1, 0, 1⟩, [⟨2, 0, 2⟩, ⟨1, 0, 1⟩]) := by
    simp [linkRun, hcall]
  exact ⟨(link_causal_history_links_once.1 _ _ _ _ hcall).2.2.2,
    link_causal_history_links_once.2 _ _ _ _ hrun⟩

end MysoCore.Consensus.DagState
