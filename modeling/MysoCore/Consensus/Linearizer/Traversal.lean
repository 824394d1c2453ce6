/-
The traversal of `Linearizer::linearize_sub_dag` is a marking worklist
traversal (`Worklist`) over block references.

# The instance

The links are the ancestors of a block the DAG state holds, into rounds
above the GC round; the initial marks are the references committed
before the leader is expanded. The loop's buffer and output are the
stack and the recorded nodes, read through `Block.reference`. Every block
the loop holds is the one the DAG state returns under its reference: the
leader by assumption, each ancestor because it was fetched so.

# What a sub-dag is

`SubDagSpec` says what `linearize_sub_dag` returns: the blocks reachable
from the leader, each once, none committed before, all above the GC
round and at most at the leader's round, sorted by round and author.
`linearize_sub_dag_spec` proves it, and that exactly those blocks were
marked and nothing else in the state changed.
-/
import MysoCore.Lib.Worklist
import MysoCore.Consensus.Linearizer

namespace MysoCore.Consensus.Linearizer

open DagState

/-- The references marked committed in the cache. -/
def Committed (s : DagState) (r : BlockRef) : Prop := s.is_committed r = .ok true

/-- The links the traversal follows: from a block the DAG state holds to
its ancestors above the GC round. -/
def AncestorLink (s : DagState) (gc_round : ℕ) (r r' : BlockRef) : Prop :=
  ∃ x, s.get_block r = some x ∧ r' ∈ x.ancestors ∧ gc_round < r'.round

/-- `SignedBlockVerifier::verify_block`'s round rule for the blocks the
DAG state returns: ancestors lie below the round of the reference. -/
def AncestorsBelow (s : DagState) : Prop :=
  ∀ r b, s.get_block r = some b → ∀ a ∈ b.ancestors, a.round < r.round

/-- The order `sort_sub_dag_blocks` sorts by. -/
def RoundAuthorLe (a b : Block) : Prop :=
  a.round < b.round ∨ (a.round = b.round ∧ a.author ≤ b.author)

/-- What `linearize_sub_dag` commits for `leader`, from the blocks the
state `s` holds, the references `committed` before and the GC round. -/
structure SubDagSpec (s : DagState) (gc_round : ℕ) (committed : BlockRef → Prop)
    (leader : Block) (blocks : List Block) : Prop where
  mem_iff : ∀ b, b ∈ blocks ↔ s.get_block b.reference = some b ∧
    Worklist.Reach (AncestorLink s gc_round) committed leader.reference b.reference
  nodup : (blocks.map Block.reference).Nodup
  fresh : ∀ b ∈ blocks, ¬ committed b.reference
  above_gc : ∀ b ∈ blocks, gc_round < b.round
  below_leader : ∀ b ∈ blocks, b.round ≤ leader.round
  sorted : blocks.Pairwise RoundAuthorLe

theorem ancestorLink_of_get_block {s : DagState} {gc_round : ℕ} {x : Block}
    (hx : s.get_block x.reference = some x) (r' : BlockRef) :
    AncestorLink s gc_round x.reference r' ↔ r' ∈ x.ancestors ∧ gc_round < r'.round := by
  simp [AncestorLink, hx]

/-- Along the links rounds go down, so nothing reachable lies above the
root. -/
theorem round_le_of_reach {s : DagState} {gc_round : ℕ} {committed : BlockRef → Prop}
    {root r : BlockRef} (hbelow : AncestorsBelow s)
    (h : Worklist.Reach (AncestorLink s gc_round) committed root r) : r.round ≤ root.round := by
  induction h with
  | refl => exact le_refl _
  | tail _ hlink ih =>
      obtain ⟨⟨x, hx, hmem, -⟩, -⟩ := hlink
      exact le_of_lt (lt_of_lt_of_le (hbelow _ x hx _ hmem) ih)

/-- The round rule holds of a DAG state whose cached blocks obey it, whose
genesis blocks have no ancestors and whose storage obeys it. -/
theorem ancestorsBelow_of_blocks {s : DagState} (hgenesis : ∀ b ∈ s.genesis, b.ancestors = [])
    (hcache : ∀ bi ∈ s.recent_blocks, ∀ a ∈ bi.block.ancestors, a.round < bi.block.round)
    (hstore : ∀ r b, s.store r = some b → ∀ a ∈ b.ancestors, a.round < r.round) :
    AncestorsBelow s := by
  intro r b h a ha
  unfold get_block at h
  split at h
  · have hb := List.mem_of_find?_eq_some h
    rw [hgenesis b hb] at ha
    cases ha
  · split at h
    · next bi hbi =>
        cases h
        have hround : bi.block.round = r.round := by
          rw [← lookup_reference hbi]
          rfl
        exact hround ▸ hcache bi (List.mem_of_find?_eq_some hbi) a ha
    · exact hstore r b h a ha

-- ================================================= the pieces of one pop

theorem eq_map_some_of_expectAll {msg : String} :
    ∀ {os : List (Option Block)} {bs : List Block}, expectAll msg os = .ok bs → os = bs.map some
  | [], bs, h => by
      simp only [expectAll, Except.ok.injEq] at h
      simp [← h]
  | none :: _, _, h => by cases h
  | some b :: os, bs, h => by
      simp only [expectAll] at h
      cases hrest : expectAll msg os with
      | error e => simp [hrest, Except.map] at h
      | ok bs' =>
          simp only [hrest, Except.map, Except.ok.injEq] at h
          subst h
          simp [eq_map_some_of_expectAll hrest]

/-- The filter of the loop: the ancestors above the GC round not yet
committed, all of which the cache holds. -/
theorem uncommittedAncestors_eq_ok {s : DagState} {gc_round : ℕ} :
    ∀ {as refs : List BlockRef}, uncommittedAncestors s gc_round as = .ok refs →
      (∀ r ∈ refs, s.is_committed r = .ok false) ∧
      ∀ r, r ∈ refs ↔ r ∈ as ∧ gc_round < r.round ∧ ¬ Committed s r
  | [], refs, h => by
      simp only [uncommittedAncestors, Except.ok.injEq] at h
      simp [← h]
  | a :: rest, refs, h => by
      unfold uncommittedAncestors at h
      split at h
      · next hgc =>
          split at h
          · cases h
          · next hc =>
              obtain ⟨hfalse, hiff⟩ := uncommittedAncestors_eq_ok h
              refine ⟨hfalse, fun r => ?_⟩
              rw [hiff r]
              by_cases hr : r = a
              · subst hr
                simp [Committed, hc]
              · simp [hr]
          · next hc =>
              cases hrest : uncommittedAncestors s gc_round rest with
              | error e => simp [hrest, Except.map] at h
              | ok refs' =>
                  simp only [hrest, Except.map, Except.ok.injEq] at h
                  subst h
                  obtain ⟨hfalse, hiff⟩ := uncommittedAncestors_eq_ok hrest
                  refine ⟨?_, fun r => ?_⟩
                  · intro r hr
                    rcases List.mem_cons.mp hr with rfl | hr
                    · exact hc
                    · exact hfalse r hr
                  · rw [List.mem_cons, hiff r]
                    by_cases hr : r = a
                    · subst hr
                      simp [Committed, hc, hgc]
                    · simp [hr]
      · next hgc =>
          obtain ⟨hfalse, hiff⟩ := uncommittedAncestors_eq_ok h
          refine ⟨hfalse, fun r => ?_⟩
          rw [hiff r]
          by_cases hr : r = a
          · subst hr
            simp [hgc]
          · simp [hr]

/-- Fetching cached references above round zero returns the cached
blocks, in order. -/
theorem get_blocks_of_cached {s : DagState} :
    ∀ {refs : List BlockRef} {bs : List Block},
      (∀ r ∈ refs, s.is_committed r = .ok false ∧ r.round ≠ 0) →
      s.get_blocks refs = bs.map some →
      bs.map Block.reference = refs ∧ ∀ b ∈ bs, s.get_block b.reference = some b
  | [], bs, _, h => by
      cases bs with
      | nil => simp
      | cons _ _ => simp [get_blocks] at h
  | r :: refs, bs, hrefs, h => by
      cases bs with
      | nil => simp [get_blocks] at h
      | cons b bs =>
          simp only [get_blocks, List.map_cons, List.cons.injEq] at h
          obtain ⟨hb, hrest⟩ := h
          obtain ⟨hc, hr⟩ := hrefs r List.mem_cons_self
          obtain ⟨b', hb', href⟩ := get_block_of_is_committed hr hc
          have hbb : b' = b := Option.some.inj (hb'.symm.trans hb)
          subst hbb
          obtain ⟨hmap, hget⟩ := get_blocks_of_cached
            (fun r' h' => hrefs r' (List.mem_cons_of_mem r h')) hrest
          refine ⟨by simp [href, hmap], fun b hb => ?_⟩
          rcases List.mem_cons.mp hb with rfl | hb
          · rw [href]
            exact hb'
          · exact hget b hb

/-- Pushing the fetched ancestors: each is marked fresh, so none repeats;
the marks grow by exactly their references; only the cache changes. -/
theorem pushAncestors_eq_ok :
    ∀ {s : DagState} {buffer as : List Block} {s' : DagState} {buffer' : List Block},
      pushAncestors s buffer as = .ok (s', buffer') →
      buffer' = as.reverse ++ buffer ∧ (as.map Block.reference).Nodup ∧
      (∀ a ∈ as, s.is_committed a.reference = .ok false) ∧
      (∀ r, Committed s' r ↔ Committed s r ∨ r ∈ as.map Block.reference) ∧
      s'.get_block = s.get_block ∧ ∃ rb, s' = { s with recent_blocks := rb }
  | s, buffer, [], s', buffer', h => by
      simp only [pushAncestors, Except.ok.injEq, Prod.mk.injEq] at h
      obtain ⟨rfl, rfl⟩ := h
      exact ⟨rfl, List.nodup_nil, by simp, by simp, rfl, s.recent_blocks, rfl⟩
  | s, buffer, a :: rest, s', buffer', h => by
      simp only [pushAncestors] at h
      split at h
      · cases h
      · next s₁ hset =>
          obtain ⟨hfalse, rfl⟩ := set_committed_fresh hset
          obtain ⟨hbuf, hnd, hfresh, hmarks, hget, rb, rfl⟩ := pushAncestors_eq_ok h
          -- the rest was clear after marking `a`, so it was clear before and is not `a`
          have hrest : ∀ a' ∈ rest, s.is_committed a'.reference = .ok false ∧
              a'.reference ≠ a.reference := fun a' ha' =>
            is_committed_markCommitted_eq_false.mp (hfresh a' ha')
          refine ⟨by simp [hbuf], ?_, ?_, ?_, ?_, rb, rfl⟩
          · refine List.nodup_cons.mpr ⟨?_, hnd⟩
            intro hmem
            obtain ⟨a', ha', heq⟩ := List.mem_map.mp hmem
            exact (hrest a' ha').2 heq
          · intro a' ha'
            rcases List.mem_cons.mp ha' with rfl | ha'
            · exact hfalse
            · exact (hrest a' ha').1
          · intro r
            rw [hmarks r, Committed, Committed, committed_set_committed hset r]
            simp only [List.map_cons, List.mem_cons]
            tauto
          · rw [hget, get_block_markCommitted]
      · cases h

-- ================================================= the loop

/-- The invariant of the loop of `linearize_sub_dag`, over the state `s₀`
before the leader was marked. -/
structure LoopInv (s₀ : DagState) (gc_round : ℕ) (leader : Block)
    (s : DagState) (buffer to_commit : List Block) : Prop where
  traversal : Worklist.Inv (AncestorLink s₀ gc_round) (Committed s₀) leader.reference
    (Committed s) (to_commit.map Block.reference) (buffer.map Block.reference)
  fetched : ∀ b ∈ to_commit ++ buffer, s₀.get_block b.reference = some b
  get_block : s.get_block = s₀.get_block
  frame : ∃ rb, s = { s₀ with recent_blocks := rb }

/-- One pop keeps the invariant. -/
theorem LoopInv.step {s₀ : DagState} {gc_round : ℕ} {leader : Block} {s s' : DagState}
    {x : Block} {rest to_commit ancestors buffer' : List Block} {refs : List BlockRef}
    {msg : String} (hinv : LoopInv s₀ gc_round leader s (x :: rest) to_commit)
    (h₁ : uncommittedAncestors s gc_round x.ancestors = .ok refs)
    (h₂ : expectAll msg (s.get_blocks refs) = .ok ancestors)
    (h₃ : pushAncestors s rest ancestors = .ok (s', buffer')) :
    LoopInv s₀ gc_round leader s' buffer' (to_commit ++ [x]) := by
  obtain ⟨hbuf, hnd, -, hmarks, hget, rb, hs'⟩ := pushAncestors_eq_ok h₃
  obtain ⟨hfalse, hrefs⟩ := uncommittedAncestors_eq_ok h₁
  have hcached : ∀ r ∈ refs, s.is_committed r = .ok false ∧ r.round ≠ 0 := fun r hr =>
    ⟨hfalse r hr, by have := ((hrefs r).mp hr).2.1; omega⟩
  obtain ⟨hmap, hfetch⟩ := get_blocks_of_cached hcached (eq_map_some_of_expectAll h₂)
  have hx : s₀.get_block x.reference = some x := hinv.fetched x (by simp)
  have hns : ∀ y, y ∈ refs ↔ AncestorLink s₀ gc_round x.reference y ∧ ¬ Committed s y := by
    intro y
    rw [ancestorLink_of_get_block hx, hrefs y, and_assoc]
  refine ⟨?_, ?_, ?_, ?_⟩
  · have hV' : ∀ y, Committed s' y ↔ Committed s y ∨ y ∈ refs := fun y => by
      rw [hmarks y, hmap]
    have hstep := hinv.traversal.step hns (hmap ▸ hnd) hV'
    rw [hbuf, List.map_append, List.map_append, List.map_reverse, hmap]
    simpa using hstep
  · intro b hb
    rw [hbuf] at hb
    simp only [List.mem_append, List.mem_singleton, List.mem_reverse] at hb
    rcases hb with (hb | rfl) | hb | hb
    · exact hinv.fetched b (by simp [hb])
    · exact hx
    · rw [← hinv.get_block]
      exact hfetch b hb
    · exact hinv.fetched b (by simp [hb])
  · rw [hget, hinv.get_block]
  · obtain ⟨rb₀, rfl⟩ := hinv.frame
    exact ⟨rb, hs'⟩

/-- A run of the loop that ends keeps the invariant to its end. -/
theorem linearizeLoop_inv {s₀ : DagState} {gc_round : ℕ} {leader : Block} :
    ∀ {s : DagState} {buffer to_commit : List Block} {s' : DagState} {out : List Block},
      linearizeLoop gc_round s buffer to_commit = .ok (s', out) →
      LoopInv s₀ gc_round leader s buffer to_commit → LoopInv s₀ gc_round leader s' [] out := by
  intro s buffer to_commit
  induction s, buffer, to_commit using linearizeLoop.induct gc_round with
  | case1 s to_commit =>
      intro s' out h hinv
      rw [linearizeLoop_nil, Except.ok.injEq, Prod.mk.injEq] at h
      obtain ⟨rfl, rfl⟩ := h
      exact hinv
  | case2 s to_commit x rest e h₁ =>
      intro s' out h _
      simp [linearizeLoop_cons, h₁] at h
  | case3 s to_commit x rest refs h₁ e h₂ =>
      intro s' out h _
      simp [linearizeLoop_cons, h₁, h₂] at h
  | case4 s to_commit x rest refs h₁ ancestors h₂ e h₃ =>
      intro s' out h _
      simp [linearizeLoop_cons, h₁, h₂, h₃] at h
  | case5 s to_commit x rest refs h₁ ancestors h₂ s₁ buffer₁ h₃ ih =>
      intro s' out h hinv
      simp only [linearizeLoop_cons, h₁, h₂, h₃] at h
      exact ih h (hinv.step h₁ h₂ h₃)

/-- The loop changes the cache only. -/
theorem linearizeLoop_frame {gc_round : ℕ} :
    ∀ {s : DagState} {buffer to_commit : List Block} {s' : DagState} {out : List Block},
      linearizeLoop gc_round s buffer to_commit = .ok (s', out) →
      ∃ rb, s' = { s with recent_blocks := rb } := by
  intro s buffer to_commit
  induction s, buffer, to_commit using linearizeLoop.induct gc_round with
  | case1 s to_commit =>
      intro s' out h
      rw [linearizeLoop_nil, Except.ok.injEq, Prod.mk.injEq] at h
      obtain ⟨rfl, rfl⟩ := h
      exact ⟨s.recent_blocks, rfl⟩
  | case2 s to_commit x rest e h₁ =>
      intro s' out h
      simp [linearizeLoop_cons, h₁] at h
  | case3 s to_commit x rest refs h₁ e h₂ =>
      intro s' out h
      simp [linearizeLoop_cons, h₁, h₂] at h
  | case4 s to_commit x rest refs h₁ ancestors h₂ e h₃ =>
      intro s' out h
      simp [linearizeLoop_cons, h₁, h₂, h₃] at h
  | case5 s to_commit x rest refs h₁ ancestors h₂ s₁ buffer₁ h₃ ih =>
      intro s' out h
      simp only [linearizeLoop_cons, h₁, h₂, h₃] at h
      obtain ⟨rb, rfl⟩ := ih h
      obtain ⟨-, -, -, -, -, rb₁, rfl⟩ := pushAncestors_eq_ok h₃
      exact ⟨rb, rfl⟩

-- ================================================= the sub-dag

/-- `sort_sub_dag_blocks` sorts by round, then author. -/
theorem sort_sub_dag_blocks_sorted (blocks : List Block) :
    (sort_sub_dag_blocks blocks).Pairwise RoundAuthorLe := by
  have h : (sort_sub_dag_blocks blocks).Pairwise fun a b =>
      decide (a.round < b.round ∨ (a.round = b.round ∧ a.author ≤ b.author)) = true :=
    List.pairwise_mergeSort
      (fun a b c hab hbc => by simp only [decide_eq_true_eq] at hab hbc ⊢; omega)
      (fun a b => by simp only [Bool.or_eq_true, decide_eq_true_eq]; omega) blocks
  exact h.imp fun hab => by simpa [RoundAuthorLe] using hab

/-- `linearize_sub_dag` changes the cache only. -/
theorem linearize_sub_dag_frame {leader : Block} {s s' : DagState} {to_commit : List Block}
    (h : linearize_sub_dag leader s = .ok (to_commit, s')) :
    ∃ rb, s' = { s with recent_blocks := rb } := by
  unfold linearize_sub_dag at h
  dsimp only at h
  split at h
  · cases h
  · cases h
  · next s₁ hset =>
      split at h
      · cases h
      · next s₂ out hloop =>
          split at h
          · simp only [Except.ok.injEq, Prod.mk.injEq] at h
            obtain ⟨-, rfl⟩ := h
            obtain ⟨-, rfl⟩ := set_committed_fresh hset
            obtain ⟨rb, rfl⟩ := linearizeLoop_frame hloop
            exact ⟨rb, rfl⟩
          · cases h

/-- What one call of `linearize_sub_dag` does, for a leader the state
holds. -/
theorem linearize_sub_dag_spec {leader : Block} {s s' : DagState} {to_commit : List Block}
    (h : linearize_sub_dag leader s = .ok (to_commit, s'))
    (hleader : s.get_block leader.reference = some leader) (hbelow : AncestorsBelow s) :
    SubDagSpec s s.gc_round (Committed s) leader to_commit ∧
      (∀ r, Committed s' r ↔ Committed s r ∨ r ∈ to_commit.map Block.reference) ∧
      s'.get_block = s.get_block ∧ ∃ rb, s' = { s with recent_blocks := rb } := by
  unfold linearize_sub_dag at h
  dsimp only at h
  split at h
  · cases h
  · cases h
  · next s₁ hset =>
      split at h
      · cases h
      · next s₂ out hloop =>
          split at h
          · next hall =>
              simp only [Except.ok.injEq, Prod.mk.injEq] at h
              obtain ⟨rfl, rfl⟩ := h
              obtain ⟨hfalse, rfl⟩ := set_committed_fresh hset
              have hinit : LoopInv s s.gc_round leader (s.markCommitted leader.reference)
                  [leader] [] := by
                refine ⟨Worklist.Inv.init (fun y => ?_) ?_, ?_, ?_, ⟨_, rfl⟩⟩
                · exact committed_set_committed hset y
                · simp [Committed, hfalse]
                · simpa using hleader
                · exact get_block_markCommitted s _
              have hend := linearizeLoop_inv hloop hinit
              have hperm := List.mergeSort_perm out fun a b =>
                decide (a.round < b.round ∨ (a.round = b.round ∧ a.author ≤ b.author))
              have hmem : ∀ b, b ∈ sort_sub_dag_blocks out ↔ b ∈ out := fun b => hperm.mem_iff
              have hall' : ∀ b ∈ out, s.gc_round < b.round := by simpa using hall
              have hfetched : ∀ b ∈ out, s.get_block b.reference = some b := fun b hb =>
                hend.fetched b (by simp [hb])
              -- the references the loop recorded are the reachable ones
              have hdone := hend.traversal.done_iff
              refine ⟨⟨fun b => ?_, ?_, ?_, ?_, ?_, sort_sub_dag_blocks_sorted out⟩, ?_, ?_, ?_⟩
              · rw [hmem]
                constructor
                · intro hb
                  exact ⟨hfetched b hb, (hdone _).mp (List.mem_map_of_mem hb)⟩
                · rintro ⟨hget, hreach⟩
                  obtain ⟨b', hb', href⟩ := List.mem_map.mp ((hdone _).mpr hreach)
                  have : some b' = some b := by rw [← hfetched b' hb', href, hget]
                  exact Option.some.inj this ▸ hb'
              · have hnd : (out.map Block.reference).Nodup := by
                  simpa using hend.traversal.nodup
                exact (hperm.map Block.reference).nodup_iff.mpr hnd
              · intro b hb
                exact hend.traversal.fresh b.reference
                  (by simpa using List.mem_map_of_mem ((hmem b).mp hb))
              · intro b hb
                exact hall' b ((hmem b).mp hb)
              · intro b hb
                have hreach := (hdone _).mp (List.mem_map_of_mem ((hmem b).mp hb))
                simpa using round_le_of_reach hbelow hreach
              · intro r
                rw [hend.traversal.marked r]
                simp [sort_sub_dag_blocks]
              · exact hend.get_block
              · exact hend.frame
          · cases h

end MysoCore.Consensus.Linearizer
