/-
`DagState::ancestors_at_round` (consensus/core/src/dag_state.rs): the
blocks of a round in the causal history of a later block, which the
commit rule asks for when it decides a leader from an anchor.

# The model

`linked` is the source's `BTreeSet<BlockRef>`, a `Finset` whose largest
member is `last()`. The source relies on the DAG to end the loop; the
model counts its pops with `fuel`, and running out of it is the error
`"out of fuel"`, which the source does not have. The range from
`BlockRef::new(earlier_round, AuthorityIndex::ZERO, BlockDigest::MIN)`
is the members of round `earlier_round` or above, smallest first.

# What it returns

The loop is a descending frontier exploration (`Frontier`) of the
ancestor links, stopping at the references at or below the round. Under
the round rule links go down in rounds, so a reference at the round is
reached through references above it as soon as it is reached at all
(`frontierReach_iff`), and the largest reference goes down at every pop,
which bounds the pops (`ancestorsLoop_spec`, by induction on the largest
reference). `ancestors_at_round_reach` puts it together: with the round
rule and every ancestor present, enough fuel gives the blocks at the
round reachable from the block, each once, in reference order.
-/
import MysoCore.Lib.Frontier
import MysoCore.Lib.SortedSet
import MysoCore.Consensus.Linearizer.Traversal

namespace MysoCore.Consensus.DagState

open Linearizer

/-- The loop of `ancestors_at_round`, with at most `fuel` pops. -/
def ancestorsLoop (s : DagState) (earlier_round : ℕ) (fuel : ℕ) (linked : Finset BlockRef) :
    Except String (Finset BlockRef) :=
  match linked.max with
  | ⊥ => .ok linked
  | (block_ref : BlockRef) =>
      -- stop after finishing the traversal for ancestors above the round
      if block_ref.round ≤ earlier_round then .ok linked
      else match fuel with
        | 0 => .error "out of fuel"
        | fuel + 1 =>
            match s.get_block block_ref with
            | none => .error "Block should exist in DAG!"
            | some block =>
                ancestorsLoop s earlier_round fuel (linked.erase block_ref ∪ block.ancestors.toFinset)

/-- `DagState::ancestors_at_round`. -/
def ancestors_at_round (s : DagState) (later_block : Block) (earlier_round : ℕ) (fuel : ℕ) :
    Except String (List Block) := do
  let linked ← s.ancestorsLoop earlier_round fuel later_block.ancestors.toFinset
  expectAll "Block should exist in DAG!"
    (s.get_blocks (SortedSet.ascending (linked.filter fun r => (⟨earlier_round, 0, 0⟩ : BlockRef) ≤ r)))

/-- The loop ends on an empty set. -/
theorem ancestorsLoop_of_max_eq_bot {s : DagState} {earlier_round fuel : ℕ} {linked : Finset BlockRef}
    (h : linked.max = ⊥) : s.ancestorsLoop earlier_round fuel linked = .ok linked := by
  rw [ancestorsLoop, h]

/-- The loop ends once the largest reference is at or below the round. -/
theorem ancestorsLoop_of_stop {s : DagState} {earlier_round fuel : ℕ} {linked : Finset BlockRef}
    {m : BlockRef} (h : linked.max = m) (hm : m.round ≤ earlier_round) :
    s.ancestorsLoop earlier_round fuel linked = .ok linked := by
  rw [ancestorsLoop, h]
  exact if_pos hm

/-- A pop replaces the largest reference by the ancestors of its block. -/
theorem ancestorsLoop_pop {s : DagState} {earlier_round fuel : ℕ} {linked : Finset BlockRef}
    {m : BlockRef} {b : Block} (h : linked.max = m) (hm : ¬ m.round ≤ earlier_round)
    (hb : s.get_block m = some b) :
    s.ancestorsLoop earlier_round (fuel + 1) linked =
      s.ancestorsLoop earlier_round fuel (linked.erase m ∪ b.ancestors.toFinset) := by
  rw [ancestorsLoop, h]
  simp only [if_neg hm, hb]

-- ============================================================ the links

/-- An ancestor link: from a reference the state returns a block for to
each ancestor of that block. -/
def Link (s : DagState) (r r' : BlockRef) : Prop := ∃ b, s.get_block r = some b ∧ r' ∈ b.ancestors

/-- The causal history of a block: its ancestors and what their links
reach. -/
def Reachable (s : DagState) (later_block : Block) (r : BlockRef) : Prop :=
  ∃ a ∈ later_block.ancestors, Relation.ReflTransGen (Link s) a r

/-- Every ancestor of a block the state returns is one it returns a
block for. -/
def AncestorsPresent (s : DagState) : Prop :=
  ∀ r b, s.get_block r = some b → ∀ a ∈ b.ancestors, ∃ b', s.get_block a = some b'

/-- The members of the range from the least reference of a round are
those at the round or above. -/
theorem least_le_iff (earlier_round : ℕ) (r : BlockRef) :
    (⟨earlier_round, 0, 0⟩ : BlockRef) ≤ r ↔ earlier_round ≤ r.round := by
  rw [BlockRef.le_iff_key]
  simp only [BlockRef.key, Prod.Lex.toLex_le_toLex]
  omega

/-- Every ancestor is present in a DAG state whose cached and genesis
blocks have their ancestors present and whose storage does too. -/
theorem ancestorsPresent_of_blocks {s : DagState}
    (hgenesis : ∀ b ∈ s.genesis, ∀ a ∈ b.ancestors, (s.get_block a).isSome)
    (hcache : ∀ bi ∈ s.recent_blocks, ∀ a ∈ bi.block.ancestors, (s.get_block a).isSome)
    (hstore : ∀ r b, s.store r = some b → ∀ a ∈ b.ancestors, (s.get_block a).isSome) :
    AncestorsPresent s := by
  intro r b h a ha
  have hsome : (s.get_block a).isSome := by
    unfold get_block at h
    split at h
    · exact hgenesis b (List.mem_of_find?_eq_some h) a ha
    · split at h
      · next bi hbi =>
          cases h
          exact hcache bi (List.mem_of_find?_eq_some hbi) a ha
      · exact hstore r b h a ha
  exact Option.isSome_iff_exists.mp hsome

section reach

variable {s : DagState} {later_block : Block} {earlier_round : ℕ}

/-- The exploration of `ancestors_at_round`: the ancestor links from the
block's ancestors, stopping at the references at or below the round. -/
abbrev Explored (s : DagState) (later_block : Block) (earlier_round : ℕ) (S P : Finset BlockRef) :
    Prop :=
  Frontier.Inv (Link s) (fun r => r.round ≤ earlier_round) later_block.ancestors.toFinset S P

/-- Along the links rounds go strictly down. -/
theorem round_lt_of_link (hbelow : AncestorsBelow s) {r r' : BlockRef} (h : Link s r r') :
    r'.round < r.round := by
  obtain ⟨b, hb, hmem⟩ := h
  exact hbelow r b hb r' hmem

/-- A path of links to a reference at the round or above passes through
references above the round only. -/
theorem edgePath_of_linkPath (hbelow : AncestorsBelow s) {a r : BlockRef}
    (hpath : Relation.ReflTransGen (Link s) a r) (hr : earlier_round ≤ r.round) :
    Relation.ReflTransGen (Frontier.Edge (Link s) fun r => r.round ≤ earlier_round) a r := by
  induction hpath with
  | refl => exact Relation.ReflTransGen.refl
  | tail _ hlink ih =>
      have hlt := round_lt_of_link hbelow hlink
      exact (ih (by omega)).tail ⟨hlink, by omega⟩

/-- At the round or above, what the exploration reaches is the causal
history. -/
theorem frontierReach_iff (hbelow : AncestorsBelow s) {r : BlockRef} (hr : earlier_round ≤ r.round) :
    Frontier.Reach (Link s) (fun r => r.round ≤ earlier_round) later_block.ancestors.toFinset r ↔
      Reachable s later_block r := by
  constructor
  · rintro ⟨a, ha, hpath⟩
    exact ⟨a, List.mem_toFinset.mp ha, Relation.ReflTransGen.mono (fun _ _ h => h.1) _ _ hpath⟩
  · rintro ⟨a, ha, hpath⟩
    exact ⟨a, List.mem_toFinset.mpr ha, edgePath_of_linkPath hbelow hpath hr⟩

/-- Everything the exploration reaches is present. -/
theorem present_of_frontierReach (hpresent : AncestorsPresent s)
    (hlater : ∀ a ∈ later_block.ancestors, ∃ b, s.get_block a = some b) {r : BlockRef}
    (h : Frontier.Reach (Link s) (fun r => r.round ≤ earlier_round) later_block.ancestors.toFinset r) :
    ∃ b, s.get_block r = some b := by
  obtain ⟨a, ha, hpath⟩ := h
  induction hpath with
  | refl => exact hlater a (List.mem_toFinset.mp ha)
  | tail _ hedge _ =>
      obtain ⟨⟨b, hb, hmem⟩, -⟩ := hedge
      exact hpresent _ b hb _ hmem

/-- The run of the loop, by induction on its largest reference: from any
explored frontier, enough fuel ends it on the references at or below the
round that the exploration reaches. -/
theorem ancestorsLoop_spec (hbelow : AncestorsBelow s) (hpresent : AncestorsPresent s)
    (hlater : ∀ a ∈ later_block.ancestors, ∃ b, s.get_block a = some b) :
    ∀ (w : WithBot BlockRef) (S P : Finset BlockRef), S.max = w →
      Explored s later_block earlier_round S P →
      ∃ N, ∀ fuel, N ≤ fuel → ∃ T, s.ancestorsLoop earlier_round fuel S = .ok T ∧
        ∀ r, r ∈ T ↔ r.round ≤ earlier_round ∧
          Frontier.Reach (Link s) (fun r => r.round ≤ earlier_round) later_block.ancestors.toFinset r := by
  intro w
  induction w using WellFoundedLT.induction with
  | _ w ih =>
      intro S P hw hinv
      -- the stopping rule is closed downwards, as rounds are monotone in the order
      have hdown : ∀ x y : BlockRef, y ≤ x → x.round ≤ earlier_round → y.round ≤ earlier_round :=
        fun x y hyx hx => le_trans (BlockRef.round_le_of_le hyx) hx
      cases w with
      | bot =>
          refine ⟨0, fun fuel _ => ⟨S, ancestorsLoop_of_max_eq_bot hw, hinv.mem_iff ?_⟩⟩
          intro y hy
          rw [Finset.max_eq_bot.mp hw] at hy
          cases hy
      | coe m =>
          by_cases hstop : m.round ≤ earlier_round
          · exact ⟨0, fun fuel _ => ⟨S, ancestorsLoop_of_stop hw hstop,
              hinv.mem_iff (Frontier.forall_stop_of_max hdown hw hstop)⟩⟩
          · have hm : m ∈ S := Finset.mem_of_max hw
            obtain ⟨b, hb⟩ := present_of_frontierReach hpresent hlater (hinv.reach m hm)
            have hN : ∀ y, y ∈ b.ancestors.toFinset ↔ Link s m y := by
              intro y
              simp [Link, hb]
            -- the ancestors lie below the popped reference, so the largest goes down
            have hlt : (S.erase m ∪ b.ancestors.toFinset).max < m :=
              Frontier.max_lt_of_expand hw fun y hy =>
                BlockRef.lt_of_round_lt (hbelow m b hb y (List.mem_toFinset.mp hy))
            obtain ⟨N, hrun⟩ := ih _ hlt _ _ rfl (hinv.step hm hstop hN)
            refine ⟨N + 1, fun fuel hfuel => ?_⟩
            obtain ⟨fuel, rfl⟩ : ∃ f, fuel = f + 1 := ⟨fuel - 1, by omega⟩
            rw [ancestorsLoop_pop hw hstop hb]
            exact hrun fuel (by omega)

end reach

/-- Blocks the state returns for every reference pass the unwrapping. -/
theorem expectAll_get_blocks {s : DagState} (msg : String) :
    ∀ {refs : List BlockRef}, (∀ r ∈ refs, ∃ b, s.get_block r = some b) →
      ∃ bs, expectAll msg (s.get_blocks refs) = .ok bs
  | [], _ => ⟨[], rfl⟩
  | r :: refs, h => by
      obtain ⟨b, hb⟩ := h r List.mem_cons_self
      obtain ⟨bs, hbs⟩ := expectAll_get_blocks msg fun r' hr' => h r' (List.mem_cons_of_mem r hr')
      refine ⟨b :: bs, ?_⟩
      simp only [get_blocks, List.map_cons] at hbs ⊢
      simp [expectAll, hb, hbs, Except.map]

/-- `ancestors_at_round` agrees with reachability: in a DAG state whose
blocks have their ancestors below them and present, from a block whose
ancestors are present, enough fuel gives the blocks of the references at
the round in the block's causal history, each once, in reference order. -/
theorem ancestors_at_round_reach (s : DagState) (later_block : Block) (earlier_round : ℕ)
    (hbelow : AncestorsBelow s) (hpresent : AncestorsPresent s)
    (hlater : ∀ a ∈ later_block.ancestors, ∃ b, s.get_block a = some b) :
    ∃ N, ∀ fuel, N ≤ fuel → ∃ refs blocks,
      s.ancestors_at_round later_block earlier_round fuel = .ok blocks ∧
      s.get_blocks refs = blocks.map some ∧ refs.Pairwise (· < ·) ∧
      ∀ r, r ∈ refs ↔ r.round = earlier_round ∧ Reachable s later_block r := by
  obtain ⟨N, hrun⟩ := ancestorsLoop_spec hbelow hpresent hlater _ _ _ rfl Frontier.Inv.init
  refine ⟨N, fun fuel hfuel => ?_⟩
  obtain ⟨T, hT, hmem⟩ := hrun fuel hfuel
  set refs := SortedSet.ascending (T.filter fun r => (⟨earlier_round, 0, 0⟩ : BlockRef) ≤ r)
  have hrefs : ∀ r, r ∈ refs ↔ r.round = earlier_round ∧ Reachable s later_block r := by
    intro r
    simp only [refs, SortedSet.mem_ascending, Finset.mem_filter, least_le_iff, hmem]
    constructor
    · rintro ⟨⟨hle, hreach⟩, hge⟩
      exact ⟨by omega, (frontierReach_iff hbelow hge).mp hreach⟩
    · rintro ⟨hr, hreach⟩
      exact ⟨⟨hr.le, (frontierReach_iff hbelow hr.ge).mpr hreach⟩, hr.ge⟩
  -- every reference of the range is reached, hence present
  have hpres : ∀ r ∈ refs, ∃ b, s.get_block r = some b := by
    intro r hr
    simp only [refs, SortedSet.mem_ascending, Finset.mem_filter, hmem] at hr
    exact present_of_frontierReach hpresent hlater hr.1.2
  obtain ⟨blocks, hblocks⟩ := expectAll_get_blocks "Block should exist in DAG!" hpres
  refine ⟨refs, blocks, ?_, eq_map_some_of_expectAll hblocks, SortedSet.pairwise_lt_ascending _, hrefs⟩
  simp only [ancestors_at_round, hT, bind, Except.bind]
  exact hblocks

/-- Three rounds: a genesis block, a block over it in the cache, and
nothing in storage. -/
def threeRounds : DagState :=
  ⟨[⟨0, 0, 0, 0, 0, [], [], []⟩], [⟨⟨0, 1, 0, 1, 0, [⟨0, 0, 0⟩], [], []⟩, false, false⟩],
    fun _ => none, none, [], 0⟩

/-- From a round-two block over the cached one, the genesis block is
all there is at round zero. -/
example : threeRounds.ancestors_at_round ⟨0, 2, 0, 2, 0, [⟨1, 0, 1⟩], [], []⟩ 0 1 =
    .ok [⟨0, 0, 0, 0, 0, [], [], []⟩] := by decide

/-- The three rounds meet the round rule and have every ancestor
present. -/
theorem ancestors_at_round_three_rounds :
    ∃ N, ∀ fuel, N ≤ fuel → ∃ refs blocks,
      threeRounds.ancestors_at_round ⟨0, 2, 0, 2, 0, [⟨1, 0, 1⟩], [], []⟩ 0 fuel = .ok blocks ∧
      threeRounds.get_blocks refs = blocks.map some ∧ refs.Pairwise (· < ·) ∧
      ∀ r, r ∈ refs ↔ r.round = 0 ∧ Reachable threeRounds ⟨0, 2, 0, 2, 0, [⟨1, 0, 1⟩], [], []⟩ r :=
  ancestors_at_round_reach threeRounds _ 0
    (ancestorsBelow_of_blocks (by decide) (by decide) (by simp [threeRounds]))
    (ancestorsPresent_of_blocks (by decide) (by decide) (by simp [threeRounds]))
    (fun a ha => ⟨_, by simp only [List.mem_singleton] at ha; subst ha; rfl⟩)

end MysoCore.Consensus.DagState
