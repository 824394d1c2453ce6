/-
The threshold clock (consensus/core/src/threshold_clock.rs): the round a
node proposes in, advanced once a quorum of blocks of the current round
has been accepted.

# The model

`add_block` is the source's three-way comparison of the block's round
with the clock's. The instant of the last quorum and the delay metrics
are not modelled: nothing the round depends on reads them. A run is the
fold of `add_block` over the accepted blocks.

# What an advance is worth

A block of a later round moves the clock to that round, or past it when
its author alone holds a quorum, and in both cases leaves that author's
vote in the aggregator. Within a round the aggregator counts the authors
of the round's blocks, so when a block of the clock's round completes a
quorum the voters are those authors and, possibly, that one carried
vote of the round before (`Tracked.Inv`, `equal_advance_quorum`). With
no authority holding a quorum by itself nothing is ever carried and the
advance is backed by a quorum of the round's own blocks
(`equal_advance_quorum_of_no_dominant`). A committee where one authority
does hold a quorum is where the carried vote counts twice: its block of
round `r` moves the clock to `r + 1`, and any block of round `r + 1`
then moves it to `r + 2` (`threshold_clock_advances_without_quorum`).
-/
import MysoCore.Consensus.Block
import MysoCore.Consensus.StakeAggregator

namespace MysoCore.Consensus

open Quorum

/-- `ThresholdClock`: the quorum aggregator of the current round and the
round. -/
structure ThresholdClock where
  aggregator : StakeAggregator QuorumThreshold
  round : ℕ

namespace ThresholdClock

/-- `ThresholdClock::new`. -/
def new (round : ℕ) : ThresholdClock := ⟨StakeAggregator.new, round⟩

/-- `ThresholdClock::add_block`: the clock after the block, and whether
its round advanced. -/
def add_block (committee : Committee) (self : ThresholdClock) (block : BlockRef) :
    ThresholdClock × Bool :=
  if block.round < self.round then (self, false)
  else if block.round = self.round then
    if (self.aggregator.add block.author committee).2 then
      (⟨(self.aggregator.add block.author committee).1.clear, block.round + 1⟩, true)
    else (⟨(self.aggregator.add block.author committee).1, self.round⟩, false)
  else
    -- a block of a later round: a quorum of the round before it exists
    (⟨(self.aggregator.clear.add block.author committee).1,
      if (self.aggregator.clear.add block.author committee).2 then block.round + 1 else block.round⟩,
     true)

/-- Blocks added one after another. -/
def run (committee : Committee) (self : ThresholdClock) (blocks : List BlockRef) : ThresholdClock :=
  blocks.foldl (fun k b => (k.add_block committee b).1) self

variable {c : Committee} {k : ThresholdClock} {b : BlockRef}

-- ============================================================ the round

/-- A block of an older round changes nothing. -/
theorem add_block_of_lt (h : b.round < k.round) : k.add_block c b = (k, false) := by
  simp [add_block, h]

/-- A block of the clock's round is counted, and completes the round
when the aggregator reaches the quorum. -/
theorem add_block_of_eq (h : b.round = k.round) :
    k.add_block c b =
      if (k.aggregator.count b.author c).reached_threshold c then
        (⟨(k.aggregator.count b.author c).clear, b.round + 1⟩, true)
      else (⟨k.aggregator.count b.author c, k.round⟩, false) := by
  simp [add_block, h]

/-- A block of a later round restarts the aggregator with its vote and
moves the clock to its round, or past it on a quorum. -/
theorem add_block_of_gt (h : k.round < b.round) :
    k.add_block c b =
      (⟨(StakeAggregator.new : StakeAggregator QuorumThreshold).count b.author c,
        if ((StakeAggregator.new : StakeAggregator QuorumThreshold).count b.author c).reached_threshold c
        then b.round + 1 else b.round⟩, true) := by
  have hlt : ¬ b.round < k.round := by omega
  have hne : b.round ≠ k.round := by omega
  simp only [add_block, hlt, hne, if_false, StakeAggregator.add_fst, StakeAggregator.add_snd]
  rfl

/-- The round never goes back. -/
theorem round_le_add_block : k.round ≤ (k.add_block c b).1.round := by
  rcases lt_trichotomy b.round k.round with h | h | h
  · rw [add_block_of_lt h]
  · rw [add_block_of_eq h]
    split
    · show k.round ≤ b.round + 1
      omega
    · exact le_refl _
  · rw [add_block_of_gt h]
    show k.round ≤ if _ then b.round + 1 else b.round
    split
    · exact Nat.le_succ_of_le (le_of_lt h)
    · exact le_of_lt h

/-- Over a whole run the round never goes back. -/
theorem round_le_run (blocks : List BlockRef) : k.round ≤ (k.run c blocks).round := by
  induction blocks generalizing k with
  | nil => exact le_refl _
  | cons b blocks ih => exact le_trans round_le_add_block ih

-- ============================================================ tracked runs

/-- The authors of the blocks of round `r` among `blocks`. -/
def authorsAt (r : ℕ) (blocks : List BlockRef) : Finset ℕ :=
  ((blocks.filter fun b => b.round = r).map BlockRef.author).toFinset

theorem mem_authorsAt {r v : ℕ} {blocks : List BlockRef} :
    v ∈ authorsAt r blocks ↔ ∃ b ∈ blocks, b.round = r ∧ b.author = v := by
  simp [authorsAt, and_assoc]

/-- A clock with the history of its round: the block that moved it into
the round and the blocks added since, that one included. -/
structure Tracked where
  clock : ThresholdClock
  entry : Option BlockRef
  since : List BlockRef

/-- A clock that has seen nothing yet. -/
def Tracked.init (round : ℕ) : Tracked := ⟨new round, none, []⟩

/-- One block added to a tracked clock: a new round starts a new history. -/
def Tracked.add (committee : Committee) (t : Tracked) (block : BlockRef) : Tracked :=
  if (t.clock.add_block committee block).1.round = t.clock.round then
    ⟨(t.clock.add_block committee block).1, t.entry, t.since ++ [block]⟩
  else ⟨(t.clock.add_block committee block).1, some block, [block]⟩

/-- Blocks added to a tracked clock one after another. -/
def Tracked.run (committee : Committee) (t : Tracked) (blocks : List BlockRef) : Tracked :=
  blocks.foldl (Tracked.add committee) t

/-- The vote of the block that moved the clock past its own round, its
author holding a quorum alone. -/
def Carried (c : Committee) (t : Tracked) (v : ℕ) : Prop :=
  ∃ b, t.entry = some b ∧ b.author = v ∧ b.round + 1 = t.clock.round ∧ c.quorum_threshold ≤ c.stake v

/-- What the aggregator holds: the authors of the round's blocks since
the clock entered it, and at most the carried vote; its stake is its
voters'. -/
structure Tracked.Inv (c : Committee) (t : Tracked) : Prop where
  votes : ∀ v ∈ t.clock.aggregator.votes, v ∈ authorsAt t.clock.round t.since ∨ Carried c t v
  counted : StakeAggregator.Counted c t.clock.aggregator

theorem Tracked.Inv.init (c : Committee) (round : ℕ) : (Tracked.init round).Inv c where
  votes v hv := by simp [Tracked.init, new, StakeAggregator.new] at hv
  counted := StakeAggregator.counted_new c

/-- A vote counted against a quorum it reached alone holds a quorum. -/
theorem quorum_le_stake_of_single {v : ℕ}
    (h : ((StakeAggregator.new : StakeAggregator QuorumThreshold).count v c).reached_threshold c = true) :
    c.quorum_threshold ≤ c.stake v := by
  rw [StakeAggregator.reached_threshold_quorum] at h
  have hc : StakeAggregator.Counted c ((StakeAggregator.new : StakeAggregator QuorumThreshold).count v c) :=
    StakeAggregator.counted_count v (StakeAggregator.counted_new c)
  unfold StakeAggregator.Counted at hc
  rw [hc, StakeAggregator.count_votes] at h
  have hw : c.stakeOf (insert v (StakeAggregator.new : StakeAggregator QuorumThreshold).votes) = c.stake v := by
    simp [Committee.stakeOf, StakeAggregator.new, weight]
  rw [hw] at h
  exact le_trans h (Nat.mod_le _ _)

/-- A vote of the history stays one when the history grows. -/
theorem mem_authorsAt_append {r v : ℕ} {blocks : List BlockRef} (more : List BlockRef)
    (h : v ∈ authorsAt r blocks) : v ∈ authorsAt r (blocks ++ more) := by
  obtain ⟨b, hb, hbr, hba⟩ := mem_authorsAt.mp h
  exact mem_authorsAt.mpr ⟨b, List.mem_append_left _ hb, hbr, hba⟩

/-- One block keeps the invariant, in each of the three branches. -/
theorem Tracked.Inv.add {t : Tracked} (h : t.Inv c) (block : BlockRef) :
    (t.add c block).Inv c := by
  unfold Tracked.add
  rcases lt_trichotomy block.round t.clock.round with hlt | heq | hgt
  · -- an old block changes nothing but the history
    rw [add_block_of_lt hlt, if_pos rfl]
    refine ⟨fun v hv => (h.votes v hv).imp (mem_authorsAt_append _) id, h.counted⟩
  · rw [add_block_of_eq heq]
    by_cases hreach : (t.clock.aggregator.count block.author c).reached_threshold c = true
    · -- the quorum is complete: a new, empty round
      rw [if_pos hreach]
      have hne : block.round + 1 ≠ t.clock.round := by omega
      rw [if_neg hne]
      exact ⟨fun v hv => by simp [StakeAggregator.clear] at hv,
        StakeAggregator.counted_clear c (t.clock.aggregator.count block.author c)⟩
    · -- one more vote of the round
      rw [if_neg hreach, if_pos rfl]
      refine ⟨fun v hv => ?_, StakeAggregator.counted_count _ h.counted⟩
      rw [StakeAggregator.count_votes, Finset.mem_insert] at hv
      rcases hv with rfl | hv
      · exact Or.inl (mem_authorsAt.mpr ⟨block, List.mem_append_right _ List.mem_cons_self, heq, rfl⟩)
      · exact (h.votes v hv).imp (mem_authorsAt_append _) id
  · -- a later round: the aggregator restarts with this block's vote
    rw [add_block_of_gt hgt]
    have hne : (if ((StakeAggregator.new : StakeAggregator QuorumThreshold).count block.author c).reached_threshold c
        then block.round + 1 else block.round) ≠ t.clock.round := by
      split <;> omega
    rw [if_neg hne]
    refine ⟨fun v hv => ?_, StakeAggregator.counted_count _ (StakeAggregator.counted_new c)⟩
    rw [StakeAggregator.count_votes] at hv
    have hv : v = block.author := by simpa [StakeAggregator.new] using hv
    subst hv
    dsimp only
    split
    · next hr => exact Or.inr ⟨block, rfl, rfl, rfl, quorum_le_stake_of_single hr⟩
    · exact Or.inl (mem_authorsAt.mpr ⟨block, List.mem_singleton_self _, rfl, rfl⟩)

/-- Every tracked run keeps the invariant. -/
theorem Tracked.Inv.run {t : Tracked} (h : t.Inv c) (blocks : List BlockRef) :
    (t.run c blocks).Inv c := by
  induction blocks generalizing t with
  | nil => exact h
  | cons b blocks ih => exact ih (h.add b)

/-- The tracked run follows the clock's own run. -/
theorem Tracked.run_clock (t : Tracked) (blocks : List BlockRef) :
    (t.run c blocks).clock = t.clock.run c blocks := by
  induction blocks generalizing t with
  | nil => rfl
  | cons b blocks ih =>
      show ((t.add c b).run c blocks).clock = (t.clock.add_block c b).1.run c blocks
      rw [ih]
      unfold Tracked.add
      split <;> rfl

-- ============================================================ advances

/-- When a block of the clock's round completes the quorum, the voters
are the authors of the round's blocks since the clock entered it and at
most one carried authority holding a quorum alone. -/
theorem equal_advance_quorum {t : Tracked} (h : t.Inv c) (heq : block.round = t.clock.round)
    (hadv : (t.clock.add_block c block).2 = true) :
    ∃ carried : Finset ℕ, (carried = ∅ ∨ ∃ v, carried = {v} ∧ c.quorum_threshold ≤ c.stake v) ∧
      c.quorum_threshold ≤ c.stakeOf (authorsAt block.round (t.since ++ [block]) ∪ carried) := by
  classical
  have hreach : (t.clock.aggregator.count block.author c).reached_threshold c = true := by
    rw [add_block_of_eq heq] at hadv
    split at hadv
    · assumption
    · cases hadv
  rw [StakeAggregator.reached_threshold_quorum] at hreach
  have hcounted := StakeAggregator.counted_count block.author h.counted
  unfold StakeAggregator.Counted at hcounted
  -- the voters sit inside the round's authors and the carried vote
  let carried : Finset ℕ := t.clock.aggregator.votes.filter fun v => Carried c t v
  have hsub : (t.clock.aggregator.count block.author c).votes ⊆
      authorsAt block.round (t.since ++ [block]) ∪ carried := by
    intro v hv
    rw [StakeAggregator.count_votes, Finset.mem_insert] at hv
    rw [Finset.mem_union]
    rcases hv with rfl | hv
    · exact Or.inl (mem_authorsAt.mpr ⟨block, List.mem_append_right _ List.mem_cons_self, rfl, rfl⟩)
    · rcases h.votes v hv with hv' | hv'
      · exact Or.inl (mem_authorsAt_append _ (heq ▸ hv'))
      · exact Or.inr (Finset.mem_filter.mpr ⟨hv, hv'⟩)
  refine ⟨carried, ?_, ?_⟩
  · -- a carried vote is the entry block's author, so there is at most one
    by_cases hc : carried = ∅
    · exact Or.inl hc
    · obtain ⟨v, hv⟩ := Finset.nonempty_iff_ne_empty.mpr hc
      obtain ⟨-, b, hb, hba, -, hq⟩ := Finset.mem_filter.mp hv
      refine Or.inr ⟨v, ?_, hq⟩
      ext u
      rw [Finset.mem_singleton]
      constructor
      · intro hu
        obtain ⟨-, b', hb', hb'a, -⟩ := Finset.mem_filter.mp hu
        rw [hb] at hb'
        cases hb'
        rw [← hb'a, hba]
      · rintro rfl
        exact hv
  · calc c.quorum_threshold ≤ c.stakeOf (t.clock.aggregator.count block.author c).votes % 2 ^ 64 :=
          hcounted ▸ hreach
      _ ≤ c.stakeOf (t.clock.aggregator.count block.author c).votes := Nat.mod_le _ _
      _ ≤ c.stakeOf (authorsAt block.round (t.since ++ [block]) ∪ carried) :=
          weight_mono c.stake hsub

/-- With no authority holding a quorum alone, an advance through a block
of the clock's round is backed by a quorum of that round's blocks added
since the clock entered it. -/
theorem equal_advance_quorum_of_no_dominant {t : Tracked} (h : t.Inv c)
    (hsmall : ∀ v, c.stake v < c.quorum_threshold) (heq : block.round = t.clock.round)
    (hadv : (t.clock.add_block c block).2 = true) :
    c.quorum_threshold ≤ c.stakeOf (authorsAt block.round (t.since ++ [block])) := by
  obtain ⟨carried, hcarried, hq⟩ := equal_advance_quorum h heq hadv
  rcases hcarried with rfl | ⟨v, -, hv⟩
  · simpa using hq
  · exact absurd hv (Nat.not_le.mpr (hsmall v))

/-- Four authorities of stake one: after two blocks of round 0 a third
moves the clock on, and its three authors hold the quorum. -/
theorem four_equal_advance_quorum :
    Committee.new 0 [⟨1⟩, ⟨1⟩, ⟨1⟩, ⟨1⟩] = some ⟨0, 4, 3, 2, [⟨1⟩, ⟨1⟩, ⟨1⟩, ⟨1⟩]⟩ ∧
    ((Tracked.init 0).run ⟨0, 4, 3, 2, [⟨1⟩, ⟨1⟩, ⟨1⟩, ⟨1⟩]⟩ [⟨0, 0, 0⟩, ⟨0, 1, 0⟩]).clock.round = 0 ∧
    (((Tracked.init 0).run ⟨0, 4, 3, 2, [⟨1⟩, ⟨1⟩, ⟨1⟩, ⟨1⟩]⟩ [⟨0, 0, 0⟩, ⟨0, 1, 0⟩]).clock.add_block
        ⟨0, 4, 3, 2, [⟨1⟩, ⟨1⟩, ⟨1⟩, ⟨1⟩]⟩ ⟨0, 2, 0⟩).2 = true ∧
    (⟨0, 4, 3, 2, [⟨1⟩, ⟨1⟩, ⟨1⟩, ⟨1⟩]⟩ : Committee).quorum_threshold ≤
      (⟨0, 4, 3, 2, [⟨1⟩, ⟨1⟩, ⟨1⟩, ⟨1⟩]⟩ : Committee).stakeOf (authorsAt 0
        (((Tracked.init 0).run ⟨0, 4, 3, 2, [⟨1⟩, ⟨1⟩, ⟨1⟩, ⟨1⟩]⟩ [⟨0, 0, 0⟩, ⟨0, 1, 0⟩]).since ++
          [⟨0, 2, 0⟩])) := by
  -- no authority of four of stake one holds the quorum of three alone
  have hsmall : ∀ v, (⟨0, 4, 3, 2, [⟨1⟩, ⟨1⟩, ⟨1⟩, ⟨1⟩]⟩ : Committee).stake v <
      (⟨0, 4, 3, 2, [⟨1⟩, ⟨1⟩, ⟨1⟩, ⟨1⟩]⟩ : Committee).quorum_threshold := by
    intro v
    match v with
    | 0 | 1 | 2 | 3 => decide
    | v + 4 =>
      have hnone : ([⟨1⟩, ⟨1⟩, ⟨1⟩, ⟨1⟩] : List Authority)[v + 4]? = none := by simp
      simp only [Committee.stake, List.getElem!_eq_getElem?_getD, hnone, Option.getD_none]
      decide
  have hround : ((Tracked.init 0).run ⟨0, 4, 3, 2, [⟨1⟩, ⟨1⟩, ⟨1⟩, ⟨1⟩]⟩
      [⟨0, 0, 0⟩, ⟨0, 1, 0⟩]).clock.round = 0 := by decide
  have hadv : (((Tracked.init 0).run ⟨0, 4, 3, 2, [⟨1⟩, ⟨1⟩, ⟨1⟩, ⟨1⟩]⟩
      [⟨0, 0, 0⟩, ⟨0, 1, 0⟩]).clock.add_block ⟨0, 4, 3, 2, [⟨1⟩, ⟨1⟩, ⟨1⟩, ⟨1⟩]⟩ ⟨0, 2, 0⟩).2 = true := by
    decide
  exact ⟨by decide, hround, hadv, equal_advance_quorum_of_no_dominant
    ((Tracked.Inv.init _ 0).run _) hsmall hround.symm hadv⟩

/-- A committee where authority 0 holds a quorum alone: its block of
round 1 moves the clock from round 0 to round 2, and a block of round 2
by authority 1 alone then completes the quorum of round 2 and moves the
clock to round 3, though the only author of a round-2 block since the
clock entered that round holds stake 1 of the quorum 3. -/
theorem threshold_clock_advances_without_quorum :
    Committee.new 0 [⟨3⟩, ⟨1⟩] = some ⟨0, 4, 3, 2, [⟨3⟩, ⟨1⟩]⟩ ∧
    ((Tracked.init 0).run ⟨0, 4, 3, 2, [⟨3⟩, ⟨1⟩]⟩ [⟨1, 0, 0⟩]).clock.round = 2 ∧
    (((Tracked.init 0).run ⟨0, 4, 3, 2, [⟨3⟩, ⟨1⟩]⟩ [⟨1, 0, 0⟩]).clock.add_block
        ⟨0, 4, 3, 2, [⟨3⟩, ⟨1⟩]⟩ ⟨2, 1, 0⟩).1.round = 3 ∧
    (((Tracked.init 0).run ⟨0, 4, 3, 2, [⟨3⟩, ⟨1⟩]⟩ [⟨1, 0, 0⟩]).clock.add_block
        ⟨0, 4, 3, 2, [⟨3⟩, ⟨1⟩]⟩ ⟨2, 1, 0⟩).2 = true ∧
    (⟨0, 4, 3, 2, [⟨3⟩, ⟨1⟩]⟩ : Committee).stakeOf (authorsAt 2
      (((Tracked.init 0).run ⟨0, 4, 3, 2, [⟨3⟩, ⟨1⟩]⟩ [⟨1, 0, 0⟩]).since ++ [⟨2, 1, 0⟩])) = 1 ∧
    1 < (⟨0, 4, 3, 2, [⟨3⟩, ⟨1⟩]⟩ : Committee).quorum_threshold := by
  refine ⟨by decide, by decide, by decide, by decide, by decide, by decide⟩

end ThresholdClock

end MysoCore.Consensus
