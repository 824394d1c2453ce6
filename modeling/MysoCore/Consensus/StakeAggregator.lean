/-
The stake aggregator (consensus/core/src/stake_aggregator.rs): the set of
authorities that voted for something and their stake, against one of the
committee's thresholds.

# The run invariant

An aggregator only grows its vote set, and adds an authority's stake
exactly when the authority is new to the set. So after any run of `add`
and `add_unique` calls its stake is the stake of its vote set, reduced
once modulo `2 ^ 64` (`Counted`, preserved by both operations). A
repeated vote is counted once because it changes nothing.

When the committee's stakes sum below `2 ^ 64`, no vote set weighs more
than the total, the reduction is the identity, and two aggregators that
both reached the quorum share a validity's worth of voters
(`stake_inter_ge_validity`): the quorum-intersection step of every
counting argument of the commit rule.
-/
import MysoCore.Consensus.Committee

namespace MysoCore.Consensus

open Quorum Word

-- ============================================================ thresholds

/-- `CommitteeThreshold`: the threshold an aggregator compares against. -/
class CommitteeThreshold (T : Type) where
  is_threshold : Committee → ℕ → Bool
  threshold : Committee → ℕ

/-- `QuorumThreshold`: 2f+1. -/
structure QuorumThreshold

/-- `ValidityThreshold`: f+1. -/
structure ValidityThreshold

instance : CommitteeThreshold QuorumThreshold where
  is_threshold c s := c.reached_quorum s
  threshold c := c.quorum_threshold

instance : CommitteeThreshold ValidityThreshold where
  is_threshold c s := c.reached_validity s
  threshold c := c.validity_threshold

-- ============================================================ aggregator

/-- `StakeAggregator<T>`: the authorities counted so far (a `BTreeSet`) and
their stake. -/
structure StakeAggregator (T : Type) where
  votes : Finset ℕ
  stake : ℕ
  deriving DecidableEq

namespace StakeAggregator

variable {T : Type}

/-- `StakeAggregator::new`. -/
def new : StakeAggregator T := ⟨∅, 0⟩

/-- The aggregator after counting `vote`: the set insertion of the source
returns whether the vote is new, and only a new vote adds stake. -/
def count (self : StakeAggregator T) (vote : ℕ) (committee : Committee) :
    StakeAggregator T :=
  if vote ∈ self.votes then self
  else { votes := insert vote self.votes,
         stake := wrappingAdd 64 self.stake (committee.stake vote) }

/-- `StakeAggregator::add_unique`: count the vote, then report whether it
was new. -/
def add_unique (self : StakeAggregator T) (vote : ℕ) (committee : Committee) :
    StakeAggregator T × Bool :=
  (self.count vote committee, decide (vote ∉ self.votes))

/-- `StakeAggregator::clear`. -/
def clear (_self : StakeAggregator T) : StakeAggregator T := ⟨∅, 0⟩

section Threshold

variable [CommitteeThreshold T]

/-- `StakeAggregator::add`: count the vote, then report whether the
threshold is reached. -/
def add (self : StakeAggregator T) (vote : ℕ) (committee : Committee) :
    StakeAggregator T × Bool :=
  let self := self.count vote committee
  (self, @CommitteeThreshold.is_threshold T _ committee self.stake)

/-- `StakeAggregator::reached_threshold`. -/
def reached_threshold (self : StakeAggregator T) (committee : Committee) : Bool :=
  @CommitteeThreshold.is_threshold T _ committee self.stake

/-- `StakeAggregator::threshold`. -/
def threshold (_self : StakeAggregator T) (committee : Committee) : ℕ :=
  @CommitteeThreshold.threshold T _ committee

/-- A run: the votes fed one after another through `add`. -/
def addAll (self : StakeAggregator T) (committee : Committee) : List ℕ → StakeAggregator T
  | [] => self
  | v :: vs => (self.add v committee).1.addAll committee vs

@[simp] theorem add_fst (self : StakeAggregator T) (vote : ℕ) (c : Committee) :
    (self.add vote c).1 = self.count vote c := rfl

/-- What `add` reports is the threshold test on the aggregator it returns. -/
@[simp] theorem add_snd (self : StakeAggregator T) (vote : ℕ) (c : Committee) :
    (self.add vote c).2 = (self.count vote c).reached_threshold c := rfl

@[simp] theorem addAll_nil (self : StakeAggregator T) (c : Committee) :
    self.addAll c [] = self := rfl

@[simp] theorem addAll_cons (self : StakeAggregator T) (c : Committee) (v : ℕ)
    (vs : List ℕ) : self.addAll c (v :: vs) = (self.count v c).addAll c vs := rfl

end Threshold

-- ================================================================ spec

@[simp] theorem add_unique_fst (self : StakeAggregator T) (vote : ℕ) (c : Committee) :
    (self.add_unique vote c).1 = self.count vote c := rfl

@[simp] theorem count_votes (self : StakeAggregator T) (vote : ℕ) (c : Committee) :
    (self.count vote c).votes = insert vote self.votes := by
  unfold count
  split
  · next h => exact (Finset.insert_eq_of_mem h).symm
  · rfl

/-- A run collects exactly the distinct votes fed to it. -/
theorem addAll_votes [CommitteeThreshold T] (self : StakeAggregator T) (c : Committee)
    (vs : List ℕ) : (self.addAll c vs).votes = self.votes ∪ vs.toFinset := by
  induction vs generalizing self with
  | nil => simp
  | cons v vs ih =>
      rw [addAll_cons, ih, count_votes, List.toFinset_cons]
      ext a
      simp only [Finset.mem_union, Finset.mem_insert]
      tauto

/-- A run from a fresh aggregator collects the distinct votes. -/
theorem addAll_new_votes [CommitteeThreshold T] (c : Committee) (vs : List ℕ) :
    ((new : StakeAggregator T).addAll c vs).votes = vs.toFinset := by
  rw [addAll_votes]
  simp [new]

/-- A quorum aggregator reports the threshold exactly at 2f+1 stake. -/
@[simp] theorem reached_threshold_quorum (self : StakeAggregator QuorumThreshold)
    (c : Committee) : self.reached_threshold c = true ↔ c.quorum_threshold ≤ self.stake := by
  simp [reached_threshold, CommitteeThreshold.is_threshold]

-- ===================================================== the run invariant

/-- `Counted`: the stake is the vote set's, reduced once modulo `2 ^ 64`. -/
def Counted (c : Committee) (self : StakeAggregator T) : Prop :=
  self.stake = c.stakeOf self.votes % 2 ^ 64

theorem counted_new (c : Committee) : Counted c (new : StakeAggregator T) := by
  simp [Counted, new, Committee.stakeOf]

theorem counted_clear (c : Committee) (self : StakeAggregator T) : Counted c self.clear := by
  simp [Counted, clear, Committee.stakeOf]

/-- One count keeps the stake the vote set's: the new voter's stake is
added to a sum already reduced, and reducing twice is reducing once. -/
theorem counted_count {c : Committee} {self : StakeAggregator T} (vote : ℕ)
    (h : Counted c self) : Counted c (self.count vote c) := by
  unfold count
  split
  · exact h
  · next hnew =>
      unfold Counted at h ⊢
      simp only [Committee.stakeOf] at h ⊢
      rw [weight_insert c.stake hnew, h]
      unfold wrappingAdd
      rw [Nat.mod_add_mod, Nat.add_comm]

/-- A whole run keeps the stake the vote set's. -/
theorem counted_addAll [CommitteeThreshold T] {c : Committee} {self : StakeAggregator T}
    (vs : List ℕ) (h : Counted c self) : Counted c (self.addAll c vs) := by
  induction vs generalizing self with
  | nil => exact h
  | cons v vs ih => exact ih (counted_count v h)

-- ============================================== quorum intersection

section NoOverflow

variable {epoch : ℕ} {authorities : List Authority} {c : Committee}
  (hc : Committee.new epoch authorities = some c)
  (hsum : (authorities.map Authority.stake).sum < 2 ^ 64)
include hc hsum

/-- No vote set weighs more than the whole committee. -/
theorem stakeOf_le_total (s : Finset ℕ) : c.stakeOf s ≤ c.total_stake := by
  rw [← Committee.stakeOf_indices_of_new hc hsum]
  have hin := weight_inter_of_zero_outside c.stake (c.stake_zero_outside s)
  unfold Committee.stakeOf
  rw [← hin]
  exact weight_mono c.stake Finset.inter_subset_right

/-- Without overflow the aggregated stake is exactly the vote set's. -/
theorem stake_eq_of_counted {self : StakeAggregator T} (h : Counted c self) :
    self.stake = c.stakeOf self.votes := by
  have hle := stakeOf_le_total hc hsum self.votes
  have htot : c.total_stake < 2 ^ 64 := by
    obtain ⟨-, -, hT, -⟩ := Committee.new_eq_some hc
    rw [hT]
    exact Nat.mod_lt _ (Nat.two_pow_pos 64)
  rw [h, Nat.mod_eq_of_lt (by omega)]

/-- Two vote sets that each reach the quorum share stake of at least the
validity threshold. -/
theorem stakeOf_inter_ge_validity {s t : Finset ℕ}
    (hs : c.quorum_threshold ≤ c.stakeOf s) (ht : c.quorum_threshold ≤ c.stakeOf t) :
    c.validity_threshold ≤ c.stakeOf (s ∩ t) := by
  have hinter := weight_inter_ge c.stake (c.stake_zero_outside s) (c.stake_zero_outside t)
  have huniv := Committee.stakeOf_indices_of_new hc hsum
  have hqq := Committee.quorum_add_quorum (Committee.built_of_new hc)
  unfold Committee.stakeOf at hs ht huniv
  unfold Committee.stakeOf
  omega

/-- A run from a fresh aggregator holds the stake of its distinct voters. -/
theorem addAll_new_stake [CommitteeThreshold T] (vs : List ℕ) :
    ((new : StakeAggregator T).addAll c vs).stake = c.stakeOf vs.toFinset := by
  have hcount : Counted c ((new : StakeAggregator T).addAll c vs) :=
    counted_addAll vs (counted_new c)
  rw [stake_eq_of_counted hc hsum hcount, addAll_new_votes]

end NoOverflow

-- ======================================================== the contract

/-- **Quorum intersection through the aggregator.** `Committee::new`
succeeds, its intersection assertion included, whenever its `u64`
arithmetic does not overflow; and for every committee it builds from
stakes summing below `2 ^ 64`, two quorum aggregators fed any vote
sequences each hold the stake of their distinct voters, and when both
reach the threshold their voters in common hold at least the validity
threshold `f + 1`. -/
theorem aggregated_quorums_intersect :
    (∀ (epoch : ℕ) (authorities : List Authority), authorities ≠ [] →
      authorities.length < 2 ^ 32 - 1 →
      0 < (authorities.map Authority.stake).sum →
      (authorities.map Authority.stake).sum < 2 ^ 64 →
      2 * ((authorities.map Authority.stake).sum -
        ((authorities.map Authority.stake).sum - 1) / 3) < 2 ^ 64 →
      (Committee.new epoch authorities).isSome) ∧
    (∀ (epoch : ℕ) (authorities : List Authority) (c : Committee),
      Committee.new epoch authorities = some c →
      (authorities.map Authority.stake).sum < 2 ^ 64 →
      ∀ votes₁ votes₂ : List ℕ,
        ((new : StakeAggregator QuorumThreshold).addAll c votes₁).stake =
            c.stakeOf votes₁.toFinset ∧
        ((new : StakeAggregator QuorumThreshold).addAll c votes₂).stake =
            c.stakeOf votes₂.toFinset ∧
        (((new : StakeAggregator QuorumThreshold).addAll c votes₁).reached_threshold c = true →
          ((new : StakeAggregator QuorumThreshold).addAll c votes₂).reached_threshold c = true →
          c.validity_threshold ≤ c.stakeOf
            (((new : StakeAggregator QuorumThreshold).addAll c votes₁).votes ∩
              ((new : StakeAggregator QuorumThreshold).addAll c votes₂).votes))) := by
  refine ⟨fun epoch authorities hne hlen hpos hsum hdouble =>
    Committee.new_isSome hne hlen hpos hsum hdouble, ?_⟩
  intro epoch authorities c hc hsum votes₁ votes₂
  have h₁ : ((new : StakeAggregator QuorumThreshold).addAll c votes₁).stake =
      c.stakeOf votes₁.toFinset := addAll_new_stake hc hsum votes₁
  have h₂ : ((new : StakeAggregator QuorumThreshold).addAll c votes₂).stake =
      c.stakeOf votes₂.toFinset := addAll_new_stake hc hsum votes₂
  refine ⟨h₁, h₂, fun hr₁ hr₂ => ?_⟩
  -- both runs reached the quorum on the stake of their distinct voters
  rw [reached_threshold_quorum, h₁] at hr₁
  rw [reached_threshold_quorum, h₂] at hr₂
  rw [addAll_new_votes, addAll_new_votes]
  exact stakeOf_inter_ge_validity hc hsum hr₁ hr₂

/-- Four authorities of stake one: the quorum is three, and voters
`0, 1, 2` and `1, 2, 3` share two, the validity threshold. -/
theorem aggregated_quorums_four_authorities :
    (Committee.new 0 [⟨1⟩, ⟨1⟩, ⟨1⟩, ⟨1⟩]).isSome ∧
    (⟨0, 4, 3, 2, [⟨1⟩, ⟨1⟩, ⟨1⟩, ⟨1⟩]⟩ : Committee).validity_threshold ≤
      (⟨0, 4, 3, 2, [⟨1⟩, ⟨1⟩, ⟨1⟩, ⟨1⟩]⟩ : Committee).stakeOf
        (((new : StakeAggregator QuorumThreshold).addAll
            ⟨0, 4, 3, 2, [⟨1⟩, ⟨1⟩, ⟨1⟩, ⟨1⟩]⟩ [0, 1, 2]).votes ∩
          ((new : StakeAggregator QuorumThreshold).addAll
            ⟨0, 4, 3, 2, [⟨1⟩, ⟨1⟩, ⟨1⟩, ⟨1⟩]⟩ [1, 2, 3]).votes) :=
  ⟨aggregated_quorums_intersect.1 0 _ (by decide) (by decide) (by decide) (by decide) (by decide),
    (aggregated_quorums_intersect.2 0 [⟨1⟩, ⟨1⟩, ⟨1⟩, ⟨1⟩] _ (by decide) (by decide)
      [0, 1, 2] [1, 2, 3]).2.2
      (by decide) (by decide)⟩

/-- Without the overflow bounds both halves fail. A single authority of
stake `2 ^ 64 - 1` doubles the quorum past `2 ^ 64` and the intersection
assertion of `Committee::new` fires; stakes `2 ^ 63, 2 ^ 63, 1` wrap to a
total of one, `new` accepts them, and two aggregators reach the quorum on
disjoint voters. -/
theorem aggregated_quorums_overflow :
    Committee.new 0 [⟨2 ^ 64 - 1⟩] = none ∧
    Committee.new 0 [⟨2 ^ 63⟩, ⟨2 ^ 63⟩, ⟨1⟩] = some ⟨0, 1, 1, 1, [⟨2 ^ 63⟩, ⟨2 ^ 63⟩, ⟨1⟩]⟩ ∧
    ((new : StakeAggregator QuorumThreshold).addAll
        ⟨0, 1, 1, 1, [⟨2 ^ 63⟩, ⟨2 ^ 63⟩, ⟨1⟩]⟩ [0]).reached_threshold
        ⟨0, 1, 1, 1, [⟨2 ^ 63⟩, ⟨2 ^ 63⟩, ⟨1⟩]⟩ = true ∧
    ((new : StakeAggregator QuorumThreshold).addAll
        ⟨0, 1, 1, 1, [⟨2 ^ 63⟩, ⟨2 ^ 63⟩, ⟨1⟩]⟩ [2]).reached_threshold
        ⟨0, 1, 1, 1, [⟨2 ^ 63⟩, ⟨2 ^ 63⟩, ⟨1⟩]⟩ = true ∧
    ((new : StakeAggregator QuorumThreshold).addAll
        ⟨0, 1, 1, 1, [⟨2 ^ 63⟩, ⟨2 ^ 63⟩, ⟨1⟩]⟩ [0]).votes ∩
      ((new : StakeAggregator QuorumThreshold).addAll
        ⟨0, 1, 1, 1, [⟨2 ^ 63⟩, ⟨2 ^ 63⟩, ⟨1⟩]⟩ [2]).votes = ∅ := by
  refine ⟨by decide, by decide, by decide, by decide, by decide⟩

end StakeAggregator

end MysoCore.Consensus
