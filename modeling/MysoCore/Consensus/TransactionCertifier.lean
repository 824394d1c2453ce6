/-
The transaction certifier (consensus/core/src/transaction_certifier.rs):
the fast path that certifies a block once a quorum of the next round's
blocks link it, each of its transactions with reject votes being either
rejected by a quorum or accepted by a quorum net of its rejections.

# The model

`CertifierState` holds the `VoteInfo` of every block it has heard of,
by reference (a `BTreeMap`, here its entries in key order), and the GC
round, with the committee its aggregators count against. Reject votes
arrive with the blocks that cast them (`add_voted_block`), possibly
before the voted block itself; accept votes are implicit: a block of the
next round that links the voted block accepts it, counted once the
linking block is a parent of this authority's own proposal
(`add_proposed_block`). `update_gc_round` drops the entries at or below
the GC round from the front of the map. Metrics and logging are left
out, as is the wrapper's assertion that the certifier's GC round trails
the DAG's.

A run of the certifier is a sequence of `CertifierOp`s; it outputs the
certified blocks in the order the operations emit them.
-/
import MysoCore.Consensus.Block
import MysoCore.Consensus.StakeAggregator
import MysoCore.Lib.SortedMap

namespace MysoCore.Consensus

open SortedMap

/-- `CertifiedBlock`: a certified block and the indices of its rejected
transactions. -/
structure CertifiedBlock where
  block : Block
  rejected : List ℕ
  deriving DecidableEq

/-- `VoteInfo`: the content of a block once received, this authority's
own reject votes on it, the authorities that accept it, the reject
votes on each of its transactions, and whether it was certified. -/
structure VoteInfo where
  block : Option Block
  own_reject_txn_votes : List ℕ
  accept_block_votes : StakeAggregator QuorumThreshold
  reject_txn_votes : List (ℕ × StakeAggregator QuorumThreshold)
  is_certified : Bool

namespace VoteInfo

/-- `VoteInfo::default`. -/
def default : VoteInfo := ⟨none, [], StakeAggregator.new, [], false⟩

/-- The loop of `take_certified_output` over the transactions with reject
votes, in index order: those with a quorum of reject votes are rejected,
and the block is not certified if another one lacks a quorum of accept
votes net of its reject votes. -/
def certifiedRejects (committee : Committee) (accept_block_votes : StakeAggregator QuorumThreshold) :
    List (ℕ × StakeAggregator QuorumThreshold) → Option (List ℕ)
  | [] => some []
  | (idx, reject_txn_votes) :: rest =>
      if reject_txn_votes.reached_threshold committee then
        (certifiedRejects committee accept_block_votes rest).map (idx :: ·)
      else if accept_block_votes.stake - reject_txn_votes.stake < committee.quorum_threshold then
        none
      else certifiedRejects committee accept_block_votes rest

/-- `VoteInfo::take_certified_output`. -/
def take_certified_output (self : VoteInfo) (committee : Committee) :
    VoteInfo × Option CertifiedBlock :=
  if self.is_certified then (self, none)
  else
    match self.block with
    | none => (self, none)
    | some block =>
        if self.accept_block_votes.reached_threshold committee = false then (self, none)
        else
          match certifiedRejects committee self.accept_block_votes self.reject_txn_votes with
          | none => (self, none)
          | some rejected => ({ self with is_certified := true }, some ⟨block, rejected⟩)

/-- The reject votes of one block's author on transactions of one voted
block: `entry(reject).or_default().add_unique(author)` for each. -/
def addRejects (author : ℕ) (committee : Committee) (rejects : List ℕ) (self : VoteInfo) :
    VoteInfo :=
  rejects.foldl (fun vote_info reject =>
    { vote_info with
      reject_txn_votes := alter reject
        (fun agg => ((agg.getD StakeAggregator.new).add_unique author committee).1)
        vote_info.reject_txn_votes }) self

end VoteInfo

-- ============================================================ the state

/-- `CertifierState`: the vote information by block, and the GC round. -/
structure CertifierState where
  committee : Committee
  votes : List (BlockRef × VoteInfo)
  gc_round : ℕ

namespace CertifierState

/-- `CertifierState::new`, at the genesis round. -/
def new (committee : Committee) : CertifierState := ⟨committee, [], 0⟩

/-- The vote information of a block. -/
def getVote (self : CertifierState) (block_ref : BlockRef) : Option VoteInfo :=
  lookup block_ref self.votes

/-- `votes.entry(block_ref).or_default()`, read. -/
def voteOrDefault (self : CertifierState) (block_ref : BlockRef) : VoteInfo :=
  (self.getVote block_ref).getD VoteInfo.default

/-- The vote information of a block, written back. -/
def setVote (self : CertifierState) (block_ref : BlockRef) (vote_info : VoteInfo) :
    CertifierState :=
  { self with votes := alter block_ref (fun _ => vote_info) self.votes }

-- ============================================================ reject votes

/-- One entry of a voted block's transaction votes in `add_voted_block`:
unless the block voted on is at or below the GC round, its entry takes
the author's reject votes and is certified if it now can be. -/
def addBlockVotes (author : ℕ) (acc : CertifierState × List CertifiedBlock)
    (block_votes : BlockTransactionVotes) : CertifierState × List CertifiedBlock :=
  let self := acc.1
  if block_votes.block_ref.round ≤ self.gc_round then acc
  else
    let vote_info := (self.voteOrDefault block_votes.block_ref).addRejects author self.committee
      block_votes.rejects
    let r := vote_info.take_certified_output self.committee
    (self.setVote block_votes.block_ref r.1, acc.2 ++ r.2.toList)

/-- `CertifierState::add_voted_block`. -/
def add_voted_block (self : CertifierState) (voted_block : Block)
    (reject_txn_votes : List ℕ) : CertifierState × List CertifiedBlock :=
  if voted_block.round ≤ self.gc_round then (self, [])
  else
    let vote_info := self.voteOrDefault voted_block.reference
    if vote_info.block.isSome then (self, [])
    else
      let self := self.setVote voted_block.reference
        { vote_info with
          block := some voted_block
          own_reject_txn_votes := reject_txn_votes }
      voted_block.transaction_votes.foldl (addBlockVotes voted_block.author) (self, [])

/-- `CertifierState::add_voted_blocks`. -/
def add_voted_blocks (self : CertifierState) (voted_blocks : List (Block × List ℕ)) :
    CertifierState × List CertifiedBlock :=
  voted_blocks.foldl (fun acc vb =>
    let r := acc.1.add_voted_block vb.1 vb.2
    (r.1, acc.2 ++ r.2)) (self, [])

-- ============================================================ accept votes

/-- One parent of a voting block in `add_proposed_block`: a target one
round below it, if known, takes the voting block's author as an accept
vote and is certified if it now can be. -/
def acceptVote (voting_block : Block) (acc : CertifierState × List CertifiedBlock)
    (target_ancestor : BlockRef) : CertifierState × List CertifiedBlock :=
  let self := acc.1
  if target_ancestor.round + 1 ≠ voting_block.round then acc
  else
    match self.getVote target_ancestor with
    | none => acc
    | some target_vote_info =>
        let target_vote_info := { target_vote_info with
          accept_block_votes :=
            (target_vote_info.accept_block_votes.add_unique voting_block.author self.committee).1 }
        let r := target_vote_info.take_certified_output self.committee
        (self.setVote target_ancestor r.1, acc.2 ++ r.2.toList)

/-- One parent of the proposed block in `add_proposed_block`: a voting
block one round below it, if received, votes on its own parents. -/
def acceptVotesOf (proposed_round : ℕ) (acc : CertifierState × List CertifiedBlock)
    (voting_ancestor : BlockRef) : CertifierState × List CertifiedBlock :=
  if voting_ancestor.round + 1 ≠ proposed_round then acc
  else
    match acc.1.getVote voting_ancestor with
    | none => acc
    | some voting_info =>
        match voting_info.block with
        | none => acc
        | some voting_block => voting_block.ancestors.foldl (acceptVote voting_block) acc

/-- `CertifierState::add_proposed_block`. -/
def add_proposed_block (self : CertifierState) (proposed_block : Block) :
    CertifierState × List CertifiedBlock :=
  if proposed_block.round ≤ self.gc_round + 2 then (self, [])
  else if (self.getVote proposed_block.reference).isNone then (self, [])
  else proposed_block.ancestors.foldl (acceptVotesOf proposed_block.round) (self, [])

-- ============================================================ GC and reads

/-- `CertifierState::update_gc_round`: pop the first entry while it is at
or below the GC round. -/
def update_gc_round (self : CertifierState) (gc_round : ℕ) : CertifierState :=
  { self with
    gc_round := gc_round
    votes := self.votes.dropWhile fun e => decide (e.1.round ≤ gc_round) }

/-- `TransactionCertifier::get_reject_votes`: the reject stake on each
transaction of a block with reject votes. -/
def get_reject_votes (self : CertifierState) (block_ref : BlockRef) :
    Option (List (ℕ × ℕ)) :=
  (self.getVote block_ref).map fun vote_info =>
    vote_info.reject_txn_votes.map fun e => (e.1, e.2.stake)

/-- `TransactionCertifier::get_own_votes`: this authority's reject votes
on the blocks above the GC round, for the blocks that have some. -/
def get_own_votes (self : CertifierState) (block_refs : List BlockRef) :
    Except String (List BlockTransactionVotes) :=
  block_refs.foldlM (fun votes block_ref =>
    if block_ref.round ≤ self.gc_round then .ok votes
    else
      match self.getVote block_ref with
      | none => .error "Ancestor block not found in certifier state"
      | some vote_info =>
          .ok (if vote_info.own_reject_txn_votes ≠ [] then
            votes ++ [⟨block_ref, vote_info.own_reject_txn_votes⟩] else votes)) []

end CertifierState

-- ============================================================ runs

/-- The calls a certifier receives: voted blocks with this authority's
reject votes on them, its own proposed blocks, and GC rounds. -/
inductive CertifierOp
  | voted (voted_blocks : List (Block × List ℕ))
  | proposed (proposed_block : Block)
  | gc (gc_round : ℕ)
  deriving DecidableEq

namespace CertifierOp

/-- The blocks an operation gives the certifier to store. -/
def votedBlocks : CertifierOp → List Block
  | voted voted_blocks => voted_blocks.map Prod.fst
  | proposed _ => []
  | gc _ => []

/-- The GC rounds of a sequence of operations, in order. -/
def gcRounds (ops : List CertifierOp) : List ℕ :=
  ops.filterMap fun
    | gc r => some r
    | _ => none

end CertifierOp

namespace CertifierState

/-- One operation. -/
def apply (self : CertifierState) : CertifierOp → CertifierState × List CertifiedBlock
  | .voted voted_blocks => self.add_voted_blocks voted_blocks
  | .proposed proposed_block => self.add_proposed_block proposed_block
  | .gc gc_round => (self.update_gc_round gc_round, [])

/-- A run: the operations one after another, and the certified blocks
they output, in order. -/
def run (self : CertifierState) : List CertifierOp → CertifierState × List CertifiedBlock
  | [] => (self, [])
  | op :: ops =>
      let r := self.apply op
      let r' := r.1.run ops
      (r'.1, r.2 ++ r'.2)

end CertifierState

end MysoCore.Consensus
