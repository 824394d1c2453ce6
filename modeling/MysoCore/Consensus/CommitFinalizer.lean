/-
The commit finalizer (consensus/core/src/commit_finalizer.rs): commits
from the linearizer wait in a queue until every transaction of their
blocks is finalized or rejected, and leave it from the front with the
rejected transactions of each block recorded.

# The model

`CommitFinalizer` holds the queue of `CommitState`s and the map of
`BlockState`s the indirect rules traverse, with what it reads of its
context: the committee, the GC depth that `DagState::calculate_gc_round`
subtracts, and the reject votes the transaction certifier has aggregated
(`get_reject_votes`, a function of the block; the certifier is modelled in
its own right elsewhere). The source's `BTreeMap`s are lists of entries
in key order (`SortedMap.alter`, `SortedMap.lookup`), its sets of
transaction indices and of block references `Finset`s, and the set of
blocks to visit a sorted list, so that `pop_first` is its head. A panic is
an `Except.error` carrying the fixed part of its message.

Two loops of the source are run on fuel. The walk along first ancestors
in `append_origin_descendants_from_last_commit` moves to a lower round at
each step (a verified block's first ancestor is its author's earlier
block) and stops at a block outside the map, so it takes at most as many
steps as the map has blocks. The traversal of
`try_indirect_finalize_pending_transactions_in_block` adds only unvisited
blocks to the set it pops from, so each pop visits a new block of the map
(a block outside it panics). Both run on the map's size plus one, and a
run out of fuel panics; `process_commit`'s loop over the queue's front
pops a commit in every round it continues and runs on the queue's length.
-/
import MysoCore.Consensus.Linearizer
import MysoCore.Consensus.BaseCommitter
import MysoCore.Consensus.StakeAggregator
import MysoCore.Lib.SortedMap
import MysoCore.Lib.ExceptFold
import MysoCore.Lib.SortedSet

namespace MysoCore.Consensus

open SortedMap SortedSet

/-- `INDIRECT_REJECT_DEPTH`. -/
def INDIRECT_REJECT_DEPTH : ℕ := 3

-- ============================================================ commit states

/-- `CommitState`: a queued commit, the transaction counts of its blocks
until direct finalization has run, the transactions still pending
indirect finalization, and those rejected, per block. -/
structure CommitState where
  commit : CommittedSubDag
  pending_blocks : List (BlockRef × ℕ)
  pending_transactions : List (BlockRef × Finset ℕ)
  rejected_transactions : List (BlockRef × Finset ℕ)
  deriving DecidableEq

namespace CommitState

/-- The transaction count of every block of a commit, by reference. -/
def pendingBlocksOf (commit : CommittedSubDag) : List (BlockRef × ℕ) :=
  commit.blocks.foldl (fun m b => alter b.reference (fun _ => b.transactions.length) m) []

/-- `CommitState::new`. -/
def new (commit : CommittedSubDag) : Except String CommitState :=
  let pending_blocks := pendingBlocksOf commit
  if pending_blocks = [] then .error "assertion failed: !pending_blocks.is_empty()"
  else .ok ⟨commit, pending_blocks, [], []⟩

/-- `CommitState::remove_pending_transactions`. -/
def remove_pending_transactions (self : CommitState) (block_ref : BlockRef)
    (transactions : List ℕ) : CommitState :=
  match lookup block_ref self.pending_transactions with
  | none => self
  | some block_pending_txns =>
      let block_pending_txns := block_pending_txns \ transactions.toFinset
      if block_pending_txns = ∅ then
        { self with pending_transactions := eraseKey block_ref self.pending_transactions }
      else
        { self with
          pending_transactions := alter block_ref (fun _ => block_pending_txns)
            self.pending_transactions }

/-- The commit a finalized state leaves the queue as: its rejected
transactions recorded per block, in index order. -/
def finalize (self : CommitState) : CommittedSubDag :=
  self.rejected_transactions.foldl (fun commit e =>
    { commit with
      rejected_transactions_by_block := alter e.1 (fun _ => ascending e.2)
        commit.rejected_transactions_by_block }) self.commit

end CommitState

-- ============================================================ block states

/-- `BlockState`: a block of a queued commit, the blocks linking to it,
its reject votes per voted block, the later blocks of its author, and the
index of its commit. -/
structure BlockState where
  block : Block
  children : Finset BlockRef
  reject_votes : List (BlockRef × Finset ℕ)
  origin_descendants : List BlockRef
  commit_index : ℕ
  deriving DecidableEq

/-- `BlockState::new`. -/
def BlockState.new (block : Block) (commit_index : ℕ) : BlockState where
  block := block
  children := ∅
  reject_votes := block.transaction_votes.foldl
    (fun m v => alter v.block_ref (fun _ => v.rejects.toFinset) m) []
  origin_descendants := []
  commit_index := commit_index

-- ============================================================ the finalizer

/-- `CommitFinalizer`: the queue of commits and the map of their blocks,
with the committee, the GC depth and the certifier's reject votes. -/
structure CommitFinalizer where
  committee : Committee
  gc_depth : ℕ
  get_reject_votes : BlockRef → Option (List (ℕ × ℕ))
  last_processed_commit : Option ℕ
  pending_commits : List CommitState
  blocks : List (BlockRef × BlockState)

namespace CommitFinalizer

/-- `CommitFinalizer::new`. -/
def new (committee : Committee) (gc_depth : ℕ)
    (get_reject_votes : BlockRef → Option (List (ℕ × ℕ))) : CommitFinalizer :=
  ⟨committee, gc_depth, get_reject_votes, none, [], []⟩

/-- `DagState::calculate_gc_round`. -/
def calculate_gc_round (self : CommitFinalizer) (commit_round : ℕ) : ℕ :=
  commit_round - self.gc_depth

-- ============================================================ direct finalization

/-- One block of `try_direct_finalize_commit`: all its transactions
pending when it may be outside the GC bound of the voters, and otherwise
each transaction with reject votes pending, or rejected at a quorum. -/
def directFinalizeBlock (self : CommitFinalizer) (vote_gc_round : ℕ)
    (commit_state : CommitState) (entry : BlockRef × ℕ) : Except String CommitState :=
  let block_ref := entry.1
  let num_transactions := entry.2
  if block_ref.round ≤ vote_gc_round ∧ num_transactions > 0 then
    .ok { commit_state with
      pending_transactions := alter block_ref (fun s => s.getD ∅ ∪ Finset.range num_transactions)
        commit_state.pending_transactions }
  else
    match self.get_reject_votes block_ref with
    | none => .error "No vote info found. It is either incorrectly gced or failed to be recovered"
    | some reject_votes =>
        .ok (reject_votes.foldl (fun commit_state vote =>
          if vote.2 < self.committee.quorum_threshold then
            { commit_state with
              pending_transactions := alter block_ref (fun s => insert vote.1 (s.getD ∅))
                commit_state.pending_transactions }
          else
            { commit_state with
              rejected_transactions := alter block_ref (fun s => insert vote.1 (s.getD ∅))
                commit_state.rejected_transactions }) commit_state)

/-- `CommitFinalizer::try_direct_finalize_commit`. -/
def try_direct_finalize_commit (self : CommitFinalizer) (index : ℕ) :
    Except String CommitFinalizer :=
  match self.pending_commits[index]? with
  | none => .error "Commit does not exist."
  | some commit_state =>
      let vote_gc_round :=
        self.calculate_gc_round (commit_state.commit.leader.round + INDIRECT_REJECT_DEPTH)
      if commit_state.pending_blocks = [] then
        .error "assertion failed: !commit_state.pending_blocks.is_empty()"
      else
        match commit_state.pending_blocks.foldlM (self.directFinalizeBlock vote_gc_round)
            { commit_state with pending_blocks := [] } with
        | .error e => .error e
        | .ok commit_state =>
            .ok { self with pending_commits := self.pending_commits.set index commit_state }

/-- The direct finalization loop of `process_commit` over the indices of
the queue: a commit already finalized directly is passed over, and a
remote commit less than a wave below the newest one stops the loop. -/
def directLoop (self : CommitFinalizer) : List ℕ → Except String CommitFinalizer
  | [] => .ok self
  | i :: is =>
      match self.pending_commits[i]?, self.pending_commits.getLast? with
      | some commit_state, some last_commit_state =>
          if commit_state.pending_blocks = [] then self.directLoop is
          else if commit_state.commit.decided_with_local_blocks = false ∧
              commit_state.commit.leader.round + DEFAULT_WAVE_LENGTH >
                last_commit_state.commit.leader.round then .ok self
          else
            match self.try_direct_finalize_commit i with
            | .error e => .error e
            | .ok self => self.directLoop is
      | _, _ => .error "index out of bounds"

/-- The loop of `pop_finalized_commits` over the queue: finalized commits
leave from the front, and their blocks leave the map. -/
def popFinalized (blocks : List (BlockRef × BlockState)) :
    List CommitState → List CommitState × List (BlockRef × BlockState) × List CommittedSubDag
  | [] => ([], blocks, [])
  | commit_state :: rest =>
      if commit_state.pending_blocks ≠ [] ∨ commit_state.pending_transactions ≠ [] then
        (commit_state :: rest, blocks, [])
      else
        let commit := commit_state.finalize
        let blocks := commit.blocks.foldl (fun m b => eraseKey b.reference m) blocks
        let r := popFinalized blocks rest
        (r.1, r.2.1, commit :: r.2.2)

/-- `CommitFinalizer::pop_finalized_commits`. -/
def pop_finalized_commits (self : CommitFinalizer) : CommitFinalizer × List CommittedSubDag :=
  let r := popFinalized self.blocks self.pending_commits
  ({ self with pending_commits := r.1, blocks := r.2.1 }, r.2.2)

-- ============================================================ linking the newest commit

/-- One block of `link_blocks_in_last_commit`: linked from the ancestors
in the map, then given a state unless it has one. -/
def linkBlock (commit_index : ℕ) (blocks : List (BlockRef × BlockState)) (block : Block) :
    List (BlockRef × BlockState) :=
  let block_ref := block.reference
  let blocks := block.ancestors.foldl (fun blocks ancestor =>
    match lookup ancestor blocks with
    | none => blocks
    | some ancestor_block =>
        alter ancestor (fun _ => { ancestor_block with
          children := insert block_ref ancestor_block.children }) blocks) blocks
  match lookup block_ref blocks with
  | some _ => blocks
  | none => alter block_ref (fun _ => BlockState.new block commit_index) blocks

/-- `sort_by_key` by round: a stable sort, equal rounds keeping their
order. -/
def byRound (blocks : List Block) : List Block :=
  blocks.insertionSort fun a b => a.round ≤ b.round

/-- `CommitFinalizer::link_blocks_in_last_commit`. -/
def link_blocks_in_last_commit (self : CommitFinalizer) : Except String CommitFinalizer :=
  match self.pending_commits.getLast? with
  | none => .error "No pending commit."
  | some commit_state =>
      .ok { self with
        blocks := (byRound commit_state.commit.blocks).foldl
          (linkBlock commit_state.commit.commit_ref.index) self.blocks }

/-- The walk of `append_origin_descendants_from_last_commit` down the
first ancestors of a block by its own author, adding the block to the
origin descendants of each one in the map. -/
def originWalk (committed_block_ref : BlockRef) :
    ℕ → List (BlockRef × BlockState) → BlockRef → Except String (List (BlockRef × BlockState))
  | 0, _, _ => .error "origin walk past the map"
  | fuel + 1, blocks, origin_ancestor_ref =>
      if origin_ancestor_ref.author = committed_block_ref.author then
        match lookup origin_ancestor_ref blocks with
        | none => .ok blocks
        | some origin_ancestor_block =>
            let blocks := alter origin_ancestor_ref (fun _ => { origin_ancestor_block with
              origin_descendants := origin_ancestor_block.origin_descendants ++
                [committed_block_ref] }) blocks
            match origin_ancestor_block.block.ancestors.head? with
            | none => .error "called Option::unwrap() on a None value"
            | some next => originWalk committed_block_ref fuel blocks next
      else .ok blocks

/-- One block of `append_origin_descendants_from_last_commit`. -/
def appendOriginDescendants (blocks : List (BlockRef × BlockState)) (committed_block : Block) :
    Except String (List (BlockRef × BlockState)) :=
  let committed_block_ref := committed_block.reference
  match lookup committed_block_ref blocks with
  | none => .error "called Option::unwrap() on a None value"
  | some block_state =>
      match block_state.block.ancestors.head? with
      | none => .error "called Option::unwrap() on a None value"
      | some origin_ancestor_ref =>
          originWalk committed_block_ref (blocks.length + 1) blocks origin_ancestor_ref

/-- `CommitFinalizer::append_origin_descendants_from_last_commit`. -/
def append_origin_descendants_from_last_commit (self : CommitFinalizer) :
    Except String CommitFinalizer :=
  match self.pending_commits.getLast? with
  | none => .error "No pending commit."
  | some commit_state =>
      match (byRound commit_state.commit.blocks).foldlM appendOriginDescendants self.blocks with
      | .error e => .error e
      | .ok blocks => .ok { self with blocks := blocks }

-- ============================================================ indirect finalization

/-- The pending transactions of a block that reached a quorum of reject
votes, in index order. -/
def quorumRejected (self : CommitFinalizer) (reject_votes : List (ℕ × ℕ))
    (pending_transactions : Finset ℕ) : List ℕ :=
  (ascending pending_transactions).filter fun transaction_index =>
    decide (¬ (lookup transaction_index reject_votes).getD 0 < self.committee.quorum_threshold)

/-- `CommitFinalizer::check_pending_transactions_in_first_commit`: pending
transactions that reached a quorum of reject votes move to the rejected
ones. -/
def check_pending_transactions_in_first_commit (self : CommitFinalizer) :
    Except String CommitFinalizer :=
  match self.pending_commits with
  | [] => .error "index out of bounds"
  | first :: rest =>
      let collected : Except String (List (BlockRef × List ℕ)) :=
        first.pending_transactions.foldlM (fun all_rejected entry =>
        match self.get_reject_votes entry.1 with
        | none => .error "No vote info found. It is incorrectly gced or failed to be recovered"
        | some reject_votes =>
            let rejected_transactions := self.quorumRejected reject_votes entry.2
            .ok (if rejected_transactions ≠ [] then all_rejected ++ [(entry.1, rejected_transactions)]
              else all_rejected)) []
      match collected with
      | .error e => .error e
      | .ok all_rejected =>
          let first := all_rejected.foldl (fun commit_state e =>
            let commit_state := commit_state.remove_pending_transactions e.1 e.2
            { commit_state with
              rejected_transactions := alter e.1 (fun s => s.getD ∅ ∪ e.2.toFinset)
                commit_state.rejected_transactions }) first
          .ok { self with pending_commits := first :: rest }

/-- `CommitFinalizer::gced_transaction_votes_for_pending_block`: whether
the votes of a block of a later commit on the pending block may have been
dropped by the GC of its proposer. -/
def gced_transaction_votes_for_pending_block (gc_rounds : List (ℕ × ℕ))
    (pending_block_round pending_commit_index current_commit_index : ℕ) : Except String Bool :=
  if ¬ pending_commit_index ≤ current_commit_index then
    .error "Pending should be <= current"
  else if pending_commit_index = current_commit_index then .ok false
  else
    match gc_rounds[current_commit_index - 1 - pending_commit_index]? with
    | none => .error "called Option::unwrap() on a None value"
    | some (commit_index, gc_round) =>
        if commit_index ≠ current_commit_index - 1 then .error "Commit index mismatch"
        else .ok (decide (pending_block_round ≤ gc_round))

/-- The accept votes of one block on the pending transactions it does not
reject, and the transactions that reach a quorum with it. -/
def countAcceptVotes (committee : Committee) (author : ℕ) (curr_block_reject_votes : Finset ℕ) :
    List (ℕ × StakeAggregator QuorumThreshold) →
      List (ℕ × StakeAggregator QuorumThreshold) × List ℕ
  | [] => ([], [])
  | (index, stake) :: rest =>
      let r := countAcceptVotes committee author curr_block_reject_votes rest
      if index ∈ curr_block_reject_votes then ((index, stake) :: r.1, r.2)
      else
        let added := stake.add author committee
        ((index, added.1) :: r.1, if added.2 then index :: r.2 else r.2)

/-- The breadth-first traversal of
`try_indirect_finalize_pending_transactions_in_block`, from the earliest
block to visit: each block not ignored counts as an accept vote of its
author on every pending transaction it does not reject, unless its votes
may have been dropped by GC, and the traversal ends when every pending
transaction reached a quorum. -/
def traverse (committee : Committee) (blocks : List (BlockRef × BlockState))
    (gc_rounds : List (ℕ × ℕ)) (pending_block_ref : BlockRef) (pending_commit_index : ℕ) :
    ℕ → List BlockRef → Finset BlockRef → Finset BlockRef →
      List (ℕ × StakeAggregator QuorumThreshold) → List ℕ → Except String (List ℕ)
  | 0, _, _, _, _, _ => .error "traversal past the map"
  | _ + 1, [], _, _, _, finalized_transactions => .ok finalized_transactions
  | fuel + 1, curr_block_ref :: to_visit_blocks, visited, ignored, accept_votes,
      finalized_transactions =>
      if curr_block_ref ∈ visited then
        traverse committee blocks gc_rounds pending_block_ref pending_commit_index fuel
          to_visit_blocks visited ignored accept_votes finalized_transactions
      else
        let visited := insert curr_block_ref visited
        match lookup curr_block_ref blocks with
        | none => .error "Block is either incorrectly gced or failed to be recovered after crash."
        | some curr_block_state =>
            let children := (ascending curr_block_state.children).filter (· ∉ visited)
            let next_to_visit := children.foldl (fun l b => insertOrdered b l) to_visit_blocks
            match gced_transaction_votes_for_pending_block gc_rounds pending_block_ref.round
                pending_commit_index curr_block_state.commit_index with
            | .error e => .error e
            | .ok votes_gced =>
                if curr_block_ref ∉ ignored then
                  let ignored := insert curr_block_ref ignored ∪
                    curr_block_state.origin_descendants.toFinset
                  if votes_gced then
                    -- the source's `continue`: the block's children are not added
                    traverse committee blocks gc_rounds pending_block_ref pending_commit_index
                      fuel to_visit_blocks visited ignored accept_votes finalized_transactions
                  else
                    let curr_block_reject_votes :=
                      (lookup pending_block_ref curr_block_state.reject_votes).getD ∅
                    let r := countAcceptVotes committee curr_block_ref.author
                      curr_block_reject_votes accept_votes
                    let finalized_transactions := finalized_transactions ++ r.2
                    let accept_votes := r.1.filter fun e => e.1 ∉ r.2
                    if accept_votes = [] then .ok finalized_transactions
                    else
                      traverse committee blocks gc_rounds pending_block_ref pending_commit_index
                        fuel next_to_visit visited ignored accept_votes finalized_transactions
                else
                  traverse committee blocks gc_rounds pending_block_ref pending_commit_index fuel
                    next_to_visit visited ignored accept_votes finalized_transactions

/-- `CommitFinalizer::try_indirect_finalize_pending_transactions_in_block`:
the pending transactions of a block that a quorum of later blocks accept. -/
def try_indirect_finalize_pending_transactions_in_block (committee : Committee)
    (blocks : List (BlockRef × BlockState)) (gc_rounds : List (ℕ × ℕ))
    (pending_block_ref : BlockRef) (pending_transactions : Finset ℕ) : Except String (List ℕ) :=
  if pending_transactions = ∅ then .ok []
  else
    let accept_votes := (ascending pending_transactions).map fun t => (t, StakeAggregator.new)
    match lookup pending_block_ref blocks with
    | none => .error "called Option::unwrap() on a None value"
    | some block_state =>
        traverse committee blocks gc_rounds pending_block_ref block_state.commit_index
          (blocks.length + 1) (ascending block_state.children) ∅ ∅ accept_votes []

/-- `CommitFinalizer::try_indirect_finalize_pending_transactions_in_first_commit`:
the pending transactions a quorum accepts leave the pending ones. -/
def try_indirect_finalize_pending_transactions_in_first_commit (self : CommitFinalizer) :
    Except String CommitFinalizer :=
  match self.pending_commits with
  | [] => .error "index out of bounds"
  | first :: rest =>
      let gc_rounds := self.pending_commits.map fun c =>
        (c.commit.commit_ref.index, self.calculate_gc_round c.commit.leader.round)
      let collected : Except String (List (BlockRef × List ℕ)) :=
        first.pending_transactions.foldlM (fun all_finalized entry =>
        match try_indirect_finalize_pending_transactions_in_block self.committee self.blocks
            gc_rounds entry.1 entry.2 with
        | .error e => .error e
        | .ok finalized =>
            .ok (if finalized ≠ [] then all_finalized ++ [(entry.1, finalized)]
              else all_finalized)) []
      match collected with
      | .error e => .error e
      | .ok all_finalized =>
          let first := all_finalized.foldl
            (fun commit_state e => commit_state.remove_pending_transactions e.1 e.2) first
          .ok { self with pending_commits := first :: rest }

/-- `CommitFinalizer::try_indirect_reject_pending_transactions_in_first_commit`:
once the newest commit is the reject depth above the first, every
transaction of the first still pending is rejected. -/
def try_indirect_reject_pending_transactions_in_first_commit (self : CommitFinalizer) :
    Except String CommitFinalizer :=
  match self.pending_commits, self.pending_commits.getLast? with
  | first :: rest, some last_commit_state =>
      if first.commit.leader.round + INDIRECT_REJECT_DEPTH ≤
          last_commit_state.commit.leader.round then
        if first.pending_blocks ≠ [] then
          .error "assertion failed: curr_commit_state.pending_blocks.is_empty()"
        else
          let first := { first with
            pending_transactions := []
            rejected_transactions := first.pending_transactions.foldl
              (fun m e => alter e.1 (fun s => s.getD ∅ ∪ e.2) m) first.rejected_transactions }
          .ok { self with pending_commits := first :: rest }
      else .ok self
  | _, _ => .error "index out of bounds"

/-- `CommitFinalizer::try_indirect_finalize_first_commit`. -/
def try_indirect_finalize_first_commit (self : CommitFinalizer) :
    Except String CommitFinalizer :=
  match self.pending_commits with
  | [] => .error "assertion failed: !self.pending_commits.is_empty()"
  | first :: _ =>
      if first.pending_blocks ≠ [] then
        .error "assertion failed: self.pending_commits[0].pending_blocks.is_empty()"
      else do
        let self ← self.check_pending_transactions_in_first_commit
        let self ← self.try_indirect_finalize_pending_transactions_in_first_commit
        self.try_indirect_reject_pending_transactions_in_first_commit

/-- The indirect finalization loop of `process_commit`: while a commit is
queued behind the first and the first has been directly finalized, try to
finalize it indirectly and pop what is finalized, until nothing pops. -/
def indirectLoop : ℕ → CommitFinalizer → Except String (CommitFinalizer × List CommittedSubDag)
  | 0, self => .ok (self, [])
  | fuel + 1, self =>
      match self.pending_commits with
      | first :: _ :: _ =>
          if first.pending_blocks ≠ [] then .ok (self, [])
          else
            match self.try_indirect_finalize_first_commit with
            | .error e => .error e
            | .ok self =>
                let r := self.pop_finalized_commits
                if r.2 = [] then .ok (r.1, [])
                else
                  match indirectLoop fuel r.1 with
                  | .error e => .error e
                  | .ok (self, indirect) => .ok (self, r.2 ++ indirect)
      | _ => .ok (self, [])

/-- `CommitFinalizer::process_commit`: queue the commit, finalize
directly what can be, pop the finalized front, and then finalize
indirectly from the front. -/
def process_commit (self : CommitFinalizer) (committed_sub_dag : CommittedSubDag) :
    Except String (CommitFinalizer × List CommittedSubDag) :=
  if self.last_processed_commit.any (· + 1 ≠ committed_sub_dag.commit_ref.index) then
    .error "assertion failed: last_processed_commit + 1 == committed_sub_dag.commit_ref.index"
  else
    let self := { self with last_processed_commit := some committed_sub_dag.commit_ref.index }
    match CommitState.new committed_sub_dag with
    | .error e => .error e
    | .ok commit_state =>
        let self := { self with pending_commits := self.pending_commits ++ [commit_state] }
        match self.directLoop (List.range self.pending_commits.length) with
        | .error e => .error e
        | .ok self =>
            let r := self.pop_finalized_commits
            let self := r.1
            if self.pending_commits = [] then .ok (self, r.2)
            else
              match self.link_blocks_in_last_commit >>= append_origin_descendants_from_last_commit with
              | .error e => .error e
              | .ok self =>
                  match indirectLoop self.pending_commits.length self with
                  | .error e => .error e
                  | .ok (self, indirect) => .ok (self, r.2 ++ indirect)

/-- The commits a finalizer is fed one after another, and the commits it
outputs, in order; a panic ends the run. -/
def process_commits (self : CommitFinalizer) :
    List CommittedSubDag → Except String (CommitFinalizer × List CommittedSubDag)
  | [] => .ok (self, [])
  | c :: cs =>
      match self.process_commit c with
      | .error e => .error e
      | .ok (self, out) =>
          match self.process_commits cs with
          | .error e => .error e
          | .ok (self, outs) => .ok (self, out ++ outs)

end CommitFinalizer

end MysoCore.Consensus
