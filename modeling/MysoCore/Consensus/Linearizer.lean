/-
The linearizer (consensus/core/src/linearizer.rs): from a sequence of
committed leaders to a sequence of committed sub-dags.

# The model

Each leader is expanded by `linearize_sub_dag`, a marking traversal: the
leader is marked committed, then blocks are popped from a stack and their
ancestors above the GC round that are not yet committed are marked and
pushed. The stack is a list with its top first, so pushing is `cons` and
`Vec::pop` is the head. The traversal ends because every push marks a
cache entry: the pair (uncommitted cache entries, stack length) drops
lexicographically at every pop.

The commit timestamp is the stake-weighted median of the leader's parents,
raised to the previous commit's timestamp; `Commit::new` and `add_commit`
then extend the chain of commits. The commit digest is the hash
`commitDigest` of the serialized commit, a parameter of every function that
needs it. Metrics, tracing and the pruned-blocks metric are left out.
-/
import MysoCore.Consensus.DagState
import MysoCore.Consensus.Committee

namespace MysoCore.Consensus

open Word

/-- `CommitRef`: a commit by index and digest. -/
structure CommitRef where
  index : ℕ
  digest : ℕ
  deriving DecidableEq, Repr

/-- `CommittedSubDag`, with the fields the linearizer and the commit
finalizer set. -/
structure CommittedSubDag where
  leader : BlockRef
  blocks : List Block
  timestamp_ms : ℕ
  commit_ref : CommitRef
  decided_with_local_blocks : Bool
  recovered_rejected_transactions : Bool
  rejected_transactions_by_block : List (BlockRef × List ℕ)
  always_accept_system_transactions : Bool
  deriving DecidableEq, Repr

/-- The per-epoch configuration the linearizer reads: the committee and the
protocol flag copied into every sub-dag. -/
structure Context where
  committee : Committee
  consensus_always_accept_system_transactions : Bool

/-- `sort_sub_dag_blocks`: a stable sort by round, then author. -/
def sort_sub_dag_blocks (blocks : List Block) : List Block :=
  blocks.mergeSort fun a b => decide (a.round < b.round ∨ (a.round = b.round ∧ a.author ≤ b.author))

-- ================================================= the median timestamp

/-- The loop of `median_timestamps_by_stake_inner`: the first timestamp at
which the running stake (a wrapping `u64` sum) exceeds `half`. -/
def medianScan (half : ℕ) : ℕ → List (ℕ × ℕ) → Option ℕ
  | _, [] => none
  | cumulative_stake, (ts, stake) :: rest =>
      if wrappingAdd 64 cumulative_stake stake > half then some ts
      else medianScan half (wrappingAdd 64 cumulative_stake stake) rest

/-- `median_timestamps_by_stake_inner`: sort by timestamp (stably), then
scan; past the end, the last timestamp. -/
def median_timestamps_by_stake_inner (timestamps : List (ℕ × ℕ)) (total_stake : ℕ) : ℕ :=
  let sorted := timestamps.mergeSort fun a b => decide (a.1 ≤ b.1)
  match medianScan (total_stake / 2) 0 sorted with
  | some ts => ts
  | none => sorted.getLast!.1

/-- `median_timestamp_by_stake`: the stake-weighted median of the blocks'
timestamps; the blocks are assumed to come from distinct authorities. -/
def median_timestamp_by_stake (committee : Committee) (blocks : List Block) :
    Except String ℕ :=
  let timestamps := blocks.map fun b => (b.timestamp_ms, committee.stake b.author)
  -- `total_stake += stake`, wrapping in `u64`
  let total_stake := (timestamps.map Prod.snd).sum % 2 ^ 64
  if timestamps.isEmpty then .error "No blocks provided"
  else if total_stake < committee.quorum_threshold then .error "Total stake < quorum threshold"
  else .ok (median_timestamps_by_stake_inner timestamps total_stake)

namespace Linearizer

-- ================================================= the sub-dag traversal

/-- `.map(|o| o.expect(msg))` over looked-up blocks. -/
def expectAll (msg : String) : List (Option Block) → Except String (List Block)
  | [] => .ok []
  | none :: _ => .error msg
  | some b :: rest => (expectAll msg rest).map (b :: ·)

/-- The ancestors the traversal follows:
`ancestor.round > gc_round && !dag_state.is_committed(ancestor)`. -/
def uncommittedAncestors (s : DagState) (gc_round : ℕ) :
    List BlockRef → Except String (List BlockRef)
  | [] => .ok []
  | a :: rest =>
      if a.round > gc_round then
        match s.is_committed a with
        | .error e => .error e
        | .ok true => uncommittedAncestors s gc_round rest
        | .ok false => (uncommittedAncestors s gc_round rest).map (a :: ·)
      else uncommittedAncestors s gc_round rest

/-- Push each fetched ancestor and mark it committed; marking a block a
second time is the source's "attempted to be committed twice" panic. -/
def pushAncestors (s : DagState) (buffer : List Block) :
    List Block → Except String (DagState × List Block)
  | [] => .ok (s, buffer)
  | a :: rest =>
      match s.set_committed a.reference with
      | .error e => .error e
      | .ok (s', true) => pushAncestors s' (a :: buffer) rest
      | .ok (_, false) => .error "Block with reference attempted to be committed twice"

/-- `set_committed` reports a fresh mark only after marking an
uncommitted entry, and otherwise changes nothing. -/
theorem set_committed_ok {s s' : DagState} {r : BlockRef} {fresh : Bool}
    (h : s.set_committed r = .ok (s', fresh)) :
    (fresh = true ∧ s' = s.markCommitted r ∧ s'.uncommittedCount < s.uncommittedCount) ∨
      (fresh = false ∧ s' = s) := by
  unfold DagState.set_committed at h
  split at h
  · next bi hbi =>
      split at h
      · cases h
        exact Or.inr ⟨rfl, rfl⟩
      · next hnc =>
          cases h
          exact Or.inl ⟨rfl, rfl,
            DagState.uncommittedCount_markCommitted hbi (by simpa using hnc)⟩
  · cases h

/-- Every pushed ancestor consumed one uncommitted cache entry. -/
theorem pushAncestors_measure {s s' : DagState} {buffer buffer' : List Block} :
    ∀ {as : List Block}, pushAncestors s buffer as = .ok (s', buffer') →
      buffer'.length = buffer.length + as.length ∧
        s'.uncommittedCount + as.length ≤ s.uncommittedCount
  | [], h => by
      simp only [pushAncestors, Except.ok.injEq, Prod.mk.injEq] at h
      obtain ⟨rfl, rfl⟩ := h
      simp
  | a :: rest, h => by
      simp only [pushAncestors] at h
      split at h
      · cases h
      · next s₁ hset =>
          have hlt := (set_committed_ok hset).elim (fun h => h.2.2) (fun h => by cases h.1)
          obtain ⟨hlen, hcount⟩ := pushAncestors_measure h
          simp only [List.length_cons] at hlen ⊢
          omega
      · cases h

/-- The traversal loop of `linearize_sub_dag`: pop, record, push the
unvisited ancestors. -/
def linearizeLoop (gc_round : ℕ) (s : DagState) (buffer to_commit : List Block) :
    Except String (DagState × List Block) :=
  match buffer with
  | [] => .ok (s, to_commit)
  | x :: rest =>
      match uncommittedAncestors s gc_round x.ancestors with
      | .error e => .error e
      | .ok refs =>
          match expectAll "We should have all uncommitted blocks in dag state."
              (s.get_blocks refs) with
          | .error e => .error e
          | .ok ancestors =>
              match h : pushAncestors s rest ancestors with
              | .error e => .error e
              | .ok (s', buffer') => linearizeLoop gc_round s' buffer' (to_commit ++ [x])
termination_by (s.uncommittedCount, buffer.length)
decreasing_by
  obtain ⟨hlen, hcount⟩ := pushAncestors_measure h
  rcases Nat.eq_zero_or_pos ancestors.length with h0 | hpos
  · -- nothing pushed: the count stays and the stack shrinks
    have hc : s'.uncommittedCount ≤ s.uncommittedCount := by omega
    rcases Nat.lt_or_eq_of_le hc with hc | hc
    · exact Prod.Lex.left _ _ hc
    · rw [hc]
      apply Prod.Lex.right
      simp only [List.length_cons]
      omega
  · exact Prod.Lex.left _ _ (by omega)

theorem linearizeLoop_nil (gc_round : ℕ) (s : DagState) (to_commit : List Block) :
    linearizeLoop gc_round s [] to_commit = .ok (s, to_commit) := by
  rw [linearizeLoop]

/-- One pop of the loop, without the equation the termination proof reads. -/
theorem linearizeLoop_cons (gc_round : ℕ) (s : DagState) (x : Block) (rest to_commit : List Block) :
    linearizeLoop gc_round s (x :: rest) to_commit =
      match uncommittedAncestors s gc_round x.ancestors with
      | .error e => .error e
      | .ok refs =>
          match expectAll "We should have all uncommitted blocks in dag state."
              (s.get_blocks refs) with
          | .error e => .error e
          | .ok ancestors =>
              match pushAncestors s rest ancestors with
              | .error e => .error e
              | .ok (s', buffer') => linearizeLoop gc_round s' buffer' (to_commit ++ [x]) := by
  rw [linearizeLoop]
  rcases uncommittedAncestors s gc_round x.ancestors with e | refs
  · rfl
  · dsimp only
    rcases expectAll "We should have all uncommitted blocks in dag state."
        (s.get_blocks refs) with e | ancestors
    · rfl
    · dsimp only
      split <;> rename_i heq <;> simp [heq]

/-- `Linearizer::linearize_sub_dag`. -/
def linearize_sub_dag (leader_block : Block) (s : DagState) :
    Except String (List Block × DagState) :=
  let gc_round := s.gc_round
  match s.set_committed leader_block.reference with
  | .error e => .error e
  | .ok (_, false) => .error "Leader block with reference attempted to be committed twice"
  | .ok (s, true) =>
      match linearizeLoop gc_round s [leader_block] [] with
      | .error e => .error e
      | .ok (s, to_commit) =>
          if to_commit.all fun b => decide (b.round > gc_round) then
            .ok (sort_sub_dag_blocks to_commit, s)
          else .error "No blocks <= gc_round should be committed."

-- ================================================= commits

/-- `Linearizer::calculate_commit_timestamp`. -/
def calculate_commit_timestamp (committee : Committee) (s : DagState) (leader_block : Block)
    (last_commit_timestamp_ms : ℕ) : Except String ℕ :=
  let block_refs := leader_block.ancestors.filter fun r => r.round = leader_block.round - 1
  match expectAll "We should have all blocks in dag state." (s.get_blocks block_refs) with
  | .error e => .error e
  | .ok blocks =>
      match median_timestamp_by_stake committee blocks with
      | .error e => .error ("Cannot compute median timestamp for leader block ancestors: " ++ e)
      | .ok timestamp_ms => .ok (max timestamp_ms last_commit_timestamp_ms)

variable (commitDigest : Commit → ℕ)

/-- `Linearizer::collect_sub_dag_and_commit`. -/
def collect_sub_dag_and_commit (context : Context) (s : DagState) (leader_block : Block) :
    Except String (CommittedSubDag × Commit × DagState) :=
  let last_commit_index := s.last_commit_index
  let last_commit_digest := s.last_commit_digest commitDigest
  let last_commit_timestamp_ms := s.last_commit_timestamp_ms
  match linearize_sub_dag leader_block s with
  | .error e => .error e
  | .ok (to_commit, s) =>
      match calculate_commit_timestamp context.committee s leader_block
          last_commit_timestamp_ms with
      | .error e => .error e
      | .ok timestamp_ms =>
          let commit : Commit :=
            ⟨last_commit_index + 1, last_commit_digest, timestamp_ms, leader_block.reference,
              to_commit.map Block.reference⟩
          let sub_dag : CommittedSubDag :=
            { leader := leader_block.reference
              blocks := to_commit
              timestamp_ms := timestamp_ms
              commit_ref := ⟨commit.index, commitDigest commit⟩
              decided_with_local_blocks := true
              recovered_rejected_transactions := false
              rejected_transactions_by_block := []
              always_accept_system_transactions :=
                context.consensus_always_accept_system_transactions }
          .ok (sub_dag, commit, s)

/-- `Linearizer::handle_commit`: every leader in turn, each commit buffered
in the DAG state before the next leader is expanded. -/
def handle_commit (context : Context) (s : DagState) :
    List Block → Except String (List CommittedSubDag × DagState)
  | [] => .ok ([], s)
  | leader_block :: rest =>
      match collect_sub_dag_and_commit commitDigest context s leader_block with
      | .error e => .error e
      | .ok (sub_dag, commit, s) =>
          match s.add_commit commit with
          | .error e => .error e
          | .ok s => (handle_commit context s rest).map fun r => (sub_dag :: r.1, r.2)

end Linearizer

end MysoCore.Consensus
