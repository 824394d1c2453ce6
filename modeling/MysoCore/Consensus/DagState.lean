/-
The in-memory DAG state (consensus/core/src/dag_state.rs), as far as the
linearizer and the commit rule read and write it.

# The model

`recent_blocks` is the source's `BTreeMap<BlockRef, BlockInfo>`, kept as
the list of its entries; each entry is found by its block's reference, the
key the source inserts it under. `store` is the persistent block storage
behind the cache, read by `get_blocks` for what the cache misses, and
`genesis` the genesis blocks it answers round zero from. A panic of the
source is an `Except.error` carrying the fixed part of its message.

The commit bookkeeping is `last_commit` (whose leader round sets the GC
round) and `commits_to_write`, the buffer every commit is appended to. The
digest of a commit is a hash of its serialized bytes: the functions that
read it take the hash as a parameter `commitDigest`. Fields no modelled
function reads (threshold clock, eviction rounds, last committed rounds
per authority, pending commit votes, write buffers for blocks and commit
info) are left out.
-/
import MysoCore.Consensus.Block

namespace MysoCore.Consensus

/-- `BlockInfo`: a cached block with its commit flag. -/
structure BlockInfo where
  block : Block
  committed : Bool
  included : Bool
  deriving DecidableEq, Repr

/-- `Commit` (its `V1` variant). -/
structure Commit where
  index : ℕ
  previous_digest : ℕ
  timestamp_ms : ℕ
  leader : BlockRef
  blocks : List BlockRef
  deriving DecidableEq, Repr

/-- `CommitAPI::round`: the leader's round. -/
def Commit.round (c : Commit) : ℕ := c.leader.round

/-- `DagState`, restricted to what the modelled code reads. -/
structure DagState where
  genesis : List Block
  recent_blocks : List BlockInfo
  store : BlockRef → Option Block
  last_commit : Option Commit
  commits_to_write : List Commit
  gc_depth : ℕ

namespace DagState

-- ================================================================ lookup

/-- The cache entry under a reference. -/
def lookup (s : DagState) (r : BlockRef) : Option BlockInfo :=
  s.recent_blocks.find? (fun bi => bi.block.reference = r)

/-- `DagState::get_block`: genesis for round zero, then the cache, then
storage. -/
def get_block (s : DagState) (r : BlockRef) : Option Block :=
  if r.round = 0 then s.genesis.find? (fun b => b.reference = r)
  else match s.lookup r with
    | some bi => some bi.block
    | none => s.store r

/-- `DagState::get_blocks`. -/
def get_blocks (s : DagState) (refs : List BlockRef) : List (Option Block) :=
  refs.map s.get_block

-- ================================================================ commit flags

/-- Mark the cache entries under `r` committed. -/
def markCommitted (s : DagState) (r : BlockRef) : DagState :=
  { s with recent_blocks := s.recent_blocks.map fun bi =>
      if bi.block.reference = r then { bi with committed := true } else bi }

/-- `DagState::set_committed`: mark a cached block committed, reporting
whether it was not already. -/
def set_committed (s : DagState) (r : BlockRef) : Except String (DagState × Bool) :=
  match s.lookup r with
  | some bi => if bi.committed then .ok (s, false) else .ok (s.markCommitted r, true)
  | none => .error "Block not found in cache to set as committed."

/-- `DagState::is_committed`. -/
def is_committed (s : DagState) (r : BlockRef) : Except String Bool :=
  match s.lookup r with
  | some bi => .ok bi.committed
  | none => .error "Attempted to query for commit status for a block not in cached data"

-- ================================================================ last commit

/-- `DagState::last_commit_index`. -/
def last_commit_index (s : DagState) : ℕ :=
  match s.last_commit with
  | some c => c.index
  | none => 0

/-- `DagState::last_commit_digest`; `CommitDigest::MIN` before any commit. -/
def last_commit_digest (commitDigest : Commit → ℕ) (s : DagState) : ℕ :=
  match s.last_commit with
  | some c => commitDigest c
  | none => 0

/-- `DagState::last_commit_timestamp_ms`. -/
def last_commit_timestamp_ms (s : DagState) : ℕ :=
  match s.last_commit with
  | some c => c.timestamp_ms
  | none => 0

/-- `DagState::last_commit_round`. -/
def last_commit_round (s : DagState) : ℕ :=
  match s.last_commit with
  | some c => c.round
  | none => 0

/-- `DagState::calculate_gc_round`: a saturating subtraction of the depth. -/
def calculate_gc_round (s : DagState) (commit_round : ℕ) : ℕ := commit_round - s.gc_depth

/-- `DagState::gc_round`. -/
def gc_round (s : DagState) : ℕ := s.calculate_gc_round s.last_commit_round

/-- `DagState::add_commit`: a commit at or below the last index is logged
and dropped; otherwise it must be the next index and must not go back in
time. -/
def add_commit (s : DagState) (commit : Commit) : Except String DagState :=
  match s.last_commit with
  | some last =>
      if commit.index ≤ last.index then .ok s
      else if commit.index ≠ last.index + 1 then .error "assertion failed: commit.index() == last_commit.index() + 1"
      else if commit.timestamp_ms < last.timestamp_ms then
        .error "Commit timestamps do not monotonically increment"
      else .ok { s with last_commit := some commit,
                        commits_to_write := s.commits_to_write ++ [commit] }
  | none =>
      if commit.index ≠ 1 then .error "assertion failed: commit.index() == 1"
      else .ok { s with last_commit := some commit,
                        commits_to_write := s.commits_to_write ++ [commit] }

-- ================================================================ spec

/-- The number of cached blocks not yet committed: the measure the
linearizer's traversal consumes. -/
def uncommittedCount (s : DagState) : ℕ :=
  s.recent_blocks.countP fun bi => !bi.committed

@[simp] theorem markCommitted_store (s : DagState) (r : BlockRef) :
    (s.markCommitted r).store = s.store := rfl
@[simp] theorem markCommitted_genesis (s : DagState) (r : BlockRef) :
    (s.markCommitted r).genesis = s.genesis := rfl
@[simp] theorem markCommitted_last_commit (s : DagState) (r : BlockRef) :
    (s.markCommitted r).last_commit = s.last_commit := rfl
@[simp] theorem markCommitted_gc_depth (s : DagState) (r : BlockRef) :
    (s.markCommitted r).gc_depth = s.gc_depth := rfl

/-- A map that only ever clears a flag never counts more flagged entries. -/
theorem countP_map_le_of_imp {α : Type*} {p : α → Bool} {g : α → α} {l : List α}
    (h : ∀ x ∈ l, p (g x) = true → p x = true) : (l.map g).countP p ≤ l.countP p := by
  rw [List.countP_map]
  exact List.countP_mono_left h

/-- ... and counts strictly fewer once it clears one. -/
theorem countP_map_lt_of_imp {α : Type*} {p : α → Bool} {g : α → α} :
    ∀ {l : List α}, (∀ x ∈ l, p (g x) = true → p x = true) →
      ∀ x ∈ l, p x = true → p (g x) = false → (l.map g).countP p < l.countP p
  | [], _, _, hx, _, _ => by simp at hx
  | y :: l, h, x, hx, hpx, hgx => by
      simp only [List.map_cons, List.countP_cons]
      have htail : ∀ x ∈ l, p (g x) = true → p x = true :=
        fun x hx => h x (List.mem_cons_of_mem y hx)
      rcases List.mem_cons.mp hx with rfl | hx
      · -- the cleared entry is the head, and the tail counts no more
        have hle := countP_map_le_of_imp htail
        simp only [hgx, hpx, if_true, Bool.false_eq_true, if_false]
        omega
      · -- the cleared entry is in the tail, and the head counts no more
        have ih := countP_map_lt_of_imp htail x hx hpx hgx
        have hhead : (if p (g y) = true then 1 else 0) ≤ if p y = true then 1 else 0 := by
          by_cases hgy : p (g y) = true
          · simp [hgy, h y List.mem_cons_self hgy]
          · simp [hgy]
        omega

/-- Marking clears flags only: a marked entry is uncommitted only if it was. -/
private theorem mark_imp (r : BlockRef) (bi : BlockInfo) :
    (!(if bi.block.reference = r then { bi with committed := true } else bi).committed) = true →
      (!bi.committed) = true := by
  split <;> simp_all

/-- Marking an uncommitted entry drops the uncommitted count. -/
theorem uncommittedCount_markCommitted {s : DagState} {r : BlockRef} {bi : BlockInfo}
    (hbi : s.lookup r = some bi) (hnc : bi.committed = false) :
    (s.markCommitted r).uncommittedCount < s.uncommittedCount := by
  have hmem : bi ∈ s.recent_blocks := List.mem_of_find?_eq_some hbi
  have hkey : bi.block.reference = r := by simpa using List.find?_some hbi
  exact countP_map_lt_of_imp (fun bi _ => mark_imp r bi) bi hmem (by simp [hnc]) (by simp [hkey])

-- ================================================================ marks

/-- Marking keeps every entry's block, so it finds the entries it found
before, marked. -/
theorem lookup_markCommitted (s : DagState) (r r' : BlockRef) :
    (s.markCommitted r).lookup r' = (s.lookup r').map fun bi =>
      if bi.block.reference = r then { bi with committed := true } else bi := by
  unfold lookup markCommitted
  rw [List.find?_map]
  congr 2
  funext bi
  by_cases h : bi.block.reference = r <;> simp [h]

/-- An entry is found under its own reference. -/
theorem lookup_reference {s : DagState} {r : BlockRef} {bi : BlockInfo}
    (h : s.lookup r = some bi) : bi.block.reference = r := by
  simpa using List.find?_some h

/-- Above round zero, a cached block is read from the cache. -/
theorem get_block_of_lookup {s : DagState} {r : BlockRef} {bi : BlockInfo}
    (hr : r.round ≠ 0) (h : s.lookup r = some bi) : s.get_block r = some bi.block := by
  simp [get_block, hr, h]

@[simp] theorem get_block_markCommitted (s : DagState) (r : BlockRef) :
    (s.markCommitted r).get_block = s.get_block := by
  funext r'
  unfold get_block
  rw [lookup_markCommitted]
  cases s.lookup r' with
  | none => rfl
  | some bi => by_cases h : bi.block.reference = r <;> simp [h]

/-- Marking `r` sets the flag of `r` and of nothing else. -/
theorem is_committed_markCommitted (s : DagState) (r r' : BlockRef) :
    (s.markCommitted r).is_committed r' = (s.is_committed r').map (· || decide (r' = r)) := by
  unfold is_committed
  rw [lookup_markCommitted]
  cases h : s.lookup r' with
  | none => rfl
  | some bi =>
      have hkey := lookup_reference h
      by_cases hr : r' = r <;> simp [hkey, hr, Except.map]

/-- A fresh mark by `set_committed`: the reference was cached and not
committed, and now it is committed along with what was before. -/
theorem set_committed_fresh {s s' : DagState} {r : BlockRef}
    (h : s.set_committed r = .ok (s', true)) :
    s.is_committed r = .ok false ∧ s' = s.markCommitted r := by
  unfold set_committed at h
  split at h
  · next bi hbi =>
      split at h
      · cases h
      · next hnc =>
          cases h
          simp [is_committed, hbi, hnc]
  · cases h

/-- How a fresh mark changes the committed references. -/
theorem committed_set_committed {s s' : DagState} {r : BlockRef}
    (h : s.set_committed r = .ok (s', true)) (r' : BlockRef) :
    s'.is_committed r' = .ok true ↔ s.is_committed r' = .ok true ∨ r' = r := by
  obtain ⟨hfalse, rfl⟩ := set_committed_fresh h
  rw [is_committed_markCommitted]
  by_cases hr : r' = r
  · subst hr
    simp [hfalse, Except.map]
  · cases s.is_committed r' <;> simp [hr, Except.map]

/-- A flag left clear by marking `r` was clear before, on another
reference. -/
theorem is_committed_markCommitted_eq_false {s : DagState} {r r' : BlockRef} :
    (s.markCommitted r).is_committed r' = .ok false ↔ s.is_committed r' = .ok false ∧ r' ≠ r := by
  rw [is_committed_markCommitted]
  cases s.is_committed r' with
  | error e => simp [Except.map]
  | ok c => by_cases hr : r' = r <;> simp [hr, Except.map]

/-- A reference with a commit flag above round zero reads back a block
under that reference. -/
theorem get_block_of_is_committed {s : DagState} {r : BlockRef} {c : Bool}
    (hr : r.round ≠ 0) (h : s.is_committed r = .ok c) :
    ∃ b, s.get_block r = some b ∧ b.reference = r := by
  unfold is_committed at h
  split at h
  · next bi hbi => exact ⟨bi.block, get_block_of_lookup hr hbi, lookup_reference hbi⟩
  · cases h

-- ================================================================ commits

/-- A commit with the next index that does not go back in time is
buffered and becomes the last commit. -/
theorem add_commit_next {s : DagState} {commit : Commit}
    (hidx : commit.index = s.last_commit_index + 1)
    (hts : s.last_commit_timestamp_ms ≤ commit.timestamp_ms) :
    s.add_commit commit = .ok { s with last_commit := some commit,
                                       commits_to_write := s.commits_to_write ++ [commit] } := by
  unfold add_commit
  unfold last_commit_index last_commit_timestamp_ms at *
  cases hl : s.last_commit with
  | none =>
      simp only [hl] at hidx
      simp [hidx]
  | some last =>
      simp only [hl] at hidx hts
      have h₂ : ¬ commit.timestamp_ms < last.timestamp_ms := by omega
      simp [h₂, hidx]

/-- What `add_commit` can do: drop the commit, or buffer it as the last
commit. -/
theorem add_commit_cases {s s' : DagState} {commit : Commit} (h : s.add_commit commit = .ok s') :
    s' = s ∨ s' = { s with last_commit := some commit,
                           commits_to_write := s.commits_to_write ++ [commit] } := by
  unfold add_commit at h
  split at h
  · split at h
    · cases h
      exact Or.inl rfl
    · split at h
      · cases h
      · split at h
        · cases h
        · cases h
          exact Or.inr rfl
  · split at h
    · cases h
    · cases h
      exact Or.inr rfl

/-- What `set_committed` can do: nothing, or mark the block. -/
theorem set_committed_cases {s s' : DagState} {r : BlockRef} {fresh : Bool}
    (h : s.set_committed r = .ok (s', fresh)) : s' = s ∨ s' = s.markCommitted r := by
  unfold set_committed at h
  split at h
  · split at h
    · cases h
      exact Or.inl rfl
    · cases h
      exact Or.inr rfl
  · cases h

end DagState

end MysoCore.Consensus
