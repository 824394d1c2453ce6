/-
The block cache of `DagState` (consensus/core/src/dag_state.rs):
`accept_block` adds a block to `recent_blocks` and to the references of
its author, and `flush` writes the buffered blocks and commits to storage
and then, for every authority, evicts the cached blocks at or below the
authority's eviction round.

# The model

`CacheState` is the `DagState` of the other modules with the fields of
its cache: the references of each authority (a `BTreeSet`, read in order,
kept as a strictly increasing list), the evicted rounds, the committee
size the cache is indexed by, and the buffers `flush` empties. The buffers
of commit info and finalized commits are only ever emptied here, so their
entries are opaque numbers. The threshold clock, the metrics and the last
committed rounds are left out; a failed storage write is not modelled. A
run is a sequence of `Op`s, ending at the first panic.

# The invariant

`Inv`: the references of an authority are sorted, above genesis and its
own; a block is cached exactly when its author lists it; authorities
outside the committee list nothing; and once the buffers are empty no
listed block is at or below its authority's eviction round. One lemma per
operation keeps it (`accept_block_inv`, `flush_inv`, ...), `run_inv` over
whole runs.

# Eviction

`flush` pops, for each authority, the references at or below its
eviction round (`evictRefs_eq`); one authority's eviction leaves the
others' eviction rounds alone, so the whole flush evicts from every
authority what its eviction round in the state before gives
(`foldl_evictAuthority`, `mem_flush_refs`, `flush_lookup_isSome`).

# Evicted rounds

With a round cached an authority's last reference survives a flush
(`flush_last_mem`), so its last round never goes down; the GC round does
not go down while commits come no lower than the last one, which
`add_commit` itself does not check (`CommitsAdvance`). Then no call lowers
an evicted round (`advancing_step`), and without that order one can
(`evicted_round_decreases_on_older_commit`).
-/
import Mathlib
import MysoCore.Consensus.DagState
import MysoCore.Lib.SortedSet

namespace MysoCore.Consensus

/-- `BlockInfo::new`: neither committed nor included. -/
def BlockInfo.new (block : Block) : BlockInfo := ⟨block, false, false⟩

/-- `DagState` with the fields of its block cache. -/
structure CacheState extends DagState where
  num_authorities : ℕ
  own_index : ℕ
  skip_equivocation_validation : Bool
  cached_rounds : ℕ
  recent_refs_by_authority : ℕ → List BlockRef
  evicted_rounds : ℕ → ℕ
  highest_accepted_round : ℕ
  blocks_to_write : List Block
  commit_info_to_write : List ℕ
  finalized_commits_to_write : List ℕ

namespace CacheState

-- ================================================================ the source

/-- `BTreeMap::insert` on the cache: the entry under the block's
reference replaced, or added. -/
def insertInfo (recent_blocks : List BlockInfo) (info : BlockInfo) : List BlockInfo :=
  recent_blocks.filter (fun bi => bi.block.reference ≠ info.block.reference) ++ [info]

/-- `BTreeMap::remove` on the cache. -/
def removeInfo (recent_blocks : List BlockInfo) (block_ref : BlockRef) : List BlockInfo :=
  recent_blocks.filter fun bi => bi.block.reference ≠ block_ref

/-- `DagState::contains_block`: the author's references or genesis, and
storage only for a round no higher than the author's last cached one. -/
def contains_block (s : CacheState) (block_ref : BlockRef) : Bool :=
  let recent_refs := s.recent_refs_by_authority block_ref.author
  if block_ref ∈ recent_refs ∨ s.genesis.any (·.reference = block_ref) then true
  else
    match recent_refs.getLast? with
    | none => false
    | some last => if last.round < block_ref.round then false else (s.store block_ref).isSome

/-- `DagState::get_uncommitted_blocks_at_slot`, its blocks in cache
order. -/
def get_uncommitted_blocks_at_slot (s : CacheState) (slot : Slot) : List Block :=
  (s.recent_blocks.filter fun bi =>
    bi.block.round = slot.round ∧ bi.block.author = slot.authority).map (·.block)

/-- `DagState::update_block_metadata`, without the threshold clock and
the metrics. -/
def update_block_metadata (s : CacheState) (block : Block) : CacheState :=
  { s with
    recent_blocks := insertInfo s.recent_blocks (BlockInfo.new block)
    recent_refs_by_authority := Function.update s.recent_refs_by_authority block.author
      (SortedSet.insertOrdered block.reference (s.recent_refs_by_authority block.author))
    highest_accepted_round := max s.highest_accepted_round block.round }

/-- `DagState::accept_block`. Indexing the references of an author
outside the committee panics. -/
def accept_block (s : CacheState) (block : Block) : Except String CacheState :=
  if block.round = 0 then .error "Genesis block should not be accepted into DAG."
  else if s.num_authorities ≤ block.author then .error "index out of bounds"
  else if s.contains_block block.reference then .ok s
  else if block.author = s.own_index ∧ !s.skip_equivocation_validation ∧
      s.get_uncommitted_blocks_at_slot block.slot ≠ [] then
    .error "Block Rejected! Attempted to add block to own slot where block(s) already exists."
  else .ok { s.update_block_metadata block with blocks_to_write := s.blocks_to_write ++ [block] }

/-- `DagState::set_committed`. -/
def set_committed (s : CacheState) (block_ref : BlockRef) : Except String (CacheState × Bool) :=
  match s.toDagState.set_committed block_ref with
  | .ok (d, fresh) => .ok ({ s with toDagState := d }, fresh)
  | .error e => .error e

/-- `DagState::add_commit`. -/
def add_commit (s : CacheState) (commit : Commit) : Except String CacheState :=
  match s.toDagState.add_commit commit with
  | .ok d => .ok { s with toDagState := d }
  | .error e => .error e

/-- `DagState::eviction_round`: keep `cached_rounds` below the last round
where there are that many, and evict at most up to the GC round. -/
def eviction_round (last_round gc_round cached_rounds : ℕ) : ℕ :=
  min gc_round (last_round - cached_rounds)

/-- The round of the last reference of a list, genesis when it is empty. -/
def lastRoundOf (refs : List BlockRef) : ℕ := (refs.getLast?.map (·.round)).getD GENESIS_ROUND

/-- `DagState::calculate_authority_eviction_round`. -/
def calculate_authority_eviction_round (s : CacheState) (authority_index : ℕ) : ℕ :=
  eviction_round (lastRoundOf (s.recent_refs_by_authority authority_index)) s.gc_round
    s.cached_rounds

/-- The eviction loop of `flush` for one authority: pop the first
reference while it is at or below the eviction round, removing its
block from the cache. -/
def evictRefs (eviction_round : ℕ) :
    List BlockInfo → List BlockRef → List BlockInfo × List BlockRef
  | recent_blocks, [] => (recent_blocks, [])
  | recent_blocks, block_ref :: rest =>
    if block_ref.round ≤ eviction_round then
      evictRefs eviction_round (removeInfo recent_blocks block_ref) rest
    else (recent_blocks, block_ref :: rest)

/-- One authority's turn in `flush`. -/
def evictAuthority (s : CacheState) (authority_index : ℕ) : CacheState :=
  let eviction_round := s.calculate_authority_eviction_round authority_index
  let evicted := evictRefs eviction_round s.recent_blocks (s.recent_refs_by_authority authority_index)
  { s with
    recent_blocks := evicted.1
    recent_refs_by_authority := Function.update s.recent_refs_by_authority authority_index evicted.2
    evicted_rounds := Function.update s.evicted_rounds authority_index eviction_round }

/-- Storage after writing blocks: each readable under its reference. -/
def writeBlocks (store : BlockRef → Option Block) (blocks : List Block) : BlockRef → Option Block :=
  fun r => (blocks.find? (·.reference = r)).or (store r)

/-- The first half of `flush`: the buffers taken and written to storage. -/
def write_batch (s : CacheState) : CacheState :=
  { s with
    store := writeBlocks s.store s.blocks_to_write
    blocks_to_write := []
    commits_to_write := []
    commit_info_to_write := []
    finalized_commits_to_write := [] }

/-- `DagState::flush`: nothing when nothing is buffered; otherwise write
the buffers, then evict for every authority of the committee. -/
def flush (s : CacheState) : CacheState :=
  if s.blocks_to_write = [] ∧ s.commits_to_write = [] ∧ s.commit_info_to_write = [] ∧
      s.finalized_commits_to_write = [] then s
  else (List.range s.num_authorities).foldl evictAuthority s.write_batch

/-- The calls a run of the cache is made of. -/
inductive Op where
  | accept_block (block : Block)
  | set_committed (block_ref : BlockRef)
  | add_commit (commit : Commit)
  | flush

/-- One call. -/
def step (s : CacheState) : Op → Except String CacheState
  | .accept_block block => s.accept_block block
  | .set_committed block_ref => (s.set_committed block_ref).map Prod.fst
  | .add_commit commit => s.add_commit commit
  | .flush => .ok s.flush

/-- A run of calls, ending at the first panic. -/
def run (s : CacheState) : List Op → Except String CacheState
  | [] => .ok s
  | op :: ops =>
    match s.step op with
    | .ok s' => s'.run ops
    | .error e => .error e

/-- `DagState::new` over empty storage: nothing cached, nothing evicted. -/
def new (genesis : List Block) (gc_depth num_authorities own_index : ℕ)
    (skip_equivocation_validation : Bool) (cached_rounds : ℕ) : CacheState where
  genesis := genesis
  recent_blocks := []
  store := fun _ => none
  last_commit := none
  commits_to_write := []
  gc_depth := gc_depth
  num_authorities := num_authorities
  own_index := own_index
  skip_equivocation_validation := skip_equivocation_validation
  cached_rounds := cached_rounds
  recent_refs_by_authority := fun _ => []
  evicted_rounds := fun _ => 0
  highest_accepted_round := 0
  blocks_to_write := []
  commit_info_to_write := []
  finalized_commits_to_write := []

-- ================================================================ entries by reference

section entries

variable (recent_blocks : List BlockInfo)

/-- Removing an entry loses what was under its reference, and only that. -/
theorem find?_removeInfo (block_ref r : BlockRef) :
    (removeInfo recent_blocks block_ref).find? (fun bi => bi.block.reference = r) =
      if r = block_ref then none else recent_blocks.find? (fun bi => bi.block.reference = r) := by
  unfold removeInfo
  rw [List.find?_filter]
  split
  · next hr =>
      subst hr
      exact List.find?_eq_none.mpr fun bi _ => by simp
  · next hr =>
      congr 1
      funext bi
      by_cases h : bi.block.reference = r
      · simp [h, hr]
      · simp [h]

/-- Inserting an entry puts it under its reference, and changes nothing
else. -/
theorem find?_insertInfo (info : BlockInfo) (r : BlockRef) :
    (insertInfo recent_blocks info).find? (fun bi => bi.block.reference = r) =
      if info.block.reference = r then some info
      else recent_blocks.find? (fun bi => bi.block.reference = r) := by
  have hrest := find?_removeInfo recent_blocks info.block.reference r
  unfold removeInfo at hrest
  unfold insertInfo
  rw [List.find?_append, hrest, List.find?_singleton]
  by_cases h : info.block.reference = r
  · simp [h]
  · have h' : ¬ r = info.block.reference := fun h' => h h'.symm
    simp [h, h']

/-- Removing a list of entries in turn loses what was under each. -/
theorem find?_foldl_removeInfo (refs : List BlockRef) (r : BlockRef) :
    (refs.foldl removeInfo recent_blocks).find? (fun bi => bi.block.reference = r) =
      if r ∈ refs then none else recent_blocks.find? (fun bi => bi.block.reference = r) := by
  induction refs generalizing recent_blocks with
  | nil => simp
  | cons block_ref refs ih =>
      rw [List.foldl_cons, ih, find?_removeInfo]
      by_cases hr : r = block_ref
      · simp [hr]
      · by_cases hmem : r ∈ refs <;> simp [hr, hmem]

end entries

-- ================================================================ one call at a time

@[simp] theorem update_block_metadata_recent_refs_by_authority (s : CacheState) (block : Block) :
    (s.update_block_metadata block).recent_refs_by_authority =
      Function.update s.recent_refs_by_authority block.author
        (SortedSet.insertOrdered block.reference (s.recent_refs_by_authority block.author)) := rfl

@[simp] theorem update_block_metadata_num_authorities (s : CacheState) (block : Block) :
    (s.update_block_metadata block).num_authorities = s.num_authorities := rfl

@[simp] theorem update_block_metadata_gc_round (s : CacheState) (block : Block) :
    (s.update_block_metadata block).gc_round = s.gc_round := rfl

@[simp] theorem update_block_metadata_cached_rounds (s : CacheState) (block : Block) :
    (s.update_block_metadata block).cached_rounds = s.cached_rounds := rfl

@[simp] theorem update_block_metadata_evicted_rounds (s : CacheState) (block : Block) :
    (s.update_block_metadata block).evicted_rounds = s.evicted_rounds := rfl

/-- A block's metadata puts it in the cache under its reference. -/
theorem lookup_update_block_metadata (s : CacheState) (block : Block) (r : BlockRef) :
    (s.update_block_metadata block).lookup r =
      if block.reference = r then some (BlockInfo.new block) else s.lookup r :=
  find?_insertInfo s.recent_blocks (BlockInfo.new block) r

/-- What `accept_block` can do: nothing, or cache a block of round above
genesis, by an authority of the committee, that it does not hold. -/
theorem accept_block_cases {s s' : CacheState} {block : Block} (h : s.accept_block block = .ok s') :
    s' = s ∨ (GENESIS_ROUND < block.round ∧ block.author < s.num_authorities ∧
      s.contains_block block.reference = false ∧
      s' = { s.update_block_metadata block with blocks_to_write := s.blocks_to_write ++ [block] }) := by
  unfold accept_block at h
  split_ifs at h with hround hauthor hcontains hown
  · cases h
    exact Or.inl rfl
  · cases h
    exact Or.inr ⟨Nat.pos_of_ne_zero hround, Nat.lt_of_not_le hauthor, by simpa using hcontains, rfl⟩

/-- `set_committed` changes a flag in the cache, and nothing the cache
keeps track of. -/
theorem set_committed_cases {s s' : CacheState} {r : BlockRef} {fresh : Bool}
    (h : s.set_committed r = .ok (s', fresh)) :
    s' = s ∨ s' = { s with toDagState := s.toDagState.markCommitted r } := by
  unfold set_committed at h
  split at h
  · next d fresh' hd =>
      cases h
      rcases DagState.set_committed_cases hd with rfl | rfl
      · exact Or.inl rfl
      · exact Or.inr rfl
  · cases h

/-- `add_commit` drops the commit, or buffers it as the last commit. -/
theorem add_commit_cases {s s' : CacheState} {commit : Commit} (h : s.add_commit commit = .ok s') :
    s' = s ∨
      s' = { s with last_commit := some commit, commits_to_write := s.commits_to_write ++ [commit] } := by
  unfold add_commit at h
  split at h
  · next d hd =>
      cases h
      rcases DagState.add_commit_cases hd with rfl | rfl
      · exact Or.inl rfl
      · exact Or.inr rfl
  · cases h

-- ================================================================ the invariant

/-- What the cache keeps true between calls. -/
structure Inv (s : CacheState) : Prop where
  sorted : ∀ a, (s.recent_refs_by_authority a).Pairwise (· < ·)
  author : ∀ a, ∀ r ∈ s.recent_refs_by_authority a, r.author = a
  above_genesis : ∀ a, ∀ r ∈ s.recent_refs_by_authority a, GENESIS_ROUND < r.round
  cached : ∀ r, (s.lookup r).isSome ↔ r ∈ s.recent_refs_by_authority r.author
  outside : ∀ a, s.num_authorities ≤ a → s.recent_refs_by_authority a = []
  flushed : s.blocks_to_write = [] → s.commits_to_write = [] → s.commit_info_to_write = [] →
    s.finalized_commits_to_write = [] →
    ∀ a, ∀ r ∈ s.recent_refs_by_authority a, s.calculate_authority_eviction_round a < r.round

/-- A fresh cache keeps it. -/
theorem inv_new (genesis : List Block) (gc_depth num_authorities own_index : ℕ)
    (skip_equivocation_validation : Bool) (cached_rounds : ℕ) :
    (new genesis gc_depth num_authorities own_index skip_equivocation_validation
      cached_rounds).Inv where
  sorted _ := List.Pairwise.nil
  author _ _ hr := absurd hr List.not_mem_nil
  above_genesis _ _ hr := absurd hr List.not_mem_nil
  cached r := by simp [new, DagState.lookup]
  outside _ _ := rfl
  flushed _ _ _ _ _ _ hr := absurd hr List.not_mem_nil

/-- Accepting a block keeps the invariant. -/
theorem accept_block_inv {s s' : CacheState} {block : Block} (h : s.Inv)
    (hs : s.accept_block block = .ok s') : s'.Inv := by
  rcases accept_block_cases hs with rfl | ⟨hround, hauthor, -, rfl⟩
  · exact h
  -- the author's references gain the block's, and no other authority's change
  have hrefs : ∀ a r, r ∈ (s.update_block_metadata block).recent_refs_by_authority a ↔
      (a = block.author ∧ r = block.reference) ∨ r ∈ s.recent_refs_by_authority a := by
    intro a r
    by_cases ha : a = block.author
    · subst ha
      simp [SortedSet.mem_insertOrdered]
    · simp [ha]
  refine ⟨?_, ?_, ?_, ?_, ?_, ?_⟩
  · intro a
    show ((s.update_block_metadata block).recent_refs_by_authority a).Pairwise _
    by_cases ha : a = block.author
    · subst ha
      simpa using SortedSet.pairwise_lt_insertOrdered (h.sorted _)
    · simpa [Function.update_apply, ha] using h.sorted a
  · intro a r hr
    rcases (hrefs a r).mp hr with ⟨rfl, rfl⟩ | hr
    · rfl
    · exact h.author a r hr
  · intro a r hr
    rcases (hrefs a r).mp hr with ⟨-, rfl⟩ | hr
    · exact hround
    · exact h.above_genesis a r hr
  · intro r
    show ((s.update_block_metadata block).lookup r).isSome ↔ _
    rw [lookup_update_block_metadata, hrefs]
    by_cases hr : block.reference = r
    · subst hr
      simp
    · have hr' : ¬ (r.author = block.author ∧ r = block.reference) := fun h' => hr h'.2.symm
      simp only [hr, if_false, hr', false_or]
      exact h.cached r
  · intro a ha
    have ha' : s.num_authorities ≤ a := ha
    have hne : a ≠ block.author := by omega
    show (s.update_block_metadata block).recent_refs_by_authority a = []
    simpa [Function.update_apply, hne] using h.outside a ha'
  · intro hb
    simp at hb

/-- Marking a block committed keeps the invariant. -/
theorem set_committed_inv {s s' : CacheState} {r : BlockRef} {fresh : Bool} (h : s.Inv)
    (hs : s.set_committed r = .ok (s', fresh)) : s'.Inv := by
  rcases set_committed_cases hs with rfl | rfl
  · exact h
  · -- only a flag changes: the cache holds the blocks it held
    have hlookup : ∀ r', (({ s with toDagState := s.toDagState.markCommitted r } : CacheState).lookup
        r').isSome = (s.lookup r').isSome := by
      intro r'
      show ((s.toDagState.markCommitted r).lookup r').isSome = _
      rw [DagState.lookup_markCommitted, Option.isSome_map]
    exact ⟨h.sorted, h.author, h.above_genesis, fun r' => hlookup r' ▸ h.cached r', h.outside,
      h.flushed⟩

/-- Adding a commit keeps the invariant: a commit it keeps is buffered. -/
theorem add_commit_inv {s s' : CacheState} {commit : Commit} (h : s.Inv)
    (hs : s.add_commit commit = .ok s') : s'.Inv := by
  rcases add_commit_cases hs with rfl | rfl
  · exact h
  · refine ⟨h.sorted, h.author, h.above_genesis, h.cached, h.outside, ?_⟩
    intro _ hc
    simp at hc

-- ================================================================ eviction

/-- The eviction loop pops the references at or below the round and
removes their blocks. -/
theorem evictRefs_eq (eviction_round : ℕ) (recent_blocks : List BlockInfo) (refs : List BlockRef) :
    evictRefs eviction_round recent_blocks refs =
      ((refs.takeWhile (·.round ≤ eviction_round)).foldl removeInfo recent_blocks,
        refs.dropWhile (·.round ≤ eviction_round)) := by
  induction refs generalizing recent_blocks with
  | nil => rfl
  | cons block_ref rest ih =>
      by_cases hle : block_ref.round ≤ eviction_round
      · simp [evictRefs, hle, ih, List.takeWhile_cons_of_pos, List.dropWhile_cons_of_pos]
      · simp [evictRefs, hle, List.takeWhile_cons_of_neg, List.dropWhile_cons_of_neg]

/-- In a sorted list of references the ones at or below a round come
first. -/
theorem round_le_closed {refs : List BlockRef} (h : refs.Pairwise (· < ·)) (round : ℕ) :
    refs.Pairwise fun x y => decide (y.round ≤ round) = true → decide (x.round ≤ round) = true :=
  h.imp fun hxy hy => by
    have hle := BlockRef.round_le_of_le (le_of_lt hxy)
    simp only [decide_eq_true_eq] at hy ⊢
    omega

section evictAuthority

variable (s : CacheState) (a : ℕ)

@[simp] theorem evictAuthority_recent_refs_by_authority :
    (s.evictAuthority a).recent_refs_by_authority =
      Function.update s.recent_refs_by_authority a
        ((s.recent_refs_by_authority a).dropWhile (·.round ≤ s.calculate_authority_eviction_round a)) := by
  simp [evictAuthority, evictRefs_eq]

@[simp] theorem evictAuthority_evicted_rounds :
    (s.evictAuthority a).evicted_rounds =
      Function.update s.evicted_rounds a (s.calculate_authority_eviction_round a) := rfl

@[simp] theorem evictAuthority_last_commit : (s.evictAuthority a).last_commit = s.last_commit := rfl
@[simp] theorem evictAuthority_gc_round : (s.evictAuthority a).gc_round = s.gc_round := rfl
@[simp] theorem evictAuthority_cached_rounds :
    (s.evictAuthority a).cached_rounds = s.cached_rounds := rfl

/-- An authority's eviction removes the blocks of the references it pops. -/
theorem lookup_evictAuthority (r : BlockRef) :
    (s.evictAuthority a).lookup r =
      if r ∈ (s.recent_refs_by_authority a).takeWhile (·.round ≤ s.calculate_authority_eviction_round a)
      then none else s.lookup r := by
  show (evictRefs _ s.recent_blocks _).1.find? _ = _
  rw [evictRefs_eq]
  exact find?_foldl_removeInfo _ _ _

/-- Another authority's eviction round is left as it was. -/
theorem calculate_authority_eviction_round_evictAuthority {b : ℕ} (hb : b ≠ a) :
    (s.evictAuthority a).calculate_authority_eviction_round b =
      s.calculate_authority_eviction_round b := by
  simp [calculate_authority_eviction_round, hb]

end evictAuthority

/-- What evicting for a list of authorities in turn does, read off the
state before it. -/
structure EvictedFrom (s t : CacheState) (authorities : List ℕ) : Prop where
  refs : ∀ a, t.recent_refs_by_authority a =
    if a ∈ authorities then
      (s.recent_refs_by_authority a).dropWhile (·.round ≤ s.calculate_authority_eviction_round a)
    else s.recent_refs_by_authority a
  lookup : ∀ r, t.lookup r =
    if ∃ a ∈ authorities,
      r ∈ (s.recent_refs_by_authority a).takeWhile (·.round ≤ s.calculate_authority_eviction_round a)
    then none else s.lookup r
  evicted_rounds : ∀ a, t.evicted_rounds a =
    if a ∈ authorities then s.calculate_authority_eviction_round a else s.evicted_rounds a
  last_commit : t.last_commit = s.last_commit
  gc_round : t.gc_round = s.gc_round
  cached_rounds : t.cached_rounds = s.cached_rounds
  num_authorities : t.num_authorities = s.num_authorities

/-- Evicting for distinct authorities in turn: each authority's eviction
round is the one of the state before, as no other eviction changes it. -/
theorem foldl_evictAuthority (authorities : List ℕ) (hnd : authorities.Nodup) (s : CacheState) :
    EvictedFrom s (authorities.foldl evictAuthority s) authorities := by
  induction authorities generalizing s with
  | nil => exact ⟨fun _ => by simp, fun _ => by simp, fun _ => by simp, rfl, rfl, rfl, rfl⟩
  | cons a rest ih =>
      obtain ⟨ha, hrest⟩ := List.nodup_cons.mp hnd
      have h := ih hrest (s.evictAuthority a)
      -- the authorities after `a` see their references and eviction rounds as before
      have hne : ∀ b ∈ rest, b ≠ a := fun b hb hba => ha (hba ▸ hb)
      have hrefs : ∀ b ∈ rest, (s.evictAuthority a).recent_refs_by_authority b =
          s.recent_refs_by_authority b := fun b hb => by simp [hne b hb]
      have he : ∀ b ∈ rest, (s.evictAuthority a).calculate_authority_eviction_round b =
          s.calculate_authority_eviction_round b :=
        fun b hb => calculate_authority_eviction_round_evictAuthority s a (hne b hb)
      refine ⟨?_, ?_, ?_, h.last_commit, h.gc_round, h.cached_rounds, h.num_authorities⟩
      · intro b
        rw [List.foldl_cons, h.refs b]
        by_cases hb : b ∈ rest
        · simp [hb, hrefs b hb, he b hb]
        · by_cases hba : b = a
          · subst hba
            simp [hb]
          · simp [hb, hba]
      · intro r
        rw [List.foldl_cons, h.lookup r, lookup_evictAuthority]
        have hex : (∃ b ∈ rest, r ∈ ((s.evictAuthority a).recent_refs_by_authority b).takeWhile
              (·.round ≤ (s.evictAuthority a).calculate_authority_eviction_round b)) ↔
            ∃ b ∈ rest, r ∈ (s.recent_refs_by_authority b).takeWhile
              (·.round ≤ s.calculate_authority_eviction_round b) := by
          constructor
          · rintro ⟨b, hb, hr⟩
            exact ⟨b, hb, by rwa [hrefs b hb, he b hb] at hr⟩
          · rintro ⟨b, hb, hr⟩
            exact ⟨b, hb, by rwa [hrefs b hb, he b hb]⟩
        rw [if_congr hex rfl rfl]
        by_cases h₁ : ∃ b ∈ rest, r ∈ (s.recent_refs_by_authority b).takeWhile
            (·.round ≤ s.calculate_authority_eviction_round b)
        · have h₂ : ∃ b ∈ a :: rest, r ∈ (s.recent_refs_by_authority b).takeWhile
              (·.round ≤ s.calculate_authority_eviction_round b) := by
            obtain ⟨b, hb, hr⟩ := h₁
            exact ⟨b, List.mem_cons_of_mem a hb, hr⟩
          rw [if_pos h₁, if_pos h₂]
        · rw [if_neg h₁]
          by_cases h₃ : r ∈ (s.recent_refs_by_authority a).takeWhile
              (·.round ≤ s.calculate_authority_eviction_round a)
          · rw [if_pos h₃, if_pos ⟨a, List.mem_cons_self, h₃⟩]
          · have h₂ : ¬ ∃ b ∈ a :: rest, r ∈ (s.recent_refs_by_authority b).takeWhile
                (·.round ≤ s.calculate_authority_eviction_round b) := by
              rintro ⟨b, hb, hr⟩
              rcases List.mem_cons.mp hb with rfl | hb
              · exact h₃ hr
              · exact h₁ ⟨b, hb, hr⟩
            rw [if_neg h₃, if_neg h₂]
      · intro b
        rw [List.foldl_cons, h.evicted_rounds b]
        by_cases hb : b ∈ rest
        · simp [hb, he b hb]
        · by_cases hba : b = a
          · subst hba
            simp [hb]
          · simp [hb, hba]

-- ================================================================ flush

section flush

variable {s : CacheState}

/-- A flush with nothing buffered changes nothing. -/
theorem flush_of_unbuffered (hb : s.blocks_to_write = [] ∧ s.commits_to_write = [] ∧
    s.commit_info_to_write = [] ∧ s.finalized_commits_to_write = []) : s.flush = s := if_pos hb

/-- Otherwise it evicts, for every authority, what the eviction round of
the state before gives. -/
theorem evictedFrom_flush (hb : ¬ (s.blocks_to_write = [] ∧ s.commits_to_write = [] ∧
    s.commit_info_to_write = [] ∧ s.finalized_commits_to_write = [])) :
    EvictedFrom s s.flush (List.range s.num_authorities) := by
  rw [flush, if_neg hb]
  have h := foldl_evictAuthority (List.range s.num_authorities) List.nodup_range s.write_batch
  exact ⟨h.refs, h.lookup, h.evicted_rounds, h.last_commit, h.gc_round, h.cached_rounds,
    h.num_authorities⟩

/-- A flush keeps exactly the references above their authority's
eviction round. -/
theorem mem_flush_refs (h : s.Inv) (a : ℕ) (r : BlockRef) :
    r ∈ s.flush.recent_refs_by_authority a ↔
      r ∈ s.recent_refs_by_authority a ∧ s.calculate_authority_eviction_round a < r.round := by
  by_cases hb : s.blocks_to_write = [] ∧ s.commits_to_write = [] ∧ s.commit_info_to_write = [] ∧
      s.finalized_commits_to_write = []
  · -- nothing buffered: by the invariant nothing is due for eviction
    rw [flush_of_unbuffered hb]
    obtain ⟨h₁, h₂, h₃, h₄⟩ := hb
    exact ⟨fun hr => ⟨hr, h.flushed h₁ h₂ h₃ h₄ a r hr⟩, And.left⟩
  · rw [(evictedFrom_flush hb).refs a]
    split
    · rw [SortedSet.mem_dropWhile_iff_of_closed (round_le_closed (h.sorted a) _)]
      simp
    · next ha =>
        -- outside the committee there is nothing to evict
        have hout : s.recent_refs_by_authority a = [] :=
          h.outside a (by simpa using ha)
        simp [hout]

/-- A flush keeps exactly the blocks above their author's eviction round. -/
theorem flush_lookup_isSome (h : s.Inv) (r : BlockRef) :
    (s.flush.lookup r).isSome ↔
      (s.lookup r).isSome ∧ s.calculate_authority_eviction_round r.author < r.round := by
  by_cases hb : s.blocks_to_write = [] ∧ s.commits_to_write = [] ∧ s.commit_info_to_write = [] ∧
      s.finalized_commits_to_write = []
  · rw [flush_of_unbuffered hb, h.cached r]
    obtain ⟨h₁, h₂, h₃, h₄⟩ := hb
    exact ⟨fun hr => ⟨hr, h.flushed h₁ h₂ h₃ h₄ _ r hr⟩, And.left⟩
  · -- a block is evicted with its reference, which only its author lists
    have hex : (∃ a ∈ List.range s.num_authorities,
        r ∈ (s.recent_refs_by_authority a).takeWhile
          (·.round ≤ s.calculate_authority_eviction_round a)) ↔
        r ∈ s.recent_refs_by_authority r.author ∧
          r.round ≤ s.calculate_authority_eviction_round r.author := by
      constructor
      · rintro ⟨a, -, hr⟩
        rw [SortedSet.mem_takeWhile_iff_of_closed (round_le_closed (h.sorted a) _)] at hr
        obtain ⟨hr, hle⟩ := hr
        have hauthor := h.author a r hr
        subst hauthor
        exact ⟨hr, by simpa using hle⟩
      · rintro ⟨hr, hle⟩
        have hin : r.author < s.num_authorities := by
          by_contra hout
          rw [h.outside _ (Nat.le_of_not_lt hout)] at hr
          exact List.not_mem_nil hr
        refine ⟨r.author, List.mem_range.mpr hin, ?_⟩
        rw [SortedSet.mem_takeWhile_iff_of_closed (round_le_closed (h.sorted _) _)]
        exact ⟨hr, by simpa using hle⟩
    rw [(evictedFrom_flush hb).lookup r, if_congr hex rfl rfl]
    show (if _ then none else s.lookup r).isSome ↔ _
    by_cases hev : r ∈ s.recent_refs_by_authority r.author ∧
        r.round ≤ s.calculate_authority_eviction_round r.author
    · rw [if_pos hev]
      simp only [Option.isSome_none, Bool.false_eq_true, false_iff, not_and, not_lt]
      exact fun _ => hev.2
    · rw [if_neg hev]
      constructor
      · intro hr
        refine ⟨hr, Nat.lt_of_not_le fun hle => hev ⟨(h.cached r).mp hr, hle⟩⟩
      · exact And.left

/-- A flush keeps every block above the GC round as it was. -/
theorem flush_lookup_of_gc_round_lt {r : BlockRef} (hr : s.gc_round < r.round) :
    s.flush.lookup r = s.lookup r := by
  by_cases hb : s.blocks_to_write = [] ∧ s.commits_to_write = [] ∧ s.commit_info_to_write = [] ∧
      s.finalized_commits_to_write = []
  · rw [flush_of_unbuffered hb]
  · rw [(evictedFrom_flush hb).lookup r, if_neg]
    -- every popped reference is at or below an eviction round, so at or below the GC round
    rintro ⟨a, -, hmem⟩
    have hle : r.round ≤ s.calculate_authority_eviction_round a := by
      simpa using List.mem_takeWhile_imp hmem
    have hgc : s.calculate_authority_eviction_round a ≤ s.gc_round := min_le_left _ _
    omega

/-- Where a flush leaves references, it leaves the authority's eviction
round as it was: the last reference stays. -/
theorem flush_calculate_authority_eviction_round (a : ℕ)
    (hne : s.flush.recent_refs_by_authority a ≠ []) :
    s.flush.calculate_authority_eviction_round a = s.calculate_authority_eviction_round a := by
  by_cases hb : s.blocks_to_write = [] ∧ s.commits_to_write = [] ∧ s.commit_info_to_write = [] ∧
      s.finalized_commits_to_write = []
  · rw [flush_of_unbuffered hb]
  · have hev := evictedFrom_flush hb
    have hlast : lastRoundOf (s.flush.recent_refs_by_authority a) =
        lastRoundOf (s.recent_refs_by_authority a) := by
      rw [hev.refs a] at hne ⊢
      split
      · next =>
          rw [if_pos ‹_›] at hne
          unfold lastRoundOf
          rw [SortedSet.getLast?_dropWhile hne]
      · rfl
    unfold calculate_authority_eviction_round
    rw [hlast, hev.gc_round, hev.cached_rounds]

/-- A flush keeps the invariant. -/
theorem flush_inv (h : s.Inv) : s.flush.Inv := by
  by_cases hb : s.blocks_to_write = [] ∧ s.commits_to_write = [] ∧ s.commit_info_to_write = [] ∧
      s.finalized_commits_to_write = []
  · rw [flush_of_unbuffered hb]
    exact h
  have hev := evictedFrom_flush hb
  refine ⟨?_, ?_, ?_, ?_, ?_, ?_⟩
  · intro a
    rw [hev.refs a]
    split
    · exact (h.sorted a).sublist (List.dropWhile_suffix _).sublist
    · exact h.sorted a
  · intro a r hr
    exact h.author a r ((mem_flush_refs h a r).mp hr).1
  · intro a r hr
    exact h.above_genesis a r ((mem_flush_refs h a r).mp hr).1
  · intro r
    rw [flush_lookup_isSome h, h.cached r, mem_flush_refs h]
  · intro a ha
    rw [hev.num_authorities] at ha
    rw [hev.refs a, if_neg (by simpa using ha)]
    exact h.outside a ha
  · intro _ _ _ _ a r hr
    rw [flush_calculate_authority_eviction_round a (List.ne_nil_of_mem hr)]
    exact ((mem_flush_refs h a r).mp hr).2

end flush

-- ================================================================ runs

/-- A call marking a block committed is `set_committed`, its flag dropped. -/
theorem step_set_committed {s s' : CacheState} {block_ref : BlockRef}
    (hs : s.step (.set_committed block_ref) = .ok s') :
    ∃ fresh, s.set_committed block_ref = .ok (s', fresh) := by
  cases hc : s.set_committed block_ref with
  | error e => simp [step, hc, Except.map] at hs
  | ok p =>
      obtain ⟨s₁, fresh⟩ := p
      have hs₁ : s₁ = s' := by simpa [step, hc, Except.map] using hs
      exact ⟨fresh, hs₁ ▸ rfl⟩

/-- Every call keeps the invariant. -/
theorem step_inv {s s' : CacheState} {op : Op} (h : s.Inv) (hs : s.step op = .ok s') : s'.Inv := by
  cases op with
  | accept_block block => exact accept_block_inv h hs
  | set_committed block_ref =>
      obtain ⟨fresh, hc⟩ := step_set_committed hs
      exact set_committed_inv h hc
  | add_commit commit => exact add_commit_inv h hs
  | flush =>
      cases hs
      exact flush_inv h

/-- Every run keeps the invariant. -/
theorem run_inv {s s' : CacheState} {ops : List Op} (h : s.Inv) (hs : s.run ops = .ok s') :
    s'.Inv := by
  induction ops generalizing s with
  | nil =>
      cases hs
      exact h
  | cons op ops ih =>
      unfold run at hs
      split at hs
      · next s₁ hstep => exact ih (step_inv h hstep) hs
      · cases hs

-- ================================================================ evicted rounds

/-- The last reference of a sorted list has the highest round. -/
theorem round_le_lastRoundOf {refs : List BlockRef} (h : refs.Pairwise (· < ·)) {r : BlockRef}
    (hr : r ∈ refs) : r.round ≤ lastRoundOf refs := by
  induction refs generalizing r with
  | nil => exact absurd hr List.not_mem_nil
  | cons x rest ih =>
      cases rest with
      | nil =>
          rcases List.mem_singleton.mp hr with rfl
          simp [lastRoundOf]
      | cons y rest =>
          obtain ⟨hx, hrest⟩ := List.pairwise_cons.mp h
          have hlast : lastRoundOf (x :: y :: rest) = lastRoundOf (y :: rest) := by
            simp [lastRoundOf, List.getLast?_cons_cons]
          rw [hlast]
          rcases List.mem_cons.mp hr with rfl | hr
          · exact le_trans (BlockRef.round_le_of_le (le_of_lt (hx y List.mem_cons_self)))
              (ih hrest List.mem_cons_self)
          · exact ih hrest hr

/-- A sorted list holding every reference of another ends no lower. -/
theorem lastRoundOf_le {refs refs' : List BlockRef} (h' : refs'.Pairwise (· < ·))
    (hsub : ∀ r ∈ refs, r ∈ refs') : lastRoundOf refs ≤ lastRoundOf refs' := by
  cases hl : refs.getLast? with
  | none => simp [lastRoundOf, hl, GENESIS_ROUND]
  | some r =>
      have hle := round_le_lastRoundOf h' (hsub r (List.mem_of_getLast? hl))
      simpa [lastRoundOf, hl] using hle

/-- No authority's evicted round is past its eviction round. -/
def EvictedInv (s : CacheState) : Prop :=
  ∀ a, s.evicted_rounds a ≤ s.calculate_authority_eviction_round a

/-- The leader round of a call that adds a commit. -/
def Op.commitRound : Op → Option ℕ
  | .add_commit commit => some commit.round
  | _ => none

/-- The commits a run adds come with leader rounds that never go down,
from the last commit's on, as the commit rule produces them. -/
def CommitsAdvance (s : CacheState) (ops : List Op) : Prop :=
  (s.last_commit_round :: ops.filterMap Op.commitRound).Pairwise (· ≤ ·)

/-- What keeps the evicted rounds from going down along a run. -/
structure Advancing (s : CacheState) (ops : List Op) : Prop where
  inv : s.Inv
  evicted : s.EvictedInv
  cached_rounds : 1 ≤ s.cached_rounds
  commits : CommitsAdvance s ops

section advancing

variable {s s' : CacheState}

/-- Accepting a block never lowers an eviction round: the author's last
round can only go up. -/
theorem accept_block_eviction_round_le {block : Block} (h : s.Inv)
    (hs : s.accept_block block = .ok s') (a : ℕ) :
    s.calculate_authority_eviction_round a ≤ s'.calculate_authority_eviction_round a := by
  have hsorted' := (accept_block_inv h hs).sorted a
  rcases accept_block_cases hs with rfl | ⟨-, -, -, rfl⟩
  · exact le_refl _
  · have hsorted : ((s.update_block_metadata block).recent_refs_by_authority a).Pairwise (· < ·) :=
      hsorted'
    have hsub : ∀ r ∈ s.recent_refs_by_authority a,
        r ∈ (s.update_block_metadata block).recent_refs_by_authority a := by
      intro r hr
      by_cases ha : a = block.author
      · subst ha
        simp [SortedSet.mem_insertOrdered, hr]
      · simpa [ha] using hr
    have hlast := lastRoundOf_le hsorted hsub
    unfold calculate_authority_eviction_round eviction_round
    show min s.gc_round (lastRoundOf _ - s.cached_rounds) ≤
      min s.gc_round (lastRoundOf ((s.update_block_metadata block).recent_refs_by_authority a) -
        s.cached_rounds)
    omega

/-- A commit of a leader round no lower than the last one never lowers
an eviction round: the GC round can only go up. -/
theorem add_commit_eviction_round_le {commit : Commit} (hround : s.last_commit_round ≤ commit.round)
    (hs : s.add_commit commit = .ok s') (a : ℕ) :
    s.calculate_authority_eviction_round a ≤ s'.calculate_authority_eviction_round a := by
  rcases add_commit_cases hs with rfl | rfl
  · exact le_refl _
  · unfold calculate_authority_eviction_round eviction_round DagState.gc_round
      DagState.calculate_gc_round
    show min (s.last_commit_round - s.gc_depth)
        (lastRoundOf (s.recent_refs_by_authority a) - s.cached_rounds) ≤
      min (commit.round - s.gc_depth) (lastRoundOf (s.recent_refs_by_authority a) - s.cached_rounds)
    omega

/-- With at least one round cached, a flush keeps each authority's last
reference: its eviction round is below that reference's round. -/
theorem flush_last_mem (h : s.Inv) (hc : 1 ≤ s.cached_rounds) {a : ℕ} {r : BlockRef}
    (hr : (s.recent_refs_by_authority a).getLast? = some r) :
    r ∈ s.flush.recent_refs_by_authority a := by
  have hmem := List.mem_of_getLast? hr
  have habove := h.above_genesis a r hmem
  have hevict : s.calculate_authority_eviction_round a ≤ r.round - s.cached_rounds := by
    unfold calculate_authority_eviction_round eviction_round lastRoundOf
    rw [hr]
    exact min_le_right _ _
  refine (mem_flush_refs h a r).mpr ⟨hmem, ?_⟩
  unfold GENESIS_ROUND at habove
  omega

/-- With at least one round cached, a flush keeps the evicted rounds at
or below the eviction rounds, and lowers none of them. -/
theorem flush_evicted (h : s.Inv) (he : s.EvictedInv) (hc : 1 ≤ s.cached_rounds) :
    s.flush.EvictedInv ∧ ∀ a, s.evicted_rounds a ≤ s.flush.evicted_rounds a := by
  by_cases hb : s.blocks_to_write = [] ∧ s.commits_to_write = [] ∧ s.commit_info_to_write = [] ∧
      s.finalized_commits_to_write = []
  · rw [flush_of_unbuffered hb]
    exact ⟨he, fun _ => le_refl _⟩
  have hev := evictedFrom_flush hb
  -- the flush sets an evicted round to the eviction round it had, or leaves it
  have hset : ∀ a, s.evicted_rounds a ≤ s.flush.evicted_rounds a ∧
      s.flush.evicted_rounds a ≤ s.calculate_authority_eviction_round a := by
    intro a
    rw [hev.evicted_rounds a]
    split
    · exact ⟨he a, le_refl _⟩
    · exact ⟨le_refl _, he a⟩
  refine ⟨fun a => ?_, fun a => (hset a).1⟩
  cases hl : (s.recent_refs_by_authority a).getLast? with
  | none =>
      -- nothing cached: the eviction round was genesis
      have hzero : s.calculate_authority_eviction_round a = 0 := by
        simp [calculate_authority_eviction_round, eviction_round, lastRoundOf, hl, GENESIS_ROUND]
      exact le_trans (hset a).2 (hzero ▸ Nat.zero_le _)
  | some r =>
      have hne : s.flush.recent_refs_by_authority a ≠ [] :=
        List.ne_nil_of_mem (flush_last_mem h hc hl)
      rw [flush_calculate_authority_eviction_round a hne]
      exact (hset a).2

/-- A call that leaves the evicted rounds and lowers no eviction round
keeps them at or below the eviction rounds. -/
theorem evictedInv_of_le (he : s.EvictedInv) (hevicted : s'.evicted_rounds = s.evicted_rounds)
    (hle : ∀ a, s.calculate_authority_eviction_round a ≤ s'.calculate_authority_eviction_round a) :
    s'.EvictedInv ∧ ∀ a, s.evicted_rounds a ≤ s'.evicted_rounds a :=
  ⟨fun a => hevicted ▸ le_trans (he a) (hle a), fun _ => hevicted ▸ le_refl _⟩

/-- Every call, with at least one round cached and a commit no lower than
the last, keeps the evicted rounds at or below the eviction rounds and
lowers none of them. -/
theorem step_evicted {op : Op} (h : s.Inv) (he : s.EvictedInv) (hc : 1 ≤ s.cached_rounds)
    (hround : ∀ commit, op = .add_commit commit → s.last_commit_round ≤ commit.round)
    (hs : s.step op = .ok s') : s'.EvictedInv ∧ ∀ a, s.evicted_rounds a ≤ s'.evicted_rounds a := by
  cases op with
  | accept_block block =>
      refine evictedInv_of_le he ?_ (accept_block_eviction_round_le h hs)
      rcases accept_block_cases hs with rfl | ⟨-, -, -, rfl⟩ <;> rfl
  | set_committed block_ref =>
      obtain ⟨fresh, hset⟩ := step_set_committed hs
      rcases set_committed_cases hset with rfl | rfl
      · exact evictedInv_of_le he rfl fun _ => le_refl _
      · exact evictedInv_of_le he rfl fun _ => le_refl _
  | add_commit commit =>
      refine evictedInv_of_le he ?_ (add_commit_eviction_round_le (hround commit rfl) hs)
      rcases add_commit_cases hs with rfl | rfl <;> rfl
  | flush =>
      cases hs
      exact flush_evicted h he hc

/-- Every call keeps the number of cached rounds. -/
theorem step_cached_rounds {op : Op} (hs : s.step op = .ok s') : s'.cached_rounds = s.cached_rounds := by
  cases op with
  | accept_block block => rcases accept_block_cases hs with rfl | ⟨-, -, -, rfl⟩ <;> rfl
  | set_committed block_ref =>
      obtain ⟨fresh, hset⟩ := step_set_committed hs
      rcases set_committed_cases hset with rfl | rfl <;> rfl
  | add_commit commit => rcases add_commit_cases hs with rfl | rfl <;> rfl
  | flush =>
      cases hs
      by_cases hb : s.blocks_to_write = [] ∧ s.commits_to_write = [] ∧
          s.commit_info_to_write = [] ∧ s.finalized_commits_to_write = []
      · rw [flush_of_unbuffered hb]
      · exact (evictedFrom_flush hb).cached_rounds

/-- A call other than adding a commit keeps the last commit round. -/
theorem step_last_commit_round {op : Op} (hop : op.commitRound = none) (hs : s.step op = .ok s') :
    s'.last_commit_round = s.last_commit_round := by
  cases op with
  | accept_block block => rcases accept_block_cases hs with rfl | ⟨-, -, -, rfl⟩ <;> rfl
  | set_committed block_ref =>
      obtain ⟨fresh, hset⟩ := step_set_committed hs
      rcases set_committed_cases hset with rfl | rfl <;> rfl
  | add_commit commit => cases hop
  | flush =>
      cases hs
      by_cases hb : s.blocks_to_write = [] ∧ s.commits_to_write = [] ∧
          s.commit_info_to_write = [] ∧ s.finalized_commits_to_write = []
      · rw [flush_of_unbuffered hb]
      · unfold DagState.last_commit_round
        rw [(evictedFrom_flush hb).last_commit]

/-- The commits still to come keep coming no lower than the last one. -/
theorem commitsAdvance_step {op : Op} {ops : List Op} (h : CommitsAdvance s (op :: ops))
    (hs : s.step op = .ok s') : CommitsAdvance s' ops := by
  unfold CommitsAdvance at h ⊢
  cases hop : op.commitRound with
  | none =>
      rw [List.filterMap_cons_none hop] at h
      rw [step_last_commit_round hop hs]
      exact h
  | some round =>
      rw [List.filterMap_cons_some hop] at h
      -- only adding a commit has a round: its commit is dropped or becomes the last
      cases op with
      | add_commit commit =>
          cases hop
          rcases add_commit_cases hs with rfl | rfl
          · exact List.pairwise_cons.mpr ⟨fun x hx => List.rel_of_pairwise_cons h
              (List.mem_cons_of_mem _ hx), h.of_cons.of_cons⟩
          · exact h.of_cons
      | accept_block block => cases hop
      | set_committed block_ref => cases hop
      | flush => cases hop

/-- One call of a run that keeps the evicted rounds from going down. -/
theorem advancing_step {op : Op} {ops : List Op} (h : s.Advancing (op :: ops))
    (hs : s.step op = .ok s') :
    s'.Advancing ops ∧ ∀ a, s.evicted_rounds a ≤ s'.evicted_rounds a := by
  -- a commit the run adds is no lower than the last one
  have hround : ∀ commit, op = .add_commit commit → s.last_commit_round ≤ commit.round := by
    rintro commit rfl
    exact List.rel_of_pairwise_cons h.commits (by simp [Op.commitRound])
  obtain ⟨hevicted, hmono⟩ := step_evicted h.inv h.evicted h.cached_rounds hround hs
  refine ⟨⟨step_inv h.inv hs, hevicted, ?_, commitsAdvance_step h.commits hs⟩, hmono⟩
  rw [step_cached_rounds hs]
  exact h.cached_rounds

/-- A run keeps what keeps the evicted rounds from going down. -/
theorem advancing_run {ops ops' : List Op} (h : s.Advancing (ops ++ ops'))
    (hs : s.run ops = .ok s') : s'.Advancing ops' := by
  induction ops generalizing s with
  | nil =>
      cases hs
      exact h
  | cons op ops ih =>
      unfold run at hs
      split at hs
      · next s₁ hstep => exact ih (advancing_step h hstep).1 hs
      · cases hs

end advancing

-- ================================================================ the cache over runs

/-- Over every run from a cache that keeps the invariant (a fresh one
does, `inv_new`): the cache holds exactly the blocks its authorities
list, each listed by its author; a flush then evicts exactly the blocks
at or below their author's eviction round, `min(gc_round, last round -
cached_rounds)`, and keeps every block above the GC round and, with a
round cached, each authority's last block; and when the commits come no
lower than the last one, no call lowers an evicted round. -/
theorem block_cache_consistent (s₀ : CacheState) (h₀ : s₀.Inv) (ops : List Op) (s : CacheState)
    (hrun : s₀.run ops = .ok s) :
    (∀ r, (s.lookup r).isSome ↔ ∃ a, r ∈ s.recent_refs_by_authority a) ∧
    (∀ a, ∀ r ∈ s.recent_refs_by_authority a, r.author = a) ∧
    (∀ a r, r ∈ s.flush.recent_refs_by_authority a ↔
      r ∈ s.recent_refs_by_authority a ∧ s.calculate_authority_eviction_round a < r.round) ∧
    (∀ r, (s.flush.lookup r).isSome ↔
      (s.lookup r).isSome ∧ s.calculate_authority_eviction_round r.author < r.round) ∧
    (∀ r, s.gc_round < r.round → s.flush.lookup r = s.lookup r) ∧
    (1 ≤ s.cached_rounds → ∀ a r, (s.recent_refs_by_authority a).getLast? = some r →
      r ∈ s.flush.recent_refs_by_authority a) ∧
    (1 ≤ s₀.cached_rounds → s₀.EvictedInv → CommitsAdvance s₀ ops →
      ∀ pre op post s₁ s₂, ops = pre ++ op :: post → s₀.run pre = .ok s₁ →
        s₁.step op = .ok s₂ → ∀ a, s₁.evicted_rounds a ≤ s₂.evicted_rounds a) := by
  have h := run_inv h₀ hrun
  refine ⟨fun r => ?_, h.author, mem_flush_refs h, flush_lookup_isSome h,
    fun _ hr => flush_lookup_of_gc_round_lt hr, fun hc _ _ hr => flush_last_mem h hc hr, ?_⟩
  · -- a block listed by any authority is listed by its author
    rw [h.cached r]
    constructor
    · exact fun hr => ⟨r.author, hr⟩
    · rintro ⟨a, hr⟩
      exact h.author a r hr ▸ hr
  · intro hc he hadv pre op post s₁ s₂ hops hpre hstep
    subst hops
    exact (advancing_step (advancing_run ⟨h₀, he, hc, hadv⟩ hpre) hstep).2

/-- A block of round 5 by authority 0. -/
def roundFiveBlock : Block := ⟨0, 5, 0, 7, 0, [], [], []⟩

/-- A fresh cache of one authority keeping one round. -/
def oneAuthorityCache : CacheState := new [] 0 1 5 false 1

/-- The block, a commit led at round 4, and a flush. -/
def commitAtFourOps : List Op :=
  [.accept_block roundFiveBlock, .add_commit ⟨1, 0, 0, ⟨4, 0, 0⟩, []⟩, .flush]

/-- The cache after them. -/
def commitAtFourCache : CacheState :=
  (oneAuthorityCache.run commitAtFourOps).toOption.getD oneAuthorityCache

theorem block_cache_consistent_commit_at_four :
    oneAuthorityCache.Inv ∧ oneAuthorityCache.run commitAtFourOps = .ok commitAtFourCache ∧
    (∀ r, (commitAtFourCache.lookup r).isSome ↔
      ∃ a, r ∈ commitAtFourCache.recent_refs_by_authority a) ∧
    (∀ a, ∀ r ∈ commitAtFourCache.recent_refs_by_authority a, r.author = a) ∧
    (∀ a r, r ∈ commitAtFourCache.flush.recent_refs_by_authority a ↔
      r ∈ commitAtFourCache.recent_refs_by_authority a ∧
        commitAtFourCache.calculate_authority_eviction_round a < r.round) ∧
    (∀ r, (commitAtFourCache.flush.lookup r).isSome ↔
      (commitAtFourCache.lookup r).isSome ∧
        commitAtFourCache.calculate_authority_eviction_round r.author < r.round) ∧
    (∀ r, commitAtFourCache.gc_round < r.round →
      commitAtFourCache.flush.lookup r = commitAtFourCache.lookup r) ∧
    (1 ≤ commitAtFourCache.cached_rounds →
      ∀ a r, (commitAtFourCache.recent_refs_by_authority a).getLast? = some r →
        r ∈ commitAtFourCache.flush.recent_refs_by_authority a) ∧
    (1 ≤ oneAuthorityCache.cached_rounds → oneAuthorityCache.EvictedInv →
      CommitsAdvance oneAuthorityCache commitAtFourOps →
      ∀ pre op post s₁ s₂, commitAtFourOps = pre ++ op :: post → oneAuthorityCache.run pre = .ok s₁ →
        s₁.step op = .ok s₂ → ∀ a, s₁.evicted_rounds a ≤ s₂.evicted_rounds a) :=
  have h₀ : oneAuthorityCache.Inv := inv_new [] 0 1 5 false 1
  have hrun : oneAuthorityCache.run commitAtFourOps = .ok commitAtFourCache := rfl
  ⟨h₀, hrun, block_cache_consistent oneAuthorityCache h₀ commitAtFourOps commitAtFourCache hrun⟩

/-- Without the commits in order the evicted rounds can go down: after
the run above authority 0's evicted round is 4; a commit led at round 1,
which `add_commit` takes as the next index, and a flush take it to 1. -/
theorem evicted_round_decreases_on_older_commit :
    (oneAuthorityCache.run commitAtFourOps).toOption.map (·.evicted_rounds 0) = some 4 ∧
    (oneAuthorityCache.run (commitAtFourOps ++ [.add_commit ⟨2, 0, 0, ⟨1, 0, 0⟩, []⟩, .flush])).toOption.map
      (·.evicted_rounds 0) = some 1 := by
  decide

end CacheState

end MysoCore.Consensus
