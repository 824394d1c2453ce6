/-
Runs of `Linearizer::handle_commit` (consensus/core/src/linearizer.rs):
leader after leader, each expanded into a sub-dag whose commit is
buffered in the DAG state before the next leader is expanded.

# The abstract run

`LinearizedRun` states what a run commits without the code: every
sub-dag is the `SubDagSpec` of its leader, from the references committed
so far (the cache's flags at the start, then each sub-dag's blocks) and
from the GC round the previous leader set. `CommitChain` is the chain of
buffered commits: consecutive indices, each naming the digest of the
commit before it.

# Results

`handle_commit_run` proves, by induction over the leaders, that every
successful run of the code is a `LinearizedRun` and extends the buffered
commits by a `CommitChain`; `LinearizedRun.nodup` reads off that no block
is committed twice.
-/
import MysoCore.Consensus.Linearizer.Traversal

namespace MysoCore.Consensus.Linearizer

open DagState

variable (commitDigest : Commit → ℕ)

/-- The sub-dags a run should produce for the leaders, from the blocks the
state `s` holds, the references `committed` before and the GC round. -/
def LinearizedRun (s : DagState) :
    (BlockRef → Prop) → ℕ → List Block → List CommittedSubDag → Prop
  | _, _, [], [] => True
  | committed, gc_round, l :: ls, d :: ds =>
      d.leader = l.reference ∧ SubDagSpec s gc_round committed l d.blocks ∧
        LinearizedRun s (fun r => committed r ∨ r ∈ d.blocks.map Block.reference)
          (s.calculate_gc_round l.round) ls ds
  | _, _, _, _ => False

/-- Commits that follow the commit with the given index and digest. -/
def CommitChain : ℕ → ℕ → List Commit → Prop
  | _, _, [] => True
  | index, digest, c :: cs =>
      c.index = index + 1 ∧ c.previous_digest = digest ∧ CommitChain c.index (commitDigest c) cs

-- ================================================= the abstract run

/-- A sub-dag spec only reads the blocks the state holds. -/
theorem SubDagSpec.of_get_block_eq {s t : DagState} {gc_round : ℕ}
    {committed : BlockRef → Prop} {leader : Block} {blocks : List Block}
    (h : s.get_block = t.get_block) (hs : SubDagSpec s gc_round committed leader blocks) :
    SubDagSpec t gc_round committed leader blocks := by
  have hlink : AncestorLink s gc_round = AncestorLink t gc_round := by
    unfold AncestorLink
    rw [h]
  refine ⟨fun b => ?_, hs.nodup, hs.fresh, hs.above_gc, hs.below_leader, hs.sorted⟩
  rw [← h, ← hlink]
  exact hs.mem_iff b

/-- No block of a run is committed before it, and none twice. -/
theorem LinearizedRun.nodup {s : DagState} :
    ∀ {committed : BlockRef → Prop} {gc_round : ℕ} {ls : List Block} {ds : List CommittedSubDag},
      LinearizedRun s committed gc_round ls ds →
      (ds.flatMap fun d => d.blocks.map Block.reference).Nodup ∧
        ∀ d ∈ ds, ∀ b ∈ d.blocks, ¬ committed b.reference
  | _, _, [], [], _ => ⟨List.nodup_nil, by simp⟩
  | committed, gc_round, l :: ls, d :: ds, ⟨_, hspec, hrun⟩ => by
      obtain ⟨hnd, hfresh⟩ := LinearizedRun.nodup hrun
      refine ⟨?_, ?_⟩
      · rw [List.flatMap_cons]
        refine List.nodup_append.mpr ⟨hspec.nodup, hnd, ?_⟩
        -- a later sub-dag's block is not among the earlier one's
        intro a ha b hb hab
        obtain ⟨d', hd', hb'⟩ := List.mem_flatMap.mp hb
        obtain ⟨b', hb'', rfl⟩ := List.mem_map.mp hb'
        exact hfresh d' hd' b' hb'' (Or.inr (hab ▸ ha))
      · intro d' hd' b hb
        rcases List.mem_cons.mp hd' with rfl | hd'
        · exact hspec.fresh b hb
        · exact fun h => hfresh d' hd' b hb (Or.inl h)
  | _, _, [], _ :: _, h => h.elim
  | _, _, _ :: _, [], h => h.elim

-- ================================================= one commit

/-- `calculate_commit_timestamp` never goes below the last commit's
timestamp. -/
theorem calculate_commit_timestamp_ge {committee : Committee} {s : DagState} {leader : Block}
    {last t : ℕ} (h : calculate_commit_timestamp committee s leader last = .ok t) : last ≤ t := by
  unfold calculate_commit_timestamp at h
  dsimp only at h
  split at h
  · cases h
  · split at h
    · cases h
    · cases h
      exact le_max_right _ _

/-- What `collect_sub_dag_and_commit` builds. -/
theorem collect_sub_dag_and_commit_eq_ok {context : Context} {s s₁ : DagState} {leader : Block}
    {d : CommittedSubDag} {c : Commit}
    (h : collect_sub_dag_and_commit commitDigest context s leader = .ok (d, c, s₁)) :
    linearize_sub_dag leader s = .ok (d.blocks, s₁) ∧
      calculate_commit_timestamp context.committee s₁ leader s.last_commit_timestamp_ms =
        .ok d.timestamp_ms ∧
      c = ⟨s.last_commit_index + 1, s.last_commit_digest commitDigest, d.timestamp_ms,
        leader.reference, d.blocks.map Block.reference⟩ ∧
      d.leader = leader.reference ∧ d.commit_ref = ⟨c.index, commitDigest c⟩ := by
  unfold collect_sub_dag_and_commit at h
  dsimp only at h
  split at h
  · cases h
  · next to_commit s₂ hlin =>
      split at h
      · cases h
      · next t ht =>
          simp only [Except.ok.injEq, Prod.mk.injEq] at h
          obtain ⟨rfl, rfl, rfl⟩ := h
          exact ⟨hlin, ht, rfl, rfl, rfl⟩

theorem handle_commit_cons_eq_ok {context : Context} {s s' : DagState} {l : Block}
    {ls : List Block} {subs : List CommittedSubDag}
    (h : handle_commit commitDigest context s (l :: ls) = .ok (subs, s')) :
    ∃ d c s₁ s₂ rest, collect_sub_dag_and_commit commitDigest context s l = .ok (d, c, s₁) ∧
      s₁.add_commit c = .ok s₂ ∧ handle_commit commitDigest context s₂ ls = .ok (rest, s') ∧
      subs = d :: rest := by
  simp only [handle_commit] at h
  split at h
  · cases h
  · next d c s₁ hcol =>
      split at h
      · cases h
      · next s₂ hadd =>
          cases hrest : handle_commit commitDigest context s₂ ls with
          | error e => simp [hrest, Except.map] at h
          | ok r =>
              obtain ⟨rest, s''⟩ := r
              simp only [hrest, Except.map, Except.ok.injEq, Prod.mk.injEq] at h
              obtain ⟨rfl, rfl⟩ := h
              exact ⟨d, c, s₁, s₂, rest, hcol, hadd, hrest, rfl⟩

/-- The commit `collect_sub_dag_and_commit` builds is always accepted by
`add_commit`: it carries the next index and a timestamp no lower than
the last, and the sub-dag traversal left the last commit alone. -/
theorem add_commit_collected {context : Context} {s s₁ : DagState} {leader : Block}
    {d : CommittedSubDag} {c : Commit}
    (h : collect_sub_dag_and_commit commitDigest context s leader = .ok (d, c, s₁)) :
    s₁.add_commit c = .ok { s₁ with last_commit := some c,
                                    commits_to_write := s₁.commits_to_write ++ [c] } := by
  obtain ⟨hlin, hts, rfl, -, -⟩ := collect_sub_dag_and_commit_eq_ok commitDigest h
  obtain ⟨rb, rfl⟩ := linearize_sub_dag_frame hlin
  exact add_commit_next rfl (calculate_commit_timestamp_ge hts)

-- ================================================= runs

/-- Every successful run of `handle_commit` is a `LinearizedRun` over the
blocks of `s₀`, and buffers a chain of commits, one per sub-dag. -/
theorem handle_commit_run {s₀ : DagState} (hbelow : AncestorsBelow s₀) (context : Context) :
    ∀ {leaders : List Block} {s s' : DagState} {subs : List CommittedSubDag},
      s.get_block = s₀.get_block → s.gc_depth = s₀.gc_depth →
      (∀ l ∈ leaders, s₀.get_block l.reference = some l) →
      handle_commit commitDigest context s leaders = .ok (subs, s') →
      LinearizedRun s₀ (Committed s) s.gc_round leaders subs ∧
        ∃ commits, s'.commits_to_write = s.commits_to_write ++ commits ∧
          subs.map CommittedSubDag.commit_ref = commits.map (fun c => ⟨c.index, commitDigest c⟩) ∧
          CommitChain commitDigest s.last_commit_index (s.last_commit_digest commitDigest) commits
  | [], s, s', subs, _, _, _, h => by
      simp only [handle_commit, Except.ok.injEq, Prod.mk.injEq] at h
      obtain ⟨rfl, rfl⟩ := h
      exact ⟨trivial, [], by simp, rfl, trivial⟩
  | l :: ls, s, s', subs, hg, hd, hleaders, h => by
      obtain ⟨d, c, s₁, s₂, rest, hcol, hadd, hrest, rfl⟩ := handle_commit_cons_eq_ok commitDigest h
      obtain ⟨hlin, -, hc, hlead, href⟩ := collect_sub_dag_and_commit_eq_ok commitDigest hcol
      have hl : s.get_block l.reference = some l := hg ▸ hleaders l List.mem_cons_self
      have hbelow' : AncestorsBelow s := by
        unfold AncestorsBelow
        rw [hg]
        exact hbelow
      obtain ⟨hspec, hmarks, hget, rb, hs₁⟩ := linearize_sub_dag_spec hlin hl hbelow'
      have hs₂ : s₂ = { s₁ with last_commit := some c,
                                commits_to_write := s₁.commits_to_write ++ [c] } := by
        rw [add_commit_collected commitDigest hcol] at hadd
        exact (Except.ok.inj hadd).symm
      -- the state after the commit: the cache of `s₁`, and `c` as the last commit
      have hcommitted : Committed s₂ = fun r => Committed s r ∨ r ∈ d.blocks.map Block.reference := by
        rw [hs₂]
        exact funext fun r => propext (hmarks r)
      have hget₂ : s₂.get_block = s₀.get_block := by
        rw [hs₂, ← hg, ← hget]
        rfl
      have hd₂ : s₂.gc_depth = s₀.gc_depth := by
        rw [hs₂, hs₁]
        exact hd
      have hgc₂ : s₂.gc_round = s₀.calculate_gc_round l.round := by
        rw [hs₂, hs₁]
        simp [gc_round, calculate_gc_round, last_commit_round, Commit.round, hc, hd]
      have hwrite₂ : s₂.commits_to_write = s.commits_to_write ++ [c] := by
        rw [hs₂, hs₁]
      have hidx₂ : s₂.last_commit_index = c.index := by
        rw [hs₂]
        rfl
      have hdigest₂ : s₂.last_commit_digest commitDigest = commitDigest c := by
        rw [hs₂]
        rfl
      obtain ⟨hrun, commits, hwrite, hrefs, hchain⟩ :=
        handle_commit_run hbelow context hget₂ hd₂
          (fun l' hl' => hleaders l' (List.mem_cons_of_mem l hl')) hrest
      rw [hcommitted, hgc₂] at hrun
      rw [hidx₂, hdigest₂] at hchain
      rw [hwrite₂] at hwrite
      refine ⟨⟨hlead, hspec.of_get_block_eq hg, hrun⟩, c :: commits, by simp [hwrite],
        by simp [href, hrefs], ?_⟩
      subst hc
      exact ⟨rfl, rfl, hchain⟩

/-- Over any run of `handle_commit` on a DAG state whose blocks obey the
verifier's round rule and that holds each leader under its reference, no
block is committed twice; every sub-dag is exactly the blocks reachable
from its leader through blocks above the GC round in force that were not
committed before (by the cache's flags or by an earlier sub-dag), lies
above that GC round and at most at its leader's round, and is sorted by
round and author; and the buffered commits carry consecutive indices from
the last commit's, each naming the digest of the one before. -/
theorem handle_commit_commits_causal_history (context : Context) {s s' : DagState}
    {leaders : List Block} {subs : List CommittedSubDag}
    (hleaders : ∀ l ∈ leaders, s.get_block l.reference = some l) (hbelow : AncestorsBelow s)
    (h : handle_commit commitDigest context s leaders = .ok (subs, s')) :
    (subs.flatMap fun d => d.blocks.map Block.reference).Nodup ∧
      LinearizedRun s (Committed s) s.gc_round leaders subs ∧
      ∃ commits, s'.commits_to_write = s.commits_to_write ++ commits ∧
        subs.map CommittedSubDag.commit_ref = commits.map (fun c => ⟨c.index, commitDigest c⟩) ∧
        CommitChain commitDigest s.last_commit_index (s.last_commit_digest commitDigest) commits := by
  obtain ⟨hrun, hcommits⟩ := handle_commit_run commitDigest hbelow context rfl rfl hleaders h
  exact ⟨hrun.nodup.1, hrun, hcommits⟩

-- A DAG of one authority: a block at round one and two leaders above it.

/-- The round-one block of the sample DAG. -/
def sampleBlock : Block := ⟨0, 1, 0, 1, 100, [], [], []⟩
/-- The first sample leader, at round two over `sampleBlock`. -/
def sampleLeader₁ : Block := ⟨0, 2, 0, 2, 200, [⟨1, 0, 1⟩], [], []⟩
/-- The second sample leader, at round three over the first. -/
def sampleLeader₂ : Block := ⟨0, 3, 0, 3, 300, [⟨2, 0, 2⟩], [], []⟩

/-- The sample DAG state: the three blocks cached and uncommitted, no
commit yet, a GC depth of ten. -/
def sampleDagState : DagState :=
  ⟨[], [⟨sampleBlock, false, false⟩, ⟨sampleLeader₁, false, false⟩, ⟨sampleLeader₂, false, false⟩],
    fun _ => none, none, [], 10⟩

/-- A single authority of stake one. -/
def sampleContext : Context := ⟨⟨0, 1, 1, 1, [⟨1⟩]⟩, false⟩

/-- The sub-dags of the sample run: the first leader commits itself and
the round-one block, the second only itself. -/
def sampleSubDags : List CommittedSubDag :=
  [⟨⟨2, 0, 2⟩, [sampleBlock, sampleLeader₁], 100, ⟨1, 1⟩, true, false, [], false⟩,
   ⟨⟨3, 0, 3⟩, [sampleLeader₂], 200, ⟨2, 2⟩, true, false, [], false⟩]

/-- The state after the sample run, with commit indices as digests. -/
def sampleFinalState : DagState :=
  ⟨[], [⟨sampleBlock, true, false⟩, ⟨sampleLeader₁, true, false⟩, ⟨sampleLeader₂, true, false⟩],
    fun _ => none, some ⟨2, 1, 200, ⟨3, 0, 3⟩, [⟨3, 0, 3⟩]⟩,
    [⟨1, 0, 100, ⟨2, 0, 2⟩, [⟨1, 0, 1⟩, ⟨2, 0, 2⟩]⟩, ⟨2, 1, 200, ⟨3, 0, 3⟩, [⟨3, 0, 3⟩]⟩], 10⟩

/-- The sample run, evaluated. -/
theorem handle_commit_sample :
    handle_commit Commit.index sampleContext sampleDagState [sampleLeader₁, sampleLeader₂] =
      .ok (sampleSubDags, sampleFinalState) := by
  simp +decide [handle_commit, collect_sub_dag_and_commit, linearize_sub_dag, linearizeLoop_nil,
    linearizeLoop_cons, sampleDagState, sampleLeader₁, sampleLeader₂, sampleBlock, sampleContext,
    sampleSubDags, sampleFinalState, set_committed, lookup, gc_round, calculate_gc_round,
    last_commit_round, uncommittedAncestors, is_committed, markCommitted, expectAll, get_blocks,
    get_block, pushAncestors, Block.reference, calculate_commit_timestamp,
    median_timestamp_by_stake, median_timestamps_by_stake_inner, medianScan, add_commit,
    last_commit_index, last_commit_digest, last_commit_timestamp_ms, Committee.stake,
    sort_sub_dag_blocks, Except.map, Commit.round, List.mergeSort,
    List.MergeSort.Internal.splitInTwo]

theorem handle_commit_two_leaders :
    (∀ l ∈ [sampleLeader₁, sampleLeader₂], sampleDagState.get_block l.reference = some l) ∧
      AncestorsBelow sampleDagState ∧
      handle_commit Commit.index sampleContext sampleDagState [sampleLeader₁, sampleLeader₂] =
        .ok (sampleSubDags, sampleFinalState) ∧
      ((sampleSubDags.flatMap fun d => d.blocks.map Block.reference).Nodup ∧
        LinearizedRun sampleDagState (Committed sampleDagState) sampleDagState.gc_round
          [sampleLeader₁, sampleLeader₂] sampleSubDags ∧
        ∃ commits, sampleFinalState.commits_to_write = sampleDagState.commits_to_write ++ commits ∧
          sampleSubDags.map CommittedSubDag.commit_ref =
            commits.map (fun c => ⟨c.index, Commit.index c⟩) ∧
          CommitChain Commit.index sampleDagState.last_commit_index
            (sampleDagState.last_commit_digest Commit.index) commits) := by
  have hleaders : ∀ l ∈ [sampleLeader₁, sampleLeader₂],
      sampleDagState.get_block l.reference = some l := by decide
  have hbelow : AncestorsBelow sampleDagState :=
    ancestorsBelow_of_blocks (by simp [sampleDagState]) (by decide) (by simp [sampleDagState])
  exact ⟨hleaders, hbelow, handle_commit_sample,
    handle_commit_commits_causal_history Commit.index sampleContext hleaders hbelow
      handle_commit_sample⟩

end MysoCore.Consensus.Linearizer
