/-
Commit timestamps (consensus/core/src/linearizer.rs): the stake-weighted
median of the timestamps of the leader's parents, raised to the previous
commit's timestamp. `DagState::add_commit` panics on a commit that goes
back in time.

# Monotonicity

`calculate_commit_timestamp` takes the maximum with the last commit's
timestamp, and `add_commit` makes the new commit the last one, so over a
run the commit timestamps never decrease (`handle_commit_timestamps`) and
`add_commit` accepts every commit it is given (`add_commit_collected`).

# The median under faults

`median_timestamps_by_stake_inner` is `Scan.firstAbove` over the parents
sorted by timestamp, with wrapping `u64` additions and half the wrapped
total as threshold. Parents of faulty authors carry at most `f`, and the
total passed the quorum check, so it is at least `2 f + 1`. The scan
cannot stop while every parent so far is faulty (at most `f`, not more
than half), and it must stop before only faulty parents remain (the total
less at most `f`, more than half). The wrapped sums are read at those two
points only, where they are the plain sum and the total less the faulty
suffix.
-/
import MysoCore.Lib.Scan
import MysoCore.Consensus.Linearizer.Run

namespace MysoCore.Consensus

open Word Committee

/-- The stake of the authors of a list of blocks. -/
def blocksStake (committee : Committee) (blocks : List Block) : ℕ :=
  (blocks.map fun b => committee.stake b.author).sum

@[simp] theorem blocksStake_nil (committee : Committee) : blocksStake committee [] = 0 := rfl

@[simp] theorem blocksStake_append (committee : Committee) (l l' : List Block) :
    blocksStake committee (l ++ l') = blocksStake committee l + blocksStake committee l' := by
  simp [blocksStake]

theorem blocksStake_perm (committee : Committee) {l l' : List Block} (h : l.Perm l') :
    blocksStake committee l = blocksStake committee l' :=
  (h.map _).sum_eq

/-- Blocks all of faulty authors weigh no more than all the faulty blocks
of a list they are drawn from. -/
theorem blocksStake_le_of_faulty (committee : Committee) (faulty : ℕ → Bool)
    {l l' : List Block} (hsub : List.Sublist l' l) (hf : ∀ b ∈ l', faulty b.author = true) :
    blocksStake committee l' ≤ blocksStake committee (l.filter fun b => faulty b.author) := by
  have hself : l'.filter (fun b => faulty b.author) = l' := List.filter_eq_self.mpr hf
  have hs : List.Sublist l' (l.filter fun b => faulty b.author) := hself ▸ hsub.filter _
  exact (hs.map _).sum_le_sum fun _ _ => Nat.zero_le _

-- ================================================= the scan

theorem medianScan_eq_firstAbove (half : ℕ) :
    ∀ (acc : ℕ) (l : List (ℕ × ℕ)),
      medianScan half acc l = Scan.firstAbove (wrappingAdd 64) half acc l
  | _, [] => rfl
  | acc, (ts, stake) :: rest => by
      simp only [medianScan, Scan.firstAbove, medianScan_eq_firstAbove half _ rest]

/-- From zero, the wrapping running total is the plain sum reduced once. -/
theorem total_wrappingAdd (l : List (ℕ × ℕ)) :
    Scan.total (wrappingAdd 64) 0 l = (l.map Prod.snd).sum % 2 ^ 64 := by
  have h : (l.map Prod.snd).foldl (wrappingAdd 64) (0 % 2 ^ 64) =
      (0 + (l.map Prod.snd).sum) % 2 ^ 64 := foldl_wrappingAdd _ _
  rw [Nat.zero_mod, Nat.zero_add, List.foldl_map] at h
  exact h

theorem total_timestamps (committee : Committee) (l : List Block) :
    Scan.total (wrappingAdd 64) 0 (l.map fun b => (b.timestamp_ms, committee.stake b.author)) =
      blocksStake committee l % 2 ^ 64 := by
  rw [total_wrappingAdd, List.map_map]
  rfl

/-- Sorting the pairs by timestamp is sorting the blocks by timestamp. -/
theorem mergeSort_timestamps (committee : Committee) (blocks : List Block) :
    (blocks.map fun b => (b.timestamp_ms, committee.stake b.author)).mergeSort
        (fun a b => decide (a.1 ≤ b.1)) =
      (blocks.mergeSort fun a b => decide (a.timestamp_ms ≤ b.timestamp_ms)).map
        fun b => (b.timestamp_ms, committee.stake b.author) := by
  symm
  exact List.map_mergeSort fun _ _ _ _ => rfl

theorem mergeSort_timestamps_sorted (blocks : List Block) :
    (blocks.mergeSort fun a b => decide (a.timestamp_ms ≤ b.timestamp_ms)).Pairwise
      fun a b => a.timestamp_ms ≤ b.timestamp_ms := by
  have h : (blocks.mergeSort fun a b => decide (a.timestamp_ms ≤ b.timestamp_ms)).Pairwise
      fun a b => decide (a.timestamp_ms ≤ b.timestamp_ms) = true :=
    List.pairwise_mergeSort
      (fun a b c hab hbc => by simp only [decide_eq_true_eq] at hab hbc ⊢; omega)
      (fun a b => by simp only [Bool.or_eq_true, decide_eq_true_eq]; omega) blocks
  exact h.imp fun hab => by simpa using hab

/-- Where the median is taken: the blocks sorted by timestamp split at the
median's block, the running stake passing half the total there and not
before. -/
theorem median_split {committee : Committee} {blocks : List Block} {total : ℕ} (hpos : 0 < total)
    (htotal : total = blocksStake committee blocks % 2 ^ 64) :
    ∃ pre x post,
      blocks.mergeSort (fun a b => decide (a.timestamp_ms ≤ b.timestamp_ms)) = pre ++ x :: post ∧
      median_timestamps_by_stake_inner
          (blocks.map fun b => (b.timestamp_ms, committee.stake b.author)) total = x.timestamp_ms ∧
      total / 2 < blocksStake committee (pre ++ [x]) % 2 ^ 64 ∧
      (pre = [] ∨ blocksStake committee pre % 2 ^ 64 ≤ total / 2) := by
  have hperm := List.mergeSort_perm blocks fun a b => decide (a.timestamp_ms ≤ b.timestamp_ms)
  unfold median_timestamps_by_stake_inner
  dsimp only
  rw [mergeSort_timestamps, medianScan_eq_firstAbove]
  cases hscan : Scan.firstAbove (wrappingAdd 64) (total / 2) 0
      ((blocks.mergeSort fun a b => decide (a.timestamp_ms ≤ b.timestamp_ms)).map
        fun b => (b.timestamp_ms, committee.stake b.author)) with
  | none =>
      -- the whole total is more than half of it, so the scan stops somewhere
      exfalso
      rcases Scan.firstAbove_eq_none hscan with hnil | hle
      · rw [List.map_eq_nil_iff] at hnil
        rw [hnil] at hperm
        rw [List.nil_perm.mp hperm] at htotal
        simp [blocksStake] at htotal
        omega
      · rw [total_timestamps, blocksStake_perm committee hperm, ← htotal] at hle
        omega
  | some v =>
      obtain ⟨pre, x, post, hsplit, hx, hpass, hbefore⟩ := Scan.firstAbove_eq_some hscan
      obtain ⟨preB, rest, hB, hpre, hrest⟩ := List.map_eq_append_iff.mp hsplit
      obtain ⟨xB, postB, rfl, hxB, -⟩ := List.map_eq_cons_iff.mp hrest
      subst hpre hxB
      refine ⟨preB, xB, postB, hB, hx.symm, ?_, ?_⟩
      · have hmap : (preB.map fun b => (b.timestamp_ms, committee.stake b.author)) ++
            [(xB.timestamp_ms, committee.stake xB.author)] =
            (preB ++ [xB]).map fun b => (b.timestamp_ms, committee.stake b.author) := by simp
        rw [hmap, total_timestamps] at hpass
        exact hpass
      · rcases hbefore with hnil | hle
        · exact Or.inl (List.map_eq_nil_iff.mp hnil)
        · rw [total_timestamps] at hle
          exact Or.inr hle

/-- The median lies between two timestamps of honest parents, whenever
the parents of faulty authors weigh at most `f`. -/
theorem median_timestamp_by_stake_between {epoch : ℕ} {authorities : List Authority}
    {c : Committee} (hc : Committee.new epoch authorities = some c) (faulty : ℕ → Bool)
    {blocks : List Block} {t : ℕ}
    (hfaulty : blocksStake c (blocks.filter fun b => faulty b.author) ≤ (c.total_stake - 1) / 3)
    (h : median_timestamp_by_stake c blocks = .ok t) :
    ∃ b₁ ∈ blocks, ∃ b₂ ∈ blocks, faulty b₁.author = false ∧ faulty b₂.author = false ∧
      b₁.timestamp_ms ≤ t ∧ t ≤ b₂.timestamp_ms := by
  have hbuilt := built_of_new hc
  have hquorum := validity_add_fault_le_quorum hbuilt
  rw [hbuilt.validity_eq] at hquorum
  unfold median_timestamp_by_stake at h
  dsimp only at h
  split at h
  · cases h
  split at h
  · cases h
  next hq =>
  cases h
  have htotal : ((blocks.map fun b => (b.timestamp_ms, c.stake b.author)).map Prod.snd).sum % 2 ^ 64 =
      blocksStake c blocks % 2 ^ 64 := by
    simp [blocksStake, List.map_map, Function.comp_def]
  rw [htotal] at hq ⊢
  have hq' : c.quorum_threshold ≤ blocksStake c blocks % 2 ^ 64 := Nat.le_of_not_lt hq
  have hpos : 0 < blocksStake c blocks % 2 ^ 64 := by omega
  obtain ⟨pre, x, post, hB, ht, hpass, hbefore⟩ := median_split hpos rfl
  rw [ht]
  have hperm := List.mergeSort_perm blocks fun a b => decide (a.timestamp_ms ≤ b.timestamp_ms)
  rw [hB] at hperm
  have hsorted := mergeSort_timestamps_sorted blocks
  rw [hB, List.pairwise_append] at hsorted
  obtain ⟨-, hx, hcross⟩ := hsorted
  have hmem : ∀ b ∈ pre ++ x :: post, b ∈ blocks := fun b hb => hperm.mem_iff.mp hb
  -- the faulty parents weigh the same in sorted order
  have hΦ : blocksStake c ((pre ++ x :: post).filter fun b => faulty b.author) ≤
      (c.total_stake - 1) / 3 := by
    rw [blocksStake_perm c (hperm.filter _)]
    exact hfaulty
  have hsum : blocksStake c blocks = blocksStake c pre + blocksStake c (x :: post) := by
    rw [← blocksStake_perm c hperm, blocksStake_append]
  -- an honest parent at or before the median
  have hlow : ∃ b ∈ blocks, faulty b.author = false ∧ b.timestamp_ms ≤ x.timestamp_ms := by
    by_cases hex : ∃ b ∈ pre ++ [x], faulty b.author = false
    · obtain ⟨b, hb, hbf⟩ := hex
      refine ⟨b, hmem b (by simp at hb ⊢; tauto), hbf, ?_⟩
      rcases List.mem_append.mp hb with hb | hb
      · exact hcross b hb x List.mem_cons_self
      · rw [List.mem_singleton.mp hb]
    · have hall : ∀ b ∈ pre ++ [x], faulty b.author = true := fun b hb => by
        simpa using fun hf => hex ⟨b, hb, hf⟩
      have hsub : List.Sublist (pre ++ [x]) (pre ++ x :: post) :=
        List.Sublist.append_left (List.cons_sublist_cons.mpr (List.nil_sublist post)) pre
      have hle := blocksStake_le_of_faulty c faulty hsub hall
      have hmod := Nat.mod_le (blocksStake c (pre ++ [x])) (2 ^ 64)
      omega
  -- an honest parent at or after the median
  have hhigh : ∃ b ∈ blocks, faulty b.author = false ∧ x.timestamp_ms ≤ b.timestamp_ms := by
    by_cases hex : ∃ b ∈ x :: post, faulty b.author = false
    · obtain ⟨b, hb, hbf⟩ := hex
      refine ⟨b, hmem b (List.mem_append_right pre hb), hbf, ?_⟩
      rcases List.mem_cons.mp hb with rfl | hb
      · exact le_refl _
      · exact List.rel_of_pairwise_cons hx hb
    · have hall : ∀ b ∈ x :: post, faulty b.author = true := fun b hb => by
        simpa using fun hf => hex ⟨b, hb, hf⟩
      have hle := blocksStake_le_of_faulty c faulty (List.sublist_append_right pre _) hall
      -- the parents before the median weigh the total less a faulty suffix
      have hlt : blocksStake c blocks % 2 ^ 64 < 2 ^ 64 := Nat.mod_lt _ (Nat.two_pow_pos 64)
      rcases hbefore with rfl | hpre
      · -- every parent is faulty: they weigh at most `f`, below the quorum
        have hall : blocksStake c blocks = blocksStake c (x :: post) := by simpa using hsum
        have hmod := Nat.mod_le (blocksStake c (x :: post)) (2 ^ 64)
        omega
      · -- the wrapped stake before the median is the total less the faulty rest
        rw [hsum] at hq' hpre
        omega
  obtain ⟨b₁, hb₁, hf₁, h₁⟩ := hlow
  obtain ⟨b₂, hb₂, hf₂, h₂⟩ := hhigh
  exact ⟨b₁, hb₁, b₂, hb₂, hf₁, hf₂, h₁, h₂⟩

/-- Parents of a quorum of stake that does not wrap always give a median. -/
theorem median_timestamp_by_stake_ok {c : Committee} {blocks : List Block}
    (hpos : 0 < c.quorum_threshold) (hquorum : c.quorum_threshold ≤ blocksStake c blocks)
    (hwrap : blocksStake c blocks < 2 ^ 64) :
    ∃ t, median_timestamp_by_stake c blocks = .ok t := by
  have htotal : ((blocks.map fun b => (b.timestamp_ms, c.stake b.author)).map Prod.snd).sum % 2 ^ 64 =
      blocksStake c blocks := by
    rw [Nat.mod_eq_of_lt (by simpa [blocksStake, List.map_map, Function.comp_def] using hwrap)]
    simp [blocksStake, List.map_map, Function.comp_def]
  have hne : blocks ≠ [] := by
    rintro rfl
    simp at hquorum
    omega
  unfold median_timestamp_by_stake
  dsimp only
  rw [htotal, if_neg (by simpa using hne), if_neg (by omega)]
  exact ⟨_, rfl⟩

namespace Linearizer

variable (commitDigest : Commit → ℕ)

/-- Over a run, the sub-dags' timestamps never go below the last commit's
nor below each other, and they are the timestamps of the commits
buffered. -/
theorem handle_commit_timestamps (context : Context) :
    ∀ {leaders : List Block} {s s' : DagState} {subs : List CommittedSubDag},
      handle_commit commitDigest context s leaders = .ok (subs, s') →
      (s.last_commit_timestamp_ms :: subs.map CommittedSubDag.timestamp_ms).IsChain (· ≤ ·) ∧
        ∃ commits, s'.commits_to_write = s.commits_to_write ++ commits ∧
          commits.map Commit.timestamp_ms = subs.map CommittedSubDag.timestamp_ms
  | [], s, s', subs, h => by
      simp only [handle_commit, Except.ok.injEq, Prod.mk.injEq] at h
      obtain ⟨rfl, rfl⟩ := h
      exact ⟨List.IsChain.singleton _, [], by simp, rfl⟩
  | l :: ls, s, s', subs, h => by
      obtain ⟨d, c, s₁, s₂, rest, hcol, hadd, hrest, rfl⟩ := handle_commit_cons_eq_ok commitDigest h
      obtain ⟨-, hts, hc, -, -⟩ := collect_sub_dag_and_commit_eq_ok commitDigest hcol
      have hs₂ : s₂ = { s₁ with last_commit := some c,
                                commits_to_write := s₁.commits_to_write ++ [c] } := by
        rw [add_commit_collected commitDigest hcol] at hadd
        exact (Except.ok.inj hadd).symm
      -- the commit just added sets the timestamp the rest of the run starts from
      have hlast : s₂.last_commit_timestamp_ms = d.timestamp_ms := by
        rw [hs₂, hc]
        rfl
      obtain ⟨hchain, commits, hwrite, hmap⟩ := handle_commit_timestamps context hrest
      rw [hlast] at hchain
      obtain ⟨rb, rfl⟩ := linearize_sub_dag_frame
        (collect_sub_dag_and_commit_eq_ok commitDigest hcol).1
      refine ⟨List.IsChain.cons_cons (calculate_commit_timestamp_ge hts) hchain, c :: commits,
        ?_, by simp [hmap, hc]⟩
      rw [hwrite, hs₂]
      simp

/-- Commit timestamps: the commit every step builds is accepted by
`add_commit` (which so never reaches its panic on time going back); over
any run the commit timestamps never decrease; and the median of any
parents, when parents of faulty authors weigh at most `f`, lies between
the timestamps of two honest parents. -/
theorem commit_timestamps_monotone_and_bounded :
    (∀ (context : Context) (s s₁ : DagState) (leader : Block) (d : CommittedSubDag) (c : Commit),
      collect_sub_dag_and_commit commitDigest context s leader = .ok (d, c, s₁) →
      s₁.add_commit c = .ok { s₁ with last_commit := some c,
                                      commits_to_write := s₁.commits_to_write ++ [c] }) ∧
    (∀ (context : Context) (s s' : DagState) (leaders : List Block) (subs : List CommittedSubDag),
      handle_commit commitDigest context s leaders = .ok (subs, s') →
      (s.last_commit_timestamp_ms :: subs.map CommittedSubDag.timestamp_ms).IsChain (· ≤ ·) ∧
        ∃ commits, s'.commits_to_write = s.commits_to_write ++ commits ∧
          commits.map Commit.timestamp_ms = subs.map CommittedSubDag.timestamp_ms) ∧
    (∀ (epoch : ℕ) (authorities : List Authority) (c : Committee) (faulty : ℕ → Bool)
      (blocks : List Block) (t : ℕ),
      Committee.new epoch authorities = some c →
      blocksStake c (blocks.filter fun b => faulty b.author) ≤ (c.total_stake - 1) / 3 →
      median_timestamp_by_stake c blocks = .ok t →
      ∃ b₁ ∈ blocks, ∃ b₂ ∈ blocks, faulty b₁.author = false ∧ faulty b₂.author = false ∧
        b₁.timestamp_ms ≤ t ∧ t ≤ b₂.timestamp_ms) :=
  ⟨fun _ _ _ _ _ _ h => add_commit_collected commitDigest h,
    fun context _ _ _ _ h => handle_commit_timestamps commitDigest context h,
    fun _ _ _ faulty _ _ hc hf h => median_timestamp_by_stake_between hc faulty hf h⟩

-- Four authorities of stake one; the parent of authority 3 is faulty and
-- stamped far in the future.

/-- The parents of the sample median, one per authority. -/
def sampleParents : List Block :=
  [⟨0, 1, 0, 10, 10, [], [], []⟩, ⟨0, 1, 1, 11, 20, [], [], []⟩, ⟨0, 1, 2, 12, 30, [], [], []⟩,
    ⟨0, 1, 3, 13, 1000, [], [], []⟩]

/-- The committee `Committee::new` builds for four authorities of stake one. -/
def sampleCommittee : Committee := ⟨0, 4, 3, 2, [⟨1⟩, ⟨1⟩, ⟨1⟩, ⟨1⟩]⟩

theorem commit_timestamps_sample :
    handle_commit Commit.index sampleContext sampleDagState [sampleLeader₁, sampleLeader₂] =
        .ok (sampleSubDags, sampleFinalState) ∧
      Committee.new 0 [⟨1⟩, ⟨1⟩, ⟨1⟩, ⟨1⟩] = some sampleCommittee ∧
      blocksStake sampleCommittee (sampleParents.filter fun b => decide (b.author = 3)) ≤
        (sampleCommittee.total_stake - 1) / 3 ∧
      median_timestamp_by_stake sampleCommittee sampleParents = .ok 30 ∧
      ((sampleDagState.last_commit_timestamp_ms ::
          sampleSubDags.map CommittedSubDag.timestamp_ms).IsChain (· ≤ ·) ∧
        ∃ commits, sampleFinalState.commits_to_write = sampleDagState.commits_to_write ++ commits ∧
          commits.map Commit.timestamp_ms = sampleSubDags.map CommittedSubDag.timestamp_ms) ∧
      ∃ b₁ ∈ sampleParents, ∃ b₂ ∈ sampleParents, decide (b₁.author = 3) = false ∧
        decide (b₂.author = 3) = false ∧ b₁.timestamp_ms ≤ 30 ∧ 30 ≤ b₂.timestamp_ms := by
  have hnew : Committee.new 0 [⟨1⟩, ⟨1⟩, ⟨1⟩, ⟨1⟩] = some sampleCommittee := by decide
  have hfaulty : blocksStake sampleCommittee (sampleParents.filter fun b => decide (b.author = 3)) ≤
      (sampleCommittee.total_stake - 1) / 3 := by decide
  have hmedian : median_timestamp_by_stake sampleCommittee sampleParents = .ok 30 := by
    simp +decide [median_timestamp_by_stake, median_timestamps_by_stake_inner, medianScan,
      sampleParents, sampleCommittee, Committee.stake, List.mergeSort,
      List.MergeSort.Internal.splitInTwo]
  have hthm := commit_timestamps_monotone_and_bounded Commit.index
  exact ⟨handle_commit_sample, hnew, hfaulty, hmedian,
    hthm.2.1 sampleContext sampleDagState sampleFinalState _ _ handle_commit_sample,
    hthm.2.2 0 _ sampleCommittee (fun a => decide (a = 3)) sampleParents 30 hnew hfaulty hmedian⟩

end Linearizer

end MysoCore.Consensus
