/-
The leader swap table (consensus/core/src/leader_schedule.rs): from the
reputation scores of the last commit range, the authorities whose
leader slots are handed to others and the ones they are handed to.

# The model

`new_inner` shuffles the authorities with a generator seeded by the
commit index and then sorts them stably by score, best first. The
shuffle only orders authorities of equal score; the model takes it as a
parameter, any function that permutes its list. The good nodes are the
longest prefix of the best-first list whose stake stays within the
cutoff `swap_stake_threshold * total_stake / 100`, the bad nodes the
same prefix of the worst-first list. `swap` replaces a bad leader by a
good node drawn by a generator seeded by the slot; the model takes the
draw as an index into the good nodes, and `choose` on an empty list is
`None`, so an empty list of good nodes makes `expect` panic. Host names
and the scores kept for debugging are not modelled. A panic is `none`.

# What the table guarantees

Each list stays within the cutoff (`retrieve_first_nodes_stake_le`).
What fails is the promise that a bad node always has a replacement: the
best scorer alone can exceed the cutoff while the worst scorers fit, and
then a bad leader has no one to be swapped with
(`swap_table_panics_without_good_nodes`).
With distinct scores the shuffle changes nothing, so this happens for
every permutation it could produce (`sort_by_score_of_perm`).
-/
import Mathlib
import MysoCore.Consensus.Committee

namespace MysoCore.Consensus

/-- `ReputationScores`: a score per authority, by index. -/
structure ReputationScores where
  scores_per_authority : List ℕ
  deriving DecidableEq, Repr

/-- `ReputationScores::authorities_by_score`: each index with its score;
an index the committee does not have panics. -/
def ReputationScores.authorities_by_score (r : ReputationScores) (committee : Committee) :
    Option (List (ℕ × ℕ)) :=
  r.scores_per_authority.zipIdx.mapM fun e =>
    if committee.is_valid_index e.2 then some (e.2, e.1) else none

/-- `LeaderSwapTable`: the good nodes with their stake, the bad nodes
with theirs (a map the code only asks for keys), and the authorities by
score, best first. -/
structure LeaderSwapTable where
  good_nodes : List (ℕ × ℕ)
  bad_nodes : List (ℕ × ℕ)
  reputation_scores_desc : List (ℕ × ℕ)
  deriving DecidableEq, Repr

namespace LeaderSwapTable

/-- The default table: nothing swapped. -/
def default : LeaderSwapTable := ⟨[], [], []⟩

/-- `retrieve_first_nodes`: the authorities taken in order, with their
stake, until the accumulated stake passes the cutoff; the one that
passes it is left out. -/
def retrieve_first_nodes (committee : Committee) (stake_threshold : ℕ) :
    ℕ → List (ℕ × ℕ) → List (ℕ × ℕ)
  | _, [] => []
  | stake, (authority_idx, _) :: rest =>
      if stake + committee.stake authority_idx > stake_threshold * committee.total_stake / 100 then []
      else (authority_idx, committee.stake authority_idx) ::
        retrieve_first_nodes committee stake_threshold (stake + committee.stake authority_idx) rest

/-- The stable sort by score, best first. -/
def sortByScore (authorities : List (ℕ × ℕ)) : List (ℕ × ℕ) :=
  authorities.mergeSort fun a₁ a₂ => decide (a₂.2 ≤ a₁.2)

/-- `LeaderSwapTable::new_inner`, with `shuffle` for the seeded shuffle. -/
def new_inner (committee : Committee) (swap_stake_threshold : ℕ)
    (shuffle : List (ℕ × ℕ) → List (ℕ × ℕ)) (reputation_scores : ReputationScores) :
    Option LeaderSwapTable :=
  if ¬ swap_stake_threshold ≤ 33 then none
  else if reputation_scores.scores_per_authority = [] then some default
  else do
    let authorities_by_score ← reputation_scores.authorities_by_score committee
    if authorities_by_score.length ≠ committee.size then none
    else
      let sorted := sortByScore (shuffle authorities_by_score)
      some ⟨retrieve_first_nodes committee swap_stake_threshold 0 sorted,
        retrieve_first_nodes committee swap_stake_threshold 0 sorted.reverse, sorted⟩

/-- `LeaderSwapTable::swap`: a bad leader's replacement, `draw` being
the seeded generator's pick among the good nodes; `none` is a panic. -/
def swap (table : LeaderSwapTable) (leader : ℕ) (leader_offset : ℕ) (draw : ℕ) :
    Option (Option ℕ) :=
  if leader ∈ table.bad_nodes.map Prod.fst then
    if leader_offset ≠ 0 then none
    else (table.good_nodes[draw % table.good_nodes.length]?).map fun e => some e.1
  else some none

/-- `LeaderSchedule::elect_leader`: the stake-based leader of the slot,
swapped if it is bad. -/
def elect_leader (table : LeaderSwapTable) (leader : ℕ) (leader_offset : ℕ) (draw : ℕ) :
    Option ℕ :=
  (table.swap leader leader_offset draw).map fun swapped => swapped.getD leader

-- ============================================================ the cutoff

/-- The stake of a list of nodes with their stakes. -/
def stakeOf (nodes : List (ℕ × ℕ)) : ℕ := (nodes.map Prod.snd).sum

/-- What `retrieve_first_nodes` takes, with what it started from, stays
within the cutoff. -/
theorem retrieve_first_nodes_stake_le (committee : Committee) (stake_threshold : ℕ) :
    ∀ (stake : ℕ) (authorities : List (ℕ × ℕ)),
      stake ≤ stake_threshold * committee.total_stake / 100 →
      stake + stakeOf (retrieve_first_nodes committee stake_threshold stake authorities) ≤
        stake_threshold * committee.total_stake / 100
  | stake, [], h => by simpa [retrieve_first_nodes, stakeOf] using h
  | stake, (authority_idx, score) :: rest, h => by
      unfold retrieve_first_nodes
      split
      · simpa [stakeOf] using h
      · next hle =>
          have ih := retrieve_first_nodes_stake_le committee stake_threshold
            (stake + committee.stake authority_idx) rest (by omega)
          simp only [stakeOf, List.map_cons, List.sum_cons] at ih ⊢
          omega

-- ============================================================ the sort

/-- A best-first list of authorities with distinct scores is in strictly
decreasing score order. -/
theorem pairwise_gt_of_sortByScore {authorities : List (ℕ × ℕ)}
    (hnodup : (authorities.map Prod.snd).Nodup) :
    (sortByScore authorities).Pairwise fun a b => b.2 < a.2 := by
  have hperm : (sortByScore authorities).Perm authorities := List.mergeSort_perm _ _
  have hle : (sortByScore authorities).Pairwise fun a b => decide (b.2 ≤ a.2) = true :=
    List.pairwise_mergeSort
      (fun a b c hab hbc => by simp only [decide_eq_true_eq] at *; omega)
      (fun a b => by simp only [Bool.or_eq_true, decide_eq_true_eq]; omega) authorities
  have hne : (sortByScore authorities).Pairwise fun a b => a.2 ≠ b.2 :=
    List.pairwise_map.mp ((hperm.map Prod.snd).nodup_iff.mpr hnodup)
  refine (hle.and hne).imp fun ⟨h₁, h₂⟩ => ?_
  simp only [decide_eq_true_eq] at h₁
  omega

/-- With distinct scores the order the shuffle leaves does not matter:
every permutation sorts to the same list. -/
theorem sort_by_score_of_perm {authorities shuffled : List (ℕ × ℕ)}
    (hnodup : (authorities.map Prod.snd).Nodup) (hperm : shuffled.Perm authorities) :
    sortByScore shuffled = sortByScore authorities := by
  have hnodup' : (shuffled.map Prod.snd).Nodup := (hperm.map Prod.snd).nodup_iff.mpr hnodup
  -- a strict order is antisymmetric because it never holds both ways
  exact List.Perm.eq_of_pairwise (fun a b _ _ h₁ h₂ => absurd h₁ (by omega))
    (pairwise_gt_of_sortByScore hnodup') (pairwise_gt_of_sortByScore hnodup)
    (((List.mergeSort_perm _ _).trans hperm).trans (List.mergeSort_perm _ _).symm)

/-- A list already best-first is its own sort. -/
theorem sortByScore_of_pairwise {authorities : List (ℕ × ℕ)}
    (h : authorities.Pairwise fun a b => decide (b.2 ≤ a.2) = true) :
    sortByScore authorities = authorities :=
  List.mergeSort_of_pairwise h

-- ============================================================ no good node

/-- Three authorities of stakes 5, 1 and 1 and scores 3, 2 and 1, at the
largest threshold 33: the cutoff is `33 * 7 / 100 = 2`. Whatever order
the shuffle leaves, the best scorer's stake 5 alone passes the cutoff,
so there is no good node, while the two worst scorers fit and are bad;
and electing either of them as leader panics, for every draw. -/
theorem swap_table_panics_without_good_nodes :
    Committee.new 0 [⟨5⟩, ⟨1⟩, ⟨1⟩] = some ⟨0, 7, 5, 3, [⟨5⟩, ⟨1⟩, ⟨1⟩]⟩ ∧
    ∀ shuffle : List (ℕ × ℕ) → List (ℕ × ℕ), (∀ l, (shuffle l).Perm l) →
      new_inner ⟨0, 7, 5, 3, [⟨5⟩, ⟨1⟩, ⟨1⟩]⟩ 33 shuffle ⟨[3, 2, 1]⟩ =
        some ⟨[], [(2, 1), (1, 1)], [(0, 3), (1, 2), (2, 1)]⟩ ∧
      ∀ draw, (⟨[], [(2, 1), (1, 1)], [(0, 3), (1, 2), (2, 1)]⟩ : LeaderSwapTable).elect_leader 1 0 draw =
        none := by
  refine ⟨by decide, fun shuffle hshuffle => ⟨?_, fun draw => by simp [elect_leader, swap]⟩⟩
  have hsort : sortByScore (shuffle [(0, 3), (1, 2), (2, 1)]) = [(0, 3), (1, 2), (2, 1)] := by
    rw [sort_by_score_of_perm (by decide) (hshuffle _)]
    exact sortByScore_of_pairwise (by decide)
  have hscores : (⟨[3, 2, 1]⟩ : ReputationScores).authorities_by_score ⟨0, 7, 5, 3, [⟨5⟩, ⟨1⟩, ⟨1⟩]⟩ =
      some [(0, 3), (1, 2), (2, 1)] := by decide
  rw [new_inner, if_neg (by decide), if_neg (by decide), hscores]
  simp only [Option.bind_eq_bind, Option.bind_some]
  rw [if_neg (by decide), hsort]
  decide

/-- The table's own shuffle, the identity here, is one that permutes. -/
theorem swap_table_panics_identity_shuffle :
    new_inner ⟨0, 7, 5, 3, [⟨5⟩, ⟨1⟩, ⟨1⟩]⟩ 33 id ⟨[3, 2, 1]⟩ =
      some ⟨[], [(2, 1), (1, 1)], [(0, 3), (1, 2), (2, 1)]⟩ :=
  (swap_table_panics_without_good_nodes.2 id fun l => List.Perm.refl l).1

end LeaderSwapTable

end MysoCore.Consensus
