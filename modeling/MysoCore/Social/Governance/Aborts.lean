/-
Where the governance procedures abort (governance.move). Four of them
end by calling `vector::destroy_empty` on vectors their loops only read:
the election on the vectors of incumbents, nominees and candidates, the
payout on the winners' vector, the anonymous finalization on the vector
of anonymous voters, and `get_proposals_by_type` on its literal vector
of six statuses. Move's `destroy_empty` aborts on a vector that is not
empty, so each aborts as soon as its vector has a member.

# What follows

`update_delegate_panel` aborts at the end of every term in which the
registry has a delegate or a nominee (`update_delegate_panel_aborts`),
so no delegate is ever elected; `get_proposals_by_type` always aborts
(`get_proposals_by_type_aborts`). The payout loop itself is right: it
pays out the whole pool, `floor(R/n)` to each winner and the dust to the
last (`payVoters_pays_pool`), and the pool check after it passes; only
the `destroy_empty` that follows aborts (`distribute_rewards_aborts`),
and with it every finalization that reaches a payout
(`finalize_proposal_aborts`) and every anonymous finalization with a
ballot (`finalize_proposal_anonymous_aborts`).
-/
import MysoCore.Social.Governance.Calls

namespace MysoCore.Social.Governance

open SortedMap ExceptFold

-- ============================================================ the election

/-- The election aborts on a registry with an incumbent or a nominee in
its tracking sets. -/
theorem electPanel_aborts {registry : GovernanceDAO} (ctx : TxContext)
    (h : registry.delegate_addresses ≠ [] ∨ registry.nominee_addresses ≠ [])
    (r : GovernanceDAO) : electPanel registry ctx ≠ .ok r := by
  intro hr
  obtain ⟨ha, hn, -⟩ := electPanel_eq_ok hr
  rcases h with h | h
  · exact h ha
  · exact h hn

/-- At the end of a term, the panel update aborts on a registry with a
delegate or a nominee. -/
theorem update_delegate_panel_aborts {registry : GovernanceDAO} {ctx : TxContext}
    (hepoch : 0 < ctx.epoch)
    (hend : ctx.epoch % registry.delegate_term_epochs = 0)
    (h : registry.delegate_addresses ≠ [] ∨ registry.nominee_addresses ≠ [])
    (r : GovernanceDAO) : update_delegate_panel registry ctx ≠ .ok r := by
  intro hr
  unfold update_delegate_panel at hr
  simp only [require_bind_eq_ok] at hr
  rw [if_neg (by omega)] at hr
  exact electPanel_aborts ctx h r hr.2

-- ============================================================ the views

/-- `get_proposals_by_type` aborts on every registry and type: its
vector of statuses is never emptied. -/
theorem get_proposals_by_type_aborts (registry : GovernanceDAO) (proposal_type : ℕ)
    (r : List ℕ) : get_proposals_by_type registry proposal_type ≠ .ok r := by
  intro hr
  unfold get_proposals_by_type at hr
  simp only [require_bind_eq_ok] at hr
  obtain ⟨_, -, hr⟩ := bind_eq_ok hr.2
  simp only [destroy_empty_bind_eq_ok] at hr
  exact absurd hr.1 (by simp [typeStatuses])

-- ============================================================ the payout

section payout

variable {per_voter_reward dust voter_count : ℕ}

/-- The payout loop from index `k` on, with `(n - k) * floor(R/n)` plus
the dust left in the pool: it pays the rest of the pool out, the last
voter's share with the dust. -/
theorem payVoters_from (l : List ℕ) :
    ∀ (k pool : ℕ) (payments : Payments), k + l.length = voter_count → 0 < l.length →
      pool = l.length * per_voter_reward + dust →
      ∃ payments', (l.zipIdx k).foldlM (payVoter per_voter_reward dust voter_count)
          (pool, payments) = .ok (0, payments') ∧ paid payments' = paid payments + pool := by
  induction l with
  | nil => intro k pool payments _ hpos; simp at hpos
  | cons v rest ih =>
    intro k pool payments hk _ hpool
    rw [List.zipIdx_cons, List.foldlM_cons]
    cases rest with
    | nil =>
      -- the last voter takes what is left, share and dust
      have hlast : k = voter_count - 1 := by simp at hk; omega
      have hpool' : pool = per_voter_reward + dust := by simpa using hpool
      unfold payVoter
      simp only [List.zipIdx_nil, List.foldlM_nil, if_pos hlast]
      by_cases hr : 0 < per_voter_reward + dust
      · refine ⟨payments ++ [(.address v, per_voter_reward + dust)], ?_, by simp [hpool']⟩
        simp only [if_pos hr, balance_split_of_le (le_of_eq hpool'.symm), ok_bind, pure_bind]
        rw [hpool', Nat.sub_self]
        rfl
      · refine ⟨payments, ?_, by simp; omega⟩
        simp only [if_neg hr, pure_bind]
        rw [show pool = 0 by omega]
        rfl
    | cons w rest' =>
      -- a voter before the last takes one share
      have hnot : k ≠ voter_count - 1 := by simp at hk; omega
      have hle : per_voter_reward ≤ pool := by
        rw [hpool]
        exact le_trans (Nat.le_mul_of_pos_left _ (by simp)) (Nat.le_add_right _ _)
      have hrest : pool - per_voter_reward = (w :: rest').length * per_voter_reward + dust := by
        rw [hpool]
        simp only [List.length_cons, Nat.add_mul, Nat.one_mul]
        omega
      unfold payVoter
      simp only [if_neg hnot]
      by_cases hr : 0 < per_voter_reward
      · simp only [if_pos hr, balance_split_of_le hle, ok_bind, pure_bind]
        obtain ⟨payments', hfold, hpaid⟩ :=
          ih (k + 1) (pool - per_voter_reward) (payments ++ [(.address v, per_voter_reward)])
            (by simp at hk ⊢; omega) (by simp) hrest
        refine ⟨payments', hfold, ?_⟩
        rw [hpaid, paid_append, paid_cons, paid_nil]
        omega
      · simp only [if_neg hr, pure_bind]
        have h0 : per_voter_reward = 0 := by omega
        obtain ⟨payments', hfold, hpaid⟩ :=
          ih (k + 1) pool payments (by simp at hk ⊢; omega) (by simp)
            (by rw [hpool, h0]; simp)
        exact ⟨payments', hfold, hpaid⟩

end payout

/-- The payout loop of `distribute_rewards` over `n > 0` winners pays the
whole pool `R` out, `floor(R/n)` each and the dust to the last. -/
theorem payVoters_pays_pool {voters_vec : List ℕ} (hn : voters_vec ≠ []) (total_reward : ℕ) :
    ∃ payments, voters_vec.zipIdx.foldlM
        (payVoter (total_reward / voters_vec.length)
          (if total_reward / voters_vec.length * voters_vec.length < total_reward
            then total_reward - total_reward / voters_vec.length * voters_vec.length else 0)
          voters_vec.length) (total_reward, []) = .ok (0, payments) ∧
      paid payments = total_reward := by
  have hpos : 0 < voters_vec.length := List.length_pos_iff.mpr hn
  -- the pool is n shares and the dust
  have hsplit : total_reward = voters_vec.length * (total_reward / voters_vec.length) +
      (if total_reward / voters_vec.length * voters_vec.length < total_reward
        then total_reward - total_reward / voters_vec.length * voters_vec.length else 0) := by
    have hle : total_reward / voters_vec.length * voters_vec.length ≤ total_reward :=
      Nat.div_mul_le_self total_reward voters_vec.length
    split <;> rw [Nat.mul_comm] <;> omega
  obtain ⟨payments, hfold, hpaid⟩ :=
    payVoters_from voters_vec 0 total_reward []
      (by simp : 0 + voters_vec.length = voters_vec.length) hpos hsplit
  exact ⟨payments, hfold, by simpa using hpaid⟩

/-- The shares of a pool among winners abort after the loop and the
pool check have passed, at the `destroy_empty` of the winners' vector. -/
theorem shareRewards_aborts {p : Proposal} {voters_vec : List ℕ} (hn : voters_vec ≠ []) :
    shareRewards p voters_vec = .error .VectorOperationError := by
  obtain ⟨payments, hfold, -⟩ := payVoters_pays_pool hn p.reward_pool
  unfold shareRewards
  simp only [hfold, ok_bind]
  rw [destroy_empty_eq_error hn]
  rfl

/-- A distribution of a pool that is not empty among winners aborts. -/
theorem distribute_rewards_aborts {p : Proposal} {approve_won : Bool} (hpool : 0 < p.reward_pool)
    (hwin : (if approve_won then p.voted_for else p.voted_against) ≠ []) :
    distribute_rewards p approve_won = .error .VectorOperationError := by
  unfold distribute_rewards
  dsimp only
  rw [if_neg (by omega), if_neg (by simpa using hwin)]
  exact shareRewards_aborts hwin

/-- A finalization with a quorum, a pool and a voter on the winning side
aborts. -/
theorem finalize_proposal_aborts {registry : GovernanceDAO} {id : ℕ} {ctx : TxContext}
    {p : Proposal} (hp : lookup id registry.proposals = some p)
    (hquorum : registry.quorum_votes ≤ p.community_votes_for + p.community_votes_against)
    (hpool : 0 < p.reward_pool)
    (hwin : (if p.community_votes_against < p.community_votes_for then p.voted_for
      else p.voted_against) ≠ [])
    (r : GovernanceDAO × Payments) : finalize_proposal registry id ctx ≠ .ok r := by
  intro hr
  unfold finalize_proposal at hr
  obtain ⟨p', hp', hr⟩ := bind_eq_ok hr
  obtain rfl : p' = p := Option.some.inj ((borrowProposal_eq_ok.mp hp').symm.trans hp)
  simp only [require_bind_eq_ok] at hr
  rw [if_pos hquorum] at hr
  unfold finalizeWithQuorum at hr
  obtain ⟨_, -, hr⟩ := bind_eq_ok hr.2.2
  obtain ⟨_, hdist, -⟩ := bind_eq_ok hr
  -- the payout runs on the proposal with its new status, same pool and voters
  have habort : distribute_rewards
      { p' with status := if decide (p'.community_votes_against < p'.community_votes_for)
          then Status.APPROVED else Status.REJECTED }
      (decide (p'.community_votes_against < p'.community_votes_for)) =
        .error .VectorOperationError :=
    distribute_rewards_aborts hpool (by simpa using hwin)
  rw [habort] at hdist
  cases hdist

/-- An anonymous finalization of a proposal with a ballot aborts. -/
theorem finalize_proposal_anonymous_aborts {registry : GovernanceDAO} {id : ℕ}
    {decrypt : EncryptedObject → Option (List ℕ)} {ctx : TxContext} {p : Proposal}
    (hp : lookup id registry.proposals = some p) (hanon : p.anon_voters ≠ [])
    (r : GovernanceDAO × Payments) : finalize_proposal_anonymous registry id decrypt ctx ≠ .ok r := by
  intro hr
  unfold finalize_proposal_anonymous at hr
  obtain ⟨p', hp', hr⟩ := bind_eq_ok hr
  obtain rfl : p' = p := Option.some.inj ((borrowProposal_eq_ok.mp hp').symm.trans hp)
  simp only [require_bind_eq_ok] at hr
  obtain ⟨_, -, hr⟩ := bind_eq_ok hr.2.2
  simp only [destroy_empty_bind_eq_ok] at hr
  exact hanon hr.1

-- ============================================================ on a reachable registry

/-- One nomination on the ecosystem registry, in its first epoch. -/
def oneNomination : List GovernanceTx := [⟨⟨5, 0, 0⟩, .nominate_delegate⟩]

/-- The end of the ecosystem registry's first term of 90 epochs. -/
def firstTermEnd : TxContext := ⟨5, 90, 0⟩

theorem governance_procedures_abort :
    (run bootstrap_init.1 oneNomination).nominee_addresses = [5] ∧
      update_delegate_panel (run bootstrap_init.1 oneNomination) firstTermEnd =
        .error .VectorOperationError ∧
      (∀ registry proposal_type r, get_proposals_by_type registry proposal_type ≠ .ok r) ∧
      (∀ (registry : GovernanceDAO) (ctx : TxContext) r, 0 < ctx.epoch →
        ctx.epoch % registry.delegate_term_epochs = 0 →
        (registry.delegate_addresses ≠ [] ∨ registry.nominee_addresses ≠ []) →
        update_delegate_panel registry ctx ≠ .ok r) ∧
      (∀ (registry : GovernanceDAO) id ctx p r, lookup id registry.proposals = some p →
        registry.quorum_votes ≤ p.community_votes_for + p.community_votes_against →
        0 < p.reward_pool →
        (if p.community_votes_against < p.community_votes_for then p.voted_for
          else p.voted_against) ≠ [] →
        finalize_proposal registry id ctx ≠ .ok r) ∧
      (∀ (registry : GovernanceDAO) id decrypt ctx p r, lookup id registry.proposals = some p →
        p.anon_voters ≠ [] → finalize_proposal_anonymous registry id decrypt ctx ≠ .ok r) :=
  ⟨by decide, by rfl, get_proposals_by_type_aborts,
    fun _ _ r hepoch hend h => update_delegate_panel_aborts hepoch hend h r,
    fun _ _ _ _ r hp hquorum hpool hwin => finalize_proposal_aborts hp hquorum hpool hwin r,
    fun _ _ _ _ _ r hp hanon => finalize_proposal_anonymous_aborts hp hanon r⟩

end MysoCore.Social.Governance
