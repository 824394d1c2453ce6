/-
What becomes of the anonymous ballots of a proposal (governance.move).

# The two ways out of community voting

`community_vote_anonymous` stores an encrypted ballot and records its
voter, and leaves the tallies as they are
(`community_vote_anonymous_eq_ok`). A proposal leaves community voting
through `finalize_proposal`, a public entry function that decides on the
tallies and never reads the stored ballots (`finalize_proposal_tallies`),
or through `finalize_proposal_anonymous`, which decrypts and counts them
first but aborts, under any keys, as soon as there is one ballot: it
calls `vector::destroy_empty` on the voters' vector its loop only read
(`finalize_proposal_anonymous_aborts`). So whoever finalizes a proposal
with an anonymous ballot does it through `finalize_proposal`, and the
ballots are in no tally.

# A run

From the ecosystem registry with one delegate, a proposal is submitted,
approved by the delegate, and gets one anonymous ballot; after the voting
period `finalize_proposal` rejects it with both tallies at zero
(`ballotRun`). That registry is built by hand: no run from a new registry
elects a delegate (`Governed.no_delegates`), so on those runs no proposal
reaches community voting and no ballot is ever cast.
-/
import MysoCore.Social.Governance.Aborts

namespace MysoCore.Social.Governance

open SortedMap ExceptFold

/-- `finalize_proposal` moves a proposal out of community voting with its
tallies, and its ballots, as they were. -/
theorem finalize_proposal_tallies {registry : GovernanceDAO} (hs : Sorted registry.proposals)
    {id : ℕ} {ctx : TxContext} {p : Proposal} (hp : lookup id registry.proposals = some p)
    {r : GovernanceDAO × Payments} (h : finalize_proposal registry id ctx = .ok r) :
    ∃ p', lookup id r.1.proposals = some p' ∧ p'.status ≠ .COMMUNITY_VOTING ∧
      p'.community_votes_for = p.community_votes_for ∧
      p'.community_votes_against = p.community_votes_against ∧
      p'.encrypted_votes = p.encrypted_votes ∧ p'.anon_voters = p.anon_voters := by
  obtain ⟨q, status, reward_pool, hq, -, -, hstatus, hprops, -⟩ := finalize_proposal_eq_ok h
  obtain rfl : q = p := Option.some.inj (hq.symm.trans hp)
  refine ⟨{ q with status, reward_pool }, by rw [hprops, hs.lookup_alter_self], ?_,
    rfl, rfl, rfl, rfl⟩
  -- the status it writes is the decision on the tallies
  rcases hstatus with ⟨hst, -⟩ | ⟨hst, -⟩ <;> simp [hst]

/-- The ecosystem registry of `bootstrap_init`, with address 2 as its one
delegate for the first term. -/
def oneDelegate : GovernanceDAO :=
  { bootstrap_init.1 with
    delegates := [(2, ⟨2, 0, 0, 0, 0, 0, 0, 0, 90⟩)]
    delegate_addresses := [2] }

/-- Address 1 submits proposal 7, the delegate approves it, address 3
casts an anonymous ballot, and address 4 finalizes it after the week of
voting. -/
def ballotRun : List GovernanceTx :=
  [⟨⟨1, 0, 0⟩, .submit_proposal PROPOSAL_TYPE_ECOSYSTEM none none 100000000 7⟩,
    ⟨⟨2, 0, 0⟩, .delegate_vote_on_proposal 7 true⟩,
    ⟨⟨3, 0, 1000⟩, .community_vote_anonymous 7 ⟨[1]⟩⟩,
    ⟨⟨4, 0, 604800001⟩, .finalize_proposal 7⟩]

/-- Anonymous ballots are in no tally: with a ballot cast,
`finalize_proposal_anonymous` aborts whatever the keys and the caller,
and `finalize_proposal` leaves community voting with the tallies as they
were; in `ballotRun` the proposal has its ballot before the last call, and
is rejected by it with both tallies at zero. -/
theorem anonymous_ballots_uncounted :
    (∀ (registry : GovernanceDAO) (id : ℕ) (p : Proposal), Sorted registry.proposals →
      lookup id registry.proposals = some p → p.anon_voters ≠ [] →
      (∀ decrypt ctx r, finalize_proposal_anonymous registry id decrypt ctx ≠ .ok r) ∧
      ∀ ctx r, finalize_proposal registry id ctx = .ok r →
        ∃ p', lookup id r.1.proposals = some p' ∧ p'.status ≠ .COMMUNITY_VOTING ∧
          p'.community_votes_for = p.community_votes_for ∧
          p'.community_votes_against = p.community_votes_against) ∧
    (lookup 7 (run oneDelegate (ballotRun.take 3)).proposals).map
        (fun p => (p.status, p.anon_voters)) = some (.COMMUNITY_VOTING, [3]) ∧
    (lookup 7 (run oneDelegate ballotRun).proposals).map
        (fun p => (p.status, p.community_votes_for, p.community_votes_against)) =
      some (.REJECTED, 0, 0) := by
  refine ⟨fun registry id p hs hp hanon => ⟨fun decrypt ctx r =>
      finalize_proposal_anonymous_aborts hp hanon r, fun ctx r h => ?_⟩, by decide, by decide⟩
  obtain ⟨p', hp', hst, hfor, hagainst, -⟩ := finalize_proposal_tallies hs hp h
  exact ⟨p', hp', hst, hfor, hagainst⟩

end MysoCore.Social.Governance
