/-
The proposal state machine of governance.move, over every run of calls
on a registry.

# The rules

`Transition` says what one call may do to one proposal: it leaves review
only to be rescinded by its submitter or on a majority of the delegates'
votes, leaves community voting only past its voting period and to the
status its tallies decide (`Passes`), and leaves approval only to be
implemented; a community vote records its voter once, and a public vote
of weight `v` pays `quadratic_base_cost * (v^2 - 1)` into the pool and
counts `v`. `StepRules` says every proposal of the registry is changed
as a transition allows.

# Why they hold

`Governed` is the invariant of a registry: its proposal table is sorted,
its status vectors are exact (`ByStatusExact`), each proposal's voters
are distinct, and it has no delegate. The last is what the code makes
of the election: `update_delegate_panel` succeeds only with no incumbent
and no nominee (`electPanel_eq_ok`), and then elects no one, so the
delegate table stays empty, and the two delegate calls that move a
proposal out of review, `delegate_vote_on_proposal` and
`reject_proposal_manually`, never succeed. Every call keeps `Governed`
and follows the rules (`Governed.apply`), so every run from a new
registry does (`Governed.run`).

# What the runs exercise

With no delegate, no proposal of a run from a new registry ever leaves
review except by being rescinded, so none reaches community voting. On
those runs the rules for leaving community voting, for the tallies and
for the cost of a vote hold because nothing reaches them; the status
vectors, the rescinding and the submissions are what the runs exercise.
-/
import MysoCore.Social.Governance.Calls

namespace MysoCore.Social.Governance

open SortedMap ExceptFold

-- ============================================================ the rules

/-- More than half of the delegates voted `b` in a proposal's delegate
votes. -/
def MajorityVoted (delegates : List (ℕ × Delegate)) (delegate_votes : List (ℕ × Bool))
    (b : Bool) : Prop :=
  delegates.length < 2 * (keys delegates).countP fun d => decide (lookup d delegate_votes = some b)

/-- What one call may do to one proposal, `p` before it and `p'` after. -/
structure Transition (registry : GovernanceDAO) (tx : GovernanceTx) (id : ℕ) (p p' : Proposal) :
    Prop where
  leaves_review : p.status = .DELEGATE_REVIEW → p'.status ≠ .DELEGATE_REVIEW →
    (p'.status = .OWNER_RESCIND ∧ tx.call = .rescind_proposal id ∧
        tx.ctx.sender = p.submitter) ∨
      (p'.status = .COMMUNITY_VOTING ∧ MajorityVoted registry.delegates p'.delegate_votes true) ∨
      (p'.status = .REJECTED ∧ MajorityVoted registry.delegates p'.delegate_votes false)
  leaves_voting : p.status = .COMMUNITY_VOTING → p'.status ≠ .COMMUNITY_VOTING →
    p.voting_end_time < tx.ctx.epoch_timestamp_ms ∧
      (p'.status = .APPROVED ∧ Passes registry p' ∨ p'.status = .REJECTED ∧ ¬ Passes registry p')
  leaves_approved : p.status = .APPROVED → p'.status ≠ .APPROVED → p'.status = .IMPLEMENTED
  votes_once : p'.voted_community = p.voted_community ∨
    tx.ctx.sender ∉ p.voted_community ∧ p'.voted_community = p.voted_community ++ [tx.ctx.sender]
  vote_cost : ∀ vote_count approve coin,
    tx.call = .community_vote_on_proposal id vote_count approve coin →
      p'.reward_pool = p.reward_pool + registry.quadratic_base_cost * (vote_count ^ 2 - 1) ∧
        p'.community_votes_for + p'.community_votes_against =
          p.community_votes_for + p.community_votes_against + vote_count

/-- What one call may do to the proposals: each keeps an entry, changed
as a transition allows. -/
def StepRules (registry : GovernanceDAO) (tx : GovernanceTx) (registry' : GovernanceDAO) : Prop :=
  ∀ id p, lookup id registry.proposals = some p →
    ∃ p', lookup id registry'.proposals = some p' ∧ Transition registry tx id p p'

section rules

variable {registry r : GovernanceDAO} {tx : GovernanceTx} {id : ℕ} {p q : Proposal}

/-- A call that is no public vote on a proposal may leave it as it is. -/
theorem Transition.unchanged (hcall : ∀ v a c, tx.call ≠ .community_vote_on_proposal id v a c) :
    Transition registry tx id p p where
  leaves_review h hne := absurd h hne
  leaves_voting h hne := absurd h hne
  leaves_approved h hne := absurd h hne
  votes_once := .inl rfl
  vote_cost v a c h := absurd h (hcall v a c)

/-- A call that writes no proposal follows the rules. -/
theorem StepRules.of_keeps (hk : r.proposals = registry.proposals)
    (hcall : ∀ id v a c, tx.call ≠ .community_vote_on_proposal id v a c) :
    StepRules registry tx r := fun id p hp =>
  ⟨p, hk ▸ hp, Transition.unchanged (hcall id)⟩

/-- A call that writes one proposal by a transition, and is a public vote
on no other, follows the rules. -/
theorem StepRules.of_alter (hs : Sorted registry.proposals)
    (hp : lookup id registry.proposals = some p)
    (hr : r.proposals = alter id (fun _ => q) registry.proposals)
    (ht : Transition registry tx id p q)
    (hcall : ∀ id' v a c, tx.call = .community_vote_on_proposal id' v a c → id' = id) :
    StepRules registry tx r := by
  intro id' p' hp'
  rw [hr]
  by_cases hid : id' = id
  · subst hid
    obtain rfl : p' = p := Option.some.inj (hp'.symm.trans hp)
    exact ⟨q, by rw [hs.lookup_alter_self], ht⟩
  · -- the other proposals are left alone
    refine ⟨p', by rw [lookup_alter_of_ne hid]; exact hp', Transition.unchanged ?_⟩
    intro v a c hc
    exact hid (hcall id' v a c hc)

/-- A call that adds a new proposal, and is no public vote, follows the
rules. -/
theorem StepRules.of_new (hp : lookup id registry.proposals = none)
    (hr : r.proposals = alter id (fun _ => q) registry.proposals)
    (hcall : ∀ id v a c, tx.call ≠ .community_vote_on_proposal id v a c) :
    StepRules registry tx r := by
  intro id' p' hp'
  have hid : id' ≠ id := by
    rintro rfl
    rw [hp] at hp'
    cases hp'
  exact ⟨p', by rw [hr, lookup_alter_of_ne hid]; exact hp', Transition.unchanged (hcall id')⟩

end rules

-- ============================================================ the invariant

/-- The invariant of a registry: a sorted proposal table, exact status
vectors, distinct voters on each proposal, and no delegate. -/
structure Governed (registry : GovernanceDAO) : Prop where
  sorted : Sorted registry.proposals
  by_status : ByStatusExact registry
  voted_nodup : ∀ id p, lookup id registry.proposals = some p → p.voted_community.Nodup
  no_delegates : registry.delegates = []

theorem Governed.newRegistry (registry_type : ℕ) (params : GovernanceParameters) :
    Governed (newRegistry registry_type params) where
  sorted := List.Pairwise.nil
  by_status := ByStatusExact.newRegistry registry_type params
  voted_nodup _ _ h := by simp [Governance.newRegistry, lookup] at h
  no_delegates := rfl

section invariant

variable {registry r : GovernanceDAO} {tx : GovernanceTx} {id : ℕ} {p q : Proposal}

/-- A call that writes no proposal and elects no delegate keeps the
invariant. -/
theorem Governed.of_keeps (hg : Governed registry) (hk : KeepsProposals registry r)
    (hd : r.delegates = []) : Governed r where
  sorted := hk.proposals ▸ hg.sorted
  by_status := ⟨hk.proposals_by_status ▸ hg.by_status.nodup, by
    rw [hk.proposals_by_status, hk.proposals]
    exact hg.by_status.mem_iff⟩
  voted_nodup := hk.proposals ▸ hg.voted_nodup
  no_delegates := hd

/-- A call that writes one proposal with distinct voters, keeping the
status vectors exact and electing no delegate, keeps the invariant. -/
theorem Governed.of_alter (hg : Governed registry)
    (hr : r.proposals = alter id (fun _ => q) registry.proposals)
    (hq : q.voted_community.Nodup) (hb : ByStatusExact r) (hd : r.delegates = []) :
    Governed r where
  sorted := hr ▸ hg.sorted.alter
  by_status := hb
  voted_nodup id' p' hp' := by
    rw [hr] at hp'
    by_cases hid : id' = id
    · subst hid
      rw [hg.sorted.lookup_alter_self] at hp'
      exact Option.some.inj hp' ▸ hq
    · rw [lookup_alter_of_ne hid] at hp'
      exact hg.voted_nodup id' p' hp'
  no_delegates := hd

end invariant

-- ============================================================ one call

section calls

variable {registry : GovernanceDAO} {tx : GovernanceTx} {id : ℕ}

/-- A call other than a public vote. -/
def NotAVote (tx : GovernanceTx) : Prop :=
  ∀ id v a c, tx.call ≠ .community_vote_on_proposal id v a c

/-- A rescission follows the rules: the submitter takes the proposal out
of review. -/
theorem Governed.rescind_proposal (hg : Governed registry)
    (hc : tx.call = .rescind_proposal id) (hv : NotAVote tx) {r : GovernanceDAO × Payments}
    (h : Governance.rescind_proposal registry id tx.ctx = .ok r) :
    Governed r.1 ∧ StepRules registry tx r.1 := by
  obtain ⟨p, hp, hsub, hst, rfl⟩ := rescind_proposal_eq_ok h
  have hb : ByStatusExact { setProposal registry id
      { p with reward_pool := 0, status := .OWNER_RESCIND } with
      proposals_by_status := pushToStatus
        (removeFromStatus registry.proposals_by_status .DELEGATE_REVIEW id) .OWNER_RESCIND id } :=
    hg.by_status.transition hg.sorted hp (by simp [hst]) rfl (by rw [hst])
  refine ⟨hg.of_alter rfl (hg.voted_nodup id p hp) hb hg.no_delegates,
    StepRules.of_alter hg.sorted hp rfl ?_ fun id' v a c h => absurd h (hv id' v a c)⟩
  exact {
    leaves_review := fun _ _ => .inl ⟨rfl, hc, hsub.symm⟩
    leaves_voting := fun h => absurd (hst.symm.trans h) (by simp)
    leaves_approved := fun h => absurd (hst.symm.trans h) (by simp)
    votes_once := .inl rfl
    vote_cost := fun v a c h => absurd h (hv id v a c) }

/-- A finalization follows the rules: past the voting period, the
proposal goes to the status its tallies decide. -/
theorem Governed.finalize_proposal (hg : Governed registry) (hv : NotAVote tx)
    {r : GovernanceDAO × Payments}
    (h : Governance.finalize_proposal registry id tx.ctx = .ok r) :
    Governed r.1 ∧ StepRules registry tx r.1 := by
  obtain ⟨p, status, reward_pool, hp, hst, hend, hdecide, hprop, hvec, hdel, -⟩ :=
    finalize_proposal_eq_ok h
  have hne : status ≠ p.status := by
    rw [hst]
    rcases hdecide with ⟨rfl, -⟩ | ⟨rfl, -⟩ <;> simp
  have hb : ByStatusExact r.1 :=
    hg.by_status.transition hg.sorted hp hne hprop (by rw [hvec, hst])
  refine ⟨hg.of_alter hprop (hg.voted_nodup id p hp) hb (hdel hg.no_delegates),
    StepRules.of_alter hg.sorted hp hprop ?_ fun id' v a c h => absurd h (hv id' v a c)⟩
  exact {
    leaves_review := fun h => absurd (hst.symm.trans h) (by simp)
    -- the tallies are the proposal's own, so the verdict reads them
    leaves_voting := fun _ _ => ⟨hend, hdecide⟩
    leaves_approved := fun h => absurd (hst.symm.trans h) (by simp)
    votes_once := .inl rfl
    vote_cost := fun v a c h => absurd h (hv id v a c) }

/-- Marking as implemented follows the rules: an approved proposal goes
to `IMPLEMENTED`. -/
theorem Governed.mark_proposal_implemented (hg : Governed registry) (hv : NotAVote tx)
    {r : GovernanceDAO} (h : Governance.mark_proposal_implemented registry id tx.ctx = .ok r) :
    Governed r ∧ StepRules registry tx r := by
  obtain ⟨p, hp, hst, rfl⟩ := mark_proposal_implemented_eq_ok h
  have hb : ByStatusExact { setProposal registry id { p with status := .IMPLEMENTED } with
      proposals_by_status := pushToStatus
        (removeFromStatus registry.proposals_by_status .APPROVED id) .IMPLEMENTED id } :=
    hg.by_status.transition hg.sorted hp (by simp [hst]) rfl (by rw [hst])
  refine ⟨hg.of_alter rfl (hg.voted_nodup id p hp) hb hg.no_delegates,
    StepRules.of_alter hg.sorted hp rfl ?_ fun id' v a c h => absurd h (hv id' v a c)⟩
  exact {
    leaves_review := fun h => absurd (hst.symm.trans h) (by simp)
    leaves_voting := fun h => absurd (hst.symm.trans h) (by simp)
    leaves_approved := fun _ _ => rfl
    votes_once := .inl rfl
    vote_cost := fun v a c h => absurd h (hv id v a c) }

/-- A public vote follows the rules: its voter is recorded once, its
weight counted and its quadratic cost paid into the pool. -/
theorem Governed.community_vote_on_proposal (hg : Governed registry) {vote_count coin : ℕ}
    {approve : Bool} (hc : tx.call = .community_vote_on_proposal id vote_count approve coin)
    {r : GovernanceDAO × ℕ}
    (h : Governance.community_vote_on_proposal registry id vote_count approve coin tx.ctx =
      .ok r) :
    Governed r.1 ∧ StepRules registry tx r.1 := by
  obtain ⟨p, q, hp, -, -, hpos, hnew, hqs, hqv, hqp, hqt, -, hr⟩ :=
    community_vote_on_proposal_eq_ok h
  have hprop : r.1.proposals = alter id (fun _ => q) registry.proposals := by rw [hr]; rfl
  have hb : ByStatusExact r.1 :=
    hg.by_status.rewrite hg.sorted hp hqs hprop (by rw [hr]; rfl)
  have hnodup : q.voted_community.Nodup := by
    rw [hqv, List.nodup_append]
    exact ⟨hg.voted_nodup id p hp, by simp, fun a ha b hb' => by
      rw [List.mem_singleton] at hb'
      exact hb' ▸ fun he => hnew (he ▸ ha)⟩
  refine ⟨hg.of_alter hprop hnodup hb (by rw [hr]; exact hg.no_delegates),
    StepRules.of_alter hg.sorted hp hprop ?_ fun id' v a c h => ?_⟩
  · exact {
      leaves_review := fun h hne => absurd (hqs.trans h) hne
      leaves_voting := fun h hne => absurd (hqs.trans h) hne
      leaves_approved := fun h hne => absurd (hqs.trans h) hne
      votes_once := .inr ⟨hnew, hqv⟩
      vote_cost := fun v a c h => by
        rw [hc] at h
        obtain ⟨-, rfl, -, -⟩ := GovernanceCall.community_vote_on_proposal.inj h
        exact ⟨by rw [hqp, calculate_vote_cost_eq registry hpos], hqt⟩ }
  · rw [hc] at h
    exact (GovernanceCall.community_vote_on_proposal.inj h).1.symm

/-- An anonymous vote follows the rules: its voter is recorded once, and
nothing is counted yet. -/
theorem Governed.community_vote_anonymous (hg : Governed registry) (hv : NotAVote tx)
    {encrypted_vote : EncryptedObject} {r : GovernanceDAO}
    (h : Governance.community_vote_anonymous registry id encrypted_vote tx.ctx = .ok r) :
    Governed r ∧ StepRules registry tx r := by
  obtain ⟨p, q, hp, -, hnew, hqs, hqv, -, -, -, rfl⟩ := community_vote_anonymous_eq_ok h
  have hb : ByStatusExact (setProposal registry id q) :=
    hg.by_status.rewrite hg.sorted hp hqs rfl rfl
  have hnodup : q.voted_community.Nodup := by
    rw [hqv, List.nodup_append]
    exact ⟨hg.voted_nodup id p hp, by simp, fun a ha b hb' => by
      rw [List.mem_singleton] at hb'
      exact hb' ▸ fun he => hnew (he ▸ ha)⟩
  refine ⟨hg.of_alter rfl hnodup hb hg.no_delegates,
    StepRules.of_alter hg.sorted hp rfl ?_ fun id' v a c h => absurd h (hv id' v a c)⟩
  exact {
    leaves_review := fun h hne => absurd (hqs.trans h) hne
    leaves_voting := fun h hne => absurd (hqs.trans h) hne
    leaves_approved := fun h hne => absurd (hqs.trans h) hne
    votes_once := .inr ⟨hnew, hqv⟩
    vote_cost := fun v a c h => absurd h (hv id v a c) }

/-- A submission follows the rules: it adds a proposal under review and
changes no other. -/
theorem Governed.submit_proposal (hg : Governed registry) (hv : NotAVote tx)
    {proposal_type coin : ℕ} {disputed_id reference_id : Option ℕ} {r : GovernanceDAO × ℕ}
    (h : Governance.submit_proposal registry proposal_type disputed_id reference_id coin id tx.ctx =
      .ok r) :
    Governed r.1 ∧ StepRules registry tx r.1 := by
  obtain ⟨_, h⟩ := submit_proposal_eq_ok h
  obtain ⟨hnone, q, hqs, hqv, -, hprop, hvec, hdel, -⟩ := submit_proposal_internal_eq_ok h
  have hb : ByStatusExact r.1 := hg.by_status.submit hg.sorted hnone hqs hprop hvec
  refine ⟨hg.of_alter hprop (by simp [hqv]) hb (by rw [hdel, hg.no_delegates]; rfl),
    StepRules.of_new hnone hprop hv⟩

end calls

-- ============================================================ every call, every run

/-- A call other than a public vote, read off its constructor. -/
theorem notAVote {tx : GovernanceTx} {c : GovernanceCall} (hc : tx.call = c)
    (h : ∀ id v a co, c ≠ .community_vote_on_proposal id v a co) : NotAVote tx :=
  fun id v a co h' => h id v a co (hc ▸ h')

/-- Every call on a governed registry keeps it governed and follows the
rules. -/
theorem Governed.apply {registry : GovernanceDAO} (hg : Governed registry) (tx : GovernanceTx)
    {r : GovernanceDAO × Payments} (h : Governance.apply tx registry = .ok r) :
    Governed r.1 ∧ StepRules registry tx r.1 := by
  -- the calls that write no proposal
  have keeps : ∀ {r'}, KeepsProposals registry r' → r'.delegates = [] → NotAVote tx →
      Governed r' ∧ StepRules registry tx r' := fun hk hd hv =>
    ⟨hg.of_keeps hk hd, StepRules.of_keeps hk.proposals hv⟩
  unfold Governance.apply at h
  split at h
  · next hc =>
      obtain ⟨r', h', rfl⟩ := noPayments_eq_ok h
      obtain ⟨hk, hp⟩ := update_governance_parameters_eq_ok h'
      exact keeps hk (hp.delegates.trans hg.no_delegates) (notAVote hc (by simp))
  · next hc =>
      obtain ⟨r', h', rfl⟩ := noPayments_eq_ok h
      obtain ⟨hk, hp⟩ := update_platform_governance_parameters_eq_ok h'
      exact keeps hk (hp.delegates.trans hg.no_delegates) (notAVote hc (by simp))
  · next hc =>
      obtain ⟨r', h', rfl⟩ := noPayments_eq_ok h
      obtain ⟨hk, hp⟩ := nominate_delegate_eq_ok h'
      exact keeps hk (hp.delegates.trans hg.no_delegates) (notAVote hc (by simp))
  · next hc =>
      obtain ⟨r', h', rfl⟩ := noPayments_eq_ok h
      obtain ⟨hk, hp⟩ := vote_for_delegate_eq_ok h'
      -- with no delegate, the target is a nominee
      have hpanel := hp (by rw [hg.no_delegates]; rfl)
      exact keeps hk (hpanel.delegates.trans hg.no_delegates) (notAVote hc (by simp))
  · next hc =>
      obtain ⟨r', h', rfl⟩ := noPayments_eq_ok h
      obtain ⟨hk, hp⟩ := update_delegate_panel_eq_ok h'
      exact keeps hk (hp.delegates.trans hg.no_delegates) (notAVote hc (by simp))
  · next hc =>
      obtain ⟨⟨r', coin'⟩, h', rfl⟩ := map_eq_ok h
      exact hg.submit_proposal (notAVote hc (by simp)) h'
  · next hc => exact hg.rescind_proposal hc (notAVote hc (by simp)) h
  · -- only a delegate may vote in review, and there is none
    have hsender := delegate_vote_on_proposal_sender h
    rw [hg.no_delegates] at hsender
    cases hsender
  · have hsender := (reject_proposal_manually_eq_ok h).1
    rw [hg.no_delegates] at hsender
    cases hsender
  · next hc =>
      obtain ⟨⟨r', coin'⟩, h', rfl⟩ := map_eq_ok h
      exact hg.community_vote_on_proposal hc h'
  · next hc =>
      obtain ⟨r', h', rfl⟩ := noPayments_eq_ok h
      exact hg.community_vote_anonymous (notAVote hc (by simp)) h'
  · next hc => exact hg.finalize_proposal (notAVote hc (by simp)) h
  · next hc =>
      obtain ⟨p, -, -, h'⟩ := finalize_proposal_anonymous_eq_ok hg.sorted h
      exact hg.finalize_proposal (notAVote hc (by simp)) h'
  · next hc =>
      obtain ⟨r', h', rfl⟩ := noPayments_eq_ok h
      exact hg.mark_proposal_implemented (notAVote hc (by simp)) h'

theorem Governed.step {registry : GovernanceDAO} (hg : Governed registry) (tx : GovernanceTx) :
    Governed (Governance.step registry tx) := by
  unfold Governance.step
  split
  · next r h => exact (hg.apply tx h).1
  · exact hg

theorem Governed.run {registry : GovernanceDAO} (hg : Governed registry)
    (txs : List GovernanceTx) : Governed (Governance.run registry txs) :=
  foldl_inv Governed hg fun _ tx _ hg => hg.step tx

theorem proposal_state_machine (registry_type : ℕ) (params : GovernanceParameters)
    (txs : List GovernanceTx) :
    ByStatusExact (run (newRegistry registry_type params) txs) ∧
      (∀ id p, lookup id (run (newRegistry registry_type params) txs).proposals = some p →
        p.voted_community.Nodup) ∧
      ∀ tx r, apply tx (run (newRegistry registry_type params) txs) = .ok r →
        StepRules (run (newRegistry registry_type params) txs) tx r.1 := by
  have hg := (Governed.newRegistry registry_type params).run txs
  exact ⟨hg.by_status, hg.voted_nodup, fun tx r h => (hg.apply tx h).2⟩

end MysoCore.Social.Governance
