/-
What each governance call does when it succeeds (governance.move): one
lemma per call, which the results about runs cite instead of the call's
code.

# The status lists

A transition moves a proposal's ID from the vector of its old status to
the one of its new status (`removeFromStatus`, `pushToStatus`); a
submission pushes a new ID onto the review vector. `ByStatusExact`
says the vectors hold exactly the IDs of the proposals of each status,
each once, and the three lemmas `ByStatusExact.submit`,
`ByStatusExact.transition` and `ByStatusExact.rewrite` carry it across
the three kinds of writes the calls make.

# The calls

For each call, the lemma `*_eq_ok` states the guards a successful call
passed and the registry it returns, through the proposal it writes back;
the calls that touch no proposal say which tables they leave alone.
-/
import MysoCore.Social.Governance

namespace MysoCore.Social.Governance

open SortedMap ExceptFold

-- ============================================================ Move's containers

@[simp] theorem table_add_eq_ok {α : Type} {k : ℕ} {v : α} {t t' : List (ℕ × α)} :
    table_add k v t = .ok t' ↔ lookup k t = none ∧ t' = alter k (fun _ => v) t := by
  unfold table_add
  cases h : lookup k t with
  | some _ => simp
  | none =>
    simp only [pure_eq_ok, true_and]
    exact eq_comm

@[simp] theorem table_borrow_eq_ok {α : Type} {k : ℕ} {t : List (ℕ × α)} {v : α} :
    table_borrow k t = .ok v ↔ lookup k t = some v := by
  unfold table_borrow
  split <;> simp_all

@[simp] theorem vec_set_insert_eq_ok {set set' : List ℕ} {key : ℕ} :
    vec_set_insert set key = .ok set' ↔ key ∉ set ∧ set' = set ++ [key] := by
  unfold vec_set_insert
  simp only [require_bind_eq_ok, pure_eq_ok]
  exact and_congr_right fun _ => eq_comm

@[simp] theorem destroy_empty_bind_eq_ok {α β : Type} {v : List α} {f : Unit → Except Abort β}
    {b : β} : (destroy_empty v >>= f) = .ok b ↔ v = [] ∧ f () = .ok b := by
  simp [destroy_empty]

@[simp] theorem borrowProposal_eq_ok {registry : GovernanceDAO} {id : ℕ} {p : Proposal} :
    borrowProposal registry id = .ok p ↔ lookup id registry.proposals = some p := by
  unfold borrowProposal
  split <;> simp_all

/-- A `destroy_empty` of a vector that is not empty aborts. -/
theorem destroy_empty_eq_error {α : Type} {v : List α} (h : v ≠ []) :
    destroy_empty v = .error .VectorOperationError := by
  simp [destroy_empty, require, List.isEmpty_iff, h]

theorem noPayments_eq_ok {x : Except Abort GovernanceDAO} {r : GovernanceDAO × Payments}
    (h : noPayments x = .ok r) : ∃ r', x = .ok r' ∧ r = (r', []) := by
  obtain ⟨r', hx, h⟩ := bind_eq_ok h
  exact ⟨r', hx, (pure_eq_ok.mp h).symm⟩

@[simp] theorem setProposal_proposals (registry : GovernanceDAO) (id : ℕ) (p : Proposal) :
    (setProposal registry id p).proposals = alter id (fun _ => p) registry.proposals := rfl

@[simp] theorem setProposal_proposals_by_status (registry : GovernanceDAO) (id : ℕ)
    (p : Proposal) :
    (setProposal registry id p).proposals_by_status = registry.proposals_by_status := rfl

@[simp] theorem setProposal_delegates (registry : GovernanceDAO) (id : ℕ) (p : Proposal) :
    (setProposal registry id p).delegates = registry.delegates := rfl

@[simp] theorem setProposal_delegate_addresses (registry : GovernanceDAO) (id : ℕ)
    (p : Proposal) :
    (setProposal registry id p).delegate_addresses = registry.delegate_addresses := rfl

@[simp] theorem setProposal_quorum_votes (registry : GovernanceDAO) (id : ℕ) (p : Proposal) :
    (setProposal registry id p).quorum_votes = registry.quorum_votes := rfl

/-- Writing back the proposal an ID has changes nothing. -/
theorem setProposal_of_lookup {registry : GovernanceDAO} {id : ℕ} {p : Proposal}
    (hs : Sorted registry.proposals) (hp : lookup id registry.proposals = some p) :
    setProposal registry id p = registry := by
  unfold setProposal
  rw [hs.alter_of_lookup_eq_some hp]

@[simp] theorem updateDelegate_nil (addr : ℕ) (f : Delegate → Delegate) :
    updateDelegate [] addr f = [] := rfl

-- ============================================================ the status lists

section status

variable {bs : Status → List ℕ} {old new status : Status} {id x : ℕ}

theorem mem_removeFromStatus (h : (bs old).Nodup) :
    x ∈ removeFromStatus bs old id status ↔ x ∈ bs status ∧ (status = old → x ≠ id) := by
  unfold removeFromStatus
  rw [Function.update_apply]
  split
  · next hst =>
      subst hst
      rw [h.mem_erase_iff]
      constructor
      · rintro ⟨hne, hx⟩
        exact ⟨hx, fun _ => hne⟩
      · rintro ⟨hx, hne⟩
        exact ⟨hne rfl, hx⟩
  · next hst => simp [hst]

theorem mem_pushToStatus :
    x ∈ pushToStatus bs new id status ↔ x ∈ bs status ∨ (status = new ∧ x = id) := by
  unfold pushToStatus
  rw [Function.update_apply]
  split
  · next hst =>
      subst hst
      simp
  · next hst => simp [hst]

theorem nodup_removeFromStatus (h : ∀ status, (bs status).Nodup) (status : Status) :
    (removeFromStatus bs old id status).Nodup := by
  unfold removeFromStatus
  rw [Function.update_apply]
  split
  · next hst =>
      subst hst
      exact (h status).erase id
  · exact h status

theorem nodup_pushToStatus (h : ∀ status, (bs status).Nodup) (hid : id ∉ bs new)
    (status : Status) : (pushToStatus bs new id status).Nodup := by
  unfold pushToStatus
  rw [Function.update_apply]
  split
  · next hst =>
      subst hst
      exact List.nodup_append.mpr ⟨h status, by simp,
        fun a ha b hb => by rw [List.mem_singleton] at hb; exact hb ▸ fun he => hid (he ▸ ha)⟩
  · exact h status

end status

/-- The status vectors hold exactly the IDs of the proposals of each
status, each once. -/
structure ByStatusExact (registry : GovernanceDAO) : Prop where
  nodup : ∀ status, (registry.proposals_by_status status).Nodup
  mem_iff : ∀ status id, id ∈ registry.proposals_by_status status ↔
    ∃ p, lookup id registry.proposals = some p ∧ p.status = status

/-- A new registry's vectors are empty, as is its proposal table. -/
theorem ByStatusExact.newRegistry (registry_type : ℕ) (params : GovernanceParameters) :
    ByStatusExact (newRegistry registry_type params) where
  nodup _ := List.nodup_nil
  mem_iff status id := by
    show id ∈ ([] : List ℕ) ↔ ∃ p, lookup id ([] : List (ℕ × Proposal)) = some p ∧ _
    simp [lookup]

section transitions

variable {registry registry' : GovernanceDAO} {id : ℕ} {p q : Proposal}

/-- A proposal written back with its status unchanged, the vectors
alone. -/
theorem ByStatusExact.rewrite (hb : ByStatusExact registry) (hs : Sorted registry.proposals)
    (hp : lookup id registry.proposals = some p) (hq : q.status = p.status)
    (hprop : registry'.proposals = alter id (fun _ => q) registry.proposals)
    (hvec : registry'.proposals_by_status = registry.proposals_by_status) :
    ByStatusExact registry' where
  nodup := hvec ▸ hb.nodup
  mem_iff status x := by
    rw [hvec, hb.mem_iff, hprop]
    by_cases hx : x = id
    · subst hx
      rw [hs.lookup_alter_self, hp]
      simp [hq]
    · rw [lookup_alter_of_ne hx]

/-- A proposal moved from its status to another: its ID leaves the old
vector and joins the new one. -/
theorem ByStatusExact.transition (hb : ByStatusExact registry) (hs : Sorted registry.proposals)
    (hp : lookup id registry.proposals = some p) (hne : q.status ≠ p.status)
    (hprop : registry'.proposals = alter id (fun _ => q) registry.proposals)
    (hvec : registry'.proposals_by_status =
      pushToStatus (removeFromStatus registry.proposals_by_status p.status id) q.status id) :
    ByStatusExact registry' where
  nodup := by
    rw [hvec]
    apply nodup_pushToStatus (nodup_removeFromStatus hb.nodup)
    -- the ID was in the old vector only
    rw [mem_removeFromStatus (hb.nodup _), hb.mem_iff, hp]
    simp [Ne.symm hne]
  mem_iff status x := by
    rw [hvec, mem_pushToStatus, mem_removeFromStatus (hb.nodup _), hb.mem_iff, hprop]
    by_cases hx : x = id
    · subst hx
      rw [hs.lookup_alter_self, hp]
      simp only [Option.some.injEq, exists_eq_left', ne_eq, not_true_eq_false, imp_false, and_true]
      constructor
      · rintro (⟨rfl, hst⟩ | rfl)
        · exact absurd rfl hst
        · rfl
      · intro hst
        exact .inr hst.symm
    · rw [lookup_alter_of_ne hx]
      simp [hx]

/-- A new proposal under review: its ID joins the review vector. -/
theorem ByStatusExact.submit (hb : ByStatusExact registry) (hs : Sorted registry.proposals)
    (hp : lookup id registry.proposals = none) (hq : q.status = .DELEGATE_REVIEW)
    (hprop : registry'.proposals = alter id (fun _ => q) registry.proposals)
    (hvec : registry'.proposals_by_status =
      pushToStatus registry.proposals_by_status .DELEGATE_REVIEW id) :
    ByStatusExact registry' where
  nodup := by
    rw [hvec]
    apply nodup_pushToStatus hb.nodup
    rw [hb.mem_iff, hp]
    simp
  mem_iff status x := by
    rw [hvec, mem_pushToStatus, hb.mem_iff, hprop]
    by_cases hx : x = id
    · subst hx
      rw [hs.lookup_alter_self, hp]
      simp [hq, eq_comm]
    · rw [lookup_alter_of_ne hx]
      simp [hx]

end transitions

-- ============================================================ calls that write no proposal

/-- The proposals and their status vectors are left alone. -/
structure KeepsProposals (registry r : GovernanceDAO) : Prop where
  proposals : r.proposals = registry.proposals
  proposals_by_status : r.proposals_by_status = registry.proposals_by_status

/-- The delegate table and its tracking set are left alone. -/
structure KeepsPanel (registry r : GovernanceDAO) : Prop where
  delegates : r.delegates = registry.delegates
  delegate_addresses : r.delegate_addresses = registry.delegate_addresses

section frame

variable {registry r : GovernanceDAO} {params : GovernanceParameters} {ctx : TxContext}

theorem update_governance_parameters_internal_eq_ok
    (h : update_governance_parameters_internal registry params = .ok r) :
    KeepsProposals registry r ∧ KeepsPanel registry r := by
  unfold update_governance_parameters_internal at h
  simp only [require_bind_eq_ok, pure_eq_ok] at h
  obtain ⟨-, -, -, -, -, rfl⟩ := h
  exact ⟨⟨rfl, rfl⟩, ⟨rfl, rfl⟩⟩

theorem update_platform_governance_parameters_eq_ok {platform_developer : ℕ}
    (h : update_platform_governance_parameters registry platform_developer params ctx = .ok r) :
    KeepsProposals registry r ∧ KeepsPanel registry r := by
  unfold update_platform_governance_parameters at h
  simp only [require_bind_eq_ok] at h
  exact update_governance_parameters_internal_eq_ok h.2.2

theorem update_governance_parameters_eq_ok (h : update_governance_parameters registry params = .ok r) :
    KeepsProposals registry r ∧ KeepsPanel registry r := by
  unfold update_governance_parameters at h
  simp only [require_bind_eq_ok] at h
  exact update_governance_parameters_internal_eq_ok h.2

theorem nominate_delegate_eq_ok (h : nominate_delegate registry ctx = .ok r) :
    KeepsProposals registry r ∧ KeepsPanel registry r := by
  unfold nominate_delegate at h
  simp only [require_bind_eq_ok] at h
  obtain ⟨-, -, h⟩ := h
  obtain ⟨_, -, h⟩ := bind_eq_ok h
  obtain ⟨_, -, h⟩ := bind_eq_ok h
  obtain ⟨_, -, h⟩ := bind_eq_ok h
  rw [pure_eq_ok] at h
  subst h
  exact ⟨⟨rfl, rfl⟩, ⟨rfl, rfl⟩⟩

/-- A vote on a delegate or a nominee writes no proposal, and no
delegate unless the target is one. -/
theorem vote_for_delegate_eq_ok {target_address : ℕ} {upvote : Bool}
    (h : vote_for_delegate registry target_address upvote ctx = .ok r) :
    KeepsProposals registry r ∧
      (lookup target_address registry.delegates = none → KeepsPanel registry r) := by
  unfold vote_for_delegate at h
  simp only [require_bind_eq_ok] at h
  obtain ⟨-, h⟩ := h
  split at h
  · next delegate hd =>
      obtain ⟨vote, -, h⟩ := bind_eq_ok h
      refine ⟨?_, fun hn => absurd (hd.symm.trans hn) (by simp)⟩
      cases vote with
      | none =>
        rw [pure_eq_ok] at h
        exact h ▸ ⟨rfl, rfl⟩
      | some v =>
        rw [pure_eq_ok] at h
        exact h ▸ ⟨rfl, rfl⟩
  · split at h
    · obtain ⟨vote, -, h⟩ := bind_eq_ok h
      cases vote with
      | none =>
        rw [pure_eq_ok] at h
        exact h ▸ ⟨⟨rfl, rfl⟩, fun _ => ⟨rfl, rfl⟩⟩
      | some v =>
        rw [pure_eq_ok] at h
        exact h ▸ ⟨⟨rfl, rfl⟩, fun _ => ⟨rfl, rfl⟩⟩
    · cases h

end frame

-- ============================================================ the panel election

@[simp] theorem sortCandidates_nil : sortCandidates [] = [] := rfl

/-- An election can only succeed on a registry with no incumbent and no
nominee in its tracking sets: `destroy_empty` of the vectors taken from
them. It then changes nothing but empty those sets. -/
theorem electPanel_eq_ok {registry r : GovernanceDAO} {ctx : TxContext}
    (h : electPanel registry ctx = .ok r) :
    registry.delegate_addresses = [] ∧ registry.nominee_addresses = [] ∧
      KeepsProposals registry r ∧ KeepsPanel registry r := by
  unfold electPanel at h
  obtain ⟨⟨delegates, delegate_addresses⟩, hwin, h⟩ := bind_eq_ok h
  simp only [destroy_empty_bind_eq_ok, pure_eq_ok] at h
  obtain ⟨hc, ha, hn, rfl⟩ := h
  -- no candidate, so no winner is added to the table the loops left
  rw [hc, ha] at hwin
  simp only [List.take_nil, List.foldlM_nil, List.foldl_nil, pure_eq_ok, Prod.mk.injEq] at hwin
  obtain ⟨rfl, rfl⟩ := hwin
  exact ⟨ha, hn, ⟨rfl, rfl⟩, ⟨rfl, ha.symm⟩⟩

theorem update_delegate_panel_eq_ok {registry r : GovernanceDAO} {ctx : TxContext}
    (h : update_delegate_panel registry ctx = .ok r) :
    KeepsProposals registry r ∧ KeepsPanel registry r := by
  unfold update_delegate_panel at h
  simp only [require_bind_eq_ok] at h
  obtain ⟨-, h⟩ := h
  split at h
  · rw [pure_eq_ok] at h
    exact h ▸ ⟨⟨rfl, rfl⟩, ⟨rfl, rfl⟩⟩
  · obtain ⟨-, -, hk, hp⟩ := electPanel_eq_ok h
    exact ⟨hk, hp⟩

-- ============================================================ submission and review

section review

variable {registry : GovernanceDAO} {id : ℕ} {ctx : TxContext}

/-- A submission adds a new proposal under review, with the submission
cost paid from the coin into its pool, and pushes its ID onto the
review vector. -/
theorem submit_proposal_internal_eq_ok {proposal_type coin : ℕ} {reference_id : Option ℕ}
    {r : GovernanceDAO × ℕ}
    (h : submit_proposal_internal registry proposal_type reference_id coin id ctx = .ok r) :
    lookup id registry.proposals = none ∧ ∃ q : Proposal,
      q.status = .DELEGATE_REVIEW ∧ q.voted_community = [] ∧ r.2 + q.reward_pool = coin ∧
      r.1.proposals = alter id (fun _ => q) registry.proposals ∧
      r.1.proposals_by_status = pushToStatus registry.proposals_by_status .DELEGATE_REVIEW id ∧
      r.1.delegates = updateDelegate registry.delegates ctx.sender
        (fun d => { d with proposals_submitted := d.proposals_submitted + 1 }) ∧
      r.1.delegate_addresses = registry.delegate_addresses := by
  unfold submit_proposal_internal at h
  simp only [require_bind_eq_ok, balance_split_bind_eq_ok] at h
  obtain ⟨-, hle, h⟩ := h
  obtain ⟨proposals, hadd, h⟩ := bind_eq_ok h
  rw [table_add_eq_ok] at hadd
  rw [pure_eq_ok] at h
  subst h
  exact ⟨hadd.1, _, rfl, rfl, by dsimp only; omega, hadd.2, rfl, rfl, rfl⟩

theorem submit_proposal_eq_ok {proposal_type coin : ℕ} {disputed_id reference_id : Option ℕ}
    {r : GovernanceDAO × ℕ}
    (h : submit_proposal registry proposal_type disputed_id reference_id coin id ctx = .ok r) :
    ∃ actual_reference_id,
      submit_proposal_internal registry proposal_type actual_reference_id coin id ctx = .ok r := by
  unfold submit_proposal at h
  simp only [require_bind_eq_ok] at h
  obtain ⟨-, -, h⟩ := h
  obtain ⟨actual_reference_id, -, h⟩ := bind_eq_ok h
  exact ⟨actual_reference_id, h⟩

/-- A rescission: the submitter's proposal under review goes to
`OWNER_RESCIND`, and its pool back to the submitter. -/
theorem rescind_proposal_eq_ok {r : GovernanceDAO × Payments}
    (h : rescind_proposal registry id ctx = .ok r) :
    ∃ p, lookup id registry.proposals = some p ∧ p.submitter = ctx.sender ∧
      p.status = .DELEGATE_REVIEW ∧
      r = ({ setProposal registry id { p with reward_pool := 0, status := .OWNER_RESCIND } with
        proposals_by_status := pushToStatus
          (removeFromStatus registry.proposals_by_status .DELEGATE_REVIEW id) .OWNER_RESCIND id },
        refund ctx.sender p.reward_pool) := by
  unfold rescind_proposal at h
  obtain ⟨p, hp, h⟩ := bind_eq_ok h
  simp only [require_bind_eq_ok, pure_eq_ok] at h
  obtain ⟨hsub, hst, rfl⟩ := h
  exact ⟨p, borrowProposal_eq_ok.mp hp, hsub, hst, rfl⟩

/-- A rejection under review: the proposal goes to `REJECTED`, and its
pool back to the submitter. -/
theorem reject_proposal_by_id_eq_ok {r : GovernanceDAO × Payments}
    (h : reject_proposal_by_id registry id = .ok r) :
    ∃ p, lookup id registry.proposals = some p ∧
      r = ({ setProposal registry id { p with status := .REJECTED, reward_pool := 0 } with
        proposals_by_status := pushToStatus
          (removeFromStatus registry.proposals_by_status .DELEGATE_REVIEW id) .REJECTED id },
        refund p.submitter p.reward_pool) := by
  unfold reject_proposal_by_id at h
  obtain ⟨p, hp, h⟩ := bind_eq_ok h
  rw [pure_eq_ok] at h
  exact ⟨p, table_borrow_eq_ok.mp hp, h.symm⟩

/-- A delegate vote is made by a delegate. -/
theorem delegate_vote_on_proposal_sender {approve : Bool} {r : GovernanceDAO × Payments}
    (h : delegate_vote_on_proposal registry id approve ctx = .ok r) :
    (lookup ctx.sender registry.delegates).isSome := by
  unfold delegate_vote_on_proposal at h
  simp only [require_bind_eq_ok] at h
  exact h.1

/-- A manual rejection is made by a delegate, on a proposal under
review. -/
theorem reject_proposal_manually_eq_ok {r : GovernanceDAO × Payments}
    (h : reject_proposal_manually registry id ctx = .ok r) :
    (lookup ctx.sender registry.delegates).isSome ∧ ∃ p, lookup id registry.proposals = some p ∧
      p.status = .DELEGATE_REVIEW ∧ reject_proposal_by_id registry id = .ok r := by
  unfold reject_proposal_manually at h
  simp only [require_bind_eq_ok] at h
  obtain ⟨hd, h⟩ := h
  obtain ⟨p, hp, h⟩ := bind_eq_ok h
  simp only [require_bind_eq_ok] at h
  exact ⟨hd, p, borrowProposal_eq_ok.mp hp, h⟩

/-- Marking as implemented: an approved proposal goes to `IMPLEMENTED`. -/
theorem mark_proposal_implemented_eq_ok {r : GovernanceDAO}
    (h : mark_proposal_implemented registry id ctx = .ok r) :
    ∃ p, lookup id registry.proposals = some p ∧ p.status = .APPROVED ∧
      r = { setProposal registry id { p with status := .IMPLEMENTED } with
        proposals_by_status := pushToStatus
          (removeFromStatus registry.proposals_by_status .APPROVED id) .IMPLEMENTED id } := by
  unfold mark_proposal_implemented at h
  obtain ⟨p, hp, h⟩ := bind_eq_ok h
  simp only [require_bind_eq_ok, pure_eq_ok] at h
  obtain ⟨hst, -, rfl⟩ := h
  exact ⟨p, borrowProposal_eq_ok.mp hp, hst, rfl⟩

end review

-- ============================================================ community votes

/-- The cost of a vote of weight at least 1 is the quadratic formula. -/
theorem calculate_vote_cost_eq {vote_count : ℕ} (registry : GovernanceDAO) (h : 0 < vote_count) :
    calculate_vote_cost vote_count registry =
      registry.quadratic_base_cost * (vote_count ^ 2 - 1) := by
  unfold calculate_vote_cost
  split
  · -- a single vote is free, as the formula says
    obtain rfl : vote_count = 1 := by omega
    simp
  · rw [Nat.pow_two]

theorem payVoteCost_eq_ok {vote_cost coin pool coin' pool' : ℕ}
    (h : payVoteCost vote_cost coin pool = .ok (coin', pool')) :
    coin' + vote_cost = coin ∧ pool' = pool + vote_cost := by
  unfold payVoteCost at h
  split at h
  · simp only [require_bind_eq_ok, balance_split_bind_eq_ok, pure_eq_ok, Prod.mk.injEq] at h
    obtain ⟨-, hle, rfl, rfl⟩ := h
    exact ⟨by omega, rfl⟩
  · simp only [pure_eq_ok, Prod.mk.injEq] at h
    obtain ⟨rfl, rfl⟩ := h
    exact ⟨by omega, by omega⟩

/-- A public vote's tally adds its weight to one side and changes no
status, pool or list of voters. -/
theorem tallyCommunityVote_eq_ok {p q : Proposal} {voter vote_count : ℕ} {approve : Bool}
    (h : tallyCommunityVote p voter vote_count approve = .ok q) :
    q.status = p.status ∧ q.reward_pool = p.reward_pool ∧
      q.voted_community = p.voted_community ∧
      q.community_votes_for + q.community_votes_against =
        p.community_votes_for + p.community_votes_against + vote_count := by
  unfold tallyCommunityVote at h
  split at h
  · obtain ⟨_, -, h⟩ := bind_eq_ok h
    rw [pure_eq_ok] at h
    subst h
    exact ⟨rfl, rfl, rfl, by dsimp only; omega⟩
  · obtain ⟨_, -, h⟩ := bind_eq_ok h
    rw [pure_eq_ok] at h
    subst h
    exact ⟨rfl, rfl, rfl, by dsimp only; omega⟩

section votes

variable {registry : GovernanceDAO} {id : ℕ} {ctx : TxContext}

/-- A public vote of weight `vote_count` on a proposal in its voting
period, by an address that has not voted: the voter is recorded once,
the weight counted, and the cost paid from the coin into the pool. -/
theorem community_vote_on_proposal_eq_ok {vote_count coin : ℕ} {approve : Bool}
    {r : GovernanceDAO × ℕ}
    (h : community_vote_on_proposal registry id vote_count approve coin ctx = .ok r) :
    ∃ p q, lookup id registry.proposals = some p ∧ p.status = .COMMUNITY_VOTING ∧
      ctx.epoch_timestamp_ms ≤ p.voting_end_time ∧ 0 < vote_count ∧
      ctx.sender ∉ p.voted_community ∧
      q.status = p.status ∧ q.voted_community = p.voted_community ++ [ctx.sender] ∧
      q.reward_pool = p.reward_pool + calculate_vote_cost vote_count registry ∧
      q.community_votes_for + q.community_votes_against =
        p.community_votes_for + p.community_votes_against + vote_count ∧
      r.2 + calculate_vote_cost vote_count registry = coin ∧
      r.1 = setProposal registry id q := by
  unfold community_vote_on_proposal at h
  obtain ⟨p, hp, h⟩ := bind_eq_ok h
  simp only [require_bind_eq_ok] at h
  obtain ⟨hst, hend, hpos, -, hnew, h⟩ := h
  obtain ⟨⟨coin', pool⟩, hpay, h⟩ := bind_eq_ok h
  obtain ⟨voted, hvoted, h⟩ := bind_eq_ok h
  obtain ⟨q, hq, h⟩ := bind_eq_ok h
  rw [pure_eq_ok] at h
  subst h
  obtain ⟨hcoin, rfl⟩ := payVoteCost_eq_ok hpay
  obtain ⟨-, rfl⟩ := vec_set_insert_eq_ok.mp hvoted
  obtain ⟨hqs, hqp, hqv, hqt⟩ := tallyCommunityVote_eq_ok hq
  exact ⟨p, q, borrowProposal_eq_ok.mp hp, hst, hend, hpos, hnew, hqs, hqv, hqp, hqt, hcoin, rfl⟩

/-- An anonymous vote on a proposal in its voting period, by an address
that is no delegate and has not voted: the voter is recorded once, and
nothing is counted yet. -/
theorem community_vote_anonymous_eq_ok {encrypted_vote : EncryptedObject} {r : GovernanceDAO}
    (h : community_vote_anonymous registry id encrypted_vote ctx = .ok r) :
    ∃ p q, lookup id registry.proposals = some p ∧ p.status = .COMMUNITY_VOTING ∧
      ctx.sender ∉ p.voted_community ∧
      q.status = p.status ∧ q.voted_community = p.voted_community ++ [ctx.sender] ∧
      q.reward_pool = p.reward_pool ∧ q.community_votes_for = p.community_votes_for ∧
      q.community_votes_against = p.community_votes_against ∧
      r = setProposal registry id q := by
  unfold community_vote_anonymous at h
  obtain ⟨p, hp, h⟩ := bind_eq_ok h
  simp only [require_bind_eq_ok] at h
  obtain ⟨hst, -, -, hnew, h⟩ := h
  obtain ⟨voted, hvoted, h⟩ := bind_eq_ok h
  obtain ⟨encrypted_votes, -, h⟩ := bind_eq_ok h
  obtain ⟨anon_voters, -, h⟩ := bind_eq_ok h
  rw [pure_eq_ok] at h
  subst h
  obtain ⟨-, rfl⟩ := vec_set_insert_eq_ok.mp hvoted
  exact ⟨p, { p with
      voted_community := p.voted_community ++ [ctx.sender]
      encrypted_votes := encrypted_votes
      anon_voters := anon_voters },
    borrowProposal_eq_ok.mp hp, hst, hnew, rfl, rfl, rfl, rfl, rfl, rfl⟩

end votes

-- ============================================================ finalization

/-- The community's verdict on a proposal's tallies: a quorum of votes
and more for than against. -/
def Passes (registry : GovernanceDAO) (p : Proposal) : Prop :=
  registry.quorum_votes ≤ p.community_votes_for + p.community_votes_against ∧
    p.community_votes_against < p.community_votes_for

instance (registry : GovernanceDAO) (p : Proposal) : Decidable (Passes registry p) :=
  inferInstanceAs (Decidable (_ ∧ _))

/-- The shares of a pool change only the pool. -/
theorem shareRewards_eq_ok {p q : Proposal} {voters_vec : List ℕ} {payments : Payments}
    (h : shareRewards p voters_vec = .ok (q, payments)) :
    ∃ reward_pool, q = { p with reward_pool } := by
  unfold shareRewards at h
  obtain ⟨⟨reward_pool, _⟩, -, h⟩ := bind_eq_ok h
  simp only [require_bind_eq_ok, destroy_empty_bind_eq_ok, pure_eq_ok, Prod.mk.injEq] at h
  exact ⟨reward_pool, h.2.2.1.symm⟩

/-- A distribution of the rewards changes only the pool. -/
theorem distribute_rewards_eq_ok {p q : Proposal} {approve_won : Bool} {payments : Payments}
    (h : distribute_rewards p approve_won = .ok (q, payments)) :
    ∃ reward_pool, q = { p with reward_pool } := by
  unfold distribute_rewards at h
  dsimp only at h
  generalize (if approve_won then p.voted_for else p.voted_against) = voters_vec at h
  by_cases h0 : p.reward_pool = 0
  · rw [if_pos h0, pure_eq_ok, Prod.mk.injEq] at h
    exact ⟨p.reward_pool, h.1.symm⟩
  · rw [if_neg h0] at h
    by_cases hn : voters_vec.length = 0
    · simp only [if_pos hn, destroy_empty_bind_eq_ok, pure_eq_ok, Prod.mk.injEq] at h
      exact ⟨0, h.2.1.symm⟩
    · rw [if_neg hn] at h
      exact shareRewards_eq_ok h

/-- On an empty delegate table the loop over the delegates who voted
finds none. -/
theorem foldlM_sideDelegate_nil {delegate_votes : List (ℕ × Bool)} {majority_approve : Bool}
    {l : List ℕ} {delegates : List (ℕ × Delegate)}
    (h : l.foldlM (sideDelegate delegate_votes majority_approve) [] = .ok delegates) :
    delegates = [] := by
  refine foldlM_inv (fun d => d = []) rfl (fun a addr b _ ha hb => ?_) h
  subst ha
  simp only [sideDelegate, lookup, pure_eq_ok] at hb
  exact hb.symm

/-- A finalization: a proposal in community voting, past its voting
period, is approved when it passes and rejected otherwise; only its
status and pool change, and its ID moves from the voting vector to its
new status's. -/
theorem finalize_proposal_eq_ok {registry : GovernanceDAO} {id : ℕ} {ctx : TxContext}
    {r : GovernanceDAO × Payments} (h : finalize_proposal registry id ctx = .ok r) :
    ∃ p status reward_pool, lookup id registry.proposals = some p ∧
      p.status = .COMMUNITY_VOTING ∧ p.voting_end_time < ctx.epoch_timestamp_ms ∧
      (status = .APPROVED ∧ Passes registry p ∨ status = .REJECTED ∧ ¬ Passes registry p) ∧
      r.1.proposals = alter id (fun _ => { p with status, reward_pool }) registry.proposals ∧
      r.1.proposals_by_status = pushToStatus
        (removeFromStatus registry.proposals_by_status .COMMUNITY_VOTING id) status id ∧
      (registry.delegates = [] → r.1.delegates = []) ∧
      r.1.delegate_addresses = registry.delegate_addresses := by
  unfold finalize_proposal at h
  obtain ⟨p, hp, h⟩ := bind_eq_ok h
  simp only [require_bind_eq_ok] at h
  obtain ⟨hst, hend, h⟩ := h
  rw [borrowProposal_eq_ok] at hp
  split at h
  · next hquorum =>
      unfold finalizeWithQuorum at h
      obtain ⟨delegates, hdel, h⟩ := bind_eq_ok h
      obtain ⟨⟨q, payments⟩, hdist, h⟩ := bind_eq_ok h
      rw [pure_eq_ok] at h
      subst h
      obtain ⟨reward_pool, rfl⟩ := distribute_rewards_eq_ok hdist
      refine ⟨p, _, reward_pool, hp, hst, hend, ?_, rfl, rfl,
        fun h0 => foldlM_sideDelegate_nil (h0 ▸ hdel), rfl⟩
      -- the majority decides, the quorum being met
      by_cases hm : p.community_votes_against < p.community_votes_for
      · exact .inl ⟨by simp [hm], hquorum, hm⟩
      · exact .inr ⟨by simp [hm], fun hpass => hm hpass.2⟩
  · next hquorum =>
      rw [pure_eq_ok] at h
      subst h
      exact ⟨p, .REJECTED, 0, hp, hst, hend, .inr ⟨rfl, fun hpass => hquorum hpass.1⟩, rfl, rfl,
        fun h0 => h0, rfl⟩

/-- An anonymous finalization succeeds only when no ballot was cast:
the vector of the anonymous voters is destroyed after the loop that
reads it. It is then the finalization of the public tallies. -/
theorem finalize_proposal_anonymous_eq_ok {registry : GovernanceDAO} {id : ℕ}
    {decrypt : EncryptedObject → Option (List ℕ)} {ctx : TxContext} {r : GovernanceDAO × Payments}
    (hs : Sorted registry.proposals)
    (h : finalize_proposal_anonymous registry id decrypt ctx = .ok r) :
    ∃ p, lookup id registry.proposals = some p ∧ p.anon_voters = [] ∧
      finalize_proposal registry id ctx = .ok r := by
  unfold finalize_proposal_anonymous at h
  obtain ⟨p, hp, h⟩ := bind_eq_ok h
  simp only [require_bind_eq_ok] at h
  obtain ⟨-, -, h⟩ := h
  obtain ⟨ballots, hballots, h⟩ := bind_eq_ok h
  simp only [destroy_empty_bind_eq_ok] at h
  obtain ⟨hanon, -, h⟩ := h
  rw [borrowProposal_eq_ok] at hp
  -- no voter, so no ballot to count
  rw [hanon, List.foldlM_nil, pure_eq_ok] at hballots
  subst hballots
  simp only [List.foldlM_nil, pure_bind, destroy_empty_bind_eq_ok, true_and] at h
  rw [setProposal_of_lookup hs hp] at h
  exact ⟨p, hp, hanon, h⟩

end MysoCore.Social.Governance
