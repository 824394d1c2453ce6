/-
The calls a pool makes on its state (orderbook/sources/pool.move, over
state.move), and what holds of every state a run of them reaches.

# Runs

`Call` lists the pool's entry points into its state, with the burn of
the MYSO fees that `pool::burn_myso` takes from the history. A call that
aborts aborts its transaction and leaves the state as it was, so
`Reachable` grows by the calls that succeed, each in an epoch no
earlier than the pool's: the chain's epochs only move forward.
`Reachable.inv` carries `Inv` and `QuorumOK` from the new pool through
every call.

# What holds

The governance's totals are the re-tally over the accounts; its fees
are ones the pool's kind may charge and its proposals fit in their
table; at most one proposal is above the quorum, and that proposal is
the next trade parameters. The subtractions of `process_unstake` and
`process_vote` never underflow, so the model's truncated subtraction is
the source's. A vote or a proposal aborts only on its own checks.

# Overflow

Of the source's `u64` overflow aborts the model keeps the one of
`Account.add_stake`, so a stake can abort. The others (the governance's
total voting power in `adjust_voting_power`, a proposal's votes in
`adjust_vote`, a rebate cast to `u64`) are steps the model takes where
the source aborts: `Reachable` holds of every state a run of the source
reaches, and of more, so what holds of every reachable state holds of the
source's runs. The abort results speak of the aborts the model has.
-/
import MysoCore.Orderbook.State.Quorum

namespace MysoCore.Orderbook

namespace state

open ExceptFold account history governance

/-- A call of the pool on its state. -/
inductive Call
  | create (order_info : OrderInfo) (ewma_state : EWMAState)
  | withdraw_settled_amounts (balance_manager_id : ℕ)
  | cancel (order : Order) (balance_manager_id : ℕ)
  | modify (balance_manager_id cancel_quantity : ℕ) (order : Order)
  | stake (balance_manager_id new_stake : ℕ)
  | unstake (balance_manager_id : ℕ)
  | proposal (balance_manager_id taker_fee maker_fee stake_required : ℕ)
  | vote (balance_manager_id proposal_id : ℕ)
  | claim_rebates (balance_manager_id : ℕ)
  | burn

namespace Call

/-- A call's effect on the state; what it returns to the pool is left
out. -/
def apply (self : State) (ctx : TxContext) : Call → Except StateAbort State
  | .create order_info ewma_state => (·.1) <$> self.process_create order_info ewma_state ctx
  | .withdraw_settled_amounts balance_manager_id => .ok (self.withdraw_settled_amounts balance_manager_id).1
  | .cancel order balance_manager_id => (·.1) <$> self.process_cancel order balance_manager_id ctx
  | .modify balance_manager_id cancel_quantity order =>
      (·.1) <$> self.process_modify balance_manager_id cancel_quantity order ctx
  | .stake balance_manager_id new_stake => (·.1) <$> self.process_stake balance_manager_id new_stake ctx
  | .unstake balance_manager_id => (·.1) <$> self.process_unstake balance_manager_id ctx
  | .proposal balance_manager_id taker_fee maker_fee stake_required =>
      self.process_proposal balance_manager_id taker_fee maker_fee stake_required ctx
  | .vote balance_manager_id proposal_id => self.process_vote balance_manager_id proposal_id ctx
  | .claim_rebates balance_manager_id => (·.1) <$> self.process_claim_rebates balance_manager_id ctx
  | .burn => .ok { self with history := self.history.reset_balance_to_burn.1 }

end Call

/-- The states a pool reaches from its creation by calls that succeed,
each in an epoch no earlier than the pool's. -/
inductive Reachable : State → Prop
  | empty (whitelisted stable_pool : Bool) (ctx : TxContext) :
      Reachable (State.empty whitelisted stable_pool ctx)
  | step {self self' : State} {ctx : TxContext} (call : Call) : Reachable self →
      self.governance.epoch ≤ ctx.epoch → call.apply self ctx = .ok self' → Reachable self'

namespace State

variable {self self' : State} {ctx : TxContext}

-- ============================================================ the invariants over runs

/-- One call keeps both invariants: one case per call, each the call's
own step lemmas. -/
theorem invs_apply (h : self.Inv) (hq : self.QuorumOK) (hle : self.governance.epoch ≤ ctx.epoch)
    (call : Call) (hr : call.apply self ctx = .ok self') : self'.Inv ∧ self'.QuorumOK := by
  cases call with
  | create order_info ewma_state =>
      obtain ⟨r, hr', rfl⟩ := map_eq_ok hr
      exact ⟨h.process_create hle hr', hq.process_create h hle hr'⟩
  | withdraw_settled_amounts balance_manager_id =>
      cases hr
      exact ⟨h.withdraw_settled_amounts balance_manager_id,
        hq.withdraw_settled_amounts balance_manager_id⟩
  | cancel order balance_manager_id =>
      obtain ⟨r, hr', rfl⟩ := map_eq_ok hr
      exact ⟨h.process_cancel hle hr', hq.process_cancel h hle hr'⟩
  | modify balance_manager_id cancel_quantity order =>
      obtain ⟨r, hr', rfl⟩ := map_eq_ok hr
      exact ⟨h.process_modify hle hr', hq.process_modify h hle hr'⟩
  | stake balance_manager_id new_stake =>
      obtain ⟨r, hr', rfl⟩ := map_eq_ok hr
      exact ⟨h.process_stake hle hr', hq.process_stake h hle hr'⟩
  | unstake balance_manager_id =>
      obtain ⟨r, hr', rfl⟩ := map_eq_ok hr
      exact ⟨h.process_unstake hle hr', hq.process_unstake h hle hr'⟩
  | proposal balance_manager_id taker_fee maker_fee stake_required =>
      exact ⟨h.process_proposal hle hr, hq.process_proposal h hle hr⟩
  | vote balance_manager_id proposal_id =>
      exact ⟨h.process_vote hle hr, hq.process_vote h hle hr⟩
  | claim_rebates balance_manager_id =>
      obtain ⟨r, hr', rfl⟩ := map_eq_ok hr
      exact ⟨h.process_claim_rebates hle hr', hq.process_claim_rebates h hle hr'⟩
  | burn =>
      cases hr
      -- the burn only resets the MYSO to burn
      exact ⟨h.setHistory History.reset_balance_to_burn_sameEpoch
          (History.reset_balance_to_burn_sameEpoch.stakedGrows le_rfl),
        ⟨hq.bound, hq.winner⟩⟩

/-- The two refreshes a call starts with never abort in a state that
keeps the invariant. -/
theorem Inv.touch_ok (h : self.Inv) (hle : self.governance.epoch ≤ ctx.epoch) (balance_manager_id : ℕ) :
    ∃ mid mid', self.refresh ctx = .ok mid ∧ mid.update_account balance_manager_id ctx = .ok mid' := by
  obtain ⟨mid, h1⟩ := h.refresh_ok hle
  obtain ⟨hmid, he⟩ := h.refresh hle h1
  obtain ⟨mid', h2⟩ := hmid.update_account_ok he balance_manager_id
  exact ⟨mid, mid', h1, h2⟩

/-- The vote a proposal makes for itself does not abort: at the same
epoch neither refresh changes the governance or the account's stake, and
the proposal is there. -/
theorem Inv.process_vote_own_proposal (h : self.Inv) (he : self.governance.epoch = ctx.epoch)
    {balance_manager_id : ℕ} {a : account.Account} (ha : self.accounts.get balance_manager_id = some a)
    (hae : a.epoch = ctx.epoch) (hstake : a.active_stake > 0)
    (hp : self.governance.proposals.get balance_manager_id ≠ none) {e : StateAbort} :
    self.process_vote balance_manager_id balance_manager_id ctx ≠ .error e := by
  intro hvote
  obtain ⟨mid, mid', h1, h2⟩ := h.touch_ok he.le balance_manager_id
  obtain ⟨history', -, rfl⟩ := refresh_eq_ok.mp h1
  obtain ⟨a', haccounts, hr, hgov, -, -⟩ := update_account_refreshed h2
  have hupd : self.governance.update ctx = self.governance := by
    rcases @Governance.update_cases self.governance ctx with ⟨-, hu⟩ | ⟨hne, -⟩
    · exact hu
    · exact absurd he hne
  have hof : ({ self with governance := self.governance.update ctx, history := history' } : State).accountOf
      balance_manager_id ctx = a := by
    simp [accountOf, ha]
  obtain ⟨hs, -⟩ := hr.kept (by rw [hof, hae])
  rw [hof] at hs
  have hb : mid'.accounts.borrow balance_manager_id StateAbort.EFieldDoesNotExist = .ok a' :=
    VecMap.borrow_eq_ok.mpr (by rw [haccounts, VecMap.get_set, if_pos rfl])
  unfold State.process_vote at hvote
  simp only [h1, h2, hb, ok_bind, require_bind_eq_error] at hvote
  rcases hvote with ⟨hno, -⟩ | ⟨-, hvote⟩
  · -- the stake is the account's own
    apply hno
    rw [hs.active_stake]
    exact hstake
  · rcases bind_eq_error.mp hvote with hv | ⟨_, -, hpure⟩
    · -- the proposal is still there
      obtain ⟨-, id, hid, hnone⟩ := Governance.adjust_vote_eq_error hv
      cases hid
      apply hp
      rw [hgov] at hnone
      simpa [hupd] using hnone
    · cases hpure

end State

open State

variable {self : State} {ctx : TxContext}

/-- Every reachable state keeps both invariants, by induction on the run. -/
theorem Reachable.inv (h : Reachable self) : self.Inv ∧ self.QuorumOK := by
  induction h with
  | empty whitelisted stable_pool ctx =>
      exact ⟨empty_inv whitelisted stable_pool ctx, empty_quorumOK whitelisted stable_pool ctx⟩
  | step call _ hle hr ih => exact invs_apply ih.1 ih.2 hle call hr

/-- A run of a volatile pool's governance: in epoch 0 balance managers
0, 1 and 2 stake 1000, 600 and 300; in epoch 1 managers 0 and 1 propose
and manager 2 votes for manager 0's proposal, which takes it above the
quorum. What the run computes is what the results below are tried on. -/
theorem governed_pool :
    ∃ s, Reachable s ∧ s.governance.epoch = 1 ∧ s.governance.voting_power = 1900 ∧
      s.governance.quorum = 950 ∧
      (s.governance.proposals.get 0).map (·.votes) = some 1300 ∧
      (s.governance.proposals.get 1).map (·.votes) = some 600 ∧
      s.governance.next_trade_params = ⟨200000, 100000, 0⟩ ∧
      (s.accounts.get 2).map (fun a => (a.epoch, a.active_stake, a.voted_proposal)) = some (1, 300, some 0) ∧
      (∃ mid mid', s.refresh ⟨1, 0, 0⟩ = .ok mid ∧ mid.update_account 2 ⟨1, 0, 0⟩ = .ok mid' ∧
        (mid'.accounts.get 2).map (fun a => (a.active_stake, a.voted_proposal)) = some (300, some 0) ∧
        (mid'.governance.proposals.get 0).map (·.votes) = some 1300) ∧
      s.process_vote 2 7 ⟨1, 0, 0⟩ = .error .EProposalDoesNotExist ∧
      s.process_proposal 0 200000 100000 0 ⟨1, 0, 0⟩ = .error .EAlreadyProposed := by
  have h1 := @Reachable.step _ _ ⟨0, 0, 0⟩ (.stake 0 1000) (.empty false false ⟨0, 0, 0⟩) (by decide) rfl
  have h2 := @Reachable.step _ _ ⟨0, 0, 0⟩ (.stake 1 600) h1 (by decide) rfl
  have h3 := @Reachable.step _ _ ⟨0, 0, 0⟩ (.stake 2 300) h2 (by decide) rfl
  -- epoch 1: the stake is active, and the quorum is half of the 1900 votes
  have h4 := @Reachable.step _ _ ⟨1, 0, 0⟩ (.proposal 0 200000 100000 0) h3 (by decide) rfl
  have h5 := @Reachable.step _ _ ⟨1, 0, 0⟩ (.proposal 1 300000 200000 0) h4 (by decide) rfl
  have h6 := @Reachable.step _ _ ⟨1, 0, 0⟩ (.vote 2 0) h5 (by decide) rfl
  exact ⟨_, h6, rfl, rfl, rfl, rfl, rfl, rfl, rfl, ⟨_, _, rfl, rfl, rfl, rfl⟩, rfl, rfl⟩

-- ============================================================ the governance

/-- The governance's totals, kept incrementally, are the re-tally over
the accounts: the voting power of all the stake, and for each proposal
the voting power of the active stake of the accounts whose vote of the
epoch is for it. -/
theorem governance_tallies_retally (h : Reachable self) :
    self.governance.voting_power = (self.accounts.sum fun _ a => a.power) ∧
      ∀ id p, self.governance.proposals.get id = some p →
        p.votes = self.accounts.sum fun _ a => a.votesFor self.governance.epoch id :=
  ⟨h.inv.1.governanceOK.voting_power, h.inv.1.governanceOK.tally⟩

theorem governed_pool_tallies :
    ∃ s, Reachable s ∧ s.governance.voting_power = 1900 ∧
      (s.governance.proposals.get 0).map (·.votes) = some 1300 ∧
      (s.governance.proposals.get 1).map (·.votes) = some 600 ∧
      (s.governance.voting_power = (s.accounts.sum fun _ a => a.power) ∧
        ∀ id p, s.governance.proposals.get id = some p →
          p.votes = s.accounts.sum fun _ a => a.votesFor s.governance.epoch id) := by
  obtain ⟨s, hs, -, hvp, -, h0, h1, -⟩ := governed_pool
  exact ⟨s, hs, hvp, h0, h1, governance_tallies_retally hs⟩

/-- The current and next trade parameters, and every proposal's, are
fees a pool of its kind may charge. -/
theorem governance_fees_within_bounds (h : Reachable self) : self.governance.ParamsOK :=
  h.inv.1.governanceOK.params

theorem governed_pool_fees :
    ∃ s, Reachable s ∧ s.governance.next_trade_params = ⟨200000, 100000, 0⟩ ∧
      (s.governance.proposals.get 1).map (·.votes) = some 600 ∧ s.governance.ParamsOK := by
  obtain ⟨s, hs, -, -, -, -, h1, hnext, -⟩ := governed_pool
  exact ⟨s, hs, hnext, h1, governance_fees_within_bounds hs⟩

/-- A pool never holds more than `MAX_PROPOSALS` proposals: a proposal
made when they are all there replaces one. -/
theorem proposals_within_max (h : Reachable self) :
    self.governance.proposals.length ≤ MAX_PROPOSALS :=
  h.inv.1.governanceOK.proposals_length

/-- No two proposals of an epoch are above the quorum. -/
theorem one_proposal_above_quorum (h : Reachable self) : self.governance.AtMostOneAbove :=
  h.inv.1.atMostOneAbove h.inv.2.bound

theorem governed_pool_one_above :
    ∃ s, Reachable s ∧ s.governance.quorum = 950 ∧
      (s.governance.proposals.get 0).map (·.votes) = some 1300 ∧
      (s.governance.proposals.get 1).map (·.votes) = some 600 ∧ s.governance.AtMostOneAbove := by
  obtain ⟨s, hs, -, -, hq, h0, h1, -⟩ := governed_pool
  exact ⟨s, hs, hq, h0, h1, one_proposal_above_quorum hs⟩

/-- A proposal above the quorum is the next trade parameters, which the
next epoch adopts. -/
theorem winner_is_next_trade_params (h : Reachable self) : self.governance.WinnerNext :=
  h.inv.2.winner

theorem governed_pool_winner :
    ∃ s, Reachable s ∧ s.governance.quorum = 950 ∧
      (s.governance.proposals.get 0).map (·.votes) = some 1300 ∧
      s.governance.next_trade_params = ⟨200000, 100000, 0⟩ ∧ s.governance.WinnerNext := by
  obtain ⟨s, hs, -, -, hq, h0, -, hnext, -⟩ := governed_pool
  exact ⟨s, hs, hq, h0, hnext, winner_is_next_trade_params hs⟩

-- ============================================================ the history

/-- The history is in the governance's epoch, and every epoch an account
was last touched in is filed in it, so the rebate `update_account` looks
up is there. -/
theorem history_files_account_epochs (h : Reachable self) :
    self.history.epoch = self.governance.epoch ∧
      ∀ id a, self.accounts.get id = some a →
        a.epoch ≤ self.governance.epoch ∧ self.history.historic_volumes.get a.epoch ≠ none :=
  ⟨h.inv.1.historyOK.epoch, h.inv.1.historyOK.account_epoch⟩

theorem governed_pool_history :
    ∃ s, Reachable s ∧ s.governance.epoch = 1 ∧
      (s.accounts.get 2).map (fun a => (a.epoch, a.active_stake, a.voted_proposal)) = some (1, 300, some 0) ∧
      (s.history.epoch = s.governance.epoch ∧
        ∀ id a, s.accounts.get id = some a →
          a.epoch ≤ s.governance.epoch ∧ s.history.historic_volumes.get a.epoch ≠ none) := by
  obtain ⟨s, hs, he, -, -, -, -, -, ha, -⟩ := governed_pool
  exact ⟨s, hs, he, ha, history_files_account_epochs hs⟩

-- ============================================================ the subtractions and the aborts

/-- After the two refreshes, the account's voting power is within the
total, and its vote within the votes of the proposal it is for: what
`adjust_voting_power` and `adjust_vote` subtract is there. -/
theorem unstake_vote_subtractions_in_range (h : Reachable self)
    (hle : self.governance.epoch ≤ ctx.epoch) {balance_manager_id : ℕ} {mid mid' : State}
    (h1 : self.refresh ctx = .ok mid) (h2 : mid.update_account balance_manager_id ctx = .ok mid') :
    ∃ a, mid'.accounts.get balance_manager_id = some a ∧
      votingPower (a.active_stake + a.inactive_stake) ≤ mid'.governance.voting_power ∧
      ∀ pid p, a.voted_proposal = some pid → mid'.governance.proposals.get pid = some p →
        votingPower a.active_stake ≤ p.votes := by
  obtain ⟨hinv, -⟩ := h.inv
  obtain ⟨hmid', he, a, ha, hae⟩ := hinv.touch hle h1 h2
  exact ⟨a, ha, hmid'.power_le_voting_power ha,
    fun _ _ hv hp => hmid'.vote_le_votes ha (hae.trans he.symm) hv hp⟩

theorem governed_pool_subtractions :
    ∃ s mid mid', Reachable s ∧ s.refresh ⟨1, 0, 0⟩ = .ok mid ∧ mid.update_account 2 ⟨1, 0, 0⟩ = .ok mid' ∧
      (mid'.accounts.get 2).map (fun a => (a.active_stake, a.voted_proposal)) = some (300, some 0) ∧
      (mid'.governance.proposals.get 0).map (·.votes) = some 1300 ∧
      ∃ a, mid'.accounts.get 2 = some a ∧
        votingPower (a.active_stake + a.inactive_stake) ≤ mid'.governance.voting_power ∧
        ∀ pid p, a.voted_proposal = some pid → mid'.governance.proposals.get pid = some p →
          votingPower a.active_stake ≤ p.votes := by
  obtain ⟨s, hs, he, -, -, -, -, -, -, ⟨mid, mid', h1, h2, ha, hp⟩, -⟩ := governed_pool
  have hle : s.governance.epoch ≤ (⟨1, 0, 0⟩ : TxContext).epoch := he.le
  exact ⟨s, mid, mid', hs, h1, h2, ha, hp, unstake_vote_subtractions_in_range hs hle h1 h2⟩

/-- A vote aborts only for want of active stake or of the proposal it is
for: never on a lookup of the pool's own tables. -/
theorem vote_aborts_only_on_checks (h : Reachable self) (hle : self.governance.epoch ≤ ctx.epoch)
    {balance_manager_id proposal_id : ℕ} {e : StateAbort}
    (he : self.process_vote balance_manager_id proposal_id ctx = .error e) :
    e = .ENoStake ∨ e = .EProposalDoesNotExist := by
  obtain ⟨hinv, -⟩ := h.inv
  obtain ⟨mid, mid', h1, h2⟩ := hinv.touch_ok hle balance_manager_id
  obtain ⟨-, -, a, ha, -⟩ := hinv.touch hle h1 h2
  have hb : mid'.accounts.borrow balance_manager_id StateAbort.EFieldDoesNotExist = .ok a :=
    VecMap.borrow_eq_ok.mpr ha
  unfold process_vote at he
  simp only [h1, h2, hb, ok_bind, require_bind_eq_error] at he
  rcases he with ⟨-, rfl⟩ | ⟨-, he⟩
  · exact .inl rfl
  · rcases bind_eq_error.mp he with hv | ⟨_, -, hpure⟩
    · exact .inr (Governance.adjust_vote_eq_error hv).1
    · cases hpure

theorem governed_pool_vote_aborts :
    ∃ s, Reachable s ∧ s.process_vote 2 7 ⟨1, 0, 0⟩ = .error .EProposalDoesNotExist ∧
      (StateAbort.EProposalDoesNotExist = .ENoStake ∨
        StateAbort.EProposalDoesNotExist = .EProposalDoesNotExist) := by
  obtain ⟨s, hs, he, -, -, -, -, -, -, -, hv, -⟩ := governed_pool
  have hle : s.governance.epoch ≤ (⟨1, 0, 0⟩ : TxContext).epoch := he.le
  exact ⟨s, hs, hv, vote_aborts_only_on_checks hs hle hv⟩

/-- A proposal aborts only on its own checks: no active stake, a
proposal already made in the epoch, a whitelisted pool, fees out of
bounds, or no room and no proposal with fewer votes. Its insertion under
the account's id, and the vote for it that follows, never abort. -/
theorem proposal_aborts_only_on_checks (h : Reachable self) (hle : self.governance.epoch ≤ ctx.epoch)
    {balance_manager_id taker_fee maker_fee stake_required : ℕ} {e : StateAbort}
    (he : self.process_proposal balance_manager_id taker_fee maker_fee stake_required ctx = .error e) :
    e = .ENoStake ∨ e = .EAlreadyProposed ∨ e = .EWhitelistedPoolCannotChange ∨
      e = .EInvalidTakerFee ∨ e = .EInvalidMakerFee ∨ e = .EMaxProposalsReachedNotEnoughVotes := by
  obtain ⟨hinv, -⟩ := h.inv
  obtain ⟨mid, mid', h1, h2⟩ := hinv.touch_ok hle balance_manager_id
  obtain ⟨hmid', hge, a, ha, hae⟩ := hinv.touch hle h1 h2
  have hb : mid'.accounts.borrow balance_manager_id StateAbort.EFieldDoesNotExist = .ok a :=
    VecMap.borrow_eq_ok.mpr ha
  unfold process_proposal at he
  simp only [h1, h2, hb, ok_bind, require_bind_eq_error] at he
  rcases he with ⟨-, rfl⟩ | ⟨hstake, ⟨-, rfl⟩ | ⟨hcreated, he⟩⟩
  · exact .inl rfl
  · exact .inr (.inl rfl)
  have hcreated' : a.created_proposal = false := by simpa using hcreated
  rcases bind_eq_error.mp he with hg | ⟨g, hg, hvote⟩
  · -- the account has not proposed in the epoch, so its id has no proposal
    have hnew : mid'.governance.proposals.get balance_manager_id = none := by
      by_contra hsome
      obtain ⟨b, hb', -, hbc⟩ := hmid'.governanceOK.proposer balance_manager_id hsome
      rw [ha] at hb'
      cases hb'
      rw [hcreated'] at hbc
      cases hbc
    rcases Governance.add_proposal_eq_error hnew hg with rfl | rfl | rfl | rfl <;> decide
  · -- the proposal is there for the vote that follows
    obtain ⟨-, -, kept, -, -, hg'⟩ := Governance.add_proposal_eq_ok hg
    have hepoch : g.epoch = mid'.governance.epoch := by rw [hg']
    have ha3 : (mid'.accounts.set balance_manager_id (a.set_created_proposal true)).get balance_manager_id =
        some (a.set_created_proposal true) := by
      simp
    exact absurd hvote ((hmid'.proposal_added ha (hae.trans hge.symm) hcreated' hg).process_vote_own_proposal
      (hepoch.trans hge) ha3 hae hstake (by simp [hg']))

theorem governed_pool_proposal_aborts :
    ∃ s, Reachable s ∧ s.process_proposal 0 200000 100000 0 ⟨1, 0, 0⟩ = .error .EAlreadyProposed ∧
      (StateAbort.EAlreadyProposed = .ENoStake ∨ StateAbort.EAlreadyProposed = .EAlreadyProposed ∨
        StateAbort.EAlreadyProposed = .EWhitelistedPoolCannotChange ∨
        StateAbort.EAlreadyProposed = .EInvalidTakerFee ∨ StateAbort.EAlreadyProposed = .EInvalidMakerFee ∨
        StateAbort.EAlreadyProposed = .EMaxProposalsReachedNotEnoughVotes) := by
  obtain ⟨s, hs, he, -, -, -, -, -, -, -, -, hp⟩ := governed_pool
  have hle : s.governance.epoch ≤ (⟨1, 0, 0⟩ : TxContext).epoch := he.le
  exact ⟨s, hs, hp, proposal_aborts_only_on_checks hs hle hp⟩

end state

end MysoCore.Orderbook
