/-
The quorum of a pool's governance (orderbook/sources/state/governance.move,
over the calls of state.move): at most one proposal of an epoch is above
it, and that proposal is the next trade parameters.

# The count

The quorum is half of the voting power when the epoch starts. An account
counts toward it what it can vote with in the epoch (`quorumShare`): the
voting power of its active stake once it is in the epoch, and of all of
its stake before, since the refresh of an account into the epoch makes
all of it active. Stake added in the epoch is inactive, and an unstake
takes all of it, so the sum of the shares never grows past the voting
power the quorum is half of (`QuorumBound`). With the tally of `Inv`,
the votes of two proposals add up to at most that sum, so two proposals
cannot both be above the quorum (`Inv.atMostOneAbove`).

# The winner

`QuorumOK.winner` is `Governance.WinnerNext`. governance.lean carries it
through each vote, given the at-most-one before and after the vote, and
that the votes a vote takes off a proposal are there, which the tally
gives (`Inv.vote_le_votes`).
-/
import MysoCore.Orderbook.State.Invariant

namespace MysoCore.Orderbook

namespace account.Account

open governance

/-- What an account can vote with in epoch `epoch`: the voting power of
its active stake once it is in the epoch, and of all of its stake
before, which its refresh into the epoch makes active. -/
def quorumShare (epoch : ℕ) (a : Account) : ℕ :=
  if a.epoch = epoch then votingPower a.active_stake else a.power

theorem SameStake.quorumShare_eq {a a' : Account} (h : SameStake a a') (epoch : ℕ) :
    a'.quorumShare epoch = a.quorumShare epoch := by
  unfold quorumShare
  rw [h.epoch, h.active_stake, h.power_eq]

/-- In the epoch, the share is the active stake's alone. -/
theorem quorumShare_of_epoch {a a' : Account} {epoch : ℕ} (hae : a.epoch = epoch)
    (he : a'.epoch = a.epoch) (hs : a'.active_stake = a.active_stake) :
    a'.quorumShare epoch = a.quorumShare epoch := by
  unfold quorumShare
  rw [he, hs, if_pos hae, if_pos hae]

/-- An account votes for one proposal at a time: what it gives two
proposals is within its share. -/
theorem votesFor_add_le (a : Account) {epoch id id' : ℕ} (hne : id ≠ id') :
    a.votesFor epoch id + a.votesFor epoch id' ≤ a.quorumShare epoch := by
  unfold votesFor quorumShare
  by_cases he : a.epoch = epoch
  · by_cases hv : a.voted_proposal = some id
    · simp [he, hv, hne]
    · simp only [he, hv, true_and, if_true, if_false, Nat.zero_add]
      split <;> omega
  · simp [he]

end account.Account

namespace state

open ExceptFold account history governance
open account.Account (SameStake quorumShare_of_epoch settle_sameStake add_settled_balances_sameStake
  claim_rebates_sameStake withTaker_sameStake remove_order_sameStake process_maker_fill_sameStake)

namespace State

variable {self self' : State} {ctx : TxContext}

/-- The refresh of an account into the epoch does not grow its share:
it makes active the stake the account already counted. -/
theorem Refreshed.quorumShare_le {a a' : account.Account} (h : Refreshed ctx a a') :
    a'.quorumShare ctx.epoch ≤ a.quorumShare ctx.epoch := by
  by_cases he : a.epoch = ctx.epoch
  · rw [(h.kept he).1.quorumShare_eq]
  · have hvp := votingPower_mono (Nat.le_add_right a'.active_stake a'.inactive_stake)
    have hpow : votingPower (a'.active_stake + a'.inactive_stake) = a.power := h.power
    unfold Account.quorumShare
    rw [if_pos h.epoch, if_neg he]
    omega

-- ============================================================ the count

/-- What the accounts can vote with in the governance's epoch is within
the voting power its quorum is half of. -/
def QuorumBound (s : State) : Prop :=
  (s.accounts.sum fun _ a => a.quorumShare s.governance.epoch) ≤ 2 * s.governance.quorum + 1

structure QuorumOK (s : State) : Prop where
  bound : s.QuorumBound
  winner : s.governance.WinnerNext

theorem empty_quorumOK (whitelisted stable_pool : Bool) (ctx : TxContext) :
    (State.empty whitelisted stable_pool ctx).QuorumOK :=
  ⟨by simp [QuorumBound, State.empty], fun id p hp => by simp [State.empty, Governance.empty] at hp⟩

/-- Two proposals above the quorum would have more votes between them
than the accounts can give. -/
theorem Inv.atMostOneAbove (h : self.Inv) (hb : self.QuorumBound) : self.governance.AtMostOneAbove := by
  intro id id' p p' hp hp' hq hq'
  by_contra hne
  have htally := h.governanceOK.tally
  have hsum : p.votes + p'.votes ≤ self.accounts.sum fun _ a => a.quorumShare self.governance.epoch := by
    rw [htally id p hp, htally id' p' hp', VecMap.sum_add]
    exact VecMap.sum_le_sum fun _ a _ => a.votesFor_add_le hne
  unfold QuorumBound at hb
  omega

/-- The count after one account is rewritten with no larger share, the
governance's epoch and quorum kept. -/
theorem QuorumBound.set (hb : self.QuorumBound) {balance_manager_id : ℕ} {a a' : account.Account}
    (hget : self.accounts.get balance_manager_id = some a)
    (haccounts : self'.accounts = self.accounts.set balance_manager_id a')
    (hepoch : self'.governance.epoch = self.governance.epoch)
    (hquorum : self'.governance.quorum = self.governance.quorum)
    (hle : a'.quorumShare self.governance.epoch ≤ a.quorumShare self.governance.epoch) :
    self'.QuorumBound := by
  unfold QuorumBound at hb ⊢
  rw [haccounts, hepoch, hquorum]
  refine le_trans (VecMap.sum_set_le ?_) hb
  simpa [hget] using hle

/-- A call that rewrites one account without its stake, and the history. -/
theorem QuorumOK.setAccount (hq : self.QuorumOK) {balance_manager_id : ℕ} {a a' : account.Account}
    (hget : self.accounts.get balance_manager_id = some a) (hs : SameStake a a') (history' : History) :
    ({ self with accounts := self.accounts.set balance_manager_id a', history := history' } : State).QuorumOK :=
  ⟨hq.bound.set hget rfl rfl rfl (hs.quorumShare_eq _).le, hq.winner⟩

-- ============================================================ the two refreshes

/-- At a new epoch every account counts all of its stake, whose voting
power the new quorum is half of. -/
theorem QuorumOK.refresh (hq : self.QuorumOK) (h : self.Inv) (hle : self.governance.epoch ≤ ctx.epoch)
    (hr : self.refresh ctx = .ok self') : self'.QuorumOK := by
  obtain ⟨history', -, rfl⟩ := refresh_eq_ok.mp hr
  refine ⟨?_, Governance.update_winnerNext hq.winner ctx⟩
  have hb := hq.bound
  unfold QuorumBound at hb ⊢
  dsimp only
  rcases @Governance.update_cases self.governance ctx with ⟨-, hgu⟩ | ⟨hgne, hgu⟩
  · rw [hgu]
    exact hb
  · rw [hgu]
    dsimp only
    have hshare : (self.accounts.sum fun _ a => a.quorumShare ctx.epoch) =
        self.accounts.sum fun _ a => a.power := VecMap.sum_congr fun id a ha => by
      have hae := (h.historyOK.account_epoch id a ha).1
      unfold Account.quorumShare
      rw [if_neg (by omega)]
    rw [hshare, ← h.governanceOK.voting_power]
    unfold math.mul constants.half constants.float_scaling
    omega

theorem QuorumOK.update_account (hq : self.QuorumOK) (he : self.governance.epoch = ctx.epoch)
    {balance_manager_id : ℕ} (hr : self.update_account balance_manager_id ctx = .ok self') :
    self'.QuorumOK := by
  obtain ⟨a', haccounts, hrefr, hgov, -, -⟩ := update_account_refreshed hr
  have hempty : (account.Account.empty ctx).quorumShare self.governance.epoch = 0 := by
    simp [Account.quorumShare, account.Account.empty, he]
  have hb := hq.bound
  unfold QuorumBound at hb
  refine ⟨?_, hgov ▸ hq.winner⟩
  unfold QuorumBound
  rw [haccounts, hgov]
  refine le_trans (VecMap.sum_set_le ?_) hb
  refine le_of_le_of_eq ?_
    (accountOf_summand (g := fun _ a => a.quorumShare self.governance.epoch) hempty).symm
  simp only [he]
  exact hrefr.quorumShare_le

theorem QuorumOK.touch (hq : self.QuorumOK) (h : self.Inv) (hle : self.governance.epoch ≤ ctx.epoch)
    {balance_manager_id : ℕ} {mid mid' : State} (h1 : self.refresh ctx = .ok mid)
    (h2 : mid.update_account balance_manager_id ctx = .ok mid') : mid'.QuorumOK :=
  (hq.refresh h hle h1).update_account (h.refresh hle h1).2 h2

-- ============================================================ the calls that trade

theorem QuorumOK.withdraw_settled_amounts (hq : self.QuorumOK) (balance_manager_id : ℕ) :
    (self.withdraw_settled_amounts balance_manager_id).1.QuorumOK := by
  rcases @withdraw_settled_amounts_cases self balance_manager_id with ⟨-, he⟩ | ⟨a, ha, he⟩
  · rw [he]
    exact hq
  · rw [he]
    exact hq.setAccount ha (settle_sameStake a) _

theorem QuorumOK.process_claim_rebates (hq : self.QuorumOK) (h : self.Inv)
    (hle : self.governance.epoch ≤ ctx.epoch) {balance_manager_id : ℕ} {r : State × Balances × Balances}
    (hr : self.process_claim_rebates balance_manager_id ctx = .ok r) : r.1.QuorumOK := by
  obtain ⟨mid, mid', a, h1, h2, ha, hr1⟩ := process_claim_rebates_eq_ok hr
  rw [hr1]
  exact (hq.touch h hle h1 h2).setAccount ha ((claim_rebates_sameStake a).trans (settle_sameStake _)) _

theorem QuorumOK.process_cancel (hq : self.QuorumOK) (h : self.Inv)
    (hle : self.governance.epoch ≤ ctx.epoch) {order : Order} {balance_manager_id : ℕ}
    {r : State × Order × Balances × Balances}
    (hr : self.process_cancel order balance_manager_id ctx = .ok r) : r.1.QuorumOK := by
  obtain ⟨mid, mid', a, a', maker_fee, h1, h2, -, ha, hrem, hr1⟩ := process_cancel_eq_ok hr
  rw [hr1]
  exact (hq.touch h hle h1 h2).setAccount ha (((remove_order_sameStake hrem).1.trans
    (add_settled_balances_sameStake a' _)).trans (settle_sameStake _)) _

theorem QuorumOK.process_modify (hq : self.QuorumOK) (h : self.Inv)
    (hle : self.governance.epoch ≤ ctx.epoch) {balance_manager_id cancel_quantity : ℕ} {order : Order}
    {r : State × Balances × Balances}
    (hr : self.process_modify balance_manager_id cancel_quantity order ctx = .ok r) : r.1.QuorumOK := by
  obtain ⟨mid, mid', a, maker_fee, h1, h2, -, ha, hr1⟩ := process_modify_eq_ok hr
  rw [hr1]
  exact (hq.touch h hle h1 h2).setAccount ha
    ((add_settled_balances_sameStake a _).trans (settle_sameStake _)) _

/-- A fill rewrites its maker and the history, and leaves the governance. -/
theorem QuorumOK.process_fill (hq : self.QuorumOK) (he : self.governance.epoch = ctx.epoch)
    {fill : Fill} (hr : self.process_fill fill ctx = .ok self') :
    self'.QuorumOK ∧ self'.governance = self.governance := by
  obtain ⟨mid, a, a', fees, h1, ha, hfill, rfl⟩ := process_fill_eq_ok hr
  obtain ⟨-, -, -, hgov, -, -⟩ := update_account_refreshed h1
  have hqmid := hq.update_account he h1
  obtain ⟨hs, -⟩ := process_maker_fill_sameStake hfill
  split
  · exact ⟨hqmid.setAccount ha hs _, hgov⟩
  · exact ⟨hqmid.setAccount ha (hs.trans (add_settled_balances_sameStake a' fees)) _, hgov⟩

theorem QuorumOK.process_fills (hq : self.QuorumOK) (he : self.governance.epoch = ctx.epoch)
    {fills : List Fill} (hr : self.process_fills fills ctx = .ok self') :
    self'.QuorumOK ∧ self'.governance.epoch = ctx.epoch :=
  foldlM_inv (fun s : State => s.QuorumOK ∧ s.governance.epoch = ctx.epoch) ⟨hq, he⟩
    (fun _ _ _ _ hs hstep => by
      obtain ⟨hq', hgov⟩ := hs.1.process_fill hs.2 hstep
      exact ⟨hq', hgov ▸ hs.2⟩) hr

theorem QuorumOK.process_create (hq : self.QuorumOK) (h : self.Inv)
    (hle : self.governance.epoch ≤ ctx.epoch) {order_info : OrderInfo} {ewma_state : EWMAState}
    {r : State × OrderInfo × Balances × Balances}
    (hr : self.process_create order_info ewma_state ctx = .ok r) : r.1.QuorumOK := by
  obtain ⟨mid, mid', mid'', a, out, h1, h2, h3, ha, hout, hr1⟩ := process_create_eq_ok hr
  obtain ⟨hqmid', he'⟩ := (hq.refresh h hle h1).process_fills (h.refresh hle h1).2 h2
  obtain ⟨hstake, -⟩ := process_create_taker_stake hout
  rw [hr1]
  exact (hqmid'.update_account he' h3).setAccount ha (withTaker_sameStake a hstake) _

-- ============================================================ the calls on stake and votes

/-- New stake is inactive: the account's share in the epoch stays. -/
theorem QuorumOK.process_stake (hq : self.QuorumOK) (h : self.Inv)
    (hle : self.governance.epoch ≤ ctx.epoch) {balance_manager_id new_stake : ℕ}
    {r : State × Balances × Balances}
    (hr : self.process_stake balance_manager_id new_stake ctx = .ok r) : r.1.QuorumOK := by
  obtain ⟨mid, mid', a, h1, h2, ha, -, hr1⟩ := process_stake_eq_ok hr
  have hq' := hq.touch h hle h1 h2
  obtain ⟨-, he, b, hb, hbe⟩ := h.touch hle h1 h2
  rw [ha] at hb
  cases hb
  rw [hr1]
  exact ⟨hq'.bound.set ha rfl rfl rfl (le_of_eq (quorumShare_of_epoch (hbe.trans he.symm) rfl rfl)),
    hq'.winner⟩

/-- An unstake takes the account's share away, and its votes off the
proposal it voted for, which has them. -/
theorem QuorumOK.process_unstake (hq : self.QuorumOK) (h : self.Inv)
    (hle : self.governance.epoch ≤ ctx.epoch) {balance_manager_id : ℕ}
    {r : State × Balances × Balances}
    (hr : self.process_unstake balance_manager_id ctx = .ok r) : r.1.QuorumOK := by
  have hinv := h.process_unstake hle hr
  obtain ⟨mid, mid', a, g', h1, h2, ha, hg, hr1⟩ := process_unstake_eq_ok hr
  have hq' := hq.touch h hle h1 h2
  obtain ⟨hmid', he, b, hb, hbe⟩ := h.touch hle h1 h2
  rw [ha] at hb
  cases hb
  obtain ⟨-, hm, -⟩ := Governance.adjust_vote_eq_ok hg
  have hbound : r.1.QuorumBound := by
    rw [hr1]
    refine hq'.bound.set ha rfl hm.epoch hm.quorum ?_
    simp [Account.quorumShare, account.Account.remove_stake, account.Account.settle, hbe, he]
  have hafter := hinv.atMostOneAbove hbound
  rw [hr1] at hbound hafter ⊢
  exact ⟨hbound, Governance.adjust_vote_winnerNext hg hq'.winner (hmid'.atMostOneAbove hq'.bound) hafter
    fun _ _ hv hp => hmid'.vote_le_votes ha (hbe.trans he.symm) hv hp⟩

/-- A vote moves the account's votes, which the proposal it voted for
has, and keeps its share. -/
theorem QuorumOK.process_vote (hq : self.QuorumOK) (h : self.Inv)
    (hle : self.governance.epoch ≤ ctx.epoch) {balance_manager_id proposal_id : ℕ}
    (hr : self.process_vote balance_manager_id proposal_id ctx = .ok self') : self'.QuorumOK := by
  have hinv := h.process_vote hle hr
  obtain ⟨mid, mid', a, g', h1, h2, ha, -, hg, rfl⟩ := process_vote_eq_ok hr
  have hq' := hq.touch h hle h1 h2
  obtain ⟨hmid', he, b, hb, hbe⟩ := h.touch hle h1 h2
  rw [ha] at hb
  cases hb
  obtain ⟨-, hm, -⟩ := Governance.adjust_vote_eq_ok hg
  have hbound : ({ mid' with
      accounts := mid'.accounts.set balance_manager_id (a.set_voted_proposal (some proposal_id)).1
      governance := g' } : State).QuorumBound :=
    hq'.bound.set ha rfl hm.epoch hm.quorum
      (le_of_eq (quorumShare_of_epoch (hbe.trans he.symm) rfl rfl))
  exact ⟨hbound, Governance.adjust_vote_winnerNext hg hq'.winner (hmid'.atMostOneAbove hq'.bound)
    (hinv.atMostOneAbove hbound) fun _ _ hv hp => hmid'.vote_le_votes ha (hbe.trans he.symm) hv hp⟩

/-- A proposal comes in with no votes; the vote that follows is a call
of its own. -/
theorem QuorumOK.process_proposal (hq : self.QuorumOK) (h : self.Inv)
    (hle : self.governance.epoch ≤ ctx.epoch) {balance_manager_id taker_fee maker_fee stake_required : ℕ}
    (hr : self.process_proposal balance_manager_id taker_fee maker_fee stake_required ctx = .ok self') :
    self'.QuorumOK := by
  obtain ⟨mid, mid', a, g, h1, h2, ha, -, hcreated, hg, hvote⟩ := process_proposal_eq_ok hr
  have hq' := hq.touch h hle h1 h2
  obtain ⟨hmid', he, b, hb, hbe⟩ := h.touch hle h1 h2
  rw [ha] at hb
  cases hb
  obtain ⟨-, -, _, -, -, hg'⟩ := Governance.add_proposal_eq_ok hg
  have hge : g.epoch = mid'.governance.epoch := by rw [hg']
  have hadded : ({ mid' with
      accounts := mid'.accounts.set balance_manager_id (a.set_created_proposal true)
      governance := g } : State).QuorumOK :=
    ⟨hq'.bound.set ha rfl hge (by rw [hg'])
        (le_of_eq (quorumShare_of_epoch (hbe.trans he.symm) rfl rfl)),
      Governance.add_proposal_winnerNext hq'.winner hg⟩
  exact hadded.process_vote (hmid'.proposal_added ha (hbe.trans he.symm) hcreated hg) (by
    show g.epoch ≤ ctx.epoch
    rw [hge, he]) hvote

end State

end state

end MysoCore.Orderbook
