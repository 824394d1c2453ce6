/-
What holds of every state of a pool its calls can reach
(orderbook/sources/state/state.move, with the governance, history and
accounts it keeps), and the step lemmas that carry it through each call.

# The tallies

The governance keeps its numbers incrementally: `adjust_voting_power`
adds and takes off an account's voting power as its stake changes, and
`adjust_vote` moves an account's votes from one proposal to another.
`Inv.voting_power` says the total kept is the re-tally over the
accounts, and `Inv.tally` that the votes of each proposal are the
voting power of the active stake of the accounts whose vote of the
current epoch is for it. An account last touched in an earlier epoch
still holds its old vote; the governance has already cleared that vote
with its proposals, and the refresh of the account clears it before
anything reads it (`Refreshed`).

A proposal removed to make room leaves its voters pointing at it. They
are not counted again, because a proposal's id is the account that made
it, which cannot propose twice in an epoch: every proposal and every
vote of the epoch is of an account that has proposed in it
(`Inv.proposer`, `Inv.voter`).

# The history

Every epoch an account was last touched in is in the history's table
(`Inv.account_epoch`), so the rebate `update_account` computes finds it.
An account with the stake its epoch required had all of its maker
volume counted as staked (`Inv.staked`): its active stake only falls
within an epoch, so it had that stake at every fill.

# Method

`Inv.refresh` and `Inv.update_account` carry the invariant through the
two refreshes each call starts with; `Inv.setAccount` through a call
that rewrites one account without its stake and vote; the calls on the
stake and the votes have a lemma each.
-/
import MysoCore.Orderbook.State

namespace MysoCore.Orderbook

namespace account.Account

open governance

/-- The voting power of an account's stake, active and inactive, as the
governance's total counts it. -/
def power (a : Account) : ℕ := votingPower (a.active_stake + a.inactive_stake)

/-- The votes an account gives proposal `id` in epoch `epoch`: the voting
power of its active stake, while its vote of that epoch is for `id`. -/
def votesFor (epoch id : ℕ) (a : Account) : ℕ :=
  if a.epoch = epoch ∧ a.voted_proposal = some id then votingPower a.active_stake else 0

/-- Two states of an account with the same epoch, active stake, proposal
and vote: what the governance's tally of the epoch reads. -/
structure SameVote (a a' : Account) : Prop where
  epoch : a'.epoch = a.epoch
  active_stake : a'.active_stake = a.active_stake
  created_proposal : a'.created_proposal = a.created_proposal
  voted_proposal : a'.voted_proposal = a.voted_proposal

/-- Two states of an account with the same epoch, stake, proposal and
vote: what every call that trades keeps. -/
structure SameStake (a a' : Account) : Prop extends SameVote a a' where
  inactive_stake : a'.inactive_stake = a.inactive_stake

theorem SameStake.refl (a : Account) : SameStake a a := ⟨⟨rfl, rfl, rfl, rfl⟩, rfl⟩

theorem SameStake.trans {a a' a'' : Account} (h : SameStake a a') (h' : SameStake a' a'') :
    SameStake a a'' :=
  ⟨⟨h'.epoch.trans h.epoch, h'.active_stake.trans h.active_stake,
    h'.created_proposal.trans h.created_proposal, h'.voted_proposal.trans h.voted_proposal⟩,
    h'.inactive_stake.trans h.inactive_stake⟩

theorem SameStake.power_eq {a a' : Account} (h : SameStake a a') : a'.power = a.power := by
  simp [power, h.active_stake, h.inactive_stake]

theorem SameVote.votesFor_eq {a a' : Account} (h : SameVote a a') (epoch id : ℕ) :
    a'.votesFor epoch id = a.votesFor epoch id := by
  simp [votesFor, h.epoch, h.voted_proposal, h.active_stake]

@[simp] theorem power_empty (ctx : TxContext) : (empty ctx).power = 0 := rfl

@[simp] theorem votesFor_empty (ctx : TxContext) (epoch id : ℕ) : (empty ctx).votesFor epoch id = 0 := by
  simp [votesFor, empty]

/-- An account with no vote gives none. -/
theorem votesFor_of_voted_none {a : Account} (h : a.voted_proposal = none) (epoch id : ℕ) :
    a.votesFor epoch id = 0 := by
  simp [votesFor, h]

-- ============================================================ the calls that trade

variable (a : Account)

theorem settle_sameStake : SameStake a a.settle.1 := ⟨⟨rfl, rfl, rfl, rfl⟩, rfl⟩

theorem add_settled_balances_sameStake (balances : Balances) :
    SameStake a (a.add_settled_balances balances) := ⟨⟨rfl, rfl, rfl, rfl⟩, rfl⟩

theorem add_rebates_sameStake (rebates : Balances) : SameStake a (a.add_rebates rebates) :=
  ⟨⟨rfl, rfl, rfl, rfl⟩, rfl⟩

theorem claim_rebates_sameStake : SameStake a a.claim_rebates.1 := ⟨⟨rfl, rfl, rfl, rfl⟩, rfl⟩

/-- The taker's fields written back, with the active stake they read. -/
theorem withTaker_sameStake {t : Orderbook.Account} (h : t.active_stake = a.active_stake) :
    SameStake a (a.withTaker t) := ⟨⟨rfl, h, rfl, rfl⟩, rfl⟩

variable {a}

theorem remove_order_sameStake {order_id : ℕ} {a' : Account} (h : a.remove_order order_id = .ok a') :
    SameStake a a' ∧ a'.maker_volume = a.maker_volume := by
  unfold remove_order at h
  split at h
  · cases h
    exact ⟨⟨⟨rfl, rfl, rfl, rfl⟩, rfl⟩, rfl⟩
  · cases h

/-- A maker's fill keeps its stake and adds the volume of a fill that did
not expire it. -/
theorem process_maker_fill_sameStake {fill : Fill} {a' : Account}
    (h : a.process_maker_fill fill = .ok a') :
    SameStake a a' ∧ a'.maker_volume = a.maker_volume + if fill.expired then 0 else fill.base_quantity := by
  unfold process_maker_fill at h
  dsimp only at h
  -- the credit and the volume, before the order is dropped or kept
  set mid := (if !fill.expired then
      { a.add_settled_balances fill.get_settled_maker_quantities with
        maker_volume := (a.add_settled_balances fill.get_settled_maker_quantities).maker_volume +
          fill.base_quantity }
    else a.add_settled_balances fill.get_settled_maker_quantities) with hmid
  have hmid' : SameStake a mid ∧
      mid.maker_volume = a.maker_volume + if fill.expired then 0 else fill.base_quantity := by
    rw [hmid]
    cases fill.expired
    · exact ⟨⟨⟨rfl, rfl, rfl, rfl⟩, rfl⟩, rfl⟩
    · exact ⟨⟨⟨rfl, rfl, rfl, rfl⟩, rfl⟩, rfl⟩
  split at h
  · obtain ⟨hs, hmv⟩ := remove_order_sameStake h
    exact ⟨hmid'.1.trans hs, hmv.trans hmid'.2⟩
  · rw [← Except.ok.inj h]
    exact hmid'

end account.Account

namespace state

open ExceptFold account history governance
open account.Account (SameVote SameStake add_rebates_sameStake votesFor_of_voted_none settle_sameStake
  add_settled_balances_sameStake claim_rebates_sameStake withTaker_sameStake remove_order_sameStake
  process_maker_fill_sameStake)
open history.History (SameEpoch StakedGrows calculate_rebate_amount_sameEpoch
  calculate_rebate_amount_volumes)

namespace State

variable {self self' : State} {ctx : TxContext}

-- ============================================================ the refresh of an account

/-- What `update_account` leaves of an account: brought to the current
epoch with the same voting power; its stake, vote and proposal as they
were when it was in the epoch already, and no vote, proposal or maker
volume when it was not. -/
structure Refreshed (ctx : TxContext) (a a' : account.Account) : Prop where
  epoch : a'.epoch = ctx.epoch
  power : a'.power = a.power
  kept : a.epoch = ctx.epoch → SameStake a a' ∧ a'.maker_volume = a.maker_volume
  lapsed : a.epoch ≠ ctx.epoch →
    a'.voted_proposal = none ∧ a'.created_proposal = false ∧ a'.maker_volume = 0

theorem refreshed_update {a : account.Account} (hne : a.epoch ≠ ctx.epoch) :
    Refreshed ctx a (a.update ctx).1 := by
  unfold Account.update
  rw [if_neg hne]
  exact ⟨rfl, by simp [Account.power], fun he => absurd he hne, fun _ => ⟨rfl, rfl, rfl⟩⟩

theorem Refreshed.add_rebates {a a' : account.Account} (h : Refreshed ctx a a') (rebates : Balances) :
    Refreshed ctx a (a'.add_rebates rebates) :=
  ⟨h.epoch, h.power, fun he => ⟨(h.kept he).1.trans (add_rebates_sameStake a' rebates), (h.kept he).2⟩,
    h.lapsed⟩

/-- A refresh keeps the votes of the epoch it refreshes into. -/
theorem Refreshed.votesFor_eq {a a' : account.Account} (h : Refreshed ctx a a') (id : ℕ) :
    a'.votesFor ctx.epoch id = a.votesFor ctx.epoch id := by
  by_cases he : a.epoch = ctx.epoch
  · exact (h.kept he).1.toSameVote.votesFor_eq _ _
  · rw [votesFor_of_voted_none (h.lapsed he).1]
    simp [Account.votesFor, he]

/-- What `update_account` does: the account refreshed into the table,
the governance as it was, and the history with only its burn grown. -/
theorem update_account_refreshed {balance_manager_id : ℕ}
    (h : self.update_account balance_manager_id ctx = .ok self') :
    ∃ a', self'.accounts = self.accounts.set balance_manager_id a' ∧
      Refreshed ctx (self.accountOf balance_manager_id ctx) a' ∧
      self'.governance = self.governance ∧ SameEpoch self.history self'.history ∧
      self'.history.volumes = self.history.volumes := by
  rw [update_account_eq] at h
  obtain ⟨⟨history', a'⟩, hr, rfl⟩ := map_eq_ok h
  refine ⟨a', rfl, ?_⟩
  rcases collect_rebates_eq_ok hr with ⟨he, rfl, rfl⟩ | ⟨hne, ⟨rfl, rfl⟩ | ⟨rebates, hcalc, rfl⟩⟩
  · -- in the epoch already
    exact ⟨⟨he, rfl, fun _ => ⟨SameStake.refl _, rfl⟩, fun hne => absurd he hne⟩, rfl,
      SameEpoch.refl _, rfl⟩
  · -- a new epoch, with no rebate
    exact ⟨refreshed_update hne, rfl, SameEpoch.refl _, rfl⟩
  · exact ⟨(refreshed_update hne).add_rebates rebates, rfl, calculate_rebate_amount_sameEpoch hcalc,
      calculate_rebate_amount_volumes hcalc⟩

/-- The summand of the account `update_account` works on, for a summand
that a new account does not add to. -/
theorem accountOf_summand {balance_manager_id : ℕ} {g : ℕ → account.Account → ℕ}
    (hg : g balance_manager_id (account.Account.empty ctx) = 0) :
    ((self.accounts.get balance_manager_id).map (g balance_manager_id)).getD 0 =
      g balance_manager_id (self.accountOf balance_manager_id ctx) := by
  unfold accountOf
  cases self.accounts.get balance_manager_id with
  | none => exact hg.symm
  | some a => rfl

-- ============================================================ the invariant

/-- The account of `id` has proposed in the governance's epoch. -/
def ProposedIn (s : State) (id : ℕ) : Prop :=
  ∃ a, s.accounts.get id = some a ∧ a.epoch = s.governance.epoch ∧ a.created_proposal = true

/-- The history is in the governance's epoch, holds every epoch an
account was last touched in, and counted as staked all the maker volume
of an account with the stake its epoch required. -/
structure HistoryOK (s : State) : Prop where
  epoch : s.history.epoch = s.governance.epoch
  keys : ∀ e, s.history.historic_volumes.get e ≠ none → e ≤ s.history.epoch
  current : s.history.historic_volumes.get s.history.epoch ≠ none
  account_epoch : ∀ id a, s.accounts.get id = some a →
    a.epoch ≤ s.governance.epoch ∧ s.history.historic_volumes.get a.epoch ≠ none
  staked : ∀ id a v, s.accounts.get id = some a → s.history.volumesOf a.epoch = some v →
    v.trade_params.stake_required ≤ a.active_stake → a.maker_volume ≤ v.total_staked_volume

/-- The governance's numbers are the re-tally over the accounts, its
trade parameters are ones the pool may charge, and every proposal and
vote of the epoch is of an account that has proposed in it. -/
structure GovernanceOK (s : State) : Prop where
  params : s.governance.ParamsOK
  proposals_length : s.governance.proposals.length ≤ MAX_PROPOSALS
  voting_power : s.governance.voting_power = s.accounts.sum fun _ a => a.power
  tally : ∀ id p, s.governance.proposals.get id = some p →
    p.votes = s.accounts.sum fun _ a => a.votesFor s.governance.epoch id
  proposer : ∀ id, s.governance.proposals.get id ≠ none → s.ProposedIn id
  voter : ∀ id a pid, s.accounts.get id = some a → a.epoch = s.governance.epoch →
    a.voted_proposal = some pid → s.ProposedIn pid

structure Inv (s : State) : Prop where
  historyOK : s.HistoryOK
  governanceOK : s.GovernanceOK

theorem empty_inv (whitelisted stable_pool : Bool) (ctx : TxContext) :
    (State.empty whitelisted stable_pool ctx).Inv := by
  have hlen : (State.empty whitelisted stable_pool ctx).governance.proposals.length ≤ MAX_PROPOSALS := by
    simp [State.empty, Governance.empty, VecMap.length, VecMap.empty, MAX_PROPOSALS]
  -- no account and no proposal: what is left reads the history's own table
  refine ⟨⟨rfl, fun e he => ?_, by simp [State.empty, History.empty], fun id a ha => ?_,
    fun id a v ha => ?_⟩, ⟨Governance.empty_paramsOK whitelisted stable_pool ctx, hlen, rfl,
    fun id p hp => ?_, fun id hp => ?_, fun id a pid ha => ?_⟩⟩ <;>
    simp_all [State.empty, History.empty, Governance.empty]

/-- Every account's epoch has its volumes. -/
theorem HistoryOK.volumesOf_ne_none (h : self.HistoryOK) {id : ℕ} {a : account.Account}
    (ha : self.accounts.get id = some a) : self.history.volumesOf a.epoch ≠ none := by
  unfold History.volumesOf
  split
  · simp
  · exact (h.account_epoch id a ha).2

/-- The staked bound of an account whose stake and epoch are kept and
whose maker volume did not grow, over a history whose staked volumes
grew. -/
theorem HistoryOK.staked_of_grows (h : self.HistoryOK) {history' : History}
    (hg : StakedGrows self.history history') {id : ℕ} {a a' : account.Account}
    (ha : self.accounts.get id = some a) (hepoch : a'.epoch = a.epoch)
    (hstake : a'.active_stake = a.active_stake) (hmv : a'.maker_volume ≤ a.maker_volume) (v : Volumes)
    (hv : history'.volumesOf a'.epoch = some v) (hreq : v.trade_params.stake_required ≤ a'.active_stake) :
    a'.maker_volume ≤ v.total_staked_volume := by
  obtain ⟨v0, hv0⟩ := Option.ne_none_iff_exists'.mp (h.volumesOf_ne_none ha)
  obtain ⟨v', hv', hreq', hle⟩ := hg _ v0 hv0
  rw [hepoch, hv'] at hv
  cases hv
  have hbound := h.staked id a v0 ha hv0 (by rw [← hreq', ← hstake]; exact hreq)
  omega

/-- The refresh of the governance and the history at the start of a
call, in an epoch no earlier than theirs. -/
theorem Inv.refresh (h : self.Inv) (hle : self.governance.epoch ≤ ctx.epoch)
    (hr : self.refresh ctx = .ok self') : self'.Inv ∧ self'.governance.epoch = ctx.epoch := by
  obtain ⟨history', hh, rfl⟩ := refresh_eq_ok.mp hr
  have hH := h.historyOK
  have hG := h.governanceOK
  rcases @Governance.update_cases self.governance ctx with ⟨hge, hgu⟩ | ⟨hgne, hgu⟩
  · -- the same epoch: the history is in it too, and nothing changes
    rcases History.update_eq_ok hh with ⟨-, rfl⟩ | ⟨hne, -⟩
    · rw [hgu]
      exact ⟨h, hge⟩
    · exact absurd (hH.epoch.trans hge) hne
  · rcases History.update_eq_ok hh with ⟨hhe, -⟩ | ⟨-, hepoch, -, -, -, median, hget⟩
    · exact absurd (hH.epoch.symm.trans hhe) hgne
    · -- a new epoch: the epoch that ends is filed and a new one opened
      have hlt : self.governance.epoch < ctx.epoch := lt_of_le_of_ne hle hgne
      have hkeys' : ∀ e, history'.historic_volumes.get e ≠ none →
          self.history.historic_volumes.get e ≠ none ∨ e = self.history.epoch ∨ e = ctx.epoch := by
        intro e he
        rw [hget e] at he
        split at he
        · exact .inr (.inr ‹_›)
        · split at he
          · exact .inr (.inl ‹_›)
          · exact .inl he
      have hfiled : ∀ e, self.history.historic_volumes.get e ≠ none → history'.historic_volumes.get e ≠ none := by
        intro e he
        rw [hget e]
        split
        · simp
        · split
          · simp
          · exact he
      have hgrow := History.update_stakedGrows hH.keys (hH.epoch ▸ hle) hh
      have hprop : (self.governance.update ctx).proposals = VecMap.empty := by rw [hgu]
      refine ⟨⟨⟨by simp [hepoch], fun e he => ?_, by rw [hepoch, hget]; simp, fun id a ha => ?_,
        fun id a v ha hv hreq => ?_⟩, ⟨hG.params.update ctx, by simp [hprop, VecMap.length, VecMap.empty],
        by simpa using hG.voting_power, fun id p hp => by simp [hprop] at hp,
        fun id hp => by simp [hprop] at hp, fun id a pid ha hae => ?_⟩⟩, by simp⟩
      · dsimp only
        rw [hepoch]
        rcases hkeys' e he with he | rfl | rfl
        · have := hH.keys e he
          have := hH.epoch
          omega
        · rw [hH.epoch]
          exact hle
        · exact le_rfl
      · have hae := hH.account_epoch id a ha
        refine ⟨?_, hfiled _ hae.2⟩
        simp only [Governance.update_epoch]
        exact hae.1.trans hle
      · exact hH.staked_of_grows hgrow ha rfl rfl le_rfl v hv hreq
      · -- no account is in the new epoch yet
        have hae' := (hH.account_epoch id a ha).1
        simp only [Governance.update_epoch] at hae
        omega

/-- The refresh never aborts from a state of the invariant. -/
theorem Inv.refresh_ok (h : self.Inv) (hle : self.governance.epoch ≤ ctx.epoch) :
    ∃ self', self.refresh ctx = .ok self' := by
  have hH := h.historyOK
  rcases @Governance.update_cases self.governance ctx with ⟨hge, -⟩ | ⟨hgne, -⟩
  · -- in the same epoch the history does nothing
    have hh : self.history.update (self.governance.update ctx).trade_params ctx = .ok self.history := by
      unfold History.update
      rw [if_pos (hH.epoch.trans hge)]
      rfl
    exact ⟨_, refresh_eq_ok.mpr ⟨_, hh, rfl⟩⟩
  · have hlt : self.history.epoch < ctx.epoch := hH.epoch ▸ lt_of_le_of_ne hle hgne
    obtain ⟨history', hh⟩ : ∃ history', self.history.update (self.governance.update ctx).trade_params
        ctx = .ok history' := History.update_ok hlt hH.keys
    exact ⟨_, refresh_eq_ok.mpr ⟨history', hh, rfl⟩⟩

/-- The account `update_account` works on is the one in the table, or a
new one. -/
theorem accountOf_cases (self : State) (balance_manager_id : ℕ) (ctx : TxContext) :
    self.accounts.get balance_manager_id = some (self.accountOf balance_manager_id ctx) ∨
      (self.accounts.get balance_manager_id = none ∧
        self.accountOf balance_manager_id ctx = account.Account.empty ctx) := by
  unfold accountOf
  cases self.accounts.get balance_manager_id with
  | none => exact .inr ⟨rfl, rfl⟩
  | some a => exact .inl rfl

/-- The rebate half succeeds for an account whose epoch is in the table. -/
theorem collect_rebates_ok {history : History} {a : account.Account}
    (hv : history.historic_volumes.get a.epoch ≠ none) :
    ∃ r, collect_rebates history (a.update ctx) = .ok r := by
  by_cases he : a.epoch = ctx.epoch
  · rw [a.update_of_eq he]
    exact ⟨(history, a), by simp [collect_rebates]⟩
  · have hu : a.update ctx = ((a.update ctx).1, a.epoch, a.maker_volume, a.active_stake) := by
      unfold Account.update
      rw [if_neg he]
    rw [hu]
    unfold collect_rebates
    dsimp only
    split
    · obtain ⟨r, hr⟩ : ∃ r, history.calculate_rebate_amount a.epoch a.maker_volume a.active_stake =
          .ok r := History.calculate_rebate_amount_ok hv
      exact ⟨_, by rw [hr]; rfl⟩
    · exact ⟨_, rfl⟩

/-- `update_account` never aborts in the governance's epoch. -/
theorem Inv.update_account_ok (h : self.Inv) (he : self.governance.epoch = ctx.epoch)
    (balance_manager_id : ℕ) : ∃ self', self.update_account balance_manager_id ctx = .ok self' := by
  have hH := h.historyOK
  -- the account's epoch is in the table: its own, or the current one for a new account
  have hv : self.history.historic_volumes.get (self.accountOf balance_manager_id ctx).epoch ≠ none := by
    rcases accountOf_cases self balance_manager_id ctx with hin | ⟨-, hnew⟩
    · exact (hH.account_epoch _ _ hin).2
    · rw [hnew]
      show self.history.historic_volumes.get ctx.epoch ≠ none
      rw [← he, ← hH.epoch]
      exact hH.current
  obtain ⟨r, hr⟩ : ∃ r, collect_rebates self.history
      ((self.accountOf balance_manager_id ctx).update ctx) = .ok r := collect_rebates_ok hv
  rw [update_account_eq, hr]
  exact ⟨_, rfl⟩

/-- `update_account` in the governance's epoch keeps the invariant, and
leaves the account in the table in that epoch. -/
theorem Inv.update_account (h : self.Inv) (he : self.governance.epoch = ctx.epoch)
    {balance_manager_id : ℕ} (hu : self.update_account balance_manager_id ctx = .ok self') :
    self'.Inv ∧ self'.governance = self.governance ∧
      ∃ a, self'.accounts.get balance_manager_id = some a ∧ a.epoch = ctx.epoch := by
  obtain ⟨a', haccounts, hr, hgov, hsame, hvol⟩ := update_account_refreshed hu
  have hH := h.historyOK
  have hG := h.governanceOK
  have ha0 := accountOf_cases self balance_manager_id ctx
  have hget : ∀ id, self'.accounts.get id =
      if id = balance_manager_id then some a' else self.accounts.get id := by
    intro id
    rw [haccounts, VecMap.get_set]
  have hvolumes : ∀ e, self'.history.volumesOf e = self.history.volumesOf e := by
    intro e
    unfold History.volumesOf
    rw [hsame.epoch, hsame.historic_volumes, hvol]
  -- an account that has proposed in the epoch still has
  have hproposed : ∀ id, self.ProposedIn id → self'.ProposedIn id := by
    rintro id ⟨a, ha, hae, hc⟩
    by_cases hid : id = balance_manager_id
    · subst hid
      have ha' : self.accountOf id ctx = a := by simp [accountOf, ha]
      obtain ⟨hs, -⟩ := hr.kept (by rw [ha', hae, he])
      rw [ha'] at hs
      exact ⟨a', by rw [hget, if_pos rfl], by rw [hgov, hs.epoch, hae], by rw [hs.created_proposal, hc]⟩
    · exact ⟨a, by rw [hget, if_neg hid]; exact ha, by rw [hgov]; exact hae, hc⟩
  refine ⟨⟨⟨?_, ?_, ?_, ?_, ?_⟩, ⟨?_, ?_, ?_, ?_, ?_, ?_⟩⟩, hgov, a', by rw [hget, if_pos rfl], hr.epoch⟩
  · rw [hsame.epoch, hgov]
    exact hH.epoch
  · intro e he'
    rw [hsame.historic_volumes] at he'
    rw [hsame.epoch]
    exact hH.keys e he'
  · rw [hsame.historic_volumes, hsame.epoch]
    exact hH.current
  · intro id a ha
    rw [hget] at ha
    rw [hgov, hsame.historic_volumes]
    split at ha
    · cases ha
      refine ⟨by rw [hr.epoch, he], ?_⟩
      rw [hr.epoch, ← he, ← hH.epoch]
      exact hH.current
    · exact hH.account_epoch id a ha
  · intro id a v ha hv hreq
    rw [hget] at ha
    rw [hvolumes] at hv
    split at ha
    · cases ha
      by_cases hep : (self.accountOf balance_manager_id ctx).epoch = ctx.epoch
      · obtain ⟨hs, hmv⟩ := hr.kept hep
        rcases ha0 with hin | ⟨-, hnew⟩
        · exact hH.staked_of_grows (StakedGrows.refl _) hin hs.epoch hs.active_stake hmv.le v hv hreq
        · rw [hmv, hnew]
          exact Nat.zero_le _
      · rw [(hr.lapsed hep).2.2]
        exact Nat.zero_le _
    · exact hH.staked id a v ha hv hreq
  · rw [hgov]
    exact hG.params
  · rw [hgov]
    exact hG.proposals_length
  · rw [hgov, haccounts, VecMap.sum_set_of_eq]
    · exact hG.voting_power
    · exact (accountOf_summand (g := fun _ a => a.power) (by simp)).trans hr.power.symm
  · intro id p hp
    rw [hgov] at hp ⊢
    rw [haccounts, VecMap.sum_set_of_eq]
    · exact hG.tally id p hp
    · rw [he]
      exact (accountOf_summand (g := fun _ a => a.votesFor ctx.epoch id) (by simp)).trans
        (hr.votesFor_eq id).symm
  · intro id hp
    rw [hgov] at hp
    exact hproposed id (hG.proposer id hp)
  · intro id a pid ha hae hvote
    rw [hget] at ha
    rw [hgov] at hae
    split at ha
    · cases ha
      -- a vote of the epoch was cast before the refresh
      have hep : (self.accountOf balance_manager_id ctx).epoch = ctx.epoch := by
        by_contra hne
        rw [(hr.lapsed hne).1] at hvote
        cases hvote
      obtain ⟨hs, -⟩ := hr.kept hep
      rcases ha0 with hin | ⟨-, hnew⟩
      · exact hproposed pid (hG.voter _ _ pid hin (hep.trans he.symm) (hs.voted_proposal ▸ hvote))
      · rw [hs.voted_proposal, hnew] at hvote
        cases hvote
    · exact hproposed pid (hG.voter id a pid ha hae hvote)

-- ============================================================ one account rewritten

/-- Rewriting one account, keeping its epoch and proposal flag when it
has proposed, keeps every account that has proposed. -/
theorem proposedIn_of_set {balance_manager_id : ℕ} {a' : account.Account}
    (haccounts : self'.accounts = self.accounts.set balance_manager_id a')
    (hgov : self'.governance.epoch = self.governance.epoch)
    (hkeep : ∀ a, self.accounts.get balance_manager_id = some a → a.epoch = self.governance.epoch →
      a.created_proposal = true → a'.epoch = a.epoch ∧ a'.created_proposal = true)
    (id : ℕ) (hp : self.ProposedIn id) : self'.ProposedIn id := by
  obtain ⟨a, ha, hae, hc⟩ := hp
  rw [ProposedIn, haccounts, hgov]
  by_cases hid : id = balance_manager_id
  · subst hid
    obtain ⟨he', hc'⟩ := hkeep a ha hae hc
    exact ⟨a', by simp, he'.trans hae, hc'⟩
  · exact ⟨a, by rw [VecMap.get_set, if_neg hid]; exact ha, hae, hc⟩

/-- The history's part of the invariant after a call that rewrites one
account in its epoch and lets the staked volumes only grow; the
account's own staked bound is the call's to give. -/
theorem HistoryOK.frame (h : self.HistoryOK) {balance_manager_id : ℕ} {a a' : account.Account}
    (hget : self.accounts.get balance_manager_id = some a)
    (haccounts : self'.accounts = self.accounts.set balance_manager_id a')
    (hgov : self'.governance.epoch = self.governance.epoch)
    (hsame : SameEpoch self.history self'.history) (hgrow : StakedGrows self.history self'.history)
    (hepoch : a'.epoch = a.epoch)
    (hstaked : ∀ v, self'.history.volumesOf a'.epoch = some v →
      v.trade_params.stake_required ≤ a'.active_stake → a'.maker_volume ≤ v.total_staked_volume) :
    self'.HistoryOK := by
  refine ⟨?_, fun e he => ?_, ?_, fun id b hb => ?_, fun id b v hb hv hreq => ?_⟩
  · rw [hsame.epoch, hgov]
    exact h.epoch
  · rw [hsame.historic_volumes] at he
    rw [hsame.epoch]
    exact h.keys e he
  · rw [hsame.historic_volumes, hsame.epoch]
    exact h.current
  · rw [haccounts, VecMap.get_set] at hb
    rw [hgov, hsame.historic_volumes]
    split at hb
    · cases hb
      rw [hepoch]
      exact h.account_epoch _ a hget
    · exact h.account_epoch id b hb
  · rw [haccounts, VecMap.get_set] at hb
    split at hb
    · cases hb
      exact hstaked v hv hreq
    · exact h.staked_of_grows hgrow hb rfl rfl le_rfl v hv hreq

/-- The governance's part of the invariant after a call that rewrites
one account without its vote, and changes nothing of the governance but
the voting power, by what the account's changed. -/
theorem GovernanceOK.frame (h : self.GovernanceOK) {balance_manager_id : ℕ} {a a' : account.Account}
    (hget : self.accounts.get balance_manager_id = some a)
    (haccounts : self'.accounts = self.accounts.set balance_manager_id a')
    (hgov : self'.governance = { self.governance with voting_power := self'.governance.voting_power })
    (hvp : self'.governance.voting_power + a.power = self.governance.voting_power + a'.power)
    (hs : SameVote a a') : self'.GovernanceOK := by
  have hepoch : self'.governance.epoch = self.governance.epoch := by rw [hgov]
  have hprops : self'.governance.proposals = self.governance.proposals := by rw [hgov]
  have hproposed := proposedIn_of_set haccounts hepoch fun b hb _ hc => by
    rw [hget] at hb
    cases hb
    exact ⟨hs.epoch, hs.created_proposal ▸ hc⟩
  refine ⟨?_, ?_, ?_, fun id p hp => ?_, fun id hp => ?_, fun id b pid hb hbe hvote => ?_⟩
  · rw [hgov]
    exact ⟨h.params.current, h.params.next, h.params.proposals⟩
  · rw [hprops]
    exact h.proposals_length
  · -- the account's power traded in the sum as in the total
    have hsum := VecMap.sum_set self.accounts balance_manager_id a' fun _ a => a.power
    rw [hget] at hsum
    rw [haccounts]
    have := h.voting_power
    simp only [Option.map_some, Option.getD_some] at hsum
    omega
  · rw [hprops] at hp
    rw [hepoch, haccounts, VecMap.sum_set_of_eq]
    · exact h.tally id p hp
    · simp [hget, hs.votesFor_eq]
  · rw [hprops] at hp
    exact hproposed id (h.proposer id hp)
  · rw [haccounts, VecMap.get_set] at hb
    rw [hepoch] at hbe
    split at hb
    · cases hb
      exact hproposed pid (h.voter _ a pid hget (hs.epoch ▸ hbe) (hs.voted_proposal ▸ hvote))
    · exact hproposed pid (h.voter id b pid hb hbe hvote)

/-- A call that rewrites one account without its stake and vote, and
lets the history's staked volumes only grow. -/
theorem Inv.setAccount (h : self.Inv) {balance_manager_id : ℕ} {a a' : account.Account}
    (hget : self.accounts.get balance_manager_id = some a) (hs : SameStake a a')
    (hmv : a'.maker_volume ≤ a.maker_volume) {history' : History}
    (hsame : SameEpoch self.history history') (hgrow : StakedGrows self.history history') :
    ({ self with accounts := self.accounts.set balance_manager_id a', history := history' } : State).Inv :=
  ⟨h.historyOK.frame hget rfl rfl hsame hgrow hs.epoch
      (h.historyOK.staked_of_grows hgrow hget hs.epoch hs.active_stake hmv),
    h.governanceOK.frame hget rfl rfl (by rw [hs.power_eq]) hs.toSameVote⟩

/-- A call that only lets the history's staked volumes grow within its
epoch, as the burn does. -/
theorem Inv.setHistory (h : self.Inv) {history' : History} (hsame : SameEpoch self.history history')
    (hgrow : StakedGrows self.history history') : ({ self with history := history' } : State).Inv := by
  have hH := h.historyOK
  have hG := h.governanceOK
  refine ⟨⟨?_, fun e he => ?_, ?_, fun id a ha => ?_, fun id a v ha hv hreq => ?_⟩,
    ⟨hG.params, hG.proposals_length, hG.voting_power, hG.tally, hG.proposer, hG.voter⟩⟩
  · show history'.epoch = self.governance.epoch
    rw [hsame.epoch]
    exact hH.epoch
  · show e ≤ history'.epoch
    rw [hsame.epoch]
    exact hH.keys e (hsame.historic_volumes ▸ he)
  · show history'.historic_volumes.get history'.epoch ≠ none
    rw [hsame.historic_volumes, hsame.epoch]
    exact hH.current
  · show _ ∧ history'.historic_volumes.get a.epoch ≠ none
    rw [hsame.historic_volumes]
    exact hH.account_epoch id a ha
  · exact hH.staked_of_grows hgrow ha rfl rfl le_rfl v hv hreq

-- ============================================================ what the tally bounds

/-- An account's voting power is within the total: what
`adjust_voting_power` takes off when the account unstakes is there. -/
theorem Inv.power_le_voting_power (h : self.Inv) {id : ℕ} {a : account.Account}
    (ha : self.accounts.get id = some a) : a.power ≤ self.governance.voting_power := by
  rw [h.governanceOK.voting_power]
  exact VecMap.le_sum ha fun _ a => a.power

/-- An account's vote of the epoch is within the votes of its proposal:
what `adjust_vote` takes off it is there. -/
theorem Inv.vote_le_votes (h : self.Inv) {id : ℕ} {a : account.Account}
    (ha : self.accounts.get id = some a) (hae : a.epoch = self.governance.epoch) {pid : ℕ}
    (hv : a.voted_proposal = some pid) {p : Proposal} (hp : self.governance.proposals.get pid = some p) :
    votingPower a.active_stake ≤ p.votes := by
  have hle := VecMap.le_sum ha fun _ b => b.votesFor self.governance.epoch pid
  rw [← h.governanceOK.tally pid p hp] at hle
  simpa [Account.votesFor, hae, hv] using hle

-- ============================================================ the calls that trade

/-- The two refreshes a call starts with, in an epoch no earlier than
the pool's: the invariant, in the call's epoch, and the caller's account
in the table. -/
theorem Inv.touch (h : self.Inv) (hle : self.governance.epoch ≤ ctx.epoch) {balance_manager_id : ℕ}
    {mid mid' : State} (h1 : self.refresh ctx = .ok mid)
    (h2 : mid.update_account balance_manager_id ctx = .ok mid') :
    mid'.Inv ∧ mid'.governance.epoch = ctx.epoch ∧
      ∃ a, mid'.accounts.get balance_manager_id = some a ∧ a.epoch = ctx.epoch := by
  obtain ⟨hmid, he⟩ := h.refresh hle h1
  obtain ⟨hmid', hgov, a, ha, hae⟩ := hmid.update_account he h2
  exact ⟨hmid', hgov ▸ he, a, ha, hae⟩

theorem Inv.withdraw_settled_amounts (h : self.Inv) (balance_manager_id : ℕ) :
    (self.withdraw_settled_amounts balance_manager_id).1.Inv := by
  rcases @withdraw_settled_amounts_cases self balance_manager_id with ⟨-, he⟩ | ⟨a, ha, he⟩
  · rw [he]
    exact h
  · rw [he]
    exact h.setAccount ha (settle_sameStake a) le_rfl (SameEpoch.refl _) (StakedGrows.refl _)

theorem Inv.process_claim_rebates (h : self.Inv) (hle : self.governance.epoch ≤ ctx.epoch)
    {balance_manager_id : ℕ} {r : State × Balances × Balances}
    (hr : self.process_claim_rebates balance_manager_id ctx = .ok r) : r.1.Inv := by
  obtain ⟨mid, mid', a, h1, h2, ha, hr1⟩ := process_claim_rebates_eq_ok hr
  obtain ⟨hmid', -, -⟩ := h.touch hle h1 h2
  rw [hr1]
  exact hmid'.setAccount ha ((claim_rebates_sameStake a).trans (settle_sameStake _)) le_rfl
    (SameEpoch.refl _) (StakedGrows.refl _)

theorem Inv.process_cancel (h : self.Inv) (hle : self.governance.epoch ≤ ctx.epoch) {order : Order}
    {balance_manager_id : ℕ} {r : State × Order × Balances × Balances}
    (hr : self.process_cancel order balance_manager_id ctx = .ok r) : r.1.Inv := by
  obtain ⟨mid, mid', a, a', maker_fee, h1, h2, -, ha, hrem, hr1⟩ := process_cancel_eq_ok hr
  obtain ⟨hmid', -, -⟩ := h.touch hle h1 h2
  obtain ⟨hs, hmv⟩ := remove_order_sameStake hrem
  rw [hr1]
  exact hmid'.setAccount ha ((hs.trans (add_settled_balances_sameStake a' _)).trans (settle_sameStake _))
    hmv.le (SameEpoch.refl _) (StakedGrows.refl _)

theorem Inv.process_modify (h : self.Inv) (hle : self.governance.epoch ≤ ctx.epoch)
    {balance_manager_id cancel_quantity : ℕ} {order : Order} {r : State × Balances × Balances}
    (hr : self.process_modify balance_manager_id cancel_quantity order ctx = .ok r) : r.1.Inv := by
  obtain ⟨mid, mid', a, maker_fee, h1, h2, -, ha, hr1⟩ := process_modify_eq_ok hr
  obtain ⟨hmid', -, -⟩ := h.touch hle h1 h2
  rw [hr1]
  exact hmid'.setAccount ha ((add_settled_balances_sameStake a _).trans (settle_sameStake _)) le_rfl
    (SameEpoch.refl _) (StakedGrows.refl _)

/-- One fill, in the governance's epoch: a maker that did not expire has
its volume counted as staked exactly when it has the stake the epoch
requires. -/
theorem Inv.process_fill (h : self.Inv) (he : self.governance.epoch = ctx.epoch) {fill : Fill}
    (hr : self.process_fill fill ctx = .ok self') : self'.Inv ∧ self'.governance.epoch = ctx.epoch := by
  obtain ⟨mid, a, a', fees, h1, ha, hfill, hr⟩ := process_fill_eq_ok hr
  obtain ⟨hmid, hgov, b, hb, hbe⟩ := h.update_account he h1
  rw [ha] at hb
  cases hb
  obtain ⟨hs, hmv⟩ := process_maker_fill_sameStake hfill
  subst hr
  split
  · next hexp =>
      have hexp' : fill.expired = false := by simpa using hexp
      rw [hexp', if_neg Bool.false_ne_true, Nat.add_comm] at hmv
      -- the maker is in the history's epoch, whose volumes are the current ones
      have hcur : a.epoch = mid.history.epoch := by rw [hbe, hmid.historyOK.epoch, hgov, he]
      set history' := (mid.history.add_volume fill.base_quantity a'.active_stake).add_total_fees_collected
        fees with hhistory'
      have hsame : SameEpoch mid.history history' :=
        (History.add_volume_sameEpoch _ _).trans (History.add_total_fees_collected_sameEpoch _)
      have hgrow : StakedGrows mid.history history' :=
        (History.add_volume_stakedGrows _ _).trans (History.add_total_fees_collected_stakedGrows _)
      refine ⟨⟨hmid.historyOK.frame ha rfl rfl hsame hgrow hs.epoch fun v hv hreq => ?_,
        hmid.governanceOK.frame ha rfl rfl (by rw [hs.power_eq]) hs.toSameVote⟩, by rw [← he, ← hgov]⟩
      have hv' : v = history'.volumes := by
        unfold History.volumesOf at hv
        rw [if_pos (by rw [hs.epoch, hcur, hsame.epoch])] at hv
        exact (Option.some.inj hv).symm
      subst hv'
      have hreq' : mid.history.volumes.trade_params.stake_required ≤ a'.active_stake := by
        rw [← hsame.trade_params]
        exact hreq
      have hold := hmid.historyOK.staked _ a mid.history.volumes ha
        (by unfold History.volumesOf; rw [if_pos hcur]) (hs.active_stake ▸ hreq')
      have hnew : history'.volumes.total_staked_volume =
          mid.history.volumes.total_staked_volume + fill.base_quantity :=
        History.add_volume_staked _ hreq'
      omega
  · next hexp =>
      have hexp' : fill.expired = true := by simpa using hexp
      have hmv' : (a'.add_settled_balances fees).maker_volume ≤ a.maker_volume := by
        show a'.maker_volume ≤ a.maker_volume
        simp [hmv, hexp']
      exact ⟨hmid.setAccount ha (hs.trans (add_settled_balances_sameStake a' fees)) hmv'
        (SameEpoch.refl _) (StakedGrows.refl _), by rw [← he, ← hgov]⟩

theorem Inv.process_fills (h : self.Inv) (he : self.governance.epoch = ctx.epoch) {fills : List Fill}
    (hr : self.process_fills fills ctx = .ok self') : self'.Inv ∧ self'.governance.epoch = ctx.epoch :=
  foldlM_inv (fun s : State => s.Inv ∧ s.governance.epoch = ctx.epoch) ⟨h, he⟩
    (fun _ _ _ _ hs hstep => hs.1.process_fill hs.2 hstep) hr

theorem Inv.process_create (h : self.Inv) (hle : self.governance.epoch ≤ ctx.epoch)
    {order_info : OrderInfo} {ewma_state : EWMAState} {r : State × OrderInfo × Balances × Balances}
    (hr : self.process_create order_info ewma_state ctx = .ok r) : r.1.Inv := by
  obtain ⟨mid, mid', mid'', a, out, h1, h2, h3, ha, hout, hr1⟩ := process_create_eq_ok hr
  obtain ⟨hmid, he⟩ := h.refresh hle h1
  obtain ⟨hmid', he'⟩ := hmid.process_fills he h2
  obtain ⟨hmid'', -, -⟩ := hmid'.update_account he' h3
  obtain ⟨hstake, hmv⟩ := process_create_taker_stake hout
  rw [hr1]
  exact hmid''.setAccount ha (withTaker_sameStake a hstake) hmv.le
    (History.add_total_fees_collected_sameEpoch _) (History.add_total_fees_collected_stakedGrows _)

-- ============================================================ the calls on stake and votes

theorem Inv.process_stake (h : self.Inv) (hle : self.governance.epoch ≤ ctx.epoch)
    {balance_manager_id new_stake : ℕ} {r : State × Balances × Balances}
    (hr : self.process_stake balance_manager_id new_stake ctx = .ok r) : r.1.Inv := by
  obtain ⟨mid, mid', a, h1, h2, ha, -, hr1⟩ := process_stake_eq_ok hr
  obtain ⟨hmid', -, -⟩ := h.touch hle h1 h2
  rw [hr1]
  set a' : account.Account := { a with
    inactive_stake := a.inactive_stake + new_stake
    owed_balances := a.owed_balances.add_myso new_stake }
  -- the account's power, before and after
  have hpow : a'.settle.1.power = votingPower (a.active_stake + a.inactive_stake + new_stake) := by
    simp [a', account.Account.power, account.Account.settle, Nat.add_assoc]
  have hold := hmid'.power_le_voting_power ha
  have hpow' : a.power = votingPower (a.active_stake + a.inactive_stake) := rfl
  refine ⟨hmid'.historyOK.frame ha rfl rfl (SameEpoch.refl _) (StakedGrows.refl _) rfl
      (hmid'.historyOK.staked_of_grows (StakedGrows.refl _) ha rfl rfl le_rfl),
    hmid'.governanceOK.frame ha rfl rfl ?_ ⟨rfl, rfl, rfl, rfl⟩⟩
  show mid'.governance.voting_power + votingPower (a.active_stake + a.inactive_stake + new_stake) -
    votingPower (a.active_stake + a.inactive_stake) + a.power = mid'.governance.voting_power +
      a'.settle.1.power
  omega

/-- Moving an account's votes: what `adjust_vote` does to a proposal's
votes, against what the account's new vote does to the re-tally. -/
theorem tally_moved {E id : ℕ} {m : VecMap ℕ account.Account} {bm : ℕ} {a a' : account.Account}
    {from_id to_id : Option ℕ} {p : Proposal} (hget : m.get bm = some a) (hae : a.epoch = E)
    (hfrom : a.voted_proposal = from_id)
    (hafter : a'.votesFor E id = if to_id = some id then votingPower a.active_stake else 0)
    (hp : p.votes = m.sum fun _ b => b.votesFor E id) :
    (Governance.moveVotes from_id to_id (votingPower a.active_stake) id p).votes =
      (m.set bm a').sum fun _ b => b.votesFor E id := by
  have hsum := VecMap.sum_set m bm a' fun _ b => b.votesFor E id
  rw [hget] at hsum
  simp only [Option.map_some, Option.getD_some] at hsum
  have hle := VecMap.le_sum hget fun _ b => b.votesFor E id
  -- what the account gave before
  have hbefore : a.votesFor E id = if from_id = some id then votingPower a.active_stake else 0 := by
    simp [Account.votesFor, hae, hfrom]
  rw [hbefore, hafter] at hsum
  rw [hbefore] at hle
  simp only [Governance.moveVotes]
  omega

/-- The voting power set aside, the rest of the governance as it was. -/
theorem paramsOK_with_voting_power {g : Governance} (h : g.ParamsOK) (voting_power : ℕ) :
    ({ g with voting_power } : Governance).ParamsOK :=
  ⟨h.current, h.next, h.proposals⟩

theorem Inv.process_unstake (h : self.Inv) (hle : self.governance.epoch ≤ ctx.epoch)
    {balance_manager_id : ℕ} {r : State × Balances × Balances}
    (hr : self.process_unstake balance_manager_id ctx = .ok r) : r.1.Inv := by
  obtain ⟨mid, mid', a, g', h1, h2, ha, hg, hr1⟩ := process_unstake_eq_ok hr
  obtain ⟨hmid', he, b, hb, hbe⟩ := h.touch hle h1 h2
  rw [ha] at hb
  cases hb
  obtain ⟨-, hm, hget'⟩ := Governance.adjust_vote_eq_ok hg
  have hG := hmid'.governanceOK
  rw [hr1]
  set a' := a.remove_stake.settle.1 with ha'
  have hset : ∀ id, (mid'.accounts.set balance_manager_id a').get id =
      if id = balance_manager_id then some a' else mid'.accounts.get id := fun id => VecMap.get_set id
  have hepoch : g'.epoch = mid'.governance.epoch := hm.epoch
  have hproposed : ∀ id, mid'.ProposedIn id →
      ({ mid' with accounts := mid'.accounts.set balance_manager_id a', governance := g' } : State).ProposedIn
        id := proposedIn_of_set rfl hepoch fun b hb _ hc => by
      rw [ha] at hb
      cases hb
      exact ⟨rfl, hc⟩
  refine ⟨hmid'.historyOK.frame ha rfl hepoch (SameEpoch.refl _) (StakedGrows.refl _) rfl ?_,
    ⟨?_, ?_, ?_, fun id p' hp' => ?_, fun id hp' => ?_, fun id c pid hc hce hvote => ?_⟩⟩
  · -- no stake is left, so only a zero requirement is met, which the old stake met too
    intro v hv hreq
    have hreq0 : v.trade_params.stake_required = 0 := Nat.le_zero.mp hreq
    exact hmid'.historyOK.staked _ a v ha hv (by rw [hreq0]; exact Nat.zero_le _)
  · exact Governance.ParamsOK.moved (paramsOK_with_voting_power hG.params _) hm
  · rw [hm.length]
    exact hG.proposals_length
  · -- the whole stake's power comes off the total
    have hsum := VecMap.sum_set mid'.accounts balance_manager_id a' fun _ a => a.power
    rw [ha] at hsum
    simp only [Option.map_some, Option.getD_some] at hsum
    have hold := VecMap.le_sum ha fun _ a => a.power
    have hzero : a'.power = 0 := by
      simp [ha', account.Account.power, account.Account.remove_stake, account.Account.settle]
    have hvp := hG.voting_power
    show g'.voting_power = _
    rw [hm.voting_power]
    show mid'.governance.voting_power - votingPower (a.active_stake + a.inactive_stake) =
      (mid'.accounts.set balance_manager_id a').sum fun _ a => a.power
    rw [hzero] at hsum
    have : a.power = votingPower (a.active_stake + a.inactive_stake) := rfl
    omega
  · rw [hget'] at hp'
    obtain ⟨p, hp, rfl⟩ := Option.map_eq_some_iff.mp hp'
    show _ = (mid'.accounts.set balance_manager_id a').sum fun _ b => b.votesFor g'.epoch id
    rw [hepoch]
    exact tally_moved ha (hbe.trans he.symm) rfl
      (by simp [ha', Account.votesFor, account.Account.remove_stake, account.Account.settle])
      (hG.tally id p hp)
  · rw [hget'] at hp'
    exact hproposed id (hG.proposer id (by simpa using hp'))
  · rw [hset] at hc
    split at hc
    · cases hc
      cases hvote
    · exact hproposed pid (hG.voter id c pid hc (hepoch ▸ hce) hvote)

theorem Inv.process_vote (h : self.Inv) (hle : self.governance.epoch ≤ ctx.epoch)
    {balance_manager_id proposal_id : ℕ}
    (hr : self.process_vote balance_manager_id proposal_id ctx = .ok self') : self'.Inv := by
  obtain ⟨mid, mid', a, g', h1, h2, ha, -, hg, rfl⟩ := process_vote_eq_ok hr
  obtain ⟨hmid', he, b, hb, hbe⟩ := h.touch hle h1 h2
  rw [ha] at hb
  cases hb
  obtain ⟨hto, hm, hget'⟩ := Governance.adjust_vote_eq_ok hg
  have hG := hmid'.governanceOK
  set a' := (a.set_voted_proposal (some proposal_id)).1 with ha'
  have hepoch : g'.epoch = mid'.governance.epoch := hm.epoch
  have hproposed : ∀ id, mid'.ProposedIn id →
      ({ mid' with accounts := mid'.accounts.set balance_manager_id a', governance := g' } : State).ProposedIn
        id := proposedIn_of_set rfl hepoch fun b hb _ hc => by
      rw [ha] at hb
      cases hb
      exact ⟨rfl, hc⟩
  refine ⟨hmid'.historyOK.frame ha rfl hepoch (SameEpoch.refl _) (StakedGrows.refl _) rfl
      (hmid'.historyOK.staked_of_grows (StakedGrows.refl _) ha rfl rfl le_rfl),
    ⟨Governance.ParamsOK.moved hG.params hm, ?_, ?_, fun id p' hp' => ?_, fun id hp' => ?_,
      fun id c q hc hce hq => ?_⟩⟩
  · rw [hm.length]
    exact hG.proposals_length
  · -- the stake is as it was
    show g'.voting_power = (mid'.accounts.set balance_manager_id a').sum fun _ a => a.power
    rw [hm.voting_power, VecMap.sum_set_of_eq]
    · exact hG.voting_power
    · simp only [ha, Option.map_some, Option.getD_some]
      rfl
  · rw [hget'] at hp'
    obtain ⟨p, hp, rfl⟩ := Option.map_eq_some_iff.mp hp'
    show _ = (mid'.accounts.set balance_manager_id a').sum fun _ b => b.votesFor g'.epoch id
    rw [hepoch]
    exact tally_moved ha (hbe.trans he.symm) rfl
      (by simp [ha', Account.votesFor, account.Account.set_voted_proposal, hbe, he]) (hG.tally id p hp)
  · rw [hget'] at hp'
    exact hproposed id (hG.proposer id (by simpa using hp'))
  · rw [VecMap.get_set] at hc
    split at hc
    · -- the new vote, for a proposal that is there
      cases hc
      have hq' : q = proposal_id := by
        simp only [ha', account.Account.set_voted_proposal, Option.some.injEq] at hq
        exact hq.symm
      subst hq'
      exact hproposed q (hG.proposer q (hto q rfl))
    · exact hproposed q (hG.voter id c q hc (hepoch ▸ hce) hq)

/-- A proposal added under the id of an account in the epoch that has
not proposed yet, and the account marked as having proposed: no vote of
the epoch is for that id, since its account would have proposed. -/
theorem Inv.proposal_added (h : self.Inv) {balance_manager_id taker_fee maker_fee stake_required : ℕ}
    {a : account.Account} {g : Governance} (ha : self.accounts.get balance_manager_id = some a)
    (hae : a.epoch = self.governance.epoch) (hcreated : a.created_proposal = false)
    (hg : self.governance.add_proposal taker_fee maker_fee stake_required a.active_stake
      balance_manager_id = .ok g) :
    ({ self with
      accounts := self.accounts.set balance_manager_id (a.set_created_proposal true)
      governance := g } : State).Inv := by
  have hparams := Governance.ParamsOK.add_proposal h.governanceOK.params hg
  obtain ⟨-, -, kept, hkept, hnew, rfl⟩ := Governance.add_proposal_eq_ok hg
  have hG := h.governanceOK
  set a' := a.set_created_proposal true with ha'
  -- what is kept is a part of what was there
  have hsub : ∀ id p, kept.get id = some p → self.governance.proposals.get id = some p := by
    rcases hkept with ⟨rfl, -⟩ | ⟨-, r, -, rfl⟩
    · exact fun _ _ hp => hp
    · intro id p hp
      rw [VecMap.get_erase] at hp
      split at hp
      · cases hp
      · exact hp
  -- no account votes for the new id in this epoch: its account would have proposed
  have hnovote : ∀ id c, self.accounts.get id = some c →
      c.votesFor self.governance.epoch balance_manager_id = 0 := by
    intro id c hc
    unfold Account.votesFor
    split
    · next hv =>
        obtain ⟨d, hd, -, hdc⟩ := hG.voter id c balance_manager_id hc hv.1 hv.2
        rw [ha] at hd
        cases hd
        rw [hcreated] at hdc
        cases hdc
    · rfl
  set s3 : State := { self with
    accounts := self.accounts.set balance_manager_id a'
    governance := { self.governance with
      proposals := kept.set balance_manager_id (new_proposal taker_fee maker_fee stake_required) } }
    with hs3eq
  have hproposed : ∀ id, self.ProposedIn id → s3.ProposedIn id :=
    proposedIn_of_set rfl rfl fun b hb _ hc => by
      rw [ha] at hb
      cases hb
      exact ⟨rfl, rfl⟩
  have hsame : (self.accounts.set balance_manager_id a').sum (fun _ b =>
      b.votesFor self.governance.epoch balance_manager_id) = 0 := by
    refine (VecMap.sum_congr fun k c hc => ?_).trans (VecMap.sum_zero _)
    rw [VecMap.get_set] at hc
    split at hc
    · cases hc
      exact hnovote _ a ha
    · exact hnovote k c hc
  refine ⟨h.historyOK.frame ha rfl rfl (SameEpoch.refl _) (StakedGrows.refl _) rfl
      (h.historyOK.staked_of_grows (StakedGrows.refl _) ha rfl rfl le_rfl),
    ⟨hparams, ?_, ?_, fun id p hp => ?_, fun id hp => ?_, fun id c q hc hce hq => ?_⟩⟩
  · -- room was made when there was none
    show (kept.set balance_manager_id _).length ≤ MAX_PROPOSALS
    rw [VecMap.length_set, if_pos hnew]
    have hlen := hG.proposals_length
    rcases hkept with ⟨rfl, hne⟩ | ⟨hfull, r, hr, rfl⟩
    · omega
    · obtain ⟨p, hp⟩ := Option.ne_none_iff_exists'.mp hr
      have := VecMap.length_erase hp
      omega
  · show self.governance.voting_power = (self.accounts.set balance_manager_id a').sum fun _ a => a.power
    rw [VecMap.sum_set_of_eq]
    · exact hG.voting_power
    · simp only [ha, Option.map_some, Option.getD_some]
      rfl
  · show p.votes = (self.accounts.set balance_manager_id a').sum fun _ b =>
      b.votesFor self.governance.epoch id
    simp only [hs3eq, VecMap.get_set] at hp
    split at hp
    · -- the new proposal, with no votes
      next hid =>
        cases hp
        subst hid
        exact hsame.symm
    · rw [VecMap.sum_set_of_eq]
      · exact hG.tally id p (hsub id p hp)
      · simp only [ha, Option.map_some, Option.getD_some]
        rfl
  · show s3.ProposedIn id
    simp only [hs3eq, VecMap.get_set] at hp
    split at hp
    · next hid =>
        subst hid
        exact ⟨a', by simp [hs3eq], by simp [hs3eq, ha', account.Account.set_created_proposal, hae], rfl⟩
    · exact hproposed id (hG.proposer id fun hn => hp (by
        cases hk : kept.get id with
        | none => rfl
        | some p => rw [hsub id p hk] at hn; cases hn))
  · rw [hs3eq, VecMap.get_set] at hc
    split at hc
    · cases hc
      exact hproposed q (hG.voter _ a q ha hce hq)
    · exact hproposed q (hG.voter id c q hc hce hq)

/-- A proposal, then the vote of its account for it, a call of its own. -/
theorem Inv.process_proposal (h : self.Inv) (hle : self.governance.epoch ≤ ctx.epoch)
    {balance_manager_id taker_fee maker_fee stake_required : ℕ}
    (hr : self.process_proposal balance_manager_id taker_fee maker_fee stake_required ctx = .ok self') :
    self'.Inv := by
  obtain ⟨mid, mid', a, g, h1, h2, ha, -, hcreated, hg, hvote⟩ := process_proposal_eq_ok hr
  obtain ⟨hmid', he, b, hb, hbe⟩ := h.touch hle h1 h2
  rw [ha] at hb
  cases hb
  have hge : g.epoch = mid'.governance.epoch := by
    obtain ⟨-, -, _, -, -, rfl⟩ := Governance.add_proposal_eq_ok hg
    rfl
  exact (hmid'.proposal_added ha (hbe.trans he.symm) hcreated hg).process_vote (by
    show g.epoch ≤ ctx.epoch
    rw [hge, he]) hvote

end State

end state

end MysoCore.Orderbook
