/-
The governance of a pool (orderbook/sources/state/governance.move):
proposals for the trade parameters of the next epoch, voted on with the
voting power of stake, and the refresh at the start of each epoch.

# Voting power

`stake_to_voting_power` counts stake one for one up to a threshold and
by its square root above it. It calls `math::sqrt` at the fixed-point
precision, which the square root accepts, so it never aborts:
`stake_to_voting_power_eq` gives its value, `votingPower`. A stake of
nothing has no power (`votingPower_zero`), which is all the tallies of
the pool need to know about it.

# Votes

`adjust_vote` is two halves: the votes of a stake are taken off the
proposal it voted for, if that proposal is still there (`removeVote`),
and put on the one it votes for now, which must be there (`addVote`).
A proposal that rises above the quorum becomes the next trade
parameters, and one that falls from above the quorum to below it hands
them back to the current ones. `adjust_vote_eq_ok` says what a
successful call does to each proposal: it moves the votes and changes
nothing else but the next trade parameters (`VotesMoved`).

# The proposal above the quorum

While at most one proposal is above the quorum (`AtMostOneAbove`, which
the pool's tally gives), the next trade parameters are that proposal's
(`WinnerNext`): the vote that lifts a proposal above the quorum sets
them, and a proposal that falls from above the quorum to below it hands
them back only when it was the one above. Votes taken off a proposal
that does not have them would break this, where the source's u64
subtraction aborts; `removeVote_winnerNext` asks that they are there.
The converse does not hold: the hand-back asks the proposal to cross
the quorum in one step (`proposal.votes + votes > quorum` and
`proposal.votes < quorum`), so one that falls to the quorum exactly, and
then below it, keeps the next trade parameters.

# Aborts

A vote aborts only for a proposal that is not there
(`adjust_vote_eq_error`), and a proposal only on its checks or for want
of room, when its key is new (`add_proposal_eq_error`).

# Fee bounds

`FeesOK` is the fee a pool of its kind may charge: nothing on a
whitelisted pool, and otherwise fees in steps of `FEE_MULTIPLE` within
the bounds of a stable or a volatile pool. `ParamsOK` asks it of the
current and the next trade parameters and of every proposal; the pool's
defaults meet it (`empty_paramsOK`), and each call keeps it, since a
proposal is checked when it is added and the next trade parameters are
only ever the current ones or a proposal's.
-/
import MysoCore.Orderbook.Account

namespace MysoCore.Orderbook

namespace constants

def default_stake_required : ℕ := 100 * 1_000_000_000
def half : ℕ := 500_000_000
def myso_unit : ℕ := 1_000_000_000
def max_u64 : ℕ := 2 ^ 64 - 1

end constants

namespace governance

open ExceptFold

def FEE_MULTIPLE : ℕ := 1000
def MIN_TAKER_STABLE : ℕ := 10000
def MAX_TAKER_STABLE : ℕ := 100000
def MIN_MAKER_STABLE : ℕ := 0
def MAX_MAKER_STABLE : ℕ := 50000
def MIN_TAKER_VOLATILE : ℕ := 100000
def MAX_TAKER_VOLATILE : ℕ := 1000000
def MIN_MAKER_VOLATILE : ℕ := 0
def MAX_MAKER_VOLATILE : ℕ := 500000
def MAX_PROPOSALS : ℕ := 100
def VOTING_POWER_THRESHOLD : ℕ := 100_000_000_000

/-- `Proposal`: proposed trade parameters and their votes. -/
structure Proposal where
  taker_fee : ℕ
  maker_fee : ℕ
  stake_required : ℕ
  votes : ℕ
  deriving DecidableEq, Repr

/-- `Governance`: the proposals of the current epoch, keyed by the
balance manager that made each, the current and next trade parameters,
and the voting power of all stake with the quorum of this epoch. -/
structure Governance where
  epoch : ℕ
  whitelisted : Bool
  stable : Bool
  proposals : VecMap ℕ Proposal
  trade_params : TradeParams
  next_trade_params : TradeParams
  voting_power : ℕ
  quorum : ℕ

/-- `governance::new_proposal`: no votes yet. -/
def new_proposal (taker_fee maker_fee stake_required : ℕ) : Proposal :=
  ⟨taker_fee, maker_fee, stake_required, 0⟩

def Proposal.to_trade_params (proposal : Proposal) : TradeParams :=
  ⟨proposal.taker_fee, proposal.maker_fee, proposal.stake_required⟩

/-- `governance::stake_to_voting_power`: the stake up to the threshold,
and the square root of the rest above it. -/
def stake_to_voting_power (stake : ℕ) : Except Abort ℕ := do
  let voting_power := min stake VOTING_POWER_THRESHOLD
  if stake > VOTING_POWER_THRESHOLD then
    let root ← math.sqrt stake constants.myso_unit
    let threshold_root ← math.sqrt VOTING_POWER_THRESHOLD constants.myso_unit
    pure (voting_power + root - threshold_root)
  else pure voting_power

/-- The voting power of a stake, as `stake_to_voting_power` computes it. -/
def votingPower (stake : ℕ) : ℕ :=
  if stake > VOTING_POWER_THRESHOLD then
    VOTING_POWER_THRESHOLD + Nat.sqrt (stake * constants.float_scaling) -
      Nat.sqrt (VOTING_POWER_THRESHOLD * constants.float_scaling)
  else stake

/-- `math::sqrt` at the MYSO unit, the fixed-point precision: no abort. -/
theorem sqrt_myso_unit (x : ℕ) :
    math.sqrt x constants.myso_unit = .ok (Nat.sqrt (x * constants.float_scaling)) := by
  simp [math.sqrt, constants.myso_unit, constants.float_scaling]

theorem stake_to_voting_power_eq (stake : ℕ) :
    stake_to_voting_power stake = .ok (votingPower stake) := by
  unfold stake_to_voting_power votingPower
  split
  · next h =>
      simp only [sqrt_myso_unit, ok_bind]
      rw [min_eq_right (le_of_lt h)]
      rfl
  · next h =>
      rw [min_eq_left (not_lt.mp h)]
      rfl

@[simp] theorem stake_to_voting_power_mapError (stake : ℕ) :
    (stake_to_voting_power stake).mapError StateAbort.abort = .ok (votingPower stake) := by
  rw [stake_to_voting_power_eq]
  rfl

@[simp] theorem votingPower_zero : votingPower 0 = 0 := rfl

/-- More stake never has less voting power. -/
theorem votingPower_mono {x y : ℕ} (h : x ≤ y) : votingPower x ≤ votingPower y := by
  unfold votingPower
  have hroot := Nat.sqrt_le_sqrt (Nat.mul_le_mul_right constants.float_scaling h)
  split <;> split
  · omega
  · omega
  · -- below the threshold against above it: the threshold is between
    have := Nat.sqrt_le_sqrt (Nat.mul_le_mul_right constants.float_scaling (le_of_lt ‹_›))
    omega
  · exact h

/-- The fee bounds `add_proposal` checks: steps of `FEE_MULTIPLE`, within
the bounds of a stable or a volatile pool. -/
def FeeBounds (stable : Bool) (taker_fee maker_fee : ℕ) : Prop :=
  taker_fee % FEE_MULTIPLE = 0 ∧ maker_fee % FEE_MULTIPLE = 0 ∧
    if stable then
      (taker_fee ≥ MIN_TAKER_STABLE ∧ taker_fee ≤ MAX_TAKER_STABLE) ∧
        maker_fee ≥ MIN_MAKER_STABLE ∧ maker_fee ≤ MAX_MAKER_STABLE
    else
      (taker_fee ≥ MIN_TAKER_VOLATILE ∧ taker_fee ≤ MAX_TAKER_VOLATILE) ∧
        maker_fee ≥ MIN_MAKER_VOLATILE ∧ maker_fee ≤ MAX_MAKER_VOLATILE

instance (stable : Bool) (taker_fee maker_fee : ℕ) : Decidable (FeeBounds stable taker_fee maker_fee) :=
  inferInstanceAs (Decidable (taker_fee % FEE_MULTIPLE = 0 ∧ maker_fee % FEE_MULTIPLE = 0 ∧
    if stable then
      (taker_fee ≥ MIN_TAKER_STABLE ∧ taker_fee ≤ MAX_TAKER_STABLE) ∧
        maker_fee ≥ MIN_MAKER_STABLE ∧ maker_fee ≤ MAX_MAKER_STABLE
    else
      (taker_fee ≥ MIN_TAKER_VOLATILE ∧ taker_fee ≤ MAX_TAKER_VOLATILE) ∧
        maker_fee ≥ MIN_MAKER_VOLATILE ∧ maker_fee ≤ MAX_MAKER_VOLATILE))

/-- The trade parameters a pool may have: no fees on a whitelisted pool,
fees within the bounds of its kind otherwise. -/
def FeesOK (whitelisted stable : Bool) (params : TradeParams) : Prop :=
  if whitelisted then params.taker_fee = 0 ∧ params.maker_fee = 0
  else FeeBounds stable params.taker_fee params.maker_fee

instance (whitelisted stable : Bool) (params : TradeParams) :
    Decidable (FeesOK whitelisted stable params) :=
  inferInstanceAs (Decidable (if whitelisted then params.taker_fee = 0 ∧ params.maker_fee = 0
    else FeeBounds stable params.taker_fee params.maker_fee))

namespace Governance

/-- `governance::empty`: no fees on a whitelisted pool, the highest of
its kind otherwise, and nothing staked. -/
def empty (whitelisted stable_pool : Bool) (ctx : TxContext) : Governance :=
  let default_taker := if whitelisted then 0 else if stable_pool then MAX_TAKER_STABLE
    else MAX_TAKER_VOLATILE
  let default_maker := if whitelisted then 0 else if stable_pool then MAX_MAKER_STABLE
    else MAX_MAKER_VOLATILE
  { epoch := ctx.epoch
    whitelisted
    stable := stable_pool
    proposals := VecMap.empty
    trade_params := ⟨default_taker, default_maker, constants.default_stake_required⟩
    next_trade_params := ⟨default_taker, default_maker, constants.default_stake_required⟩
    voting_power := 0
    quorum := 0 }

/-- `Governance::update`: at the start of an epoch, the quorum is half
the voting power, the proposals are cleared and the next trade
parameters take effect. -/
def update (self : Governance) (ctx : TxContext) : Governance :=
  if self.epoch = ctx.epoch then self
  else
    { self with
      epoch := ctx.epoch
      quorum := math.mul self.voting_power constants.half
      proposals := VecMap.empty
      trade_params := self.next_trade_params }

/-- One entry of the scan of `remove_lowest_proposal`: a proposal with
fewer votes than the voting power and no more than the lowest so far
becomes the one to remove. -/
def lowestStep (voting_power : ℕ) (acc : Option ℕ × ℕ) (entry : ℕ × Proposal) : Option ℕ × ℕ :=
  if entry.2.votes < voting_power ∧ entry.2.votes ≤ acc.2 then (some entry.1, entry.2.votes)
  else acc

/-- `Governance::remove_lowest_proposal`: the last of the proposals with
the fewest votes is removed, if it has fewer than the voting power. -/
def remove_lowest_proposal (self : Governance) (voting_power : ℕ) : Except StateAbort Governance :=
  match (self.proposals.contents.foldl (lowestStep voting_power) (none, constants.max_u64)).1 with
  | none => .error .EMaxProposalsReachedNotEnoughVotes
  | some removal_id => .ok { self with proposals := self.proposals.erase removal_id }

/-- The bounds `add_proposal` checks for the pool's kind. -/
def checkFeeRange (stable : Bool) (taker_fee maker_fee : ℕ) : Except StateAbort Unit :=
  if stable then do
    require (taker_fee ≥ MIN_TAKER_STABLE ∧ taker_fee ≤ MAX_TAKER_STABLE) .EInvalidTakerFee
    require (maker_fee ≥ MIN_MAKER_STABLE ∧ maker_fee ≤ MAX_MAKER_STABLE) .EInvalidMakerFee
  else do
    require (taker_fee ≥ MIN_TAKER_VOLATILE ∧ taker_fee ≤ MAX_TAKER_VOLATILE) .EInvalidTakerFee
    require (maker_fee ≥ MIN_MAKER_VOLATILE ∧ maker_fee ≤ MAX_MAKER_VOLATILE) .EInvalidMakerFee

/-- The room `add_proposal` makes: the lowest proposal removed when
there are `MAX_PROPOSALS`. -/
def makeRoom (self : Governance) (voting_power : ℕ) : Except StateAbort Governance :=
  if self.proposals.length = MAX_PROPOSALS then self.remove_lowest_proposal voting_power
  else pure self

/-- `Governance::add_proposal`: fees within the bounds of the pool's
kind, room made when there are `MAX_PROPOSALS`, and the proposal added
under its balance manager. -/
def add_proposal (self : Governance) (taker_fee maker_fee stake_required stake_amount
    balance_manager_id : ℕ) : Except StateAbort Governance := do
  require (!self.whitelisted) .EWhitelistedPoolCannotChange
  require (taker_fee % FEE_MULTIPLE = 0) .EInvalidTakerFee
  require (maker_fee % FEE_MULTIPLE = 0) .EInvalidMakerFee
  checkFeeRange self.stable taker_fee maker_fee
  let voting_power ← (stake_to_voting_power stake_amount).mapError .abort
  let self ← self.makeRoom voting_power
  let proposals ← self.proposals.insert balance_manager_id
    (new_proposal taker_fee maker_fee stake_required) .EKeyAlreadyExists
  pure { self with proposals }

/-- The first half of `adjust_vote`: the votes taken off a proposal that
is still there; one that falls from above the quorum to below it gives
the next trade parameters back to the current ones. -/
def removeVote (self : Governance) (proposal_id votes : ℕ) : Governance :=
  match self.proposals.get proposal_id with
  | some proposal =>
      let proposal := { proposal with votes := proposal.votes - votes }
      { self with
        proposals := self.proposals.set proposal_id proposal
        next_trade_params :=
          if proposal.votes + votes > self.quorum ∧ proposal.votes < self.quorum then self.trade_params
          else self.next_trade_params }
  | none => self

/-- The second half of `adjust_vote`: the votes put on a proposal, which
must be there; above the quorum it becomes the next trade parameters. -/
def addVote (self : Governance) (proposal_id votes : ℕ) : Except StateAbort Governance :=
  match self.proposals.get proposal_id with
  | some proposal =>
      let proposal := { proposal with votes := proposal.votes + votes }
      .ok { self with
        proposals := self.proposals.set proposal_id proposal
        next_trade_params :=
          if proposal.votes > self.quorum then proposal.to_trade_params else self.next_trade_params }
  | none => .error .EProposalDoesNotExist

/-- `Governance::adjust_vote`: the voting power of a stake moved from the
proposal it voted for to the one it votes for. -/
def adjust_vote (self : Governance) (from_proposal_id to_proposal_id : Option ℕ)
    (stake_amount : ℕ) : Except StateAbort Governance := do
  let votes ← (stake_to_voting_power stake_amount).mapError .abort
  let self := match from_proposal_id with
    | some proposal_id => self.removeVote proposal_id votes
    | none => self
  match to_proposal_id with
  | some proposal_id => self.addVote proposal_id votes
  | none => pure self

/-- `Governance::adjust_voting_power`: the voting power of a stake that
went from `stake_before` to `stake_after`. -/
def adjust_voting_power (self : Governance) (stake_before stake_after : ℕ) :
    Except StateAbort Governance := do
  let after ← (stake_to_voting_power stake_after).mapError .abort
  let before ← (stake_to_voting_power stake_before).mapError .abort
  pure { self with voting_power := self.voting_power + after - before }

-- ============================================================ what each call does

variable {self self' : Governance}

/-- A refresh in the same epoch changes nothing; in a new one it clears
the proposals and adopts the next trade parameters. -/
theorem update_cases (ctx : TxContext) :
    (self.epoch = ctx.epoch ∧ self.update ctx = self) ∨
      (self.epoch ≠ ctx.epoch ∧ self.update ctx = { self with
        epoch := ctx.epoch
        quorum := math.mul self.voting_power constants.half
        proposals := VecMap.empty
        trade_params := self.next_trade_params }) := by
  unfold update
  split
  · next h => exact .inl ⟨h, rfl⟩
  · next h => exact .inr ⟨h, rfl⟩

@[simp] theorem update_epoch (ctx : TxContext) : (self.update ctx).epoch = ctx.epoch := by
  unfold update
  split
  · next h => exact h
  · rfl

@[simp] theorem update_whitelisted (ctx : TxContext) :
    (self.update ctx).whitelisted = self.whitelisted := by
  unfold update
  split <;> rfl

@[simp] theorem update_stable (ctx : TxContext) : (self.update ctx).stable = self.stable := by
  unfold update
  split <;> rfl

@[simp] theorem update_voting_power (ctx : TxContext) :
    (self.update ctx).voting_power = self.voting_power := by
  unfold update
  split <;> rfl

@[simp] theorem update_next_trade_params (ctx : TxContext) :
    (self.update ctx).next_trade_params = self.next_trade_params := by
  unfold update
  split <;> rfl

/-- The proposal `remove_lowest_proposal` picks is one of the proposals. -/
theorem lowestStep_mem (voting_power : ℕ) :
    ∀ (l : List (ℕ × Proposal)) (acc : Option ℕ × ℕ) (id : ℕ),
      (l.foldl (lowestStep voting_power) acc).1 = some id → acc.1 = some id ∨ id ∈ SortedMap.keys l
  | [], _, _, h => .inl h
  | e :: rest, acc, id, h => by
      rw [List.foldl_cons] at h
      rcases lowestStep_mem voting_power rest _ id h with h | h
      · unfold lowestStep at h
        split at h
        · cases h
          exact .inr List.mem_cons_self
        · exact .inl h
      · exact .inr (List.mem_cons_of_mem _ h)

/-- A successful removal drops one of the proposals and nothing else. -/
theorem remove_lowest_proposal_eq_ok {voting_power : ℕ}
    (h : self.remove_lowest_proposal voting_power = .ok self') :
    ∃ id, self.proposals.get id ≠ none ∧ self' = { self with proposals := self.proposals.erase id } := by
  unfold remove_lowest_proposal at h
  split at h
  · cases h
  · next id hid =>
      cases h
      refine ⟨id, ?_, rfl⟩
      rcases lowestStep_mem voting_power _ _ id hid with h | h
      · cases h
      · exact VecMap.mem_keys_iff.mp h

theorem checkFeeRange_eq_ok {stable : Bool} {taker_fee maker_fee : ℕ} {u : Unit} :
    checkFeeRange stable taker_fee maker_fee = .ok u ↔
      if stable then
        (taker_fee ≥ MIN_TAKER_STABLE ∧ taker_fee ≤ MAX_TAKER_STABLE) ∧
          maker_fee ≥ MIN_MAKER_STABLE ∧ maker_fee ≤ MAX_MAKER_STABLE
      else
        (taker_fee ≥ MIN_TAKER_VOLATILE ∧ taker_fee ≤ MAX_TAKER_VOLATILE) ∧
          maker_fee ≥ MIN_MAKER_VOLATILE ∧ maker_fee ≤ MAX_MAKER_VOLATILE := by
  unfold checkFeeRange
  split <;> simp only [require_bind_eq_ok, require_eq_ok]

/-- A successful proposal: the pool is not whitelisted, the fees are
within its kind's bounds, and the proposal was added with no votes under
a key that had none, after one other was dropped when there was no room. -/
theorem add_proposal_eq_ok {taker_fee maker_fee stake_required stake_amount balance_manager_id : ℕ}
    (h : self.add_proposal taker_fee maker_fee stake_required stake_amount balance_manager_id =
      .ok self') :
    self.whitelisted = false ∧ FeeBounds self.stable taker_fee maker_fee ∧
      ∃ kept : VecMap ℕ Proposal,
        (kept = self.proposals ∧ self.proposals.length ≠ MAX_PROPOSALS ∨
          self.proposals.length = MAX_PROPOSALS ∧
            ∃ id, self.proposals.get id ≠ none ∧ kept = self.proposals.erase id) ∧
        kept.get balance_manager_id = none ∧
        self' = { self with
          proposals := kept.set balance_manager_id (new_proposal taker_fee maker_fee stake_required) } := by
  unfold add_proposal at h
  simp only [require_bind_eq_ok] at h
  obtain ⟨hwl, htaker, hmaker, h⟩ := h
  obtain ⟨_, hrange, h⟩ := bind_eq_ok h
  simp only [stake_to_voting_power_mapError, ok_bind] at h
  obtain ⟨mid, hmid, h⟩ := bind_eq_ok h
  obtain ⟨proposals, hins, h⟩ := bind_eq_ok h
  rw [VecMap.insert_eq_ok] at hins
  rw [pure_eq_ok] at h
  subst h
  refine ⟨by simpa using hwl, ⟨htaker, hmaker, checkFeeRange_eq_ok.mp hrange⟩, ?_⟩
  -- room made, then the new proposal
  unfold makeRoom at hmid
  split at hmid
  · next hfull =>
      obtain ⟨id, hid, rfl⟩ := remove_lowest_proposal_eq_ok hmid
      exact ⟨_, .inr ⟨hfull, id, hid, rfl⟩, hins.1, by rw [hins.2]⟩
  · next hroom =>
      rw [pure_eq_ok] at hmid
      subst hmid
      exact ⟨_, .inl ⟨rfl, hroom⟩, hins.1, by rw [hins.2]⟩

-- ============================================================ votes

/-- What `adjust_vote` does to one proposal: the votes of the stake
taken off the proposal it voted for and put on the one it votes for. -/
def moveVotes (from_proposal_id to_proposal_id : Option ℕ) (votes id : ℕ) (proposal : Proposal) :
    Proposal :=
  { proposal with
    votes := proposal.votes - (if from_proposal_id = some id then votes else 0) +
      (if to_proposal_id = some id then votes else 0) }

/-- Two states of the governance that differ in the votes of the
proposals and in the next trade parameters only, and the next ones are
the current ones or a proposal's. -/
structure VotesMoved (g g' : Governance) : Prop where
  epoch : g'.epoch = g.epoch
  whitelisted : g'.whitelisted = g.whitelisted
  stable : g'.stable = g.stable
  trade_params : g'.trade_params = g.trade_params
  voting_power : g'.voting_power = g.voting_power
  quorum : g'.quorum = g.quorum
  length : g'.proposals.length = g.proposals.length
  params : ∀ id p', g'.proposals.get id = some p' →
    ∃ p, g.proposals.get id = some p ∧ p'.to_trade_params = p.to_trade_params
  next : g'.next_trade_params = g.next_trade_params ∨
    g'.next_trade_params = g.trade_params ∨
    ∃ id p, g.proposals.get id = some p ∧ g'.next_trade_params = p.to_trade_params

theorem VotesMoved.refl (self : Governance) : VotesMoved self self :=
  ⟨rfl, rfl, rfl, rfl, rfl, rfl, rfl, fun _ p h => ⟨p, h, rfl⟩, .inl rfl⟩

theorem VotesMoved.trans {self'' : Governance} (h : VotesMoved self self')
    (h' : VotesMoved self' self'') : VotesMoved self self'' where
  epoch := h'.epoch.trans h.epoch
  whitelisted := h'.whitelisted.trans h.whitelisted
  stable := h'.stable.trans h.stable
  trade_params := h'.trade_params.trans h.trade_params
  voting_power := h'.voting_power.trans h.voting_power
  quorum := h'.quorum.trans h.quorum
  length := h'.length.trans h.length
  params id p'' hp'' := by
    obtain ⟨p', hp', he'⟩ := h'.params id p'' hp''
    obtain ⟨p, hp, he⟩ := h.params id p' hp'
    exact ⟨p, hp, he'.trans he⟩
  next := by
    rcases h'.next with hn | hn | ⟨id, p', hp', hn⟩
    · rw [hn]
      exact h.next
    · rw [hn, h.trade_params]
      exact .inr (.inl rfl)
    · obtain ⟨p, hp, he⟩ := h.params id p' hp'
      exact .inr (.inr ⟨id, p, hp, hn.trans he⟩)

/-- A proposal's votes rewritten in place, and the next trade parameters
set to the current ones or to that proposal's. -/
theorem VotesMoved.set {id : ℕ} {p : Proposal} (hp : self.proposals.get id = some p)
    (votes : ℕ) {next : TradeParams}
    (hnext : next = self.next_trade_params ∨ next = self.trade_params ∨
      next = ({ p with votes } : Proposal).to_trade_params) :
    VotesMoved self { self with
      proposals := self.proposals.set id { p with votes }
      next_trade_params := next } where
  epoch := rfl
  whitelisted := rfl
  stable := rfl
  trade_params := rfl
  voting_power := rfl
  quorum := rfl
  length := by simp [VecMap.length_set, hp]
  params id' p' hp' := by
    simp only [VecMap.get_set] at hp'
    split at hp'
    · next hid =>
        cases hp'
        exact ⟨p, hid ▸ hp, rfl⟩
    · exact ⟨p', hp', rfl⟩
  next := by
    rcases hnext with hn | hn | hn
    · exact .inl hn
    · exact .inr (.inl hn)
    · exact .inr (.inr ⟨id, p, hp, hn⟩)

theorem removeVote_moved (proposal_id votes : ℕ) :
    VotesMoved self (self.removeVote proposal_id votes) := by
  unfold removeVote
  split
  · next p hp =>
      refine VotesMoved.set hp _ ?_
      split
      · exact .inr (.inl rfl)
      · exact .inl rfl
  · exact VotesMoved.refl self

theorem get_removeVote (proposal_id votes id : ℕ) :
    (self.removeVote proposal_id votes).proposals.get id = (self.proposals.get id).map fun p =>
      if id = proposal_id then { p with votes := p.votes - votes } else p := by
  unfold removeVote
  split
  · next p hp =>
      simp only [VecMap.get_set]
      split
      · next hid =>
          subst hid
          simp [hp]
      · next hid => simp
  · next hn =>
      by_cases hid : id = proposal_id
      · subst hid
        simp [hn]
      · simp [hid]

/-- A successful vote was for a proposal that is there, and moves the
votes onto it. -/
theorem addVote_eq_ok {proposal_id votes : ℕ} (h : self.addVote proposal_id votes = .ok self') :
    self.proposals.get proposal_id ≠ none ∧ VotesMoved self self' ∧
      ∀ id, self'.proposals.get id = (self.proposals.get id).map fun p =>
        if id = proposal_id then { p with votes := p.votes + votes } else p := by
  unfold addVote at h
  split at h
  · next p hp =>
      cases h
      refine ⟨by simp [hp], VotesMoved.set hp _ ?_, fun id => ?_⟩
      · split
        · exact .inr (.inr rfl)
        · exact .inl rfl
      · simp only [VecMap.get_set]
        split
        · next hid =>
            subst hid
            simp [hp]
        · next hid => simp
  · cases h

/-- A successful `adjust_vote`: the proposal voted for is there, the
votes of the stake moved, and nothing else changed but the next trade
parameters. -/
theorem adjust_vote_eq_ok {from_proposal_id to_proposal_id : Option ℕ} {stake_amount : ℕ}
    (h : self.adjust_vote from_proposal_id to_proposal_id stake_amount = .ok self') :
    (∀ id, to_proposal_id = some id → self.proposals.get id ≠ none) ∧ VotesMoved self self' ∧
      ∀ id, self'.proposals.get id = (self.proposals.get id).map
        (moveVotes from_proposal_id to_proposal_id (votingPower stake_amount) id) := by
  unfold adjust_vote at h
  simp only [stake_to_voting_power_mapError, ok_bind] at h
  -- the first half as it leaves the proposals
  have hfrom : ∃ mid : Governance, VotesMoved self mid ∧ (∀ id, mid.proposals.get id ≠ none ↔
      self.proposals.get id ≠ none) ∧
      (∀ id, mid.proposals.get id = (self.proposals.get id).map fun p =>
        { p with votes := p.votes - if from_proposal_id = some id then votingPower stake_amount
          else 0 }) ∧
      (match to_proposal_id with
        | some proposal_id => mid.addVote proposal_id (votingPower stake_amount)
        | none => pure mid) = .ok self' := by
    cases from_proposal_id with
    | none =>
        refine ⟨self, VotesMoved.refl self, fun _ => Iff.rfl, fun id => ?_, h⟩
        cases self.proposals.get id <;> simp
    | some r =>
        refine ⟨self.removeVote r (votingPower stake_amount), removeVote_moved r _, fun id => ?_,
          fun id => ?_, h⟩
        · rw [get_removeVote]
          cases self.proposals.get id <;> simp
        · rw [get_removeVote]
          cases self.proposals.get id with
          | none => rfl
          | some p =>
              by_cases hid : id = r
              · subst hid
                simp
              · simp [hid, Ne.symm hid]
  obtain ⟨mid, hmoved, hkeys, hget, h⟩ := hfrom
  cases to_proposal_id with
  | none =>
      rw [pure_eq_ok] at h
      subst h
      refine ⟨fun _ hid => (by cases hid), hmoved, fun id => ?_⟩
      rw [hget]
      cases self.proposals.get id <;> simp [moveVotes]
  | some t =>
      obtain ⟨ht, hmoved', hget'⟩ := addVote_eq_ok h
      refine ⟨fun id hid => ?_, hmoved.trans hmoved', fun id => ?_⟩
      · cases hid
        exact (hkeys _).mp ht
      · rw [hget', hget]
        cases self.proposals.get id with
        | none => rfl
        | some p =>
            by_cases hid : id = t
            · subst hid
              simp [moveVotes]
            · simp [moveVotes, hid, Ne.symm hid]

theorem adjust_voting_power_eq (stake_before stake_after : ℕ) :
    self.adjust_voting_power stake_before stake_after =
      .ok { self with
        voting_power := self.voting_power + votingPower stake_after - votingPower stake_before } := by
  simp [adjust_voting_power]

-- ============================================================ the proposal above the quorum

/-- No two proposals are above the quorum. -/
def AtMostOneAbove (g : Governance) : Prop :=
  ∀ id id' p p', g.proposals.get id = some p → g.proposals.get id' = some p' →
    g.quorum < p.votes → g.quorum < p'.votes → id = id'

/-- A proposal above the quorum has its trade parameters as the next
ones, which the next epoch adopts. -/
def WinnerNext (g : Governance) : Prop :=
  ∀ id p, g.proposals.get id = some p → g.quorum < p.votes →
    g.next_trade_params = p.to_trade_params

theorem update_winnerNext (h : self.WinnerNext) (ctx : TxContext) : (self.update ctx).WinnerNext := by
  rcases @update_cases self ctx with ⟨-, he⟩ | ⟨-, he⟩
  · rw [he]
    exact h
  · rw [he]
    intro id p hp
    simp at hp

/-- Taking off a proposal votes it has keeps the proposal above the
quorum as the next trade parameters: one that falls below the quorum
from above it was the only one above. -/
theorem removeVote_winnerNext (h : self.WinnerNext) (h1 : self.AtMostOneAbove) {proposal_id votes : ℕ}
    (hvotes : ∀ p, self.proposals.get proposal_id = some p → votes ≤ p.votes) :
    (self.removeVote proposal_id votes).WinnerNext := by
  unfold removeVote
  split
  · next p hp =>
      have hle := hvotes p hp
      intro id p' hp' hq
      have hget := hp'
      simp only [VecMap.get_set] at hp'
      split at hp'
      · next hid =>
          -- the proposal the votes left stays above the quorum
          cases hp'
          dsimp only at hq ⊢
          rw [if_neg (by omega)]
          exact h proposal_id p hp (by omega)
      · next hid =>
          dsimp only at hq ⊢
          split
          · next hfell =>
              exact absurd (h1 proposal_id id p p' hp hp' (by omega) hq).symm hid
          · exact h id p' hp' hq
  · exact h

/-- Putting votes on a proposal keeps the one above the quorum as the
next trade parameters, when there is still at most one. -/
theorem addVote_winnerNext (h : self.WinnerNext) {proposal_id votes : ℕ} (h2 : self'.AtMostOneAbove)
    (hv : self.addVote proposal_id votes = .ok self') : self'.WinnerNext := by
  unfold addVote at hv
  split at hv
  · next p hp =>
      cases hv
      intro id p' hp' hq
      have hget := hp'
      simp only [VecMap.get_set] at hp'
      split at hp'
      · next hid =>
          cases hp'
          dsimp only at hq ⊢
          rw [if_pos hq]
      · next hid =>
          dsimp only at hq ⊢
          split
          · next hrose =>
              exact absurd (h2 proposal_id id { p with votes := p.votes + votes } p' (by simp) hget hrose
                hq).symm hid
          · exact h id p' hp' hq
  · cases hv

/-- `adjust_vote` keeps the proposal above the quorum as the next trade
parameters, when the votes it takes off a proposal are there and at most
one proposal is above the quorum before and after. -/
theorem adjust_vote_winnerNext {from_proposal_id to_proposal_id : Option ℕ} {stake_amount : ℕ}
    (hv : self.adjust_vote from_proposal_id to_proposal_id stake_amount = .ok self')
    (h : self.WinnerNext) (h1 : self.AtMostOneAbove) (h2 : self'.AtMostOneAbove)
    (hvotes : ∀ id p, from_proposal_id = some id → self.proposals.get id = some p →
      votingPower stake_amount ≤ p.votes) :
    self'.WinnerNext := by
  unfold adjust_vote at hv
  simp only [stake_to_voting_power_mapError, ok_bind] at hv
  have hmid : (match from_proposal_id with
      | some proposal_id => self.removeVote proposal_id (votingPower stake_amount)
      | none => self).WinnerNext := by
    cases from_proposal_id with
    | none => exact h
    | some r => exact removeVote_winnerNext h h1 fun p hp => hvotes r p rfl hp
  cases to_proposal_id with
  | none =>
      rw [pure_eq_ok] at hv
      rw [← hv]
      exact hmid
  | some t => exact addVote_winnerNext hmid h2 hv

/-- A new proposal has no votes, and dropping one to make room keeps the
others as they were. -/
theorem add_proposal_winnerNext (h : self.WinnerNext)
    {taker_fee maker_fee stake_required stake_amount balance_manager_id : ℕ}
    (hv : self.add_proposal taker_fee maker_fee stake_required stake_amount balance_manager_id =
      .ok self') : self'.WinnerNext := by
  obtain ⟨-, -, kept, hkept, -, rfl⟩ := add_proposal_eq_ok hv
  intro id p hp hq
  simp only [VecMap.get_set] at hp
  split at hp
  · cases hp
    simp [new_proposal] at hq
  · have hold : self.proposals.get id = some p := by
      rcases hkept with ⟨rfl, -⟩ | ⟨-, r, -, rfl⟩
      · exact hp
      · rw [VecMap.get_erase] at hp
        split at hp
        · cases hp
        · exact hp
    exact h id p hold hq

-- ============================================================ aborts

/-- A vote aborts only for a proposal that is not there. -/
theorem adjust_vote_eq_error {from_proposal_id to_proposal_id : Option ℕ} {stake_amount : ℕ}
    {e : StateAbort} (h : self.adjust_vote from_proposal_id to_proposal_id stake_amount = .error e) :
    e = .EProposalDoesNotExist ∧ ∃ id, to_proposal_id = some id ∧ self.proposals.get id = none := by
  unfold adjust_vote at h
  simp only [stake_to_voting_power_mapError, ok_bind] at h
  -- the first half keeps the keys of the proposals
  have hkeys : ∀ id, (match from_proposal_id with
      | some proposal_id => self.removeVote proposal_id (votingPower stake_amount)
      | none => self).proposals.get id = none → self.proposals.get id = none := by
    intro id hid
    cases from_proposal_id with
    | none => exact hid
    | some r =>
        rw [get_removeVote] at hid
        simpa using hid
  cases to_proposal_id with
  | none => simp at h
  | some t =>
      dsimp only at h
      unfold addVote at h
      split at h
      · cases h
      · next hn =>
          cases h
          exact ⟨rfl, t, rfl, hkeys t hn⟩

theorem checkFeeRange_eq_error {stable : Bool} {taker_fee maker_fee : ℕ} {e : StateAbort}
    (h : checkFeeRange stable taker_fee maker_fee = .error e) :
    e = .EInvalidTakerFee ∨ e = .EInvalidMakerFee := by
  unfold checkFeeRange at h
  split at h <;>
  · simp only [require_bind_eq_error, require_eq_error] at h
    rcases h with ⟨-, rfl⟩ | ⟨-, -, rfl⟩
    · exact .inl rfl
    · exact .inr rfl

/-- A proposal under a new key aborts only on its checks, or when there
is no room and no proposal with fewer votes than its voting power. -/
theorem add_proposal_eq_error {taker_fee maker_fee stake_required stake_amount balance_manager_id : ℕ}
    {e : StateAbort} (hnew : self.proposals.get balance_manager_id = none)
    (h : self.add_proposal taker_fee maker_fee stake_required stake_amount balance_manager_id =
      .error e) :
    e = .EWhitelistedPoolCannotChange ∨ e = .EInvalidTakerFee ∨ e = .EInvalidMakerFee ∨
      e = .EMaxProposalsReachedNotEnoughVotes := by
  unfold add_proposal at h
  simp only [require_bind_eq_error] at h
  rcases h with ⟨-, rfl⟩ | ⟨-, ⟨-, rfl⟩ | ⟨-, ⟨-, rfl⟩ | ⟨-, h⟩⟩⟩
  · exact .inl rfl
  · exact .inr (.inl rfl)
  · exact .inr (.inr (.inl rfl))
  rcases bind_eq_error.mp h with h | ⟨_, -, h⟩
  · rcases checkFeeRange_eq_error h with rfl | rfl
    · exact .inr (.inl rfl)
    · exact .inr (.inr (.inl rfl))
  simp only [stake_to_voting_power_mapError, ok_bind] at h
  rcases bind_eq_error.mp h with h | ⟨mid, hmid, h⟩
  · -- no room
    unfold makeRoom at h
    split at h
    · unfold remove_lowest_proposal at h
      split at h
      · cases h
        exact .inr (.inr (.inr rfl))
      · cases h
    · cases h
  · -- the key is new, also after room is made
    have hmid_new : mid.proposals.get balance_manager_id = none := by
      unfold makeRoom at hmid
      split at hmid
      · obtain ⟨id, -, rfl⟩ := remove_lowest_proposal_eq_ok hmid
        simp [hnew]
      · rw [pure_eq_ok] at hmid
        rw [← hmid]
        exact hnew
    rcases bind_eq_error.mp h with h | ⟨_, -, h⟩
    · rw [VecMap.insert_of_get_eq_none hmid_new] at h
      cases h
    · simp at h

-- ============================================================ fee bounds

/-- Every trade parameter the governance holds is one the pool may
charge. -/
structure ParamsOK (g : Governance) : Prop where
  current : FeesOK g.whitelisted g.stable g.trade_params
  next : FeesOK g.whitelisted g.stable g.next_trade_params
  proposals : ∀ id p, g.proposals.get id = some p →
    FeesOK g.whitelisted g.stable p.to_trade_params

theorem empty_paramsOK (whitelisted stable_pool : Bool) (ctx : TxContext) :
    (empty whitelisted stable_pool ctx).ParamsOK := by
  -- the defaults of each kind meet its bounds
  have hdef : FeesOK whitelisted stable_pool (empty whitelisted stable_pool ctx).trade_params := by
    cases whitelisted <;> cases stable_pool <;>
      simp [empty, FeesOK, FeeBounds, FEE_MULTIPLE, MIN_TAKER_STABLE, MAX_TAKER_STABLE,
        MIN_MAKER_STABLE, MAX_MAKER_STABLE, MIN_TAKER_VOLATILE, MAX_TAKER_VOLATILE, MIN_MAKER_VOLATILE,
        MAX_MAKER_VOLATILE]
  exact ⟨hdef, hdef, fun _ _ h => by simp [empty] at h⟩

theorem ParamsOK.update (h : self.ParamsOK) (ctx : TxContext) : (self.update ctx).ParamsOK := by
  rcases @update_cases self ctx with ⟨-, he⟩ | ⟨-, he⟩
  · rw [he]
    exact h
  · rw [he]
    exact ⟨h.next, h.next, fun _ _ hp => by simp at hp⟩

theorem ParamsOK.moved (h : self.ParamsOK) (hm : VotesMoved self self') : self'.ParamsOK := by
  have hkind : FeesOK self'.whitelisted self'.stable = FeesOK self.whitelisted self.stable := by
    rw [hm.whitelisted, hm.stable]
  refine ⟨?_, ?_, fun id p' hp' => ?_⟩
  · rw [hkind, hm.trade_params]
    exact h.current
  · rw [hkind]
    rcases hm.next with hn | hn | ⟨id, p, hp, hn⟩
    · rw [hn]
      exact h.next
    · rw [hn]
      exact h.current
    · rw [hn]
      exact h.proposals id p hp
  · obtain ⟨p, hp, he⟩ := hm.params id p' hp'
    rw [hkind, he]
    exact h.proposals id p hp

theorem ParamsOK.add_proposal {taker_fee maker_fee stake_required stake_amount balance_manager_id : ℕ}
    (h : self.ParamsOK)
    (hadd : self.add_proposal taker_fee maker_fee stake_required stake_amount balance_manager_id =
      .ok self') : self'.ParamsOK := by
  obtain ⟨hwl, hbounds, kept, hkept, -, rfl⟩ := add_proposal_eq_ok hadd
  -- what is kept is a part of what was there
  have hsub : ∀ id p, kept.get id = some p → self.proposals.get id = some p := by
    rcases hkept with ⟨rfl, -⟩ | ⟨-, r, -, rfl⟩
    · exact fun _ _ hp => hp
    · intro id p hp
      rw [VecMap.get_erase] at hp
      split at hp
      · cases hp
      · exact hp
  refine ⟨h.current, h.next, fun id p hp => ?_⟩
  simp only [VecMap.get_set] at hp
  split at hp
  · cases hp
    simpa [FeesOK, hwl, Proposal.to_trade_params, new_proposal] using hbounds
  · exact h.proposals id p (hsub id p hp)

end Governance

end governance

end MysoCore.Orderbook
