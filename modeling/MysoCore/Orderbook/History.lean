/-
The trading history of a pool (orderbook/sources/state/history.move):
the volumes and fees of the current epoch, the table of past epochs
with the trade parameters each was traded at, and the MYSO owed to the
burn; with the median of helper/math.move it computes.

# The table of epochs

`historic_volumes` is keyed by epoch. The pool's first call of an epoch
refreshes the history (`History.update`): it files the volumes of the
epoch that ends under that epoch, replacing the entry opened for it,
and opens an entry for the new epoch with the trade parameters the
governance has just adopted. Entries are never removed otherwise, and
no other call writes the table: `update_eq_ok` says what a refresh
leaves in it, and `SameEpoch` is what every other call keeps.

A refresh adds two entries with `table::add`, which aborts on a present
key: the epoch that ends, just removed, and the new one, which no entry
has when every key is at most the epoch that ends (`update_ok`).

# Rebates

`calculate_rebate_amount` pays an account a share of the fees of a past
epoch, in proportion to its maker volume among the staked volume and
scaled down by how much the epoch's other liquidity exceeds the
historic median; what the share leaves of the MYSO fees is owed to the
burn.
-/
import MysoCore.Orderbook.Governance

namespace MysoCore.Orderbook

namespace constants

def phase_out_epochs : ℕ := 28
def max_u128 : ℕ := 2 ^ 128 - 1

end constants

namespace math

/-- `math::div_u128`: `math::div` on `u128`. -/
def div_u128 (x y : ℕ) : ℕ := x * constants.float_scaling / y

/-- The values of `data` below `pivot`, in order: the `less` of `quick_sort`. -/
def less (pivot : ℕ) (data : List ℕ) : List ℕ := data.filter fun value => value < pivot

/-- The values of `data` above `pivot`, in order: the `greater` of `quick_sort`. -/
def greater (pivot : ℕ) (data : List ℕ) : List ℕ := data.filter fun value => pivot < value

theorem length_less_lt {pivot : ℕ} {data : List ℕ} (h : pivot ∈ data) :
    (less pivot data).length < data.length :=
  List.length_filter_lt_length_iff_exists.mpr ⟨pivot, h, by simp⟩

theorem length_greater_lt {pivot : ℕ} {data : List ℕ} (h : pivot ∈ data) :
    (greater pivot data).length < data.length :=
  List.length_filter_lt_length_iff_exists.mpr ⟨pivot, h, by simp⟩

/-- `math::quick_sort`: the values below the first, the copies of it,
and the values above it, each side sorted in turn. -/
def quick_sort : List ℕ → List ℕ
  | [] => []
  | [x] => [x]
  | pivot :: rest =>
      quick_sort (less pivot (pivot :: rest)) ++ (pivot :: rest).filter (fun value => value = pivot) ++
        quick_sort (greater pivot (pivot :: rest))
termination_by data => data.length
decreasing_by
  · exact length_less_lt List.mem_cons_self
  · exact length_greater_lt List.mem_cons_self

/-- `math::median`: the middle of the sorted values, or the mean of the
two middle ones. The indices are within the sorted vector, which is as
long as the values. -/
def median (v : List ℕ) : ℕ :=
  let n := v.length
  if n = 0 then 0
  else
    let sorted_v := quick_sort v
    if n % 2 = 0 then
      mul_u128 (sorted_v.getD (n / 2 - 1) 0 + sorted_v.getD (n / 2) 0) (constants.float_scaling / 2)
    else sorted_v.getD (n / 2) 0

end math

namespace history

open ExceptFold

/-- `Volumes`: the trading of one epoch and the trade parameters it was
traded at. -/
structure Volumes where
  total_volume : ℕ
  total_staked_volume : ℕ
  total_fees_collected : Balances
  historic_median : ℕ
  trade_params : TradeParams
  deriving DecidableEq, Repr

/-- `History`: the current epoch's volumes and the table of past ones. -/
structure History where
  epoch : ℕ
  epoch_created : ℕ
  volumes : Volumes
  historic_volumes : VecMap ℕ Volumes
  balance_to_burn : ℕ

/-- The volumes of an epoch that has not traded yet. -/
def Volumes.blank (trade_params : TradeParams) : Volumes := ⟨0, 0, Balances.empty, 0, trade_params⟩

namespace History

/-- `history::empty`: blank volumes for the current epoch, filed under
it in a new table (so `table::add` cannot abort). -/
def empty (trade_params : TradeParams) (epoch_created : ℕ) (ctx : TxContext) : History :=
  let volumes := Volumes.blank trade_params
  { epoch := ctx.epoch
    epoch_created
    volumes
    historic_volumes := VecMap.empty.set ctx.epoch volumes
    balance_to_burn := 0 }

/-- `History::reset_volumes`. -/
def reset_volumes (self : History) (trade_params : TradeParams) : History :=
  { self with volumes := Volumes.blank trade_params }

/-- `History::update_historic_median`: the median of the total volumes of
the last `phase_out_epochs` epochs, an epoch missing from the table
counting as none; the largest value while the pool is younger than that. -/
def update_historic_median (self : History) : History :=
  let epochs_since_creation := self.epoch - self.epoch_created
  if epochs_since_creation < constants.phase_out_epochs then
    { self with volumes := { self.volumes with historic_median := constants.max_u128 } }
  else
    let start := self.epoch - constants.phase_out_epochs
    let median_vec := (List.range' start (self.epoch - start)).map fun i =>
      ((self.historic_volumes.get i).map Volumes.total_volume).getD 0
    { self with volumes := { self.volumes with historic_median := math.median median_vec } }

/-- `History::update`: at the first call of an epoch, the epoch that
ends is filed with its median, and the new epoch opened with the
current trade parameters. The event it emits is left out. -/
def update (self : History) (trade_params : TradeParams) (ctx : TxContext) :
    Except StateAbort History :=
  if self.epoch = ctx.epoch then pure self
  else do
    let self := if self.historic_volumes.contains self.epoch then
        { self with historic_volumes := self.historic_volumes.erase self.epoch }
      else self
    let self := self.update_historic_median
    let historic_volumes ← self.historic_volumes.insert self.epoch self.volumes .EFieldAlreadyExists
    let self := { self with historic_volumes, epoch := ctx.epoch }
    let self := self.reset_volumes trade_params
    let historic_volumes ← self.historic_volumes.insert self.epoch self.volumes .EFieldAlreadyExists
    pure { self with historic_volumes }

/-- `History::calculate_rebate_amount`: an account's share of the fees of
a past epoch, and what it leaves of the MYSO fees added to the burn. -/
def calculate_rebate_amount (self : History) (prev_epoch maker_volume account_stake : ℕ) :
    Except StateAbort (History × Balances) :=
  match self.historic_volumes.get prev_epoch with
  | none => .error .EHistoricVolumesNotFound
  | some volumes =>
      if volumes.trade_params.stake_required > account_stake then .ok (self, Balances.empty)
      else
        let other_maker_liquidity := volumes.total_volume - maker_volume
        let maker_rebate_percentage := if volumes.historic_median > 0 then
            constants.float_scaling -
              min constants.float_scaling (math.div_u128 other_maker_liquidity volumes.historic_median)
          else 0
        let maker_volume_proportion := if volumes.total_staked_volume > 0 then
            math.div_u128 maker_volume volumes.total_staked_volume
          else 0
        let max_rebates := volumes.total_fees_collected.mul maker_volume_proportion
        let rebates := max_rebates.mul maker_rebate_percentage
        let maker_burn := max_rebates.myso - rebates.myso
        .ok ({ self with balance_to_burn := self.balance_to_burn + maker_burn }, rebates)

/-- `History::add_volume`: a maker's volume, counted as staked when the
maker has the stake the epoch requires. -/
def add_volume (self : History) (maker_volume account_stake : ℕ) : History :=
  if maker_volume = 0 then self
  else
    { self with
      volumes := { self.volumes with
        total_volume := self.volumes.total_volume + maker_volume
        total_staked_volume :=
          if account_stake ≥ self.volumes.trade_params.stake_required then
            self.volumes.total_staked_volume + maker_volume
          else self.volumes.total_staked_volume } }

/-- `History::reset_balance_to_burn`: the MYSO owed to the burn, reset. -/
def reset_balance_to_burn (self : History) : History × ℕ :=
  ({ self with balance_to_burn := 0 }, self.balance_to_burn)

/-- `History::historic_maker_fee`: the maker fee of an epoch in the table. -/
def historic_maker_fee (self : History) (epoch : ℕ) : Except StateAbort ℕ :=
  match self.historic_volumes.get epoch with
  | some volumes => .ok volumes.trade_params.maker_fee
  | none => .error .EHistoricVolumesNotFound

def add_total_fees_collected (self : History) (fees : Balances) : History :=
  { self with
    volumes := { self.volumes with
      total_fees_collected := self.volumes.total_fees_collected.add_balances fees } }

-- ============================================================ what each call does

/-- Two states of the history in one epoch, with one table: what every
call but a refresh keeps. -/
structure SameEpoch (h h' : History) : Prop where
  epoch : h'.epoch = h.epoch
  epoch_created : h'.epoch_created = h.epoch_created
  historic_volumes : h'.historic_volumes = h.historic_volumes
  trade_params : h'.volumes.trade_params = h.volumes.trade_params

theorem SameEpoch.refl (h : History) : SameEpoch h h := ⟨rfl, rfl, rfl, rfl⟩

theorem SameEpoch.trans {h h' h'' : History} (h₁ : SameEpoch h h') (h₂ : SameEpoch h' h'') :
    SameEpoch h h'' :=
  ⟨h₂.epoch.trans h₁.epoch, h₂.epoch_created.trans h₁.epoch_created,
    h₂.historic_volumes.trans h₁.historic_volumes, h₂.trade_params.trans h₁.trade_params⟩

variable {self self' : History}

theorem add_volume_sameEpoch (maker_volume account_stake : ℕ) :
    SameEpoch self (self.add_volume maker_volume account_stake) := by
  unfold add_volume
  split
  · exact SameEpoch.refl self
  · exact ⟨rfl, rfl, rfl, rfl⟩

theorem add_total_fees_collected_sameEpoch (fees : Balances) :
    SameEpoch self (self.add_total_fees_collected fees) :=
  ⟨rfl, rfl, rfl, rfl⟩

theorem reset_balance_to_burn_sameEpoch : SameEpoch self self.reset_balance_to_burn.1 :=
  ⟨rfl, rfl, rfl, rfl⟩

/-- A rebate only adds to the burn. -/
theorem calculate_rebate_amount_sameEpoch {prev_epoch maker_volume account_stake : ℕ}
    {r : History × Balances}
    (h : self.calculate_rebate_amount prev_epoch maker_volume account_stake = .ok r) :
    SameEpoch self r.1 := by
  unfold calculate_rebate_amount at h
  split at h
  · cases h
  · split at h
    · cases h
      exact SameEpoch.refl self
    · cases h
      exact ⟨rfl, rfl, rfl, rfl⟩

/-- A rebate is computed for an epoch in the table. -/
theorem calculate_rebate_amount_ok {prev_epoch maker_volume account_stake : ℕ}
    (h : self.historic_volumes.get prev_epoch ≠ none) :
    ∃ r, self.calculate_rebate_amount prev_epoch maker_volume account_stake = .ok r := by
  unfold calculate_rebate_amount
  split
  · next hn => exact absurd hn h
  · split
    · exact ⟨_, rfl⟩
    · exact ⟨_, rfl⟩

@[simp] theorem update_historic_median_epoch : self.update_historic_median.epoch = self.epoch := by
  unfold update_historic_median
  dsimp only
  split <;> rfl

@[simp] theorem update_historic_median_epoch_created :
    self.update_historic_median.epoch_created = self.epoch_created := by
  unfold update_historic_median
  dsimp only
  split <;> rfl

@[simp] theorem update_historic_median_historic_volumes :
    self.update_historic_median.historic_volumes = self.historic_volumes := by
  unfold update_historic_median
  dsimp only
  split <;> rfl

@[simp] theorem update_historic_median_trade_params :
    self.update_historic_median.volumes.trade_params = self.volumes.trade_params := by
  unfold update_historic_median
  dsimp only
  split <;> rfl

/-- The median is the only part of the volumes its update writes. -/
theorem update_historic_median_volumes :
    ∃ median, self.update_historic_median.volumes = { self.volumes with historic_median := median } := by
  unfold update_historic_median
  dsimp only
  split
  · exact ⟨_, rfl⟩
  · exact ⟨_, rfl⟩

@[simp] theorem update_historic_median_balance_to_burn :
    self.update_historic_median.balance_to_burn = self.balance_to_burn := by
  unfold update_historic_median
  dsimp only
  split <;> rfl

/-- A refresh in the epoch it is in changes nothing; one in a new epoch
files the volumes of the epoch that ends, only its median updated, and
opens the new epoch with the trade parameters given. -/
theorem update_eq_ok {trade_params : TradeParams} {ctx : TxContext}
    (h : self.update trade_params ctx = .ok self') :
    (self.epoch = ctx.epoch ∧ self' = self) ∨
      (self.epoch ≠ ctx.epoch ∧ self'.epoch = ctx.epoch ∧
        self'.epoch_created = self.epoch_created ∧ self'.volumes = Volumes.blank trade_params ∧
        self'.balance_to_burn = self.balance_to_burn ∧
        ∃ median : ℕ, ∀ e, self'.historic_volumes.get e =
          if e = ctx.epoch then some (Volumes.blank trade_params)
          else if e = self.epoch then some { self.volumes with historic_median := median }
          else self.historic_volumes.get e) := by
  unfold update at h
  split at h
  · next he =>
      rw [pure_eq_ok] at h
      exact .inl ⟨he, h.symm⟩
  · next hne =>
      right
      obtain ⟨hv1, hins1, h⟩ := bind_eq_ok h
      obtain ⟨hv2, hins2, h⟩ := bind_eq_ok h
      rw [pure_eq_ok] at h
      subst h
      rw [VecMap.insert_eq_ok] at hins1 hins2
      obtain ⟨-, rfl⟩ := hins1
      obtain ⟨-, rfl⟩ := hins2
      -- the table with the epoch that ends taken out, as the median reads it
      set out : History := if self.historic_volumes.contains self.epoch then
          { self with historic_volumes := self.historic_volumes.erase self.epoch }
        else self with hout
      have hout_get : ∀ e, e ≠ self.epoch → out.historic_volumes.get e = self.historic_volumes.get e := by
        intro e he
        rw [hout]
        split
        · simp [he]
        · rfl
      have hout_epoch : out.epoch = self.epoch := by
        rw [hout]
        split <;> rfl
      have hout_volumes : out.volumes = self.volumes := by
        rw [hout]
        split <;> rfl
      have hout_burn : out.balance_to_burn = self.balance_to_burn := by
        rw [hout]
        split <;> rfl
      have hout_created : out.epoch_created = self.epoch_created := by
        rw [hout]
        split <;> rfl
      obtain ⟨median, hmedian⟩ := out.update_historic_median_volumes
      refine ⟨hne, rfl, by simp [reset_volumes, hout_created], rfl, by simp [reset_volumes, hout_burn],
        median, fun e => ?_⟩
      simp only [reset_volumes, VecMap.get_set, update_historic_median_historic_volumes,
        update_historic_median_epoch, hout_epoch, hmedian, hout_volumes]
      split
      · rfl
      · split
        · rfl
        · next he => exact hout_get e he

/-- A refresh into a later epoch succeeds when the table holds no epoch
past the one that ends. -/
theorem update_ok {trade_params : TradeParams} {ctx : TxContext} (hlt : self.epoch < ctx.epoch)
    (hkeys : ∀ e, self.historic_volumes.get e ≠ none → e ≤ self.epoch) :
    ∃ self', self.update trade_params ctx = .ok self' := by
  unfold update
  rw [if_neg (Nat.ne_of_lt hlt)]
  -- the table with the epoch that ends taken out
  set out : History := if self.historic_volumes.contains self.epoch then
      { self with historic_volumes := self.historic_volumes.erase self.epoch }
    else self with hout
  have hout_self : out.update_historic_median.historic_volumes.get self.epoch = none := by
    rw [update_historic_median_historic_volumes, hout]
    split
    · simp
    · next hc => simpa using hc
  have hout_epoch : out.update_historic_median.epoch = self.epoch := by
    rw [update_historic_median_epoch, hout]
    split <;> rfl
  have hout_new : out.historic_volumes.get ctx.epoch = none := by
    rw [hout]
    have hnot : self.historic_volumes.get ctx.epoch = none := by
      by_contra hc
      exact absurd (hkeys _ hc) (not_le.mpr hlt)
    split
    · simp [Nat.ne_of_gt hlt, hnot]
    · exact hnot
  have hins1 : out.update_historic_median.historic_volumes.insert out.update_historic_median.epoch
      out.update_historic_median.volumes StateAbort.EFieldAlreadyExists =
      .ok (out.update_historic_median.historic_volumes.set self.epoch
        out.update_historic_median.volumes) := by
    rw [hout_epoch]
    exact VecMap.insert_of_get_eq_none hout_self
  dsimp only
  rw [hins1, ok_bind]
  rw [VecMap.insert_of_get_eq_none (by simp [reset_volumes, Nat.ne_of_gt hlt, hout_new])]
  exact ⟨_, rfl⟩

-- ============================================================ the volumes of an epoch

/-- The volumes of an epoch as a rebate for it reads them: the current
ones for the current epoch, the filed ones for an earlier one. -/
def volumesOf (self : History) (epoch : ℕ) : Option Volumes :=
  if epoch = self.epoch then some self.volumes else self.historic_volumes.get epoch

/-- From one state of the history to a later one, every epoch keeps the
stake it requires, and its staked volume only grows. -/
def StakedGrows (h h' : History) : Prop :=
  ∀ e v, h.volumesOf e = some v → ∃ v', h'.volumesOf e = some v' ∧
    v'.trade_params.stake_required = v.trade_params.stake_required ∧
    v.total_staked_volume ≤ v'.total_staked_volume

theorem StakedGrows.refl (h : History) : StakedGrows h h :=
  fun _ v hv => ⟨v, hv, rfl, le_rfl⟩

theorem StakedGrows.trans {h h' h'' : History} (h₁ : StakedGrows h h') (h₂ : StakedGrows h' h'') :
    StakedGrows h h'' := by
  intro e v hv
  obtain ⟨v', hv', hreq', hle'⟩ := h₁ e v hv
  obtain ⟨v'', hv'', hreq'', hle''⟩ := h₂ e v' hv'
  exact ⟨v'', hv'', hreq''.trans hreq', hle'.trans hle''⟩

/-- A call within the epoch that only adds to the current staked volume. -/
theorem SameEpoch.stakedGrows {h h' : History} (hs : SameEpoch h h')
    (hv : h.volumes.total_staked_volume ≤ h'.volumes.total_staked_volume) : StakedGrows h h' := by
  intro e v hv'
  unfold volumesOf at hv' ⊢
  rw [hs.epoch, hs.historic_volumes]
  split
  · next he =>
      rw [if_pos he] at hv'
      cases hv'
      exact ⟨h'.volumes, rfl, congrArg TradeParams.stake_required hs.trade_params, hv⟩
  · next he =>
      rw [if_neg he] at hv'
      exact ⟨v, hv', rfl, le_rfl⟩

/-- A maker with the stake the epoch requires has all of its volume
counted as staked. -/
theorem add_volume_staked (maker_volume : ℕ) {account_stake : ℕ}
    (h : self.volumes.trade_params.stake_required ≤ account_stake) :
    (self.add_volume maker_volume account_stake).volumes.total_staked_volume =
      self.volumes.total_staked_volume + maker_volume := by
  unfold add_volume
  by_cases h0 : maker_volume = 0
  · simp [h0]
  · simp [h0, h]

theorem add_volume_stakedGrows (maker_volume account_stake : ℕ) :
    StakedGrows self (self.add_volume maker_volume account_stake) := by
  refine (add_volume_sameEpoch maker_volume account_stake).stakedGrows ?_
  unfold add_volume
  split
  · exact le_rfl
  · dsimp only
    split <;> omega

theorem add_total_fees_collected_stakedGrows (fees : Balances) :
    StakedGrows self (self.add_total_fees_collected fees) :=
  (add_total_fees_collected_sameEpoch fees).stakedGrows le_rfl

/-- A rebate leaves the volumes as they are. -/
theorem calculate_rebate_amount_volumes {prev_epoch maker_volume account_stake : ℕ}
    {r : History × Balances}
    (h : self.calculate_rebate_amount prev_epoch maker_volume account_stake = .ok r) :
    r.1.volumes = self.volumes := by
  unfold calculate_rebate_amount at h
  split at h
  · cases h
  · split at h
    · cases h
      rfl
    · cases h
      rfl

/-- A refresh files the epoch that ends with its staked volume and
stake required, and keeps the earlier entries. -/
theorem update_stakedGrows {trade_params : TradeParams} {ctx : TxContext}
    (hkeys : ∀ e, self.historic_volumes.get e ≠ none → e ≤ self.epoch) (hle : self.epoch ≤ ctx.epoch)
    (h : self.update trade_params ctx = .ok self') : StakedGrows self self' := by
  rcases update_eq_ok h with ⟨-, rfl⟩ | ⟨hne, hepoch, -, -, -, median, hget⟩
  · exact StakedGrows.refl _
  · intro e v hv
    unfold volumesOf at hv ⊢
    rw [hepoch, hget e]
    split at hv
    · -- the epoch that ends, now filed
      next he =>
        cases hv
        subst he
        exact ⟨{ self.volumes with historic_median := median }, by simp [hne], rfl, le_rfl⟩
    · -- an earlier epoch is in the table, so it is not the new one
      next he =>
        have hnew : e ≠ ctx.epoch := by
          intro hc
          have hke := hkeys e (by rw [hv]; simp)
          omega
        simp only [if_neg hnew, if_neg he]
        exact ⟨v, hv, rfl, le_rfl⟩

-- ============================================================ rebates and fees

theorem mul_le_of_le_float_scaling {x y : ℕ} (hy : y ≤ constants.float_scaling) : math.mul x y ≤ x :=
  calc x * y / constants.float_scaling
      ≤ x * constants.float_scaling / constants.float_scaling :=
        Nat.div_le_div_right (Nat.mul_le_mul_left x hy)
    _ = x := Nat.mul_div_cancel x (by decide)

/-- A share of the fees at a rate of at most one is at most the fees. -/
theorem Balances.mul_le {b : Balances} {factor : ℕ} (h : factor ≤ constants.float_scaling) :
    (b.mul factor).base ≤ b.base ∧ (b.mul factor).quote ≤ b.quote ∧ (b.mul factor).myso ≤ b.myso :=
  ⟨mul_le_of_le_float_scaling h, mul_le_of_le_float_scaling h, mul_le_of_le_float_scaling h⟩

end History

end history

end MysoCore.Orderbook
