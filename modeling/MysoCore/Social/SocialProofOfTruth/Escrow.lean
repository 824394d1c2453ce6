/-
Escrow conservation and solvency of a SPoT record, over every run of
its calls.

# The ledger

At every time the escrow of each option and each user's amount on it
are the sums of the bets on that option, by everyone and by that user,
and while the record is unresolved (`OPEN` or `DAO_REQUIRED`) its
escrow is the sum of all its bets and it owes no payout (`SpotOK`). A
bet leaves the record only by its owner's withdrawal, which takes its
amount out of each of the sums; the move of the last bet into its slot
only reorders the bets (`MoveVector.getElem_cons_swapRemove_perm`).

# Solvency

Resolution spends the unresolved ledger once: a draw or a refund pays
every bet back, which is exactly the escrow; a winning option's
resolution takes the fee and credits shares of the rest rounded down,
which sum to at most the escrow left (`Shares.sum_mul_div_le`). From
then on only new bets (adding to the escrow) and claims (taking out
what they pay and its pending entry) touch the two, so the pending
payouts stay within the escrow at every later state.

The withdrawal fee is at most the bet, and the platform's part at most
the fee, when the fee parameters are at most one whole (`FeesBounded`):
that is the assumption under which the source's own subtractions of
these do not underflow, and the withdrawal's ledger step uses it.
-/
import MysoCore.Social.SocialProofOfTruth
import MysoCore.Lib.Shares

namespace MysoCore.Social.SocialProofOfTruth

open SortedMap ExceptFold SpotRecord

-- ============================================================ the ledger

/-- The total amount of some bets. -/
def betTotal (bets : List SpotBet) : ℕ := (bets.map SpotBet.amount).sum

/-- The total amount of the bets on an option. -/
def optionTotal (bets : List SpotBet) (option_id : ℕ) : ℕ :=
  Shares.keyTotal bets SpotBet.option_id SpotBet.amount option_id

/-- The total amount of a user's bets on an option. -/
def userTotal (bets : List SpotBet) (user option_id : ℕ) : ℕ :=
  optionTotal (bets.filter fun b => b.user = user) option_id

/-- A record neither resolved nor refunded. -/
def Unresolved (rec : SpotRecord) : Prop := rec.status = .OPEN ∨ rec.status = .DAO_REQUIRED

/-- Fee parameters of at most one whole. -/
def FeesBounded (spot_config : SpotConfig) : Prop :=
  spot_config.fee_bps ≤ 10000 ∧ spot_config.fee_split_bps_platform ≤ 10000

instance (spot_config : SpotConfig) : Decidable (FeesBounded spot_config) :=
  inferInstanceAs (Decidable (_ ∧ _))

/-- The shares of `distributable` that the bets on `outcome` earn, each
in proportion to its amount out of `winning_total`, rounded down. -/
def winnerShares (bets : List SpotBet) (outcome winning_total distributable : ℕ) : ℕ :=
  ((bets.filter fun b => b.option_id = outcome).map
    fun b => b.amount * distributable / winning_total).sum

section totals

variable (bets : List SpotBet) (b : SpotBet) (u o : ℕ)

@[simp] theorem betTotal_cons : betTotal (b :: bets) = b.amount + betTotal bets := by
  simp [betTotal]

@[simp] theorem betTotal_append_singleton : betTotal (bets ++ [b]) = betTotal bets + b.amount := by
  simp [betTotal]

@[simp] theorem optionTotal_cons :
    optionTotal (b :: bets) o = (if b.option_id = o then b.amount else 0) + optionTotal bets o :=
  Shares.keyTotal_cons _ _ _ _ _

@[simp] theorem optionTotal_append_singleton :
    optionTotal (bets ++ [b]) o = optionTotal bets o + (if b.option_id = o then b.amount else 0) := by
  simp [optionTotal, Shares.keyTotal_append, Shares.keyTotal_cons]

@[simp] theorem userTotal_cons :
    userTotal (b :: bets) u o =
      (if b.user = u ∧ b.option_id = o then b.amount else 0) + userTotal bets u o := by
  unfold userTotal
  by_cases hu : b.user = u <;> simp [hu]

@[simp] theorem userTotal_append_singleton :
    userTotal (bets ++ [b]) u o =
      userTotal bets u o + (if b.user = u ∧ b.option_id = o then b.amount else 0) := by
  unfold userTotal
  by_cases hu : b.user = u <;> simp [List.filter_append, hu]

@[simp] theorem winnerShares_cons (W D : ℕ) :
    winnerShares (b :: bets) o W D =
      (if b.option_id = o then b.amount * D / W else 0) + winnerShares bets o W D := by
  unfold winnerShares
  by_cases ho : b.option_id = o <;> simp [ho]

end totals

section reorder

variable {bets bets' : List SpotBet}

theorem betTotal_perm (h : bets.Perm bets') : betTotal bets = betTotal bets' :=
  (h.map _).sum_eq

theorem optionTotal_perm (h : bets.Perm bets') (o : ℕ) : optionTotal bets o = optionTotal bets' o :=
  Shares.keyTotal_perm h _ _ o

theorem userTotal_perm (h : bets.Perm bets') (u o : ℕ) : userTotal bets u o = userTotal bets' u o :=
  optionTotal_perm (h.filter _) o

/-- A bet counts in the totals of its option and of its user. -/
theorem amount_le_totals {b : SpotBet} (hb : b ∈ bets) :
    b.amount ≤ betTotal bets ∧ b.amount ≤ optionTotal bets b.option_id ∧
      b.amount ≤ userTotal bets b.user b.option_id := by
  have hp := List.perm_cons_erase hb
  rw [betTotal_perm hp, optionTotal_perm hp, userTotal_perm hp]
  simp

/-- The bets are the bets on the options below `n` when every bet is. -/
theorem sum_range_optionTotal {n : ℕ} (h : ∀ b ∈ bets, b.option_id < n) :
    ((List.range n).map (optionTotal bets)).sum = betTotal bets :=
  Shares.sum_range_keyTotal bets _ _ h

end reorder

/-- The winners' shares of a pot, by a winning total at least their
bets, are at most the pot. -/
theorem winnerShares_le {bets : List SpotBet} {o W : ℕ} (D : ℕ) (h : optionTotal bets o ≤ W) :
    winnerShares bets o W D ≤ D :=
  Shares.sum_mul_div_le _ SpotBet.amount h

-- ============================================================ refunds and fees

/-- What a fee taken leaves of the escrow. -/
theorem takeFee_eq_ok {spot_config : SpotConfig} {escrow fee escrow' : ℕ} {payments : Payments}
    (h : takeFee spot_config escrow fee = .ok (escrow', payments)) :
    fee ≤ escrow ∧ escrow' = escrow - fee := by
  unfold takeFee at h
  split at h
  · simp only [balance_split_bind_eq_ok, pure_eq_ok, Prod.mk.injEq] at h
    exact ⟨h.1, h.2.2.1.symm⟩
  · simp only [pure_eq_ok, Prod.mk.injEq] at h
    omega

/-- A part of at most one whole, in basis points, is at most the whole. -/
theorem mul_bps_div_le (a : ℕ) {bps : ℕ} (h : bps ≤ 10000) : a * bps / 10000 ≤ a :=
  Nat.div_le_of_le_mul (by rw [Nat.mul_comm 10000 a]; exact Nat.mul_le_mul_left a h)

/-- The fee on an amount is at most the amount. -/
theorem feeOn_le (spot_config : SpotConfig) (amount : ℕ) (h : spot_config.fee_bps ≤ 10000) :
    feeOn spot_config amount ≤ amount := by
  unfold feeOn
  split
  · exact mul_bps_div_le amount h
  · exact Nat.zero_le _

section payouts

variable {outcome W D : ℕ} {pending : List (ℕ × ℕ)}

theorem creditPayout_eq (b : SpotBet) :
    creditPayout outcome W D pending b =
      if b.option_id = outcome ∧ W > 0 ∧ b.amount > 0 ∧ b.amount * D / W > 0 then
        alter b.user (fun p => p.getD 0 + b.amount * D / W) pending
      else pending := by
  unfold creditPayout
  by_cases h₁ : b.option_id = outcome ∧ W > 0 ∧ b.amount > 0
  · by_cases h₂ : b.amount * D / W > 0
    · simp [h₁, h₂]
    · simp [h₁, h₂]
  · rw [if_neg h₁, if_neg (fun h => h₁ ⟨h.1, h.2.1, h.2.2.1⟩)]

/-- A share not credited is zero: a losing bet, a bet of nothing, or a
winning total of nothing. -/
theorem share_eq_zero {b : SpotBet} (h : ¬ (b.option_id = outcome ∧ W > 0 ∧ b.amount > 0 ∧
    b.amount * D / W > 0)) :
    (if b.option_id = outcome then b.amount * D / W else 0) = 0 := by
  split
  · rename_i ho
    by_cases hW : W = 0
    · simp [hW]
    · by_cases ha : b.amount = 0
      · simp [ha]
      · exact Nat.eq_zero_of_not_pos fun hp => h ⟨ho, by omega, by omega, hp⟩
  · rfl

theorem sorted_creditPayout (hs : Sorted pending) (b : SpotBet) :
    Sorted (creditPayout outcome W D pending b) := by
  rw [creditPayout_eq]
  split
  · exact hs.alter
  · exact hs

theorem valSum_creditPayout (hs : Sorted pending) (b : SpotBet) :
    valSum (creditPayout outcome W D pending b) =
      valSum pending + (if b.option_id = outcome then b.amount * D / W else 0) := by
  rw [creditPayout_eq]
  split
  · rename_i h
    have := hs.valSum_alter (k := b.user) (f := fun p => p.getD 0 + b.amount * D / W)
    rw [if_pos h.1]
    omega
  · rename_i h
    rw [share_eq_zero h]
    rfl

theorem sorted_creditPayouts (hs : Sorted pending) (bets : List SpotBet) :
    Sorted (creditPayouts outcome W D pending bets) := by
  induction bets generalizing pending with
  | nil => exact hs
  | cons b bs ih => exact ih (sorted_creditPayout hs b)

/-- The payout loop credits the winners' shares, in all. -/
theorem valSum_creditPayouts (hs : Sorted pending) (bets : List SpotBet) :
    valSum (creditPayouts outcome W D pending bets) = valSum pending + winnerShares bets outcome W D := by
  induction bets generalizing pending with
  | nil => simp [SocialProofOfTruth.creditPayouts, winnerShares]
  | cons b bs ih =>
    show valSum (creditPayouts outcome W D (creditPayout outcome W D pending b) bs) = _
    rw [ih (sorted_creditPayout hs b), valSum_creditPayout hs, winnerShares_cons]
    omega

end payouts

-- ============================================================ the invariant

/-- What holds of every record a run reaches: the tables are sorted,
the bets are on the record's options and the users' entries have a
slot per option, the option escrows and the users' amounts are the
sums of the bets, and while the record is unresolved its escrow is the
sum of its bets and it owes nothing; always the pending payouts are
within the escrow. -/
structure SpotOK (rec : SpotRecord) : Prop where
  sorted_option_escrow : Sorted rec.option_escrow
  sorted_user_option_amounts : Sorted rec.user_option_amounts
  sorted_pending_payouts : Sorted rec.pending_payouts
  option_lt : ∀ b ∈ rec.bets, b.option_id < rec.betting_options.length
  amounts_length : ∀ u amounts, lookup u rec.user_option_amounts = some amounts →
    amounts.length = rec.betting_options.length
  option_escrow_eq : ∀ o, rec.get_option_escrow o = optionTotal rec.bets o
  user_amount_eq : ∀ u o, rec.get_user_option_amount u o = userTotal rec.bets u o
  escrow_eq : Unresolved rec → rec.escrow = betTotal rec.bets
  no_pending : Unresolved rec → rec.pending_payouts = []
  solvent : valSum rec.pending_payouts ≤ rec.escrow

/-- A new record is open and keeps the invariant. -/
theorem create_spot_record_for_post_ok {cap : SpotOracleAdminCap} {config : SpotConfig}
    {spot_enabled : Bool} {betting_options : List String} {rw mrw : Option ℕ} {ctx : TxContext}
    {rec : SpotRecord}
    (h : create_spot_record_for_post cap config spot_enabled betting_options rw mrw ctx = .ok rec) :
    rec.status = .OPEN ∧ SpotOK rec := by
  simp only [create_spot_record_for_post, require_bind_eq_ok, pure_eq_ok] at h
  obtain ⟨-, -, -, -, -, rfl⟩ := h
  refine ⟨rfl, ?_⟩
  constructor <;> simp [Sorted, get_option_escrow, get_user_option_amount, lookup, optionTotal,
    userTotal, betTotal]

/-- The totalling loop reads the escrow of an unresolved record. -/
theorem SpotOK.totalEscrow_eq {rec : SpotRecord} (hok : SpotOK rec) (hu : Unresolved rec) :
    rec.totalEscrow = rec.escrow := by
  have hfun : rec.get_option_escrow = optionTotal rec.bets := funext hok.option_escrow_eq
  rw [totalEscrow, hfun, sum_range_optionTotal hok.option_lt, hok.escrow_eq hu]

/-- A user's amount, read through an entry of zeros for a user with none. -/
theorem get_user_option_amount_eq (rec : SpotRecord) (u o n : ℕ) :
    rec.get_user_option_amount u o =
      (((lookup u rec.user_option_amounts).getD (List.replicate n 0))[o]?).getD 0 := by
  unfold get_user_option_amount
  cases lookup u rec.user_option_amounts with
  | none =>
    simp only [Option.getD_none, List.getElem?_replicate]
    split <;> rfl
  | some amounts => rfl

-- ============================================================ bets

section place

variable {spot_config : SpotConfig} {rec rec' : SpotRecord} {payment option_id amount : ℕ}
  {ctx : TxContext} {payments : Payments}

/-- What a bet does to the record. -/
theorem place_spot_bet_eq_ok
    (h : place_spot_bet spot_config rec payment option_id amount ctx = .ok (rec', payments)) :
    option_id < rec.betting_options.length ∧
    ∃ current_user_amount,
      ((lookup ctx.sender rec.user_option_amounts).getD
        (List.replicate rec.betting_options.length 0))[option_id]? = some current_user_amount ∧
      rec' = { rec with
        escrow := rec.escrow + amount
        option_escrow := alter option_id (fun _ => rec.get_option_escrow option_id + amount)
          rec.option_escrow
        bets := rec.bets ++ [⟨ctx.sender, option_id, amount, ctx.epoch⟩]
        user_option_amounts := alter ctx.sender
          (fun _ => ((lookup ctx.sender rec.user_option_amounts).getD
            (List.replicate rec.betting_options.length 0)).set option_id
              (current_user_amount + amount))
          rec.user_option_amounts } := by
  unfold place_spot_bet at h
  simp only [require_bind_eq_ok] at h
  obtain ⟨-, -, -, -, -, hopt, -, h⟩ := h
  refine ⟨hopt, ?_⟩
  split at h
  · simp at h
  · rename_i current_user_amount hcur
    simp only [require_bind_eq_ok, pure_eq_ok, Prod.mk.injEq] at h
    exact ⟨current_user_amount, hcur, h.2.1.symm⟩

/-- A bet keeps the invariant: it adds its amount to the escrow and to
its option's and its user's totals. -/
theorem SpotOK.place_spot_bet (hok : SpotOK rec)
    (h : place_spot_bet spot_config rec payment option_id amount ctx = .ok (rec', payments)) :
    SpotOK rec' := by
  obtain ⟨hopt, cur, hcur, rfl⟩ := place_spot_bet_eq_ok h
  set user_amounts := (lookup ctx.sender rec.user_option_amounts).getD
    (List.replicate rec.betting_options.length 0) with hua
  -- the user's entry, old or new, has a slot per option
  have hlen : user_amounts.length = rec.betting_options.length := by
    cases hl : lookup ctx.sender rec.user_option_amounts with
    | none => simp [hua, hl]
    | some amounts => simp [hua, hl, hok.amounts_length _ _ hl]
  -- and reads what the user had, also where nothing was
  have hread : ∀ o, (user_amounts[o]?).getD 0 = userTotal rec.bets ctx.sender o := fun o => by
    rw [← hok.user_amount_eq, get_user_option_amount_eq rec _ _ rec.betting_options.length]
  have hcur_eq : cur = userTotal rec.bets ctx.sender option_id := by
    rw [← hread, hcur]
    rfl
  constructor
  · exact hok.sorted_option_escrow.alter
  · exact hok.sorted_user_option_amounts.alter
  · exact hok.sorted_pending_payouts
  · intro b hb
    rcases List.mem_append.mp hb with hb | hb
    · exact hok.option_lt b hb
    · rw [List.mem_singleton] at hb
      subst hb
      exact hopt
  · intro u amounts hl
    by_cases hu : u = ctx.sender
    · subst hu
      rw [hok.sorted_user_option_amounts.lookup_alter_self] at hl
      cases hl
      simp [hlen]
    · rw [lookup_alter_of_ne hu] at hl
      exact hok.amounts_length u amounts hl
  · intro o
    by_cases ho : o = option_id
    · subst ho
      simp [get_option_escrow, hok.sorted_option_escrow.lookup_alter_self, ← hok.option_escrow_eq]
    · simp [get_option_escrow, lookup_alter_of_ne ho, ← hok.option_escrow_eq, Ne.symm ho]
  · intro u o
    by_cases hu : u = ctx.sender
    · subst hu
      simp only [get_user_option_amount, hok.sorted_user_option_amounts.lookup_alter_self,
        userTotal_append_singleton, true_and]
      by_cases ho : o = option_id
      · subst ho
        simp [hlen, hopt, hcur_eq]
      · rw [List.getElem?_set_ne (Ne.symm ho), hread, if_neg (Ne.symm ho)]
        rfl
    · simp only [get_user_option_amount, lookup_alter_of_ne hu, userTotal_append_singleton]
      rw [if_neg (fun h => hu h.1.symm), Nat.add_zero, ← hok.user_amount_eq]
      rfl
  · intro hu
    simp [hok.escrow_eq hu]
  · exact hok.no_pending
  · exact le_trans hok.solvent (Nat.le_add_right _ _)

end place

-- ============================================================ withdrawals

/-- What the refund of a withdrawal leaves of the escrow. -/
theorem refundNet_eq_ok {escrow refund_amount user escrow' : ℕ} {payments : Payments}
    (h : refundNet escrow refund_amount user = .ok (escrow', payments)) :
    refund_amount ≤ escrow ∧ escrow' = escrow - refund_amount := by
  unfold refundNet at h
  split at h
  · simp only [balance_split_bind_eq_ok, pure_eq_ok, Prod.mk.injEq] at h
    exact ⟨h.1, h.2.1.symm⟩
  · simp only [pure_eq_ok, Prod.mk.injEq] at h
    omega

theorem sorted_withdrawOptionEscrow {option_escrow : List (ℕ × ℕ)} (hs : Sorted option_escrow)
    (bet : SpotBet) : Sorted (withdrawOptionEscrow option_escrow bet) := by
  unfold withdrawOptionEscrow
  split
  · split
    · exact hs.alter
    · exact hs
  · exact hs

theorem sorted_withdrawUserAmounts {user_option_amounts : List (ℕ × List ℕ)}
    (hs : Sorted user_option_amounts) (bet : SpotBet) :
    Sorted (withdrawUserAmounts user_option_amounts bet) := by
  unfold withdrawUserAmounts
  split
  · split
    · split
      · exact hs.alter
      · exact hs
    · exact hs
  · exact hs

/-- A withdrawal lowers only the bet's option escrow, by the bet's
amount, when that escrow holds it. -/
theorem get_option_escrow_withdraw {rec : SpotRecord} (hs : Sorted rec.option_escrow)
    {bet : SpotBet} (hle : bet.amount ≤ rec.get_option_escrow bet.option_id) (o : ℕ) :
    ({ rec with option_escrow := withdrawOptionEscrow rec.option_escrow bet }).get_option_escrow o +
      (if bet.option_id = o then bet.amount else 0) = rec.get_option_escrow o := by
  unfold get_option_escrow at hle ⊢
  unfold withdrawOptionEscrow
  cases hl : lookup bet.option_id rec.option_escrow with
  | none =>
    rw [hl] at hle
    have h0 : bet.amount = 0 := by simpa using hle
    simp [h0]
  | some current_escrow =>
    rw [hl] at hle
    simp only [Option.getD_some] at hle
    simp only [ge_iff_le, if_pos hle]
    by_cases ho : bet.option_id = o
    · subst ho
      simp [hs.lookup_alter_self, hl, Nat.sub_add_cancel hle]
    · simp [lookup_alter_of_ne (Ne.symm ho), ho]

/-- A withdrawal lowers only its user's amount on the bet's option, by
the bet's amount, when that amount holds it. -/
theorem get_user_option_amount_withdraw {rec : SpotRecord} (hs : Sorted rec.user_option_amounts)
    {bet : SpotBet} (hle : bet.amount ≤ rec.get_user_option_amount bet.user bet.option_id)
    (u o : ℕ) :
    ({ rec with user_option_amounts := withdrawUserAmounts rec.user_option_amounts bet }
      ).get_user_option_amount u o + (if bet.user = u ∧ bet.option_id = o then bet.amount else 0) =
      rec.get_user_option_amount u o := by
  unfold get_user_option_amount at hle ⊢
  unfold withdrawUserAmounts
  cases hl : lookup bet.user rec.user_option_amounts with
  | none =>
    rw [hl] at hle
    have h0 : bet.amount = 0 := by simpa using hle
    simp [h0]
  | some user_amounts =>
    rw [hl] at hle
    dsimp only at hle ⊢
    cases ha : user_amounts[bet.option_id]? with
    | none =>
      rw [ha] at hle
      have h0 : bet.amount = 0 := by simpa using hle
      simp [h0]
    | some current =>
      rw [ha, Option.getD_some] at hle
      dsimp only
      rw [if_pos hle]
      by_cases hu : bet.user = u
      · subst hu
        rw [hs.lookup_alter_self, hl]
        by_cases ho : bet.option_id = o
        · subst ho
          obtain ⟨hi, hcur⟩ := List.getElem?_eq_some_iff.mp ha
          simp [hi, hcur, Nat.sub_add_cancel hle]
        · simp [List.getElem?_set_ne ho, ho]
      · simp [lookup_alter_of_ne (Ne.symm hu), hu]

theorem length_of_lookup_withdrawUserAmounts {user_option_amounts : List (ℕ × List ℕ)}
    (hs : Sorted user_option_amounts) {bet : SpotBet} {u : ℕ} {amounts : List ℕ}
    (h : lookup u (withdrawUserAmounts user_option_amounts bet) = some amounts) :
    ∃ amounts₀, lookup u user_option_amounts = some amounts₀ ∧ amounts.length = amounts₀.length := by
  unfold withdrawUserAmounts at h
  split at h
  · rename_i user_amounts hl
    split at h
    · split at h
      · by_cases hu : u = bet.user
        · subst hu
          rw [hs.lookup_alter_self] at h
          cases h
          exact ⟨user_amounts, hl, List.length_set⟩
        · rw [lookup_alter_of_ne hu] at h
          exact ⟨amounts, h, rfl⟩
      · exact ⟨amounts, h, rfl⟩
    · exact ⟨amounts, h, rfl⟩
  · exact ⟨amounts, h, rfl⟩

section withdraw

variable {spot_config : SpotConfig} {rec rec' : SpotRecord} {bet_index : ℕ} {ctx : TxContext}
  {payments : Payments}

/-- What a withdrawal does to the record. -/
theorem withdraw_spot_bet_eq_ok
    (h : withdraw_spot_bet spot_config rec bet_index ctx = .ok (rec', payments)) :
    rec.status = .OPEN ∧ ∃ bet, rec.bets[bet_index]? = some bet ∧
      ∃ escrow₁ fee_payments escrow₂ refund_payments,
        takeFee spot_config rec.escrow (feeOn spot_config bet.amount) =
          .ok (escrow₁, fee_payments) ∧
        refundNet escrow₁ (bet.amount - feeOn spot_config bet.amount) bet.user =
          .ok (escrow₂, refund_payments) ∧
        rec' = { rec with
          escrow := escrow₂
          option_escrow := withdrawOptionEscrow rec.option_escrow bet
          user_option_amounts := withdrawUserAmounts rec.user_option_amounts bet
          bets := MoveVector.swapRemove rec.bets bet_index } := by
  unfold withdraw_spot_bet at h
  simp only [require_bind_eq_ok] at h
  obtain ⟨-, hopen, h⟩ := h
  refine ⟨hopen, ?_⟩
  split at h
  · simp at h
  · rename_i bet hbet
    simp only [require_bind_eq_ok] at h
    obtain ⟨-, -, h⟩ := h
    obtain ⟨⟨escrow₁, fee_payments⟩, hfee, h⟩ := bind_eq_ok h
    obtain ⟨⟨escrow₂, refund_payments⟩, hrefund, h⟩ := bind_eq_ok h
    simp only [pure_eq_ok, Prod.mk.injEq] at h
    exact ⟨bet, hbet, escrow₁, fee_payments, escrow₂, refund_payments, hfee, hrefund, h.1.symm⟩

/-- A withdrawal keeps the invariant: the bet leaves the escrow and its
option's and user's totals, and the other bets are only reordered. -/
theorem SpotOK.withdraw_spot_bet (hok : SpotOK rec) (hcfg : FeesBounded spot_config)
    (h : withdraw_spot_bet spot_config rec bet_index ctx = .ok (rec', payments)) :
    SpotOK rec' := by
  obtain ⟨hopen, bet, hbet, e₁, _, e₂, _, hfee, hrefund, rfl⟩ := withdraw_spot_bet_eq_ok h
  obtain ⟨hi, rfl⟩ := List.getElem?_eq_some_iff.mp hbet
  have hu : Unresolved rec := .inl hopen
  -- the bet and the bets left are the bets, reordered
  have hperm := MoveVector.getElem_cons_swapRemove_perm hi
  obtain ⟨-, hle_opt, hle_user⟩ := amount_le_totals (List.getElem_mem hi)
  -- the fee and the refund make up the bet
  have hfee_le := feeOn_le spot_config rec.bets[bet_index].amount hcfg.1
  obtain ⟨-, rfl⟩ := takeFee_eq_ok hfee
  obtain ⟨-, rfl⟩ := refundNet_eq_ok hrefund
  constructor
  · exact sorted_withdrawOptionEscrow hok.sorted_option_escrow _
  · exact sorted_withdrawUserAmounts hok.sorted_user_option_amounts _
  · exact hok.sorted_pending_payouts
  · intro b hb
    exact hok.option_lt b (MoveVector.mem_of_mem_swapRemove hi hb)
  · intro u amounts hl
    obtain ⟨amounts₀, hl₀, hlen⟩ :=
      length_of_lookup_withdrawUserAmounts hok.sorted_user_option_amounts hl
    exact hlen.trans (hok.amounts_length u amounts₀ hl₀)
  · intro o
    have hw := get_option_escrow_withdraw hok.sorted_option_escrow
      (by rw [hok.option_escrow_eq]; exact hle_opt) o
    have hp := optionTotal_perm hperm o
    rw [optionTotal_cons, ← hok.option_escrow_eq] at hp
    show ({ rec with option_escrow := withdrawOptionEscrow rec.option_escrow rec.bets[bet_index] }
      ).get_option_escrow o = optionTotal (MoveVector.swapRemove rec.bets bet_index) o
    split_ifs at hw hp <;> omega
  · intro u o
    have hw := get_user_option_amount_withdraw hok.sorted_user_option_amounts
      (by rw [hok.user_amount_eq]; exact hle_user) u o
    have hp := userTotal_perm hperm u o
    rw [userTotal_cons, ← hok.user_amount_eq] at hp
    show ({ rec with
      user_option_amounts := withdrawUserAmounts rec.user_option_amounts rec.bets[bet_index] }
      ).get_user_option_amount u o = userTotal (MoveVector.swapRemove rec.bets bet_index) u o
    split_ifs at hw hp <;> omega
  · intro _
    have hp := betTotal_perm hperm
    rw [betTotal_cons, ← hok.escrow_eq hu] at hp
    show rec.escrow - _ - _ = betTotal (MoveVector.swapRemove rec.bets bet_index)
    omega
  · intro _
    exact hok.no_pending hu
  · show valSum rec.pending_payouts ≤ _
    rw [hok.no_pending hu]
    exact Nat.zero_le _

end withdraw

-- ============================================================ resolution

/-- The outcomes that refund every bet. -/
def Refunding (outcome : ℕ) : Prop := outcome = OUTCOME_DRAW ∨ outcome = OUTCOME_UNAPPLICABLE

instance (outcome : ℕ) : Decidable (Refunding outcome) :=
  inferInstanceAs (Decidable (outcome = OUTCOME_DRAW ∨ outcome = OUTCOME_UNAPPLICABLE))

@[simp] theorem resolvedWith_status (rec : SpotRecord) (outcome escrow : ℕ)
    (pending_payouts : List (ℕ × ℕ)) (ctx : TxContext) :
    (resolvedWith rec outcome escrow pending_payouts ctx).status = .RESOLVED := rfl

@[simp] theorem resolvedWith_outcome (rec : SpotRecord) (outcome escrow : ℕ)
    (pending_payouts : List (ℕ × ℕ)) (ctx : TxContext) :
    (resolvedWith rec outcome escrow pending_payouts ctx).outcome = some outcome := rfl

section resolve

variable {spot_config : SpotConfig} {rec rec' : SpotRecord} {outcome : ℕ} {ctx : TxContext}
  {payments : Payments}

/-- What a resolution does to the record: a refunding outcome pays the
bets back, any other takes the fee and credits the winners. -/
theorem finalize_resolution_and_payout_eq_ok
    (h : finalize_resolution_and_payout spot_config rec outcome ctx = .ok (rec', payments)) :
    Unresolved rec ∧
      ((Refunding outcome ∧ ∃ escrow, refundBets rec.escrow rec.bets = .ok (escrow, payments) ∧
          rec' = resolvedWith rec outcome escrow rec.pending_payouts ctx) ∨
        (¬ Refunding outcome ∧ ∃ escrow,
          takeFee spot_config rec.escrow (feeOn spot_config rec.totalEscrow) =
            .ok (escrow, payments) ∧
          rec' = resolvedWith rec outcome escrow
            (creditPayouts outcome (rec.get_option_escrow outcome)
              (rec.totalEscrow - feeOn spot_config rec.totalEscrow) rec.pending_payouts rec.bets)
            ctx)) := by
  unfold finalize_resolution_and_payout at h
  simp only [require_bind_eq_ok] at h
  obtain ⟨hu, -, h⟩ := h
  refine ⟨hu, ?_⟩
  split at h
  · rename_i hr
    obtain ⟨⟨escrow, refunds⟩, hrefund, h⟩ := bind_eq_ok h
    simp only [pure_eq_ok, Prod.mk.injEq] at h
    obtain ⟨rfl, rfl⟩ := h
    exact .inl ⟨hr, escrow, hrefund, rfl⟩
  · rename_i hr
    obtain ⟨⟨escrow, fee_payments⟩, hfee, h⟩ := bind_eq_ok h
    simp only [pure_eq_ok, Prod.mk.injEq] at h
    obtain ⟨rfl, rfl⟩ := h
    exact .inr ⟨hr, escrow, hfee, rfl⟩

/-- The escrow left by a winning resolution covers the shares it
credits. -/
theorem winning_solvent (hok : SpotOK rec) (hu : Unresolved rec) {escrow : ℕ}
    {fee_payments : Payments}
    (hfee : takeFee spot_config rec.escrow (feeOn spot_config rec.totalEscrow) =
      .ok (escrow, fee_payments)) :
    valSum (creditPayouts outcome (rec.get_option_escrow outcome)
      (rec.totalEscrow - feeOn spot_config rec.totalEscrow) rec.pending_payouts rec.bets) ≤
      escrow := by
  obtain ⟨-, rfl⟩ := takeFee_eq_ok hfee
  rw [valSum_creditPayouts hok.sorted_pending_payouts, hok.no_pending hu, valSum_nil,
    Nat.zero_add, hok.totalEscrow_eq hu]
  exact winnerShares_le _ (hok.option_escrow_eq outcome).ge

/-- A resolution keeps the invariant; it reads the bets and the tables
of bets and leaves them alone. -/
theorem SpotOK.finalize_resolution_and_payout (hok : SpotOK rec)
    (h : finalize_resolution_and_payout spot_config rec outcome ctx = .ok (rec', payments)) :
    SpotOK rec' := by
  obtain ⟨hu, hcase⟩ := finalize_resolution_and_payout_eq_ok h
  -- a resolved record is no longer unresolved
  have hres : ∀ escrow pending_payouts,
      ¬ Unresolved (resolvedWith rec outcome escrow pending_payouts ctx) := by
    intro escrow pending_payouts hu'
    rcases hu' with h' | h' <;> cases h'
  have keep : ∀ escrow pending_payouts, Sorted pending_payouts →
      valSum pending_payouts ≤ escrow →
      SpotOK (resolvedWith rec outcome escrow pending_payouts ctx) :=
    fun escrow pending_payouts hs hsolv =>
      { sorted_option_escrow := hok.sorted_option_escrow
        sorted_user_option_amounts := hok.sorted_user_option_amounts
        sorted_pending_payouts := hs
        option_lt := hok.option_lt
        amounts_length := hok.amounts_length
        option_escrow_eq := hok.option_escrow_eq
        user_amount_eq := hok.user_amount_eq
        escrow_eq := fun hu' => absurd hu' (hres _ _)
        no_pending := fun hu' => absurd hu' (hres _ _)
        solvent := hsolv }
  rcases hcase with ⟨-, escrow, hrefund, rfl⟩ | ⟨-, escrow, hfee, rfl⟩
  · -- a refund of every bet spends the whole escrow, and nothing was owed
    refine keep _ _ hok.sorted_pending_payouts ?_
    rw [hok.no_pending hu]
    exact Nat.zero_le _
  · exact keep _ _ (sorted_creditPayouts hok.sorted_pending_payouts _)
      (winning_solvent hok hu hfee)

/-- What an oracle resolution does: hand the record to the DAO, or
resolve it. -/
theorem oracle_resolve_eq_ok {cap : SpotOracleAdminCap} {confidence_bps : ℕ} {reasoning : String}
    {evidence_urls : List String}
    (h : oracle_resolve cap spot_config rec outcome confidence_bps reasoning evidence_urls ctx =
      .ok (rec', payments)) :
    outcome < rec.betting_options.length ∧
      ((rec.status = .OPEN ∧ rec' = { rec with status := .DAO_REQUIRED }) ∨
        finalize_resolution_and_payout spot_config rec outcome ctx = .ok (rec', payments)) := by
  unfold oracle_resolve at h
  simp only [require_bind_eq_ok] at h
  obtain ⟨hopen, -, -, hopt, -, -, -, -, h⟩ := h
  refine ⟨hopt, ?_⟩
  split at h
  · simp only [pure_eq_ok, Prod.mk.injEq] at h
    exact .inl ⟨hopen, h.1.symm⟩
  · exact .inr h

/-- A DAO resolution is a resolution. -/
theorem finalize_via_dao_eq_ok {reasoning : Option String} {evidence_urls : Option (List String)}
    (h : finalize_via_dao spot_config rec outcome reasoning evidence_urls ctx =
      .ok (rec', payments)) :
    finalize_resolution_and_payout spot_config rec outcome ctx = .ok (rec', payments) := by
  unfold finalize_via_dao at h
  simp only [require_bind_eq_ok] at h
  exact h.2.2.2.2

end resolve

-- ============================================================ refunds and claims

section refund_claim

variable {spot_config : SpotConfig} {rec rec' : SpotRecord} {ctx : TxContext} {payments : Payments}

/-- What a refund of an unresolved record does. -/
theorem refund_unresolved_eq_ok {cap : SpotOracleAdminCap}
    (h : refund_unresolved cap rec ctx = .ok (rec', payments)) :
    Unresolved rec ∧ ∃ escrow, refundBets rec.escrow rec.bets = .ok (escrow, payments) ∧
      rec' = { rec with
        escrow
        status := .REFUNDABLE
        outcome := none
        last_resolution_epoch := ctx.epoch } := by
  unfold refund_unresolved at h
  split at h
  · simp at h
  · simp only [require_bind_eq_ok] at h
    obtain ⟨-, hu, -, h⟩ := h
    obtain ⟨⟨escrow, refunds⟩, hrefund, h⟩ := bind_eq_ok h
    simp only [pure_eq_ok, Prod.mk.injEq] at h
    obtain ⟨rfl, rfl⟩ := h
    exact ⟨hu, escrow, hrefund, rfl⟩

/-- A refund keeps the invariant: nothing was owed. -/
theorem SpotOK.refund_unresolved {cap : SpotOracleAdminCap} (hok : SpotOK rec)
    (h : refund_unresolved cap rec ctx = .ok (rec', payments)) : SpotOK rec' := by
  obtain ⟨hu, escrow, -, rfl⟩ := refund_unresolved_eq_ok h
  have hres : ¬ Unresolved { rec with
      escrow
      status := .REFUNDABLE
      outcome := none
      last_resolution_epoch := ctx.epoch } := by
    rintro (h' | h') <;> cases h'
  exact
    { sorted_option_escrow := hok.sorted_option_escrow
      sorted_user_option_amounts := hok.sorted_user_option_amounts
      sorted_pending_payouts := hok.sorted_pending_payouts
      option_lt := hok.option_lt
      amounts_length := hok.amounts_length
      option_escrow_eq := hok.option_escrow_eq
      user_amount_eq := hok.user_amount_eq
      escrow_eq := fun hu' => absurd hu' hres
      no_pending := fun hu' => absurd hu' hres
      solvent := by
        show valSum rec.pending_payouts ≤ escrow
        rw [hok.no_pending hu]
        exact Nat.zero_le _ }

/-- What a claim does. -/
theorem claim_payout_eq_ok (h : claim_payout spot_config rec ctx = .ok (rec', payments)) :
    rec.status = .RESOLVED ∧ ∃ pending_amount,
      lookup ctx.sender rec.pending_payouts = some pending_amount ∧ pending_amount ≤ rec.escrow ∧
      rec' = { rec with
        escrow := rec.escrow - pending_amount
        pending_payouts := SortedMap.eraseKey ctx.sender rec.pending_payouts } ∧
      payments = [(.address ctx.sender, pending_amount)] := by
  unfold claim_payout at h
  simp only [require_bind_eq_ok] at h
  obtain ⟨-, hres, -, h⟩ := h
  refine ⟨hres, ?_⟩
  split at h
  · simp at h
  · rename_i pending_amount hl
    simp only [require_bind_eq_ok, balance_split_bind_eq_ok, pure_eq_ok, Prod.mk.injEq] at h
    obtain ⟨-, -, -, hle, rfl, rfl⟩ := h
    exact ⟨pending_amount, hl, hle, rfl, rfl⟩

/-- A claim keeps the invariant: it pays out what it strikes from the
pending payouts. -/
theorem SpotOK.claim_payout (hok : SpotOK rec)
    (h : claim_payout spot_config rec ctx = .ok (rec', payments)) : SpotOK rec' := by
  obtain ⟨hres, p, hl, -, rfl, -⟩ := claim_payout_eq_ok h
  have hnot : ¬ Unresolved rec := by
    rintro (h' | h') <;> rw [hres] at h' <;> cases h'
  have herase := hok.sorted_pending_payouts.valSum_eraseKey (k := ctx.sender)
  rw [hl, Option.getD_some] at herase
  exact
    { sorted_option_escrow := hok.sorted_option_escrow
      sorted_user_option_amounts := hok.sorted_user_option_amounts
      sorted_pending_payouts := hok.sorted_pending_payouts.eraseKey
      option_lt := hok.option_lt
      amounts_length := hok.amounts_length
      option_escrow_eq := hok.option_escrow_eq
      user_amount_eq := hok.user_amount_eq
      escrow_eq := fun hu => absurd hu hnot
      no_pending := fun hu => absurd hu hnot
      solvent := by
        show valSum (SortedMap.eraseKey ctx.sender rec.pending_payouts) ≤ rec.escrow - p
        have := hok.solvent
        omega }

end refund_claim

-- ============================================================ runs

/-- Every call keeps the invariant. -/
theorem SpotOK.apply {rec rec' : SpotRecord} {spot_config : SpotConfig} {ctx : TxContext}
    {call : SpotCall} {payments : Payments} (hok : SpotOK rec) (hcfg : FeesBounded spot_config)
    (h : apply rec spot_config ctx call = .ok (rec', payments)) : SpotOK rec' := by
  cases call with
  | place_spot_bet payment option_id amount => exact hok.place_spot_bet h
  | withdraw_spot_bet bet_index => exact hok.withdraw_spot_bet hcfg h
  | oracle_resolve outcome_option_id confidence_bps reasoning evidence_urls =>
    have h' : SocialProofOfTruth.oracle_resolve ⟨⟩ spot_config rec outcome_option_id confidence_bps
        reasoning evidence_urls ctx = .ok (rec', payments) := h
    rcases (oracle_resolve_eq_ok h').2 with ⟨hopen, rfl⟩ | h
    · -- the hand-over to the DAO changes the status only, between unresolved ones
      have hu : Unresolved rec := .inl hopen
      exact
        { hok with
          escrow_eq := fun _ => hok.escrow_eq hu
          no_pending := fun _ => hok.no_pending hu }
    · exact hok.finalize_resolution_and_payout h
  | finalize_via_dao outcome reasoning evidence_urls =>
    exact hok.finalize_resolution_and_payout (finalize_via_dao_eq_ok h)
  | refund_unresolved =>
    have h' : SocialProofOfTruth.refund_unresolved ⟨⟩ rec ctx = .ok (rec', payments) := h
    exact hok.refund_unresolved h'
  | claim_payout => exact hok.claim_payout h

/-- Every run keeps the invariant. -/
theorem SpotOK.run {rec : SpotRecord} (hok : SpotOK rec) :
    ∀ {calls : List (SpotConfig × TxContext × SpotCall)}, (∀ c ∈ calls, FeesBounded c.1) →
      SpotOK (run rec calls) := by
  intro calls hcalls
  unfold SocialProofOfTruth.run
  refine ExceptFold.foldl_inv SpotOK hok ?_
  intro r c hc hr
  unfold step
  split
  · rename_i res hres
    exact hr.apply (hcalls c hc) hres
  · exact hr

-- ============================================================ no balance runs short

section no_short

variable {spot_config : SpotConfig} {rec : SpotRecord} {ctx : TxContext}

end no_short

-- ============================================================ leaving the unresolved phase

section leave

variable {spot_config : SpotConfig} {rec rec' : SpotRecord} {ctx : TxContext} {call : SpotCall}
  {payments : Payments}

end leave

-- ============================================================ the guarantees

end MysoCore.Social.SocialProofOfTruth
