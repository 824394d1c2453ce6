/-
Trading on a social proof token pool: what each trade does to the
pool, over every run of trades, and what a round trip costs the pool.

# The ledger

A buy adds its amount to the buyer's holders entry and to the
circulating supply, and a sale takes it off both, so the holders table
sums to the supply at every time (`PoolOK`). The MYSO of a trade moves
between the pool, the trader and the fee's payees and nowhere else
(`apply_conserves`).

# The round trip

The refund for the last `k` tokens of a supply of `n + k` is the price
of `k` tokens past `n` (`calculate_sell_price_add`): both sum the curve
over the same supplies and round down once. A buy puts the price net of
its fee into the pool, and a sale takes the whole refund out of it, the
seller's net and the sale's fee alike. So the sale of the tokens a buy
has just sold leaves the pool short by the buy's fee
(`buy_sell_round_trip`).
-/
import MysoCore.Social.SocialProofTokens
import MysoCore.Lib.Shares

namespace MysoCore.Social.SocialProofTokens

open SortedMap ExceptFold

-- ============================================================ fees

theorem calculate_fee_amount_safe_eq_ok {amount fee_bps fee : ℕ}
    (h : calculate_fee_amount_safe amount fee_bps = .ok fee) : fee = amount * fee_bps / 10000 := by
  unfold calculate_fee_amount_safe at h
  split at h
  · next h0 =>
      simp only [pure_eq_ok] at h
      subst h
      rcases h0 with rfl | rfl <;> simp
  · simp only [require_bind_eq_ok, pure_eq_ok] at h
    exact h.2.symm

theorem calculate_component_fee_safe_eq_ok {fee_amount component_bps total_bps fee : ℕ}
    (h : calculate_component_fee_safe fee_amount component_bps total_bps = .ok fee) :
    fee = fee_amount * component_bps / total_bps := by
  unfold calculate_component_fee_safe at h
  split at h
  · next h0 =>
      simp only [pure_eq_ok] at h
      subst h
      rcases h0 with rfl | rfl | rfl <;> simp
  · simp only [require_bind_eq_ok, pure_eq_ok] at h
    exact h.2.symm

/-- A fee split at rates whose creator's and platform's parts are part
of a total of at most one whole: the total rate of the amount, at most
the amount, and made up by its three parts. -/
theorem splitFee_eq_ok {amount total_fee_bps creator_fee_bps platform_fee_bps : ℕ}
    {fees : TradingFees} (hparts : creator_fee_bps + platform_fee_bps ≤ total_fee_bps)
    (htotal : total_fee_bps ≤ 10000)
    (h : splitFee amount total_fee_bps creator_fee_bps platform_fee_bps = .ok fees) :
    fees.fee_amount = amount * total_fee_bps / 10000 ∧
      fees.fee_amount ≤ amount ∧
      fees.creator_fee + fees.platform_fee + fees.treasury_fee = fees.fee_amount := by
  unfold splitFee at h
  obtain ⟨fee_amount, hfee, h⟩ := bind_eq_ok h
  obtain ⟨creator_fee, hcreator, h⟩ := bind_eq_ok h
  obtain ⟨platform_fee, hplatform, h⟩ := bind_eq_ok h
  simp only [pure_eq_ok] at h
  subst h
  -- the creator's and the platform's parts are part of the fee
  have hsum : creator_fee + platform_fee ≤ fee_amount := by
    rw [calculate_component_fee_safe_eq_ok hcreator, calculate_component_fee_safe_eq_ok hplatform]
    exact Shares.mul_div_add_mul_div_le fee_amount hparts
  refine ⟨calculate_fee_amount_safe_eq_ok hfee, ?_, by dsimp only; omega⟩
  rw [calculate_fee_amount_safe_eq_ok hfee]
  exact Shares.mul_div_le_of_le amount htotal

/-- What a trade's fee is. -/
theorem tradingFees_eq_ok {config : SocialProofTokensConfig} {amount : ℕ} {fees : TradingFees}
    (h : tradingFees config amount = .ok fees) :
    fees.fee_amount = amount * calculate_total_fee_bps config / 10000 ∧
      fees.fee_amount ≤ amount ∧
      fees.creator_fee + fees.platform_fee + fees.treasury_fee = fees.fee_amount := by
  unfold tradingFees validate_trading_fees at h
  simp only [require_bind_eq_ok] at h
  obtain ⟨⟨-, htotal⟩, h⟩ := h
  exact splitFee_eq_ok (by unfold calculate_total_fee_bps; omega) htotal h

-- ============================================================ paying the fee

theorem calculate_poc_split_le {amount redirect_percentage redirected rest : ℕ}
    (h : calculate_poc_split amount redirect_percentage = .ok (redirected, rest)) :
    redirected ≤ amount := by
  unfold calculate_poc_split at h
  simp only [require_bind_eq_ok, pure_eq_ok, Prod.mk.injEq] at h
  rw [← h.2.1]
  exact Shares.mul_div_le_of_le amount h.1

/-- A redirection sends on at most the amount it splits. -/
theorem apply_token_poc_redirection_le {pool : TokenPool} {amount redirected rest : ℕ}
    (h : apply_token_poc_redirection pool amount = .ok (redirected, rest)) :
    redirected ≤ amount := by
  unfold apply_token_poc_redirection at h
  split at h
  · exact calculate_poc_split_le h
  · simp only [pure_eq_ok, Prod.mk.injEq] at h
    omega

theorem paid_creatorFeeTransfers (redirect_to : Option ℕ) (owner : ℕ)
    {creator_fee_amount redirected_amount : ℕ} (h : redirected_amount ≤ creator_fee_amount) :
    paid (creatorFeeTransfers redirect_to owner creator_fee_amount redirected_amount) =
      creator_fee_amount := by
  unfold creatorFeeTransfers
  split_ifs <;> simp <;> omega

/-- A creator fee paid out of a coin leaves the coin short by the fee
and sends the fee on, redirected or not. -/
theorem distribute_creator_fee_eq_ok {pool : TokenPool} {creator_fee_amount value value' : ℕ}
    {payments : Payments}
    (h : distribute_creator_fee pool creator_fee_amount value = .ok (value', payments)) :
    value' + creator_fee_amount = value ∧ paid payments = creator_fee_amount := by
  unfold distribute_creator_fee at h
  split at h
  · next h0 =>
      simp only [pure_eq_ok, Prod.mk.injEq] at h
      obtain ⟨rfl, rfl⟩ := h
      simp [h0]
  · obtain ⟨⟨redirected, rest⟩, hsplit, h⟩ := bind_eq_ok h
    simp only [balance_split_bind_eq_ok, pure_eq_ok, Prod.mk.injEq] at h
    obtain ⟨hle, rfl, rfl⟩ := h
    exact ⟨by omega, paid_creatorFeeTransfers _ _ (apply_token_poc_redirection_le hsplit)⟩

theorem sendPart_eq_ok {value value' amount : ℕ} {payee : Payee} {payments : Payments}
    (h : sendPart value payee amount = .ok (value', payments)) :
    value' + amount = value ∧ paid payments = amount := by
  unfold sendPart at h
  split at h
  · simp only [balance_split_bind_eq_ok, pure_eq_ok, Prod.mk.injEq] at h
    obtain ⟨hle, rfl, rfl⟩ := h
    simp only [paid_cons, paid_nil]
    omega
  · simp only [pure_eq_ok, Prod.mk.injEq] at h
    obtain ⟨rfl, rfl⟩ := h
    simp only [paid_nil]
    omega

/-- A fee paid out of a coin leaves the coin short by the fee and sends
the fee on, when its parts make it up and the creator's part is paid
that way too. -/
theorem distributeFees_eq_ok {creatorFee : ℕ → ℕ → Except Abort (ℕ × Payments)}
    {platform : Option PlatformView} {fees : TradingFees} {value value' : ℕ} {payments : Payments}
    (hcreatorFee : ∀ {v v' : ℕ} {ps : Payments}, creatorFee fees.creator_fee v = .ok (v', ps) →
      v' + fees.creator_fee = v ∧ paid ps = fees.creator_fee)
    (hparts : fees.creator_fee + fees.platform_fee + fees.treasury_fee = fees.fee_amount)
    (h : distributeFees creatorFee platform fees value = .ok (value', payments)) :
    value' + fees.fee_amount = value ∧ paid payments = fees.fee_amount := by
  unfold distributeFees at h
  split at h
  · obtain ⟨⟨value₁, creator⟩, hcreator, h⟩ := bind_eq_ok h
    obtain ⟨⟨value₂, platformPart⟩, hplatform, h⟩ := bind_eq_ok h
    obtain ⟨⟨value₃, treasuryPart⟩, htreasury, h⟩ := bind_eq_ok h
    simp only [pure_eq_ok, Prod.mk.injEq] at h
    obtain ⟨rfl, rfl⟩ := h
    obtain ⟨hv₁, hp₁⟩ := hcreatorFee hcreator
    obtain ⟨hv₂, hp₂⟩ := sendPart_eq_ok hplatform
    obtain ⟨hv₃, hp₃⟩ := sendPart_eq_ok htreasury
    simp only [paid_append]
    omega
  · simp only [pure_eq_ok, Prod.mk.injEq] at h
    obtain ⟨rfl, rfl⟩ := h
    simp only [paid_nil]
    omega

/-- A buy's payment: the price net of the fee goes into the pool, and
what the payment does not leave in the pool it sends out. -/
theorem payForBuy_eq_ok {pool : TokenPool} {platform : Option PlatformView}
    {fees : TradingFees} {price payment buyer myso_balance : ℕ} {payments : Payments}
    (hparts : fees.creator_fee + fees.platform_fee + fees.treasury_fee = fees.fee_amount)
    (h : payForBuy pool platform fees price payment buyer = .ok (myso_balance, payments)) :
    myso_balance = pool.myso_balance + (price - fees.fee_amount) ∧
      payment + pool.myso_balance = myso_balance + paid payments := by
  unfold payForBuy at h
  obtain ⟨⟨payment₁, fee_payments⟩, hfees, h⟩ := bind_eq_ok h
  simp only [balance_split_bind_eq_ok, pure_eq_ok, Prod.mk.injEq] at h
  obtain ⟨hnet, rfl, rfl⟩ := h
  obtain ⟨hv, hp⟩ := distributeFees_eq_ok distribute_creator_fee_eq_ok hparts hfees
  refine ⟨rfl, ?_⟩
  simp only [paid_append]
  split_ifs <;> simp <;> omega

-- ============================================================ the curve

@[simp] theorem calculate_sum_squares_zero : calculate_sum_squares 0 = pure 0 := rfl

/-- The refund for the last `k` tokens of a supply of `n + k` is the
price of `k` tokens past `n`: the same squares summed over the same
supplies, under the same asserts. -/
theorem calculate_sell_price_add (base_price quadratic_coefficient n k : ℕ) :
    calculate_sell_price base_price quadratic_coefficient (n + k) k =
      calculate_buy_price base_price quadratic_coefficient n k := by
  unfold calculate_sell_price calculate_buy_price
  split
  · rfl
  · have hsupply : require (n + k ≥ k) Abort.EInsufficientLiquidity = pure () :=
      if_pos (Nat.le_add_left k n)
    rw [hsupply, pure_bind]
    -- the sale's range starts at `n`, as the buy's: past no supply the
    -- buy subtracts the empty sum, which the sale leaves out
    rcases Nat.eq_zero_or_pos n with rfl | hn
    · simp only [Nat.zero_add, Nat.sub_self, if_true, calculate_sum_squares_zero, pure_bind]
    · have hn0 : n ≠ 0 := Nat.pos_iff_ne_zero.mp hn
      simp only [Nat.add_sub_cancel, if_neg hn0]

-- ============================================================ what a trade does

section trades

variable {registries : Registries} {platform : Option PlatformView}
  {config : SocialProofTokensConfig} {pool pool' : TokenPool}
  {social_token token' : SocialToken} {payment amount : ℕ} {ctx : TxContext}
  {payments : Payments}

theorem table_add_eq_ok {k v : ℕ} {t t' : List (ℕ × ℕ)} (h : table_add k v t = .ok t') :
    lookup k t = none ∧ t' = alter k (fun _ => v) t := by
  unfold table_add at h
  split at h
  · simp at h
  · next hnone =>
      simp only [pure_eq_ok] at h
      exact ⟨hnone, h.symm⟩

/-- What a first purchase does: the buyer had no entry and gets one of
the amount bought, the supply grows by the amount, the pool keeps what
the payment leaves in it, and the buyer's new token is of the amount. -/
theorem buyFirstTokens_eq_ok
    (h : buyFirstTokens registries platform config pool payment amount ctx =
      .ok (pool', token', payments)) :
    ∃ price avg fees myso_balance,
      calculate_buy_price pool.info.base_price pool.info.quadratic_coefficient
        pool.info.circulating_supply amount = .ok (price, avg) ∧
      tradingFees config price = .ok fees ∧
      payForBuy pool platform fees price payment ctx.sender = .ok (myso_balance, payments) ∧
      lookup ctx.sender pool.holders = none ∧
      pool' = { pool with
        info := { pool.info with circulating_supply := pool.info.circulating_supply + amount }
        myso_balance
        holders := alter ctx.sender (fun _ => amount) pool.holders } ∧
      token' = ⟨pool.id, pool.info.token_type, amount⟩ := by
  unfold buyFirstTokens at h
  simp only [require_bind_eq_ok] at h
  obtain ⟨-, -, h⟩ := h
  obtain ⟨_, -, h⟩ := bind_eq_ok h
  simp only [require_bind_eq_ok] at h
  obtain ⟨-, -, h⟩ := h
  obtain ⟨⟨price, avg⟩, hprice, h⟩ := bind_eq_ok h
  simp only [require_bind_eq_ok] at h
  obtain ⟨-, h⟩ := h
  obtain ⟨fees, hfees, h⟩ := bind_eq_ok h
  obtain ⟨⟨myso_balance, payments'⟩, hpay, h⟩ := bind_eq_ok h
  obtain ⟨_, -, h⟩ := bind_eq_ok h
  simp only [require_bind_eq_ok] at h
  obtain ⟨-, h⟩ := h
  obtain ⟨holders, hadd, h⟩ := bind_eq_ok h
  simp only [require_bind_eq_ok] at h
  obtain ⟨-, h⟩ := h
  obtain ⟨_, -, h⟩ := bind_eq_ok h
  simp only [pure_eq_ok, Prod.mk.injEq] at h
  obtain ⟨rfl, rfl, rfl⟩ := h
  obtain ⟨hnone, rfl⟩ := table_add_eq_ok hadd
  exact ⟨price, avg, fees, myso_balance, hprice, hfees, hpay, hnone, rfl, rfl⟩

/-- An entry there grows by the amount; a new one is added by
`table::add`, which is the same from nothing. -/
theorem creditHolder_eq_ok {holders holders' : List (ℕ × ℕ)} {holder amount : ℕ}
    (h : creditHolder holders holder amount = .ok holders') :
    holders' = alter holder (fun _ => (lookup holder holders).getD 0 + amount) holders := by
  unfold creditHolder at h
  split at h
  · next holder_balance hsome =>
      simp only [require_bind_eq_ok, pure_eq_ok] at h
      rw [← h.2, hsome]
      rfl
  · next hnone =>
      obtain ⟨-, rfl⟩ := table_add_eq_ok h
      rw [hnone]
      simp

/-- What a further purchase does: the buyer's entry grows by the amount
bought (from nothing, if there was none), as do the supply and the
buyer's token, which is of this pool. -/
theorem buyMoreTokens_eq_ok
    (h : buyMoreTokens registries platform config pool payment amount social_token ctx =
      .ok (pool', token', payments)) :
    ∃ price avg fees myso_balance,
      calculate_buy_price pool.info.base_price pool.info.quadratic_coefficient
        pool.info.circulating_supply amount = .ok (price, avg) ∧
      tradingFees config price = .ok fees ∧
      payForBuy pool platform fees price payment ctx.sender = .ok (myso_balance, payments) ∧
      social_token.pool_id = pool.id ∧
      pool' = { pool with
        info := { pool.info with circulating_supply := pool.info.circulating_supply + amount }
        myso_balance
        holders := alter ctx.sender (fun _ => (lookup ctx.sender pool.holders).getD 0 + amount)
          pool.holders } ∧
      token' = { social_token with amount := social_token.amount + amount } := by
  unfold buyMoreTokens at h
  simp only [require_bind_eq_ok] at h
  obtain ⟨-, -, h⟩ := h
  obtain ⟨_, -, h⟩ := bind_eq_ok h
  simp only [require_bind_eq_ok] at h
  obtain ⟨-, -, hid, h⟩ := h
  obtain ⟨⟨price, avg⟩, hprice, h⟩ := bind_eq_ok h
  simp only [require_bind_eq_ok] at h
  obtain ⟨-, h⟩ := h
  obtain ⟨fees, hfees, h⟩ := bind_eq_ok h
  obtain ⟨⟨myso_balance, payments'⟩, hpay, h⟩ := bind_eq_ok h
  obtain ⟨_, -, h⟩ := bind_eq_ok h
  obtain ⟨holders, hholders, h⟩ := bind_eq_ok h
  simp only [require_bind_eq_ok] at h
  obtain ⟨-, -, h⟩ := h
  obtain ⟨_, -, h⟩ := bind_eq_ok h
  simp only [pure_eq_ok, Prod.mk.injEq] at h
  obtain ⟨rfl, rfl, rfl⟩ := h
  rw [creditHolder_eq_ok hholders]
  exact ⟨price, avg, fees, myso_balance, hprice, hfees, hpay, hid, rfl, rfl⟩

/-- What a sale does: the seller's entry, of at least the amount, loses
the amount, as do the supply and the token, which is of this pool and
worth at least the amount; the pool pays the refund net of the fee to
the seller and the fee out of what is left. -/
theorem sellTokens_eq_ok
    (h : sellTokens registries platform config pool social_token amount ctx =
      .ok (pool', token', payments)) :
    ∃ refund avg fees holder_balance holders myso_balance fee_payments,
      calculate_sell_price pool.info.base_price pool.info.quadratic_coefficient
        pool.info.circulating_supply amount = .ok (refund, avg) ∧
      tradingFees config refund = .ok fees ∧
      refund ≤ pool.myso_balance ∧
      lookup ctx.sender pool.holders = some holder_balance ∧
      sellHolders pool.holders ctx.sender holder_balance amount = .ok holders ∧
      distributeFees (distribute_creator_fee pool) platform fees
        (pool.myso_balance - (refund - fees.fee_amount)) =
        .ok (myso_balance, fee_payments) ∧
      payments = fee_payments ++ [(.address ctx.sender, refund - fees.fee_amount)] ∧
      social_token.pool_id = pool.id ∧ amount ≤ social_token.amount ∧
      pool' = { pool with
        info := { pool.info with circulating_supply := pool.info.circulating_supply - amount }
        myso_balance
        holders } ∧
      token' = { social_token with amount := social_token.amount - amount } := by
  unfold sellTokens at h
  simp only [require_bind_eq_ok] at h
  obtain ⟨-, -, h⟩ := h
  obtain ⟨_, -, h⟩ := bind_eq_ok h
  simp only [require_bind_eq_ok] at h
  obtain ⟨hid, hamount, h⟩ := h
  obtain ⟨⟨refund, avg⟩, hrefund, h⟩ := bind_eq_ok h
  obtain ⟨fees, hfees, h⟩ := bind_eq_ok h
  simp only [require_bind_eq_ok] at h
  obtain ⟨hle, h⟩ := h
  split at h
  · simp at h
  · next holder_balance hsome =>
      obtain ⟨holders, hholders, h⟩ := bind_eq_ok h
      simp only [balance_split_bind_eq_ok] at h
      obtain ⟨-, h⟩ := h
      obtain ⟨⟨myso_balance, fee_payments⟩, hdist, h⟩ := bind_eq_ok h
      obtain ⟨_, -, h⟩ := bind_eq_ok h
      simp only [pure_eq_ok, Prod.mk.injEq] at h
      obtain ⟨rfl, rfl, rfl⟩ := h
      exact ⟨refund, avg, fees, holder_balance, holders, myso_balance, fee_payments, hrefund,
        hfees, hle, hsome, hholders, hdist, rfl, hid, hamount, rfl, rfl⟩

-- ============================================================ the ledger

/-- A sale's update of a map takes the amount off the seller's entry,
which holds at least the amount. -/
theorem sellHolders_eq_ok {holders holders' : List (ℕ × ℕ)} {seller holder_balance : ℕ}
    (hs : Sorted holders) (hsome : lookup seller holders = some holder_balance)
    (h : sellHolders holders seller holder_balance amount = .ok holders') :
    Sorted holders' ∧ valSum holders' + amount = valSum holders ∧ amount ≤ holder_balance := by
  unfold sellHolders at h
  split_ifs at h with hall
  · -- the whole entry is sold: it goes
    simp only [pure_eq_ok] at h
    subst h
    have hsum := hs.valSum_eraseKey (k := seller)
    rw [hsome, Option.getD_some] at hsum
    exact ⟨hs.eraseKey, by omega, by omega⟩
  · simp only [require_bind_eq_ok, pure_eq_ok] at h
    obtain ⟨hle, rfl⟩ := h
    have hsum := hs.valSum_alter (k := seller) (f := fun _ => holder_balance - amount)
    rw [hsome, Option.getD_some] at hsum
    exact ⟨hs.alter, by omega, hle⟩

/-- A pool's ledger: its holders table is a map, and its entries sum
to the circulating supply. -/
structure PoolOK (pool : TokenPool) : Prop where
  sorted : Sorted pool.holders
  supply_eq : valSum pool.holders = pool.info.circulating_supply

theorem PoolOK.buyFirstTokens (hok : PoolOK pool)
    (h : buyFirstTokens registries platform config pool payment amount ctx =
      .ok (pool', token', payments)) :
    PoolOK pool' := by
  obtain ⟨_, _, _, _, -, -, -, hnone, rfl, -⟩ := buyFirstTokens_eq_ok h
  have hsum := hok.sorted.valSum_alter (k := ctx.sender) (f := fun _ => amount)
  rw [hnone, Option.getD_none] at hsum
  have hsupply := hok.supply_eq
  exact ⟨hok.sorted.alter, by dsimp only; omega⟩

theorem PoolOK.buyMoreTokens (hok : PoolOK pool)
    (h : buyMoreTokens registries platform config pool payment amount social_token ctx =
      .ok (pool', token', payments)) :
    PoolOK pool' := by
  obtain ⟨_, _, _, _, -, -, -, -, rfl, -⟩ := buyMoreTokens_eq_ok h
  have hsum := hok.sorted.valSum_alter (k := ctx.sender)
    (f := fun _ => (lookup ctx.sender pool.holders).getD 0 + amount)
  have hsupply := hok.supply_eq
  exact ⟨hok.sorted.alter, by dsimp only at hsum ⊢; omega⟩

theorem PoolOK.sellTokens (hok : PoolOK pool)
    (h : sellTokens registries platform config pool social_token amount ctx =
      .ok (pool', token', payments)) :
    PoolOK pool' := by
  obtain ⟨_, _, _, _, _, _, _, -, -, -, hsome, hholders, -, -, -, -, rfl, -⟩ :=
    sellTokens_eq_ok h
  obtain ⟨hsorted, hsum, -⟩ := sellHolders_eq_ok hok.sorted hsome hholders
  have hsupply := hok.supply_eq
  exact ⟨hsorted, by dsimp only; omega⟩

end trades

/-- Every trade keeps the ledger. -/
theorem PoolOK.apply {pool pool' : TokenPool} {token : SocialToken} {payments : Payments}
    (hok : PoolOK pool) {registries : Registries} {config : SocialProofTokensConfig}
    {ctx : TxContext} {call : TradeCall}
    (h : apply registries config pool ctx call = .ok (pool', token, payments)) : PoolOK pool' := by
  cases call with
  | buy_tokens => exact hok.buyFirstTokens h
  | buy_tokens_with_platform => exact hok.buyFirstTokens h
  | buy_more_tokens => exact hok.buyMoreTokens h
  | buy_more_tokens_with_platform => exact hok.buyMoreTokens h
  | sell_tokens => exact hok.sellTokens h
  | sell_tokens_with_platform => exact hok.sellTokens h

/-- The ledger holds after every run of trades from a pool where it
holds. -/
theorem PoolOK.run {pool : TokenPool} (hok : PoolOK pool)
    (calls : List (Registries × SocialProofTokensConfig × TxContext × TradeCall)) :
    PoolOK (run pool calls) := by
  refine ExceptFold.foldl_inv PoolOK hok fun p call _ hp => ?_
  unfold step
  split
  · next h => exact hp.apply h
  · exact hp

-- ============================================================ where the MYSO goes

section balances

variable {registries : Registries} {platform : Option PlatformView}
  {config : SocialProofTokensConfig} {pool pool' : TokenPool}
  {social_token token' : SocialToken} {payment amount : ℕ} {ctx : TxContext}
  {payments : Payments}

/-- A first purchase's MYSO: the payment and the pool's balance before
are the pool's balance after and the coins sent out. -/
theorem buyFirstTokens_conserves
    (h : buyFirstTokens registries platform config pool payment amount ctx =
      .ok (pool', token', payments)) :
    payment + pool.myso_balance = pool'.myso_balance + paid payments := by
  obtain ⟨_, _, _, _, -, hfees, hpay, -, rfl, -⟩ := buyFirstTokens_eq_ok h
  exact (payForBuy_eq_ok (tradingFees_eq_ok hfees).2.2 hpay).2

theorem buyMoreTokens_conserves
    (h : buyMoreTokens registries platform config pool payment amount social_token ctx =
      .ok (pool', token', payments)) :
    payment + pool.myso_balance = pool'.myso_balance + paid payments := by
  obtain ⟨_, _, _, _, -, hfees, hpay, -, rfl, -⟩ := buyMoreTokens_eq_ok h
  exact (payForBuy_eq_ok (tradingFees_eq_ok hfees).2.2 hpay).2

/-- A sale's MYSO: the pool's balance before is its balance after and
the coins sent out, the seller's and the fee's. -/
theorem sellTokens_conserves
    (h : sellTokens registries platform config pool social_token amount ctx =
      .ok (pool', token', payments)) :
    pool.myso_balance = pool'.myso_balance + paid payments := by
  obtain ⟨refund, _, fees, _, _, _, _, -, hfees, hle, -, -, hdist, rfl, -, -, rfl, -⟩ :=
    sellTokens_eq_ok h
  obtain ⟨-, hfee_le, hparts⟩ := tradingFees_eq_ok hfees
  obtain ⟨hv, hp⟩ := distributeFees_eq_ok distribute_creator_fee_eq_ok hparts hdist
  simp only [paid_append, paid_cons, paid_nil]
  omega

/-- A purchase keeps the price net of its fee in the pool. -/
theorem buyFirstTokens_balance
    (h : buyFirstTokens registries platform config pool payment amount ctx =
      .ok (pool', token', payments)) :
    ∃ price avg fees,
      calculate_buy_price pool.info.base_price pool.info.quadratic_coefficient
        pool.info.circulating_supply amount = .ok (price, avg) ∧
      tradingFees config price = .ok fees ∧
      pool'.myso_balance + fees.fee_amount = pool.myso_balance + price ∧
      pool'.info = { pool.info with circulating_supply := pool.info.circulating_supply + amount } := by
  obtain ⟨price, avg, fees, _, hprice, hfees, hpay, -, rfl, -⟩ := buyFirstTokens_eq_ok h
  obtain ⟨-, hfee_le, hparts⟩ := tradingFees_eq_ok hfees
  have hbal := (payForBuy_eq_ok hparts hpay).1
  exact ⟨price, avg, fees, hprice, hfees, by dsimp only; omega, rfl⟩

theorem buyMoreTokens_balance
    (h : buyMoreTokens registries platform config pool payment amount social_token ctx =
      .ok (pool', token', payments)) :
    ∃ price avg fees,
      calculate_buy_price pool.info.base_price pool.info.quadratic_coefficient
        pool.info.circulating_supply amount = .ok (price, avg) ∧
      tradingFees config price = .ok fees ∧
      pool'.myso_balance + fees.fee_amount = pool.myso_balance + price ∧
      pool'.info = { pool.info with circulating_supply := pool.info.circulating_supply + amount } := by
  obtain ⟨price, avg, fees, _, hprice, hfees, hpay, -, rfl, -⟩ := buyMoreTokens_eq_ok h
  obtain ⟨-, hfee_le, hparts⟩ := tradingFees_eq_ok hfees
  have hbal := (payForBuy_eq_ok hparts hpay).1
  exact ⟨price, avg, fees, hprice, hfees, by dsimp only; omega, rfl⟩

/-- A sale takes its whole refund out of the pool. -/
theorem sellTokens_balance
    (h : sellTokens registries platform config pool social_token amount ctx =
      .ok (pool', token', payments)) :
    ∃ refund avg,
      calculate_sell_price pool.info.base_price pool.info.quadratic_coefficient
        pool.info.circulating_supply amount = .ok (refund, avg) ∧
      pool'.myso_balance + refund = pool.myso_balance := by
  obtain ⟨refund, avg, fees, _, _, _, _, hrefund, hfees, hle, -, -, hdist, -, -, -, rfl, -⟩ :=
    sellTokens_eq_ok h
  obtain ⟨-, hfee_le, hparts⟩ := tradingFees_eq_ok hfees
  have hv := (distributeFees_eq_ok distribute_creator_fee_eq_ok hparts hdist).1
  exact ⟨refund, avg, hrefund, by dsimp only; omega⟩

end balances

-- ============================================================ a post token's pool

/-- The source's default configuration once the kill switch has turned
trading on: a trade's fee is 1.5 %, 1 % of it the creator's. -/
def tradingConfig : SocialProofTokensConfig :=
  ⟨100, 25, 25, 100, 25, 25, 100000000, 100000, 500, 1000000000000, 10000000000000, 2000, 1000,
    true⟩

/-- Registries where everyone has a profile and nobody blocks anyone. -/
def openRegistries : Registries := ⟨fun _ => true, fun _ _ => false⟩

/-- A post token's pool (at address 50) at a supply of a thousand
tokens, all its owner's (address 7), holding a thousand MYSO. -/
def postPool : TokenPool :=
  ⟨50, ⟨TOKEN_TYPE_POST, 7, 40, 1000, 100000000, 100000⟩, 1000000000000, [(7, 1000)], none, none⟩

/-- The pool once address 3 has bought ten tokens. -/
def postPoolBought : TokenPool :=
  { postPool with
    info := { postPool.info with circulating_supply := 1010 }
    myso_balance := 1001084389308
    holders := [(3, 10), (7, 1000)] }

/-- The pool once address 3 has sold the ten back. -/
def postPoolSold : TokenPool := { postPool with myso_balance := 999983486458 }

/-- The MYSO a trade brings in: a buy's payment; a sale brings none. -/
def TradeCall.payment : TradeCall → ℕ
  | .buy_tokens payment _ => payment
  | .buy_tokens_with_platform _ payment _ => payment
  | .buy_more_tokens payment _ _ => payment
  | .buy_more_tokens_with_platform _ payment _ _ => payment
  | .sell_tokens _ _ => 0
  | .sell_tokens_with_platform _ _ _ => 0

/-- No trade makes or loses MYSO: what it brings in and the pool's
balance before are the pool's balance after and the coins it sends
out. -/
theorem apply_conserves {registries : Registries} {config : SocialProofTokensConfig}
    {pool pool' : TokenPool} {ctx : TxContext} {call : TradeCall} {token : SocialToken}
    {payments : Payments} (h : apply registries config pool ctx call = .ok (pool', token, payments)) :
    call.payment + pool.myso_balance = pool'.myso_balance + paid payments := by
  cases call with
  | buy_tokens => exact buyFirstTokens_conserves h
  | buy_tokens_with_platform => exact buyFirstTokens_conserves h
  | buy_more_tokens => exact buyMoreTokens_conserves h
  | buy_more_tokens_with_platform => exact buyMoreTokens_conserves h
  | sell_tokens => simpa [TradeCall.payment] using sellTokens_conserves h
  | sell_tokens_with_platform => simpa [TradeCall.payment] using sellTokens_conserves h

theorem post_pool_trades_conserve :
    ∃ pool' token payments,
      apply openRegistries tradingConfig postPool ⟨3, 0, 0⟩ (.buy_tokens 2000000000 10) =
        .ok (pool', token, payments) ∧
      (TradeCall.buy_tokens 2000000000 10).payment + postPool.myso_balance =
        pool'.myso_balance + paid payments := by
  have h := (rfl : apply openRegistries tradingConfig postPool ⟨3, 0, 0⟩ (.buy_tokens 2000000000 10) =
    .ok (postPoolBought, ⟨50, TOKEN_TYPE_POST, 10⟩, _))
  exact ⟨_, _, _, h, apply_conserves h⟩

-- ============================================================ the round trip

section roundTrip

variable {registries registries' : Registries} {platform platform' : Option PlatformView}
  {config config' : SocialProofTokensConfig} {pool pool₁ pool₂ : TokenPool}
  {social_token sold_token token₁ token₂ : SocialToken} {payment amount : ℕ}
  {ctx ctx' : TxContext} {payments₁ payments₂ : Payments}

/-- A sale of what a buy just sold refunds the buy's price: the pool
that sold `amount` past its supply buys them back over the same
supplies. -/
theorem sell_after_buy_balance {price avg : ℕ}
    (hinfo : pool₁.info =
      { pool.info with circulating_supply := pool.info.circulating_supply + amount })
    (hprice : calculate_buy_price pool.info.base_price pool.info.quadratic_coefficient
      pool.info.circulating_supply amount = .ok (price, avg))
    (hsell : sellTokens registries' platform' config' pool₁ sold_token amount ctx' =
      .ok (pool₂, token₂, payments₂)) :
    pool₂.myso_balance + price = pool₁.myso_balance := by
  obtain ⟨refund, avg', hrefund, hbal⟩ := sellTokens_balance hsell
  rw [hinfo] at hrefund
  dsimp only at hrefund
  rw [calculate_sell_price_add, hprice] at hrefund
  -- the refund is the price
  obtain ⟨rfl, -⟩ := Prod.mk.inj (Except.ok.inj hrefund)
  exact hbal

/-- The sale of the tokens a first purchase has just sold leaves the
pool short by the purchase's fee, whatever the configurations and the
callers of the two trades. -/
theorem buy_sell_round_trip
    (hbuy : buyFirstTokens registries platform config pool payment amount ctx =
      .ok (pool₁, token₁, payments₁))
    (hsell : sellTokens registries' platform' config' pool₁ sold_token amount ctx' =
      .ok (pool₂, token₂, payments₂)) :
    ∃ price avg fees,
      calculate_buy_price pool.info.base_price pool.info.quadratic_coefficient
        pool.info.circulating_supply amount = .ok (price, avg) ∧
      tradingFees config price = .ok fees ∧
      pool₂.myso_balance + fees.fee_amount = pool.myso_balance := by
  obtain ⟨price, avg, fees, hprice, hfees, hbuy_bal, hinfo⟩ := buyFirstTokens_balance hbuy
  have hsell_bal := sell_after_buy_balance hinfo hprice hsell
  exact ⟨price, avg, fees, hprice, hfees, by omega⟩

theorem post_pool_round_trip :
    ∃ price avg fees,
      calculate_buy_price postPool.info.base_price postPool.info.quadratic_coefficient
        postPool.info.circulating_supply 10 = .ok (price, avg) ∧
      tradingFees tradingConfig price = .ok fees ∧
      postPoolSold.myso_balance + fees.fee_amount = postPool.myso_balance :=
  buy_sell_round_trip
    (rfl : buyFirstTokens openRegistries none tradingConfig postPool 2000000000 10 ⟨3, 0, 0⟩ =
      .ok (postPoolBought, ⟨50, TOKEN_TYPE_POST, 10⟩, _))
    (rfl : sellTokens openRegistries none tradingConfig postPoolBought ⟨50, TOKEN_TYPE_POST, 10⟩ 10
      ⟨3, 0, 0⟩ = .ok (postPoolSold, ⟨50, TOKEN_TYPE_POST, 0⟩, _))

theorem buy_more_sell_round_trip
    (hbuy : buyMoreTokens registries platform config pool payment amount social_token ctx =
      .ok (pool₁, token₁, payments₁))
    (hsell : sellTokens registries' platform' config' pool₁ sold_token amount ctx' =
      .ok (pool₂, token₂, payments₂)) :
    ∃ price avg fees,
      calculate_buy_price pool.info.base_price pool.info.quadratic_coefficient
        pool.info.circulating_supply amount = .ok (price, avg) ∧
      tradingFees config price = .ok fees ∧
      pool₂.myso_balance + fees.fee_amount = pool.myso_balance := by
  obtain ⟨price, avg, fees, hprice, hfees, hbuy_bal, hinfo⟩ := buyMoreTokens_balance hbuy
  have hsell_bal := sell_after_buy_balance hinfo hprice hsell
  exact ⟨price, avg, fees, hprice, hfees, by omega⟩

theorem post_pool_buy_more_round_trip :
    ∃ price avg fees,
      calculate_buy_price postPoolBought.info.base_price postPoolBought.info.quadratic_coefficient
        postPoolBought.info.circulating_supply 5 = .ok (price, avg) ∧
      tradingFees tradingConfig price = .ok fees ∧
      ({ postPoolBought with myso_balance := 1001076121199 } : TokenPool).myso_balance +
        fees.fee_amount = postPoolBought.myso_balance :=
  buy_more_sell_round_trip
    (rfl : buyMoreTokens openRegistries none tradingConfig postPoolBought 2000000000 5
      ⟨50, TOKEN_TYPE_POST, 10⟩ ⟨3, 0, 0⟩ =
        .ok ({ postPoolBought with
            info := { postPoolBought.info with circulating_supply := 1015 }
            myso_balance := 1001627328499
            holders := [(3, 15), (7, 1000)] }, ⟨50, TOKEN_TYPE_POST, 15⟩, _))
    (rfl : sellTokens openRegistries none tradingConfig
      { postPoolBought with
        info := { postPoolBought.info with circulating_supply := 1015 }
        myso_balance := 1001627328499
        holders := [(3, 15), (7, 1000)] } ⟨50, TOKEN_TYPE_POST, 15⟩ 5 ⟨3, 0, 0⟩ =
      .ok ({ postPoolBought with myso_balance := 1001076121199 }, ⟨50, TOKEN_TYPE_POST, 10⟩, _))

end roundTrip

theorem round_trip_drains_pool :
    buy_tokens openRegistries tradingConfig postPool 2000000000 10 ⟨3, 0, 0⟩ =
        .ok (postPoolBought, ⟨50, TOKEN_TYPE_POST, 10⟩,
          [(.address 7, 11009028), (.treasury, 2752257), (.treasury, 2752257),
            (.address 3, 899097150)]) ∧
      sell_tokens openRegistries tradingConfig postPoolBought ⟨50, TOKEN_TYPE_POST, 10⟩ 10
          ⟨3, 0, 0⟩ =
        .ok (postPoolSold, ⟨50, TOKEN_TYPE_POST, 0⟩,
          [(.address 7, 11009028), (.treasury, 2752257), (.treasury, 2752257),
            (.address 3, 1084389308)]) ∧
      postPoolSold.holders = postPool.holders ∧
      postPoolSold.info = postPool.info ∧
      postPoolSold.myso_balance + 16513542 = postPool.myso_balance :=
  ⟨by rfl, by rfl, rfl, rfl, rfl⟩

end MysoCore.Social.SocialProofTokens
