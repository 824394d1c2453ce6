/-
The ledger of a reservation pool, over every run of reservations and
withdrawals before its conversion, and what the conversion hands out.

# The ledger

The reservers list holds exactly the keys of the reservations table
(`LedgerOK.reservers_perm`), so each reserver once, and the table sums
to the pool's total, which the registry's entry mirrors. A reservation
adds its net amount to the reserver's entry, the total and the balance;
a plain withdrawal takes its amount off all three. The platform's
withdrawal does not keep the balance with the other two: it pays its
fee out of the pool and lowers the entry and the total by the amount net
of the fee only (`withdraw_reservation_with_platform_eq_ok`). So the
balance stays at most the total (`LedgerOK.myso_le`), and equal to it
only over runs with no such withdrawal (`Balanced`).

# The conversion

Since the reservers are the table's keys once each, the shares
`reservation * supply / total_reserved` rounded down sum to at most the
supply (`Shares.sum_mul_div_le`): the remainder the owner gets is what
they leave, the new pool's supply is the initial supply, and its holders
table sums to it.
-/
import MysoCore.Social.SocialProofTokens.Reservation
import MysoCore.Social.SocialProofTokens.Trading

namespace MysoCore.Social.SocialProofTokens

open SortedMap ExceptFold

-- ============================================================ the tables

section tables

variable {config : SocialProofTokensConfig} {pool : ReservationPoolObject}
  {reservations : List (ℕ × ℕ)} {reservers : List ℕ} {reserver net_amount : ℕ}

/-- A reservation keeps the reservers the table's keys, and adds its
net amount to the table's sum. -/
theorem addReservation_eq_ok (hs : Sorted pool.reservations)
    (hperm : pool.reservers.Perm (keys pool.reservations))
    (h : addReservation config pool reserver net_amount = .ok (reservations, reservers)) :
    Sorted reservations ∧ reservers.Perm (keys reservations) ∧
      valSum reservations = valSum pool.reservations + net_amount := by
  unfold addReservation at h
  split at h
  · next reservation_balance hsome =>
      -- the reserver has an entry: it grows, and the keys stay
      simp only [require_bind_eq_ok, pure_eq_ok, Prod.mk.injEq] at h
      obtain ⟨-, rfl, rfl⟩ := h
      have hmem : reserver ∈ keys pool.reservations :=
        mem_keys.mpr ⟨_, mem_of_lookup_eq_some hsome⟩
      have hsum := hs.valSum_alter (k := reserver)
        (f := fun _ => reservation_balance + net_amount)
      rw [hsome, Option.getD_some] at hsum
      exact ⟨hs.alter, by rw [hs.keys_alter_of_mem hmem]; exact hperm, by omega⟩
  · next hnone =>
      -- a new reserver: a new key, at the end of the list
      simp only [require_bind_eq_ok] at h
      obtain ⟨-, h⟩ := h
      obtain ⟨reservations', hadd, h⟩ := bind_eq_ok h
      simp only [pure_eq_ok, Prod.mk.injEq] at h
      obtain ⟨rfl, rfl⟩ := h
      obtain ⟨-, rfl⟩ := table_add_eq_ok hadd
      have hkey := keys_alter_perm_of_not_mem (f := fun _ => net_amount)
        (hs.not_mem_keys_of_lookup_eq_none hnone)
      have hsum := hs.valSum_alter (k := reserver) (f := fun _ => net_amount)
      rw [hnone, Option.getD_none] at hsum
      exact ⟨hs.alter, (List.perm_append_singleton reserver _).trans ((hperm.cons reserver).trans
        hkey.symm), by omega⟩

/-- A withdrawal of at most the reserver's entry keeps the reservers the
table's keys, and takes its amount off the table's sum. -/
theorem removeReservation_eq (hs : Sorted pool.reservations)
    (hperm : pool.reservers.Perm (keys pool.reservations)) {current_reservation amount : ℕ}
    (hsome : lookup reserver pool.reservations = some current_reservation)
    (hle : amount ≤ current_reservation) :
    Sorted (removeReservation pool reserver current_reservation amount).1 ∧
      (removeReservation pool reserver current_reservation amount).2.Perm
        (keys (removeReservation pool reserver current_reservation amount).1) ∧
      valSum (removeReservation pool reserver current_reservation amount).1 + amount =
        valSum pool.reservations := by
  unfold removeReservation
  split_ifs with hall
  · -- the entry goes, and the reserver's one place in the list
    dsimp only
    have hsum := hs.valSum_eraseKey (k := reserver)
    rw [hsome, Option.getD_some] at hsum
    have hkeys : (pool.reservers.erase reserver).Perm (keys (eraseKey reserver pool.reservations)) := by
      rw [keys_eraseKey, ← hs.nodup_keys.erase_eq_filter]
      exact hperm.erase reserver
    exact ⟨hs.eraseKey, hkeys, by omega⟩
  · dsimp only
    have hmem : reserver ∈ keys pool.reservations :=
      mem_keys.mpr ⟨_, mem_of_lookup_eq_some hsome⟩
    have hsum := hs.valSum_alter (k := reserver) (f := fun _ => current_reservation - amount)
    rw [hsome, Option.getD_some] at hsum
    exact ⟨hs.alter, by rw [hs.keys_alter_of_mem hmem]; exact hperm, by omega⟩

end tables

-- ============================================================ the registry

section registry

variable {registry : TokenRegistry}

theorem sorted_registryMirror (hs : Sorted registry.reservation_pools) (associated_id total : ℕ) :
    Sorted (registryMirror registry associated_id total).reservation_pools := by
  unfold registryMirror
  split
  · exact hs.alter
  · exact hs

/-- After a mirror the registry's entry, if there is one, has the total. -/
theorem registryMirror_total (hs : Sorted registry.reservation_pools) {associated_id total : ℕ}
    {e : ReservationPool}
    (he : lookup associated_id (registryMirror registry associated_id total).reservation_pools =
      some e) :
    e.total_reserved = total := by
  unfold registryMirror at he
  split at he
  · rw [hs.lookup_alter_self] at he
    cases he
    rfl
  · next hnone => rw [hnone] at he; cases he

theorem sorted_registryReserve (hs : Sorted registry.reservation_pools) (target : ReservationTarget)
    (config : SocialProofTokensConfig) (info : ReservationPool) :
    Sorted (registryReserve registry target config info).reservation_pools := by
  unfold registryReserve
  split
  · exact sorted_registryMirror hs _ _
  · exact hs.alter

theorem registryReserve_total (hs : Sorted registry.reservation_pools) {target : ReservationTarget}
    {config : SocialProofTokensConfig} {info : ReservationPool} {e : ReservationPool}
    (he : lookup info.associated_id (registryReserve registry target config info).reservation_pools =
      some e) :
    e.total_reserved = info.total_reserved := by
  unfold registryReserve at he
  split at he
  · exact registryMirror_total hs he
  · rw [hs.lookup_alter_self] at he
    cases he
    rfl

end registry

-- ============================================================ what a call does

section calls

variable {target : ReservationTarget} {platform : Option PlatformView}
  {config : SocialProofTokensConfig} {registry registry' : TokenRegistry}
  {pool pool' : ReservationPoolObject} {payment amount : ℕ} {ctx : TxContext}
  {payments : Payments}

/-- What a reservation does: its net amount goes into the reserver's
entry, the total and the balance, and the registry's entry takes the
new total. -/
theorem reserveTowards_eq_ok
    (h : reserveTowards target platform config registry pool payment amount ctx =
      .ok (registry', pool', payments)) :
    pool.converted = false ∧ ∃ net_amount reservations reservers,
      addReservation config pool ctx.sender net_amount = .ok (reservations, reservers) ∧
      pool' = { pool with
        info := { pool.info with total_reserved := pool.info.total_reserved + net_amount }
        myso_balance := pool.myso_balance + net_amount
        reservations
        reservers } ∧
      registry' = registryReserve registry target config
        { pool.info with total_reserved := pool.info.total_reserved + net_amount } := by
  unfold reserveTowards at h
  simp only [require_bind_eq_ok] at h
  obtain ⟨-, hconv, -, h⟩ := h
  obtain ⟨_, -, h⟩ := bind_eq_ok h
  simp only [require_bind_eq_ok] at h
  obtain ⟨-, h⟩ := h
  obtain ⟨_, -, h⟩ := bind_eq_ok h
  obtain ⟨_, -, h⟩ := bind_eq_ok h
  obtain ⟨fee_amount, -, h⟩ := bind_eq_ok h
  obtain ⟨net_amount, -, h⟩ := bind_eq_ok h
  obtain ⟨⟨remaining, fees, fee_payments⟩, -, h⟩ := bind_eq_ok h
  simp only [require_bind_eq_ok, balance_split_bind_eq_ok] at h
  obtain ⟨-, -, h⟩ := h
  obtain ⟨⟨reservations, reservers⟩, hadd, h⟩ := bind_eq_ok h
  simp only [require_bind_eq_ok, pure_eq_ok, Prod.mk.injEq] at h
  obtain ⟨-, rfl, rfl, -⟩ := h
  exact ⟨by simpa using hconv, net_amount, reservations, reservers, hadd, rfl, rfl⟩

/-- What a plain withdrawal does: its amount, at most the reserver's
entry and the balance, comes off the entry, the total and the balance,
and goes to the reserver. -/
theorem withdraw_reservation_eq_ok
    (h : withdraw_reservation registry pool amount ctx = .ok (registry', pool', payments)) :
    pool.converted = false ∧ ∃ current_reservation reservations reservers,
      lookup ctx.sender pool.reservations = some current_reservation ∧
      amount ≤ current_reservation ∧ amount ≤ pool.myso_balance ∧
      removeReservation pool ctx.sender current_reservation amount = (reservations, reservers) ∧
      pool' = { pool with
        info := { pool.info with total_reserved := pool.info.total_reserved - amount }
        myso_balance := pool.myso_balance - amount
        reservations
        reservers } ∧
      registry' = registryMirror registry pool.info.associated_id
        (pool.info.total_reserved - amount) ∧
      payments = [(.address ctx.sender, amount)] := by
  unfold withdraw_reservation at h
  simp only [require_bind_eq_ok] at h
  obtain ⟨hconv, -, h⟩ := h
  refine ⟨by simpa using hconv, ?_⟩
  split at h
  · simp at h
  · next current_reservation hsome =>
      simp only [require_bind_eq_ok] at h
      obtain ⟨hle, hbal, h⟩ := h
      rcases hr : removeReservation pool ctx.sender current_reservation amount with
        ⟨reservations, reservers⟩
      rw [hr] at h
      simp only [balance_split_bind_eq_ok, pure_eq_ok, Prod.mk.injEq] at h
      obtain ⟨-, rfl, rfl, rfl⟩ := h
      exact ⟨current_reservation, reservations, reservers, hsome, hle, hbal, hr, rfl, rfl, rfl⟩

/-- What a platform withdrawal does: the fee on the gross amount and
the amount net of it come out of the balance, the net amount only off
the reserver's entry and the total. -/
theorem withdraw_reservation_with_platform_eq_ok {platform : PlatformView}
    (h : withdraw_reservation_with_platform registry config pool platform amount ctx =
      .ok (registry', pool', payments)) :
    pool.converted = false ∧ ∃ current_reservation fees reservations reservers myso_balance
        fee_payments,
      lookup ctx.sender pool.reservations = some current_reservation ∧
      reservationFees config amount = .ok fees ∧
      amount - fees.fee_amount ≤ current_reservation ∧ amount ≤ pool.myso_balance ∧
      removeReservation pool ctx.sender current_reservation (amount - fees.fee_amount) =
        (reservations, reservers) ∧
      distributeFees (fun creator_fee value => sendPart value (.address pool.info.owner) creator_fee)
        (some platform) fees pool.myso_balance = .ok (myso_balance, fee_payments) ∧
      amount - fees.fee_amount ≤ myso_balance ∧
      pool' = { pool with
        info := { pool.info with
          total_reserved := pool.info.total_reserved - (amount - fees.fee_amount) }
        myso_balance := myso_balance - (amount - fees.fee_amount)
        reservations
        reservers } ∧
      registry' = registryMirror registry pool.info.associated_id
        (pool.info.total_reserved - (amount - fees.fee_amount)) ∧
      payments = fee_payments ++ [(.address ctx.sender, amount - fees.fee_amount)] := by
  unfold withdraw_reservation_with_platform at h
  simp only [require_bind_eq_ok] at h
  obtain ⟨hconv, -, h⟩ := h
  refine ⟨by simpa using hconv, ?_⟩
  obtain ⟨_, -, h⟩ := bind_eq_ok h
  split at h
  · simp at h
  · next current_reservation hsome =>
      obtain ⟨fees, hfees, h⟩ := bind_eq_ok h
      simp only [require_bind_eq_ok] at h
      obtain ⟨hle, hbal, h⟩ := h
      rcases hr : removeReservation pool ctx.sender current_reservation
        (amount - fees.fee_amount) with ⟨reservations, reservers⟩
      rw [hr] at h
      obtain ⟨⟨myso_balance, fee_payments⟩, hdist, h⟩ := bind_eq_ok h
      simp only [balance_split_bind_eq_ok, pure_eq_ok, Prod.mk.injEq] at h
      obtain ⟨hnet, rfl, rfl, rfl⟩ := h
      exact ⟨current_reservation, fees, reservations, reservers, myso_balance, fee_payments,
        hsome, hfees, hle, hbal, hr, hdist, hnet, rfl, rfl, rfl⟩

end calls

theorem reservationFees_eq_ok {config : SocialProofTokensConfig} {amount : ℕ} {fees : TradingFees}
    (h : reservationFees config amount = .ok fees) :
    fees.fee_amount = amount * calculate_reservation_total_fee_bps config / 10000 ∧
      fees.fee_amount ≤ amount ∧
      fees.creator_fee + fees.platform_fee + fees.treasury_fee = fees.fee_amount := by
  unfold reservationFees validate_reservation_fees at h
  simp only [require_bind_eq_ok] at h
  obtain ⟨⟨-, htotal⟩, h⟩ := h
  exact splitFee_eq_ok (by unfold calculate_reservation_total_fee_bps; omega) htotal h

-- ============================================================ the ledger over runs

/-- A reservation pool's ledger, with the registry's entry for it. -/
structure LedgerOK (registry : TokenRegistry) (pool : ReservationPoolObject) : Prop where
  sorted : Sorted pool.reservations
  reservers_perm : pool.reservers.Perm (keys pool.reservations)
  total_eq : valSum pool.reservations = pool.info.total_reserved
  myso_le : pool.myso_balance ≤ pool.info.total_reserved
  sorted_registry : Sorted registry.reservation_pools
  mirrors : ∀ e, lookup pool.info.associated_id registry.reservation_pools = some e →
    e.total_reserved = pool.info.total_reserved

section ledger

variable {target : ReservationTarget} {platform : Option PlatformView}
  {config : SocialProofTokensConfig} {registry registry' : TokenRegistry}
  {pool pool' : ReservationPoolObject} {payment amount : ℕ} {ctx : TxContext}
  {payments : Payments}

/-- Each reserver is in the list once. -/
theorem LedgerOK.reservers_nodup (hok : LedgerOK registry pool) : pool.reservers.Nodup :=
  hok.reservers_perm.nodup_iff.mpr hok.sorted.nodup_keys

/-- A freshly opened pool has the ledger. -/
theorem createReservationPool_ledger (hs : Sorted registry.reservation_pools) {associated_id owner : ℕ}
    (h : createReservationPool target config registry associated_id owner ctx = .ok (registry', pool')) :
    LedgerOK registry' pool' := by
  unfold createReservationPool at h
  simp only [require_bind_eq_ok, pure_eq_ok, Prod.mk.injEq] at h
  obtain ⟨-, -, -, rfl, rfl⟩ := h
  refine ⟨by simp [Sorted], by simp, rfl, le_refl 0, hs.alter, fun e he => ?_⟩
  rw [hs.lookup_alter_self] at he
  cases he
  rfl

theorem LedgerOK.reserveTowards (hok : LedgerOK registry pool)
    (h : reserveTowards target platform config registry pool payment amount ctx =
      .ok (registry', pool', payments)) :
    LedgerOK registry' pool' := by
  obtain ⟨-, net_amount, reservations, reservers, hadd, rfl, rfl⟩ := reserveTowards_eq_ok h
  obtain ⟨hs, hperm, hsum⟩ := addReservation_eq_ok hok.sorted hok.reservers_perm hadd
  have htotal := hok.total_eq
  have hmyso := hok.myso_le
  exact ⟨hs, hperm, by dsimp only; omega, by dsimp only; omega,
    sorted_registryReserve hok.sorted_registry _ _ _,
    fun e he => registryReserve_total hok.sorted_registry he⟩

theorem LedgerOK.withdraw_reservation (hok : LedgerOK registry pool)
    (h : withdraw_reservation registry pool amount ctx = .ok (registry', pool', payments)) :
    LedgerOK registry' pool' := by
  obtain ⟨-, current_reservation, reservations, reservers, hsome, hle, -, hr, rfl, rfl, -⟩ :=
    withdraw_reservation_eq_ok h
  obtain ⟨hs, hperm, hsum⟩ := removeReservation_eq hok.sorted hok.reservers_perm hsome hle
  rw [hr] at hs hperm hsum
  dsimp only at hs hperm hsum
  have htotal := hok.total_eq
  have hmyso := hok.myso_le
  exact ⟨hs, hperm, by dsimp only; omega, by dsimp only; omega,
    sorted_registryMirror hok.sorted_registry _ _,
    fun e he => registryMirror_total hok.sorted_registry he⟩

/-- A platform withdrawal takes the gross amount out of the balance and
only the amount net of its fee off the total. -/
theorem withdraw_reservation_with_platform_drift {platform : PlatformView}
    (h : withdraw_reservation_with_platform registry config pool platform amount ctx =
      .ok (registry', pool', payments)) :
    ∃ fees, reservationFees config amount = .ok fees ∧
      pool'.myso_balance + amount = pool.myso_balance ∧
      pool'.info.total_reserved = pool.info.total_reserved - (amount - fees.fee_amount) := by
  obtain ⟨-, _, fees, _, _, myso_balance, _, -, hfees, -, hbal, -, hdist, hnet, rfl, -, -⟩ :=
    withdraw_reservation_with_platform_eq_ok h
  obtain ⟨-, hfee_le, hparts⟩ := reservationFees_eq_ok hfees
  -- the creator's part goes straight to the owner, out of the pool
  have hv := (distributeFees_eq_ok (fun h => sendPart_eq_ok h) hparts hdist).1
  exact ⟨fees, hfees, by dsimp only; omega, rfl⟩

theorem LedgerOK.withdraw_reservation_with_platform {platform : PlatformView}
    (hok : LedgerOK registry pool)
    (h : withdraw_reservation_with_platform registry config pool platform amount ctx =
      .ok (registry', pool', payments)) :
    LedgerOK registry' pool' := by
  obtain ⟨_, -, hbal, -⟩ := withdraw_reservation_with_platform_drift h
  obtain ⟨-, current_reservation, fees', reservations, reservers, _, _, hsome, hfees', hle, -, hr,
    -, -, hpool, rfl, -⟩ := withdraw_reservation_with_platform_eq_ok h
  obtain ⟨hs, hperm, hsum⟩ := removeReservation_eq hok.sorted hok.reservers_perm hsome hle
  rw [hr] at hs hperm hsum
  dsimp only at hs hperm hsum
  have htotal := hok.total_eq
  have hmyso := hok.myso_le
  subst hpool
  exact ⟨hs, hperm, by dsimp only; omega, by dsimp only at hbal ⊢; omega,
    sorted_registryMirror hok.sorted_registry _ _,
    fun e he => registryMirror_total hok.sorted_registry he⟩

end ledger

/-- Every call keeps the ledger. -/
theorem LedgerOK.applyReservation {config : SocialProofTokensConfig}
    {registry registry' : TokenRegistry} {pool pool' : ReservationPoolObject} {ctx : TxContext}
    {call : ReservationCall} {payments : Payments} (hok : LedgerOK registry pool)
    (h : applyReservation config registry pool ctx call = .ok (registry', pool', payments)) :
    LedgerOK registry' pool' := by
  cases call with
  | reserve => exact hok.reserveTowards h
  | withdraw_reservation => exact hok.withdraw_reservation h
  | withdraw_reservation_with_platform => exact hok.withdraw_reservation_with_platform h

/-- The ledger holds after every run of calls from a state where it
holds. -/
theorem LedgerOK.reservationRun {s : TokenRegistry × ReservationPoolObject}
    (hok : LedgerOK s.1 s.2) (calls : List (SocialProofTokensConfig × TxContext × ReservationCall)) :
    LedgerOK (reservationRun s calls).1 (reservationRun s calls).2 := by
  refine ExceptFold.foldl_inv (fun s : TokenRegistry × ReservationPoolObject => LedgerOK s.1 s.2)
    hok fun s call _ hs => ?_
  unfold reservationStep
  split
  · next h => exact hs.applyReservation h
  · exact hs

/-- From a pool its owner has just opened, every run of reservations and
withdrawals keeps the ledger. -/
theorem opened_pool_ledger {target : ReservationTarget} {config : SocialProofTokensConfig}
    {registry : TokenRegistry} {s : TokenRegistry × ReservationPoolObject}
    {associated_id owner : ℕ} {ctx : TxContext} (hs : Sorted registry.reservation_pools)
    (h : createReservationPool target config registry associated_id owner ctx = .ok s)
    (calls : List (SocialProofTokensConfig × TxContext × ReservationCall)) :
    LedgerOK (reservationRun s calls).1 (reservationRun s calls).2 :=
  LedgerOK.reservationRun (createReservationPool_ledger hs h) calls

/-- The calls that keep the pool's balance with its total: all but the
platform's withdrawal. -/
def ReservationCall.keepsBalance : ReservationCall → Bool
  | .withdraw_reservation_with_platform _ _ => false
  | _ => true

/-- The pool holds exactly its total. -/
def Balanced (pool : ReservationPoolObject) : Prop := pool.myso_balance = pool.info.total_reserved

theorem Balanced.applyReservation {config : SocialProofTokensConfig}
    {registry registry' : TokenRegistry} {pool pool' : ReservationPoolObject} {ctx : TxContext}
    {call : ReservationCall} {payments : Payments} (hb : Balanced pool)
    (hkeeps : call.keepsBalance = true)
    (h : applyReservation config registry pool ctx call = .ok (registry', pool', payments)) :
    Balanced pool' := by
  unfold Balanced at hb ⊢
  cases call with
  | reserve =>
      obtain ⟨-, _, _, _, -, rfl, -⟩ := reserveTowards_eq_ok h
      dsimp only
      omega
  | withdraw_reservation =>
      obtain ⟨-, _, _, _, -, -, -, -, rfl, -, -⟩ := withdraw_reservation_eq_ok h
      dsimp only
      omega
  | withdraw_reservation_with_platform => cases hkeeps

/-- Over a run with no platform withdrawal, a balanced pool stays
balanced. -/
theorem Balanced.reservationRun {s : TokenRegistry × ReservationPoolObject} (hb : Balanced s.2)
    {calls : List (SocialProofTokensConfig × TxContext × ReservationCall)}
    (hkeeps : ∀ c ∈ calls, c.2.2.keepsBalance = true) :
    Balanced (reservationRun s calls).2 := by
  refine ExceptFold.foldl_inv (fun s : TokenRegistry × ReservationPoolObject => Balanced s.2) hb
    fun s call hcall hs => ?_
  unfold reservationStep
  split
  · next h => exact hs.applyReservation (hkeeps call hcall) h
  · exact hs

-- ============================================================ the conversion

/-- A reserver's share of the initial supply, rounded down. -/
def shareOf (reservations : List (ℕ × ℕ)) (initial_token_supply total_reserved r : ℕ) : ℕ :=
  (lookup r reservations).getD 0 * initial_token_supply / total_reserved

section conversion

variable {reservations : List (ℕ × ℕ)}
  {pool_address token_type initial_token_supply total_reserved : ℕ}

/-- One turn of the loop, for a reserver not credited yet: its share,
when not zero, becomes its entry and counts to what is handed out; the
other entries stay. -/
theorem distributeShare_eq_ok {acc acc' : Distribution} {r : ℕ} (hs : Sorted acc.holders)
    (hnone : lookup r acc.holders = none)
    (h : distributeShare reservations pool_address token_type initial_token_supply total_reserved
      acc r = .ok acc') :
    Sorted acc'.holders ∧
      acc'.distributed_total =
        acc.distributed_total + shareOf reservations initial_token_supply total_reserved r ∧
      valSum acc'.holders =
        valSum acc.holders + shareOf reservations initial_token_supply total_reserved r ∧
      (lookup r acc'.holders).getD 0 = shareOf reservations initial_token_supply total_reserved r ∧
      ∀ k, k ≠ r → lookup k acc'.holders = lookup k acc.holders := by
  unfold distributeShare at h
  split at h
  · simp at h
  · next reservation_amount hsome =>
      have hshare : shareOf reservations initial_token_supply total_reserved r =
          reservation_amount * initial_token_supply / total_reserved := by
        simp [shareOf, hsome]
      rw [hshare]
      simp only [require_bind_eq_ok] at h
      obtain ⟨-, h⟩ := h
      split at h
      · -- a share to hand out: a new entry of it
        obtain ⟨holders, hcredit, h⟩ := bind_eq_ok h
        simp only [require_bind_eq_ok, pure_eq_ok] at h
        obtain ⟨-, rfl⟩ := h
        rw [creditHolder_eq_ok hcredit, hnone, Option.getD_none]
        have hsum := hs.valSum_alter (k := r)
          (f := fun _ => 0 + reservation_amount * initial_token_supply / total_reserved)
        rw [hnone, Option.getD_none] at hsum
        refine ⟨hs.alter, rfl, by dsimp only; omega, ?_, fun k hk => lookup_alter_of_ne hk⟩
        rw [hs.lookup_alter_self]
        simp
      · -- a share of nothing: nothing changes
        simp only [pure_eq_ok] at h
        subst h
        refine ⟨hs, by omega, by omega, ?_, fun _ _ => rfl⟩
        rw [hnone]
        simp only [Option.getD_none]
        omega

/-- The distribution loop over reservers none of whom is credited yet,
each once: each gets its share, and what is handed out grows by the sum
of the shares. -/
theorem foldlM_distributeShare :
    ∀ {rs : List ℕ} {acc acc' : Distribution}, rs.Nodup → Sorted acc.holders →
      (∀ r ∈ rs, lookup r acc.holders = none) →
      rs.foldlM (distributeShare reservations pool_address token_type initial_token_supply
        total_reserved) acc = .ok acc' →
      Sorted acc'.holders ∧
        acc'.distributed_total = acc.distributed_total +
          (rs.map (shareOf reservations initial_token_supply total_reserved)).sum ∧
        valSum acc'.holders = valSum acc.holders +
          (rs.map (shareOf reservations initial_token_supply total_reserved)).sum ∧
        ∀ k, (lookup k acc'.holders).getD 0 =
          (if k ∈ rs then shareOf reservations initial_token_supply total_reserved k else 0) +
            (lookup k acc.holders).getD 0
  | [], acc, acc', _, hs, _, h => by
      simp only [List.foldlM_nil, pure_eq_ok] at h
      subst h
      simp [hs]
  | r :: rs, acc, acc', hnodup, hs, hnone, h => by
      obtain ⟨hr, hrs⟩ := List.nodup_cons.mp hnodup
      rw [List.foldlM_cons] at h
      obtain ⟨acc₁, hstep, h⟩ := bind_eq_ok h
      have hnone_r := hnone r List.mem_cons_self
      obtain ⟨hs₁, hd₁, hv₁, hr₁, hk₁⟩ := distributeShare_eq_ok hs hnone_r hstep
      -- the reservers after `r` are still not credited
      have hnone₁ : ∀ r' ∈ rs, lookup r' acc₁.holders = none := fun r' hr' => by
        rw [hk₁ r' fun heq => hr (heq ▸ hr')]
        exact hnone r' (List.mem_cons_of_mem r hr')
      obtain ⟨hs', hd', hv', hk'⟩ := foldlM_distributeShare hrs hs₁ hnone₁ h
      refine ⟨hs', by simp only [List.map_cons, List.sum_cons]; omega,
        by simp only [List.map_cons, List.sum_cons]; omega, fun k => ?_⟩
      rw [hk' k]
      by_cases hk : k = r
      · -- `r` is credited once, at its own turn
        subst hk
        rw [if_neg hr, hr₁, hnone_r, if_pos List.mem_cons_self]
        simp
      · rw [hk₁ k hk]
        simp [hk]

variable {config : SocialProofTokensConfig} {registry registry' : TokenRegistry}
  {pool pool' : ReservationPoolObject} {token_pool : TokenPool}
  {minted : List (ℕ × SocialToken)} {ctx : TxContext}

/-- What a conversion does: the loop hands out the shares, the owner
gets what they leave of the initial supply, and the new pool starts
with all the reservation pool's balance. -/
theorem create_social_proof_token_eq_ok
    (h : create_social_proof_token config registry pool pool_address ctx =
      .ok (registry', pool', token_pool, minted)) :
    ∃ initial_token_supply acc holders,
      initialSupply pool.info.token_type pool.info.total_reserved = .ok initial_token_supply ∧
      pool.reservers.foldlM (distributeShare pool.reservations pool_address pool.info.token_type
        initial_token_supply pool.info.total_reserved) ⟨[], 0, []⟩ = .ok acc ∧
      creditRemainder acc.holders pool.info.owner (initial_token_supply - acc.distributed_total) =
        .ok holders ∧
      token_pool = ⟨pool_address, ⟨pool.info.token_type, pool.info.owner, pool.info.associated_id,
        acc.distributed_total + (initial_token_supply - acc.distributed_total), config.base_price,
        config.quadratic_coefficient⟩, pool.myso_balance, holders, none, none⟩ ∧
      pool'.converted = true ∧ pool'.myso_balance = 0 ∧ minted = acc.minted := by
  unfold create_social_proof_token at h
  simp only [require_bind_eq_ok] at h
  obtain ⟨-, -, -, -, h⟩ := h
  obtain ⟨initial_token_supply, hsupply, h⟩ := bind_eq_ok h
  simp only [require_bind_eq_ok] at h
  obtain ⟨-, h⟩ := h
  obtain ⟨acc, hloop, h⟩ := bind_eq_ok h
  obtain ⟨holders, hholders, h⟩ := bind_eq_ok h
  simp only [pure_eq_ok, Prod.mk.injEq] at h
  obtain ⟨-, rfl, rfl, rfl⟩ := h
  exact ⟨initial_token_supply, acc, holders, hsupply, hloop, hholders, rfl, rfl, rfl, rfl⟩

/-- The remainder goes to the owner's entry, and only there. -/
theorem creditRemainder_eq_ok {holders holders' : List (ℕ × ℕ)} {owner remainder : ℕ}
    (hs : Sorted holders) (h : creditRemainder holders owner remainder = .ok holders') :
    Sorted holders' ∧ valSum holders' = valSum holders + remainder ∧
      (lookup owner holders').getD 0 = (lookup owner holders).getD 0 + remainder ∧
      ∀ k, k ≠ owner → lookup k holders' = lookup k holders := by
  unfold creditRemainder at h
  split_ifs at h with hpos
  · rw [creditHolder_eq_ok h]
    have hsum := hs.valSum_alter (k := owner)
      (f := fun _ => (lookup owner holders).getD 0 + remainder)
    refine ⟨hs.alter, by omega, ?_, fun k hk => lookup_alter_of_ne hk⟩
    rw [hs.lookup_alter_self]
    rfl
  · simp only [pure_eq_ok] at h
    subst h
    exact ⟨hs, by omega, by omega, fun _ _ => rfl⟩

/-- The reservers' shares add up to at most the supply: the reservers
are the table's keys once each, and the table sums to the total the
shares divide by. -/
theorem LedgerOK.sum_shareOf_le (hok : LedgerOK registry pool) (initial_token_supply : ℕ) :
    (pool.reservers.map (shareOf pool.reservations initial_token_supply
      pool.info.total_reserved)).sum ≤ initial_token_supply := by
  have hsum : (pool.reservers.map fun r => (lookup r pool.reservations).getD 0).sum =
      pool.info.total_reserved := by
    rw [(hok.reservers_perm.map _).sum_eq, hok.sorted.sum_lookup_keys, hok.total_eq]
  exact Shares.sum_mul_div_le pool.reservers _ hsum.le

/-- A conversion of a pool with the ledger hands out its whole initial
supply: each reserver but the owner holds its share, the owner its share
if it reserved and what the shares leave, and the new pool's holders
sum to its circulating supply, which is the initial supply. -/
theorem create_social_proof_token_supply (hok : LedgerOK registry pool)
    (h : create_social_proof_token config registry pool pool_address ctx =
      .ok (registry', pool', token_pool, minted)) :
    ∃ initial_token_supply,
      initialSupply pool.info.token_type pool.info.total_reserved = .ok initial_token_supply ∧
      (pool.reservers.map (shareOf pool.reservations initial_token_supply
        pool.info.total_reserved)).sum ≤ initial_token_supply ∧
      token_pool.info.circulating_supply = initial_token_supply ∧
      valSum token_pool.holders = token_pool.info.circulating_supply ∧
      (∀ r ∈ pool.reservers, r ≠ pool.info.owner → (lookup r token_pool.holders).getD 0 =
        shareOf pool.reservations initial_token_supply pool.info.total_reserved r) ∧
      (lookup pool.info.owner token_pool.holders).getD 0 =
        (if pool.info.owner ∈ pool.reservers then
          shareOf pool.reservations initial_token_supply pool.info.total_reserved pool.info.owner
        else 0) +
        (initial_token_supply - (pool.reservers.map (shareOf pool.reservations
          initial_token_supply pool.info.total_reserved)).sum) := by
  obtain ⟨initial_token_supply, acc, holders, hsupply, hloop, hrem, rfl, -, -, -⟩ :=
    create_social_proof_token_eq_ok h
  -- the loop starts from no holders and nothing handed out
  obtain ⟨hs, hd, hv, hk⟩ := foldlM_distributeShare hok.reservers_nodup (by simp [Sorted])
    (fun _ _ => rfl) hloop
  dsimp only at hd hv
  simp only [valSum_nil, Nat.zero_add] at hd hv
  have hle := hok.sum_shareOf_le initial_token_supply
  obtain ⟨-, hv', hown, hother⟩ := creditRemainder_eq_ok hs hrem
  refine ⟨initial_token_supply, hsupply, hle, by dsimp only; omega, by dsimp only; omega,
    fun r hr hne => ?_, ?_⟩
  · rw [hother r hne, hk r, if_pos hr]
    rfl
  · rw [hown, hk, hd]
    rfl

end conversion

-- ============================================================ a pool that drifts

/-- A post at address 40 owned by address 7, with no redirection. -/
def reservedPost : PostView := ⟨40, 7, none, none⟩

/-- A platform every reserver has joined and that blocks nobody. -/
def openPlatform : PlatformView := ⟨true, fun _ => true, fun _ => false⟩

/-- The registry and the pool once the post's owner has opened it. -/
def openedRegistry : TokenRegistry := ⟨[], [(40, ⟨40, TOKEN_TYPE_POST, 7, 0, 1000000000000⟩)]⟩

def openedPool : ReservationPoolObject :=
  ⟨⟨40, TOKEN_TYPE_POST, 7, 0, 1000000000000⟩, 0, [], [], false⟩

/-- Addresses 3 and 4 reserve 10000 each, paying the 1.5 % fee on top;
then 3 withdraws 10000 through a platform, which leaves 150 of its
reservation, and withdraws those 150. -/
def driftCalls : List (SocialProofTokensConfig × TxContext × ReservationCall) :=
  [(tradingConfig, ⟨3, 0, 0⟩, .reserve (.post reservedPost) none 10150 10000),
    (tradingConfig, ⟨4, 0, 0⟩, .reserve (.post reservedPost) none 10150 10000),
    (tradingConfig, ⟨3, 0, 0⟩, .withdraw_reservation_with_platform openPlatform 10000),
    (tradingConfig, ⟨3, 0, 0⟩, .withdraw_reservation 150)]

def driftedRegistry : TokenRegistry :=
  ⟨[], [(40, ⟨40, TOKEN_TYPE_POST, 7, 10000, 1000000000000⟩)]⟩

def driftedPool : ReservationPoolObject :=
  ⟨⟨40, TOKEN_TYPE_POST, 7, 10000, 1000000000000⟩, 9850, [(4, 10000)], [4], false⟩

theorem platform_withdrawal_strands_reserver :
    create_reservation_pool_for_post ⟨[], []⟩ tradingConfig reservedPost ⟨7, 0, 0⟩ =
        .ok (openedRegistry, openedPool) ∧
      reservationRun (openedRegistry, openedPool) driftCalls = (driftedRegistry, driftedPool) ∧
      valSum driftedPool.reservations = driftedPool.info.total_reserved ∧
      driftedPool.myso_balance + 150 = driftedPool.info.total_reserved ∧
      withdraw_reservation driftedRegistry driftedPool 10000 ⟨4, 0, 0⟩ =
        .error .EInsufficientLiquidity :=
  ⟨by rfl, by rfl, rfl, rfl, by rfl⟩

end MysoCore.Social.SocialProofTokens
