/-
The ledgers of an underwriter's vault (insurance.move). A vault keeps
what its policies reserve four times over: in `reserved`, per market,
per market and option, and per insured user. Each table stands for the
reserves of the vault's active policies summed over its key: the
`Exposures` the policies make (`exposuresOf`), which the tables record
(`UnderwriterVault.exposures`).

# The ledger

`add_exposure` adds a reserve at a policy's keys and `release_exposure`
takes it off again (`add_exposure_eq_ok`, `release_exposure_eq_ok`); a
policy bought adds its reserve to what the policies make, and a policy
that stops being active takes it off (`exposuresOf_append`,
`exposuresOf_set`). So every call keeps `LedgerOK`, and so does every
run from a new vault (`LedgerOK.run`). From it the tables sum to
`reserved` and each market's options to the market's total
(`LedgerOK.sums`), and the release of an active policy finds every
entry it asserts (`apply_ne_EExposureInvariantBroken`).
-/
import MysoCore.Social.Insurance
import MysoCore.Lib.Shares

namespace MysoCore.Social.Insurance

open SortedMap ExceptFold Shares
open SocialProofOfTruth (SpotConfig)

-- ============================================================ the calls' parts

@[simp] theorem compute_reserve_eq_ok {covered_amount coverage_bps r : ℕ} :
    compute_reserve covered_amount coverage_bps = .ok r ↔
      r = covered_amount * coverage_bps / BPS_DENOM ∧ r ≤ MAX_U64 := by
  unfold compute_reserve
  simp only [require_bind_eq_ok, pure_eq_ok]
  constructor
  · rintro ⟨hle, rfl⟩
    exact ⟨rfl, hle⟩
  · rintro ⟨rfl, hle⟩
    exact ⟨hle, rfl⟩

@[simp] theorem expectSome_eq_ok {α : Type} {err : Abort} {entry : Option α} {a : α} :
    expectSome err entry = .ok a ↔ entry = some a := by
  cases entry <;> simp [expectSome]

theorem expectSome_eq_error {α : Type} {err e : Abort} {entry : Option α}
    (h : expectSome err entry = .error e) : e = err := by
  cases entry with
  | none =>
    simp only [expectSome, throw_eq_error] at h
    exact h.symm
  | some a => cases h

theorem sendPart_eq_ok {value value' amount : ℕ} {payee : Payee} {payments : Payments}
    (h : sendPart value payee amount = .ok (value', payments)) :
    value' + amount = value ∧ paid payments = amount := by
  unfold sendPart at h
  split at h
  · simp only [balance_split_bind_eq_ok, pure_eq_ok, Prod.mk.injEq] at h
    obtain ⟨hle, rfl, rfl⟩ := h
    simp only [paid_cons, paid_nil]
    omega
  · simp only [pure_eq_ok, Prod.mk.injEq] at h
    obtain ⟨rfl, rfl⟩ := h
    simp only [paid_nil]
    omega

theorem sendPart_eq_error {value amount : ℕ} {payee : Payee} {e : Abort}
    (h : sendPart value payee amount = .error e) : e = .ENotEnough := by
  unfold sendPart at h
  split at h
  · simp only [balance_split_bind_eq_error, pure_eq_error, and_false, or_false] at h
    exact h.2.symm
  · cases h

-- ============================================================ exposures

/-- What is reserved per market, per market and option, and per user. -/
@[ext] structure Exposures where
  market : ℕ → ℕ
  option : ℕ → ℕ → ℕ
  user : ℕ → ℕ

namespace Exposures

/-- A reserve added at a policy's keys. -/
def add (x : Exposures) (market_id insured option_id r : ℕ) : Exposures where
  market m := x.market m + if market_id = m then r else 0
  option m o := x.option m o + if market_id = m ∧ option_id = o then r else 0
  user u := x.user u + if insured = u then r else 0

/-- A reserve taken off at a policy's keys. -/
def sub (x : Exposures) (market_id insured option_id r : ℕ) : Exposures where
  market m := x.market m - if market_id = m then r else 0
  option m o := x.option m o - if market_id = m ∧ option_id = o then r else 0
  user u := x.user u - if insured = u then r else 0

@[simp] theorem sub_zero (x : Exposures) (market_id insured option_id : ℕ) :
    x.sub market_id insured option_id 0 = x := by
  ext <;> simp [sub]

end Exposures

/-- A market's entry read through `g`, zero when it has none. -/
def marketRead (vault : UnderwriterVault) (g : MarketExposure → ℕ) (market_id : ℕ) : ℕ :=
  ((lookup market_id vault.market_exposures).map g).getD 0

/-- The exposures a vault's tables record, read as the source reads
them. -/
def UnderwriterVault.exposures (vault : UnderwriterVault) : Exposures where
  market := marketRead vault MarketExposure.total_reserved
  option m o := marketRead vault (get_option_reserved · o) m
  user := get_user_exposure vault

/-- A policy's reserve, as `compute_reserve` computes it. -/
def policyReserve (p : CoveragePolicy) : ℕ := p.covered_amount * p.coverage_bps / BPS_DENOM

/-- What a policy holds reserved: its reserve while it is active. -/
def activeReserve (p : CoveragePolicy) : ℕ := if p.status = .ACTIVE then policyReserve p else 0

/-- What a policy holds reserved on one market. -/
def marketWeight (market_id : ℕ) (p : CoveragePolicy) : ℕ :=
  if p.market_id = market_id then activeReserve p else 0

/-- The reserves of the active policies. -/
def totalReserve (ps : List CoveragePolicy) : ℕ := (ps.map activeReserve).sum

/-- The exposures the active policies make: their reserves summed per
market, per market and option, and per user. -/
def exposuresOf (ps : List CoveragePolicy) : Exposures where
  market := keyTotal ps CoveragePolicy.market_id activeReserve
  option m := keyTotal ps CoveragePolicy.option_id (marketWeight m)
  user := keyTotal ps CoveragePolicy.insured activeReserve

/-- The tables of a vault, sorted by key. -/
structure TablesSorted (vault : UnderwriterVault) : Prop where
  markets : Sorted vault.market_exposures
  options : ∀ e ∈ vault.market_exposures, Sorted e.2.reserved_by_option
  users : Sorted vault.user_exposures

/-- A vault that differs from another at most in its exposure tables. -/
def TablesOnly (vault vault' : UnderwriterVault) : Prop :=
  ∃ markets users, vault' = { vault with market_exposures := markets, user_exposures := users }

theorem TablesOnly.refl (vault : UnderwriterVault) : TablesOnly vault vault :=
  ⟨vault.market_exposures, vault.user_exposures, rfl⟩

theorem TablesOnly.trans {v₁ v₂ v₃ : UnderwriterVault} (h₁ : TablesOnly v₁ v₂)
    (h₂ : TablesOnly v₂ v₃) : TablesOnly v₁ v₃ := by
  obtain ⟨_, _, rfl⟩ := h₁
  obtain ⟨markets, users, rfl⟩ := h₂
  exact ⟨markets, users, rfl⟩

-- ============================================================ reads

section reads

variable {vault : UnderwriterVault}

theorem marketRead_setMarketExposure (h : Sorted vault.market_exposures)
    (g : MarketExposure → ℕ) (market_id k : ℕ) (exposure : MarketExposure) :
    marketRead (setMarketExposure vault market_id exposure) g k =
      if market_id = k then g exposure else marketRead vault g k := by
  unfold marketRead setMarketExposure
  split
  · next hk =>
      subst hk
      rw [h.lookup_alter_self]
      rfl
  · next hk => rw [lookup_alter_of_ne (Ne.symm hk)]

theorem get_user_exposure_set_user_exposure (h : Sorted vault.user_exposures)
    (insured amount u : ℕ) :
    get_user_exposure (set_user_exposure vault insured amount) u =
      if insured = u then amount else get_user_exposure vault u := by
  unfold get_user_exposure set_user_exposure
  split
  · next hu =>
      subst hu
      rw [h.lookup_alter_self]
      rfl
  · next hu => rw [lookup_alter_of_ne (Ne.symm hu)]

theorem get_option_reserved_set_option_reserved {exposure : MarketExposure}
    (h : Sorted exposure.reserved_by_option) (option_id amount o : ℕ) :
    get_option_reserved (set_option_reserved exposure option_id amount) o =
      if option_id = o then amount else get_option_reserved exposure o := by
  unfold get_option_reserved set_option_reserved
  split
  · next ho =>
      subst ho
      rw [h.lookup_alter_self]
      rfl
  · next ho => rw [lookup_alter_of_ne (Ne.symm ho)]

/-- A market read as positive has an entry. -/
theorem mem_keys_of_marketRead_pos {g : MarketExposure → ℕ} {market_id : ℕ}
    (h : 0 < marketRead vault g market_id) : market_id ∈ keys vault.market_exposures := by
  unfold marketRead at h
  cases hl : lookup market_id vault.market_exposures with
  | none => simp [hl] at h
  | some e => exact mem_keys.mpr ⟨e, mem_of_lookup_eq_some hl⟩

theorem mem_keys_of_get_user_exposure_pos {u : ℕ} (h : 0 < get_user_exposure vault u) :
    u ∈ keys vault.user_exposures := by
  unfold get_user_exposure at h
  cases hl : lookup u vault.user_exposures with
  | none => simp [hl] at h
  | some a => exact mem_keys.mpr ⟨a, mem_of_lookup_eq_some hl⟩

theorem mem_keys_of_get_option_reserved_pos {exposure : MarketExposure} {o : ℕ}
    (h : 0 < get_option_reserved exposure o) : o ∈ keys exposure.reserved_by_option := by
  unfold get_option_reserved at h
  cases hl : lookup o exposure.reserved_by_option with
  | none => simp [hl] at h
  | some a => exact mem_keys.mpr ⟨a, mem_of_lookup_eq_some hl⟩

@[simp] theorem setMarketExposure_user_exposures (market_id : ℕ) (exposure : MarketExposure) :
    (setMarketExposure vault market_id exposure).user_exposures = vault.user_exposures := rfl

@[simp] theorem marketRead_set_user_exposure (g : MarketExposure → ℕ) (insured amount k : ℕ) :
    marketRead (set_user_exposure vault insured amount) g k = marketRead vault g k := rfl

@[simp] theorem get_user_exposure_setMarketExposure (market_id u : ℕ) (exposure : MarketExposure) :
    get_user_exposure (setMarketExposure vault market_id exposure) u = get_user_exposure vault u :=
  rfl

/-- A market's entry read at the market. -/
theorem marketRead_of_lookup {market_id : ℕ} {exposure : MarketExposure}
    (h : lookup market_id vault.market_exposures = some exposure) (g : MarketExposure → ℕ) :
    marketRead vault g market_id = g exposure := by
  simp [marketRead, h]

/-- Writing a market's entry keeps the tables sorted, when the entry's
options are. -/
theorem TablesSorted.setMarketExposure (h : TablesSorted vault) (market_id : ℕ)
    {exposure : MarketExposure} (he : Sorted exposure.reserved_by_option) :
    TablesSorted (Insurance.setMarketExposure vault market_id exposure) where
  markets := h.markets.alter
  options := forall_mem_alter h.options he fun _ _ => he
  users := h.users

theorem TablesSorted.with_capital_reserved (h : TablesSorted vault) (capital reserved : ℕ) :
    TablesSorted { vault with capital, reserved } :=
  ⟨h.markets, h.options, h.users⟩

theorem TablesSorted.set_user_exposure (h : TablesSorted vault) (insured amount : ℕ) :
    TablesSorted (Insurance.set_user_exposure vault insured amount) where
  markets := h.markets
  options := h.options
  users := h.users.alter

end reads

-- ============================================================ the table updates

/-- `get_market_exposure_mut` records nothing new: the entry it returns
is the market's, and an entry it adds is empty. -/
theorem get_market_exposure_mut_eq {vault vault' : UnderwriterVault} {market_id : ℕ}
    {exposure : MarketExposure} (hs : TablesSorted vault)
    (h : get_market_exposure_mut vault market_id = (vault', exposure)) :
    vault'.exposures = vault.exposures ∧ lookup market_id vault'.market_exposures = some exposure ∧
      TablesSorted vault' ∧ TablesOnly vault vault' := by
  unfold get_market_exposure_mut at h
  split at h
  · next e hl =>
      obtain ⟨rfl, rfl⟩ := Prod.mk.inj h
      exact ⟨rfl, hl, hs, TablesOnly.refl _⟩
  · next hl =>
      obtain ⟨rfl, rfl⟩ := Prod.mk.inj h
      have hnew : Sorted ([] : List (ℕ × ℕ)) := List.Pairwise.nil
      refine ⟨?_, hs.markets.lookup_alter_self, hs.setMarketExposure market_id hnew, _, _, rfl⟩
      -- the empty entry reads as no entry
      have hzero : ∀ g : MarketExposure → ℕ, marketRead vault g market_id = 0 := fun g => by
        simp [marketRead, hl]
      refine Exposures.ext ?_ ?_ rfl
      · funext k
        show marketRead (setMarketExposure vault market_id _) _ k = marketRead vault _ k
        rw [marketRead_setMarketExposure hs.markets]
        split
        · next hk =>
            subst hk
            rw [hzero]
        · rfl
      · funext k o
        show marketRead (setMarketExposure vault market_id _) _ k = marketRead vault _ k
        rw [marketRead_setMarketExposure hs.markets]
        split
        · next hk =>
            subst hk
            rw [hzero]
            rfl
        · rfl

theorem enforce_exposure_limits_eq_ok {vault vault' : UnderwriterVault}
    {market_id insured option_id r : ℕ} (hs : TablesSorted vault)
    (h : enforce_exposure_limits vault market_id insured option_id r = .ok vault') :
    vault'.exposures = vault.exposures ∧ TablesSorted vault' ∧ TablesOnly vault vault' := by
  unfold enforce_exposure_limits at h
  obtain ⟨_, -, h⟩ := bind_eq_ok h
  rcases hget : get_market_exposure_mut vault market_id with ⟨v₁, e⟩
  rw [hget] at h
  obtain ⟨_, -, h⟩ := bind_eq_ok h
  simp only [require_bind_eq_ok, pure_eq_ok] at h
  obtain ⟨-, rfl⟩ := h
  obtain ⟨hexp, -, hs₁, hframe⟩ := get_market_exposure_mut_eq hs hget
  exact ⟨hexp, hs₁, hframe⟩

/-- `add_exposure` adds the reserve at the policy's keys. -/
theorem add_exposure_eq_ok {vault vault' : UnderwriterVault} {market_id insured option_id r : ℕ}
    (hs : TablesSorted vault) (h : add_exposure vault market_id insured option_id r = .ok vault') :
    vault'.exposures = vault.exposures.add market_id insured option_id r ∧ TablesSorted vault' ∧
      TablesOnly vault vault' := by
  unfold add_exposure at h
  rcases hget : get_market_exposure_mut vault market_id with ⟨v₁, e⟩
  rw [hget] at h
  simp only [require_bind_eq_ok, pure_eq_ok] at h
  obtain ⟨-, -, -, rfl⟩ := h
  obtain ⟨hexp, hlook, hs₁, hframe⟩ := get_market_exposure_mut_eq hs hget
  have he : Sorted e.reserved_by_option := hs₁.options _ (mem_of_lookup_eq_some hlook)
  have he₁ : Sorted ({ e with total_reserved := e.total_reserved + r } : MarketExposure).reserved_by_option :=
    he
  have hs₂ : TablesSorted (setMarketExposure v₁ market_id (set_option_reserved
      { e with total_reserved := e.total_reserved + r } option_id
      (get_option_reserved { e with total_reserved := e.total_reserved + r } option_id + r))) :=
    hs₁.setMarketExposure market_id he.alter
  refine ⟨?_, hs₂.set_user_exposure _ _, hframe.trans ⟨_, _, rfl⟩⟩
  -- past `get_market_exposure_mut` the tables read as the vault's
  have hm₁ : ∀ k, marketRead v₁ MarketExposure.total_reserved k =
      marketRead vault MarketExposure.total_reserved k := fun k =>
    congrFun (congrArg Exposures.market hexp) k
  have ho₁ : ∀ k o, marketRead v₁ (get_option_reserved · o) k =
      marketRead vault (get_option_reserved · o) k := fun k o =>
    congrFun (congrFun (congrArg Exposures.option hexp) k) o
  have hu₁ : get_user_exposure v₁ = get_user_exposure vault := congrArg Exposures.user hexp
  refine Exposures.ext ?_ ?_ ?_
  · funext k
    show marketRead (setMarketExposure v₁ market_id _) _ k = marketRead vault _ k + _
    rw [marketRead_setMarketExposure hs₁.markets]
    by_cases hk : market_id = k
    · subst hk
      rw [if_pos rfl, if_pos rfl, ← hm₁, marketRead_of_lookup hlook]
      rfl
    · rw [if_neg hk, if_neg hk, hm₁, Nat.add_zero]
  · funext k o
    show marketRead (setMarketExposure v₁ market_id _) _ k = marketRead vault _ k + _
    rw [marketRead_setMarketExposure hs₁.markets]
    by_cases hk : market_id = k
    · subst hk
      rw [if_pos rfl, ← ho₁, marketRead_of_lookup hlook,
        get_option_reserved_set_option_reserved he₁]
      by_cases ho : option_id = o
      · subst ho
        simp [get_option_reserved]
      · simp [ho, get_option_reserved]
    · simp only [hk, if_false, false_and, ho₁, Nat.add_zero]
  · funext u
    show get_user_exposure (set_user_exposure _ insured _) u = get_user_exposure vault u + _
    rw [get_user_exposure_set_user_exposure hs₂.users]
    simp only [get_user_exposure_setMarketExposure, hu₁]
    by_cases hu : insured = u
    · subst hu
      simp
    · simp [hu]

/-- `release_exposure` takes the reserve off at the policy's keys. -/
theorem release_exposure_eq_ok {vault vault' : UnderwriterVault}
    {market_id insured option_id r : ℕ} (hs : TablesSorted vault)
    (h : release_exposure vault market_id insured option_id r = .ok vault') :
    vault'.exposures = vault.exposures.sub market_id insured option_id r ∧ TablesSorted vault' ∧
      TablesOnly vault vault' := by
  unfold release_exposure at h
  split at h
  · next hr =>
      subst hr
      simp only [pure_eq_ok] at h
      subst h
      exact ⟨(Exposures.sub_zero _ _ _ _).symm, hs, TablesOnly.refl _⟩
  · -- the three entries, each holding the reserve
    obtain ⟨e, he, h⟩ := bind_eq_ok h
    rw [expectSome_eq_ok] at he
    simp only [require_bind_eq_ok] at h
    obtain ⟨-, h⟩ := h
    obtain ⟨c, hc, h⟩ := bind_eq_ok h
    rw [expectSome_eq_ok] at hc
    simp only [require_bind_eq_ok] at h
    obtain ⟨-, h⟩ := h
    obtain ⟨cu, hcu, h⟩ := bind_eq_ok h
    rw [expectSome_eq_ok, setMarketExposure_user_exposures] at hcu
    simp only [require_bind_eq_ok, pure_eq_ok] at h
    obtain ⟨-, rfl⟩ := h
    have hse : Sorted e.reserved_by_option := hs.options _ (mem_of_lookup_eq_some he)
    have hse₁ : Sorted ({ e with total_reserved := e.total_reserved - r } :
        MarketExposure).reserved_by_option := hse
    have hs₁ : TablesSorted (setMarketExposure vault market_id (set_option_reserved
        { e with total_reserved := e.total_reserved - r } option_id (c - r))) :=
      hs.setMarketExposure market_id hse.alter
    refine ⟨?_, hs₁.set_user_exposure _ _, ⟨_, _, rfl⟩⟩
    refine Exposures.ext ?_ ?_ ?_
    · funext k
      show marketRead (setMarketExposure vault market_id _) _ k = marketRead vault _ k - _
      rw [marketRead_setMarketExposure hs.markets]
      by_cases hk : market_id = k
      · subst hk
        rw [if_pos rfl, if_pos rfl, marketRead_of_lookup he]
        rfl
      · rw [if_neg hk, if_neg hk, Nat.sub_zero]
    · funext k o
      show marketRead (setMarketExposure vault market_id _) _ k = marketRead vault _ k - _
      rw [marketRead_setMarketExposure hs.markets]
      by_cases hk : market_id = k
      · subst hk
        rw [if_pos rfl, marketRead_of_lookup he, get_option_reserved_set_option_reserved hse₁]
        by_cases ho : option_id = o
        · subst ho
          simp [get_option_reserved, hc]
        · simp [ho, get_option_reserved]
      · simp only [hk, if_false, false_and, Nat.sub_zero]
    · funext u
      show get_user_exposure (set_user_exposure _ insured _) u = get_user_exposure vault u - _
      rw [get_user_exposure_set_user_exposure hs₁.users, get_user_exposure_setMarketExposure]
      by_cases hu : insured = u
      · subst hu
        simp [get_user_exposure, hcu]
      · simp [hu]

/-- A release finds every entry it asserts when each records at least
the reserve. -/
theorem release_exposure_ok {vault : UnderwriterVault} {market_id insured option_id r : ℕ}
    (hmarket : r ≤ vault.exposures.market market_id)
    (hoption : r ≤ vault.exposures.option market_id option_id)
    (huser : r ≤ vault.exposures.user insured) :
    ∃ vault', release_exposure vault market_id insured option_id r = .ok vault' := by
  unfold release_exposure
  split
  · exact ⟨vault, rfl⟩
  · next hr =>
    -- each entry records a positive amount, so it is there
    obtain ⟨e, he⟩ : ∃ e, lookup market_id vault.market_exposures = some e := by
      cases hl : lookup market_id vault.market_exposures with
      | none =>
        simp only [UnderwriterVault.exposures, marketRead, hl, Option.map_none,
          Option.getD_none] at hmarket
        omega
      | some e => exact ⟨e, rfl⟩
    have hte : e.total_reserved ≥ r := by
      simpa [UnderwriterVault.exposures, marketRead_of_lookup he] using hmarket
    have hopt : r ≤ get_option_reserved e option_id := by
      simpa [UnderwriterVault.exposures, marketRead_of_lookup he] using hoption
    obtain ⟨c, hc⟩ : ∃ c, lookup option_id e.reserved_by_option = some c := by
      cases hl : lookup option_id e.reserved_by_option with
      | none =>
        simp only [get_option_reserved, hl, Option.getD_none] at hopt
        omega
      | some c => exact ⟨c, rfl⟩
    have hcr : c ≥ r := by simpa [get_option_reserved, hc] using hopt
    obtain ⟨cu, hcu⟩ : ∃ cu, lookup insured vault.user_exposures = some cu := by
      cases hl : lookup insured vault.user_exposures with
      | none =>
        simp only [UnderwriterVault.exposures, get_user_exposure, hl, Option.getD_none] at huser
        omega
      | some cu => exact ⟨cu, rfl⟩
    have hcur : cu ≥ r := by simpa [UnderwriterVault.exposures, get_user_exposure, hcu] using huser
    simp only [he, expectSome, pure_bind, require_eq_pure hte, hc, require_eq_pure hcr,
      setMarketExposure_user_exposures, hcu, require_eq_pure hcur]
    exact ⟨_, rfl⟩

/-- The release of a policy: its reserve leaves `reserved` and the
tables, and nothing else of the vault changes. -/
theorem releasePolicy_eq_ok {vault vault' : UnderwriterVault} {policy policy' : CoveragePolicy}
    {status : Status} (hs : TablesSorted vault)
    (h : releasePolicy vault policy status = .ok (vault', policy')) :
    policy' = { policy with status } ∧ vault'.reserved + policyReserve policy = vault.reserved ∧
      vault'.exposures =
        vault.exposures.sub policy.market_id policy.insured policy.option_id (policyReserve policy) ∧
      TablesSorted vault' ∧ vault'.capital = vault.capital ∧ vault'.id = vault.id := by
  unfold releasePolicy at h
  obtain ⟨r, hr, h⟩ := bind_eq_ok h
  obtain ⟨rfl, -⟩ := compute_reserve_eq_ok.mp hr
  obtain ⟨v₁, hv₁, h⟩ := bind_eq_ok h
  simp only [require_bind_eq_ok, pure_eq_ok, Prod.mk.injEq] at h
  obtain ⟨hge, rfl, rfl⟩ := h
  obtain ⟨hexp, hs₁, markets, users, rfl⟩ := release_exposure_eq_ok hs hv₁
  dsimp only at hge
  exact ⟨rfl, by dsimp only [policyReserve]; omega, hexp,
    ⟨hs₁.markets, hs₁.options, hs₁.users⟩, rfl, rfl⟩

/-- A policy whose reserve fits in `reserved` and in each of its
entries is released. -/
theorem releasePolicy_ok {vault : UnderwriterVault} {policy : CoveragePolicy} (status : Status)
    (hs : TablesSorted vault) (hle : policyReserve policy ≤ MAX_U64)
    (hreserved : policyReserve policy ≤ vault.reserved)
    (hmarket : policyReserve policy ≤ vault.exposures.market policy.market_id)
    (hoption : policyReserve policy ≤ vault.exposures.option policy.market_id policy.option_id)
    (huser : policyReserve policy ≤ vault.exposures.user policy.insured) :
    ∃ vault', releasePolicy vault policy status = .ok (vault', { policy with status }) := by
  obtain ⟨v₁, hv₁⟩ := release_exposure_ok hmarket hoption huser
  obtain ⟨-, -, markets, users, rfl⟩ := release_exposure_eq_ok hs hv₁
  have hr : compute_reserve policy.covered_amount policy.coverage_bps = .ok (policyReserve policy) :=
    compute_reserve_eq_ok.mpr ⟨rfl, hle⟩
  have hge : ({ vault with market_exposures := markets, user_exposures := users } :
      UnderwriterVault).reserved ≥ policyReserve policy := hreserved
  simp only [releasePolicy, hr, ok_bind, hv₁, require_eq_pure hge, pure_bind]
  exact ⟨_, rfl⟩

-- ============================================================ the policies' exposures

theorem activeReserve_of_active {p : CoveragePolicy} (h : p.status = .ACTIVE) :
    activeReserve p = policyReserve p :=
  if_pos h

theorem activeReserve_of_ne {p : CoveragePolicy} {status : Status} (h : status ≠ .ACTIVE) :
    activeReserve { p with status } = 0 :=
  if_neg h

theorem totalReserve_append (ps : List CoveragePolicy) (p : CoveragePolicy) :
    totalReserve (ps ++ [p]) = totalReserve ps + activeReserve p := by
  simp [totalReserve]

/-- A policy that stops being active takes its reserve off the total. -/
theorem totalReserve_set {ps : List CoveragePolicy} {i : ℕ} {p : CoveragePolicy}
    (hp : ps[i]? = some p) {status : Status} (hs : status ≠ .ACTIVE) :
    totalReserve (ps.set i { p with status }) + activeReserve p = totalReserve ps := by
  have := sum_map_set hp { p with status } activeReserve
  rw [activeReserve_of_ne hs, Nat.add_zero] at this
  exact this

theorem activeReserve_le_totalReserve {ps : List CoveragePolicy} {p : CoveragePolicy}
    (hp : p ∈ ps) : activeReserve p ≤ totalReserve ps :=
  List.le_sum_of_mem (List.mem_map_of_mem hp)

/-- A policy bought adds its reserve at its keys. -/
theorem exposuresOf_append (ps : List CoveragePolicy) (p : CoveragePolicy) :
    exposuresOf (ps ++ [p]) =
      (exposuresOf ps).add p.market_id p.insured p.option_id (activeReserve p) := by
  refine Exposures.ext ?_ ?_ ?_
  · funext m
    simp [exposuresOf, Exposures.add, keyTotal_append, keyTotal_cons]
  · funext m o
    simp only [exposuresOf, Exposures.add, keyTotal_append, keyTotal_cons, keyTotal_nil,
      marketWeight, Nat.add_zero]
    by_cases hm : p.market_id = m <;> by_cases ho : p.option_id = o <;> simp [hm, ho]
  · funext u
    simp [exposuresOf, Exposures.add, keyTotal_append, keyTotal_cons]

/-- A policy that stops being active takes its reserve off at its keys,
which it keeps. -/
theorem exposuresOf_set {ps : List CoveragePolicy} {i : ℕ} {p : CoveragePolicy}
    (hp : ps[i]? = some p) {status : Status} (hs : status ≠ .ACTIVE) :
    exposuresOf (ps.set i { p with status }) =
      (exposuresOf ps).sub p.market_id p.insured p.option_id (activeReserve p) := by
  have hzero : activeReserve { p with status } = 0 := activeReserve_of_ne hs
  refine Exposures.ext ?_ ?_ ?_
  · funext m
    have := keyTotal_set hp { p with status } CoveragePolicy.market_id activeReserve m
    rw [hzero, ite_self, Nat.add_zero] at this
    show keyTotal _ _ _ m = keyTotal ps _ _ m - _
    omega
  · funext m o
    have hw : marketWeight m { p with status } = 0 := by simp [marketWeight, hzero]
    have := keyTotal_set hp { p with status } CoveragePolicy.option_id (marketWeight m) o
    rw [hw, ite_self, Nat.add_zero] at this
    -- the policy's weight at the option is its reserve when it is on the market
    have hpw : (if p.option_id = o then marketWeight m p else 0) =
        if p.market_id = m ∧ p.option_id = o then activeReserve p else 0 := by
      unfold marketWeight
      by_cases hm : p.market_id = m <;> by_cases ho : p.option_id = o <;> simp [hm, ho]
    show keyTotal _ _ _ o = keyTotal ps _ _ o - _
    omega
  · funext u
    have := keyTotal_set hp { p with status } CoveragePolicy.insured activeReserve u
    rw [hzero, ite_self, Nat.add_zero] at this
    show keyTotal _ _ _ u = keyTotal ps _ _ u - _
    omega

-- ============================================================ the calls

theorem deposit_capital_eq_ok {config : InsuranceConfig} {vault vault' : UnderwriterVault}
    {payment : ℕ} (h : deposit_capital config vault payment = .ok vault') :
    vault' = { vault with capital := vault.capital + payment } := by
  unfold deposit_capital at h
  simp only [require_bind_eq_ok, pure_eq_ok] at h
  exact h.2.2.symm

theorem withdraw_capital_eq_ok {config : InsuranceConfig} {vault vault' : UnderwriterVault}
    {amount : ℕ} {ctx : TxContext} {payments : Payments}
    (h : withdraw_capital config vault amount ctx = .ok (vault', payments)) :
    vault.reserved + amount ≤ vault.capital ∧
      vault' = { vault with capital := vault.capital - amount } ∧ paid payments = amount := by
  unfold withdraw_capital at h
  simp only [require_bind_eq_ok, balance_split_bind_eq_ok, pure_eq_ok, Prod.mk.injEq] at h
  obtain ⟨-, -, -, hge, hfree, -, rfl, rfl⟩ := h
  exact ⟨by omega, rfl, by simp⟩

/-- A purchase: an active policy of the vault whose reserve fits in the
free capital, added to `reserved` and at the policy's keys, with the
premium in the capital. -/
theorem buy_coverage_eq_ok {config : InsuranceConfig} {spot_config : SpotConfig}
    {vault vault' : UnderwriterVault} {record : SpotObject}
    {option_id requested_coverage_amount coverage_bps duration_ms payment clock : ℕ}
    {ctx : TxContext} {policy : CoveragePolicy} {payments : Payments} (hs : TablesSorted vault)
    (h : buy_coverage config spot_config vault record option_id requested_coverage_amount
      coverage_bps duration_ms payment clock ctx = .ok (vault', policy, payments)) :
    policy.status = .ACTIVE ∧ policy.vault_id = vault.id ∧ policyReserve policy ≤ MAX_U64 ∧
      vault.reserved + policyReserve policy ≤ vault.capital ∧
      vault'.capital = vault.capital + policy.premium_paid ∧
      vault'.reserved = vault.reserved + policyReserve policy ∧ vault'.id = vault.id ∧
      vault'.exposures = vault.exposures.add policy.market_id policy.insured policy.option_id
        (policyReserve policy) ∧
      TablesSorted vault' := by
  unfold buy_coverage at h
  simp only [require_bind_eq_ok] at h
  obtain ⟨-, -, -, -, -, -, -, -, h⟩ := h
  obtain ⟨r, hr, h⟩ := bind_eq_ok h
  obtain ⟨hr, hle⟩ := compute_reserve_eq_ok.mp hr
  simp only [require_bind_eq_ok] at h
  obtain ⟨hge, hfree, -, h⟩ := h
  obtain ⟨v₁, hv₁, h⟩ := bind_eq_ok h
  obtain ⟨premium, -, h⟩ := bind_eq_ok h
  simp only [require_bind_eq_ok] at h
  obtain ⟨-, -, h⟩ := h
  obtain ⟨v₂, hv₂, h⟩ := bind_eq_ok h
  simp only [require_bind_eq_ok, pure_eq_ok, Prod.mk.injEq] at h
  obtain ⟨-, rfl, hpolicy, -⟩ := h
  obtain ⟨hexp₁, hs₁, hframe₁⟩ := enforce_exposure_limits_eq_ok hs hv₁
  obtain ⟨hexp₂, hs₂, markets₂, users₂, rfl⟩ :=
    add_exposure_eq_ok (hs₁.with_capital_reserved _ _) hv₂
  obtain ⟨markets₁, users₁, rfl⟩ := hframe₁
  -- the policy's reserve is the one checked and added
  have hpr : policyReserve policy = r := by
    rw [← hpolicy]
    exact hr.symm
  subst hpolicy
  rw [hpr]
  refine ⟨rfl, rfl, hle, by omega, rfl, rfl, rfl, ?_, hs₂⟩
  rw [hexp₂, ← hexp₁]
  rfl

/-- A cancellation: the policy was active, the refund leaves the
capital, and the policy is released. -/
theorem cancel_coverage_eq_ok {config : InsuranceConfig} {spot_config : SpotConfig}
    {vault vault' : UnderwriterVault} {record : SpotObject} {policy policy' : CoveragePolicy}
    {clock : ℕ} {ctx : TxContext} {payments : Payments}
    (h : cancel_coverage config spot_config vault record policy clock ctx =
      .ok (vault', policy', payments)) :
    policy.status = .ACTIVE ∧ ∃ capital, capital + paid payments = vault.capital ∧
      releasePolicy { vault with capital } policy .CANCELLED = .ok (vault', policy') := by
  unfold cancel_coverage at h
  simp only [require_bind_eq_ok] at h
  obtain ⟨-, -, -, hactive, -, -, -, -, -, -, h⟩ := h
  obtain ⟨⟨c₁, fee_payments⟩, hfee, h⟩ := bind_eq_ok h
  obtain ⟨⟨c₂, refund_payments⟩, hrefund, h⟩ := bind_eq_ok h
  obtain ⟨⟨v₃, p₃⟩, hrel, h⟩ := bind_eq_ok h
  simp only [pure_eq_ok, Prod.mk.injEq] at h
  obtain ⟨rfl, rfl, rfl⟩ := h
  obtain ⟨hc₁, hp₁⟩ := sendPart_eq_ok hfee
  obtain ⟨hc₂, hp₂⟩ := sendPart_eq_ok hrefund
  exact ⟨hactive, c₂, by rw [paid_append]; omega, hrel⟩

/-- The payout of a claim is at most the policy's reserve: the eligible
amount is at most the covered amount. -/
theorem claimPayout_le {record : SpotObject} {policy : CoveragePolicy} {outcome payout : ℕ}
    (h : claimPayout record policy outcome = .ok payout) : payout ≤ policyReserve policy := by
  unfold claimPayout at h
  split at h
  · split at h
    · simp only [require_bind_eq_ok, pure_eq_ok] at h
      obtain ⟨-, rfl⟩ := h
      apply Nat.div_le_div_right
      apply Nat.mul_le_mul_right
      split <;> omega
    · simp only [pure_eq_ok] at h
      omega
  · simp only [pure_eq_ok] at h
    omega

/-- A claim: the policy was active, the payout, at most its reserve,
leaves the capital, and the policy is released. -/
theorem claim_eq_ok {config : InsuranceConfig} {spot_config : SpotConfig}
    {vault vault' : UnderwriterVault} {record : SpotObject} {policy policy' : CoveragePolicy}
    {clock : ℕ} {ctx : TxContext} {payments : Payments}
    (h : claim config spot_config vault record policy clock ctx = .ok (vault', policy', payments)) :
    policy.status = .ACTIVE ∧ paid payments ≤ policyReserve policy ∧
      ∃ capital, capital + paid payments = vault.capital ∧
        releasePolicy { vault with capital } policy .CLAIMED = .ok (vault', policy') := by
  unfold claim at h
  simp only [require_bind_eq_ok] at h
  obtain ⟨-, -, hactive, -, -, -, -, -, h⟩ := h
  obtain ⟨outcome, -, h⟩ := bind_eq_ok h
  obtain ⟨payout, hpayout, h⟩ := bind_eq_ok h
  obtain ⟨⟨c₁, payments₁⟩, hsend, h⟩ := bind_eq_ok h
  obtain ⟨⟨v₂, p₂⟩, hrel, h⟩ := bind_eq_ok h
  simp only [pure_eq_ok, Prod.mk.injEq] at h
  obtain ⟨rfl, rfl, rfl⟩ := h
  obtain ⟨hc₁, hp₁⟩ := sendPart_eq_ok hsend
  exact ⟨hactive, hp₁ ▸ claimPayout_le hpayout, c₁, by omega, hrel⟩

/-- An expiry: nothing, or the release of an active policy. -/
theorem expire_policy_eq_ok {vault vault' : UnderwriterVault} {policy policy' : CoveragePolicy}
    {clock : ℕ} (h : expire_policy vault policy clock = .ok (vault', policy')) :
    (vault' = vault ∧ policy' = policy) ∨
      (policy.status = .ACTIVE ∧ releasePolicy vault policy .EXPIRED = .ok (vault', policy')) := by
  unfold expire_policy at h
  split at h
  · simp only [pure_eq_ok, Prod.mk.injEq] at h
    exact .inl ⟨h.1.symm, h.2.symm⟩
  · next hactive =>
      split at h
      · simp only [pure_eq_ok, Prod.mk.injEq] at h
        exact .inl ⟨h.1.symm, h.2.symm⟩
      · split at h
        · simp only [pure_eq_ok, Prod.mk.injEq] at h
          exact .inl ⟨h.1.symm, h.2.symm⟩
        · exact .inr ⟨not_not.mp hactive, h⟩

theorem onPolicy_eq_ok {s s' : Underwriting} {i : ℕ}
    {f : CoveragePolicy → Except Abort (UnderwriterVault × CoveragePolicy × Payments)}
    {payments : Payments} (h : onPolicy s i f = .ok (s', payments)) :
    (s' = s ∧ payments = []) ∨ ∃ p vault' p', s.policies[i]? = some p ∧
      f p = .ok (vault', p', payments) ∧ s' = ⟨vault', s.policies.set i p'⟩ := by
  unfold onPolicy at h
  split at h
  · simp only [pure_eq_ok, Prod.mk.injEq] at h
    exact .inl ⟨h.1.symm, h.2.symm⟩
  · next p hp =>
      obtain ⟨⟨vault', p', payments'⟩, hf, h⟩ := bind_eq_ok h
      simp only [pure_eq_ok, Prod.mk.injEq] at h
      obtain ⟨rfl, rfl⟩ := h
      exact .inr ⟨p, vault', p', hp, hf, rfl⟩

-- ============================================================ the ledger

/-- The invariant of a vault and the policies bought from it: the tables
are sorted, the policies are the vault's, each reserve fits in a
`u64`, and `reserved` and the tables record what the active policies
reserve. -/
structure LedgerOK (s : Underwriting) : Prop where
  sorted : TablesSorted s.vault
  vault_ids : ∀ p ∈ s.policies, p.vault_id = s.vault.id
  reserves_le : ∀ p ∈ s.policies, policyReserve p ≤ MAX_U64
  reserved_eq : s.vault.reserved = totalReserve s.policies
  exposures_eq : s.vault.exposures = exposuresOf s.policies

theorem LedgerOK.create_vault (id base_rate_bps_per_day utilization_multiplier_bps
    max_exposure_per_market max_exposure_per_user : ℕ) (ctx : TxContext) :
    LedgerOK ⟨Insurance.create_vault id base_rate_bps_per_day utilization_multiplier_bps
      max_exposure_per_market max_exposure_per_user ctx, []⟩ where
  sorted := ⟨List.Pairwise.nil, by simp [Insurance.create_vault], List.Pairwise.nil⟩
  vault_ids := by simp
  reserves_le := by simp
  reserved_eq := rfl
  exposures_eq := rfl

/-- The ledger does not read the capital. -/
theorem LedgerOK.with_capital {s : Underwriting} (h : LedgerOK s) (capital : ℕ) :
    LedgerOK ⟨{ s.vault with capital }, s.policies⟩ :=
  ⟨⟨h.sorted.markets, h.sorted.options, h.sorted.users⟩, h.vault_ids, h.reserves_le,
    h.reserved_eq, h.exposures_eq⟩

/-- A purchase keeps the ledger: the new policy's reserve is added to
`reserved` and at its keys, as to what the policies make. -/
theorem LedgerOK.buy_coverage {s : Underwriting} (h : LedgerOK s) {config : InsuranceConfig}
    {spot_config : SpotConfig} {record : SpotObject}
    {option_id requested_coverage_amount coverage_bps duration_ms payment clock : ℕ}
    {ctx : TxContext} {vault' : UnderwriterVault} {policy : CoveragePolicy} {payments : Payments}
    (hbuy : Insurance.buy_coverage config spot_config s.vault record option_id
      requested_coverage_amount coverage_bps duration_ms payment clock ctx =
        .ok (vault', policy, payments)) :
    LedgerOK ⟨vault', s.policies ++ [policy]⟩ := by
  obtain ⟨hactive, hid, hle, -, -, hreserved, hid', hexp, hs'⟩ := buy_coverage_eq_ok h.sorted hbuy
  have har : activeReserve policy = policyReserve policy := activeReserve_of_active hactive
  refine ⟨hs', ?_, ?_, ?_, ?_⟩
  · intro p hp
    rcases List.mem_append.mp hp with hp | hp
    · rw [hid', h.vault_ids p hp]
    · rw [List.mem_singleton.mp hp, hid, hid']
  · intro p hp
    rcases List.mem_append.mp hp with hp | hp
    · exact h.reserves_le p hp
    · rw [List.mem_singleton.mp hp]
      exact hle
  · rw [hreserved, totalReserve_append, har, h.reserved_eq]
  · rw [hexp, exposuresOf_append, har, h.exposures_eq]

/-- The release of an active policy keeps the ledger: its reserve leaves
`reserved` and its keys, as it leaves what the policies make. -/
theorem LedgerOK.release {s : Underwriting} (h : LedgerOK s) {i : ℕ} {p : CoveragePolicy}
    (hp : s.policies[i]? = some p) (hactive : p.status = .ACTIVE) {status : Status}
    (hs : status ≠ .ACTIVE) {capital : ℕ} {vault' : UnderwriterVault} {p' : CoveragePolicy}
    (hrel : releasePolicy { s.vault with capital } p status = .ok (vault', p')) :
    LedgerOK ⟨vault', s.policies.set i p'⟩ := by
  have hs₀ := (h.with_capital capital).sorted
  obtain ⟨rfl, hreserved, hexp, hs', -, hid⟩ := releasePolicy_eq_ok hs₀ hrel
  have har : activeReserve p = policyReserve p := activeReserve_of_active hactive
  have hmem : p ∈ s.policies := List.mem_of_getElem? hp
  refine ⟨hs', ?_, ?_, ?_, ?_⟩
  · intro q hq
    rcases List.mem_or_eq_of_mem_set hq with hq | rfl
    · rw [hid]
      exact h.vault_ids q hq
    · rw [hid]
      exact h.vault_ids p hmem
  · intro q hq
    rcases List.mem_or_eq_of_mem_set hq with hq | rfl
    · exact h.reserves_le q hq
    · exact h.reserves_le p hmem
  · show vault'.reserved = totalReserve (s.policies.set i { p with status })
    have hset := totalReserve_set hp hs
    rw [har] at hset
    have := h.reserved_eq
    dsimp only at hreserved
    omega
  · show vault'.exposures = exposuresOf (s.policies.set i { p with status })
    rw [hexp, exposuresOf_set hp hs, har]
    exact congrArg (Exposures.sub · _ _ _ _) h.exposures_eq

/-- Every call keeps the ledger. -/
theorem LedgerOK.apply {s s' : Underwriting} (h : LedgerOK s) {tx : InsuranceTx}
    {payments : Payments} (happ : Insurance.apply tx s = .ok (s', payments)) : LedgerOK s' := by
  unfold Insurance.apply at happ
  split at happ
  · -- deposit_capital
    obtain ⟨vault, hdep, happ⟩ := bind_eq_ok happ
    simp only [pure_eq_ok, Prod.mk.injEq] at happ
    obtain ⟨rfl, -⟩ := happ
    rw [deposit_capital_eq_ok hdep]
    exact h.with_capital _
  · -- withdraw_capital
    obtain ⟨⟨vault, _⟩, hwd, happ⟩ := bind_eq_ok happ
    simp only [pure_eq_ok, Prod.mk.injEq] at happ
    obtain ⟨rfl, -⟩ := happ
    rw [(withdraw_capital_eq_ok hwd).2.1]
    exact h.with_capital _
  · -- buy_coverage
    obtain ⟨⟨vault, policy, _⟩, hbuy, happ⟩ := bind_eq_ok happ
    simp only [pure_eq_ok, Prod.mk.injEq] at happ
    obtain ⟨rfl, -⟩ := happ
    exact h.buy_coverage hbuy
  · -- cancel_coverage
    rcases onPolicy_eq_ok happ with ⟨rfl, -⟩ | ⟨p, vault', p', hp, hcancel, rfl⟩
    · exact h
    · obtain ⟨hactive, _, -, hrel⟩ := cancel_coverage_eq_ok hcancel
      exact h.release hp hactive (by decide) hrel
  · -- claim
    rcases onPolicy_eq_ok happ with ⟨rfl, -⟩ | ⟨p, vault', p', hp, hclaim, rfl⟩
    · exact h
    · obtain ⟨hactive, -, _, -, hrel⟩ := claim_eq_ok hclaim
      exact h.release hp hactive (by decide) hrel
  · -- expire_policy
    rcases onPolicy_eq_ok happ with ⟨rfl, -⟩ | ⟨p, vault', p', hp, hexpire, rfl⟩
    · exact h
    · obtain ⟨⟨vault'', p''⟩, hexp, hf⟩ := bind_eq_ok hexpire
      simp only [pure_eq_ok, Prod.mk.injEq] at hf
      obtain ⟨rfl, rfl, -⟩ := hf
      rcases expire_policy_eq_ok hexp with ⟨rfl, rfl⟩ | ⟨hactive, hrel⟩
      · -- the policy written back unchanged
        obtain ⟨hi, hpi⟩ := List.getElem?_eq_some_iff.mp hp
        rw [← hpi, List.set_getElem_self hi]
        exact h
      · exact h.release hp hactive (by decide) hrel

theorem LedgerOK.step {s : Underwriting} (h : LedgerOK s) (tx : InsuranceTx) :
    LedgerOK (Insurance.step s tx) := by
  unfold Insurance.step
  split
  · next r happ => exact h.apply (show Insurance.apply tx s = .ok (r.1, r.2) from happ)
  · exact h

/-- Every run keeps the ledger. -/
theorem LedgerOK.run {s : Underwriting} (h : LedgerOK s) (txs : List InsuranceTx) :
    LedgerOK (Insurance.run s txs) :=
  foldl_inv LedgerOK h fun _ tx _ hs' => hs'.step tx

/-- The sums the ledger makes: `reserved` is the total of the active
policies' reserves, and so are the markets' totals and the users'
exposures; each market's options sum to the market's total. -/
theorem LedgerOK.sums {s : Underwriting} (h : LedgerOK s) :
    s.vault.reserved = totalReserve s.policies ∧
      (s.vault.market_exposures.map fun e => e.2.total_reserved).sum = s.vault.reserved ∧
      valSum s.vault.user_exposures = s.vault.reserved ∧
      ∀ e ∈ s.vault.market_exposures, e.2.total_reserved = valSum e.2.reserved_by_option := by
  have hm : ∀ k, marketRead s.vault MarketExposure.total_reserved k =
      keyTotal s.policies CoveragePolicy.market_id activeReserve k := fun k =>
    congrFun (congrArg Exposures.market h.exposures_eq) k
  have ho : ∀ k o, marketRead s.vault (get_option_reserved · o) k =
      keyTotal s.policies CoveragePolicy.option_id (marketWeight k) o := fun k o =>
    congrFun (congrFun (congrArg Exposures.option h.exposures_eq) k) o
  have hu : ∀ u, get_user_exposure s.vault u =
      keyTotal s.policies CoveragePolicy.insured activeReserve u := fun u =>
    congrFun (congrArg Exposures.user h.exposures_eq) u
  refine ⟨h.reserved_eq, ?_, ?_, ?_⟩
  · -- every policy with a reserve is on a market with an entry
    calc (s.vault.market_exposures.map fun e => e.2.total_reserved).sum
        = ((keys s.vault.market_exposures).map
            (marketRead s.vault MarketExposure.total_reserved)).sum :=
          (h.sorted.markets.sum_map_lookup_keys _).symm
      _ = ((keys s.vault.market_exposures).map
            (keyTotal s.policies CoveragePolicy.market_id activeReserve)).sum :=
          congrArg List.sum (List.map_congr_left fun k _ => hm k)
      _ = totalReserve s.policies :=
          sum_keyTotal_of_nodup _ _ _ h.sorted.markets.nodup_keys fun p hp hpos =>
            mem_keys_of_marketRead_pos (by rw [hm]; exact lt_of_lt_of_le hpos (le_keyTotal_of_mem hp _ _))
      _ = s.vault.reserved := h.reserved_eq.symm
  · -- every policy with a reserve has an insured user with an entry
    calc valSum s.vault.user_exposures
        = ((keys s.vault.user_exposures).map (get_user_exposure s.vault)).sum :=
          h.sorted.users.sum_lookup_keys.symm
      _ = ((keys s.vault.user_exposures).map
            (keyTotal s.policies CoveragePolicy.insured activeReserve)).sum :=
          congrArg List.sum (List.map_congr_left fun u _ => hu u)
      _ = totalReserve s.policies :=
          sum_keyTotal_of_nodup _ _ _ h.sorted.users.nodup_keys fun p hp hpos =>
            mem_keys_of_get_user_exposure_pos
              (by rw [hu]; exact lt_of_lt_of_le hpos (le_keyTotal_of_mem hp _ _))
      _ = s.vault.reserved := h.reserved_eq.symm
  · intro e he
    have hlook : lookup e.1 s.vault.market_exposures = some e.2 :=
      h.sorted.markets.lookup_eq_some_of_mem he
    have hse := h.sorted.options e he
    have hopt : ∀ o, get_option_reserved e.2 o =
        keyTotal s.policies CoveragePolicy.option_id (marketWeight e.1) o := fun o => by
      rw [← ho, marketRead_of_lookup hlook]
    -- the market's policies with a reserve are on options with an entry
    calc e.2.total_reserved
        = keyTotal s.policies CoveragePolicy.market_id activeReserve e.1 := by
          rw [← hm, marketRead_of_lookup hlook]
      _ = (s.policies.map (marketWeight e.1)).sum := by
          rw [keyTotal_eq_sum_ite]
          rfl
      _ = ((keys e.2.reserved_by_option).map
            (keyTotal s.policies CoveragePolicy.option_id (marketWeight e.1))).sum :=
          (sum_keyTotal_of_nodup _ _ _ hse.nodup_keys fun p hp hpos =>
            mem_keys_of_get_option_reserved_pos
              (by rw [hopt]; exact lt_of_lt_of_le hpos (le_keyTotal_of_mem hp _ _))).symm
      _ = ((keys e.2.reserved_by_option).map (get_option_reserved e.2)).sum :=
          congrArg List.sum (List.map_congr_left fun o _ => (hopt o).symm)
      _ = valSum e.2.reserved_by_option := hse.sum_lookup_keys

-- ============================================================ the asserts of the release

/-- An active policy of a vault that keeps the ledger is released: its
reserve is in `reserved` and in each of its entries. -/
theorem LedgerOK.releasePolicy_ok {s : Underwriting} (h : LedgerOK s) {i : ℕ}
    {p : CoveragePolicy} (hp : s.policies[i]? = some p) (hactive : p.status = .ACTIVE)
    (capital : ℕ) (status : Status) :
    ∃ vault', releasePolicy { s.vault with capital } p status = .ok (vault', { p with status }) := by
  have hmem : p ∈ s.policies := List.mem_of_getElem? hp
  have har : activeReserve p = policyReserve p := activeReserve_of_active hactive
  apply Insurance.releasePolicy_ok status (h.with_capital capital).sorted (h.reserves_le p hmem)
  · show policyReserve p ≤ s.vault.reserved
    rw [h.reserved_eq, ← har]
    exact activeReserve_le_totalReserve hmem
  · show policyReserve p ≤ s.vault.exposures.market p.market_id
    rw [h.exposures_eq, ← har]
    exact le_keyTotal_of_mem hmem _ _
  · show policyReserve p ≤ s.vault.exposures.option p.market_id p.option_id
    rw [h.exposures_eq]
    calc policyReserve p = marketWeight p.market_id p := by simp [marketWeight, har]
      _ ≤ _ := le_keyTotal_of_mem hmem _ _
  · show policyReserve p ≤ s.vault.exposures.user p.insured
    rw [h.exposures_eq, ← har]
    exact le_keyTotal_of_mem hmem _ _

theorem compute_reserve_eq_error {covered_amount coverage_bps : ℕ} {e : Abort}
    (h : compute_reserve covered_amount coverage_bps = .error e) : e = .EOverflow := by
  unfold compute_reserve at h
  simp only [require_bind_eq_error, pure_eq_error, and_false, or_false] at h
  exact h.2.symm

theorem quote_premium_eq_error {vault : UnderwriterVault} {covered_amount coverage_bps duration_ms : ℕ}
    {e : Abort} (h : quote_premium vault covered_amount coverage_bps duration_ms = .error e) :
    e = .EOverflow := by
  unfold quote_premium at h
  rcases bind_eq_error.mp h with h | ⟨_, -, h⟩
  · unfold utilizationBps at h
    split at h
    · cases h
    · simp only [require_bind_eq_error, pure_eq_error, and_false, or_false] at h
      exact h.2.symm
  · simp only [require_bind_eq_error, pure_eq_error, and_false, or_false] at h
    exact h.2.symm

theorem checkUserLimit_eq_error {vault : UnderwriterVault} {insured r : ℕ} {e : Abort}
    (h : checkUserLimit vault insured r = .error e) : e = .EOverflow ∨ e = .EExposureLimit := by
  unfold checkUserLimit at h
  split at h
  · simp only [require_bind_eq_error, require_eq_error] at h
    rcases h with ⟨-, rfl⟩ | ⟨-, -, rfl⟩
    · exact .inl rfl
    · exact .inr rfl
  · cases h

theorem checkMarketLimit_eq_error {max_exposure_per_market r : ℕ} {exposure : MarketExposure}
    {e : Abort} (h : checkMarketLimit max_exposure_per_market exposure r = .error e) :
    e = .EOverflow ∨ e = .EExposureLimit := by
  unfold checkMarketLimit at h
  split at h
  · simp only [require_bind_eq_error, require_eq_error] at h
    rcases h with ⟨-, rfl⟩ | ⟨-, -, rfl⟩
    · exact .inl rfl
    · exact .inr rfl
  · cases h

theorem enforce_exposure_limits_eq_error {vault : UnderwriterVault}
    {market_id insured option_id r : ℕ} {e : Abort}
    (h : enforce_exposure_limits vault market_id insured option_id r = .error e) :
    e = .EOverflow ∨ e = .EExposureLimit := by
  unfold enforce_exposure_limits at h
  rcases bind_eq_error.mp h with h | ⟨_, -, h⟩
  · exact checkUserLimit_eq_error h
  · rcases bind_eq_error.mp h with h | ⟨_, -, h⟩
    · exact checkMarketLimit_eq_error h
    · simp only [require_bind_eq_error, pure_eq_error, and_false, or_false] at h
      exact .inl h.2.symm

theorem add_exposure_eq_error {vault : UnderwriterVault} {market_id insured option_id r : ℕ}
    {e : Abort} (h : add_exposure vault market_id insured option_id r = .error e) :
    e = .EOverflow := by
  unfold add_exposure at h
  simp only [require_bind_eq_error, pure_eq_error, and_false, or_false] at h
  rcases h with ⟨-, rfl⟩ | ⟨-, ⟨-, rfl⟩ | ⟨-, -, rfl⟩⟩ <;> rfl

theorem claimPayout_eq_error {record : SpotObject} {policy : CoveragePolicy} {outcome : ℕ}
    {e : Abort} (h : claimPayout record policy outcome = .error e) : e = .EOverflow := by
  unfold claimPayout at h
  split at h
  · split at h
    · simp only [require_bind_eq_error, pure_eq_error, and_false, or_false] at h
      exact h.2.symm
    · cases h
  · cases h

theorem deposit_capital_ne_EExposureInvariantBroken (config : InsuranceConfig)
    (vault : UnderwriterVault) (payment : ℕ) :
    deposit_capital config vault payment ≠ .error .EExposureInvariantBroken := by
  intro hd
  unfold deposit_capital at hd
  simp only [require_bind_eq_error, reduceCtorEq, and_false, false_or, pure_eq_error] at hd

theorem withdraw_capital_ne_EExposureInvariantBroken (config : InsuranceConfig)
    (vault : UnderwriterVault) (amount : ℕ) (ctx : TxContext) :
    withdraw_capital config vault amount ctx ≠ .error .EExposureInvariantBroken := by
  intro hw
  unfold withdraw_capital at hw
  simp only [require_bind_eq_error, balance_split_bind_eq_error, reduceCtorEq, and_false,
    false_or, pure_eq_error] at hw

/-- A purchase never breaks the exposure invariant: it asserts nothing
of it. -/
theorem buy_coverage_ne_EExposureInvariantBroken (config : InsuranceConfig)
    (spot_config : SpotConfig) (vault : UnderwriterVault) (record : SpotObject)
    (option_id requested_coverage_amount coverage_bps duration_ms payment clock : ℕ)
    (ctx : TxContext) :
    buy_coverage config spot_config vault record option_id requested_coverage_amount coverage_bps
      duration_ms payment clock ctx ≠ .error .EExposureInvariantBroken := by
  intro hb
  unfold buy_coverage at hb
  simp only [require_bind_eq_error, reduceCtorEq, and_false, false_or] at hb
  obtain ⟨-, -, -, -, -, -, -, -, hb⟩ := hb
  rcases bind_eq_error.mp hb with hb | ⟨_, -, hb⟩
  · cases compute_reserve_eq_error hb
  simp only [require_bind_eq_error, reduceCtorEq, and_false, false_or] at hb
  obtain ⟨-, -, -, hb⟩ := hb
  rcases bind_eq_error.mp hb with hb | ⟨_, -, hb⟩
  · rcases enforce_exposure_limits_eq_error hb with hb | hb <;> cases hb
  rcases bind_eq_error.mp hb with hb | ⟨_, -, hb⟩
  · cases quote_premium_eq_error hb
  simp only [require_bind_eq_error, reduceCtorEq, and_false, false_or] at hb
  obtain ⟨-, -, hb⟩ := hb
  rcases bind_eq_error.mp hb with hb | ⟨_, -, hb⟩
  · cases add_exposure_eq_error hb
  simp only [require_bind_eq_error, reduceCtorEq, and_false, false_or, pure_eq_error] at hb

section release

variable {s : Underwriting} (h : LedgerOK s) {i : ℕ} {p : CoveragePolicy}
  (hp : s.policies[i]? = some p)
include h hp

/-- A cancellation of a policy of a vault that keeps the ledger never
breaks the exposure invariant. -/
theorem cancel_coverage_ne_EExposureInvariantBroken (config : InsuranceConfig)
    (spot_config : SpotConfig) (record : SpotObject) (clock : ℕ) (ctx : TxContext) :
    cancel_coverage config spot_config s.vault record p clock ctx ≠
      .error .EExposureInvariantBroken := by
  intro hc
  unfold cancel_coverage at hc
  simp only [require_bind_eq_error, reduceCtorEq, and_false, false_or] at hc
  obtain ⟨-, -, -, hactive, -, -, -, -, -, -, hc⟩ := hc
  rcases bind_eq_error.mp hc with hc | ⟨⟨c₁, _⟩, -, hc⟩
  · cases sendPart_eq_error hc
  rcases bind_eq_error.mp hc with hc | ⟨⟨c₂, _⟩, -, hc⟩
  · cases sendPart_eq_error hc
  obtain ⟨_, hrel⟩ := h.releasePolicy_ok hp hactive c₂ .CANCELLED
  rw [hrel] at hc
  simp at hc

/-- A claim on a policy of a vault that keeps the ledger never breaks
the exposure invariant. -/
theorem claim_ne_EExposureInvariantBroken (config : InsuranceConfig) (spot_config : SpotConfig)
    (record : SpotObject) (clock : ℕ) (ctx : TxContext) :
    claim config spot_config s.vault record p clock ctx ≠ .error .EExposureInvariantBroken := by
  intro hc
  unfold claim at hc
  simp only [require_bind_eq_error, reduceCtorEq, and_false, false_or] at hc
  obtain ⟨-, -, hactive, -, -, -, -, -, hc⟩ := hc
  rcases bind_eq_error.mp hc with hc | ⟨_, -, hc⟩
  · cases expectSome_eq_error hc
  rcases bind_eq_error.mp hc with hc | ⟨_, -, hc⟩
  · cases claimPayout_eq_error hc
  rcases bind_eq_error.mp hc with hc | ⟨⟨c₁, _⟩, -, hc⟩
  · cases sendPart_eq_error hc
  obtain ⟨_, hrel⟩ := h.releasePolicy_ok hp hactive c₁ .CLAIMED
  rw [hrel] at hc
  simp at hc

/-- An expiry of a policy of a vault that keeps the ledger never breaks
the exposure invariant. -/
theorem expire_policy_ne_EExposureInvariantBroken (clock : ℕ) :
    expire_policy s.vault p clock ≠ .error .EExposureInvariantBroken := by
  intro he
  unfold expire_policy at he
  split at he
  · cases he
  · next hactive =>
      split at he
      · cases he
      · split at he
        · cases he
        · obtain ⟨_, hrel⟩ := h.releasePolicy_ok hp (not_not.mp hactive) s.vault.capital .EXPIRED
          rw [hrel] at he
          cases he

end release

theorem onPolicy_ne_error {s : Underwriting} {i : ℕ}
    {f : CoveragePolicy → Except Abort (UnderwriterVault × CoveragePolicy × Payments)} {e : Abort}
    (hf : ∀ p, s.policies[i]? = some p → f p ≠ .error e) : onPolicy s i f ≠ .error e := by
  intro h
  unfold onPolicy at h
  split at h
  · cases h
  · next p hp =>
      rcases bind_eq_error.mp h with h | ⟨_, -, h⟩
      · exact hf p hp h
      · cases h

-- ============================================================ a vault and a market

/-- SPoT enabled, with a confidence threshold of 70% and a fee of 1%. -/
def spotEnabled : SpotConfig := ⟨true, 7000, 0, 100, 5000, 0, 10000⟩

/-- A new record on two options. -/
def newMarket : SocialProofOfTruth.SpotRecord :=
  { created_epoch := 0, status := .OPEN, outcome := none, escrow := 0,
    betting_options := ["yes", "no"], option_escrow := [], user_option_amounts := [],
    bets := [], resolution_window_epochs := none, max_resolution_window_epochs := none,
    last_resolution_epoch := 0, resolution_timestamp_ms := 0, pending_payouts := [] }

/-- The record after address 3 bets 1000 on the first option and
address 4 bets 10000 on the second. -/
def betMarket : SocialProofOfTruth.SpotRecord :=
  SocialProofOfTruth.run newMarket
    [(spotEnabled, ⟨3, 0, 0⟩, .place_spot_bet 1000 0 1000),
     (spotEnabled, ⟨4, 0, 0⟩, .place_spot_bet 10000 1 10000)]

/-- The record once the oracle resolves it to the first option. -/
def resolvedMarket : SocialProofOfTruth.SpotRecord :=
  SocialProofOfTruth.run betMarket
    [(spotEnabled, ⟨7, 0, 0⟩, .oracle_resolve 0 9000 "the post holds up" ["evidence"])]

/-- The default configuration, enabled. -/
def enabledConfig : InsuranceConfig := set_enable_flag bootstrap_init true

/-- A vault of address 9 at a daily rate of 100%, without utilization
pricing or exposure limits. -/
def newVault : UnderwriterVault := create_vault 1 10000 0 0 0 ⟨9, 0, 0⟩

/-- The underwriter deposits 100; at time 1000 address 3 covers its
position at 10% for thirty days (a reserve of 100 for a premium of
3000) and address 4 covers its position at 10% for an hour (a reserve
of 1000 for a premium of 41); then address 3 cancels at once. -/
def cancelRun : List InsuranceTx :=
  [⟨enabledConfig, 1000, ⟨9, 0, 0⟩, .deposit_capital 100⟩,
   ⟨enabledConfig, 1000, ⟨3, 0, 0⟩,
     .buy_coverage spotEnabled ⟨40, betMarket⟩ 0 1000 1000 2592000000 3000⟩,
   ⟨enabledConfig, 1000, ⟨4, 0, 0⟩,
     .buy_coverage spotEnabled ⟨40, betMarket⟩ 1 10000 1000 3600000 41⟩,
   ⟨enabledConfig, 1000, ⟨3, 0, 0⟩, .cancel_coverage spotEnabled ⟨40, betMarket⟩ 0⟩]

/-- No call on a vault that keeps the ledger fires an
`EExposureInvariantBroken` assert. -/
theorem apply_ne_EExposureInvariantBroken {s : Underwriting} (h : LedgerOK s) (tx : InsuranceTx) :
    Insurance.apply tx s ≠ .error .EExposureInvariantBroken := by
  unfold Insurance.apply
  split
  · intro hd
    rcases bind_eq_error.mp hd with hd | ⟨_, -, hd⟩
    · exact deposit_capital_ne_EExposureInvariantBroken _ _ _ hd
    · cases hd
  · intro hw
    rcases bind_eq_error.mp hw with hw | ⟨_, -, hw⟩
    · exact withdraw_capital_ne_EExposureInvariantBroken _ _ _ _ hw
    · cases hw
  · intro hb
    rcases bind_eq_error.mp hb with hb | ⟨_, -, hb⟩
    · exact buy_coverage_ne_EExposureInvariantBroken _ _ _ _ _ _ _ _ _ _ _ hb
    · cases hb
  · exact onPolicy_ne_error fun p hp => cancel_coverage_ne_EExposureInvariantBroken h hp _ _ _ _ _
  · exact onPolicy_ne_error fun p hp => claim_ne_EExposureInvariantBroken h hp _ _ _ _ _
  · refine onPolicy_ne_error fun p hp he => ?_
    rcases bind_eq_error.mp he with he | ⟨_, -, he⟩
    · exact expire_policy_ne_EExposureInvariantBroken h hp _ he
    · cases he

/-- Address 3's cancellation on the vault where addresses 3 and 4 hold
cover goes through: the exposure asserts of the release pass. -/
theorem cancel_keeps_exposures :
    (Insurance.apply ⟨enabledConfig, 1000, ⟨3, 0, 0⟩, .cancel_coverage spotEnabled ⟨40, betMarket⟩ 0⟩
      (run ⟨newVault, []⟩ (cancelRun.take 3))).toBool = true ∧
    Insurance.apply ⟨enabledConfig, 1000, ⟨3, 0, 0⟩, .cancel_coverage spotEnabled ⟨40, betMarket⟩ 0⟩
      (run ⟨newVault, []⟩ (cancelRun.take 3)) ≠ .error .EExposureInvariantBroken :=
  ⟨by decide, apply_ne_EExposureInvariantBroken ((LedgerOK.create_vault 1 10000 0 0 0 ⟨9, 0, 0⟩).run _) _⟩

end MysoCore.Social.Insurance
