/-
The MYSO price window of a pool (orderbook/sources/vault/myso_price.move):
the conversion rates between MYSO and the pool's base and quote assets,
sampled at most once a minute, and the mean rate an order pays its fees
at.

# The model

Each side keeps its price points in a vector, with a running sum of their
rates. `add_price_point` asserts that the point comes more than a minute
after the side's last one, pushes it, adds its rate to the running sum,
and then pops the front while the side holds `MAX_DATA_POINTS + 1` points
or the front is more than a day older than the new point (`evict`). The
two branches of the source differ only in the side they write, and both
run `pushAndEvict`. Unlike the rest of the order book, the runtime aborts
of this code are modelled, as `Failure`s: the `u64` additions abort on
overflow, and the loop's `asset_prices[0]` and its subtraction would
abort on an empty vector or below zero; that the loop never reaches the
last two, nor `calculate_order_myso_price` a zero divisor, is part of
what is proved.

# The window invariant

`SideWF` holds of a side whose running sum is the sum of its rates, with
at most `MAX_DATA_POINTS` points, timestamps increasing, none more than a
day older than the newest, and each past the first minute, so that a last
timestamp of zero means an empty side. After a push onto such a side the
eviction pops only points before the new one and keeps the running sum
exact, so it either aborts on a `u64` overflow of a timestamp plus a day
or keeps a suffix ending in the new point (`evict_push`). Every call
keeps the invariant and either ends with its point last on its side or
aborts on the assertion or on an overflow (`WF.add_price_point_cases`),
so every run from `empty` keeps it (`WF.run`) and a side once non-empty
stays so (`prices_ne_nil_run`). Over such a state
`calculate_order_myso_price` reads the quote side when it has points and
the base side otherwise, and returns the floor of the mean of that side's
rates (`WF.calculate_order_myso_price_eq`).
-/
import MysoCore.Orderbook.Basic
import MysoCore.Lib.ExceptFold

namespace MysoCore.Orderbook.myso_price

/-- Why a call aborts: the module's errors, or the Move runtime. -/
inductive Failure
  | EDataPointRecentlyAdded
  | ENoDataPoints
  | INDEX_OUT_OF_BOUNDS
  | ARITHMETIC_ERROR
  deriving DecidableEq, Repr

def MIN_DURATION_BETWEEN_DATA_POINTS_MS : ℕ := 1000 * 60
def MAX_DATA_POINT_AGE_MS : ℕ := 1000 * 60 * 60 * 24
def MAX_DATA_POINTS : ℕ := 100

/-- The largest `u64`. -/
def MAX_U64 : ℕ := 18446744073709551615

/-- `a + b` on `u64`: aborts past `MAX_U64`. -/
def add (a b : ℕ) : Except Failure ℕ :=
  if a + b ≤ MAX_U64 then .ok (a + b) else .error .ARITHMETIC_ERROR

theorem add_of_le {a b : ℕ} (h : a + b ≤ MAX_U64) : add a b = .ok (a + b) := if_pos h

theorem add_of_lt {a b : ℕ} (h : MAX_U64 < a + b) : add a b = .error .ARITHMETIC_ERROR :=
  if_neg (Nat.not_le.mpr h)

/-- `a - b` on `u64`: aborts below zero. -/
def sub (a b : ℕ) : Except Failure ℕ :=
  if b ≤ a then .ok (a - b) else .error .ARITHMETIC_ERROR

/-- `a / b` on `u64`: aborts on a zero divisor. -/
def div (a b : ℕ) : Except Failure ℕ :=
  if b = 0 then .error .ARITHMETIC_ERROR else .ok (a / b)

structure Price where
  conversion_rate : ℕ
  timestamp : ℕ
  deriving DecidableEq, Repr

structure MySoPrice where
  base_prices : List Price
  cumulative_base : ℕ
  quote_prices : List Price
  cumulative_quote : ℕ
  deriving DecidableEq, Repr

/-- The sum of the rates of some points. -/
def rateSum (prices : List Price) : ℕ := (prices.map Price.conversion_rate).sum

@[simp] theorem rateSum_nil : rateSum [] = 0 := rfl

@[simp] theorem rateSum_cons (p : Price) (prices : List Price) :
    rateSum (p :: prices) = p.conversion_rate + rateSum prices := by
  simp [rateSum]

@[simp] theorem rateSum_append (l₁ l₂ : List Price) :
    rateSum (l₁ ++ l₂) = rateSum l₁ + rateSum l₂ := by
  simp [rateSum]

namespace MySoPrice

def empty : MySoPrice := ⟨[], 0, [], 0⟩

/-- The points of one side, picked as the source picks them. -/
def prices (self : MySoPrice) (is_base_conversion : Bool) : List Price :=
  if is_base_conversion then self.base_prices else self.quote_prices

/-- The running sum of one side. -/
def cumulative (self : MySoPrice) (is_base_conversion : Bool) : ℕ :=
  if is_base_conversion then self.cumulative_base else self.cumulative_quote

/-- `last_insert_timestamp`: the timestamp of a side's last point, zero
on an empty side. -/
def last_insert_timestamp (self : MySoPrice) (is_base_conversion : Bool) : ℕ :=
  match (self.prices is_base_conversion).getLast? with
  | some price => price.timestamp
  | none => 0

end MySoPrice

-- ============================================================ the source

/-- The condition of the eviction loop, `asset_prices.length() ==
MAX_DATA_POINTS + 1 || asset_prices[0].timestamp + MAX_DATA_POINT_AGE_MS <
timestamp`, on a vector with a front: the right operand is evaluated only
when the left is false. -/
def evictCond (timestamp : ℕ) (front : Price) (rest : List Price) : Except Failure Bool :=
  if rest.length + 1 = MAX_DATA_POINTS + 1 then .ok true
  else do
    let expiry ← add front.timestamp MAX_DATA_POINT_AGE_MS
    pure (decide (expiry < timestamp))

/-- The eviction loop of `add_price_point`, over a side's points and its
running sum. -/
def evict (timestamp : ℕ) : List Price → ℕ → Except Failure (List Price × ℕ)
  -- the condition reads `asset_prices[0]` of an empty vector
  | [], _ => .error .INDEX_OUT_OF_BOUNDS
  | front :: rest, cumulative => do
    if ← evictCond timestamp front rest then
      let cumulative ← sub cumulative front.conversion_rate
      evict timestamp rest cumulative
    else pure (front :: rest, cumulative)

/-- One side's part of `add_price_point` after its assertion: push the
point, add its rate to the running sum, and evict. -/
def pushAndEvict (prices : List Price) (cumulative conversion_rate timestamp : ℕ) :
    Except Failure (List Price × ℕ) := do
  let cumulative ← add cumulative conversion_rate
  evict timestamp (prices ++ [⟨conversion_rate, timestamp⟩]) cumulative

namespace MySoPrice

/-- `add_price_point`. -/
def add_price_point (self : MySoPrice) (conversion_rate timestamp : ℕ)
    (is_base_conversion : Bool) : Except Failure MySoPrice := do
  let earliest ←
    add (self.last_insert_timestamp is_base_conversion) MIN_DURATION_BETWEEN_DATA_POINTS_MS
  if earliest < timestamp then
    if is_base_conversion then
      let (base_prices, cumulative_base) ←
        pushAndEvict self.base_prices self.cumulative_base conversion_rate timestamp
      pure { self with base_prices, cumulative_base }
    else
      let (quote_prices, cumulative_quote) ←
        pushAndEvict self.quote_prices self.cumulative_quote conversion_rate timestamp
      pure { self with quote_prices, cumulative_quote }
  else throw .EDataPointRecentlyAdded

/-- `calculate_order_myso_price`: the side read and the mean rate of its
points; whitelisted pools pay no fees. -/
def calculate_order_myso_price (self : MySoPrice) (whitelisted : Bool) :
    Except Failure (Bool × ℕ) :=
  if whitelisted then .ok (false, 0)
  else if ¬(self.last_insert_timestamp true > 0 ∨ self.last_insert_timestamp false > 0) then
    .error .ENoDataPoints
  else do
    let is_base_conversion := decide (self.last_insert_timestamp false = 0)
    let cumulative_asset :=
      if is_base_conversion then self.cumulative_base else self.cumulative_quote
    let asset_length :=
      if is_base_conversion then self.base_prices.length else self.quote_prices.length
    let myso_per_asset ← div cumulative_asset asset_length
    pure (is_base_conversion, myso_per_asset)

/-- `get_order_myso_price`. -/
def get_order_myso_price (self : MySoPrice) (whitelisted : Bool) :
    Except Failure OrderMySoPrice := do
  let (asset_is_base, myso_per_asset) ← self.calculate_order_myso_price whitelisted
  pure ⟨asset_is_base, myso_per_asset⟩

/-- One call of `add_price_point`. -/
structure PriceCall where
  conversion_rate : ℕ
  timestamp : ℕ
  is_base_conversion : Bool
  deriving DecidableEq, Repr

/-- A transaction making one call: an aborted one changes nothing. -/
def apply (self : MySoPrice) (call : PriceCall) : MySoPrice :=
  (self.add_price_point call.conversion_rate call.timestamp call.is_base_conversion).toOption.getD
    self

def run (self : MySoPrice) (calls : List PriceCall) : MySoPrice := calls.foldl apply self

/-- A side replaced, as the branches of `add_price_point` replace it. -/
def setSide (self : MySoPrice) (is_base_conversion : Bool) (prices : List Price)
    (cumulative : ℕ) : MySoPrice :=
  if is_base_conversion then { self with base_prices := prices, cumulative_base := cumulative }
  else { self with quote_prices := prices, cumulative_quote := cumulative }

@[simp] theorem prices_setSide_self (self : MySoPrice) (b : Bool) (prices : List Price)
    (cumulative : ℕ) : (self.setSide b prices cumulative).prices b = prices := by
  cases b <;> rfl

@[simp] theorem prices_setSide_not (self : MySoPrice) (b : Bool) (prices : List Price)
    (cumulative : ℕ) : (self.setSide b prices cumulative).prices (!b) = self.prices (!b) := by
  cases b <;> rfl

/-- The two branches of `add_price_point` are one, over the side called. -/
theorem add_price_point_eq (self : MySoPrice) (conversion_rate timestamp : ℕ) (b : Bool) :
    self.add_price_point conversion_rate timestamp b =
      add (self.last_insert_timestamp b) MIN_DURATION_BETWEEN_DATA_POINTS_MS >>= fun earliest =>
          if earliest < timestamp then
            pushAndEvict (self.prices b) (self.cumulative b) conversion_rate timestamp >>=
              fun kept => .ok (self.setSide b kept.1 kept.2)
          else .error .EDataPointRecentlyAdded := by
  cases b <;> rfl

end MySoPrice

-- ============================================================ eviction

/-- What the eviction after a push keeps of the points `l`: a non-empty
suffix of them, of at most `MAX_DATA_POINTS` points, none more than a day
older than `timestamp`. -/
structure Kept (timestamp : ℕ) (l kept : List Price) : Prop where
  suffix : kept <:+ l
  ne_nil : kept ≠ []
  length_le : kept.length ≤ MAX_DATA_POINTS
  recent : ∀ p ∈ kept, timestamp ≤ p.timestamp + MAX_DATA_POINT_AGE_MS

theorem Kept.cons {timestamp : ℕ} {l kept : List Price} (h : Kept timestamp l kept) (p : Price) :
    Kept timestamp (p :: l) kept :=
  ⟨h.suffix.trans (List.suffix_cons p l), h.ne_nil, h.length_le, h.recent⟩

theorem evict_cons (timestamp : ℕ) (front : Price) (rest : List Price) (cumulative : ℕ) :
    evict timestamp (front :: rest) cumulative =
      evictCond timestamp front rest >>= fun c =>
        if c then sub cumulative front.conversion_rate >>= evict timestamp rest
        else .ok (front :: rest, cumulative) := rfl

/-- The loop's condition pops the front (the side being full or the front
more than a day old), keeps it (with room for it and within a day of
`timestamp`), or aborts on an overflow. -/
theorem evictCond_cases (timestamp : ℕ) (front : Price) (rest : List Price) :
    (evictCond timestamp front rest = .ok true ∧
      (rest.length = MAX_DATA_POINTS ∨ front.timestamp + MAX_DATA_POINT_AGE_MS < timestamp)) ∨
    (evictCond timestamp front rest = .ok false ∧ rest.length ≠ MAX_DATA_POINTS ∧
      timestamp ≤ front.timestamp + MAX_DATA_POINT_AGE_MS) ∨
    (evictCond timestamp front rest = .error .ARITHMETIC_ERROR ∧
      MAX_U64 < front.timestamp + MAX_DATA_POINT_AGE_MS) := by
  by_cases hfull : rest.length + 1 = MAX_DATA_POINTS + 1
  · exact Or.inl ⟨if_pos hfull, Or.inl (by omega)⟩
  have hcond : evictCond timestamp front rest =
      (add front.timestamp MAX_DATA_POINT_AGE_MS >>= fun expiry =>
        .ok (decide (expiry < timestamp))) := if_neg hfull
  rw [hcond]
  by_cases hfit : front.timestamp + MAX_DATA_POINT_AGE_MS ≤ MAX_U64
  · rw [add_of_le hfit, ExceptFold.ok_bind]
    by_cases hold : front.timestamp + MAX_DATA_POINT_AGE_MS < timestamp
    · left
      rw [decide_eq_true hold]
      exact ⟨rfl, Or.inr hold⟩
    · right; left
      rw [decide_eq_false hold]
      exact ⟨rfl, by omega, by omega⟩
  · right; right
    rw [add_of_lt (by omega)]
    exact ⟨rfl, by omega⟩

/-- Eviction after a push of `new` at `timestamp`, onto increasing points
all before it, at most `MAX_DATA_POINTS` of them, with the running sum of
all: it aborts on an overflow of a timestamp plus a day, or keeps a
suffix, with its running sum. The induction is on the points before the
new one; the new one is never popped, being within a day of itself and
alone once the rest are gone. -/
theorem evict_push {timestamp : ℕ} {new : Price} (hnew : new.timestamp = timestamp) :
    ∀ {xs : List Price} {cumulative : ℕ},
      (xs.map Price.timestamp).Pairwise (· < ·) → (∀ p ∈ xs, p.timestamp < timestamp) →
      xs.length ≤ MAX_DATA_POINTS → cumulative = rateSum (xs ++ [new]) →
      (evict timestamp (xs ++ [new]) cumulative = .error .ARITHMETIC_ERROR ∧
        MAX_U64 < timestamp + MAX_DATA_POINT_AGE_MS) ∨
      ∃ kept, evict timestamp (xs ++ [new]) cumulative = .ok (kept, rateSum kept) ∧
        Kept timestamp (xs ++ [new]) kept := by
  intro xs
  induction xs with
  | nil =>
    intro cumulative _ _ _ hcum
    rcases evictCond_cases timestamp new [] with ⟨-, hwhy⟩ | ⟨hc, -, -⟩ | ⟨hc, hover⟩
    · -- a lone new point is never old, and one point is not too many
      rcases hwhy with hfull | hold
      · exact absurd hfull (by decide)
      · omega
    · right
      refine ⟨[new], ?_, ?_⟩
      · rw [List.nil_append, evict_cons, hc, ExceptFold.ok_bind, if_neg Bool.false_ne_true, hcum]
        rfl
      refine ⟨List.suffix_refl _, List.cons_ne_nil _ _, by rw [List.length_singleton]; decide, ?_⟩
      intro p hp
      rw [List.mem_singleton.mp hp, hnew]
      omega
    · left
      rw [List.nil_append, evict_cons, hc]
      exact ⟨rfl, hnew ▸ hover⟩
  | cons p xs ih =>
    intro cumulative hinc hlt hlen hcum
    rw [List.map_cons, List.pairwise_cons] at hinc
    have hcum' : cumulative = p.conversion_rate + rateSum (xs ++ [new]) := by
      rw [hcum, List.cons_append, rateSum_cons]
    rw [List.cons_append]
    rcases evictCond_cases timestamp p (xs ++ [new]) with ⟨hc, -⟩ | ⟨hc, hroom, hrecent⟩ | ⟨hc, hover⟩
    · -- the front is popped: the running sum drops by its rate, and the rest is evicted
      have hsub : sub cumulative p.conversion_rate = .ok (rateSum (xs ++ [new])) := by
        rw [sub, if_pos (by omega)]
        congr 1
        omega
      have hrest := ih hinc.2 (fun q hq => hlt q (List.mem_cons_of_mem p hq))
        (by simp only [List.length_cons] at hlen; omega) rfl
      rw [evict_cons, hc, ExceptFold.ok_bind, if_pos rfl, hsub, ExceptFold.ok_bind]
      rcases hrest with hev | ⟨kept, hev, hkept⟩
      · exact Or.inl hev
      · exact Or.inr ⟨kept, hev, hkept.cons p⟩
    · -- the loop stops at the front: every point is kept, the later ones being newer
      right
      refine ⟨p :: (xs ++ [new]), ?_, ?_⟩
      · rw [evict_cons, hc, ExceptFold.ok_bind, if_neg Bool.false_ne_true, hcum]
        rfl
      refine ⟨List.suffix_refl _, List.cons_ne_nil _ _, ?_, ?_⟩
      · simp only [List.length_cons, List.length_append, List.length_nil] at hroom hlen ⊢
        omega
      · intro q hq
        rcases List.mem_cons.mp hq with rfl | hq
        · exact hrecent
        rcases List.mem_append.mp hq with hq | hq
        · have : p.timestamp < q.timestamp := hinc.1 _ (List.mem_map_of_mem hq)
          omega
        · rw [List.mem_singleton.mp hq, hnew]
          omega
    · left
      rw [evict_cons, hc]
      exact ⟨rfl, by have := hlt p List.mem_cons_self; omega⟩

-- ============================================================ the invariant

/-- The window invariant of one side. -/
structure SideWF (prices : List Price) (cumulative : ℕ) : Prop where
  cumulative_eq : cumulative = rateSum prices
  length_le : prices.length ≤ MAX_DATA_POINTS
  increasing : (prices.map Price.timestamp).Pairwise (· < ·)
  recent : ∀ newest ∈ prices.getLast?, ∀ p ∈ prices,
    newest.timestamp ≤ p.timestamp + MAX_DATA_POINT_AGE_MS
  after_first_minute : ∀ p ∈ prices, MIN_DURATION_BETWEEN_DATA_POINTS_MS < p.timestamp

theorem SideWF.nil : SideWF [] 0 :=
  ⟨rfl, Nat.zero_le _, List.Pairwise.nil, by simp, by simp⟩

/-- The last point of an increasing side is its newest. -/
theorem SideWF.le_last {prices : List Price} {cumulative : ℕ} (h : SideWF prices cumulative)
    {last : Price} (hlast : prices.getLast? = some last) :
    ∀ p ∈ prices, p.timestamp ≤ last.timestamp := by
  obtain ⟨init, rfl⟩ := List.getLast?_eq_some_iff.mp hlast
  have hinc := h.increasing
  rw [List.map_append, List.pairwise_append] at hinc
  intro p hp
  rcases List.mem_append.mp hp with hp | hp
  · exact le_of_lt (hinc.2.2 _ (List.mem_map_of_mem hp) _ List.mem_cons_self)
  · rw [List.mem_singleton.mp hp]

/-- A push past every point of a side keeps the invariant, or aborts on
an overflow of the running sum or of the timestamp plus a day; what it
keeps ends in the new point. -/
theorem SideWF.pushAndEvict_cases {prices : List Price} {cumulative : ℕ}
    (h : SideWF prices cumulative) (conversion_rate : ℕ) {timestamp : ℕ}
    (hbefore : ∀ p ∈ prices, p.timestamp < timestamp)
    (hminute : MIN_DURATION_BETWEEN_DATA_POINTS_MS < timestamp) :
    (pushAndEvict prices cumulative conversion_rate timestamp = .error .ARITHMETIC_ERROR ∧
      (MAX_U64 < cumulative + conversion_rate ∨ MAX_U64 < timestamp + MAX_DATA_POINT_AGE_MS)) ∨
    ∃ kept, pushAndEvict prices cumulative conversion_rate timestamp = .ok (kept, rateSum kept) ∧
      SideWF kept (rateSum kept) ∧ kept.getLast? = some ⟨conversion_rate, timestamp⟩ := by
  unfold pushAndEvict
  by_cases hfit : cumulative + conversion_rate ≤ MAX_U64
  swap
  · left
    rw [add_of_lt (by omega)]
    exact ⟨rfl, Or.inl (by omega)⟩
  rw [add_of_le hfit, ExceptFold.ok_bind]
  have hsum : cumulative + conversion_rate = rateSum (prices ++ [⟨conversion_rate, timestamp⟩]) := by
    simp [h.cumulative_eq]
  rcases evict_push rfl h.increasing hbefore h.length_le hsum with ⟨hev, hover⟩ | ⟨kept, hev, hkept⟩
  · exact Or.inl ⟨hev, Or.inr hover⟩
  right
  -- the suffix kept ends where the pushed points end, in the new point
  obtain ⟨dropped, hsplit⟩ := hkept.suffix
  have hlast : kept.getLast? = some ⟨conversion_rate, timestamp⟩ := by
    rw [← List.getLast?_append_of_ne_nil dropped hkept.ne_nil, hsplit, List.getLast?_append,
      List.getLast?_singleton]
    rfl
  have hmem : ∀ p ∈ kept, p ∈ prices ++ [⟨conversion_rate, timestamp⟩] := fun p hp =>
    hkept.suffix.subset hp
  refine ⟨kept, hev, ⟨rfl, hkept.length_le, ?_, ?_, ?_⟩, hlast⟩
  · have hinc : ((prices ++ [(⟨conversion_rate, timestamp⟩ : Price)]).map Price.timestamp).Pairwise
        (· < ·) := by
      rw [List.map_append, List.pairwise_append]
      refine ⟨h.increasing, List.pairwise_singleton _ _, ?_⟩
      intro a ha b hb
      obtain ⟨p, hp, rfl⟩ := List.mem_map.mp ha
      rw [List.map_singleton, List.mem_singleton] at hb
      rw [hb]
      exact hbefore p hp
    exact hinc.sublist (hkept.suffix.sublist.map _)
  · intro newest hnewest p hp
    rw [hlast, Option.mem_some_iff] at hnewest
    rw [← hnewest]
    exact hkept.recent p hp
  · intro p hp
    rcases List.mem_append.mp (hmem p hp) with hp | hp
    · exact h.after_first_minute p hp
    · rw [List.mem_singleton.mp hp]
      exact hminute

namespace MySoPrice

/-- The window invariant of both sides. -/
structure WF (m : MySoPrice) : Prop where
  base : SideWF m.base_prices m.cumulative_base
  quote : SideWF m.quote_prices m.cumulative_quote

theorem WF.empty : empty.WF := ⟨SideWF.nil, SideWF.nil⟩

theorem WF.side {self : MySoPrice} (h : self.WF) (b : Bool) :
    SideWF (self.prices b) (self.cumulative b) := by
  cases b
  · exact h.quote
  · exact h.base

theorem WF.setSide {self : MySoPrice} (h : self.WF) (b : Bool) {prices : List Price}
    {cumulative : ℕ} (hside : SideWF prices cumulative) : (self.setSide b prices cumulative).WF := by
  cases b
  · exact ⟨h.base, hside⟩
  · exact ⟨hside, h.quote⟩

/-- A call past the last point of a side comes after all of them. -/
theorem WF.lt_of_last_insert_timestamp {self : MySoPrice} (h : self.WF) {b : Bool}
    {timestamp : ℕ} (ht : self.last_insert_timestamp b < timestamp) :
    ∀ p ∈ self.prices b, p.timestamp < timestamp := by
  unfold last_insert_timestamp at ht
  intro p hp
  cases hlast : (self.prices b).getLast? with
  | none => exact absurd hp (by rw [List.getLast?_eq_none_iff.mp hlast]; exact List.not_mem_nil)
  | some last =>
    rw [hlast] at ht
    exact lt_of_le_of_lt ((h.side b).le_last hlast p hp) ht

/-- A last timestamp of zero means an empty side: every point is past the
first minute. -/
theorem WF.last_insert_timestamp_pos_iff {self : MySoPrice} (h : self.WF) (b : Bool) :
    0 < self.last_insert_timestamp b ↔ self.prices b ≠ [] := by
  unfold last_insert_timestamp
  cases hlast : (self.prices b).getLast? with
  | none => simp [List.getLast?_eq_none_iff.mp hlast]
  | some last =>
    have hmem : last ∈ self.prices b := List.mem_of_getLast? hlast
    have := (h.side b).after_first_minute last hmem
    simp only [ne_eq, List.ne_nil_of_mem hmem, not_false_eq_true, iff_true]
    omega

/-- What a call does to a state keeping the invariant: it aborts on its
assertion, or on a `u64` overflow of the last timestamp plus a minute, of
the running sum or of the timestamp plus a day, or it keeps the invariant,
ends with its point last on its side, and leaves the other side as it
was. -/
theorem WF.add_price_point_cases {self : MySoPrice} (h : self.WF)
    (conversion_rate timestamp : ℕ) (b : Bool) :
    (self.add_price_point conversion_rate timestamp b = .error .EDataPointRecentlyAdded ∧
      timestamp ≤ self.last_insert_timestamp b + MIN_DURATION_BETWEEN_DATA_POINTS_MS) ∨
    (self.add_price_point conversion_rate timestamp b = .error .ARITHMETIC_ERROR ∧
      (MAX_U64 < self.last_insert_timestamp b + MIN_DURATION_BETWEEN_DATA_POINTS_MS ∨
        MAX_U64 < self.cumulative b + conversion_rate ∨
        MAX_U64 < timestamp + MAX_DATA_POINT_AGE_MS)) ∨
    ∃ next, self.add_price_point conversion_rate timestamp b = .ok next ∧ next.WF ∧
      (next.prices b).getLast? = some ⟨conversion_rate, timestamp⟩ ∧
      next.prices (!b) = self.prices (!b) := by
  rw [add_price_point_eq]
  by_cases hfit : self.last_insert_timestamp b + MIN_DURATION_BETWEEN_DATA_POINTS_MS ≤ MAX_U64
  swap
  · right; left
    rw [add_of_lt (by omega)]
    exact ⟨rfl, Or.inl (by omega)⟩
  rw [add_of_le hfit, ExceptFold.ok_bind]
  by_cases hlt : self.last_insert_timestamp b + MIN_DURATION_BETWEEN_DATA_POINTS_MS < timestamp
  swap
  · left
    exact ⟨if_neg hlt, by omega⟩
  rw [if_pos hlt]
  have hbefore := h.lt_of_last_insert_timestamp
    (by omega : self.last_insert_timestamp b < timestamp)
  rcases (h.side b).pushAndEvict_cases conversion_rate hbefore (by omega) with
    ⟨hpush, hover⟩ | ⟨kept, hpush, hkept, hlast⟩
  · right; left
    rw [hpush]
    exact ⟨rfl, Or.inr hover⟩
  · right; right
    rw [hpush]
    exact ⟨_, rfl, h.setSide b hkept, by rw [prices_setSide_self]; exact hlast,
      prices_setSide_not _ _ _ _⟩

theorem apply_of_ok {self next : MySoPrice} {call : PriceCall}
    (h : self.add_price_point call.conversion_rate call.timestamp call.is_base_conversion =
      .ok next) : self.apply call = next := by
  unfold MySoPrice.apply
  rw [h]
  rfl

theorem apply_of_error {self : MySoPrice} {call : PriceCall} {e : Failure}
    (h : self.add_price_point call.conversion_rate call.timestamp call.is_base_conversion =
      .error e) : self.apply call = self := by
  unfold MySoPrice.apply
  rw [h]
  rfl

theorem WF.apply {self : MySoPrice} (h : self.WF) (call : PriceCall) : (self.apply call).WF := by
  rcases h.add_price_point_cases call.conversion_rate call.timestamp call.is_base_conversion with
    ⟨hcall, -⟩ | ⟨hcall, -⟩ | ⟨next, hcall, hnext, -⟩
  · rw [apply_of_error hcall]
    exact h
  · rw [apply_of_error hcall]
    exact h
  · rw [apply_of_ok hcall]
    exact hnext

theorem WF.run {self : MySoPrice} (h : self.WF) : ∀ calls : List PriceCall, (self.run calls).WF := by
  -- by induction on the calls, the invariant carried from each state to the next
  intro calls
  induction calls generalizing self with
  | nil => exact h
  | cons call calls ih =>
    rw [MySoPrice.run, List.foldl_cons, ← MySoPrice.run]
    exact ih (h.apply call)

/-- A side with points keeps some through any call. -/
theorem prices_ne_nil_apply {self : MySoPrice} (h : self.WF) {b : Bool}
    (hne : self.prices b ≠ []) (call : PriceCall) : (self.apply call).prices b ≠ [] := by
  rcases h.add_price_point_cases call.conversion_rate call.timestamp call.is_base_conversion with
    ⟨hcall, -⟩ | ⟨hcall, -⟩ | ⟨next, hcall, -, hlast, hother⟩
  · rw [apply_of_error hcall]
    exact hne
  · rw [apply_of_error hcall]
    exact hne
  · -- the side called ends in the new point; the other is untouched
    rw [apply_of_ok hcall]
    by_cases hb : call.is_base_conversion = b
    · rw [← hb]
      exact List.ne_nil_of_mem (List.mem_of_getLast? hlast)
    · have : b = !call.is_base_conversion := by
        revert hb
        cases b <;> cases call.is_base_conversion <;> simp
      rw [this, hother, ← this]
      exact hne

theorem prices_ne_nil_run {self : MySoPrice} (h : self.WF) {b : Bool} (hne : self.prices b ≠ []) :
    ∀ calls : List PriceCall, (self.run calls).prices b ≠ [] := by
  intro calls
  induction calls generalizing self with
  | nil => exact hne
  | cons call calls ih =>
    rw [run, List.foldl_cons, ← run]
    exact ih (h.apply call) (prices_ne_nil_apply h hne call)

/-- Over a state keeping the invariant, the fee price reads the quote
side when it has points and the base side otherwise, and is the floor of
the mean of that side's rates. -/
theorem WF.calculate_order_myso_price_eq {self : MySoPrice} (h : self.WF) :
    self.calculate_order_myso_price false =
      if self.quote_prices ≠ [] then
        .ok (false, rateSum self.quote_prices / self.quote_prices.length)
      else if self.base_prices ≠ [] then
        .ok (true, rateSum self.base_prices / self.base_prices.length)
      else .error .ENoDataPoints := by
  have hbase := h.last_insert_timestamp_pos_iff true
  have hquote := h.last_insert_timestamp_pos_iff false
  simp only [prices, if_true, Bool.false_eq_true, if_false] at hbase hquote
  unfold calculate_order_myso_price
  rw [h.base.cumulative_eq, h.quote.cumulative_eq]
  by_cases hq : self.quote_prices = []
  · have hq0 : self.last_insert_timestamp false = 0 := by
      by_contra hne
      exact hquote.mp (Nat.pos_of_ne_zero hne) hq
    by_cases hb : self.base_prices = []
    · have hb0 : ¬0 < self.last_insert_timestamp true := fun hpos => hbase.mp hpos hb
      simp [hq, hb, hq0, hb0]
    · have hlen : self.base_prices.length ≠ 0 := fun h0 => hb (List.length_eq_zero_iff.mp h0)
      simp [hq, hb, hq0, hbase.mpr hb, div, hlen, bind, Except.bind, pure, Except.pure]
  · have hpos := hquote.mpr hq
    have hlen : self.quote_prices.length ≠ 0 := fun h0 => hq (List.length_eq_zero_iff.mp h0)
    simp [hq, hpos, Nat.pos_iff_ne_zero.mp hpos, div, hlen, bind, Except.bind, pure, Except.pure]

end MySoPrice

/-- The MYSO price window over every run: from `empty` both sides keep the
window invariant and a side once non-empty stays so; a call on a state
keeping it aborts only on its assertion or on a `u64` overflow, and
otherwise ends with its point last on its side, so that a call past the
assertion with no overflow goes through; and the fee price is the floor
of the mean of the rates of the side read, the quote side when it has
points, never dividing by zero. -/
theorem myso_price_window :
    (∀ calls : List MySoPrice.PriceCall, (MySoPrice.empty.run calls).WF) ∧
    (∀ (calls calls' : List MySoPrice.PriceCall) (b : Bool),
      (MySoPrice.empty.run calls).prices b ≠ [] →
      (MySoPrice.empty.run (calls ++ calls')).prices b ≠ []) ∧
    (∀ s : MySoPrice, s.WF → ∀ conversion_rate timestamp b,
      (s.add_price_point conversion_rate timestamp b = .error .EDataPointRecentlyAdded ∧
        timestamp ≤ s.last_insert_timestamp b + MIN_DURATION_BETWEEN_DATA_POINTS_MS) ∨
      (s.add_price_point conversion_rate timestamp b = .error .ARITHMETIC_ERROR ∧
        (MAX_U64 < s.last_insert_timestamp b + MIN_DURATION_BETWEEN_DATA_POINTS_MS ∨
          MAX_U64 < s.cumulative b + conversion_rate ∨
          MAX_U64 < timestamp + MAX_DATA_POINT_AGE_MS)) ∨
      ∃ next, s.add_price_point conversion_rate timestamp b = .ok next ∧ next.WF ∧
        (next.prices b).getLast? = some ⟨conversion_rate, timestamp⟩ ∧
        next.prices (!b) = s.prices (!b)) ∧
    (∀ s : MySoPrice, s.WF → ∀ conversion_rate timestamp b,
      s.last_insert_timestamp b + MIN_DURATION_BETWEEN_DATA_POINTS_MS < timestamp →
      s.cumulative b + conversion_rate ≤ MAX_U64 → timestamp + MAX_DATA_POINT_AGE_MS ≤ MAX_U64 →
      ∃ next, s.add_price_point conversion_rate timestamp b = .ok next) ∧
    (∀ s : MySoPrice, s.WF →
      s.calculate_order_myso_price true = .ok (false, 0) ∧
      s.calculate_order_myso_price false =
        if s.quote_prices ≠ [] then
          .ok (false, rateSum s.quote_prices / s.quote_prices.length)
        else if s.base_prices ≠ [] then
          .ok (true, rateSum s.base_prices / s.base_prices.length)
        else .error .ENoDataPoints) := by
  have hrun : ∀ calls, (MySoPrice.empty.run calls).WF := MySoPrice.WF.empty.run
  refine ⟨hrun, fun calls calls' b hne => ?_, fun s h r t b => h.add_price_point_cases r t b,
    ?_, fun s h => ⟨rfl, h.calculate_order_myso_price_eq⟩⟩
  · -- a run extended is the extension run from where the first part ends
    rw [MySoPrice.run, List.foldl_append, ← MySoPrice.run, ← MySoPrice.run]
    exact MySoPrice.prices_ne_nil_run (hrun calls) hne calls'
  · intro s h r t b hlt hsum hts
    rcases h.add_price_point_cases r t b with ⟨-, hle⟩ | ⟨-, hover⟩ | ⟨next, hnext, -⟩
    · omega
    · omega
    · exact ⟨next, hnext⟩

theorem myso_price_window_two_points :
    (MySoPrice.empty.run [⟨300, 100_000, true⟩, ⟨100, 200_000, true⟩]).WF ∧
    (MySoPrice.empty.run [⟨300, 100_000, true⟩, ⟨100, 200_000, true⟩]).calculate_order_myso_price
      false = .ok (true, 200) := by
  obtain ⟨hrun, -, -, -, hprice⟩ := myso_price_window
  refine ⟨hrun _, ?_⟩
  rw [(hprice _ (hrun _)).2]
  rfl

end MysoCore.Orderbook.myso_price
