/-
The order book (orderbook/sources/book/book.move) over the content of its
two `BigVector`s (helper/big_vector.move).

# Big vectors by their content

A `BigVector` is a B+ tree whose leaves, read left to right through
their sibling links, hold its entries in increasing key order. The model
keeps that content: the entries as a list with strictly increasing keys,
the invariant carried by the structure. `min_slice` followed by
`next_slice` walks the list forwards (`ascending`), `max_slice` followed
by `prev_slice` walks it backwards (`descending`); `insert` aborts on a
present key and `remove` on an absent one, as the tree does.

This content model stands for big_vector.move by what the tree holds,
not by a proof: `Orderbook.BigVector` models the tree itself and proves
its descents, but no theorem here shows that the tree's own `insert` and
`remove`, with their splits and merges, change its contents as
`insertKey` and `eraseKey` do. The results over the book rest on that
correspondence as an assumption of the model.

# Matching

A taker bid walks the asks up from the lowest key and a taker ask walks
the bids down from the highest (`Book.makers`). `match_loop` is the loop
of `match_against_book`, matching maker after maker until one does not
cross, the walk ends or `max_fills` makers were matched; it returns the
makers it matched, changed, and these are written back over the first
entries of the walk before the filled and expired ones are removed.
`MatchSpec` is what a run of the loop produces: one fill per matched
maker, in walk order, at the maker's price, every maker crossing the
taker's price, and every fill but the last closing its maker.

# Quotes

`get_quantity_out` prices an input against the walk without changing the
book, and `get_quantity_in` a target output; both are loops over the
walk's makers (`quantity_out_loop`, `quantity_in_loop`). Each rounds its
products down, so the input `get_quantity_in` returns for a target can
fall short of buying the target back (`get_quote_quantity_in_short`).
-/
import MysoCore.Lib.SortedMap
import MysoCore.Orderbook.Order

namespace MysoCore.Orderbook

open SortedMap

-- ============================================================ big vectors

/-- A `BigVector`, by its entries read from the smallest key up. -/
structure BigVector (E : Type) where
  entries : List (ℕ × E)
  sorted : Sorted entries

namespace BigVector

variable {E : Type}

def empty : BigVector E := ⟨[], List.Pairwise.nil⟩

/-- `big_vector::insert`: aborts on a key already present. -/
def insert (self : BigVector E) (key : ℕ) (val : E) : Except Abort (BigVector E) :=
  if h : key ∈ keys self.entries then .error .EExists
  else .ok ⟨insertKey key val self.entries, self.sorted.insertKey h⟩

/-- `big_vector::remove`, the value dropped: aborts on an absent key. -/
def remove (self : BigVector E) (key : ℕ) : Except Abort (BigVector E) :=
  if key ∈ keys self.entries then .ok ⟨eraseKey key self.entries, self.sorted.eraseKey⟩
  else .error .ENotFound

/-- The walk from `min_slice` along `next_slice`. -/
def ascending (self : BigVector E) : List (ℕ × E) := self.entries

/-- The walk from `max_slice` along `prev_slice`. -/
def descending (self : BigVector E) : List (ℕ × E) := self.entries.reverse

/-- Values changed through `slice_borrow_mut` on an ascending walk,
written back over the first entries. -/
def write_ascending (self : BigVector E) (vals : List E) : BigVector E :=
  ⟨setVals self.entries vals, self.sorted.of_keys_eq (keys_setVals _ _)⟩

/-- Values changed on a descending walk, written back over the last
entries. -/
def write_descending (self : BigVector E) (vals : List E) : BigVector E :=
  ⟨(setVals self.entries.reverse vals).reverse, self.sorted.of_keys_eq (by
    rw [keys_reverse, keys_setVals, keys_reverse, List.reverse_reverse])⟩

theorem insert_eq_ok {self self' : BigVector E} {key : ℕ} {val : E}
    (h : self.insert key val = .ok self') :
    key ∉ keys self.entries ∧ self'.entries = insertKey key val self.entries := by
  unfold insert at h
  split at h
  · cases h
  · next hk =>
      cases h
      exact ⟨hk, rfl⟩

theorem remove_eq_ok {self self' : BigVector E} {key : ℕ} (h : self.remove key = .ok self') :
    self'.entries = eraseKey key self.entries := by
  unfold remove at h
  split at h
  · cases h
    rfl
  · cases h

end BigVector

-- ============================================================ the book

/-- `Book`: the two sides and the next sequence numbers. -/
structure Book where
  tick_size : ℕ
  lot_size : ℕ
  min_size : ℕ
  bids : BigVector Order
  asks : BigVector Order
  next_bid_order_id : ℕ
  next_ask_order_id : ℕ

def START_BID_ORDER_ID : ℕ := 2 ^ 64 - 1
def START_ASK_ORDER_ID : ℕ := 1

namespace Book

/-- `Book::empty`. -/
def empty (tick_size lot_size min_size : ℕ) : Book :=
  ⟨tick_size, lot_size, min_size, .empty, .empty, START_BID_ORDER_ID, START_ASK_ORDER_ID⟩

/-- `Book::get_order_id`: bids count down from `START_BID_ORDER_ID`, asks
up from `START_ASK_ORDER_ID`, each decremented or incremented before use. -/
def get_order_id (self : Book) (is_bid : Bool) : Book × ℕ :=
  if is_bid then
    let self := { self with next_bid_order_id := self.next_bid_order_id - 1 }
    (self, self.next_bid_order_id)
  else
    let self := { self with next_ask_order_id := self.next_ask_order_id + 1 }
    (self, self.next_ask_order_id)

/-- The makers a taker meets, in the order it meets them: a bid walks the
asks up, an ask walks the bids down. -/
def makers (self : Book) (is_bid : Bool) : List (ℕ × Order) :=
  if is_bid then self.asks.ascending else self.bids.descending

/-- The loop of `match_against_book`: the taker, the number of makers
matched and the matched makers as changed. -/
def match_loop (timestamp : ℕ) :
    OrderInfo → ℕ → List Order → Except Abort (OrderInfo × ℕ × List Order)
  | order_info, current_fills, [] => .ok (order_info, current_fills, [])
  | order_info, current_fills, maker_order :: rest =>
      if current_fills < constants.max_fills then
        match order_info.match_maker maker_order timestamp with
        | .error e => .error e
        | .ok (order_info, _, false) => .ok (order_info, current_fills, [])
        | .ok (order_info, maker_order, true) =>
            match match_loop timestamp order_info (current_fills + 1) rest with
            | .error e => .error e
            | .ok (order_info, current_fills, matched) =>
                .ok (order_info, current_fills, maker_order :: matched)
      else .ok (order_info, current_fills, [])

/-- The removal after matching of every maker whose fill expired it or
completed it. -/
def remove_filled (book_side : BigVector Order) : List Fill → Except Abort (BigVector Order)
  | [] => .ok book_side
  | fill :: rest =>
      if fill.expired || fill.completed then
        match book_side.remove fill.maker_order_id with
        | .error e => .error e
        | .ok book_side => remove_filled book_side rest
      else remove_filled book_side rest

/-- `Book::match_against_book`. -/
def match_against_book (self : Book) (order_info : OrderInfo) (timestamp : ℕ) :
    Except Abort (Book × OrderInfo) :=
  let is_bid := order_info.is_bid
  let book_side := if is_bid then self.asks else self.bids
  match match_loop timestamp order_info 0 ((self.makers is_bid).map Prod.snd) with
  | .error e => .error e
  | .ok (order_info, current_fills, matched) =>
      let book_side :=
        if is_bid then book_side.write_ascending matched else book_side.write_descending matched
      match remove_filled book_side order_info.fills with
      | .error e => .error e
      | .ok book_side =>
          let order_info := if current_fills = constants.max_fills then
            { order_info with fill_limit_reached := true } else order_info
          if is_bid then .ok ({ self with asks := book_side }, order_info)
          else .ok ({ self with bids := book_side }, order_info)

/-- `Book::inject_limit_order`. -/
def inject_limit_order (self : Book) (order_info : OrderInfo) : Except Abort Book :=
  let order := order_info.to_order
  if order_info.is_bid then
    match self.bids.insert order_info.order_id order with
    | .error e => .error e
    | .ok bids => .ok { self with bids := bids }
  else
    match self.asks.insert order_info.order_id order with
    | .error e => .error e
    | .ok asks => .ok { self with asks := asks }

/-- `Book::create_order`: validate, take the next order id, match, and
place what is left unless the order is done. -/
def create_order (self : Book) (order_info : OrderInfo) (timestamp : ℕ) :
    Except Abort (Book × OrderInfo) :=
  match order_info.validate_inputs self.tick_size self.min_size self.lot_size timestamp with
  | .error e => .error e
  | .ok () =>
      let r := self.get_order_id order_info.is_bid
      let order_id := encode_order_id order_info.is_bid order_info.price r.2
      let order_info := { order_info with order_id := order_id }
      match r.1.match_against_book order_info timestamp with
      | .error e => .error e
      | .ok (self, order_info) =>
          match order_info.assert_execution with
          | .error e => .error e
          | .ok (order_info, true) => .ok (self, order_info)
          | .ok (order_info, false) =>
              match self.inject_limit_order order_info with
              | .error e => .error e
              | .ok self => .ok (self, { order_info with order_inserted := true })

-- ============================================================ the matching loop

/-- What a run of the matching loop over `makers` produces, from taker
`info` to taker `info'`: the makers it matched, changed (`matched`), and
the fills it added (`fills`), one per matched maker in walk order. -/
structure MatchSpec (makers : List Order) (info info' : OrderInfo) (matched : List Order)
    (fills : List Fill) : Prop where
  fills_eq : info'.fills = info.fills ++ fills
  length_matched : matched.length = fills.length
  length_le : fills.length ≤ makers.length
  maker_ids : fills.map Fill.maker_order_id = (makers.take fills.length).map Order.order_id
  matched_ids : matched.map Order.order_id = (makers.take fills.length).map Order.order_id
  matched_filled : ∀ m ∈ matched, m.Filled
  prices : fills.map Fill.execution_price = (makers.take fills.length).map Order.price
  crosses : ∀ m ∈ makers.take fills.length, info.Crosses m
  closes : ∀ f ∈ fills.dropLast, f.expired = true ∨ f.completed = true
  frame : info'.Frame info
  executed_le : info'.executed_quantity ≤ info'.original_quantity

theorem MatchSpec.nil {makers : List Order} {info : OrderInfo}
    (hq : info.executed_quantity ≤ info.original_quantity) : MatchSpec makers info info [] [] where
  fills_eq := by simp
  length_matched := rfl
  length_le := Nat.zero_le _
  maker_ids := by simp
  matched_ids := by simp
  matched_filled := by simp
  prices := by simp
  crosses := by simp
  closes := by simp
  frame := OrderInfo.Frame.refl info
  executed_le := hq

/-- One matched maker in front of a run of the loop. -/
theorem MatchSpec.cons {m m' : Order} {rest matched : List Order} {info₀ info₁ info₂ : OrderInfo}
    {fill : Fill} {fills : List Fill} (hcan : info₀.can_match m = true)
    (hfills : info₁.fills = info₀.fills ++ [fill]) (hid : fill.maker_order_id = m.order_id)
    (hprice : fill.execution_price = m.price) (hm' : m'.order_id = m.order_id)
    (hfilled : m'.Filled) (hframe : info₁.Frame info₀)
    (hcloses : fills = [] ∨ fill.expired = true ∨ fill.completed = true)
    (hs : MatchSpec rest info₁ info₂ matched fills) :
    MatchSpec (m :: rest) info₀ info₂ (m' :: matched) (fill :: fills) where
  fills_eq := by simp [hs.fills_eq, hfills]
  length_matched := by simp [hs.length_matched]
  length_le := by simpa using hs.length_le
  maker_ids := by simp [hid, hs.maker_ids]
  matched_ids := by simp [hm', hs.matched_ids]
  matched_filled := by
    intro x hx
    rcases List.mem_cons.mp hx with rfl | hx
    · exact hfilled
    · exact hs.matched_filled x hx
  prices := by simp [hprice, hs.prices]
  crosses := by
    intro x hx
    rw [List.length_cons, List.take_succ_cons] at hx
    rcases List.mem_cons.mp hx with rfl | hx
    · exact OrderInfo.crosses_of_can_match hcan
    · exact hframe.crosses (hs.crosses x hx)
  closes := by
    -- the fill is last when no fill follows it, and closes its maker otherwise
    rcases hcloses with rfl | hcl
    · simp
    · intro f hf
      rcases fills with _ | ⟨g, gs⟩
      · simp at hf
      · rw [List.dropLast_cons_cons] at hf
        rcases List.mem_cons.mp hf with rfl | hf
        · exact hcl
        · exact hs.closes f hf
  frame := hs.frame.trans hframe
  executed_le := hs.executed_le

theorem get_order_id_bid (self : Book) :
    self.get_order_id true =
      ({ self with next_bid_order_id := self.next_bid_order_id - 1 }, self.next_bid_order_id - 1) :=
  rfl

theorem get_order_id_ask (self : Book) :
    self.get_order_id false =
      ({ self with next_ask_order_id := self.next_ask_order_id + 1 }, self.next_ask_order_id + 1) :=
  rfl

/-- `inject_limit_order` inserts the order under its id on its own side. -/
theorem inject_limit_order_cases {self self' : Book} {info : OrderInfo}
    (h : self.inject_limit_order info = .ok self') :
    (info.is_bid = true ∧ ∃ bids, self.bids.insert info.order_id info.to_order = .ok bids ∧
      self' = { self with bids := bids }) ∨
    (info.is_bid = false ∧ ∃ asks, self.asks.insert info.order_id info.to_order = .ok asks ∧
      self' = { self with asks := asks }) := by
  unfold inject_limit_order at h
  dsimp only at h
  split at h
  · next hb =>
      split at h
      · cases h
      · next bids hins =>
          cases h
          exact Or.inl ⟨hb, bids, hins, rfl⟩
  · next hb =>
      split at h
      · cases h
      · next asks hins =>
          cases h
          exact Or.inr ⟨by simpa using hb, asks, hins, rfl⟩

/-- The loop of `get_quantity_out`: the quantity out and the input left,
matched against the makers in walk order without changing them. -/
def quantity_out_loop (is_bid pay_with_myso : Bool) (input_fee_rate lot_size current_timestamp : ℕ) :
    ℕ → ℕ → ℕ → List Order → ℕ × ℕ
  | quantity_out, quantity_in_left, _, [] => (quantity_out, quantity_in_left)
  | quantity_out, quantity_in_left, current_fills, order :: rest =>
      if quantity_in_left > 0 ∧ current_fills < constants.max_fills then
        let cur_price := order.price
        let cur_quantity := order.quantity - order.filled_quantity
        if current_timestamp ≤ order.expire_timestamp then
          let quantity_to_match := if pay_with_myso then quantity_in_left
            else math.div quantity_in_left (constants.float_scaling + input_fee_rate)
          -- the base matched, the quantity out after it and the input left after it
          let step : ℕ × ℕ × ℕ :=
            if is_bid then
              let matched_base_quantity := min (math.div quantity_to_match cur_price) cur_quantity
              let matched_base_quantity := matched_base_quantity - matched_base_quantity % lot_size
              let matched_quote_quantity := math.mul matched_base_quantity cur_price
              let quantity_in_left := quantity_in_left - matched_quote_quantity
              (matched_base_quantity, quantity_out + matched_base_quantity,
                if !pay_with_myso then
                  quantity_in_left - math.mul matched_quote_quantity input_fee_rate
                else quantity_in_left)
            else
              let matched_base_quantity := min quantity_to_match cur_quantity
              let matched_base_quantity := matched_base_quantity - matched_base_quantity % lot_size
              let quantity_in_left := quantity_in_left - matched_base_quantity
              (matched_base_quantity, quantity_out + math.mul matched_base_quantity cur_price,
                if !pay_with_myso then
                  quantity_in_left - math.mul matched_base_quantity input_fee_rate
                else quantity_in_left)
          if step.1 = 0 then (step.2.1, step.2.2)
          else quantity_out_loop is_bid pay_with_myso input_fee_rate lot_size current_timestamp
            step.2.1 step.2.2 (current_fills + 1) rest
        else quantity_out_loop is_bid pay_with_myso input_fee_rate lot_size current_timestamp
          quantity_out quantity_in_left (current_fills + 1) rest
      else (quantity_out, quantity_in_left)

/-- `Book::get_quantity_out`: the base and quote out and the MYSO fee for
an input of base or of quote. -/
def get_quantity_out (self : Book) (base_quantity quote_quantity taker_fee : ℕ)
    (myso_price : OrderMySoPrice) (lot_size : ℕ) (pay_with_myso : Bool)
    (current_timestamp : ℕ) : Except Abort (ℕ × ℕ × ℕ) :=
  if (decide (base_quantity > 0) != decide (quote_quantity > 0)) = false then
    .error .EInvalidAmountIn
  else
    let is_bid := decide (quote_quantity > 0)
    let input_fee_rate := math.mul constants.fee_penalty_multiplier taker_fee
    let trading_base_quantity := if pay_with_myso then base_quantity
      else math.div base_quantity (constants.float_scaling + input_fee_rate)
    if base_quantity > 0 ∧ trading_base_quantity < self.min_size then
      .ok (base_quantity, quote_quantity, 0)
    else
      let quantity_in_left := if is_bid then quote_quantity else base_quantity
      let r := quantity_out_loop is_bid pay_with_myso input_fee_rate lot_size current_timestamp
        0 quantity_in_left 0 ((self.makers is_bid).map Prod.snd)
      let quantity_out := r.1
      let quantity_in_left := r.2
      let myso_fee := if !pay_with_myso then 0
        else
          let fee_quantity := if is_bid then
              myso_price.fee_quantity quantity_out (quote_quantity - quantity_in_left) is_bid
            else myso_price.fee_quantity (base_quantity - quantity_in_left) quantity_out is_bid
          math.mul taker_fee fee_quantity.myso
      if is_bid then
        if quantity_out < self.min_size then .ok (base_quantity, quote_quantity, 0)
        else .ok (quantity_out, quantity_in_left, myso_fee)
      else .ok (quantity_in_left, quantity_out, myso_fee)

/-- `round_up_to_lot_size`: the least multiple of the lot size at least
the quantity. -/
def round_up_to_lot_size (quantity lot_size : ℕ) : ℕ :=
  let remainder := quantity % lot_size
  if remainder = 0 then quantity else quantity + lot_size - remainder

/-- The loop of `get_quantity_in`: the input, the output accumulated and
the base traded, matched against the makers in walk order until the
target is reached. -/
def quantity_in_loop (is_bid pay_with_myso : Bool)
    (input_fee_rate lot_size current_timestamp target : ℕ) :
    ℕ × ℕ × ℕ → ℕ → List Order → ℕ × ℕ × ℕ
  | acc, _, [] => acc
  | (input_quantity, output_accumulated, traded_base), current_fills, order :: rest =>
      if output_accumulated < target ∧ current_fills < constants.max_fills then
        let cur_price := order.price
        let cur_quantity := order.quantity - order.filled_quantity
        if current_timestamp ≤ order.expire_timestamp then
          let output_needed := target - output_accumulated
          -- the base matched, and the three quantities after it
          let step : ℕ × ℕ × ℕ × ℕ :=
            if is_bid then
              let matched_base := min (round_up_to_lot_size output_needed lot_size) cur_quantity
              let matched_quote := math.mul matched_base cur_price
              (matched_base,
                if pay_with_myso then input_quantity + matched_quote
                else input_quantity +
                  math.mul matched_quote (constants.float_scaling + input_fee_rate),
                output_accumulated + matched_base, traded_base)
            else
              let base_for_quote := math.div_round_up output_needed cur_price
              let matched_base := min (round_up_to_lot_size base_for_quote lot_size) cur_quantity
              let matched_quote := math.mul matched_base cur_price
              (matched_base,
                if pay_with_myso then input_quantity + matched_base
                else input_quantity +
                  math.mul matched_base (constants.float_scaling + input_fee_rate),
                output_accumulated + matched_quote, traded_base + matched_base)
          if step.1 = 0 then (input_quantity, output_accumulated, traded_base)
          else quantity_in_loop is_bid pay_with_myso input_fee_rate lot_size current_timestamp target
            step.2 (current_fills + 1) rest
        else quantity_in_loop is_bid pay_with_myso input_fee_rate lot_size current_timestamp target
          (input_quantity, output_accumulated, traded_base) (current_fills + 1) rest
      else (input_quantity, output_accumulated, traded_base)

/-- `Book::get_quantity_in`: for a target of base, the quote needed to buy
it (a bid); for a target of quote, the base needed to sell for it (an
ask); `(0, 0, 0)` when the book cannot meet the target or the minimum
size. -/
def get_quantity_in (self : Book) (target_base_quantity target_quote_quantity taker_fee : ℕ)
    (myso_price : OrderMySoPrice) (pay_with_myso : Bool) (current_timestamp : ℕ) :
    Except Abort (ℕ × ℕ × ℕ) :=
  if (decide (target_base_quantity > 0) != decide (target_quote_quantity > 0)) = false then
    .error .EInvalidAmountIn
  else
    let is_bid := decide (target_base_quantity > 0)
    let input_fee_rate := math.mul constants.fee_penalty_multiplier taker_fee
    let target := if is_bid then target_base_quantity else target_quote_quantity
    let r := quantity_in_loop is_bid pay_with_myso input_fee_rate self.lot_size current_timestamp
      target (0, 0, 0) 0 ((self.makers is_bid).map Prod.snd)
    let input_quantity := r.1
    let output_accumulated := r.2.1
    let traded_base := r.2.2
    let myso_fee := if !pay_with_myso then 0
      else
        let fee_quantity := if is_bid then
            myso_price.fee_quantity output_accumulated input_quantity true
          else myso_price.fee_quantity input_quantity output_accumulated false
        math.mul taker_fee fee_quantity.myso
    let sufficient := if is_bid then
        decide (output_accumulated ≥ target_base_quantity ∧ output_accumulated ≥ self.min_size)
      else decide (output_accumulated ≥ target_quote_quantity ∧ traded_base ≥ self.min_size)
    if !sufficient then .ok (0, 0, 0)
    else if is_bid then .ok (output_accumulated, input_quantity, myso_fee)
    else .ok (input_quantity, output_accumulated, myso_fee)

/-- `Book::get_base_quantity_in`: the base needed to receive a quote. -/
def get_base_quantity_in (self : Book) (target_quote_quantity taker_fee : ℕ)
    (myso_price : OrderMySoPrice) (pay_with_myso : Bool) (current_timestamp : ℕ) :
    Except Abort (ℕ × ℕ × ℕ) :=
  self.get_quantity_in 0 target_quote_quantity taker_fee myso_price pay_with_myso current_timestamp

/-- `Book::get_quote_quantity_in`: the quote needed to receive a base. -/
def get_quote_quantity_in (self : Book) (target_base_quantity taker_fee : ℕ)
    (myso_price : OrderMySoPrice) (pay_with_myso : Bool) (current_timestamp : ℕ) :
    Except Abort (ℕ × ℕ × ℕ) :=
  self.get_quantity_in target_base_quantity 0 taker_fee myso_price pay_with_myso current_timestamp

/-- A bid paying its fees in MYSO against one live ask that covers its
target, with lot size one: it takes the whole target from that ask, for
the target's quote rounded down. -/
theorem quantity_in_loop_one_ask {order : Order} {input_fee_rate current_timestamp target : ℕ}
    (hlive : current_timestamp ≤ order.expire_timestamp) (htarget : 0 < target)
    (hcover : target ≤ order.quantity - order.filled_quantity) :
    quantity_in_loop true true input_fee_rate 1 current_timestamp target (0, 0, 0) 0 [order] =
      (math.mul target order.price, target, 0) := by
  have hround : round_up_to_lot_size target 1 = target := by
    simp [round_up_to_lot_size, Nat.mod_one]
  simp [quantity_in_loop, hlive, htarget, hround, Nat.min_eq_left hcover, constants.max_fills,
    htarget.ne']

/-- A bid paying its fees in MYSO against one live ask, with lot size
one: it buys the base its quote divides to, up to what the ask has. -/
theorem quantity_out_loop_one_ask {order : Order}
    {input_fee_rate current_timestamp quote_quantity : ℕ}
    (hlive : current_timestamp ≤ order.expire_timestamp) (hquote : 0 < quote_quantity) :
    (quantity_out_loop true true input_fee_rate 1 current_timestamp 0 quote_quantity 0 [order]).1 =
      min (math.div quote_quantity order.price) (order.quantity - order.filled_quantity) := by
  -- a match of no base ends the loop, any other goes on to the end of the walk
  by_cases hzero :
      min (math.div quote_quantity order.price) (order.quantity - order.filled_quantity) = 0
  · simp [quantity_out_loop, hlive, hquote, hzero, constants.max_fills]
  · simp [quantity_out_loop, hlive, hquote, hzero, constants.max_fills, Nat.mod_one]

/-- The quote `get_quote_quantity_in` asks for a target of base does not
buy that base back through `get_quantity_out`: against one live ask at a
price whose product with the target is not a whole number of quote
units, the quote is rounded down and divides back to less base. -/
theorem get_quote_quantity_in_short (self : Book) (key : ℕ) (order : Order)
    (target_base_quantity taker_fee current_timestamp : ℕ) (myso_price : OrderMySoPrice)
    (hasks : self.asks.entries = [(key, order)]) (hlot : self.lot_size = 1)
    (hmin : self.min_size ≤ target_base_quantity)
    (hlive : current_timestamp ≤ order.expire_timestamp) (htarget : 0 < target_base_quantity)
    (hcover : target_base_quantity ≤ order.quantity - order.filled_quantity)
    (hprice : 0 < order.price)
    (hquote : constants.float_scaling ≤ target_base_quantity * order.price)
    (hinexact : target_base_quantity * order.price % constants.float_scaling ≠ 0) :
    ∃ fee, self.get_quote_quantity_in target_base_quantity taker_fee myso_price true
        current_timestamp =
          .ok (target_base_quantity, math.mul target_base_quantity order.price, fee) ∧
      ∃ r, self.get_quantity_out 0 (math.mul target_base_quantity order.price) taker_fee myso_price
          self.lot_size true current_timestamp = .ok r ∧ r.1 < target_base_quantity := by
  have hmakers : (self.makers true).map Prod.snd = [order] := by
    simp [makers, BigVector.ascending, hasks]
  have hq : 0 < math.mul target_base_quantity order.price := Nat.div_pos hquote (by decide)
  refine ⟨math.mul taker_fee (myso_price.fee_quantity target_base_quantity
    (math.mul target_base_quantity order.price) true).myso, ?_, ?_⟩
  · simp [get_quote_quantity_in, get_quantity_in, hmakers, hlot,
      quantity_in_loop_one_ask hlive htarget hcover, htarget, hmin]
  · -- the quote buys back less than the target from the one ask
    have hshort : (quantity_out_loop true true (math.mul constants.fee_penalty_multiplier taker_fee) 1
        current_timestamp 0 (math.mul target_base_quantity order.price) 0 [order]).1 <
          target_base_quantity := by
      rw [quantity_out_loop_one_ask hlive hq]
      exact lt_of_le_of_lt (min_le_left _ _) (math.div_mul_lt hprice hinexact)
    unfold get_quantity_out
    simp only [hlot, hq, gt_iff_lt, decide_true, Nat.lt_irrefl, decide_false, if_true, false_and,
      if_false, hmakers, Bool.false_bne, Bool.true_eq_false, Bool.not_true, Bool.false_eq_true]
    -- below the minimum size the input comes back with no base, else the base bought
    split_ifs
    · exact ⟨_, rfl, htarget⟩
    · exact ⟨_, rfl, hshort⟩

/-- One live ask of one base at a price of 1.5 quote. -/
def oneAsk : Order :=
  ⟨0, encode_order_id false 1_500_000_000 1, 0, 1, 0, false, .empty, 0, constants.live, 2 ^ 64 - 1⟩

/-- A book holding only that ask, of tick, lot and minimum size 1. -/
def oneAskBook : Book where
  tick_size := 1
  lot_size := 1
  min_size := 1
  bids := .empty
  asks := ⟨[(encode_order_id false 1_500_000_000 1, oneAsk)], by decide⟩
  next_bid_order_id := START_BID_ORDER_ID
  next_ask_order_id := 2

theorem get_quote_quantity_in_short_one_ask :
    oneAskBook.asks.entries = [(encode_order_id false 1_500_000_000 1, oneAsk)] ∧
    oneAskBook.lot_size = 1 ∧ oneAskBook.min_size ≤ 1 ∧ 0 ≤ oneAsk.expire_timestamp ∧ 0 < 1 ∧
    1 ≤ oneAsk.quantity - oneAsk.filled_quantity ∧ 0 < oneAsk.price ∧
    constants.float_scaling ≤ 1 * oneAsk.price ∧ 1 * oneAsk.price % constants.float_scaling ≠ 0 ∧
    ∃ fee, oneAskBook.get_quote_quantity_in 1 0 .empty true 0 =
        .ok (1, math.mul 1 oneAsk.price, fee) ∧
      ∃ r, oneAskBook.get_quantity_out 0 (math.mul 1 oneAsk.price) 0 .empty oneAskBook.lot_size
          true 0 = .ok r ∧ r.1 < 1 :=
  have hprice : oneAsk.price = 1_500_000_000 := by decide
  have hmin : oneAskBook.min_size ≤ 1 := by decide
  have hcover : 1 ≤ oneAsk.quantity - oneAsk.filled_quantity := by decide
  have hpos : 0 < oneAsk.price := by rw [hprice]; decide
  have hquote : constants.float_scaling ≤ 1 * oneAsk.price := by rw [hprice]; decide
  have hinexact : 1 * oneAsk.price % constants.float_scaling ≠ 0 := by rw [hprice]; decide
  ⟨rfl, rfl, hmin, Nat.zero_le _, Nat.one_pos, hcover, hpos, hquote, hinexact,
    get_quote_quantity_in_short oneAskBook _ oneAsk 1 0 0 .empty rfl rfl hmin (Nat.zero_le _)
      Nat.one_pos hcover hpos hquote hinexact⟩

end Book

end MysoCore.Orderbook
