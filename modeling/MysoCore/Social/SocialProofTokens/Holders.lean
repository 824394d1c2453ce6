/-
The two ledgers of a social proof token pool (social_proof_tokens.move):
the pool's holders table, and the token objects its holders own.

# The objects

A `SocialToken` is an object with `key` and `store`: its owner passes it
to a trade, splits it (`split_social_token_entry`, the new object going
to the sender), merges another of the same pool and type into it
(`merge_social_tokens_entry`, which deletes the other) or transfers it.
`Holdings` is a pool with the live token objects, of every pool, each
with its owner. A transaction names the objects it passes by their place
among them; one that passes an object its sender does not own, or one
object twice, is not formed, and one that is not formed or aborts leaves
everything as it was. The plain trades and their `_with_platform`
variants are one call each over an optional platform, as the trades'
definitions are.

# The two ledgers

A trade moves the holders table and the supply by the amount it trades,
and the object the trader passes in, or the one a first purchase mints,
by the same amount; a split, a merge and a transfer move amounts between
objects of one pool and leave the pool as it is. The conversion credits
each reserver's share to its entry and to an object of that amount, and
what the shares leave of the initial supply to the owner's entry alone.
So at every time the holders table sums to the supply (`PoolOK`), and
the pool's objects sum to the supply less that remainder (`Agree`,
`Agree.run`, `create_social_proof_token_agree`).

Only the sums agree. A sale needs both the sender's entry and the object
it passes to hold the amount, so an object that changed hands is sold
only against its new owner's own entry.
-/
import MysoCore.Social.SocialProofTokens.ReservationLedger
import Mathlib

namespace MysoCore.Social.SocialProofTokens

open SortedMap ExceptFold

-- ============================================================ splitting and merging

/-- `split_social_token`: the token keeps its amount less `split_amount`,
and a new token of its pool and type holds `split_amount`. -/
def split_social_token (token : SocialToken) (split_amount : ℕ) :
    Except Abort (SocialToken × SocialToken) := do
  require (split_amount > 0) .ECannotSplit
  require (token.amount ≥ split_amount) .EInsufficientFunds
  require (split_amount < token.amount) .ECannotSplit
  pure ({ token with amount := token.amount - split_amount },
    ⟨token.pool_id, token.token_type, split_amount⟩)

/-- `merge_social_tokens`: `token1` takes the amount of `token2`, which is
deleted. -/
def merge_social_tokens (token1 token2 : SocialToken) : Except Abort SocialToken := do
  require (token1.pool_id = token2.pool_id) .ECannotMerge
  require (token1.token_type = token2.token_type) .ECannotMerge
  require (token1.amount ≤ MAX_U64 - token2.amount) .EOverflow
  pure { token1 with amount := token1.amount + token2.amount }

-- ============================================================ the objects

/-- A pool and the live token objects, each with its owner's address. -/
structure Holdings where
  pool : TokenPool
  tokens : List (ℕ × SocialToken)

/-- A call on the pool and the token objects; an object the call passes
in is named by its place among the live ones. -/
inductive HoldingCall
  | buy_tokens (platform : Option PlatformView) (payment amount : ℕ)
  | buy_more_tokens (platform : Option PlatformView) (payment amount token : ℕ)
  | sell_tokens (platform : Option PlatformView) (token amount : ℕ)
  | split_social_token_entry (token split_amount : ℕ)
  | merge_social_tokens_entry (token1 token2 : ℕ)
  | public_transfer (token recipient : ℕ)

namespace Holdings

/-- The object at `i`, when `sender` owns it. -/
def owned (w : Holdings) (sender i : ℕ) : Option SocialToken :=
  match w.tokens[i]? with
  | some (owner, token) => if owner = sender then some token else none
  | none => none

/-- One transaction; `none` when it aborts or is not formed. -/
def apply (registries : Registries) (config : SocialProofTokensConfig) (ctx : TxContext)
    (w : Holdings) : HoldingCall → Option Holdings
  | .buy_tokens platform payment amount => do
      let (pool, social_token, _) ←
        (buyFirstTokens registries platform config w.pool payment amount ctx).toOption
      pure ⟨pool, w.tokens ++ [(ctx.sender, social_token)]⟩
  | .buy_more_tokens platform payment amount i => do
      let social_token ← w.owned ctx.sender i
      let (pool, social_token, _) ←
        (buyMoreTokens registries platform config w.pool payment amount social_token ctx).toOption
      pure ⟨pool, w.tokens.set i (ctx.sender, social_token)⟩
  | .sell_tokens platform i amount => do
      let social_token ← w.owned ctx.sender i
      let (pool, social_token, _) ←
        (sellTokens registries platform config w.pool social_token amount ctx).toOption
      pure ⟨pool, w.tokens.set i (ctx.sender, social_token)⟩
  | .split_social_token_entry i split_amount => do
      let token ← w.owned ctx.sender i
      let (token, new_token) ← (split_social_token token split_amount).toOption
      pure ⟨w.pool, w.tokens.set i (ctx.sender, token) ++ [(ctx.sender, new_token)]⟩
  | .merge_social_tokens_entry i j =>
      -- a transaction passes an object once
      if i = j then none
      else do
        let token1 ← w.owned ctx.sender i
        let token2 ← w.owned ctx.sender j
        let token1 ← (merge_social_tokens token1 token2).toOption
        pure ⟨w.pool, (w.tokens.set i (ctx.sender, token1)).eraseIdx j⟩
  | .public_transfer i recipient => do
      let token ← w.owned ctx.sender i
      pure ⟨w.pool, w.tokens.set i (recipient, token)⟩

/-- A transaction under the registries and configuration it reads. -/
def step (w : Holdings)
    (call : Registries × SocialProofTokensConfig × TxContext × HoldingCall) : Holdings :=
  (w.apply call.1 call.2.1 call.2.2.1 call.2.2.2).getD w

def run (w : Holdings)
    (calls : List (Registries × SocialProofTokensConfig × TxContext × HoldingCall)) : Holdings :=
  calls.foldl step w

theorem owned_eq_some {w : Holdings} {sender i : ℕ} {token : SocialToken} :
    w.owned sender i = some token ↔ w.tokens[i]? = some (sender, token) := by
  unfold owned
  split
  · next owner token' hi =>
      rw [hi]
      by_cases howner : owner = sender <;> simp [howner]
  · next hi =>
      simp [hi]

end Holdings

-- ============================================================ what the objects hold

/-- What a token object counts to a pool: its amount if it is of the
pool. -/
def tokenAmount (pool_id : ℕ) (token : SocialToken) : ℕ :=
  if token.pool_id = pool_id then token.amount else 0

/-- What the objects of a pool hold together. -/
def tokenSum (pool_id : ℕ) (tokens : List (ℕ × SocialToken)) : ℕ :=
  (tokens.map fun p => tokenAmount pool_id p.2).sum

section sums

variable {a i : ℕ} {l : List (ℕ × SocialToken)} {p q : ℕ × SocialToken}

@[simp] theorem tokenSum_nil : tokenSum a [] = 0 := rfl

@[simp] theorem tokenSum_append {l' : List (ℕ × SocialToken)} :
    tokenSum a (l ++ l') = tokenSum a l + tokenSum a l' := by
  simp [tokenSum]

@[simp] theorem tokenSum_singleton : tokenSum a [p] = tokenAmount a p.2 := by
  simp [tokenSum]

theorem tokenAmount_of_pool_id (token : SocialToken) (h : token.pool_id = a) :
    tokenAmount a token = token.amount := if_pos h

@[simp] theorem tokenAmount_self {token_type amount : ℕ} :
    tokenAmount a ⟨a, token_type, amount⟩ = amount := if_pos rfl

/-- The objects of other pools hold nothing of this one. -/
theorem tokenSum_eq_zero (h : ∀ p ∈ l, p.2.pool_id ≠ a) : tokenSum a l = 0 := by
  unfold tokenSum
  rw [List.sum_eq_zero]
  intro x hx
  obtain ⟨p, hp, rfl⟩ := List.mem_map.mp hx
  exact if_neg (h p hp)

/-- Deleting an object takes what it holds off the sum. -/
theorem tokenSum_eraseIdx (h : l[i]? = some p) :
    tokenSum a (l.eraseIdx i) + tokenAmount a p.2 = tokenSum a l := by
  obtain ⟨hi, rfl⟩ := List.getElem?_eq_some_iff.mp h
  have hsum := List.CommMonoid.add_sum_eraseIdx
    (l := l.map fun p => tokenAmount a p.2) (i := i) (by simpa using hi)
  unfold tokenSum
  rw [← List.eraseIdx_map]
  simp only [List.getElem_map] at hsum
  omega

/-- Replacing an object replaces what it holds in the sum. -/
theorem tokenSum_set (h : l[i]? = some p) :
    tokenSum a (l.set i q) + tokenAmount a p.2 =
      tokenSum a l + tokenAmount a q.2 := by
  have hi : i < l.length := (List.getElem?_eq_some_iff.mp h).1
  have hold := tokenSum_eraseIdx (a := a) h
  have hnew := tokenSum_eraseIdx (a := a) (i := i) (l := l.set i q) (p := q)
    (by simp [hi])
  rw [List.eraseIdx_set_eq] at hnew
  omega

/-- Changing the amount of an object of the pool changes the sum by as
much. -/
theorem tokenSum_set_amount {owner : ℕ} {token : SocialToken} (h : l[i]? = some (owner, token))
    (hid : token.pool_id = a) (owner' n : ℕ) :
    tokenSum a (l.set i (owner', { token with amount := n })) + token.amount = tokenSum a l + n := by
  have hset := tokenSum_set (a := a) (q := (owner', { token with amount := n })) h
  dsimp only at hset
  rwa [tokenAmount_of_pool_id token hid, tokenAmount_of_pool_id { token with amount := n } hid]
    at hset

theorem tokenAmount_le_tokenSum (h : l[i]? = some p) :
    tokenAmount a p.2 ≤ tokenSum a l := by
  have := tokenSum_eraseIdx (a := a) h
  omega

end sums

-- ============================================================ the invariant

/-- The two ledgers agree: the holders table is a map summing to the
supply, and the pool's objects hold the supply less `r0`, what the
conversion credited with no object. -/
structure Agree (r0 : ℕ) (w : Holdings) : Prop where
  pool_ok : PoolOK w.pool
  tokens_eq : tokenSum w.pool.id w.tokens + r0 = w.pool.info.circulating_supply

section steps

variable {r0 : ℕ} {w : Holdings} {registries : Registries} {platform : Option PlatformView}
  {config : SocialProofTokensConfig} {ctx : TxContext} {pool' : TokenPool}
  {social_token token' : SocialToken} {payments : Payments} {payment amount i owner owner' : ℕ}

theorem Agree.buyFirstTokens (h : Agree r0 w)
    (hbuy : buyFirstTokens registries platform config w.pool payment amount ctx =
      .ok (pool', token', payments)) (owner : ℕ) :
    Agree r0 ⟨pool', w.tokens ++ [(owner, token')]⟩ := by
  obtain ⟨_, _, _, _, -, -, -, -, rfl, rfl⟩ := buyFirstTokens_eq_ok hbuy
  have heq := h.tokens_eq
  refine ⟨h.pool_ok.buyFirstTokens hbuy, ?_⟩
  -- the minted object is of the pool and holds what the supply gains
  simp only [tokenSum_append, tokenSum_singleton, tokenAmount_self]
  omega

theorem Agree.buyMoreTokens (h : Agree r0 w) (hown : w.tokens[i]? = some (owner, social_token))
    (hbuy : buyMoreTokens registries platform config w.pool payment amount social_token ctx =
      .ok (pool', token', payments)) (owner' : ℕ) :
    Agree r0 ⟨pool', w.tokens.set i (owner', token')⟩ := by
  obtain ⟨_, _, _, _, -, -, -, hid, rfl, rfl⟩ := buyMoreTokens_eq_ok hbuy
  have hset := tokenSum_set_amount hown hid owner' (social_token.amount + amount)
  have heq := h.tokens_eq
  exact ⟨h.pool_ok.buyMoreTokens hbuy, by dsimp only; omega⟩

theorem Agree.sellTokens (h : Agree r0 w) (hown : w.tokens[i]? = some (owner, social_token))
    (hsell : sellTokens registries platform config w.pool social_token amount ctx =
      .ok (pool', token', payments)) (owner' : ℕ) :
    Agree r0 ⟨pool', w.tokens.set i (owner', token')⟩ := by
  obtain ⟨_, _, _, _, _, _, _, -, -, -, -, -, -, -, hid, hamount, rfl, rfl⟩ := sellTokens_eq_ok hsell
  have hset := tokenSum_set_amount hown hid owner' (social_token.amount - amount)
  -- the object sold from is counted in the supply, so the supply holds the amount
  have hle := tokenAmount_le_tokenSum (a := w.pool.id) hown
  rw [tokenAmount_of_pool_id social_token hid] at hle
  have heq := h.tokens_eq
  exact ⟨h.pool_ok.sellTokens hsell, by dsimp only; omega⟩

theorem split_social_token_eq_ok {token token' new_token : SocialToken} {split_amount : ℕ}
    (h : split_social_token token split_amount = .ok (token', new_token)) :
    0 < split_amount ∧ split_amount < token.amount ∧
      token' = { token with amount := token.amount - split_amount } ∧
      new_token = ⟨token.pool_id, token.token_type, split_amount⟩ := by
  unfold split_social_token at h
  simp only [require_bind_eq_ok, pure_eq_ok, Prod.mk.injEq] at h
  obtain ⟨hpos, -, hlt, rfl, rfl⟩ := h
  exact ⟨hpos, hlt, rfl, rfl⟩

theorem merge_social_tokens_eq_ok {token1 token2 token' : SocialToken}
    (h : merge_social_tokens token1 token2 = .ok token') :
    token1.pool_id = token2.pool_id ∧ token' = { token1 with amount := token1.amount + token2.amount } := by
  unfold merge_social_tokens at h
  simp only [require_bind_eq_ok, pure_eq_ok] at h
  obtain ⟨hpool, -, -, rfl⟩ := h
  exact ⟨hpool, rfl⟩

theorem Agree.split_social_token (h : Agree r0 w) {token new_token : SocialToken}
    {split_amount owner'' : ℕ} (hown : w.tokens[i]? = some (owner, token))
    (hsplit : split_social_token token split_amount = .ok (token', new_token)) (owner' : ℕ) :
    Agree r0 ⟨w.pool, w.tokens.set i (owner', token') ++ [(owner'', new_token)]⟩ := by
  obtain ⟨-, hlt, rfl, rfl⟩ := split_social_token_eq_ok hsplit
  have hset := tokenSum_set (a := w.pool.id)
    (q := (owner', { token with amount := token.amount - split_amount })) hown
  -- the two parts count to the pool what the token did
  have hparts : tokenAmount w.pool.id { token with amount := token.amount - split_amount } +
      tokenAmount w.pool.id ⟨token.pool_id, token.token_type, split_amount⟩ =
      tokenAmount w.pool.id token := by
    unfold tokenAmount
    dsimp only
    split_ifs <;> omega
  have heq := h.tokens_eq
  refine ⟨h.pool_ok, ?_⟩
  simp only [tokenSum_append, tokenSum_singleton]
  dsimp only at hset ⊢
  omega

theorem Agree.merge_social_tokens (h : Agree r0 w) {token1 token2 : SocialToken} {j owner₂ : ℕ}
    (hij : i ≠ j) (h1 : w.tokens[i]? = some (owner, token1))
    (h2 : w.tokens[j]? = some (owner₂, token2))
    (hmerge : merge_social_tokens token1 token2 = .ok token') (owner' : ℕ) :
    Agree r0 ⟨w.pool, (w.tokens.set i (owner', token')).eraseIdx j⟩ := by
  obtain ⟨hpool, rfl⟩ := merge_social_tokens_eq_ok hmerge
  have hset := tokenSum_set (a := w.pool.id)
    (q := (owner', { token1 with amount := token1.amount + token2.amount })) h1
  -- the second token is still at `j` once the first is replaced
  have h2' : (w.tokens.set i (owner', { token1 with amount := token1.amount + token2.amount }))[j]? =
      some (owner₂, token2) := by
    rw [List.getElem?_set_ne hij]
    exact h2
  have herase := tokenSum_eraseIdx (a := w.pool.id) h2'
  -- tokens of one pool merge into one that counts what both did
  have hmerged : tokenAmount w.pool.id { token1 with amount := token1.amount + token2.amount } =
      tokenAmount w.pool.id token1 + tokenAmount w.pool.id token2 := by
    unfold tokenAmount
    dsimp only
    rw [hpool]
    split_ifs <;> omega
  have heq := h.tokens_eq
  refine ⟨h.pool_ok, ?_⟩
  dsimp only at hset herase ⊢
  omega

theorem Agree.public_transfer (h : Agree r0 w) {token : SocialToken}
    (hown : w.tokens[i]? = some (owner, token)) (recipient : ℕ) :
    Agree r0 ⟨w.pool, w.tokens.set i (recipient, token)⟩ := by
  have hset := tokenSum_set (a := w.pool.id) (q := (recipient, token)) hown
  have heq := h.tokens_eq
  exact ⟨h.pool_ok, by dsimp only at hset ⊢; omega⟩

/-- Every transaction that goes through keeps the ledgers agreeing. -/
theorem Agree.apply (h : Agree r0 w) {call : HoldingCall} {w' : Holdings}
    (happ : w.apply registries config ctx call = some w') : Agree r0 w' := by
  cases call with
  | buy_tokens platform payment amount =>
    simp only [Holdings.apply, Option.bind_eq_bind, Option.bind_eq_some_iff, toOption_eq_some] at happ
    obtain ⟨⟨pool', token', payments⟩, hbuy, happ⟩ := happ
    cases happ
    exact h.buyFirstTokens hbuy ctx.sender
  | buy_more_tokens platform payment amount i =>
    simp only [Holdings.apply, Option.bind_eq_bind, Option.bind_eq_some_iff, toOption_eq_some,
      Holdings.owned_eq_some] at happ
    obtain ⟨social_token, hown, ⟨pool', token', payments⟩, hbuy, happ⟩ := happ
    cases happ
    exact h.buyMoreTokens hown hbuy ctx.sender
  | sell_tokens platform i amount =>
    simp only [Holdings.apply, Option.bind_eq_bind, Option.bind_eq_some_iff, toOption_eq_some,
      Holdings.owned_eq_some] at happ
    obtain ⟨social_token, hown, ⟨pool', token', payments⟩, hsell, happ⟩ := happ
    cases happ
    exact h.sellTokens hown hsell ctx.sender
  | split_social_token_entry i split_amount =>
    simp only [Holdings.apply, Option.bind_eq_bind, Option.bind_eq_some_iff, toOption_eq_some,
      Holdings.owned_eq_some] at happ
    obtain ⟨token, hown, ⟨token', new_token⟩, hsplit, happ⟩ := happ
    cases happ
    exact h.split_social_token hown hsplit ctx.sender
  | merge_social_tokens_entry i j =>
    simp only [Holdings.apply] at happ
    split_ifs at happ with hij
    simp only [Option.bind_eq_bind, Option.bind_eq_some_iff, toOption_eq_some, Holdings.owned_eq_some] at happ
    obtain ⟨token1, h1, token2, h2, token', hmerge, happ⟩ := happ
    cases happ
    exact h.merge_social_tokens hij h1 h2 hmerge ctx.sender
  | public_transfer i recipient =>
    simp only [Holdings.apply, Option.bind_eq_bind, Option.bind_eq_some_iff, Holdings.owned_eq_some] at happ
    obtain ⟨token, hown, happ⟩ := happ
    cases happ
    exact h.public_transfer hown recipient

end steps

/-- The ledgers agree after every run of transactions from holdings
where they agree. -/
theorem Agree.run {r0 : ℕ} {w : Holdings} (h : Agree r0 w)
    (calls : List (Registries × SocialProofTokensConfig × TxContext × HoldingCall)) :
    Agree r0 (w.run calls) := by
  refine ExceptFold.foldl_inv (Agree r0) h fun w' call _ hw' => ?_
  unfold Holdings.step
  cases happ : w'.apply call.1 call.2.1 call.2.2.1 call.2.2.2 with
  | none => exact hw'
  | some w'' => exact hw'.apply happ

-- ============================================================ the conversion

section conversion

variable {reservations : List (ℕ × ℕ)}
  {pool_address token_type initial_token_supply total_reserved : ℕ}

/-- One turn of the loop hands the reserver's share to its entry, to what
is handed out and to a new object of the pool. -/
theorem distributeShare_sums {acc acc' : Distribution} {r : ℕ} (hs : Sorted acc.holders)
    (h : distributeShare reservations pool_address token_type initial_token_supply total_reserved
      acc r = .ok acc') :
    Sorted acc'.holders ∧
      valSum acc'.holders =
        valSum acc.holders + shareOf reservations initial_token_supply total_reserved r ∧
      acc'.distributed_total =
        acc.distributed_total + shareOf reservations initial_token_supply total_reserved r ∧
      tokenSum pool_address acc'.minted =
        tokenSum pool_address acc.minted + shareOf reservations initial_token_supply total_reserved r := by
  unfold distributeShare at h
  split at h
  · simp at h
  · next reservation_amount hsome =>
      have hshare : shareOf reservations initial_token_supply total_reserved r =
          reservation_amount * initial_token_supply / total_reserved := by
        simp [shareOf, hsome]
      rw [hshare]
      simp only [require_bind_eq_ok] at h
      obtain ⟨-, h⟩ := h
      split at h
      · -- a share to hand out: to the reserver's entry and to its object
        obtain ⟨holders, hcredit, h⟩ := bind_eq_ok h
        simp only [require_bind_eq_ok, pure_eq_ok] at h
        obtain ⟨-, rfl⟩ := h
        rw [creditHolder_eq_ok hcredit]
        have hsum := hs.valSum_alter (k := r)
          (f := fun _ => (lookup r acc.holders).getD 0 +
            reservation_amount * initial_token_supply / total_reserved)
        refine ⟨hs.alter, by dsimp only at hsum ⊢; omega, rfl, ?_⟩
        simp only [tokenSum_append, tokenSum_singleton, tokenAmount_self]
      · -- a share of nothing: nothing changes
        simp only [pure_eq_ok] at h
        subst h
        exact ⟨hs, by omega, by omega, by omega⟩

/-- The whole loop, over any list of reservers: each turn hands out the
turn's share to the table, to the total and to the objects alike. -/
theorem foldlM_distributeShare_sums :
    ∀ {rs : List ℕ} {acc acc' : Distribution}, Sorted acc.holders →
      rs.foldlM (distributeShare reservations pool_address token_type initial_token_supply
        total_reserved) acc = .ok acc' →
      Sorted acc'.holders ∧
        valSum acc'.holders = valSum acc.holders +
          (rs.map (shareOf reservations initial_token_supply total_reserved)).sum ∧
        acc'.distributed_total = acc.distributed_total +
          (rs.map (shareOf reservations initial_token_supply total_reserved)).sum ∧
        tokenSum pool_address acc'.minted = tokenSum pool_address acc.minted +
          (rs.map (shareOf reservations initial_token_supply total_reserved)).sum
  | [], acc, acc', hs, h => by
      simp only [List.foldlM_nil, pure_eq_ok] at h
      subst h
      simp [hs]
  | r :: rs, acc, acc', hs, h => by
      rw [List.foldlM_cons] at h
      obtain ⟨acc₁, hstep, h⟩ := bind_eq_ok h
      obtain ⟨hs₁, hv₁, hd₁, ht₁⟩ := distributeShare_sums hs hstep
      obtain ⟨hs', hv', hd', ht'⟩ := foldlM_distributeShare_sums hs₁ h
      simp only [List.map_cons, List.sum_cons]
      exact ⟨hs', by omega, by omega, by omega⟩

variable {config : SocialProofTokensConfig} {registry registry' : TokenRegistry}
  {pool pool' : ReservationPoolObject} {token_pool : TokenPool}
  {minted : List (ℕ × SocialToken)} {ctx : TxContext}

/-- The ledgers agree on a new pool, with the objects of other pools
beside it: what the shares leave of the initial supply is the owner's,
with no object. -/
theorem create_social_proof_token_agree
    (h : create_social_proof_token config registry pool pool_address ctx =
      .ok (registry', pool', token_pool, minted))
    (hsupply : initialSupply pool.info.token_type pool.info.total_reserved =
      .ok initial_token_supply)
    {others : List (ℕ × SocialToken)} (hfresh : ∀ p ∈ others, p.2.pool_id ≠ pool_address) :
    Agree (initial_token_supply - (pool.reservers.map (shareOf pool.reservations
      initial_token_supply pool.info.total_reserved)).sum) ⟨token_pool, others ++ minted⟩ := by
  obtain ⟨s, acc, holders, hs, hloop, hrem, rfl, -, -, rfl⟩ := create_social_proof_token_eq_ok h
  obtain rfl : s = initial_token_supply := Except.ok.inj (hs.symm.trans hsupply)
  -- the loop starts from no holders, nothing handed out and no objects
  obtain ⟨hsorted, hv, hd, ht⟩ := foldlM_distributeShare_sums (by simp [Sorted]) hloop
  simp only [valSum_nil, tokenSum_nil, Nat.zero_add] at hv hd ht
  obtain ⟨hsorted', hv', -, -⟩ := creditRemainder_eq_ok hsorted hrem
  have hothers := tokenSum_eq_zero hfresh
  refine ⟨⟨hsorted', by dsimp only; omega⟩, ?_⟩
  simp only [tokenSum_append]
  omega

end conversion

/-- After any run of trades, splits, merges and transfers from a new
pool and the objects of other pools, the holders table sums to the
circulating supply, and the pool's live objects to the supply less what
the reservers' rounded shares leave of the initial supply. -/
theorem holders_and_objects_agree {config : SocialProofTokensConfig}
    {registry registry' : TokenRegistry} {pool pool' : ReservationPoolObject}
    {pool_address initial_token_supply : ℕ} {token_pool : TokenPool}
    {minted : List (ℕ × SocialToken)} {ctx : TxContext}
    (h : create_social_proof_token config registry pool pool_address ctx =
      .ok (registry', pool', token_pool, minted))
    (hsupply : initialSupply pool.info.token_type pool.info.total_reserved =
      .ok initial_token_supply)
    (others : List (ℕ × SocialToken)) (hfresh : ∀ p ∈ others, p.2.pool_id ≠ pool_address)
    (calls : List (Registries × SocialProofTokensConfig × TxContext × HoldingCall)) :
    valSum (Holdings.run ⟨token_pool, others ++ minted⟩ calls).pool.holders =
        (Holdings.run ⟨token_pool, others ++ minted⟩ calls).pool.info.circulating_supply ∧
      tokenSum (Holdings.run ⟨token_pool, others ++ minted⟩ calls).pool.id
          (Holdings.run ⟨token_pool, others ++ minted⟩ calls).tokens =
        (Holdings.run ⟨token_pool, others ++ minted⟩ calls).pool.info.circulating_supply -
          (initial_token_supply - (pool.reservers.map (shareOf pool.reservations
            initial_token_supply pool.info.total_reserved)).sum) := by
  have hagree := (create_social_proof_token_agree h hsupply hfresh).run calls
  have heq := hagree.tokens_eq
  exact ⟨hagree.pool_ok.supply_eq, by omega⟩

/-- A post's reservation pool at its threshold of 100000000, owned by
address 7: addresses 3, 4 and 5 reserved a third each, rounded. -/
def thresholdPool : ReservationPoolObject :=
  ⟨⟨40, TOKEN_TYPE_POST, 7, 100000000, 100000000⟩, 100000000,
    [(3, 33333333), (4, 33333333), (5, 33333334)], [3, 4, 5], false⟩

def thresholdRegistry : TokenRegistry := ⟨[], [(40, thresholdPool.info)]⟩

/-- The conversion mints 10000 tokens: `math::sqrt` twice, by the squares
it takes the roots of. -/
theorem thresholdPool_initialSupply :
    initialSupply thresholdPool.info.token_type thresholdPool.info.total_reserved = .ok 10000 := by
  have hsqrt : Nat.sqrt 100000000 = 10000 := by
    rw [show (100000000 : ℕ) = 10000 ^ 2 by decide, Nat.sqrt_eq']
  have hsqrt' : Nat.sqrt 10000 = 100 := by
    rw [show (10000 : ℕ) = 100 ^ 2 by decide, Nat.sqrt_eq']
  show initialSupply TOKEN_TYPE_POST 100000000 = .ok 10000
  unfold initialSupply
  simp only [hsqrt, hsqrt']
  rfl

/-- Address 3 hands its object to address 8, who tries to sell 1000 of it
with no holders entry of its own; address 4 splits 1000 off its object. -/
def handOverCalls : List (Registries × SocialProofTokensConfig × TxContext × HoldingCall) :=
  [(openRegistries, tradingConfig, ⟨3, 0, 0⟩, .public_transfer 1 8),
    (openRegistries, tradingConfig, ⟨8, 0, 0⟩, .sell_tokens none 1 1000),
    (openRegistries, tradingConfig, ⟨4, 0, 0⟩, .split_social_token_entry 2 1000)]

/-- The three shares of 3333 leave one token to the owner, and the objects
of the pool, beside one of another pool, hold the supply less that one. -/
theorem ledgers_agree_after_hand_over :
    ∃ registry' pool' token_pool minted,
      create_social_proof_token tradingConfig thresholdRegistry thresholdPool 50 ⟨7, 0, 0⟩ =
        .ok (registry', pool', token_pool, minted) ∧
      valSum (Holdings.run ⟨token_pool, (9, ⟨60, TOKEN_TYPE_POST, 5⟩) :: minted⟩
          handOverCalls).pool.holders =
        (Holdings.run ⟨token_pool, (9, ⟨60, TOKEN_TYPE_POST, 5⟩) :: minted⟩
          handOverCalls).pool.info.circulating_supply ∧
      tokenSum (Holdings.run ⟨token_pool, (9, ⟨60, TOKEN_TYPE_POST, 5⟩) :: minted⟩
          handOverCalls).pool.id
          (Holdings.run ⟨token_pool, (9, ⟨60, TOKEN_TYPE_POST, 5⟩) :: minted⟩
            handOverCalls).tokens =
        (Holdings.run ⟨token_pool, (9, ⟨60, TOKEN_TYPE_POST, 5⟩) :: minted⟩
          handOverCalls).pool.info.circulating_supply - 1 := by
  obtain ⟨⟨registry', pool', token_pool, minted⟩, hcreate⟩ :
      ∃ r, create_social_proof_token tradingConfig thresholdRegistry thresholdPool 50
        ⟨7, 0, 0⟩ = .ok r :=
    ⟨_, by
      unfold create_social_proof_token
      simp only [thresholdPool_initialSupply]
      rfl⟩
  have hshares : (thresholdPool.reservers.map (shareOf thresholdPool.reservations 10000
      thresholdPool.info.total_reserved)).sum = 9999 := by decide
  have hagree := holders_and_objects_agree hcreate thresholdPool_initialSupply
    [(9, ⟨60, TOKEN_TYPE_POST, 5⟩)] (by decide) handOverCalls
  rw [hshares] at hagree
  exact ⟨registry', pool', token_pool, minted, hcreate, hagree⟩

end MysoCore.Social.SocialProofTokens
