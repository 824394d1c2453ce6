/-
What one account of the eager funds-withdraw scheduler keeps, and what
one turn of it does (eager_scheduler/account_state.rs,
pending_withdraw.rs).

# Reserved funds

`ReservedFunds.OK lo` says the total is the sum of the entries, their
versions strictly increase and none is below `lo`. A reservation at a
version at or above every entry keeps it (`OK.add_reserved_fund`), and
settling version `c` of funds reserved at `c` or above releases what was
reserved at `c` and leaves them at `c + 1` or above (`OK.settle_fund`):
the assertions and the checked subtraction of both never fire.

# An account

`AccountOK` is what an account state keeps between calls: its reserved
funds are `OK` and covered by its balance; its queue is a list of
distinct withdraws in version order, each still pending at the account,
at or above the version the balance was read at and at or above every
reservation; and every version it holds something at is recorded for it
by the scheduler. The bounds are parameters: `elo` for the reservations
and `qlo` for the queue, the current version and the next one between
calls, and both the next one while a settlement retries the queue.

# The table of withdraws

`TableOK` is what holds of the senders. One that sent `SufficientFunds`
has nothing pending; one that sent `InsufficientFunds` is pending at an
account that no longer holds it; none was told to skip; and one not yet
decided waits in the queue of every account it is pending at, but for
the pairs `E` exempts (the accounts a new withdraw has not reached yet).
So when the front of a queue reserves its last account its sender is
still held (`TableOK.sent_of_eraseKey`), and a turn of the account, the
front reserving or being refused, keeps the table (`TableOK.reserve`,
`TableOK.notify`). A turn changes no version and takes no other account
off a pending set (`Turn`), so the other accounts keep their invariant
(`AccountOK.turn`).

A turn also keeps the withdraws taken up (`PendingWithdraw.InUse`):
pending at an account, or decided. An account empties a pending set
only by sending `SufficientFunds`.

# A new withdraw

`try_reserve_new_withdraw` puts a withdraw at the back of the queue.
The withdraw is at or above every version the account holds, since all
of them are recorded (`AccountOK.enqueue`). It is tried at once only
when nothing waits before it (`try_reserve_new_withdraw_ok`).

# The retry loop

`reserveWhile` with fuel one more than the queue's length runs
`while self.try_reserve_front(next_version) {}` to its end: every round
that goes on takes the front off the queue (`try_reserve_front_ok`). It
decides every withdraw of the version it retries at, and leaves only
later ones waiting (`reserveWhile_ok`). `settle_funds_ok` adds the
balance update and the release of the settled version before it. An
account a settlement does not retry holds nothing at the version settled
and no withdraw of the next one, so it keeps its invariant as it is
(`AccountOK.unaffected`).
-/
import MysoCore.ExecutionScheduler.FundsWithdraw.Eager

namespace MysoCore.ExecutionScheduler.FundsWithdraw

open SortedMap ExceptFold

variable {α : Type} [LinearOrder α]

-- ============================================================ reserved funds

namespace ReservedFunds

/-- What is reserved at a version. -/
def reservedAt (rf : ReservedFunds) (v : ℕ) : ℕ := (lookup v rf.reserved_funds).getD 0

/-- The reserved funds' own invariant, with no version below `lo`. -/
structure OK (lo : ℕ) (rf : ReservedFunds) : Prop where
  total_eq : rf.total_reserved_funds_amount = valSum rf.reserved_funds
  sorted : Sorted rf.reserved_funds
  ge : ∀ e ∈ rf.reserved_funds, lo ≤ e.1

variable {rf : ReservedFunds} {lo v amount : ℕ}

theorem reservedAt_le (h : rf.OK lo) : rf.reservedAt v ≤ rf.total_reserved_funds_amount := by
  unfold reservedAt
  rw [h.total_eq]
  cases hv : lookup v rf.reserved_funds with
  | none => exact Nat.zero_le _
  | some r => exact le_valSum_of_lookup hv

/-- A reservation at a version at or above every entry goes into the last
entry if it is of that version, and after it otherwise. -/
theorem add_reserved_fund_ok (amount : ℕ) (hs : Sorted rf.reserved_funds)
    (hle : ∀ e ∈ rf.reserved_funds, e.1 ≤ v) :
    ∃ rf', rf.add_reserved_fund v amount = .ok rf' ∧
      rf'.total_reserved_funds_amount = rf.total_reserved_funds_amount + amount ∧
      valSum rf'.reserved_funds = valSum rf.reserved_funds + amount ∧
      Sorted rf'.reserved_funds ∧ ∀ e ∈ rf'.reserved_funds, e.1 = v ∨ e ∈ rf.reserved_funds := by
  unfold add_reserved_fund
  split
  · next version reserved hlast =>
      have hsplit := List.dropLast_append_getLast? _ hlast
      have hmem : (version, reserved) ∈ rf.reserved_funds := List.mem_of_getLast? hlast
      split_ifs with hv
      · -- the same version as the last entry: the entry grows
        subst hv
        refine ⟨_, rfl, rfl, ?_, ?_, ?_⟩
        · have hsum := congrArg valSum hsplit
          simp only [valSum_append, valSum_cons, valSum_nil] at hsum ⊢
          omega
        · refine hs.of_keys_eq ?_
          conv => rhs; rw [← hsplit]
          simp [keys]
        · intro e he
          rcases List.mem_append.mp he with he | he
          · exact .inr (List.mem_of_mem_dropLast he)
          · rw [List.mem_singleton] at he
            exact .inl (by rw [he])
      · -- a later version: a new last entry
        have hlt : version < v := lt_of_le_of_ne (hle _ hmem) hv
        rw [require_eq_pure hlt]
        refine ⟨_, rfl, rfl, by simp, ?_, ?_⟩
        · -- every key is at most the last one
          exact hs.append_singleton fun k hk => lt_of_le_of_lt (hs.le_last hlast k hk) hlt
        · intro e he
          rcases List.mem_append.mp he with he | he
          · exact .inr he
          · rw [List.mem_singleton] at he
            exact .inl (by rw [he])
  · next hnone =>
      rw [List.getLast?_eq_none_iff] at hnone
      refine ⟨_, rfl, rfl, by simp, ?_, ?_⟩
      · rw [hnone]
        simp [Sorted, keys]
      · intro e he
        rw [hnone, List.nil_append, List.mem_singleton] at he
        exact .inl (by rw [he])

theorem OK.add_reserved_fund (h : rf.OK lo) (amount : ℕ) (hle : ∀ e ∈ rf.reserved_funds, e.1 ≤ v)
    (hlo : lo ≤ v) :
    ∃ rf', rf.add_reserved_fund v amount = .ok rf' ∧ rf'.OK lo ∧
      rf'.total_reserved_funds_amount = rf.total_reserved_funds_amount + amount ∧
      ∀ e ∈ rf'.reserved_funds, e.1 = v ∨ e ∈ rf.reserved_funds := by
  obtain ⟨rf', hadd, htotal, hsum, hsorted, hmem⟩ := add_reserved_fund_ok amount h.sorted hle
  refine ⟨rf', hadd, ⟨by rw [htotal, hsum, h.total_eq], hsorted, fun e he => ?_⟩, htotal, hmem⟩
  rcases hmem e he with heq | he
  · exact heq ▸ hlo
  · exact h.ge e he

/-- Settling version `c` releases the first entry if it is of `c`, and
else finds every entry above `c`. -/
theorem OK.settle_fund {c : ℕ} (h : rf.OK c) :
    ∃ rf', rf.settle_fund (c + 1) = .ok rf' ∧ rf'.OK (c + 1) ∧
      rf'.total_reserved_funds_amount + rf.reservedAt c = rf.total_reserved_funds_amount ∧
      ∀ e ∈ rf'.reserved_funds, e ∈ rf.reserved_funds := by
  unfold ReservedFunds.settle_fund reservedAt
  have htotal := h.total_eq
  split
  · next version amount rest hcons =>
      rw [hcons] at htotal
      have hsorted := h.sorted
      rw [hcons] at hsorted
      obtain ⟨hhead, hrest⟩ := List.pairwise_cons.mp hsorted
      have hc : c ≤ version := h.ge _ (hcons ▸ List.mem_cons_self)
      split_ifs with hv
      · -- the settled version's entry goes
        have hvc : version = c := by omega
        subst hvc
        simp only [valSum_cons] at htotal
        rw [require_eq_pure (by omega : amount ≤ rf.total_reserved_funds_amount), hcons]
        refine ⟨⟨rest, rf.total_reserved_funds_amount - amount⟩, rfl,
          ⟨by simp only; omega, hrest, fun e he => ?_⟩, by simp [lookup]; omega,
          fun e he => List.mem_cons_of_mem _ he⟩
        exact hhead e.1 (mem_keys.mpr ⟨e.2, he⟩)
      · -- nothing reserved at the settled version
        have hlt : c < version := lt_of_le_of_ne hc (by omega)
        rw [require_eq_pure (by omega : c + 1 ≤ version)]
        refine ⟨rf, rfl, ⟨h.total_eq, h.sorted, fun e he => ?_⟩, ?_, fun e he => he⟩
        · rw [hcons] at he
          rcases List.mem_cons.mp he with rfl | he
          · exact hlt
          · exact lt_trans hlt (hhead e.1 (mem_keys.mpr ⟨e.2, he⟩))
        · rw [hcons, Sorted.lookup_eq_none_of_lt hsorted hlt]
          rfl
  · next hnil =>
      refine ⟨_, rfl, ⟨h.total_eq, h.sorted, fun e he => ?_⟩, ?_, fun e he => he⟩
      · rw [hnil] at he
        cases he
      · rw [hnil]
        rfl

end ReservedFunds

-- ============================================================ pending withdraws

namespace PendingWithdraw

variable {w : PendingWithdraw α} {a : α}

theorem pending_amount_ok {amount : ℕ} (h : lookup a w.pending = some amount) :
    w.pending_amount a = .ok amount := by
  unfold pending_amount
  rw [h]
  rfl

/-- The account taken off, and `SufficientFunds` sent if it was the last:
what `remove_pending_account` does when the account is pending and the
sender is held in that case. -/
theorem remove_pending_account_ok (ha : a ∈ keys w.pending)
    (hsent : eraseKey a w.pending = [] → w.sent = none) :
    w.remove_pending_account a =
      .ok { w with pending := eraseKey a w.pending,
                   sent := if eraseKey a w.pending = [] then some .SufficientFunds else w.sent } := by
  unfold remove_pending_account
  rw [require_eq_pure ha, pure_bind]
  by_cases hempty : eraseKey a w.pending = []
  · simp only [hempty, ↓reduceIte, require_eq_pure (hsent hempty)]
    rfl
  · simp only [hempty, ↓reduceIte]
    rfl

omit [LinearOrder α] in
@[simp] theorem notify_insufficient_funds_pending : w.notify_insufficient_funds.pending = w.pending := by
  unfold notify_insufficient_funds
  split <;> rfl

omit [LinearOrder α] in
@[simp] theorem notify_insufficient_funds_accumulator_version :
    w.notify_insufficient_funds.accumulator_version = w.accumulator_version := by
  unfold notify_insufficient_funds
  split <;> rfl

omit [LinearOrder α] in
theorem notify_insufficient_funds_sent :
    w.notify_insufficient_funds.sent = some (w.sent.getD .InsufficientFunds) := by
  unfold notify_insufficient_funds
  split
  · next hnone => rw [hnone]; rfl
  · next status hsome => rw [hsome]; rfl

/-- A withdraw once account `a` has reserved for it: the account off its
pending set, and `SufficientFunds` sent if it was the last one. -/
def removed (w : PendingWithdraw α) (a : α) : PendingWithdraw α :=
  { w with pending := eraseKey a w.pending,
           sent := if eraseKey a w.pending = [] then some .SufficientFunds else w.sent }

@[simp] theorem removed_pending : (w.removed a).pending = eraseKey a w.pending := rfl

@[simp] theorem removed_accumulator_version :
    (w.removed a).accumulator_version = w.accumulator_version := rfl

theorem removed_sent :
    (w.removed a).sent = if eraseKey a w.pending = [] then some .SufficientFunds else w.sent := rfl

/-- A withdraw the scheduler has taken up: still pending at an account,
or decided. -/
def InUse (w : PendingWithdraw α) : Prop := w.pending ≠ [] ∨ w.sent ≠ none

omit [LinearOrder α] in
theorem inUse_of_mem (ha : a ∈ keys w.pending) : w.InUse :=
  .inl fun h => by rw [h] at ha; cases ha

/-- An account reserving keeps a withdraw taken up: it empties the
pending set only by sending `SufficientFunds`. -/
theorem removed_inUse : (w.removed a).InUse := by
  by_cases hempty : eraseKey a w.pending = []
  · exact .inr (by rw [removed_sent, if_pos hempty]; simp)
  · exact .inl hempty

omit [LinearOrder α] in
theorem notify_insufficient_funds_inUse : w.notify_insufficient_funds.InUse :=
  .inr (by rw [notify_insufficient_funds_sent]; simp)

end PendingWithdraw

-- ============================================================ a turn of an account

/-- What a turn of account `a` may do to the withdraws: no version
changes, no account but `a` leaves a pending set and none joins one, a
status once sent stays, and the withdraws taken up stay the same. -/
structure Turn (a : α) (W W' : Withdraws α) : Prop where
  version_eq : ∀ id, (W' id).accumulator_version = (W id).accumulator_version
  pending_sub : ∀ id b, b ∈ keys (W' id).pending → b ∈ keys (W id).pending
  pending_keep : ∀ id b, b ≠ a → b ∈ keys (W id).pending → b ∈ keys (W' id).pending
  sent_keep : ∀ id status, (W id).sent = some status → (W' id).sent = some status
  in_use : ∀ id, (W' id).InUse ↔ (W id).InUse

namespace Turn

variable {a : α} {W W' W'' : Withdraws α} {id : WithdrawId}

omit [LinearOrder α] in
theorem refl : Turn a W W :=
  ⟨fun _ => rfl, fun _ _ h => h, fun _ _ _ h => h, fun _ _ h => h, fun _ => Iff.rfl⟩

omit [LinearOrder α] in
theorem trans (h : Turn a W W') (h' : Turn a W' W'') : Turn a W W'' :=
  ⟨fun id => (h'.version_eq id).trans (h.version_eq id),
    fun id b hb => h.pending_sub id b (h'.pending_sub id b hb),
    fun id b hne hb => h'.pending_keep id b hne (h.pending_keep id b hne hb),
    fun id status hs => h'.sent_keep id status (h.sent_keep id status hs),
    fun id => (h'.in_use id).trans (h.in_use id)⟩

omit [LinearOrder α] in
/-- A turn that changes one withdraw by a turn of its own. -/
theorem update {w : PendingWithdraw α}
    (hv : w.accumulator_version = (W id).accumulator_version)
    (hsub : ∀ b, b ∈ keys w.pending → b ∈ keys (W id).pending)
    (hkeep : ∀ b, b ≠ a → b ∈ keys (W id).pending → b ∈ keys w.pending)
    (hsent : ∀ status, (W id).sent = some status → w.sent = some status)
    (huse : w.InUse ↔ (W id).InUse) :
    Turn a W (Function.update W id w) where
  version_eq id' := by
    by_cases hid : id' = id
    · subst hid
      rw [Function.update_self]
      exact hv
    · rw [Function.update_of_ne hid]
  pending_sub id' b hb := by
    by_cases hid : id' = id
    · subst hid
      rw [Function.update_self] at hb
      exact hsub b hb
    · rwa [Function.update_of_ne hid] at hb
  pending_keep id' b hne hb := by
    by_cases hid : id' = id
    · subst hid
      rw [Function.update_self]
      exact hkeep b hne hb
    · rwa [Function.update_of_ne hid]
  sent_keep id' status hs := by
    by_cases hid : id' = id
    · subst hid
      rw [Function.update_self]
      exact hsent status hs
    · rwa [Function.update_of_ne hid]
  in_use id' := by
    by_cases hid : id' = id
    · subst hid
      rw [Function.update_self]
      exact huse
    · rw [Function.update_of_ne hid]

theorem reserve (hsent : eraseKey a (W id).pending = [] → (W id).sent = none)
    (ha : a ∈ keys (W id).pending) :
    Turn a W (Function.update W id ((W id).removed a)) := by
  refine update rfl (fun b hb => (mem_keys_eraseKey.mp hb).1)
    (fun b hne hb => mem_keys_eraseKey.mpr ⟨hb, hne⟩) (fun status hs => ?_)
    ⟨fun _ => PendingWithdraw.inUse_of_mem ha, fun _ => PendingWithdraw.removed_inUse⟩
  rw [PendingWithdraw.removed_sent]
  split_ifs with hempty
  · rw [hsent hempty] at hs
    cases hs
  · exact hs

omit [LinearOrder α] in
theorem notify (ha : a ∈ keys (W id).pending) :
    Turn a W (Function.update W id (W id).notify_insufficient_funds) := by
  refine update (by simp) (fun b hb => by simpa using hb) (fun b _ hb => by simpa using hb)
    (fun status hs => ?_)
    ⟨fun _ => PendingWithdraw.inUse_of_mem ha, fun _ => PendingWithdraw.notify_insufficient_funds_inUse⟩
  rw [PendingWithdraw.notify_insufficient_funds_sent, hs]
  rfl

end Turn

-- ============================================================ an account's invariant

/-- What an account state keeps, with `recorded` the accounts the
scheduler has recorded for each version, `elo` the lowest version of a
reservation and `qlo` the lowest version of a waiting withdraw. -/
structure AccountOK (recorded : ℕ → Option (Finset α)) (elo qlo : ℕ) (W : Withdraws α) (a : α)
    (s : AccountState) : Prop where
  reserved : s.reserved_funds.OK elo
  covered : s.reserved_funds.total_reserved_funds_amount ≤ s.last_updated_balance
  update_le : s.last_updated_version ≤ elo ∨ ∃ v, s.last_updated_version ≤ v ∧ recorded v ≠ none
  nodup : s.pending_reservations.Nodup
  queue_sorted :
    s.pending_reservations.Pairwise fun i j => (W i).accumulator_version ≤ (W j).accumulator_version
  queue_ge : ∀ id ∈ s.pending_reservations, qlo ≤ (W id).accumulator_version
  queue_ge_update : ∀ id ∈ s.pending_reservations, s.last_updated_version ≤ (W id).accumulator_version
  reserved_le_queue : ∀ e ∈ s.reserved_funds.reserved_funds, ∀ id ∈ s.pending_reservations,
    e.1 ≤ (W id).accumulator_version
  queue_pending : ∀ id ∈ s.pending_reservations, a ∈ keys (W id).pending
  reserved_recorded : ∀ e ∈ s.reserved_funds.reserved_funds, a ∈ (recorded e.1).getD ∅
  queue_recorded : ∀ id ∈ s.pending_reservations, a ∈ (recorded (W id).accumulator_version).getD ∅

omit [LinearOrder α] in
/-- An account listed for a version: the version is recorded. -/
theorem ne_none_of_mem_getD {o : Option (Finset α)} {a : α} (h : a ∈ o.getD ∅) : o ≠ none := by
  rintro rfl
  simp at h

namespace AccountOK

variable {P : ℕ → Option (Finset α)} {elo qlo : ℕ} {W W' : Withdraws α} {a b : α}
  {s : AccountState}

omit [LinearOrder α] in
/-- The invariant reads the withdraws of the queue only. -/
theorem congr (h : AccountOK P elo qlo W a s) (hW : ∀ id ∈ s.pending_reservations, W' id = W id) :
    AccountOK P elo qlo W' a s where
  reserved := h.reserved
  covered := h.covered
  update_le := h.update_le
  nodup := h.nodup
  queue_sorted := h.queue_sorted.imp_of_mem fun hi hj hij => by rw [hW _ hi, hW _ hj]; exact hij
  queue_ge id hid := hW id hid ▸ h.queue_ge id hid
  queue_ge_update id hid := hW id hid ▸ h.queue_ge_update id hid
  reserved_le_queue e he id hid := hW id hid ▸ h.reserved_le_queue e he id hid
  queue_pending id hid := hW id hid ▸ h.queue_pending id hid
  reserved_recorded := h.reserved_recorded
  queue_recorded id hid := hW id hid ▸ h.queue_recorded id hid

omit [LinearOrder α] in
/-- Another account's turn keeps the invariant. -/
theorem turn (h : AccountOK P elo qlo W b s) (hT : Turn a W W') (hne : b ≠ a) :
    AccountOK P elo qlo W' b s where
  reserved := h.reserved
  covered := h.covered
  update_le := h.update_le
  nodup := h.nodup
  queue_sorted := h.queue_sorted.imp fun hij => by rw [hT.version_eq, hT.version_eq]; exact hij
  queue_ge id hid := (hT.version_eq id).symm ▸ h.queue_ge id hid
  queue_ge_update id hid := (hT.version_eq id).symm ▸ h.queue_ge_update id hid
  reserved_le_queue e he id hid := (hT.version_eq id).symm ▸ h.reserved_le_queue e he id hid
  queue_pending id hid := hT.pending_keep id b hne (h.queue_pending id hid)
  reserved_recorded := h.reserved_recorded
  queue_recorded id hid := (hT.version_eq id).symm ▸ h.queue_recorded id hid

omit [LinearOrder α] in
/-- A new account state, read at a version that is settled or recorded. -/
theorem new {balance version : ℕ}
    (hv : version ≤ elo ∨ ∃ v, version ≤ v ∧ P v ≠ none) :
    AccountOK P elo qlo W a (AccountState.new balance version) where
  reserved := ⟨rfl, List.Pairwise.nil, fun _ he => by cases he⟩
  covered := Nat.zero_le _
  update_le := hv
  nodup := List.nodup_nil
  queue_sorted := List.Pairwise.nil
  queue_ge _ hid := by cases hid
  queue_ge_update _ hid := by cases hid
  reserved_le_queue _ he := by cases he
  queue_pending _ hid := by cases hid
  reserved_recorded _ he := by cases he
  queue_recorded _ hid := by cases hid

omit [LinearOrder α] in
theorem mono_queue {qlo' : ℕ} (h : AccountOK P elo qlo W a s) (hle : qlo' ≤ qlo) :
    AccountOK P elo qlo' W a s :=
  { h with queue_ge := fun i hi => hle.trans (h.queue_ge i hi) }

omit [LinearOrder α] in
/-- Recording more versions keeps the invariant. -/
theorem extend {P' : ℕ → Option (Finset α)} (h : AccountOK P elo qlo W a s)
    (hP : ∀ v, P v ≠ none → P' v = P v) : AccountOK P' elo qlo W a s :=
  { h with
    update_le := h.update_le.imp_right fun ⟨v, hv, hPv⟩ => ⟨v, hv, by rw [hP v hPv]; exact hPv⟩
    reserved_recorded := fun e he => by
      rw [hP _ (ne_none_of_mem_getD (h.reserved_recorded e he))]
      exact h.reserved_recorded e he
    queue_recorded := fun i hi => by
      rw [hP _ (ne_none_of_mem_getD (h.queue_recorded i hi))]
      exact h.queue_recorded i hi }

omit [LinearOrder α] in
/-- A withdraw pending at `a`, recorded for it and at or above every
version the account holds, joins the back of the queue. -/
theorem enqueue {id : WithdrawId} (h : AccountOK P elo qlo W a s)
    (hid : id ∉ s.pending_reservations) (hqlo : qlo ≤ (W id).accumulator_version)
    (hL : s.last_updated_version ≤ (W id).accumulator_version)
    (hlast : ∀ i ∈ s.pending_reservations, (W i).accumulator_version ≤ (W id).accumulator_version)
    (hres : ∀ e ∈ s.reserved_funds.reserved_funds, e.1 ≤ (W id).accumulator_version)
    (hpend : a ∈ keys (W id).pending) (hrec : a ∈ (P (W id).accumulator_version).getD ∅) :
    AccountOK P elo qlo W a { s with pending_reservations := s.pending_reservations ++ [id] } := by
  have happ : ∀ {Q : WithdrawId → Prop}, (∀ i ∈ s.pending_reservations, Q i) → Q id →
      ∀ i ∈ s.pending_reservations ++ [id], Q i := fun hq hid i hi => by
    rcases List.mem_append.mp hi with hi | hi
    · exact hq i hi
    · exact List.mem_singleton.mp hi ▸ hid
  exact
    { h with
      nodup := List.nodup_append_comm.mp (List.nodup_cons.mpr ⟨hid, h.nodup⟩)
      queue_sorted := List.pairwise_append.mpr ⟨h.queue_sorted, List.pairwise_singleton _ _,
        fun i hi j hj => List.mem_singleton.mp hj ▸ hlast i hi⟩
      queue_ge := happ h.queue_ge hqlo
      queue_ge_update := happ h.queue_ge_update hL
      reserved_le_queue := fun e he => happ (h.reserved_le_queue e he) (hres e he)
      queue_pending := happ h.queue_pending hpend
      queue_recorded := happ h.queue_recorded hrec }

end AccountOK

-- ============================================================ the table of withdraws

/-- Withdraw `id` waits in the queue of account `b`. -/
def Queued (T : α → Option AccountState) (b : α) (id : WithdrawId) : Prop :=
  ∃ s, T b = some s ∧ id ∈ s.pending_reservations

section queued

variable {T : α → Option AccountState} {a b : α} {s : AccountState} {id : WithdrawId}

omit [LinearOrder α] in
theorem queued_of_some (hT : T a = some s) : Queued T a id ↔ id ∈ s.pending_reservations := by
  unfold Queued
  rw [hT]
  simp

@[simp] theorem queued_update_self : Queued (Function.update T a (some s)) a id ↔ id ∈ s.pending_reservations :=
  queued_of_some (Function.update_self ..)

@[simp] theorem not_queued_update_none : ¬ Queued (Function.update T a none) a id := by
  simp [Queued]

theorem queued_update_of_ne {o : Option AccountState} (hne : b ≠ a) :
    Queued (Function.update T a o) b id ↔ Queued T b id := by
  unfold Queued
  rw [Function.update_of_ne hne]

end queued

/-- What holds of the senders of the withdraws, given the tracked
accounts `T`; `E` exempts the pairs of a withdraw and an account it has
not reached yet from waiting in that account's queue. -/
structure TableOK (T : α → Option AccountState) (W : Withdraws α) (E : WithdrawId → α → Prop) :
    Prop where
  sufficient : ∀ id, (W id).sent = some .SufficientFunds → (W id).pending = []
  insufficient : ∀ id, (W id).sent = some .InsufficientFunds →
    ∃ b ∈ keys (W id).pending, ¬ E id b ∧ ¬ Queued T b id
  not_skipped : ∀ id, (W id).sent ≠ some .SkipSchedule
  undecided : ∀ id, (W id).sent = none → ∀ b ∈ keys (W id).pending, E id b ∨ Queued T b id

namespace TableOK

variable {T : α → Option AccountState} {W : Withdraws α} {E : WithdrawId → α → Prop} {a : α}
  {s s' : AccountState} {id : WithdrawId} {rest : List WithdrawId}

/-- The front of a queue that reserves its last pending account still
holds its sender: had it been refused elsewhere, that account would still
be pending. -/
theorem sent_of_eraseKey (h : TableOK T W E) (hq : Queued T a id) (ha : a ∈ keys (W id).pending) :
    eraseKey a (W id).pending = [] → (W id).sent = none := by
  intro hempty
  cases hsent : (W id).sent with
  | none => rfl
  | some status =>
    cases status with
    | SufficientFunds =>
      rw [h.sufficient id hsent] at ha
      cases ha
    | InsufficientFunds =>
      obtain ⟨b, hb, -, hnot⟩ := h.insufficient id hsent
      -- the refusing account is not `a`, whose queue holds the withdraw
      have hne : b ≠ a := by
        rintro rfl
        exact hnot hq
      have hmem : b ∈ keys (eraseKey a (W id).pending) := mem_keys_eraseKey.mpr ⟨hb, hne⟩
      rw [hempty] at hmem
      cases hmem
    | SkipSchedule => exact absurd hsent (h.not_skipped id)

omit [LinearOrder α] in
/-- The table reads the tracked accounts through their queues only. -/
theorem congr {T' : α → Option AccountState} (h : TableOK T W E)
    (hQ : ∀ b id, Queued T' b id ↔ Queued T b id) : TableOK T' W E := by
  have hQ' : Queued T' = Queued T := funext fun b => funext fun id => propext (hQ b id)
  exact ⟨h.sufficient, fun id hsent => hQ' ▸ h.insufficient id hsent, h.not_skipped,
    fun id hsent => hQ' ▸ h.undecided id hsent⟩

omit [LinearOrder α] in
theorem congr_exempt {E' : WithdrawId → α → Prop} (h : TableOK T W E)
    (hE : ∀ id b, E' id b ↔ E id b) : TableOK T W E' := by
  have hE' : E' = E := funext fun id => funext fun b => propext (hE id b)
  exact hE' ▸ h

theorem congr_queue (h : TableOK (Function.update T a (some s)) W E)
    (hq : s'.pending_reservations = s.pending_reservations) :
    TableOK (Function.update T a (some s')) W E :=
  h.congr fun b id => by
    by_cases hba : b = a
    · subst hba
      simp [hq]
    · rw [queued_update_of_ne hba, queued_update_of_ne hba]

/-- An account with nothing waiting dropped from the tracked ones. -/
theorem untrack (h : TableOK (Function.update T a (some s)) W E) (hq : s.pending_reservations = []) :
    TableOK (Function.update T a none) W E :=
  h.congr fun b id => by
    by_cases hba : b = a
    · subst hba
      simp [hq]
    · rw [queued_update_of_ne hba, queued_update_of_ne hba]

/-- An account not tracked yet starts to be, with nothing waiting. -/
theorem track (h : TableOK T W E) (hT : T a = none) (hq : s.pending_reservations = []) :
    TableOK (Function.update T a (some s)) W E :=
  h.congr fun b id => by
    by_cases hba : b = a
    · subst hba
      simp [Queued, hT, hq]
    · rw [queued_update_of_ne hba]

/-- A withdraw exempt at `a` joins the back of its queue, and is exempt
there no more. -/
theorem enqueue (h : TableOK (Function.update T a (some s)) W E) (hE : E id a)
    (hq : s'.pending_reservations = s.pending_reservations ++ [id]) :
    TableOK (Function.update T a (some s')) W fun id' b => E id' b ∧ ¬ (id' = id ∧ b = a) := by
  have hQ : ∀ b id', Queued (Function.update T a (some s')) b id' ↔
      Queued (Function.update T a (some s)) b id' ∨ (id' = id ∧ b = a) := by
    intro b id'
    by_cases hba : b = a
    · subst hba
      simp [hq]
    · rw [queued_update_of_ne hba, queued_update_of_ne hba]
      simp [hba]
  refine ⟨h.sufficient, fun id' hsent => ?_, h.not_skipped, fun id' hsent b hb => ?_⟩
  · obtain ⟨b, hb, hE', hnot⟩ := h.insufficient id' hsent
    refine ⟨b, hb, fun hh => hE' hh.1, fun hq' => ?_⟩
    rcases (hQ b id').mp hq' with hq' | ⟨rfl, rfl⟩
    · exact hnot hq'
    · exact hE' hE
  · rcases h.undecided id' hsent b hb with hE' | hq'
    · by_cases hh : id' = id ∧ b = a
      · exact .inr ((hQ b id').mpr (.inr hh))
      · exact .inl ⟨hE', hh⟩
    · exact .inr ((hQ b id').mpr (.inl hq'))

omit [LinearOrder α] in
/-- A change to one withdraw, with the queues changed only for others:
the table holds if it holds of the new withdraw. -/
theorem update {T' : α → Option AccountState} {E' : WithdrawId → α → Prop} (h : TableOK T W E)
    (hQ : ∀ b id', id' ≠ id → (Queued T' b id' ↔ Queued T b id'))
    (hE : ∀ id' b, id' ≠ id → (E' id' b ↔ E id' b)) (w : PendingWithdraw α)
    (hsuff : w.sent = some .SufficientFunds → w.pending = [])
    (hins : w.sent = some .InsufficientFunds → ∃ b ∈ keys w.pending, ¬ E' id b ∧ ¬ Queued T' b id)
    (hskip : w.sent ≠ some .SkipSchedule)
    (hund : w.sent = none → ∀ b ∈ keys w.pending, E' id b ∨ Queued T' b id) :
    TableOK T' (Function.update W id w) E' := by
  refine ⟨fun id' => ?_, fun id' => ?_, fun id' => ?_, fun id' => ?_⟩ <;>
    by_cases hid : id' = id
  · subst hid
    rw [Function.update_self]
    exact hsuff
  · rw [Function.update_of_ne hid]
    exact h.sufficient id'
  · subst hid
    rw [Function.update_self]
    exact hins
  · rw [Function.update_of_ne hid]
    intro hif
    obtain ⟨b, hb, hEb, hnot⟩ := h.insufficient id' hif
    exact ⟨b, hb, fun hE' => hEb ((hE id' b hid).mp hE'), fun hq => hnot ((hQ b id' hid).mp hq)⟩
  · subst hid
    rw [Function.update_self]
    exact hskip
  · rw [Function.update_of_ne hid]
    exact h.not_skipped id'
  · subst hid
    rw [Function.update_self]
    exact hund
  · rw [Function.update_of_ne hid]
    intro hnone b hb
    rcases h.undecided id' hnone b hb with hEb | hq
    · exact .inl ((hE id' b hid).mpr hEb)
    · exact .inr ((hQ b id' hid).mpr hq)

/-- The queue of `a` without its front `id`: every other withdraw waits
where it waited. -/
theorem queued_pop (hT : T a = some s) (hq : s.pending_reservations = id :: rest)
    (hnodup : s.pending_reservations.Nodup) (hs' : s'.pending_reservations = rest) (b : α)
    (id' : WithdrawId) :
    Queued (Function.update T a (some s')) b id' ↔ Queued T b id' ∧ ¬ (b = a ∧ id' = id) := by
  have hid : id ∉ rest := (List.nodup_cons.mp (hq ▸ hnodup)).1
  by_cases hba : b = a
  · subst hba
    rw [queued_update_self, queued_of_some hT, hs', hq, List.mem_cons]
    constructor
    · intro h'
      exact ⟨.inr h', fun hh => hid (hh.2 ▸ h')⟩
    · rintro ⟨h' | h', hne⟩
      · exact absurd ⟨rfl, h'⟩ hne
      · exact h'
  · rw [queued_update_of_ne hba]
    simp [hba]

/-- The front reserves: `a` leaves its pending set, and its sender sends
`SufficientFunds` if it was the last. -/
theorem reserve (h : TableOK T W E) (hT : T a = some s)
    (hq : s.pending_reservations = id :: rest) (hnodup : s.pending_reservations.Nodup)
    (ha : a ∈ keys (W id).pending) (hs' : s'.pending_reservations = rest) :
    TableOK (Function.update T a (some s')) (Function.update W id ((W id).removed a)) E := by
  have hqa : Queued T a id := (queued_of_some hT).mpr (hq ▸ List.mem_cons_self)
  have hsent := h.sent_of_eraseKey hqa ha
  have hpop := queued_pop hT hq hnodup hs'
  refine h.update (fun b id' hne => by rw [hpop]; simp [hne]) (fun _ _ _ => Iff.rfl) _ (fun hsf => ?_) (fun hif => ?_)
    ?_ (fun hnone b hb => ?_)
  · rw [PendingWithdraw.removed_sent] at hsf
    split_ifs at hsf with hempty
    · exact hempty
    · rw [h.sufficient id hsf] at ha
      cases ha
  · rw [PendingWithdraw.removed_sent] at hif
    split_ifs at hif
    · cases hif
    -- refused elsewhere already: that account is not `a`, and still pending
    obtain ⟨b, hb, hE, hnot⟩ := h.insufficient id hif
    have hne : b ≠ a := fun hba => hnot (hba ▸ hqa)
    exact ⟨b, mem_keys_eraseKey.mpr ⟨hb, hne⟩, hE, fun hq' => hnot ((hpop b id).mp hq').1⟩
  · rw [PendingWithdraw.removed_sent]
    split_ifs
    · simp
    · exact h.not_skipped id
  · rw [PendingWithdraw.removed_sent] at hnone
    split_ifs at hnone
    obtain ⟨hb, hne⟩ := mem_keys_eraseKey.mp hb
    rcases h.undecided id hnone b hb with hE | hq'
    · exact .inl hE
    · exact .inr ((hpop b id).mpr ⟨hq', fun hh => hne hh.1⟩)

/-- The front is refused at its own version: the sender sends
`InsufficientFunds` unless it has sent already, and `a` stays pending. -/
theorem notify (h : TableOK T W E) (hT : T a = some s)
    (hq : s.pending_reservations = id :: rest) (hnodup : s.pending_reservations.Nodup)
    (ha : a ∈ keys (W id).pending) (hE : ¬ E id a) (hs' : s'.pending_reservations = rest) :
    TableOK (Function.update T a (some s'))
      (Function.update W id (W id).notify_insufficient_funds) E := by
  have hqa : Queued T a id := (queued_of_some hT).mpr (hq ▸ List.mem_cons_self)
  have hpop := queued_pop hT hq hnodup hs'
  refine h.update (fun b id' hne => by rw [hpop]; simp [hne]) (fun _ _ _ => Iff.rfl) _ (fun hsf => ?_) (fun hif => ?_)
    ?_ (fun hnone => ?_)
  · rw [PendingWithdraw.notify_insufficient_funds_sent] at hsf
    cases hsent : (W id).sent with
    | none => rw [hsent] at hsf; cases hsf
    | some status =>
      rw [hsent] at hsf
      cases hsf
      rw [h.sufficient id hsent] at ha
      cases ha
  · rw [PendingWithdraw.notify_insufficient_funds_pending]
    rw [PendingWithdraw.notify_insufficient_funds_sent] at hif
    cases hsent : (W id).sent with
    | none =>
      -- refused here first: `a` is the witness
      exact ⟨a, ha, hE, fun hq' => ((hpop a id).mp hq').2 ⟨rfl, rfl⟩⟩
    | some status =>
      rw [hsent] at hif
      cases hif
      obtain ⟨b, hb, hE', hnot⟩ := h.insufficient id hsent
      exact ⟨b, hb, hE', fun hq' => hnot ((hpop b id).mp hq').1⟩
  · rw [PendingWithdraw.notify_insufficient_funds_sent]
    cases hsent : (W id).sent with
    | none => simp
    | some status =>
      rw [Option.getD_some]
      intro hskip
      exact h.not_skipped id (by rw [hsent, ← hskip])
  · rw [PendingWithdraw.notify_insufficient_funds_sent] at hnone
    cases hnone

end TableOK

-- ============================================================ one turn

namespace AccountState

variable {a : α} {last amount : ℕ} {W : Withdraws α} {s : AccountState} {id : WithdrawId}
  {rest : List WithdrawId}

/-- A turn of an account whose front passes the assertions: it reserves
if the balance covers it and what is reserved, is refused at its own
version, and else waits. -/
theorem try_reserve_front_cases (hq : s.pending_reservations = id :: rest)
    (hL : s.last_updated_version ≤ (W id).accumulator_version)
    (hlast : last ≤ (W id).accumulator_version)
    (hamount : lookup a (W id).pending = some amount)
    (hsent : eraseKey a (W id).pending = [] → (W id).sent = none) :
    (s.reserved_funds.total_reserved_funds_amount + amount ≤ s.last_updated_balance ∧
      ∀ rf, s.reserved_funds.add_reserved_fund (W id).accumulator_version amount = .ok rf →
        s.try_reserve_front a last W =
          .ok (true, { s with reserved_funds := rf, pending_reservations := rest },
            Function.update W id ((W id).removed a))) ∨
    (s.last_updated_balance < s.reserved_funds.total_reserved_funds_amount + amount ∧
      (W id).accumulator_version = last ∧
      s.try_reserve_front a last W =
        .ok (true, { s with pending_reservations := rest },
          Function.update W id (W id).notify_insufficient_funds)) ∨
    (s.last_updated_balance < s.reserved_funds.total_reserved_funds_amount + amount ∧
      (W id).accumulator_version ≠ last ∧ s.try_reserve_front a last W = .ok (false, s, W)) := by
  have ha : a ∈ keys (W id).pending := mem_keys.mpr ⟨amount, mem_of_lookup_eq_some hamount⟩
  unfold try_reserve_front
  rw [hq]
  simp only [require_eq_pure hL, require_eq_pure hlast, pure_bind,
    PendingWithdraw.pending_amount_ok hamount, ok_bind]
  split_ifs with hcov hversion
  · refine .inl ⟨hcov, fun rf hrf => ?_⟩
    rw [hrf, ok_bind, PendingWithdraw.remove_pending_account_ok ha hsent, ok_bind]
    rfl
  · exact .inr (.inl ⟨by omega, hversion, rfl⟩)
  · exact .inr (.inr ⟨by omega, hversion, rfl⟩)

end AccountState

namespace AccountOK

variable {P : ℕ → Option (Finset α)} {elo qlo : ℕ} {W W' : Withdraws α} {a : α}
  {s : AccountState} {id : WithdrawId} {rest : List WithdrawId}

omit [LinearOrder α] in
/-- The front taken off the queue, by a reservation or a refusal: the rest
of the queue keeps its invariant. -/
theorem pop (h : AccountOK P elo qlo W a s) (hq : s.pending_reservations = id :: rest)
    (hW : ∀ i ∈ rest, W' i = W i) :
    AccountOK P elo qlo W' a { s with pending_reservations := rest } := by
  have hsub : ∀ i ∈ rest, i ∈ s.pending_reservations := fun i hi => hq ▸ List.mem_cons_of_mem _ hi
  refine AccountOK.congr ?_ hW
  exact
    { reserved := h.reserved
      covered := h.covered
      update_le := h.update_le
      nodup := (List.nodup_cons.mp (hq ▸ h.nodup)).2
      queue_sorted := (List.pairwise_cons.mp (hq ▸ h.queue_sorted)).2
      queue_ge := fun i hi => h.queue_ge i (hsub i hi)
      queue_ge_update := fun i hi => h.queue_ge_update i (hsub i hi)
      reserved_le_queue := fun e he i hi => h.reserved_le_queue e he i (hsub i hi)
      queue_pending := fun i hi => h.queue_pending i (hsub i hi)
      reserved_recorded := h.reserved_recorded
      queue_recorded := fun i hi => h.queue_recorded i (hsub i hi) }

omit [LinearOrder α] in
/-- The front reserves at its version, which is at or above `elo`: the
reservation joins the reserved funds, and the rest of the queue keeps its
invariant. -/
theorem reserve (h : AccountOK P elo qlo W a s) (hq : s.pending_reservations = id :: rest)
    (hW : ∀ i ∈ rest, W' i = W i) (helo : elo ≤ (W id).accumulator_version)
    {rf : ReservedFunds} {amount : ℕ}
    (hadd : s.reserved_funds.add_reserved_fund (W id).accumulator_version amount = .ok rf)
    (hcov : s.reserved_funds.total_reserved_funds_amount + amount ≤ s.last_updated_balance) :
    AccountOK P elo qlo W' a { s with reserved_funds := rf, pending_reservations := rest } := by
  have hid : id ∈ s.pending_reservations := hq ▸ List.mem_cons_self
  obtain ⟨rf', hadd', hok, htotal, hmem⟩ := h.reserved.add_reserved_fund amount
    (fun e he => h.reserved_le_queue e he id hid) helo
  obtain rfl : rf' = rf := Except.ok.inj (hadd'.symm.trans hadd)
  have hpop := h.pop hq (fun _ _ => rfl : ∀ i ∈ rest, W i = W i)
  have hfront : ∀ i ∈ rest, (W id).accumulator_version ≤ (W i).accumulator_version :=
    (List.pairwise_cons.mp (hq ▸ h.queue_sorted)).1
  refine AccountOK.congr ?_ hW
  exact
    { hpop with
      reserved := hok
      covered := by rw [htotal]; exact hcov
      reserved_le_queue := fun e he i hi => by
        rcases hmem e he with heq | he
        · exact heq ▸ hfront i hi
        · exact hpop.reserved_le_queue e he i hi
      reserved_recorded := fun e he => by
        rcases hmem e he with heq | he
        · exact heq ▸ h.queue_recorded id hid
        · exact h.reserved_recorded e he }

omit [LinearOrder α] in
/-- A front that waits at a version above `qlo` leaves every withdraw of
the queue above it. -/
theorem waits (h : AccountOK P elo qlo W a s) (hq : s.pending_reservations = id :: rest)
    (hlt : qlo < (W id).accumulator_version) : AccountOK P elo (qlo + 1) W a s :=
  { h with
    queue_ge := fun i hi => by
      rw [hq] at hi
      rcases List.mem_cons.mp hi with rfl | hi
      · exact hlt
      · exact lt_of_lt_of_le hlt ((List.pairwise_cons.mp (hq ▸ h.queue_sorted)).1 i hi) }

omit [LinearOrder α] in
theorem of_queue_nil (h : AccountOK P elo qlo W a s) (hq : s.pending_reservations = []) :
    AccountOK P elo (qlo + 1) W a s :=
  { h with queue_ge := fun i hi => by rw [hq] at hi; cases hi }

end AccountOK

-- ============================================================ the retry loop

namespace AccountState

variable {P : ℕ → Option (Finset α)} {T : α → Option AccountState} {E : WithdrawId → α → Prop}
  {a : α} {last : ℕ}

theorem try_reserve_front_nil {W : Withdraws α} {s : AccountState}
    (hq : s.pending_reservations = []) : s.try_reserve_front a last W = .ok (false, s, W) := by
  unfold try_reserve_front
  rw [hq]
  rfl

/-- One turn of an account whose front is not exempt there: the front is
decided and taken off the queue, or waits for a version after `last`. -/
theorem try_reserve_front_ok {W : Withdraws α} {s : AccountState} {id : WithdrawId}
    {rest : List WithdrawId} (hq : s.pending_reservations = id :: rest) (hE : ¬ E id a)
    (hacc : AccountOK P last last W a s) (htab : TableOK (Function.update T a (some s)) W E) :
    (∃ s1 W1, s.try_reserve_front a last W = .ok (true, s1, W1) ∧
      s1.pending_reservations = rest ∧ AccountOK P last last W1 a s1 ∧
      TableOK (Function.update T a (some s1)) W1 E ∧ Turn a W W1) ∨
    (s.try_reserve_front a last W = .ok (false, s, W) ∧ AccountOK P last (last + 1) W a s) := by
  have hid : id ∈ s.pending_reservations := hq ▸ List.mem_cons_self
  have hnot : id ∉ rest := (List.nodup_cons.mp (hq ▸ hacc.nodup)).1
  have hWrest : ∀ w : PendingWithdraw α, ∀ i ∈ rest, Function.update W id w i = W i :=
    fun _ i hi => Function.update_of_ne (fun h : i = id => hnot (h ▸ hi)) _ _
  have hTa : Function.update T a (some s) a = some s := Function.update_self ..
  have hpending := hacc.queue_pending id hid
  have hsent := htab.sent_of_eraseKey ((queued_of_some hTa).mpr hid) hpending
  obtain ⟨amount, hamount⟩ := exists_lookup_of_mem_keys hpending
  rcases try_reserve_front_cases hq (hacc.queue_ge_update id hid) (hacc.queue_ge id hid)
      hamount hsent with ⟨hcov, htry⟩ | ⟨-, -, htry⟩ | ⟨-, hne, htry⟩
  · -- the front reserves
    obtain ⟨rf, hadd, -⟩ := hacc.reserved.add_reserved_fund amount
      (fun e he => hacc.reserved_le_queue e he id hid) (hacc.queue_ge id hid)
    have htab1 := htab.reserve hTa hq hacc.nodup hpending
      (rfl : ({ s with reserved_funds := rf, pending_reservations := rest } :
        AccountState).pending_reservations = rest)
    rw [Function.update_idem] at htab1
    exact .inl ⟨_, _, htry rf hadd, rfl,
      hacc.reserve hq (hWrest ((W id).removed a)) (hacc.queue_ge id hid) hadd hcov, htab1,
      Turn.reserve hsent hpending⟩
  · -- the front is refused at its own version
    have htab1 := htab.notify hTa hq hacc.nodup hpending hE
      (rfl : ({ s with pending_reservations := rest } : AccountState).pending_reservations = rest)
    rw [Function.update_idem] at htab1
    exact .inl ⟨_, _, htry, rfl, hacc.pop hq (hWrest (W id).notify_insufficient_funds), htab1,
      Turn.notify hpending⟩
  · -- the front waits for a later version
    exact .inr ⟨htry, hacc.waits hq (lt_of_le_of_ne (hacc.queue_ge id hid) (Ne.symm hne))⟩

/-- `while self.try_reserve_front(last) {}` with fuel above the queue's
length, on an account no withdraw is exempt at: it ends without a panic,
and every withdraw left waiting is above `last`. -/
theorem reserveWhile_ok (hE : ∀ id, ¬ E id a) :
    ∀ {fuel : ℕ} {W : Withdraws α} {s : AccountState}, s.pending_reservations.length < fuel →
      AccountOK P last last W a s → TableOK (Function.update T a (some s)) W E →
      ∃ s' W', s.reserveWhile a last fuel W = .ok (s', W') ∧
        AccountOK P last (last + 1) W' a s' ∧ TableOK (Function.update T a (some s')) W' E ∧
        Turn a W W'
  | 0, _, _, hlen, _, _ => absurd hlen (Nat.not_lt_zero _)
  | fuel + 1, W, s, hlen, hacc, htab => by
    cases hq : s.pending_reservations with
    | nil =>
      refine ⟨s, W, ?_, hacc.of_queue_nil hq, htab, Turn.refl⟩
      rw [reserveWhile, try_reserve_front_nil hq, ok_bind]
      rfl
    | cons id rest =>
      rcases try_reserve_front_ok hq (hE id) hacc htab with
        ⟨s1, W1, htry, hq1, hacc1, htab1, hturn1⟩ | ⟨htry, hacc1⟩
      · -- the front was decided, and the loop goes on with the rest
        have hrest : s1.pending_reservations.length < fuel := by
          rw [hq1]
          rw [hq, List.length_cons] at hlen
          omega
        obtain ⟨s', W', hloop, hacc', htab', hturn⟩ := reserveWhile_ok hE hrest hacc1 htab1
        refine ⟨s', W', ?_, hacc', htab', hturn1.trans hturn⟩
        rw [reserveWhile, htry, ok_bind]
        exact hloop
      · -- the front waits, and the loop stops
        refine ⟨s, W, ?_, hacc1, htab, Turn.refl⟩
        rw [reserveWhile, htry, ok_bind]
        rfl

/-- A new withdraw of version `V`, exempt at `a` and pending there, tried
by an account at current version `c`, when every version recorded is at
most `V` and `a` is recorded at `V`: it joins the queue, is tried at once
if nothing waits before it, and is exempt at `a` no more. -/
theorem try_reserve_new_withdraw_ok {W : Withdraws α} {s : AccountState} {id : WithdrawId}
    {c V : ℕ} (hcV : c ≤ V) (hP : ∀ v, P v ≠ none → v ≤ V) (hacc : AccountOK P c (c + 1) W a s)
    (htab : TableOK (Function.update T a (some s)) W E) (hE : E id a)
    (hver : (W id).accumulator_version = V) (hpend : a ∈ keys (W id).pending)
    (hrec : a ∈ (P V).getD ∅) (hfresh : id ∉ s.pending_reservations) :
    ∃ r : Bool × AccountState × Withdraws α, s.try_reserve_new_withdraw a id c W = .ok r ∧
      AccountOK P c (c + 1) r.2.2 a r.2.1 ∧
      TableOK (Function.update T a (some r.2.1)) r.2.2
        (fun id' b => E id' b ∧ ¬ (id' = id ∧ b = a)) ∧
      Turn a W r.2.2 := by
  subst hver
  -- every version the account holds is recorded for it, so at most the new one
  have hqV : ∀ i ∈ s.pending_reservations, (W i).accumulator_version ≤ (W id).accumulator_version :=
    fun i hi => hP _ (ne_none_of_mem_getD (hacc.queue_recorded i hi))
  have hresV : ∀ e ∈ s.reserved_funds.reserved_funds, e.1 ≤ (W id).accumulator_version :=
    fun e he => hP _ (ne_none_of_mem_getD (hacc.reserved_recorded e he))
  have hLV : s.last_updated_version ≤ (W id).accumulator_version := by
    rcases hacc.update_le with hle | ⟨v, hv, hPv⟩
    · exact hle.trans hcV
    · exact hv.trans (hP v hPv)
  have htabq := htab.enqueue hE
    (rfl : ({ s with pending_reservations := s.pending_reservations ++ [id] } :
      AccountState).pending_reservations = s.pending_reservations ++ [id])
  unfold try_reserve_new_withdraw
  cases hlast : s.pending_reservations.getLast? with
  | some last =>
    -- something waits already: the withdraw joins the queue behind it
    have hmem : last ∈ s.pending_reservations := List.mem_of_getLast? hlast
    have hqlo : c + 1 ≤ (W id).accumulator_version :=
      (hacc.queue_ge last hmem).trans (hqV last hmem)
    refine ⟨(false, { s with pending_reservations := s.pending_reservations ++ [id] }, W), ?_,
      hacc.enqueue hfresh hqlo hLV hqV hresV hpend hrec, htabq, Turn.refl⟩
    simp only [require_eq_pure (hqV last hmem)]
    rfl
  | none =>
    -- nothing waits: the withdraw is tried at once, and decided unless it waits
    have hq : s.pending_reservations = [] := List.getLast?_eq_none_iff.mp hlast
    have haccq := (hacc.mono_queue (Nat.le_succ c)).enqueue hfresh hcV hLV hqV hresV hpend hrec
    have hqq : ({ s with pending_reservations := s.pending_reservations ++ [id] } :
        AccountState).pending_reservations = id :: [] := by
      rw [hq]
      rfl
    rcases try_reserve_front_ok hqq (fun hh => hh.2 ⟨rfl, rfl⟩) haccq htabq with
      ⟨s1, W1, htry, hq1, hacc1, htab1, hturn⟩ | ⟨htry, hacc1⟩
    · exact ⟨_, htry, hacc1.of_queue_nil hq1, htab1, hturn⟩
    · exact ⟨_, htry, hacc1, htabq, Turn.refl⟩

/-- The balance brought up to a settlement whose change is at least minus
`r`, with `r` at most the balance: nothing else changes. -/
theorem updateBalance_ok {s : AccountState} {settled : ℤ} {r : ℕ} (next : ℕ)
    (hle : r ≤ s.last_updated_balance) (hsettled : -(r : ℤ) ≤ settled) :
    ∃ s', s.updateBalance settled next = .ok s' ∧ s'.reserved_funds = s.reserved_funds ∧
      s'.pending_reservations = s.pending_reservations ∧
      s.last_updated_balance - r ≤ s'.last_updated_balance ∧
      (s'.last_updated_version = next ∨ s'.last_updated_version = s.last_updated_version) := by
  unfold updateBalance
  split_ifs
  · rw [require_eq_pure (by omega)]
    exact ⟨_, rfl, rfl, rfl, by dsimp only; omega, .inl rfl⟩
  · exact ⟨s, rfl, rfl, rfl, Nat.sub_le _ _, .inr rfl⟩

end AccountState

namespace AccountOK

variable {P : ℕ → Option (Finset α)} {W : Withdraws α} {a : α} {s s1 : AccountState}
  {rf : ReservedFunds} {c : ℕ}

omit [LinearOrder α] in
/-- A balance read at version `c` or below, or below a recorded version,
is one of these still once `c` is settled and its record dropped. -/
theorem update_le_drop {L : ℕ} (h : L ≤ c ∨ ∃ v, L ≤ v ∧ P v ≠ none) :
    L ≤ c + 1 ∨ ∃ v, L ≤ v ∧ Function.update P c none v ≠ none := by
  rcases h with hle | ⟨v, hv, hP⟩
  · exact .inl (hle.trans (Nat.le_succ c))
  · by_cases hvc : v = c
    · exact .inl (hvc ▸ hv.trans (Nat.le_succ v))
    · exact .inr ⟨v, hv, by rw [Function.update_of_ne hvc]; exact hP⟩

omit [LinearOrder α] in
/-- An account a settlement of `c` does not touch: nothing of it is at
`c`, and no withdraw of `c + 1` waits in its queue, so it keeps the
invariant one version up as it is. -/
theorem unaffected (h : AccountOK P c (c + 1) W a s) (hc : a ∉ (P c).getD ∅)
    (hc1 : a ∉ (P (c + 1)).getD ∅) :
    AccountOK (Function.update P c none) (c + 1) (c + 2) W a s := by
  have hres : ∀ e ∈ s.reserved_funds.reserved_funds, e.1 ≠ c := fun e he hec =>
    hc (hec ▸ h.reserved_recorded e he)
  have hqueue : ∀ i ∈ s.pending_reservations, (W i).accumulator_version ≠ c + 1 := fun i hi hic =>
    hc1 (hic ▸ h.queue_recorded i hi)
  exact
    { h with
      reserved := { h.reserved with
        ge := fun e he => lt_of_le_of_ne (h.reserved.ge e he) (Ne.symm (hres e he)) }
      update_le := update_le_drop h.update_le
      queue_ge := fun i hi => lt_of_le_of_ne (h.queue_ge i hi) (Ne.symm (hqueue i hi))
      reserved_recorded := fun e he => by
        rw [Function.update_of_ne (hres e he)]
        exact h.reserved_recorded e he
      queue_recorded := fun i hi => by
        rw [Function.update_of_ne (Nat.ne_of_gt (h.queue_ge i hi))]
        exact h.queue_recorded i hi }

omit [LinearOrder α] in
/-- Version `c` settled: with its record dropped, an account whose balance
took in the change and whose reservations at `c` were released keeps the
invariant one version up. -/
theorem settled (h : AccountOK P c (c + 1) W a s) (hok : rf.OK (c + 1))
    (htotal : rf.total_reserved_funds_amount + s.reserved_funds.reservedAt c =
      s.reserved_funds.total_reserved_funds_amount)
    (hsub : ∀ e ∈ rf.reserved_funds, e ∈ s.reserved_funds.reserved_funds)
    (hq : s1.pending_reservations = s.pending_reservations)
    (hbal : s.last_updated_balance - s.reserved_funds.reservedAt c ≤ s1.last_updated_balance)
    (hL : s1.last_updated_version = c + 1 ∨ s1.last_updated_version = s.last_updated_version) :
    AccountOK (Function.update P c none) (c + 1) (c + 1) W a { s1 with reserved_funds := rf } where
  reserved := hok
  covered := by
    have := h.covered
    dsimp only
    omega
  update_le := by
    rcases hL with hL | hL
    · exact .inl hL.le
    · exact hL ▸ update_le_drop h.update_le
  nodup := hq ▸ h.nodup
  queue_sorted := hq ▸ h.queue_sorted
  queue_ge id hid := h.queue_ge id (hq ▸ hid)
  queue_ge_update id hid := by
    rcases hL with hL | hL
    · exact hL ▸ h.queue_ge id (hq ▸ hid)
    · exact hL ▸ h.queue_ge_update id (hq ▸ hid)
  reserved_le_queue e he id hid := h.reserved_le_queue e (hsub e he) id (hq ▸ hid)
  queue_pending id hid := h.queue_pending id (hq ▸ hid)
  -- what is left is above `c`, whose record alone is dropped
  reserved_recorded e he := by
    rw [Function.update_of_ne (Nat.ne_of_gt (hok.ge e he))]
    exact h.reserved_recorded e (hsub e he)
  queue_recorded id hid := by
    rw [Function.update_of_ne (Nat.ne_of_gt (h.queue_ge id (hq ▸ hid)))]
    exact h.queue_recorded id (hq ▸ hid)

end AccountOK

namespace AccountState

variable {P : ℕ → Option (Finset α)} {T : α → Option AccountState} {E : WithdrawId → α → Prop}
  {a : α} {W : Withdraws α} {s : AccountState} {c : ℕ}

/-- `AccountState::settle_funds` for version `c` on an account that keeps
its invariant: it ends without a panic, with the record of `c` dropped,
and leaves only withdraws after `c + 1` waiting. -/
theorem settle_funds_ok {settled : ℤ} (hE : ∀ id, ¬ E id a) (hacc : AccountOK P c (c + 1) W a s)
    (htab : TableOK (Function.update T a (some s)) W E)
    (hsettled : -(s.reserved_funds.reservedAt c : ℤ) ≤ settled) :
    ∃ s' W', s.settle_funds a settled (c + 1) W = .ok (s', W') ∧
      AccountOK (Function.update P c none) (c + 1) (c + 2) W' a s' ∧
      TableOK (Function.update T a (some s')) W' E ∧ Turn a W W' := by
  have hle : s.reserved_funds.reservedAt c ≤ s.last_updated_balance :=
    (ReservedFunds.reservedAt_le hacc.reserved).trans hacc.covered
  obtain ⟨s1, hupd, hrf, hq, hbal, hL⟩ := updateBalance_ok (c + 1) hle hsettled
  obtain ⟨rf, hsf, hok, htotal, hsub⟩ := hacc.reserved.settle_fund
  have hacc2 := hacc.settled hok htotal hsub hq hbal hL
  have htab2 : TableOK (Function.update T a (some { s1 with reserved_funds := rf })) W E :=
    htab.congr_queue hq
  obtain ⟨s', W', hloop, hacc', htab', hturn⟩ :=
    reserveWhile_ok hE (Nat.lt_succ_self _) hacc2 htab2
  refine ⟨s', W', ?_, hacc', htab', hturn⟩
  rw [AccountState.settle_funds, hupd, ok_bind, hrf, hsf, ok_bind]
  exact hloop

end AccountState

end MysoCore.ExecutionScheduler.FundsWithdraw
