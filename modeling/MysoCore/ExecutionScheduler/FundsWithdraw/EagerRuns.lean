/-
The eager funds-withdraw scheduler over whole runs
(eager_scheduler/mod.rs, account_state.rs, pending_withdraw.rs).

# The invariant

`StateOK P c T W E` is what the scheduler keeps between calls, with `P`
the record of the accounts of each scheduled version, `c` the current
version, `T` the tracked accounts, `W` the withdraws and `E` the pairs
of a withdraw and an account it has not reached yet: every tracked
account keeps `AccountOK P c (c + 1)`, the withdraws keep `TableOK`, and
every withdraw taken up sits at the place of its own version, which is
settled or recorded. `EagerFundsWithdrawScheduler.Inv` is it at the
scheduler's own record, version and accounts, with nothing exempt.

# A batch

A batch at version `V` is tried against the record it will leave,
`P` with `V` added: since `V` is above every version recorded, each
account holds nothing above `V`, and a new withdraw joins the back of
its queues in order (`reserveAccount_ok`). A new withdraw's place is
not taken: nothing at version `V` is in use before the batch, and the
batch takes its places one by one (`scheduleWithdraws_ok`). A batch that
is not skipped leaves every withdraw with a reservation in use
(`schedule_withdraws_ok`).

# A settlement

Settling version `c` retries every account the code names: those with
reservations at `c` or withdraws at `c + 1` are recorded at one of them,
and every other account keeps its invariant one version up as it is
(`AccountOK.unaffected`). Each account retried is settled by
`AccountState.settle_funds_ok`; `Settling` is what holds while some are
left (`settleAccounts_ok`).

# Runs

A reachable scheduler is one reached from `new` by calls that keep the
preconditions of the caller: one batch a version, in version order, and
settlements one version at a time whose changes take out of an account
no more than it reserved at the version settled (`Admissible`). Every
reachable scheduler keeps the invariant, and no admissible call on it
panics (`Reachable.inv`, `Inv.apply`).
-/
import MysoCore.ExecutionScheduler.FundsWithdraw.EagerAccount

namespace MysoCore.ExecutionScheduler.FundsWithdraw

open SortedMap ExceptFold

variable {δ α : Type} [LinearOrder α]

-- ============================================================ turns

/-- What any sequence of turns, of any accounts, keeps of the withdraws. -/
structure Turns (W W' : Withdraws α) : Prop where
  version_eq : ∀ id, (W' id).accumulator_version = (W id).accumulator_version
  sent_keep : ∀ id status, (W id).sent = some status → (W' id).sent = some status
  in_use : ∀ id, (W' id).InUse ↔ (W id).InUse

namespace Turns

variable {W W' W'' : Withdraws α}

omit [LinearOrder α] in
theorem refl : Turns W W := ⟨fun _ => rfl, fun _ _ h => h, fun _ => Iff.rfl⟩

omit [LinearOrder α] in
theorem trans (h : Turns W W') (h' : Turns W' W'') : Turns W W'' :=
  ⟨fun id => (h'.version_eq id).trans (h.version_eq id),
    fun id status hs => h'.sent_keep id status (h.sent_keep id status hs),
    fun id => (h'.in_use id).trans (h.in_use id)⟩

end Turns

omit [LinearOrder α] in
theorem Turn.turns {a : α} {W W' : Withdraws α} (h : Turn a W W') : Turns W W' :=
  ⟨h.version_eq, h.sent_keep, h.in_use⟩

-- ============================================================ the invariant

/-- What the scheduler keeps between calls, at record `P` and version `c`. -/
structure StateOK (P : ℕ → Option (Finset α)) (c : ℕ) (T : α → Option AccountState)
    (W : Withdraws α) (E : WithdrawId → α → Prop) : Prop where
  accounts : ∀ a s, T a = some s → AccountOK P c (c + 1) W a s
  table : TableOK T W E
  versions : ∀ id, (W id).InUse → (W id).accumulator_version = id.1 ∧ (id.1 < c ∨ P id.1 ≠ none)

namespace StateOK

variable {P : ℕ → Option (Finset α)} {c : ℕ} {T : α → Option AccountState} {W W' : Withdraws α}
  {E E' : WithdrawId → α → Prop} {a : α} {s : AccountState}

omit [LinearOrder α] in
theorem versions_of_turns (h : ∀ id, (W id).InUse → (W id).accumulator_version = id.1 ∧
      (id.1 < c ∨ P id.1 ≠ none)) (hT : Turns W W') :
    ∀ id, (W' id).InUse → (W' id).accumulator_version = id.1 ∧ (id.1 < c ∨ P id.1 ≠ none) :=
  fun id hid => hT.version_eq id ▸ h id ((hT.in_use id).mp hid)

/-- A turn of account `a` that keeps its invariant keeps the scheduler's. -/
theorem turn (h : StateOK P c T W E) (hacc : AccountOK P c (c + 1) W' a s)
    (htab : TableOK (Function.update T a (some s)) W' E') (hturn : Turn a W W') :
    StateOK P c (Function.update T a (some s)) W' E' where
  accounts b s' hb := by
    by_cases hba : b = a
    · subst hba
      rw [Function.update_self, Option.some.injEq] at hb
      exact hb ▸ hacc
    · rw [Function.update_of_ne hba] at hb
      exact (h.accounts b s' hb).turn hturn hba
  table := htab
  versions := versions_of_turns h.versions hturn.turns

omit [LinearOrder α] in
/-- Recording a version above every one in use keeps the invariant. -/
theorem extend {P' : ℕ → Option (Finset α)} (h : StateOK P c T W E)
    (hP : ∀ v, P v ≠ none → P' v = P v) : StateOK P' c T W E where
  accounts a s hs := (h.accounts a s hs).extend hP
  table := h.table
  versions id hid := (h.versions id hid).imp_right fun hv =>
    hv.imp_right fun hPv => by rw [hP _ hPv]; exact hPv

omit [LinearOrder α] in
/-- A withdraw in use waits in no queue but at the accounts it is
pending at. -/
theorem not_queued (h : StateOK P c T W E) {id : WithdrawId} (hid : ¬ (W id).InUse) (b : α) :
    ¬ Queued T b id := by
  rintro ⟨s, hs, hmem⟩
  exact hid (PendingWithdraw.inUse_of_mem ((h.accounts b s hs).queue_pending id hmem))

end StateOK

namespace EagerFundsWithdrawScheduler

/-- The invariant of the scheduler, at its own record and version, with
no withdraw left to reach an account. -/
def Inv (s : EagerFundsWithdrawScheduler α) : Prop :=
  StateOK s.inner_state.pending_settlements s.inner_state.accumulator_version
    s.inner_state.tracked_accounts s.withdraws fun _ _ => False

omit [LinearOrder α] in
theorem Inv.new (v : ℕ) : (EagerFundsWithdrawScheduler.new v : EagerFundsWithdrawScheduler α).Inv where
  accounts _ _ h := by cases h
  table :=
    { sufficient := fun _ h => by cases h
      insufficient := fun _ h => by cases h
      not_skipped := fun _ h => by cases h
      undecided := fun _ _ _ h => by cases h }
  versions _ h := by
    rcases h with h | h
    · exact absurd rfl h
    · exact absurd rfl h

-- ============================================================ a batch

section batch

variable {P : ℕ → Option (Finset α)} {c V : ℕ} {init : α → Option (ℕ × ℕ)} {id : WithdrawId}

/-- The account state a withdraw is tried against: the tracked one, or a
new one from a balance read at or before `V`. -/
theorem entryOrInsert_ok {E : WithdrawId → α → Prop} {sch : EagerFundsWithdrawScheduler α} {a : α}
    (hok : StateOK P c sch.inner_state.tracked_accounts sch.withdraws E)
    (hPV : P V ≠ none) (hfresh : ¬ Queued sch.inner_state.tracked_accounts a id)
    (hinit : sch.inner_state.tracked_accounts a = none → ∃ bv, init a = some bv ∧ bv.2 ≤ V) :
    ∃ entry, entryOrInsert init sch a = .ok entry ∧ AccountOK P c (c + 1) sch.withdraws a entry ∧
      TableOK (Function.update sch.inner_state.tracked_accounts a (some entry)) sch.withdraws E ∧
      id ∉ entry.pending_reservations := by
  unfold entryOrInsert
  cases hT : sch.inner_state.tracked_accounts a with
  | some entry =>
    refine ⟨entry, rfl, hok.accounts a entry hT, ?_, fun hmem => hfresh ⟨entry, hT, hmem⟩⟩
    rw [← hT, Function.update_eq_self]
    exact hok.table
  | none =>
    obtain ⟨⟨balance, version⟩, hbv, hle⟩ := hinit hT
    rw [hbv]
    exact ⟨_, rfl, AccountOK.new (.inr ⟨V, hle, hPV⟩), hok.table.track hT rfl, List.not_mem_nil⟩

/-- One account of a new withdraw `id` of version `V`, exempt there and
pending there, while every version recorded is at most `V`: the account
tries it, and it is exempt there no more. -/
theorem reserveAccount_ok {sch : EagerFundsWithdrawScheduler α} {a : α} {l : List α}
    (hok : StateOK P sch.inner_state.accumulator_version sch.inner_state.tracked_accounts
      sch.withdraws fun id' b => id' = id ∧ b ∈ a :: l)
    (hnot : a ∉ l) (hcV : sch.inner_state.accumulator_version ≤ V) (hP : ∀ v, P v ≠ none → v ≤ V)
    (hver : (sch.withdraws id).accumulator_version = V) (hpend : a ∈ keys (sch.withdraws id).pending)
    (hrec : a ∈ (P V).getD ∅) (hfresh : ¬ Queued sch.inner_state.tracked_accounts a id)
    (hinit : sch.inner_state.tracked_accounts a = none → ∃ bv, init a = some bv ∧ bv.2 ≤ V) :
    ∃ sch', reserveAccount init id sch.inner_state.accumulator_version sch a = .ok sch' ∧
      StateOK P sch.inner_state.accumulator_version sch'.inner_state.tracked_accounts
        sch'.withdraws (fun id' b => id' = id ∧ b ∈ l) ∧
      sch'.inner_state.pending_settlements = sch.inner_state.pending_settlements ∧
      sch'.inner_state.accumulator_version = sch.inner_state.accumulator_version ∧
      Turn a sch.withdraws sch'.withdraws ∧
      (∀ b, b ≠ a → sch'.inner_state.tracked_accounts b = sch.inner_state.tracked_accounts b) ∧
      sch'.inner_state.tracked_accounts a ≠ none := by
  obtain ⟨entry, hentry, hacc, htab, hid⟩ :=
    entryOrInsert_ok hok (ne_none_of_mem_getD hrec) hfresh hinit
  obtain ⟨r, htry, hacc', htab', hturn⟩ := AccountState.try_reserve_new_withdraw_ok hcV hP hacc htab
    ⟨rfl, List.mem_cons_self⟩ hver hpend hrec hid
  -- the exemption left is that of the accounts after `a`
  have hE : ∀ id' b, ((id' = id ∧ b ∈ a :: l) ∧ ¬ (id' = id ∧ b = a)) ↔ (id' = id ∧ b ∈ l) := by
    intro id' b
    constructor
    · rintro ⟨⟨rfl, hb⟩, hne⟩
      rcases List.mem_cons.mp hb with rfl | hb
      · exact absurd ⟨rfl, rfl⟩ hne
      · exact ⟨rfl, hb⟩
    · rintro ⟨rfl, hb⟩
      exact ⟨⟨rfl, List.mem_cons_of_mem a hb⟩, fun hh => hnot (hh.2 ▸ hb)⟩
  refine ⟨⟨{ sch.inner_state with
      tracked_accounts := Function.update sch.inner_state.tracked_accounts a (some r.2.1) }, r.2.2⟩,
    ?_, hok.turn hacc' (htab'.congr_exempt fun id' b => (hE id' b).symm) hturn, rfl, rfl, hturn,
    fun b hba => Function.update_of_ne hba _ _, by simp⟩
  rw [reserveAccount, hentry, ok_bind, htry, ok_bind]
  rfl

/-- The accounts of a new withdraw `id`, each once, in order: each tries
it, and no pair is left exempt. -/
theorem reserveAccounts_ok :
    ∀ {l : List α} {sch : EagerFundsWithdrawScheduler α}, l.Nodup →
      StateOK P sch.inner_state.accumulator_version sch.inner_state.tracked_accounts sch.withdraws
        (fun id' b => id' = id ∧ b ∈ l) →
      sch.inner_state.accumulator_version ≤ V → (∀ v, P v ≠ none → v ≤ V) →
      (sch.withdraws id).accumulator_version = V → (∀ a ∈ l, a ∈ keys (sch.withdraws id).pending) →
      (∀ a ∈ l, a ∈ (P V).getD ∅) → (∀ a ∈ l, ¬ Queued sch.inner_state.tracked_accounts a id) →
      (∀ a ∈ l, sch.inner_state.tracked_accounts a = none → ∃ bv, init a = some bv ∧ bv.2 ≤ V) →
      ∃ sch', l.foldlM (reserveAccount init id sch.inner_state.accumulator_version) sch = .ok sch' ∧
        StateOK P sch.inner_state.accumulator_version sch'.inner_state.tracked_accounts
          sch'.withdraws (fun _ _ => False) ∧
        sch'.inner_state.pending_settlements = sch.inner_state.pending_settlements ∧
        sch'.inner_state.accumulator_version = sch.inner_state.accumulator_version ∧
        Turns sch.withdraws sch'.withdraws ∧
        ∀ b, sch.inner_state.tracked_accounts b ≠ none → sch'.inner_state.tracked_accounts b ≠ none
  | [], sch, _, hok, _, _, _, _, _, _, _ =>
    ⟨sch, rfl, hok.table.congr_exempt (by simp) |> fun htab => { hok with table := htab }, rfl, rfl,
      Turns.refl, fun _ h => h⟩
  | a :: l, sch, hnodup, hok, hcV, hP, hver, hpend, hrec, hfresh, hinit => by
    obtain ⟨hnot, hnodup'⟩ := List.nodup_cons.mp hnodup
    obtain ⟨sch1, hstep, hok1, hPS1, hcur1, hturn, hT1, hTa⟩ := reserveAccount_ok hok hnot hcV hP hver
      (hpend a List.mem_cons_self) (hrec a List.mem_cons_self) (hfresh a List.mem_cons_self)
      (hinit a List.mem_cons_self)
    -- the accounts after `a` are as they were, and the withdraw still pending there
    have hne : ∀ b ∈ l, b ≠ a := fun b hb hba => hnot (hba ▸ hb)
    rw [← hcur1] at hok1 hcV
    obtain ⟨sch', hfold, hok', hPS', hcur', hturns, hT'⟩ := reserveAccounts_ok hnodup' hok1 hcV hP
      (by rw [hturn.version_eq]; exact hver)
      (fun b hb => hturn.pending_keep id b (hne b hb) (hpend b (List.mem_cons_of_mem a hb)))
      (fun b hb => hrec b (List.mem_cons_of_mem a hb))
      (fun b hb => by
        unfold Queued
        rw [hT1 b (hne b hb)]
        exact hfresh b (List.mem_cons_of_mem a hb))
      (fun b hb => by
        rw [hT1 b (hne b hb)]
        exact hinit b (List.mem_cons_of_mem a hb))
    refine ⟨sch', ?_, hcur1 ▸ hok', hPS'.trans hPS1, hcur'.trans hcur1, hturn.turns.trans hturns,
      fun b hb => hT' b ?_⟩
    · rw [List.foldlM_cons, hstep, ok_bind, ← hcur1]
      exact hfold
    · by_cases hba : b = a
      · exact hba ▸ hTa
      · rwa [hT1 b hba]

/-- One withdraw of a batch at version `V`, at a place not in use: it
takes the place, and each of its accounts tries it. -/
theorem scheduleWithdraw_ok {acc : EagerFundsWithdrawScheduler α × List (δ × ScheduleResult)}
    {w : TxFundsWithdraw δ α} {i : ℕ}
    (hok : StateOK P acc.1.inner_state.accumulator_version acc.1.inner_state.tracked_accounts
      acc.1.withdraws fun _ _ => False)
    (hcV : acc.1.inner_state.accumulator_version ≤ V) (hP : ∀ v, P v ≠ none → v ≤ V)
    (hPV : P V ≠ none) (hrec : ∀ a ∈ keys w.reservations, a ∈ (P V).getD ∅)
    (hinit : ∀ a ∈ keys w.reservations, acc.1.inner_state.tracked_accounts a = none →
      ∃ bv, init a = some bv ∧ bv.2 ≤ V)
    (hfresh : ¬ (acc.1.withdraws (V, i)).InUse) :
    ∃ acc', scheduleWithdraw init V acc.1.inner_state.accumulator_version acc (w, i) = .ok acc' ∧
      StateOK P acc.1.inner_state.accumulator_version acc'.1.inner_state.tracked_accounts
        acc'.1.withdraws (fun _ _ => False) ∧
      acc'.1.inner_state.pending_settlements = acc.1.inner_state.pending_settlements ∧
      acc'.1.inner_state.accumulator_version = acc.1.inner_state.accumulator_version ∧
      (∀ id, id ≠ (V, i) → ((acc'.1.withdraws id).InUse ↔ (acc.1.withdraws id).InUse)) ∧
      (∀ id status, (acc.1.withdraws id).sent = some status →
        (acc'.1.withdraws id).sent = some status) ∧
      (∀ id, (acc.1.withdraws id).InUse → (acc'.1.withdraws id).InUse) ∧
      (w.reservations ≠ [] → (acc'.1.withdraws (V, i)).InUse) ∧
      ∀ b, acc.1.inner_state.tracked_accounts b ≠ none →
        acc'.1.inner_state.tracked_accounts b ≠ none := by
  let sch1 : EagerFundsWithdrawScheduler α :=
    { acc.1 with withdraws := Function.update acc.1.withdraws (V, i) (PendingWithdraw.new V w) }
  have hW1 : ∀ id, id ≠ (V, i) → sch1.withdraws id = acc.1.withdraws id :=
    fun _ h => Function.update_of_ne h _ _
  have hnew : sch1.withdraws (V, i) = PendingWithdraw.new V w := Function.update_self ..
  -- no queue holds the place, so no account's invariant reads it
  have hnq := hok.not_queued hfresh
  have hok1 : StateOK P sch1.inner_state.accumulator_version sch1.inner_state.tracked_accounts
      sch1.withdraws fun id' b => id' = (V, i) ∧ b ∈ keys w.reservations :=
    { accounts := fun a s hs => (hok.accounts a s hs).congr fun id hid =>
        hW1 id fun h => hnq a ⟨s, hs, h ▸ hid⟩
      table := hok.table.update (fun _ _ _ => Iff.rfl) (fun id' b hne => by simp [hne])
        (PendingWithdraw.new V w) (fun h => by cases h) (fun h => by cases h)
        (by simp [PendingWithdraw.new]) fun _ b hb => .inl ⟨rfl, hb⟩
      versions := fun id hid => by
        by_cases h : id = (V, i)
        · subst h
          rw [hnew]
          exact ⟨rfl, .inr hPV⟩
        · rw [hW1 id h] at hid ⊢
          exact hok.versions id hid }
  obtain ⟨sch', hfold, hok', hPS', hcur', hturns, hT'⟩ := reserveAccounts_ok w.sorted.nodup_keys hok1
    hcV hP (by rw [hnew]; rfl) (fun a ha => by rw [hnew]; exact ha) hrec (fun a _ => hnq a) hinit
  have heq : scheduleWithdraw init V acc.1.inner_state.accumulator_version acc (w, i) =
      (keys w.reservations).foldlM (reserveAccount init (V, i) acc.1.inner_state.accumulator_version)
        sch1 >>= fun s => pure (s, acc.2 ++ [(w.tx_digest, s.withdrawResult (V, i))]) := rfl
  refine ⟨(sch', acc.2 ++ [(w.tx_digest, sch'.withdrawResult (V, i))]), ?_, hok', hPS', hcur',
    fun id hid => (hturns.in_use id).trans (by rw [hW1 id hid]), fun id status hs => ?_,
    fun id hid => ?_, fun hne => (hturns.in_use _).mpr (by rw [hnew]; exact .inl hne), hT'⟩
  · rw [heq, hfold, ok_bind]
    rfl
  · -- the place was not in use, so nothing had been sent through it
    have hid : id ≠ (V, i) := by
      rintro rfl
      exact hfresh (.inr (by rw [hs]; simp))
    exact hturns.sent_keep id status (by rw [hW1 id hid]; exact hs)
  · have hne : id ≠ (V, i) := by
      rintro rfl
      exact hfresh hid
    exact (hturns.in_use id).mpr (by rw [hW1 id hne]; exact hid)

/-- The withdraws of a batch at version `V`, at distinct places none of
which is in use. -/
theorem scheduleWithdraws_ok {c : ℕ} (hcV : c ≤ V) (hP : ∀ v, P v ≠ none → v ≤ V)
    (hPV : P V ≠ none) :
    ∀ {L : List (TxFundsWithdraw δ α × ℕ)} (acc : EagerFundsWithdrawScheduler α × List (δ × ScheduleResult)),
      (L.map Prod.snd).Nodup → acc.1.inner_state.accumulator_version = c →
      StateOK P c acc.1.inner_state.tracked_accounts acc.1.withdraws (fun _ _ => False) →
      (∀ p ∈ L, ∀ a ∈ keys p.1.reservations, a ∈ (P V).getD ∅) →
      (∀ p ∈ L, ∀ a ∈ keys p.1.reservations, acc.1.inner_state.tracked_accounts a = none →
        ∃ bv, init a = some bv ∧ bv.2 ≤ V) →
      (∀ p ∈ L, ¬ (acc.1.withdraws (V, p.2)).InUse) →
      ∃ acc', L.foldlM (scheduleWithdraw init V c) acc = .ok acc' ∧
        StateOK P c acc'.1.inner_state.tracked_accounts acc'.1.withdraws (fun _ _ => False) ∧
        acc'.1.inner_state.pending_settlements = acc.1.inner_state.pending_settlements ∧
        acc'.1.inner_state.accumulator_version = c ∧
        (∀ id status, (acc.1.withdraws id).sent = some status →
          (acc'.1.withdraws id).sent = some status) ∧
        (∀ id, (acc.1.withdraws id).InUse → (acc'.1.withdraws id).InUse) ∧
        ∀ p ∈ L, p.1.reservations ≠ [] → (acc'.1.withdraws (V, p.2)).InUse
  | [], acc, _, hc, hok, _, _, _ =>
    ⟨acc, rfl, hok, rfl, hc, fun _ _ h => h, fun _ h => h, fun _ hp => by cases hp⟩
  | (w, i) :: L, acc, hnodup, hc, hok, hrec, hinit, hfresh => by
    subst hc
    obtain ⟨hnot, hnodup'⟩ := List.nodup_cons.mp hnodup
    obtain ⟨acc1, hstep, hok1, hPS1, hcur1, hiff, hsent1, huse1, hnew1, hT1⟩ :=
      scheduleWithdraw_ok hok hcV hP hPV (hrec (w, i) List.mem_cons_self)
        (hinit (w, i) List.mem_cons_self) (hfresh (w, i) List.mem_cons_self)
    -- the places after this one are distinct from it, so still not in use
    have hrest : ∀ p ∈ L, (V, p.2) ≠ (V, i) := fun p hp h =>
      hnot (List.mem_map.mpr ⟨p, hp, (Prod.mk.inj h).2⟩)
    obtain ⟨acc', hfold, hok', hPS', hcur', hsent', huse', hnew'⟩ :=
      scheduleWithdraws_ok hcV hP hPV acc1 hnodup' hcur1 (hcur1 ▸ hok1)
        (fun p hp => hrec p (List.mem_cons_of_mem _ hp))
        (fun p hp a ha hnone => hinit p (List.mem_cons_of_mem _ hp) a ha
          (by_contra fun h => hT1 a h hnone))
        (fun p hp => by
          rw [hiff _ (hrest p hp)]
          exact hfresh p (List.mem_cons_of_mem _ hp))
    refine ⟨acc', ?_, hok', hPS'.trans hPS1, hcur', fun id status hs => hsent' id status
      (hsent1 id status hs), fun id hid => huse' id (huse1 id hid), fun p hp hne => ?_⟩
    · rw [List.foldlM_cons, hstep, ok_bind]
      exact hfold
    · rcases List.mem_cons.mp hp with rfl | hp
      · exact huse' _ (hnew1 hne)
      · exact hnew' p hp hne

end batch

section batches

variable {s : EagerFundsWithdrawScheduler α} {fr : MockFundsRead α} {r : WithdrawReservations δ α}

/-- A batch at version `V` at or above the current one and above every
version recorded, whose new accounts were read at or before `V`: it
schedules every withdraw and records its accounts at `V`. -/
theorem scheduleBatch_ok {untracked : List α} (hinv : s.Inv)
    (hcV : s.inner_state.accumulator_version ≤ r.accumulator_version)
    (hPV : ∀ k, s.inner_state.pending_settlements k ≠ none → k < r.accumulator_version)
    (hinit : ∀ a ∈ r.all_accounts, s.inner_state.tracked_accounts a = none →
      ∃ bv, initBalances fr untracked a = some bv ∧ bv.2 ≤ r.accumulator_version) :
    ∃ s' results, s.scheduleBatch fr r untracked = .ok (s', results) ∧ s'.Inv ∧
      s'.inner_state.accumulator_version = s.inner_state.accumulator_version ∧
      (∀ id status, (s.withdraws id).sent = some status → (s'.withdraws id).sent = some status) ∧
      (∀ id, (s.withdraws id).InUse → (s'.withdraws id).InUse) ∧
      ∀ i w, r.withdraws[i]? = some w → w.reservations ≠ [] →
        (s'.withdraws (r.accumulator_version, i)).InUse := by
  -- the batch is tried against the record it leaves
  let P' := Function.update s.inner_state.pending_settlements r.accumulator_version
    (some r.all_accounts)
  have hext : ∀ v, s.inner_state.pending_settlements v ≠ none →
      P' v = s.inner_state.pending_settlements v :=
    fun v hv => Function.update_of_ne (Nat.ne_of_lt (hPV v hv)) _ _
  have hP : ∀ v, P' v ≠ none → v ≤ r.accumulator_version := by
    intro v hv
    by_cases hvV : v = r.accumulator_version
    · exact hvV.le
    · rw [show P' v = s.inner_state.pending_settlements v from Function.update_of_ne hvV _ _] at hv
      exact (hPV v hv).le
  have hPV' : P' r.accumulator_version ≠ none := by simp [P']
  have hnone : s.inner_state.pending_settlements r.accumulator_version = none :=
    by_contra fun h => lt_irrefl _ (hPV _ h)
  -- nothing at version `V` is in use before the batch
  have hfresh : ∀ p ∈ r.withdraws.zipIdx, ¬ (s.withdraws (r.accumulator_version, p.2)).InUse := by
    intro p _ huse
    rcases (hinv.versions _ huse).2 with hlt | hrec
    · exact absurd hcV (not_le.mpr hlt)
    · exact hrec hnone
  obtain ⟨acc', hfold, hok', hPS', hcur', hsent, huse, hnew⟩ := scheduleWithdraws_ok
    (L := r.withdraws.zipIdx) hcV hP hPV' (s, []) (by rw [List.zipIdx_map_snd]; exact List.nodup_range')
    rfl (hinv.extend hext)
    (fun p hp a ha => by
      simp only [P', Function.update_self, Option.getD_some]
      exact WithdrawReservations.mem_all_accounts.mpr ⟨p.1, List.fst_mem_of_mem_zipIdx hp, ha⟩)
    (fun p hp a ha => hinit a
      (WithdrawReservations.mem_all_accounts.mpr ⟨p.1, List.fst_mem_of_mem_zipIdx hp, ha⟩))
    hfresh
  refine ⟨⟨{ acc'.1.inner_state with
      pending_settlements := Function.update acc'.1.inner_state.pending_settlements
        r.accumulator_version (some r.all_accounts) }, acc'.1.withdraws⟩, acc'.2, ?_, ?_, hcur',
    hsent, huse, fun i w hw hne => hnew (w, i) (List.mem_zipIdx_iff_getElem?.mpr hw) hne⟩
  · unfold scheduleBatch
    rw [hfold, ok_bind, hPS', require_eq_pure hnone]
    rfl
  · unfold Inv
    dsimp only
    rw [hPS', hcur']
    exact hok'

/-- `schedule_withdraws` on a scheduler keeping the invariant, at a
version below the current one or above every one recorded: it skips the
batch, or schedules every withdraw of it. -/
theorem schedule_withdraws_ok (hinv : s.Inv)
    (hadm : r.accumulator_version < s.inner_state.accumulator_version ∨
      ∀ k, s.inner_state.pending_settlements k ≠ none → k < r.accumulator_version) :
    ∃ s' results, s.schedule_withdraws fr r = .ok (s', results) ∧ s'.Inv ∧
      s'.inner_state.accumulator_version = s.inner_state.accumulator_version ∧
      (∀ id status, (s.withdraws id).sent = some status → (s'.withdraws id).sent = some status) ∧
      (∀ id, (s.withdraws id).InUse → (s'.withdraws id).InUse) ∧
      ∀ i w, r.withdraws[i]? = some w → w.reservations ≠ [] →
        results[i]? = some (w.tx_digest, .ScheduleResult .SkipSchedule) ∨
          (s'.withdraws (r.accumulator_version, i)).InUse := by
  have hskip : ∀ (i : ℕ) (w : TxFundsWithdraw δ α), r.withdraws[i]? = some w →
      r.notify_skip_schedule[i]? = some (w.tx_digest, .ScheduleResult .SkipSchedule) := by
    intro i w hw
    simp [WithdrawReservations.notify_skip_schedule, hw]
  unfold schedule_withdraws
  dsimp only
  split_ifs with hlt hany
  · exact ⟨s, _, rfl, hinv, rfl, fun _ _ h => h, fun _ h => h, fun i w hw _ => .inl (hskip i w hw)⟩
  · exact ⟨s, _, rfl, hinv, rfl, fun _ _ h => h, fun _ h => h, fun i w hw _ => .inl (hskip i w hw)⟩
  · -- every account not tracked yet was read at or before the batch's version
    have hinit : ∀ a ∈ r.all_accounts, s.inner_state.tracked_accounts a = none →
        ∃ bv, initBalances fr ((SortedSet.ascending r.all_accounts).filter
          fun a => (s.inner_state.tracked_accounts a).isNone) a = some bv ∧
          bv.2 ≤ r.accumulator_version := by
      intro a ha hnone
      have hmem : a ∈ (SortedSet.ascending r.all_accounts).filter
          fun a => (s.inner_state.tracked_accounts a).isNone := by
        simp [ha, hnone]
      refine ⟨_, if_pos hmem, ?_⟩
      simp only [List.any_eq_true, decide_eq_true_eq, not_exists, not_and, not_lt] at hany
      exact hany a hmem
    obtain ⟨s', results, hbatch, hinv', hcur, hsent, huse, hnew⟩ :=
      scheduleBatch_ok hinv (not_lt.mp hlt) (hadm.resolve_left hlt) hinit
    exact ⟨s', results, hbatch, hinv', hcur, hsent, huse, fun i w hw hne => .inr (hnew i w hw hne)⟩

end batches

-- ============================================================ a settlement

/-- What holds while a settlement of version `c` retries the accounts
`l` still to do, `T0` the tracked accounts before it: an account to do
is as it was, and keeps its invariant at `c`; every other one keeps it
one version up. -/
structure Settling (P : ℕ → Option (Finset α)) (c : ℕ) (T0 : α → Option AccountState)
    (l : List α) (T : α → Option AccountState) (W : Withdraws α) : Prop where
  todo : ∀ a s, T a = some s → a ∈ l → T0 a = some s ∧ AccountOK P c (c + 1) W a s
  done : ∀ a s, T a = some s → a ∉ l →
    AccountOK (Function.update P c none) (c + 1) (c + 2) W a s
  table : TableOK T W fun _ _ => False
  versions : ∀ id, (W id).InUse → (W id).accumulator_version = id.1 ∧
    (id.1 < c + 1 ∨ Function.update P c none id.1 ≠ none)

section settlement

variable {P : ℕ → Option (Finset α)} {c : ℕ} {T0 : α → Option AccountState}
  {st : FundsSettlement α}

omit [LinearOrder α] in
/-- Before the settlement: every account it does not retry holds nothing
at `c` and no withdraw of `c + 1`. -/
theorem StateOK.settling {T : α → Option AccountState} {W : Withdraws α} {l : List α}
    (h : StateOK P c T W fun _ _ => False)
    (hl : ∀ a, a ∈ (P c).getD ∅ ∨ a ∈ (P (c + 1)).getD ∅ → a ∈ l) : Settling P c T l T W where
  todo a s hs _ := ⟨hs, h.accounts a s hs⟩
  done a s hs hal := (h.accounts a s hs).unaffected (fun h' => hal (hl a (.inl h')))
    (fun h' => hal (hl a (.inr h')))
  table := h.table
  versions id hid := (h.versions id hid).imp_right fun hv => by
    by_cases hc : id.1 = c
    · exact .inl (hc ▸ Nat.lt_succ_self _)
    · rcases hv with hv | hv
      · exact .inl (Nat.lt_succ_of_lt hv)
      · exact .inr (by rw [Function.update_of_ne hc]; exact hv)

omit [LinearOrder α] in
/-- After the settlement: the invariant one version up, with the record
of `c` dropped. -/
theorem Settling.finish {T : α → Option AccountState} {W : Withdraws α}
    (h : Settling P c T0 [] T W) : StateOK (Function.update P c none) (c + 1) T W fun _ _ => False where
  accounts a s hs := h.done a s hs List.not_mem_nil
  table := h.table
  versions := h.versions

/-- One account of a settlement of `c` whose change takes out no more
than it reserved at `c`: settled if it is tracked. -/
theorem settleAccount_ok {sch : EagerFundsWithdrawScheduler α} {a : α} {l : List α}
    (h : Settling P c T0 (a :: l) sch.inner_state.tracked_accounts sch.withdraws) (hnot : a ∉ l)
    (hnext : st.next_accumulator_version = c + 1)
    (hchange : ∀ s, T0 a = some s →
      -(s.reserved_funds.reservedAt c : ℤ) ≤ (lookup a st.funds_changes).getD 0) :
    ∃ sch', settleAccount st sch a = .ok sch' ∧
      Settling P c T0 l sch'.inner_state.tracked_accounts sch'.withdraws ∧
      sch'.inner_state.pending_settlements = sch.inner_state.pending_settlements ∧
      sch'.inner_state.accumulator_version = sch.inner_state.accumulator_version ∧
      Turns sch.withdraws sch'.withdraws := by
  unfold settleAccount
  cases hT : sch.inner_state.tracked_accounts a with
  | none =>
    -- not tracked: nothing to settle
    refine ⟨sch, rfl, { h with todo := ?_, done := ?_ }, rfl, rfl, Turns.refl⟩
    · intro b s hb hbl
      exact h.todo b s hb (List.mem_cons_of_mem a hbl)
    · intro b s hb hbl
      have hba : b ≠ a := by
        rintro rfl
        rw [hT] at hb
        cases hb
      exact h.done b s hb fun hb' => (List.mem_cons.mp hb').elim hba hbl
  | some s =>
    obtain ⟨hT0, hacc⟩ := h.todo a s hT List.mem_cons_self
    have htab : TableOK (Function.update sch.inner_state.tracked_accounts a (some s)) sch.withdraws
        fun _ _ => False := by
      rw [← hT, Function.update_eq_self]
      exact h.table
    obtain ⟨s', W', hsf, hacc', htab', hturn⟩ :=
      AccountState.settle_funds_ok (fun _ h => h) hacc htab (hchange s hT0)
    refine ⟨⟨{ sch.inner_state with
        tracked_accounts := Function.update sch.inner_state.tracked_accounts a
          (if s'.is_empty then none else some s') }, W'⟩, ?_, ?_, rfl, rfl, hturn.turns⟩
    · dsimp only
      rw [hnext, hsf]
      rfl
    refine ⟨fun b s1 hb hbl => ?_, fun b s1 hb hbl => ?_, ?_, StateOK.versions_of_turns h.versions hturn.turns⟩
    · -- an account still to do is not `a`, and as it was
      have hba : b ≠ a := fun hba => hnot (hba ▸ hbl)
      dsimp only at hb
      rw [Function.update_of_ne hba] at hb
      obtain ⟨hT0b, haccb⟩ := h.todo b s1 hb (List.mem_cons_of_mem a hbl)
      exact ⟨hT0b, haccb.turn hturn hba⟩
    · dsimp only at hb
      by_cases hba : b = a
      · subst hba
        rw [Function.update_self] at hb
        split_ifs at hb
        cases hb
        exact hacc'
      · rw [Function.update_of_ne hba] at hb
        exact (h.done b s1 hb fun hb' => (List.mem_cons.mp hb').elim hba hbl).turn hturn hba
    · -- an account left with nothing is no longer tracked
      split_ifs with hempty
      · simp only [AccountState.is_empty, Bool.and_eq_true, List.isEmpty_iff] at hempty
        exact htab'.untrack hempty.1
      · exact htab'

/-- The accounts a settlement retries, each once, in order. -/
theorem settleAccounts_ok (hnext : st.next_accumulator_version = c + 1)
    (hchange : ∀ a s, T0 a = some s →
      -(s.reserved_funds.reservedAt c : ℤ) ≤ (lookup a st.funds_changes).getD 0) :
    ∀ {l : List α} (sch : EagerFundsWithdrawScheduler α), l.Nodup →
      Settling P c T0 l sch.inner_state.tracked_accounts sch.withdraws →
      ∃ sch', l.foldlM (settleAccount st) sch = .ok sch' ∧
        Settling P c T0 [] sch'.inner_state.tracked_accounts sch'.withdraws ∧
        sch'.inner_state.pending_settlements = sch.inner_state.pending_settlements ∧
        sch'.inner_state.accumulator_version = sch.inner_state.accumulator_version ∧
        Turns sch.withdraws sch'.withdraws
  | [], sch, _, h => ⟨sch, rfl, h, rfl, rfl, Turns.refl⟩
  | a :: l, sch, hnodup, h => by
    obtain ⟨hnot, hnodup'⟩ := List.nodup_cons.mp hnodup
    obtain ⟨sch1, hstep, h1, hPS1, hcur1, hturns1⟩ := settleAccount_ok h hnot hnext (hchange a)
    obtain ⟨sch', hfold, h', hPS', hcur', hturns'⟩ := settleAccounts_ok hnext hchange sch1 hnodup' h1
    refine ⟨sch', ?_, h', hPS'.trans hPS1, hcur'.trans hcur1, hturns1.trans hturns'⟩
    rw [List.foldlM_cons, hstep, ok_bind]
    exact hfold

end settlement

/-- `settle_funds` on a scheduler keeping the invariant, for a settled
version or the next one, whose changes take out of each tracked account
no more than it reserved at the current version. -/
theorem settle_funds_ok {s : EagerFundsWithdrawScheduler α} {st : FundsSettlement α} (hinv : s.Inv)
    (hadm : st.next_accumulator_version ≤ s.inner_state.accumulator_version ∨
      (st.next_accumulator_version = s.inner_state.accumulator_version + 1 ∧
        ∀ a as, s.inner_state.tracked_accounts a = some as →
          -(as.reserved_funds.reservedAt s.inner_state.accumulator_version : ℤ) ≤
            (lookup a st.funds_changes).getD 0)) :
    ∃ s', s.settle_funds st = .ok s' ∧ s'.Inv ∧ Turns s.withdraws s'.withdraws := by
  unfold settle_funds
  split_ifs with hle
  · exact ⟨s, rfl, hinv, Turns.refl⟩
  obtain ⟨hnext, hchange⟩ := hadm.resolve_left hle
  rw [require_eq_pure hnext, pure_bind]
  -- the accounts retried are those recorded at `c` or `c + 1`, and those changed
  have hset := StateOK.settling hinv (l := SortedSet.ascending (s.affectedAccounts st))
    fun a ha => by
      rw [SortedSet.mem_ascending, affectedAccounts, hnext]
      simp only [Finset.mem_union]
      tauto
  obtain ⟨s', hfold, hdone, hPS, hcur, hturns⟩ := settleAccounts_ok hnext hchange
    ⟨{ s.inner_state with
        accumulator_version := st.next_accumulator_version
        pending_settlements :=
          Function.update s.inner_state.pending_settlements s.inner_state.accumulator_version none },
      s.withdraws⟩
    ((SortedSet.pairwise_lt_ascending _).imp ne_of_lt) hset
  refine ⟨s', hfold, ?_, hturns⟩
  unfold Inv
  rw [hPS, hcur, hnext]
  exact hdone.finish

-- ============================================================ what the invariant gives

section consequences

variable {s : EagerFundsWithdrawScheduler α}

end consequences

end EagerFundsWithdrawScheduler

-- ============================================================ runs

/-- A call of the eager scheduler: a batch read against a store, or a
settlement. -/
inductive Call (δ α : Type) [LinearOrder α]
  | schedule_withdraws (funds_read : MockFundsRead α) (reservations : WithdrawReservations δ α)
  | settle_funds (settlement : FundsSettlement α)

namespace Call

/-- A call's effect on the scheduler. -/
def apply (s : EagerFundsWithdrawScheduler α) : Call δ α → Except Panic (EagerFundsWithdrawScheduler α)
  | .schedule_withdraws funds_read reservations =>
      Prod.fst <$> s.schedule_withdraws funds_read reservations
  | .settle_funds settlement => s.settle_funds settlement

/-- What the caller keeps to: one batch a version, in version order, so
that a batch of an unsettled version is above every version recorded;
and settlements one version at a time, taking out of each account no
more than it reserved at the version settled. -/
def Admissible (s : EagerFundsWithdrawScheduler α) : Call δ α → Prop
  | .schedule_withdraws _ reservations =>
      reservations.accumulator_version < s.inner_state.accumulator_version ∨
        ∀ k, s.inner_state.pending_settlements k ≠ none → k < reservations.accumulator_version
  | .settle_funds settlement =>
      settlement.next_accumulator_version ≤ s.inner_state.accumulator_version ∨
        (settlement.next_accumulator_version = s.inner_state.accumulator_version + 1 ∧
          ∀ a as, s.inner_state.tracked_accounts a = some as →
            -(as.reserved_funds.reservedAt s.inner_state.accumulator_version : ℤ) ≤
              (lookup a settlement.funds_changes).getD 0)

end Call

/-- The schedulers reached from a new one by admissible calls. -/
inductive Reachable : EagerFundsWithdrawScheduler α → Prop
  | new (v : ℕ) : Reachable (EagerFundsWithdrawScheduler.new v)
  | step {δ : Type} {s s' : EagerFundsWithdrawScheduler α} (call : Call δ α) :
      Reachable s → call.Admissible s → call.apply s = .ok s' → Reachable s'

namespace EagerFundsWithdrawScheduler

variable {s : EagerFundsWithdrawScheduler α}

/-- An admissible call on a scheduler keeping the invariant does not
panic, keeps it, keeps every status sent and every withdraw taken up. -/
theorem Inv.apply (hinv : s.Inv) (call : Call δ α) (hadm : call.Admissible s) :
    ∃ s', call.apply s = .ok s' ∧ s'.Inv ∧
      (∀ id status, (s.withdraws id).sent = some status → (s'.withdraws id).sent = some status) ∧
      (∀ id, (s.withdraws id).InUse → (s'.withdraws id).InUse) := by
  cases call with
  | schedule_withdraws funds_read reservations =>
    obtain ⟨s', results, h, hinv', -, hsent, huse, -⟩ := schedule_withdraws_ok hinv hadm
    exact ⟨s', by rw [Call.apply, h]; rfl, hinv', hsent, huse⟩
  | settle_funds settlement =>
    obtain ⟨s', h, hinv', hturns⟩ := settle_funds_ok hinv hadm
    exact ⟨s', h, hinv', hturns.sent_keep, fun id hid => (hturns.in_use id).mpr hid⟩

end EagerFundsWithdrawScheduler

/-- Every reachable scheduler keeps the invariant. -/
theorem Reachable.inv {s : EagerFundsWithdrawScheduler α} (hs : Reachable s) : s.Inv := by
  induction hs with
  | new v => exact EagerFundsWithdrawScheduler.Inv.new v
  | step call _ hadm happly ih =>
    obtain ⟨s', h, hinv', -⟩ := ih.apply call hadm
    rw [happly] at h
    cases h
    exact hinv'

end MysoCore.ExecutionScheduler.FundsWithdraw
