/-
Loops in the `Except` monad: a fold whose steps may fail, stopping at the
first failure, as a loop of the source stops at its first panic.

# The invariant rule

`foldlM_inv` is the rule every such loop is verified by: a property of
the accumulator that holds at the start and that each successful step
keeps holds of the result of every successful fold; `foldl_inv` is the
same rule for a loop that cannot fail. `bind_eq_ok` opens a successful
sequence of two computations.

# Guards

`require` is a guard that fails with its error unless its condition
holds, the shape of an assertion in the source. The simp lemmas below
open a computation that starts with a guard, whether it succeeds or
fails, so that a chain of guards unfolds into the conjunction of their
conditions.

# Walks

`iterate` takes a fallible step a number of times. A list of states each
of which steps to the next is what the walk from its first one visits,
one state a step (`iterate_of_isChain`).
-/
import Mathlib

namespace ExceptFold

variable {ε α β : Type}

/-- The invariant rule of a fold. -/
theorem foldl_inv (P : α → Prop) {f : α → β → α} :
    ∀ {l : List β} {a : α}, P a → (∀ a x, x ∈ l → P a → P (f a x)) → P (l.foldl f a)
  | [], _, ha, _ => ha
  | x :: l, a, ha, hf => by
      rw [List.foldl_cons]
      exact foldl_inv P (hf a x List.mem_cons_self ha) fun a y hy => hf a y (List.mem_cons_of_mem _ hy)

/-- A successful sequence: both parts succeeded. -/
theorem bind_eq_ok {x : Except ε α} {f : α → Except ε β} {b : β} (h : x >>= f = .ok b) :
    ∃ a, x = .ok a ∧ f a = .ok b := by
  cases x with
  | error e => cases h
  | ok a => exact ⟨a, rfl, h⟩

/-- A successful map: the computation mapped succeeded. -/
theorem map_eq_ok {x : Except ε α} {f : α → β} {b : β} (h : f <$> x = .ok b) :
    ∃ a, x = .ok a ∧ f a = b := by
  cases x with
  | error e => cases h
  | ok a => exact ⟨a, rfl, by cases h; rfl⟩

/-- A failed sequence: the first part failed, or it succeeded and the
second failed. -/
theorem bind_eq_error {x : Except ε α} {f : α → Except ε β} {e : ε} :
    x >>= f = .error e ↔ x = .error e ∨ ∃ a, x = .ok a ∧ f a = .error e := by
  cases x with
  | error e' =>
    show Except.error e' = .error e ↔ _
    simp
  | ok a =>
    show f a = .error e ↔ _
    simp

/-- The invariant rule of a fold that may fail. -/
theorem foldlM_inv (P : α → Prop) {f : α → β → Except ε α} :
    ∀ {l : List β} {a b : α}, P a → (∀ a x b, x ∈ l → P a → f a x = .ok b → P b) →
      l.foldlM f a = .ok b → P b
  | [], a, b, ha, _, h => by
      simp only [List.foldlM_nil, pure, Except.pure, Except.ok.injEq] at h
      exact h ▸ ha
  | x :: l, a, b, ha, hf, h => by
      rw [List.foldlM_cons] at h
      obtain ⟨a', ha', h'⟩ := bind_eq_ok h
      exact foldlM_inv P (hf a x a' List.mem_cons_self ha ha')
        (fun a y b hy => hf a y b (List.mem_cons_of_mem _ hy)) h'

-- ============================================================ guards

/-- Go on if the condition holds, else fail with the error. -/
def require (cond : Prop) [Decidable cond] (err : ε) : Except ε Unit :=
  if cond then pure () else throw err

/-- A guard whose condition holds goes on. -/
theorem require_eq_pure {cond : Prop} [Decidable cond] {err : ε} (h : cond) :
    require cond err = pure () :=
  if_pos h

@[simp] theorem pure_eq_ok {a b : α} : (pure a : Except ε α) = .ok b ↔ a = b :=
  ⟨fun h => by cases h; rfl, fun h => h ▸ rfl⟩

@[simp] theorem pure_eq_error {a : α} {e : ε} : (pure a : Except ε α) = .error e ↔ False :=
  ⟨fun h => (by cases h), False.elim⟩

@[simp] theorem throw_eq_ok {e : ε} {b : α} : (throw e : Except ε α) = .ok b ↔ False :=
  ⟨fun h => (by cases h), False.elim⟩

@[simp] theorem throw_eq_error {e e' : ε} : (throw e : Except ε α) = .error e' ↔ e = e' :=
  ⟨fun h => by cases h; rfl, fun h => h ▸ rfl⟩

@[simp] theorem ok_bind {a : α} {f : α → Except ε β} : (Except.ok a >>= f) = f a := rfl

@[simp] theorem error_bind {e : ε} {f : α → Except ε β} : (Except.error e >>= f) = .error e := rfl

@[simp] theorem throw_bind {e : ε} {f : α → Except ε β} : ((throw e : Except ε α) >>= f) = throw e :=
  rfl

@[simp] theorem require_bind_eq_ok {cond : Prop} [Decidable cond] {err : ε}
    {f : Unit → Except ε β} {b : β} :
    (require cond err >>= f) = .ok b ↔ cond ∧ f () = .ok b := by
  unfold require
  by_cases h : cond <;> simp [h]

@[simp] theorem require_bind_eq_error {cond : Prop} [Decidable cond] {err e : ε}
    {f : Unit → Except ε β} :
    (require cond err >>= f) = .error e ↔ (¬ cond ∧ err = e) ∨ (cond ∧ f () = .error e) := by
  unfold require
  by_cases h : cond <;> simp [h]

/-- A guard followed by a value, as `do` writes a block that ends with
a guard and a `pure`. -/
@[simp] theorem map_throw {f : α → β} {e : ε} : (f <$> (throw e : Except ε α)) = throw e := rfl

@[simp] theorem require_map_eq_ok {cond : Prop} [Decidable cond] {err : ε} {f : Unit → β}
    {b : β} : (f <$> require cond err) = .ok b ↔ cond ∧ f () = b := by
  unfold require
  by_cases h : cond <;> simp [h]

@[simp] theorem require_map_eq_error {cond : Prop} [Decidable cond] {err e : ε}
    {f : Unit → β} : (f <$> require cond err) = .error e ↔ ¬ cond ∧ err = e := by
  unfold require
  by_cases h : cond <;> simp [h]

/-- A guard goes on exactly when its condition holds. -/
theorem require_eq_ok {cond : Prop} [Decidable cond] {err : ε} {u : Unit} :
    require cond err = .ok u ↔ cond := by
  unfold require
  by_cases h : cond <;> simp [h]

/-- A guard fails exactly when its condition does not hold. -/
theorem require_eq_error {cond : Prop} [Decidable cond] {err e : ε} :
    require cond err = .error e ↔ ¬ cond ∧ err = e := by
  unfold require
  by_cases h : cond <;> simp [h]

/-- An error renamed: the computation succeeded with the same value. -/
@[simp] theorem mapError_eq_ok {ε' : Type} {x : Except ε α} {f : ε → ε'} {a : α} :
    x.mapError f = .ok a ↔ x = .ok a := by
  cases x <;> simp [Except.mapError]

/-- A computation's value as an option is its value when it succeeds. -/
@[simp] theorem toOption_eq_some {x : Except ε α} {a : α} : x.toOption = some a ↔ x = .ok a := by
  cases x <;> simp [Except.toOption]

-- ============================================================ walks

/-- `n` steps of `step` from `a`, stopping at the first failure. -/
def iterate (step : α → Except ε α) : ℕ → α → Except ε α
  | 0, a => .ok a
  | n + 1, a => step a >>= iterate step n

/-- A walk along a chain of states, each stepping to the next, is at its
`i`-th state after `i` steps. -/
theorem iterate_of_isChain {step : α → Except ε α} :
    ∀ {a : α} {l : List α}, (a :: l).IsChain (fun a b => step a = .ok b) →
      ∀ i (hi : i < (a :: l).length), iterate step i a = .ok (a :: l)[i]
  | _, _, _, 0, _ => rfl
  | _, [], _, i + 1, hi => absurd hi (by simp)
  | a, b :: l, h, i + 1, hi => by
      rw [List.isChain_cons_cons] at h
      show step a >>= iterate step i = _
      rw [h.1]
      exact iterate_of_isChain h.2 i (by simpa using hi)

end ExceptFold
