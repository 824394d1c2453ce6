/-
Maps kept as the list of their entries in the order their keys were
added, each key once: Move's `vec_map::VecMap`, and a `Table` whose
entries are only ever read by key.

# Operations

`insert` adds an entry for a new key and refuses a present one, as
`vec_map::insert` and `table::add` abort, with the error the caller
names; `push` is the insertion of a key known to be new. `modify`
rewrites the value of a key, as a mutable borrow of it does, and `erase`
drops its entry. `set` is `modify` for a present key and `push` for a
new one: "add the entry if it is missing, then borrow it mutably". Each
keeps the keys distinct, which the structure carries, so a key's value
is read back from the entries and the other way (`mem_contents_iff`).

# Sums

`sum g` adds `g` over the entries. Each operation trades the summand of
the key it touches and leaves the others alone (`sum_push`,
`sum_modify`, `sum_erase`, `sum_set`); `sum_congr`, `sum_le_sum` and
`sum_add` compare the sums of two functions entry by entry. These are
the lemmas a conserved total or a tally over the entries is kept by.
-/
import Mathlib
import MysoCore.Lib.SortedMap

/-- A map kept as its entries in the order their keys were added, with
each key once. -/
structure VecMap (κ α : Type) where
  contents : List (κ × α)
  nodup : (SortedMap.keys contents).Nodup

namespace VecMap

open SortedMap

variable {κ α ε : Type}

/-- The map with no entry. -/
def empty : VecMap κ α := ⟨[], List.nodup_nil⟩

/-- The number of entries. -/
def length (m : VecMap κ α) : ℕ := m.contents.length

/-- A sum over the entries. -/
def sum (m : VecMap κ α) (g : κ → α → ℕ) : ℕ := (m.contents.map fun e => g e.1 e.2).sum

/-- A new key's entry, last. -/
def push (m : VecMap κ α) (k : κ) (v : α) (h : k ∉ keys m.contents) : VecMap κ α :=
  ⟨m.contents ++ [(k, v)], by
    rw [show keys (m.contents ++ [(k, v)]) = keys m.contents ++ [k] by simp [keys],
      List.nodup_append]
    refine ⟨m.nodup, List.nodup_singleton _, fun a ha b hb => ?_⟩
    rw [List.mem_singleton] at hb
    subst hb
    exact fun hab => h (hab ▸ ha)⟩

@[simp] theorem length_push {m : VecMap κ α} {k : κ} {v : α} {h : k ∉ keys m.contents} :
    (m.push k v h).length = m.length + 1 := by
  simp [push, length]

@[simp] theorem sum_empty (g : κ → α → ℕ) : (empty : VecMap κ α).sum g = 0 := rfl

@[simp] theorem sum_push {m : VecMap κ α} {k : κ} {v : α} {h : k ∉ keys m.contents}
    (g : κ → α → ℕ) : (m.push k v h).sum g = m.sum g + g k v := by
  simp [push, sum]

@[simp] theorem sum_zero (m : VecMap κ α) : (m.sum fun _ _ => 0) = 0 := by
  simp [sum]

/-- The length is the sum of one per entry. -/
theorem length_eq_sum (m : VecMap κ α) : m.length = m.sum fun _ _ => 1 := by
  simp [sum, length]

theorem sum_add (m : VecMap κ α) (g g' : κ → α → ℕ) :
    m.sum g + m.sum g' = m.sum fun k v => g k v + g' k v := by
  simp [sum, List.sum_map_add]

/-- Two maps with the same entries are equal. -/
theorem ext {m m' : VecMap κ α} (h : m.contents = m'.contents) : m = m' := by
  cases m
  cases m'
  cases h
  rfl

variable [DecidableEq κ]

/-- `vec_map::contains` and `table::contains`. -/
def contains (m : VecMap κ α) (k : κ) : Bool := decide (k ∈ keys m.contents)

/-- The value of a key. -/
def get (m : VecMap κ α) (k : κ) : Option α := lookup k m.contents

/-- The value of a key, or the caller's abort when it has none, as
`table::borrow` and `vec_map::get` abort. -/
def borrow (m : VecMap κ α) (k : κ) (err : ε) : Except ε α :=
  match m.get k with
  | some v => .ok v
  | none => .error err

/-- `vec_map::insert` and `table::add`: a new key's entry goes last, a
present key aborts with the caller's error. -/
def insert (m : VecMap κ α) (k : κ) (v : α) (err : ε) : Except ε (VecMap κ α) :=
  if h : k ∈ keys m.contents then .error err else .ok (m.push k v h)

/-- A key's value rewritten in place. -/
def modifyEntries (k : κ) (f : α → α) (l : List (κ × α)) : List (κ × α) :=
  l.map fun e => if e.1 = k then (e.1, f e.2) else e

theorem keys_modifyEntries (k : κ) (f : α → α) (l : List (κ × α)) :
    keys (modifyEntries k f l) = keys l := by
  unfold modifyEntries keys
  rw [List.map_map]
  refine List.map_congr_left fun e _ => ?_
  by_cases h : e.1 = k <;> simp [h]

/-- The value of a key rewritten, as a mutable borrow of it does. -/
def modify (m : VecMap κ α) (k : κ) (f : α → α) : VecMap κ α :=
  ⟨modifyEntries k f m.contents, (keys_modifyEntries k f m.contents).symm ▸ m.nodup⟩

/-- The entries of other keys. -/
def eraseEntries (k : κ) (l : List (κ × α)) : List (κ × α) := l.filter fun e => decide (e.1 ≠ k)

/-- The entry of a key dropped, as `vec_map::remove` and `table::remove`
do to a present key. -/
def erase (m : VecMap κ α) (k : κ) : VecMap κ α :=
  ⟨eraseEntries k m.contents, m.nodup.sublist (List.filter_sublist.map _)⟩

/-- A key's value set, the entry added when the key is new. -/
def set (m : VecMap κ α) (k : κ) (v : α) : VecMap κ α :=
  if h : k ∈ keys m.contents then m.modify k fun _ => v else m.push k v h

-- ============================================================ reading back

theorem mem_keys_iff {m : VecMap κ α} {k : κ} : k ∈ keys m.contents ↔ m.get k ≠ none := by
  constructor
  · intro hk
    obtain ⟨v, hv⟩ := exists_lookup_of_mem_keys hk
    simp [get, hv]
  · intro hk
    by_contra hn
    exact hk (lookup_eq_none_of_not_mem_keys hn)

@[simp] theorem contains_eq_true {m : VecMap κ α} {k : κ} :
    m.contains k = true ↔ m.get k ≠ none := by
  simp [contains, mem_keys_iff]

@[simp] theorem get_empty (k : κ) : (empty : VecMap κ α).get k = none := rfl

theorem lookup_nodup_iff :
    ∀ {l : List (κ × α)}, (keys l).Nodup → ∀ {k : κ} {v : α}, (k, v) ∈ l ↔ lookup k l = some v
  | [], _, _, _ => by simp [lookup]
  | e :: rest, h, k, v => by
      rw [keys_cons, List.nodup_cons] at h
      constructor
      · intro hmem
        rcases List.mem_cons.mp hmem with he | hmem
        · subst he
          simp [lookup]
        · -- the key is in the tail, so not the head's
          have hne : e.1 ≠ k := fun he => h.1 (he ▸ mem_keys.mpr ⟨v, hmem⟩)
          simp only [lookup, if_neg hne]
          exact (lookup_nodup_iff h.2).mp hmem
      · exact mem_of_lookup_eq_some

/-- An entry is a key with its value. -/
theorem mem_contents_iff {m : VecMap κ α} {k : κ} {v : α} :
    (k, v) ∈ m.contents ↔ m.get k = some v :=
  lookup_nodup_iff m.nodup

theorem borrow_eq_ok {m : VecMap κ α} {k : κ} {err : ε} {v : α} :
    m.borrow k err = .ok v ↔ m.get k = some v := by
  unfold borrow
  split <;> simp_all

theorem lookup_append_new {k : κ} {v : α} (k' : κ) :
    ∀ {l : List (κ × α)}, k ∉ keys l →
      lookup k' (l ++ [(k, v)]) = if k' = k then some v else lookup k' l
  | [], _ => by
      by_cases h : k' = k
      · simp [lookup, h]
      · simp [lookup, Ne.symm h, h]
  | e :: rest, h => by
      have he : e.1 ≠ k := fun he => h (by simp [he])
      have hrest : k ∉ keys rest := fun hk => h (List.mem_cons_of_mem _ hk)
      simp only [List.cons_append, lookup, lookup_append_new k' hrest]
      by_cases hek : e.1 = k'
      · subst hek
        simp [he]
      · simp [hek]

@[simp] theorem get_push {m : VecMap κ α} {k : κ} {v : α} {h : k ∉ keys m.contents} (k' : κ) :
    (m.push k v h).get k' = if k' = k then some v else m.get k' :=
  lookup_append_new k' h

theorem insert_eq_ok {m m' : VecMap κ α} {k : κ} {v : α} {err : ε} :
    m.insert k v err = .ok m' ↔ m.get k = none ∧ m' = m.set k v := by
  unfold insert set
  by_cases h : k ∈ keys m.contents
  · simp only [dif_pos h, reduceCtorEq, false_iff, not_and]
    exact fun hn => absurd hn (mem_keys_iff.mp h)
  · simp only [dif_neg h, Except.ok.injEq]
    have hn : m.get k = none := by simpa [mem_keys_iff] using h
    exact ⟨fun he => ⟨hn, he.symm⟩, fun he => he.2.symm⟩

/-- A new key's entry is added. -/
theorem insert_of_get_eq_none {m : VecMap κ α} {k : κ} {v : α} {err : ε} (h : m.get k = none) :
    m.insert k v err = .ok (m.set k v) :=
  insert_eq_ok.mpr ⟨h, rfl⟩

theorem lookup_modifyEntries {k : κ} {f : α → α} (k' : κ) :
    ∀ (l : List (κ × α)),
      lookup k' (modifyEntries k f l) = if k' = k then (lookup k l).map f else lookup k' l
  | [] => by simp [modifyEntries, lookup]
  | e :: rest => by
      have ih := lookup_modifyEntries (k := k) (f := f) k' rest
      unfold modifyEntries at ih ⊢
      rw [List.map_cons]
      by_cases hek : e.1 = k
      · -- the head is the key's entry
        subst hek
        by_cases h : e.1 = k'
        · subst h
          simp [lookup]
        · simp [lookup, h, Ne.symm h, ih]
      · by_cases h : e.1 = k'
        · subst h
          simp [lookup, hek]
        · simp only [lookup, if_neg hek, if_neg h, ih]

@[simp] theorem get_modify {m : VecMap κ α} {k : κ} {f : α → α} (k' : κ) :
    (m.modify k f).get k' = if k' = k then (m.get k).map f else m.get k' :=
  lookup_modifyEntries k' m.contents

theorem lookup_eraseEntries {k : κ} (k' : κ) :
    ∀ (l : List (κ × α)), lookup k' (eraseEntries k l) = if k' = k then none else lookup k' l
  | [] => by simp [eraseEntries, lookup]
  | e :: rest => by
      have ih := lookup_eraseEntries (k := k) k' rest
      unfold eraseEntries at ih ⊢
      rw [List.filter_cons]
      by_cases hek : e.1 = k
      · -- the head is dropped
        rw [if_neg (by simp [hek]), ih]
        by_cases h : k' = k
        · simp [h]
        · simp [lookup, h, hek ▸ Ne.symm h]
      · rw [if_pos (by simp [hek])]
        by_cases h : e.1 = k'
        · subst h
          simp [lookup, hek]
        · simp only [lookup, if_neg h, ih]

@[simp] theorem get_erase {m : VecMap κ α} {k : κ} (k' : κ) :
    (m.erase k).get k' = if k' = k then none else m.get k' :=
  lookup_eraseEntries k' m.contents

@[simp] theorem get_set {m : VecMap κ α} {k : κ} {v : α} (k' : κ) :
    (m.set k v).get k' = if k' = k then some v else m.get k' := by
  unfold set
  split
  · next h =>
      obtain ⟨v0, hv0⟩ := exists_lookup_of_mem_keys h
      have hv0' : m.get k = some v0 := hv0
      rw [get_modify, hv0']
      rfl
  · exact get_push k'

theorem mem_keys_set {m : VecMap κ α} {k k' : κ} {v : α} :
    k' ∈ keys (m.set k v).contents ↔ k' = k ∨ k' ∈ keys m.contents := by
  rw [mem_keys_iff, mem_keys_iff, get_set]
  by_cases h : k' = k <;> simp [h]

theorem modifyEntries_of_not_mem {k : κ} {f : α → α} :
    ∀ {l : List (κ × α)}, k ∉ keys l → modifyEntries k f l = l
  | [], _ => rfl
  | e :: rest, h => by
      have he : e.1 ≠ k := fun he => h (by simp [he])
      have ih := modifyEntries_of_not_mem (f := f) (l := rest)
        fun hk => h (List.mem_cons_of_mem _ hk)
      unfold modifyEntries at ih ⊢
      simp [he, ih]

theorem modifyEntries_modifyEntries (k : κ) (f f' : α → α) (l : List (κ × α)) :
    modifyEntries k f' (modifyEntries k f l) = modifyEntries k (f' ∘ f) l := by
  unfold modifyEntries
  rw [List.map_map]
  refine List.map_congr_left fun e _ => ?_
  by_cases h : e.1 = k <;> simp [h]

theorem set_contents_of_mem {m : VecMap κ α} {k : κ} {v : α} (h : k ∈ keys m.contents) :
    (m.set k v).contents = modifyEntries k (fun _ => v) m.contents := by
  unfold set
  rw [dif_pos h]
  rfl

theorem set_contents_of_not_mem {m : VecMap κ α} {k : κ} {v : α} (h : k ∉ keys m.contents) :
    (m.set k v).contents = m.contents ++ [(k, v)] := by
  unfold set
  rw [dif_neg h]
  rfl

/-- Setting a key twice keeps the second value. -/
@[simp] theorem set_set (m : VecMap κ α) (k : κ) (v v' : α) : (m.set k v).set k v' = m.set k v' := by
  have hk : k ∈ keys (m.set k v).contents := mem_keys_set.mpr (.inl rfl)
  apply ext
  rw [set_contents_of_mem hk]
  by_cases h : k ∈ keys m.contents
  · -- a present key is rewritten in place twice
    rw [set_contents_of_mem h, set_contents_of_mem h, modifyEntries_modifyEntries]
    rfl
  · -- a new key's entry is pushed, then rewritten
    rw [set_contents_of_not_mem h, set_contents_of_not_mem h]
    have hrest := modifyEntries_of_not_mem (f := fun _ : α => v') h
    unfold modifyEntries at hrest ⊢
    rw [List.map_append, hrest]
    simp

-- ============================================================ sizes

@[simp] theorem length_modify {m : VecMap κ α} {k : κ} {f : α → α} :
    (m.modify k f).length = m.length := by
  simp [modify, modifyEntries, length]

theorem length_set {m : VecMap κ α} {k : κ} {v : α} :
    (m.set k v).length = if m.get k = none then m.length + 1 else m.length := by
  unfold set
  split
  · next h => simp [mem_keys_iff.mp h]
  · next h => simp [show m.get k = none by simpa [mem_keys_iff] using h]

-- ============================================================ sums

theorem sum_modifyEntries (g : κ → α → ℕ) {k : κ} {f : α → α} {v : α} :
    ∀ {l : List (κ × α)}, (keys l).Nodup → lookup k l = some v →
      ((modifyEntries k f l).map fun e => g e.1 e.2).sum + g k v =
        (l.map fun e => g e.1 e.2).sum + g k (f v)
  | [], _, h => by cases h
  | e :: rest, hnd, h => by
      rw [keys_cons, List.nodup_cons] at hnd
      unfold lookup at h
      by_cases hek : e.1 = k
      · -- the head is the key's entry; the tail has no other
        rw [if_pos hek] at h
        cases h
        have hrest : modifyEntries k f rest = rest := modifyEntries_of_not_mem (hek ▸ hnd.1)
        have hcons : modifyEntries k f (e :: rest) = (e.1, f e.2) :: rest := by
          unfold modifyEntries at hrest ⊢
          simp [hek, hrest]
        rw [hcons]
        subst hek
        simp only [List.map_cons, List.sum_cons]
        omega
      · rw [if_neg hek] at h
        have ih := sum_modifyEntries g (f := f) hnd.2 h
        have hcons : modifyEntries k f (e :: rest) = e :: modifyEntries k f rest := by
          unfold modifyEntries
          simp [hek]
        rw [hcons]
        simp only [List.map_cons, List.sum_cons]
        omega

/-- Rewriting a key's value trades its summand. -/
theorem sum_modify {m : VecMap κ α} {k : κ} {v : α} (hk : m.get k = some v) (f : α → α)
    (g : κ → α → ℕ) : (m.modify k f).sum g + g k v = m.sum g + g k (f v) :=
  sum_modifyEntries g m.nodup hk

theorem sum_eraseEntries (g : κ → α → ℕ) {k : κ} {v : α} :
    ∀ {l : List (κ × α)}, (keys l).Nodup → lookup k l = some v →
      ((eraseEntries k l).map fun e => g e.1 e.2).sum + g k v = (l.map fun e => g e.1 e.2).sum
  | [], _, h => by cases h
  | e :: rest, hnd, h => by
      rw [keys_cons, List.nodup_cons] at hnd
      unfold lookup at h
      by_cases hek : e.1 = k
      · -- the head is the key's entry, and the tail keeps all of its own
        rw [if_pos hek] at h
        cases h
        have hrest : eraseEntries k rest = rest := by
          unfold eraseEntries
          refine List.filter_eq_self.mpr fun x hx => ?_
          have hx' : x.1 ∈ keys rest := mem_keys.mpr ⟨x.2, hx⟩
          simp only [ne_eq, decide_eq_true_eq]
          exact fun hxk => hnd.1 (hek ▸ hxk ▸ hx')
        have hcons : eraseEntries k (e :: rest) = eraseEntries k rest := by
          simp [eraseEntries, hek]
        rw [hcons, hrest]
        subst hek
        simp only [List.map_cons, List.sum_cons]
        omega
      · rw [if_neg hek] at h
        have ih := sum_eraseEntries g hnd.2 h
        have hcons : eraseEntries k (e :: rest) = e :: eraseEntries k rest := by
          simp [eraseEntries, hek]
        rw [hcons]
        simp only [List.map_cons, List.sum_cons]
        omega

/-- Dropping a key drops its summand. -/
theorem sum_erase {m : VecMap κ α} {k : κ} {v : α} (hk : m.get k = some v) (g : κ → α → ℕ) :
    (m.erase k).sum g + g k v = m.sum g :=
  sum_eraseEntries g m.nodup hk

/-- Dropping a present key's entry shortens the map by one. -/
theorem length_erase {m : VecMap κ α} {k : κ} {v : α} (hk : m.get k = some v) :
    (m.erase k).length + 1 = m.length := by
  rw [length_eq_sum, length_eq_sum]
  exact sum_erase hk _

/-- Setting a key's value trades its summand, none when it is new. -/
theorem sum_set (m : VecMap κ α) (k : κ) (v : α) (g : κ → α → ℕ) :
    (m.set k v).sum g + ((m.get k).map (g k)).getD 0 = m.sum g + g k v := by
  unfold set
  split
  · next h =>
      obtain ⟨v0, hv0⟩ := exists_lookup_of_mem_keys h
      have hv0' : m.get k = some v0 := hv0
      rw [hv0']
      exact sum_modify hv0' _ g
  · next h =>
      have hn : m.get k = none := by simpa [mem_keys_iff] using h
      simp [hn]

/-- Setting a key to a value with the same summand keeps the sum. -/
theorem sum_set_of_eq {m : VecMap κ α} {k : κ} {v : α} {g : κ → α → ℕ}
    (h : ((m.get k).map (g k)).getD 0 = g k v) : (m.set k v).sum g = m.sum g := by
  have hs := sum_set m k v g
  omega

/-- Setting a key to a value with no larger summand does not grow the sum. -/
theorem sum_set_le {m : VecMap κ α} {k : κ} {v : α} {g : κ → α → ℕ}
    (h : g k v ≤ ((m.get k).map (g k)).getD 0) : (m.set k v).sum g ≤ m.sum g := by
  have hs := sum_set m k v g
  omega

theorem sum_congr {m : VecMap κ α} {g g' : κ → α → ℕ}
    (h : ∀ k v, m.get k = some v → g k v = g' k v) : m.sum g = m.sum g' := by
  unfold sum
  congr 1
  exact List.map_congr_left fun e he => h e.1 e.2 (mem_contents_iff.mp he)

theorem sum_le_sum {m : VecMap κ α} {g g' : κ → α → ℕ}
    (h : ∀ k v, m.get k = some v → g k v ≤ g' k v) : m.sum g ≤ m.sum g' :=
  List.sum_le_sum fun e he => h e.1 e.2 (mem_contents_iff.mp he)

theorem le_sum {m : VecMap κ α} {k : κ} {v : α} (hk : m.get k = some v) (g : κ → α → ℕ) :
    g k v ≤ m.sum g :=
  List.le_sum_of_mem (List.mem_map.mpr ⟨(k, v), mem_contents_iff.mpr hk, rfl⟩)

end VecMap
