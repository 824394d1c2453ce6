/-
Finite maps kept as lists of entries with strictly increasing keys: the
content of an ordered container read from its smallest key up, as a walk
along its leaves does.

# Operations and what they keep

`lookup` reads the value of a key and `alter` sets it from the old one,
inserting where the key belongs when it is new: the `entry` interface of
an ordered map; `forall_mem_alter` carries a property of every entry
across it, and on a sorted list `lookup` reads back what `alter` wrote
(`Sorted.lookup_alter_self`, `lookup_alter_of_ne`). For a map to numbers
`valSum` sums the values, and an update trades a key's old value for its
new one (`Sorted.valSum_alter`, `Sorted.valSum_eraseKey`). `insertKey` puts an entry where its key belongs and `eraseKey`
drops the entry of a key; both keep the keys strictly increasing (`Sorted.insertKey`,
`Sorted.eraseKey`), as does any rewrite of the values that leaves the keys
alone (`Sorted.of_keys_eq`), such as `setVals`, which overwrites the
values met first on a walk. `Pairwise.sublist_pair` and
`Pairwise.exists_index_lt` read positions off an ordered list: a walk
along it meets the smaller of two members first.
-/
import Mathlib

namespace SortedMap

variable {κ α : Type*}

/-- The keys of a list of entries, in order. -/
def keys (l : List (κ × α)) : List κ := l.map Prod.fst

@[simp] theorem keys_nil : keys ([] : List (κ × α)) = [] := rfl

@[simp] theorem keys_cons (e : κ × α) (l : List (κ × α)) : keys (e :: l) = e.1 :: keys l := rfl

theorem mem_keys {k : κ} {l : List (κ × α)} : k ∈ keys l ↔ ∃ v, (k, v) ∈ l := by
  simp [keys]

theorem keys_reverse (l : List (κ × α)) : keys l.reverse = (keys l).reverse := List.map_reverse ..

/-- The value of the first entry of a key. -/
def lookup [DecidableEq κ] (k : κ) : List (κ × α) → Option α
  | [] => none
  | e :: rest => if e.1 = k then some e.2 else lookup k rest

theorem mem_of_lookup_eq_some [DecidableEq κ] {k : κ} {v : α} :
    ∀ {l : List (κ × α)}, lookup k l = some v → (k, v) ∈ l
  | [], h => by cases h
  | e :: rest, h => by
      unfold lookup at h
      split at h
      · next he =>
          cases h
          subst he
          exact List.mem_cons_self
      · exact List.mem_cons_of_mem _ (mem_of_lookup_eq_some h)

/-- A key no entry has has no value. -/
theorem lookup_eq_none_of_not_mem_keys [DecidableEq κ] {k : κ} :
    ∀ {l : List (κ × α)}, k ∉ keys l → lookup k l = none
  | [], _ => rfl
  | e :: rest, h => by
      have he : e.1 ≠ k := fun he => h (by simp [he])
      have hrest : k ∉ keys rest := fun hk => h (by simp [hk])
      simp only [lookup, if_neg he]
      exact lookup_eq_none_of_not_mem_keys hrest

/-- A key has a value: the first entry's. -/
theorem exists_lookup_of_mem_keys [DecidableEq κ] {k : κ} :
    ∀ {l : List (κ × α)}, k ∈ keys l → ∃ v, lookup k l = some v
  | [], h => by cases h
  | e :: rest, h => by
      unfold lookup
      split
      · exact ⟨e.2, rfl⟩
      · next he =>
          rcases List.mem_cons.mp h with h | h
          · exact absurd h.symm he
          · exact exists_lookup_of_mem_keys h

/-- The sum of the values of a map to numbers. -/
def valSum (l : List (κ × ℕ)) : ℕ := (l.map Prod.snd).sum

@[simp] theorem valSum_nil : valSum ([] : List (κ × ℕ)) = 0 := rfl

@[simp] theorem valSum_cons (e : κ × ℕ) (l : List (κ × ℕ)) :
    valSum (e :: l) = e.2 + valSum l := by
  simp [valSum]

@[simp] theorem valSum_append (l l' : List (κ × ℕ)) : valSum (l ++ l') = valSum l + valSum l' := by
  simp [valSum]

/-- A value of a map to numbers is at most the sum of its values. -/
theorem le_valSum_of_lookup [DecidableEq κ] {k : κ} {v : ℕ} :
    ∀ {l : List (κ × ℕ)}, lookup k l = some v → v ≤ valSum l
  | [], h => by cases h
  | e :: rest, h => by
      unfold lookup at h
      split at h
      · cases h
        simp
      · have := le_valSum_of_lookup h
        simp only [valSum_cons]
        omega

/-- Overwrite the values of the first entries, in order, keeping the keys. -/
def setVals : List (κ × α) → List α → List (κ × α)
  | e :: rest, v :: vs => (e.1, v) :: setVals rest vs
  | l, [] => l
  | [], _ :: _ => []

@[simp] theorem keys_setVals : ∀ (l : List (κ × α)) (vals : List α), keys (setVals l vals) = keys l
  | _ :: rest, _ :: vs => by simp [setVals, keys_setVals rest vs]
  | _, [] => by simp [setVals]
  | [], _ :: _ => rfl

/-- The values after overwriting: the new ones, then the old ones past them. -/
theorem map_snd_setVals :
    ∀ (l : List (κ × α)) (vals : List α), vals.length ≤ l.length →
      (setVals l vals).map Prod.snd = vals ++ (l.drop vals.length).map Prod.snd
  | _ :: rest, v :: vs, h => by
      simp [setVals, map_snd_setVals rest vs (by simpa using h)]
  | _, [], _ => by simp [setVals]
  | [], _ :: _, h => by simp at h

variable [LinearOrder κ]

/-- Entries with strictly increasing keys. -/
def Sorted (l : List (κ × α)) : Prop := (keys l).Pairwise (· < ·)

instance (l : List (κ × α)) : Decidable (Sorted l) :=
  inferInstanceAs (Decidable ((keys l).Pairwise (· < ·)))

/-- Insert an entry before the first entry with a larger key. -/
def insertKey (k : κ) (v : α) : List (κ × α) → List (κ × α)
  | [] => [(k, v)]
  | e :: rest => if k < e.1 then (k, v) :: e :: rest else e :: insertKey k v rest

/-- Drop the entry of a key. -/
def eraseKey (k : κ) (l : List (κ × α)) : List (κ × α) := l.filter fun e => decide (e.1 ≠ k)

/-- The entry of a key set to `f` of its value (`none` when there is no
entry), in key order: a map's `entry(k)` followed by an update. -/
def alter (k : κ) (f : Option α → α) : List (κ × α) → List (κ × α)
  | [] => [(k, f none)]
  | e :: rest =>
      if k < e.1 then (k, f none) :: e :: rest
      else if k = e.1 then (k, f (some e.2)) :: rest
      else e :: alter k f rest

/-- What holds of every entry holds after an update that keeps it for
the new value, made from no value or from a value the key had. -/
theorem forall_mem_alter {P : κ × α → Prop} {k : κ} {f : Option α → α} :
    ∀ {l : List (κ × α)}, (∀ x ∈ l, P x) → P (k, f none) →
      (∀ v, (k, v) ∈ l → P (k, f (some v))) → ∀ x ∈ alter k f l, P x
  | [], _, hnone, _ => by simpa [alter] using hnone
  | e :: rest, hl, hnone, hsome => by
      unfold alter
      split
      · intro x hx
        rcases List.mem_cons.mp hx with rfl | hx
        · exact hnone
        · exact hl x hx
      · split
        · next heq =>
            intro x hx
            rcases List.mem_cons.mp hx with rfl | hx
            · exact hsome e.2 (by rw [heq]; exact List.mem_cons_self)
            · exact hl x (List.mem_cons_of_mem _ hx)
        · intro x hx
          rcases List.mem_cons.mp hx with rfl | hx
          · exact hl _ List.mem_cons_self
          · exact forall_mem_alter (fun y hy => hl y (List.mem_cons_of_mem _ hy)) hnone
              (fun v hv => hsome v (List.mem_cons_of_mem _ hv)) x hx

/-- The keys after an update: the key, or one there was. -/
theorem mem_keys_alter {k k' : κ} {f : Option α → α} {l : List (κ × α)}
    (h : k' ∈ keys (alter k f l)) : k' = k ∨ k' ∈ keys l := by
  obtain ⟨v, hv⟩ := mem_keys.mp h
  exact forall_mem_alter (P := fun x => x.1 = k ∨ x.1 ∈ keys l)
    (fun x hx => Or.inr (mem_keys.mpr ⟨x.2, hx⟩)) (Or.inl rfl) (fun _ _ => Or.inl rfl) _ hv

theorem mem_insertKey {k : κ} {v : α} {x : κ × α} :
    ∀ {l : List (κ × α)}, x ∈ insertKey k v l ↔ x = (k, v) ∨ x ∈ l
  | [] => by simp [insertKey]
  | e :: rest => by
      unfold insertKey
      split
      · simp
      · simp only [List.mem_cons, mem_insertKey, or_left_comm]

theorem mem_eraseKey {k : κ} {x : κ × α} {l : List (κ × α)} :
    x ∈ eraseKey k l ↔ x ∈ l ∧ x.1 ≠ k := by
  simp [eraseKey]

theorem mem_keys_eraseKey {k k' : κ} {l : List (κ × α)} :
    k' ∈ keys (eraseKey k l) ↔ k' ∈ keys l ∧ k' ≠ k := by
  simp only [mem_keys, mem_eraseKey]
  constructor
  · rintro ⟨v, hv, hne⟩
    exact ⟨⟨v, hv⟩, hne⟩
  · rintro ⟨⟨v, hv⟩, hne⟩
    exact ⟨v, hv, hne⟩

theorem Sorted.insertKey {k : κ} {v : α} :
    ∀ {l : List (κ × α)}, Sorted l → k ∉ keys l → Sorted (SortedMap.insertKey k v l)
  | [], _, _ => by simp [SortedMap.insertKey, Sorted]
  | e :: rest, h, hk => by
      obtain ⟨he, hs⟩ := List.pairwise_cons.mp h
      unfold SortedMap.insertKey
      split
      · next hlt =>
          -- the new key heads the list: it is below `e.1`, hence below all
          refine List.pairwise_cons.mpr ⟨?_, h⟩
          intro z hz
          rcases List.mem_cons.mp hz with rfl | hz
          · exact hlt
          · exact lt_trans hlt (he z hz)
      · next hge =>
          have hne : k ≠ e.1 := fun h' => hk (by simp [h'])
          have hlt : e.1 < k := lt_of_le_of_ne (not_lt.mp hge) hne.symm
          refine List.pairwise_cons.mpr ⟨?_, Sorted.insertKey hs fun h' => hk (by simp [h'])⟩
          intro z hz
          obtain ⟨w, hw⟩ := mem_keys.mp hz
          rcases mem_insertKey.mp hw with hw | hw
          · cases hw
            exact hlt
          · exact he z (mem_keys.mpr ⟨w, hw⟩)

theorem Sorted.eraseKey {k : κ} {l : List (κ × α)} (h : Sorted l) :
    Sorted (SortedMap.eraseKey k l) :=
  List.Pairwise.sublist ((List.filter_sublist).map Prod.fst) h

/-- An entry whose key is above every key of a sorted list may follow it. -/
theorem Sorted.append_singleton {l : List (κ × α)} {e : κ × α} (h : Sorted l)
    (he : ∀ k ∈ keys l, k < e.1) : Sorted (l ++ [e]) := by
  unfold Sorted
  rw [keys, List.map_append, List.pairwise_append]
  refine ⟨h, List.pairwise_singleton _ _, fun k hk k' hk' => ?_⟩
  rw [List.map_singleton, List.mem_singleton] at hk'
  subst hk'
  exact he k hk

/-- The last key of a sorted list is its largest. -/
theorem Sorted.le_last {l : List (κ × α)} {x : κ × α} (h : Sorted l) (hx : l.getLast? = some x) :
    ∀ k ∈ keys l, k ≤ x.1 := by
  have hsplit := List.dropLast_append_getLast? _ hx
  rw [← hsplit] at h ⊢
  unfold Sorted at h
  rw [keys, List.map_append, List.pairwise_append] at h
  intro k hk
  rw [keys, List.map_append, List.mem_append] at hk
  rcases hk with hk | hk
  · exact le_of_lt (h.2.2 k hk x.1 (by simp))
  · rw [List.map_singleton, List.mem_singleton] at hk
    rw [hk]

/-- Rewriting values and leaving the keys alone keeps a list sorted. -/
theorem Sorted.of_keys_eq {l l' : List (κ × α)} (h : Sorted l) (hk : keys l' = keys l) :
    Sorted l' := by
  unfold Sorted
  rw [hk]
  exact h

/-- Keys strictly increasing are distinct. -/
theorem Sorted.nodup_keys {l : List (κ × α)} (h : Sorted l) : (keys l).Nodup :=
  h.imp ne_of_lt

/-- An update of a key a sorted list has keeps its keys. -/
theorem Sorted.keys_alter_of_mem {k : κ} {f : Option α → α} :
    ∀ {l : List (κ × α)}, Sorted l → k ∈ keys l → keys (SortedMap.alter k f l) = keys l
  | [], _, hk => by simp at hk
  | e :: rest, h, hk => by
      obtain ⟨he, hs⟩ := List.pairwise_cons.mp h
      unfold SortedMap.alter
      split
      · next hlt =>
          -- a key below the head is below every key, so it is none of them
          rcases List.mem_cons.mp hk with heq | hk
          · exact absurd hlt (heq ▸ lt_irrefl k)
          · exact absurd (he k hk) (not_lt.mpr (le_of_lt hlt))
      · split
        · next heq => simp [heq]
        · next hne =>
            have hk' : k ∈ keys rest := by
              rcases List.mem_cons.mp hk with heq | hk
              · exact absurd heq hne
              · exact hk
            simp [Sorted.keys_alter_of_mem hs hk']

/-- An update of a key a list lacks adds the key. -/
theorem keys_alter_perm_of_not_mem {k : κ} {f : Option α → α} :
    ∀ {l : List (κ × α)}, k ∉ keys l → (keys (SortedMap.alter k f l)).Perm (k :: keys l)
  | [], _ => by simp [SortedMap.alter]
  | e :: rest, hk => by
      unfold SortedMap.alter
      split
      · simp
      · split
        · next heq => exact absurd (heq ▸ List.mem_cons_self) hk
        · have hk' : k ∉ keys rest := fun h => hk (List.mem_cons_of_mem _ h)
          simp only [keys_cons]
          exact ((keys_alter_perm_of_not_mem hk').cons e.1).trans (List.Perm.swap k e.1 (keys rest))

theorem keys_eraseKey (k : κ) (l : List (κ × α)) :
    keys (eraseKey k l) = (keys l).filter (· != k) := by
  simp [keys, eraseKey, List.filter_map, Function.comp_def]
  -- the two tests of a key against `k` are the same test
  congr

-- ============================================================ reading an updated map

/-- An update keeps the keys strictly increasing. -/
theorem Sorted.alter {k : κ} {f : Option α → α} :
    ∀ {l : List (κ × α)}, Sorted l → Sorted (SortedMap.alter k f l)
  | [], _ => by simp [SortedMap.alter, Sorted]
  | e :: rest, h => by
      obtain ⟨he, hs⟩ := List.pairwise_cons.mp h
      unfold SortedMap.alter
      split
      · next hlt =>
          refine List.pairwise_cons.mpr ⟨?_, h⟩
          intro z hz
          rcases List.mem_cons.mp hz with rfl | hz
          · exact hlt
          · exact lt_trans hlt (he z hz)
      · split
        · next heq =>
            refine List.pairwise_cons.mpr ⟨?_, hs⟩
            rw [heq]
            exact he
        · next hge hne =>
            have hlt : e.1 < k := lt_of_le_of_ne (not_lt.mp hge) (Ne.symm hne)
            refine List.pairwise_cons.mpr ⟨?_, Sorted.alter hs⟩
            intro z hz
            rcases mem_keys_alter hz with rfl | hz
            · exact hlt
            · exact he z hz

/-- A key below the first of a sorted list has no value in it. -/
theorem Sorted.lookup_eq_none_of_lt [DecidableEq κ] {k : κ} {e : κ × α} {rest : List (κ × α)}
    (h : Sorted (e :: rest)) (hk : k < e.1) : lookup k (e :: rest) = none := by
  obtain ⟨he, -⟩ := List.pairwise_cons.mp h
  apply lookup_eq_none_of_not_mem_keys
  intro hmem
  rcases List.mem_cons.mp hmem with heq | hmem
  · exact absurd hk (heq ▸ lt_irrefl k)
  · exact absurd (he k hmem) (not_lt.mpr (le_of_lt hk))

/-- In a sorted list an entry is the value of its key. -/
theorem Sorted.lookup_eq_some_of_mem [DecidableEq κ] {k : κ} {v : α} :
    ∀ {l : List (κ × α)}, Sorted l → (k, v) ∈ l → lookup k l = some v
  | e :: rest, h, hm => by
      obtain ⟨he, hs⟩ := List.pairwise_cons.mp h
      rcases List.mem_cons.mp hm with rfl | hm
      · simp [lookup]
      · have hne : e.1 ≠ k := fun heq =>
          absurd (he k (mem_keys.mpr ⟨v, hm⟩)) (heq ▸ lt_irrefl e.1)
        simp only [lookup, if_neg hne]
        exact Sorted.lookup_eq_some_of_mem hs hm

/-- In a sorted list a key with no value is not a key. -/
theorem Sorted.not_mem_keys_of_lookup_eq_none [DecidableEq κ] {k : κ} {l : List (κ × α)}
    (h : Sorted l) (hk : lookup k l = none) : k ∉ keys l := by
  intro hmem
  obtain ⟨v, hv⟩ := mem_keys.mp hmem
  rw [h.lookup_eq_some_of_mem hv] at hk
  cases hk

/-- An update leaves the other keys' values alone. -/
theorem lookup_alter_of_ne [DecidableEq κ] {k k' : κ} {f : Option α → α} (h : k' ≠ k) :
    ∀ {l : List (κ × α)}, lookup k' (SortedMap.alter k f l) = lookup k' l
  | [] => by simp [SortedMap.alter, lookup, Ne.symm h]
  | e :: rest => by
      unfold SortedMap.alter
      split
      · simp [lookup, Ne.symm h]
      · split
        · next heq =>
            have he : e.1 ≠ k' := heq ▸ Ne.symm h
            simp [lookup, Ne.symm h, he]
        · simp only [lookup]
          split
          · rfl
          · exact lookup_alter_of_ne h

/-- In a sorted list an update sets the key's value from its old one. -/
theorem Sorted.lookup_alter_self [DecidableEq κ] {k : κ} {f : Option α → α} :
    ∀ {l : List (κ × α)}, Sorted l → lookup k (SortedMap.alter k f l) = some (f (lookup k l))
  | [], _ => by simp [SortedMap.alter, lookup]
  | e :: rest, h => by
      obtain ⟨-, hs⟩ := List.pairwise_cons.mp h
      unfold SortedMap.alter
      split
      · next hlt =>
          rw [h.lookup_eq_none_of_lt hlt]
          simp [lookup]
      · split
        · next heq => simp [lookup, heq]
        · next hne =>
            have he : e.1 ≠ k := Ne.symm hne
            simp only [lookup, if_neg he]
            exact Sorted.lookup_alter_self hs

/-- In a sorted list, writing a key's own value back changes nothing. -/
theorem Sorted.alter_of_lookup_eq_some [DecidableEq κ] {k : κ} {v : α} :
    ∀ {l : List (κ × α)}, Sorted l → lookup k l = some v → SortedMap.alter k (fun _ => v) l = l
  | (k', v') :: rest, h, hk => by
      obtain ⟨-, hs⟩ := List.pairwise_cons.mp h
      unfold SortedMap.alter
      split
      · next hlt =>
          rw [h.lookup_eq_none_of_lt hlt] at hk
          cases hk
      · split
        · next heq =>
            subst heq
            simp only [lookup, ite_true, Option.some.injEq] at hk
            rw [hk]
        · next hne =>
            simp only [lookup, if_neg (Ne.symm hne)] at hk
            rw [Sorted.alter_of_lookup_eq_some hs hk]

/-- An update keeps the entries of the other keys. -/
theorem mem_alter_of_ne {k : κ} {f : Option α → α} {x : κ × α} (hne : x.1 ≠ k) :
    ∀ {l : List (κ × α)}, x ∈ l → x ∈ SortedMap.alter k f l
  | e :: rest, hx => by
      unfold SortedMap.alter
      split
      · exact List.mem_cons_of_mem _ hx
      · split
        · next heq =>
            rcases List.mem_cons.mp hx with rfl | hx
            · exact absurd heq.symm hne
            · exact List.mem_cons_of_mem _ hx
        · rcases List.mem_cons.mp hx with rfl | hx
          · exact List.mem_cons_self
          · exact List.mem_cons_of_mem _ (mem_alter_of_ne hne hx)

theorem lookup_eraseKey_of_ne [DecidableEq κ] {k k' : κ} (h : k' ≠ k) :
    ∀ {l : List (κ × α)}, lookup k' (eraseKey k l) = lookup k' l
  | [] => rfl
  | e :: rest => by
      have ih := lookup_eraseKey_of_ne (l := rest) h
      unfold eraseKey at ih ⊢
      rw [List.filter_cons]
      by_cases hek : e.1 = k
      · have he : e.1 ≠ k' := hek ▸ Ne.symm h
        rw [if_neg (by simp [hek])]
        simp only [lookup, if_neg he]
        exact ih
      · rw [if_pos (by simp [hek])]
        simp only [lookup]
        split
        · rfl
        · exact ih

-- ============================================================ maps to numbers

/-- A weight of the values of a sorted map, read back key by key, sums
as it does over the entries. -/
theorem Sorted.sum_map_lookup_keys [DecidableEq κ] (g : α → ℕ) :
    ∀ {l : List (κ × α)}, Sorted l →
      ((keys l).map fun k => ((lookup k l).map g).getD 0).sum = (l.map fun e => g e.2).sum
  | [], _ => rfl
  | e :: rest, h => by
      obtain ⟨he, hs⟩ := List.pairwise_cons.mp h
      -- past the head, every key reads the same in the tail
      have htail : ((keys rest).map fun k => ((lookup k (e :: rest)).map g).getD 0) =
          (keys rest).map fun k => ((lookup k rest).map g).getD 0 := by
        refine List.map_congr_left fun k hk => ?_
        have hne : e.1 ≠ k := ne_of_lt (he k hk)
        simp [lookup, hne]
      simp only [keys_cons, List.map_cons, List.sum_cons, htail, Sorted.sum_map_lookup_keys g hs]
      simp [lookup]

/-- The values of a sorted map, read back key by key, are its values. -/
theorem Sorted.sum_lookup_keys [DecidableEq κ] :
    ∀ {l : List (κ × ℕ)}, Sorted l → ((keys l).map fun k => (lookup k l).getD 0).sum = valSum l
  | [], _ => rfl
  | e :: rest, h => by
      obtain ⟨he, hs⟩ := List.pairwise_cons.mp h
      -- past the head, every key reads the same in the tail
      have htail : ((keys rest).map fun k => (lookup k (e :: rest)).getD 0) =
          (keys rest).map fun k => (lookup k rest).getD 0 := by
        refine List.map_congr_left fun k hk => ?_
        have hne : e.1 ≠ k := ne_of_lt (he k hk)
        simp [lookup, hne]
      simp only [keys_cons, List.map_cons, List.sum_cons, htail, Sorted.sum_lookup_keys hs,
        valSum_cons]
      simp [lookup]

/-- An update of a sorted map trades the key's old value for its new one. -/
theorem Sorted.valSum_alter [DecidableEq κ] {k : κ} {f : Option ℕ → ℕ} :
    ∀ {l : List (κ × ℕ)}, Sorted l →
      valSum (SortedMap.alter k f l) + (lookup k l).getD 0 = valSum l + f (lookup k l)
  | [], _ => by simp [SortedMap.alter, lookup]
  | e :: rest, h => by
      obtain ⟨-, hs⟩ := List.pairwise_cons.mp h
      unfold SortedMap.alter
      split
      · next hlt =>
          rw [h.lookup_eq_none_of_lt hlt]
          simp only [valSum_cons, Option.getD_none]
          omega
      · split
        · next heq =>
            simp only [valSum_cons, lookup, heq, if_true, Option.getD_some]
            omega
        · next hne =>
            have he : e.1 ≠ k := Ne.symm hne
            have ih := Sorted.valSum_alter (k := k) (f := f) hs
            simp only [valSum_cons, lookup, if_neg he]
            omega

/-- Erasing a key of a sorted map drops its value from the sum. -/
theorem Sorted.valSum_eraseKey [DecidableEq κ] {k : κ} :
    ∀ {l : List (κ × ℕ)}, Sorted l → valSum (SortedMap.eraseKey k l) + (lookup k l).getD 0 = valSum l
  | [], _ => rfl
  | e :: rest, h => by
      obtain ⟨he, hs⟩ := List.pairwise_cons.mp h
      have ih := Sorted.valSum_eraseKey (k := k) hs
      by_cases hek : e.1 = k
      · -- the key heads the list, and the rest does not have it
        have hrest : lookup k rest = none := by
          apply lookup_eq_none_of_not_mem_keys
          intro hk
          exact absurd (he k hk) (hek ▸ lt_irrefl e.1)
        have herase : SortedMap.eraseKey k rest = rest := by
          unfold SortedMap.eraseKey
          apply List.filter_eq_self.mpr
          intro x hx
          have hlt := he x.1 (mem_keys.mpr ⟨x.2, hx⟩)
          simp only [ne_eq, decide_eq_true_eq]
          intro hx'
          exact absurd hlt (hek ▸ hx' ▸ lt_irrefl _)
        have hcons : SortedMap.eraseKey k (e :: rest) = SortedMap.eraseKey k rest := by
          simp [SortedMap.eraseKey, hek]
        rw [hcons, herase]
        simp only [valSum_cons, lookup, hek, if_true, Option.getD_some]
        omega
      · have hcons : SortedMap.eraseKey k (e :: rest) = e :: SortedMap.eraseKey k rest := by
          simp [SortedMap.eraseKey, hek]
        rw [hcons]
        simp only [valSum_cons, lookup, if_neg hek]
        omega

end SortedMap
