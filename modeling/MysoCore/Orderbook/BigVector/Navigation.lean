/-
The navigation of a well-formed `BigVector` against its content
(orderbook/sources/helper/big_vector.move): looking a key up, finding the
keys around it, and walking the leaves both ways.

# Walks

A walk visits positions, a slice and an offset in it. `positions` lists
those of a run of leaves in order, one per entry. Along linked leaves,
`next_slice` takes each position to the next, stepping from the last
offset of a leaf to the first of the next one (`isChain_next`), and
`prev_slice` takes each back to the one before (`isChain_prev`); past
either end lies `(NO_SLICE, 0)`. So the walk from `min_slice` along
`next_slice` designates the contents one by one in order and then stops
at the null reference (`walk_next`), and the walk from `max_slice` along
`prev_slice` the contents reversed (`walk_prev`).

# Keys

`find_leaf` reaches the leaf whose fences hold the key, and the leaves
before and after it hold the keys below and above it
(`find_leaf_spec`). In that leaf `slice_bisect_left` cuts the keys at the
key, so the contents split into the entries below the key and those at or
above it (`contents_cut`): `slice_around` and `borrow` find the key
exactly when it is there, `slice_following` designates the first entry of
the upper part and `slice_before` the last of the lower one.
-/
import Mathlib
import MysoCore.Orderbook.BigVector

namespace MysoCore.Orderbook.big_vector

open Fence SortedMap ExceptFold

namespace BigVector

variable {E : Type} {self : BigVector E}

-- ================================================================ positions

/-- The positions of a leaf's entries. -/
def leafPositions (self : BigVector E) (lid : ℕ) : List (SliceRef × ℕ) :=
  (List.range (self.entriesOf lid).length).map fun off => (⟨lid⟩, off)

/-- The positions of the entries of a run of leaves, in order. -/
def positions (self : BigVector E) (ids : List ℕ) : List (SliceRef × ℕ) :=
  ids.flatMap self.leafPositions

/-- The null position `(NO_SLICE, 0)`. -/
def nullPos : SliceRef × ℕ := (⟨NO_SLICE⟩, 0)

/-- A leaf's positions, one per value. -/
theorem leafPositions_of_leaf {lid : ℕ} {slice : Slice E} {lo hi : Option ℕ}
    (hs : self.fields lid = some (.leaf slice)) (hfit : LeafFits slice lo hi) :
    ∃ m, slice.vals.length = m + 1 ∧
      self.leafPositions lid = (List.range (m + 1)).map fun off => (⟨lid⟩, off) := by
  obtain ⟨m, hm⟩ := Nat.exists_eq_succ_of_ne_zero
    (fun h0 => hfit.nonempty (List.eq_nil_of_length_eq_zero (hfit.length_eq.trans h0)))
  refine ⟨m, hm, ?_⟩
  rw [leafPositions, entriesOf_of_leaf hs, List.length_zip, ← hfit.length_eq, Nat.min_self,
    hfit.length_eq, hm]

/-- The positions of a run of non-null leaves designate their entries. -/
theorem entryAt_positions {ids : List ℕ} (hids : ∀ lid ∈ ids, lid ≠ NO_SLICE) :
    (self.positions ids).map self.entryAt = (ids.flatMap self.entriesOf).map some := by
  induction ids with
  | nil => rfl
  | cons lid ids ih =>
    rw [positions, List.flatMap_cons, List.flatMap_cons, List.map_append, List.map_append]
    rw [positions] at ih
    rw [ih fun l hl => hids l (List.mem_cons_of_mem _ hl)]
    congr 1
    apply List.ext_getElem (by simp [leafPositions])
    intro i h₁ h₂
    simp [leafPositions, entryAt, hids lid List.mem_cons_self]

-- ================================================================ steps in a leaf

section steps

variable {lid off m : ℕ} {slice : Slice E}

theorem next_slice_within (hs : self.fields lid = some (.leaf slice))
    (h : off + 1 < slice.vals.length) : self.next_slice ⟨lid⟩ off = .ok (⟨lid⟩, off + 1) := by
  simp [next_slice, borrow_slice, borrow_leaf_of hs, h]

theorem next_slice_last (hs : self.fields lid = some (.leaf slice))
    (h : slice.vals.length = m + 1) : self.next_slice ⟨lid⟩ m = .ok (⟨slice.next⟩, 0) := by
  simp [next_slice, borrow_slice, borrow_leaf_of hs, h, slice_next]

theorem prev_slice_within (hs : self.fields lid = some (.leaf slice)) (h : 0 < off) :
    self.prev_slice ⟨lid⟩ off = .ok (⟨lid⟩, off - 1) := by
  simp [prev_slice, borrow_slice, borrow_leaf_of hs, h]

theorem prev_slice_first_of_null (hs : self.fields lid = some (.leaf slice))
    (h : slice.prev = NO_SLICE) : self.prev_slice ⟨lid⟩ 0 = .ok nullPos := by
  simp [prev_slice, borrow_slice, borrow_leaf_of hs, slice_prev, slice_is_null, h, nullPos]

theorem prev_slice_first {prev : Slice E} (hs : self.fields lid = some (.leaf slice))
    (h : slice.prev ≠ NO_SLICE) (hp : self.fields slice.prev = some (.leaf prev))
    (hm : prev.vals.length = m + 1) : self.prev_slice ⟨lid⟩ 0 = .ok (⟨slice.prev⟩, m) := by
  simp [prev_slice, borrow_slice, borrow_leaf_of hs, slice_prev, slice_is_null, h,
    borrow_leaf_of hp, sub, hm]

end steps

-- ================================================================ walks

/-- Every leaf of a run is a leaf within some fences. -/
def Leaves (self : BigVector E) (ids : List ℕ) : Prop :=
  ∀ lid ∈ ids, ∃ slice lo hi, self.fields lid = some (.leaf slice) ∧ LeafFits slice lo hi

/-- A run of leaves starts at the first offset of its first leaf. -/
theorem head?_positions_cons {lid : ℕ} {ids : List ℕ} (hl : self.Leaves (lid :: ids)) :
    (self.positions (lid :: ids)).head? = some (⟨lid⟩, 0) := by
  obtain ⟨slice, lo, hi, hs, hfit⟩ := hl lid List.mem_cons_self
  obtain ⟨m, -, hpos⟩ := leafPositions_of_leaf hs hfit
  simp [positions, hpos, List.range_succ_eq_map]

/-- The first position of a run of leaves, the null one past its end. -/
theorem head?_positions {ids : List ℕ} (hl : self.Leaves ids) :
    (self.positions ids ++ [nullPos]).head? = some (ids.head?.elim nullPos fun lid => (⟨lid⟩, 0)) := by
  cases ids with
  | nil => rfl
  | cons lid ids =>
    rw [List.head?_append, head?_positions_cons hl]
    rfl

/-- Along linked leaves `next_slice` takes each position to the next, and
the last one to the null position. -/
theorem isChain_next : ∀ {prev : ℕ} {ids : List ℕ}, self.Linked prev ids → self.Leaves ids →
    (self.positions ids ++ [nullPos]).IsChain fun a b => self.next_slice a.1 a.2 = .ok b
  | _, [], _, _ => List.isChain_singleton _
  | _, lid :: ids, hL, hl => by
    obtain ⟨-, ⟨slice, hs, -, hnext⟩, hlinked⟩ := hL
    obtain ⟨slice', lo, hi, hs', hfit⟩ := hl lid List.mem_cons_self
    obtain rfl : slice' = slice := by simpa [hs] using hs'.symm
    obtain ⟨m, hm, hpos⟩ := leafPositions_of_leaf hs hfit
    have hrest := isChain_next hlinked fun l hl' => hl l (List.mem_cons_of_mem _ hl')
    rw [positions, List.flatMap_cons, List.append_assoc, List.isChain_append]
    refine ⟨?_, hrest, ?_⟩
    · -- within the leaf: one offset up
      rw [hpos, List.isChain_map, List.isChain_range_succ]
      exact fun o ho => next_slice_within hs (by omega)
    · -- from the last offset to the first position of the next leaf
      intro x hx y hy
      obtain rfl : x = (⟨lid⟩, m) := by
        rw [hpos, List.getLast?_map, List.getLast?_range] at hx
        simpa [eq_comm] using hx
      rw [← positions, head?_positions fun l hl' => hl l (List.mem_cons_of_mem _ hl'),
        Option.mem_def, Option.some.injEq] at hy
      subst hy
      rw [next_slice_last hs hm, hnext]
      cases ids <;> rfl

/-- Along linked leaves `prev_slice` takes each position back to the one
before it. -/
theorem isChain_prev : ∀ {prev : ℕ} {ids : List ℕ}, self.Linked prev ids → self.Leaves ids →
    (self.positions ids).IsChain fun a b => self.prev_slice b.1 b.2 = .ok a
  | _, [], _, _ => List.IsChain.nil
  | _, lid :: ids, hL, hl => by
    obtain ⟨hnull, ⟨slice, hs, -, -⟩, hlinked⟩ := hL
    obtain ⟨slice', lo, hi, hs', hfit⟩ := hl lid List.mem_cons_self
    obtain rfl : slice' = slice := by simpa [hs] using hs'.symm
    obtain ⟨m, hm, hpos⟩ := leafPositions_of_leaf hs hfit
    have hl' : self.Leaves ids := fun l hl' => hl l (List.mem_cons_of_mem _ hl')
    rw [positions, List.flatMap_cons, List.isChain_append]
    refine ⟨?_, isChain_prev hlinked hl', ?_⟩
    · -- within the leaf: one offset down
      rw [hpos, List.isChain_map, List.isChain_range_succ]
      exact fun o _ => prev_slice_within hs (Nat.succ_pos o)
    · -- from the first offset of the next leaf back to the last of this one
      intro x hx y hy
      obtain rfl : x = (⟨lid⟩, m) := by
        rw [hpos, List.getLast?_map, List.getLast?_range] at hx
        simpa [eq_comm] using hx
      cases ids with
      | nil => cases hy
      | cons l ids =>
        rw [← positions, head?_positions_cons hl', Option.mem_def, Option.some.injEq] at hy
        subst hy
        obtain ⟨-, ⟨next, hn, hprev, -⟩, -⟩ := hlinked
        rw [← hprev] at hs hnull
        exact hprev ▸ prev_slice_first hn hnull hs hm

/-- A walk along a chain of positions that designate a list, followed by
the null one: after `i` steps it designates the `i`-th entry, and after
all of them it is at the null position. -/
theorem walk_spec {step : SliceRef × ℕ → Except Failure (SliceRef × ℕ)} {P : List (SliceRef × ℕ)}
    {C : List (ℕ × E)} {start : SliceRef × ℕ} (hstart : (P ++ [nullPos]).head? = some start)
    (hchain : (P ++ [nullPos]).IsChain fun a b => step a = .ok b)
    (hmap : P.map self.entryAt = C.map some) :
    (∀ i (hi : i < C.length), ∃ pos, iterate step i start = .ok pos ∧ self.entryAt pos = some C[i]) ∧
      iterate step C.length start = .ok nullPos := by
  obtain ⟨tail, hL⟩ := List.head?_eq_some_iff.mp hstart
  have hlen : P.length = C.length := by simpa using congrArg List.length hmap
  -- the walk is at the `i`-th position of the chain
  have hit : ∀ i (hi : i < (P ++ [nullPos]).length), iterate step i start = .ok (P ++ [nullPos])[i] :=
    fun i hi => by
      rw [List.getElem_of_eq hL hi]
      exact iterate_of_isChain (hL ▸ hchain) i _
  refine ⟨fun i hi => ⟨_, hit i (by simp; omega), ?_⟩, ?_⟩
  · rw [List.getElem_append_left (by omega)]
    have := congrArg (·[i]?) hmap
    simp only [List.getElem?_map] at this
    rw [List.getElem?_eq_getElem (by omega), List.getElem?_eq_getElem hi] at this
    simpa using this
  · rw [hit C.length (by simp; omega)]
    simp [← hlen]

/-- The leaves of a linked run are not null. -/
theorem Linked.ne_null : ∀ {prev : ℕ} {ids : List ℕ}, self.Linked prev ids → ∀ lid ∈ ids, lid ≠ NO_SLICE
  | _, [], _ => by simp
  | _, lid :: ids, hL => by
    obtain ⟨hnull, -, hlinked⟩ := hL
    intro l hl
    rcases List.mem_cons.mp hl with rfl | hl
    · exact hnull
    · exact Linked.ne_null hlinked l hl

theorem contents_of_root (hroot : self.root_id ≠ NO_SLICE) :
    self.contents = (self.leafIds self.depth self.root_id).flatMap self.entriesOf := by
  simp [contents, hroot, entriesUnder]

/-- `min_slice` followed by `next_slice` a number of times. -/
def walkNext (self : BigVector E) (n : ℕ) : Except Failure (SliceRef × ℕ) :=
  self.min_slice >>= iterate (fun pos => self.next_slice pos.1 pos.2) n

/-- `max_slice` followed by `prev_slice` a number of times. -/
def walkPrev (self : BigVector E) (n : ℕ) : Except Failure (SliceRef × ℕ) :=
  self.max_slice >>= iterate (fun pos => self.prev_slice pos.1 pos.2) n

/-- From `min_slice`, `next_slice` visits the contents in increasing
order, one entry a step, and then returns the null reference. -/
theorem walk_next (h : self.WF) :
    (∀ i (hi : i < self.contents.length), ∃ pos, self.walkNext i = .ok pos ∧
      self.entryAt pos = some self.contents[i]) ∧
    self.walkNext self.contents.length = .ok nullPos := by
  unfold walkNext
  by_cases hroot : self.root_id = NO_SLICE
  · -- an empty vector: the walk starts and ends at the null reference
    have hmin : self.min_slice = .ok nullPos := by simp [min_slice, hroot, nullPos]
    have hmap : ([] : List (SliceRef × ℕ)).map self.entryAt = self.contents.map some := by
      simp [contents, hroot]
    rw [hmin, ok_bind]
    exact walk_spec rfl (List.isChain_singleton _) hmap
  · have hfits := h.fits hroot
    have hlinked := h.linked hroot
    have hleaves : self.Leaves (self.leafIds self.depth self.root_id) := leaf_of_mem_leafIds hfits
    obtain ⟨lid, rest, hids, hdesc⟩ := descend_first hfits
    obtain ⟨slice, -, -, hs, -⟩ := hleaves lid (by simp [hids])
    have hmin : self.min_slice = .ok (⟨lid⟩, 0) := by
      simp [min_slice, hroot, find_min_leaf, hdesc, borrow_leaf_of hs]
    rw [hmin, ok_bind]
    refine walk_spec ?_ (isChain_next hlinked hleaves) ?_
    · rw [head?_positions hleaves, hids]
      rfl
    · rw [entryAt_positions hlinked.ne_null, contents_of_root hroot]

/-- From `max_slice`, `prev_slice` visits the contents in decreasing
order, one entry a step, and then returns the null reference. -/
theorem walk_prev (h : self.WF) :
    (∀ i (hi : i < self.contents.reverse.length), ∃ pos, self.walkPrev i = .ok pos ∧
      self.entryAt pos = some self.contents.reverse[i]) ∧
    self.walkPrev self.contents.length = .ok nullPos := by
  unfold walkPrev
  by_cases hroot : self.root_id = NO_SLICE
  · have hmax : self.max_slice = .ok nullPos := by simp [max_slice, hroot, nullPos]
    have hmap : ([] : List (SliceRef × ℕ)).map self.entryAt = self.contents.reverse.map some := by
      simp [contents, hroot]
    rw [hmax, ok_bind]
    obtain ⟨hwalk, hend⟩ := walk_spec rfl (List.isChain_singleton _) hmap
    exact ⟨hwalk, by simpa using hend⟩
  · have hfits := h.fits hroot
    have hlinked := h.linked hroot
    have hleaves : self.Leaves (self.leafIds self.depth self.root_id) := leaf_of_mem_leafIds hfits
    -- the walk starts at the last offset of the last leaf
    obtain ⟨lid, init, hids, hdesc⟩ := descend_last hfits
    obtain ⟨slice, lo, hi, hs, hfit⟩ := hleaves lid (by simp [hids])
    obtain ⟨m, hm, hpos⟩ := leafPositions_of_leaf hs hfit
    have hmax : self.max_slice = .ok (⟨lid⟩, m) := by
      simp [max_slice, hroot, find_max_leaf, hdesc, borrow_leaf_of hs, sub, hfit.length_eq, hm]
    -- and ends past the first offset of the first leaf
    obtain ⟨first, rest, hids', -⟩ := descend_first hfits
    have hfirst : self.prev_slice ⟨first⟩ 0 = .ok nullPos := by
      rw [hids'] at hlinked
      obtain ⟨-, ⟨fslice, hfs, hprev, -⟩, -⟩ := hlinked
      exact prev_slice_first_of_null hfs hprev
    have hstart : ((self.positions (self.leafIds self.depth self.root_id)).reverse ++ [nullPos]).head? =
        some (⟨lid⟩, m) := by
      rw [List.head?_append, List.head?_reverse, hids, positions, List.flatMap_append,
        List.flatMap_singleton, List.getLast?_append, hpos, List.getLast?_map, List.getLast?_range]
      simp
    have hchain : ((self.positions (self.leafIds self.depth self.root_id)).reverse ++ [nullPos]).IsChain
        fun a b => self.prev_slice a.1 a.2 = .ok b := by
      rw [List.isChain_append]
      refine ⟨List.isChain_reverse.mpr (isChain_prev hlinked hleaves), List.isChain_singleton _, ?_⟩
      intro x hx y hy
      rw [List.getLast?_reverse, hids', head?_positions_cons (hids' ▸ hleaves), Option.mem_def,
        Option.some.injEq] at hx
      obtain rfl : y = nullPos := by simpa using hy.symm
      subst hx
      exact hfirst
    have hmap : (self.positions (self.leafIds self.depth self.root_id)).reverse.map self.entryAt =
        self.contents.reverse.map some := by
      rw [List.map_reverse, entryAt_positions hlinked.ne_null, contents_of_root hroot,
        List.map_reverse]
    rw [hmax, ok_bind]
    obtain ⟨hwalk, hend⟩ := walk_spec hstart hchain hmap
    exact ⟨hwalk, by simpa using hend⟩

-- ================================================================ keys

/-- The pointers around a leaf of a linked run: the leaf before it and
the leaf after it. -/
theorem Linked.split : ∀ {prev lid : ℕ} {pre post : List ℕ}, self.Linked prev (pre ++ lid :: post) →
    ∃ slice, self.fields lid = some (.leaf slice) ∧ slice.prev = pre.getLast?.getD prev ∧
      slice.next = post.head?.getD NO_SLICE
  | _, _, [], _, hL => by
    obtain ⟨-, ⟨slice, hs, hprev, hnext⟩, -⟩ := hL
    exact ⟨slice, hs, hprev, hnext⟩
  | _, _, l :: pre, _, hL => by
    obtain ⟨-, -, hlinked⟩ := hL
    obtain ⟨slice, hs, hprev, hnext⟩ := Linked.split hlinked
    refine ⟨slice, hs, ?_, hnext⟩
    rw [hprev, List.getLast?_cons, Option.getD_some]

/-- In a leaf, `slice_bisect_left` cuts the keys at `key`: those before
the offset are below it, those from it on at or above it. -/
theorem bisect_left_cut {slice : Slice E} {lo hi : Option ℕ} (hfit : LeafFits slice lo hi) (k : ℕ) :
    slice_bisect_left slice k ≤ slice.keys.length ∧
    (∀ x ∈ slice.keys.take (slice_bisect_left slice k), x < k) ∧
    ∀ x ∈ slice.keys.drop (slice_bisect_left slice k), k ≤ x := by
  have hmono : slice.keys.Pairwise fun x y => decide (k ≤ x) = true → decide (k ≤ y) = true :=
    hfit.sorted.imp fun hxy hx => by
      simp only [decide_eq_true_eq] at hx ⊢
      exact le_trans hx (le_of_lt hxy)
  have hpp := partitionPoint_spec hmono
  obtain ⟨h₁, h₂⟩ := hpp.take_drop
  exact ⟨hpp.1, fun x hx => by simpa using h₁ x hx, fun x hx => by simpa using h₂ x hx⟩

/-- A key is in a leaf exactly when `slice_bisect_left` lands on it. -/
theorem mem_keys_iff_bisect_left {slice : Slice E} {lo hi : Option ℕ} (hfit : LeafFits slice lo hi)
    (k : ℕ) : k ∈ slice.keys ↔
      ∃ h : slice_bisect_left slice k < slice.keys.length, slice.keys[slice_bisect_left slice k] = k := by
  obtain ⟨hle, hlow, hup⟩ := bisect_left_cut hfit k
  constructor
  · intro hk
    -- not among the keys below it, so among those from the offset on
    have hdrop : k ∈ slice.keys.drop (slice_bisect_left slice k) := by
      rw [← List.take_append_drop (slice_bisect_left slice k) slice.keys, List.mem_append] at hk
      exact hk.resolve_left fun hk' => lt_irrefl k (hlow k hk')
    have hlt : slice_bisect_left slice k < slice.keys.length := by
      by_contra hge
      rw [List.drop_of_length_le (by omega)] at hdrop
      cases hdrop
    -- the key at the offset is the least from it on, and at least `k`
    have hsorted : (slice.keys.drop (slice_bisect_left slice k)).Pairwise (· < ·) := hfit.sorted.drop
    rw [List.drop_eq_getElem_cons hlt] at hdrop hsorted hup
    rcases List.mem_cons.mp hdrop with heq | hmem
    · exact ⟨hlt, heq.symm⟩
    · have h₁ := (List.pairwise_cons.mp hsorted).1 k hmem
      have h₂ := hup _ List.mem_cons_self
      omega
  · rintro ⟨hlt, hk⟩
    exact hk ▸ List.getElem_mem hlt

/-- In a leaf, the entries before the offset `slice_bisect_left` finds
are below the key, those from it on at or above it. -/
theorem entries_cut {lid : ℕ} {slice : Slice E} {lo hi : Option ℕ}
    (hs : self.fields lid = some (.leaf slice)) (hfit : LeafFits slice lo hi) (k : ℕ) :
    (∀ e ∈ (self.entriesOf lid).take (slice_bisect_left slice k), e.1 < k) ∧
    ∀ e ∈ (self.entriesOf lid).drop (slice_bisect_left slice k), k ≤ e.1 := by
  obtain ⟨-, hlow, hup⟩ := bisect_left_cut hfit k
  rw [entriesOf_of_leaf hs]
  refine ⟨fun e he => hlow e.1 ?_, fun e he => hup e.1 ?_⟩
  · rw [← keys_zip hfit, keys, ← List.map_take]
    exact List.mem_map_of_mem he
  · rw [← keys_zip hfit, keys, ← List.map_drop]
    exact List.mem_map_of_mem he

theorem entriesOf_ne_nil {lid : ℕ} {slice : Slice E} {lo hi : Option ℕ}
    (hs : self.fields lid = some (.leaf slice)) (hfit : LeafFits slice lo hi) :
    self.entriesOf lid ≠ [] := fun h0 =>
  hfit.nonempty (by rw [← keys_zip hfit, ← entriesOf_of_leaf hs, h0]; rfl)

theorem length_entriesOf {lid : ℕ} {slice : Slice E} {lo hi : Option ℕ}
    (hs : self.fields lid = some (.leaf slice)) (hfit : LeafFits slice lo hi) :
    (self.entriesOf lid).length = slice.keys.length := by
  rw [entriesOf_of_leaf hs, List.length_zip, hfit.length_eq, Nat.min_self]

/-- An entry of a leaf at an offset: its key, and the value
`slice_borrow` reads there. -/
theorem getElem?_entriesOf {lid off : ℕ} {slice : Slice E} {lo hi : Option ℕ}
    (hs : self.fields lid = some (.leaf slice)) (hfit : LeafFits slice lo hi)
    (hoff : off < slice.keys.length) :
    ∃ v, (self.entriesOf lid)[off]? = some (slice.keys[off], v) ∧ slice_borrow slice off = .ok v := by
  have hv : off < slice.vals.length := hfit.length_eq ▸ hoff
  refine ⟨slice.vals[off], ?_, index_of_lt hv⟩
  rw [entriesOf_of_leaf hs, List.getElem?_zip_eq_some]
  exact ⟨List.getElem?_eq_getElem hoff, List.getElem?_eq_getElem hv⟩

/-- The first entry of a run of leaves is at offset 0 of its first leaf,
or there is none and the reference is null. -/
theorem entryAt_first {ids : List ℕ} (hl : self.Leaves ids) (hne : ∀ lid ∈ ids, lid ≠ NO_SLICE) :
    self.entryAt (⟨ids.head?.getD NO_SLICE⟩, 0) = (ids.flatMap self.entriesOf).head? := by
  cases ids with
  | nil => simp [entryAt]
  | cons lid ids =>
    obtain ⟨slice, lo, hi, hs, hfit⟩ := hl lid List.mem_cons_self
    rw [List.flatMap_cons, List.head?_append_of_ne_nil _ (entriesOf_ne_nil hs hfit)]
    simp [entryAt, hne lid List.mem_cons_self]
    exact List.head?_eq_getElem?.symm

/-- The last entry of a run of leaves is at the last offset of its last
leaf. -/
theorem entryAt_last {ids : List ℕ} {lid : ℕ} {slice : Slice E} (hl : self.Leaves ids)
    (hne : ∀ lid ∈ ids, lid ≠ NO_SLICE) (hlast : ids.getLast? = some lid)
    (hs : self.fields lid = some (.leaf slice)) :
    self.entryAt (⟨lid⟩, slice.keys.length - 1) = (ids.flatMap self.entriesOf).getLast? := by
  obtain ⟨init, rfl⟩ := List.getLast?_eq_some_iff.mp hlast
  have hmem : lid ∈ init ++ [lid] := by simp
  obtain ⟨slice', lo, hi, hs', hfit⟩ := hl lid hmem
  obtain rfl : slice' = slice := by simpa [hs] using hs'.symm
  rw [List.flatMap_append, List.flatMap_singleton,
    List.getLast?_append_of_ne_nil _ (entriesOf_ne_nil hs hfit), List.getLast?_eq_getElem?,
    length_entriesOf hs hfit]
  simp [entryAt, hne lid hmem]

/-- `find_leaf` descends to the leaf of the key: the leaves before it hold
smaller keys, the leaves after it larger ones. -/
theorem find_leaf_spec (h : self.WF) (hroot : self.root_id ≠ NO_SLICE) (k : ℕ) :
    ∃ pre lid post slice lo hi, self.leafIds self.depth self.root_id = pre ++ lid :: post ∧
      self.find_leaf k = .ok (lid, slice, slice_bisect_left slice k) ∧
      self.fields lid = some (.leaf slice) ∧ LeafFits slice lo hi ∧
      (∀ e ∈ pre.flatMap self.entriesOf, e.1 < k) ∧ ∀ e ∈ post.flatMap self.entriesOf, k < e.1 := by
  obtain ⟨pre, lid, post, slice, hids, hdesc, hs, ⟨lo, hi, hfit⟩, hpre, hpost⟩ :=
    descend_bisect_right (h.fits hroot) (above_none k) (below_none k)
  refine ⟨pre, lid, post, slice, lo, hi, hids, ?_, hs, hfit, hpre, hpost⟩
  simp [find_leaf, hdesc, borrow_leaf_of hs]

/-- The content around the leaf `find_leaf` reaches, cut at an offset in
it. -/
theorem contents_cut {pre post : List ℕ} {lid : ℕ} (hroot : self.root_id ≠ NO_SLICE)
    (hids : self.leafIds self.depth self.root_id = pre ++ lid :: post) (off : ℕ) :
    self.contents = (pre.flatMap self.entriesOf ++ (self.entriesOf lid).take off) ++
      ((self.entriesOf lid).drop off ++ post.flatMap self.entriesOf) := by
  rw [contents_of_root hroot, hids, List.flatMap_append, List.flatMap_cons, List.append_assoc,
    ← List.append_assoc (List.take _ _), List.take_append_drop]

theorem flatMap_entriesOf_eq_nil {ids : List ℕ} (hl : self.Leaves ids) :
    ids.flatMap self.entriesOf = [] ↔ ids = [] := by
  refine ⟨fun h0 => ?_, fun h0 => by rw [h0]; rfl⟩
  cases ids with
  | nil => rfl
  | cons lid ids =>
    obtain ⟨slice, lo, hi, hs, hfit⟩ := hl lid List.mem_cons_self
    exact absurd (List.flatMap_eq_nil_iff.mp h0 lid List.mem_cons_self) (entriesOf_ne_nil hs hfit)

/-- The keys of the content increase. -/
theorem contents_sorted (h : self.WF) : Sorted self.contents := by
  by_cases hroot : self.root_id = NO_SLICE
  · simp [contents, hroot, Sorted, keys]
  · rw [contents, if_neg hroot]
    exact (fits_entries (h.fits hroot)).2.1

-- ================================================================ searches

/-- For a key of the content, `slice_around` reaches its entry and
`borrow` its value. -/
theorem slice_around_of_mem (h : self.WF) {k : ℕ} {v : E} (hkv : (k, v) ∈ self.contents) :
    (∃ pos, self.slice_around k = .ok pos ∧ self.entryAt pos = some (k, v)) ∧
      self.borrow k = .ok v := by
  have hroot : self.root_id ≠ NO_SLICE := by
    rintro hroot
    simp [contents, hroot] at hkv
  obtain ⟨pre, lid, post, slice, lo, hi, hids, hfind, hs, hfit, hpre, hpost⟩ :=
    find_leaf_spec h hroot k
  -- the entry is neither before the leaf nor after it
  have hleaf : (k, v) ∈ self.entriesOf lid := by
    rw [contents_of_root hroot, hids, List.flatMap_append, List.flatMap_cons] at hkv
    rcases List.mem_append.mp hkv with hkv | hkv
    · exact absurd (hpre _ hkv) (lt_irrefl k)
    rcases List.mem_append.mp hkv with hkv | hkv
    · exact hkv
    · exact absurd (hpost _ hkv) (lt_irrefl k)
  have hk : k ∈ slice.keys := by
    rw [← keys_zip hfit, ← entriesOf_of_leaf hs]
    exact mem_keys.mpr ⟨v, hleaf⟩
  obtain ⟨hlt, hkey⟩ := (mem_keys_iff_bisect_left hfit k).mp hk
  obtain ⟨v', hget, hborrow⟩ := getElem?_entriesOf hs hfit hlt
  rw [hkey] at hget
  -- the keys of the content are distinct, so the value there is `v`
  obtain rfl : v' = v := by
    have hmem : (k, v') ∈ self.contents := by
      rw [contents_of_root hroot, hids]
      exact List.mem_flatMap.mpr ⟨lid, by simp, List.mem_of_getElem? hget⟩
    have hsorted := contents_sorted h
    simpa using (hsorted.lookup_eq_some_of_mem hmem).symm.trans (hsorted.lookup_eq_some_of_mem hkv)
  have hne : lid ≠ NO_SLICE := (h.linked hroot).ne_null lid (by simp [hids])
  have haround : self.slice_around k = .ok (⟨lid⟩, slice_bisect_left slice k) := by
    simp [slice_around, hroot, hfind, not_le.mpr hlt, hkey]
  refine ⟨⟨_, haround, by simp [entryAt, hne, hget]⟩, ?_⟩
  simp [borrow, haround, borrow_slice, borrow_leaf_of hs, hborrow]

/-- For any other key both abort with `ENotFound`. -/
theorem slice_around_of_not_mem (h : self.WF) {k : ℕ} (hk : k ∉ keys self.contents) :
    self.slice_around k = .error .ENotFound ∧ self.borrow k = .error .ENotFound := by
  have haround : self.slice_around k = .error .ENotFound := by
    by_cases hroot : self.root_id = NO_SLICE
    · simp [slice_around, hroot]
    obtain ⟨pre, lid, post, slice, lo, hi, hids, hfind, hs, hfit, -, -⟩ := find_leaf_spec h hroot k
    -- the leaf's keys are keys of the content
    have hk' : k ∉ slice.keys := fun hk' => hk <| by
      rw [← keys_zip hfit, ← entriesOf_of_leaf hs] at hk'
      obtain ⟨v, hv⟩ := mem_keys.mp hk'
      rw [contents_of_root hroot, hids]
      exact mem_keys.mpr ⟨v, List.mem_flatMap.mpr ⟨lid, by simp, hv⟩⟩
    simp only [slice_around, hroot, hfind, if_false, ok_bind]
    split_ifs with hend hkey
    · rfl
    · rfl
    · exact absurd (not_not.mp hkey ▸ List.getElem_mem _) hk'
  exact ⟨haround, by simp [borrow, haround]⟩

/-- `slice_following` designates the first entry at or above the key, and
the null position when there is none. -/
theorem slice_following_spec (h : self.WF) (k : ℕ) :
    ∃ pos, self.slice_following k = .ok pos ∧
      self.entryAt pos = self.contents.find? (fun e => decide (k ≤ e.1)) ∧
      (self.contents.find? (fun e => decide (k ≤ e.1)) = none → pos = nullPos) := by
  by_cases hroot : self.root_id = NO_SLICE
  · refine ⟨nullPos, by simp [slice_following, hroot, nullPos], ?_, fun _ => rfl⟩
    simp [contents, hroot, entryAt, nullPos]
  obtain ⟨pre, lid, post, slice, lo, hi, hids, hfind, hs, hfit, hpre, hpost⟩ :=
    find_leaf_spec h hroot k
  obtain ⟨hlow, hup⟩ := entries_cut hs hfit k
  have hlinked := h.linked hroot
  have hleaves : self.Leaves (self.leafIds self.depth self.root_id) :=
    leaf_of_mem_leafIds (h.fits hroot)
  rw [hids] at hlinked hleaves
  -- the first entry at or above the key is the first from the offset on
  have hfound : self.contents.find? (fun e => decide (k ≤ e.1)) =
      ((self.entriesOf lid).drop (slice_bisect_left slice k) ++ post.flatMap self.entriesOf).head? := by
    rw [contents_cut hroot hids (slice_bisect_left slice k)]
    refine find?_append_of_cut (fun e he => ?_) (fun e he => ?_)
    · rcases List.mem_append.mp he with he | he
      · simpa using hpre e he
      · simpa using hlow e he
    · rcases List.mem_append.mp he with he | he
      · simpa using hup e he
      · simpa using (hpost e he).le
  rw [hfound]
  by_cases hend : slice.keys.length ≤ slice_bisect_left slice k
  · -- past the last key of the leaf: the first entry of the next one
    obtain ⟨slice', hs', -, hnext⟩ := Linked.split hlinked
    rw [show slice' = slice by simpa [hs] using hs'.symm] at hnext
    have hdrop : (self.entriesOf lid).drop (slice_bisect_left slice k) = [] :=
      List.drop_eq_nil_of_le (by rw [length_entriesOf hs hfit]; exact hend)
    have hpost_leaves : self.Leaves post := fun p hp => hleaves p (by simp [hp])
    refine ⟨(⟨slice.next⟩, 0), by simp [slice_following, hroot, hfind, hend, slice_next], ?_, ?_⟩
    · rw [hdrop, List.nil_append, hnext]
      exact entryAt_first hpost_leaves fun p hp => hlinked.ne_null p (by simp [hp])
    · intro hnone
      rw [hdrop, List.nil_append, List.head?_eq_none_iff,
        flatMap_entriesOf_eq_nil hpost_leaves] at hnone
      rw [hnext, hnone]
      rfl
  · -- the entry at the offset
    have hne : lid ≠ NO_SLICE := hlinked.ne_null lid (by simp)
    have hdrop : (self.entriesOf lid).drop (slice_bisect_left slice k) ≠ [] := by
      rw [ne_eq, List.drop_eq_nil_iff, length_entriesOf hs hfit]
      exact hend
    refine ⟨(⟨lid⟩, slice_bisect_left slice k), by simp [slice_following, hroot, hfind, hend], ?_,
      fun hnone => ?_⟩
    · rw [List.head?_append_of_ne_nil _ hdrop, List.head?_drop]
      simp [entryAt, hne]
    · rw [List.head?_append_of_ne_nil _ hdrop, List.head?_eq_none_iff] at hnone
      exact absurd hnone hdrop

/-- `slice_before` designates the last entry below the key, and the null
position when there is none. -/
theorem slice_before_spec (h : self.WF) (k : ℕ) :
    ∃ pos, self.slice_before k = .ok pos ∧
      self.entryAt pos = (self.contents.filter fun e => decide (e.1 < k)).getLast? ∧
      ((self.contents.filter fun e => decide (e.1 < k)).getLast? = none → pos = nullPos) := by
  by_cases hroot : self.root_id = NO_SLICE
  · refine ⟨nullPos, by simp [slice_before, hroot, nullPos], ?_, fun _ => rfl⟩
    simp [contents, hroot, entryAt, nullPos]
  obtain ⟨pre, lid, post, slice, lo, hi, hids, hfind, hs, hfit, hpre, hpost⟩ :=
    find_leaf_spec h hroot k
  obtain ⟨hlow, hup⟩ := entries_cut hs hfit k
  have hlinked := h.linked hroot
  have hleaves : self.Leaves (self.leafIds self.depth self.root_id) :=
    leaf_of_mem_leafIds (h.fits hroot)
  rw [hids] at hlinked hleaves
  -- the entries below the key are those before the offset
  have hbelow : (self.contents.filter fun e => decide (e.1 < k)) =
      pre.flatMap self.entriesOf ++ (self.entriesOf lid).take (slice_bisect_left slice k) := by
    rw [contents_cut hroot hids (slice_bisect_left slice k)]
    refine filter_append_of_cut (fun e he => ?_) (fun e he => ?_)
    · rcases List.mem_append.mp he with he | he
      · simpa using hpre e he
      · simpa using hlow e he
    · rcases List.mem_append.mp he with he | he
      · simpa using hup e he
      · simpa using (hpost e he).le
  rw [hbelow]
  by_cases hoff : slice_bisect_left slice k = 0
  · -- at the first key of the leaf: the last entry of the leaf before
    obtain ⟨slice', hs', hprev, -⟩ := Linked.split hlinked
    rw [show slice' = slice by simpa [hs] using hs'.symm] at hprev
    have hpre_leaves : self.Leaves pre := fun p hp => hleaves p (by simp [hp])
    rw [hoff, List.take_zero, List.append_nil]
    cases hlast : pre.getLast? with
    | none =>
      obtain rfl : pre = [] := List.getLast?_eq_none_iff.mp hlast
      refine ⟨nullPos, ?_, by simp [entryAt, nullPos], fun _ => rfl⟩
      simp [slice_before, hroot, hfind, hoff, slice_prev, slice_is_null, hprev, nullPos]
    | some p =>
      have hp : p ∈ pre := List.mem_of_getLast? hlast
      have hpne : p ≠ NO_SLICE := hlinked.ne_null p (by simp [hp])
      obtain ⟨sp, lo', hi', hsp, hfitp⟩ := hpre_leaves p hp
      have hlen : 1 ≤ sp.keys.length := List.length_pos_of_ne_nil hfitp.nonempty
      rw [hlast, Option.getD_some] at hprev
      refine ⟨(⟨p⟩, sp.keys.length - 1), ?_,
        entryAt_last hpre_leaves (fun l hl => hlinked.ne_null l (by simp [hl])) hlast hsp,
        fun hnone => ?_⟩
      · simp [slice_before, hroot, hfind, hoff, slice_prev, slice_is_null, hprev, hpne,
          borrow_slice, borrow_leaf_of hsp, sub, hlen]
      · rw [List.getLast?_eq_none_iff, flatMap_entriesOf_eq_nil hpre_leaves] at hnone
        simp [hnone] at hp
  · -- inside the leaf: the entry just before the offset
    have hne : lid ≠ NO_SLICE := hlinked.ne_null lid (by simp)
    have hle := (bisect_left_cut hfit k).1
    have hlt : slice_bisect_left slice k - 1 < (self.entriesOf lid).length := by
      rw [length_entriesOf hs hfit]
      omega
    have htake : (self.entriesOf lid).take (slice_bisect_left slice k) ≠ [] := by
      simp [List.take_eq_nil_iff, hoff, entriesOf_ne_nil hs hfit]
    refine ⟨(⟨lid⟩, slice_bisect_left slice k - 1), by simp [slice_before, hroot, hfind, hoff], ?_,
      fun hnone => ?_⟩
    · rw [List.getLast?_append_of_ne_nil _ htake, List.getLast?_take, if_neg hoff,
        List.getElem?_eq_getElem hlt, Option.some_or]
      simp [entryAt, hne]
    · rw [List.getLast?_append_of_ne_nil _ htake, List.getLast?_eq_none_iff] at hnone
      exact absurd hnone htake

-- ================================================================ navigation

/-- Navigation follows the order of the keys: the content is sorted,
`borrow` and `slice_around` succeed exactly on its keys and reach their
entries, the walks from `min_slice` and `max_slice` visit it in order and
in reverse and then stop at the null position, and `slice_following` and
`slice_before` designate the nearest entries at or above and below a key. -/
theorem navigation_follows_key_order (h : self.WF) :
    Sorted self.contents ∧
    (∀ k v, (k, v) ∈ self.contents → self.borrow k = .ok v ∧
      ∃ pos, self.slice_around k = .ok pos ∧ self.entryAt pos = some (k, v)) ∧
    (∀ k, k ∉ keys self.contents →
      self.borrow k = .error .ENotFound ∧ self.slice_around k = .error .ENotFound) ∧
    ((∀ i (hi : i < self.contents.length), ∃ pos, self.walkNext i = .ok pos ∧
        self.entryAt pos = some self.contents[i]) ∧
      self.walkNext self.contents.length = .ok nullPos) ∧
    ((∀ i (hi : i < self.contents.reverse.length), ∃ pos, self.walkPrev i = .ok pos ∧
        self.entryAt pos = some self.contents.reverse[i]) ∧
      self.walkPrev self.contents.length = .ok nullPos) ∧
    (∀ k, ∃ pos, self.slice_following k = .ok pos ∧
      self.entryAt pos = self.contents.find? (fun e => decide (k ≤ e.1)) ∧
      (self.contents.find? (fun e => decide (k ≤ e.1)) = none → pos = nullPos)) ∧
    ∀ k, ∃ pos, self.slice_before k = .ok pos ∧
      self.entryAt pos = (self.contents.filter fun e => decide (e.1 < k)).getLast? ∧
      ((self.contents.filter fun e => decide (e.1 < k)).getLast? = none → pos = nullPos) := by
  refine ⟨contents_sorted h, fun k v hkv => ?_, fun k hk => ?_, walk_next h, walk_prev h,
    slice_following_spec h, slice_before_spec h⟩
  · obtain ⟨haround, hborrow⟩ := slice_around_of_mem h hkv
    exact ⟨hborrow, haround⟩
  · obtain ⟨haround, hborrow⟩ := slice_around_of_not_mem h hk
    exact ⟨hborrow, haround⟩

/-- A vector of depth 1: the root 1 over the leaf 2, keys 1 and 3, and the
leaf 3, keys 5 and 8, split at the pivot 5. -/
def twoLeaves : BigVector ℕ where
  depth := 1
  root_id := 1
  fields id :=
    if id = 1 then some (.node ⟨0, 0, [5], [2, 3]⟩)
    else if id = 2 then some (.leaf ⟨0, 3, [1, 3], [10, 30]⟩)
    else if id = 3 then some (.leaf ⟨2, 0, [5, 8], [50, 80]⟩)
    else none

theorem twoLeaves_wf : twoLeaves.WF where
  fits _ := ⟨_, rfl, .cons ⟨_, rfl, ⟨by simp, rfl, by decide, by simp⟩⟩
    (.last ⟨_, rfl, ⟨by simp, rfl, by decide, by simp⟩⟩)⟩
  linked _ := ⟨by decide, ⟨_, rfl, rfl, rfl⟩, by decide, ⟨_, rfl, rfl, rfl⟩, trivial⟩

theorem navigation_two_leaves :
    twoLeaves.WF ∧ twoLeaves.borrow 5 = .ok 50 ∧ twoLeaves.slice_around 4 = .error .ENotFound ∧
      twoLeaves.walkNext 4 = .ok nullPos := by
  have hcontents : twoLeaves.contents = [(1, 10), (3, 30), (5, 50), (8, 80)] := rfl
  obtain ⟨-, hmem, hnot, ⟨-, hend⟩, -⟩ := navigation_follows_key_order twoLeaves_wf
  refine ⟨twoLeaves_wf, (hmem 5 50 (by rw [hcontents]; decide)).1,
    (hnot 4 (by rw [hcontents]; decide)).2, ?_⟩
  rwa [hcontents] at hend

end BigVector

end MysoCore.Orderbook.big_vector
