/-
The B+ tree of `BigVector` (orderbook/sources/helper/big_vector.move) and
the functions that find a key or walk its leaves.

# The model

A `BigVector` holds its nodes as dynamic fields keyed by slice ID: a leaf
is a `Slice E` whose keys and values pair up, an interior node a
`Slice ℕ` whose values are the IDs of its children and whose keys are the
pivots between them. A field is tagged with its kind, so borrowing a node
as the wrong one fails as `df::borrow` does. Each function returns
`Except Failure`: the module's `ENotFound`, or a failure of the Move
runtime (a missing field, an index past the end of a vector, an unsigned
subtraction below zero). The length, the size limits and the last
allocated ID are not read by these functions and are left out.

The descent of `find_leaf`, `find_min_leaf` and `find_max_leaf` is one
loop, `descend`, over the depth, each picking its child by its own offset:
`slice_bisect_right` of the key, the first child or the last. The binary
searches are `Fence.partitionPoint` of `key <= k` and `key < k`.

# The invariant

`Fits d id lo hi`: the node `id` is the root of a tree of depth `d` whose
keys lie within the fences `lo` and `hi`; a leaf is not empty, its keys
increase and pair up with its values, and an interior node's children are
`Fenced` by its pivots. `Linked` says the leaves, read left to right
(`leafIds`), are chained by their `prev` and `next` pointers, ending at
`NO_SLICE` on both sides. `WF` asks both of a non-empty vector; `contents`
is what it holds, the entries of its leaves in order.

# Descents

Over a fitting tree the contents are sorted within the fences
(`fits_entries`), the descent by `slice_bisect_right` reaches the leaf
whose fences hold the key, with every key of the leaves before it below
the key and every key after it above (`descend_bisect_right`), and the
descents to the first and the last child reach the first and the last
leaf (`descend_first`, `descend_last`).
-/
import MysoCore.Lib.ExceptFold
import MysoCore.Lib.Fence
import MysoCore.Lib.SortedMap

namespace MysoCore.Orderbook.big_vector

open Fence SortedMap

/-- `NO_SLICE`: the ID of no slice. -/
def NO_SLICE : ℕ := 0

/-- `Slice`: a node, with its neighbours at its level. -/
structure Slice (E : Type) where
  prev : ℕ
  next : ℕ
  keys : List ℕ
  vals : List E

/-- `SliceRef`. -/
structure SliceRef where
  ix : ℕ
  deriving DecidableEq

/-- A dynamic field of a `BigVector`: a leaf or an interior node. -/
inductive Field (E : Type) where
  | leaf (slice : Slice E)
  | node (slice : Slice ℕ)

/-- Why a call aborts: the module's `ENotFound`, or the Move runtime. -/
inductive Failure where
  | ENotFound
  | EFieldDoesNotExist
  | EFieldTypeMismatch
  | INDEX_OUT_OF_BOUNDS
  | ARITHMETIC_ERROR
  deriving DecidableEq, Repr

/-- `BigVector`, with what its navigation reads: the depth, the root and
the dynamic fields. -/
structure BigVector (E : Type) where
  depth : ℕ
  root_id : ℕ
  fields : ℕ → Option (Field E)

variable {E : Type}

-- ================================================================ the source

/-- `v[i]` on a Move vector: aborts past the end. -/
def index {α : Type} (v : List α) (i : ℕ) : Except Failure α :=
  match v[i]? with
  | some x => .ok x
  | none => .error .INDEX_OUT_OF_BOUNDS

/-- `a - b` on Move integers: aborts below zero. -/
def sub (a b : ℕ) : Except Failure ℕ :=
  if b ≤ a then .ok (a - b) else .error .ARITHMETIC_ERROR

/-- `slice_is_null`. -/
def slice_is_null (self : SliceRef) : Bool := self.ix = NO_SLICE

/-- `slice_next`. -/
def slice_next (self : Slice E) : SliceRef := ⟨self.next⟩

/-- `slice_prev`. -/
def slice_prev (self : Slice E) : SliceRef := ⟨self.prev⟩

/-- `slice_borrow`. -/
def slice_borrow (self : Slice E) (ix : ℕ) : Except Failure E := index self.vals ix

/-- `slice_bisect_left`: the first offset whose key is at least `key`. -/
def slice_bisect_left (self : Slice E) (key : ℕ) : ℕ :=
  partitionPoint (fun k => decide (key ≤ k)) self.keys

/-- `slice_bisect_right`: the first offset whose key is above `key`. -/
def slice_bisect_right (self : Slice E) (key : ℕ) : ℕ :=
  partitionPoint (fun k => decide (key < k)) self.keys

namespace BigVector

/-- `df::borrow` of a leaf. -/
def borrow_leaf (self : BigVector E) (slice_id : ℕ) : Except Failure (Slice E) :=
  match self.fields slice_id with
  | some (.leaf slice) => .ok slice
  | some (.node _) => .error .EFieldTypeMismatch
  | none => .error .EFieldDoesNotExist

/-- `df::borrow` of an interior node. -/
def borrow_node (self : BigVector E) (slice_id : ℕ) : Except Failure (Slice ℕ) :=
  match self.fields slice_id with
  | some (.node slice) => .ok slice
  | some (.leaf _) => .error .EFieldTypeMismatch
  | none => .error .EFieldDoesNotExist

/-- `borrow_slice`. -/
def borrow_slice (self : BigVector E) (ref : SliceRef) : Except Failure (Slice E) :=
  self.borrow_leaf ref.ix

/-- The descent loop of the `find_*_leaf` functions: `depth` times, move
to the child at the offset `off` picks in the node. -/
def descend (self : BigVector E) (off : Slice ℕ → ℕ) : ℕ → ℕ → Except Failure ℕ
  | 0, slice_id => .ok slice_id
  | depth + 1, slice_id => do
    let node ← self.borrow_node slice_id
    let child ← index node.vals (off node)
    self.descend off depth child

/-- `find_leaf`: the leaf that would hold `key`, and the offset in it. -/
def find_leaf (self : BigVector E) (key : ℕ) : Except Failure (ℕ × Slice E × ℕ) := do
  let slice_id ← self.descend (fun node => slice_bisect_right node key) self.depth self.root_id
  let leaf ← self.borrow_leaf slice_id
  pure (slice_id, leaf, slice_bisect_left leaf key)

/-- `find_min_leaf`: always the leftmost child. -/
def find_min_leaf (self : BigVector E) : Except Failure (ℕ × Slice E × ℕ) := do
  let slice_id ← self.descend (fun _ => 0) self.depth self.root_id
  let leaf ← self.borrow_leaf slice_id
  pure (slice_id, leaf, 0)

/-- `find_max_leaf`: always the rightmost child. -/
def find_max_leaf (self : BigVector E) : Except Failure (ℕ × Slice E × ℕ) := do
  let slice_id ← self.descend (fun node => node.keys.length) self.depth self.root_id
  let leaf ← self.borrow_leaf slice_id
  let off ← sub leaf.keys.length 1
  pure (slice_id, leaf, off)

/-- `slice_around`: the slice and offset of `key`, aborting when absent. -/
def slice_around (self : BigVector E) (key : ℕ) : Except Failure (SliceRef × ℕ) :=
  if self.root_id = NO_SLICE then .error .ENotFound
  else do
    let (ix, leaf, off) ← self.find_leaf key
    if h : leaf.keys.length ≤ off then .error .ENotFound
    else if key ≠ leaf.keys[off] then .error .ENotFound
    else pure (⟨ix⟩, off)

/-- `slice_following`: the slice and offset of the first key at or after
`key`, or `(NO_SLICE, 0)`. -/
def slice_following (self : BigVector E) (key : ℕ) : Except Failure (SliceRef × ℕ) :=
  if self.root_id = NO_SLICE then .ok (⟨NO_SLICE⟩, 0)
  else do
    let (ix, leaf, off) ← self.find_leaf key
    if leaf.keys.length ≤ off then pure (slice_next leaf, 0) else pure (⟨ix⟩, off)

/-- `slice_before`: the slice and offset of the last key before `key`, or
`(NO_SLICE, 0)`. -/
def slice_before (self : BigVector E) (key : ℕ) : Except Failure (SliceRef × ℕ) :=
  if self.root_id = NO_SLICE then .ok (⟨NO_SLICE⟩, 0)
  else do
    let (ix, leaf, off) ← self.find_leaf key
    if off = 0 then
      let prev_ref := slice_prev leaf
      if slice_is_null prev_ref then pure (⟨NO_SLICE⟩, 0)
      else do
        let prev_slice ← self.borrow_slice prev_ref
        let prev_off ← sub prev_slice.keys.length 1
        pure (prev_ref, prev_off)
    else pure (⟨ix⟩, off - 1)

/-- `min_slice`. -/
def min_slice (self : BigVector E) : Except Failure (SliceRef × ℕ) :=
  if self.root_id = NO_SLICE then .ok (⟨NO_SLICE⟩, 0)
  else do
    let (ix, _, off) ← self.find_min_leaf
    pure (⟨ix⟩, off)

/-- `max_slice`. -/
def max_slice (self : BigVector E) : Except Failure (SliceRef × ℕ) :=
  if self.root_id = NO_SLICE then .ok (⟨NO_SLICE⟩, 0)
  else do
    let (ix, _, off) ← self.find_max_leaf
    pure (⟨ix⟩, off)

/-- `next_slice`. -/
def next_slice (self : BigVector E) (ref : SliceRef) (offset : ℕ) :
    Except Failure (SliceRef × ℕ) := do
  let slice ← self.borrow_slice ref
  if offset + 1 < slice.vals.length then pure (ref, offset + 1) else pure (slice_next slice, 0)

/-- `prev_slice`. -/
def prev_slice (self : BigVector E) (ref : SliceRef) (offset : ℕ) :
    Except Failure (SliceRef × ℕ) := do
  let slice ← self.borrow_slice ref
  if 0 < offset then pure (ref, offset - 1)
  else
    let prev_slice := slice_prev slice
    if slice_is_null prev_slice then pure (prev_slice, 0)
    else do
      let prev ← self.borrow_slice prev_slice
      let prev_index ← sub prev.vals.length 1
      pure (prev_slice, prev_index)

/-- `borrow`. -/
def borrow (self : BigVector E) (ix : ℕ) : Except Failure E := do
  let (ref, offset) ← self.slice_around ix
  let slice ← self.borrow_slice ref
  slice_borrow slice offset

-- ================================================================ the content

/-- The leaves under the node `id` at depth `d`, left to right. -/
def leafIds (self : BigVector E) : ℕ → ℕ → List ℕ
  | 0, id => [id]
  | d + 1, id =>
    match self.fields id with
    | some (.node node) => node.vals.flatMap (self.leafIds d)
    | _ => []

/-- The entries of the leaf `id`. -/
def entriesOf (self : BigVector E) (id : ℕ) : List (ℕ × E) :=
  match self.fields id with
  | some (.leaf slice) => slice.keys.zip slice.vals
  | _ => []

/-- The entries under the node `id` at depth `d`, in order. -/
def entriesUnder (self : BigVector E) (d id : ℕ) : List (ℕ × E) :=
  (self.leafIds d id).flatMap self.entriesOf

/-- What the vector holds: the entries of its leaves, left to right. -/
def contents (self : BigVector E) : List (ℕ × E) :=
  if self.root_id = NO_SLICE then [] else self.entriesUnder self.depth self.root_id

/-- The entry a slice and offset designate, none for `NO_SLICE`. -/
def entryAt (self : BigVector E) (pos : SliceRef × ℕ) : Option (ℕ × E) :=
  if pos.1.ix = NO_SLICE then none else (self.entriesOf pos.1.ix)[pos.2]?

-- ================================================================ the invariant

/-- A leaf within its fences: not empty, its keys increasing and paired
with its values. -/
structure LeafFits (slice : Slice E) (lo hi : Option ℕ) : Prop where
  nonempty : slice.keys ≠ []
  length_eq : slice.keys.length = slice.vals.length
  sorted : slice.keys.Pairwise (· < ·)
  within : ∀ k ∈ slice.keys, Above lo k ∧ Below hi k

/-- The node `id` roots a tree of depth `d` within the fences. -/
def Fits (self : BigVector E) : ℕ → ℕ → Option ℕ → Option ℕ → Prop
  | 0, id, lo, hi => ∃ slice, self.fields id = some (.leaf slice) ∧ LeafFits slice lo hi
  | d + 1, id, lo, hi =>
    ∃ node, self.fields id = some (.node node) ∧ Fenced (self.Fits d) lo hi node.vals node.keys

/-- The leaves are chained by their pointers, after the leaf `prev`. -/
def Linked (self : BigVector E) : ℕ → List ℕ → Prop
  | _, [] => True
  | prev, id :: ids => id ≠ NO_SLICE ∧
    (∃ slice, self.fields id = some (.leaf slice) ∧ slice.prev = prev ∧
      slice.next = ids.head?.getD NO_SLICE) ∧
    self.Linked id ids

/-- The B+ tree invariant of a non-empty vector. -/
structure WF (v : BigVector E) : Prop where
  fits : v.root_id ≠ NO_SLICE → v.Fits v.depth v.root_id none none
  linked : v.root_id ≠ NO_SLICE → v.Linked NO_SLICE (v.leafIds v.depth v.root_id)

-- ================================================================ reading the fields

section reading

variable {self : BigVector E} {id d : ℕ}

theorem borrow_leaf_of {slice : Slice E} (h : self.fields id = some (.leaf slice)) :
    self.borrow_leaf id = .ok slice := by
  simp [borrow_leaf, h]

theorem borrow_node_of {node : Slice ℕ} (h : self.fields id = some (.node node)) :
    self.borrow_node id = .ok node := by
  simp [borrow_node, h]

theorem index_of_lt {α : Type} {v : List α} {i : ℕ} (h : i < v.length) : index v i = .ok v[i] := by
  simp [index, h]

theorem entriesOf_of_leaf {slice : Slice E} (h : self.fields id = some (.leaf slice)) :
    self.entriesOf id = slice.keys.zip slice.vals := by
  simp [entriesOf, h]

theorem leafIds_succ {node : Slice ℕ} (h : self.fields id = some (.node node)) :
    self.leafIds (d + 1) id = node.vals.flatMap (self.leafIds d) := by
  simp [leafIds, h]

theorem entriesUnder_succ {node : Slice ℕ} (h : self.fields id = some (.node node)) :
    self.entriesUnder (d + 1) id = node.vals.flatMap (self.entriesUnder d) := by
  rw [entriesUnder, leafIds_succ h, List.flatMap_assoc]
  rfl

theorem descend_succ {off : Slice ℕ → ℕ} {node : Slice ℕ}
    (h : self.fields id = some (.node node)) :
    self.descend off (d + 1) id = index node.vals (off node) >>= self.descend off d := by
  simp only [descend, borrow_node_of h]
  rfl

/-- The keys of a leaf's entries are its keys. -/
theorem keys_zip {slice : Slice E} {lo hi : Option ℕ} (h : LeafFits slice lo hi) :
    keys (slice.keys.zip slice.vals) = slice.keys :=
  List.map_fst_zip h.length_eq.le

end reading

-- ================================================================ descents

section descents

variable {self : BigVector E}

/-- Under a fitting node the entries are not empty and their keys
increase within the fences. -/
theorem fits_entries : ∀ {d id : ℕ} {lo hi : Option ℕ}, self.Fits d id lo hi →
    self.entriesUnder d id ≠ [] ∧ (keys (self.entriesUnder d id)).Pairwise (· < ·) ∧
      ∀ x ∈ keys (self.entriesUnder d id), Above lo x ∧ Below hi x
  | 0, id, lo, hi, ⟨slice, hs, hfit⟩ => by
    have hkeys : keys (self.entriesUnder 0 id) = slice.keys := by
      simp only [entriesUnder, leafIds, List.flatMap_singleton, entriesOf_of_leaf hs]
      exact keys_zip hfit
    refine ⟨fun hnil => hfit.nonempty ?_, hkeys ▸ hfit.sorted, hkeys ▸ hfit.within⟩
    rw [← hkeys, hnil, keys_nil]
  | d + 1, id, lo, hi, ⟨node, hn, hfen⟩ => by
    -- each child is so within its fences, and the fences line up
    have hL : ∀ c l u, self.Fits d c l u → keys (self.entriesUnder d c) ≠ [] ∧
        (keys (self.entriesUnder d c)).Pairwise (· < ·) ∧
          ∀ x ∈ keys (self.entriesUnder d c), Above l x ∧ Below u x := fun c l u hc => by
      obtain ⟨hne, hs, hw⟩ := fits_entries hc
      exact ⟨by simpa [keys] using hne, hs, hw⟩
    obtain ⟨hne, hs, hw⟩ := hfen.pairwise_flatMap hL
    have hkeys : keys (self.entriesUnder (d + 1) id) =
        node.vals.flatMap fun c => keys (self.entriesUnder d c) := by
      rw [entriesUnder_succ hn, keys, List.map_flatMap]
      rfl
    refine ⟨fun hnil => hne ?_, hkeys ▸ hs, hkeys ▸ hw⟩
    rw [← hkeys, hnil, keys_nil]

/-- Every entry under a fitting node is within its fences. -/
theorem fits_mem_entries {d id : ℕ} {lo hi : Option ℕ} (h : self.Fits d id lo hi) {e : ℕ × E}
    (he : e ∈ self.entriesUnder d id) : Above lo e.1 ∧ Below hi e.1 :=
  (fits_entries h).2.2 e.1 (List.mem_map_of_mem he)

/-- A fitting node holds a key within its fences. -/
theorem fits_nonempty {d id : ℕ} {lo hi : Option ℕ} (h : self.Fits d id lo hi) :
    ∃ x, Above lo x ∧ Below hi x := by
  obtain ⟨hne, -, hw⟩ := fits_entries h
  obtain ⟨e, he⟩ := List.exists_mem_of_ne_nil _ hne
  exact ⟨e.1, hw e.1 (List.mem_map_of_mem he)⟩

/-- Every leaf under a fitting node is a leaf within some fences. -/
theorem leaf_of_mem_leafIds : ∀ {d id : ℕ} {lo hi : Option ℕ}, self.Fits d id lo hi →
    ∀ lid ∈ self.leafIds d id, ∃ slice lo' hi', self.fields lid = some (.leaf slice) ∧
      LeafFits slice lo' hi'
  | 0, id, lo, hi, ⟨slice, hs, hfit⟩, lid, hlid => by
    rw [List.mem_singleton.mp hlid]
    exact ⟨slice, lo, hi, hs, hfit⟩
  | d + 1, id, lo, hi, ⟨node, hn, hfen⟩, lid, hlid => by
    rw [leafIds_succ hn, List.mem_flatMap] at hlid
    obtain ⟨c, hc, hlid⟩ := hlid
    obtain ⟨l, u, hP, -⟩ := hfen.lower_mem c hc
    exact leaf_of_mem_leafIds hP lid hlid

/-- The entries under the children of a list, by the nodes under them. -/
theorem mem_flatMap_leafIds {d : ℕ} {cs : List ℕ} {e : ℕ × E} :
    e ∈ (cs.flatMap (self.leafIds d)).flatMap self.entriesOf ↔ ∃ c ∈ cs, e ∈ self.entriesUnder d c := by
  rw [List.flatMap_assoc, List.mem_flatMap]
  rfl

/-- The descent of `find_leaf` reaches the leaf whose fences hold the key:
the leaves before it hold keys below the key, those after it keys above. -/
theorem descend_bisect_right {k : ℕ} : ∀ {d id : ℕ} {lo hi : Option ℕ}, self.Fits d id lo hi →
    Above lo k → Below hi k →
    ∃ pre lid post slice, self.leafIds d id = pre ++ lid :: post ∧
      self.descend (fun node => slice_bisect_right node k) d id = .ok lid ∧
      self.fields lid = some (.leaf slice) ∧ (∃ lo' hi', LeafFits slice lo' hi') ∧
      (∀ e ∈ pre.flatMap self.entriesOf, e.1 < k) ∧ (∀ e ∈ post.flatMap self.entriesOf, k < e.1)
  | 0, id, lo, hi, ⟨slice, hs, hfit⟩, _, _ =>
    ⟨[], id, [], slice, rfl, rfl, hs, ⟨lo, hi, hfit⟩, by simp, by simp⟩
  | d + 1, id, lo, hi, ⟨node, hn, hfen⟩, hlo, hhi => by
    -- the pivots increase, so the binary search cuts them at the key
    have hmono : node.keys.Pairwise fun x y => decide (k < x) = true → decide (k < y) = true :=
      (hfen.pivots_sorted fun _ _ _ hc => fits_nonempty hc).imp fun hxy hx => by
        simp only [decide_eq_true_eq] at hx ⊢
        exact lt_trans hx hxy
    have hpp := partitionPoint_spec hmono
    obtain ⟨h₁, h₂⟩ := hpp.take_drop
    obtain ⟨pre, c, post, l, u, hvals, hlen, hc, hl, hu, hpre, hpost⟩ :=
      hfen.descend (List.take_append_drop _ node.keys).symm
        (fun x hx => by simpa using h₁ x hx) (fun x hx => by simpa using h₂ x hx) hlo hhi
    have hlen' : pre.length = slice_bisect_right node k := by
      rw [hlen, List.length_take_of_le hpp.1]
      rfl
    -- the child at the cut is the one the key belongs to
    have hidx : index node.vals (slice_bisect_right node k) = .ok c := by
      simp [index, hvals, ← hlen']
    obtain ⟨pre', lid, post', slice, hleaves, hdesc, hs, hfit, hpre', hpost'⟩ :=
      descend_bisect_right hc hl hu
    refine ⟨pre.flatMap (self.leafIds d) ++ pre', lid, post' ++ post.flatMap (self.leafIds d), slice,
      ?_, ?_, hs, hfit, ?_, ?_⟩
    · rw [leafIds_succ hn, hvals, List.flatMap_append, List.flatMap_cons, hleaves]
      simp
    · rw [descend_succ hn, hidx]
      exact hdesc
    · intro e he
      rw [List.flatMap_append, List.mem_append, mem_flatMap_leafIds] at he
      rcases he with ⟨c', hc', he⟩ | he
      · obtain ⟨l', u', hP, hu'⟩ := hpre c' hc'
        exact lt_of_lt_of_le (below_some.mp (fits_mem_entries hP he).2) hu'
      · exact hpre' e he
    · intro e he
      rw [List.flatMap_append, List.mem_append, mem_flatMap_leafIds] at he
      rcases he with he | ⟨c', hc', he⟩
      · exact hpost' e he
      · obtain ⟨l', u', hP, hl'⟩ := hpost c' hc'
        exact lt_of_lt_of_le hl' (above_some.mp (fits_mem_entries hP he).1)

/-- The descent of `find_min_leaf` reaches the first leaf. -/
theorem descend_first : ∀ {d id : ℕ} {lo hi : Option ℕ}, self.Fits d id lo hi →
    ∃ lid rest, self.leafIds d id = lid :: rest ∧ self.descend (fun _ => 0) d id = .ok lid
  | 0, id, _, _, _ => ⟨id, [], rfl, rfl⟩
  | d + 1, id, lo, hi, ⟨node, hn, hfen⟩ => by
    -- one child more than pivots: there is a first child
    obtain ⟨c, cs, hvals⟩ := List.exists_cons_of_ne_nil
      (List.ne_nil_of_length_pos (by rw [hfen.length_eq]; omega))
    obtain ⟨l, u, hc, -⟩ := hfen.lower_mem c (by simp [hvals])
    obtain ⟨lid, rest, hleaves, hdesc⟩ := descend_first hc
    refine ⟨lid, rest ++ cs.flatMap (self.leafIds d), ?_, ?_⟩
    · rw [leafIds_succ hn, hvals, List.flatMap_cons, hleaves]
      rfl
    · rw [descend_succ hn, hvals]
      exact hdesc

/-- The descent of `find_max_leaf` reaches the last leaf. -/
theorem descend_last : ∀ {d id : ℕ} {lo hi : Option ℕ}, self.Fits d id lo hi →
    ∃ lid init, self.leafIds d id = init ++ [lid] ∧
      self.descend (fun node => node.keys.length) d id = .ok lid
  | 0, id, _, _, _ => ⟨id, [], rfl, rfl⟩
  | d + 1, id, lo, hi, ⟨node, hn, hfen⟩ => by
    -- one child more than pivots: the child after the last pivot is the last
    have hlen := hfen.length_eq
    have hne : node.vals ≠ [] := List.ne_nil_of_length_pos (by omega)
    have hidx : index node.vals node.keys.length = .ok (node.vals.getLast hne) := by
      rw [index_of_lt (by omega), List.getLast_eq_getElem]
      simp [hlen]
    obtain ⟨l, u, hc, -⟩ := hfen.lower_mem _ (List.getLast_mem hne)
    obtain ⟨lid, init, hleaves, hdesc⟩ := descend_last hc
    refine ⟨lid, node.vals.dropLast.flatMap (self.leafIds d) ++ init, ?_, ?_⟩
    · have hsplit := congrArg (List.flatMap (self.leafIds d)) (List.dropLast_append_getLast hne)
      rw [List.flatMap_append, List.flatMap_singleton, hleaves] at hsplit
      rw [leafIds_succ hn, ← hsplit, List.append_assoc]
    · rw [descend_succ hn, hidx]
      exact hdesc

end descents

end BigVector

end MysoCore.Orderbook.big_vector
