/-
Blocks of the consensus DAG (consensus/types/src/block.rs,
consensus/core/src/block.rs).

A `BlockRef` names a block by round, author and digest, and orders blocks
the way the derived `Ord` of the source does: by round, then author, then
digest. A `Block` is the source's `VerifiedBlock` with the fields the
modelled code reads. Digests are opaque numbers: the digest of a verified
block is a hash of its serialized content, so two blocks with one
reference are one block, and the layers above state exactly that as the
content-addressing of the universe a DAG is drawn from.

Rounds (`u32`), timestamps (`u64`) and transaction indices (`u16`) are
natural numbers; no modelled computation on them comes near the width of
its type.
-/
import Mathlib

namespace MysoCore.Consensus

-- ============================================================ references

/-- `BlockRef`: a block by round, author and digest. -/
structure BlockRef where
  round : ℕ
  author : ℕ
  digest : ℕ
  deriving DecidableEq, Repr, Inhabited

namespace BlockRef

/-- The key of the derived `Ord`: round, then author, then digest. -/
def key (r : BlockRef) : ℕ ×ₗ ℕ ×ₗ ℕ := toLex (r.round, toLex (r.author, r.digest))

theorem key_injective : Function.Injective key := by
  intro a b h
  cases a
  cases b
  simp only [key, toLex_inj, Prod.mk.injEq] at h
  obtain ⟨h₁, h₂, h₃⟩ := h
  subst h₁ h₂ h₃
  rfl

instance : LinearOrder BlockRef := LinearOrder.lift' key key_injective

/-- The order is well founded, as the lexicographic order of its keys is. -/
instance : WellFoundedLT BlockRef := ⟨InvImage.wf key wellFounded_lt⟩

/-- References compare by their keys. -/
theorem le_iff_key (a b : BlockRef) : a ≤ b ↔ a.key ≤ b.key := Iff.rfl

/-- A lower round comes first. -/
theorem lt_of_round_lt {a b : BlockRef} (h : a.round < b.round) : a < b := by
  show a.key < b.key
  unfold key
  exact Prod.Lex.lt_iff.mpr (Or.inl h)

/-- Order never goes against rounds. -/
theorem round_le_of_le {a b : BlockRef} (h : a ≤ b) : a.round ≤ b.round := by
  rw [le_iff_key] at h
  unfold key at h
  rcases Prod.Lex.le_iff.mp h with h | ⟨h, -⟩
  · exact le_of_lt h
  · exact le_of_eq h

end BlockRef

/-- `GENESIS_ROUND`. -/
def GENESIS_ROUND : ℕ := 0

/-- `Slot`: a round and an authority. -/
structure Slot where
  round : ℕ
  authority : ℕ
  deriving DecidableEq, Repr, Inhabited

/-- `Slot::from(BlockRef)`. -/
def Slot.ofRef (r : BlockRef) : Slot := ⟨r.round, r.author⟩

-- ================================================================ blocks

/-- `BlockTransactionVotes`: explicit reject votes on the transactions of
one block; the block's other transactions are implicitly accepted. -/
structure BlockTransactionVotes where
  block_ref : BlockRef
  rejects : List ℕ
  deriving DecidableEq, Repr

/-- `VerifiedBlock`. Each transaction is represented by the length of its
data, the one thing the modelled checks read. -/
structure Block where
  epoch : ℕ
  round : ℕ
  author : ℕ
  digest : ℕ
  timestamp_ms : ℕ
  ancestors : List BlockRef
  transactions : List ℕ
  transaction_votes : List BlockTransactionVotes
  deriving DecidableEq, Repr, Inhabited

namespace Block

/-- `VerifiedBlock::reference`. -/
def reference (b : Block) : BlockRef := ⟨b.round, b.author, b.digest⟩

/-- `BlockAPI::slot`. -/
def slot (b : Block) : Slot := ⟨b.round, b.author⟩

@[simp] theorem reference_round (b : Block) : b.reference.round = b.round := rfl
@[simp] theorem reference_author (b : Block) : b.reference.author = b.author := rfl

end Block

end MysoCore.Consensus
