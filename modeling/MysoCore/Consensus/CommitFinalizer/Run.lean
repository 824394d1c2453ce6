/-
What the commit finalizer guarantees over a run of `process_commit`
calls: the order of the commits it outputs, and what it records as
rejected for each of their blocks.

# The queue

Apart from the push of a new commit, every operation of
`process_commit` either leaves the commits of the queue alone or pops a
finalized front off it (`Pops`, closed under composition): a commit
leaves only from the front, and only once its pending blocks and pending
transactions are empty (`popFinalized_spec`). Over a run the outputs
followed by the queue are therefore the inputs, up to the rejected
transactions the finalizer records, and the index assertion makes the
inputs consecutive.

# Rejected transactions

A queued state lists, for each block, only transactions of the block or
indices named by a reject vote the certifier holds for it (`StateOK`,
kept by every operation). `SignedBlockVerifier::verify_block` does not
check the indices of a block's reject votes against the voted block, and
the certifier aggregates whatever indices it receives; an index no block
has, voted by one authority, stays pending and is rejected indirectly
once a commit three rounds above arrives (`process_commits_rejects_unknown_index`).

# The certifier's votes

The finalizer reads the certifier's reject votes through
`get_reject_votes`, which is one function for a whole run here: the run
results take the votes to be the same at every commit of the run. In
the source the certifier goes on aggregating votes between two commits;
a run over which they change is covered one commit at a time, by the
lemmas of a single `process_commit`, and not by the run results as they
are stated.
-/
import MysoCore.Consensus.CommitFinalizer

namespace MysoCore.Consensus

open SortedMap SortedSet ExceptFold

/-- A commit without the rejected transactions the finalizer records. -/
def CommittedSubDag.unfinalized (c : CommittedSubDag) : CommittedSubDag :=
  { c with rejected_transactions_by_block := [] }

theorem CommittedSubDag.unfinalized_of_fresh {c : CommittedSubDag}
    (h : c.rejected_transactions_by_block = []) : c.unfinalized = c := by
  unfold CommittedSubDag.unfinalized
  rw [← h]

theorem CommitState.finalize_unfinalized (s : CommitState) :
    s.finalize.unfinalized = s.commit.unfinalized := by
  unfold CommitState.finalize
  exact foldl_inv (fun (c : CommittedSubDag) => c.unfinalized = s.commit.unfinalized) rfl fun _ _ _ h => h

theorem CommitState.finalize_blocks (s : CommitState) : s.finalize.blocks = s.commit.blocks := by
  have h := congrArg CommittedSubDag.blocks s.finalize_unfinalized
  exact h

namespace CommitFinalizer

-- ============================================================ what a state lists

section state

variable (gv : BlockRef → Option (List (ℕ × ℕ)))

/-- A transaction index a state may list for a block of its commit: one
of the block's transactions, or an index a reject vote on the block
names. -/
def Allowed (c : CommittedSubDag) (r : BlockRef) (t : ℕ) : Prop :=
  ∃ b ∈ c.blocks, b.reference = r ∧
    (t < b.transactions.length ∨ ∃ rv, gv r = some rv ∧ ∃ stake, (t, stake) ∈ rv)

/-- A map of transaction sets per block that lists only allowed indices. -/
def Lists (c : CommittedSubDag) (m : List (BlockRef × Finset ℕ)) : Prop :=
  ∀ e ∈ m, ∀ t ∈ e.2, Allowed gv c e.1 t

/-- A commit that records as rejected only allowed indices. -/
def Recorded (c : CommittedSubDag) : Prop :=
  ∀ e ∈ c.rejected_transactions_by_block, ∀ t ∈ e.2, Allowed gv c e.1 t

/-- What every queued state keeps: its commit has recorded nothing yet,
its pending blocks are blocks of the commit with their transaction
counts, and it lists only allowed indices. -/
structure StateOK (cs : CommitState) : Prop where
  fresh : cs.commit.rejected_transactions_by_block = []
  blocks : ∀ e ∈ cs.pending_blocks, ∃ b ∈ cs.commit.blocks,
    b.reference = e.1 ∧ b.transactions.length = e.2
  pending : Lists gv cs.commit cs.pending_transactions
  rejected : Lists gv cs.commit cs.rejected_transactions

variable {gv}

/-- Whether an index is allowed depends on the commit's blocks only. -/
theorem Allowed.of_blocks {c c' : CommittedSubDag} {r : BlockRef} {t : ℕ}
    (hb : c'.blocks = c.blocks) (h : Allowed gv c r t) : Allowed gv c' r t := by
  unfold Allowed
  rw [hb]
  exact h

theorem Lists.nil (c : CommittedSubDag) : Lists gv c [] := by
  simp [Lists]

/-- The pending blocks of a new state are the commit's blocks. -/
theorem pendingBlocksOf_mem (c : CommittedSubDag) :
    ∀ e ∈ CommitState.pendingBlocksOf c, ∃ b ∈ c.blocks,
      b.reference = e.1 ∧ b.transactions.length = e.2 := by
  unfold CommitState.pendingBlocksOf
  refine foldl_inv (fun (m : List (BlockRef × ℕ)) => ∀ e ∈ m, ∃ b ∈ c.blocks,
    b.reference = e.1 ∧ b.transactions.length = e.2) (fun e he => by cases he) ?_
  intro m b hb hm
  exact forall_mem_alter hm ⟨b, hb, rfl, rfl⟩ fun _ _ => ⟨b, hb, rfl, rfl⟩

theorem new_ok {c : CommittedSubDag} {cs : CommitState} (hc : c.rejected_transactions_by_block = [])
    (h : CommitState.new c = .ok cs) : cs.commit = c ∧ StateOK gv cs := by
  unfold CommitState.new at h
  dsimp only at h
  split at h
  · cases h
  · cases h
    exact ⟨rfl, hc, pendingBlocksOf_mem c, Lists.nil c, Lists.nil c⟩

@[simp] theorem remove_pending_transactions_commit (cs : CommitState) (r : BlockRef)
    (ts : List ℕ) : (cs.remove_pending_transactions r ts).commit = cs.commit := by
  unfold CommitState.remove_pending_transactions
  split
  · rfl
  · dsimp only
    split <;> rfl

@[simp] theorem remove_pending_transactions_pending_blocks (cs : CommitState) (r : BlockRef)
    (ts : List ℕ) : (cs.remove_pending_transactions r ts).pending_blocks = cs.pending_blocks := by
  unfold CommitState.remove_pending_transactions
  split
  · rfl
  · dsimp only
    split <;> rfl

@[simp] theorem remove_pending_transactions_rejected (cs : CommitState) (r : BlockRef)
    (ts : List ℕ) :
    (cs.remove_pending_transactions r ts).rejected_transactions = cs.rejected_transactions := by
  unfold CommitState.remove_pending_transactions
  split
  · rfl
  · dsimp only
    split <;> rfl

/-- Removing pending transactions lists a part of what was listed. -/
theorem StateOK.remove_pending_transactions {cs : CommitState} (h : StateOK gv cs)
    (r : BlockRef) (ts : List ℕ) : StateOK gv (cs.remove_pending_transactions r ts) := by
  refine ⟨by simpa using h.fresh, by simpa using h.blocks, ?_, by simpa using h.rejected⟩
  unfold CommitState.remove_pending_transactions
  split
  · exact h.pending
  · next s hs =>
      have hmem := mem_of_lookup_eq_some hs
      dsimp only
      split
      · intro e he
        exact h.pending e (mem_eraseKey.mp he).1
      · refine forall_mem_alter h.pending ?_ ?_
        · intro t ht
          exact h.pending _ hmem t (Finset.mem_sdiff.mp ht).1
        · intro _ _ t ht
          exact h.pending _ hmem t (Finset.mem_sdiff.mp ht).1

/-- A finalized state records the transactions it rejected, all allowed. -/
theorem StateOK.finalize {s : CommitState} (h : StateOK gv s) : Recorded gv s.finalize := by
  have hall : ∀ e ∈ s.finalize.rejected_transactions_by_block, ∀ t ∈ e.2,
      Allowed gv s.commit e.1 t := by
    unfold CommitState.finalize
    refine foldl_inv (fun (c : CommittedSubDag) => ∀ e ∈ c.rejected_transactions_by_block,
      ∀ t ∈ e.2, Allowed gv s.commit e.1 t) (by simp [h.fresh]) ?_
    intro c e he hc
    -- the sorted list of an entry of the rejected transactions
    have hasc : ∀ t ∈ ascending e.2, Allowed gv s.commit e.1 t :=
      fun t ht => h.rejected e he t (mem_ascending.mp ht)
    exact forall_mem_alter hc hasc fun _ _ => hasc
  exact fun e he t ht => (hall e he t ht).of_blocks s.finalize_blocks

end state

-- ============================================================ the queue and its operations

/-- The commits of the queue, front first, without what they record. -/
def queue (self : CommitFinalizer) : List CommittedSubDag :=
  (self.pending_commits.map CommitState.commit).map CommittedSubDag.unfinalized

/-- Every queued state lists what the finalizer's own votes allow. -/
def QueueOK (self : CommitFinalizer) : Prop :=
  ∀ s ∈ self.pending_commits, StateOK self.get_reject_votes s

/-- An operation that rewrites queued states in place, keeping their
commits and what they may list. -/
structure Keeps (before after : CommitFinalizer) : Prop where
  votes : after.get_reject_votes = before.get_reject_votes
  last : after.last_processed_commit = before.last_processed_commit
  commits : after.pending_commits.map CommitState.commit =
    before.pending_commits.map CommitState.commit
  ok : QueueOK before → QueueOK after

/-- An operation that pops commits off the front of the queue and outputs
them, recording only allowed indices. -/
structure Pops (before after : CommitFinalizer) (outs : List CommittedSubDag) : Prop where
  votes : after.get_reject_votes = before.get_reject_votes
  last : after.last_processed_commit = before.last_processed_commit
  queue : before.queue = outs.map CommittedSubDag.unfinalized ++ after.queue
  ok : QueueOK before → QueueOK after ∧ ∀ o ∈ outs, Recorded before.get_reject_votes o

theorem Keeps.refl (self : CommitFinalizer) : Keeps self self :=
  ⟨rfl, rfl, rfl, id⟩

theorem Keeps.trans {a b c : CommitFinalizer} (h₁ : Keeps a b) (h₂ : Keeps b c) : Keeps a c :=
  ⟨h₂.votes.trans h₁.votes, h₂.last.trans h₁.last, h₂.commits.trans h₁.commits,
    fun h => h₂.ok (h₁.ok h)⟩

/-- An operation that leaves the queue alone keeps it. -/
theorem Keeps.of_pending {self self' : CommitFinalizer}
    (hv : self'.get_reject_votes = self.get_reject_votes)
    (hl : self'.last_processed_commit = self.last_processed_commit)
    (hp : self'.pending_commits = self.pending_commits) : Keeps self self' := by
  refine ⟨hv, hl, by rw [hp], ?_⟩
  intro h s hs
  rw [hv]
  exact h s (hp ▸ hs)

/-- Rewriting one queued state, keeping its commit and what it may list. -/
theorem Keeps.set {self : CommitFinalizer} {i : ℕ} {cs cs' : CommitState}
    (hi : self.pending_commits[i]? = some cs) (hc : cs'.commit = cs.commit)
    (hok : StateOK self.get_reject_votes cs → StateOK self.get_reject_votes cs') :
    Keeps self { self with pending_commits := self.pending_commits.set i cs' } := by
  obtain ⟨hlt, hget⟩ := List.getElem?_eq_some_iff.mp hi
  refine ⟨rfl, rfl, ?_, ?_⟩
  · -- the commit at `i` is the one that was there
    have hlt' : i < (self.pending_commits.map CommitState.commit).length := by simpa using hlt
    have hget' : (self.pending_commits.map CommitState.commit)[i] = cs'.commit := by
      simp [hget, hc]
    simp only [List.map_set]
    rw [← hget', List.set_getElem_self]
  · intro h s hs
    rcases List.mem_or_eq_of_mem_set hs with hs | rfl
    · exact h s hs
    · exact hok (h cs (List.mem_of_getElem? hi))

/-- Rewriting the front state, keeping its commit and what it may list. -/
theorem Keeps.front {self : CommitFinalizer} {first first' : CommitState} {rest : List CommitState}
    (hp : self.pending_commits = first :: rest) (hc : first'.commit = first.commit)
    (hok : StateOK self.get_reject_votes first → StateOK self.get_reject_votes first') :
    Keeps self { self with pending_commits := first' :: rest } := by
  refine ⟨rfl, rfl, by simp [hp, hc], ?_⟩
  intro h s hs
  rcases List.mem_cons.mp hs with rfl | hs
  · exact hok (h first (by simp [hp]))
  · exact h s (by simp [hp, hs])

theorem Keeps.pops {self self' : CommitFinalizer} (h : Keeps self self') : Pops self self' [] := by
  refine ⟨h.votes, h.last, ?_, fun hq => ⟨h.ok hq, by simp⟩⟩
  simp only [queue, h.commits, List.map_nil, List.nil_append]

theorem Pops.refl (self : CommitFinalizer) : Pops self self [] :=
  (Keeps.refl self).pops

theorem Pops.trans {a b c : CommitFinalizer} {o₁ o₂ : List CommittedSubDag} (h₁ : Pops a b o₁)
    (h₂ : Pops b c o₂) : Pops a c (o₁ ++ o₂) := by
  refine ⟨h₂.votes.trans h₁.votes, h₂.last.trans h₁.last, ?_, ?_⟩
  · rw [h₁.queue, h₂.queue, List.map_append, List.append_assoc]
  · intro h
    obtain ⟨hb, ho₁⟩ := h₁.ok h
    obtain ⟨hc, ho₂⟩ := h₂.ok hb
    refine ⟨hc, fun o ho => ?_⟩
    rcases List.mem_append.mp ho with ho | ho
    · exact ho₁ o ho
    · exact h₁.votes ▸ ho₂ o ho

-- ============================================================ direct finalization

section direct

variable {self : CommitFinalizer}

theorem directFinalizeBlock_commit {v : ℕ} {cs cs' : CommitState} {x : BlockRef × ℕ}
    (h : self.directFinalizeBlock v cs x = .ok cs') : cs'.commit = cs.commit := by
  unfold directFinalizeBlock at h
  dsimp only at h
  split at h
  · cases h
    rfl
  · split at h
    · cases h
    · cases h
      refine foldl_inv (fun (cs' : CommitState) => cs'.commit = cs.commit) rfl ?_
      intro _ _ _ hc
      split
      · exact hc
      · exact hc

/-- One block of direct finalization lists its transactions, or the
indices its reject votes name. -/
theorem directFinalizeBlock_ok {v : ℕ} {cs cs' : CommitState} {x : BlockRef × ℕ}
    (hx : ∃ b ∈ cs.commit.blocks, b.reference = x.1 ∧ b.transactions.length = x.2)
    (hcs : StateOK self.get_reject_votes cs) (h : self.directFinalizeBlock v cs x = .ok cs') :
    StateOK self.get_reject_votes cs' := by
  obtain ⟨b, hb, hbr, hbl⟩ := hx
  unfold directFinalizeBlock at h
  dsimp only at h
  split at h
  · -- possibly outside the voters' GC bound: all the block's transactions pending
    cases h
    refine ⟨hcs.fresh, hcs.blocks, forall_mem_alter_union hcs.pending ?_, hcs.rejected⟩
    intro t ht
    exact ⟨b, hb, hbr, Or.inl (hbl ▸ Finset.mem_range.mp ht)⟩
  · split at h
    · cases h
    · next rv hrv =>
        cases h
        -- every vote names an index a reject vote on the block names
        have hvote : ∀ vote ∈ rv, Allowed self.get_reject_votes cs.commit x.1 vote.1 :=
          fun vote hv => ⟨b, hb, hbr, Or.inr ⟨rv, hrv, vote.2, hv⟩⟩
        refine (foldl_inv (fun (cs' : CommitState) => cs'.commit = cs.commit ∧
          StateOK self.get_reject_votes cs') ⟨rfl, hcs⟩ ?_).2
        rintro cs'' vote hv ⟨hc, hok⟩
        rw [← hc] at hvote
        split
        · exact ⟨hc, hok.fresh, hok.blocks,
            forall_mem_alter_insert hok.pending (hvote vote hv), hok.rejected⟩
        · exact ⟨hc, hok.fresh, hok.blocks, hok.pending,
            forall_mem_alter_insert hok.rejected (hvote vote hv)⟩

theorem try_direct_finalize_commit_keeps {i : ℕ} {self' : CommitFinalizer}
    (h : self.try_direct_finalize_commit i = .ok self') : Keeps self self' := by
  unfold try_direct_finalize_commit at h
  split at h
  · cases h
  · next cs hcs =>
      dsimp only at h
      split at h
      · cases h
      · split at h
        · cases h
        · next cs' hfold =>
            cases h
            -- the fold keeps the commit, and what the state may list given
            -- that its pending blocks are blocks of the commit
            have hinv : cs'.commit = cs.commit ∧
                (StateOK self.get_reject_votes cs → StateOK self.get_reject_votes cs') := by
              refine foldlM_inv (fun (a : CommitState) => a.commit = cs.commit ∧
                (StateOK self.get_reject_votes cs → StateOK self.get_reject_votes a)) ?_ ?_ hfold
              · exact ⟨rfl, fun hok => ⟨hok.fresh, by simp, hok.pending, hok.rejected⟩⟩
              · rintro a x b hx ⟨hac, haok⟩ hb
                refine ⟨(directFinalizeBlock_commit hb).trans hac, fun hok => ?_⟩
                exact directFinalizeBlock_ok (hac ▸ hok.blocks x hx) (haok hok) hb
            exact Keeps.set hcs hinv.1 hinv.2

theorem directLoop_keeps : ∀ {is : List ℕ} {self self' : CommitFinalizer},
    self.directLoop is = .ok self' → Keeps self self'
  | [], _, _, h => by
      cases h
      exact Keeps.refl _
  | i :: is, self, self', h => by
      unfold directLoop at h
      split at h
      · split at h
        · exact directLoop_keeps h
        · split at h
          · cases h
            exact Keeps.refl _
          · split at h
            · cases h
            · next s hs => exact (try_direct_finalize_commit_keeps hs).trans (directLoop_keeps h)
      · cases h

end direct

-- ============================================================ popping the finalized front

/-- The loop of `pop_finalized_commits` splits the queue into a front it
pops and the rest it keeps: it pops only states with no pending blocks and
no pending transactions left, and outputs their commits as finalized. -/
theorem popFinalized_spec : ∀ (blocks : List (BlockRef × BlockState)) (l : List CommitState),
    ∃ popped, l = popped ++ (popFinalized blocks l).1 ∧
      (popFinalized blocks l).2.2 = popped.map CommitState.finalize ∧
      ∀ s ∈ popped, s.pending_blocks = [] ∧ s.pending_transactions = []
  | _, [] => ⟨[], rfl, rfl, by simp⟩
  | blocks, s :: rest => by
      unfold popFinalized
      split
      · exact ⟨[], rfl, rfl, by simp⟩
      · next hs =>
          dsimp only
          obtain ⟨popped, h₁, h₂, h₃⟩ := popFinalized_spec
            (s.finalize.blocks.foldl (fun m b => eraseKey b.reference m) blocks) rest
          have hs' : s.pending_blocks = [] ∧ s.pending_transactions = [] := by
            simpa using hs
          refine ⟨s :: popped, by rw [List.cons_append, ← h₁], by rw [h₂]; rfl, ?_⟩
          intro s' hs''
          rcases List.mem_cons.mp hs'' with rfl | hs''
          · exact hs'
          · exact h₃ s' hs''

theorem pop_finalized_commits_spec (self : CommitFinalizer) :
    ∃ popped, self.pending_commits = popped ++ self.pop_finalized_commits.1.pending_commits ∧
      self.pop_finalized_commits.2 = popped.map CommitState.finalize ∧
      ∀ s ∈ popped, s.pending_blocks = [] ∧ s.pending_transactions = [] :=
  popFinalized_spec self.blocks self.pending_commits

theorem pop_finalized_commits_pops (self : CommitFinalizer) :
    Pops self self.pop_finalized_commits.1 self.pop_finalized_commits.2 := by
  obtain ⟨popped, h₁, h₂, -⟩ := pop_finalized_commits_spec self
  refine ⟨rfl, rfl, ?_, ?_⟩
  · -- a popped state and its output differ in what the output records only
    rw [queue, queue, h₂, h₁]
    simp [Function.comp_def, CommitState.finalize_unfinalized]
  · intro h
    refine ⟨fun s hs => h s (h₁ ▸ List.mem_append_right _ hs), ?_⟩
    intro o ho
    rw [h₂] at ho
    obtain ⟨s, hs, rfl⟩ := List.mem_map.mp ho
    exact (h s (h₁ ▸ List.mem_append_left _ hs)).finalize

-- ============================================================ linking the newest commit

theorem link_blocks_in_last_commit_keeps {self self' : CommitFinalizer}
    (h : self.link_blocks_in_last_commit = .ok self') : Keeps self self' := by
  unfold link_blocks_in_last_commit at h
  split at h
  · cases h
  · cases h
    exact Keeps.of_pending rfl rfl rfl

theorem append_origin_descendants_from_last_commit_keeps {self self' : CommitFinalizer}
    (h : self.append_origin_descendants_from_last_commit = .ok self') : Keeps self self' := by
  unfold append_origin_descendants_from_last_commit at h
  split at h
  · cases h
  · split at h
    · cases h
    · cases h
      exact Keeps.of_pending rfl rfl rfl

-- ============================================================ indirect finalization

section indirect

variable {self self' : CommitFinalizer}

/-- The pending transactions of a block that reached a quorum of reject
votes are pending transactions of it. -/
theorem mem_of_mem_quorumRejected {rv : List (ℕ × ℕ)} {s : Finset ℕ} {t : ℕ}
    (h : t ∈ self.quorumRejected rv s) : t ∈ s :=
  mem_ascending.mp (List.mem_filter.mp h).1

theorem check_pending_transactions_in_first_commit_keeps
    (h : self.check_pending_transactions_in_first_commit = .ok self') : Keeps self self' := by
  unfold check_pending_transactions_in_first_commit at h
  split at h
  · cases h
  · next first rest hp =>
      dsimp only at h
      split at h
      · cases h
      · next all hall =>
          cases h
          refine Keeps.front hp ?_ ?_
          · exact foldl_inv (fun (cs : CommitState) => cs.commit = first.commit) rfl fun _ _ _ hc => by simpa
          · intro hok
            -- what moves to the rejected transactions was pending
            have hcol := foldlM_inv (fun (all : List (BlockRef × List ℕ)) => ∀ e ∈ all, ∀ t ∈ e.2,
              Allowed self.get_reject_votes first.commit e.1 t) (by simp) ?_ hall
            · refine (foldl_inv (fun (cs : CommitState) => cs.commit = first.commit ∧
                StateOK self.get_reject_votes cs) ⟨rfl, hok⟩ ?_).2
              rintro cs e he ⟨hc, hcs⟩
              have hrm := hcs.remove_pending_transactions e.1 e.2
              refine ⟨by simpa using hc, hrm.fresh, hrm.blocks, hrm.pending, ?_⟩
              refine forall_mem_alter_union hrm.rejected ?_
              intro t ht
              simpa [hc] using hcol e he t (List.mem_toFinset.mp ht)
            · intro all entry all' hentry hall' hstep
              split at hstep
              · cases hstep
              · cases hstep
                split
                · intro e he t ht
                  rcases List.mem_append.mp he with he | he
                  · exact hall' e he t ht
                  · simp only [List.mem_singleton] at he
                    subst he
                    exact hok.pending entry hentry t (mem_of_mem_quorumRejected ht)
                · exact hall'

theorem try_indirect_finalize_pending_transactions_in_first_commit_keeps
    (h : self.try_indirect_finalize_pending_transactions_in_first_commit = .ok self') :
    Keeps self self' := by
  unfold try_indirect_finalize_pending_transactions_in_first_commit at h
  split at h
  · cases h
  · next first rest hp =>
      dsimp only at h
      split at h
      · cases h
      · cases h
        -- finalized transactions only leave the pending ones
        refine Keeps.front hp ?_ ?_
        · exact foldl_inv (fun (cs : CommitState) => cs.commit = first.commit) rfl fun _ _ _ hc => by simpa
        · intro hok
          refine (foldl_inv (fun (cs : CommitState) => cs.commit = first.commit ∧
            StateOK self.get_reject_votes cs) ⟨rfl, hok⟩ ?_).2
          rintro cs e - ⟨hc, hcs⟩
          exact ⟨by simpa using hc, hcs.remove_pending_transactions e.1 e.2⟩

theorem try_indirect_reject_pending_transactions_in_first_commit_keeps
    (h : self.try_indirect_reject_pending_transactions_in_first_commit = .ok self') :
    Keeps self self' := by
  unfold try_indirect_reject_pending_transactions_in_first_commit at h
  split at h
  · next first rest last hp _ =>
      split at h
      · split at h
        · cases h
        · cases h
          -- every transaction still pending moves to the rejected ones
          refine Keeps.front hp rfl ?_
          intro hok
          refine ⟨hok.fresh, hok.blocks, Lists.nil _, ?_⟩
          exact foldl_inv (Lists self.get_reject_votes first.commit) hok.rejected
            fun m e he hm => forall_mem_alter_union hm (hok.pending e he)
      · cases h
        exact Keeps.refl _
  · cases h

theorem try_indirect_finalize_first_commit_keeps
    (h : self.try_indirect_finalize_first_commit = .ok self') : Keeps self self' := by
  unfold try_indirect_finalize_first_commit at h
  split at h
  · cases h
  · split at h
    · cases h
    · obtain ⟨s₁, h₁, h'⟩ := bind_eq_ok h
      obtain ⟨s₂, h₂, h₃⟩ := bind_eq_ok h'
      exact ((check_pending_transactions_in_first_commit_keeps h₁).trans
        (try_indirect_finalize_pending_transactions_in_first_commit_keeps h₂)).trans
          (try_indirect_reject_pending_transactions_in_first_commit_keeps h₃)

/-- The indirect loop pops, round after round, what indirect finalization
of the front lets it pop. -/
theorem indirectLoop_pops : ∀ {fuel : ℕ} {self self' : CommitFinalizer}
    {outs : List CommittedSubDag}, indirectLoop fuel self = .ok (self', outs) →
      Pops self self' outs
  | 0, _, _, _, h => by
      cases h
      exact Pops.refl _
  | fuel + 1, self, self', outs, h => by
      unfold indirectLoop at h
      split at h
      · split at h
        · cases h
          exact Pops.refl _
        · split at h
          · cases h
          · next s hs =>
              dsimp only at h
              have hpop := (try_indirect_finalize_first_commit_keeps hs).pops.trans
                (pop_finalized_commits_pops s)
              split at h
              · next hnil =>
                  cases h
                  simpa [hnil] using hpop
              · split at h
                · cases h
                · next s' ind hind =>
                    cases h
                    simpa using hpop.trans (indirectLoop_pops hind)
      · cases h
        exact Pops.refl _

end indirect

-- ============================================================ a run

/-- One commit processed: the index assertion held, and the operations
after queueing the commit popped what they output. -/
theorem process_commit_pops {self self' : CommitFinalizer} {c : CommittedSubDag}
    {out : List CommittedSubDag} (h : self.process_commit c = .ok (self', out)) :
    (∀ l ∈ self.last_processed_commit, l + 1 = c.commit_ref.index) ∧
      ∃ cs, CommitState.new c = .ok cs ∧
        Pops { self with
          last_processed_commit := some c.commit_ref.index
          pending_commits := self.pending_commits ++ [cs] } self' out := by
  unfold process_commit at h
  split at h
  · cases h
  · next hidx =>
      refine ⟨fun l hl => ?_, ?_⟩
      · -- the assertion: the last processed index is one below
        rw [Option.mem_def.mp hl] at hidx
        simpa using hidx
      · dsimp only at h
        split at h
        · cases h
        · next cs hcs =>
            refine ⟨cs, hcs, ?_⟩
            split at h
            · cases h
            · next s hd =>
                have hpop := (directLoop_keeps hd).pops.trans (pop_finalized_commits_pops s)
                split at h
                · cases h
                  simpa using hpop
                · split at h
                  · cases h
                  · next s' hl =>
                      obtain ⟨s₁, h₁, h₂⟩ := bind_eq_ok hl
                      have hlink := ((link_blocks_in_last_commit_keeps h₁).trans
                        (append_origin_descendants_from_last_commit_keeps h₂)).pops
                      split at h
                      · cases h
                      · next s'' ind hind =>
                          cases h
                          simpa using (hpop.trans hlink).trans (indirectLoop_pops hind)

/-- Over a run, the outputs followed by the queue are the queue followed
by the inputs, the inputs' indices continue the last processed one, and
every output records only allowed indices. -/
theorem process_commits_run : ∀ {inputs : List CommittedSubDag} {self self' : CommitFinalizer}
    {outs : List CommittedSubDag}, (∀ c ∈ inputs, c.rejected_transactions_by_block = []) →
      QueueOK self → self.process_commits inputs = .ok (self', outs) →
      self.queue ++ inputs = outs.map CommittedSubDag.unfinalized ++ self'.queue ∧
      (self.last_processed_commit.toList ++ inputs.map fun c => c.commit_ref.index).IsChain
        (fun i j => j = i + 1) ∧
      self'.get_reject_votes = self.get_reject_votes ∧ ∀ o ∈ outs, Recorded self.get_reject_votes o
  | [], self, self', outs, _, _, h => by
      cases h
      refine ⟨by simp, ?_, rfl, by simp⟩
      cases self.last_processed_commit with
      | none => exact List.IsChain.nil
      | some l => exact List.IsChain.singleton l
  | c :: cs, self, self', outs, hin, hq, h => by
      unfold process_commits at h
      split at h
      · cases h
      · next s₁ out h₁ =>
          split at h
          · cases h
          · next s₂ outs₂ h₂ =>
              cases h
              obtain ⟨hidx, cs₀, hnew, hp⟩ := process_commit_pops h₁
              have hc : c.rejected_transactions_by_block = [] := hin c List.mem_cons_self
              obtain ⟨hcs₀, hok₀⟩ : cs₀.commit = c ∧ StateOK self.get_reject_votes cs₀ :=
                new_ok hc hnew
              -- the queue with the new commit pushed
              have hpush : QueueOK { self with
                  last_processed_commit := some c.commit_ref.index
                  pending_commits := self.pending_commits ++ [cs₀] } := by
                intro s hs
                rcases List.mem_append.mp hs with hs | hs
                · exact hq s hs
                · rw [List.mem_singleton.mp hs]
                  exact hok₀
              obtain ⟨hq₁, hrec₁⟩ := hp.ok hpush
              obtain ⟨ihq, ihc, ihv, ihr⟩ :=
                process_commits_run (fun c' hc' => hin c' (List.mem_cons_of_mem _ hc')) hq₁ h₂
              have hv₁ : s₁.get_reject_votes = self.get_reject_votes := hp.votes
              refine ⟨?_, ?_, ihv.trans hv₁, ?_⟩
              · calc self.queue ++ c :: cs
                    = (self.queue ++ [c.unfinalized]) ++ cs := by
                      rw [CommittedSubDag.unfinalized_of_fresh hc, List.append_assoc]; rfl
                  _ = (out.map CommittedSubDag.unfinalized ++ s₁.queue) ++ cs := by
                      rw [← hp.queue]
                      simp [queue, hcs₀]
                  _ = (out ++ outs₂).map CommittedSubDag.unfinalized ++ self'.queue := by
                      rw [List.append_assoc, ihq, List.map_append, List.append_assoc]
              · -- the index continues the last processed one
                rw [hp.last] at ihc
                cases hlast : self.last_processed_commit with
                | none => simpa [hlast] using ihc
                | some l =>
                    have hl : l + 1 = c.commit_ref.index := hidx l (by simp [hlast])
                    simpa [hl] using ihc
              · intro o ho
                rcases List.mem_append.mp ho with ho | ho
                · exact hrec₁ o ho
                · exact hv₁ ▸ ihr o ho

-- ============================================================ the commit sequence

/-- Over every run from a new finalizer on commits that record nothing
yet: the outputs are a prefix of the inputs, up to what they record, and
the inputs' indices are consecutive; each output records as rejected
only allowed indices; and a pop takes from the front of the queue only
states with nothing pending. -/
theorem process_commits_outputs_prefix (committee : Committee) (gc_depth : ℕ)
    (gv : BlockRef → Option (List (ℕ × ℕ))) (inputs : List CommittedSubDag)
    (final : CommitFinalizer) (outputs : List CommittedSubDag)
    (h_in : ∀ c ∈ inputs, c.rejected_transactions_by_block = [])
    (h : (new committee gc_depth gv).process_commits inputs = .ok (final, outputs)) :
    outputs.map CommittedSubDag.unfinalized <+: inputs ∧
      (inputs.map fun c => c.commit_ref.index).IsChain (fun i j => j = i + 1) ∧
      (∀ o ∈ outputs, Recorded gv o) ∧
      ∀ g : CommitFinalizer, ∃ popped,
        g.pending_commits = popped ++ g.pop_finalized_commits.1.pending_commits ∧
        g.pop_finalized_commits.2 = popped.map CommitState.finalize ∧
        ∀ s ∈ popped, s.pending_blocks = [] ∧ s.pending_transactions = [] := by
  have hq : QueueOK (new committee gc_depth gv) := fun s hs => by cases hs
  obtain ⟨hqueue, hchain, -, hrec⟩ := process_commits_run h_in hq h
  refine ⟨⟨final.queue, ?_⟩, by simpa [new] using hchain, hrec, pop_finalized_commits_spec⟩
  simpa [queue, new] using hqueue.symm

-- ============================================================ an index no block has

/-- Four authorities of stake one: a quorum is three. -/
def fourEqual : Committee := ⟨0, 4, 3, 2, [⟨1⟩, ⟨1⟩, ⟨1⟩, ⟨1⟩]⟩

/-- A block of round one with one transaction. -/
def blockB : Block := ⟨0, 1, 0, 1, 0, [⟨0, 0, 0⟩], [10], []⟩

/-- A leader three rounds above it, by another authority. -/
def blockL : Block := ⟨0, 4, 1, 2, 0, [⟨3, 1, 3⟩], [], []⟩

/-- The certifier's reject votes: one authority rejects index 5 of `blockB`. -/
def votesB (r : BlockRef) : Option (List (ℕ × ℕ)) :=
  if r = blockB.reference then some [(5, 1)] else some []

/-- A commit of one block, decided with local blocks. -/
def commitOf (b : Block) (i : ℕ) : CommittedSubDag :=
  ⟨b.reference, [b], 0, ⟨i, 0⟩, true, false, [], false⟩

/-- A reject vote on an index the block does not have stays pending below
a quorum, and is rejected indirectly by the commit three rounds above. -/
theorem process_commits_rejects_unknown_index :
    blockB.transactions.length = 1 ∧
      ((new fourEqual 50 votesB).process_commits [commitOf blockB 1, commitOf blockL 2]).toOption.map
        (fun r => r.2.map CommittedSubDag.rejected_transactions_by_block) =
        some [[(blockB.reference, [5])], []] :=
  ⟨rfl, by decide⟩

theorem process_commits_outputs_prefix_sample :
    (∀ c ∈ [commitOf blockB 1, commitOf blockL 2], c.rejected_transactions_by_block = []) ∧
      ∃ final outputs,
        (new fourEqual 50 votesB).process_commits [commitOf blockB 1, commitOf blockL 2] =
          .ok (final, outputs) ∧
        outputs.map CommittedSubDag.unfinalized <+: [commitOf blockB 1, commitOf blockL 2] ∧
        ∀ o ∈ outputs, Recorded votesB o := by
  have h_in : ∀ c ∈ [commitOf blockB 1, commitOf blockL 2],
      c.rejected_transactions_by_block = [] := by decide
  obtain ⟨final, outputs, h⟩ : ∃ final outputs,
      (new fourEqual 50 votesB).process_commits [commitOf blockB 1, commitOf blockL 2] =
        .ok (final, outputs) := ⟨_, _, rfl⟩
  obtain ⟨hpre, -, hrec, -⟩ :=
    process_commits_outputs_prefix fourEqual 50 votesB _ final outputs h_in h
  exact ⟨h_in, final, outputs, h, hpre, hrec⟩

end CommitFinalizer

end MysoCore.Consensus
