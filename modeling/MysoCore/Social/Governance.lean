/-
Governance (myso-social/sources/governance.move): a registry
(`GovernanceDAO`) per domain, the ecosystem, proof of creativity and
each approved platform. Users nominate themselves as delegates and are
voted up or down; at the end of each delegate term the panel is elected
again from the incumbents and the nominees. A proposal is submitted
against a stake, reviewed by the delegates, voted on by the community
with quadratically priced votes (in public, or encrypted until
finalization), and then approved, with its reward pool shared among
the winning side, or rejected.

# The model

The registry keeps its tables (`Table<address, Delegate>`,
`Table<ID, Proposal>`, the nominees and the voters) as sorted
association lists, its `VecSet`s as lists in insertion order, and its
status table `Table<u8, vector<ID>>`, which `initialize_registry_tables`
fills with an entry for each of the seven statuses and nothing removes,
as a function of the status. A proposal's dynamic fields are fields of
its model, empty until the code adds them, and its reward pool is the
balance's value. Each entry function takes the registry and what it is
passed, the value of a coin it takes payment from, the ID `object::new`
gives a new proposal and the decryption of a ballot under the keys it is
given, and returns the new registry with the coins it sends out, or the
abort. `vector::destroy_empty` aborts on a vector that is not empty, as
Move's VM does. The events, the titles, descriptions and metadata of
proposals, the delegates' reasons (which nothing reads), the treasury
(which nothing fills), the version checks and `migrate_registry` are
left out.

A run is a sequence of calls on one registry, each under its
transaction context; an aborted call leaves the registry as it was.
-/
import MysoCore.Social.Basic
import MysoCore.Lib.SortedMap
import Mathlib

namespace MysoCore.Social.Governance

open SortedMap ExceptFold

/-- The aborts of the modelled code, named by the source's constants. -/
inductive Abort
  | EUnauthorized
  | EInvalidAmount
  | EInvalidParameter
  | ENotDelegate
  | EAlreadyDelegate
  | EProposalNotFound
  | EInvalidProposalStatus
  | EAlreadyVoted
  | ENotVotingPhase
  | EVotingPeriodNotEnded
  | EVotingPeriodEnded
  | EExceedsMaxVotes
  | EInvalidVoteCount
  | EInvalidRegistry
  | EAlreadyNominated
  | EDelegateAnonNotAllowed
  | EOverflow
  -- vec_set.move, for `vec_set::insert` of a key already there
  | EKeyAlreadyExists
  -- dynamic_field.move, for `table::add` of a key already there and
  -- `table::borrow` or `table::remove` of a key not there
  | EFieldAlreadyExists
  | EFieldDoesNotExist
  -- balance.move, for `balance::split` and `coin::split`
  | ENotEnough
  -- Move's own abort of `vector::destroy_empty` on a vector that is not
  -- empty
  | VectorOperationError
  deriving DecidableEq, Repr

def MAX_U64 : ℕ := 18446744073709551615

def PROPOSAL_TYPE_ECOSYSTEM : ℕ := 0
def PROPOSAL_TYPE_PROOF_OF_CREATIVITY : ℕ := 1
def PROPOSAL_TYPE_PLATFORM : ℕ := 3

/-- A proposal's status (`STATUS_SUBMITTED` and the rest). -/
inductive Status
  | SUBMITTED
  | DELEGATE_REVIEW
  | COMMUNITY_VOTING
  | APPROVED
  | REJECTED
  | IMPLEMENTED
  | OWNER_RESCIND
  deriving DecidableEq, Repr

/-- The coins a call sends out, in order. -/
abbrev Payments := List (Payee × ℕ)

/-- `Delegate`. -/
structure Delegate where
  address : ℕ
  upvotes : ℕ
  downvotes : ℕ
  proposals_reviewed : ℕ
  proposals_submitted : ℕ
  sided_winning_proposals : ℕ
  sided_losing_proposals : ℕ
  term_start : ℕ
  term_end : ℕ
  deriving DecidableEq, Repr

/-- `NominatedDelegate`. -/
structure NominatedDelegate where
  address : ℕ
  scheduled_term_start_epoch : ℕ
  upvotes : ℕ
  downvotes : ℕ
  deriving DecidableEq, Repr

/-- An encrypted ballot (`bf_hmac_encryption::EncryptedObject`), by its
blob. -/
structure EncryptedObject where
  blob : List ℕ
  deriving DecidableEq, Repr

/-- `Proposal`, without its title, description and metadata, with its
dynamic fields. -/
structure Proposal where
  proposal_type : ℕ
  reference_id : Option ℕ
  submitter : ℕ
  submission_time : ℕ
  delegate_approval_count : ℕ
  delegate_rejection_count : ℕ
  community_votes_for : ℕ
  community_votes_against : ℕ
  status : Status
  voting_start_time : ℕ
  voting_end_time : ℕ
  reward_pool : ℕ
  -- `DELEGATE_VOTES_FIELD`, a `Table<address, bool>`
  delegate_votes : List (ℕ × Bool)
  -- `VOTED_DELEGATES_LIST_FIELD`, added by the first delegate vote
  voted_delegates_list : List ℕ
  -- the `VecSet`s `VOTED_COMMUNITY_FIELD`, `VOTED_FOR_FIELD` and
  -- `VOTED_AGAINST_FIELD`
  voted_community : List ℕ
  voted_for : List ℕ
  voted_against : List ℕ
  -- `ENCRYPTED_VOTES_FIELD` and `ANON_VOTERS_FIELD`, added by the first
  -- anonymous vote
  encrypted_votes : List (ℕ × EncryptedObject)
  anon_voters : List ℕ
  deriving DecidableEq, Repr

/-- `GovernanceDAO`, without its object id, treasury and version. -/
structure GovernanceDAO where
  registry_type : ℕ
  delegate_count : ℕ
  delegate_term_epochs : ℕ
  proposal_submission_cost : ℕ
  max_votes_per_user : ℕ
  quadratic_base_cost : ℕ
  voting_period_ms : ℕ
  quorum_votes : ℕ
  delegates : List (ℕ × Delegate)
  proposals : List (ℕ × Proposal)
  proposals_by_status : Status → List ℕ
  nominated_delegates : List (ℕ × NominatedDelegate)
  delegate_addresses : List ℕ
  nominee_addresses : List ℕ
  -- target -> (voter -> upvote)
  voters : List (ℕ × List (ℕ × Bool))

/-- The seven configuration parameters, in the order the source passes
them. -/
structure GovernanceParameters where
  delegate_count : ℕ
  delegate_term_epochs : ℕ
  proposal_submission_cost : ℕ
  max_votes_per_user : ℕ
  quadratic_base_cost : ℕ
  voting_period_ms : ℕ
  quorum_votes : ℕ
  deriving DecidableEq, Repr

-- ============================================================ Move's containers

/-- `table::add`: a new key's entry, or the abort when the key is there. -/
def table_add {α : Type} (k : ℕ) (v : α) (t : List (ℕ × α)) : Except Abort (List (ℕ × α)) :=
  match lookup k t with
  | some _ => throw .EFieldAlreadyExists
  | none => pure (alter k (fun _ => v) t)

/-- `table::borrow`: a key's value, or the abort when the key is not there. -/
def table_borrow {α : Type} (k : ℕ) (t : List (ℕ × α)) : Except Abort α :=
  match lookup k t with
  | some v => pure v
  | none => throw .EFieldDoesNotExist

/-- `vec_set::insert`: the key added at the end, or the abort when it is
there. -/
def vec_set_insert (set : List ℕ) (key : ℕ) : Except Abort (List ℕ) := do
  require (key ∉ set) .EKeyAlreadyExists
  pure (set ++ [key])

/-- `vector::destroy_empty`. -/
def destroy_empty {α : Type} (v : List α) : Except Abort Unit :=
  require v.isEmpty .VectorOperationError

-- ============================================================ registries

/-- The status table `initialize_registry_tables` fills: an empty vector
for each of the seven statuses. -/
def initialize_registry_tables : Status → List ℕ := fun _ => []

/-- A new registry of a type, with its parameters and empty tables, as
`bootstrap_init` and `create_platform_governance` build it. -/
def newRegistry (registry_type : ℕ) (params : GovernanceParameters) : GovernanceDAO where
  registry_type := registry_type
  delegate_count := params.delegate_count
  delegate_term_epochs := params.delegate_term_epochs
  proposal_submission_cost := params.proposal_submission_cost
  max_votes_per_user := params.max_votes_per_user
  quadratic_base_cost := params.quadratic_base_cost
  voting_period_ms := params.voting_period_ms
  quorum_votes := params.quorum_votes
  delegates := []
  proposals := []
  proposals_by_status := initialize_registry_tables
  nominated_delegates := []
  delegate_addresses := []
  nominee_addresses := []
  voters := []

/-- `bootstrap_init`: the ecosystem registry and the proof of creativity
registry. -/
def bootstrap_init : GovernanceDAO × GovernanceDAO :=
  (newRegistry PROPOSAL_TYPE_ECOSYSTEM
      ⟨3, 90, 100000000, 10, 10000000, 7 * 24 * 60 * 60 * 1000, 20⟩,
    newRegistry PROPOSAL_TYPE_PROOF_OF_CREATIVITY
      ⟨2, 180, 25000000, 3, 2500000, 24 * 60 * 60 * 1000, 10⟩)

/-- `create_platform_governance`, whose parameters are not checked. -/
def create_platform_governance (params : GovernanceParameters) : GovernanceDAO :=
  newRegistry PROPOSAL_TYPE_PLATFORM params

/-- `update_governance_parameters_internal`. -/
def update_governance_parameters_internal (registry : GovernanceDAO)
    (params : GovernanceParameters) : Except Abort GovernanceDAO := do
  require (1 < params.delegate_count) .EInvalidParameter
  require (0 < params.delegate_term_epochs) .EInvalidParameter
  require (0 < params.max_votes_per_user) .EInvalidParameter
  require (0 < params.voting_period_ms) .EInvalidParameter
  require (0 < params.quorum_votes) .EInvalidParameter
  pure { registry with
    delegate_count := params.delegate_count
    delegate_term_epochs := params.delegate_term_epochs
    proposal_submission_cost := params.proposal_submission_cost
    max_votes_per_user := params.max_votes_per_user
    quadratic_base_cost := params.quadratic_base_cost
    voting_period_ms := params.voting_period_ms
    quorum_votes := params.quorum_votes }

/-- `update_platform_governance_parameters`, which the platform module
calls for a platform's developer. -/
def update_platform_governance_parameters (registry : GovernanceDAO) (platform_developer : ℕ)
    (params : GovernanceParameters) (ctx : TxContext) : Except Abort GovernanceDAO := do
  require (registry.registry_type = PROPOSAL_TYPE_PLATFORM) .EInvalidRegistry
  require (platform_developer = ctx.sender) .EUnauthorized
  update_governance_parameters_internal registry params

/-- `update_governance_parameters`, under the `GovernanceAdminCap`. -/
def update_governance_parameters (registry : GovernanceDAO) (params : GovernanceParameters) :
    Except Abort GovernanceDAO := do
  require (registry.registry_type ≠ PROPOSAL_TYPE_PLATFORM) .EInvalidRegistry
  update_governance_parameters_internal registry params

-- ============================================================ delegates

/-- `nominate_delegate`: the caller becomes a nominee for the next term. -/
def nominate_delegate (registry : GovernanceDAO) (ctx : TxContext) :
    Except Abort GovernanceDAO := do
  require (lookup ctx.sender registry.delegates).isNone .EAlreadyDelegate
  require (lookup ctx.sender registry.nominated_delegates).isNone .EAlreadyNominated
  let scheduled_term_start_epoch :=
    (ctx.epoch / registry.delegate_term_epochs + 1) * registry.delegate_term_epochs
  let nominated_delegates ← table_add ctx.sender ⟨ctx.sender, scheduled_term_start_epoch, 0, 0⟩
    registry.nominated_delegates
  let nominee_addresses ← vec_set_insert registry.nominee_addresses ctx.sender
  let voters ← table_add ctx.sender [] registry.voters
  pure { registry with nominated_delegates, nominee_addresses, voters }

/-- The removal of a previous vote from the tallies `(upvotes,
downvotes)`, guarded against underflow. -/
def withdrawVote (tally : ℕ × ℕ) (previous_vote : Bool) : Except Abort (ℕ × ℕ) :=
  if previous_vote then do
    require (0 < tally.1) .EOverflow
    pure (tally.1 - 1, tally.2)
  else do
    require (0 < tally.2) .EOverflow
    pure (tally.1, tally.2 - 1)

/-- The addition of a vote to the tallies, guarded against overflow. -/
def addVote (tally : ℕ × ℕ) (upvote : Bool) : Except Abort (ℕ × ℕ) :=
  if upvote then do
    require (tally.1 ≤ MAX_U64 - 1) .EOverflow
    pure (tally.1 + 1, tally.2)
  else do
    require (tally.2 ≤ MAX_U64 - 1) .EOverflow
    pure (tally.1, tally.2 + 1)

/-- The vote of `voter` on a target with tallies `tally` and voter table
`voter_table`, which both branches of `vote_for_delegate` (an active
delegate, a nominee) run on their own record: the new tallies and voter
table, or `none` when the vote repeats the voter's previous one and the
call returns. -/
def castDelegateVote (tally : ℕ × ℕ) (voter_table : List (ℕ × Bool)) (voter : ℕ)
    (upvote : Bool) : Except Abort (Option ((ℕ × ℕ) × List (ℕ × Bool))) :=
  match lookup voter voter_table with
  | some previous_vote =>
      if previous_vote = upvote then pure none
      else do
        let tally ← withdrawVote tally previous_vote
        let tally ← addVote tally upvote
        pure (some (tally, alter voter (fun _ => upvote) voter_table))
  | none => do
      let tally ← addVote tally upvote
      pure (some (tally, alter voter (fun _ => upvote) voter_table))

/-- `vote_for_delegate`: a vote for or against an active delegate, or
else a nominee; a voter may change their vote. The target's voter table
is created empty if it has none. -/
def vote_for_delegate (registry : GovernanceDAO) (target_address : ℕ) (upvote : Bool)
    (ctx : TxContext) : Except Abort GovernanceDAO := do
  require (ctx.sender ≠ target_address) .EUnauthorized
  let voter_table := (lookup target_address registry.voters).getD []
  match lookup target_address registry.delegates with
  | some delegate => do
      match ← castDelegateVote (delegate.upvotes, delegate.downvotes) voter_table ctx.sender upvote with
      | none => pure registry
      | some ((upvotes, downvotes), voter_table) =>
          pure { registry with
            delegates := alter target_address (fun _ => { delegate with upvotes, downvotes })
              registry.delegates
            voters := alter target_address (fun _ => voter_table) registry.voters }
  | none =>
      match lookup target_address registry.nominated_delegates with
      | some nominee => do
          match ← castDelegateVote (nominee.upvotes, nominee.downvotes) voter_table ctx.sender
              upvote with
          | none => pure registry
          | some ((upvotes, downvotes), voter_table) =>
              pure { registry with
                nominated_delegates := alter target_address
                  (fun _ => { nominee with upvotes, downvotes }) registry.nominated_delegates
                voters := alter target_address (fun _ => voter_table) registry.voters }
      | none => throw .ENotDelegate

-- ============================================================ the panel election

/-- A candidate of the election: the five parallel vectors
`candidate_addresses`, `candidate_upvotes`, `candidate_downvotes`,
`candidate_net_votes` and `candidate_is_incumbent` at one index, which
every write of the code moves together. -/
structure Candidate where
  address : ℕ
  upvotes : ℕ
  downvotes : ℕ
  net_votes : ℕ
  is_incumbent : Bool
  deriving DecidableEq, Repr

def baseline_score : ℕ := 1000

/-- The net score of a candidate around the baseline of 1000, at least 0:
the computation the two gathering loops repeat. -/
def net_votes (upvotes downvotes : ℕ) : ℕ :=
  if downvotes ≤ upvotes then baseline_score + (upvotes - downvotes)
  else if baseline_score ≤ downvotes - upvotes then 0
  else baseline_score - (downvotes - upvotes)

/-- The gathering loops: each address of a tracking set whose record is
in its table becomes a candidate; one not found is skipped. -/
def gatherCandidates (tallies : ℕ → Option (ℕ × ℕ)) (is_incumbent : Bool) (keys : List ℕ) :
    List Candidate :=
  keys.filterMap fun addr => (tallies addr).map fun t =>
    ⟨addr, t.1, t.2, net_votes t.1 t.2, is_incumbent⟩

/-- `should_swap`: `b` has more net votes than `a`, or as many and is an
incumbent while `a` is not. -/
def should_swap (a b : Candidate) : Bool :=
  if a.net_votes < b.net_votes then true
  else if b.net_votes = a.net_votes then b.is_incumbent && !a.is_incumbent
  else false

/-- One step of the inner loop of the sort: the candidates at `a` and `b`
are swapped when `should_swap` says so. -/
def compareSwap (a : ℕ) (l : List Candidate) (b : ℕ) : List Candidate :=
  match l[a]?, l[b]? with
  | some x, some y => if should_swap x y then (l.set a y).set b x else l
  | _, _ => l

/-- The inner loop of the sort: `b` from `a + 1` to the last index. -/
def sortPass (l : List Candidate) (a : ℕ) : List Candidate :=
  (List.range' (a + 1) (l.length - (a + 1))).foldl (compareSwap a) l

/-- The exchange sort of the candidates, higher net votes first: the
outer loop, `a` from 0 to the last index. -/
def sortCandidates (l : List Candidate) : List Candidate :=
  (List.range l.length).foldl sortPass l

/-- The loop that adds a winner to the emptied delegate table and to the
tracking set, for a term from `term_start` to `term_end`. -/
def addWinner (term_start term_end : ℕ) (acc : List (ℕ × Delegate) × List ℕ)
    (winner : Candidate) : Except Abort (List (ℕ × Delegate) × List ℕ) := do
  let delegates ← table_add winner.address
    ⟨winner.address, winner.upvotes, winner.downvotes, 0, 0, 0, 0, term_start, term_end⟩ acc.1
  let delegate_addresses ← vec_set_insert acc.2 winner.address
  pure (delegates, delegate_addresses)

/-- The election of `update_delegate_panel` past its epoch check: gather
the incumbents and the nominees, sort them, remove every previous
delegate and nominee, add the first `min(delegate_count, candidates)`,
and destroy the helper vectors, which the loops only read. -/
def electPanel (registry : GovernanceDAO) (ctx : TxContext) : Except Abort GovernanceDAO := do
  let active_delegate_keys_vec := registry.delegate_addresses
  let nominee_keys_vec := registry.nominee_addresses
  let candidates := sortCandidates
    (gatherCandidates (fun addr => (lookup addr registry.delegates).map
        fun d => (d.upvotes, d.downvotes)) true active_delegate_keys_vec ++
      gatherCandidates (fun addr => (lookup addr registry.nominated_delegates).map
        fun n => (n.upvotes, n.downvotes)) false nominee_keys_vec)
  let final_winner_count :=
    if candidates.length < registry.delegate_count then candidates.length
    else registry.delegate_count
  let delegates := active_delegate_keys_vec.foldl (fun t addr => eraseKey addr t)
    registry.delegates
  let nominated_delegates := nominee_keys_vec.foldl (fun t addr => eraseKey addr t)
    registry.nominated_delegates
  let (delegates, delegate_addresses) ← (candidates.take final_winner_count).foldlM
    (addWinner ctx.epoch (ctx.epoch + registry.delegate_term_epochs)) (delegates, [])
  -- the five candidate vectors have one length: one check stands for five
  destroy_empty candidates
  destroy_empty active_delegate_keys_vec
  destroy_empty nominee_keys_vec
  pure { registry with
    delegates, nominated_delegates, delegate_addresses
    nominee_addresses := [] }

/-- `update_delegate_panel`: the election, at an epoch that is a positive
multiple of the term. -/
def update_delegate_panel (registry : GovernanceDAO) (ctx : TxContext) :
    Except Abort GovernanceDAO := do
  require (0 < registry.delegate_term_epochs) .EInvalidParameter
  if ctx.epoch = 0 ∨ ctx.epoch % registry.delegate_term_epochs ≠ 0 then pure registry
  else electPanel registry ctx

-- ============================================================ proposals

/-- The status lists' update of a transition: the loop that removes the
proposal's ID from its old status's vector (its first occurrence, then
`break`). -/
def removeFromStatus (proposals_by_status : Status → List ℕ) (status : Status) (id : ℕ) :
    Status → List ℕ :=
  Function.update proposals_by_status status ((proposals_by_status status).erase id)

/-- The `push_back` of the proposal's ID onto its new status's vector. -/
def pushToStatus (proposals_by_status : Status → List ℕ) (status : Status) (id : ℕ) :
    Status → List ℕ :=
  Function.update proposals_by_status status (proposals_by_status status ++ [id])

/-- The proposal of an ID, or `EProposalNotFound`. -/
def borrowProposal (registry : GovernanceDAO) (id : ℕ) : Except Abort Proposal :=
  match lookup id registry.proposals with
  | some proposal => pure proposal
  | none => throw .EProposalNotFound

/-- A proposal written back (`table::remove` then `table::add`, or a write
through `table::borrow_mut`). -/
def setProposal (registry : GovernanceDAO) (id : ℕ) (proposal : Proposal) : GovernanceDAO :=
  { registry with proposals := alter id (fun _ => proposal) registry.proposals }

/-- A delegate's record updated, if the address is a delegate. -/
def updateDelegate (delegates : List (ℕ × Delegate)) (addr : ℕ) (f : Delegate → Delegate) :
    List (ℕ × Delegate) :=
  match lookup addr delegates with
  | some d => alter addr (fun _ => f d) delegates
  | none => delegates

/-- The return of a whole reward pool to an address: a coin when it is
not empty. -/
def refund (recipient amount : ℕ) : Payments :=
  if 0 < amount then [(.address recipient, amount)] else []

/-- The reference a proposal keeps: a proof of creativity proposal must
have one, its `reference_id` or else its `disputed_id`. -/
def actualReferenceId (proposal_type : ℕ) (disputed_id reference_id : Option ℕ) :
    Except Abort (Option ℕ) :=
  if proposal_type = PROPOSAL_TYPE_ECOSYSTEM then pure reference_id
  else if proposal_type = PROPOSAL_TYPE_PROOF_OF_CREATIVITY then
    match reference_id, disputed_id with
    | some r, _ => pure (some r)
    | none, some d => pure (some d)
    | none, none => throw .EInvalidParameter
  else pure reference_id

/-- `submit_proposal_internal`, paying the submission cost from a coin of
value `coin` into the new proposal's reward pool: the registry and the
coin's value after. -/
def submit_proposal_internal (registry : GovernanceDAO) (proposal_type : ℕ)
    (reference_id : Option ℕ) (coin proposal_id : ℕ) (ctx : TxContext) :
    Except Abort (GovernanceDAO × ℕ) := do
  require (registry.proposal_submission_cost ≤ coin) .EInvalidAmount
  let coin ← balance_split .ENotEnough coin registry.proposal_submission_cost
  let proposal : Proposal :=
    { proposal_type, reference_id
      submitter := ctx.sender
      submission_time := ctx.epoch_timestamp_ms
      delegate_approval_count := 0
      delegate_rejection_count := 0
      community_votes_for := 0
      community_votes_against := 0
      status := .DELEGATE_REVIEW
      voting_start_time := 0
      voting_end_time := 0
      reward_pool := registry.proposal_submission_cost
      delegate_votes := []
      voted_delegates_list := []
      voted_community := []
      voted_for := []
      voted_against := []
      encrypted_votes := []
      anon_voters := [] }
  let proposals ← table_add proposal_id proposal registry.proposals
  pure ({ registry with
    proposals
    proposals_by_status := pushToStatus registry.proposals_by_status .DELEGATE_REVIEW proposal_id
    delegates := updateDelegate registry.delegates ctx.sender
      fun d => { d with proposals_submitted := d.proposals_submitted + 1 } }, coin)

/-- `submit_proposal`: a proposal of the registry's own type. -/
def submit_proposal (registry : GovernanceDAO) (proposal_type : ℕ)
    (disputed_id reference_id : Option ℕ) (coin proposal_id : ℕ) (ctx : TxContext) :
    Except Abort (GovernanceDAO × ℕ) := do
  require (proposal_type ≤ PROPOSAL_TYPE_PLATFORM) .EInvalidParameter
  require (registry.registry_type = proposal_type) .EInvalidRegistry
  let actual_reference_id ← actualReferenceId proposal_type disputed_id reference_id
  submit_proposal_internal registry proposal_type actual_reference_id coin proposal_id ctx

/-- `submit_ecosystem_proposal`. -/
def submit_ecosystem_proposal (registry : GovernanceDAO) (reference_id : Option ℕ)
    (coin proposal_id : ℕ) (ctx : TxContext) : Except Abort (GovernanceDAO × ℕ) :=
  submit_proposal registry PROPOSAL_TYPE_ECOSYSTEM none reference_id coin proposal_id ctx

/-- `submit_proof_of_creativity_proposal`. -/
def submit_proof_of_creativity_proposal (registry : GovernanceDAO) (creative_content_id : ℕ)
    (coin proposal_id : ℕ) (ctx : TxContext) : Except Abort (GovernanceDAO × ℕ) :=
  submit_proposal registry PROPOSAL_TYPE_PROOF_OF_CREATIVITY none (some creative_content_id) coin
    proposal_id ctx

/-- `rescind_proposal`: the submitter withdraws a proposal under review
and gets its pool back. -/
def rescind_proposal (registry : GovernanceDAO) (proposal_id : ℕ) (ctx : TxContext) :
    Except Abort (GovernanceDAO × Payments) := do
  let proposal ← borrowProposal registry proposal_id
  require (proposal.submitter = ctx.sender) .EUnauthorized
  require (proposal.status = .DELEGATE_REVIEW) .EInvalidProposalStatus
  let proposals_by_status :=
    removeFromStatus registry.proposals_by_status .DELEGATE_REVIEW proposal_id
  pure ({ setProposal registry proposal_id
      { proposal with reward_pool := 0, status := .OWNER_RESCIND } with
    proposals_by_status := pushToStatus proposals_by_status .OWNER_RESCIND proposal_id },
    refund ctx.sender proposal.reward_pool)

/-- `move_to_community_voting_by_id`: the voting period starts now. -/
def move_to_community_voting_by_id (registry : GovernanceDAO) (proposal_id : ℕ)
    (ctx : TxContext) : Except Abort GovernanceDAO := do
  let proposal ← table_borrow proposal_id registry.proposals
  let proposals_by_status :=
    removeFromStatus registry.proposals_by_status .DELEGATE_REVIEW proposal_id
  pure { setProposal registry proposal_id
      { proposal with
        status := .COMMUNITY_VOTING
        voting_start_time := ctx.epoch_timestamp_ms
        voting_end_time := ctx.epoch_timestamp_ms + registry.voting_period_ms } with
    proposals_by_status := pushToStatus proposals_by_status .COMMUNITY_VOTING proposal_id }

/-- `reject_proposal_by_id`: the submitter gets the pool back. -/
def reject_proposal_by_id (registry : GovernanceDAO) (proposal_id : ℕ) :
    Except Abort (GovernanceDAO × Payments) := do
  let proposal ← table_borrow proposal_id registry.proposals
  let proposals_by_status :=
    removeFromStatus registry.proposals_by_status .DELEGATE_REVIEW proposal_id
  pure ({ setProposal registry proposal_id
      { proposal with status := .REJECTED, reward_pool := 0 } with
    proposals_by_status := pushToStatus proposals_by_status .REJECTED proposal_id },
    refund proposal.submitter proposal.reward_pool)

/-- The decision of `delegate_vote_on_proposal` once the vote is counted:
more than half of the delegates approving moves the proposal to
community voting, more than half rejecting rejects it. -/
def delegateDecision (registry : GovernanceDAO) (proposal_id : ℕ) (proposal : Proposal)
    (ctx : TxContext) : Except Abort (GovernanceDAO × Payments) :=
  let total_delegates := registry.delegates.length
  if total_delegates / 2 < proposal.delegate_approval_count then do
    let registry ← move_to_community_voting_by_id registry proposal_id ctx
    pure (registry, [])
  else if total_delegates / 2 < proposal.delegate_rejection_count then
    reject_proposal_by_id registry proposal_id
  else pure (registry, [])

/-- `delegate_vote_on_proposal`: one vote per delegate on a proposal
under review. -/
def delegate_vote_on_proposal (registry : GovernanceDAO) (proposal_id : ℕ) (approve : Bool)
    (ctx : TxContext) : Except Abort (GovernanceDAO × Payments) := do
  require (lookup ctx.sender registry.delegates).isSome .ENotDelegate
  let proposal ← borrowProposal registry proposal_id
  require (proposal.status = .DELEGATE_REVIEW) .EInvalidProposalStatus
  require (lookup ctx.sender proposal.delegate_votes).isNone .EAlreadyVoted
  let proposal := { proposal with
    delegate_votes := alter ctx.sender (fun _ => approve) proposal.delegate_votes
    voted_delegates_list := proposal.voted_delegates_list ++ [ctx.sender]
    delegate_approval_count :=
      if approve then proposal.delegate_approval_count + 1 else proposal.delegate_approval_count
    delegate_rejection_count :=
      if approve then proposal.delegate_rejection_count else proposal.delegate_rejection_count + 1 }
  let registry := { setProposal registry proposal_id proposal with
    delegates := updateDelegate registry.delegates ctx.sender
      fun d => { d with proposals_reviewed := d.proposals_reviewed + 1 } }
  delegateDecision registry proposal_id proposal ctx

/-- `reject_proposal_manually`: a delegate rejects a proposal under
review. -/
def reject_proposal_manually (registry : GovernanceDAO) (proposal_id : ℕ) (ctx : TxContext) :
    Except Abort (GovernanceDAO × Payments) := do
  require (lookup ctx.sender registry.delegates).isSome .ENotDelegate
  let proposal ← borrowProposal registry proposal_id
  require (proposal.status = .DELEGATE_REVIEW) .EInvalidProposalStatus
  reject_proposal_by_id registry proposal_id

/-- `calculate_vote_cost`: the first vote is free, `n` votes cost
`quadratic_base_cost * (n^2 - 1)`. -/
def calculate_vote_cost (vote_count : ℕ) (registry : GovernanceDAO) : ℕ :=
  if vote_count ≤ 1 then 0
  else registry.quadratic_base_cost * (vote_count * vote_count - 1)

/-- The payment of a vote's cost from a coin of value `coin` into a pool:
the coin's value and the pool after. -/
def payVoteCost (vote_cost coin pool : ℕ) : Except Abort (ℕ × ℕ) :=
  if 0 < vote_cost then do
    require (vote_cost ≤ coin) .EInvalidAmount
    let coin ← balance_split .ENotEnough coin vote_cost
    pure (coin, pool + vote_cost)
  else pure (coin, pool)

/-- The tally of a public vote of weight `vote_count` by `voter`, who is
added to the side they vote for. -/
def tallyCommunityVote (proposal : Proposal) (voter vote_count : ℕ) (approve : Bool) :
    Except Abort Proposal :=
  if approve then do
    let voted_for ← vec_set_insert proposal.voted_for voter
    pure { proposal with
      community_votes_for := proposal.community_votes_for + vote_count, voted_for }
  else do
    let voted_against ← vec_set_insert proposal.voted_against voter
    pure { proposal with
      community_votes_against := proposal.community_votes_against + vote_count, voted_against }

/-- `community_vote_on_proposal`: a public vote of weight `vote_count`,
paid from a coin of value `coin`: the registry and the coin's value
after. -/
def community_vote_on_proposal (registry : GovernanceDAO) (proposal_id vote_count : ℕ)
    (approve : Bool) (coin : ℕ) (ctx : TxContext) : Except Abort (GovernanceDAO × ℕ) := do
  let vote_cost := calculate_vote_cost vote_count registry
  let proposal ← borrowProposal registry proposal_id
  require (proposal.status = .COMMUNITY_VOTING) .ENotVotingPhase
  require (ctx.epoch_timestamp_ms ≤ proposal.voting_end_time) .EVotingPeriodEnded
  require (0 < vote_count) .EInvalidVoteCount
  require (vote_count ≤ registry.max_votes_per_user) .EExceedsMaxVotes
  require (ctx.sender ∉ proposal.voted_community) .EAlreadyVoted
  let (coin, reward_pool) ← payVoteCost vote_cost coin proposal.reward_pool
  let voted_community ← vec_set_insert proposal.voted_community ctx.sender
  let proposal ← tallyCommunityVote { proposal with reward_pool, voted_community } ctx.sender
    vote_count approve
  pure (setProposal registry proposal_id proposal, coin)

/-- `community_vote_anonymous`: an encrypted ballot, counted at
finalization. -/
def community_vote_anonymous (registry : GovernanceDAO) (proposal_id : ℕ)
    (encrypted_vote : EncryptedObject) (ctx : TxContext) : Except Abort GovernanceDAO := do
  let proposal ← borrowProposal registry proposal_id
  require (proposal.status = .COMMUNITY_VOTING) .ENotVotingPhase
  require (ctx.epoch_timestamp_ms ≤ proposal.voting_end_time) .EVotingPeriodEnded
  require (lookup ctx.sender registry.delegates).isNone .EDelegateAnonNotAllowed
  require (ctx.sender ∉ proposal.voted_community) .EAlreadyVoted
  let voted_community ← vec_set_insert proposal.voted_community ctx.sender
  let encrypted_votes ← table_add ctx.sender encrypted_vote proposal.encrypted_votes
  let anon_voters ← vec_set_insert proposal.anon_voters ctx.sender
  pure (setProposal registry proposal_id
    { proposal with voted_community, encrypted_votes, anon_voters })

-- ============================================================ finalization

/-- One step of the payout loop of `distribute_rewards`: the voter at
index `idx` gets `per_voter_reward`, the last one with the dust, split
from the pool. -/
def payVoter (per_voter_reward dust voter_count : ℕ) (acc : ℕ × Payments) (v : ℕ × ℕ) :
    Except Abort (ℕ × Payments) :=
  let reward_amount := if v.2 = voter_count - 1 then per_voter_reward + dust else per_voter_reward
  if 0 < reward_amount then do
    let pool ← balance_split .ENotEnough acc.1 reward_amount
    pure (pool, acc.2 ++ [(.address v.1, reward_amount)])
  else pure acc

/-- The equal shares of `distribute_rewards` among `n > 0` winners, from
the loop over the winners' vector to its `destroy_empty`. -/
def shareRewards (proposal : Proposal) (voters_vec : List ℕ) :
    Except Abort (Proposal × Payments) := do
  let total_reward := proposal.reward_pool
  let voter_count := voters_vec.length
  let per_voter_reward := total_reward / voter_count
  let total_distributed := per_voter_reward * voter_count
  let dust := if total_distributed < total_reward then total_reward - total_distributed else 0
  let (reward_pool, payments) ← voters_vec.zipIdx.foldlM
    (payVoter per_voter_reward dust voter_count) (total_reward, [])
  require (reward_pool = 0) .EInvalidAmount
  destroy_empty voters_vec
  pure ({ proposal with reward_pool }, payments)

/-- `distribute_rewards`: the pool goes to the voters of the winning side,
in equal shares with the dust to the last, or back to the submitter when
that side has no voter. -/
def distribute_rewards (proposal : Proposal) (approve_won : Bool) :
    Except Abort (Proposal × Payments) :=
  let total_reward := proposal.reward_pool
  if total_reward = 0 then pure (proposal, [])
  else
    let voters_vec := if approve_won then proposal.voted_for else proposal.voted_against
    if voters_vec.length = 0 then do
      destroy_empty voters_vec
      pure ({ proposal with reward_pool := 0 }, [(.address proposal.submitter, total_reward)])
    else shareRewards proposal voters_vec

/-- One step of the loop of `finalize_proposal` over the delegates who
voted: one still a delegate is counted on the winning or the losing
side. -/
def sideDelegate (delegate_votes : List (ℕ × Bool)) (majority_approve : Bool)
    (delegates : List (ℕ × Delegate)) (addr : ℕ) : Except Abort (List (ℕ × Delegate)) :=
  match lookup addr delegates with
  | none => pure delegates
  | some delegate => do
      let delegate_approved ← table_borrow addr delegate_votes
      pure (alter addr (fun _ =>
        if (delegate_approved && majority_approve) || (!delegate_approved && !majority_approve)
        then { delegate with sided_winning_proposals := delegate.sided_winning_proposals + 1 }
        else { delegate with sided_losing_proposals := delegate.sided_losing_proposals + 1 })
        delegates)

/-- `finalize_proposal` once the quorum is met: the delegates are counted
on their side, the proposal is approved on a majority for it and rejected
otherwise, and the pool goes to the winning side. -/
def finalizeWithQuorum (registry : GovernanceDAO) (proposal_id : ℕ) (proposal : Proposal)
    (proposals_by_status : Status → List ℕ) : Except Abort (GovernanceDAO × Payments) := do
  let majority_approve := decide (proposal.community_votes_against < proposal.community_votes_for)
  let delegates ← proposal.voted_delegates_list.foldlM
    (sideDelegate proposal.delegate_votes majority_approve) registry.delegates
  let status := if majority_approve then Status.APPROVED else Status.REJECTED
  let (proposal, payments) ← distribute_rewards { proposal with status } majority_approve
  pure ({ setProposal registry proposal_id proposal with
    delegates, proposals_by_status := pushToStatus proposals_by_status status proposal_id },
    payments)

/-- `finalize_proposal`: after the voting period, the proposal is decided
on its public tallies; without a quorum it is rejected and the pool goes
back to the submitter. -/
def finalize_proposal (registry : GovernanceDAO) (proposal_id : ℕ) (ctx : TxContext) :
    Except Abort (GovernanceDAO × Payments) := do
  let proposal ← borrowProposal registry proposal_id
  require (proposal.status = .COMMUNITY_VOTING) .EInvalidProposalStatus
  require (proposal.voting_end_time < ctx.epoch_timestamp_ms) .EVotingPeriodNotEnded
  let total_votes := proposal.community_votes_for + proposal.community_votes_against
  let proposals_by_status :=
    removeFromStatus registry.proposals_by_status .COMMUNITY_VOTING proposal_id
  if registry.quorum_votes ≤ total_votes then
    finalizeWithQuorum registry proposal_id proposal proposals_by_status
  else
    pure ({ setProposal registry proposal_id
        { proposal with status := .REJECTED, reward_pool := 0 } with
      proposals_by_status := pushToStatus proposals_by_status .REJECTED proposal_id },
      refund proposal.submitter proposal.reward_pool)

/-- The three vectors of the decryption loop: the addresses voting for,
against, and those whose ballot is not a valid vote. -/
structure Ballots where
  votes_for : List ℕ
  votes_against : List ℕ
  invalid_votes : List ℕ
  deriving DecidableEq, Repr

/-- One step of the decryption loop: a ballot that decrypts to the one
byte 1 is for, to the one byte 0 against, and any other is invalid. -/
def classifyBallot (decrypt : EncryptedObject → Option (List ℕ))
    (encrypted_votes : List (ℕ × EncryptedObject)) (acc : Ballots) (addr : ℕ) :
    Except Abort Ballots := do
  let enc ← table_borrow addr encrypted_votes
  match decrypt enc with
  | some [1] => pure { acc with votes_for := acc.votes_for ++ [addr] }
  | some [0] => pure { acc with votes_against := acc.votes_against ++ [addr] }
  | _ => pure { acc with invalid_votes := acc.invalid_votes ++ [addr] }

/-- The loops of `finalize_proposal_anonymous` that count a valid ballot
for its side, guarded against overflow. -/
def countFor (proposal : Proposal) (addr : ℕ) : Except Abort Proposal := do
  require (proposal.community_votes_for ≤ MAX_U64 - 1) .EOverflow
  let voted_for ← vec_set_insert proposal.voted_for addr
  pure { proposal with community_votes_for := proposal.community_votes_for + 1, voted_for }

def countAgainst (proposal : Proposal) (addr : ℕ) : Except Abort Proposal := do
  require (proposal.community_votes_against ≤ MAX_U64 - 1) .EOverflow
  let voted_against ← vec_set_insert proposal.voted_against addr
  pure { proposal with
    community_votes_against := proposal.community_votes_against + 1, voted_against }

/-- `finalize_proposal_anonymous`, with `decrypt` the decryption of a
ballot under the keys it is passed: the ballots are decrypted and
counted, then the proposal is finalized. -/
def finalize_proposal_anonymous (registry : GovernanceDAO) (proposal_id : ℕ)
    (decrypt : EncryptedObject → Option (List ℕ)) (ctx : TxContext) :
    Except Abort (GovernanceDAO × Payments) := do
  let proposal ← borrowProposal registry proposal_id
  require (proposal.status = .COMMUNITY_VOTING) .EInvalidProposalStatus
  require (proposal.voting_end_time < ctx.epoch_timestamp_ms) .EVotingPeriodNotEnded
  -- the loop over `into_keys` of the anonymous voters; the encrypted
  -- votes' table exists exactly when there is one
  let voters_vec := proposal.anon_voters
  let ballots ← voters_vec.foldlM (classifyBallot decrypt proposal.encrypted_votes) ⟨[], [], []⟩
  destroy_empty voters_vec
  destroy_empty ballots.invalid_votes
  let proposal ← ballots.votes_for.foldlM countFor proposal
  let proposal ← ballots.votes_against.foldlM countAgainst proposal
  destroy_empty ballots.votes_for
  destroy_empty ballots.votes_against
  finalize_proposal (setProposal registry proposal_id proposal) proposal_id ctx

/-- `mark_proposal_implemented`, by the submitter or a delegate. -/
def mark_proposal_implemented (registry : GovernanceDAO) (proposal_id : ℕ) (ctx : TxContext) :
    Except Abort GovernanceDAO := do
  let proposal ← borrowProposal registry proposal_id
  require (proposal.status = .APPROVED) .EInvalidProposalStatus
  require (proposal.submitter = ctx.sender ∨ (lookup ctx.sender registry.delegates).isSome)
    .EUnauthorized
  let proposals_by_status := removeFromStatus registry.proposals_by_status .APPROVED proposal_id
  pure { setProposal registry proposal_id { proposal with status := .IMPLEMENTED } with
    proposals_by_status := pushToStatus proposals_by_status .IMPLEMENTED proposal_id }

-- ============================================================ views

/-- The statuses `get_proposals_by_type` walks. -/
def typeStatuses : List Status :=
  [.SUBMITTED, .DELEGATE_REVIEW, .COMMUNITY_VOTING, .APPROVED, .REJECTED, .IMPLEMENTED]

/-- `get_proposals_by_type`: the IDs of the proposals of a type, status by
status. -/
def get_proposals_by_type (registry : GovernanceDAO) (proposal_type : ℕ) :
    Except Abort (List ℕ) := do
  require (proposal_type ≤ PROPOSAL_TYPE_PLATFORM) .EInvalidParameter
  let statuses := typeStatuses
  let result ← statuses.foldlM (fun result status =>
    (registry.proposals_by_status status).foldlM (fun result id => do
      let proposal ← table_borrow id registry.proposals
      pure (if proposal.proposal_type = proposal_type then result ++ [id] else result))
      result) []
  destroy_empty statuses
  pure result

/-- `get_proposals_by_status`, for a status up to `STATUS_IMPLEMENTED`. -/
def get_proposals_by_status (registry : GovernanceDAO) (status : Status) :
    Except Abort (List ℕ) := do
  require (status ≠ .OWNER_RESCIND) .EInvalidParameter
  pure (registry.proposals_by_status status)

-- ============================================================ runs

/-- The calls on a registry. A proposal is named by its ID; a call that
takes payment names the value of the coin it is given, and a submission
the ID `object::new` gives the proposal. -/
inductive GovernanceCall
  | update_governance_parameters (params : GovernanceParameters)
  | update_platform_governance_parameters (platform_developer : ℕ)
      (params : GovernanceParameters)
  | nominate_delegate
  | vote_for_delegate (target_address : ℕ) (upvote : Bool)
  | update_delegate_panel
  | submit_proposal (proposal_type : ℕ) (disputed_id reference_id : Option ℕ)
      (coin proposal_id : ℕ)
  | rescind_proposal (proposal_id : ℕ)
  | delegate_vote_on_proposal (proposal_id : ℕ) (approve : Bool)
  | reject_proposal_manually (proposal_id : ℕ)
  | community_vote_on_proposal (proposal_id vote_count : ℕ) (approve : Bool) (coin : ℕ)
  | community_vote_anonymous (proposal_id : ℕ) (encrypted_vote : EncryptedObject)
  | finalize_proposal (proposal_id : ℕ)
  | finalize_proposal_anonymous (proposal_id : ℕ) (decrypt : EncryptedObject → Option (List ℕ))
  | mark_proposal_implemented (proposal_id : ℕ)

/-- A call with the transaction context it is made in. -/
structure GovernanceTx where
  ctx : TxContext
  call : GovernanceCall

/-- A call that sends no coins out. -/
def noPayments (x : Except Abort GovernanceDAO) : Except Abort (GovernanceDAO × Payments) := do
  let registry ← x
  pure (registry, [])

/-- One call, with the coins it sends out. -/
def apply (tx : GovernanceTx) (registry : GovernanceDAO) :
    Except Abort (GovernanceDAO × Payments) :=
  match tx.call with
  | .update_governance_parameters params =>
      noPayments (update_governance_parameters registry params)
  | .update_platform_governance_parameters platform_developer params =>
      noPayments (update_platform_governance_parameters registry platform_developer params tx.ctx)
  | .nominate_delegate => noPayments (nominate_delegate registry tx.ctx)
  | .vote_for_delegate target_address upvote =>
      noPayments (vote_for_delegate registry target_address upvote tx.ctx)
  | .update_delegate_panel => noPayments (update_delegate_panel registry tx.ctx)
  | .submit_proposal proposal_type disputed_id reference_id coin proposal_id => do
      let (registry, _) ← submit_proposal registry proposal_type disputed_id reference_id coin
        proposal_id tx.ctx
      pure (registry, [])
  | .rescind_proposal proposal_id => rescind_proposal registry proposal_id tx.ctx
  | .delegate_vote_on_proposal proposal_id approve =>
      delegate_vote_on_proposal registry proposal_id approve tx.ctx
  | .reject_proposal_manually proposal_id => reject_proposal_manually registry proposal_id tx.ctx
  | .community_vote_on_proposal proposal_id vote_count approve coin => do
      let (registry, _) ← community_vote_on_proposal registry proposal_id vote_count approve coin
        tx.ctx
      pure (registry, [])
  | .community_vote_anonymous proposal_id encrypted_vote =>
      noPayments (community_vote_anonymous registry proposal_id encrypted_vote tx.ctx)
  | .finalize_proposal proposal_id => finalize_proposal registry proposal_id tx.ctx
  | .finalize_proposal_anonymous proposal_id decrypt =>
      finalize_proposal_anonymous registry proposal_id decrypt tx.ctx
  | .mark_proposal_implemented proposal_id =>
      noPayments (mark_proposal_implemented registry proposal_id tx.ctx)

/-- A call's effect: an aborted call changes nothing. -/
def step (registry : GovernanceDAO) (tx : GovernanceTx) : GovernanceDAO :=
  match apply tx registry with
  | .ok r => r.1
  | .error _ => registry

/-- The registry after a sequence of calls. -/
def run (registry : GovernanceDAO) (txs : List GovernanceTx) : GovernanceDAO :=
  txs.foldl step registry

end MysoCore.Social.Governance
