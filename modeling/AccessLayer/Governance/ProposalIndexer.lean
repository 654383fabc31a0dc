import AccessLayer.Governance.Proposals
import AccessLayer.Indexer.Dispatch

/-
  The handlers of governance proposal events
  (`src/modules/indexer/governance-proposal-indexer.service.ts`).

  A field of an event is `none` where the handler's check of its
  type fails, and a date where it does not parse.

  Main declaration: `applyGovernanceEvent`
-/

-- Events
----

namespace AccessLayer

namespace Governance

open Transactional Program Utils Indexer

/- Labels as an array, of which some are texts, or as a text. -/
inductive RawOptions where
  | array (items : List (Option String))
  | text (raw : String)
  | other
  deriving DecidableEq

/- The fields of all three events; a weight is its text. -/
structure GovernanceFields where
  keyId : Option String
  proposalId : Option String
  title : Option String
  options : RawOptions
  expiresAt : Option ℤ
  deadline : Option ℤ
  occurredAt : Option ℤ
  createdAt : Option ℤ
  executedAt : Option ℤ
  quorumBps : Option ℤ
  snapshotLedger : Option ℤ
  snapshotTotalWeight : Option String
  voter : Option String
  wallet : Option String
  optionIndex : Option ℤ
  weight : Option String
  deriving DecidableEq

abbrev GovernanceEvent := PipelineEvent GovernanceFields

def proposalCreatedEventTypes : List String := ["PROPOSAL_CREATED", "ProposalCreated"]

def voteCastEventTypes : List String := ["VOTE_CAST", "VoteCast"]

def proposalExecutedEventTypes : List String := ["PROPOSAL_EXECUTED", "ProposalExecuted"]

/- `parseArray` is `JSON.parse` for the texts of arrays. -/
structure GovernanceConfig where
  parseArray : String → Option (List (Option String))

def defaultQuorumBps : ℤ := 3000

def defaultProposalDurationMs : ℤ := 7 * 24 * 60 * 60 * 1000

/- The first date there is, else the clock's. -/
def resolveDate (now : ℤ) (candidates : List (Option ℤ)) : ℤ := (candidates.findSome? id).getD now

/- The labels of an array that are not blank, trimmed. -/
def normalizeArray (items : List (Option String)) : List String :=
  ((items.filterMap id).map trim).filter (· ≠ "")

def normalizeOptions (config : GovernanceConfig) : RawOptions → List String
  | .array items => normalizeArray items
  | .text raw =>
    if trim raw = "" then []
    else
      match config.parseArray raw with
      | some items => normalizeArray items
      | none => normalizeArray ((raw.splitOn ",").map some)
  | .other => []

/- A text of an integer that is not negative. -/
def toWeightString (value : Option String) : Option ℤ :=
  match value with
  | none => none
  | some text =>
    if text = "" then none
    else
      (parseBigInt (wholePart (trim text))).filter (0 ≤ ·)

/- A field that must not be blank. -/
def required (field : Option String) : Option String := (field.map trim).filter (· ≠ "")

/- Stored labels are normal: they are trimmed and not blank. -/
def Normal (options : List String) : Prop := normalizeArray (options.map some) = options

theorem normal_iff {options : List String} :
    Normal options ↔ ∀ option ∈ options, trim option = option ∧ option ≠ "" := by
  have hMap : normalizeArray (options.map some) =
      (options.map trim).filter (· ≠ "") := by
    simp [normalizeArray, List.filterMap_map]
  rw [Normal, hMap]
  constructor
  · intro hNormal option hMem
    rw [← hNormal] at hMem
    rcases List.mem_filter.mp hMem with ⟨hTrimmed, hBlank⟩
    rcases List.mem_map.mp hTrimmed with ⟨raw, -, rfl⟩
    exact ⟨trim_trim raw, by simpa using hBlank⟩
  · intro hAll
    rw [List.map_congr_left fun option h => (hAll option h).1, List.map_id', List.filter_eq_self]
    intro option hMem
    simpa using (hAll option hMem).2

theorem normal_normalizeArray (items : List (Option String)) : Normal (normalizeArray items) := by
  rw [normal_iff]
  intro option hMem
  rcases List.mem_filter.mp hMem with ⟨hTrimmed, hBlank⟩
  rcases List.mem_map.mp hTrimmed with ⟨raw, -, rfl⟩
  exact ⟨trim_trim raw, by simpa using hBlank⟩

theorem normal_normalizeOptions (config : GovernanceConfig) (raw : RawOptions) :
    Normal (normalizeOptions config raw) := by
  cases raw with
  | array items => exact normal_normalizeArray items
  | text raw =>
    simp only [normalizeOptions]
    split
    · rfl
    · split
      · exact normal_normalizeArray _
      · exact normal_normalizeArray _
  | other => rfl

-- Handlers
----

/- A row that is stored already was applied before. -/
def skipReplay (error : GovernanceError) : GovernanceM Unit :=
  match error with
  | .uniqueViolation => pure ()
  | other => throw other

def getSnapshotLedger : GovernanceM ℤ := query .database fun db => db.latestLedger.getD 0

def snapshotLedgerOf (event : GovernanceEvent) : GovernanceM ℤ :=
  match event.payload.snapshotLedger with
  | some ledger => pure ledger
  | none => getSnapshotLedger

/- The row of a new proposal, with a tally of zeros. -/
def proposalOf (config : GovernanceConfig) (now : ℤ) (id keyId proposalId : String)
    (event : GovernanceEvent) (snapshotLedger : ℤ) : GovernanceProposal :=
  let fields := event.payload
  let options := normalizeOptions config fields.options
  { id
    keyId
    proposalId
    title := (required fields.title).getD ("Governance proposal " ++ proposalId)
    options
    totalVotingWeight := 0
    results := initialResults options
    snapshotLedger
    snapshotTotalWeight := (toWeightString fields.snapshotTotalWeight).getD 0
    quorumBps := fields.quorumBps.getD defaultQuorumBps
    expiresAt :=
      resolveDate now [fields.expiresAt, fields.deadline,
        some (resolveDate now [fields.occurredAt, fields.createdAt] + defaultProposalDurationMs)]
    closedAt := none
    executedAt := none
    status := .active }

def createProposal (proposal : GovernanceProposal) (db : GovernanceDb) :
    Except GovernanceError (Unit × GovernanceDb) :=
  match db.governanceProposal.insert? proposal with
  | none => .error .uniqueViolation
  | some governanceProposal => .ok ((), { db with governanceProposal })

/- `id` is the identifier that the new row is given. -/
def insertProposal (config : GovernanceConfig) (now : ℤ) (id keyId proposalId : String)
    (event : GovernanceEvent) : GovernanceM Unit := do
  let existing ← query .database fun db => db.governanceProposal.find? (keyId, proposalId)
  if existing.isSome then pure ()
  else do
    let snapshotLedger ← snapshotLedgerOf event
    tryCatch (execute .database (createProposal (proposalOf config now id keyId proposalId event
      snapshotLedger))) skipReplay

def applyProposalCreated (config : GovernanceConfig) (now : ℤ) (id : String)
    (event : GovernanceEvent) : GovernanceM Unit :=
  match required event.payload.keyId, required event.payload.proposalId with
  | some keyId, some proposalId => insertProposal config now id keyId proposalId event
  | _, _ => pure ()

/- The wallet that votes, under either name. -/
def voterOf (fields : GovernanceFields) : Option String :=
  (required fields.voter).or (required fields.wallet)

/- The vote of an event whose fields are all valid. -/
def voteOf (now : ℤ) (fields : GovernanceFields) : Option GovernanceVote := do
  let voter ← voterOf fields
  let keyId ← required fields.keyId
  let proposalId ← required fields.proposalId
  let optionIndex ← fields.optionIndex.filter (0 ≤ ·)
  let weight ← toWeightString fields.weight
  some {
    keyId
    proposalId
    voter
    optionIndex := optionIndex.toNat
    weight
    createdAt := resolveDate now [fields.occurredAt, fields.createdAt] }

/- Fold a vote that was just recorded into its tally. -/
def foldVote (vote : GovernanceVote) (db : GovernanceDb) :
    Except GovernanceError (Unit × GovernanceDb) :=
  match db.governanceProposal.find? vote.proposal with
  | none => .ok ((), db)
  | some proposal =>
    match (normalizeArray (proposal.options.map some))[vote.optionIndex]? with
    | none => .ok ((), db)
    | some option =>
      match applyVoteWeight proposal.tally vote.weight option with
      | none => .error .notANumber
      | some tallies => .ok ((), db.storeTally vote.proposal tallies)

def recordVoteCast (vote : GovernanceVote) (db : GovernanceDb) :
    Except GovernanceError (Unit × GovernanceDb) :=
  match db.governanceVote.insert? vote with
  | none => .error .uniqueViolation
  | some governanceVote => foldVote vote { db with governanceVote }

def insertVote (vote : GovernanceVote) : GovernanceM Unit := do
  let existing ← query .database fun db => db.governanceVote.find? (key vote)
  if existing.isSome then pure ()
  else
    tryCatch (execute .database (recordVoteCast vote)) skipReplay

def applyVoteCast (now : ℤ) (event : GovernanceEvent) : GovernanceM Unit :=
  match voteOf now event.payload with
  | none => pure ()
  | some vote => insertVote vote

def markExecuted (proposal : ProposalKey) (executedAt : ℤ) (db : GovernanceDb) : GovernanceDb :=
  db.updateProposal proposal (fun row => { row with
        status := .executed
        executedAt := some executedAt
        closedAt := some executedAt }) fun _ => rfl

/- The first execution of a proposal stamps it. -/
def executeProposal (now : ℤ) (proposal : ProposalKey)
    (fields : GovernanceFields) : GovernanceM Unit := do
  let found ← query .database fun db => db.governanceProposal.find? proposal
  match found with
  | none => pure ()
  | some row =>
    if row.executedAt ≠ none ∨ row.status = .executed then
      pure ()
    else
      execute .database fun db => .ok ((), markExecuted proposal (resolveDate now
        [fields.executedAt, fields.occurredAt]) db)

def applyProposalExecuted (now : ℤ) (event : GovernanceEvent) : GovernanceM Unit :=
  match required event.payload.keyId, required event.payload.proposalId with
  | some keyId, some proposalId => executeProposal now (keyId, proposalId) event.payload
  | _, _ => pure ()

/- The handler that an event's type selects. -/
def applyGovernanceEvent (config : GovernanceConfig) (now : ℤ) (id : String)
    (event : GovernanceEvent) : GovernanceM Unit :=
  if event.eventType ∈ proposalCreatedEventTypes then
    applyProposalCreated config now id event
  else if event.eventType ∈ voteCastEventTypes then
    applyVoteCast now event
  else if event.eventType ∈ proposalExecutedEventTypes then
    applyProposalExecuted now event
  else pure ()

/- One event after the other, each of them once. -/
def processGovernanceProposalEvents (config : GovernanceConfig) (now : ℤ)
    (newId : GovernanceEvent → String) (events : List GovernanceEvent) : GovernanceM Unit :=
  forEach (fun event => applyGovernanceEvent config now (newId event) event)
    (PipelineEvent.dedupe events)

end Governance

end AccessLayer
