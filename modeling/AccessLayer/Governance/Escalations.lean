import AccessLayer.Governance.ProposalIndexer
import AccessLayer.Indexer.EventFields
import AccessLayer.Library.Interference
import AccessLayer.Library.Machines
import Mathlib.Data.Finset.Card
import Mathlib.Data.Finset.Insert

/-
  Extensions of the deadlines of governance proposals
  (`src/modules/indexer/governance-escalation-indexer.service.ts`,
  `prisma/schema/governance.prisma`).

  The transaction of an extension inserts its log row, reads the
  proposal and overwrites its deadlines; other handlers may commit
  between these statements.  The handler of the other events of
  proposals runs statement by statement.  Logs of the process are
  left out, and `maxEscalations`, which only they read.

  Main result: `escalations_converge`
-/

-- Extensions
----

namespace AccessLayer

namespace Governance

open Transactional Indexer

section

/- A deadline is `none` where it does not parse as a date. -/
structure ExtensionFields where
  keyId : Option String
  proposalId : Option String
  newDeadline : Option ℤ
  deriving DecidableEq

abbrev ProposalExtendedEvent := PipelineEvent ExtensionFields

/- An event that has passed its checks. -/
structure Extension where
  keyId : String
  proposalId : String
  newDeadline : ℤ
  ledger : Option ℤ
  txHash : String
  eventIndex : ℕ
  deriving DecidableEq

def Extension.proposal (extension : Extension) : ProposalKey :=
  (extension.keyId, extension.proposalId)

/- Other events, and events with invalid fields, are skipped. -/
def extensionOf (event : ProposalExtendedEvent) : Option Extension :=
  if event.eventType ≠ "PROPOSAL_EXTENDED" then none
  else do
    let keyId ← present event.payload.keyId
    let proposalId ← present event.payload.proposalId
    let newDeadline ← event.payload.newDeadline
    some {
      keyId
      proposalId
      newDeadline
      ledger := event.ledger
      txHash := event.txHash
      eventIndex := event.eventIndex }

structure GovernanceEscalationEventLog where
  keyId : String
  proposalId : String
  ledger : Option ℤ
  txHash : String
  eventIndex : ℕ
  deriving DecidableEq

instance : Keyed GovernanceEscalationEventLog (String × ℕ) :=
  ⟨fun row => (row.txHash, row.eventIndex)⟩

def Extension.log (extension : Extension) : GovernanceEscalationEventLog where
  keyId := extension.keyId
  proposalId := extension.proposalId
  ledger := extension.ledger
  txHash := extension.txHash
  eventIndex := extension.eventIndex

/- The columns of a proposal that only extensions write. -/
structure Escalation where
  escalationCount : ℕ
  originalDeadline : Option ℤ
  extendedDeadline : Option ℤ
  escalatedAt : Option ℤ
  deriving DecidableEq

/- The defaults of the columns. -/
def Escalation.initial : Escalation where
  escalationCount := 0
  originalDeadline := none
  extendedDeadline := none
  escalatedAt := none

/- What the handler of extensions reads of a proposal. -/
structure EscalatedProposal extends Escalation where
  expiresAt : ℤ
  deriving DecidableEq

/- `escalation` holds the columns of the proposals' rows that the other handlers do not know. -/
structure EscalationDb where
  governance : GovernanceDb
  escalation : ProposalKey → Escalation
  governanceEscalationEventLog : Table GovernanceEscalationEventLog

/- No proposal yet, and no extension. -/
def EscalationDb.empty (latestLedger : Option ℤ) : EscalationDb where
  governance := {
    governanceProposal := .empty
    governanceVote := .empty
    governanceVotingSnapshot := .empty
    latestLedger }
  escalation := fun _ => .initial
  governanceEscalationEventLog := .empty

def EscalationDb.proposal (db : EscalationDb) (proposal : ProposalKey) : Option EscalatedProposal :=
  (db.governance.governanceProposal.find? proposal).map fun row =>
    { db.escalation proposal with expiresAt := row.expiresAt }

-- Handlers
----

open Program

inductive EscalationRequest where
  /- `processGovernanceProposalEvents` -/
  | proposals (now : ℤ) (newId : GovernanceEvent → String) (events : List GovernanceEvent)
  /- `processGovernanceEscalationEvents` -/
  | extensions (now : ℤ) (events : List ProposalExtendedEvent)

/- What a handler does next, and the events that follow. -/
inductive EscalationWork where
  | handling (program : GovernanceM Unit)
  | createLog (extension : Extension) (rest : List ProposalExtendedEvent)
  | findProposal (extension : Extension) (rest : List ProposalExtendedEvent)
  | commit (extension : Extension) (found : Option EscalatedProposal)
    (rest : List ProposalExtendedEvent)
  | ended (result : Except GovernanceError Unit)

structure EscalationCall where
  request : EscalationRequest
  work : EscalationWork

/- The transaction of the next event that has one. -/
def nextExtension : List ProposalExtendedEvent → EscalationWork
  | [] => .ended (.ok ())
  | event :: rest =>
    match extensionOf event with
    | none => nextExtension rest
    | some extension => .createLog extension rest

def GovernanceProposal.expiringAt (expiresAt : ℤ) (row : GovernanceProposal) : GovernanceProposal :=
  { row with expiresAt }

/- What the update makes of the proposal that was read. -/
def EscalatedProposal.extended (now : ℤ) (extension : Extension)
    (proposal : EscalatedProposal) : EscalatedProposal where
  escalationCount := proposal.escalationCount + 1
  originalDeadline := some (proposal.originalDeadline.getD proposal.expiresAt)
  extendedDeadline := some extension.newDeadline
  escalatedAt := some now
  expiresAt := extension.newDeadline

def EscalationDb.update (db : EscalationDb) (proposal : ProposalKey)
    (data : EscalatedProposal) : EscalationDb :=
  { db with
    governance := db.governance.updateProposal proposal (.expiringAt data.expiresAt) fun _ => rfl
    escalation := Function.update db.escalation proposal data.toEscalation }

def EscalationDb.extend (db : EscalationDb) (now : ℤ) (extension : Extension)
    (proposal : EscalatedProposal) : EscalationDb :=
  db.update extension.proposal (proposal.extended now extension)

/- The writes of a transaction; a replay has a conflicting key. -/
def EscalationDb.commit (db : EscalationDb) (now : ℤ) (extension : Extension)
    (found : Option EscalatedProposal) : Option EscalationDb :=
  (db.governanceEscalationEventLog.insert? extension.log).map fun governanceEscalationEventLog =>
    { found.elim db (db.extend now extension) with
      governanceEscalationEventLog }

def executeEscalationWork (now : ℤ) (work : EscalationWork)
    (db : EscalationDb) : Option (EscalationDb × EscalationWork) :=
  match work with
  | .handling (.stmt update next _) =>
    some ({ db with governance := update db.governance }, .handling (next db.governance))
  | .handling _ => none
  | .createLog extension rest =>
    match db.governanceEscalationEventLog.find? (key extension.log) with
    | some _ => some (db, nextExtension rest)
    | none => some (db, .findProposal extension rest)
  | .findProposal extension rest =>
    some (db, .commit extension (db.proposal extension.proposal) rest)
  | .commit extension found rest =>
    match db.commit now extension found with
    | some db' => some (db', nextExtension rest)
    -- the conflict with a row that was committed meanwhile
    | none => some (db, nextExtension rest)
  | .ended _ => none

/- An error other than the conflict ends the batch. -/
def EscalationWork.fail : EscalationWork → EscalationWork
  | .handling (.stmt _ _ onFault) => .handling onFault
  | .handling program => .handling program
  | .ended result => .ended result
  | _ => .ended (.error .database)

/- The clock of a handler. -/
def EscalationRequest.now : EscalationRequest → ℤ
  | .proposals now _ _ => now
  | .extensions now _ => now

def escalationIndexer : Machine EscalationDb EscalationCall where
  execute call db :=
    (executeEscalationWork call.request.now call.work db).map
      fun after => (after.1, { call with work := after.2 })
  fail call := { call with work := call.work.fail }

def EscalationRequest.call (config : GovernanceConfig)
    (request : EscalationRequest) : EscalationCall where
  request := request
  work :=
    match request with
    | .proposals now newId events =>
      .handling (processGovernanceProposalEvents config now newId events)
    | .extensions _ events => nextExtension (PipelineEvent.dedupe events)

def EscalationCall.returned (call : EscalationCall) : Bool :=
  match call.work with
  | .handling (.ret _) => true
  | .ended (.ok _) => true
  | _ => false

/- Handlers that deliver batches side by side. -/
def escalationHandlers (config : GovernanceConfig) (latestLedger : Option ℤ)
    (requests : List EscalationRequest) : Crew EscalationDb EscalationCall :=
  .start (.empty latestLedger) (requests.map (EscalationRequest.call config))

-- Deadlines
----

def EscalationRequest.extensionEvents : EscalationRequest → List ProposalExtendedEvent
  | .proposals _ _ _ => []
  | .extensions _ events => events

def EscalationRequest.proposalEvents : EscalationRequest → List GovernanceEvent
  | .proposals _ _ events => events
  | .extensions _ _ => []

/- An identifier names one event. -/
def Identified (requests : List EscalationRequest) : Prop :=
  (∀ one ∈ requests.flatMap (·.extensionEvents), ∀ other ∈ requests.flatMap (·.extensionEvents),
    one.id = other.id → one = other) ∧ ∀ one ∈ requests.flatMap (·.proposalEvents),
    ∀ other ∈ requests.flatMap (·.proposalEvents), one.id = other.id → one = other

instance (requests : List EscalationRequest) : Decidable (Identified requests) := by
  unfold Identified
  infer_instance

/- The distinct extensions of a proposal. -/
def extensionsOf (requests : List EscalationRequest) (proposal : ProposalKey) : Finset Extension :=
  ((requests.flatMap (·.extensionEvents)).filterMap
    extensionOf).toFinset.filter (·.proposal = proposal)

def createdProposal (event : GovernanceEvent) : Option ProposalKey :=
  if event.eventType ∈ proposalCreatedEventTypes then do
    let keyId ← required event.payload.keyId
    let proposalId ← required event.payload.proposalId
    some (keyId, proposalId)
  else none

def deadlineAtCreation (now : ℤ) (event : GovernanceEvent) : ℤ :=
  resolveDate now [event.payload.expiresAt, event.payload.deadline, some (resolveDate now
    [event.payload.occurredAt, event.payload.createdAt] + defaultProposalDurationMs)]

def CreatedWith (requests : List EscalationRequest) (proposal : ProposalKey)
    (deadline : ℤ) : Prop :=
  ∃ now newId events, .proposals now newId events ∈ requests ∧
    ∃ event ∈ events, createdProposal event = some proposal ∧
      deadline = deadlineAtCreation now event

variable {π : Type} [LinearOrder π]

/-
  The proposal shows the extensions: their number, the deadline
  of the latest in chain order and the deadline before them.
-/
structure Escalated (position : String × ℕ → π) (deadline : ℤ) (extensions : Finset Extension)
    (proposal : EscalatedProposal) : Prop where
  count : proposal.escalationCount = extensions.card
  latest : ∀ last ∈ extensions, (∀ extension ∈ extensions,
    position (key extension.log) ≤ position (key last.log)) →
    proposal.expiresAt = last.newDeadline ∧ proposal.extendedDeadline = some last.newDeadline
  original : extensions.Nonempty → proposal.originalDeadline = some deadline
  unextended : extensions = ∅ → proposal.expiresAt = deadline ∧ proposal.originalDeadline = none ∧
    proposal.extendedDeadline = none

/- The requests whose handlers have returned. -/
def returnedRequests (crew : Crew EscalationDb EscalationCall) : List EscalationRequest :=
  crew.calls.filterMap fun call => (call.filter EscalationCall.returned).map EscalationCall.request

/- Each event has been handled by a handler that returned. -/
def AllDelivered (requests : List EscalationRequest)
    (crew : Crew EscalationDb EscalationCall) : Prop :=
  (∀ event ∈ requests.flatMap (·.extensionEvents),
    event ∈ (returnedRequests crew).flatMap (·.extensionEvents)) ∧
  ∀ event ∈ requests.flatMap (·.proposalEvents),
    event ∈ (returnedRequests crew).flatMap (·.proposalEvents)

instance (requests : List EscalationRequest) (crew : Crew EscalationDb EscalationCall) :
    Decidable (AllDelivered requests crew) := by
  unfold AllDelivered
  infer_instance

/- Created proposals are stored, and show all extensions. -/
def Converged (position : String × ℕ → π) (requests : List EscalationRequest)
    (db : EscalationDb) : Prop :=
  ∀ key, (∃ deadline, CreatedWith requests key deadline) ∨ (extensionsOf requests key).Nonempty →
    ∃ proposal deadline, db.proposal key = some proposal ∧ CreatedWith requests key deadline ∧
      Escalated position deadline (extensionsOf requests key) proposal

def loggedOf (requests : List EscalationRequest) (db : EscalationDb)
    (proposal : ProposalKey) : Finset Extension :=
  (extensionsOf requests proposal).filter fun extension =>
    extension.log ∈ db.governanceEscalationEventLog.rows

/-
  An extension that is not logged yet is committed while the
  proposal is stored as the transaction has read it, and no
  logged extension of the proposal is later in chain order.
-/
def InTurn (position : String × ℕ → π) (db : EscalationDb) (call : EscalationCall)
    (outcome : Option Outcome) : Prop :=
  takesEffect outcome = true →
    match call.work with
    | .commit extension found _ =>
      db.governanceEscalationEventLog.find? (key extension.log) = none → found.isSome = true ∧
        db.proposal extension.proposal = found ∧ ∀ row ∈ db.governanceEscalationEventLog.rows,
          (row.keyId, row.proposalId) = extension.proposal →
            position (key row) < position (key extension.log)
    | _ => True

instance (position : String × ℕ → π) (db : EscalationDb) (call : EscalationCall)
    (outcome : Option Outcome) :
    Decidable (InTurn position db call outcome) := by
  unfold InTurn
  split <;> infer_instance

theorem Escalated.extended {position : String × ℕ → π} {deadline : ℤ}
    {extensions : Finset Extension} {proposal : EscalatedProposal} {extension : Extension}
    (hEscalated : Escalated position deadline extensions proposal) (hNew : extension ∉ extensions)
    (hLast :
      ∀ other ∈ extensions, position (key other.log) < position (key extension.log)) (now : ℤ) :
    Escalated position deadline (insert extension extensions)
      (proposal.extended now extension) where
  count := by
    rw [Finset.card_insert_of_notMem hNew, ← hEscalated.count]
    rfl
  latest := by
    intro last hMem hLatest
    rcases Finset.mem_insert.mp hMem with rfl | hOld
    · exact ⟨rfl, rfl⟩
    · have hBefore := hLast last hOld
      have hAfter := hLatest extension (Finset.mem_insert_self _ _)
      exact absurd hBefore (not_lt.mpr hAfter)
  original := by
    intro _
    rcases extensions.eq_empty_or_nonempty with hNone | hSome
    · rcases hEscalated.unextended hNone with ⟨hExpires, hOriginal, -⟩
      simp [EscalatedProposal.extended, hOriginal, hExpires]
    · simp [EscalatedProposal.extended, hEscalated.original hSome]
  unextended := by
    intro hEmpty
    exact absurd hEmpty (Finset.insert_ne_empty _ _)

end

-- What the Other Handlers Write
----

section

open Program

def GovernanceDb.deadlineOf (db : GovernanceDb) (proposal : ProposalKey) : Option ℤ :=
  (db.governanceProposal.find? proposal).map GovernanceProposal.expiresAt

/- A statement leaves a deadline alone, or creates its proposal. -/
def ProposalMove (requests : List EscalationRequest) (db db' : GovernanceDb) : Prop :=
  ∀ proposal, db'.deadlineOf proposal = db.deadlineOf proposal ∨ db.deadlineOf proposal = none ∧
    ∃ deadline ∈ db'.deadlineOf proposal, CreatedWith requests proposal deadline

/- No stored proposal is deleted. -/
def proposalsStay : Moves GovernanceDb where
  move db db' :=
    ∀ proposal, (db.deadlineOf proposal).isSome = true → (db'.deadlineOf proposal).isSome = true
  refl _ _ := id
  trans h h' proposal hStored := h' proposal (h proposal hStored)

variable {db : GovernanceDb} {proposal : ProposalKey}

theorem isSome_deadlineOf_iff :
    (db.deadlineOf proposal).isSome = true ↔
      (db.governanceProposal.find? proposal).isSome = true := by
  rw [GovernanceDb.deadlineOf, Option.isSome_map]

variable {f : GovernanceProposal → GovernanceProposal}

theorem deadlineOf_updateProposal (db : GovernanceDb) (proposal proposal' : ProposalKey)
    (hKey : ∀ row, key (f row) = key row) (hKept : ∀ row, (f row).expiresAt = row.expiresAt) :
    (db.updateProposal proposal f hKey).deadlineOf proposal' = db.deadlineOf proposal' := by
  simp only [GovernanceDb.deadlineOf, GovernanceDb.updateProposal]
  by_cases hSame : proposal' = proposal
  · rw [hSame, Table.find?_update_same, Option.map_map]
    congr 1
    funext row
    exact hKept row
  · rw [Table.find?_update_other _ _ _ hSame]

variable {requests : List EscalationRequest}

theorem proposalMove_refl (db : GovernanceDb) : ProposalMove requests db db := fun _ => .inl rfl

variable {db' : GovernanceDb}

theorem proposalMove_stays (hMove : ProposalMove requests db db') : proposalsStay.move db db' := by
  intro proposal hStored
  rcases hMove proposal with hSame | ⟨hNone, -⟩
  · rw [hSame]
    exact hStored
  · rw [hNone] at hStored
    cases hStored

theorem proposalMove_update (db : GovernanceDb) (proposal : ProposalKey)
    (hKey : ∀ row, key (f row) = key row) (hKept : ∀ row, (f row).expiresAt = row.expiresAt) :
    ProposalMove requests db (db.updateProposal proposal f hKey) :=
  fun proposal' => .inl (deadlineOf_updateProposal db proposal proposal' hKey hKept)

theorem moves_skipReplay (error : GovernanceError) :
    (skipReplay error).Changes (ProposalMove requests) := by
  unfold skipReplay
  split <;> trivial

theorem proposalMove_foldVote {vote : GovernanceVote} (hFold : foldVote vote db = .ok ((), db')) :
    ProposalMove requests db db' := by
  unfold foldVote at hFold
  split at hFold
  · cases hFold
    exact proposalMove_refl _
  · split at hFold
    · cases hFold
      exact proposalMove_refl _
    · split at hFold
      · cases hFold
      · cases hFold
        exact proposalMove_update _ _ _ fun _ => rfl

theorem moves_applyVoteCast (now : ℤ) (event : GovernanceEvent) :
    (applyVoteCast now event).Changes (ProposalMove requests) := by
  unfold applyVoteCast
  split
  · trivial
  · apply changes_bind (changes_query proposalMove_refl _ _)
    intro existing
    split
    · trivial
    · refine changes_tryCatch ?_ moves_skipReplay
      apply changes_execute proposalMove_refl
      intro db _ db' hRecord
      unfold recordVoteCast at hRecord
      split at hRecord
      · cases hRecord
      · rename_i governanceVote _
        have hFold : ProposalMove requests { db with governanceVote } db' :=
          proposalMove_foldVote hRecord
        exact hFold

theorem moves_applyProposalExecuted (now : ℤ) (event : GovernanceEvent) :
    (applyProposalExecuted now event).Changes (ProposalMove requests) := by
  unfold applyProposalExecuted
  split
  · apply changes_bind (changes_query proposalMove_refl _ _)
    intro found
    split
    · trivial
    · split
      · trivial
      · apply changes_execute proposalMove_refl
        intro db _ db' hMark
        cases hMark
        exact proposalMove_update _ _ _ fun _ => rfl
  · trivial

theorem deadlineOf_insert {row : GovernanceProposal} {governanceProposal : Table GovernanceProposal}
    (hInsert :
      db.governanceProposal.insert? row = some governanceProposal) (proposal : ProposalKey) :
    GovernanceDb.deadlineOf { db with governanceProposal } proposal =
      if proposal = key row then some row.expiresAt
      else db.deadlineOf proposal := by
  simp only [GovernanceDb.deadlineOf, Table.find?_insert? hInsert]
  split <;> rfl

variable {config : GovernanceConfig} {now snapshotLedger : ℤ} {id keyId proposalId : String}
variable {event : GovernanceEvent}

theorem proposalMove_create
    (hCreated : CreatedWith requests (keyId, proposalId) (deadlineAtCreation now event))
    (hCreate : createProposal (proposalOf config now id keyId proposalId event snapshotLedger) db =
      .ok ((), db')) :
    ProposalMove requests db db' ∧ (db'.deadlineOf (keyId, proposalId)).isSome = true := by
  unfold createProposal at hCreate
  split at hCreate
  · cases hCreate
  · rename_i governanceProposal hInsert
    cases hCreate
    have hFresh : db.deadlineOf (keyId, proposalId) = none :=
      Option.map_eq_none_iff.mpr (Table.insert?_eq_some hInsert).1
    have hDeadline (proposal : ProposalKey) :
        GovernanceDb.deadlineOf { db with governanceProposal } proposal =
          if proposal = (keyId, proposalId) then
            some (deadlineAtCreation now event)
          else db.deadlineOf proposal :=
      deadlineOf_insert hInsert proposal
    constructor
    · intro proposal
      rw [hDeadline]
      by_cases hSame : proposal = (keyId, proposalId)
      · rw [if_pos hSame, hSame]
        exact .inr ⟨hFresh, _, rfl, hCreated⟩
      · rw [if_neg hSame]
        exact .inl rfl
    · rw [hDeadline, if_pos rfl]
      rfl

theorem stored_of_createProposal_error {error : GovernanceError}
    (hError : createProposal (proposalOf config now id keyId proposalId event snapshotLedger) db =
      .error error) :
    (db.deadlineOf (keyId, proposalId)).isSome = true := by
  unfold createProposal at hError
  split at hError
  · rename_i hRefused
    rcases Table.exists_of_insert?_eq_none hRefused with ⟨stored, hStored⟩
    have hFound : db.governanceProposal.find? (keyId, proposalId) = some stored := hStored
    rw [isSome_deadlineOf_iff, hFound]
    rfl
  · cases hError

theorem moves_snapshotLedgerOf (event : GovernanceEvent) :
    (snapshotLedgerOf event).Changes (ProposalMove requests) := by
  unfold snapshotLedgerOf
  split
  · trivial
  · exact changes_query proposalMove_refl _ _

theorem moves_insertProposal
    (hCreated : CreatedWith requests (keyId, proposalId) (deadlineAtCreation now event)) :
    (insertProposal config now id keyId proposalId event).Changes (ProposalMove requests) := by
  apply changes_bind (changes_query proposalMove_refl _ _)
  intro existing
  split
  · trivial
  · apply changes_bind (moves_snapshotLedgerOf event)
    intro snapshotLedger
    refine changes_tryCatch ?_ moves_skipReplay
    apply changes_execute proposalMove_refl
    intro db _ db' hCreate
    exact (proposalMove_create hCreated hCreate).1

theorem createdProposal_eq_some_iff :
    createdProposal event = some proposal ↔ event.eventType ∈ proposalCreatedEventTypes ∧
      required event.payload.keyId = some proposal.1 ∧
      required event.payload.proposalId = some proposal.2 := by
  unfold createdProposal
  by_cases hType : event.eventType ∈ proposalCreatedEventTypes
  · rw [if_pos hType]
    constructor
    · intro hSome
      rcases Option.bind_eq_some_iff.mp hSome with ⟨keyId, hKeyId, hRest⟩
      rcases Option.bind_eq_some_iff.mp hRest with ⟨proposalId, hProposalId, hPair⟩
      cases hPair
      exact ⟨hType, hKeyId, hProposalId⟩
    · rintro ⟨-, hKeyId, hProposalId⟩
      simp [hKeyId, hProposalId]
  · rw [if_neg hType]
    constructor
    · intro hNone
      cases hNone
    · exact fun h => absurd h.1 hType

variable {newId : GovernanceEvent → String} {events : List GovernanceEvent}

theorem moves_applyGovernanceEvent (hRequest : .proposals now newId events ∈ requests)
    (hEvent : event ∈ events) (id : String) :
    (applyGovernanceEvent config now id event).Changes (ProposalMove requests) := by
  unfold applyGovernanceEvent
  split
  · rename_i hType
    unfold applyProposalCreated
    split
    · rename_i keyId proposalId hKeyId hProposalId
      apply moves_insertProposal
      exact ⟨now, newId, events, hRequest, event, hEvent, createdProposal_eq_some_iff.mpr
        ⟨hType, hKeyId, hProposalId⟩, rfl⟩
    · trivial
  · split
    · exact moves_applyVoteCast now event
    · split
      · exact moves_applyProposalExecuted now event
      · trivial

theorem stable_stored (proposal : ProposalKey) :
    proposalsStay.Stable fun db => (db.deadlineOf proposal).isSome = true :=
  fun _ _ hMove => hMove proposal

/- A creation that returns has found its proposal or stored it. -/
theorem promises_insertProposal (hCreated :
    CreatedWith requests (keyId, proposalId) (deadlineAtCreation now event)) (db : GovernanceDb) :
    (insertProposal config now id keyId proposalId event).Promises proposalsStay (fun _ db =>
      (db.deadlineOf (keyId, proposalId)).isSome = true) (fun _ _ => True) db := by
  have hStable := stable_stored (keyId, proposalId)
  have hCreate (snapshotLedger : ℤ) (db : GovernanceDb) :
      (tryCatch (execute .database (createProposal (proposalOf config now id keyId proposalId event
        snapshotLedger))) skipReplay).Promises proposalsStay
        (fun _ db => (db.deadlineOf (keyId, proposalId)).isSome = true)
        (fun _ _ => True) db := by
    have hExecute :
        (execute .database (createProposal (proposalOf config now id keyId proposalId event
          snapshotLedger))).Promises proposalsStay
          (fun _ db => (db.deadlineOf (keyId, proposalId)).isSome = true) (fun error db =>
            error = GovernanceError.uniqueViolation →
              (db.deadlineOf (keyId, proposalId)).isSome = true)
          db := by
      apply promises_execute
      · intro t _ t' _ hOk
        rcases proposalMove_create hCreated hOk with ⟨hMove, hStored⟩
        exact ⟨proposalMove_stays hMove, hStored⟩
      · intro t error _ hError _
        exact stored_of_createProposal_error hError
      · intro _ hDatabase
        cases hDatabase
      · exact fun _ => hStable
      · intro error t t' hMove hTaken hUnique
        exact hStable t t' hMove (hTaken hUnique)
    apply hExecute.tryCatch
    intro error t hTaken
    unfold skipReplay
    split
    · exact promises_pure hStable (hTaken rfl)
    · exact fun _ _ => trivial
  refine promises_query_bind (fun _ => trivial) ?_
  intro t _
  split
  · rename_i hFound
    exact promises_pure hStable (isSome_deadlineOf_iff.mpr hFound)
  · unfold snapshotLedgerOf
    split
    · exact hCreate _ t
    · refine promises_query_bind (fun _ => trivial) ?_
      exact fun t' _ => hCreate _ t'

theorem promises_applyGovernanceEvent (hRequest : .proposals now newId events ∈ requests)
    (hEvent : event ∈ events) (id : String) (db : GovernanceDb) :
    (applyGovernanceEvent config now id event).Promises proposalsStay
      (fun _ db => ∀ proposal ∈ createdProposal event, (db.deadlineOf proposal).isSome = true)
      (fun _ _ => True) db := by
  cases hCreates : createdProposal event with
  | none =>
    have hChanges : (applyGovernanceEvent config now id event).Changes (ProposalMove requests) :=
      moves_applyGovernanceEvent hRequest hEvent id
    have hPromises := promises_of_changes hChanges (fun _ _ => proposalMove_stays) db
    refine hPromises.imp ?_ fun _ _ hError => hError
    rintro _ _ - proposal ⟨⟩
  | some proposal =>
    rcases createdProposal_eq_some_iff.mp hCreates with ⟨hType, hKeyId, hProposalId⟩
    have hCreated : CreatedWith requests (proposal.1, proposal.2) (deadlineAtCreation now event) :=
      ⟨now, newId, events, hRequest, event, hEvent, hCreates, rfl⟩
    simp only [applyGovernanceEvent, if_pos hType, applyProposalCreated, hKeyId, hProposalId]
    refine (promises_insertProposal hCreated db).imp ?_ fun _ _ hError => hError
    rintro _ t hStored _ ⟨⟩
    exact hStored

/- A handler that returns has stored what its events create. -/
theorem promises_processGovernanceProposalEvents (hRequest : .proposals now newId events ∈ requests)
    (db : GovernanceDb) :
    (processGovernanceProposalEvents config now newId events).Promises proposalsStay
      (fun _ db => ∀ event ∈ PipelineEvent.dedupe events, ∀ proposal ∈ createdProposal event,
        (db.deadlineOf proposal).isSome = true) (fun _ _ => True) db := by
  apply promises_forEach
  · intro event t t' hMove hStored proposal hCreates
    exact hMove proposal (hStored proposal hCreates)
  · intro event hEvent t
    exact promises_applyGovernanceEvent hRequest (PipelineEvent.mem_of_mem_dedupe hEvent) _ t

end

-- Logged Extensions
----

section

open Program

variable {requests : List EscalationRequest} {extension other : Extension} {proposal : ProposalKey}

theorem mem_extensionsOf_iff :
    extension ∈ extensionsOf requests proposal ↔ (∃ event ∈ requests.flatMap (·.extensionEvents),
      extensionOf event = some extension) ∧
      extension.proposal = proposal := by
  rw [extensionsOf, Finset.mem_filter, List.mem_toFinset, List.mem_filterMap]

variable {event : ProposalExtendedEvent}

theorem id_of_extensionOf (hExtension : extensionOf event = some extension) :
    event.txHash = extension.txHash ∧ event.eventIndex = extension.eventIndex := by
  unfold extensionOf at hExtension
  split at hExtension
  · cases hExtension
  · rcases Option.bind_eq_some_iff.mp hExtension with ⟨keyId, -, hRest⟩
    rcases Option.bind_eq_some_iff.mp hRest with ⟨proposalId, -, hRest⟩
    rcases Option.bind_eq_some_iff.mp hRest with ⟨newDeadline, -, hSome⟩
    cases hSome
    exact ⟨rfl, rfl⟩

/- The key of a log row tells delivered extensions apart. -/
theorem eq_of_key_log (hIdentified : Identified requests) {event' : ProposalExtendedEvent}
    (hEvent : event ∈ requests.flatMap (·.extensionEvents))
    (hEvent' : event' ∈ requests.flatMap (·.extensionEvents))
    (hExtension : extensionOf event = some extension) (hOther : extensionOf event' = some other)
    (hKey : key extension.log = key other.log) :
    extension = other := by
  rcases id_of_extensionOf hExtension with ⟨hHash, hIndex⟩
  rcases id_of_extensionOf hOther with ⟨hHash', hIndex'⟩
  have hSameHash : extension.txHash = other.txHash := (Prod.mk.inj hKey).1
  have hSameIndex : extension.eventIndex = other.eventIndex := (Prod.mk.inj hKey).2
  have hId : event.id = event'.id := by
    simp only [PipelineEvent.id, getChainEventId, hHash, hHash',
      hIndex, hIndex', hSameHash, hSameIndex]
  have hSame := hIdentified.1 event hEvent event' hEvent' hId
  rw [hSame, hOther] at hExtension
  exact (Option.some.inj hExtension).symm

theorem proposal_eq (db : EscalationDb) (proposal : ProposalKey) :
    db.proposal proposal = (db.governance.deadlineOf proposal).map fun expiresAt =>
      { db.escalation proposal with expiresAt } := by
  rw [EscalationDb.proposal, GovernanceDb.deadlineOf, Option.map_map]
  rfl

theorem isSome_proposal (db : EscalationDb) (proposal : ProposalKey) :
    (db.proposal proposal).isSome = (db.governance.deadlineOf proposal).isSome := by
  rw [proposal_eq, Option.isSome_map]

variable {db db' : EscalationDb} {now : ℤ} {data read : EscalatedProposal}

theorem deadlineOf_update (hStored : db.proposal proposal = some read) (proposal' : ProposalKey) :
    (db.update proposal data).governance.deadlineOf proposal' =
      if proposal' = proposal then some data.expiresAt
      else db.governance.deadlineOf proposal' := by
  rcases Option.map_eq_some_iff.mp hStored with ⟨row, hRow, -⟩
  have hFind := Table.find?_update_stored hRow (.expiringAt data.expiresAt) (fun _ => rfl) proposal'
  refine (congrArg (Option.map GovernanceProposal.expiresAt) hFind).trans ?_
  split <;> rfl

theorem proposal_update (hStored : db.proposal proposal = some read) (proposal' : ProposalKey) :
    (db.update proposal data).proposal proposal' =
      if proposal' = proposal then some data
      else db.proposal proposal' := by
  rw [proposal_eq, deadlineOf_update hStored]
  by_cases hSame : proposal' = proposal
  · rw [if_pos hSame, if_pos hSame, hSame]
    simp [EscalationDb.update]
  · rw [if_neg hSame, if_neg hSame, proposal_eq]
    simp [EscalationDb.update, hSame]

theorem proposal_commit (hStored : db.proposal extension.proposal = some read)
    (hCommit : db.commit now extension (some read) = some db') (proposal : ProposalKey) :
    db'.proposal proposal =
      if proposal = extension.proposal then
        some (read.extended now extension)
      else db.proposal proposal := by
  rcases Option.map_eq_some_iff.mp hCommit with ⟨governanceEscalationEventLog, -, rfl⟩
  exact proposal_update hStored proposal

variable {found : Option EscalatedProposal}

theorem escalation_commit (hCommit : db.commit now extension found = some db')
    (hOther : proposal ≠ extension.proposal) :
    db'.escalation proposal = db.escalation proposal := by
  rcases Option.map_eq_some_iff.mp hCommit with ⟨governanceEscalationEventLog, -, rfl⟩
  cases found with
  | none => rfl
  | some read => exact Function.update_of_ne hOther _ _

theorem rows_commit (hCommit : db.commit now extension found = some db') :
    db.governanceEscalationEventLog.find? (key extension.log) = none ∧
      db'.governanceEscalationEventLog.rows = db.governanceEscalationEventLog.rows ++
        [extension.log] := by
  rcases Option.map_eq_some_iff.mp hCommit with ⟨governanceEscalationEventLog, hInsert, rfl⟩
  exact Table.insert?_eq_some hInsert

theorem loggedOf_commit (hIdentified : Identified requests)
    (hEvent : event ∈ requests.flatMap (·.extensionEvents))
    (hExtension : extensionOf event = some extension)
    (hCommit : db.commit now extension found = some db') (proposal : ProposalKey) :
    loggedOf requests db' proposal =
      if proposal = extension.proposal then
        insert extension (loggedOf requests db proposal)
      else loggedOf requests db proposal := by
  have hRows := (rows_commit hCommit).2
  have hMem (other : Extension) :
      other ∈ loggedOf requests db' proposal ↔ other ∈ loggedOf requests db proposal ∨
        other = extension ∧ extension.proposal = proposal := by
    rw [loggedOf, loggedOf, Finset.mem_filter, Finset.mem_filter,
      hRows, List.mem_append, List.mem_singleton, and_or_left]
    apply or_congr_right
    constructor
    · rintro ⟨hOther, hLog⟩
      rcases mem_extensionsOf_iff.mp hOther with ⟨⟨event', hEvent', hExtension'⟩, hProposal⟩
      have hSame : other = extension :=
        eq_of_key_log hIdentified hEvent' hEvent hExtension' hExtension (by rw [hLog])
      exact ⟨hSame, hSame ▸ hProposal⟩
    · rintro ⟨rfl, hProposal⟩
      exact ⟨mem_extensionsOf_iff.mpr ⟨⟨event, hEvent, hExtension⟩, hProposal⟩, rfl⟩
  ext other
  rw [hMem]
  by_cases hSame : proposal = extension.proposal
  · rw [if_pos hSame, Finset.mem_insert, hSame]
    tauto
  · rw [if_neg hSame]
    constructor
    · rintro (hOld | ⟨-, hProposal⟩)
      · exact hOld
      · exact absurd hProposal.symm hSame
    · exact .inl

theorem notMem_loggedOf (hCommit : db.commit now extension found = some db')
    (proposal : ProposalKey) :
    extension ∉ loggedOf requests db proposal := by
  intro hMem
  have hLog := (Finset.mem_filter.mp hMem).2
  have hNone := List.find?_eq_none.mp (rows_commit hCommit).1
  exact hNone extension.log hLog (by simp)

end

-- Convergence
----

section

open Program

/- The events of a request that are neither to come nor logged. -/
structure Covers (db : EscalationDb) (request : EscalationRequest)
    (pending : List ProposalExtendedEvent) : Prop where
  requested : ∀ event ∈ pending, event ∈ request.extensionEvents
  logged : ∀ event ∈ request.extensionEvents, event ∈ pending ∨ ∀ extension ∈ extensionOf event,
    extension.log ∈ db.governanceEscalationEventLog.rows
  proposals : request.proposalEvents = []

/- The event of an extension that a transaction is about. -/
def Handles (db : EscalationDb) (request : EscalationRequest) (extension : Extension)
    (rest : List ProposalExtendedEvent) : Prop :=
  ∃ event, extensionOf event = some extension ∧ Covers db request (event :: rest)

/- What is known of a handler: what it has done and will do. -/
def Progress (requests : List EscalationRequest) (db : EscalationDb)
    (call : EscalationCall) : Prop :=
  call.request ∈ requests ∧
    match call.work with
    | .handling program =>
      call.request.extensionEvents = [] ∧
      program.Changes (ProposalMove requests) ∧
      program.Promises proposalsStay (fun _ governance => ∀ event ∈ call.request.proposalEvents,
        ∀ proposal ∈ createdProposal event, (governance.deadlineOf proposal).isSome = true)
        (fun _ _ => True) db.governance
    | .createLog extension rest => Handles db call.request extension rest
    | .findProposal extension rest => Handles db call.request extension rest
    | .commit extension _ rest => Handles db call.request extension rest
    | .ended (.ok _) => Covers db call.request []
    | .ended (.error _) => True

/- Log rows and proposals are never deleted. -/
structure Grown (db db' : EscalationDb) : Prop where
  governance : proposalsStay.move db.governance db'.governance
  log : ∀ row ∈ db.governanceEscalationEventLog.rows, row ∈ db'.governanceEscalationEventLog.rows

variable {requests : List EscalationRequest} {db db' : EscalationDb} {request : EscalationRequest}
variable {pending rest : List ProposalExtendedEvent} {extension : Extension}

theorem Covers.grown (hCovers : Covers db request pending) (hGrown : Grown db db') :
    Covers db' request pending where
  requested := hCovers.requested
  logged := by
    intro event hEvent
    rcases hCovers.logged event hEvent with hPending | hLogged
    · exact .inl hPending
    · right
      intro extension hExtension
      exact hGrown.log _ (hLogged extension hExtension)
  proposals := hCovers.proposals

theorem Progress.grown {call : EscalationCall} (hProgress : Progress requests db call)
    (hGrown : Grown db db') :
    Progress requests db' call := by
  have hHandles {extension : Extension} {rest : List ProposalExtendedEvent}
      (h : Handles db call.request extension rest) :
      Handles db' call.request extension rest := by
    rcases h with ⟨event, hExtension, hCovers⟩
    exact ⟨event, hExtension, hCovers.grown hGrown⟩
  rcases call with ⟨request, work⟩
  rcases hProgress with ⟨hRequest, hWork⟩
  refine ⟨hRequest, ?_⟩
  cases work with
  | handling program =>
    rcases hWork with ⟨hNone, hChanges, hPromises⟩
    exact ⟨hNone, hChanges, hPromises.later hGrown.governance⟩
  | createLog extension rest => exact hHandles hWork
  | findProposal extension rest => exact hHandles hWork
  | commit extension found rest => exact hHandles hWork
  | ended result =>
    cases result with
    | ok _ => exact hWork.grown hGrown
    | error _ => trivial

theorem Covers.tail {event : ProposalExtendedEvent} (hCovers : Covers db request (event :: rest))
    (hLogged :
      ∀ extension ∈ extensionOf event, extension.log ∈ db.governanceEscalationEventLog.rows) :
    Covers db request rest where
  requested := by
    intro other hOther
    exact hCovers.requested other (List.mem_cons_of_mem _ hOther)
  logged := by
    intro other hOther
    rcases hCovers.logged other hOther with hPending | hDone
    · rcases List.mem_cons.mp hPending with rfl | hRest
      · exact .inr hLogged
      · exact .inl hRest
    · exact .inr hDone
  proposals := hCovers.proposals

theorem progress_nextExtension (hRequest : request ∈ requests)
    (hCovers : Covers db request pending) :
    Progress requests db ⟨request, nextExtension pending⟩ := by
  induction pending with
  | nil => exact ⟨hRequest, hCovers⟩
  | cons event rest ih =>
    unfold nextExtension
    split
    · rename_i hSkipped
      apply ih
      apply hCovers.tail
      rw [hSkipped]
      rintro _ ⟨⟩
    · rename_i extension hExtension
      exact ⟨hRequest, event, hExtension, hCovers⟩

theorem Handles.next (hRequest : request ∈ requests) (hHandles : Handles db request extension rest)
    (hLogged : extension.log ∈ db.governanceEscalationEventLog.rows) :
    Progress requests db ⟨request, nextExtension rest⟩ := by
  rcases hHandles with ⟨event, hExtension, hCovers⟩
  apply progress_nextExtension hRequest
  apply hCovers.tail
  rw [hExtension]
  rintro _ ⟨⟩
  exact hLogged

end

-- Runs in Turn
----

section

open Program

variable {π : Type} [LinearOrder π]

/- Each proposal shows the extensions that are logged. -/
structure Shown (position : String × ℕ → π) (requests : List EscalationRequest)
    (db : EscalationDb) : Prop where
  stored : ∀ key proposal, db.proposal key = some proposal →
    ∃ deadline, CreatedWith requests key deadline ∧
      Escalated position deadline (loggedOf requests db key) proposal
  absent :
    ∀ key, db.proposal key = none → loggedOf requests db key = ∅ ∧ db.escalation key = .initial
  sound :
    ∀ row ∈ db.governanceEscalationEventLog.rows, ∃ event ∈ requests.flatMap (·.extensionEvents),
      ∃ extension ∈ extensionOf event, extension.log = row

variable {position : String × ℕ → π} {config : GovernanceConfig} {requests : List EscalationRequest}
variable {db db' : EscalationDb}

theorem shown_empty (latestLedger : Option ℤ) : Shown position requests (.empty latestLedger) where
  stored := by
    rintro key proposal ⟨⟩
  absent := by
    intro key _
    refine ⟨Finset.filter_eq_empty_iff.mpr ?_, rfl⟩
    rintro extension - ⟨⟩
  sound := by
    rintro row ⟨⟩

/- A new proposal has its deadline, and shows no extension. -/
theorem Shown.move {governance : GovernanceDb} (hShown : Shown position requests db)
    (hMove : ProposalMove requests db.governance governance) :
    Shown position requests { db with governance } := by
  have hProposal (key : ProposalKey) : EscalationDb.proposal { db with governance } key =
      (governance.deadlineOf key).map fun expiresAt => { db.escalation key with expiresAt } :=
    proposal_eq _ key
  refine ⟨?_, ?_, hShown.sound⟩
  · intro key proposal hStored
    rw [hProposal] at hStored
    rcases hMove key with hSame | ⟨hNone, deadline, hNew, hCreated⟩
    · rw [hSame, ← proposal_eq] at hStored
      exact hShown.stored key proposal hStored
    · have hAbsent : db.proposal key = none := by
        rw [proposal_eq, hNone]
        rfl
      rcases hShown.absent key hAbsent with ⟨hLogged, hInitial⟩
      rw [Option.mem_def.mp hNew, hInitial] at hStored
      cases hStored
      refine ⟨deadline, hCreated, ?_⟩
      change Escalated _ _ (loggedOf requests db key) _
      rw [hLogged]
      constructor
      · rfl
      · intro last hLast
        exact absurd hLast (Finset.notMem_empty last)
      · exact fun hSome => absurd rfl hSome.ne_empty
      · exact fun _ => ⟨rfl, rfl, rfl⟩
  · intro key hNone
    apply hShown.absent key
    rw [hProposal, Option.map_eq_none_iff] at hNone
    rw [proposal_eq, Option.map_eq_none_iff]
    rcases hMove key with hSame | ⟨hOld, -⟩
    · rw [← hSame, hNone]
    · exact hOld

theorem Shown.commit (hIdentified : Identified requests) (hShown : Shown position requests db)
    {extension : Extension} {event : ProposalExtendedEvent}
    (hEvent : event ∈ requests.flatMap (·.extensionEvents))
    (hExtension : extensionOf event = some extension) {read : EscalatedProposal}
    (hStored : db.proposal extension.proposal = some read)
    (hLast : ∀ row ∈ db.governanceEscalationEventLog.rows,
      (row.keyId, row.proposalId) = extension.proposal →
        position (key row) < position (key extension.log)) {now : ℤ}
    (hCommit : db.commit now extension (some read) = some db') :
    Shown position requests db' := by
  have hProposal := proposal_commit hStored hCommit
  have hLogged := loggedOf_commit hIdentified hEvent hExtension hCommit
  refine ⟨?_, ?_, ?_⟩
  · intro key proposal hFound
    rw [hProposal] at hFound
    rw [hLogged]
    by_cases hSame : key = extension.proposal
    · rw [if_pos hSame] at hFound
      rw [if_pos hSame, hSame]
      cases hFound
      rcases hShown.stored _ read hStored with ⟨deadline, hCreated, hEscalated⟩
      refine ⟨deadline, hCreated, ?_⟩
      refine hEscalated.extended (notMem_loggedOf hCommit _) ?_ now
      intro other hOther
      rcases Finset.mem_filter.mp hOther with ⟨hMem, hLog⟩
      exact hLast _ hLog (mem_extensionsOf_iff.mp hMem).2
    · rw [if_neg hSame] at hFound ⊢
      exact hShown.stored key proposal hFound
  · intro key hNone
    rw [hProposal] at hNone
    by_cases hSame : key = extension.proposal
    · rw [if_pos hSame] at hNone
      cases hNone
    · rw [if_neg hSame] at hNone
      rw [hLogged, if_neg hSame]
      rcases hShown.absent key hNone with ⟨hEmpty, hInitial⟩
      refine ⟨hEmpty, ?_⟩
      rw [← hInitial]
      exact escalation_commit hCommit hSame
  · intro row hRow
    rw [(rows_commit hCommit).2, List.mem_append] at hRow
    rcases hRow with hOld | hNew
    · exact hShown.sound row hOld
    · rw [List.mem_singleton.mp hNew]
      exact ⟨event, hEvent, extension, hExtension, rfl⟩

theorem Grown.refl (db : EscalationDb) : Grown db db := ⟨proposalsStay.refl _, fun _ => id⟩

variable {request : EscalationRequest} {extension : Extension} {rest : List ProposalExtendedEvent}
variable {outcome : Option Outcome}

/- The statement of a transaction's commit, in its turn. -/
theorem commit_step (hIdentified : Identified requests)
    (hShown : Shown position requests db) {found : Option EscalatedProposal}
    (hRequest : request ∈ requests) (hHandles : Handles db request extension rest)
    (hTurn : InTurn position db ⟨request, .commit extension found rest⟩ outcome)
    (hEffect : takesEffect outcome = true)
    (hCommit : db.commit request.now extension found = some db') :
    Shown position requests db' ∧ Grown db db' ∧
      Progress requests db' ⟨request, nextExtension rest⟩ := by
  rcases rows_commit hCommit with ⟨hFresh, hRows⟩
  rcases hTurn hEffect hFresh with ⟨hFound, hStored, hLast⟩
  rcases Option.isSome_iff_exists.mp hFound with ⟨read, rfl⟩
  have hGrown : Grown db db' := by
    constructor
    · intro key hKey
      rw [← isSome_proposal] at hKey ⊢
      rw [proposal_commit hStored hCommit]
      split
      · rfl
      · exact hKey
    · intro row hRow
      rw [hRows]
      exact List.mem_append_left _ hRow
  refine ⟨?_, hGrown, ?_⟩
  · rcases hHandles with ⟨event, hExtension, hCovers⟩
    have hEvent : event ∈ requests.flatMap (·.extensionEvents) :=
      List.mem_flatMap.mpr ⟨request, hRequest, hCovers.requested event List.mem_cons_self⟩
    exact hShown.commit hIdentified hEvent hExtension hStored hLast hCommit
  · have hAfter : Handles db' request extension rest := by
      rcases hHandles with ⟨event, hExtension, hCovers⟩
      exact ⟨event, hExtension, hCovers.grown hGrown⟩
    apply hAfter.next hRequest
    rw [hRows]
    exact List.mem_append_right _ List.mem_cons_self

theorem Shown.logged_of_stored (hIdentified : Identified requests)
    (hShown : Shown position requests db) (hRequest : request ∈ requests)
    (hHandles : Handles db request extension rest) {row : GovernanceEscalationEventLog}
    (hStored : db.governanceEscalationEventLog.find? (key extension.log) = some row) :
    extension.log ∈ db.governanceEscalationEventLog.rows := by
  have hRow := Table.mem_of_find? hStored
  rcases hHandles with ⟨event, hExtension, hCovers⟩
  have hEvent : event ∈ requests.flatMap (·.extensionEvents) :=
    List.mem_flatMap.mpr ⟨request, hRequest, hCovers.requested event List.mem_cons_self⟩
  rcases hShown.sound row hRow with ⟨event', hEvent', other, hOther, hLog⟩
  have hSame : extension = other := by
    apply eq_of_key_log hIdentified hEvent hEvent' hExtension hOther
    rw [hLog, Table.key_of_find? hStored]
  rw [hSame, hLog]
  exact hRow

/- A statement in its turn keeps all that is known. -/
theorem escalation_step (hIdentified : Identified requests)
    (hShown : Shown position requests db) {work next : EscalationWork}
    (hProgress : Progress requests db ⟨request, work⟩)
    (hTurn : InTurn position db ⟨request, work⟩ outcome) (hEffect : takesEffect outcome = true)
    (hExecute : executeEscalationWork request.now work db = some (db', next)) :
    Shown position requests db' ∧ Grown db db' ∧ Progress requests db' ⟨request, next⟩ := by
  rcases hProgress with ⟨hRequest, hWork⟩
  cases work with
  | handling program =>
    cases program with
    | stmt update after onFault =>
      cases hExecute
      rcases hWork with ⟨hNone, hChanges, hPromises⟩
      have hMove := hChanges.1 db.governance
      have hNext := (hPromises db.governance (proposalsStay.refl _)).2.1
      exact ⟨hShown.move hMove, ⟨proposalMove_stays hMove, fun _ => id⟩,
        hRequest, hNone, hChanges.2.1 _, hNext⟩
    | ret a => cases hExecute
    | raise e => cases hExecute
  | createLog extension rest =>
    simp only [executeEscalationWork] at hExecute
    split at hExecute
    · rename_i row hStored
      cases hExecute
      have hLogged := hShown.logged_of_stored hIdentified hRequest hWork hStored
      exact ⟨hShown, .refl db, hWork.next hRequest hLogged⟩
    · cases hExecute
      exact ⟨hShown, .refl db, hRequest, hWork⟩
  | findProposal extension rest =>
    cases hExecute
    exact ⟨hShown, .refl db, hRequest, hWork⟩
  | commit extension found rest =>
    simp only [executeEscalationWork] at hExecute
    split at hExecute
    · rename_i committed hCommit
      cases hExecute
      exact commit_step hIdentified hShown hRequest hWork hTurn hEffect hCommit
    · rename_i hConflict
      cases hExecute
      rcases Table.exists_of_insert?_eq_none (Option.map_eq_none_iff.mp hConflict) with
        ⟨row, hStored⟩
      have hLogged := hShown.logged_of_stored hIdentified hRequest hWork hStored
      exact ⟨hShown, .refl db, hWork.next hRequest hLogged⟩
  | ended result => cases hExecute

theorem escalationIndexer_maintains (hIdentified : Identified requests) :
    escalationIndexer.Maintains (InTurn position)
      (Shown position requests) (Progress requests) where
  execute := by
    rintro db ⟨request, work⟩ outcome db' ⟨request', next⟩ hShown hProgress hTurn hEffect hExecute
    rcases Option.map_eq_some_iff.mp hExecute with ⟨⟨db'', work'⟩, hWork, hAfter⟩
    cases hAfter
    rcases escalation_step hIdentified hShown hProgress hTurn
      hEffect hWork with ⟨hShown', hGrown, hNext⟩
    exact ⟨hShown', hNext, fun _ hOther => hOther.grown hGrown⟩
  fail := by
    rintro db ⟨request, work⟩ ⟨hRequest, hWork⟩
    refine ⟨hRequest, ?_⟩
    cases work with
    | handling program =>
      cases program with
      | stmt update after onFault =>
        rcases hWork with ⟨hNone, hChanges, hPromises⟩
        exact ⟨hNone, hChanges.2.2, (hPromises db.governance (proposalsStay.refl _)).2.2.1⟩
      | ret a => exact hWork
      | raise e => exact hWork
    | ended result => exact hWork
    | createLog extension rest => trivial
    | findProposal extension rest => trivial
    | commit extension found rest => trivial

theorem progress_begin (hIdentified : Identified requests) (hRequest : request ∈ requests) :
    Progress requests db (request.call config) := by
  cases request with
  | proposals now newId events =>
    refine ⟨hRequest, rfl, ?_, ?_⟩
    · apply changes_forEach
      intro event hEvent
      exact moves_applyGovernanceEvent hRequest (PipelineEvent.mem_of_mem_dedupe hEvent) _
    · have hPromises : (processGovernanceProposalEvents config now newId
          events).Promises proposalsStay _ _ db.governance :=
        promises_processGovernanceProposalEvents hRequest _
      refine hPromises.imp ?_ fun _ _ hError => hError
      intro _ governance hStored event hEvent
      apply hStored event
      apply PipelineEvent.mem_dedupe_of_identified ?_ hEvent
      intro one hOne other hOther
      exact hIdentified.2 one (List.mem_flatMap.mpr ⟨_, hRequest, hOne⟩) other
        (List.mem_flatMap.mpr ⟨_, hRequest, hOther⟩)
  | extensions now events =>
    apply progress_nextExtension hRequest
    constructor
    · exact fun event hEvent => PipelineEvent.mem_of_mem_dedupe hEvent
    · intro event hEvent
      left
      apply PipelineEvent.mem_dedupe_of_identified ?_ hEvent
      intro one hOne other hOther
      exact hIdentified.1 one (List.mem_flatMap.mpr ⟨_, hRequest, hOne⟩) other
        (List.mem_flatMap.mpr ⟨_, hRequest, hOther⟩)
    · rfl

variable {crew : Crew EscalationDb EscalationCall}

theorem logged_of_returned (hAll : crew.All (Progress requests crew.store))
    {event : ProposalExtendedEvent}
    (hReturned : event ∈ (returnedRequests crew).flatMap (·.extensionEvents)) :
    ∀ extension ∈ extensionOf event, extension.log ∈
      crew.store.governanceEscalationEventLog.rows := by
  rcases List.mem_flatMap.mp hReturned with ⟨request, hRequest, hEvent⟩
  rcases List.mem_filterMap.mp hRequest with ⟨held, hHeld, hOf⟩
  rcases Option.map_eq_some_iff.mp hOf with ⟨call, hCall, rfl⟩
  rcases Option.filter_eq_some_iff.mp hCall with ⟨rfl, hCallReturned⟩
  have hWork := (Crew.all_iff.mp hAll _ hHeld call rfl).2
  rcases call with ⟨request, work⟩
  cases work with
  | handling program =>
    rw [show request.extensionEvents = [] from hWork.1] at hEvent
    cases hEvent
  | ended result =>
    cases result with
    | ok _ =>
      rcases hWork.logged event hEvent with hNone | hLogged
      · cases hNone
      · exact hLogged
    | error _ => cases hCallReturned
  | createLog extension rest => cases hCallReturned
  | findProposal extension rest => cases hCallReturned
  | commit extension found rest => cases hCallReturned

theorem stored_of_returned (hAll : crew.All (Progress requests crew.store))
    {event : GovernanceEvent} (hReturned :
      event ∈ (returnedRequests crew).flatMap (·.proposalEvents)) {proposal : ProposalKey}
    (hCreates : createdProposal event = some proposal) :
    (crew.store.proposal proposal).isSome = true := by
  rw [isSome_proposal]
  rcases List.mem_flatMap.mp hReturned with ⟨request, hRequest, hEvent⟩
  rcases List.mem_filterMap.mp hRequest with ⟨held, hHeld, hOf⟩
  rcases Option.map_eq_some_iff.mp hOf with ⟨call, hCall, rfl⟩
  rcases Option.filter_eq_some_iff.mp hCall with ⟨rfl, hCallReturned⟩
  have hWork := (Crew.all_iff.mp hAll _ hHeld call rfl).2
  rcases call with ⟨request, work⟩
  cases work with
  | handling program =>
    cases program with
    | ret _ => exact hWork.2.2 _ (proposalsStay.refl _) event hEvent proposal hCreates
    | stmt _ _ _ => cases hCallReturned
    | raise _ => cases hCallReturned
  | ended result =>
    cases result with
    | ok _ =>
      rw [show request.proposalEvents = [] from hWork.proposals] at hEvent
      cases hEvent
    | error _ => cases hCallReturned
  | createLog extension rest => cases hCallReturned
  | findProposal extension rest => cases hCallReturned
  | commit extension found rest => cases hCallReturned

/-
  In runs whose extensions are committed in turn, each proposal
  shows the extensions that are logged, and all of them once all
  events are delivered.
-/
theorem escalations_converge {latestLedger : Option ℤ} {moves : List FaultMove}
    {crew : Crew EscalationDb EscalationCall} (hIdentified : Identified requests)
    (hRun : RunsTo (Crew.attempt escalationIndexer) (Crew.Admits (InTurn position))
      (escalationHandlers config latestLedger requests) moves crew) :
    (∀ key proposal, crew.store.proposal key = some proposal →
      ∃ deadline, CreatedWith requests key deadline ∧ Escalated position deadline
        (loggedOf requests crew.store key) proposal) ∧ (AllDelivered requests crew →
      Converged position requests crew.store) := by
  have hStart : (escalationHandlers config latestLedger requests).All
      (Progress requests (.empty latestLedger)) := by
    apply Crew.all_start
    intro call hCall
    rcases List.mem_map.mp hCall with ⟨request, hRequest, rfl⟩
    exact progress_begin hIdentified hRequest
  rcases (escalationIndexer_maintains hIdentified).run (shown_empty latestLedger) hStart hRun with
    ⟨hShown, hAll⟩
  refine ⟨hShown.stored, ?_⟩
  rintro ⟨hExtensions, hProposals⟩ key hKnown
  have hLogged : loggedOf requests crew.store key =
      extensionsOf requests key := by
    apply Finset.filter_true_of_mem
    intro extension hMem
    rcases (mem_extensionsOf_iff.mp hMem).1 with ⟨event, hEvent, hExtension⟩
    exact logged_of_returned hAll (hExtensions event hEvent) extension hExtension
  have hStored : (crew.store.proposal key).isSome = true := by
    rcases hKnown with ⟨deadline, hCreated⟩ | hSome
    · rcases hCreated with ⟨now, newId, events, hRequest, event, hEvent, hCreates, -⟩
      have hDelivered := hProposals event (List.mem_flatMap.mpr ⟨_, hRequest, hEvent⟩)
      exact stored_of_returned hAll hDelivered hCreates
    · by_contra hNone
      have hAbsent := hShown.absent key (by simpa using hNone)
      rw [hLogged] at hAbsent
      exact hSome.ne_empty hAbsent.1
  rcases Option.isSome_iff_exists.mp hStored with ⟨proposal, hProposal⟩
  rcases hShown.stored key proposal hProposal with ⟨deadline, hCreated, hEscalated⟩
  rw [hLogged] at hEscalated
  exact ⟨proposal, deadline, hProposal, hCreated, hEscalated⟩

end

-- Extensions of One Proposal
----

open Program

/- An event of a proposal that is open until 100. -/
def sampleCreation : GovernanceEvent where
  toIndexerChainEvent := bareEvent "PROPOSAL_CREATED" "t" 0 1
  payload := {
    keyId := some "K"
    proposalId := some "P"
    title := none
    options := .other
    expiresAt := some 100
    deadline := none
    occurredAt := none
    createdAt := none
    executedAt := none
    quorumBps := none
    snapshotLedger := some 1
    snapshotTotalWeight := none
    voter := none
    wallet := none
    optionIndex := none
    weight := none }

def sampleExtension (eventIndex : ℕ) (newDeadline : ℤ) : ProposalExtendedEvent where
  toIndexerChainEvent := bareEvent "PROPOSAL_EXTENDED" "t" eventIndex 1
  payload :=
    { keyId := some "K"
      proposalId := some "P"
      newDeadline := some newDeadline }

/- A creation and two extensions, one handler for each event. -/
def sampleRequests : List EscalationRequest :=
  [.proposals 0 (fun _ => "id") [sampleCreation], .extensions 0 [sampleExtension 1 200],
    .extensions 0 [sampleExtension 2 300]]

def sampleHandlers : Crew EscalationDb EscalationCall :=
  escalationHandlers ⟨fun _ => none⟩ none sampleRequests

theorem escalations_converge_sample :
    ∃ crew, RunsTo (Crew.attempt escalationIndexer) (Crew.Admits (InTurn Prod.snd)) sampleHandlers
      (servedMoves 0 2 ++ servedMoves 1 3 ++ servedMoves 2 3) crew ∧
      AllDelivered sampleRequests crew ∧
      Converged Prod.snd sampleRequests crew.store := by
  have hRuns :
      ((runAllowed (Crew.attempt escalationIndexer) (Crew.Admits (InTurn Prod.snd)) sampleHandlers
        (servedMoves 0 2 ++ servedMoves 1 3 ++ servedMoves 2 3)).filter
        (fun crew => AllDelivered sampleRequests crew)).isSome = true := by decide
  rcases Option.isSome_iff_exists.mp hRuns with ⟨crew, hCrew⟩
  rcases Option.filter_eq_some_iff.mp hCrew with ⟨hSome, hDelivered⟩
  have hRun := runsTo_of_runAllowed hSome
  have hDelivered' := of_decide_eq_true hDelivered
  exact ⟨crew, hRun, hDelivered', (escalations_converge (by decide) hRun).2 hDelivered'⟩

def sampleProposalAfter (moves : List FaultMove) : Option EscalatedProposal :=
  ((runLabels (Crew.attempt escalationIndexer) sampleHandlers moves).filter
    (fun crew => AllDelivered sampleRequests crew)).bind
    fun crew => crew.store.proposal ("K", "P")

theorem diverges {moves : List FaultMove} {proposal : EscalatedProposal}
    (hAfter : sampleProposalAfter moves = some proposal)
    (hWrong : proposal.escalationCount ≠ 2 ∨ proposal.expiresAt ≠ 300) :
    ∃ crew, RunsTo (Crew.attempt escalationIndexer) (fun _ _ => True) sampleHandlers moves crew ∧
      AllDelivered sampleRequests crew ∧
      ¬Converged Prod.snd sampleRequests crew.store := by
  rcases Option.bind_eq_some_iff.mp hAfter with ⟨crew, hCrew, hProposal⟩
  rcases Option.filter_eq_some_iff.mp hCrew with ⟨hSome, hDelivered⟩
  refine ⟨crew, runsTo_of_runLabels hSome, of_decide_eq_true hDelivered, ?_⟩
  intro hConverged
  rcases hConverged ("K", "P") (.inr (by decide)) with ⟨stored, deadline, hStored, -, hEscalated⟩
  cases hProposal.symm.trans hStored
  rcases hWrong with hCount | hExpires
  · exact hCount hEscalated.count
  · apply hExpires
    exact (hEscalated.latest ⟨"K", "P", 300, some 1, "t", 2⟩ (by decide) (by decide)).1

/-
  Two overlapping extensions count as one; an extension before
  its proposal is logged and not counted; and an older one that
  comes late takes the deadline back.
-/
theorem extensions_out_of_turn_diverge :
    (∃ crew, RunsTo (Crew.attempt escalationIndexer) (fun _ _ => True) sampleHandlers
      (servedMoves 0 2 ++ servedMoves 2 2 ++ servedMoves 1 3 ++ servedMoves 2 1) crew ∧
      AllDelivered sampleRequests crew ∧ ¬Converged Prod.snd sampleRequests crew.store) ∧ (∃ crew,
      RunsTo (Crew.attempt escalationIndexer) (fun _ _ => True) sampleHandlers
        (servedMoves 1 3 ++ servedMoves 0 2 ++ servedMoves 2 3) crew ∧
      AllDelivered sampleRequests crew ∧ ¬Converged Prod.snd sampleRequests crew.store) ∧ ∃ crew,
      RunsTo (Crew.attempt escalationIndexer) (fun _ _ => True) sampleHandlers
        (servedMoves 0 2 ++ servedMoves 2 3 ++ servedMoves 1 3) crew ∧
      AllDelivered sampleRequests crew ∧
      ¬Converged Prod.snd sampleRequests crew.store := by
  refine ⟨diverges rfl ?_, diverges rfl ?_, diverges rfl ?_⟩
  · exact .inl (by decide)
  · exact .inl (by decide)
  · exact .inr (by decide)

end Governance

end AccessLayer
