import AccessLayer.Indexer.InvoiceEvents
import AccessLayer.Library.AdvisoryLocks
import AccessLayer.Library.Latest

/-
  The read models of the invoice contracts
  (`src/modules/indexer/invoice-protocol-indexer.service.ts`,
  `prisma/schema/invoice-protocol.prisma`).

  Each event has a transaction that locks its entity, adds the
  event to the journal and rebuilds the entity's row from the
  latest journal events.  The transactions of all handlers are
  sessions of one database, in whatever order they begin.
  Caches and logs are left out.

  Main declaration: `processInvoiceProtocolEvent`
-/

-- Rows
----

namespace AccessLayer

namespace Indexer

open Transactional

section

structure IssuerScore where
  wallet : String
  score : Nat
  tier : String
  lastEventId : String
  lastUpdated : ℤ

instance : Keyed IssuerScore String := ⟨IssuerScore.wallet⟩

inductive ReportStatus where
  | opened
  | resolved

structure FraudReport where
  reportId : ChainId
  invoiceId : ChainId
  reporter : String
  evidenceHash : String
  notes : Option String
  status : ReportStatus
  resolution : Option String
  resolutionNotes : Option String
  submittedAt : ℤ
  resolvedAt : Option ℤ

instance : Keyed FraudReport (ChainId × ChainId) := ⟨fun row => (row.invoiceId, row.reportId)⟩

inductive ChangeStatus where
  | pending
  | executed
  | cancelled
  deriving DecidableEq

def ChangeStatus.name : ChangeStatus → String
  | .pending => "PENDING"
  | .executed => "EXECUTED"
  | .cancelled => "CANCELLED"

structure TimelockChange where
  proposalId : ChainId
  target : String
  function : String
  params : Json
  eta : ℤ
  status : ChangeStatus
  outcome : Option String
  proposedAt : ℤ
  completedAt : Option ℤ

instance : Keyed TimelockChange ChainId := ⟨TimelockChange.proposalId⟩

structure TransferRestrictionEvent where
  id : String
  invoiceId : ChainId
  fromWallet : String
  toWallet : String
  reason : String
  restrictionType : String
  ledger : Nat
  txHash : String
  eventIndex : Nat
  timestamp : ℤ

instance : Keyed TransferRestrictionEvent String := ⟨TransferRestrictionEvent.id⟩

instance : Keyed InvoiceEvent String := ⟨InvoiceEvent.id⟩

structure InvoiceDb where
  invoiceProtocolEvent : Table InvoiceEvent
  issuerScore : Table IssuerScore
  fraudReport : Table FraudReport
  timelockChange : Table TimelockChange
  transferRestrictionEvent : Table TransferRestrictionEvent

def InvoiceDb.empty : InvoiceDb where
  invoiceProtocolEvent := .empty
  issuerScore := .empty
  fraudReport := .empty
  timelockChange := .empty
  transferRestrictionEvent := .empty

/- The row that an update of a score leads to. -/
def IssuerScore.ofEvent (event : InvoiceEvent) : Option IssuerScore :=
  match event.payload with
  | .issuerScoreUpdated update =>
    some {
      wallet := update.wallet
      score := update.score
      tier := update.tier
      lastEventId := event.id
      lastUpdated := event.timestamp }
  | _ => none

def InvoicePayload.resolution? : InvoicePayload → Option ReportResolution
  | .reportResolved report => some report
  | _ => none

def InvoicePayload.completion? : InvoicePayload → Option ChangeCompletion
  | .changeExecuted completion => some completion
  | .changeCancelled completion => some completion
  | _ => none

/- The row of a submission and of a resolution, if any. -/
def FraudReport.ofEvents (submitted : InvoiceEvent)
    (resolved : Option InvoiceEvent) : Option FraudReport :=
  match submitted.payload with
  | .reportSubmitted report =>
    let resolution := resolved.bind fun event => event.payload.resolution?
    some {
      reportId := report.reportId
      invoiceId := report.invoiceId
      reporter := report.reporter
      evidenceHash := report.evidenceHash
      notes := report.notes
      status := if resolved.isSome then .resolved else .opened
      resolution := resolution.map ReportResolution.resolution
      resolutionNotes := resolution.bind ReportResolution.resolutionNotes
      submittedAt := submitted.timestamp
      resolvedAt := resolved.map InvoiceEvent.timestamp }
  | _ => none

/- The status that the completion of a change leads to. -/
def ChangeStatus.ofTerminal : Option InvoiceEvent → ChangeStatus
  | none => .pending
  | some terminal =>
    if terminal.eventType = .changeExecuted then .executed
    else .cancelled

/- The row of a proposal and of a completion, if any. -/
def TimelockChange.ofEvents (proposed : InvoiceEvent)
    (terminal : Option InvoiceEvent) : Option TimelockChange :=
  match proposed.payload with
  | .changeProposed proposal =>
    let status := ChangeStatus.ofTerminal terminal
    let outcome :=
      terminal.bind fun event => event.payload.completion?.bind ChangeCompletion.outcome
    some {
      proposalId := proposal.proposalId
      target := proposal.target
      function := proposal.function
      params := proposal.params
      eta := proposal.eta
      status
      outcome := outcome <|> terminal.map fun _ => status.name
      proposedAt := proposed.timestamp
      completedAt := terminal.map InvoiceEvent.timestamp }
  | _ => none

def TransferBlock.row (block : TransferBlock)
    (event : InvoiceEvent) : TransferRestrictionEvent where
  id := event.id
  invoiceId := block.invoiceId
  fromWallet := block.fromWallet
  toWallet := block.toWallet
  reason := block.reason
  restrictionType := block.restrictionType
  ledger := event.ledger
  txHash := event.txHash
  eventIndex := event.eventIndex
  timestamp := event.timestamp

-- Transactions
----

open Interactive

/- A row of the journal has the id or the columns of an event. -/
def InvoiceDb.hasRecorded (db : InvoiceDb) (event : InvoiceEvent) : Bool :=
  db.invoiceProtocolEvent.rows.any fun row => row.id = event.id || row.identity = event.identity

/- Duplicates of a row are skipped. -/
def InvoiceDb.record (db : InvoiceDb) (event : InvoiceEvent) : InvoiceDb :=
  if db.hasRecorded event then db
  else
    { db with
      invoiceProtocolEvent := db.invoiceProtocolEvent.createMany [event] }

def InvoiceDb.eventsOf (db : InvoiceDb) (entityKey : String) : List InvoiceEvent :=
  db.invoiceProtocolEvent.rows.filter fun row => row.entityKey = entityKey

def InvoiceDb.latest (db : InvoiceDb) (event : InvoiceEvent)
    (eventTypes : List InvoiceEventType) : Option InvoiceEvent :=
  latestOf InvoiceEvent.position ((db.eventsOf event.entityKey).filter fun row =>
    row.eventType ∈ eventTypes && row.contractId = event.contractId)

def InvoiceDb.putScore (db : InvoiceDb) (row : IssuerScore) : InvoiceDb :=
  { db with issuerScore := db.issuerScore.put row }

def InvoiceDb.putReport (db : InvoiceDb) (row : FraudReport) : InvoiceDb :=
  { db with fraudReport := db.fraudReport.put row }

def InvoiceDb.putChange (db : InvoiceDb) (row : TimelockChange) : InvoiceDb :=
  { db with timelockChange := db.timelockChange.put row }

def InvoiceDb.restrict (db : InvoiceDb) (row : TransferRestrictionEvent) : InvoiceDb :=
  { db with
    transferRestrictionEvent := db.transferRestrictionEvent.createMany [row] }

abbrev InvoiceM := Interactive InvoiceDb ℤ InvoiceError

/- The advisory lock lasts until the transaction ends. -/
def lockEntity (env : InvoiceEnv) (event : InvoiceEvent) : InvoiceM Unit :=
  .stmt [env.hashtext event.entityKey] id fun _ => .ret ()

/- A write that does not fail. -/
def overwrite (f : InvoiceDb → InvoiceDb) : InvoiceM Unit := write [] fun db => .ok ((), f db)

def issuerCacheKey (env : InvoiceEnv) (wallet eventId : String) : String :=
  let digest :=
    env.sha256 (String.ofList (Json.array [.string env.STELLAR_NETWORK,
      .string (env.ISSUER_REPUTATION_CONTRACT_ID.getD ""),
      .string wallet, .string eventId]).stringify)
  "invoice-protocol:score:" ++ digest

/- Answers the cache key of the score that is replaced. -/
def projectScore (env : InvoiceEnv) (event : InvoiceEvent) : InvoiceM (Option String) := do
  let latest ← find fun db => db.latest event [.issuerScoreUpdated]
  match latest.bind IssuerScore.ofEvent with
  -- the event itself is in the journal
  | none => pure none
  | some row =>
    let old ← find fun db => db.issuerScore.find? row.wallet
    overwrite fun db => db.putScore row
    pure (old.map fun old => issuerCacheKey env row.wallet old.lastEventId)

/- An early resolution waits for its submission. -/
def projectReport (event : InvoiceEvent) : InvoiceM (Option String) := do
  let submitted ← find fun db => db.latest event [.reportSubmitted]
  match submitted with
  | none => pure none
  | some submitted =>
    let resolved ← find fun db => db.latest event [.reportResolved]
    match FraudReport.ofEvents submitted resolved with
    | none => pure none
    | some row =>
      overwrite fun db => db.putReport row
      pure none

/- An early completion waits for its proposal. -/
def projectChange (event : InvoiceEvent) : InvoiceM (Option String) := do
  let proposed ← find fun db => db.latest event [.changeProposed]
  match proposed with
  | none => pure none
  | some proposed =>
    let terminal ← find fun db => db.latest event [.changeExecuted, .changeCancelled]
    match TimelockChange.ofEvents proposed terminal with
    | none => pure none
    | some row =>
      overwrite fun db => db.putChange row
      pure none

def project (env : InvoiceEnv) (event : InvoiceEvent) : InvoiceM (Option String) :=
  match event.payload with
  | .issuerScoreUpdated _ => projectScore env event
  | .reportSubmitted _ => projectReport event
  | .reportResolved _ => projectReport event
  | .changeProposed _ => projectChange event
  | .changeExecuted _ => projectChange event
  | .changeCancelled _ => projectChange event
  | .transferBlocked block => do
    overwrite fun db => db.restrict (block.row event)
    pure none

def invoiceTransaction (env : InvoiceEnv) (event : InvoiceEvent) : InvoiceM (Option String) := do
  lockEntity env event
  overwrite fun db => db.record event
  project env event

def InvoiceEventType.name : InvoiceEventType → String
  | .issuerScoreUpdated => "IssuerScoreUpdated"
  | .reportSubmitted => "ReportSubmitted"
  | .reportResolved => "ReportResolved"
  | .changeProposed => "ChangeProposed"
  | .changeExecuted => "ChangeExecuted"
  | .changeCancelled => "ChangeCancelled"
  | .transferBlocked => "TransferBlocked"

def expectedContract (env : InvoiceEnv) : InvoiceEventType → Option String
  | .issuerScoreUpdated => env.ISSUER_REPUTATION_CONTRACT_ID
  | .reportSubmitted => env.INVOICE_FRAUD_CONTRACT_ID
  | .reportResolved => env.INVOICE_FRAUD_CONTRACT_ID
  | .changeProposed => env.INVOICE_TIMELOCK_CONTRACT_ID
  | .changeExecuted => env.INVOICE_TIMELOCK_CONTRACT_ID
  | .changeCancelled => env.INVOICE_TIMELOCK_CONTRACT_ID
  | .transferBlocked => env.INVOICE_TRANSFER_CONTRACT_ID

def checkInvoiceEvent (env : InvoiceEnv)
    (raw : RawInvoiceEvent) : Except InvoiceError InvoiceEvent :=
  match parseInvoiceProtocolEvent env raw with
  | .error e => .error e
  | .ok event =>
    if expectedContract env event.eventType = some event.contractId then
      .ok event
    else .error (.unexpectedContract event.eventType.name)

def processInvoiceProtocolEvent (env : InvoiceEnv)
    (raw : RawInvoiceEvent) : InvoiceM (Option String) :=
  match checkInvoiceEvent env raw with
  | .error e => .raise e
  | .ok event => invoiceTransaction env event

/- The events of batches; a batch repeats none of its own. -/
def delivered (batches : List (List RawInvoiceEvent)) : List RawInvoiceEvent :=
  batches.flatMap PipelineEvent.dedupe

/- The transactions of handlers that share one database. -/
def invoiceHandlers (env : InvoiceEnv) (batches : List (List RawInvoiceEvent)) :
    Isolation InvoiceDb ℤ InvoiceError (Option String) :=
  .start .empty ((delivered batches).map (processInvoiceProtocolEvent env))

end

-- One Chain
----

section

def acceptInvoiceEvent (env : InvoiceEnv) (raw : RawInvoiceEvent) : Option InvoiceEvent :=
  match checkInvoiceEvent env raw with
  | .error _ => none
  | .ok event => some event

def accepted (env : InvoiceEnv) (events : List RawInvoiceEvent) : List InvoiceEvent :=
  events.filterMap (acceptInvoiceEvent env)

/-
  Events with different positions; a transaction has one place
  in the chain, and no two digests collide.
-/
structure OneChain (events : List InvoiceEvent) : Prop where
  positions : DistinctPositions InvoiceEvent.position events
  transactions :
    ∀ event ∈ events, ∀ other ∈ events, event.txHash = other.txHash → event.ledger = other.ledger ∧
      event.transactionIndex = other.transactionIndex
  digests :
    ∀ event ∈ events, ∀ other ∈ events, event.id = other.id → event.identity = other.identity

variable {events : List InvoiceEvent} {event other : InvoiceEvent}

theorem OneChain.eq_of_identity (hChain : OneChain events) (hEvent : event ∈ events)
    (hOther : other ∈ events) (hSame : event.identity = other.identity) :
    event = other := by
  have hHash : event.txHash = other.txHash := congrArg (fun columns => columns.2.1) hSame
  have hIndex : event.eventIndex = other.eventIndex := congrArg (fun columns => columns.2.2) hSame
  rcases hChain.transactions event hEvent other hOther hHash with ⟨hLedger, hTransaction⟩
  apply hChain.positions event hEvent other hOther
  rw [InvoiceEvent.position, InvoiceEvent.position, hLedger, hTransaction, hIndex]

theorem OneChain.eq_of_id (hChain : OneChain events) (hEvent : event ∈ events)
    (hOther : other ∈ events) (hSame : event.id = other.id) : event = other :=
  hChain.eq_of_identity hEvent hOther (hChain.digests event hEvent other hOther hSame)

theorem OneChain.eq_of_recorded (hChain : OneChain events) (hEvent : event ∈ events)
    (hOther : other ∈ events)
    (hSame : (event.id = other.id || event.identity = other.identity) = true) :
    event = other := by
  rcases (Bool.or_eq_true _ _).mp hSame with hId | hIdentity
  · exact hChain.eq_of_id hEvent hOther (of_decide_eq_true hId)
  · exact hChain.eq_of_identity hEvent hOther (of_decide_eq_true hIdentity)

theorem rows_record (db : InvoiceDb) (event : InvoiceEvent) :
    (db.record event).invoiceProtocolEvent.rows =
      if db.hasRecorded event then db.invoiceProtocolEvent.rows
      else db.invoiceProtocolEvent.rows ++ [event] := by
  unfold InvoiceDb.record
  split
  · rfl
  · rename_i hNew
    have hFresh : db.invoiceProtocolEvent.find? (key event) = none := by
      rw [Table.find?_eq_none_iff]
      intro hStored
      rcases List.mem_map.mp hStored with ⟨row, hRow, hKey⟩
      apply hNew
      have hId : row.id = event.id := hKey
      exact List.any_eq_true.mpr ⟨row, hRow, by simp [hId]⟩
    simp [Table.createMany, Table.insert?_of_fresh hFresh, Table.create]

end

-- What an Entity's Lock Protects
----

open Interactive

/- What the transactions of an entity read and write. -/
inductive InvoiceCell where
  | journal (entityKey : String)
  | recorded (event : InvoiceEvent)
  | score (wallet : String)
  | report (invoiceId reportId : ChainId)
  | change (proposalId : ChainId)
  | restriction (event : InvoiceEvent)

def InvoiceCell.entityKey : InvoiceCell → String
  | .journal entityKey => entityKey
  | .recorded event => event.entityKey
  | .score wallet => scoreKey wallet
  | .report invoiceId reportId => reportKey invoiceId reportId
  | .change proposalId => changeKey proposalId
  | .restriction event => event.entityKey

def InvoiceCell.Content : InvoiceCell → Type
  | .journal _ => List InvoiceEvent
  | .recorded _ => Bool
  | .score _ => Option IssuerScore
  | .report _ _ => Option FraudReport
  | .change _ => Option TimelockChange
  | .restriction _ => Option TransferRestrictionEvent

def InvoiceDb.read (db : InvoiceDb) : (cell : InvoiceCell) → cell.Content
  | .journal entityKey => db.eventsOf entityKey
  | .recorded event => db.hasRecorded event
  | .score wallet => db.issuerScore.find? wallet
  | .report invoiceId reportId => db.fraudReport.find? (invoiceId, reportId)
  | .change proposalId => db.timelockChange.find? proposalId
  | .restriction event => db.transferRestrictionEvent.find? event.id

/- The cells of the events of one chain. -/
def InvoiceCell.Known (events : List InvoiceEvent) : InvoiceCell → Prop
  | .recorded event => event ∈ events
  | .restriction event => event ∈ events
  | _ => True

/- Stores that agree on the entities of one lock. -/
def AgreeOn (env : InvoiceEnv) (events : List InvoiceEvent) (k : ℤ) (db db' : InvoiceDb) : Prop :=
  ∀ cell : InvoiceCell, cell.Known events → env.hashtext cell.entityKey = k →
    db.read cell = db'.read cell

theorem agreeOn_equivalence (env : InvoiceEnv) (events : List InvoiceEvent) (k : ℤ) :
    Equivalence (AgreeOn env events k) where
  refl := fun _ _ _ _ => rfl
  symm := fun h cell hKnown hKey => (h cell hKnown hKey).symm
  trans := fun h h' cell hKnown hKey => (h cell hKnown hKey).trans (h' cell hKnown hKey)

variable {env : InvoiceEnv} {events : List InvoiceEvent} {event : InvoiceEvent}
variable {f : InvoiceDb → InvoiceDb}

/-
  A write is confined if it leaves other entities alone and does
  the same wherever its own is the same.
-/
theorem confined_overwrite {entityKey : String}
    (hFrame : ∀ db (cell : InvoiceCell), cell.Known events → cell.entityKey ≠ entityKey →
      (f db).read cell = db.read cell)
    (hSame : ∀ db db', (∀ cell : InvoiceCell, cell.Known events → cell.entityKey = entityKey →
      db.read cell = db'.read cell) → ∀ cell : InvoiceCell, cell.Known events →
      cell.entityKey = entityKey → (f db).read cell = (f db').read cell) :
    (overwrite f).Confined (AgreeOn env events) (env.hashtext entityKey) := by
  apply confined_update
  · intro db db' hAgree cell hKnown hKey
    by_cases hOwn : cell.entityKey = entityKey
    · apply hSame db db' _ cell hKnown hOwn
      intro own hOwnKnown hOwnKey
      exact hAgree own hOwnKnown (congrArg _ hOwnKey)
    · rw [hFrame db cell hKnown hOwn, hFrame db' cell hKnown hOwn]
      exact hAgree cell hKnown hKey
  · intro k' db hNe cell hKnown hKey
    refine (hFrame db cell hKnown ?_).symm
    rintro rfl
    exact hNe hKey.symm

theorem confined_cell (own : InvoiceCell) (content : own.Content)
    (hOther : ∀ db (cell : InvoiceCell), cell ≠ own → (f db).read cell = db.read cell)
    (hOwn : ∀ db, (f db).read own = content) :
    (overwrite f).Confined (AgreeOn env events) (env.hashtext own.entityKey) := by
  apply confined_overwrite
  · intro db cell _ hKey
    apply hOther
    rintro rfl
    exact hKey rfl
  · intro db db' hSame cell hKnown hKey
    by_cases hCell : cell = own
    · subst hCell
      rw [hOwn, hOwn]
    · rw [hOther db cell hCell, hOther db' cell hCell]
      exact hSame cell hKnown hKey

theorem confined_putScore (row : IssuerScore) :
    (overwrite fun db => db.putScore row).Confined (AgreeOn env events)
      (env.hashtext (scoreKey row.wallet)) := by
  apply confined_cell (.score row.wallet) (some row)
  · intro db cell hOther
    cases cell with
    | score wallet =>
      refine (Table.find?_put _ _ _).trans (if_neg ?_)
      rintro rfl
      exact hOther rfl
    | _ => rfl
  · intro db
    exact (Table.find?_put _ _ _).trans (if_pos rfl)

theorem confined_putReport (row : FraudReport) :
    (overwrite fun db => db.putReport row).Confined (AgreeOn env events)
      (env.hashtext (reportKey row.invoiceId row.reportId)) := by
  apply confined_cell (.report row.invoiceId row.reportId) (some row)
  · intro db cell hOther
    cases cell with
    | report invoiceId reportId =>
      refine (Table.find?_put _ _ _).trans (if_neg ?_)
      intro hSame
      cases hSame
      exact hOther rfl
    | _ => rfl
  · intro db
    exact (Table.find?_put _ _ _).trans (if_pos rfl)

theorem confined_putChange (row : TimelockChange) :
    (overwrite fun db => db.putChange row).Confined (AgreeOn env events)
      (env.hashtext (changeKey row.proposalId)) := by
  apply confined_cell (.change row.proposalId) (some row)
  · intro db cell hOther
    cases cell with
    | change proposalId =>
      refine (Table.find?_put _ _ _).trans (if_neg ?_)
      rintro rfl
      exact hOther rfl
    | _ => rfl
  · intro db
    exact (Table.find?_put _ _ _).trans (if_pos rfl)

theorem hasRecorded_record (db : InvoiceDb) (event other : InvoiceEvent) :
    (db.record event).hasRecorded other = (db.hasRecorded other || (!db.hasRecorded event &&
      (event.id = other.id || event.identity = other.identity))) := by
  unfold InvoiceDb.hasRecorded
  rw [rows_record]
  unfold InvoiceDb.hasRecorded
  split
  · rename_i hStored
    rw [hStored]
    simp
  · rename_i hNew
    rw [Bool.not_eq_true] at hNew
    rw [hNew, List.any_append]
    simp

theorem eventsOf_record (db : InvoiceDb) (event : InvoiceEvent) (entityKey : String) :
    (db.record event).eventsOf entityKey =
      if db.hasRecorded event ∨ event.entityKey ≠ entityKey then
        db.eventsOf entityKey
      else db.eventsOf entityKey ++ [event] := by
  unfold InvoiceDb.eventsOf
  rw [rows_record]
  by_cases hStored : db.hasRecorded event
  · simp [hStored]
  · by_cases hKey : event.entityKey = entityKey
    · simp [hStored, hKey, List.filter_append]
    · simp [hStored, hKey, List.filter_append]

theorem confined_record (hChain : OneChain events) (hEvent : event ∈ events) :
    (overwrite fun db => db.record event).Confined
      (AgreeOn env events) (env.hashtext event.entityKey) := by
  have hRest : ∀ (db : InvoiceDb) (cell : InvoiceCell), (∀ entityKey, cell ≠ .journal entityKey) →
      (∀ other, cell ≠ .recorded other) → (db.record event).read cell = db.read cell := by
    intro db cell hJournal hRecorded
    unfold InvoiceDb.record
    split
    · rfl
    · cases cell with
      | journal entityKey => exact absurd rfl (hJournal entityKey)
      | recorded other => exact absurd rfl (hRecorded other)
      | _ => rfl
  apply confined_overwrite
  · intro db cell hKnown hOther
    cases cell with
    | journal entityKey =>
      exact (eventsOf_record db event entityKey).trans (if_pos (.inr (Ne.symm hOther)))
    | recorded other =>
      refine (hasRecorded_record db event other).trans ?_
      have hDifferent : (event.id = other.id || event.identity = other.identity : Bool) =
          false := by
        by_contra hSame
        apply hOther
        rw [hChain.eq_of_recorded hEvent hKnown (Bool.eq_true_of_not_eq_false hSame)]
        rfl
      rw [hDifferent]
      simp [InvoiceDb.read]
    | _ => exact hRest db _ (by simp) (by simp)
  · intro db db' hSame cell hKnown hOwn
    have hRecorded : db.hasRecorded event = db'.hasRecorded event :=
      hSame (.recorded event) hEvent rfl
    cases cell with
    | journal entityKey =>
      have hRead := hSame _ hKnown hOwn
      simp only [InvoiceDb.read, eventsOf_record] at hRead ⊢
      rw [hRead, hRecorded]
    | recorded other =>
      have hRead := hSame _ hKnown hOwn
      simp only [InvoiceDb.read, hasRecorded_record] at hRead ⊢
      rw [hRead, hRecorded]
    | _ =>
      rw [hRest db _ (by simp) (by simp), hRest db' _ (by simp) (by simp)]
      exact hSame _ hKnown hOwn

theorem confined_restrict (hChain : OneChain events) (hEvent : event ∈ events)
    (block : TransferBlock) :
    (overwrite fun db => db.restrict (block.row event)).Confined
      (AgreeOn env events) (env.hashtext event.entityKey) := by
  apply confined_overwrite
  · intro db cell hKnown hOther
    cases cell with
    | restriction other =>
      refine (Table.find?_createMany_one _ _ _).trans (if_neg ?_)
      intro hId
      apply hOther
      rw [hChain.eq_of_id hKnown hEvent hId]
      rfl
    | _ => rfl
  · intro db db' hSame cell hKnown hOwn
    cases cell with
    | restriction other =>
      have hRead := hSame _ hKnown hOwn
      simp only [InvoiceDb.read, InvoiceDb.restrict, Table.find?_createMany_one] at hRead ⊢
      rw [hRead]
    | _ => exact hSame _ hKnown hOwn

variable {db : InvoiceDb}

theorem of_latest {eventTypes : List InvoiceEventType} {row : InvoiceEvent}
    (hLatest : db.latest event eventTypes = some row) :
    row ∈ db.invoiceProtocolEvent.rows ∧ row.entityKey = event.entityKey := by
  have hMem := List.mem_of_mem_filter (mem_of_latestOf hLatest)
  rcases List.mem_filter.mp hMem with ⟨hRow, hKey⟩
  exact ⟨hRow, of_decide_eq_true hKey⟩

theorem scoreKey_ofEvent {row : IssuerScore} (hRow : IssuerScore.ofEvent event = some row) :
    scoreKey row.wallet = event.entityKey := by
  unfold IssuerScore.ofEvent at hRow
  split at hRow
  · rename_i update hPayload
    cases hRow
    rw [InvoiceEvent.entityKey, hPayload]
    rfl
  · cases hRow

theorem reportKey_ofEvents {resolved : Option InvoiceEvent} {row : FraudReport}
    (hRow : FraudReport.ofEvents event resolved = some row) :
    reportKey row.invoiceId row.reportId = event.entityKey := by
  unfold FraudReport.ofEvents at hRow
  split at hRow
  · rename_i report hPayload
    cases hRow
    rw [InvoiceEvent.entityKey, hPayload]
    rfl
  · cases hRow

theorem changeKey_ofEvents {terminal : Option InvoiceEvent} {row : TimelockChange}
    (hRow : TimelockChange.ofEvents event terminal = some row) :
    changeKey row.proposalId = event.entityKey := by
  unfold TimelockChange.ofEvents at hRow
  split at hRow
  · rename_i proposal hPayload
    cases hRow
    rw [InvoiceEvent.entityKey, hPayload]
    rfl
  · cases hRow

/- The journal of an entity is protected by its lock. -/
theorem latest_eq_of_agree {db' : InvoiceDb}
    (hAgree : AgreeOn env events (env.hashtext event.entityKey) db db')
    (eventTypes : List InvoiceEventType) :
    db.latest event eventTypes = db'.latest event eventTypes := by
  have hJournal : db.eventsOf event.entityKey = db'.eventsOf event.entityKey :=
    hAgree (.journal event.entityKey) trivial rfl
  rw [InvoiceDb.latest, InvoiceDb.latest, hJournal]

theorem confined_projectScore (env : InvoiceEnv) (events : List InvoiceEvent)
    (event : InvoiceEvent) :
    (projectScore env event).Confined (AgreeOn env events) (env.hashtext event.entityKey) := by
  apply confined_find_bind (agreeOn_equivalence env events)
  · intro db db' hAgree
    exact latest_eq_of_agree hAgree _
  intro db
  cases hRow : (db.latest event [.issuerScoreUpdated]).bind IssuerScore.ofEvent with
  | none => trivial
  | some row =>
    rcases Option.bind_eq_some_iff.mp hRow with ⟨latest, hLatest, hOf⟩
    have hKey : scoreKey row.wallet = event.entityKey :=
      (scoreKey_ofEvent hOf).trans (of_latest hLatest).2
    rw [← hKey]
    apply confined_find_bind (agreeOn_equivalence env events)
    · intro s s' hAgree
      exact hAgree (.score row.wallet) trivial rfl
    intro s
    exact (confined_putScore row).bind fun _ => trivial

theorem confined_projectReport (env : InvoiceEnv) (events : List InvoiceEvent)
    (event : InvoiceEvent) :
    (projectReport event).Confined (AgreeOn env events) (env.hashtext event.entityKey) := by
  apply confined_find_bind (agreeOn_equivalence env events)
  · intro db db' hAgree
    exact latest_eq_of_agree hAgree _
  intro db
  cases hLatest : db.latest event [.reportSubmitted] with
  | none => trivial
  | some submitted =>
    apply confined_find_bind (agreeOn_equivalence env events)
    · intro s s' hAgree
      exact latest_eq_of_agree hAgree _
    intro s
    cases hRow : FraudReport.ofEvents submitted (s.latest event [.reportResolved]) with
    | none => trivial
    | some row =>
      have hKey : reportKey row.invoiceId row.reportId =
          event.entityKey :=
        (reportKey_ofEvents hRow).trans (of_latest hLatest).2
      rw [← hKey]
      exact (confined_putReport row).bind fun _ => trivial

theorem confined_projectChange (env : InvoiceEnv) (events : List InvoiceEvent)
    (event : InvoiceEvent) :
    (projectChange event).Confined (AgreeOn env events) (env.hashtext event.entityKey) := by
  apply confined_find_bind (agreeOn_equivalence env events)
  · intro db db' hAgree
    exact latest_eq_of_agree hAgree _
  intro db
  cases hLatest : db.latest event [.changeProposed] with
  | none => trivial
  | some proposed =>
    apply confined_find_bind (agreeOn_equivalence env events)
    · intro s s' hAgree
      exact latest_eq_of_agree hAgree _
    intro s
    cases hRow : TimelockChange.ofEvents proposed
      (s.latest event [.changeExecuted, .changeCancelled]) with
    | none => trivial
    | some row =>
      have hKey : changeKey row.proposalId = event.entityKey :=
        (changeKey_ofEvents hRow).trans (of_latest hLatest).2
      rw [← hKey]
      exact (confined_putChange row).bind fun _ => trivial

/- Every transaction locks its entity before all else. -/
theorem locked_process {raws : List RawInvoiceEvent} {raw : RawInvoiceEvent}
    (hChain : OneChain (accepted env raws)) (hRaw : raw ∈ raws) :
    (processInvoiceProtocolEvent env raw).Locked (AgreeOn env (accepted env raws)) := by
  unfold processInvoiceProtocolEvent
  cases hCheck : checkInvoiceEvent env raw with
  | error e => exact .raise e
  | ok event =>
    have hEvent : event ∈ accepted env raws := by
      refine List.mem_filterMap.mpr ⟨raw, hRaw, ?_⟩
      rw [acceptInvoiceEvent, hCheck]
    refine Locked.lock (k := env.hashtext event.entityKey)
      ((confined_record hChain hEvent).bind fun _ => ?_)
    unfold project
    split
    · exact confined_projectScore env _ event
    · exact confined_projectReport env _ event
    · exact confined_projectReport env _ event
    · exact confined_projectChange env _ event
    · exact confined_projectChange env _ event
    · exact confined_projectChange env _ event
    · rename_i block hPayload
      exact (confined_restrict hChain hEvent block).bind fun _ => trivial

end Indexer

end AccessLayer
