import AccessLayer.Indexer.NewestUpdates
import Mathlib

/-
  The co-creators of a key
  (`src/modules/indexer/co-creator-indexer.service.ts`,
  `prisma/schema/key-collaboration.prisma`).

  Each query is one statement.  Times, caches and logs of the
  process are left out.

  Main declaration: `co_creator_shows_latest`
-/

-- Events
----

namespace AccessLayer

namespace Indexer

open Transactional Program

section

structure CoCreatorFields where
  creator_id : Option RawField
  keyId : Option RawField
  key_id : Option RawField
  creator : Option RawField
  coCreator : Option RawField
  co_creator : Option RawField
  co_creator_address : Option RawField
  wallet : Option RawField
  splitBps : Option RawField
  split_bps : Option RawField
  shareBps : Option RawField
  share_bps : Option RawField
  role : Option RawField
  deriving DecidableEq

abbrev CoCreatorChainEvent := PipelineEvent CoCreatorFields

def coCreatorAddedEventTypes : List String :=
  ["CO_CREATOR_ADDED", "CoCreatorAdded", "CO_CREATOR_SET", "CoCreatorSet", "co_set"]

def coCreatorRemovedEventTypes : List String := ["CO_CREATOR_REMOVED", "CoCreatorRemoved", "cc_rm"]

def coCreatorIndexerDlqJobType : String := "CO_CREATOR"

def isCoCreatorEvent (event : CoCreatorChainEvent) : Bool :=
  event.eventType ∈ coCreatorAddedEventTypes ++ coCreatorRemovedEventTypes

/- A text that is not blank, trimmed. -/
def RawField.nonBlank : RawField → Option String
  | .text value => textField (some value)
  | _ => none

/- The first field that holds such a text. -/
def readStringField (fields : List (Option RawField)) : Option String :=
  fields.findSome? fun field => field.bind RawField.nonBlank

/- A field that is there, whatever it holds. -/
def firstPresent (fields : List (Option RawField)) : Option RawField :=
  fields.findSome? fun field => field

/- `BigInt` reads a blank text as zero. -/
def parseUint32 (field : RawField) : Option ℤ :=
  let parsed :=
    match field with
    | .text value => Governance.parseBigInt value
    | field => parseBigInt field
  parsed.filter fun value => 0 ≤ value ∧ value ≤ 0xffffffff

/- A row of the roster. -/
structure CoCreatorKey where
  keyId : String
  wallet : String
  deriving DecidableEq

/- An event that has passed its checks. -/
structure ParsedCoCreatorEvent extends CoCreatorKey where
  added : Bool
  splitBps : Option ℤ
  role : String
  ledger : ℤ
  eventIndex : Nat
  txHash : String
  deriving DecidableEq

/- Only an event that adds a co-creator needs a split. -/
def parseSplitBps (event : CoCreatorChainEvent) : Except String (Option ℤ) :=
  if event.eventType ∈ coCreatorAddedEventTypes then
    match (firstPresent [event.payload.splitBps, event.payload.split_bps,
      event.payload.shareBps, event.payload.share_bps]).bind parseUint32 with
    | none => .error "missing or invalid splitBps"
    | some splitBps =>
      if 10000 < splitBps then
        .error "splitBps exceeds 10000"
      else .ok (some splitBps)
  else .ok none

def parseCoCreatorEvent (event : CoCreatorChainEvent) : Except String ParsedCoCreatorEvent :=
  match readStringField [event.creatorId.map .text, event.payload.creator_id,
    event.payload.keyId, event.payload.key_id, event.payload.creator] with
  | none => .error "missing or invalid key/creator id"
  | some keyId =>
    match readStringField [event.payload.coCreator, event.payload.co_creator,
      event.payload.co_creator_address, event.payload.wallet] with
    | none => .error "missing or invalid co-creator wallet"
    | some wallet =>
      match parseSplitBps event with
      | .error reason => .error reason
      | .ok splitBps =>
        match event.ledger.filter (0 ≤ ·) with
        | none => .error "missing or invalid ledger"
        | some ledger =>
          if event.txHash = "" then
            .error "missing or invalid txHash/eventIndex"
          else
            .ok {
              keyId
              wallet
              added :=
                event.eventType ∈
                  coCreatorAddedEventTypes
              splitBps
              role := (readStringField [event.payload.role]).getD "co_creator"
              ledger
              eventIndex := event.eventIndex
              txHash := event.txHash }

-- Rosters
----

/- A row that no event has written has no ledger. -/
structure KeyCoCreator extends CoCreatorKey where
  role : String
  shareBps : Option ℤ
  active : Bool
  ledger : Option ℤ
  eventIndex : Option Nat
  txHash : Option String

instance : Keyed KeyCoCreator CoCreatorKey where
  key row := row.toCoCreatorKey

structure CoCreatorDb where
  keyCoCreator : Table KeyCoCreator
  indexerDLQ : List (IndexerDLQ CoCreatorFields)

def CoCreatorDb.empty : CoCreatorDb where
  keyCoCreator := .empty
  indexerDLQ := []

abbrev CoCreatorM := Program CoCreatorDb IndexerError

namespace ParsedCoCreatorEvent

variable (parsed : ParsedCoCreatorEvent)

def position : EventPosition := toLex (parsed.ledger, parsed.eventIndex)

/- A comparison with a missing value does not hold. -/
def newerThanStored (row : KeyCoCreator) : Bool :=
  key row = parsed.toCoCreatorKey ∧ ((∃ ledger ∈ row.ledger, ledger < parsed.ledger) ∨
    row.ledger = some parsed.ledger ∧ (∃ eventIndex ∈ row.eventIndex,
      eventIndex < parsed.eventIndex) ∨ row.ledger = none)

/- A removal leaves the role and the split as they are. -/
def overwrite (row : KeyCoCreator) : KeyCoCreator :=
  if parsed.added then
    { row with
      active := true
      role := parsed.role
      shareBps := parsed.splitBps
      ledger := some parsed.ledger
      eventIndex := some parsed.eventIndex
      txHash := some parsed.txHash }
  else
    { row with
      active := false
      ledger := some parsed.ledger
      eventIndex := some parsed.eventIndex
      txHash := some parsed.txHash }

/- The columns of a row by default, before an event. -/
def blank : KeyCoCreator where
  toCoCreatorKey := parsed.toCoCreatorKey
  role := "co_creator"
  shareBps := none
  active := true
  ledger := none
  eventIndex := none
  txHash := none

def row : KeyCoCreator := parsed.overwrite parsed.blank

theorem key_overwrite (row : KeyCoCreator) : key (parsed.overwrite row) = key row := by
  unfold overwrite
  split <;> rfl

end ParsedCoCreatorEvent

/- Answers the number of rows that were older. -/
def overwriteOlderCoCreator (parsed : ParsedCoCreatorEvent) (db : CoCreatorDb) :
    Except IndexerError (Nat × CoCreatorDb) :=
  .ok (db.keyCoCreator.rows.countP parsed.newerThanStored, { db with
        keyCoCreator :=
          db.keyCoCreator.updateMany parsed.newerThanStored parsed.overwrite parsed.key_overwrite })

def createCoCreator (parsed : ParsedCoCreatorEvent) (db : CoCreatorDb) :
    Except IndexerError (Unit × CoCreatorDb) :=
  match db.keyCoCreator.insert? parsed.row with
  | none => .error .uniqueViolation
  | some keyCoCreator => .ok ((), { db with keyCoCreator })

/- Answers whether the row changed. -/
def applyCoCreatorEvent (parsed : ParsedCoCreatorEvent) : CoCreatorM Bool :=
  overwriteOrCreate .database .uniqueViolation
    (overwriteOlderCoCreator parsed) (createCoCreator parsed)

def rejectCoCreatorEvent (event : CoCreatorChainEvent) (reason : String) (db : CoCreatorDb) :
    Except IndexerError (Bool × CoCreatorDb) :=
  .ok (false, { db with
        indexerDLQ := moveToDLQ coCreatorIndexerDlqJobType event reason db.indexerDLQ })

def processCoCreatorEvent : CoCreatorChainEvent → CoCreatorM Bool :=
  processParsed parseCoCreatorEvent rejectCoCreatorEvent applyCoCreatorEvent

def processCoCreatorEvents (events : List CoCreatorChainEvent) : CoCreatorM Unit :=
  forEach (handleOwn isCoCreatorEvent processCoCreatorEvent) (PipelineEvent.dedupe events)

/- The event that a valid raw event stands for. -/
def coCreatorEventOf : CoCreatorChainEvent → Option ParsedCoCreatorEvent :=
  carriedUpdate isCoCreatorEvent parseCoCreatorEvent

/- Writers that deliver some batches side by side. -/
def coCreatorWriters (db : CoCreatorDb) (batches : List (List CoCreatorChainEvent)) :
    Pool CoCreatorDb IndexerError Unit := Pool.start db (batches.map processCoCreatorEvents)

/- The events of one row. -/
def coCreatorEventsOf (events : List CoCreatorChainEvent)
    (k : CoCreatorKey) : List ParsedCoCreatorEvent :=
  (events.filterMap coCreatorEventOf).filter (·.toCoCreatorKey = k)

/- A row shows an event; split and role count while active. -/
structure ParsedCoCreatorEvent.Shown (parsed : ParsedCoCreatorEvent)
    (row : KeyCoCreator) : Prop where
  active : row.active = parsed.added
  shareBps : row.active = true → row.shareBps = parsed.splitBps
  role : row.active = true → row.role = parsed.role

end

-- Rows and the Latest Event
----

/-
  The ledger and the index of a row; without an index a row is
  newer than all events of its ledger.
-/
def KeyCoCreator.stored (row : KeyCoCreator) : WithBot (ℤ ×ₗ WithTop Nat) :=
  row.ledger.elim ⊥ fun ledger => ↑(toLex (ledger, row.eventIndex.elim ⊤ WithTop.some))

namespace ParsedCoCreatorEvent

variable (parsed : ParsedCoCreatorEvent)

def storedPosition : WithBot (ℤ ×ₗ WithTop Nat) :=
  ↑(toLex (parsed.ledger, (parsed.eventIndex : WithTop Nat)))

theorem newerThanStored_iff (row : KeyCoCreator) :
    parsed.newerThanStored row = true ↔ key row = parsed.toCoCreatorKey ∧
      row.stored < parsed.storedPosition := by
  unfold newerThanStored KeyCoCreator.stored storedPosition
  rw [decide_eq_true_iff]
  apply and_congr_right
  intro _
  cases row.ledger with
  | none => simp
  | some ledger =>
    rw [Option.elim_some, WithBot.coe_lt_coe, Prod.Lex.toLex_lt_toLex]
    cases row.eventIndex with
    | none => simp
    | some eventIndex => simp

theorem stored_overwrite (row : KeyCoCreator) :
    (parsed.overwrite row).stored = parsed.storedPosition := by
  unfold overwrite
  split <;> rfl

theorem position_le_of_storedPosition_le (other : ParsedCoCreatorEvent)
    (hLe : parsed.storedPosition ≤ other.storedPosition) :
    parsed.position ≤ other.position := by
  unfold storedPosition at hLe
  unfold position
  rw [WithBot.coe_le_coe, Prod.Lex.toLex_le_toLex] at hLe
  rw [Prod.Lex.toLex_le_toLex]
  simpa using hLe

theorem shown_overwrite (row : KeyCoCreator) : parsed.Shown (parsed.overwrite row) := by
  unfold overwrite
  split
  · rename_i hAdded
    exact ⟨hAdded.symm, fun _ => rfl, fun _ => rfl⟩
  · rename_i hRemoved
    exact ⟨(Bool.eq_false_of_not_eq_true hRemoved).symm,
      fun hActive => (Bool.false_ne_true hActive).elim,
      fun hActive => (Bool.false_ne_true hActive).elim⟩

end ParsedCoCreatorEvent

/- The roster is written by newer events only. -/
def coCreatorRows :
    NewestWins CoCreatorDb IndexerError ParsedCoCreatorEvent
      KeyCoCreator CoCreatorKey (WithBot (ℤ ×ₗ WithTop Nat)) where
  table := CoCreatorDb.keyCoCreator
  withTable db keyCoCreator := { db with keyCoCreator }
  fault := .database
  taken := .uniqueViolation
  target := ParsedCoCreatorEvent.toCoCreatorKey
  position := ParsedCoCreatorEvent.storedPosition
  stored := KeyCoCreator.stored
  newer := ParsedCoCreatorEvent.newerThanStored
  overwrite := ParsedCoCreatorEvent.overwrite
  row := ParsedCoCreatorEvent.row
  table_withTable _ _ := rfl
  fault_ne_taken := IndexerError.database_ne_uniqueViolation
  newer_iff := ParsedCoCreatorEvent.newerThanStored_iff
  key_overwrite := ParsedCoCreatorEvent.key_overwrite
  key_row parsed := parsed.key_overwrite parsed.blank
  stored_overwrite := ParsedCoCreatorEvent.stored_overwrite
  stored_row parsed := parsed.stored_overwrite parsed.blank

theorem createCoCreator_eq (parsed : ParsedCoCreatorEvent) :
    createCoCreator parsed = coCreatorRows.create parsed := by
  funext db
  unfold createCoCreator
  cases hInsert : db.keyCoCreator.insert? parsed.row with
  | none => exact (NewestWins.create_taken (W := coCreatorRows) hInsert).symm
  | some rows => exact (NewestWins.create_new (W := coCreatorRows) hInsert).symm

theorem applyCoCreatorEvent_eq : applyCoCreatorEvent = coCreatorRows.apply := by
  funext parsed
  unfold applyCoCreatorEvent
  rw [createCoCreator_eq]
  rfl

/-
  In every run that has delivered the events, a row shows the
  latest of its events, where no event had written it before.
-/
theorem co_creator_shows_latest {events : List CoCreatorChainEvent} {db : CoCreatorDb}
    {batches : List (List CoCreatorChainEvent)} {labels : List FaultMove}
    {pool : Pool CoCreatorDb IndexerError Unit} {k : CoCreatorKey} {latest : ParsedCoCreatorEvent}
    (hStart : ∀ row ∈ db.keyCoCreator.rows, row.ledger = none)
    (hRun : RunsTo Pool.attempt (fun _ _ => True) (coCreatorWriters db batches) labels pool)
    (hDelivered : Delivered events batches pool)
    (hDistinct : DistinctPositions ParsedCoCreatorEvent.position (coCreatorEventsOf events k))
    (hLatest : latestOf ParsedCoCreatorEvent.position (coCreatorEventsOf events k) = some latest) :
    ∃ row, pool.store.keyCoCreator.find? k = some row ∧ latest.Shown row := by
  unfold coCreatorWriters processCoCreatorEvents processCoCreatorEvent at hRun
  rw [applyCoCreatorEvent_eq] at hRun
  refine row_of_latest (W := coCreatorRows) ParsedCoCreatorEvent.position_le_of_storedPosition_le
    hDistinct hLatest ?_
  intro update hUpdate
  refine exists_newest_of_delivered (W := coCreatorRows) rfl ?_
    (fun parsed => parsed.shown_overwrite parsed.blank)
    ParsedCoCreatorEvent.shown_overwrite ?_ hRun hDelivered hUpdate
  · intro event reason s a t hOk
    cases hOk
    rfl
  · intro row hRow
    left
    intro parsed
    have hNone := hStart row hRow
    change row.stored < parsed.storedPosition
    unfold KeyCoCreator.stored
    rw [hNone]
    exact WithBot.bot_lt_coe _

end Indexer

end AccessLayer
