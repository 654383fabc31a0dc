import AccessLayer.Indexer.ChainEvent

/-
  Ingested ledgers and their events
  (`src/modules/indexer/reorg-guard.service.ts`).

  Each ledger is recorded by a checkpoint with its own hash and
  that of its parent, each event by a row with the hash of its
  ledger.  Times of a row's creation and completion are left
  out.

  Main declarations: `recordLedgerIngestion`, `findForkPoint`
-/

-- Chain Tables
----

namespace AccessLayer

namespace Indexer

open Transactional

section

structure LedgerHeader where
  sequence : Int
  hash : String
  previousLedgerHash : Option String
  deriving DecidableEq

inductive IngestedEventStatus where
  | confirmed
  | reorged
  deriving DecidableEq

structure IngestedEvent where
  ledgerSequence : Int
  ledgerHash : String
  txHash : String
  eventIndex : Nat
  eventType : String
  actor : Option String
  creatorId : Option String
  amount : Option ℚ
  priceStroops : Option ℚ
  tradeAt : Option Int
  status : IngestedEventStatus
  reorgedAt : Option Int

/- Old checkpoints carry no hash. -/
structure LedgerCheckpoint where
  ledger : Int
  ledgerHash : Option String
  previousLedgerHash : Option String
  lastProcessedEventIndex : Nat
  batchHash : String
  deriving DecidableEq

instance : Keyed IngestedEvent (String × Nat) where
  key row := (row.txHash, row.eventIndex)

instance : Keyed LedgerCheckpoint Int where
  key row := row.ledger

structure ChainDb where
  ingestedEvent : Table IngestedEvent
  ledgerCheckpoint : Table LedgerCheckpoint

def ChainDb.empty : ChainDb where
  ingestedEvent := .empty
  ledgerCheckpoint := .empty

def ChainDb.checkpoint? (chain : ChainDb) (ledger : Int) : Option LedgerCheckpoint :=
  chain.ledgerCheckpoint.find? ledger

/- The hash stored for a ledger. -/
def ChainDb.hashOf (chain : ChainDb) (ledger : Int) : Option String :=
  (chain.checkpoint? ledger).bind LedgerCheckpoint.ledgerHash

-- Recording a Ledger
----

/- An event that names no ledger belongs to its header's. -/
def toIngestedEventFields (event : IndexerChainEvent) (header : LedgerHeader) : IngestedEvent where
  ledgerSequence := event.ledger.getD header.sequence
  ledgerHash := header.hash
  txHash := event.txHash
  eventIndex := event.eventIndex
  eventType := event.eventType
  actor := event.actor
  creatorId := event.creatorId
  amount := event.amount
  priceStroops := event.price
  tradeAt := event.tradeAt
  status := .confirmed
  reorgedAt := none

/- The fields of a stored row that is ingested again. -/
def IngestedEvent.ingestedAs (fields row : IngestedEvent) : IngestedEvent :=
  { fields with
    txHash := row.txHash
    eventIndex := row.eventIndex }

theorem key_ingestedAs (fields row : IngestedEvent) : key (fields.ingestedAs row) = key row := rfl

def upsertEvent (header : LedgerHeader) (table : Table IngestedEvent)
    (event : IndexerChainEvent) : Table IngestedEvent :=
  table.upsert (toIngestedEventFields event header) (toIngestedEventFields event header).ingestedAs
    (key_ingestedAs (toIngestedEventFields event header))

/- The SHA-256 digest of the identifiers in order. -/
def computeBatchHash (sha256 : String → String) (eventIds : List String) : String :=
  sha256 ("\n".intercalate (eventIds.insertionSort (· ≤ ·)))

def checkpointOf (sha256 : String → String) (header : LedgerHeader)
    (uniqueEvents : List IndexerChainEvent) :
    LedgerCheckpoint where
  ledger := header.sequence
  ledgerHash := some header.hash
  previousLedgerHash := header.previousLedgerHash
  lastProcessedEventIndex := (uniqueEvents.map IndexerChainEvent.eventIndex).foldl max 0
  batchHash := computeBatchHash sha256 (uniqueEvents.map getChainEventId)

/- The fields of a stored checkpoint that is written again. -/
def LedgerCheckpoint.replacedBy (checkpoint row : LedgerCheckpoint) : LedgerCheckpoint :=
  { checkpoint with ledger := row.ledger }

theorem key_replacedBy (checkpoint row : LedgerCheckpoint) :
    key (checkpoint.replacedBy row) = key row := rfl

/- One transaction; recording a ledger again changes nothing. -/
def recordLedgerIngestion (sha256 : String → String) (header : LedgerHeader)
    (events : List IndexerChainEvent) (chain : ChainDb) : ChainDb :=
  let uniqueEvents := dedupeChainEvents events
  let checkpoint := checkpointOf sha256 header uniqueEvents
  { ingestedEvent :=
      uniqueEvents.foldl (upsertEvent header)
        chain.ingestedEvent
    ledgerCheckpoint :=
      chain.ledgerCheckpoint.upsert checkpoint checkpoint.replacedBy (key_replacedBy checkpoint) }

section

variable {sha256 : String → String} {chain : ChainDb} {header : LedgerHeader}
variable {events : List IndexerChainEvent}

theorem checkpoint?_record (n : Int) :
    (recordLedgerIngestion sha256 header events chain).checkpoint? n =
      if n = header.sequence then
        some (checkpointOf sha256 header (dedupeChainEvents events))
      else chain.checkpoint? n := by
  have hKey : key (checkpointOf sha256 header (dedupeChainEvents events)) = header.sequence := rfl
  unfold recordLedgerIngestion ChainDb.checkpoint?
  rw [Table.find?_upsert, hKey]
  by_cases hSame : n = header.sequence
  · rw [if_pos hSame, if_pos hSame]
    congr 1
    cases hRow : chain.ledgerCheckpoint.find? n with
    | none => rfl
    | some row =>
      have hKey : row.ledger = header.sequence := (Table.key_of_find? hRow).trans hSame
      simp [LedgerCheckpoint.replacedBy, hKey, checkpointOf]
  · rw [if_neg hSame, if_neg hSame]

theorem hashOf_record :
    (recordLedgerIngestion sha256 header events chain).hashOf
      header.sequence = some header.hash := by
  unfold ChainDb.hashOf
  rw [checkpoint?_record, if_pos rfl]
  rfl

end

end

-- Fork Points
----

def MAX_FORK_WALKBACK_LEDGERS : Nat := 1000

/- The checkpoints below a ledger, the newest first. -/
def storedBelow (chain : ChainDb) (sequence : Int) : List LedgerCheckpoint :=
  ((chain.ledgerCheckpoint.rows.filter fun row =>
    row.ledger < sequence).insertionSort fun a b =>
      b.ledger ≤ a.ledger).take MAX_FORK_WALKBACK_LEDGERS

/- The hash that the incoming chain reports for a ledger. -/
def incomingHash (header : LedgerHeader) (fetchHeader : Option (Int → Option LedgerHeader))
    (sequence : Int) : Option String :=
  if sequence = header.sequence - 1 then
    header.previousLedgerHash
  else
    (fetchHeader.bind fun fetch => fetch sequence).map LedgerHeader.hash

/- The first ledger that agrees, or whose hash is not known. -/
def walkBack (header : LedgerHeader) (fetchHeader : Option (Int → Option LedgerHeader))
    (oldestStored : Int) : List LedgerCheckpoint → Int
  | [] => oldestStored - 1
  | checkpoint :: rest =>
    match incomingHash header fetchHeader checkpoint.ledger with
    | none => checkpoint.ledger
    | some hash =>
      if checkpoint.ledgerHash = some hash then
        checkpoint.ledger
      else walkBack header fetchHeader oldestStored rest

def findForkPoint (header : LedgerHeader) (fetchHeader : Option (Int → Option LedgerHeader))
    (chain : ChainDb) : Int :=
  let stored := storedBelow chain header.sequence
  match stored.getLast? with
  | none => header.sequence - 1
  | some oldest => walkBack header fetchHeader oldest.ledger stored

/- What was stored of a ledger disagrees with its child. -/
def diverges (header : LedgerHeader) (storedParent : Option LedgerCheckpoint) : Bool :=
  match storedParent.bind fun parent => present parent.ledgerHash,
    present header.previousLedgerHash with
  | some stored, some incoming => incoming ≠ stored
  | _, _ => false

end Indexer

end AccessLayer
