import AccessLayer.Indexer.Rollback

/-
  Ingestion that is aware of reorgs
  (`src/modules/indexer/reorg-guard.service.ts`).

  A ledger whose parent disagrees with the stored hash makes the
  ledgers after the fork point roll back.  They are ingested
  again when the caller can supply them.  Logs are left out.

  Main declaration: `ingestLedger`
-/

-- Reorg Guard
----

namespace AccessLayer

namespace Indexer

open Transactional Program

/-
  The header and event sources of the incoming chain, where a
  caller has them, and the processor of a ledger's events.
-/
structure ReorgGuardDeps where
  fetchHeader : Option (Int → Option LedgerHeader)
  fetchEvents : Option (Int → List IndexerChainEvent)
  processEvents : List IndexerChainEvent → IndexerM Unit

structure GuardConfig where
  indexer : IndexerConfig
  sha256 : String → String

structure IngestLedgerResult where
  reorgDetected : Bool
  forkPoint : Option Int
  reorgedLedgerCount : Nat
  affectedEventCount : Nat
  sequence : Int
  eventsIngested : Nat
  reingestedLedgers : List Int
  deriving DecidableEq

abbrev GuardM := Program Database IndexerError

def tradeTables : Component Database TradeDb where
  get db := db.trade
  set trade db := { db with trade }
  get_set _ _ := rfl
  set_get _ := rfl
  set_set _ _ _ := rfl

def recordLedger (config : GuardConfig) (header : LedgerHeader)
    (events : List IndexerChainEvent) : GuardM Unit :=
  execute .database fun db => .ok ((), { db with
          chain := recordLedgerIngestion config.sha256 header events db.chain })

/- Process the events of a ledger, then record it. -/
def ingestOne (config : GuardConfig) (deps : ReorgGuardDeps) (header : LedgerHeader)
    (events : List IndexerChainEvent) : GuardM Unit := do
  (deps.processEvents events).zoom tradeTables
  recordLedger config header events

def reingest (config : GuardConfig) (deps : ReorgGuardDeps)
    (fetchHeader : Int → Option LedgerHeader) (fetchEvents : Int → List IndexerChainEvent)
    (seq : Int) : Nat → GuardM (List Int)
  | 0 => pure []
  | ledgers + 1 =>
    match fetchHeader seq with
    | none => pure []
    | some canonical => do
      ingestOne config deps canonical (fetchEvents seq)
      let reingestedLedgers ← reingest config deps fetchHeader fetchEvents (seq + 1) ledgers
      pure (seq :: reingestedLedgers)

/- Without both sources, ledgers are left to be delivered. -/
def reingestUpTo (config : GuardConfig) (deps : ReorgGuardDeps)
    (forkPoint sequence : Int) : GuardM (List Int) :=
  match deps.fetchHeader, deps.fetchEvents with
  | some fetchHeader, some fetchEvents =>
    reingest config deps fetchHeader fetchEvents (forkPoint + 1) (sequence - (forkPoint + 1)).toNat
  | _, _ => pure []

/- Roll back to the fork point and ingest what follows it. -/
def recoverFromReorg (config : GuardConfig) (deps : ReorgGuardDeps)
    (header : LedgerHeader) : GuardM IngestLedgerResult := do
  let forkPoint ← query .database fun db => findForkPoint header deps.fetchHeader db.chain
  let counts ← execute .database (rollbackToLedger config.indexer forkPoint)
  let reingestedLedgers ← reingestUpTo config deps forkPoint header.sequence
  pure {
    reorgDetected := true
    forkPoint := some forkPoint
    reorgedLedgerCount := counts.reorgedLedgerCount
    affectedEventCount := counts.affectedEventCount
    sequence := header.sequence
    eventsIngested := 0
    reingestedLedgers }

def noReorg (header : LedgerHeader) : IngestLedgerResult where
  reorgDetected := false
  forkPoint := none
  reorgedLedgerCount := 0
  affectedEventCount := 0
  sequence := header.sequence
  eventsIngested := 0
  reingestedLedgers := []

/- A parent that disagrees is what detects a reorg. -/
def checkLinkage (config : GuardConfig) (deps : ReorgGuardDeps) (header : LedgerHeader)
    (storedParent : Option LedgerCheckpoint) : GuardM IngestLedgerResult :=
  if diverges header storedParent = true then
    recoverFromReorg config deps header
  else pure (noReorg header)

def ingestLedger (config : GuardConfig) (deps : ReorgGuardDeps) (header : LedgerHeader)
    (events : List IndexerChainEvent) :
    GuardM IngestLedgerResult := do
  let uniqueEvents := dedupeChainEvents events
  let storedParent ← query .database fun db => db.chain.checkpoint? (header.sequence - 1)
  let outcome ← checkLinkage config deps header storedParent
  ingestOne config deps header uniqueEvents
  pure { outcome with eventsIngested := uniqueEvents.length }

/- Both tables after one ledger, or the error of its events. -/
theorem run_ingestOne (config : GuardConfig) (deps : ReorgGuardDeps) (header : LedgerHeader)
    (events : List IndexerChainEvent) (db : Database) :
    (ingestOne config deps header events).run db =
      match (deps.processEvents events).run db.trade with
      | (.ok _, trade) =>
        (.ok (),
          { trade
            chain := recordLedgerIngestion config.sha256 header events db.chain })
      | (.error e, trade) => (.error e, { db with trade }) := by
  have hTrade : tradeTables.get db = db.trade := rfl
  unfold ingestOne recordLedger
  simp only [run_bind, run_zoom, run_execute, hTrade]
  cases (deps.processEvents events).run db.trade with
  | mk result trade =>
    cases result with
    | ok _ => rfl
    | error e => rfl

/- A ledger that agrees with its parent is simply ingested. -/
theorem run_ingestLedger_clean {config : GuardConfig} {deps : ReorgGuardDeps}
    {header : LedgerHeader} {events : List IndexerChainEvent} {db : Database}
    (hClean : diverges header (db.chain.checkpoint? (header.sequence - 1)) = false) :
    (ingestLedger config deps header events).run db =
      match (deps.processEvents (dedupeChainEvents events)).run db.trade with
      | (.ok _, trade) =>
        (.ok { noReorg header with
            eventsIngested := (dedupeChainEvents events).length },
          { trade
            chain :=
              recordLedgerIngestion config.sha256 header (dedupeChainEvents events) db.chain })
      | (.error e, trade) => (.error e, { db with trade }) := by
  unfold ingestLedger checkLinkage
  simp only [run_bind, run_query, hClean, Bool.false_eq_true, if_false, run_pure, run_ingestOne]
  cases (deps.processEvents (dedupeChainEvents events)).run db.trade with
  | mk result trade =>
    cases result with
    | ok _ => rfl
    | error e => rfl

/- No header and event source; trades go to the pipeline. -/
def sampleDeps : ReorgGuardDeps where
  fetchHeader := none
  fetchEvents := none
  processEvents := processTradeEvents sampleConfig

def sampleGuard : GuardConfig where
  indexer := sampleConfig
  sha256 := id

/- One creator, and no ledger that was ingested. -/
def freshDatabase : Database where
  trade := freshCreator
  chain := .empty

end Indexer

end AccessLayer
