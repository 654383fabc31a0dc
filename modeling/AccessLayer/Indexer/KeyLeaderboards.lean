import AccessLayer.Indexer.CoCreators

/-
  Leaderboards of the holders of a key
  (`src/modules/indexer/key-leaderboard-indexer.service.ts`,
  `prisma/schema/key-leaderboard.prisma`).

  Each query is one statement.  Times, caches and logs of the
  process are left out.

  Main result: `newest_event_wins`
-/

-- Events
----

namespace AccessLayer

namespace Indexer

open Transactional Program

structure LeaderboardFields where
  keyId : Option RawField
  key_id : Option RawField
  wallet : Option RawField
  walletAddress : Option RawField
  wallet_address : Option RawField
  volume : Option RawField
  pnl : Option RawField
  holdingDays : Option RawField
  holding_days : Option RawField
  deriving DecidableEq

abbrev LeaderboardEvent := PipelineEvent LeaderboardFields

def leaderboardUpdatedEventTypes : List String := ["LEADERBOARD_UPDATED", "LeaderboardUpdated"]

def keyLeaderboardIndexerDlqJobType : String := "LEADERBOARD_UPDATED"

def isLeaderboardEvent (event : LeaderboardEvent) : Bool :=
  event.eventType ∈ leaderboardUpdatedEventTypes

def maxSafeInteger : ℤ := 2 ^ 53 - 1

/- A number has to be a safe integer, a text must not be blank. -/
def parseInteger : RawField → Option ℤ
  | .number value => (parseBigInt (.number value)).filter (|·| ≤ maxSafeInteger)
  | field => parseBigInt field

structure LeaderboardKey where
  creatorId : String
  wallet : String
  deriving DecidableEq

/- An event that has passed its checks. -/
structure ParsedLeaderboardUpdate extends LeaderboardKey where
  volume : ℤ
  pnl : ℤ
  holdingDays : ℤ
  ledger : ℤ
  eventIndex : Nat
  txHash : String
  deriving DecidableEq

def parseLeaderboardUpdatedEvent (event : LeaderboardEvent) :
    Except String ParsedLeaderboardUpdate :=
  match (firstPresent [event.creatorId.map .text, event.payload.keyId,
    event.payload.key_id]).bind RawField.nonBlank with
  | none => .error "missing or invalid key ID"
  | some creatorId =>
    match (firstPresent [event.payload.wallet, event.payload.walletAddress,
      event.payload.wallet_address]).bind RawField.nonBlank with
    | none => .error "missing or invalid wallet"
    | some wallet =>
      match (event.payload.volume.bind parseInteger).filter (0 ≤ ·) with
      | none => .error "missing or invalid volume"
      | some volume =>
        match event.payload.pnl.bind parseInteger with
        | none => .error "missing or invalid pnl"
        | some pnl =>
          match ((firstPresent [event.payload.holdingDays, event.payload.holding_days]).bind
            parseInteger).filter (0 ≤ ·) with
          | none => .error "missing or invalid holding days"
          | some holdingDays =>
            match event.ledger.filter (0 ≤ ·) with
            | none => .error "missing or invalid ledger"
            | some ledger =>
              if event.txHash = "" then
                .error "missing or invalid txHash/eventIndex"
              else
                .ok {
                  creatorId
                  wallet
                  volume
                  pnl
                  holdingDays
                  ledger
                  eventIndex := event.eventIndex
                  txHash := event.txHash }

-- Entries
----

/- An entry and the last event that was applied to it. -/
structure KeyLeaderboard extends LeaderboardKey where
  volume : ℤ
  pnl : ℤ
  holdingDays : ℤ
  ledger : ℤ
  eventIndex : Nat
  txHash : String

instance : Keyed KeyLeaderboard LeaderboardKey where
  key row := row.toLeaderboardKey

structure LeaderboardDb where
  keyLeaderboard : Table KeyLeaderboard
  indexerDLQ : List (IndexerDLQ LeaderboardFields)

def LeaderboardDb.empty : LeaderboardDb where
  keyLeaderboard := .empty
  indexerDLQ := []

abbrev LeaderboardM := Program LeaderboardDb IndexerError

def KeyLeaderboard.position (row : KeyLeaderboard) : EventPosition :=
  toLex (row.ledger, row.eventIndex)

namespace ParsedLeaderboardUpdate

variable (update : ParsedLeaderboardUpdate)

def position : EventPosition := toLex (update.ledger, update.eventIndex)

def newerThanStored (row : KeyLeaderboard) : Bool :=
  key row = update.toLeaderboardKey ∧ (row.ledger < update.ledger ∨ row.ledger = update.ledger ∧
    row.eventIndex < update.eventIndex)

/- The data of the event in place of what a row holds. -/
def overwrite (row : KeyLeaderboard) : KeyLeaderboard :=
  { row with
    volume := update.volume
    pnl := update.pnl
    holdingDays := update.holdingDays
    ledger := update.ledger
    eventIndex := update.eventIndex
    txHash := update.txHash }

def row : KeyLeaderboard where
  toLeaderboardKey := update.toLeaderboardKey
  volume := update.volume
  pnl := update.pnl
  holdingDays := update.holdingDays
  ledger := update.ledger
  eventIndex := update.eventIndex
  txHash := update.txHash

theorem newerThanStored_iff (row : KeyLeaderboard) :
    update.newerThanStored row = true ↔ key row = update.toLeaderboardKey ∧
      row.position < update.position := by
  unfold newerThanStored KeyLeaderboard.position position
  rw [Prod.Lex.toLex_lt_toLex]
  exact decide_eq_true_iff

end ParsedLeaderboardUpdate

/- Answers the number of rows that were older. -/
def overwriteOlderEntry (update : ParsedLeaderboardUpdate) (db : LeaderboardDb) :
    Except IndexerError (Nat × LeaderboardDb) :=
  .ok (db.keyLeaderboard.rows.countP update.newerThanStored, { db with
        keyLeaderboard :=
          db.keyLeaderboard.updateMany update.newerThanStored update.overwrite (fun _ => rfl) })

def createEntry (update : ParsedLeaderboardUpdate) (db : LeaderboardDb) :
    Except IndexerError (Unit × LeaderboardDb) :=
  match db.keyLeaderboard.insert? update.row with
  | none => .error .uniqueViolation
  | some keyLeaderboard => .ok ((), { db with keyLeaderboard })

/- Answers whether the entry changed. -/
def applyLeaderboardUpdate (update : ParsedLeaderboardUpdate) : LeaderboardM Bool :=
  overwriteOrCreate .database .uniqueViolation (overwriteOlderEntry update) (createEntry update)

def rejectLeaderboardEvent (event : LeaderboardEvent) (reason : String) (db : LeaderboardDb) :
    Except IndexerError (Bool × LeaderboardDb) :=
  .ok (false, { db with
        indexerDLQ := moveToDLQ keyLeaderboardIndexerDlqJobType event reason db.indexerDLQ })

def processLeaderboardUpdatedEvent : LeaderboardEvent → LeaderboardM Bool :=
  processParsed parseLeaderboardUpdatedEvent rejectLeaderboardEvent applyLeaderboardUpdate

def processLeaderboardUpdatedEvents (events : List LeaderboardEvent) : LeaderboardM Unit :=
  forEach (handleOwn isLeaderboardEvent processLeaderboardUpdatedEvent)
    (PipelineEvent.dedupe events)

def leaderboardUpdateOf : LeaderboardEvent → Option ParsedLeaderboardUpdate :=
  carriedUpdate isLeaderboardEvent parseLeaderboardUpdatedEvent

/- Writers that deliver some batches side by side. -/
def leaderboardWriters (db : LeaderboardDb) (batches : List (List LeaderboardEvent)) :
    Pool LeaderboardDb IndexerError Unit :=
  Pool.start db (batches.map processLeaderboardUpdatedEvents)

/- The updates of one entry. -/
def leaderboardUpdatesOf (events : List LeaderboardEvent)
    (k : LeaderboardKey) : List ParsedLeaderboardUpdate :=
  (events.filterMap leaderboardUpdateOf).filter (·.toLeaderboardKey = k)

/- An entry shows the values of an update. -/
structure ParsedLeaderboardUpdate.Shown (update : ParsedLeaderboardUpdate)
    (row : KeyLeaderboard) : Prop where
  volume : row.volume = update.volume
  pnl : row.pnl = update.pnl
  holdingDays : row.holdingDays = update.holdingDays

/- Entries are written by newer updates only. -/
def leaderboardRows :
    NewestWins LeaderboardDb IndexerError ParsedLeaderboardUpdate KeyLeaderboard LeaderboardKey
      EventPosition where
  table := LeaderboardDb.keyLeaderboard
  withTable db keyLeaderboard := { db with keyLeaderboard }
  fault := .database
  taken := .uniqueViolation
  target := ParsedLeaderboardUpdate.toLeaderboardKey
  position := ParsedLeaderboardUpdate.position
  stored := KeyLeaderboard.position
  newer := ParsedLeaderboardUpdate.newerThanStored
  overwrite := ParsedLeaderboardUpdate.overwrite
  row := ParsedLeaderboardUpdate.row
  table_withTable _ _ := rfl
  fault_ne_taken := IndexerError.database_ne_uniqueViolation
  newer_iff := ParsedLeaderboardUpdate.newerThanStored_iff
  key_overwrite _ _ := rfl
  key_row _ := rfl
  stored_overwrite _ _ := rfl
  stored_row _ := rfl

theorem createEntry_eq (update : ParsedLeaderboardUpdate) :
    createEntry update = leaderboardRows.create update := by
  funext db
  unfold createEntry
  cases hInsert : db.keyLeaderboard.insert? update.row with
  | none => exact (NewestWins.create_taken (W := leaderboardRows) hInsert).symm
  | some rows => exact (NewestWins.create_new (W := leaderboardRows) hInsert).symm

theorem applyLeaderboardUpdate_eq : applyLeaderboardUpdate = leaderboardRows.apply := by
  funext update
  unfold applyLeaderboardUpdate
  rw [createEntry_eq]
  rfl

/-
  In every run that has delivered the events to an empty
  leaderboard, an entry shows the latest of its updates.
-/
theorem leaderboard_shows_latest {events : List LeaderboardEvent} {db : LeaderboardDb}
    {batches : List (List LeaderboardEvent)} {labels : List FaultMove}
    {pool : Pool LeaderboardDb IndexerError Unit} {k : LeaderboardKey}
    {latest : ParsedLeaderboardUpdate} (hStart : db.keyLeaderboard.rows = [])
    (hRun : RunsTo Pool.attempt (fun _ _ => True) (leaderboardWriters db batches) labels pool)
    (hDelivered : Delivered events batches pool)
    (hDistinct : DistinctPositions ParsedLeaderboardUpdate.position (leaderboardUpdatesOf events k))
    (hLatest :
      latestOf ParsedLeaderboardUpdate.position (leaderboardUpdatesOf events k) = some latest) :
    ∃ row, pool.store.keyLeaderboard.find? k = some row ∧ latest.Shown row := by
  unfold leaderboardWriters processLeaderboardUpdatedEvents processLeaderboardUpdatedEvent at hRun
  rw [applyLeaderboardUpdate_eq] at hRun
  refine row_of_latest (W := leaderboardRows) (fun _ _ => id) hDistinct hLatest ?_
  intro update hUpdate
  refine exists_newest_of_delivered (W := leaderboardRows) rfl ?_
    (fun _ => ⟨rfl, rfl, rfl⟩) (fun _ _ => ⟨rfl, rfl, rfl⟩) ?_ hRun hDelivered hUpdate
  · intro event reason s a t hOk
    cases hOk
    rfl
  · intro row hRow
    change row ∈ db.keyLeaderboard.rows at hRow
    rw [hStart] at hRow
    exact absurd hRow List.not_mem_nil

/- One writer after another serves a statement. -/
def servedTurns (writers : List Nat) : List FaultMove := writers.map fun i => .attempt i .served

/-
  In every run that has delivered the events, whatever their
  order, repetition and interleaving and whichever statements
  fail, each row shows the event of the highest position.
-/
theorem newest_event_wins :
    (∀ (events : List CoCreatorChainEvent) (db : CoCreatorDb)
      (batches : List (List CoCreatorChainEvent)) (labels : List FaultMove)
      (pool : Pool CoCreatorDb IndexerError Unit)
      (k : CoCreatorKey) (latest : ParsedCoCreatorEvent),
      (∀ row ∈ db.keyCoCreator.rows, row.ledger = none) → RunsTo Pool.attempt (fun _ _ => True)
        (coCreatorWriters db batches) labels pool → Delivered events batches pool →
        DistinctPositions ParsedCoCreatorEvent.position (coCreatorEventsOf events k) →
        latestOf ParsedCoCreatorEvent.position (coCreatorEventsOf events k) = some latest →
        ∃ row, pool.store.keyCoCreator.find? k = some row ∧ latest.Shown row) ∧
      (∀ (events : List LeaderboardEvent) (db : LeaderboardDb)
        (batches : List (List LeaderboardEvent)) (labels : List FaultMove)
        (pool : Pool LeaderboardDb IndexerError Unit) (k : LeaderboardKey)
        (latest : ParsedLeaderboardUpdate), db.keyLeaderboard.rows = [] →
        RunsTo Pool.attempt (fun _ _ => True) (leaderboardWriters db batches) labels pool →
        Delivered events batches pool → DistinctPositions ParsedLeaderboardUpdate.position
          (leaderboardUpdatesOf events k) → latestOf ParsedLeaderboardUpdate.position
          (leaderboardUpdatesOf events k) = some latest →
        ∃ row, pool.store.keyLeaderboard.find? k = some row ∧ latest.Shown row) := by
  constructor
  · intro events db batches labels pool k latest hStart hRun hDelivered hDistinct hLatest
    exact co_creator_shows_latest hStart hRun hDelivered hDistinct hLatest
  · intro events db batches labels pool k latest hStart hRun hDelivered hDistinct hLatest
    exact leaderboard_shows_latest hStart hRun hDelivered hDistinct hLatest

def coCreatorEvent (eventType txHash : String) (ledger : ℤ)
    (splitBps : Option RawField) : CoCreatorChainEvent where
  toIndexerChainEvent := { bareEvent eventType txHash 0 ledger with creatorId := some "K" }
  payload :=
    { creator_id := none
      keyId := none
      key_id := none
      creator := none
      coCreator := some (.text "G")
      co_creator := none
      co_creator_address := none
      wallet := none
      splitBps := splitBps
      split_bps := none
      shareBps := none
      share_bps := none
      role := none }

/- Two splits and a removal between them. -/
def splitTwice : List CoCreatorChainEvent :=
  [coCreatorEvent "co_set" "t" 1 (some (.number 500)), coCreatorEvent "cc_rm" "u" 2 none,
    coCreatorEvent "co_set" "v" 3 (some (.number 700))]

def leaderboardEvent (txHash : String) (ledger volume : ℤ) : LeaderboardEvent where
  toIndexerChainEvent :=
    { bareEvent "LEADERBOARD_UPDATED" txHash 0 ledger with creatorId := some "K" }
  payload :=
    { keyId := none
      key_id := none
      wallet := some (.text "G")
      walletAddress := none
      wallet_address := none
      volume := some (.bigint volume)
      pnl := some (.text "-3")
      holdingDays := some (.number 5)
      holding_days := none }

def twoVolumes : List LeaderboardEvent := [leaderboardEvent "t" 1 10, leaderboardEvent "u" 2 20]

def coCreatorTurns : List FaultMove :=
  servedTurns [0, 1, 0, 1, 1, 0, 0, 0, 0, 0, 0, 1, 1, 1, 1, 1, 1]

def leaderboardTurns : List FaultMove := servedTurns [0, 1, 1, 0, 0, 0, 0, 0, 1, 1, 1]

/- Both writers find no row; the second to create it fails. -/
theorem newest_event_wins_sample :
    (∃ pool, RunsTo Pool.attempt (fun _ _ => True) (coCreatorWriters .empty
      [splitTwice.reverse, splitTwice]) coCreatorTurns pool ∧ ∃ row,
      pool.store.keyCoCreator.find? { keyId := "K", wallet := "G" } = some row ∧
      row.active = true ∧ row.shareBps = some 700) ∧ ∃ pool, RunsTo Pool.attempt (fun _ _ => True)
      (leaderboardWriters .empty [twoVolumes.reverse, twoVolumes]) leaderboardTurns pool ∧ ∃ row,
      pool.store.keyLeaderboard.find? { creatorId := "K", wallet := "G" } = some row ∧
      row.volume = 20 := by
  constructor
  · have hRun :=
      runsTo_of_runLabels (Option.some_get (show (runLabels Pool.attempt (coCreatorWriters .empty
        [splitTwice.reverse, splitTwice])
        coCreatorTurns).isSome = true by
        decide)).symm
    rcases newest_event_wins.1 splitTwice .empty _ _ _ { keyId := "K", wallet := "G" }
      { keyId := "K"
        wallet := "G"
        added := true
        splitBps := some 700
        role := "co_creator"
        ledger := 3
        eventIndex := 0
        txHash := "v" } (fun _ hRow => absurd hRow List.not_mem_nil) hRun
      (delivered_of_endedWell 1 (by decide) rfl (by decide) (by decide))
      (distinctPositions_of_nodup (by decide)) (by decide) with ⟨row, hRow, hShown⟩
    exact ⟨_, hRun, row, hRow, hShown.active, hShown.shareBps hShown.active⟩
  · have hRun :=
      runsTo_of_runLabels (Option.some_get (show (runLabels Pool.attempt (leaderboardWriters .empty
        [twoVolumes.reverse, twoVolumes])
        leaderboardTurns).isSome = true by
        decide)).symm
    rcases newest_event_wins.2 twoVolumes .empty _ _ _ { creatorId := "K", wallet := "G" }
      { creatorId := "K"
        wallet := "G"
        volume := 20
        pnl := -3
        holdingDays := 5
        ledger := 2
        eventIndex := 0
        txHash := "u" } rfl hRun (delivered_of_endedWell 1 (by decide) rfl
        (by decide) (by decide)) (distinctPositions_of_nodup (by decide)) (by decide) with
      ⟨row, hRow, hShown⟩
    exact ⟨_, hRun, row, hRow, hShown.volume⟩

end Indexer

end AccessLayer
