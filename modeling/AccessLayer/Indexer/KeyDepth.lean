import AccessLayer.Indexer.EventFields
import AccessLayer.Library.NewestWins
import Mathlib

/-
  Volumes of the price levels of a key's order book
  (`src/modules/indexer/key-depth-indexer.service.ts`).

  Each query is one statement.  Caches and logs of the process
  are left out.

  Main result: `depth_converges_iff`
-/

-- Events
----

namespace AccessLayer

namespace Indexer

open Transactional Program

section

structure DepthFields where
  side : Option String
  price : RawField
  volume : RawField

abbrev DepthUpdatedEvent := PipelineEvent DepthFields

def depthUpdatedEventTypes : List String := ["DEPTH_UPDATED", "DepthUpdated"]

def keyDepthIndexerDlqJobType : String := "DEPTH_UPDATED"

def isDepthUpdatedEvent (event : DepthUpdatedEvent) : Bool :=
  event.eventType ∈ depthUpdatedEventTypes

inductive DepthSide where
  | bid
  | ask
  deriving DecidableEq

def DepthSide.ofName : String → Option DepthSide
  | "bid" => some .bid
  | "ask" => some .ask
  | _ => none

structure DepthLevel where
  creatorId : String
  side : DepthSide
  price : ℤ
  deriving DecidableEq

/- An event that has passed its checks. -/
structure ParsedDepthUpdate extends DepthLevel where
  volume : ℤ
  ledger : ℤ
  txHash : String
  eventIndex : Nat
  deriving DecidableEq

def parseDepthUpdatedEvent (event : DepthUpdatedEvent) : Except String ParsedDepthUpdate :=
  match textField event.creatorId with
  | none => .error "missing or invalid creatorId"
  | some creatorId =>
    match event.payload.side.bind DepthSide.ofName with
    | none => .error "invalid side (expected bid or ask)"
    | some side =>
      match (parseBigInt event.payload.price).filter (0 < ·) with
      | none => .error "missing or invalid price"
      | some price =>
        match (parseBigInt event.payload.volume).filter (0 ≤ ·) with
        | none => .error "missing or invalid volume"
        | some volume =>
          match event.ledger.filter (0 ≤ ·) with
          | none => .error "missing or invalid ledger"
          | some ledger =>
            if event.txHash = "" then
              .error "missing or invalid txHash/eventIndex"
            else
              .ok {
                creatorId
                side
                price
                volume
                ledger
                txHash := event.txHash
                eventIndex := event.eventIndex }

-- Levels
----

/- A level and the last event that was applied to it. -/
structure KeyDepth extends DepthLevel where
  volume : ℤ
  ledger : ℤ
  eventIndex : Nat
  txHash : String

instance : Keyed KeyDepth DepthLevel where
  key row := row.toDepthLevel

structure DepthDb where
  keyDepth : Table KeyDepth
  indexerDLQ : List (IndexerDLQ DepthFields)

abbrev DepthM := Program DepthDb IndexerError

def DepthDb.empty : DepthDb where
  keyDepth := .empty
  indexerDLQ := []

/- Events are compared by ledger, then by index. -/
abbrev DepthPosition := ℤ ×ₗ Nat

def KeyDepth.position (row : KeyDepth) : DepthPosition := toLex (row.ledger, row.eventIndex)

namespace ParsedDepthUpdate

variable (update : ParsedDepthUpdate)

def position : DepthPosition := toLex (update.ledger, update.eventIndex)

def newerThanStored (row : KeyDepth) : Bool :=
  key row = update.toDepthLevel ∧ (row.ledger < update.ledger ∨ row.ledger = update.ledger ∧
    row.eventIndex < update.eventIndex)

/- The data of the event in place of what a row holds. -/
def overwrite (row : KeyDepth) : KeyDepth :=
  { row with
    volume := update.volume
    ledger := update.ledger
    eventIndex := update.eventIndex
    txHash := update.txHash }

def row : KeyDepth where
  toDepthLevel := update.toDepthLevel
  volume := update.volume
  ledger := update.ledger
  eventIndex := update.eventIndex
  txHash := update.txHash

end ParsedDepthUpdate

/- Answers the number of rows that were older. -/
def overwriteOlder (update : ParsedDepthUpdate)
    (db : DepthDb) : Except IndexerError (Nat × DepthDb) :=
  .ok (db.keyDepth.rows.countP update.newerThanStored, { db with
        keyDepth := db.keyDepth.updateMany update.newerThanStored update.overwrite (fun _ => rfl) })

def createLevel (update : ParsedDepthUpdate)
    (db : DepthDb) : Except IndexerError (Unit × DepthDb) :=
  match db.keyDepth.insert? update.row with
  | none => .error .uniqueViolation
  | some keyDepth => .ok ((), { db with keyDepth })

/- Answers whether the level changed. -/
def applyDepthUpdate (update : ParsedDepthUpdate) : DepthM Bool := do
  let updated ← execute .database (overwriteOlder update)
  if 0 < updated then pure true
  else
    tryCatch (do
      execute .database (createLevel update)
      pure true)
      (fun error =>
        if error = .uniqueViolation then do
          let retried ← execute .database (overwriteOlder update)
          pure (decide (0 < retried))
        else throw error)

def rejectDepthEvent (event : DepthUpdatedEvent) (reason : String)
    (db : DepthDb) : Except IndexerError (Bool × DepthDb) :=
  .ok (false, { db with
        indexerDLQ := moveToDLQ keyDepthIndexerDlqJobType event reason db.indexerDLQ })

def processDepthUpdatedEvent (event : DepthUpdatedEvent) : DepthM Bool :=
  match parseDepthUpdatedEvent event with
  | .error reason => execute .database (rejectDepthEvent event reason)
  | .ok update => applyDepthUpdate update

def handleDepthEvent (event : DepthUpdatedEvent) : DepthM Unit :=
  if isDepthUpdatedEvent event then do
    let _ ← processDepthUpdatedEvent event
  else pure ()

def processDepthUpdatedEvents (events : List DepthUpdatedEvent) : DepthM Unit :=
  forEach handleDepthEvent (PipelineEvent.dedupe events)

end

-- Histories
----

section

/- The update that a valid depth event carries. -/
def depthUpdate (event : DepthUpdatedEvent) : Option ParsedDepthUpdate :=
  if isDepthUpdatedEvent event then
    (parseDepthUpdatedEvent event).toOption
  else none

/-
  Events of a chain.  `txOrder` is the place of a transaction in
  its ledger, which an event does not tell.
-/
structure DepthHistory where
  events : List DepthUpdatedEvent
  distinct : (events.map PipelineEvent.id).Nodup
  txOrder : String → Nat

namespace DepthHistory

variable (history : DepthHistory)

def updates (level : DepthLevel) : List ParsedDepthUpdate :=
  (history.events.filterMap depthUpdate).filter (·.toDepthLevel = level)

def chainPosition (update : ParsedDepthUpdate) : ℤ ×ₗ Nat ×ₗ Nat :=
  toLex (update.ledger, toLex (history.txOrder update.txHash, update.eventIndex))

/- The last update of a level in on-chain order. -/
def IsLatest (level : DepthLevel) (update : ParsedDepthUpdate) : Prop :=
  update ∈ history.updates level ∧ ∀ other ∈ history.updates level,
    history.chainPosition other ≤ history.chainPosition update

/- An update that the guard takes for no older than any. -/
def IsNewest (level : DepthLevel) (update : ParsedDepthUpdate) : Prop :=
  update ∈ history.updates level ∧ ∀ other ∈ history.updates level, other.position ≤ update.position

def TiesCarryLatest : Prop :=
  ∀ level latest update, history.IsLatest level latest → history.IsNewest level update →
    update.volume = latest.volume

/- Writers that deliver some batches side by side. -/
def writers (batches : List (List DepthUpdatedEvent)) : Pool DepthDb IndexerError Unit :=
  Pool.start .empty (batches.map processDepthUpdatedEvents)

/- The batches hold each event, and a batch with it has ended. -/
structure Delivered (batches : List (List DepthUpdatedEvent))
    (pool : Pool DepthDb IndexerError Unit) : Prop where
  sound : ∀ batch ∈ batches, ∀ event ∈ batch, event ∈ history.events
  complete : ∀ event ∈ history.events, ∃ (i : Nat) (batch : List DepthUpdatedEvent)
    (call : Call DepthDb IndexerError Unit), batches[i]? = some batch ∧ event ∈ batch ∧
      pool.calls[i]? = some call ∧ call.program = .ret ()

/-
  Whatever batches deliver the events, and however their
  statements interleave, fail or are lost, each level ends with
  the volume of its latest update.
-/
def Converges : Prop :=
  ∀ batches labels pool, RunsTo Pool.attempt (fun _ _ => True) (writers batches) labels pool →
    history.Delivered batches pool → ∀ level latest, history.IsLatest level latest →
      ∃ row, pool.store.keyDepth.find? level = some row ∧ row.volume = latest.volume

end DepthHistory

end

-- What Writers Do to Levels
----

section

def Written (updates : List ParsedDepthUpdate) (db : DepthDb) : Prop :=
  ∀ row ∈ db.keyDepth.rows, ∃ update ∈ updates, row = update.row

/- Levels stay, and are only overwritten by newer updates. -/
def depthMoves (updates : List ParsedDepthUpdate) : Moves DepthDb where
  move s t :=
    (∀ level row, s.keyDepth.find? level = some row → ∃ row', t.keyDepth.find? level = some row' ∧
      row.position ≤ row'.position) ∧ (Written updates s → Written updates t)
  refl _ := ⟨fun _ row hRow => ⟨row, hRow, le_rfl⟩, id⟩
  trans := by
    rintro s t u ⟨hGrows, hWritten⟩ ⟨hGrows', hWritten'⟩
    refine ⟨?_, fun h => hWritten' (hWritten h)⟩
    intro level row hRow
    rcases hGrows level row hRow with ⟨row', hRow', hLe⟩
    rcases hGrows' level row' hRow' with ⟨row'', hRow'', hLe'⟩
    exact ⟨row'', hRow'', hLe.trans hLe'⟩

namespace ParsedDepthUpdate

/- The level of the update is stored and no older than it. -/
def Reached (update : ParsedDepthUpdate) (db : DepthDb) : Prop :=
  ∃ row, db.keyDepth.find? update.toDepthLevel = some row ∧ update.position ≤ row.position

end ParsedDepthUpdate

variable {updates : List ParsedDepthUpdate} {update : ParsedDepthUpdate} {s t : DepthDb}
variable {row : KeyDepth}

theorem newerThanStored_iff :
    update.newerThanStored row = true ↔ key row = update.toDepthLevel ∧
      row.position < update.position := by
  unfold ParsedDepthUpdate.newerThanStored KeyDepth.position ParsedDepthUpdate.position
  rw [Prod.Lex.toLex_lt_toLex]
  exact decide_eq_true_iff

theorem overwrite_eq_row (hKey : key row = update.toDepthLevel) :
    update.overwrite row = update.row := by
  unfold ParsedDepthUpdate.overwrite ParsedDepthUpdate.row
  rw [← hKey]
  rfl

theorem find?_overwriteOlder {n : Nat} (h : overwriteOlder update s = .ok (n, t))
    (level : DepthLevel) :
    t.keyDepth.find? level = (s.keyDepth.find? level).map fun row =>
      if update.newerThanStored row then update.overwrite row
      else row := by
  cases h
  exact Table.find?_updateMany s.keyDepth update.newerThanStored
    update.overwrite (fun _ => rfl) level

/- Levels, and the updates that are written to them. -/
def depthLevels :
    NewestWins DepthDb IndexerError ParsedDepthUpdate KeyDepth
      DepthLevel DepthPosition where
  table := DepthDb.keyDepth
  withTable db keyDepth := { db with keyDepth }
  fault := .database
  taken := .uniqueViolation
  target := ParsedDepthUpdate.toDepthLevel
  position := ParsedDepthUpdate.position
  stored := KeyDepth.position
  newer := ParsedDepthUpdate.newerThanStored
  overwrite := ParsedDepthUpdate.overwrite
  row := ParsedDepthUpdate.row
  table_withTable _ _ := rfl
  fault_ne_taken := IndexerError.database_ne_uniqueViolation
  newer_iff _ _ := newerThanStored_iff
  key_overwrite _ _ := rfl
  key_row _ := rfl
  stored_overwrite _ _ := rfl
  stored_row _ := rfl

theorem depthMoves_eq :
    depthMoves updates = depthLevels.moves fun row => ∃ update ∈ updates, row = update.row := rfl

theorem stable_reached : (depthMoves updates).Stable update.Reached :=
  NewestWins.stable_reached (W := depthLevels)

theorem createLevel_eq (update : ParsedDepthUpdate) :
    createLevel update = depthLevels.create update := by
  funext db
  unfold createLevel
  cases hInsert : db.keyDepth.insert? update.row with
  | none => exact (NewestWins.create_taken (W := depthLevels) hInsert).symm
  | some rows => exact (NewestWins.create_new (W := depthLevels) hInsert).symm

theorem applyDepthUpdate_eq : applyDepthUpdate = depthLevels.apply := by
  funext update
  unfold applyDepthUpdate
  rw [createLevel_eq]
  rfl

theorem writes_row (hUpdate : update ∈ updates) :
    depthLevels.Writes (fun row => ∃ update ∈ updates, row = update.row) update where
  row := ⟨update, hUpdate, rfl⟩
  overwrite _ hKey := ⟨update, hUpdate, overwrite_eq_row hKey⟩

/- When the update has been applied, its level is stored and no older than it, and stays so. -/
theorem promises_applyDepthUpdate (hUpdate : update ∈ updates) :
    (applyDepthUpdate update).Promises (depthMoves updates)
      (fun _ => update.Reached) (fun _ _ => True) s := by
  rw [applyDepthUpdate_eq, depthMoves_eq]
  exact NewestWins.promises_apply (writes_row hUpdate)

def DepthApplied (event : DepthUpdatedEvent) (db : DepthDb) : Prop :=
  ∀ update ∈ depthUpdate event, update.Reached db

theorem stable_depthApplied (event : DepthUpdatedEvent) :
    (depthMoves updates).Stable (DepthApplied event) :=
  fun s t hMove hApplied update hUpdate => stable_reached s t hMove (hApplied update hUpdate)

theorem promises_handleDepthEvent {event : DepthUpdatedEvent}
    (hEvent : ∀ update ∈ depthUpdate event, update ∈ updates) (s : DepthDb) :
    (handleDepthEvent event).Promises (depthMoves updates)
      (fun _ => DepthApplied event) (fun _ _ => True) s := by
  unfold DepthApplied
  unfold depthUpdate at hEvent ⊢
  unfold handleDepthEvent processDepthUpdatedEvent
  split
  · rename_i hType
    rw [if_pos hType] at hEvent
    cases hParsed : parseDepthUpdatedEvent event with
    | error reason =>
      intro t _
      refine ⟨⟨?_, id⟩, ?_, ?_, ?_⟩
      · exact fun _ row hRow => ⟨row, hRow, le_rfl⟩
      · exact fun _ _ _ hNone => nomatch hNone
      · exact fun _ _ => trivial
      · exact fun _ _ => trivial
    | ok update =>
      rw [hParsed] at hEvent
      refine (promises_applyDepthUpdate (hEvent update rfl)).bind ?_
      intro _ t hReached
      refine promises_pure ?_ ?_
      · intro t u hMove hAll other hOther
        exact stable_reached t u hMove (hAll other hOther)
      · intro other hOther
        cases hOther
        exact hReached
  · exact fun _ _ _ hNone => nomatch hNone

end

-- A Writer Alone
----

variable {update : ParsedDepthUpdate} {s : DepthDb}

/- A level after an update that nobody interferes with. -/
def ParsedDepthUpdate.levelAfter (update : ParsedDepthUpdate) : Option KeyDepth → KeyDepth
  | none => update.row
  | some row =>
    if update.newerThanStored row then update.row else row

theorem overwriteOlder_idle (hIdle :
    ∀ row, s.keyDepth.find? update.toDepthLevel = some row → update.newerThanStored row = false) :
    overwriteOlder update s = .ok (0, s) := by
  have hNone : ∀ row ∈ s.keyDepth.rows,
      update.newerThanStored row = false := by
    intro row hRow
    by_contra hNewer
    rw [Bool.not_eq_false] at hNewer
    have hFound := Table.find?_of_mem hRow
    rw [(newerThanStored_iff.mp hNewer).1] at hFound
    rw [hIdle row hFound] at hNewer
    cases hNewer
  have hCount : s.keyDepth.rows.countP update.newerThanStored = 0 :=
    List.countP_eq_zero.mpr fun row hRow => by
      simp [hNone row hRow]
  have hSame : s.keyDepth.updateMany update.newerThanStored
      update.overwrite (fun _ => rfl) = s.keyDepth := by
    apply Table.ext
    conv_rhs => rw [← List.map_id s.keyDepth.rows]
    apply List.map_congr_left
    intro row hRow
    rw [hNone row hRow]
    rfl
  unfold overwriteOlder
  rw [hCount, hSame]

variable {row : KeyDepth}

theorem createLevel_stored (hRow : s.keyDepth.find? update.toDepthLevel = some row) :
    createLevel update s = .error .uniqueViolation := by
  have hInsert : s.keyDepth.insert? update.row = none := by
    unfold Table.insert?
    rw [dif_neg]
    intro hNone
    rw [show key update.row = update.toDepthLevel from rfl, hRow] at hNone
    cases hNone
  unfold createLevel
  rw [hInsert]

theorem createLevel_new (hRow : s.keyDepth.find? update.toDepthLevel = none) :
    ∃ t, createLevel update s = .ok ((), t) ∧ ∀ level, t.keyDepth.find? level =
      if level = update.toDepthLevel then some update.row
      else s.keyDepth.find? level := by
  have hInsert : s.keyDepth.insert? update.row = some (s.keyDepth.create update.row hRow) :=
    Table.insert?_of_fresh hRow
  refine ⟨{ s with keyDepth := s.keyDepth.create update.row hRow }, ?_, fun level => ?_⟩
  · unfold createLevel
    rw [hInsert]
  · exact Table.find?_create s.keyDepth update.row hRow level

theorem overwriteOlder_older (hRow : s.keyDepth.find? update.toDepthLevel = some row)
    (hNewer : update.newerThanStored row = true) :
    ∃ n t, overwriteOlder update s = .ok (n, t) ∧ 0 < n ∧ ∀ level, t.keyDepth.find? level =
      if level = update.toDepthLevel then some update.row
      else s.keyDepth.find? level := by
  refine ⟨_, _, rfl, List.countP_pos_iff.mpr ⟨row, Table.mem_of_find? hRow, hNewer⟩, ?_⟩
  intro level
  rw [find?_overwriteOlder (n := _) rfl]
  split
  · rename_i hLevel
    rw [hLevel, hRow, Option.map_some, if_pos hNewer, overwrite_eq_row (Table.key_of_find? hRow)]
  · rename_i hLevel
    cases hOther : s.keyDepth.find? level with
    | none => rfl
    | some other =>
      have hKey := Table.key_of_find? hOther
      rw [Option.map_some, if_neg]
      rw [newerThanStored_iff, hKey]
      exact fun h => hLevel h.1

theorem run_applyDepthUpdate (update : ParsedDepthUpdate) (s : DepthDb) :
    ∃ changed t, (applyDepthUpdate update).run s = (.ok changed, t) ∧ ∀ level,
      t.keyDepth.find? level =
        if level = update.toDepthLevel then
          some (update.levelAfter (s.keyDepth.find? level))
        else s.keyDepth.find? level := by
  cases hRow : s.keyDepth.find? update.toDepthLevel with
  | none =>
    have hFirst : overwriteOlder update s = .ok (0, s) := overwriteOlder_idle (by simp [hRow])
    rcases createLevel_new hRow with ⟨t, hCreate, hFind⟩
    refine ⟨true, t, ?_, ?_⟩
    · simp [applyDepthUpdate, hFirst, hCreate]
    · intro level
      rw [hFind]
      split
      · rename_i hLevel
        rw [hLevel, hRow]
        rfl
      · rfl
  | some row =>
    cases hNewer : update.newerThanStored row with
    | true =>
      rcases overwriteOlder_older hRow hNewer with ⟨n, t, hFirst, hCount, hFind⟩
      refine ⟨true, t, ?_, ?_⟩
      · simp [applyDepthUpdate, hFirst, hCount]
      · intro level
        rw [hFind]
        split
        · rename_i hLevel
          rw [hLevel, hRow, ParsedDepthUpdate.levelAfter, if_pos hNewer]
        · rfl
    | false =>
      have hIdle : overwriteOlder update s = .ok (0, s) := by
        apply overwriteOlder_idle
        intro other hOther
        rw [hRow] at hOther
        cases hOther
        exact hNewer
      refine ⟨false, s, ?_, ?_⟩
      · simp [applyDepthUpdate, hIdle, createLevel_stored hRow]
      · intro level
        split
        · rename_i hLevel
          rw [hLevel, hRow, ParsedDepthUpdate.levelAfter, hNewer]
          rfl
        · rfl

-- Levels That Converge
----

namespace DepthHistory

variable {history : DepthHistory} {level : DepthLevel}

def allUpdates (history : DepthHistory) : List ParsedDepthUpdate :=
  history.events.filterMap depthUpdate

theorem mem_updates_iff :
    update ∈ history.updates level ↔ update ∈ history.allUpdates ∧ update.toDepthLevel = level := by
  unfold updates allUpdates
  rw [List.mem_filter, decide_eq_true_iff]

variable {batches : List (List DepthUpdatedEvent)}

theorem promises_writers (hSound : ∀ batch ∈ batches, ∀ event ∈ batch, event ∈ history.events) :
    (writers batches).Promises (depthMoves history.allUpdates) (fun i _ db =>
      ∀ batch, batches[i]? = some batch → ∀ event ∈ batch, DepthApplied event db)
      (fun _ _ _ => True) := by
  apply Pool.promises_start
  intro i p hp
  rw [List.getElem?_map] at hp
  rcases Option.map_eq_some_iff.mp hp with ⟨batch, hBatch, rfl⟩
  have hEvents := hSound batch (List.mem_of_getElem? hBatch)
  have hAll :
      (processDepthUpdatedEvents batch).Promises (depthMoves history.allUpdates) (fun _ db =>
        ∀ event ∈ PipelineEvent.dedupe batch, DepthApplied event db)
        (fun _ _ => True) .empty := by
    refine promises_forEach stable_depthApplied (fun event hEvent => promises_handleDepthEvent ?_) _
    intro update hUpdate
    rw [mem_dedupe_iff history.distinct hEvents] at hEvent
    exact List.mem_filterMap.mpr ⟨event, hEvents event hEvent, hUpdate⟩
  refine hAll.imp ?_ fun _ _ => id
  intro _ db hApplied batch' hBatch' event hEvent
  rw [hBatch] at hBatch'
  cases hBatch'
  apply hApplied
  rw [mem_dedupe_iff history.distinct hEvents]
  exact hEvent

/- A run that has delivered all events leaves at each level a newest update. -/
theorem exists_newest {labels : List FaultMove} {pool : Pool DepthDb IndexerError Unit}
    (hRun : RunsTo Pool.attempt (fun _ _ => True) (writers batches) labels pool)
    (hDelivered : history.Delivered batches pool) {update : ParsedDepthUpdate}
    (hUpdate : update ∈ history.updates level) :
    ∃ newest, history.IsNewest level newest ∧
      pool.store.keyDepth.find? level = some newest.row := by
  rcases Pool.promises_run (promises_writers hDelivered.sound) hRun with ⟨hMoved, hPromises⟩
  have hReached : ∀ other ∈ history.updates level,
      other.Reached pool.store := by
    intro other hOther
    rcases List.mem_filterMap.mp (mem_updates_iff.mp hOther).1 with ⟨event, hEvent, hCarried⟩
    rcases hDelivered.complete event hEvent with ⟨i, batch, call, hBatch, hMem, hCall, hEnded⟩
    have hPromise := hPromises i call hCall
    rw [hEnded] at hPromise
    exact hPromise pool.store ((depthMoves _).refl _) batch hBatch event hMem other hCarried
  have hWritten : Written history.allUpdates pool.store :=
    hMoved.2 fun _ hRow => absurd hRow List.not_mem_nil
  rcases hReached update hUpdate with ⟨row, hRow, -⟩
  rw [(mem_updates_iff.mp hUpdate).2] at hRow
  rcases hWritten row (Table.mem_of_find? hRow) with ⟨newest, hNewest, rfl⟩
  refine ⟨newest, ⟨mem_updates_iff.mpr ⟨hNewest, Table.key_of_find? hRow⟩, ?_⟩, hRow⟩
  intro other hOther
  rcases hReached other hOther with ⟨row', hRow', hLe⟩
  rw [(mem_updates_iff.mp hOther).2, hRow] at hRow'
  cases hRow'
  exact hLe

theorem converges_of_tiesCarryLatest (hTies : history.TiesCarryLatest) :
    history.Converges := by
  intro batches labels pool hRun hDelivered level latest hLatest
  rcases exists_newest hRun hDelivered hLatest.1 with ⟨newest, hNewest, hRow⟩
  exact ⟨newest.row, hRow, hTies level latest newest hLatest hNewest⟩

variable {event : DepthUpdatedEvent}

/- An update that is not newer leaves a row alone. -/
theorem ensures_handleDepthEvent {row : KeyDepth} (hOlder :
    ∀ update ∈ depthUpdate event, update.toDepthLevel = level → update.position ≤ row.position)
    (hRow : s.keyDepth.find? level = some row) :
    (handleDepthEvent event).Ensures s (fun _ t => t.keyDepth.find? level = some row)
      (fun _ => False) := by
  unfold depthUpdate at hOlder
  unfold handleDepthEvent processDepthUpdatedEvent
  split
  · rename_i hType
    rw [if_pos hType] at hOlder
    cases hParsed : parseDepthUpdatedEvent event with
    | error reason => exact hRow
    | ok update =>
      rw [hParsed] at hOlder
      rcases run_applyDepthUpdate update s with ⟨changed, t, hRun, hFind⟩
      have hApplied :
          (applyDepthUpdate update).Ensures s (fun _ t => t.keyDepth.find? level = some row)
            (fun _ => False) := by
        unfold Ensures
        rw [hRun]
        dsimp only
        rw [hFind]
        split
        · rename_i hLevel
          have hNot : ¬ update.newerThanStored row = true := by
            rw [newerThanStored_iff]
            rintro ⟨-, hLt⟩
            exact absurd (hOlder update rfl hLevel.symm) (not_le.mpr hLt)
          rw [hRow, ParsedDepthUpdate.levelAfter, if_neg hNot]
        · exact hRow
      exact hApplied.bind fun _ _ hKept => hKept
  · exact hRow

theorem ensures_first (hCarried : depthUpdate event = some update) :
    (handleDepthEvent event).Ensures .empty (fun _ t => t.keyDepth.find? update.toDepthLevel =
      some update.row) (fun _ => False) := by
  unfold depthUpdate at hCarried
  unfold handleDepthEvent processDepthUpdatedEvent
  split
  · rename_i hType
    rw [if_pos hType] at hCarried
    cases hParsed : parseDepthUpdatedEvent event with
    | error reason =>
      rw [hParsed] at hCarried
      cases hCarried
    | ok parsed =>
      rw [hParsed] at hCarried
      cases hCarried
      rcases run_applyDepthUpdate update .empty with ⟨changed, t, hRun, hFind⟩
      have hApplied : (applyDepthUpdate update).Ensures .empty (fun _ t =>
        t.keyDepth.find? update.toDepthLevel = some update.row)
        (fun _ => False) := by
        unfold Ensures
        rw [hRun]
        dsimp only
        rw [hFind, if_pos rfl]
        rfl
      exact hApplied.bind fun _ _ hCreated => hCreated
  · rename_i hType
    rw [if_neg hType] at hCarried
    cases hCarried

/- Alone, a batch that begins with a newest update keeps it. -/
theorem ensures_newestFirst (hEvent : event ∈ history.events)
    (hCarried : depthUpdate event = some update) (hNewest : history.IsNewest level update) :
    (processDepthUpdatedEvents (event :: history.events)).Ensures .empty
      (fun _ t => t.keyDepth.find? level = some update.row) (fun _ => False) := by
  have hSound : ∀ other ∈ event :: history.events,
      other ∈ history.events := by
    intro other hOther
    rcases List.mem_cons.mp hOther with rfl | hOther
    · exact hEvent
    · exact hOther
  have hHead := ensures_first hCarried
  rw [(mem_updates_iff.mp hNewest.1).2] at hHead
  refine hHead.bind ?_
  intro _ t hRow
  refine ensures_forEach ?_ hRow
  intro other hOther u hRow'
  refine ensures_handleDepthEvent ?_ hRow'
  intro otherUpdate hOtherUpdate hSame
  have hMem : other ∈ PipelineEvent.dedupe (event :: history.events) :=
    List.mem_cons_of_mem _ hOther
  rw [mem_dedupe_iff history.distinct hSound] at hMem
  apply hNewest.2
  exact mem_updates_iff.mpr ⟨List.mem_filterMap.mpr ⟨other, hSound other hMem, hOtherUpdate⟩, hSame⟩

/- One batch that begins with a newest update shows the tie. -/
theorem tiesCarryLatest_of_converges (hConverges : history.Converges) :
    history.TiesCarryLatest := by
  intro level latest update hLatest hNewest
  rcases List.mem_filterMap.mp (mem_updates_iff.mp hNewest.1).1 with ⟨event, hEvent, hCarried⟩
  have hEnsures := ensures_newestFirst hEvent hCarried hNewest
  have hStart : (writers [event :: history.events]).calls[0]? = some
      { program :=
          processDepthUpdatedEvents (event :: history.events)
        executed := 0
        crashed := false } := rfl
  rcases Pool.exists_run_alone .start hStart with ⟨labels, executed, hRun⟩
  unfold Ensures at hEnsures
  cases hAlone : (processDepthUpdatedEvents (event :: history.events)).run .empty with
  | mk result store =>
    rw [hAlone] at hEnsures
    cases result with
    | error e => exact absurd hEnsures id
    | ok a =>
      have hFinal : (processDepthUpdatedEvents (event :: history.events)).final .empty =
          store := by
        unfold Program.final
        rw [hAlone]
      have hEnded : (processDepthUpdatedEvents (event :: history.events)).ended .empty =
          .ret () := by
        unfold Program.ended
        rw [hAlone]
      have hDelivered : history.Delivered [event :: history.events]
          { store
            calls :=
              [{ program := .ret ()
                 executed
                 crashed := false }] } := by
        constructor
        · intro batch hBatch other hOther
          cases List.mem_singleton.mp hBatch
          rcases List.mem_cons.mp hOther with rfl | hOther
          · exact hEvent
          · exact hOther
        · intro other hOther
          exact ⟨0, _, _, rfl, List.mem_cons_of_mem _ hOther, rfl, rfl⟩
      have hSet : RunsTo Pool.attempt (fun _ _ => True) (writers [event :: history.events]) labels
          { store
            calls :=
              [{ program := .ret ()
                 executed
                 crashed := false }] } := by
        rw [← hFinal, ← hEnded]
        exact hRun
      rcases hConverges _ _ _ hSet hDelivered level latest hLatest with ⟨row, hRow, hVolume⟩
      rw [hEnsures] at hRow
      cases hRow
      exact hVolume

/- One transaction after another in a single ledger. -/
def depthEvent (txHash : String) (eventIndex : Nat) (volume : ℤ) : DepthUpdatedEvent where
  toIndexerChainEvent :=
    { bareEvent "DEPTH_UPDATED" txHash eventIndex 1 with creatorId := some "key" }
  payload :=
    { side := some "bid"
      price := .bigint 1
      volume := .bigint volume }

/-
  Over all deliveries of a history, whatever the order, the
  repetitions, the interleaving and the faults, each level ends
  with the volume of its latest update if and only if all its
  newest updates carry that volume.
-/
theorem depth_converges_iff (history : DepthHistory) :
    history.Converges ↔ history.TiesCarryLatest :=
  ⟨tiesCarryLatest_of_converges, converges_of_tiesCarryLatest⟩

/- The second transaction has the lower event index. -/
def twoTransactions : DepthHistory where
  events := [depthEvent "a" 5 7, depthEvent "b" 0 9]
  distinct := by decide
  txOrder txHash := if txHash = "a" then 0 else 1

def bidLevel : DepthLevel where
  creatorId := "key"
  side := .bid
  price := 1

def bidUpdate (txHash : String) (eventIndex : Nat) (volume : ℤ) : ParsedDepthUpdate where
  toDepthLevel := bidLevel
  volume := volume
  ledger := 1
  txHash := txHash
  eventIndex := eventIndex

/- The guard keeps what the first transaction has written. -/
theorem twoTransactions_diverges : ¬ twoTransactions.Converges := by
  intro hConverges
  have hUpdates : twoTransactions.updates bidLevel =
      [bidUpdate "a" 5 7, bidUpdate "b" 0 9] := by decide
  have hLatest : twoTransactions.IsLatest bidLevel (bidUpdate "b" 0 9) := by
    unfold IsLatest
    rw [hUpdates]
    decide
  have hNewest : twoTransactions.IsNewest bidLevel (bidUpdate "a" 5 7) := by
    unfold IsNewest
    rw [hUpdates]
    decide
  have hVolume := tiesCarryLatest_of_converges hConverges bidLevel _ _ hLatest hNewest
  exact absurd hVolume (by decide)

end DepthHistory

end Indexer

end AccessLayer
