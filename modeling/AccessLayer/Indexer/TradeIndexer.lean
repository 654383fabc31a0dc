import AccessLayer.Indexer.EventFields

/-
  Trades, bundle trades and the activity log
  (`src/modules/indexer/trade-indexer.service.ts`,
  `src/modules/indexer/bundle-trade-indexer.service.ts`,
  `src/modules/indexer/wallet-activity-sync.service.ts`).

  A field that is absent, null or the empty string is `none`, and
  so is a date or a number that does not parse.  What follows a
  new trade (rewards, caches) is left out.

  Main result: `indexedOnce_iff`
-/

-- Trades
----

namespace AccessLayer

namespace Indexer

namespace TradeIndexer

open Transactional Program

section

structure SorobanBuyEvent where
  buyer : Option String
  creatorId : Option String
  quantity : Option String
  price : Option String
  ledger : Option ℤ
  txHash : Option String
  timestamp : Option ℤ
  paymentAsset : Option String

structure Trade where
  buyer : String
  creatorId : String
  quantity : String
  price : String
  ledger : ℤ
  txHash : String
  timestamp : ℤ
  paymentAsset : String

instance : Keyed Trade (ℤ × String) where
  key row := (row.ledger, row.txHash)

/- The row of an event that has all required fields. -/
def validateEvent (event : SorobanBuyEvent) : Option Trade := do
  let buyer ← event.buyer
  let creatorId ← event.creatorId
  let quantity ← event.quantity
  let price ← event.price
  let ledger ← event.ledger
  let txHash ← event.txHash
  let timestamp ← event.timestamp
  pure {
    buyer
    creatorId
    quantity
    price
    ledger
    txHash
    timestamp
    paymentAsset := (textField event.paymentAsset).elim "XLM" String.toUpper }

-- Bundle Trades
----

/- A text and what `Number` makes of it, zero for no number. -/
structure PriceText where
  text : String
  number : ℚ

structure BundleItem where
  key : Option String
  amount : Option ℚ
  price : Option PriceText

/- An item that is no object is `none`. -/
structure BundleExecutedEvent where
  wallet : Option String
  totalCost : Option String
  itemCount : Option ℤ
  items : Option (List (Option BundleItem))
  ledger : Option ℤ
  txHash : Option String
  eventIndex : Nat
  timestamp : Option ℤ
  eventType : Option String

structure NormalizedBundleItem where
  key : String
  amount : ℚ
  price : PriceText

structure BundleTrade where
  wallet : String
  totalCost : String
  itemCount : ℤ
  items : List NormalizedBundleItem
  ledger : ℤ
  txHash : String
  timestamp : ℤ

instance : Keyed BundleTrade (ℤ × String) where
  key row := (row.ledger, row.txHash)

structure NormalizedBundleEvent extends BundleTrade where
  eventIndex : Nat

def normalizeBundleItem (item : BundleItem) : Option NormalizedBundleItem := do
  let key ← textField item.key
  let amount ← item.amount.filter (0 < ·)
  let price := item.price.getD ⟨"0", 0⟩
  pure {
    key
    amount
    price := { price with text := Governance.trim price.text } }

/- What an item costs; part of a unit is dropped. -/
def NormalizedBundleItem.cost (item : NormalizedBundleItem) : ℤ :=
  match Governance.parseBigInt item.price.text with
  | some price =>
    if item.amount.isInt then price * item.amount.num
    else ⌊item.price.number * item.amount⌋
  | none => ⌊item.price.number * item.amount⌋

def normalizeBundleEvent (event : BundleExecutedEvent) : Option NormalizedBundleEvent := do
  let wallet ← textField event.wallet
  let txHash ← textField event.txHash
  let ledger ← event.ledger
  let timestamp ← event.timestamp
  let rawItems ← event.items.filter (· ≠ [])
  let items ← rawItems.mapM (·.bind normalizeBundleItem)
  pure {
    wallet
    totalCost :=
      (textField event.totalCost).getD (toString (items.map NormalizedBundleItem.cost).sum)
    itemCount := event.itemCount.getD items.length
    items
    ledger
    txHash
    timestamp
    eventIndex := event.eventIndex }

def NormalizedBundleEvent.id (bundle : NormalizedBundleEvent) : String :=
  bundle.txHash ++ ":" ++ toString bundle.eventIndex

/- Whether an event is skipped, and what has been seen. -/
def guardChainEvent (id : String) (seen : List String) : Bool × List String :=
  if id ∈ seen then (true, seen) else (false, id :: seen)

-- Transfers and Burns
----

/- Without a time, the time of the write is taken. -/
structure TransferChainEvent where
  txHash : String
  eventIndex : Nat
  fromAddress : String
  toAddress : String
  keyId : String
  amount : ℚ
  timestamp : Option ℤ
  creatorName : Option String

structure BurnChainEvent where
  txHash : String
  eventIndex : Nat
  burnerAddress : String
  keyId : String
  amount : ℚ
  timestamp : Option ℤ
  creatorName : Option String

inductive ActivitySyncEvent where
  | transfer (event : TransferChainEvent)
  | burn (event : BurnChainEvent)

inductive ActivityLogType where
  | transferOut
  | transferIn
  | burn
  deriving DecidableEq

inductive ActivityLogPayload where
  | keysTransferred (source target : String) (amount : ℚ)
  | keysBurned (burner : String) (amount : ℚ)

structure ActivityLog where
  type : ActivityLogType
  actor : String
  target : Option String
  keyId : String
  creatorName : Option String
  amount : ℚ
  txHash : String
  timestamp : Option ℤ
  payload : ActivityLogPayload

instance : Keyed ActivityLog (String × String × ActivityLogType) where
  key row := (row.txHash, row.actor, row.type)

def TransferChainEvent.senderRecord (event : TransferChainEvent) : ActivityLog where
  type := .transferOut
  actor := event.fromAddress
  target := some event.toAddress
  keyId := event.keyId
  creatorName := event.creatorName
  amount := event.amount
  txHash := event.txHash
  timestamp := event.timestamp
  payload := .keysTransferred event.fromAddress event.toAddress event.amount

def TransferChainEvent.recipientRecord (event : TransferChainEvent) : ActivityLog where
  type := .transferIn
  actor := event.toAddress
  target := some event.fromAddress
  keyId := event.keyId
  creatorName := event.creatorName
  amount := event.amount
  txHash := event.txHash
  timestamp := event.timestamp
  payload := .keysTransferred event.fromAddress event.toAddress event.amount

def BurnChainEvent.burnerRecord (event : BurnChainEvent) : ActivityLog where
  type := .burn
  actor := event.burnerAddress
  target := none
  keyId := event.keyId
  creatorName := event.creatorName
  amount := event.amount
  txHash := event.txHash
  timestamp := event.timestamp
  payload := .keysBurned event.burnerAddress event.amount

-- Handlers
----

structure IndexDb where
  trade : Table Trade
  bundleTrade : Table BundleTrade
  activityLog : Table ActivityLog

abbrev IndexM := Program IndexDb IndexerError

def IndexDb.empty : IndexDb where
  trade := .empty
  bundleTrade := .empty
  activityLog := .empty

def createTrade (row : Trade) (db : IndexDb) : Except IndexerError (Unit × IndexDb) :=
  match db.trade.insert? row with
  | none => .error .uniqueViolation
  | some trade => .ok ((), { db with trade })

def processTradeEvent (event : SorobanBuyEvent) : IndexM Bool :=
  match validateEvent event with
  | none => pure false
  | some row => do
    let existing ← query .database fun db => db.trade.find? (key row)
    if existing.isSome then pure false
    else do
      execute .database (createTrade row)
      pure true

def createBundleTrade (row : BundleTrade) (db : IndexDb) : Except IndexerError (Bool × IndexDb) :=
  match db.bundleTrade.insert? row with
  | none => .error .uniqueViolation
  | some bundleTrade => .ok (true, { db with bundleTrade })

/- A failed lookup counts as none found. -/
def hasBundleTrade (row : BundleTrade) : IndexM Bool :=
  tryCatch (query .database fun db =>
    db.bundleTrade.rows.any fun stored => key stored = key row ∨ stored.txHash = row.txHash)
    (fun _ => pure false)

def persistBundleTrade (row : BundleTrade) : IndexM Bool := do
  let existing ← hasBundleTrade row
  if existing then pure false
  else
    tryCatch (execute .database (createBundleTrade row)) (fun error =>
      if error = .uniqueViolation then pure false
      else throw error)

/- Answers whether a bundle is new, and what has been seen. -/
def processBundleTradeEvent (event : BundleExecutedEvent) (seen : Option (List String)) :
    IndexM (Bool × Option (List String)) :=
  match normalizeBundleEvent event with
  | none => pure (false, seen)
  | some bundle =>
    match seen.map (guardChainEvent bundle.id) with
    | some (true, seen) => pure (false, some seen)
    | some (false, seen) => do
      let created ← persistBundleTrade bundle.toBundleTrade
      pure (created, some seen)
    | none => do
      let created ← persistBundleTrade bundle.toBundleTrade
      pure (created, none)

/- An event without a type is taken for a bundle. -/
def BundleExecutedEvent.isBundle (event : BundleExecutedEvent) : Bool :=
  event.eventType.all (· ∈ bundleEventTypes)

def processBundleTradeEventsFrom (seen : Option (List String)) (processed skipped : Nat) :
    List BundleExecutedEvent → IndexM (Nat × Nat)
  | [] => pure (processed, skipped)
  | event :: rest =>
    if event.isBundle then do
      let (ok, seen) ← processBundleTradeEvent event seen
      if ok then
        processBundleTradeEventsFrom seen (processed + 1) skipped rest
      else
        processBundleTradeEventsFrom seen processed (skipped + 1) rest
    else
      processBundleTradeEventsFrom seen processed skipped rest

def processBundleTradeEvents (events : List BundleExecutedEvent) : IndexM (Nat × Nat) :=
  processBundleTradeEventsFrom (some []) 0 0 events

/- After a failure, the operation is run again. -/
def executeWithRetry {α : Type} (operation : IndexM α) : Nat → IndexM α
  | 0 => operation
  | retries + 1 => tryCatch operation (fun _ => executeWithRetry operation retries)

/- A record that is there already is left as it is. -/
def logActivity (row : ActivityLog) (db : IndexDb) : Except IndexerError (ActivityLog × IndexDb) :=
  .ok ((db.activityLog.find? (key row)).getD row, { db with
        activityLog := db.activityLog.upsert row id (fun _ => rfl) })

def processTransferEvent (event : TransferChainEvent) :
    IndexM (Option (ActivityLog × ActivityLog)) :=
  tryCatch (executeWithRetry (do
    let senderRecord ← execute .database (logActivity event.senderRecord)
    let recipientRecord ← execute .database (logActivity event.recipientRecord)
    pure (some (senderRecord, recipientRecord))) 2)
    (fun _ => pure none)

def processBurnEvent (event : BurnChainEvent) : IndexM (Option ActivityLog) :=
  tryCatch (executeWithRetry (do
    let burnerRecord ← execute .database (logActivity event.burnerRecord)
    pure (some burnerRecord)) 2)
    (fun _ => pure none)

def handleActivitySyncEvent : ActivitySyncEvent → IndexM Unit
  | .transfer event => do
    let _ ← processTransferEvent event
  | .burn event => do
    let _ ← processBurnEvent event

-- What Is Indexed
----

inductive IndexedEvent where
  | trade (event : SorobanBuyEvent)
  | bundle (event : BundleExecutedEvent)
  | sync (event : ActivitySyncEvent)

/- The records that an event asks for, table by table. -/
def IndexedEvent.trades : IndexedEvent → List Trade
  | .trade event => (validateEvent event).toList
  | .bundle _ => []
  | .sync _ => []

def IndexedEvent.bundles : IndexedEvent → List BundleTrade
  | .trade _ => []
  | .bundle event => ((normalizeBundleEvent event).map NormalizedBundleEvent.toBundleTrade).toList
  | .sync _ => []

def IndexedEvent.activities : IndexedEvent → List ActivityLog
  | .trade _ => []
  | .bundle _ => []
  | .sync (.transfer event) => [event.senderRecord, event.recipientRecord]
  | .sync (.burn event) => [event.burnerRecord]

/- The rows of the three tables. -/
structure Indexed where
  trades : List Trade
  bundles : List BundleTrade
  activities : List ActivityLog

def IndexDb.indexed (db : IndexDb) : Indexed where
  trades := db.trade.rows
  bundles := db.bundleTrade.rows
  activities := db.activityLog.rows

/- Bundles are told apart by their transactions alone. -/
def Indexed.add (indexed : Indexed) (event : IndexedEvent) : Indexed where
  trades := event.trades.foldl (appendNew key) indexed.trades
  bundles := event.bundles.foldl (appendNew BundleTrade.txHash) indexed.bundles
  activities := event.activities.foldl (appendNew key) indexed.activities

/- A bundle event may come alone or in a batch. -/
inductive IndexerCall where
  | trade (event : SorobanBuyEvent)
  | bundle (event : BundleExecutedEvent)
  | bundles (events : List BundleExecutedEvent)
  | sync (event : ActivitySyncEvent)

def IndexerCall.process : IndexerCall → IndexM Unit
  | .trade event => do
    let _ ← processTradeEvent event
  | .bundle event => do
    let _ ← processBundleTradeEvent event none
  | .bundles events => do
    let _ ← processBundleTradeEvents events
  | .sync event => handleActivitySyncEvent event

def IndexerCall.events : IndexerCall → List IndexedEvent
  | .trade event => [.trade event]
  | .bundle event => [.bundle event]
  | .bundles events => (events.filter BundleExecutedEvent.isBundle).map .bundle
  | .sync event => [.sync event]

variable {db : IndexDb}

/- A program that cannot fail and indexes some events. -/
def Indexes {α : Type} (program : IndexM α) (db : IndexDb) (events : List IndexedEvent) : Prop :=
  program.Ensures db (fun _ t => t.indexed = events.foldl Indexed.add db.indexed) (fun _ => False)

theorem indexes_trade (event : SorobanBuyEvent) (db : IndexDb) :
    Indexes (processTradeEvent event) db [.trade event] := by
  have hAdd : [IndexedEvent.trade event].foldl Indexed.add db.indexed = { db.indexed with
          trades := (validateEvent event).toList.foldl (appendNew key) db.indexed.trades } := rfl
  unfold Indexes processTradeEvent
  rw [hAdd]
  cases validateEvent event with
  | none => exact ensures_pure rfl
  | some row =>
    apply ensures_query_bind
    change Ensures _ db (fun _ t => t.indexed = { db.indexed with
              trades := appendNew key db.trade.rows row }) (fun _ => False)
    cases hFound : db.trade.find? (key row) with
    | some stored =>
      have hOld : ¬ key row ∉ db.trade.rows.map key := by
        rw [← Table.find?_eq_none_iff, hFound]
        exact Option.some_ne_none stored
      rw [appendNew, if_pos (not_not.mp hOld)]
      exact ensures_pure rfl
    | none =>
      have hInsert : db.trade.insert? row = some (db.trade.create row hFound) :=
        Table.insert?_of_fresh hFound
      rw [appendNew, if_neg (Table.find?_eq_none_iff.mp hFound)]
      unfold Ensures createTrade
      simp [hInsert]
      rfl

theorem run_hasBundleTrade (row : BundleTrade) (db : IndexDb) :
    (hasBundleTrade row).run db = (.ok (decide (row.txHash ∈
      db.bundleTrade.rows.map BundleTrade.txHash)), db) := by
  change (Except.ok (db.bundleTrade.rows.any fun stored =>
    key stored = key row ∨ stored.txHash = row.txHash), db) =
    _
  congr 2
  rw [Bool.eq_iff_iff, List.any_eq_true, decide_eq_true_iff, List.mem_map]
  constructor
  · rintro ⟨stored, hStored, hSame⟩
    refine ⟨stored, hStored, ?_⟩
    rcases of_decide_eq_true hSame with hKey | hHash
    · exact congrArg Prod.snd hKey
    · exact hHash
  · rintro ⟨stored, hStored, hHash⟩
    exact ⟨stored, hStored, decide_eq_true (Or.inr hHash)⟩

theorem createBundleTrade_new {row : BundleTrade}
    (hNew : row.txHash ∉ db.bundleTrade.rows.map BundleTrade.txHash) :
    ∃ t, createBundleTrade row db = .ok (true, t) ∧ t.indexed = { db.indexed with
          bundles := db.bundleTrade.rows ++ [row] } := by
  unfold createBundleTrade
  cases hTable : db.bundleTrade.insert? row with
  | none =>
    rw [Table.insert?_eq_none_iff] at hTable
    rcases List.mem_map.mp hTable with ⟨stored, hStored, hKey⟩
    exact absurd (List.mem_map.mpr ⟨stored, hStored, congrArg Prod.snd hKey⟩) hNew
  | some table =>
    refine ⟨_, rfl, ?_⟩
    rw [← (Table.insert?_eq_some hTable).2]
    rfl

theorem ensures_persistBundleTrade (row : BundleTrade) (db : IndexDb) :
    (persistBundleTrade row).Ensures db (fun _ t => t.indexed = { db.indexed with
            bundles := appendNew BundleTrade.txHash db.bundleTrade.rows row })
      (fun _ => False) := by
  unfold Ensures persistBundleTrade
  rw [run_bind, run_hasBundleTrade, appendNew]
  by_cases hOld : row.txHash ∈ db.bundleTrade.rows.map BundleTrade.txHash
  · rw [if_pos hOld]
    simp [hOld]
    rfl
  · rcases createBundleTrade_new hOld with ⟨t, hCreate, hShown⟩
    rw [if_neg hOld, ← hShown]
    simp [hOld, hCreate]

def SeenStored (seen : Option (List String)) (db : IndexDb) : Prop :=
  ∀ ids ∈ seen, ∀ bundle : NormalizedBundleEvent, bundle.id ∈ ids → bundle.txHash ∈
    db.bundleTrade.rows.map BundleTrade.txHash

theorem add_bundle (event : BundleExecutedEvent) (indexed : Indexed) :
    indexed.add (.bundle event) = { indexed with
        bundles :=
          ((normalizeBundleEvent event).map NormalizedBundleEvent.toBundleTrade).toList.foldl
            (appendNew BundleTrade.txHash) indexed.bundles } := rfl

theorem add_seen {event : BundleExecutedEvent} {bundle : NormalizedBundleEvent}
    (hBundle : normalizeBundleEvent event = some bundle)
    (hStored : bundle.txHash ∈ db.bundleTrade.rows.map BundleTrade.txHash) :
    db.indexed.add (.bundle event) = db.indexed := by
  rw [add_bundle, hBundle]
  change { db.indexed with
      bundles :=
        appendNew BundleTrade.txHash db.bundleTrade.rows bundle.toBundleTrade } = db.indexed
  rw [appendNew, if_pos hStored]
  rfl

variable {seen : Option (List String)}

theorem ensures_processBundleTradeEvent (event : BundleExecutedEvent) (hSeen : SeenStored seen db) :
    (processBundleTradeEvent event seen).Ensures db (fun result t =>
      t.indexed = db.indexed.add (.bundle event) ∧ SeenStored result.2 t) (fun _ => False) := by
  unfold processBundleTradeEvent
  cases hBundle : normalizeBundleEvent event with
  | none =>
    apply ensures_pure
    refine ⟨?_, hSeen⟩
    rw [add_bundle, hBundle]
    rfl
  | some bundle =>
    have hAdd : db.indexed.add (.bundle event) = { db.indexed with
            bundles :=
              appendNew BundleTrade.txHash
                db.bundleTrade.rows bundle.toBundleTrade } := by
      rw [add_bundle, hBundle]
      rfl
    have hPersist := ensures_persistBundleTrade bundle.toBundleTrade db
    rw [← hAdd] at hPersist
    cases seen with
    | none =>
      refine hPersist.bind ?_
      intro created t hShown
      exact ensures_pure ⟨hShown, fun _ hNone => nomatch hNone⟩
    | some ids =>
      by_cases hOld : bundle.id ∈ ids
      · have hStored := hSeen ids rfl bundle hOld
        simp only [Option.map_some, guardChainEvent, if_pos hOld]
        exact ensures_pure ⟨(add_seen hBundle hStored).symm, hSeen⟩
      · simp only [Option.map_some, guardChainEvent, if_neg hOld]
        refine hPersist.bind ?_
        intro created t hShown
        refine ensures_pure ⟨hShown, ?_⟩
        intro ids' hIds other hOther
        cases hIds
        have hRows : t.bundleTrade.rows = appendNew BundleTrade.txHash
            db.bundleTrade.rows bundle.toBundleTrade := by
          rw [hAdd] at hShown
          exact congrArg Indexed.bundles hShown
        rw [hRows, mem_map_appendNew]
        rcases List.mem_cons.mp hOther with hSame | hOther
        · exact Or.inl (txHash_of_id hSame)
        · exact Or.inr (hSeen ids rfl other hOther)

theorem indexes_bundle (event : BundleExecutedEvent) (db : IndexDb) :
    Indexes (processBundleTradeEvent event none) db [.bundle event] := by
  have hSeen : SeenStored none db := fun _ hNone => nomatch hNone
  refine (ensures_processBundleTradeEvent event hSeen).imp ?_ fun _ => id
  exact fun _ _ hEnd => hEnd.1

theorem indexes_bundlesFrom (events : List BundleExecutedEvent) {processed skipped : Nat}
    (hSeen : SeenStored seen db) :
    Indexes (processBundleTradeEventsFrom seen processed skipped events) db
      ((events.filter BundleExecutedEvent.isBundle).map .bundle) := by
  induction events generalizing seen processed skipped db with
  | nil => exact ensures_pure rfl
  | cons event rest ih =>
    unfold processBundleTradeEventsFrom
    cases hType : event.isBundle with
    | false =>
      rw [if_neg Bool.false_ne_true, List.filter_cons_of_neg (by simp [hType])]
      exact ih hSeen
    | true =>
      rw [if_pos rfl, List.filter_cons_of_pos hType]
      refine (ensures_processBundleTradeEvent event hSeen).bind ?_
      rintro ⟨ok, seen'⟩ t ⟨hShown, hSeen'⟩
      rw [List.map_cons, List.foldl_cons, ← hShown]
      dsimp only
      split
      · exact ih hSeen'
      · exact ih hSeen'

/- Records that are stored already are left as they are. -/
theorem rows_logActivity (row : ActivityLog) (db : IndexDb) :
    ∃ stored t, logActivity row db = .ok (stored, t) ∧ t.indexed = { db.indexed with
          activities := appendNew key db.activityLog.rows row } := by
  refine ⟨_, _, rfl, ?_⟩
  have hRows : (db.activityLog.upsert row id (fun _ => rfl)).rows =
      appendNew key db.activityLog.rows row := by
    unfold Table.upsert appendNew
    split
    · rename_i hFresh
      rw [if_neg (Table.find?_eq_none_iff.mp hFresh)]
      rfl
    · rename_i hStored
      rw [Table.find?_eq_none_iff, not_not] at hStored
      rw [if_pos hStored]
      unfold Table.update Table.updateMany
      simp
  unfold IndexDb.indexed
  rw [← hRows]

/- With no failure, the first attempt is the last. -/
theorem ensures_executeWithRetry {α : Type} {operation : IndexM α} {Q : α → IndexDb → Prop}
    (hOperation : operation.Ensures db Q (fun _ => False)) :
    ∀ retries, (executeWithRetry operation retries).Ensures db Q (fun _ => False)
  | 0 => hOperation
  | _ + 1 => hOperation.tryCatch fun _ _ hNever => absurd hNever id

theorem ensures_logActivity (row : ActivityLog) (db : IndexDb) :
    (execute .database (logActivity row) :
      IndexM ActivityLog).Ensures db (fun _ t => t.indexed = { db.indexed with
              activities := appendNew key db.activityLog.rows row })
        (fun _ => False) := by
  rcases rows_logActivity row db with ⟨stored, t, hLog, hShown⟩
  unfold Ensures
  rw [run_execute, hLog]
  exact hShown

theorem indexes_sync (event : ActivitySyncEvent) (db : IndexDb) :
    Indexes (handleActivitySyncEvent event) db [.sync event] := by
  cases event with
  | transfer event =>
    have hWrites : Ensures (do
      let senderRecord ← execute .database (logActivity event.senderRecord)
      let recipientRecord ← execute .database (logActivity event.recipientRecord)
      pure (some (senderRecord, recipientRecord)) :
        IndexM (Option (ActivityLog × ActivityLog)))
      db
      (fun _ t => t.indexed = db.indexed.add (.sync (.transfer event)))
      (fun _ => False) := by
      refine (ensures_logActivity _ db).bind ?_
      intro sender t hSender
      refine (ensures_logActivity _ t).bind ?_
      intro recipient u hRecipient
      apply ensures_pure
      have hRows : t.activityLog.rows = appendNew key db.activityLog.rows
          event.senderRecord :=
        congrArg Indexed.activities hSender
      rw [hRecipient, hSender, hRows]
      rfl
    refine ((ensures_executeWithRetry hWrites 2).tryCatch
      fun _ _ hNever => absurd hNever id).bind ?_
    exact fun _ _ hShown => hShown
  | burn event =>
    have hWrites : Ensures (do
      let burnerRecord ← execute .database (logActivity event.burnerRecord)
      pure (some burnerRecord) : IndexM (Option ActivityLog))
      db
      (fun _ t => t.indexed = db.indexed.add (.sync (.burn event)))
      (fun _ => False) := by
      refine (ensures_logActivity _ db).bind ?_
      exact fun _ _ hShown => hShown
    refine ((ensures_executeWithRetry hWrites 2).tryCatch
      fun _ _ hNever => absurd hNever id).bind ?_
    exact fun _ _ hShown => hShown

theorem IndexerCall.run_index (call : IndexerCall) (db : IndexDb) :
    Indexes call.process db call.events := by
  cases call with
  | trade event => exact (indexes_trade event db).bind fun _ _ hEnd => hEnd
  | bundle event => exact (indexes_bundle event db).bind fun _ _ hEnd => hEnd
  | bundles events =>
    have hSeen : SeenStored (some []) db := by
      intro ids hIds bundle hBundle
      cases hIds
      cases hBundle
    exact (indexes_bundlesFrom events hSeen).bind fun _ _ hEnd => hEnd
  | sync event => exact indexes_sync event db

/- The store after some calls, one after another. -/
def indexAll (calls : List IndexerCall) : IndexDb :=
  (forEach IndexerCall.process calls).final .empty

theorem indexes_forEach (calls : List IndexerCall) (db : IndexDb) :
    Indexes (forEach IndexerCall.process calls) db (calls.flatMap IndexerCall.events) := by
  induction calls generalizing db with
  | nil => exact ensures_pure rfl
  | cons call rest ih =>
    refine (call.run_index db).bind ?_
    intro _ t hShown
    rw [List.flatMap_cons, List.foldl_append, ← hShown]
    exact ih t

end

-- Indexed Exactly Once
----

theorem foldl_add (events : List IndexedEvent) (indexed : Indexed) :
    events.foldl Indexed.add indexed =
      { trades := (events.flatMap IndexedEvent.trades).foldl (appendNew key) indexed.trades
        bundles :=
          (events.flatMap IndexedEvent.bundles).foldl (appendNew BundleTrade.txHash) indexed.bundles
        activities := (events.flatMap IndexedEvent.activities).foldl (appendNew key)
          indexed.activities } := by
  induction events generalizing indexed with
  | nil => rfl
  | cons event rest ih =>
    rw [List.foldl_cons, ih]
    simp only [List.flatMap_cons, List.foldl_append]
    rfl

theorem indexed_indexAll (calls : List IndexerCall) :
    (indexAll calls).indexed =
      { trades := firsts key ((calls.flatMap IndexerCall.events).flatMap IndexedEvent.trades)
        bundles := firsts BundleTrade.txHash
          ((calls.flatMap IndexerCall.events).flatMap IndexedEvent.bundles)
        activities := firsts key
          ((calls.flatMap IndexerCall.events).flatMap IndexedEvent.activities) } := by
  have hFinal : (indexAll calls).indexed = (calls.flatMap IndexerCall.events).foldl Indexed.add
      IndexDb.empty.indexed := by
    refine Ensures.final (E := fun t : IndexDb => t.indexed =
      (calls.flatMap IndexerCall.events).foldl Indexed.add IndexDb.empty.indexed) ?_
    refine (indexes_forEach calls .empty).imp (fun _ _ => id) ?_
    exact fun _ hNever => absurd hNever id
  rw [hFinal, foldl_add]
  simp only [IndexDb.empty, IndexDb.indexed, Table.empty, foldl_appendNew]
  rfl

/- The calls deliver these events, in any order, repeatedly. -/
def Delivers (calls : List IndexerCall) (events : List IndexedEvent) : Prop :=
  ∀ event, event ∈ calls.flatMap IndexerCall.events ↔ event ∈ events

/- However the events are delivered, the tables hold the records of each event exactly once. -/
def IndexedOnce (events : List IndexedEvent) : Prop :=
  ∀ calls, Delivers calls events → ((indexAll calls).trade.rows.Perm
    (events.flatMap IndexedEvent.trades) ∧ (indexAll calls).bundleTrade.rows.Perm
    (events.flatMap IndexedEvent.bundles) ∧ (indexAll calls).activityLog.rows.Perm
    (events.flatMap IndexedEvent.activities))

/- No two records collide in what their table compares. -/
structure KeysDistinct (events : List IndexedEvent) : Prop where
  trades : ((events.flatMap IndexedEvent.trades).map fun row => (row.ledger, row.txHash)).Nodup
  bundles : ((events.flatMap IndexedEvent.bundles).map BundleTrade.txHash).Nodup
  activities : ((events.flatMap IndexedEvent.activities).map
    fun row => (row.txHash, row.actor, row.type)).Nodup

variable {calls : List IndexerCall} {events : List IndexedEvent}

theorem mem_flatMap_of_delivers {β : Type} (hDelivers : Delivers calls events)
    (records : IndexedEvent → List β) (x : β) :
    x ∈ (calls.flatMap IndexerCall.events).flatMap records ↔ x ∈ events.flatMap records := by
  rw [List.mem_flatMap, List.mem_flatMap]
  constructor
  · rintro ⟨event, hEvent, hx⟩
    exact ⟨event, (hDelivers event).mp hEvent, hx⟩
  · rintro ⟨event, hEvent, hx⟩
    exact ⟨event, (hDelivers event).mpr hEvent, hx⟩

theorem perm_indexAll_iff (hDelivers : Delivers calls events) :
    ((indexAll calls).trade.rows.Perm (events.flatMap IndexedEvent.trades) ∧
      (indexAll calls).bundleTrade.rows.Perm (events.flatMap IndexedEvent.bundles) ∧
      (indexAll calls).activityLog.rows.Perm (events.flatMap IndexedEvent.activities)) ↔
      KeysDistinct events := by
  have hIndexed := indexed_indexAll calls
  have hTrades := congrArg Indexed.trades hIndexed
  have hBundles := congrArg Indexed.bundles hIndexed
  have hActivities := congrArg Indexed.activities hIndexed
  have hSame (β : Type) (records : IndexedEvent → List β) :=
    mem_flatMap_of_delivers hDelivers records
  dsimp only [IndexDb.indexed] at hTrades hBundles hActivities
  rw [hTrades, hBundles, hActivities, firsts_perm_iff (hSame _ _),
    firsts_perm_iff (hSame _ _), firsts_perm_iff (hSame _ _)]
  constructor
  · rintro ⟨hTrade, hBundle, hActivity⟩
    exact ⟨hTrade, hBundle, hActivity⟩
  · rintro ⟨hTrade, hBundle, hActivity⟩
    exact ⟨hTrade, hBundle, hActivity⟩

def IndexedEvent.call : IndexedEvent → IndexerCall
  | .trade event => .trade event
  | .bundle event => .bundle event
  | .sync event => .sync event

theorem delivers_calls (events : List IndexedEvent) :
    Delivers (events.map IndexedEvent.call) events := by
  intro event
  have hEvents : (events.map IndexedEvent.call).flatMap
      IndexerCall.events = events := by
    rw [List.flatMap_map]
    have hOne : (fun event : IndexedEvent => event.call.events) =
        fun event => [event] := by
      funext event
      cases event <;> rfl
    rw [hOne, List.flatMap_singleton']
  rw [hEvents]

/-
  Events are indexed exactly once, in whatever order and however
  often they are delivered, if and only if no two trades share
  ledger and transaction, no two bundles a transaction, and no
  two activities transaction, wallet and type.
-/
theorem indexedOnce_iff (events : List IndexedEvent) :
    IndexedOnce events ↔ KeysDistinct events := by
  constructor
  · intro hOnce
    rw [← perm_indexAll_iff (delivers_calls events)]
    exact hOnce _ (delivers_calls events)
  · intro hDistinct calls hDelivers
    exact (perm_indexAll_iff hDelivers).mpr hDistinct

def bundleEvent (wallet : String) (eventIndex : Nat) : BundleExecutedEvent where
  wallet := some wallet
  totalCost := some "5"
  itemCount := none
  items :=
    some [some
      { key := some "key"
        amount := some 1
        price := some ⟨"5", 5⟩ }]
  ledger := some 7
  txHash := some "tx"
  eventIndex := eventIndex
  timestamp := some 0
  eventType := some "BundleExecuted"

/- Two wallets buy a bundle each in one transaction. -/
def twoBundles : List IndexedEvent := [.bundle (bundleEvent "a" 0), .bundle (bundleEvent "b" 1)]

/- The second bundle is taken for the first. -/
theorem twoBundles_not_indexedOnce : ¬ IndexedOnce twoBundles := by
  intro hOnce
  have hDistinct :=
    (perm_indexAll_iff (delivers_calls twoBundles)).mp (hOnce _ (delivers_calls twoBundles))
  have hHashes : (twoBundles.flatMap IndexedEvent.bundles).map
      BundleTrade.txHash = ["tx", "tx"] := by decide
  have hBundles := hDistinct.bundles
  rw [hHashes] at hBundles
  exact absurd hBundles (by decide)

end TradeIndexer

end Indexer

end AccessLayer
