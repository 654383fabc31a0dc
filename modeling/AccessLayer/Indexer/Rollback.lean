import AccessLayer.Indexer.LedgerIngestion
import AccessLayer.Indexer.Pipeline

/-
  Rolling ledgers back
  (`src/modules/indexer/reorg-guard.service.ts`).

  One transaction reverses what the ledgers after a fork point
  wrote.  Rows of one table are in the order of their ids.

  Main declaration: `rollbackToLedger`
-/

-- Replayed Positions
----

namespace AccessLayer

namespace Indexer

open Transactional

/- What the history of a wallet and a key adds up to. -/
structure ReplayedPosition where
  balance : ℚ
  costBasis : ℚ
  realisedPnl : ℚ
  lastBuyAt : Option Int
  deriving DecidableEq

def ReplayedPosition.flat : ReplayedPosition where
  balance := 0
  costBasis := 0
  realisedPnl := 0
  lastBuyAt := none

/- The price of an activity in XLM, never negative. -/
def Activity.pricePerKeyXlm (activity : Activity) : ℚ :=
  max 0 (Doubles.div (activity.payload.priceAtTrade?.getD 0) 10000000)

/- Sales that the balance does not cover only reduce it. -/
def ReplayedPosition.apply (position : ReplayedPosition) (activity : Activity) : ReplayedPosition :=
  let amount := activity.payload.amount?.getD 0
  if amount = 0 then position
  else if activity.type = .keyBought then
    { position with
      balance := Doubles.add position.balance amount
      costBasis :=
        costBasisAfterPurchase position.balance position.costBasis amount activity.pricePerKeyXlm
      lastBuyAt := some activity.createdAt }
  else if position.balance < amount then
    { position with balance := Doubles.sub position.balance amount }
  else
    { position with
      balance := Doubles.sub position.balance amount
      costBasis := computeCostBasisAfterSale position.costBasis position.balance amount
      realisedPnl :=
        Doubles.add position.realisedPnl (computeRealisedPnlForSale position.costBasis
          activity.pricePerKeyXlm amount) }

/- The trades of a wallet and a key, the oldest first. -/
def TradeDb.historyOf (db : TradeDb) (ownerAddress creatorId : String) : List Activity :=
  ((db.tradesOf creatorId).filter fun activity =>
    activity.actor = ownerAddress).insertionSort fun a b => a.createdAt ≤ b.createdAt

def KeyOwnership.rebuilt (position : ReplayedPosition) (row : KeyOwnership) : KeyOwnership :=
  { row with
    balance := position.balance
    costBasis := some position.costBasis
    realisedPnl := some position.realisedPnl
    lastBuyAt := position.lastBuyAt }

theorem key_rebuilt (position : ReplayedPosition) (row : KeyOwnership) :
    key (row.rebuilt position) = key row := rfl

/- Fields that are not derived from trades are preserved. -/
def rebuildOwnershipPosition (db : TradeDb) (ownerAddress creatorId : String) : TradeDb :=
  let activities := db.historyOf ownerAddress creatorId
  let position := activities.foldl ReplayedPosition.apply .flat
  if db.keyOwnership.find? (ownerAddress, creatorId) = none ∧ activities = [] then db
  else
    db.upsertOwnership ((KeyOwnership.opened ownerAddress creatorId 0).rebuilt position)
      (.rebuilt position) (key_rebuilt position)

-- Reversal of the Trade Tables
----

def earliest : List Int → Option Int
  | [] => none
  | time :: rest => some (rest.foldl min time)

def deleteTradeHistory (forkPoint : Int) (db : TradeDb) : TradeDb :=
  { db with
    activity :=
      db.activity.filter fun activity => !(activity.type.isTrade &&
        activity.payload.ledgerSequence?.any (fun ledger => forkPoint < ledger))
    trade := db.trade.filter fun trade => !(forkPoint < trade.ledger) }

/- The newest entry of a key, the last of equal times. -/
def latestPrice (history : List CreatorPriceHistory)
    (creatorId : String) : Option CreatorPriceHistory :=
  (history.filter fun entry => entry.creatorId = creatorId).foldl (fun latest entry =>
    match latest with
    | some best =>
      if best.recordedAt ≤ entry.recordedAt then
        some entry
      else some best
    | none => some entry)
    none

def CreatorPriceSnapshot.restoredTo (latest : CreatorPriceHistory)
    (row : CreatorPriceSnapshot) : CreatorPriceSnapshot :=
  { row with
    currentPrice := latest.price
    lastTradeAt := some latest.recordedAt }

theorem key_restoredTo (latest : CreatorPriceHistory) (row : CreatorPriceSnapshot) :
    key (row.restoredTo latest) = key row := rfl

/- The price of a day ago is left as it is. -/
def restorePrices (reorgedEvents : List IngestedEvent) (db : TradeDb)
    (creatorId : String) : TradeDb :=
  let history :=
    match earliest ((reorgedEvents.filter fun event => event.creatorId = some creatorId).filterMap
      IngestedEvent.tradeAt) with
    | some earliestReorgedTradeAt =>
      db.creatorPriceHistory.filter fun entry => !(entry.creatorId = creatorId &&
        earliestReorgedTradeAt ≤ entry.recordedAt)
    | none => db.creatorPriceHistory
  { db with
    creatorPriceHistory := history
    creatorPriceSnapshot :=
      match latestPrice history creatorId with
      | some latest =>
        db.creatorPriceSnapshot.upsert
          { creatorId
            currentPrice := latest.price
            price24hAgo := latest.price
            lastTradeAt := some latest.recordedAt } (.restoredTo latest) (key_restoredTo latest)
      | none => db.creatorPriceSnapshot.deleteMany fun row => row.creatorId = creatorId }

/- Drop the snapshots of the reorged trades, then replay. -/
def restorePosition (reorgedEvents : List IngestedEvent) (db : TradeDb)
    (pair : String × String) : TradeDb :=
  let snapshots :=
    match earliest ((reorgedEvents.filter fun event => event.actor = some pair.1 &&
      event.creatorId = some pair.2).filterMap IngestedEvent.tradeAt) with
    | some earliestPairTradeAt =>
      db.walletHoldingSnapshot.filter fun row => !(row.ownerAddress = pair.1 &&
        row.creatorId = pair.2 && earliestPairTradeAt ≤ row.recordedAt)
    | none => db.walletHoldingSnapshot
  rebuildOwnershipPosition { db with walletHoldingSnapshot := snapshots } pair.1 pair.2

/- The supply is folded again from the surviving trades. -/
def restoreSupply (config : IndexerConfig) (db : TradeDb)
    (creatorId : String) : Except IndexerError TradeDb :=
  let supply := db.activitySupply creatorId
  match db.creatorProfile.find? creatorId with
  | some _ => .ok (db.setSupply creatorId supply (getTierForSupply config.milestones supply))
  | none => .error .recordNotFound

-- Rollback
----

structure Database where
  trade : TradeDb
  chain : ChainDb

def reorgedEventsOf (forkPoint : Int) (chain : ChainDb) : List IngestedEvent :=
  chain.ingestedEvent.rows.filter fun event => forkPoint < event.ledgerSequence &&
    event.status = .confirmed

def affectedCreators (reorgedEvents : List IngestedEvent) : List String :=
  (reorgedEvents.filterMap fun event => present event.creatorId).eraseDups

/- Pairs are told apart by the text `actor:creatorId`. -/
def setPair (pairs : List (String × (String × String))) (pair : String × String) :
    List (String × (String × String)) :=
  let name := pair.1 ++ ":" ++ pair.2
  if name ∈ pairs.map Prod.fst then
    pairs.map fun entry =>
      if entry.1 = name then (name, pair) else entry
  else pairs ++ [(name, pair)]

/- The wallets and keys of the reorged trades. -/
def affectedPairs (reorgedEvents : List IngestedEvent) : List (String × String) :=
  ((reorgedEvents.filterMap fun event =>
    if event.eventType = "KEY_BOUGHT" ∨ event.eventType = "KEY_SOLD" then
      match present event.actor, present event.creatorId with
      | some actor, some creatorId => some (actor, creatorId)
      | _, _ => none
    else none).foldl setPair []).map Prod.snd

/- What is restored in the trade tables. -/
def rollbackTrades (config : IndexerConfig) (forkPoint : Int) (reorgedEvents : List IngestedEvent)
    (db : TradeDb) : Except IndexerError TradeDb :=
  let creators := affectedCreators reorgedEvents
  let priced := creators.foldl (restorePrices reorgedEvents) (deleteTradeHistory forkPoint db)
  let replayed := (affectedPairs reorgedEvents).foldl (restorePosition reorgedEvents) priced
  creators.foldlM (restoreSupply config) replayed

def IngestedEvent.markReorged (now : Int) (row : IngestedEvent) : IngestedEvent :=
  { row with status := .reorged, reorgedAt := some now }

theorem key_markReorged (now : Int) (row : IngestedEvent) :
    key (row.markReorged now) = key row := rfl

/- What is restored in the chain tables. -/
def rollbackChain (config : IndexerConfig) (forkPoint : Int) (chain : ChainDb) : ChainDb where
  ingestedEvent :=
    chain.ingestedEvent.updateMany (fun event => forkPoint < event.ledgerSequence &&
      event.status = .confirmed) (.markReorged config.now) (key_markReorged config.now)
  ledgerCheckpoint := chain.ledgerCheckpoint.deleteMany fun row => forkPoint < row.ledger

structure RollbackCounts where
  reorgedLedgerCount : Nat
  affectedEventCount : Nat

/- Either the whole rollback lands or none of it does. -/
def rollbackToLedger (config : IndexerConfig) (forkPoint : Int) (db : Database) :
    Except IndexerError (RollbackCounts × Database) := do
  let reorgedEvents := reorgedEventsOf forkPoint db.chain
  let trade ← rollbackTrades config forkPoint reorgedEvents db.trade
  pure
    ({ reorgedLedgerCount :=
         (db.chain.ledgerCheckpoint.rows.filter fun row => forkPoint < row.ledger).length
       affectedEventCount := reorgedEvents.length },
      { trade
        chain := rollbackChain config forkPoint db.chain })

theorem rollbackToLedger_chain {config : IndexerConfig} {forkPoint : Int} {db db' : Database}
    {counts : RollbackCounts} (hOk : rollbackToLedger config forkPoint db = .ok (counts, db')) :
    db'.chain = rollbackChain config forkPoint db.chain := by
  unfold rollbackToLedger at hOk
  cases hTrade : rollbackTrades config forkPoint (reorgedEventsOf forkPoint db.chain) db.trade with
  | error e =>
    simp only [hTrade, bind, Except.bind] at hOk
    cases hOk
  | ok trade =>
    simp only [hTrade, bind, Except.bind] at hOk
    cases hOk
    rfl

end Indexer

end AccessLayer
