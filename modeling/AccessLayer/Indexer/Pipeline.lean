import AccessLayer.Indexer.Ownership
import Mathlib.Algebra.Order.Round
import Mathlib.Data.Rat.Floor

/-
  The trade pipeline
  (`src/modules/indexer/indexer-pipeline.service.ts` and the
  services it calls).

  Each event makes several writes of its own; nothing joins
  them into one transaction.  Cache invalidations, alerts,
  broadcasts and logs are left out.

  Main declaration: `processTradeEvents`
-/

-- Circulating Supply
----

namespace AccessLayer

namespace Indexer

open Transactional Program

structure Milestone where
  tier : Int
  threshold : ℚ

def defaultMilestones : List Milestone :=
  [{ tier := 1, threshold := 10 }, { tier := 2, threshold := 100 },
   { tier := 3, threshold := 1000 }, { tier := 4, threshold := 10000 }]

/- The loop stops at the first threshold not reached. -/
def tierFrom (tier : Int) (supply : ℚ) : List Milestone → Int
  | [] => tier
  | milestone :: rest =>
    if milestone.threshold ≤ supply then
      tierFrom (if 0 < milestone.tier then milestone.tier else tier) supply rest
    else tier

def getTierForSupply (milestones : List Milestone) (supply : ℚ) : Int :=
  tierFrom 0 supply milestones

/- The settings and the clock of an indexer. -/
structure IndexerConfig where
  milestones : List Milestone
  referralRewardBps : Nat
  now : Int

/-
  What an activity adds to the supply of its creator.  To
  subtract a number is to add its negative.
-/
def Activity.supplyChange (activity : Activity) : ℚ :=
  let amount := activity.payload.amount?.getD 0
  if activity.type = .keyBought then amount else -amount

def TradeDb.tradesOf (db : TradeDb) (creatorId : String) : List Activity :=
  db.activity.filter fun activity => activity.creatorId = some creatorId && activity.type.isTrade

/- The changes are added up as numbers, in the order of the rows. -/
def TradeDb.activitySupply (db : TradeDb) (creatorId : String) : ℚ :=
  ((db.tradesOf creatorId).map Activity.supplyChange).foldl Doubles.add 0

def CreatorProfile.withSupply (circulatingSupply : ℚ) (currentMilestone : Int)
    (row : CreatorProfile) : CreatorProfile :=
  { row with circulatingSupply, currentMilestone }

theorem key_withSupply (circulatingSupply : ℚ) (currentMilestone : Int) (row : CreatorProfile) :
    key (row.withSupply circulatingSupply currentMilestone) = key row := rfl

def TradeDb.setSupply (db : TradeDb) (creatorId : String) (circulatingSupply : ℚ)
    (currentMilestone : Int) : TradeDb :=
  { db with
    creatorProfile :=
      db.creatorProfile.update creatorId (.withSupply circulatingSupply currentMilestone)
        (key_withSupply circulatingSupply currentMilestone) }

/- One transaction of `persistCirculatingSupply`. -/
def recomputeSupply (config : IndexerConfig) (creatorId : String)
    (db : TradeDb) : Except IndexerError (ℚ × TradeDb) :=
  let supply := db.activitySupply creatorId
  let newMilestone := getTierForSupply config.milestones supply
  match db.creatorProfile.find? creatorId with
  | none => .error .recordNotFound
  | some oldCreator =>
    let db' := db.setSupply creatorId supply newMilestone
    if newMilestone = oldCreator.currentMilestone then
      .ok (supply, db')
    else
      match ActivityType.ofName "MILESTONE_CROSSED" with
      | some type =>
        .ok (supply, { db' with
              activity :=
                db'.activity ++
                  [{ type
                     actor := "system"
                     creatorId := some creatorId
                     payload := .other
                     createdAt := config.now }] })
      -- the enumeration has no such member
      | none => .error (.invalidEnumValue "MILESTONE_CROSSED")

/-
  `MILESTONE_CROSSED` is never written: the supply of a creator
  can be persisted only while its tier stays the same.
-/
theorem recomputeSupply_eq_ok_iff {config : IndexerConfig} {creatorId : String} {db db' : TradeDb}
    {supply : ℚ} :
    recomputeSupply config creatorId db = .ok (supply, db') ↔ ∃ row,
      db.creatorProfile.find? creatorId = some row ∧ getTierForSupply config.milestones
        (db.activitySupply creatorId) = row.currentMilestone ∧
      supply = db.activitySupply creatorId ∧ db' = db.setSupply creatorId supply
        row.currentMilestone := by
  have hUnknown : ActivityType.ofName "MILESTONE_CROSSED" = none := by decide
  simp only [recomputeSupply, hUnknown]
  cases hRow : db.creatorProfile.find? creatorId with
  | none => simp
  | some row =>
    by_cases hTier :
      getTierForSupply config.milestones (db.activitySupply creatorId) = row.currentMilestone
    · simp only [hTier, if_true, Except.ok.injEq, Prod.mk.injEq, Option.some.injEq]
      constructor
      · rintro ⟨rfl, rfl⟩
        exact ⟨row, rfl, rfl, rfl, rfl⟩
      · rintro ⟨row', rfl, -, rfl, rfl⟩
        exact ⟨rfl, rfl⟩
    · simp only [hTier, if_false, Option.some.injEq]
      constructor
      · intro h
        cases h
      · rintro ⟨row', rfl, hSame, -, -⟩
        exact absurd hSame hTier

/- Up to `attempts + 1` attempts; the last error is thrown. -/
def persistSupplyWithin (config : IndexerConfig) (creatorId : String) : Nat → IndexerM ℚ
  | 0 => writeDb (recomputeSupply config creatorId)
  | attempts + 1 =>
    tryCatch (writeDb (recomputeSupply config creatorId))
      (fun _ => persistSupplyWithin config creatorId attempts)

def persistCirculatingSupply (config : IndexerConfig) (creatorId : String) : IndexerM ℚ :=
  persistSupplyWithin config creatorId 2

-- Price Snapshots
----

/- Milliseconds of a day. -/
def dayMs : Int := 24 * 60 * 60 * 1000

def CreatorPriceSnapshot.withTrade (price price24hAgo tradeAt : Int)
    (row : CreatorPriceSnapshot) : CreatorPriceSnapshot :=
  { row with
    currentPrice := price
    price24hAgo
    lastTradeAt := some tradeAt }

theorem key_withTrade (price price24hAgo tradeAt : Int) (row : CreatorPriceSnapshot) :
    key (row.withTrade price price24hAgo tradeAt) = key row := rfl

def findSnapshot (creatorId : String) : IndexerM (Option CreatorPriceSnapshot) :=
  readDb fun db => db.creatorPriceSnapshot.find? creatorId

/- The first trade seeds both prices. -/
def seedPriceSnapshot (entry : CreatorPriceHistory) : IndexerM Unit :=
  writeDb fun db =>
    match db.creatorPriceSnapshot.insert?
      { creatorId := entry.creatorId
        currentPrice := entry.price
        price24hAgo := entry.price
        lastTradeAt := some entry.recordedAt } with
    | some table =>
      .ok ((), { db with
            creatorPriceSnapshot := table
            creatorPriceHistory := db.creatorPriceHistory ++ [entry] })
    | none => .error .uniqueViolation

/- Later trades replace the price. -/
def movePriceSnapshot (price24hAgo : Int) (entry : CreatorPriceHistory) : IndexerM Unit :=
  writeDb fun db =>
    match db.creatorPriceSnapshot.find? entry.creatorId with
    | some _ =>
      .ok ((), { db with
            creatorPriceSnapshot :=
              db.creatorPriceSnapshot.update entry.creatorId (.withTrade entry.price price24hAgo
                entry.recordedAt) (key_withTrade entry.price price24hAgo entry.recordedAt)
            creatorPriceHistory := db.creatorPriceHistory ++ [entry] })
    | none => .error .recordNotFound

/-
  An event that is not newer than the last trade is skipped.  A
  price that is a day old becomes the price of a day ago.
-/
def upsertPriceSnapshot (config : IndexerConfig) (entry : CreatorPriceHistory) : IndexerM Unit := do
  match ← findSnapshot entry.creatorId with
  | none => seedPriceSnapshot entry
  | some existing =>
    match existing.lastTradeAt with
    | none => movePriceSnapshot existing.price24hAgo entry
    | some lastTradeAt =>
      if entry.recordedAt ≤ lastTradeAt then pure ()
      else
        movePriceSnapshot (if lastTradeAt < config.now - dayMs then
          existing.currentPrice
          else existing.price24hAgo)
          entry

-- Referrals
----

/- Round to seven decimals, halves away from zero. -/
def roundXlm (amount : ℚ) : ℚ :=
  if amount < 0 then
    -((⌊-amount * 10000000 + 1 / 2⌋ : Int) : ℚ) / 10000000
  else ((⌊amount * 10000000 + 1 / 2⌋ : Int) : ℚ) / 10000000

def Referral.claim (tradeAt : Int) (keyId : String) (row : Referral) : Referral :=
  { row with
    firstTradeAt := some tradeAt
    firstTradeKeyId := some keyId }

theorem key_claim (tradeAt : Int) (keyId : String) (row : Referral) :
    key (row.claim tradeAt keyId) = key row := rfl

/-
  The transaction that claims the first trade of a referred
  wallet and pays the referrer.  The claimed row cannot
  disappear before it is read again.
-/
def claimReferral (config : IndexerConfig) (trade : TradeFields) (db : TradeDb) : TradeDb :=
  let refereeAddress := trim trade.actor
  let rewardXlm :=
    roundXlm (pricePerKeyXlm trade.price * trade.amount * config.referralRewardBps / 10000)
  match db.referral.find? refereeAddress with
  | none => db
  | some referral =>
    if referral.firstTradeAt ≠ none then db
    else
      { db with
        referral :=
          db.referral.update refereeAddress (.claim trade.tradeAt trade.creatorId)
            (key_claim trade.tradeAt trade.creatorId)
        referralEvent :=
          if 0 < rewardXlm then
            db.referralEvent ++
              [{ walletAddress := referral.referrerAddress
                 refereeAddress
                 keyId := trade.creatorId
                 amount := rewardXlm
                 txHash := trade.txHash
                 eventIndex := trade.eventIndex
                 createdAt := trade.tradeAt }]
          else db.referralEvent }

def recordFirstTradeReferralReward (config : IndexerConfig) (trade : TradeFields) : IndexerM Unit :=
  alwaysWrite (claimReferral config trade)

-- Trade Events
----

/- The activity that a trade is recorded as. -/
def TradeFields.activity (trade : TradeFields) : Activity where
  type := trade.activityType
  actor := trade.actor
  creatorId := some trade.creatorId
  payload := .indexedTrade trade.amount trade.price trade.feePaid trade.ledger trade.paymentAsset
  createdAt := trade.tradeAt

def TradeDb.addActivity (db : TradeDb) (activity : Activity) : TradeDb :=
  { db with activity := db.activity ++ [activity] }

def createActivity (activity : Activity) : IndexerM Unit :=
  alwaysWrite fun db => db.addActivity activity

/-
  Sales that the position does not cover, or whose bookkeeping
  fails, fall back to a change of the balance.
-/
def recordOwnership (trade : TradeFields) : IndexerM Unit :=
  match trade.direction with
  | .buy =>
    recordKeyPurchase trade.actor trade.creatorId
      trade.amount (pricePerKeyXlm trade.price) trade.tradeAt
  | .sell =>
    tryCatch (recordKeySale trade.actor trade.creatorId trade.amount (pricePerKeyXlm trade.price)
      trade.tradeAt)
      (fun _ => updateOwnership trade.actor trade.creatorId (-trade.amount) trade.tradeAt)

/- `BigInt` of a number. -/
def toBigInt (value : ℚ) : IndexerM Int :=
  if value.isInt then pure value.num else throw .notAnInteger

def recordPrice (config : IndexerConfig) (trade : TradeFields)
    (supplyAfterTrade : ℚ) : IndexerM Unit := do
  let price ← toBigInt trade.price
  let supply ← toBigInt supplyAfterTrade
  upsertPriceSnapshot config {
    creatorId := trade.creatorId
    price
    supply
    direction := trade.direction
    recordedAt := trade.tradeAt }

/- The reads behind the log entry of a sale. -/
def readForSellLog (trade : TradeFields) : IndexerM Unit :=
  match trade.direction with
  | .buy => pure ()
  | .sell => do
    let _ ← readDb fun db => db.creatorProfile.find? trade.creatorId
    let _ ← readDb fun db => db.totalBalance trade.creatorId
    pure ()

/- What follows the activity of a trade. -/
def applyTrade (config : IndexerConfig) (trade : TradeFields) : IndexerM Unit := do
  recordOwnership trade
  let supplyAfterTrade ← persistCirculatingSupply config trade.creatorId
  recordPrice config trade supplyAfterTrade
  readForSellLog trade

/- The handler of one trade. -/
def processTrade (config : IndexerConfig) (trade : TradeFields) : IndexerM Unit := do
  recordFirstTradeReferralReward config trade
  createActivity trade.activity
  applyTrade config trade

/-
  The handler of one event.  The branches for swaps, bundles,
  discount tiers and registrations write other tables and are
  left out; batches of trades do not reach them.
-/
def processTradeEvent (config : IndexerConfig) (event : IndexerChainEvent) : IndexerM Unit :=
  match event.trade with
  | some trade => processTrade config trade
  | none => pure ()

def processAll (config : IndexerConfig) : List IndexerChainEvent → IndexerM Unit
  | [] => pure ()
  | event :: rest => do
    processTradeEvent config event
    processAll config rest

/- The checkpoint write; its failure is only logged. -/
def updateIndexedLedger (ledger : Int) (cursor : String) : IndexerM Unit :=
  tryCatch (alwaysWrite fun db => { db with indexedLedger := some { ledger, cursor } })
    (fun _ => pure ())

def advanceIndexerCursorForBatch (events : List IndexerChainEvent) : IndexerM Unit :=
  match (dedupeChainEvents events).filterMap IndexerChainEvent.ledger with
  | [] => pure ()
  | ledger :: rest =>
    let maxLedger := rest.foldl max ledger
    updateIndexedLedger maxLedger (toString maxLedger ++ "-000")

/- The cursor moves once the whole batch has been processed. -/
def processTradeEvents (config : IndexerConfig)
    (events : List IndexerChainEvent) : IndexerM Unit := do
  processAll config (dedupeChainEvents events)
  advanceIndexerCursorForBatch events

def sampleConfig : IndexerConfig where
  milestones := defaultMilestones
  referralRewardBps := 500
  now := 1000000

end Indexer

end AccessLayer
