import AccessLayer.Indexer.Ownership
import Mathlib.Data.Rat.Floor

/-
  Sales accepted over HTTP
  (`src/modules/creator/sell.controller.ts`) and the bonding
  curve that prices them (`src/utils/pricing.utils.ts`).

  A chain of checks precedes one transaction.  The transaction
  checks the balance and the slippage again and then moves the
  position, the supply and the activities together.  Caches,
  leaderboards and the `activityLog` table are left out.

  Main declaration: `httpSellCreatorKey`
-/

-- Bonding Curve
----

namespace AccessLayer

namespace Creator

inductive SellError where
  | database
  | tradingPaused
  | positionFrozen
  | walletSuspended (message : String)
  | creatorNotFound
  | insufficientDepth (maxAvailable : Int)
  | depthUnavailable (message : String)
  | keyNotFound (keyId : String)
  | insufficientKeyBalance
  | slippageExceeded (currentPrice minPrice : ℚ)
  | negativeSupply
  | exceedsSupply
  | notAnInteger
  deriving DecidableEq

/- The status of the answer; other errors are thrown on. -/
def SellError.statusCode? : SellError → Option Nat
  | .tradingPaused => some 503
  | .positionFrozen => some 403
  | .walletSuspended _ => some 403
  | .creatorNotFound => some 404
  | .insufficientDepth _ => some 422
  | .depthUnavailable _ => some 503
  | .insufficientKeyBalance => some 400
  | .slippageExceeded _ _ => some 409
  | _ => none

def SellError.message : SellError → String
  | .database => "Database statement failed"
  | .tradingPaused => "Trading paused for this key"
  | .positionFrozen =>
    "Position is frozen — trading and transfers are " ++ "disabled until unfrozen"
  | .walletSuspended message => message
  | .creatorNotFound => "Key not found"
  | .insufficientDepth _ => "InsufficientDepth"
  | .depthUnavailable message => message
  | .keyNotFound keyId => "Key not found: " ++ keyId
  | .insufficientKeyBalance => "Insufficient key balance for sell"
  | .slippageExceeded _ _ => "Current price is below submitted min_price"
  | .negativeSupply => "Supply and amount must be non-negative"
  | .exceedsSupply => "Cannot sell more keys than the current supply"
  | .notAnInteger => "The number cannot be converted to a BigInt"

def BASE_COST : Int := 10000000

def STEP : Int := 1000000

/- The key at the top of the supply is sold first. -/
def grossPayout (currentSupply : Int) : Nat → Int
  | 0 => 0
  | i + 1 => grossPayout currentSupply i + (BASE_COST + (currentSupply - 1 - i) * STEP)

/- The payout in stroops, net of the protocol fee. -/
def computeSellPayout (currentSupply : ℚ) (amount : Nat) (feeBps : Int) : Except SellError Int :=
  if currentSupply < 0 then .error .negativeSupply
  else if currentSupply < amount then .error .exceedsSupply
  else if amount = 0 then .ok 0
  else if currentSupply.isInt then
    let gross := grossPayout currentSupply.num amount
    let fee := (gross * feeBps).tdiv 10000
    .ok (max 0 (gross - fee))
  else .error .notAnInteger

def getSellUnitPrice (currentSupply : ℚ) (feeBps : Int) : Except SellError Int :=
  if currentSupply ≤ 0 then .ok 0
  else computeSellPayout currentSupply 1 feeBps

variable {currentSupply : ℚ} {amount : Nat} {feeBps payout : Int}

/- Only keys of the supply are paid out. -/
theorem le_supply_of_computeSellPayout
    (hOk : computeSellPayout currentSupply amount feeBps = .ok payout) :
    (amount : ℚ) ≤ currentSupply := by
  unfold computeSellPayout at hOk
  split at hOk
  · cases hOk
  · split at hOk
    · cases hOk
    · rename_i hLess
      exact not_lt.mp hLess

-- Sell Transaction
----

open Transactional Program Indexer

/- A body that passed the schema. -/
structure SellRequestBody where
  quantity : Nat
  minPrice : ℚ
  positive : 0 < quantity
  minPrice_nonneg : 0 ≤ minPrice

/- What the checks outside the traded tables answer. -/
structure SellGates where
  suspension : Option String
  maxAvailable : Except String Int
  protocolFeeBps : Int
  now : Int

/- What a sale writes. -/
structure Sale where
  walletAddress : String
  creatorId : String
  quantity : ℚ
  minPrice : ℚ
  currentPriceXlm : ℚ
  payoutXlm : ℚ
  costBasis : ℚ
  realisedForTrade : ℚ
  newBalance : ℚ
  newCostBasis : ℚ
  newRealised : ℚ
  newSupply : ℚ
  soldAt : Int

def Sale.activity (sale : Sale) : Activity where
  type := .keySold
  actor := sale.walletAddress
  creatorId := some sale.creatorId
  payload :=
    .httpSell sale.creatorId sale.quantity sale.minPrice
      sale.currentPriceXlm sale.payoutXlm sale.costBasis
      sale.realisedForTrade sale.newBalance sale.newSupply
  createdAt := sale.soldAt

/- The writes of the transaction. -/
def Sale.record (sale : Sale) (db : TradeDb) : TradeDb :=
  { db with
    keyOwnership :=
      db.keyOwnership.update (sale.walletAddress, sale.creatorId)
        (.sold sale.newBalance sale.newCostBasis sale.newRealised)
        (key_sold sale.newBalance sale.newCostBasis sale.newRealised)
    walletHoldingSnapshot :=
      if sale.walletAddress = "" ∨ sale.creatorId = "" then
        db.walletHoldingSnapshot
      else
        db.walletHoldingSnapshot ++
          [{ ownerAddress := sale.walletAddress
             creatorId := sale.creatorId
             balance := sale.newBalance
             recordedAt := sale.soldAt }]
    creatorProfile :=
      db.creatorProfile.update sale.creatorId (.withCirculatingSupply sale.newSupply)
        (CreatorProfile.key_withCirculatingSupply sale.newSupply)
    activity := db.activity ++ [sale.activity] }

def saleOf (gates : SellGates) (walletAddress creatorId : String) (body : SellRequestBody)
    (ownership : Option KeyOwnership) (supply currentPriceXlm payoutXlm : ℚ) : Sale where
  walletAddress := walletAddress
  creatorId := creatorId
  quantity := body.quantity
  minPrice := body.minPrice
  currentPriceXlm := currentPriceXlm
  payoutXlm := payoutXlm
  costBasis := costBasisOf ownership
  realisedForTrade :=
    computeRealisedPnlForSale (costBasisOf ownership) currentPriceXlm body.quantity
  newBalance := Doubles.sub (balanceOf ownership) body.quantity
  newCostBasis :=
    computeCostBasisAfterSale (costBasisOf ownership) (balanceOf ownership) body.quantity
  newRealised :=
    Doubles.add (realisedPnlOf ownership) (computeRealisedPnlForSale (costBasisOf ownership)
      currentPriceXlm body.quantity)
  newSupply := Doubles.sub supply body.quantity
  soldAt := gates.now

/- Slippage check and execution in one transaction. -/
def sellTransaction (gates : SellGates) (walletAddress creatorId : String) (body : SellRequestBody)
    (db : TradeDb) : Except SellError (Sale × TradeDb) :=
  match db.creatorProfile.find? creatorId with
  | none => .error (.keyNotFound creatorId)
  | some current =>
    let ownership := db.keyOwnership.find? (walletAddress, creatorId)
    if balanceOf ownership < body.quantity then
      .error .insufficientKeyBalance
    else do
      let supply := Doubles.number current.circulatingSupply
      let unitPrice ← getSellUnitPrice supply gates.protocolFeeBps
      let currentPriceXlm := Doubles.div unitPrice 10000000
      if currentPriceXlm < body.minPrice then
        .error (.slippageExceeded currentPriceXlm body.minPrice)
      else do
        let payoutStroops ← computeSellPayout supply body.quantity gates.protocolFeeBps
        let sale :=
          saleOf gates walletAddress creatorId body ownership
            supply currentPriceXlm (Doubles.div payoutStroops 10000000)
        .ok (sale, sale.record db)

/- An accepted sale is of a position and of a supply that both cover it. -/
theorem sellTransaction_eq_ok {gates : SellGates} {walletAddress creatorId : String}
    {body : SellRequestBody} {db db' : TradeDb} {sale : Sale}
    (hOk : sellTransaction gates walletAddress creatorId body db = .ok (sale, db')) :
    ∃ current row currentPriceXlm payoutXlm, db.creatorProfile.find? creatorId = some current ∧
      db.keyOwnership.find? (walletAddress, creatorId) = some row ∧
      (body.quantity : ℚ) ≤ balanceOf (some row) ∧
      (body.quantity : ℚ) ≤ Doubles.number current.circulatingSupply ∧
      body.minPrice ≤ currentPriceXlm ∧ sale = saleOf gates walletAddress creatorId body (some row)
        (Doubles.number current.circulatingSupply) currentPriceXlm payoutXlm ∧
      db' = sale.record db := by
  unfold sellTransaction at hOk
  cases hCurrent : db.creatorProfile.find? creatorId with
  | none => simp [hCurrent] at hOk
  | some current =>
    simp only [hCurrent] at hOk
    split at hOk
    · cases hOk
    · rename_i hBalance
      cases hUnit : getSellUnitPrice (Doubles.number current.circulatingSupply)
        gates.protocolFeeBps with
      | error e =>
        rw [hUnit] at hOk
        cases hOk
      | ok unitPrice =>
        rw [hUnit] at hOk
        simp only [bind, Except.bind] at hOk
        split at hOk
        · cases hOk
        · rename_i hSlippage
          cases hPayout : computeSellPayout (Doubles.number current.circulatingSupply)
            body.quantity gates.protocolFeeBps with
          | error e =>
            rw [hPayout] at hOk
            cases hOk
          | ok payout =>
            rw [hPayout] at hOk
            cases hOk
            -- a covered quantity is positive, so the row is there
            cases hRow : db.keyOwnership.find? (walletAddress, creatorId) with
            | none =>
              rw [hRow, balanceOf, Option.map_none, Option.getD_none,
                Doubles.number_zero] at hBalance
              exact absurd (Nat.cast_pos.mpr body.positive) hBalance
            | some row =>
              rw [hRow] at hBalance
              exact ⟨current, row, _, _, rfl, rfl, not_lt.mp hBalance,
                le_supply_of_computeSellPayout hPayout, not_lt.mp hSlippage, rfl, rfl⟩

-- Sell Handler
----

abbrev SellM := Program TradeDb SellError

def refuseWhen (p : Prop) [Decidable p] (e : SellError) : SellM Unit :=
  if p then throw e else pure ()

def assertTradingActive (creatorId : String) : SellM Unit := do
  let creator ← query .database fun db => db.creatorProfile.find? creatorId
  refuseWhen (creator.any CreatorProfile.tradingPaused = true) .tradingPaused

def assertPositionNotFrozen (walletAddress keyId : String) : SellM Unit := do
  let ownership ← query .database fun db => db.keyOwnership.find? (walletAddress, keyId)
  refuseWhen (ownership.any KeyOwnership.frozen = true) .positionFrozen

def assertWalletNotSuspended (suspension : Option String) : SellM Unit :=
  match suspension with
  | none => pure ()
  | some message => throw (.walletSuspended message)

def checkDepth (maxAvailable : Except String Int) (quantity : Nat) : SellM Unit :=
  match maxAvailable with
  | .error message => throw (.depthUnavailable message)
  | .ok available => refuseWhen (available < quantity) (.insufficientDepth available)

/- The fees of a key without a profile cannot be loaded. -/
def getKeyFees (protocolFeeBps : Int) (keyId : String) : SellM Int := do
  let creator ← query .database fun db => db.creatorProfile.find? keyId
  refuseWhen (creator = none) (.keyNotFound keyId)
  pure protocolFeeBps

def httpSellCreatorKey (gates : SellGates) (walletAddress keyId : String)
    (body : SellRequestBody) : SellM Sale := do
  assertTradingActive keyId
  assertPositionNotFrozen walletAddress keyId
  assertWalletNotSuspended gates.suspension
  let creator ← query .database fun db => db.creatorProfile.find? keyId
  refuseWhen (creator = none) .creatorNotFound
  checkDepth gates.maxAvailable body.quantity
  let protocolFeeBps ← getKeyFees gates.protocolFeeBps keyId
  execute .database (sellTransaction { gates with protocolFeeBps } walletAddress keyId body)

end Creator

end AccessLayer
