import AccessLayer.Indexer.ChainEvent
import Mathlib.Algebra.Order.Ring.Unbundled.Rat

/-
  The ownership read model
  (`src/modules/ownership/ownership.service.ts`).

  Each function reads a position and then writes it, as separate
  statements.  Leaderboards, caches and logs are left out.

  Positions are decimal columns, and an increment is exact.  What
  is read is a number: it is computed with in double precision,
  and named by the decimal that the number is written in.

  Main declarations: `recordKeyPurchase`, `recordKeySale`
-/

-- Reads and Writes
----

namespace AccessLayer

namespace Indexer

open Transactional Program

inductive IndexerError where
  | database
  | insufficientKeyBalance
  | invalidEnumValue (value : String)
  | recordNotFound
  | uniqueViolation
  | notAnInteger
  deriving DecidableEq

def IndexerError.message : IndexerError → String
  | .database => "Database statement failed"
  | .insufficientKeyBalance => "Insufficient key balance for sell"
  | .invalidEnumValue value => "Invalid value for argument type: " ++ value
  | .recordNotFound => "No record was found for an update."
  | .uniqueViolation => "Unique constraint failed"
  | .notAnInteger => "The number cannot be converted to a BigInt"

theorem IndexerError.database_ne_uniqueViolation : IndexerError.database ≠ .uniqueViolation := nofun

abbrev IndexerM := Program TradeDb IndexerError

def readDb {α : Type} (f : TradeDb → α) : IndexerM α := query .database f

def writeDb {α : Type} (f : TradeDb → Except IndexerError (α × TradeDb)) : IndexerM α :=
  execute .database f

/- A write that cannot be refused by the tables. -/
def alwaysWrite (f : TradeDb → TradeDb) : IndexerM Unit := writeDb fun db => .ok ((), f db)

def findOwnership (ownerAddress creatorId : String) : IndexerM (Option KeyOwnership) :=
  readDb fun db => db.keyOwnership.find? (ownerAddress, creatorId)

/- The upsert of a position, answering its balance. -/
def TradeDb.upsertOwnership (db : TradeDb) (row : KeyOwnership) (f : KeyOwnership → KeyOwnership)
    (hKey : ∀ r, key (f r) = key r) : TradeDb :=
  { db with keyOwnership := db.keyOwnership.upsert row f hKey }

/- The update of a stored position. -/
def TradeDb.updateOwnershipRow (db : TradeDb) (ownerAddress creatorId : String)
    (f : KeyOwnership → KeyOwnership) (hKey : ∀ r, key (f r) = key r) : TradeDb :=
  { db with
    keyOwnership := db.keyOwnership.update (ownerAddress, creatorId) f hKey }

/- Appended on a best-effort basis; failures are swallowed. -/
def recordHoldingSnapshot (ownerAddress creatorId : String) (balance : ℚ)
    (recordedAt : Int) : IndexerM Unit :=
  if ownerAddress = "" ∨ creatorId = "" then pure ()
  else
    tryCatch (alwaysWrite fun db => { db with
          walletHoldingSnapshot :=
            db.walletHoldingSnapshot ++ [{ ownerAddress, creatorId, balance, recordedAt }] })
      (fun _ => pure ())

/- Taking a snapshot always completes. -/
theorem run_recordHoldingSnapshot (ownerAddress creatorId : String) (balance : ℚ) (recordedAt : Int)
    (db : TradeDb) :
    ∃ snapshots, (recordHoldingSnapshot ownerAddress creatorId balance recordedAt).run db =
      (.ok (), { db with walletHoldingSnapshot := snapshots }) := by
  unfold recordHoldingSnapshot
  split
  · exact ⟨db.walletHoldingSnapshot, rfl⟩
  · exact ⟨_, rfl⟩

-- Ownership Updates
----

/- The balance of a position that was read, as a number. -/
def balanceOf (existing : Option KeyOwnership) : ℚ :=
  Doubles.number ((existing.map KeyOwnership.balance).getD 0)

def costBasisOf (existing : Option KeyOwnership) : ℚ :=
  Doubles.number ((existing.bind KeyOwnership.costBasis).getD 0)

def realisedPnlOf (existing : Option KeyOwnership) : ℚ :=
  Doubles.number ((existing.bind KeyOwnership.realisedPnl).getD 0)

/-
  Weighted average cost across the open position, which starts
  afresh when the position was flat.
-/
def costBasisAfterPurchase (currentBalance currentCostBasis quantityBought
    pricePerKey : ℚ) : ℚ :=
  let newBalance := max 0 (Doubles.add currentBalance quantityBought)
  if newBalance = 0 then 0
  else if currentBalance ≤ 0 then pricePerKey
  else
    Doubles.div (Doubles.add (Doubles.mul currentCostBasis currentBalance)
      (Doubles.mul pricePerKey quantityBought)) newBalance

def computeRealisedPnlForSale (costBasisPerKeyXlm sellPricePerKeyXlm quantitySold : ℚ) : ℚ :=
  Doubles.mul (Doubles.sub sellPricePerKeyXlm costBasisPerKeyXlm) quantitySold

/- Unchanged on partial sells, reset when flat. -/
def computeCostBasisAfterSale (currentCostBasis currentBalance quantitySold : ℚ) : ℚ :=
  if Doubles.sub currentBalance quantitySold ≤ 0 then 0
  else currentCostBasis

def KeyOwnership.bought (quantityBought newCostBasis : ℚ) (boughtAt : Int)
    (row : KeyOwnership) : KeyOwnership :=
  { row with
    balance := row.balance + quantityBought
    costBasis := some newCostBasis
    lastBuyAt := some boughtAt }

theorem key_bought (quantityBought newCostBasis : ℚ) (boughtAt : Int) (row : KeyOwnership) :
    key (row.bought quantityBought newCostBasis boughtAt) = key row := rfl

def KeyOwnership.sold (newBalance newCostBasis newRealisedPnl : ℚ)
    (row : KeyOwnership) : KeyOwnership :=
  { row with
    balance := newBalance
    costBasis := some newCostBasis
    realisedPnl := some newRealisedPnl }

theorem key_sold (newBalance newCostBasis newRealisedPnl : ℚ) (row : KeyOwnership) :
    key (row.sold newBalance newCostBasis newRealisedPnl) = key row := rfl

def updateOwnership (ownerAddress creatorId : String) (balanceChange : ℚ)
    (occurredAt : Int) : IndexerM Unit := do
  let _ ← findOwnership ownerAddress creatorId
  let balance ← writeDb fun db =>
    let db' := db.incrementBalance ownerAddress creatorId balanceChange
    .ok (db'.balance ownerAddress creatorId, db')
  recordHoldingSnapshot ownerAddress creatorId balance occurredAt

def recordKeyPurchase (ownerAddress creatorId : String) (quantityBought pricePerKey : ℚ)
    (boughtAt : Int) : IndexerM Unit := do
  let existing ← findOwnership ownerAddress creatorId
  let newCostBasis :=
    costBasisAfterPurchase (balanceOf existing) (costBasisOf existing) quantityBought pricePerKey
  let balance ← writeDb fun db =>
    let db' :=
      db.upsertOwnership { KeyOwnership.opened ownerAddress creatorId quantityBought with
          costBasis := some pricePerKey
          lastBuyAt := some boughtAt } (.bought quantityBought newCostBasis boughtAt)
        (key_bought quantityBought newCostBasis boughtAt)
    .ok (db'.balance ownerAddress creatorId, db')
  recordHoldingSnapshot ownerAddress creatorId balance boughtAt

def recordKeySale (ownerAddress creatorId : String) (quantitySold pricePerKey : ℚ)
    (soldAt : Int) : IndexerM Unit := do
  let existing ← findOwnership ownerAddress creatorId
  if existing = none ∨ balanceOf existing < quantitySold then
    throw .insufficientKeyBalance
  else
    let newBalance := Doubles.sub (balanceOf existing) quantitySold
    let newCostBasis :=
      computeCostBasisAfterSale (costBasisOf existing) (balanceOf existing) quantitySold
    let newRealisedPnl :=
      Doubles.add (realisedPnlOf existing) (computeRealisedPnlForSale (costBasisOf existing)
        pricePerKey quantitySold)
    let balance ← writeDb fun db =>
      match db.keyOwnership.find? (ownerAddress, creatorId) with
      | some _ =>
        .ok (newBalance, db.updateOwnershipRow ownerAddress creatorId
          (.sold newBalance newCostBasis newRealisedPnl) (key_sold newBalance newCostBasis
            newRealisedPnl))
      | none => .error .recordNotFound
    recordHoldingSnapshot ownerAddress creatorId balance soldAt

end Indexer

end AccessLayer
