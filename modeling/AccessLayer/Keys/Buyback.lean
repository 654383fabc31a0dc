import AccessLayer.Indexer.Ownership

/-
  Buybacks of deprecated keys
  (`src/modules/keys/key-deprecation.service.ts`).

  One transaction pays a holder out.  The `activityLog` table
  and the audit entries are left out; amounts are answered as
  numbers rather than texts.  A balance has up to 15 significant
  digits: it is paid out as it is stored.

  Main declaration: `processBuyback`
-/

-- Checks
----

namespace AccessLayer

namespace Keys

open Transactional Indexer

inductive BuybackError where
  | database
  | keyNotFound (keyId : String)
  | keyNotDeprecated (keyId : String)
  | windowClosed (keyId : String) (expiresAt : Int)
  | priceNotSet (keyId : String)
  | insufficientPosition

/- Times are written out by `toISOString`. -/
def BuybackError.message (toISOString : Int → String) : BuybackError → String
  | .database => "Database statement failed"
  | .keyNotFound keyId => "Key not found: " ++ keyId
  | .keyNotDeprecated keyId => "Key is not deprecated: " ++ keyId
  | .windowClosed keyId expiresAt =>
    "Buyback window for key " ++ keyId ++ " closed at " ++ toISOString expiresAt
  | .priceNotSet keyId => "No buyback price configured for key: " ++ keyId
  | .insufficientPosition => "No key balance available for buyback"

def findCreator (db : TradeDb) (keyId : String) : Option CreatorProfile :=
  db.creatorProfile.rows.find? fun row => row.id = keyId || row.handle = keyId

/- The window of a key without an expiry never closes. -/
def windowClosed (now : Int) (creator : CreatorProfile) : Option Int :=
  creator.buybackExpiresAt.filter fun expiresAt => expiresAt < now

/- What a buyback is paid on: key, position and price. -/
structure BuybackTerms where
  creator : CreatorProfile
  ownership : KeyOwnership
  pricePerKeyXlm : ℚ

/- The checks, in their order. -/
def checkBuyback (now : Int) (keyId holderAddress : String)
    (db : TradeDb) : Except BuybackError BuybackTerms :=
  match findCreator db keyId with
  | none => .error (.keyNotFound keyId)
  | some creator =>
    if creator.deprecatedAt = none then
      .error (.keyNotDeprecated creator.id)
    else
      match windowClosed now creator with
      | some expiresAt => .error (.windowClosed creator.id expiresAt)
      | none =>
        let pricePerKeyXlm := creator.buybackPriceXlm.getD 0
        if pricePerKeyXlm ≤ 0 then
          .error (.priceNotSet creator.id)
        else
          match db.keyOwnership.find? (holderAddress, creator.id) with
          | none => .error .insufficientPosition
          | some ownership =>
            if ownership.balance ≤ 0 then
              .error .insufficientPosition
            else
              .ok { creator, ownership, pricePerKeyXlm }

/- The checks on the key alone; the key and its price. -/
def openBuyback (now : Int) (keyId : String) (db : TradeDb) :
    Except BuybackError (CreatorProfile × ℚ) :=
  match findCreator db keyId with
  | none => .error (.keyNotFound keyId)
  | some creator =>
    if creator.deprecatedAt = none then
      .error (.keyNotDeprecated creator.id)
    else
      match windowClosed now creator with
      | some expiresAt => .error (.windowClosed creator.id expiresAt)
      | none =>
        let pricePerKeyXlm := creator.buybackPriceXlm.getD 0
        if pricePerKeyXlm ≤ 0 then
          .error (.priceNotSet creator.id)
        else .ok (creator, pricePerKeyXlm)

def checkPosition (holderAddress : String) (creator : CreatorProfile) (pricePerKeyXlm : ℚ)
    (db : TradeDb) : Except BuybackError BuybackTerms :=
  match db.keyOwnership.find? (holderAddress, creator.id) with
  | none => .error .insufficientPosition
  | some ownership =>
    if ownership.balance ≤ 0 then
      .error .insufficientPosition
    else .ok { creator, ownership, pricePerKeyXlm }

variable {holderAddress : String} {db : TradeDb} {terms : BuybackTerms}

/- Terms are rows of the tables, and the position is open. -/
theorem checkBuyback_eq_ok {now : Int} {keyId : String}
    (hOk : checkBuyback now keyId holderAddress db = .ok terms) :
    db.creatorProfile.find? terms.creator.id = some terms.creator ∧
      db.keyOwnership.find? (holderAddress, terms.creator.id) = some terms.ownership ∧
      0 < terms.ownership.balance := by
  unfold checkBuyback at hOk
  cases hCreator : findCreator db keyId with
  | none => simp [hCreator] at hOk
  | some creator =>
    simp only [hCreator] at hOk
    split at hOk
    · cases hOk
    · cases hClosed : windowClosed now creator with
      | some expiresAt => simp [hClosed] at hOk
      | none =>
        simp only [hClosed] at hOk
        split at hOk
        · cases hOk
        · cases hRow : db.keyOwnership.find? (holderAddress, creator.id) with
          | none => simp [hRow] at hOk
          | some ownership =>
            simp only [hRow] at hOk
            split at hOk
            · cases hOk
            · rename_i hOpen
              cases hOk
              exact ⟨Table.find?_of_mem (List.mem_of_find?_eq_some hCreator), hRow, not_le.mp hOpen⟩

-- Buyback Transaction
----

open Program

structure BuybackResult where
  keyId : String
  holderAddress : String
  quantity : ℚ
  pricePerKeyXlm : ℚ
  amountXlm : ℚ
  balanceAfter : ℚ
  circulatingSupplyAfter : ℚ

def BuybackTerms.amountXlm (terms : BuybackTerms) : ℚ :=
  Doubles.mul terms.ownership.balance terms.pricePerKeyXlm

/- The supply is never set below zero. -/
def BuybackTerms.newSupply (terms : BuybackTerms) : ℚ :=
  max 0 (Doubles.sub terms.creator.circulatingSupply terms.ownership.balance)

def BuybackTerms.result (terms : BuybackTerms) (holderAddress : String) : BuybackResult where
  keyId := terms.creator.id
  holderAddress := holderAddress
  quantity := terms.ownership.balance
  pricePerKeyXlm := terms.pricePerKeyXlm
  amountXlm := terms.amountXlm
  balanceAfter := 0
  circulatingSupplyAfter := terms.newSupply

/- A position without keys. -/
def paidOut (row : KeyOwnership) : KeyOwnership := { row with balance := 0, costBasis := some 0 }

theorem key_paidOut (row : KeyOwnership) : key (paidOut row) = key row := rfl

/- The payment, the closed position and the new supply. -/
def BuybackTerms.record (terms : BuybackTerms) (holderAddress : String) (db : TradeDb) : TradeDb :=
  { db with
    keyBuyback :=
      db.keyBuyback ++
        [{ keyId := terms.creator.id
           holderAddress
           quantity := terms.ownership.balance
           pricePerKeyXlm := terms.pricePerKeyXlm
           amountXlm := terms.amountXlm }]
    keyOwnership := db.keyOwnership.update (holderAddress, terms.creator.id) paidOut key_paidOut
    creatorProfile :=
      db.creatorProfile.update terms.creator.id (.withCirculatingSupply terms.newSupply)
        (CreatorProfile.key_withCirculatingSupply terms.newSupply) }

def buybackTransaction (now : Int) (keyId holderAddress : String) (db : TradeDb) :
    Except BuybackError (BuybackResult × TradeDb) :=
  match checkBuyback now keyId holderAddress db with
  | .error e => .error e
  | .ok terms => .ok (terms.result holderAddress, terms.record holderAddress db)

def processBuyback (now : Int) (keyId holderAddress : String) :
    Program TradeDb BuybackError BuybackResult :=
  execute .database (buybackTransaction now keyId holderAddress)

/- The tables after a buyback, accepted or refused. -/
theorem final_processBuyback (now : Int) (keyId holderAddress : String) (db : TradeDb) :
    (processBuyback now keyId holderAddress).final db =
      match checkBuyback now keyId holderAddress db with
      | .error _ => db
      | .ok terms => terms.record holderAddress db := by
  unfold final processBuyback
  rw [run_execute]
  unfold buybackTransaction
  cases checkBuyback now keyId holderAddress db with
  | error e => rfl
  | ok terms => rfl

end Keys

end AccessLayer
