import AccessLayer.Library.Program
import AccessLayer.Library.Table
import Mathlib.Algebra.Field.Rat

/-
  The tables that trades are indexed into (`prisma/schema`).

  Decimal columns and the numbers computed from them are exact
  rationals.  Times are milliseconds.  Columns that no modelled
  function reads or writes are left out.

  Main declaration: `TradeDb`
-/

-- Activities
----

namespace AccessLayer

namespace Indexer

/- The members of the `ActivityType` enumeration. -/
inductive ActivityType where
  | creatorRegistered
  | keyBought
  | keySold
  | profileUpdated
  | dividendDistributed
  | dividendClaimed
  | keysClaimed
  | keyBurned
  | keyTransferred
  | keyTransferredIn
  | keyTransferredOut
  | supplyCapSet
  | tradingPauseProposed
  | tradingPauseApproved
  | governanceProposalCreated
  | governanceVoteCast
  | timelockLockupProposed
  | circuitBreakerThresholdUpdated
  | graduatedCurveConfigured
  | keyDeprecated
  | supplyFullyFunded
  deriving DecidableEq

/- The member that a column value names. -/
def ActivityType.ofName : String → Option ActivityType
  | "CREATOR_REGISTERED" => some .creatorRegistered
  | "KEY_BOUGHT" => some .keyBought
  | "KEY_SOLD" => some .keySold
  | "PROFILE_UPDATED" => some .profileUpdated
  | "DIVIDEND_DISTRIBUTED" => some .dividendDistributed
  | "DIVIDEND_CLAIMED" => some .dividendClaimed
  | "KEYS_CLAIMED" => some .keysClaimed
  | "KEY_BURNED" => some .keyBurned
  | "KEY_TRANSFERRED" => some .keyTransferred
  | "KEY_TRANSFERRED_IN" => some .keyTransferredIn
  | "KEY_TRANSFERRED_OUT" => some .keyTransferredOut
  | "SUPPLY_CAP_SET" => some .supplyCapSet
  | "TRADING_PAUSE_PROPOSED" => some .tradingPauseProposed
  | "TRADING_PAUSE_APPROVED" => some .tradingPauseApproved
  | "GOVERNANCE_PROPOSAL_CREATED" => some .governanceProposalCreated
  | "GOVERNANCE_VOTE_CAST" => some .governanceVoteCast
  | "TIMELOCK_LOCKUP_PROPOSED" => some .timelockLockupProposed
  | "CIRCUIT_BREAKER_THRESHOLD_UPDATED" => some .circuitBreakerThresholdUpdated
  | "GRADUATED_CURVE_CONFIGURED" => some .graduatedCurveConfigured
  | "KEY_DEPRECATED" => some .keyDeprecated
  | "SUPPLY_FULLY_FUNDED" => some .supplyFullyFunded
  | _ => none

def ActivityType.isTrade (type : ActivityType) : Bool := type = .keyBought || type = .keySold

/-
  The JSON payload of a trade activity.  Indexed trades and HTTP
  sells write different fields; other activities' payloads are
  not read by the modelled functions.
-/
inductive ActivityPayload where
  | indexedTrade (amount priceAtTrade : ℚ) (feePaid : String) (ledgerSequence : Int)
    (paymentAsset : String)
  | httpSell (keyId : String) (quantity minPrice currentPrice payoutXlm costBasis
    realisedPnl balanceAfter circulatingSupplyAfter : ℚ)
  | other

/- `payload.amount`, when the field is present. -/
def ActivityPayload.amount? : ActivityPayload → Option ℚ
  | .indexedTrade amount _ _ _ _ => some amount
  | _ => none

/- `payload.price_at_trade`, when the field is present. -/
def ActivityPayload.priceAtTrade? : ActivityPayload → Option ℚ
  | .indexedTrade _ price _ _ _ => some price
  | _ => none

/- `payload.ledger_sequence`, when the field is present. -/
def ActivityPayload.ledgerSequence? : ActivityPayload → Option Int
  | .indexedTrade _ _ _ ledger _ => some ledger
  | _ => none

structure Activity where
  type : ActivityType
  actor : String
  creatorId : Option String
  payload : ActivityPayload
  createdAt : Int

-- Rows
----

open Transactional

structure KeyOwnership where
  ownerAddress : String
  creatorId : String
  balance : ℚ
  costBasis : Option ℚ
  realisedPnl : Option ℚ
  lastBuyAt : Option Int
  frozen : Bool
  deriving DecidableEq

structure CreatorProfile where
  id : String
  handle : String
  tradingPaused : Bool
  circulatingSupply : ℚ
  currentMilestone : Int
  deprecatedAt : Option Int
  buybackPriceXlm : Option ℚ
  buybackExpiresAt : Option Int

inductive PriceSnapshotDirection where
  | buy
  | sell
  deriving DecidableEq

structure CreatorPriceSnapshot where
  creatorId : String
  currentPrice : Int
  price24hAgo : Int
  lastTradeAt : Option Int

structure CreatorPriceHistory where
  creatorId : String
  price : Int
  supply : Int
  direction : PriceSnapshotDirection
  recordedAt : Int
  deriving DecidableEq

structure WalletHoldingSnapshot where
  ownerAddress : String
  creatorId : String
  balance : ℚ
  recordedAt : Int

structure Referral where
  refereeAddress : String
  referrerAddress : String
  firstTradeAt : Option Int
  firstTradeKeyId : Option String

structure ReferralEvent where
  walletAddress : String
  refereeAddress : String
  keyId : String
  amount : ℚ
  txHash : String
  eventIndex : Nat
  createdAt : Int

structure KeyBuyback where
  keyId : String
  holderAddress : String
  quantity : ℚ
  pricePerKeyXlm : ℚ
  amountXlm : ℚ

/- A row of the `Trade` table, which rollbacks delete from. -/
structure Trade where
  ledger : Int
  txHash : String

/- The single cursor row. -/
structure IndexedLedger where
  ledger : Int
  cursor : String
  deriving DecidableEq

instance : Keyed KeyOwnership (String × String) where
  key row := (row.ownerAddress, row.creatorId)

instance : Keyed CreatorProfile String where
  key row := row.id

instance : Keyed CreatorPriceSnapshot String where
  key row := row.creatorId

instance : Keyed Referral String where
  key row := row.refereeAddress

structure TradeDb where
  activity : List Activity
  keyOwnership : Table KeyOwnership
  creatorProfile : Table CreatorProfile
  creatorPriceSnapshot : Table CreatorPriceSnapshot
  creatorPriceHistory : List CreatorPriceHistory
  walletHoldingSnapshot : List WalletHoldingSnapshot
  referral : Table Referral
  referralEvent : List ReferralEvent
  keyBuyback : List KeyBuyback
  trade : List Trade
  indexedLedger : Option IndexedLedger

def TradeDb.empty : TradeDb where
  activity := []
  keyOwnership := .empty
  creatorProfile := .empty
  creatorPriceSnapshot := .empty
  creatorPriceHistory := []
  walletHoldingSnapshot := []
  referral := .empty
  referralEvent := []
  keyBuyback := []
  trade := []
  indexedLedger := none

def CreatorProfile.withCirculatingSupply (circulatingSupply : ℚ)
    (row : CreatorProfile) : CreatorProfile :=
  { row with circulatingSupply }

theorem CreatorProfile.key_withCirculatingSupply (circulatingSupply : ℚ) (row : CreatorProfile) :
    key (row.withCirculatingSupply circulatingSupply) = key row := rfl

/- The balance of a wallet, zero without a row. -/
def TradeDb.balance (db : TradeDb) (ownerAddress creatorId : String) : ℚ :=
  ((db.keyOwnership.find? (ownerAddress, creatorId)).map KeyOwnership.balance).getD 0

/- The sum of a key's balances. -/
def TradeDb.totalBalance (db : TradeDb) (creatorId : String) : ℚ :=
  db.keyOwnership.total fun row =>
    if row.creatorId = creatorId then row.balance else 0

-- Changes of a Balance
----

/- A position opened with a balance and column defaults. -/
def KeyOwnership.opened (ownerAddress creatorId : String) (balance : ℚ) : KeyOwnership where
  ownerAddress := ownerAddress
  creatorId := creatorId
  balance := balance
  costBasis := some 0
  realisedPnl := some 0
  lastBuyAt := none
  frozen := false

def KeyOwnership.addBalance (amount : ℚ) (row : KeyOwnership) : KeyOwnership :=
  { row with balance := row.balance + amount }

theorem KeyOwnership.key_addBalance (amount : ℚ) (row : KeyOwnership) :
    key (row.addBalance amount) = key row := rfl

def TradeDb.incrementBalance (db : TradeDb) (ownerAddress creatorId : String)
    (amount : ℚ) : TradeDb :=
  { db with
    keyOwnership :=
      db.keyOwnership.upsert (.opened ownerAddress creatorId amount)
        (KeyOwnership.addBalance amount) (KeyOwnership.key_addBalance amount) }

/- An update that decrements the balance of a stored row. -/
def TradeDb.decrementBalance (db : TradeDb) (ownerAddress creatorId : String)
    (amount : ℚ) : TradeDb :=
  { db with
    keyOwnership :=
      db.keyOwnership.update (ownerAddress, creatorId) (KeyOwnership.addBalance (-amount))
        (KeyOwnership.key_addBalance (-amount)) }

theorem find?_incrementBalance (db : TradeDb) (owner creator : String) (amount : ℚ)
    (k : String × String) :
    (db.incrementBalance owner creator amount).keyOwnership.find? k =
      if k = (owner, creator) then
        some ((db.keyOwnership.find? k).elim (.opened owner creator amount)
          (KeyOwnership.addBalance amount))
      else db.keyOwnership.find? k := Table.find?_upsert _ _ _ _ _

theorem balance_incrementBalance (db : TradeDb) (owner creator : String) (amount : ℚ)
    (owner' creator' : String) :
    (db.incrementBalance owner creator amount).balance owner' creator' =
      db.balance owner' creator' +
        if (owner', creator') = (owner, creator) then amount
        else 0 := by
  rw [TradeDb.balance, find?_incrementBalance, TradeDb.balance]
  by_cases hKey : (owner', creator') = (owner, creator)
  · rw [if_pos hKey, if_pos hKey]
    cases db.keyOwnership.find? (owner', creator') with
    | none => simp [KeyOwnership.opened]
    | some row => simp [KeyOwnership.addBalance]
  · rw [if_neg hKey, if_neg hKey, add_zero]

theorem totalBalance_incrementBalance (db : TradeDb) (owner creator : String) (amount : ℚ)
    (creator' : String) :
    (db.incrementBalance owner creator amount).totalBalance creator' = db.totalBalance creator' +
      if creator = creator' then amount else 0 := by
  rw [TradeDb.totalBalance, TradeDb.incrementBalance, Table.total_upsert]
  cases hRow : db.keyOwnership.find? (key (KeyOwnership.opened owner creator amount)) with
  | none => rfl
  | some row =>
    have hKey : (row.ownerAddress, row.creatorId) = (owner, creator) := Table.key_of_find? hRow
    have hCreator : row.creatorId = creator := (Prod.mk.inj hKey).2
    simp only [Option.elim, KeyOwnership.addBalance, hCreator]
    by_cases hSame : creator = creator'
    · simp [hSame, TradeDb.totalBalance]
    · simp [hSame, TradeDb.totalBalance]

variable {db : TradeDb} {owner creator : String} {row : KeyOwnership}

theorem find?_decrementBalance (hRow : db.keyOwnership.find? (owner, creator) = some row)
    (amount : ℚ) (k : String × String) :
    (db.decrementBalance owner creator amount).keyOwnership.find? k =
      if k = (owner, creator) then
        some (row.addBalance (-amount))
      else db.keyOwnership.find? k :=
  Table.find?_update_stored hRow _ (KeyOwnership.key_addBalance (-amount)) k

theorem balance_decrementBalance (hRow : db.keyOwnership.find? (owner, creator) = some row)
    (amount : ℚ) (owner' creator' : String) :
    (db.decrementBalance owner creator amount).balance owner' creator' =
      db.balance owner' creator' -
        if (owner', creator') = (owner, creator) then amount
        else 0 := by
  rw [TradeDb.balance, find?_decrementBalance hRow, TradeDb.balance]
  by_cases hKey : (owner', creator') = (owner, creator)
  · rw [if_pos hKey, if_pos hKey, hKey, hRow]
    simp [KeyOwnership.addBalance, sub_eq_add_neg]
  · rw [if_neg hKey, if_neg hKey, sub_zero]

theorem totalBalance_decrementBalance (hRow : db.keyOwnership.find? (owner, creator) = some row)
    (amount : ℚ) (creator' : String) :
    (db.decrementBalance owner creator amount).totalBalance creator' = db.totalBalance creator' -
      if creator = creator' then amount else 0 := by
  rw [TradeDb.totalBalance, TradeDb.decrementBalance, Table.total_update _ _ _ _ hRow]
  have hKey : (row.ownerAddress, row.creatorId) = (owner, creator) := Table.key_of_find? hRow
  have hCreator : row.creatorId = creator := (Prod.mk.inj hKey).2
  simp only [KeyOwnership.addBalance, hCreator]
  by_cases hSame : creator = creator'
  · simp [hSame, TradeDb.totalBalance, sub_eq_add_neg]
  · simp [hSame, TradeDb.totalBalance]

/- One creator without keys. -/
def freshCreator : TradeDb :=
  { TradeDb.empty with
    creatorProfile :=
      .create .empty
        { id := "K", handle := "k", tradingPaused := false,
          circulatingSupply := 0, currentMilestone := 0,
          deprecatedAt := none, buybackPriceXlm := none,
          buybackExpiresAt := none }
        rfl }

end Indexer

end AccessLayer
