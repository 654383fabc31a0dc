import AccessLayer.Indexer.TradeTables
import AccessLayer.Library.Numerals

/-
  Chain events as they are delivered to the indexer
  (`src/utils/indexer-dedupe.utils.ts`,
  `src/modules/indexer/indexer-pipeline.service.ts`).

  Numeric fields are numbers; a field that is absent, null or
  the empty string is `none`.

  Main declaration: `dedupeChainEvents`
-/

-- Events
----

namespace AccessLayer

namespace Indexer

structure IndexerChainEvent where
  eventType : String
  txHash : String
  eventIndex : Nat
  ledger : Option Int
  creatorId : Option String
  actor : Option String
  amount : Option ℚ
  price : Option ℚ
  feePaid : Option String
  tradeAt : Option Int
  paymentAsset : Option String
  deriving DecidableEq

/- The identifier `txHash:eventIndex`. -/
def getChainEventId (event : IndexerChainEvent) : String :=
  event.txHash ++ ":" ++ toString event.eventIndex

/- The events whose identifier has not been seen before. -/
def dedupeFrom (seen : List String) : List IndexerChainEvent → List IndexerChainEvent
  | [] => []
  | event :: rest =>
    if getChainEventId event ∈ seen then dedupeFrom seen rest
    else
      event :: dedupeFrom (getChainEventId event :: seen) rest

def dedupeChainEvents (events : List IndexerChainEvent) : List IndexerChainEvent :=
  dedupeFrom [] events

variable {event : IndexerChainEvent} {events : List IndexerChainEvent}

theorem mem_of_mem_dedupeFrom {seen : List String} (h : event ∈ dedupeFrom seen events) :
    event ∈ events := by
  induction events generalizing seen with
  | nil => cases h
  | cons head rest ih =>
    unfold dedupeFrom at h
    split at h
    · exact List.mem_cons_of_mem _ (ih h)
    · rcases List.mem_cons.mp h with rfl | hRest
      · exact List.mem_cons_self
      · exact List.mem_cons_of_mem _ (ih hRest)

theorem mem_of_mem_dedupe (h : event ∈ dedupeChainEvents events) : event ∈ events :=
  mem_of_mem_dedupeFrom h

theorem dedupeFrom_idem (seen : List String) (events : List IndexerChainEvent) :
    dedupeFrom seen (dedupeFrom seen events) = dedupeFrom seen events := by
  induction events generalizing seen with
  | nil => rfl
  | cons event rest ih =>
    by_cases hSeen : getChainEventId event ∈ seen
    · simp only [dedupeFrom, hSeen, if_true]
      exact ih seen
    · simp only [dedupeFrom, hSeen, if_false]
      rw [ih]

/- A batch without duplicates is left as it is. -/
@[simp] theorem dedupe_dedupe (events : List IndexerChainEvent) :
    dedupeChainEvents (dedupeChainEvents events) = dedupeChainEvents events :=
  dedupeFrom_idem [] events

/- The first event of a batch is never a duplicate. -/
theorem dedupe_eq_nil_iff : dedupeChainEvents events = [] ↔ events = [] := by
  cases events with
  | nil => simp [dedupeChainEvents, dedupeFrom]
  | cons event rest => simp [dedupeChainEvents, dedupeFrom]

-- Trades
----

/- The fields of a trade, all of them present. -/
structure TradeFields where
  direction : PriceSnapshotDirection
  creatorId : String
  actor : String
  amount : ℚ
  price : ℚ
  feePaid : String
  tradeAt : Int
  ledger : Int
  paymentAsset : String
  txHash : String
  eventIndex : Nat

/- Drop the white space at both ends. -/
def trim (text : String) : String :=
  String.ofList (((text.toList.dropWhile Char.isWhitespace).reverse.dropWhile
    Char.isWhitespace).reverse)

def paymentAssetOf (event : IndexerChainEvent) : String :=
  match event.paymentAsset with
  | some asset =>
    if trim asset ≠ "" then (trim asset).toUpper else "XLM"
  | none => "XLM"

/- Whether an event buys or sells; others are not trades. -/
def directionOf (event : IndexerChainEvent) : Option PriceSnapshotDirection :=
  if event.eventType = "KEY_BOUGHT" then some .buy
  else if event.eventType = "KEY_SOLD" then some .sell
  else none

/- A text field that is present. -/
def present (field : Option String) : Option String := field.filter (fun text => text ≠ "")

/-
  The trade of an event.  Events of other types, and events that
  miss a required field, are skipped.
-/
def IndexerChainEvent.trade (event : IndexerChainEvent) : Option TradeFields :=
  match directionOf event, present event.creatorId, present event.actor, event.amount, event.price,
    present event.feePaid, event.tradeAt, event.ledger with
  | some direction, some creatorId, some actor, some amount,
    some price, some feePaid, some tradeAt, some ledger => some {
        direction, creatorId, actor, amount, price, feePaid
        tradeAt, ledger
        paymentAsset := paymentAssetOf event
        txHash := event.txHash
        eventIndex := event.eventIndex }
  | _, _, _, _, _, _, _, _ => none

def TradeFields.activityType (trade : TradeFields) :
    ActivityType :=
  match trade.direction with
  | .buy => .keyBought
  | .sell => .keySold

/-
  The price of a key in XLM.  Integer prices are in stroops; a
  price that is no integer is taken as it is.
-/
def pricePerKeyXlm (price : ℚ) : ℚ :=
  if price < 0 then 0
  else if price.isInt then Doubles.div price 10000000
  else Doubles.number price

/- What a trade adds to the supply of its key. -/
def TradeFields.signedAmount (trade : TradeFields) : ℚ :=
  match trade.direction with
  | .buy => trade.amount
  | .sell => -trade.amount

/- An event that tells nothing of a trade. -/
def bareEvent (eventType txHash : String) (eventIndex : Nat) (ledger : Int) :
    IndexerChainEvent where
  eventType := eventType
  txHash := txHash
  eventIndex := eventIndex
  ledger := some ledger
  creatorId := none
  actor := none
  amount := none
  price := none
  feePaid := none
  tradeAt := none
  paymentAsset := none

/- A purchase of one key in some ledger. -/
def sampleBuy (txHash : String) (ledger : Int) : IndexerChainEvent where
  eventType := "KEY_BOUGHT"
  txHash := txHash
  eventIndex := 0
  ledger := some ledger
  creatorId := some "K"
  actor := some "A"
  amount := some 1
  price := some 10000000
  feePaid := some "100"
  tradeAt := some (ledger * 5000)
  paymentAsset := none

end Indexer

end AccessLayer
