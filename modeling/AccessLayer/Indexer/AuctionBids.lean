import AccessLayer.Indexer.EventFields
import AccessLayer.Library.Doubles
import AccessLayer.Library.Machines

/-
  Bids in the launch auctions of keys
  (`src/modules/indexer/key-launch-auction-indexer.service.ts`,
  `prisma/schema/key-launch-auction.prisma`).

  Amounts are `Decimal(36, 7)`, here whole numbers of the last
  place; one that is missing or no finite number is `none`.  The
  transaction of a bid records it, reads the highest bid and
  overwrites it with a higher one; other handlers may commit
  between these statements.  Dates, caches and logs are left out.

  Main result: `highest_bid_kept`
-/

-- Events
----

namespace AccessLayer

namespace Indexer

open Transactional Doubles

structure AuctionFields where
  keyId : Option String
  auctionId : Option String
  bidder : Option String
  wallet : Option String
  amount : Option ℤ
  bidAmount : Option ℤ
  reserve : Option ℤ
  reservePrice : Option ℤ
  clearingPrice : Option ℤ
  price : Option ℤ
  deriving DecidableEq

abbrev AuctionChainEvent := PipelineEvent AuctionFields

inductive AuctionEventType where
  | created
  | bid
  | settled
  deriving DecidableEq

def AuctionEventType.ofName : String → Option AuctionEventType
  | "AuctionCreated" => some .created
  | "AUCTION_CREATED" => some .created
  | "BidPlaced" => some .bid
  | "BID_PLACED" => some .bid
  | "AuctionSettled" => some .settled
  | "AUCTION_SETTLED" => some .settled
  | _ => none

/- The key of an event; blank where it has to be looked up. -/
def auctionKeyOf (event : AuctionChainEvent) : String :=
  Governance.trim ((event.payload.keyId <|> event.creatorId).getD "")

def auctionIdOf (event : AuctionChainEvent) : String :=
  Governance.trim (event.payload.auctionId.getD (auctionKeyOf event))

inductive AuctionStatus where
  | active
  | settled
  deriving DecidableEq

structure KeyLaunchAuction where
  auctionId : String
  keyId : String
  status : AuctionStatus
  reserve : ℤ
  highestBid : Option ℤ
  highestBidder : Option String
  clearingPrice : Option ℤ
  createdTxHash : String
  createdEventIndex : Nat
  settledTxHash : Option String
  settledEventIndex : Option Nat
  ledger : ℤ

instance : Keyed KeyLaunchAuction String := ⟨KeyLaunchAuction.auctionId⟩

structure KeyLaunchAuctionBid where
  auctionId : String
  bidder : String
  amount : ℤ
  txHash : String
  eventIndex : Nat
  ledger : ℤ

instance : Keyed KeyLaunchAuctionBid (String × Nat) := ⟨fun row => (row.txHash, row.eventIndex)⟩

structure AuctionDb where
  keyLaunchAuction : Table KeyLaunchAuction
  keyLaunchAuctionBid : Table KeyLaunchAuctionBid

def AuctionDb.empty : AuctionDb where
  keyLaunchAuction := .empty
  keyLaunchAuctionBid := .empty

/- The row of a new auction. -/
def auctionOf (event : AuctionChainEvent) (keyId : String) : KeyLaunchAuction where
  auctionId := auctionIdOf event
  keyId := keyId
  status := .active
  reserve := (event.payload.reserve <|> event.payload.reservePrice).getD 0
  highestBid := none
  highestBidder := none
  clearingPrice := none
  createdTxHash := event.txHash
  createdEventIndex := event.eventIndex
  settledTxHash := none
  settledEventIndex := none
  ledger := event.ledger.getD 0

/- The bid of an event with a bidder and an amount. -/
def auctionBidOf (event : AuctionChainEvent) : Option KeyLaunchAuctionBid := do
  let fields := event.payload
  let bidder ← textField (fields.bidder <|> fields.wallet <|> event.actor)
  let amount ← fields.amount <|> fields.bidAmount
  some {
    auctionId := auctionIdOf event
    bidder
    amount
    txHash := event.txHash
    eventIndex := event.eventIndex
    ledger := event.ledger.getD 0 }

/- What an event settles an auction with. -/
structure Settlement where
  eventType : String
  auctionId : String
  clearingPrice : ℤ
  txHash : String
  eventIndex : Nat
  ledger : ℤ

def settlementOf (event : AuctionChainEvent) : Settlement where
  eventType := event.eventType
  auctionId := auctionIdOf event
  clearingPrice := (event.payload.clearingPrice <|> event.payload.price).getD 0
  txHash := event.txHash
  eventIndex := event.eventIndex
  ledger := event.ledger.getD 0

-- Statements
----

inductive AuctionError where
  | database
  | auctionIdRequired (eventType : String)
  | keyIdRequired (eventType : String)
  | bidderAndAmountRequired (eventType : String)
  | unknownAuction (eventType auctionId : String)
  | uniqueViolation
  | foreignKeyViolation
  | recordNotFound

def AuctionError.message : AuctionError → String
  | .database => "Database statement failed"
  | .auctionIdRequired eventType => "Invalid " ++ eventType ++ ": auctionId is required"
  | .keyIdRequired eventType => "Invalid " ++ eventType ++ ": keyId is required"
  | .bidderAndAmountRequired eventType =>
    "Invalid " ++ eventType ++ ": bidder and amount are required"
  | .unknownAuction eventType auctionId => eventType ++ " references unknown auction " ++ auctionId
  | .uniqueViolation => "Unique constraint failed"
  | .foreignKeyViolation => "Foreign key constraint violated"
  | .recordNotFound => "No record was found for an update."

/-
  A handler: the statement it is about to execute, what it has
  read for it, and the events that follow.
-/
inductive AuctionWork where
  | findKey (event : AuctionChainEvent) (eventType : AuctionEventType)
    (rest : List AuctionChainEvent)
  | create (auction : KeyLaunchAuction) (rest : List AuctionChainEvent)
  | upsertBid (bid : KeyLaunchAuctionBid) (rest : List AuctionChainEvent)
  | findHighest (bid : KeyLaunchAuctionBid) (rest : List AuctionChainEvent)
  | commitBid (bid : KeyLaunchAuctionBid) (current : Option ℤ) (rest : List AuctionChainEvent)
  | findSettled (settlement : Settlement) (rest : List AuctionChainEvent)
  | settle (settlement : Settlement) (rest : List AuctionChainEvent)
  | ended (result : Except AuctionError Unit)

/- The first statement of an event whose key is known. -/
def handleAuctionEvent (event : AuctionChainEvent) (eventType : AuctionEventType) (keyId : String)
    (rest : List AuctionChainEvent) : AuctionWork :=
  if keyId = "" then
    .ended (.error (.keyIdRequired event.eventType))
  else
    match eventType with
    | .created => .create (auctionOf event keyId) rest
    | .bid =>
      match auctionBidOf event with
      | none => .ended (.error (.bidderAndAmountRequired event.eventType))
      | some bid => .upsertBid bid rest
    | .settled => .findSettled (settlementOf event) rest

def nextAuctionEvent : List AuctionChainEvent → AuctionWork
  | [] => .ended (.ok ())
  | event :: rest =>
    match AuctionEventType.ofName event.eventType with
    | none => nextAuctionEvent rest
    | some eventType =>
      if auctionIdOf event = "" then
        .ended (.error (.auctionIdRequired event.eventType))
      else if eventType ≠ .created ∧ auctionKeyOf event = "" then
        .findKey event eventType rest
      else
        handleAuctionEvent event eventType (auctionKeyOf event) rest

/- The comparison is one of floating-point numbers. -/
def overtakes (current : Option ℤ) (amount : ℤ) : Prop :=
  ∀ highestBid ∈ current, toNumber ((highestBid : ℚ) / 10000000) <
    toNumber ((amount : ℚ) / 10000000)

instance (current : Option ℤ) (amount : ℤ) : Decidable (overtakes current amount) := by
  unfold overtakes
  infer_instance

def KeyLaunchAuction.clashes (auction row : KeyLaunchAuction) : Bool :=
  row.keyId = auction.keyId || (row.createdTxHash, row.createdEventIndex) =
    (auction.createdTxHash, auction.createdEventIndex)

/- The upsert of an auction leaves a stored row as it is. -/
def AuctionDb.createAuction (db : AuctionDb) (auction : KeyLaunchAuction) :
    Except AuctionError AuctionDb :=
  match db.keyLaunchAuction.insert? auction with
  | none => .ok db
  | some keyLaunchAuction =>
    if db.keyLaunchAuction.rows.any auction.clashes then
      .error .uniqueViolation
    else .ok { db with keyLaunchAuction }

def KeyLaunchAuction.withHighest (bid : KeyLaunchAuctionBid)
    (row : KeyLaunchAuction) : KeyLaunchAuction :=
  { row with
    highestBid := some bid.amount
    highestBidder := some bid.bidder
    ledger := bid.ledger }

theorem key_withHighest (bid : KeyLaunchAuctionBid) (row : KeyLaunchAuction) :
    key (row.withHighest bid) = key row := rfl

/- The writes of a bid; a row with its key is left as it is. -/
def AuctionDb.commitBid (db : AuctionDb) (bid : KeyLaunchAuctionBid)
    (current : Option ℤ) : AuctionDb where
  keyLaunchAuctionBid := (db.keyLaunchAuctionBid.insert? bid).getD db.keyLaunchAuctionBid
  keyLaunchAuction :=
    if overtakes current bid.amount then
      db.keyLaunchAuction.update bid.auctionId (.withHighest bid) (key_withHighest bid)
    else db.keyLaunchAuction

def Settlement.isOf (settlement : Settlement) (row : KeyLaunchAuction) : Bool :=
  row.settledTxHash = some settlement.txHash && row.settledEventIndex = some settlement.eventIndex

def KeyLaunchAuction.settle (settlement : Settlement) (row : KeyLaunchAuction) : KeyLaunchAuction :=
  { row with
    status := .settled
    clearingPrice := some settlement.clearingPrice
    settledTxHash := some settlement.txHash
    settledEventIndex := some settlement.eventIndex
    ledger := settlement.ledger }

theorem key_settle (settlement : Settlement) (row : KeyLaunchAuction) :
    key (row.settle settlement) = key row := rfl

def AuctionDb.settle (db : AuctionDb) (settlement : Settlement) : Except AuctionError AuctionDb :=
  match db.keyLaunchAuction.find? settlement.auctionId with
  | none => .error .recordNotFound
  | some _ =>
    if db.keyLaunchAuction.rows.any fun row => row.auctionId ≠ settlement.auctionId &&
      settlement.isOf row then
      .error .uniqueViolation
    else
      .ok { db with
          keyLaunchAuction :=
            db.keyLaunchAuction.update settlement.auctionId
              (.settle settlement) (key_settle settlement) }

/- Go on with the store a statement leaves, if it succeeds. -/
def AuctionDb.proceed (db : AuctionDb) (next : AuctionWork) :
    Except AuctionError AuctionDb → AuctionDb × AuctionWork
  | .ok db' => (db', next)
  | .error e => (db, .ended (.error e))

def executeAuctionWork (call : AuctionWork) (db : AuctionDb) : Option (AuctionDb × AuctionWork) :=
  match call with
  | .findKey event eventType rest =>
    match db.keyLaunchAuction.find? (auctionIdOf event) with
    | none => some (db, .ended (.error (.unknownAuction event.eventType (auctionIdOf event))))
    | some auction => some (db, handleAuctionEvent event eventType auction.keyId rest)
  | .create auction rest => some (db.proceed (nextAuctionEvent rest) (db.createAuction auction))
  | .upsertBid bid rest =>
    match db.keyLaunchAuctionBid.find? (key bid) with
    | some _ => some (db, .findHighest bid rest)
    | none =>
      match db.keyLaunchAuction.find? bid.auctionId with
      | none => some (db, .ended (.error .foreignKeyViolation))
      | some _ => some (db, .findHighest bid rest)
  | .findHighest bid rest =>
    match db.keyLaunchAuction.find? bid.auctionId with
    | none => some (db, .ended (.error (.unknownAuction "BidPlaced" bid.auctionId)))
    | some auction => some (db, .commitBid bid auction.highestBid rest)
  | .commitBid bid current rest =>
    match db.keyLaunchAuction.find? bid.auctionId with
    | none => some (db, .ended (.error .foreignKeyViolation))
    | some _ => some (db.commitBid bid current, nextAuctionEvent rest)
  | .findSettled settlement rest =>
    match db.keyLaunchAuction.find? settlement.auctionId with
    | none => some (db, .ended (.error (.unknownAuction settlement.eventType settlement.auctionId)))
    | some auction =>
      if settlement.isOf auction then
        some (db, nextAuctionEvent rest)
      else some (db, .settle settlement rest)
  | .settle settlement rest => some (db.proceed (nextAuctionEvent rest) (db.settle settlement))
  | .ended _ => none

/- An error ends the batch. -/
def AuctionWork.fail : AuctionWork → AuctionWork
  | .ended result => .ended result
  | _ => .ended (.error .database)

def auctionIndexer : Machine AuctionDb AuctionWork where
  execute := executeAuctionWork
  fail := AuctionWork.fail

def processKeyLaunchAuctionEvents (events : List AuctionChainEvent) : AuctionWork :=
  nextAuctionEvent (PipelineEvent.dedupe events)

/- Handlers that deliver batches side by side. -/
def auctionHandlers (batches : List (List AuctionChainEvent)) : Crew AuctionDb AuctionWork :=
  .start .empty (batches.map processKeyLaunchAuctionEvents)

-- Highest Bids
----

def AuctionDb.bidsOf (db : AuctionDb) (auctionId : String) : List KeyLaunchAuctionBid :=
  db.keyLaunchAuctionBid.rows.filter fun bid => bid.auctionId = auctionId

def KeyLaunchAuction.HasHighest (auction : KeyLaunchAuction)
    (bids : List KeyLaunchAuctionBid) : Prop :=
  match auction.highestBid with
  | none => bids = []
  | some highestBid =>
    (∃ bid ∈ bids, bid.amount = highestBid ∧ auction.highestBidder = some bid.bidder) ∧
    ∀ bid ∈ bids, bid.amount ≤ highestBid

def HighestBids (db : AuctionDb) : Prop :=
  ∀ auctionId auction, db.keyLaunchAuction.find? auctionId = some auction →
    auction.HasHighest (db.bidsOf auctionId)

/- No settled auction of one store is unsettled in another. -/
def StaySettled (db db' : AuctionDb) : Prop :=
  ∀ auctionId auction, db.keyLaunchAuction.find? auctionId = some auction →
    auction.status = .settled → ∃ auction', db'.keyLaunchAuction.find? auctionId = some auction' ∧
      auction'.status = .settled

/-
  What a transaction decides about a bid is right of the highest
  bid that is stored when it commits.
-/
def Sound (db : AuctionDb) (call : AuctionWork) (outcome : Option Outcome) : Prop :=
  match call with
  | .commitBid bid current _ =>
    takesEffect outcome = true → ∀ auction ∈ db.keyLaunchAuction.find? bid.auctionId,
      if overtakes current bid.amount then
        ∀ highestBid ∈ auction.highestBid, highestBid ≤ bid.amount
      else
        ∃ highestBid ∈ auction.highestBid, bid.amount ≤ highestBid
  | _ => True

instance (db : AuctionDb) (call : AuctionWork) (outcome : Option Outcome) :
    Decidable (Sound db call outcome) := by
  unfold Sound
  split <;> infer_instance

variable {db : AuctionDb} {bid : KeyLaunchAuctionBid} {rest : List AuctionChainEvent}

-- Changes of the Store
----

/- What a statement can change. -/
inductive AuctionChange (db : AuctionDb) : AuctionWork → AuctionDb → Prop where
  | same (call : AuctionWork) : AuctionChange db call db
  | created {auction : KeyLaunchAuction} {rest : List AuctionChainEvent}
    (hFresh : db.keyLaunchAuction.find? (key auction) = none) :
    AuctionChange db (.create auction rest) { db with
        keyLaunchAuction := db.keyLaunchAuction.create auction hFresh }
  | bidPlaced {bid : KeyLaunchAuctionBid} {current : Option ℤ} {rest : List AuctionChainEvent}
    {auction : KeyLaunchAuction}
    (hAuction : db.keyLaunchAuction.find? bid.auctionId = some auction) :
    AuctionChange db (.commitBid bid current rest) (db.commitBid bid current)
  | settled {settlement : Settlement} {rest : List AuctionChainEvent} :
    AuctionChange db (.settle settlement rest) { db with
        keyLaunchAuction :=
          db.keyLaunchAuction.update settlement.auctionId
            (.settle settlement) (key_settle settlement) }

variable {db' : AuctionDb} {call next : AuctionWork}

theorem auctionChange_of_execute (hExecute : auctionIndexer.execute call db = some (db', next)) :
    AuctionChange db call db' := by
  change executeAuctionWork call db = some (db', next) at hExecute
  cases call with
  | findKey event eventType rest =>
    simp only [executeAuctionWork] at hExecute
    split at hExecute <;> cases hExecute <;> exact .same _
  | create auction rest =>
    simp only [executeAuctionWork, AuctionDb.createAuction] at hExecute
    split at hExecute
    · cases hExecute
      exact .same _
    · rename_i keyLaunchAuction hInsert
      rcases Table.exists_create_of_insert? hInsert with ⟨hFresh, rfl⟩
      split at hExecute
      · cases hExecute
        exact .same _
      · cases hExecute
        exact .created hFresh
  | upsertBid bid rest =>
    simp only [executeAuctionWork] at hExecute
    split at hExecute
    · cases hExecute
      exact .same _
    · split at hExecute <;> cases hExecute <;> exact .same _
  | findHighest bid rest =>
    simp only [executeAuctionWork] at hExecute
    split at hExecute <;> cases hExecute <;> exact .same _
  | commitBid bid current rest =>
    simp only [executeAuctionWork] at hExecute
    split at hExecute
    · cases hExecute
      exact .same _
    · rename_i auction hAuction
      cases hExecute
      exact .bidPlaced hAuction
  | findSettled settlement rest =>
    simp only [executeAuctionWork] at hExecute
    split at hExecute
    · cases hExecute
      exact .same _
    · split at hExecute <;> cases hExecute <;> exact .same _
  | settle settlement rest =>
    simp only [executeAuctionWork, AuctionDb.settle] at hExecute
    split at hExecute
    · cases hExecute
      exact .same _
    · split at hExecute
      · cases hExecute
        exact .same _
      · cases hExecute
        exact .settled
  | ended result => cases hExecute

variable {auctionId : String}

theorem find?_update_settled {row : KeyLaunchAuction}
    (hRow : db.keyLaunchAuction.find? auctionId = some row) {k : String}
    (f : KeyLaunchAuction → KeyLaunchAuction) (hKey : ∀ row, key (f row) = key row)
    (hStatus : ∀ row, row.status = .settled → (f row).status = .settled) :
    ∃ row', (db.keyLaunchAuction.update k f hKey).find? auctionId = some row' ∧
      (row.status = .settled → row'.status = .settled) := by
  by_cases hSame : auctionId = k
  · subst hSame
    refine ⟨f row, ?_, hStatus row⟩
    rw [Table.find?_update_same, hRow]
    rfl
  · refine ⟨row, ?_, id⟩
    rw [Table.find?_update_other _ _ _ hSame]
    exact hRow

theorem AuctionChange.stored {db db' : AuctionDb} {call : AuctionWork}
    (hChange : AuctionChange db call db') {auctionId : String} {row : KeyLaunchAuction}
    (hRow : db.keyLaunchAuction.find? auctionId = some row) :
    ∃ row', db'.keyLaunchAuction.find? auctionId = some row' ∧
      (row.status = .settled → row'.status = .settled) := by
  cases hChange with
  | same => exact ⟨row, hRow, id⟩
  | @created auction rest hFresh =>
    refine ⟨row, ?_, id⟩
    have hOther : auctionId ≠ key auction := by
      rintro rfl
      rw [hFresh] at hRow
      cases hRow
    rw [Table.find?_create, if_neg hOther]
    exact hRow
  | @bidPlaced bid current rest auction hAuction =>
    unfold AuctionDb.commitBid
    split
    · exact find?_update_settled hRow (.withHighest bid) (key_withHighest bid) fun _ h => h
    · exact ⟨row, hRow, id⟩
  | @settled settlement rest =>
    exact find?_update_settled hRow (.settle settlement) (key_settle settlement) fun _ _ => rfl

theorem AuctionChange.staySettled (hChange : AuctionChange db call db') : StaySettled db db' := by
  intro auctionId auction hFind hSettled
  rcases hChange.stored hFind with ⟨auction', hFind', hStays⟩
  exact ⟨auction', hFind', hStays hSettled⟩

theorem StaySettled.trans {db'' : AuctionDb} (h : StaySettled db db') (h' : StaySettled db' db'') :
    StaySettled db db'' := by
  intro auctionId auction hFind hSettled
  rcases h auctionId auction hFind hSettled with ⟨auction', hFind', hSettled'⟩
  exact h' auctionId auction' hFind' hSettled'

theorem staySettled_run {crew crew' : Crew AuctionDb AuctionWork} {moves : List FaultMove}
    (hRun : RunsTo (Crew.attempt auctionIndexer) (fun _ _ => True) crew moves crew') :
    StaySettled crew.store crew'.store := by
  have hRefl : ∀ db, StaySettled db db := fun db _ auction hFind hSettled =>
    ⟨auction, hFind, hSettled⟩
  apply RunsTo.invariant (I := fun reached => StaySettled crew.store reached.store) (hRefl _) _ hRun
  intro reached move next hSettled _ hMove
  apply hSettled.trans
  cases Crew.moved hMove with
  | @settled i call after outcome hCall hExecute =>
    have hChange := (auctionChange_of_execute hExecute).staySettled
    cases outcome with
    | served => exact hChange
    | rejected => exact hRefl _
    | lost => exact hChange
  | crashed hCall => exact hRefl _

-- Bids and Their Maximum
----

def IsBidOf (events : List AuctionChainEvent) (bid : KeyLaunchAuctionBid) : Prop :=
  ∃ event ∈ events, auctionBidOf event = some bid

/- What a handler works on comes from the events. -/
def AuctionWork.Of (events : List AuctionChainEvent) : AuctionWork → Prop
  | .findKey event _ rest => event ∈ events ∧ rest ⊆ events
  | .create auction rest => auction.highestBid = none ∧ rest ⊆ events
  | .upsertBid bid rest => IsBidOf events bid ∧ rest ⊆ events
  | .findHighest bid rest => IsBidOf events bid ∧ rest ⊆ events
  | .commitBid bid _ rest => IsBidOf events bid ∧ rest ⊆ events
  | .findSettled _ rest => rest ⊆ events
  | .settle _ rest => rest ⊆ events
  | .ended _ => True

variable {events : List AuctionChainEvent} {event : AuctionChainEvent}

theorem of_handleAuctionEvent (hEvent : event ∈ events) (hRest : rest ⊆ events)
    (eventType : AuctionEventType) (keyId : String) :
    (handleAuctionEvent event eventType keyId rest).Of events := by
  unfold handleAuctionEvent
  split
  · trivial
  · cases eventType with
    | created => exact ⟨rfl, hRest⟩
    | bid =>
      cases hBid : auctionBidOf event with
      | none => trivial
      | some bid => exact ⟨⟨event, hEvent, hBid⟩, hRest⟩
    | settled => exact hRest

theorem of_nextAuctionEvent (hRest : rest ⊆ events) : (nextAuctionEvent rest).Of events := by
  induction rest with
  | nil => trivial
  | cons event rest ih =>
    have hEvent := hRest List.mem_cons_self
    have hTail := List.subset_of_cons_subset hRest
    unfold nextAuctionEvent
    split
    · exact ih hTail
    · split
      · trivial
      · split
        · exact ⟨hEvent, hTail⟩
        · exact of_handleAuctionEvent hEvent hTail _ _

theorem of_proceed (hRest : rest ⊆ events) {result : Except AuctionError AuctionDb}
    (hNext : db.proceed (nextAuctionEvent rest) result = (db', next)) :
    next.Of events := by
  cases result with
  | ok stored =>
    cases hNext
    exact of_nextAuctionEvent hRest
  | error e =>
    cases hNext
    trivial

theorem of_execute (hOf : call.Of events)
    (hExecute : auctionIndexer.execute call db = some (db', next)) :
    next.Of events := by
  change executeAuctionWork call db = some (db', next) at hExecute
  cases call with
  | findKey event eventType rest =>
    simp only [executeAuctionWork] at hExecute
    split at hExecute
    · cases hExecute
      trivial
    · cases hExecute
      exact of_handleAuctionEvent hOf.1 hOf.2 _ _
  | create auction rest => exact of_proceed hOf.2 (Option.some.inj hExecute)
  | upsertBid bid rest =>
    simp only [executeAuctionWork] at hExecute
    split at hExecute
    · cases hExecute
      exact hOf
    · split at hExecute
      · cases hExecute
        trivial
      · cases hExecute
        exact hOf
  | findHighest bid rest =>
    simp only [executeAuctionWork] at hExecute
    split at hExecute
    · cases hExecute
      trivial
    · cases hExecute
      exact hOf
  | commitBid bid current rest =>
    simp only [executeAuctionWork] at hExecute
    split at hExecute
    · cases hExecute
      trivial
    · cases hExecute
      exact of_nextAuctionEvent hOf.2
  | findSettled settlement rest =>
    simp only [executeAuctionWork] at hExecute
    split at hExecute
    · cases hExecute
      trivial
    · split at hExecute
      · cases hExecute
        exact of_nextAuctionEvent hOf
      · cases hExecute
        exact hOf
  | settle settlement rest => exact of_proceed hOf (Option.some.inj hExecute)
  | ended result => cases hExecute

/- Every bid is an event's, in an auction that is stored. -/
structure BidsUpheld (events : List AuctionChainEvent) (db : AuctionDb) : Prop where
  recorded : ∀ bid ∈ db.keyLaunchAuctionBid.rows, IsBidOf events bid ∧ ∃ auction,
    db.keyLaunchAuction.find? bid.auctionId = some auction
  highest : HighestBids db

theorem BidsUpheld.recorded_change (hUpheld : BidsUpheld events db)
    (hChange : AuctionChange db call db') :
    ∀ bid ∈ db.keyLaunchAuctionBid.rows, IsBidOf events bid ∧ ∃ auction,
      db'.keyLaunchAuction.find? bid.auctionId = some auction := by
  intro bid hBid
  rcases hUpheld.recorded bid hBid with ⟨hEvent, row, hRow⟩
  rcases hChange.stored hRow with ⟨row', hRow', -⟩
  exact ⟨hEvent, row', hRow'⟩

theorem mem_bidsOf_iff :
    bid ∈ db.bidsOf auctionId ↔ bid ∈ db.keyLaunchAuctionBid.rows ∧ bid.auctionId = auctionId := by
  simp [AuctionDb.bidsOf]

variable {auction : KeyLaunchAuction} {bids bids' : List KeyLaunchAuctionBid}

theorem KeyLaunchAuction.HasHighest.congr (hHighest : auction.HasHighest bids)
    (hSame : ∀ bid, bid ∈ bids' ↔ bid ∈ bids) :
    auction.HasHighest bids' := by
  unfold KeyLaunchAuction.HasHighest at hHighest ⊢
  cases hBid : auction.highestBid with
  | none =>
    rw [hBid] at hHighest
    rw [List.eq_nil_iff_forall_not_mem]
    intro bid hMem
    rw [hSame, hHighest] at hMem
    cases hMem
  | some highestBid => simpa only [hBid, hSame] using hHighest

/- A bid that no stored one exceeds becomes the highest. -/
theorem KeyLaunchAuction.HasHighest.overtaken (hHighest : auction.HasHighest bids)
    (hLe : ∀ highest ∈ auction.highestBid, highest ≤ bid.amount)
    (hMem : ∀ bid', bid' ∈ bids' ↔ bid' ∈ bids ∨ bid' = bid) :
    (auction.withHighest bid).HasHighest bids' := by
  refine ⟨⟨bid, (hMem bid).mpr (.inr rfl), rfl, rfl⟩, ?_⟩
  intro bid' hBid'
  rcases (hMem bid').mp hBid' with hStored | rfl
  · unfold KeyLaunchAuction.HasHighest at hHighest
    cases hBid : auction.highestBid with
    | none =>
      rw [hBid] at hHighest
      rw [hHighest] at hStored
      cases hStored
    | some highest =>
      rw [hBid] at hHighest
      exact (hHighest.2 bid' hStored).trans (hLe highest hBid)
  · exact le_rfl

theorem KeyLaunchAuction.HasHighest.defended (hHighest : auction.HasHighest bids)
    (hLe : ∃ highest ∈ auction.highestBid, bid.amount ≤ highest)
    (hMem : ∀ bid', bid' ∈ bids' ↔ bid' ∈ bids ∨ bid' = bid) :
    auction.HasHighest bids' := by
  rcases hLe with ⟨highest, hBid, hLe⟩
  unfold KeyLaunchAuction.HasHighest at hHighest ⊢
  rw [hBid] at hHighest ⊢
  rcases hHighest with ⟨⟨leader, hLeader, hWon⟩, hMax⟩
  refine ⟨⟨leader, (hMem leader).mpr (.inl hLeader), hWon⟩, ?_⟩
  intro bid' hBid'
  rcases (hMem bid').mp hBid' with hStored | rfl
  · exact hMax bid' hStored
  · exact hLe

theorem key_auctionBidOf (hBid : auctionBidOf event = some bid) :
    key bid = (event.txHash, event.eventIndex) := by
  simp only [auctionBidOf, Option.bind_eq_bind, Option.bind_eq_some_iff] at hBid
  rcases hBid with ⟨bidder, -, amount, -, hBid⟩
  cases hBid
  rfl

section

variable (hDistinct : (events.map fun event => (event.txHash, event.eventIndex)).Nodup)

include hDistinct

variable {bid : KeyLaunchAuctionBid}

theorem bid_of_key {bid' : KeyLaunchAuctionBid} (hBid : IsBidOf events bid)
    (hBid' : IsBidOf events bid') (hKey : key bid = key bid') :
    bid = bid' := by
  rcases hBid with ⟨event, hEvent, hOf⟩
  rcases hBid' with ⟨event', hEvent', hOf'⟩
  rw [key_auctionBidOf hOf, key_auctionBidOf hOf'] at hKey
  have hSame := List.inj_on_of_nodup_map hDistinct hEvent hEvent' hKey
  rw [hSame, hOf'] at hOf
  exact (Option.some.inj hOf).symm

variable {db : AuctionDb}

/- A bid is recorded, and nothing else. -/
theorem mem_commitBid_iff (hUpheld : BidsUpheld events db) (hBid : IsBidOf events bid)
    (current : Option ℤ) (bid' : KeyLaunchAuctionBid) :
    bid' ∈ (db.commitBid bid current).keyLaunchAuctionBid.rows ↔
      bid' ∈ db.keyLaunchAuctionBid.rows ∨ bid' = bid := by
  unfold AuctionDb.commitBid
  rcases db.keyLaunchAuctionBid.insert?_cases bid with
    ⟨hStored, hInsert⟩ | ⟨-, bids, hInsert, hRows⟩
  · rcases List.mem_map.mp hStored with ⟨stored, hMem, hKey⟩
    have hSame : stored = bid := bid_of_key hDistinct (hUpheld.recorded stored hMem).1 hBid hKey
    subst hSame
    rw [hInsert, Option.getD_none]
    exact ⟨Or.inl, Or.rec id fun h => h ▸ hMem⟩
  · rw [hInsert, Option.getD_some, hRows, List.mem_append, List.mem_singleton]

theorem highest_commitBid {current : Option ℤ} {auction : KeyLaunchAuction}
    (hUpheld : BidsUpheld events db) (hBid : IsBidOf events bid)
    (hAuction : db.keyLaunchAuction.find? bid.auctionId = some auction)
    (hSound : if overtakes current bid.amount then
      ∀ highestBid ∈ auction.highestBid, highestBid ≤ bid.amount
      else
        ∃ highestBid ∈ auction.highestBid, bid.amount ≤ highestBid) :
    HighestBids (db.commitBid bid current) := by
  have hRecorded := mem_commitBid_iff hDistinct hUpheld hBid current
  intro auctionId row hRow
  by_cases hSame : auctionId = bid.auctionId
  · subst hSame
    have hOld := hUpheld.highest _ _ hAuction
    have hMem : ∀ bid', bid' ∈ (db.commitBid bid current).bidsOf bid.auctionId ↔
        bid' ∈ db.bidsOf bid.auctionId ∨ bid' = bid := by
      intro bid'
      rw [mem_bidsOf_iff, mem_bidsOf_iff, hRecorded]
      constructor
      · rintro ⟨hStored | hNew, hId⟩
        · exact .inl ⟨hStored, hId⟩
        · exact .inr hNew
      · rintro (⟨hStored, hId⟩ | rfl)
        · exact ⟨.inl hStored, hId⟩
        · exact ⟨.inr rfl, rfl⟩
    by_cases hOvertakes : overtakes current bid.amount
    · rw [if_pos hOvertakes] at hSound
      simp only [AuctionDb.commitBid, if_pos hOvertakes, Table.find?_update_same, hAuction] at hRow
      cases hRow
      exact hOld.overtaken hSound hMem
    · rw [if_neg hOvertakes] at hSound
      simp only [AuctionDb.commitBid, if_neg hOvertakes, hAuction] at hRow
      cases hRow
      exact hOld.defended hSound hMem
  · have hOld : db.keyLaunchAuction.find? auctionId = some row := by
      simp only [AuctionDb.commitBid] at hRow
      split at hRow
      · rwa [Table.find?_update_other _ _ _ hSame] at hRow
      · exact hRow
    refine (hUpheld.highest _ _ hOld).congr fun bid' => ?_
    rw [mem_bidsOf_iff, mem_bidsOf_iff, hRecorded]
    constructor
    · rintro ⟨hStored | rfl, hId⟩
      · exact ⟨hStored, hId⟩
      · exact absurd hId.symm hSame
    · rintro ⟨hStored, hId⟩
      exact ⟨.inl hStored, hId⟩

/- Every allowed statement keeps the highest bids. -/
theorem bidsUpheld_execute {db' : AuctionDb} {call next : AuctionWork} {outcome : Option Outcome}
    (hUpheld : BidsUpheld events db) (hOf : call.Of events) (hSound : Sound db call outcome)
    (hEffect : takesEffect outcome = true)
    (hExecute : auctionIndexer.execute call db = some (db', next)) :
    BidsUpheld events db' := by
  have hChange := auctionChange_of_execute hExecute
  have hRecorded := hUpheld.recorded_change hChange
  have hStored := @AuctionChange.stored _ _ _ hChange
  cases hChange with
  | same => exact hUpheld
  | @created auction rest hFresh =>
    refine
      { recorded := hRecorded
        highest := ?_ }
    intro auctionId row hRow
    rw [Table.find?_create] at hRow
    split at hRow
    · rename_i hSame
      cases hRow
      unfold KeyLaunchAuction.HasHighest
      rw [hOf.1, List.eq_nil_iff_forall_not_mem]
      intro bid hBid
      rcases mem_bidsOf_iff.mp hBid with ⟨hRows, hId⟩
      rcases hUpheld.recorded bid hRows with ⟨-, stored, hFind⟩
      rw [hId, hSame, hFresh] at hFind
      cases hFind
    · exact hUpheld.highest auctionId row hRow
  | @bidPlaced bid current rest auction hAuction =>
    refine
      { recorded := ?_
        highest :=
          highest_commitBid hDistinct hUpheld hOf.1 hAuction (hSound hEffect auction hAuction) }
    intro bid' hBid'
    rcases (mem_commitBid_iff hDistinct hUpheld hOf.1 current bid').mp hBid' with hOld | rfl
    · exact hRecorded bid' hOld
    · rcases hStored hAuction with ⟨row, hRow, -⟩
      exact ⟨hOf.1, row, hRow⟩
  | @settled settlement rest =>
    refine
      { recorded := hRecorded
        highest := ?_ }
    intro auctionId row hRow
    by_cases hSame : auctionId = settlement.auctionId
    · subst hSame
      rw [Table.find?_update_same] at hRow
      rcases Option.map_eq_some_iff.mp hRow with ⟨stored, hFind, rfl⟩
      -- neither the bid nor the bidder is written
      exact hUpheld.highest _ stored hFind
    · rw [Table.find?_update_other _ _ _ hSame] at hRow
      exact hUpheld.highest auctionId row hRow

/-
  In runs whose transactions decide rightly, the highest bid of
  every auction is the maximum of its bids; in every run, settled
  auctions stay settled.
-/
theorem highest_bid_kept {batches : List (List AuctionChainEvent)}
    (hDelivered : ∀ batch ∈ batches, ∀ event ∈ batch, event ∈ events) :
    (∀ moves crew, RunsTo (Crew.attempt auctionIndexer) (Crew.Admits Sound)
      (auctionHandlers batches) moves crew → HighestBids crew.store) ∧ ∀ crew moves crew',
      RunsTo (Crew.attempt auctionIndexer) (fun _ _ => True) crew moves crew' →
        StaySettled crew.store crew'.store := by
  have hKeeps : auctionIndexer.Keeps Sound (BidsUpheld events) (AuctionWork.Of events) :=
    { execute := fun _ _ _ _ _ hUpheld hOf hSound hEffect hExecute =>
        bidsUpheld_execute hDistinct hUpheld hOf hSound hEffect
          hExecute
      next := fun _ _ _ _ _ hOf hExecute => of_execute hOf hExecute
      fail := fun call hOf => by
        cases call with
        | ended result => exact hOf
        | _ => trivial }
  have hStart : BidsUpheld events AuctionDb.empty :=
    { recorded := fun bid hBid => by cases hBid
      highest := fun auctionId auction hFind => by cases hFind }
  have hAll : (auctionHandlers batches).All (AuctionWork.Of events) := by
    apply Crew.all_start
    intro call hCall
    rcases List.mem_map.mp hCall with ⟨batch, hBatch, rfl⟩
    apply of_nextAuctionEvent
    intro event hEvent
    apply hDelivered batch hBatch
    rw [dedupe_eq_firsts] at hEvent
    exact (mem_of_mem_firstsFrom hEvent).1
  constructor
  · intro moves crew hRun
    exact (hKeeps.run hStart hAll hRun).1.highest
  · intro crew moves crew' hRun
    exact staySettled_run hRun

end

/- An event of one auction; other fields are left open. -/
def auctionEvent (eventType txHash : String) (bidder : Option String)
    (amount : Option ℤ) : AuctionChainEvent where
  toIndexerChainEvent :=
    { bareEvent eventType txHash 0 1 with creatorId := some "K", actor := bidder }
  payload :=
    { keyId := some "K"
      auctionId := some "A"
      bidder := none
      wallet := none
      amount := amount
      bidAmount := none
      reserve := none
      reservePrice := none
      clearingPrice := none
      price := none }

def auctionStart : AuctionChainEvent := auctionEvent "AuctionCreated" "t" none none

def auctionBid (txHash bidder : String) (amount : ℤ) : AuctionChainEvent :=
  auctionEvent "BidPlaced" txHash (some bidder) (some amount)

/- Two bids, one of them delivered again after the auction. -/
def auctionDeliveries : List (List AuctionChainEvent) :=
  [[auctionStart, auctionBid "u" "B" 50000000], [auctionBid "v" "C" 70000000,
    auctionEvent "AuctionSettled" "w" none none, auctionBid "u" "B" 50000000]]

theorem highest_bid_kept_sample :
    ∃ crew, RunsTo (Crew.attempt auctionIndexer) (Crew.Admits Sound)
      (auctionHandlers auctionDeliveries) (servedMoves 0 4 ++ servedMoves 1 8) crew ∧
      (crew.store.keyLaunchAuction.rows.map fun row =>
        (row.highestBid, row.highestBidder, row.status)) = [(some 70000000, some "C", .settled)] ∧
      HighestBids crew.store := by
  have hRun := runsTo_of_runAllowed (Option.some_get (show (runAllowed (Crew.attempt auctionIndexer)
      (Crew.Admits Sound) (auctionHandlers auctionDeliveries)
      (servedMoves 0 4 ++ servedMoves 1 8)).isSome = true by
      decide +kernel)).symm
  have hKept :=
    @highest_bid_kept [auctionStart, auctionBid "u" "B" 50000000, auctionBid "v" "C" 70000000,
      auctionEvent "AuctionSettled" "w" none none] (by decide) auctionDeliveries (by decide)
  exact ⟨_, hRun, by decide +kernel, hKept.1 _ _ hRun⟩

/-
  A lower bid that has read no highest one replaces a higher one;
  and two amounts may be one number.
-/
theorem highest_bid_lost :
    (∃ moves crew, RunsTo (Crew.attempt auctionIndexer) (fun _ _ => True) (auctionHandlers
      [[auctionStart, auctionBid "u" "B" 50000000], [auctionBid "v" "C" 30000000]]) moves crew ∧
      ¬HighestBids crew.store) ∧ ∃ moves crew,
      RunsTo (Crew.attempt auctionIndexer) (fun _ _ => True) (auctionHandlers [[auctionStart,
        auctionBid "u" "B" 90071992547409920000000,
        auctionBid "v" "C" 90071992547409930000000]]) moves crew ∧
      ¬HighestBids crew.store := by
  have hLost : ∀ {crew : Crew AuctionDb AuctionWork} (highest : ℤ),
      (crew.store.keyLaunchAuction.find? "A").bind KeyLaunchAuction.highestBid = some highest →
        (∃ bid ∈ crew.store.bidsOf "A", highest < bid.amount) → ¬HighestBids crew.store := by
    rintro crew highest hStored ⟨bid, hMem, hLt⟩ hHighest
    rcases Option.bind_eq_some_iff.mp hStored with ⟨row, hRow, hBid⟩
    have hRowHighest := hHighest "A" row hRow
    unfold KeyLaunchAuction.HasHighest at hRowHighest
    rw [hBid] at hRowHighest
    exact absurd (hRowHighest.2 bid hMem) (not_le.mpr hLt)
  constructor
  · refine ⟨servedMoves 0 3 ++ servedMoves 1 2 ++ servedMoves 0 1 ++ servedMoves 1 1, _,
      runsTo_of_runLabels (Option.some_get (show (runLabels _ _ _).isSome = true by
        decide)).symm,
      ?_⟩
    exact hLost 30000000 (by decide) (by decide)
  · refine ⟨servedMoves 0 7, _, runsTo_of_runLabels (Option.some_get
      (show (runLabels _ _ _).isSome = true by
        decide)).symm,
      ?_⟩
    exact hLost 90071992547409920000000 (by decide +kernel) (by decide)

end Indexer

end AccessLayer
