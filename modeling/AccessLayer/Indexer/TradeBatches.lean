import AccessLayer.Indexer.Pipeline

/-
  What a batch of events does to the trade activities.

  Every trade of a batch is recorded as one activity; no other
  statement of the pipeline changes the activities.

  Main declaration: `activity_processTrades`
-/

-- Statements Outside the Traded Tables
----

namespace AccessLayer

namespace Indexer

open Transactional Program

section

variable {I : TradeDb → Prop}

/- A write that cannot fail. -/
theorem keeps_alwaysWrite {f : TradeDb → TradeDb} (h : ∀ db, I db → I (f db)) :
    (alwaysWrite f).Keeps I := by
  unfold alwaysWrite writeDb
  apply keeps_execute
  intro db a db' hI hWrite
  cases hWrite
  exact h db hI

variable {α : Type}

/- Readers keep everything. -/
theorem keeps_readDb (f : TradeDb → α) : (readDb f).Keeps I := keeps_query _ _

/- What the rows of a write tell is what must be kept. -/
theorem keeps_writeDb {f : TradeDb → Except IndexerError (α × TradeDb)}
    (h : ∀ db a db', I db → f db = .ok (a, db') → I db') :
    (writeDb f).Keeps I := by
  exact keeps_execute _ h

section

variable {R : TradeDb → TradeDb → Prop} (hRefl : ∀ db, R db db)

include hRefl

variable {α : Type}

/- A reader changes nothing. -/
theorem changes_readDb (f : TradeDb → α) : (readDb f).Changes R := changes_query hRefl _ _

/- A write that fails changes nothing. -/
theorem changes_writeDb {f : TradeDb → Except IndexerError (α × TradeDb)}
    (h : ∀ db a db', f db = .ok (a, db') → R db db') : (writeDb f).Changes R :=
  changes_execute hRefl _ h

/- A write that cannot fail changes what it says. -/
theorem changes_alwaysWrite {f : TradeDb → TradeDb} (h : ∀ db, R db (f db)) :
    (alwaysWrite f).Changes R := by
  apply changes_writeDb hRefl
  intro db a db' hWrite
  cases hWrite
  exact h db

/- A failed snapshot is only logged. -/
theorem changes_recordHoldingSnapshot
    (hR : ∀ db snapshots, R db { db with walletHoldingSnapshot := snapshots })
    (ownerAddress creatorId : String) (balance : ℚ) (recordedAt : Int) :
    (recordHoldingSnapshot ownerAddress creatorId balance recordedAt).Changes R := by
  unfold recordHoldingSnapshot
  split
  · trivial
  · apply changes_tryCatch
    · exact changes_alwaysWrite hRefl fun db => hR db _
    · exact fun _ => trivial

/- The current price and its history move together. -/
theorem changes_upsertPriceSnapshot
    (hR : ∀ db snapshots history, R db { db with
          creatorPriceSnapshot := snapshots
          creatorPriceHistory := history }) (config : IndexerConfig) (entry : CreatorPriceHistory) :
    (upsertPriceSnapshot config entry).Changes R := by
  have hMove : ∀ price24hAgo, (movePriceSnapshot price24hAgo entry).Changes R := by
    intro price24hAgo
    apply changes_writeDb hRefl
    intro db a db' hWrite
    split at hWrite
    · cases hWrite
      exact hR db _ _
    · cases hWrite
  apply changes_bind (changes_readDb hRefl _)
  intro existing
  split
  · apply changes_writeDb hRefl
    intro db a db' hWrite
    split at hWrite
    · cases hWrite
      exact hR db _ _
    · cases hWrite
  · split
    · exact hMove _
    · split
      · trivial
      · exact hMove _

/- `BigInt` may throw, and writes nothing. -/
omit hRefl in
theorem changes_toBigInt (value : ℚ) : (toBigInt value).Changes R := by
  unfold toBigInt
  split
  · trivial
  · trivial

/- The price is recorded after both conversions. -/
theorem changes_recordPrice
    (hR : ∀ db snapshots history, R db { db with
          creatorPriceSnapshot := snapshots
          creatorPriceHistory := history }) (config : IndexerConfig) (trade : TradeFields)
    (supplyAfterTrade : ℚ) :
    (recordPrice config trade supplyAfterTrade).Changes R := by
  apply changes_bind (changes_toBigInt _)
  intro price
  apply changes_bind (changes_toBigInt _)
  exact fun supply => changes_upsertPriceSnapshot hRefl hR _ _

/- A sale is logged with what was read. -/
theorem changes_readForSellLog (trade : TradeFields) : (readForSellLog trade).Changes R := by
  unfold readForSellLog
  split
  · trivial
  · apply changes_bind (changes_readDb hRefl _)
    intro _
    apply changes_bind (changes_readDb hRefl _)
    exact fun _ => trivial

/- Referrals and their events change together. -/
theorem changes_recordFirstTradeReferralReward
    (hR : ∀ db referral events, R db { db with referral, referralEvent := events })
    (config : IndexerConfig) (trade : TradeFields) :
    (recordFirstTradeReferralReward config trade).Changes R := by
  apply changes_alwaysWrite hRefl
  intro db
  simp only [claimReferral]
  split
  · exact hRefl db
  · split
    · exact hRefl db
    · exact hR db _ _

/- Only profiles change, at each attempt. -/
theorem changes_persistCirculatingSupply
    (hR : ∀ db profiles, R db { db with creatorProfile := profiles }) (config : IndexerConfig)
    (creatorId : String) :
    (persistCirculatingSupply config creatorId).Changes R := by
  have hAttempt : (writeDb (recomputeSupply config creatorId)).Changes R :=
    changes_writeDb hRefl fun db supply db' hWrite => by
      rcases recomputeSupply_eq_ok_iff.mp hWrite with ⟨row, -, -, -, rfl⟩
      exact hR db _
  have hWithin : ∀ attempts, (persistSupplyWithin config creatorId attempts).Changes R := by
    intro attempts
    induction attempts with
    | zero => exact hAttempt
    | succ attempts ih => exact changes_tryCatch hAttempt fun _ => ih
  exact hWithin 2

end

/- Snapshots are in a table of their own. -/
theorem keeps_recordHoldingSnapshot
    (hI : ∀ db snapshots, I db → I { db with walletHoldingSnapshot := snapshots })
    (ownerAddress creatorId : String) (balance : ℚ) (recordedAt : Int) :
    (recordHoldingSnapshot ownerAddress creatorId balance recordedAt).Keeps I :=
  keeps_of_changes (changes_recordHoldingSnapshot (fun _ => id) hI _ _ _ _)

/- Prices are in tables of their own. -/
theorem keeps_recordPrice
    (hI : ∀ db snapshots history, I db → I { db with
          creatorPriceSnapshot := snapshots
          creatorPriceHistory := history }) (config : IndexerConfig) (trade : TradeFields)
    (supplyAfterTrade : ℚ) : (recordPrice config trade supplyAfterTrade).Keeps I :=
  keeps_of_changes (changes_recordPrice (fun _ => id) hI config trade supplyAfterTrade)

/- The log of a sale keeps everything. -/
theorem keeps_readForSellLog (trade : TradeFields) : (readForSellLog trade).Keeps I :=
  keeps_of_changes (changes_readForSellLog (fun _ => id) trade)

/- Rewards are in tables of their own. -/
theorem keeps_recordFirstTradeReferralReward
    (hI : ∀ db referral events, I db → I { db with referral, referralEvent := events })
    (config : IndexerConfig) (trade : TradeFields) :
    (recordFirstTradeReferralReward config trade).Keeps I :=
  keeps_of_changes (changes_recordFirstTradeReferralReward (fun _ => id) hI config trade)

/- A cursor that cannot be moved is only logged. -/
theorem keeps_updateIndexedLedger (hI :
    ∀ db cursor, I db → I { db with indexedLedger := cursor }) (ledger : Int) (cursor : String) :
    (updateIndexedLedger ledger cursor).Keeps I := by
  apply keeps_tryCatch
  · apply keeps_alwaysWrite
    exact fun db hDb => hI db _ hDb
  · exact fun _ => keeps_pure ()

/- An empty batch does not move the cursor. -/
theorem keeps_advanceIndexerCursorForBatch (hI :
    ∀ db cursor, I db → I { db with indexedLedger := cursor }) (events : List IndexerChainEvent) :
    (advanceIndexerCursorForBatch events).Keeps I := by
  unfold advanceIndexerCursorForBatch
  split
  · exact keeps_pure ()
  · exact keeps_updateIndexedLedger hI _ _

end

-- Activities Are Appended
----

variable {I : TradeDb → Prop}

/- A property of the activities alone. -/
def AboutActivity (I : TradeDb → Prop) : Prop := ∀ db db', db'.activity = db.activity → I db → I db'

/- A balance is set without regard to its cost. -/
theorem keeps_updateOwnership (hI : AboutActivity I) (ownerAddress creatorId : String)
    (balanceChange : ℚ) (occurredAt : Int) :
    (updateOwnership ownerAddress creatorId balanceChange occurredAt).Keeps I := by
  apply keeps_bind (keeps_readDb _)
  intro existing
  apply keeps_bind
  · apply keeps_writeDb
    intro db a db' hDb hWrite
    cases hWrite
    exact hI db _ rfl hDb
  · exact fun balance => keeps_recordHoldingSnapshot (fun db _ hDb => hI db _ rfl hDb) _ _ _ _

/- A purchase changes one position. -/
theorem keeps_recordKeyPurchase (hI : AboutActivity I) (ownerAddress creatorId : String)
    (quantityBought pricePerKey : ℚ) (boughtAt : Int) :
    (recordKeyPurchase ownerAddress creatorId quantityBought pricePerKey boughtAt).Keeps I := by
  apply keeps_bind (keeps_readDb _)
  intro existing
  apply keeps_bind
  · apply keeps_writeDb
    intro db a db' hDb hWrite
    cases hWrite
    exact hI db _ rfl hDb
  · exact fun balance => keeps_recordHoldingSnapshot (fun db _ hDb => hI db _ rfl hDb) _ _ _ _

/- A sale too, unless it is refused. -/
theorem keeps_recordKeySale (hI : AboutActivity I) (ownerAddress creatorId : String)
    (quantitySold pricePerKey : ℚ) (soldAt : Int) :
    (recordKeySale ownerAddress creatorId quantitySold pricePerKey soldAt).Keeps I := by
  apply keeps_bind (keeps_readDb _)
  intro existing
  split
  · exact keeps_throw _
  · apply keeps_bind
    · apply keeps_writeDb
      intro db a db' hDb hWrite
      split at hWrite
      · cases hWrite
        exact hI db _ rfl hDb
      · cases hWrite
    · exact fun balance => keeps_recordHoldingSnapshot (fun db _ hDb => hI db _ rfl hDb) _ _ _ _

/- Both ways to record a sale change positions alone. -/
theorem keeps_recordOwnership (hI : AboutActivity I) (trade : TradeFields) :
    (recordOwnership trade).Keeps I := by
  unfold recordOwnership
  split
  · exact keeps_recordKeyPurchase hI _ _ _ _ _
  · apply keeps_tryCatch (keeps_recordKeySale hI _ _ _ _ _)
    exact fun _ => keeps_updateOwnership hI _ _ _ _

/- What follows the activity leaves it alone. -/
theorem keeps_applyTrade (hI : AboutActivity I) (config : IndexerConfig) (trade : TradeFields) :
    (applyTrade config trade).Keeps I := by
  apply keeps_bind (keeps_recordOwnership hI trade)
  intro _
  apply keeps_bind
  · exact keeps_of_changes (changes_persistCirculatingSupply (fun _ => id) (fun db profiles hDb =>
      hI db { db with creatorProfile := profiles } rfl hDb)
      _ _)
  intro supplyAfterTrade
  apply keeps_bind
  · exact keeps_recordPrice (fun db _ _ hDb => hI db _ rfl hDb) _ _ _
  · exact fun _ => keeps_readForSellLog trade

-- Trades of a Batch
----

variable {config : IndexerConfig} {events : List IndexerChainEvent} {trades : List TradeFields}
variable {db : TradeDb}

/- The trades that a batch is processed as. -/
def tradesIn (events : List IndexerChainEvent) : List TradeFields :=
  (dedupeChainEvents events).filterMap IndexerChainEvent.trade

/- The trades in their order; the first failure ends the batch. -/
def processTrades (config : IndexerConfig) : List TradeFields → IndexerM Unit
  | [] => pure ()
  | trade :: rest => do
    processTrade config trade
    processTrades config rest

/- Skipped events run no statement. -/
theorem processAll_eq (config : IndexerConfig) (events : List IndexerChainEvent) :
    processAll config events = processTrades config (events.filterMap IndexerChainEvent.trade) := by
  induction events with
  | nil => rfl
  | cons event rest ih =>
    unfold processAll processTradeEvent
    rw [ih]
    cases hTrade : event.trade with
    | none =>
      rw [List.filterMap_cons_none hTrade]
      rfl
    | some trade =>
      rw [List.filterMap_cons_some hTrade]
      rfl

/- A batch: its trades, then the cursor. -/
theorem processTradeEvents_eq (config : IndexerConfig) (events : List IndexerChainEvent) :
    processTradeEvents config events = processTrades config (tradesIn events) >>=
      fun _ => advanceIndexerCursorForBatch events := by
  unfold processTradeEvents tradesIn
  rw [processAll_eq]

/- Every trade of a batch that is reached meets a condition on the state it finds. -/
def EachReached (config : IndexerConfig) (meets : TradeDb → TradeFields → Prop) :
    TradeDb → List TradeFields → Prop
  | _, [] => True
  | db, trade :: rest =>
    meets db trade ∧ (((processTrade config trade).run db).1.isOk = true →
      EachReached config meets ((processTrade config trade).run db).2 rest)

/- Each trade is judged on the state that was reached. -/
instance decidableEachReached (config : IndexerConfig) (meets : TradeDb → TradeFields → Prop)
    [∀ db trade, Decidable (meets db trade)] :
    ∀ db trades, Decidable (EachReached config meets db trades)
  | _, [] => inferInstanceAs (Decidable True)
  | db, trade :: rest =>
    have := decidableEachReached config meets ((processTrade config trade).run db).2 rest
    inferInstanceAs (Decidable (_ ∧ (_ → _)))

variable {meets : TradeDb → TradeFields → Prop}

/- By induction on the trades of a batch. -/
theorem EachReached.processTrades
    (hStep : ∀ db trade, I db → meets db trade → I ((processTrade config trade).run db).2)
    (hI : I db) (hEach : EachReached config meets db trades) :
    I ((processTrades config trades).run db).2 := by
  induction trades generalizing db with
  | nil => exact hI
  | cons trade rest ih =>
    rcases hEach with ⟨hFirst, hRest⟩
    have hNext := hStep db trade hI hFirst
    unfold Indexer.processTrades
    rw [run_bind]
    cases hRun : (processTrade config trade).run db with
    | mk result db' =>
      rw [hRun] at hNext hRest
      cases result with
      | error e => exact hNext
      | ok _ => exact ih hNext (hRest rfl)

/- What such trades keep, a batch keeps. -/
theorem EachReached.processTradeEvents
    (hStep : ∀ db trade, I db → meets db trade → I ((processTrade config trade).run db).2)
    (hCursor : ∀ db cursor, I db → I { db with indexedLedger := cursor }) (hI : I db)
    (hEach : EachReached config meets db (tradesIn events)) :
    I ((processTradeEvents config events).run db).2 := by
  have hTrades := hEach.processTrades hStep hI
  rw [processTradeEvents_eq, run_bind]
  cases hRun : (Indexer.processTrades config (tradesIn events)).run db with
  | mk result db' =>
    rw [hRun] at hTrades
    cases result with
    | error e => exact hTrades
    | ok _ => exact keeps_run (keeps_advanceIndexerCursorForBatch hCursor events) hTrades

/- A sale that the position covers is subtracted from it without rounding. -/
def SubtractsExactly (db : TradeDb) (trade : TradeFields) : Prop :=
  trade.direction = .sell → ∀ row ∈ db.keyOwnership.find? (trade.actor, trade.creatorId),
    trade.amount ≤ balanceOf (some row) →
      Doubles.sub row.balance trade.amount = row.balance - trade.amount

instance (db : TradeDb) (trade : TradeFields) : Decidable (SubtractsExactly db trade) :=
  inferInstanceAs (Decidable (_ → ∀ row ∈ _, _ → _))

/- A trade is recorded as one activity, whatever follows. -/
theorem activity_processTrade (config : IndexerConfig) (trade : TradeFields) (db : TradeDb) :
    ((processTrade config trade).run db).2.activity = db.activity ++ [trade.activity] := by
  have hReferral : (claimReferral config trade db).activity = db.activity := by
    simp only [claimReferral]
    split
    · rfl
    · split <;> rfl
  have hKept : (((applyTrade config trade).run ((claimReferral config trade db).addActivity
      trade.activity)).2).activity = (claimReferral config trade db).activity ++
      [trade.activity] :=
    keeps_run (keeps_applyTrade (I := fun s => s.activity =
      (claimReferral config trade db).activity ++ [trade.activity])
      (fun s s' hSame hs => hSame.trans hs) config trade) rfl
  rw [← hReferral]
  exact hKept

/- A batch that completes appends an activity for each trade. -/
theorem activity_processTrades (hOk : ((processTrades config trades).run db).1 = .ok ()) :
    ((processTrades config trades).run db).2.activity =
      db.activity ++ trades.map TradeFields.activity := by
  induction trades generalizing db with
  | nil => simp [processTrades]
  | cons trade rest ih =>
    have hFirst := activity_processTrade config trade db
    simp only [processTrades, run_bind] at hOk ⊢
    cases hRun : (processTrade config trade).run db with
    | mk result db' =>
      cases result with
      | error e => simp [hRun] at hOk
      | ok _ =>
        simp only [hRun] at hOk hFirst ⊢
        rw [ih hOk, hFirst]
        simp

/- The same, cursor included. -/
theorem activity_of_run (hOk : ((processTradeEvents config events).run db).1 = .ok ()) :
    ((processTradeEvents config events).run db).2.activity = db.activity ++
      (tradesIn events).map TradeFields.activity := by
  rw [processTradeEvents_eq, run_bind] at hOk ⊢
  cases hRun : (processTrades config (tradesIn events)).run db with
  | mk result db' =>
    cases result with
    | error e => simp [hRun] at hOk
    | ok _ =>
      have hTrades := activity_processTrades
          (by rw [hRun] : ((processTrades config (tradesIn events)).run db).1 = .ok ())
      rw [hRun] at hTrades
      rw [← hTrades]
      exact keeps_run (keeps_advanceIndexerCursorForBatch (I := fun s => s.activity = db'.activity)
        (fun _ _ hs => hs) events) rfl

end Indexer

end AccessLayer
