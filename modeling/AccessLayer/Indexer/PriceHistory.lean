import AccessLayer.Alerts.PriceAlerts

/-
  Prices that are recorded for trades one after another
  (`src/modules/indexer/price-snapshot.service.ts`).

  The trades are those of one creator, in the order of the chain.
  Their calls do not overlap, and no statement of them fails.
  Caches, alerts and logs that follow a write are left out.

  Main result: `follows_chain_iff`
-/

-- Recorded Prices
----

namespace AccessLayer

namespace Indexer

open Transactional Program Alerts

/- A call of `upsertPriceSnapshot` at the time of the clock. -/
structure PriceCall where
  event : TradeEventPayload
  now : ℤ

def PriceCall.program (config : IndexerConfig) (call : PriceCall) : IndexerM Unit :=
  upsertPriceSnapshot { config with now := call.now } call.event.entry

def recordTradePrices (config : IndexerConfig) (calls : List PriceCall) : IndexerM Unit :=
  forEach (PriceCall.program config) calls

def TradeDb.pricesOf (db : TradeDb) (creatorId : String) : List CreatorPriceHistory :=
  db.creatorPriceHistory.filter (·.creatorId = creatorId)

def TradeDb.currentPrice (db : TradeDb) (creatorId : String) : Option ℤ :=
  (db.creatorPriceSnapshot.find? creatorId).map CreatorPriceSnapshot.currentPrice

def TradeDb.lastTradeAt (db : TradeDb) (creatorId : String) : Option ℤ :=
  (db.creatorPriceSnapshot.find? creatorId).bind CreatorPriceSnapshot.lastTradeAt

/- The time of the last trade that is stored, and of the new. -/
def tradeTimes (db : TradeDb) (creatorId : String) (calls : List PriceCall) : List ℤ :=
  (db.lastTradeAt creatorId).toList ++ calls.map fun call => call.event.tradeAt

/-
  Each trade has its row in the history, in their order, and the
  current price is that of the last of them.
-/
structure FollowsChain (db : TradeDb) (creatorId : String) (calls : List PriceCall)
    (db' : TradeDb) : Prop where
  history : db'.pricesOf creatorId = db.pricesOf creatorId ++ calls.map fun call => call.event.entry
  current : db'.currentPrice creatorId = (calls.getLast?.map fun call => call.event.price).or
    (db.currentPrice creatorId)

-- One Trade
----

variable {config : IndexerConfig} {db db' : TradeDb} {creatorId : String} {call : PriceCall}

/- What a call that is not skipped leaves of its creator. -/
structure PriceRecorded (db : TradeDb) (creatorId : String) (event : TradeEventPayload)
    (db' : TradeDb) : Prop where
  history : db'.pricesOf creatorId = db.pricesOf creatorId ++ [event.entry]
  current : db'.currentPrice creatorId = some event.price
  last : db'.lastTradeAt creatorId = some event.tradeAt

theorem recorded_of_stored (snapshot : CreatorPriceSnapshot)
    (hHistory : db'.creatorPriceHistory = db.creatorPriceHistory ++ [call.event.entry])
    (hStored : db'.creatorPriceSnapshot.find? call.event.creatorId = some snapshot)
    (hPrice : snapshot.currentPrice = call.event.price)
    (hTime : snapshot.lastTradeAt = some call.event.tradeAt) :
    PriceRecorded db call.event.creatorId call.event db' where
  history := by
    rw [TradeDb.pricesOf, hHistory, List.filter_append]
    congr 1
    exact List.filter_cons_of_pos (decide_eq_true rfl)
  current := by
    rw [TradeDb.currentPrice, hStored, Option.map_some, hPrice]
  last := by
    rw [TradeDb.lastTradeAt, hStored, Option.bind_some, hTime]

theorem recorded_seed (hNone : db.creatorPriceSnapshot.find? call.event.creatorId = none) :
    ∃ db', (seedPriceSnapshot call.event.entry).run db = (.ok (), db') ∧
      PriceRecorded db call.event.creatorId call.event db' := by
  let row : CreatorPriceSnapshot :=
    { creatorId := call.event.creatorId
      currentPrice := call.event.price
      price24hAgo := call.event.price
      lastTradeAt := some call.event.tradeAt }
  have hInsert :
      db.creatorPriceSnapshot.insert? row = some (db.creatorPriceSnapshot.create row hNone) :=
    Table.insert?_of_fresh hNone
  have hRun : (seedPriceSnapshot call.event.entry).run db = (.ok (), { db with
            creatorPriceSnapshot := db.creatorPriceSnapshot.create row hNone
            creatorPriceHistory :=
              db.creatorPriceHistory ++ [call.event.entry] }) := by
    unfold seedPriceSnapshot writeDb
    rw [run_execute]
    simp only [TradeEventPayload.entry] at hInsert ⊢
    rw [hInsert]
  refine ⟨_, hRun, recorded_of_stored row rfl ?_ rfl rfl⟩
  exact (Table.find?_create _ row hNone _).trans (if_pos rfl)

theorem recorded_move {existing : CreatorPriceSnapshot} (price24hAgo : ℤ)
    (hSome : db.creatorPriceSnapshot.find? call.event.creatorId = some existing) :
    ∃ db', (movePriceSnapshot price24hAgo call.event.entry).run db = (.ok (), db') ∧
      PriceRecorded db call.event.creatorId call.event db' := by
  let f := CreatorPriceSnapshot.withTrade call.event.price price24hAgo call.event.tradeAt
  have hKey : ∀ row, key (f row) = key row :=
    key_withTrade call.event.price price24hAgo call.event.tradeAt
  have hRun : (movePriceSnapshot price24hAgo call.event.entry).run db = (.ok (), { db with
            creatorPriceSnapshot := db.creatorPriceSnapshot.update call.event.creatorId f hKey
            creatorPriceHistory :=
              db.creatorPriceHistory ++ [call.event.entry] }) := by
    unfold movePriceSnapshot writeDb
    rw [run_execute]
    simp only [TradeEventPayload.entry]
    rw [hSome]
  refine ⟨_, hRun, recorded_of_stored (f existing) rfl ?_ rfl rfl⟩
  refine (Table.find?_update_same _ _ f hKey).trans ?_
  rw [hSome, Option.map_some]

theorem run_priceCall (config : IndexerConfig) (db : TradeDb) (call : PriceCall) :
    ∃ db', (call.program config).run db = (.ok (), db') ∧
      ((∀ last ∈ db.lastTradeAt call.event.creatorId, last < call.event.tradeAt) ∧
        PriceRecorded db call.event.creatorId call.event db' ∨
        (∃ last ∈ db.lastTradeAt call.event.creatorId,
          call.event.tradeAt ≤ last) ∧ db' = db) := by
  unfold PriceCall.program upsertPriceSnapshot findSnapshot readDb
  simp only [run_bind, run_query]
  have hEntry : call.event.entry.creatorId = call.event.creatorId := rfl
  rw [hEntry]
  cases hFound : db.creatorPriceSnapshot.find? call.event.creatorId with
  | none =>
    rcases recorded_seed hFound with ⟨db', hRun, hRecorded⟩
    refine ⟨db', hRun, Or.inl ⟨?_, hRecorded⟩⟩
    simp [TradeDb.lastTradeAt, hFound]
  | some existing =>
    have hLast : db.lastTradeAt call.event.creatorId =
        existing.lastTradeAt := by
      rw [TradeDb.lastTradeAt, hFound, Option.bind_some]
    rw [hLast]
    dsimp only
    cases existing.lastTradeAt with
    | none =>
      rcases recorded_move existing.price24hAgo hFound with ⟨db', hRun, hRecorded⟩
      exact ⟨db', hRun, Or.inl ⟨by simp, hRecorded⟩⟩
    | some last =>
      have hTime : call.event.entry.recordedAt = call.event.tradeAt := rfl
      simp only [hTime]
      split
      · rename_i hStale
        exact ⟨db, rfl, Or.inr ⟨⟨last, rfl, hStale⟩, rfl⟩⟩
      · rename_i hNewer
        rcases recorded_move _ hFound with ⟨db', hRun, hRecorded⟩
        refine ⟨db', hRun, Or.inl ⟨?_, hRecorded⟩⟩
        rintro _ ⟨⟩
        exact not_le.mp hNewer

-- Lists of Trades
----

variable {calls : List PriceCall}

theorem final_cons (hRun : (call.program config).run db = (.ok (), db')) :
    (recordTradePrices config (call :: calls)).final db =
      (recordTradePrices config calls).final db' := by
  unfold recordTradePrices final
  rw [forEach, run_bind, hRun]

theorem length_pricesOf_le (config : IndexerConfig)
    (hCreator : ∀ call ∈ calls, call.event.creatorId = creatorId) (db : TradeDb) :
    (((recordTradePrices config calls).final db).pricesOf creatorId).length ≤
      (db.pricesOf creatorId).length + calls.length := by
  induction calls generalizing db with
  | nil => exact Nat.le_refl _
  | cons call rest ih =>
    have hRest : ∀ call ∈ rest, call.event.creatorId = creatorId :=
      fun other hOther => hCreator other (List.mem_cons_of_mem _ hOther)
    have hOwn := hCreator call List.mem_cons_self
    rcases run_priceCall config db call with ⟨db', hRun, ⟨-, hRecorded⟩ | ⟨-, rfl⟩⟩
    · rw [hOwn] at hRecorded
      have hLe := ih hRest db'
      rw [hRecorded.history, List.length_append] at hLe
      rw [final_cons hRun]
      simp only [List.length_cons, List.length_nil] at hLe ⊢
      omega
    · have hLe := ih hRest db'
      rw [final_cons hRun, List.length_cons]
      omega

/- A later trade takes over the time that was stored. -/
theorem tradeTimes_of_recorded (hRecorded : PriceRecorded db creatorId call.event db')
    (calls : List PriceCall) :
    tradeTimes db' creatorId calls = (call :: calls).map fun call => call.event.tradeAt := by
  rw [tradeTimes, hRecorded.last]
  rfl

/- Only newer trades make up a history of all of them. -/
theorem increasing_of_length (config : IndexerConfig)
    (hCreator : ∀ call ∈ calls, call.event.creatorId = creatorId)
    (hOrder : (tradeTimes db creatorId calls).Pairwise (· ≤ ·))
    (hLength : (((recordTradePrices config calls).final db).pricesOf creatorId).length =
      (db.pricesOf creatorId).length + calls.length) :
    (tradeTimes db creatorId calls).Pairwise (· < ·) := by
  induction calls generalizing db with
  | nil =>
    unfold tradeTimes
    cases db.lastTradeAt creatorId with
    | none => exact List.Pairwise.nil
    | some last => exact List.pairwise_singleton _ _
  | cons call rest ih =>
    have hRest : ∀ call ∈ rest, call.event.creatorId = creatorId :=
      fun other hOther => hCreator other (List.mem_cons_of_mem _ hOther)
    have hOwn := hCreator call List.mem_cons_self
    rcases run_priceCall config db call with ⟨db', hRun, ⟨hNewer, hRecorded⟩ | ⟨-, rfl⟩⟩
    · rw [hOwn] at hNewer hRecorded
      have hTimes := tradeTimes_of_recorded hRecorded rest
      have hIncreasing : (tradeTimes db' creatorId rest).Pairwise (· < ·) := by
        apply ih hRest
        · rw [hTimes]
          exact (List.pairwise_append.mp hOrder).2.1
        · rw [final_cons hRun] at hLength
          rw [hLength, hRecorded.history, List.length_append,
            List.length_cons, List.length_singleton]
          omega
      rw [hTimes] at hIncreasing
      refine List.pairwise_append.mpr ⟨?_, hIncreasing, ?_⟩
      · cases db.lastTradeAt creatorId with
        | none => exact List.Pairwise.nil
        | some last => exact List.pairwise_singleton _ _
      · intro last hLast time hTime
        have hFirst := hNewer last (Option.mem_toList.mp hLast)
        rcases List.mem_cons.mp hTime with rfl | hLater
        · exact hFirst
        · exact hFirst.trans (List.rel_of_pairwise_cons hIncreasing hLater)
    · have hLe := length_pricesOf_le config hRest db'
      rw [final_cons hRun, List.length_cons] at hLength
      omega

theorem follows_chain_of_increasing (hCreator : ∀ call ∈ calls, call.event.creatorId = creatorId)
    (hIncreasing : (tradeTimes db creatorId calls).Pairwise (· < ·)) :
    FollowsChain db creatorId calls ((recordTradePrices config calls).final db) := by
  induction calls generalizing db with
  | nil => exact ⟨(List.append_nil _).symm, Option.none_or.symm⟩
  | cons call rest ih =>
    have hRest : ∀ call ∈ rest, call.event.creatorId = creatorId :=
      fun other hOther => hCreator other (List.mem_cons_of_mem _ hOther)
    have hOwn := hCreator call List.mem_cons_self
    rcases List.pairwise_append.mp hIncreasing with ⟨-, hTimes, hLater⟩
    rcases run_priceCall config db call with
      ⟨db', hRun, ⟨-, hRecorded⟩ | ⟨⟨last, hLast, hStale⟩, -⟩⟩
    · rw [hOwn] at hRecorded
      rw [final_cons hRun]
      have hFollows := @ih db' hRest ((tradeTimes_of_recorded hRecorded rest).symm ▸ hTimes)
      constructor
      · rw [hFollows.history, hRecorded.history, List.append_assoc]
        rfl
      · rw [hFollows.current, hRecorded.current]
        cases rest with
        | nil => rfl
        | cons next rest =>
          rw [List.getLast?_cons_cons, List.getLast?_cons]
          rfl
    · rw [hOwn] at hLast
      have hAfter := hLater last (Option.mem_toList.mpr hLast) call.event.tradeAt List.mem_cons_self
      exact absurd hStale (not_le.mpr hAfter)

/-
  The history has a row for each trade, and the price is that of
  the last of them, if and only if each trade is later than the
  one before it.
-/
theorem follows_chain_iff (hCreator : ∀ call ∈ calls, call.event.creatorId = creatorId)
    (hOrder : (tradeTimes db creatorId calls).Pairwise (· ≤ ·)) :
    FollowsChain db creatorId calls ((recordTradePrices config calls).final db) ↔
      (tradeTimes db creatorId calls).Pairwise (· < ·) := by
  constructor
  · intro hFollows
    apply increasing_of_length config hCreator hOrder
    rw [hFollows.history, List.length_append, List.length_map]
  · exact follows_chain_of_increasing hCreator

/- A trade of the creator `K` that takes place at a time. -/
def samplePriceCall (price tradeAt : ℤ) : PriceCall where
  event :=
    { creatorId := "K"
      price
      tradeAt
      supply := none
      direction := none }
  now := tradeAt + 1000

theorem follows_chain_sample :
    FollowsChain .empty "K" [samplePriceCall 10 5000, samplePriceCall 12 10000]
      ((recordTradePrices sampleConfig [samplePriceCall 10 5000, samplePriceCall 12 10000]).final
        .empty) := (follows_chain_iff (by decide) (by decide)).mpr (by decide)

/- The second of two trades of one ledger is not recorded. -/
theorem shared_time_lost :
    ¬ FollowsChain .empty "K" [samplePriceCall 10 5000, samplePriceCall 12 5000]
      ((recordTradePrices sampleConfig [samplePriceCall 10 5000,
        samplePriceCall 12 5000]).final .empty) := by
  intro hFollows
  exact absurd hFollows.current (by decide)

end Indexer

end AccessLayer
