import AccessLayer.Indexer.TradeBatches

/-
  Redelivery of a batch of trade events.

  A batch is attempted any number of times; each attempt is cut
  off or fails somewhere.  Then the batch is delivered in full.

  Main result: `redelivery_effectively_once`
-/

-- Attempts of a Batch
----

namespace AccessLayer

namespace Indexer

open Transactional Program

section

/-
  The state after some attempts of a batch.  Each has its own
  settings, and the store's outcome of each of its statements.
-/
def partialAttempts (events : List IndexerChainEvent) :
    List (IndexerConfig × List Outcome) → TradeDb → TradeDb
  | [], db => db
  | (config, outcomes) :: rest, db =>
    partialAttempts events rest ((processTradeEvents config events).attempt outcomes db)

/-
  The second statement of an attempt takes effect.  It creates
  the activity of the first trade; the first one only claims a
  referral.
-/
def ReachesActivity : List Outcome → Prop
  | .served :: .served :: _ => True
  | .served :: .lost :: _ => True
  | _ => False

variable {config : IndexerConfig} {trade : TradeFields} {rest : List TradeFields}
variable {events : List IndexerChainEvent} {n : Nat}

/- At least so many activities are stored. -/
def HasActivities (n : Nat) (db : TradeDb) : Prop := n ≤ db.activity.length

/- Activities are only counted. -/
theorem hasActivities_about (n : Nat) : AboutActivity (HasActivities n) := by
  intro db db' hSame hDb
  unfold HasActivities
  rw [hSame]
  exact hDb

/- No trade takes an activity away. -/
theorem keeps_processTrades (n : Nat) (config : IndexerConfig) (trades : List TradeFields) :
    (processTrades config trades).Keeps (HasActivities n) := by
  have hAbout := hasActivities_about n
  induction trades with
  | nil => exact keeps_pure ()
  | cons trade rest ih =>
    refine keeps_bind ?_ (fun _ => ih)
    apply keeps_bind (keeps_recordFirstTradeReferralReward (fun _ _ _ hDb => hDb) _ _)
    intro _
    apply keeps_bind
    · apply keeps_alwaysWrite
      intro db hDb
      unfold HasActivities TradeDb.addActivity
      rw [List.length_append]
      exact Nat.le_add_right_of_le hDb
    · exact fun _ => keeps_applyTrade hAbout _ _

theorem keeps_processTradeEvents (n : Nat) (config : IndexerConfig)
    (events : List IndexerChainEvent) :
    (processTradeEvents config events).Keeps (HasActivities n) := by
  rw [processTradeEvents_eq]
  apply keeps_bind (keeps_processTrades n config _)
  exact fun _ => keeps_advanceIndexerCursorForBatch (fun _ _ hDb => hDb) _

/- Two states that differ in referrals and the cursor only. -/
def SameTrading (a b : TradeDb) : Prop :=
  ∃ referral referralEvent indexedLedger, b = { a with referral, referralEvent, indexedLedger }

theorem SameTrading.refl (db : TradeDb) : SameTrading db db :=
  ⟨db.referral, db.referralEvent, db.indexedLedger, rfl⟩

variable {a b : TradeDb}

theorem SameTrading.symm (h : SameTrading a b) : SameTrading b a := by
  rcases h with ⟨_, _, _, rfl⟩
  exact ⟨a.referral, a.referralEvent, a.indexedLedger, rfl⟩

theorem SameTrading.trans {c : TradeDb} (h : SameTrading a b) (h' : SameTrading b c) :
    SameTrading a c := by
  rcases h with ⟨_, _, _, rfl⟩
  rcases h' with ⟨referral, referralEvent, indexedLedger, rfl⟩
  exact ⟨referral, referralEvent, indexedLedger, rfl⟩

/- A reward is outside the traded tables. -/
theorem sameTrading_claimReferral (config : IndexerConfig) (trade : TradeFields) (db : TradeDb) :
    SameTrading db (claimReferral config trade db) := by
  simp only [claimReferral]
  split
  · exact .refl db
  · split
    · exact .refl db
    · exact ⟨_, _, db.indexedLedger, rfl⟩

variable {next : Unit → IndexerM Unit} {outcomes : List Outcome} {db : TradeDb}

/- An attempt that gets to the activity has recorded it. -/
theorem attempt_reaches (hNext : ∀ n, (next ()).Keeps (HasActivities n))
    (hReaches : ReachesActivity outcomes) :
    HasActivities (db.activity.length + 1) ((processTrades config (trade :: rest) >>= next).attempt
      outcomes db) := by
  rcases sameTrading_claimReferral config trade db with ⟨_, _, _, hClaim⟩
  have hStored : HasActivities (db.activity.length + 1) ((claimReferral config trade db).addActivity
      trade.activity) := by
    rw [hClaim]
    unfold HasActivities TradeDb.addActivity
    rw [List.length_append]
    rfl
  have hRest : ((applyTrade config trade >>= fun _ => processTrades config rest) >>= next).Keeps
      (HasActivities (db.activity.length + 1)) := by
    apply keeps_bind
    · apply keeps_bind
      · exact keeps_applyTrade (hasActivities_about _) _ _
      · exact fun _ => keeps_processTrades _ _ _
    · exact fun _ => hNext _
  rcases outcomes with _ | ⟨o, _ | ⟨o', os⟩⟩
  · cases hReaches
  · cases o <;> cases hReaches
  · cases o with
    | served =>
      cases o' with
      | served => exact keeps_attempt hRest os hStored
      | rejected => cases hReaches
      | lost =>
        change HasActivities _ (attempt (.raise .database : IndexerM Unit) os _)
        rw [attempt_raise]
        exact hStored
    | rejected => cases hReaches
    | lost => cases hReaches

/- Any other attempt changes referrals only. -/
theorem attempt_stops (hStops : ¬ReachesActivity outcomes) :
    SameTrading db ((processTrades config (trade :: rest) >>= next).attempt outcomes db) := by
  have hClaim := sameTrading_claimReferral config trade db
  rcases outcomes with _ | ⟨o, os⟩
  · exact .refl db
  · cases o with
    | rejected =>
      change SameTrading db (attempt (.raise .database : IndexerM Unit) os db)
      rw [attempt_raise]
      exact .refl db
    | lost =>
      change SameTrading db (attempt (.raise .database : IndexerM Unit) os _)
      rw [attempt_raise]
      exact hClaim
    | served =>
      rcases os with _ | ⟨o', os⟩
      · exact hClaim
      · cases o' with
        | served => exact absurd trivial hStops
        | lost => exact absurd trivial hStops
        | rejected =>
          change SameTrading db (attempt (.raise .database : IndexerM Unit) os _)
          rw [attempt_raise]
          exact hClaim

/- A batch without trades moves the cursor only. -/
theorem attempt_no_trades (hNone : tradesIn events = []) (outcomes : List Outcome) (db : TradeDb) :
    SameTrading db ((processTradeEvents config events).attempt outcomes db) := by
  rw [processTradeEvents_eq, hNone]
  apply keeps_attempt (I := SameTrading db) ?_ outcomes (.refl db)
  change (advanceIndexerCursorForBatch events).Keeps _
  unfold advanceIndexerCursorForBatch
  split
  · exact keeps_pure ()
  · apply keeps_tryCatch
    · apply keeps_alwaysWrite
      intro s hs
      exact hs.trans ⟨s.referral, s.referralEvent, _, rfl⟩
    · exact fun _ => keeps_pure ()

variable {attempts : List (IndexerConfig × List Outcome)}

theorem hasActivities_partialAttempts (h : HasActivities n db) :
    HasActivities n (partialAttempts events attempts db) := by
  induction attempts generalizing db with
  | nil => exact h
  | cons attempt rest ih =>
    exact ih (keeps_attempt (keeps_processTradeEvents n attempt.1 events) attempt.2 h)

/- One such attempt is enough. -/
theorem partialAttempts_reach (hTrades : tradesIn events ≠ [])
    (hReaches : ∃ a ∈ attempts, ReachesActivity a.2) :
    HasActivities (db.activity.length + 1) (partialAttempts events attempts db) := by
  induction attempts generalizing db with
  | nil =>
    rcases hReaches with ⟨_, hMem, -⟩
    cases hMem
  | cons attempt rest ih =>
    rcases attempt with ⟨config, outcomes⟩
    rcases hReaches with ⟨a, hMem, hReach⟩
    unfold partialAttempts
    rcases List.mem_cons.mp hMem with rfl | hLater
    · apply hasActivities_partialAttempts
      rcases List.exists_cons_of_ne_nil hTrades with ⟨trade, others, hCons⟩
      rw [processTradeEvents_eq, hCons]
      apply attempt_reaches _ hReach
      exact fun n => keeps_advanceIndexerCursorForBatch (fun _ _ hDb => hDb) _
    · have hMore : db.activity.length + 1 ≤ ((processTradeEvents config events).attempt
          outcomes db).activity.length + 1 :=
        Nat.succ_le_succ (keeps_attempt (keeps_processTradeEvents _ config events)
          outcomes (le_refl db.activity.length : HasActivities db.activity.length db))
      exact le_trans hMore (ih ⟨a, hLater, hReach⟩)

/- All others leave the traded tables as they were. -/
theorem partialAttempts_stop (hStop : tradesIn events = [] ∨ ∀ a ∈ attempts, ¬ReachesActivity a.2) :
    SameTrading db (partialAttempts events attempts db) := by
  induction attempts generalizing db with
  | nil => exact .refl db
  | cons attempt rest ih =>
    rcases attempt with ⟨config, outcomes⟩
    have hFirst : SameTrading db ((processTradeEvents config events).attempt outcomes db) := by
      cases hTrades : tradesIn events with
      | nil => exact attempt_no_trades hTrades outcomes db
      | cons trade others =>
        rcases hStop with hNone | hStops
        · rw [hTrades] at hNone
          cases hNone
        · rw [processTradeEvents_eq, hTrades]
          exact attempt_stops (hStops _ List.mem_cons_self)
    refine hFirst.trans (ih ?_)
    exact hStop.imp_right fun hStops a hMem => hStops a (List.mem_cons_of_mem _ hMem)

end

-- Trading Ignores Referrals
----

/- Programs that run alike on states that trade alike. -/
def IgnoresReferrals {α : Type} (program : IndexerM α) : Prop := Agree SameTrading program program

variable {α : Type}

theorem ignores_pure (a : α) : IgnoresReferrals (pure a : IndexerM α) := .ret a

/- Programs that agree go on to programs that do. -/
theorem ignores_bind {β : Type} {program : IndexerM α} {next : α → IndexerM β}
    (h : IgnoresReferrals program) (hNext : ∀ a, IgnoresReferrals (next a)) :
    IgnoresReferrals (program >>= next) := Agree.bind h hNext

theorem ignores_readDb {f : TradeDb → α} (h : ∀ (db : TradeDb) referral referralEvent indexedLedger,
    f { db with referral, referralEvent, indexedLedger } = f db) :
    IgnoresReferrals (readDb f) := by
  refine Agree.query ?_
  rintro a _ ⟨referral, referralEvent, indexedLedger, rfl⟩
  exact (h a _ _ _).symm

theorem ignores_writeDb {f : TradeDb → Except IndexerError (α × TradeDb)}
    (h : ∀ (db : TradeDb) referral referralEvent indexedLedger,
      f { db with referral, referralEvent, indexedLedger } = (f db).map fun result => (result.1,
        { result.2 with referral, referralEvent, indexedLedger })) :
    IgnoresReferrals (writeDb f) := by
  refine Agree.execute ?_ ?_
  · rintro a _ value a' ⟨referral, referralEvent, indexedLedger, rfl⟩ hWrite
    rw [h, hWrite]
    exact ⟨_, rfl, _, _, _, rfl⟩
  · rintro a _ e ⟨referral, referralEvent, indexedLedger, rfl⟩ hWrite
    rw [h, hWrite]
    rfl

theorem ignores_recordHoldingSnapshot (ownerAddress creatorId : String) (balance : ℚ)
    (recordedAt : Int) :
    IgnoresReferrals (recordHoldingSnapshot ownerAddress creatorId balance recordedAt) := by
  unfold recordHoldingSnapshot
  split
  · exact ignores_pure ()
  · apply Agree.tryCatch (ignores_writeDb fun _ _ _ _ => rfl)
    exact fun _ => ignores_pure ()

theorem ignores_updateOwnership (ownerAddress creatorId : String) (balanceChange : ℚ)
    (occurredAt : Int) :
    IgnoresReferrals (updateOwnership ownerAddress creatorId balanceChange occurredAt) := by
  apply ignores_bind (ignores_readDb fun _ _ _ _ => rfl)
  intro existing
  apply ignores_bind (ignores_writeDb fun _ _ _ _ => rfl)
  exact fun _ => ignores_recordHoldingSnapshot _ _ _ _

theorem ignores_recordKeyPurchase (ownerAddress creatorId : String) (quantityBought pricePerKey : ℚ)
    (boughtAt : Int) :
    IgnoresReferrals (recordKeyPurchase ownerAddress creatorId quantityBought
      pricePerKey boughtAt) := by
  apply ignores_bind (ignores_readDb fun _ _ _ _ => rfl)
  intro existing
  apply ignores_bind (ignores_writeDb fun _ _ _ _ => rfl)
  exact fun _ => ignores_recordHoldingSnapshot _ _ _ _

theorem ignores_recordKeySale (ownerAddress creatorId : String) (quantitySold pricePerKey : ℚ)
    (soldAt : Int) :
    IgnoresReferrals (recordKeySale ownerAddress creatorId quantitySold pricePerKey soldAt) := by
  apply ignores_bind (ignores_readDb fun _ _ _ _ => rfl)
  intro existing
  split
  · exact .raise _
  · apply ignores_bind
    · apply ignores_writeDb
      intro db referral referralEvent indexedLedger
      dsimp only
      split <;> rfl
    · exact fun _ => ignores_recordHoldingSnapshot _ _ _ _

theorem ignores_recordOwnership (trade : TradeFields) :
    IgnoresReferrals (recordOwnership trade) := by
  unfold recordOwnership
  split
  · exact ignores_recordKeyPurchase _ _ _ _ _
  · apply Agree.tryCatch (ignores_recordKeySale _ _ _ _ _)
    exact fun _ => ignores_updateOwnership _ _ _ _

theorem ignores_persistCirculatingSupply (config : IndexerConfig) (creatorId : String) :
    IgnoresReferrals (persistCirculatingSupply config creatorId) := by
  have hAttempt : IgnoresReferrals
      (writeDb (recomputeSupply config creatorId)) := by
    apply ignores_writeDb
    intro db referral referralEvent indexedLedger
    have hSupply : TradeDb.activitySupply { db with referral, referralEvent, indexedLedger }
        creatorId = db.activitySupply creatorId := rfl
    unfold recomputeSupply
    rw [hSupply]
    cases db.creatorProfile.find? creatorId with
    | none => rfl
    | some row =>
      dsimp only
      split <;> rfl
  have hWithin : ∀ attempts, IgnoresReferrals (persistSupplyWithin config creatorId attempts) := by
    intro attempts
    induction attempts with
    | zero => exact hAttempt
    | succ attempts ih => exact Agree.tryCatch hAttempt fun _ => ih
  exact hWithin 2

theorem ignores_upsertPriceSnapshot (config : IndexerConfig) (entry : CreatorPriceHistory) :
    IgnoresReferrals (upsertPriceSnapshot config entry) := by
  have hMove : ∀ price24hAgo, IgnoresReferrals (movePriceSnapshot price24hAgo entry) := by
    intro price24hAgo
    apply ignores_writeDb
    intro db referral referralEvent indexedLedger
    dsimp only
    split <;> rfl
  apply ignores_bind (ignores_readDb fun _ _ _ _ => rfl)
  intro existing
  split
  · apply ignores_writeDb
    intro db referral referralEvent indexedLedger
    dsimp only
    split <;> rfl
  · split
    · exact hMove _
    · split
      · exact ignores_pure ()
      · exact hMove _

theorem ignores_toBigInt (value : ℚ) : IgnoresReferrals (toBigInt value) := by
  unfold toBigInt
  split
  · exact ignores_pure _
  · exact .raise _

/- A claim writes referrals and their events alone. -/
theorem ignores_claim (config : IndexerConfig) (trade : TradeFields) :
    IgnoresReferrals (recordFirstTradeReferralReward config trade) := by
  unfold recordFirstTradeReferralReward alwaysWrite
  refine Agree.execute ?_ ?_
  · intro a b value a' hSame hWrite
    cases hWrite
    refine ⟨claimReferral config trade b, rfl, ?_⟩
    exact (sameTrading_claimReferral config trade a).symm.trans
      (hSame.trans (sameTrading_claimReferral config trade b))
  · intro a b e hSame hWrite
    cases hWrite

theorem ignores_applyTrade (config : IndexerConfig) (trade : TradeFields) :
    IgnoresReferrals (applyTrade config trade) := by
  apply ignores_bind (ignores_recordOwnership trade)
  intro _
  apply ignores_bind (ignores_persistCirculatingSupply _ _)
  intro supplyAfterTrade
  apply ignores_bind
  · apply ignores_bind (ignores_toBigInt _)
    intro price
    apply ignores_bind (ignores_toBigInt _)
    exact fun supply => ignores_upsertPriceSnapshot _ _
  · intro _
    unfold readForSellLog
    split
    · exact ignores_pure ()
    · apply ignores_bind (ignores_readDb fun _ _ _ _ => rfl)
      intro _
      apply ignores_bind (ignores_readDb fun _ _ _ _ => rfl)
      exact fun _ => ignores_pure ()

theorem ignores_processTrade (config : IndexerConfig) (trade : TradeFields) :
    IgnoresReferrals (processTrade config trade) := by
  have hCreate : IgnoresReferrals (createActivity trade.activity) := by
    unfold createActivity alwaysWrite
    exact ignores_writeDb fun _ _ _ _ => rfl
  apply ignores_bind (ignores_claim config trade)
  intro _
  apply ignores_bind hCreate
  exact fun _ => ignores_applyTrade config trade

theorem ignores_processTrades (config : IndexerConfig) (trades : List TradeFields) :
    IgnoresReferrals (processTrades config trades) := by
  induction trades with
  | nil => exact ignores_pure ()
  | cons trade rest ih =>
    apply ignores_bind (ignores_processTrade config trade)
    exact fun _ => ih

theorem ignores_advanceIndexerCursorForBatch (events : List IndexerChainEvent) :
    IgnoresReferrals (advanceIndexerCursorForBatch events) := by
  unfold advanceIndexerCursorForBatch
  split
  · exact ignores_pure ()
  · refine Agree.tryCatch ?_ (fun _ => ignores_pure ())
    unfold alwaysWrite
    refine Agree.execute ?_ ?_
    · rintro a _ value a' ⟨referral, referralEvent, _, rfl⟩ hWrite
      cases hWrite
      exact ⟨_, rfl, referral, referralEvent, _, rfl⟩
    · intro a b e hSame hWrite
      cases hWrite

/- A batch does not see what attempts left of rewards. -/
theorem ignores_processTradeEvents (config : IndexerConfig) (events : List IndexerChainEvent) :
    IgnoresReferrals (processTradeEvents config events) := by
  rw [processTradeEvents_eq]
  apply ignores_bind (ignores_processTrades config _)
  exact fun _ => ignores_advanceIndexerCursorForBatch events

-- Effectively-Once Indexing
----

/- The read models that a redelivery must not change. -/
structure SameReadModels (a b : TradeDb) : Prop where
  keyOwnership : a.keyOwnership = b.keyOwnership
  activity : a.activity = b.activity
  creatorProfile : a.creatorProfile = b.creatorProfile
  creatorPriceHistory : a.creatorPriceHistory = b.creatorPriceHistory

theorem SameTrading.sameReadModels {a b : TradeDb} (h : SameTrading a b) : SameReadModels a b := by
  rcases h with ⟨_, _, _, rfl⟩
  constructor <;> rfl

/-
  A batch that is redelivered in full after some attempts leaves
  the read models of a single delivery if and only if it has no
  trade, or every attempt ended before its first activity was
  stored.
-/
theorem redelivery_effectively_once {config : IndexerConfig} {events : List IndexerChainEvent}
    {attempts : List (IndexerConfig × List Outcome)} {db : TradeDb}
    (hOnce : ((processTradeEvents config events).run db).1 = .ok ()) (hRedelivered :
      ((processTradeEvents config events).run (partialAttempts events attempts db)).1 = .ok ()) :
    SameReadModels ((processTradeEvents config events).run db).2
      ((processTradeEvents config events).run (partialAttempts events attempts db)).2 ↔
      tradesIn events = [] ∨ ∀ a ∈ attempts, ¬ReachesActivity a.2 := by
  constructor
  · intro hSame
    by_contra hNot
    rw [not_or, not_forall] at hNot
    rcases hNot with ⟨hTrades, a, hReach⟩
    rw [Classical.not_imp, not_not] at hReach
    have hMore : HasActivities (db.activity.length + 1) (partialAttempts events attempts db) :=
      partialAttempts_reach hTrades ⟨a, hReach⟩
    have hActivity := hSame.activity
    rw [activity_of_run hOnce, activity_of_run hRedelivered] at hActivity
    have hLength := congrArg List.length hActivity
    simp only [List.length_append] at hLength
    unfold HasActivities at hMore
    omega
  · intro hStop
    exact (Agree.run (ignores_processTradeEvents config events)
      (partialAttempts_stop hStop)).2.sameReadModels

/- An attempt that fails on its first statement is harmless. -/
theorem redelivery_effectively_once_rejected :
    SameReadModels ((processTradeEvents sampleConfig [sampleBuy "t" 100]).run freshCreator).2
      ((processTradeEvents sampleConfig [sampleBuy "t" 100]).run
        (partialAttempts [sampleBuy "t" 100] [(sampleConfig, [.rejected])] freshCreator)).2 := by
  apply (redelivery_effectively_once _ _).mpr
  · right
    intro a hMem hReach
    rcases List.mem_singleton.mp hMem with rfl
    cases hReach
  · decide +kernel
  · decide +kernel

/-
  An attempt that dies once its activity is stored.  The full
  redelivery succeeds and stores the activity again.
-/
theorem redelivery_duplicates :
    ((processTradeEvents sampleConfig [sampleBuy "t" 100]).run freshCreator).1 = .ok () ∧
      ((processTradeEvents sampleConfig [sampleBuy "t" 100]).run
        (partialAttempts [sampleBuy "t" 100] [(sampleConfig, [.served, .served])]
          freshCreator)).1 = .ok () ∧ ¬SameReadModels ((processTradeEvents sampleConfig
        [sampleBuy "t" 100]).run freshCreator).2 ((processTradeEvents sampleConfig
        [sampleBuy "t" 100]).run (partialAttempts [sampleBuy "t" 100]
          [(sampleConfig, [.served, .served])] freshCreator)).2 := by
  refine ⟨by decide +kernel, by decide +kernel, ?_⟩
  intro hSame
  have hLengths :
      ((processTradeEvents sampleConfig [sampleBuy "t" 100]).run freshCreator).2.activity.length ≠
        ((processTradeEvents sampleConfig [sampleBuy "t" 100]).run
          (partialAttempts [sampleBuy "t" 100] [(sampleConfig, [.served, .served])]
            freshCreator)).2.activity.length := by decide +kernel
  exact hLengths (congrArg List.length hSame.activity)

end Indexer

end AccessLayer
