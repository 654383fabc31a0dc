import AccessLayer.Indexer.SupplyConservation
import Mathlib

/-
  Trading volumes
  (`src/utils/trading-volume.utils.ts`).

  The readers look the price of a trade up by the name of a field
  of its payload.  Rows of the `Trade` table are given.

  Main result: `volumes_agree_iff`
-/

-- Payloads
----

namespace AccessLayer

namespace Indexer

open Transactional Program

/- A value in a payload. -/
inductive PayloadValue where
  | number (value : ℚ)
  | text (value : String)

/- The fields as they are stored; a price is stored by its digits. -/
def ActivityPayload.fields : ActivityPayload → List (String × PayloadValue)
  | .indexedTrade amount priceAtTrade feePaid ledgerSequence paymentAsset =>
    [("amount", .number amount), ("price_at_trade", .number priceAtTrade),
      ("fee_paid", .text feePaid), ("ledger_sequence", .number ledgerSequence),
      ("payment_asset", .text paymentAsset)]
  | .httpSell keyId quantity minPrice currentPrice payoutXlm costBasis realisedPnl balanceAfter
    circulatingSupplyAfter =>
    [("keyId", .text keyId), ("quantity", .number quantity), ("minPrice", .number minPrice),
      ("currentPrice", .number currentPrice), ("payoutXlm", .number payoutXlm),
      ("costBasis", .number costBasis), ("realisedPnl", .number realisedPnl),
      ("balanceAfter", .number balanceAfter),
      ("circulatingSupplyAfter", .number circulatingSupplyAfter)]
  | .other => []

/- A field by its name. -/
def ActivityPayload.field (payload : ActivityPayload) (name : String) : Option PayloadValue :=
  payload.fields.lookup name

/- None where `BigInt` throws. -/
def toBigInt? : PayloadValue → Option ℤ
  | .number value => if value.isInt then some value.num else none
  | .text value => value.toInt?

-- Readers
----

/- The fields of a `Trade` row that are read. -/
structure VolumeTrade where
  buyer : String
  price : ℤ
  timestamp : ℤ

/- Trades of the last days. -/
def Activity.isTradeWithin (now days : ℤ) (activity : Activity) : Bool :=
  activity.type.isTrade ∧ now - days * dayMs ≤ activity.createdAt ∧ activity.createdAt ≤ now

/- A field that is absent adds nothing. -/
def addPrice (price? : ActivityPayload → Option PayloadValue) (totalVolume : ℤ)
    (activity : Activity) : Option ℤ :=
  match price? activity.payload with
  | none => some totalVolume
  | some value => (toBigInt? value).map (totalVolume + ·)

/- None where the computation throws. -/
def compute24hVolume (now : ℤ) (db : TradeDb) (creatorId : String) : Option ℤ :=
  (db.activity.filter fun activity =>
    activity.creatorId = some creatorId ∧ activity.isTradeWithin now 1).foldlM
      (addPrice fun payload => payload.field "price") 0

/- The `Trade` table is read only where no activity has a price. -/
def computeWallet30dVolume (now : ℤ) (db : TradeDb) (trades : List VolumeTrade)
    (wallet : String) : Option ℤ := do
  let totalVolume ← (db.activity.filter fun activity =>
    activity.actor = wallet ∧ activity.isTradeWithin now 30).foldlM
      (addPrice fun payload => (payload.field "price").or (payload.field "price_at_trade")) 0
  if totalVolume = 0 then
    some ((trades.filter fun trade =>
      trade.buyer = wallet ∧ now - 30 * dayMs ≤ trade.timestamp ∧ trade.timestamp ≤ now).map
        VolumeTrade.price).sum
  else some totalVolume

/- The trade was indexed within the last days. -/
def TradeFields.within (now days : ℤ) (trade : TradeFields) : Prop :=
  now - days * dayMs ≤ trade.tradeAt ∧ trade.tradeAt ≤ now

instance (now days : ℤ) (trade : TradeFields) : Decidable (trade.within now days) :=
  inferInstanceAs (Decidable (_ ∧ _))

/- The prices of a creator's trades of the last day. -/
def dayVolume (now : ℤ) (trades : List TradeFields) (creatorId : String) : ℚ :=
  ((trades.filter fun trade => trade.creatorId = creatorId ∧ trade.within now 1).map
    TradeFields.price).sum

/- The volumes of all names that some trade bears. -/
def sumVolumes (volume : String → Option ℤ) (names : List String) : Option ℤ :=
  (names.dedup.mapM volume).map List.sum

/-
  The volume of each creator is that of the last day, and both
  volumes add up alike if all trades are of that day.
-/
structure VolumesAgree (now : ℤ) (trades : List TradeFields) (db : TradeDb) : Prop where
  ofCreators : ∀ creatorId, ∃ volume : ℤ, compute24hVolume now db creatorId = some volume ∧
    (volume : ℚ) = dayVolume now trades creatorId
  overall : (∀ trade ∈ trades, trade.within now 1) →
    sumVolumes (computeWallet30dVolume now db []) (trades.map TradeFields.actor) =
      sumVolumes (compute24hVolume now db) (trades.map TradeFields.creatorId)

-- Agreement
----

variable {config : IndexerConfig} {events : List IndexerChainEvent} {trades : List TradeFields}
variable {db : TradeDb} {now : ℤ}

/- Only whole prices can be recorded. -/
theorem isInt_of_processTrade {trade : TradeFields}
    (hOk : ((processTrade config trade).run db).1 = .ok ()) : trade.price.isInt = true := by
  rcases ok_of_run_bind hOk with ⟨_, _, -, hCreated⟩
  rcases ok_of_run_bind hCreated with ⟨_, _, -, hApplied⟩
  rcases ok_of_run_bind hApplied with ⟨_, _, -, hPersisted⟩
  rcases ok_of_run_bind hPersisted with ⟨_, _, -, hRecorded⟩
  rcases ok_of_run_bind hRecorded with ⟨_, _, hPriced, -⟩
  rcases ok_of_run_bind (congrArg Prod.fst hPriced) with ⟨_, _, hInt, -⟩
  by_contra hFraction
  rw [toBigInt, if_neg hFraction] at hInt
  cases hInt

/- So are all prices of a batch that completes. -/
theorem isInt_of_processTrades (hOk : ((processTrades config trades).run db).1 = .ok ()) :
    ∀ trade ∈ trades, trade.price.isInt = true := by
  induction trades generalizing db with
  | nil => rintro _ ⟨⟩
  | cons trade rest ih =>
    rcases ok_of_run_bind hOk with ⟨_, _, hFirst, hRest⟩
    intro other hOther
    rcases List.mem_cons.mp hOther with rfl | hLater
    · exact isInt_of_processTrade (congrArg Prod.fst hFirst)
    · exact ih hRest other hLater

/- The same of the events it came from. -/
theorem isInt_of_run (hOk : ((processTradeEvents config events).run db).1 = .ok ()) :
    ∀ trade ∈ tradesIn events, trade.price.isInt = true := by
  rw [processTradeEvents_eq] at hOk
  rcases ok_of_run_bind hOk with ⟨_, _, hTrades, -⟩
  exact isInt_of_processTrades (congrArg Prod.fst hTrades)

/- No indexed trade has the field `price`. -/
theorem compute24hVolume_indexed (hActivity : db.activity = trades.map TradeFields.activity)
    (creatorId : String) : compute24hVolume now db creatorId = some 0 := by
  unfold compute24hVolume
  rw [hActivity, List.filter_map]
  generalize trades.filter _ = kept
  induction kept with
  | nil => rfl
  | cons trade rest ih => exact ih

/- Prices that are stored are added up. -/
theorem foldlM_prices (hWhole : ∀ trade ∈ trades, trade.price.isInt = true) (start : ℤ) :
    (trades.map TradeFields.activity).foldlM
      (addPrice fun payload => (payload.field "price").or (payload.field "price_at_trade"))
      start = some (start + (trades.map fun trade => trade.price.num).sum) := by
  induction trades generalizing start with
  | nil => exact congrArg some (add_zero start).symm
  | cons trade rest ih =>
    have hFirst :
        addPrice (fun payload => (payload.field "price").or (payload.field "price_at_trade")) start
          trade.activity = some (start + trade.price.num) := by
      change (toBigInt? (.number trade.price)).map (start + ·) = _
      rw [toBigInt?, if_pos (hWhole trade List.mem_cons_self), Option.map_some]
    rw [List.map_cons, List.foldlM_cons, hFirst, List.map_cons, List.sum_cons, ← add_assoc]
    exact ih (fun other hOther => hWhole other (List.mem_cons_of_mem _ hOther)) _

/- The reader of wallets knows the field that is written. -/
theorem computeWallet30dVolume_indexed (hActivity : db.activity = trades.map TradeFields.activity)
    (hWhole : ∀ trade ∈ trades, trade.price.isInt = true)
    (hRecent : ∀ trade ∈ trades, trade.within now 1) (wallet : String) :
    computeWallet30dVolume now db [] wallet =
      some ((trades.filter (·.actor = wallet)).map fun trade => trade.price.num).sum := by
  have hKept : (trades.map TradeFields.activity).filter
      (fun activity => activity.actor = wallet ∧ activity.isTradeWithin now 30) =
      (trades.filter (·.actor = wallet)).map TradeFields.activity := by
    rw [List.filter_map]
    congr 1
    apply List.filter_congr
    intro trade hTrade
    have hDays : trade.activity.isTradeWithin now 30 = true := by
      rcases hRecent trade hTrade with ⟨hLow, hHigh⟩
      have hType : trade.activity.type.isTrade = true := by
        unfold TradeFields.activity TradeFields.activityType
        cases trade.direction <;> rfl
      refine decide_eq_true ⟨hType, ?_, hHigh⟩
      change now - 30 * dayMs ≤ trade.tradeAt
      omega
    simp only [Function.comp, hDays, and_true]
    rfl
  unfold computeWallet30dVolume
  rw [hActivity, hKept,
    foldlM_prices (fun trade hTrade => hWhole trade (List.mem_of_mem_filter hTrade)),
    zero_add]
  generalize ((trades.filter (·.actor = wallet)).map fun trade => trade.price.num).sum = volume
  by_cases hZero : volume = 0
  · subst hZero
    rfl
  · exact if_neg hZero

/- What each name contributes adds up to what all contribute. -/
theorem sum_by_name {α M : Type} [AddCommMonoid M] (name : α → String) (g : α → M) (xs : List α)
    {names : List String} (hNodup : names.Nodup) (hAll : ∀ x ∈ xs, name x ∈ names) :
    (names.map fun n => ((xs.filter (name · = n)).map g).sum).sum = (xs.map g).sum := by
  induction xs with
  | nil => simp
  | cons x rest ih =>
    have hSplit : (names.map fun n => (((x :: rest).filter (name · = n)).map g).sum) =
        names.map fun n => (if name x = n then g x else 0) +
          ((rest.filter (name · = n)).map g).sum := by
      apply List.map_congr_left
      intro n _
      by_cases hSame : name x = n <;> simp [hSame]
    have hOne : (names.map fun n => if name x = n then g x else 0).sum = g x := by
      rw [← List.sum_toFinset _ hNodup, Finset.sum_ite_eq,
        if_pos (List.mem_toFinset.mpr (hAll x List.mem_cons_self))]
    rw [hSplit, List.sum_map_add, hOne, List.map_cons, List.sum_cons,
      ih fun y hy => hAll y (List.mem_cons_of_mem x hy)]

/- Where no computation throws, the volumes are added up. -/
theorem sumVolumes_eq {volume : String → Option ℤ} {value : String → ℤ}
    (hVolume : ∀ n, volume n = some (value n)) (names : List String) :
    sumVolumes volume names = some (names.dedup.map value).sum := by
  have hAll : ∀ ns : List String, ns.mapM volume = some (ns.map value) := by
    intro ns
    induction ns with
    | nil => rfl
    | cons n rest ih =>
      rw [List.mapM_cons, hVolume, ih]
      rfl
  unfold sumVolumes
  rw [hAll, Option.map_some]

/-
  The day's volume is read from a field that the pipeline does
  not write: it is right where the prices add up to zero.
-/
theorem volumes_agree_iff (hEmpty : db.activity = [])
    (hOk : ((processTradeEvents config events).run db).1 = .ok ()) :
    VolumesAgree now (tradesIn events) ((processTradeEvents config events).run db).2 ↔
      ∀ creatorId, dayVolume now (tradesIn events) creatorId = 0 := by
  have hActivity := activity_of_run hOk
  rw [hEmpty, List.nil_append] at hActivity
  have hWhole := isInt_of_run hOk
  constructor
  · intro hAgree creatorId
    rcases hAgree.ofCreators creatorId with ⟨volume, hVolume, hSame⟩
    rw [compute24hVolume_indexed hActivity] at hVolume
    rw [← hSame, ← Option.some.inj hVolume, Int.cast_zero]
  · intro hZero
    refine ⟨fun creatorId => ?_, fun hRecent => ?_⟩
    · exact ⟨0, compute24hVolume_indexed hActivity creatorId, (hZero creatorId).symm⟩
    · rw [sumVolumes_eq (compute24hVolume_indexed hActivity),
        sumVolumes_eq (computeWallet30dVolume_indexed hActivity hWhole hRecent),
        sum_by_name TradeFields.actor _ _ (List.nodup_dedup _)
          (fun trade hTrade => List.mem_dedup.mpr (List.mem_map_of_mem hTrade))]
      have hPrices : ((tradesIn events).map TradeFields.price).sum = 0 := by
        rw [← sum_by_name TradeFields.creatorId _ _
          (List.nodup_dedup ((tradesIn events).map TradeFields.creatorId))
          (fun trade hTrade => List.mem_dedup.mpr (List.mem_map_of_mem hTrade))]
        apply List.sum_eq_zero
        intro volume hVolume
        rcases List.mem_map.mp hVolume with ⟨creatorId, -, rfl⟩
        rw [← hZero creatorId, dayVolume]
        congr 2
        apply List.filter_congr
        intro trade hTrade
        simp only [hRecent trade hTrade, and_true]
      have hCast : ((((tradesIn events).map fun trade => trade.price.num).sum : ℤ) : ℚ) = 0 := by
        rw [← hPrices, Int.cast_list_sum, List.map_map]
        congr 1
        apply List.map_congr_left
        intro trade hTrade
        exact (Rat.eq_num_of_isInt (hWhole trade hTrade)).symm
      rw [Int.cast_eq_zero.mp hCast]
      simp

/- A purchase for 10000000 stroops. -/
def volumeSample : List IndexerChainEvent := [sampleBuy "t" 100]

/- And a later one by another wallet, at twice the price. -/
def twoPurchases : List IndexerChainEvent :=
  volumeSample ++ [{ sampleBuy "u" 101 with actor := some "B", price := some 20000000 }]

/- Two wallets trade on one day. -/
theorem volumes_agree_sample :
    VolumesAgree 1000000 (tradesIn twoPurchases)
      ((processTradeEvents sampleConfig twoPurchases).run freshCreator).2 ↔
      ∀ creatorId, dayVolume 1000000 (tradesIn twoPurchases) creatorId = 0 :=
  volumes_agree_iff rfl (by decide +kernel)

/- The volume of the day is read as zero. -/
theorem day_volume_missed :
    ¬VolumesAgree 1000000 (tradesIn volumeSample)
      ((processTradeEvents sampleConfig volumeSample).run freshCreator).2 := by
  intro hAgree
  rcases hAgree.ofCreators "K" with ⟨volume, hVolume, hSame⟩
  have hNone : compute24hVolume 1000000
      ((processTradeEvents sampleConfig volumeSample).run freshCreator).2 "K" = some 0 := by
    decide +kernel
  have hSome : dayVolume 1000000 (tradesIn volumeSample) "K" ≠ 0 := by decide +kernel
  rw [hNone] at hVolume
  rw [← Option.some.inj hVolume] at hSame
  exact hSome hSame.symm

end Indexer

end AccessLayer
