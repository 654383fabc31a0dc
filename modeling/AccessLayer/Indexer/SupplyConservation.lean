import AccessLayer.Creator.Sell
import AccessLayer.Indexer.TradeBatches
import AccessLayer.Keys.Buyback
import AccessLayer.Library.Runs

/-
  Whether the supply of a key is conserved by its three writers:
  indexed trades, sales over HTTP and buybacks.

  Writers that round nothing keep the balances equal to what was
  bought less what was sold or bought back.  The circulating
  supply goes wrong where it is folded again from the activities
  of indexed trades alone, or where its milestone changes.

  Main result: `supply_conserved`
-/

-- Totals
----

namespace AccessLayer

namespace Indexer

open Transactional

section

/- `payload.quantity`, when the field is present. -/
def ActivityPayload.quantity? : ActivityPayload → Option ℚ
  | .httpSell _ quantity _ _ _ _ _ _ _ => some quantity
  | _ => none

def Activity.keysBought (activity : Activity) : ℚ :=
  if activity.type = .keyBought then
    activity.payload.amount?.getD 0
  else 0

def Activity.keysSold (activity : Activity) : ℚ :=
  if activity.type = .keyBought then 0
  else
    (activity.payload.amount?.or activity.payload.quantity?).getD 0

/- What the supply folded from activities misses. -/
def Activity.keysSoldOverHttp (activity : Activity) : ℚ :=
  if activity.type = .keyBought then 0
  else activity.payload.quantity?.getD 0

/- The sum of a quantity over the trades of a key. -/
def TradeDb.sumTrades (db : TradeDb) (f : Activity → ℚ) (creatorId : String) : ℚ :=
  ((db.tradesOf creatorId).map f).sum

def TradeDb.bought (db : TradeDb) : String → ℚ := db.sumTrades Activity.keysBought

def TradeDb.sold (db : TradeDb) : String → ℚ := db.sumTrades Activity.keysSold

def TradeDb.soldOverHttp (db : TradeDb) : String → ℚ := db.sumTrades Activity.keysSoldOverHttp

def TradeDb.boughtBack (db : TradeDb) (creatorId : String) : ℚ :=
  ((db.keyBuyback.filter fun buyback => buyback.keyId = creatorId).map KeyBuyback.quantity).sum

def TradeDb.netKeys (db : TradeDb) (creatorId : String) : ℚ :=
  db.bought creatorId - db.sold creatorId - db.boughtBack creatorId

/-
  Every profile's supply is the sum of the key's balances, which
  is what was bought less what was sold or bought back.
-/
def SupplyConserved (db : TradeDb) : Prop :=
  ∀ row ∈ db.creatorProfile.rows, row.circulatingSupply = db.totalBalance row.id ∧
    db.totalBalance row.id = db.netKeys row.id

instance : DecidablePred SupplyConserved := fun db =>
  inferInstanceAs (Decidable (∀ row ∈ db.creatorProfile.rows, _))

theorem SupplyConserved.of_find? {db : TradeDb} {creatorId : String} {row : CreatorProfile}
    (h : SupplyConserved db) (hRow : db.creatorProfile.find? creatorId = some row) :
    row.circulatingSupply = db.totalBalance creatorId ∧
      db.totalBalance creatorId = db.netKeys creatorId := by
  have hId : row.id = creatorId := Table.key_of_find? hRow
  have hHolds := h row (Table.mem_of_find? hRow)
  rw [hId] at hHolds
  exact hHolds

variable {activity : Activity}

theorem sumTrades_append {db db' : TradeDb} (hActivity : db'.activity = db.activity ++ [activity])
    (f : Activity → ℚ) (creatorId : String) :
    db'.sumTrades f creatorId = db.sumTrades f creatorId +
      if activity.creatorId = some creatorId ∧ activity.type.isTrade = true then
        f activity
      else 0 := by
  unfold TradeDb.sumTrades TradeDb.tradesOf
  rw [hActivity, List.filter_append]
  by_cases hTrade : activity.creatorId = some creatorId ∧ activity.type.isTrade = true
  · simp [hTrade]
  · rw [if_neg hTrade]
    have hNone : [activity].filter (fun a =>
      decide (a.creatorId = some creatorId) &&
        a.type.isTrade) = [] := by
      simpa using hTrade
    rw [hNone, List.append_nil, add_zero]

theorem sumTrades_congr {db db' : TradeDb} (hActivity : db'.activity = db.activity)
    (f : Activity → ℚ) :
    db'.sumTrades f = db.sumTrades f := by
  funext creatorId
  unfold TradeDb.sumTrades TradeDb.tradesOf
  rw [hActivity]

/- The exact sum that the folded supply stands for. -/
theorem sumTrades_supplyChange (db : TradeDb) (creatorId : String) :
    db.sumTrades Activity.supplyChange creatorId = db.bought creatorId - db.sold creatorId +
      db.soldOverHttp creatorId := by
  have hEach : ∀ activity : Activity, activity.supplyChange =
      activity.keysBought - activity.keysSold + activity.keysSoldOverHttp := by
    intro activity
    unfold Activity.supplyChange Activity.keysBought Activity.keysSold Activity.keysSoldOverHttp
    by_cases hBought : activity.type = .keyBought
    · simp [hBought]
    · simp only [hBought, if_false]
      cases activity.payload <;> simp [ActivityPayload.amount?, ActivityPayload.quantity?]
  unfold TradeDb.bought TradeDb.sold TradeDb.soldOverHttp TradeDb.sumTrades
  induction db.tradesOf creatorId with
  | nil => simp
  | cons activity rest ih =>
    simp only [List.map_cons, List.sum_cons]
    rw [ih, hEach activity]
    ring

-- Movements of Keys
----

variable {creatorId : String} {change : ℚ} {db db' : TradeDb}

/- All records of one key move by the same number of keys. -/
structure Moved (creatorId : String) (change : ℚ) (db db' : TradeDb) : Prop where
  total : ∀ c, db'.totalBalance c = db.totalBalance c + if creatorId = c then change else 0
  net : ∀ c, db'.netKeys c = db.netKeys c + if creatorId = c then change else 0
  others : ∀ c, c ≠ creatorId → db'.creatorProfile.find? c = db.creatorProfile.find? c
  supply : ∀ row', db'.creatorProfile.find? creatorId = some row' → ∃ row,
    db.creatorProfile.find? creatorId = some row ∧
    row'.circulatingSupply = row.circulatingSupply + change

theorem Moved.conserves (hMoved : Moved creatorId change db db') (h : SupplyConserved db) :
    SupplyConserved db' := by
  intro row' hMem
  have hFound := Table.find?_of_mem hMem
  change db'.creatorProfile.find? row'.id = some row' at hFound
  rw [hMoved.total, hMoved.net]
  by_cases hSame : creatorId = row'.id
  · rw [← hSame] at hFound ⊢
    rcases hMoved.supply row' hFound with ⟨row, hRow, hSupply⟩
    rcases h.of_find? hRow with ⟨hTotal, hNet⟩
    rw [if_pos rfl, hSupply, hTotal, hNet]
    exact ⟨rfl, rfl⟩
  · rw [hMoved.others _ (Ne.symm hSame)] at hFound
    rcases h.of_find? hFound with ⟨hTotal, hNet⟩
    rw [if_neg hSame, add_zero, add_zero]
    exact ⟨hTotal, hNet⟩

theorem netKeys_append (hActivity : db'.activity = db.activity ++ [activity])
    (hBuyback : db'.keyBuyback = db.keyBuyback) (hCreator : activity.creatorId = some creatorId)
    (hTrade : activity.type.isTrade = true) (c : String) :
    db'.netKeys c = db.netKeys c +
      if creatorId = c then
        activity.keysBought - activity.keysSold
      else 0 := by
  have hBack : db'.boughtBack c = db.boughtBack c := by
    unfold TradeDb.boughtBack
    rw [hBuyback]
  have hOf : (activity.creatorId = some c ∧ activity.type.isTrade = true) ↔ creatorId = c := by
    rw [hCreator, hTrade]
    simp
  unfold TradeDb.netKeys TradeDb.bought TradeDb.sold
  rw [sumTrades_append hActivity, sumTrades_append hActivity, hBack]
  simp only [hOf]
  split <;> ring

theorem totalBalance_update {owner : String} {row : KeyOwnership} (f : KeyOwnership → KeyOwnership)
    (hKey : ∀ r, key (f r) = key r) (hRow : db.keyOwnership.find? (owner, creatorId) = some row)
    (hOwnership :
      db'.keyOwnership = db.keyOwnership.update (owner, creatorId) f hKey) (c : String) :
    db'.totalBalance c = db.totalBalance c +
      if creatorId = c then (f row).balance - row.balance
      else 0 := by
  unfold TradeDb.totalBalance
  rw [hOwnership, Table.total_update _ _ _ _ hRow]
  have hCreator : row.creatorId = creatorId := (Prod.mk.inj (Table.key_of_find? hRow)).2
  have hSame : (f row).creatorId = creatorId := ((Prod.mk.inj (hKey row)).2).trans hCreator
  rw [hCreator, hSame]
  by_cases hC : creatorId = c
  · simp [hC]
  · simp [hC]

-- Sales over HTTP
----

open Program Creator

/- A sale over HTTP is subtracted from its position and its supply without rounding. -/
def SellsExactly (db : TradeDb) (walletAddress keyId : String) (body : SellRequestBody) : Prop :=
  (∀ row ∈ db.keyOwnership.find? (walletAddress, keyId),
    Doubles.sub row.balance body.quantity = row.balance - body.quantity) ∧
  ∀ row ∈ db.creatorProfile.find? keyId,
    Doubles.sub row.circulatingSupply body.quantity = row.circulatingSupply - body.quantity

instance (db : TradeDb) (walletAddress keyId : String) (body : SellRequestBody) :
    Decidable (SellsExactly db walletAddress keyId body) :=
  inferInstanceAs (Decidable ((∀ row ∈ _, _) ∧ ∀ row ∈ _, _))

theorem moved_sale {gates : SellGates} {walletAddress : String} {body : SellRequestBody}
    {sale : Sale} (hOk : sellTransaction gates walletAddress creatorId body db = .ok (sale, db'))
    (hExact : SellsExactly db walletAddress creatorId body) :
    Moved creatorId (-body.quantity) db db' := by
  rcases sellTransaction_eq_ok hOk with ⟨current, row, currentPriceXlm, payoutXlm, hCurrent, hRow,
    -, -, -, hSale, rfl⟩
  have hQuantity : sale.quantity = body.quantity := by
    rw [hSale]
    rfl
  have hCreator : sale.creatorId = creatorId := by
    rw [hSale]
    rfl
  have hActivity : (sale.record db).activity = db.activity ++ [sale.activity] := rfl
  have hProfiles : ∀ c, (sale.record db).creatorProfile.find? c =
      if c = creatorId then
        some (current.withCirculatingSupply sale.newSupply)
      else db.creatorProfile.find? c := by
    intro c
    rw [← hCreator] at hCurrent ⊢
    exact Table.find?_update_stored hCurrent _
      (CreatorProfile.key_withCirculatingSupply sale.newSupply) c
  refine ⟨?_, ?_, ?_, ?_⟩
  · intro c
    rw [totalBalance_update (.sold sale.newBalance sale.newCostBasis sale.newRealised)
      (key_sold _ _ _) hRow (by rw [hSale]; rfl) c]
    have hChange :
        (row.sold sale.newBalance sale.newCostBasis sale.newRealised).balance - row.balance =
          -body.quantity := by
      rw [hSale]
      change Doubles.sub (Doubles.number row.balance) body.quantity - row.balance = _
      rw [Doubles.sub_number, hExact.1 row hRow, sub_sub_cancel_left]
    rw [hChange]
  · intro c
    have hBought : sale.activity.keysBought = 0 := rfl
    have hSold : sale.activity.keysSold = body.quantity := by
      rw [← hQuantity]
      rfl
    rw [netKeys_append hActivity rfl (congrArg some hCreator) rfl, hBought, hSold, zero_sub]
  · intro c hOther
    rw [hProfiles, if_neg hOther]
  · intro row' hRow'
    rw [hProfiles, if_pos rfl] at hRow'
    cases hRow'
    refine ⟨current, hCurrent, ?_⟩
    rw [hSale]
    change Doubles.sub (Doubles.number current.circulatingSupply) body.quantity = _
    rw [Doubles.sub_number, hExact.2 current hCurrent, sub_eq_add_neg]

theorem keeps_refuseWhen {I : TradeDb → Prop} (p : Prop) [Decidable p] (e : SellError) :
    (refuseWhen p e).Keeps I := by
  unfold refuseWhen
  split
  · exact keeps_throw e
  · exact keeps_pure ()

/- Only the transaction of a sale writes. -/
theorem conserved_httpSellCreatorKey {gates : SellGates} {walletAddress keyId : String}
    {body : SellRequestBody} (hConserved : SupplyConserved db)
    (hExact : SellsExactly db walletAddress keyId body) :
    SupplyConserved ((httpSellCreatorKey gates walletAddress keyId body).run db).2 := by
  refine run_bind_of_reads ?_ hConserved fun _ => ?_
  · exact keeps_bind (keeps_query _ _) fun _ => keeps_refuseWhen _ _
  refine run_bind_of_reads ?_ hConserved fun _ => ?_
  · exact keeps_bind (keeps_query _ _) fun _ => keeps_refuseWhen _ _
  refine run_bind_of_reads ?_ hConserved fun _ => ?_
  · unfold assertWalletNotSuspended
    split
    · exact keeps_pure ()
    · exact keeps_throw _
  refine run_bind_of_reads (keeps_query _ _) hConserved fun creator => ?_
  refine run_bind_of_reads (keeps_refuseWhen _ _) hConserved fun _ => ?_
  refine run_bind_of_reads ?_ hConserved fun _ => ?_
  · unfold checkDepth
    split
    · exact keeps_throw _
    · exact keeps_refuseWhen _ _
  refine run_bind_of_reads ?_ hConserved fun protocolFeeBps => ?_
  · apply keeps_bind (keeps_query _ _)
    intro _
    exact keeps_bind (keeps_refuseWhen _ _) fun _ => keeps_pure _
  rw [run_execute]
  cases hResult : sellTransaction { gates with protocolFeeBps } walletAddress keyId body db with
  | error e => exact hConserved
  | ok result => exact (moved_sale hResult hExact).conserves hConserved

end

-- Buybacks
----

section

open Program Keys

variable {db : TradeDb}

/-
  A buyback of a position that the supply covers.  The supply is
  cut at zero, so it stays above that of a larger position.
-/
theorem moved_buyback {now : Int} {keyId holderAddress : String} {terms : BuybackTerms}
    (hOk : checkBuyback now keyId holderAddress db = .ok terms)
    (hCovered : terms.ownership.balance ≤ terms.creator.circulatingSupply)
    (hExact : Doubles.sub terms.creator.circulatingSupply terms.ownership.balance =
      terms.creator.circulatingSupply - terms.ownership.balance) :
    Moved terms.creator.id (-terms.ownership.balance) db (terms.record holderAddress db) := by
  rcases checkBuyback_eq_ok hOk with ⟨hCreator, hRow, -⟩
  have hProfiles := Table.find?_update_stored hCreator (.withCirculatingSupply terms.newSupply)
      (CreatorProfile.key_withCirculatingSupply terms.newSupply)
  refine ⟨?_, ?_, ?_, ?_⟩
  · intro c
    rw [totalBalance_update paidOut key_paidOut hRow rfl c]
    simp [paidOut]
  · intro c
    have hBack : (terms.record holderAddress db).boughtBack c = db.boughtBack c +
        if terms.creator.id = c then terms.ownership.balance
        else 0 := by
      unfold TradeDb.boughtBack BuybackTerms.record
      rw [List.filter_append, List.map_append, List.sum_append]
      by_cases hSame : terms.creator.id = c
      · simp [hSame]
      · simp [hSame]
    have hActivity : (terms.record holderAddress db).activity = db.activity := rfl
    unfold TradeDb.netKeys TradeDb.bought TradeDb.sold
    rw [sumTrades_congr hActivity, sumTrades_congr hActivity, hBack]
    split <;> ring
  · intro c hOther
    exact (hProfiles c).trans (if_neg hOther)
  · intro row' hRow'
    have hFound := (hProfiles terms.creator.id).trans (if_pos rfl)
    cases hFound.symm.trans hRow'
    refine ⟨terms.creator, hCreator, ?_⟩
    change terms.newSupply = _
    unfold BuybackTerms.newSupply
    rw [hExact, max_eq_right (sub_nonneg.mpr hCovered), sub_eq_add_neg]

end

-- Indexed Trades
----

section

open Program

variable {config : IndexerConfig} {trade : TradeFields} {db db' : TradeDb}

/- Only the balances of one key have changed. -/
structure Traded (creatorId : String) (change : ℚ) (db db' : TradeDb) : Prop where
  activity : db'.activity = db.activity
  creatorProfile : db'.creatorProfile = db.creatorProfile
  keyBuyback : db'.keyBuyback = db.keyBuyback
  total : ∀ c, db'.totalBalance c = db.totalBalance c + if creatorId = c then change else 0

variable {creatorId : String}

theorem Traded.withSnapshots {change : ℚ} (h : Traded creatorId change db db')
    (snapshots : List WalletHoldingSnapshot) :
    Traded creatorId change db { db' with walletHoldingSnapshot := snapshots } :=
  ⟨h.activity, h.creatorProfile, h.keyBuyback, h.total⟩

theorem traded_updateOwnership (ownerAddress creatorId : String) (change : ℚ)
    (occurredAt : Int) (db : TradeDb) :
    ∃ db', (updateOwnership ownerAddress creatorId change occurredAt).run db = (.ok (), db') ∧
      Traded creatorId change db db' := by
  rcases run_recordHoldingSnapshot ownerAddress creatorId
    ((db.incrementBalance ownerAddress creatorId
      change).balance ownerAddress creatorId) occurredAt
    (db.incrementBalance ownerAddress creatorId change) with ⟨snapshots, hRun⟩
  refine ⟨_, hRun, ?_⟩
  apply Traded.withSnapshots
  exact ⟨rfl, rfl, rfl, totalBalance_incrementBalance db ownerAddress creatorId change⟩

theorem traded_recordKeyPurchase (ownerAddress creatorId : String)
    (quantityBought pricePerKey : ℚ) (boughtAt : Int) (db : TradeDb) :
    ∃ db', (recordKeyPurchase ownerAddress creatorId quantityBought
      pricePerKey boughtAt).run db = (.ok (), db') ∧
      Traded creatorId quantityBought db db' := by
  let newCostBasis :=
    costBasisAfterPurchase (balanceOf (db.keyOwnership.find? (ownerAddress, creatorId)))
      (costBasisOf (db.keyOwnership.find? (ownerAddress, creatorId))) quantityBought pricePerKey
  let opened : KeyOwnership :=
    { KeyOwnership.opened ownerAddress creatorId quantityBought with
      costBasis := some pricePerKey
      lastBuyAt := some boughtAt }
  let db₁ :=
    db.upsertOwnership opened (.bought quantityBought newCostBasis boughtAt)
      (key_bought quantityBought newCostBasis boughtAt)
  rcases run_recordHoldingSnapshot ownerAddress creatorId
    (db₁.balance ownerAddress creatorId) boughtAt db₁ with ⟨snapshots, hRun⟩
  refine ⟨_, hRun, ?_⟩
  apply Traded.withSnapshots
  refine ⟨rfl, rfl, rfl, ?_⟩
  intro c
  change (db.keyOwnership.upsert _ _ _).total _ = _
  rw [Table.total_upsert]
  cases hRow : db.keyOwnership.find? (key opened) with
  | none =>
    by_cases hSame : creatorId = c
    · simp [hSame, opened, KeyOwnership.opened, TradeDb.totalBalance]
    · simp [hSame, opened, KeyOwnership.opened, TradeDb.totalBalance]
  | some row =>
    have hCreator : row.creatorId = creatorId := (Prod.mk.inj (Table.key_of_find? hRow)).2
    by_cases hSame : creatorId = c
    · simp [hSame, hCreator, KeyOwnership.bought, TradeDb.totalBalance]
    · simp [hSame, hCreator, KeyOwnership.bought, TradeDb.totalBalance]

/- A sale that is not covered leaves everything as it was. -/
theorem traded_recordKeySale {ownerAddress creatorId : String} {quantitySold : ℚ}
    (hExact : ∀ row ∈ db.keyOwnership.find? (ownerAddress, creatorId),
      quantitySold ≤ balanceOf (some row) →
        Doubles.sub row.balance quantitySold = row.balance - quantitySold)
    (pricePerKey : ℚ) (soldAt : Int) :
    (∃ db', (recordKeySale ownerAddress creatorId quantitySold
      pricePerKey soldAt).run db = (.ok (), db') ∧ Traded creatorId (-quantitySold) db db') ∨
      (recordKeySale ownerAddress creatorId quantitySold pricePerKey soldAt).run db =
        (.error .insufficientKeyBalance, db) := by
  unfold recordKeySale findOwnership readDb
  rw [run_bind, run_query]
  cases hRow : db.keyOwnership.find? (ownerAddress, creatorId) with
  | none => exact .inr rfl
  | some row =>
    by_cases hShort : balanceOf (some row) < quantitySold
    · right
      simp [hShort]
    · left
      simp only [reduceCtorEq, false_or, hShort, if_false, writeDb, run_bind, run_execute, hRow]
      rcases run_recordHoldingSnapshot ownerAddress creatorId
        (Doubles.sub (balanceOf (some row)) quantitySold) soldAt
        (db.updateOwnershipRow ownerAddress creatorId
          (.sold (Doubles.sub (balanceOf (some row)) quantitySold) (computeCostBasisAfterSale
            (costBasisOf (some row)) (balanceOf (some row)) quantitySold)
            (Doubles.add (realisedPnlOf (some row)) (computeRealisedPnlForSale
              (costBasisOf (some row)) pricePerKey quantitySold))) (key_sold _ _ _)) with
        ⟨snapshots, hRun⟩
      refine ⟨_, hRun, ?_⟩
      apply Traded.withSnapshots
      refine ⟨rfl, rfl, rfl, ?_⟩
      intro c
      have hBalance : Doubles.sub (balanceOf (some row)) quantitySold =
          row.balance - quantitySold :=
        (Doubles.sub_number _ _).trans (hExact row hRow (not_lt.mp hShort))
      rw [totalBalance_update _ (key_sold _ _ _) hRow rfl c, hBalance]
      simp [KeyOwnership.sold]

theorem traded_recordOwnership (hExact : SubtractsExactly db trade) :
    ∃ db', (recordOwnership trade).run db = (.ok (), db') ∧
      Traded trade.creatorId trade.signedAmount db db' := by
  unfold recordOwnership TradeFields.signedAmount
  cases hDirection : trade.direction with
  | buy => exact traded_recordKeyPurchase _ _ _ _ _ _
  | sell =>
    simp only [run_tryCatch]
    rcases traded_recordKeySale (hExact hDirection) (pricePerKeyXlm trade.price) trade.tradeAt with
      ⟨db', hRun, hTraded⟩ | hRefused
    · rw [hRun]
      exact ⟨db', rfl, hTraded⟩
    · rw [hRefused]
      exact traded_updateOwnership _ _ _ _ _

/- All attempts see the same tables and end alike. -/
theorem run_persistCirculatingSupply (config : IndexerConfig) (creatorId : String) (db : TradeDb) :
    (persistCirculatingSupply config creatorId).run db =
      match recomputeSupply config creatorId db with
      | .ok (supply, db') => (.ok supply, db')
      | .error e => (.error e, db) := by
  unfold persistCirculatingSupply persistSupplyWithin
    persistSupplyWithin persistSupplyWithin writeDb
  simp only [run_tryCatch, run_execute]
  cases hResult : recomputeSupply config creatorId db with
  | ok result => rfl
  | error e => simp only [hResult]

/- What the trades of a key change its supply by, once a trade is recorded. -/
def TradeDb.changesAfter (db : TradeDb) (trade : TradeFields) : List ℚ :=
  (db.tradesOf trade.creatorId).map Activity.supplyChange ++ [trade.signedAmount]

/- The supply folded once a trade is recorded. -/
def TradeDb.supplyAfter (db : TradeDb) (trade : TradeFields) : ℚ :=
  (db.changesAfter trade).foldl Doubles.add 0

def TradeDb.milestoneOf (db : TradeDb) (creatorId : String) : Option Int :=
  (db.creatorProfile.find? creatorId).map CreatorProfile.currentMilestone

/- The trade leaves its key in the tier it is in. -/
def KeepsTier (config : IndexerConfig) (db : TradeDb) (trade : TradeFields) : Prop :=
  db.milestoneOf trade.creatorId = some (getTierForSupply config.milestones (db.supplyAfter trade))

theorem activitySupply_addActivity (hActivity : db'.activity = db.activity ++ [trade.activity]) :
    db'.activitySupply trade.creatorId = db.supplyAfter trade := by
  have hTrade : trade.activity.type.isTrade = true := by
    unfold TradeFields.activity TradeFields.activityType
    cases trade.direction <;> rfl
  have hChange : trade.activity.supplyChange = trade.signedAmount := by
    unfold Activity.supplyChange TradeFields.activity TradeFields.activityType
      TradeFields.signedAmount
    cases trade.direction <;> rfl
  have hTrades : db'.tradesOf trade.creatorId =
      db.tradesOf trade.creatorId ++ [trade.activity] := by
    unfold TradeDb.tradesOf
    rw [hActivity, List.filter_append, List.filter_singleton, hTrade]
    simp [TradeFields.activity]
  unfold TradeDb.activitySupply TradeDb.supplyAfter TradeDb.changesAfter
  rw [hTrades, List.map_append, List.map_singleton, hChange]

/- What the handler of a trade does to the traded tables. -/
structure TradeIndexed (config : IndexerConfig) (trade : TradeFields)
    (db db' : TradeDb) : Prop where
  activity : db'.activity = db.activity ++ [trade.activity]
  keyBuyback : db'.keyBuyback = db.keyBuyback
  total : ∀ c, db'.totalBalance c = db.totalBalance c +
    if trade.creatorId = c then trade.signedAmount else 0
  others : ∀ c, c ≠ trade.creatorId → db'.creatorProfile.find? c = db.creatorProfile.find? c
  kept : ∀ row, db.creatorProfile.find? trade.creatorId = some row → KeepsTier config db trade →
    db'.creatorProfile.find? trade.creatorId = some (row.withSupply (db.supplyAfter trade)
      row.currentMilestone)
  crossed : ¬KeepsTier config db trade → db'.creatorProfile = db.creatorProfile

theorem TradeIndexed.of_tables {a b : TradeDb} (h : TradeIndexed config trade db a)
    (hActivity : b.activity = a.activity) (hOwnership : b.keyOwnership = a.keyOwnership)
    (hProfile : b.creatorProfile = a.creatorProfile) (hBuyback : b.keyBuyback = a.keyBuyback) :
    TradeIndexed config trade db b := by
  have hTotal : b.totalBalance = a.totalBalance := by
    funext c
    unfold TradeDb.totalBalance
    rw [hOwnership]
  refine ⟨?_, ?_, ?_, ?_, ?_, ?_⟩
  · rw [hActivity, h.activity]
  · rw [hBuyback, h.keyBuyback]
  · rw [hTotal]
    exact h.total
  · rw [hProfile]
    exact h.others
  · rw [hProfile]
    exact h.kept
  · rw [hProfile]
    exact h.crossed

variable {row : CreatorProfile}

theorem find?_setSupply (hRow : db.creatorProfile.find? creatorId = some row) (supply : ℚ)
    (milestone : Int) (c : String) :
    (db.setSupply creatorId supply milestone).creatorProfile.find? c =
      if c = creatorId then some (row.withSupply supply milestone)
      else db.creatorProfile.find? c :=
  Table.find?_update_stored hRow _ (key_withSupply supply milestone) c

theorem keepsTier_iff :
    KeepsTier config db trade ↔ ∃ row, db.creatorProfile.find? trade.creatorId = some row ∧
      getTierForSupply config.milestones (db.supplyAfter trade) = row.currentMilestone := by
  unfold KeepsTier TradeDb.milestoneOf
  rw [Option.map_eq_some_iff]
  constructor
  · rintro ⟨row, hRow, hTier⟩
    exact ⟨row, hRow, hTier.symm⟩
  · rintro ⟨row, hRow, hTier⟩
    exact ⟨row, hRow, hTier.symm⟩

variable {traded : TradeDb}

theorem indexed_setSupply
    (hTraded : Traded trade.creatorId trade.signedAmount (db.addActivity trade.activity) traded)
    (hRow : db.creatorProfile.find? trade.creatorId = some row)
    (hKeeps : KeepsTier config db trade) :
    TradeIndexed config trade db (traded.setSupply trade.creatorId (db.supplyAfter trade)
      row.currentMilestone) := by
  have hProfile : traded.creatorProfile = db.creatorProfile := hTraded.creatorProfile
  have hFound := find?_setSupply (hProfile ▸ hRow) (db.supplyAfter trade) row.currentMilestone
  rw [hProfile] at hFound
  refine ⟨hTraded.activity, hTraded.keyBuyback, hTraded.total, ?_, ?_, ?_⟩
  · intro c hC
    rw [hFound, if_neg hC]
  · intro row' hRow' _
    cases hRow.symm.trans hRow'
    rw [hFound, if_pos rfl]
  · intro hNot
    exact absurd hKeeps hNot

/- The supply of a key that crosses a tier is left as it was. -/
theorem indexed_crossed
    (hTraded : Traded trade.creatorId trade.signedAmount (db.addActivity trade.activity) traded)
    (hNot : ¬KeepsTier config db trade) :
    TradeIndexed config trade db traded := by
  have hProfile : traded.creatorProfile = db.creatorProfile := hTraded.creatorProfile
  refine ⟨hTraded.activity, hTraded.keyBuyback, hTraded.total, ?_, ?_, ?_⟩
  · intro c _
    rw [hProfile]
  · intro row _ hKeeps
    exact absurd hKeeps hNot
  · exact fun _ => hProfile

/- The tables once the supply has been persisted, or not. -/
theorem indexed_persist
    (hTraded : Traded trade.creatorId trade.signedAmount (db.addActivity trade.activity) traded) :
    (∃ supply db', recomputeSupply config trade.creatorId traded = .ok (supply, db') ∧
      TradeIndexed config trade db db') ∨ (∃ e, recomputeSupply config trade.creatorId traded =
        .error e ∧ TradeIndexed config trade db traded) := by
  have hSupply : traded.activitySupply trade.creatorId = db.supplyAfter trade :=
    activitySupply_addActivity hTraded.activity
  have hProfile : traded.creatorProfile = db.creatorProfile := hTraded.creatorProfile
  cases hResult : recomputeSupply config trade.creatorId traded with
  | ok result =>
    left
    rcases result with ⟨supply, db'⟩
    rcases recomputeSupply_eq_ok_iff.mp hResult with ⟨row, hRow, hTier, hSame, rfl⟩
    rw [hSupply] at hTier hSame
    rw [hProfile] at hRow
    have hKeeps : KeepsTier config db trade := keepsTier_iff.mpr ⟨row, hRow, hTier⟩
    refine ⟨supply, _, rfl, ?_⟩
    rw [hSame]
    exact indexed_setSupply hTraded hRow hKeeps
  | error e =>
    right
    have hNot : ¬KeepsTier config db trade := by
      intro hKeeps
      rcases keepsTier_iff.mp hKeeps with ⟨row, hRow, hTier⟩
      have hOk := recomputeSupply_eq_ok_iff.mpr ⟨row, hProfile ▸ hRow, hSupply ▸ hTier, rfl, rfl⟩
      cases hResult.symm.trans hOk
    exact ⟨e, rfl, indexed_crossed hTraded hNot⟩

theorem claimReferral_eq (config : IndexerConfig) (trade : TradeFields) (db : TradeDb) :
    ∃ referral referralEvent, claimReferral config trade db =
      { db with referral, referralEvent } := by
  simp only [claimReferral]
  split
  · exact ⟨_, _, rfl⟩
  · split
    · exact ⟨_, _, rfl⟩
    · exact ⟨_, _, rfl⟩

theorem indexed_processTrade (config : IndexerConfig) (hExact : SubtractsExactly db trade) :
    TradeIndexed config trade db ((processTrade config trade).run db).2 := by
  rcases claimReferral_eq config trade db with ⟨referral, referralEvent, hClaim⟩
  have hRun : (processTrade config trade).run db = (applyTrade config trade).run
      (TradeDb.addActivity { db with referral, referralEvent }
        trade.activity) := by
    rw [← hClaim]
    rfl
  rw [hRun]
  have hAdded : SubtractsExactly (TradeDb.addActivity { db with referral, referralEvent }
      trade.activity) trade := hExact
  rcases traded_recordOwnership hAdded with ⟨traded, hOwnership, hTraded⟩
  unfold applyTrade
  rw [run_bind, hOwnership]
  simp only [run_bind, run_persistCirculatingSupply]
  have hFromDb : Traded trade.creatorId trade.signedAmount (db.addActivity trade.activity) traded :=
    ⟨hTraded.activity, hTraded.creatorProfile, hTraded.keyBuyback, hTraded.total⟩
  rcases @indexed_persist config _ _ _ hFromDb with
    ⟨supply, persisted, hResult, hIndexed⟩ | ⟨e, hResult, hIndexed⟩
  · simp only [hResult]
    have hPriced :
        TradeIndexed config trade db ((recordPrice config trade supply).run persisted).2 :=
      keeps_run (keeps_recordPrice (fun _ _ _ h => h.of_tables rfl rfl rfl rfl) config trade supply)
        hIndexed
    cases hPrice : (recordPrice config trade supply).run persisted with
    | mk result priced =>
      rw [hPrice] at hPriced
      cases result with
      | error e => exact hPriced
      | ok _ => exact keeps_run (keeps_readForSellLog trade) hPriced
  · simp only [hResult]
    exact hIndexed

/-
  The supply that is written for a trade is right: nothing is
  rounded, it misses no sale over HTTP and no buyback, and a
  supply that moves into another tier, which is never written, has
  not changed.
-/
def Recomputes (config : IndexerConfig) (db : TradeDb) (trade : TradeFields) : Prop :=
  SubtractsExactly db trade ∧ (KeepsTier config db trade →
    db.soldOverHttp trade.creatorId + db.boughtBack trade.creatorId = 0 ∧
      Doubles.AddsUp 0 (db.changesAfter trade)) ∧
  (¬KeepsTier config db trade → db.milestoneOf trade.creatorId ≠ none → trade.amount = 0)

theorem moved_trade (hIndexed : TradeIndexed config trade db db') (hConserved : SupplyConserved db)
    (hRecomputes : Recomputes config db trade) :
    Moved trade.creatorId trade.signedAmount db db' := by
  have hTrade :
      trade.activity.type.isTrade = true ∧ trade.activity.keysBought - trade.activity.keysSold =
        trade.signedAmount := by
    unfold Activity.keysBought Activity.keysSold TradeFields.signedAmount TradeFields.activity
      TradeFields.activityType
    cases trade.direction with
    | buy => exact ⟨rfl, sub_zero _⟩
    | sell => exact ⟨rfl, zero_sub _⟩
  refine ⟨hIndexed.total, ?_, hIndexed.others, ?_⟩
  · intro c
    rw [netKeys_append hIndexed.activity hIndexed.keyBuyback rfl hTrade.1, hTrade.2]
  · intro row' hRow'
    by_cases hKeeps : KeepsTier config db trade
    · rcases keepsTier_iff.mp hKeeps with ⟨row, hRow, -⟩
      have hWritten := hIndexed.kept row hRow hKeeps
      cases hWritten.symm.trans hRow'
      refine ⟨row, hRow, ?_⟩
      rcases hConserved.of_find? hRow with ⟨hTotal, hNet⟩
      rcases hRecomputes.2.1 hKeeps with ⟨hMissed, hAdds⟩
      have hSupply : db.supplyAfter trade =
          db.sumTrades Activity.supplyChange trade.creatorId + trade.signedAmount := by
        unfold TradeDb.supplyAfter
        rw [Doubles.foldl_add hAdds, TradeDb.changesAfter, List.sum_append, List.sum_singleton,
          zero_add]
        rfl
      change db.supplyAfter trade = _
      rw [hSupply, sumTrades_supplyChange, hTotal, hNet]
      unfold TradeDb.netKeys
      linarith
    · rw [hIndexed.crossed hKeeps] at hRow'
      have hSome : db.milestoneOf trade.creatorId ≠ none := by
        unfold TradeDb.milestoneOf
        simp [hRow']
      have hZero : trade.signedAmount = 0 := by
        have hAmount := hRecomputes.2.2 hKeeps hSome
        unfold TradeFields.signedAmount
        cases trade.direction with
        | buy => exact hAmount
        | sell => exact neg_eq_zero.mpr hAmount
      exact ⟨row', hRow', by rw [hZero, add_zero]⟩

end

instance (config : IndexerConfig) (db : TradeDb)
    (trade : TradeFields) : Decidable (KeepsTier config db trade) :=
  inferInstanceAs (Decidable (_ = _))

instance (config : IndexerConfig) (db : TradeDb) (trade : TradeFields) :
    Decidable (Recomputes config db trade) :=
  inferInstanceAs (Decidable (_ ∧ (_ → _ ∧ _) ∧ (_ → _ → _)))

-- Supply over Runs
----

open Creator Keys

/- The operations that move keys of a creator. -/
inductive SupplyOp where
  | indexTrades (config : IndexerConfig) (events : List IndexerChainEvent)
  | httpSell (gates : SellGates) (walletAddress keyId : String) (body : SellRequestBody)
  | buyback (now : Int) (keyId holderAddress : String)

/- The tables that an operation leaves, however it ends. -/
def SupplyOp.step (db : TradeDb) : SupplyOp → Option TradeDb
  | .indexTrades config events => some ((processTradeEvents config events).final db)
  | .httpSell gates walletAddress keyId body =>
    some ((httpSellCreatorKey gates walletAddress keyId body).final db)
  | .buyback now keyId holderAddress => some ((processBuyback now keyId holderAddress).final db)

/-
  Each trade of a batch that is reached leaves a right supply, and
  a buyback that passes its checks is of a position that the
  supply covers.  Nothing is rounded.
-/
def SupplyOp.KeepsSupply (db : TradeDb) : SupplyOp → Prop
  | .indexTrades config events =>
    EachReached config (Recomputes config) db (tradesIn events)
  | .httpSell _ walletAddress keyId body => SellsExactly db walletAddress keyId body
  | .buyback now keyId holderAddress =>
    ∀ terms ∈ (checkBuyback now keyId holderAddress db).toOption,
      terms.ownership.balance ≤ terms.creator.circulatingSupply ∧
        Doubles.number terms.ownership.balance = terms.ownership.balance ∧
        Doubles.sub terms.creator.circulatingSupply terms.ownership.balance =
          terms.creator.circulatingSupply - terms.ownership.balance

theorem conserved_step {db' : TradeDb} {op : SupplyOp} (hConserved : SupplyConserved db)
    (hAllowed : op.KeepsSupply db) (hStep : op.step db = some db') :
    SupplyConserved db' := by
  cases op with
  | indexTrades config events =>
    cases hStep
    exact EachReached.processTradeEvents (I := SupplyConserved)
      (fun _ _ hKept hRecomputes =>
        (moved_trade (indexed_processTrade config hRecomputes.1) hKept hRecomputes).conserves hKept)
      (fun _ _ hKept => hKept) hConserved hAllowed
  | httpSell gates walletAddress keyId body =>
    cases hStep
    exact conserved_httpSellCreatorKey hConserved hAllowed
  | buyback now keyId holderAddress =>
    cases hStep
    rw [final_processBuyback]
    cases hTerms : checkBuyback now keyId holderAddress db with
    | error e => exact hConserved
    | ok terms =>
      rcases hAllowed terms (by rw [hTerms]; rfl) with ⟨hCovered, -, hExact⟩
      exact (moved_buyback hTerms hCovered hExact).conserves hConserved

/-
  In every run whose operations keep the supply, the circulating
  supply is the sum of the balances and accounts for all trades.
-/
theorem supply_conserved {start db : TradeDb} {ops : List SupplyOp} (hStart : SupplyConserved start)
    (hRun : RunsTo SupplyOp.step (fun s op => op.KeepsSupply s) start ops db) :
    SupplyConserved db :=
  hRun.invariant hStart fun _ _ _ hConserved hAllowed hStep =>
    conserved_step hConserved hAllowed hStep

/- A deprecated key that is bought back at one lumen. -/
def deprecatedCreator : TradeDb :=
  { freshCreator with
    creatorProfile :=
      freshCreator.creatorProfile.update "K" (fun row => { row with
            deprecatedAt := some 0
            buybackPriceXlm := some 1 }) (fun _ => rfl) }

def sampleGates : SellGates where
  suspension := none
  maxAvailable := .ok 10
  protocolFeeBps := 500
  now := 1000000

def sellOne : SellRequestBody where
  quantity := 1
  minPrice := 0
  positive := Nat.one_pos
  minPrice_nonneg := le_refl 0

/- Two purchases, a sale over HTTP and a buyback of the rest. -/
theorem supply_conserved_sample :
    ∃ db, RunsTo SupplyOp.step (fun s op => op.KeepsSupply s) deprecatedCreator
      [.indexTrades sampleConfig [sampleBuy "t" 100, sampleBuy "u" 101],
        .httpSell sampleGates "A" "K" sellOne, .buyback 1000000 "K" "A"] db ∧
      db.boughtBack "K" = 1 ∧ SupplyConserved db := by
  have hStart : RunsTo SupplyOp.step (fun s op => op.KeepsSupply s)
      deprecatedCreator [] deprecatedCreator := .start
  have hBought :=
    hStart.step (l := .indexTrades sampleConfig [sampleBuy "t" 100, sampleBuy "u" 101]) (by
      change EachReached _ _ _ _
      decide +kernel) rfl
  have hSold := hBought.step (l := .httpSell sampleGates "A" "K" sellOne) (by
    change SellsExactly _ _ _ _
    decide +kernel) rfl
  have hRun := hSold.step (l := .buyback 1000000 "K" "A") (by
    change ∀ terms ∈ _, _
    decide +kernel) rfl
  refine ⟨_, hRun, ?_, supply_conserved ?_ hRun⟩
  · decide +kernel
  · decide +kernel

/-
  A sale over HTTP between two indexed purchases: the supply
  folded for the second purchase ignores the sale.
-/
theorem supply_ignores_http_sale :
    SupplyConserved freshCreator ∧ ∃ db, RunsTo SupplyOp.step (fun _ _ => True) freshCreator
      [.indexTrades sampleConfig [sampleBuy "t" 100], .httpSell sampleGates "A" "K" sellOne,
        .indexTrades sampleConfig [sampleBuy "u" 101]] db ∧
      db.soldOverHttp "K" = 1 ∧ ¬SupplyConserved db := by
  refine ⟨by decide +kernel, _, runsTo_of_runLabels rfl, ?_⟩
  constructor
  · decide +kernel
  · decide +kernel

end Indexer

end AccessLayer
