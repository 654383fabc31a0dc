import AccessLayer.Indexer.Rollback
import AccessLayer.Indexer.TradeBatches
import AccessLayer.Library.Runs

/-
  Whether the replay of a wallet's trades in a key gives the
  position that the pipeline has kept
  (`src/modules/indexer/reorg-guard.service.ts`).

  Trades are indexed one at a time, in the order of their times.
  The replay passes over a trade of zero keys, which the pipeline
  records as any other, and adds numbers where the pipeline
  increments a column.

  Main result: `replay_agrees_iff`
-/

-- Positions After a Trade
----

namespace AccessLayer

namespace Indexer

open Transactional

section

open Program

variable {config : IndexerConfig} {trade : TradeFields} {db : TradeDb}

def TradeFields.pair (trade : TradeFields) : String × String := (trade.actor, trade.creatorId)

/- The position that a purchase leaves. -/
def boughtPosition (trade : TradeFields) (row : Option KeyOwnership) : KeyOwnership :=
  let pricePerKey := pricePerKeyXlm trade.price
  match row with
  | none =>
    { KeyOwnership.opened trade.actor trade.creatorId trade.amount with
      costBasis := some pricePerKey
      lastBuyAt := some trade.tradeAt }
  | some stored =>
    stored.bought trade.amount (costBasisAfterPurchase (balanceOf row)
      (costBasisOf row) trade.amount pricePerKey) trade.tradeAt

/- The position that a sale leaves, covered or not. -/
def soldPosition (trade : TradeFields) (row : Option KeyOwnership) : KeyOwnership :=
  match row with
  | none => .opened trade.actor trade.creatorId (-trade.amount)
  | some stored =>
    if balanceOf row < trade.amount then
      stored.addBalance (-trade.amount)
    else
      stored.sold (Doubles.sub (balanceOf row) trade.amount) (computeCostBasisAfterSale
        (costBasisOf row) (balanceOf row) trade.amount) (Doubles.add (realisedPnlOf row)
        (computeRealisedPnlForSale (costBasisOf row) (pricePerKeyXlm trade.price) trade.amount))

def positionAfter (trade : TradeFields) (row : Option KeyOwnership) : KeyOwnership :=
  match trade.direction with
  | .buy => boughtPosition trade row
  | .sell => soldPosition trade row

/- A snapshot leaves the positions alone. -/
theorem final_recordHoldingSnapshot (ownerAddress creatorId : String) (balance : ℚ)
    (recordedAt : Int) :
    ((recordHoldingSnapshot ownerAddress creatorId balance
      recordedAt).run db).2.keyOwnership = db.keyOwnership := by
  rcases run_recordHoldingSnapshot ownerAddress creatorId balance
    recordedAt db with ⟨snapshots, hRun⟩
  rw [hRun]

theorem find?_recordKeyPurchase (trade : TradeFields) (db : TradeDb) (k : String × String) :
    ((recordKeyPurchase trade.actor trade.creatorId trade.amount (pricePerKeyXlm trade.price)
      trade.tradeAt).run db).2.keyOwnership.find? k =
      if k = trade.pair then some (boughtPosition trade (db.keyOwnership.find? trade.pair))
      else db.keyOwnership.find? k := by
  unfold recordKeyPurchase findOwnership readDb writeDb
  simp only [run_bind, run_query, run_execute]
  rw [final_recordHoldingSnapshot]
  unfold TradeDb.upsertOwnership
  rw [Table.find?_upsert]
  by_cases hKey : k = trade.pair
  · subst hKey
    rw [if_pos rfl]
    refine (if_pos rfl).trans ?_
    unfold boughtPosition TradeFields.pair
    cases db.keyOwnership.find? (trade.actor, trade.creatorId) with
    | none => rfl
    | some stored => rfl
  · rw [if_neg hKey]
    exact if_neg hKey

theorem find?_updateOwnership (ownerAddress creatorId : String) (balanceChange : ℚ)
    (occurredAt : Int) (k : String × String) :
    ((updateOwnership ownerAddress creatorId balanceChange
      occurredAt).run db).2.keyOwnership.find? k =
      if k = (ownerAddress, creatorId) then
        some ((db.keyOwnership.find? k).elim (.opened ownerAddress creatorId balanceChange)
          (KeyOwnership.addBalance balanceChange))
      else db.keyOwnership.find? k := by
  unfold updateOwnership findOwnership readDb writeDb
  simp only [run_bind, run_query, run_execute]
  rw [final_recordHoldingSnapshot, find?_incrementBalance]

/- A sale without cover throws before it writes. -/
theorem run_recordKeySale_refused {ownerAddress creatorId : String} {quantitySold pricePerKey : ℚ}
    {soldAt : Int} (hShort : db.keyOwnership.find? (ownerAddress, creatorId) = none ∨ balanceOf
      (db.keyOwnership.find? (ownerAddress, creatorId)) < quantitySold) :
    (recordKeySale ownerAddress creatorId quantitySold pricePerKey soldAt).run db =
      (.error .insufficientKeyBalance, db) := by
  unfold recordKeySale findOwnership readDb
  simp only [run_bind, run_query, if_pos hShort, run_throw]

theorem run_recordKeySale_covered {stored : KeyOwnership}
    (hStored : db.keyOwnership.find? trade.pair = some stored)
    (hCovered : ¬ balanceOf (some stored) < trade.amount) :
    ∃ db', (recordKeySale trade.actor trade.creatorId trade.amount
      (pricePerKeyXlm trade.price) trade.tradeAt).run db = (.ok (), db') ∧
      ∀ k, db'.keyOwnership.find? k =
        if k = trade.pair then some (soldPosition trade (some stored))
        else db.keyOwnership.find? k := by
  have hFind : db.keyOwnership.find? (trade.actor, trade.creatorId) = some stored := hStored
  let row := soldPosition trade (some stored)
  have hRow : row = stored.sold _ _ _ := if_neg hCovered
  rcases run_recordHoldingSnapshot trade.actor trade.creatorId
    (Doubles.sub (balanceOf (some stored)) trade.amount) trade.tradeAt
    (db.updateOwnershipRow trade.actor trade.creatorId
      (.sold (Doubles.sub (balanceOf (some stored)) trade.amount) (computeCostBasisAfterSale
        (costBasisOf (some stored)) (balanceOf (some stored)) trade.amount)
        (Doubles.add (realisedPnlOf (some stored)) (computeRealisedPnlForSale
          (costBasisOf (some stored)) (pricePerKeyXlm trade.price) trade.amount)))
      (key_sold _ _ _)) with ⟨snapshots, hRun⟩
  refine ⟨_, Eq.trans ?_ hRun, ?_⟩
  · unfold recordKeySale findOwnership readDb writeDb
    simp only [run_bind, run_query, run_execute, hFind, reduceCtorEq, false_or, hCovered, if_false]
  · intro k
    change _ = if k = trade.pair then some row else _
    rw [hRow]
    exact Table.find?_update_stored hFind _ (key_sold _ _ _) k

/- Without cover only the balance moves. -/
theorem soldPosition_refused {row : Option KeyOwnership}
    (hShort : row = none ∨ balanceOf row < trade.amount) :
    soldPosition trade row = row.elim (.opened trade.actor trade.creatorId (-trade.amount))
      (KeyOwnership.addBalance (-trade.amount)) := by
  cases row with
  | none => rfl
  | some stored =>
    rcases hShort with hNone | hShort
    · cases hNone
    · exact if_pos hShort

theorem find?_recordOwnership (trade : TradeFields) (db : TradeDb) (k : String × String) :
    ((recordOwnership trade).run db).2.keyOwnership.find? k =
      if k = trade.pair then some (positionAfter trade (db.keyOwnership.find? trade.pair))
      else db.keyOwnership.find? k := by
  unfold recordOwnership positionAfter
  cases trade.direction with
  | buy => exact find?_recordKeyPurchase trade db k
  | sell =>
    simp only [run_tryCatch]
    by_cases hShort :
      db.keyOwnership.find? trade.pair = none ∨ balanceOf (db.keyOwnership.find? trade.pair) <
        trade.amount
    · rw [run_recordKeySale_refused hShort, soldPosition_refused hShort]
      refine (find?_updateOwnership _ _ _ _ k).trans ?_
      by_cases hKey : k = trade.pair
      · subst hKey
        rfl
      · rw [if_neg hKey]
        exact if_neg hKey
    · rw [not_or] at hShort
      rcases Option.ne_none_iff_exists'.mp hShort.1 with ⟨stored, hStored⟩
      rw [hStored] at hShort ⊢
      rcases run_recordKeySale_covered hStored hShort.2 with ⟨db', hRun, hRow⟩
      rw [hRun]
      exact hRow k

/- What follows the bookkeeping leaves the positions alone. -/
theorem find?_processTrade (config : IndexerConfig) (trade : TradeFields) (db : TradeDb)
    (k : String × String) :
    ((processTrade config trade).run db).2.keyOwnership.find? k =
      if k = trade.pair then some (positionAfter trade (db.keyOwnership.find? trade.pair))
      else db.keyOwnership.find? k := by
  let recorded := (claimReferral config trade db).addActivity trade.activity
  have hClaim : recorded.keyOwnership = db.keyOwnership := by
    change (claimReferral config trade db).keyOwnership = _
    simp only [claimReferral]
    split
    · rfl
    · split <;> rfl
  have hFind := find?_recordOwnership trade recorded k
  rw [hClaim] at hFind
  rw [← hFind]
  change ((applyTrade config trade).run recorded).2.keyOwnership.find? _ = _
  unfold applyTrade
  rw [run_bind]
  cases hRun : (recordOwnership trade).run recorded with
  | mk result db' =>
    cases result with
    | error e => rfl
    | ok _ =>
      have hKept :=
        keeps_run (I := fun s => s.keyOwnership = db'.keyOwnership) (keeps_bind (keeps_of_changes
          (changes_persistCirculatingSupply (fun _ => id) (fun _ _ hs => hs) config
            trade.creatorId))
          fun supplyAfterTrade => keeps_bind (keeps_recordPrice (fun _ _ _ hs => hs) config
            trade supplyAfterTrade) fun _ => keeps_readForSellLog trade) (s := db') rfl
      exact congrArg (fun table => table.find? k) hKept

end

-- Replayed Trades
----

variable {trade : TradeFields} {row : Option KeyOwnership} {position : ReplayedPosition}

/- A stored position is what the replay would write. -/
def Replays (row : Option KeyOwnership) (position : ReplayedPosition) : Prop :=
  match row with
  | none => position = .flat
  | some stored => stored.rebuilt position = stored

/-
  A trade that the replay treats as the pipeline does.  Trades of
  zero keys do not count in the replay: a purchase of none must
  be at the time of the last purchase and leave the cost basis.
  The pipeline increments a balance exactly, where the replay adds
  numbers.  A position is opened by a positive amount or without
  a price.
-/
def KeepsReplay (row : Option KeyOwnership) (trade : TradeFields) : Prop :=
  match trade.direction, row with
  | .buy, none => trade.amount ≠ 0 ∧ (0 < trade.amount ∨ pricePerKeyXlm trade.price = 0)
  | .buy, some stored =>
    if trade.amount = 0 then
      stored.lastBuyAt = some trade.tradeAt ∧
        if stored.balance ≤ 0 then costBasisOf row = 0
        else
          Doubles.div (Doubles.mul (costBasisOf row) stored.balance) stored.balance =
            costBasisOf row
    else Doubles.add stored.balance trade.amount = stored.balance + trade.amount
  | .sell, none => 0 ≤ trade.amount ∨ Doubles.mul (pricePerKeyXlm trade.price) trade.amount = 0
  | .sell, some stored =>
    if trade.amount = 0 then stored.balance = 0 → costBasisOf row = 0
    else
      stored.balance < trade.amount →
        Doubles.sub stored.balance trade.amount = stored.balance - trade.amount

instance (row : Option KeyOwnership) (trade : TradeFields) : Decidable (KeepsReplay row trade) := by
  unfold KeepsReplay
  split <;> infer_instance

variable {stored : KeyOwnership}

theorem rebuilt_eq_iff :
    stored.rebuilt position = stored ↔ position.balance = stored.balance ∧
      some position.costBasis = stored.costBasis ∧
      some position.realisedPnl = stored.realisedPnl ∧
      position.lastBuyAt = stored.lastBuyAt := by
  cases stored
  simp only [KeyOwnership.rebuilt, KeyOwnership.mk.injEq, true_and, and_true]

/- A price of whole stroops is read the same way twice. -/
theorem pricePerKeyXlm_activity (hWhole : trade.price.isInt) :
    trade.activity.pricePerKeyXlm = pricePerKeyXlm trade.price := by
  unfold Activity.pricePerKeyXlm pricePerKeyXlm
  change max 0 (Doubles.div trade.price 10000000) = _
  split
  · rename_i hNegative
    refine max_eq_left (neg_nonneg.mp ?_)
    rw [← Doubles.neg_div]
    exact Doubles.div_nonneg (neg_nonneg.mpr hNegative.le) (by norm_num)
  · rename_i hNonneg
    exact max_eq_right (Doubles.div_nonneg (not_lt.mp hNonneg) (by norm_num))

theorem apply_zero (hZero : trade.amount = 0) : position.apply trade.activity = position := by
  exact if_pos hZero

theorem apply_bought (hBuy : trade.direction = .buy) (hWhole : trade.price.isInt)
    (hSome : trade.amount ≠ 0) :
    position.apply trade.activity = { position with
        balance := Doubles.add position.balance trade.amount
        costBasis :=
          costBasisAfterPurchase position.balance position.costBasis trade.amount
            (pricePerKeyXlm trade.price)
        lastBuyAt := some trade.tradeAt } := by
  have hType : trade.activity.type = .keyBought := by
    unfold TradeFields.activity TradeFields.activityType
    rw [hBuy]
  rw [← pricePerKeyXlm_activity hWhole]
  exact (if_neg hSome).trans (if_pos hType)

theorem apply_sold (hSell : trade.direction = .sell) (hWhole : trade.price.isInt)
    (hSome : trade.amount ≠ 0) :
    position.apply trade.activity =
      if position.balance < trade.amount then
        { position with
          balance := Doubles.sub position.balance trade.amount }
      else
        { position with
          balance := Doubles.sub position.balance trade.amount
          costBasis := computeCostBasisAfterSale position.costBasis position.balance trade.amount
          realisedPnl :=
            Doubles.add position.realisedPnl (computeRealisedPnlForSale position.costBasis
              (pricePerKeyXlm trade.price) trade.amount) } := by
  have hType : trade.activity.type ≠ .keyBought := by
    unfold TradeFields.activity TradeFields.activityType
    rw [hSell]
    exact fun hSame => nomatch hSame
  rw [← pricePerKeyXlm_activity hWhole]
  exact (if_neg hSome).trans (if_neg hType)

structure Found (stored : KeyOwnership) (position : ReplayedPosition) : Prop where
  balance : stored.balance = position.balance
  costBasis : stored.costBasis = some position.costBasis
  realisedPnl : stored.realisedPnl = some position.realisedPnl
  lastBuyAt : stored.lastBuyAt = position.lastBuyAt

theorem replays_some_iff : Replays (some stored) position ↔ Found stored position := by
  refine rebuilt_eq_iff.trans ⟨fun h => ?_, fun h => ?_⟩
  · exact ⟨h.1.symm, h.2.1.symm, h.2.2.1.symm, h.2.2.2.symm⟩
  · exact ⟨h.balance.symm, h.costBasis.symm, h.realisedPnl.symm, h.lastBuyAt.symm⟩

/- The replay computes numbers. -/
structure ReplayedPosition.Numeric (position : ReplayedPosition) : Prop where
  balance : Doubles.number position.balance = position.balance
  costBasis : Doubles.number position.costBasis = position.costBasis
  realisedPnl : Doubles.number position.realisedPnl = position.realisedPnl

theorem ReplayedPosition.Numeric.flat : ReplayedPosition.flat.Numeric where
  balance := Doubles.number_zero
  costBasis := Doubles.number_zero
  realisedPnl := Doubles.number_zero

theorem number_pricePerKeyXlm (price : ℚ) :
    Doubles.number (pricePerKeyXlm price) = pricePerKeyXlm price := by
  unfold pricePerKeyXlm
  split
  · exact Doubles.number_zero
  · split
    · exact Doubles.number_div _ _
    · exact Doubles.number_number _

theorem number_costBasisAfterPurchase (balance costBasis amount : ℚ) (price : ℚ) :
    Doubles.number (costBasisAfterPurchase balance costBasis amount (pricePerKeyXlm price)) =
      costBasisAfterPurchase balance costBasis amount (pricePerKeyXlm price) := by
  unfold costBasisAfterPurchase
  dsimp only
  split
  · exact Doubles.number_zero
  · split
    · exact number_pricePerKeyXlm price
    · exact Doubles.number_div _ _

theorem ReplayedPosition.Numeric.apply (hNumeric : position.Numeric)
    (hWhole : trade.price.isInt) :
    (position.apply trade.activity).Numeric := by
  by_cases hZero : trade.amount = 0
  · rw [apply_zero hZero]
    exact hNumeric
  cases hDirection : trade.direction with
  | buy =>
    rw [apply_bought hDirection hWhole hZero]
    exact ⟨Doubles.number_add _ _, number_costBasisAfterPurchase _ _ _ _, hNumeric.realisedPnl⟩
  | sell =>
    rw [apply_sold hDirection hWhole hZero]
    split
    · exact ⟨Doubles.number_sub _ _, hNumeric.costBasis, hNumeric.realisedPnl⟩
    · refine ⟨Doubles.number_sub _ _, ?_, Doubles.number_add _ _⟩
      dsimp only [computeCostBasisAfterSale]
      split
      · exact Doubles.number_zero
      · exact hNumeric.costBasis

/- What is read of a stored position is what was replayed. -/
theorem Found.read_eq (h : Found stored position) (hNumeric : position.Numeric) :
    balanceOf (some stored) = position.balance ∧
      costBasisOf (some stored) = position.costBasis ∧
      realisedPnlOf (some stored) = position.realisedPnl := by
  unfold balanceOf costBasisOf realisedPnlOf
  rw [Option.map_some, Option.bind_some, Option.bind_some, h.balance, h.costBasis, h.realisedPnl]
  exact ⟨hNumeric.balance, hNumeric.costBasis, hNumeric.realisedPnl⟩

/- A purchase of nothing keeps the cost of an open position, but for a rounding. -/
theorem costBasisAfterPurchase_zero {balance : ℚ} (hNumber : Doubles.number balance = balance)
    (costBasis pricePerKey : ℚ) :
    costBasisAfterPurchase balance costBasis 0 pricePerKey =
      if balance ≤ 0 then 0
      else Doubles.div (Doubles.mul costBasis balance) balance := by
  unfold costBasisAfterPurchase
  rw [Doubles.add_zero, Doubles.mul_zero, Doubles.add_zero, hNumber]
  by_cases hFlat : balance ≤ 0
  · rw [max_eq_left hFlat, if_pos rfl, if_pos hFlat]
  · have hOpen : 0 < balance := not_le.mp hFlat
    rw [max_eq_right hOpen.le, if_neg hOpen.ne', if_neg hFlat, if_neg hFlat]
    exact congrArg (Doubles.div · balance) (Doubles.number_number _)

theorem costBasisAfterPurchase_flat {amount : ℚ} (hNumber : Doubles.number amount = amount)
    (costBasis pricePerKey : ℚ) :
    costBasisAfterPurchase 0 costBasis amount pricePerKey =
      if 0 < amount then pricePerKey else 0 := by
  unfold costBasisAfterPurchase
  rw [Doubles.zero_add, hNumber]
  by_cases hOpened : 0 < amount
  · rw [max_eq_right hOpened.le, if_neg hOpened.ne', if_pos le_rfl, if_pos hOpened]
  · rw [max_eq_left (not_lt.mp hOpened), if_pos rfl, if_neg hOpened]

theorem replays_bought_iff (hBuy : trade.direction = .buy) (hWhole : trade.price.isInt)
    (hNumber : Doubles.number trade.amount = trade.amount) (hNumeric : position.Numeric)
    (hReplays : Replays row position) :
    Replays (some (boughtPosition trade row)) (position.apply trade.activity) ↔
      KeepsReplay row trade := by
  unfold KeepsReplay
  rw [hBuy, replays_some_iff]
  cases row with
  | none =>
    have hFlat : position = .flat := hReplays
    subst hFlat
    by_cases hZero : trade.amount = 0
    · rw [apply_zero hZero]
      refine ⟨fun h => ?_, fun h => absurd hZero h.1⟩
      cases h.lastBuyAt
    · rw [apply_bought hBuy hWhole hZero]
      have hCost := costBasisAfterPurchase_flat hNumber 0 (pricePerKeyXlm trade.price)
      constructor
      · intro h
        refine ⟨hZero, ?_⟩
        have hSame := Option.some.inj h.costBasis
        rw [ReplayedPosition.flat, hCost] at hSame
        split at hSame
        · rename_i hOpened
          exact .inl hOpened
        · exact .inr hSame
      · rintro ⟨_, hOpened⟩
        refine ⟨((Doubles.zero_add _).trans hNumber).symm, congrArg some ?_, rfl, rfl⟩
        rw [ReplayedPosition.flat, hCost]
        split
        · rfl
        · rename_i hNegative
          exact hOpened.resolve_left hNegative
  | some stored =>
    have hFound := replays_some_iff.mp hReplays
    rcases hFound.read_eq hNumeric with ⟨hBalance, hCost, -⟩
    dsimp only
    by_cases hZero : trade.amount = 0
    · rw [apply_zero hZero, if_pos hZero, hCost, hFound.balance]
      have hBasis := costBasisAfterPurchase_zero hNumeric.balance position.costBasis
          (pricePerKeyXlm trade.price)
      constructor
      · intro h
        have hTime : some trade.tradeAt = position.lastBuyAt := h.lastBuyAt
        have hSame := Option.some.inj h.costBasis
        rw [hBalance, hCost, hZero, hBasis] at hSame
        refine ⟨hFound.lastBuyAt.trans hTime.symm, ?_⟩
        split at hSame
        · rename_i hFlat
          rw [if_pos hFlat, hSame]
        · rename_i hOpen
          rw [if_neg hOpen, hSame]
      · rintro ⟨hTime, hSame⟩
        refine ⟨?_, congrArg some ?_, hFound.realisedPnl, hTime.symm.trans hFound.lastBuyAt⟩
        · exact (congrArg (stored.balance + ·) hZero).trans ((add_zero _).trans hFound.balance)
        · rw [hBalance, hCost, hZero, hBasis]
          split
          · rename_i hFlat
            rw [if_pos hFlat] at hSame
            exact hSame.symm
          · rename_i hOpen
            rwa [if_neg hOpen] at hSame
    · rw [apply_bought hBuy hWhole hZero, if_neg hZero, hFound.balance]
      constructor
      · intro h
        have hSame : stored.balance + trade.amount = Doubles.add position.balance trade.amount :=
          h.balance
        rw [← hSame, hFound.balance]
      · intro hExact
        refine ⟨?_, congrArg some ?_, hFound.realisedPnl, rfl⟩
        · exact (congrArg (· + trade.amount) hFound.balance).trans hExact.symm
        · rw [hBalance, hCost]

theorem replays_sold_iff (hSell : trade.direction = .sell) (hWhole : trade.price.isInt)
    (hNumber : Doubles.number trade.amount = trade.amount) (hNumeric : position.Numeric)
    (hReplays : Replays row position) :
    Replays (some (soldPosition trade row)) (position.apply trade.activity) ↔
      KeepsReplay row trade := by
  unfold KeepsReplay
  rw [hSell, replays_some_iff]
  cases row with
  | none =>
    have hFlat : position = .flat := hReplays
    subst hFlat
    by_cases hZero : trade.amount = 0
    · rw [apply_zero hZero]
      refine ⟨fun _ => .inl hZero.ge, fun _ => ?_⟩
      exact ⟨neg_eq_zero.mpr hZero, rfl, rfl, rfl⟩
    · rw [apply_sold hSell hWhole hZero]
      have hOpened : -trade.amount = Doubles.sub 0 trade.amount := by
        rw [Doubles.zero_sub, hNumber]
      split
      · rename_i hPositive
        refine ⟨fun _ => .inl hPositive.le, fun _ => ?_⟩
        exact ⟨hOpened, rfl, rfl, rfl⟩
      · rename_i hNegative
        -- the replay earns on a position that was never bought
        have hPnl : Doubles.add 0 (computeRealisedPnlForSale 0 (pricePerKeyXlm trade.price)
            trade.amount) = Doubles.mul (pricePerKeyXlm trade.price) trade.amount := by
          unfold computeRealisedPnlForSale
          rw [Doubles.zero_add, Doubles.sub_zero, number_pricePerKeyXlm]
          exact Doubles.number_number _
        constructor
        · intro h
          have hSame := Option.some.inj h.realisedPnl
          rw [ReplayedPosition.flat, hPnl] at hSame
          exact .inr hSame.symm
        · intro h
          have hFree :=
            h.resolve_left fun hNonneg => hNegative (lt_of_le_of_ne hNonneg (Ne.symm hZero))
          refine ⟨hOpened, congrArg some ?_, congrArg some ?_, rfl⟩
          · exact (ite_self _).symm
          · rw [ReplayedPosition.flat, hPnl, hFree]
  | some stored =>
    have hFound := replays_some_iff.mp hReplays
    rcases hFound.read_eq hNumeric with ⟨hBalance, hCost, hPnl⟩
    unfold soldPosition
    dsimp only
    rw [hBalance, hCost, hPnl]
    by_cases hZero : trade.amount = 0
    · rw [apply_zero hZero, hZero, if_pos rfl, hFound.balance]
      split
      · rename_i hShort
        refine ⟨fun _ hFlat => absurd hFlat hShort.ne, fun _ => ?_⟩
        exact ⟨(congrArg (stored.balance + ·) neg_zero).trans ((add_zero _).trans hFound.balance),
          hFound.costBasis, hFound.realisedPnl, hFound.lastBuyAt⟩
      · rename_i hCovered
        have hLeft : Doubles.sub position.balance 0 = position.balance :=
          (Doubles.sub_zero _).trans hNumeric.balance
        constructor
        · intro h hFlat
          have hSame := Option.some.inj h.costBasis
          rw [computeCostBasisAfterSale, hLeft, if_pos hFlat.le] at hSame
          exact hSame.symm
        · intro h
          refine ⟨hLeft, congrArg some ?_, congrArg some ?_, hFound.lastBuyAt⟩
          · rw [computeCostBasisAfterSale, hLeft]
            split
            · rename_i hFlat
              exact (h (le_antisymm hFlat (not_lt.mp hCovered))).symm
            · rfl
          · rw [computeRealisedPnlForSale, Doubles.mul_zero, Doubles.add_zero]
            exact hNumeric.realisedPnl
    · rw [apply_sold hSell hWhole hZero, if_neg hZero, hFound.balance]
      split
      · rename_i hShort
        constructor
        · intro h _
          have hSame : stored.balance + -trade.amount = Doubles.sub position.balance trade.amount :=
            h.balance
          rw [← hSame, hFound.balance, sub_eq_add_neg]
        · intro hExact
          refine ⟨?_, hFound.costBasis, hFound.realisedPnl, hFound.lastBuyAt⟩
          rw [hExact hShort, sub_eq_add_neg]
          exact congrArg (· + -trade.amount) hFound.balance
      · rename_i hCovered
        exact ⟨fun _ hShort => absurd hShort hCovered, fun _ => ⟨rfl, rfl, rfl, hFound.lastBuyAt⟩⟩

theorem replays_step_iff (hWhole : trade.price.isInt)
    (hNumber : Doubles.number trade.amount = trade.amount) (hNumeric : position.Numeric)
    (hReplays : Replays row position) :
    Replays (some (positionAfter trade row)) (position.apply trade.activity) ↔
      KeepsReplay row trade := by
  unfold positionAfter
  cases hDirection : trade.direction with
  | buy => exact replays_bought_iff hDirection hWhole hNumber hNumeric hReplays
  | sell => exact replays_sold_iff hDirection hWhole hNumber hNumeric hReplays

-- Histories
----

variable {config : IndexerConfig} {ownerAddress creatorId : String} {trades : List TradeFields}
variable {db : TradeDb}

/- Trades that are indexed one at a time. -/
def processEach (config : IndexerConfig) (trades : List TradeFields) (db : TradeDb) : TradeDb :=
  trades.foldl (fun db trade => ((processTrade config trade).run db).2) db

/- The rebuilt position is the one that is stored. -/
def ReplayAgrees (db : TradeDb) (ownerAddress creatorId : String) : Prop :=
  (rebuildOwnershipPosition db ownerAddress
    creatorId).keyOwnership.find? (ownerAddress, creatorId) =
    db.keyOwnership.find? (ownerAddress, creatorId)

instance (db : TradeDb) (ownerAddress creatorId : String) :
    Decidable (ReplayAgrees db ownerAddress creatorId) := inferInstanceAs (Decidable (_ = _))

def TradesOf (ownerAddress creatorId : String) (trades : List TradeFields) : Prop :=
  ∀ trade ∈ trades, trade.pair = (ownerAddress, creatorId)

instance (ownerAddress creatorId : String) (trades : List TradeFields) :
    Decidable (TradesOf ownerAddress creatorId trades) :=
  inferInstanceAs (Decidable (∀ trade ∈ trades, _ = _))

/- A stored position beside its replay. -/
def replayStep (s : Option KeyOwnership × ReplayedPosition) (trade : TradeFields) :
    Option KeyOwnership × ReplayedPosition :=
  (some (positionAfter trade s.1), s.2.apply trade.activity)

/- Trades of a pair move its position as they move the row. -/
theorem find?_processEach {position : ReplayedPosition}
    (hTrades : TradesOf ownerAddress creatorId trades) :
    (processEach config trades db).keyOwnership.find? (ownerAddress, creatorId) =
      (trades.foldl replayStep (db.keyOwnership.find? (ownerAddress, creatorId), position)).1 := by
  induction trades generalizing db position with
  | nil => rfl
  | cons trade rest ih =>
    have hPair := hTrades trade List.mem_cons_self
    have hFirst := find?_processTrade config trade db trade.pair
    rw [if_pos rfl, hPair] at hFirst
    have hRest := @ih ((processTrade config trade).run db).2 (position.apply trade.activity)
        fun t ht => hTrades t (List.mem_cons_of_mem _ ht)
    rw [hFirst] at hRest
    exact hRest

theorem foldl_replayStep {row : Option KeyOwnership} {position : ReplayedPosition} :
    (trades.foldl replayStep (row, position)).2 = (trades.map TradeFields.activity).foldl
      ReplayedPosition.apply position := by
  induction trades generalizing row position with
  | nil => rfl
  | cons trade rest ih => exact ih

theorem activity_processEach :
    (processEach config trades db).activity = db.activity ++ trades.map TradeFields.activity := by
  induction trades generalizing db with
  | nil => exact (List.append_nil _).symm
  | cons trade rest ih =>
    refine ih.trans ?_
    rw [activity_processTrade, List.append_assoc]
    rfl

/- The replay reads the trades in the order they came in. -/
theorem historyOf_processEach (hFresh : db.historyOf ownerAddress creatorId = [])
    (hTrades : TradesOf ownerAddress creatorId trades)
    (hOrder : trades.Pairwise fun a b => a.tradeAt ≤ b.tradeAt) :
    (processEach config trades db).historyOf ownerAddress creatorId =
      trades.map TradeFields.activity := by
  have hBefore : (db.tradesOf creatorId).filter
      (fun activity => activity.actor = ownerAddress) = [] := by
    have hPerm := List.perm_insertionSort (fun a b : Activity => a.createdAt ≤ b.createdAt)
        ((db.tradesOf creatorId).filter fun activity => activity.actor = ownerAddress)
    rw [TradeDb.historyOf] at hFresh
    rw [hFresh] at hPerm
    exact hPerm.nil_eq.symm
  have hAll : ∀ activity ∈ trades.map TradeFields.activity, (activity.actor = ownerAddress ∧
      activity.creatorId = some creatorId) ∧
      activity.type.isTrade = true := by
    intro activity hActivity
    rcases List.mem_map.mp hActivity with ⟨trade, hTrade, rfl⟩
    have hPair := Prod.mk.inj (hTrades trade hTrade)
    refine ⟨⟨hPair.1, congrArg some hPair.2⟩, ?_⟩
    unfold TradeFields.activity TradeFields.activityType
    cases trade.direction <;> rfl
  have hFilter : ((processEach config trades db).tradesOf creatorId).filter
      (fun activity => activity.actor = ownerAddress) =
      trades.map TradeFields.activity := by
    unfold TradeDb.tradesOf at hBefore ⊢
    rw [activity_processEach, List.filter_append, List.filter_append, hBefore, List.nil_append,
      List.filter_eq_self.mpr, List.filter_eq_self.mpr]
    · intro activity hActivity
      simp [hAll activity hActivity]
    · intro activity hActivity
      rw [List.filter_eq_self.mpr] at hActivity
      · simp [hAll activity hActivity]
      · intro a ha
        simp [hAll a ha]
  unfold TradeDb.historyOf
  rw [hFilter]
  apply List.Pairwise.insertionSort_eq
  rw [List.pairwise_map]
  exact hOrder

theorem find?_rebuilt (hStored : db.keyOwnership.find? (ownerAddress, creatorId) = some stored) :
    (rebuildOwnershipPosition db ownerAddress
      creatorId).keyOwnership.find? (ownerAddress, creatorId) = some (stored.rebuilt
        ((db.historyOf ownerAddress creatorId).foldl ReplayedPosition.apply .flat)) := by
  unfold rebuildOwnershipPosition
  rw [if_neg]
  · unfold TradeDb.upsertOwnership
    rw [Table.find?_upsert]
    refine (if_pos rfl).trans ?_
    rw [hStored]
    rfl
  · rw [hStored]
    exact fun h => nomatch h.1

/- Agreement in terms of the row and the replay beside it. -/
theorem replayAgrees_processEach (hFresh : db.historyOf ownerAddress creatorId = [])
    (hNone : db.keyOwnership.find? (ownerAddress, creatorId) = none)
    (hTrades : TradesOf ownerAddress creatorId trades)
    (hOrder : trades.Pairwise fun a b => a.tradeAt ≤ b.tradeAt) :
    ReplayAgrees (processEach config trades db) ownerAddress creatorId ↔
      Replays (trades.foldl replayStep (none, .flat)).1
        (trades.foldl replayStep (none, .flat)).2 := by
  have hRow := @find?_processEach config ownerAddress creatorId trades db .flat hTrades
  have hReplay := @foldl_replayStep trades none .flat
  rw [hNone] at hRow
  rw [← @historyOf_processEach config ownerAddress creatorId trades
    db hFresh hTrades hOrder] at hReplay
  rw [hReplay]
  unfold ReplayAgrees
  cases hStored : (trades.foldl replayStep (none, .flat)).1 with
  | none =>
    have hNil : trades = [] := by
      rcases List.eq_nil_or_concat trades with hNil | ⟨before, trade, hConcat⟩
      · exact hNil
      · rw [hConcat, List.concat_eq_append, List.foldl_append] at hStored
        cases hStored
    subst hNil
    unfold rebuildOwnershipPosition
    have hHistory : (processEach config [] db).historyOf ownerAddress creatorId = [] := hFresh
    rw [hRow, hStored, hHistory]
    exact ⟨fun _ => rfl, fun _ => hNone⟩
  | some stored =>
    rw [hStored] at hRow
    rw [find?_rebuilt hRow, hRow]
    exact ⟨fun h => Option.some.inj h, fun h => congrArg some h⟩

/-
  On every part of a history the replay finds the position that
  is stored, if and only if each of its trades is one that the
  replay treats as the pipeline does.
-/
theorem replay_agrees_iff {config : IndexerConfig} {ownerAddress creatorId : String}
    {trades : List TradeFields} {db : TradeDb} (hFresh : db.historyOf ownerAddress creatorId = [])
    (hNone : db.keyOwnership.find? (ownerAddress, creatorId) = none)
    (hTrades : TradesOf ownerAddress creatorId trades)
    (hOrder : trades.Pairwise fun a b => a.tradeAt ≤ b.tradeAt)
    (hWhole : ∀ trade ∈ trades, trade.price.isInt)
    (hNumbers : ∀ trade ∈ trades, Doubles.number trade.amount = trade.amount) :
    (∀ n, ReplayAgrees (processEach config (trades.take n) db) ownerAddress creatorId) ↔
      ∀ before trade after, trades = before ++ trade :: after → KeepsReplay
        ((processEach config before db).keyOwnership.find? (ownerAddress, creatorId)) trade := by
  have hSteps := @foldl_take_iff _ _ replayStep (fun s => Replays s.1 s.2 ∧ s.2.Numeric)
      (fun s trade => KeepsReplay s.1 trade) (none, .flat) trades ⟨rfl, .flat⟩
      (fun s trade hTrade h => (and_iff_left (h.2.apply (hWhole trade hTrade))).trans
        (replays_step_iff (hWhole trade hTrade) (hNumbers trade hTrade) h.2 h.1))
  have hParts :
      (∀ n, ReplayAgrees (processEach config (trades.take n) db) ownerAddress creatorId) ↔ ∀ n,
        Replays ((trades.take n).foldl replayStep (none, .flat)).1
          ((trades.take n).foldl replayStep (none, .flat)).2 ∧
          ((trades.take n).foldl replayStep (none, .flat)).2.Numeric := by
    refine forall_congr' fun n => ?_
    rw [replayAgrees_processEach hFresh hNone (fun t ht => hTrades t (List.mem_of_mem_take ht))
      (hOrder.sublist (List.take_sublist n trades))]
    refine (and_iff_left ?_).symm
    exact List.foldlRecOn (motive := fun s : Option KeyOwnership × ReplayedPosition => s.2.Numeric)
      _ _ ReplayedPosition.Numeric.flat fun s hNumeric t ht =>
        hNumeric.apply (hWhole t (List.mem_of_mem_take ht))
  rw [hParts, hSteps]
  have hBefore : ∀ before trade after, trades = before ++ trade :: after →
      (processEach config before db).keyOwnership.find? (ownerAddress, creatorId) =
        (before.foldl replayStep (none, .flat)).1 := by
    intro before trade after hSplit
    rw [@find?_processEach config ownerAddress creatorId before db .flat fun t ht =>
      hTrades t (hSplit ▸ List.mem_append_left _ ht), hNone]
  constructor
  · intro h before trade after hSplit
    rw [hBefore before trade after hSplit]
    exact h before trade after hSplit
  · intro h before trade after hSplit
    have hKeeps := h before trade after hSplit
    rwa [hBefore before trade after hSplit] at hKeeps

/- A trade of wallet `A` in key `K`. -/
def sampleTrade (direction : PriceSnapshotDirection) (amount price : ℚ)
    (tradeAt : Int) : TradeFields where
  direction := direction
  creatorId := "K"
  actor := "A"
  amount := amount
  price := price
  feePaid := "0"
  tradeAt := tradeAt
  ledger := tradeAt
  paymentAsset := "XLM"
  txHash := "t"
  eventIndex := 0

theorem replay_agrees_sample :
    ReplayAgrees (processEach sampleConfig [sampleTrade .buy 2 10000000 1,
      sampleTrade .sell 5 30000000 1, sampleTrade .buy 4 20000000 2,
      sampleTrade .sell 1 50000000 3] freshCreator) "A" "K" := by
  have hParts : ∀ n, ReplayAgrees (processEach sampleConfig ([sampleTrade .buy 2 10000000 1,
      sampleTrade .sell 5 30000000 1, sampleTrade .buy 4 20000000 2,
      sampleTrade .sell 1 50000000 3].take n) freshCreator)
      "A" "K" := by
    refine (replay_agrees_iff (by decide) (by decide) (by decide) (by decide) (by decide)
      (by decide +kernel)).mpr (forall_split ?_)
    decide +kernel
  exact hParts 4

/-
  A purchase of no keys moves the last purchase in the table
  alone, a sale that came in before an earlier purchase is
  replayed after it, and the replay adds 0.1 and 0.2 to
  0.30000000000000004.
-/
theorem replay_disagrees :
    ¬ ReplayAgrees (processEach sampleConfig [sampleTrade .buy 1 10000000 1,
      sampleTrade .buy 0 10000000 2] freshCreator) "A" "K" ∧ ¬ ReplayAgrees
      (processEach sampleConfig [sampleTrade .buy 1 10000000 2, sampleTrade .sell 1 30000000 1]
        freshCreator) "A" "K" ∧ ¬ ReplayAgrees
      (processEach sampleConfig [sampleTrade .buy (1 / 10) 10000000 1,
        sampleTrade .buy (2 / 10) 10000000 2] freshCreator) "A" "K" := by
  decide +kernel

end Indexer

end AccessLayer
