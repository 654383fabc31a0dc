import AccessLayer.Indexer.TradeBatches
import AccessLayer.Keys.Buyback
import AccessLayer.Library.Machines
import Mathlib.Tactic.Linarith

/-
  Buybacks of a deprecated key that overlap with one another and
  with indexed trades
  (`src/modules/keys/key-deprecation.service.ts`).

  The transaction of a buyback reads the key, then the position,
  and writes on what it has read; other calls may commit between
  these statements.  A trade reads a position and writes it.

  Main result: `buybacks_paid_once`
-/

-- Statements
----

namespace AccessLayer

namespace Keys

open Transactional Program Indexer

section

inductive HoldingError where
  | buyback (e : BuybackError)
  | indexer (e : IndexerError)

/- A change of a balance that a trade has written. -/
structure KeyChange where
  ownerAddress : String
  creatorId : String
  amount : ℚ

/- The tables, and the changes of trades in the order written. -/
structure HoldingDb where
  db : TradeDb
  changes : List KeyChange

/- A call and what it has read so far. -/
inductive HoldingWork where
  /- `processBuyback` -/
  | findCreator (now : Int) (keyId holderAddress : String)
  | findPosition (holderAddress : String) (creator : CreatorProfile) (pricePerKeyXlm : ℚ)
  | pay (holderAddress : String) (terms : BuybackTerms)
  /- a trade: the referral and the activity come first -/
  | prepare (trade : TradeFields) (update : TradeDb → TradeDb) (next : TradeDb → IndexerM Unit)
    (onFault : IndexerM Unit)
  /- `recordKeyPurchase` -/
  | findBought (trade : TradeFields)
  | buy (trade : TradeFields) (existing : Option KeyOwnership)
  /- `recordKeySale` -/
  | findSold (trade : TradeFields)
  | sell (trade : TradeFields) (existing : KeyOwnership)
  /- `updateOwnership` for a sale that could not be recorded -/
  | findUncovered (trade : TradeFields)
  | decrement (trade : TradeFields)
  /- statements after those on the position -/
  | complete (update : TradeDb → TradeDb) (next : TradeDb → IndexerM Unit) (onFault : IndexerM Unit)
  | ended (result : Except HoldingError Unit)

/- A call of which this much is left. -/
def completing : IndexerM Unit → HoldingWork
  | .ret _ => .ended (.ok ())
  | .raise e => .ended (.error (.indexer e))
  | .stmt update next onFault => .complete update next onFault

/- The first statement on the position. -/
def owning (trade : TradeFields) : HoldingWork :=
  match trade.direction with
  | .buy => .findBought trade
  | .sell => .findSold trade

/- A trade of which this much is left before the position. -/
def preparing (trade : TradeFields) : IndexerM Unit → HoldingWork
  | .ret _ => owning trade
  | .raise e => .ended (.error (.indexer e))
  | .stmt update next onFault => .prepare trade update next onFault

/- What follows the position of a trade. -/
def afterOwnership (config : IndexerConfig) (trade : TradeFields) : IndexerM Unit := do
  let supplyAfterTrade ← persistCirculatingSupply config trade.creatorId
  recordPrice config trade supplyAfterTrade
  readForSellLog trade

/- The snapshot of a new balance, and what follows. -/
def snapshotAfter (config : IndexerConfig) (trade : TradeFields) (balance : ℚ) : IndexerM Unit := do
  recordHoldingSnapshot trade.actor trade.creatorId balance trade.tradeAt
  afterOwnership config trade

def recordBuy (trade : TradeFields) (existing : Option KeyOwnership) (db : TradeDb) : TradeDb :=
  let newCostBasis :=
    costBasisAfterPurchase (balanceOf existing) (costBasisOf existing) trade.amount
      (pricePerKeyXlm trade.price)
  db.upsertOwnership { KeyOwnership.opened trade.actor trade.creatorId trade.amount with
      costBasis := some (pricePerKeyXlm trade.price)
      lastBuyAt := some trade.tradeAt } (.bought trade.amount newCostBasis trade.tradeAt)
    (key_bought trade.amount newCostBasis trade.tradeAt)

/- The update of a sale: the new balance is what was read less. -/
def recordSell (trade : TradeFields) (existing : KeyOwnership) (db : TradeDb) : TradeDb :=
  let newBalance := existing.balance - trade.amount
  let newCostBasis :=
    computeCostBasisAfterSale (existing.costBasis.getD 0) existing.balance trade.amount
  let newRealisedPnl :=
    existing.realisedPnl.getD 0 + computeRealisedPnlForSale (existing.costBasis.getD 0)
      (pricePerKeyXlm trade.price) trade.amount
  db.updateOwnershipRow trade.actor trade.creatorId (.sold newBalance newCostBasis newRealisedPnl)
    (key_sold newBalance newCostBasis newRealisedPnl)

/- Write a change to a position, and log it. -/
def HoldingDb.change (s : HoldingDb) (trade : TradeFields) (amount : ℚ)
    (db : TradeDb) : HoldingDb where
  db := db
  changes :=
    s.changes ++
      [{ ownerAddress := trade.actor
         creatorId := trade.creatorId
         amount }]

def executeHoldingWork (config : IndexerConfig) (call : HoldingWork)
    (s : HoldingDb) : Option (HoldingDb × HoldingWork) :=
  match call with
  | .findCreator now keyId holderAddress =>
    match openBuyback now keyId s.db with
    | .error e => some (s, .ended (.error (.buyback e)))
    | .ok opened => some (s, .findPosition holderAddress opened.1 opened.2)
  | .findPosition holderAddress creator pricePerKeyXlm =>
    match checkPosition holderAddress creator pricePerKeyXlm s.db with
    | .error e => some (s, .ended (.error (.buyback e)))
    | .ok terms => some (s, .pay holderAddress terms)
  | .pay holderAddress terms =>
    -- the writes of the transaction, as they are committed
    match s.db.keyOwnership.find? (holderAddress, terms.creator.id),
      s.db.creatorProfile.find? terms.creator.id with
    | some _, some _ => some ({ s with db := terms.record holderAddress s.db }, .ended (.ok ()))
    | _, _ => some (s, .ended (.error (.indexer .recordNotFound)))
  | .prepare trade update next _ => some ({ s with db := update s.db }, preparing trade (next s.db))
  | .findBought trade =>
    some (s, .buy trade (s.db.keyOwnership.find? (trade.actor, trade.creatorId)))
  | .buy trade existing =>
    let db := recordBuy trade existing s.db
    some (s.change trade trade.amount db, completing (snapshotAfter config trade
      (db.balance trade.actor trade.creatorId)))
  | .findSold trade =>
    match s.db.keyOwnership.find? (trade.actor, trade.creatorId) with
    | none => some (s, .findUncovered trade)
    | some existing =>
      if existing.balance < trade.amount then
        some (s, .findUncovered trade)
      else some (s, .sell trade existing)
  | .sell trade existing =>
    match s.db.keyOwnership.find? (trade.actor, trade.creatorId) with
    | some _ =>
      some (s.change trade (-trade.amount) (recordSell trade existing s.db), completing
        (snapshotAfter config trade (existing.balance - trade.amount)))
    | none => some (s, .findUncovered trade)
  | .findUncovered trade => some (s, .decrement trade)
  | .decrement trade =>
    let db := s.db.incrementBalance trade.actor trade.creatorId (-trade.amount)
    some (s.change trade (-trade.amount) db, completing (snapshotAfter config trade
      (db.balance trade.actor trade.creatorId)))
  | .complete update next _ => some ({ s with db := update s.db }, completing (next s.db))
  | .ended _ => none

/- A sale whose statement fails falls back, too. -/
def HoldingWork.fail : HoldingWork → HoldingWork
  | .findCreator _ _ _ => .ended (.error (.buyback .database))
  | .findPosition _ _ _ => .ended (.error (.buyback .database))
  | .pay _ _ => .ended (.error (.buyback .database))
  | .prepare trade _ _ onFault => preparing trade onFault
  | .findBought _ => .ended (.error (.indexer .database))
  | .buy _ _ => .ended (.error (.indexer .database))
  | .findSold trade => .findUncovered trade
  | .sell trade _ => .findUncovered trade
  | .findUncovered _ => .ended (.error (.indexer .database))
  | .decrement _ => .ended (.error (.indexer .database))
  | .complete _ _ onFault => completing onFault
  | .ended result => .ended result

def holdings (config : IndexerConfig) : Machine HoldingDb HoldingWork where
  execute := executeHoldingWork config
  fail := HoldingWork.fail

/- A buyback of a holder, or a trade to be indexed. -/
inductive HoldingRequest where
  | buyback (now : Int) (keyId holderAddress : String)
  | index (trade : TradeFields)

def HoldingRequest.work (config : IndexerConfig) : HoldingRequest → HoldingWork
  | .buyback now keyId holderAddress => .findCreator now keyId holderAddress
  | .index trade =>
    preparing trade do
      recordFirstTradeReferralReward config trade
      createActivity trade.activity

end

-- Fresh Writes
----

section

/- What the positions and the payments of a store are. -/
def positions (db : TradeDb) : Table KeyOwnership × List KeyBuyback :=
  (db.keyOwnership, db.keyBuyback)

/- The keys of a holder that have been paid out. -/
def paidTo (db : TradeDb) (holderAddress keyId : String) : ℚ :=
  ((db.keyBuyback.filter fun row => (row.holderAddress, row.keyId) = (holderAddress, keyId)).map
    KeyBuyback.quantity).sum

/- The position that a change is of. -/
def KeyChange.place (change : KeyChange) : String × String :=
  (change.ownerAddress, change.creatorId)

/- What trades have changed a position by. -/
def HoldingDb.changed (s : HoldingDb) (holderAddress keyId : String) : ℚ :=
  ((s.changes.filter fun change => change.place = (holderAddress, keyId)).map KeyChange.amount).sum

/- What trades have added to a position. -/
def HoldingDb.bought (s : HoldingDb) (holderAddress keyId : String) : ℚ :=
  ((s.changes.filter fun change => change.place = (holderAddress, keyId)).map
    fun change => max 0 change.amount).sum

/-
  A buyback is committed, and a sale is written, while the stored
  balance is the one that the call has read.
-/
def Fresh (s : HoldingDb) (call : HoldingWork) (outcome : Option Outcome) : Prop :=
  match call with
  | .pay holderAddress terms =>
    takesEffect outcome = true → s.db.balance holderAddress terms.creator.id =
      terms.ownership.balance
  | .sell trade existing =>
    takesEffect outcome = true → s.db.balance trade.actor trade.creatorId = existing.balance
  | _ => True

instance (s : HoldingDb) (call : HoldingWork) (outcome : Option Outcome) :
    Decidable (Fresh s call outcome) := by
  unfold Fresh
  split <;> infer_instance

/- Programs that leave the positions and payments alone. -/
def LeavesPositions (p : IndexerM Unit) : Prop :=
  p.Changes fun db db' => positions db' = positions db

/- What is left of a trade beside its position. -/
def HoldingWork.Beside : HoldingWork → Prop
  | .prepare _ update next onFault => LeavesPositions (.stmt update next onFault)
  | .complete update next onFault => LeavesPositions (.stmt update next onFault)
  | _ => True

variable {config : IndexerConfig} {p : IndexerM Unit}

theorem beside_completing (hp : LeavesPositions p) : (completing p).Beside := by
  cases p with
  | ret a => trivial
  | raise e => trivial
  | stmt update next onFault => exact hp

theorem beside_preparing (trade : TradeFields) (hp : LeavesPositions p) :
    (preparing trade p).Beside := by
  cases p with
  | ret a =>
    unfold preparing owning
    cases trade.direction with
    | _ => trivial
  | raise e => trivial
  | stmt update next onFault => exact hp

theorem leavesPositions_snapshotAfter (trade : TradeFields) (balance : ℚ) :
    LeavesPositions (snapshotAfter config trade balance) := by
  have hRefl : ∀ db : TradeDb, positions db = positions db := fun _ => rfl
  apply changes_bind
  · exact changes_recordHoldingSnapshot hRefl (fun _ _ => rfl) _ _ _ _
  · intro _
    apply changes_bind
    · exact changes_persistCirculatingSupply hRefl (fun _ _ => rfl) _ _
    · intro supplyAfterTrade
      apply changes_bind
      · exact changes_recordPrice hRefl (fun _ _ _ => rfl) _ _ _
      · exact fun _ => changes_readForSellLog hRefl trade

theorem beside_work (request : HoldingRequest) : (request.work config).Beside := by
  cases request with
  | buyback now keyId holderAddress => trivial
  | index trade =>
    unfold HoldingRequest.work
    apply beside_preparing
    have hRefl : ∀ db : TradeDb, positions db = positions db := fun _ => rfl
    apply changes_bind
    · exact changes_recordFirstTradeReferralReward hRefl (fun _ _ _ => rfl) _ _
    · exact fun _ => changes_alwaysWrite hRefl fun _ => rfl

end

-- Balances After a Write
----

section

variable {db : TradeDb} {row : KeyOwnership}

theorem balance_update_position {db' : TradeDb} {owner creator : String}
    (hRow : db.keyOwnership.find? (owner, creator) = some row) (f : KeyOwnership → KeyOwnership)
    (hKey : ∀ r, key (f r) = key r)
    (hTable : db'.keyOwnership = db.keyOwnership.update (owner, creator) f hKey)
    (owner' creator' : String) :
    db'.balance owner' creator' =
      if (owner', creator') = (owner, creator) then
        (f row).balance
      else db.balance owner' creator' := by
  rw [TradeDb.balance, hTable, Table.find?_update_stored hRow]
  by_cases hSame : (owner', creator') = (owner, creator)
  · rw [if_pos hSame, if_pos hSame]
    rfl
  · rw [if_neg hSame, if_neg hSame]
    rfl

/- A payment closes one position. -/
theorem balance_record {holderAddress : String} {terms : BuybackTerms} (hRow :
    db.keyOwnership.find? (holderAddress, terms.creator.id) = some row) (owner creator : String) :
    (terms.record holderAddress db).balance owner creator =
      if (owner, creator) = (holderAddress, terms.creator.id)
      then 0
      else db.balance owner creator :=
  balance_update_position hRow paidOut key_paidOut rfl owner creator

/- A sale sets one balance to what was read less its amount. -/
theorem balance_recordSell {trade : TradeFields} (hRow :
    db.keyOwnership.find? (trade.actor, trade.creatorId) = some row) (existing : KeyOwnership)
    (owner creator : String) :
    (recordSell trade existing db).balance owner creator =
      if (owner, creator) = (trade.actor, trade.creatorId) then
        existing.balance - trade.amount
      else db.balance owner creator :=
  balance_update_position hRow (.sold (existing.balance - trade.amount) _ _)
    (key_sold (existing.balance - trade.amount) _ _) rfl owner creator

theorem balance_recordBuy (trade : TradeFields) (existing : Option KeyOwnership) (db : TradeDb)
    (owner creator : String) :
    (recordBuy trade existing db).balance owner creator = db.balance owner creator +
      if (owner, creator) = (trade.actor, trade.creatorId) then
        trade.amount
      else 0 := by
  have hFind := Table.find?_upsert db.keyOwnership
      { KeyOwnership.opened trade.actor trade.creatorId trade.amount with
        costBasis := some (pricePerKeyXlm trade.price)
        lastBuyAt := some trade.tradeAt } (.bought trade.amount _ trade.tradeAt)
      (key_bought trade.amount (costBasisAfterPurchase (balanceOf existing)
        (costBasisOf existing) trade.amount (pricePerKeyXlm trade.price)) trade.tradeAt)
      (owner, creator)
  change (recordBuy trade existing db).keyOwnership.find? (owner, creator) = _ at hFind
  rw [TradeDb.balance, hFind, TradeDb.balance]
  change ((if (owner, creator) = (trade.actor, trade.creatorId) then
    some _
    else _ : Option KeyOwnership).map _).getD 0 = _
  by_cases hSame : (owner, creator) = (trade.actor, trade.creatorId)
  · rw [if_pos hSame, if_pos hSame]
    cases db.keyOwnership.find? (owner, creator) with
    | none => simp [KeyOwnership.opened]
    | some row => simp [KeyOwnership.bought]
  · rw [if_neg hSame, if_neg hSame, add_zero]

/- A sum over the rows of an owner and a key, one row later. -/
theorem sum_of_append {ρ : Type} (rows : List ρ) (row : ρ) (place : ρ → String × String)
    (amount : ρ → ℚ) (k : String × String) :
    (((rows ++ [row]).filter fun r => place r = k).map amount).sum =
      ((rows.filter fun r => place r = k).map amount).sum +
        if k = place row then amount row else 0 := by
  rw [List.filter_append, List.map_append, List.sum_append]
  by_cases hSame : k = place row
  · rw [if_pos hSame, List.filter_cons_of_pos]
    · simp
    · exact decide_eq_true hSame.symm
  · rw [if_neg hSame, List.filter_cons_of_neg]
    · simp
    · exact fun h => hSame (of_decide_eq_true h).symm

variable {s : HoldingDb}

theorem changed_change (trade : TradeFields) (amount : ℚ) (db : TradeDb) (owner creator : String) :
    (s.change trade amount db).changed owner creator = s.changed owner creator +
      if (owner, creator) = (trade.actor, trade.creatorId) then
        amount
      else 0 := sum_of_append s.changes _ KeyChange.place KeyChange.amount _

theorem bought_change (trade : TradeFields) (amount : ℚ) (db : TradeDb) (owner creator : String) :
    (s.change trade amount db).bought owner creator = s.bought owner creator +
      if (owner, creator) = (trade.actor, trade.creatorId) then
        max 0 amount
      else 0 := sum_of_append s.changes _ KeyChange.place (fun change => max 0 change.amount) _

theorem paidTo_record (terms : BuybackTerms) (holderAddress : String) (db : TradeDb)
    (owner creator : String) :
    paidTo (terms.record holderAddress db) owner creator = paidTo db owner creator +
      if (owner, creator) = (holderAddress, terms.creator.id)
      then terms.ownership.balance
      else 0 :=
  sum_of_append db.keyBuyback _ (fun row => (row.holderAddress, row.keyId)) KeyBuyback.quantity _

end

-- The Ledger of a Position
----

/- What a statement of a call does. -/
inductive HoldingStep (s : HoldingDb) :
    HoldingWork → HoldingDb → HoldingWork → Prop where
  | stays {call next : HoldingWork} {db : TradeDb} (hPositions : positions db = positions s.db) :
    HoldingStep s call { s with db } next
  | pays {holderAddress : String} {terms : BuybackTerms} {row : KeyOwnership} {next : HoldingWork}
    (hRow : s.db.keyOwnership.find? (holderAddress, terms.creator.id) = some row) :
    HoldingStep s (.pay holderAddress terms) { s with db := terms.record holderAddress s.db } next
  | adds {call next : HoldingWork} {trade : TradeFields} {amount : ℚ} {db : TradeDb}
    (hBalance : ∀ owner creator, db.balance owner creator = s.db.balance owner creator +
      if (owner, creator) = (trade.actor, trade.creatorId) then amount
      else 0) (hPaid : db.keyBuyback = s.db.keyBuyback) :
    HoldingStep s call (s.change trade amount db) next
  | sells {trade : TradeFields} {existing row : KeyOwnership} {next : HoldingWork}
    (hRow : s.db.keyOwnership.find? (trade.actor, trade.creatorId) = some row) :
    HoldingStep s (.sell trade existing) (s.change trade (-trade.amount)
      (recordSell trade existing s.db)) next

variable {config : IndexerConfig} {s s' : HoldingDb} {call next : HoldingWork}

theorem holding_step (hBeside : call.Beside)
    (hExecute : (holdings config).execute call s = some (s', next)) :
    HoldingStep s call s' next ∧ next.Beside := by
  change executeHoldingWork config call s = some (s', next) at hExecute
  cases call with
  | findCreator now keyId holderAddress =>
    simp only [executeHoldingWork] at hExecute
    split at hExecute
    · cases hExecute
      exact ⟨.stays rfl, trivial⟩
    · cases hExecute
      exact ⟨.stays rfl, trivial⟩
  | findPosition holderAddress creator pricePerKeyXlm =>
    simp only [executeHoldingWork] at hExecute
    split at hExecute
    · cases hExecute
      exact ⟨.stays rfl, trivial⟩
    · cases hExecute
      exact ⟨.stays rfl, trivial⟩
  | pay holderAddress terms =>
    simp only [executeHoldingWork] at hExecute
    split at hExecute
    · rename_i row creator hRow hCreator
      cases hExecute
      exact ⟨.pays hRow, trivial⟩
    · cases hExecute
      exact ⟨.stays rfl, trivial⟩
  | prepare trade update next onFault =>
    cases hExecute
    exact ⟨.stays (hBeside.1 s.db), beside_preparing trade (hBeside.2.1 s.db)⟩
  | findBought trade =>
    cases hExecute
    exact ⟨.stays rfl, trivial⟩
  | buy trade existing =>
    cases hExecute
    exact ⟨.adds (balance_recordBuy trade existing s.db) rfl,
      beside_completing (leavesPositions_snapshotAfter _ _)⟩
  | findSold trade =>
    simp only [executeHoldingWork] at hExecute
    split at hExecute
    · cases hExecute
      exact ⟨.stays rfl, trivial⟩
    · split at hExecute
      · cases hExecute
        exact ⟨.stays rfl, trivial⟩
      · cases hExecute
        exact ⟨.stays rfl, trivial⟩
  | sell trade existing =>
    simp only [executeHoldingWork] at hExecute
    split at hExecute
    · rename_i row hRow
      cases hExecute
      exact ⟨.sells hRow, beside_completing (leavesPositions_snapshotAfter _ _)⟩
    · cases hExecute
      exact ⟨.stays rfl, trivial⟩
  | findUncovered trade =>
    cases hExecute
    exact ⟨.stays rfl, trivial⟩
  | decrement trade =>
    cases hExecute
    exact ⟨.adds (balance_incrementBalance s.db _ _ _) rfl,
      beside_completing (leavesPositions_snapshotAfter _ _)⟩
  | complete update next onFault =>
    cases hExecute
    exact ⟨.stays (hBeside.1 s.db), beside_completing (hBeside.2.1 s.db)⟩
  | ended result => cases hExecute

theorem beside_fail (hBeside : call.Beside) : ((holdings config).fail call).Beside := by
  cases call with
  | prepare trade update next onFault => exact beside_preparing trade hBeside.2.2
  | complete update next onFault => exact beside_completing hBeside.2.2
  | _ => trivial

/-
  A balance is what was held and changed by trades less what was
  paid out; what was paid out and what is left was held or
  bought.
-/
structure HoldingLedger (held : TradeDb) (s : HoldingDb) : Prop where
  balance : ∀ owner creator, s.db.balance owner creator =
    held.balance owner creator + s.changed owner creator -
      (paidTo s.db owner creator - paidTo held owner creator)
  paid : ∀ owner creator, paidTo s.db owner creator - paidTo held owner creator +
    max 0 (s.db.balance owner creator) ≤ max 0 (held.balance owner creator) +
    s.bought owner creator

variable {held : TradeDb} {outcome : Option Outcome} {db : TradeDb}

theorem HoldingLedger.congr (h : HoldingLedger held s)
    (hPositions : positions db = positions s.db) :
    HoldingLedger held { s with db } := by
  rcases Prod.mk.inj hPositions with ⟨hOwnership, hBuyback⟩
  have hBalance : ∀ owner creator, db.balance owner creator = s.db.balance owner creator := by
    intro owner creator
    rw [TradeDb.balance, hOwnership, TradeDb.balance]
  have hPaid : ∀ owner creator, paidTo db owner creator = paidTo s.db owner creator := by
    intro owner creator
    rw [paidTo, hBuyback, paidTo]
  constructor
  · intro owner creator
    rw [hBalance, hPaid]
    exact h.balance owner creator
  · intro owner creator
    rw [hBalance, hPaid]
    exact h.paid owner creator

theorem HoldingLedger.change {trade : TradeFields} {amount : ℚ} (h : HoldingLedger held s)
    (hBalance : ∀ owner creator, db.balance owner creator = s.db.balance owner creator +
      if (owner, creator) = (trade.actor, trade.creatorId) then amount
      else 0) (hBuyback : db.keyBuyback = s.db.keyBuyback) :
    HoldingLedger held (s.change trade amount db) := by
  have hPaid : ∀ owner creator, paidTo db owner creator = paidTo s.db owner creator := by
    intro owner creator
    rw [paidTo, hBuyback, paidTo]
  constructor
  · intro owner creator
    change db.balance owner creator = _ + _ - (paidTo db _ _ - _)
    rw [hBalance, hPaid, changed_change, h.balance]
    ring
  · intro owner creator
    change paidTo db _ _ - _ + max 0 (db.balance owner creator) ≤ _ + _
    rw [hBalance, hPaid, bought_change]
    have hOld := h.paid owner creator
    split
    · have hSum : max 0 (s.db.balance owner creator + amount) ≤ max 0 (s.db.balance owner creator) +
          max 0 amount := by
        apply max_le
        · exact add_nonneg (le_max_left _ _) (le_max_left _ _)
        · exact add_le_add (le_max_right _ _) (le_max_right _ _)
      linarith
    · rw [add_zero, add_zero]
      exact hOld

/- A payment of the whole balance. -/
theorem HoldingLedger.pay {holderAddress : String} {terms : BuybackTerms} {row : KeyOwnership}
    (h : HoldingLedger held s)
    (hRow : s.db.keyOwnership.find? (holderAddress, terms.creator.id) = some row)
    (hFresh : s.db.balance holderAddress terms.creator.id = terms.ownership.balance) :
    HoldingLedger held
      { s with db := terms.record holderAddress s.db } := by
  constructor
  · intro owner creator
    have hOld := h.balance owner creator
    rw [balance_record hRow, paidTo_record]
    split
    · rename_i hSame
      cases hSame
      change 0 = _ + s.changed _ _ - _
      linarith
    · rw [add_zero]
      exact hOld
  · intro owner creator
    have hOld := h.paid owner creator
    rw [balance_record hRow, paidTo_record]
    split
    · rename_i hSame
      cases hSame
      have hAll := le_max_right 0 (s.db.balance holderAddress terms.creator.id)
      change _ ≤ _ + s.bought _ _
      rw [max_self]
      linarith
    · rw [add_zero]
      exact hOld

/- A write that meets the condition keeps the ledger. -/
theorem HoldingLedger.step (h : HoldingLedger held s) (hFresh : Fresh s call outcome)
    (hEffect : takesEffect outcome = true) (hStep : HoldingStep s call s' next) :
    HoldingLedger held s' := by
  cases hStep with
  | stays hPositions => exact h.congr hPositions
  | pays hRow => exact h.pay hRow (hFresh hEffect)
  | adds hBalance hPaid => exact h.change hBalance hPaid
  | @sells trade existing row next hRow =>
    have hRead : s.db.balance trade.actor trade.creatorId =
        existing.balance :=
      hFresh hEffect
    refine h.change ?_ rfl
    intro owner creator
    rw [balance_recordSell hRow]
    split
    · rename_i hSame
      cases hSame
      rw [hRead, sub_eq_add_neg]
    · rw [add_zero]

/- Calls on a store that holds positions. -/
def holdingStart (config : IndexerConfig) (held : TradeDb) (requests : List HoldingRequest) :
    Crew HoldingDb HoldingWork :=
  .start { db := held, changes := [] } (requests.map (HoldingRequest.work config))

/- A deprecated key of which one holder has ten. -/
def tenHeld : TradeDb :=
  { TradeDb.empty.incrementBalance "A" "K" 10 with
    creatorProfile :=
      Table.empty.create
        { id := "K"
          handle := "k"
          tradingPaused := false
          circulatingSupply := 10
          currentMilestone := 1
          deprecatedAt := some 0
          buybackPriceXlm := some 2
          buybackExpiresAt := none }
        rfl }

/- The holder buys five more. -/
def fiveBought : TradeFields where
  direction := .buy
  creatorId := "K"
  actor := "A"
  amount := 5
  price := 1
  feePaid := "0"
  tradeAt := 1
  ledger := 1
  paymentAsset := "XLM"
  txHash := "t"
  eventIndex := 0

end Keys

end AccessLayer
