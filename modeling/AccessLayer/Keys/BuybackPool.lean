import AccessLayer.Library.Machines
import AccessLayer.Library.Table
import Mathlib.Data.Rat.Defs
import Mathlib.Tactic.Linarith
import Mathlib.Tactic.Ring

/-
  The buyback pool of a creator
  (`src/modules/keys/buyback-pool.service.ts`).

  Contributions, executions and the running balance are written
  by calls without a common transaction.  Amounts have at most
  seven decimals, as the columns do.  Caches and logs are left
  out; `deducted` lists the executions whose amounts were taken
  from a balance, in that order.

  Main result: `buyback_pool_balanced`
-/

-- Tables
----

namespace AccessLayer

namespace Keys

open Transactional

section

structure BuybackPool where
  id : String
  creatorId : String
  balanceXlm : ℚ

instance : Keyed BuybackPool String := ⟨BuybackPool.creatorId⟩

/- An event of a sell tax. -/
structure SellTax where
  creatorId : String
  amountXlm : ℚ
  ledger : ℤ
  txHash : String
  eventIndex : ℤ

structure BuybackContribution where
  poolId : String
  creatorId : String
  amountXlm : ℚ
  sourceType : String
  ledger : ℤ
  txHash : String
  eventIndex : ℤ

instance : Keyed BuybackContribution (ℤ × String × ℤ) :=
  ⟨fun row => (row.ledger, row.txHash, row.eventIndex)⟩

inductive ExecutionStatus where
  | pending
  | completed
  | failed
  deriving DecidableEq

structure BuybackExecution where
  id : String
  creatorId : String
  amountXlm : ℚ
  executedBy : String
  status : ExecutionStatus
  txHash : Option String
  failureReason : Option String
  deriving DecidableEq

instance : Keyed BuybackExecution String := ⟨BuybackExecution.id⟩

structure BuybackPoolDb where
  creatorProfiles : List String
  buybackPool : Table BuybackPool
  buybackContribution : Table BuybackContribution
  buybackExecution : Table BuybackExecution
  deducted : List String

/- The row that records an event. -/
def SellTax.contribution (tax : SellTax) (poolId : String) : BuybackContribution where
  poolId := poolId
  creatorId := tax.creatorId
  amountXlm := tax.amountXlm
  sourceType := "SELL_TAX"
  ledger := tax.ledger
  txHash := tax.txHash
  eventIndex := tax.eventIndex

/- Add to the balance of a pool. -/
def BuybackPoolDb.increment (db : BuybackPoolDb) (creatorId : String)
    (amountXlm : ℚ) : BuybackPoolDb :=
  { db with
    buybackPool :=
      db.buybackPool.update creatorId (fun pool =>
        { pool with balanceXlm := pool.balanceXlm + amountXlm })
        fun _ => rfl }

def BuybackExecution.complete (txHash : String) (row : BuybackExecution) : BuybackExecution :=
  { row with
    status := .completed
    txHash := some txHash }

def BuybackExecution.fail (reason : String) (row : BuybackExecution) : BuybackExecution :=
  { row with
    status := .failed
    failureReason := some reason }

def BuybackPoolDb.updateExecution (db : BuybackPoolDb) (executionId : String)
    (f : BuybackExecution → BuybackExecution)
    (hKey : ∀ row, key (f row) = key row) : BuybackPoolDb :=
  { db with
    buybackExecution := db.buybackExecution.update executionId f hKey }

/- The transaction that completes an execution. -/
def BuybackPoolDb.settle (db : BuybackPoolDb) (execution : BuybackExecution)
    (txHash : String) : BuybackPoolDb :=
  { (db.increment execution.creatorId (-execution.amountXlm)).updateExecution execution.id
      (.complete txHash) (fun _ => rfl) with
    deducted := db.deducted ++ [execution.id] }

-- Statements
----

/- A call and what it has read so far.  The identifiers of new rows are given. -/
inductive BuybackPoolWork where
  /- `recordBuybackContribution` -/
  | findPool (tax : SellTax) (poolId : String)
  | createPool (tax : SellTax) (poolId : String)
  | increment (tax : SellTax)
  /- the balance is written; the contribution is next -/
  | contribute (tax : SellTax) (poolId : String)
  /- `executeBuybackFromPool` -/
  | findCreator (execution : BuybackExecution)
  | checkBalance (execution : BuybackExecution)
  | createExecution (execution : BuybackExecution)
  /- `completeBuybackExecution` -/
  | findExecution (executionId txHash : String)
  | findItsPool (execution : BuybackExecution) (txHash : String)
  | settle (execution : BuybackExecution) (txHash : String)
  /- `failBuybackExecution` -/
  | fail (executionId reason : String)
  /- `getBuybackPoolBalance` without a cached answer -/
  | readCreator (creatorId poolId : String)
  | readPool (creatorId poolId : String)
  | createEmptyPool (creatorId poolId : String)
  | ended

/- Insert a pool, or throw because the creator has one. -/
def createPoolOr (db : BuybackPoolDb) (pool : BuybackPool)
    (next : BuybackPoolWork) : BuybackPoolDb × BuybackPoolWork :=
  match db.buybackPool.insert? pool with
  | some buybackPool => ({ db with buybackPool }, next)
  | none => (db, .ended)

def executeBuybackPoolWork (call : BuybackPoolWork) (db : BuybackPoolDb) :
    Option (BuybackPoolDb × BuybackPoolWork) :=
  match call with
  | .findPool tax poolId =>
    match db.buybackPool.find? tax.creatorId with
    | none => some (db, .createPool tax poolId)
    | some _ => some (db, .increment tax)
  | .createPool tax poolId =>
    some (createPoolOr db
      { id := poolId
        creatorId := tax.creatorId
        balanceXlm := tax.amountXlm } (.contribute tax poolId))
  | .increment tax =>
    match db.buybackPool.find? tax.creatorId with
    | some pool => some (db.increment tax.creatorId tax.amountXlm, .contribute tax pool.id)
    | none => some (db, .ended)
  | .contribute tax poolId =>
    match db.buybackContribution.insert? (tax.contribution poolId) with
    | some buybackContribution => some ({ db with buybackContribution }, .ended)
    | none => some (db, .ended)
  | .findCreator execution =>
    if execution.creatorId ∈ db.creatorProfiles then
      some (db, .checkBalance execution)
    else some (db, .ended)
  | .checkBalance execution =>
    match db.buybackPool.find? execution.creatorId with
    | some pool =>
      if pool.balanceXlm < execution.amountXlm then
        some (db, .ended)
      else some (db, .createExecution execution)
    | none => some (db, .ended)
  | .createExecution execution =>
    match db.buybackExecution.insert? execution with
    | some buybackExecution => some ({ db with buybackExecution }, .ended)
    | none => some (db, .ended)
  | .findExecution executionId txHash =>
    match db.buybackExecution.find? executionId with
    | some execution => some (db, .findItsPool execution txHash)
    | none => some (db, .ended)
  | .findItsPool execution txHash =>
    match db.buybackPool.find? execution.creatorId with
    | some _ => some (db, .settle execution txHash)
    | none => some (db, .ended)
  | .settle execution txHash =>
    -- one transaction, rolled back if either row is missing
    match db.buybackPool.find? execution.creatorId, db.buybackExecution.find? execution.id with
    | some _, some _ => some (db.settle execution txHash, .ended)
    | _, _ => some (db, .ended)
  | .fail executionId reason =>
    match db.buybackExecution.find? executionId with
    | some _ => some (db.updateExecution executionId (.fail reason) fun _ => rfl, .ended)
    | none => some (db, .ended)
  | .readCreator creatorId poolId =>
    if creatorId ∈ db.creatorProfiles then
      some (db, .readPool creatorId poolId)
    else some (db, .ended)
  | .readPool creatorId poolId =>
    match db.buybackPool.find? creatorId with
    | some _ => some (db, .ended)
    | none => some (db, .createEmptyPool creatorId poolId)
  | .createEmptyPool creatorId poolId =>
    some (createPoolOr db
      { id := poolId
        creatorId
        balanceXlm := 0 } .ended)
  | .ended => none

/- An error that the services throw ends the call. -/
def buybackPool : Machine BuybackPoolDb BuybackPoolWork where
  execute := executeBuybackPoolWork
  fail := fun _ => .ended

/- The calls; a new execution is pending. -/
inductive BuybackPoolRequest where
  | recordBuybackContribution (tax : SellTax) (poolId : String)
  | executeBuybackFromPool (creatorId : String) (amountXlm : ℚ) (adminWallet executionId : String)
  | completeBuybackExecution (executionId txHash : String)
  | failBuybackExecution (executionId reason : String)
  | getBuybackPoolBalance (creatorId poolId : String)

def BuybackPoolRequest.work : BuybackPoolRequest → BuybackPoolWork
  | .recordBuybackContribution tax poolId => .findPool tax poolId
  | .executeBuybackFromPool creatorId amountXlm adminWallet executionId =>
    .findCreator
      { id := executionId
        creatorId
        amountXlm
        executedBy := adminWallet
        status := .pending
        txHash := none
        failureReason := none }
  | .completeBuybackExecution executionId txHash => .findExecution executionId txHash
  | .failBuybackExecution executionId reason => .fail executionId reason
  | .getBuybackPoolBalance creatorId poolId => .readCreator creatorId poolId

-- The Ledger
----

/- The balance of a creator, zero without a pool. -/
def BuybackPoolDb.balance (db : BuybackPoolDb) (creatorId : String) : ℚ :=
  ((db.buybackPool.find? creatorId).map BuybackPool.balanceXlm).getD 0

/- What the recorded events contribute to a creator. -/
def BuybackPoolDb.contributed (db : BuybackPoolDb) (creatorId : String) : ℚ :=
  db.buybackContribution.total fun row =>
    if row.creatorId = creatorId then row.amountXlm else 0

def BuybackPoolDb.completed (db : BuybackPoolDb) (creatorId : String) : ℚ :=
  db.buybackExecution.total fun row =>
    if row.creatorId = creatorId ∧ row.status = .completed then
      row.amountXlm
    else 0

/- What a call has added to a balance and not recorded yet. -/
def BuybackPoolWork.unrecorded (creatorId : String) : BuybackPoolWork → ℚ
  | .contribute tax _ =>
    if tax.creatorId = creatorId then tax.amountXlm else 0
  | _ => 0

/-
  The balances are what was contributed, recorded or not, less
  what was completed; each deduction is of another execution,
  which is completed.
-/
structure Ledger (db : BuybackPoolDb) (unrecorded : String → ℚ) : Prop where
  balance : ∀ creatorId, db.balance creatorId = db.contributed creatorId + unrecorded creatorId -
    db.completed creatorId
  nonneg : ∀ creatorId, 0 ≤ db.balance creatorId
  deducted_once : db.deducted.Nodup
  deducted_completed :
    ∀ executionId ∈ db.deducted, ∃ row, db.buybackExecution.find? executionId = some row ∧
      row.status = .completed

/-
  A balance is written for an amount that is not negative and
  the call hears of it, an event is recorded after its balance
  was written and was not recorded before, an execution is
  completed as it was read, pending and within the balance, and
  only a pending one fails.
-/
def Orderly (db : BuybackPoolDb) (call : BuybackPoolWork) (outcome : Option Outcome) : Prop :=
  match call with
  | .createPool tax _ => takesEffect outcome = true → outcome = some .served ∧ 0 ≤ tax.amountXlm
  | .increment tax => takesEffect outcome = true → outcome = some .served ∧ 0 ≤ tax.amountXlm
  | .contribute tax poolId =>
    takesEffect outcome = true ∧ db.buybackContribution.find? (key (tax.contribution poolId)) = none
  | .settle execution _ =>
    takesEffect outcome = true → (∀ row ∈ db.buybackExecution.find? execution.id,
      row = execution ∧ row.status = .pending) ∧
      ∀ pool ∈ db.buybackPool.find? execution.creatorId, execution.amountXlm ≤ pool.balanceXlm
  | .fail executionId _ =>
    takesEffect outcome = true → ∀ row ∈ db.buybackExecution.find? executionId,
      row.status = .pending
  | _ => True

instance (db : BuybackPoolDb) (call : BuybackPoolWork) (outcome : Option Outcome) :
    Decidable (Orderly db call outcome) := by
  unfold Orderly
  split <;> infer_instance

variable {db : BuybackPoolDb} {unrecorded : String → ℚ} {creatorId : String} {pool : BuybackPool}

theorem balance_of_find (hPool : db.buybackPool.find? creatorId = some pool) :
    db.balance creatorId = pool.balanceXlm := by
  rw [BuybackPoolDb.balance, hPool]
  rfl

theorem balance_increment (hPool : db.buybackPool.find? creatorId = some pool) (amountXlm : ℚ)
    (other : String) :
    (db.increment creatorId amountXlm).balance other = db.balance other +
      if creatorId = other then amountXlm else 0 := by
  simp only [BuybackPoolDb.balance, BuybackPoolDb.increment]
  rw [Table.find?_update_stored hPool]
  by_cases hSame : other = creatorId
  · subst hSame
    simp [hPool]
  · simp [hSame, Ne.symm hSame]

theorem balance_create {buybackPool : Table BuybackPool}
    (hInsert : db.buybackPool.insert? pool = some buybackPool) (other : String) :
    BuybackPoolDb.balance { db with buybackPool } other = db.balance other +
      if pool.creatorId = other then pool.balanceXlm else 0 := by
  rcases Table.exists_create_of_insert? hInsert with ⟨hFresh, rfl⟩
  simp only [BuybackPoolDb.balance, Table.find?_create]
  by_cases hSame : other = key pool
  · subst hSame
    have hKey : pool.creatorId = key pool := rfl
    rw [if_pos rfl, hFresh, if_pos hKey]
    simp
  · have hKey : ¬pool.creatorId = other := fun h => hSame h.symm
    rw [if_neg hSame, if_neg hKey, add_zero]

/- A balance is written and the event is still to be recorded. -/
theorem Ledger.add (h : Ledger db unrecorded) {db' : BuybackPoolDb} {amountXlm : ℚ}
    (hAmount : 0 ≤ amountXlm) (hBalance : ∀ other, db'.balance other = db.balance other +
      if creatorId = other then amountXlm else 0)
    (hContributions : db'.buybackContribution = db.buybackContribution)
    (hExecutions : db'.buybackExecution = db.buybackExecution)
    (hDeducted : db'.deducted = db.deducted) :
    Ledger db' fun other => unrecorded other +
      if creatorId = other then amountXlm else 0 where
  balance := by
    intro other
    have hOld := h.balance other
    rw [hBalance, BuybackPoolDb.contributed,
      BuybackPoolDb.completed, hContributions, hExecutions, hOld,
      BuybackPoolDb.contributed, BuybackPoolDb.completed]
    ring
  nonneg := by
    intro other
    have hOld := h.nonneg other
    rw [hBalance]
    split <;> linarith
  deducted_once := by
    rw [hDeducted]
    exact h.deducted_once
  deducted_completed := by
    rw [hDeducted, hExecutions]
    exact h.deducted_completed

theorem Ledger.record (h : Ledger db unrecorded) {row : BuybackContribution}
    {buybackContribution : Table BuybackContribution}
    (hInsert : db.buybackContribution.insert? row = some buybackContribution) :
    Ledger { db with buybackContribution } fun creatorId => unrecorded creatorId -
      if row.creatorId = creatorId then row.amountXlm
      else 0 where
  balance := by
    intro creatorId
    have hOld := h.balance creatorId
    rcases Table.exists_create_of_insert? hInsert with ⟨hFresh, rfl⟩
    change db.balance creatorId = _ + _ - db.completed creatorId
    rw [hOld, BuybackPoolDb.contributed, BuybackPoolDb.contributed, Table.total_create]
    ring
  nonneg := h.nonneg
  deducted_once := h.deducted_once
  deducted_completed := h.deducted_completed

variable {row : BuybackExecution}

/- A new execution is not completed. -/
theorem Ledger.initiate (h : Ledger db unrecorded) {buybackExecution : Table BuybackExecution}
    (hPending : row.status = .pending)
    (hInsert : db.buybackExecution.insert? row = some buybackExecution) :
    Ledger { db with buybackExecution } unrecorded where
  balance := by
    intro creatorId
    have hOld := h.balance creatorId
    rcases Table.exists_create_of_insert? hInsert with ⟨hFresh, rfl⟩
    change db.balance creatorId = db.contributed creatorId + unrecorded creatorId - _
    rw [hOld, BuybackPoolDb.completed, BuybackPoolDb.completed, Table.total_create, hPending]
    simp
  nonneg := h.nonneg
  deducted_once := h.deducted_once
  deducted_completed := by
    intro executionId hMem
    rcases h.deducted_completed executionId hMem with ⟨old, hOld, hStatus⟩
    rcases Table.exists_create_of_insert? hInsert with ⟨hFresh, rfl⟩
    refine ⟨old, ?_, hStatus⟩
    rw [Table.find?_create, if_neg]
    · exact hOld
    · rintro rfl
      rw [hOld] at hFresh
      cases hFresh

variable {executionId : String}

theorem completed_updateExecution (hRow : db.buybackExecution.find? executionId = some row)
    (hPending : row.status = .pending) (f : BuybackExecution → BuybackExecution)
    (hKey : ∀ row, key (f row) = key row) (creatorId : String) :
    (db.updateExecution executionId f hKey).completed creatorId = db.completed creatorId +
      if (f row).creatorId = creatorId ∧ (f row).status = .completed then (f row).amountXlm
      else 0 := by
  rw [BuybackPoolDb.completed, BuybackPoolDb.updateExecution,
    Table.total_update _ _ _ _ hRow, BuybackPoolDb.completed, hPending]
  simp

theorem Ledger.settle (h : Ledger db unrecorded) {execution : BuybackExecution} {txHash : String}
    (hPool : db.buybackPool.find? execution.creatorId = some pool)
    (hExecution : db.buybackExecution.find? execution.id = some execution)
    (hPending : execution.status = .pending) (hEnough : execution.amountXlm ≤ pool.balanceXlm) :
    Ledger (db.settle execution txHash) unrecorded where
  balance := by
    intro creatorId
    have hOld := h.balance creatorId
    have hBalance : (db.settle execution txHash).balance creatorId = _ :=
      balance_increment hPool (-execution.amountXlm) creatorId
    have hCompleted : (db.settle execution txHash).completed creatorId = _ :=
      completed_updateExecution hExecution hPending (.complete txHash) (fun _ => rfl) creatorId
    change _ = db.contributed creatorId + unrecorded creatorId - _
    rw [hBalance, hCompleted, hOld]
    by_cases hSame : execution.creatorId = creatorId
    · simp only [BuybackExecution.complete, hSame, true_and, if_true]
      ring
    · simp only [BuybackExecution.complete, hSame, false_and, if_false]
      ring
  nonneg := by
    intro creatorId
    have hOld := h.nonneg creatorId
    have hBalance : (db.settle execution txHash).balance creatorId = _ :=
      balance_increment hPool (-execution.amountXlm) creatorId
    rw [hBalance]
    split
    · rename_i hSame
      rw [← hSame, balance_of_find hPool]
      linarith
    · rw [add_zero]
      exact hOld
  deducted_once := by
    refine List.nodup_append.mpr ⟨h.deducted_once, List.nodup_singleton _, ?_⟩
    rintro executionId hMem _ hNew rfl
    rcases h.deducted_completed executionId hMem with ⟨row, hRow, hCompleted⟩
    rw [List.mem_singleton.mp hNew, hExecution] at hRow
    cases hRow
    rw [hPending] at hCompleted
    cases hCompleted
  deducted_completed := by
    intro executionId hMem
    have hFind : (db.settle execution txHash).buybackExecution.find? executionId = _ :=
      Table.find?_update_stored hExecution (.complete txHash) (fun _ => rfl) executionId
    rw [hFind]
    rcases List.mem_append.mp hMem with hOld | hNew
    · rcases h.deducted_completed executionId hOld with ⟨row, hRow, hCompleted⟩
      by_cases hSame : executionId = execution.id
      · rw [if_pos hSame]
        exact ⟨_, rfl, rfl⟩
      · rw [if_neg hSame]
        exact ⟨row, hRow, hCompleted⟩
    · rw [if_pos (List.mem_singleton.mp hNew)]
      exact ⟨_, rfl, rfl⟩

theorem Ledger.abandon (h : Ledger db unrecorded) {reason : String}
    (hRow : db.buybackExecution.find? executionId = some row) (hPending : row.status = .pending) :
    Ledger (db.updateExecution executionId (.fail reason) fun _ => rfl) unrecorded where
  balance := by
    intro creatorId
    have hOld := h.balance creatorId
    have hCompleted :=
      completed_updateExecution hRow hPending (.fail reason) (fun _ => rfl) creatorId
    change db.balance creatorId = db.contributed creatorId + unrecorded creatorId - _
    rw [hCompleted, hOld]
    simp [BuybackExecution.fail]
  nonneg := h.nonneg
  deducted_once := h.deducted_once
  deducted_completed := by
    intro other hMem
    rcases h.deducted_completed other hMem with ⟨old, hOld, hCompleted⟩
    refine ⟨old, ?_, hCompleted⟩
    have hNe : other ≠ executionId := by
      rintro rfl
      rw [hRow] at hOld
      cases hOld
      rw [hPending] at hCompleted
      cases hCompleted
    exact (Table.find?_update_other _ (.fail reason) (fun _ => rfl) hNe).trans hOld

end

-- Runs
----

variable {db db' : BuybackPoolDb} {unrecorded unrecorded' : String → ℚ}
variable {call next : BuybackPoolWork} {outcome : Option Outcome}

theorem Ledger.congr (h : Ledger db unrecorded)
    (hSame : ∀ creatorId, unrecorded' creatorId = unrecorded creatorId) : Ledger db unrecorded' :=
  (funext hSame : unrecorded' = unrecorded) ▸ h

/- A new execution that is pending. -/
def BuybackPoolWork.Initiates : BuybackPoolWork → Prop
  | .findCreator execution => execution.status = .pending
  | .checkBalance execution => execution.status = .pending
  | .createExecution execution => execution.status = .pending
  | _ => True

/- What a statement that takes effect does. -/
inductive BuybackPoolStep (db : BuybackPoolDb) :
    BuybackPoolWork → BuybackPoolDb → BuybackPoolWork →
      Prop where
  | stays {call next : BuybackPoolWork} (hOwes : ∀ creatorId, next.unrecorded creatorId = 0)
    (hInitiates : call.Initiates → next.Initiates)
    (hRefused : ∀ tax poolId, call = .contribute tax poolId → db.buybackContribution.find?
      (key (tax.contribution poolId)) ≠ none) : BuybackPoolStep db call db next
  | creates {tax : SellTax} {poolId : String} {buybackPool : Table BuybackPool}
    (hInsert : db.buybackPool.insert?
      { id := poolId
        creatorId := tax.creatorId
        balanceXlm := tax.amountXlm } = some buybackPool) :
    BuybackPoolStep db (.createPool tax poolId) { db with buybackPool } (.contribute tax poolId)
  | increments {tax : SellTax} {pool : BuybackPool}
    (hPool : db.buybackPool.find? tax.creatorId = some pool) :
    BuybackPoolStep db (.increment tax) (db.increment tax.creatorId tax.amountXlm)
      (.contribute tax pool.id)
  | opens {creatorId poolId : String} {buybackPool : Table BuybackPool}
    (hInsert : db.buybackPool.insert?
      { id := poolId
        creatorId
        balanceXlm := 0 } = some buybackPool) :
    BuybackPoolStep db (.createEmptyPool creatorId poolId) { db with buybackPool } .ended
  | records {tax : SellTax} {poolId : String} {buybackContribution : Table BuybackContribution}
    (hInsert :
      db.buybackContribution.insert? (tax.contribution poolId) = some buybackContribution) :
    BuybackPoolStep db (.contribute tax poolId) { db with buybackContribution } .ended
  | initiates {execution : BuybackExecution} {buybackExecution : Table BuybackExecution}
    (hInsert : db.buybackExecution.insert? execution = some buybackExecution) :
    BuybackPoolStep db (.createExecution execution) { db with buybackExecution } .ended
  | settles {execution row : BuybackExecution} {pool : BuybackPool} {txHash : String}
    (hPool : db.buybackPool.find? execution.creatorId = some pool)
    (hRow : db.buybackExecution.find? execution.id = some row) :
    BuybackPoolStep db (.settle execution txHash) (db.settle execution txHash) .ended
  | fails {executionId reason : String} {row : BuybackExecution}
    (hRow : db.buybackExecution.find? executionId = some row) :
    BuybackPoolStep db (.fail executionId reason) (db.updateExecution executionId (.fail reason)
      fun _ => rfl) .ended

theorem BuybackPoolStep.reads (hOwes : ∀ creatorId, next.unrecorded creatorId = 0)
    (hInitiates : call.Initiates → next.Initiates)
    (hCall : ∀ tax poolId, call ≠ .contribute tax poolId) : BuybackPoolStep db call db next :=
  .stays hOwes hInitiates fun tax poolId h => absurd h (hCall tax poolId)

theorem buybackPool_step (hExecute : executeBuybackPoolWork call db = some (db', next)) :
    BuybackPoolStep db call db' next := by
  cases call with
  | findPool tax poolId =>
    simp only [executeBuybackPoolWork] at hExecute
    split at hExecute <;> cases hExecute <;>
      exact .reads (fun _ => rfl) (fun _ => trivial) (by rintro _ _ ⟨⟩)
  | createPool tax poolId =>
    simp only [executeBuybackPoolWork, createPoolOr] at hExecute
    split at hExecute
    · rename_i buybackPool hInsert
      cases hExecute
      exact .creates hInsert
    · cases hExecute
      exact .reads (fun _ => rfl) (fun _ => trivial) (by rintro _ _ ⟨⟩)
  | increment tax =>
    simp only [executeBuybackPoolWork] at hExecute
    split at hExecute
    · rename_i pool hPool
      cases hExecute
      exact .increments hPool
    · cases hExecute
      exact .reads (fun _ => rfl) (fun _ => trivial) (by rintro _ _ ⟨⟩)
  | contribute tax poolId =>
    simp only [executeBuybackPoolWork] at hExecute
    split at hExecute
    · rename_i buybackContribution hInsert
      cases hExecute
      exact .records hInsert
    · rename_i hInsert
      cases hExecute
      refine .stays (fun _ => rfl) (fun _ => trivial) ?_
      rintro _ _ ⟨⟩ hFresh
      have hNone := hInsert
      rw [Table.insert?, dif_pos hFresh] at hNone
      cases hNone
  | findCreator execution =>
    simp only [executeBuybackPoolWork] at hExecute
    split at hExecute <;> cases hExecute
    · exact .reads (fun _ => rfl) id (by rintro _ _ ⟨⟩)
    · exact .reads (fun _ => rfl) (fun _ => trivial) (by rintro _ _ ⟨⟩)
  | checkBalance execution =>
    simp only [executeBuybackPoolWork] at hExecute
    split at hExecute
    · split at hExecute <;> cases hExecute
      · exact .reads (fun _ => rfl) (fun _ => trivial) (by rintro _ _ ⟨⟩)
      · exact .reads (fun _ => rfl) id (by rintro _ _ ⟨⟩)
    · cases hExecute
      exact .reads (fun _ => rfl) (fun _ => trivial) (by rintro _ _ ⟨⟩)
  | createExecution execution =>
    simp only [executeBuybackPoolWork] at hExecute
    split at hExecute
    · rename_i buybackExecution hInsert
      cases hExecute
      exact .initiates hInsert
    · cases hExecute
      exact .reads (fun _ => rfl) (fun _ => trivial) (by rintro _ _ ⟨⟩)
  | findExecution executionId txHash =>
    simp only [executeBuybackPoolWork] at hExecute
    split at hExecute <;> cases hExecute <;>
      exact .reads (fun _ => rfl) (fun _ => trivial) (by rintro _ _ ⟨⟩)
  | findItsPool execution txHash =>
    simp only [executeBuybackPoolWork] at hExecute
    split at hExecute <;> cases hExecute <;>
      exact .reads (fun _ => rfl) (fun _ => trivial) (by rintro _ _ ⟨⟩)
  | settle execution txHash =>
    simp only [executeBuybackPoolWork] at hExecute
    split at hExecute
    · rename_i pool row hPool hRow
      cases hExecute
      exact .settles hPool hRow
    · cases hExecute
      exact .reads (fun _ => rfl) (fun _ => trivial) (by rintro _ _ ⟨⟩)
  | fail executionId reason =>
    simp only [executeBuybackPoolWork] at hExecute
    split at hExecute
    · rename_i row hRow
      cases hExecute
      exact .fails hRow
    · cases hExecute
      exact .reads (fun _ => rfl) (fun _ => trivial) (by rintro _ _ ⟨⟩)
  | readCreator creatorId poolId =>
    simp only [executeBuybackPoolWork] at hExecute
    split at hExecute <;> cases hExecute <;>
      exact .reads (fun _ => rfl) (fun _ => trivial) (by rintro _ _ ⟨⟩)
  | readPool creatorId poolId =>
    simp only [executeBuybackPoolWork] at hExecute
    split at hExecute <;> cases hExecute <;>
      exact .reads (fun _ => rfl) (fun _ => trivial) (by rintro _ _ ⟨⟩)
  | createEmptyPool creatorId poolId =>
    simp only [executeBuybackPoolWork, createPoolOr] at hExecute
    split at hExecute
    · rename_i buybackPool hInsert
      cases hExecute
      exact .opens hInsert
    · cases hExecute
      exact .reads (fun _ => rfl) (fun _ => trivial) (by rintro _ _ ⟨⟩)
  | ended => cases hExecute

theorem Ledger.step (h : Ledger db unrecorded) (hPending : call.Initiates)
    (hOrderly : Orderly db call outcome) (hEffect : takesEffect outcome = true)
    (hStep : BuybackPoolStep db call db' next) :
    Ledger db' fun creatorId => unrecorded creatorId + (next.unrecorded creatorId -
      call.unrecorded creatorId) := by
  cases hStep with
  | stays hOwes hInitiates hRefused =>
    apply h.congr
    intro creatorId
    rw [hOwes]
    cases call with
    | contribute tax poolId => exact absurd hOrderly.2 (hRefused tax poolId rfl)
    | _ => simp [BuybackPoolWork.unrecorded]
  | creates hInsert =>
    refine (h.add (hOrderly hEffect).2 (balance_create hInsert) rfl rfl rfl).congr ?_
    simp [BuybackPoolWork.unrecorded]
  | increments hPool =>
    refine (h.add (hOrderly hEffect).2 (balance_increment hPool _) rfl rfl rfl).congr ?_
    simp [BuybackPoolWork.unrecorded]
  | opens hInsert =>
    refine (h.add le_rfl (balance_create hInsert) rfl rfl rfl).congr ?_
    simp [BuybackPoolWork.unrecorded]
  | records hInsert =>
    refine (h.record hInsert).congr ?_
    intro creatorId
    change unrecorded creatorId + ((0 : ℚ) - _) = unrecorded creatorId - _
    rw [zero_sub, ← sub_eq_add_neg]
    rfl
  | initiates hInsert =>
    refine (h.initiate hPending hInsert).congr ?_
    simp [BuybackPoolWork.unrecorded]
  | settles hPool hRow =>
    rcases hOrderly hEffect with ⟨hRead, hEnough⟩
    rcases hRead _ hRow with ⟨rfl, hStatus⟩
    refine (h.settle hPool hRow hStatus (hEnough _ hPool)).congr ?_
    simp [BuybackPoolWork.unrecorded]
  | fails hRow =>
    refine (h.abandon hRow (hOrderly hEffect _ hRow)).congr ?_
    simp [BuybackPoolWork.unrecorded]

def EndedStay (db db' : BuybackPoolDb) : Prop :=
  ∀ executionId row, db.buybackExecution.find? executionId = some row →
    row.status ≠ .pending → ∃ row', db'.buybackExecution.find? executionId = some row' ∧
      row'.status = row.status

theorem endedStay_refl (db : BuybackPoolDb) : EndedStay db db :=
  fun _ row hRow _ => ⟨row, hRow, rfl⟩

theorem endedStay_update {executionId : String} {row : BuybackExecution}
    (hRow : db.buybackExecution.find? executionId = some row) (hPending : row.status = .pending)
    (f : BuybackExecution → BuybackExecution) (hKey : ∀ row, key (f row) = key row)
    (hExecutions : db'.buybackExecution = db.buybackExecution.update executionId f hKey) :
    EndedStay db db' := by
  intro other old hOld hEnded
  refine ⟨old, ?_, rfl⟩
  have hNe : other ≠ executionId := by
    rintro rfl
    rw [hRow] at hOld
    cases hOld
    exact hEnded hPending
  rw [hExecutions, Table.find?_update_other _ _ _ hNe]
  exact hOld

theorem endedStay_step (hOrderly : Orderly db call outcome) (hEffect : takesEffect outcome = true)
    (hStep : BuybackPoolStep db call db' next) :
    EndedStay db db' := by
  cases hStep with
  | initiates hInsert =>
    intro executionId row hRow _
    refine ⟨row, ?_, rfl⟩
    rcases Table.exists_create_of_insert? hInsert with ⟨hFresh, rfl⟩
    rw [Table.find?_create, if_neg]
    · exact hRow
    · rintro rfl
      rw [hRow] at hFresh
      cases hFresh
  | settles hPool hRow =>
    have hRead := (hOrderly hEffect).1 _ hRow
    exact endedStay_update hRow hRead.2 (.complete _) (fun _ => rfl) rfl
  | fails hRow => exact endedStay_update hRow (hOrderly hEffect _ hRow) (.fail _) (fun _ => rfl) rfl
  | _ => exact endedStay_refl db

/- A ledger, with calls that owe the events of their writes. -/
structure PoolBalanced (crew : Crew BuybackPoolDb BuybackPoolWork) : Prop where
  ledger : Ledger crew.store fun creatorId => crew.total (BuybackPoolWork.unrecorded creatorId)
  initiates : crew.All BuybackPoolWork.Initiates

/- A call that may fail or crash owes nothing. -/
theorem unrecorded_of_orderly (hOrderly : Orderly db call outcome)
    (hNoEffect : takesEffect outcome = false) (creatorId : String) :
    call.unrecorded creatorId = 0 := by
  cases call with
  | contribute tax poolId =>
    rw [hOrderly.1] at hNoEffect
    cases hNoEffect
  | _ => rfl

/- A call that does not hear of its effect owes nothing. -/
theorem unrecorded_of_lost (hOrderly : Orderly db call (some .lost))
    (hStep : BuybackPoolStep db call db' next) (creatorId : String) :
    next.unrecorded creatorId = 0 := by
  cases hStep with
  | stays hOwes _ _ => exact hOwes creatorId
  | creates _ => cases (hOrderly rfl).1
  | increments _ => cases (hOrderly rfl).1
  | _ => rfl

theorem initiates_next (hPending : call.Initiates) (hStep : BuybackPoolStep db call db' next) :
    next.Initiates := by
  cases hStep with
  | stays _ hInitiates _ => exact hInitiates hPending
  | _ => trivial

variable {crew crew' : Crew BuybackPoolDb BuybackPoolWork}

theorem PoolBalanced.set (h : PoolBalanced crew) {i : Nat} {next : Option BuybackPoolWork}
    (hCall : crew.calls[i]? = some (some call)) (hInitiates : ∀ call ∈ next, call.Initiates)
    (hLedger : Ledger db fun creatorId => crew.total (BuybackPoolWork.unrecorded creatorId) +
      (next.elim 0 (BuybackPoolWork.unrecorded creatorId) - call.unrecorded creatorId)) :
    PoolBalanced
      { store := db, calls := crew.calls.set i next } where
  ledger := hLedger.congr fun _ => Crew.total_set hCall next db _
  initiates := h.initiates.set hInitiates db

theorem poolBalanced_attempt {move : FaultMove} (h : PoolBalanced crew)
    (hAdmits : crew.Admits Orderly move) (hStep : crew.attempt buybackPool move = some crew') :
    PoolBalanced crew' ∧ EndedStay crew.store crew'.store := by
  cases Crew.moved hStep with
  | @settled i call after outcome hCall hExecute =>
    have hOrderly := hAdmits call hCall
    have hTaken := buybackPool_step hExecute
    have hPending := h.initiates i call hCall
    cases outcome with
    | served =>
      refine ⟨h.set hCall ?_ (h.ledger.step hPending hOrderly rfl hTaken),
        endedStay_step hOrderly rfl hTaken⟩
      rintro _ ⟨⟩
      exact initiates_next hPending hTaken
    | rejected =>
      refine ⟨h.set hCall ?_ ?_, endedStay_refl _⟩
      · rintro _ ⟨⟩
        trivial
      · apply h.ledger.congr
        intro creatorId
        rw [unrecorded_of_orderly hOrderly rfl]
        change _ + ((0 : ℚ) - 0) = _
        rw [sub_zero, add_zero]
    | lost =>
      refine ⟨h.set hCall ?_ ?_, endedStay_step hOrderly rfl hTaken⟩
      · rintro _ ⟨⟩
        trivial
      · refine (h.ledger.step hPending hOrderly rfl hTaken).congr ?_
        intro creatorId
        rw [unrecorded_of_lost hOrderly hTaken]
        rfl
  | @crashed i call hCall =>
    have hOrderly := hAdmits call hCall
    refine ⟨h.set hCall ?_ ?_, endedStay_refl _⟩
    · rintro _ ⟨⟩
    · apply h.ledger.congr
      intro creatorId
      rw [unrecorded_of_orderly hOrderly rfl]
      change _ + ((0 : ℚ) - 0) = _
      rw [sub_zero, add_zero]

/- A pool without balances, contributions and executions. -/
def BuybackPoolDb.start (creatorProfiles : List String) : BuybackPoolDb where
  creatorProfiles := creatorProfiles
  buybackPool := .empty
  buybackContribution := .empty
  buybackExecution := .empty
  deducted := []

def buybackPoolStart (creatorProfiles : List String) (requests : List BuybackPoolRequest) :
    Crew BuybackPoolDb BuybackPoolWork :=
  .start (.start creatorProfiles) (requests.map BuybackPoolRequest.work)

theorem poolBalanced_start (creatorProfiles : List String) (requests : List BuybackPoolRequest) :
    PoolBalanced (buybackPoolStart creatorProfiles requests) := by
  have hCalls : ∀ call ∈ requests.map BuybackPoolRequest.work, call.Initiates ∧
      ∀ creatorId, call.unrecorded creatorId = 0 := by
    intro call hCall
    rcases List.mem_map.mp hCall with ⟨request, -, rfl⟩
    cases request with
    | executeBuybackFromPool _ amountXlm adminWallet id => exact ⟨rfl, fun _ => rfl⟩
    | _ => exact ⟨trivial, fun _ => rfl⟩
  constructor
  · have hTotal : ∀ creatorId, (buybackPoolStart creatorProfiles requests).total
        (BuybackPoolWork.unrecorded creatorId) = 0 := by
      intro creatorId
      apply Crew.total_eq_zero
      exact Crew.all_start _ fun call hCall => (hCalls call hCall).2 creatorId
    constructor
    · intro creatorId
      rw [hTotal, add_zero]
      exact (sub_zero _).symm
    · exact fun _ => le_rfl
    · exact List.nodup_nil
    · exact nofun
  · exact Crew.all_start _ fun call hCall => (hCalls call hCall).1

/- No call is between its write of a balance and its event. -/
def AtRest (crew : Crew BuybackPoolDb BuybackPoolWork) : Prop :=
  crew.All fun call => ∀ creatorId, call.unrecorded creatorId = 0

/-
  In orderly runs, the balance of a creator at rest is what its
  recorded events contributed less what its completed executions
  took; it is never negative, no execution is deducted twice, and
  none that has ended changes its status.
-/
theorem buyback_pool_balanced {creatorProfiles : List String} {requests : List BuybackPoolRequest}
    {moves : List FaultMove} (hRun : RunsTo (Crew.attempt buybackPool) (Crew.Admits Orderly)
      (buybackPoolStart creatorProfiles requests) moves crew) :
    (AtRest crew → ∀ creatorId, crew.store.balance creatorId = crew.store.contributed creatorId -
      crew.store.completed creatorId) ∧ (∀ creatorId, 0 ≤ crew.store.balance creatorId) ∧
    crew.store.deducted.Nodup ∧ ∀ move crew', crew.Admits Orderly move →
      crew.attempt buybackPool move = some crew' → EndedStay crew.store crew'.store := by
  have h : PoolBalanced crew :=
    RunsTo.invariant (poolBalanced_start creatorProfiles requests) (fun _ _ _ hInv hAdmits hStep =>
      (poolBalanced_attempt hInv hAdmits hStep).1)
      hRun
  refine ⟨?_, h.ledger.nonneg, h.ledger.deducted_once, fun move crew' hAdmits hStep =>
    (poolBalanced_attempt h hAdmits hStep).2⟩
  intro hRest creatorId
  have hNone : crew.total (BuybackPoolWork.unrecorded creatorId) = 0 :=
    Crew.total_eq_zero fun i call hCall => hRest i call hCall creatorId
  rw [h.ledger.balance, hNone, add_zero]

def fiveTax : SellTax where
  creatorId := "K"
  amountXlm := 5
  ledger := 1
  txHash := "t"
  eventIndex := 0

def onceEach : List BuybackPoolRequest :=
  [.recordBuybackContribution fiveTax "p", .executeBuybackFromPool "K" 3 "admin" "e",
    .completeBuybackExecution "e" "tx"]

theorem buyback_pool_balanced_sample :
    ∃ crew, RunsTo (Crew.attempt buybackPool) (Crew.Admits Orderly)
      (buybackPoolStart ["K"] onceEach) (servedMoves 0 3 ++ servedMoves 1 3 ++ servedMoves 2 3)
      crew ∧
      crew.store.balance "K" = 2 ∧ crew.store.deducted.Nodup := by
  have hRun := runsTo_of_runAllowed (Option.some_get (show (runAllowed (Crew.attempt buybackPool)
      (Crew.Admits Orderly) (buybackPoolStart ["K"] onceEach)
      (servedMoves 0 3 ++ servedMoves 1 3 ++ servedMoves 2 3)).isSome = true by
      decide)).symm
  refine ⟨_, hRun, by decide +kernel, ?_⟩
  exact (buyback_pool_balanced hRun).2.2.1

/-
  A contribution that is delivered twice is added twice, and an
  execution that is completed twice is deducted twice.
-/
theorem repeated_calls_break_ledger :
    (∃ moves crew, RunsTo (Crew.attempt buybackPool) (fun _ _ => True) (buybackPoolStart ["K"]
      [.recordBuybackContribution fiveTax "p", .recordBuybackContribution fiveTax "q"])
      moves crew ∧ AtRest crew ∧ crew.store.balance "K" ≠
      crew.store.contributed "K" - crew.store.completed "K") ∧ ∃ moves crew,
      RunsTo (Crew.attempt buybackPool) (fun _ _ => True) (buybackPoolStart ["K"]
        (onceEach ++ [.completeBuybackExecution "e" "tx"])) moves crew ∧
      crew.store.balance "K" < 0 ∧ ¬crew.store.deducted.Nodup := by
  refine ⟨⟨servedMoves 0 3 ++ servedMoves 1 3, _, runsTo_of_runLabels rfl, ?_, by decide +kernel⟩,
    ⟨servedMoves 0 3 ++ servedMoves 1 3 ++ servedMoves 2 3 ++
      servedMoves 3 3, _, runsTo_of_runLabels rfl, by decide +kernel, by decide +kernel⟩⟩
  intro i call hCall creatorId
  rcases i with _ | _ | i <;> cases hCall <;> rfl

end Keys

end AccessLayer
