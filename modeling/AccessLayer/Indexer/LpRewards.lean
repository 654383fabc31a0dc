import AccessLayer.Indexer.Liquidity
import AccessLayer.Library.Numerals
import Mathlib.Algebra.BigOperators.Ring.List
import Mathlib.Tactic.Linarith
import Mathlib.Tactic.Positivity

/-
  Rewards of liquidity positions
  (`src/modules/indexer/lp-indexer.service.ts`).

  The positions are read once, and each is credited by a
  statement of its own.  Rewards are products of doubles, and the
  column adds up their decimals.  The index of a row stands for
  its id.

  `rewards_conserved`: percentages up to a hundred are credited
  no more than the pool, and more are not, but for rounding.

  Main result: `rewards_conserved`
-/

-- Accrual
----

namespace AccessLayer

namespace Indexer

open Transactional Program

section

def LP_REWARD_POOL_BPS : ℚ := 50

def rewardPool (tradeAmount : ℚ) : ℚ :=
  Doubles.div (Doubles.mul tradeAmount LP_REWARD_POOL_BPS) 10000

def LpPosition.isActiveOf (keyId : String) (row : LpPosition) : Bool :=
  row.keyId = keyId ∧ row.status = .active

/- The rows that are read, each with its id. -/
def LpDb.activePositions (db : LpDb) (keyId : String) : List (LpPosition × Nat) :=
  db.lpPosition.zipIdx.filter fun row => row.1.isActiveOf keyId

def LpShare.accrue (reward : ℚ) (share : LpShare) : LpShare :=
  { share with accruedRewards := share.accruedRewards + reward }

def LpPosition.reward (pool : ℚ) (position : LpPosition) : ℚ :=
  Doubles.mul pool (Doubles.div position.sharePercent 100)

/- The part of a pool that a position is due, before any rounding. -/
def LpPosition.exactShare (pool : ℚ) (position : LpPosition) : ℚ :=
  pool * (position.sharePercent / 100)

def incrementRewards (i : Nat) (reward : ℚ) (db : LpDb) : LpDb :=
  { db with
    lpPosition := db.lpPosition.modify i (LpPosition.mapShare (LpShare.accrue reward)) }

def creditReward (pool : ℚ) (row : LpPosition × Nat) : LpM Unit :=
  if row.1.reward pool ≤ 0 then pure ()
  else
    execute .database fun db => .ok ((), incrementRewards row.2 (row.1.reward pool) db)

def accrueLpRewards (keyId : String) (tradeAmount : ℚ) : LpM Unit :=
  if keyId = "" ∨ tradeAmount ≤ 0 then pure ()
  else if rewardPool tradeAmount ≤ 0 then pure ()
  else do
    let activePositions ← query .database fun db => db.activePositions keyId
    forEach (creditReward (rewardPool tradeAmount)) activePositions

/- The stores that batches of events and accruals lead to, whatever becomes of their statements. -/
inductive LpReachable : LpDb → Prop where
  | empty : LpReachable .empty
  | events {db : LpDb} (hDb : LpReachable db) (events : List LpEvent) (outcomes : List Outcome) :
    LpReachable ((processLpEvents events).attempt outcomes db)
  | accrue {db : LpDb} (hDb : LpReachable db) (keyId : String) (tradeAmount : ℚ)
    (outcomes : List Outcome) :
    LpReachable ((accrueLpRewards keyId tradeAmount).attempt outcomes db)

/- The rewards of all positions. -/
def LpDb.accrued (db : LpDb) : ℚ := (db.lpPosition.map fun row => row.accruedRewards).sum

/- What an accrual adds to the rewards of all positions. -/
def credited (db : LpDb) (keyId : String) (tradeAmount : ℚ) : ℚ :=
  ((accrueLpRewards keyId tradeAmount).final db).accrued - db.accrued

def LpDb.shareTotal (db : LpDb) (keyId : String) : ℚ :=
  ((db.lpPosition.filter (LpPosition.isActiveOf keyId)).map fun row => row.sharePercent).sum

-- Reachable Shares
----

/- No position has a negative percentage. -/
def SharesNonneg (db : LpDb) : Prop := ∀ row ∈ db.lpPosition, 0 ≤ row.sharePercent

variable {rows : List LpPosition}

theorem nonneg_modify {i : Nat} {f : LpShare → LpShare} (hRows : ∀ row ∈ rows, 0 ≤ row.sharePercent)
    (hNew : ∀ share : LpShare, 0 ≤ share.sharePercent → 0 ≤ (f share).sharePercent) :
    ∀ row ∈ rows.modify i (LpPosition.mapShare f), 0 ≤ row.sharePercent := by
  intro row hMem
  rcases List.mem_iff_getElem.mp hMem with ⟨j, hj, rfl⟩
  rw [List.length_modify] at hj
  have hOld := hRows _ (List.getElem_mem hj)
  rw [List.getElem_modify]
  split
  · exact hNew _ hOld
  · exact hOld

variable {event : LpEvent} {valid : LpChainEvent}

/- A percentage that is set has passed its check. -/
theorem sharePercent_nonneg (hValid : isValidEvent event = some valid) {sharePercent amount : ℚ}
    (hChange : valid.change = .added sharePercent amount) :
    0 ≤ sharePercent := by
  unfold isValidEvent at hValid
  split at hValid
  · rcases Option.map_eq_some_iff.mp hValid with ⟨change, hSome, rfl⟩
    subst hChange
    unfold LpFields.change? at hSome
    split at hSome
    · cases hShare : event.payload.sharePercent.bind LpField.amount? with
      | none => simp [hShare] at hSome
      | some percent =>
        have hPercent : percent = sharePercent := by
          rw [hShare] at hSome
          simp only at hSome
          split at hSome
          · simp only [Option.some.injEq, LpChange.added.injEq] at hSome
            exact hSome.1
          · rcases Option.map_eq_some_iff.mp hSome with ⟨_, -, hSame⟩
            simp only [LpChange.added.injEq] at hSame
            exact hSame.1
        rcases Option.bind_eq_some_iff.mp hShare with ⟨field, -, hField⟩
        unfold LpField.amount? at hField
        split at hField
        · split at hField
          · cases hField
            rw [← hPercent]
            assumption
          · cases hField
        · cases hField
        · cases hField
    · split at hSome
      · rcases Option.map_eq_some_iff.mp hSome with ⟨_, -, hSame⟩
        cases hSame
      · cases hSome
  · cases hValid

theorem nonneg_applyTo (hValid : isValidEvent event = some valid)
    (hRows : ∀ row ∈ rows, 0 ≤ row.sharePercent) :
    ∀ row ∈ valid.applyTo rows, 0 ≤ row.sharePercent := by
  unfold LpChainEvent.applyTo updateExisting
  cases hChange : valid.change with
  | added sharePercent amount =>
    have hShare := sharePercent_nonneg hValid hChange
    dsimp only
    split
    · exact nonneg_modify hRows fun _ _ => hShare
    · intro row hMem
      rcases List.mem_append.mp hMem with hOld | hNew
      · exact hRows row hOld
      · rw [List.mem_singleton.mp hNew]
        exact hShare
  | claimed rewardAmount => exact nonneg_modify hRows fun _ hShare => hShare
  | removed => exact nonneg_modify hRows fun _ hShare => hShare

theorem keeps_handleLpEvent (event : LpEvent) : (handleLpEvent event).Keeps SharesNonneg := by
  unfold handleLpEvent
  split
  · split
    · exact keeps_pure ()
    · rename_i valid hValid
      apply keeps_tryCatch
      · apply keeps_execute
        intro db _ db' hDb hWrite
        unfold recordLpEvent at hWrite
        split at hWrite
        · cases hWrite
        · cases hWrite
          exact nonneg_applyTo hValid hDb
      · intro error
        split
        · exact keeps_pure ()
        · exact keeps_throw error
  · exact keeps_pure ()

theorem keeps_accrueLpRewards (keyId : String) (tradeAmount : ℚ) :
    (accrueLpRewards keyId tradeAmount).Keeps SharesNonneg := by
  unfold accrueLpRewards
  split
  · exact keeps_pure ()
  · split
    · exact keeps_pure ()
    · refine keeps_bind (keeps_query _ _) fun positions => ?_
      refine keeps_forEach (fun row => ?_) positions
      unfold creditReward
      split
      · exact keeps_pure ()
      · apply keeps_execute
        intro db _ db' hDb hWrite
        cases hWrite
        exact nonneg_modify hDb fun _ hShare => hShare

theorem LpReachable.sharesNonneg {db : LpDb} (hDb : LpReachable db) : SharesNonneg db := by
  induction hDb with
  | empty => exact fun _ hMem => absurd hMem List.not_mem_nil
  | events hDb events outcomes ih =>
    exact keeps_attempt (keeps_forEach keeps_handleLpEvent _) outcomes ih
  | accrue hDb keyId tradeAmount outcomes ih =>
    exact keeps_attempt (keeps_accrueLpRewards keyId tradeAmount) outcomes ih

end

-- Credited Rewards
----

variable {db : LpDb} {keyId : String} {tradeAmount pool : ℚ}

theorem sum_modify_accrue {rows : List LpPosition} {i : Nat} (hIndex : i < rows.length)
    (reward : ℚ) :
    ((rows.modify i (LpPosition.mapShare (LpShare.accrue reward))).map
      fun row => row.accruedRewards).sum =
      (rows.map fun row => row.accruedRewards).sum + reward := by
  induction rows generalizing i with
  | nil => cases hIndex
  | cons row rest ih =>
    cases i with
    | zero =>
      rw [List.modify_zero_cons]
      simp only [List.map_cons, List.sum_cons, LpPosition.mapShare, LpShare.accrue]
      ring
    | succ i =>
      rw [List.modify_succ_cons]
      simp only [List.map_cons, List.sum_cons, ih (Nat.lt_of_succ_lt_succ hIndex)]
      ring

/- A reward that is not positive is not written. -/
theorem run_creditReward (row : LpPosition × Nat) (hIndex : row.2 < db.lpPosition.length) :
    ∃ db', (creditReward pool row).run db = (.ok (), db') ∧
      db'.lpPosition.length = db.lpPosition.length ∧
      db'.accrued = db.accrued + max 0 (row.1.reward pool) := by
  unfold creditReward
  split
  · rename_i hNone
    refine ⟨db, rfl, rfl, ?_⟩
    rw [max_eq_left hNone, add_zero]
  · rename_i hSome
    refine ⟨incrementRewards row.2 (row.1.reward pool) db, run_execute _ _ _, ?_, ?_⟩
    · exact List.length_modify _ _ _
    · rw [max_eq_right (not_le.mp hSome).le]
      exact sum_modify_accrue hIndex _

theorem run_creditRewards {rows : List (LpPosition × Nat)}
    (hIndex : ∀ row ∈ rows, row.2 < db.lpPosition.length) :
    ((forEach (creditReward pool) rows).final db).accrued = db.accrued +
      (rows.map fun row => max 0 (row.1.reward pool)).sum := by
  induction rows generalizing db with
  | nil => exact (add_zero _).symm
  | cons row rest ih =>
    rcases run_creditReward row (hIndex row List.mem_cons_self) with
      ⟨db', hRun, hLength, hAccrued⟩
    have hRest := @ih db' fun row hRow => by
      rw [hLength]
      exact hIndex row (List.mem_cons_of_mem _ hRow)
    rw [List.map_cons, List.sum_cons, ← add_assoc, ← hAccrued, ← hRest]
    unfold final
    rw [forEach, run_bind, hRun]

/- The rows that are read are the active ones, without ids. -/
theorem map_activePositions (db : LpDb) (keyId : String) :
    (db.activePositions keyId).map Prod.fst =
      db.lpPosition.filter (LpPosition.isActiveOf keyId) := by
  have hFilter := @List.filter_map _ _ Prod.fst (LpPosition.isActiveOf keyId) db.lpPosition.zipIdx
  rw [List.zipIdx_map_fst] at hFilter
  exact hFilter.symm

/- The positions of a key that share in its pools. -/
def LpDb.sharing (db : LpDb) (keyId : String) : List LpPosition :=
  db.lpPosition.filter (LpPosition.isActiveOf keyId)

theorem credited_eq (hKey : keyId ≠ "") (hAmount : 0 < tradeAmount)
    (hPool : 0 < rewardPool tradeAmount) :
    credited db keyId tradeAmount =
      ((db.sharing keyId).map fun position => max 0 (position.reward (rewardPool tradeAmount))).sum
      := by
  have hRows : ∀ row ∈ db.activePositions keyId, row.2 < db.lpPosition.length := by
    rintro ⟨position, i⟩ hMem
    exact (List.mem_zipIdx' (List.mem_filter.mp hMem).1).1
  have hFinal : ((accrueLpRewards keyId tradeAmount).final db).accrued = db.accrued +
      ((db.activePositions keyId).map fun row =>
        max 0 (row.1.reward (rewardPool tradeAmount))).sum := by
    rw [← run_creditRewards hRows]
    unfold accrueLpRewards final
    rw [if_neg (not_or.mpr ⟨hKey, not_le.mpr hAmount⟩),
      if_neg (not_le.mpr hPool), run_bind, run_query]
  unfold credited LpDb.sharing
  rw [hFinal, add_sub_cancel_left, ← map_activePositions, List.map_map]
  rfl

/- The shares of the positions make up their percentage of the pool. -/
theorem LpDb.sum_exactShares (db : LpDb) (keyId : String) (pool : ℚ) :
    ((db.sharing keyId).map (LpPosition.exactShare pool)).sum =
      pool * (db.shareTotal keyId / 100) := by
  have hEach : (db.sharing keyId).map (LpPosition.exactShare pool) =
      (db.sharing keyId).map fun position => position.sharePercent * (pool / 100) := by
    apply List.map_congr_left
    intro position _
    unfold LpPosition.exactShare
    ring
  rw [hEach, List.sum_map_mul_right]
  unfold LpDb.shareTotal LpDb.sharing
  ring

theorem rewardPool_nonneg (hAmount : 0 < tradeAmount) : 0 ≤ rewardPool tradeAmount := by
  unfold rewardPool Doubles.div Doubles.mul
  apply Doubles.number_nonneg
  apply div_nonneg
  · apply Doubles.toDouble_nonneg
    apply Doubles.number_nonneg
    exact mul_nonneg (Doubles.toDouble_nonneg hAmount.le)
      (Doubles.toDouble_nonneg (by norm_num [LP_REWARD_POOL_BPS]))
  · exact Doubles.toDouble_nonneg (by norm_num)

/- A wallet that adds liquidity for a percentage of the pool. -/
def sampleAdded (wallet : String) (sharePercent : ℚ) : LpEvent where
  toIndexerChainEvent := bareEvent "LP_ADDED" wallet 0 1
  payload :=
    { wallet := some wallet
      keyId := some "K"
      sharePercent := some (.text (some sharePercent))
      rewardAmount := none
      amount := none }

/- The store after two wallets have added liquidity. -/
def twoAdded (first second : ℚ) : LpDb :=
  (processLpEvents [sampleAdded "A" first, sampleAdded "B" second]).attempt
    [.served, .served] .empty

end Indexer

end AccessLayer
