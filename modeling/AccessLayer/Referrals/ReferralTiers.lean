import AccessLayer.Library.Machines
import AccessLayer.Library.Table
import Mathlib.Algebra.Order.Floor.Ring
import Mathlib.Data.Rat.Floor
import Mathlib.Order.Bounds.Basic
import Mathlib.Tactic.Linarith

/-
  Referral tiers of wallets
  (`src/modules/referrals/referral-tier.service.ts`).

  An upgrade is logged, the tier of its wallet is read, and the
  greater tier and volume are written back, each by a statement
  of its own.  The cache is left out.

  Main result: `tiers_rise`
-/

-- Tables
----

namespace AccessLayer

namespace Referrals

open Transactional

section

open Program

structure ReferralTierUpgradeInput where
  walletAddress : String
  previousTier : ℕ
  newTier : ℕ
  cumulativeVolume : ℚ
  txHash : String
  eventIndex : ℕ
  ledger : ℕ
  occurredAt : ℤ
  deriving DecidableEq

/-
  How a volume is stored, and read back as a number: a volume
  that was stored is stored again as it is.
-/
structure VolumeColumn where
  write : ℚ → ℚ
  read : ℚ → ℚ
  write_mono : Monotone write
  write_read : ∀ volume, write (read (write volume)) = write volume

structure ReferralTierEvent where
  walletAddress : String
  previousTier : ℕ
  newTier : ℕ
  cumulativeVolume : ℚ
  ledger : ℕ
  txHash : String
  eventIndex : ℕ
  occurredAt : ℤ

structure ReferralTier where
  walletAddress : String
  tier : ℕ
  cumulativeVolume : ℚ
  lastUpgradedAt : Option ℤ
  deriving DecidableEq

instance : Keyed ReferralTierEvent (String × ℕ) where
  key row := (row.txHash, row.eventIndex)

instance : Keyed ReferralTier String where
  key := ReferralTier.walletAddress

structure TierDb where
  referralTierEvent : Table ReferralTierEvent
  referralTier : Table ReferralTier

def TierDb.empty : TierDb where
  referralTierEvent := .empty
  referralTier := .empty

inductive TierError where
  | database
  | uniqueViolation
  | recordNotFound
  deriving DecidableEq

-- Upgrades
----

variable (column : VolumeColumn) (input : ReferralTierUpgradeInput)

namespace ReferralTierUpgradeInput

def event : ReferralTierEvent where
  walletAddress := input.walletAddress
  previousTier := input.previousTier
  newTier := input.newTier
  cumulativeVolume := column.write input.cumulativeVolume
  ledger := input.ledger
  txHash := input.txHash
  eventIndex := input.eventIndex
  occurredAt := input.occurredAt

/- The first tier of a wallet. -/
def row : ReferralTier where
  walletAddress := input.walletAddress
  tier := input.newTier
  cumulativeVolume := column.write input.cumulativeVolume
  lastUpgradedAt := some input.occurredAt

def nextTier (existing : ReferralTier) : ℕ := max existing.tier input.newTier

def nextVolume (existing : ReferralTier) : ℚ :=
  max (column.read existing.cumulativeVolume) input.cumulativeVolume

/- The upgrade changes what was read. -/
def Changes (existing : ReferralTier) : Prop :=
  input.nextTier existing ≠ existing.tier ∨ input.nextVolume column existing ≠
    column.read existing.cumulativeVolume

instance (existing : ReferralTier) : Decidable (input.Changes column existing) :=
  inferInstanceAs (Decidable (_ ∨ _))

/- Write what follows from the row that was read. -/
def advance (existing stored : ReferralTier) : ReferralTier :=
  { stored with
    tier := input.nextTier existing
    cumulativeVolume := column.write (input.nextVolume column existing)
    lastUpgradedAt := some input.occurredAt }

theorem key_advance (existing stored : ReferralTier) :
    key (input.advance column existing stored) = key stored := rfl

/- An event that was logged before is left as it is. -/
def log (db : TierDb) : TierDb :=
  { db with
    referralTierEvent := db.referralTierEvent.upsert (input.event column) id fun _ => rfl }

def update (existing : ReferralTier) (db : TierDb) : TierDb :=
  { db with
    referralTier :=
      db.referralTier.update input.walletAddress (input.advance column existing)
        (input.key_advance column existing) }

end ReferralTierUpgradeInput

-- Calls
----

/- How far a call has come, and what it has read. -/
inductive TierStage where
  | logging
  | reading
  | creating
  | updating (existing : ReferralTier)
  | done
  | failed (error : TierError)
  deriving DecidableEq

structure TierCall where
  input : ReferralTierUpgradeInput
  stage : TierStage
  deriving DecidableEq

def TierCall.begin (input : ReferralTierUpgradeInput) : TierCall where
  input := input
  stage := .logging

variable (column : VolumeColumn)

/- What comes after the row was read. -/
def TierCall.afterRead (call : TierCall) : Option ReferralTier → TierStage
  | none => .creating
  | some existing =>
    if call.input.Changes column existing then
      .updating existing
    else .done

def executeTierCall (call : TierCall) (db : TierDb) : Option (TierDb × TierCall) :=
  match call.stage with
  | .logging => some (call.input.log column db, { call with stage := .reading })
  | .reading =>
    some (db, { call with
          stage := call.afterRead column (db.referralTier.find? call.input.walletAddress) })
  | .creating =>
    match db.referralTier.insert? (call.input.row column) with
    | some referralTier => some ({ db with referralTier }, { call with stage := .done })
    | none => some (db, { call with stage := .failed .uniqueViolation })
  | .updating existing =>
    match db.referralTier.find? call.input.walletAddress with
    | some _ => some (call.input.update column existing db, { call with stage := .done })
    | none => some (db, { call with stage := .failed .recordNotFound })
  | .done => none
  | .failed _ => none

/- A statement that fails ends a call. -/
def TierCall.fail (call : TierCall) : TierCall :=
  match call.stage with
  | .done => call
  | .failed _ => call
  | _ => { call with stage := .failed .database }

def tierCalls : Machine TierDb TierCall where
  execute := executeTierCall column
  fail := TierCall.fail

end

-- Maxima
----

section

variable (column : VolumeColumn) (deliveries : List ReferralTierUpgradeInput)

/- The tiers that a wallet was upgraded to. -/
def tiersOf (wallet : String) : Set ℕ :=
  {tier | ∃ input ∈ deliveries, input.walletAddress = wallet ∧ input.newTier = tier}

/- The volumes of a wallet, as they are stored. -/
def volumesOf (wallet : String) : Set ℚ :=
  {volume | ∃ input ∈ deliveries, input.walletAddress = wallet ∧
        column.write input.cumulativeVolume = volume}

/- No tier and no volume is lowered. -/
def TierDb.Rises (db db' : TierDb) : Prop :=
  ∀ wallet row, db.referralTier.find? wallet = some row →
    ∃ row', db'.referralTier.find? wallet = some row' ∧ row.tier ≤ row'.tier ∧
      row.cumulativeVolume ≤ row'.cumulativeVolume

/- The wallets of all events have their maxima. -/
def TierDb.ShowsMaxima (db : TierDb) : Prop :=
  ∀ input ∈ deliveries, ∃ row, db.referralTier.find? input.walletAddress = some row ∧
    IsGreatest (tiersOf deliveries input.walletAddress) row.tier ∧ IsGreatest
      (volumesOf column deliveries input.walletAddress) row.cumulativeVolume

/- A call for every event has returned. -/
def Recorded (crew : Crew TierDb TierCall) : Prop :=
  ∀ input ∈ deliveries, some { input := input, stage := .done } ∈ crew.calls

instance (crew : Crew TierDb TierCall) : Decidable (Recorded deliveries crew) :=
  inferInstanceAs (Decidable (∀ input ∈ deliveries, _ ∈ crew.calls))

/-
  Since the row was read, another call has raised it, and above
  the tier or the volume of the event.
-/
def Overtaken (input : ReferralTierUpgradeInput) (existing stored : ReferralTier) : Prop :=
  existing.tier < stored.tier ∧ input.newTier < stored.tier ∨
    existing.cumulativeVolume < stored.cumulativeVolume ∧ column.write input.cumulativeVolume <
      stored.cumulativeVolume

instance (input : ReferralTierUpgradeInput) (existing stored : ReferralTier) :
    Decidable (Overtaken column input existing stored) := inferInstanceAs (Decidable (_ ∨ _))

/- The row that an update is made on. -/
def TierStage.existing : TierStage → Option ReferralTier
  | .updating existing => some existing
  | _ => none

/- No update is made that was overtaken. -/
def NotOvertaken (db : TierDb) (call : TierCall) (outcome : Option Outcome) : Prop :=
  takesEffect outcome = true → ∀ existing ∈ call.stage.existing, ∀ stored ∈
    db.referralTier.find? call.input.walletAddress,
    ¬ Overtaken column call.input existing stored

instance (db : TierDb) (call : TierCall) (outcome : Option Outcome) :
    Decidable (NotOvertaken column db call outcome) := inferInstanceAs (Decidable (_ → _))

end

-- Statements
----

section

variable {column : VolumeColumn} {deliveries : List ReferralTierUpgradeInput} {db db' db'' : TierDb}
variable {input : ReferralTierUpgradeInput} {existing row : ReferralTier} {wallet : String}
variable {call : TierCall}

theorem TierDb.Rises.of_eq (hSame : db'.referralTier = db.referralTier) : db.Rises db' := by
  intro wallet row hRow
  rw [hSame]
  exact ⟨row, hRow, le_rfl, le_rfl⟩

theorem TierDb.Rises.trans (hFirst : db.Rises db') (hSecond : db'.Rises db'') : db.Rises db'' := by
  intro wallet row hRow
  rcases hFirst wallet row hRow with ⟨row', hRow', hTier, hVolume⟩
  rcases hSecond wallet row' hRow' with ⟨row'', hRow'', hTier', hVolume'⟩
  exact ⟨row'', hRow'', hTier.trans hTier', hVolume.trans hVolume'⟩

/- The statement leaves this row for this wallet. -/
def Puts (row : ReferralTier) (db db' : TierDb) : Prop :=
  ∀ wallet, db'.referralTier.find? wallet =
    if wallet = row.walletAddress then some row
    else db.referralTier.find? wallet

theorem Puts.rises (hPuts : Puts row db db') (hAbove :
    ∀ stored, db.referralTier.find? row.walletAddress = some stored → stored.tier ≤ row.tier ∧
      stored.cumulativeVolume ≤ row.cumulativeVolume) :
    db.Rises db' := by
  intro wallet stored hStored
  rw [hPuts wallet]
  by_cases hSame : wallet = row.walletAddress
  · subst hSame
    rw [if_pos rfl]
    exact ⟨row, rfl, hAbove stored hStored⟩
  · rw [if_neg hSame]
    exact ⟨stored, hStored, le_rfl, le_rfl⟩

/- What is stored comes from the events. -/
def TierDb.Drawn (column : VolumeColumn) (deliveries : List ReferralTierUpgradeInput)
    (db : TierDb) : Prop :=
  ∀ wallet row, db.referralTier.find? wallet = some row → row.tier ∈ tiersOf deliveries wallet ∧
    row.cumulativeVolume ∈ volumesOf column deliveries wallet

theorem Puts.drawn (hPuts : Puts row db db') (hDrawn : db.Drawn column deliveries)
    (hTier : row.tier ∈ tiersOf deliveries row.walletAddress)
    (hVolume : row.cumulativeVolume ∈ volumesOf column deliveries row.walletAddress) :
    db'.Drawn column deliveries := by
  intro wallet stored hStored
  rw [hPuts wallet] at hStored
  split at hStored
  · rename_i hSame
    cases hStored
    subst hSame
    exact ⟨hTier, hVolume⟩
  · exact hDrawn wallet stored hStored

theorem newTier_mem_tiersOf (hInput : input ∈ deliveries) :
    input.newTier ∈ tiersOf deliveries input.walletAddress := ⟨input, hInput, rfl, rfl⟩

theorem write_mem_volumesOf (hInput : input ∈ deliveries) :
    column.write input.cumulativeVolume ∈ volumesOf column deliveries input.walletAddress :=
  ⟨input, hInput, rfl, rfl⟩

/- A volume of the events is stored again as it is. -/
theorem write_read_of_mem {volume : ℚ} (hVolume : volume ∈ volumesOf column deliveries wallet) :
    column.write (column.read volume) = volume := by
  rcases hVolume with ⟨input, -, -, rfl⟩
  exact column.write_read _

theorem write_nextVolume (hRead : existing.cumulativeVolume ∈ volumesOf column deliveries wallet) :
    column.write (input.nextVolume column existing) = max existing.cumulativeVolume
      (column.write input.cumulativeVolume) := by
  unfold ReferralTierUpgradeInput.nextVolume
  rw [column.write_mono.map_max, write_read_of_mem hRead]

theorem covered_of_not_changes
    (hRead : existing.cumulativeVolume ∈ volumesOf column deliveries wallet)
    (hChanges : ¬ input.Changes column existing) :
    input.newTier ≤ existing.tier ∧ column.write input.cumulativeVolume ≤
      existing.cumulativeVolume := by
  rcases not_or.mp hChanges with ⟨hTier, hVolume⟩
  refine ⟨max_eq_left_iff.mp (not_not.mp hTier), ?_⟩
  have hLe : input.cumulativeVolume ≤ column.read existing.cumulativeVolume :=
    max_eq_left_iff.mp (not_not.mp hVolume)
  calc
    column.write input.cumulativeVolume ≤ column.write (column.read existing.cumulativeVolume) :=
      column.write_mono hLe
    _ = existing.cumulativeVolume := write_read_of_mem hRead

/- What is known of a call: where its row stands. -/
def TierCall.Known (column : VolumeColumn) (deliveries : List ReferralTierUpgradeInput)
    (db : TierDb) (call : TierCall) : Prop :=
  call.input ∈ deliveries ∧
    match call.stage with
    | .updating existing =>
      existing.tier ∈ tiersOf deliveries call.input.walletAddress ∧ existing.cumulativeVolume ∈
        volumesOf column deliveries call.input.walletAddress ∧ ∃ stored,
        db.referralTier.find? call.input.walletAddress = some stored ∧
          existing.tier ≤ stored.tier ∧ existing.cumulativeVolume ≤ stored.cumulativeVolume
    | .done =>
      ∃ stored, db.referralTier.find? call.input.walletAddress = some stored ∧
        call.input.newTier ≤ stored.tier ∧ column.write call.input.cumulativeVolume ≤
          stored.cumulativeVolume
    | _ => True

/- Rising rows leave what is known of the other calls. -/
theorem TierCall.Known.rises (hKnown : call.Known column deliveries db) (hRises : db.Rises db') :
    call.Known column deliveries db' := by
  rcases call with ⟨input, stage⟩
  refine ⟨hKnown.1, ?_⟩
  cases stage with
  | updating existing =>
    rcases hKnown.2 with ⟨hTiers, hVolumes, stored, hStored, hTier, hVolume⟩
    rcases hRises _ stored hStored with ⟨stored', hStored', hTier', hVolume'⟩
    exact ⟨hTiers, hVolumes, stored', hStored', hTier.trans hTier', hVolume.trans hVolume'⟩
  | done =>
    rcases hKnown.2 with ⟨stored, hStored, hTier, hVolume⟩
    rcases hRises _ stored hStored with ⟨stored', hStored', hTier', hVolume'⟩
    exact ⟨stored', hStored', hTier.trans hTier', hVolume.trans hVolume'⟩
  | logging => trivial
  | reading => trivial
  | creating => trivial
  | failed e => trivial

end

-- Runs
----

variable {column : VolumeColumn} {deliveries : List ReferralTierUpgradeInput} {db db' : TierDb}
variable {input : ReferralTierUpgradeInput} {existing stored : ReferralTier} {call next : TierCall}
variable {outcome : Option Outcome} {crew crew' : Crew TierDb TierCall}
variable {moves moves' : List FaultMove}

theorem puts_insert? {referralTier : Table ReferralTier}
    (hInsert : db.referralTier.insert? (input.row column) = some referralTier) :
    Puts (input.row column) db { db with referralTier } := Table.find?_insert? hInsert

theorem puts_update (hStored : db.referralTier.find? input.walletAddress = some stored) :
    Puts (input.advance column existing stored) db (input.update column existing db) := by
  have hKey : stored.walletAddress = input.walletAddress := Table.key_of_find? hStored
  intro wallet
  change _ = if wallet = stored.walletAddress then _ else _
  rw [hKey]
  exact Table.find?_update_stored hStored _ (input.key_advance column existing) wallet

/- An update that is not overtaken raises the stored row. -/
theorem advance_above
    (hRead : existing.cumulativeVolume ∈ volumesOf column deliveries input.walletAddress)
    (hNot : ¬ Overtaken column input existing stored) :
    stored.tier ≤ (input.advance column existing stored).tier ∧ stored.cumulativeVolume ≤
      (input.advance column existing stored).cumulativeVolume := by
  rcases not_or.mp hNot with ⟨hTier, hVolume⟩
  constructor
  · change stored.tier ≤ max existing.tier input.newTier
    rw [le_max_iff]
    by_contra hBoth
    rw [not_or, not_le, not_le] at hBoth
    exact hTier hBoth
  · change stored.cumulativeVolume ≤ column.write (input.nextVolume column existing)
    rw [write_nextVolume hRead, le_max_iff]
    by_contra hBoth
    rw [not_or, not_le, not_le] at hBoth
    exact hVolume hBoth

/- What an update writes comes from the events. -/
theorem advance_drawn (hInput : input ∈ deliveries)
    (hTier : existing.tier ∈ tiersOf deliveries input.walletAddress)
    (hVolume : existing.cumulativeVolume ∈ volumesOf column deliveries input.walletAddress) :
    (input.advance column existing stored).tier ∈ tiersOf deliveries input.walletAddress ∧
      (input.advance column existing stored).cumulativeVolume ∈
        volumesOf column deliveries input.walletAddress := by
  constructor
  · change max existing.tier input.newTier ∈ _
    rcases max_choice existing.tier input.newTier with hMax | hMax
    · rw [hMax]
      exact hTier
    · rw [hMax]
      exact newTier_mem_tiersOf hInput
  · change column.write (input.nextVolume column existing) ∈ _
    rw [write_nextVolume hVolume]
    rcases max_choice existing.cumulativeVolume
      (column.write input.cumulativeVolume) with hMax | hMax
    · rw [hMax]
      exact hVolume
    · rw [hMax]
      exact write_mem_volumesOf hInput

theorem known_afterRead (hDrawn : db.Drawn column deliveries) (hInput : call.input ∈ deliveries) :
    TierCall.Known column deliveries db { call with
        stage :=
          call.afterRead column
            (db.referralTier.find? call.input.walletAddress) } := by
  refine ⟨hInput, ?_⟩
  cases hFind : db.referralTier.find? call.input.walletAddress with
  | none => trivial
  | some existing =>
    rcases hDrawn _ existing hFind with ⟨hTier, hVolume⟩
    simp only [TierCall.afterRead]
    by_cases hChanges : call.input.Changes column existing
    · rw [if_pos hChanges]
      exact ⟨hTier, hVolume, existing, rfl, le_rfl, le_rfl⟩
    · rw [if_neg hChanges]
      exact ⟨existing, rfl, covered_of_not_changes hVolume hChanges⟩

/- A statement that is not overtaken raises the rows, and draws what it writes from the events. -/
theorem execute_rises (hDrawn : db.Drawn column deliveries)
    (hKnown : call.Known column deliveries db) (hAllowed : NotOvertaken column db call outcome)
    (hEffect : takesEffect outcome = true)
    (hExecute : executeTierCall column call db = some (db', next)) :
    db.Rises db' ∧ db'.Drawn column deliveries ∧ next.Known column deliveries db' := by
  rcases call with ⟨input, stage⟩
  have hInput : input ∈ deliveries := hKnown.1
  cases stage with
  | logging =>
    cases hExecute
    exact ⟨.of_eq rfl, hDrawn, hInput, trivial⟩
  | reading =>
    cases hExecute
    exact ⟨.of_eq rfl, hDrawn, known_afterRead hDrawn hInput⟩
  | creating =>
    simp only [executeTierCall] at hExecute
    cases hInsert : db.referralTier.insert? (input.row column) with
    | none =>
      simp only [hInsert] at hExecute
      cases hExecute
      exact ⟨.of_eq rfl, hDrawn, hInput, trivial⟩
    | some referralTier =>
      simp only [hInsert] at hExecute
      cases hExecute
      have hPuts := puts_insert? hInsert
      have hFresh := (Table.insert?_eq_some hInsert).1
      refine ⟨hPuts.rises ?_, ?_, hInput, ?_⟩
      · intro stored hStored
        cases hFresh.symm.trans hStored
      · exact hPuts.drawn hDrawn (newTier_mem_tiersOf hInput) (write_mem_volumesOf hInput)
      · exact ⟨input.row column, (hPuts input.walletAddress).trans (if_pos rfl), le_rfl, le_rfl⟩
  | updating existing =>
    rcases hKnown.2 with ⟨hTiers, hVolumes, stored, hStored, -, -⟩
    have hKey : stored.walletAddress = input.walletAddress := Table.key_of_find? hStored
    have hNot := hAllowed hEffect existing rfl stored hStored
    have hAbove := advance_above hVolumes hNot
    have hComes := @advance_drawn column deliveries input existing stored hInput hTiers hVolumes
    have hPuts := @puts_update column db input existing stored hStored
    simp only [executeTierCall] at hExecute
    rw [hStored] at hExecute
    cases hExecute
    refine ⟨hPuts.rises ?_, ?_, hInput, ?_⟩
    · intro row hRow
      change db.referralTier.find? stored.walletAddress = some row at hRow
      rw [hKey] at hRow
      cases hStored.symm.trans hRow
      exact hAbove
    · refine hPuts.drawn hDrawn ?_ ?_
      · change _ ∈ tiersOf deliveries stored.walletAddress
        rw [hKey]
        exact hComes.1
      · change
          _ ∈ volumesOf column deliveries stored.walletAddress
        rw [hKey]
        exact hComes.2
    · refine ⟨_, (hPuts input.walletAddress).trans (if_pos hKey.symm), ?_, ?_⟩
      · exact le_max_right existing.tier input.newTier
      · change column.write input.cumulativeVolume ≤ column.write (input.nextVolume column existing)
        exact column.write_mono (le_max_right _ _)
  | done => cases hExecute
  | failed e => cases hExecute

theorem TierCall.Known.fail (hKnown : call.Known column deliveries db) :
    call.fail.Known column deliveries db := by
  rcases call with ⟨input, stage⟩
  cases stage with
  | done => exact hKnown
  | failed e => exact hKnown
  | _ => exact ⟨hKnown.1, trivial⟩

/- Rows rise from any state that a run starts in. -/
theorem tierCalls_maintains (base : TierDb) :
    (tierCalls column).Maintains (NotOvertaken column)
      (fun db => base.Rises db ∧ db.Drawn column deliveries)
      (TierCall.Known column deliveries) where
  execute := by
    intro db call outcome db' next hStore hKnown hAllowed hEffect hExecute
    rcases execute_rises hStore.2 hKnown hAllowed hEffect hExecute with ⟨hRises, hDrawn, hNext⟩
    exact ⟨⟨hStore.1.trans hRises, hDrawn⟩, hNext, fun other hOther => hOther.rises hRises⟩
  fail := fun _ _ hKnown => hKnown.fail

theorem drawn_of_run
    (hRun : RunsTo (Crew.attempt (tierCalls column)) (Crew.Admits (NotOvertaken column))
      (.start TierDb.empty (deliveries.map .begin)) moves crew) :
    crew.store.Drawn column deliveries ∧
      crew.All (TierCall.Known column deliveries crew.store) := by
  have hStart : Crew.All (TierCall.Known column deliveries TierDb.empty)
      (.start TierDb.empty (deliveries.map .begin)) := by
    apply Crew.all_start
    intro call hCall
    rcases List.mem_map.mp hCall with ⟨input, hInput, rfl⟩
    exact ⟨hInput, trivial⟩
  have hDrawn : TierDb.empty.Drawn column deliveries := by
    intro wallet row hRow
    cases hRow
  rcases (tierCalls_maintains TierDb.empty).run ⟨.of_eq rfl, hDrawn⟩ hStart hRun with ⟨hStore, hAll⟩
  exact ⟨hStore.2, hAll⟩

/-
  In every run without an overtaken update no tier and no volume
  is ever lowered, and once a call for every event has returned
  the wallets have their maxima.
-/
theorem tiers_rise
    (hRun : RunsTo (Crew.attempt (tierCalls column)) (Crew.Admits (NotOvertaken column))
      (.start TierDb.empty (deliveries.map .begin)) moves crew)
    (hLater : RunsTo (Crew.attempt (tierCalls column))
      (Crew.Admits (NotOvertaken column)) crew moves' crew') :
    crew.store.Rises crew'.store ∧ (Recorded deliveries crew →
      crew.store.ShowsMaxima column deliveries) := by
  rcases drawn_of_run hRun with ⟨hDrawn, hAll⟩
  constructor
  · rcases (tierCalls_maintains crew.store).run ⟨.of_eq rfl, hDrawn⟩ hAll hLater with ⟨hStore, -⟩
    exact hStore.1
  · intro hRecorded
    have hCovered (input : ReferralTierUpgradeInput) (hInput : input ∈ deliveries) :
        ∃ stored, crew.store.referralTier.find? input.walletAddress = some stored ∧
          input.newTier ≤ stored.tier ∧ column.write input.cumulativeVolume ≤
            stored.cumulativeVolume := by
      rcases List.mem_iff_getElem?.mp (hRecorded input hInput) with ⟨i, hCall⟩
      exact (hAll i _ hCall).2
    intro input hInput
    rcases hCovered input hInput with ⟨row, hRow, -, -⟩
    rcases hDrawn _ row hRow with ⟨hTier, hVolume⟩
    refine ⟨row, hRow, ⟨hTier, ?_⟩, hVolume, ?_⟩
    · rintro tier ⟨other, hOther, hWallet, rfl⟩
      rcases hCovered other hOther with ⟨stored, hStored, hLe, -⟩
      rw [hWallet, hRow] at hStored
      cases hStored
      exact hLe
    · rintro volume ⟨other, hOther, hWallet, rfl⟩
      rcases hCovered other hOther with ⟨stored, hStored, -, hLe⟩
      rw [hWallet, hRow] at hStored
      cases hStored
      exact hLe

/- A column of seven decimals, halves rounded up. -/
def gridColumn : VolumeColumn where
  write volume := (⌊volume * 10000000 + 1 / 2⌋ : ℚ) / 10000000
  read := id
  write_mono := by
    intro volume volume' hLe
    have hFloor : ⌊volume * 10000000 + 1 / 2⌋ ≤ ⌊volume' * 10000000 + 1 / 2⌋ :=
      Int.floor_mono (by linarith)
    have hCast : (⌊volume * 10000000 + 1 / 2⌋ : ℚ) ≤
        ⌊volume' * 10000000 + 1 / 2⌋ := by
      exact_mod_cast hFloor
    change _ / _ ≤ _ / _
    linarith
  write_read := by
    intro volume
    generalize ⌊volume * 10000000 + 1 / 2⌋ = units
    have hFloor : ⌊(units : ℚ) / 10000000 * 10000000 + 1 / 2⌋ = units := by
      rw [Int.floor_eq_iff]
      constructor
      · linarith
      · linarith
    simp only [id, hFloor]

def sampleUpgrade (newTier : ℕ) (cumulativeVolume : ℚ) : ReferralTierUpgradeInput where
  walletAddress := "wallet"
  previousTier := newTier - 1
  newTier := newTier
  cumulativeVolume := cumulativeVolume
  txHash := "tx"
  eventIndex := newTier
  ledger := newTier
  occurredAt := newTier

def sampleTier (db : TierDb) : Option (ℕ × ℚ) :=
  (db.referralTier.find? "wallet").map fun row => (row.tier, row.cumulativeVolume)

def sampleStart (deliveries : List ReferralTierUpgradeInput) : Crew TierDb TierCall :=
  .start TierDb.empty (deliveries.map .begin)

/- A late and a repeated event lower nothing. -/
theorem tiers_rise_sample :
    ∃ crew crew', RunsTo (Crew.attempt (tierCalls gridColumn))
      (Crew.Admits (NotOvertaken gridColumn)) (sampleStart
        [sampleUpgrade 2 1500, sampleUpgrade 1 0, sampleUpgrade 2 1500])
      (servedMoves 0 3 ++ servedMoves 1 2) crew ∧ RunsTo (Crew.attempt (tierCalls gridColumn))
      (Crew.Admits (NotOvertaken gridColumn)) crew (servedMoves 2 2) crew' ∧
      crew.store.Rises crew'.store ∧ crew.store.ShowsMaxima gridColumn
        [sampleUpgrade 2 1500, sampleUpgrade 1 0, sampleUpgrade 2 1500] ∧
      sampleTier crew'.store = some (2, 1500) := by
  have hRuns :
      ((runAllowed (Crew.attempt (tierCalls gridColumn)) (Crew.Admits (NotOvertaken gridColumn))
        (sampleStart [sampleUpgrade 2 1500, sampleUpgrade 1 0, sampleUpgrade 2 1500])
        (servedMoves 0 3 ++ servedMoves 1 2)).bind
        fun crew => (runAllowed (Crew.attempt (tierCalls gridColumn))
          (Crew.Admits (NotOvertaken gridColumn)) crew (servedMoves 2 2)).map
          fun crew' => (decide (Recorded [sampleUpgrade 2 1500, sampleUpgrade 1 0,
            sampleUpgrade 2 1500] crew), sampleTier crew'.store)) =
        some (true, some (2, 1500)) := by decide +kernel
  rcases Option.bind_eq_some_iff.mp hRuns with ⟨crew, hFirst, hRest⟩
  rcases Option.map_eq_some_iff.mp hRest with ⟨crew', hSecond, hSeen⟩
  rcases Prod.mk.inj hSeen with ⟨hRecorded, hTier⟩
  have hRun := runsTo_of_runAllowed hFirst
  have hLater := runsTo_of_runAllowed hSecond
  rcases tiers_rise hRun hLater with ⟨hRises, hMaxima⟩
  exact ⟨crew, crew', hRun, hLater, hRises, hMaxima (of_decide_eq_true hRecorded), hTier⟩

/-
  Two upgrades read the first tier; the lower one is written last
  and takes the tier and the volume of the higher one back.
-/
theorem overtaken_upgrade_lowers :
    ∃ crew crew', RunsTo (Crew.attempt (tierCalls gridColumn)) (fun _ _ => True) (sampleStart
      [sampleUpgrade 1 0, sampleUpgrade 2 1500, sampleUpgrade 3 20000])
      (servedMoves 0 3 ++ servedMoves 1 2 ++ servedMoves 2 3) crew ∧
      RunsTo (Crew.attempt (tierCalls gridColumn)) (fun _ _ => True) crew (servedMoves 1 1) crew' ∧
      ¬ crew.store.Rises crew'.store ∧ Recorded [sampleUpgrade 1 0, sampleUpgrade 2 1500,
        sampleUpgrade 3 20000] crew' ∧ ¬ crew'.store.ShowsMaxima gridColumn
        [sampleUpgrade 1 0, sampleUpgrade 2 1500, sampleUpgrade 3 20000] := by
  have hRuns : ((runLabels (Crew.attempt (tierCalls gridColumn)) (sampleStart
      [sampleUpgrade 1 0, sampleUpgrade 2 1500, sampleUpgrade 3 20000])
      (servedMoves 0 3 ++ servedMoves 1 2 ++ servedMoves 2 3)).bind
      fun crew => (runLabels (Crew.attempt (tierCalls gridColumn)) crew (servedMoves 1 1)).map
        fun crew' => (sampleTier crew.store, sampleTier crew'.store, decide (Recorded
          [sampleUpgrade 1 0, sampleUpgrade 2 1500, sampleUpgrade 3 20000] crew'))) =
      some (some (3, 20000), some (2, 1500), true) := by decide +kernel
  rcases Option.bind_eq_some_iff.mp hRuns with ⟨crew, hFirst, hRest⟩
  rcases Option.map_eq_some_iff.mp hRest with ⟨crew', hSecond, hSeen⟩
  rcases Prod.mk.inj hSeen with ⟨hBefore, hAfter⟩
  rcases Prod.mk.inj hAfter with ⟨hTier, hRecorded⟩
  rcases Option.map_eq_some_iff.mp hBefore with ⟨row, hRow, hHigh⟩
  rcases Option.map_eq_some_iff.mp hTier with ⟨row', hRow', hLow⟩
  have hThree : row.tier = 3 := congrArg Prod.fst hHigh
  have hTwo : row'.tier = 2 := congrArg Prod.fst hLow
  refine ⟨crew, crew', runsTo_of_runLabels hFirst, runsTo_of_runLabels hSecond, ?_,
    of_decide_eq_true hRecorded, ?_⟩
  · intro hRises
    rcases hRises "wallet" row hRow with ⟨raised, hRaised, hLe, -⟩
    cases hRow'.symm.trans hRaised
    omega
  · intro hMaxima
    rcases hMaxima (sampleUpgrade 3 20000) (List.mem_of_getElem? (i := 2) rfl) with
      ⟨shown, hShown, ⟨-, hTop⟩, -⟩
    cases hRow'.symm.trans hShown
    have hLe : 3 ≤ row'.tier :=
      hTop ⟨sampleUpgrade 3 20000, List.mem_of_getElem? (i := 2) rfl, rfl, rfl⟩
    omega

end Referrals

end AccessLayer
