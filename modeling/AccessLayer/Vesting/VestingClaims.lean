import AccessLayer.Keys.ProposalVotes
import AccessLayer.Library.Runs
import Mathlib.Tactic.Linarith

/-
  Vesting schedules and the history of their claims
  (`src/modules/vesting/vesting.service.ts`,
  `prisma/schema/vesting.prisma`).

  Events are handled one after another, and no statement fails.
  An amount is the number that its text stands for.  Caches are
  left out.

  Main result: `claims_accounted`
-/

-- Schedules
----

namespace AccessLayer

namespace Vesting

open Transactional Keys

section

def LEDGER_SECONDS : ℤ := 5

/- A total that is not positive is not stored. -/
structure VestingSchedule where
  id : String
  keyId : String
  wallet : String
  totalKeys : ℚ
  startLedger : ℤ
  endLedger : ℤ
  claimedKeys : ℚ
  positive : 0 < totalKeys
  deriving DecidableEq

instance : Keyed VestingSchedule (String × String) where
  key row := (row.keyId, row.wallet)

structure ReportedSchedule where
  keyId : String
  wallet : String
  totalKeys : ℤ
  startLedger : ℤ
  endLedger : ℤ
  claimedKeys : ℤ
  vestedAmount : ℤ
  claimableAmount : ℤ
  cliff : ℤ
  cliffLedger : ℤ
  duration : ℤ
  durationLedger : ℤ
  endDate : Option ℤ

/- The time in milliseconds. -/
def ledgerDurationToDate (ledgerDelta anchorLedger : ℤ) : Option ℤ :=
  if ledgerDelta < 0 then none
  else
    some ((anchorLedger * LEDGER_SECONDS + ledgerDelta * LEDGER_SECONDS) * 1000)

def calculateVestedAmount (total startLedger endLedger currentLedger : ℤ) : ℤ :=
  if endLedger ≤ currentLedger then total
  else if currentLedger ≤ startLedger then 0
  else
    let elapsed := currentLedger - startLedger
    let duration := endLedger - startLedger
    if duration ≤ 0 then total
    else (total * elapsed).tdiv duration

/- `none` where a column does not hold a whole number. -/
def toVestingSchedule (schedule : VestingSchedule)
    (currentLedger : ℤ) : Option ReportedSchedule := do
  let total ← integerOf schedule.totalKeys
  let claimed ← integerOf schedule.claimedKeys
  let vested :=
    calculateVestedAmount total schedule.startLedger schedule.endLedger currentLedger
  let claimable := if claimed < vested then vested - claimed else 0
  let durationLedger := max 0 (schedule.endLedger - schedule.startLedger)
  some
    { keyId := schedule.keyId
      wallet := schedule.wallet
      totalKeys := total
      startLedger := schedule.startLedger
      endLedger := schedule.endLedger
      claimedKeys := claimed
      vestedAmount := vested
      claimableAmount := claimable
      cliff := schedule.startLedger
      cliffLedger := schedule.startLedger
      duration := durationLedger
      durationLedger
      endDate :=
        ledgerDurationToDate durationLedger
          schedule.startLedger }

-- Claims
----

structure VestingClaimHistory where
  vestingId : String
  keyId : String
  wallet : String
  claimedAmount : ℚ
  txHash : Option String
  ledger : Option ℤ

structure VestingClaimEvent where
  eventType : Option String
  keyId : String
  wallet : String
  claimedAmount : ℚ
  txHash : Option String
  ledger : Option ℤ

structure VestingDb where
  vestingSchedule : Table VestingSchedule
  vestingClaimHistory : List VestingClaimHistory

/- The empty text is a missing type. -/
def VestingClaimEvent.isClaim (event : VestingClaimEvent) : Bool :=
  match event.eventType with
  | none => true
  | some eventType => eventType = "" || eventType = "VestingClaimed"

def VestingClaimEvent.historyRow (event : VestingClaimEvent)
    (schedule : VestingSchedule) : VestingClaimHistory where
  vestingId := schedule.id
  keyId := schedule.keyId
  wallet := schedule.wallet
  claimedAmount := event.claimedAmount
  txHash := event.txHash
  ledger := event.ledger

def processVestingClaimEvent (db : VestingDb) (event : VestingClaimEvent) : VestingDb :=
  if event.isClaim then
    match db.vestingSchedule.find? (event.keyId, event.wallet) with
    | none => db
    | some schedule =>
      { db with
        vestingClaimHistory := db.vestingClaimHistory ++ [event.historyRow schedule] }
  else db

/- The recorded claims of a schedule, the oldest first. -/
def VestingDb.claimsOf (db : VestingDb) (schedule : VestingSchedule) : List VestingClaimHistory :=
  db.vestingClaimHistory.filter fun row => (row.keyId, row.wallet) = key schedule

/-
  A claim that is recorded again has the transaction hash of a
  row before it; one without a hash is a claim of its own.
-/
def IsRepeated (claims : List VestingClaimHistory) (txHash : Option String) : Prop :=
  ∃ hash ∈ txHash, ∃ row ∈ claims, row.txHash = some hash

instance (claims : List VestingClaimHistory) (txHash : Option String) :
    Decidable (IsRepeated claims txHash) := by
  unfold IsRepeated
  infer_instance

/- The rows that do not repeat one before them. -/
def distinctClaims (claims : List VestingClaimHistory) : List VestingClaimHistory :=
  claims.foldl (fun distinct row =>
    if IsRepeated distinct row.txHash then distinct
    else distinct ++ [row])
    []

def claimedSum (claims : List VestingClaimHistory) : ℚ :=
  ((distinctClaims claims).map fun row => row.claimedAmount).sum

def lastLedger (claims : List VestingClaimHistory) : Option ℤ :=
  claims.getLast?.bind fun row => row.ledger

def VestingSchedule.vestedAt (schedule : VestingSchedule) (ledger : ℤ) : Option ℤ :=
  (integerOf schedule.totalKeys).map fun total =>
    calculateVestedAmount total schedule.startLedger schedule.endLedger ledger

/-
  The counter is the sum of the distinct claims, which had vested
  at the last of them; what is reported as claimable since then
  is what has vested and was not claimed.
-/
structure Accounted (db : VestingDb) (schedule : VestingSchedule) : Prop where
  claimed : schedule.claimedKeys = claimedSum (db.claimsOf schedule)
  vested : ∀ ledger ∈ lastLedger (db.claimsOf schedule), ∀ vested ∈ schedule.vestedAt ledger,
    schedule.claimedKeys ≤ vested
  claimable :
    ∀ currentLedger, (db.claimsOf schedule = [] ∨ ∃ ledger ∈ lastLedger (db.claimsOf schedule),
      ledger ≤ currentLedger) → ∀ reported ∈ toVestingSchedule schedule currentLedger,
      (reported.claimableAmount : ℚ) = reported.vestedAmount - schedule.claimedKeys

def AllAccounted (db : VestingDb) : Prop :=
  ∀ schedule ∈ db.vestingSchedule.rows, Accounted db schedule

/-
  An event that is recorded repeats a claim or claims nothing, and
  the counter had vested at its ledger.
-/
def ClaimsNothing (db : VestingDb) (event : VestingClaimEvent) : Prop :=
  event.isClaim = true → ∀ schedule ∈ db.vestingSchedule.find? (event.keyId, event.wallet),
    (IsRepeated (db.claimsOf schedule) event.txHash ∨ event.claimedAmount = 0) ∧
      ∀ ledger ∈ event.ledger, ∀ vested ∈ schedule.vestedAt ledger, schedule.claimedKeys ≤ vested

instance (db : VestingDb) (event : VestingClaimEvent) : Decidable (ClaimsNothing db event) := by
  unfold ClaimsNothing
  infer_instance

-- Vested Amounts
----

variable {total startLedger endLedger : ℤ} {ledger : ℤ}

theorem vested_between (hStart : startLedger < ledger) (hEnd : ledger < endLedger) :
    calculateVestedAmount total startLedger endLedger ledger = (total * (ledger - startLedger)).tdiv
      (endLedger - startLedger) := by
  unfold calculateVestedAmount
  rw [if_neg (not_le.mpr hEnd), if_neg (not_le.mpr hStart)]
  exact if_neg (by omega)

theorem share_bounds (hTotal : 0 ≤ total) (hStart : startLedger < ledger)
    (hEnd : ledger < endLedger) :
    0 ≤ (total * (ledger - startLedger)).tdiv (endLedger - startLedger) ∧
      (total * (ledger - startLedger)).tdiv (endLedger - startLedger) ≤ total := by
  have hProduct : 0 ≤ total * (ledger - startLedger) := mul_nonneg hTotal (by omega)
  rw [Int.tdiv_eq_ediv_of_nonneg hProduct]
  refine ⟨Int.ediv_nonneg hProduct (by omega), Int.ediv_le_of_le_mul (by omega) ?_⟩
  exact mul_le_mul_of_nonneg_left (by omega) hTotal

theorem calculateVestedAmount_nonneg (hTotal : 0 ≤ total) (ledger : ℤ) :
    0 ≤ calculateVestedAmount total startLedger endLedger ledger := by
  rcases le_or_gt endLedger ledger with hEnd | hEnd
  · unfold calculateVestedAmount
    rw [if_pos hEnd]
    exact hTotal
  · rcases le_or_gt ledger startLedger with hStart | hStart
    · unfold calculateVestedAmount
      rw [if_neg (not_le.mpr hEnd), if_pos hStart]
    · rw [vested_between hStart hEnd]
      exact (share_bounds hTotal hStart hEnd).1

theorem calculateVestedAmount_mono (hTotal : 0 ≤ total) {ledger ledger' : ℤ}
    (hLe : ledger ≤ ledger') :
    calculateVestedAmount total startLedger endLedger ledger ≤
      calculateVestedAmount total startLedger endLedger ledger' := by
  rcases le_or_gt ledger startLedger with hStart | hStart
  · rcases le_or_gt endLedger ledger with hEnd | hEnd
    · unfold calculateVestedAmount
      rw [if_pos hEnd, if_pos (hEnd.trans hLe)]
    · have hZero : calculateVestedAmount total startLedger endLedger
          ledger = 0 := by
        unfold calculateVestedAmount
        rw [if_neg (not_le.mpr hEnd), if_pos hStart]
      rw [hZero]
      exact calculateVestedAmount_nonneg hTotal ledger'
  · rcases le_or_gt endLedger ledger' with hEnd | hEnd
    · have hAll : calculateVestedAmount total startLedger endLedger
          ledger' = total := by
        unfold calculateVestedAmount
        rw [if_pos hEnd]
      rw [hAll]
      rcases le_or_gt endLedger ledger with hBefore | hBefore
      · unfold calculateVestedAmount
        rw [if_pos hBefore]
      · rw [vested_between hStart hBefore]
        exact (share_bounds hTotal hStart hBefore).2
    · rw [vested_between hStart (by omega), vested_between (by omega) hEnd]
      have hProduct : 0 ≤ total * (ledger - startLedger) := mul_nonneg hTotal (by omega)
      have hProduct' : 0 ≤ total * (ledger' - startLedger) := mul_nonneg hTotal (by omega)
      rw [Int.tdiv_eq_ediv_of_nonneg hProduct, Int.tdiv_eq_ediv_of_nonneg hProduct']
      apply Int.ediv_le_ediv (by omega)
      exact mul_le_mul_of_nonneg_left (by omega) hTotal

variable {schedule : VestingSchedule} {currentLedger : ℤ}

theorem toVestingSchedule_eq_some {reported : ReportedSchedule}
    (hReported : toVestingSchedule schedule currentLedger = some reported) :
    ∃ total, integerOf schedule.totalKeys = some total ∧ 0 ≤ total ∧
      (reported.claimedKeys : ℚ) = schedule.claimedKeys ∧ reported.vestedAmount =
        calculateVestedAmount total schedule.startLedger schedule.endLedger currentLedger ∧
      reported.claimableAmount = max 0 (reported.vestedAmount - reported.claimedKeys) := by
  unfold toVestingSchedule at hReported
  simp only [Option.bind_eq_bind, Option.bind_eq_some_iff] at hReported
  rcases hReported with ⟨total, hTotal, claimed, hClaimed, hSame⟩
  cases hSame
  refine ⟨total, hTotal, ?_, cast_integerOf hClaimed, rfl, ?_⟩
  · have hCast : (0 : ℚ) < total := by
      rw [cast_integerOf hTotal]
      exact schedule.positive
    exact_mod_cast hCast.le
  · simp only
    split
    · rw [max_eq_right (by omega)]
    · rw [max_eq_left (by omega)]

/- Once the counter had vested, the rest of it is claimable. -/
theorem claimable_of_vested
    (hVested : ∀ vested ∈ schedule.vestedAt ledger, schedule.claimedKeys ≤ vested)
    (hLater : ledger ≤ currentLedger) {reported : ReportedSchedule}
    (hReported : reported ∈ toVestingSchedule schedule currentLedger) :
    (reported.claimableAmount : ℚ) = reported.vestedAmount - schedule.claimedKeys := by
  rcases toVestingSchedule_eq_some hReported with
    ⟨total, hTotal, hNonneg, hClaimed, hAmount, hClaimable⟩
  have hThen : schedule.claimedKeys ≤
      calculateVestedAmount total schedule.startLedger
        schedule.endLedger ledger := by
    apply hVested
    unfold VestingSchedule.vestedAt
    rw [hTotal]
    rfl
  have hMono := @calculateVestedAmount_mono total schedule.startLedger
      schedule.endLedger hNonneg ledger currentLedger hLater
  have hNow : (reported.claimedKeys : ℚ) ≤ reported.vestedAmount := by
    rw [hClaimed, hAmount]
    exact hThen.trans (by exact_mod_cast hMono)
  have hNow' : reported.claimedKeys ≤ reported.vestedAmount := by exact_mod_cast hNow
  rw [hClaimable, max_eq_right (by omega), ← hClaimed]
  push_cast
  ring

end

-- Sums of Claims
----

variable {claims : List VestingClaimHistory} {row : VestingClaimHistory}

theorem distinctClaims_append :
    distinctClaims (claims ++ [row]) =
      if IsRepeated (distinctClaims claims) row.txHash then
        distinctClaims claims
      else distinctClaims claims ++ [row] := by
  unfold distinctClaims
  rw [List.foldl_append]
  rfl

theorem isRepeated_distinctClaims (claims : List VestingClaimHistory) (txHash : Option String) :
    IsRepeated (distinctClaims claims) txHash ↔ IsRepeated claims txHash := by
  have hHashes : ∀ hash : String, (∃ row ∈ distinctClaims claims, row.txHash = some hash) ↔
      ∃ row ∈ claims, row.txHash = some hash := by
    intro hash
    induction claims using List.reverseRecOn with
    | nil => simp [distinctClaims]
    | append_singleton claims row ih =>
      rw [distinctClaims_append]
      split
      · rename_i hRepeated
        rw [ih]
        simp only [List.mem_append, List.mem_singleton]
        constructor
        · rintro ⟨old, hOld, hHash⟩
          exact ⟨old, Or.inl hOld, hHash⟩
        · rintro ⟨old, hOld | rfl, hHash⟩
          · exact ⟨old, hOld, hHash⟩
          · rcases hRepeated with ⟨same, hSame, hBefore⟩
            rw [hHash] at hSame
            cases hSame
            exact ih.mp hBefore
      · simp only [List.mem_append, List.mem_singleton, or_and_right, exists_or, ih]
  unfold IsRepeated
  simp only [hHashes]

theorem claimedSum_append :
    claimedSum (claims ++ [row]) = claimedSum claims +
      if IsRepeated claims row.txHash then 0
      else row.claimedAmount := by
  unfold claimedSum
  rw [distinctClaims_append]
  simp only [isRepeated_distinctClaims]
  split
  · rw [add_zero]
  · simp

-- Runs
----

variable {db db' : VestingDb} {event : VestingClaimEvent} {schedule : VestingSchedule}

def recordedFor (db : VestingDb) (event : VestingClaimEvent) : Option VestingSchedule :=
  if event.isClaim then
    db.vestingSchedule.find? (event.keyId, event.wallet)
  else none

/- An event adds a row to the schedule that it names. -/
theorem processVestingClaimEvent_eq (db : VestingDb) (event : VestingClaimEvent) :
    processVestingClaimEvent db event = { db with
        vestingClaimHistory :=
          db.vestingClaimHistory ++ (recordedFor db event).toList.map event.historyRow } := by
  unfold processVestingClaimEvent recordedFor
  by_cases hClaim : event.isClaim = true
  · rw [if_pos hClaim, if_pos hClaim]
    cases db.vestingSchedule.find? (event.keyId, event.wallet) with
    | none => simp
    | some schedule => rfl
  · rw [if_neg hClaim, if_neg hClaim]
    simp

theorem claimsOf_recorded (hRecorded : recordedFor db event = some schedule) :
    (processVestingClaimEvent db event).claimsOf schedule =
      db.claimsOf schedule ++ [event.historyRow schedule] := by
  rw [processVestingClaimEvent_eq, hRecorded]
  unfold VestingDb.claimsOf
  simp [VestingClaimEvent.historyRow, Keyed.key]

theorem claimsOf_other (hStored : schedule ∈ db.vestingSchedule.rows)
    (hOther : recordedFor db event ≠ some schedule) :
    (processVestingClaimEvent db event).claimsOf schedule = db.claimsOf schedule := by
  rw [processVestingClaimEvent_eq]
  cases hRecorded : recordedFor db event with
  | none => simp [VestingDb.claimsOf]
  | some named =>
    have hFound : db.vestingSchedule.find? (event.keyId, event.wallet) =
        some named := by
      unfold recordedFor at hRecorded
      split at hRecorded
      · exact hRecorded
      · cases hRecorded
    have hApart : key named ≠ key schedule := by
      intro hSame
      apply hOther
      rw [hRecorded, ← Table.find?_of_mem hStored, ← hSame]
      exact (Table.find?_of_mem (Table.mem_of_find? hFound)).symm
    have hOut :
        ¬ ((event.historyRow named).keyId, (event.historyRow named).wallet) = key schedule :=
      hApart
    unfold VestingDb.claimsOf
    rw [List.filter_append]
    simp only [Option.toList_some, List.map_cons, List.map_nil]
    rw [List.filter_cons_of_neg (by simpa using hOut), List.filter_nil, List.append_nil]

theorem Accounted.congr (hAccounted : Accounted db schedule)
    (hClaims : db'.claimsOf schedule = db.claimsOf schedule) :
    Accounted db' schedule where
  claimed := by
    rw [hClaims]
    exact hAccounted.claimed
  vested := by
    rw [hClaims]
    exact hAccounted.vested
  claimable := by
    rw [hClaims]
    exact hAccounted.claimable

theorem accounted_recorded (hAccounted : Accounted db schedule)
    (hRecorded : recordedFor db event = some schedule) :
    Accounted (processVestingClaimEvent db event) schedule ↔
      (IsRepeated (db.claimsOf schedule) event.txHash ∨ event.claimedAmount = 0) ∧
        ∀ ledger ∈ event.ledger, ∀ vested ∈ schedule.vestedAt ledger,
          schedule.claimedKeys ≤ vested := by
  have hClaims := claimsOf_recorded hRecorded
  have hLast : lastLedger (db.claimsOf schedule ++ [event.historyRow schedule]) =
      event.ledger := by
    unfold lastLedger
    rw [List.getLast?_concat]
    rfl
  have hSum :
      schedule.claimedKeys = claimedSum (db.claimsOf schedule ++ [event.historyRow schedule]) ↔
        IsRepeated (db.claimsOf schedule) event.txHash ∨ event.claimedAmount = 0 := by
    rw [claimedSum_append, ← hAccounted.claimed]
    simp only [VestingClaimEvent.historyRow]
    by_cases hRepeated : IsRepeated (db.claimsOf schedule) event.txHash
    · simp [hRepeated]
    · simp [hRepeated]
  constructor
  · intro hAfter
    have hClaimed := hAfter.claimed
    have hVested := hAfter.vested
    rw [hClaims] at hClaimed hVested
    rw [hLast] at hVested
    exact ⟨hSum.mp hClaimed, hVested⟩
  · rintro ⟨hNothing, hVested⟩
    refine ⟨?_, ?_, ?_⟩
    · rw [hClaims]
      exact hSum.mpr hNothing
    · rw [hClaims, hLast]
      exact hVested
    · rw [hClaims, hLast]
      rintro currentLedger (hNone | ⟨ledger, hLedger, hLater⟩)
      · simp at hNone
      · intro reported hReported
        exact claimable_of_vested (hVested ledger hLedger) hLater hReported

theorem allAccounted_step (hAccounted : AllAccounted db) (event : VestingClaimEvent) :
    AllAccounted (processVestingClaimEvent db event) ↔ ClaimsNothing db event := by
  have hRows : (processVestingClaimEvent db event).vestingSchedule =
      db.vestingSchedule := by
    rw [processVestingClaimEvent_eq]
  have hNothing : ClaimsNothing db event ↔ ∀ schedule ∈ recordedFor db event,
      (IsRepeated (db.claimsOf schedule) event.txHash ∨ event.claimedAmount = 0) ∧
        ∀ ledger ∈ event.ledger, ∀ vested ∈ schedule.vestedAt ledger,
          schedule.claimedKeys ≤ vested := by
    unfold ClaimsNothing recordedFor
    by_cases hClaim : event.isClaim = true
    · simp [hClaim]
    · simp [hClaim]
  rw [hNothing]
  unfold AllAccounted
  rw [hRows]
  constructor
  · intro hAfter schedule hRecorded
    have hStored : schedule ∈ db.vestingSchedule.rows := by
      unfold recordedFor at hRecorded
      split at hRecorded
      · exact Table.mem_of_find? hRecorded
      · cases hRecorded
    exact (accounted_recorded (hAccounted schedule hStored) hRecorded).mp (hAfter schedule hStored)
  · intro hKept schedule hStored
    by_cases hRecorded : recordedFor db event = some schedule
    · exact (accounted_recorded (hAccounted schedule hStored)
        hRecorded).mpr (hKept schedule hRecorded)
    · exact (hAccounted schedule hStored).congr (claimsOf_other hStored hRecorded)

def handleClaim (db : VestingDb) (event : VestingClaimEvent) : Option VestingDb :=
  some (processVestingClaimEvent db event)

/-
  In every run whose events claim nothing the accounts hold in
  each state, and the first other event breaks them.
-/
theorem claims_accounted {start : VestingDb} {events : List VestingClaimEvent}
    (hStart : AllAccounted start) (hRun : RunsTo handleClaim ClaimsNothing start events db) :
    AllAccounted db ∧ ∀ event, ClaimsNothing db event ↔
      AllAccounted (processVestingClaimEvent db event) := by
  have hAccounted : AllAccounted db := by
    apply RunsTo.invariant hStart _ hRun
    intro db event db' hAccounted hNothing hStep
    cases hStep
    exact (allAccounted_step hAccounted event).mpr hNothing
  exact ⟨hAccounted, fun event => (allAccounted_step hAccounted event).symm⟩

/- A schedule of a hundred keys over a hundred ledgers. -/
def newSchedule : VestingSchedule where
  id := "1"
  keyId := "K"
  wallet := "W"
  totalKeys := 100
  startLedger := 0
  endLedger := 100
  claimedKeys := 0
  positive := by norm_num

def newVesting : VestingDb where
  vestingSchedule := ⟨[newSchedule], List.nodup_singleton _⟩
  vestingClaimHistory := []

def claimEvent (claimedAmount : ℚ) : VestingClaimEvent where
  eventType := some "VestingClaimed"
  keyId := "K"
  wallet := "W"
  claimedAmount := claimedAmount
  txHash := some "tx"
  ledger := some 50

def claimedSchedule : VestingSchedule := { newSchedule with claimedKeys := 25 }

/- A claim of a quarter is recorded, with the counter in step. -/
def claimedVesting : VestingDb where
  vestingSchedule := ⟨[claimedSchedule], List.nodup_singleton _⟩
  vestingClaimHistory := [(claimEvent 25).historyRow claimedSchedule]

theorem allAccounted_claimedVesting : AllAccounted claimedVesting := by
  intro schedule hMem
  cases List.mem_singleton.mp hMem
  have hVested : ∀ vested ∈ claimedSchedule.vestedAt 50, claimedSchedule.claimedKeys ≤ vested := by
    decide +kernel
  refine ⟨by decide +kernel, by decide +kernel, ?_⟩
  rintro currentLedger (hNone | ⟨ledger, hLedger, hLater⟩) reported hReported
  · exact absurd hNone (by decide)
  · cases hLedger
    exact claimable_of_vested hVested hLater hReported

/- The claim is delivered once more, and then one of no keys. -/
theorem claims_accounted_sample :
    ∃ db, RunsTo handleClaim ClaimsNothing claimedVesting [claimEvent 25] db ∧
      (db.claimsOf claimedSchedule).length = 2 ∧ AllAccounted db ∧
      AllAccounted (processVestingClaimEvent db { claimEvent 0 with txHash := some "later" }) := by
  have hRun : RunsTo handleClaim ClaimsNothing claimedVesting [claimEvent 25] _ :=
    RunsTo.start.step (by decide +kernel) rfl
  have hAccounted := claims_accounted allAccounted_claimedVesting hRun
  exact ⟨_, hRun, by decide, hAccounted.1, (hAccounted.2 _).mp (by decide +kernel)⟩

/- A claim is recorded, and the counter stays at zero. -/
theorem claim_not_accounted :
    ¬ AllAccounted (processVestingClaimEvent newVesting (claimEvent 25)) := by
  intro hAccounted
  have hClaimed := (hAccounted newSchedule List.mem_cons_self).claimed
  exact absurd hClaimed (by decide +kernel)

end Vesting

end AccessLayer
