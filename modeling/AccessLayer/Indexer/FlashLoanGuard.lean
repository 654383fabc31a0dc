import AccessLayer.Indexer.EventFields
import AccessLayer.Library.Attempts
import AccessLayer.Library.Machines
import Mathlib

/-
  Violations of the flash loan guard
  (`src/modules/indexer/flash-loan-guard-indexer.service.ts`,
  `prisma/schema/flash-loan-guard.prisma`).

  Times are in milliseconds; the clock is read once for an event
  and once for a pass of the cleanup.  How `Date` reads a text
  and the order in which the database scans a table are left
  open.  Logs of the process are left out.

  Main result: `crossings_noticed`
-/

-- Tables
----

namespace AccessLayer

namespace Indexer

open Transactional Program

section

structure FlashLoanViolation where
  walletAddress : String
  keyId : Option String
  ledger : ℤ
  txHash : String
  eventIndex : Nat
  occurredAt : ℤ
  clearedAt : Option ℤ

instance : Keyed FlashLoanViolation (String × Nat) where
  key row := (row.txHash, row.eventIndex)

structure FlashLoanGuardStatus where
  walletAddress : String
  violationCount : Nat
  lastViolationAt : Option ℤ
  alertedAt : Option ℤ
  alertCount : Nat
  lastAlertedViolationCount : Nat
  autoSuspended : Bool
  suspendedAt : Option ℤ
  suspensionExpiresAt : Option ℤ
  liftedAt : Option ℤ
  liftedBy : Option String

instance : Keyed FlashLoanGuardStatus String where
  key row := row.walletAddress

inductive FlashLoanAuditDetails where
  | alert (violationCount threshold cooldownHours : Nat) (autoSuspended : Bool)
  | suspended (violationCount threshold : Nat) (suspendedAt : ℤ) (suspensionExpiresAt : Option ℤ)
  | lifted (liftedAt : ℤ) (liftedBy : String)

structure FlashLoanAudit where
  actor : String
  action : String
  targetId : String
  details : FlashLoanAuditDetails

structure FlashLoanDb where
  flashLoanViolation : Table FlashLoanViolation
  flashLoanGuardStatus : Table FlashLoanGuardStatus
  auditEvent : List FlashLoanAudit
  auditLog : List FlashLoanAudit

def FlashLoanDb.empty : FlashLoanDb where
  flashLoanViolation := .empty
  flashLoanGuardStatus := .empty
  auditEvent := []
  auditLog := []

abbrev FlashLoanM := Program FlashLoanDb IndexerError

/- The configuration, and what is taken from elsewhere. -/
structure FlashLoanEnv where
  FLASH_LOAN_VIOLATION_THRESHOLD : Nat
  FLASH_LOAN_AUTO_SUSPEND_ENABLED : Bool
  FLASH_LOAN_VIOLATION_COOLDOWN_HOURS : Nat
  FLASH_LOAN_SUSPENSION_DURATION_HOURS : Nat
  dateOf : String → Option ℤ
  scan : List FlashLoanViolation → List FlashLoanViolation
  threshold_pos : 0 < FLASH_LOAN_VIOLATION_THRESHOLD
  scan_perm : ∀ rows, (scan rows).Perm rows

inductive FlashLoanTime where
  | date (value : ℤ)
  | text (value : String)

structure FlashLoanFields where
  walletAddress : Option String
  keyId : Option String
  occurredAt : Option FlashLoanTime

abbrev FlashLoanGuardTriggeredEvent := PipelineEvent FlashLoanFields

def flashLoanGuardEventType : String := "FLASH_LOAN_GUARD_TRIGGERED"

def cleanupBatchSize : Nat := 5000

def millisecondsPerHour : ℤ := 60 * 60 * 1000

-- Violations
----

variable (env : FlashLoanEnv)

def toEventTimestamp (now : ℤ) : Option FlashLoanTime → ℤ
  | some (.date value) => value
  | some (.text value) => (env.dateOf value).getD now
  | none => now

/- An event that misses a required field is skipped. -/
def violationOf (now : ℤ) (event : FlashLoanGuardTriggeredEvent) : Option FlashLoanViolation := do
  let walletAddress ← present event.payload.walletAddress
  let ledger ← event.ledger
  let txHash ← present (some event.txHash)
  some {
    walletAddress
    keyId := event.payload.keyId
    ledger
    txHash
    eventIndex := event.eventIndex
    occurredAt := toEventTimestamp env now event.payload.occurredAt
    clearedAt := none }

def createViolation (violation : FlashLoanViolation)
    (db : FlashLoanDb) : Except IndexerError (Unit × FlashLoanDb) :=
  match db.flashLoanViolation.insert? violation with
  | none => .error .uniqueViolation
  | some flashLoanViolation => .ok ((), { db with flashLoanViolation })

/- Answers whether the violation was new. -/
def recordFlashLoanViolation (violation : FlashLoanViolation) : FlashLoanM Bool :=
  createOnce .database .uniqueViolation (createViolation violation)

def getCooldownCutoff (now : ℤ) : ℤ :=
  now - env.FLASH_LOAN_VIOLATION_COOLDOWN_HOURS * millisecondsPerHour

def buildSuspensionExpiry (now : ℤ) : Option ℤ :=
  if env.FLASH_LOAN_SUSPENSION_DURATION_HOURS = 0 then none
  else
    some (now + env.FLASH_LOAN_SUSPENSION_DURATION_HOURS * millisecondsPerHour)

/- Uncleared violations of a wallet since some time. -/
def countViolations (walletAddress : String) (cutoff : ℤ) (db : FlashLoanDb) : Nat :=
  db.flashLoanViolation.rows.countP fun row =>
    row.walletAddress = walletAddress ∧ row.clearedAt = none ∧ cutoff ≤ row.occurredAt

-- The Threshold
----

def isSuspensionActive (suspendedAt suspensionExpiresAt : Option ℤ) (now : ℤ) : Bool :=
  suspendedAt.isSome ∧ ∀ expiry ∈ suspensionExpiresAt, now < expiry

/- What an evaluation finds before it writes. -/
structure ThresholdReading where
  walletAddress : String
  occurredAt : ℤ
  now : ℤ
  violationCount : Nat
  existing : Option FlashLoanGuardStatus

namespace ThresholdReading

variable (reading : ThresholdReading)

def breached : Bool := env.FLASH_LOAN_VIOLATION_THRESHOLD ≤ reading.violationCount

def lastAlerted : Nat := reading.existing.elim 0 FlashLoanGuardStatus.lastAlertedViolationCount

def shouldAlert : Bool :=
  reading.breached env ∧ 0 < reading.violationCount ∧ reading.lastAlerted < reading.violationCount

def shouldSuspend : Bool := reading.breached env && env.FLASH_LOAN_AUTO_SUSPEND_ENABLED

def suspensionActive : Bool :=
  isSuspensionActive (reading.existing.bind FlashLoanGuardStatus.suspendedAt) (reading.existing.bind
    FlashLoanGuardStatus.suspensionExpiresAt) reading.now

def create : FlashLoanGuardStatus where
  walletAddress := reading.walletAddress
  violationCount := reading.violationCount
  lastViolationAt := some reading.occurredAt
  alertedAt :=
    if reading.shouldAlert env then some reading.now else none
  alertCount := if reading.shouldAlert env then 1 else 0
  lastAlertedViolationCount :=
    if reading.shouldAlert env then reading.violationCount else 0
  autoSuspended := reading.shouldSuspend env
  suspendedAt :=
    if reading.shouldSuspend env then some reading.now else none
  suspensionExpiresAt :=
    if reading.shouldSuspend env then
      buildSuspensionExpiry env reading.now
    else none
  liftedAt := none
  liftedBy := none

def alert (row : FlashLoanGuardStatus) : FlashLoanGuardStatus :=
  if reading.shouldAlert env then
    { row with
      alertedAt := some reading.now
      alertCount := row.alertCount + 1
      lastAlertedViolationCount := reading.violationCount }
  else row

def suspend (row : FlashLoanGuardStatus) : FlashLoanGuardStatus :=
  if reading.shouldSuspend env then
    { row with
      autoSuspended := true
      suspendedAt :=
        if reading.suspensionActive then row.suspendedAt
        else some reading.now
      suspensionExpiresAt :=
        if reading.suspensionActive then
          reading.existing.bind
            FlashLoanGuardStatus.suspensionExpiresAt
        else buildSuspensionExpiry env reading.now
      liftedAt := none
      liftedBy := none }
  else row

def update (row : FlashLoanGuardStatus) : FlashLoanGuardStatus :=
  reading.suspend env (reading.alert env { row with
        violationCount := reading.violationCount
        lastViolationAt := some reading.occurredAt })

theorem key_update (row : FlashLoanGuardStatus) : key (reading.update env row) = key row := by
  unfold update suspend alert
  split <;> split <;> rfl

/- Answers the row as it is afterwards. -/
def upsert (db : FlashLoanDb) : Except IndexerError (FlashLoanGuardStatus × FlashLoanDb) :=
  .ok ((db.flashLoanGuardStatus.find? reading.walletAddress).elim
    (reading.create env) (reading.update env), { db with
    flashLoanGuardStatus :=
      db.flashLoanGuardStatus.upsert (reading.create env)
        (reading.update env) (reading.key_update env) })

end ThresholdReading

/- An entry that cannot be written is only logged. -/
def emitAuditEvent (entry : FlashLoanAudit) : FlashLoanM Unit :=
  tryCatch (execute .database fun db =>
    .ok ((), { db with auditEvent := db.auditEvent ++ [entry] }))
    (fun _ => pure ())

def createAuditEntry (entry : FlashLoanAudit) : FlashLoanM Unit :=
  tryCatch (execute .database fun db => .ok ((), { db with auditLog := db.auditLog ++ [entry] }))
    (fun _ => pure ())

def auditTwice (entry : FlashLoanAudit) : FlashLoanM Unit := do
  emitAuditEvent entry
  createAuditEntry entry

structure ViolationThresholdResult where
  walletAddress : String
  violationCount : Nat
  threshold : Nat
  alerted : Bool
  suspended : Bool

def auditAlert (reading : ThresholdReading) (status : FlashLoanGuardStatus) : FlashLoanM Unit :=
  if reading.shouldAlert env then
    auditTwice {
      actor := reading.walletAddress
      action := "flash_loan_guard_alert"
      targetId := reading.walletAddress
      details :=
        .alert reading.violationCount
          env.FLASH_LOAN_VIOLATION_THRESHOLD
          env.FLASH_LOAN_VIOLATION_COOLDOWN_HOURS
          status.autoSuspended }
  else pure ()

def auditSuspension (reading : ThresholdReading)
    (status : FlashLoanGuardStatus) : FlashLoanM Unit :=
  if reading.shouldSuspend env && !reading.suspensionActive then
    auditTwice {
      actor := "system:flash-loan-guard"
      action := "flash_loan_wallet_suspended"
      targetId := reading.walletAddress
      details :=
        .suspended reading.violationCount
          env.FLASH_LOAN_VIOLATION_THRESHOLD (status.suspendedAt.getD reading.now)
          status.suspensionExpiresAt }
  else pure ()

def evaluateViolationThreshold (walletAddress : String)
    (occurredAt now : ℤ) : FlashLoanM ViolationThresholdResult := do
  let violationCount ← query .database (countViolations walletAddress
      (getCooldownCutoff env occurredAt))
  let existing ← query .database (·.flashLoanGuardStatus.find? walletAddress)
  let reading : ThresholdReading := { walletAddress, occurredAt, now, violationCount, existing }
  if existing.isNone && !reading.breached env then
    pure {
      walletAddress
      violationCount
      threshold := env.FLASH_LOAN_VIOLATION_THRESHOLD
      alerted := false
      suspended := false }
  else do
    let status ← execute .database (reading.upsert env)
    auditAlert env reading status
    auditSuspension env reading status
    pure {
      walletAddress
      violationCount
      threshold := env.FLASH_LOAN_VIOLATION_THRESHOLD
      alerted := reading.shouldAlert env
      suspended := isSuspensionActive status.suspendedAt status.suspensionExpiresAt now }

def processFlashLoanGuardEvent (now : ℤ) (event : FlashLoanGuardTriggeredEvent) : FlashLoanM Unit :=
  if event.eventType = flashLoanGuardEventType then
    match violationOf env now event with
    | none => pure ()
    | some violation => do
      let inserted ← recordFlashLoanViolation violation
      if inserted then do
        let _ ← evaluateViolationThreshold env violation.walletAddress violation.occurredAt now
      else pure ()
  else pure ()

end

-- The Cleanup
----

section

variable (env : FlashLoanEnv)

def expiredViolations (now : ℤ) (db : FlashLoanDb) : List FlashLoanViolation :=
  ((env.scan db.flashLoanViolation.rows).filter fun row => row.clearedAt = none ∧
    row.occurredAt < getCooldownCutoff env now).take cleanupBatchSize

theorem lawful_violationKey : LawfulBEq (String × Nat) := inferInstance

attribute [local instance] lawful_violationKey

def clearViolations (expired : List FlashLoanViolation) (now : ℤ)
    (db : FlashLoanDb) : Except IndexerError (Unit × FlashLoanDb) :=
  .ok ((), { db with
        flashLoanViolation :=
          db.flashLoanViolation.updateMany (fun row => key row ∈ expired.map key)
            (fun row => { row with clearedAt := some now }) (fun _ => rfl) })

def updateStatus (walletAddress : String) (f : FlashLoanGuardStatus → FlashLoanGuardStatus)
    (hKey : ∀ row, key (f row) = key row)
    (db : FlashLoanDb) : Except IndexerError (Unit × FlashLoanDb) :=
  match db.flashLoanGuardStatus.find? walletAddress with
  | none => .error .recordNotFound
  | some _ =>
    .ok ((), { db with
          flashLoanGuardStatus := db.flashLoanGuardStatus.update walletAddress f hKey })

def liftWalletSuspension (walletAddress liftedBy : String) (now : ℤ) : FlashLoanM Unit := do
  execute .database (updateStatus walletAddress (fun row => { row with
          autoSuspended := false
          suspendedAt := none
          suspensionExpiresAt := none
          liftedAt := some now
          liftedBy := some liftedBy }) (fun _ => rfl))
  auditTwice {
    actor := liftedBy
    action := "flash_loan_wallet_suspension_lifted"
    targetId := walletAddress
    details := .lifted now liftedBy }

/- A suspension that is up, of a wallet below the threshold. -/
def isLiftable (now : ℤ) (violationCount : Nat) (status : FlashLoanGuardStatus) : Bool :=
  status.suspendedAt.isSome ∧ violationCount < env.FLASH_LOAN_VIOLATION_THRESHOLD ∧
    ∀ expiry ∈ status.suspensionExpiresAt, expiry ≤ now

/- Answers whether the suspension of a wallet was lifted. -/
def refreshWallet (now : ℤ) (walletAddress : String) : FlashLoanM Bool := do
  let violationCount ← query .database (countViolations walletAddress (getCooldownCutoff env now))
  let existing ← query .database (·.flashLoanGuardStatus.find? walletAddress)
  match existing with
  | none => pure false
  | some status =>
    if isLiftable env now violationCount status then do
      liftWalletSuspension walletAddress "system:cooldown" now
      pure true
    else do
      execute .database (updateStatus walletAddress (fun row => { row with violationCount })
        (fun _ => rfl))
      pure false

/- The wallets whose suspension was lifted. -/
def refreshWallets (now : ℤ) : List String → FlashLoanM (List String)
  | [] => pure []
  | walletAddress :: rest => do
    let lifted ← refreshWallet env now walletAddress
    let others ← refreshWallets now rest
    pure (if lifted then walletAddress :: others else others)

structure ViolationCleanupResult where
  cutoff : ℤ
  clearedCount : Nat
  liftedSuspensions : List String

def clearExpiredFlashLoanViolations (now : ℤ) : FlashLoanM ViolationCleanupResult := do
  let expired ← query .database (expiredViolations env now)
  if expired = [] then
    pure {
      cutoff := getCooldownCutoff env now
      clearedCount := 0
      liftedSuspensions := [] }
  else do
    execute .database (clearViolations expired now)
    let liftedSuspensions ← refreshWallets env now
        (expired.map FlashLoanViolation.walletAddress).eraseDups
    pure {
      cutoff := getCooldownCutoff env now
      clearedCount := expired.length
      liftedSuspensions }

end

-- Crossings
----

section

variable (env : FlashLoanEnv)

def latestViolation (walletAddress : String)
    (rows : List FlashLoanViolation) : Option FlashLoanViolation :=
  (rows.filter (·.walletAddress = walletAddress)).getLast?

/- Uncleared violations of a wallet in the cooldown window that ends at its latest violation. -/
def windowCount (walletAddress : String) (rows : List FlashLoanViolation) : Nat :=
  (latestViolation walletAddress rows).elim 0 fun latest =>
    rows.countP fun row => row.walletAddress = walletAddress ∧ row.clearedAt = none ∧
      getCooldownCutoff env latest.occurredAt ≤ row.occurredAt ∧
      row.occurredAt ≤ latest.occurredAt

namespace FlashLoanDb

variable (db : FlashLoanDb)

def alertCount (walletAddress : String) : Nat :=
  (db.flashLoanGuardStatus.find? walletAddress).elim 0 FlashLoanGuardStatus.alertCount

def lastAlerted (walletAddress : String) : Nat :=
  (db.flashLoanGuardStatus.find? walletAddress).elim 0
    FlashLoanGuardStatus.lastAlertedViolationCount

/- A suspension that has not been lifted. -/
def isSuspended (walletAddress : String) : Bool :=
  (db.flashLoanGuardStatus.find? walletAddress).any (·.suspendedAt.isSome)

end FlashLoanDb

/- The database, and how many alerts each wallet had when it last was below the threshold. -/
structure FlashLoanWorld where
  db : FlashLoanDb
  quiet : String → Nat

def FlashLoanWorld.start : FlashLoanWorld where
  db := .empty
  quiet _ := 0

/- Deliveries and passes, each cut off where its outcomes end. -/
inductive FlashLoanMove where
  | deliver (event : FlashLoanGuardTriggeredEvent) (now : ℤ) (outcomes : List Outcome)
  | cleanUp (now : ℤ) (outcomes : List Outcome)

def FlashLoanMove.after (db : FlashLoanDb) : FlashLoanMove → FlashLoanDb
  | .deliver event now outcomes => (processFlashLoanGuardEvent env now event).attempt outcomes db
  | .cleanUp now outcomes => (clearExpiredFlashLoanViolations env now).attempt outcomes db

def FlashLoanWorld.step (world : FlashLoanWorld) (move : FlashLoanMove) : Option FlashLoanWorld :=
  let db := move.after env world.db
  some
    { db
      quiet := fun walletAddress =>
        if windowCount env walletAddress db.flashLoanViolation.rows <
          env.FLASH_LOAN_VIOLATION_THRESHOLD then
          db.alertCount walletAddress
        else world.quiet walletAddress }

/-
  A wallet at the threshold has had an alert since it was last
  below, and is suspended if that is to be done.
-/
def CrossingsNoticed (world : FlashLoanWorld) : Prop :=
  ∀ walletAddress, env.FLASH_LOAN_VIOLATION_THRESHOLD ≤ windowCount env walletAddress
    world.db.flashLoanViolation.rows → world.quiet walletAddress <
    world.db.alertCount walletAddress ∧ (env.FLASH_LOAN_AUTO_SUSPEND_ENABLED = true →
    world.db.isSuspended walletAddress = true)

/- The statements from the record to the status took effect. -/
def evaluates (outcomes : List Outcome) : Bool :=
  outcomes[0]? = some .served ∧ outcomes[1]? = some .served ∧
    outcomes[2]? = some .served ∧ takesEffect outcomes[3]? = true

attribute [local instance] lawful_violationKey

/- A violation after a pass that clears the given ones. -/
def clearRow (expired : List FlashLoanViolation) (now : ℤ)
    (row : FlashLoanViolation) : FlashLoanViolation :=
  if key row ∈ expired.map key then
    { row with clearedAt := some now }
  else row

@[simp] theorem clearRow_walletAddress
    (expired : List FlashLoanViolation) (now : ℤ) (row : FlashLoanViolation) :
    (clearRow expired now row).walletAddress = row.walletAddress := by
  unfold clearRow
  split <;> rfl

@[simp] theorem clearRow_occurredAt
    (expired : List FlashLoanViolation) (now : ℤ) (row : FlashLoanViolation) :
    (clearRow expired now row).occurredAt = row.occurredAt := by
  unfold clearRow
  split <;> rfl

@[simp] theorem clearRow_clearedAt_eq_none_iff
    (expired : List FlashLoanViolation) (now : ℤ) (row : FlashLoanViolation) :
    (clearRow expired now row).clearedAt = none ↔
      key row ∉ expired.map key ∧ row.clearedAt = none := by
  unfold clearRow
  split
  · rename_i hPicked
    constructor
    · exact fun h => nomatch h
    · exact fun h => absurd hPicked h.1
  · rename_i hKept
    exact ⟨fun h => ⟨hKept, h⟩, fun h => h.2⟩

/- The rows of violations after a pass. -/
def clearedRows (now : ℤ) (db : FlashLoanDb) : List FlashLoanViolation :=
  db.flashLoanViolation.rows.map (clearRow (expiredViolations env now db) now)

/- No wallet that has to stay suspended can be lifted. -/
def KeepsSuspended (now : ℤ) (db : FlashLoanDb) (walletAddress : String) : Prop :=
  env.FLASH_LOAN_AUTO_SUSPEND_ENABLED = true →
    ∀ status ∈ db.flashLoanGuardStatus.find? walletAddress, env.FLASH_LOAN_VIOLATION_THRESHOLD ≤
      windowCount env walletAddress (clearedRows env now db) → isLiftable env now
      ((clearedRows env now db).countP fun row => row.walletAddress = walletAddress ∧
        row.clearedAt = none ∧ getCooldownCutoff env now ≤ row.occurredAt) status = false

/-
  A violation that brings its wallet to the threshold is
  evaluated, with a higher count than the last alert had.  A
  pass leaves no wallet at the threshold whose suspension it
  takes for one to lift.
-/
def Notices (world : FlashLoanWorld) : FlashLoanMove → Prop
  | .deliver event now outcomes =>
    event.eventType = flashLoanGuardEventType → ∀ violation ∈ violationOf env now event, ∀ db,
      createViolation violation world.db = .ok ((), db) → takesEffect outcomes[0]? = true →
      windowCount env violation.walletAddress world.db.flashLoanViolation.rows <
        env.FLASH_LOAN_VIOLATION_THRESHOLD → env.FLASH_LOAN_VIOLATION_THRESHOLD ≤
        windowCount env violation.walletAddress db.flashLoanViolation.rows →
      evaluates outcomes = true ∧ world.db.lastAlerted violation.walletAddress <
        countViolations violation.walletAddress (getCooldownCutoff env violation.occurredAt) db
  | .cleanUp now _ => ∀ walletAddress, KeepsSuspended env now world.db walletAddress

end

-- What a Delivery Does
----

section

variable {env : FlashLoanEnv} {violation : FlashLoanViolation}
variable {event : FlashLoanGuardTriggeredEvent} {now : ℤ} {db db' : FlashLoanDb}

/- Both tables of the guard hold the same rows. -/
structure SameTables (t s : FlashLoanDb) : Prop where
  violations : t.flashLoanViolation = s.flashLoanViolation
  statuses : t.flashLoanGuardStatus = s.flashLoanGuardStatus

theorem secures_auditTwice {I : FlashLoanDb → Prop} {s : FlashLoanDb} (entry : FlashLoanAudit)
    (hI : ∀ t t', SameTables t' t → I t → I t') (hs : I s) :
    Secures I (fun _ => I) I (auditTwice entry) s := by
  refine Secures.bind (Q := fun _ => I) ?_ ?_
  · refine Secures.tryCatch (F := I) (secures_execute ?_ hs hs) fun _ _ hs => secures_pure hs
    intro _ t hOk
    cases hOk
    refine ⟨?_, ?_, ?_⟩ <;> exact hI s _ ⟨rfl, rfl⟩ hs
  · intro _ t ht
    refine Secures.tryCatch (F := I) (secures_execute ?_ ht ht) fun _ _ hs => secures_pure hs
    intro _ t' hOk
    cases hOk
    refine ⟨?_, ?_, ?_⟩ <;> exact hI t _ ⟨rfl, rfl⟩ ht

/- What an evaluation reads after a violation was recorded. -/
def readingOf (env : FlashLoanEnv) (violation : FlashLoanViolation) (now : ℤ)
    (db : FlashLoanDb) : ThresholdReading where
  walletAddress := violation.walletAddress
  occurredAt := violation.occurredAt
  now := now
  violationCount :=
    countViolations violation.walletAddress (getCooldownCutoff env violation.occurredAt) db
  existing := db.flashLoanGuardStatus.find? violation.walletAddress

/- The database after an evaluation. -/
def evaluated (env : FlashLoanEnv) (violation : FlashLoanViolation) (now : ℤ)
    (db : FlashLoanDb) : FlashLoanDb :=
  let reading := readingOf env violation now db
  if reading.existing.isNone && !reading.breached env then db
  else
    { db with
      flashLoanGuardStatus :=
        db.flashLoanGuardStatus.upsert (reading.create env)
          (reading.update env) (reading.key_update env) }

/- The entries after a status are the last of an evaluation. -/
theorem sameTables_audit {β : Type} {reading : ThresholdReading}
    {status : FlashLoanGuardStatus} {answer : β} (os : List Outcome) :
    SameTables
      (((do
        auditAlert env reading status
        auditSuspension env reading status
        pure answer) >>= fun _ =>
          (pure () : FlashLoanM Unit)).attempt os db) db := by
  have hAlert : Secures (SameTables · db) (fun _ => (SameTables · db))
      (SameTables · db) (auditAlert env reading status) db := by
    unfold auditAlert
    split
    · exact secures_auditTwice _
        (fun t t' hSame ht =>
          ⟨hSame.violations.trans ht.violations, hSame.statuses.trans ht.statuses⟩) ⟨rfl, rfl⟩
    · exact secures_pure ⟨rfl, rfl⟩
  have hSuspension (t : FlashLoanDb) (ht : SameTables t db) :
      Secures (SameTables · db) (fun _ => (SameTables · db))
        (SameTables · db)
        (auditSuspension env reading status) t := by
    unfold auditSuspension
    split
    · exact secures_auditTwice _
        (fun t t' hSame ht =>
          ⟨hSame.violations.trans ht.violations, hSame.statuses.trans ht.statuses⟩) ht
    · exact secures_pure ht
  have hAll : Secures (SameTables · db) (fun _ _ => True)
      (SameTables · db)
      (do
        auditAlert env reading status
        auditSuspension env reading status
        pure answer) db :=
    hAlert.bind fun _ t ht =>
      (hSuspension t ht).bind fun _ _ _ => secures_pure trivial
  have hUnit := hAll.bind (R := fun _ _ => True)
      (k := fun _ => (pure () : FlashLoanM Unit))
      fun _ _ _ => secures_pure trivial
  exact hUnit.attempt ⟨rfl, rfl⟩ os

theorem attempt_write {β : Type} {reading : ThresholdReading}
    (answer : β) (answerOf : FlashLoanGuardStatus → β) (os : List Outcome) :
    SameTables
      (((if reading.existing.isNone && !reading.breached env then
        pure answer
        else do
          let status ← execute .database (reading.upsert env)
          auditAlert env reading status
          auditSuspension env reading status
          pure (answerOf status)) >>= fun _ =>
            (pure () : FlashLoanM Unit)).attempt os db)
      (if takesEffect os[0]? = true then
        if reading.existing.isNone && !reading.breached env then
          db
        else
          { db with
            flashLoanGuardStatus :=
              db.flashLoanGuardStatus.upsert (reading.create env)
                (reading.update env) (reading.key_update env) }
      else db) := by
  split
  · rw [ite_self]
    cases os <;> exact ⟨rfl, rfl⟩
  · rw [bind_bind]
    cases os with
    | nil => exact ⟨rfl, rfl⟩
    | cons first rest =>
      rw [attempt_execute_bind rfl]
      cases first with
      | served => exact sameTables_audit rest
      | rejected => exact ⟨rfl, rfl⟩
      | lost => exact ⟨rfl, rfl⟩

/- An evaluation that is cut off before its write does nothing. -/
theorem attempt_evaluate (os : List Outcome) :
    SameTables ((evaluateViolationThreshold env violation.walletAddress
      violation.occurredAt now >>= fun _ => (pure () : FlashLoanM Unit)).attempt os db)
      (if os[0]? = some .served ∧ os[1]? = some .served ∧ takesEffect os[2]? = true then
        evaluated env violation now db
      else db) := by
  unfold evaluateViolationThreshold
  rw [bind_bind, attempt_query_bind]
  split
  · rename_i hFirst
    rw [bind_bind, attempt_query_bind]
    simp only [hFirst, List.getElem?_tail, true_and]
    split
    · rename_i hSecond
      simp only [hSecond, true_and]
      have hWrite := @attempt_write env db ViolationThresholdResult (readingOf env violation now db)
      have hThird : os[2]? = os.tail.tail[0]? := by simp
      rw [hThird]
      exact hWrite _ _ os.tail.tail
    · rename_i hSecond
      rw [if_neg fun h => hSecond h.1]
      exact ⟨rfl, rfl⟩
  · rename_i hFirst
    rw [if_neg fun h => hFirst h.1]
    exact ⟨rfl, rfl⟩

theorem fault_ne_taken : IndexerError.database ≠ .uniqueViolation := nofun

/- A delivery that records a violation may also evaluate it. -/
theorem attempt_process_new (hType : event.eventType = flashLoanGuardEventType)
    (hViolation : violationOf env now event = some violation)
    (hCreate : createViolation violation db = .ok ((), db')) (os : List Outcome) :
    SameTables ((processFlashLoanGuardEvent env now event).attempt os db)
      (if takesEffect os[0]? = true then
        if evaluates os then evaluated env violation now db'
        else db'
      else db) := by
  unfold processFlashLoanGuardEvent
  rw [if_pos hType, hViolation]
  dsimp only
  rw [recordFlashLoanViolation, attempt_createOnce_bind fault_ne_taken hCreate]
  cases os with
  | nil => exact ⟨rfl, rfl⟩
  | cons first rest =>
    cases first with
    | served =>
      have hRest := @attempt_evaluate env violation now db' rest
      have hEvaluates :
          evaluates (.served :: rest) = true ↔ rest[0]? = some .served ∧ rest[1]? = some .served ∧
            takesEffect rest[2]? = true := by
        simp [evaluates]
      rw [if_pos rfl]
      by_cases hDone : evaluates (.served :: rest) = true
      · rw [if_pos hDone]
        rw [if_pos (hEvaluates.mp hDone)] at hRest
        exact hRest
      · rw [if_neg hDone]
        rw [if_neg fun h => hDone (hEvaluates.mpr h)] at hRest
        exact hRest
    | rejected => exact ⟨rfl, rfl⟩
    | lost => exact ⟨rfl, rfl⟩

/- Any other delivery does nothing. -/
theorem attempt_process_idle (hIdle :
    event.eventType = flashLoanGuardEventType → ∀ violation ∈ violationOf env now event, ∀ db',
      createViolation violation db ≠ .ok ((), db')) (os : List Outcome) :
    SameTables ((processFlashLoanGuardEvent env now event).attempt os db) db := by
  unfold processFlashLoanGuardEvent
  split
  · rename_i hType
    cases hViolation : violationOf env now event with
    | none => cases os <;> exact ⟨rfl, rfl⟩
    | some violation =>
      have hTaken : createViolation violation db =
          .error .uniqueViolation := by
        have hNone := hIdle hType violation hViolation
        unfold createViolation at hNone ⊢
        split
        · rfl
        · rename_i rows hInsert
          rw [hInsert] at hNone
          exact absurd rfl (hNone _)
      dsimp only
      rw [recordFlashLoanViolation, attempt_createOnce_bind_taken fault_ne_taken hTaken]
      split
      · cases os.tail <;> exact ⟨rfl, rfl⟩
      · exact ⟨rfl, rfl⟩
  · cases os <;> exact ⟨rfl, rfl⟩

end

-- Windows
----

section

variable {env : FlashLoanEnv} {violation : FlashLoanViolation} {walletAddress : String} {now : ℤ}
variable {db db' : FlashLoanDb}

theorem rows_createViolation (h : createViolation violation db = .ok ((), db')) :
    db'.flashLoanViolation.rows = db.flashLoanViolation.rows ++ [violation] ∧
      db'.flashLoanGuardStatus = db.flashLoanGuardStatus := by
  unfold createViolation at h
  split at h
  · cases h
  · rename_i rows hInsert
    cases h
    exact ⟨(Table.insert?_eq_some hInsert).2, rfl⟩

theorem windowCount_append_other {rows : List FlashLoanViolation}
    (hOther : violation.walletAddress ≠ walletAddress) :
    windowCount env walletAddress (rows ++ [violation]) = windowCount env walletAddress rows := by
  have hLatest : latestViolation walletAddress (rows ++ [violation]) =
      latestViolation walletAddress rows := by
    unfold latestViolation
    rw [List.filter_append, List.filter_singleton, decide_eq_false hOther]
    simp
  unfold windowCount
  rw [hLatest]
  cases latestViolation walletAddress rows with
  | none => rfl
  | some latest =>
    rw [Option.elim_some, Option.elim_some, List.countP_append, List.countP_singleton, if_neg]
    · rfl
    · simp [hOther]

theorem windowCount_le_countViolations (h : createViolation violation db = .ok ((), db')) :
    windowCount env violation.walletAddress db'.flashLoanViolation.rows ≤
      countViolations violation.walletAddress (getCooldownCutoff env violation.occurredAt) db' := by
  have hLatest : latestViolation violation.walletAddress
      db'.flashLoanViolation.rows = some violation := by
    unfold latestViolation
    rw [(rows_createViolation h).1, List.filter_append, List.filter_singleton, decide_eq_true rfl]
    simp
  unfold windowCount countViolations
  rw [hLatest, Option.elim_some]
  apply List.countP_mono_left
  intro row _ hCounted
  rw [decide_eq_true_iff] at hCounted ⊢
  exact ⟨hCounted.1, hCounted.2.1, hCounted.2.2.1⟩

theorem windowCount_clearedRows_le (walletAddress : String) :
    windowCount env walletAddress (clearedRows env now db) ≤ windowCount env walletAddress
      db.flashLoanViolation.rows := by
  have hLatest :
      latestViolation walletAddress (clearedRows env now db) = (latestViolation walletAddress
        db.flashLoanViolation.rows).map
          (clearRow (expiredViolations env now db) now) := by
    unfold latestViolation clearedRows
    rw [List.filter_map, List.getLast?_map]
    congr 3
    funext row
    simp
  unfold windowCount
  rw [hLatest]
  cases latestViolation walletAddress db.flashLoanViolation.rows with
  | none => exact le_rfl
  | some latest =>
    rw [Option.map_some, Option.elim_some, Option.elim_some, clearedRows, List.countP_map]
    apply List.countP_mono_left
    intro row _ hCounted
    simp only [Function.comp, decide_eq_true_iff, clearRow_walletAddress, clearRow_occurredAt,
      clearRow_clearedAt_eq_none_iff] at hCounted ⊢
    exact ⟨hCounted.1, hCounted.2.1.2, hCounted.2.2⟩

-- Evaluations and Passes
----

namespace ThresholdReading

variable {reading : ThresholdReading}

theorem alertCount_update (row : FlashLoanGuardStatus) :
    (reading.update env row).alertCount = row.alertCount +
      if reading.shouldAlert env then 1 else 0 := by
  unfold update suspend alert
  split <;> split <;> rfl

theorem isSome_suspendedAt_update {row : FlashLoanGuardStatus} (hRow : reading.existing = some row)
    (hSuspend : reading.shouldSuspend env = true) :
    (reading.update env row).suspendedAt.isSome = true := by
  unfold update suspend
  rw [if_pos hSuspend]
  split
  · rename_i hActive
    unfold suspensionActive isSuspensionActive at hActive
    rw [hRow] at hActive
    unfold alert
    split <;> exact (of_decide_eq_true hActive).1
  · rfl

end ThresholdReading

theorem find?_evaluated_other (hOther : walletAddress ≠ violation.walletAddress) :
    (evaluated env violation now db).flashLoanGuardStatus.find? walletAddress =
      db.flashLoanGuardStatus.find? walletAddress := by
  unfold evaluated
  dsimp only
  split
  · rfl
  · exact (Table.find?_upsert _ _ _ _ walletAddress).trans (if_neg hOther)

theorem find?_evaluated_own
    (hWrites : ((db.flashLoanGuardStatus.find? violation.walletAddress).isNone &&
      !(readingOf env violation now db).breached env) = false) :
    (evaluated env violation now db).flashLoanGuardStatus.find? violation.walletAddress = some
      ((db.flashLoanGuardStatus.find? violation.walletAddress).elim
        ((readingOf env violation now db).create env)
        ((readingOf env violation now db).update env)) := by
  have hWritten : evaluated env violation now db = { db with
          flashLoanGuardStatus :=
            db.flashLoanGuardStatus.upsert ((readingOf env violation now db).create env)
              ((readingOf env violation now db).update env)
              ((readingOf env violation now db).key_update env) } :=
    if_neg (Bool.eq_false_iff.mp hWrites)
  rw [hWritten]
  exact (Table.find?_upsert _ _ _ _ violation.walletAddress).trans (if_pos rfl)

theorem rows_evaluated :
    (evaluated env violation now db).flashLoanViolation = db.flashLoanViolation := by
  unfold evaluated
  dsimp only
  split <;> rfl

theorem alertCount_le_evaluated (walletAddress : String) :
    db.alertCount walletAddress ≤ (evaluated env violation now db).alertCount walletAddress := by
  unfold FlashLoanDb.alertCount
  by_cases hOwn : walletAddress = violation.walletAddress
  · subst hOwn
    cases hWrites :
      (db.flashLoanGuardStatus.find? violation.walletAddress).isNone &&
        !(readingOf env violation now db).breached env with
    | true =>
      have hIdle : evaluated env violation now db = db := if_pos hWrites
      rw [hIdle]
    | false =>
      rw [find?_evaluated_own hWrites, Option.elim_some]
      cases db.flashLoanGuardStatus.find? violation.walletAddress with
      | none => exact Nat.zero_le _
      | some row =>
        rw [Option.elim_some, Option.elim_some, ThresholdReading.alertCount_update]
        exact Nat.le_add_right _ _
  · rw [find?_evaluated_other hOwn]

theorem alertCount_lt_evaluated (hBreached : (readingOf env violation now db).breached env = true)
    (hHigher :
      db.lastAlerted violation.walletAddress < (readingOf env violation now db).violationCount) :
    db.alertCount violation.walletAddress < (evaluated env violation now db).alertCount
      violation.walletAddress := by
  have hAlert : (readingOf env violation now db).shouldAlert env = true :=
    decide_eq_true ⟨hBreached, Nat.zero_lt_of_lt hHigher, hHigher⟩
  have hWrites : ((db.flashLoanGuardStatus.find? violation.walletAddress).isNone &&
      !(readingOf env violation now db).breached env) = false := by
    rw [hBreached]
    exact Bool.and_false _
  unfold FlashLoanDb.alertCount
  rw [find?_evaluated_own hWrites, Option.elim_some]
  cases db.flashLoanGuardStatus.find? violation.walletAddress with
  | none =>
    rw [Option.elim_none, Option.elim_none, ThresholdReading.create, hAlert]
    exact Nat.one_pos
  | some row =>
    rw [Option.elim_some, Option.elim_some, ThresholdReading.alertCount_update, hAlert]
    exact Nat.lt_succ_self _

theorem isSuspended_evaluated (hAuto : env.FLASH_LOAN_AUTO_SUSPEND_ENABLED = true)
    (hBreached : (readingOf env violation now db).breached env = true) :
    (evaluated env violation now db).isSuspended violation.walletAddress = true := by
  have hSuspend : (readingOf env violation now db).shouldSuspend env =
      true := by
    unfold ThresholdReading.shouldSuspend
    rw [hBreached, hAuto]
    rfl
  have hWrites : ((db.flashLoanGuardStatus.find? violation.walletAddress).isNone &&
      !(readingOf env violation now db).breached env) = false := by
    rw [hBreached]
    exact Bool.and_false _
  unfold FlashLoanDb.isSuspended
  rw [find?_evaluated_own hWrites, Option.any_some]
  cases hRow : db.flashLoanGuardStatus.find? violation.walletAddress with
  | none =>
    rw [Option.elim_none, ThresholdReading.create]
    rw [if_pos hSuspend]
    rfl
  | some row =>
    rw [Option.elim_some]
    exact ThresholdReading.isSome_suspendedAt_update hRow hSuspend

/- The status of a wallet, in part of the way through a pass. -/
structure Refreshed (env : FlashLoanEnv) (rows : List FlashLoanViolation)
    (old new : FlashLoanGuardStatus) : Prop where
  alertCount : new.alertCount = old.alertCount
  suspension :
    (new.suspendedAt = old.suspendedAt ∧ new.suspensionExpiresAt = old.suspensionExpiresAt) ∨
    new.suspendedAt = none ∧ (env.FLASH_LOAN_AUTO_SUSPEND_ENABLED = true →
      windowCount env old.walletAddress rows < env.FLASH_LOAN_VIOLATION_THRESHOLD)

/- The tables while a pass refreshes the statuses. -/
structure Refreshing (env : FlashLoanEnv) (now : ℤ) (db t : FlashLoanDb) : Prop where
  rows : t.flashLoanViolation.rows = clearedRows env now db
  statuses : ∀ walletAddress, Option.Rel (Refreshed env (clearedRows env now db))
    (db.flashLoanGuardStatus.find? walletAddress) (t.flashLoanGuardStatus.find? walletAddress)

variable {s t : FlashLoanDb}

theorem Refreshing.sameTables (hSame : SameTables t s) (hs : Refreshing env now db s) :
    Refreshing env now db t := by
  rcases hs with ⟨hRows, hStatuses⟩
  constructor
  · rw [hSame.violations]
    exact hRows
  · rw [hSame.statuses]
    exact hStatuses

theorem Refreshing.updateStatus {f : FlashLoanGuardStatus → FlashLoanGuardStatus}
    {hKey : ∀ row, key (f row) = key row} (hs : Refreshing env now db s)
    (hWrite : ∀ old new, db.flashLoanGuardStatus.find? walletAddress = some old →
      s.flashLoanGuardStatus.find? walletAddress = some new →
      Refreshed env (clearedRows env now db) old new →
      Refreshed env (clearedRows env now db) old (f new))
    (h : Indexer.updateStatus walletAddress f hKey s = .ok ((), t)) :
    Refreshing env now db t := by
  unfold Indexer.updateStatus at h
  split at h
  · cases h
  · rename_i row hRow
    cases h
    refine ⟨hs.rows, ?_⟩
    intro other
    by_cases hOther : other = walletAddress
    · subst hOther
      have hRel := hs.statuses other
      rw [hRow] at hRel
      rw [Table.find?_update_same, hRow]
      cases hOld : db.flashLoanGuardStatus.find? other with
      | none =>
        rw [hOld] at hRel
        cases hRel
      | some old =>
        rw [hOld] at hRel
        cases hRel with
        | some hRefreshed => exact .some (hWrite old row hOld hRow hRefreshed)
    · rw [Table.find?_update_other _ _ _ hOther]
      exact hs.statuses other

theorem Refreshed.lift {status : FlashLoanGuardStatus} {old new : FlashLoanGuardStatus}
    (hKeeps : KeepsSuspended env now db walletAddress)
    (hRows : s.flashLoanViolation.rows = clearedRows env now db)
    (hOld : db.flashLoanGuardStatus.find? walletAddress = some old) (hLiftable :
      isLiftable env now (countViolations walletAddress (getCooldownCutoff env now) s) new = true)
    (hRefreshed : Refreshed env (clearedRows env now db) old new)
    (hStatus : status.alertCount = new.alertCount ∧ status.suspendedAt = none) :
    Refreshed env (clearedRows env now db) old status := by
  refine ⟨hStatus.1.trans hRefreshed.alertCount, .inr ?_⟩
  refine ⟨hStatus.2, fun hAuto => ?_⟩
  rw [show old.walletAddress = walletAddress from Table.key_of_find? hOld]
  by_contra hBelow
  have hStays := hKeeps hAuto old hOld (not_lt.mp hBelow)
  unfold countViolations at hLiftable
  rw [hRows] at hLiftable
  unfold isLiftable at hLiftable hStays
  rcases hRefreshed.suspension with ⟨hSuspended, hExpiry⟩ | ⟨hNone, -⟩
  · rw [hSuspended, hExpiry] at hLiftable
    rw [hLiftable] at hStays
    cases hStays
  · rw [hNone] at hLiftable
    cases (of_decide_eq_true hLiftable).1

theorem secures_refreshWallet (hKeeps : KeepsSuspended env now db walletAddress)
    (hs : Refreshing env now db s) :
    Secures (Refreshing env now db) (fun _ => Refreshing env now db) (Refreshing env now db)
      (refreshWallet env now walletAddress) s := by
  refine (secures_query hs hs).bind ?_
  rintro count s' ⟨rfl, hSame⟩
  rw [hSame]
  refine (secures_query hs hs).bind ?_
  rintro existing s'' ⟨rfl, hSame'⟩
  rw [hSame']
  cases hNew : s.flashLoanGuardStatus.find? walletAddress with
  | none => exact secures_pure hs
  | some status =>
    dsimp only
    split
    · rename_i hLiftable
      refine Secures.bind (Q := fun _ => Refreshing env now db)
        (Secures.bind (Q := fun _ => Refreshing env now db) (secures_execute ?_ hs hs) ?_)
        fun _ _ ht => secures_pure ht
      · intro _ t hOk
        have ht : Refreshing env now db t := by
          refine hs.updateStatus ?_ hOk
          intro old new hOld hFound hRefreshed
          rw [hNew] at hFound
          cases hFound
          exact hRefreshed.lift hKeeps hs.rows hOld hLiftable ⟨rfl, rfl⟩
        exact ⟨ht, ht, ht⟩
      · exact fun _ t ht => secures_auditTwice _ (fun _ _ => Refreshing.sameTables) ht
    · refine Secures.bind (Q := fun _ => Refreshing env now db) (secures_execute ?_ hs hs)
        fun _ _ ht => secures_pure ht
      intro _ t hOk
      have ht : Refreshing env now db t := by
        refine hs.updateStatus ?_ hOk
        intro _ _ _ _ hRefreshed
        exact ⟨hRefreshed.alertCount, hRefreshed.suspension⟩
      exact ⟨ht, ht, ht⟩

theorem secures_refreshWallets (hKeeps : ∀ wallet, KeepsSuspended env now db wallet)
    (wallets : List String) (hs : Refreshing env now db s) :
    Secures (Refreshing env now db) (fun _ => Refreshing env now db) (Refreshing env now db)
      (refreshWallets env now wallets) s := by
  induction wallets generalizing s with
  | nil => exact secures_pure hs
  | cons wallet rest ih =>
    refine (secures_refreshWallet (hKeeps wallet) hs).bind ?_
    intro _ t ht
    exact (ih ht).bind fun _ _ hu => secures_pure hu

/- A pass changes nothing or goes on from the cleared rows. -/
theorem attempt_cleanUp (hKeeps : ∀ wallet, KeepsSuspended env now db wallet) (os : List Outcome) :
    (clearExpiredFlashLoanViolations env now).attempt os db = db ∨ Refreshing env now db
      ((clearExpiredFlashLoanViolations env now).attempt os db) := by
  unfold clearExpiredFlashLoanViolations
  rw [attempt_query_bind]
  split
  · split
    · left
      exact attempt_ret _ _ _
    · have hCleared :
          Refreshing env now db { db with
              flashLoanViolation :=
                db.flashLoanViolation.updateMany (fun row => key row ∈
                  (expiredViolations env now db).map key)
                  (fun row => { row with clearedAt := some now })
                  (fun _ => rfl) } := by
        refine ⟨?_, fun wallet => ?_⟩
        · apply List.map_congr_left
          intro row _
          unfold clearRow
          simp only [decide_eq_true_eq]
        · cases db.flashLoanGuardStatus.find? wallet with
          | none => exact .none
          | some status => exact .some ⟨rfl, .inl ⟨rfl, rfl⟩⟩
      rw [attempt_execute_bind rfl]
      split
      · right
        exact ((secures_refreshWallets hKeeps _ hCleared).bind (R := fun _ _ => True)
          fun _ _ _ => secures_pure trivial).attempt hCleared _
      · exact .inr hCleared
      · exact .inl rfl
  · exact .inl rfl

/- A pass that clears all expired violations lifts no more. -/
theorem keepsSuspended_of_fits
    (hFits : db.flashLoanViolation.rows.countP (fun row => row.clearedAt = none ∧
      row.occurredAt < getCooldownCutoff env now) ≤ cleanupBatchSize)
    (walletAddress : String) :
    KeepsSuspended env now db walletAddress := by
  have hAll : ∀ row ∈ db.flashLoanViolation.rows, row.clearedAt = none →
      row.occurredAt < getCooldownCutoff env now →
      row ∈ expiredViolations env now db := by
    intro row hRow hUncleared hExpired
    unfold expiredViolations
    rw [List.take_of_length_le]
    · exact List.mem_filter.mpr ⟨(env.scan_perm _).mem_iff.mpr hRow,
        decide_eq_true ⟨hUncleared, hExpired⟩⟩
    · rw [← List.countP_eq_length_filter, (env.scan_perm _).countP_eq]
      exact hFits
  intro _ status _ hThreshold
  by_contra hLiftable
  rw [Bool.not_eq_false] at hLiftable
  have hBelow := (of_decide_eq_true hLiftable).2.1
  have hCount : windowCount env walletAddress (clearedRows env now db) ≤
      (clearedRows env now db).countP fun row => row.walletAddress = walletAddress ∧
        row.clearedAt = none ∧
        getCooldownCutoff env now ≤ row.occurredAt := by
    unfold windowCount
    cases latestViolation walletAddress (clearedRows env now db) with
    | none => exact Nat.zero_le _
    | some latest =>
      rw [Option.elim_some]
      apply List.countP_mono_left
      intro row hRow hCounted
      rcases List.mem_map.mp hRow with ⟨old, hOld, rfl⟩
      simp only [decide_eq_true_iff, clearRow_walletAddress,
        clearRow_occurredAt, clearRow_clearedAt_eq_none_iff] at hCounted ⊢
      refine ⟨hCounted.1, hCounted.2.1, ?_⟩
      by_contra hExpired
      exact hCounted.2.1.1 (List.mem_map_of_mem (hAll old hOld hCounted.2.1.2 (not_le.mp hExpired)))
  exact absurd (hThreshold.trans hCount) (not_le.mpr hBelow)

end

-- Crossings That Are Noticed
----

variable {env : FlashLoanEnv} {world world' : FlashLoanWorld} {move : FlashLoanMove}

/- Below the threshold, the alerts of a wallet are the quiet ones. -/
structure FlashLoanWorld.Upheld (env : FlashLoanEnv) (world : FlashLoanWorld) : Prop where
  quiet : ∀ walletAddress, windowCount env walletAddress world.db.flashLoanViolation.rows <
    env.FLASH_LOAN_VIOLATION_THRESHOLD → world.quiet walletAddress =
    world.db.alertCount walletAddress
  noticed : CrossingsNoticed env world

/- A wallet that is at the threshold after a change of the store. -/
def NoticedBy (env : FlashLoanEnv) (s t : FlashLoanDb) (walletAddress : String) : Prop :=
  (env.FLASH_LOAN_AUTO_SUSPEND_ENABLED = true → t.isSuspended walletAddress = true) ∧
  s.alertCount walletAddress ≤ t.alertCount walletAddress ∧
  (windowCount env walletAddress s.flashLoanViolation.rows < env.FLASH_LOAN_VIOLATION_THRESHOLD →
    s.alertCount walletAddress < t.alertCount walletAddress)

theorem FlashLoanWorld.Upheld.step_of (hUpheld : world.Upheld env)
    (hNoticed : ∀ walletAddress, env.FLASH_LOAN_VIOLATION_THRESHOLD ≤ windowCount env walletAddress
      (move.after env world.db).flashLoanViolation.rows →
      NoticedBy env world.db (move.after env world.db) walletAddress)
    (hStep : world.step env move = some world') :
    world'.Upheld env := by
  cases hStep
  constructor
  · intro walletAddress hBelow
    exact if_pos hBelow
  · intro walletAddress hThreshold
    dsimp only at hThreshold ⊢
    rcases hNoticed walletAddress hThreshold with ⟨hSuspended, hKept, hNew⟩
    refine ⟨?_, hSuspended⟩
    rw [if_neg (not_lt.mpr hThreshold)]
    by_cases hBefore :
      windowCount env walletAddress world.db.flashLoanViolation.rows <
        env.FLASH_LOAN_VIOLATION_THRESHOLD
    · rw [hUpheld.quiet walletAddress hBefore]
      exact hNew hBefore
    · exact ((hUpheld.noticed walletAddress (not_lt.mp hBefore)).1).trans_le hKept

variable {t : FlashLoanDb} {walletAddress : String}

theorem NoticedBy.of_sameTables {s t' : FlashLoanDb} (hSame : SameTables t' t)
    (hNoticed : NoticedBy env s t walletAddress) :
    NoticedBy env s t' walletAddress := by
  unfold NoticedBy FlashLoanDb.isSuspended FlashLoanDb.alertCount at hNoticed ⊢
  rw [hSame.statuses]
  exact hNoticed

theorem noticedBy_of_status (hUpheld : world.Upheld env)
    (hBefore : env.FLASH_LOAN_VIOLATION_THRESHOLD ≤ windowCount env walletAddress
      world.db.flashLoanViolation.rows) (hStatus : t.flashLoanGuardStatus.find? walletAddress =
      world.db.flashLoanGuardStatus.find? walletAddress) :
    NoticedBy env world.db t walletAddress := by
  have hNoticed := hUpheld.noticed walletAddress hBefore
  unfold NoticedBy FlashLoanDb.isSuspended FlashLoanDb.alertCount
  rw [hStatus]
  exact ⟨hNoticed.2, le_rfl, fun hBelow => absurd hBefore (not_le.mpr hBelow)⟩

variable {violation : FlashLoanViolation} {db : FlashLoanDb}

theorem noticedBy_record (hUpheld : world.Upheld env)
    (hCreate : createViolation violation world.db = .ok ((), db))
    (hOwn : env.FLASH_LOAN_VIOLATION_THRESHOLD ≤ windowCount env violation.walletAddress
      db.flashLoanViolation.rows → env.FLASH_LOAN_VIOLATION_THRESHOLD ≤
      windowCount env violation.walletAddress world.db.flashLoanViolation.rows)
    (hThreshold : env.FLASH_LOAN_VIOLATION_THRESHOLD ≤ windowCount env walletAddress
      db.flashLoanViolation.rows) :
    NoticedBy env world.db db walletAddress := by
  rcases rows_createViolation hCreate with ⟨hRows, hStatus⟩
  refine noticedBy_of_status hUpheld ?_ (by rw [hStatus])
  by_cases hWallet : violation.walletAddress = walletAddress
  · subst hWallet
    exact hOwn hThreshold
  · rw [hRows, windowCount_append_other hWallet] at hThreshold
    exact hThreshold

variable {now : ℤ}

theorem noticedBy_evaluated (hUpheld : world.Upheld env)
    (hCreate : createViolation violation world.db = .ok ((), db))
    (hHigher : windowCount env violation.walletAddress world.db.flashLoanViolation.rows <
      env.FLASH_LOAN_VIOLATION_THRESHOLD → env.FLASH_LOAN_VIOLATION_THRESHOLD ≤
      windowCount env violation.walletAddress db.flashLoanViolation.rows →
      world.db.lastAlerted violation.walletAddress < countViolations violation.walletAddress
        (getCooldownCutoff env violation.occurredAt) db)
    (hThreshold : env.FLASH_LOAN_VIOLATION_THRESHOLD ≤ windowCount env walletAddress
      db.flashLoanViolation.rows) :
    NoticedBy env world.db (evaluated env violation now db) walletAddress := by
  rcases rows_createViolation hCreate with ⟨hRows, hStatus⟩
  by_cases hWallet : violation.walletAddress = walletAddress
  · subst hWallet
    have hBreached : (readingOf env violation now db).breached env = true :=
      decide_eq_true (hThreshold.trans (windowCount_le_countViolations hCreate))
    have hAlerts : world.db.alertCount violation.walletAddress =
        db.alertCount violation.walletAddress := by
      unfold FlashLoanDb.alertCount
      rw [hStatus]
    refine ⟨fun hAuto => isSuspended_evaluated hAuto hBreached, ?_, ?_⟩
    · rw [hAlerts]
      exact alertCount_le_evaluated _
    · intro hBelow
      rw [hAlerts]
      apply alertCount_lt_evaluated hBreached
      have hLast := hHigher hBelow hThreshold
      unfold FlashLoanDb.lastAlerted at hLast ⊢
      rw [hStatus]
      exact hLast
  · refine noticedBy_of_status hUpheld ?_ ?_
    · rw [hRows, windowCount_append_other hWallet] at hThreshold
      exact hThreshold
    · rw [find?_evaluated_other (Ne.symm hWallet), hStatus]

variable {outcomes : List Outcome}

theorem upheld_deliver {event : FlashLoanGuardTriggeredEvent} (hUpheld : world.Upheld env)
    (hNotices : Notices env world (.deliver event now outcomes))
    (hStep : world.step env (.deliver event now outcomes) = some world') :
    world'.Upheld env := by
  apply hUpheld.step_of ?_ hStep
  intro walletAddress hThreshold
  change NoticedBy env world.db ((processFlashLoanGuardEvent env now event).attempt
    outcomes world.db) walletAddress
  change env.FLASH_LOAN_VIOLATION_THRESHOLD ≤ windowCount env walletAddress
    ((processFlashLoanGuardEvent env now event).attempt
      outcomes world.db).flashLoanViolation.rows at hThreshold
  by_cases hIdle :
    event.eventType = flashLoanGuardEventType → ∀ violation ∈ violationOf env now event, ∀ db',
      createViolation violation world.db ≠ .ok ((), db')
  · have hSame := attempt_process_idle hIdle outcomes
    rw [hSame.violations] at hThreshold
    exact .of_sameTables hSame (noticedBy_of_status hUpheld hThreshold rfl)
  · push Not at hIdle
    rcases hIdle with ⟨hType, violation, hViolation, db, hCreate⟩
    have hSame := attempt_process_new hType hViolation hCreate outcomes
    have hCondition := hNotices hType violation hViolation db hCreate
    rw [hSame.violations] at hThreshold
    refine .of_sameTables hSame ?_
    split at hThreshold
    · rename_i hRecorded
      rw [if_pos hRecorded]
      split at hThreshold
      · rename_i hEvaluates
        rw [if_pos hEvaluates]
        rw [rows_evaluated] at hThreshold
        exact noticedBy_evaluated hUpheld hCreate (fun hBelow hAbove =>
          (hCondition hRecorded hBelow hAbove).2)
          hThreshold
      · rename_i hCut
        rw [if_neg hCut]
        refine noticedBy_record hUpheld hCreate ?_ hThreshold
        intro hAbove
        by_contra hBelow
        exact hCut (hCondition hRecorded (not_le.mp hBelow) hAbove).1
    · rename_i hNot
      rw [if_neg hNot]
      exact noticedBy_of_status hUpheld hThreshold rfl

theorem upheld_cleanUp (hUpheld : world.Upheld env)
    (hNotices : Notices env world (.cleanUp now outcomes))
    (hStep : world.step env (.cleanUp now outcomes) = some world') :
    world'.Upheld env := by
  apply hUpheld.step_of ?_ hStep
  intro walletAddress hThreshold
  change NoticedBy env world.db ((clearExpiredFlashLoanViolations env now).attempt
    outcomes world.db) walletAddress
  change env.FLASH_LOAN_VIOLATION_THRESHOLD ≤ windowCount env walletAddress
    ((clearExpiredFlashLoanViolations env now).attempt
      outcomes world.db).flashLoanViolation.rows at hThreshold
  rcases attempt_cleanUp hNotices outcomes with hNothing | hRefreshing
  · rw [hNothing] at hThreshold ⊢
    exact noticedBy_of_status hUpheld hThreshold rfl
  · rw [hRefreshing.rows] at hThreshold
    have hBefore := hThreshold.trans (windowCount_clearedRows_le walletAddress)
    have hNoticed := hUpheld.noticed walletAddress hBefore
    have hRel := hRefreshing.statuses walletAddress
    unfold NoticedBy FlashLoanDb.isSuspended FlashLoanDb.alertCount
    unfold FlashLoanDb.isSuspended FlashLoanDb.alertCount at hNoticed
    generalize ((clearExpiredFlashLoanViolations env now).attempt outcomes
      world.db).flashLoanGuardStatus.find? walletAddress = new at hRel ⊢
    cases hOld : world.db.flashLoanGuardStatus.find? walletAddress with
    | none =>
      rw [hOld] at hNoticed
      cases hNoticed.1
    | some old =>
      rw [hOld] at hRel hNoticed
      cases hRel with
      | some hRefreshed =>
        rcases hRefreshed with ⟨hAlerts, hSuspension⟩
        refine ⟨fun hAuto => ?_, hAlerts.ge, fun hBelow => absurd hBefore (not_le.mpr hBelow)⟩
        rcases hSuspension with ⟨hSame, -⟩ | ⟨-, hBelow⟩
        · rw [Option.any_some, hSame]
          exact hNoticed.2 hAuto
        · have hKey : old.walletAddress = walletAddress := Table.key_of_find? hOld
          rw [hKey] at hBelow
          exact absurd hThreshold (not_le.mpr (hBelow hAuto))

/-
  In every run whose deliveries and passes meet the condition,
  each wallet at the threshold has been noticed.
-/
theorem crossings_noticed {moves : List FlashLoanMove}
    (hRun : RunsTo (FlashLoanWorld.step env) (Notices env) .start moves world) :
    CrossingsNoticed env world := by
  have hUpheld : world.Upheld env := by
    refine hRun.invariant (I := (FlashLoanWorld.Upheld env ·)) ?_ ?_
    · constructor
      · exact fun _ _ => rfl
      · intro walletAddress hThreshold
        exact absurd env.threshold_pos (not_lt.mpr hThreshold)
    · intro before move after hBefore hNotices hStep
      cases move with
      | deliver event now outcomes => exact upheld_deliver hBefore hNotices hStep
      | cleanUp now outcomes => exact upheld_cleanUp hBefore hNotices hStep
  exact hUpheld.noticed

/- One violation within a day alerts and suspends. -/
def strictGuard : FlashLoanEnv where
  FLASH_LOAN_VIOLATION_THRESHOLD := 1
  FLASH_LOAN_AUTO_SUSPEND_ENABLED := true
  FLASH_LOAN_VIOLATION_COOLDOWN_HOURS := 24
  FLASH_LOAN_SUSPENSION_DURATION_HOURS := 0
  dateOf _ := none
  scan rows := rows
  threshold_pos := Nat.one_pos
  scan_perm _ := .refl _

def guardEvent (txHash : String) (occurredAt : ℤ) : FlashLoanGuardTriggeredEvent where
  toIndexerChainEvent := bareEvent "FLASH_LOAN_GUARD_TRIGGERED" txHash 0 1
  payload :=
    { walletAddress := some "G"
      keyId := none
      occurredAt := some (.date occurredAt) }

def allServed : List Outcome := List.replicate 12 .served

def hours (n : ℤ) : ℤ := n * millisecondsPerHour

/- A violation, and a pass a day later. -/
def violationAndPass : List FlashLoanMove :=
  [.deliver (guardEvent "t" 0) 0 allServed, .cleanUp (hours 25) allServed]

theorem crossings_noticed_sample :
    ∃ world, RunsTo (FlashLoanWorld.step strictGuard)
      (Notices strictGuard) .start violationAndPass world ∧ CrossingsNoticed strictGuard world ∧
      world.db.alertCount "G" = 1 := by
  have hDeliver : Notices strictGuard .start
      (.deliver (guardEvent "t" 0) 0 allServed) := by
    intro _ violation hViolation db hCreate _ _ _
    cases hViolation
    cases hCreate
    exact ⟨by decide, by decide⟩
  have hPass : Notices strictGuard ((FlashLoanWorld.start.step strictGuard
      (.deliver (guardEvent "t" 0) 0 allServed)).get rfl) (.cleanUp (hours 25) allServed) :=
    keepsSuspended_of_fits (by decide)
  have hRun :
      RunsTo (FlashLoanWorld.step strictGuard) (Notices strictGuard) .start violationAndPass _ :=
    (RunsTo.start.step hDeliver (Option.some_get rfl).symm).step hPass rfl
  exact ⟨_, hRun, crossings_noticed hRun, by decide⟩

/- The count of the first alert keeps the second from firing. -/
theorem second_crossing_unnoticed :
    ∃ world, RunsTo (FlashLoanWorld.step strictGuard) (fun _ _ => True) .start (violationAndPass ++
      [.deliver (guardEvent "u" (hours 26)) (hours 26) allServed]) world ∧
      ¬ CrossingsNoticed strictGuard world := by
  refine ⟨_, runsTo_of_runLabels rfl, ?_⟩
  intro hNoticed
  have hAlert := hNoticed "G" (by decide)
  exact absurd hAlert.1 (by decide)

end Indexer

end AccessLayer
