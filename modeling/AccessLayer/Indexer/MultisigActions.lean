import AccessLayer.Indexer.EventFields
import AccessLayer.Library.Attempts
import AccessLayer.Library.Json
import AccessLayer.Library.Phases

/-
  Multisig actions
  (`src/modules/indexer/multisig-action-indexer.service.ts`,
  `prisma/schema/multisig.prisma`).

  A batch hands its events to the handler one by one until one
  throws, so deliveries are sequences of single events.  An event
  that carries no time is given the time it is handled at.  How
  `Date` reads a text is left open.  Logs are left out.

  Main declaration: `handleMultisigEvent`
-/

-- Tables
----

namespace AccessLayer

namespace Indexer

open Transactional

section

open Program

structure MultisigAction where
  actionId : String
  changeType : String
  payload : Json
  status : String
  threshold : ℤ
  totalSigners : ℤ
  proposedBy : String
  proposedAt : ℤ
  executedAt : Option ℤ
  expiredAt : Option ℤ
  ledger : Option ℤ
  txHash : Option String

instance : Keyed MultisigAction String where
  key row := row.actionId

structure ActionSignature where
  actionId : String
  signer : String
  signedAt : ℤ
  ledger : Option ℤ
  txHash : Option String

instance : Keyed ActionSignature (String × String) where
  key row := (row.actionId, row.signer)

structure MultisigDb where
  multisigAction : Table MultisigAction
  signature : Table ActionSignature

def MultisigDb.empty : MultisigDb where
  multisigAction := .empty
  signature := .empty

inductive MultisigError where
  | database
  | validation
  | uniqueViolation
  | foreignKeyViolation
  deriving DecidableEq

abbrev MultisigM := Program MultisigDb MultisigError

end

-- Events
----

section

structure MultisigFields where
  actionId : Option String
  changeType : Option String
  actionType : Option String
  payload : Option Json
  params : Option Json
  threshold : Option ℚ
  totalSigners : Option ℚ
  proposedBy : Option String
  signer : Option String
  status : Option String
  proposedAt : Option String
  signedAt : Option String
  executedAt : Option String
  expiredAt : Option String
  occurredAt : Option String

abbrev MultisigChainEvent := PipelineEvent MultisigFields

/- How `Date` reads a text, where it can. -/
structure MultisigEnv where
  dateOf : String → Option ℤ

/- The texts of the three types in capitals. -/
def normalizedType (event : MultisigChainEvent) : String :=
  String.ofList (event.eventType.toUpper.toList.filter (· ≠ '_'))

/- What a column of integers takes. -/
def intColumn (value : ℚ) : Except MultisigError ℤ :=
  if value.isInt ∧ -2147483648 ≤ value ∧ value ≤ 2147483647 then
    .ok value.num
  else .error .validation

def ledgerColumn (event : MultisigChainEvent) : Except MultisigError (Option ℤ) :=
  match event.ledger with
  | none => .ok none
  | some ledger => (intColumn ledger).map some

/- The first time that is given; `none` stands for now. -/
def timestampOf (env : MultisigEnv) (fields : List (Option String)) :
    Except MultisigError (Option ℤ) :=
  match fields.findSome? present with
  | none => .ok none
  | some text =>
    match env.dateOf text with
    | none => .error .validation
    | some time => .ok (some time)

structure ProposedAction where
  actionId : String
  changeType : String
  payload : Json
  threshold : ℤ
  totalSigners : ℤ
  proposedBy : String
  proposedAt : Option ℤ
  ledger : Option ℤ
  txHash : Option String

structure SignedAction where
  actionId : String
  signer : String
  signedAt : Option ℤ
  ledger : Option ℤ
  txHash : Option String

/- The end of an action, by whatever status. -/
structure FinishedAction where
  actionId : String
  status : String
  time : Option ℤ

inductive MultisigChange where
  | proposed (action : ProposedAction)
  | signed (action : SignedAction)
  | finished (action : FinishedAction)

variable (env : MultisigEnv)

def proposedOf (event : MultisigChainEvent) : Except MultisigError (Option MultisigChange) :=
  let fields := event.payload
  match present fields.actionId, present fields.proposedBy with
  | some actionId, some proposedBy => do
    let proposedAt ← timestampOf env [fields.proposedAt, fields.occurredAt]
    let threshold ← intColumn (fields.threshold.getD 2)
    let totalSigners ← intColumn (fields.totalSigners.getD 3)
    let ledger ← ledgerColumn event
    return some (.proposed {
      actionId
      changeType := ((present fields.changeType).or (present fields.actionType)).getD "general"
      payload := (fields.payload.or fields.params).getD (.object [])
      threshold
      totalSigners
      proposedBy
      proposedAt
      ledger
      txHash := present (some event.txHash) })
  | _, _ => .ok none

def signedOf (event : MultisigChainEvent) : Except MultisigError (Option MultisigChange) :=
  let fields := event.payload
  match present fields.actionId, present fields.signer with
  | some actionId, some signer => do
    let signedAt ← timestampOf env [fields.signedAt, fields.occurredAt]
    let ledger ← ledgerColumn event
    return some (.signed {
      actionId
      signer
      signedAt
      ledger
      txHash := present (some event.txHash) })
  | _, _ => .ok none

/- Statuses that are written together with a time. -/
def timedStatuses : List String := ["executed", "expired"]

def finishedOf (event : MultisigChainEvent) : Except MultisigError (Option MultisigChange) :=
  let fields := event.payload
  match present fields.actionId with
  | some actionId =>
    let status := ((present fields.status).map String.toLower).getD "executed"
    if status ∈ timedStatuses then do
      let time ← timestampOf env [fields.executedAt, fields.expiredAt, fields.occurredAt]
      return some (.finished { actionId, status, time })
    else .ok (some (.finished { actionId, status, time := none }))
  | none => .ok none

/-
  The change that an event stands for.  Events of other types,
  and events that miss a required field, are skipped.
-/
def changeOf (event : MultisigChainEvent) : Except MultisigError (Option MultisigChange) :=
  if normalizedType event = "ACTIONPROPOSED" then
    proposedOf env event
  else if normalizedType event = "ACTIONSIGNED" then
    signedOf env event
  else if normalizedType event = "ACTIONEXECUTED" then
    finishedOf env event
  else .ok none

end

-- Handlers
----

section

open Program

def ProposedAction.row (action : ProposedAction) (now : ℤ) : MultisigAction where
  actionId := action.actionId
  changeType := action.changeType
  payload := action.payload
  status := "pending"
  threshold := action.threshold
  totalSigners := action.totalSigners
  proposedBy := action.proposedBy
  proposedAt := action.proposedAt.getD now
  executedAt := none
  expiredAt := none
  ledger := action.ledger
  txHash := action.txHash

def SignedAction.row (action : SignedAction) (now : ℤ) : ActionSignature where
  actionId := action.actionId
  signer := action.signer
  signedAt := action.signedAt.getD now
  ledger := action.ledger
  txHash := action.txHash

/- The status of an action and when it was reached. -/
structure ActionOutcome where
  status : String
  executedAt : Option ℤ
  expiredAt : Option ℤ
  deriving DecidableEq

def ActionOutcome.pending : ActionOutcome where
  status := "pending"
  executedAt := none
  expiredAt := none

def MultisigAction.outcome (row : MultisigAction) : ActionOutcome where
  status := row.status
  executedAt := row.executedAt
  expiredAt := row.expiredAt

namespace FinishedAction

variable (action : FinishedAction)

/- A column that is not given is left as it is. -/
def finish (now : ℤ) (outcome : ActionOutcome) : ActionOutcome where
  status := action.status
  executedAt :=
    if action.status = "executed" then
      some (action.time.getD now)
    else outcome.executedAt
  expiredAt :=
    if action.status = "expired" then
      some (action.time.getD now)
    else outcome.expiredAt

def update (now : ℤ) (row : MultisigAction) : MultisigAction :=
  let outcome := action.finish now row.outcome
  { row with
    status := outcome.status
    executedAt := outcome.executedAt
    expiredAt := outcome.expiredAt }

theorem key_update (now : ℤ) (row : MultisigAction) : key (action.update now row) = key row := rfl

end FinishedAction

def createSignature (row : ActionSignature)
    (db : MultisigDb) : Except MultisigError (Unit × MultisigDb) :=
  match db.signature.insert? row with
  | none => .error .uniqueViolation
  | some signature =>
    match db.multisigAction.find? row.actionId with
    | none => .error .foreignKeyViolation
    | some _ => .ok ((), { db with signature })

def MultisigChange.write (now : ℤ) (db : MultisigDb) :
    MultisigChange → Except MultisigError (Unit × MultisigDb)
  | .proposed action =>
    .ok ((), { db with
          multisigAction := db.multisigAction.upsert (action.row now) id fun _ => rfl })
  | .signed action => createSignature (action.row now) db
  | .finished action =>
    .ok ((), { db with
          multisigAction :=
            db.multisigAction.updateMany (·.actionId = action.actionId)
              (action.update now) (action.key_update now) })

/- A row that is there already has been written before. -/
def skipReplay (error : MultisigError) : MultisigM Unit :=
  if error = .uniqueViolation then pure () else throw error

def handleMultisigEvent (env : MultisigEnv) (now : ℤ)
    (event : MultisigChainEvent) : MultisigM Unit :=
  match changeOf env event with
  | .error error => throw error
  | .ok none => pure ()
  | .ok (some change) => tryCatch (execute .database (change.write now ·)) skipReplay

end

-- Deliveries
----

section

open Program

/- One delivery of an event to its handler. -/
structure MultisigCall where
  event : MultisigChainEvent
  now : ℤ
  outcome : Outcome

/-
  The tables, the events whose statement has been executed, and
  those whose handler has returned.
-/
structure MultisigWorld where
  db : MultisigDb
  executed : List String
  returned : List String

def MultisigWorld.start : MultisigWorld where
  db := .empty
  executed := []
  returned := []

def returns : MultisigM Unit → Bool
  | .ret _ => true
  | _ => false

namespace MultisigWorld

variable (env : MultisigEnv) (world : MultisigWorld)

/- The world after the one statement of a handler. -/
def settle (call : MultisigCall) (after : MultisigDb × MultisigM Unit) : MultisigWorld where
  db := after.1
  executed :=
    if call.outcome = .rejected then world.executed
    else call.event.id :: world.executed
  returned :=
    if returns after.2 then call.event.id :: world.returned
    else world.returned

def deliver (call : MultisigCall) : MultisigWorld :=
  match handleMultisigEvent env call.now call.event with
  | .ret _ => { world with returned := call.event.id :: world.returned }
  | .raise _ => world
  | .stmt update next onFault => world.settle call (call.outcome.apply update next onFault world.db)

def step (call : MultisigCall) : Option MultisigWorld := some (world.deliver env call)

end MultisigWorld

/- Each event once, none of them failing. -/
def chainCalls (clock : MultisigChainEvent → ℤ)
    (events : List MultisigChainEvent) : List MultisigCall :=
  events.map fun event => { event, now := clock event, outcome := .served }

def chainOrder (env : MultisigEnv) (clock : MultisigChainEvent → ℤ)
    (events : List MultisigChainEvent) : MultisigWorld :=
  (chainCalls clock events).foldl (MultisigWorld.deliver env) .start

/- The same status, execution data and signers. -/
def SameAction (actionId : String) (db db' : MultisigDb) : Prop :=
  (db.multisigAction.find? actionId).map MultisigAction.outcome =
    (db'.multisigAction.find? actionId).map MultisigAction.outcome ∧ ∀ signer,
    (db.signature.find? (actionId, signer)).isSome =
      (db'.signature.find? (actionId, signer)).isSome

end

-- One Delivery
----

section

open Program

variable {env : MultisigEnv} {world : MultisigWorld} {call : MultisigCall}
variable {event : MultisigChainEvent} {change : MultisigChange} {error : MultisigError}

theorem handleMultisigEvent_eq_raise {now : ℤ} (hChange : changeOf env event = .error error) :
    handleMultisigEvent env now event = .raise error := by
  unfold handleMultisigEvent
  rw [hChange]
  rfl

theorem handleMultisigEvent_eq_ret {now : ℤ} (hChange : changeOf env event = .ok none) :
    handleMultisigEvent env now event = .ret () := by
  unfold handleMultisigEvent
  rw [hChange]
  rfl

theorem handleMultisigEvent_eq_stmt (hChange : changeOf env event = .ok (some change)) (now : ℤ) :
    handleMultisigEvent env now event = .stmt (written (change.write now ·)) (fun db =>
      match change.write now db with
      | .ok _ => .ret ()
      | .error error => skipReplay error)
      (.raise .database) := by
  unfold handleMultisigEvent
  rw [hChange]
  change (execute _ _).handle skipReplay = _
  unfold execute handle
  congr 1
  funext db
  cases hWrite : change.write now db with
  | ok answer =>
    simp only [hWrite]
    rfl
  | error error =>
    simp only [hWrite]
    rfl

/- The ways in which a delivery may go. -/
inductive MultisigWorld.Moved (env : MultisigEnv) (world : MultisigWorld)
    (call : MultisigCall) : MultisigWorld → Prop where
  | skipped (hNone : changeOf env call.event = .ok none) :
    Moved env world call { world with
        returned := call.event.id :: world.returned }
  | refused : Moved env world call world
  | executed {change : MultisigChange} {returned : List String}
    (hChange : changeOf env call.event = .ok (some change)) (hOutcome : call.outcome ≠ .rejected)
    (hReturned : returned = world.returned ∨ returned = call.event.id :: world.returned ∧ ∀ error,
      change.write call.now world.db = .error error → error = .uniqueViolation) :
    Moved env world call
      { db := written (change.write call.now ·) world.db
        executed := call.event.id :: world.executed
        returned }

theorem returns_skipReplay (h : returns (skipReplay error) = true) : error = .uniqueViolation := by
  unfold skipReplay at h
  split at h
  · assumption
  · cases h

theorem moved_served (hChange : changeOf env call.event = .ok (some change))
    (hServed : call.outcome = .served) :
    world.Moved env call (world.deliver env call) := by
  unfold MultisigWorld.deliver
  rw [handleMultisigEvent_eq_stmt hChange]
  simp only [MultisigWorld.settle, hServed, Outcome.apply]
  rw [if_neg (by decide)]
  cases hWrite : change.write call.now world.db with
  | ok answer =>
    refine .executed hChange (by simp [hServed]) (.inr ⟨rfl, ?_⟩)
    intro error hError
    cases hWrite.symm.trans hError
  | error error =>
    refine .executed hChange (by simp [hServed]) ?_
    dsimp only
    split
    · rename_i hReturns
      refine .inr ⟨rfl, ?_⟩
      intro error' hError
      cases hWrite.symm.trans hError
      exact returns_skipReplay hReturns
    · exact .inl rfl

theorem MultisigWorld.moved (env : MultisigEnv) (world : MultisigWorld) (call : MultisigCall) :
    world.Moved env call (world.deliver env call) := by
  cases hChange : changeOf env call.event with
  | error error =>
    unfold deliver
    rw [handleMultisigEvent_eq_raise hChange]
    exact .refused
  | ok found =>
    cases found with
    | none =>
      unfold deliver
      rw [handleMultisigEvent_eq_ret hChange]
      exact .skipped hChange
    | some change =>
      cases hOutcome : call.outcome with
      | served => exact moved_served hChange hOutcome
      | rejected =>
        unfold deliver
        rw [handleMultisigEvent_eq_stmt hChange]
        simp only [settle, hOutcome, Outcome.apply]
        exact .refused
      | lost =>
        unfold deliver
        rw [handleMultisigEvent_eq_stmt hChange]
        simp only [settle, hOutcome, Outcome.apply]
        exact .executed hChange (by simp [hOutcome]) (.inl rfl)

-- What Events Do to an Action
----

section

variable (env : MultisigEnv)

def Proposes (actionId : String) (event : MultisigChainEvent) : Prop :=
  ∃ action, changeOf env event = .ok (some (.proposed action)) ∧ action.actionId = actionId

def Signs (actionId signer : String) (event : MultisigChainEvent) : Prop :=
  ∃ action, changeOf env event = .ok (some (.signed action)) ∧
    action.actionId = actionId ∧ action.signer = signer

/- The end that an event brings to an action. -/
def finishedIn (actionId : String) (event : MultisigChainEvent) : Option FinishedAction :=
  match changeOf env event with
  | .ok (some (.finished action)) =>
    if action.actionId = actionId then some action else none
  | _ => none

def finals (actionId : String) (events : List MultisigChainEvent) : List MultisigChainEvent :=
  events.filter fun event => (finishedIn env actionId event).isSome

def progress (actionId : String) (outcome : ActionOutcome)
    (event : MultisigChainEvent) : ActionOutcome :=
  (finishedIn env actionId event).elim outcome fun action => action.finish 0 outcome

def Proposed (events : List MultisigChainEvent) (actionId : String) : Prop :=
  ∃ event ∈ events, Proposes env actionId event

end

/- It carries the time it is written with. -/
def FinishedAction.Timed (action : FinishedAction) : Prop :=
  action.status ∈ timedStatuses → action.time.isSome

variable {env : MultisigEnv} {actionId : String} {event : MultisigChainEvent}
variable {action : FinishedAction}

theorem finishedIn_eq_some_iff :
    finishedIn env actionId event = some action ↔
      changeOf env event = .ok (some (.finished action)) ∧ action.actionId = actionId := by
  unfold finishedIn
  split
  · rename_i found hFound
    rw [hFound]
    split
    · rename_i hSame
      constructor
      · rintro ⟨⟩
        exact ⟨rfl, hSame⟩
      · rintro ⟨hEq, -⟩
        cases hEq
        rfl
    · rename_i hOther
      constructor
      · intro h
        cases h
      · rintro ⟨hEq, hSame⟩
        cases hEq
        exact absurd hSame hOther
  · rename_i hNot
    constructor
    · intro h
      cases h
    · rintro ⟨hEq, -⟩
      exact absurd hEq (hNot action)

theorem finish_finish (action : FinishedAction) (now : ℤ) (outcome : ActionOutcome) :
    action.finish now (action.finish now outcome) = action.finish now outcome := by
  unfold FinishedAction.finish
  congr 1 <;> (dsimp only; split <;> rfl)

theorem progress_progress (outcome : ActionOutcome) (event : MultisigChainEvent) :
    progress env actionId (progress env actionId outcome event) event =
      progress env actionId outcome event := by
  unfold progress
  cases finishedIn env actionId event with
  | none => rfl
  | some action => exact finish_finish action 0 outcome

/- A time that is given does not depend on the clock. -/
theorem FinishedAction.Timed.finish_eq (hTimed : action.Timed) (now : ℤ) (outcome : ActionOutcome) :
    action.finish now outcome = action.finish 0 outcome := by
  have hTime : action.status ∈ timedStatuses →
      action.time.getD now = action.time.getD 0 := by
    intro hStatus
    rcases Option.isSome_iff_exists.mp (hTimed hStatus) with ⟨time, hTime⟩
    rw [hTime]
    rfl
  unfold finish
  congr 1
  · split
    · rename_i hExecuted
      rw [hTime (by rw [hExecuted]; decide)]
    · rfl
  · split
    · rename_i hExpired
      rw [hTime (by rw [hExpired]; decide)]
    · rfl

end

-- What Is Written
----

open Program

variable {now : ℤ} {db : MultisigDb}

theorem find?_written_proposed (action : ProposedAction) (actionId : String) :
    (written (MultisigChange.write now · (.proposed action)) db).multisigAction.find? actionId =
      if actionId = action.actionId then
        some ((db.multisigAction.find? actionId).getD (action.row now))
      else db.multisigAction.find? actionId := by
  change (db.multisigAction.upsert _ _ _).find? actionId = _
  rw [Table.find?_upsert]
  change (if actionId = action.actionId then _ else _) = _
  cases db.multisigAction.find? actionId with
  | none => rfl
  | some row => rfl

theorem find?_written_finished (action : FinishedAction) (actionId : String) :
    (written (MultisigChange.write now · (.finished action)) db).multisigAction.find? actionId =
      (db.multisigAction.find? actionId).map fun row =>
        if actionId = action.actionId then action.update now row
        else row := by
  change (db.multisigAction.updateMany _ (action.update now)
    (action.key_update now)).find? actionId = _
  rw [Table.find?_updateMany]
  cases hRow : db.multisigAction.find? actionId with
  | none => rfl
  | some row =>
    have hKey : row.actionId = actionId := Table.key_of_find? hRow
    simp [hKey]

theorem written_signed (action : SignedAction) :
    written (MultisigChange.write now · (.signed action)) db = db ∧ (∀ error,
      MultisigChange.write now db (.signed action) = .error error → error = .uniqueViolation →
        ∃ row, db.signature.find? (action.actionId, action.signer) = some row) ∧ (∃ error,
      MultisigChange.write now db (.signed action) = .error error) ∨
      (∃ row, db.multisigAction.find? action.actionId = some row) ∧ ∃ signature,
        db.signature.insert? (action.row now) = some signature ∧
        MultisigChange.write now db (.signed action) = .ok ((), { db with signature }) := by
  unfold written
  simp only [MultisigChange.write, createSignature]
  cases hInsert : db.signature.insert? (action.row now) with
  | none =>
    refine .inl ⟨rfl, ?_, _, rfl⟩
    rintro _ _ -
    exact Table.exists_of_insert?_eq_none hInsert
  | some signature =>
    have hId : (action.row now).actionId = action.actionId := rfl
    rw [hId]
    cases hRow : db.multisigAction.find? action.actionId with
    | none =>
      refine .inl ⟨rfl, ?_, _, rfl⟩
      rintro _ ⟨⟩ ⟨⟩
    | some row => exact .inr ⟨⟨row, rfl⟩, signature, rfl, rfl⟩

end Indexer

end AccessLayer
