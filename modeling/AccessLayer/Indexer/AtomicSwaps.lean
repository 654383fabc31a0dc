import AccessLayer.Indexer.Dividends
import AccessLayer.Indexer.EventFields

/-
  Atomic swaps
  (`src/modules/indexer/atomic-swap-indexer.service.ts`).

  A field that is looked up under several names is one field, and
  a ledger that is no number is absent.  Logs are left out.

  Main result: `swap_converges_iff`
-/

-- Events
----

namespace AccessLayer

namespace Indexer

open Transactional

section

open Program

/- An expiry is a number, which may be a duration, or a date. -/
inductive SwapExpiry where
  | number (value : Int)
  | date (date : EventDate)
  deriving DecidableEq

structure SwapFields where
  swapId : Option String
  proposer : Option String
  counterparty : Option String
  offeredKey : Option String
  offeredAmount : Option String
  requestedKey : Option String
  requestedAmount : Option String
  expiry : Option SwapExpiry
  timestamp : Option EventDate
  executor : Option String
  canceller : Option String
  deriving DecidableEq

abbrev SwapEvent := PipelineEvent SwapFields

inductive SwapKind where
  | proposed
  | executed
  | cancelled
  deriving DecidableEq

/- The handler that an event goes to. -/
def swapKind (eventType : String) : Option SwapKind :=
  if eventType ∈ ["SwapProposed", "SWAP_PROPOSED", "swap_proposed"] then
    some .proposed
  else if eventType ∈ ["SwapExecuted", "SWAP_EXECUTED", "swap_executed"] then
    some .executed
  else if eventType ∈ ["SwapCancelled", "SWAP_CANCELLED", "swap_cancelled"] then
    some .cancelled
  else none

/- One hour. -/
def defaultSwapExpiryMs : Int := 60 * 60 * 1000

/- A date that is absent or invalid gives way to the fallback. -/
def parseTimestamp (raw : Option EventDate) (fallback : Int) : Int :=
  (raw.bind EventDate.parsed).getD fallback

/- A small number is a duration in seconds. -/
def swapExpiresAt (expiry : Option SwapExpiry) (proposedAt : Int) : Int :=
  match expiry with
  | some (.number value) =>
    if value ≤ 86400 * 365 then proposedAt + value * 1000
    else if value < 10000000000 then value * 1000
    else value
  | some (.date date) => parseTimestamp (some date) (proposedAt + defaultSwapExpiryMs)
  | none => proposedAt + defaultSwapExpiryMs

structure ProposedSwap where
  swapId : String
  proposer : String
  counterparty : String
  offeredKey : String
  offeredAmount : String
  requestedKey : String
  requestedAmount : String
  expiresAt : Int
  proposedAt : Int
  ledger : Int
  txHash : String
  eventIndex : Nat
  deriving DecidableEq

/- `now` is the time at which the event is handled. -/
def normalizeSwapProposedEvent (now : Int) (event : SwapEvent) : Option ProposedSwap := do
  let swapId ← textField event.payload.swapId
  let proposer ← textField event.payload.proposer
  let counterparty ← textField event.payload.counterparty
  let offeredKey ← textField event.payload.offeredKey
  let offeredAmount ← textField event.payload.offeredAmount
  let requestedKey ← textField event.payload.requestedKey
  let requestedAmount ← textField event.payload.requestedAmount
  let txHash ← textField (some event.txHash)
  let ledger ← event.ledger
  let proposedAt := parseTimestamp event.payload.timestamp now
  some {
    swapId
    proposer
    counterparty
    offeredKey
    offeredAmount
    requestedKey
    requestedAmount
    expiresAt := swapExpiresAt event.payload.expiry proposedAt
    proposedAt
    ledger
    txHash
    eventIndex := event.eventIndex }

/- An execution or a cancellation. -/
structure ClosedSwap where
  swapId : String
  ledger : Int
  txHash : String
  closedAt : Int
  eventIndex : Nat
  deriving DecidableEq

def normalizeClosedEvent (now : Int) (event : SwapEvent) : Option ClosedSwap := do
  let swapId ← textField event.payload.swapId
  let txHash ← textField (some event.txHash)
  let ledger ← event.ledger
  some {
    swapId
    ledger
    txHash
    closedAt := parseTimestamp event.payload.timestamp now
    eventIndex := event.eventIndex }

def normalizeSwapExecutedEvent : Int → SwapEvent → Option ClosedSwap := normalizeClosedEvent

def normalizeSwapCancelledEvent : Int → SwapEvent → Option ClosedSwap := normalizeClosedEvent

-- Rows
----

/- What a swap is about, and how it stands. -/
structure SwapTerms where
  proposer : String
  counterparty : String
  offeredKey : String
  offeredAmount : String
  requestedKey : String
  requestedAmount : String
  status : SwapStatus
  ledger : Int
  deriving DecidableEq

structure SwapRow extends AtomicSwap where
  proposer : String
  counterparty : String
  offeredKey : String
  offeredAmount : String
  requestedKey : String
  requestedAmount : String
  proposedAt : Int
  executedAt : Option Int
  cancelledAt : Option Int
  ledger : Int
  txHash : String

instance : Keyed SwapRow String where
  key row := row.swapId

namespace SwapRow

def terms (row : SwapRow) : SwapTerms where
  proposer := row.proposer
  counterparty := row.counterparty
  offeredKey := row.offeredKey
  offeredAmount := row.offeredAmount
  requestedKey := row.requestedKey
  requestedAmount := row.requestedAmount
  status := row.status
  ledger := row.ledger

def expire (asOf : Int) (row : SwapRow) : SwapRow :=
  { row with
    toAtomicSwap := row.toAtomicSwap.expire asOf }

theorem swapId_expire (asOf : Int) (row : SwapRow) : (row.expire asOf).swapId = row.swapId := by
  unfold expire AtomicSwap.expire
  split <;> rfl

end SwapRow

def ProposedSwap.row (proposed : ProposedSwap) : SwapRow where
  swapId := proposed.swapId
  status := .pending
  expiresAt := proposed.expiresAt
  proposer := proposed.proposer
  counterparty := proposed.counterparty
  offeredKey := proposed.offeredKey
  offeredAmount := proposed.offeredAmount
  requestedKey := proposed.requestedKey
  requestedAmount := proposed.requestedAmount
  proposedAt := proposed.proposedAt
  executedAt := none
  cancelledAt := none
  ledger := proposed.ledger
  txHash := proposed.txHash

/- What tells executions and cancellations apart. -/
structure Closing where
  status : SwapStatus
  proposer : SwapEvent → String
  counterparty : SwapEvent → String
  executedAt : ClosedSwap → Option Int → Option Int
  cancelledAt : ClosedSwap → Option Int → Option Int

/- An execution ahead of its proposal knows its executor. -/
def executing : Closing where
  status := .executed
  proposer _ := "unknown"
  counterparty event := (present event.payload.executor).getD "unknown"
  executedAt closed _ := some closed.closedAt
  cancelledAt _ cancelledAt := cancelledAt

/- A cancellation ahead of its proposal knows its canceller. -/
def cancelling : Closing where
  status := .cancelled
  proposer event := (present event.payload.canceller).getD "unknown"
  counterparty _ := "unknown"
  executedAt _ executedAt := executedAt
  cancelledAt closed _ := some closed.closedAt

namespace Closing

variable (closing : Closing)

def close (closed : ClosedSwap) (row : SwapRow) : SwapRow :=
  { row with
    status := closing.status
    executedAt := closing.executedAt closed row.executedAt
    cancelledAt := closing.cancelledAt closed row.cancelledAt }

theorem key_close (closed : ClosedSwap) (row : SwapRow) :
    key (closing.close closed row) = key row := rfl

/- The row of a swap whose proposal has not arrived. -/
def placeholder (event : SwapEvent) (closed : ClosedSwap) : SwapRow where
  swapId := closed.swapId
  status := closing.status
  expiresAt := closed.closedAt
  proposer := closing.proposer event
  counterparty := closing.counterparty event
  offeredKey := "unknown"
  offeredAmount := "0"
  requestedKey := "unknown"
  requestedAmount := "0"
  proposedAt := closed.closedAt
  executedAt := closing.executedAt closed none
  cancelledAt := closing.cancelledAt closed none
  ledger := closed.ledger
  txHash := closed.txHash

end Closing

end

-- Handlers
----

namespace AtomicSwaps

open Program

structure SwapDb where
  atomicSwap : Table SwapRow

abbrev SwapM := Program SwapDb IndexerError

/- The keys of the events that a batch has handled. -/
abbrev Seen := Option (List String)

/- The composite key of an event. -/
def guardKey (txHash : String) (eventIndex : Nat) : String := txHash ++ ":" ++ toString eventIndex

def guardChainEvent (key : String) : Seen → Option Seen
  | none => some none
  | some seen =>
    if key ∈ seen then none else some (some (key :: seen))

def expireAll (asOf : Int) (t : Table SwapRow) : Table SwapRow :=
  t.updateMany (fun _ => true) (.expire asOf) (SwapRow.swapId_expire asOf)

/- A failure is logged, and nothing more. -/
def markExpiredSwaps (asOf : Int) : SwapM Unit :=
  tryCatch (execute .database fun db =>
    .ok ((), { db with atomicSwap := expireAll asOf db.atomicSwap }))
    (fun _ => pure ())

def createSwap (row : SwapRow) (db : SwapDb) : Except IndexerError (Unit × SwapDb) :=
  match db.atomicSwap.insert? row with
  | none => .error .uniqueViolation
  | some atomicSwap => .ok ((), { db with atomicSwap })

def closeSwap (closing : Closing) (closed : ClosedSwap)
    (db : SwapDb) : Except IndexerError (Unit × SwapDb) :=
  match db.atomicSwap.find? closed.swapId with
  | none => .error .recordNotFound
  | some _ =>
    .ok ((), { db with
          atomicSwap :=
            db.atomicSwap.update closed.swapId (closing.close closed) (closing.key_close closed) })

/- An existing row is not overwritten. -/
def recordProposal (proposed : ProposedSwap) (seen : Seen) : SwapM (Bool × Seen) := do
  let existing ← query .database fun db => (db.atomicSwap.find? proposed.swapId).isSome
  if existing then pure (false, seen)
  else do
    execute .database (createSwap proposed.row)
    markExpiredSwaps proposed.proposedAt
    pure (true, seen)

def processSwapProposedEvent (now : Int) (event : SwapEvent) (seen : Seen) : SwapM (Bool × Seen) :=
  match normalizeSwapProposedEvent now event with
  | none => pure (false, seen)
  | some proposed =>
    match guardChainEvent (guardKey proposed.txHash proposed.eventIndex) seen with
    | none => pure (false, seen)
    | some seen => recordProposal proposed seen

/- Close the row of a swap, or put a placeholder in its place. -/
def recordClosing (closing : Closing) (event : SwapEvent) (closed : ClosedSwap)
    (seen : Seen) : SwapM (Bool × Seen) := do
  let existing ← query .database fun db => (db.atomicSwap.find? closed.swapId).isSome
  if existing then
    execute .database (closeSwap closing closed)
  else
    execute .database (createSwap (closing.placeholder event closed))
  markExpiredSwaps closed.closedAt
  pure (true, seen)

def processClosedEvent (closing : Closing) (normalize : Int → SwapEvent → Option ClosedSwap)
    (now : Int) (event : SwapEvent) (seen : Seen) : SwapM (Bool × Seen) :=
  match normalize now event with
  | none => pure (false, seen)
  | some closed =>
    match guardChainEvent (guardKey closed.txHash closed.eventIndex) seen with
    | none => pure (false, seen)
    | some seen => recordClosing closing event closed seen

def processSwapExecutedEvent : Int → SwapEvent → Seen → SwapM (Bool × Seen) :=
  processClosedEvent executing normalizeSwapExecutedEvent

def processSwapCancelledEvent : Int → SwapEvent → Seen → SwapM (Bool × Seen) :=
  processClosedEvent cancelling normalizeSwapCancelledEvent

def processAtomicSwapEvent (now : Int) (event : SwapEvent) (seen : Seen) : SwapM (Bool × Seen) :=
  match swapKind event.eventType with
  | some .proposed => processSwapProposedEvent now event seen
  | some .executed => processSwapExecutedEvent now event seen
  | some .cancelled => processSwapCancelledEvent now event seen
  | none => pure (false, seen)

-- Actions
----

/- What a well-formed event asks for. -/
inductive SwapAction where
  | propose (proposed : ProposedSwap)
  | close (closing : Closing) (event : SwapEvent) (closed : ClosedSwap)

namespace SwapAction

def swapId : SwapAction → String
  | .propose proposed => proposed.swapId
  | .close _ _ closed => closed.swapId

def guardKey : SwapAction → String
  | .propose proposed => AtomicSwaps.guardKey proposed.txHash proposed.eventIndex
  | .close _ _ closed => AtomicSwaps.guardKey closed.txHash closed.eventIndex

/- What is left of the rows; the proposal of a row is skipped. -/
def apply (db : SwapDb) : SwapAction → SwapDb
  | .propose proposed =>
    match db.atomicSwap.insert? proposed.row with
    | none => db
    | some atomicSwap =>
      { db with
        atomicSwap := expireAll proposed.proposedAt atomicSwap }
  | .close closing event closed =>
    { db with
      atomicSwap :=
        expireAll closed.closedAt (db.atomicSwap.upsert (closing.placeholder event closed)
          (closing.close closed) (closing.key_close closed)) }

end SwapAction

def actionOf (now : Int) (event : SwapEvent) : Option SwapAction :=
  match swapKind event.eventType with
  | some .proposed => (normalizeSwapProposedEvent now event).map .propose
  | some .executed => (normalizeSwapExecutedEvent now event).map (.close executing event)
  | some .cancelled => (normalizeSwapCancelledEvent now event).map (.close cancelling event)
  | none => none

/- The action that the guard lets through, and what it has seen. -/
def accepted (now : Int) (event : SwapEvent) (seen : Seen) : Option (SwapAction × Seen) := do
  let action ← actionOf now event
  let seen ← guardChainEvent action.guardKey seen
  some (action, seen)

variable {db : SwapDb} {seen : Seen}

theorem run_recordProposal (proposed : ProposedSwap) :
    ∃ created, (recordProposal proposed seen).run db = (.ok (created, seen),
      (SwapAction.propose proposed).apply db) := by
  unfold recordProposal SwapAction.apply
  simp only [run_bind, run_query]
  cases hRow : db.atomicSwap.find? proposed.swapId with
  | some row =>
    have hInsert : db.atomicSwap.insert? proposed.row = none := by
      unfold Table.insert?
      rw [dif_neg]
      rw [show key proposed.row = proposed.swapId from rfl, hRow]
      exact Option.some_ne_none row
    rw [hInsert]
    exact ⟨false, rfl⟩
  | none =>
    have hFresh : db.atomicSwap.find? (key proposed.row) = none := hRow
    have hInsert :
        db.atomicSwap.insert? proposed.row = some (db.atomicSwap.create proposed.row hFresh) :=
      Table.insert?_of_fresh hFresh
    rw [hInsert]
    refine ⟨true, ?_⟩
    simp [createSwap, hInsert, markExpiredSwaps]

theorem run_recordClosing (closing : Closing) (event : SwapEvent) (closed : ClosedSwap) :
    (recordClosing closing event closed seen).run db = (.ok (true, seen),
      (SwapAction.close closing event closed).apply db) := by
  unfold recordClosing SwapAction.apply
  simp only [run_bind, run_query]
  have hKey : key (closing.placeholder event closed) = closed.swapId := rfl
  cases hRow : db.atomicSwap.find? closed.swapId with
  | some row =>
    simp [closeSwap, hRow, markExpiredSwaps, Table.upsert, hKey]
  | none =>
    have hFresh : db.atomicSwap.find? (key (closing.placeholder event closed)) = none := hRow
    have hInsert : db.atomicSwap.insert? (closing.placeholder event closed) =
        some (db.atomicSwap.create _ hFresh) :=
      Table.insert?_of_fresh hFresh
    simp [createSwap, hInsert, markExpiredSwaps, Table.upsert, hFresh]

/- Executions and cancellations differ in their texts alone. -/
theorem run_processClosedEvent (closing : Closing)
    (normalize : Int → SwapEvent → Option ClosedSwap) (now : Int) (event : SwapEvent) :
    match (do
      let action ← (normalize now event).map (SwapAction.close closing event)
      let seen ← guardChainEvent action.guardKey seen
      some (action, seen) : Option (SwapAction × Seen)) with
    | none => (processClosedEvent closing normalize now event seen).run db = (.ok (false, seen), db)
    | some (action, seen') =>
      ∃ changed, (processClosedEvent closing normalize now event seen).run db =
        (.ok (changed, seen'), action.apply db) := by
  unfold processClosedEvent
  cases normalize now event with
  | none => rfl
  | some closed =>
    dsimp only [Option.map_some, Option.bind_eq_bind, Option.bind_some, SwapAction.guardKey]
    cases guardChainEvent (guardKey closed.txHash closed.eventIndex) seen with
    | none => rfl
    | some seen' => exact ⟨true, run_recordClosing _ _ _⟩

theorem run_accepted (now : Int) (event : SwapEvent) :
    match accepted now event seen with
    | none => (processAtomicSwapEvent now event seen).run db = (.ok (false, seen), db)
    | some (action, seen') =>
      ∃ changed, (processAtomicSwapEvent now event seen).run db =
        (.ok (changed, seen'), action.apply db) := by
  unfold accepted actionOf processAtomicSwapEvent
  cases swapKind event.eventType with
  | none => rfl
  | some kind =>
    cases kind with
    | proposed =>
      unfold processSwapProposedEvent
      cases normalizeSwapProposedEvent now event with
      | none => rfl
      | some proposed =>
        dsimp only [Option.map_some, Option.bind_eq_bind, Option.bind_some, SwapAction.guardKey]
        cases guardChainEvent (guardKey proposed.txHash proposed.eventIndex) seen with
        | none => rfl
        | some seen' => exact run_recordProposal proposed
    | executed => exact run_processClosedEvent _ _ now event
    | cancelled => exact run_processClosedEvent _ _ now event

end AtomicSwaps

-- Rows After an Action
----

section

open Program

/- The same row, or the row after it has expired. -/
def SwapRow.Aged (row row' : SwapRow) : Prop := row' = row ∨ ∃ asOf, row' = row.expire asOf

namespace SwapRow.Aged

variable {row row' : SwapRow}

/- Time makes a pending swap expire, and does nothing else. -/
theorem cases (hAged : row.Aged row') :
    row' = row ∨ row.status = .pending ∧ row'.terms = { row.terms with status := .expired } := by
  rcases hAged with rfl | ⟨asOf, rfl⟩
  · exact Or.inl rfl
  · unfold SwapRow.expire AtomicSwap.expire
    by_cases hDue : row.status = .pending ∧ row.expiresAt ≤ asOf
    · rw [if_pos hDue]
      exact Or.inr ⟨hDue.1, rfl⟩
    · rw [if_neg hDue]
      exact Or.inl rfl

theorem eq_of_closed (hAged : row.Aged row') (hClosed : row.status ≠ .pending) : row' = row := by
  rcases hAged.cases with hSame | ⟨hPending, -⟩
  · exact hSame
  · exact absurd hPending hClosed

end SwapRow.Aged

namespace AtomicSwaps

variable {db : SwapDb}

theorem find?_expireAll (asOf : Int) (t : Table SwapRow) (swapId : String) :
    (expireAll asOf t).find? swapId = (t.find? swapId).map (.expire asOf) := by
  unfold expireAll
  rw [Table.find?_updateMany]
  rfl

namespace SwapAction

def terms : SwapAction → SwapTerms
  | .propose proposed => proposed.row.terms
  | .close closing event closed => (closing.placeholder event closed).terms

def rowAfter : SwapAction → Option SwapRow → SwapRow
  | .propose proposed, none => proposed.row
  | .propose _, some row => row
  | .close closing event closed, none => closing.placeholder event closed
  | .close closing _ closed, some row => closing.close closed row

theorem find?_apply (action : SwapAction) :
    ∃ row, (action.apply db).atomicSwap.find? action.swapId = some row ∧ (action.rowAfter
      (db.atomicSwap.find? action.swapId)).Aged row := by
  cases action with
  | propose proposed =>
    cases hInsert : db.atomicSwap.insert? proposed.row with
    | none =>
      have hStored := Table.insert?_eq_none_iff.mp hInsert
      cases hRow : db.atomicSwap.find? proposed.swapId with
      | none => exact absurd hStored (Table.find?_eq_none_iff.mp hRow)
      | some row =>
        simp only [apply, hInsert, swapId, hRow]
        exact ⟨row, rfl, Or.inl rfl⟩
    | some atomicSwap =>
      have hFresh : db.atomicSwap.find? proposed.swapId = none := (Table.insert?_eq_some hInsert).1
      have hCreated : atomicSwap.find? proposed.swapId =
          some proposed.row := by
        rw [Table.find?_insert? hInsert]
        exact if_pos rfl
      simp only [apply, hInsert, swapId, hFresh, find?_expireAll, hCreated]
      exact ⟨_, rfl, Or.inr ⟨proposed.proposedAt, rfl⟩⟩
  | close closing event closed =>
    have hKey : closed.swapId = key (closing.placeholder event closed) := rfl
    simp only [apply, swapId, find?_expireAll, Table.find?_upsert, if_pos hKey]
    refine ⟨_, rfl, ?_⟩
    cases db.atomicSwap.find? closed.swapId with
    | none => exact Or.inr ⟨closed.closedAt, rfl⟩
    | some row => exact Or.inr ⟨closed.closedAt, rfl⟩

/- The rows of other swaps may expire. -/
theorem find?_apply_other (action : SwapAction) {swapId : String}
    (hOther : action.swapId ≠ swapId) :
    Option.Rel SwapRow.Aged (db.atomicSwap.find? swapId)
      ((action.apply db).atomicSwap.find? swapId) := by
  have hRefl : Option.Rel SwapRow.Aged (db.atomicSwap.find? swapId)
      (db.atomicSwap.find? swapId) := by
    cases db.atomicSwap.find? swapId with
    | none => exact .none
    | some row => exact .some (Or.inl rfl)
  have hExpired : ∀ asOf, Option.Rel SwapRow.Aged (db.atomicSwap.find? swapId)
      ((db.atomicSwap.find? swapId).map (.expire asOf)) := by
    intro asOf
    cases db.atomicSwap.find? swapId with
    | none => exact .none
    | some row => exact .some (Or.inr ⟨asOf, rfl⟩)
  cases action with
  | propose proposed =>
    cases hInsert : db.atomicSwap.insert? proposed.row with
    | none =>
      simp only [apply, hInsert]
      exact hRefl
    | some atomicSwap =>
      have hKept : atomicSwap.find? swapId =
          db.atomicSwap.find? swapId := by
        rw [Table.find?_insert? hInsert]
        exact if_neg (Ne.symm hOther)
      simp only [apply, hInsert, find?_expireAll, hKept]
      exact hExpired _
  | close closing event closed =>
    have hKey : swapId ≠ key (closing.placeholder event closed) := Ne.symm hOther
    simp only [apply, find?_expireAll, Table.find?_upsert, if_neg hKey]
    exact hExpired _

end SwapAction

variable {now : Int} {event : SwapEvent} {proposed : ProposedSwap}

theorem actionOf_eq_propose (hAction : actionOf now event = some (.propose proposed)) :
    swapKind event.eventType = some .proposed ∧
      normalizeSwapProposedEvent now event = some proposed := by
  unfold actionOf at hAction
  split at hAction
  · rename_i hKind
    rcases Option.map_eq_some_iff.mp hAction with ⟨_, hNormal, hSame⟩
    cases hSame
    exact ⟨hKind, hNormal⟩
  · rcases Option.map_eq_some_iff.mp hAction with ⟨_, -, hSame⟩
    cases hSame
  · rcases Option.map_eq_some_iff.mp hAction with ⟨_, -, hSame⟩
    cases hSame
  · cases hAction

variable {other : SwapEvent} {closing : Closing} {closed : ClosedSwap}

theorem actionOf_eq_close (hAction : actionOf now event = some (.close closing other closed)) :
    other = event ∧ normalizeClosedEvent now event = some closed ∧
      (swapKind event.eventType = some .executed ∧ closing = executing ∨
        swapKind event.eventType = some .cancelled ∧ closing = cancelling) := by
  unfold actionOf at hAction
  split at hAction
  · rcases Option.map_eq_some_iff.mp hAction with ⟨_, -, hSame⟩
    cases hSame
  · rename_i hKind
    rcases Option.map_eq_some_iff.mp hAction with ⟨_, hNormal, hSame⟩
    cases hSame
    exact ⟨rfl, hNormal, Or.inl ⟨hKind, rfl⟩⟩
  · rename_i hKind
    rcases Option.map_eq_some_iff.mp hAction with ⟨_, hNormal, hSame⟩
    cases hSame
    exact ⟨rfl, hNormal, Or.inr ⟨hKind, rfl⟩⟩
  · cases hAction

theorem guardKey_of_actionOf {action : SwapAction} (hAction : actionOf now event = some action) :
    action.guardKey = guardKey (Governance.trim event.txHash) event.eventIndex := by
  have hTrim : ∀ text, textField (some event.txHash) = some text →
      text = Governance.trim event.txHash := by
    intro text hText
    exact (Option.some.inj (Option.filter_eq_some_iff.mp hText).1).symm
  cases action with
  | propose proposed =>
    rcases actionOf_eq_propose hAction with ⟨-, hNormal⟩
    unfold normalizeSwapProposedEvent at hNormal
    simp only [Option.bind_eq_bind, Option.bind_eq_some_iff] at hNormal
    rcases hNormal with ⟨_, _, _, _, _, _, _, _, _, _, _, _, _, _, txHash, hTx, _, _, hSame⟩
    cases hSame
    unfold SwapAction.guardKey
    rw [hTrim txHash hTx]
  | close closing other closed =>
    rcases actionOf_eq_close hAction with ⟨-, hNormal, -⟩
    unfold normalizeClosedEvent at hNormal
    simp only [Option.bind_eq_bind, Option.bind_eq_some_iff] at hNormal
    rcases hNormal with ⟨_, _, txHash, hTx, _, _, hSame⟩
    cases hSame
    unfold SwapAction.guardKey
    rw [hTrim txHash hTx]

/- When a proposal is handled changes dates only. -/
theorem actionOf_propose (hAction : actionOf now event = some (.propose proposed)) (now' : Int) :
    ∃ proposed', actionOf now' event = some (.propose proposed') ∧
      proposed'.swapId = proposed.swapId ∧
      proposed'.row.terms = proposed.row.terms := by
  rcases actionOf_eq_propose hAction with ⟨hKind, hNormal⟩
  unfold normalizeSwapProposedEvent at hNormal
  simp only [Option.bind_eq_bind, Option.bind_eq_some_iff] at hNormal
  rcases hNormal with ⟨_, hSwap, _, hProposer, _, hCounterparty, _, hOffered,
    _, hOfferedAmount, _, hRequested, _, hRequestedAmount, _, hTx, _, hLedger, hSame⟩
  cases hSame
  simp only [actionOf, hKind, normalizeSwapProposedEvent, hSwap,
    hProposer, hCounterparty, hOffered, hOfferedAmount, hRequested, hRequestedAmount, hTx, hLedger,
    Option.bind_eq_bind, Option.bind_some, Option.map_some]
  exact ⟨_, rfl, rfl, rfl⟩

theorem actionOf_close
    (hAction : actionOf now event = some (.close closing other closed)) (now' : Int) :
    ∃ closed', actionOf now' event = some (.close closing event closed') ∧
      closed'.swapId = closed.swapId ∧ (closing.placeholder event closed').terms =
        (closing.placeholder event closed).terms := by
  rcases actionOf_eq_close hAction with ⟨-, hNormal, hKind⟩
  unfold normalizeClosedEvent at hNormal
  simp only [Option.bind_eq_bind, Option.bind_eq_some_iff] at hNormal
  rcases hNormal with ⟨swapId, hSwap, _, hTx, ledger, hLedger, hSame⟩
  cases hSame
  have hNormal' : ∃ closed', normalizeClosedEvent now' event = some closed' ∧
      closed'.swapId = swapId ∧ closed'.ledger = ledger := by
    unfold normalizeClosedEvent
    rw [hSwap, hTx, hLedger]
    exact ⟨_, rfl, rfl, rfl⟩
  rcases hNormal' with ⟨closed', hNormal', hId, hAt⟩
  refine ⟨closed', ?_, hId, ?_⟩
  · rcases hKind with ⟨hKind, rfl⟩ | ⟨hKind, rfl⟩
    · simp only [actionOf, hKind, normalizeSwapExecutedEvent, hNormal', Option.map_some]
    · simp only [actionOf, hKind, normalizeSwapCancelledEvent, hNormal', Option.map_some]
  · unfold Closing.placeholder SwapRow.terms
    rw [hAt]

end AtomicSwaps

end

-- Deliveries
----

namespace AtomicSwaps

open Program

/- The tables, and the keys that the current batch has seen. -/
structure SwapWorld where
  db : SwapDb
  seen : List String

/- Events are delivered with or without the keys of a batch. -/
inductive SwapMove where
  | deliver (guarded : Bool) (now : Int) (event : SwapEvent)
  | newBatch
  | expire (asOf : Int)

def SwapMove.event? : SwapMove → Option SwapEvent
  | .deliver _ _ event => some event
  | .newBatch => none
  | .expire _ => none

namespace SwapWorld

/- The keys that a delivery is given. -/
def batchKeys (guarded : Bool) (w : SwapWorld) : Seen :=
  if guarded then some w.seen else none

/- The world that a handler leaves. -/
def settle (w : SwapWorld) : Except IndexerError (Bool × Seen) × SwapDb → SwapWorld
  | (.ok (_, seen), db) => { db, seen := seen.getD w.seen }
  | (.error _, db) => { w with db }

def deliver (guarded : Bool) (now : Int) (event : SwapEvent) (w : SwapWorld) : SwapWorld :=
  w.settle ((processAtomicSwapEvent now event (w.batchKeys guarded)).run w.db)

def step (w : SwapWorld) : SwapMove → SwapWorld
  | .deliver guarded now event => w.deliver guarded now event
  | .newBatch => { w with seen := [] }
  | .expire asOf => { w with db := ((markExpiredSwaps asOf).run w.db).2 }

def runMoves (w : SwapWorld) (moves : List SwapMove) : SwapWorld := moves.foldl step w

variable {w : SwapWorld}

theorem deliver_cases (guarded : Bool) (now : Int) (event : SwapEvent) :
    (w.deliver guarded now event = w ∧ ∀ action, actionOf now event = some action →
      action.guardKey ∈ w.seen) ∨ ∃ action, actionOf now event = some action ∧
      (w.deliver guarded now event).db = action.apply w.db ∧
      ∀ seenKey ∈ (w.deliver guarded now event).seen,
        seenKey = action.guardKey ∨ seenKey ∈ w.seen := by
  have hRun := @run_accepted w.db (w.batchKeys guarded) now event
  unfold deliver
  unfold accepted at hRun
  cases hAction : actionOf now event with
  | none =>
    simp only [hAction, Option.bind_eq_bind, Option.bind_none] at hRun
    rw [hRun]
    left
    refine ⟨?_, fun action hNone => nomatch hNone⟩
    cases guarded with
    | false => rfl
    | true => rfl
  | some action =>
    simp only [hAction, Option.bind_eq_bind, Option.bind_some] at hRun
    cases guarded with
    | false =>
      rcases hRun with ⟨changed, hRun⟩
      rw [hRun]
      exact Or.inr ⟨action, rfl, rfl, fun _ hSeen => Or.inr hSeen⟩
    | true =>
      by_cases hSeen : action.guardKey ∈ w.seen
      · have hGuard : guardChainEvent action.guardKey (w.batchKeys true) = none :=
          if_pos hSeen
        rw [hGuard] at hRun
        rw [hRun]
        left
        refine ⟨rfl, fun other hOther => ?_⟩
        cases hOther
        exact hSeen
      · have hGuard : guardChainEvent action.guardKey (w.batchKeys true) =
            some (some (action.guardKey :: w.seen)) :=
          if_neg hSeen
        rw [hGuard] at hRun
        rcases hRun with ⟨changed, hRun⟩
        rw [hRun]
        exact Or.inr ⟨action, rfl, rfl, fun _ hKey => List.mem_cons.mp hKey⟩

theorem step_expire (asOf : Int) :
    w.step (.expire asOf) = { w with db.atomicSwap := expireAll asOf w.db.atomicSwap } := by
  simp [step, markExpiredSwaps]

end SwapWorld

end AtomicSwaps

-- Schedules
----

namespace AtomicSwaps

/- A well-formed proposal of a swap. -/
def Proposes (swapId : String) (event : SwapEvent) : Prop :=
  ∃ now proposed, actionOf now event = some (.propose proposed) ∧ proposed.swapId = swapId

/- A well-formed execution or cancellation of a swap. -/
def Closes (swapId : String) (event : SwapEvent) : Prop :=
  ∃ now closing closed, actionOf now event = some (.close closing event closed) ∧
    closed.swapId = swapId

def ActsOn (swapId : String) (event : SwapEvent) : Prop :=
  ∃ now action, actionOf now event = some action ∧ action.swapId = swapId

def HasKey (event : SwapEvent) (seenKey : String) : Prop :=
  ∃ now action, actionOf now event = some action ∧ action.guardKey = seenKey

def delivered (moves : List SwapMove) : List SwapEvent := moves.filterMap SwapMove.event?

/-
  The events of one swap, delivered in any order and any number
  of times.  Among them stand the events of other swaps, and the
  index cycles that mark what has expired.  A key identifies an
  event.
-/
structure SwapSchedule where
  swapId : String
  start : SwapDb
  proposal : SwapEvent
  closing : Option SwapEvent
  moves : List SwapMove
  fresh : start.atomicSwap.find? swapId = none
  proposes : Proposes swapId proposal
  closes : ∀ event ∈ closing, Closes swapId event
  own : ∀ event ∈ delivered moves, ActsOn swapId event → event = proposal ∨ closing = some event
  keys : ∀ event ∈ delivered moves, ∀ other ∈ delivered moves,
    ∀ seenKey, HasKey event seenKey → HasKey other seenKey → event = other
  proposed : proposal ∈ delivered moves
  closed : ∀ event ∈ closing, event ∈ delivered moves

def createdTerms (event : SwapEvent) : Option SwapTerms := (actionOf 0 event).map SwapAction.terms

/- What the table says of a swap. -/
inductive SwapStage where
  | unknown
  | offered
  | completed
  | orphaned

namespace SwapStage

def propose : SwapStage → SwapStage
  | unknown => offered
  | stage => stage

def close : SwapStage → SwapStage
  | unknown => orphaned
  | offered => completed
  | stage => stage

end SwapStage

namespace SwapSchedule

variable (S : SwapSchedule)

def rowIn (w : SwapWorld) : Option SwapRow := w.db.atomicSwap.find? S.swapId

def rowAfter (moves : List SwapMove) : Option SwapRow :=
  S.rowIn ((SwapWorld.mk S.start []).runMoves moves)

def next (stage : SwapStage) (move : SwapMove) : SwapStage :=
  match move.event? with
  | none => stage
  | some event =>
    if event = S.proposal then stage.propose
    else if S.closing = some event then stage.close
    else stage

def stage (moves : List SwapMove) : SwapStage := moves.foldl S.next .unknown

/- The terms of the placeholder. -/
def closedTerms : Option SwapTerms := S.closing.bind createdTerms

/- The terms proposed, closed. -/
def completedTerms : Option SwapTerms := do
  let proposed ← createdTerms S.proposal
  let closed ← S.closedTerms
  some { proposed with status := closed.status }

/- What the row says in a stage. -/
def Holds (row : Option SwapRow) : SwapStage → Prop
  | .unknown => row = none
  | .offered =>
    ∃ r, row = some r ∧ (r.status = .pending ∨ r.status = .expired) ∧ createdTerms S.proposal =
      some { r.terms with status := .pending }
  | .completed => ∃ r, row = some r ∧ S.completedTerms = some r.terms
  | .orphaned => ∃ r, row = some r ∧ S.closedTerms = some r.terms

variable {S} {row row' : Option SwapRow} {stage : SwapStage} {terms : SwapTerms}

theorem status_closedTerms (hTerms : S.closedTerms = some terms) :
    terms.status ≠ .pending ∧ terms.status ≠ .expired := by
  rcases Option.bind_eq_some_iff.mp hTerms with ⟨event, hClosing, hCreated⟩
  rcases S.closes event hClosing with ⟨now, closing, closed, hAction, -⟩
  rcases actionOf_close hAction 0 with ⟨here, hHere, -, -⟩
  unfold createdTerms at hCreated
  rw [hHere] at hCreated
  cases hCreated
  rcases actionOf_eq_close hHere with ⟨-, -, ⟨-, rfl⟩ | ⟨-, rfl⟩⟩
  · exact ⟨nofun, nofun⟩
  · exact ⟨nofun, nofun⟩

theorem status_completedTerms (hTerms : S.completedTerms = some terms) :
    ∃ closed, S.closedTerms = some closed ∧ terms.status = closed.status := by
  unfold completedTerms at hTerms
  simp only [Option.bind_eq_bind, Option.bind_eq_some_iff] at hTerms
  rcases hTerms with ⟨_, -, closed, hClosed, hSame⟩
  cases hSame
  exact ⟨closed, hClosed, rfl⟩

/- Marking what has expired leaves the stage as it is. -/
theorem Holds.aged (hHolds : S.Holds row stage) (hAged : Option.Rel SwapRow.Aged row row') :
    S.Holds row' stage := by
  cases stage with
  | unknown =>
    cases hHolds
    cases hAged
    rfl
  | offered =>
    rcases hHolds with ⟨r, rfl, hStatus, hTerms⟩
    cases hAged with
    | some hRow =>
      rcases hRow.cases with rfl | ⟨-, hExpired⟩
      · exact ⟨_, rfl, hStatus, hTerms⟩
      · refine ⟨_, rfl, Or.inr ?_, ?_⟩
        · exact congrArg SwapTerms.status hExpired
        · rw [hTerms, hExpired]
  | completed =>
    rcases hHolds with ⟨r, rfl, hTerms⟩
    cases hAged with
    | some hRow =>
      rcases status_completedTerms hTerms with ⟨closed, hClosed, hStatus⟩
      have hClosedRow : r.status ≠ .pending := by
        intro hPending
        exact (status_closedTerms hClosed).1 (hStatus.symm.trans hPending)
      rw [hRow.eq_of_closed hClosedRow]
      exact ⟨r, rfl, hTerms⟩
  | orphaned =>
    rcases hHolds with ⟨r, rfl, hTerms⟩
    cases hAged with
    | some hRow =>
      rw [hRow.eq_of_closed (status_closedTerms hTerms).1]
      exact ⟨r, rfl, hTerms⟩

end SwapSchedule

end AtomicSwaps

-- Runs of a Schedule
----

namespace AtomicSwaps

namespace SwapStage

variable {stage : SwapStage}

theorem propose_propose : stage.propose.propose = stage.propose := by
  cases stage <;> rfl

theorem close_close : stage.close.close = stage.close := by
  cases stage <;> rfl

theorem propose_close : stage.close.propose = stage.close := by
  cases stage <;> rfl

theorem close_propose (hClosed : stage.close = stage) : stage.propose = stage := by
  cases stage with
  | unknown => cases hClosed
  | offered => rfl
  | completed => rfl
  | orphaned => rfl

end SwapStage

namespace SwapSchedule

variable {S : SwapSchedule} {moves : List SwapMove} {move : SwapMove} {stage : SwapStage}

theorem actionOf_proposal (S : SwapSchedule) (now : Int) :
    ∃ proposed, actionOf now S.proposal = some (.propose proposed) ∧
      proposed.swapId = S.swapId := by
  rcases S.proposes with ⟨before, proposed, hAction, hId⟩
  rcases actionOf_propose hAction now with ⟨here, hHere, hSame, -⟩
  exact ⟨here, hHere, hSame.trans hId⟩

theorem actionOf_closing {event : SwapEvent} (hClosing : S.closing = some event) (now : Int) :
    ∃ closing closed, actionOf now event = some (.close closing event closed) ∧
      closed.swapId = S.swapId := by
  rcases S.closes event hClosing with ⟨before, closing, closed, hAction, hId⟩
  rcases actionOf_close hAction now with ⟨here, hHere, hSame, -⟩
  exact ⟨closing, here, hHere, hSame.trans hId⟩

theorem closing_ne_proposal : S.closing ≠ some S.proposal := by
  intro hSame
  rcases S.actionOf_proposal 0 with ⟨proposed, hProposes, -⟩
  rcases actionOf_closing hSame 0 with ⟨closing, closed, hCloses, -⟩
  rw [hProposes] at hCloses
  cases hCloses

theorem next_propose (hEvent : move.event? = some S.proposal) :
    S.next stage move = stage.propose := by
  unfold next
  rw [hEvent]
  exact if_pos rfl

theorem next_close {event : SwapEvent} (hClosing : S.closing = some event)
    (hEvent : move.event? = some event) :
    S.next stage move = stage.close := by
  have hNe : event ≠ S.proposal := by
    rintro rfl
    exact closing_ne_proposal hClosing
  unfold next
  rw [hEvent]
  dsimp only
  rw [if_neg hNe, if_pos hClosing]

theorem next_other (hProposal : move.event? ≠ some S.proposal)
    (hClosing : ∀ event ∈ S.closing, move.event? ≠ some event) :
    S.next stage move = stage := by
  unfold next
  split
  · rfl
  · rename_i event hEvent
    rw [if_neg, if_neg]
    · intro hSame
      exact hClosing event hSame hEvent
    · rintro rfl
      exact hProposal hEvent

theorem next_cases (S : SwapSchedule) (move : SwapMove) :
    move.event? = some S.proposal ∨ (∃ event, S.closing = some event ∧ move.event? = some event) ∨
      move.event? ≠ some S.proposal ∧ ∀ event ∈ S.closing, move.event? ≠ some event := by
  by_cases hProposal : move.event? = some S.proposal
  · exact Or.inl hProposal
  by_cases hClosing : ∃ event, S.closing = some event ∧ move.event? = some event
  · exact Or.inr (Or.inl hClosing)
  · refine Or.inr (Or.inr ⟨hProposal, ?_⟩)
    intro event hEvent hMove
    exact hClosing ⟨event, hEvent, hMove⟩

theorem stage_append (moves : List SwapMove) (move : SwapMove) :
    S.stage (moves ++ [move]) = S.next (S.stage moves) move := by
  unfold stage
  rw [List.foldl_append]
  rfl

theorem mem_delivered_append {event : SwapEvent} (hMem : event ∈ delivered (moves ++ [move])) :
    event ∈ delivered moves ∨ move.event? = some event := by
  rcases List.mem_filterMap.mp hMem with ⟨other, hOther, hEvent⟩
  rcases List.mem_append.mp hOther with hOld | hNew
  · exact Or.inl (List.mem_filterMap.mpr ⟨other, hOld, hEvent⟩)
  · rw [List.mem_singleton] at hNew
    rw [← hNew]
    exact Or.inr hEvent

theorem propose_stage (hProposed : S.proposal ∈ delivered moves) :
    (S.stage moves).propose = S.stage moves := by
  induction moves using List.reverseRecOn with
  | nil => cases hProposed
  | append_singleton before move ih =>
    rw [stage_append]
    rcases S.next_cases move with hMove | ⟨event, hClosing, hMove⟩ | ⟨hMove, hOther⟩
    · rw [next_propose hMove, SwapStage.propose_propose]
    · rw [next_close hClosing hMove, SwapStage.propose_close]
    · rw [next_other hMove hOther]
      rcases mem_delivered_append hProposed with hOld | hNew
      · exact ih hOld
      · exact absurd hNew hMove

theorem close_stage {event : SwapEvent} (hClosing : S.closing = some event)
    (hClosed : event ∈ delivered moves) :
    (S.stage moves).close = S.stage moves := by
  induction moves using List.reverseRecOn with
  | nil => cases hClosed
  | append_singleton before move ih =>
    rw [stage_append]
    rcases S.next_cases move with hMove | ⟨other, hOther, hMove⟩ | ⟨hMove, hNone⟩
    · rw [next_propose hMove]
      rcases mem_delivered_append hClosed with hOld | hNew
      · rw [SwapStage.close_propose (ih hOld), ih hOld]
      · rw [hMove] at hNew
        cases hNew
        exact absurd hClosing closing_ne_proposal
    · rw [next_close hOther hMove, SwapStage.close_close]
    · rw [next_other hMove hNone]
      rcases mem_delivered_append hClosed with hOld | hNew
      · exact ih hOld
      · exact absurd hNew (hNone event hClosing)

theorem stage_of_not_closed (hOpen : ∀ event ∈ S.closing, event ∉ delivered moves) :
    S.stage moves = .unknown ∨ S.stage moves = .offered := by
  induction moves using List.reverseRecOn with
  | nil => exact Or.inl rfl
  | append_singleton before move ih =>
    have hBefore : ∀ event ∈ S.closing, event ∉ delivered before := by
      intro event hClosing hMem
      apply hOpen event hClosing
      unfold delivered
      rw [List.filterMap_append]
      exact List.mem_append_left _ hMem
    rw [stage_append]
    rcases S.next_cases move with hMove | ⟨event, hClosing, hMove⟩ | ⟨hMove, hOther⟩
    · rw [next_propose hMove]
      rcases ih hBefore with hStage | hStage
      · rw [hStage]
        exact Or.inr rfl
      · rw [hStage]
        exact Or.inr rfl
    · have hMem : event ∈ delivered (before ++ [move]) :=
        List.mem_filterMap.mpr ⟨move, List.mem_append_right _ List.mem_cons_self, hMove⟩
      exact absurd hMem (hOpen event hClosing)
    · rw [next_other hMove hOther]
      exact ih hBefore

variable {closing : Closing}

/- Closing a row again says nothing new. -/
theorem terms_close (closed : ClosedSwap) {r : SwapRow} (hStatus : r.status = closing.status) :
    (closing.close closed r).terms = r.terms := by
  unfold Closing.close SwapRow.terms
  rw [hStatus]

variable {row : Option SwapRow}

theorem Holds.propose {now : Int} {proposed : ProposedSwap}
    (hAction : actionOf now S.proposal = some (.propose proposed)) (hHolds : S.Holds row stage) :
    S.Holds (some ((SwapAction.propose proposed).rowAfter row)) stage.propose := by
  cases stage with
  | unknown =>
    cases hHolds
    rcases actionOf_propose hAction 0 with ⟨here, hHere, -, hTerms⟩
    refine ⟨proposed.row, rfl, Or.inl rfl, ?_⟩
    unfold createdTerms
    rw [hHere]
    exact congrArg some hTerms
  | offered =>
    rcases hHolds with ⟨r, rfl, hRow⟩
    exact ⟨r, rfl, hRow⟩
  | completed =>
    rcases hHolds with ⟨r, rfl, hRow⟩
    exact ⟨r, rfl, hRow⟩
  | orphaned =>
    rcases hHolds with ⟨r, rfl, hRow⟩
    exact ⟨r, rfl, hRow⟩

theorem Holds.close {now : Int} {event : SwapEvent} {closed : ClosedSwap}
    (hClosing : S.closing = some event) (hAction :
      actionOf now event = some (.close closing event closed)) (hHolds : S.Holds row stage) :
    S.Holds (some ((SwapAction.close closing event closed).rowAfter row)) stage.close := by
  have hTerms : S.closedTerms =
      some (closing.placeholder event closed).terms := by
    rcases actionOf_close hAction 0 with ⟨here, hHere, -, hSame⟩
    unfold closedTerms createdTerms
    rw [hClosing]
    dsimp only [Option.bind_some]
    rw [hHere]
    exact congrArg some hSame
  cases stage with
  | unknown =>
    cases hHolds
    exact ⟨_, rfl, hTerms⟩
  | offered =>
    rcases hHolds with ⟨r, rfl, -, hRow⟩
    refine ⟨_, rfl, ?_⟩
    unfold completedTerms
    rw [hRow, hTerms]
    rfl
  | completed =>
    rcases hHolds with ⟨r, rfl, hRow⟩
    refine ⟨_, rfl, ?_⟩
    rcases status_completedTerms hRow with ⟨other, hOther, hStatus⟩
    rw [hTerms] at hOther
    cases hOther
    rw [hRow]
    exact congrArg some (terms_close closed hStatus).symm
  | orphaned =>
    rcases hHolds with ⟨r, rfl, hRow⟩
    have hStatus : r.status = closing.status := by
      rw [hTerms] at hRow
      exact (congrArg SwapTerms.status (Option.some.inj hRow)).symm
    refine ⟨_, rfl, ?_⟩
    rw [hRow]
    exact congrArg some (terms_close closed hStatus).symm

/- What is known after some of the moves. -/
structure Tracked (S : SwapSchedule) (moves : List SwapMove) (w : SwapWorld) : Prop where
  seen : ∀ seenKey ∈ w.seen, ∃ event ∈ delivered moves, HasKey event seenKey
  row : S.Holds (S.rowIn w) (S.stage moves)

theorem delivered_append (moves : List SwapMove) (move : SwapMove) :
    delivered (moves ++ [move]) = delivered moves ++ move.event?.toList := by
  unfold delivered
  rw [List.filterMap_append]
  cases hEvent : move.event? with
  | none => simp [hEvent]
  | some event => simp [hEvent]

variable {w : SwapWorld} {now : Int} {event : SwapEvent} {guarded : Bool}

theorem next_of_skipped (hMoves : ∀ event ∈ delivered moves, event ∈ delivered S.moves)
    (hEvent : event ∈ delivered S.moves) (hTracked : S.Tracked moves w)
    (hSkipped : ∀ action, actionOf now event = some action → action.guardKey ∈ w.seen) :
    S.next (S.stage moves) (.deliver guarded now event) = S.stage moves := by
  have hBefore : ∀ action, actionOf now event = some action →
      event ∈ delivered moves := by
    intro action hAction
    rcases hTracked.seen _ (hSkipped action hAction) with ⟨other, hOther, hKey⟩
    have hSame := S.keys event hEvent other (hMoves other hOther) _ ⟨now, action, hAction, rfl⟩ hKey
    rw [hSame]
    exact hOther
  rcases S.next_cases (.deliver guarded now event) with
    hMove | ⟨other, hClosing, hMove⟩ | ⟨hMove, hOther⟩
  · cases hMove
    rcases S.actionOf_proposal now with ⟨_, hHere, -⟩
    rw [next_propose rfl]
    exact propose_stage (hBefore _ hHere)
  · cases hMove
    rcases actionOf_closing hClosing now with ⟨_, _, hHere, -⟩
    rw [next_close hClosing rfl]
    exact close_stage hClosing (hBefore _ hHere)
  · exact next_other hMove hOther

theorem aged_refl (row : Option SwapRow) : Option.Rel SwapRow.Aged row row := by
  cases row with
  | none => exact .none
  | some r => exact .some (Or.inl rfl)

theorem deliver_acts {action : SwapAction} (hEvent : event ∈ delivered S.moves)
    (hAction : actionOf now event = some action)
    (hDb : (w.deliver guarded now event).db = action.apply w.db) :
    (event ≠ S.proposal ∧ S.closing ≠ some event ∧ Option.Rel SwapRow.Aged (S.rowIn w)
      (S.rowIn (w.deliver guarded now event))) ∨
      ((event = S.proposal ∨ S.closing = some event) ∧ ∃ r,
        S.rowIn (w.deliver guarded now event) = some r ∧
          (action.rowAfter (S.rowIn w)).Aged r) := by
  unfold rowIn
  rw [hDb]
  by_cases hOwn : action.swapId = S.swapId
  · right
    rw [← hOwn]
    exact ⟨S.own event hEvent ⟨now, action, hAction, hOwn⟩, action.find?_apply⟩
  · left
    refine ⟨?_, ?_, action.find?_apply_other hOwn⟩
    · rintro rfl
      rcases S.actionOf_proposal now with ⟨_, hHere, hId⟩
      rw [hHere] at hAction
      cases hAction
      exact hOwn hId
    · intro hClosing
      rcases actionOf_closing hClosing now with ⟨_, _, hHere, hId⟩
      rw [hHere] at hAction
      cases hAction
      exact hOwn hId

theorem step_cases (hMoves : ∀ event ∈ delivered moves, event ∈ delivered S.moves)
    (hMove : ∀ event ∈ move.event?, event ∈ delivered S.moves) (hTracked : S.Tracked moves w) :
    (S.next (S.stage moves) move = S.stage moves ∧ Option.Rel SwapRow.Aged (S.rowIn w)
      (S.rowIn (w.step move))) ∨ ∃ now event action r, move.event? = some event ∧
      (event = S.proposal ∨ S.closing = some event) ∧ actionOf now event = some action ∧
      S.rowIn (w.step move) = some r ∧
      (action.rowAfter (S.rowIn w)).Aged r := by
  cases move with
  | deliver guarded now event =>
    have hEvent := hMove event rfl
    rw [SwapWorld.step]
    rcases w.deliver_cases guarded now event with ⟨hSame, hSkipped⟩ | ⟨action, hAction, hDb, -⟩
    · left
      rw [hSame]
      exact ⟨next_of_skipped hMoves hEvent hTracked hSkipped, aged_refl _⟩
    · rcases deliver_acts hEvent hAction hDb with
        ⟨hProposal, hClosing, hAged⟩ | ⟨hOwn, r, hRow, hAged⟩
      · left
        refine ⟨next_other ?_ ?_, hAged⟩
        · rintro ⟨⟩
          exact hProposal rfl
        · rintro other hOther ⟨⟩
          exact hClosing hOther
      · right
        exact ⟨now, event, action, r, rfl, hOwn, hAction, hRow, hAged⟩
  | newBatch => exact Or.inl ⟨rfl, aged_refl _⟩
  | expire asOf =>
    left
    refine ⟨rfl, ?_⟩
    unfold rowIn
    rw [SwapWorld.step_expire]
    rw [find?_expireAll]
    cases w.db.atomicSwap.find? S.swapId with
    | none => exact .none
    | some row => exact .some (Or.inr ⟨asOf, rfl⟩)

theorem Tracked.row_step (hMoves : ∀ event ∈ delivered moves, event ∈ delivered S.moves)
    (hMove : ∀ event ∈ move.event?, event ∈ delivered S.moves) (hTracked : S.Tracked moves w) :
    S.Holds (S.rowIn (w.step move)) (S.stage (moves ++ [move])) := by
  rw [stage_append]
  rcases step_cases hMoves hMove hTracked with
    ⟨hStage, hAged⟩ | ⟨now, event, action, r, hEvent, hOwn, hAction, hRow, hAged⟩
  · rw [hStage]
    exact hTracked.row.aged hAged
  · rw [hRow]
    rcases hOwn with rfl | hClosing
    · rcases S.actionOf_proposal now with ⟨_, hHere, -⟩
      rw [hHere] at hAction
      cases hAction
      rw [next_propose hEvent]
      exact (hTracked.row.propose hHere).aged (.some hAged)
    · rcases actionOf_closing hClosing now with ⟨_, _, hHere, -⟩
      rw [hHere] at hAction
      cases hAction
      rw [next_close hClosing hEvent]
      exact (hTracked.row.close hClosing hHere).aged (.some hAged)

theorem Tracked.seen_step (hTracked : S.Tracked moves w) :
    ∀ seenKey ∈ (w.step move).seen, ∃ event ∈ delivered (moves ++ [move]),
      HasKey event seenKey := by
  have hOld : ∀ seenKey ∈ w.seen, ∃ event ∈ delivered (moves ++ [move]),
      HasKey event seenKey := by
    intro seenKey hSeen
    rcases hTracked.seen seenKey hSeen with ⟨event, hMem, hKey⟩
    rw [delivered_append]
    exact ⟨event, List.mem_append_left _ hMem, hKey⟩
  intro seenKey hMem
  cases move with
  | deliver guarded now event =>
    rw [SwapWorld.step] at hMem
    rcases w.deliver_cases guarded now event with ⟨hSame, -⟩ | ⟨action, hAction, -, hSeen⟩
    · rw [hSame] at hMem
      exact hOld seenKey hMem
    · rcases hSeen seenKey hMem with rfl | hBefore
      · refine ⟨event, ?_, now, action, hAction, rfl⟩
        rw [delivered_append]
        exact List.mem_append_right _ List.mem_cons_self
      · exact hOld seenKey hBefore
  | newBatch => cases hMem
  | expire asOf => exact hOld seenKey hMem

theorem tracked_run (hMoves : ∀ event ∈ delivered moves, event ∈ delivered S.moves) :
    S.Tracked moves ((SwapWorld.mk S.start []).runMoves moves) := by
  induction moves using List.reverseRecOn with
  | nil =>
    constructor
    · intro seenKey hMem
      cases hMem
    · exact S.fresh
  | append_singleton before move ih =>
    rw [delivered_append] at hMoves
    have hBefore : ∀ event ∈ delivered before,
        event ∈ delivered S.moves := by
      intro event hMem
      exact hMoves event (List.mem_append_left _ hMem)
    unfold SwapWorld.runMoves
    rw [List.foldl_append]
    refine ⟨(ih hBefore).seen_step, ?_⟩
    apply (ih hBefore).row_step hBefore
    intro event hMem
    apply hMoves
    apply List.mem_append_right
    rw [Option.mem_toList]
    exact hMem

end SwapSchedule

end AtomicSwaps

-- Convergence
----

namespace AtomicSwaps

namespace SwapSchedule

variable (S : SwapSchedule)

/- A move that delivers the proposal. -/
def offers (move : SwapMove) : Bool := move.event? = some S.proposal

/- A move that delivers the closing. -/
def settles (move : SwapMove) : Bool :=
  match S.closing with
  | none => false
  | some event => move.event? = some event

def concerns (move : SwapMove) : Bool := S.offers move || S.settles move

/-
  The moves with the proposal ahead of the closing; the moves
  that do not concern the swap stay where they are.
-/
def inOrder : List SwapMove :=
  refill S.concerns S.moves (S.moves.filter S.offers ++ S.moves.filter S.settles)

/- The row ends as it does after a delivery in order. -/
def Converges : Prop :=
  (S.rowAfter S.moves).map SwapRow.terms = (S.rowAfter S.inOrder).map SwapRow.terms

/- A status other than pending stays. -/
def NeverReplaced : Prop :=
  ∀ before middle after, S.moves = before ++ middle ++ after → ∀ r r',
    S.rowAfter before = some r → r.status ≠ .pending → S.rowAfter (before ++ middle) = some r' →
      r'.status = r.status

/-
  When the closing first arrives, the swap is pending, or it is
  not stored and its placeholder says what is proposed.
-/
def ClosedInTurn : Prop :=
  ∀ before after guarded now event, S.closing = some event → S.moves =
    before ++ .deliver guarded now event :: after → event ∉ delivered before →
    (∃ r, S.rowAfter before = some r ∧ r.status = .pending) ∨ (S.rowAfter before = none ∧
      S.closedTerms = S.completedTerms)

variable {S} {moves : List SwapMove} {stage : SwapStage}

theorem foldl_next {change : SwapStage → SwapStage}
    (hNext : ∀ stage, ∀ move ∈ moves, S.next stage move = change stage)
    (hIdem : ∀ stage, change (change stage) = change stage) (hSome : moves ≠ [])
    (stage : SwapStage) :
    moves.foldl S.next stage = change stage := by
  induction moves generalizing stage with
  | nil => exact absurd rfl hSome
  | cons move rest ih =>
    rw [List.foldl_cons, hNext stage move List.mem_cons_self]
    by_cases hRest : rest = []
    · rw [hRest]
      rfl
    · have hRestNext : ∀ stage, ∀ move ∈ rest,
          S.next stage move = change stage := by
        intro stage other hOther
        exact hNext stage other (List.mem_cons_of_mem _ hOther)
      rw [ih hRestNext hRest, hIdem]

variable {move : SwapMove}

theorem offers_iff : S.offers move ↔ move.event? = some S.proposal := decide_eq_true_iff

theorem settles_iff :
    S.settles move ↔ ∃ event, S.closing = some event ∧ move.event? = some event := by
  unfold settles
  cases S.closing with
  | none => simp
  | some event => simp

theorem concerns_iff : S.concerns move ↔ S.offers move ∨ S.settles move := Bool.or_eq_true_iff

theorem stage_filter (moves : List SwapMove) :
    S.stage (moves.filter S.concerns) = S.stage moves := by
  unfold stage
  rw [List.foldl_filter]
  congr 1
  funext stage move
  split
  · rfl
  · rename_i hOther
    rw [concerns_iff, offers_iff, settles_iff, not_or] at hOther
    symm
    apply next_other hOther.1
    intro event hClosing hMove
    exact hOther.2 ⟨event, hClosing, hMove⟩

theorem length_concerning (S : SwapSchedule) (moves : List SwapMove) :
    (moves.filter S.offers ++ moves.filter S.settles).length =
      (moves.filter S.concerns).length := by
  have hApart : ∀ move, S.offers move → S.settles move = false := by
    intro move hOffers
    rw [Bool.eq_false_iff]
    intro hSettles
    rcases settles_iff.mp hSettles with ⟨event, hClosing, hMove⟩
    rw [offers_iff.mp hOffers] at hMove
    cases hMove
    exact closing_ne_proposal hClosing
  rw [List.length_append]
  induction moves with
  | nil => rfl
  | cons move rest ih =>
    by_cases hOffers : S.offers move
    · have hSettles : ¬ S.settles move := by
        rw [hApart move hOffers]
        exact Bool.false_ne_true
      rw [List.filter_cons_of_pos hOffers, List.filter_cons_of_neg hSettles, List.filter_cons_of_pos
        (concerns_iff.mpr (Or.inl hOffers)), List.length_cons, List.length_cons]
      omega
    · by_cases hSettles : S.settles move
      · rw [List.filter_cons_of_neg hOffers, List.filter_cons_of_pos hSettles,
          List.filter_cons_of_pos (concerns_iff.mpr (Or.inr hSettles)),
          List.length_cons, List.length_cons]
        omega
      · have hConcerns : ¬ S.concerns move := by
          rw [concerns_iff]
          exact not_or.mpr ⟨hOffers, hSettles⟩
        rw [List.filter_cons_of_neg hOffers, List.filter_cons_of_neg hSettles,
          List.filter_cons_of_neg hConcerns]
        exact ih

theorem filter_inOrder (S : SwapSchedule) :
    S.inOrder.filter S.concerns = S.moves.filter S.offers ++ S.moves.filter S.settles := by
  apply filter_refill (S.length_concerning S.moves)
  intro move hMove
  rw [concerns_iff]
  rcases List.mem_append.mp hMove with hOffers | hSettles
  · exact Or.inl (List.mem_filter.mp hOffers).2
  · exact Or.inr (List.mem_filter.mp hSettles).2

variable {event : SwapEvent}

theorem stage_inOrder (hClosing : S.closing = some event) : S.stage S.inOrder = .completed := by
  have hOffers : S.moves.filter S.offers ≠ [] := by
    rcases List.mem_filterMap.mp S.proposed with ⟨move, hMem, hMove⟩
    have hOffer : move ∈ S.moves.filter S.offers := List.mem_filter.mpr ⟨hMem, offers_iff.mpr hMove⟩
    exact List.ne_nil_of_mem hOffer
  have hSettles : S.moves.filter S.settles ≠ [] := by
    rcases List.mem_filterMap.mp (S.closed event hClosing) with ⟨move, hMem, hMove⟩
    have hSettle : move ∈ S.moves.filter S.settles :=
      List.mem_filter.mpr ⟨hMem, settles_iff.mpr ⟨event, hClosing, hMove⟩⟩
    exact List.ne_nil_of_mem hSettle
  have hPropose : ∀ stage, ∀ move ∈ S.moves.filter S.offers,
      S.next stage move = stage.propose := by
    intro stage move hMem
    exact next_propose (offers_iff.mp (List.mem_filter.mp hMem).2)
  have hClose : ∀ stage, ∀ move ∈ S.moves.filter S.settles,
      S.next stage move = stage.close := by
    intro stage move hMem
    rcases settles_iff.mp (List.mem_filter.mp hMem).2 with ⟨other, hOther, hMove⟩
    exact next_close hOther hMove
  rw [← stage_filter, filter_inOrder]
  unfold stage
  rw [List.foldl_append, foldl_next hPropose (fun _ => SwapStage.propose_propose) hOffers,
    foldl_next hClose (fun _ => SwapStage.close_close) hSettles]
  rfl

theorem inOrder_of_open (hClosing : S.closing = none) : S.inOrder = S.moves := by
  have hSettles : S.settles = fun _ => false := by
    funext move
    unfold settles
    rw [hClosing]
  have hConcerns : S.concerns = S.offers := by
    funext move
    unfold concerns
    rw [hSettles, Bool.or_false]
  unfold inOrder
  rw [hConcerns, hSettles, List.filter_false, List.append_nil]
  exact refill_filter S.offers S.moves

theorem foldl_closed (hClosed : stage.close = stage) (moves : List SwapMove) :
    moves.foldl S.next stage = stage := by
  induction moves with
  | nil => rfl
  | cons move rest ih =>
    rw [List.foldl_cons]
    rcases S.next_cases move with hMove | ⟨event, hClosing, hMove⟩ | ⟨hMove, hOther⟩
    · rw [next_propose hMove, SwapStage.close_propose hClosed]
      exact ih
    · rw [next_close hClosing hMove, hClosed]
      exact ih
    · rw [next_other hMove hOther]
      exact ih

theorem delivered_inOrder (hMem : event ∈ delivered S.inOrder) : event ∈ delivered S.moves := by
  rcases List.mem_filterMap.mp hMem with ⟨move, hMove, hEvent⟩
  apply List.mem_filterMap.mpr
  refine ⟨move, ?_, hEvent⟩
  rcases mem_of_mem_refill hMove with hOld | hNew
  · exact hOld
  · rcases List.mem_append.mp hNew with hOffers | hSettles
    · exact (List.mem_filter.mp hOffers).1
    · exact (List.mem_filter.mp hSettles).1

variable {before after : List SwapMove}

theorem delivered_before (hMoves : S.moves = before ++ after) :
    ∀ event ∈ delivered before, event ∈ delivered S.moves := by
  intro event hMem
  unfold delivered
  rw [hMoves, List.filterMap_append]
  exact List.mem_append_left _ hMem

theorem holds_before (hMoves : S.moves = before ++ after) :
    S.Holds (S.rowAfter before) (S.stage before) := (tracked_run (delivered_before hMoves)).row

theorem terms_inOrder (hClosing : S.closing = some event) :
    (S.rowAfter S.inOrder).map SwapRow.terms = S.completedTerms := by
  have hHolds : S.Holds (S.rowAfter S.inOrder) (S.stage S.inOrder) :=
    (tracked_run fun _ => delivered_inOrder).row
  rw [stage_inOrder hClosing] at hHolds
  rcases hHolds with ⟨r, hRow, hTerms⟩
  rw [hRow, hTerms]
  rfl

variable {guarded : Bool} {now : Int}

theorem stage_moves (hClosing : S.closing = some event)
    (hMoves : S.moves = before ++ .deliver guarded now event :: after) :
    S.stage S.moves = (S.stage before).close := by
  unfold stage
  rw [hMoves, List.foldl_append, List.foldl_cons, next_close hClosing rfl]
  exact foldl_closed SwapStage.close_close after

theorem exists_first_closing (hMem : event ∈ delivered moves) :
    ∃ before after guarded now, moves = before ++ .deliver guarded now event :: after ∧
      event ∉ delivered before := by
  induction moves with
  | nil => cases hMem
  | cons move rest ih =>
    by_cases hMove : move.event? = some event
    · cases move with
      | deliver guarded now other =>
        cases hMove
        exact ⟨[], rest, guarded, now, rfl, nofun⟩
      | newBatch => cases hMove
      | expire asOf => cases hMove
    · have hRest : event ∈ delivered rest := by
        rcases List.mem_filterMap.mp hMem with ⟨other, hOther, hEvent⟩
        rcases List.mem_cons.mp hOther with rfl | hTail
        · exact absurd hEvent hMove
        · exact List.mem_filterMap.mpr ⟨other, hTail, hEvent⟩
      rcases ih hRest with ⟨before, after, guarded, now, hSplit, hFirst⟩
      refine ⟨move :: before, after, guarded, now, ?_, ?_⟩
      · rw [hSplit]
        rfl
      · intro hOld
        rcases List.mem_filterMap.mp hOld with ⟨other, hOther, hEvent⟩
        rcases List.mem_cons.mp hOther with rfl | hTail
        · exact hMove hEvent
        · exact hFirst (List.mem_filterMap.mpr ⟨other, hTail, hEvent⟩)

variable {r : SwapRow}

theorem Holds.terms_eq {r' : SwapRow} (hClosed : stage.close = stage)
    (hHolds : S.Holds (some r) stage) (hHolds' : S.Holds (some r') stage) :
    r'.terms = r.terms := by
  cases stage with
  | unknown => cases hClosed
  | offered => cases hClosed
  | completed =>
    rcases hHolds with ⟨_, ⟨⟩, hTerms⟩
    rcases hHolds' with ⟨_, ⟨⟩, hTerms'⟩
    exact Option.some.inj (hTerms'.symm.trans hTerms)
  | orphaned =>
    rcases hHolds with ⟨_, ⟨⟩, hTerms⟩
    rcases hHolds' with ⟨_, ⟨⟩, hTerms'⟩
    exact Option.some.inj (hTerms'.symm.trans hTerms)

theorem rowAfter_append (S : SwapSchedule) (before : List SwapMove) (move : SwapMove) :
    S.rowAfter (before ++ [move]) = S.rowIn (((SwapWorld.mk S.start []).runMoves before).step
      move) := by
  unfold rowAfter SwapWorld.runMoves
  rw [List.foldl_append]
  rfl

/- Only the first closing of a swap replaces a status. -/
theorem status_step (hMoves : S.moves = before ++ move :: after) (hRow : S.rowAfter before = some r)
    (hStatus : r.status ≠ .pending) :
    ∃ r', S.rowAfter (before ++ [move]) = some r' ∧ (r'.status = r.status ∨
      ∃ event, S.closing = some event ∧ move.event? = some event ∧ event ∉ delivered before) := by
  have hMove : ∀ event ∈ move.event?, event ∈ delivered S.moves := by
    intro event hEvent
    apply List.mem_filterMap.mpr
    refine ⟨move, ?_, hEvent⟩
    rw [hMoves]
    exact List.mem_append_right _ List.mem_cons_self
  have hTracked := tracked_run (delivered_before hMoves)
  have hHolds := hTracked.row
  have hHolds' := hTracked.row_step (delivered_before hMoves) hMove
  have hHere : S.rowIn _ = some r := hRow
  rw [rowAfter_append]
  rcases step_cases (delivered_before hMoves) hMove hTracked with
    ⟨-, hAged⟩ | ⟨now, event, action, r', hEvent, hOwn, hAction, hRow', hAged⟩
  · rw [hHere] at hAged
    generalize S.rowIn (SwapWorld.step _ move) = row at hAged
    cases hAged with
    | some hAged =>
      rw [hAged.eq_of_closed hStatus]
      exact ⟨r, rfl, Or.inl rfl⟩
  · rw [hHere] at hAged
    refine ⟨r', hRow', ?_⟩
    rcases hOwn with rfl | hClosing
    · rcases S.actionOf_proposal now with ⟨_, hProposes, -⟩
      rw [hProposes] at hAction
      cases hAction
      rw [hAged.eq_of_closed hStatus]
      exact Or.inl rfl
    · by_cases hOld : event ∈ delivered before
      · left
        have hClosed := close_stage hClosing hOld
        rw [hHere] at hHolds
        rw [hRow', stage_append, next_close hClosing hEvent, hClosed] at hHolds'
        exact congrArg SwapTerms.status (Holds.terms_eq hClosed hHolds hHolds')
      · exact Or.inr ⟨event, hClosing, hEvent, hOld⟩

/- Statuses stay when the swap is closed in turn. -/
theorem neverReplaced_of_inTurn (hInTurn : S.ClosedInTurn) :
    S.NeverReplaced := by
  intro before middle after hMoves r r' hRow hStatus hRow'
  have hKept : ∃ r', S.rowAfter (before ++ middle) = some r' ∧
      r'.status = r.status := by
    clear hRow'
    induction middle using List.reverseRecOn generalizing after with
    | nil =>
      rw [List.append_nil]
      exact ⟨r, hRow, rfl⟩
    | append_singleton middle move ih =>
      have hSplit : S.moves = (before ++ middle) ++ move :: after := by
        rw [hMoves]
        simp
      rcases ih (move :: after) hSplit with ⟨q, hq, hSame⟩
      have hClosed : q.status ≠ .pending := by
        rw [hSame]
        exact hStatus
      rcases status_step hSplit hq hClosed with
        ⟨r', hRow', hKept | ⟨event, hClosing, hEvent, hFirst⟩⟩
      · rw [← List.append_assoc]
        exact ⟨r', hRow', hKept.trans hSame⟩
      · cases move with
        | deliver guarded now other =>
          cases hEvent
          rcases hInTurn _ _ _ _ _ hClosing hSplit hFirst with ⟨p, hp, hPending⟩ | ⟨hNone, -⟩
          · rw [hq] at hp
            cases hp
            exact absurd hPending hClosed
          · rw [hq] at hNone
            cases hNone
        | newBatch => cases hEvent
        | expire asOf => cases hEvent
  rcases hKept with ⟨q, hq, hSame⟩
  rw [hRow'] at hq
  cases hq
  exact hSame

theorem converges_of_inTurn (hInTurn : S.ClosedInTurn) :
    S.Converges := by
  unfold Converges
  cases hClosing : S.closing with
  | none => rw [inOrder_of_open hClosing]
  | some event =>
    rw [terms_inOrder hClosing]
    rcases exists_first_closing (S.closed event hClosing) with
      ⟨before, after, guarded, now, hMoves, hFirst⟩
    have hEnd : S.Holds (S.rowAfter S.moves) (S.stage S.moves) :=
      holds_before (List.append_nil _).symm
    have hBefore := holds_before hMoves
    have hOpen : ∀ other ∈ S.closing, other ∉ delivered before := by
      intro other hOther
      rw [hClosing] at hOther
      cases hOther
      exact hFirst
    rw [stage_moves hClosing hMoves] at hEnd
    rcases hInTurn before after guarded now event hClosing hMoves hFirst with
      ⟨r, hRow, -⟩ | ⟨hNone, hSame⟩
    · rcases stage_of_not_closed hOpen with hStage | hStage
      · rw [hStage, hRow] at hBefore
        cases hBefore
      · rw [hStage] at hEnd
        rcases hEnd with ⟨r', hRow', hTerms⟩
        rw [hRow', hTerms]
        rfl
    · rcases stage_of_not_closed hOpen with hStage | hStage
      · rw [hStage] at hEnd
        rcases hEnd with ⟨r', hRow', hTerms⟩
        rw [hRow', ← hSame, hTerms]
        rfl
      · rw [hStage, hNone] at hBefore
        rcases hBefore with ⟨_, ⟨⟩, -⟩

/- A placeholder that says what in-order delivery says. -/
theorem Converges.closed_eq (hConverges : S.Converges) (hClosing : S.closing = some event)
    (hMoves : S.moves = before ++ .deliver guarded now event :: after)
    (hStage : S.stage before = .unknown) :
    S.closedTerms = S.completedTerms := by
  have hEnd : S.Holds (S.rowAfter S.moves) (S.stage S.moves) :=
    holds_before (List.append_nil _).symm
  rw [stage_moves hClosing hMoves, hStage] at hEnd
  rcases hEnd with ⟨r, hRow, hTerms⟩
  unfold Converges at hConverges
  rw [terms_inOrder hClosing, hRow] at hConverges
  rw [hTerms]
  exact hConverges

theorem replaced_of_expired (hClosing : S.closing = some event) (hMoves :
    S.moves = before ++ .deliver guarded now event :: after) (hStage : S.stage before = .offered)
    {r : SwapRow} (hRow : S.rowAfter before = some r) (hExpired : r.status = .expired) :
    ¬ S.NeverReplaced := by
  intro hKept
  have hSplit : S.moves =
      before ++ [.deliver guarded now event] ++ after := by
    rw [hMoves]
    simp
  have hNext := holds_before hSplit
  rw [stage_append, next_close hClosing rfl, hStage] at hNext
  rcases hNext with ⟨r', hRow', hTerms⟩
  rcases status_completedTerms hTerms with ⟨closed, hClosed, hStatus⟩
  apply (status_closedTerms hClosed).2
  rw [← hStatus, ← hExpired]
  apply hKept before _ after hSplit r r' hRow _ hRow'
  rw [hExpired]
  exact nofun

end SwapSchedule

/-
  A swap ends as it does in order, and no status other than
  pending is replaced, if and only if it is closed in turn.
-/
theorem swap_converges_iff (S : SwapSchedule) :
    (S.Converges ∧ S.NeverReplaced) ↔ S.ClosedInTurn := by
  constructor
  · rintro ⟨hConverges, hKept⟩ before after guarded now event hClosing hMoves hFirst
    have hBefore := SwapSchedule.holds_before hMoves
    have hOpen : ∀ other ∈ S.closing, other ∉ delivered before := by
      intro other hOther
      rw [hClosing] at hOther
      cases hOther
      exact hFirst
    rcases SwapSchedule.stage_of_not_closed hOpen with hStage | hStage
    · rw [hStage] at hBefore
      exact Or.inr ⟨hBefore, hConverges.closed_eq hClosing hMoves hStage⟩
    · rw [hStage] at hBefore
      rcases hBefore with ⟨r, hRow, hPending | hExpired, -⟩
      · exact Or.inl ⟨r, hRow, hPending⟩
      · exact absurd hKept (SwapSchedule.replaced_of_expired hClosing hMoves hStage hRow hExpired)
  · intro hInTurn
    exact ⟨SwapSchedule.converges_of_inTurn hInTurn, SwapSchedule.neverReplaced_of_inTurn hInTurn⟩

end AtomicSwaps

-- A Closing Ahead of Its Proposal
----

namespace AtomicSwaps

def sampleFields : SwapFields where
  swapId := some "swap"
  proposer := some "alice"
  counterparty := some "bob"
  offeredKey := some "gold"
  offeredAmount := some "3"
  requestedKey := some "silver"
  requestedAmount := some "7"
  expiry := some (.number 1000)
  timestamp := none
  executor := some "bob"
  canceller := none

def sampleEvent (eventType txHash : String) (ledger : Int) : SwapEvent where
  toIndexerChainEvent := bareEvent eventType txHash 0 ledger
  payload := sampleFields

def sampleProposal : SwapEvent := sampleEvent "SwapProposed" "a" 1

def sampleExecution : SwapEvent := sampleEvent "SwapExecuted" "b" 2

/- The proposal, which is to expire after 1000 seconds. -/
def sampleProposed : ProposedSwap where
  swapId := "swap"
  proposer := "alice"
  counterparty := "bob"
  offeredKey := "gold"
  offeredAmount := "3"
  requestedKey := "silver"
  requestedAmount := "7"
  expiresAt := 1000000
  proposedAt := 0
  ledger := 1
  txHash := "a"
  eventIndex := 0

def sampleExecuted : ClosedSwap where
  swapId := "swap"
  ledger := 2
  txHash := "b"
  closedAt := 0
  eventIndex := 0

theorem sampleProposal_proposes : Proposes "swap" sampleProposal := by
  refine ⟨0, sampleProposed, ?_, rfl⟩
  have hKind : swapKind sampleProposal.eventType = some .proposed := by decide
  have hNormal : normalizeSwapProposedEvent 0 sampleProposal =
      some sampleProposed := by decide
  simp only [actionOf, hKind, hNormal, Option.map_some]

theorem sampleExecution_closes : Closes "swap" sampleExecution := by
  refine ⟨0, executing, sampleExecuted, ?_, rfl⟩
  have hKind : swapKind sampleExecution.eventType = some .executed := by decide
  have hNormal : normalizeSwapExecutedEvent 0 sampleExecution =
      some sampleExecuted := by decide
  simp only [actionOf, hKind, hNormal, Option.map_some]

theorem keys_sample :
    ∀ event ∈ [sampleExecution, sampleProposal], ∀ other ∈ [sampleExecution, sampleProposal],
      ∀ seenKey, HasKey event seenKey → HasKey other seenKey → event = other := by
  have hKey :
      ∀ event ∈ [sampleExecution, sampleProposal], ∀ other ∈ [sampleExecution, sampleProposal],
        guardKey (Governance.trim event.txHash) event.eventIndex =
          guardKey (Governance.trim other.txHash) other.eventIndex →
          event = other := by decide
  rintro event hEvent other hOther seenKey
    ⟨now, action, hAction, rfl⟩ ⟨now', action', hAction', hSame⟩
  apply hKey event hEvent other hOther
  rw [← guardKey_of_actionOf hAction, ← guardKey_of_actionOf hAction', hSame]

/- The swap is executed before its proposal arrives. -/
def earlyExecution : SwapSchedule where
  swapId := "swap"
  start := { atomicSwap := .empty }
  proposal := sampleProposal
  closing := some sampleExecution
  moves := [.deliver true 1 sampleExecution, .deliver true 2 sampleProposal]
  fresh := rfl
  proposes := sampleProposal_proposes
  closes := by
    rintro event ⟨⟩
    exact sampleExecution_closes
  own := by
    intro event hMem _
    rcases List.mem_cons.mp hMem with rfl | hRest
    · exact Or.inr rfl
    · exact Or.inl (List.mem_singleton.mp hRest)
  keys := keys_sample
  proposed := List.mem_cons_of_mem _ List.mem_cons_self
  closed := by
    rintro event ⟨⟩
    exact List.mem_cons_self

/- The proposal is skipped, as the placeholder of the execution is taken for it. -/
theorem earlyExecution_diverges : ¬ ∀ S : SwapSchedule, S.Converges ∧ S.NeverReplaced := by
  intro hAll
  have hInTurn : (earlyExecution.rowAfter earlyExecution.moves).map SwapRow.terms ≠
      (earlyExecution.rowAfter earlyExecution.inOrder).map
        SwapRow.terms := by decide
  exact hInTurn (hAll earlyExecution).1

end AtomicSwaps

end Indexer

end AccessLayer
