import AccessLayer.Library.Machines
import AccessLayer.Library.Table
import Mathlib.Data.List.Infix

/-
  Contract transactions, from their submission to their result
  (`src/modules/contracts/contract.service.ts`,
  `src/modules/contracts/confirmation-poller.utils.ts`,
  `src/modules/contracts/ledger-depth-gate.utils.ts`,
  `src/modules/contracts/contract-error.utils.ts`).

  A run submits an envelope until the node accepts it, tracks its
  hash, polls for its result and writes the result.  The replies
  of the node and the readings of the clock are given with the
  run; delays, logs and the check of market envelopes are left
  out, but for what that check throws.

  Main result: `contract_tx_final`
-/

-- Errors
----

namespace AccessLayer

namespace Contracts

section

inductive ContractErrorKind where
  | user
  | transient

/- What is thrown, as an `Error`. -/
structure RpcError where
  name : String
  message : String

def USER_ERROR_MARKERS : List String :=
  ["tx_bad_auth", "tx_bad_seq", "tx_insufficient_balance",
    "tx_insufficient_fee", "tx_no_source_account", "tx_malformed",
    "tx_too_late", "tx_too_early", "insufficient_funds",
    "unauthorized", "not_found", "invalid", "expired", "reverted"]

def TRANSIENT_ERROR_MARKERS : List String :=
  ["timeout", "timed out", "temporarily", "unavailable",
    "rate limit", "too many requests", "internal error",
    "try again", " aborted", "connection", "network",
    "econnrefused", "econnreset", "enotfound", "etimedout", "502", "503", "504"]

def isBlobChar (c : Char) : Bool := c.isAlphanum || c = '+' || c = '/' || c = '='

def maskBlob (blob : List Char) : List Char :=
  if 40 ≤ blob.length then "[xdr]".toList else blob

/- Mask the long blobs of a text, given the one begun. -/
def maskBlobs (blob : List Char) : List Char → List Char
  | [] => maskBlob blob
  | c :: rest =>
    if isBlobChar c then maskBlobs (blob ++ [c]) rest
    else maskBlob blob ++ c :: maskBlobs [] rest

/- `toLowerCase`, as far as ASCII characters come of it. -/
def lowerCase (c : Char) : List Char :=
  if c = '\u0130' then ['i', '\u0307']
  else if c = '\u212a' then ['k']
  else [c.toLower]

def sanitizeMessage (message : String) : List Char :=
  (maskBlobs [] message.toList).flatMap lowerCase

def includesAny (message : List Char) (markers : List String) : Bool :=
  markers.any fun marker => marker.toList <:+: message

def classifyContractError (error : RpcError) : ContractErrorKind :=
  let message := sanitizeMessage error.message
  if error.name = "SorobanRpcMethodError" then .user
  else if includesAny message USER_ERROR_MARKERS then .user
  else if includesAny message TRANSIENT_ERROR_MARKERS then
    .transient
  else if error.name ∈ ["TypeError", "AbortError", "SorobanRpcHttpError"] then
    .transient
  else .transient

-- Transactions
----

open Transactional

inductive ContractOperation where
  | buy
  | sell
  | stake
  | governance
  | claim
  | qualifyWallet
  | mintBadge

inductive ContractTransactionStatus where
  | pending
  | confirmed
  | failed
  deriving DecidableEq

structure ContractTransaction where
  txHash : String
  operation : ContractOperation
  submitterWallet : String
  status : ContractTransactionStatus
  attempts : ℕ
  lastError : Option String
  errorKind : Option ContractErrorKind
  ledger : Option ℤ
  resultXdr : Option String

instance : Keyed ContractTransaction String where
  key := ContractTransaction.txHash

abbrev TransactionTable := Table ContractTransaction

structure SendTransactionResult where
  hash : Option String
  status : String
  errorResultXdr : Option String

inductive NodeStatus where
  | success
  | notFound
  | failed

structure GetTransactionResult where
  status : NodeStatus
  latestLedger : Option ℤ
  ledger : Option ℤ
  resultXdr : Option String

inductive PollOutcome where
  | success (ledger : ℤ) (resultXdr : Option String)
  | failed (ledger : Option ℤ) (resultXdr : Option String) (lastError : String)

/- What the check of market envelopes may throw. -/
inductive GuardError where
  | invalidTransaction
  | protocolUnavailable
  | transferBlocked (reason restrictionType : String)

inductive ContractSubmissionResult where
  | confirmed (txHash : String) (ledger : ℤ) (resultXdr : Option String) (attempts : ℕ)
  | failed (txHash : Option String) (errorKind : ContractErrorKind) (lastError : String)
    (attempts : ℕ)

structure ContractSubmitError where
  kind : ContractErrorKind
  message : String
  attempts : ℕ
  txHash : Option String

/- How a run has ended. -/
inductive SubmitResult where
  | returned (result : ContractSubmissionResult)
  | threw (error : ContractSubmitError)
  | refused (error : GuardError)

inductive ContractServiceEvent where
  | confirmed (operation : ContractOperation) (submitterWallet : String) (txHash : String)
    (ledger : ℤ) (resultXdr : Option String) (attempts : ℕ)
  | failed (operation : ContractOperation) (submitterWallet : String) (txHash : Option String)
    (errorKind : ContractErrorKind) (lastError : String) (attempts : ℕ)

structure SubmitConfig where
  maxAttempts : ℕ
  pollTimeoutMs : ℤ

def CONFIRMED_LEDGER_DEPTH : ℤ := 2

/-
  A run, with what it is answered: by the check of the envelope,
  by the node in the order of its requests, and by the clock.
-/
structure SubmitRequest where
  operation : ContractOperation
  submitterWallet : String
  guardInvoiceMarketSubmission : Option GuardError
  sendTransaction : ℕ → Except RpcError SendTransactionResult
  getTransaction : ℕ → Except RpcError (Option GetTransactionResult)
  now : ℕ → ℤ

/- A text that is there and not empty. -/
def truthy (text : Option String) : Option String := text.filter (· ≠ "")

/- One attempt: the node accepts the envelope, or it throws. -/
def submitOnce (reply : Except RpcError SendTransactionResult) : Except RpcError String :=
  match reply with
  | .error e => .error e
  | .ok result =>
    match truthy result.hash, truthy result.errorResultXdr with
    | some hash, detail =>
      if result.status ≠ "ERROR" then .ok hash
      else .error (rejected detail)
    | none, detail => .error (rejected detail)
where
  rejected (detail : Option String) : RpcError :=
    { name := "Error"
      message := "tx_failed submission rejected: " ++ detail.getD "no transaction hash returned" }

/- A request that does not reach the node. -/
def transportError : RpcError where
  name := "TypeError"
  message := "fetch failed"

-- Runs
----

inductive SubmitStage where
  | guarding
  | submitting (lastError : Option String)
  | recording (txHash : String)
  | polling (txHash : String) (deadline : ℤ) (lastError : Option String)
  | gating (txHash : String) (ledger : ℤ) (resultXdr : Option String) (deadline latestLedger : ℤ)
  | persisting (txHash : String) (outcome : Option PollOutcome)
  | ended (result : SubmitResult)

/- How many requests a run has made, and how often it has looked
   at the clock. -/
structure SubmitCall where
  request : SubmitRequest
  stage : SubmitStage
  attempts : ℕ
  polls : ℕ
  readings : ℕ
  events : List ContractServiceEvent

def SubmitRequest.call (request : SubmitRequest) : SubmitCall where
  request := request
  stage := .guarding
  attempts := 0
  polls := 0
  readings := 0
  events := []

def failureMessage (config : SubmitConfig) : Option PollOutcome → String
  | some (.failed _ _ lastError) =>
    if lastError = "" then "Transaction failed on-chain"
    else lastError
  | _ => "Confirmation not observed within " ++ toString config.pollTimeoutMs ++ "ms"

def failureKind : Option PollOutcome → ContractErrorKind
  | some (.failed _ _ _) => .user
  | _ => .transient

def confirmRow (ledger : ℤ) (resultXdr : Option String)
    (row : ContractTransaction) : ContractTransaction :=
  { row with
    status := .confirmed
    ledger := some ledger
    resultXdr := resultXdr
    lastError := none
    errorKind := none }

/- A ledger of zero and an empty result are left as they were. -/
def failRow (config : SubmitConfig) (outcome : Option PollOutcome)
    (row : ContractTransaction) : ContractTransaction :=
  let failed :=
    { row with
      status := .failed
      lastError := some (failureMessage config outcome)
      errorKind := some (failureKind outcome) }
  match outcome with
  | some (.failed ledger resultXdr _) =>
    { failed with
      ledger := (ledger.filter (· ≠ 0)).or row.ledger
      resultXdr := (truthy resultXdr).or row.resultXdr }
  | _ => failed

def resolveRow (config : SubmitConfig) (outcome : Option PollOutcome)
    (row : ContractTransaction) : ContractTransaction :=
  match outcome with
  | some (.success ledger resultXdr) => confirmRow ledger resultXdr row
  | _ => failRow config outcome row

theorem key_resolveRow (config : SubmitConfig) (outcome : Option PollOutcome)
    (row : ContractTransaction) :
    key (resolveRow config outcome row) = key row := by
  unfold resolveRow failRow
  split
  · rfl
  · split
    · rfl
    · rfl

/- The row of a hash that is not stored is not written. -/
def resolve (config : SubmitConfig) (txHash : String) (outcome : Option PollOutcome)
    (db : TransactionTable) : TransactionTable :=
  db.update txHash (resolveRow config outcome) (key_resolveRow config outcome)

namespace SubmitCall

variable (config : SubmitConfig) (call : SubmitCall)

def emit (event : ContractServiceEvent) : SubmitCall :=
  { call with events := call.events ++ [event] }

def moveTo (stage : SubmitStage) : SubmitCall := { call with stage }

/- The run fails before the node has accepted its envelope. -/
def throwSubmitError (kind : ContractErrorKind) (message : String) : SubmitCall :=
  (call.emit (.failed call.request.operation call.request.submitterWallet
    none kind message call.attempts)).moveTo (.ended (.threw
      { kind
        message
        attempts := call.attempts
        txHash := none }))

/- The result is announced and returned. -/
def finish (txHash : String) (outcome : Option PollOutcome) : SubmitCall :=
  match outcome with
  | some (.success ledger resultXdr) =>
    (call.emit (.confirmed call.request.operation
      call.request.submitterWallet txHash ledger resultXdr call.attempts)).moveTo (.ended
      (.returned (.confirmed txHash ledger resultXdr call.attempts)))
  | _ =>
    (call.emit (.failed call.request.operation call.request.submitterWallet (some txHash)
      (failureKind outcome) (failureMessage config outcome) call.attempts)).moveTo (.ended
      (.returned (.failed (some txHash) (failureKind outcome)
        (failureMessage config outcome) call.attempts)))

/- One pass of the loop that submits the envelope. -/
def submit (lastError : Option String)
    (reply : Except RpcError SendTransactionResult) : SubmitCall :=
  if call.attempts < config.maxAttempts then
    let attempted := { call with attempts := call.attempts + 1 }
    match submitOnce reply with
    | .ok txHash => attempted.moveTo (.recording txHash)
    | .error e =>
      match classifyContractError e with
      | .user => attempted.throwSubmitError .user e.message
      | .transient => attempted.moveTo (.submitting (some e.message))
  else
    call.throwSubmitError .transient (lastError.getD "unknown submission error")

/- Polling begins, with so much time. -/
def startPolling (txHash : String) : SubmitCall :=
  { call with
    stage :=
      .polling txHash (call.request.now call.readings + config.pollTimeoutMs)
        none
    readings := call.readings + 1 }

def startGating (txHash : String) (ledger : ℤ) (resultXdr : Option String) : SubmitCall :=
  { call with
    stage :=
      .gating txHash ledger resultXdr (call.request.now call.readings + config.pollTimeoutMs) 0
    readings := call.readings + 1 }

/- The clock has been read, and the node has been asked. -/
def asked : SubmitCall :=
  { call with
    polls := call.polls + 1
    readings := call.readings + 1 }

/- One pass of `pollForConfirmation`. -/
def poll (txHash : String) (deadline : ℤ) (lastError : Option String)
    (reply : Except RpcError (Option GetTransactionResult)) :
    SubmitCall :=
  if call.request.now call.readings < deadline then
    match reply with
    | .error e => call.asked.moveTo (.polling txHash deadline (some e.message))
    | .ok none => call.asked.moveTo (.polling txHash deadline lastError)
    | .ok (some result) =>
      match result.status with
      | .success =>
        call.asked.startGating config txHash ((result.ledger.or result.latestLedger).getD 0)
          result.resultXdr
      | .failed =>
        call.asked.moveTo (.persisting txHash (some (.failed result.ledger result.resultXdr
          (lastError.getD "Transaction failed on-chain"))))
      | .notFound => call.asked.moveTo (.polling txHash deadline lastError)
  else
    { call with
      stage := .persisting txHash none
      readings := call.readings + 1 }

/- One pass of `waitForLedgerDepth`. -/
def waitDepth (txHash : String) (ledger : ℤ) (resultXdr : Option String) (deadline latestLedger : ℤ)
    (reply : Except RpcError (Option GetTransactionResult)) :
    SubmitCall :=
  let done := SubmitStage.persisting txHash (some (.success ledger resultXdr))
  if call.request.now call.readings < deadline then
    match reply with
    | .error _ => call.asked.moveTo (.gating txHash ledger resultXdr deadline latestLedger)
    | .ok result =>
      let latest := (result.bind GetTransactionResult.latestLedger).getD latestLedger
      if CONFIRMED_LEDGER_DEPTH ≤ latest - ledger then
        call.asked.moveTo done
      else
        call.asked.moveTo (.gating txHash ledger resultXdr deadline latest)
  else { call with stage := done, readings := call.readings + 1 }

end SubmitCall

/- The row of a hash that is tracked already stays. -/
def recordPending (txHash : String) (call : SubmitCall)
    (db : TransactionTable) : TransactionTable :=
  (db.insert?
    { txHash
      operation := call.request.operation
      submitterWallet := call.request.submitterWallet
      status := .pending
      attempts := call.attempts
      lastError := none
      errorKind := none
      ledger := none
      resultXdr := none }).getD db

def executeSubmitCall (config : SubmitConfig) (call : SubmitCall) (db : TransactionTable) :
    Option (TransactionTable × SubmitCall) :=
  match call.stage with
  | .guarding =>
    match call.request.guardInvoiceMarketSubmission with
    | some e => some (db, call.moveTo (.ended (.refused e)))
    | none => some (db, call.moveTo (.submitting none))
  | .submitting lastError =>
    some (db, call.submit config lastError (call.request.sendTransaction call.attempts))
  | .recording txHash => some (recordPending txHash call db, call.startPolling config txHash)
  | .polling txHash deadline lastError =>
    some (db, call.poll config txHash deadline lastError (call.request.getTransaction call.polls))
  | .gating txHash ledger resultXdr deadline latestLedger =>
    some (db, call.waitDepth txHash ledger resultXdr deadline
      latestLedger (call.request.getTransaction call.polls))
  | .persisting txHash outcome =>
    some (resolve config txHash outcome db, call.finish config txHash outcome)
  | .ended _ => none

/- What a run does when a request or a statement of it fails. -/
def SubmitCall.fail (config : SubmitConfig) (call : SubmitCall) : SubmitCall :=
  match call.stage with
  | .guarding => call.moveTo (.ended (.refused .protocolUnavailable))
  | .submitting lastError => call.submit config lastError (.error transportError)
  | .recording txHash => call.startPolling config txHash
  | .polling txHash deadline lastError =>
    call.poll config txHash deadline lastError (.error transportError)
  | .gating txHash ledger resultXdr deadline latestLedger =>
    call.waitDepth txHash ledger resultXdr deadline latestLedger (.error transportError)
  | .persisting txHash outcome => call.finish config txHash outcome
  | .ended _ => call

def submissions (config : SubmitConfig) : Machine TransactionTable SubmitCall where
  execute := executeSubmitCall config
  fail := SubmitCall.fail config

end

-- Events
----

section

open Transactional

variable {config : SubmitConfig} {call next : SubmitCall} {db db' : TransactionTable}
variable {txHash : String} {outcome : Option PollOutcome}

def SubmitRequest.eventOf (request : SubmitRequest) : SubmitResult → Option ContractServiceEvent
  | .returned (.confirmed txHash ledger resultXdr attempts) =>
    some (.confirmed request.operation request.submitterWallet txHash ledger resultXdr attempts)
  | .returned (.failed txHash errorKind lastError attempts) =>
    some (.failed request.operation request.submitterWallet txHash errorKind lastError attempts)
  | .threw e =>
    some (.failed request.operation request.submitterWallet e.txHash e.kind e.message e.attempts)
  | .refused _ => none

/- A run announces its result when it ends, and nothing before. -/
def Announced (call : SubmitCall) : Prop :=
  match call.stage with
  | .ended result => call.events = (call.request.eventOf result).toList
  | _ => call.events = []

theorem announced_throwSubmitError (hEvents : call.events = []) (kind : ContractErrorKind)
    (message : String) :
    Announced (call.throwSubmitError kind message) := by
  change call.events ++ [_] = [_]
  rw [hEvents]
  rfl

theorem announced_finish (hEvents : call.events = []) (txHash : String)
    (outcome : Option PollOutcome) :
    Announced (call.finish config txHash outcome) := by
  unfold SubmitCall.finish
  split
  · change call.events ++ [_] = [_]
    rw [hEvents]
    rfl
  · change call.events ++ [_] = [_]
    rw [hEvents]
    rfl

theorem announced_submit (hEvents : call.events = []) (lastError : Option String)
    (reply : Except RpcError SendTransactionResult) :
    Announced (call.submit config lastError reply) := by
  unfold SubmitCall.submit
  split
  · split
    · exact hEvents
    · split
      · refine announced_throwSubmitError ?_ _ _
        exact hEvents
      · exact hEvents
  · exact announced_throwSubmitError hEvents _ _

theorem announced_poll (hEvents : call.events = []) (txHash : String) (deadline : ℤ)
    (lastError : Option String) (reply : Except RpcError (Option GetTransactionResult)) :
    Announced (call.poll config txHash deadline lastError reply) := by
  unfold SubmitCall.poll
  split
  · split
    · exact hEvents
    · exact hEvents
    · split
      · exact hEvents
      · exact hEvents
      · exact hEvents
  · exact hEvents

theorem announced_waitDepth (hEvents : call.events = []) (txHash : String) (ledger : ℤ)
    (resultXdr : Option String) (deadline latestLedger : ℤ)
    (reply : Except RpcError (Option GetTransactionResult)) :
    Announced (call.waitDepth txHash ledger resultXdr deadline latestLedger reply) := by
  unfold SubmitCall.waitDepth
  dsimp only
  split
  · split
    · exact hEvents
    · split
      · exact hEvents
      · exact hEvents
  · exact hEvents

theorem announced_execute (hAnnounced : Announced call)
    (hExecute : executeSubmitCall config call db = some (db', next)) :
    Announced next := by
  rcases call with ⟨request, stage, attempts, polls, readings, events⟩
  cases stage with
  | guarding =>
    simp only [executeSubmitCall] at hExecute
    split at hExecute
    · cases hExecute
      exact hAnnounced
    · cases hExecute
      exact hAnnounced
  | submitting lastError =>
    cases hExecute
    exact announced_submit hAnnounced _ _
  | recording txHash =>
    cases hExecute
    exact hAnnounced
  | polling txHash deadline lastError =>
    cases hExecute
    exact announced_poll hAnnounced _ _ _ _
  | gating txHash ledger resultXdr deadline latestLedger =>
    cases hExecute
    exact announced_waitDepth hAnnounced _ _ _ _ _ _
  | persisting txHash outcome =>
    cases hExecute
    exact announced_finish hAnnounced _ _
  | ended result => cases hExecute

theorem announced_fail (hAnnounced : Announced call) : Announced (call.fail config) := by
  rcases call with ⟨request, stage, attempts, polls, readings, events⟩
  cases stage with
  | guarding => exact hAnnounced
  | submitting lastError => exact announced_submit hAnnounced _ _
  | recording txHash => exact hAnnounced
  | polling txHash deadline lastError => exact announced_poll hAnnounced _ _ _ _
  | gating txHash ledger resultXdr deadline latestLedger =>
    exact announced_waitDepth hAnnounced _ _ _ _ _ _
  | persisting txHash outcome => exact announced_finish hAnnounced _ _
  | ended result => exact hAnnounced

end

-- Statuses
----

section

open Transactional

variable {config : SubmitConfig} {call next : SubmitCall} {base db db' : TransactionTable}
variable {row : ContractTransaction} {txHash : String} {P : ContractTransactionStatus → Prop}

def resolvedStatus : Option PollOutcome → ContractTransactionStatus
  | some (.success _ _) => .confirmed
  | _ => .failed

theorem status_resolveRow (config : SubmitConfig) (outcome : Option PollOutcome)
    (row : ContractTransaction) :
    (resolveRow config outcome row).status = resolvedStatus outcome := by
  unfold resolveRow
  split
  · rfl
  · rename_i hOther
    unfold failRow resolvedStatus
    split
    · rfl
    · split
      · exact absurd rfl (hOther _ _)
      · rfl

/- Transactions in such a status stay in one. -/
def KeepsStatus (P : ContractTransactionStatus → Prop) (db db' : TransactionTable) : Prop :=
  ∀ txHash row, db.find? txHash = some row → P row.status →
    ∃ row', db'.find? txHash = some row' ∧ P row'.status

theorem keepsStatus_refl (P : ContractTransactionStatus → Prop) (db : TransactionTable) :
    KeepsStatus P db db :=
  fun _ row hRow hStatus => ⟨row, hRow, hStatus⟩

/- The hash of the transaction that a call is about to fail. -/
def SubmitStage.failing : SubmitStage → Option String
  | .persisting _ (some (.success _ _)) => none
  | .persisting txHash _ => some txHash
  | _ => none

/- No result but a success is written on a confirmed row. -/
def NotReversed (db : TransactionTable) (call : SubmitCall) (outcome : Option Outcome) : Prop :=
  takesEffect outcome = true → ∀ txHash ∈ call.stage.failing,
    ∀ row ∈ db.find? txHash, row.status ≠ .confirmed

instance (db : TransactionTable) (call : SubmitCall) (outcome : Option Outcome) :
    Decidable (NotReversed db call outcome) := inferInstanceAs (Decidable (_ → _))

theorem find?_recordPending (call : SubmitCall) (hRow : db.find? txHash = some row) (own : String) :
    (recordPending own call db).find? txHash = some row := by
  unfold recordPending
  generalize hNew : ContractTransaction.mk own _ _ _ _ _ _ _ _ = new
  cases hInsert : db.insert? new with
  | none => exact hRow
  | some db' =>
    have hFresh := (Table.insert?_eq_some hInsert).1
    have hOther : txHash ≠ key new := by
      rintro rfl
      cases hFresh.symm.trans hRow
    rw [Option.getD_some, Table.find?_insert? hInsert, if_neg hOther]
    exact hRow

/- A row has its status from the last result that was written. -/
theorem find?_resolve (config : SubmitConfig) (own : String) (outcome : Option PollOutcome)
    (hRow : db.find? txHash = some row) :
    ∃ row', (resolve config own outcome db).find? txHash = some row' ∧ (row' = row ∨
      txHash = own ∧ row'.status = resolvedStatus outcome) := by
  unfold resolve
  by_cases hOwn : txHash = own
  · subst hOwn
    refine ⟨resolveRow config outcome row, ?_, .inr ⟨rfl, ?_⟩⟩
    · rw [Table.find?_update_same, hRow]
      rfl
    · exact status_resolveRow config outcome row
  · refine ⟨row, ?_, .inl rfl⟩
    rw [Table.find?_update_other _ _ _ hOwn]
    exact hRow

theorem KeepsStatus.execute (hKeeps : KeepsStatus P base db)
    (hExecute : executeSubmitCall config call db = some (db', next))
    (hWrites : ∀ txHash outcome row, call.stage = .persisting txHash outcome →
      db.find? txHash = some row → P row.status → P (resolvedStatus outcome)) :
    KeepsStatus P base db' := by
  intro own first hFirst hStatus
  rcases hKeeps own first hFirst hStatus with ⟨row, hRow, hHolds⟩
  rcases call with ⟨request, stage, attempts, polls, readings, events⟩
  cases stage with
  | guarding =>
    simp only [executeSubmitCall] at hExecute
    split at hExecute
    · cases hExecute
      exact ⟨row, hRow, hHolds⟩
    · cases hExecute
      exact ⟨row, hRow, hHolds⟩
  | submitting lastError =>
    cases hExecute
    exact ⟨row, hRow, hHolds⟩
  | recording txHash =>
    cases hExecute
    exact ⟨row, find?_recordPending _ hRow txHash, hHolds⟩
  | polling txHash deadline lastError =>
    cases hExecute
    exact ⟨row, hRow, hHolds⟩
  | gating txHash ledger resultXdr deadline latestLedger =>
    cases hExecute
    exact ⟨row, hRow, hHolds⟩
  | persisting txHash outcome =>
    cases hExecute
    rcases find?_resolve config txHash outcome hRow with ⟨row', hRow', rfl | ⟨rfl, hResolved⟩⟩
    · exact ⟨row', hRow', hHolds⟩
    · refine ⟨row', hRow', ?_⟩
      rw [hResolved]
      exact hWrites own outcome row rfl hRow hHolds
  | ended result => cases hExecute

theorem resolvedStatus_eq_confirmed {outcome : Option PollOutcome}
    (hNone : (SubmitStage.persisting txHash outcome).failing = none) :
    resolvedStatus outcome = .confirmed := by
  unfold SubmitStage.failing at hNone
  split at hNone
  · rename_i hStage
    cases hStage
    rfl
  · cases hNone
  · rename_i hOther
    exact absurd rfl (hOther txHash outcome)

theorem resolvedStatus_ne_pending (outcome : Option PollOutcome) :
    resolvedStatus outcome ≠ .pending := by
  unfold resolvedStatus
  split
  · decide
  · decide

end

-- Ends of Runs
----

open Transactional

variable {config : SubmitConfig} {call call' next : SubmitCall} {db db' : TransactionTable}
variable {txHash : String} {ledger deadline latestLedger : ℤ} {resultXdr lastError : Option String}
variable {outcome : Option PollOutcome}

/- The clock of a run passes every time. -/
def SubmitRequest.TimePasses (request : SubmitRequest) : Prop :=
  ∀ time, ∃ n, ∀ m, n ≤ m → time ≤ request.now m

/- Served on its own, the run comes to an end. -/
def Ends (config : SubmitConfig) (db : TransactionTable) (call : SubmitCall) : Prop :=
  ∃ count db' last result, (submissions config).Serves db' last count db call ∧
    last.stage = .ended result

theorem ends_of_ended {result : SubmitResult} (hStage : call.stage = .ended result) :
    Ends config db call := ⟨0, db, call, result, .ended, hStage⟩

theorem Ends.step (hExecute :
    executeSubmitCall config call db = some (db', next)) (hEnds : Ends config db' next) :
    Ends config db call := by
  rcases hEnds with ⟨count, last, s, result, hServes, hStage⟩
  exact ⟨count + 1, last, s, result, .step hExecute hServes, hStage⟩

theorem ends_persisting (hStage : call.stage = .persisting txHash outcome) :
    Ends config db call := by
  have hExecute : executeSubmitCall config call db = some (resolve config txHash outcome db,
      call.finish config txHash outcome) := by
    simp only [executeSubmitCall, hStage]
  refine Ends.step hExecute ?_
  unfold SubmitCall.finish
  split
  · exact ends_of_ended rfl
  · exact ends_of_ended rfl

theorem execute_gating (db : TransactionTable)
    (hStage : call.stage = .gating txHash ledger resultXdr deadline latestLedger) :
    executeSubmitCall config call db = some (db, call.waitDepth txHash ledger resultXdr deadline
      latestLedger (call.request.getTransaction call.polls)) := by
  simp only [executeSubmitCall, hStage]

theorem execute_polling (db : TransactionTable)
    (hStage : call.stage = .polling txHash deadline lastError) :
    executeSubmitCall config call db = some (db, call.poll config txHash deadline lastError
      (call.request.getTransaction call.polls)) := by
  simp only [executeSubmitCall, hStage]

theorem execute_submitting (db : TransactionTable) (hStage : call.stage = .submitting lastError) :
    executeSubmitCall config call db = some (db, call.submit config lastError
      (call.request.sendTransaction call.attempts)) := by
  simp only [executeSubmitCall, hStage]

theorem waitDepth_cases (reply : Except RpcError (Option GetTransactionResult))
    (hNext : call.waitDepth txHash ledger resultXdr deadline latestLedger reply = call') :
    call'.stage = .persisting txHash (some (.success ledger resultXdr)) ∨
      call.request.now call.readings < deadline ∧ call'.request = call.request ∧
        call'.readings = call.readings + 1 ∧ ∃ latest, call'.stage =
          .gating txHash ledger resultXdr deadline latest := by
  subst hNext
  unfold SubmitCall.waitDepth
  dsimp only
  split
  · rename_i hTime
    split
    · exact .inr ⟨hTime, rfl, rfl, _, rfl⟩
    · split
      · exact .inl rfl
      · exact .inr ⟨hTime, rfl, rfl, _, rfl⟩
  · exact .inl rfl

theorem ends_gating (hTime : call.request.TimePasses)
    (hStage : call.stage = .gating txHash ledger resultXdr deadline latestLedger) :
    Ends config db call := by
  rcases hTime deadline with ⟨n, hPassed⟩
  -- a reading before the deadline is one of the first n
  induction hLeft : n - call.readings using Nat.strong_induction_on
    generalizing call latestLedger with
  | _ left ih =>
    refine Ends.step (execute_gating db hStage) ?_
    generalize hNext : call.waitDepth txHash ledger resultXdr deadline latestLedger _ = next
    rcases waitDepth_cases _ hNext with hDone | ⟨hBefore, hRequest, hReadings, latest, hGating⟩
    · exact ends_persisting hDone
    · have hEarly : call.readings < n :=
        not_le.mp fun hLate => absurd hBefore (not_lt.mpr (hPassed _ hLate))
      exact ih (n - next.readings) (by omega) (hRequest ▸ hTime) hGating (hRequest ▸ hPassed) rfl

theorem poll_cases (reply : Except RpcError (Option GetTransactionResult))
    (hNext : call.poll config txHash deadline lastError reply = call') :
    call'.request = call.request ∧ ((∃ outcome, call'.stage = .persisting txHash outcome) ∨
      (∃ ledger resultXdr until' latest, call'.stage =
        .gating txHash ledger resultXdr until' latest) ∨
      call.request.now call.readings < deadline ∧ call'.readings = call.readings + 1 ∧
        ∃ lastError', call'.stage = .polling txHash deadline lastError') := by
  subst hNext
  unfold SubmitCall.poll
  split
  · rename_i hTime
    split
    · exact ⟨rfl, .inr (.inr ⟨hTime, rfl, _, rfl⟩)⟩
    · exact ⟨rfl, .inr (.inr ⟨hTime, rfl, _, rfl⟩)⟩
    · split
      · exact ⟨rfl, .inr (.inl ⟨_, _, _, _, rfl⟩)⟩
      · exact ⟨rfl, .inl ⟨_, rfl⟩⟩
      · exact ⟨rfl, .inr (.inr ⟨hTime, rfl, _, rfl⟩)⟩
  · exact ⟨rfl, .inl ⟨_, rfl⟩⟩

theorem ends_polling (hTime : call.request.TimePasses)
    (hStage : call.stage = .polling txHash deadline lastError) :
    Ends config db call := by
  rcases hTime deadline with ⟨n, hPassed⟩
  induction hLeft : n - call.readings using Nat.strong_induction_on
    generalizing call lastError with
  | _ left ih =>
    refine Ends.step (execute_polling db hStage) ?_
    generalize hNext : call.poll config txHash deadline lastError _ = next
    rcases poll_cases _ hNext with ⟨hRequest, ⟨outcome, hDone⟩ | ⟨_, _, _, _, hGating⟩ |
      ⟨hBefore, hReadings, lastError', hPolling⟩⟩
    · exact ends_persisting hDone
    · exact ends_gating (hRequest ▸ hTime) hGating
    · have hEarly : call.readings < n :=
        not_le.mp fun hLate => absurd hBefore (not_lt.mpr (hPassed _ hLate))
      exact ih (n - next.readings) (by omega) (hRequest ▸ hTime) hPolling (hRequest ▸ hPassed) rfl

theorem ends_recording (hTime : call.request.TimePasses) (hStage : call.stage = .recording txHash) :
    Ends config db call := by
  have hExecute : executeSubmitCall config call db = some (recordPending txHash call db,
      call.startPolling config txHash) := by
    simp only [executeSubmitCall, hStage]
  exact Ends.step hExecute (ends_polling hTime rfl)

/- An envelope is submitted a limited number of times. -/
theorem submit_cases (reply : Except RpcError SendTransactionResult)
    (hNext : call.submit config lastError reply = call') :
    call'.request = call.request ∧ ((∃ result, call'.stage = .ended result) ∨
      (∃ txHash, call'.stage = .recording txHash) ∨ call.attempts < config.maxAttempts ∧
        call'.attempts = call.attempts + 1 ∧
        ∃ lastError', call'.stage = .submitting lastError') := by
  subst hNext
  unfold SubmitCall.submit
  split
  · rename_i hAttempts
    split
    · exact ⟨rfl, .inr (.inl ⟨_, rfl⟩)⟩
    · split
      · exact ⟨rfl, .inl ⟨_, rfl⟩⟩
      · exact ⟨rfl, .inr (.inr ⟨hAttempts, rfl, _, rfl⟩)⟩
  · exact ⟨rfl, .inl ⟨_, rfl⟩⟩

theorem ends_submitting (hTime : call.request.TimePasses)
    (hStage : call.stage = .submitting lastError) :
    Ends config db call := by
  induction hLeft : config.maxAttempts - call.attempts using Nat.strong_induction_on
    generalizing call lastError with
  | _ left ih =>
    refine Ends.step (execute_submitting db hStage) ?_
    generalize hNext : call.submit config lastError _ = next
    rcases submit_cases _ hNext with ⟨hRequest, ⟨result, hEnded⟩ | ⟨txHash, hRecording⟩ |
      ⟨hBelow, hAttempts, lastError', hSubmitting⟩⟩
    · exact ends_of_ended hEnded
    · exact ends_recording (hRequest ▸ hTime) hRecording
    · exact ih (config.maxAttempts - next.attempts) (by omega) (hRequest ▸ hTime) hSubmitting rfl

theorem ends_call (hTime : call.request.TimePasses) : Ends config db call := by
  cases hStage : call.stage with
  | guarding =>
    cases hGuard : call.request.guardInvoiceMarketSubmission with
    | none =>
      have hExecute : executeSubmitCall config call db =
          some (db, call.moveTo (.submitting none)) := by
        simp only [executeSubmitCall, hStage, hGuard]
      exact Ends.step hExecute (ends_submitting hTime rfl)
    | some e =>
      have hExecute : executeSubmitCall config call db =
          some (db, call.moveTo (.ended (.refused e))) := by
        simp only [executeSubmitCall, hStage, hGuard]
      exact Ends.step hExecute (ends_of_ended rfl)
  | submitting lastError => exact ends_submitting hTime hStage
  | recording txHash => exact ends_recording hTime hStage
  | polling txHash deadline lastError => exact ends_polling hTime hStage
  | gating txHash ledger resultXdr deadline latestLedger => exact ends_gating hTime hStage
  | persisting txHash outcome => exact ends_persisting hStage
  | ended result => exact ends_of_ended hStage

-- Finality
----

variable {crew : Crew TransactionTable SubmitCall} {requests : List SubmitRequest}
variable {moves : List FaultMove}

def submitStart (requests : List SubmitRequest) : Crew TransactionTable SubmitCall :=
  .start Table.empty (requests.map SubmitRequest.call)

theorem submissions_keep_confirmed (base : TransactionTable) :
    (submissions config).Keeps NotReversed (KeepsStatus (· = .confirmed) base) Announced where
  execute := by
    intro db call outcome db' next hKeeps _ hAllowed hEffect hExecute
    refine hKeeps.execute hExecute ?_
    intro txHash result row hStage hRow hStatus
    cases hFailing : call.stage.failing with
    | none =>
      rw [hStage] at hFailing
      exact resolvedStatus_eq_confirmed hFailing
    | some failing =>
      have hSame : failing = txHash := by
        rw [hStage] at hFailing
        unfold SubmitStage.failing at hFailing
        split at hFailing
        · cases hFailing
        · rename_i hPersisting
          cases hPersisting
          cases hFailing
          rfl
        · cases hFailing
      subst hSame
      exact absurd hStatus (hAllowed hEffect failing hFailing row hRow)
  next := fun _ _ _ _ _ hAnnounced hExecute => announced_execute hAnnounced hExecute
  fail := fun _ hAnnounced => announced_fail hAnnounced

theorem submissions_keep_resolved (base : TransactionTable) :
    (submissions config).Keeps (fun _ _ _ => True) (KeepsStatus (· ≠ .pending) base) Announced where
  execute := by
    intro db call outcome db' next hKeeps _ _ _ hExecute
    refine hKeeps.execute hExecute ?_
    intro txHash result row _ _ _
    exact resolvedStatus_ne_pending result
  next := fun _ _ _ _ _ hAnnounced hExecute => announced_execute hAnnounced hExecute
  fail := fun _ hAnnounced => announced_fail hAnnounced

theorem announced_of_run {allowed : Crew TransactionTable SubmitCall → FaultMove → Prop}
    (hRun : RunsTo (Crew.attempt (submissions config)) allowed (submitStart requests) moves crew) :
    crew.All Announced := by
  have hStart : (submitStart requests).All Announced := by
    apply Crew.all_start
    intro call hCall
    rcases List.mem_map.mp hCall with ⟨request, -, rfl⟩
    rfl
  exact ((submissions_keep_resolved Table.empty).run
    (keepsStatus_refl _ _) hStart (Crew.admits_any hRun)).2

/-
  While no run writes another result on it, a confirmed
  transaction stays confirmed; it never becomes pending again.  A
  run that has ended has announced its result once, unless its
  envelope was refused; and it ends when its clock goes on.
-/
theorem contract_tx_final (hRun : RunsTo (Crew.attempt (submissions config)) (fun _ _ => True)
    (submitStart requests) moves crew) :
    (∀ moves' crew', RunsTo (Crew.attempt (submissions config))
      (Crew.Admits NotReversed) crew moves' crew' →
      KeepsStatus (· = .confirmed) crew.store crew'.store) ∧ (∀ moves' crew',
      RunsTo (Crew.attempt (submissions config)) (fun _ _ => True) crew moves' crew' →
        KeepsStatus (· ≠ .pending) crew.store crew'.store) ∧
      ∀ (i : ℕ) call, crew.calls[i]? = some (some call) → (∀ result, call.stage = .ended result →
        (∃ e, result = .refused e ∧ call.events = []) ∨
          ∃ event, call.request.eventOf result = some event ∧ call.events = [event]) ∧
        (call.request.TimePasses → ∃ count crew' last result,
          runLabels (Crew.attempt (submissions config)) crew (servedMoves i count) = some crew' ∧
            crew'.calls[i]? = some (some last) ∧
            last.stage = .ended result) := by
  have hAnnounced := announced_of_run hRun
  refine ⟨?_, ?_, ?_⟩
  · intro moves' crew' hLater
    exact ((submissions_keep_confirmed crew.store).run (keepsStatus_refl _ _) hAnnounced hLater).1
  · intro moves' crew' hLater
    exact ((submissions_keep_resolved crew.store).run (keepsStatus_refl _ _) hAnnounced
      (Crew.admits_any hLater)).1
  · intro i call hCall
    constructor
    · intro result hStage
      have hEvents := hAnnounced i call hCall
      unfold Announced at hEvents
      simp only [hStage] at hEvents
      cases hEvent : call.request.eventOf result with
      | some event =>
        rw [hEvent] at hEvents
        exact .inr ⟨event, rfl, hEvents⟩
      | none =>
        rw [hEvent] at hEvents
        cases result with
        | returned result =>
          cases result with
          | _ => cases hEvent
        | threw e => cases hEvent
        | refused e => exact .inl ⟨e, rfl, hEvents⟩
    · intro hTime
      rcases @ends_call config call crew.store hTime with
        ⟨count, db', last, result, hServes, hStage⟩
      rcases hServes.runs rfl hCall with ⟨crew', hServed, -, hLast⟩
      exact ⟨count, crew', last, result, hServed, hLast, hStage⟩

def sampleSubmit : SubmitConfig where
  maxAttempts := 3
  pollTimeoutMs := 1000

/- A purchase whose polls are all answered so. -/
def samplePurchase (status : NodeStatus) : SubmitRequest where
  operation := .buy
  submitterWallet := "buyer"
  guardInvoiceMarketSubmission := none
  sendTransaction _ :=
    .ok
      { hash := some "tx"
        status := "PENDING"
        errorResultXdr := none }
  getTransaction _ :=
    .ok (some
      { status
        latestLedger := some 12
        ledger := some 10
        resultXdr := none })
  now reading := 600 * reading

def sampleStatus (crew : Crew TransactionTable SubmitCall) : Option ContractTransactionStatus :=
  (crew.store.find? "tx").map ContractTransaction.status

/- An envelope is submitted again, and found on the ledger. -/
theorem contract_tx_final_sample :
    ∃ crew crew', RunsTo (Crew.attempt (submissions sampleSubmit)) (fun _ _ => True) (submitStart
      [samplePurchase .success, samplePurchase .success]) (servedMoves 0 6) crew ∧
      RunsTo (Crew.attempt (submissions sampleSubmit))
        (Crew.Admits NotReversed) crew (servedMoves 1 6) crew' ∧
      sampleStatus crew = some .confirmed ∧
      KeepsStatus (· = .confirmed) crew.store crew'.store := by
  have hRuns : ((runLabels (Crew.attempt (submissions sampleSubmit)) (submitStart
      [samplePurchase .success, samplePurchase .success]) (servedMoves 0 6)).bind
      fun crew => (runAllowed (Crew.attempt (submissions sampleSubmit))
        (Crew.Admits NotReversed) crew (servedMoves 1 6)).map fun _ => sampleStatus crew) =
      some (some .confirmed) := by decide
  rcases Option.bind_eq_some_iff.mp hRuns with ⟨crew, hFirst, hRest⟩
  rcases Option.map_eq_some_iff.mp hRest with ⟨crew', hSecond, hStatus⟩
  have hRun := runsTo_of_runLabels hFirst
  have hLater := runsTo_of_runAllowed hSecond
  exact ⟨crew, crew', hRun, hLater, hStatus, (contract_tx_final hRun).1 _ crew' hLater⟩

/-
  The second run for a hash is not answered in time, and writes
  that the confirmed transaction has failed.
-/
theorem late_poll_fails_confirmed :
    ∃ crew crew', RunsTo (Crew.attempt (submissions sampleSubmit)) (fun _ _ => True) (submitStart
      [samplePurchase .success, samplePurchase .notFound]) (servedMoves 0 6) crew ∧
      RunsTo (Crew.attempt (submissions sampleSubmit))
        (fun _ _ => True) crew (servedMoves 1 6) crew' ∧ sampleStatus crew = some .confirmed ∧
      sampleStatus crew' = some .failed := by
  have hRuns : ((runLabels (Crew.attempt (submissions sampleSubmit)) (submitStart
      [samplePurchase .success, samplePurchase .notFound]) (servedMoves 0 6)).bind
      fun crew => (runLabels (Crew.attempt (submissions sampleSubmit)) crew (servedMoves 1 6)).map
        fun crew' => (sampleStatus crew, sampleStatus crew')) =
      some (some .confirmed, some .failed) := by decide
  rcases Option.bind_eq_some_iff.mp hRuns with ⟨crew, hFirst, hRest⟩
  rcases Option.map_eq_some_iff.mp hRest with ⟨crew', hSecond, hStatuses⟩
  rcases Prod.mk.inj hStatuses with ⟨hBefore, hAfter⟩
  exact ⟨crew, crew', runsTo_of_runLabels hFirst, runsTo_of_runLabels hSecond, hBefore, hAfter⟩

end Contracts

end AccessLayer
