import AccessLayer.Indexer.EventFields
import AccessLayer.Library.Json
import Mathlib.Data.Prod.Lex

/-
  Events of the invoice contracts
  (`src/modules/indexer/invoice-protocol.events.ts`).

  The payload of a raw event is what `jsonSafe` makes of it.
  How `Date` reads a text, the digests of `sha256` and those of
  the database's `hashtext` are left open.

  Main declaration: `parseInvoiceProtocolEvent`
-/

-- Events
----

namespace AccessLayer

namespace Indexer

section

/- The configuration, and what is taken from other packages. -/
structure InvoiceEnv where
  STELLAR_NETWORK : String
  ISSUER_REPUTATION_CONTRACT_ID : Option String
  INVOICE_FRAUD_CONTRACT_ID : Option String
  INVOICE_TIMELOCK_CONTRACT_ID : Option String
  INVOICE_TRANSFER_CONTRACT_ID : Option String
  sha256 : String → String
  hashtext : String → ℤ
  dateOf : String → Option ℤ

structure InvoiceFields where
  contractId : Option String
  transactionIndex : Option ℤ
  timestamp : Option Json
  ledgerClosedAt : Option Json
  payload : Json

abbrev RawInvoiceEvent := PipelineEvent InvoiceFields

inductive InvoiceEventType where
  | issuerScoreUpdated
  | reportSubmitted
  | reportResolved
  | changeProposed
  | changeExecuted
  | changeCancelled
  | transferBlocked
  deriving DecidableEq

/- The canonical names and their spelling in upper case. -/
def InvoiceEventType.ofName : String → Option InvoiceEventType
  | "IssuerScoreUpdated" => some .issuerScoreUpdated
  | "ISSUER_SCORE_UPDATED" => some .issuerScoreUpdated
  | "ReportSubmitted" => some .reportSubmitted
  | "REPORT_SUBMITTED" => some .reportSubmitted
  | "ReportResolved" => some .reportResolved
  | "REPORT_RESOLVED" => some .reportResolved
  | "ChangeProposed" => some .changeProposed
  | "CHANGE_PROPOSED" => some .changeProposed
  | "ChangeExecuted" => some .changeExecuted
  | "CHANGE_EXECUTED" => some .changeExecuted
  | "ChangeCancelled" => some .changeCancelled
  | "CHANGE_CANCELLED" => some .changeCancelled
  | "TransferBlocked" => some .transferBlocked
  | "TRANSFER_BLOCKED" => some .transferBlocked
  | _ => none

/- An identifier; its text has no sign and no leading zero. -/
abbrev ChainId := Fin (2 ^ 64)

structure ScoreUpdate where
  wallet : String
  score : Nat
  tier : String

structure ReportSubmission where
  reportId : ChainId
  invoiceId : ChainId
  reporter : String
  evidenceHash : String
  notes : Option String

structure ReportResolution where
  reportId : ChainId
  invoiceId : ChainId
  resolution : String
  resolutionNotes : Option String

structure ChangeProposal where
  proposalId : ChainId
  target : String
  function : String
  params : Json
  eta : ℤ

structure ChangeCompletion where
  proposalId : ChainId
  outcome : Option String

structure TransferBlock where
  invoiceId : ChainId
  fromWallet : String
  toWallet : String
  reason : String
  restrictionType : String

inductive InvoicePayload where
  | issuerScoreUpdated (update : ScoreUpdate)
  | reportSubmitted (report : ReportSubmission)
  | reportResolved (report : ReportResolution)
  | changeProposed (proposal : ChangeProposal)
  | changeExecuted (completion : ChangeCompletion)
  | changeCancelled (completion : ChangeCompletion)
  | transferBlocked (block : TransferBlock)

def InvoicePayload.eventType : InvoicePayload → InvoiceEventType
  | .issuerScoreUpdated _ => .issuerScoreUpdated
  | .reportSubmitted _ => .reportSubmitted
  | .reportResolved _ => .reportResolved
  | .changeProposed _ => .changeProposed
  | .changeExecuted _ => .changeExecuted
  | .changeCancelled _ => .changeCancelled
  | .transferBlocked _ => .transferBlocked

def scoreKey (wallet : String) : String := "issuer:" ++ wallet

def reportKey (invoiceId reportId : ChainId) : String :=
  "report:" ++ toString invoiceId.val ++ ":" ++ toString reportId.val

def changeKey (proposalId : ChainId) : String := "timelock:" ++ toString proposalId.val

def transferKey (block : TransferBlock) : String :=
  "transfer:" ++ toString block.invoiceId.val ++ ":" ++ block.fromWallet ++ ":" ++ block.toWallet

def InvoicePayload.entityKey : InvoicePayload → String
  | .issuerScoreUpdated update => scoreKey update.wallet
  | .reportSubmitted report => reportKey report.invoiceId report.reportId
  | .reportResolved report => reportKey report.invoiceId report.reportId
  | .changeProposed proposal => changeKey proposal.proposalId
  | .changeExecuted completion => changeKey completion.proposalId
  | .changeCancelled completion => changeKey completion.proposalId
  | .transferBlocked block => transferKey block

/- An event that has passed its checks. -/
structure InvoiceEvent where
  id : String
  contractId : String
  txHash : String
  eventIndex : Nat
  transactionIndex : Nat
  ledger : Nat
  timestamp : ℤ
  payload : InvoicePayload

namespace InvoiceEvent

variable (event : InvoiceEvent)

def eventType : InvoiceEventType := event.payload.eventType

def entityKey : String := event.payload.entityKey

/- The columns of the unique constraint. -/
def identity : String × String × Nat := (event.contractId, event.txHash, event.eventIndex)

/- Events are compared by ledger, transaction and index. -/
def position : ℕ ×ₗ ℕ ×ₗ ℕ := toLex (event.ledger, toLex (event.transactionIndex, event.eventIndex))

end InvoiceEvent

end

-- Parsing
----

section

inductive InvoiceError where
  | unknownEventType
  | invalidMetadata
  | invalidPayload
  | invalidTimestamp
  | unexpectedContract (eventType : String)

def InvoiceError.message : InvoiceError → String
  | .unknownEventType => "Unknown invoice event type"
  | .invalidMetadata => "Invalid event metadata"
  | .invalidPayload => "Invalid event payload"
  | .invalidTimestamp => "Invalid chain timestamp"
  | .unexpectedContract eventType => "Unexpected contract for " ++ eventType

def MAX_SAFE_INTEGER : ℤ := 9007199254740991

/- A text of at most 4096 code units that is not empty. -/
def boundedText (value : String) : Option String :=
  let length :=
    (value.toList.map fun c =>
      if c.toNat < 0x10000 then 1 else 2).sum
  if 1 ≤ length ∧ length ≤ 4096 then some value else none

def digitsValue (value : String) : Option Nat :=
  if value ≠ "" ∧ value.toList.all Char.isDigit then
    some (value.toList.foldl (fun n c => n * 10 + (c.toNat - '0'.toNat)) 0)
  else none

/- A number that has no fraction. -/
def wholeNumber (mantissa exponent : ℤ) : Option ℤ :=
  let value : ℚ := mantissa * 10 ^ exponent
  if value.isInt then some value.num else none

def safeNatural (value : ℤ) : Option Nat :=
  if 0 ≤ value ∧ value ≤ MAX_SAFE_INTEGER then some value.toNat
  else none

def chainIdOf (value : Nat) : Option ChainId :=
  if h : value < 2 ^ 64 then some ⟨value, h⟩ else none

namespace InvoiceField

variable (payload : Json)

def text (name : String) : Option String :=
  match payload.get? name with
  | some (.string value) => boundedText value
  | _ => none

def id (name : String) : Option ChainId :=
  match payload.get? name with
  | some (.string value) =>
    (digitsValue value).bind fun n =>
      if toString n = value then chainIdOf n else none
  | some (.number mantissa exponent) =>
    ((wholeNumber mantissa exponent).bind safeNatural).bind chainIdOf
  | _ => none

def score (name : String) : Option Nat :=
  let bounded : ℤ → Option Nat := fun n =>
    if 0 ≤ n ∧ n ≤ 2147483647 then some n.toNat else none
  match payload.get? name with
  | some (.string value) => (digitsValue value).bind fun n => bounded n
  | some (.number mantissa exponent) => (wholeNumber mantissa exponent).bind bounded
  | _ => none

/- A text that may be absent. -/
def optionalText (name : String) : Option (Option String) :=
  match payload.get? name with
  | none => some none
  | some (.string value) => some (some value)
  | _ => none

/- A text that may be absent or null. -/
def nullableText (name : String) : Option (Option String) :=
  match payload.get? name with
  | some .null => some none
  | _ => optionalText payload name

/- A date as the schema of a proposal admits it. -/
def eta (name : String) : Option Json :=
  match payload.get? name with
  | some (.string value) => some (.string value)
  | some (.number mantissa exponent) =>
    if |(mantissa : ℚ) * 10 ^ exponent| ≤ MAX_SAFE_INTEGER then
      some (.number mantissa exponent)
    else none
  | _ => none

def isObject : Bool :=
  match payload with
  | .object _ => true
  | _ => false

end InvoiceField

/- Milliseconds within the range of `Date`. -/
def timeClip (milliseconds : ℚ) : Option ℤ :=
  let time :=
    if milliseconds < 0 then ⌈milliseconds⌉ else ⌊milliseconds⌋
  if |time| ≤ 8640000000000000 then some time else none

/- Numbers are seconds; other texts are left to `Date`. -/
def chainTimestamp (env : InvoiceEnv) : Json → Option ℤ
  | .number mantissa exponent => timeClip (mantissa * 10 ^ exponent * 1000)
  | .string value =>
    match digitsValue value with
    | some n => timeClip (n * 1000)
    | none => env.dateOf value
  | _ => none

section

open InvoiceField

/- A proposal, where `eta` is still to be read. -/
def proposalOf (env : InvoiceEnv) (payload : Json) : Except InvoiceError InvoicePayload :=
  let fields := do
    let proposalId ← id payload "proposal_id"
    let target ← text payload "target"
    let function ← text payload "function"
    let params ← payload.get? "params"
    let eta ← eta payload "eta"
    some (proposalId, target, function, params, eta)
  match fields with
  | none => .error .invalidPayload
  | some (proposalId, target, function, params, eta) =>
    match chainTimestamp env eta with
    | none => .error .invalidTimestamp
    | some eta => .ok (.changeProposed { proposalId, target, function, params, eta })

def payloadOf (payload : Json) : InvoiceEventType → Option InvoicePayload
  | .issuerScoreUpdated => do
    let wallet ← text payload "wallet"
    let score ← score payload "score"
    let tier ← text payload "tier"
    some (.issuerScoreUpdated { wallet, score, tier })
  | .reportSubmitted => do
    let reportId ← id payload "report_id"
    let invoiceId ← id payload "invoice_id"
    let reporter ← text payload "reporter"
    let evidenceHash ← text payload "evidence_hash"
    let notes ← nullableText payload "notes"
    some (.reportSubmitted { reportId, invoiceId, reporter, evidenceHash, notes })
  | .reportResolved => do
    let reportId ← id payload "report_id"
    let invoiceId ← id payload "invoice_id"
    let resolution ← text payload "resolution"
    let resolutionNotes ← nullableText payload "resolution_notes"
    some (.reportResolved { reportId, invoiceId, resolution, resolutionNotes })
  | .changeProposed => none
  | .changeExecuted => do
    let proposalId ← id payload "proposal_id"
    let outcome ← optionalText payload "outcome"
    some (.changeExecuted { proposalId, outcome })
  | .changeCancelled => do
    let proposalId ← id payload "proposal_id"
    let outcome ← optionalText payload "outcome"
    some (.changeCancelled { proposalId, outcome })
  | .transferBlocked => do
    let invoiceId ← id payload "invoice_id"
    let fromWallet ← text payload "from"
    let toWallet ← text payload "to"
    let reason ← text payload "reason"
    let restrictionType ← text payload "restriction_type"
    some (.transferBlocked { invoiceId, fromWallet, toWallet, reason, restrictionType })

def parsePayload (env : InvoiceEnv) (eventType : InvoiceEventType)
    (payload : Json) : Except InvoiceError InvoicePayload :=
  if isObject payload then
    match eventType with
    | .changeProposed => proposalOf env payload
    | eventType =>
      match payloadOf payload eventType with
      | none => .error .invalidPayload
      | some payload => .ok payload
  else .error .invalidPayload

end

/- The digest of the columns of the unique constraint. -/
def invoiceEventId (env : InvoiceEnv) (identity : String × String × Nat) : String :=
  env.sha256 (String.ofList (Json.array [.string identity.1, .string identity.2.1,
    .number identity.2.2 0]).stringify)

/- A value that is neither absent nor null. -/
def given : Option Json → Option Json
  | some .null => none
  | value => value

/- The columns of an event that say where it happened. -/
structure InvoiceMetadata where
  contractId : String
  txHash : String
  ledger : Nat
  transactionIndex : Nat
  eventIndex : Nat

def metadataOf (event : RawInvoiceEvent) : Option InvoiceMetadata := do
  let contractId ← event.payload.contractId.bind boundedText
  let txHash ← boundedText event.txHash
  let ledger ← event.ledger.bind safeNatural
  let transactionIndex ← event.payload.transactionIndex.bind safeNatural
  let eventIndex ← safeNatural event.eventIndex
  some { contractId, txHash, ledger, transactionIndex, eventIndex }

def parseInvoiceProtocolEvent (env : InvoiceEnv) (event : RawInvoiceEvent) :
    Except InvoiceError InvoiceEvent :=
  match InvoiceEventType.ofName event.eventType with
  | none => .error .unknownEventType
  | some eventType =>
    match metadataOf event with
    | none => .error .invalidMetadata
    | some row =>
      match parsePayload env eventType event.payload.payload with
      | .error e => .error e
      | .ok payload =>
        let closedAt := given event.payload.timestamp <|> event.payload.ledgerClosedAt
        match closedAt.bind (chainTimestamp env) with
        | none => .error .invalidTimestamp
        | some timestamp =>
          .ok {
            id := invoiceEventId env (row.contractId, row.txHash, row.eventIndex)
            contractId := row.contractId
            txHash := row.txHash
            eventIndex := row.eventIndex
            transactionIndex := row.transactionIndex
            ledger := row.ledger
            timestamp
            payload }

end

-- Entities
----

theorem scoreKey_inj {wallet wallet' : String} (h : scoreKey wallet = scoreKey wallet') :
    wallet = wallet' := (String.append_right_inj "issuer:").mp h

theorem chainId_of_text {n m : ChainId} (h : toString n.val = toString m.val) : n = m := by
  apply Fin.ext
  have hDigits : Nat.toDigits 10 n.val = Nat.toDigits 10 m.val := by
    rw [← Nat.toList_repr, ← Nat.toList_repr]
    exact congrArg String.toList h
  have hValue := congrArg (fun digits => Nat.ofDigitChars 10 digits 0) hDigits
  simpa only [Nat.ofDigitChars_toDigits (by decide : 1 < 10) (by decide)] using hValue

/- The text of an identifier has no colon. -/
theorem reportKey_inj {invoiceId invoiceId' reportId reportId' : ChainId}
    (h : reportKey invoiceId reportId = reportKey invoiceId' reportId') :
    (invoiceId, reportId) = (invoiceId', reportId') := by
  have hPrefix := txHash_of_id h
  have hInvoice : invoiceId = invoiceId' :=
    chainId_of_text ((String.append_right_inj "report:").mp hPrefix)
  subst hInvoice
  have hReport : reportId = reportId' := chainId_of_text ((String.append_right_inj _).mp h)
  rw [hReport]

theorem changeKey_inj {proposalId proposalId' : ChainId}
    (h : changeKey proposalId = changeKey proposalId') : proposalId = proposalId' :=
  chainId_of_text ((String.append_right_inj "timelock:").mp h)

end Indexer

end AccessLayer
