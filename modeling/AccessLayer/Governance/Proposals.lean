import AccessLayer.Library.Program
import AccessLayer.Utils.VoteTally
import Mathlib.Data.List.DropRight

/-
  Governance proposals, their votes and their tallies
  (`src/modules/governance/governance-proposals.service.ts`).

  Times are milliseconds since the epoch.  A transaction is one
  statement.  Logs and rows of the activity table are left out;
  no function here reads them.

  Main declaration: `castGovernanceVote`
-/

-- Texts
----

namespace AccessLayer

namespace Governance

/- White space and line terminators of ECMAScript. -/
def isWhiteSpace (c : Char) : Bool :=
  c.toNat ∈ [0x9, 0xA, 0xB, 0xC, 0xD, 0x20, 0xA0, 0x1680, 0x2000,
    0x2001, 0x2002, 0x2003, 0x2004, 0x2005, 0x2006, 0x2007,
    0x2008, 0x2009, 0x200A, 0x2028, 0x2029, 0x202F, 0x205F, 0x3000, 0xFEFF]

def trimChars (cs : List Char) : List Char := (cs.dropWhile isWhiteSpace).rdropWhile isWhiteSpace

def trim (text : String) : String := String.ofList (trimChars text.toList)

/- The part of a text before its first point. -/
def wholePart (text : String) : String := String.ofList (text.toList.takeWhile (· ≠ '.'))

def digitOf (base : Nat) (c : Char) : Option Nat :=
  let digit :=
    if '0' ≤ c ∧ c ≤ '9' then c.toNat - '0'.toNat
    else if 'a' ≤ c ∧ c ≤ 'z' then c.toNat - 'a'.toNat + 10
    else if 'A' ≤ c ∧ c ≤ 'Z' then c.toNat - 'A'.toNat + 10
    else base
  if digit < base then some digit else none

def parseDigits (base : Nat) : List Char → Option Nat
  | [] => none
  | digits => digits.foldlM (fun n c => (digitOf base c).map fun digit => n * base + digit) 0

/- `BigInt` of a text; `none` where it throws. -/
def parseBigInt (text : String) : Option ℤ :=
  match trimChars text.toList with
  | [] => some 0
  | '-' :: digits => (parseDigits 10 digits).map fun n => -(n : ℤ)
  | '+' :: digits => (parseDigits 10 digits).map Int.ofNat
  | '0' :: mark :: digits =>
    if mark = 'x' ∨ mark = 'X' then
      (parseDigits 16 digits).map Int.ofNat
    else if mark = 'o' ∨ mark = 'O' then
      (parseDigits 8 digits).map Int.ofNat
    else if mark = 'b' ∨ mark = 'B' then
      (parseDigits 2 digits).map Int.ofNat
    else (parseDigits 10 (mark :: digits)).map Int.ofNat
  | digits => (parseDigits 10 digits).map Int.ofNat

/- Text that is trimmed has no white space left to trim. -/
theorem trimChars_trimChars (cs : List Char) : trimChars (trimChars cs) = trimChars cs := by
  have hFront : (trimChars cs).dropWhile isWhiteSpace = trimChars cs := by
    rw [List.dropWhile_eq_self_iff]
    intro hLength
    have hPrefix : trimChars cs <+: cs.dropWhile isWhiteSpace := List.rdropWhile_prefix _ _
    have hHead := hPrefix.getElem hLength
    rw [hHead]
    exact List.dropWhile_get_zero_not isWhiteSpace cs (hLength.trans_le hPrefix.length_le)
  rw [trimChars, hFront]
  exact List.rdropWhile_idempotent _ _

@[simp] theorem trim_trim (text : String) :
    trim (trim text) = trim text := by
  simp only [trim, String.toList_ofList, trimChars_trimChars]

-- Tables
----

open Transactional Program Utils

inductive ProposalStatus where
  | active
  | passed
  | failed
  | quorumNotMet
  | executed
  deriving DecidableEq

/- The key of a creator and the proposal's own identifier. -/
abbrev ProposalKey := String × String

structure GovernanceProposal where
  id : String
  keyId : String
  proposalId : String
  title : String
  options : List String
  totalVotingWeight : ℤ
  results : Results
  snapshotLedger : ℤ
  snapshotTotalWeight : ℤ
  quorumBps : ℤ
  expiresAt : ℤ
  closedAt : Option ℤ
  executedAt : Option ℤ
  status : ProposalStatus

instance : Keyed GovernanceProposal ProposalKey := ⟨fun row => (row.keyId, row.proposalId)⟩

structure GovernanceVote where
  keyId : String
  proposalId : String
  voter : String
  optionIndex : Nat
  weight : ℤ
  createdAt : ℤ

instance : Keyed GovernanceVote (ProposalKey × String) :=
  ⟨fun row => ((row.keyId, row.proposalId), row.voter)⟩

/- The weight is the text of a decimal. -/
structure GovernanceVotingSnapshot where
  keyId : String
  proposalId : String
  wallet : String
  weight : String

instance : Keyed GovernanceVotingSnapshot (ProposalKey × String) :=
  ⟨fun row => ((row.keyId, row.proposalId), row.wallet)⟩

/- `latestLedger` is the ledger that was indexed last. -/
structure GovernanceDb where
  governanceProposal : Table GovernanceProposal
  governanceVote : Table GovernanceVote
  governanceVotingSnapshot : Table GovernanceVotingSnapshot
  latestLedger : Option ℤ

def GovernanceVote.proposal (vote : GovernanceVote) :
    ProposalKey := (vote.keyId, vote.proposalId)

def GovernanceProposal.tally (proposal : GovernanceProposal) : VoteTally where
  totalVotingWeight := proposal.totalVotingWeight
  results := proposal.results

def GovernanceProposal.withTally (proposal : GovernanceProposal)
    (tallies : VoteTally) : GovernanceProposal :=
  { proposal with
    totalVotingWeight := tallies.totalVotingWeight
    results := tallies.results }

def GovernanceDb.updateProposal (db : GovernanceDb) (proposal : ProposalKey)
    (f : GovernanceProposal → GovernanceProposal)
    (hKey : ∀ row, key (f row) = key row) : GovernanceDb :=
  { db with
    governanceProposal := db.governanceProposal.update proposal f hKey }

def GovernanceDb.storeTally (db : GovernanceDb) (proposal : ProposalKey)
    (tallies : VoteTally) : GovernanceDb :=
  db.updateProposal proposal (fun row => row.withTally tallies) fun _ => rfl

-- Votes by Snapshot Weight
----

/- `notANumber` is what `BigInt` throws, `uniqueViolation` the error of code `P2002`. -/
inductive GovernanceError where
  | database
  | uniqueViolation
  | notANumber
  | proposalNotFound (proposalId : String)
  | votingPeriodEnded (proposalId : String)
  | noSnapshotVotingPower (wallet : String)
  | duplicateVote
  | optionOutOfRange (optionIndex : ℤ) (optionCount : Nat)
  | proposalNotFoundOrClosed
  | holderNotEligible (wallet : String)

/- The messages that the services give their errors. -/
def GovernanceError.message : GovernanceError → Option String
  | .database | .uniqueViolation | .notANumber => none
  | .proposalNotFound proposalId => some ("Governance proposal not found: " ++ proposalId)
  | .votingPeriodEnded proposalId =>
    some ("Voting period for proposal " ++ proposalId ++ " has ended")
  | .noSnapshotVotingPower wallet =>
    some ("Wallet " ++ wallet ++ " had no staked balance for " ++
      "this key at the proposal snapshot block")
  | .duplicateVote => some "Wallet has already voted on this proposal"
  | .optionOutOfRange optionIndex optionCount =>
    some ("optionIndex " ++ toString optionIndex ++ " is out of range; proposal has " ++
      toString optionCount ++ " options")
  | .proposalNotFoundOrClosed => some "Proposal not found or closed"
  | .holderNotEligible wallet =>
    some ("Wallet " ++ wallet ++ " holds no keys and is not " ++ "eligible to vote")

abbrev GovernanceM := Program GovernanceDb GovernanceError

def toIntegerString (value : Option String) : String :=
  match value with
  | none => "0"
  | some text =>
    if wholePart text = "" ∨ wholePart text = "-" then "0"
    else wholePart text

/- Zero for a text that is not an integer. -/
def toBigInt (value : Option String) : ℤ := (parseBigInt (toIntegerString value)).getD 0

/- The label of an index, if it is in range. -/
def optionAt (options : List String) (optionIndex : ℤ) : Option String :=
  if optionIndex < 0 then none
  else options[optionIndex.toNat]?

/- The first proposal that has the identifier as one of its. -/
def findProposal (proposalIdParam : String) (db : GovernanceDb) : Option GovernanceProposal :=
  db.governanceProposal.rows.find? fun row =>
    row.id = proposalIdParam || row.proposalId = proposalIdParam

/- Fold a vote into a tally and record it, or do neither. -/
def tallyVote (current : GovernanceProposal) (option : String) (vote : GovernanceVote)
    (db : GovernanceDb) : Except GovernanceError (VoteTally × GovernanceDb) :=
  match applyVoteWeight current.tally vote.weight option with
  | none => .error .notANumber
  | some tallies =>
    match db.governanceVote.insert? vote with
    | none => .error .uniqueViolation
    | some governanceVote =>
      .ok (tallies, { db.storeTally vote.proposal tallies with governanceVote })

/- The transaction of a vote reads the proposal once more. -/
def recordGovernanceVote (option : String) (vote : GovernanceVote) (db : GovernanceDb) :
    Except GovernanceError (VoteTally × GovernanceDb) :=
  match db.governanceProposal.find? vote.proposal with
  | none => .error (.votingPeriodEnded vote.proposalId)
  | some current =>
    if current.status ≠ .active ∨ current.expiresAt ≤ vote.createdAt then
      .error (.votingPeriodEnded vote.proposalId)
    else tallyVote current option vote db

/- One call, with the clock at its start and in its write. -/
structure GovernanceVoteCall where
  proposalIdParam : String
  wallet : String
  optionIndex : ℤ
  now : ℤ
  committedAt : ℤ

structure CastGovernanceVoteResult where
  keyId : String
  proposalId : String
  optionIndex : ℤ
  option : String
  weight : ℤ
  totalVotingWeight : ℤ
  results : Results

/- A violated key means that the wallet has voted before. -/
def asDuplicateVote {α : Type} (error : GovernanceError) : GovernanceM α :=
  match error with
  | .uniqueViolation => throw .duplicateVote
  | other => throw other

/- The write of a vote whose option and weight are known. -/
def submitGovernanceVote (call : GovernanceVoteCall) (option : String) (vote : GovernanceVote) :
    GovernanceM CastGovernanceVoteResult := do
  let updated ← tryCatch (execute .database (recordGovernanceVote option vote)) asDuplicateVote
  pure {
    keyId := vote.keyId
    proposalId := vote.proposalId
    optionIndex := call.optionIndex
    option
    weight := vote.weight
    totalVotingWeight := updated.totalVotingWeight
    results := updated.results }

/- The weight of a vote is the one in the snapshot. -/
def weighGovernanceVote (call : GovernanceVoteCall) (proposal : GovernanceProposal)
    (option : String) :
    GovernanceM CastGovernanceVoteResult := do
  let snapshot ← query .database fun db => db.governanceVotingSnapshot.find?
      ((proposal.keyId, proposal.proposalId), call.wallet)
  let weight := toBigInt (snapshot.map GovernanceVotingSnapshot.weight)
  if weight ≤ 0 then throw (.noSnapshotVotingPower call.wallet)
  else do
    let existing ← query .database fun db => db.governanceVote.find?
        ((proposal.keyId, proposal.proposalId), call.wallet)
    if existing.isSome then throw .duplicateVote
    else
      submitGovernanceVote call option {
        keyId := proposal.keyId
        proposalId := proposal.proposalId
        voter := call.wallet
        optionIndex := call.optionIndex.toNat
        weight
        createdAt := call.committedAt }

def castGovernanceVote (call : GovernanceVoteCall) : GovernanceM CastGovernanceVoteResult := do
  let found ← query .database (findProposal call.proposalIdParam)
  match found with
  | none => throw (.proposalNotFound call.proposalIdParam)
  | some proposal =>
    if proposal.status ≠ .active ∨ proposal.expiresAt ≤ call.now then
      throw (.votingPeriodEnded proposal.proposalId)
    else
      match optionAt proposal.options call.optionIndex with
      | none => throw (.optionOutOfRange call.optionIndex proposal.options.length)
      | some option => weighGovernanceVote call proposal option

end Governance

end AccessLayer
