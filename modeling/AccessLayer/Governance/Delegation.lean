import AccessLayer.Governance.ProposalIndexer

/-
  Delegations of voting weight
  (`src/modules/governance/governance-delegation.service.ts`,
  `src/modules/governance/governance-delegation-indexer.service.ts`).

  A wallet has one delegation for each key.  Caches and logs are
  left out.  A change writes an activity, whose row nothing reads;
  `accepts` tells the types that the table has, and a transaction
  with another type is rolled back.

  Main declaration: `applyDelegationEvent`
-/

-- Tables
----

namespace AccessLayer

namespace Governance

open Transactional Program Indexer

structure VoteDelegation where
  delegatorWallet : String
  keyId : String
  delegateeWallet : String
  isActive : Bool
  ledger : ℤ
  txHash : String
  occurredAt : ℤ

instance : Keyed VoteDelegation (String × String) := ⟨fun row => (row.delegatorWallet, row.keyId)⟩

inductive DelegationAction where
  | set
  | revoked

structure VoteDelegationHistory where
  delegatorWallet : String
  keyId : String
  delegateeWallet : Option String
  action : DelegationAction
  ledger : ℤ
  txHash : String
  eventIndex : Nat
  occurredAt : ℤ

instance : Keyed VoteDelegationHistory (String × Nat) := ⟨fun row => (row.txHash, row.eventIndex)⟩

/- Proposals, and what the weight of a holder depends on. -/
structure VotingDb where
  governance : GovernanceDb
  keyOwnership : Table KeyOwnership
  voteDelegation : Table VoteDelegation
  voteDelegationHistory : Table VoteDelegationHistory

abbrev VotingM := Program VotingDb GovernanceError

-- Delegated Weight
----

def VotingDb.activeDelegations (db : VotingDb)
    (delegateeWallet keyId : String) : List VoteDelegation :=
  db.voteDelegation.rows.filter fun row =>
    row.delegateeWallet = delegateeWallet && row.keyId = keyId && row.isActive

def VotingDb.sumOfBalances (db : VotingDb) (wallets : List String) (keyId : String) : ℚ :=
  db.keyOwnership.total fun row =>
    if row.ownerAddress ∈ wallets ∧ row.creatorId = keyId ∧ 0 < row.balance then row.balance
    else 0

def getDelegatedVoteWeight (delegateeWallet keyId : String) : VotingM ℚ := do
  let activeDelegations ← query .database fun db => db.activeDelegations delegateeWallet keyId
  if activeDelegations.isEmpty then pure 0
  else
    query .database fun db => db.sumOfBalances
      (activeDelegations.map VoteDelegation.delegatorWallet) keyId

-- Delegation Events
----

/- Required fields; one that is missing or empty is `none`. -/
structure DelegationFields where
  delegatorWallet : Option String
  delegateeWallet : Option String
  keyId : Option String
  occurredAt : Option ℤ

abbrev DelegationEvent := PipelineEvent DelegationFields

/- The history row of an event with all required fields. -/
def historyRow (event : DelegationEvent) (delegateeWallet : Option String)
    (action : DelegationAction) :
    Option VoteDelegationHistory := do
  let delegatorWallet ← present event.payload.delegatorWallet
  let keyId ← present event.payload.keyId
  let occurredAt ← event.payload.occurredAt
  let ledger ← event.ledger
  let txHash ← present (some event.txHash)
  some {
    delegatorWallet
    keyId
    delegateeWallet
    action
    ledger
    txHash
    eventIndex := event.eventIndex
    occurredAt }

/- Every event is recorded once in the history. -/
def appendHistory (row : VoteDelegationHistory) (db : VotingDb) :
    Except GovernanceError (Unit × VotingDb) :=
  match db.voteDelegationHistory.insert? row with
  | none => .error .uniqueViolation
  | some voteDelegationHistory => .ok ((), { db with voteDelegationHistory })

def VotingDb.setDelegation (db : VotingDb) (row : VoteDelegationHistory)
    (delegateeWallet : String) : VotingDb :=
  { db with
    voteDelegation :=
      db.voteDelegation.upsert
        { delegatorWallet := row.delegatorWallet
          keyId := row.keyId
          delegateeWallet
          isActive := true
          ledger := row.ledger
          txHash := row.txHash
          occurredAt := row.occurredAt } (fun stored => { stored with
            delegateeWallet
            isActive := true
            ledger := row.ledger
            txHash := row.txHash
            occurredAt := row.occurredAt }) fun _ => rfl }

def VotingDb.revokeDelegation (db : VotingDb) (row : VoteDelegationHistory) : VotingDb :=
  { db with
    voteDelegation :=
      db.voteDelegation.update (row.delegatorWallet, row.keyId) (fun stored => { stored with
            isActive := false
            ledger := row.ledger
            txHash := row.txHash
            occurredAt := row.occurredAt }) fun _ => rfl }

/- A change and its activity, of a type that the table may lack. -/
def withActivity (accepts : String → Bool) (type : String)
    (change : VotingDb → Except GovernanceError (Unit × VotingDb)) (db : VotingDb) :
    Except GovernanceError (Unit × VotingDb) :=
  if accepts type then change db else .error .database

variable (accepts : String → Bool)

/- State that a later ledger has set is left alone. -/
def setUnlessStale (row : VoteDelegationHistory) (delegateeWallet : String) : VotingM Unit := do
  let existing ← query .database fun db => db.voteDelegation.find? (row.delegatorWallet, row.keyId)
  if existing.any fun stored => row.ledger < stored.ledger then
    execute .database (appendHistory row)
  else
    execute .database (withActivity accepts "GOVERNANCE_DELEGATION_SET" fun db =>
      appendHistory row (db.setDelegation row delegateeWallet))

def revokeIfKnown (row : VoteDelegationHistory) : VotingM Unit := do
  let delegation ← query .database fun db =>
    db.voteDelegation.find? (row.delegatorWallet, row.keyId)
  if delegation.isNone then
    execute .database (appendHistory row)
  else
    execute .database (withActivity accepts "GOVERNANCE_DELEGATION_REVOKED" fun db =>
      appendHistory row (db.revokeDelegation row))

/- Events in the history are skipped. -/
def unlessRecorded (row : VoteDelegationHistory) (change : VotingM Unit) : VotingM Unit := do
  let existingHistory ← query .database fun db => db.voteDelegationHistory.find? (key row)
  if existingHistory.isSome then pure () else change

def applyDelegationSet (event : DelegationEvent) : VotingM Unit :=
  match present event.payload.delegateeWallet with
  | none => pure ()
  | some delegateeWallet =>
    match historyRow event (some delegateeWallet) .set with
    | none => pure ()
    | some row => unlessRecorded row (setUnlessStale accepts row delegateeWallet)

def applyDelegationRevoked (event : DelegationEvent) : VotingM Unit :=
  match historyRow event none .revoked with
  | none => pure ()
  | some row => unlessRecorded row (revokeIfKnown accepts row)

/- The handlers of both services, by the event's type. -/
def applyDelegationEvent (event : DelegationEvent) : VotingM Unit :=
  if event.eventType = "DELEGATION_SET" then
    applyDelegationSet accepts event
  else if event.eventType = "DELEGATION_REVOKED" then
    applyDelegationRevoked accepts event
  else pure ()

end Governance

end AccessLayer
