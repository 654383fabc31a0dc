import AccessLayer.Library.ReadCommitted
import AccessLayer.Library.Table
import Mathlib.Order.Basic

/-
  Multi-signature proposals
  (`src/modules/admin/multisig-proposal.service.ts`).

  A call reads the proposal, then its signatures, and acts on
  both without locking the proposal.

  Main result: `multisig_safe`
-/

-- Proposals
----

namespace AccessLayer

namespace Admin

open Transactional Interactive

section

inductive ProposalStatus where
  | pending
  | executed
  | rejected
  | expired
  deriving DecidableEq

/- The text stored in the status column. -/
def ProposalStatus.text : ProposalStatus → String
  | .pending => "pending"
  | .executed => "executed"
  | .rejected => "rejected"
  | .expired => "expired"

structure MultisigProposal where
  proposalId : String
  status : ProposalStatus
  threshold : Int
  executedAt : Option Int
  rejectedAt : Option Int
  rejectedBy : Option String
  rejectionReason : Option String

structure MultisigSignature where
  proposalId : String
  signer : String
  signedAt : Int

instance : Keyed MultisigProposal String where
  key row := row.proposalId

instance : Keyed MultisigSignature (String × String) where
  key row := (row.proposalId, row.signer)

structure MultisigDb where
  multisigProposal : Table MultisigProposal
  multisigSignature : Table MultisigSignature

/- The rows that statements lock. -/
inductive MultisigRow where
  | proposal (proposalId : String)
  | signature (proposalId signer : String)
  deriving DecidableEq

inductive MultisigError where
  | invalidSigner
  | invalidRejector
  | proposalNotFound (proposalId : String)
  | invalidState (proposalId : String) (status : ProposalStatus) (action : String)
  | signerNotAuthorized (signer : String)
  | duplicateSignature (proposalId signer : String)
  | uniqueViolation
  | recordNotFound

def MultisigError.message : MultisigError → String
  | .invalidSigner => "Invalid signer address"
  | .invalidRejector => "Invalid rejector address"
  | .proposalNotFound proposalId => "Multisig proposal not found: " ++ proposalId
  | .invalidState proposalId status action =>
    "Cannot " ++ action ++ " proposal " ++ proposalId ++ ": invalid state " ++ status.text
  | .signerNotAuthorized signer => "Signer " ++ signer ++ " is not an authorized multisig admin"
  | .duplicateSignature proposalId signer =>
    "Signer " ++ signer ++ " has already signed proposal " ++ proposalId
  | .uniqueViolation => "Unique constraint failed"
  | .recordNotFound => "No record was found for an update."

abbrev MultisigM := Interactive MultisigDb MultisigRow MultisigError

def MultisigDb.signatures (db : MultisigDb) (proposalId : String) : List MultisigSignature :=
  db.multisigSignature.rows.filter fun s => s.proposalId = proposalId

/- The unique index rejects a second signature of a signer. -/
def MultisigDb.createSignature? (db : MultisigDb)
    (signature : MultisigSignature) : Option MultisigDb :=
  (db.multisigSignature.insert? signature).map fun table => { db with multisigSignature := table }

def MultisigProposal.execute (now : Int) (row : MultisigProposal) : MultisigProposal :=
  { row with status := .executed, executedAt := some now }

def MultisigProposal.reject (now : Int) (rejector : String) (reason : Option String)
    (row : MultisigProposal) : MultisigProposal :=
  { row with
    status := .rejected
    rejectedAt := some now
    rejectedBy := some rejector
    rejectionReason := reason }

theorem key_execute (now : Int) (row : MultisigProposal) : key (row.execute now) = key row := rfl

theorem key_reject (now : Int) (rejector : String) (reason : Option String)
    (row : MultisigProposal) : key (row.reject now rejector reason) = key row := rfl

def MultisigDb.updateProposal (db : MultisigDb) (proposalId : String)
    (f : MultisigProposal → MultisigProposal) (hKey : ∀ row, key (f row) = key row) : MultisigDb :=
  { db with
    multisigProposal := db.multisigProposal.update proposalId f hKey }

-- Authorization
----

/- The pattern `^G[A-Z2-7]{55}$`. -/
def validateStellarAddress (address : String) : Bool :=
  match address.toList with
  | 'G' :: rest =>
    rest.length = 55 && rest.all fun c => ('A' ≤ c && c ≤ 'Z') || ('2' ≤ c && c ≤ '7')
  | _ => false

/- Drop the white space at both ends. -/
def trimWallet (wallet : List Char) : List Char :=
  ((wallet.dropWhile Char.isWhitespace).reverse.dropWhile Char.isWhitespace).reverse

/- The wallets of the `ADMIN_MULTISIG_WALLETS` setting, which are ASCII text. -/
def parseMultisigAdminWallets (raw : Option String) : List String :=
  (((raw.getD "").toList.splitOn ',').map trimWallet).filterMap fun wallet =>
    if wallet.length > 0 then some (String.ofList wallet)
    else none

def isAuthorizedSigner (adminMultisigWallets : Option String) (signer : String) : Bool :=
  let adminWallets := parseMultisigAdminWallets adminMultisigWallets
  if adminWallets.length = 0 then
    -- any valid address, if no quorum is configured
    validateStellarAddress signer
  else
    (adminWallets.map String.toLower).contains signer.toLower

-- Calls
----

structure SignProposalInput where
  proposalId : String
  signer : String

structure SignProposalResult where
  proposalId : String
  status : ProposalStatus
  approvalCount : Nat
  threshold : Int
  executed : Bool
  signature : MultisigSignature

structure RejectProposalInput where
  proposalId : String
  rejector : String
  reason : Option String

structure RejectProposalResult where
  proposalId : String
  status : ProposalStatus
  rejectedAt : Int
  rejectedBy : String
  rejectionReason : Option String

def findProposal (proposalId : String) : MultisigM (Option MultisigProposal) :=
  find fun db => db.multisigProposal.find? proposalId

def findSignatures (proposalId : String) : MultisigM (List MultisigSignature) :=
  find fun db => db.signatures proposalId

def createSignature (signature : MultisigSignature) : MultisigM MultisigSignature :=
  write [.signature signature.proposalId signature.signer] fun db =>
    match db.createSignature? signature with
    | some db' => .ok (signature, db')
    | none => .error .uniqueViolation

def updateProposal (proposalId : String) (f : MultisigProposal → MultisigProposal)
    (hKey : ∀ row, key (f row) = key row) : MultisigM MultisigProposal :=
  write [.proposal proposalId] fun db =>
    match db.multisigProposal.find? proposalId with
    | some row => .ok (f row, db.updateProposal proposalId f hKey)
    | none => .error .recordNotFound

/- The signature that a call creates. -/
def SignProposalInput.signature (input : SignProposalInput) (now : Int) : MultisigSignature where
  proposalId := input.proposalId
  signer := input.signer
  signedAt := now

/- What follows the insertion of the signature. -/
def countApproval (now : Int) (input : SignProposalInput) (proposal : MultisigProposal)
    (approvalCount : Nat) (signature : MultisigSignature) : MultisigM SignProposalResult :=
  if proposal.threshold ≤ approvalCount then do
    let updatedProposal ← updateProposal input.proposalId (.execute now) (key_execute now)
    return {
      proposalId := input.proposalId
      status := updatedProposal.status
      approvalCount
      threshold := proposal.threshold
      executed := true
      signature }
  else
    return {
      proposalId := input.proposalId
      status := proposal.status
      approvalCount
      threshold := proposal.threshold
      executed := false
      signature }

/- What follows the read of a proposal and its signatures. -/
def recordSignature (now : Int) (input : SignProposalInput) (proposal : MultisigProposal)
    (signatures : List MultisigSignature) : MultisigM SignProposalResult :=
  if proposal.status ≠ .pending then
    .raise (.invalidState input.proposalId proposal.status "sign")
  else if signatures.any (fun s => s.signer.toLower = input.signer.toLower) then
    .raise (.duplicateSignature input.proposalId input.signer)
  else
    createSignature (input.signature now) >>=
      countApproval now input proposal (signatures.length + 1)

/-
  The proposal and the signatures it includes are fetched by two
  statements.  Audit entries swallow their errors and are left
  out, as are generated row ids.
-/
def signMultisigProposal (adminMultisigWallets : Option String) (now : Int)
    (input : SignProposalInput) : MultisigM SignProposalResult :=
  if !validateStellarAddress input.signer then
    .raise .invalidSigner
  else if !isAuthorizedSigner adminMultisigWallets input.signer then
    .raise (.signerNotAuthorized input.signer)
  else do
    match ← findProposal input.proposalId with
    | none => .raise (.proposalNotFound input.proposalId)
    | some proposal => findSignatures input.proposalId >>= recordSignature now input proposal

/- What follows the read of the proposal to reject. -/
def recordRejection (now : Int) (input : RejectProposalInput) (proposal : MultisigProposal) :
    MultisigM RejectProposalResult :=
  if proposal.status ≠ .pending then
    .raise (.invalidState input.proposalId proposal.status "reject")
  else do
    let updatedProposal ← updateProposal input.proposalId (.reject now input.rejector input.reason)
        (key_reject now input.rejector input.reason)
    return {
      proposalId := input.proposalId
      status := updatedProposal.status
      rejectedAt := now
      rejectedBy := input.rejector
      rejectionReason := input.reason }

def rejectMultisigProposal (adminMultisigWallets : Option String) (now : Int)
    (input : RejectProposalInput) : MultisigM RejectProposalResult :=
  if !validateStellarAddress input.rejector then
    .raise .invalidRejector
  else if !isAuthorizedSigner adminMultisigWallets input.rejector then
    .raise (.signerNotAuthorized input.rejector)
  else do
    match ← findProposal input.proposalId with
    | none => .raise (.proposalNotFound input.proposalId)
    | some proposal => recordRejection now input proposal

-- Changes of a Proposal
----

/- The number of signatures of a proposal. -/
def MultisigDb.approvals (db : MultisigDb) (proposalId : String) : Int :=
  (db.signatures proposalId).length

theorem find?_updateProposal (db : MultisigDb) (p : String)
    (f : MultisigProposal → MultisigProposal) (hKey : ∀ row, key (f row) = key row) (q : String) :
    (db.updateProposal p f hKey).multisigProposal.find? q =
      if q = p then (db.multisigProposal.find? q).map f
      else db.multisigProposal.find? q := by
  by_cases hq : q = p
  · rw [if_pos hq, hq]
    exact Table.find?_update_same _ _ _ hKey
  · rw [if_neg hq]
    exact Table.find?_update_other _ _ hKey hq

theorem find?_updateProposal_same {db : MultisigDb} {p : String}
    {f : MultisigProposal → MultisigProposal} {row : MultisigProposal}
    (hKey : ∀ row, key (f row) = key row) (hRow : db.multisigProposal.find? p = some row) :
    (db.updateProposal p f hKey).multisigProposal.find? p = some (f row) := by
  rw [find?_updateProposal, if_pos rfl, hRow]
  rfl

variable {db db' : MultisigDb} {signature : MultisigSignature}

theorem multisigProposal_createSignature? (h : db.createSignature? signature = some db') :
    db'.multisigProposal = db.multisigProposal := by
  rcases Option.map_eq_some_iff.mp h with ⟨table, -, rfl⟩
  rfl

theorem find?_createSignature? (h : db.createSignature? signature = some db')
    (k : String × String) :
    db'.multisigSignature.find? k =
      if k = (signature.proposalId, signature.signer) then
        some signature
      else db.multisigSignature.find? k := by
  rcases Option.map_eq_some_iff.mp h with ⟨table, hTable, rfl⟩
  exact Table.find?_insert? hTable k

theorem approvals_createSignature? (h : db.createSignature? signature = some db') (q : String) :
    db'.approvals q = db.approvals q + if q = signature.proposalId then 1 else 0 := by
  rcases Option.map_eq_some_iff.mp h with ⟨table, hTable, rfl⟩
  have hRows := (Table.insert?_eq_some hTable).2
  unfold MultisigDb.approvals MultisigDb.signatures
  rw [hRows, List.filter_append, List.length_append]
  by_cases hq : q = signature.proposalId
  · rw [if_pos hq, hq]
    simp
  · rw [if_neg hq]
    simp [Ne.symm hq]

theorem fresh_of_createSignature? (h : db.createSignature? signature = some db') :
    db.multisigSignature.find? (signature.proposalId, signature.signer) = none := by
  rcases Option.map_eq_some_iff.mp h with ⟨table, hTable, -⟩
  exact (Table.insert?_eq_some hTable).1

theorem createSignature?_of_fresh
    (hFresh : db.multisigSignature.find? (signature.proposalId, signature.signer) = none) :
    ∃ db', db.createSignature? signature = some db' := by
  have hInsert : db.multisigSignature.insert? signature =
      some (db.multisigSignature.create signature hFresh) :=
    Table.insert?_of_fresh hFresh
  unfold MultisigDb.createSignature?
  rw [hInsert]
  exact ⟨_, rfl⟩

end

-- Stages of a Call
----

section

inductive MultisigCall where
  | sign (now : Int) (input : SignProposalInput)
  | reject (now : Int) (input : RejectProposalInput)

inductive MultisigResult where
  | signed (result : SignProposalResult)
  | rejected (result : RejectProposalResult)

def MultisigCall.proposalId : MultisigCall → String
  | .sign _ input => input.proposalId
  | .reject _ input => input.proposalId

def MultisigCall.isSign : MultisigCall → Bool
  | .sign _ _ => true
  | .reject _ _ => false

def MultisigCall.body (adminMultisigWallets : Option String) :
    MultisigCall → MultisigM MultisigResult
  | .sign now input =>
    signMultisigProposal adminMultisigWallets now input >>= fun result => pure (.signed result)
  | .reject now input =>
    rejectMultisigProposal adminMultisigWallets now input >>= fun result => pure (.rejected result)

/- The proposal a call has read is the one stored, and open. -/
def Pending (db : MultisigDb) (proposalId : String) (proposal : MultisigProposal) : Prop :=
  db.multisigProposal.find? proposalId = some proposal ∧ proposal.status = .pending

/- The insertion a call has made is still possible. -/
def Reserved (db : MultisigDb) (input : SignProposalInput) (held : List MultisigRow) : Prop :=
  .signature input.proposalId input.signer ∈ held ∧ db.multisigSignature.find?
    (input.proposalId, input.signer) = none

/-
  The stages of a call: what it has executed and what it still
  has to run, what its writes amount to and what it holds.
-/
inductive Stage (adminMultisigWallets : Option String) (db : MultisigDb) :
    MultisigCall → Nat → MultisigM MultisigResult →
      (MultisigDb → MultisigDb) → List MultisigRow → Prop where
  | started {call : MultisigCall} :
    Stage adminMultisigWallets db call 0 (call.body adminMultisigWallets) id []
  | failed {call : MultisigCall} {n : Nat} {e : MultisigError} {writes : MultisigDb → MultisigDb}
    {held : List MultisigRow} : Stage adminMultisigWallets db call n (.raise e) writes held
  | located {now : Int} {input : SignProposalInput} {proposal : MultisigProposal}
    {writes : MultisigDb → MultisigDb} {held : List MultisigRow}
    (hRow :
      db.multisigProposal.find? input.proposalId = some proposal) (hWrites : ∀ s, writes s = s) :
    Stage adminMultisigWallets db (.sign now input) 1 ((findSignatures input.proposalId >>=
      recordSignature now input proposal) >>= fun result => pure (.signed result)) writes held
  | counted {now : Int} {input : SignProposalInput} {proposal : MultisigProposal} {n : Nat}
    {writes : MultisigDb → MultisigDb} {held : List MultisigRow} (hPast : 2 ≤ n)
    (hPending : Pending db input.proposalId proposal) (approvalCount : Nat)
    (hCount :
      proposal.threshold ≤ approvalCount ↔ proposal.threshold ≤ db.approvals input.proposalId + 1)
    (hWrites : ∀ s, writes s = s) :
    Stage adminMultisigWallets db (.sign now input) n ((createSignature (input.signature now) >>=
      countApproval now input proposal approvalCount) >>= fun result => pure (.signed result))
      writes held
  | signed {now : Int} {input : SignProposalInput} {proposal : MultisigProposal} {n : Nat}
    {writes : MultisigDb → MultisigDb} {held : List MultisigRow} (hPast : 2 ≤ n)
    (hPending : Pending db input.proposalId proposal)
    (hBelow :
      db.approvals input.proposalId + 1 < proposal.threshold) (hReserved : Reserved db input held)
    (hWrites : ∀ s s', s.createSignature? (input.signature now) = some s' → writes s = s')
    (result : MultisigResult) :
    Stage adminMultisigWallets db (.sign now input) n (.ret result) writes held
  | completing {now : Int} {input : SignProposalInput} {proposal : MultisigProposal} {n : Nat}
    {writes : MultisigDb → MultisigDb} {held : List MultisigRow} (hPast : 2 ≤ n)
    (hPending : Pending db input.proposalId proposal)
    (hReached :
      proposal.threshold ≤ db.approvals input.proposalId + 1) (hReserved : Reserved db input held)
    (hWrites : ∀ s s', s.createSignature? (input.signature now) = some s' → writes s = s')
    (result : MultisigProposal → SignProposalResult) :
    Stage adminMultisigWallets db (.sign now input) n
      ((updateProposal input.proposalId (.execute now) (key_execute now) >>=
        fun updated => pure (result updated)) >>= fun result => pure (.signed result))
      writes held
  | executed {now : Int} {input : SignProposalInput} {proposal : MultisigProposal} {n : Nat}
    {writes : MultisigDb → MultisigDb} {held : List MultisigRow} (hPast : 2 ≤ n)
    (hPending : Pending db input.proposalId proposal)
    (hReached :
      proposal.threshold ≤ db.approvals input.proposalId + 1) (hReserved : Reserved db input held)
    (hWrites : ∀ s s', s.createSignature? (input.signature now) = some s' →
      s.multisigProposal.find? input.proposalId = some proposal → writes s =
        s'.updateProposal input.proposalId (.execute now) (key_execute now))
    (result : MultisigResult) :
    Stage adminMultisigWallets db (.sign now input) n (.ret result) writes held
  | rejecting {now : Int} {input : RejectProposalInput} {proposal : MultisigProposal}
    {writes : MultisigDb → MultisigDb} {held : List MultisigRow}
    (hPending : Pending db input.proposalId proposal) (hWrites : ∀ s, writes s = s)
    (result : MultisigProposal → RejectProposalResult) :
    Stage adminMultisigWallets db (.reject now input) 1 ((updateProposal input.proposalId
      (.reject now input.rejector input.reason) (key_reject now input.rejector input.reason) >>=
        fun updated => pure (result updated)) >>= fun result => pure (.rejected result))
      writes held
  | rejected {now : Int} {input : RejectProposalInput} {proposal : MultisigProposal} {n : Nat}
    {writes : MultisigDb → MultisigDb} {held : List MultisigRow} (hPast : 1 ≤ n)
    (hPending : Pending db input.proposalId proposal)
    (hWrites : ∀ s, s.multisigProposal.find? input.proposalId = some proposal → writes s =
      s.updateProposal input.proposalId (.reject now input.rejector input.reason)
        (key_reject now input.rejector input.reason)) (result : MultisigResult) :
    Stage adminMultisigWallets db (.reject now input) n (.ret result) writes held

/- What a committed call has changed. -/
inductive Change (db : MultisigDb) (held : List MultisigRow) :
    MultisigCall → MultisigDb → Prop where
  | signed {now : Int} {input : SignProposalInput} {proposal : MultisigProposal} {db' : MultisigDb}
    (hPending : Pending db input.proposalId proposal)
    (hBelow : db.approvals input.proposalId + 1 < proposal.threshold)
    (hHeld : .signature input.proposalId input.signer ∈ held)
    (hCreate : db.createSignature? (input.signature now) = some db') :
    Change db held (.sign now input) db'
  | executed {now : Int} {input : SignProposalInput} {proposal : MultisigProposal}
    {db' : MultisigDb} (hPending : Pending db input.proposalId proposal)
    (hReached : proposal.threshold ≤ db.approvals input.proposalId + 1)
    (hHeld : .signature input.proposalId input.signer ∈ held)
    (hCreate : db.createSignature? (input.signature now) = some db') :
    Change db held (.sign now input) (db'.updateProposal input.proposalId (.execute now)
      (key_execute now))
  | rejected {now : Int} {input : RejectProposalInput} {proposal : MultisigProposal}
    (hPending : Pending db input.proposalId proposal) :
    Change db held (.reject now input) (db.updateProposal input.proposalId
      (.reject now input.rejector input.reason) (key_reject now input.rejector input.reason))

-- Statements of a Call
----

variable {adminMultisigWallets : Option String} {db : MultisigDb} {now : Int} {n : Nat}
variable {body : MultisigM MultisigResult} {writes : MultisigDb → MultisigDb}
variable {held : List MultisigRow} {input : SignProposalInput} {proposal : MultisigProposal}

theorem stage_of_recordSignature (hRow :
    db.multisigProposal.find? input.proposalId = some proposal) (hWrites : ∀ s, writes s = s) :
    Stage adminMultisigWallets db (.sign now input) 2 (recordSignature now input proposal
      (db.signatures input.proposalId) >>= fun result => pure (.signed result)) writes held := by
  unfold recordSignature
  split
  · exact .failed
  · rename_i hStatus
    split
    · exact .failed
    · refine .counted le_rfl ⟨hRow, not_not.mp hStatus⟩ _ ?_ hWrites
      rw [MultisigDb.approvals, Nat.cast_add, Nat.cast_one]

theorem stage_of_countApproval {approvalCount : Nat} (hPast : 2 ≤ n)
    (hPending : Pending db input.proposalId proposal) (hCount :
      proposal.threshold ≤ approvalCount ↔ proposal.threshold ≤ db.approvals input.proposalId + 1)
    (hReserved : Reserved db input held)
    (hWrites : ∀ s s', s.createSignature? (input.signature now) = some s' → writes s = s')
    (signature : MultisigSignature) :
    Stage adminMultisigWallets db (.sign now input) n
      (countApproval now input proposal approvalCount signature
        >>= fun result => pure (.signed result)) writes held := by
  unfold countApproval
  split
  · rename_i hReached
    exact .completing hPast hPending (hCount.mp hReached) hReserved hWrites _
  · rename_i hBelow
    rw [hCount, not_le] at hBelow
    exact .signed hPast hPending hBelow hReserved hWrites _

theorem stage_of_recordRejection {input : RejectProposalInput} (hRow :
    db.multisigProposal.find? input.proposalId = some proposal) (hWrites : ∀ s, writes s = s) :
    Stage adminMultisigWallets db (.reject now input) 1 (recordRejection now input proposal >>=
      fun result => pure (.rejected result)) writes held := by
  unfold recordRejection
  split
  · exact .failed
  · rename_i hStatus
    exact .rejecting ⟨hRow, not_not.mp hStatus⟩ hWrites _

variable {rows : List MultisigRow} {update : MultisigDb → MultisigDb}
variable {next : MultisigDb → MultisigM MultisigResult}

theorem stage_of_sign
    (hBody : .stmt rows update next = MultisigCall.body adminMultisigWallets (.sign now input)) :
    Stage adminMultisigWallets db (.sign now input) 1 (next db)
      (fun s => update s) (rows ++ []) := by
  rw [MultisigCall.body, signMultisigProposal] at hBody
  split at hBody
  · cases hBody
  · split at hBody
    · cases hBody
    · cases hBody
      change Stage _ _ _ _ ((match db.multisigProposal.find? input.proposalId with
        | none => _
        | some proposal => _) >>= _) _ _
      cases hRow : db.multisigProposal.find? input.proposalId with
      | none => exact .failed
      | some proposal => exact .located hRow (fun _ => rfl)

theorem stage_of_reject {input : RejectProposalInput}
    (hBody : .stmt rows update next = MultisigCall.body adminMultisigWallets (.reject now input)) :
    Stage adminMultisigWallets db (.reject now input) 1
      (next db) (fun s => update s) (rows ++ []) := by
  rw [MultisigCall.body, rejectMultisigProposal] at hBody
  split at hBody
  · cases hBody
  · split at hBody
    · cases hBody
    · cases hBody
      change Stage _ _ _ _ ((match db.multisigProposal.find? input.proposalId with
        | none => _
        | some proposal => _) >>= _) _ _
      cases hRow : db.multisigProposal.find? input.proposalId with
      | none => exact .failed
      | some proposal => exact stage_of_recordRejection hRow (fun _ => rfl)

theorem Stage.execute {call : MultisigCall}
    (h : Stage adminMultisigWallets db call n (.stmt rows update next) writes held) :
    Stage adminMultisigWallets db call (n + 1) (next (writes db)) (fun s => update (writes s))
      (rows ++ held) := by
  generalize hBody : Interactive.stmt rows update next = body at h
  cases h with
  | started =>
    cases call with
    | sign now input => exact stage_of_sign hBody
    | reject now input => exact stage_of_reject hBody
  | failed => cases hBody
  | located hRow hWrites =>
    cases hBody
    have hRead := hWrites db
    simp only [id_eq, hRead]
    exact stage_of_recordSignature hRow hWrites
  | @counted now input proposal _ _ _ hPast hPending approvalCount hCount hWrites =>
    cases hBody
    have hRead := hWrites db
    cases hCreate : db.createSignature? (input.signature now) with
    | none =>
      simp only [hRead, hCreate]
      exact .failed
    | some db' =>
      simp only [hRead, hCreate]
      refine stage_of_countApproval (by omega) hPending hCount ?_ ?_ _
      · exact ⟨List.mem_cons_self, fresh_of_createSignature? hCreate⟩
      · intro s s' hs
        rw [hWrites s]
        simp only [hs]
  | signed hPast hPending hBelow hReserved hWrites result => cases hBody
  | @completing now input proposal _ _ _ hPast hPending hReached hReserved hWrites result =>
    cases hBody
    rcases @createSignature?_of_fresh db (input.signature now) hReserved.2 with ⟨db', hCreate⟩
    have hStored : ∀ s s', s.createSignature? (input.signature now) = some s' →
        s.multisigProposal.find? input.proposalId = some proposal →
        (writes s).multisigProposal.find? input.proposalId = some proposal := by
      intro s s' hs hRow
      rw [hWrites s s' hs, multisigProposal_createSignature? hs]
      exact hRow
    simp only [hStored db db' hCreate hPending.1]
    refine .executed (by omega) hPending hReached
      ⟨List.mem_cons_of_mem _ hReserved.1, hReserved.2⟩ ?_ _
    intro s s' hs hRow
    simp only [hStored s s' hs hRow]
    rw [hWrites s s' hs]
  | executed hPast hPending hReached hReserved hWrites result => cases hBody
  | @rejecting now input proposal _ _ hPending hWrites result =>
    cases hBody
    have hRead := hWrites db
    simp only [hRead, hPending.1]
    refine .rejected (by omega) hPending ?_ _
    intro s hRow
    simp only [hWrites s, hRow]
  | rejected hPast hPending hWrites result => cases hBody

theorem Stage.commit {call : MultisigCall} {result : MultisigResult}
    (h : Stage adminMultisigWallets db call n (.ret result) writes held) :
    Change db held call (writes db) := by
  generalize hBody : Interactive.ret result = body at h
  cases h with
  | started =>
    cases call with
    | sign now input =>
      rw [MultisigCall.body, signMultisigProposal] at hBody
      split at hBody
      · cases hBody
      · split at hBody <;> cases hBody
    | reject now input =>
      rw [MultisigCall.body, rejectMultisigProposal] at hBody
      split at hBody
      · cases hBody
      · split at hBody <;> cases hBody
  | failed => cases hBody
  | located hRow hWrites => cases hBody
  | counted hPast hPending approvalCount hCount hWrites => cases hBody
  | @signed now input _ _ _ _ hPast hPending hBelow hReserved hWrites result =>
    rcases @createSignature?_of_fresh db (input.signature now) hReserved.2 with ⟨db', hCreate⟩
    rw [hWrites db db' hCreate]
    exact .signed hPending hBelow hReserved.1 hCreate
  | completing hPast hPending hReached hReserved hWrites result => cases hBody
  | @executed now input _ _ _ _ hPast hPending hReached hReserved hWrites result =>
    rcases @createSignature?_of_fresh db (input.signature now) hReserved.2 with ⟨db', hCreate⟩
    rw [hWrites db db' hCreate hPending.1]
    exact .executed hPending hReached hReserved.1 hCreate
  | rejecting hPending hWrites result => cases hBody
  | rejected hPast hPending hWrites result =>
    rw [hWrites db hPending.1]
    exact .rejected hPending

/- A call that has read nothing, or failed, stays where it is. -/
theorem Stage.idle {db' : MultisigDb} {call : MultisigCall}
    (h : Stage adminMultisigWallets db call n body writes held)
    (hIdle : n = 0 ∨ body.isRaised = true) :
    Stage adminMultisigWallets db' call n body writes held := by
  cases h with
  | started => exact .started
  | failed => exact .failed
  | _ =>
    -- every other stage has read and has not failed
    rcases hIdle with hZero | hRaised
    · omega
    · exact absurd hRaised Bool.false_ne_true

/-
  A call keeps its stage when its proposal, the side of the
  threshold it would reach and its reserved signature are kept.
-/
theorem Stage.mono {db' : MultisigDb} {call : MultisigCall}
    (h : Stage adminMultisigWallets db call n body writes held)
    (hRow : db'.multisigProposal.find? call.proposalId = db.multisigProposal.find? call.proposalId)
    (hCount : call.isSign = true → 2 ≤ n → ∀ proposal, Pending db call.proposalId proposal →
      (proposal.threshold ≤ db'.approvals call.proposalId + 1 ↔ proposal.threshold ≤
        db.approvals call.proposalId + 1))
    (hFresh : ∀ p signer, .signature p signer ∈ held → db'.multisigSignature.find? (p, signer) =
      db.multisigSignature.find? (p, signer)) :
    Stage adminMultisigWallets db' call n body writes held := by
  have hPending' : ∀ proposal, Pending db call.proposalId proposal →
      Pending db' call.proposalId proposal := by
    intro proposal hPending
    exact ⟨hRow.trans hPending.1, hPending.2⟩
  have hReserved' : ∀ input, Reserved db input held → Reserved db' input held := by
    intro input hReserved
    exact ⟨hReserved.1, (hFresh _ _ hReserved.1).trans hReserved.2⟩
  cases h with
  | started => exact .started
  | failed => exact .failed
  | located hStored hWrites => exact .located (hRow.trans hStored) hWrites
  | counted hPast hPending approvalCount hReached hWrites =>
    have hSame := hCount rfl hPast _ hPending
    exact .counted hPast (hPending' _ hPending) approvalCount (hReached.trans hSame.symm) hWrites
  | signed hPast hPending hBelow hReserved hWrites result =>
    have hSame := hCount rfl hPast _ hPending
    refine .signed hPast (hPending' _ hPending) ?_ (hReserved' _ hReserved) hWrites result
    rw [← not_le] at hBelow ⊢
    exact fun hReached => hBelow (hSame.mp hReached)
  | completing hPast hPending hReached hReserved hWrites result =>
    have hSame := hCount rfl hPast _ hPending
    exact .completing hPast (hPending' _ hPending)
      (hSame.mpr hReached) (hReserved' _ hReserved) hWrites result
  | executed hPast hPending hReached hReserved hWrites result =>
    have hSame := hCount rfl hPast _ hPending
    exact .executed hPast (hPending' _ hPending)
      (hSame.mpr hReached) (hReserved' _ hReserved) hWrites result
  | rejecting hPending hWrites result => exact .rejecting (hPending' _ hPending) hWrites result
  | rejected hPast hPending hWrites result =>
    exact .rejected hPast (hPending' _ hPending) hWrites result

-- Safety of a Change
----

/- Executed proposals have reached their threshold, and pending ones have not. -/
structure Safe (db : MultisigDb) : Prop where
  executed :
    ∀ p proposal, db.multisigProposal.find? p = some proposal → proposal.status = .executed →
      proposal.threshold ≤ db.approvals p
  pending : ∀ p proposal, db.multisigProposal.find? p = some proposal → proposal.status = .pending →
    db.approvals p < proposal.threshold

/- Proposals that are no longer pending keep their status. -/
def Settled (db db' : MultisigDb) : Prop :=
  ∀ p proposal, db.multisigProposal.find? p = some proposal → proposal.status ≠ .pending →
    ∃ proposal', db'.multisigProposal.find? p = some proposal' ∧
      proposal'.status = proposal.status

theorem Settled.refl (db : MultisigDb) : Settled db db :=
  fun _ proposal hRow _ => ⟨proposal, hRow, rfl⟩

theorem Settled.trans {db₁ db₂ db₃ : MultisigDb} (h : Settled db₁ db₂) (h' : Settled db₂ db₃) :
    Settled db₁ db₃ := by
  intro p proposal hRow hStatus
  rcases h p proposal hRow hStatus with ⟨proposal', hRow', hSame⟩
  rcases h' p proposal' hRow' (hSame ▸ hStatus) with ⟨proposal'', hRow'', hSame'⟩
  exact ⟨proposal'', hRow'', hSame'.trans hSame⟩

variable {db db' : MultisigDb} {held : List MultisigRow} {call : MultisigCall}

theorem Change.other (h : Change db held call db') {q : String} (hq : q ≠ call.proposalId) :
    db'.multisigProposal.find? q = db.multisigProposal.find? q ∧
      db'.approvals q = db.approvals q := by
  cases h with
  | signed hPending hBelow hHeld hCreate =>
    rw [multisigProposal_createSignature? hCreate,
      approvals_createSignature? hCreate, if_neg (by exact hq), add_zero]
    exact ⟨rfl, rfl⟩
  | executed hPending hReached hHeld hCreate =>
    rw [find?_updateProposal, if_neg (by exact hq), multisigProposal_createSignature? hCreate]
    refine ⟨rfl, ?_⟩
    refine (approvals_createSignature? hCreate q).trans ?_
    rw [if_neg (by exact hq), add_zero]
  | rejected hPending =>
    rw [find?_updateProposal, if_neg (by exact hq)]
    exact ⟨rfl, rfl⟩

theorem approvals_signature (hCreate : db.createSignature? (input.signature now) = some db') :
    db'.approvals input.proposalId = db.approvals input.proposalId + 1 := by
  refine (approvals_createSignature? hCreate _).trans ?_
  exact congrArg (_ + ·) (if_pos rfl)

theorem Change.signatures (h : Change db held call db') {p signer : String}
    (hFree : .signature p signer ∉ held) :
    db'.multisigSignature.find? (p, signer) = db.multisigSignature.find? (p, signer) := by
  cases h with
  | @signed now input _ _ hPending hBelow hHeld hCreate =>
    rw [find?_createSignature? hCreate, if_neg]
    intro hKey
    rcases Prod.mk.inj hKey with ⟨rfl, rfl⟩
    exact hFree hHeld
  | @executed now input _ db₁ hPending hReached hHeld hCreate =>
    change db₁.multisigSignature.find? (p, signer) = _
    rw [find?_createSignature? hCreate, if_neg]
    intro hKey
    rcases Prod.mk.inj hKey with ⟨rfl, rfl⟩
    exact hFree hHeld
  | rejected hPending => rfl

theorem Change.own (h : Change db held call db') :
    ∃ proposal proposal', Pending db call.proposalId proposal ∧
      db'.multisigProposal.find? call.proposalId = some proposal' ∧ (proposal'.status = .pending ∧
        db'.approvals call.proposalId < proposal'.threshold ∨ proposal'.status = .executed ∧
        proposal'.threshold ≤ db'.approvals call.proposalId ∨
        proposal'.status = .rejected) := by
  cases h with
  | @signed now input proposal _ hPending hBelow hHeld hCreate =>
    have hCount := approvals_signature hCreate
    refine ⟨proposal, proposal, hPending, ?_, Or.inl ⟨hPending.2, ?_⟩⟩
    · rw [multisigProposal_createSignature? hCreate]
      exact hPending.1
    · exact hCount.symm ▸ hBelow
  | @executed now input proposal db₁ hPending hReached hHeld hCreate =>
    have hCount := approvals_signature hCreate
    refine ⟨proposal, proposal.execute now, hPending, ?_, Or.inr (Or.inl ⟨rfl, ?_⟩)⟩
    · apply find?_updateProposal_same
      rw [multisigProposal_createSignature? hCreate]
      exact hPending.1
    · exact hCount.symm ▸ hReached
  | @rejected now input proposal hPending =>
    refine ⟨proposal, proposal.reject now input.rejector input.reason,
      hPending, ?_, Or.inr (Or.inr rfl)⟩
    exact find?_updateProposal_same _ hPending.1

theorem Change.below (h : Change db held call db') (hSign : call.isSign = true)
    (hRow : db.multisigProposal.find? call.proposalId = some proposal)
    (hBelow : db.approvals call.proposalId + 1 < proposal.threshold) :
    db'.multisigProposal = db.multisigProposal ∧ db'.approvals call.proposalId =
      db.approvals call.proposalId + 1 := by
  cases h with
  | signed hPending _ hHeld hCreate =>
    exact ⟨multisigProposal_createSignature? hCreate, approvals_signature hCreate⟩
  | executed hPending hReached hHeld hCreate =>
    cases hPending.1.symm.trans hRow
    exact absurd hReached (not_le.mpr hBelow)
  | rejected hPending => cases hSign

theorem Change.safe (h : Change db held call db') (hSafe : Safe db) : Safe db' := by
  rcases h.own with ⟨proposal, proposal', hPending, hRow', hBecomes⟩
  constructor
  · intro p row hRow hExecuted
    by_cases hp : p = call.proposalId
    · rw [hp, hRow'] at hRow
      cases hRow
      rw [hExecuted] at hBecomes
      simpa [hp] using hBecomes
    · rw [(h.other hp).1] at hRow
      rw [(h.other hp).2]
      exact hSafe.executed p row hRow hExecuted
  · intro p row hRow hStillPending
    by_cases hp : p = call.proposalId
    · rw [hp, hRow'] at hRow
      cases hRow
      rw [hStillPending] at hBecomes
      simpa [hp] using hBecomes
    · rw [(h.other hp).1] at hRow
      rw [(h.other hp).2]
      exact hSafe.pending p row hRow hStillPending

theorem Change.settled (h : Change db held call db') : Settled db db' := by
  rcases h.own with ⟨proposal, -, hPending, -, -⟩
  intro p row hRow hStatus
  by_cases hp : p = call.proposalId
  · rw [hp, hPending.1] at hRow
    cases hRow
    exact absurd hPending.2 hStatus
  · exact ⟨row, (h.other hp).1.trans hRow, rfl⟩

end

-- Concurrent Calls
----

section

abbrev MultisigPool := Isolation MultisigDb MultisigRow MultisigError MultisigResult

abbrev MultisigSession := Session MultisigDb MultisigRow MultisigError MultisigResult

/- The pool of some calls, none of them begun. -/
def multisigPool (adminMultisigWallets : Option String) (calls : List MultisigCall)
    (db : MultisigDb) : MultisigPool :=
  .start db (calls.map (MultisigCall.body adminMultisigWallets))

/- In flight, with the read of the proposal behind it. -/
def hasRead (session : MultisigSession) : Bool :=
  session.phase = .active && session.executed ≠ 0 && !session.body.isRaised

def MultisigDb.StaysBelow (db : MultisigDb) (proposalId : String) (signatures : Int) : Prop :=
  ∀ proposal, db.multisigProposal.find? proposalId = some proposal →
    db.approvals proposalId + signatures < proposal.threshold

/-
  The condition on a commit.  If another call that has read the
  proposal is in flight, the commit leaves the proposal pending;
  if that call has counted the signatures already, the proposal
  stays pending with both signatures.
-/
def Undisturbed (calls : List MultisigCall) (state : MultisigPool) : Turn → Prop
  | .commit i =>
    ∀ (j : Nat) call other session, j ≠ i → calls[i]? = some call → calls[j]? = some other →
      other.proposalId = call.proposalId → state.sessions[j]? = some session →
      hasRead session = true → call.isSign = true ∧ state.committed.StaysBelow call.proposalId 1 ∧
      (other.isSign = true → 2 ≤ session.executed → state.committed.StaysBelow call.proposalId 2)
  | _ => True

instance (db : MultisigDb) (proposalId : String) (signatures : Int) :
    Decidable (db.StaysBelow proposalId signatures) :=
  inferInstanceAs (Decidable (∀ proposal ∈ db.multisigProposal.find? proposalId, _))

instance (calls : List MultisigCall) (state : MultisigPool) (turn : Turn) :
    Decidable (Undisturbed calls state turn) :=
  match turn with
  | .commit i =>
    decidable_of_iff (∀ call ∈ calls[i]?, ∀ j < calls.length, ∀ other ∈ calls[j]?,
      ∀ session ∈ state.sessions[j]?,
        j ≠ i ∧ other.proposalId = call.proposalId ∧ hasRead session = true →
          call.isSign = true ∧ state.committed.StaysBelow call.proposalId 1 ∧
            (other.isSign = true ∧ 2 ≤ session.executed →
              state.committed.StaysBelow call.proposalId 2))
      ⟨fun h j call other session hNe hCall hOther hSame hSession hRead =>
        have hBoth := h call hCall j (List.getElem?_eq_some_iff.mp hOther).1 other hOther session
          hSession ⟨hNe, hSame, hRead⟩
        ⟨hBoth.1, hBoth.2.1, fun hSign hCounted => hBoth.2.2 ⟨hSign, hCounted⟩⟩,
      fun h call hCall j _ other hOther session hSession hThese =>
        have hBoth := h j call other session hThese.1 hCall hOther hThese.2.1 hSession hThese.2.2
        ⟨hBoth.1, hBoth.2.1, fun hCounts => hBoth.2.2 hCounts.1 hCounts.2⟩⟩
  | .execute _ => isTrue trivial
  | .abort _ => isTrue trivial

def Staged (adminMultisigWallets : Option String) (calls : List MultisigCall)
    (state : MultisigPool) : Prop :=
  state.sessions.length = calls.length ∧ ∀ (i : Nat) call session, calls[i]? = some call →
    state.sessions[i]? = some session → session.phase = .active →
      Stage adminMultisigWallets state.committed call
        session.executed session.body session.writes session.held

variable {adminMultisigWallets : Option String} {calls : List MultisigCall}
variable {state state' : MultisigPool} {db : MultisigDb} {i : Nat} {session : MultisigSession}

theorem call_of_session (hStaged : Staged adminMultisigWallets calls state)
    (hSession : state.sessions[i]? = some session) :
    ∃ call, calls[i]? = some call := by
  have hBound := (List.getElem?_eq_some_iff.mp hSession).1
  rw [hStaged.1] at hBound
  exact ⟨_, List.getElem?_eq_getElem hBound⟩

theorem idle_of_not_hasRead (hActive : session.phase = .active) (h : hasRead session ≠ true) :
    session.executed = 0 ∨ session.body.isRaised = true := by
  unfold hasRead at h
  by_cases hZero : session.executed = 0
  · exact Or.inl hZero
  · right
    simpa [hActive, hZero] using h

theorem stage_after_commit {j : Nat} {call other : MultisigCall}
    {session' : MultisigSession} {db' : MultisigDb} (hExclusive : state.Exclusive)
    (hAllowed : Undisturbed calls state (.commit i)) (hNe : j ≠ i) (hCall : calls[i]? = some call)
    (hOther : calls[j]? = some other) (hSession : state.sessions[i]? = some session)
    (hPhase : session.phase = .active) (hSession' : state.sessions[j]? = some session')
    (hActive : session'.phase = .active) (hChange : Change state.committed session.held call db')
    (hStage : Stage adminMultisigWallets state.committed other
      session'.executed session'.body session'.writes session'.held) :
    Stage adminMultisigWallets db' other session'.executed
      session'.body session'.writes session'.held := by
  by_cases hRead : hasRead session' = true
  swap
  · exact hStage.idle (idle_of_not_hasRead hActive hRead)
  have hFresh :
      ∀ p signer, .signature p signer ∈ session'.held → db'.multisigSignature.find? (p, signer) =
        state.committed.multisigSignature.find?
          (p, signer) := by
    intro p signer hHeld
    exact hChange.signatures (hExclusive j i session' session hNe hSession' hSession
      hActive hPhase _ hHeld)
  by_cases hSame : other.proposalId = call.proposalId
  · rcases hAllowed j call other session' hNe hCall hOther
      hSame hSession' hRead with ⟨hSign, hOne, hTwo⟩
    rcases hChange.own with ⟨proposal, -, hPending, -, -⟩
    rcases hChange.below hSign hPending.1 (hOne proposal hPending.1) with ⟨hRows, hCount⟩
    refine hStage.mono (by rw [hRows]) ?_ hFresh
    intro hOtherSign hPast proposal' hPending'
    rw [hSame] at hPending' ⊢
    rw [hCount]
    have hOpen := hTwo hOtherSign hPast proposal' hPending'.1
    constructor <;> intro _ <;> omega
  · rcases hChange.other hSame with ⟨hRow, hCount⟩
    refine hStage.mono hRow ?_ hFresh
    intro _ _ proposal' _
    rw [hCount]

/- What holds in every state of an undisturbed run. -/
structure Orderly (adminMultisigWallets : Option String) (calls : List MultisigCall)
    (state : MultisigPool) : Prop where
  staged : Staged adminMultisigWallets calls state
  exclusive : state.Exclusive
  safe : Safe state.committed

theorem orderly_start (hSafe : Safe db) :
    Orderly adminMultisigWallets calls (multisigPool adminMultisigWallets calls db) := by
  refine ⟨⟨?_, ?_⟩, Isolation.exclusive_start _ _, hSafe⟩
  · simp [multisigPool, Isolation.start]
  · intro i call session hCall hSession hActive
    rw [multisigPool, Isolation.start, List.map_map,
      List.getElem?_map, hCall, Option.map_some] at hSession
    cases hSession
    exact .started

/- One turn keeps the invariant and settled proposals. -/
theorem orderly_step {turn : Turn} (hOrderly : Orderly adminMultisigWallets calls state)
    (hAllowed : Undisturbed calls state turn) (hStep : state.step turn = some state') :
    Orderly adminMultisigWallets calls state' ∧ Settled state.committed state'.committed := by
  have hExclusive := Isolation.exclusive_step hOrderly.exclusive hStep
  have hStaged := hOrderly.staged
  cases turn with
  | execute i =>
    rcases Isolation.step_execute hStep with ⟨session, rows, update, next, hSession, hPhase, hBody,
      -, rfl⟩
    refine ⟨⟨⟨by simpa using hStaged.1, ?_⟩, hExclusive, hOrderly.safe⟩, Settled.refl _⟩
    intro j call session' hCall hSession' hActive
    rcases getElem?_set_cases hSession' with ⟨rfl, rfl⟩ | ⟨-, hOld⟩
    · have hStage := hStaged.2 j call session hCall hSession hPhase
      rw [hBody] at hStage
      exact hStage.execute
    · exact hStaged.2 j call session' hCall hOld hActive
  | commit i =>
    rcases Isolation.step_commit hStep with ⟨session, result, hSession, hPhase, hBody, rfl⟩
    rcases call_of_session hStaged hSession with ⟨call, hCall⟩
    have hStage := hStaged.2 i call session hCall hSession hPhase
    rw [hBody] at hStage
    have hChange := hStage.commit
    refine ⟨⟨⟨by simpa using hStaged.1, ?_⟩, hExclusive,
      hChange.safe hOrderly.safe⟩, hChange.settled⟩
    intro j other session' hOther hSession' hActive
    rcases getElem?_set_cases hSession' with ⟨rfl, rfl⟩ | ⟨hNe, hOld⟩
    · cases hActive
    · exact stage_after_commit hOrderly.exclusive hAllowed hNe
        hCall hOther hSession hPhase hOld hActive hChange
        (hStaged.2 j other session' hOther hOld hActive)
  | abort i =>
    rcases Isolation.step_abort hStep with ⟨session, hSession, hPhase, rfl⟩
    refine ⟨⟨⟨by simpa using hStaged.1, ?_⟩, hExclusive, hOrderly.safe⟩, Settled.refl _⟩
    intro j call session' hCall hSession' hActive
    rcases getElem?_set_cases hSession' with ⟨rfl, rfl⟩ | ⟨-, hOld⟩
    · cases hActive
    · exact hStaged.2 j call session' hCall hOld hActive

theorem orderly_of_run {turns : List Turn} (hOrderly : Orderly adminMultisigWallets calls state)
    (hRun : RunsTo Isolation.step (Undisturbed calls) state turns state') :
    Orderly adminMultisigWallets calls state' ∧ Settled state.committed state'.committed := by
  refine RunsTo.invariant (I := fun s => Orderly adminMultisigWallets calls s ∧
    Settled state.committed s.committed) ?_ ?_ hRun
  · exact ⟨hOrderly, Settled.refl _⟩
  · rintro s turn t ⟨hBefore, hSettled⟩ hAllowed hStep
    rcases orderly_step hBefore hAllowed hStep with ⟨hAfter, hKept⟩
    exact ⟨hAfter, hSettled.trans hKept⟩

end

-- Multi-Signature Safety
----

/-
  In every state of an undisturbed run, executed proposals have
  at least their threshold of signatures, and pending ones have
  fewer.  A proposal that is no longer pending keeps its status
  in every later state, so that no executed one was rejected
  before.
-/
theorem multisig_safe {adminMultisigWallets : Option String} {calls : List MultisigCall}
    {db : MultisigDb} {turns later : List Turn} {state state' : MultisigPool} (hSafe : Safe db)
    (hRun : RunsTo Isolation.step (Undisturbed calls)
      (multisigPool adminMultisigWallets calls db) turns state)
    (hLater : RunsTo Isolation.step (Undisturbed calls) state later state') :
    Safe state.committed ∧ Settled state.committed state'.committed := by
  have hOrderly := (orderly_of_run (orderly_start hSafe) hRun).1
  exact ⟨hOrderly.safe, (orderly_of_run hOrderly hLater).2⟩

/- An open proposal. -/
def openProposal (threshold : Int) : MultisigDb where
  multisigProposal :=
    .create .empty
      { proposalId := "msig-1", status := .pending,
        threshold, executedAt := none, rejectedAt := none,
        rejectedBy := none, rejectionReason := none } rfl
  multisigSignature := .empty

def sampleProposals : MultisigDb := openProposal 2

def sampleSignature (last : Char) : MultisigCall :=
  .sign 0
    { proposalId := "msig-1"
      signer := String.ofList ('G' :: List.replicate 54 'A' ++ [last]) }

theorem openProposal_safe {threshold : Int} (hPos : 0 < threshold) :
    Safe (openProposal threshold) := by
  have hRow : ∀ p proposal, (openProposal threshold).multisigProposal.find? p = some proposal →
      proposal.status = .pending ∧ proposal.threshold = threshold := by
    intro p proposal hFound
    rcases List.mem_singleton.mp (Table.mem_of_find? hFound) with rfl
    exact ⟨rfl, rfl⟩
  constructor
  · intro p proposal hFound hExecuted
    rw [(hRow p proposal hFound).1] at hExecuted
    cases hExecuted
  · intro p proposal hFound _
    rw [(hRow p proposal hFound).2]
    exact hPos

/- Both signers count the signatures before either commits. -/
def racingSignatures : List Turn :=
  [.execute 0, .execute 0, .execute 1, .execute 1, .execute 0, .commit 0, .execute 1, .commit 1]

/- Two signatures of three overlap; the third executes the proposal. -/
theorem multisig_safe_sample :
    let calls := ['A', 'B', 'C'].map sampleSignature
    ∃ state state', RunsTo Isolation.step (Undisturbed calls)
      (multisigPool none calls (openProposal 3)) racingSignatures state ∧
      RunsTo Isolation.step (Undisturbed calls) state
        (List.replicate 4 (.execute 2) ++ [.commit 2]) state' ∧
      (state'.committed.multisigProposal.find? "msig-1").map MultisigProposal.status =
        some .executed ∧
      Safe state.committed ∧ Settled state.committed state'.committed := by
  intro calls
  have hRun : ((runAllowed Isolation.step (Undisturbed calls)
      (multisigPool none calls (openProposal 3)) racingSignatures).bind fun state =>
        (runAllowed Isolation.step (Undisturbed calls) state
          (List.replicate 4 (.execute 2) ++ [.commit 2])).bind fun state' =>
        (state'.committed.multisigProposal.find? "msig-1").map MultisigProposal.status) =
      some .executed := by decide +kernel
  rcases Option.bind_eq_some_iff.mp hRun with ⟨state, hState, hRest⟩
  rcases Option.bind_eq_some_iff.mp hRest with ⟨state', hState', hStatus⟩
  have hFirst := runsTo_of_runAllowed hState
  have hLater := runsTo_of_runAllowed hState'
  exact ⟨state, state', hFirst, hLater, hStatus,
    multisig_safe (openProposal_safe (by decide)) hFirst hLater⟩

/- Both have returned, and the proposal is left pending. -/
theorem racing_signatures_left_pending :
    ∃ state proposal, RunsTo Isolation.step (fun _ _ => True) (multisigPool none
      [sampleSignature 'A', sampleSignature 'B'] sampleProposals) racingSignatures state ∧
      (∀ session ∈ state.sessions, session.phase = .committed) ∧
      state.committed.multisigProposal.find? "msig-1" = some proposal ∧ proposal.status = .pending ∧
      proposal.threshold ≤ state.committed.approvals "msig-1" := by
  have hRun :
      (runLabels Isolation.step (multisigPool none [sampleSignature 'A', sampleSignature 'B']
        sampleProposals) racingSignatures).bind (fun state =>
          (state.committed.multisigProposal.find? "msig-1").map (fun proposal =>
            (state.sessions.all (fun session => session.phase = .committed),
              proposal.status, proposal.threshold, state.committed.approvals "msig-1"))) =
        some (true, .pending, 2, 2) := by decide
  rcases Option.bind_eq_some_iff.mp hRun with ⟨state, hState, hFinal⟩
  rcases Option.map_eq_some_iff.mp hFinal with ⟨proposal, hRow, hValues⟩
  simp only [Prod.mk.injEq, List.all_eq_true, decide_eq_true_eq] at hValues
  rcases hValues with ⟨hEnded, hStatus, hThreshold, hCount⟩
  exact ⟨state, proposal, runsTo_of_runLabels hState, hEnded, hRow,
    hStatus, by rw [hThreshold, hCount]⟩

end Admin

end AccessLayer
