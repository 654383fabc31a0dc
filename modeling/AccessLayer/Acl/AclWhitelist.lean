import AccessLayer.Contracts.ContractTransactions
import AccessLayer.Middlewares.IdempotencyScopes
import AccessLayer.Middlewares.StellarSignature

/-
  The whitelist of contracts and the approvals of its changes
  (`src/modules/acl`, `prisma/schema/acl.prisma`).

  A change is approved by the signatures of two admin wallets,
  which are over the action, the contract and its functions.  The
  statements of the calls interleave.  The listings, the dates
  and the logs are left out.

  Main result: `accepted_mutations_approved`
-/

-- Schemas
----

namespace AccessLayer

namespace Acl

open Transactional Middlewares

/- The pattern of a key that is written in base 32. -/
def isStrKey (first : Char) (text : String) : Bool :=
  text.toList.head? = some first ∧ text.toList.tail.length = 55 ∧ text.toList.tail.all isBase32

/- The messages of the checks of a field that fail. -/
def fieldIssues (field : String) (checks : List (Bool × String)) : List (String × String) :=
  (checks.filter fun check => !check.1).map fun check => (field, check.2)

/- What is wrong with the elements of an array. -/
def elementIssues {α : Type} (field : String) (schema : String → α → List (String × String))
    (items : List α) : List (String × String) :=
  items.zipIdx.flatMap fun item => schema (field ++ "." ++ toString item.2) item.1

def ContractAddressSchema (field text : String) : List (String × String) :=
  fieldIssues field [(utf16Length text = 56, "Contract address must be exactly 56 characters long"),
    (isStrKey 'C' text, "Invalid contract address format (must start with 'C' " ++
      "and use Base32 characters)")]

def ACL_MAX_FUNCTIONS : ℕ := 50

def isNameStart (c : Char) : Bool := ('a' ≤ c ∧ c ≤ 'z') ∨ ('A' ≤ c ∧ c ≤ 'Z') ∨ c = '_'

def isNameChar (c : Char) : Bool := isNameStart c ∨ ('0' ≤ c ∧ c ≤ '9')

def isFunctionName (text : String) : Bool :=
  text.toList.head?.any isNameStart ∧ text.toList.tail.all isNameChar

def FunctionNameSchema (field text : String) : List (String × String) :=
  fieldIssues field [(1 ≤ utf16Length text, "Function name is required"), (utf16Length text ≤ 64,
    "Function name must be at most 64 characters"), (isFunctionName text,
    "Function name must be alphanumeric/underscore and " ++ "cannot start with a digit")]

structure AclSignature where
  wallet : String
  signature : String
  deriving DecidableEq

def AclSignatureSchema (field : String) (signature : AclSignature) : List (String × String) :=
  fieldIssues (field ++ ".wallet") [(utf16Length signature.wallet = 56,
    "Signer wallet must be exactly 56 characters long"), (isStrKey 'G' signature.wallet,
    "Invalid signer wallet address format")] ++ fieldIssues (field ++ ".signature")
    [(1 ≤ utf16Length signature.signature, "Signature is required")]

def signaturesIssues (signatures : List AclSignature) : List (String × String) :=
  fieldIssues "signatures" [(1 ≤ signatures.length, "At least one admin signature is required")] ++
    elementIssues "signatures" AclSignatureSchema signatures

structure AddAclEntryBody where
  contractAddress : String
  permittedFunctions : List String
  signatures : List AclSignature

def functionsIssues (functions : List String) : List (String × String) :=
  fieldIssues "permittedFunctions" [(1 ≤ functions.length,
    "At least one permitted function is required"), (functions.length ≤ ACL_MAX_FUNCTIONS,
    "At most " ++ toString ACL_MAX_FUNCTIONS ++
      " functions can be whitelisted per contract")] ++
    elementIssues "permittedFunctions" FunctionNameSchema functions

/- The body as it is used, or what is wrong with it. -/
def AddAclEntryBodySchema (body : AddAclEntryBody) :
    Except (List (String × String)) AddAclEntryBody :=
  let issues :=
    ContractAddressSchema "contractAddress" body.contractAddress ++
      functionsIssues body.permittedFunctions ++ signaturesIssues body.signatures
  if issues = [] then
    .ok { body with
        permittedFunctions := body.permittedFunctions.eraseDups }
  else .error issues

def RemoveAclEntryParamsSchema (contractId : String) : List (String × String) :=
  fieldIssues "contractId" [(1 ≤ utf16Length contractId, "contractId is required")]

-- Approvals
----

def ACL_MULTISIG_THRESHOLD : ℕ := 2

def ACL_MULTISIG_SET_SIZE : ℕ := 3

inductive AclAction where
  | add
  | remove
  deriving DecidableEq

def AclAction.text : AclAction → String
  | .add => "add"
  | .remove => "remove"

/- What the admins sign, before it is hashed. -/
def aclPayload (action : AclAction) (contractAddress : String)
    (permittedFunctions : List String) : List Char :=
  let sortedFunctions :=
    [','].intercalate ((permittedFunctions.insertionSort (· ≤ ·)).map String.toList)
  "acl:".toList ++ action.text.toList ++ ':' :: (contractAddress.toList ++ ':' :: sortedFunctions)

def buildAclCanonicalMessage (env : SignatureEnv) (action : AclAction) (contractAddress : String)
    (permittedFunctions : List String) : List UInt8 :=
  env.sha256 (Utf8.encode (aclPayload action contractAddress permittedFunctions))

def toLowerCase (text : String) : String := String.ofList (text.toList.flatMap Contracts.lowerCase)

def parseMultisigAdminWallets (raw : Option String) : List String :=
  ((((raw.getD "").toList.splitOn ',').map Governance.trimChars).filter fun wallet =>
    0 < wallet.length).map String.ofList

def adminSet (raw : Option String) : List String :=
  ((parseMultisigAdminWallets raw).map toLowerCase).eraseDups

/- A wallet that is no key makes the check throw. -/
def isVerified (env : SignatureEnv) (wallet : String) (message : List UInt8)
    (signature : String) : Bool :=
  let signatureBuffer := Base64.decode signature.toList
  signatureBuffer.length = 64 ∧ env.verify wallet message signatureBuffer = some true

/- The wallets that have signed, or what is wrong. -/
def verifyEach (env : SignatureEnv) (admins : List String) (message : List UInt8) :
    List AclSignature → List String → List String → Except String (List String)
  | [], _, validWallets => .ok validWallets
  | { wallet, signature } :: rest, seen, validWallets =>
    let normalized := Governance.trim wallet
    let lower := toLowerCase normalized
    if lower ∈ seen then
      verifyEach env admins message rest seen validWallets
    else if isStrKey 'G' normalized = false then
      .error ("Invalid admin wallet address: " ++ normalized)
    else if 0 < admins.length ∧ lower ∉ admins then
      .error ("Signer " ++ normalized ++ " is not a configured admin")
    else if isVerified env normalized message signature = false then
      .error ("Invalid admin signature from " ++ normalized)
    else
      verifyEach env admins message rest (lower :: seen) (validWallets ++ [normalized])

def verifyAclSignatures (env : SignatureEnv) (raw : Option String) (action : AclAction)
    (contractAddress : String) (permittedFunctions : List String) (signatures : List AclSignature) :
    Except String (List String) :=
  let message := buildAclCanonicalMessage env action contractAddress permittedFunctions
  let admins := adminSet raw
  match verifyEach env admins message signatures [] [] with
  | .error message => .error message
  | .ok validWallets =>
    if 0 < admins.length ∧ admins.length ≠ ACL_MULTISIG_SET_SIZE then
      .error ("ADMIN_MULTISIG_WALLETS must contain exactly " ++
        toString ACL_MULTISIG_SET_SIZE ++ " wallets (got " ++ toString admins.length ++ ")")
    else if validWallets.length < ACL_MULTISIG_THRESHOLD then
      .error ("ACL mutations require " ++ toString ACL_MULTISIG_THRESHOLD ++ " of " ++ toString
        (if admins.length = 0 then ACL_MULTISIG_SET_SIZE
          else admins.length) ++ " admin signatures; got " ++ toString validWallets.length)
    else .ok validWallets

-- The Service
----

structure AclWhitelist where
  id : String
  contractAddress : String
  permittedFunctions : List String
  addedBy : String

instance : Keyed AclWhitelist String := ⟨AclWhitelist.contractAddress⟩

inductive AclEventType where
  | added
  | removed
  deriving DecidableEq

def AclEventType.action : AclEventType → AclAction
  | .added => .add
  | .removed => .remove

structure AclEvent where
  eventType : AclEventType
  contractAddress : String
  permittedFunctions : List String
  actor : String
  signers : List String
  deriving DecidableEq

/- An event, with the signatures of the request. -/
structure AclMutation extends AclEvent where
  signatures : List AclSignature
  deriving DecidableEq

structure AclAuditEntry where
  actorWallet : String
  actionType : String
  targetId : String
  contractAddress : String
  permittedFunctions : List String
  signers : List String

/- `ids` are the ids that `cuid` has given to rows. -/
structure AclStore where
  aclWhitelist : Table AclWhitelist
  ids : List String
  mutations : List AclMutation
  auditLog : List AclAuditEntry

def AclStore.empty : AclStore where
  aclWhitelist := .empty
  ids := []
  mutations := []
  auditLog := []

inductive AclError where
  | invalidBody (issues : List (String × String))
  | invalidParams (issues : List (String × String))
  | multisigVerification (message : String)
  | entryAlreadyExists (contractAddress : String)
  | entryNotFound (contractId : String)
  | internal

namespace AclError

def status : AclError → ℕ
  | invalidBody _ | invalidParams _ => 400
  | multisigVerification _ => 403
  | entryNotFound _ => 404
  | entryAlreadyExists _ => 409
  | internal => 500

/- An internal error is left to the next handler. -/
def message : AclError → Option String
  | invalidBody _ => some "Invalid request body"
  | invalidParams _ => some "Invalid path parameters"
  | multisigVerification message => some message
  | entryAlreadyExists contractAddress =>
    some ("Contract is already whitelisted: " ++ contractAddress)
  | entryNotFound _ => some "Whitelist entry not found"
  | internal => none

end AclError

structure AddAclEntryInput where
  contractAddress : String
  permittedFunctions : List String
  signatures : List AclSignature
  actor : String

structure RemoveAclEntryInput where
  contractId : String
  signatures : List AclSignature
  actor : String

/- A call, by the statement that it awaits. -/
inductive AclCall where
  | finding (input : AddAclEntryInput) (validWallets : List String) (newId : String)
  | creating (input : AddAclEntryInput) (validWallets : List String) (newId : String)
  | locating (input : RemoveAclEntryInput)
  | deleting (input : RemoveAclEntryInput) (existing : AclWhitelist) (validWallets : List String)
  | auditing (audit : AclAuditEntry) (entry : AclWhitelist)
  | answered (reply : Except AclError AclWhitelist)

/- The id is the one that `cuid` will give to the row. -/
def addAclEntry (env : SignatureEnv) (raw : Option String) (input : AddAclEntryInput)
    (newId : String) : AclCall :=
  match verifyAclSignatures env raw .add input.contractAddress
    input.permittedFunctions input.signatures with
  | .error message => .answered (.error (.multisigVerification message))
  | .ok validWallets => .finding input validWallets newId

def removeAclEntry (input : RemoveAclEntryInput) : AclCall := .locating input

/-
  The transaction that creates the entry, unless its contract
  has one.  An id is not given twice.
-/
def AclStore.create (store : AclStore) (entry : AclWhitelist)
    (mutation : AclMutation) : Option AclStore :=
  if entry.id ∈ store.ids then none
  else
    (store.aclWhitelist.insert? entry).map fun aclWhitelist => { store with
        aclWhitelist
        ids := entry.id :: store.ids
        mutations := store.mutations ++ [mutation] }

/- The transaction that deletes an entry, if it is there. -/
def AclStore.delete (store : AclStore) (id : String) (mutation : AclMutation) : Option AclStore :=
  if store.aclWhitelist.rows.any (·.id = id) then
    some { store with
        aclWhitelist := store.aclWhitelist.deleteMany (·.id = id)
        mutations := store.mutations ++ [mutation] }
  else none

def AddAclEntryInput.mutation (input : AddAclEntryInput)
    (validWallets : List String) : AclMutation where
  eventType := .added
  contractAddress := input.contractAddress
  permittedFunctions := input.permittedFunctions
  actor := input.actor
  signers := validWallets
  signatures := input.signatures

def AddAclEntryInput.entry (input : AddAclEntryInput) (newId : String) : AclWhitelist where
  id := newId
  contractAddress := input.contractAddress
  permittedFunctions := input.permittedFunctions
  addedBy := input.actor

def RemoveAclEntryInput.mutation (input : RemoveAclEntryInput) (existing : AclWhitelist)
    (validWallets : List String) : AclMutation where
  eventType := .removed
  contractAddress := existing.contractAddress
  permittedFunctions := existing.permittedFunctions
  actor := input.actor
  signers := validWallets
  signatures := input.signatures

def AclMutation.audit (mutation : AclMutation) (targetId : String) : AclAuditEntry where
  actorWallet := mutation.actor
  actionType :=
    match mutation.eventType with
    | .added => "acl_contract_added"
    | .removed => "acl_contract_removed"
  targetId := targetId
  contractAddress := mutation.contractAddress
  permittedFunctions := mutation.permittedFunctions
  signers := mutation.signers

def executeAcl (env : SignatureEnv) (raw : Option String) :
    AclCall → AclStore → Option (AclStore × AclCall)
  | .finding input validWallets newId, store =>
    match store.aclWhitelist.find? input.contractAddress with
    | some _ => some (store, .answered (.error (.entryAlreadyExists input.contractAddress)))
    | none => some (store, .creating input validWallets newId)
  | .creating input validWallets newId, store =>
    let mutation := input.mutation validWallets
    let entry := input.entry newId
    match store.create entry mutation with
    | some store => some (store, .auditing (mutation.audit newId) entry)
    | none => some (store, .answered (.error .internal))
  | .locating input, store =>
    match store.aclWhitelist.rows.find? fun row => row.id = input.contractId ∨
      row.contractAddress = input.contractId with
    | none => some (store, .answered (.error (.entryNotFound input.contractId)))
    | some existing =>
      match verifyAclSignatures env raw .remove existing.contractAddress existing.permittedFunctions
        input.signatures with
      | .error message => some (store, .answered (.error (.multisigVerification message)))
      | .ok validWallets => some (store, .deleting input existing validWallets)
  | .deleting input existing validWallets, store =>
    let mutation := input.mutation existing validWallets
    match store.delete existing.id mutation with
    | some store => some (store, .auditing (mutation.audit existing.id) existing)
    | none => some (store, .answered (.error .internal))
  | .auditing audit entry, store =>
    some ({ store with auditLog := store.auditLog ++ [audit] }, .answered (.ok entry))
  | .answered _, _ => none

/- An audit entry that cannot be written does not matter. -/
def failAcl : AclCall → AclCall
  | .auditing _ entry => .answered (.ok entry)
  | .answered reply => .answered reply
  | _ => .answered (.error .internal)

def aclService (env : SignatureEnv) (raw : Option String) : Machine AclStore AclCall where
  execute := executeAcl env raw
  fail := failAcl

/- A request of an admin. -/
inductive AclRequest where
  | add (adminId : Option String) (body : AddAclEntryBody) (newId : String)
  | remove (adminId : Option String) (contractId : String) (signatures : List AclSignature)

def actorOf (adminId : Option String) : String := (adminId.filter (· ≠ "")).getD "unknown"

def httpAddAcl (env : SignatureEnv) (raw : Option String) (adminId : Option String)
    (body : AddAclEntryBody) (newId : String) : AclCall :=
  match AddAclEntryBodySchema body with
  | .error issues => .answered (.error (.invalidBody issues))
  | .ok data =>
    addAclEntry env raw
      { contractAddress := data.contractAddress
        permittedFunctions := data.permittedFunctions
        signatures := data.signatures
        actor := actorOf adminId } newId

def httpRemoveAcl (adminId : Option String) (contractId : String)
    (signatures : List AclSignature) : AclCall :=
  if RemoveAclEntryParamsSchema contractId ≠ [] then
    .answered (.error (.invalidParams (RemoveAclEntryParamsSchema contractId)))
  else if signaturesIssues signatures ≠ [] then
    .answered (.error (.invalidBody (signaturesIssues signatures)))
  else
    removeAclEntry { contractId, signatures, actor := actorOf adminId }

def AclRequest.begin (env : SignatureEnv) (raw : Option String) : AclRequest → AclCall
  | .add adminId body newId => httpAddAcl env raw adminId body newId
  | .remove adminId contractId signatures => httpRemoveAcl adminId contractId signatures

-- What Is Signed
----

/- What the schema leaves of a contract and its functions. -/
structure WellFormed (contractAddress : String) (permittedFunctions : List String) : Prop where
  contract : isStrKey 'C' contractAddress = true
  functions : ∀ f ∈ permittedFunctions, isFunctionName f = true
  nonempty : permittedFunctions ≠ []

theorem fieldIssues_eq_nil {field : String} {checks : List (Bool × String)} :
    fieldIssues field checks = [] ↔ ∀ check ∈ checks, check.1 = true := by
  simp [fieldIssues]

theorem elementIssues_eq_nil {α : Type} {field : String}
    {schema : String → α → List (String × String)} {items : List α}
    (hNone : elementIssues field schema items = []) :
    ∀ item ∈ items, ∃ field, schema field item = [] := by
  intro item hItem
  rw [elementIssues, List.flatMap_eq_nil_iff] at hNone
  rcases List.mem_iff_getElem?.mp hItem with ⟨i, hi⟩
  exact ⟨_, hNone (item, i) (List.mem_zipIdx_iff_getElem?.mpr hi)⟩

theorem wellFormed_of_schema {body data : AddAclEntryBody}
    (hBody : AddAclEntryBodySchema body = .ok data) :
    WellFormed data.contractAddress data.permittedFunctions := by
  unfold AddAclEntryBodySchema at hBody
  dsimp only at hBody
  split at hBody
  · rename_i hNone
    cases hBody
    rw [List.append_eq_nil_iff, List.append_eq_nil_iff] at hNone
    rcases hNone with ⟨⟨hContract, hFunctions⟩, -⟩
    rw [functionsIssues, List.append_eq_nil_iff] at hFunctions
    rcases hFunctions with ⟨hCount, hNames⟩
    refine ⟨?_, fun f hf => ?_, fun hEmpty => ?_⟩
    · exact fieldIssues_eq_nil.mp hContract _ (.tail _ (.head _))
    · rcases elementIssues_eq_nil hNames f (List.mem_eraseDups.mp hf) with ⟨field, hName⟩
      exact fieldIssues_eq_nil.mp hName _ (.tail _ (.tail _ (.head _)))
    · have hSome : decide (1 ≤ body.permittedFunctions.length) = true :=
        fieldIssues_eq_nil.mp hCount _ (.head _)
      have hMem : ∃ f, f ∈ body.permittedFunctions :=
        List.exists_mem_of_length_pos (of_decide_eq_true hSome)
      rcases hMem with ⟨f, hf⟩
      have hErased := List.mem_eraseDups.mpr hf
      simp only at hEmpty
      rw [hEmpty] at hErased
      cases hErased
  · cases hBody

theorem length_of_isStrKey {first : Char} {text : String} (hKey : isStrKey first text = true) :
    text.toList.length = 56 := by
  have hParts := of_decide_eq_true hKey
  rcases hParts with ⟨hHead, hTail, -⟩
  cases hText : text.toList with
  | nil =>
    rw [hText] at hHead
    cases hHead
  | cons c rest =>
    rw [hText] at hTail
    simpa using hTail

theorem comma_not_mem_of_isFunctionName {f : String} (hName : isFunctionName f = true) :
    ',' ∉ f.toList := by
  intro hMem
  rcases of_decide_eq_true hName with ⟨hHead, hTail⟩
  cases hText : f.toList with
  | nil =>
    rw [hText] at hMem
    cases hMem
  | cons c rest =>
    rw [hText] at hHead hTail hMem
    rcases List.mem_cons.mp hMem with hFirst | hRest
    · subst hFirst
      exact absurd hHead (show ¬isNameStart ',' = true by decide)
    · exact absurd (List.all_eq_true.mp hTail ',' hRest) (by decide)

theorem perm_of_sorted_text {functions functions' : List String}
    (hNames : ∀ f ∈ functions, isFunctionName f = true)
    (hNames' : ∀ f ∈ functions', isFunctionName f = true) (hSome : functions ≠ [])
    (hSome' : functions' ≠ []) (hText :
      [','].intercalate ((functions.insertionSort (· ≤ ·)).map String.toList) = [','].intercalate
        ((functions'.insertionSort (· ≤ ·)).map String.toList)) :
    functions.Perm functions' := by
  have hSplit : ∀ {names : List String}, (∀ f ∈ names, isFunctionName f = true) → names ≠ [] →
      ([','].intercalate ((names.insertionSort (· ≤ ·)).map String.toList)).splitOn ',' =
        (names.insertionSort (· ≤ ·)).map String.toList := by
    intro names hValid hNonempty
    apply List.splitOn_intercalate
    · intro text hMem
      rcases List.mem_map.mp hMem with ⟨f, hf, rfl⟩
      exact comma_not_mem_of_isFunctionName (hValid f ((List.mem_insertionSort _).mp hf))
    · intro hNil
      apply hNonempty
      have hSorted := List.map_eq_nil_iff.mp hNil
      have hPerm := List.perm_insertionSort (· ≤ ·) names
      rw [hSorted] at hPerm
      exact hPerm.nil_eq.symm
  have hLists := congrArg (List.splitOn ',') hText
  rw [hSplit hNames hSome, hSplit hNames' hSome'] at hLists
  have hSorted := List.map_injective_iff.mpr (fun _ _ hSame => String.toList_injective hSame) hLists
  exact (List.perm_insertionSort (· ≤ ·) functions).symm.trans
    (hSorted ▸ List.perm_insertionSort (· ≤ ·) functions')

theorem aclPayload_inj {action action' : AclAction} {contractAddress contractAddress' : String}
    {functions functions' : List String} (hForm : WellFormed contractAddress functions)
    (hForm' : WellFormed contractAddress' functions')
    (hSame : aclPayload action contractAddress functions =
      aclPayload action' contractAddress' functions') :
    action = action' ∧ contractAddress = contractAddress' ∧ functions.Perm functions' := by
  have hAction : action = action' := by
    cases action <;> cases action' <;> simp [aclPayload, AclAction.text] at hSame ⊢
  subst hAction
  refine ⟨rfl, ?_⟩
  have hRest := List.append_cancel_left hSame
  rcases List.append_inj (List.cons.inj hRest).2 ((length_of_isStrKey hForm.contract).trans
    (length_of_isStrKey hForm'.contract).symm) with ⟨hContract, hText⟩
  exact ⟨String.toList_injective hContract, perm_of_sorted_text hForm.functions hForm'.functions
    hForm.nonempty hForm'.nonempty (List.cons.inj hText).2⟩

-- Who Has Signed
----

variable {env : SignatureEnv} {raw : Option String}

/- Some signature of the wallet is valid. -/
def HasSigned (env : SignatureEnv) (message : List UInt8) (signatures : List AclSignature)
    (wallet : String) : Prop :=
  ∃ signature ∈ signatures, Governance.trim signature.wallet = wallet ∧
    isVerified env wallet message signature.signature = true

structure Verified (env : SignatureEnv) (admins : List String) (message : List UInt8)
    (signatures : List AclSignature) (validWallets : List String) : Prop where
  distinct : (validWallets.map toLowerCase).Nodup
  admin : 0 < admins.length → ∀ wallet ∈ validWallets, toLowerCase wallet ∈ admins
  signed : ∀ wallet ∈ validWallets, HasSigned env message signatures wallet

theorem verified_of_verifyEach {admins : List String} {message : List UInt8}
    {signatures : List AclSignature} {validWallets : List String}
    (hEach : verifyEach env admins message signatures [] [] = .ok validWallets) :
    Verified env admins message signatures validWallets := by
  -- the part `rest` is still to be checked
  suffices hRest :
      ∀ (rest : List AclSignature) (seen wallets : List String), rest ⊆ signatures → (∀ lower,
        lower ∈ seen ↔ lower ∈ wallets.map toLowerCase) →
        Verified env admins message signatures wallets →
        verifyEach env admins message rest seen wallets = .ok validWallets →
        Verified env admins message signatures validWallets by
    refine hRest signatures [] [] (fun _ h => h) (by simp) ?_ hEach
    exact ⟨List.nodup_nil, fun _ _ h => absurd h List.not_mem_nil,
      fun _ h => absurd h List.not_mem_nil⟩
  intro rest
  induction rest with
  | nil =>
    intro seen wallets _ _ hVerified hDone
    cases hDone
    exact hVerified
  | cons first rest ih =>
    intro seen wallets hSub hSeen hVerified hNext
    have hSubRest := (List.cons_subset.mp hSub).2
    simp only [verifyEach] at hNext
    split at hNext
    · exact ih seen wallets hSubRest hSeen hVerified hNext
    · rename_i hNew
      split at hNext
      · cases hNext
      · split at hNext
        · cases hNext
        · rename_i hAdmin
          split at hNext
          · cases hNext
          · rename_i hValid
            have hNotSeen : toLowerCase (Governance.trim first.wallet) ∉ wallets.map toLowerCase :=
              fun h => hNew ((hSeen _).mpr h)
            refine ih _ _ hSubRest ?_ ?_ hNext
            · intro lower
              rw [List.mem_cons, hSeen, List.map_append, List.mem_append, or_comm]
              simp
            · constructor
              · rw [List.map_append, List.map_singleton]
                refine List.Nodup.append hVerified.distinct (List.nodup_singleton _) ?_
                exact List.disjoint_singleton.mpr hNotSeen
              · intro hSome wallet hWallet
                rcases List.mem_append.mp hWallet with hOld | hLast
                · exact hVerified.admin hSome wallet hOld
                · cases List.mem_singleton.mp hLast
                  exact not_not.mp fun h => hAdmin ⟨hSome, h⟩
              · intro wallet hWallet
                rcases List.mem_append.mp hWallet with hOld | hLast
                · exact hVerified.signed wallet hOld
                · cases List.mem_singleton.mp hLast
                  exact ⟨first, hSub List.mem_cons_self, rfl, (Bool.not_eq_false _).mp hValid⟩

/- Signatures that are accepted are those of a quorum. -/
theorem verifyAclSignatures_ok {action : AclAction} {contractAddress : String}
    {functions : List String} {signatures : List AclSignature} {validWallets : List String}
    (hVerify :
      verifyAclSignatures env raw action contractAddress functions signatures = .ok validWallets) :
    Verified env (adminSet raw) (buildAclCanonicalMessage env action contractAddress functions)
      signatures validWallets ∧
      ACL_MULTISIG_THRESHOLD ≤ validWallets.length := by
  simp only [verifyAclSignatures] at hVerify
  split at hVerify
  · cases hVerify
  · rename_i wallets hEach
    split at hVerify
    · cases hVerify
    · split at hVerify
      · cases hVerify
      · rename_i hEnough
        cases hVerify
        exact ⟨verified_of_verifyEach hEach, not_lt.mp hEnough⟩

/- A valid signature in the name of an admin, as it is written. -/
def SignedBy (env : SignatureEnv) (admins : List String) (message : List UInt8)
    (signature : AclSignature) : Prop :=
  Governance.trim signature.wallet = signature.wallet ∧ isStrKey 'G' signature.wallet = true ∧
    toLowerCase signature.wallet ∈ admins ∧
    isVerified env signature.wallet message signature.signature = true

theorem verifyEach_signed {admins : List String} {message : List UInt8}
    {signatures : List AclSignature} {seen validWallets : List String}
    (hSigned : ∀ signature ∈ signatures, SignedBy env admins message signature)
    (hApart : (seen.reverse ++ signatures.map fun s => toLowerCase s.wallet).Nodup) :
    verifyEach env admins message signatures seen validWallets =
      .ok (validWallets ++ signatures.map (·.wallet)) := by
  induction signatures generalizing seen validWallets with
  | nil => simp [verifyEach]
  | cons first rest ih =>
    rcases List.forall_mem_cons.mp hSigned with ⟨⟨hTrim, hKey, hAdmin, hValid⟩, hRest⟩
    have hNew : toLowerCase first.wallet ∉ seen := by
      intro hSeen
      exact (List.nodup_append.mp hApart).2.2 _ (List.mem_reverse.mpr hSeen) _
        List.mem_cons_self rfl
    simp only [verifyEach, hTrim, if_neg hNew, hKey, hAdmin, hValid, not_true, and_false, if_false,
      Bool.true_eq_false]
    rw [ih hRest (by simpa using hApart), List.append_assoc]
    rfl

theorem verifyAclSignatures_signed {action : AclAction} {contractAddress : String}
    {functions : List String} {signatures : List AclSignature}
    (hAdmins : (adminSet raw).length = ACL_MULTISIG_SET_SIZE)
    (hEnough : ACL_MULTISIG_THRESHOLD ≤ signatures.length)
    (hSigned : ∀ signature ∈ signatures, SignedBy env (adminSet raw)
      (buildAclCanonicalMessage env action contractAddress functions) signature)
    (hApart : (signatures.map fun s => toLowerCase s.wallet).Nodup) :
    verifyAclSignatures env raw action contractAddress functions signatures =
      .ok (signatures.map (·.wallet)) := by
  have hEach := @verifyEach_signed env _ _ _ [] [] hSigned hApart
  simp only [verifyAclSignatures, hEach, List.nil_append]
  rw [if_neg fun h => h.2 hAdmins, if_neg (by simpa using hEnough)]

-- Mutations
----

def AclMutation.action (mutation : AclMutation) : AclAction := mutation.eventType.action

/- A well-formed mutation with the signers it has verified. -/
structure Accepted (env : SignatureEnv) (raw : Option String) (mutation : AclMutation) : Prop where
  form : WellFormed mutation.contractAddress mutation.permittedFunctions
  verified :
    verifyAclSignatures env raw mutation.action mutation.contractAddress mutation.permittedFunctions
      mutation.signatures = .ok mutation.signers

/- In between, the contract is mutated the other way. -/
def Reverted (mutations : List AclMutation) (i : ℕ) (mutation : AclMutation) (before : ℕ) : Prop :=
  ∃ k between, i < k ∧ k < before ∧ mutations[k]? = some between ∧
    between.contractAddress = mutation.contractAddress ∧ between.action ≠ mutation.action

def Listed (store : AclStore) (contractAddress : String) : Prop :=
  ∃ row ∈ store.aclWhitelist.rows, row.contractAddress = contractAddress

/-
  A mutation still shows in the whitelist or has been reverted,
  and it is reverted before it is made again.
-/
structure Kept (env : SignatureEnv) (raw : Option String) (store : AclStore) : Prop where
  form : ∀ row ∈ store.aclWhitelist.rows, WellFormed row.contractAddress row.permittedFunctions
  given : ∀ row ∈ store.aclWhitelist.rows, row.id ∈ store.ids
  identified :
    ∀ row ∈ store.aclWhitelist.rows, ∀ row' ∈ store.aclWhitelist.rows, row.id = row'.id → row = row'
  accepted : ∀ mutation ∈ store.mutations, Accepted env raw mutation
  shown : ∀ i mutation, store.mutations[i]? = some mutation → (mutation.action = .add ↔
    Listed store mutation.contractAddress) ∨
    Reverted store.mutations i mutation store.mutations.length
  alternating : ∀ i j first second, i < j → store.mutations[i]? = some first →
    store.mutations[j]? = some second → first.contractAddress = second.contractAddress →
    first.action = second.action → Reverted store.mutations i first j

/- What is known of a call in the state of the store. -/
def KeptCall (env : SignatureEnv) (raw : Option String) (store : AclStore) : AclCall → Prop
  | .finding input validWallets _
  | .creating input validWallets _ => Accepted env raw (input.mutation validWallets)
  | .deleting input existing validWallets =>
    Accepted env raw (input.mutation existing validWallets) ∧ existing.id ∈ store.ids ∧
      ∀ row ∈ store.aclWhitelist.rows, row.id = existing.id → row = existing
  | _ => True

theorem kept_empty : Kept env raw .empty := by
  constructor <;> simp [AclStore.empty, Table.empty]

theorem Reverted.mono {mutations : List AclMutation} {i before after : ℕ} {mutation : AclMutation}
    (hReverted : Reverted mutations i mutation before) (hLe : before ≤ after)
    (later : List AclMutation) :
    Reverted (mutations ++ later) i mutation after := by
  rcases hReverted with ⟨k, between, hik, hkb, hk, hRest⟩
  exact ⟨k, between, hik, by omega, getElem?_extended (List.prefix_append _ _) hk, hRest⟩

/- A mutation that turns its contract from one state to the other keeps the history in order. -/
theorem Kept.append {store store' : AclStore} {mutation : AclMutation} (hKept : Kept env raw store)
    (hAccepted : Accepted env raw mutation)
    (hMutations : store'.mutations = store.mutations ++ [mutation])
    (hBefore : mutation.action = .add ↔ ¬Listed store mutation.contractAddress)
    (hAfter : mutation.action = .add ↔ Listed store' mutation.contractAddress)
    (hOther : ∀ contractAddress, contractAddress ≠ mutation.contractAddress →
      (Listed store' contractAddress ↔ Listed store contractAddress)) (hForm :
      ∀ row ∈ store'.aclWhitelist.rows, WellFormed row.contractAddress row.permittedFunctions)
    (hGiven : ∀ row ∈ store'.aclWhitelist.rows, row.id ∈ store'.ids)
    (hIdentified : ∀ row ∈ store'.aclWhitelist.rows, ∀ row' ∈ store'.aclWhitelist.rows,
      row.id = row'.id → row = row') :
    Kept env raw store' := by
  -- an older mutation that is made again no longer shows
  have hRevertedBefore : ∀ i older, store.mutations[i]? = some older →
      older.contractAddress = mutation.contractAddress → older.action = mutation.action →
        Reverted store.mutations i older
          store.mutations.length := by
    intro i older hOlder hContract hAction
    refine (hKept.shown i older hOlder).resolve_left fun hShown => ?_
    rw [hContract, hAction] at hShown
    exact iff_not_self (hShown.symm.trans hBefore)
  refine ⟨hForm, hGiven, hIdentified, ?_, ?_, ?_⟩
  · intro m hMem
    rw [hMutations] at hMem
    rcases List.mem_append.mp hMem with hOld | hLast
    · exact hKept.accepted m hOld
    · cases List.mem_singleton.mp hLast
      exact hAccepted
  · intro i m hm
    rw [hMutations] at hm ⊢
    rcases getElem?_concat_cases hm with hOld | ⟨rfl, hLast⟩
    · by_cases hContract : m.contractAddress = mutation.contractAddress
      · right
        by_cases hAction : m.action = mutation.action
        · exact (hRevertedBefore i m hOld hContract hAction).mono (by simp) _
        · refine ⟨store.mutations.length, mutation, (List.getElem?_eq_some_iff.mp hOld).1, by simp,
            by simp, hContract.symm, fun h => hAction h.symm⟩
      · rw [hOther _ hContract]
        exact (hKept.shown i m hOld).imp_right fun hReverted => hReverted.mono (by simp) _
    · left
      exact hLast ▸ hAfter
  · intro i j first second hij hi hj hContract hAction
    rw [hMutations] at hi hj ⊢
    rcases getElem?_concat_cases hj with hOld | ⟨rfl, rfl⟩
    · have hEarlier : i < store.mutations.length := hij.trans (List.getElem?_eq_some_iff.mp hOld).1
      rw [List.getElem?_append_left hEarlier] at hi
      exact (hKept.alternating i j first second hij hi hOld hContract hAction).mono le_rfl _
    · rw [List.getElem?_append_left hij] at hi
      exact (hRevertedBefore i first hi hContract hAction).mono le_rfl _

theorem KeptCall.change {store store' : AclStore} {call : AclCall}
    (hCall : KeptCall env raw store call) (hIds : store.ids ⊆ store'.ids)
    (hRows : ∀ row ∈ store'.aclWhitelist.rows, row ∈ store.aclWhitelist.rows ∨ row.id ∉ store.ids) :
    KeptCall env raw store' call := by
  cases call with
  | deleting input existing validWallets =>
    rcases hCall with ⟨hAccepted, hGiven, hSame⟩
    refine ⟨hAccepted, hIds hGiven, fun row hRow hId => ?_⟩
    rcases hRows row hRow with hOld | hNew
    · exact hSame row hOld hId
    · exact absurd (hId ▸ hGiven) hNew
  | finding input validWallets newId => exact hCall
  | creating input validWallets newId => exact hCall
  | locating input => trivial
  | auditing audit entry => trivial
  | answered reply => trivial

theorem Kept.create {store store' : AclStore} {input : AddAclEntryInput}
    {validWallets : List String} {newId : String} (hKept : Kept env raw store)
    (hAccepted : Accepted env raw (input.mutation validWallets))
    (hCreate : store.create (input.entry newId) (input.mutation validWallets) = some store') :
    Kept env raw store' ∧ ∀ call, KeptCall env raw store call → KeptCall env raw store' call := by
  unfold AclStore.create at hCreate
  split at hCreate
  · cases hCreate
  · rename_i hFresh
    rcases Option.map_eq_some_iff.mp hCreate with ⟨table, hInsert, rfl⟩
    rcases Table.insert?_eq_some hInsert with ⟨hNone, hRows⟩
    have hUnlisted : ¬Listed store input.contractAddress := by
      rintro ⟨row, hRow, hContract⟩
      exact Table.find?_eq_none_iff.mp hNone (List.mem_map.mpr ⟨row, hRow, hContract⟩)
    have hMem : ∀ row, row ∈ table.rows ↔ row ∈ store.aclWhitelist.rows ∨
        row = input.entry newId := by
      simp [hRows]
    have hOldId : ∀ row ∈ store.aclWhitelist.rows, row.id ≠ newId :=
      fun row hRow hId => hFresh (hId ▸ hKept.given row hRow)
    refine ⟨hKept.append hAccepted rfl ?_ ?_ ?_ ?_ ?_ ?_, ?_⟩
    · exact iff_of_true rfl hUnlisted
    · exact iff_of_true rfl ⟨input.entry newId, (hMem _).mpr (.inr rfl), rfl⟩
    · intro contractAddress hOther
      constructor
      · rintro ⟨row, hRow, hContract⟩
        rcases (hMem row).mp hRow with hOld | rfl
        · exact ⟨row, hOld, hContract⟩
        · exact absurd hContract.symm hOther
      · rintro ⟨row, hRow, hContract⟩
        exact ⟨row, (hMem row).mpr (.inl hRow), hContract⟩
    · intro row hRow
      rcases (hMem row).mp hRow with hOld | rfl
      · exact hKept.form row hOld
      · exact hAccepted.form
    · intro row hRow
      rcases (hMem row).mp hRow with hOld | rfl
      · exact List.mem_cons_of_mem _ (hKept.given row hOld)
      · exact List.mem_cons_self
    · intro row hRow row' hRow' hId
      rcases (hMem row).mp hRow with hOld | rfl <;> rcases (hMem row').mp hRow' with hOld' | rfl
      · exact hKept.identified row hOld row' hOld' hId
      · exact absurd hId (hOldId row hOld)
      · exact absurd hId.symm (hOldId row' hOld')
      · rfl
    · intro call hCall
      refine hCall.change (List.subset_cons_self _ _) ?_
      intro row hRow
      rcases (hMem row).mp hRow with hOld | rfl
      · exact .inl hOld
      · exact .inr hFresh

theorem Kept.delete {store store' : AclStore} {input : RemoveAclEntryInput}
    {existing : AclWhitelist} {validWallets : List String} (hKept : Kept env raw store)
    (hAccepted : Accepted env raw (input.mutation existing validWallets))
    (hSame : ∀ row ∈ store.aclWhitelist.rows, row.id = existing.id → row = existing)
    (hDelete : store.delete existing.id (input.mutation existing validWallets) = some store') :
    Kept env raw store' ∧ ∀ call, KeptCall env raw store call → KeptCall env raw store' call := by
  unfold AclStore.delete at hDelete
  split at hDelete
  · rename_i hAny
    cases hDelete
    rcases List.any_eq_true.mp hAny with ⟨row, hRow, hId⟩
    cases hSame row hRow (of_decide_eq_true hId)
    have hMem : ∀ other, other ∈ (store.aclWhitelist.deleteMany
        fun row => decide (row.id = existing.id)).rows ↔ other ∈ store.aclWhitelist.rows ∧
        other.id ≠ existing.id := by
      simp [Table.deleteMany]
    refine ⟨hKept.append hAccepted rfl ?_ ?_ ?_ ?_ ?_ ?_, ?_⟩
    · refine iff_of_false (by rintro ⟨⟩) (not_not.mpr ?_)
      exact ⟨existing, hRow, rfl⟩
    · refine iff_of_false (by rintro ⟨⟩) ?_
      rintro ⟨other, hOther, hContract⟩
      rcases (hMem other).mp hOther with ⟨hStored, hOtherId⟩
      apply hOtherId
      rw [List.inj_on_of_nodup_map store.aclWhitelist.unique hStored hRow hContract]
    · intro contractAddress hOther
      constructor
      · rintro ⟨row, hLeft, hContract⟩
        exact ⟨row, ((hMem row).mp hLeft).1, hContract⟩
      · rintro ⟨row, hStored, hContract⟩
        refine ⟨row, (hMem row).mpr ⟨hStored, fun hId => ?_⟩, hContract⟩
        rw [hSame row hStored hId] at hContract
        exact hOther hContract.symm
    · exact fun row hLeft => hKept.form row ((hMem row).mp hLeft).1
    · exact fun row hLeft => hKept.given row ((hMem row).mp hLeft).1
    · exact fun row hLeft row' hLeft' hId => hKept.identified row ((hMem row).mp hLeft).1 row'
        ((hMem row').mp hLeft').1 hId
    · intro call hCall
      exact hCall.change (fun _ h => h) fun row hLeft => .inl ((hMem row).mp hLeft).1
  · cases hDelete

-- Runs
----

theorem aclService_maintains :
    (aclService env raw).Maintains (fun _ _ _ => True) (Kept env raw) (KeptCall env raw) := by
  constructor
  · intro store call outcome store' next hKept hCall _ _ hExecute
    change executeAcl env raw call store = some (store', next) at hExecute
    cases call with
    | finding input validWallets newId =>
      simp only [executeAcl] at hExecute
      split at hExecute <;> cases hExecute
      · exact ⟨hKept, trivial, fun _ h => h⟩
      · exact ⟨hKept, hCall, fun _ h => h⟩
    | creating input validWallets newId =>
      simp only [executeAcl] at hExecute
      split at hExecute <;> cases hExecute
      · rename_i hCreate
        rcases hKept.create hCall hCreate with ⟨hKept', hOthers⟩
        exact ⟨hKept', trivial, hOthers⟩
      · exact ⟨hKept, trivial, fun _ h => h⟩
    | locating input =>
      simp only [executeAcl] at hExecute
      split at hExecute
      · cases hExecute
        exact ⟨hKept, trivial, fun _ h => h⟩
      · rename_i existing hFound
        have hRow := List.mem_of_find?_eq_some hFound
        split at hExecute <;> cases hExecute
        · exact ⟨hKept, trivial, fun _ h => h⟩
        · rename_i validWallets hVerify
          refine ⟨hKept, ⟨⟨hKept.form _ hRow, hVerify⟩, ?_⟩, fun _ h => h⟩
          exact ⟨hKept.given _ hRow, fun row hOther => hKept.identified row hOther existing hRow⟩
    | deleting input existing validWallets =>
      simp only [executeAcl] at hExecute
      rcases hCall with ⟨hAccepted, hGiven, hSame⟩
      split at hExecute <;> cases hExecute
      · rename_i hDelete
        rcases hKept.delete hAccepted hSame hDelete with ⟨hKept', hOthers⟩
        exact ⟨hKept', trivial, hOthers⟩
      · exact ⟨hKept, trivial, fun _ h => h⟩
    | auditing audit entry =>
      cases hExecute
      refine ⟨?_, trivial, fun other hOther => ?_⟩
      · exact ⟨hKept.form, hKept.given, hKept.identified,
          hKept.accepted, hKept.shown, hKept.alternating⟩
      · exact hOther.change (fun _ h => h) fun _ hRow => .inl hRow
    | answered reply => cases hExecute
  · intro store call _
    cases call <;> trivial

/- A call begins with what its schema and its signatures give. -/
theorem keptCall_begin (store : AclStore) (request : AclRequest) :
    KeptCall env raw store (request.begin env raw) := by
  cases request with
  | add adminId body newId =>
    simp only [AclRequest.begin, httpAddAcl]
    split
    · trivial
    · rename_i data hBody
      simp only [addAclEntry]
      split
      · trivial
      · rename_i validWallets hVerify
        exact ⟨wellFormed_of_schema hBody, hVerify⟩
  | remove adminId contractId signatures =>
    simp only [AclRequest.begin, httpRemoveAcl, removeAclEntry]
    split
    · trivial
    · split <;> trivial

/- Requests whose calls interleave on an empty whitelist. -/
def AclRun (env : SignatureEnv) (raw : Option String) (requests : List AclRequest)
    (moves : List FaultMove) (crew : Crew AclStore AclCall) : Prop :=
  RunsTo (Crew.attempt (aclService env raw)) (fun _ _ => True)
    (.start .empty (requests.map (AclRequest.begin env raw))) moves crew

theorem kept_run {requests : List AclRequest} {moves : List FaultMove}
    {crew : Crew AclStore AclCall} (hRun : AclRun env raw requests moves crew) :
    Kept env raw crew.store := by
  refine (aclService_maintains.run kept_empty ?_ (Crew.admits_any hRun)).1
  apply Crew.all_start
  intro call hCall
  rcases List.mem_map.mp hCall with ⟨request, -, rfl⟩
  exact keptCall_begin _ request

def AclMutation.payload (mutation : AclMutation) : List Char :=
  aclPayload mutation.action mutation.contractAddress mutation.permittedFunctions

/-
  What the holder of a wallet has signed: a signature that is
  valid has been made by the holder, and over one text.
-/
structure Unforgeable (env : SignatureEnv)
    (signed : String → List Char → List UInt8 → Prop) : Prop where
  made : ∀ wallet text signature, env.verify wallet (env.sha256 (Utf8.encode text)) signature =
    some true → signed wallet text signature
  single : ∀ wallet text text' signature, signed wallet text signature →
    signed wallet text' signature → text = text'

/- A valid signature that the request came with. -/
def Approves (env : SignatureEnv) (mutation : AclMutation) (wallet : String)
    (signature : List UInt8) : Prop :=
  (∃ submitted ∈ mutation.signatures, Governance.trim submitted.wallet = wallet ∧
    Base64.decode submitted.signature.toList = signature) ∧
    env.verify wallet (env.sha256 (Utf8.encode mutation.payload)) signature = some true

/- The text stands for one action, contract and function set. -/
def SaysExactly (mutation : AclMutation) : Prop :=
  ∀ action contractAddress permittedFunctions, WellFormed contractAddress permittedFunctions →
    aclPayload action contractAddress permittedFunctions = mutation.payload →
      action = mutation.action ∧ contractAddress = mutation.contractAddress ∧
        ∀ f, f ∈ permittedFunctions ↔ f ∈ mutation.permittedFunctions

/- Two admins have signed the mutation and nothing else. -/
def ApprovedByTwo (env : SignatureEnv) (signed : String → List Char → List UInt8 → Prop)
    (raw : Option String) (mutation : AclMutation) : Prop :=
  SaysExactly mutation ∧ ∃ wallet wallet' signature signature',
    toLowerCase wallet ≠ toLowerCase wallet' ∧ toLowerCase wallet ∈ adminSet raw ∧
    toLowerCase wallet' ∈ adminSet raw ∧ Approves env mutation wallet signature ∧
    Approves env mutation wallet' signature' ∧ signed wallet mutation.payload signature ∧
    signed wallet' mutation.payload signature'

theorem HasSigned.approves {mutation : AclMutation} {wallet : String}
    (hSigned : HasSigned env (buildAclCanonicalMessage env mutation.action
      mutation.contractAddress mutation.permittedFunctions) mutation.signatures wallet) :
    ∃ signature, Approves env mutation wallet signature := by
  rcases hSigned with ⟨submitted, hMem, hWallet, hValid⟩
  exact ⟨_, ⟨submitted, hMem, hWallet, rfl⟩, (of_decide_eq_true hValid).2⟩

theorem Accepted.approvedByTwo {signed : String → List Char → List UInt8 → Prop}
    {mutation : AclMutation} (hUnforgeable : Unforgeable env signed)
    (hAdmins : (adminSet raw).length = ACL_MULTISIG_SET_SIZE)
    (hAccepted : Accepted env raw mutation) :
    ApprovedByTwo env signed raw mutation := by
  rcases verifyAclSignatures_ok hAccepted.verified with ⟨hVerified, hEnough⟩
  refine ⟨fun action contract functions hForm hSame => ?_, ?_⟩
  · rcases aclPayload_inj hForm hAccepted.form hSame with ⟨hAction, hContract, hPerm⟩
    exact ⟨hAction, hContract, fun f => hPerm.mem_iff⟩
  · have hSome : 0 < (adminSet raw).length := by
      rw [hAdmins]
      decide
    rcases hSigners : mutation.signers with _ | ⟨wallet, _ | ⟨wallet', rest⟩⟩
    · rw [hSigners] at hEnough
      exact absurd hEnough (by decide)
    · rw [hSigners] at hEnough
      exact absurd hEnough (by simp [ACL_MULTISIG_THRESHOLD])
    · have hFirst : wallet ∈ mutation.signers := by
        simp [hSigners]
      have hSecond : wallet' ∈ mutation.signers := by simp [hSigners]
      have hDistinct := hVerified.distinct
      rw [hSigners, List.map_cons, List.nodup_cons] at hDistinct
      rcases (hVerified.signed wallet hFirst).approves with ⟨signature, hApproves⟩
      rcases (hVerified.signed wallet' hSecond).approves with ⟨signature', hApproves'⟩
      refine ⟨wallet, wallet', signature, signature', fun hSame => ?_,
        hVerified.admin hSome wallet hFirst, hVerified.admin hSome wallet' hSecond, hApproves,
        hApproves', hUnforgeable.made _ _ _ hApproves.2, hUnforgeable.made _ _ _ hApproves'.2⟩
      apply hDistinct.1
      simp [hSame]

/-
  Every mutation is approved by two admins; a signature that has
  approved a mutation approves a later one only if it is the same
  one, and only after the opposite mutation of the contract.
-/
theorem accepted_mutations_approved {signed : String → List Char → List UInt8 → Prop}
    {requests : List AclRequest} {moves : List FaultMove} {crew : Crew AclStore AclCall}
    (hUnforgeable : Unforgeable env signed)
    (hAdmins : (adminSet raw).length = ACL_MULTISIG_SET_SIZE)
    (hRun : AclRun env raw requests moves crew) :
    (∀ mutation ∈ crew.store.mutations, ApprovedByTwo env signed raw mutation) ∧
    ∀ i j first second wallet signature, i < j → crew.store.mutations[i]? = some first →
      crew.store.mutations[j]? = some second → Approves env first wallet signature →
      Approves env second wallet signature → first.action = second.action ∧
        first.contractAddress = second.contractAddress ∧ (∀ f, f ∈ first.permittedFunctions ↔
          f ∈ second.permittedFunctions) ∧
        Reverted crew.store.mutations i first j := by
  have hKept := kept_run hRun
  refine ⟨fun mutation hMem => ?_, ?_⟩
  · exact (hKept.accepted mutation hMem).approvedByTwo hUnforgeable hAdmins
  · intro i j first second wallet signature hij hi hj hFirst hSecond
    have hText : first.payload = second.payload :=
      hUnforgeable.single _ _ _ _ (hUnforgeable.made _ _ _ hFirst.2)
        (hUnforgeable.made _ _ _ hSecond.2)
    have hForm := (hKept.accepted first (List.mem_of_getElem? hi)).form
    have hForm' := (hKept.accepted second (List.mem_of_getElem? hj)).form
    rcases aclPayload_inj hForm hForm' hText with ⟨hAction, hContract, hPerm⟩
    exact ⟨hAction, hContract, fun f => hPerm.mem_iff,
      hKept.alternating i j first second hij hi hj hContract hAction⟩

theorem begin_addition {body data : AddAclEntryBody} {validWallets : List String}
    (hBody : AddAclEntryBodySchema body = .ok data)
    (hVerify : verifyAclSignatures env raw .add data.contractAddress data.permittedFunctions
      data.signatures = .ok validWallets) (adminId : Option String) (newId : String) :
    AclRequest.begin env raw (.add adminId body newId) =
      .finding ⟨data.contractAddress, data.permittedFunctions, data.signatures, actorOf adminId⟩
        validWallets newId := by
  simp only [AclRequest.begin, httpAddAcl, hBody, addAclEntry, hVerify]

theorem begin_removal {adminId : Option String} {contractId : String}
    {signatures : List AclSignature} (hContract : RemoveAclEntryParamsSchema contractId = [])
    (hSignatures : signaturesIssues signatures = []) :
    AclRequest.begin env raw (.remove adminId contractId signatures) =
      .locating ⟨contractId, signatures, actorOf adminId⟩ := by
  rw [AclRequest.begin, httpRemoveAcl, if_neg (not_not.mpr hContract),
    if_neg (not_not.mpr hSignatures), removeAclEntry]

theorem execute_locating {input : RemoveAclEntryInput} {store : AclStore}
    {existing : AclWhitelist} {validWallets : List String}
    (hExisting : (store.aclWhitelist.rows.find? fun row => row.id = input.contractId ∨
      row.contractAddress = input.contractId) = some existing)
    (hVerify : verifyAclSignatures env raw .remove existing.contractAddress
      existing.permittedFunctions input.signatures = .ok validWallets) :
    (aclService env raw).execute (.locating input) store =
      some (store, .deleting input existing validWallets) := by
  simp only [aclService, executeAcl, hExisting, hVerify]

def sampleContract : String := "CAAAAAAAAAAAAAAAAAAAAAAAAAAAAAAAAAAAAAAAAAAAAAAAAAAAAAAA"

def sampleWallets : List String :=
  ["GCAE4KSI2TMNM22DFRPZK5DLNIUDYN26R5W5UZYGP2SX2XSJ7TRJIRTZ",
    "GAIZPQGRBGCZNZG3DRO7FE43ZOBCGL6HUZ3SDBIUNSKFTGGYXZVUMXSQ",
    "GDO5WU3MYZ6RFN7T2ZF6NUU7A4ZHFHWUG4RXMUGSHPF4HWV2CFV5WGWD"]

def sampleAdmins : Option String := some (",".intercalate sampleWallets)

/- The signatures of the first two admins. -/
def sampleApprovals (action : AclAction) : List AclSignature :=
  let signatures :=
    match action with
    | .add =>
      ["Xeaz3Mr5HvgYMUl9EnLc6gDuBWgysbyvOouvbYpV2M1sGWh0eGqR0Zl5" ++
        "qnmJQP5NQq4wKT5qckKnvTy0Fbs8Cg==",
        "1rz6nPSdI7u0+AIAG6xGpUhk/FW1X6tlSLvyU33OKukuvSbtmXLz62lk" ++
          "3d2KV7RAUPxpBvxnaoXf/G+N4sRsBA=="]
    | .remove =>
      ["sY5cZC+hNEfexyxG+LwxzLgp4dgYCmg0tm13NbTEoMsb3/fy8O1smfsN" ++
        "5LGxziYAegZFQOtSHDgSPflZqCMYBA==",
        "YiBw2k7bNbgZMsoBZEso2Uc0pQsEa+fa8yHECpTrPUaI9b2huqRUpcPh" ++
          "mIARtpdb/NkysWDSjdQTXUFrKnkFCw=="]
  sampleWallets.zipWith AclSignature.mk signatures

def sampleText (action : AclAction) : List Char := aclPayload action sampleContract ["transfer"]

def sampleHash : AclAction → List UInt8
  | .add =>
    [9, 23, 246, 152, 19, 63, 69, 253, 138, 237, 229, 192, 191,
      60, 45, 254, 6, 17, 117, 142, 171, 189, 253, 49, 201, 174, 180, 121, 84, 153, 94, 19]
  | .remove =>
    [232, 129, 20, 242, 90, 245, 151, 183, 180, 188, 250, 113,
      27, 144, 132, 8, 69, 133, 45, 190, 241, 68, 212, 253, 13, 233, 125, 134, 10, 181, 173, 89]

def isSampleSignature (action : AclAction) (wallet : String) (signature : List UInt8) : Bool :=
  (sampleApprovals action).any fun approval => approval.wallet = wallet ∧
    Base64.decode approval.signature.toList = signature

/- The digests of two texts and the signatures over them. -/
def sampleAclEnv : SignatureEnv where
  sha256 data :=
    if data = Utf8.encode (sampleText .add) then sampleHash .add
    else if data = Utf8.encode (sampleText .remove) then
      sampleHash .remove
    else []
  verify wallet message signature :=
    some ([AclAction.add, .remove].any fun action => message = sampleHash action &&
      isSampleSignature action wallet signature)

def sampleSignedText (wallet : String) (text : List Char) (signature : List UInt8) : Prop :=
  ∃ action, text = sampleText action ∧ isSampleSignature action wallet signature = true

theorem text_of_sampleHash {text : List Char} {action : AclAction}
    (hHash : sampleAclEnv.sha256 (Utf8.encode text) = sampleHash action) :
    text = sampleText action := by
  have hEncode : ∀ other : List Char,
      Utf8.encode text = Utf8.encode other → text = other := by
    intro other hSame
    rw [← Utf8.decode_encode text, hSame, Utf8.decode_encode]
  simp only [sampleAclEnv] at hHash
  split at hHash
  · rename_i hAdd
    cases action with
    | add => exact hEncode _ hAdd
    | remove => exact absurd hHash (by decide)
  · split at hHash
    · rename_i hRemove
      cases action with
      | add => exact absurd hHash (by decide)
      | remove => exact hEncode _ hRemove
    · cases action <;> exact absurd hHash (by decide)

theorem sampleSignatures_apart :
    ∀ first ∈ sampleApprovals .add, ∀ second ∈ sampleApprovals .remove,
      Base64.decode first.signature.toList ≠ Base64.decode second.signature.toList := by
  decide +kernel

theorem sampleSignature_once {wallet : String} {signature : List UInt8}
    (hAdd : isSampleSignature .add wallet signature = true)
    (hRemove : isSampleSignature .remove wallet signature = true) :
    False := by
  rcases List.any_eq_true.mp hAdd with ⟨first, hFirst, hSame⟩
  rcases List.any_eq_true.mp hRemove with ⟨second, hSecond, hSame'⟩
  rcases of_decide_eq_true hSame with ⟨-, hBytes⟩
  rcases of_decide_eq_true hSame' with ⟨-, hBytes'⟩
  exact sampleSignatures_apart first hFirst second hSecond (hBytes.trans hBytes'.symm)

theorem sample_unforgeable : Unforgeable sampleAclEnv sampleSignedText := by
  constructor
  · intro wallet text signature hVerify
    rcases List.any_eq_true.mp (Option.some.inj hVerify) with ⟨action, -, hAction⟩
    rcases (Bool.and_eq_true _ _).mp hAction with ⟨hHash, hSigned⟩
    exact ⟨action, text_of_sampleHash (of_decide_eq_true hHash), hSigned⟩
  · rintro wallet text text' signature ⟨action, rfl, hSigned⟩ ⟨action', rfl, hSigned'⟩
    cases action <;> cases action'
    · rfl
    · exact (sampleSignature_once hSigned hSigned').elim
    · exact (sampleSignature_once hSigned' hSigned).elim
    · rfl

/- An addition, a removal and the addition once more. -/
def sampleRequests : List AclRequest :=
  let addition :=
    { contractAddress := sampleContract
      permittedFunctions := ["transfer"]
      signatures := sampleApprovals .add }
  [.add (some "admin") addition "1", .remove (some "admin") sampleContract
    (sampleApprovals .remove), .add (some "admin") addition "2"]

def sampleMoves : List FaultMove := servedMoves 0 3 ++ servedMoves 1 3 ++ servedMoves 2 3

def sampleMutation (eventType : AclEventType) : AclMutation where
  eventType
  contractAddress := sampleContract
  permittedFunctions := ["transfer"]
  actor := "admin"
  signers := (sampleApprovals eventType.action).map (·.wallet)
  signatures := sampleApprovals eventType.action

theorem adminSet_sample : adminSet sampleAdmins = sampleWallets.map toLowerCase := by
  have hParse : parseMultisigAdminWallets sampleAdmins = sampleWallets := by decide +kernel
  rw [adminSet, hParse]
  decide +kernel

theorem three_sampleAdmins : (adminSet sampleAdmins).length = ACL_MULTISIG_SET_SIZE := by
  rw [adminSet_sample]
  rfl

theorem sample_signed (action : AclAction) :
    ∀ signature ∈ sampleApprovals action, SignedBy sampleAclEnv (adminSet sampleAdmins)
      (buildAclCanonicalMessage sampleAclEnv action sampleContract ["transfer"]) signature := by
  rw [adminSet_sample]
  unfold SignedBy
  cases action <;> decide +kernel

theorem sample_verified (action : AclAction) :
    verifyAclSignatures sampleAclEnv sampleAdmins action sampleContract ["transfer"]
      (sampleApprovals action) = .ok ((sampleApprovals action).map (·.wallet)) :=
  verifyAclSignatures_signed three_sampleAdmins (by cases action <;> decide) (sample_signed action)
    (by cases action <;> decide +kernel)

def sampleAddition : AddAclEntryInput where
  contractAddress := sampleContract
  permittedFunctions := ["transfer"]
  signatures := sampleApprovals .add
  actor := "admin"

def sampleRemoval : RemoveAclEntryInput where
  contractId := sampleContract
  signatures := sampleApprovals .remove
  actor := "admin"

theorem sample_begin :
    sampleRequests.map (AclRequest.begin sampleAclEnv sampleAdmins) =
      [.finding sampleAddition ((sampleApprovals .add).map (·.wallet)) "1", .locating sampleRemoval,
        .finding sampleAddition ((sampleApprovals .add).map (·.wallet)) "2"] := by
  have hBody : AddAclEntryBodySchema ⟨sampleContract, ["transfer"], sampleApprovals .add⟩ =
      .ok ⟨sampleContract, ["transfer"], sampleApprovals .add⟩ := by
    unfold AddAclEntryBodySchema
    exact if_pos (by decide +kernel)
  have hAdd := begin_addition hBody (sample_verified .add) (some "admin")
  have hRemove : AclRequest.begin sampleAclEnv sampleAdmins (.remove (some "admin") sampleContract
      (sampleApprovals .remove)) = _ := begin_removal (by decide +kernel) (by decide +kernel)
  rw [show actorOf (some "admin") = "admin" by decide] at hAdd hRemove
  exact congrArg₂ List.cons (hAdd "1")
    (congrArg₂ List.cons hRemove (congrArg (· :: []) (hAdd "2")))

theorem sample_run :
    ∃ crew, AclRun sampleAclEnv sampleAdmins sampleRequests sampleMoves crew ∧
      crew.store.mutations = [sampleMutation .added, sampleMutation .removed,
        sampleMutation .added] := by
  have hLocating : ∀ store : AclStore, store.aclWhitelist.rows = [sampleAddition.entry "1"] →
      (aclService sampleAclEnv sampleAdmins).execute (.locating sampleRemoval) store =
        some (store, .deleting sampleRemoval (sampleAddition.entry "1")
          ((sampleApprovals .remove).map (·.wallet))) := by
    intro store hRows
    refine execute_locating ?_ (sample_verified .remove)
    rw [hRows]
    exact List.find?_cons_of_pos (decide_eq_true (.inr rfl))
  unfold AclRun
  rw [sample_begin]
  exact ⟨_, runsTo_append (servedMoves 2 3) (runsTo_append (servedMoves 1 3) (runsTo_of_runLabels
    (Machine.Serves.runLabels_eq (.step rfl (.step rfl (.step rfl .ended))) rfl rfl))
    (Machine.Serves.runLabels_eq (.step (hLocating _ rfl) (.step rfl (.step rfl .ended))) rfl rfl))
    (Machine.Serves.runLabels_eq (.step rfl (.step rfl (.step rfl .ended))) rfl rfl), rfl⟩

theorem accepted_mutations_approved_sample :
    ∃ crew, AclRun sampleAclEnv sampleAdmins sampleRequests sampleMoves crew ∧
      ApprovedByTwo sampleAclEnv sampleSignedText sampleAdmins (sampleMutation .added) ∧
      Reverted crew.store.mutations 0 (sampleMutation .added) 2 := by
  rcases sample_run with ⟨crew, hRun, hMutations⟩
  rcases accepted_mutations_approved sample_unforgeable three_sampleAdmins hRun with
    ⟨hApproved, hReuse⟩
  have hFirst : crew.store.mutations[0]? = some (sampleMutation .added) := by
    rw [hMutations]
    rfl
  have hSecond : crew.store.mutations[2]? = some (sampleMutation .added) := by
    rw [hMutations]
    rfl
  have hAdded := hApproved _ (List.mem_of_getElem? hFirst)
  rcases hAdded.2 with ⟨wallet, -, signature, -, -, -, -, hApproves, -⟩
  exact ⟨crew, hRun, hAdded, (hReuse 0 2 _ _ wallet signature (by decide) hFirst hSecond
    hApproves hApproves).2.2.2⟩

/- The second addition comes with the signatures of the first. -/
theorem approvals_reused :
    ∃ crew first second, Unforgeable sampleAclEnv sampleSignedText ∧
      (adminSet sampleAdmins).length = ACL_MULTISIG_SET_SIZE ∧
      AclRun sampleAclEnv sampleAdmins sampleRequests sampleMoves crew ∧
      crew.store.mutations[0]? = some first ∧ crew.store.mutations[2]? = some second ∧
      first.signatures = sampleApprovals .add ∧
      second.signatures = first.signatures := by
  rcases sample_run with ⟨crew, hRun, hMutations⟩
  refine ⟨crew, sampleMutation .added, sampleMutation .added,
    sample_unforgeable, three_sampleAdmins, hRun, ?_, ?_, ?_, rfl⟩
  · rw [hMutations]
    rfl
  · rw [hMutations]
    rfl
  · simp only [sampleMutation, AclEventType.action]

/- What the whitelist has of a contract is its last mutation. -/
theorem whitelist_shows_last {requests : List AclRequest} {moves : List FaultMove}
    {crew : Crew AclStore AclCall} (hRun : AclRun env raw requests moves crew)
    {before after : List AclMutation} {last : AclMutation}
    (hLast : crew.store.mutations = before ++ last :: after)
    (hNone : ∀ m ∈ after, m.contractAddress ≠ last.contractAddress) :
    Listed crew.store last.contractAddress ↔ last.action = .add := by
  refine ((kept_run hRun).shown before.length last (by simp [hLast])).elim Iff.symm ?_
  rintro ⟨k, m, hAfter, -, hm, hSame, -⟩
  rw [hLast, List.getElem?_append_right hAfter.le, List.getElem?_cons, if_neg (by omega)] at hm
  exact absurd hSame (hNone m (List.mem_of_getElem? hm))

theorem whitelist_shows_last_sample :
    ∃ crew, AclRun sampleAclEnv sampleAdmins sampleRequests sampleMoves crew ∧
      (Listed crew.store sampleContract ↔ AclEventType.added.action = .add) := by
  rcases sample_run with ⟨crew, hRun, hMutations⟩
  exact ⟨crew, hRun, whitelist_shows_last hRun (hMutations.trans
    (List.append_cons [_, _] _ []).symm) (by simp)⟩

end Acl

end AccessLayer
