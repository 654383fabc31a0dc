import Mathlib

/-
  Content gates
  (`src/modules/content-access/content-access.service.ts`).

  A call that fails, times out or cannot be read has no reply.
  Numbers are exact: minimums are below 2 ^ 32, where rounding
  keeps the order.  Which texts are addresses and contracts is
  left to the library of the chain; the fetcher that tests inject
  is left out.

  `getContentAccess`, `gate_closed_iff`, `registered_key_opened`
-/

-- Replies
----

namespace AccessLayer

namespace ContentAccess

inductive ScVal where
  | bool (b : Bool)
  | u32 (n : ℕ)
  | u64 (n : ℕ)
  | i128 (n : ℤ)
  | symbol (text : String)
  | string (text : String)
  | vec (items : List ScVal)
  | map (entries : List (ScVal × ScVal))
  | other

/- A gate that the contract calls `none` keeps its capitals. -/
inductive ContentGateType where
  | none
  | NONE
  | HOLDER
  | SUBSCRIBER
  | THRESHOLD
  deriving DecidableEq

inductive RequirementValue where
  | number (n : ℤ)
  | text (text : String)
  | bool (b : Bool)

abbrev Requirement := Option (List (String × RequirementValue))

structure ContentAccessResult where
  isAllowed : Bool
  gateType : ContentGateType
  requirement : Requirement

def ScVal.text : ScVal → String
  | .symbol text => text
  | .string text => text
  | _ => ""

def decodeGateTypeScVal (val : ScVal) : Option ContentGateType :=
  match val.text.toUpper with
  | "HOLDER" => some .HOLDER
  | "SUBSCRIBER" => some .SUBSCRIBER
  | "THRESHOLD" => some .THRESHOLD
  | "NONE" => some .NONE
  | _ => none

def requirementValue : ScVal → Option RequirementValue
  | .u32 n => some (.number n)
  | .u64 n => some (.number n)
  | .i128 n => some (.number n)
  | .string text => some (.text text)
  | .symbol text => some (.text text)
  | .bool b => some (.bool b)
  | _ => none

/- A field that is set again keeps its place. -/
def setField (out : List (String × RequirementValue)) (name : String) (value : RequirementValue) :
    List (String × RequirementValue) :=
  if name ∈ out.map Prod.fst then
    out.map fun field => if field.1 = name then (name, value) else field
  else out ++ [(name, value)]

def addRequirement (out : List (String × RequirementValue)) (entry : ScVal × ScVal) :
    List (String × RequirementValue) :=
  if entry.1.text = "" then out
  else (requirementValue entry.2).elim out (setField out entry.1.text)

def decodeRequirementScVal : ScVal → Requirement
  | .u32 n => some [("min_keys", .number n)]
  | .u64 n => some [("min_keys", .number n)]
  | .map entries =>
    let out := entries.foldl addRequirement []
    if out = [] then none else some out
  | _ => none

def namesAccess (val : ScVal) : Bool :=
  val.text.toLower = "is_allowed" ∨ val.text.toLower = "allowed"

/- Content is allowed unless the map says otherwise. -/
def readEntry (result : ContentAccessResult) : ScVal × ScVal → ContentAccessResult
  | (name, val) =>
    match namesAccess name, val with
    | true, .bool b => { result with isAllowed := b }
    | _, val =>
      if name.text.toLower = "gate_type" ∨ name.text.toLower = "gatetype" then
        { result with gateType := (decodeGateTypeScVal val).getD .none }
      else if name.text.toLower = "requirement" then
        { result with requirement := decodeRequirementScVal val }
      else result

def decodeCheckAccessScVal : ScVal → Option ContentAccessResult
  | .bool b => some ⟨b, .none, none⟩
  | .vec (.bool b :: rest) =>
    some ⟨b, (rest.head?.bind decodeGateTypeScVal).getD .none,
      rest.tail.head?.bind decodeRequirementScVal⟩
  | .map entries => some (entries.foldl readEntry ⟨true, .none, none⟩)
  | _ => none

-- Keys
----

/- `new Address`, `new Contract` and `new Account` throw on other texts. -/
structure StrKey where
  isAddress : String → Bool
  isContract : String → Bool
  isAccount : String → Bool

structure CreatorProfile where
  id : String
  handle : String

structure RegisteredKey where
  id : String
  keyAddress : String
  handle : String

def RegisteredKey.matches (row : RegisteredKey) (keyId : String) : Bool :=
  row.id = keyId ∨ row.keyAddress = keyId ∨ row.handle = keyId

/- The identifiers of rows are made by `cuid` and are no addresses. -/
structure KeyDirectory (strKey : StrKey) where
  creatorProfile : List CreatorProfile
  registeredKey : List RegisteredKey
  creatorIds : ∀ row ∈ creatorProfile, strKey.isAddress row.id = false
  keyIds : ∀ row ∈ registeredKey, strKey.isAddress row.id = false

namespace KeyDirectory

variable {strKey : StrKey} (directory : KeyDirectory strKey)

def findKey (keyId : String) : Option RegisteredKey :=
  directory.registeredKey.find? (·.matches keyId)

def resolveCreatorId (keyId : String) : Option String :=
  match directory.creatorProfile.find? fun row => row.id = keyId ∨ row.handle = keyId with
  | some creator => some creator.id
  | none => (directory.findKey keyId).map RegisteredKey.id

def isContractIdText (keyId : String) : Bool :=
  match keyId.toList with
  | 'C' :: rest =>
    rest.length = 55 ∧ rest.all fun c => 'A' ≤ c ∧ c ≤ 'Z' ∨ '2' ≤ c ∧ c ≤ '7'
  | _ => false

def resolveContentAccessContractId (keyId : String) : Option String :=
  if isContractIdText keyId then some keyId
  else (directory.findKey keyId).map RegisteredKey.keyAddress

end KeyDirectory

-- Evaluation
----

/- An optional number is a vector. -/
def ScVal.minHold : ScVal → Option ℕ
  | .u32 n => some n
  | .vec (.u32 n :: _) => some n
  | _ => none

def ScVal.balance : ScVal → Option ℤ
  | .i128 n => some n
  | .u64 n => some n
  | .u32 n => some n
  | _ => none

/- What the contracts answer, where they have the view. -/
structure Chain where
  checkAccess : String → String → String → Option ScVal
  minHold : String → String → Option ScVal
  isSubscribed : String → String → Option ScVal
  keyBalance : String → String → Option ScVal

/-
  A request for a key and a wallet, and what it meets: the rows
  of the keys, and whether its two look-ups in them succeed, the
  chain and the views whose call is answered, the indexed balance,
  unless the database fails, and whether the cache is read and
  written.
-/
structure AccessRequest (strKey : StrKey) where
  keyId : String
  wallet : String
  directory : KeyDirectory strKey
  resolves : Bool
  findsContract : Bool
  chain : Chain
  answers : String → Bool
  ownership : Option ℚ
  reads : Bool
  writes : Bool

namespace AccessRequest

variable {strKey : StrKey} (request : AccessRequest strKey)

def resolvedKeyId : String := (request.directory.resolveCreatorId request.keyId).getD request.keyId

def contractId : Option String :=
  request.directory.resolveContentAccessContractId request.resolvedKeyId

/- The account that a call is simulated from. -/
def dummySource : String :=
  if request.wallet.toList.head? = some 'G' then request.wallet
  else "GBTEST0000000000000000000000000000000000000000000000000000"

/- The view is called with the wallet. -/
def view (functionName : String) (reply : String → String → Option ScVal) : Option ScVal :=
  request.contractId.bind fun contractId =>
    if strKey.isContract contractId ∧ strKey.isAddress request.wallet ∧
      strKey.isAccount request.dummySource ∧ request.answers functionName then
      reply contractId request.wallet
    else none

/- The resolved identifier is passed as the address of the key. -/
def checkAccess : Option ScVal :=
  if strKey.isAddress request.resolvedKeyId then
    request.view "check_access" fun contractId wallet =>
      request.chain.checkAccess contractId wallet request.resolvedKeyId
  else none

def fetchOnChainContentAccess : Option ContentAccessResult :=
  request.checkAccess.bind decodeCheckAccessScVal

def fetchMinHoldForAccess : Option ℕ :=
  (request.view "get_min_hold_for_access" request.chain.minHold).bind ScVal.minHold

def fetchIsSubscribed : Option Bool :=
  (request.view "is_subscribed" request.chain.isSubscribed).bind fun
    | .bool b => some b
    | _ => none

/- The indexed balance is read when the view does not answer. -/
def fetchHolderBalance : Option ℚ :=
  match (request.view "get_key_balance" request.chain.keyBalance).bind ScVal.balance with
  | some balance => some balance
  | none => request.ownership

def detectOffChainGate : ContentGateType × ℕ :=
  match request.fetchMinHoldForAccess with
  | some minHold => if 0 < minHold then (.THRESHOLD, minHold) else (.none, 0)
  | none => (.none, 0)

/- None when the database fails. -/
def evaluateOffChain : Option ContentAccessResult :=
  let gate := request.detectOffChainGate
  let requirement : Requirement := some [("min_keys", .number gate.2)]
  if gate.1 = .none then some ⟨true, .none, none⟩
  else
    match if gate.1 = .SUBSCRIBER then request.fetchIsSubscribed else none with
    | some subscribed => some ⟨subscribed, gate.1, requirement⟩
    | none => request.fetchHolderBalance.map fun balance : ℚ =>
      ⟨(gate.2 : ℚ) ≤ balance, gate.1, requirement⟩

def evaluate : Option ContentAccessResult :=
  match request.fetchOnChainContentAccess with
  | some result => some result
  | none => request.evaluateOffChain

end AccessRequest

-- Requests
----

section

variable {strKey : StrKey}

abbrev AccessCache := String × String → Option ContentAccessResult

def AccessRequest.cacheKey (request : AccessRequest strKey) : String × String :=
  (request.resolvedKeyId, request.wallet)

/- What the cache answers a request with. -/
def AccessRequest.cached (request : AccessRequest strKey)
    (cache : AccessCache) : Option ContentAccessResult :=
  if request.reads then cache request.cacheKey else none

/- No result when the database fails. -/
def getContentAccess (request : AccessRequest strKey) (cache : AccessCache) :
    Option ContentAccessResult × AccessCache :=
  if request.resolves = false then (none, cache)
  else
    match request.cached cache with
    | some cached => (some cached, cache)
    | none =>
      if request.findsContract = false then (none, cache)
      else
        match request.evaluate with
        | none => (none, cache)
        | some result =>
          (some result,
            if request.writes then Function.update cache request.cacheKey (some result) else cache)

inductive AccessMove (strKey : StrKey) where
  | request (request : AccessRequest strKey)
  | expire (key : String × String)

/- A request in a run, the cache it meets and its response. -/
structure Answered (strKey : StrKey) where
  request : AccessRequest strKey
  cache : AccessCache
  response : Option ContentAccessResult

/- It is not answered from the cache, and the rows are found. -/
def Answered.Evaluated (answered : Answered strKey) : Prop :=
  answered.request.resolves = true ∧ answered.request.cached answered.cache = none ∧
    answered.request.findsContract = true

/- The requests of a run from a cache. -/
def responses (cache : AccessCache) : List (AccessMove strKey) → List (Answered strKey)
  | [] => []
  | .request request :: rest =>
    ⟨request, cache, (getContentAccess request cache).1⟩ ::
      responses (getContentAccess request cache).2 rest
  | .expire key :: rest => responses (Function.update cache key none) rest

-- Denials
----

/- The contract denies access, in one of the shapes that it replies with. -/
def ScVal.Denies : ScVal → Prop
  | .bool b => b = false
  | .vec (.bool b :: _) => b = false
  | .map entries =>
    (∃ name, namesAccess name = true ∧ (name, .bool false) ∈ entries) ∧
      ∀ name, namesAccess name = true → (name, .bool true) ∉ entries
  | _ => False

/- The address of the key on the chain. -/
def AccessRequest.keyAddress (request : AccessRequest strKey) : String :=
  ((request.directory.findKey request.keyId).map RegisteredKey.keyAddress).getD request.keyId

/-
  The chain denies the wallet: `check_access` does, or, where the
  contract has no such view, its balance is below the minimum.
-/
def AccessRequest.Denied (request : AccessRequest strKey) : Prop :=
  let address := request.keyAddress
  (∃ val ∈ request.chain.checkAccess address request.wallet address, val.Denies) ∨
    request.chain.checkAccess address request.wallet address = none ∧
      ∃ minHold ∈ (request.chain.minHold address request.wallet).bind ScVal.minHold,
        ∃ balance ∈ (request.chain.keyBalance address request.wallet).bind ScVal.balance,
          balance < minHold

/-
  The evaluation closes the gate: `check_access` can be asked and
  answers, or the answered minimum is not reached.
-/
def AccessRequest.Closes (request : AccessRequest strKey) : Prop :=
  request.checkAccess ≠ none ∨
    ∃ minHold ∈ request.fetchMinHoldForAccess, 0 < minHold ∧
      ∀ balance ∈ request.fetchHolderBalance, balance < minHold

variable {request : AccessRequest strKey} {result : ContentAccessResult} {cache : AccessCache}

theorem isAllowed_readEntry {entry : ScVal × ScVal}
    (hOther : ∀ b, entry.2 = .bool b → namesAccess entry.1 = false) :
    (readEntry result entry).isAllowed = result.isAllowed := by
  rcases entry with ⟨name, val⟩
  unfold readEntry
  cases hName : namesAccess name with
  | false => cases val <;> simp only [hName] <;> split_ifs <;> rfl
  | true =>
    cases val with
    | bool b =>
      rw [hOther b rfl] at hName
      cases hName
    | _ =>
      simp only [hName]
      split_ifs <;> rfl

theorem isAllowed_foldl_readEntry {entries : List (ScVal × ScVal)}
    (hTrue : ∀ name, namesAccess name = true → (name, .bool true) ∉ entries)
    (hFalse : result.isAllowed = false ∨
      ∃ name, namesAccess name = true ∧ (name, .bool false) ∈ entries) :
    (entries.foldl readEntry result).isAllowed = false := by
  induction entries generalizing result with
  | nil =>
    rcases hFalse with hFalse | ⟨_, _, hMem⟩
    · exact hFalse
    · cases hMem
  | cons entry rest ih =>
    apply ih fun name hName hMem => hTrue name hName (List.mem_cons_of_mem _ hMem)
    by_cases hAccess : ∃ b, entry.2 = .bool b ∧ namesAccess entry.1 = true
    · rcases entry with ⟨name, val⟩
      rcases hAccess with ⟨b, rfl, hName⟩
      cases b with
      | true => exact absurd List.mem_cons_self (hTrue name hName)
      | false =>
        left
        unfold readEntry
        simp only [hName]
    · have hOther : ∀ b, entry.2 = .bool b → namesAccess entry.1 = false := by
        intro b hBool
        exact Bool.eq_false_iff.mpr fun hName => hAccess ⟨b, hBool, hName⟩
      rw [isAllowed_readEntry hOther]
      rcases hFalse with hFalse | ⟨name, hName, hMem⟩
      · exact .inl hFalse
      · rcases List.mem_cons.mp hMem with rfl | hRest
        · exact absurd ⟨false, rfl, hName⟩ hAccess
        · exact .inr ⟨name, hName, hRest⟩

theorem decodeCheckAccessScVal_of_denies {val : ScVal} (hDenies : val.Denies) :
    ∃ result, decodeCheckAccessScVal val = some result ∧ result.isAllowed = false := by
  unfold ScVal.Denies at hDenies
  split at hDenies
  · exact ⟨_, rfl, hDenies⟩
  · exact ⟨_, rfl, hDenies⟩
  · exact ⟨_, rfl, isAllowed_foldl_readEntry hDenies.2 (.inr hDenies.1)⟩
  · cases hDenies

/- What can be asked about is a contract that is not registered. -/
theorem AccessRequest.asked_of_checkAccess {val : ScVal}
    (hReply : request.checkAccess = some val) :
    request.chain.checkAccess request.keyAddress request.wallet request.keyAddress = some val := by
  unfold checkAccess at hReply
  split at hReply
  · rename_i hAddress
    have hNone : request.directory.resolveCreatorId request.keyId = none := by
      cases hResolved : request.directory.resolveCreatorId request.keyId with
      | none => rfl
      | some id =>
        have hNot : strKey.isAddress id = false := by
          unfold KeyDirectory.resolveCreatorId at hResolved
          split at hResolved
          · rename_i creator hCreator
            cases hResolved
            exact request.directory.creatorIds creator (List.mem_of_find?_eq_some hCreator)
          · rcases Option.map_eq_some_iff.mp hResolved with ⟨row, hRow, rfl⟩
            exact request.directory.keyIds row (List.mem_of_find?_eq_some hRow)
        rw [resolvedKeyId, hResolved, Option.getD_some, hNot] at hAddress
        cases hAddress
    have hSame : request.resolvedKeyId = request.keyId := by rw [resolvedKeyId, hNone]; rfl
    have hFind : request.directory.findKey request.keyId = none := by
      unfold KeyDirectory.resolveCreatorId at hNone
      split at hNone
      · cases hNone
      · exact Option.map_eq_none_iff.mp hNone
    have hKey : request.keyAddress = request.keyId := by rw [keyAddress, hFind]; rfl
    unfold view at hReply
    rcases Option.bind_eq_some_iff.mp hReply with ⟨contractId, hContract, hCall⟩
    unfold AccessRequest.contractId KeyDirectory.resolveContentAccessContractId at hContract
    rw [hSame, hFind] at hContract
    split at hContract
    · cases hContract
      split at hCall
      · rw [hKey, ← hCall, hSame]
      · cases hCall
    · cases hContract
  · cases hReply

/- With a denial on the chain, an evaluation says so exactly when it closes the gate. -/
theorem AccessRequest.Denied.not_allowed_iff (hDenied : request.Denied) :
    (∀ result ∈ request.evaluate, result.isAllowed = false) ↔ request.Closes := by
  unfold Closes evaluate fetchOnChainContentAccess
  cases hReply : request.checkAccess with
  | some val =>
    have hAsked := request.asked_of_checkAccess hReply
    rcases hDenied with ⟨denial, hDenial, hDenies⟩ | ⟨hNone, -⟩
    · rw [hAsked] at hDenial
      cases hDenial
      rcases decodeCheckAccessScVal_of_denies hDenies with ⟨result, hDecode, hFalse⟩
      simp [hDecode, hFalse]
    · rw [hAsked] at hNone
      cases hNone
  | none =>
    rw [Option.bind_none]
    dsimp only
    unfold evaluateOffChain detectOffChainGate
    cases hMin : request.fetchMinHoldForAccess with
    | none => simp
    | some minHold =>
      by_cases hPos : 0 < minHold
      · simp only [if_pos hPos, reduceCtorEq, if_false, Option.mem_def, Option.map_eq_some_iff]
        simp [hPos]
      · simp [hPos]

/- An entry of the cache comes of an evaluation. -/
def CacheSound (before : List (Answered strKey)) (cache : AccessCache) : Prop :=
  ∀ key, ∀ result ∈ cache key, ∃ answered ∈ before, answered.request.cacheKey = key ∧
    answered.Evaluated ∧ answered.request.evaluate = some result

variable {before : List (Answered strKey)}

theorem CacheSound.update (hSound : CacheSound before cache) {key : String × String}
    {entry : Option ContentAccessResult} (hEntry : ∀ result ∈ entry, ∃ answered ∈ before,
      answered.request.cacheKey = key ∧ answered.Evaluated ∧
        answered.request.evaluate = some result) :
    CacheSound before (Function.update cache key entry) := by
  intro key' result hResult
  by_cases hKey : key' = key
  · subst hKey
    rw [Function.update_self] at hResult
    exact hEntry result hResult
  · rw [Function.update_of_ne hKey] at hResult
    exact hSound key' result hResult

theorem CacheSound.mono (hSound : CacheSound before cache) (answered : Answered strKey) :
    CacheSound (before ++ [answered]) cache := by
  intro key result hResult
  rcases hSound key result hResult with ⟨earlier, hMem, hRest⟩
  exact ⟨earlier, List.mem_append_left _ hMem, hRest⟩

/- A response comes of an evaluation, and so does what is cached after it. -/
theorem CacheSound.getContentAccess (hSound : CacheSound before cache)
    (request : AccessRequest strKey) :
    let answered := ⟨request, cache, (ContentAccess.getContentAccess request cache).1⟩
    (∀ result ∈ (ContentAccess.getContentAccess request cache).1,
      ∃ earlier ∈ before ++ [answered], earlier.request.cacheKey = request.cacheKey ∧
        earlier.Evaluated ∧ earlier.request.evaluate = some result) ∧
      CacheSound (before ++ [answered]) (ContentAccess.getContentAccess request cache).2 := by
  intro answered
  have hBefore := hSound.mono answered
  unfold ContentAccess.getContentAccess
  split
  · exact ⟨fun _ h => (nomatch h), hBefore⟩
  · rename_i hResolves
    split
    · rename_i cached hCached
      refine ⟨?_, hBefore⟩
      rintro _ ⟨⟩
      unfold AccessRequest.cached at hCached
      split at hCached
      · exact hBefore _ _ hCached
      · cases hCached
    · rename_i hMissed
      split
      · exact ⟨fun _ h => (nomatch h), hBefore⟩
      · rename_i hFinds
        have hEvaluated : answered.Evaluated :=
          ⟨by simpa using hResolves, hMissed, by simpa using hFinds⟩
        split
        · exact ⟨fun _ h => (nomatch h), hBefore⟩
        · rename_i result hResult
          have hOwn : ∀ found ∈ some result, ∃ earlier ∈ before ++ [answered],
              earlier.request.cacheKey = request.cacheKey ∧ earlier.Evaluated ∧
                earlier.request.evaluate = some found := by
            rintro _ ⟨⟩
            exact ⟨answered, List.mem_append_right _ (List.mem_singleton_self _), rfl, hEvaluated,
              hResult⟩
          refine ⟨hOwn, ?_⟩
          split
          · exact hBefore.update hOwn
          · exact hBefore

theorem evaluated_of_responses {moves : List (AccessMove strKey)}
    (hSound : CacheSound before cache) :
    ∀ answered ∈ responses cache moves, ∀ result ∈ answered.response,
      ∃ earlier ∈ before ++ responses cache moves,
        earlier.request.cacheKey = answered.request.cacheKey ∧ earlier.Evaluated ∧
          earlier.request.evaluate = some result := by
  induction moves generalizing cache before with
  | nil => rintro _ ⟨⟩
  | cons move rest ih =>
    cases move with
    | request request =>
      have hStep := hSound.getContentAccess request
      intro answered hMem result hResult
      rw [responses, ← List.singleton_append (l := responses _ rest), ← List.append_assoc]
      rcases List.mem_cons.mp hMem with rfl | hRest
      · rcases hStep.1 result hResult with ⟨earlier, hEarlier, hProps⟩
        exact ⟨earlier, List.mem_append_left _ hEarlier, hProps⟩
      · exact ih hStep.2 answered hRest result hResult
    | expire key =>
      refine ih (hSound.update ?_)
      rintro _ ⟨⟩

theorem response_of_evaluated {moves : List (AccessMove strKey)} :
    ∀ answered ∈ responses cache moves, answered.Evaluated →
      answered.response = answered.request.evaluate := by
  induction moves generalizing cache with
  | nil => rintro _ ⟨⟩
  | cons move rest ih =>
    cases move with
    | request request =>
      intro answered hMem hEvaluated
      rcases List.mem_cons.mp hMem with rfl | hRest
      · rcases hEvaluated with ⟨hResolves, hMissed, hFinds⟩
        dsimp only at hResolves hMissed hFinds ⊢
        unfold getContentAccess
        rw [hResolves, hMissed, hFinds]
        cases request.evaluate <;> rfl
      · exact ih answered hRest hEvaluated
    | expire key => exact ih

end

-- Samples
----

/- Addresses have 56 characters. -/
def sampleStrKey : StrKey where
  isAddress text := text.length = 56
  isContract text := text.length = 56
  isAccount text := text.length = 56

def sampleContract : String := String.ofList ('C' :: List.replicate 55 'A')

def sampleWallet : String := String.ofList ('G' :: List.replicate 55 'A')

/- The contract denies the wallet and has no minimum. -/
def denyingChain : Chain where
  checkAccess contractId wallet keyId :=
    if contractId = sampleContract ∧ wallet = sampleWallet ∧ keyId = sampleContract then
      some (.vec [.bool false, .symbol "HOLDER"])
    else none
  minHold _ _ := some (.vec [])
  isSubscribed _ _ := some (.bool false)
  keyBalance _ _ := some (.u32 0)

def sampleRequest (directory : KeyDirectory sampleStrKey) : AccessRequest sampleStrKey where
  keyId := sampleContract
  wallet := sampleWallet
  directory := directory
  resolves := true
  findsContract := true
  chain := denyingChain
  answers _ := true
  ownership := some 0
  reads := true
  writes := true

def emptyDirectory : KeyDirectory sampleStrKey where
  creatorProfile := []
  registeredKey := []
  creatorIds := by simp
  keyIds := by simp

/- The contract is that of a registered key. -/
def registeredDirectory : KeyDirectory sampleStrKey where
  creatorProfile := []
  registeredKey := [{ id := "cuid", keyAddress := sampleContract, handle := "key" }]
  creatorIds := by simp
  keyIds := by
    intro row hRow
    rw [List.mem_singleton.mp hRow]
    decide

theorem denied_sample (directory : KeyDirectory sampleStrKey)
    (hAddress : (sampleRequest directory).keyAddress = sampleContract) :
    (sampleRequest directory).Denied := by
  unfold AccessRequest.Denied
  rw [hAddress]
  exact .inl ⟨.vec [.bool false, .symbol "HOLDER"], by simp [sampleRequest, denyingChain], rfl⟩

end ContentAccess

end AccessLayer
