import AccessLayer.Governance.Proposals
import AccessLayer.Library.Encodings
import AccessLayer.Library.Glob
import AccessLayer.Middlewares.Idempotency

/-
  Requests of different wallets and idempotency keys that share
  one cache
  (`src/middlewares/idempotency.middleware.ts`,
  `src/utils/redis.utils.ts`).

  A stored entry belongs to the wallet and key of the request
  that wrote it.  Whether a glob pattern matches a key is left to
  Redis.

  Main result: `isolated_iff`
-/

-- Headers
----

namespace AccessLayer

namespace Middlewares

section

def IDEMPOTENCY_KEY_HEADER : String := "idempotency-key"

def X_IDEMPOTENCY_KEY_HEADER : String := "x-idempotency-key"

def WALLET_ADDRESS_HEADER : String := "x-wallet-address"

def IDEMPOTENCY_KEY_MAX_LENGTH : Nat := 128

def REDIS_KEY_PREFIX : String := "idempotency"

/- What the middleware reads of a request. -/
structure IdempotentRequest where
  headers : String → Option String
  /- set once the signature has been verified -/
  walletAddress : Option String
  userWallet : Option String
  wallet : Option String

structure ApiError where
  statusCode : Nat
  code : String
  message : String
  deriving DecidableEq

/- The wallet and the key of a request. -/
structure Scope where
  wallet : String
  idempotencyKey : String
  deriving DecidableEq

def readHeader (req : IdempotentRequest) (name : String) : Option String :=
  (req.headers name).map Governance.trim

/- The first text that is present and not empty. -/
def firstText : List (Option String) → String
  | [] => ""
  | some text :: rest => if text ≠ "" then text else firstText rest
  | none :: rest => firstText rest

def getCallerWallet (req : IdempotentRequest) : String :=
  firstText [req.walletAddress, readHeader req WALLET_ADDRESS_HEADER,
    req.userWallet.map Governance.trim, req.wallet.map Governance.trim]

/- The length of a text in ECMAScript, in UTF-16 units. -/
def utf16Length (text : String) : Nat :=
  (text.toList.map fun c =>
    if c.toNat < 0x10000 then 1 else 2).sum

def validateIdempotencyHeader (req : IdempotentRequest) : Except ApiError String :=
  let key :=
    firstText [readHeader req IDEMPOTENCY_KEY_HEADER, readHeader req X_IDEMPOTENCY_KEY_HEADER]
  if key = "" then
    .error {
      statusCode := 400
      code := "missing_idempotency_key"
      message :=
        "Missing idempotency-key header. Send a unique key per " ++
        "logical operation to enable safe retries." }
  else if IDEMPOTENCY_KEY_MAX_LENGTH < utf16Length key then
    .error {
      statusCode := 400
      code := "BAD_REQUEST"
      message := "idempotency-key must not exceed 128 characters." }
  else .ok key

def scopeOf (req : IdempotentRequest) : Except ApiError Scope :=
  (validateIdempotencyHeader req).map fun idempotencyKey =>
    { wallet := getCallerWallet req
      idempotencyKey }

def buildIdempotencyCacheKey (scope : Scope) : String :=
  REDIS_KEY_PREFIX ++ ":" ++ scope.wallet ++ ":" ++ scope.idempotencyKey

/- Keys that are expanded as patterns when they are deleted. -/
def isPattern (key : String) : Bool :=
  key.toList.contains '*' || key.toList.contains '?' || key.toList.contains '['

-- Steps
----

open Transactional

/- An entry of the cache and the scope whose request wrote it. -/
structure Stored where
  entry : CacheEntry
  owner : Scope

structure ScopedState where
  now : Nat
  cache : String → Option Stored
  requests : List (Scope × Request)

/- Some requests, and none of their keys in the cache. -/
def ScopedState.start (scopes : List Scope) : ScopedState where
  now := 0
  cache := fun _ => none
  requests := scopes.map fun scope => (scope, .new)

inductive ScopedEvent where
  | act (i : Nat) (action : Action)
  /- the expansion of a pattern comes across a key -/
  | scan (i : Nat) (key : String)
  /- a command that the request awaits fails -/
  | fault (i : Nat)
  /- a command that was issued without awaiting it fails -/
  | drop (i : Nat)
  | elapse (ms : Nat)

variable (options : IdempotencyOptions) (glob : String → String → Bool)

/- Whether `cacheInvalidate` on a key deletes a key. -/
def clears (key other : String) : Bool :=
  if isPattern key then glob key other else key == other

/- The action writes an entry of the request's own. -/
def Request.writes (r : Request) (now : Nat) (cache : Option CacheEntry) : Action → Bool
  | .proceed => (r.phase = .arrived || r.phase = .reclaiming) && (cacheGetRaw cache now).isNone
  | .carryOut =>
    match r.commands with
    | .cacheSetRaw _ :: _ => true
    | _ => false
  | _ => false

def Request.invalidates (r : Request) : Bool :=
  r.phase = .discarding || r.commands.head? = some .cacheInvalidate

/- When Redis fails, a lock counts as taken and a read finds nothing. -/
def Request.fault (r : Request) (now : Nat) : Option Request :=
  match r.phase with
  | .arrived => some { r with phase := .executing }
  | .contended => some { r with phase := .polling now }
  | .discarding => some { r with phase := .reclaiming }
  | .reclaiming => some { r with phase := .executing }
  | .sleeping _ wakesAt =>
    if wakesAt ≤ now then some { r with phase := .conflict }
    else none
  | _ => none

def ownerAfter (scope : Scope) (r : Request) (now : Nat) (slot : Option Stored)
    (action : Action) : Scope :=
  match slot with
  | some stored =>
    if r.writes now (some stored.entry) action then scope
    else stored.owner
  | none => scope

def actOnSlot (scope : Scope) (r : Request) (now : Nat) (slot : Option Stored)
    (action : Action) : Option (Option Stored × Request) :=
  let key := buildIdempotencyCacheKey scope
  (act options (clears glob key key) now (slot.map (·.entry)) r action).map fun result =>
    (result.1.map fun entry => { entry, owner := ownerAfter scope r now slot action }, result.2)

def ScopedState.step (s : ScopedState) : ScopedEvent → Option ScopedState
  | .act i action =>
    match s.requests[i]? with
    | some (scope, r) =>
      let key := buildIdempotencyCacheKey scope
      (actOnSlot options glob scope r s.now (s.cache key) action).map fun result => { s with
          cache := Function.update s.cache key result.1
          requests := s.requests.set i (scope, result.2) }
    | none => none
  | .scan i other =>
    match s.requests[i]? with
    | some (scope, r) =>
      let key := buildIdempotencyCacheKey scope
      if r.invalidates && isPattern key && glob key other then
        some { s with cache := Function.update s.cache other none }
      else none
    | none => none
  | .fault i =>
    match s.requests[i]? with
    | some (scope, r) =>
      (r.fault s.now).map fun r' => { s with requests := s.requests.set i (scope, r') }
    | none => none
  | .drop i =>
    match s.requests[i]? with
    | some (scope, r) =>
      match r.commands with
      | _ :: commands =>
        some { s with
            requests := s.requests.set i (scope, { r with commands }) }
      | [] => none
    | none => none
  | .elapse ms => some { s with now := s.now + ms }

/- The request that is handled. -/
def ScopedEvent.request : ScopedEvent → Option Nat
  | .act i _ => some i
  | .scan i _ => some i
  | .fault i => some i
  | .drop i => some i
  | .elapse _ => none

def Handles (s : ScopedState) (event : ScopedEvent) (scope : Scope) : Prop :=
  ∃ i r, event.request = some i ∧ s.requests[i]? = some (scope, r)

/- The live entries of a scope are still stored as they were. -/
def Untouched (s s' : ScopedState) (owner : Scope) : Prop :=
  ∀ key stored, s.cache key = some stored → stored.owner = owner → s.now < stored.entry.expiresAt →
    s'.cache key = some stored

def Replays (s s' : ScopedState) (scope owner : Scope) : Prop :=
  ∃ (i : Nat) (r r' : Request) (statusCode : Nat)
    (body : String) (resolvedAt : Nat) (stored : Stored), s.requests[i]? = some (scope, r) ∧
    s'.requests[i]? = some (scope, r') ∧ r.phase ≠ r'.phase ∧ r'.phase = .replayed statusCode body ∧
    s.cache (buildIdempotencyCacheKey scope) = some stored ∧
    stored.entry.value = .resolved statusCode body resolvedAt ∧ stored.owner = owner

/-
  In every run, handling a request of the first scope leaves the
  entries of the second as they are and replays none of them.
-/
def Isolated (p q : Scope) : Prop :=
  ∀ (options : IdempotencyOptions) scopes labels s event s',
    RunsTo (ScopedState.step options glob) (fun _ _ => True) (.start scopes) labels s →
    s.step options glob event = some s' → Handles s event p → Untouched s s' q ∧ ¬Replays s s' p q

end

-- Isolation
----

section

open Transactional

variable {options : IdempotencyOptions} {glob : String → String → Bool} {s s' : ScopedState}

/- An entry is stored under the key of its owner. -/
def Owned (s : ScopedState) : Prop :=
  ∀ key stored, s.cache key = some stored → buildIdempotencyCacheKey stored.owner = key

variable {event : ScopedEvent}

theorem step_cache (hStep : s.step options glob event = some s') :
    s'.cache = s.cache ∨ ∃ i scope r slot, event.request = some i ∧
      s.requests[i]? = some (scope, r) ∧ (s'.cache = Function.update s.cache
        (buildIdempotencyCacheKey scope) slot ∧ (∀ stored ∈ slot, stored.owner = scope ∨
          ∃ before, stored.owner = before.owner ∧ s.cache (buildIdempotencyCacheKey scope) =
            some before) ∨ ∃ key, s'.cache = Function.update s.cache key none ∧
        isPattern (buildIdempotencyCacheKey scope) = true ∧
        glob (buildIdempotencyCacheKey scope) key = true) := by
  cases event with
  | act i action =>
    simp only [ScopedState.step] at hStep
    split at hStep
    · rename_i scope r hRequest
      rcases Option.map_eq_some_iff.mp hStep with ⟨⟨slot, r'⟩, hAct, rfl⟩
      refine Or.inr ⟨i, scope, r, slot, rfl, hRequest, Or.inl ⟨rfl, ?_⟩⟩
      rcases Option.map_eq_some_iff.mp hAct with ⟨⟨cache', r''⟩, -, hSlot⟩
      simp only [Prod.mk.injEq] at hSlot
      rintro stored hStored
      rw [Option.mem_def, ← hSlot.1, Option.map_eq_some_iff] at hStored
      rcases hStored with ⟨entry, -, rfl⟩
      simp only [ownerAfter]
      split
      · rename_i before hBefore
        split
        · exact Or.inl rfl
        · exact Or.inr ⟨before, rfl, hBefore⟩
      · exact Or.inl rfl
    · cases hStep
  | scan i key =>
    simp only [ScopedState.step] at hStep
    split at hStep
    · rename_i scope r hRequest
      split at hStep
      · rename_i hMatch
        simp only [Bool.and_eq_true] at hMatch
        cases hStep
        exact Or.inr ⟨i, scope, r, none, rfl, hRequest, Or.inr ⟨key, rfl, hMatch.1.2, hMatch.2⟩⟩
      · cases hStep
    · cases hStep
  | fault i =>
    simp only [ScopedState.step] at hStep
    split at hStep
    · rcases Option.map_eq_some_iff.mp hStep with ⟨r', -, rfl⟩
      exact Or.inl rfl
    · cases hStep
  | drop i =>
    simp only [ScopedState.step] at hStep
    split at hStep
    · split at hStep
      · cases hStep
        exact Or.inl rfl
      · cases hStep
    · cases hStep
  | elapse ms =>
    cases hStep
    exact Or.inl rfl

theorem owned_start (scopes : List Scope) : Owned (.start scopes) := nofun

theorem owned_step (hOwned : Owned s) (hStep : s.step options glob event = some s') : Owned s' := by
  intro key stored hStored
  rcases step_cache hStep with hSame | ⟨i, scope, r, slot, -, -, hChange⟩
  · rw [hSame] at hStored
    exact hOwned key stored hStored
  · rcases hChange with ⟨hCache, hSlot⟩ | ⟨other, hCache, -, -⟩
    · rw [hCache, Function.update_apply] at hStored
      split at hStored
      · rename_i hKey
        rcases hSlot stored hStored with hOwner | ⟨before, hOwner, hBefore⟩
        · rw [hOwner, hKey]
        · rw [hOwner, hOwned _ before hBefore, hKey]
      · exact hOwned key stored hStored
    · rw [hCache, Function.update_apply] at hStored
      split at hStored
      · cases hStored
      · exact hOwned key stored hStored

/- The keys are told apart, and deleting the one as a pattern does not reach the other. -/
def Apart (glob : String → String → Bool) (p q : Scope) : Prop :=
  buildIdempotencyCacheKey p ≠ buildIdempotencyCacheKey q ∧
  (isPattern (buildIdempotencyCacheKey p) = true → glob (buildIdempotencyCacheKey p)
    (buildIdempotencyCacheKey q) = false)

variable {p q : Scope}

theorem untouched_of_apart (hOwned : Owned s) (hApart : Apart glob p q)
    (hStep : s.step options glob event = some s') (hHandles : Handles s event p) :
    Untouched s s' q := by
  intro key stored hStored hOwner hLive
  have hKey : buildIdempotencyCacheKey q = key := hOwner ▸ hOwned key stored hStored
  rcases hHandles with ⟨i, r, hIndex, hRequest⟩
  rcases step_cache hStep with hSame | ⟨j, scope, r', slot, hIndex', hRequest', hChange⟩
  · rw [hSame]
    exact hStored
  · cases hIndex.symm.trans hIndex'
    cases hRequest.symm.trans hRequest'
    have hOther : ∀ {other : String} {slot : Option Stored},
        s'.cache = Function.update s.cache other slot →
        other ≠ key → s'.cache key = some stored := by
      intro other slot hCache hNe
      rw [hCache, Function.update_of_ne hNe.symm]
      exact hStored
    rcases hChange with ⟨hCache, -⟩ | ⟨other, hCache, hPattern, hMatch⟩
    · exact hOther hCache (hKey ▸ hApart.1)
    · apply hOther hCache
      rintro rfl
      rw [← hKey, hApart.2 hPattern] at hMatch
      cases hMatch

theorem isolated_of_apart (hApart : Apart glob p q) : Isolated glob p q := by
  intro options scopes labels s event s' hRun hStep hHandles
  have hOwned : Owned s :=
    RunsTo.invariant (owned_start scopes) (fun _ _ _ hInv _ hTaken => owned_step hInv hTaken) hRun
  refine ⟨untouched_of_apart hOwned hApart hStep hHandles, ?_⟩
  rintro ⟨i, r, r', statusCode, body, resolvedAt, stored, -, -, -, -, hStored, -, hOwner⟩
  exact hApart.1 (hOwner ▸ hOwned _ stored hStored).symm

-- Interference
----

def storedResponse (owner : Scope) : Stored where
  entry := {
    value := .resolved 200 "" 0
    expiresAt := IdempotencyOptions.ttlMs {} }
  owner := owner

theorem storedResponse_live {owner : Scope} : 0 < (storedResponse owner).entry.expiresAt :=
  Nat.zero_lt_succ _

/- The lock of a request of the scope. -/
def lockOf (owner : Scope) : Stored where
  entry := {
    value := .inProgress 0
    expiresAt := IdempotencyOptions.inFlightTtlMs {} }
  owner := owner

/- A request of one scope was answered, another one arrives. -/
def answered (p q : Scope) : ScopedState where
  now := 0
  cache := Function.update (fun _ => none) (buildIdempotencyCacheKey q) (some (storedResponse q))
  requests :=
    [(q,
      { phase := .responded 200 ""
        connected := true
        commands := []
        acquiredAt := some 0
        storedAt := some 0 }), (p, .new)]

theorem answered_reached (p q : Scope) :
    RunsTo (ScopedState.step {} glob) (fun _ _ => True) (.start [q, p])
      [.act 0 .proceed, .act 0 (.respond 200 ""), .act 0 .carryOut] (answered p q) := by
  apply runsTo_of_runLabels
  simp [runLabels, ScopedState.step, ScopedState.start,
    actOnSlot, act, proceed, setNx, cacheGetRaw, ownerAfter,
    Request.new, Request.writes, Phase.isOpen, persistResult,
    answered, storedResponse, IdempotencyOptions.inFlightTtlMs]

/- The same, with the second request in another phase. -/
def answeredThen (p q : Scope) (r : Request) : ScopedState :=
  { answered p q with
    requests := (answered p q).requests.set 1 (p, r) }

/- The same, after the second request has taken its lock. -/
def lockedThen (p q : Scope) (r : Request) : ScopedState :=
  { answeredThen p q r with
    cache := Function.update (answered p q).cache (buildIdempotencyCacheKey p) (some (lockOf p)) }

/- One request replays what was stored for the other. -/
theorem not_isolated_of_same_key (hSame : buildIdempotencyCacheKey p = buildIdempotencyCacheKey q) :
    ¬Isolated glob p q := by
  let contended : Request := { Request.new with phase := .contended }
  let replayed : Request := { Request.new with phase := .replayed 200 "" }
  have hCache : (answered p q).cache (buildIdempotencyCacheKey p) =
      some (storedResponse q) := by
    simp [answered, hSame]
  have hArrives : (answered p q).step {} glob (.act 1 .proceed) =
      some (answeredThen p q contended) := by
    simp [ScopedState.step, actOnSlot, act, proceed, setNx,
      cacheGetRaw, ownerAfter, Request.new, Request.writes,
      answeredThen, answered, storedResponse, hSame, contended, IdempotencyOptions.ttlMs]
  have hReads : (answeredThen p q contended).step {} glob (.act 1 .proceed) =
      some (answeredThen p q replayed) := by
    simp [ScopedState.step, actOnSlot, act, proceed,
      cacheGetRaw, ownerAfter, Request.new, Request.writes,
      answeredThen, answered, storedResponse, hSame, contended, replayed, IdempotencyOptions.ttlMs]
  intro hIsolated
  have hRun := (answered_reached p q).step trivial hArrives
  apply (hIsolated {} _ _ _ _ _ hRun hReads ⟨1, _, rfl, rfl⟩).2
  exact ⟨1, contended, replayed, 200, "", 0, storedResponse q, rfl,
    rfl, (by rintro ⟨⟩), rfl, hCache, rfl, rfl⟩

/- One request deletes what was stored for the other. -/
theorem not_isolated_of_match (hKey : buildIdempotencyCacheKey p ≠ buildIdempotencyCacheKey q)
    (hPattern : isPattern (buildIdempotencyCacheKey p) = true)
    (hMatch : glob (buildIdempotencyCacheKey p) (buildIdempotencyCacheKey q) = true) :
    ¬Isolated glob p q := by
  let executing : Request :=
    { Request.new with
      phase := .executing
      acquiredAt := some 0 }
  let failed : Request :=
    { executing with
      phase := .responded 500 ""
      commands := [.cacheInvalidate] }
  have hArrives : (answered p q).step {} glob (.act 1 .proceed) =
      some (lockedThen p q executing) := by
    simp [ScopedState.step, actOnSlot, act, proceed, setNx,
      cacheGetRaw, ownerAfter, Request.new, answeredThen,
      answered, storedResponse, hKey, executing, lockedThen, lockOf]
  have hFails : (lockedThen p q executing).step {} glob (.act 1 (.respond 500 "")) =
      some (lockedThen p q failed) := by
    simp [ScopedState.step, actOnSlot, act, ownerAfter,
      Request.new, Request.writes, Phase.isOpen, persistResult,
      answeredThen, answered, executing, failed, lockedThen, lockOf]
  have hScan : (lockedThen p q failed).step {} glob (.scan 1 (buildIdempotencyCacheKey q)) = some
      { lockedThen p q failed with
        cache :=
          Function.update (lockedThen p q failed).cache
            (buildIdempotencyCacheKey q) none } := by
    simp [ScopedState.step, Request.invalidates, hPattern, hMatch, answeredThen, answered, failed,
      lockedThen]
  have hStored : (lockedThen p q failed).cache (buildIdempotencyCacheKey q) =
      some (storedResponse q) := by
    simp [lockedThen, answered, Function.update_of_ne hKey.symm]
  intro hIsolated
  have hRun := ((answered_reached p q).step trivial hArrives).step trivial hFails
  have hKept :=
    (hIsolated {} _ _ _ _ _ hRun hScan ⟨1, _, rfl, rfl⟩).1 _ _ hStored rfl storedResponse_live
  simp at hKept

/-
  Handling requests of one scope is isolated from the entries of
  another exactly if their keys differ and the first key, where
  it is a pattern, does not match the second.
-/
theorem isolated_iff (glob : String → String → Bool) (p q : Scope) :
    Isolated glob p q ↔ Apart glob p q := by
  constructor
  · intro hIsolated
    have hKey : buildIdempotencyCacheKey p ≠ buildIdempotencyCacheKey q :=
      fun hSame => not_isolated_of_same_key hSame hIsolated
    refine ⟨hKey, ?_⟩
    intro hPattern
    cases hMatch : glob (buildIdempotencyCacheKey p) (buildIdempotencyCacheKey q) with
    | false => rfl
    | true => exact absurd hIsolated (not_isolated_of_match hKey hPattern hMatch)
  · exact isolated_of_apart

end

-- Glob Patterns
----

/- A text as Redis sees it, one symbol for each byte. -/
def bytesOf (text : String) : List Char := (Utf8.encode text.toList).map fun b => Char.ofNat b.toNat

/- `MATCH` of the `SCAN` command. -/
def redisGlob (pattern key : String) : Bool := Glob.isMatch (bytesOf pattern) (bytesOf key)

/- Two operations of one wallet. -/
def starScope : Scope where
  wallet := "GAAAAAAAAAAAAAAAAAAAAAAAAAAAAAAAAAAAAAAAAAAAAAAAAAAAAWHF"
  idempotencyKey := "*"

def plainScope : Scope where
  wallet := starScope.wallet
  idempotencyKey := "order-1"

/- A signed request with the key of the scope in its header. -/
def requestOf (scope : Scope) : IdempotentRequest where
  headers := fun name =>
    if name = IDEMPOTENCY_KEY_HEADER then
      some scope.idempotencyKey
    else none
  walletAddress := some scope.wallet
  userWallet := none
  wallet := none

/- The second operation is not protected from the first. -/
theorem star_reaches_other_keys :
    scopeOf (requestOf starScope) = .ok starScope ∧
    scopeOf (requestOf plainScope) = .ok plainScope ∧ starScope ≠ plainScope ∧
    ¬Isolated redisGlob starScope plainScope := by
  refine ⟨by decide, by decide, by decide, ?_⟩
  apply not_isolated_of_match <;> decide

end Middlewares

end AccessLayer
