import AccessLayer.Library.Runs
import Mathlib.Order.Basic

/-
  Requests that share an idempotency key
  (`src/middlewares/idempotency.middleware.ts`).

  The requests of one wallet and one key race for one cache
  entry.  Commands to the cache are issued by a request and
  carried out later; clients disconnect, processes crash and
  time passes at any moment.

  Main result: `executions_exclusive`
-/

-- Requests
----

namespace AccessLayer

namespace Middlewares

open Transactional

section

/- A lock that Redis is asked to set lives for some time. -/
structure IdempotencyOptions where
  timeoutMs : Nat := 5000
  pollIntervalMs : Nat := 100
  inFlightTtlSeconds : Nat := 60
  ttlSeconds : Nat := 24 * 60 * 60
  inFlightTtlPositive : 0 < inFlightTtlSeconds := by decide

def IdempotencyOptions.inFlightTtlMs (options : IdempotencyOptions) : Nat :=
  options.inFlightTtlSeconds * 1000

def IdempotencyOptions.ttlMs (options : IdempotencyOptions) : Nat := options.ttlSeconds * 1000

/- What is stored under the key; `corrupt` is no JSON. -/
inductive CacheValue where
  | inProgress (startedAt : Nat)
  | resolved (statusCode : Nat) (body : String) (resolvedAt : Nat)
  | corrupt
  deriving DecidableEq

structure CacheEntry where
  value : CacheValue
  expiresAt : Nat

/- What Redis answers to a read. -/
def cacheGetRaw (cache : Option CacheEntry) (now : Nat) : Option CacheValue :=
  match cache with
  | some entry =>
    if now < entry.expiresAt then some entry.value else none
  | none => none

/- Commands that a request issues without awaiting them. -/
inductive CacheCommand where
  | cacheSetRaw (value : CacheValue)
  | cacheInvalidate
  deriving DecidableEq

inductive Phase where
  /- before the first attempt on the lock -/
  | arrived
  /- the lock is taken; the entry is read next -/
  | contended
  /- the entry is corrupt; it is deleted next -/
  | discarding
  /- a second attempt on the lock is next -/
  | reclaiming
  /- at the head of the polling loop -/
  | polling (startTime : Nat)
  | sleeping (startTime wakesAt : Nat)
  | executing
  /- the handler threw; an error response will follow -/
  | failing
  | responded (statusCode : Nat) (body : String)
  | replayed (statusCode : Nat) (body : String)
  /- answered by 409 `request_in_progress` -/
  | conflict
  | crashed
  deriving DecidableEq

/-
  A request, the commands it has issued, and the times at which
  it took the lock and its response was stored.
-/
structure Request where
  phase : Phase
  connected : Bool
  commands : List CacheCommand
  acquiredAt : Option Nat
  storedAt : Option Nat

def Request.new : Request where
  phase := .arrived
  connected := true
  commands := []
  acquiredAt := none
  storedAt := none

structure IdempotencyState where
  now : Nat
  cache : Option CacheEntry
  requests : List Request

/- Some requests on a key that is not in the cache. -/
def IdempotencyState.start (count : Nat) : IdempotencyState where
  now := 0
  cache := none
  requests := List.replicate count .new

-- Steps
----

/- What may happen to a request. -/
inductive Action where
  /- the middleware takes its next step -/
  | proceed
  /- the handler answers, or its response finishes -/
  | respond (statusCode : Nat) (body : String)
  /- the handler throws through the middleware -/
  | throws
  /- the connection closes -/
  | disconnect
  /- the cache carries out the oldest command -/
  | carryOut
  | crash

inductive Event where
  | act (i : Nat) (action : Action)
  | elapse (ms : Nat)

variable (options : IdempotencyOptions) (invalidates : Bool)

/-
  `cacheInvalidate` on this key.  A key with glob characters is
  expanded as a pattern, which need not match the key itself.
-/
def cacheInvalidate (cache : Option CacheEntry) : Option CacheEntry :=
  if invalidates then none else cache

/- `setNx` of the lock, and where the request goes from there. -/
def setNx (now : Nat) (cache : Option CacheEntry) (r : Request)
    (otherwise : Phase) : Option CacheEntry × Request :=
  match cacheGetRaw cache now with
  | some _ => (cache, { r with phase := otherwise })
  | none =>
    (some {
      value := .inProgress now
      expiresAt := now + options.inFlightTtlMs },
      { r with phase := .executing, acquiredAt := some now })

/- The next step of the middleware itself. -/
def proceed (now : Nat) (cache : Option CacheEntry)
    (r : Request) : Option (Option CacheEntry × Request) :=
  match r.phase with
  | .arrived => some (setNx options now cache r .contended)
  | .contended =>
    match cacheGetRaw cache now with
    | some (.resolved statusCode body _) =>
      some (cache, { r with phase := .replayed statusCode body })
    | some .corrupt => some (cache, { r with phase := .discarding })
    | _ => some (cache, { r with phase := .polling now })
  | .discarding => some (cacheInvalidate invalidates cache, { r with phase := .reclaiming })
  | .reclaiming => some (setNx options now cache r (.polling now))
  | .polling startTime =>
    if now - startTime < options.timeoutMs then
      some (cache, { r with
            phase := .sleeping startTime (now + options.pollIntervalMs) })
    else some (cache, { r with phase := .conflict })
  | .sleeping startTime wakesAt =>
    if wakesAt ≤ now then
      match cacheGetRaw cache now with
      | some (.resolved statusCode body _) =>
        some (cache, { r with phase := .replayed statusCode body })
      | some (.inProgress _) => some (cache, { r with phase := .polling startTime })
      | _ => some (cache, { r with phase := .conflict })
    else none
  | _ => none

/- `persistResult`: what is stored, or that nothing is. -/
def persistResult (now statusCode : Nat) (body : String) : CacheCommand :=
  if statusCode < 400 then
    .cacheSetRaw (.resolved statusCode body now)
  else .cacheInvalidate

/- The handler is running, on either side of a throw. -/
def Phase.isOpen : Phase → Bool
  | .executing => true
  | .failing => true
  | _ => false

/- Nothing is left to be done. -/
def Request.isSettled (r : Request) : Bool :=
  match r.phase with
  | .responded _ _ => r.commands.isEmpty
  | .replayed _ _ => true
  | .conflict => true
  | .crashed => true
  | _ => false

def act (now : Nat) (cache : Option CacheEntry) (r : Request) :
    Action → Option (Option CacheEntry × Request)
  | .proceed => proceed options invalidates now cache r
  | .respond statusCode body =>
    if r.phase.isOpen then
      some (cache, { r with
            phase := .responded statusCode body
            commands := r.commands ++ [persistResult now statusCode body] })
    else none
  | .throws =>
    if r.phase = .executing then
      some (cache, { r with
            phase := .failing
            commands := r.commands ++ [.cacheInvalidate] })
    else none
  | .disconnect =>
    if r.connected then
      some (cache, { r with
            connected := false
            commands :=
              -- `close` before the response has ended
              if r.phase.isOpen then
                r.commands ++ [.cacheInvalidate]
              else r.commands })
    else none
  | .carryOut =>
    match r.commands with
    | .cacheSetRaw value :: rest =>
      some (some { value, expiresAt := now + options.ttlMs },
        { r with commands := rest, storedAt := some now })
    | .cacheInvalidate :: rest =>
      some (cacheInvalidate invalidates cache, { r with commands := rest })
    | [] => none
  | .crash =>
    if r.isSettled then none
    else
      some (cache, { r with phase := .crashed, commands := [] })

def step (s : IdempotencyState) : Event → Option IdempotencyState
  | .act i action =>
    match s.requests[i]? with
    | some r =>
      (act options invalidates s.now s.cache r action).map fun result => { s with
            cache := result.1
            requests := s.requests.set i result.2 }
    | none => none
  | .elapse ms => some { s with now := s.now + ms }

/- The handler runs, or its result is not yet in the cache. -/
def Request.isRunning (r : Request) : Bool := r.phase = .executing || !r.commands.isEmpty

/-
  Runs in which no client disconnects from a running handler, no
  handler throws through the middleware, and no lock expires
  while its handler is running.
-/
def Undisrupted (s : IdempotencyState) : Event → Prop
  | .act i .disconnect => ∀ r, s.requests[i]? = some r → r.phase ≠ .executing
  | .act _ .throws => False
  | .act _ _ => True
  | .elapse ms =>
    ∀ (i : Nat) r, s.requests[i]? = some r → r.isRunning = true → ∀ acquiredAt,
      r.acquiredAt = some acquiredAt → s.now + ms < acquiredAt + options.inFlightTtlMs

end

-- Leases
----

section

/- Phases in which a request has not taken the lock. -/
def Phase.isOutside : Phase → Bool
  | .arrived => true
  | .contended => true
  | .polling _ => true
  | .sleeping _ _ => true
  | .replayed _ _ => true
  | .conflict => true
  | _ => false

theorem isOpen_of_isOutside {phase : Phase} (h : phase.isOutside = true) :
    phase.isOpen = false := by
  cases phase <;> first | rfl | cases h

/- The shapes that a request has in an undisrupted run. -/
inductive Stage : Request → Prop where
  | outside {phase : Phase} {connected : Bool} (hPhase : phase.isOutside = true) :
    Stage ⟨phase, connected, [], none, none⟩
  | executing {connected : Bool} (acquiredAt : Nat) :
    Stage ⟨.executing, connected, [], some acquiredAt, none⟩
  | storing {statusCode : Nat} {body : String} {connected : Bool} (acquiredAt resolvedAt : Nat)
    (hSuccess : statusCode < 400) :
    Stage ⟨.responded statusCode body, connected,
      [.cacheSetRaw (.resolved statusCode body resolvedAt)], some acquiredAt, none⟩
  | clearing {statusCode : Nat} {body : String} {connected : Bool} (acquiredAt : Nat)
    (hFailure : 400 ≤ statusCode) :
    Stage ⟨.responded statusCode body, connected, [.cacheInvalidate], some acquiredAt, none⟩
  | stored {statusCode : Nat} {body : String} {connected : Bool} (acquiredAt storedAt : Nat)
    (hSuccess : statusCode < 400) :
    Stage ⟨.responded statusCode body, connected, [], some acquiredAt, some storedAt⟩
  | cleared {statusCode : Nat} {body : String} {connected : Bool} (acquiredAt : Nat)
    (hFailure : 400 ≤ statusCode) :
    Stage ⟨.responded statusCode body, connected, [], some acquiredAt, none⟩
  | crashed {connected : Bool} (acquiredAt : Option Nat) :
    Stage ⟨.crashed, connected, [], acquiredAt, none⟩

theorem Stage.isOpen_of_ne {r : Request} (h : Stage r) (hNotExecuting : r.phase ≠ .executing) :
    r.phase.isOpen = false := by
  cases h with
  | outside hPhase => exact isOpen_of_isOutside hPhase
  | executing acquiredAt => exact absurd rfl hNotExecuting
  | _ => rfl

/- Until when a request keeps others from the lock. -/
def Request.lease (options : IdempotencyOptions) (r : Request) : Option Nat :=
  match r.storedAt, r.phase, r.commands with
  | some storedAt, _, _ => some (storedAt + options.ttlMs)
  | none, .responded _ _, [] => none
  | none, _, _ => r.acquiredAt.map (· + options.inFlightTtlMs)

def Request.Holds (options : IdempotencyOptions) (now : Nat) (r : Request) : Prop :=
  ∃ expiresAt, r.lease options = some expiresAt ∧ now < expiresAt

def Served (requests : List Request) (statusCode : Nat) (body : String) : Prop :=
  ∃ (i : Nat) (r : Request) (storedAt : Nat), requests[i]? = some r ∧
    r.phase = .responded statusCode body ∧ statusCode < 400 ∧ r.storedAt = some storedAt

/- What the cache may hold. -/
def Genuine (requests : List Request) : Option CacheEntry → Prop
  | none => True
  | some entry =>
    match entry.value with
    | .inProgress _ => True
    | .resolved statusCode body _ => Served requests statusCode body
    | .corrupt => False

/-
  The requests that hold the lock, or whose response is stored,
  are at most one, and the cache has its entry.
-/
structure Exclusive (options : IdempotencyOptions) (s : IdempotencyState) : Prop where
  staged : ∀ (i : Nat) r, s.requests[i]? = some r → Stage r
  unique :
    ∀ (i j : Nat) r r', s.requests[i]? = some r → s.requests[j]? = some r' → r.Holds options s.now →
      r'.Holds options s.now → i = j
  cached :
    ∀ (i : Nat) r, s.requests[i]? = some r → r.Holds options s.now → ∃ entry, s.cache = some entry ∧
      r.lease options = some entry.expiresAt
  running : ∀ (i : Nat) r, s.requests[i]? = some r → r.isRunning = true → r.Holds options s.now
  genuine : Genuine s.requests s.cache
  replayed :
    ∀ (i : Nat) r statusCode body, s.requests[i]? = some r → r.phase = .replayed statusCode body →
      Served s.requests statusCode body

variable {options : IdempotencyOptions} {now : Nat} {r : Request}

/- Why an earlier execution no longer stands in the way. -/
inductive Over (options : IdempotencyOptions) (now : Nat) (r : Request) : Prop where
  | failed {statusCode : Nat} {body : String} (hPhase : r.phase = .responded statusCode body)
    (hFailure : 400 ≤ statusCode)
  | crashed {acquiredAt : Nat} (hPhase : r.phase = .crashed)
    (hAcquired : r.acquiredAt = some acquiredAt)
    (hExpired : acquiredAt + options.inFlightTtlMs ≤ now)
  | expired {statusCode storedAt : Nat} {body : String}
    (hPhase : r.phase = .responded statusCode body) (hSuccess : statusCode < 400)
    (hStored : r.storedAt = some storedAt) (hExpired : storedAt + options.ttlMs ≤ now)

/- A request that took the lock and holds nothing is over. -/
theorem over_of_not_holds (hStage : Stage r) (hRunning : r.isRunning = true → r.Holds options now)
    (hAcquired : r.acquiredAt ≠ none) (hFree : ¬r.Holds options now) :
    Over options now r := by
  have hIdle : r.isRunning ≠ true := fun h => hFree (hRunning h)
  cases hStage with
  | outside hPhase => exact absurd rfl hAcquired
  | executing acquiredAt => exact absurd rfl hIdle
  | storing acquiredAt resolvedAt hSuccess => exact absurd rfl hIdle
  | clearing acquiredAt hFailure => exact absurd rfl hIdle
  | stored acquiredAt storedAt hSuccess =>
    refine .expired rfl hSuccess rfl ?_
    exact not_lt.mp fun hLater => hFree ⟨_, rfl, hLater⟩
  | cleared acquiredAt hFailure => exact .failed rfl hFailure
  | crashed acquiredAt =>
    cases acquiredAt with
    | none => exact absurd rfl hAcquired
    | some acquiredAt =>
      refine .crashed rfl rfl ?_
      exact not_lt.mp fun hLater => hFree ⟨_, rfl, hLater⟩

/- A held lease is seen by every read of the cache. -/
theorem Exclusive.visible {s : IdempotencyState} (h : Exclusive options s) {i : Nat}
    (hRequest : s.requests[i]? = some r) (hHolds : r.Holds options s.now) :
    cacheGetRaw s.cache s.now ≠ none := by
  rcases h.cached i r hRequest hHolds with ⟨entry, hCache, hLease⟩
  rcases hHolds with ⟨expiresAt, hSame, hLater⟩
  rw [hLease] at hSame
  cases hSame
  simp [hCache, cacheGetRaw, hLater]

/- What a read of the cache can find. -/
theorem Exclusive.not_corrupt {s : IdempotencyState} (h : Exclusive options s) :
    cacheGetRaw s.cache s.now ≠ some .corrupt := by
  intro hCorrupt
  have hGenuine := h.genuine
  unfold cacheGetRaw at hCorrupt
  cases hCache : s.cache with
  | none =>
    rw [hCache] at hCorrupt
    cases hCorrupt
  | some entry =>
    simp only [hCache] at hCorrupt
    rw [hCache] at hGenuine
    split at hCorrupt
    · have hValue := Option.some.inj hCorrupt
      simp [Genuine, hValue] at hGenuine
    · cases hCorrupt

theorem Exclusive.served_of_read {s : IdempotencyState} {statusCode resolvedAt : Nat}
    {body : String} (h : Exclusive options s)
    (hRead : cacheGetRaw s.cache s.now = some (.resolved statusCode body resolvedAt)) :
    Served s.requests statusCode body := by
  have hGenuine := h.genuine
  unfold cacheGetRaw at hRead
  cases hCache : s.cache with
  | none =>
    rw [hCache] at hRead
    cases hRead
  | some entry =>
    simp only [hCache] at hRead
    rw [hCache] at hGenuine
    split at hRead
    · have hValue := Option.some.inj hRead
      simpa [Genuine, hValue] using hGenuine
    · cases hRead

end

-- Preservation
----

section

variable {options : IdempotencyOptions} {invalidates : Bool} {s : IdempotencyState}
variable {cache' : Option CacheEntry} {i : Nat} {r r' : Request} {statusCode : Nat} {body : String}

theorem served_set {requests : List Request} (hRequest : requests[i]? = some r)
    (hKept : ∀ storedAt, r.storedAt = some storedAt → r'.phase = r.phase ∧ r'.storedAt = r.storedAt)
    (h : Served requests statusCode body) :
    Served (requests.set i r') statusCode body := by
  rcases h with ⟨j, other, storedAt, hOther, hPhase, hSuccess, hStored⟩
  by_cases hj : j = i
  · subst hj
    rw [hRequest] at hOther
    cases hOther
    rcases hKept storedAt hStored with ⟨hSame, hSameStored⟩
    refine ⟨j, r', storedAt, ?_, hSame.trans hPhase, hSuccess, hSameStored.trans hStored⟩
    exact List.getElem?_set_self (List.getElem?_eq_some_iff.mp hRequest).1
  · refine ⟨j, other, storedAt, ?_, hPhase, hSuccess, hStored⟩
    rw [List.getElem?_set_ne (Ne.symm hj)]
    exact hOther

/-
  One request moves.  Either it gains no hold and the cache is
  left alone, or nobody else holds anything.
-/
theorem exclusive_set (h : Exclusive options s) (hRequest : s.requests[i]? = some r)
    (hStage : Stage r')
    (hQuiet : (r'.Holds options s.now → r.Holds options s.now) ∧ cache' = s.cache ∨
      ∀ (j : Nat) other, j ≠ i → s.requests[j]? = some other → ¬other.Holds options s.now)
    (hCached : r'.Holds options s.now → ∃ entry, cache' = some entry ∧
      r'.lease options = some entry.expiresAt)
    (hRunning : r'.isRunning = true → r'.Holds options s.now)
    (hKept : ∀ storedAt, r.storedAt = some storedAt → r'.phase = r.phase ∧ r'.storedAt = r.storedAt)
    (hGenuine : Genuine (s.requests.set i r') cache') (hReplayed :
      ∀ statusCode body, r'.phase = .replayed statusCode body → Served s.requests statusCode body) :
    Exclusive options { s with
        cache := cache'
        requests := s.requests.set i r' } := by
  have hAlone : ∀ (j : Nat) other, j ≠ i → s.requests[j]? = some other → other.Holds options s.now →
      r'.Holds options s.now → False := by
    intro j other hj hOther hHolds hHolds'
    rcases hQuiet with ⟨hFewer, -⟩ | hNobody
    · exact hj (h.unique j i other r hOther hRequest hHolds (hFewer hHolds'))
    · exact hNobody j other hj hOther hHolds
  constructor
  · intro j other hOther
    rcases getElem?_set_cases hOther with ⟨rfl, rfl⟩ | ⟨-, hOld⟩
    · exact hStage
    · exact h.staged j other hOld
  · intro j k one other hOne hOther hHolds hOtherHolds
    rcases getElem?_set_cases hOne with ⟨rfl, rfl⟩ | ⟨hj, hOneOld⟩
    · rcases getElem?_set_cases hOther with ⟨rfl, rfl⟩ | ⟨hk, hOtherOld⟩
      · rfl
      · exact (hAlone k other hk hOtherOld hOtherHolds hHolds).elim
    · rcases getElem?_set_cases hOther with ⟨rfl, rfl⟩ | ⟨hk, hOtherOld⟩
      · exact (hAlone j one hj hOneOld hHolds hOtherHolds).elim
      · exact h.unique j k one other hOneOld hOtherOld hHolds hOtherHolds
  · intro j other hOther hHolds
    rcases getElem?_set_cases hOther with ⟨rfl, rfl⟩ | ⟨hj, hOld⟩
    · exact hCached hHolds
    · rcases hQuiet with ⟨-, hSame⟩ | hNobody
      · rw [hSame]
        exact h.cached j other hOld hHolds
      · exact (hNobody j other hj hOld hHolds).elim
  · intro j other hOther hRuns
    rcases getElem?_set_cases hOther with ⟨rfl, rfl⟩ | ⟨-, hOld⟩
    · exact hRunning hRuns
    · exact h.running j other hOld hRuns
  · exact hGenuine
  · intro j other statusCode body hOther hPhase
    apply served_set hRequest hKept
    rcases getElem?_set_cases hOther with ⟨rfl, rfl⟩ | ⟨-, hOld⟩
    · exact hReplayed statusCode body hPhase
    · exact h.replayed j other statusCode body hOld hPhase

theorem genuine_set (hRequest : s.requests[i]? = some r)
    (hKept : ∀ storedAt, r.storedAt = some storedAt → r'.phase = r.phase ∧ r'.storedAt = r.storedAt)
    (h : Genuine s.requests s.cache) :
    Genuine (s.requests.set i r') s.cache := by
  cases hCache : s.cache with
  | none => trivial
  | some entry =>
    rw [hCache] at h
    rcases entry with ⟨value, expiresAt⟩
    cases value with
    | inProgress startedAt => trivial
    | corrupt => exact h
    | resolved statusCode body resolvedAt => exact served_set hRequest hKept h

theorem exclusive_keep (h : Exclusive options s) (hRequest : s.requests[i]? = some r)
    (hStage : Stage r') (hLease : r'.lease options = none ∨ r'.lease options = r.lease options)
    (hRunning : r'.isRunning = true → r.isRunning = true ∧ r'.lease options = r.lease options)
    (hKept : ∀ storedAt, r.storedAt = some storedAt → r'.phase = r.phase ∧ r'.storedAt = r.storedAt)
    (hReplayed :
      ∀ statusCode body, r'.phase = .replayed statusCode body → Served s.requests statusCode body) :
    Exclusive options
      { s with requests := s.requests.set i r' } := by
  have hHolds : r'.Holds options s.now → r.Holds options s.now ∧
      r'.lease options = r.lease options := by
    rintro ⟨expiresAt, hSome, hLater⟩
    rcases hLease with hNone | hSame
    · rw [hNone] at hSome
      cases hSome
    · exact ⟨⟨expiresAt, hSame ▸ hSome, hLater⟩, hSame⟩
  refine exclusive_set h hRequest hStage (Or.inl ⟨fun hNew => (hHolds hNew).1, rfl⟩) ?_ ?_ hKept
    (genuine_set hRequest hKept h.genuine) hReplayed
  · intro hNew
    rcases hHolds hNew with ⟨hOld, hSame⟩
    rcases h.cached i r hRequest hOld with ⟨entry, hCache, hEntry⟩
    exact ⟨entry, hCache, hSame.trans hEntry⟩
  · intro hRuns
    rcases hRunning hRuns with ⟨hRan, hSame⟩
    rcases h.running i r hRequest hRan with ⟨expiresAt, hSome, hLater⟩
    exact ⟨expiresAt, hSame.trans hSome, hLater⟩

variable {phase : Phase} {connected : Bool}

/- A request outside the lock takes a step on its own. -/
theorem exclusive_outside (h : Exclusive options s) {phase' : Phase} (hRequest :
    s.requests[i]? = some ⟨phase, connected, [], none, none⟩) (hPhase : phase'.isOutside = true)
    (hReplayed :
      ∀ statusCode body, phase' = .replayed statusCode body → Served s.requests statusCode body) :
    Exclusive options { s with
        requests :=
          s.requests.set i
            ⟨phase', connected, [], none, none⟩ } := by
  have hNotExecuting : phase' ≠ .executing := by
    rintro rfl
    cases hPhase
  refine exclusive_keep h hRequest (.outside hPhase) (Or.inl ?_) ?_
    (fun storedAt hStored => by cases hStored) hReplayed
  · cases phase' <;> rfl
  · intro hRuns
    simp [Request.isRunning, hNotExecuting] at hRuns

/- The lock is taken when the cache has no entry. -/
theorem exclusive_acquire (h : Exclusive options s)
    (hRequest : s.requests[i]? = some ⟨phase, connected, [], none, none⟩)
    (hAbsent : cacheGetRaw s.cache s.now = none) :
    Exclusive options { s with
        cache := some {
          value := .inProgress s.now
          expiresAt := s.now + options.inFlightTtlMs }
        requests :=
          s.requests.set i
            ⟨.executing, connected, [], some s.now, none⟩ } := by
  refine exclusive_set h hRequest (.executing s.now) (Or.inr ?_) (fun _ => ⟨_, rfl, rfl⟩) ?_
    (fun storedAt hStored => by cases hStored) trivial
    (fun statusCode body hPhase => by cases hPhase)
  · intro j other _ hOther hHolds
    exact h.visible hOther hHolds hAbsent
  · intro _
    have hPositive := options.inFlightTtlPositive
    have hLater : s.now < s.now + options.inFlightTtlMs := by
      unfold IdempotencyOptions.inFlightTtlMs
      omega
    exact ⟨_, rfl, hLater⟩

theorem exclusive_proceed (h : Exclusive options s) (hRequest : s.requests[i]? = some r)
    (hStep : proceed options invalidates s.now s.cache r = some (cache', r')) :
    Exclusive options { s with
        cache := cache'
        requests := s.requests.set i r' } := by
  have hStage := h.staged i r hRequest
  cases hStage with
  | @outside phase connected hPhase =>
    cases phase with
    | arrived =>
      simp only [proceed, setNx] at hStep
      split at hStep
      · cases hStep
        exact exclusive_outside h hRequest rfl (by simp)
      · rename_i hAbsent
        cases hStep
        exact exclusive_acquire h hRequest hAbsent
    | contended =>
      simp only [proceed] at hStep
      split at hStep
      · rename_i statusCode body resolvedAt hRead
        cases hStep
        refine exclusive_outside h hRequest rfl ?_
        intro statusCode' body' hSame
        cases hSame
        exact h.served_of_read hRead
      · rename_i hRead
        exact absurd hRead h.not_corrupt
      · cases hStep
        exact exclusive_outside h hRequest rfl (by simp)
    | polling startTime =>
      simp only [proceed] at hStep
      split at hStep
      · cases hStep
        exact exclusive_outside h hRequest rfl (by simp)
      · cases hStep
        exact exclusive_outside h hRequest rfl (by simp)
    | sleeping startTime wakesAt =>
      simp only [proceed] at hStep
      split at hStep
      · split at hStep
        · rename_i statusCode body resolvedAt hRead
          cases hStep
          refine exclusive_outside h hRequest rfl ?_
          intro statusCode' body' hSame
          cases hSame
          exact h.served_of_read hRead
        · cases hStep
          exact exclusive_outside h hRequest rfl (by simp)
        · cases hStep
          exact exclusive_outside h hRequest rfl (by simp)
      · cases hStep
    | replayed statusCode body => cases hStep
    | conflict => cases hStep
    | discarding => cases hPhase
    | reclaiming => cases hPhase
    | executing => cases hPhase
    | failing => cases hPhase
    | responded statusCode body => cases hPhase
    | crashed => cases hPhase
  | _ => cases hStep

variable {acquiredAt : Nat}

/- The handler's answer. -/
theorem exclusive_respond (h : Exclusive options s) (hRequest :
    s.requests[i]? = some ⟨.executing, connected, [], some acquiredAt, none⟩) (statusCode : Nat)
    (body : String) :
    Exclusive options { s with
        requests :=
          s.requests.set i ⟨.responded statusCode body, connected,
            [persistResult s.now statusCode body],
            some acquiredAt, none⟩ } := by
  refine exclusive_keep h hRequest ?_ (Or.inr rfl) (fun _ => ⟨rfl, rfl⟩)
    (fun storedAt hStored => by cases hStored) (fun statusCode' body' hPhase => by cases hPhase)
  unfold persistResult
  split
  · rename_i hSuccess
    exact .storing acquiredAt s.now hSuccess
  · rename_i hFailure
    exact .clearing acquiredAt (not_lt.mp hFailure)

theorem exclusive_store (h : Exclusive options s) {resolvedAt : Nat} (hSuccess : statusCode < 400)
    (hRequest : s.requests[i]? = some ⟨.responded statusCode body, connected, [.cacheSetRaw
      (.resolved statusCode body resolvedAt)], some acquiredAt, none⟩) :
    Exclusive options { s with
        cache := some {
          value := .resolved statusCode body resolvedAt
          expiresAt := s.now + options.ttlMs }
        requests :=
          s.requests.set i ⟨.responded statusCode body, connected, [],
            some acquiredAt, some s.now⟩ } := by
  have hHeld := h.running i _ hRequest rfl
  refine exclusive_set h hRequest (.stored acquiredAt s.now hSuccess)
    (Or.inr ?_) (fun _ => ⟨_, rfl, rfl⟩) (fun hRuns => by cases hRuns)
    (fun storedAt hStored => by cases hStored) ?_
    (fun statusCode' body' hPhase => by cases hPhase)
  · intro j other hj hOther hHolds
    exact hj (h.unique j i other _ hOther hRequest hHolds hHeld)
  · have hBound := (List.getElem?_eq_some_iff.mp hRequest).1
    exact ⟨i, _, s.now, List.getElem?_set_self hBound, rfl, hSuccess, rfl⟩

theorem exclusive_clear (h : Exclusive options s) (hFailure : 400 ≤ statusCode)
    (hRequest : s.requests[i]? = some ⟨.responded statusCode body, connected,
      [.cacheInvalidate], some acquiredAt, none⟩) :
    Exclusive options { s with
        cache := cacheInvalidate invalidates s.cache
        requests :=
          s.requests.set i ⟨.responded statusCode body, connected, [],
            some acquiredAt, none⟩ } := by
  have hHeld := h.running i _ hRequest rfl
  refine exclusive_set h hRequest (.cleared acquiredAt hFailure)
    (Or.inr ?_) ?_ (fun hRuns => by cases hRuns) (fun storedAt hStored => by cases hStored) ?_
    (fun statusCode' body' hPhase => by cases hPhase)
  · intro j other hj hOther hHolds
    exact hj (h.unique j i other _ hOther hRequest hHolds hHeld)
  · rintro ⟨expiresAt, hLease, -⟩
    cases hLease
  · unfold cacheInvalidate
    split
    · trivial
    · exact genuine_set hRequest (fun storedAt hStored => by cases hStored) h.genuine

theorem exclusive_carryOut (h : Exclusive options s) (hRequest : s.requests[i]? = some r)
    (hStep : act options invalidates s.now s.cache r .carryOut = some (cache', r')) :
    Exclusive options { s with
        cache := cache'
        requests := s.requests.set i r' } := by
  have hStage := h.staged i r hRequest
  cases hStage with
  | storing acquiredAt resolvedAt hSuccess =>
    cases hStep
    exact exclusive_store h hSuccess hRequest
  | clearing acquiredAt hFailure =>
    cases hStep
    exact exclusive_clear h hFailure hRequest
  | _ => cases hStep

/- A disconnect that issues no command. -/
theorem exclusive_disconnect (h : Exclusive options s) (hRequest : s.requests[i]? = some r) :
    Exclusive options { s with
        requests :=
          s.requests.set i { r with connected := false } } := by
  have hStage := h.staged i r hRequest
  refine exclusive_keep h hRequest ?_ (Or.inr ?_) ?_ (fun _ _ => ⟨rfl, rfl⟩) ?_
  · cases hStage with
    | outside hPhase => exact .outside hPhase
    | executing acquiredAt => exact .executing acquiredAt
    | storing acquiredAt resolvedAt hSuccess => exact .storing acquiredAt resolvedAt hSuccess
    | clearing acquiredAt hFailure => exact .clearing acquiredAt hFailure
    | stored acquiredAt storedAt hSuccess => exact .stored acquiredAt storedAt hSuccess
    | cleared acquiredAt hFailure => exact .cleared acquiredAt hFailure
    | crashed acquiredAt => exact .crashed acquiredAt
  · rfl
  · exact fun hRuns => ⟨hRuns, rfl⟩
  · intro statusCode body hPhase
    exact h.replayed i r statusCode body hRequest hPhase

theorem exclusive_crash (h : Exclusive options s) (hRequest : s.requests[i]? = some r)
    (hLive : r.isSettled = false) :
    Exclusive options { s with
        requests :=
          s.requests.set i
            { r with phase := .crashed, commands := [] } } := by
  have hStage := h.staged i r hRequest
  refine exclusive_keep h hRequest ?_ (Or.inr ?_) (fun hRuns => by cases hRuns) ?_
    (fun statusCode body hPhase => by cases hPhase)
  · cases hStage with
    | outside hPhase => exact .crashed none
    | stored acquiredAt storedAt hSuccess => cases hLive
    | cleared acquiredAt hFailure => cases hLive
    | crashed acquiredAt => cases hLive
    | executing acquiredAt => exact .crashed _
    | storing acquiredAt resolvedAt hSuccess => exact .crashed _
    | clearing acquiredAt hFailure => exact .crashed _
  · cases hStage with
    | @outside phase connected hPhase => cases phase <;> rfl
    | stored acquiredAt storedAt hSuccess => cases hLive
    | cleared acquiredAt hFailure => cases hLive
    | _ => rfl
  · intro storedAt hStored
    cases hStage with
    | stored acquiredAt storedAt hSuccess => cases hLive
    | _ => cases hStored

/- Time that passes only ends leases. -/
theorem exclusive_elapse (h : Exclusive options s) {ms : Nat}
    (hAllowed : Undisrupted options s (.elapse ms)) :
    Exclusive options { s with now := s.now + ms } := by
  have hHolds : ∀ r : Request, r.Holds options (s.now + ms) → r.Holds options s.now := by
    rintro r ⟨expiresAt, hLease, hLater⟩
    exact ⟨expiresAt, hLease, by omega⟩
  constructor
  · exact h.staged
  · intro j k one other hOne hOther hHold hOtherHold
    exact h.unique j k one other hOne hOther (hHolds _ hHold) (hHolds _ hOtherHold)
  · intro j other hOther hHold
    exact h.cached j other hOther (hHolds _ hHold)
  · intro j other hOther hRuns
    have hInTime := hAllowed j other hOther hRuns
    have hStage := h.staged j other hOther
    cases hStage with
    | @outside phase connected hPhase =>
      have hExecuting : phase = .executing := by simpa [Request.isRunning] using hRuns
      rw [hExecuting] at hPhase
      cases hPhase
    | executing acquiredAt => exact ⟨_, rfl, hInTime acquiredAt rfl⟩
    | storing acquiredAt resolvedAt hSuccess => exact ⟨_, rfl, hInTime acquiredAt rfl⟩
    | clearing acquiredAt hFailure => exact ⟨_, rfl, hInTime acquiredAt rfl⟩
    | _ => cases hRuns
  · exact h.genuine
  · exact h.replayed

theorem exclusive_start (options : IdempotencyOptions) (count : Nat) :
    Exclusive options (.start count) := by
  have hNew : ∀ (i : Nat) r, (IdempotencyState.start count).requests[i]? = some r → r = .new := by
    intro i r hRequest
    exact List.eq_of_mem_replicate (List.mem_of_getElem? hRequest)
  have hNoHold : ∀ now, ¬Request.new.Holds options now := by
    rintro now ⟨expiresAt, hLease, -⟩
    cases hLease
  constructor
  · intro i r hRequest
    rw [hNew i r hRequest]
    exact .outside rfl
  · intro i j r r' hRequest hRequest' hHolds
    rw [hNew i r hRequest] at hHolds
    exact (hNoHold _ hHolds).elim
  · intro i r hRequest hHolds
    rw [hNew i r hRequest] at hHolds
    exact (hNoHold _ hHolds).elim
  · intro i r hRequest hRuns
    rw [hNew i r hRequest] at hRuns
    cases hRuns
  · trivial
  · intro i r statusCode body hRequest hPhase
    rw [hNew i r hRequest] at hPhase
    cases hPhase

theorem exclusive_step {s' : IdempotencyState} {event : Event} (h : Exclusive options s)
    (hAllowed : Undisrupted options s event) (hStep : step options invalidates s event = some s') :
    Exclusive options s' := by
  cases event with
  | elapse ms =>
    cases hStep
    exact exclusive_elapse h hAllowed
  | act i action =>
    simp only [step] at hStep
    split at hStep
    · rename_i r hRequest
      rcases Option.map_eq_some_iff.mp hStep with ⟨⟨cache', r'⟩, hAct, rfl⟩
      cases action with
      | proceed => exact exclusive_proceed h hRequest hAct
      | carryOut => exact exclusive_carryOut h hRequest hAct
      | throws => exact hAllowed.elim
      | respond statusCode body =>
        have hStage := h.staged i r hRequest
        cases hStage with
        | executing acquiredAt =>
          cases hAct
          exact exclusive_respond h hRequest _ _
        | outside hPhase => simp [act, isOpen_of_isOutside hPhase] at hAct
        | _ => cases hAct
      | disconnect =>
        have hClosed : r.phase.isOpen = false :=
          (h.staged i r hRequest).isOpen_of_ne (hAllowed r hRequest)
        simp only [act, hClosed] at hAct
        split at hAct
        · cases hAct
          exact exclusive_disconnect h hRequest
        · cases hAct
      | crash =>
        simp only [act] at hAct
        split at hAct
        · cases hAct
        · rename_i hLive
          cases hAct
          exact exclusive_crash h hRequest (by simpa using hLive)
    · cases hStep

end

-- Exclusion
----

variable {options : IdempotencyOptions} {invalidates : Bool} {s s' : IdempotencyState}
variable {r r' : Request} {cache' : Option CacheEntry}

theorem absent_of_setNx {now : Nat} {cache : Option CacheEntry} {taken : Phase}
    (hTaken : taken ≠ .executing)
    (hSet : some (setNx options now cache r taken) = some (cache', r'))
    (hExecuting : r'.phase = .executing) :
    cacheGetRaw cache now = none := by
  unfold setNx at hSet
  split at hSet
  · cases hSet
    exact absurd hExecuting hTaken
  · assumption

/- Only a request that finds no entry starts to execute. -/
theorem absent_of_proceed (hStep : proceed options invalidates s.now s.cache r = some (cache', r'))
    (hExecuting : r'.phase = .executing) :
    cacheGetRaw s.cache s.now = none := by
  unfold proceed at hStep
  split at hStep
  · exact absent_of_setNx (by rintro ⟨⟩) hStep hExecuting
  · split at hStep <;> cases hStep <;> cases hExecuting
  · cases hStep
    cases hExecuting
  · exact absent_of_setNx (by rintro ⟨⟩) hStep hExecuting
  · split at hStep <;> cases hStep <;> cases hExecuting
  · split at hStep
    · split at hStep <;> cases hStep <;> cases hExecuting
    · cases hStep
  · cases hStep

theorem absent_of_act {action : Action}
    (hStep : act options invalidates s.now s.cache r action = some (cache', r'))
    (hBefore : r.phase ≠ .executing) (hExecuting : r'.phase = .executing) :
    cacheGetRaw s.cache s.now = none := by
  cases action with
  | proceed => exact absent_of_proceed hStep hExecuting
  | respond statusCode body =>
    simp only [act] at hStep
    split at hStep
    · cases hStep
      cases hExecuting
    · cases hStep
  | throws =>
    simp only [act] at hStep
    split at hStep
    · cases hStep
      cases hExecuting
    · cases hStep
  | disconnect =>
    simp only [act] at hStep
    split at hStep
    · cases hStep
      exact absurd hExecuting hBefore
    · cases hStep
  | carryOut =>
    simp only [act] at hStep
    split at hStep
    · cases hStep
      exact absurd hExecuting hBefore
    · cases hStep
      exact absurd hExecuting hBefore
    · cases hStep
  | crash =>
    simp only [act] at hStep
    split at hStep
    · cases hStep
    · cases hStep
      cases hExecuting

/- The event after which a request executes. -/
def Starts (s s' : IdempotencyState) (j : Nat) : Prop :=
  ∃ r r', s.requests[j]? = some r ∧ s'.requests[j]? = some r' ∧
    r.phase ≠ .executing ∧ r'.phase = .executing

theorem absent_of_starts {event : Event} {j : Nat}
    (hStep : step options invalidates s event = some s') (hStarts : Starts s s' j) :
    cacheGetRaw s.cache s.now = none := by
  rcases hStarts with ⟨r, r', hRequest, hRequest', hBefore, hExecuting⟩
  cases event with
  | elapse ms =>
    cases hStep
    cases hRequest.symm.trans hRequest'
    exact absurd hExecuting hBefore
  | act i action =>
    simp only [step] at hStep
    split at hStep
    · rename_i moved hMoved
      rcases Option.map_eq_some_iff.mp hStep with ⟨⟨cache', result⟩, hAct, rfl⟩
      rcases getElem?_set_cases hRequest' with ⟨rfl, rfl⟩ | ⟨-, hOld⟩
      · cases hRequest.symm.trans hMoved
        exact absent_of_act hAct hBefore hExecuting
      · cases hRequest.symm.trans hOld
        exact absurd hExecuting hBefore
    · cases hStep

/-
  In undisrupted runs, a request starts to execute only when
  every earlier execution has failed, has crashed and its lock
  has expired, or has succeeded and its stored response has
  expired.  A request that takes no lock ends in a conflict or
  replays a stored response, unless it crashes.
-/
theorem executions_exclusive {count : Nat} {events : List Event}
    (hRun : RunsTo (step options invalidates) (Undisrupted options) (.start count) events s) :
    (∀ event s' j, step options invalidates s event = some s' → Starts s s' j →
      ∀ (i : Nat) earlier, s.requests[i]? = some earlier → earlier.acquiredAt ≠ none →
        Over options s.now earlier) ∧ ∀ (i : Nat) r, s.requests[i]? = some r →
      r.acquiredAt = none → r.isSettled = true → r.phase = .conflict ∨ r.phase = .crashed ∨
        ∃ statusCode body, r.phase = .replayed statusCode body ∧
          Served s.requests statusCode body := by
  have h : Exclusive options s :=
    RunsTo.invariant (exclusive_start options count) (fun _ _ _ hInv hAllowed hStep =>
      exclusive_step hInv hAllowed hStep) hRun
  constructor
  · intro event s' j hStep hStarts i earlier hEarlier hAcquired
    have hAbsent := absent_of_starts hStep hStarts
    apply over_of_not_holds (h.staged i earlier hEarlier) (h.running i earlier hEarlier) hAcquired
    exact fun hHolds => h.visible hEarlier hHolds hAbsent
  · intro i r hRequest hOutside hSettled
    have hStage := h.staged i r hRequest
    cases hStage with
    | @outside phase connected hPhase =>
      cases phase with
      | conflict => exact Or.inl rfl
      | replayed statusCode body =>
        exact Or.inr (Or.inr ⟨statusCode, body, rfl, h.replayed i _ statusCode body hRequest rfl⟩)
      | responded statusCode body => cases hPhase
      | crashed => cases hPhase
      | _ => cases hSettled
    | crashed acquiredAt => exact Or.inr (Or.inl rfl)
    | _ => cases hOutside

/- The first of two requests answers, its response is stored, and a day passes. -/
def dayLater : IdempotencyState where
  now := 24 * 60 * 60 * 1000
  cache := some {
    value := .resolved 200 "ok" 0
    expiresAt := 24 * 60 * 60 * 1000 }
  requests :=
    [{ phase := .responded 200 "ok"
       connected := true
       commands := []
       acquiredAt := some 0
       storedAt := some 0 }, .new]

theorem dayLater_reached :
    RunsTo (step {} true) (Undisrupted {}) (.start 2) [.act 0 .proceed, .act 0 (.respond 200 "ok"),
      .act 0 .carryOut, .elapse (24 * 60 * 60 * 1000)] dayLater := by
  have hAcquire : RunsTo (step {} true) (Undisrupted {}) (.start 2) [.act 0 .proceed] _ :=
    RunsTo.step .start trivial rfl
  have hRespond : RunsTo (step {} true) (Undisrupted {}) (.start 2)
      [.act 0 .proceed, .act 0 (.respond 200 "ok")] _ :=
    hAcquire.step trivial rfl
  have hStore : RunsTo (step {} true) (Undisrupted {}) (.start 2)
      [.act 0 .proceed, .act 0 (.respond 200 "ok"), .act 0 .carryOut] _ :=
    hRespond.step trivial rfl
  refine hStore.step ?_ rfl
  intro i r hRequest hRuns
  cases i with
  | zero =>
    cases hRequest
    cases hRuns
  | succ i =>
    cases i with
    | zero =>
      cases hRequest
      cases hRuns
    | succ i => cases hRequest

/- What the second execution finds when it starts. -/
theorem executions_exclusive_sample :
    ∃ earlier, dayLater.requests[0]? = some earlier ∧ Over {} dayLater.now earlier := by
  refine ⟨_, rfl, ?_⟩
  exact (executions_exclusive dayLater_reached).1 (.act 1 .proceed)
    _ 1 rfl ⟨_, _, rfl, rfl, by decide, rfl⟩ 0 _ rfl (by decide)

/- It starts, although the first execution has succeeded. -/
theorem day_apart_executes_twice :
    ∃ events s earlier later, RunsTo (step {} true) (Undisrupted {}) (.start 2) events s ∧
      s.requests[0]? = some earlier ∧ earlier.phase = .responded 200 "ok" ∧
      s.requests[1]? = some later ∧
      later.phase = .executing := by
  exact ⟨_, _, _, _, RunsTo.step (l := Event.act 1 .proceed) dayLater_reached trivial rfl,
    rfl, rfl, rfl, rfl⟩

end Middlewares

end AccessLayer
