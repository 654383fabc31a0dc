import AccessLayer.Library.Runs
import Mathlib.Data.Int.Notation
import Mathlib.Data.Nat.Notation
import Mathlib.Logic.Function.Basic

/-
  The buy cooldown of a wallet on a key
  (`src/middlewares/buy-cooldown.middleware.ts`,
  `src/modules/keys/key-cooldown.service.ts`,
  `src/modules/creator/buy.controller.ts`).

  Times are milliseconds of one clock.  Redis is available and
  drops an entry when its time to live is over.  What the indexed
  trades, the indexed head and the cache of statuses answer is
  given, so that the indexer may lag by any amount.  Requests
  have passed the checks of their route; the other checks of the
  handler may refuse them.

  Main result: `buys_spaced`
-/

-- Cooldowns
----

namespace AccessLayer

namespace Keys

namespace BuyCooldown

section

structure CreatorProfile where
  id : String
  handle : String
  cooldownLedgers : ℤ
  deriving DecidableEq

/- Approximate seconds of a ledger. -/
def secondsPerLedger : ℤ := 5

def findCreator (creators : List CreatorProfile) (keyId : String) : Option CreatorProfile :=
  creators.find? fun creator => creator.id = keyId || creator.handle = keyId

def CreatorProfile.cooldownSeconds (creator : CreatorProfile) : ℤ :=
  max 0 (creator.cooldownLedgers * secondsPerLedger)

/- `none` where the key is not found. -/
def getCooldownDurationSeconds (creators : List CreatorProfile) (keyId : String) : Option ℤ :=
  (findCreator creators keyId).map CreatorProfile.cooldownSeconds

/- `toLowerCase`, for names and wallets, which are ASCII text. -/
def toLowerCase (text : String) : String := String.ofList (text.toList.map Char.toLower)

def buildBuyCooldownRedisKey (keyId walletAddress : String) : String :=
  "buy-cooldown:" ++ toLowerCase walletAddress ++ ":" ++ toLowerCase keyId

/- The fields of a status that the middleware reads. -/
structure KeyCooldownStatus where
  cooldownActive : Bool
  unlockEstimatedAt : Option ℤ
  remainingSeconds : ℤ

/- The cached status, the last buy's ledger and the indexed one. -/
structure StatusReads where
  cached : Option KeyCooldownStatus
  lastBuy : Option ℤ
  indexed : Option ℤ

def inactiveStatus : KeyCooldownStatus where
  cooldownActive := false
  unlockEstimatedAt := none
  remainingSeconds := 0

def statusByLedgers (now cooldownLedgers lastBuy indexed : ℤ) :
    KeyCooldownStatus :=
  let remainingLedgers := lastBuy + cooldownLedgers - indexed
  if remainingLedgers ≤ 0 then inactiveStatus
  else
    { cooldownActive := true
      unlockEstimatedAt := some (now + remainingLedgers * secondsPerLedger * 1000)
      remainingSeconds := remainingLedgers * secondsPerLedger }

/- `none` where the key is not found. -/
def getKeyCooldown (creators : List CreatorProfile) (now : ℤ) (keyId : String)
    (reads : StatusReads) : Option KeyCooldownStatus :=
  (findCreator creators keyId).map fun creator =>
    match reads.cached with
    | some status => status
    | none =>
      if creator.cooldownLedgers ≤ (0 : ℤ) then inactiveStatus
      else
        match reads.lastBuy, reads.indexed with
        | some lastBuy, some indexed => statusByLedgers now creator.cooldownLedgers lastBuy indexed
        | _, _ => inactiveStatus

-- Requests
----

structure BuyRequest where
  walletAddress : String
  keyId : String

def BuyRequest.redisKey (request : BuyRequest) : String :=
  buildBuyCooldownRedisKey request.keyId request.walletAddress

/- What a request does next. -/
inductive BuyStage where
  /- reads its Redis key -/
  | begun
  /- deletes the entry, which is over -/
  | stale
  /- looks the cooldown up in the database -/
  | looking
  /- stores the cooldown of the database, and is refused -/
  | warming (expiresAt seconds : ℤ)
  /- has passed the middleware -/
  | allowed
  /- calls `submitBuy` -/
  | cleared
  /- looks the duration of the cooldown up -/
  | bought
  /- stores the cooldown of its buy -/
  | recording (expiresAt seconds : ℤ)
  | ended

/- The cooldown is read, and no buy is submitted. -/
def BuyStage.undecided : BuyStage → Bool
  | .stale | .looking | .warming _ _ | .allowed | .cleared => true
  | _ => false

/- The buy is submitted, and its cooldown is not stored. -/
def BuyStage.unrecorded : BuyStage → Bool
  | .bought | .recording _ _ => true
  | _ => false

def BuyStage.isOpen (stage : BuyStage) : Bool := stage.undecided || stage.unrecorded

structure BuyCall where
  request : BuyRequest
  stage : BuyStage

/- A call of `submitBuy`. -/
structure Submission where
  request : BuyRequest
  time : ℤ

/- The expiry that is stored, and when Redis drops it. -/
structure CooldownEntry where
  expiresAt : ℤ
  droppedAt : ℤ

structure BuyWorld where
  clock : ℤ
  redis : String → Option CooldownEntry
  submitted : List Submission
  calls : List BuyCall

def BuyWorld.start (clock : ℤ) (requests : List BuyRequest) : BuyWorld where
  clock := clock
  redis _ := none
  submitted := []
  calls := requests.map fun request => { request, stage := .begun }

/-
  A request takes its next step; `served` is whether its query,
  the checks or the submission succeed.
-/
inductive BuyMove where
  | advance (ms : ℕ)
  | act (i : ℕ) (served : Bool) (reads : StatusReads)
  | crash (i : ℕ)

namespace BuyWorld

variable (world : BuyWorld)

/- The entry that a GET finds. -/
def entryOf (redisKey : String) : Option CooldownEntry :=
  (world.redis redisKey).filter fun entry => world.clock < entry.droppedAt

def setStage (i : ℕ) (call : BuyCall) (stage : BuyStage) : BuyWorld :=
  { world with calls := world.calls.set i { call with stage } }

def setKey (redisKey : String) (entry : Option CooldownEntry) : BuyWorld :=
  { world with
    redis := Function.update world.redis redisKey entry }

/- A SET with a time to live in seconds. -/
def store (redisKey : String) (expiresAt seconds : ℤ) : BuyWorld :=
  world.setKey redisKey (some { expiresAt, droppedAt := world.clock + seconds * 1000 })

def submit (request : BuyRequest) : BuyWorld :=
  { world with
    submitted := world.submitted ++ [{ request, time := world.clock }] }

/- The GET of `getBuyCooldownStatus`. -/
def readStage (request : BuyRequest) : BuyStage :=
  match world.entryOf request.redisKey with
  | none => .looking
  | some entry =>
    if 0 < entry.expiresAt - world.clock then .ended else .stale

/- What is found in the database; an error lets a request pass. -/
def statusStage (creators : List CreatorProfile) (request : BuyRequest) (served : Bool)
    (reads : StatusReads) : BuyStage :=
  if served then
    match getKeyCooldown creators world.clock request.keyId reads with
    | none => .allowed
    | some status =>
      match status.cooldownActive, status.unlockEstimatedAt with
      | true, some expiresAt => .warming expiresAt (max 1 status.remainingSeconds)
      | _, _ => .allowed
  else .allowed

/- `setBuyCooldownForWallet`, up to its SET. -/
def durationStage (creators : List CreatorProfile) (request : BuyRequest)
    (served : Bool) : BuyStage :=
  match getCooldownDurationSeconds creators request.keyId with
  | none => .ended
  | some durationSeconds =>
    if served = false ∨ durationSeconds ≤ 0 then .ended
    else
      .recording (world.clock + durationSeconds * 1000) durationSeconds

def act (creators : List CreatorProfile) (i : ℕ) (call : BuyCall) (served : Bool)
    (reads : StatusReads) : Option BuyWorld :=
  let request := call.request
  match call.stage with
  | .begun => some (world.setStage i call (world.readStage request))
  | .stale => some ((world.setKey request.redisKey none).setStage i call .looking)
  | .looking => some (world.setStage i call (world.statusStage creators request served reads))
  | .warming expiresAt seconds =>
    some ((world.store request.redisKey expiresAt seconds).setStage i call .ended)
  | .allowed => some (world.setStage i call (if served then .cleared else .ended))
  | .cleared => some ((world.submit request).setStage i call (if served then .bought else .ended))
  | .bought => some (world.setStage i call (world.durationStage creators request served))
  | .recording expiresAt seconds =>
    some ((world.store request.redisKey expiresAt seconds).setStage i call .ended)
  | .ended => none

def step (creators : List CreatorProfile) (world : BuyWorld) : BuyMove → Option BuyWorld
  | .advance ms => some { world with clock := world.clock + ms }
  | .act i served reads =>
    match world.calls[i]? with
    | some call => world.act creators i call served reads
    | none => none
  | .crash i =>
    match world.calls[i]? with
    | some call => some (world.setStage i call .ended)
    | none => none

end BuyWorld

/- The key that a name stands for, or a name of no key. -/
def keyOf (creators : List CreatorProfile) (keyId : String) : String ⊕ CreatorProfile :=
  match findCreator creators keyId with
  | some creator => .inr creator
  | none => .inl keyId

def SameKey (creators : List CreatorProfile) (one other : BuyRequest) : Prop :=
  one.walletAddress = other.walletAddress ∧ keyOf creators one.keyId = keyOf creators other.keyId

instance (creators : List CreatorProfile) (one other : BuyRequest) :
    Decidable (SameKey creators one other) := inferInstanceAs (Decidable (_ ∧ _))

/- The configured cooldown in milliseconds, zero for no key. -/
def cooldownMs (creators : List CreatorProfile) (keyId : String) : ℤ :=
  match keyOf creators keyId with
  | .inr creator => creator.cooldownSeconds * 1000
  | .inl _ => 0

/- Buys of a wallet and key are a cooldown apart. -/
def Spaced (creators : List CreatorProfile) (submitted : List Submission) : Prop :=
  submitted.Pairwise fun earlier later => SameKey creators earlier.request later.request →
    earlier.time + cooldownMs creators later.request.keyId ≤ later.time

instance (creators : List CreatorProfile) (submitted : List Submission) :
    Decidable (Spaced creators submitted) := inferInstanceAs (Decidable (List.Pairwise _ _))

/- Requests share a Redis key for the same wallet and key only. -/
def Named (creators : List CreatorProfile) (requests : List BuyRequest) : Prop :=
  ∀ one ∈ requests, ∀ other ∈ requests, SameKey creators one other ↔ one.redisKey = other.redisKey

instance (creators : List CreatorProfile) (requests : List BuyRequest) :
    Decidable (Named creators requests) := by
  unfold Named
  infer_instance

/-
  A request reads its cooldown while no other one of its wallet
  and key is between its read and its record; a buy that is
  submitted is answered, and recorded.
-/
def Orderly (creators : List CreatorProfile) (world : BuyWorld) : BuyMove → Prop
  | .advance _ => True
  | .act i served _ =>
    ∀ call ∈ world.calls[i]?,
      match call.stage with
      | .begun =>
        ∀ other ∈ world.calls, other.stage.isOpen = true →
          ¬SameKey creators call.request other.request
      | .cleared => served = true
      | .bought => served = true
      | _ => True
  | .crash i => ∀ call ∈ world.calls[i]?, call.stage.unrecorded = false

instance (creators : List CreatorProfile) (world : BuyWorld) (move : BuyMove) :
    Decidable (Orderly creators world move) := by
  unfold Orderly
  split
  · infer_instance
  · have (call : BuyCall) (served : Bool) : Decidable (match call.stage with
        | .begun =>
          ∀ other ∈ world.calls, other.stage.isOpen = true →
            ¬SameKey creators call.request other.request
        | .cleared => served = true
        | .bought => served = true
        | _ => True) := by
      split <;> infer_instance
    infer_instance
  · infer_instance

end

-- What a Run Keeps
----

section

open Transactional

/- The end of a buy's cooldown. -/
def Submission.over (creators : List CreatorProfile) (submission : Submission) : ℤ :=
  submission.time + cooldownMs creators submission.request.keyId

/- Redis holds an expiry for the whole cooldown of a buy. -/
def Recorded (creators : List CreatorProfile) (world : BuyWorld) (submission : Submission) : Prop :=
  ∃ entry ∈ world.redis submission.request.redisKey, submission.over creators ≤ entry.expiresAt ∧
    submission.over creators ≤ entry.droppedAt

/-
  Of a wallet and key, at most one request is open.  While it has
  not submitted, all earlier cooldowns are over; later, it will
  record one that ends last.
-/
structure Kept (creators : List CreatorProfile) (requests : List BuyRequest)
    (world : BuyWorld) : Prop where
  known : ∀ call ∈ world.calls, call.request ∈ requests
  origin :
    ∀ submission ∈ world.submitted, submission.request ∈ requests ∧ submission.time ≤ world.clock
  alone : ∀ (i j : ℕ) one other, world.calls[i]? = some one → world.calls[j]? = some other →
    one.stage.isOpen = true → other.stage.isOpen = true →
    SameKey creators one.request other.request → i = j
  past : ∀ call ∈ world.calls, call.stage.undecided = true → ∀ submission ∈ world.submitted,
    SameKey creators call.request submission.request → submission.over creators ≤ world.clock
  recording : ∀ call ∈ world.calls, ∀ expiresAt seconds, call.stage = .recording expiresAt seconds →
    cooldownMs creators call.request.keyId ≤ seconds * 1000 ∧ ∀ submission ∈ world.submitted,
      SameKey creators call.request submission.request → submission.over creators ≤ expiresAt
  covered : ∀ submission ∈ world.submitted, world.clock < submission.over creators →
    Recorded creators world submission ∨ ∃ call ∈ world.calls, call.stage.unrecorded = true ∧
      SameKey creators call.request submission.request
  spaced : Spaced creators world.submitted

variable {creators : List CreatorProfile} {requests : List BuyRequest} {world : BuyWorld}
variable {one other request : BuyRequest} {i : ℕ} {call : BuyCall} {stage : BuyStage}

theorem SameKey.symm (hSame : SameKey creators one other) : SameKey creators other one :=
  ⟨hSame.1.symm, hSame.2.symm⟩

theorem SameKey.trans (hSame : SameKey creators one other)
    (hNext : SameKey creators other request) : SameKey creators one request :=
  ⟨hSame.1.trans hNext.1, hSame.2.trans hNext.2⟩

theorem cooldownMs_congr (hSame : SameKey creators one other) :
    cooldownMs creators one.keyId = cooldownMs creators other.keyId := by
  rw [cooldownMs, cooldownMs, hSame.2]

theorem cooldownMs_eq (creators : List CreatorProfile) (keyId : String) :
    cooldownMs creators keyId = (getCooldownDurationSeconds creators keyId).getD 0 * 1000 := by
  unfold cooldownMs keyOf getCooldownDurationSeconds
  cases findCreator creators keyId with
  | none => rfl
  | some creator => rfl

theorem isOpen_of_undecided (hUndecided : stage.undecided = true) : stage.isOpen = true := by
  rw [BuyStage.isOpen, hUndecided, Bool.true_or]

theorem isOpen_of_unrecorded (hUnrecorded : stage.unrecorded = true) : stage.isOpen = true := by
  rw [BuyStage.isOpen, hUnrecorded, Bool.or_true]

theorem mem_setStage {after : BuyCall} (hAfter : after ∈ (world.setStage i call stage).calls) :
    after = { call with stage } ∨ after ∈ world.calls := by
  rcases List.mem_or_eq_of_mem_set hAfter with hOld | hNew
  · exact Or.inr hOld
  · exact Or.inl hNew

theorem Kept.alone_setStage (hKept : Kept creators requests world)
    (hCall : world.calls[i]? = some call) (hOpens : stage.isOpen = true → call.stage.isOpen = true ∨
      ∀ other ∈ world.calls, other.stage.isOpen = true →
        ¬SameKey creators call.request other.request) :
    ∀ (j k : ℕ) one other, (world.setStage i call stage).calls[j]? = some one →
      (world.setStage i call stage).calls[k]? = some other →
      one.stage.isOpen = true → other.stage.isOpen = true →
      SameKey creators one.request other.request → j = k := by
  have hNew (k : ℕ) (other : BuyCall) (hNe : k ≠ i) (hOther : world.calls[k]? = some other)
      (hOpen : stage.isOpen = true) (hOtherOpen : other.stage.isOpen = true) :
      ¬SameKey creators call.request other.request := by
    rcases hOpens hOpen with hWasOpen | hAlone
    · intro hSame
      exact hNe (hKept.alone i k call other hCall hOther hWasOpen hOtherOpen hSame).symm
    · exact hAlone other (List.mem_of_getElem? hOther) hOtherOpen
  intro j k one other hOne hOther hOneOpen hOtherOpen hSame
  rcases getElem?_set_cases hOne with ⟨rfl, rfl⟩ | ⟨hj, hOneOld⟩
  · rcases getElem?_set_cases hOther with ⟨rfl, -⟩ | ⟨hk, hOtherOld⟩
    · rfl
    · exact absurd hSame (hNew k other hk hOtherOld hOneOpen hOtherOpen)
  · rcases getElem?_set_cases hOther with ⟨rfl, rfl⟩ | ⟨-, hOtherOld⟩
    · exact absurd hSame.symm (hNew j one hj hOneOld hOtherOpen hOneOpen)
    · exact hKept.alone j k one other hOneOld hOtherOld hOneOpen hOtherOpen hSame

end

-- Steps
----

section

open Transactional

variable {creators : List CreatorProfile} {requests : List BuyRequest} {world : BuyWorld} {i : ℕ}
variable {call : BuyCall} {stage : BuyStage}

theorem Kept.setStage (hKept : Kept creators requests world) (hCall : world.calls[i]? = some call)
    (hOpens : stage.isOpen = true → call.stage.isOpen = true ∨
      ∀ other ∈ world.calls, other.stage.isOpen = true →
        ¬SameKey creators call.request other.request)
    (hPast : stage.undecided = true → ∀ submission ∈ world.submitted,
      SameKey creators call.request submission.request → submission.over creators ≤ world.clock)
    (hRecording : ∀ expiresAt seconds, stage = .recording expiresAt seconds →
      cooldownMs creators call.request.keyId ≤ seconds * 1000 ∧ ∀ submission ∈ world.submitted,
        SameKey creators call.request submission.request → submission.over creators ≤ expiresAt)
    (hCovered :
      call.stage.unrecorded = true → stage.unrecorded = true ∨ ∀ submission ∈ world.submitted,
        SameKey creators call.request submission.request →
          world.clock < submission.over creators → Recorded creators world submission) :
    Kept creators requests (world.setStage i call stage) where
  known := by
    intro after hAfter
    rcases mem_setStage hAfter with rfl | hOld
    · exact hKept.known call (List.mem_of_getElem? hCall)
    · exact hKept.known after hOld
  origin := hKept.origin
  alone := hKept.alone_setStage hCall hOpens
  past := by
    intro after hAfter hUndecided
    rcases mem_setStage hAfter with rfl | hOld
    · exact hPast hUndecided
    · exact hKept.past after hOld hUndecided
  recording := by
    intro after hAfter expiresAt seconds hStage
    rcases mem_setStage hAfter with rfl | hOld
    · exact hRecording expiresAt seconds hStage
    · exact hKept.recording after hOld expiresAt seconds hStage
  covered := by
    intro submission hSubmission hOver
    rcases hKept.covered submission hSubmission hOver with
      hRecorded | ⟨other, hOther, hUnrecorded, hSame⟩
    · exact .inl hRecorded
    · rcases List.mem_iff_getElem?.mp hOther with ⟨j, hj⟩
      have hBound := (List.getElem?_eq_some_iff.mp hCall).1
      by_cases hIndex : j = i
      · rw [hIndex, hCall] at hj
        cases hj
        rcases hCovered hUnrecorded with hStill | hRecorded
        · exact .inr ⟨{ call with stage }, List.mem_set hBound _, hStill, hSame⟩
        · exact .inl (hRecorded submission hSubmission hSame hOver)
      · have hKeptCall : (world.setStage i call stage).calls[j]? = some other := by
          rw [← hj]
          exact List.getElem?_set_ne (Ne.symm hIndex)
        exact .inr ⟨other, List.mem_of_getElem? hKeptCall, hUnrecorded, hSame⟩
  spaced := hKept.spaced

/- A write to a Redis key keeps what is recorded under it. -/
theorem Kept.setKey (hKept : Kept creators requests world) (redisKey : String)
    (entry : Option CooldownEntry)
    (hEntry : ∀ submission ∈ world.submitted, submission.request.redisKey = redisKey →
      world.clock < submission.over creators → ∃ stored ∈ entry,
        submission.over creators ≤ stored.expiresAt ∧
          submission.over creators ≤ stored.droppedAt) :
    Kept creators requests (world.setKey redisKey entry) where
  known := hKept.known
  origin := hKept.origin
  alone := hKept.alone
  past := hKept.past
  recording := hKept.recording
  covered := by
    intro submission hSubmission hOver
    rcases hKept.covered submission hSubmission hOver with hRecorded | hUnrecorded
    · left
      by_cases hSame : submission.request.redisKey = redisKey
      · rcases hEntry submission hSubmission hSame hOver with ⟨stored, hStored, hEnds⟩
        refine ⟨stored, ?_, hEnds⟩
        change Function.update _ _ _ _ = _
        rw [hSame, Function.update_self]
        exact hStored
      · rcases hRecorded with ⟨stored, hStored, hEnds⟩
        refine ⟨stored, ?_, hEnds⟩
        change Function.update _ _ _ _ = _
        rw [Function.update_of_ne hSame]
        exact hStored
    · exact .inr hUnrecorded
  spaced := hKept.spaced

theorem Kept.setKey_undecided (hNamed : Named creators requests)
    (hKept : Kept creators requests world) (hCall : call ∈ world.calls)
    (hUndecided : call.stage.undecided = true) (entry : Option CooldownEntry) :
    Kept creators requests (world.setKey call.request.redisKey entry) := by
  apply hKept.setKey
  intro submission hSubmission hKey hOver
  have hSame : SameKey creators call.request submission.request :=
    (hNamed _ (hKept.known call hCall) _ (hKept.origin submission hSubmission).1).mpr hKey.symm
  have hPast := hKept.past call hCall hUndecided submission hSubmission hSame
  omega

/- The stored expiry of a buy ends with the last cooldown. -/
theorem Kept.store_recording (hNamed : Named creators requests)
    (hKept : Kept creators requests world) (hCall : call ∈ world.calls) {expiresAt seconds : ℤ}
    (hStage : call.stage = .recording expiresAt seconds) :
    Kept creators requests (world.store call.request.redisKey expiresAt seconds) ∧
      ∀ submission ∈ world.submitted, SameKey creators call.request submission.request →
        Recorded creators (world.store call.request.redisKey expiresAt seconds) submission := by
  rcases hKept.recording call hCall expiresAt seconds hStage with ⟨hSeconds, hExpires⟩
  have hEnds (submission : Submission) (hSubmission : submission ∈ world.submitted)
      (hSame : SameKey creators call.request submission.request) :
      submission.over creators ≤ expiresAt ∧ submission.over creators ≤
        world.clock + seconds * 1000 := by
    have hTime := (hKept.origin submission hSubmission).2
    refine ⟨hExpires submission hSubmission hSame, ?_⟩
    unfold Submission.over
    rw [← cooldownMs_congr hSame]
    omega
  have hKey (submission : Submission) (hSubmission : submission ∈ world.submitted) :=
    hNamed _ (hKept.known call hCall) _ (hKept.origin submission hSubmission).1
  constructor
  · apply hKept.setKey
    intro submission hSubmission hRedis _
    exact ⟨_, rfl, hEnds submission hSubmission ((hKey submission hSubmission).mpr hRedis.symm)⟩
  · intro submission hSubmission hSame
    refine ⟨{ expiresAt, droppedAt := world.clock + seconds * 1000 },
      ?_, hEnds submission hSubmission hSame⟩
    change Function.update _ _ _ _ = _
    rw [← (hKey submission hSubmission).mp hSame, Function.update_self]

theorem Kept.submit (hKept : Kept creators requests world) (hCall : world.calls[i]? = some call)
    (hStage : call.stage = .bought)
    (hPast : ∀ submission ∈ world.submitted, SameKey creators call.request submission.request →
      submission.over creators ≤ world.clock) :
    Kept creators requests (world.submit call.request) := by
  have hMem := List.mem_of_getElem? hCall
  have hUnrecorded : call.stage.unrecorded = true := by
    rw [hStage]
    rfl
  have hOnly (other : BuyCall) (hOther : other ∈ world.calls) (hOpen : other.stage.isOpen = true)
      (hSame : SameKey creators other.request call.request) :
      other = call := by
    rcases List.mem_iff_getElem?.mp hOther with ⟨j, hj⟩
    have hIndex :=
      hKept.alone j i other call hj hCall hOpen (isOpen_of_unrecorded hUnrecorded) hSame
    rw [hIndex, hCall] at hj
    exact (Option.some.inj hj).symm
  refine
    { known := hKept.known
      origin := ?_
      alone := hKept.alone
      past := ?_
      recording := ?_
      covered := ?_
      spaced := ?_ }
  · intro submission hSubmission
    rcases List.mem_append.mp hSubmission with hOld | hNew
    · exact hKept.origin submission hOld
    · cases List.mem_singleton.mp hNew
      exact ⟨hKept.known call hMem, Int.le_refl world.clock⟩
  · intro other hOther hUndecided submission hSubmission hSame
    rcases List.mem_append.mp hSubmission with hOld | hNew
    · exact hKept.past other hOther hUndecided submission hOld hSame
    · cases List.mem_singleton.mp hNew
      cases hOnly other hOther (isOpen_of_undecided hUndecided) hSame
      rw [hStage] at hUndecided
      cases hUndecided
  · intro other hOther expiresAt seconds hOtherStage
    rcases hKept.recording other hOther expiresAt seconds hOtherStage with ⟨hSeconds, hExpires⟩
    refine ⟨hSeconds, ?_⟩
    intro submission hSubmission hSame
    rcases List.mem_append.mp hSubmission with hOld | hNew
    · exact hExpires submission hOld hSame
    · cases List.mem_singleton.mp hNew
      have hOpen : other.stage.isOpen = true := by
        rw [hOtherStage]
        rfl
      cases hOnly other hOther hOpen hSame
      rw [hStage] at hOtherStage
      cases hOtherStage
  · intro submission hSubmission hOver
    rcases List.mem_append.mp hSubmission with hOld | hNew
    · exact hKept.covered submission hOld hOver
    · cases List.mem_singleton.mp hNew
      exact .inr ⟨call, hMem, hUnrecorded, rfl, rfl⟩
  · refine List.pairwise_append.mpr ⟨hKept.spaced, ?_, ?_⟩
    · exact List.pairwise_singleton _ _
    · intro earlier hEarlier later hLater hSame
      cases List.mem_singleton.mp hLater
      have hOver := hPast earlier hEarlier hSame.symm
      unfold Submission.over at hOver
      rw [cooldownMs_congr hSame] at hOver
      exact hOver

/- A GET that lets a request go on finds no cooldown to wait for. -/
theorem Kept.past_read (hKept : Kept creators requests world) (hNamed : Named creators requests)
    (hCall : call ∈ world.calls) (hAlone : ∀ other ∈ world.calls, other.stage.isOpen = true →
      ¬SameKey creators call.request other.request)
    (hOpens : (world.readStage call.request).undecided = true) {submission : Submission}
    (hSubmission : submission ∈ world.submitted)
    (hSame : SameKey creators call.request submission.request) :
    submission.over creators ≤ world.clock := by
  by_contra hOver
  rcases hKept.covered submission hSubmission (Int.not_le.mp hOver) with
    ⟨entry, hEntry, hExpires, hDropped⟩ | ⟨other, hOther, hUnrecorded, hOtherSame⟩
  · have hKey : call.request.redisKey = submission.request.redisKey :=
      (hNamed _ (hKept.known call hCall) _ (hKept.origin submission hSubmission).1).mp hSame
    have hFound : world.entryOf call.request.redisKey = some entry := by
      rw [BuyWorld.entryOf, hKey, Option.mem_def.mp hEntry]
      refine Option.filter_eq_some_iff.mpr ⟨rfl, ?_⟩
      rw [decide_eq_true_eq]
      omega
    have hActive : 0 < entry.expiresAt - world.clock := by omega
    unfold BuyWorld.readStage at hOpens
    simp only [hFound, hActive, if_true] at hOpens
    cases hOpens
  · exact hAlone other hOther (isOpen_of_unrecorded hUnrecorded) (hSame.trans hOtherSame.symm)

end

-- Runs
----

open Transactional

variable {creators : List CreatorProfile} {requests : List BuyRequest} {world world' : BuyWorld}
variable {i : ℕ} {call : BuyCall} {served : Bool} {reads : StatusReads}

theorem Kept.advance (hKept : Kept creators requests world) (ms : ℕ) :
    Kept creators requests
      { world with clock := world.clock + ms } where
  known := hKept.known
  origin := by
    intro submission hSubmission
    rcases hKept.origin submission hSubmission with ⟨hKnown, hTime⟩
    refine ⟨hKnown, ?_⟩
    change submission.time ≤ world.clock + ms
    omega
  alone := hKept.alone
  past := by
    intro call hCall hUndecided submission hSubmission hSame
    have hPast := hKept.past call hCall hUndecided submission hSubmission hSame
    change submission.over creators ≤ world.clock + ms
    omega
  recording := hKept.recording
  covered := by
    intro submission hSubmission hOver
    apply hKept.covered submission hSubmission
    change world.clock + ms < submission.over creators at hOver
    omega
  spaced := hKept.spaced

theorem readStage_cases (world : BuyWorld) (request : BuyRequest) :
    world.readStage request = .ended ∨ (world.readStage request).undecided = true ∧
      (world.readStage request).unrecorded = false := by
  unfold BuyWorld.readStage
  split
  · exact .inr ⟨rfl, rfl⟩
  · split
    · exact .inl rfl
    · exact .inr ⟨rfl, rfl⟩

theorem statusStage_undecided (world : BuyWorld) (request : BuyRequest) :
    (world.statusStage creators request served reads).undecided = true ∧
      (world.statusStage creators request served reads).unrecorded = false := by
  unfold BuyWorld.statusStage
  split
  · split
    · exact ⟨rfl, rfl⟩
    · split
      · exact ⟨rfl, rfl⟩
      · exact ⟨rfl, rfl⟩
  · exact ⟨rfl, rfl⟩

variable {stage : BuyStage} {expiresAt seconds : ℤ}

theorem not_recording (hStage : stage.unrecorded = false) :
    stage ≠ .recording expiresAt seconds := by
  rintro rfl
  cases hStage

theorem Kept.goOn (hKept : Kept creators requests world) (hCall : world.calls[i]? = some call)
    (hUndecided : call.stage.undecided = true) (hStage : stage.unrecorded = false) :
    Kept creators requests (world.setStage i call stage) := by
  apply hKept.setStage hCall
  · exact fun _ => .inl (isOpen_of_undecided hUndecided)
  · exact fun _ => hKept.past call (List.mem_of_getElem? hCall) hUndecided
  · intro _ _ hRecording
    exact absurd hRecording (not_recording hStage)
  · intro hUnrecorded
    cases hCallStage : call.stage <;> simp_all [BuyStage.undecided, BuyStage.unrecorded]

theorem Kept.read (hKept : Kept creators requests world) (hNamed : Named creators requests)
    (hCall : world.calls[i]? = some call) (hStage : call.stage = .begun)
    (hAlone : ∀ other ∈ world.calls, other.stage.isOpen = true →
      ¬SameKey creators call.request other.request) :
    Kept creators requests (world.setStage i call (world.readStage call.request)) := by
  have hMem := List.mem_of_getElem? hCall
  apply hKept.setStage hCall
  · exact fun _ => .inr hAlone
  · exact fun hOpens submission hSubmission hSame =>
      hKept.past_read hNamed hMem hAlone hOpens hSubmission hSame
  · intro expiresAt seconds hRecording
    rcases readStage_cases world call.request with hEnded | ⟨-, hUnrecorded⟩
    · rw [hEnded] at hRecording
      cases hRecording
    · exact absurd hRecording (not_recording hUnrecorded)
  · intro hUnrecorded
    rw [hStage] at hUnrecorded
    cases hUnrecorded

/- The submission of a request whose wallet and key are alone. -/
theorem Kept.buy (hKept : Kept creators requests world) (hCall : world.calls[i]? = some call)
    (hStage : call.stage = .cleared) :
    Kept creators requests ((world.submit call.request).setStage i call .bought) := by
  have hUndecided : call.stage.undecided = true := by
    rw [hStage]
    rfl
  have hPast := hKept.past call (List.mem_of_getElem? hCall) hUndecided
  have hBought : Kept creators requests (world.setStage i call .bought) := by
    apply hKept.setStage hCall
    · exact fun _ => .inl (isOpen_of_undecided hUndecided)
    · intro hNot
      cases hNot
    · rintro _ _ ⟨⟩
    · exact fun _ => .inl rfl
  have hAfter : (world.setStage i call .bought).calls[i]? = some { call with stage := .bought } :=
    List.getElem?_set_self (List.getElem?_eq_some_iff.mp hCall).1
  have hSubmitted := hBought.submit hAfter rfl hPast
  exact hSubmitted

/- A buy's duration is the cooldown of its key. -/
theorem Kept.lookUp (hKept : Kept creators requests world) (hCall : world.calls[i]? = some call)
    (hStage : call.stage = .bought) :
    Kept creators requests (world.setStage i call
      (world.durationStage creators call.request true)) := by
  have hOpen : call.stage.isOpen = true := by
    rw [hStage]
    rfl
  have hMs := cooldownMs_eq creators call.request.keyId
  have hOver (submission : Submission) (hSame : SameKey creators call.request submission.request) :
      submission.over creators = submission.time + cooldownMs creators call.request.keyId := by
    rw [Submission.over, cooldownMs_congr hSame]
  have hTime (submission : Submission) (hSubmission : submission ∈ world.submitted) :=
    (hKept.origin submission hSubmission).2
  unfold BuyWorld.durationStage
  -- without a cooldown, nothing is left to record
  have hNone (hZero : cooldownMs creators call.request.keyId ≤ 0) :
      Kept creators requests (world.setStage i call .ended) := by
    apply hKept.setStage hCall
    · intro hNot
      cases hNot
    · intro hNot
      cases hNot
    · rintro _ _ ⟨⟩
    · intro _
      right
      intro submission hSubmission hSame hLater
      rw [hOver submission hSame] at hLater
      have hBefore := hTime submission hSubmission
      omega
  cases hDuration : getCooldownDurationSeconds creators call.request.keyId with
  | none =>
    apply hNone
    rw [hMs, hDuration]
    decide
  | some seconds =>
    rw [hDuration, Option.getD_some] at hMs
    dsimp only
    split
    · rename_i hRefused
      apply hNone
      rcases hRefused with hFalse | hZero
      · cases hFalse
      · omega
    · apply hKept.setStage hCall
      · exact fun _ => .inl hOpen
      · intro hNot
        cases hNot
      · rintro _ _ ⟨⟩
        refine ⟨Int.le_of_eq hMs, ?_⟩
        intro submission hSubmission hSame
        rw [hOver submission hSame]
        have hBefore := hTime submission hSubmission
        omega
      · exact fun _ => .inl rfl

theorem Kept.record (hKept : Kept creators requests world) (hNamed : Named creators requests)
    (hCall : world.calls[i]? = some call) (hStage : call.stage = .recording expiresAt seconds) :
    Kept creators requests ((world.store call.request.redisKey expiresAt
      seconds).setStage i call .ended) := by
  rcases hKept.store_recording hNamed (List.mem_of_getElem? hCall) hStage with ⟨hStored, hRecorded⟩
  have hStoredCall :
      (world.store call.request.redisKey expiresAt seconds).calls[i]? = some call := hCall
  apply hStored.setStage hStoredCall
  · intro hNot
    cases hNot
  · intro hNot
    cases hNot
  · rintro _ _ ⟨⟩
  · exact fun _ => .inr fun submission hSubmission hSame _ => hRecorded submission hSubmission hSame

theorem kept_act (hNamed : Named creators requests) (hKept : Kept creators requests world)
    (hCall : world.calls[i]? = some call) (hOrderly : Orderly creators world (.act i served reads))
    (hAct : world.act creators i call served reads = some world') :
    Kept creators requests world' := by
  have hMem := List.mem_of_getElem? hCall
  have hAllowed := hOrderly call hCall
  -- what an undecided request writes to Redis, and its next stage
  have hWrite (entry : Option CooldownEntry) (stage : BuyStage)
      (hUndecided : call.stage.undecided = true) (hStage : stage.unrecorded = false) :
      Kept creators requests ((world.setKey call.request.redisKey entry).setStage i call stage) :=
    (hKept.setKey_undecided hNamed hMem hUndecided entry).goOn hCall hUndecided hStage
  unfold BuyWorld.act at hAct
  cases hStage : call.stage with
  | begun =>
    simp only [hStage] at hAct hAllowed
    cases hAct
    exact hKept.read hNamed hCall hStage hAllowed
  | stale =>
    simp only [hStage] at hAct
    cases hAct
    exact hWrite _ _ (by rw [hStage]; rfl) rfl
  | looking =>
    simp only [hStage] at hAct
    cases hAct
    exact hKept.goOn hCall (by rw [hStage]; rfl) (statusStage_undecided world call.request).2
  | warming expiresAt seconds =>
    simp only [hStage] at hAct
    cases hAct
    exact hWrite _ _ (by rw [hStage]; rfl) rfl
  | allowed =>
    simp only [hStage] at hAct
    cases hAct
    refine hKept.goOn hCall (by rw [hStage]; rfl) ?_
    split <;> rfl
  | cleared =>
    simp only [hStage] at hAct hAllowed
    rw [hAllowed, if_pos rfl] at hAct
    cases hAct
    exact hKept.buy hCall hStage
  | bought =>
    simp only [hStage] at hAct hAllowed
    rw [hAllowed] at hAct
    cases hAct
    exact hKept.lookUp hCall hStage
  | recording expiresAt seconds =>
    simp only [hStage] at hAct
    cases hAct
    exact hKept.record hNamed hCall hStage
  | ended =>
    simp only [hStage] at hAct
    cases hAct

theorem kept_step (hNamed : Named creators requests) {move : BuyMove}
    (hKept : Kept creators requests world) (hOrderly : Orderly creators world move)
    (hStep : world.step creators move = some world') :
    Kept creators requests world' := by
  cases move with
  | advance ms =>
    cases hStep
    exact hKept.advance ms
  | act i served reads =>
    simp only [BuyWorld.step] at hStep
    split at hStep
    · rename_i call hCall
      exact kept_act hNamed hKept hCall hOrderly hStep
    · cases hStep
  | crash i =>
    simp only [BuyWorld.step] at hStep
    split at hStep
    · rename_i call hCall
      cases hStep
      apply hKept.setStage hCall
      · intro hNot
        cases hNot
      · intro hNot
        cases hNot
      · rintro _ _ ⟨⟩
      · intro hUnrecorded
        rw [hOrderly call hCall] at hUnrecorded
        cases hUnrecorded
    · cases hStep

theorem kept_start (clock : ℤ) (requests : List BuyRequest) :
    Kept creators requests (.start clock requests) := by
  have hBegun : ∀ call ∈ (BuyWorld.start clock requests).calls,
      call.request ∈ requests ∧ call.stage = .begun := by
    intro call hCall
    rcases List.mem_map.mp hCall with ⟨request, hRequest, rfl⟩
    exact ⟨hRequest, rfl⟩
  refine
    { known := fun call hCall => (hBegun call hCall).1
      origin := nofun
      alone := ?_
      past := fun _ _ _ => nofun
      recording := ?_
      covered := nofun
      spaced := .nil }
  · intro i j one other hOne _ hOpen
    rw [(hBegun one (List.mem_of_getElem? hOne)).2] at hOpen
    cases hOpen
  · intro call hCall expiresAt seconds hStage
    rw [(hBegun call hCall).2] at hStage
    cases hStage

/-
  In orderly runs of requests whose names agree, the buys of a
  wallet and key are at least the cooldown apart.
-/
theorem buys_spaced {clock : ℤ} {moves : List BuyMove} (hNamed : Named creators requests) (hRun :
    RunsTo (BuyWorld.step creators) (Orderly creators) (.start clock requests) moves world) :
    Spaced creators world.submitted :=
  (hRun.invariant (kept_start clock requests) fun _ _ _ hKept hOrderly hStep =>
    kept_step hNamed hKept hOrderly hStep).spaced

/- A key with a cooldown of 60 s, by its id and its handle. -/
def sampleCreators : List CreatorProfile :=
  [{ id := "k1", handle := "alice", cooldownLedgers := 12 }]

/- What an indexer reads that has seen no buy. -/
def laggingReads : StatusReads where
  cached := none
  lastBuy := none
  indexed := some 100

/- The next steps of one request. -/
def acts (i count : ℕ) : List BuyMove := List.replicate count (.act i true laggingReads)

/-
  A buy, one that is refused, and another after the cooldown,
  whose Redis entry is dropped by then.
-/
def orderlyBuys : List BuyMove :=
  acts 0 6 ++ [.advance 59999] ++ acts 1 1 ++ [.advance 1] ++ acts 2 6

theorem buys_spaced_sample :
    ∃ world, RunsTo (BuyWorld.step sampleCreators) (Orderly sampleCreators)
      (.start 0 (List.replicate 3 ⟨"W", "alice"⟩)) orderlyBuys world ∧
      world.submitted.map Submission.time = [0, 60000] ∧
      Spaced sampleCreators world.submitted := by
  have hRuns : ((runAllowed (BuyWorld.step sampleCreators) (Orderly sampleCreators)
      (.start 0 (List.replicate 3 ⟨"W", "alice"⟩)) orderlyBuys).filter fun world =>
        world.submitted.map Submission.time = [0, 60000]).isSome = true := by decide
  rcases Option.isSome_iff_exists.mp hRuns with ⟨world, hWorld⟩
  rcases Option.filter_eq_some_iff.mp hWorld with ⟨hSome, hTimes⟩
  have hRun := runsTo_of_runAllowed hSome
  exact ⟨world, hRun, of_decide_eq_true hTimes, buys_spaced (by decide) hRun⟩

theorem not_spaced {moves : List BuyMove} (hRuns :
    ((runLabels (BuyWorld.step sampleCreators) (.start 0 requests) moves).filter fun world =>
      ¬Spaced sampleCreators world.submitted).isSome = true) :
    ∃ world, RunsTo (BuyWorld.step sampleCreators) (fun _ _ => True)
      (.start 0 requests) moves world ∧
      ¬Spaced sampleCreators world.submitted := by
  rcases Option.isSome_iff_exists.mp hRuns with ⟨world, hWorld⟩
  rcases Option.filter_eq_some_iff.mp hWorld with ⟨hSome, hClose⟩
  exact ⟨world, runsTo_of_runLabels hSome, of_decide_eq_true hClose⟩

/-
  Two buys at once where one names the key by its handle and the
  other by its id, one after the other; and where two overlap.
-/
theorem close_buys :
    (∃ world, RunsTo (BuyWorld.step sampleCreators) (fun _ _ => True)
      (.start 0 [⟨"W", "alice"⟩, ⟨"W", "k1"⟩]) (acts 0 6 ++ acts 1 6) world ∧
      ¬Spaced sampleCreators world.submitted) ∧ ∃ world,
      RunsTo (BuyWorld.step sampleCreators) (fun _ _ => True) (.start 0 [⟨"W", "k1"⟩, ⟨"W", "k1"⟩])
        (acts 0 2 ++ acts 1 2 ++ acts 0 4 ++ acts 1 4) world ∧
      ¬Spaced sampleCreators world.submitted := by
  exact ⟨not_spaced (by decide), not_spaced (by decide)⟩

end BuyCooldown

end Keys

end AccessLayer
