import AccessLayer.Indexer.EventFields
import AccessLayer.Library.Runs
import Mathlib.Data.Finset.Max
import Mathlib.Data.Fintype.Basic
import Mathlib.Logic.Function.Basic

/-
  The pause state of the platform and of its keys
  (`src/modules/indexer/platform-pause-indexer.service.ts`,
  `src/modules/platform/platform-pause.service.ts`,
  `src/utils/redis.utils.ts`).

  Each server remembers the state it has indexed last; all share
  a cache that is asked first.  An access to the cache may fail,
  which nobody notices.  How `Date` reads a text is left open.
  Logs are left out.

  Main result: `pause_state_agrees`
-/

-- Events
----

namespace AccessLayer

namespace Platform

section

open Indexer

inductive EventTime where
  | date (value : ℤ)
  | text (value : String)

structure PauseFields where
  triggeredBy : Option String
  pausedAt : Option EventTime
  occurredAt : Option EventTime
  keyId : Option String

abbrev PlatformPauseEvent := PipelineEvent PauseFields

def platformPausedEventType : String := "PLATFORM_PAUSED"

def platformResumedEventType : String := "PLATFORM_RESUMED"

def keyPausedEventTypes : List String := ["KEY_PAUSED", "KEY_TRADING_PAUSED", "TRADING_PAUSED"]

def keyResumedEventTypes : List String := ["KEY_RESUMED", "KEY_TRADING_RESUMED", "TRADING_RESUMED"]

/- How `Date` reads a text, and the profiles of the creators. -/
structure PauseEnv where
  dateOf : String → Option ℤ
  creatorProfile : List (String × String)

/- A state of the platform or of a key. -/
structure PauseState where
  paused : Bool
  pausedAt : Option ℤ
  actor : Option String
  deriving DecidableEq

def notPaused : PauseState where
  paused := false
  pausedAt := none
  actor := none

inductive CacheKey where
  | platform
  | key (keyId : String)
  deriving DecidableEq

/- What an event makes its server do. -/
inductive PauseChange where
  | setPlatformPaused (actor : Option String) (pausedAt : ℤ)
  | clearPlatformPaused
  | setKeyPaused (keyId : String) (actor : Option String) (pausedAt : ℤ)
  | clearKeyPaused (keyId : String)
  deriving DecidableEq

def normalizeActor (event : PlatformPauseEvent) : Option String :=
  textField (event.actor.or event.payload.triggeredBy)

def toEventTimestamp (env : PauseEnv) (now : ℤ) (event : PlatformPauseEvent) : ℤ :=
  match event.payload.pausedAt.or event.payload.occurredAt with
  | some (.date value) => value
  | some (.text value) => (env.dateOf value).getD now
  | none => now

/- The profile is found by its identifier or by its handle. -/
def resolveKeyId (env : PauseEnv) (event : PlatformPauseEvent) : Option String :=
  (textField (event.payload.keyId.or event.creatorId)).map fun identifier =>
    ((env.creatorProfile.find? fun profile => profile.1 = identifier ∨ profile.2 = identifier).map
      Prod.fst).getD identifier

def changeOf (env : PauseEnv) (now : ℤ) (event : PlatformPauseEvent) : Option PauseChange :=
  if event.eventType = platformPausedEventType then
    some (.setPlatformPaused (normalizeActor event) (toEventTimestamp env now event))
  else if event.eventType = platformResumedEventType then
    some .clearPlatformPaused
  else if event.eventType ∈ keyPausedEventTypes then
    (resolveKeyId env event).map fun keyId => .setKeyPaused keyId (normalizeActor event)
      (toEventTimestamp env now event)
  else if event.eventType ∈ keyResumedEventTypes then
    (resolveKeyId env event).map .clearKeyPaused
  else none

end

-- States
----

section

def pausedState (actor : Option String) (pausedAt : ℤ) : PauseState where
  paused := true
  pausedAt := some pausedAt
  actor := actor

/- What a server remembers. -/
structure PauseMemory where
  platform : Option PauseState
  keys : String → Option PauseState

def PauseMemory.empty : PauseMemory where
  platform := none
  keys _ := none

abbrev PauseCache := CacheKey → Option PauseState

namespace PauseChange

/- First the server remembers the change. -/
def remember (memory : PauseMemory) : PauseChange → PauseMemory
  | .setPlatformPaused actor pausedAt =>
    { memory with platform := some (pausedState actor pausedAt) }
  | .clearPlatformPaused => { memory with platform := some notPaused }
  | .setKeyPaused keyId actor pausedAt =>
    { memory with
      keys := Function.update memory.keys keyId (some (pausedState actor pausedAt)) }
  | .clearKeyPaused keyId => { memory with keys := Function.update memory.keys keyId none }

/- Then it writes the cache. -/
def cache (cached : PauseCache) : PauseChange → PauseCache
  | .setPlatformPaused actor pausedAt =>
    Function.update cached .platform (some (pausedState actor pausedAt))
  | .clearPlatformPaused => Function.update cached .platform none
  | .setKeyPaused keyId actor pausedAt =>
    Function.update cached (.key keyId) (some (pausedState actor pausedAt))
  | .clearKeyPaused keyId => Function.update cached (.key keyId) none

end PauseChange

/- The state that a server reports. -/
def getPlatformPauseState (cached : PauseCache) (memory : PauseMemory) : PauseState :=
  match cached .platform with
  | some state => state
  | none => memory.platform.getD notPaused

-- Servers
----

/- How far a handler has come. -/
inductive CallStage where
  | waiting
  | remembered (change : PauseChange)
  | done
  | dead
  deriving DecidableEq

/- One delivery: to which server, of which event, and when. -/
structure PauseCall (ι : Type) (n : Nat) where
  server : ι
  position : Fin n
  now : ℤ
  stage : CallStage

structure PauseWorld (ι : Type) (n : Nat) where
  cached : PauseCache
  memory : ι → PauseMemory
  calls : List (PauseCall ι n)

/-
  A write of the cache has its effect or not.  A handler fails
  when the database does; a restart ends the handlers of a server
  and its memory; what is cached expires after thirty days.
-/
inductive PauseMove (ι : Type) where
  | remember (i : Nat)
  | cache (i : Nat) (served : Bool)
  | fail (i : Nat)
  | restart (server : ι)
  | expire (slot : CacheKey)

variable {ι : Type} {n : Nat}

/- Deliveries whose handlers have not begun. -/
def PauseWorld.start (deliveries : List (ι × Fin n × ℤ)) : PauseWorld ι n where
  cached _ := none
  memory _ := .empty
  calls :=
    deliveries.map fun delivery =>
      { server := delivery.1
        position := delivery.2.1
        now := delivery.2.2
        stage := .waiting }

def PauseCall.stop [DecidableEq ι] (server : ι) (call : PauseCall ι n) : PauseCall ι n :=
  if call.server = server ∧ call.stage ≠ .done then
    { call with stage := .dead }
  else call

namespace PauseWorld

variable [DecidableEq ι] (env : PauseEnv) (chain : Fin n → PlatformPauseEvent)
variable (world : PauseWorld ι n)

def settle (i : Nat) (call : PauseCall ι n) (stage : CallStage) : List (PauseCall ι n) :=
  world.calls.set i { call with stage }

/- The server remembers what the event changes, if anything. -/
def remember (i : Nat) (call : PauseCall ι n) : PauseWorld ι n :=
  match changeOf env call.now (chain call.position) with
  | none => { world with calls := world.settle i call .done }
  | some change =>
    { world with
      memory :=
        Function.update world.memory call.server (change.remember (world.memory call.server))
      calls := world.settle i call (.remembered change) }

def cache (i : Nat) (call : PauseCall ι n) (change : PauseChange)
    (served : Bool) : PauseWorld ι n :=
  { world with
    cached :=
      if served then change.cache world.cached else world.cached
    calls := world.settle i call .done }

def step : PauseMove ι → Option (PauseWorld ι n)
  | .remember i =>
    match world.calls[i]? with
    | some call =>
      if call.stage = .waiting then
        some (world.remember env chain i call)
      else none
    | none => none
  | .cache i served =>
    match world.calls[i]? with
    | some call =>
      match call.stage with
      | .remembered change => some (world.cache i call change served)
      | _ => none
    | none => none
  | .fail i =>
    match world.calls[i]? with
    | some call =>
      if call.stage = .waiting then
        some { world with calls := world.settle i call .dead }
      else none
    | none => none
  | .restart server =>
    some { world with
        memory := Function.update world.memory server .empty
        calls := world.calls.map (PauseCall.stop server) }
  | .expire slot =>
    some { world with
        cached := Function.update world.cached slot none }

/- What a server reports while the cache answers. -/
def report (server : ι) : PauseState := getPlatformPauseState world.cached (world.memory server)

/- A handler of the event at this position has returned. -/
def Processed (position : Fin n) : Prop :=
  ∃ (i : Nat) (call : PauseCall ι n), world.calls[i]? = some call ∧ call.position = position ∧
    call.stage = .done

end PauseWorld

end

-- Agreement
----

section

variable {ι : Type} {n : Nat} (chain : Fin n → PlatformPauseEvent)

def PausesAt (position : Fin n) : Prop := (chain position).eventType = platformPausedEventType

def ResumesAt (position : Fin n) : Prop := (chain position).eventType = platformResumedEventType

def ChangesAt (position : Fin n) : Prop := PausesAt chain position ∨ ResumesAt chain position

instance (position : Fin n) : Decidable (PausesAt chain position) :=
  inferInstanceAs (Decidable (_ = _))

instance (position : Fin n) : Decidable (ResumesAt chain position) :=
  inferInstanceAs (Decidable (_ = _))

instance (position : Fin n) : Decidable (ChangesAt chain position) :=
  inferInstanceAs (Decidable (_ ∨ _))

/- The last event that pauses or resumes the platform. -/
def IsLatest (latest : Fin n) : Prop :=
  ChangesAt chain latest ∧ ∀ position, ChangesAt chain position → position ≤ latest

/- The state that an event leads to, indexed at some time. -/
def Shows (env : PauseEnv) (position : Fin n) (state : PauseState) : Prop :=
  if PausesAt chain position then
    ∃ now, state = pausedState (normalizeActor (chain position))
      (toEventTimestamp env now (chain position))
  else state = notPaused

/-
  All servers report one state, the one of the last event of the
  platform; without such an event it is not paused.
-/
def PauseWorld.Agrees (env : PauseEnv) (world : PauseWorld ι n) : Prop :=
  ∃ state, (∀ latest, IsLatest chain latest → Shows chain env latest state) ∧
    ((∀ position, ¬ ChangesAt chain position) → state = notPaused) ∧
    ∀ server, world.report server = state

/- The event is no older than those that were processed. -/
def PauseWorld.Newest (world : PauseWorld ι n) (call : PauseCall ι n) : Prop :=
  ∀ position, world.Processed position → ChangesAt chain position → position ≤ call.position

/-
  Events of the platform are indexed in their order, the cache
  takes effect and does not expire, and a resumption is cached
  while no server remembers a pause.
-/
def InOrder (world : PauseWorld ι n) : PauseMove ι → Prop
  | .remember i =>
    ∀ call, world.calls[i]? = some call → ChangesAt chain call.position → world.Newest chain call
  | .cache i served =>
    ∀ call, world.calls[i]? = some call → ChangesAt chain call.position →
      served = true ∧ world.Newest chain call ∧ (ResumesAt chain call.position → ∀ server state,
        (world.memory server).platform = some state → state.paused = false)
  | .fail _ => True
  | .restart _ => True
  | .expire slot => slot = .platform → world.cached slot = none

theorem PauseWorld.processed_iff {world : PauseWorld ι n} {position : Fin n} :
    world.Processed position ↔
      ∃ call ∈ world.calls, call.position = position ∧ call.stage = .done := by
  simp only [Processed, List.mem_iff_getElem?]
  exact ⟨fun ⟨i, call, hCall, hBoth⟩ => ⟨call, ⟨i, hCall⟩, hBoth⟩,
    fun ⟨call, ⟨i, hCall⟩, hBoth⟩ => ⟨i, call, hCall, hBoth⟩⟩

instance (world : PauseWorld ι n) (position : Fin n) : Decidable (world.Processed position) :=
  decidable_of_iff' _ PauseWorld.processed_iff

instance (world : PauseWorld ι n) (call : PauseCall ι n) : Decidable (world.Newest chain call) :=
  inferInstanceAs (Decidable (∀ _ : Fin n, _ → _ → _))

instance [Fintype ι] (world : PauseWorld ι n) (move : PauseMove ι) :
    Decidable (InOrder chain world move) :=
  match move with
  | .remember i => inferInstanceAs (Decidable (∀ call ∈ world.calls[i]?, _ → _))
  | .cache i _ =>
    inferInstanceAs (Decidable (∀ call ∈ world.calls[i]?, _ → _ ∧ _ ∧ (_ → ∀ server,
      ∀ state ∈ (world.memory server).platform, _)))
  | .fail _ => isTrue trivial
  | .restart _ => isTrue trivial
  | .expire _ => inferInstanceAs (Decidable (_ → _))

end

-- Changes of the Platform
----

section

variable {ι : Type} {n : Nat} {env : PauseEnv} {chain : Fin n → PlatformPauseEvent}
variable {position : Fin n} {now : ℤ} {change : PauseChange}

theorem changeOf_pause (hPauses : PausesAt chain position) :
    changeOf env now (chain position) = some (.setPlatformPaused (normalizeActor (chain position))
      (toEventTimestamp env now (chain position))) :=
  if_pos hPauses

theorem not_pausesAt_of_resumesAt (hResumes : ResumesAt chain position) :
    ¬ PausesAt chain position := by
  intro hPauses
  have hSame : platformPausedEventType = platformResumedEventType := hPauses.symm.trans hResumes
  exact absurd hSame (by decide)

theorem changeOf_resume (hResumes : ResumesAt chain position) :
    changeOf env now (chain position) = some .clearPlatformPaused := by
  have hNot : ¬ (chain position).eventType = platformPausedEventType :=
    not_pausesAt_of_resumesAt hResumes
  rw [changeOf, if_neg hNot]
  exact if_pos hResumes

theorem changeOf_key (hNot : ¬ ChangesAt chain position)
    (hChange : changeOf env now (chain position) = some change) :
    (∀ memory, (change.remember memory).platform = memory.platform) ∧
      ∀ cached, change.cache cached .platform = cached .platform := by
  have hNoPause : ¬ (chain position).eventType = platformPausedEventType := fun h => hNot (.inl h)
  have hNoResume : ¬ (chain position).eventType = platformResumedEventType := fun h => hNot (.inr h)
  rw [changeOf, if_neg hNoPause, if_neg hNoResume] at hChange
  have hSlot (keyId : String) : CacheKey.platform ≠ .key keyId := by
    intro h
    cases h
  split at hChange
  · rcases Option.map_eq_some_iff.mp hChange with ⟨keyId, -, rfl⟩
    exact ⟨fun _ => rfl, fun _ => Function.update_of_ne (hSlot keyId) _ _⟩
  · split at hChange
    · rcases Option.map_eq_some_iff.mp hChange with ⟨keyId, -, rfl⟩
      exact ⟨fun _ => rfl, fun _ => Function.update_of_ne (hSlot keyId) _ _⟩
    · cases hChange

-- What Is Known of a World
----

open Transactional

/-
  The cache shows the newest event that was processed, and a
  server that remembers a pause knows of one that is newer than
  every resumption that was processed.
-/
structure Tracked (env : PauseEnv) (chain : Fin n → PlatformPauseEvent)
    (world : PauseWorld ι n) : Prop where
  remembered : ∀ (i : Nat) (call : PauseCall ι n) change, world.calls[i]? = some call →
    call.stage = .remembered change → changeOf env call.now (chain call.position) = some change
  untouched : (∀ position, world.Processed position → ¬ ChangesAt chain position) →
    world.cached .platform = none
  newest : ∀ position, world.Processed position → ChangesAt chain position →
    (∀ other, world.Processed other → ChangesAt chain other → other ≤ position) →
    if PausesAt chain position then
      ∃ state, world.cached .platform = some state ∧ Shows chain env position state
    else world.cached .platform = none
  memory : ∀ server state, (world.memory server).platform = some state → state = notPaused ∨
    state.paused = true ∧ ∃ position, PausesAt chain position ∧
      ∀ other, world.Processed other → ResumesAt chain other → other < position

variable {env : PauseEnv} {chain : Fin n → PlatformPauseEvent} {world world' : PauseWorld ι n}
variable {i : Nat} {call : PauseCall ι n} {stage : CallStage}

theorem processed_set_iff (hCall : world.calls[i]? = some call) (hStage : call.stage ≠ .done)
    (cached : PauseCache) (memory : ι → PauseMemory) (position : Fin n) :
    PauseWorld.Processed { cached, memory, calls := world.settle i call stage } position ↔
      world.Processed position ∨ stage = .done ∧ position = call.position := by
  constructor
  · rintro ⟨j, other, hOther, hPosition, hDone⟩
    rcases getElem?_set_cases hOther with ⟨rfl, rfl⟩ | ⟨-, hOld⟩
    · exact .inr ⟨hDone, hPosition.symm⟩
    · exact .inl ⟨j, other, hOld, hPosition, hDone⟩
  · rintro (⟨j, other, hOther, hPosition, hDone⟩ | ⟨rfl, rfl⟩)
    · refine ⟨j, other, ?_, hPosition, hDone⟩
      have hNe : i ≠ j := by
        rintro rfl
        cases hCall.symm.trans hOther
        exact hStage hDone
      exact (List.getElem?_set_ne hNe).trans hOther
    · refine ⟨i, { call with stage := .done }, ?_, rfl, rfl⟩
      exact List.getElem?_set_self (List.getElem?_eq_some_iff.mp hCall).1

theorem Tracked.still_right (hTracked : Tracked env chain world) (hProcessed :
    ∀ position, ChangesAt chain position → (world'.Processed position ↔ world.Processed position))
    {server : ι} {state : PauseState} (hState : (world.memory server).platform = some state) :
    state = notPaused ∨ state.paused = true ∧ ∃ position, PausesAt chain position ∧
      ∀ other, world'.Processed other → ResumesAt chain other → other < position := by
  rcases hTracked.memory server state hState with hNot | ⟨hPaused, position, hPauses, hBefore⟩
  · exact .inl hNot
  · refine .inr ⟨hPaused, position, hPauses, ?_⟩
    intro other hOther hResumes
    exact hBefore other ((hProcessed other (.inr hResumes)).mp hOther) hResumes

theorem Tracked.of_memory (hTracked : Tracked env chain world)
    (hRemembered : ∀ (i : Nat) (call : PauseCall ι n) change, world'.calls[i]? = some call →
      call.stage = .remembered change → changeOf env call.now (chain call.position) = some change)
    (hProcessed :
      ∀ position, ChangesAt chain position → (world'.Processed position ↔ world.Processed position))
    (hCached : world'.cached .platform = world.cached .platform)
    (hMemory : ∀ server state, (world'.memory server).platform = some state → state = notPaused ∨
      state.paused = true ∧ ∃ position, PausesAt chain position ∧
        ∀ other, world'.Processed other → ResumesAt chain other → other < position) :
    Tracked env chain world' := by
  refine ⟨hRemembered, ?_, ?_, hMemory⟩
  · intro hNone
    rw [hCached]
    apply hTracked.untouched
    intro position hPosition hChanges
    exact hNone position ((hProcessed position hChanges).mpr hPosition) hChanges
  · intro position hPosition hChanges hNewest
    rw [hCached]
    apply hTracked.newest position ((hProcessed position hChanges).mp hPosition) hChanges
    intro other hOther hOtherChanges
    exact hNewest other ((hProcessed other hOtherChanges).mpr hOther) hOtherChanges

/- What is known depends on little of a world. -/
theorem Tracked.of_same (hTracked : Tracked env chain world)
    (hRemembered : ∀ (i : Nat) (call : PauseCall ι n) change, world'.calls[i]? = some call →
      call.stage = .remembered change → changeOf env call.now (chain call.position) = some change)
    (hProcessed :
      ∀ position, ChangesAt chain position → (world'.Processed position ↔ world.Processed position))
    (hCached : world'.cached .platform = world.cached .platform)
    (hMemory : ∀ server state, (world'.memory server).platform = some state →
      (world.memory server).platform = some state) :
    Tracked env chain world' := by
  apply hTracked.of_memory hRemembered hProcessed hCached
  intro server state hState
  exact hTracked.still_right hProcessed (hMemory server state hState)

end

-- Moves
----

section

open Transactional

variable {ι : Type} {n : Nat} [DecidableEq ι] {env : PauseEnv} {chain : Fin n → PlatformPauseEvent}
variable {world : PauseWorld ι n} {i : Nat} {call : PauseCall ι n} {change : PauseChange}

omit [DecidableEq ι] in
/- Handlers that have not been touched know what they knew. -/
theorem remembered_settle (hTracked : Tracked env chain world) {stage : CallStage}
    (hStage : ∀ change, stage = .remembered change →
      changeOf env call.now (chain call.position) = some change) :
    ∀ (j : Nat) (other : PauseCall ι n) change, (world.settle i call stage)[j]? = some other →
      other.stage = .remembered change → changeOf env other.now (chain other.position) =
        some change := by
  intro j other change hOther hRemembered
  rcases getElem?_set_cases hOther with ⟨-, rfl⟩ | ⟨-, hOld⟩
  · exact hStage change hRemembered
  · exact hTracked.remembered j other change hOld hRemembered

theorem tracked_remember (hTracked : Tracked env chain world)
    (hCall : world.calls[i]? = some call) (hWaiting : call.stage = .waiting)
    (hNewest : ChangesAt chain call.position → world.Newest chain call) :
    Tracked env chain (world.remember env chain i call) := by
  have hNotDone : call.stage ≠ .done := by
    rw [hWaiting]
    decide
  unfold PauseWorld.remember
  cases hChange : changeOf env call.now (chain call.position) with
  | none =>
    have hOther : ¬ ChangesAt chain call.position := by
      rintro (hPauses | hResumes)
      · cases hChange.symm.trans (changeOf_pause hPauses)
      · cases hChange.symm.trans (changeOf_resume hResumes)
    refine hTracked.of_same (remembered_settle hTracked fun _ h => by cases h) ?_ rfl fun _ _ h => h
    intro position hChanges
    rw [processed_set_iff hCall hNotDone]
    constructor
    · rintro (hOld | ⟨-, rfl⟩)
      · exact hOld
      · exact absurd hChanges hOther
    · exact .inl
  | some change =>
    have hProcessed (position : Fin n) (_ : ChangesAt chain position) : PauseWorld.Processed
        { cached := world.cached
          memory :=
            Function.update world.memory call.server
              (change.remember (world.memory call.server))
          calls := world.settle i call (.remembered change) }
        position ↔
        world.Processed position := by
      rw [processed_set_iff hCall hNotDone]
      simp
    refine hTracked.of_memory (remembered_settle hTracked fun _ h => ?_) hProcessed rfl ?_
    · cases h
      exact hChange
    · intro server state hState
      dsimp only at hState
      by_cases hServer : server = call.server
      · subst hServer
        rw [Function.update_self] at hState
        by_cases hChanges : ChangesAt chain call.position
        · rcases hChanges with hPauses | hResumes
          · cases hChange.symm.trans (changeOf_pause hPauses)
            cases hState
            refine .inr ⟨rfl, call.position, hPauses, ?_⟩
            intro other hOther hResumes
            refine lt_of_le_of_ne (hNewest (.inl hPauses) other
              ((hProcessed other (.inr hResumes)).mp hOther) (.inr hResumes)) ?_
            rintro rfl
            exact not_pausesAt_of_resumesAt hResumes hPauses
          · cases hChange.symm.trans (changeOf_resume hResumes)
            cases hState
            exact .inl rfl
        · rw [(changeOf_key hChanges hChange).1] at hState
          exact hTracked.still_right hProcessed hState
      · rw [Function.update_of_ne hServer] at hState
        exact hTracked.still_right hProcessed hState

omit [DecidableEq ι] in
theorem cached_cache (change : PauseChange) :
    (world.cache i call change true).cached = change.cache world.cached := rfl

theorem update_slot (cached : PauseCache) (slot : CacheKey) (state : Option PauseState) :
    Function.update cached slot state slot = state := Function.update_self slot state cached

omit [DecidableEq ι] in
theorem tracked_cache (hTracked : Tracked env chain world)
    (hCall : world.calls[i]? = some call) (hStage : call.stage = .remembered change) {served : Bool}
    (hInOrder : InOrder chain world (.cache i served)) :
    Tracked env chain (world.cache i call change served) := by
  have hNotDone : call.stage ≠ .done := by
    rw [hStage]
    intro h
    cases h
  have hChange := hTracked.remembered i call change hCall hStage
  have hRemembered :=
    @remembered_settle ι n env chain world i call hTracked .done fun _ h => by cases h
  have hProcessed (position : Fin n) : (world.cache i call change served).Processed position ↔
      world.Processed position ∨ position = call.position := by
    unfold PauseWorld.cache
    rw [processed_set_iff hCall hNotDone]
    simp
  by_cases hChanges : ChangesAt chain call.position
  · rcases hInOrder call hCall hChanges with ⟨rfl, hNewest, hForgotten⟩
    refine ⟨hRemembered, ?_, ?_, ?_⟩
    · intro hNone
      exact absurd hChanges (hNone call.position ((hProcessed _).mpr (.inr rfl)))
    · intro position hPosition hHere hLast
      have hSame : position = call.position := by
        apply le_antisymm
        · rcases (hProcessed position).mp hPosition with hOld | rfl
          · exact hNewest position hOld hHere
          · exact le_rfl
        · exact hLast call.position ((hProcessed _).mpr (.inr rfl)) hChanges
      subst hSame
      rcases hChanges with hPauses | hResumes
      · cases hChange.symm.trans (changeOf_pause hPauses)
        rw [if_pos hPauses, cached_cache]
        refine ⟨_, update_slot world.cached .platform _, ?_⟩
        rw [Shows, if_pos hPauses]
        exact ⟨call.now, rfl⟩
      · cases hChange.symm.trans (changeOf_resume hResumes)
        rw [if_neg (not_pausesAt_of_resumesAt hResumes), cached_cache]
        exact update_slot world.cached .platform none
    · intro server state hState
      rcases hTracked.memory server state hState with hNot | ⟨hPaused, position, hPauses, hBefore⟩
      · exact .inl hNot
      · refine .inr ⟨hPaused, position, hPauses, ?_⟩
        intro other hOther hResumes
        rcases (hProcessed other).mp hOther with hOld | rfl
        · exact hBefore other hOld hResumes
        · have hGone := hForgotten hResumes server state hState
          rw [hPaused] at hGone
          cases hGone
  · refine hTracked.of_same hRemembered ?_ ?_ fun _ _ h => h
    · intro position hHere
      rw [hProcessed]
      constructor
      · rintro (hOld | rfl)
        · exact hOld
        · exact absurd hHere hChanges
      · exact .inl
    · unfold PauseWorld.cache
      split
      · exact (changeOf_key hChanges hChange).2 world.cached
      · rfl

theorem processed_restart_iff (server : ι) (memory : ι → PauseMemory) (position : Fin n) :
    PauseWorld.Processed
      { cached := world.cached
        memory
        calls := world.calls.map (PauseCall.stop server) } position ↔
      world.Processed position := by
  constructor
  · rintro ⟨j, other, hOther, hPosition, hDone⟩
    rw [List.getElem?_map] at hOther
    rcases Option.map_eq_some_iff.mp hOther with ⟨before, hBefore, rfl⟩
    unfold PauseCall.stop at hPosition hDone
    split at hDone
    · cases hDone
    · rename_i hKept
      rw [if_neg hKept] at hPosition
      exact ⟨j, before, hBefore, hPosition, hDone⟩
  · rintro ⟨j, other, hOther, hPosition, hDone⟩
    refine ⟨j, other, ?_, hPosition, hDone⟩
    rw [List.getElem?_map, hOther, Option.map_some, PauseCall.stop, if_neg]
    exact fun h => h.2 hDone

theorem tracked_restart (hTracked : Tracked env chain world) (server : ι) :
    Tracked env chain { world with
        memory := Function.update world.memory server .empty
        calls := world.calls.map (PauseCall.stop server) } := by
  refine hTracked.of_same ?_ ?_ rfl ?_
  · intro j other change hOther hRemembered
    rw [List.getElem?_map] at hOther
    rcases Option.map_eq_some_iff.mp hOther with ⟨before, hBefore, rfl⟩
    unfold PauseCall.stop at hRemembered ⊢
    split at hRemembered
    · cases hRemembered
    · rename_i hKept
      rw [if_neg hKept]
      exact hTracked.remembered j before change hBefore hRemembered
  · intro position _
    exact processed_restart_iff server _ position
  · intro other state hState
    dsimp only at hState
    by_cases hSame : other = server
    · subst hSame
      rw [Function.update_self] at hState
      cases hState
    · rw [Function.update_of_ne hSame] at hState
      exact hState

end

-- Pause State Agreement
----

open Transactional

variable {ι : Type} {n : Nat} [DecidableEq ι] {env : PauseEnv} {chain : Fin n → PlatformPauseEvent}
variable {world world' : PauseWorld ι n} {deliveries : List (ι × Fin n × ℤ)}
variable {moves : List (PauseMove ι)}

theorem Tracked.step {move : PauseMove ι} (hTracked : Tracked env chain world)
    (hInOrder : InOrder chain world move) (hStep : world.step env chain move = some world') :
    Tracked env chain world' := by
  cases move with
  | remember i =>
    simp only [PauseWorld.step] at hStep
    split at hStep
    · rename_i call hCall
      split at hStep
      · rename_i hWaiting
        cases hStep
        exact tracked_remember hTracked hCall hWaiting (hInOrder call hCall)
      · cases hStep
    · cases hStep
  | cache i served =>
    simp only [PauseWorld.step] at hStep
    split at hStep
    · rename_i call hCall
      split at hStep
      · rename_i change hStage
        cases hStep
        exact tracked_cache hTracked hCall hStage hInOrder
      · cases hStep
    · cases hStep
  | fail i =>
    simp only [PauseWorld.step] at hStep
    split at hStep
    · rename_i call hCall
      split at hStep
      · rename_i hWaiting
        cases hStep
        have hNotDone : call.stage ≠ .done := by
          rw [hWaiting]
          decide
        refine hTracked.of_same (remembered_settle hTracked fun _ h => by cases h)
          ?_ rfl fun _ _ h => h
        intro position _
        rw [processed_set_iff hCall hNotDone]
        simp
      · cases hStep
    · cases hStep
  | restart server =>
    cases hStep
    exact tracked_restart hTracked server
  | expire slot =>
    cases hStep
    refine hTracked.of_same hTracked.remembered (fun _ _ => .rfl) ?_ fun _ _ h => h
    by_cases hSlot : slot = .platform
    · have hNone := hInOrder hSlot
      subst hSlot
      exact (update_slot world.cached .platform none).trans hNone.symm
    · exact Function.update_of_ne (Ne.symm hSlot) _ _

omit [DecidableEq ι] in
theorem tracked_start : Tracked env chain (PauseWorld.start deliveries) := by
  have hWaiting (i : Nat) (call : PauseCall ι n)
      (hCall : (PauseWorld.start deliveries).calls[i]? = some call) :
      call.stage = .waiting := by
    unfold PauseWorld.start at hCall
    rw [List.getElem?_map] at hCall
    rcases Option.map_eq_some_iff.mp hCall with ⟨_, -, rfl⟩
    rfl
  refine ⟨?_, fun _ => rfl, ?_, ?_⟩
  · intro i call change hCall hRemembered
    rw [hWaiting i call hCall] at hRemembered
    cases hRemembered
  · rintro position ⟨i, call, hCall, -, hDone⟩
    rw [hWaiting i call hCall] at hDone
    cases hDone
  · intro server state hState
    cases hState

/- A finite chain has a last event of the platform, or none. -/
theorem exists_latest {position : Fin n} (hChanges : ChangesAt chain position) :
    ∃ latest, IsLatest chain latest := by
  have hMem : position ∈ Finset.univ.filter (ChangesAt chain) :=
    Finset.mem_filter.mpr ⟨Finset.mem_univ position, hChanges⟩
  refine ⟨Finset.max' _ ⟨position, hMem⟩, ?_, ?_⟩
  · exact (Finset.mem_filter.mp (Finset.max'_mem _ _)).2
  · intro other hOther
    exact Finset.le_max' _ _ (Finset.mem_filter.mpr ⟨Finset.mem_univ other, hOther⟩)

theorem tracked_of_run
    (hRun : RunsTo (PauseWorld.step env chain) (InOrder chain) (.start deliveries) moves world) :
    Tracked env chain world :=
  hRun.invariant (I := Tracked env chain) tracked_start fun _ _ _ hTracked hInOrder hStep =>
    hTracked.step hInOrder hStep

/-
  In every run whose moves meet the condition, once all events
  have been processed, every server reports the state of the last
  event of the platform.
-/
theorem pause_state_agrees
    (hRun : RunsTo (PauseWorld.step env chain) (InOrder chain) (.start deliveries) moves world)
    (hProcessed : ∀ position, world.Processed position) :
    world.Agrees chain env := by
  have hTracked : Tracked env chain world := tracked_of_run hRun
  by_cases hSome : ∃ latest, IsLatest chain latest
  · rcases hSome with ⟨latest, hChanges, hLast⟩
    have hOnly (other : Fin n) (hOther : IsLatest chain other) : other = latest :=
      le_antisymm (hLast other hOther.1) (hOther.2 latest hChanges)
    have hCached :=
      hTracked.newest latest (hProcessed latest) hChanges fun other _ hOther => hLast other hOther
    by_cases hPauses : PausesAt chain latest
    · rw [if_pos hPauses] at hCached
      rcases hCached with ⟨state, hState, hShows⟩
      refine ⟨state, ?_, ?_, ?_⟩
      · intro other hOther
        rw [hOnly other hOther]
        exact hShows
      · intro hNone
        exact absurd hChanges (hNone latest)
      · intro server
        rw [PauseWorld.report, getPlatformPauseState, hState]
    · rw [if_neg hPauses] at hCached
      refine ⟨notPaused, ?_, fun _ => rfl, ?_⟩
      · intro other hOther
        rw [hOnly other hOther, Shows, if_neg hPauses]
      · intro server
        rw [PauseWorld.report, getPlatformPauseState, hCached]
        cases hState : (world.memory server).platform with
        | none => rfl
        | some state =>
          rcases hTracked.memory server state hState with rfl | ⟨-, position, hPause, hBefore⟩
          · rfl
          · have hBehind := hBefore latest (hProcessed latest) (hChanges.resolve_left hPauses)
            exact absurd (hLast position (.inl hPause)) (not_le.mpr hBehind)
  · have hNone : ∀ position, ¬ ChangesAt chain position :=
      fun position hChanges => hSome (exists_latest hChanges)
    refine ⟨notPaused, ?_, fun _ => rfl, ?_⟩
    · intro latest hLatest
      exact absurd hLatest.1 (hNone latest)
    · intro server
      rw [PauseWorld.report, getPlatformPauseState,
        hTracked.untouched fun position _ => hNone position]
      cases hState : (world.memory server).platform with
      | none => rfl
      | some state =>
        rcases hTracked.memory server state hState with rfl | ⟨-, position, hPause, -⟩
        · rfl
        · exact absurd (.inl hPause) (hNone position)

/- Texts are no dates, and there are no profiles. -/
def bareEnv : PauseEnv where
  dateOf _ := none
  creatorProfile := []

def samplePauseEvent (eventType : String) : PlatformPauseEvent where
  toIndexerChainEvent := { Indexer.bareEvent eventType eventType 0 1 with actor := some "admin" }
  payload :=
    { triggeredBy := none
      pausedAt := some (.date 0)
      occurredAt := none
      keyId := none }

def pauseThenResume (position : Fin 2) : PlatformPauseEvent :=
  if position = 0 then samplePauseEvent "PLATFORM_PAUSED"
  else samplePauseEvent "PLATFORM_RESUMED"

/-
  The server that indexed the pause restarts before the other one
  indexes the resumption; both report it.
-/
theorem pause_state_agrees_sample :
    ∃ world : PauseWorld Bool 2,
      RunsTo (PauseWorld.step bareEnv pauseThenResume) (InOrder pauseThenResume)
        (.start [(false, 0, 0), (true, 1, 0)])
        [.remember 0, .cache 0 true, .restart false, .remember 1, .cache 1 true] world ∧
      world.Agrees pauseThenResume bareEnv ∧ ∀ server, world.report server = notPaused := by
  have hRun : (runAllowed (PauseWorld.step bareEnv pauseThenResume) (InOrder pauseThenResume)
      (.start [(false, 0, 0), (true, 1, 0)])
      [.remember 0, .cache 0 true, .restart false, .remember 1, .cache 1 true]).map
        (fun world : PauseWorld Bool 2 => (decide (∀ position, world.Processed position),
          decide (∀ server, world.report server = notPaused))) =
      some (true, true) := by decide
  rcases Option.map_eq_some_iff.mp hRun with ⟨world, hWorld, hBoth⟩
  have hInOrder := runsTo_of_runAllowed hWorld
  rcases Prod.mk.inj hBoth with ⟨hProcessed, hReports⟩
  exact ⟨world, hInOrder, pause_state_agrees hInOrder (of_decide_eq_true hProcessed),
    of_decide_eq_true hReports⟩

/-
  Two servers index one event each, in order, and the cache takes
  effect; the first falls back to the pause that it remembers.
-/
theorem stale_pause_reported :
    ∃ world : PauseWorld Bool 2, RunsTo (PauseWorld.step bareEnv pauseThenResume) (fun _ _ => True)
      (.start [(false, 0, 0), (true, 1, 0)])
      [.remember 0, .cache 0 true, .remember 1, .cache 1 true] world ∧
      (∀ position, world.Processed position) ∧
      ¬ world.Agrees pauseThenResume bareEnv := by
  refine ⟨_, runsTo_of_runLabels rfl, ?_, ?_⟩
  · intro position
    match position with
    | 0 => exact ⟨0, _, rfl, rfl, rfl⟩
    | 1 => exact ⟨1, _, rfl, rfl, rfl⟩
  · rintro ⟨state, hLatest, -, hReport⟩
    have hLast : IsLatest pauseThenResume 1 := ⟨.inr rfl, fun position _ => Fin.le_last position⟩
    have hShows := hLatest 1 hLast
    rw [Shows, if_neg (by decide)] at hShows
    have hStale := (hReport false).trans hShows
    exact absurd hStale (by decide)

end Platform

end AccessLayer
