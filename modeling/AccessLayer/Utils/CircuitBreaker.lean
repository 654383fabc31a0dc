import AccessLayer.Library.Doubles
import AccessLayer.Library.Runs

/-
  The circuit breaker of a dependency
  (`src/utils/circuit-breaker.utils.ts`).

  What a call does up to its `await`, and what it does after, is
  one step each.  Calls that were begun stay in flight until
  they finish, whatever has become of the breaker.  Thresholds
  are resolved once; logs and metrics are left out.

  Main result: `half_open_exclusive`
-/

-- Breaker
----

namespace AccessLayer

namespace Utils

open Doubles

inductive CircuitState where
  | closed
  | opened
  | halfOpen
  deriving DecidableEq

structure BreakerConfig where
  failureThreshold : ℚ
  failureRateThreshold : ℚ
  cooldownMs : ℚ
  windowMs : ℚ
  minRequestsForRate : ℚ
  autoProbe : Bool
  hasProbe : Bool

structure RollingEvent where
  timestamp : Int
  success : Bool
  deriving DecidableEq

/- The timer is kept as the time it is due. -/
structure CircuitBreaker where
  state : CircuitState
  consecutiveFailures : Nat
  lastFailure : Option Int
  lastSuccess : Option Int
  lastProbe : Option Int
  openedAt : Option Int
  halfOpenInFlight : Bool
  rollingEvents : List RollingEvent
  probeTimer : Option ℚ
  deriving DecidableEq

def CircuitBreaker.fresh : CircuitBreaker where
  state := .closed
  consecutiveFailures := 0
  lastFailure := none
  lastSuccess := none
  lastProbe := none
  openedAt := none
  halfOpenInFlight := false
  rollingEvents := []
  probeTimer := none

namespace CircuitBreaker

variable (config : BreakerConfig) (now : Int)

def transitionToHalfOpen (breaker : CircuitBreaker) : CircuitBreaker :=
  { breaker with state := .halfOpen, halfOpenInFlight := false }

def transitionToClosed (breaker : CircuitBreaker) : CircuitBreaker :=
  { breaker with
    state := .closed
    consecutiveFailures := 0
    halfOpenInFlight := false
    openedAt := none
    probeTimer := none }

def getRemainingCooldownMs (breaker : CircuitBreaker) : ℚ :=
  match breaker.state, breaker.openedAt with
  | .opened, some openedAt => max 0 (config.cooldownMs - (now - openedAt))
  | _, _ => 0

def getRemainingCooldownSeconds (breaker : CircuitBreaker) : Int :=
  max 1 ⌈breaker.getRemainingCooldownMs config now / 1000⌉

/- Armed for the end of the cooldown. -/
def scheduleRecoveryProbe (breaker : CircuitBreaker) : CircuitBreaker :=
  if config.autoProbe && config.hasProbe then
    { breaker with
      probeTimer := some (now + max 50 (breaker.getRemainingCooldownMs config now)) }
  else breaker

def transitionToOpen (breaker : CircuitBreaker) : CircuitBreaker :=
  scheduleRecoveryProbe config now { breaker with
      state := .opened
      openedAt := some now
      halfOpenInFlight := false }

/- Once its cooldown has passed, the breaker half-opens. -/
def getState (breaker : CircuitBreaker) : CircuitBreaker :=
  if breaker.state = .opened ∧ config.cooldownMs ≤ now - breaker.openedAt.getD 0 ∧
    breaker.halfOpenInFlight = false then
    breaker.transitionToHalfOpen
  else breaker

def cleanRollingWindow (breaker : CircuitBreaker) : CircuitBreaker :=
  { breaker with
    rollingEvents :=
      breaker.rollingEvents.filter fun event => now - config.windowMs ≤ event.timestamp }

/- The percentage of failures in floating-point numbers, rounded
   with halves up. -/
def getFailureRate (breaker : CircuitBreaker) : Int :=
  let events := breaker.rollingEvents
  let failures := (events.filter fun event => !event.success).length
  if events = [] then 0
  else ⌊toNumber (toNumber (failures / events.length) * 100) + 1 / 2⌋

/- The outcome of a call joins the rolling window. -/
def pushOutcome (success : Bool) (breaker : CircuitBreaker) : CircuitBreaker :=
  let cleaned := breaker.cleanRollingWindow config now
  { cleaned with
    rollingEvents := cleaned.rollingEvents ++ [{ timestamp := now, success }] }

def recordSuccess (breaker : CircuitBreaker) : CircuitBreaker :=
  let recorded :=
    pushOutcome config now true { breaker with
        lastSuccess := some now
        consecutiveFailures := 0 }
  if recorded.state = .halfOpen then recorded.transitionToClosed
  else recorded

/- Too many failures in a row, or too high a rate of them. -/
def tripped (breaker : CircuitBreaker) : Bool :=
  config.failureThreshold ≤ breaker.consecutiveFailures ||
    (config.minRequestsForRate ≤ breaker.rollingEvents.length &&
      config.failureRateThreshold < breaker.getFailureRate)

def recordFailure (breaker : CircuitBreaker) : CircuitBreaker :=
  let recorded :=
    pushOutcome config now false { breaker with
        lastFailure := some now
        consecutiveFailures := breaker.consecutiveFailures + 1 }
  match recorded.state with
  | .halfOpen => recorded.transitionToOpen config now
  | .closed =>
    if recorded.tripped config then
      recorded.transitionToOpen config now
    else recorded
  | .opened => recorded

/- What `execute` does with its action. -/
inductive Admission where
  | rejected (retryAfter : Int)
  | trial
  | normal

/- `execute` up to its action. -/
def beginExecute (breaker : CircuitBreaker) : Admission × CircuitBreaker :=
  let current := breaker.getState config now
  match current.state with
  | .opened => (.rejected (current.getRemainingCooldownSeconds config now), current)
  | .halfOpen =>
    if current.halfOpenInFlight then
      (.rejected (current.getRemainingCooldownSeconds config now), current)
    else
      (.trial, { current with
          halfOpenInFlight := true
          lastProbe := some now })
  | .closed => (.normal, current)

/- `execute` after its action; a trial clears the flag. -/
def finishExecute (isTrial success : Bool) (breaker : CircuitBreaker) : CircuitBreaker :=
  let recorded :=
    if success then breaker.recordSuccess config now
    else breaker.recordFailure config now
  if isTrial then { recorded with halfOpenInFlight := false }
  else recorded

/- `probe` up to its probe function. -/
def beginProbe (breaker : CircuitBreaker) : CircuitBreaker :=
  let ready :=
    if breaker.state = .opened then breaker.transitionToHalfOpen
    else breaker
  { ready with
    halfOpenInFlight := true
    lastProbe := some now }

/- `probe` after its probe function. -/
def finishProbe (success : Bool) (breaker : CircuitBreaker) : CircuitBreaker :=
  let decided :=
    if success then breaker.transitionToClosed
    else breaker.transitionToOpen config now
  { decided with halfOpenInFlight := false }

end CircuitBreaker

end Utils

end AccessLayer

-- Calls in Flight
----

namespace AccessLayer

namespace Utils

open Transactional CircuitBreaker

inductive FlightKind where
  | normal
  | trial
  | probe
  deriving DecidableEq

/-
  A call that waits for its action.  One that began while the
  breaker was half-open carries the number of that period.
-/
structure Flight where
  kind : FlightKind
  period : Option Nat
  deriving DecidableEq

structure World where
  breaker : CircuitBreaker
  clock : Int
  period : Nat
  flights : List Flight
  deriving DecidableEq

/- How an action ends, and the value of a probe. -/
inductive FlightOutcome where
  | resolved (value : Bool)
  | rejected
  deriving DecidableEq

/- `observe` is any other read of the state. -/
inductive BreakerMove where
  | advance (ms : Nat)
  | observe
  | execute
  | probe
  | fireTimer
  | finish (i : Nat) (outcome : FlightOutcome)

def World.start (clock : Int) : World where
  breaker := .fresh
  clock := clock
  period := 0
  flights := []

/- A period begins when the breaker becomes half-open. -/
def World.withBreaker (world : World) (breaker : CircuitBreaker) : World :=
  { world with
    breaker
    period :=
      if world.breaker.state ≠ .halfOpen ∧ breaker.state = .halfOpen then
        world.period + 1
      else world.period }

/- A call goes into flight. -/
def World.launch (world : World) (kind : FlightKind) : World :=
  { world with
    flights :=
      world.flights ++
        [{ kind
           period :=
             if world.breaker.state = .halfOpen then
               some world.period
             else none }] }

def World.beginProbe (world : World) : World :=
  (world.withBreaker (world.breaker.beginProbe world.clock)).launch .probe

/- Only `false` makes a resolved probe a failed one. -/
def succeeded (kind : FlightKind) (outcome : FlightOutcome) : Bool :=
  match kind with
  | .probe => outcome = .resolved true
  | _ => outcome ≠ .rejected

def finishFlight (config : BreakerConfig) (now : Int) (kind : FlightKind) (outcome : FlightOutcome)
    (breaker : CircuitBreaker) : CircuitBreaker :=
  let success := succeeded kind outcome
  match kind with
  | .normal => breaker.finishExecute config now false success
  | .trial => breaker.finishExecute config now true success
  | .probe => breaker.finishProbe config now success

def World.step (config : BreakerConfig) (world : World) : BreakerMove → Option World
  | .advance ms => some { world with clock := world.clock + ms }
  | .observe => some (world.withBreaker (world.breaker.getState config world.clock))
  | .execute =>
    match world.breaker.beginExecute config world.clock with
    | (.rejected _, breaker) => some (world.withBreaker breaker)
    | (.trial, breaker) => some ((world.withBreaker breaker).launch .trial)
    | (.normal, breaker) => some ((world.withBreaker breaker).launch .normal)
  | .probe =>
    -- without a probe function, `probe` does nothing
    if config.hasProbe then some world.beginProbe
    else some world
  | .fireTimer =>
    match world.breaker.probeTimer with
    | some due =>
      if due ≤ world.clock then
        some { world with
            breaker := { world.breaker with probeTimer := none }
            }.beginProbe
      else none
    | none => none
  | .finish i outcome =>
    match world.flights[i]? with
    | some flight =>
      some
        { world.withBreaker (finishFlight config world.clock flight.kind outcome world.breaker) with
          flights := world.flights.eraseIdx i }
    | none => none

end Utils

end AccessLayer

-- States After a Transition
----

namespace AccessLayer

namespace Utils

namespace CircuitBreaker

variable (config : BreakerConfig) (now : Int) (breaker : CircuitBreaker)

@[simp] theorem transitionToOpen_state :
    (breaker.transitionToOpen config now).state = .opened := by
  unfold transitionToOpen scheduleRecoveryProbe
  split
  · rfl
  · rfl

@[simp] theorem transitionToClosed_state :
    breaker.transitionToClosed.state = .closed := rfl

theorem getState_cases :
    breaker.getState config now = breaker ∨ breaker.state = .opened ∧
      (breaker.getState config now).state = .halfOpen ∧
      (breaker.getState config now).halfOpenInFlight = false := by
  unfold getState
  split
  · rename_i hDue
    exact Or.inr ⟨hDue.1, rfl, rfl⟩
  · exact Or.inl rfl

theorem recordSuccess_state :
    (breaker.recordSuccess config now).state =
      if breaker.state = .halfOpen then .closed
      else breaker.state := by
  by_cases hHalfOpen : breaker.state = .halfOpen
  · simp [recordSuccess, pushOutcome, cleanRollingWindow, hHalfOpen]
  · simp [recordSuccess, pushOutcome, cleanRollingWindow, hHalfOpen]

theorem recordFailure_state_ne : (breaker.recordFailure config now).state ≠ .halfOpen := by
  unfold recordFailure
  simp only
  split
  · simp
  · split
    · simp
    · rename_i hClosed _
      simp [hClosed]
  · rename_i hOpened
    simp [hOpened]

theorem recordFailure_state_of_halfOpen (hHalfOpen : breaker.state = .halfOpen) :
    (breaker.recordFailure config now).state = .opened := by
  unfold recordFailure
  simp only [pushOutcome, cleanRollingWindow, hHalfOpen]
  exact transitionToOpen_state config now _

theorem finishExecute_state_ne (isTrial success : Bool) :
    (breaker.finishExecute config now isTrial success).state ≠ .halfOpen := by
  have hRecorded : (if success then breaker.recordSuccess config now
      else breaker.recordFailure config now).state ≠
      .halfOpen := by
    split
    · rw [recordSuccess_state]
      split
      · simp
      · assumption
    · exact recordFailure_state_ne config now breaker
  unfold finishExecute
  simp only
  split
  · exact hRecorded
  · exact hRecorded

theorem finishExecute_state_of_halfOpen (isTrial success : Bool)
    (hHalfOpen : breaker.state = .halfOpen) :
    (breaker.finishExecute config now isTrial success).state =
      if success then .closed else .opened := by
  have hRecorded : (if success then breaker.recordSuccess config now
      else breaker.recordFailure config now).state =
      if success then .closed else .opened := by
    split
    · rw [recordSuccess_state, if_pos hHalfOpen]
    · exact recordFailure_state_of_halfOpen config now breaker hHalfOpen
  unfold finishExecute
  simp only
  split
  · exact hRecorded
  · exact hRecorded

theorem finishProbe_state (success : Bool) :
    (breaker.finishProbe config now success).state = if success then .closed else .opened := by
  unfold finishProbe
  split
  · rfl
  · exact transitionToOpen_state config now breaker

end CircuitBreaker

theorem finishFlight_state_ne (config : BreakerConfig) (now : Int) (kind : FlightKind)
    (outcome : FlightOutcome) (breaker : CircuitBreaker) :
    (finishFlight config now kind outcome breaker).state ≠ .halfOpen := by
  unfold finishFlight
  cases kind with
  | normal => exact breaker.finishExecute_state_ne config now _ _
  | trial => exact breaker.finishExecute_state_ne config now _ _
  | probe =>
    simp only [CircuitBreaker.finishProbe_state]
    split
    · simp
    · simp

theorem finishFlight_state_of_halfOpen (config : BreakerConfig) (now : Int) (kind : FlightKind)
    (outcome : FlightOutcome) {breaker : CircuitBreaker} (hHalfOpen : breaker.state = .halfOpen) :
    (finishFlight config now kind outcome breaker).state =
      if succeeded kind outcome then .closed else .opened := by
  cases kind with
  | normal => exact breaker.finishExecute_state_of_halfOpen config now _ _ hHalfOpen
  | trial => exact breaker.finishExecute_state_of_halfOpen config now _ _ hHalfOpen
  | probe => exact breaker.finishProbe_state config now _

end Utils

end AccessLayer

-- One Trial a Period
----

namespace AccessLayer

namespace Utils

open Transactional CircuitBreaker

/- The calls in flight that began in the current period. -/
def World.inPeriod (world : World) : Nat :=
  world.flights.countP fun flight => flight.period = some world.period

def World.isHalfOpen (world : World) : Prop := world.breaker.state = .halfOpen

def AtMostOneTrial (world : World) : Prop := world.isHalfOpen → world.inPeriod ≤ 1

/-
  A breaker stops being half-open only by the end of a call of
  that period, and the outcome of the call says what it becomes.
-/
def DecidedByTrial (world : World) (move : BreakerMove) (world' : World) : Prop :=
  world.isHalfOpen → ¬ world'.isHalfOpen → ∃ i outcome flight, move = .finish i outcome ∧
    world.flights[i]? = some flight ∧ flight.period = some world.period ∧ world'.breaker.state =
      if succeeded flight.kind outcome then .closed
      else .opened

/-
  No probe is started next to the trial of a half-open breaker,
  and no call of an earlier period ends in it.
-/
def Undisturbed (config : BreakerConfig) (world : World) : BreakerMove → Prop
  | .probe =>
    config.hasProbe = true → world.breaker.state = .halfOpen →
      world.breaker.halfOpenInFlight = false
  | .fireTimer => world.breaker.state = .halfOpen → world.breaker.halfOpenInFlight = false
  | .finish i _ =>
    world.breaker.state = .halfOpen → world.flights[i]?.bind Flight.period = some world.period
  | _ => True

instance (config : BreakerConfig) (world : World) (move : BreakerMove) :
    Decidable (Undisturbed config world move) :=
  match move with
  | .probe =>
    inferInstanceAs (Decidable (_ = true → _ = CircuitState.halfOpen → _ = false))
  | .fireTimer => inferInstanceAs (Decidable (_ = CircuitState.halfOpen → _ = false))
  | .finish _ _ => inferInstanceAs (Decidable (_ = CircuitState.halfOpen → _ = some _))
  | .advance _ => isTrue trivial
  | .observe => isTrue trivial
  | .execute => isTrue trivial

/-
  Periods are counted upwards, and the flag of a half-open
  breaker tells whether its trial is in flight.
-/
structure World.Orderly (world : World) : Prop where
  past : ∀ flight ∈ world.flights, ∀ p, flight.period = some p → p ≤ world.period
  flagged : world.isHalfOpen → world.inPeriod =
    if world.breaker.halfOpenInFlight then 1 else 0

variable {world : World}

theorem World.Orderly.atMostOneTrial (hOrderly : world.Orderly) : AtMostOneTrial world := by
  intro hHalfOpen
  rw [hOrderly.flagged hHalfOpen]
  split
  · exact Nat.le_refl 1
  · exact Nat.zero_le 1

theorem orderly_start (clock : Int) : (World.start clock).Orderly where
  past := by
    intro flight hMem
    cases hMem
  flagged := by
    intro hHalfOpen
    cases hHalfOpen

@[simp] theorem World.withBreaker_breaker
    (breaker : CircuitBreaker) : (world.withBreaker breaker).breaker = breaker := rfl

@[simp] theorem World.withBreaker_flights
    (breaker : CircuitBreaker) : (world.withBreaker breaker).flights = world.flights := rfl

theorem World.period_le_withBreaker (breaker : CircuitBreaker) :
    world.period ≤ (world.withBreaker breaker).period := by
  unfold World.withBreaker
  split
  · exact Nat.le_succ _
  · exact Nat.le_refl _

variable {breaker : CircuitBreaker}

/- A new period finds none of its calls in flight. -/
theorem inPeriod_of_entered (hOrderly : world.Orderly) (hBefore : ¬ world.isHalfOpen)
    (hAfter : breaker.state = .halfOpen) :
    (world.withBreaker breaker).inPeriod = 0 := by
  have hPeriod : (world.withBreaker breaker).period = world.period + 1 := if_pos ⟨hBefore, hAfter⟩
  unfold World.inPeriod
  rw [hPeriod, List.countP_eq_zero]
  intro flight hMem hCurrent
  have hLe := hOrderly.past flight hMem _ (of_decide_eq_true hCurrent)
  omega

theorem inPeriod_of_stayed (hBefore : world.isHalfOpen) :
    (world.withBreaker breaker).inPeriod = world.inPeriod := by
  have hPeriod : (world.withBreaker breaker).period = world.period := if_neg fun h => h.1 hBefore
  unfold World.inPeriod
  rw [hPeriod, World.withBreaker_flights]

theorem past_withBreaker (breaker : CircuitBreaker) (hOrderly : world.Orderly) :
    ∀ flight ∈ (world.withBreaker breaker).flights, ∀ p, flight.period = some p →
      p ≤ (world.withBreaker breaker).period := by
  intro flight hMem p hPeriod
  exact (hOrderly.past flight hMem p hPeriod).trans (World.period_le_withBreaker breaker)

theorem orderly_getState (config : BreakerConfig) (now : Int) (hOrderly : world.Orderly) :
    (world.withBreaker (world.breaker.getState config now)).Orderly where
  past := past_withBreaker _ hOrderly
  flagged := by
    intro hHalfOpen
    rcases world.breaker.getState_cases config now with hSame | ⟨hOpened, hAfter, hFlag⟩
    · rw [hSame] at hHalfOpen ⊢
      have hBefore : world.isHalfOpen := hHalfOpen
      rw [inPeriod_of_stayed hBefore]
      exact hOrderly.flagged hBefore
    · have hBefore : ¬ world.isHalfOpen := by
        simp [World.isHalfOpen, hOpened]
      rw [inPeriod_of_entered hOrderly hBefore hAfter]
      simp [hFlag]

theorem inPeriod_launch {kind : FlightKind} (hHalfOpen : world.isHalfOpen) :
    (world.launch kind).inPeriod = world.inPeriod + 1 := by
  unfold World.isHalfOpen at hHalfOpen
  simp [World.inPeriod, World.launch, hHalfOpen]

/-
  A call that goes into flight raises the flag of a half-open
  breaker; it is the only one if the flag was down.
-/
theorem orderly_launch (kind : FlightKind) (hOrderly : world.Orderly)
    (hFree : world.isHalfOpen → world.breaker.halfOpenInFlight = false)
    (hFlag : breaker.state = .halfOpen → breaker.halfOpenInFlight = true) :
    ((world.withBreaker breaker).launch kind).Orderly where
  past := by
    intro flight hMem p hPeriod
    rcases List.mem_append.mp hMem with hOld | hNew
    · exact past_withBreaker breaker hOrderly flight hOld p hPeriod
    · rw [List.mem_singleton] at hNew
      rw [hNew] at hPeriod
      simp only [Option.ite_none_right_eq_some, Option.some.injEq] at hPeriod
      exact Nat.le_of_eq hPeriod.2.symm
  flagged := by
    intro hHalfOpen
    have hAfter : (world.withBreaker breaker).isHalfOpen := hHalfOpen
    have hNone : (world.withBreaker breaker).inPeriod = 0 := by
      by_cases hBefore : world.isHalfOpen
      · rw [inPeriod_of_stayed hBefore, hOrderly.flagged hBefore, hFree hBefore]
        rfl
      · exact inPeriod_of_entered hOrderly hBefore hAfter
    rw [inPeriod_launch hAfter, hNone]
    exact (if_pos (hFlag hAfter)).symm

/- The end of a call. -/
theorem orderly_finish (i : Nat) (hOrderly : world.Orderly) (hAfter : breaker.state ≠ .halfOpen) :
    World.Orderly { world.withBreaker breaker with
        flights := world.flights.eraseIdx i } where
  past := by
    intro flight hMem
    exact past_withBreaker breaker hOrderly flight (List.mem_of_mem_eraseIdx hMem)
  flagged := fun hHalfOpen => absurd hHalfOpen hAfter

end Utils

end AccessLayer

-- Undisturbed Runs
----

namespace AccessLayer

namespace Utils

open Transactional CircuitBreaker

variable {config : BreakerConfig} {world world' : World}

/-
  What a call that begins leaves: a call that is rejected only
  read the state, one that is let through went into flight.
-/
theorem step_execute (hStep : world.step config .execute = some world') :
    world' = world.withBreaker (world.breaker.getState config world.clock) ∨ ∃ breaker kind,
      world' = (world.withBreaker breaker).launch kind ∧ (world.isHalfOpen →
        world.breaker.halfOpenInFlight = false ∧ breaker.state = .halfOpen) ∧
      (breaker.state = .halfOpen → breaker.halfOpenInFlight = true) := by
  have hSame : world.isHalfOpen → world.breaker.getState config world.clock =
      world.breaker := by
    intro hHalfOpen
    unfold World.isHalfOpen at hHalfOpen
    simp [getState, hHalfOpen]
  unfold World.step at hStep
  simp only [beginExecute] at hStep
  cases hState : (world.breaker.getState config world.clock).state with
  | opened =>
    simp only [hState, Option.some.injEq] at hStep
    exact Or.inl hStep.symm
  | closed =>
    simp only [hState, Option.some.injEq] at hStep
    refine Or.inr ⟨_, .normal, hStep.symm, ?_, ?_⟩
    · intro hHalfOpen
      rw [hSame hHalfOpen] at hState
      exact absurd (hHalfOpen.symm.trans hState) (by decide)
    · simp [hState]
  | halfOpen =>
    by_cases hFlag : (world.breaker.getState config world.clock).halfOpenInFlight = true
    · simp only [hState, hFlag, if_true, Option.some.injEq] at hStep
      exact Or.inl hStep.symm
    · simp only [hState, hFlag, Bool.false_eq_true, if_false, Option.some.injEq] at hStep
      refine Or.inr ⟨_, .trial, hStep.symm, ?_, ?_⟩
      · intro hHalfOpen
        rw [hSame hHalfOpen] at hFlag
        exact ⟨by simpa using hFlag, rfl⟩
      · intro _
        rfl

theorem beginProbe_spec (now : Int) (breaker : CircuitBreaker) :
    (breaker.beginProbe now).halfOpenInFlight = true ∧ (breaker.state = .halfOpen →
      (breaker.beginProbe now).state = .halfOpen) := by
  unfold beginProbe
  refine ⟨rfl, ?_⟩
  intro hHalfOpen
  simp [hHalfOpen]

theorem step_probe (hStep : world.step config .probe = some world') :
    config.hasProbe = true ∧ world' = world.beginProbe ∨
      config.hasProbe = false ∧ world' = world := by
  unfold World.step at hStep
  by_cases hProbe : config.hasProbe = true
  · simp only [hProbe, if_true, Option.some.injEq] at hStep
    exact Or.inl ⟨hProbe, hStep.symm⟩
  · simp only [hProbe, Bool.false_eq_true, if_false, Option.some.injEq] at hStep
    exact Or.inr ⟨by simpa using hProbe, hStep.symm⟩

theorem step_finish {i : Nat} {outcome : FlightOutcome}
    (hStep : world.step config (.finish i outcome) = some world') :
    ∃ flight, world.flights[i]? = some flight ∧ world' =
      { world.withBreaker (finishFlight config world.clock flight.kind outcome world.breaker) with
        flights := world.flights.eraseIdx i } := by
  unfold World.step at hStep
  cases hFlight : world.flights[i]? with
  | none => simp [hFlight] at hStep
  | some flight =>
    simp only [hFlight, Option.some.injEq] at hStep
    exact ⟨flight, rfl, hStep.symm⟩

theorem step_fireTimer (hStep : world.step config .fireTimer = some world') :
    world' = World.beginProbe { world with
          breaker :=
            { world.breaker with probeTimer := none } } := by
  unfold World.step at hStep
  cases hTimer : world.breaker.probeTimer with
  | none => simp [hTimer] at hStep
  | some due =>
    simp only [hTimer] at hStep
    split at hStep
    · exact (Option.some.inj hStep).symm
    · cases hStep

/- Only the fields an orderly world speaks of matter. -/
theorem orderly_disarmed (hOrderly : world.Orderly) :
    World.Orderly { world with
        breaker := { world.breaker with probeTimer := none } } := ⟨hOrderly.past, hOrderly.flagged⟩

theorem orderly_beginProbe (hOrderly : world.Orderly)
    (hFree : world.isHalfOpen → world.breaker.halfOpenInFlight = false) :
    world.beginProbe.Orderly :=
  orderly_launch .probe hOrderly hFree fun _ => (beginProbe_spec world.clock world.breaker).1

theorem two_trials_of_beginProbe (hOrderly : world.Orderly) (hHalfOpen : world.isHalfOpen)
    (hFlag : world.breaker.halfOpenInFlight = true) :
    ¬ AtMostOneTrial world.beginProbe := by
  have hAfter : (world.withBreaker (world.breaker.beginProbe world.clock)).isHalfOpen :=
    (beginProbe_spec world.clock world.breaker).2 hHalfOpen
  intro hSingle
  have hCount := hSingle hAfter
  unfold World.beginProbe at hCount
  rw [inPeriod_launch hAfter, inPeriod_of_stayed hHalfOpen,
    hOrderly.flagged hHalfOpen, if_pos hFlag] at hCount
  omega

variable {move : BreakerMove}

theorem orderly_step (hOrderly : world.Orderly) (hUndisturbed : Undisturbed config world move)
    (hStep : world.step config move = some world') :
    world'.Orderly := by
  cases move with
  | advance ms =>
    cases hStep
    exact ⟨hOrderly.past, hOrderly.flagged⟩
  | observe =>
    cases hStep
    exact orderly_getState config world.clock hOrderly
  | execute =>
    rcases step_execute hStep with rfl | ⟨breaker, kind, rfl, hBefore, hFlag⟩
    · exact orderly_getState config world.clock hOrderly
    · exact orderly_launch kind hOrderly (fun hHalfOpen => (hBefore hHalfOpen).1) hFlag
  | probe =>
    rcases step_probe hStep with ⟨hProbe, rfl⟩ | ⟨-, rfl⟩
    · exact orderly_beginProbe hOrderly (hUndisturbed hProbe)
    · exact hOrderly
  | fireTimer =>
    rw [step_fireTimer hStep]
    exact orderly_beginProbe (orderly_disarmed hOrderly) hUndisturbed
  | finish i outcome =>
    rcases step_finish hStep with ⟨flight, -, rfl⟩
    exact orderly_finish i hOrderly (finishFlight_state_ne config world.clock flight.kind
      outcome world.breaker)

/- Only the end of a call takes a breaker out of half-open. -/
theorem decidedByTrial_step (hUndisturbed : Undisturbed config world move)
    (hStep : world.step config move = some world') :
    DecidedByTrial world move world' := by
  intro hHalfOpen hAfter
  cases move with
  | advance ms =>
    cases hStep
    exact absurd hHalfOpen hAfter
  | observe =>
    cases hStep
    unfold World.isHalfOpen at hHalfOpen
    simp [World.isHalfOpen, getState, hHalfOpen] at hAfter
  | execute =>
    rcases step_execute hStep with rfl | ⟨breaker, kind, rfl, hBefore, -⟩
    · unfold World.isHalfOpen at hHalfOpen
      simp [World.isHalfOpen, getState, hHalfOpen] at hAfter
    · exact absurd (hBefore hHalfOpen).2 hAfter
  | probe =>
    rcases step_probe hStep with ⟨-, rfl⟩ | ⟨-, rfl⟩
    · exact absurd ((beginProbe_spec world.clock world.breaker).2 hHalfOpen) hAfter
    · exact absurd hHalfOpen hAfter
  | fireTimer =>
    rw [step_fireTimer hStep] at hAfter
    exact absurd ((beginProbe_spec world.clock { world.breaker with probeTimer := none }).2
      hHalfOpen) hAfter
  | finish i outcome =>
    rcases step_finish hStep with ⟨flight, hFlight, rfl⟩
    have hPeriod := hUndisturbed hHalfOpen
    rw [hFlight] at hPeriod
    exact ⟨i, outcome, flight, rfl, hFlight, hPeriod,
      finishFlight_state_of_halfOpen config world.clock flight.kind outcome hHalfOpen⟩

/- A disturbed step lets in a second trial, or leaves the half-open state without one. -/
theorem undisturbed_of_step (hOrderly : world.Orderly)
    (hStep : world.step config move = some world') (hSingle : AtMostOneTrial world')
    (hDecided : DecidedByTrial world move world') :
    Undisturbed config world move := by
  cases move with
  | advance ms => trivial
  | observe => trivial
  | execute => trivial
  | probe =>
    intro hProbe hHalfOpen
    rcases step_probe hStep with ⟨-, rfl⟩ | ⟨hNone, -⟩
    · by_contra hFlag
      exact two_trials_of_beginProbe hOrderly hHalfOpen (by simpa using hFlag) hSingle
    · exact absurd (hProbe.symm.trans hNone) (by decide)
  | fireTimer =>
    intro hHalfOpen
    rw [step_fireTimer hStep] at hSingle
    by_contra hFlag
    exact two_trials_of_beginProbe (orderly_disarmed hOrderly)
      hHalfOpen (by simpa using hFlag) hSingle
  | finish i outcome =>
    intro hHalfOpen
    rcases step_finish hStep with ⟨flight, hFlight, rfl⟩
    rcases hDecided hHalfOpen (finishFlight_state_ne config world.clock flight.kind
      outcome world.breaker) with ⟨j, outcome', other, hMove, hOther, hPeriod, -⟩
    cases hMove
    rw [hOther]
    exact hPeriod

/-
  In every undisturbed run a half-open breaker has at most one
  call of its period in flight and only that call decides it;
  the first disturbed step of a run breaks this.
-/
theorem half_open_exclusive {clock : Int} {moves : List BreakerMove}
    (hRun : RunsTo (World.step config) (Undisturbed config) (.start clock) moves world) :
    AtMostOneTrial world ∧ ∀ move world', world.step config move = some world' →
      (Undisturbed config world move ↔ AtMostOneTrial world' ∧
        DecidedByTrial world move world') := by
  have hOrderly : world.Orderly :=
    RunsTo.invariant (orderly_start clock) (fun s move t hs hAllowed hStep =>
      orderly_step hs hAllowed hStep)
      hRun
  refine ⟨hOrderly.atMostOneTrial, ?_⟩
  intro move world' hStep
  constructor
  · intro hUndisturbed
    exact ⟨(orderly_step hOrderly hUndisturbed hStep).atMostOneTrial,
      decidedByTrial_step hUndisturbed hStep⟩
  · rintro ⟨hSingle, hDecided⟩
    exact undisturbed_of_step hOrderly hStep hSingle hDecided

/- One failure opens it, for half a minute. -/
def sampleBreaker : BreakerConfig where
  failureThreshold := 1
  failureRateThreshold := 50
  cooldownMs := 30000
  windowMs := 60000
  minRequestsForRate := 5
  autoProbe := true
  hasProbe := true

/- Opened by a failure at time 0 and tried half a minute later. -/
def triedBreaker : CircuitBreaker where
  state := .halfOpen
  consecutiveFailures := 1
  lastFailure := some 0
  lastSuccess := none
  lastProbe := some 30000
  openedAt := some 0
  halfOpenInFlight := true
  rollingEvents := [{ timestamp := 0, success := false }]
  probeTimer := some 30000

theorem half_open_exclusive_sample :
    AtMostOneTrial (.mk triedBreaker 30000 1 [{ kind := .trial, period := some 1 }]) :=
  (@half_open_exclusive sampleBreaker _ 0 [.execute, .finish 0 .rejected, .advance 30000, .execute]
    (runsTo_of_runAllowed (by decide +kernel))).1

/-
  The timer starts a probe next to a trial in flight; and a call
  that began in a closed breaker closes a half-open one although
  its trial has not ended.
-/
theorem half_open_not_exclusive :
    (∃ world, runLabels (World.step sampleBreaker) (.start 0)
      [.execute, .finish 0 .rejected, .advance 30000, .execute, .fireTimer] = some world ∧
      ¬ AtMostOneTrial world) ∧ ∃ world world', runLabels (World.step sampleBreaker) (.start 0)
        [.execute, .execute, .finish 1 .rejected, .advance 30000, .execute] = some world ∧
      world.step sampleBreaker (.finish 0 (.resolved true)) = some world' ∧
      world'.breaker.state = .closed ∧ ¬ DecidedByTrial world (.finish 0 (.resolved true))
        world' := by
  constructor
  · refine ⟨.mk { triedBreaker with probeTimer := none } 30000 1
      [{ kind := .trial, period := some 1 }, { kind := .probe, period := some 1 }],
      by decide +kernel, ?_⟩
    intro hSingle
    exact absurd (hSingle rfl) (by decide)
  · refine ⟨.mk triedBreaker 30000 1 [{ kind := .normal, period := none },
      { kind := .trial, period := some 1 }], _, by decide +kernel, rfl, by decide, ?_⟩
    intro hDecided
    rcases hDecided rfl (finishFlight_state_ne sampleBreaker 30000 .normal
      (.resolved true) triedBreaker) with ⟨i, outcome, flight, hMove, hFlight, hPeriod, -⟩
    cases hMove
    cases hFlight
    exact absurd hPeriod (by decide)

end Utils

end AccessLayer
