import AccessLayer.Utils.CircuitBreaker

/-
  When the circuit breaker of a dependency opens
  (`src/utils/circuit-breaker.utils.ts`).

  Calls and probes begin and end in any order, and the clock
  advances between them.

  Main result: `breaker_invariant`
-/

-- Openings
----

namespace AccessLayer

namespace Utils

section

open Transactional CircuitBreaker

/- The outcomes that a failure is counted among, itself as well. -/
def CircuitBreaker.outcomesAfterFailure (config : BreakerConfig) (now : Int)
    (breaker : CircuitBreaker) : CircuitBreaker :=
  pushOutcome config now false { breaker with
      lastFailure := some now
      consecutiveFailures := breaker.consecutiveFailures + 1 }

/- One more failure makes up the threshold. -/
def CircuitBreaker.ReachesThreshold (config : BreakerConfig) (breaker : CircuitBreaker) : Prop :=
  config.failureThreshold ≤ breaker.consecutiveFailures + 1

/- With one more failure, too many of the window have failed. -/
def CircuitBreaker.ExceedsRate (config : BreakerConfig) (now : Int)
    (breaker : CircuitBreaker) : Prop :=
  let counted := breaker.outcomesAfterFailure config now
  config.minRequestsForRate ≤ counted.rollingEvents.length ∧
    config.failureRateThreshold < counted.getFailureRate

/-
  A failed call opens a half-open breaker.  It opens a closed one
  if it makes up the threshold or exceeds the rate, and a failed
  probe opens a closed one in any case.
-/
def Opens (config : BreakerConfig) (world : World) (move : BreakerMove) : Prop :=
  ∃ i outcome flight, move = .finish i outcome ∧ world.flights[i]? = some flight ∧
    succeeded flight.kind outcome = false ∧ (world.breaker.state = .halfOpen ∨
      world.breaker.state = .closed ∧ (flight.kind = .probe ∨
        world.breaker.ReachesThreshold config ∨ world.breaker.ExceedsRate config world.clock))

/- A move leaves a breaker open that was not open before. -/
def Opened (world world' : World) : Prop :=
  world.breaker.state ≠ .opened ∧ world'.breaker.state = .opened

/- Fewer failures in a row than the threshold. -/
def CircuitBreaker.Below (config : BreakerConfig) (breaker : CircuitBreaker) : Prop :=
  breaker.state = .closed → breaker.consecutiveFailures < config.failureThreshold

def CircuitBreaker.Stamped (breaker : CircuitBreaker) : Prop :=
  breaker.state = .opened → breaker.openedAt ≠ none

/- What holds in every state that is reached, and of every step from it. -/
structure BreakerInvariant (config : BreakerConfig) (world : World) : Prop where
  closed : world.breaker.Below config
  opens : ∀ move world', world.step config move = some world' →
    (Opened world world' ↔ Opens config world move)
  opened : ∀ move world', world.step config move = some world' → Opened world world' →
    world'.breaker.openedAt = some world.clock
  rejects : world.breaker.state = .opened → ∃ openedAt, world.breaker.openedAt = some openedAt ∧
    (world.clock - openedAt < config.cooldownMs → ∃ retryAfter,
      world.breaker.beginExecute config world.clock = (.rejected retryAfter, world.breaker))

end

-- Ends of Calls
----

namespace CircuitBreaker

variable (config : BreakerConfig) (now : Int) {breaker : CircuitBreaker}

theorem recordFailure_eq :
    breaker.recordFailure config now =
      match breaker.state with
      | .halfOpen => (breaker.outcomesAfterFailure config now ).transitionToOpen config now
      | .closed =>
        if (breaker.outcomesAfterFailure config now).tripped config then
          (breaker.outcomesAfterFailure config now ).transitionToOpen config now
        else breaker.outcomesAfterFailure config now
      | .opened => breaker.outcomesAfterFailure config now := rfl

theorem tripped_iff :
    (breaker.outcomesAfterFailure config now).tripped config = true ↔
      breaker.ReachesThreshold config ∨ breaker.ExceedsRate config now := by
  simp [tripped, ReachesThreshold, ExceedsRate,
    outcomesAfterFailure, pushOutcome, cleanRollingWindow]

@[simp] theorem transitionToOpen_openedAt :
    (breaker.transitionToOpen config now).openedAt = some now := by
  unfold transitionToOpen scheduleRecoveryProbe
  split
  · rfl
  · rfl

@[simp] theorem outcomesAfterFailure_state :
    (breaker.outcomesAfterFailure config now).state =
      breaker.state := rfl

theorem recordFailure_of_closed (hClosed : breaker.state = .closed) :
    (breaker.ReachesThreshold config ∨ breaker.ExceedsRate config now) ∧
      breaker.recordFailure config now = (breaker.outcomesAfterFailure config now
        ).transitionToOpen config now ∨ ¬ (breaker.ReachesThreshold config ∨
        breaker.ExceedsRate config now) ∧ breaker.recordFailure config now =
        breaker.outcomesAfterFailure config now := by
  rw [recordFailure_eq, hClosed, ← tripped_iff]
  dsimp only
  split
  · rename_i hTripped
    exact Or.inl ⟨hTripped, rfl⟩
  · rename_i hTripped
    exact Or.inr ⟨hTripped, rfl⟩

theorem recordFailure_opens (hBefore : breaker.state ≠ .opened) :
    (breaker.recordFailure config now).state = .opened ↔ breaker.state = .halfOpen ∨
      breaker.state = .closed ∧ (breaker.ReachesThreshold config ∨
        breaker.ExceedsRate config now) := by
  cases hState : breaker.state with
  | opened => exact absurd hState hBefore
  | halfOpen => simp [recordFailure_state_of_halfOpen config now breaker hState]
  | closed =>
    rcases recordFailure_of_closed config now hState with ⟨hTrips, hSame⟩ | ⟨hTrips, hSame⟩
    · simp [hSame, hTrips]
    · simp [hSame, hTrips, hState]

theorem recordFailure_openedAt (hBefore : breaker.state ≠ .opened)
    (hAfter : (breaker.recordFailure config now).state = .opened) :
    (breaker.recordFailure config now).openedAt = some now := by
  cases hState : breaker.state with
  | opened => exact absurd hState hBefore
  | halfOpen => simp [recordFailure_eq, hState]
  | closed =>
    rcases recordFailure_of_closed config now hState with ⟨-, hSame⟩ | ⟨-, hSame⟩
    · simp [hSame]
    · rw [hSame, outcomesAfterFailure_state, hState] at hAfter
      cases hAfter

@[simp] theorem recordSuccess_failures :
    (breaker.recordSuccess config now).consecutiveFailures = 0 := by
  unfold recordSuccess
  simp only
  split
  · rfl
  · rfl

theorem recordSuccess_state_ne (hBefore : breaker.state ≠ .opened) :
    (breaker.recordSuccess config now).state ≠ .opened := by
  rw [recordSuccess_state]
  split
  · simp
  · exact hBefore

theorem below_recordSuccess (hThreshold : 1 ≤ config.failureThreshold) :
    (breaker.recordSuccess config now).Below config := by
  intro _
  rw [recordSuccess_failures, Nat.cast_zero]
  linarith

theorem below_recordFailure : (breaker.recordFailure config now).Below config := by
  intro hClosed
  cases hState : breaker.state with
  | opened => simp [recordFailure_eq, hState] at hClosed
  | halfOpen =>
    rw [recordFailure_state_of_halfOpen config now breaker hState] at hClosed
    cases hClosed
  | closed =>
    rcases recordFailure_of_closed config now hState with ⟨-, hSame⟩ | ⟨hTrips, hSame⟩
    · simp [hSame] at hClosed
    · rw [hSame]
      have hFew := not_le.mp fun hReaches => hTrips (Or.inl hReaches)
      simpa [outcomesAfterFailure, pushOutcome, cleanRollingWindow] using hFew

end CircuitBreaker

-- Runs
----

open Transactional CircuitBreaker

variable {world world' : World} {move : BreakerMove}

section

variable (config : BreakerConfig) (now : Int) {breaker : CircuitBreaker} {kind : FlightKind}
variable {outcome : FlightOutcome}

theorem finishFlight_execute (outcome : FlightOutcome) (breaker : CircuitBreaker)
    (hKind : kind ≠ .probe) :
    ∃ flag, finishFlight config now kind outcome breaker =
      { (if succeeded kind outcome then
          breaker.recordSuccess config now
        else breaker.recordFailure config now) with
        halfOpenInFlight := flag } := by
  cases kind with
  | probe => exact absurd rfl hKind
  | normal => exact ⟨_, rfl⟩
  | trial => exact ⟨_, rfl⟩

theorem below_finishFlight (hThreshold : 1 ≤ config.failureThreshold) :
    (finishFlight config now kind outcome breaker).Below config := by
  by_cases hKind : kind = .probe
  · subst hKind
    intro hClosed
    unfold finishFlight finishProbe at hClosed ⊢
    simp only at hClosed ⊢
    split
    · simp only [transitionToClosed, Nat.cast_zero]
      linarith
    · rename_i hFailed
      simp [hFailed] at hClosed
  · rcases finishFlight_execute config now outcome breaker hKind with ⟨flag, hSame⟩
    rw [hSame]
    split
    · exact below_recordSuccess config now hThreshold
    · exact below_recordFailure config now

theorem finishFlight_opens (hBefore : breaker.state ≠ .opened) :
    (finishFlight config now kind outcome breaker).state = .opened ↔
      succeeded kind outcome = false ∧ (breaker.state = .halfOpen ∨ breaker.state = .closed ∧
        (kind = .probe ∨ breaker.ReachesThreshold config ∨
          breaker.ExceedsRate config now)) := by
  by_cases hKind : kind = .probe
  · subst hKind
    unfold finishFlight
    simp only [finishProbe_state, true_or, and_true]
    have hOpen : breaker.state = .halfOpen ∨ breaker.state = .closed := by
      cases hState : breaker.state with
      | opened => exact absurd hState hBefore
      | halfOpen => exact Or.inl rfl
      | closed => exact Or.inr rfl
    simp only [hOpen, and_true]
    cases succeeded .probe outcome with
    | true => simp
    | false => simp
  · rcases finishFlight_execute config now outcome breaker hKind with ⟨flag, hSame⟩
    rw [hSame]
    cases hOutcome : succeeded kind outcome with
    | true => simp [recordSuccess_state_ne config now hBefore]
    | false => simp [recordFailure_opens config now hBefore, hKind]

theorem finishFlight_openedAt (hBefore : breaker.state ≠ .opened)
    (hAfter : (finishFlight config now kind outcome breaker).state = .opened) :
    (finishFlight config now kind outcome breaker).openedAt = some now := by
  by_cases hKind : kind = .probe
  · subst hKind
    unfold finishFlight finishProbe at hAfter ⊢
    simp only at hAfter ⊢
    split
    · rename_i hSucceeded
      simp [hSucceeded] at hAfter
    · simp
  · rcases finishFlight_execute config now outcome breaker hKind with ⟨flag, hSame⟩
    rw [hSame] at hAfter ⊢
    cases hOutcome : succeeded kind outcome with
    | true => simp [hOutcome, recordSuccess_state_ne config now hBefore] at hAfter
    | false =>
      simp only [hOutcome, Bool.false_eq_true, if_false] at hAfter ⊢
      exact recordFailure_openedAt config now hBefore hAfter

theorem stamped_finishFlight (hStamped : breaker.Stamped) :
    (finishFlight config now kind outcome breaker).Stamped := by
  intro hAfter
  by_cases hBefore : breaker.state = .opened
  · by_cases hKind : kind = .probe
    · subst hKind
      unfold finishFlight finishProbe at hAfter ⊢
      simp only at hAfter ⊢
      split
      · rename_i hSucceeded
        simp [hSucceeded] at hAfter
      · simp
    · rcases finishFlight_execute config now outcome breaker hKind with ⟨flag, hSame⟩
      rw [hSame]
      have hOpenedAt := hStamped hBefore
      split
      · simpa [recordSuccess, pushOutcome, cleanRollingWindow, hBefore] using hOpenedAt
      · simpa [recordFailure, pushOutcome, cleanRollingWindow, hBefore] using hOpenedAt
  · rw [finishFlight_openedAt config now hBefore hAfter]
    simp

/-
  What any other move does to the breaker: it half-opens it, or
  touches neither its state, its count nor its opening.
-/
def Eased (breaker breaker' : CircuitBreaker) : Prop :=
  breaker'.state = .halfOpen ∨ breaker'.state = breaker.state ∧ breaker'.consecutiveFailures =
    breaker.consecutiveFailures ∧ breaker'.openedAt = breaker.openedAt

theorem eased_getState : Eased breaker (breaker.getState config now) := by
  rcases breaker.getState_cases config now with hSame | ⟨-, hHalfOpen, -⟩
  · rw [hSame]
    exact Or.inr ⟨rfl, rfl, rfl⟩
  · exact Or.inl hHalfOpen

theorem eased_beginExecute : Eased breaker (breaker.beginExecute config now).2 := by
  have hRead : Eased breaker (breaker.getState config now) := eased_getState config now
  unfold beginExecute
  simp only
  split
  · exact hRead
  · rename_i hHalfOpen
    split
    · exact hRead
    · exact Or.inl hHalfOpen
  · exact hRead

theorem eased_beginProbe : Eased breaker (breaker.beginProbe now) := by
  unfold beginProbe
  split
  · exact Or.inl rfl
  · exact Or.inr ⟨rfl, rfl, rfl⟩

end

theorem step_execute_breaker {config : BreakerConfig}
    (hStep : world.step config .execute = some world') :
    world'.breaker = (world.breaker.beginExecute config world.clock).2 := by
  unfold World.step at hStep
  simp only at hStep
  split at hStep
  · rename_i hBegin
    rw [← Option.some.inj hStep, hBegin]
    rfl
  · rename_i hBegin
    rw [← Option.some.inj hStep, hBegin]
    rfl
  · rename_i hBegin
    rw [← Option.some.inj hStep, hBegin]
    rfl

theorem step_breaker {config : BreakerConfig} (hStep : world.step config move = some world') :
    (∃ i outcome flight, move = .finish i outcome ∧ world.flights[i]? = some flight ∧
      world'.breaker = finishFlight config world.clock flight.kind outcome world.breaker) ∨
      (∀ i outcome, move ≠ .finish i outcome) ∧ Eased world.breaker world'.breaker := by
  cases move with
  | advance ms =>
    cases hStep
    exact Or.inr ⟨by simp, Or.inr ⟨rfl, rfl, rfl⟩⟩
  | observe =>
    cases hStep
    exact Or.inr ⟨by simp, eased_getState config world.clock⟩
  | execute =>
    rw [step_execute_breaker hStep]
    exact Or.inr ⟨by simp, eased_beginExecute config world.clock⟩
  | probe =>
    refine Or.inr ⟨by simp, ?_⟩
    rcases step_probe hStep with ⟨-, rfl⟩ | ⟨-, rfl⟩
    · exact eased_beginProbe world.clock
    · exact Or.inr ⟨rfl, rfl, rfl⟩
  | fireTimer =>
    rw [step_fireTimer hStep]
    refine Or.inr ⟨by simp, ?_⟩
    exact @eased_beginProbe world.clock { world.breaker with probeTimer := none }
  | finish i outcome =>
    rcases step_finish hStep with ⟨flight, hFlight, rfl⟩
    exact Or.inl ⟨i, outcome, flight, rfl, hFlight, rfl⟩

variable {config : BreakerConfig}

theorem below_step (hThreshold : 1 ≤ config.failureThreshold) (hBelow : world.breaker.Below config)
    (hStep : world.step config move = some world') :
    world'.breaker.Below config := by
  rcases step_breaker hStep with ⟨i, outcome, flight, -, -, hFinished⟩ |
    ⟨-, hHalfOpen | ⟨hState, hCount, -⟩⟩
  · rw [hFinished]
    exact below_finishFlight config world.clock hThreshold
  · intro hClosed
    simp [hHalfOpen] at hClosed
  · intro hClosed
    rw [hCount]
    exact hBelow (hState.symm.trans hClosed)

theorem stamped_step (hStamped : world.breaker.Stamped)
    (hStep : world.step config move = some world') :
    world'.breaker.Stamped := by
  rcases step_breaker hStep with ⟨i, outcome, flight, -, -, hFinished⟩ |
    ⟨-, hHalfOpen | ⟨hState, -, hOpenedAt⟩⟩
  · rw [hFinished]
    exact stamped_finishFlight config world.clock hStamped
  · intro hOpened
    simp [hHalfOpen] at hOpened
  · intro hOpened
    rw [hOpenedAt]
    exact hStamped (hState.symm.trans hOpened)

theorem not_opened_of_eased (hEased : Eased world.breaker world'.breaker) :
    ¬ Opened world world' := by
  rintro ⟨hBefore, hAfter⟩
  rcases hEased with hHalfOpen | ⟨hState, -, -⟩
  · simp [hHalfOpen] at hAfter
  · exact hBefore (hState.symm.trans hAfter)

theorem opened_iff (hStep : world.step config move = some world') :
    Opened world world' ↔ Opens config world move := by
  rcases step_breaker hStep with ⟨i, outcome, flight, rfl, hFlight, hFinished⟩ | ⟨hOther, hEased⟩
  · constructor
    · rintro ⟨hBefore, hAfter⟩
      rw [hFinished] at hAfter
      exact ⟨i, outcome, flight, rfl, hFlight, (finishFlight_opens config world.clock hBefore).mp
        hAfter⟩
    · rintro ⟨j, outcome', other, hMove, hFound, hOpens⟩
      cases hMove
      cases hFlight.symm.trans hFound
      have hBefore : world.breaker.state ≠ .opened := by
        rcases hOpens.2 with hState | ⟨hState, -⟩
        · simp [hState]
        · simp [hState]
      refine ⟨hBefore, ?_⟩
      rw [hFinished]
      exact (finishFlight_opens config world.clock hBefore).mpr hOpens
  · constructor
    · exact fun hOpened => absurd hOpened (not_opened_of_eased hEased)
    · rintro ⟨i, outcome, flight, hMove, -⟩
      exact absurd hMove (hOther i outcome)

theorem openedAt_of_opened (hStep : world.step config move = some world')
    (hOpened : Opened world world') :
    world'.breaker.openedAt = some world.clock := by
  rcases step_breaker hStep with ⟨i, outcome, flight, -, -, hFinished⟩ | ⟨-, hEased⟩
  · rcases hOpened with ⟨hBefore, hAfter⟩
    rw [hFinished] at hAfter ⊢
    exact finishFlight_openedAt config world.clock hBefore hAfter
  · exact absurd hOpened (not_opened_of_eased hEased)

/- Before its cooldown has passed, no call is let through. -/
theorem beginExecute_rejected {breaker : CircuitBreaker} {now openedAt : Int}
    (hOpened : breaker.state = .opened) (hOpenedAt : breaker.openedAt = some openedAt)
    (hEarly : now - openedAt < config.cooldownMs) :
    ∃ retryAfter, breaker.beginExecute config now = (.rejected retryAfter, breaker) := by
  have hRead : breaker.getState config now = breaker := by
    apply if_neg
    rintro ⟨-, hDue, -⟩
    rw [hOpenedAt, Option.getD_some] at hDue
    exact absurd hEarly (not_lt.mpr hDue)
  unfold beginExecute
  simp only [hRead, hOpened]
  exact ⟨_, rfl⟩

/-
  In every state that is reached, a closed breaker has failed
  fewer times in a row than the threshold says, a step opens the
  breaker exactly when it is to, and an open one whose cooldown
  has not passed rejects every call.
-/
theorem breaker_invariant {clock : Int} {moves : List BreakerMove}
    (hThreshold : 1 ≤ config.failureThreshold)
    (hRun : RunsTo (World.step config) (fun _ _ => True) (.start clock) moves world) :
    BreakerInvariant config world := by
  have hKept : world.breaker.Below config ∧ world.breaker.Stamped := by
    apply RunsTo.invariant (I := fun world =>
      world.breaker.Below config ∧ world.breaker.Stamped) _ _ hRun
    · refine ⟨fun _ => ?_, ?_⟩
      · simp only [World.start, CircuitBreaker.fresh, Nat.cast_zero]
        linarith
      · rintro ⟨⟩
    · intro world move world' hKept _ hStep
      exact ⟨below_step hThreshold hKept.1 hStep, stamped_step hKept.2 hStep⟩
  refine ⟨hKept.1, ?_, ?_, ?_⟩
  · exact fun move world' hStep => opened_iff hStep
  · exact fun move world' hStep => openedAt_of_opened hStep
  · intro hOpened
    rcases Option.ne_none_iff_exists'.mp (hKept.2 hOpened) with ⟨openedAt, hOpenedAt⟩
    exact ⟨openedAt, hOpenedAt, beginExecute_rejected hOpened hOpenedAt⟩

/- The limits of a breaker that is given none. -/
def defaultBreaker : BreakerConfig where
  failureThreshold := 5
  failureRateThreshold := 50
  cooldownMs := 30000
  windowMs := 60000
  minRequestsForRate := 5
  autoProbe := true
  hasProbe := false

/- It has failed once, at time 0. -/
def failedBreaker : CircuitBreaker where
  state := .closed
  consecutiveFailures := 1
  lastFailure := some 0
  lastSuccess := none
  lastProbe := none
  openedAt := none
  halfOpenInFlight := false
  rollingEvents := [{ timestamp := 0, success := false }]
  probeTimer := none

theorem breaker_invariant_sample : BreakerInvariant defaultBreaker (.mk failedBreaker 0 0 []) :=
  @breaker_invariant _ defaultBreaker 0 [.execute, .finish 0 .rejected] (by decide)
    (runsTo_of_runLabels (by decide +kernel))

/-
  Four of five calls fail, not more than two of them in a row,
  and the last of them opens the breaker.
-/
theorem opened_below_threshold :
    ∃ world world', runLabels (World.step defaultBreaker) (.start 0) [.execute, .finish 0 .rejected,
      .execute, .finish 0 .rejected, .execute, .finish 0 (.resolved true),
      .execute, .finish 0 .rejected, .execute] = some world ∧
      world.step defaultBreaker (.finish 0 .rejected) = some world' ∧ Opened world world' ∧
      ¬ world.breaker.ReachesThreshold defaultBreaker := by
  refine ⟨.mk { failedBreaker with
          lastSuccess := some 0
          rollingEvents := [.mk 0 false, .mk 0 false, .mk 0 true, .mk 0 false] }
        0 0 [{ kind := .normal, period := none }],
      _, by decide +kernel, rfl, ⟨by decide, by decide +kernel⟩, ?_⟩
  unfold CircuitBreaker.ReachesThreshold
  norm_num [defaultBreaker, failedBreaker]

end Utils

end AccessLayer
