import AccessLayer.Library.Machines

/-
  Tasks on one store that react to inputs and start other tasks.

  What a task does next depends on an input from outside, such as
  what became of its statement or the reply to its request.  The
  tasks that it starts run beside it.

  Main declaration: `Reactor.Maintains.run`
-/

-- Reactors
----

namespace Transactional

section

/- The store, the task and the tasks that it has started. -/
structure Reactor (σ ω ι : Type) where
  react : ω → ι → σ → Option (σ × ω × List ω)

/- A task receives an input, or it crashes. -/
inductive TaskMove (ι : Type) where
  | input (i : ℕ) (given : ι)
  | crash (i : ℕ)

variable {σ ω ι : Type}

/- An input to a task, or its crash. -/
def Crew.react (reactor : Reactor σ ω ι) (crew : Crew σ ω) : TaskMove ι → Option (Crew σ ω)
  | .input i given =>
    match crew.calls[i]? with
    | some (some task) =>
      (reactor.react task given crew.store).map fun after =>
        { store := after.1
          calls := crew.calls.set i (some after.2.1) ++ after.2.2.map some }
    | _ => none
  | .crash i =>
    match crew.calls[i]? with
    | some (some _) => some { crew with calls := crew.calls.set i none }
    | _ => none

/- What a move can do to the crew. -/
inductive Crew.Reacted (reactor : Reactor σ ω ι)
    (crew : Crew σ ω) : TaskMove ι → Crew σ ω → Prop where
  | given {i : ℕ} {given : ι} {task next : ω} {s : σ} {started : List ω}
    (hTask : crew.calls[i]? = some (some task))
    (hReact : reactor.react task given crew.store = some (s, next, started)) :
    Reacted reactor crew (.input i given)
      { store := s
        calls := crew.calls.set i (some next) ++ started.map some }
  | crashed {i : ℕ} {task : ω} (hTask : crew.calls[i]? = some (some task)) :
    Reacted reactor crew (.crash i) { crew with calls := crew.calls.set i none }

/- Each move is one of these. -/
theorem Crew.reacted {reactor : Reactor σ ω ι} {crew crew' : Crew σ ω} {move : TaskMove ι}
    (h : crew.react reactor move = some crew') :
    Reacted reactor crew move crew' := by
  cases move with
  | input i given =>
    simp only [Crew.react] at h
    split at h
    · rename_i task hTask
      rcases Option.map_eq_some_iff.mp h with ⟨after, hReact, rfl⟩
      exact .given hTask hReact
    · cases h
  | crash i =>
    simp only [Crew.react] at h
    split at h
    · rename_i task hTask
      cases h
      exact .crashed hTask
    · cases h

/- Crashes are always allowed. -/
def Crew.Permits (allowed : σ → ω → ι → Prop) (crew : Crew σ ω) : TaskMove ι → Prop
  | .input i given => ∀ task, crew.calls[i]? = some (some task) → allowed crew.store task given
  | .crash _ => True

instance (allowed : σ → ω → ι → Prop) [∀ s task given, Decidable (allowed s task given)]
    (crew : Crew σ ω) (move : TaskMove ι) : Decidable (crew.Permits allowed move) :=
  match move with
  | .input i given =>
    match h : crew.calls[i]? with
    | some (some task) =>
      decidable_of_iff (allowed crew.store task given) (by simp [Crew.Permits, h])
    | some none => isTrue (by simp [Crew.Permits, h])
    | none => isTrue (by simp [Crew.Permits, h])
  | .crash _ => isTrue trivial

/- New tasks join the others. -/
theorem Crew.All.append {L : ω → Prop} {crew : Crew σ ω} {started : List ω} (hAll : crew.All L)
    (hStarted : ∀ task ∈ started, L task) (store : σ) :
    Crew.All L
      { store, calls := crew.calls ++ started.map some } := by
  intro i task hTask
  change (crew.calls ++ started.map some)[i]? = _ at hTask
  by_cases hOld : i < crew.calls.length
  · rw [List.getElem?_append_left hOld] at hTask
    exact hAll i task hTask
  · rw [List.getElem?_append_right (Nat.le_of_not_lt hOld), List.getElem?_map] at hTask
    rcases Option.map_eq_some_iff.mp hTask with ⟨begun, hBegun, hSome⟩
    cases hSome
    exact hStarted _ (List.mem_of_getElem? hBegun)

end

-- Invariants
----

variable {σ ω ι : Type}

/-
  What is known of the tasks is kept by the inputs of others, and
  holds of the tasks that are started.
-/
structure Reactor.Maintains (reactor : Reactor σ ω ι) (allowed : σ → ω → ι → Prop) (I : σ → Prop)
    (L : σ → ω → Prop) : Prop where
  react : ∀ s task given s' next started, I s → L s task → allowed s task given →
    reactor.react task given s = some (s', next, started) →
      I s' ∧ (∀ other ∈ next :: started, L s' other) ∧ ∀ other, L s other → L s' other

variable {reactor : Reactor σ ω ι} {allowed : σ → ω → ι → Prop} {I : σ → Prop} {L : σ → ω → Prop}

/- One move. -/
theorem Reactor.Maintains.step (hMaintains : reactor.Maintains allowed I L) {crew crew' : Crew σ ω}
    {move : TaskMove ι} (hStore : I crew.store) (hAll : crew.All (L crew.store))
    (hPermits : crew.Permits allowed move) (hStep : crew.react reactor move = some crew') :
    I crew'.store ∧ crew'.All (L crew'.store) := by
  cases Crew.reacted hStep with
  | @given i given task next s started hTask hReact =>
    rcases hMaintains.react _ _ _ _ _ _ hStore (hAll i task hTask) (hPermits task hTask) hReact with
      ⟨hStore', hTasks, hOthers⟩
    have hOld : crew.All (L s) := fun j other hOther => hOthers other (hAll j other hOther)
    have hSet : Crew.All (L s)
        { store := s
          calls := crew.calls.set i (some next) } := by
      refine hOld.set ?_ s
      rintro _ ⟨⟩
      exact hTasks next List.mem_cons_self
    refine ⟨hStore', hSet.append ?_ s⟩
    intro other hOther
    exact hTasks other (List.mem_cons_of_mem next hOther)
  | crashed hTask =>
    refine ⟨hStore, hAll.set ?_ _⟩
    rintro _ ⟨⟩

/- And a whole run. -/
theorem Reactor.Maintains.run (hMaintains : reactor.Maintains allowed I L) {start crew : Crew σ ω}
    {moves : List (TaskMove ι)} (hStore : I start.store) (hAll : start.All (L start.store))
    (hRun : RunsTo (Crew.react reactor) (Crew.Permits allowed) start moves crew) :
    I crew.store ∧ crew.All (L crew.store) :=
  RunsTo.invariant (I := fun crew => I crew.store ∧ crew.All (L crew.store)) ⟨hStore, hAll⟩
    (fun _ _ _ hInv hPermits hStep => hMaintains.step hInv.1 hInv.2 hPermits hStep) hRun

end Transactional
