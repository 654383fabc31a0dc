import AccessLayer.Library.Phases
import Mathlib.Algebra.Order.BigOperators.Group.List
import Mathlib.Algebra.Order.Group.Defs

/-
  Calls as state machines on one store.

  A call is what it still has to do and what it has read so far,
  so that a run may be restricted by what a call is about to do
  in the state of the store it does it in.  A statement may fail,
  with or without its effect, and a call may crash before each of
  its statements.

  Main declarations: `Machine`, `Machine.Maintains.run`
-/

-- Machines
----

namespace Transactional

section

/-
  The effect of a call's next statement and where the call goes
  from there, if it has not ended, and where it goes if the
  statement fails.
-/
structure Machine (σ ω : Type) where
  execute : ω → σ → Option (σ × ω)
  fail : ω → ω

/- Calls that share one store; a crashed call is `none`. -/
structure Crew (σ ω : Type) where
  store : σ
  calls : List (Option ω)

variable {σ ω : Type}

/- Calls that have not begun. -/
def Crew.start (store : σ) (calls : List ω) : Crew σ ω where
  store := store
  calls := calls.map some

/- The store and the call after one outcome of a statement. -/
def Machine.settle (machine : Machine σ ω) (call : ω) (s : σ) (after : σ × ω) : Outcome → σ × ω
  | .served => after
  | .rejected => (s, machine.fail call)
  | .lost => (after.1, machine.fail call)

def Crew.attempt (machine : Machine σ ω) (crew : Crew σ ω) : FaultMove → Option (Crew σ ω)
  | .attempt i outcome =>
    match crew.calls[i]? with
    | some (some call) =>
      (machine.execute call crew.store).map fun after =>
        let settled := machine.settle call crew.store after outcome
        { store := settled.1
          calls := crew.calls.set i (some settled.2) }
    | _ => none
  | .crash i =>
    match crew.calls[i]? with
    | some (some _) => some { crew with calls := crew.calls.set i none }
    | _ => none

inductive Crew.Moved (machine : Machine σ ω) (crew : Crew σ ω) : FaultMove → Crew σ ω → Prop where
  | settled {i : Nat} {call : ω} {after : σ × ω} {outcome : Outcome}
    (hCall : crew.calls[i]? = some (some call))
    (hExecute : machine.execute call crew.store = some after) :
    Moved machine crew (.attempt i outcome)
      { store :=
          (machine.settle call crew.store after outcome).1
        calls := crew.calls.set i (some (machine.settle call crew.store after outcome).2) }
  | crashed {i : Nat} {call : ω} (hCall : crew.calls[i]? = some (some call)) :
    Moved machine crew (.crash i) { crew with calls := crew.calls.set i none }

theorem Crew.moved {machine : Machine σ ω} {crew crew' : Crew σ ω} {move : FaultMove}
    (h : crew.attempt machine move = some crew') :
    Moved machine crew move crew' := by
  cases move with
  | attempt i outcome =>
    simp only [Crew.attempt] at h
    split at h
    · rename_i call hCall
      rcases Option.map_eq_some_iff.mp h with ⟨after, hExecute, rfl⟩
      exact .settled hCall hExecute
    · cases h
  | crash i =>
    simp only [Crew.attempt] at h
    split at h
    · rename_i call hCall
      cases h
      exact .crashed hCall
    · cases h

/- Serve a number of statements of one call. -/
def servedMoves (i count : Nat) : List FaultMove := List.replicate count (.attempt i .served)

/- The statement has its effect, whatever the call hears. -/
def takesEffect : Option Outcome → Bool
  | some .served => true
  | some .lost => true
  | _ => false

/-
  What is allowed of a call in the state of the store before it:
  its next statement with some outcome, or a crash.
-/
def Crew.Admits (allowed : σ → ω → Option Outcome → Prop) (crew : Crew σ ω) : FaultMove → Prop
  | .attempt i outcome =>
    ∀ call, crew.calls[i]? = some (some call) → allowed crew.store call (some outcome)
  | .crash i => ∀ call, crew.calls[i]? = some (some call) → allowed crew.store call none

instance (allowed : σ → ω → Option Outcome → Prop)
    [∀ s call outcome, Decidable (allowed s call outcome)] (crew : Crew σ ω) (move : FaultMove) :
    Decidable (crew.Admits allowed move) :=
  match move with
  | .attempt i outcome =>
    match h : crew.calls[i]? with
    | some (some call) =>
      decidable_of_iff (allowed crew.store call (some outcome)) (by simp [Crew.Admits, h])
    | some none => isTrue (by simp [Crew.Admits, h])
    | none => isTrue (by simp [Crew.Admits, h])
  | .crash i =>
    match h : crew.calls[i]? with
    | some (some call) => decidable_of_iff (allowed crew.store call none) (by simp [Crew.Admits, h])
    | some none => isTrue (by simp [Crew.Admits, h])
    | none => isTrue (by simp [Crew.Admits, h])

end

-- Invariants
----

section

variable {σ ω : Type}

/- Allowed statements of calls in `L` keep `I`, and such calls stay in `L`. -/
structure Machine.Keeps (machine : Machine σ ω) (allowed : σ → ω → Option Outcome → Prop)
    (I : σ → Prop) (L : ω → Prop) : Prop where
  execute :
    ∀ s call outcome s' next, I s → L call → allowed s call outcome → takesEffect outcome = true →
      machine.execute call s = some (s', next) → I s'
  next : ∀ s call s' next, I s → L call → machine.execute call s = some (s', next) → L next
  fail : ∀ call, L call → L (machine.fail call)

/- All the calls that have not crashed are in `L`. -/
def Crew.All (L : ω → Prop) (crew : Crew σ ω) : Prop :=
  ∀ (i : Nat) call, crew.calls[i]? = some (some call) → L call

variable {L : ω → Prop} {crew : Crew σ ω}

theorem Crew.all_iff : crew.All L ↔ ∀ held ∈ crew.calls, ∀ call ∈ held, L call := by
  constructor
  · rintro hAll held hHeld call rfl
    rcases List.mem_iff_getElem?.mp hHeld with ⟨i, hi⟩
    exact hAll i call hi
  · intro hHeld i call hCall
    exact hHeld _ (List.mem_of_getElem? hCall) call rfl

instance (L : ω → Prop) [DecidablePred L] (crew : Crew σ ω) : Decidable (crew.All L) :=
  decidable_of_iff _ Crew.all_iff.symm

theorem Crew.all_start {calls : List ω} (store : σ) (hCalls : ∀ call ∈ calls, L call) :
    (Crew.start store calls).All L := by
  intro i call hCall
  rw [Crew.start, List.getElem?_map] at hCall
  rcases Option.map_eq_some_iff.mp hCall with ⟨c, hMem, hSome⟩
  cases hSome
  exact hCalls _ (List.mem_of_getElem? hMem)

theorem Crew.All.set {i : Nat} {next : Option ω} (hAll : crew.All L) (hNext : ∀ call ∈ next, L call)
    (store : σ) :
    Crew.All L { store, calls := crew.calls.set i next } := by
  intro j call hCall
  rcases getElem?_set_cases hCall with ⟨-, hSame⟩ | ⟨-, hOld⟩
  · exact hNext call hSame.symm
  · exact hAll j call hOld

/-
  The same where what is known of a call may speak of the store:
  an allowed statement also keeps what is known of the others.
-/
structure Machine.Maintains (machine : Machine σ ω) (allowed : σ → ω → Option Outcome → Prop)
    (I : σ → Prop) (L : σ → ω → Prop) : Prop where
  execute :
    ∀ s call outcome s' next, I s → L s call → allowed s call outcome → takesEffect outcome = true →
      machine.execute call s = some (s', next) →
        I s' ∧ L s' next ∧ ∀ other, L s other → L s' other
  fail : ∀ s call, L s call → L s (machine.fail call)

variable {machine : Machine σ ω} {allowed : σ → ω → Option Outcome → Prop} {I : σ → Prop}

theorem Machine.Maintains.step {L : σ → ω → Prop} (hMaintains : machine.Maintains allowed I L)
    {crew crew' : Crew σ ω} {move : FaultMove} (hStore : I crew.store)
    (hAll : crew.All (L crew.store)) (hAdmits : crew.Admits allowed move)
    (hStep : crew.attempt machine move = some crew') :
    I crew'.store ∧ crew'.All (L crew'.store) := by
  cases Crew.moved hStep with
  | @settled i call after outcome hCall hExecute =>
    have hLocal := hAll i call hCall
    cases outcome with
    | served =>
      rcases hMaintains.execute _ _ _ _ _ hStore hLocal (hAdmits call hCall) rfl hExecute with
        ⟨hStore', hNext, hOthers⟩
      refine ⟨hStore', Crew.All.set ?_ ?_ _⟩
      · intro j other hOther
        exact hOthers other (hAll j other hOther)
      · rintro _ ⟨⟩
        exact hNext
    | rejected =>
      refine ⟨hStore, hAll.set ?_ _⟩
      rintro _ ⟨⟩
      exact hMaintains.fail _ call hLocal
    | lost =>
      rcases hMaintains.execute _ _ _ _ _ hStore hLocal (hAdmits call hCall) rfl hExecute with
        ⟨hStore', -, hOthers⟩
      refine ⟨hStore', Crew.All.set ?_ ?_ _⟩
      · intro j other hOther
        exact hOthers other (hAll j other hOther)
      · rintro _ ⟨⟩
        exact hMaintains.fail _ call (hOthers call hLocal)
  | crashed hCall =>
    refine ⟨hStore, hAll.set ?_ _⟩
    rintro _ ⟨⟩

variable {start : Crew σ ω} {moves : List FaultMove}

theorem Machine.Maintains.run {L : σ → ω → Prop} (hMaintains : machine.Maintains allowed I L)
    (hStore : I start.store) (hAll : start.All (L start.store))
    (hRun : RunsTo (Crew.attempt machine) (Crew.Admits allowed) start moves crew) :
    I crew.store ∧ crew.All (L crew.store) :=
  RunsTo.invariant (I := fun crew => I crew.store ∧ crew.All (L crew.store)) ⟨hStore, hAll⟩
    (fun _ _ _ hInv hAdmits hStep => hMaintains.step hInv.1 hInv.2 hAdmits hStep) hRun

/- What holds of the store may be told of each call. -/
theorem Machine.Maintains.both {L : σ → ω → Prop} (hMaintains : machine.Maintains allowed I L) :
    machine.Maintains allowed I fun s call => I s ∧ L s call where
  execute := by
    intro s call outcome s' next hStore hLocal hAllowed hEffect hExecute
    rcases hMaintains.execute s call outcome s' next hStore hLocal.2 hAllowed hEffect hExecute with
      ⟨hStore', hNext, hOthers⟩
    exact ⟨hStore', ⟨hStore', hNext⟩, fun other hOther => ⟨hStore', hOthers other hOther.2⟩⟩
  fail := fun s call hLocal => ⟨hLocal.1, hMaintains.fail s call hLocal.2⟩

theorem Machine.Maintains.admits {L : σ → ω → Prop} (hMaintains : machine.Maintains allowed I L)
    (hStore : I start.store) (hAll : start.All (L start.store))
    (hRun : RunsTo (Crew.attempt machine) (Crew.Admits allowed) start moves crew) :
    RunsTo (Crew.attempt machine) (Crew.Admits fun s call outcome =>
      allowed s call outcome ∧ L s call) start moves crew := by
  induction hRun with
  | start => exact .start
  | @step moves crew crew' move hRun hAdmits hStep ih =>
    have hKnown := (hMaintains.run hStore hAll hRun).2
    refine ih.step ?_ hStep
    cases move with
    | attempt i outcome =>
      intro call hCall
      exact ⟨hAdmits call hCall, hKnown i call hCall⟩
    | crash i =>
      intro call hCall
      exact ⟨hAdmits call hCall, hKnown i call hCall⟩

theorem Machine.Keeps.maintains (hKeeps : machine.Keeps allowed I L) :
    machine.Maintains allowed I fun _ => L where
  execute := fun s call outcome s' next hStore hLocal hAllowed hEffect hExecute =>
    ⟨hKeeps.execute s call outcome s' next hStore hLocal hAllowed hEffect hExecute,
      hKeeps.next s call s' next hStore hLocal hExecute, fun _ hOther => hOther⟩
  fail := fun _ => hKeeps.fail

/- What is kept by every step holds after every run. -/
theorem Machine.Keeps.run (hKeeps : machine.Keeps allowed I L) (hStore : I start.store)
    (hAll : start.All L)
    (hRun : RunsTo (Crew.attempt machine) (Crew.Admits allowed) start moves crew) :
    I crew.store ∧ crew.All L := hKeeps.maintains.run hStore hAll hRun

/- A run of any moves admits whatever its calls do. -/
theorem Crew.admits_any {allowed : Crew σ ω → FaultMove → Prop}
    (hRun : RunsTo (Crew.attempt machine) allowed start moves crew) :
    RunsTo (Crew.attempt machine) (Crew.Admits fun _ _ _ => True) start moves crew := by
  apply hRun.mono
  intro crew move _
  cases move with
  | attempt i outcome => exact fun _ _ => trivial
  | crash i => exact fun _ _ => trivial

end

-- What Calls Keep
----

section

variable {σ ω γ : Type}

/- No statement changes the label of its call. -/
structure Machine.Steady (machine : Machine σ ω) (label : ω → γ) : Prop where
  execute : ∀ s call s' next, machine.execute call s = some (s', next) → label next = label call
  fail : ∀ call, label (machine.fail call) = label call

variable {machine : Machine σ ω} {label : ω → γ}

theorem Machine.Steady.settle (hSteady : machine.Steady label) {call : ω} {s : σ} {after : σ × ω}
    (hExecute : machine.execute call s = some after) (outcome : Outcome) :
    label (machine.settle call s after outcome).2 = label call := by
  cases outcome with
  | served => exact hSteady.execute s call _ _ hExecute
  | rejected => exact hSteady.fail call
  | lost => exact hSteady.fail call

theorem Machine.Steady.step (hSteady : machine.Steady label) {crew crew' : Crew σ ω}
    {move : FaultMove} (hStep : crew.attempt machine move = some crew') {j : ℕ} {call : ω}
    (hCall : crew'.calls[j]? = some (some call)) :
    ∃ before, crew.calls[j]? = some (some before) ∧ label call = label before := by
  cases Crew.moved hStep with
  | @settled i before after outcome hBefore hExecute =>
    rcases getElem?_set_cases hCall with ⟨rfl, hSame⟩ | ⟨-, hOld⟩
    · cases hSame
      exact ⟨before, hBefore, hSteady.settle hExecute outcome⟩
    · exact ⟨call, hOld, rfl⟩
  | crashed hBefore =>
    rcases getElem?_set_cases hCall with ⟨-, hSame⟩ | ⟨-, hOld⟩
    · cases hSame
    · exact ⟨call, hOld, rfl⟩

theorem Machine.Steady.run (hSteady : machine.Steady label) {allowed : Crew σ ω → FaultMove → Prop}
    {store : σ} {calls : List ω} {crew : Crew σ ω} {moves : List FaultMove}
    (hRun : RunsTo (Crew.attempt machine) allowed (Crew.start store calls) moves crew) :
    ∀ (j : ℕ) call, crew.calls[j]? = some (some call) → ∃ begun, calls[j]? = some begun ∧
      label call = label begun := by
  induction hRun with
  | start =>
    intro j call hCall
    rw [Crew.start, List.getElem?_map] at hCall
    rcases Option.map_eq_some_iff.mp hCall with ⟨begun, hBegun, hSome⟩
    cases hSome
    exact ⟨call, hBegun, rfl⟩
  | step hRun _ hStep ih =>
    intro j call hCall
    rcases hSteady.step hStep hCall with ⟨before, hBefore, hSame⟩
    rcases ih j before hBefore with ⟨begun, hBegun, hLabel⟩
    exact ⟨begun, hBegun, hSame.trans hLabel⟩

end

-- Calls Served Alone
----

section

variable {σ ω : Type}

/- A number of statements of one call, all of them served. -/
inductive Machine.Serves (machine : Machine σ ω) (t : σ) (last : ω) : ℕ → σ → ω → Prop where
  | ended : Serves machine t last 0 t last
  | step {count : ℕ} {s s' : σ} {call next : ω}
    (hExecute : machine.execute call s = some (s', next))
    (hRest : Serves machine t last count s' next) : Serves machine t last (count + 1) s call

variable {machine : Machine σ ω} {t : σ} {last : ω}

theorem Machine.Serves.runLabels_eq {count : ℕ} {s : σ} {call : ω}
    (hServes : machine.Serves t last count s call) {crew : Crew σ ω} {i : ℕ}
    (hStore : crew.store = s) (hCall : crew.calls[i]? = some (some call)) :
    runLabels (Crew.attempt machine) crew (servedMoves i count) =
      some { store := t, calls := crew.calls.set i (some last) } := by
  induction hServes generalizing crew with
  | ended =>
    rcases List.getElem?_eq_some_iff.mp hCall with ⟨hLength, hLast⟩
    rw [← hLast, List.set_getElem_self, ← hStore]
    rfl
  | @step count s s' call next hExecute hRest ih =>
    subst hStore
    have hLength : i < crew.calls.length := (List.getElem?_eq_some_iff.mp hCall).1
    have hNext : (crew.calls.set i (some next))[i]? =
        some (some next) := by
      rw [List.getElem?_set_self hLength]
    have hRun := @ih { store := s', calls := crew.calls.set i (some next) } rfl hNext
    rw [List.set_set] at hRun
    rw [servedMoves, List.replicate_succ, runLabels]
    simp only [Crew.attempt, hCall, hExecute, Option.map_some]
    exact hRun

theorem Machine.Serves.runs {count : ℕ} {s : σ} {call : ω}
    (hServes : machine.Serves t last count s call) {crew : Crew σ ω} {i : ℕ}
    (hStore : crew.store = s) (hCall : crew.calls[i]? = some (some call)) :
    ∃ crew', runLabels (Crew.attempt machine) crew (servedMoves i count) = some crew' ∧
      crew'.store = t ∧
      crew'.calls[i]? = some (some last) := by
  have hLength : i < crew.calls.length := (List.getElem?_eq_some_iff.mp hCall).1
  exact ⟨_, hServes.runLabels_eq hStore hCall, rfl, List.getElem?_set_self hLength⟩

end

-- Sums over Calls
----

section

variable {σ ω M : Type} [AddCommGroup M]

/- The sum of a quantity over the calls that have not crashed. -/
def Crew.total (crew : Crew σ ω) (w : ω → M) : M := (crew.calls.map fun call => call.elim 0 w).sum

variable {crew : Crew σ ω}

theorem Crew.total_eq_zero {w : ω → M} (hZero : crew.All fun call => w call = 0) :
    crew.total w = 0 := by
  apply List.sum_eq_zero
  intro m hm
  rcases List.mem_map.mp hm with ⟨call, hCall, rfl⟩
  cases call with
  | none => rfl
  | some call =>
    rcases List.mem_iff_getElem?.mp hCall with ⟨i, hi⟩
    exact hZero i call hi

/- One call goes on, the others stay where they are. -/
theorem Crew.total_set {i : Nat} {call : ω} (hCall : crew.calls[i]? = some (some call))
    (next : Option ω) (store : σ) (w : ω → M) :
    Crew.total { store, calls := crew.calls.set i next } w =
      crew.total w + (next.elim 0 w - w call) := by
  simp only [Crew.total]
  generalize crew.calls = calls at hCall
  induction calls generalizing i with
  | nil => simp at hCall
  | cons head tail ih =>
    cases i with
    | zero =>
      cases hCall
      simp only [List.set_cons_zero, List.map_cons, List.sum_cons, Option.elim_some]
      abel
    | succ i =>
      simp only [List.set_cons_succ, List.map_cons, List.sum_cons, ih hCall]
      abel

-- What Calls Owe
----

/- What the store lacks is owed by the calls; a call that crashes owes nothing. -/
structure Machine.Conserves (machine : Machine σ ω) (allowed : σ → ω → Option Outcome → Prop)
    (φ : σ → M) (w : ω → M) : Prop where
  settle :
    ∀ s call after outcome, allowed s call (some outcome) → machine.execute call s = some after →
      φ (machine.settle call s after outcome).1 + w (machine.settle call s after outcome).2 =
        φ s + w call
  crash : ∀ s call, allowed s call none → w call = 0

variable {machine : Machine σ ω} {allowed : σ → ω → Option Outcome → Prop} {φ : σ → M} {w : ω → M}

theorem Machine.Conserves.step (hConserves : machine.Conserves allowed φ w) {crew crew' : Crew σ ω}
    {move : FaultMove} (hAdmits : crew.Admits allowed move)
    (hStep : crew.attempt machine move = some crew') :
    φ crew'.store + crew'.total w = φ crew.store + crew.total w := by
  cases Crew.moved hStep with
  | @settled i call after outcome hCall hExecute =>
    have hOwed := hConserves.settle crew.store call after outcome (hAdmits call hCall) hExecute
    generalize machine.settle call crew.store after outcome = settled at hOwed ⊢
    rw [Crew.total_set hCall (some settled.2) settled.1 w]
    change φ settled.1 + (crew.total w + (w settled.2 - w call)) = _
    calc
      φ settled.1 + (crew.total w + (w settled.2 - w call)) = (φ settled.1 + w settled.2) +
        (crew.total w - w call) := by
        abel
      _ = (φ crew.store + w call) + (crew.total w - w call) := by
        rw [hOwed]
      _ = φ crew.store + crew.total w := by
        abel
  | @crashed i call hCall =>
    rw [Crew.total_set hCall none crew.store w,
      hConserves.crash crew.store call (hAdmits call hCall)]
    simp

theorem Machine.Conserves.run (hConserves : machine.Conserves allowed φ w) {start : Crew σ ω}
    {moves : List FaultMove}
    (hRun : RunsTo (Crew.attempt machine) (Crew.Admits allowed) start moves crew) :
    φ crew.store + crew.total w = φ start.store + start.total w := by
  induction hRun with
  | start => rfl
  | step hRun hAdmits hStep ih => exact (hConserves.step hAdmits hStep).trans ih

end

-- What Calls Mend
----

section

variable {σ ω : Type}

/-
  A call that breaks what holds of the store will mend it; it
  only crashes when there is nothing to mend.
-/
structure Machine.Mends (machine : Machine σ ω) (allowed : σ → ω → Option Outcome → Prop)
    (P : σ → Prop) (R : ω → Prop) : Prop where
  settle : ∀ s call after outcome, P s ∨ R call → allowed s call (some outcome) →
    machine.execute call s = some after → P (machine.settle call s after outcome).1 ∨
      R (machine.settle call s after outcome).2
  crash : ∀ s call, allowed s call none → R call → P s

def Crew.Some (R : ω → Prop) (crew : Crew σ ω) : Prop :=
  ∃ (i : ℕ) (call : ω), crew.calls[i]? = some (some call) ∧ R call

variable {crew : Crew σ ω}

/- Only the call that moves may leave `R`. -/
theorem Crew.Some.set {R : ω → Prop} {i : ℕ} {call : ω} (hSome : crew.Some R)
    (hCall : crew.calls[i]? = some (some call)) (next : Option ω) (store : σ) :
    R call ∨ Crew.Some R { store, calls := crew.calls.set i next } := by
  rcases hSome with ⟨j, other, hOther, hMends⟩
  by_cases hSame : j = i
  · subst hSame
    rw [hCall] at hOther
    cases hOther
    exact .inl hMends
  · refine .inr ⟨j, other, ?_, hMends⟩
    change (crew.calls.set i next)[j]? = _
    rw [List.getElem?_set_ne (Ne.symm hSame)]
    exact hOther

variable {machine : Machine σ ω} {allowed : σ → ω → Option Outcome → Prop} {P : σ → Prop}
variable {R : ω → Prop}

theorem Machine.Mends.step (hMends : machine.Mends allowed P R) {crew crew' : Crew σ ω}
    {move : FaultMove} (h : P crew.store ∨ crew.Some R) (hAdmits : crew.Admits allowed move)
    (hStep : crew.attempt machine move = some crew') :
    P crew'.store ∨ crew'.Some R := by
  cases Crew.moved hStep with
  | @settled i call after outcome hCall hExecute =>
    have hSettle (hEither : P crew.store ∨ R call) :=
      hMends.settle crew.store call after outcome hEither (hAdmits call hCall) hExecute
    generalize machine.settle call crew.store after outcome = settled at hSettle ⊢
    have hNext (hEither : P crew.store ∨ R call) : P settled.1 ∨ Crew.Some R
        { store := settled.1
          calls := crew.calls.set i (some settled.2) } := by
      refine (hSettle hEither).imp_right ?_
      intro hLeft
      refine ⟨i, settled.2, ?_, hLeft⟩
      exact List.getElem?_set_self (List.getElem?_eq_some_iff.mp hCall).1
    rcases h with hStore | hSome
    · exact hNext (.inl hStore)
    · rcases hSome.set hCall (some settled.2) settled.1 with hOwn | hOther
      · exact hNext (.inr hOwn)
      · exact .inr hOther
  | @crashed i call hCall =>
    rcases h with hStore | hSome
    · exact .inl hStore
    · refine (hSome.set hCall none crew.store).imp_left ?_
      exact hMends.crash crew.store call (hAdmits call hCall)

theorem Machine.Mends.run (hMends : machine.Mends allowed P R) {start : Crew σ ω}
    {moves : List FaultMove} (hStart : P start.store)
    (hRun : RunsTo (Crew.attempt machine) (Crew.Admits allowed) start moves crew) :
    P crew.store ∨ crew.Some R :=
  RunsTo.invariant (I := fun crew : Crew σ ω => P crew.store ∨ crew.Some R) (.inl hStart)
    (fun _ _ _ hInv hAdmits hStep => hMends.step hInv hAdmits hStep) hRun

end

-- What Calls Pay For
----

section

variable {σ ω M : Type} [AddCommGroup M] [PartialOrder M] [IsOrderedAddMonoid M] {crew : Crew σ ω}

theorem Crew.total_nonneg {w : ω → M} (hNonneg : ∀ call, 0 ≤ w call) : 0 ≤ crew.total w := by
  apply List.sum_nonneg
  intro m hm
  rcases List.mem_map.mp hm with ⟨call, -, rfl⟩
  cases call with
  | none => exact le_rfl
  | some call => exact hNonneg call

/-
  A call pays for what the store gains, from what it holds
  itself; a call that crashes holds no debt.
-/
structure Machine.Spends (machine : Machine σ ω) (allowed : σ → ω → Option Outcome → Prop)
    (φ : σ → M) (w : ω → M) : Prop where
  settle :
    ∀ s call after outcome, allowed s call (some outcome) → machine.execute call s = some after →
      φ (machine.settle call s after outcome).1 + w (machine.settle call s after outcome).2 ≤
        φ s + w call
  nonneg : ∀ call, 0 ≤ w call

variable {machine : Machine σ ω} {allowed : σ → ω → Option Outcome → Prop} {φ : σ → M} {w : ω → M}

theorem Machine.Spends.step (hSpends : machine.Spends allowed φ w) {crew crew' : Crew σ ω}
    {move : FaultMove} (hAdmits : crew.Admits allowed move)
    (hStep : crew.attempt machine move = some crew') :
    φ crew'.store + crew'.total w ≤ φ crew.store + crew.total w := by
  cases Crew.moved hStep with
  | @settled i call after outcome hCall hExecute =>
    have hPaid := hSpends.settle crew.store call after outcome (hAdmits call hCall) hExecute
    generalize machine.settle call crew.store after outcome = settled at hPaid ⊢
    rw [Crew.total_set hCall (some settled.2) settled.1 w]
    change φ settled.1 + (crew.total w + (w settled.2 - w call)) ≤ _
    calc
      φ settled.1 + (crew.total w + (w settled.2 - w call)) = (φ settled.1 + w settled.2) +
        (crew.total w - w call) := by
        abel
      _ ≤ (φ crew.store + w call) + (crew.total w - w call) := add_le_add_left hPaid _
      _ = φ crew.store + crew.total w := by
        abel
  | @crashed i call hCall =>
    rw [Crew.total_set hCall none crew.store w]
    change φ crew.store + (crew.total w + (0 - w call)) ≤ _
    have hNonneg := hSpends.nonneg call
    refine add_le_add le_rfl ?_
    calc
      crew.total w + (0 - w call) = crew.total w - w call := by
        abel
      _ ≤ crew.total w := sub_le_self _ hNonneg

/- No run gains more than its calls held at the start. -/
theorem Machine.Spends.run (hSpends : machine.Spends allowed φ w) {start : Crew σ ω}
    {moves : List FaultMove}
    (hRun : RunsTo (Crew.attempt machine) (Crew.Admits allowed) start moves crew) :
    φ crew.store + crew.total w ≤ φ start.store + start.total w := by
  induction hRun with
  | start => exact le_rfl
  | step hRun hAdmits hStep ih => exact (hSpends.step hAdmits hStep).trans ih

end

end Transactional
