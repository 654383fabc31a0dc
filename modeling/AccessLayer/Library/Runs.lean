import AccessLayer.Library.Program
import Mathlib.Algebra.BigOperators.Group.List.Basic
import Mathlib.Algebra.Group.Basic
import Mathlib.Data.List.Basic
import Mathlib.Tactic.Abel

/-
  Runs of labelled transition systems, and the system in which
  the calls of a pool interleave their statements.

  A run may be restricted to labels that are allowed in the
  state they are taken in.

  Main declaration: `RunsTo.invariant`
-/

-- Labelled Runs
----

namespace Transactional

section

section

variable {State Label : Type} (step : State → Label → Option State) (allowed : State → Label → Prop)

/- Runs from `start` whose every step is allowed. -/
inductive RunsTo (start : State) : List Label → State → Prop where
  | start : RunsTo start [] start
  | step {labels : List Label} {s t : State} {l : Label} (hRun : RunsTo start labels s)
    (hAllowed : allowed s l) (hStep : step s l = some t) : RunsTo start (labels ++ [l]) t

variable {step : State → Label → Option State} {allowed : State → Label → Prop} {start : State}

theorem RunsTo.invariant {I : State → Prop} (hStart : I start)
    (hStep : ∀ s l t, I s → allowed s l → step s l = some t → I t) {labels : List Label} {s : State}
    (hRun : RunsTo step allowed start labels s) :
    I s := by
  induction hRun with
  | start => exact hStart
  | step hRun hAllowed hTaken ih => exact hStep _ _ _ ih hAllowed hTaken

theorem RunsTo.mono {allowed' : State → Label → Prop} {labels : List Label} {s : State}
    (hRun : RunsTo step allowed start labels s) (hMono : ∀ s l, allowed s l → allowed' s l) :
    RunsTo step allowed' start labels s := by
  induction hRun with
  | start => exact .start
  | step hRun hAllowed hTaken ih => exact ih.step (hMono _ _ hAllowed) hTaken

end

section

variable {State Label : Type}

/- What is so at each place of a list is so however it is split. -/
theorem forall_split {keeps : List Label → Label → Prop} {labels : List Label}
    (hEach : ∀ i : Fin labels.length, keeps (labels.take i) labels[i]) (before : List Label)
    (l : Label) (after : List Label) (hSplit : labels = before ++ l :: after) : keeps before l := by
  subst hSplit
  simpa using hEach ⟨before.length, by simp⟩

/-
  What holds at the start holds after each part of a list of
  steps if and only if each step keeps it.
-/
theorem foldl_take_iff {step : State → Label → State} {I : State → Prop}
    {keeps : State → Label → Prop} {start : State} {labels : List Label} (hStart : I start)
    (hStep : ∀ s, ∀ l ∈ labels, I s → (I (step s l) ↔ keeps s l)) :
    (∀ n, I ((labels.take n).foldl step start)) ↔ ∀ before l after, labels = before ++ l :: after →
      keeps (before.foldl step start) l := by
  induction labels generalizing start with
  | nil =>
    refine ⟨fun _ before l after hSplit => ?_, fun _ n => ?_⟩
    · cases before <;> cases hSplit
    · rw [List.take_nil]
      exact hStart
  | cons l rest ih =>
    have hFirst := hStep start l List.mem_cons_self hStart
    have hRest := fun hNext =>
      @ih (step start l) hNext fun s m hm => hStep s m (List.mem_cons_of_mem _ hm)
    constructor
    · intro hParts before m after hSplit
      have hNext : I (step start l) := hParts 1
      cases before with
      | nil =>
        cases hSplit
        exact hFirst.mp hNext
      | cons first before =>
        cases hSplit
        exact (hRest hNext).mp (fun n => hParts (n + 1)) before m after rfl
    · intro hKeeps n
      have hNext := hFirst.mpr (hKeeps [] l rest rfl)
      cases n with
      | zero => exact hStart
      | succ n =>
        refine (hRest hNext).mpr ?_ n
        intro before m after hSplit
        exact hKeeps (l :: before) m after (by rw [hSplit]; rfl)

end

section

variable {State Label : Type} (step : State → Label → Option State)

/- The state after a list of labels, if all can be taken. -/
def runLabels (s : State) : List Label → Option State
  | [] => some s
  | l :: rest =>
    match step s l with
    | some t => runLabels t rest
    | none => none

variable {step : State → Label → Option State} {start s t : State} {before : List Label}

theorem runsTo_append (labels : List Label) (hRun : RunsTo step (fun _ _ => True) start before s)
    (hRest : runLabels step s labels = some t) :
    RunsTo step (fun _ _ => True) start (before ++ labels) t := by
  induction labels generalizing before s with
  | nil =>
    cases hRest
    simpa using hRun
  | cons l rest ih =>
    rw [runLabels] at hRest
    cases hStep : step s l with
    | none => simp [hStep] at hRest
    | some u =>
      simp only [hStep] at hRest
      have hNext := ih (hRun.step trivial hStep) hRest
      simpa using hNext

variable {labels : List Label}

theorem runsTo_of_runLabels (h : runLabels step start labels = some s) :
    RunsTo step (fun _ _ => True) start labels s := by
  simpa using runsTo_append labels .start h

variable {allowed : State → Label → Prop} [∀ s l, Decidable (allowed s l)]

def runAllowed (step : State → Label → Option State) (allowed : State → Label → Prop)
    [∀ s l, Decidable (allowed s l)] (s : State) : List Label → Option State
  | [] => some s
  | l :: rest =>
    if allowed s l then
      match step s l with
      | some t => runAllowed step allowed t rest
      | none => none
    else none

theorem runsTo_append_allowed (labels : List Label) (hRun : RunsTo step allowed start before s)
    (hRest : runAllowed step allowed s labels = some t) :
    RunsTo step allowed start (before ++ labels) t := by
  induction labels generalizing before s with
  | nil =>
    cases hRest
    simpa using hRun
  | cons l rest ih =>
    rw [runAllowed] at hRest
    by_cases hAllowed : allowed s l
    · rw [if_pos hAllowed] at hRest
      cases hStep : step s l with
      | none => simp [hStep] at hRest
      | some u =>
        simp only [hStep] at hRest
        have hNext := ih (hRun.step hAllowed hStep) hRest
        simpa using hNext
    · rw [if_neg hAllowed] at hRest
      cases hRest

theorem runsTo_of_runAllowed (h : runAllowed step allowed start labels = some s) :
    RunsTo step allowed start labels s := by
  simpa using runsTo_append_allowed labels .start h

end

end

-- Pools of Calls
----

/- A call: what it still has to run and how far it has come. -/
structure Call (σ ε α : Type) where
  program : Program σ ε α
  executed : Nat
  crashed : Bool

/- Calls that share one store. -/
structure Pool (σ ε α : Type) where
  store : σ
  calls : List (Call σ ε α)

inductive Move where
  | execute (i : Nat)
  | crash (i : Nat)

variable {σ ε α : Type}

/- Begun, not ended and not crashed. -/
def Call.inFlight (call : Call σ ε α) : Bool :=
  0 < call.executed && call.program.isRunning && !call.crashed

/- The call after its next statement. -/
def Call.advance (call : Call σ ε α) (program : Program σ ε α) : Call σ ε α :=
  { call with program, executed := call.executed + 1 }

theorem Call.advance_executed (call : Call σ ε α) (program : Program σ ε α) :
    0 < (call.advance program).executed := Nat.succ_pos _

theorem Call.advance_crashed {program : Program σ ε α} (call : Call σ ε α)
    (hLive : call.crashed = false) : (call.advance program).crashed = false := hLive

/- Calls that have not begun. -/
def Pool.start (store : σ) (programs : List (Program σ ε α)) : Pool σ ε α where
  store := store
  calls := programs.map fun program => { program, executed := 0, crashed := false }

/- The live call of an index and its next statement. -/
def Pool.step (pool : Pool σ ε α) : Move → Option (Pool σ ε α)
  | .execute i =>
    match pool.calls[i]? with
    | some call =>
      match call.crashed, call.program with
      | false, .stmt update next _ =>
        some {
          store := update pool.store
          calls := pool.calls.set i (call.advance (next pool.store)) }
      | _, _ => none
    | none => none
  | .crash i =>
    match pool.calls[i]? with
    | some call =>
      match call.crashed, call.program with
      | false, .stmt _ _ _ =>
        some { pool with
          calls := pool.calls.set i { call with crashed := true } }
      | _, _ => none
    | none => none

variable {pool pool' : Pool σ ε α} {i : Nat}

theorem Pool.step_execute (h : pool.step (.execute i) = some pool') :
    ∃ call update next onFault, pool.calls[i]? = some call ∧ call.crashed = false ∧
      call.program = .stmt update next onFault ∧ pool' = {
        store := update pool.store
        calls :=
          pool.calls.set i
            (call.advance (next pool.store)) } := by
  rw [Pool.step] at h
  split at h
  · rename_i call hCall
    split at h
    · rename_i update next onFault hCrashed hProgram
      cases h
      exact ⟨call, update, next, onFault, hCall, hCrashed, hProgram, rfl⟩
    · cases h
  · cases h

theorem Pool.step_crash (h : pool.step (.crash i) = some pool') :
    ∃ call, pool.calls[i]? = some call ∧ call.crashed = false ∧ call.program.isRunning = true ∧
      pool' = { pool with
        calls :=
          pool.calls.set i { call with crashed := true } } := by
  rw [Pool.step] at h
  split at h
  · rename_i call hCall
    split at h
    · rename_i update next onFault hCrashed hProgram
      cases h
      exact ⟨call, hCall, hCrashed, by rw [hProgram]; rfl, rfl⟩
    · cases h
  · cases h

variable {β : Type} {xs : List β} {x y : β}

/- An entry of a list in which one entry was replaced. -/
theorem getElem?_set_cases {j : Nat} (h : (xs.set i x)[j]? = some y) :
    j = i ∧ y = x ∨ j ≠ i ∧ xs[j]? = some y := by
  rw [List.getElem?_set] at h
  split at h
  · rename_i hEq
    split at h
    · cases h
      exact Or.inl ⟨hEq.symm, rfl⟩
    · cases h
  · rename_i hNe
    exact Or.inr ⟨fun hEq => hNe hEq.symm, h⟩

/- An entry of a list to which one entry was appended. -/
theorem getElem?_concat_cases (h : (xs ++ [x])[i]? = some y) :
    xs[i]? = some y ∨ i = xs.length ∧ x = y := by
  rcases Nat.lt_or_ge i xs.length with hLt | hGe
  · left
    rwa [List.getElem?_append_left hLt] at h
  · right
    rw [List.getElem?_append_right hGe, List.getElem?_singleton] at h
    split at h
    · exact ⟨by omega, Option.some.inj h⟩
    · cases h

theorem getElem?_extended {ys : List β} (hPrefix : xs <+: ys) (h : xs[i]? = some x) :
    ys[i]? = some x := by
  rcases hPrefix with ⟨later, rfl⟩
  rw [List.getElem?_append_left (List.getElem?_eq_some_iff.mp h).1]
  exact h

/- Replacing one entry changes one term of a sum. -/
theorem sum_zipWith_set {γ M : Type} [AddCommGroup M] (f : β → γ → M) {ys : List γ} {y : γ} (y' : γ)
    (hx : xs[i]? = some x) (hy : ys[i]? = some y) :
    (List.zipWith f xs (ys.set i y')).sum = (List.zipWith f xs ys).sum + (f x y' - f x y) := by
  induction xs generalizing ys i with
  | nil => simp at hx
  | cons x₀ xs ih =>
    cases ys with
    | nil => simp at hy
    | cons y₀ ys =>
      cases i with
      | zero =>
        cases hx
        cases hy
        simp only [List.set_cons_zero, List.zipWith_cons_cons, List.sum_cons]
        abel
      | succ i =>
        have hRest := ih hx hy
        simp only [List.set_cons_succ, List.zipWith_cons_cons, List.sum_cons, hRest]
        abel

end Transactional
