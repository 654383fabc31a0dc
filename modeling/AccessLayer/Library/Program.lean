import Mathlib.Logic.Basic

/-
  Programs over a shared store whose accesses are atomic
  statements.

  A program returns, throws, or runs one atomic statement and
  goes on.  A statement carries the update it makes, the
  continuation chosen from the store it reads, and the
  continuation taken when the store rejects it.  The same
  program can therefore be run alone, stopped between two
  statements, or interleaved with others.

  Main declarations: `Program`, `Program.run`
-/

-- Programs
----

namespace Transactional

section

/- A program over the store `σ` with errors `ε`. -/
inductive Program (σ ε α : Type) where
  | ret (value : α)
  | raise (error : ε)
  | stmt (update : σ → σ) (next : σ → Program σ ε α) (onFault : Program σ ε α)

namespace Program

variable {σ ε α β : Type}

/- Sequential composition. -/
protected def bind : Program σ ε α → (α → Program σ ε β) → Program σ ε β
  | .ret a, k => k a
  | .raise e, _ => .raise e
  | .stmt update next onFault, k => .stmt update (fun s => (next s).bind k) (onFault.bind k)

/- Run a handler on the error of a program. -/
def handle : Program σ ε α → (ε → Program σ ε α) → Program σ ε α
  | .ret a, _ => .ret a
  | .raise e, h => h e
  | .stmt update next onFault, h => .stmt update (fun s => (next s).handle h) (onFault.handle h)

instance : Monad (Program σ ε) where
  pure := .ret
  bind := .bind

instance : MonadExceptOf ε (Program σ ε) where
  throw := .raise
  tryCatch := .handle

/- One read of the store. -/
def query (fault : ε) (f : σ → α) : Program σ ε α := .stmt id (fun s => .ret (f s)) (.raise fault)

/- A program for each element, in order. -/
def forEach {γ : Type} (f : γ → Program σ ε Unit) : List γ → Program σ ε Unit
  | [] => pure ()
  | a :: rest => f a >>= fun _ => forEach f rest

/-
  One atomic write.  It leaves the store alone when it throws,
  as a rejected statement or a rolled back transaction does.
-/
def execute (fault : ε) (f : σ → Except ε (α × σ)) : Program σ ε α :=
  .stmt (fun s =>
    match f s with
    | .ok (_, s') => s'
    | .error _ => s)
    (fun s =>
      match f s with
      | .ok (a, _) => .ret a
      | .error e => .raise e)
    (.raise fault)

theorem bind_bind {γ : Type} (p : Program σ ε α) (k : α → Program σ ε β) (l : β → Program σ ε γ) :
    (p >>= k) >>= l = p >>= fun a => k a >>= l := by
  change (p.bind k).bind l = p.bind fun a => (k a).bind l
  induction p with
  | ret a => rfl
  | raise e => rfl
  | stmt update next onFault ihNext ihFault => simp only [Program.bind, ihNext, ihFault]

/- Reads of the same that go on alike are the same. -/
theorem query_bind_congr {γ : Type} {fault : ε} {f : σ → α} {k : α → Program σ ε γ}
    {l : α → Program σ ε β} {m : β → Program σ ε γ} (hNext : ∀ s, k (f s) = l (f s) >>= m) :
    (query fault f >>= k) = (query fault f >>= l) >>= m :=
  congrArg (fun next => Program.stmt id next (.raise fault)) (funext hNext)

/- A statement is still to be run. -/
def isRunning : Program σ ε α → Bool
  | .stmt _ _ _ => true
  | _ => false

end Program

end

-- Undisturbed Runs
----

namespace Program

variable {σ ε α β : Type}

/- Run a program alone, with no rejected statement. -/
def run : Program σ ε α → σ → Except ε α × σ
  | .ret a, s => (.ok a, s)
  | .raise e, s => (.error e, s)
  | .stmt update next _, s => (next s).run (update s)

/- The store a run leaves behind. -/
def final (p : Program σ ε α) (s : σ) : σ := (p.run s).2

@[simp] theorem run_pure
    (a : α) (s : σ) : (pure a : Program σ ε α).run s = (.ok a, s) := rfl

@[simp] theorem run_throw
    (e : ε) (s : σ) : (throw e : Program σ ε α).run s = (.error e, s) := rfl

@[simp] theorem run_ret
    (a : α) (s : σ) : (Program.ret a : Program σ ε α).run s = (.ok a, s) := rfl

@[simp] theorem run_bind (p : Program σ ε α) (k : α → Program σ ε β) (s : σ) :
    (p >>= k).run s =
      match p.run s with
      | (.ok a, s') => (k a).run s'
      | (.error e, s') => (.error e, s') := by
  change (p.bind k).run s = _
  induction p generalizing s with
  | ret a => rfl
  | raise e => rfl
  | stmt update next onFault ihNext ihFault => exact ihNext s (update s)

theorem ok_of_run_bind {p : Program σ ε α} {k : α → Program σ ε β} {s : σ} {b : β}
    (hOk : ((p >>= k).run s).1 = .ok b) : ∃ a s', p.run s = (.ok a, s') ∧
      ((k a).run s').1 = .ok b := by
  rw [run_bind] at hOk
  cases hRun : p.run s with
  | mk result s' =>
    rw [hRun] at hOk
    cases result with
    | error e => cases hOk
    | ok a => exact ⟨a, s', rfl, hOk⟩

@[simp] theorem run_map (f : α → β) (p : Program σ ε α) (s : σ) :
    (f <$> p).run s =
      match p.run s with
      | (.ok a, s') => (.ok (f a), s')
      | (.error e, s') => (.error e, s') := by
  change (p >>= fun a => pure (f a)).run s = _
  simp only [run_bind, run_pure]

@[simp] theorem run_tryCatch (p : Program σ ε α) (h : ε → Program σ ε α) (s : σ) :
    (tryCatch p h).run s =
      match p.run s with
      | (.ok a, s') => (.ok a, s')
      | (.error e, s') => (h e).run s' := by
  change (p.handle h).run s = _
  induction p generalizing s with
  | ret a => rfl
  | raise e => rfl
  | stmt update next onFault ihNext ihFault => exact ihNext s (update s)

@[simp] theorem run_query
    (fault : ε) (f : σ → α) (s : σ) : (query fault f).run s = (.ok (f s), s) := rfl

@[simp] theorem run_execute (fault : ε) (f : σ → Except ε (α × σ)) (s : σ) :
    (execute fault f).run s =
      match f s with
      | .ok (a, s') => (.ok a, s')
      | .error e => (.error e, s) := by
  simp only [execute, run]
  cases f s with
  | ok result => rfl
  | error e => rfl

@[simp] theorem run_forEach_nil
    {γ : Type} (f : γ → Program σ ε Unit) (s : σ) : (forEach f []).run s = (.ok (), s) := rfl

theorem run_forEach_append {γ : Type} (f : γ → Program σ ε Unit) (xs ys : List γ) (s : σ) :
    (forEach f (xs ++ ys)).run s =
      match (forEach f xs).run s with
      | (.ok _, s') => (forEach f ys).run s'
      | (.error e, s') => (.error e, s') := by
  induction xs generalizing s with
  | nil => rfl
  | cons a rest ih =>
    simp only [List.cons_append, forEach, run_bind]
    cases (f a).run s with
    | mk result s' =>
      cases result with
      | ok _ => exact ih s'
      | error e => rfl

end Program

-- Attempts
----

section

/-
  What the store does with one statement.  A `lost` statement
  takes effect although its caller sees it fail.
-/
inductive Outcome where
  | served
  | rejected
  | lost
  deriving DecidableEq

namespace Program

variable {σ ε α : Type}

/-
  Run a program against the given outcomes.  The process dies
  when the list is exhausted before the program is.
-/
def attempt : Program σ ε α → List Outcome → σ → σ
  | .stmt update next _, .served :: os, s => (next s).attempt os (update s)
  | .stmt _ _ onFault, .rejected :: os, s => onFault.attempt os s
  | .stmt update _ onFault, .lost :: os, s => onFault.attempt os (update s)
  | .stmt _ _ _, [], s => s
  | .ret _, _, s => s
  | .raise _, _, s => s

@[simp] theorem attempt_nil (p : Program σ ε α) (s : σ) :
    p.attempt [] s = s := by
  cases p <;> rfl

@[simp] theorem attempt_ret (a : α) (os : List Outcome) (s : σ) :
    (Program.ret a : Program σ ε α).attempt os s = s := by
  cases os <;> rfl

@[simp] theorem attempt_raise (e : ε) (os : List Outcome) (s : σ) :
    (Program.raise e : Program σ ε α).attempt os s = s := by
  cases os <;> rfl

end Program

end

-- Invariants
----

namespace Program

variable {σ ε α β : Type}

def Keeps (I : σ → Prop) : Program σ ε α → Prop
  | .ret _ => True
  | .raise _ => True
  | .stmt update next onFault =>
    (∀ s, I s → I (update s)) ∧ (∀ s, I s → (next s).Keeps I) ∧ onFault.Keeps I

variable {I : σ → Prop}

theorem keeps_pure (a : α) : (pure a : Program σ ε α).Keeps I := trivial

theorem keeps_throw (e : ε) : (throw e : Program σ ε α).Keeps I := trivial

theorem keeps_bind {p : Program σ ε α} {k : α → Program σ ε β} (hp : p.Keeps I)
    (hk : ∀ a, (k a).Keeps I) :
    (p >>= k).Keeps I := by
  change (p.bind k).Keeps I
  induction p with
  | ret a => exact hk a
  | raise e => trivial
  | stmt update next onFault ihNext ihFault =>
    exact ⟨hp.1, fun s hs => ihNext s (hp.2.1 s hs), ihFault hp.2.2⟩

theorem keeps_tryCatch {p : Program σ ε α} {h : ε → Program σ ε α} (hp : p.Keeps I)
    (hh : ∀ e, (h e).Keeps I) :
    (tryCatch p h).Keeps I := by
  change (p.handle h).Keeps I
  induction p with
  | ret a => trivial
  | raise e => exact hh e
  | stmt update next onFault ihNext ihFault =>
    exact ⟨hp.1, fun s hs => ihNext s (hp.2.1 s hs), ihFault hp.2.2⟩

theorem keeps_query (fault : ε) (f : σ → α) : (query fault f).Keeps I :=
  ⟨fun _ hs => hs, fun _ _ => trivial, trivial⟩

theorem keeps_query_bind_bind {γ : Type} {fault : ε} {f : σ → α} {k : α → Program σ ε β}
    {l : β → Program σ ε γ} (hk : ∀ s, I s → (k (f s) >>= l).Keeps I) :
    ((query fault f >>= k) >>= l).Keeps I := ⟨fun _ hs => hs, hk, trivial⟩

theorem keeps_execute (fault : ε) {f : σ → Except ε (α × σ)}
    (hf : ∀ s a s', I s → f s = .ok (a, s') → I s') :
    (execute fault f).Keeps I := by
  refine ⟨?_, ?_, trivial⟩
  · intro s hs
    cases hResult : f s with
    | ok result => simpa [hResult] using hf s result.1 result.2 hs hResult
    | error e => simpa [hResult] using hs
  · intro s hs
    cases hResult : f s with
    | ok result => simp [Keeps, hResult]
    | error e => simp [Keeps, hResult]

theorem keeps_run {p : Program σ ε α} (hp : p.Keeps I) {s : σ} (hs : I s) : I (p.run s).2 := by
  induction p generalizing s with
  | ret a => exact hs
  | raise e => exact hs
  | stmt update next onFault ihNext ihFault => exact ihNext s (hp.2.1 s hs) (hp.1 s hs)

/- A program that only reads leaves the rest to run from the state it started in. -/
theorem run_bind_of_reads {p : Program σ ε α} {k : α → Program σ ε β} {s : σ}
    (hp : p.Keeps (· = s)) (hs : I s) (hk : ∀ a, I ((k a).run s).2) : I ((p >>= k).run s).2 := by
  have hSame := keeps_run hp (rfl : s = s)
  rw [run_bind]
  cases hRun : p.run s with
  | mk result s' =>
    rw [hRun] at hSame
    cases hSame
    cases result with
    | error e => exact hs
    | ok a => exact hk a

theorem keeps_attempt {p : Program σ ε α} (hp : p.Keeps I) (os : List Outcome) {s : σ} (hs : I s) :
    I (p.attempt os s) := by
  induction p generalizing os s with
  | ret a => simpa using hs
  | raise e => simpa using hs
  | stmt update next onFault ihNext ihFault =>
    cases os with
    | nil => exact hs
    | cons o os =>
      cases o with
      | served => exact ihNext s (hp.2.1 s hs) os (hp.1 s hs)
      | rejected => exact ihFault hp.2.2 os hs
      | lost => exact ihFault hp.2.2 os (hp.1 s hs)

/- The next statement of a program leads from `P` to `Q`, which the rest keeps. -/
def Establishes (P Q : σ → Prop) : Program σ ε α → Prop
  | .stmt update next _ => ∀ s, P s → Q (update s) ∧ (next s).Keeps Q
  | _ => True

theorem establishes_execute_bind {P Q : σ → Prop} {fault : ε} {f : σ → Except ε (α × σ)}
    {k : α → Program σ ε β} (hf : ∀ s, P s → ∃ a s', f s = .ok (a, s') ∧ Q s')
    (hk : ∀ a, (k a).Keeps Q) :
    (execute fault f >>= k).Establishes P Q := by
  intro s hs
  rcases hf s hs with ⟨a, s', hResult, hQ⟩
  simp only [hResult]
  exact ⟨hQ, hk a⟩

theorem establishes_map {P Q : σ → Prop} {p : Program σ ε α} (f : α → β) (hp : p.Establishes P Q) :
    (f <$> p).Establishes P Q := by
  cases p with
  | ret a => trivial
  | raise e => trivial
  | stmt update next onFault =>
    intro s hs
    exact ⟨(hp s hs).1, keeps_bind (hp s hs).2 (fun _ => keeps_pure _)⟩

theorem establishes_run {P Q : σ → Prop} {p : Program σ ε α} (hp : p.Establishes P Q)
    (hRunning : p.isRunning) {s : σ} (hs : P s) :
    Q (p.run s).2 := by
  cases p with
  | ret a => simp [isRunning] at hRunning
  | raise e => simp [isRunning] at hRunning
  | stmt update next onFault =>
    have hStep := hp s hs
    exact keeps_run hStep.2 hStep.1

/- The first `n` statements of a program only read. -/
def ReadsFor : Nat → Program σ ε α → Prop
  | 0, _ => True
  | n + 1, .stmt update next _ => (∀ s, update s = s) ∧ ∀ s, (next s).ReadsFor n
  | _ + 1, _ => True

end Program

-- Changes
----

namespace Program

variable {σ ε α β : Type}

/- Every statement makes a change in `R`, wherever it runs. -/
def Changes (R : σ → σ → Prop) : Program σ ε α → Prop
  | .ret _ => True
  | .raise _ => True
  | .stmt update next onFault =>
    (∀ s, R s (update s)) ∧ (∀ s, (next s).Changes R) ∧ onFault.Changes R

variable {R : σ → σ → Prop}

theorem changes_bind {p : Program σ ε α} {k : α → Program σ ε β} (hp : p.Changes R)
    (hk : ∀ a, (k a).Changes R) :
    (p >>= k).Changes R := by
  change (p.bind k).Changes R
  induction p with
  | ret a => exact hk a
  | raise e => trivial
  | stmt update next onFault ihNext ihFault =>
    exact ⟨hp.1, fun s => ihNext s (hp.2.1 s), ihFault hp.2.2⟩

theorem changes_tryCatch {p : Program σ ε α} {h : ε → Program σ ε α} (hp : p.Changes R)
    (hh : ∀ e, (h e).Changes R) :
    (tryCatch p h).Changes R := by
  change (p.handle h).Changes R
  induction p with
  | ret a => trivial
  | raise e => exact hh e
  | stmt update next onFault ihNext ihFault =>
    exact ⟨hp.1, fun s => ihNext s (hp.2.1 s), ihFault hp.2.2⟩

theorem keeps_of_changes {I : σ → Prop} {p : Program σ ε α}
    (hp : p.Changes fun s s' => I s → I s') :
    p.Keeps I := by
  induction p with
  | ret a => trivial
  | raise e => trivial
  | stmt update next onFault ihNext ihFault =>
    exact ⟨hp.1, fun s _ => ihNext s (hp.2.1 s), ihFault hp.2.2⟩

theorem changes_query (hRefl : ∀ s, R s s) (fault : ε) (f : σ → α) : (query fault f).Changes R :=
  ⟨hRefl, fun _ => trivial, trivial⟩

theorem changes_execute (hRefl : ∀ s, R s s) (fault : ε) {f : σ → Except ε (α × σ)}
    (hf : ∀ s a s', f s = .ok (a, s') → R s s') :
    (execute fault f).Changes R := by
  refine ⟨?_, ?_, trivial⟩
  · intro s
    cases hResult : f s with
    | ok result => simpa [hResult] using hf s result.1 result.2 hResult
    | error e => simpa [hResult] using hRefl s
  · intro s
    cases hResult : f s with
    | ok result => simp [Changes, hResult]
    | error e => simp [Changes, hResult]

theorem changes_forEach {γ : Type} {f : γ → Program σ ε Unit} {xs : List γ}
    (hf : ∀ x ∈ xs, (f x).Changes R) :
    (forEach f xs).Changes R := by
  induction xs with
  | nil => trivial
  | cons x rest ih =>
    exact changes_bind (hf x List.mem_cons_self) fun _ =>
      ih fun y hy => hf y (List.mem_cons_of_mem x hy)

end Program

-- Postconditions of Runs
----

namespace Program

variable {σ ε α β : Type} {s : σ} {Q : α → σ → Prop} {R : β → σ → Prop} {E : σ → Prop}

/-
  A run from `s` ends with an answer and a store of which `Q`
  holds, or fails and leaves a store of which `E` holds.
-/
def Ensures (p : Program σ ε α) (s : σ) (Q : α → σ → Prop) (E : σ → Prop) : Prop :=
  match p.run s with
  | (.ok a, s') => Q a s'
  | (.error _, s') => E s'

theorem ensures_pure {a : α} (hQ : Q a s) : (pure a : Program σ ε α).Ensures s Q E := hQ

theorem ensures_throw {e : ε} (hE : E s) : (throw e : Program σ ε α).Ensures s Q E := hE

/- A program that goes on with what it reads. -/
theorem ensures_query_bind {fault : ε} {f : σ → α} {k : α → Program σ ε β}
    (hk : (k (f s)).Ensures s R E) : (query fault f >>= k).Ensures s R E := hk

theorem ensures_execute {fault : ε} {f : σ → Except ε (α × σ)}
    (hOk : ∀ a s', f s = .ok (a, s') → Q a s') (hError : E s) :
    (execute fault f).Ensures s Q E := by
  unfold Ensures
  rw [run_execute]
  cases hResult : f s with
  | ok result => exact hOk result.1 result.2 hResult
  | error e => exact hError

theorem Ensures.bind {p : Program σ ε α} {k : α → Program σ ε β} (hp : p.Ensures s Q E)
    (hk : ∀ a s', Q a s' → (k a).Ensures s' R E) :
    (p >>= k).Ensures s R E := by
  unfold Ensures at hp ⊢
  rw [run_bind]
  cases hRun : p.run s with
  | mk result s' =>
    rw [hRun] at hp
    cases result with
    | ok a => exact hk a s' hp
    | error e => exact hp

/- A failure is as good as what its handler makes of it. -/
theorem Ensures.tryCatch {p : Program σ ε α} {h : ε → Program σ ε α} {F : σ → Prop}
    (hp : p.Ensures s Q F) (hh : ∀ e s', F s' → (h e).Ensures s' Q E) :
    (tryCatch p h).Ensures s Q E := by
  unfold Ensures at hp hh ⊢
  rw [run_tryCatch]
  cases hRun : p.run s with
  | mk result s' =>
    rw [hRun] at hp
    cases result with
    | ok a => exact hp
    | error e => exact hh e s' hp

theorem Ensures.imp {p : Program σ ε α} {Q' : α → σ → Prop} {E' : σ → Prop} (hp : p.Ensures s Q E)
    (hQ : ∀ a s', Q a s' → Q' a s') (hE : ∀ s', E s' → E' s') :
    p.Ensures s Q' E' := by
  unfold Ensures at hp ⊢
  cases hRun : p.run s with
  | mk result s' =>
    rw [hRun] at hp
    cases result with
    | ok a => exact hQ a s' hp
    | error e => exact hE s' hp

/- What each element of a list keeps. -/
theorem ensures_forEach {γ : Type} {f : γ → Program σ ε Unit} {I : σ → Prop} {xs : List γ}
    (hStep : ∀ x ∈ xs, ∀ s, I s → (f x).Ensures s (fun _ => I) E) (hI : I s) :
    (forEach f xs).Ensures s (fun _ => I) E := by
  induction xs generalizing s with
  | nil => exact ensures_pure hI
  | cons x rest ih =>
    have hRest := fun y hy => hStep y (List.mem_cons_of_mem _ hy)
    refine (hStep x List.mem_cons_self s hI).bind ?_
    exact fun _ s' hI' => ih hRest hI'

/- What answers and failures leave alike. -/
theorem Ensures.final {p : Program σ ε α} (hp : p.Ensures s (fun _ s' => E s') E) :
    E (p.final s) := by
  unfold Ensures at hp
  unfold Program.final
  cases hRun : p.run s with
  | mk result s' =>
    rw [hRun] at hp
    cases result with
    | ok a => exact hp
    | error e => exact hp

end Program

-- Postconditions of Attempts
----

namespace Program

variable {σ ε α β γ : Type} {I : σ → Prop} {Q : α → σ → Prop} {R : β → σ → Prop} {E F : σ → Prop}
variable {s : σ}

/-
  Whatever the store does with its statements, a program passes
  only through stores of which `I` holds; `Q` holds when it
  answers and `E` when it fails.
-/
def Secures (I : σ → Prop) (Q : α → σ → Prop) (E : σ → Prop) : Program σ ε α → σ → Prop
  | .ret a, s => Q a s
  | .raise _, s => E s
  | .stmt update next onFault, s =>
    I (update s) ∧ Secures I Q E (next s) (update s) ∧ Secures I Q E onFault s ∧
      Secures I Q E onFault (update s)

theorem secures_pure {a : α} (hQ : Q a s) : Secures I Q E (pure a : Program σ ε α) s := hQ

/- An atomic write that may be rejected or lost. -/
theorem secures_execute {fault : ε} {f : σ → Except ε (α × σ)}
    (hServed : ∀ a s', f s = .ok (a, s') → I s' ∧ Q a s' ∧ E s') (hI : I s) (hE : E s) :
    Secures I Q E (execute fault f) s := by
  unfold execute Secures
  cases hResult : f s with
  | ok result =>
    rcases hServed result.1 result.2 hResult with ⟨hI', hQ', hE'⟩
    simp only [hResult]
    exact ⟨hI', hQ', hE, hE'⟩
  | error e =>
    simp only [hResult]
    exact ⟨hI, hE, hE, hE⟩

theorem Secures.bind {p : Program σ ε α} {k : α → Program σ ε β} (hp : Secures I Q E p s)
    (hk : ∀ a s', Q a s' → Secures I R E (k a) s') :
    Secures I R E (p >>= k) s := by
  change Secures I R E (p.bind k) s
  induction p generalizing s with
  | ret a => exact hk a s hp
  | raise e => exact hp
  | stmt update next onFault ihNext ihFault =>
    rcases hp with ⟨hI, hNext, hRejected, hLost⟩
    exact ⟨hI, ihNext s hNext, ihFault hRejected, ihFault hLost⟩

theorem Secures.tryCatch {p : Program σ ε α} {h : ε → Program σ ε α} (hp : Secures I Q F p s)
    (hh : ∀ e s', F s' → Secures I Q E (h e) s') :
    Secures I Q E (tryCatch p h) s := by
  change Secures I Q E (p.handle h) s
  induction p generalizing s with
  | ret a => exact hp
  | raise e => exact hh e s hp
  | stmt update next onFault ihNext ihFault =>
    rcases hp with ⟨hI, hNext, hRejected, hLost⟩
    exact ⟨hI, ihNext s hNext, ihFault hRejected, ihFault hLost⟩

theorem secures_forEach {f : γ → Program σ ε Unit} (done : List γ → σ → Prop) (hStep :
    ∀ xs x s, done xs s → Secures I (fun _ s' => done (xs ++ [x]) s') E (f x) s) (rest : List γ)
    {xs : List γ} (hDone : done xs s) :
    Secures I (fun _ s' => done (xs ++ rest) s') E (forEach f rest) s := by
  induction rest generalizing xs s with
  | nil =>
    rw [List.append_nil]
    exact secures_pure hDone
  | cons x rest ih =>
    refine (hStep xs x s hDone).bind ?_
    intro _ s' hDone'
    simpa using ih hDone'

theorem secures_of_all (hI : ∀ s, I s) (hQ : ∀ a s, Q a s) (hE : ∀ s, E s) (p : Program σ ε α)
    (s : σ) :
    Secures I Q E p s := by
  induction p generalizing s with
  | ret a => exact hQ a s
  | raise e => exact hE s
  | stmt update next onFault ihNext ihFault =>
    exact ⟨hI _, ihNext s _, ihFault s, ihFault (update s)⟩

theorem Secures.attempt {p : Program σ ε α} (hp : Secures I Q E p s) (hI : I s)
    (os : List Outcome) :
    I (p.attempt os s) := by
  induction p generalizing s os with
  | ret a => simpa using hI
  | raise e => simpa using hI
  | stmt update next onFault ihNext ihFault =>
    rcases hp with ⟨hI', hNext, hRejected, hLost⟩
    cases os with
    | nil => exact hI
    | cons o os =>
      cases o with
      | served => exact ihNext s hNext hI' os
      | rejected => exact ihFault hRejected hI os
      | lost => exact ihFault hLost hI' os

/- An undisturbed run is one of the attempts. -/
theorem exists_attempt_eq_final (p : Program σ ε α) (s : σ) : ∃ os, p.attempt os s = p.final s := by
  induction p generalizing s with
  | ret a => exact ⟨[], rfl⟩
  | raise e => exact ⟨[], rfl⟩
  | stmt update next onFault ihNext ihFault =>
    rcases ihNext s (update s) with ⟨os, hRun⟩
    exact ⟨.served :: os, hRun⟩

-- Programs That Agree
----

/- Two programs that run statement by statement alike on stores related by `R`. -/
inductive Agree (R : σ → σ → Prop) :
    Program σ ε α → Program σ ε α → Prop where
  | ret (a : α) : Agree R (.ret a) (.ret a)
  | raise (e : ε) : Agree R (.raise e) (.raise e)
  | stmt {u v : σ → σ} {n m : σ → Program σ ε α} {f g : Program σ ε α}
    (hUpdate : ∀ s t, R s t → R (u s) (v t)) (hNext : ∀ s t, R s t → Agree R (n s) (m t)) :
    Agree R (.stmt u n f) (.stmt v m g)

variable {R : σ → σ → Prop}

theorem Agree.run {p q : Program σ ε α} (h : Agree R p q) {s t : σ} (hR : R s t) :
    (p.run s).1 = (q.run t).1 ∧ R (p.run s).2 (q.run t).2 := by
  induction h generalizing s t with
  | ret a => exact ⟨rfl, hR⟩
  | raise e => exact ⟨rfl, hR⟩
  | stmt hUpdate hNext ih => exact ih s t hR (hUpdate s t hR)

theorem Agree.bind {p q : Program σ ε α} {k l : α → Program σ ε β} (h : Agree R p q)
    (hk : ∀ a, Agree R (k a) (l a)) :
    Agree R (p >>= k) (q >>= l) := by
  change Agree R (p.bind k) (q.bind l)
  induction h with
  | ret a => exact hk a
  | raise e => exact .raise e
  | stmt hUpdate hNext ih => exact .stmt hUpdate ih

theorem Agree.tryCatch {p q : Program σ ε α} {h l : ε → Program σ ε α} (hp : Agree R p q)
    (hh : ∀ e, Agree R (h e) (l e)) :
    Agree R (tryCatch p h) (tryCatch q l) := by
  change Agree R (p.handle h) (q.handle l)
  induction hp with
  | ret a => exact .ret a
  | raise e => exact hh e
  | stmt hUpdate hNext ih => exact .stmt hUpdate ih

theorem Agree.query {fault : ε} {f g : σ → α} (h : ∀ s t, R s t → f s = g t) :
    Agree R (query fault f) (query fault g) := by
  refine .stmt (fun s t hR => hR) ?_
  intro s t hR
  rw [h s t hR]
  exact .ret _

/- Two writes agree when they fail or answer alike. -/
theorem Agree.execute {fault : ε} {f g : σ → Except ε (α × σ)}
    (hOk : ∀ s t a s', R s t → f s = .ok (a, s') → ∃ t', g t = .ok (a, t') ∧ R s' t')
    (hError : ∀ s t e, R s t → f s = .error e → g t = .error e) :
    Agree R (execute fault f) (execute fault g) := by
  refine .stmt ?_ ?_
  · intro s t hR
    cases hf : f s with
    | ok result =>
      rcases hOk s t result.1 result.2 hR hf with ⟨t', hg, hR'⟩
      simpa [hf, hg] using hR'
    | error e => simpa [hf, hError s t e hR hf] using hR
  · intro s t hR
    cases hf : f s with
    | ok result =>
      rcases hOk s t result.1 result.2 hR hf with ⟨t', hg, hR'⟩
      simp only [hg]
      exact .ret _
    | error e =>
      simp only [hError s t e hR hf]
      exact .raise _

end Program

-- Components of a Store
----

/- A part of a store, read and replaced on its own. -/
structure Component (τ σ : Type) where
  get : τ → σ
  set : σ → τ → τ
  get_set : ∀ s t, get (set s t) = s
  set_get : ∀ t, set (get t) t = t
  set_set : ∀ s s' t, set s' (set s t) = set s' t

namespace Program

variable {σ τ ε α : Type}

/- Run a program on one component of a larger store. -/
def zoom (c : Component τ σ) : Program σ ε α → Program τ ε α
  | .ret a => .ret a
  | .raise e => .raise e
  | .stmt update next onFault =>
    .stmt (fun t => c.set (update (c.get t)) t) (fun t => (next (c.get t)).zoom c) (onFault.zoom c)

/- The other components are neither read nor written. -/
@[simp] theorem run_zoom (c : Component τ σ) (p : Program σ ε α) (t : τ) :
    (p.zoom c).run t = ((p.run (c.get t)).1, c.set (p.run (c.get t)).2 t) := by
  induction p generalizing t with
  | ret a => simp [zoom, run, c.set_get]
  | raise e => simp [zoom, run, c.set_get]
  | stmt update next onFault ihNext ihFault =>
    simp only [zoom, run]
    rw [ihNext, c.get_set, c.set_set]

/- A part is secured in the store it is put back into. -/
theorem Secures.zoom {c : Component τ σ} {p : Program σ ε α} {I : τ → Prop} {Q : α → τ → Prop}
    {E : τ → Prop} {t : τ}
    (hp : Secures (fun s => I (c.set s t)) (fun a s => Q a (c.set s t)) (fun s => E (c.set s t))
      p (c.get t)) :
    Secures I Q E (p.zoom c) t := by
  have hInner : ∀ s, Secures (fun s => I (c.set s t)) (fun a s => Q a (c.set s t))
      (fun s => E (c.set s t)) p s →
      Secures I Q E (p.zoom c) (c.set s t) := by
    clear hp
    induction p with
    | ret a => exact fun s hs => hs
    | raise e => exact fun s hs => hs
    | stmt update next onFault ihNext ihFault =>
      intro s hs
      rcases hs with ⟨hI, hNext, hRejected, hLost⟩
      simp only [Program.zoom, Secures, c.get_set, c.set_set]
      exact ⟨hI, ihNext s _ hNext, ihFault _ hRejected, ihFault _ hLost⟩
  simpa [c.set_get] using hInner (c.get t) hp

end Program

end Transactional
