import AccessLayer.Library.Program

/-
  What the first statements of a program that is cut off leave.

  A row is created once: where it is there already, the program
  goes on with the answer that it was not new.

  Main declaration: `createOnce`
-/

-- First Statements
----

namespace Transactional

namespace Program

variable {σ ε α β : Type} {fault : ε} {s s' : σ}

variable {f : σ → α}

theorem attempt_query_bind {k : α → Program σ ε β} (os : List Outcome) :
    (query fault f >>= k).attempt os s =
      if os[0]? = some .served then
        (k (f s)).attempt os.tail s
      else s := by
  cases os with
  | nil => rfl
  | cons first rest =>
    cases first with
    | served => exact (if_pos rfl).symm
    | rejected => cases rest <;> rfl
    | lost => cases rest <;> rfl

/- A write may take effect and end the program all the same. -/
theorem attempt_execute_bind {f : σ → Except ε (α × σ)} {k : α → Program σ ε β} {a : α}
    (hWrite : f s = .ok (a, s')) (os : List Outcome) :
    (execute fault f >>= k).attempt os s =
      match os with
      | .served :: rest => (k a).attempt rest s'
      | .lost :: _ => s'
      | _ => s := by
  cases os with
  | nil => rfl
  | cons first rest =>
    cases first with
    | served => simp [bind, Program.bind, execute, attempt, hWrite]
    | rejected => cases rest <;> rfl
    | lost => simp [bind, Program.bind, execute, attempt, hWrite]

/- Answers whether the row was new. -/
def createOnce [DecidableEq ε] (fault taken : ε)
    (create : σ → Except ε (Unit × σ)) : Program σ ε Bool :=
  tryCatch (do
    execute fault create
    pure true)
    (fun error =>
      if error = taken then pure false else throw error)

variable [DecidableEq ε] {taken : ε} {create : σ → Except ε (Unit × σ)} {k : Bool → Program σ ε β}

theorem attempt_createOnce_bind (hFault : fault ≠ taken) (hCreate : create s = .ok ((), s'))
    (os : List Outcome) :
    (createOnce fault taken create >>= k).attempt os s =
      match os with
      | .served :: rest => (k true).attempt rest s'
      | .lost :: _ => s'
      | _ => s := by
  cases os with
  | nil => rfl
  | cons first rest =>
    cases first with
    | served =>
      simp [createOnce, bind, Program.bind, execute, attempt, hCreate, tryCatch, tryCatchThe,
        MonadExceptOf.tryCatch, handle, pure]
    | rejected =>
      simp [createOnce, bind, Program.bind, execute, attempt, hFault, tryCatch, tryCatchThe,
        MonadExceptOf.tryCatch, handle, pure, throw, throwThe, MonadExceptOf.throw]
    | lost =>
      simp [createOnce, bind, Program.bind, execute, attempt,
        hCreate, hFault, tryCatch, tryCatchThe, MonadExceptOf.tryCatch, handle, pure, throw,
        throwThe, MonadExceptOf.throw]

/- What a read answers is true of the store it leaves alone. -/
omit [DecidableEq ε] in
theorem secures_query {I E : σ → Prop} (hI : I s) (hE : E s) :
    Secures I (fun a t => a = f s ∧ t = s) E (query fault f : Program σ ε α) s :=
  ⟨hI, ⟨rfl, rfl⟩, hE, hE⟩

/- A row that is there is not created again. -/
theorem attempt_createOnce_bind_taken (hFault : fault ≠ taken) (hTaken : create s = .error taken)
    (os : List Outcome) :
    (createOnce fault taken create >>= k).attempt os s =
      if os[0]? = some .served then
        (k false).attempt os.tail s
      else s := by
  cases os with
  | nil => rfl
  | cons first rest =>
    cases first with
    | served =>
      simp [createOnce, bind, Program.bind, execute, attempt, hTaken, tryCatch, tryCatchThe,
        MonadExceptOf.tryCatch, handle, pure]
    | rejected =>
      simp [createOnce, bind, Program.bind, execute, attempt, hFault, tryCatch, tryCatchThe,
        MonadExceptOf.tryCatch, handle, pure, throw, throwThe, MonadExceptOf.throw]
    | lost =>
      simp [createOnce, bind, Program.bind, execute, attempt, hTaken, hFault, tryCatch, tryCatchThe,
        MonadExceptOf.tryCatch, handle, pure, throw, throwThe, MonadExceptOf.throw]

end Program

end Transactional
