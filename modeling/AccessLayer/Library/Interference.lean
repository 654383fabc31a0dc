import AccessLayer.Library.Phases

/-
  Programs whose statements interleave with those of others.

  The others change the store by moves.  A program that keeps its
  promise only makes moves itself, whatever moves come between
  its statements; what it promises on ending holds from then on.

  Main declaration: `Pool.promises_run`
-/

-- Promises
----

namespace Transactional

section

/- The changes of a store that are made between statements. -/
structure Moves (σ : Type) where
  move : σ → σ → Prop
  refl : ∀ s, move s s
  trans : ∀ {s t u}, move s t → move t u → move s u

/- What a move cannot undo. -/
def Moves.Stable {σ : Type} (moves : Moves σ) (P : σ → Prop) : Prop :=
  ∀ s t, moves.move s t → P s → P t

namespace Program

variable {σ ε α β γ : Type} (moves : Moves σ)

/- The statements are moves, `Q` holds when the program answers and `E` when it fails. -/
def Promises (Q : α → σ → Prop) (E : ε → σ → Prop) : Program σ ε α → σ → Prop
  | .ret a, s => ∀ t, moves.move s t → Q a t
  | .raise e, s => ∀ t, moves.move s t → E e t
  | .stmt update next onFault, s =>
    ∀ t, moves.move s t → moves.move t (update t) ∧ Promises Q E (next t) (update t) ∧
      Promises Q E onFault t ∧ Promises Q E onFault (update t)

variable {moves} {Q Q' : α → σ → Prop} {R : β → σ → Prop} {E E' : ε → σ → Prop} {s t : σ}
variable {p : Program σ ε α}

theorem Promises.later (hp : p.Promises moves Q E s) (hMove : moves.move s t) :
    p.Promises moves Q E t := by
  cases p with
  | ret a => exact fun u hu => hp u (moves.trans hMove hu)
  | raise e => exact fun u hu => hp u (moves.trans hMove hu)
  | stmt update next onFault => exact fun u hu => hp u (moves.trans hMove hu)

theorem promises_pure {a : α} (hStable : moves.Stable (Q a)) (hQ : Q a s) :
    (pure a : Program σ ε α).Promises moves Q E s :=
  fun t hMove => hStable s t hMove hQ

theorem promises_throw {e : ε} (hStable : moves.Stable (E e)) (hE : E e s) :
    (throw e : Program σ ε α).Promises moves Q E s :=
  fun t hMove => hStable s t hMove hE

variable {fault : ε}

/- A write that is a move wherever it is made. -/
theorem promises_execute {f : σ → Except ε (α × σ)}
    (hOk : ∀ t a t', moves.move s t → f t = .ok (a, t') → moves.move t t' ∧ Q a t')
    (hError : ∀ t e, moves.move s t → f t = .error e → E e t) (hFault : ∀ t, E fault t)
    (hQ : ∀ a, moves.Stable (Q a)) (hE : ∀ e, moves.Stable (E e)) :
    (execute fault f).Promises moves Q E s := by
  intro t hMove
  cases hResult : f t with
  | ok result =>
    rcases hOk t result.1 result.2 hMove hResult with ⟨hMove', hQ'⟩
    simp only [hResult]
    exact ⟨hMove', promises_pure (hQ _) hQ', promises_throw (hE _) (hFault t),
      promises_throw (hE _) (hFault _)⟩
  | error e =>
    simp only [hResult]
    exact ⟨moves.refl t, promises_throw (hE _) (hError t e hMove hResult),
      promises_throw (hE _) (hFault t), promises_throw (hE _) (hFault t)⟩

theorem promises_query_bind {f : σ → β} {k : β → Program σ ε α} (hFault : ∀ t, E fault t)
    (hk : ∀ t, moves.move s t → (k (f t)).Promises moves Q E t) :
    (query fault f >>= k).Promises moves Q E s := by
  intro t hMove
  exact ⟨moves.refl t, hk t hMove, fun u _ => hFault u, fun u _ => hFault u⟩

theorem Promises.bind {k : α → Program σ ε β} (hp : p.Promises moves Q E s)
    (hk : ∀ a t, Q a t → (k a).Promises moves R E t) :
    (p >>= k).Promises moves R E s := by
  change (p.bind k).Promises moves R E s
  induction p generalizing s with
  | ret a => exact hk a s (hp s (moves.refl s))
  | raise e => exact hp
  | stmt update next onFault ihNext ihFault =>
    intro t hMove
    rcases hp t hMove with ⟨hWrite, hNext, hRejected, hLost⟩
    exact ⟨hWrite, ihNext t hNext, ihFault hRejected, ihFault hLost⟩

theorem Promises.tryCatch {h : ε → Program σ ε α} (hp : p.Promises moves Q E' s)
    (hh : ∀ e t, E' e t → (h e).Promises moves Q E t) :
    (tryCatch p h).Promises moves Q E s := by
  change (p.handle h).Promises moves Q E s
  induction p generalizing s with
  | ret a => exact hp
  | raise e => exact hh e s (hp s (moves.refl s))
  | stmt update next onFault ihNext ihFault =>
    intro t hMove
    rcases hp t hMove with ⟨hWrite, hNext, hRejected, hLost⟩
    exact ⟨hWrite, ihNext t hNext, ihFault hRejected, ihFault hLost⟩

/- What no move undoes still holds in the end. -/
theorem Promises.keep {P : σ → Prop} (hp : p.Promises moves Q E s) (hStable : moves.Stable P)
    (hP : P s) :
    p.Promises moves (fun a t => P t ∧ Q a t) E s := by
  induction p generalizing s with
  | ret a => exact fun t hMove => ⟨hStable s t hMove hP, hp t hMove⟩
  | raise e => exact hp
  | stmt update next onFault ihNext ihFault =>
    intro t hMove
    rcases hp t hMove with ⟨hWrite, hNext, hRejected, hLost⟩
    have ht := hStable s t hMove hP
    have ht' := hStable t _ hWrite ht
    exact ⟨hWrite, ihNext t hNext ht', ihFault hRejected ht, ihFault hLost ht'⟩

theorem Promises.imp (hp : p.Promises moves Q E s) (hQ : ∀ a t, Q a t → Q' a t)
    (hE : ∀ e t, E e t → E' e t) :
    p.Promises moves Q' E' s := by
  induction p generalizing s with
  | ret a => exact fun t hMove => hQ a t (hp t hMove)
  | raise e => exact fun t hMove => hE e t (hp t hMove)
  | stmt update next onFault ihNext ihFault =>
    intro t hMove
    rcases hp t hMove with ⟨hWrite, hNext, hRejected, hLost⟩
    exact ⟨hWrite, ihNext t hNext, ihFault hRejected, ihFault hLost⟩

theorem promises_of_changes {change : σ → σ → Prop} (hp : p.Changes change)
    (hMoves : ∀ s t, change s t → moves.move s t) (s : σ) :
    p.Promises moves (fun _ _ => True) (fun _ _ => True) s := by
  induction p generalizing s with
  | ret a => exact fun _ _ => trivial
  | raise e => exact fun _ _ => trivial
  | stmt update next onFault ihNext ihFault =>
    intro t _
    exact ⟨hMoves t _ (hp.1 t), ihNext t (hp.2.1 t) _, ihFault hp.2.2 _, ihFault hp.2.2 _⟩

theorem promises_forEach {f : γ → Program σ ε Unit} {done : γ → σ → Prop}
    (hDone : ∀ x, moves.Stable (done x)) {xs : List γ}
    (hf : ∀ x ∈ xs, ∀ s, (f x).Promises moves (fun _ => done x) E s) (s : σ) :
    (forEach f xs).Promises moves (fun _ t => ∀ x ∈ xs, done x t) E s := by
  induction xs generalizing s with
  | nil => exact fun _ _ x hx => absurd hx List.not_mem_nil
  | cons x rest ih =>
    have hRest := ih fun y hy => hf y (List.mem_cons_of_mem _ hy)
    refine (hf x List.mem_cons_self s).bind ?_
    intro _ t hx
    refine ((hRest t).keep (hDone x) hx).imp ?_ fun _ _ => id
    rintro _ u ⟨hHead, hTail⟩ y hy
    rcases List.mem_cons.mp hy with rfl | hy
    · exact hHead
    · exact hTail y hy

end Program

end

-- Pools
----

section

variable {σ ε α : Type} (moves : Moves σ) (Q : Nat → α → σ → Prop) (E : Nat → ε → σ → Prop)

/- Each call of a pool keeps the promise of its index. -/
def Pool.Promises (pool : Pool σ ε α) : Prop :=
  ∀ (i : Nat) call, pool.calls[i]? = some call → call.program.Promises moves (Q i) (E i) pool.store

variable {moves Q E} {pool pool' : Pool σ ε α}

theorem Pool.promises_attempt {move : FaultMove} (hPool : pool.Promises moves Q E)
    (hStep : pool.attempt move = some pool') :
    moves.move pool.store pool'.store ∧ pool'.Promises moves Q E := by
  cases move with
  | attempt i outcome =>
    rcases Pool.attempt_spec hStep with ⟨call, update, next, onFault, hCall, -, hProgram, rfl⟩
    have hPromise := hPool i call hCall
    rw [hProgram] at hPromise
    rcases hPromise pool.store (moves.refl _) with ⟨hWrite, hNext, hRejected, hLost⟩
    have hMove : moves.move pool.store (outcome.apply update next onFault pool.store).1 := by
      cases outcome with
      | served => exact hWrite
      | rejected => exact moves.refl _
      | lost => exact hWrite
    refine ⟨hMove, ?_⟩
    intro j other hOther
    rcases getElem?_set_cases hOther with ⟨rfl, rfl⟩ | ⟨-, hOld⟩
    · cases outcome with
      | served => exact hNext
      | rejected => exact hRejected
      | lost => exact hLost
    · exact (hPool j other hOld).later hMove
  | crash i =>
    rcases Pool.step_crash hStep with ⟨call, hCall, -, -, rfl⟩
    refine ⟨moves.refl _, ?_⟩
    intro j other hOther
    rcases getElem?_set_cases hOther with ⟨rfl, rfl⟩ | ⟨-, hOld⟩
    · exact hPool j call hCall
    · exact hPool j other hOld

theorem Pool.promises_run {allowed : Pool σ ε α → FaultMove → Prop} {labels : List FaultMove}
    (hPool : pool.Promises moves Q E) (hRun : RunsTo Pool.attempt allowed pool labels pool') :
    moves.move pool.store pool'.store ∧ pool'.Promises moves Q E := by
  refine hRun.invariant (I := fun later => moves.move pool.store later.store ∧
    later.Promises moves Q E) ⟨moves.refl _, hPool⟩ ?_
  rintro before move after ⟨hMoved, hPromises⟩ - hStep
  rcases Pool.promises_attempt hPromises hStep with ⟨hMove, hAfter⟩
  exact ⟨moves.trans hMoved hMove, hAfter⟩

theorem Pool.promises_start {store : σ} {programs : List (Program σ ε α)}
    (hPrograms : ∀ (i : Nat) p, programs[i]? = some p → p.Promises moves (Q i) (E i) store) :
    (Pool.start store programs).Promises moves Q E := by
  intro i call hCall
  unfold Pool.start at hCall
  rw [List.getElem?_map] at hCall
  rcases Option.map_eq_some_iff.mp hCall with ⟨p, hp, rfl⟩
  exact hPrograms i p hp

end

-- Calls That Run Alone
----

variable {σ ε α : Type}

/- How a program ends when it runs alone. -/
def Program.ended (p : Program σ ε α) (s : σ) : Program σ ε α :=
  match (p.run s).1 with
  | .ok a => .ret a
  | .error e => .raise e

variable {i : Nat}

theorem set_same {β : Type} {xs : List β} {x : β} (h : xs[i]? = some x) :
    xs.set i x = xs := by
  rcases List.getElem?_eq_some_iff.mp h with ⟨hLess, rfl⟩
  exact List.set_getElem_self hLess

/- From any state, a call may run to its end by itself. -/
theorem Pool.exists_run_alone {start pool : Pool σ ε α} {labels : List FaultMove} {executed : Nat}
    {p : Program σ ε α} (hRun : RunsTo Pool.attempt (fun _ _ => True) start labels pool)
    (hCall : pool.calls[i]? = some { program := p, executed, crashed := false }) :
    ∃ labels' executed', RunsTo Pool.attempt (fun _ _ => True) start labels'
      { store := p.final pool.store
        calls :=
          pool.calls.set i
            { program := p.ended pool.store
              executed := executed'
              crashed := false } } := by
  induction p generalizing pool labels executed with
  | ret a =>
    refine ⟨labels, executed, ?_⟩
    have hEnded : (Program.ret a : Program σ ε α).ended pool.store = .ret a := rfl
    rw [hEnded, set_same hCall]
    exact hRun
  | raise e =>
    refine ⟨labels, executed, ?_⟩
    have hEnded : (Program.raise e : Program σ ε α).ended pool.store = .raise e := rfl
    rw [hEnded, set_same hCall]
    exact hRun
  | stmt update next onFault ihNext ihFault =>
    have hStep := Pool.attempt_served hCall rfl rfl
    have hLess : i < pool.calls.length := (List.getElem?_eq_some_iff.mp hCall).1
    have hNext : (pool.calls.set i
        { program := next pool.store
          executed := executed + 1
          crashed := false })[i]? = some
            { program := next pool.store
              executed := executed + 1
              crashed := false } := by
      simp [hLess]
    rcases ihNext pool.store (hRun.step trivial hStep) hNext with ⟨labels', executed', hEnd⟩
    refine ⟨labels', executed', ?_⟩
    rw [List.set_set] at hEnd
    exact hEnd

end Transactional
