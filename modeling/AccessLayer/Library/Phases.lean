import AccessLayer.Library.Runs

/-
  What a program does to a store, phase by phase.

  A program frames a view of the store when none of its
  statements changes what the view shows.  It follows phases
  when each statement leads from a phase to another; in a firm
  phase a statement has to be served.

  Main declarations: `Follows`, `Phases.Rests`
-/

-- Frames
----

namespace Transactional

namespace Program

variable {σ ε α β ν : Type}

/- While the view is in `J`, no statement changes it. -/
def Frames (view : σ → ν) (J : ν → Prop) : Program σ ε α → Prop
  | .ret _ => True
  | .raise _ => True
  | .stmt update next onFault =>
    (∀ s, J (view s) → view (update s) = view s) ∧ (∀ s, J (view s) → (next s).Frames view J) ∧
      onFault.Frames view J

variable {view : σ → ν} {J : ν → Prop}

theorem frames_pure (a : α) : (pure a : Program σ ε α).Frames view J := trivial

theorem frames_throw (e : ε) : (throw e : Program σ ε α).Frames view J := trivial

variable {p : Program σ ε α} {k : α → Program σ ε β}

theorem frames_bind (hp : p.Frames view J) (hk : ∀ a, (k a).Frames view J) :
    (p >>= k).Frames view J := by
  change (p.bind k).Frames view J
  induction p with
  | ret a => exact hk a
  | raise e => trivial
  | stmt update next onFault ihNext ihFault =>
    exact ⟨hp.1, fun s hs => ihNext s (hp.2.1 s hs), ihFault hp.2.2⟩

theorem frames_tryCatch {h : ε → Program σ ε α} (hp : p.Frames view J)
    (hh : ∀ e, (h e).Frames view J) :
    (tryCatch p h).Frames view J := by
  change (p.handle h).Frames view J
  induction p with
  | ret a => trivial
  | raise e => exact hh e
  | stmt update next onFault ihNext ihFault =>
    exact ⟨hp.1, fun s hs => ihNext s (hp.2.1 s hs), ihFault hp.2.2⟩

theorem frames_query_bind {fault : ε} {f : σ → α} (hk : ∀ s, J (view s) → (k (f s)).Frames view J) :
    (query fault f >>= k).Frames view J := ⟨fun _ _ => rfl, hk, trivial⟩

theorem frames_query (fault : ε) (f : σ → α) : (query fault f).Frames view J :=
  ⟨fun _ _ => rfl, fun _ _ => trivial, trivial⟩

theorem frames_execute (fault : ε) {f : σ → Except ε (α × σ)}
    (hf : ∀ s a s', J (view s) → f s = .ok (a, s') → view s' = view s) :
    (execute fault f).Frames view J := by
  refine ⟨?_, ?_, trivial⟩
  · intro s hs
    cases hResult : f s with
    | ok result => simpa [hResult] using hf s result.1 result.2 hs hResult
    | error e => simp [hResult]
  · intro s _
    cases hResult : f s with
    | ok result => simp [Frames, hResult]
    | error e => simp [Frames, hResult]

end Program

end Transactional

-- Phases
----

namespace Transactional

/-
  Phases of a store.  A statement may fail only outside the firm
  ones; `quiet` are the changes that a lost statement may make.
-/
structure Phases (σ φ : Type) where
  holds : φ → σ → Prop
  firm : φ → Prop
  quiet : σ → σ → Prop

namespace Program

variable {σ ε α β ν φ : Type} (phases : Phases σ φ)

/-
  A program that, begun in a phase, ends in a phase of which `Q`
  holds if it answers and `E` if it fails.
-/
def Follows (Q : α → φ → Prop) (E : φ → Prop) : φ → Program σ ε α → Prop
  | m, .ret a => Q a m
  | m, .raise _ => E m
  | m, .stmt update next onFault =>
    (∀ s, phases.holds m s → ∃ m', phases.holds m' (update s) ∧ Follows Q E m' (next s)) ∧
    (¬ phases.firm m → Follows Q E m onFault ∧ ∀ s, phases.holds m s → phases.quiet s (update s) →
      ∃ m', phases.holds m' (update s) ∧ Follows Q E m' onFault)

variable {phases} {Q : α → φ → Prop} {R : β → φ → Prop} {E F : φ → Prop} {m : φ}

theorem follows_pure {a : α} (hQ : Q a m) : Follows phases Q E m (pure a : Program σ ε α) := hQ

theorem follows_throw {e : ε} (hE : E m) : Follows phases Q E m (throw e : Program σ ε α) := hE

variable {p : Program σ ε α} {k : α → Program σ ε β}

/- A statement follows the phases as what comes after it does. -/
theorem follows_stmt {update : σ → σ} {next : σ → Program σ ε α} {onFault : Program σ ε α}
    {next' : σ → Program σ ε β} {onFault' : Program σ ε β}
    (hp : Follows phases Q F m (.stmt update next onFault))
    (hNext : ∀ s m', Follows phases Q F m' (next s) → Follows phases R E m' (next' s))
    (hFault : ∀ m', Follows phases Q F m' onFault → Follows phases R E m' onFault') :
    Follows phases R E m (.stmt update next' onFault') := by
  constructor
  · intro s hs
    rcases hp.1 s hs with ⟨m', hHolds, hAfter⟩
    exact ⟨m', hHolds, hNext s m' hAfter⟩
  · intro hFirm
    rcases hp.2 hFirm with ⟨hAfter, hLost⟩
    refine ⟨hFault m hAfter, ?_⟩
    intro s hs hQuiet
    rcases hLost s hs hQuiet with ⟨m', hHolds, hAfter'⟩
    exact ⟨m', hHolds, hFault m' hAfter'⟩

theorem follows_bind (hp : Follows phases Q E m p)
    (hk : ∀ a m', Q a m' → Follows phases R E m' (k a)) :
    Follows phases R E m (p >>= k) := by
  change Follows phases R E m (p.bind k)
  induction p generalizing m with
  | ret a => exact hk a m hp
  | raise e => exact hp
  | stmt update next onFault ihNext ihFault =>
    exact follows_stmt hp (fun s _ => ihNext s) fun _ => ihFault

theorem follows_tryCatch {h : ε → Program σ ε α} (hp : Follows phases Q F m p)
    (hh : ∀ e m', F m' → Follows phases Q E m' (h e)) :
    Follows phases Q E m (tryCatch p h) := by
  change Follows phases Q E m (p.handle h)
  induction p generalizing m with
  | ret a => exact hp
  | raise e => exact hh e m hp
  | stmt update next onFault ihNext ihFault =>
    exact follows_stmt hp (fun s _ => ihNext s) fun _ => ihFault

theorem follows_of_imp {Q' : α → φ → Prop} {E' : φ → Prop} (hp : Follows phases Q E m p)
    (hQ : ∀ a m', Q a m' → Q' a m') (hE : ∀ m', E m' → E' m') :
    Follows phases Q' E' m p := by
  induction p generalizing m with
  | ret a => exact hQ a m hp
  | raise e => exact hE m hp
  | stmt update next onFault ihNext ihFault =>
    exact follows_stmt hp (fun s _ => ihNext s) fun _ => ihFault

variable {fault : ε}

/- A read may tell which phase the store is in. -/
theorem follows_query_bind {f : σ → α} (hFault : E m)
    (hk : ∀ s, phases.holds m s → ∃ m', phases.holds m' s ∧ Follows phases R E m' (k (f s))) :
    Follows phases R E m (query fault f >>= k) :=
  ⟨hk, fun _ => ⟨hFault, fun _ hs _ => ⟨m, hs, hFault⟩⟩⟩

/- A write that stays in its phase. -/
theorem follows_execute {f : σ → Except ε (α × σ)}
    (hf : ∀ s a s', phases.holds m s → f s = .ok (a, s') → phases.holds m s') (hQ : ∀ a, Q a m)
    (hE : E m) :
    Follows phases Q E m (execute fault f) := by
  refine ⟨?_, fun _ => ⟨hE, fun s hs _ => ⟨m, ?_, hE⟩⟩⟩
  · intro s hs
    refine ⟨m, ?_, ?_⟩
    · dsimp only
      cases hResult : f s with
      | ok result => exact hf s result.1 result.2 hs hResult
      | error e => exact hs
    · dsimp only
      cases f s with
      | ok result => exact hQ result.1
      | error e => exact hE
  · dsimp only
    cases hResult : f s with
    | ok result => exact hf s result.1 result.2 hs hResult
    | error e => exact hs

/- A program that frames what a phase is about stays in it. -/
theorem follows_of_frames {view : σ → ν} {J : ν → Prop} (hFrames : p.Frames view J)
    (hJ : ∀ s, phases.holds m s → J (view s))
    (hView : ∀ s s', view s' = view s → phases.holds m s → phases.holds m s') (hQ : ∀ a, Q a m)
    (hE : E m) :
    Follows phases Q E m p := by
  induction p with
  | ret a => exact hQ a
  | raise e => exact hE
  | stmt update next onFault ihNext ihFault =>
    rcases hFrames with ⟨hUpdate, hNext, hFault⟩
    have hHolds : ∀ s, phases.holds m s → phases.holds m (update s) :=
      fun s hs => hView s _ (hUpdate s (hJ s hs)) hs
    constructor
    · intro s hs
      exact ⟨m, hHolds s hs, ihNext s (hNext s (hJ s hs))⟩
    · intro _
      refine ⟨ihFault hFault, ?_⟩
      intro s hs _
      exact ⟨m, hHolds s hs, ihFault hFault⟩

theorem follows_of_narrower {m' : φ} (hp : Follows phases Q E m p) (hFirm : ¬ phases.firm m)
    (hHolds : ∀ s, phases.holds m' s → phases.holds m s) (hQ : ∀ a, Q a m → Q a m')
    (hE : E m → E m') :
    Follows phases Q E m' p := by
  induction p with
  | ret a => exact hQ a hp
  | raise e => exact hE hp
  | stmt update next onFault ihNext ihFault =>
    rcases hp.2 hFirm with ⟨hFault, hLost⟩
    exact ⟨fun s hs => hp.1 s (hHolds s hs), fun _ =>
      ⟨ihFault hFault, fun s hs => hLost s (hHolds s hs)⟩⟩

end Program

end Transactional

-- Pools on a Faulty Store
----

namespace Transactional

inductive FaultMove where
  | attempt (i : Nat) (outcome : Outcome)
  | crash (i : Nat)

variable {σ ε α : Type}

/- The store and the call after one outcome of a statement. -/
def Outcome.apply (update : σ → σ) (next : σ → Program σ ε α) (onFault : Program σ ε α)
    (s : σ) : Outcome → σ × Program σ ε α
  | .served => (update s, next s)
  | .rejected => (s, onFault)
  | .lost => (update s, onFault)

/- `Pool.step` on a store that may fail a statement. -/
def Pool.attempt (pool : Pool σ ε α) : FaultMove → Option (Pool σ ε α)
  | .attempt i outcome =>
    match pool.calls[i]? with
    | some call =>
      match call.crashed, call.program with
      | false, .stmt update next onFault =>
        let after := outcome.apply update next onFault pool.store
        some {
          store := after.1
          calls := pool.calls.set i (call.advance after.2) }
      | _, _ => none
    | none => none
  | .crash i => pool.step (.crash i)

variable {pool : Pool σ ε α} {i : Nat}

theorem Pool.attempt_served {call : Call σ ε α} {update : σ → σ} {next : σ → Program σ ε α}
    {onFault : Program σ ε α} (hCall : pool.calls[i]? = some call) (hAlive : call.crashed = false)
    (hProgram : call.program = .stmt update next onFault) :
    pool.attempt (.attempt i .served) = some {
        store := update pool.store
        calls :=
          pool.calls.set i (call.advance (next pool.store)) } := by
  rw [Pool.attempt, hCall]
  dsimp only
  rw [hAlive, hProgram]
  rfl

theorem Pool.attempt_spec {pool' : Pool σ ε α} {outcome : Outcome}
    (h : pool.attempt (.attempt i outcome) = some pool') :
    ∃ call update next onFault, pool.calls[i]? = some call ∧ call.crashed = false ∧
      call.program = .stmt update next onFault ∧ pool' = {
        store := (outcome.apply update next onFault pool.store).1
        calls :=
          pool.calls.set i (call.advance (outcome.apply update next onFault
            pool.store).2) } := by
  rw [Pool.attempt] at h
  split at h
  · rename_i call hCall
    split at h
    · rename_i update next onFault hCrashed hProgram
      cases h
      exact ⟨call, update, next, onFault, hCall, hCrashed, hProgram, rfl⟩
    · cases h
  · cases h

end Transactional

-- Marked Statements
----

namespace Transactional

namespace Program

variable {σ ε α β ν : Type}

def FramesExcept (view : σ → ν) (marked : Program σ ε α → Prop) : Program σ ε α → Prop
  | .ret _ => True
  | .raise _ => True
  | .stmt update next onFault =>
    ((∀ s, view (update s) = view s) ∨ marked (.stmt update next onFault)) ∧
      (∀ s, (next s).FramesExcept view marked) ∧ onFault.FramesExcept view marked

variable {view : σ → ν} {marked : Program σ ε β → Prop} {p : Program σ ε α}

theorem framesExcept_bind {k : α → Program σ ε β} (hp : p.Frames view (fun _ => True))
    (hk : ∀ a, (k a).FramesExcept view marked) :
    (p >>= k).FramesExcept view marked := by
  change (p.bind k).FramesExcept view marked
  induction p with
  | ret a => exact hk a
  | raise e => trivial
  | stmt update next onFault ihNext ihFault =>
    rcases hp with ⟨hUpdate, hNext, hFault⟩
    exact ⟨Or.inl fun s => hUpdate s trivial, fun s => ihNext s (hNext s trivial), ihFault hFault⟩

theorem frames_forEach {γ : Type} {f : γ → Program σ ε Unit} {J : ν → Prop}
    (hf : ∀ x, (f x).Frames view J) (xs : List γ) :
    (forEach f xs).Frames view J := by
  induction xs with
  | nil => exact frames_pure ()
  | cons x rest ih => exact frames_bind (hf x) fun _ => ih

variable {τ : Type} {c : Component τ σ}

theorem frames_zoom {shown : τ → ν} (hShown : ∀ s t, shown (c.set s t) = shown t)
    (p : Program σ ε α) :
    (p.zoom c).Frames shown (fun _ => True) := by
  induction p with
  | ret a => trivial
  | raise e => trivial
  | stmt update next onFault ihNext ihFault =>
    exact ⟨fun t _ => hShown _ t, fun t _ => ihNext _, ihFault⟩

/- What a program on a component leaves there is framed. -/
theorem Frames.zoom (hp : p.Frames view fun _ => True) :
    (p.zoom c).Frames (fun t => view (c.get t)) fun _ => True := by
  induction p with
  | ret a => trivial
  | raise e => trivial
  | stmt update next onFault ihNext ihFault =>
    refine ⟨fun t _ => ?_, fun t _ => ihNext _ (hp.2.1 _ trivial), ihFault hp.2.2⟩
    simpa only [c.get_set] using hp.1 (c.get t) trivial

end Program

variable {σ ε α ν : Type} {view : σ → ν} {marked : Nat → Program σ ε α → Prop}
variable {pool pool' : Pool σ ε α}

def Pool.FramesExcept (view : σ → ν) (marked : Nat → Program σ ε α → Prop)
    (pool : Pool σ ε α) : Prop :=
  ∀ (i : Nat) call, pool.calls[i]? = some call → call.program.FramesExcept view (marked i)

/- A statement of the call `i`, at a mark, has changed the store. -/
def Pool.Marked (marked : Nat → Program σ ε α → Prop) (pool pool' : Pool σ ε α) (i : Nat) : Prop :=
  ∃ call update next onFault, pool.calls[i]? = some call ∧
    call.program = .stmt update next onFault ∧ marked i call.program ∧
    pool'.store = update pool.store

theorem Pool.framesExcept_attempt {move : FaultMove} (hPool : pool.FramesExcept view marked)
    (hStep : pool.attempt move = some pool') :
    pool'.FramesExcept view marked ∧ (view pool'.store = view pool.store ∨
      ∃ i outcome, move = .attempt i outcome ∧ pool.Marked marked pool' i) := by
  cases move with
  | attempt i outcome =>
    rcases Pool.attempt_spec hStep with ⟨call, update, next, onFault, hCall, -, hProgram, rfl⟩
    have hFrames := hPool i call hCall
    rw [hProgram] at hFrames
    rcases hFrames with ⟨hUpdate, hNext, hFault⟩
    constructor
    · intro j other hOther
      rcases getElem?_set_cases hOther with ⟨rfl, rfl⟩ | ⟨-, hOld⟩
      · cases outcome with
        | served => exact hNext pool.store
        | rejected => exact hFault
        | lost => exact hFault
      · exact hPool j other hOld
    · rcases hUpdate with hSame | hMarked
      · cases outcome with
        | served => exact Or.inl (hSame pool.store)
        | rejected => exact Or.inl rfl
        | lost => exact Or.inl (hSame pool.store)
      · have hWritten :
            ∀ after : Pool σ ε α, after.store = update pool.store → pool.Marked marked after i :=
          fun after hAfter => ⟨call, update, next, onFault, hCall, hProgram,
            hProgram ▸ hMarked, hAfter⟩
        cases outcome with
        | served => exact Or.inr ⟨i, .served, rfl, hWritten _ rfl⟩
        | rejected => exact Or.inl rfl
        | lost => exact Or.inr ⟨i, .lost, rfl, hWritten _ rfl⟩
  | crash i =>
    rcases Pool.step_crash hStep with ⟨call, hCall, -, -, rfl⟩
    refine ⟨?_, Or.inl rfl⟩
    intro j other hOther
    rcases getElem?_set_cases hOther with ⟨rfl, rfl⟩ | ⟨-, hOld⟩
    · exact hPool j call hCall
    · exact hPool j other hOld

end Transactional

-- Exclusive Calls
----

namespace Transactional

open Program

variable {σ ε α ν φ : Type}

/- Outside the firm phases, the store is in the idle one. -/
structure Phases.Rests (phases : Phases σ φ) (idle : φ) (view : σ → ν) (J : ν → Prop) : Prop where
  loose : ¬ phases.firm idle
  settles : ∀ m s, ¬ phases.firm m → phases.holds m s → phases.holds idle s
  shown : ∀ m s, phases.holds m s → J (view s)
  congr : ∀ m s s', view s' = view s → phases.holds m s → phases.holds m s'

def Program.Settles (phases : Phases σ φ) (m : φ) (p : Program σ ε α) : Prop :=
  Follows phases (fun _ m' => ¬ phases.firm m') (fun m' => ¬ phases.firm m') m p

variable (phases : Phases σ φ) (idle : φ) (view : σ → ν) (J : ν → Prop) (covers : Nat → Prop)

/-
  Of the calls that a part of the store is covered by, one at
  most is in flight; it follows the phase the store is in.
-/
structure Pool.HeldIn (pool : Pool σ ε α) (m : φ) : Prop where
  holds : phases.holds m pool.store
  settles : ∀ (i : Nat) call, covers i → pool.calls[i]? = some call →
    call.inFlight = true → call.program.Settles phases m
  single : ∀ (i j : Nat) one other, covers i → covers j → pool.calls[i]? = some one →
    pool.calls[j]? = some other → one.inFlight = true → other.inFlight = true → i = j
  rests :
    (∀ (i : Nat) call, covers i → pool.calls[i]? = some call → call.inFlight = false) → m = idle

structure Pool.Exclusive (pool : Pool σ ε α) : Prop where
  unbegun : ∀ (i : Nat) call, covers i → pool.calls[i]? = some call →
    call.executed = 0 → call.program.Settles phases idle
  framed : ∀ (i : Nat) call, ¬ covers i → pool.calls[i]? = some call → call.program.Frames view J
  held : ∃ m, pool.HeldIn phases idle covers m

/-
  The first statement of a covering call finds no other in
  flight; lost changes are quiet; a firm phase sees no fault.
-/
structure Pool.Admits (pool : Pool σ ε α) (i : Nat) (outcome : Outcome) : Prop where
  alone : ∀ call, pool.calls[i]? = some call → call.executed = 0 → ∀ (j : Nat) other, covers j →
    pool.calls[j]? = some other → other.inFlight = false
  quiet : outcome = .lost → ∀ call update next onFault, pool.calls[i]? = some call →
    call.program = .stmt update next onFault → phases.quiet pool.store (update pool.store)
  firm : outcome ≠ .served → ∀ m, phases.firm m → ¬ phases.holds m pool.store

variable {phases : Phases σ φ} {idle : φ} {view : σ → ν} {J : ν → Prop} {covers : Nat → Prop}
variable {pool pool' : Pool σ ε α} {store : σ}

theorem exclusive_start {programs : List (Program σ ε α)} (hHolds : phases.holds idle store)
    (hSettles : ∀ p ∈ programs, p.Settles phases idle)
    (hFrames : ∀ (i : Nat) p, ¬ covers i → programs[i]? = some p → p.Frames view J) :
    (Pool.start store programs).Exclusive phases idle view J covers := by
  have hCalls : ∀ (i : Nat) call, (Pool.start store programs).calls[i]? = some call →
      ∃ p, programs[i]? = some p ∧
        call = { program := p, executed := 0, crashed := false } := by
    intro i call hCall
    unfold Pool.start at hCall
    rw [List.getElem?_map] at hCall
    rcases Option.map_eq_some_iff.mp hCall with ⟨p, hp, rfl⟩
    exact ⟨p, hp, rfl⟩
  have hIdle : ∀ (i : Nat) call, (Pool.start store programs).calls[i]? = some call →
      call.inFlight = false := by
    intro i call hCall
    rcases hCalls i call hCall with ⟨p, -, rfl⟩
    rfl
  constructor
  · intro i call _ hCall _
    rcases hCalls i call hCall with ⟨p, hp, rfl⟩
    exact hSettles p (List.mem_of_getElem? hp)
  · intro i call hNot hCall
    rcases hCalls i call hCall with ⟨p, hp, rfl⟩
    exact hFrames i p hNot hp
  · refine ⟨idle, hHolds, ?_, ?_, fun _ => rfl⟩
    · intro i call _ hCall hFlying
      rw [hIdle i call hCall] at hFlying
      cases hFlying
    · intro i j one other _ _ hOne _ hFlying
      rw [hIdle i one hOne] at hFlying
      cases hFlying

variable {i : Nat} {outcome : Outcome} {call : Call σ ε α}

/- A call that begins or goes on has the store to itself. -/
theorem owner_of_exclusive (hExclusive : pool.Exclusive phases idle view J covers)
    (hAdmits : pool.Admits phases covers i outcome) (hCovers : covers i)
    (hCall : pool.calls[i]? = some call) (hLive : call.crashed = false)
    (hRunning : call.program.isRunning = true) :
    ∃ m, phases.holds m pool.store ∧ call.program.Settles phases m ∧
      ∀ (j : Nat) other, covers j → j ≠ i → pool.calls[j]? = some other →
        other.inFlight = false := by
  rcases hExclusive.held with ⟨m, hHeld⟩
  rcases Nat.eq_zero_or_pos call.executed with hZero | hPos
  · have hAlone := hAdmits.alone call hCall hZero
    have hIdle := hHeld.rests hAlone
    refine ⟨m, hHeld.holds, ?_, fun j other hj _ => hAlone j other hj⟩
    rw [hIdle]
    exact hExclusive.unbegun i call hCovers hCall hZero
  · have hFlying : call.inFlight = true := by
      simp [Call.inFlight, hPos, hRunning, hLive]
    refine ⟨m, hHeld.holds, hHeld.settles i call hCovers hCall hFlying, ?_⟩
    intro j other hj hNe hOther
    by_contra hFlies
    exact hNe (hHeld.single j i other call hj hCovers hOther hCall (by simpa using hFlies) hFlying)

variable {m : φ}

theorem phase_after {update : σ → σ} {next : σ → Program σ ε α} {onFault : Program σ ε α}
    (hAdmits : pool.Admits phases covers i outcome) (hCall : pool.calls[i]? = some call)
    (hProgram : call.program = .stmt update next onFault) (hHolds : phases.holds m pool.store)
    (hSettles : call.program.Settles phases m) :
    ∃ m', phases.holds m' (outcome.apply update next onFault pool.store).1 ∧
      Program.Settles phases m' (outcome.apply update next onFault pool.store).2 := by
  rw [hProgram] at hSettles
  rcases hSettles with ⟨hServed, hFault⟩
  have hLoose : outcome ≠ .served → ¬ phases.firm m :=
    fun hNot hFirm => hAdmits.firm hNot m hFirm hHolds
  cases outcome with
  | served => exact hServed pool.store hHolds
  | rejected => exact ⟨m, hHolds, (hFault (hLoose (by simp))).1⟩
  | lost =>
    exact (hFault (hLoose (by simp))).2 pool.store hHolds
      (hAdmits.quiet rfl call update next onFault hCall hProgram)

theorem loose_of_ended {p : Program σ ε α} (hSettles : p.Settles phases m)
    (hEnded : p.isRunning = false) :
    ¬ phases.firm m := by
  cases p with
  | ret a => exact hSettles
  | raise e => exact hSettles
  | stmt update next onFault => cases hEnded

theorem held_after (hRests : phases.Rests idle view J) (hLess : i < pool.calls.length)
    (hCovers : covers i) (hHolds : phases.holds m store) (hSettles : call.program.Settles phases m)
    (hEnded : call.inFlight = false → ¬ phases.firm m) (hOthers :
      ∀ (j : Nat) other, covers j → j ≠ i → pool.calls[j]? = some other → other.inFlight = false) :
    ∃ m', Pool.HeldIn phases idle covers
      { store, calls := pool.calls.set i call } m' := by
  have hOnly : ∀ (j : Nat) other, covers j → (pool.calls.set i call)[j]? = some other →
      other.inFlight = true → j = i ∧ other = call := by
    intro j other hj hOther hFlying
    rcases getElem?_set_cases hOther with hSame | ⟨hNe, hOld⟩
    · exact hSame
    · rw [hOthers j other hj hNe hOld] at hFlying
      cases hFlying
  have hSingle :
      ∀ (j k : Nat) one other, covers j → covers k → (pool.calls.set i call)[j]? = some one →
        (pool.calls.set i call)[k]? = some other →
        one.inFlight = true → other.inFlight = true → j = k := by
    intro j k one other hj hk hOne hOther hFlying hOtherFlying
    rw [(hOnly j one hj hOne hFlying).1, (hOnly k other hk hOther hOtherFlying).1]
  cases hFlight : call.inFlight with
  | true =>
    refine ⟨m, hHolds, ?_, hSingle, ?_⟩
    · intro j other hj hOther hFlying
      rw [(hOnly j other hj hOther hFlying).2]
      exact hSettles
    · intro hNone
      have hGet : (pool.calls.set i call)[i]? = some call := by simp [hLess]
      rw [hNone i call hCovers hGet] at hFlight
      cases hFlight
  | false =>
    refine ⟨idle, hRests.settles m store (hEnded hFlight) hHolds, ?_, hSingle, fun _ => rfl⟩
    intro j other hj hOther hFlying
    rw [(hOnly j other hj hOther hFlying).2, hFlight] at hFlying
    cases hFlying

theorem held_of_same (hRests : phases.Rests idle view J)
    (hExclusive : pool.Exclusive phases idle view J covers) (hView : view store = view pool.store)
    (hSame : ∀ (j : Nat) other, covers j → other.inFlight = true →
      ((pool.calls.set i call)[j]? = some other ↔ pool.calls[j]? = some other)) :
    ∃ m, Pool.HeldIn phases idle covers
      { store, calls := pool.calls.set i call } m := by
  rcases hExclusive.held with ⟨m, hHeld⟩
  refine ⟨m, hRests.congr m _ _ hView hHeld.holds, ?_, ?_, ?_⟩
  · intro j other hj hOther hFlying
    exact hHeld.settles j other hj ((hSame j other hj hFlying).mp hOther) hFlying
  · intro j k one other hj hk hOne hOther hFlying hOtherFlying
    exact hHeld.single j k one other hj hk ((hSame j one hj hFlying).mp hOne)
      ((hSame k other hk hOtherFlying).mp hOther) hFlying hOtherFlying
  · intro hNone
    apply hHeld.rests
    intro j other hj hOther
    by_contra hFlies
    have hFlying : other.inFlight = true := by simpa using hFlies
    rw [hNone j other hj ((hSame j other hj hFlying).mpr hOther)] at hFlying
    cases hFlying

theorem getElem?_set_covered {j : Nat} {other : Call σ ε α} (hNot : ¬ covers i)
    (hCovers : covers j) :
    (pool.calls.set i call)[j]? = some other ↔ pool.calls[j]? = some other := by
  have hNe : i ≠ j := by
    rintro rfl
    exact hNot hCovers
  rw [List.getElem?_set_ne hNe]

theorem exclusive_attempt (hRests : phases.Rests idle view J)
    (hExclusive : pool.Exclusive phases idle view J covers)
    (hAdmits : covers i → pool.Admits phases covers i outcome)
    (hStep : pool.attempt (.attempt i outcome) = some pool') :
    pool'.Exclusive phases idle view J covers := by
  rcases Pool.attempt_spec hStep with ⟨call, update, next, onFault, hCall, hLive, hProgram, rfl⟩
  have hRunning : call.program.isRunning = true := by
    rw [hProgram]
    rfl
  have hLess : i < pool.calls.length := (List.getElem?_eq_some_iff.mp hCall).1
  constructor
  · intro j other hj hOther hZero
    rcases getElem?_set_cases hOther with ⟨-, rfl⟩ | ⟨-, hOld⟩
    · cases hZero
    · exact hExclusive.unbegun j other hj hOld hZero
  · intro j other hj hOther
    rcases getElem?_set_cases hOther with ⟨rfl, rfl⟩ | ⟨-, hOld⟩
    · have hFramed := hExclusive.framed j call hj hCall
      rw [hProgram] at hFramed
      rcases hExclusive.held with ⟨m, hHeld⟩
      have hShown := hRests.shown m _ hHeld.holds
      cases outcome with
      | served => exact hFramed.2.1 _ hShown
      | rejected => exact hFramed.2.2
      | lost => exact hFramed.2.2
    · exact hExclusive.framed j other hj hOld
  · by_cases hCovers : covers i
    · rcases owner_of_exclusive hExclusive (hAdmits hCovers) hCovers hCall hLive hRunning with
        ⟨m, hHolds, hSettles, hOthers⟩
      rcases phase_after (hAdmits hCovers) hCall hProgram hHolds hSettles with
        ⟨m', hHolds', hSettles'⟩
      refine held_after hRests hLess hCovers hHolds' hSettles' ?_ hOthers
      intro hLanded
      apply loose_of_ended hSettles'
      simpa [Call.inFlight, Call.advance, hLive] using hLanded
    · have hFramed := hExclusive.framed i call hCovers hCall
      rw [hProgram] at hFramed
      rcases hExclusive.held with ⟨m, hHeld⟩
      have hUpdate := hFramed.1 _ (hRests.shown m _ hHeld.holds)
      refine held_of_same hRests hExclusive ?_ (fun _ _ hj _ => getElem?_set_covered hCovers hj)
      cases outcome with
      | served => exact hUpdate
      | rejected => rfl
      | lost => exact hUpdate

theorem exclusive_crash (hRests : phases.Rests idle view J)
    (hExclusive : pool.Exclusive phases idle view J covers)
    (hLoose : covers i → ∀ m, phases.firm m → ¬ phases.holds m pool.store)
    (hStep : pool.attempt (.crash i) = some pool') :
    pool'.Exclusive phases idle view J covers := by
  rcases Pool.step_crash hStep with ⟨call, hCall, hLive, hRunning, rfl⟩
  have hLess : i < pool.calls.length := (List.getElem?_eq_some_iff.mp hCall).1
  have hLanded : ({ call with crashed := true } : Call σ ε α).inFlight =
      false := by
    simp [Call.inFlight]
  constructor
  · intro j other hj hOther hZero
    rcases getElem?_set_cases hOther with ⟨rfl, rfl⟩ | ⟨-, hOld⟩
    · exact hExclusive.unbegun j call hj hCall hZero
    · exact hExclusive.unbegun j other hj hOld hZero
  · intro j other hj hOther
    rcases getElem?_set_cases hOther with ⟨rfl, rfl⟩ | ⟨-, hOld⟩
    · exact hExclusive.framed j call hj hCall
    · exact hExclusive.framed j other hj hOld
  · by_cases hCovers : covers i
    · rcases hExclusive.held with ⟨m, hHeld⟩
      have hIdle : phases.holds idle pool.store :=
        hRests.settles m _ (fun hFirm => hLoose hCovers m hFirm hHeld.holds) hHeld.holds
      by_cases hFlying : call.inFlight = true
      · refine ⟨idle, hIdle, ?_, ?_, fun _ => rfl⟩
        · intro j other hj hOther hOtherFlying
          rcases getElem?_set_cases hOther with ⟨rfl, rfl⟩ | ⟨hNe, hOld⟩
          · rw [hLanded] at hOtherFlying
            cases hOtherFlying
          · exact absurd (hHeld.single j i other call hj hCovers hOld hCall hOtherFlying hFlying)
              hNe
        · intro j k one other hj hk hOne hOther hOneFlying hOtherFlying
          rcases getElem?_set_cases hOne with ⟨rfl, rfl⟩ | ⟨hNe, hOld⟩
          · rw [hLanded] at hOneFlying
            cases hOneFlying
          · exact absurd (hHeld.single j i one call hj hCovers hOld hCall hOneFlying hFlying) hNe
      · refine held_of_same hRests hExclusive rfl ?_
        intro j other hj hOtherFlying
        by_cases hNe : i = j
        · subst hNe
          rw [List.getElem?_set_self hLess, hCall]
          constructor
          · intro hOther
            cases hOther
            rw [hLanded] at hOtherFlying
            cases hOtherFlying
          · intro hOther
            cases hOther
            exact absurd hOtherFlying hFlying
        · rw [List.getElem?_set_ne hNe]
    · exact held_of_same hRests hExclusive rfl (fun _ _ hj _ => getElem?_set_covered hCovers hj)

end Transactional
