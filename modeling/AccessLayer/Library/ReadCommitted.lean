import AccessLayer.Library.Runs

/-
  Interactive transactions at READ COMMITTED.

  A statement of a transaction reads what is committed, overlaid
  with the transaction's own writes, and locks the rows it
  writes until the transaction ends.  A commit applies the
  writes to the committed store; an abort drops them.

  Main declarations: `Isolation`, `Isolation.exclusive_step`
-/

-- Interactive Transactions
----

namespace Transactional

section

/- A transaction over the store `σ` whose rows are named by `κ`. -/
inductive Interactive (σ κ ε α : Type) where
  | ret (value : α)
  | raise (error : ε)
  | stmt (rows : List κ) (update : σ → σ) (next : σ → Interactive σ κ ε α)

namespace Interactive

variable {σ κ ε α β : Type}

protected def bind : Interactive σ κ ε α → (α → Interactive σ κ ε β) → Interactive σ κ ε β
  | .ret a, k => k a
  | .raise e, _ => .raise e
  | .stmt rows update next, k => .stmt rows update (fun s => (next s).bind k)

instance : Monad (Interactive σ κ ε) where
  pure := .ret
  bind := .bind

/- A read, which locks no row. -/
def find (f : σ → α) : Interactive σ κ ε α := .stmt [] id (fun s => .ret (f s))

/- A write to some rows; one that fails changes nothing. -/
def write (rows : List κ) (f : σ → Except ε (α × σ)) : Interactive σ κ ε α :=
  .stmt rows (fun s =>
    match f s with
    | .ok (_, s') => s'
    | .error _ => s)
    (fun s =>
      match f s with
      | .ok (a, _) => .ret a
      | .error e => .raise e)

theorem write_bind (rows : List κ) (f : σ → Except ε (α × σ)) (k : α → Interactive σ κ ε β) :
    (write rows f >>= k) = .stmt rows (fun s =>
      match f s with
      | .ok (_, s') => s'
      | .error _ => s)
      (fun s =>
        match f s with
        | .ok (a, _) => k a
        | .error e => .raise e) := by
  change Interactive.bind (write rows f) k = _
  unfold write Interactive.bind
  congr 1
  funext s
  cases hAnswer : f s with
  | ok answer =>
    simp only [hAnswer]
    rfl
  | error e =>
    simp only [hAnswer]
    rfl

/- Run by itself, to its commit or its error. -/
def alone : Interactive σ κ ε α → σ → Except ε (α × σ)
  | .ret a, s => .ok (a, s)
  | .raise e, _ => .error e
  | .stmt _ update next, s => (next s).alone (update s)

/- The transaction has thrown. -/
def isRaised : Interactive σ κ ε α → Bool
  | .raise _ => true
  | _ => false

end Interactive

end

-- Concurrent Sessions
----

section

inductive Phase where
  | active
  | committed
  | aborted
  deriving DecidableEq

/- A transaction, the writes it has made and the rows it holds. -/
structure Session (σ κ ε α : Type) where
  body : Interactive σ κ ε α
  writes : σ → σ
  held : List κ
  executed : Nat
  phase : Phase

/- The committed store and the sessions on it. -/
structure Isolation (σ κ ε α : Type) where
  committed : σ
  sessions : List (Session σ κ ε α)

inductive Turn where
  | execute (i : Nat)
  | commit (i : Nat)
  | abort (i : Nat)

variable {σ κ ε α : Type}

/- What the statements of a session read. -/
def Session.view (session : Session σ κ ε α) (committed : σ) : σ := session.writes committed

/- The session after its next statement. -/
def Session.advance (session : Session σ κ ε α) (rows : List κ) (update : σ → σ)
    (body : Interactive σ κ ε α) : Session σ κ ε α :=
  { session with
    body
    writes := fun s => update (session.writes s)
    held := rows ++ session.held
    executed := session.executed + 1 }

/- Sessions that have not begun. -/
def Isolation.start (committed : σ) (bodies : List (Interactive σ κ ε α)) : Isolation σ κ ε α where
  committed := committed
  sessions :=
    bodies.map fun body =>
      { body
        writes := id
        held := []
        executed := 0
        phase := .active }

variable [DecidableEq κ]

def Isolation.blocked (state : Isolation σ κ ε α) (i : Nat) (rows : List κ) : Bool :=
  state.sessions.zipIdx.any fun p => p.2 ≠ i && p.1.phase = .active &&
    rows.any (fun row => row ∈ p.1.held)

def Isolation.step (state : Isolation σ κ ε α) : Turn → Option (Isolation σ κ ε α)
  | .execute i =>
    match state.sessions[i]? with
    | some session =>
      match session.phase, session.body with
      | .active, .stmt rows update next =>
        if state.blocked i rows then none
        else
          some { state with
            sessions :=
              state.sessions.set i (session.advance rows update (next
                (session.view state.committed))) }
      | _, _ => none
    | none => none
  | .commit i =>
    match state.sessions[i]? with
    | some session =>
      match session.phase, session.body with
      | .active, .ret _ =>
        some {
          committed := session.view state.committed
          sessions := state.sessions.set i { session with phase := .committed } }
      | _, _ => none
    | none => none
  | .abort i =>
    match state.sessions[i]? with
    | some session =>
      match session.phase with
      | .active =>
        some { state with
          sessions := state.sessions.set i { session with phase := .aborted } }
      | _ => none
    | none => none

variable {state state' : Isolation σ κ ε α} {i : Nat}

theorem Isolation.step_execute (h : state.step (.execute i) = some state') :
    ∃ session rows update next, state.sessions[i]? = some session ∧ session.phase = .active ∧
      session.body = .stmt rows update next ∧ state.blocked i rows = false ∧ state' = { state with
        sessions :=
          state.sessions.set i (session.advance rows update
            (next (session.view state.committed))) } := by
  rw [Isolation.step] at h
  split at h
  · rename_i session hSession
    split at h
    · rename_i rows update next hPhase hBody
      split at h
      · cases h
      · rename_i hFree
        cases h
        exact ⟨session, rows, update, next, hSession, hPhase, hBody, by simpa using hFree, rfl⟩
    · cases h
  · cases h

theorem Isolation.step_commit (h : state.step (.commit i) = some state') :
    ∃ session value, state.sessions[i]? = some session ∧ session.phase = .active ∧
      session.body = .ret value ∧ state' = {
        committed := session.view state.committed
        sessions :=
          state.sessions.set i
            { session with phase := .committed } } := by
  rw [Isolation.step] at h
  split at h
  · rename_i session hSession
    split at h
    · rename_i value hPhase hBody
      cases h
      exact ⟨session, value, hSession, hPhase, hBody, rfl⟩
    · cases h
  · cases h

theorem Isolation.step_abort (h : state.step (.abort i) = some state') :
    ∃ session, state.sessions[i]? = some session ∧ session.phase = .active ∧ state' = { state with
        sessions :=
          state.sessions.set i
            { session with phase := .aborted } } := by
  rw [Isolation.step] at h
  split at h
  · rename_i session hSession
    split at h
    · rename_i hPhase
      cases h
      exact ⟨session, hSession, hPhase, rfl⟩
    · cases h
  · cases h

end

-- Exclusive Rows
----

variable {σ κ ε α : Type}

/- No two active sessions hold the same row. -/
def Isolation.Exclusive (state : Isolation σ κ ε α) : Prop :=
  ∀ (i j : Nat) one other, i ≠ j → state.sessions[i]? = some one → state.sessions[j]? = some other →
    one.phase = .active → other.phase = .active → ∀ row ∈ one.held, row ∉ other.held

theorem Isolation.exclusive_start (committed : σ) (bodies : List (Interactive σ κ ε α)) :
    (Isolation.start committed bodies).Exclusive := by
  intro i j one other hNe hOne hOther hActive hOtherActive row hRow
  unfold Isolation.start at hOne
  rw [List.getElem?_map] at hOne
  rcases Option.map_eq_some_iff.mp hOne with ⟨body, -, rfl⟩
  cases hRow

variable {state state' : Isolation σ κ ε α} {i : Nat}

/- Replacing one session by one that holds free rows. -/
theorem exclusive_set {session : Session σ κ ε α} (hExclusive : state.Exclusive)
    (hFree : ∀ (j : Nat) other, j ≠ i → state.sessions[j]? = some other →
      other.phase = .active → session.phase = .active → ∀ row ∈ session.held, row ∉ other.held)
    (committed : σ) :
    Isolation.Exclusive
      { committed, sessions := state.sessions.set i session } := by
  intro j k one other hNe hOne hOther hActive hOtherActive row hRow hHeld
  rcases getElem?_set_cases hOne with ⟨rfl, rfl⟩ | ⟨hj, hOneOld⟩
  · rcases getElem?_set_cases hOther with ⟨rfl, rfl⟩ | ⟨hk, hOtherOld⟩
    · exact hNe rfl
    · exact hFree k other hk hOtherOld hOtherActive hActive row hRow hHeld
  · rcases getElem?_set_cases hOther with ⟨rfl, rfl⟩ | ⟨hk, hOtherOld⟩
    · exact hFree j one hj hOneOld hActive hOtherActive row hHeld hRow
    · exact hExclusive j k one other hNe hOneOld hOtherOld hActive hOtherActive row hRow hHeld

variable [DecidableEq κ]

theorem not_held_of_free {j : Nat} {rows : List κ} {other : Session σ κ ε α}
    (hFree : state.blocked i rows = false) (hOther : state.sessions[j]? = some other) (hNe : j ≠ i)
    (hActive : other.phase = .active) :
    ∀ row ∈ rows, row ∉ other.held := by
  intro row hRow hHeld
  have hMem : (other, j) ∈ state.sessions.zipIdx := List.mem_zipIdx_iff_getElem?.mpr hOther
  rw [Isolation.blocked, List.any_eq_false] at hFree
  apply hFree _ hMem
  simp only [Bool.and_eq_true, decide_eq_true_eq, List.any_eq_true]
  exact ⟨⟨hNe, hActive⟩, row, hRow, hHeld⟩

theorem Isolation.exclusive_step {turn : Turn} (hExclusive : state.Exclusive)
    (hStep : state.step turn = some state') :
    state'.Exclusive := by
  cases turn with
  | execute i =>
    rcases Isolation.step_execute hStep with ⟨session, rows, update, next, hSession, hPhase, -,
      hFree, rfl⟩
    apply exclusive_set hExclusive
    intro j other hNe hOther hActive _ row hRow
    rcases List.mem_append.mp hRow with hNew | hOld
    · exact not_held_of_free hFree hOther hNe hActive row hNew
    · exact hExclusive i j session other (Ne.symm hNe) hSession hOther hPhase hActive row hOld
  | commit i =>
    rcases Isolation.step_commit hStep with ⟨session, value, -, -, -, rfl⟩
    apply exclusive_set hExclusive
    intro j other _ _ _ hActive
    cases hActive
  | abort i =>
    rcases Isolation.step_abort hStep with ⟨session, -, -, rfl⟩
    apply exclusive_set hExclusive
    intro j other _ _ _ hActive
    cases hActive

end Transactional
