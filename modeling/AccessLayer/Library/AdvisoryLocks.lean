import AccessLayer.Library.ReadCommitted

/-
  Transactions that begin by taking a lock.

  What a lock protects is a relation between stores: those that
  agree on it.  If the statements after the lock read and write
  only what it protects, a commit has the effect of the whole
  transaction at that moment.

  Main declaration: `serialRun_of_locked`
-/

-- Confined Transactions
----

namespace Transactional

namespace Interactive

variable {σ κ ε α β : Type}

/- A transaction with nobody else at work. -/
def serial : Interactive σ κ ε α → σ → Except ε (α × σ)
  | .ret value, s => .ok (value, s)
  | .raise error, _ => .error error
  | .stmt _ update next, s => (next s).serial (update s)

/-
  Stores that agree on a lock lead to the same statements and
  still agree after them; on other locks, nothing changes.
-/
def Confined (agree : κ → σ → σ → Prop) (k : κ) : Interactive σ κ ε α → Prop
  | .ret _ => True
  | .raise _ => True
  | .stmt _ update next =>
    (∀ s s', agree k s s' → next s = next s' ∧ agree k (update s) (update s')) ∧
    (∀ k' s, k' ≠ k → agree k' s (update s)) ∧
    ∀ s, (next s).Confined agree k

/- A transaction that fails at once or takes a lock first. -/
inductive Locked (agree : κ → σ → σ → Prop) :
    Interactive σ κ ε α → Prop where
  | raise (error : ε) : Locked agree (.raise error)
  | lock {k : κ} {rest : Interactive σ κ ε α} (hRest : rest.Confined agree k) :
    Locked agree (.stmt [k] id fun _ => rest)

variable {agree : κ → σ → σ → Prop} {k : κ}

theorem Confined.bind {m : Interactive σ κ ε α} {f : α → Interactive σ κ ε β}
    (hFirst : m.Confined agree k) (hRest : ∀ a, (f a).Confined agree k) :
    (m >>= f).Confined agree k := by
  induction m with
  | ret value => exact hRest value
  | raise error => trivial
  | stmt rows update next ih =>
    refine ⟨?_, hFirst.2.1, fun s => ih s (hFirst.2.2 s)⟩
    intro s s' hAgree
    have hSame := hFirst.1 s s' hAgree
    exact ⟨congrArg (Interactive.bind · f) hSame.1, hSame.2⟩

theorem confined_find_bind (hEquiv : ∀ k, Equivalence (agree k)) {f : σ → α}
    {g : α → Interactive σ κ ε β} (hRead : ∀ s s', agree k s s' → f s = f s')
    (hRest : ∀ s, (g (f s)).Confined agree k) :
    (find f >>= g).Confined agree k := by
  refine ⟨?_, fun k' s _ => (hEquiv k').refl s, hRest⟩
  intro s s' hAgree
  exact ⟨congrArg g (hRead s s' hAgree), hAgree⟩

theorem serial_find_bind (f : σ → α) (g : α → Interactive σ κ ε β) (s : σ) :
    (find f >>= g).serial s = (g (f s)).serial s := rfl

/- What is written has to be protected, and by no other lock. -/
theorem confined_update {rows : List κ} {update : σ → σ}
    (hSame : ∀ s s', agree k s s' → agree k (update s) (update s'))
    (hOther : ∀ k' s, k' ≠ k → agree k' s (update s)) :
    (write rows fun s => .ok ((), update s) : Interactive σ κ ε Unit).Confined agree k :=
  ⟨fun s s' hAgree => ⟨rfl, hSame s s' hAgree⟩, hOther, fun _ => trivial⟩

end Interactive

-- Serial Runs
----

section

variable {σ κ ε α : Type}

/- Some transactions, one after the other. -/
inductive SerialRun (bodies : List (Interactive σ κ ε α)) (start : σ) : List Nat → σ → Prop where
  | start : SerialRun bodies start [] start
  | commit {order : List Nat} {i : Nat} {s s' : σ} {body : Interactive σ κ ε α} {value : α}
    (hRun : SerialRun bodies start order s) (hBody : bodies[i]? = some body)
    (hSerial : body.serial s = .ok (value, s')) : SerialRun bodies start (order ++ [i]) s'

variable {bodies : List (Interactive σ κ ε α)} {start : σ}

/- What holds at the start and is kept by every transaction. -/
theorem SerialRun.invariant {I : σ → Prop} (hStart : I start)
    (hKeep : ∀ body ∈ bodies, ∀ s value s', I s → body.serial s = .ok (value, s') → I s')
    {order : List Nat} {s : σ} (hRun : SerialRun bodies start order s) :
    I s := by
  induction hRun with
  | start => exact hStart
  | commit hRun hBody hSerial ih => exact hKeep _ (List.mem_of_getElem? hBody) _ _ _ ih hSerial

/- What a transaction does and the others leave. -/
theorem SerialRun.effect {Q : σ → Prop} {i : Nat} {body : Interactive σ κ ε α}
    (hBody : bodies[i]? = some body) (hDone :
      ∀ order s value s', SerialRun bodies start order s → body.serial s = .ok (value, s') → Q s')
    (hKeep : ∀ other ∈ bodies, ∀ s value s', Q s → other.serial s = .ok (value, s') → Q s')
    {order : List Nat} {s : σ} (hRun : SerialRun bodies start order s) (hMem : i ∈ order) :
    Q s := by
  induction hRun with
  | start => cases hMem
  | @commit order j before after other value hRun hOther hSerial ih =>
    rcases List.mem_append.mp hMem with hEarlier | hLast
    · exact hKeep other (List.mem_of_getElem? hOther) _ _ _ (ih hEarlier) hSerial
    · cases List.mem_singleton.mp hLast
      rw [hBody] at hOther
      cases hOther
      exact hDone _ _ _ _ hRun hSerial

end

-- Locked Transactions
----

variable {σ κ ε α : Type}

/-
  An active session has not begun, or it holds its lock and what
  is left of it completes the transaction.
-/
def Session.Completes (agree : κ → σ → σ → Prop) (committed : σ) (body : Interactive σ κ ε α)
    (session : Session σ κ ε α) : Prop :=
  (session.body = body ∧ session.writes = id) ∨ ∃ k ∈ session.held, session.body.Confined agree k ∧
    (∀ s s', agree k s s' → agree k (session.writes s) (session.writes s')) ∧
    (∀ k' s, k' ≠ k → agree k' s (session.writes s)) ∧ ∀ s, agree k committed s →
      body.serial s = session.body.serial (session.writes s)

/- The commits so far are a serial run. -/
structure Isolation.SerialBy (agree : κ → σ → σ → Prop) (bodies : List (Interactive σ κ ε α))
    (start : σ) (order : List Nat) (state : Isolation σ κ ε α) : Prop where
  serial : SerialRun bodies start order state.committed
  completes :
    ∀ (i : Nat) session, state.sessions[i]? = some session → session.phase = .active → ∃ body,
      bodies[i]? = some body ∧ session.Completes agree state.committed body
  committed : ∀ (i : Nat) session, state.sessions[i]? = some session →
    (session.phase = .committed ↔ i ∈ order)
  exclusive : state.Exclusive

variable {agree : κ → σ → σ → Prop} {bodies : List (Interactive σ κ ε α)} {start : σ}
variable {state state' : Isolation σ κ ε α} {order : List Nat}

theorem Isolation.serialBy_start (agree : κ → σ → σ → Prop) (start : σ)
    (bodies : List (Interactive σ κ ε α)) :
    SerialBy agree bodies start [] (Isolation.start start bodies) where
  serial := .start
  completes := by
    intro i session hSession _
    rw [Isolation.start, List.getElem?_map] at hSession
    rcases Option.map_eq_some_iff.mp hSession with ⟨body, hBody, rfl⟩
    exact ⟨body, hBody, .inl ⟨rfl, rfl⟩⟩
  committed := by
    intro i session hSession
    rw [Isolation.start, List.getElem?_map] at hSession
    rcases Option.map_eq_some_iff.mp hSession with ⟨body, -, rfl⟩
    simp
  exclusive := Isolation.exclusive_start _ _

/- One statement of a locked transaction. -/
theorem Session.Completes.advance {committed : σ} {body : Interactive σ κ ε α}
    {session : Session σ κ ε α} {rows : List κ} {update : σ → σ} {next : σ → Interactive σ κ ε α}
    (hEquiv : ∀ k, Equivalence (agree k)) (hLocked : body.Locked agree)
    (hCompletes : session.Completes agree committed body)
    (hBody : session.body = .stmt rows update next) :
    (session.advance rows update (next (session.view committed))).Completes agree committed
      body := by
  right
  rcases hCompletes with ⟨hSame, hWrites⟩ | ⟨k, hHeld, hConfined, hKeep, hFrame, hSerial⟩
  · rw [hSame] at hBody
    cases hLocked with
    | raise error => cases hBody
    | @lock k rest hRest =>
      cases hBody
      refine ⟨k, List.mem_append_left _ (by simp), hRest, ?_⟩
      simp only [Session.advance, hWrites, id]
      exact ⟨fun _ _ h => h, fun k' s _ => (hEquiv k').refl s, fun _ _ => rfl⟩
  · rw [hBody] at hConfined
    rcases hConfined with ⟨hRead, hOther, hNext⟩
    refine ⟨k, List.mem_append_right _ hHeld, hNext _, ?_, ?_, ?_⟩
    · intro s s' hAgree
      exact (hRead _ _ (hKeep s s' hAgree)).2
    · intro k' s hNe
      exact (hEquiv k').trans (hFrame k' s hNe) (hOther k' (session.writes s) hNe)
    · intro s hAgree
      have hView := hRead _ _ (hKeep committed s hAgree)
      rw [hSerial s hAgree, hBody, Session.view, hView.1]
      rfl

/- Other commits are out of the reach of a lock. -/
theorem Session.Completes.commit {committed : σ} {body : Interactive σ κ ε α}
    {session : Session σ κ ε α} (hEquiv : ∀ k, Equivalence (agree k))
    (hCompletes : session.Completes agree committed body) {committed' : σ}
    (hAgree : ∀ k ∈ session.held, agree k committed committed') :
    session.Completes agree committed' body := by
  rcases hCompletes with hFresh | ⟨k, hHeld, hConfined, hKeep, hFrame, hSerial⟩
  · exact .inl hFresh
  · refine .inr ⟨k, hHeld, hConfined, hKeep, hFrame, ?_⟩
    intro s hSame
    exact hSerial s ((hEquiv k).trans (hAgree k hHeld) hSame)

variable [DecidableEq κ]

theorem Isolation.SerialBy.step (hEquiv : ∀ k, Equivalence (agree k))
    (hLocked : ∀ body ∈ bodies, body.Locked agree) {turn : Turn}
    (hSerial : state.SerialBy agree bodies start order) (hStep : state.step turn = some state') :
    ∃ order', state'.SerialBy agree bodies start order' := by
  have hExclusive := Isolation.exclusive_step hSerial.exclusive hStep
  cases turn with
  | execute i =>
    rcases Isolation.step_execute hStep with
      ⟨session, rows, update, next, hSession, hActive, hBody, -, rfl⟩
    refine ⟨order, hSerial.serial, ?_, ?_, hExclusive⟩
    · intro j other hOther hPhase
      rcases getElem?_set_cases hOther with ⟨rfl, rfl⟩ | ⟨-, hOld⟩
      · rcases hSerial.completes _ session hSession hActive with ⟨body, hGet, hCompletes⟩
        have hMem := List.mem_of_getElem? hGet
        exact ⟨body, hGet, hCompletes.advance hEquiv (hLocked body hMem) hBody⟩
      · exact hSerial.completes j other hOld hPhase
    · intro j other hOther
      rcases getElem?_set_cases hOther with ⟨rfl, rfl⟩ | ⟨-, hOld⟩
      · exact hSerial.committed _ session hSession
      · exact hSerial.committed j other hOld
  | commit i =>
    rcases Isolation.step_commit hStep with ⟨session, value, hSession, hActive, hBody, rfl⟩
    rcases hSerial.completes i session hSession hActive with ⟨body, hGet, hCompletes⟩
    rcases hCompletes with ⟨hSame, -⟩ | ⟨k, hHeld, -, -, hFrame, hLeft⟩
    · have hFirst := hLocked body (List.mem_of_getElem? hGet)
      rw [hSame] at hBody
      rw [hBody] at hFirst
      cases hFirst
    · have hEffect : body.serial state.committed = .ok (value, session.view state.committed) := by
        rw [hLeft _ ((hEquiv k).refl _), hBody]
        rfl
      refine ⟨order ++ [i], hSerial.serial.commit hGet hEffect, ?_, ?_, hExclusive⟩
      · intro j other hOther hPhase
        rcases getElem?_set_cases hOther with ⟨rfl, rfl⟩ | ⟨hNe, hOld⟩
        · cases hPhase
        · rcases hSerial.completes j other hOld hPhase with ⟨body', hGet', hCompletes'⟩
          refine ⟨body', hGet', hCompletes'.commit hEquiv ?_⟩
          intro k' hk'
          apply hFrame
          rintro rfl
          exact hSerial.exclusive i j session other (Ne.symm hNe)
            hSession hOld hActive hPhase k' hHeld hk'
      · intro j other hOther
        rcases getElem?_set_cases hOther with ⟨rfl, rfl⟩ | ⟨hNe, hOld⟩
        · simp
        · rw [hSerial.committed j other hOld]
          simp [hNe]
  | abort i =>
    rcases Isolation.step_abort hStep with ⟨session, hSession, hActive, rfl⟩
    refine ⟨order, hSerial.serial, ?_, ?_, hExclusive⟩
    · intro j other hOther hPhase
      rcases getElem?_set_cases hOther with ⟨rfl, rfl⟩ | ⟨-, hOld⟩
      · cases hPhase
      · exact hSerial.completes j other hOld hPhase
    · intro j other hOther
      rcases getElem?_set_cases hOther with ⟨rfl, rfl⟩ | ⟨-, hOld⟩
      · rw [← hSerial.committed _ session hSession, hActive]
        simp
      · exact hSerial.committed j other hOld

theorem serialRun_of_locked (hEquiv : ∀ k, Equivalence (agree k))
    (hLocked : ∀ body ∈ bodies, body.Locked agree) {allowed : Isolation σ κ ε α → Turn → Prop}
    {turns : List Turn}
    (hRun : RunsTo Isolation.step allowed (Isolation.start start bodies) turns state) :
    ∃ order, SerialRun bodies start order state.committed ∧
      ∀ (i : Nat) session, state.sessions[i]? = some session →
        (session.phase = .committed ↔ i ∈ order) := by
  have hSerial : ∃ order, state.SerialBy agree bodies start order := by
    apply RunsTo.invariant _ _ hRun
    · exact ⟨[], Isolation.serialBy_start agree start bodies⟩
    · rintro reached turn next ⟨order, hReached⟩ - hStep
      exact hReached.step hEquiv hLocked hStep
  rcases hSerial with ⟨order, hReached⟩
  exact ⟨order, hReached.serial, hReached.committed⟩

end Transactional
