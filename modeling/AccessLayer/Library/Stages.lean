import AccessLayer.Library.ReadCommitted

/-
  Invariants of concurrent transactions.

  A transaction is described by its stages: what it still runs,
  what it has written and which rows it holds.  The stages of a
  transaction have to withstand the commits of the others, which
  hold other rows.

  Main declaration: `upheld_step`
-/

-- Stages
----

namespace Transactional

/-
  The stages of each transaction, what is known of it when it
  has ended, and an invariant of the store.
-/
structure Stages (σ κ ε α : Type) where
  Stage : Nat → σ → Interactive σ κ ε α → (σ → σ) → List κ → Prop
  Ended : Nat → σ → Session σ κ ε α → Prop
  Store : σ → Prop
  store_of_commit :
    ∀ {i s} {value : α} {writes held}, Store s → Stage i s (.ret value) writes held →
      Store (writes s)
  stage_of_commit : ∀ {i j s} {value : α} {writes held body writes' held'},
    Store s → Stage i s (.ret value) writes held → (∀ row ∈ held, row ∉ held') →
      Stage j s body writes' held' → Stage j (writes s) body writes' held'
  ended_of_commit :
    ∀ {i j s} {value : α} {writes held session}, Store s → Stage i s (.ret value) writes held →
      Ended j s session → Ended j (writes s) session
  committed : ∀ {i s} {value : α} {session : Session σ κ ε α}, Store s → session.body = .ret value →
    Stage i s (.ret value) session.writes session.held → Ended i (session.writes s)
      { session with phase := .committed }
  aborted :
    ∀ {i s} {session : Session σ κ ε α}, Stage i s session.body session.writes session.held →
      Ended i s { session with phase := .aborted }

namespace Stages

variable {σ κ ε α : Type}

/- The store and every session are where they may be. -/
structure Upheld (stages : Stages σ κ ε α) (state : Isolation σ κ ε α) : Prop where
  exclusive : state.Exclusive
  store : stages.Store state.committed
  active : ∀ (i : Nat) session, state.sessions[i]? = some session → session.phase = .active →
    stages.Stage i state.committed session.body session.writes session.held
  ended : ∀ (i : Nat) session, state.sessions[i]? = some session → session.phase ≠ .active →
    stages.Ended i state.committed session

variable {stages : Stages σ κ ε α}

/- Sessions begin at their first stage. -/
theorem upheld_start {committed : σ} {bodies : List (Interactive σ κ ε α)}
    (hStore : stages.Store committed)
    (hBodies : ∀ (i : Nat) body, bodies[i]? = some body → stages.Stage i committed body id []) :
    stages.Upheld (.start committed bodies) := by
  have hSession (i : Nat) (session : Session σ κ ε α)
      (h : (Isolation.start committed bodies).sessions[i]? = some session) :
      session.phase = .active ∧ stages.Stage i committed session.body session.writes
        session.held := by
    unfold Isolation.start at h
    rw [List.getElem?_map] at h
    rcases Option.map_eq_some_iff.mp h with ⟨body, hBody, rfl⟩
    exact ⟨rfl, hBodies i body hBody⟩
  refine ⟨Isolation.exclusive_start _ _, hStore, ?_, ?_⟩
  · exact fun i session h _ => (hSession i session h).2
  · exact fun i session h hEnded => absurd (hSession i session h).1 hEnded

variable {state state' : Isolation σ κ ε α} [DecidableEq κ]

/- One turn of one session. -/
theorem upheld_step {turn : Turn} (hUpheld : stages.Upheld state) (hExecute :
    ∀ i session rows update next, turn = .execute i → state.sessions[i]? = some session →
      session.body = .stmt rows update next →
      stages.Stage i state.committed (.stmt rows update next) session.writes session.held →
      stages.Stage i state.committed (next (session.writes state.committed))
        (fun s => update (session.writes s)) (rows ++ session.held))
    (hStep : state.step turn = some state') :
    stages.Upheld state' := by
  have hExclusive := Isolation.exclusive_step hUpheld.exclusive hStep
  cases turn with
  | execute i =>
    rcases Isolation.step_execute hStep with
      ⟨session, rows, update, next, hSession, hPhase, hBody, -, rfl⟩
    refine ⟨hExclusive, hUpheld.store, ?_, ?_⟩
    · intro j other hOther hActive
      rcases getElem?_set_cases hOther with ⟨rfl, rfl⟩ | ⟨-, hOld⟩
      · have hHere := hUpheld.active j session hSession hPhase
        rw [hBody] at hHere
        exact hExecute j session rows update next rfl hSession hBody hHere
      · exact hUpheld.active j other hOld hActive
    · intro j other hOther hEnded
      rcases getElem?_set_cases hOther with ⟨rfl, rfl⟩ | ⟨-, hOld⟩
      · exact absurd hPhase hEnded
      · exact hUpheld.ended j other hOld hEnded
  | commit i =>
    rcases Isolation.step_commit hStep with ⟨session, value, hSession, hPhase, hBody, rfl⟩
    have hHere := hUpheld.active i session hSession hPhase
    rw [hBody] at hHere
    refine ⟨hExclusive, stages.store_of_commit hUpheld.store hHere, ?_, ?_⟩
    · intro j other hOther hActive
      rcases getElem?_set_cases hOther with ⟨rfl, rfl⟩ | ⟨hNe, hOld⟩
      · cases hActive
      · apply stages.stage_of_commit hUpheld.store hHere ?_ (hUpheld.active j other hOld hActive)
        exact hUpheld.exclusive i j session other (Ne.symm hNe) hSession hOld hPhase hActive
    · intro j other hOther hEnded
      rcases getElem?_set_cases hOther with ⟨rfl, rfl⟩ | ⟨-, hOld⟩
      · exact stages.committed hUpheld.store hBody hHere
      · exact stages.ended_of_commit hUpheld.store hHere (hUpheld.ended j other hOld hEnded)
  | abort i =>
    rcases Isolation.step_abort hStep with ⟨session, hSession, hPhase, rfl⟩
    refine ⟨hExclusive, hUpheld.store, ?_, ?_⟩
    · intro j other hOther hActive
      rcases getElem?_set_cases hOther with ⟨rfl, rfl⟩ | ⟨-, hOld⟩
      · cases hActive
      · exact hUpheld.active j other hOld hActive
    · intro j other hOther hEnded
      rcases getElem?_set_cases hOther with ⟨rfl, rfl⟩ | ⟨-, hOld⟩
      · exact stages.aborted (hUpheld.active j session hSession hPhase)
      · exact hUpheld.ended j other hOld hEnded

end Stages

end Transactional
