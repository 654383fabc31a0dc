import AccessLayer.Indexer.Dispatch

/-
  Which events of a batch reach a service before the cursor
  moves past them.

  The services are observed: each call is recorded before it is
  made.  The types handled only inside the service of trades and
  the sunset flags are routed to no stage, and the cursor moves
  past them.

  Main result: `dispatch_complete_iff`
-/

-- Observed Services
----

namespace AccessLayer

namespace Indexer

open Transactional Program

variable {σ π : Type}

/- The tables and the events that each handler was called with. -/
structure Observed (σ π : Type) where
  tables : σ
  calls : List (PipelineHandler × PipelineEvent π)

def Observed.tablesPart : Component (Observed σ π) σ where
  get world := world.tables
  set tables world := { world with tables }
  get_set _ _ := rfl
  set_get _ := rfl
  set_set _ _ _ := rfl

def observe (stage : Stage) (events : List (PipelineEvent π)) :
    Program (Observed σ π) IndexerError Unit :=
  execute .database fun world => .ok ((), { world with
          calls := world.calls ++ events.map (.stage stage, ·) })

def observed (services : Services σ π) : Services (Observed σ π) π :=
  fun stage events => do
    observe stage events
    (services stage events).zoom Observed.tablesPart

/- The cursor has been moved to a ledger or past it. -/
def Covers (cursor : Option IndexedLedger) (ledger : Int) : Prop :=
  ∃ indexed, cursor = some indexed ∧ ledger ≤ indexed.ledger

/-
  At no moment, whatever the services and the store do, has the
  cursor moved past an event that some handler recognises and
  was not called with.
-/
def DispatchComplete (events : List (PipelineEvent π)) : Prop :=
  ∀ (σ : Type) (services : Services σ π) (asOf : Int)
    (advanceCursor : Bool) (db : PipelineDb (Observed σ π)) (outcomes : List Outcome),
    ∀ event ∈ events, ∀ ledger, event.ledger = some ledger → ¬ Covers db.indexedLedger ledger →
      Covers ((processIndexerEvents (observed services) asOf
        advanceCursor events).attempt outcomes db).indexedLedger ledger →
      ∀ handler : PipelineHandler, handler.recognises event.eventType → (handler, event) ∈
        ((processIndexerEvents (observed services) asOf advanceCursor events).attempt outcomes
          db).tables.calls

-- What the Cursor Waits for
----

variable {events : List (PipelineEvent π)} {db : PipelineDb (Observed σ π)}

def HandedOver (events : List (PipelineEvent π)) (stages : List Stage)
    (calls : List (PipelineHandler × PipelineEvent π)) : Prop :=
  ∀ stage ∈ stages, ∀ event ∈ stage.routed events, (.stage stage, event) ∈ calls

/-
  The cursor is where it was, or it is at the highest ledger of
  the batch and all stages have been called.
-/
def Waited (cursor : Option IndexedLedger) (events : List (PipelineEvent π))
    (db : PipelineDb (Observed σ π)) : Prop :=
  db.indexedLedger = cursor ∨ HandedOver events Stage.all db.tables.calls ∧
    ∀ indexed, db.indexedLedger = some indexed → batchLedger (PipelineEvent.chain events) =
      some indexed.ledger

def Untouched (cursor : Option IndexedLedger) (events : List (PipelineEvent π))
    (stages : List Stage) (db : PipelineDb (Observed σ π)) : Prop :=
  db.indexedLedger = cursor ∧ HandedOver events stages db.tables.calls

variable {cursor : Option IndexedLedger}

theorem secures_runStage (services : Services σ π) {stages : List Stage} (stage : Stage)
    (hDb : Untouched cursor events stages db) :
    Secures (Waited cursor events) (fun _ db' => Untouched cursor events (stages ++ [stage]) db')
      (fun _ => True) (runStage (observed services) events stage) db := by
  rcases hDb with ⟨hCursor, hBefore⟩
  unfold runStage
  split
  · rename_i hNone
    refine secures_pure ⟨hCursor, ?_⟩
    intro other hOther event hEvent
    rcases List.mem_append.mp hOther with hOld | hNew
    · exact hBefore other hOld event hEvent
    · rw [List.mem_singleton.mp hNew, hNone] at hEvent
      cases hEvent
  · rename_i first rest hRouted
    have hAfter : HandedOver events (stages ++ [stage]) (db.tables.calls ++
        (first :: rest).map (.stage stage, ·)) := by
      intro other hOther event hEvent
      rcases List.mem_append.mp hOther with hOld | hNew
      · exact List.mem_append_left _ (hBefore other hOld event hEvent)
      · rw [List.mem_singleton.mp hNew, hRouted] at hEvent
        rw [List.mem_singleton.mp hNew]
        exact List.mem_append_right _ (List.mem_map_of_mem hEvent)
    apply Secures.zoom
    refine Secures.bind (Q := fun _ world => world.calls =
      db.tables.calls ++ (first :: rest).map (.stage stage, ·)) ?_ ?_
    · refine secures_execute ?_ (Or.inl hCursor) trivial
      intro _ world hWrite
      cases hWrite
      exact ⟨Or.inl hCursor, rfl, trivial⟩
    · intro _ world hCalls
      apply Secures.zoom
      apply secures_of_all
      · exact fun _ => Or.inl hCursor
      · intro _ tables
        refine ⟨hCursor, ?_⟩
        change HandedOver events _ world.calls
        rw [hCalls]
        exact hAfter
      · exact fun _ => trivial

theorem secures_markExpiredSwaps (asOf : Int) (hDb : Untouched cursor events Stage.all db) :
    Secures (Waited cursor events) (fun _ db' => Untouched cursor events Stage.all db')
      (fun _ => True) (markExpiredSwaps asOf) db := by
  refine Secures.tryCatch (F := fun db' => Untouched cursor events Stage.all db') ?_ ?_
  · refine secures_execute ?_ (Or.inl hDb.1) hDb
    intro _ db' hWrite
    cases hWrite
    exact ⟨Or.inl hDb.1, hDb, hDb⟩
  · exact fun _ db' hDb' => secures_pure hDb'

theorem secures_checkpoint (hDb : Untouched cursor events Stage.all db) :
    Secures (Waited cursor events) (fun _ _ => True) (fun _ => True)
      (checkpointHighestLedger events) db := by
  unfold checkpointHighestLedger
  split
  · rename_i ledger hLedger
    apply Secures.zoom
    refine Secures.tryCatch (F := fun _ => True) ?_ ?_
    · refine secures_execute ?_ (Or.inl hDb.1) trivial
      intro _ written hWrite
      cases hWrite
      refine ⟨Or.inr ⟨hDb.2, ?_⟩, trivial, trivial⟩
      intro indexed hIndexed
      cases hIndexed
      exact hLedger
    · exact fun _ _ _ => secures_pure trivial
  · exact secures_pure trivial

/- The cursor moves only after all stages have been called. -/
theorem secures_processIndexerEvents (services : Services σ π) (asOf : Int) (advanceCursor : Bool)
    (events : List (PipelineEvent π)) (db : PipelineDb (Observed σ π)) :
    Secures (Waited db.indexedLedger events) (fun _ _ => True) (fun _ => True)
      (processIndexerEvents (observed services) asOf advanceCursor events) db := by
  have hStages : Secures (Waited db.indexedLedger events) (fun _ db' =>
    Untouched db.indexedLedger events Stage.all db')
    (fun _ => True)
    (forEach (runStage (observed services) events) Stage.all) db := by
    have hStart : Untouched db.indexedLedger events [] db := ⟨rfl, by simp [HandedOver]⟩
    refine secures_forEach (Untouched db.indexedLedger events) ?_ _ hStart
    intro stages stage db' hDb'
    exact secures_runStage services stage hDb'
  refine hStages.bind ?_
  intro _ db' hDb'
  split
  · refine (secures_markExpiredSwaps asOf hDb').bind ?_
    exact fun _ db'' hDb'' => secures_checkpoint hDb''
  · exact secures_pure trivial

-- Types Routed to No Stage
----

/- The types of the sunset flags, and those that only branches of the trade service handle. -/
def unroutedEventTypes : List String :=
  "CREATOR_REGISTERED" :: "KEY_SUNSET_FLAGGED" ::
    (bundleEventTypes ++ volumeDiscountEventTypes ++ swapEventTypes)

/- They are what some handler recognises and is not given. -/
theorem mem_unrouted_iff {type : String} :
    type ∈ unroutedEventTypes ↔ ∃ handler : PipelineHandler, handler.recognises type = true ∧
      handler.routes type = false := by
  constructor
  · intro hType
    have hAll : ∀ type ∈ unroutedEventTypes,
        PipelineHandler.sunsetFlagged.recognises type = true ∨
          (PipelineHandler.stage .trades).recognises type = true ∧
            (PipelineHandler.stage .trades).routes type = false := by decide
    rcases hAll type hType with hSunset | hTrades
    · exact ⟨.sunsetFlagged, hSunset, rfl⟩
    · exact ⟨_, hTrades⟩
  · rintro ⟨handler, hRecognised, hRoutes⟩
    simp only [unroutedEventTypes, List.mem_cons, List.mem_append]
    cases handler with
    | sunsetFlagged => exact Or.inr (Or.inl (of_decide_eq_true hRecognised))
    | stage stage =>
      simp only [PipelineHandler.recognises, PipelineHandler.routes] at hRecognised hRoutes
      by_cases hStage : stage = .trades
      · subst hStage
        simp only [Stage.recognises, Stage.routes] at hRecognised hRoutes
        unfold tradeBranch at hRecognised
        split_ifs at hRecognised with hCreator hBundle hVolume hSwap hTrade
        · exact Or.inl hCreator
        · exact Or.inr (Or.inr (Or.inl (Or.inl hBundle)))
        · exact Or.inr (Or.inr (Or.inl (Or.inr hVolume)))
        · exact Or.inr (Or.inr (Or.inr hSwap))
        · rw [hRoutes] at hTrade
          cases hTrade
        · cases hRecognised
      · rw [routes_eq_recognises hStage, hRecognised] at hRoutes
        cases hRoutes

/- Services that do nothing. -/
def idle : Services Unit π := fun _ _ => pure ()

/- The cursor is unset and the calls are those of the filters. -/
def OnlyRouted (db : PipelineDb (Observed Unit π)) : Prop :=
  db.indexedLedger = none ∧ ∀ call ∈ db.tables.calls, call.1.routes call.2.eventType = true

theorem ensures_idleStage (stage : Stage) (db : PipelineDb (Observed Unit π))
    (hDb : OnlyRouted db) :
    (runStage (observed idle) events stage).Ensures db (fun _ => OnlyRouted) (fun _ => False) := by
  unfold runStage
  split
  · exact ensures_pure hDb
  · rename_i first rest hRouted
    refine ⟨hDb.1, ?_⟩
    intro call hCall
    rcases List.mem_append.mp hCall with hOld | hNew
    · exact hDb.2 call hOld
    · rcases List.mem_map.mp hNew with ⟨event, hEvent, rfl⟩
      rw [← hRouted] at hEvent
      exact (List.mem_filter.mp hEvent).2

theorem final_idle {ledger : Int}
    (hLedger : batchLedger (PipelineEvent.chain events) = some ledger) :
    ∃ db : PipelineDb (Observed Unit π), (processIndexerEvents (observed idle) 0 true events).final
      ⟨⟨(), []⟩, [], none⟩ = db ∧ db.indexedLedger = some ⟨ledger, toString ledger ++ "-000"⟩ ∧
      ∀ call ∈ db.tables.calls, call.1.routes call.2.eventType = true := by
  have hStages : (forEach (runStage (observed idle) events) Stage.all).Ensures ⟨⟨(), []⟩, [], none⟩
      (fun _ => OnlyRouted) (fun _ => False) :=
    ensures_forEach (fun stage _ => ensures_idleStage stage) ⟨rfl, by simp⟩
  unfold Ensures at hStages
  refine ⟨_, rfl, ?_⟩
  unfold Program.final processIndexerEvents
  rw [run_bind]
  cases hRun : (forEach (runStage (observed idle) events) Stage.all).run ⟨⟨(), []⟩, [], none⟩ with
  | mk result db =>
    rw [hRun] at hStages
    cases result with
    | error e => exact hStages.elim
    | ok _ =>
      simp only [if_true, advanceCursorForBatch, markExpiredSwaps, checkpointHighestLedger, hLedger,
        upsertIndexedLedger, run_bind, run_tryCatch, run_execute, run_zoom]
      exact ⟨rfl, hStages.2⟩

/- The cursor of a batch is moved to an event or past it. -/
def Passed (events : List (PipelineEvent π)) (event : PipelineEvent π) : Prop :=
  ∃ ledger highest, event.ledger = some ledger ∧
    batchLedger (PipelineEvent.chain events) = some highest ∧ ledger ≤ highest

/-
  No event is lost exactly when the cursor passes no sunset flag
  and none that only a branch of the trade service handles.
-/
theorem dispatch_complete_iff (events : List (PipelineEvent π)) :
    DispatchComplete events ↔ ∀ event ∈ events, Passed events event →
      event.eventType ∉ unroutedEventTypes := by
  constructor
  · intro hComplete event hEvent hPassed hType
    rcases hPassed with ⟨ledger, highest, hLedger, hHighest, hLe⟩
    rcases mem_unrouted_iff.mp hType with ⟨handler, hRecognised, hRoutes⟩
    rcases final_idle hHighest with ⟨after, hFinal, hCursor, hCalls⟩
    rcases exists_attempt_eq_final (processIndexerEvents (observed idle) 0 true events)
      ⟨⟨(), []⟩, [], none⟩ with ⟨outcomes, hAttempt⟩
    rw [hFinal] at hAttempt
    have hCalled :=
      hComplete Unit idle 0 true ⟨⟨(), []⟩, [], none⟩ outcomes event hEvent ledger hLedger
    rw [hAttempt] at hCalled
    have hMem := hCalled (by simp [Covers]) ⟨_, hCursor, hLe⟩ handler hRecognised
    rw [hCalls _ hMem] at hRoutes
    cases hRoutes
  · intro hTypes σ services asOf advanceCursor db outcomes event
      hEvent ledger hLedger hBefore hAfter handler hRecognised
    have hWaited := (secures_processIndexerEvents services asOf advanceCursor
        events db).attempt (Or.inl rfl) outcomes
    rcases hWaited with hSame | ⟨hHanded, hHighest⟩
    · rw [hSame] at hAfter
      exact absurd hAfter hBefore
    · rcases hAfter with ⟨indexed, hIndexed, hLe⟩
      have hKnown : event.eventType ∉ unroutedEventTypes :=
        hTypes event hEvent ⟨ledger, indexed.ledger, hLedger, hHighest indexed hIndexed, hLe⟩
      have hRoutes : handler.routes event.eventType = true := by
        by_contra hNot
        exact hKnown (mem_unrouted_iff.mpr ⟨handler, hRecognised, by simpa using hNot⟩)
      cases handler with
      | sunsetFlagged => cases hRoutes
      | stage stage =>
        exact hHanded stage (Stage.mem_all stage) event (List.mem_filter.mpr ⟨hEvent, hRoutes⟩)

/- A swap that is executed in the ledger after a purchase. -/
def swapBatch : List (PipelineEvent Unit) :=
  [{ sampleBuy "t1" 100 with payload := () }, { sampleBuy "t2" 101 with
      eventType := "SwapExecuted"
      payload := () }]

/- The cursor moves past the swap, which no service has seen. -/
theorem swap_is_lost : ¬ DispatchComplete swapBatch := by
  intro hComplete
  have hCalled :=
    hComplete Unit idle 0 true ⟨⟨(), []⟩, [], none⟩ [.served, .served, .served, .served]
      { sampleBuy "t2" 101 with
        eventType := "SwapExecuted"
        payload := () } (by decide) 101 rfl (by simp [Covers])
      ⟨⟨101, "101-000"⟩, by decide +kernel, le_refl _⟩ (.stage .trades) (by decide)
  exact absurd hCalled (by decide +kernel)

end Indexer

end AccessLayer
