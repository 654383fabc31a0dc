import AccessLayer.Indexer.MultisigActions

/-
  Convergence of multisig actions.

  Signatures that arrive before their action are refused and
  delivered again; the end of an action that arrives before its
  action is swallowed.

  Main result: `actions_converge`
-/

-- Conditions on Deliveries
----

namespace AccessLayer

namespace Indexer

open Transactional Program

section

variable (env : MultisigEnv) (events : List MultisigChainEvent)

/- Distinct events, where an action is proposed first. -/
structure Orderly : Prop where
  distinct : (events.map PipelineEvent.id).Nodup
  proposedFirst : ∀ before event after actionId, events = before ++ event :: after →
    (finishedIn env actionId event).isSome ∨ (∃ signer, Signs env actionId signer event) →
    Proposed env events actionId → Proposed env before actionId

/-
  The end of an action is only written to a row that is there,
  with the time it carries, and not over a later end.
-/
def InOrder (world : MultisigWorld) (call : MultisigCall) : Prop :=
  ∀ action, changeOf env call.event = .ok (some (.finished action)) → call.outcome ≠ .rejected →
    Proposed env events action.actionId → (world.db.multisigAction.find? action.actionId).isSome ∧
      action.Timed ∧ ∀ before after, events = before ++ call.event :: after → ∀ later ∈ after,
        (finishedIn env action.actionId later).isSome → later.id ∉ world.executed

/- A delivery of one of the events. -/
def Delivers (_ : MultisigWorld) (call : MultisigCall) : Prop := call.event ∈ events

def DeliversInOrder (world : MultisigWorld) (call : MultisigCall) : Prop :=
  Delivers events world call ∧ InOrder env events world call

/- What holds of the rows, whatever the order. -/
structure MultisigSound (world : MultisigWorld) : Prop where
  action :
    ∀ actionId row, world.db.multisigAction.find? actionId = some row → Proposed env events actionId
  signature : ∀ actionId signer row, world.db.signature.find? (actionId, signer) = some row →
    (∃ event ∈ events, Signs env actionId signer event) ∧
      ∃ row, world.db.multisigAction.find? actionId = some row
  valid : ∀ event ∈ events, event.id ∈ world.returned → ∃ found, changeOf env event = .ok found
  proposed : ∀ event ∈ events, event.id ∈ world.returned → ∀ actionId, Proposes env actionId event →
    ∃ row, world.db.multisigAction.find? actionId = some row
  signed : ∀ event ∈ events, event.id ∈ world.returned →
    ∀ actionId signer, Signs env actionId signer event → ∃ row,
      world.db.signature.find? (actionId, signer) = some row
  finished : ∀ event ∈ events, event.id ∈ world.returned →
    ∀ actionId, (finishedIn env actionId event).isSome → event.id ∈ world.executed

/- The row of an action shows its ends that were written. -/
structure MultisigTracks (actionId : String) (world : MultisigWorld) : Prop where
  absent : world.db.multisigAction.find? actionId = none → ∀ event ∈ finals env actionId events,
    event.id ∉ world.executed
  shown : ∀ row, world.db.multisigAction.find? actionId = some row → row.outcome =
    (appliedOf PipelineEvent.id world.executed (finals env actionId events)).foldl
      (progress env actionId) .pending
  timed : ∀ event ∈ events, event.id ∈ world.executed →
    ∀ action, finishedIn env actionId event = some action → action.Timed

-- What Every Delivery Keeps
----

/- No row is deleted. -/
structure MultisigDb.Within (db db' : MultisigDb) : Prop where
  action : ∀ {actionId row}, db.multisigAction.find? actionId = some row →
    ∃ row', db'.multisigAction.find? actionId = some row'
  signature : ∀ {k row}, db.signature.find? k = some row → ∃ row', db'.signature.find? k = some row'

variable {env : MultisigEnv} {events : List MultisigChainEvent} {world : MultisigWorld}
variable {call : MultisigCall} {change : MultisigChange} {db : MultisigDb} {now : ℤ}

theorem MultisigDb.within_written (change : MultisigChange) :
    db.Within (written (change.write now ·) db) := by
  cases change with
  | proposed action =>
    constructor
    · intro actionId row hRow
      rw [find?_written_proposed]
      split
      · exact ⟨_, rfl⟩
      · exact ⟨row, hRow⟩
    · exact fun hRow => ⟨_, hRow⟩
  | signed action =>
    rcases @written_signed now db action with ⟨hSame, -⟩ | ⟨-, signature, hInsert, hWrite⟩
    · rw [hSame]
      exact ⟨fun hRow => ⟨_, hRow⟩, fun hRow => ⟨_, hRow⟩⟩
    · rw [written, hWrite]
      constructor
      · exact fun hRow => ⟨_, hRow⟩
      · intro k row hRow
        rw [Table.find?_insert? hInsert]
        split
        · exact ⟨_, rfl⟩
        · exact ⟨row, hRow⟩
  | finished action =>
    constructor
    · intro actionId row hRow
      rw [find?_written_finished, hRow]
      exact ⟨_, rfl⟩
    · exact fun hRow => ⟨_, hRow⟩

variable {actionId : String}

theorem action_written (hSound : MultisigSound env events world)
    (hEvent : call.event ∈ events) (hChange : changeOf env call.event = .ok (some change))
    {row : MultisigAction}
    (hRow : (written (change.write now ·) world.db).multisigAction.find? actionId = some row) :
    Proposed env events actionId := by
  cases change with
  | proposed action =>
    rw [find?_written_proposed] at hRow
    split at hRow
    · rename_i hSame
      exact ⟨_, hEvent, action, hChange, hSame.symm⟩
    · exact hSound.action actionId row hRow
  | signed action =>
    rcases @written_signed now world.db action with ⟨hSame, -⟩ | ⟨-, signature, hInsert, hWrite⟩
    · rw [hSame] at hRow
      exact hSound.action actionId row hRow
    · rw [written, hWrite] at hRow
      exact hSound.action actionId row hRow
  | finished action =>
    rw [find?_written_finished] at hRow
    rcases Option.map_eq_some_iff.mp hRow with ⟨old, hOld, -⟩
    exact hSound.action actionId old hOld

theorem signature_written (hSound : MultisigSound env events world)
    (hEvent : call.event ∈ events) (hChange : changeOf env call.event = .ok (some change))
    {signer : String} {row : ActionSignature}
    (hRow : (written (change.write now ·) world.db).signature.find? (actionId, signer) = some row) :
    (∃ event ∈ events, Signs env actionId signer event) ∧ ∃ row, (written (change.write now ·)
      world.db).multisigAction.find? actionId = some row := by
  have hKept (hOld : world.db.signature.find? (actionId, signer) = some row) :
      (∃ event ∈ events, Signs env actionId signer event) ∧ ∃ row, (written (change.write now ·)
        world.db).multisigAction.find? actionId = some row := by
    rcases hSound.signature actionId signer row hOld with ⟨hSigned, action, hAction⟩
    exact ⟨hSigned, (MultisigDb.within_written change).action hAction⟩
  cases change with
  | proposed action => exact hKept hRow
  | finished action => exact hKept hRow
  | signed action =>
    rcases @written_signed now world.db action with
      ⟨hSame, -⟩ | ⟨⟨own, hOwn⟩, signature, hInsert, hWrite⟩
    · rw [hSame] at hRow
      exact hKept hRow
    · have hFound := hRow
      rw [written, hWrite] at hFound
      change signature.find? (actionId, signer) = _ at hFound
      rw [Table.find?_insert? hInsert] at hFound
      split at hFound
      · rename_i hKey
        rcases Prod.mk.inj hKey with ⟨rfl, rfl⟩
        exact ⟨⟨_, hEvent, action, hChange, rfl, rfl⟩, (MultisigDb.within_written _).action hOwn⟩
      · exact hKept hFound

end

-- Steps
----

section

variable {env : MultisigEnv} {events : List MultisigChainEvent} {world world' : MultisigWorld}
variable {call : MultisigCall} {change : MultisigChange} {actionId : String}

theorem eq_of_id (hOrderly : Orderly env events) {event other : MultisigChainEvent}
    (hEvent : event ∈ events) (hOther : other ∈ events) (hId : event.id = other.id) :
    event = other := List.inj_on_of_nodup_map hOrderly.distinct hEvent hOther hId

variable {db : MultisigDb}

theorem signed_written {action : SignedAction} {now : ℤ}
    (hWritten : ∀ error, MultisigChange.write now db (.signed action) = .error error →
      error = .uniqueViolation) :
    ∃ row, (written (MultisigChange.write now · (.signed action))
      db).signature.find? (action.actionId, action.signer) = some row := by
  rcases @written_signed now db action with ⟨hSame, hTaken, error, hError⟩ |
    ⟨-, signature, hInsert, hWrite⟩
  · rw [hSame]
    exact hTaken error hError (hWritten error hError)
  · refine ⟨action.row now, ?_⟩
    rw [written, hWrite]
    change signature.find? (key (action.row now)) = _
    rw [Table.find?_insert? hInsert, if_pos rfl]

variable {returned : List String}

theorem sound_executed (hOrderly : Orderly env events)
    (hSound : MultisigSound env events world) (hEvent : call.event ∈ events)
    (hChange : changeOf env call.event = .ok (some change))
    (hReturned : returned = world.returned ∨ returned = call.event.id :: world.returned ∧ ∀ error,
      change.write call.now world.db = .error error → error = .uniqueViolation) :
    MultisigSound env events
      { db := written (change.write call.now ·) world.db
        executed := call.event.id :: world.executed
        returned } := by
  have hWithin := @MultisigDb.within_written world.db call.now change
  have hCases (event : MultisigChainEvent) (hMem : event ∈ events) (hId : event.id ∈ returned) :
      event.id ∈ world.returned ∨ event = call.event ∧ ∀ error,
        change.write call.now world.db = .error error → error = .uniqueViolation := by
    rcases hReturned with rfl | ⟨rfl, hWritten⟩
    · exact .inl hId
    · rcases List.mem_cons.mp hId with hSame | hOld
      · exact .inr ⟨eq_of_id hOrderly hMem hEvent hSame, hWritten⟩
      · exact .inl hOld
  constructor
  · intro actionId row hRow
    exact action_written hSound hEvent hChange hRow
  · intro actionId signer row hRow
    exact signature_written hSound hEvent hChange hRow
  · intro event hMem hId
    rcases hCases event hMem hId with hOld | ⟨rfl, -⟩
    · exact hSound.valid event hMem hOld
    · exact ⟨_, hChange⟩
  · intro event hMem hId actionId hProposes
    rcases hCases event hMem hId with hOld | ⟨rfl, -⟩
    · rcases hSound.proposed event hMem hOld actionId hProposes with ⟨row, hRow⟩
      exact hWithin.action hRow
    · rcases hProposes with ⟨action, hSame, rfl⟩
      cases hChange.symm.trans hSame
      exact ⟨_, (find?_written_proposed action _).trans (if_pos rfl)⟩
  · intro event hMem hId actionId signer hSigns
    rcases hCases event hMem hId with hOld | ⟨rfl, hWritten⟩
    · rcases hSound.signed event hMem hOld actionId signer hSigns with ⟨row, hRow⟩
      exact hWithin.signature hRow
    · rcases hSigns with ⟨action, hSame, rfl, rfl⟩
      cases hChange.symm.trans hSame
      exact signed_written hWritten
  · intro event hMem hId actionId hFinished
    rcases hCases event hMem hId with hOld | ⟨rfl, -⟩
    · exact List.mem_cons_of_mem _ (hSound.finished event hMem hOld actionId hFinished)
    · exact List.mem_cons_self

theorem sound_skipped (hOrderly : Orderly env events)
    (hSound : MultisigSound env events world) (hEvent : call.event ∈ events)
    (hNone : changeOf env call.event = .ok none) :
    MultisigSound env events { world with
        returned := call.event.id :: world.returned } := by
  have hCases (event : MultisigChainEvent) (hMem : event ∈ events)
      (hId : event.id ∈ call.event.id :: world.returned) :
      event.id ∈ world.returned ∨ changeOf env event = .ok none := by
    rcases List.mem_cons.mp hId with hSame | hOld
    · rw [eq_of_id hOrderly hMem hEvent hSame]
      exact .inr hNone
    · exact .inl hOld
  refine ⟨hSound.action, hSound.signature, ?_, ?_, ?_, ?_⟩
  · intro event hMem hId
    rcases hCases event hMem hId with hOld | hIdle
    · exact hSound.valid event hMem hOld
    · exact ⟨_, hIdle⟩
  · rintro event hMem hId actionId ⟨action, hChange, hAction⟩
    rcases hCases event hMem hId with hOld | hIdle
    · exact hSound.proposed event hMem hOld actionId ⟨action, hChange, hAction⟩
    · cases hIdle.symm.trans hChange
  · rintro event hMem hId actionId signer ⟨action, hChange, hAction⟩
    rcases hCases event hMem hId with hOld | hIdle
    · exact hSound.signed event hMem hOld actionId signer ⟨action, hChange, hAction⟩
    · cases hIdle.symm.trans hChange
  · intro event hMem hId actionId hFinished
    rcases hCases event hMem hId with hOld | hIdle
    · exact hSound.finished event hMem hOld actionId hFinished
    · rcases Option.isSome_iff_exists.mp hFinished with ⟨action, hAction⟩
      cases hIdle.symm.trans (finishedIn_eq_some_iff.mp hAction).1

theorem MultisigSound.moved (hOrderly : Orderly env events)
    (hSound : MultisigSound env events world) (hEvent : call.event ∈ events)
    (hMoved : world.Moved env call world') :
    MultisigSound env events world' := by
  cases hMoved with
  | skipped hNone => exact sound_skipped hOrderly hSound hEvent hNone
  | refused => exact hSound
  | executed hChange hOutcome hReturned =>
    exact sound_executed hOrderly hSound hEvent hChange hReturned

theorem id_ne_of_mem_finals (hOrderly : Orderly env events) (hEvent : call.event ∈ events)
    (hNone : finishedIn env actionId call.event = none) :
    ∀ event ∈ finals env actionId events, event.id ≠ call.event.id := by
  intro event hMem hId
  rcases List.mem_filter.mp hMem with ⟨hEvents, hFinal⟩
  rw [eq_of_id hOrderly hEvents hEvent hId, hNone] at hFinal
  cases hFinal

/- Such an event changes the row as far as it is not there. -/
theorem tracks_other (hOrderly : Orderly env events)
    (hTracks : MultisigTracks env events actionId world) (hEvent : call.event ∈ events)
    (hNone : finishedIn env actionId call.event = none)
    (hKept : ∀ row, world.db.multisigAction.find? actionId = some row →
      ∃ row', db.multisigAction.find? actionId = some row' ∧ row'.outcome = row.outcome)
    (hNew : ∀ row, world.db.multisigAction.find? actionId = none →
      db.multisigAction.find? actionId = some row → row.outcome = .pending) :
    MultisigTracks env events actionId
      { db
        executed := call.event.id :: world.executed
        returned } := by
  have hNe := id_ne_of_mem_finals hOrderly hEvent hNone
  have hSame := @appliedOf_cons_of_other _ _ _ PipelineEvent.id world.executed _ _ hNe
  have hAbsent (hRow : world.db.multisigAction.find? actionId = none) :
      appliedOf PipelineEvent.id world.executed
        (finals env actionId events) = [] := by
    rw [appliedOf, List.filter_eq_nil_iff]
    intro event hMem
    simpa using hTracks.absent hRow event hMem
  refine ⟨?_, ?_, ?_⟩
  · intro hRow event hMem hId
    cases hOld : world.db.multisigAction.find? actionId with
    | some row =>
      rcases hKept row hOld with ⟨row', hRow', -⟩
      cases hRow.symm.trans hRow'
    | none =>
      rcases List.mem_cons.mp hId with hOwn | hBefore
      · exact hNe event hMem hOwn
      · exact hTracks.absent hOld event hMem hBefore
  · intro row hRow
    rw [hSame]
    cases hOld : world.db.multisigAction.find? actionId with
    | some old =>
      rcases hKept old hOld with ⟨row', hRow', hOutcome⟩
      cases hRow.symm.trans hRow'
      rw [hOutcome]
      exact hTracks.shown old hOld
    | none =>
      rw [hAbsent hOld]
      exact hNew row hOld hRow
  · intro event hMem hId action hAction
    rcases List.mem_cons.mp hId with hOwn | hBefore
    · rw [eq_of_id hOrderly hMem hEvent hOwn, hNone] at hAction
      cases hAction
    · exact hTracks.timed event hMem hBefore action hAction

/- The end of an action is written over its earlier ends. -/
theorem tracks_finished (hOrderly : Orderly env events)
    (hTracks : MultisigTracks env events actionId world) (hEvent : call.event ∈ events)
    (hInOrder : InOrder env events world call) (hOutcome : call.outcome ≠ .rejected)
    (hProposed : Proposed env events actionId) {action : FinishedAction}
    (hChange : changeOf env call.event = .ok (some (.finished action)))
    (hAction : action.actionId = actionId) {returned : List String} :
    MultisigTracks env events actionId
      { db :=
          written (MultisigChange.write call.now · (.finished action))
            world.db
        executed := call.event.id :: world.executed
        returned } := by
  subst hAction
  rcases hInOrder action hChange hOutcome hProposed with ⟨hSome, hTimed, hLater⟩
  rcases Option.isSome_iff_exists.mp hSome with ⟨old, hOld⟩
  have hFinished : finishedIn env action.actionId call.event = some action :=
    finishedIn_eq_some_iff.mpr ⟨hChange, rfl⟩
  have hFind : (written (MultisigChange.write call.now · (.finished action))
      world.db).multisigAction.find? action.actionId = some (action.update call.now old) := by
    rw [find?_written_finished, hOld, Option.map_some, if_pos rfl]
  refine ⟨?_, ?_, ?_⟩
  · intro hRow
    cases hRow.symm.trans hFind
  · intro row hRow
    cases hRow.symm.trans hFind
    rcases List.append_of_mem hEvent with ⟨before, after, hSplit⟩
    have hFinals : finals env action.actionId events = finals env action.actionId before ++
        call.event :: finals env action.actionId after := by
      rw [hSplit, finals, List.filter_append, List.filter_cons_of_pos (by rw [hFinished]; rfl)]
      rfl
    have hDistinct : ((finals env action.actionId events).map PipelineEvent.id).Nodup :=
      hOrderly.distinct.sublist (List.filter_sublist.map _)
    rw [hFinals] at hDistinct ⊢
    rw [foldl_appliedOf_cons progress_progress hDistinct,
      ← hFinals, ← hTracks.shown old hOld, progress, hFinished]
    · exact hTimed.finish_eq call.now old.outcome
    · intro later hMem
      rcases List.mem_filter.mp hMem with ⟨hAfter, hFinal⟩
      exact hLater before after hSplit later hAfter hFinal
  · intro event hMem hId action' hAction'
    rcases List.mem_cons.mp hId with hOwn | hBefore
    · rw [eq_of_id hOrderly hMem hEvent hOwn, hFinished] at hAction'
      cases hAction'
      exact hTimed
    · exact hTracks.timed event hMem hBefore action' hAction'

theorem MultisigTracks.moved (hOrderly : Orderly env events)
    (hTracks : MultisigTracks env events actionId world) (hEvent : call.event ∈ events)
    (hInOrder : InOrder env events world call) (hProposed : Proposed env events actionId)
    (hMoved : world.Moved env call world') :
    MultisigTracks env events actionId world' := by
  cases hMoved with
  | skipped hNone => exact ⟨hTracks.absent, hTracks.shown, hTracks.timed⟩
  | refused => exact hTracks
  | @executed change returned hChange hOutcome hReturned =>
    cases hFinished : finishedIn env actionId call.event with
    | some action =>
      rcases finishedIn_eq_some_iff.mp hFinished with ⟨hSame, hAction⟩
      cases hChange.symm.trans hSame
      exact tracks_finished hOrderly hTracks hEvent hInOrder hOutcome hProposed hSame hAction
    | none =>
      apply tracks_other hOrderly hTracks hEvent hFinished
      · intro row hRow
        cases change with
        | proposed action =>
          refine ⟨row, ?_, rfl⟩
          rw [find?_written_proposed, hRow]
          split <;> rfl
        | signed action =>
          rcases @written_signed call.now world.db action
            with ⟨hSame, -⟩ | ⟨-, signature, -, hWrite⟩
          · rw [hSame]
            exact ⟨row, hRow, rfl⟩
          · rw [written, hWrite]
            exact ⟨row, hRow, rfl⟩
        | finished action =>
          refine ⟨row, ?_, rfl⟩
          rw [find?_written_finished, hRow, Option.map_some, if_neg]
          intro hSame
          cases hFinished.symm.trans (finishedIn_eq_some_iff.mpr ⟨hChange, hSame.symm⟩)
      · intro row hOld hRow
        cases change with
        | proposed action =>
          rw [find?_written_proposed, hOld] at hRow
          split at hRow
          · cases hRow
            rfl
          · cases hRow
        | signed action =>
          rcases @written_signed call.now world.db action
            with ⟨hSame, -⟩ | ⟨-, signature, -, hWrite⟩
          · rw [hSame, hOld] at hRow
            cases hRow
          · rw [written, hWrite] at hRow
            cases hOld.symm.trans hRow
        | finished action =>
          rw [find?_written_finished, hOld] at hRow
          cases hRow

end

-- Runs
----

section

variable {env : MultisigEnv} {events : List MultisigChainEvent} {world : MultisigWorld}
variable {calls : List MultisigCall} {actionId signer : String}

/- The handler of each event has returned at least once. -/
def AllReturned (events : List MultisigChainEvent) (world : MultisigWorld) : Prop :=
  ∀ event ∈ events, event.id ∈ world.returned

theorem sound_of_run {allowed : MultisigWorld → MultisigCall → Prop} (hOrderly : Orderly env events)
    (hDelivers : ∀ world call, allowed world call →
      Delivers events world call) (hRun : RunsTo (MultisigWorld.step env) allowed .start calls
      world) :
    MultisigSound env events world := by
  refine hRun.invariant (I := MultisigSound env events) ?_ ?_
  · constructor
    · intro actionId row hRow
      cases hRow
    · intro actionId signer row hRow
      cases hRow
    all_goals
      intro event _ hId
      cases hId
  · intro before call after hSound hAllowed hStep
    cases hStep
    exact hSound.moved hOrderly (hDelivers before call hAllowed)
      (before.moved env call)

theorem tracks_of_run (hOrderly : Orderly env events) (hProposed : Proposed env events actionId)
    (hRun : RunsTo (MultisigWorld.step env) (DeliversInOrder env events) .start calls world) :
    MultisigTracks env events actionId world := by
  refine hRun.invariant (I := MultisigTracks env events actionId) ?_ ?_
  · refine ⟨?_, ?_, ?_⟩
    · intro _ event _ hId
      cases hId
    · intro row hRow
      cases hRow
    · intro event _ hId
      cases hId
  · intro before call after hTracks hAllowed hStep
    cases hStep
    exact hTracks.moved hOrderly hAllowed.1 hAllowed.2 hProposed (before.moved env call)

/- Once all handlers have returned, only the events count. -/
theorem outcome_of_returned (hSound : MultisigSound env events world)
    (hTracks : MultisigTracks env events actionId world) (hProposed : Proposed env events actionId)
    (hReturned : AllReturned events world) :
    (world.db.multisigAction.find? actionId).map MultisigAction.outcome = some
      ((finals env actionId events).foldl (progress env actionId) .pending) := by
  rcases hProposed with ⟨event, hEvent, hProposes⟩
  rcases hSound.proposed event hEvent (hReturned event hEvent) actionId hProposes with ⟨row, hRow⟩
  rw [hRow, Option.map_some, hTracks.shown row hRow, appliedOf_eq_self]
  intro final hFinal
  rcases List.mem_filter.mp hFinal with ⟨hMem, hFinished⟩
  exact hSound.finished final hMem (hReturned final hMem) actionId hFinished

theorem outcome_of_not_proposed (hSound : MultisigSound env events world)
    (hNot : ¬ Proposed env events actionId) :
    world.db.multisigAction.find? actionId = none := by
  cases hRow : world.db.multisigAction.find? actionId with
  | none => rfl
  | some row => exact absurd (hSound.action actionId row hRow) hNot

theorem signed_iff_of_returned (hSound : MultisigSound env events world)
    (hReturned : AllReturned events world) :
    (world.db.signature.find? (actionId, signer)).isSome ↔
      ∃ event ∈ events, Signs env actionId signer event := by
  constructor
  · intro hSome
    rcases Option.isSome_iff_exists.mp hSome with ⟨row, hRow⟩
    exact (hSound.signature actionId signer row hRow).1
  · rintro ⟨event, hEvent, hSigns⟩
    rcases hSound.signed event hEvent (hReturned event hEvent)
      actionId signer hSigns with ⟨row, hRow⟩
    rw [hRow]
    rfl

/- Two such runs over the same events agree. -/
theorem sameAction_of_runs {calls' : List MultisigCall} {world' : MultisigWorld}
    (hOrderly : Orderly env events)
    (hRun : RunsTo (MultisigWorld.step env) (DeliversInOrder env events) .start calls world)
    (hRun' : RunsTo (MultisigWorld.step env) (DeliversInOrder env events) .start calls' world')
    (hReturned : AllReturned events world) (hReturned' : AllReturned events world') :
    SameAction actionId world.db world'.db := by
  have hSound : MultisigSound env events world := sound_of_run hOrderly (fun _ _ h => h.1) hRun
  have hSound' : MultisigSound env events world' := sound_of_run hOrderly (fun _ _ h => h.1) hRun'
  constructor
  · by_cases hProposed : Proposed env events actionId
    · rw [outcome_of_returned hSound (tracks_of_run hOrderly hProposed hRun) hProposed hReturned,
        outcome_of_returned hSound' (tracks_of_run hOrderly hProposed hRun') hProposed hReturned']
    · rw [outcome_of_not_proposed hSound hProposed, outcome_of_not_proposed hSound' hProposed]
  · intro signer
    rw [Bool.eq_iff_iff, signed_iff_of_returned hSound hReturned,
      signed_iff_of_returned hSound' hReturned']

-- The Order of the Chain
----

/- A statement that is served lets its handler return. -/
theorem returned_served {call : MultisigCall} {found : Option MultisigChange}
    (hChange : changeOf env call.event = .ok found) (hServed : call.outcome = .served)
    (hWritten : ∀ change ∈ found, ∀ error, change.write call.now world.db = .error error →
      error = .uniqueViolation) :
    (world.deliver env call).returned = call.event.id :: world.returned := by
  cases found with
  | none =>
    unfold MultisigWorld.deliver
    rw [handleMultisigEvent_eq_ret hChange]
  | some change =>
    unfold MultisigWorld.deliver
    rw [handleMultisigEvent_eq_stmt hChange]
    simp only [MultisigWorld.settle, hServed, Outcome.apply]
    apply if_pos
    cases hWrite : change.write call.now world.db with
    | ok answer => rfl
    | error error =>
      cases hWritten change rfl error hWrite
      rfl

theorem executed_deliver (env : MultisigEnv) (world : MultisigWorld) (call : MultisigCall) :
    ∀ id ∈ (world.deliver env call).executed, id = call.event.id ∨ id ∈ world.executed := by
  have hMoved := world.moved env call
  generalize world.deliver env call = after at hMoved ⊢
  intro id hId
  cases hMoved with
  | skipped hNone => exact .inr hId
  | refused => exact .inr hId
  | executed hChange hOutcome hReturned => exact List.mem_cons.mp hId

theorem chainOrder_append (clock : MultisigChainEvent → ℤ) (before : List MultisigChainEvent)
    (event : MultisigChainEvent) :
    chainOrder env clock (before ++ [event]) = (chainOrder env clock before).deliver env
      { event, now := clock event, outcome := .served } := by
  unfold chainOrder chainCalls
  rw [List.map_append, List.foldl_append]
  rfl

structure Deliverable (env : MultisigEnv) (events : List MultisigChainEvent) : Prop
    extends Orderly env events where
  valid : ∀ event ∈ events, ∃ found, changeOf env event = .ok found
  signed : ∀ event ∈ events, ∀ actionId signer, Signs env actionId signer event →
    Proposed env events actionId
  timed : ∀ event ∈ events, ∀ actionId action, Proposed env events actionId →
    finishedIn env actionId event = some action → action.Timed

/- A prefix that has been delivered in the order of the chain. -/
structure ChainDelivered (env : MultisigEnv) (clock : MultisigChainEvent → ℤ)
    (events before : List MultisigChainEvent) : Prop where
  run : RunsTo (MultisigWorld.step env) (DeliversInOrder env events)
    .start (chainCalls clock before) (chainOrder env clock before)
  returned : AllReturned before (chainOrder env clock before)
  executed : ∀ id ∈ (chainOrder env clock before).executed, id ∈ before.map PipelineEvent.id

variable {clock : MultisigChainEvent → ℤ} {before after : List MultisigChainEvent}

theorem row_of_prefix (hDeliverable : Deliverable env events)
    (hSplit : events = before ++ after) (hChain : ChainDelivered env clock events before)
    (hProposed : Proposed env before actionId) :
    ∃ row, (chainOrder env clock before).db.multisigAction.find? actionId = some row := by
  have hSound : MultisigSound env events (chainOrder env clock before) :=
    sound_of_run hDeliverable.toOrderly (fun _ _ h => h.1) hChain.run
  rcases hProposed with ⟨event, hEvent, hProposes⟩
  have hMem : event ∈ events := by
    rw [hSplit]
    exact List.mem_append_left _ hEvent
  exact hSound.proposed event hMem (hChain.returned event hEvent) actionId hProposes

variable {event : MultisigChainEvent}

theorem inOrder_next (hDeliverable : Deliverable env events)
    (hSplit : events = before ++ event :: after) (hChain : ChainDelivered env clock events before) :
    InOrder env events (chainOrder env clock before)
      { event, now := clock event, outcome := .served } := by
  have hEvent : event ∈ events := by
    rw [hSplit]
    exact List.mem_append_right _ List.mem_cons_self
  intro action hChange _ hProposed
  have hFinished : finishedIn env action.actionId event = some action :=
    finishedIn_eq_some_iff.mpr ⟨hChange, rfl⟩
  have hFirst : Proposed env before action.actionId :=
    hDeliverable.proposedFirst before event after _ hSplit (.inl (by rw [hFinished]; rfl)) hProposed
  have hRow := row_of_prefix hDeliverable hSplit hChain hFirst
  refine ⟨Option.isSome_iff_exists.mpr hRow, ?_, ?_⟩
  · exact hDeliverable.timed event hEvent _ action hProposed hFinished
  · intro before' after' hSplit' later hLater _ hExecuted
    have hSame : before = before' := by
      have hNodup : (before ++ event :: after).Nodup := by
        rw [← hSplit]
        exact List.Nodup.of_map _ hDeliverable.distinct
      rw [List.nodup_middle, List.nodup_cons, List.mem_append, not_or] at hNodup
      exact ((List.append_cons_inj_of_notMem hNodup.1.1
        hNodup.1.2).mp (hSplit.symm.trans hSplit')).1
    subst hSame
    have hDistinct := hDeliverable.distinct
    rw [hSplit', List.map_append, List.map_cons] at hDistinct
    exact (List.nodup_append.mp hDistinct).2.2 _ (hChain.executed _ hExecuted) _
      (List.mem_cons_of_mem _ (List.mem_map_of_mem hLater)) rfl

theorem returned_next (hDeliverable : Deliverable env events)
    (hSplit : events = before ++ event :: after) (hChain : ChainDelivered env clock events before) :
    (chainOrder env clock (before ++ [event])).returned =
      event.id :: (chainOrder env clock before).returned := by
  have hEvent : event ∈ events := by
    rw [hSplit]
    exact List.mem_append_right _ List.mem_cons_self
  rcases hDeliverable.valid event hEvent with ⟨found, hFound⟩
  rw [chainOrder_append]
  refine returned_served hFound rfl ?_
  rintro change hMem error hError
  cases hMem
  cases change with
  | proposed action => cases hError
  | finished action => cases hError
  | signed action =>
    have hSigns : Signs env action.actionId action.signer event := ⟨action, hFound, rfl, rfl⟩
    have hFirst : Proposed env before action.actionId :=
      hDeliverable.proposedFirst before event after _ hSplit (.inr ⟨_, hSigns⟩)
        (hDeliverable.signed event hEvent _ _ hSigns)
    rcases row_of_prefix hDeliverable hSplit hChain hFirst with ⟨row, hRow⟩
    simp only [MultisigChange.write, createSignature] at hError
    split at hError
    · cases hError
      rfl
    · have hOwn : (action.row (clock event)).actionId =
          action.actionId := rfl
      rw [hOwn, hRow] at hError
      cases hError

theorem chainDelivered_snoc (hDeliverable : Deliverable env events)
    (hSplit : events = before ++ event :: after) (hChain : ChainDelivered env clock events before) :
    ChainDelivered env clock events (before ++ [event]) := by
  have hEvent : event ∈ events := by
    rw [hSplit]
    exact List.mem_append_right _ List.mem_cons_self
  have hInOrder := inOrder_next hDeliverable hSplit hChain
  have hReturned := returned_next hDeliverable hSplit hChain
  refine ⟨?_, ?_, ?_⟩
  · have hCalls : chainCalls clock (before ++ [event]) = chainCalls clock before ++
        [{ event, now := clock event, outcome := .served }] :=
      List.map_append
    rw [hCalls]
    refine hChain.run.step ⟨hEvent, hInOrder⟩ ?_
    rw [chainOrder_append]
    rfl
  · intro other hOther
    rw [hReturned]
    rcases List.mem_append.mp hOther with hOld | hNew
    · exact List.mem_cons_of_mem _ (hChain.returned other hOld)
    · cases List.mem_singleton.mp hNew
      exact List.mem_cons_self
  · intro id hId
    rw [chainOrder_append] at hId
    rw [List.map_append]
    rcases executed_deliver env _ _ id hId with rfl | hOld
    · exact List.mem_append_right _ List.mem_cons_self
    · exact List.mem_append_left _ (hChain.executed id hOld)

theorem chainDelivered (hDeliverable : Deliverable env events) (hSplit : events = before ++ after) :
    ChainDelivered env clock events before := by
  induction before using List.reverseRecOn generalizing after with
  | nil =>
    refine ⟨.start, ?_, ?_⟩
    · intro event hEvent
      cases hEvent
    · intro id hId
      cases hId
  | append_singleton before event ih =>
    rw [List.append_assoc] at hSplit
    exact chainDelivered_snoc hDeliverable hSplit (ih hSplit)

end

-- Convergence
----

variable {env : MultisigEnv} {events : List MultisigChainEvent} {world : MultisigWorld}
variable {calls : List MultisigCall}

/-
  Whatever the order of the deliveries, their repetitions and
  their failures: if no end of an action is written too early or
  too late, each action ends as in the order of the chain.
-/
theorem actions_converge (hOrderly : Orderly env events)
    (hRun : RunsTo (MultisigWorld.step env) (DeliversInOrder env events) .start calls world)
    (hReturned : AllReturned events world) (clock : MultisigChainEvent → ℤ) (actionId : String) :
    SameAction actionId world.db (chainOrder env clock events).db := by
  have hSound : MultisigSound env events world := sound_of_run hOrderly (fun _ _ h => h.1) hRun
  have hDeliverable : Deliverable env events := by
    refine ⟨hOrderly, ?_, ?_, ?_⟩
    · intro event hEvent
      exact hSound.valid event hEvent (hReturned event hEvent)
    · intro event hEvent actionId signer hSigns
      rcases hSound.signed event hEvent (hReturned event hEvent)
        actionId signer hSigns with ⟨row, hRow⟩
      rcases hSound.signature actionId signer row hRow with ⟨-, action, hAction⟩
      exact hSound.action actionId action hAction
    · intro event hEvent actionId action hProposed hFinished
      refine (tracks_of_run hOrderly hProposed hRun).timed event hEvent ?_ action hFinished
      apply hSound.finished event hEvent (hReturned event hEvent) actionId
      rw [hFinished]
      rfl
  have hChain : ChainDelivered env clock events events :=
    chainDelivered hDeliverable (List.append_nil events).symm
  exact sameAction_of_runs hOrderly hRun hChain.run hReturned hChain.returned

/- Texts of times are read as nothing but a day. -/
def someDay : MultisigEnv where
  dateOf _ := some 86400000

def sampleFields : MultisigFields where
  actionId := some "a"
  changeType := none
  actionType := none
  payload := none
  params := none
  threshold := none
  totalSigners := none
  proposedBy := some "p"
  signer := none
  status := none
  proposedAt := none
  signedAt := none
  executedAt := none
  expiredAt := none
  occurredAt := some "1970-01-02"

def sampleMultisigEvent (eventType txHash : String) : MultisigChainEvent where
  toIndexerChainEvent := bareEvent eventType txHash 0 1
  payload := sampleFields

def sampleProposal : MultisigChainEvent := sampleMultisigEvent "ACTION_PROPOSED" "t"

def sampleFinal : MultisigChainEvent := sampleMultisigEvent "ACTION_EXECUTED" "u"

def sampleActionEvents : List MultisigChainEvent := [sampleProposal, sampleFinal]

variable {event : MultisigChainEvent}

theorem normalizedType_of_chars {chars : List Char}
    (hType : event.eventType = String.ofList chars) :
    normalizedType event = String.ofList ((chars.map Char.toUpper).filter (· ≠ '_')) := by
  rw [normalizedType, hType, String.toUpper, String.toList_map, String.toList_ofList]

theorem changeOf_sampleProposal :
    ∃ action, changeOf someDay sampleProposal = .ok (some (.proposed action)) ∧
      action.actionId = "a" := by
  have hType : normalizedType sampleProposal = "ACTIONPROPOSED" :=
    (normalizedType_of_chars rfl).trans (congrArg String.ofList (by decide))
  rw [changeOf, if_pos hType]
  exact ⟨_, rfl, rfl⟩

theorem changeOf_sampleFinal :
    changeOf someDay sampleFinal = .ok (some (.finished {
        actionId := "a"
        status := "executed"
        time := some 86400000 })) := by
  have hType : normalizedType sampleFinal = "ACTIONEXECUTED" :=
    (normalizedType_of_chars rfl).trans (congrArg String.ofList (by decide))
  rw [changeOf, if_neg (by rw [hType]; decide), if_neg (by rw [hType]; decide), if_pos hType]
  rfl

theorem split_sample {before after : List MultisigChainEvent}
    (hSplit : sampleActionEvents = before ++ event :: after) :
    event = sampleProposal ∧ before = [] ∨ event = sampleFinal ∧ before = [sampleProposal] ∧
      after = [] := by
  cases before with
  | nil =>
    cases hSplit
    exact .inl ⟨rfl, rfl⟩
  | cons first before =>
    cases before with
    | nil =>
      cases hSplit
      exact .inr ⟨rfl, rfl, rfl⟩
    | cons second before =>
      have hLength := congrArg List.length hSplit
      simp [sampleActionEvents] at hLength

/- One proposal that comes first. -/
theorem orderly_of_first {env : MultisigEnv} {first : MultisigChainEvent}
    {rest : List MultisigChainEvent} {action : ProposedAction}
    (hDistinct : ((first :: rest).map PipelineEvent.id).Nodup)
    (hFirst : changeOf env first = .ok (some (.proposed action)))
    (hRest : ∀ event ∈ rest, ∀ actionId, ¬ Proposes env actionId event) :
    Orderly env (first :: rest) where
  distinct := hDistinct
  proposedFirst := by
    rintro before event after actionId hSplit hEnds ⟨proposal, hProposal, hProposes⟩
    cases before with
    | nil =>
      cases hSplit
      rcases hEnds with hFinal | ⟨signer, signed, hSigned, -⟩
      · rcases Option.isSome_iff_exists.mp hFinal with ⟨final, hFinal⟩
        cases hFirst.symm.trans (finishedIn_eq_some_iff.mp hFinal).1
      · cases hFirst.symm.trans hSigned
    | cons head before =>
      cases hSplit
      rcases List.mem_cons.mp hProposal with rfl | hLater
      · exact ⟨_, List.mem_cons_self, hProposes⟩
      · exact absurd hProposes (hRest _ hLater _)

theorem final_proposes_nothing (actionId : String) : ¬ Proposes someDay actionId sampleFinal := by
  rintro ⟨action, hProposal, -⟩
  cases changeOf_sampleFinal.symm.trans hProposal

theorem orderly_sample : Orderly someDay sampleActionEvents := by
  rcases changeOf_sampleProposal with ⟨action, hAction, -⟩
  exact orderly_of_first (by decide) hAction
    (List.forall_mem_singleton.mpr final_proposes_nothing)

def sampleMultisigCall (event : MultisigChainEvent) (outcome : Outcome) : MultisigCall where
  event := event
  now := 0
  outcome := outcome

theorem inOrder_proposal (world : MultisigWorld) :
    DeliversInOrder someDay sampleActionEvents world
      (sampleMultisigCall sampleProposal .served) := by
  refine ⟨List.mem_cons_self, ?_⟩
  intro action hChange
  rcases changeOf_sampleProposal with ⟨proposal, hProposal, -⟩
  cases hProposal.symm.trans hChange

theorem inOrder_final {outcome : Outcome} (hRow : (world.db.multisigAction.find? "a").isSome) :
    DeliversInOrder someDay sampleActionEvents world (sampleMultisigCall sampleFinal outcome) := by
  refine ⟨List.mem_cons_of_mem _ List.mem_cons_self, ?_⟩
  intro action hChange _ _
  cases changeOf_sampleFinal.symm.trans hChange
  refine ⟨hRow, fun _ => rfl, ?_⟩
  intro before after hSplit later hLater
  rcases split_sample hSplit with ⟨hSame, -⟩ | ⟨-, -, rfl⟩
  · have hId : sampleFinal.id = sampleProposal.id := congrArg PipelineEvent.id hSame
    exact absurd hId (by decide)
  · cases hLater

/- The end of an action, lost and delivered again. -/
theorem actions_converge_sample :
    ∃ world, RunsTo (MultisigWorld.step someDay) (DeliversInOrder someDay sampleActionEvents) .start
      [sampleMultisigCall sampleProposal .served, sampleMultisigCall sampleFinal .lost,
        sampleMultisigCall sampleFinal .served] world ∧ SameAction "a" world.db
      (chainOrder someDay (fun _ => 0) sampleActionEvents).db ∧
      (world.db.multisigAction.find? "a").map MultisigAction.outcome = some {
          status := "executed"
          executedAt := some 86400000
          expiredAt := none } := by
  have hRun :
      RunsTo (MultisigWorld.step someDay) (DeliversInOrder someDay sampleActionEvents) .start
        [sampleMultisigCall sampleProposal .served, sampleMultisigCall sampleFinal .lost,
          sampleMultisigCall sampleFinal .served] _ :=
    ((RunsTo.start.step (inOrder_proposal _) (Option.some_get rfl).symm).step
      (inOrder_final (by decide +kernel)) (Option.some_get rfl).symm).step
        (inOrder_final (by decide +kernel)) (Option.some_get rfl).symm
  refine ⟨_, hRun, actions_converge orderly_sample hRun ?_ (fun _ => 0) "a", by decide +kernel⟩
  intro event hEvent
  rcases List.mem_cons.mp hEvent with rfl | hLast
  · decide +kernel
  · cases List.mem_singleton.mp hLast
    decide +kernel

/- An end that arrives first is swallowed. -/
theorem early_end_lost :
    ∃ world, RunsTo (MultisigWorld.step someDay) (Delivers sampleActionEvents) .start
      [sampleMultisigCall sampleFinal .served, sampleMultisigCall sampleProposal .served] world ∧
      AllReturned sampleActionEvents world ∧ ¬ SameAction "a" world.db
        (chainOrder someDay (fun _ => 0) sampleActionEvents).db := by
  have hDelivers (world : MultisigWorld) (event : MultisigChainEvent)
      (hEvent : event ∈ sampleActionEvents) :
      Delivers sampleActionEvents world (sampleMultisigCall event .served) := hEvent
  have hRun : RunsTo (MultisigWorld.step someDay) (Delivers sampleActionEvents) .start
      [sampleMultisigCall sampleFinal .served, sampleMultisigCall sampleProposal .served] _ :=
    (RunsTo.start.step (hDelivers _ sampleFinal (List.mem_cons_of_mem _ List.mem_cons_self))
      (Option.some_get rfl).symm).step (hDelivers _ sampleProposal List.mem_cons_self)
        (Option.some_get rfl).symm
  refine ⟨_, hRun, ?_, ?_⟩
  · intro event hEvent
    rcases List.mem_cons.mp hEvent with rfl | hLast
    · decide +kernel
    · cases List.mem_singleton.mp hLast
      decide +kernel
  · intro hSame
    exact absurd hSame.1 (by decide +kernel)

/- In any order, no proposal and no signature is lost or made up. -/
theorem signatures_converge (hOrderly : Orderly env events)
    (hRun : RunsTo (MultisigWorld.step env) (Delivers events) .start calls world)
    (hReturned : AllReturned events world) (actionId signer : String) :
    ((world.db.multisigAction.find? actionId).isSome ↔ Proposed env events actionId) ∧
      ((world.db.signature.find? (actionId, signer)).isSome ↔
        ∃ event ∈ events, Signs env actionId signer event) := by
  have hSound := sound_of_run hOrderly (fun _ _ h => h) hRun
  refine ⟨⟨fun hSome => ?_, ?_⟩, signed_iff_of_returned hSound hReturned⟩
  · rcases Option.isSome_iff_exists.mp hSome with ⟨row, hRow⟩
    exact hSound.action actionId row hRow
  · rintro ⟨event, hEvent, hProposes⟩
    rcases hSound.proposed event hEvent (hReturned event hEvent) actionId hProposes with ⟨row, hRow⟩
    rw [hRow]
    rfl

def sampleSignature : MultisigChainEvent :=
  { sampleMultisigEvent "ACTION_SIGNED" "s" with
    payload := { sampleFields with signer := some "s" } }

def signedActionEvents : List MultisigChainEvent := [sampleProposal, sampleSignature, sampleFinal]

theorem orderly_signed : Orderly someDay signedActionEvents := by
  rcases changeOf_sampleProposal with ⟨action, hAction, -⟩
  refine orderly_of_first (by decide) hAction (List.forall_mem_cons.mpr
    ⟨fun actionId => ?_, List.forall_mem_singleton.mpr final_proposes_nothing⟩)
  rintro ⟨proposal, hProposal, -⟩
  have hType : normalizedType sampleSignature = "ACTIONSIGNED" :=
    (normalizedType_of_chars rfl).trans (congrArg String.ofList (by decide))
  rw [changeOf, if_neg (by rw [hType]; decide), if_pos hType] at hProposal
  cases hProposal

/-
  The end and the signature arrive before the proposal; the
  signature is refused, and delivered again.
-/
theorem signatures_converge_sample :
    ∃ world, RunsTo (MultisigWorld.step someDay) (Delivers signedActionEvents) .start
      ([sampleFinal, sampleSignature, sampleProposal, sampleSignature].map
        (sampleMultisigCall · .served)) world ∧
      (world.db.signature.find? ("a", "s")).isSome ∧
      ((world.db.multisigAction.find? "a").isSome ↔ Proposed someDay signedActionEvents "a") ∧
      ((world.db.signature.find? ("a", "s")).isSome ↔
        ∃ event ∈ signedActionEvents, Signs someDay "a" "s" event) := by
  have hDelivers (world : MultisigWorld) {event} (hEvent : event ∈ signedActionEvents) :
      Delivers signedActionEvents world (sampleMultisigCall event .served) := hEvent
  have hSignature := List.mem_cons_of_mem sampleProposal (@List.mem_cons_self _ sampleSignature
    [sampleFinal])
  have hRun : RunsTo (MultisigWorld.step someDay) (Delivers signedActionEvents) .start
      ([sampleFinal, sampleSignature, sampleProposal, sampleSignature].map
        (sampleMultisigCall · .served)) _ :=
    (((RunsTo.start.step (hDelivers _ (List.mem_cons_of_mem _ (List.mem_cons_of_mem _
      List.mem_cons_self))) (Option.some_get rfl).symm).step (hDelivers _ hSignature)
      (Option.some_get rfl).symm).step (hDelivers _ List.mem_cons_self)
      (Option.some_get rfl).symm).step (hDelivers _ hSignature) (Option.some_get rfl).symm
  refine ⟨_, hRun, by decide +kernel, signatures_converge orderly_signed hRun ?_ "a" "s"⟩
  exact List.forall_mem_cons.mpr ⟨by decide +kernel, List.forall_mem_cons.mpr
    ⟨by decide +kernel, List.forall_mem_singleton.mpr (by decide +kernel)⟩⟩

end Indexer

end AccessLayer
