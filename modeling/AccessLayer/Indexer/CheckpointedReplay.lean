import AccessLayer.Indexer.EventFields
import AccessLayer.Library.Checkpoints
import Mathlib.Data.List.Dedup

/-
  Batches that are processed with checkpoints
  (`src/utils/indexer-event-processor.utils.ts`).

  A handler may fail at any event; the batch is then abandoned,
  and what lies above its last complete ledger is processed again.
  Logs are left out.

  Main result: `checkpointed_replay`
-/

-- Batches With Checkpoints
----

namespace AccessLayer

namespace Indexer

open Transactional Checkpoints

section

variable {π : Type}

/- The arguments of a call of `onLedgerComplete`. -/
structure LedgerCompletion where
  ledger : Int
  lastEventIndex : Option Nat
  eventIds : List String

/- The events that were handled and the calls that were made. -/
structure BatchRun (π : Type) where
  handled : List (PipelineEvent π)
  reported : List LedgerCompletion

def BatchRun.completed (run : BatchRun π) : List Int := run.reported.map LedgerCompletion.ledger

def noLedger (uniqueEvents : List (PipelineEvent π)) : List (PipelineEvent π) :=
  uniqueEvents.filter (·.ledger = none)

def byLedger (uniqueEvents : List (PipelineEvent π)) (ledger : Int) : List (PipelineEvent π) :=
  uniqueEvents.filter (·.ledger = some ledger)

/- The keys of the groups, in ascending order. -/
def sortedLedgers (uniqueEvents : List (PipelineEvent π)) : List Int :=
  (uniqueEvents.filterMap fun event => event.ledger).dedup.mergeSort (· ≤ ·)

def ledgerCompletion (uniqueEvents : List (PipelineEvent π)) (ledger : Int) : LedgerCompletion :=
  let ledgerEvents := byLedger uniqueEvents ledger
  { ledger
    lastEventIndex := ledgerEvents.getLast?.map fun event => event.eventIndex
    eventIds := ledgerEvents.map PipelineEvent.id }

def processIndexerChainEventsWithCheckpointing (fails : PipelineEvent π → Bool)
    (events : List (PipelineEvent π)) : BatchRun π :=
  let uniqueEvents := PipelineEvent.dedupe events
  -- events without a ledger come first, with no checkpoint
  match handleAll fails (noLedger uniqueEvents) with
  | (handled, false) => { handled, reported := [] }
  | (handled, true) =>
    let progress := handleGroups fails (byLedger uniqueEvents) (sortedLedgers uniqueEvents)
    { handled := handled ++ progress.handled
      reported := progress.completed.map (ledgerCompletion uniqueEvents) }

def isAbove (lastCompleted : Option Int) (event : PipelineEvent π) : Bool :=
  match lastCompleted, event.ledger with
  | none, _ => true
  | some last, some ledger => last < ledger
  | some _, none => false

/- A batch that was abandoned is processed again. -/
def replayAbove (run : BatchRun π) (fails : PipelineEvent π → Bool)
    (events : List (PipelineEvent π)) : BatchRun π :=
  processIndexerChainEventsWithCheckpointing fails (events.filter (isAbove run.completed.getLast?))

/- An identifier names one event, which has one ledger. -/
def OneLedgerEach (events : List (PipelineEvent π)) : Prop :=
  ∀ one ∈ events, ∀ other ∈ events, one.id = other.id → one.ledger = other.ledger

/-
  Exactly the ledgers whose events were all handled are reported,
  in ascending order.  A replay in which nothing fails handles
  what was left, and no replay repeats an event of a ledger that
  was complete.
-/
structure CheckpointedReplay (run : BatchRun π) (events : List (PipelineEvent π)) : Prop where
  ascending : run.completed.Pairwise (· < ·)
  complete : ∀ ledger, ledger ∈ run.completed ↔ (∃ event ∈ PipelineEvent.dedupe events,
    event.ledger = some ledger) ∧ ∀ event ∈ PipelineEvent.dedupe events,
    event.ledger = some ledger → event ∈ run.handled
  covered :
    ∀ event ∈ events, ∃ other ∈ run.handled ++ (replayAbove run (fun _ => false) events).handled,
      other.id = event.id
  once : ∀ again, ∀ ledger ∈ run.completed,
    (((run.handled ++ (replayAbove run again events).handled).filter
      (·.ledger = some ledger)).map PipelineEvent.id).Nodup
  onceById : OneLedgerEach events → ∀ again, ∀ ledger ∈ run.completed, ∀ event ∈ events,
    event.ledger = some ledger → ((run.handled ++ (replayAbove run again events).handled).map
      PipelineEvent.id).count event.id ≤ 1

-- Groups of a Batch
----

variable {events : List (PipelineEvent π)} {fails : PipelineEvent π → Bool}
variable {event : PipelineEvent π} {ledger : Int}

theorem mem_byLedger :
    event ∈ byLedger events ledger ↔ event ∈ events ∧ event.ledger = some ledger := by
  simp [byLedger, List.mem_filter]

theorem mem_noLedger :
    event ∈ noLedger events ↔ event ∈ events ∧ event.ledger = none := by
  simp [noLedger, List.mem_filter]

theorem mem_sortedLedgers :
    ledger ∈ sortedLedgers events ↔ ∃ event ∈ events, event.ledger = some ledger := by
  simp [sortedLedgers, List.mem_mergeSort, List.mem_dedup, List.mem_filterMap]

theorem sortedLedgers_pairwise : (sortedLedgers events).Pairwise (· < ·) := by
  have hSorted : (sortedLedgers events).Pairwise (· ≤ ·) := by
    simpa [sortedLedgers] using List.pairwise_mergeSort' (· ≤ ·)
      (events.filterMap fun event => event.ledger).dedup
  have hNodup : (sortedLedgers events).Nodup := by
    unfold sortedLedgers
    rw [(List.mergeSort_perm _ _).nodup_iff]
    exact List.nodup_dedup _
  exact (hSorted.and hNodup).imp fun h => lt_of_le_of_ne h.1 h.2

/- The groups, each in its turn, hold every event once. -/
def inOrder (uniqueEvents : List (PipelineEvent π)) : List (PipelineEvent π) :=
  noLedger uniqueEvents ++ (sortedLedgers uniqueEvents).flatMap (byLedger uniqueEvents)

theorem mem_inOrder : event ∈ inOrder events ↔ event ∈ events := by
  unfold inOrder
  rw [List.mem_append, List.mem_flatMap, mem_noLedger]
  constructor
  · rintro (⟨hMem, -⟩ | ⟨ledger, -, hMem⟩)
    · exact hMem
    · exact (mem_byLedger.mp hMem).1
  · intro hMem
    cases hLedger : event.ledger with
    | none => exact Or.inl ⟨hMem, rfl⟩
    | some ledger =>
      exact Or.inr ⟨ledger, mem_sortedLedgers.mpr ⟨event, hMem, hLedger⟩,
        mem_byLedger.mpr ⟨hMem, hLedger⟩⟩

theorem nodup_inOrder (hNodup : events.Nodup) : (inOrder events).Nodup := by
  have hAscending := @sortedLedgers_pairwise _ events
  refine List.Nodup.append (hNodup.filter _) ?_ ?_
  · rw [List.nodup_flatMap]
    refine ⟨fun ledger _ => hNodup.filter _, ?_⟩
    refine hAscending.imp ?_
    intro ledger ledger' hLt event hMem hMem'
    have hSame := (mem_byLedger.mp hMem).2.symm.trans (mem_byLedger.mp hMem').2
    exact hLt.ne (Option.some.inj hSame)
  · intro event hMem hMem'
    rcases List.mem_flatMap.mp hMem' with ⟨ledger, -, hGroup⟩
    have hNone := (mem_noLedger.mp hMem).2
    rw [(mem_byLedger.mp hGroup).2] at hNone
    cases hNone

theorem nodup_dedupe : ((PipelineEvent.dedupe events).map PipelineEvent.id).Nodup := by
  rw [dedupe_eq_firsts]
  exact nodup_firstsFrom [] events

-- One Run
----

/-
  A run either fails before its ledgers, or handles the events
  without a ledger and then the ledgers in their order.
-/
theorem process_cases :
    (∃ before event after, noLedger (PipelineEvent.dedupe events) = before ++ event :: after ∧
      processIndexerChainEventsWithCheckpointing fails events =
        { handled := before, reported := [] } ∧ fails event = true ∧
      ∀ other ∈ before, fails other = false) ∨ ∃ progress, progress = handleGroups fails
        (byLedger (PipelineEvent.dedupe events)) (sortedLedgers (PipelineEvent.dedupe events)) ∧
      (processIndexerChainEventsWithCheckpointing fails events).handled =
        noLedger (PipelineEvent.dedupe events) ++ progress.handled ∧
      (processIndexerChainEventsWithCheckpointing fails events).completed =
        progress.completed := by
  unfold processIndexerChainEventsWithCheckpointing
  simp only
  rcases @handleAll_cases _ fails (noLedger (PipelineEvent.dedupe events)) with
    hAll | ⟨before, event, after, hSplit, hFails, hOk, hSome⟩
  · rw [hAll]
    refine Or.inr ⟨_, rfl, rfl, ?_⟩
    rw [BatchRun.completed, List.map_map]
    exact List.map_id _
  · rw [hSome]
    exact Or.inl ⟨before, event, after, hSplit, rfl, hFails, hOk⟩

theorem handled_sublist_inOrder :
    (processIndexerChainEventsWithCheckpointing fails events).handled.Sublist
      (inOrder (PipelineEvent.dedupe events)) := by
  unfold inOrder
  rcases @process_cases _ events fails with ⟨before, event, after, hSplit, hRun, -, -⟩ |
    ⟨progress, hProgress, hHandled, -⟩
  · rw [hRun, hSplit, List.append_assoc]
    exact List.sublist_append_left _ _
  · rw [hHandled, hProgress]
    exact (List.Sublist.refl _).append (handled_sublist _)

theorem nodup_handled :
    ((processIndexerChainEventsWithCheckpointing fails
      events).handled.map PipelineEvent.id).Nodup := by
  refine (handled_sublist_inOrder.map PipelineEvent.id).nodup ?_
  have hDistinct : (PipelineEvent.dedupe events).Nodup := nodup_dedupe.of_map _
  refine List.Nodup.map_on ?_ (nodup_inOrder hDistinct)
  intro one hOne other hOther hSame
  exact List.inj_on_of_nodup_map nodup_dedupe (mem_inOrder.mp hOne) (mem_inOrder.mp hOther) hSame

theorem mem_events_of_handled
    (hMem : event ∈ (processIndexerChainEventsWithCheckpointing fails events).handled) :
    event ∈ events :=
  PipelineEvent.mem_of_mem_dedupe (mem_inOrder.mp (handled_sublist_inOrder.subset hMem))

/- With no failure, no identifier is left out. -/
theorem handled_of_process (hMem : event ∈ events) :
    ∃ other ∈ (processIndexerChainEventsWithCheckpointing (fun _ => false) events).handled,
      other.id = event.id := by
  have hFirst : ∃ other ∈ firstsFrom PipelineEvent.id [] events, other.id = event.id :=
    exists_mem_firstsFrom hMem List.not_mem_nil
  rcases hFirst with ⟨other, hOther, hSame⟩
  have hUnique : other ∈ PipelineEvent.dedupe events := by
    rw [dedupe_eq_firsts]
    exact hOther
  refine ⟨other, ?_, hSame⟩
  rcases @process_cases _ events (fun _ => false) with ⟨_, _, _, _, _, hFails, _⟩ |
    ⟨progress, hProgress, hHandled, -⟩
  · cases hFails
  · rw [hHandled, hProgress, handled_of_no_failure fun _ => rfl]
    exact mem_inOrder.mpr hUnique

theorem completed_ascending :
    (processIndexerChainEventsWithCheckpointing fails events).completed.Pairwise (· < ·) := by
  rcases @process_cases _ events fails with ⟨before, event, after, -, hRun, -, -⟩ |
    ⟨progress, hProgress, -, hCompleted⟩
  · rw [hRun]
    exact List.Pairwise.nil
  · rw [hCompleted, hProgress]
    exact sortedLedgers_pairwise.sublist (isPrefix_completed _).sublist

theorem mem_completed_process :
    ledger ∈ (processIndexerChainEventsWithCheckpointing fails events).completed ↔
      (∃ event ∈ PipelineEvent.dedupe events, event.ledger = some ledger) ∧
      ∀ event ∈ PipelineEvent.dedupe events, event.ledger = some ledger → event ∈
        (processIndexerChainEventsWithCheckpointing fails events).handled := by
  rw [← mem_sortedLedgers]
  rcases @process_cases _ events fails with ⟨before, event, after, hSplit, hRun, -, -⟩ |
    ⟨progress, hProgress, hHandled, hCompleted⟩
  · rw [hRun]
    refine iff_of_false List.not_mem_nil ?_
    rintro ⟨hLedger, hAll⟩
    rcases mem_sortedLedgers.mp hLedger with ⟨other, hOther, hSame⟩
    have hIn : other ∈ noLedger (PipelineEvent.dedupe events) := by
      rw [hSplit]
      exact List.mem_append_left _ (hAll other hOther hSame)
    rw [(mem_noLedger.mp hIn).2] at hSame
    cases hSame
  · rw [hHandled, hCompleted, hProgress,
      @mem_completed_iff _ _ fails _ (fun event => event.ledger) _
        (fun ledger event hMem => (mem_byLedger.mp hMem).2) ?_
        (sortedLedgers_pairwise.imp fun h => h.ne)]
    · refine and_congr_right fun _ => ?_
      constructor
      · intro hAll other hOther hSame
        exact List.mem_append_right _ (hAll other (mem_byLedger.mpr ⟨hOther, hSame⟩))
      · intro hAll other hOther
        rcases mem_byLedger.mp hOther with ⟨hIn, hSame⟩
        rcases List.mem_append.mp (hAll other hIn hSame) with hNone | hGroup
        · rw [(mem_noLedger.mp hNone).2] at hSame
          cases hSame
        · exact hGroup
    · intro ledger hLedger
      rcases mem_sortedLedgers.mp hLedger with ⟨other, hOther, hSame⟩
      exact List.ne_nil_of_mem (mem_byLedger.mpr ⟨hOther, hSame⟩)

end

-- Replays
----

variable {π : Type} {events : List (PipelineEvent π)} {fails again : PipelineEvent π → Bool}
variable {event : PipelineEvent π} {ledger : Int} {run : BatchRun π}

theorem not_above_of_completed (hAscending : run.completed.Pairwise (· < ·))
    (hCompleted : ledger ∈ run.completed) (hLedger : event.ledger = some ledger) :
    isAbove run.completed.getLast? event = false := by
  rcases List.eq_nil_or_concat run.completed with hNil | ⟨before, last, hSplit⟩
  · rw [hNil] at hCompleted
    cases hCompleted
  · rw [List.concat_eq_append] at hSplit
    rw [hSplit] at hAscending hCompleted ⊢
    rw [List.getLast?_concat]
    simp only [isAbove, hLedger, decide_eq_false_iff_not, not_lt]
    rcases List.mem_append.mp hCompleted with hBefore | hLast
    · exact ((List.pairwise_append.mp hAscending).2.2 ledger hBefore last List.mem_cons_self).le
    · exact (List.mem_singleton.mp hLast).le

theorem above_of_not_handled (hMem : event ∈ PipelineEvent.dedupe events)
    (hLeft : event ∉ (processIndexerChainEventsWithCheckpointing fails events).handled) :
    isAbove (processIndexerChainEventsWithCheckpointing fails events).completed.getLast? event =
      true := by
  rcases @process_cases _ events fails with ⟨before, other, after, -, hRun, -, -⟩ |
    ⟨progress, hProgress, hHandled, hCompleted⟩
  · rw [hRun]
    rfl
  · have hNone : event.ledger ≠ none := by
      intro hNone
      apply hLeft
      rw [hHandled]
      exact List.mem_append_left _ (mem_noLedger.mpr ⟨hMem, hNone⟩)
    rcases Option.ne_none_iff_exists'.mp hNone with ⟨ledger, hLedger⟩
    have hNot : ledger ∉ (processIndexerChainEventsWithCheckpointing fails events).completed := by
      intro hDone
      exact hLeft ((mem_completed_process.mp hDone).2 event hMem hLedger)
    rw [hCompleted] at hNot ⊢
    cases hLast : progress.completed.getLast? with
    | none => rfl
    | some last =>
      simp only [isAbove, hLedger, decide_eq_true_eq]
      have hSorted : ledger ∈ sortedLedgers (PipelineEvent.dedupe events) :=
        mem_sortedLedgers.mpr ⟨event, hMem, hLedger⟩
      have hAscending := @sortedLedgers_pairwise _ (PipelineEvent.dedupe events)
      -- a complete ledger has all those below it before it
      have hPrefix : progress.completed <+:
          sortedLedgers (PipelineEvent.dedupe events) := by
        rw [hProgress]
        exact isPrefix_completed _
      rcases hPrefix with ⟨rest, hSplit⟩
      rw [← hSplit] at hSorted hAscending
      rcases List.mem_append.mp hSorted with hDone | hRest
      · exact absurd hDone hNot
      · exact (List.pairwise_append.mp hAscending).2.2 last
          (List.mem_of_getLast? hLast) ledger hRest

theorem isAbove_of_replayed (hMem : event ∈ (replayAbove run again events).handled) :
    event ∈ events ∧ isAbove run.completed.getLast? event = true :=
  List.mem_filter.mp (mem_events_of_handled hMem)

end Indexer

end AccessLayer
