import AccessLayer.Indexer.EventFields
import AccessLayer.Library.Latest
import AccessLayer.Library.NewestWins
import Mathlib.Data.Prod.Lex

/-
  Handlers that check an event and write it to a row if it is
  newer than the last one written there.

  Main declaration: `row_of_latest`
-/

-- Handlers
----

namespace AccessLayer

namespace Indexer

open Transactional Program

variable {σ φ υ : Type}

/- Apply an event that passes its checks, put any other aside. -/
def processParsed (parse : PipelineEvent φ → Except String υ)
    (reject : PipelineEvent φ → String → σ → Except IndexerError (Bool × σ))
    (apply : υ → Program σ IndexerError Bool)
    (event : PipelineEvent φ) : Program σ IndexerError Bool :=
  match parse event with
  | .error reason => execute .database (reject event reason)
  | .ok update => apply update

/- Events of other types are ignored. -/
def handleOwn (isOwn : PipelineEvent φ → Bool)
    (process : PipelineEvent φ → Program σ IndexerError Bool)
    (event : PipelineEvent φ) : Program σ IndexerError Unit :=
  if isOwn event then do
    let _ ← process event
  else pure ()

def carriedUpdate (isOwn : PipelineEvent φ → Bool) (parse : PipelineEvent φ → Except String υ)
    (event : PipelineEvent φ) : Option υ :=
  if isOwn event then (parse event).toOption else none

/- Events are compared by ledger, then by index. -/
abbrev EventPosition := ℤ ×ₗ Nat

/- The batches hold no other events, and each event was handled by a batch that has ended. -/
structure Delivered (events : List (PipelineEvent φ)) (batches : List (List (PipelineEvent φ)))
    (pool : Pool σ IndexerError Unit) : Prop where
  sound : ∀ batch ∈ batches, ∀ event ∈ batch, event ∈ events
  complete : ∀ event ∈ events, ∃ (i : Nat) (batch : List (PipelineEvent φ))
    (call : Call σ IndexerError Unit), batches[i]? = some batch ∧
      event ∈ PipelineEvent.dedupe batch ∧ pool.calls[i]? = some call ∧ call.program = .ret ()

def endedWell (call : Call σ IndexerError Unit) : Bool :=
  match call.program with
  | .ret _ => true
  | _ => false

variable {events : List (PipelineEvent φ)} {batches : List (List (PipelineEvent φ))}
variable {pool : Pool σ IndexerError Unit}

theorem delivered_of_endedWell {batch : List (PipelineEvent φ)} (i : Nat) (hSound :
    ∀ batch ∈ batches, ∀ event ∈ batch, event ∈ events) (hBatch : batches[i]? = some batch)
    (hAll : ∀ event ∈ events, event ∈ PipelineEvent.dedupe batch)
    (hEnded : pool.calls[i]?.any endedWell = true) :
    Delivered events batches pool where
  sound := hSound
  complete := by
    intro event hEvent
    rcases (Option.any_eq_true _ _).mp hEnded with ⟨call, hCall, hWell⟩
    refine ⟨i, batch, call, hBatch, hAll event hEvent, hCall, ?_⟩
    unfold endedWell at hWell
    split at hWell
    · assumption
    · cases hWell

-- Rows After a Run
----

variable {ρ κ π : Type} [Keyed ρ κ] [LinearOrder π] [DecidableEq κ]
variable {W : NewestWins σ IndexerError υ ρ κ π} {I : ρ → Prop} {isOwn : PipelineEvent φ → Bool}
variable {parse : PipelineEvent φ → Except String υ}
variable {reject : PipelineEvent φ → String → σ → Except IndexerError (Bool × σ)}

theorem promises_handleOwn {event : PipelineEvent φ} (hFault : W.fault = .database)
    (hReject : ∀ reason s a t, reject event reason s = .ok (a, t) → W.table t = W.table s)
    (hWrites : ∀ u ∈ carriedUpdate isOwn parse event, W.Writes I u) (s : σ) :
    (handleOwn isOwn (processParsed parse reject W.apply) event).Promises (W.moves I)
      (fun _ => W.Applied (carriedUpdate isOwn parse) event) (fun _ _ => True) s := by
  unfold NewestWins.Applied
  unfold carriedUpdate at hWrites ⊢
  unfold handleOwn processParsed
  split
  · rename_i hOwn
    rw [if_pos hOwn] at hWrites
    cases hParsed : parse event with
    | error reason =>
      have hElsewhere := NewestWins.promises_elsewhere (W := W) (I := I) (s := s) (hReject reason)
      rw [hFault] at hElsewhere
      refine hElsewhere.bind ?_
      intro _ _ _
      refine promises_pure ?_ ?_
      · rintro _ _ _ _ _ ⟨⟩
      · rintro _ ⟨⟩
    | ok update =>
      rw [hParsed] at hWrites
      refine (NewestWins.promises_apply (hWrites update rfl)).bind ?_
      intro _ t hReached
      refine promises_pure ?_ ?_
      · intro t u hMove hAll other hOther
        exact NewestWins.stable_reached t u hMove (hAll other hOther)
      · intro other hOther
        cases hOther
        exact hReached
  · rintro _ _ _ ⟨⟩

variable {carries : υ → ρ → Prop} {s : σ}

/-
  In every run that has delivered the events, each row shows a
  newest update, where it showed none at the start or one of
  them.
-/
theorem exists_newest_of_delivered {labels : List FaultMove} {u : υ} (hFault : W.fault = .database)
    (hReject : ∀ event reason s a t, reject event reason s = .ok (a, t) → W.table t = W.table s)
    (hRow : ∀ u, carries u (W.row u)) (hOverwrite : ∀ u r, carries u (W.overwrite u r)) (hStart :
      ∀ r ∈ (W.table s).rows, W.Shows (events.filterMap (carriedUpdate isOwn parse)) carries r)
    (hRun : RunsTo Pool.attempt (fun _ _ => True) (Pool.start s (batches.map fun batch => forEach
      (handleOwn isOwn (processParsed parse reject W.apply)) (PipelineEvent.dedupe batch)))
      labels pool) (hDelivered : Delivered events batches pool)
    (hUpdate : u ∈ events.filterMap (carriedUpdate isOwn parse)) :
    ∃ newest ∈ events.filterMap (carriedUpdate isOwn parse), ∃ r, W.target newest = W.target u ∧
      (∀ other ∈ events.filterMap (carriedUpdate isOwn parse), W.target other = W.target u →
        W.position other ≤ W.position newest) ∧
      (W.table pool.store).find? (W.target u) = some r ∧
      carries newest r := by
  have hHandle : ∀ batch ∈ batches.map PipelineEvent.dedupe, ∀ event ∈ batch, ∀ t, (handleOwn isOwn
      (processParsed parse reject W.apply) event).Promises (W.moves (W.Shows
        (events.filterMap (carriedUpdate isOwn parse)) carries))
      (fun _ => W.Applied (carriedUpdate isOwn parse) event)
      (fun _ _ => True) t := by
    intro batch hBatch event hEvent t
    rcases List.mem_map.mp hBatch with ⟨raw, hRaw, rfl⟩
    rw [dedupe_eq_firsts] at hEvent
    have hMem := hDelivered.sound raw hRaw event (mem_of_mem_firstsFrom hEvent).1
    refine promises_handleOwn hFault (hReject event) ?_ t
    intro other hOther
    exact NewestWins.writes_shows (List.mem_filterMap.mpr ⟨event, hMem, hOther⟩)
      (hRow other) (hOverwrite other)
  have hPrograms :
      (batches.map fun batch => forEach (handleOwn isOwn (processParsed parse reject W.apply))
        (PipelineEvent.dedupe batch)) = (batches.map PipelineEvent.dedupe).map (forEach
          (handleOwn isOwn (processParsed parse reject W.apply))) := by
    rw [List.map_map]
    rfl
  rw [hPrograms] at hRun
  rcases NewestWins.applied_of_run hHandle hRun with ⟨hMoved, hApplied⟩
  refine NewestWins.exists_newest ?_ (hMoved.2 hStart) hUpdate
  intro other hOther
  rcases List.mem_filterMap.mp hOther with ⟨event, hEvent, hCarried⟩
  rcases hDelivered.complete event hEvent with ⟨i, batch, call, hBatch, hMem, hCall, hEnded⟩
  refine hApplied i (PipelineEvent.dedupe batch) call ?_ hCall hEnded event hMem other hCarried
  rw [List.getElem?_map, hBatch]
  rfl

theorem row_of_latest {place : υ → EventPosition} {updates : List υ} {k : κ} {latest : υ}
    (hPlace : ∀ u u', W.position u ≤ W.position u' → place u ≤ place u')
    (hDistinct : DistinctPositions place (updates.filter (W.target · = k)))
    (hLatest : latestOf place (updates.filter (W.target · = k)) = some latest)
    (hNewest : ∀ u ∈ updates, ∃ newest ∈ updates, ∃ r, W.target newest = W.target u ∧
      (∀ other ∈ updates, W.target other = W.target u →
        W.position other ≤ W.position newest) ∧ (W.table s).find? (W.target u) = some r ∧
      carries newest r) :
    ∃ r, (W.table s).find? k = some r ∧ carries latest r := by
  have hMem := mem_of_latestOf hLatest
  rcases List.mem_filter.mp hMem with ⟨hUpdate, hTarget⟩
  have hKey := of_decide_eq_true hTarget
  rcases hNewest latest hUpdate with ⟨newest, hIn, r, hSame, hMax, hRow, hCarries⟩
  rw [hKey] at hSame hRow
  have hOwn : newest ∈ updates.filter (W.target · = k) :=
    List.mem_filter.mpr ⟨hIn, decide_eq_true hSame⟩
  have hEqual : place newest = place latest :=
    (position_le_of_latestOf hLatest hOwn).antisymm (hPlace _ _ (hMax latest hUpdate rfl))
  rw [← hDistinct newest hOwn latest hMem hEqual]
  exact ⟨r, hRow, hCarries⟩

end Indexer

end AccessLayer
