import AccessLayer.Indexer.Dispatch
import AccessLayer.Library.Phases

/-
  The indexed-ledger cursor over runs of batches
  (`src/modules/indexer/indexer-pipeline.service.ts`,
  `src/modules/indexer/referral-tier-indexer.service.ts`).

  Batches are calls of a pool: they may begin at any time, be
  interleaved, crash, and have their statements fail.  A batch
  writes the cursor without a look at the one that is stored.

  Main result: `cursor_never_decreases`
-/

-- Batches
----

namespace AccessLayer

namespace Indexer

open Transactional Program

variable {σ π : Type}

def processReferralTierUpgradedEvents (upgrade : PipelineEvent π → Program σ IndexerError Unit)
    (events : List (PipelineEvent π)) : PipelineM σ Unit := do
  (forEach upgrade (PipelineEvent.dedupe events)).zoom PipelineDb.tablesPart
  checkpointHighestLedger events

/- A batch for the pipeline or for the referral tier indexer. -/
inductive Batch (σ π : Type) where
  | pipeline (services : Services σ π) (asOf : Int) (advanceCursor : Bool)
    (events : List (PipelineEvent π))
  | referralTier
    (upgrade : PipelineEvent π → Program σ IndexerError Unit) (events : List (PipelineEvent π))

namespace Batch

def events : Batch σ π → List (PipelineEvent π)
  | .pipeline _ _ _ events => events
  | .referralTier _ events => events

def program : Batch σ π → PipelineM σ Unit
  | .pipeline services asOf advanceCursor events =>
    processIndexerEvents services asOf advanceCursor events
  | .referralTier upgrade events => processReferralTierUpgradedEvents upgrade events

/- The batch has come to the write of its highest ledger. -/
def AtCheckpoint (batch : Batch σ π) (ledger : Int) (program : PipelineM σ Unit) : Prop :=
  batchLedger (PipelineEvent.chain batch.events) = some ledger ∧
    program = (upsertIndexedLedger ledger).zoom PipelineDb.cursorPart

end Batch

/- The cursor is not behind where it was. -/
def CursorLe (before after : Option IndexedLedger) : Prop :=
  ∀ indexed, before = some indexed → ∃ indexed', after = some indexed' ∧
    indexed.ledger ≤ indexed'.ledger

/- A batch that writes the cursor is not older than the cursor that is stored. -/
def Forward (batches : List (Batch σ π)) (pool : Pool (PipelineDb σ) IndexerError Unit) :
    FaultMove → Prop
  | .attempt i _ =>
    ∀ batch call ledger, batches[i]? = some batch → pool.calls[i]? = some call →
      batch.AtCheckpoint ledger call.program →
        ∀ indexed, pool.store.indexedLedger = some indexed → indexed.ledger ≤ ledger
  | .crash _ => True

-- Writes of the Cursor
----

/- What a call of the pool may do to the cursor. -/
def ownCheckpoint (batches : List (Batch σ π)) (i : Nat) (program : PipelineM σ Unit) : Prop :=
  ∃ batch ledger, batches[i]? = some batch ∧ batch.AtCheckpoint ledger program

theorem framesExcept_checkpoint {marked : PipelineM σ Unit → Prop} {events : List (PipelineEvent π)}
    (hMarked : ∀ ledger, batchLedger (PipelineEvent.chain events) = some ledger → marked
      ((upsertIndexedLedger ledger).zoom PipelineDb.cursorPart)) :
    (checkpointHighestLedger events).FramesExcept PipelineDb.indexedLedger marked := by
  unfold checkpointHighestLedger
  split
  · rename_i ledger hLedger
    exact ⟨Or.inr (hMarked ledger hLedger), fun _ => trivial, trivial⟩
  · trivial

theorem frames_markExpiredSwaps (asOf : Int) :
    (markExpiredSwaps asOf : PipelineM σ Unit).Frames PipelineDb.indexedLedger (fun _ => True) := by
  apply frames_tryCatch
  · apply frames_execute
    intro db _ db' _ hWrite
    cases hWrite
    rfl
  · exact fun _ => frames_pure ()

theorem frames_runStage (services : Services σ π) (events : List (PipelineEvent π))
    (stage : Stage) :
    (runStage services events stage).Frames PipelineDb.indexedLedger (fun _ => True) := by
  unfold runStage
  split
  · exact frames_pure ()
  · exact frames_zoom (fun _ _ => rfl) _

theorem framesExcept_program {batches : List (Batch σ π)} {i : Nat} {batch : Batch σ π}
    (hBatch : batches[i]? = some batch) :
    batch.program.FramesExcept PipelineDb.indexedLedger (ownCheckpoint batches i) := by
  have hCheckpoint : (checkpointHighestLedger batch.events).FramesExcept
      PipelineDb.indexedLedger (ownCheckpoint batches i) :=
    framesExcept_checkpoint fun ledger hLedger => ⟨batch, ledger, hBatch, hLedger, rfl⟩
  cases batch with
  | pipeline services asOf advanceCursor events =>
    apply framesExcept_bind
    · exact frames_forEach (frames_runStage services events) _
    · intro _
      split
      · exact framesExcept_bind (frames_markExpiredSwaps asOf) fun _ => hCheckpoint
      · trivial
  | referralTier upgrade events =>
    exact framesExcept_bind (frames_zoom (fun _ _ => rfl) _) fun _ => hCheckpoint

theorem framesExcept_start (batches : List (Batch σ π)) (db : PipelineDb σ) :
    (Pool.start db (batches.map Batch.program)).FramesExcept
      PipelineDb.indexedLedger (ownCheckpoint batches) := by
  intro i call hCall
  unfold Pool.start at hCall
  rw [List.map_map, List.getElem?_map] at hCall
  rcases Option.map_eq_some_iff.mp hCall with ⟨batch, hBatch, rfl⟩
  exact framesExcept_program hBatch

-- Monotonicity
----

variable {batches : List (Batch σ π)} {pool pool' : Pool (PipelineDb σ) IndexerError Unit}

theorem CursorLe.refl (cursor : Option IndexedLedger) : CursorLe cursor cursor :=
  fun indexed hIndexed => ⟨indexed, hIndexed, le_refl _⟩

theorem CursorLe.trans {a b c : Option IndexedLedger} (hab : CursorLe a b) (hbc : CursorLe b c) :
    CursorLe a c := by
  intro indexed hIndexed
  rcases hab indexed hIndexed with ⟨middle, hMiddle, hLe⟩
  rcases hbc middle hMiddle with ⟨last, hLast, hLe'⟩
  exact ⟨last, hLast, hLe.trans hLe'⟩

variable {move : FaultMove}

theorem cursorLe_step (hPool : pool.FramesExcept PipelineDb.indexedLedger (ownCheckpoint batches))
    (hForward : Forward batches pool move) (hStep : pool.attempt move = some pool') :
    CursorLe pool.store.indexedLedger pool'.store.indexedLedger := by
  rcases (Pool.framesExcept_attempt hPool hStep).2 with hSame | ⟨i, outcome, rfl, hMarked⟩
  · rw [hSame]
    exact .refl _
  · rcases hMarked with ⟨call, update, next, onFault, hCall, hProgram, hMark, hStore⟩
    rcases hMark with ⟨batch, ledger, hBatch, hAt⟩
    have hLe := hForward batch call ledger hBatch hCall hAt
    have hUpdate : (update pool.store).indexedLedger =
        some ⟨ledger, toString ledger ++ "-000"⟩ := by
      have hEq := hProgram.symm.trans hAt.2
      cases hEq
      rfl
    intro indexed hIndexed
    rw [hStore]
    exact ⟨_, hUpdate, hLe indexed hIndexed⟩

theorem framesExcept_of_run {start : Pool (PipelineDb σ) IndexerError Unit} {moves : List FaultMove}
    (hStart : start.FramesExcept PipelineDb.indexedLedger (ownCheckpoint batches))
    (hRun : RunsTo Pool.attempt (Forward batches) start moves pool) :
    pool.FramesExcept PipelineDb.indexedLedger (ownCheckpoint batches) := by
  refine hRun.invariant hStart ?_
  intro pool move pool' hPool _ hStep
  exact (Pool.framesExcept_attempt hPool hStep).1

/-
  As long as no batch older than the cursor writes it, the
  cursor is never behind where it was at any earlier moment.
-/
theorem cursor_never_decreases {db : PipelineDb σ} {before after : List FaultMove} (hRun :
    RunsTo Pool.attempt (Forward batches) (Pool.start db (batches.map Batch.program)) before pool)
    (hRest : RunsTo Pool.attempt (Forward batches) pool after pool') :
    CursorLe pool.store.indexedLedger pool'.store.indexedLedger := by
  have hPool := framesExcept_of_run (framesExcept_start batches db) hRun
  induction hRest with
  | start => exact .refl _
  | step hRest hForward hStep ih =>
    exact ih.trans (cursorLe_step (framesExcept_of_run hPool hRest) hForward hStep)

/- No statement of a batch runs behind the cursor. -/
def NotOlder (batches : List (Batch σ π)) (pool : Pool (PipelineDb σ) IndexerError Unit) :
    FaultMove → Prop
  | .attempt i _ =>
    ∀ batch ∈ batches[i]?, ∀ ledger ∈ batchLedger (PipelineEvent.chain batch.events),
      ∀ indexed ∈ pool.store.indexedLedger, indexed.ledger ≤ ledger
  | .crash _ => True

instance (batches : List (Batch σ π)) (pool : Pool (PipelineDb σ) IndexerError Unit)
    (move : FaultMove) : Decidable (NotOlder batches pool move) :=
  match move with
  | .attempt i _ =>
    inferInstanceAs (Decidable (∀ batch ∈ batches[i]?, ∀ ledger ∈
      batchLedger (PipelineEvent.chain batch.events), ∀ indexed ∈ pool.store.indexedLedger,
      indexed.ledger ≤ ledger))
  | .crash _ => inferInstanceAs (Decidable True)

theorem forward_of_notOlder (h : NotOlder batches pool move) : Forward batches pool move := by
  cases move with
  | attempt i outcome =>
    intro batch call ledger hBatch _ hAt indexed hIndexed
    exact h batch hBatch ledger hAt.1 indexed hIndexed
  | crash i => trivial

/- A batch of one purchase for each of the two indexers. -/
def sampleBatches (first second : Int) : List (Batch Unit Unit) :=
  [.pipeline (fun _ _ => pure ()) 0 true [{ sampleBuy "t1" first with payload := () }],
   .referralTier (fun _ => pure ()) [{ sampleBuy "t2" second with
        eventType := "REFERRAL_TIER_UPGRADED"
        payload := () }]]

def sampleStart (first second : Int) : Pool (PipelineDb Unit) IndexerError Unit :=
  Pool.start ⟨(), [], none⟩ ((sampleBatches first second).map Batch.program)

abbrev SamplePool := Pool (PipelineDb Unit) IndexerError Unit

/- The pipeline's batch runs first, the other one after it. -/
def pipelineMoves : List FaultMove := [.attempt 0 .served, .attempt 0 .served]

def referralTierMoves : List FaultMove := [.attempt 1 .served]

def forwardRun : Option SamplePool :=
  runAllowed Pool.attempt (NotOlder (sampleBatches 100 200)) (sampleStart 100 200) pipelineMoves

def forwardRest : Option SamplePool :=
  runAllowed Pool.attempt (NotOlder (sampleBatches 100 200))
    (forwardRun.get (by decide +kernel)) referralTierMoves

theorem cursor_never_decreases_sample :
    CursorLe (forwardRun.get (by decide +kernel)).store.indexedLedger (forwardRest.get
      (by decide +kernel)).store.indexedLedger :=
  cursor_never_decreases ((runsTo_of_runAllowed (Option.some_get _).symm).mono
    fun _ _ => forward_of_notOlder) ((runsTo_of_runAllowed (Option.some_get _).symm).mono
    fun _ _ => forward_of_notOlder)

def replayRun : Option SamplePool := runLabels Pool.attempt (sampleStart 200 100) pipelineMoves

def replayRest : Option SamplePool :=
  runLabels Pool.attempt (replayRun.get (by decide +kernel)) referralTierMoves

theorem replayRun_isSome : replayRun.isSome = true := by
  decide +kernel

theorem replayRest_isSome : replayRest.isSome = true := by
  decide +kernel

/- A replay of ledger 100 after ledger 200 has been indexed. -/
theorem replay_lowers_cursor :
    ∃ (pool pool' : SamplePool) (before after : List FaultMove),
      RunsTo Pool.attempt (fun _ _ => True) (sampleStart 200 100) before pool ∧
        RunsTo Pool.attempt (fun _ _ => True) pool after pool' ∧ ¬ CursorLe pool.store.indexedLedger
          pool'.store.indexedLedger := by
  refine ⟨replayRun.get replayRun_isSome, replayRest.get replayRest_isSome, _, _,
    runsTo_of_runLabels (Option.some_get _).symm,
    runsTo_of_runLabels (Option.some_get _).symm, ?_⟩
  intro hLe
  rcases hLe ⟨200, "200-000"⟩ (by decide +kernel) with ⟨indexed, hIndexed, hLower⟩
  have hCursor : (replayRest.get replayRest_isSome).store.indexedLedger =
      some ⟨100, "100-000"⟩ := by decide +kernel
  rw [hCursor] at hIndexed
  cases hIndexed
  exact absurd hLower (by decide)

end Indexer

end AccessLayer
