import AccessLayer.Library.Runs
import Mathlib.Algebra.Order.BigOperators.Group.List
import Mathlib.Data.List.Nodup
import Mathlib.Logic.Function.Basic

/-
  The queue of operations of a creator's wallet
  (`src/utils/creator-sequencer.utils.ts`).

  A queue is a loop that awaits one operation after another; it
  goes on with its loop when it has been collected.  Operations
  are told apart by the number of the call that enqueued them.
  Logs and `dispose` are left out.

  Main result: `operations_sequenced`
-/

-- Queues
----

namespace AccessLayer

namespace Utils

section

def QUEUE_TIMEOUT_MS : ℕ := 10000

def IDLE_GC_MS : ℕ := 5 * 60 * 1000

variable {ε α : Type}

structure QueuedOperation where
  id : ℕ
  enqueuedAt : ℕ

/- Where the loop of a queue is; it is not processing if idle. -/
inductive DrainStage (ε α : Type) where
  | idle
  | looping
  | executing (item : QueuedOperation)
  | returned (item : QueuedOperation) (outcome : Except ε α)

structure AsyncQueue (ε α : Type) where
  queue : List QueuedOperation
  stage : DrainStage ε α

/- How a promise was settled. -/
inductive Settlement (ε α : Type) where
  | answered (outcome : Except ε α)
  | timedOut (waited : ℕ)

def SEQUENCER_TIMEOUT_CODE : String := "sequencer_timeout"

/- The message of a promise that was rejected in the queue. -/
def sequencerTimeoutMessage (waited : ℕ) : String :=
  "Operation waited " ++ toString waited ++
    "ms in queue, exceeding " ++ toString QUEUE_TIMEOUT_MS ++ "ms limit"

namespace AsyncQueue

def empty : AsyncQueue ε α where
  queue := []
  stage := .idle

def pending (queue : AsyncQueue ε α) : ℕ := queue.queue.length

/- The loop begins unless it is under way. -/
def enqueue (queue : AsyncQueue ε α) (item : QueuedOperation) : AsyncQueue ε α where
  queue := queue.queue ++ [item]
  stage :=
    match queue.stage with
    | .idle => .looping
    | stage => stage

end AsyncQueue

structure CreatorSequencer (ε α : Type) where
  /- every queue that was created, and for whom -/
  objects : List (String × AsyncQueue ε α)
  queues : String → Option ℕ
  gcTimers : String → Option ℕ

/-
  The sequencer, the wallets of the calls of `enqueue`, which of
  their operations have been started, how these ended, and how
  the promises were settled.
-/
structure SequencerWorld (ε α : Type) where
  sequencer : CreatorSequencer ε α
  calls : List String
  started : List ℕ
  outcomes : List (ℕ × Except ε α)
  settled : List (ℕ × Settlement ε α)

inductive SequencerMove (ε α : Type) where
  | enqueue (creatorWallet : String) (now : ℕ)
  | drain (q : ℕ) (now : ℕ)
  | settle (q : ℕ) (outcome : Except ε α)
  | resume (q : ℕ)
  | fire (creatorWallet : String) (now : ℕ)

def SequencerWorld.start : SequencerWorld ε α where
  sequencer := {
    objects := []
    queues _ := none
    gcTimers _ := none }
  calls := []
  started := []
  outcomes := []
  settled := []

namespace CreatorSequencer

variable (sequencer : CreatorSequencer ε α)

def resetGcTimer (creatorWallet : String) (now : ℕ) : CreatorSequencer ε α :=
  { sequencer with
    gcTimers := Function.update sequencer.gcTimers creatorWallet (some (now + IDLE_GC_MS)) }

def withQueue (creatorWallet : String) : CreatorSequencer ε α :=
  match sequencer.queues creatorWallet with
  | some _ => sequencer
  | none =>
    { sequencer with
      objects := sequencer.objects ++ [(creatorWallet, .empty)]
      queues := Function.update sequencer.queues creatorWallet (some sequencer.objects.length) }

def setQueue (q : ℕ) (wallet : String) (queue : AsyncQueue ε α) : CreatorSequencer ε α :=
  { sequencer with
    objects := sequencer.objects.set q (wallet, queue) }

def queueOf (creatorWallet : String) : Option (AsyncQueue ε α) :=
  ((sequencer.queues creatorWallet).bind (sequencer.objects[·]?)).map Prod.snd

def enqueue (creatorWallet : String) (item : QueuedOperation) : CreatorSequencer ε α :=
  match sequencer.queues creatorWallet with
  | none => sequencer
  | some q =>
    match sequencer.objects[q]? with
    | none => sequencer
    | some (wallet, queue) => sequencer.setQueue q wallet (queue.enqueue item)

/- What the timer of a wallet does when it fires. -/
def collect (creatorWallet : String) : CreatorSequencer ε α :=
  { sequencer with
    gcTimers := Function.update sequencer.gcTimers creatorWallet none
    queues :=
      if (sequencer.queueOf creatorWallet).any fun queue =>
        queue.pending = 0 then
        Function.update sequencer.queues creatorWallet none
      else sequencer.queues }

end CreatorSequencer

namespace SequencerWorld

variable (world : SequencerWorld ε α)

/- One turn of the loop of a queue, up to its await. -/
def drain (q : ℕ) (wallet : String) (queue : AsyncQueue ε α) (now : ℕ) : SequencerWorld ε α :=
  match queue.queue with
  | [] =>
    { world with
      sequencer := world.sequencer.setQueue q wallet { queue with stage := .idle } }
  | item :: rest =>
    let waited := now - item.enqueuedAt
    if QUEUE_TIMEOUT_MS < waited then
      { world with
        sequencer := world.sequencer.setQueue q wallet { queue with queue := rest }
        settled := world.settled ++ [(item.id, .timedOut waited)] }
    else
      { world with
        sequencer := world.sequencer.setQueue q wallet { queue := rest, stage := .executing item }
        started := world.started ++ [item.id] }

def step (world : SequencerWorld ε α) : SequencerMove ε α → Option (SequencerWorld ε α)
  | .enqueue creatorWallet now =>
    some { world with
      sequencer :=
        ((world.sequencer.resetGcTimer creatorWallet now).withQueue
          creatorWallet).enqueue creatorWallet { id := world.calls.length, enqueuedAt := now }
      calls := world.calls ++ [creatorWallet] }
  | .drain q now =>
    match world.sequencer.objects[q]? with
    | some (wallet, queue) =>
      match queue.stage with
      | .looping => some (world.drain q wallet queue now)
      | _ => none
    | none => none
  | .settle q outcome =>
    match world.sequencer.objects[q]? with
    | some (wallet, queue) =>
      match queue.stage with
      | .executing item =>
        some { world with
          sequencer :=
            world.sequencer.setQueue q wallet { queue with stage := .returned item outcome }
          outcomes := world.outcomes ++ [(item.id, outcome)] }
      | _ => none
    | none => none
  | .resume q =>
    match world.sequencer.objects[q]? with
    | some (wallet, queue) =>
      match queue.stage with
      | .returned item outcome =>
        some { world with
          sequencer := world.sequencer.setQueue q wallet { queue with stage := .looping }
          settled := world.settled ++ [(item.id, .answered outcome)] }
      | _ => none
    | none => none
  | .fire creatorWallet now =>
    match world.sequencer.gcTimers creatorWallet with
    | some dueAt =>
      if dueAt ≤ now then
        some { world with
          sequencer := world.sequencer.collect creatorWallet }
      else none
    | none => none

/- The operations of a wallet, in the order of their starts. -/
def startedOf (creatorWallet : String) : List ℕ :=
  world.started.filter fun i => world.calls[i]? = some creatorWallet

/- Its operation has begun and has not ended. -/
def IsRunning (i : ℕ) : Prop := i ∈ world.started ∧ i ∉ world.outcomes.map Prod.fst

/- No loop is under way. -/
def AtRest : Prop := ∀ object ∈ world.sequencer.objects, object.2.stage = .idle

/-
  A promise is settled once, with its operation's outcome, or
  with an error if its operation waited too long to be started.
-/
structure SettledOnce : Prop where
  once : (world.settled.map Prod.fst).Nodup
  outcome_unique : (world.outcomes.map Prod.fst).Nodup
  answered :
    ∀ i outcome, (i, Settlement.answered outcome) ∈ world.settled → (i, outcome) ∈ world.outcomes
  timedOut : ∀ i waited, (i, Settlement.timedOut waited) ∈ world.settled →
    QUEUE_TIMEOUT_MS < waited ∧ i ∉ world.started
  all : world.AtRest → ∀ i < world.calls.length, i ∈ world.settled.map Prod.fst

end SequencerWorld

def DrainStage.isExecuting : DrainStage ε α → Bool
  | .executing _ => true
  | _ => false

/- No queue is collected while it awaits an operation. -/
def CollectsIdle (world : SequencerWorld ε α) : SequencerMove ε α → Prop
  | .fire creatorWallet _ =>
    ∀ queue ∈ world.sequencer.queueOf creatorWallet,
      queue.pending = 0 → queue.stage.isExecuting = false
  | _ => True

instance (world : SequencerWorld ε α) (move : SequencerMove ε α) :
    Decidable (CollectsIdle world move) :=
  match move with
  | .fire _ _ => inferInstanceAs (Decidable (∀ queue ∈ (_ : Option _), _ → _))
  | .enqueue _ _ | .drain _ _ | .settle _ _ | .resume _ => isTrue trivial

end

-- Accounts
----

variable {ε α : Type}

/- The sum of what the queues hold. -/
def totalOf (f : AsyncQueue ε α → ℕ) (objects : List (String × AsyncQueue ε α)) : ℕ :=
  (objects.map fun object => f object.2).sum

variable {f : AsyncQueue ε α → ℕ}

theorem totalOf_set {objects : List (String × AsyncQueue ε α)} {q : ℕ} {wallet : String}
    {queue queue' : AsyncQueue ε α} (hQueue : objects[q]? = some (wallet, queue)) :
    totalOf f (objects.set q (wallet, queue')) + f queue = totalOf f objects + f queue' := by
  unfold totalOf
  induction objects generalizing q with
  | nil => cases hQueue
  | cons object rest ih =>
    cases q with
    | zero =>
      cases hQueue
      simp only [List.set_cons_zero, List.map_cons, List.sum_cons]
      omega
    | succ q =>
      have hRest := ih hQueue
      simp only [List.set_cons_succ, List.map_cons, List.sum_cons]
      omega

theorem totalOf_append_empty (hEmpty : f .empty = 0) (objects : List (String × AsyncQueue ε α))
    (wallet : String) :
    totalOf f (objects ++ [(wallet, .empty)]) = totalOf f objects := by
  unfold totalOf
  simp [hEmpty]

theorem exists_of_totalOf_pos {objects : List (String × AsyncQueue ε α)}
    (hPos : 0 < totalOf f objects) :
    ∃ (q : ℕ) (wallet : String) (queue : AsyncQueue ε α),
      objects[q]? = some (wallet, queue) ∧ 0 < f queue := by
  by_contra hNone
  push Not at hNone
  have hZero : totalOf f objects = 0 := by
    apply List.sum_eq_zero
    intro n hn
    rcases List.mem_map.mp hn with ⟨⟨wallet, queue⟩, hMem, rfl⟩
    rcases List.mem_iff_getElem?.mp hMem with ⟨q, hq⟩
    exact Nat.le_zero.mp (hNone q wallet queue hq)
  omega

namespace AsyncQueue

/- How often an operation waits in a queue. -/
def waits (i : ℕ) (queue : AsyncQueue ε α) : ℕ := (queue.queue.map QueuedOperation.id).count i

def executes (i : ℕ) (queue : AsyncQueue ε α) : ℕ :=
  match queue.stage with
  | .executing item => if item.id = i then 1 else 0
  | _ => 0

def returns (i : ℕ) (queue : AsyncQueue ε α) : ℕ :=
  match queue.stage with
  | .returned item _ => if item.id = i then 1 else 0
  | _ => 0

end AsyncQueue

/- The promises that were settled with an outcome. -/
def answeredIds (settled : List (ℕ × Settlement ε α)) : List ℕ :=
  settled.filterMap fun
    | (i, .answered _) => some i
    | (_, .timedOut _) => none

/- Every operation that was enqueued waits, is executed, has ended, or its promise is settled. -/
structure Accounted (world : SequencerWorld ε α) : Prop where
  placed :
    ∀ i, totalOf (AsyncQueue.waits i) world.sequencer.objects + totalOf (AsyncQueue.executes i)
      world.sequencer.objects + totalOf (AsyncQueue.returns i) world.sequencer.objects +
      (world.settled.map Prod.fst).count i =
      if i < world.calls.length then 1 else 0
  started : ∀ i, world.started.count i = totalOf (AsyncQueue.executes i) world.sequencer.objects +
    (world.outcomes.map Prod.fst).count i
  ended : ∀ i, (world.outcomes.map Prod.fst).count i =
    totalOf (AsyncQueue.returns i) world.sequencer.objects + (answeredIds world.settled).count i
  returned :
    ∀ (q : ℕ) wallet queue item outcome, world.sequencer.objects[q]? = some (wallet, queue) →
      queue.stage = .returned item outcome → (item.id, outcome) ∈ world.outcomes
  answered :
    ∀ i outcome, (i, Settlement.answered outcome) ∈ world.settled → (i, outcome) ∈ world.outcomes
  timedOut : ∀ i waited, (i, Settlement.timedOut waited) ∈ world.settled → QUEUE_TIMEOUT_MS < waited

/- The operations of a queue: the one it awaits, and the rest. -/
def AsyncQueue.items (queue : AsyncQueue ε α) : List QueuedOperation :=
  match queue.stage with
  | .executing item => item :: queue.queue
  | _ => queue.queue

/- Operations wait in the queue of their wallet, in order. -/
structure InLine (world : SequencerWorld ε α) : Prop where
  mapped : ∀ wallet q, world.sequencer.queues wallet = some q → ∃ queue,
    world.sequencer.objects[q]? = some (wallet, queue)
  collected : ∀ (q : ℕ) wallet queue, world.sequencer.objects[q]? = some (wallet, queue) →
    world.sequencer.queues wallet ≠ some q → queue.queue = []
  owned : ∀ (q : ℕ) wallet queue, world.sequencer.objects[q]? = some (wallet, queue) →
    ∀ item ∈ queue.items, world.calls[item.id]? = some wallet
  idle : ∀ object ∈ world.sequencer.objects, object.2.stage = .idle → object.2.queue = []
  sorted :
    ∀ object ∈ world.sequencer.objects, (object.2.queue.map QueuedOperation.id).Pairwise (· < ·)
  later : ∀ (q : ℕ) wallet queue, world.sequencer.objects[q]? = some (wallet, queue) →
    ∀ item ∈ queue.queue, ∀ i ∈ world.startedOf wallet, i < item.id
  known : ∀ i ∈ world.started, i < world.calls.length
  inOrder : ∀ wallet, (world.startedOf wallet).Pairwise (· < ·)

theorem accounted_start : Accounted (.start : SequencerWorld ε α) where
  placed _ := rfl
  started _ := rfl
  ended _ := rfl
  returned _ _ _ _ _ h := nomatch h
  answered _ _ h := nomatch h
  timedOut _ _ h := nomatch h

theorem inLine_start : InLine (.start : SequencerWorld ε α) where
  mapped _ _ h := nomatch h
  collected _ _ _ h := nomatch h
  owned _ _ _ h := nomatch h
  idle _ h := nomatch h
  sorted _ h := nomatch h
  later _ _ _ h := nomatch h
  known _ h := nomatch h
  inOrder _ := List.Pairwise.nil

-- Turns of a Loop
----

open Transactional

variable {world world' : SequencerWorld ε α} {move : SequencerMove ε α}

/- What a turn of the loop makes of a queue and of the world. -/
inductive Turn (world : SequencerWorld ε α) (queue : AsyncQueue ε α) :
    AsyncQueue ε α → List ℕ → List (ℕ × Except ε α) →
      List (ℕ × Settlement ε α) → Prop where
  | stop (hStage : queue.stage = .looping) (hQueue : queue.queue = []) :
    Turn world queue { queue with stage := .idle } world.started world.outcomes world.settled
  | giveUp {item : QueuedOperation} {rest : List QueuedOperation} {waited : ℕ}
    (hStage : queue.stage = .looping) (hQueue : queue.queue = item :: rest)
    (hWaited : QUEUE_TIMEOUT_MS < waited) :
    Turn world queue { queue with queue := rest } world.started world.outcomes
      (world.settled ++ [(item.id, .timedOut waited)])
  | execute {item : QueuedOperation} {rest : List QueuedOperation} (hStage : queue.stage = .looping)
    (hQueue : queue.queue = item :: rest) :
    Turn world queue { queue := rest, stage := .executing item }
      (world.started ++ [item.id]) world.outcomes world.settled
  | settle {item : QueuedOperation} {outcome : Except ε α}
    (hStage : queue.stage = .executing item) :
    Turn world queue { queue with stage := .returned item outcome }
      world.started (world.outcomes ++ [(item.id, outcome)]) world.settled
  | resume {item : QueuedOperation} {outcome : Except ε α}
    (hStage : queue.stage = .returned item outcome) :
    Turn world queue { queue with stage := .looping } world.started world.outcomes
      (world.settled ++ [(item.id, .answered outcome)])

structure Found (sequencer : CreatorSequencer ε α) (wallet : String)
    (objects : List (String × AsyncQueue ε α)) (q : ℕ) (queue : AsyncQueue ε α) : Prop where
  object : objects[q]? = some (wallet, queue)
  created : (objects = sequencer.objects ∧ sequencer.queues wallet = some q) ∨
    objects = sequencer.objects ++ [(wallet, .empty)] ∧ sequencer.queues wallet = none ∧
      q = sequencer.objects.length ∧ queue = .empty

/- An operation waits in the queue that was found. -/
def SequencerWorld.enqueued (world : SequencerWorld ε α) (objects : List (String × AsyncQueue ε α))
    (q : ℕ) (queue : AsyncQueue ε α) (wallet : String) (now : ℕ)
    (gcTimers : String → Option ℕ) : SequencerWorld ε α :=
  { world with
    sequencer := {
      objects :=
        objects.set q (wallet, queue.enqueue { id := world.calls.length, enqueuedAt := now })
      queues := Function.update world.sequencer.queues wallet (some q)
      gcTimers }
    calls := world.calls ++ [wallet] }

theorem enqueue_found (sequencer : CreatorSequencer ε α) (wallet : String) (now : ℕ)
    (item : QueuedOperation) (hMapped : ∀ wallet q, sequencer.queues wallet = some q →
      ∃ queue, sequencer.objects[q]? = some (wallet, queue)) :
    ∃ objects q queue, Found sequencer wallet objects q queue ∧
      ((sequencer.resetGcTimer wallet now).withQueue wallet).enqueue wallet item =
        { objects := objects.set q (wallet, queue.enqueue item)
          queues := Function.update sequencer.queues wallet (some q)
          gcTimers :=
            Function.update sequencer.gcTimers wallet
              (some (now + IDLE_GC_MS)) } := by
  cases hQueue : sequencer.queues wallet with
  | none =>
    refine ⟨sequencer.objects ++ [(wallet, .empty)], sequencer.objects.length, .empty,
      ⟨List.getElem?_concat_length, Or.inr ⟨rfl, hQueue, rfl, rfl⟩⟩, ?_⟩
    simp [CreatorSequencer.resetGcTimer, CreatorSequencer.withQueue, CreatorSequencer.enqueue,
      CreatorSequencer.setQueue, hQueue]
  | some q =>
    rcases hMapped wallet q hQueue with ⟨queue, hObject⟩
    have hSame : Function.update sequencer.queues wallet (some q) =
        sequencer.queues := by
      rw [← hQueue]
      exact Function.update_eq_self _ _
    refine ⟨sequencer.objects, q, queue, ⟨hObject, Or.inl ⟨rfl, hQueue⟩⟩, ?_⟩
    simp [CreatorSequencer.resetGcTimer, CreatorSequencer.withQueue, CreatorSequencer.enqueue,
      CreatorSequencer.setQueue, hQueue, hObject, hSame]

theorem SequencerWorld.step_cases (hInLine : InLine world) (hStep : world.step move = some world') :
    (∃ wallet now objects q queue gcTimers, move = .enqueue wallet now ∧
      Found world.sequencer wallet objects q queue ∧ world' =
        world.enqueued objects q queue wallet now gcTimers) ∨
    (∃ q wallet queue queue' started outcomes settled,
      (∀ creatorWallet now, move ≠ .fire creatorWallet now) ∧
      world.sequencer.objects[q]? = some (wallet, queue) ∧
      Turn world queue queue' started outcomes settled ∧ world' =
        { sequencer := world.sequencer.setQueue q wallet queue'
          calls := world.calls
          started
          outcomes
          settled }) ∨ ∃ wallet now, move = .fire wallet now ∧ world' = { world with
          sequencer := world.sequencer.collect wallet } := by
  cases move with
  | enqueue wallet now =>
    left
    rcases enqueue_found world.sequencer wallet now { id := world.calls.length, enqueuedAt := now }
      hInLine.mapped with ⟨objects, q, queue, hFound, hEq⟩
    cases hStep
    rw [hEq]
    exact ⟨wallet, now, objects, q, queue, _, rfl, hFound, rfl⟩
  | drain q now =>
    right; left
    simp only [step] at hStep
    split at hStep
    · rename_i wallet queue hObject
      split at hStep
      · rename_i hStage
        cases hStep
        unfold SequencerWorld.drain
        split
        · rename_i hQueue
          exact ⟨q, wallet, queue, _, _, _, _, nofun, hObject, .stop hStage hQueue, rfl⟩
        · rename_i item rest hQueue
          dsimp only
          split
          · rename_i hWaited
            exact ⟨q, wallet, queue, _, _, _, _, nofun, hObject, .giveUp hStage hQueue hWaited, rfl⟩
          · exact ⟨q, wallet, queue, _, _, _, _, nofun, hObject, .execute hStage hQueue, rfl⟩
      · cases hStep
    · cases hStep
  | settle q outcome =>
    right; left
    simp only [step] at hStep
    split at hStep
    · rename_i wallet queue hObject
      split at hStep
      · rename_i item hStage
        cases hStep
        exact ⟨q, wallet, queue, _, _, _, _, nofun, hObject, .settle hStage, rfl⟩
      · cases hStep
    · cases hStep
  | resume q =>
    right; left
    simp only [step] at hStep
    split at hStep
    · rename_i wallet queue hObject
      split at hStep
      · rename_i item outcome hStage
        cases hStep
        exact ⟨q, wallet, queue, _, _, _, _, nofun, hObject, .resume hStage, rfl⟩
      · cases hStep
    · cases hStep
  | fire wallet now =>
    right; right
    simp only [step] at hStep
    split at hStep
    · split at hStep
      · cases hStep
        exact ⟨wallet, now, rfl, rfl⟩
      · cases hStep
    · cases hStep

/- An operation goes from one account to another. -/
theorem Turn.counts {queue queue' : AsyncQueue ε α} {started : List ℕ}
    {outcomes : List (ℕ × Except ε α)} {settled : List (ℕ × Settlement ε α)}
    (hTurn : Turn world queue queue' started outcomes settled) (i : ℕ) :
    queue'.waits i + queue'.executes i + queue'.returns i + (settled.map Prod.fst).count i =
      queue.waits i + queue.executes i + queue.returns i + (world.settled.map Prod.fst).count i ∧
      started.count i + queue.executes i + (world.outcomes.map Prod.fst).count i =
        world.started.count i + queue'.executes i + (outcomes.map Prod.fst).count i ∧
      (outcomes.map Prod.fst).count i + queue.returns i + (answeredIds world.settled).count i =
        (world.outcomes.map Prod.fst).count i + queue'.returns i +
          (answeredIds settled).count i := by
  cases hTurn with
  | stop hStage hQueue => simp [AsyncQueue.waits, AsyncQueue.executes, AsyncQueue.returns, hStage]
  | giveUp hStage hQueue hWaited =>
    simp [AsyncQueue.waits, AsyncQueue.executes, AsyncQueue.returns, hStage, hQueue, answeredIds,
      List.count_cons]
    omega
  | execute hStage hQueue =>
    simp [AsyncQueue.waits, AsyncQueue.executes,
      AsyncQueue.returns, hStage, hQueue, List.count_cons]
  | settle hStage =>
    simp [AsyncQueue.waits, AsyncQueue.executes, AsyncQueue.returns, hStage, List.count_cons]
    omega
  | resume hStage =>
    simp [AsyncQueue.waits, AsyncQueue.executes,
      AsyncQueue.returns, hStage, answeredIds, List.count_cons]
    omega

-- Every Operation Has Its Place
----

variable {sequencer : CreatorSequencer ε α} {objects : List (String × AsyncQueue ε α)}
variable {wallet : String} {q : ℕ} {queue : AsyncQueue ε α}

theorem Found.totalOf_eq (hFound : Found sequencer wallet objects q queue) (hEmpty : f .empty = 0) :
    totalOf f objects = totalOf f sequencer.objects := by
  rcases hFound.created with ⟨rfl, -⟩ | ⟨rfl, -⟩
  · rfl
  · exact totalOf_append_empty hEmpty _ _

variable {j : ℕ} {other : AsyncQueue ε α}

/- What was there before, or the queue that has been created. -/
theorem Found.getElem?_cases {owner : String} (hFound : Found sequencer wallet objects q queue)
    (hOther : objects[j]? = some (owner, other)) :
    sequencer.objects[j]? = some (owner, other) ∨ j = q ∧ owner = wallet ∧ other = .empty := by
  rcases hFound.created with ⟨rfl, -⟩ | ⟨rfl, -, rfl, -⟩
  · exact Or.inl hOther
  · rcases getElem?_concat_cases hOther with hOld | ⟨hLast, hNew⟩
    · exact Or.inl hOld
    · cases hNew
      exact Or.inr ⟨hLast, rfl, rfl⟩

theorem AsyncQueue.enqueue_counts (queue : AsyncQueue ε α) (item : QueuedOperation) (i : ℕ) :
    (queue.enqueue item).waits i = queue.waits i + (if item.id = i then 1 else 0) ∧
      (queue.enqueue item).executes i = queue.executes i ∧
      (queue.enqueue item).returns i = queue.returns i := by
  refine ⟨?_, ?_, ?_⟩
  · simp [enqueue, waits, List.count_cons]
  · unfold enqueue executes
    cases queue.stage <;> rfl
  · unfold enqueue returns
    cases queue.stage <;> rfl

variable {item : QueuedOperation}

theorem AsyncQueue.stage_enqueue {returned : QueuedOperation} {outcome : Except ε α}
    (hStage : (queue.enqueue item).stage = .returned returned outcome) :
    queue.stage = .returned returned outcome := by
  unfold enqueue at hStage
  cases hOld : queue.stage with
  | returned old o =>
    rw [hOld] at hStage
    exact hStage
  | _ => simp [hOld] at hStage

variable {now : ℕ} {gcTimers : String → Option ℕ}

theorem Accounted.enqueue (hAccounted : Accounted world)
    (hFound : Found world.sequencer wallet objects q queue) :
    Accounted (world.enqueued objects q queue wallet now gcTimers) := by
  have hTotal :
      ∀ f : AsyncQueue ε α → ℕ, f .empty = 0 → totalOf f (objects.set q (wallet, queue.enqueue
        { id := world.calls.length
          enqueuedAt := now })) + f queue = totalOf f world.sequencer.objects +
        f (queue.enqueue
          { id := world.calls.length, enqueuedAt := now }) := by
    intro f hEmpty
    rw [totalOf_set hFound.object, hFound.totalOf_eq hEmpty]
  unfold SequencerWorld.enqueued
  refine ⟨?_, ?_, ?_, ?_, hAccounted.answered, hAccounted.timedOut⟩
  · intro i
    have hPlaced := hAccounted.placed i
    have hWaits := hTotal (AsyncQueue.waits i) rfl
    have hExecutes := hTotal (AsyncQueue.executes i) rfl
    have hReturns := hTotal (AsyncQueue.returns i) rfl
    rcases queue.enqueue_counts { id := world.calls.length, enqueuedAt := now } i with
      ⟨hOne, hTwo, hThree⟩
    dsimp only at *
    rw [List.length_append, List.length_singleton]
    split at hPlaced <;> split at hOne <;> split <;> omega
  · intro i
    have hStarted := hAccounted.started i
    have hExecutes := hTotal (AsyncQueue.executes i) rfl
    have hSame := (queue.enqueue_counts { id := world.calls.length, enqueuedAt := now } i).2.1
    dsimp only at *
    omega
  · intro i
    have hEnded := hAccounted.ended i
    have hReturns := hTotal (AsyncQueue.returns i) rfl
    have hSame := (queue.enqueue_counts { id := world.calls.length, enqueuedAt := now } i).2.2
    dsimp only at *
    omega
  · intro j owner other item outcome hOther hStage
    rcases getElem?_set_cases hOther with ⟨rfl, hNew⟩ | ⟨-, hOld⟩
    · cases hNew
      rcases hFound.getElem?_cases hFound.object with hOld | ⟨-, -, rfl⟩
      · exact hAccounted.returned j wallet queue item outcome hOld (AsyncQueue.stage_enqueue hStage)
      · cases hStage
    · rcases hFound.getElem?_cases hOld with hOld | ⟨-, -, rfl⟩
      · exact hAccounted.returned j owner other item outcome hOld hStage
      · cases hStage

theorem Accounted.turn {queue' : AsyncQueue ε α} {started : List ℕ}
    {outcomes : List (ℕ × Except ε α)} {settled : List (ℕ × Settlement ε α)}
    (hAccounted : Accounted world) (hObject : world.sequencer.objects[q]? = some (wallet, queue))
    (hTurn : Turn world queue queue' started outcomes settled) :
    Accounted
      { sequencer := world.sequencer.setQueue q wallet queue'
        calls := world.calls
        started
        outcomes
        settled } := by
  have hTotal :
      ∀ f : AsyncQueue ε α → ℕ, totalOf f (world.sequencer.setQueue q wallet queue').objects +
        f queue = totalOf f world.sequencer.objects + f queue' :=
    fun f => totalOf_set hObject
  have hGrows : world.outcomes ⊆ outcomes := by
    cases hTurn with
    | settle hStage => exact List.subset_append_left _ _
    | _ => exact List.Subset.refl _
  refine ⟨?_, ?_, ?_, ?_, ?_, ?_⟩
  · intro i
    have hPlaced := hAccounted.placed i
    have hWaits := hTotal (AsyncQueue.waits i)
    have hExecutes := hTotal (AsyncQueue.executes i)
    have hReturns := hTotal (AsyncQueue.returns i)
    have hCounts := (hTurn.counts i).1
    dsimp only at *
    omega
  · intro i
    have hStarted := hAccounted.started i
    have hExecutes := hTotal (AsyncQueue.executes i)
    have hCounts := (hTurn.counts i).2.1
    dsimp only at *
    omega
  · intro i
    have hEnded := hAccounted.ended i
    have hReturns := hTotal (AsyncQueue.returns i)
    have hCounts := (hTurn.counts i).2.2
    dsimp only at *
    omega
  · intro j owner other item outcome hOther hStage
    rcases getElem?_set_cases hOther with ⟨rfl, hNew⟩ | ⟨-, hOld⟩
    · cases hNew
      cases hTurn with
      | stop => cases hStage
      | giveUp hLooping =>
        rw [hLooping] at hStage
        cases hStage
      | execute => cases hStage
      | settle =>
        cases hStage
        exact List.mem_append_right _ List.mem_cons_self
      | resume => cases hStage
    · exact hGrows (hAccounted.returned j owner other item outcome hOld hStage)
  · intro i outcome hSettled
    cases hTurn with
    | resume hStage =>
      rcases List.mem_append.mp hSettled with hOld | hNew
      · exact hAccounted.answered i outcome hOld
      · cases List.mem_singleton.mp hNew
        exact hAccounted.returned q wallet queue _ _ hObject hStage
    | giveUp =>
      rcases List.mem_append.mp hSettled with hOld | hNew
      · exact hAccounted.answered i outcome hOld
      · cases List.mem_singleton.mp hNew
    | settle => exact List.mem_append_left _ (hAccounted.answered i outcome hSettled)
    | _ => exact hAccounted.answered i outcome hSettled
  · intro i waited hSettled
    cases hTurn with
    | resume =>
      rcases List.mem_append.mp hSettled with hOld | hNew
      · exact hAccounted.timedOut i waited hOld
      · cases List.mem_singleton.mp hNew
    | giveUp _ _ hWaited =>
      rcases List.mem_append.mp hSettled with hOld | hNew
      · exact hAccounted.timedOut i waited hOld
      · cases List.mem_singleton.mp hNew
        exact hWaited
    | _ => exact hAccounted.timedOut i waited hSettled

theorem accounted_step (hInLine : InLine world) (hAccounted : Accounted world)
    (hStep : world.step move = some world') :
    Accounted world' := by
  rcases SequencerWorld.step_cases hInLine hStep with
    ⟨wallet, now, objects, q, queue, gcTimers, -, hFound, rfl⟩ |
      ⟨q, wallet, queue, queue', started, outcomes, settled, -, hObject, hTurn, rfl⟩ |
      ⟨wallet, now, -, rfl⟩
  · exact hAccounted.enqueue hFound
  · exact hAccounted.turn hObject hTurn
  · exact ⟨hAccounted.placed, hAccounted.started, hAccounted.ended,
      hAccounted.returned, hAccounted.answered, hAccounted.timedOut⟩

-- Every Operation Waits in Line
----

variable {queue' : AsyncQueue ε α} {started : List ℕ} {outcomes : List (ℕ × Except ε α)}
variable {settled : List (ℕ × Settlement ε α)} {object : String × AsyncQueue ε α}

theorem Found.getElem?_of_old (hFound : Found sequencer wallet objects q queue)
    (hOld : sequencer.objects[j]? = some object) :
    objects[j]? = some object := by
  rcases hFound.created with ⟨rfl, -⟩ | ⟨rfl, -⟩
  · exact hOld
  · exact getElem?_extended (List.prefix_append _ _) hOld

theorem Found.held (hFound : Found sequencer wallet objects q queue) :
    sequencer.objects[q]? = some (wallet, queue) ∨ queue = .empty := by
  rcases hFound.getElem?_cases hFound.object with hOld | ⟨-, -, hEmpty⟩
  · exact Or.inl hOld
  · exact Or.inr hEmpty

theorem Found.others {other : String × AsyncQueue ε α}
    (hFound : Found sequencer wallet objects q queue) (hNe : j ≠ q)
    (hOther : (objects.set q object)[j]? = some other) :
    sequencer.objects[j]? = some other := by
  rw [List.getElem?_set_ne (Ne.symm hNe)] at hOther
  rcases hFound.getElem?_cases hOther with hOld | ⟨hSame, -⟩
  · exact hOld
  · exact absurd hSame hNe

theorem AsyncQueue.mem_items_enqueue {other : QueuedOperation}
    (hMem : other ∈ (queue.enqueue item).items) :
    other ∈ queue.items ∨ other = item := by
  unfold enqueue items at hMem
  unfold items
  cases hStage : queue.stage with
  | executing current =>
    simp only [hStage, List.mem_cons, List.mem_append] at hMem ⊢
    simpa [or_assoc] using hMem
  | _ => simpa [hStage] using hMem

theorem AsyncQueue.mem_items_of_mem (hMem : item ∈ queue.queue) : item ∈ queue.items := by
  unfold items
  split
  · exact List.mem_cons_of_mem _ hMem
  · exact hMem

theorem InLine.id_lt (hInLine : InLine world)
    (hObject : world.sequencer.objects[q]? = some (wallet, queue)) (hMem : item ∈ queue.queue) :
    item.id < world.calls.length :=
  (List.getElem?_eq_some_iff.mp (hInLine.owned q wallet queue hObject item
    (AsyncQueue.mem_items_of_mem hMem))).1

/- A later call does not change what has been started. -/
theorem startedOf_calls (hKnown : ∀ i ∈ world.started, i < world.calls.length) (caller : String)
    (wallet : String) (sequencer : CreatorSequencer ε α) :
    SequencerWorld.startedOf { world with
          sequencer
          calls := world.calls ++ [caller] } wallet =
      world.startedOf wallet := by
  apply List.filter_congr
  intro i hi
  rw [List.getElem?_append_left (hKnown i hi)]

theorem InLine.enqueue (hInLine : InLine world)
    (hFound : Found world.sequencer wallet objects q queue) :
    InLine (world.enqueued objects q queue wallet now gcTimers) := by
  have hLength := (List.getElem?_eq_some_iff.mp hFound.object).1
  have hHeld := hFound.held
  have hIds : ∀ item ∈ queue.queue, item.id < world.calls.length := by
    rcases hHeld with hOld | rfl
    · exact fun item hMem => hInLine.id_lt hOld hMem
    · exact fun _ h => nomatch h
  unfold SequencerWorld.enqueued
  refine ⟨?_, ?_, ?_, ?_, ?_, ?_, ?_, ?_⟩
  · intro owner j hQueues
    by_cases hSame : owner = wallet
    · subst hSame
      simp only [Function.update_self] at hQueues
      cases hQueues
      exact ⟨_, List.getElem?_set_self hLength⟩
    · simp only [Function.update_of_ne hSame] at hQueues
      rcases hInLine.mapped owner j hQueues with ⟨other, hOther⟩
      have hFoundOther := hFound.getElem?_of_old hOther
      refine ⟨other, ?_⟩
      rw [List.getElem?_set_ne]
      · exact hFoundOther
      · rintro rfl
        rw [hFound.object] at hFoundOther
        cases hFoundOther
        exact hSame rfl
  · intro j owner other hObject hQueues
    rcases getElem?_set_cases hObject with ⟨rfl, hNew⟩ | ⟨hNe, -⟩
    · cases hNew
      simp only [Function.update_self] at hQueues
      exact absurd rfl hQueues
    · apply hInLine.collected j owner other (hFound.others hNe hObject)
      by_cases hSame : owner = wallet
      · subst hSame
        rcases hFound.created with ⟨-, hOld⟩ | ⟨-, hOld, -⟩
        · rw [hOld]
          exact fun h => hNe (Option.some.inj h).symm
        · rw [hOld]
          nofun
      · simpa only [Function.update_of_ne hSame] using hQueues
  · intro j owner other hObject item hItem
    have hOld :
        world.calls[item.id]? = some owner → (world.calls ++ [wallet])[item.id]? = some owner :=
      getElem?_extended (List.prefix_append _ _)
    rcases getElem?_set_cases hObject with ⟨rfl, hNew⟩ | ⟨hNe, -⟩
    · cases hNew
      rcases AsyncQueue.mem_items_enqueue hItem with hMem | rfl
      · rcases hHeld with hBefore | rfl
        · exact hOld (hInLine.owned j wallet queue hBefore item hMem)
        · cases hMem
      · exact List.getElem?_concat_length
    · exact hOld (hInLine.owned j owner other (hFound.others hNe hObject) item hItem)
  · intro object hMem hIdle
    rcases List.mem_iff_getElem?.mp hMem with ⟨j, hObject⟩
    rcases getElem?_set_cases hObject with ⟨rfl, rfl⟩ | ⟨hNe, -⟩
    · unfold AsyncQueue.enqueue at hIdle
      cases hStage : queue.stage <;> simp [hStage] at hIdle
    · exact hInLine.idle object (List.mem_of_getElem? (hFound.others hNe hObject)) hIdle
  · intro object hMem
    rcases List.mem_iff_getElem?.mp hMem with ⟨j, hObject⟩
    rcases getElem?_set_cases hObject with ⟨rfl, rfl⟩ | ⟨hNe, -⟩
    · have hSorted : (queue.queue.map QueuedOperation.id).Pairwise
          (· < ·) := by
        rcases hHeld with hOld | rfl
        · exact hInLine.sorted (wallet, queue) (List.mem_of_getElem? hOld)
        · exact List.Pairwise.nil
      unfold AsyncQueue.enqueue
      rw [List.map_append, List.pairwise_append]
      refine ⟨hSorted, List.pairwise_singleton _ _, ?_⟩
      intro i hi k hk
      rcases List.mem_map.mp hi with ⟨item, hItem, rfl⟩
      rw [List.mem_singleton.mp hk]
      exact hIds item hItem
    · exact hInLine.sorted object (List.mem_of_getElem? (hFound.others hNe hObject))
  · intro j owner other hObject item hItem i hi
    rw [startedOf_calls hInLine.known] at hi
    rcases getElem?_set_cases hObject with ⟨rfl, hNew⟩ | ⟨hNe, -⟩
    · cases hNew
      rcases List.mem_append.mp hItem with hMem | hLast
      · rcases hHeld with hOld | rfl
        · exact hInLine.later j wallet queue hOld item hMem i hi
        · cases hMem
      · rw [List.mem_singleton.mp hLast]
        exact hInLine.known i (List.mem_of_mem_filter hi)
    · exact hInLine.later j owner other (hFound.others hNe hObject) item hItem i hi
  · intro i hi
    rw [List.length_append]
    exact Nat.lt_add_right _ (hInLine.known i hi)
  · intro owner
    rw [startedOf_calls hInLine.known]
    exact hInLine.inOrder owner

/- A turn adds nothing to what waits, and awaits its head. -/
theorem Turn.queue_sublist (hTurn : Turn world queue queue' started outcomes settled) :
    queue'.queue.Sublist queue.queue := by
  cases hTurn with
  | giveUp hStage hQueue =>
    rw [hQueue]
    exact List.sublist_cons_self _ _
  | execute hStage hQueue =>
    rw [hQueue]
    exact List.sublist_cons_self _ _
  | _ => exact List.Sublist.refl _

theorem Turn.mem_items (hTurn : Turn world queue queue' started outcomes settled)
    (hMem : item ∈ queue'.items) :
    item ∈ queue.items := by
  cases hTurn with
  | stop hStage => exact AsyncQueue.mem_items_of_mem hMem
  | giveUp hStage hQueue =>
    unfold AsyncQueue.items at hMem ⊢
    simp only [hStage, hQueue] at hMem ⊢
    exact List.mem_cons_of_mem _ hMem
  | execute hStage hQueue =>
    unfold AsyncQueue.items at hMem ⊢
    simpa only [hStage, hQueue] using hMem
  | settle hStage => exact AsyncQueue.mem_items_of_mem hMem
  | resume hStage => exact AsyncQueue.mem_items_of_mem hMem

theorem Turn.idle (hTurn : Turn world queue queue' started outcomes settled)
    (hIdle : queue'.stage = .idle) :
    queue'.queue = [] := by
  cases hTurn with
  | stop _ hQueue => exact hQueue
  | giveUp hStage =>
    rw [hStage] at hIdle
    cases hIdle
  | _ => cases hIdle

theorem Turn.started_cases (hTurn : Turn world queue queue' started outcomes settled) :
    started = world.started ∨ ∃ item, queue.queue = item :: queue'.queue ∧
      started = world.started ++ [item.id] := by
  cases hTurn with
  | execute hStage hQueue => exact Or.inr ⟨_, hQueue, rfl⟩
  | _ => exact Or.inl rfl

theorem InLine.alone (hInLine : InLine world)
    (hObject : world.sequencer.objects[q]? = some (wallet, queue))
    (hOther : world.sequencer.objects[j]? = some (wallet, other)) (hNe : j ≠ q)
    (hSome : queue.queue ≠ []) :
    other.queue = [] := by
  apply hInLine.collected j wallet other hOther
  intro hMapped
  apply hSome
  apply hInLine.collected q wallet queue hObject
  rw [hMapped]
  exact fun h => hNe (Option.some.inj h)

theorem InLine.turn (hInLine : InLine world)
    (hObject : world.sequencer.objects[q]? = some (wallet, queue))
    (hTurn : Turn world queue queue' started outcomes settled) :
    InLine
      { sequencer := world.sequencer.setQueue q wallet queue'
        calls := world.calls
        started
        outcomes
        settled } := by
  have hLength := (List.getElem?_eq_some_iff.mp hObject).1
  have hSub := hTurn.queue_sublist
  have hSorted := hInLine.sorted (wallet, queue) (List.mem_of_getElem? hObject)
  have hCalled : ∀ head, queue.queue = head :: queue'.queue →
      world.calls[head.id]? = some wallet := by
    intro head hHead
    apply hInLine.owned q wallet queue hObject
    apply AsyncQueue.mem_items_of_mem
    rw [hHead]
    exact List.mem_cons_self
  refine ⟨?_, ?_, ?_, ?_, ?_, ?_, ?_, ?_⟩
  · intro owner j hQueues
    rcases hInLine.mapped owner j hQueues with ⟨other, hOther⟩
    by_cases hSame : q = j
    · subst hSame
      rw [hObject] at hOther
      cases hOther
      exact ⟨queue', List.getElem?_set_self hLength⟩
    · refine ⟨other, ?_⟩
      unfold CreatorSequencer.setQueue
      rw [List.getElem?_set_ne hSame]
      exact hOther
  · intro j owner other hOther hQueues
    rcases getElem?_set_cases hOther with ⟨rfl, hNew⟩ | ⟨-, hOld⟩
    · cases hNew
      have hNil := hInLine.collected j wallet queue hObject hQueues
      rw [hNil] at hSub
      exact List.sublist_nil.mp hSub
    · exact hInLine.collected j owner other hOld hQueues
  · intro j owner other hOther item hItem
    rcases getElem?_set_cases hOther with ⟨rfl, hNew⟩ | ⟨-, hOld⟩
    · cases hNew
      exact hInLine.owned j wallet queue hObject item (hTurn.mem_items hItem)
    · exact hInLine.owned j owner other hOld item hItem
  · intro object hMem hIdle
    rcases List.mem_iff_getElem?.mp hMem with ⟨j, hOther⟩
    rcases getElem?_set_cases hOther with ⟨rfl, rfl⟩ | ⟨-, hOld⟩
    · exact hTurn.idle hIdle
    · exact hInLine.idle object (List.mem_of_getElem? hOld) hIdle
  · intro object hMem
    rcases List.mem_iff_getElem?.mp hMem with ⟨j, hOther⟩
    rcases getElem?_set_cases hOther with ⟨rfl, rfl⟩ | ⟨-, hOld⟩
    · exact hSorted.sublist (hSub.map _)
    · exact hInLine.sorted object (List.mem_of_getElem? hOld)
  · intro j owner other hOther item hItem i hi
    have hOldItem : ∀ k ∈ world.startedOf owner, k < item.id := by
      intro k hk
      rcases getElem?_set_cases hOther with ⟨rfl, hNew⟩ | ⟨-, hOld⟩
      · cases hNew
        exact hInLine.later j wallet queue hObject item (hSub.subset hItem) k hk
      · exact hInLine.later j owner other hOld item hItem k hk
    rcases hTurn.started_cases with rfl | ⟨head, hHead, rfl⟩
    · exact hOldItem i hi
    · rcases List.mem_filter.mp hi with ⟨hMem, hOwner⟩
      rcases List.mem_append.mp hMem with hBefore | hNow
      · exact hOldItem i (List.mem_filter.mpr ⟨hBefore, hOwner⟩)
      · rw [List.mem_singleton.mp hNow] at hOwner ⊢
        have hSame : wallet = owner := by
          have hCall := of_decide_eq_true hOwner
          rw [hCalled head hHead] at hCall
          exact Option.some.inj hCall
        subst hSame
        rcases getElem?_set_cases hOther with ⟨rfl, hNew⟩ | ⟨hNe, hOld⟩
        · cases hNew
          rw [hHead, List.map_cons, List.pairwise_cons] at hSorted
          exact hSorted.1 item.id (List.mem_map_of_mem hItem)
        · have hSome : queue.queue ≠ [] := by
            rw [hHead]
            exact List.cons_ne_nil _ _
          rw [hInLine.alone hObject hOld hNe hSome] at hItem
          cases hItem
  · intro i hi
    rcases hTurn.started_cases with rfl | ⟨head, hHead, rfl⟩
    · exact hInLine.known i hi
    · rcases List.mem_append.mp hi with hBefore | hNow
      · exact hInLine.known i hBefore
      · rw [List.mem_singleton.mp hNow]
        apply hInLine.id_lt hObject
        rw [hHead]
        exact List.mem_cons_self
  · intro owner
    rcases hTurn.started_cases with rfl | ⟨head, hHead, rfl⟩
    · exact hInLine.inOrder owner
    · have hMem : head ∈ queue.queue := by
        rw [hHead]
        exact List.mem_cons_self
      have hHeadCall := hCalled head hHead
      unfold SequencerWorld.startedOf
      simp only [List.filter_append, List.filter_singleton, hHeadCall]
      by_cases hSame : wallet = owner
      · subst hSame
        rw [decide_eq_true rfl, cond_true, List.pairwise_append]
        refine ⟨hInLine.inOrder wallet, List.pairwise_singleton _ _, ?_⟩
        intro i hi k hk
        rw [List.mem_singleton.mp hk]
        exact hInLine.later q wallet queue hObject head hMem i hi
      · have hNe : some wallet ≠ some owner := by simpa using hSame
        rw [decide_eq_false hNe, cond_false, List.append_nil]
        exact hInLine.inOrder owner

/- A queue that is collected holds nothing. -/
theorem InLine.collect (hInLine : InLine world) (wallet : String) :
    InLine { world with
        sequencer := world.sequencer.collect wallet } := by
  have hQueues : ∀ owner j, (world.sequencer.collect wallet).queues owner = some j →
      world.sequencer.queues owner = some j := by
    intro owner j hMapped
    unfold CreatorSequencer.collect at hMapped
    dsimp only at hMapped
    split at hMapped
    · by_cases hSame : owner = wallet
      · subst hSame
        rw [Function.update_self] at hMapped
        cases hMapped
      · rwa [Function.update_of_ne hSame] at hMapped
    · exact hMapped
  refine ⟨fun owner j h => hInLine.mapped owner j (hQueues owner j h),
    ?_, hInLine.owned, hInLine.idle, hInLine.sorted,
    hInLine.later, hInLine.known, hInLine.inOrder⟩
  intro j owner other hOther hUnmapped
  by_cases hOld : world.sequencer.queues owner = some j
  · unfold CreatorSequencer.collect at hUnmapped
    dsimp only at hUnmapped
    split at hUnmapped
    · rename_i hIdle
      by_cases hSame : owner = wallet
      · subst hSame
        have hObject : world.sequencer.objects[j]? = some (owner, other) := hOther
        unfold CreatorSequencer.queueOf at hIdle
        rw [hOld, Option.bind_some, hObject, Option.map_some,
          Option.any_some, decide_eq_true_iff] at hIdle
        exact List.length_eq_zero_iff.mp hIdle
      · rw [Function.update_of_ne hSame] at hUnmapped
        exact absurd hOld hUnmapped
    · exact absurd hOld hUnmapped
  · exact hInLine.collected j owner other hOther hOld

theorem inLine_step (hInLine : InLine world) (hStep : world.step move = some world') :
    InLine world' := by
  rcases SequencerWorld.step_cases hInLine hStep with
    ⟨wallet, now, objects, q, queue, gcTimers, -, hFound, rfl⟩ |
      ⟨q, wallet, queue, queue', started, outcomes, settled, -, hObject, hTurn, rfl⟩ |
      ⟨wallet, now, -, rfl⟩
  · exact hInLine.enqueue hFound
  · exact hInLine.turn hObject hTurn
  · exact hInLine.collect wallet

-- One Operation After Another
----

variable {moves : List (SequencerMove ε α)}

def Exclusive (world : SequencerWorld ε α) : Prop :=
  ∀ (q : ℕ) wallet queue, world.sequencer.objects[q]? = some (wallet, queue) →
    queue.stage.isExecuting = true → world.sequencer.queues wallet = some q

theorem Turn.nonempty_of_executing (hTurn : Turn world queue queue' started outcomes settled)
    (hExecuting : queue'.stage.isExecuting = true) :
    queue.queue ≠ [] := by
  cases hTurn with
  | giveUp hStage hQueue =>
    rw [hQueue]
    exact List.cons_ne_nil _ _
  | execute hStage hQueue =>
    rw [hQueue]
    exact List.cons_ne_nil _ _
  | _ => cases hExecuting

theorem exclusive_step (hInLine : InLine world) (hExclusive : Exclusive world)
    (hCollects : CollectsIdle world move) (hStep : world.step move = some world') :
    Exclusive world' := by
  rcases SequencerWorld.step_cases hInLine hStep with
    ⟨wallet, now, objects, q, queue, gcTimers, -, hFound, rfl⟩ |
      ⟨q, wallet, queue, queue', started, outcomes, settled, -, hObject, hTurn, rfl⟩ |
      ⟨wallet, now, rfl, rfl⟩
  · intro j owner other hOther hExecuting
    rcases getElem?_set_cases hOther with ⟨rfl, hNew⟩ | ⟨hNe, -⟩
    · cases hNew
      exact Function.update_self _ _ _
    · have hMapped := hExclusive j owner other (hFound.others hNe hOther) hExecuting
      have hOwner : owner ≠ wallet := by
        rintro rfl
        rcases hFound.created with ⟨-, hQueues⟩ | ⟨-, hQueues, -⟩
        · rw [hMapped] at hQueues
          exact hNe (Option.some.inj hQueues)
        · rw [hMapped] at hQueues
          cases hQueues
      exact (Function.update_of_ne hOwner _ _).trans hMapped
  · intro j owner other hOther hExecuting
    rcases getElem?_set_cases hOther with ⟨rfl, hNew⟩ | ⟨-, hOld⟩
    · cases hNew
      by_contra hUnmapped
      exact hTurn.nonempty_of_executing hExecuting
        (hInLine.collected j wallet queue hObject hUnmapped)
    · exact hExclusive j owner other hOld hExecuting
  · intro j owner other hOther hExecuting
    have hObject : world.sequencer.objects[j]? = some (owner, other) := hOther
    have hMapped := hExclusive j owner other hObject hExecuting
    unfold CreatorSequencer.collect
    dsimp only
    split
    · rename_i hIdle
      have hOwner : owner ≠ wallet := by
        rintro rfl
        have hQueue : world.sequencer.queueOf owner = some other := by
          unfold CreatorSequencer.queueOf
          rw [hMapped, Option.bind_some, hObject, Option.map_some]
        rw [hQueue, Option.any_some, decide_eq_true_iff] at hIdle
        have hNot := hCollects other hQueue hIdle
        rw [hExecuting] at hNot
        cases hNot
      rw [Function.update_of_ne hOwner]
      exact hMapped
    · exact hMapped

variable {i : ℕ}

theorem exists_executing_of_running (hAccounted : Accounted world) (hRunning : world.IsRunning i) :
    ∃ (q : ℕ) (wallet : String) (queue : AsyncQueue ε α) (item : QueuedOperation),
      world.sequencer.objects[q]? = some (wallet, queue) ∧
        queue.stage = .executing item ∧ item.id = i := by
  have hStarted := hAccounted.started i
  have hPos : 0 < world.started.count i := List.count_pos_iff.mpr hRunning.1
  have hNone : (world.outcomes.map Prod.fst).count i = 0 := List.count_eq_zero.mpr hRunning.2
  have hTotal : 0 < totalOf (AsyncQueue.executes i)
      world.sequencer.objects := by omega
  rcases exists_of_totalOf_pos hTotal with ⟨q, wallet, queue, hObject, hExecutes⟩
  unfold AsyncQueue.executes at hExecutes
  split at hExecutes
  · rename_i item hStage
    split at hExecutes
    · rename_i hSame
      exact ⟨q, wallet, queue, item, hObject, hStage, hSame⟩
    · cases hExecutes
  · cases hExecutes

theorem running_unique (hAccounted : Accounted world) (hInLine : InLine world)
    (hExclusive : Exclusive world) (hRunning : world.IsRunning i) (hOther : world.IsRunning j)
    (hSame : world.calls[i]? = world.calls[j]?) :
    i = j := by
  rcases exists_executing_of_running hAccounted hRunning with
    ⟨q, wallet, queue, item, hObject, hStage, rfl⟩
  rcases exists_executing_of_running hAccounted hOther with
    ⟨k, owner, other, item', hObject', hStage', rfl⟩
  have hItem : item ∈ queue.items := by
    unfold AsyncQueue.items
    rw [hStage]
    exact List.mem_cons_self
  have hItem' : item' ∈ other.items := by
    unfold AsyncQueue.items
    rw [hStage']
    exact List.mem_cons_self
  have hWallet := hInLine.owned q wallet queue hObject item hItem
  have hOwner := hInLine.owned k owner other hObject' item' hItem'
  rw [hWallet, hOwner] at hSame
  cases hSame
  have hMapped := hExclusive q wallet queue hObject (by rw [hStage]; rfl)
  have hMapped' := hExclusive k wallet other hObject' (by rw [hStage']; rfl)
  rw [hMapped] at hMapped'
  cases hMapped'
  rw [hObject] at hObject'
  cases hObject'
  rw [hStage] at hStage'
  cases hStage'
  rfl

theorem sequenced_of_run (hRun : RunsTo SequencerWorld.step (fun _ _ => True) .start moves world) :
    InLine world ∧ Accounted world := by
  apply hRun.invariant ⟨inLine_start, accounted_start⟩
  rintro before _ after ⟨hInLine, hAccounted⟩ - hStep
  exact ⟨inLine_step hInLine hStep, accounted_step hInLine hAccounted hStep⟩

theorem exclusive_of_run (hRun : RunsTo SequencerWorld.step CollectsIdle .start moves world) :
    Exclusive world := by
  have hBoth : InLine world ∧ Exclusive world := by
    apply hRun.invariant ⟨inLine_start, fun _ _ _ h => nomatch h⟩
    rintro before _ after ⟨hInLine, hExclusive⟩ hCollects hStep
    exact ⟨inLine_step hInLine hStep, exclusive_step hInLine hExclusive hCollects hStep⟩
  exact hBoth.2

def Settlement.isTimedOut : Settlement ε α → Bool
  | .timedOut _ => true
  | .answered _ => false

/- A promise was answered, or its operation was given up. -/
theorem count_settled (settled : List (ℕ × Settlement ε α)) (i : ℕ) :
    (settled.map Prod.fst).count i = (answeredIds settled).count i + (settled.filter fun x =>
      x.1 = i ∧ x.2.isTimedOut).length := by
  unfold answeredIds
  induction settled with
  | nil => rfl
  | cons x rest ih =>
    rcases x with ⟨j, settlement⟩
    rw [List.map_cons, List.count_cons, ih, List.filterMap_cons, List.filter_cons]
    cases settlement with
    | answered outcome =>
      simp [Settlement.isTimedOut, List.count_cons]
      omega
    | timedOut waited =>
      by_cases hSame : j = i
      · simp [Settlement.isTimedOut, hSame]
        omega
      · simp [Settlement.isTimedOut, hSame]

theorem totalOf_eq_zero_of_atRest (hInLine : InLine world) (hRest : world.AtRest)
    (hZero : ∀ queue : AsyncQueue ε α, queue.queue = [] → queue.stage = .idle → f queue = 0) :
    totalOf f world.sequencer.objects = 0 := by
  by_contra hSome
  rcases exists_of_totalOf_pos (Nat.pos_of_ne_zero hSome) with ⟨q, wallet, queue, hObject, hPos⟩
  have hMem := List.mem_of_getElem? hObject
  have hIdle := hRest (wallet, queue) hMem
  rw [hZero queue (hInLine.idle (wallet, queue) hMem hIdle) hIdle] at hPos
  cases hPos

theorem settledOnce_of_accounted (hInLine : InLine world) (hAccounted : Accounted world) :
    world.SettledOnce := by
  have hCounts : ∀ i, (world.settled.map Prod.fst).count i ≤ 1 ∧
      (world.outcomes.map Prod.fst).count i ≤ 1 := by
    intro i
    have hPlaced := hAccounted.placed i
    have hEnded := hAccounted.ended i
    have hSettled := count_settled world.settled i
    split at hPlaced <;> omega
  refine ⟨?_, ?_, hAccounted.answered, ?_, ?_⟩
  · rw [List.nodup_iff_count_le_one]
    exact fun i => (hCounts i).1
  · rw [List.nodup_iff_count_le_one]
    exact fun i => (hCounts i).2
  · intro i waited hSettled
    refine ⟨hAccounted.timedOut i waited hSettled, ?_⟩
    rw [← List.count_eq_zero]
    have hGivenUp : 0 < (world.settled.filter fun x =>
      x.1 = i ∧ x.2.isTimedOut).length := by
      apply List.length_pos_of_mem (a := (i, .timedOut waited))
      rw [List.mem_filter]
      exact ⟨hSettled, by simp [Settlement.isTimedOut]⟩
    have hPlaced := hAccounted.placed i
    have hStarted := hAccounted.started i
    have hEnded := hAccounted.ended i
    have hCount := count_settled world.settled i
    split at hPlaced <;> omega
  · intro hRest i hi
    have hPlaced := hAccounted.placed i
    rw [if_pos hi, totalOf_eq_zero_of_atRest hInLine hRest fun queue hQueue _ => by
      simp [AsyncQueue.waits, hQueue],
      totalOf_eq_zero_of_atRest hInLine hRest fun queue _ hIdle => by
        simp [AsyncQueue.executes, hIdle],
      totalOf_eq_zero_of_atRest hInLine hRest fun queue _ hIdle => by
        simp [AsyncQueue.returns, hIdle]] at hPlaced
    apply List.count_pos_iff.mp
    omega

/-
  In every run the operations of a wallet are started in the
  order of their calls, and a promise is settled once, with its
  operation's outcome or because it waited too long; none of them
  overlap if no queue is collected while it awaits an operation.
-/
theorem operations_sequenced
    (hRun : RunsTo SequencerWorld.step (fun _ _ => True) .start moves world) :
    (∀ wallet, (world.startedOf wallet).Pairwise (· < ·)) ∧ world.SettledOnce ∧
      (RunsTo SequencerWorld.step CollectsIdle .start moves world →
        ∀ i j, world.IsRunning i → world.IsRunning j →
          world.calls[i]? = world.calls[j]? → i = j) := by
  rcases sequenced_of_run hRun with ⟨hInLine, hAccounted⟩
  refine ⟨hInLine.inOrder, settledOnce_of_accounted hInLine hAccounted, ?_⟩
  intro hIdle i j hRunning hOther hSame
  exact running_unique hAccounted hInLine (exclusive_of_run hIdle) hRunning hOther hSame

/-
  Two operations of a wallet and two of another, whose idle queue
  is collected between them.
-/
def sampleSequence : List (SequencerMove String ℕ) :=
  [.enqueue "alice" 0, .drain 0 0, .enqueue "alice" 10,
    .enqueue "bob" 20, .drain 1 20, .settle 1 (.error "failed"), .resume 1, .settle 0 (.ok 7),
    .resume 0, .drain 0 30, .fire "bob" 300020, .enqueue "bob" 300030, .drain 2 300030]

theorem operations_sequenced_sample :
    ∃ world : SequencerWorld String ℕ, RunsTo SequencerWorld.step CollectsIdle .start sampleSequence
      world ∧ world.started = [0, 2, 1, 3] ∧ world.IsRunning 1 ∧ ∀ j, world.IsRunning j →
      world.calls[1]? = world.calls[j]? → 1 = j := by
  have hRuns : (runAllowed SequencerWorld.step CollectsIdle
      (.start : SequencerWorld String ℕ) sampleSequence).map
      (fun world => (world.started, world.outcomes.map Prod.fst)) =
      some ([0, 2, 1, 3], [2, 0]) := by decide
  rcases Option.map_eq_some_iff.mp hRuns with ⟨world, hSome, hFields⟩
  rcases Prod.mk.inj hFields with ⟨hStarted, hOutcomes⟩
  have hRun := runsTo_of_runAllowed hSome
  have hRunning : world.IsRunning 1 := by
    unfold SequencerWorld.IsRunning
    rw [hStarted, hOutcomes]
    decide
  exact ⟨world, hRun, hStarted, hRunning, fun j hOther hSame => (operations_sequenced
    (hRun.mono fun _ _ _ => trivial)).2.2 hRun 1 j hRunning hOther hSame⟩

/-
  An operation that waits behind a slow one is given up; and a
  queue that is collected while its operation is slow leaves the
  next one to overlap with it.
-/
theorem slow_operation_not_sequenced :
    (∃ world : SequencerWorld String ℕ, RunsTo SequencerWorld.step (fun _ _ => True) .start
      [.enqueue "alice" 0, .drain 0 0, .enqueue "alice" 1,
        .settle 0 (.ok 7), .resume 0, .drain 0 10002] world ∧ world.settled =
      [(0, .answered (.ok 7)), (1, .timedOut 10001)] ∧ world.started = [0]) ∧
    ∃ world : SequencerWorld String ℕ, RunsTo SequencerWorld.step (fun _ _ => True) .start
      [.enqueue "alice" 0, .drain 0 0, .fire "alice" 300000,
        .enqueue "alice" 300001, .drain 1 300001] world ∧ world.calls = ["alice", "alice"] ∧
      world.IsRunning 0 ∧
      world.IsRunning 1 := by
  constructor
  · refine ⟨_, runsTo_of_runLabels rfl, rfl, rfl⟩
  · have hRuns : (runLabels SequencerWorld.step (.start : SequencerWorld String ℕ)
        [.enqueue "alice" 0, .drain 0 0, .fire "alice" 300000,
          .enqueue "alice" 300001, .drain 1 300001]).map
        (fun world => (world.calls, world.started, world.outcomes.map Prod.fst)) =
        some (["alice", "alice"], [0, 1], []) := by decide
    rcases Option.map_eq_some_iff.mp hRuns with ⟨world, hSome, hFields⟩
    rcases Prod.mk.inj hFields with ⟨hCalls, hRest⟩
    rcases Prod.mk.inj hRest with ⟨hStarted, hOutcomes⟩
    refine ⟨world, runsTo_of_runLabels hSome, hCalls, ?_, ?_⟩
    · unfold SequencerWorld.IsRunning
      rw [hStarted, hOutcomes]
      decide
    · unfold SequencerWorld.IsRunning
      rw [hStarted, hOutcomes]
      decide

end Utils

end AccessLayer
