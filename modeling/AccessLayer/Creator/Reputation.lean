import AccessLayer.Governance.Proposals
import AccessLayer.Indexer.TradeTables
import AccessLayer.Library.Runs
import Mathlib.Data.List.Dedup
import Mathlib.Logic.Function.Basic

/-
  The reputation of creators
  (`src/modules/creator/creator-reputation.service.ts`).

  A call that records an event increments a counter, and then
  writes the score of the counters it was answered with; a
  rebuild counts rows of other tables and overwrites all of it.
  Statements of any number of calls interleave, and an event may
  be delivered to any number of calls.  Ids of rows, caches and
  logs are left out.

  Main result: `reputation_consistent`
-/

-- Scores
----

namespace AccessLayer

namespace Creator

namespace Reputation

section

inductive ReputationEventType where
  | keyLaunched
  | milestoneReached
  | governanceVote
  | keyDeprecated
  deriving DecidableEq

structure ReputationBreakdown where
  keyLaunches : ℕ
  milestonesReached : ℕ
  governanceVotes : ℕ
  deprecations : ℕ
  deriving DecidableEq

def ReputationBreakdown.zero : ReputationBreakdown where
  keyLaunches := 0
  milestonesReached := 0
  governanceVotes := 0
  deprecations := 0

/- The counter of a type of events. -/
def ReputationBreakdown.get (breakdown : ReputationBreakdown) : ReputationEventType → ℕ
  | .keyLaunched => breakdown.keyLaunches
  | .milestoneReached => breakdown.milestonesReached
  | .governanceVote => breakdown.governanceVotes
  | .keyDeprecated => breakdown.deprecations

def ReputationBreakdown.increment (breakdown : ReputationBreakdown) :
    ReputationEventType → ReputationBreakdown
  | .keyLaunched => { breakdown with keyLaunches := breakdown.keyLaunches + 1 }
  | .milestoneReached =>
    { breakdown with
      milestonesReached := breakdown.milestonesReached + 1 }
  | .governanceVote =>
    { breakdown with
      governanceVotes := breakdown.governanceVotes + 1 }
  | .keyDeprecated => { breakdown with deprecations := breakdown.deprecations + 1 }

theorem get_increment (breakdown : ReputationBreakdown) (eventType type : ReputationEventType) :
    (breakdown.increment eventType).get type =
      breakdown.get type + if eventType = type then 1 else 0 := by
  cases eventType <;> cases type <;> rfl

def calculateTier (score : ℤ) : String :=
  if 1000 ≤ score then "PLATINUM"
  else if 500 ≤ score then "GOLD"
  else if 300 ≤ score then "SILVER"
  else if 100 ≤ score then "BRONZE"
  else "IRON"

def calculateScore (breakdown : ReputationBreakdown) : ℤ :=
  breakdown.keyLaunches * 50 + breakdown.milestonesReached * 30 + breakdown.governanceVotes * 5 +
    breakdown.deprecations * (-50)

/-
  A row, the number of changes of its counters, and the number
  of those changes that its score has been computed after.
-/
structure CreatorReputation where
  currentScore : ℤ
  tier : String
  breakdown : ReputationBreakdown
  changes : ℕ
  scored : ℕ

/- The column defaults. -/
def CreatorReputation.created : CreatorReputation where
  currentScore := 0
  tier := "IRON"
  breakdown := .zero
  changes := 0
  scored := 0

def CreatorReputation.count (eventType : ReputationEventType)
    (row : CreatorReputation) : CreatorReputation :=
  { row with
    breakdown := row.breakdown.increment eventType
    changes := row.changes + 1 }

/- The score of counters as they were after some changes. -/
def CreatorReputation.score (breakdown : ReputationBreakdown) (changes : ℕ)
    (row : CreatorReputation) : CreatorReputation :=
  { row with
    currentScore := calculateScore breakdown
    tier := calculateTier (calculateScore breakdown)
    scored := changes }

/- The row of an upsert; counters that stay are no change. -/
def CreatorReputation.rebuilt (breakdown : ReputationBreakdown)
    (row : CreatorReputation) : CreatorReputation :=
  let changes :=
    if breakdown = row.breakdown then row.changes
    else row.changes + 1
  { CreatorReputation.score breakdown changes row with
    breakdown
    changes }

/- The score and tier are those of the stored counters. -/
def CreatorReputation.Consistent (row : CreatorReputation) : Prop :=
  row.currentScore = calculateScore row.breakdown ∧
    row.tier = calculateTier (calculateScore row.breakdown)

instance (row : CreatorReputation) : Decidable row.Consistent := inferInstanceAs (Decidable (_ ∧ _))

-- Calls
----

open Transactional Indexer Governance

structure ReputationEvent where
  creatorId : String
  eventType : ReputationEventType
  ledger : ℤ
  txHash : Option String
  deriving DecidableEq

structure CreatorReputationHistory where
  creatorId : String
  score : ℤ
  tier : String
  eventType : ReputationEventType
  ledger : ℤ
  txHash : Option String

structure CreatorReputationResponse where
  score : ℤ
  tier : String
  breakdown : ReputationBreakdown

inductive ReputationError where
  | uniqueViolation
  | recordNotFound

/- The next statement of `recordReputationEvent`. -/
inductive RecordStage where
  | findReputation
  | createReputation
  | updateBreakdown
  | updateScore (updated : ReputationBreakdown) (changes : ℕ)
  | createHistory (score : ℤ) (tier : String)
  | ended (result : Except ReputationError Unit)

/- The counts of a rebuild are awaited together. -/
inductive RebuildStage where
  | counting (found : ReputationEventType → Option ℕ)
  | ended (result : CreatorReputationResponse)

inductive ReputationCall where
  | record (event : ReputationEvent) (stage : RecordStage)
  | rebuild (creatorId : String) (stage : RebuildStage)

/- The tables that a rebuild counts. -/
structure ReputationTables where
  activity : List Activity
  governanceVote : List GovernanceVote
  creatorProfile : List CreatorProfile

/- What a rebuild takes for the events of a type. -/
def ReputationTables.count (tables : ReputationTables)
    (creatorId : String) : ReputationEventType → ℕ
  | .keyLaunched =>
    tables.activity.countP fun row => row.creatorId = some creatorId ∧ row.type = .creatorRegistered
  | .milestoneReached =>
    tables.activity.countP fun row => row.creatorId = some creatorId ∧ row.type = .supplyCapSet
  | .governanceVote => tables.governanceVote.countP fun row => row.keyId = creatorId
  | .keyDeprecated =>
    tables.creatorProfile.countP fun row => row.id = creatorId ∧ row.deprecatedAt.isSome = true

/- The tables, the calls, and the events that have been counted, in order. -/
structure ReputationWorld where
  rows : String → Option CreatorReputation
  history : List CreatorReputationHistory
  tables : ReputationTables
  calls : List ReputationCall
  counted : List ReputationEvent

/- An event to record, delivered once more, or a rebuild. -/
inductive ReputationRequest where
  | record (event : ReputationEvent)
  | rebuild (creatorId : String)

def ReputationRequest.call : ReputationRequest → ReputationCall
  | .record event => .record event .findReputation
  | .rebuild creatorId => .rebuild creatorId (.counting fun _ => none)

def ReputationWorld.start (tables : ReputationTables)
    (requests : List ReputationRequest) : ReputationWorld where
  rows := fun _ => none
  history := []
  tables
  calls := requests.map ReputationRequest.call
  counted := []

inductive ReputationMove where
  | run (i : ℕ)
  | count (i : ℕ) (type : ReputationEventType)
  /- other modules write their tables -/
  | others (tables : ReputationTables)

/- Nulls are distinct to a unique constraint. -/
def CreatorReputationHistory.conflicts (event : ReputationEvent)
    (row : CreatorReputationHistory) : Bool :=
  event.txHash.isSome && row.txHash = event.txHash &&
    row.ledger = event.ledger && row.eventType = event.eventType

/- The breakdown of which all counts have been found. -/
def breakdownOf
    (found : ReputationEventType → Option ℕ) :
    Option ReputationBreakdown :=
  match found .keyLaunched, found .milestoneReached,
    found .governanceVote, found .keyDeprecated with
  | some keyLaunches, some milestonesReached,
    some governanceVotes, some deprecations =>
      some {
        keyLaunches, milestonesReached, governanceVotes
        deprecations }
  | _, _, _, _ => none

namespace ReputationWorld

variable (world : ReputationWorld)

def setRow (creatorId : String) (row : CreatorReputation) : ReputationWorld :=
  { world with
    rows := Function.update world.rows creatorId (some row) }

def setCall (i : ℕ) (call : ReputationCall) : ReputationWorld :=
  { world with calls := world.calls.set i call }

def recordReputationEvent (i : ℕ) (event : ReputationEvent) : RecordStage → Option ReputationWorld
  | .findReputation =>
    match world.rows event.creatorId with
    | some _ => some (world.setCall i (.record event .updateBreakdown))
    | none => some (world.setCall i (.record event .createReputation))
  | .createReputation =>
    match world.rows event.creatorId with
    | some _ => some (world.setCall i (.record event (.ended (.error .uniqueViolation))))
    | none =>
      some ((world.setRow event.creatorId .created).setCall i (.record event .updateBreakdown))
  | .updateBreakdown =>
    match world.rows event.creatorId with
    | some row =>
      let row := row.count event.eventType
      some
        { (world.setRow event.creatorId row).setCall i (.record event
              (.updateScore row.breakdown row.changes)) with
          counted := world.counted ++ [event] }
    | none => some (world.setCall i (.record event (.ended (.error .recordNotFound))))
  | .updateScore updated changes =>
    match world.rows event.creatorId with
    | some row =>
      let row := row.score updated changes
      some ((world.setRow event.creatorId row).setCall i (.record event
        (.createHistory row.currentScore row.tier)))
    | none => some (world.setCall i (.record event (.ended (.error .recordNotFound))))
  | .createHistory score tier =>
    if world.history.any (·.conflicts event) then
      some (world.setCall i (.record event (.ended (.error .uniqueViolation))))
    else
      some { world.setCall i (.record event (.ended (.ok ()))) with
          history :=
            world.history ++
              [{ creatorId := event.creatorId
                 score
                 tier
                 eventType := event.eventType
                 ledger := event.ledger
                 txHash := event.txHash }] }
  | .ended _ => none

/- The upsert, once every count has been found. -/
def rebuildCreatorReputation (i : ℕ) (creatorId : String) : RebuildStage → Option ReputationWorld
  | .counting found =>
    (breakdownOf found).map fun breakdown =>
      let row := ((world.rows creatorId).getD .created).rebuilt breakdown
      (world.setRow creatorId row).setCall i (.rebuild creatorId (.ended
        { score := row.currentScore
          tier := row.tier
          breakdown := row.breakdown }))
  | .ended _ => none

def count (i : ℕ) (type : ReputationEventType) : Option ReputationWorld :=
  match world.calls[i]? with
  | some (.rebuild creatorId (.counting found)) =>
    match found type with
    | none =>
      some (world.setCall i (.rebuild creatorId (.counting (Function.update found type
        (some (world.tables.count creatorId type))))))
    | some _ => none
  | _ => none

def step (world : ReputationWorld) : ReputationMove → Option ReputationWorld
  | .run i =>
    match world.calls[i]? with
    | some (.record event stage) => world.recordReputationEvent i event stage
    | some (.rebuild creatorId stage) => world.rebuildCreatorReputation i creatorId stage
    | none => none
  | .count i type => world.count i type
  | .others tables => some { world with tables }

end ReputationWorld

end

-- The Condition and What It Keeps
----

section

open Transactional Indexer Governance

def ReputationCall.event : ReputationCall → Option ReputationEvent
  | .record event _ => some event
  | .rebuild _ _ => none

namespace ReputationWorld

variable (world : ReputationWorld)

/- The stored counters of a creator, zero without a row. -/
def storedBreakdown (creatorId : String) : ReputationBreakdown :=
  ((world.rows creatorId).map CreatorReputation.breakdown).getD .zero

/- The events that have been delivered, once or more often. -/
def delivered : List ReputationEvent := world.calls.filterMap ReputationCall.event

end ReputationWorld

def ReputationCall.Ended : ReputationCall → Prop
  | .record _ (.ended _) => True
  | .rebuild _ (.ended _) => True
  | _ => False

instance : DecidablePred ReputationCall.Ended := by
  intro call
  unfold ReputationCall.Ended
  split <;> infer_instance

def Quiescent (world : ReputationWorld) : Prop := ∀ call ∈ world.calls, call.Ended

instance : DecidablePred Quiescent := fun world =>
  inferInstanceAs (Decidable (∀ call ∈ world.calls, _))

/- Every stored score and tier are those of the counters. -/
def ScoresConsistent (world : ReputationWorld) : Prop :=
  ∀ creatorId, ∀ row ∈ world.rows creatorId, row.Consistent

def CountedOnce (world : ReputationWorld) : Prop :=
  ∀ creatorId type, (world.storedBreakdown creatorId).get type =
    world.delivered.dedup.countP fun event => event.creatorId = creatorId ∧ event.eventType = type

/-
  A row is created by one call only, an event is counted that is
  not counted yet, a score does not replace the score of a later
  change, and a rebuild writes the counters that are stored.
-/
def ReputationCall.InOrder (world : ReputationWorld) : ReputationCall → Prop
  | .record event .createReputation => world.rows event.creatorId = none
  | .record event .updateBreakdown => event ∉ world.counted
  | .record event (.updateScore _ changes) =>
    ∀ row ∈ world.rows event.creatorId, row.scored ≤ changes
  | .rebuild creatorId (.counting found) =>
    ∀ breakdown ∈ breakdownOf found, breakdown = world.storedBreakdown creatorId
  | _ => True

def InOrder (world : ReputationWorld) : ReputationMove → Prop
  | .run i => ∀ call ∈ world.calls[i]?, call.InOrder world
  | _ => True

instance (world : ReputationWorld) (call : ReputationCall) : Decidable (call.InOrder world) := by
  unfold ReputationCall.InOrder
  split
  · exact decidable_of_iff ((world.rows _).isNone = true) Option.isNone_iff_eq_none
  all_goals infer_instance

instance (world : ReputationWorld) (move : ReputationMove) : Decidable (InOrder world move) :=
  match move with
  | .run _ => inferInstanceAs (Decidable (∀ call ∈ (_ : Option _), _))
  | .count _ _ | .others _ => isTrue trivial

end

-- Rows and Calls of a Run
----

open Transactional

variable {world world' : ReputationWorld} {creatorId : String} {row row' : CreatorReputation}
variable {call call' : ReputationCall} {event : ReputationEvent} {i : ℕ}

theorem rows_setRow_same : (world.setRow creatorId row).rows creatorId = some row :=
  Function.update_self _ _ _

theorem rows_setRow_other {other : String} (hOther : other ≠ creatorId) :
    (world.setRow creatorId row).rows other = world.rows other := Function.update_of_ne hOther _ _

theorem delivered_setCall (hCall : world.calls[i]? = some call)
    (hEvent : call'.event = call.event) :
    (world.setCall i call').delivered = world.delivered := by
  have hMap : (world.calls.set i call').map ReputationCall.event =
      world.calls.map ReputationCall.event := by
    rw [List.map_set, hEvent]
    apply List.ext_getElem?
    intro j
    rw [List.getElem?_set]
    split
    · rename_i hSame
      subst hSame
      rw [List.getElem?_map, hCall]
      split
      · rfl
      · rename_i hLess
        rw [List.length_map] at hLess
        exact absurd (List.getElem?_eq_some_iff.mp hCall).1 hLess
    · rfl
  have hAll : ∀ calls : List ReputationCall, calls.filterMap ReputationCall.event =
      (calls.map ReputationCall.event).filterMap id := by
    intro calls
    rw [List.filterMap_map]
    rfl
  unfold ReputationWorld.delivered
  rw [hAll, hAll world.calls]
  exact congrArg (List.filterMap id) hMap

/-
  What a call knows: a row that it has found is stored, what it
  has counted is counted, and counters that have not changed
  since are those it was answered with.
-/
def ReputationCall.Knows (world : ReputationWorld) : ReputationCall → Prop
  | .record event .updateBreakdown => ∃ row, world.rows event.creatorId = some row
  | .record event (.updateScore updated changes) =>
    event ∈ world.counted ∧ ∃ row, world.rows event.creatorId = some row ∧ changes ≤ row.changes ∧
      (changes = row.changes → updated = row.breakdown)
  | .record event (.createHistory _ _) => event ∈ world.counted
  | .record event (.ended _) => event ∈ world.counted
  | _ => True

/- The rows and the counted events of a later state. -/
structure Advances (world world' : ReputationWorld) : Prop where
  rows :
    ∀ creatorId row, world.rows creatorId = some row → ∃ row', world'.rows creatorId = some row' ∧
      row.changes ≤ row'.changes ∧ (row'.changes = row.changes → row'.breakdown = row.breakdown)
  counted : ∀ event ∈ world.counted, event ∈ world'.counted

theorem ReputationCall.Knows.advances (hCall : call.Knows world)
    (hAdvances : Advances world world') :
    call.Knows world' := by
  unfold ReputationCall.Knows at hCall ⊢
  split at hCall
  · rcases hCall with ⟨row, hRow⟩
    rcases hAdvances.rows _ row hRow with ⟨row', hRow', -⟩
    exact ⟨row', hRow'⟩
  · rename_i event updated changes
    rcases hCall with ⟨hCounted, row, hRow, hLe, hSame⟩
    rcases hAdvances.rows _ row hRow with ⟨row', hRow', hLater, hKept⟩
    refine ⟨hAdvances.counted event hCounted, row', hRow', Nat.le_trans hLe hLater, ?_⟩
    rintro rfl
    have hStill := Nat.le_antisymm hLe hLater
    rw [hSame hStill, hKept hStill]
  · exact hAdvances.counted _ hCall
  · exact hAdvances.counted _ hCall
  · trivial

theorem advances_setRow (hRow : ∀ old, world.rows creatorId = some old → old.changes ≤ row.changes ∧
    (row.changes = old.changes → row.breakdown = old.breakdown)) :
    Advances world (world.setRow creatorId row) where
  rows := by
    intro other old hOld
    by_cases hSame : other = creatorId
    · subst hSame
      exact ⟨row, rows_setRow_same, hRow old hOld⟩
    · refine ⟨old, ?_, Nat.le_refl _, fun _ => rfl⟩
      rw [rows_setRow_other hSame]
      exact hOld
  counted _ h := h

/-
  A score that is not of the last change is followed by the one
  that is: the call that made the change has still to write it.
-/
def Awaited (world : ReputationWorld) (creatorId : String) (row : CreatorReputation) : Prop :=
  ∃ (i : ℕ) (event : ReputationEvent) (updated : ReputationBreakdown), world.calls[i]? =
    some (.record event (.updateScore updated row.changes)) ∧ event.creatorId = creatorId

/- What every run in order keeps. -/
structure Kept (world : ReputationWorld) : Prop where
  scored : ∀ creatorId row, world.rows creatorId = some row → row.scored ≤ row.changes ∧
    (row.scored = row.changes → row.Consistent)
  awaited : ∀ creatorId row, world.rows creatorId = some row →
    row.scored ≠ row.changes → Awaited world creatorId row
  counts :
    ∀ creatorId type, (world.storedBreakdown creatorId).get type = world.counted.countP fun event =>
      event.creatorId = creatorId ∧ event.eventType = type
  nodup : world.counted.Nodup
  known : ∀ event ∈ world.counted, event ∈ world.delivered
  calls : ∀ call ∈ world.calls, call.Knows world

theorem Kept.start (tables : ReputationTables) (requests : List ReputationRequest) :
    Kept (.start tables requests) where
  scored _ _ h := nomatch h
  awaited _ _ h := nomatch h
  counts _ type := by cases type <;> rfl
  nodup := List.nodup_nil
  known _ h := nomatch h
  calls := by
    intro call hCall
    rcases List.mem_map.mp hCall with ⟨request, -, rfl⟩
    cases request with
    | _ => trivial

theorem Awaited.setCall (h : Awaited world creatorId row) (hCall : world.calls[i]? = some call)
    (hOther : ∀ event updated, call ≠ .record event (.updateScore updated row.changes)) :
    Awaited (world.setCall i call') creatorId row := by
  rcases h with ⟨j, event, updated, hAt, hCreator⟩
  refine ⟨j, event, updated, ?_, hCreator⟩
  have hNe : i ≠ j := by
    rintro rfl
    rw [hCall] at hAt
    cases hAt
    exact hOther event updated rfl
  unfold ReputationWorld.setCall
  rw [List.getElem?_set_ne hNe]
  exact hAt

/- A call goes on, and rows and counted events stay. -/
theorem Kept.setCall (hKept : Kept world) (hCall : world.calls[i]? = some call)
    (hEvent : call'.event = call.event)
    (hStage : ∀ event updated changes, call ≠ .record event (.updateScore updated changes))
    (hKnows : call'.Knows world) :
    Kept (world.setCall i call') where
  scored := hKept.scored
  awaited creatorId row hRow hNe :=
    (hKept.awaited creatorId row hRow hNe).setCall hCall fun event updated => hStage event updated _
  counts := hKept.counts
  nodup := hKept.nodup
  known := by
    rw [delivered_setCall hCall hEvent]
    exact hKept.known
  calls := by
    intro other hOther
    rcases List.mem_or_eq_of_mem_set hOther with hOld | rfl
    · exact hKept.calls other hOld
    · exact hKnows

theorem storedBreakdown_eq (hRow : world.rows creatorId = some row) :
    world.storedBreakdown creatorId = row.breakdown := by
  unfold ReputationWorld.storedBreakdown
  rw [hRow]
  rfl

/- A call writes the row of one creator, and may count an event of that creator. -/
theorem Kept.write {counted : List ReputationEvent} (hKept : Kept world)
    (hCall : world.calls[i]? = some call)
    (hWorld : world' = { (world.setRow creatorId row).setCall i call' with counted })
    (hEvent : call'.event = call.event)
    (hCreator : ∀ event updated changes, call = .record event (.updateScore updated changes) →
      event.creatorId = creatorId) (hAdvances : Advances world world')
    (hScored : row.scored ≤ row.changes ∧ (row.scored = row.changes → row.Consistent))
    (hAwaited : row.scored ≠ row.changes → Awaited world' creatorId row)
    (hCounts : ∀ type, row.breakdown.get type = counted.countP fun event =>
      event.creatorId = creatorId ∧ event.eventType = type)
    (hOthers : ∀ other, other ≠ creatorId → ∀ type, (counted.countP fun event =>
      event.creatorId = other ∧ event.eventType = type) =
      world.counted.countP fun event => event.creatorId = other ∧ event.eventType = type)
    (hNodup : counted.Nodup)
    (hKnown : ∀ event ∈ counted, event ∈ world.delivered)
    (hKnows : call'.Knows world') :
    Kept world' := by
  have hSelf : world'.rows creatorId = some row := by
    rw [hWorld]
    exact rows_setRow_same
  have hRest : ∀ other, other ≠ creatorId →
      world'.rows other = world.rows other := by
    intro other hOther
    rw [hWorld]
    exact rows_setRow_other hOther
  have hCounted : world'.counted = counted := by rw [hWorld]
  have hCalls : world'.calls = world.calls.set i call' := by
    rw [hWorld]
    rfl
  have hDelivered : world'.delivered = world.delivered := by
    rw [hWorld]
    exact @delivered_setCall (world.setRow creatorId row) call call' i hCall hEvent
  constructor
  · intro other found hFound
    by_cases hSame : other = creatorId
    · subst hSame
      cases hSelf.symm.trans hFound
      exact hScored
    · rw [hRest other hSame] at hFound
      exact hKept.scored other found hFound
  · intro other found hFound hNe
    by_cases hSame : other = creatorId
    · subst hSame
      cases hSelf.symm.trans hFound
      exact hAwaited hNe
    · rw [hRest other hSame] at hFound
      rcases hKept.awaited other found hFound hNe with ⟨j, event, updated, hAt, hOwner⟩
      refine ⟨j, event, updated, ?_, hOwner⟩
      have hNe : i ≠ j := by
        rintro rfl
        rw [hCall] at hAt
        cases hAt
        exact hSame (hOwner.symm.trans (hCreator _ _ _ rfl))
      rw [hCalls, List.getElem?_set_ne hNe]
      exact hAt
  · intro other type
    rw [hCounted]
    by_cases hSame : other = creatorId
    · subst hSame
      rw [storedBreakdown_eq hSelf]
      exact hCounts type
    · rw [hOthers other hSame, ← hKept.counts]
      unfold ReputationWorld.storedBreakdown
      rw [hRest other hSame]
  · rw [hCounted]
    exact hNodup
  · intro event hMem
    rw [hCounted] at hMem
    rw [hDelivered]
    exact hKnown event hMem
  · intro other hOther
    rw [hCalls] at hOther
    rcases List.mem_or_eq_of_mem_set hOther with hOld | rfl
    · exact (hKept.calls other hOld).advances hAdvances
    · exact hKnows

theorem Kept.created (hKept : Kept world)
    (hCall : world.calls[i]? = some (.record event .createReputation))
    (hNone : world.rows event.creatorId = none) :
    Kept ((world.setRow event.creatorId .created).setCall i (.record event .updateBreakdown)) := by
  have hStored : world.storedBreakdown event.creatorId = .zero := by
    unfold ReputationWorld.storedBreakdown
    rw [hNone]
    rfl
  have hAdvances := @advances_setRow world event.creatorId .created fun old hOld => by
    rw [hNone] at hOld
    cases hOld
  refine hKept.write hCall rfl rfl (fun _ _ _ h => nomatch h)
    ⟨hAdvances.rows, hAdvances.counted⟩ ⟨Nat.le_refl 0, ?_⟩
    (fun h => absurd rfl h) ?_ (fun _ _ _ => rfl) hKept.nodup hKept.known ⟨_, rows_setRow_same⟩
  · exact fun _ => ⟨rfl, rfl⟩
  · intro type
    refine Eq.trans ?_ (hKept.counts event.creatorId type)
    rw [hStored]
    rfl

theorem Kept.counted (hKept : Kept world)
    (hCall : world.calls[i]? = some (.record event .updateBreakdown))
    (hRow : world.rows event.creatorId = some row) (hNew : event ∉ world.counted) :
    Kept
      { (world.setRow event.creatorId (row.count event.eventType)).setCall i (.record event
            (.updateScore (row.count event.eventType).breakdown
              (row.count event.eventType).changes)) with
        counted := world.counted ++ [event] } := by
  have hLess := (List.getElem?_eq_some_iff.mp hCall).1
  have hAdvances :=
    @advances_setRow world event.creatorId (row.count event.eventType) fun old hOld => by
      rw [hRow] at hOld
      cases hOld
      exact ⟨Nat.le_succ _, fun h => absurd h (Nat.succ_ne_self _)⟩
  have hScored := (hKept.scored _ row hRow).1
  refine hKept.write hCall rfl rfl (fun _ _ _ h => nomatch h)
    ⟨hAdvances.rows, fun _ h => List.mem_append_left _ h⟩
    ⟨Nat.le_succ_of_le hScored, ?_⟩ ?_ ?_ ?_ ?_ ?_ ?_
  · intro hSame
    change row.scored = row.changes + 1 at hSame
    omega
  · intro _
    refine ⟨i, event, (row.count event.eventType).breakdown, ?_, rfl⟩
    change (world.calls.set i _)[i]? = _
    rw [List.getElem?_set_self hLess]
  · intro type
    rw [List.countP_append, ← hKept.counts, storedBreakdown_eq hRow]
    change (row.breakdown.increment event.eventType).get type = _
    rw [get_increment]
    simp
  · intro other hOther type
    rw [List.countP_append, List.countP_singleton, if_neg, Nat.add_zero]
    intro hBoth
    exact hOther (of_decide_eq_true hBoth).1.symm
  · refine List.nodup_append.mpr ⟨hKept.nodup, by simp, ?_⟩
    rintro old hOld new hMem rfl
    rw [List.mem_singleton.mp hMem] at hOld
    exact hNew hOld
  · intro other hOther
    rcases List.mem_append.mp hOther with hOld | hMem
    · exact hKept.known other hOld
    · rw [List.mem_singleton.mp hMem]
      exact List.mem_filterMap.mpr ⟨_, List.mem_of_getElem? hCall, rfl⟩
  · exact ⟨List.mem_append_right _ (List.mem_singleton_self _), _,
      rows_setRow_same, Nat.le_refl _, fun _ => rfl⟩

/- A score is stored that is not older than the stored one. -/
theorem Kept.scoreWritten {updated : ReputationBreakdown} {changes : ℕ} (hKept : Kept world)
    (hCall : world.calls[i]? = some (.record event (.updateScore updated changes)))
    (hRow : world.rows event.creatorId = some row) (hNewer : row.scored ≤ changes) :
    Kept ((world.setRow event.creatorId (row.score updated changes)).setCall i (.record event
      (.createHistory (row.score updated changes).currentScore
        (row.score updated changes).tier))) := by
  rcases hKept.calls _ (List.mem_of_getElem? hCall) with ⟨hCounted, found, hFound, hLe, hSame⟩
  rw [hRow] at hFound
  cases hFound
  have hAdvances :=
    @advances_setRow world event.creatorId (row.score updated changes) fun old hOld => by
      rw [hRow] at hOld
      cases hOld
      exact ⟨Nat.le_refl _, fun _ => rfl⟩
  refine hKept.write hCall rfl rfl (fun _ _ _ h => by cases h; rfl)
    ⟨hAdvances.rows, hAdvances.counted⟩ ⟨hLe, ?_⟩ ?_ ?_
    (fun _ _ _ => rfl) hKept.nodup hKept.known hCounted
  · intro hLast
    change changes = row.changes at hLast
    have hSeen := hSame hLast
    change
      calculateScore updated = calculateScore row.breakdown ∧
        calculateTier (calculateScore updated) =
          calculateTier (calculateScore row.breakdown)
    rw [hSeen]
    exact ⟨rfl, rfl⟩
  · intro hOlder
    change changes ≠ row.changes at hOlder
    have hStale : row.scored ≠ row.changes := by omega
    have hAwaited := hKept.awaited _ row hRow hStale
    refine hAwaited.setCall hCall ?_
    rintro _ _ h
    cases h
    exact hOlder rfl
  · intro type
    refine Eq.trans ?_ (hKept.counts event.creatorId type)
    rw [storedBreakdown_eq hRow]
    rfl

theorem Kept.rebuilt {found : ReputationEventType → Option ℕ} {breakdown : ReputationBreakdown}
    {result : CreatorReputationResponse} (hKept : Kept world)
    (hCall : world.calls[i]? = some (.rebuild creatorId (.counting found)))
    (hSame : breakdown = world.storedBreakdown creatorId) :
    Kept ((world.setRow creatorId (((world.rows creatorId).getD .created).rebuilt
      breakdown)).setCall i (.rebuild creatorId (.ended result))) := by
  have hOld : ((world.rows creatorId).getD .created).breakdown =
      breakdown := by
    rw [hSame]
    unfold ReputationWorld.storedBreakdown
    cases world.rows creatorId with
    | none => rfl
    | some row => rfl
  generalize hRow : (world.rows creatorId).getD .created = row at hOld ⊢
  have hChanges : (row.rebuilt breakdown).changes = row.changes := if_pos hOld.symm
  have hScored : (row.rebuilt breakdown).scored = (row.rebuilt breakdown).changes := rfl
  have hAdvances := @advances_setRow world creatorId (row.rebuilt breakdown) fun old hFound => by
    rw [hFound] at hRow
    cases hRow
    exact ⟨Nat.le_of_eq hChanges.symm, fun _ => hOld.symm⟩
  refine hKept.write hCall rfl rfl (fun _ _ _ h => nomatch h) ⟨hAdvances.rows, hAdvances.counted⟩
    ⟨Nat.le_of_eq hScored, fun _ => ⟨rfl, rfl⟩⟩ (fun h => absurd hScored h) ?_ (fun _ _ _ => rfl)
    hKept.nodup hKept.known trivial
  intro type
  refine Eq.trans ?_ (hKept.counts creatorId type)
  rw [← hSame]
  rfl

/- What a history row or another table holds is not kept track of. -/
theorem Kept.history (hKept : Kept world) (history : List CreatorReputationHistory) :
    Kept { world with history } where
  scored := hKept.scored
  awaited := hKept.awaited
  counts := hKept.counts
  nodup := hKept.nodup
  known := hKept.known
  calls := hKept.calls

theorem Kept.tables (hKept : Kept world) (tables : ReputationTables) :
    Kept { world with tables } where
  scored := hKept.scored
  awaited := hKept.awaited
  counts := hKept.counts
  nodup := hKept.nodup
  known := hKept.known
  calls := hKept.calls

theorem Kept.record {stage : RecordStage} (hKept : Kept world)
    (hCall : world.calls[i]? = some (.record event stage))
    (hInOrder : (ReputationCall.record event stage).InOrder world)
    (hStep : world.recordReputationEvent i event stage = some world') :
    Kept world' := by
  have hKnows := hKept.calls _ (List.mem_of_getElem? hCall)
  cases stage with
  | findReputation =>
    simp only [ReputationWorld.recordReputationEvent] at hStep
    split at hStep
    · rename_i row hRow
      cases hStep
      exact hKept.setCall hCall rfl (fun _ _ _ h => nomatch h) ⟨row, hRow⟩
    · cases hStep
      exact hKept.setCall hCall rfl (fun _ _ _ h => nomatch h) trivial
  | createReputation =>
    simp only [ReputationWorld.recordReputationEvent] at hStep
    change world.rows event.creatorId = none at hInOrder
    rw [hInOrder] at hStep
    cases hStep
    exact hKept.created hCall hInOrder
  | updateBreakdown =>
    simp only [ReputationWorld.recordReputationEvent] at hStep
    rcases hKnows with ⟨row, hRow⟩
    rw [hRow] at hStep
    cases hStep
    exact hKept.counted hCall hRow hInOrder
  | updateScore updated changes =>
    simp only [ReputationWorld.recordReputationEvent] at hStep
    rcases hKnows with ⟨-, row, hRow, -⟩
    rw [hRow] at hStep
    cases hStep
    exact hKept.scoreWritten hCall hRow (hInOrder row hRow)
  | createHistory score tier =>
    simp only [ReputationWorld.recordReputationEvent] at hStep
    split at hStep
    · cases hStep
      exact hKept.setCall hCall rfl (fun _ _ _ h => nomatch h) hKnows
    · cases hStep
      have hEnded : Kept (world.setCall i (.record event (.ended (.ok ())))) :=
        hKept.setCall hCall rfl (fun _ _ _ h => nomatch h) hKnows
      exact hEnded.history _
  | ended result =>
    cases hStep

theorem Kept.step {move : ReputationMove} (hKept : Kept world) (hInOrder : InOrder world move)
    (hStep : world.step move = some world') :
    Kept world' := by
  cases move with
  | run i =>
    simp only [ReputationWorld.step] at hStep
    split at hStep
    · rename_i event stage hCall
      exact hKept.record hCall (hInOrder _ hCall) hStep
    · rename_i creatorId stage hCall
      cases stage with
      | counting found =>
        rcases Option.map_eq_some_iff.mp hStep with ⟨breakdown, hBreakdown, rfl⟩
        exact hKept.rebuilt hCall (hInOrder _ hCall breakdown hBreakdown)
      | ended result => cases hStep
    · cases hStep
  | count i type =>
    change world.count i type = some world' at hStep
    unfold ReputationWorld.count at hStep
    split at hStep
    · rename_i creatorId found hCall
      split at hStep
      · cases hStep
        exact hKept.setCall hCall rfl (fun _ _ _ h => nomatch h) trivial
      · cases hStep
    · cases hStep
  | others tables =>
    cases hStep
    exact hKept.tables tables

/- At rest no score is awaited. -/
theorem Kept.scoresConsistent (hKept : Kept world) (hQuiet : Quiescent world) :
    ScoresConsistent world := by
  intro creatorId row hRow
  apply (hKept.scored creatorId row hRow).2
  by_contra hStale
  rcases hKept.awaited creatorId row hRow hStale with ⟨i, event, updated, hCall, -⟩
  exact hQuiet _ (List.mem_of_getElem? hCall)

/- At rest every delivered event is counted. -/
theorem Kept.countedOnce (hKept : Kept world) (hQuiet : Quiescent world) : CountedOnce world := by
  intro creatorId type
  rw [hKept.counts]
  apply List.Perm.countP_eq
  refine (List.perm_ext_iff_of_nodup hKept.nodup (List.nodup_dedup _)).mpr ?_
  intro event
  rw [List.mem_dedup]
  refine ⟨hKept.known event, ?_⟩
  intro hDelivered
  rcases List.mem_filterMap.mp hDelivered with ⟨call, hCall, hEvent⟩
  have hEnded := hQuiet call hCall
  have hKnows := hKept.calls call hCall
  cases call with
  | rebuild creatorId stage => cases hEvent
  | record found stage =>
    cases hEvent
    cases stage with
    | ended result => exact hKnows
    | _ => exact hEnded.elim

/-
  In runs in order, once all calls have ended, the scores and
  tiers are those of the counters, which count each distinct
  event once.
-/
theorem reputation_consistent {tables : ReputationTables} {requests : List ReputationRequest}
    {moves : List ReputationMove}
    (hRun : RunsTo ReputationWorld.step InOrder (.start tables requests) moves world)
    (hQuiet : Quiescent world) :
    ScoresConsistent world ∧ CountedOnce world := by
  have hKept : Kept world :=
    hRun.invariant (Kept.start tables requests) fun before move after hBefore hInOrder hStep =>
      hBefore.step hInOrder hStep
  exact ⟨hKept.scoresConsistent hQuiet, hKept.countedOnce hQuiet⟩

/- A key of the creator is launched in a transaction. -/
def launched (txHash : String) : ReputationEvent where
  creatorId := "K"
  eventType := .keyLaunched
  ledger := 1
  txHash := some txHash

/- The activity that a rebuild counts for a launch. -/
def registered : Indexer.Activity where
  type := .creatorRegistered
  actor := "A"
  creatorId := some "K"
  payload := .other
  createdAt := 0

def sampleTables : ReputationTables where
  activity := [registered, registered]
  governanceVote := []
  creatorProfile := []

/- The first of two calls has created the row, both have counted. -/
def bothCounted : List ReputationMove := [.run 0, .run 0, .run 1, .run 0, .run 1]

/-
  Two overlapping calls write their scores in the order they have
  counted in, and a rebuild counts the same.
-/
def orderedMoves : List ReputationMove :=
  bothCounted ++ [.run 0, .run 1, .run 0, .run 1, .count 2 .keyLaunched,
    .count 2 .milestoneReached, .count 2 .governanceVote, .count 2 .keyDeprecated, .run 2]

theorem reputation_consistent_sample :
    ∃ world, RunsTo ReputationWorld.step InOrder
      (.start sampleTables [.record (launched "t"), .record (launched "u"), .rebuild "K"])
      orderedMoves world ∧
      (world.storedBreakdown "K").keyLaunches = 2 ∧
      ScoresConsistent world ∧ CountedOnce world := by
  have hSome : (runAllowed ReputationWorld.step InOrder
      (.start sampleTables [.record (launched "t"), .record (launched "u"), .rebuild "K"])
      orderedMoves).map
        (fun world =>
          (decide (Quiescent world), (world.storedBreakdown "K").keyLaunches)) =
      some (true, 2) := by decide
  rcases Option.map_eq_some_iff.mp hSome with
    ⟨world, hWorld, hEnd⟩
  rcases Prod.mk.inj hEnd with ⟨hQuiet, hTwo⟩
  have hRun := runsTo_of_runAllowed hWorld
  exact ⟨world, hRun, hTwo, reputation_consistent hRun (of_decide_eq_true hQuiet)⟩

/-
  The score of the first change replaces that of the second, and
  an event that is delivered twice is counted twice.
-/
theorem reputation_inconsistent :
    (∃ moves world, RunsTo ReputationWorld.step (fun _ _ => True) (.start sampleTables
      [.record (launched "t"), .record (launched "u")]) moves world ∧ Quiescent world ∧
      ∃ row ∈ world.rows "K", ¬row.Consistent) ∧ ∃ moves world,
      RunsTo ReputationWorld.step (fun _ _ => True) (.start sampleTables
        [.record (launched "t"), .record (launched "t")]) moves world ∧ Quiescent world ∧
      (world.storedBreakdown "K").get .keyLaunched = 2 ∧
      world.delivered.dedup = [launched "t"] := by
  constructor
  · have hSome : (runLabels ReputationWorld.step (.start sampleTables
        [.record (launched "t"), .record (launched "u")]) (bothCounted ++
        [.run 1, .run 0, .run 0, .run 1])).map (fun world =>
          decide (Quiescent world ∧ ∃ row ∈ world.rows "K", ¬row.Consistent)) =
        some true := by decide
    rcases Option.map_eq_some_iff.mp hSome with ⟨world, hWorld, hEnd⟩
    exact ⟨_, world, runsTo_of_runLabels hWorld, of_decide_eq_true hEnd⟩
  · have hSome : (runLabels ReputationWorld.step (.start sampleTables
        [.record (launched "t"), .record (launched "t")]) (bothCounted ++
        [.run 0, .run 1, .run 0, .run 1])).map (fun world =>
          decide (Quiescent world ∧ (world.storedBreakdown "K").get .keyLaunched = 2 ∧
            world.delivered.dedup = [launched "t"])) =
        some true := by decide
    rcases Option.map_eq_some_iff.mp hSome with ⟨world, hWorld, hEnd⟩
    exact ⟨_, world, runsTo_of_runLabels hWorld, of_decide_eq_true hEnd⟩

end Reputation

end Creator

end AccessLayer
