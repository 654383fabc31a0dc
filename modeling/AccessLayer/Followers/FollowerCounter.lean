import AccessLayer.Library.Machines
import AccessLayer.Library.Table

/-
  The sharded follower counter
  (`src/modules/followers/follower.service.ts`).

  A follow and an unfollow write the row of the follower and add
  to the shard of their node; a compaction replaces the shards of
  a creator by one; a read sums the shards and caches the count,
  which runs out by itself.

  Main result: `follower_count_at_rest`
-/

-- Rows and Shards
----

namespace AccessLayer

namespace Followers

open Transactional

section

inductive FollowDirection where
  | follow
  | unfollow
  deriving DecidableEq

structure FollowEvent where
  followerWallet : String
  creatorWallet : String
  direction : FollowDirection

instance : Keyed FollowEvent (String × String) where
  key row := (row.followerWallet, row.creatorWallet)

structure FollowerCounterShard where
  creatorWallet : String
  nodeId : String
  increments : ℤ
  decrements : ℤ
  updatedAt : ℤ

instance : Keyed FollowerCounterShard (String × String) where
  key row := (row.creatorWallet, row.nodeId)

/- The cached counts are those of `redis`. -/
structure FollowersDb where
  followEvent : Table FollowEvent
  followerCounterShard : Table FollowerCounterShard
  cache : String → Option ℕ

def FollowersDb.empty : FollowersDb where
  followEvent := .empty
  followerCounterShard := .empty
  cache := fun _ => none

namespace FollowDirection

def increments : FollowDirection → ℤ
  | .follow => 1
  | .unfollow => 0

def decrements : FollowDirection → ℤ
  | .follow => 0
  | .unfollow => 1

def change (direction : FollowDirection) : ℤ := direction.increments - direction.decrements

end FollowDirection

def getLocalNodeId (NODE_ID : String) : String :=
  if NODE_ID = "" then "node-local" else NODE_ID

/- A follow or an unfollow, on a server with its node id. -/
structure FollowRequest where
  followerWallet : String
  creatorWallet : String
  overrideNodeId : Option String
  NODE_ID : String
  now : ℤ

namespace FollowRequest

variable (request : FollowRequest)

def nodeId : String :=
  (request.overrideNodeId.filter (· ≠ "")).getD (getLocalNodeId request.NODE_ID)

/- The row of the follower. -/
def own : String × String := (request.followerWallet, request.creatorWallet)

/- The shard of the node. -/
def node : String × String := (request.creatorWallet, request.nodeId)

def event (direction : FollowDirection) : FollowEvent where
  followerWallet := request.followerWallet
  creatorWallet := request.creatorWallet
  direction := direction

def shard (direction : FollowDirection) : FollowerCounterShard where
  creatorWallet := request.creatorWallet
  nodeId := request.nodeId
  increments := direction.increments
  decrements := direction.decrements
  updatedAt := request.now

end FollowRequest

def FollowEvent.turn (direction : FollowDirection) (row : FollowEvent) : FollowEvent :=
  { row with direction }

theorem FollowEvent.key_turn (direction : FollowDirection) (row : FollowEvent) :
    key (row.turn direction) = key row := rfl

namespace FollowerCounterShard

def add (direction : FollowDirection) (now : ℤ)
    (row : FollowerCounterShard) : FollowerCounterShard :=
  { row with
    increments := row.increments + direction.increments
    decrements := row.decrements + direction.decrements
    updatedAt := now }

theorem key_add (direction : FollowDirection) (now : ℤ) (row : FollowerCounterShard) :
    key (row.add direction now) = key row := rfl

def countFor (creatorWallet : String) (row : FollowerCounterShard) : ℤ :=
  if row.creatorWallet = creatorWallet then
    row.increments - row.decrements
  else 0

end FollowerCounterShard

namespace FollowersDb

def findMany (creatorWallet : String) (db : FollowersDb) : List FollowerCounterShard :=
  db.followerCounterShard.rows.filter fun row => row.creatorWallet = creatorWallet

def totalIncrements (shards : List FollowerCounterShard) : ℤ :=
  (shards.map FollowerCounterShard.increments).sum

def totalDecrements (shards : List FollowerCounterShard) : ℤ :=
  (shards.map FollowerCounterShard.decrements).sum

def followRows (creatorWallet : String) (db : FollowersDb) : List FollowEvent :=
  db.followEvent.rows.filter fun row => row.creatorWallet = creatorWallet ∧ row.direction = .follow

def Follows (db : FollowersDb) (own : String × String) : Prop :=
  ∃ row ∈ db.followEvent.find? own, row.direction = .follow

instance (db : FollowersDb) (own : String × String) : Decidable (db.Follows own) :=
  inferInstanceAs (Decidable (∃ row ∈ (_ : Option _), _))

end FollowersDb

end

-- Calls
----

section

/- A call that has thrown has no result. -/
inductive FollowStage where
  | finding
  | writing
  | counting
  /- the fallback, once the statement that counts has failed -/
  | lookingUp
  | updating
  | creating
  | invalidating
  | ended (changed : Option Bool)

inductive CompactionStage where
  | checking
  | finding
  | replacing (totalIncrements totalDecrements : ℤ)
  | ended (compacted : Option Bool)

inductive CountStage where
  | getting
  | summing
  | caching (count : ℕ)
  | ended (count : Option ℕ)

inductive FollowerCall where
  | following (direction : FollowDirection) (request : FollowRequest) (stage : FollowStage)
  | compacting (creatorWallet : String) (now : ℤ) (stage : CompactionStage)
  | counting (creatorWallet : String) (stage : CountStage)
  /- the cached count of a creator runs out -/
  | expiring (creatorWallet : String)
  | expired

def follow (request : FollowRequest) : FollowerCall := .following .follow request .finding

def unfollow (request : FollowRequest) : FollowerCall := .following .unfollow request .finding

def compactShardsForCreator (creatorWallet : String) (now : ℤ) : FollowerCall :=
  .compacting creatorWallet now .checking

def getFollowerCount (creatorWallet : String) : FollowerCall := .counting creatorWallet .getting

/- What may be asked of the counter. -/
inductive FollowerRequest where
  | follow (request : FollowRequest)
  | unfollow (request : FollowRequest)
  | compact (creatorWallet : String) (now : ℤ)
  | count (creatorWallet : String)
  | expire (creatorWallet : String)

def FollowerRequest.call : FollowerRequest → FollowerCall
  | .follow request => Followers.follow request
  | .unfollow request => Followers.unfollow request
  | .compact creatorWallet now => compactShardsForCreator creatorWallet now
  | .count creatorWallet => getFollowerCount creatorWallet
  | .expire creatorWallet => .expiring creatorWallet

/- The row is the way the call would turn it. -/
def FollowRequest.stands (direction : FollowDirection) (request : FollowRequest)
    (db : FollowersDb) : Bool :=
  match direction with
  | .follow => db.Follows request.own
  | .unfollow => ¬ db.Follows request.own

def writeEvent (direction : FollowDirection) (request : FollowRequest)
    (db : FollowersDb) : Option FollowersDb :=
  match direction with
  | .follow =>
    some { db with
        followEvent :=
          db.followEvent.upsert (request.event .follow) (FollowEvent.turn .follow)
            (FollowEvent.key_turn .follow) }
  | .unfollow =>
    (db.followEvent.find? request.own).map fun _ => { db with
        followEvent :=
          db.followEvent.update request.own (FollowEvent.turn .unfollow)
            (FollowEvent.key_turn .unfollow) }

/- The statement that creates the shard of a node or adds to it. -/
def upsertShard (direction : FollowDirection) (request : FollowRequest)
    (db : FollowersDb) : FollowersDb :=
  { db with
    followerCounterShard :=
      db.followerCounterShard.upsert (request.shard direction)
        (FollowerCounterShard.add direction request.now)
        (FollowerCounterShard.key_add direction request.now) }

def updateShard (direction : FollowDirection) (request : FollowRequest)
    (db : FollowersDb) : Option FollowersDb :=
  (db.followerCounterShard.find? request.node).map fun _ => { db with
      followerCounterShard :=
        db.followerCounterShard.update request.node (FollowerCounterShard.add direction request.now)
          (FollowerCounterShard.key_add direction request.now) }

def createShard (direction : FollowDirection) (request : FollowRequest)
    (db : FollowersDb) : Option FollowersDb :=
  (db.followerCounterShard.insert? (request.shard direction)).map fun followerCounterShard =>
    { db with followerCounterShard }

def setCache (creatorWallet : String) (count : Option ℕ) (db : FollowersDb) : FollowersDb :=
  { db with cache := Function.update db.cache creatorWallet count }

theorem cache_setCache_same (creatorWallet : String) (count : Option ℕ) (db : FollowersDb) :
    (setCache creatorWallet count db).cache creatorWallet = count := by
  simp [setCache]

theorem cache_setCache_other {creatorWallet other : String} (hNe : other ≠ creatorWallet)
    (count : Option ℕ) (db : FollowersDb) :
    (setCache creatorWallet count db).cache other = db.cache other := by
  simp [setCache, hNe]

/- A statement that may throw. -/
def orThrow (db : FollowersDb) (next : FollowStage) : Option FollowersDb → FollowersDb × FollowStage
  | some after => (after, next)
  | none => (db, .ended none)

def executeFollow (direction : FollowDirection) (request : FollowRequest) (db : FollowersDb) :
    FollowStage → Option (FollowersDb × FollowStage)
  | .finding =>
    some (db,
      if request.stands direction db then .ended (some false)
      else .writing)
  | .writing => some (orThrow db .counting (writeEvent direction request db))
  | .counting => some (upsertShard direction request db, .invalidating)
  | .lookingUp =>
    some (db,
      match db.followerCounterShard.find? request.node with
      | some _ => .updating
      | none => .creating)
  | .updating => some (orThrow db .invalidating (updateShard direction request db))
  | .creating => some (orThrow db .invalidating (createShard direction request db))
  | .invalidating => some (setCache request.creatorWallet none db, .ended (some true))
  | .ended _ => none

def failFollow : FollowStage → FollowStage
  | .counting => .lookingUp
  | .invalidating => .ended (some true)
  | .ended changed => .ended changed
  | _ => .ended none

def compactShards (creatorWallet : String) (now totalIncrements totalDecrements : ℤ)
    (db : FollowersDb) : Option FollowersDb :=
  ((db.followerCounterShard.deleteMany fun row => row.creatorWallet = creatorWallet).insert?
    { creatorWallet
      nodeId := "canonical_shard"
      increments := totalIncrements
      decrements := totalDecrements
      updatedAt := now }).map fun followerCounterShard =>
    { db with followerCounterShard }

def executeCompaction (creatorWallet : String) (now : ℤ) (db : FollowersDb) :
    CompactionStage → Option (FollowersDb × CompactionStage)
  | .checking =>
    let fiveMinutesAgo := now - 5 * 60 * 1000
    some (db,
      if (db.findMany creatorWallet).any (fiveMinutesAgo ≤ ·.updatedAt) then
        .ended (some false)
      else .finding)
  | .finding =>
    let shards := db.findMany creatorWallet
    some (db,
      if shards.length = 0 then .ended (some false) else
        .replacing (FollowersDb.totalIncrements shards) (FollowersDb.totalDecrements shards))
  | .replacing totalIncrements totalDecrements =>
    match compactShards creatorWallet now totalIncrements totalDecrements db with
    | some after => some (after, .ended (some true))
    | none => some (db, .ended none)
  | .ended _ => none

def failCompaction : CompactionStage → CompactionStage
  | .ended compacted => .ended compacted
  | _ => .ended none

def countOf (shards : List FollowerCounterShard) : ℕ :=
  let diff := FollowersDb.totalIncrements shards - FollowersDb.totalDecrements shards
  if 0 < diff then diff.toNat else 0

def executeCount (redis : Bool) (creatorWallet : String) (db : FollowersDb) :
    CountStage → Option (FollowersDb × CountStage)
  | .getting =>
    some (db,
      match if redis then db.cache creatorWallet else none with
      | some cached => .ended (some cached)
      | none => .summing)
  | .summing => some (db, .caching (countOf (db.findMany creatorWallet)))
  | .caching count =>
    some (if redis then setCache creatorWallet (some count) db else db, .ended (some count))
  | .ended _ => none

def failCount : CountStage → CountStage
  | .getting => .summing
  | .summing => .ended none
  | .caching count => .ended (some count)
  | .ended count => .ended count

/- The statements of the counter, with `redis` or without. -/
def followers (redis : Bool) : Machine FollowersDb FollowerCall where
  execute call db :=
    match call with
    | .following direction request stage =>
      (executeFollow direction request db stage).map fun after =>
        (after.1, .following direction request after.2)
    | .compacting creatorWallet now stage =>
      (executeCompaction creatorWallet now db stage).map fun after =>
        (after.1, .compacting creatorWallet now after.2)
    | .counting creatorWallet stage =>
      (executeCount redis creatorWallet db stage).map
        fun after => (after.1, .counting creatorWallet after.2)
    | .expiring creatorWallet => some (setCache creatorWallet none db, .expired)
    | .expired => none
  fail
    | .following direction request stage => .following direction request (failFollow stage)
    | .compacting creatorWallet now stage => .compacting creatorWallet now (failCompaction stage)
    | .counting creatorWallet stage => .counting creatorWallet (failCount stage)
    | .expiring creatorWallet => .expiring creatorWallet
    | .expired => .expired

-- Sums
----

namespace FollowersDb

/- The increments less the decrements of a creator's shards. -/
def shardCount (creatorWallet : String) (db : FollowersDb) : ℤ :=
  db.followerCounterShard.total (FollowerCounterShard.countFor creatorWallet)

theorem totals_findMany (creatorWallet : String) (db : FollowersDb) :
    totalIncrements (db.findMany creatorWallet) - totalDecrements (db.findMany creatorWallet) =
      db.shardCount creatorWallet := by
  unfold findMany shardCount Table.total
  induction db.followerCounterShard.rows with
  | nil => rfl
  | cons row rows ih =>
    rw [List.map_cons, List.sum_cons, ← ih, FollowerCounterShard.countFor]
    by_cases hOwn : row.creatorWallet = creatorWallet
    · rw [List.filter_cons_of_pos (by simpa using hOwn), if_pos hOwn]
      simp only [totalIncrements, totalDecrements, List.map_cons, List.sum_cons]
      omega
    · rw [List.filter_cons_of_neg (by simpa using hOwn), if_neg hOwn, Int.zero_add]

theorem countOf_findMany (creatorWallet : String) (db : FollowersDb) :
    countOf (db.findMany creatorWallet) = (db.shardCount creatorWallet).toNat := by
  rw [countOf, totals_findMany]
  split <;> omega

end FollowersDb

def FollowEvent.countFor (creatorWallet : String) (row : FollowEvent) : ℤ :=
  if row.creatorWallet = creatorWallet ∧ row.direction = .follow then
    1
  else 0

theorem FollowersDb.length_followRows (creatorWallet : String) (db : FollowersDb) :
    ((db.followRows creatorWallet).length : ℤ) =
      db.followEvent.total (FollowEvent.countFor creatorWallet) := by
  unfold followRows Table.total
  induction db.followEvent.rows with
  | nil => rfl
  | cons row rows ih =>
    rw [List.map_cons, List.sum_cons, ← ih, FollowEvent.countFor]
    by_cases hOwn : row.creatorWallet = creatorWallet ∧ row.direction = .follow
    · rw [List.filter_cons_of_pos (by simpa using hOwn), if_pos hOwn, List.length_cons]
      push_cast
      omega
    · rw [List.filter_cons_of_neg (by simpa using hOwn), if_neg hOwn, Int.zero_add]

theorem FollowEvent.countFor_turn (direction : FollowDirection) {row : FollowEvent}
    (hTurned : row.direction ≠ direction) (creatorWallet : String) :
    (row.turn direction).countFor creatorWallet - row.countFor creatorWallet =
      if row.creatorWallet = creatorWallet then direction.change
      else 0 := by
  cases hDirection : row.direction <;> cases direction
  all_goals simp_all [countFor, turn, FollowDirection.change,
    FollowDirection.increments, FollowDirection.decrements]
  all_goals split <;> simp

namespace FollowRequest

variable {direction : FollowDirection} {request : FollowRequest} {db after : FollowersDb}

/- A row that is turned around counts once. -/
theorem followRows_write (hTurns : request.stands direction db = false)
    (hWrite : writeEvent direction request db = some after) (creatorWallet : String) :
    ((after.followRows creatorWallet).length : ℤ) = (db.followRows creatorWallet).length +
      if request.creatorWallet = creatorWallet then
        direction.change
      else 0 := by
  rw [FollowersDb.length_followRows, FollowersDb.length_followRows]
  cases direction with
  | follow =>
    cases hWrite
    have hNot : ¬ db.Follows request.own := by simpa [stands] using hTurns
    change (db.followEvent.upsert _ _ _).total _ = _
    rw [Table.total_upsert]
    change _ + (db.followEvent.find? request.own).elim _ _ = _
    cases hFind : db.followEvent.find? request.own with
    | none =>
      simp [FollowEvent.countFor, event, FollowDirection.change,
        FollowDirection.increments, FollowDirection.decrements]
    | some row =>
      have hTurned : row.direction ≠ .follow := fun hSame => hNot ⟨row, hFind, hSame⟩
      have hWallet : row.creatorWallet = request.creatorWallet :=
        congrArg Prod.snd (Table.key_of_find? hFind)
      rw [Option.elim_some, FollowEvent.countFor_turn .follow hTurned, hWallet]
  | unfollow =>
    have hFollows : db.Follows request.own := by simpa [stands] using hTurns
    rcases hFollows with ⟨row, hFind, hDirection⟩
    have hFound : db.followEvent.find? request.own = some row := hFind
    rw [writeEvent, hFound] at hWrite
    cases hWrite
    have hTurned : row.direction ≠ .unfollow := by
      rw [hDirection]
      nofun
    have hWallet : row.creatorWallet = request.creatorWallet :=
      congrArg Prod.snd (Table.key_of_find? hFound)
    have hTotal := Table.total_update db.followEvent (FollowEvent.turn .unfollow)
        (FollowEvent.key_turn .unfollow) (FollowEvent.countFor creatorWallet) hFound
    rw [FollowEvent.countFor_turn .unfollow hTurned, hWallet] at hTotal
    exact hTotal

theorem countFor_add {row : FollowerCounterShard} (hNode : key row = request.node)
    (creatorWallet : String) :
    (row.add direction request.now).countFor creatorWallet - row.countFor creatorWallet =
      if request.creatorWallet = creatorWallet then
        direction.change
      else 0 := by
  have hWallet : row.creatorWallet = request.creatorWallet := congrArg Prod.fst hNode
  rw [← hWallet]
  by_cases hOwn : row.creatorWallet = creatorWallet
  · simp only [FollowerCounterShard.countFor,
      FollowerCounterShard.add, FollowDirection.change, hOwn, if_true]
    omega
  · simp only [FollowerCounterShard.countFor, FollowerCounterShard.add, hOwn, if_false]
    omega

theorem shardCount_upsert (creatorWallet : String) :
    (upsertShard direction request db).shardCount creatorWallet = db.shardCount creatorWallet +
      if request.creatorWallet = creatorWallet then
        direction.change
      else 0 := by
  change (db.followerCounterShard.upsert _ _ _).total _ = _
  rw [Table.total_upsert]
  change _ + (db.followerCounterShard.find? request.node).elim _ _ = _
  cases hFind : db.followerCounterShard.find? request.node with
  | none => rfl
  | some row =>
    rw [Option.elim_some, countFor_add (Table.key_of_find? hFind)]
    rfl

theorem shardCount_update (hUpdate : updateShard direction request db = some after)
    (creatorWallet : String) :
    after.shardCount creatorWallet = db.shardCount creatorWallet +
      if request.creatorWallet = creatorWallet then
        direction.change
      else 0 := by
  rcases Option.map_eq_some_iff.mp hUpdate with ⟨row, hFound, rfl⟩
  have hTotal :=
    Table.total_update db.followerCounterShard (FollowerCounterShard.add direction request.now)
      (FollowerCounterShard.key_add direction request.now)
      (FollowerCounterShard.countFor creatorWallet) hFound
  rw [countFor_add (Table.key_of_find? hFound)] at hTotal
  exact hTotal

theorem shardCount_create (hCreate : createShard direction request db = some after)
    (creatorWallet : String) :
    after.shardCount creatorWallet = db.shardCount creatorWallet +
      if request.creatorWallet = creatorWallet then
        direction.change
      else 0 := by
  rcases Option.map_eq_some_iff.mp hCreate with ⟨table, hInsert, rfl⟩
  rcases Table.exists_create_of_insert? hInsert with ⟨hFresh, rfl⟩
  exact Table.total_create _ _ hFresh _

end FollowRequest

theorem FollowersDb.shardCount_compact {compacted : String}
    {now totalIncrements totalDecrements : ℤ} {db after : FollowersDb}
    (hSame : totalIncrements - totalDecrements = db.shardCount compacted)
    (hCompact : compactShards compacted now totalIncrements totalDecrements db = some after)
    (creatorWallet : String) :
    after.shardCount creatorWallet = db.shardCount creatorWallet := by
  rcases Option.map_eq_some_iff.mp hCompact with ⟨table, hInsert, rfl⟩
  rcases Table.exists_create_of_insert? hInsert with ⟨hFresh, rfl⟩
  change (Table.create _ _ hFresh).total _ = _
  rw [Table.total_create, Table.total_deleteMany]
  by_cases hOwn : compacted = creatorWallet
  · subst hOwn
    have hNone : (db.followerCounterShard.total fun row =>
      if decide (row.creatorWallet = compacted) = true then 0
      else row.countFor compacted) = 0 := by
      apply List.sum_eq_zero
      intro count hCount
      rcases List.mem_map.mp hCount with ⟨row, -, rfl⟩
      simp only [FollowerCounterShard.countFor, decide_eq_true_eq]
      split <;> simp_all
    rw [hNone, FollowerCounterShard.countFor, if_pos rfl, Int.zero_add]
    exact hSame
  · have hOthers : (fun row : FollowerCounterShard =>
      if decide (row.creatorWallet = compacted) = true then 0
      else row.countFor creatorWallet) =
      FollowerCounterShard.countFor creatorWallet := by
      funext row
      simp only [FollowerCounterShard.countFor, decide_eq_true_eq]
      split <;> simp_all
    rw [hOthers, FollowerCounterShard.countFor, if_neg hOwn, Int.add_zero]
    rfl

end

-- Undisturbed Calls
----

section

/-
  A follow or an unfollow turns its row around, is counted once,
  and invalidates the cached count.
-/
def FollowRequest.Undisturbed (direction : FollowDirection) (request : FollowRequest)
    (db : FollowersDb) (outcome : Option Outcome) : FollowStage → Prop
  | .finding => True
  | .writing =>
    outcome ≠ some .lost ∧ (outcome = some .served → request.stands direction db = false)
  | .counting => outcome = some .served ∨ outcome = some .rejected
  | .lookingUp => outcome = some .served
  | .updating => outcome = some .served ∧ (db.followerCounterShard.find? request.node).isSome = true
  | .creating =>
    outcome = some .served ∧ (db.followerCounterShard.find? request.node).isSome = false
  | .invalidating => takesEffect outcome = true ∨ db.cache request.creatorWallet = none
  | .ended _ => True

def CompactionStage.Undisturbed (creatorWallet : String) (db : FollowersDb)
    (outcome : Option Outcome) : CompactionStage → Prop
  | .replacing totalIncrements totalDecrements =>
    takesEffect outcome = true → totalIncrements - totalDecrements = db.shardCount creatorWallet
  | _ => True

/- A count that is cached is still the sum of the shards. -/
def CountStage.Undisturbed (creatorWallet : String) (db : FollowersDb)
    (outcome : Option Outcome) : CountStage → Prop
  | .caching count => takesEffect outcome = true → count = (db.shardCount creatorWallet).toNat
  | _ => True

def Undisturbed (redis : Bool) (db : FollowersDb) (call : FollowerCall)
    (outcome : Option Outcome) : Prop :=
  match call with
  | .following direction request stage => request.Undisturbed direction db outcome stage
  | .compacting creatorWallet _ stage => stage.Undisturbed creatorWallet db outcome
  | .counting creatorWallet stage => redis = true → stage.Undisturbed creatorWallet db outcome
  | _ => True

instance (direction : FollowDirection) (request : FollowRequest) (db : FollowersDb)
    (outcome : Option Outcome) (stage : FollowStage) :
    Decidable (request.Undisturbed direction db outcome stage) :=
  match stage with
  | .finding => isTrue trivial
  | .writing => inferInstanceAs (Decidable (_ ∧ _))
  | .counting => inferInstanceAs (Decidable (_ ∨ _))
  | .lookingUp => inferInstanceAs (Decidable (_ = _))
  | .updating => inferInstanceAs (Decidable (_ ∧ _))
  | .creating => inferInstanceAs (Decidable (_ ∧ _))
  | .invalidating => inferInstanceAs (Decidable (_ ∨ _))
  | .ended _ => isTrue trivial

instance (creatorWallet : String) (db : FollowersDb) (outcome : Option Outcome)
    (stage : CompactionStage) : Decidable (stage.Undisturbed creatorWallet db outcome) :=
  match stage with
  | .replacing _ _ => inferInstanceAs (Decidable (_ → _))
  | .checking => isTrue trivial
  | .finding => isTrue trivial
  | .ended _ => isTrue trivial

instance (creatorWallet : String) (db : FollowersDb) (outcome : Option Outcome)
    (stage : CountStage) : Decidable (stage.Undisturbed creatorWallet db outcome) :=
  match stage with
  | .caching _ => inferInstanceAs (Decidable (_ → _))
  | .getting => isTrue trivial
  | .summing => isTrue trivial
  | .ended _ => isTrue trivial

instance (redis : Bool) (db : FollowersDb) (call : FollowerCall) (outcome : Option Outcome) :
    Decidable (Undisturbed redis db call outcome) :=
  match call with
  | .following direction request stage =>
    inferInstanceAs (Decidable (request.Undisturbed direction db outcome stage))
  | .compacting creatorWallet _ stage =>
    inferInstanceAs (Decidable (stage.Undisturbed creatorWallet db outcome))
  | .counting creatorWallet stage =>
    inferInstanceAs (Decidable (redis = true → stage.Undisturbed creatorWallet db outcome))
  | .expiring _ => isTrue trivial
  | .expired => isTrue trivial

/- The row is written, and the shard is not yet. -/
def FollowStage.owes : FollowStage → Bool
  | .counting => true
  | .lookingUp => true
  | .updating => true
  | .creating => true
  | _ => false

def FollowRequest.owes (creatorWallet : String) (direction : FollowDirection)
    (request : FollowRequest) (stage : FollowStage) : ℤ :=
  if stage.owes then
    if request.creatorWallet = creatorWallet then direction.change
    else 0
  else 0

/- What a call has still to add to the shards of a creator. -/
def FollowerCall.owes (creatorWallet : String) : FollowerCall → ℤ
  | .following direction request stage => request.owes creatorWallet direction stage
  | _ => 0

/- How much more the shards count than there are followers. -/
def FollowersDb.drift (creatorWallet : String) (db : FollowersDb) : ℤ :=
  db.shardCount creatorWallet - (db.followRows creatorWallet).length

variable {direction : FollowDirection} {request : FollowRequest} {db : FollowersDb}

/- A statement that adds to the shard of its node. -/
structure FollowRequest.Counts (direction : FollowDirection) (request : FollowRequest)
    (db after : FollowersDb) : Prop where
  followEvent : after.followEvent = db.followEvent
  cache : after.cache = db.cache
  shardCount : ∀ creatorWallet, after.shardCount creatorWallet = db.shardCount creatorWallet +
    if request.creatorWallet = creatorWallet then
      direction.change
    else 0

namespace FollowRequest

theorem counts_upsert :
    request.Counts direction db (upsertShard direction request db) where
  followEvent := rfl
  cache := rfl
  shardCount := shardCount_upsert

variable {after : FollowersDb}

theorem counts_update (hUpdate : updateShard direction request db = some after) :
    request.Counts direction db after := by
  have hShards := shardCount_update hUpdate
  rcases Option.map_eq_some_iff.mp hUpdate with ⟨row, -, rfl⟩
  exact ⟨rfl, rfl, hShards⟩

theorem counts_create (hCreate : createShard direction request db = some after) :
    request.Counts direction db after := by
  have hShards := shardCount_create hCreate
  rcases Option.map_eq_some_iff.mp hCreate with ⟨table, -, rfl⟩
  exact ⟨rfl, rfl, hShards⟩

theorem exists_update (hStored : (db.followerCounterShard.find? request.node).isSome = true) :
    ∃ after, updateShard direction request db = some after := by
  apply Option.isSome_iff_exists.mp
  rw [updateShard, Option.isSome_map]
  exact hStored

theorem exists_create (hFresh : (db.followerCounterShard.find? request.node).isSome = false) :
    ∃ after, createShard direction request db = some after := by
  have hNone : db.followerCounterShard.find? request.node = none := by simpa using hFresh
  have hKey : db.followerCounterShard.find? (key (request.shard direction)) = none := hNone
  apply Option.isSome_iff_exists.mp
  rw [createShard, Option.isSome_map, Table.insert?_of_fresh hKey]
  rfl

/- A row that is to be turned around is turned around. -/
theorem exists_write (hTurns : request.stands direction db = false) :
    ∃ after, writeEvent direction request db = some after ∧
      after.followerCounterShard = db.followerCounterShard ∧
      after.cache = db.cache := by
  cases direction with
  | follow => exact ⟨_, rfl, rfl, rfl⟩
  | unfollow =>
    have hFollows : db.Follows request.own := by simpa [stands] using hTurns
    rcases hFollows with ⟨row, hFind, -⟩
    have hSome : (writeEvent .unfollow request db).isSome = true := by
      rw [writeEvent, Option.isSome_map]
      exact Option.isSome_iff_exists.mpr ⟨row, hFind⟩
    rcases Option.isSome_iff_exists.mp hSome with ⟨after, hWrite⟩
    refine ⟨after, hWrite, ?_⟩
    rcases Option.map_eq_some_iff.mp hWrite with ⟨row, -, rfl⟩
    exact ⟨rfl, rfl⟩

theorem Counts.drift (hCounts : request.Counts direction db after) (creatorWallet : String) :
    after.drift creatorWallet = db.drift creatorWallet +
      if request.creatorWallet = creatorWallet then
        direction.change
      else 0 := by
  have hRows : after.followRows creatorWallet =
      db.followRows creatorWallet := by
    rw [FollowersDb.followRows, hCounts.followEvent]
    rfl
  rw [FollowersDb.drift, FollowersDb.drift, hCounts.shardCount, hRows]
  omega

theorem drift_write (hTurns : request.stands direction db = false)
    (hWrite : writeEvent direction request db = some after)
    (hShards : after.followerCounterShard = db.followerCounterShard) (creatorWallet : String) :
    after.drift creatorWallet + (if request.creatorWallet = creatorWallet then
      direction.change
      else 0) =
      db.drift creatorWallet := by
  have hSame : after.shardCount creatorWallet =
      db.shardCount creatorWallet := by
    rw [FollowersDb.shardCount, hShards]
    rfl
  rw [FollowersDb.drift, FollowersDb.drift, hSame, followRows_write hTurns hWrite]
  omega

variable {stage : FollowStage}

/-
  An undisturbed statement adds to the shards what the call owed,
  or the call owes what the statement has added to the rows.
-/
theorem conserves {after : FollowersDb × FollowStage}
    (hUndisturbed : request.Undisturbed direction db (some .served) stage)
    (hExecute : executeFollow direction request db stage = some after) (creatorWallet : String) :
    after.1.drift creatorWallet + request.owes creatorWallet direction after.2 =
      db.drift creatorWallet + request.owes creatorWallet direction stage := by
  cases stage with
  | finding =>
    cases hExecute
    split <;> rfl
  | writing =>
    have hTurns := hUndisturbed.2 rfl
    rcases exists_write hTurns with ⟨written, hWrite, hShards, -⟩
    simp only [executeFollow, hWrite, orThrow] at hExecute
    cases hExecute
    exact (drift_write hTurns hWrite hShards creatorWallet).trans (Int.add_zero _).symm
  | counting =>
    cases hExecute
    exact (Int.add_zero _).trans (counts_upsert.drift creatorWallet)
  | lookingUp =>
    cases hExecute
    split <;> rfl
  | updating =>
    rcases @exists_update direction _ _ hUndisturbed.2 with ⟨counted, hUpdate⟩
    simp only [executeFollow, hUpdate, orThrow] at hExecute
    cases hExecute
    exact (Int.add_zero _).trans ((counts_update hUpdate).drift creatorWallet)
  | creating =>
    rcases @exists_create direction _ _ hUndisturbed.2 with ⟨counted, hCreate⟩
    simp only [executeFollow, hCreate, orThrow] at hExecute
    cases hExecute
    exact (Int.add_zero _).trans ((counts_create hCreate).drift creatorWallet)
  | invalidating =>
    cases hExecute
    rfl
  | ended changed => cases hExecute

theorem owes_failFollow (hUndisturbed :
    request.Undisturbed direction db (some .rejected) stage) (creatorWallet : String) :
    request.owes creatorWallet direction (failFollow stage) =
      request.owes creatorWallet direction stage := by
  cases stage with
  | lookingUp => cases hUndisturbed
  | updating => cases hUndisturbed.1
  | creating => cases hUndisturbed.1
  | _ => rfl

/- Only a lookup or the last statement may lose its reply. -/
theorem lost_cases {after : FollowersDb × FollowStage}
    (hUndisturbed : request.Undisturbed direction db (some .lost) stage)
    (hExecute : executeFollow direction request db stage = some after) :
    stage = .finding ∧ after.1 = db ∨ stage = .invalidating ∧
      after.1 = setCache request.creatorWallet none db := by
  cases stage with
  | finding =>
    cases hExecute
    exact .inl ⟨rfl, rfl⟩
  | writing => exact absurd rfl hUndisturbed.1
  | counting => rcases hUndisturbed with h | h <;> cases h
  | lookingUp => cases hUndisturbed
  | updating => cases hUndisturbed.1
  | creating => cases hUndisturbed.1
  | invalidating =>
    cases hExecute
    exact .inr ⟨rfl, rfl⟩
  | ended changed => cases hExecute

theorem conserves_lost {after : FollowersDb × FollowStage}
    (hUndisturbed : request.Undisturbed direction db (some .lost) stage)
    (hExecute : executeFollow direction request db stage = some after) (creatorWallet : String) :
    after.1.drift creatorWallet + request.owes creatorWallet direction (failFollow stage) =
      db.drift creatorWallet + request.owes creatorWallet direction stage := by
  rcases lost_cases hUndisturbed hExecute with ⟨rfl, hSame⟩ | ⟨rfl, hDeleted⟩
  · rw [hSame]
    rfl
  · rw [hDeleted]
    rfl

theorem owes_of_crash (hUndisturbed : request.Undisturbed direction db none stage)
    (creatorWallet : String) :
    request.owes creatorWallet direction stage = 0 := by
  cases stage with
  | counting => rcases hUndisturbed with h | h <;> cases h
  | lookingUp => cases hUndisturbed
  | updating => cases hUndisturbed.1
  | creating => cases hUndisturbed.1
  | _ => rfl

end FollowRequest

variable {creatorWallet : String}

theorem CompactionStage.keeps {now : ℤ} {stage : CompactionStage}
    {after : FollowersDb × CompactionStage} {outcome : Outcome}
    (hUndisturbed : stage.Undisturbed creatorWallet db (some outcome))
    (hEffect : takesEffect (some outcome) = true)
    (hExecute : executeCompaction creatorWallet now db stage = some after) :
    after.1.followEvent = db.followEvent ∧ after.1.cache = db.cache ∧
      ∀ other, after.1.shardCount other = db.shardCount other := by
  cases stage with
  | checking =>
    cases hExecute
    exact ⟨rfl, rfl, fun _ => rfl⟩
  | finding =>
    cases hExecute
    exact ⟨rfl, rfl, fun _ => rfl⟩
  | replacing totalIncrements totalDecrements =>
    have hSame := hUndisturbed hEffect
    simp only [executeCompaction] at hExecute
    split at hExecute
    · rename_i compacted hCompact
      cases hExecute
      have hCounts := FollowersDb.shardCount_compact hSame hCompact
      rcases Option.map_eq_some_iff.mp hCompact with ⟨table, -, rfl⟩
      exact ⟨rfl, rfl, hCounts⟩
    · cases hExecute
      exact ⟨rfl, rfl, fun _ => rfl⟩
  | ended compacted => cases hExecute

theorem FollowersDb.drift_eq {after : FollowersDb} (hEvents : after.followEvent = db.followEvent)
    (hShards : after.shardCount creatorWallet = db.shardCount creatorWallet) :
    after.drift creatorWallet = db.drift creatorWallet := by
  rw [drift, hShards, followRows, hEvents]
  rfl

theorem CountStage.drift_eq {redis : Bool} {stage : CountStage} {after : FollowersDb × CountStage}
    (hExecute : executeCount redis creatorWallet db stage = some after) (other : String) :
    after.1.drift other = db.drift other := by
  cases stage with
  | caching count =>
    cases hExecute
    cases redis <;> rfl
  | ended count => cases hExecute
  | _ =>
    cases hExecute
    rfl

/- What the shards lack is owed by the calls. -/
theorem followers_conserves (redis : Bool) (creatorWallet : String) :
    (followers redis).Conserves (Undisturbed redis) (FollowersDb.drift creatorWallet)
      (FollowerCall.owes creatorWallet) where
  settle := by
    intro db call after outcome hUndisturbed hExecute
    cases call with
    | following direction request stage =>
      rcases Option.map_eq_some_iff.mp hExecute with ⟨settled, hSettled, rfl⟩
      cases outcome with
      | served => exact FollowRequest.conserves hUndisturbed hSettled creatorWallet
      | rejected =>
        exact congrArg (db.drift creatorWallet + ·) (FollowRequest.owes_failFollow hUndisturbed
          creatorWallet)
      | lost => exact FollowRequest.conserves_lost hUndisturbed hSettled creatorWallet
    | compacting compacted now stage =>
      rcases Option.map_eq_some_iff.mp hExecute with ⟨settled, hSettled, rfl⟩
      cases outcome with
      | rejected => rfl
      | served =>
        rcases CompactionStage.keeps hUndisturbed rfl hSettled with ⟨hEvents, -, hShards⟩
        exact congrArg (· + (0 : ℤ)) (FollowersDb.drift_eq hEvents (hShards _))
      | lost =>
        rcases CompactionStage.keeps hUndisturbed rfl hSettled with ⟨hEvents, -, hShards⟩
        exact congrArg (· + (0 : ℤ)) (FollowersDb.drift_eq hEvents (hShards _))
    | counting counted stage =>
      rcases Option.map_eq_some_iff.mp hExecute with ⟨settled, hSettled, rfl⟩
      have hSame := CountStage.drift_eq hSettled creatorWallet
      cases outcome with
      | rejected => rfl
      | served => exact congrArg (· + (0 : ℤ)) hSame
      | lost => exact congrArg (· + (0 : ℤ)) hSame
    | expiring expires =>
      cases hExecute
      cases outcome <;> rfl
    | expired => cases hExecute
  crash := by
    intro db call hUndisturbed
    cases call with
    | following direction request stage =>
      exact FollowRequest.owes_of_crash hUndisturbed creatorWallet
    | _ => rfl

end

-- Cached Counts
----

variable {direction : FollowDirection} {request : FollowRequest} {db : FollowersDb}

def FollowersDb.CacheRight (creatorWallet : String) (db : FollowersDb) : Prop :=
  ∀ count ∈ db.cache creatorWallet, count = (db.shardCount creatorWallet).toNat

/- The cached count of a creator is about to be deleted. -/
def FollowerCall.Invalidates (creatorWallet : String) : FollowerCall → Prop
  | .following _ request .invalidating => request.creatorWallet = creatorWallet
  | _ => False

variable {after : FollowersDb} {creatorWallet : String}

theorem FollowersDb.CacheRight.of_eq (hRight : db.CacheRight creatorWallet)
    (hCache : after.cache creatorWallet = db.cache creatorWallet)
    (hShards : after.shardCount creatorWallet = db.shardCount creatorWallet) :
    after.CacheRight creatorWallet := by
  unfold CacheRight
  rw [hCache, hShards]
  exact hRight

theorem FollowersDb.CacheRight.of_none (hNone : db.cache creatorWallet = none) :
    db.CacheRight creatorWallet := by
  intro count hCount
  rw [hNone] at hCount
  cases hCount

/- Deleting a cached count leaves no wrong one. -/
theorem FollowersDb.CacheRight.delete {deleted : String}
    (h : db.CacheRight creatorWallet ∨ deleted = creatorWallet) :
    (setCache deleted none db).CacheRight creatorWallet := by
  by_cases hSame : creatorWallet = deleted
  · subst hSame
    exact .of_none (cache_setCache_same creatorWallet none db)
  · exact (h.resolve_right (Ne.symm hSame)).of_eq (cache_setCache_other hSame none db) rfl

theorem FollowRequest.Counts.mends (hCounts : request.Counts direction db after)
    (hRight : db.CacheRight creatorWallet) :
    after.CacheRight creatorWallet ∨ (FollowerCall.following direction request
      .invalidating).Invalidates creatorWallet := by
  by_cases hOwn : request.creatorWallet = creatorWallet
  · exact .inr hOwn
  · refine .inl (hRight.of_eq ?_ ?_)
    · rw [hCounts.cache]
    · rw [hCounts.shardCount, if_neg hOwn, Int.add_zero]

namespace FollowRequest

variable {stage : FollowStage} {after : FollowersDb × FollowStage} {creatorWallet : String}

theorem mends (h : db.CacheRight creatorWallet ∨ (FollowerCall.following direction request
    stage).Invalidates creatorWallet)
    (hUndisturbed : request.Undisturbed direction db (some .served) stage)
    (hExecute : executeFollow direction request db stage = some after) :
    after.1.CacheRight creatorWallet ∨ (FollowerCall.following direction request
      after.2).Invalidates creatorWallet := by
  cases stage with
  | finding =>
    cases hExecute
    exact .inl (h.resolve_right id)
  | writing =>
    rcases exists_write (hUndisturbed.2 rfl) with ⟨written, hWrite, hShards, hCache⟩
    simp only [executeFollow, hWrite, orThrow] at hExecute
    cases hExecute
    refine .inl ((h.resolve_right id).of_eq ?_ ?_)
    · rw [hCache]
    · rw [FollowersDb.shardCount, hShards]
      rfl
  | counting =>
    cases hExecute
    exact counts_upsert.mends (h.resolve_right id)
  | lookingUp =>
    cases hExecute
    exact .inl (h.resolve_right id)
  | updating =>
    rcases @exists_update direction _ _ hUndisturbed.2 with ⟨counted, hUpdate⟩
    simp only [executeFollow, hUpdate, orThrow] at hExecute
    cases hExecute
    exact (counts_update hUpdate).mends (h.resolve_right id)
  | creating =>
    rcases @exists_create direction _ _ hUndisturbed.2 with ⟨counted, hCreate⟩
    simp only [executeFollow, hCreate, orThrow] at hExecute
    cases hExecute
    exact (counts_create hCreate).mends (h.resolve_right id)
  | invalidating =>
    cases hExecute
    exact .inl (.delete h)
  | ended changed => cases hExecute

theorem mends_of_no_effect {outcome : Option Outcome}
    (h : db.CacheRight creatorWallet ∨ (FollowerCall.following direction request
      stage).Invalidates creatorWallet)
    (hUndisturbed : request.Undisturbed direction db outcome stage)
    (hNoEffect : takesEffect outcome = false) :
    db.CacheRight creatorWallet := by
  rcases h with hRight | hInvalidates
  · exact hRight
  · cases stage with
    | invalidating =>
      rcases hUndisturbed with hEffect | hNone
      · rw [hEffect] at hNoEffect
        cases hNoEffect
      · subst hInvalidates
        exact .of_none hNone
    | _ => exact hInvalidates.elim

theorem mends_lost (h : db.CacheRight creatorWallet ∨ (FollowerCall.following direction request
    stage).Invalidates creatorWallet)
    (hUndisturbed : request.Undisturbed direction db (some .lost) stage)
    (hExecute : executeFollow direction request db stage = some after) :
    after.1.CacheRight creatorWallet := by
  rcases lost_cases hUndisturbed hExecute with ⟨rfl, hSame⟩ | ⟨rfl, hDeleted⟩
  · rw [hSame]
    exact h.resolve_right id
  · rw [hDeleted]
    exact .delete h

end FollowRequest

variable {stage : CountStage}

theorem CountStage.cacheRight {redis : Bool} {counted : String} {after : FollowersDb × CountStage}
    {outcome : Outcome} (hRight : db.CacheRight creatorWallet)
    (hUndisturbed : redis = true → stage.Undisturbed counted db (some outcome))
    (hEffect : takesEffect (some outcome) = true)
    (hExecute : executeCount redis counted db stage = some after) :
    after.1.CacheRight creatorWallet := by
  cases stage with
  | caching count =>
    cases hExecute
    cases redis with
    | false => exact hRight
    | true =>
      have hCount := hUndisturbed rfl hEffect
      by_cases hSame : creatorWallet = counted
      · subst hSame
        intro cached hCached
        change (setCache creatorWallet (some count) db).cache creatorWallet = some cached at hCached
        rw [cache_setCache_same] at hCached
        cases hCached
        exact hCount
      · exact hRight.of_eq (cache_setCache_other hSame (some count) db) rfl
  | ended count => cases hExecute
  | _ =>
    cases hExecute
    exact hRight

/- A cached count that is wrong is about to be deleted. -/
theorem followers_mends (redis : Bool) (creatorWallet : String) :
    (followers redis).Mends (Undisturbed redis) (FollowersDb.CacheRight creatorWallet)
      (FollowerCall.Invalidates creatorWallet) where
  settle := by
    intro db call after outcome h hUndisturbed hExecute
    cases call with
    | following direction request stage =>
      rcases Option.map_eq_some_iff.mp hExecute with ⟨settled, hSettled, rfl⟩
      cases outcome with
      | served => exact FollowRequest.mends h hUndisturbed hSettled
      | rejected => exact .inl (FollowRequest.mends_of_no_effect h hUndisturbed rfl)
      | lost => exact .inl (FollowRequest.mends_lost h hUndisturbed hSettled)
    | compacting compacted now stage =>
      rcases Option.map_eq_some_iff.mp hExecute with ⟨settled, hSettled, rfl⟩
      have hRight := h.resolve_right id
      cases outcome with
      | rejected => exact .inl hRight
      | served =>
        rcases CompactionStage.keeps hUndisturbed rfl hSettled with ⟨-, hCache, hShards⟩
        exact .inl (hRight.of_eq (congrFun hCache _) (hShards _))
      | lost =>
        rcases CompactionStage.keeps hUndisturbed rfl hSettled with ⟨-, hCache, hShards⟩
        exact .inl (hRight.of_eq (congrFun hCache _) (hShards _))
    | counting counted stage =>
      rcases Option.map_eq_some_iff.mp hExecute with ⟨settled, hSettled, rfl⟩
      have hRight := h.resolve_right id
      cases outcome with
      | rejected => exact .inl hRight
      | served => exact .inl (CountStage.cacheRight hRight hUndisturbed rfl hSettled)
      | lost => exact .inl (CountStage.cacheRight hRight hUndisturbed rfl hSettled)
    | expiring expires =>
      have hRight := h.resolve_right id
      cases hExecute
      cases outcome with
      | rejected => exact .inl hRight
      | served => exact .inl (.delete (.inl hRight))
      | lost => exact .inl (.delete (.inl hRight))
    | expired => cases hExecute
  crash := by
    intro db call hUndisturbed hInvalidates
    cases call with
    | following direction request stage =>
      exact FollowRequest.mends_of_no_effect (.inr hInvalidates) hUndisturbed rfl
    | _ => exact hInvalidates.elim

-- Counts at Rest
----

def CountStage.Shows (count : ℕ) : CountStage → Prop
  | .caching shown => shown = count
  | .ended (some shown) => shown = count
  | _ => True

/- A read of a creator's count, which comes out as it should. -/
def FollowerCall.Reads (creatorWallet : String) (count : ℕ) : FollowerCall → Prop
  | .counting counted stage => counted = creatorWallet ∧ stage.Shows count
  | _ => False

theorem CountStage.shows_next {redis : Bool} {after : FollowersDb × CountStage}
    (hRight : db.CacheRight creatorWallet)
    (hShows : stage.Shows (db.shardCount creatorWallet).toNat)
    (hExecute : executeCount redis creatorWallet db stage = some after) :
    after.2.Shows (db.shardCount creatorWallet).toNat := by
  cases stage with
  | getting =>
    cases hExecute
    split
    · rename_i cached hCached
      split at hCached
      · exact hRight cached hCached
      · cases hCached
    · trivial
  | summing =>
    cases hExecute
    exact db.countOf_findMany creatorWallet
  | caching count =>
    cases hExecute
    exact hShows
  | ended count => cases hExecute

variable {count : ℕ}

theorem CountStage.shows_fail (hShows : stage.Shows count) : (failCount stage).Shows count := by
  cases stage with
  | getting => trivial
  | summing => trivial
  | caching shown => exact hShows
  | ended shown => exact hShows

theorem reads_keep (redis : Bool) (creatorWallet : String) (total : ℤ) :
    (followers redis).Keeps (fun _ _ _ => True) (fun db => db.CacheRight creatorWallet ∧
      db.shardCount creatorWallet = total) (FollowerCall.Reads creatorWallet total.toNat) where
  execute := by
    rintro db call outcome db' next ⟨hRight, rfl⟩ hReads _ _ hExecute
    cases call with
    | counting counted stage =>
      rcases hReads with ⟨rfl, hShows⟩
      rcases Option.map_eq_some_iff.mp hExecute with ⟨settled, hSettled, hSame⟩
      cases hSame
      have hUndisturbed : redis = true →
          stage.Undisturbed counted db (some .served) := by
        intro _
        cases stage with
        | caching count => exact fun _ => hShows
        | _ => trivial
      refine ⟨CountStage.cacheRight hRight hUndisturbed rfl hSettled, ?_⟩
      cases stage with
      | caching count =>
        cases hSettled
        cases redis <;> rfl
      | ended count => cases hSettled
      | _ =>
        cases hSettled
        rfl
    | _ => exact hReads.elim
  next := by
    rintro db call db' next ⟨hRight, rfl⟩ hReads hExecute
    cases call with
    | counting counted stage =>
      rcases hReads with ⟨rfl, hShows⟩
      rcases Option.map_eq_some_iff.mp hExecute with ⟨settled, hSettled, hSame⟩
      cases hSame
      exact ⟨rfl, CountStage.shows_next hRight hShows hSettled⟩
    | _ => exact hReads.elim
  fail := by
    intro call hReads
    cases call with
    | counting counted stage => exact ⟨hReads.1, CountStage.shows_fail hReads.2⟩
    | _ => exact hReads.elim

theorem reads_serve (redis : Bool) (creatorWallet : String) (db : FollowersDb) :
    ∃ steps db' count, (followers redis).Serves db'
      (.counting creatorWallet (.ended (some count))) steps db
      (getFollowerCount creatorWallet) := by
  cases hCached : if redis then db.cache creatorWallet else none with
  | some cached =>
    refine ⟨1, db, cached, .step ?_ .ended⟩
    simp only [followers, getFollowerCount, executeCount, hCached]
    rfl
  | none =>
    let count := countOf (db.findMany creatorWallet)
    have hGet : (followers redis).execute (getFollowerCount creatorWallet) db =
        some (db, .counting creatorWallet .summing) := by
      simp only [followers, getFollowerCount, executeCount, hCached]
      rfl
    have hSum : (followers redis).execute (.counting creatorWallet .summing) db =
        some (db, .counting creatorWallet (.caching count)) :=
      rfl
    have hCache : (followers redis).execute (.counting creatorWallet (.caching count)) db = some
        (if redis then
          setCache creatorWallet (some count) db
        else db, .counting creatorWallet (.ended (some count))) :=
      rfl
    exact ⟨3, _, count, .step hGet (.step hSum (.step hCache .ended))⟩

namespace FollowerCall

def Ended : FollowerCall → Prop
  | .following _ _ (.ended _) => True
  | .compacting _ _ (.ended _) => True
  | .counting _ (.ended _) => True
  | .expiring _ => True
  | .expired => True
  | _ => False

instance (call : FollowerCall) : Decidable call.Ended :=
  match call with
  | .following _ _ stage =>
    match stage with
    | .ended _ => isTrue trivial
    | .finding | .writing | .counting | .lookingUp | .updating
    | .creating | .invalidating => isFalse id
  | .compacting _ _ stage =>
    match stage with
    | .ended _ => isTrue trivial
    | .checking | .finding | .replacing _ _ => isFalse id
  | .counting _ stage =>
    match stage with
    | .ended _ => isTrue trivial
    | .getting | .summing | .caching _ => isFalse id
  | .expiring _ => isTrue trivial
  | .expired => isTrue trivial

variable {call : FollowerCall}

theorem Ended.owes (hEnded : call.Ended) (creatorWallet : String) :
    call.owes creatorWallet = 0 := by
  cases call with
  | following direction request stage =>
    cases stage with
    | ended changed => rfl
    | _ => exact hEnded.elim
  | _ => rfl

theorem Ended.invalidates (hEnded : call.Ended) (creatorWallet : String) :
    ¬ call.Invalidates creatorWallet := by
  intro hInvalidates
  cases call with
  | following direction request stage =>
    cases stage with
    | invalidating => exact hEnded.elim
    | _ => exact hInvalidates.elim
  | _ => exact hInvalidates.elim

end FollowerCall

/- Every call has returned, has thrown or has crashed. -/
def AtRest (crew : Crew FollowersDb FollowerCall) : Prop := crew.All FollowerCall.Ended

instance (crew : Crew FollowersDb FollowerCall) : Decidable (AtRest crew) :=
  inferInstanceAs (Decidable (crew.All _))

variable {redis : Bool} {requests : List FollowerRequest} {crew : Crew FollowersDb FollowerCall}
variable {moves : List FaultMove}

theorem shardCount_at_rest
    (hRun : RunsTo (Crew.attempt (followers redis)) (Crew.Admits (Undisturbed redis))
      (.start FollowersDb.empty (requests.map FollowerRequest.call)) moves crew)
    (hRest : AtRest crew) (creatorWallet : String) :
    crew.store.shardCount creatorWallet = (crew.store.followRows creatorWallet).length := by
  have hConserved := (followers_conserves redis creatorWallet).run hRun
  rw [Crew.total_eq_zero fun i call hCall => (hRest i call hCall).owes creatorWallet,
    Crew.total_eq_zero] at hConserved
  · have hDrift : crew.store.drift creatorWallet = 0 := (Int.add_zero _).symm.trans hConserved
    rw [FollowersDb.drift] at hDrift
    omega
  · apply Crew.all_start
    intro call hCall
    rcases List.mem_map.mp hCall with ⟨asked, -, rfl⟩
    cases asked <;> rfl

/- At rest nothing is left to be invalidated. -/
theorem cacheRight_at_rest
    (hRun : RunsTo (Crew.attempt (followers redis)) (Crew.Admits (Undisturbed redis))
      (.start FollowersDb.empty (requests.map FollowerRequest.call)) moves crew)
    (hRest : AtRest crew) (creatorWallet : String) :
    crew.store.CacheRight creatorWallet := by
  have hEmpty : FollowersDb.empty.CacheRight creatorWallet := .of_none rfl
  rcases (followers_mends redis creatorWallet).run hEmpty hRun
    with hRight | ⟨i, call, hCall, hInvalidates⟩
  · exact hRight
  · exact absurd hInvalidates ((hRest i call hCall).invalidates creatorWallet)

theorem count_of_read {allowed : Crew FollowersDb FollowerCall → FaultMove → Prop}
    (hRight : db.CacheRight creatorWallet) (hRead : RunsTo (Crew.attempt (followers redis)) allowed
      (.start db [getFollowerCount creatorWallet]) moves crew)
    (hCount : crew.calls[0]? = some (some (.counting creatorWallet (.ended (some count))))) :
    count = (db.shardCount creatorWallet).toNat := by
  let reading : Crew FollowersDb FollowerCall := .start db [getFollowerCount creatorWallet]
  have hStore : reading.store.CacheRight creatorWallet ∧ reading.store.shardCount creatorWallet =
      db.shardCount creatorWallet :=
    ⟨hRight, rfl⟩
  have hStart : reading.All (FollowerCall.Reads creatorWallet
      (db.shardCount creatorWallet).toNat) := by
    apply Crew.all_start
    intro call hCall
    rw [List.mem_singleton.mp hCall]
    exact ⟨rfl, trivial⟩
  have hAll := ((reads_keep redis creatorWallet (db.shardCount creatorWallet)).run hStore hStart
      (Crew.admits_any hRead)).2
  exact (hAll 0 _ hCount).2

/-
  After every undisturbed run that has come to rest the shards
  of a creator sum up to the rows of its followers, and that is
  the count that a read returns.
-/
theorem follower_count_at_rest
    (hRun : RunsTo (Crew.attempt (followers redis)) (Crew.Admits (Undisturbed redis))
      (.start FollowersDb.empty (requests.map FollowerRequest.call)) moves crew)
    (hRest : AtRest crew) (creatorWallet : String) :
    FollowersDb.totalIncrements (crew.store.findMany creatorWallet) - FollowersDb.totalDecrements
      (crew.store.findMany creatorWallet) = (crew.store.followRows creatorWallet).length ∧
    (∃ steps crew', runLabels (Crew.attempt (followers redis))
      (.start crew.store [getFollowerCount creatorWallet]) (servedMoves 0 steps) = some crew' ∧
      crew'.calls[0]? = some (some (.counting creatorWallet (.ended (some (crew.store.followRows
        creatorWallet).length))))) ∧ ∀ moves' crew',
      RunsTo (Crew.attempt (followers redis)) (fun _ _ => True)
        (.start crew.store [getFollowerCount creatorWallet]) moves' crew' → ∀ count,
        crew'.calls[0]? = some (some (.counting creatorWallet (.ended (some count)))) → count =
          (crew.store.followRows creatorWallet).length := by
  have hShards := shardCount_at_rest hRun hRest creatorWallet
  have hReads {moves' : List FaultMove} {crew' : Crew FollowersDb FollowerCall}
      (hRead : RunsTo (Crew.attempt (followers redis)) (fun _ _ => True)
        (.start crew.store [getFollowerCount creatorWallet]) moves' crew') {count : ℕ}
      (hCount : crew'.calls[0]? = some (some (.counting creatorWallet (.ended (some count))))) :
      count = (crew.store.followRows creatorWallet).length := by
    rw [count_of_read (cacheRight_at_rest hRun hRest creatorWallet) hRead hCount, hShards]
    exact Int.toNat_natCast _
  refine ⟨?_, ?_, fun moves' crew' hRead count => hReads hRead⟩
  · rw [FollowersDb.totals_findMany, hShards]
  · rcases reads_serve redis creatorWallet crew.store with ⟨steps, db', count, hServes⟩
    let reading : Crew FollowersDb FollowerCall :=
      .start crew.store [getFollowerCount creatorWallet]
    have hStore : reading.store = crew.store := rfl
    have hBegun : reading.calls[0]? = some (some (getFollowerCount creatorWallet)) := rfl
    rcases hServes.runs hStore hBegun with ⟨crew', hServed, -, hLast⟩
    refine ⟨steps, crew', hServed, ?_⟩
    rw [hLast, hReads (runsTo_of_runLabels hServed) hLast]

def sampleFollow (followerWallet NODE_ID : String) : FollowRequest where
  followerWallet := followerWallet
  creatorWallet := "creator"
  overrideNodeId := none
  NODE_ID := NODE_ID
  now := 0

/- Two wallets follow, one twice; the other one leaves again. -/
def sampleRequests : List FollowerRequest :=
  [.follow (sampleFollow "alice" "one"), .follow (sampleFollow "bob" "two"),
    .unfollow (sampleFollow "alice" "two"), .follow (sampleFollow "bob" "one"),
    .compact "creator" 1000000, .count "creator"]

/- The statement that counts the second follow is rejected. -/
def sampleMoves : List FaultMove :=
  servedMoves 0 4 ++ servedMoves 1 2 ++ .attempt 1 .rejected ::
    (servedMoves 1 3 ++ servedMoves 2 4 ++ servedMoves 3 1 ++ servedMoves 4 3 ++ servedMoves 5 3)

/- The totals of the shards, and the number of followers. -/
def sampleCounts (db : FollowersDb) : ℤ × ℤ × ℕ :=
  (FollowersDb.totalIncrements (db.findMany "creator"),
    FollowersDb.totalDecrements (db.findMany "creator"), (db.followRows "creator").length)

theorem follower_count_at_rest_sample :
    ∃ crew, RunsTo (Crew.attempt (followers true)) (Crew.Admits (Undisturbed true))
      (.start FollowersDb.empty (sampleRequests.map FollowerRequest.call)) sampleMoves crew ∧
      AtRest crew ∧ sampleCounts crew.store = (2, 1, 1) ∧
      FollowersDb.totalIncrements (crew.store.findMany "creator") - FollowersDb.totalDecrements
        (crew.store.findMany "creator") = (crew.store.followRows "creator").length := by
  have hRuns : (runAllowed (Crew.attempt (followers true)) (Crew.Admits (Undisturbed true))
      (.start FollowersDb.empty (sampleRequests.map FollowerRequest.call)) sampleMoves).map
      (fun crew => (decide (AtRest crew), sampleCounts crew.store)) =
      some (true, 2, 1, 1) := by decide
  rcases Option.map_eq_some_iff.mp hRuns with ⟨crew, hSome, hSeen⟩
  rcases Prod.mk.inj hSeen with ⟨hRest, hCounts⟩
  have hRun := runsTo_of_runAllowed hSome
  have hAtRest := of_decide_eq_true hRest
  exact ⟨crew, hRun, hAtRest, hCounts, (follower_count_at_rest hRun hAtRest "creator").1⟩

/-
  A wallet follows twice at the same time; both calls find no
  row, write the same one, and count.
-/
theorem double_follow_counts_twice :
    ∃ crew, RunsTo (Crew.attempt (followers true)) (fun _ _ => True) (.start FollowersDb.empty
      [follow (sampleFollow "alice" "one"), follow (sampleFollow "alice" "two"),
        getFollowerCount "creator"]) (servedMoves 0 1 ++ servedMoves 1 4 ++ servedMoves 0 3 ++
      servedMoves 2 3) crew ∧ AtRest crew ∧
      FollowersDb.totalIncrements (crew.store.findMany "creator") - FollowersDb.totalDecrements
        (crew.store.findMany "creator") ≠ (crew.store.followRows "creator").length := by
  have hRuns : (runLabels (Crew.attempt (followers true)) (.start FollowersDb.empty
      [follow (sampleFollow "alice" "one"), follow (sampleFollow "alice" "two"),
        getFollowerCount "creator"]) (servedMoves 0 1 ++ servedMoves 1 4 ++
      servedMoves 0 3 ++ servedMoves 2 3)).map
      (fun crew => (decide (AtRest crew), sampleCounts crew.store)) =
      some (true, 2, 0, 1) := by decide
  rcases Option.map_eq_some_iff.mp hRuns with ⟨crew, hSome, hSeen⟩
  rcases Prod.mk.inj hSeen with ⟨hRest, hCounts⟩
  rcases Prod.mk.inj hCounts with ⟨hIncrements, hOthers⟩
  rcases Prod.mk.inj hOthers with ⟨hDecrements, hRows⟩
  refine ⟨crew, runsTo_of_runLabels hSome, of_decide_eq_true hRest, ?_⟩
  rw [hIncrements, hDecrements, hRows]
  decide

end Followers

end AccessLayer
