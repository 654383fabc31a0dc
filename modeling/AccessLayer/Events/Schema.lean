import AccessLayer.Library.Program
import AccessLayer.Library.Table

/-
  Rows and statements of the Merkle event tables
  (`prisma/schema/merkle.prisma`).

  Timestamps are left out: no function of the service reads
  them.  The roots handed to the publisher are kept beside the
  tables, in the order in which they were handed over.

  Main declaration: `EventsDb`
-/

-- Rows
----

namespace AccessLayer

namespace Events

open Transactional

inductive PartitionStatus where
  | opened
  | closed
  | published
  | publicationFailed
  deriving DecidableEq

/- The enumeration's text, as it stands in error messages. -/
def PartitionStatus.toText : PartitionStatus → String
  | .opened => "OPEN"
  | .closed => "CLOSED"
  | .published => "PUBLISHED"
  | .publicationFailed => "PUBLICATION_FAILED"

structure Event where
  id : String
  network : String
  contractId : String
  ledger : Nat
  txHash : String
  eventIndex : Nat
  topic : String
  dataJson : String
  leafHash : String
  leafIndex : Nat
  partitionId : String

structure MerkleTreeState where
  partitionId : String
  level : Nat
  position : Nat
  hash : String

structure MerklePartitionRoot where
  partitionId : String
  network : String
  contractId : String
  ledgerStart : Nat
  ledgerEnd : Nat
  root : String
  eventCount : Nat
  sorobanTxHash : Option String
  status : PartitionStatus
  retryCount : Nat
  lastError : Option String

structure PublishRootParams where
  network : String
  contractId : String
  ledgerStart : Nat
  ledgerEnd : Nat
  root : String
  eventCount : Nat
  deriving DecidableEq

/- A root handed to the publisher for a partition. -/
structure Submission where
  partitionId : String
  params : PublishRootParams
  deriving DecidableEq

instance : Keyed Event String where
  key event := event.id

instance : Keyed MerkleTreeState (String × Nat × Nat) where
  key node := (node.partitionId, node.level, node.position)

instance : Keyed MerklePartitionRoot String where
  key partition := partition.partitionId

structure EventsDb where
  events : Table Event
  nodes : Table MerkleTreeState
  partitions : Table MerklePartitionRoot
  submitted : List Submission

def EventsDb.empty : EventsDb where
  events := .empty
  nodes := .empty
  partitions := .empty
  submitted := []

/- The errors that calls of the service end with. -/
inductive EventsError where
  | partitionNotFound (partitionId : String)
  | partitionNotOpen (partitionId : String) (status : PartitionStatus)
  | uniqueConstraint
  | recordNotFound
  | publisher (message : String)
  | connection

/- The `message` of a thrown error. -/
def EventsError.message : EventsError → String
  | .partitionNotFound partitionId => "Partition " ++ partitionId ++ " not found"
  | .partitionNotOpen partitionId status =>
    "Partition " ++ partitionId ++ " is " ++ status.toText ++
      "; cannot append events to a closed partition"
  | .uniqueConstraint => "Unique constraint failed"
  | .recordNotFound => "No record was found for an update."
  | .publisher message => message
  | .connection => "Can't reach database server"

/- A call of the service, statement by statement. -/
abbrev EventsM := Program EventsDb EventsError

-- Statements
----

open Transactional.Program

def countEvents (partitionId : String) : EventsM Nat :=
  query .connection fun db => db.events.rows.countP (fun e => e.partitionId = partitionId)

/- `event.findUnique` by primary key. -/
def findEvent (id : String) : EventsM (Option Event) :=
  query .connection fun db => db.events.find? id

/- `event.create`, with the primary key and both unique constraints. -/
def createEvent (row : Event) : EventsM Event :=
  execute .connection fun db =>
    if db.events.rows.any (fun e => e.txHash = row.txHash ∧ e.eventIndex = row.eventIndex ∨
      e.partitionId = row.partitionId ∧
        e.leafIndex = row.leafIndex) then
      .error .uniqueConstraint
    else
      match db.events.insert? row with
      | some events => .ok (row, { db with events })
      | none => .error .uniqueConstraint

def findNode (partitionId : String) (level position : Nat) : EventsM (Option MerkleTreeState) :=
  query .connection fun db => db.nodes.find? (partitionId, level, position)

def findLeaves (partitionId : String) : EventsM (List MerkleTreeState) :=
  query .connection fun db => (db.nodes.rows.filter (fun node => node.partitionId = partitionId ∧
    node.level = 0)).insertionSort (fun a b => a.position ≤ b.position)

/- The node table after an upsert of one node's hash. -/
def EventsDb.putNode (db : EventsDb) (partitionId : String) (level position : Nat)
    (hash : String) : EventsDb :=
  { db with
    nodes :=
      db.nodes.upsert { partitionId, level, position, hash }
        (fun node => { node with hash }) (fun _ => rfl) }

def upsertNode (partitionId : String) (level position : Nat) (hash : String) : EventsM Unit :=
  execute .connection fun db => .ok ((), db.putNode partitionId level position hash)

def findPartition (partitionId : String) : EventsM (Option MerklePartitionRoot) :=
  query .connection fun db => db.partitions.find? partitionId

def createPartition (row : MerklePartitionRoot) : EventsM MerklePartitionRoot :=
  execute .connection fun db =>
    match db.partitions.insert? row with
    | some partitions => .ok (row, { db with partitions })
    | none => .error .uniqueConstraint

/- The partition table after a rewrite of one row. -/
def EventsDb.putPartition (db : EventsDb) (partitionId : String)
    (f : MerklePartitionRoot → MerklePartitionRoot)
    (hKey : ∀ row, key (f row) = key row) : EventsDb :=
  { db with
    partitions := db.partitions.update partitionId f hKey }

def updatePartition (partitionId : String) (f : MerklePartitionRoot → MerklePartitionRoot)
    (hKey : ∀ row, key (f row) = key row) : EventsM MerklePartitionRoot :=
  execute .connection fun db =>
    match db.partitions.find? partitionId with
    | some row => .ok (f row, db.putPartition partitionId f hKey)
    | none => .error .recordNotFound

-- Node Lookups
----

/- The hash stored at a place of a partition's tree. -/
def EventsDb.nodeHash (db : EventsDb) (partitionId : String)
    (level position : Nat) : Option String :=
  (db.nodes.find? (partitionId, level, position)).map MerkleTreeState.hash

theorem nodeHash_putNode (db : EventsDb) (partitionId partitionId' : String)
    (level position level' position' : Nat) (hash : String) :
    (db.putNode partitionId level position hash).nodeHash partitionId' level' position' =
      if partitionId' = partitionId ∧ level' = level ∧ position' = position then
        some hash
      else db.nodeHash partitionId' level' position' := by
  simp only [EventsDb.nodeHash, EventsDb.putNode, Table.find?_upsert]
  by_cases hKey : partitionId' = partitionId ∧ level' = level ∧ position' = position
  · rcases hKey with ⟨rfl, rfl, rfl⟩
    have hSame : (partitionId', level', position') =
        key ({ partitionId := partitionId', level := level',
               position := position', hash :=
               hash } : MerkleTreeState) := rfl
    rw [if_pos hSame]
    cases db.nodes.find? (partitionId', level', position') <;> simp
  · have hOther : (partitionId', level', position') ≠
        key ({ partitionId, level, position,
               hash } : MerkleTreeState) := by
      simpa [key] using hKey
    rw [if_neg hOther, if_neg hKey]

@[simp] theorem run_upsertNode
    (partitionId : String) (level position : Nat) (hash : String) (db : EventsDb) :
    (upsertNode partitionId level position hash).run db =
      (.ok (), db.putNode partitionId level position hash) := rfl

@[simp] theorem run_findNode (partitionId : String) (level position : Nat) (db : EventsDb) :
    (findNode partitionId level position).run db =
      (.ok (db.nodes.find? (partitionId, level, position)), db) := rfl

-- Partition Rows
----

variable {row : MerklePartitionRoot} {db : EventsDb}

theorem run_createPartition (hFresh : db.partitions.find? (key row) = none) :
    (createPartition row).run db = (.ok row, { db with
        partitions := db.partitions.create row hFresh }) := by
  simp [createPartition, Table.insert?, hFresh]

variable {partitionId : String} {f : MerklePartitionRoot → MerklePartitionRoot}
variable {hKey : ∀ row, key (f row) = key row}

theorem run_updatePartition (hRow : db.partitions.find? partitionId = some row) :
    (updatePartition partitionId f hKey).run db =
      (.ok (f row), db.putPartition partitionId f hKey) := by
  simp [updatePartition, hRow]

theorem find?_putPartition (hRow : db.partitions.find? partitionId = some row) :
    (db.putPartition partitionId f hKey).partitions.find? partitionId = some (f row) := by
  rw [EventsDb.putPartition, Table.find?_update_same, hRow]
  rfl

end Events

end AccessLayer
