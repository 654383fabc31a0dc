import AccessLayer.Events.Schema
import AccessLayer.Utils.Merkle

/-
  The Merkle-proof event integrity service
  (`src/modules/events/events.service.ts`).

  Heights are written with `Nat.clog`, which the source computes
  as `Math.ceil(Math.log2(n))`; positions are 32-bit integers,
  where the two agree.

  Main declarations: `ingestEvent`, `closePartition`
-/

-- Incremental Trees
----

namespace AccessLayer

namespace Events

open Transactional Transactional.Program

section

open Merkle

/- The level of the root of a tree with `treeSize` leaves. -/
def maxLevel (treeSize : Nat) : Nat :=
  if treeSize ≤ 1 then 0 else Nat.clog 2 treeSize

variable (sha256 : Bytes → Bytes)

/- The `while` loop of `extendTreeIncremental`, by the number of levels that are left. -/
def climbTree (partitionId : String) (currLevel currPos : Nat)
    (currHash : String) : Nat → EventsM String
  | 0 => return currHash
  | remaining + 1 =>
    if currPos % 2 = 1 then do
      let leftSibling ← findNode partitionId currLevel (currPos - 1)
      let leftHash :=
        match leftSibling with
        | some node => node.hash
        | none => currHash
      let parentHash := hashPair sha256 leftHash currHash
      upsertNode partitionId (currLevel + 1) (currPos / 2) parentHash
      climbTree partitionId (currLevel + 1) (currPos / 2) parentHash remaining
    else do
      upsertNode partitionId (currLevel + 1) (currPos / 2) currHash
      climbTree partitionId (currLevel + 1) (currPos / 2) currHash remaining

def extendTreeIncremental (partitionId : String) (leafIndex : Nat)
    (leafHash : String) : EventsM String := do
  let treeSize := leafIndex + 1
  upsertNode partitionId 0 leafIndex leafHash
  climbTree sha256 partitionId 0 leafIndex leafHash (maxLevel treeSize)

def getRootFromState (partitionId : String) (treeSize : Nat) : EventsM String := do
  if treeSize = 0 then
    return ""
  else
    let rootNode ← findNode partitionId (maxLevel treeSize) 0
    return match rootNode with
      | some node => node.hash
      | none => ""

/- The `while` loop of `recomputeRootFromState`. -/
def rehashLevels (currentLevel : List String) : List String :=
  PromotionTree.collapse (hashPair sha256) currentLevel

def recomputeRootFromState (partitionId : String) : EventsM String := do
  let leafNodes ← findLeaves partitionId
  if leafNodes.length = 0 then
    return ""
  else
    let topLevel := rehashLevels sha256 (leafNodes.map MerkleTreeState.hash)
    return topLevel[0]?.getD ""

end

-- Closing Partitions
----

section

/-
  The Soroban publisher answers with a transaction hash or
  throws.  Its answer may depend on what it was handed before.
-/
abbrev SorobanPublisher := List Submission → PublishRootParams → Except String String

/- What `publishRootWithRetry` returns. -/
structure PublishResult where
  success : Bool
  txHash : Option String
  error : Option String

variable (publisher : SorobanPublisher)

/- One call of `activeSorobanPublisher`. -/
def activeSorobanPublisher (partitionId : String) (params : PublishRootParams) : EventsM String :=
  .stmt (fun db => { db with
        submitted := db.submitted ++ [{ partitionId, params }] })
    (fun db =>
      match publisher db.submitted params with
      | .ok txHash => .ret txHash
      | .error message => .raise (.publisher message))
    (.raise .connection)

/- The body of the `try` block of one attempt. -/
def publishRootOnce (partitionId : String) (params : PublishRootParams)
    (attempt : Nat) : EventsM PublishResult := do
  let txHash ← activeSorobanPublisher publisher partitionId params
  let _ ← updatePartition partitionId (fun row => { row with
        status := .published
        sorobanTxHash := some txHash
        retryCount := attempt
        lastError := none }) (fun _ => rfl)
  return { success := true, txHash := some txHash, error := none }

/- The loop over attempts, by the number of attempts left. -/
def publishAttempts (partitionId : String) (params : PublishRootParams) (maxRetries attempt : Nat)
    (lastError : Option EventsError) : Nat → EventsM PublishResult
  | 0 => do
    let errorMessage :=
      match lastError.map EventsError.message with
      | none | some "" => "Publication retries exhausted"
      | some message => message
    let _ ← updatePartition partitionId (fun row => { row with
          status := .publicationFailed
          lastError := some errorMessage
          retryCount := maxRetries }) (fun _ => rfl)
    return {
      success := false
      txHash := none
      error := some errorMessage }
  | remaining + 1 =>
    tryCatch (publishRootOnce publisher partitionId params attempt) (fun err =>
      publishAttempts partitionId params maxRetries (attempt + 1) (some err) remaining)

def publishRootWithRetry (partitionId : String) (params : PublishRootParams)
    (maxRetries : Nat) : EventsM PublishResult :=
  publishAttempts publisher partitionId params maxRetries 0 none (maxRetries + 1)

def MerklePartitionRoot.publishParams (partition : MerklePartitionRoot) : PublishRootParams where
  network := partition.network
  contractId := partition.contractId
  ledgerStart := partition.ledgerStart
  ledgerEnd := partition.ledgerEnd
  root := partition.root
  eventCount := partition.eventCount

def closePartition (partitionId : String) (maxRetries : Nat) :
    EventsM (Option MerklePartitionRoot) := do
  match ← findPartition partitionId with
  | none => throw (.partitionNotFound partitionId)
  | some partition =>
    if partition.status = .published then
      return some partition
    else
      let _ ← updatePartition partitionId (fun row => { row with status := .closed }) (fun _ => rfl)
      let _ ← publishRootWithRetry publisher partitionId partition.publishParams maxRetries
      findPartition partitionId

def findCompleted (network contractId : String) (latestLedger : Nat) :
    EventsM (List MerklePartitionRoot) :=
  query .connection fun db =>
    (db.partitions.rows.filter (fun row => row.network = network ∧ row.contractId = contractId ∧
      row.status = .opened ∧ row.ledgerEnd < latestLedger)).insertionSort
      (fun a b => a.ledgerStart ≤ b.ledgerStart)

/- The loop of `closeCompletedPartitions`. -/
def closeEach (maxRetries : Nat) : List MerklePartitionRoot → EventsM (List String)
  | [] => return []
  | partition :: rest => do
    let _ ← closePartition publisher partition.partitionId maxRetries
    let closedPartitionIds ← closeEach maxRetries rest
    return partition.partitionId :: closedPartitionIds

def closeCompletedPartitions (network contractId : String)
    (latestLedger maxRetries : Nat) : EventsM (List String) := do
  let completed ← findCompleted network contractId latestLedger
  closeEach publisher maxRetries completed

end

-- Ingesting Events
----

section

open Merkle

def DEFAULT_PARTITION_LEDGER_RANGE : Nat := 1000

/- `dataJson` is the payload's text after `JSON.stringify`. -/
structure IngestEventInput where
  network : String
  contractId : String
  ledger : Nat
  txHash : String
  eventIndex : Nat
  topic : String
  dataJson : String

structure IngestEventResult where
  event : Event
  partitionClosed : Bool
  root : String
  partitionRoot : MerklePartitionRoot

/- First and last ledger of the partition of a ledger. -/
def getPartitionBounds (ledger range : Nat) : Nat × Nat :=
  let partitionIndex := ledger / range
  let ledgerStart := partitionIndex * range
  (ledgerStart, ledgerStart + range - 1)

def buildPartitionId (network contractId : String) (ledgerStart ledgerEnd : Nat) : String :=
  network ++ ":" ++ contractId ++ ":" ++ toString ledgerStart ++ "-" ++ toString ledgerEnd

def IngestEventInput.partitionId (input : IngestEventInput) (partitionLedgerRange : Nat) : String :=
  let bounds := getPartitionBounds input.ledger partitionLedgerRange
  buildPartitionId input.network input.contractId bounds.1 bounds.2

variable (sha256 : Bytes → Bytes) (canonicalData : String → String)

def IngestEventInput.leafHash (input : IngestEventInput) : String :=
  computeEventLeafHash sha256 canonicalData
    { ledger := input.ledger
      txHash := input.txHash
      eventIndex := input.eventIndex
      topic := input.topic
      dataJson := input.dataJson }

/- The row of a partition that has no event yet. -/
def IngestEventInput.newPartition (input : IngestEventInput)
    (partitionLedgerRange : Nat) : MerklePartitionRoot where
  partitionId := input.partitionId partitionLedgerRange
  network := input.network
  contractId := input.contractId
  ledgerStart := (getPartitionBounds input.ledger partitionLedgerRange).1
  ledgerEnd := (getPartitionBounds input.ledger partitionLedgerRange).2
  root := input.leafHash sha256 canonicalData
  eventCount := 0
  sorobanTxHash := none
  status := .opened
  retryCount := 0
  lastError := none

/- The event row of an input, under a generated identifier. -/
def IngestEventInput.toEvent (input : IngestEventInput) (partitionLedgerRange leafIndex : Nat)
    (id : String) : Event where
  id := id
  network := input.network
  contractId := input.contractId
  ledger := input.ledger
  txHash := input.txHash
  eventIndex := input.eventIndex
  topic := input.topic
  dataJson := input.dataJson
  leafHash := input.leafHash sha256 canonicalData
  leafIndex := leafIndex
  partitionId := input.partitionId partitionLedgerRange

/- The data that ends an ingestion: the new root and count. -/
def MerklePartitionRoot.withRoot (newRoot : String) (eventCount : Nat)
    (row : MerklePartitionRoot) : MerklePartitionRoot :=
  { row with root := newRoot, eventCount }

theorem MerklePartitionRoot.key_withRoot (newRoot : String) (eventCount : Nat)
    (row : MerklePartitionRoot) : key (row.withRoot newRoot eventCount) = key row := rfl

/- Require an open partition, or create it. -/
def ensurePartition (input : IngestEventInput) (partitionLedgerRange : Nat) :
    EventsM MerklePartitionRoot := do
  let partitionId := input.partitionId partitionLedgerRange
  match ← findPartition partitionId with
  | some partitionRoot =>
    if partitionRoot.status ≠ .opened then
      throw (.partitionNotOpen partitionId partitionRoot.status)
    else
      return partitionRoot
  | none => createPartition (input.newPartition sha256 canonicalData partitionLedgerRange)

/- `cuid` is the identifier generated for the event row. -/
def ingestEvent (input : IngestEventInput) (partitionLedgerRange : Nat)
    (cuid : String) : EventsM IngestEventResult := do
  let partitionId := input.partitionId partitionLedgerRange
  let leafHash := input.leafHash sha256 canonicalData
  let leafIndex ← countEvents partitionId
  let _ ← ensurePartition sha256 canonicalData input partitionLedgerRange
  let event ← createEvent (input.toEvent sha256 canonicalData partitionLedgerRange leafIndex cuid)
  let newRoot ← extendTreeIncremental sha256 partitionId leafIndex leafHash
  let updatedPartition ← updatePartition partitionId
    (MerklePartitionRoot.withRoot newRoot (leafIndex + 1))
    (MerklePartitionRoot.key_withRoot newRoot (leafIndex + 1))
  return {
    event
    partitionClosed := updatedPartition.status ≠ .opened
    root := newRoot
    partitionRoot := updatedPartition }

end

-- Inclusion Proofs
----

open Merkle PromotionTree

structure EventInclusionProofResponse where
  leafHash : String
  leafIndex : Nat
  treeSize : Nat
  root : String
  siblings : List MerkleProofSibling
  partitionId : String
  sorobanTxHash : Option String

def getLevelNodeCount (treeSize level : Nat) : Nat := width treeSize level

/- One pass of the loop that collects siblings. -/
def collectSibling (partitionId : String) (treeSize level currPos : Nat) :
    EventsM (List MerkleProofSibling) := do
  let levelCount := getLevelNodeCount treeSize level
  if currPos % 2 = 1 then
    let leftSibling ← findNode partitionId level (currPos - 1)
    return match leftSibling with
      | some node => [{ hash := node.hash, side := .left }]
      | none => []
  else if currPos + 1 < levelCount then
    let rightSibling ← findNode partitionId level (currPos + 1)
    return match rightSibling with
      | some node => [{ hash := node.hash, side := .right }]
      | none => []
  else
    return []

/- The loop that collects siblings, by the levels left. -/
def collectSiblings (partitionId : String) (treeSize level currPos : Nat) :
    Nat → EventsM (List MerkleProofSibling)
  | 0 => return []
  | remaining + 1 => do
    let siblings ← collectSibling partitionId treeSize level currPos
    let rest ← collectSiblings partitionId treeSize (level + 1) (currPos / 2) remaining
    return siblings ++ rest

def getEventInclusionProof (eventId : String) : EventsM (Option EventInclusionProofResponse) := do
  match ← findEvent eventId with
  | none => return none
  | some event =>
    match ← findPartition event.partitionId with
    | none => return none
    | some partition =>
      if partition.status = .opened then
        return none
      else
        let treeSize := partition.eventCount
        let siblings ← collectSiblings event.partitionId
          treeSize 0 event.leafIndex (maxLevel treeSize)
        return some {
          leafHash := event.leafHash
          leafIndex := event.leafIndex
          treeSize
          root := partition.root
          siblings
          partitionId := event.partitionId
          sorobanTxHash := partition.sorobanTxHash }

end Events

end AccessLayer
