import AccessLayer.Events.PartitionState

/-
  Completeness of inclusion proofs.

  The siblings read from the stored nodes are the authentication
  path of the reference tree, so every event of a closed
  partition verifies against the partition's root.

  Main result: `inclusionProofs_complete`
-/

-- Collected Siblings
----

namespace AccessLayer

namespace Events

open Transactional Transactional.Program Merkle

section

open PromotionTree

variable {sha256 : Bytes → Bytes} {db : EventsDb} {partitionId : String} {leaves : List String}

/- A sibling of the reference tree, as a proof lists it. -/
def toProofSibling (sibling : Side × String) : MerkleProofSibling where
  hash := sibling.2
  side := sibling.1

theorem run_collectSibling (hStored : StoresTree sha256 db partitionId leaves) {k : Nat}
    (hLevel : k ≤ Nat.clog 2 leaves.length) (p : Nat) :
    (collectSibling partitionId leaves.length k p).run db = (.ok
      ((sibling? (level (hashPair sha256) k leaves) p).toList.map toProofSibling), db) := by
  have hNode : ∀ q, (db.nodes.find? (partitionId, k, q)).map MerkleTreeState.hash =
      (level (hashPair sha256) k leaves)[q]? := by
    intro q
    have hq := hStored k q
    rwa [if_pos hLevel] at hq
  rw [collectSibling, sibling?]
  by_cases hOdd : p % 2 = 1
  · rw [if_pos hOdd, if_pos hOdd, ← hNode]
    simp only [run_bind, run_findNode]
    cases db.nodes.find? (partitionId, k, p - 1) <;> rfl
  · rw [if_neg hOdd, if_neg hOdd, ← hNode]
    by_cases hPaired : p + 1 < getLevelNodeCount leaves.length k
    · rw [if_pos hPaired]
      simp only [run_bind, run_findNode]
      cases db.nodes.find? (partitionId, k, p + 1) <;> rfl
    · rw [if_neg hPaired, hNode, List.getElem?_eq_none]
      · rfl
      · rw [length_level]
        rw [getLevelNodeCount] at hPaired
        omega

theorem run_collectSiblings (hStored : StoresTree sha256 db partitionId leaves)
    (remaining k p : Nat) (hTop : k + remaining ≤ Nat.clog 2 leaves.length) :
    (collectSiblings partitionId leaves.length k p remaining).run db = (.ok
      ((authPath (hashPair sha256) leaves k p remaining).map toProofSibling), db) := by
  induction remaining generalizing k p with
  | zero => rfl
  | succ remaining ih =>
    have hRest := ih (k + 1) (p / 2) (by omega)
    have hHere := run_collectSibling hStored (k := k) (by omega) p
    simp only [collectSiblings, run_bind, hHere, hRest, run_pure, authPath, List.map_append]

theorem verify_authPath (hDigests : ∀ h ∈ leaves, IsDigest h) {i : Nat} {leafHash : String}
    (hLeaf : leaves[i]? = some leafHash) :
    verifyInclusionProof sha256
      { leafHash
        siblings :=
          (authPath (hashPair sha256) leaves 0 i (Nat.clog 2 leaves.length)).map toProofSibling }
      (referenceRoot sha256 leaves) = true := by
  apply verifyInclusionProof_of_climb
  · exact hDigests _ (List.mem_of_getElem? hLeaf)
  · intro s hs
    rcases List.mem_map.mp hs with ⟨sibling, hSibling, rfl⟩
    have hPath : ∀ n k p, ∀ sibling ∈ authPath (hashPair sha256) leaves k p n,
        IsDigest sibling.2 := by
      intro n
      induction n with
      | zero =>
        intro k p sibling hMem
        simp [authPath] at hMem
      | succ n ih =>
        intro k p sibling hMem
        rw [authPath] at hMem
        rcases List.mem_append.mp hMem with hHead | hTail
        · have hLevel := isDigest_of_mem_level sha256 hDigests k
          rw [sibling?] at hHead
          split at hHead <;> simp only [Option.mem_toList, Option.map_eq_some_iff] at hHead <;>
            rcases hHead with ⟨hash, hHash, rfl⟩ <;> exact hLevel _ (List.mem_of_getElem? hHash)
        · exact ih _ _ _ hTail
    exact hPath _ _ _ _ hSibling
  · have hClimb := climb_eq_root (hashPair sha256) leaves i leafHash hLeaf
    rw [buildFullReferenceMerkleTree_root, hClimb, List.map_map]
    have hId : (authPath (hashPair sha256) leaves 0 i (Nat.clog 2 leaves.length)).map
        ((fun s : MerkleProofSibling => (s.side, s.hash)) ∘ toProofSibling) =
        authPath (hashPair sha256) leaves 0 i (Nat.clog 2 leaves.length) :=
      List.map_id _
    rw [hId]
    rfl

variable {event : Event}

theorem run_getEventInclusionProof (hSealed : Sealed sha256 partitionId leaves db)
    {row : MerklePartitionRoot} (hRow : db.partitions.find? partitionId = some row)
    (hEvent : event ∈ db.partitionEvents partitionId) :
    (getEventInclusionProof event.id).run db = (.ok (some {
        leafHash := event.leafHash
        leafIndex := event.leafIndex
        treeSize := leaves.length
        root := referenceRoot sha256 leaves
        siblings :=
          (authPath (hashPair sha256) leaves 0 event.leafIndex
            (Nat.clog 2 leaves.length)).map toProofSibling
        partitionId
        sorobanTxHash := row.sorobanTxHash }), db) := by
  rcases hSealed.closed with ⟨row', hRow', hClosed⟩
  rw [hRow] at hRow'
  cases hRow'
  rcases hSealed.consistent.stored row hRow with ⟨hRoot, hCount⟩
  rcases List.mem_filter.mp hEvent with ⟨hMem, hPartition⟩
  have hPartition : event.partitionId = partitionId := by simpa using hPartition
  have hFound : db.events.find? event.id = some event := Table.find?_of_mem hMem
  rw [getEventInclusionProof]
  simp only [findEvent, findPartition, run_bind, run_query,
    hFound, hPartition, hRow, if_neg hClosed, hCount, maxLevel_eq_clog,
    run_collectSiblings hSealed.consistent.tree (Nat.clog 2 leaves.length) 0 event.leafIndex
      (by omega), run_pure, hRoot]

theorem Consistent.leaf_of_event (hConsistent : Consistent sha256 db partitionId leaves)
    (hEvent : event ∈ db.partitionEvents partitionId) :
    leaves[event.leafIndex]? = some event.leafHash := by
  rcases List.mem_iff_getElem?.mp hEvent with ⟨i, hi⟩
  have hIndex : (List.range leaves.length)[i]? = some event.leafIndex := by
    rw [← hConsistent.indices, List.getElem?_map, hi]
    rfl
  have hPosition : i = event.leafIndex := by
    rcases List.getElem?_eq_some_iff.mp hIndex with ⟨_, hEq⟩
    simpa using hEq
  have hHash : leaves[i]? = some event.leafHash := by
    conv_lhs => rw [← hConsistent.hashes]
    rw [List.getElem?_map, hi]
    rfl
  rw [← hPosition]
  exact hHash

end

-- Sequences of Ingested Events
----

/- The arguments of one call of `ingestEvent`. -/
structure IngestCall where
  input : IngestEventInput
  partitionLedgerRange : Nat
  cuid : String

def IngestCall.partitionId (call : IngestCall) : String :=
  call.input.partitionId call.partitionLedgerRange

variable (sha256 : Bytes → Bytes) (canonicalData : String → String)

def ingestEvents : List IngestCall → EventsM (List IngestEventResult)
  | [] => return []
  | call :: rest => do
    let result ← ingestEvent sha256 canonicalData call.input call.partitionLedgerRange call.cuid
    let results ← ingestEvents rest
    return result :: results

variable {sha256 : Bytes → Bytes} {canonicalData : String → String}

/- Successful calls append their leaves in order. -/
theorem run_ingestEvents {partitionId : String} {calls : List IngestCall} (hPartition :
    ∀ call ∈ calls, call.partitionId = partitionId) {db db' : EventsDb} {leaves : List String}
    {results : List IngestEventResult} (hConsistent : Consistent sha256 db partitionId leaves)
    (hRun : (ingestEvents sha256 canonicalData calls).run db = (.ok results, db')) :
    Consistent sha256 db' partitionId (leaves ++ calls.map (fun call =>
      call.input.leafHash sha256 canonicalData)) := by
  induction calls generalizing db leaves results with
  | nil =>
    cases hRun
    simpa using hConsistent
  | cons call rest ih =>
    have hHere : call.partitionId = partitionId := hPartition call (by simp)
    subst hHere
    simp only [ingestEvents, run_bind] at hRun
    rcases run_ingestEvent canonicalData call.cuid hConsistent with
      ⟨e, hError⟩ | ⟨e, db₁, hError, -, -⟩ | ⟨result, db₁, hOk, -, hNext⟩
    · simp [hError] at hRun
    · simp [hError] at hRun
    · simp only [hOk] at hRun
      cases hRest : (ingestEvents sha256 canonicalData rest).run db₁ with
      | mk outcome db₂ =>
        cases outcome with
        | error e => simp [hRest] at hRun
        | ok others =>
          simp only [hRest, run_pure, Prod.mk.injEq, Except.ok.injEq] at hRun
          rcases hRun with ⟨-, rfl⟩
          have hAll := ih (fun c hc => hPartition c (by simp [hc])) hNext hRest
          simpa using hAll

/-
  After any number of events is ingested into a partition and
  the partition is closed, every event is proved against the
  stored root.
-/
theorem inclusionProofs_complete (sha256 : Bytes → Bytes) (canonicalData : String → String)
    (publisher : SorobanPublisher) (maxRetries : Nat) {db db₁ : EventsDb} {partitionId : String}
    {calls : List IngestCall} {results : List IngestEventResult}
    (hUntouched : Untouched db partitionId) (hNonempty : calls ≠ [])
    (hPartition : ∀ call ∈ calls, call.partitionId = partitionId)
    (hIngest : (ingestEvents sha256 canonicalData calls).run db = (.ok results, db₁)) :
    let db₂ := ((closePartition publisher partitionId maxRetries).run db₁).2
    (db₂.partitionEvents partitionId).map Event.leafHash = calls.map (fun call =>
      call.input.leafHash sha256 canonicalData) ∧
    ∃ row, db₂.partitions.find? partitionId = some row ∧ ∀ event ∈ db₂.partitionEvents partitionId,
      ∃ proof, (getEventInclusionProof event.id).run db₂ = (.ok (some proof), db₂) ∧
        verifyInclusionProof sha256
          { leafHash := event.leafHash
            siblings := proof.siblings } row.root = true := by
  intro db₂
  have hConsistent := run_ingestEvents hPartition (hUntouched.consistent sha256) hIngest
  rw [List.nil_append] at hConsistent
  have hSealed : Sealed sha256 partitionId _ db₂ :=
    run_closePartition publisher maxRetries hConsistent (by simpa using hNonempty)
  rcases hSealed.closed with ⟨row, hRow, -⟩
  refine ⟨hSealed.consistent.hashes, row, hRow, ?_⟩
  intro event hEvent
  refine ⟨_, run_getEventInclusionProof hSealed hRow hEvent, ?_⟩
  rw [(hSealed.consistent.stored row hRow).1]
  apply verify_authPath
  · intro h hMem
    rcases List.mem_map.mp hMem with ⟨call, -, rfl⟩
    exact isDigest_computeEventLeafHash sha256 canonicalData _
  · exact hSealed.consistent.leaf_of_event hEvent

/- Two calls into one partition. -/
def sampleCalls : List IngestCall :=
  [{ input := {
        network := "testnet"
        contractId := "C"
        ledger := 7
        txHash := "aa"
        eventIndex := 0
        topic := "buy"
        dataJson := "1" }
     partitionLedgerRange := DEFAULT_PARTITION_LEDGER_RANGE
     cuid := "e1" },
   { input := {
        network := "testnet"
        contractId := "C"
        ledger := 8
        txHash := "bb"
        eventIndex := 0
        topic := "sell"
        dataJson := "2" }
     partitionLedgerRange := DEFAULT_PARTITION_LEDGER_RANGE
     cuid := "e2" }]

/- The sample calls, with the identity for a hash function. -/
theorem inclusionProofs_complete_sample :
    let db₁ := ((ingestEvents id id sampleCalls).run .empty).2
    let db₂ :=
      ((closePartition (fun _ _ => .ok "tx") "testnet:C:0-999" 3).run db₁).2
    (db₂.partitionEvents "testnet:C:0-999").map
      Event.leafHash =
      sampleCalls.map (fun call => call.input.leafHash id id) ∧
    ∃ row,
      db₂.partitions.find? "testnet:C:0-999" = some row ∧
      ∀ event ∈ db₂.partitionEvents "testnet:C:0-999",
        ∃ proof,
          (getEventInclusionProof event.id).run db₂ =
            (.ok (some proof), db₂) ∧
          verifyInclusionProof id
            { leafHash := event.leafHash
              siblings := proof.siblings } row.root = true := by
  have hOk : ((ingestEvents id id sampleCalls).run .empty).1.toOption.isSome = true := by decide
  cases hRun :
    (ingestEvents id id sampleCalls).run .empty with
  | mk outcome db₁ =>
    cases outcome with
    | error e => simp [hRun, Except.toOption] at hOk
    | ok results =>
      exact inclusionProofs_complete id id (fun _ _ => .ok "tx")
        3 (untouched_empty "testnet:C:0-999")
        (by simp [sampleCalls]) (by decide) hRun

end Events

end AccessLayer
