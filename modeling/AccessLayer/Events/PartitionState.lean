import AccessLayer.Events.IncrementalTree
import Mathlib

/-
  What one call of the service does to a partition.

  A partition is `Consistent` when its events, its stored nodes,
  its row and the roots already handed over agree on one list of
  leaves.  Ingesting an event appends a leaf; closing seals the
  partition.

  Main declarations: `run_ingestEvent`, `run_closePartition`
-/

-- Consistent Partitions
----

namespace AccessLayer

namespace Events

open Transactional Transactional.Program Merkle

section

/- The events of a partition, in the order of their creation. -/
def EventsDb.partitionEvents (db : EventsDb) (partitionId : String) : List Event :=
  db.events.rows.filter (fun e => e.partitionId = partitionId)

def EventsDb.leaves (db : EventsDb) (partitionId : String) : List String :=
  ((db.partitionEvents partitionId).insertionSort
    (fun a b => a.leafIndex ≤ b.leafIndex)).map Event.leafHash

/- The tables agree on the leaves of a partition. -/
structure Consistent (sha256 : Bytes → Bytes) (db : EventsDb) (partitionId : String)
    (leaves : List String) : Prop where
  hashes : (db.partitionEvents partitionId).map Event.leafHash = leaves
  indices : (db.partitionEvents partitionId).map Event.leafIndex = List.range leaves.length
  tree : StoresTree sha256 db partitionId leaves
  absent : db.partitions.find? partitionId = none → leaves = []
  stored :
    ∀ row, db.partitions.find? partitionId = some row → row.root = referenceRoot sha256 leaves ∧
      row.eventCount = leaves.length
  submitted :
    ∀ s ∈ db.submitted, s.partitionId = partitionId → (s.params.root = referenceRoot sha256 leaves ∧
      s.params.eventCount = leaves.length) ∧ ∃ row, db.partitions.find? partitionId = some row ∧
      row.status ≠ .opened

variable {sha256 : Bytes → Bytes} {db : EventsDb} {partitionId : String} {leaves : List String}

/- Sorting by leaf index keeps the order of creation. -/
theorem Consistent.leaves_eq (h : Consistent sha256 db partitionId leaves) :
    db.leaves partitionId = leaves := by
  have hSorted : (db.partitionEvents partitionId).Pairwise
      (fun a b => a.leafIndex ≤ b.leafIndex) := by
    rw [← List.pairwise_map (f := Event.leafIndex) (R := fun a b => a ≤ b), h.indices]
    exact List.pairwise_le_range
  rw [EventsDb.leaves, hSorted.insertionSort_eq, h.hashes]

theorem Consistent.length_events (h : Consistent sha256 db partitionId leaves) :
    (db.partitionEvents partitionId).length = leaves.length := by
  rw [← h.hashes, List.length_map]

/- A database that knows nothing of the partition. -/
structure Untouched (db : EventsDb) (partitionId : String) : Prop where
  events : ∀ e ∈ db.events.rows, e.partitionId ≠ partitionId
  nodes : ∀ node ∈ db.nodes.rows, node.partitionId ≠ partitionId
  partitions : db.partitions.find? partitionId = none
  submitted : ∀ s ∈ db.submitted, s.partitionId ≠ partitionId

theorem Untouched.consistent (sha256 : Bytes → Bytes) (h : Untouched db partitionId) :
    Consistent sha256 db partitionId [] := by
  have hNone : db.partitionEvents partitionId = [] := by
    rw [EventsDb.partitionEvents, List.filter_eq_nil_iff]
    intro e he
    simpa using h.events e he
  exact {
    hashes := by rw [hNone]; rfl
    indices := by rw [hNone]; rfl
    tree := storesTree_nil sha256 h.nodes
    absent := fun _ => rfl
    stored := by
      intro row hRow
      rw [h.partitions] at hRow
      cases hRow
    submitted := by
      intro s hs hPartition
      exact absurd hPartition (h.submitted s hs) }

theorem untouched_empty (partitionId : String) : Untouched .empty partitionId where
  events := by intro e he; cases he
  nodes := by intro node hNode; cases hNode
  partitions := rfl
  submitted := by intro s hs; cases hs

end

-- Ingesting
----

variable {sha256 : Bytes → Bytes} {canonicalData : String → String} {db : EventsDb}
variable {leaves : List String} {input : IngestEventInput} {range : Nat} {cuid : String}

/- An event with one of these keys is stored. -/
def Taken (db : EventsDb) (id txHash : String) (eventIndex : Nat) : Prop :=
  ∃ e ∈ db.events.rows, e.id = id ∨ e.txHash = txHash ∧ e.eventIndex = eventIndex

theorem run_createEvent {row : Event} {n : Nat}
    (hIndices : (db.partitionEvents row.partitionId).map Event.leafIndex = List.range n)
    (hNext : row.leafIndex = n) :
    ((createEvent row).run db = (.error .uniqueConstraint, db) ∧
      Taken db row.id row.txHash row.eventIndex) ∨ ∃ db',
      (createEvent row).run db = (.ok row, db') ∧ db'.events.rows = db.events.rows ++ [row] ∧
      db'.nodes = db.nodes ∧ db'.partitions = db.partitions ∧
      db'.submitted = db.submitted := by
  rw [createEvent, run_execute]
  by_cases hUsed :
    db.events.rows.any (fun e => e.txHash = row.txHash ∧ e.eventIndex = row.eventIndex ∨
      e.partitionId = row.partitionId ∧ e.leafIndex = row.leafIndex) = true
  · left
    rw [if_pos hUsed]
    refine ⟨rfl, ?_⟩
    rcases List.any_eq_true.mp hUsed with ⟨e, he, hKey⟩
    rcases of_decide_eq_true hKey with hEvent | hLeaf
    · exact ⟨e, he, Or.inr hEvent⟩
    · have hMem : e.leafIndex ∈ (db.partitionEvents row.partitionId).map
          Event.leafIndex := by
        apply List.mem_map_of_mem
        simp [EventsDb.partitionEvents, he, hLeaf.1]
      rw [hIndices, hLeaf.2, hNext] at hMem
      simp at hMem
  · rw [if_neg hUsed]
    cases hInsert : db.events.insert? row with
    | none =>
      left
      refine ⟨rfl, ?_⟩
      rw [Table.insert?] at hInsert
      split at hInsert
      · cases hInsert
      · rename_i hFound
        rcases Option.ne_none_iff_exists'.mp hFound with ⟨e, he⟩
        exact ⟨e, Table.mem_of_find? he, Or.inl (Table.key_of_find? he)⟩
    | some events =>
      right
      exact ⟨_, rfl, (Table.insert?_eq_some hInsert).2, rfl, rfl, rfl⟩

theorem run_ensurePartition (sha256 : Bytes → Bytes) (canonicalData : String → String)
    (db : EventsDb) (input : IngestEventInput) (range : Nat) :
    (∃ e, (ensurePartition sha256 canonicalData input range).run db = (.error e, db)) ∨ ∃ row db',
      (ensurePartition sha256 canonicalData input range).run db = (.ok row, db') ∧
      db'.partitions.find? (input.partitionId range) = some row ∧ row.status = .opened ∧
      (db.partitions.find? (input.partitionId range) = none ∨ db' = db) ∧
      db'.events = db.events ∧ db'.nodes = db.nodes ∧
      db'.submitted = db.submitted := by
  rw [ensurePartition]
  simp only [findPartition, run_bind, run_query]
  cases hFound : db.partitions.find? (input.partitionId range) with
  | some row =>
    by_cases hOpen : row.status = .opened
    · right
      refine ⟨row, db, ?_, hFound, hOpen, Or.inr rfl, rfl, rfl, rfl⟩
      simp [hOpen]
    · left
      exact ⟨_, by simp [hOpen]; rfl⟩
  | none =>
    right
    let row := input.newPartition sha256 canonicalData range
    have hFresh : db.partitions.find? (key row) = none := hFound
    refine ⟨row, _, run_createPartition hFresh, ?_, rfl, Or.inl rfl, rfl, rfl, rfl⟩
    change Table.find? (db.partitions.create row hFresh) (key row) = some row
    rw [Table.find?_create, if_pos rfl]

theorem storesTree_of_nodes {db' : EventsDb} {partitionId : String}
    (hNodes : db'.nodes = db.nodes) (hStored : StoresTree sha256 db partitionId leaves) :
    StoresTree sha256 db' partitionId leaves := by
  intro l p
  rw [← hStored l p, EventsDb.nodeHash, hNodes]
  rfl

variable {row : MerklePartitionRoot}

/- The row update that ends an ingestion restores agreement. -/
theorem consistent_append {db₀ db₁ : EventsDb} {event : Event} {partitionId : String}
    (hConsistent : Consistent sha256 db₀ partitionId leaves)
    (hEvent : event.partitionId = partitionId ∧ event.leafIndex = leaves.length)
    (hRows : db₁.events.rows = db₀.events.rows ++ [event])
    (hSubmitted : db₁.submitted = db₀.submitted)
    (hTree : StoresTree sha256 db₁ partitionId (leaves ++ [event.leafHash]))
    (hRow : db₁.partitions.find? partitionId = some row)
    (hOpen : ∀ row₀, db₀.partitions.find? partitionId = some row₀ → row₀.status = .opened) :
    Consistent sha256 (db₁.putPartition partitionId (MerklePartitionRoot.withRoot
      (referenceRoot sha256 (leaves ++ [event.leafHash])) (leaves.length + 1))
      (MerklePartitionRoot.key_withRoot _ _)) partitionId (leaves ++ [event.leafHash]) := by
  have hEvents : db₁.partitionEvents partitionId = db₀.partitionEvents partitionId ++ [event] := by
    rw [EventsDb.partitionEvents, hRows, List.filter_append]
    simp [EventsDb.partitionEvents, hEvent.1]
  exact {
    hashes := by
      change (db₁.partitionEvents partitionId).map _ = _
      rw [hEvents, List.map_append, hConsistent.hashes]
      rfl
    indices := by
      change (db₁.partitionEvents partitionId).map _ = _
      rw [hEvents, List.map_append, hConsistent.indices, List.length_append, List.length_singleton,
        List.range_succ]
      simp [hEvent.2]
    tree := hTree
    absent := by
      intro hNone
      rw [find?_putPartition hRow] at hNone
      cases hNone
    stored := by
      intro row' hRow'
      rw [find?_putPartition hRow] at hRow'
      cases hRow'
      simp [MerklePartitionRoot.withRoot]
    submitted := by
      intro s hs hPartition
      have hOld : s ∈ db₀.submitted := by
        rw [← hSubmitted]
        exact hs
      rcases (hConsistent.submitted s hOld hPartition).2 with ⟨row₀, hRow₀, hClosed⟩
      exact absurd (hOpen row₀ hRow₀) hClosed }

/-
  A call that succeeds appends a leaf.  One that fails changes
  nothing, unless it created the partition for an event that is
  stored already.
-/
theorem run_ingestEvent (canonicalData : String → String) (cuid : String)
    (hConsistent : Consistent sha256 db (input.partitionId range) leaves) :
    let call := ingestEvent sha256 canonicalData input range cuid
    (∃ e, call.run db = (.error e, db)) ∨
    (∃ e db', call.run db = (.error e, db') ∧ db.partitions.find? (input.partitionId range) = none ∧
      Taken db cuid input.txHash input.eventIndex) ∨
    ∃ result db', call.run db = (.ok result, db') ∧ db'.events.rows = db.events.rows ++
      [input.toEvent sha256 canonicalData range leaves.length cuid] ∧
      Consistent sha256 db' (input.partitionId range) (leaves ++
        [input.leafHash sha256 canonicalData]) := by
  intro call
  have hCount : db.events.rows.countP (fun e => e.partitionId = input.partitionId range) =
      leaves.length := by
    rw [List.countP_eq_length_filter]
    exact hConsistent.length_events
  let event := input.toEvent sha256 canonicalData range leaves.length cuid
  rcases run_ensurePartition sha256 canonicalData db input range with ⟨e, hEnsure⟩ |
    ⟨row, db₁, hEnsure, hRow, hOpen, hOrigin, hEvents, hNodes, hSubmitted⟩
  · left
    refine ⟨e, ?_⟩
    simp only [call, ingestEvent, countEvents, run_bind, run_query, hEnsure]
  · have hIndices : (db₁.partitionEvents event.partitionId).map
        Event.leafIndex = List.range leaves.length := by
      rw [EventsDb.partitionEvents, hEvents]
      exact hConsistent.indices
    rcases run_createEvent hIndices rfl with ⟨hCreate, hTaken⟩ |
      ⟨db₂, hCreate, hRows, hNodes₂, hPartitions, hSubmitted₂⟩
    · have hRun : call.run db = (.error .uniqueConstraint, db₁) := by
        simp only [call, ingestEvent, countEvents, run_bind, run_query, hEnsure, hCount]
        rw [hCreate]
      rcases hOrigin with hNone | rfl
      · right
        left
        refine ⟨_, db₁, hRun, hNone, ?_⟩
        rw [Taken, ← hEvents]
        exact hTaken
      · left
        exact ⟨_, hRun⟩
    · right
      right
      rw [hEvents] at hRows
      have hOpen₀ : ∀ row₀, db.partitions.find? (input.partitionId range) = some row₀ →
          row₀.status = .opened := by
        intro row₀ hRow₀
        rcases hOrigin with hNone | rfl
        · rw [hNone] at hRow₀
          cases hRow₀
        · rw [hRow] at hRow₀
          cases hRow₀
          exact hOpen
      rcases run_extendTreeIncremental (storesTree_of_nodes (hNodes₂.trans hNodes)
        hConsistent.tree) event.leafHash with ⟨db₃, hExtend, hTree, hOutside⟩
      have hRow₃ : db₃.partitions.find? (input.partitionId range) =
          some row := by
        rw [hOutside.partitions, hPartitions, hRow]
      have hNext := consistent_append hConsistent
          (⟨rfl, rfl⟩ : event.partitionId = _ ∧ _) (by rw [hOutside.events, hRows])
          (by rw [hOutside.submitted, hSubmitted₂, hSubmitted]) hTree hRow₃ hOpen₀
      refine ⟨?_, _, ?_, ?_, hNext⟩
      rotate_left
      · simp only [call, ingestEvent, countEvents, run_bind, run_query, hEnsure, hCount]
        rw [hCreate]
        have hExtend' : (extendTreeIncremental sha256 (input.partitionId range) leaves.length
            (input.leafHash sha256 canonicalData)).run db₂ =
              _ := hExtend
        simp only [hExtend', run_updatePartition hRow₃, run_pure]
        rfl
      · change db₃.events.rows = _
        rw [hOutside.events, hRows]

-- Closing
----

/- A consistent partition that takes no more events. -/
structure Sealed (sha256 : Bytes → Bytes) (partitionId : String) (leaves : List String)
    (db : EventsDb) : Prop where
  consistent : Consistent sha256 db partitionId leaves
  closed : ∃ row, db.partitions.find? partitionId = some row ∧ row.status ≠ .opened

variable {sha256 : Bytes → Bytes} {publisher : SorobanPublisher} {db : EventsDb}
variable {partitionId : String} {leaves : List String}
variable {f : MerklePartitionRoot → MerklePartitionRoot} {hKey : ∀ row, key (f row) = key row}

theorem sealed_putPartition (hConsistent : Consistent sha256 db partitionId leaves)
    (hRow : db.partitions.find? partitionId = some row)
    (hRoot : (f row).root = row.root ∧ (f row).eventCount = row.eventCount)
    (hClosed : (f row).status ≠ .opened) :
    Sealed sha256 partitionId leaves (db.putPartition partitionId f hKey) where
  consistent := {
    hashes := hConsistent.hashes
    indices := hConsistent.indices
    tree := hConsistent.tree
    absent := by
      intro hNone
      rw [find?_putPartition hRow] at hNone
      cases hNone
    stored := by
      intro row' hRow'
      rw [find?_putPartition hRow] at hRow'
      cases hRow'
      rw [hRoot.1, hRoot.2]
      exact hConsistent.stored row hRow
    submitted := by
      intro s hs hPartition
      exact ⟨(hConsistent.submitted s hs hPartition).1, f row, find?_putPartition hRow, hClosed⟩ }
  closed := ⟨f row, find?_putPartition hRow, hClosed⟩

theorem updatePartition_keeps
    (hf : ∀ row, ((f row).root = row.root ∧ (f row).eventCount = row.eventCount) ∧
      (f row).status ≠ .opened) :
    (updatePartition partitionId f hKey).Keeps (Sealed sha256 partitionId leaves) := by
  apply keeps_execute
  intro db row' db' hSealed hUpdate
  split at hUpdate
  · rename_i row hRow
    cases hUpdate
    exact sealed_putPartition hSealed.consistent hRow (hf row).1 (hf row).2
  · cases hUpdate

variable {params : PublishRootParams}

/- Handing over the partition's own root. -/
theorem activeSorobanPublisher_keeps
    (hParams : params.root = referenceRoot sha256 leaves ∧ params.eventCount = leaves.length) :
    (activeSorobanPublisher publisher partitionId params).Keeps
      (Sealed sha256 partitionId leaves) := by
  refine ⟨?_, ?_, trivial⟩
  · intro db hSealed
    exact {
      consistent := { hSealed.consistent with
        submitted := by
          intro s hs hPartition
          rcases List.mem_append.mp hs with hOld | hNew
          · exact hSealed.consistent.submitted s hOld hPartition
          · rw [List.mem_singleton] at hNew
            subst hNew
            exact ⟨hParams, hSealed.closed⟩ }
      closed := hSealed.closed }
  · intro db _
    dsimp only
    split <;> trivial

theorem publishRootWithRetry_keeps
    (hParams : params.root = referenceRoot sha256 leaves ∧ params.eventCount = leaves.length)
    (maxRetries : Nat) :
    (publishRootWithRetry publisher partitionId params
      maxRetries).Keeps (Sealed sha256 partitionId leaves) := by
  rw [publishRootWithRetry]
  generalize (none : Option EventsError) = lastError
  generalize (0 : Nat) = attempt
  generalize maxRetries + 1 = remaining
  induction remaining generalizing attempt lastError with
  | zero =>
    rw [publishAttempts]
    refine keeps_bind (updatePartition_keeps ?_) ?_
    · exact fun row => ⟨⟨rfl, rfl⟩, by simp⟩
    · exact fun _ => keeps_pure _
  | succ remaining ih =>
    rw [publishAttempts]
    refine keeps_tryCatch ?_ (fun err => ih _ _)
    rw [publishRootOnce]
    refine keeps_bind (activeSorobanPublisher_keeps hParams) (fun txHash => ?_)
    refine keeps_bind (updatePartition_keeps ?_) ?_
    · exact fun row => ⟨⟨rfl, rfl⟩, by simp⟩
    · exact fun _ => keeps_pure _

theorem partitionId_closed (row : MerklePartitionRoot) :
    key { row with status := .closed } = key row := rfl

/- What is left of a close once it has read the row. -/
def closeAfterRead (publisher : SorobanPublisher) (partitionId : String) (maxRetries : Nat) :
    Option MerklePartitionRoot → EventsM (Option MerklePartitionRoot)
  | none => throw (.partitionNotFound partitionId)
  | some partition =>
    if partition.status = .published then
      return some partition
    else do
      let _ ← updatePartition partitionId (fun row => { row with status := .closed })
        partitionId_closed
      let _ ← publishRootWithRetry publisher partitionId partition.publishParams maxRetries
      findPartition partitionId

theorem closePartition_eq (maxRetries : Nat) :
    closePartition publisher partitionId maxRetries = findPartition partitionId >>=
      closeAfterRead publisher partitionId maxRetries := by
  rw [closePartition]
  congr 1

/-
  The statement that closes the row seals the partition, and
  every later statement keeps it sealed.
-/
theorem closeAfterRead_seals (hRow :
    row.root = referenceRoot sha256 leaves ∧ row.eventCount = leaves.length) (maxRetries : Nat) :
    (closeAfterRead publisher partitionId maxRetries (some row)).Establishes (fun db =>
      Consistent sha256 db partitionId leaves ∧ (db.partitions.find? partitionId).isSome)
      (Sealed sha256 partitionId leaves) := by
  rw [closeAfterRead]
  split
  · trivial
  · apply establishes_execute_bind
    · rintro db ⟨hConsistent, hSome⟩
      rcases Option.isSome_iff_exists.mp hSome with ⟨row', hRow'⟩
      simp only [hRow']
      exact ⟨_, _, rfl, sealed_putPartition hConsistent hRow' ⟨rfl, rfl⟩ (by simp)⟩
    · intro row'
      exact keeps_bind (publishRootWithRetry_keeps hRow maxRetries) (fun _ => keeps_query _ _)

theorem run_closePartition (publisher : SorobanPublisher) (maxRetries : Nat)
    (hConsistent : Consistent sha256 db partitionId leaves) (hNonempty : leaves ≠ []) :
    Sealed sha256 partitionId leaves ((closePartition publisher partitionId
      maxRetries).run db).2 := by
  have hRun : (closePartition publisher partitionId maxRetries).run db =
      (closeAfterRead publisher partitionId maxRetries
        (db.partitions.find? partitionId)).run db := by
    rw [closePartition_eq, run_bind, findPartition, run_query]
  rw [hRun]
  cases hRow : db.partitions.find? partitionId with
  | none => exact absurd (hConsistent.absent hRow) hNonempty
  | some row =>
    by_cases hPublished : row.status = .published
    · rw [closeAfterRead, if_pos hPublished]
      exact ⟨hConsistent, row, hRow, by rw [hPublished]; simp⟩
    · apply establishes_run (closeAfterRead_seals (hConsistent.stored row hRow) maxRetries)
      · rw [closeAfterRead, if_neg hPublished]
        rfl
      · exact ⟨hConsistent, by rw [hRow]; rfl⟩

end Events

end AccessLayer
