import AccessLayer.Events.InclusionProof
import AccessLayer.Library.Runs

/-
  Partitions under interleaved and crashing calls.

  Nothing serialises the statements of `ingestEvent`, so two
  interleaved calls can leave a root that does not cover the
  stored events.  When an ingestion runs alone, and does not
  crash between its writes, every closed partition is sound.

  Main result: `sound_of_disciplined`
-/

-- Calls on a Partition
----

namespace AccessLayer

namespace Events

open Transactional Transactional.Program Merkle

section

inductive Operation where
  | ingest (call : IngestCall)
  | close (maxRetries : Nat)

/- The operation concerns the given partition. -/
def Operation.On (partitionId : String) : Operation → Prop
  | .ingest call => call.partitionId = partitionId
  | .close _ => True

variable (sha256 : Bytes → Bytes) (canonicalData : String → String) (publisher : SorobanPublisher)

/- The call of an operation, without its result. -/
def Operation.program (partitionId : String) : Operation → EventsM Unit
  | .ingest call =>
    (fun _ => ()) <$> ingestEvent sha256 canonicalData call.input
      call.partitionLedgerRange call.cuid
  | .close maxRetries => (fun _ => ()) <$> closePartition publisher partitionId maxRetries

/- A closed partition attests exactly its stored events. -/
def Sound (partitionId : String) (db : EventsDb) : Prop :=
  ∀ row, db.partitions.find? partitionId = some row → row.status ≠ .opened →
    row.root = referenceRoot sha256 (db.leaves partitionId) ∧
    row.eventCount = (db.leaves partitionId).length ∧
    ∀ s ∈ db.submitted, s.partitionId = partitionId → s.params.root = row.root

/- The pool of the operations, none of them begun. -/
def partitionPool (partitionId : String) (operations : List Operation)
    (db : EventsDb) : Pool EventsDb EventsError Unit :=
  .start db (operations.map (Operation.program sha256 canonicalData publisher partitionId))

variable {sha256 : Bytes → Bytes}

theorem Consistent.sound {db : EventsDb} {partitionId : String} {leaves : List String}
    (h : Consistent sha256 db partitionId leaves) :
    Sound sha256 partitionId db := by
  intro row hRow hClosed
  rw [h.leaves_eq]
  rcases h.stored row hRow with ⟨hRoot, hCount⟩
  refine ⟨hRoot, hCount, ?_⟩
  intro s hs hPartition
  rw [hRoot]
  exact (h.submitted s hs hPartition).1.1

end

-- The Discipline
----

section

/-
  The condition on a move.  The first statement of an ingestion
  runs while no call is in flight, and brings a new event if the
  partition has no row.  The first statement of a close runs
  while no ingestion is in flight.  An ingestion crashes before
  its first write, which is its third statement, or not at all.
-/
def Disciplined (partitionId : String) (operations : List Operation)
    (pool : Pool EventsDb EventsError Unit) : Move → Prop
  | .execute i =>
    ∀ call, pool.calls[i]? = some call → call.executed = 0 →
      (∀ c, operations[i]? = some (.ingest c) → (∀ (j : Nat) other, pool.calls[j]? = some other →
        other.inFlight = false) ∧ (pool.store.partitions.find? partitionId = none →
        ¬Taken pool.store c.cuid c.input.txHash c.input.eventIndex)) ∧
      (∀ r, operations[i]? = some (.close r) → ∀ (j : Nat) other c, pool.calls[j]? = some other →
        operations[j]? = some (.ingest c) → other.inFlight = false)
  | .crash i =>
    ∀ call c, pool.calls[i]? = some call → operations[i]? = some (.ingest c) → call.executed ≤ 2

-- One Ingestion in Flight
----

variable {sha256 : Bytes → Bytes} {canonicalData : String → String} {publisher : SorobanPublisher}
variable {partitionId : String}

def StillOpen (partitionId : String) (db : EventsDb) : Prop :=
  ∀ row, db.partitions.find? partitionId = some row → row.status = .opened

theorem upsertNode_keeps_open (level position : Nat) (hash : String) :
    (upsertNode partitionId level position hash).Keeps (StillOpen partitionId) := by
  apply keeps_execute
  intro db a db' hOpen hUpdate
  cases hUpdate
  exact hOpen

theorem extendTree_keeps_open (leafIndex : Nat) (leafHash : String) :
    (extendTreeIncremental sha256 partitionId leafIndex
      leafHash).Keeps (StillOpen partitionId) := by
  rw [extendTreeIncremental]
  refine keeps_bind (upsertNode_keeps_open _ _ _) (fun _ => ?_)
  generalize maxLevel (leafIndex + 1) = remaining
  generalize (0 : Nat) = currLevel
  generalize leafIndex = currPos
  generalize leafHash = currHash
  induction remaining generalizing currLevel currPos currHash with
  | zero => exact keeps_pure _
  | succ remaining ih =>
    rw [climbTree]
    split
    · refine keeps_bind (keeps_query _ _) (fun _ => ?_)
      exact keeps_bind (upsertNode_keeps_open _ _ _) (fun _ => ih _ _ _)
    · exact keeps_bind (upsertNode_keeps_open _ _ _) (fun _ => ih _ _ _)

theorem ingestEvent_keeps_open (call : IngestCall) :
    (ingestEvent sha256 canonicalData call.input call.partitionLedgerRange call.cuid).Keeps
      (StillOpen call.partitionId) := by
  rw [ingestEvent]
  refine keeps_bind (keeps_query _ _) (fun leafIndex => ?_)
  refine keeps_bind ?_ (fun _ => ?_)
  · rw [ensurePartition]
    refine keeps_bind (keeps_query _ _) ?_
    intro row
    cases row with
    | some row =>
      dsimp only
      split
      · exact keeps_throw _
      · exact keeps_pure _
    | none =>
      apply keeps_execute
      intro db row db' hOpen hCreate
      split at hCreate
      · rename_i partitions hInsert
        cases hCreate
        intro row hRow
        rw [Table.find?_insert? hInsert] at hRow
        split at hRow
        · cases hRow
          rfl
        · exact hOpen row hRow
      · cases hCreate
  · refine keeps_bind ?_ (fun event => ?_)
    · apply keeps_execute
      intro db event db' hOpen hCreate
      split at hCreate
      · cases hCreate
      · split at hCreate
        · cases hCreate
          exact hOpen
        · cases hCreate
    · refine keeps_bind (extendTree_keeps_open _ _) (fun newRoot => ?_)
      refine keeps_bind ?_ (fun _ => keeps_pure _)
      apply keeps_execute
      intro db row db' hOpen hUpdate
      split at hUpdate
      · rename_i row₀ hRow₀
        cases hUpdate
        intro row hRow
        rw [IngestCall.partitionId, find?_putPartition hRow₀] at hRow
        cases hRow
        exact hOpen row₀ hRow₀
      · cases hUpdate

variable {db : EventsDb}

theorem ingestEvent_keeps_closed (call : IngestCall) {row : MerklePartitionRoot}
    (hRow : db.partitions.find? call.partitionId = some row) (hClosed : row.status ≠ .opened) :
    (ingestEvent sha256 canonicalData call.input call.partitionLedgerRange call.cuid).Keeps
      (fun db' => db' = db) := by
  rw [ingestEvent]
  refine keeps_bind (keeps_query _ _) (fun leafIndex => ?_)
  rw [ensurePartition]
  apply keeps_query_bind_bind
  rintro db' rfl
  have hFound :
      db'.partitions.find? (call.input.partitionId call.partitionLedgerRange) = some row := hRow
  simp only [hFound]
  rw [if_pos hClosed]
  trivial

/- Whatever an ingestion has done so far, a closed partition is sound. -/
theorem ingestEvent_keeps_sound (call : IngestCall) {leaves : List String}
    (hConsistent : Consistent sha256 db call.partitionId leaves) :
    ∃ I : EventsDb → Prop, I db ∧ (∀ s, I s → Sound sha256 call.partitionId s) ∧
      ((Operation.ingest call).program sha256 canonicalData
        publisher call.partitionId).Keeps I := by
  by_cases hOpen : StillOpen call.partitionId db
  · refine ⟨_, hOpen, ?_, keeps_bind (ingestEvent_keeps_open call) (fun _ => keeps_pure _)⟩
    intro s hs row hRow hClosed
    exact absurd (hs row hRow) hClosed
  · have hClosed : ∃ row, db.partitions.find? call.partitionId = some row ∧
        row.status ≠ .opened := by
      simpa [StillOpen] using hOpen
    rcases hClosed with ⟨row, hRow, hClosed⟩
    refine ⟨fun s => s = db, rfl, ?_, keeps_bind (ingestEvent_keeps_closed call hRow hClosed)
      (fun _ => keeps_pure _)⟩
    rintro s rfl
    exact hConsistent.sound

-- The Invariant of the Pool
----

section

variable (sha256 : Bytes → Bytes) (canonicalData : String → String) (publisher : SorobanPublisher)
variable (partitionId : String)

/- What the next statement of a close may rely on. -/
def Closable (leaves : List String) (db : EventsDb) : Prop :=
  Consistent sha256 db partitionId leaves ∧ (db.partitions.find? partitionId).isSome

/- A close that is about to seal the partition or has done so. -/
def Closing (leaves : List String) (db : EventsDb) (program : EventsM Unit) : Prop :=
  (Closable sha256 partitionId leaves db ∧ program.Establishes (Closable sha256 partitionId leaves)
    (Sealed sha256 partitionId leaves)) ∨ (Sealed sha256 partitionId leaves db ∧
    program.Keeps (Sealed sha256 partitionId leaves))

/- A call that has not begun stands at its first statement. -/
def Unbegun (operation : Operation) (call : Call EventsDb EventsError Unit) : Prop :=
  call.executed = 0 → call.program = operation.program sha256 canonicalData publisher partitionId

/- No ingestion is in flight. -/
structure Quiet (operations : List Operation) (leaves : List String)
    (pool : Pool EventsDb EventsError Unit) : Prop where
  consistent : Consistent sha256 pool.store partitionId leaves
  calls : ∀ (j : Nat) call operation, pool.calls[j]? = some call → operations[j]? = some operation →
    Unbegun sha256 canonicalData publisher partitionId operation call ∧ (call.inFlight = true →
      (∃ r, operation = .close r) ∧ Closing sha256 partitionId leaves pool.store call.program)

/- What is known of the one ingestion that has begun. -/
structure Ingesting (call : IngestCall) (db : EventsDb) (executed : Nat)
    (program : EventsM Unit) : Prop where
  on : call.partitionId = partitionId
  origin : ∃ db₀ leaves, Consistent sha256 db₀ partitionId leaves ∧
    (db₀.partitions.find? partitionId = none → ¬Taken db₀ call.cuid call.input.txHash
      call.input.eventIndex) ∧ (program.run db).2 =
      (((Operation.ingest call).program sha256 canonicalData publisher partitionId).run db₀).2 ∧
    program.ReadsFor (2 - executed) ∧ (executed ≤ 2 → db = db₀)
  sound : ∃ I : EventsDb → Prop, I db ∧ (∀ s, I s → Sound sha256 partitionId s) ∧ program.Keeps I

/- One ingestion is in flight, and no other call. -/
structure Busy (operations : List Operation) (i : Nat)
    (pool : Pool EventsDb EventsError Unit) : Prop where
  ingesting : ∃ ingest call, operations[i]? = some (.ingest ingest) ∧ pool.calls[i]? = some call ∧
    call.inFlight = true ∧ Ingesting sha256 canonicalData publisher partitionId
      ingest pool.store call.executed call.program
  others : ∀ (j : Nat) call operation, j ≠ i → pool.calls[j]? = some call →
    operations[j]? = some operation → Unbegun sha256 canonicalData publisher partitionId
      operation call ∧ call.inFlight = false

/- The invariant of disciplined runs. -/
def PoolInvariant (operations : List Operation) (pool : Pool EventsDb EventsError Unit) : Prop :=
  pool.calls.length = operations.length ∧ ((∃ leaves,
    Quiet sha256 canonicalData publisher partitionId operations leaves pool) ∨ ∃ i,
    Busy sha256 canonicalData publisher partitionId operations i pool)

end

variable {sha256 : Bytes → Bytes} {canonicalData : String → String} {publisher : SorobanPublisher}
variable {partitionId : String} {operations : List Operation}
variable {pool : Pool EventsDb EventsError Unit}

theorem PoolInvariant.sound
    (h : PoolInvariant sha256 canonicalData publisher partitionId operations pool) :
    Sound sha256 partitionId pool.store := by
  rcases h.2 with ⟨leaves, hQuiet⟩ | ⟨i, hBusy⟩
  · exact hQuiet.consistent.sound
  · rcases hBusy.ingesting with ⟨ingest, call, -, -, -, hCall⟩
    rcases hCall.sound with ⟨I, hI, hSound, -⟩
    exact hSound _ hI

variable {ingest : IngestCall}

theorem invariant_of_ingesting {i : Nat} {call : Call EventsDb EventsError Unit}
    (hLength : pool.calls.length = operations.length)
    (hOperation : operations[i]? = some (.ingest ingest)) (hCall : pool.calls[i]? = some call)
    (hBegun : 0 < call.executed) (hLive : call.crashed = false)
    (hIngesting : Ingesting sha256 canonicalData publisher partitionId
      ingest pool.store call.executed call.program)
    (hOthers : ∀ (j : Nat) call operation, j ≠ i → pool.calls[j]? = some call →
      operations[j]? = some operation → Unbegun sha256 canonicalData publisher partitionId
        operation call ∧ call.inFlight = false) :
    PoolInvariant sha256 canonicalData publisher partitionId operations pool := by
  refine ⟨hLength, ?_⟩
  by_cases hRunning : call.program.isRunning = true
  · right
    refine ⟨i, ⟨ingest, call, hOperation, hCall, ?_, hIngesting⟩, hOthers⟩
    simp [Call.inFlight, hBegun, hLive, hRunning]
  · left
    rcases hIngesting.origin with ⟨db₀, leaves, hConsistent, hFresh, hRun, -, -⟩
    have hStore : (call.program.run pool.store).2 = pool.store := by
      cases hProgram : call.program with
      | ret a => rfl
      | raise e => rfl
      | stmt update next onFault => simp [hProgram, isRunning] at hRunning
    rw [hStore, Operation.program, run_map] at hRun
    have hQuiet : ∀ leaves, Consistent sha256 pool.store partitionId leaves →
        Quiet sha256 canonicalData publisher partitionId
          operations leaves pool := by
      intro leaves hConsistent
      refine ⟨hConsistent, ?_⟩
      intro j other operation hOther hOp
      by_cases hj : j = i
      · subst hj
        rw [hCall] at hOther
        cases hOther
        constructor
        · intro hZero
          omega
        · intro hFlight
          simp [Call.inFlight, hRunning] at hFlight
      · have hRest := hOthers j other operation hj hOther hOp
        refine ⟨hRest.1, ?_⟩
        intro hFlight
        rw [hRest.2] at hFlight
        cases hFlight
    have hOn := hIngesting.on
    subst hOn
    rcases run_ingestEvent canonicalData ingest.cuid hConsistent with
      ⟨e, hError⟩ | ⟨e, db', hError, hNone, hTaken⟩ | ⟨result, db', hOk, -, hNext⟩
    · simp only [hError] at hRun
      exact ⟨leaves, hQuiet leaves (hRun ▸ hConsistent)⟩
    · exact absurd hTaken (hFresh hNone)
    · simp only [hOk] at hRun
      exact ⟨_, hQuiet _ (hRun ▸ hNext)⟩

theorem Ingesting.advance {executed : Nat} {update : EventsDb → EventsDb}
    {next : EventsDb → EventsM Unit} {onFault : EventsM Unit}
    (h : Ingesting sha256 canonicalData publisher partitionId
      ingest db executed (.stmt update next onFault)) :
    Ingesting sha256 canonicalData publisher partitionId ingest
      (update db) (executed + 1) (next db) where
  on := h.on
  origin := by
    rcases h.origin with ⟨db₀, leaves, hConsistent, hFresh, hRun, hReads, hSame⟩
    refine ⟨db₀, leaves, hConsistent, hFresh, hRun, ?_, ?_⟩
    · by_cases hEarly : executed < 2
      · have hSucc : 2 - executed = 2 - (executed + 1) + 1 := by omega
        rw [hSucc] at hReads
        exact hReads.2 db
      · have hZero : 2 - (executed + 1) = 0 := by omega
        rw [hZero]
        trivial
    · intro hEarly
      have hSucc : 2 - executed = 2 - (executed + 1) + 1 := by omega
      rw [hSucc] at hReads
      rw [hReads.1 db]
      exact hSame (by omega)
  sound := by
    rcases h.sound with ⟨I, hI, hSound, hKeeps⟩
    exact ⟨I, hKeeps.1 db hI, hSound, hKeeps.2.1 db hI⟩

end

-- Steps of the Pool
----

variable {sha256 : Bytes → Bytes} {canonicalData : String → String} {publisher : SorobanPublisher}
variable {partitionId : String} {operations : List Operation}
variable {pool pool' : Pool EventsDb EventsError Unit} {leaves : List String}
variable {call : Call EventsDb EventsError Unit} {update : EventsDb → EventsDb}
variable {next : EventsDb → EventsM Unit} {onFault : EventsM Unit}

theorem inFlight_of_stmt (hProgram : call.program = .stmt update next onFault)
    (hLive : call.crashed = false) (hBegun : call.executed ≠ 0) :
    call.inFlight = true := by
  simp [Call.inFlight, hProgram, hLive, isRunning]
  omega

variable {db : EventsDb}

/- The first statement of an ingestion. -/
theorem begin_ingestion (canonicalData : String → String) (publisher : SorobanPublisher)
    {ingest : IngestCall} (hOn : ingest.partitionId = partitionId)
    (hConsistent : Consistent sha256 db partitionId leaves)
    (hFresh : db.partitions.find? partitionId = none → ¬Taken db ingest.cuid ingest.input.txHash
      ingest.input.eventIndex) :
    Ingesting sha256 canonicalData publisher partitionId ingest db 0
      ((Operation.ingest ingest).program sha256 canonicalData publisher partitionId) := by
  subst hOn
  exact {
    on := rfl
    origin :=
      ⟨db, leaves, hConsistent, hFresh, rfl, ⟨fun _ => rfl, fun _ => ⟨fun _ => rfl,
        fun _ => trivial⟩⟩, fun _ => rfl⟩
    sound := ingestEvent_keeps_sound ingest hConsistent }

/- A close in flight is not disturbed by another one. -/
theorem Closing.mono {db' : EventsDb} {program : EventsM Unit}
    (h : Closing sha256 partitionId leaves db program)
    (hStore : db' = db ∨ Sealed sha256 partitionId leaves db') :
    Closing sha256 partitionId leaves db' program := by
  rcases hStore with rfl | hSealed
  · exact h
  · rcases h with ⟨-, hEstablishes⟩ | ⟨-, hKeeps⟩
    · left
      rcases hSealed.closed with ⟨row, hRow, -⟩
      exact ⟨⟨hSealed.consistent, by rw [hRow]; rfl⟩, hEstablishes⟩
    · right
      exact ⟨hSealed, hKeeps⟩

theorem closing_of_read (hConsistent : Consistent sha256 db partitionId leaves) (maxRetries : Nat)
    (hRunning : ((fun _ => ()) <$> closeAfterRead publisher partitionId maxRetries
      (db.partitions.find? partitionId) : EventsM Unit).isRunning = true) :
    Closing sha256 partitionId leaves db ((fun _ => ()) <$>
      closeAfterRead publisher partitionId maxRetries (db.partitions.find? partitionId)) := by
  cases hRow : db.partitions.find? partitionId with
  | none =>
    rw [hRow] at hRunning
    cases hRunning
  | some row =>
    left
    refine ⟨⟨hConsistent, by rw [hRow]; rfl⟩, ?_⟩
    exact establishes_map _ (closeAfterRead_seals (hConsistent.stored row hRow) maxRetries)

/- One statement of a close, in a quiet pool. -/
theorem close_step {maxRetries : Nat} (hConsistent : Consistent sha256 db partitionId leaves)
    (hUnbegun : Unbegun sha256 canonicalData publisher partitionId (.close maxRetries) call)
    (hBegun : call.executed ≠ 0 → Closing sha256 partitionId leaves db call.program)
    (hProgram : call.program = .stmt update next onFault) :
    (update db = db ∨ Sealed sha256 partitionId leaves (update db)) ∧ ((next db).isRunning = true →
      Closing sha256 partitionId leaves (update db) (next db)) := by
  by_cases hZero : call.executed = 0
  · have hFirst :
        (Operation.close maxRetries).program sha256 canonicalData publisher partitionId = .stmt id
          (fun db => (fun _ => ()) <$> closeAfterRead publisher partitionId maxRetries
            (db.partitions.find? partitionId))
          (.raise .connection) := by
      rw [Operation.program, closePartition_eq]
      rfl
    rw [hUnbegun hZero, hFirst] at hProgram
    cases hProgram
    exact ⟨Or.inl rfl, closing_of_read hConsistent maxRetries⟩
  · rcases hBegun hZero with ⟨hClosable, hEstablishes⟩ | ⟨hSealed, hKeeps⟩
    · rw [hProgram] at hEstablishes
      rcases hEstablishes db hClosable with ⟨hNow, hRest⟩
      exact ⟨Or.inr hNow, fun _ => Or.inr ⟨hNow, hRest⟩⟩
    · rw [hProgram] at hKeeps
      have hNow := hKeeps.1 db hSealed
      exact ⟨Or.inr hNow, fun _ => Or.inr ⟨hNow, hKeeps.2.1 db hSealed⟩⟩

variable {i : Nat}

theorem quiet_execute (hOn : ∀ op ∈ operations, op.On partitionId)
    (hLength : pool.calls.length = operations.length)
    (hQuiet : Quiet sha256 canonicalData publisher partitionId operations leaves pool)
    (hAllowed : Disciplined partitionId operations pool (.execute i))
    (hStep : pool.step (.execute i) = some pool') :
    PoolInvariant sha256 canonicalData publisher partitionId operations pool' := by
  rcases Pool.step_execute hStep with ⟨call, update, next, onFault, hCall, hLive, hProgram, rfl⟩
  have hBound : i < pool.calls.length := (List.getElem?_eq_some_iff.mp hCall).1
  have hOperation : operations[i]? = some operations[i] :=
    List.getElem?_eq_getElem (hLength ▸ hBound)
  have hHere : (pool.calls.set i (call.advance (next pool.store)))[i]? =
      some (call.advance (next pool.store)) :=
    List.getElem?_set_self hBound
  cases hKind : operations[i] with
  | ingest ingest =>
    rw [hKind] at hOperation
    have hKnown := hQuiet.calls i call _ hCall hOperation
    have hZero : call.executed = 0 := by
      by_contra hBegun
      rcases (hKnown.2 (inFlight_of_stmt hProgram hLive hBegun)).1 with ⟨r, hClose⟩
      cases hClose
    rcases (hAllowed call hCall hZero).1 ingest hOperation with ⟨hAlone, hFresh⟩
    have hOnHere : ingest.partitionId = partitionId := hOn _ (List.mem_of_getElem? hOperation)
    have hBegin := begin_ingestion canonicalData publisher hOnHere hQuiet.consistent hFresh
    rw [← hKnown.1 hZero, hProgram, ← hZero] at hBegin
    apply invariant_of_ingesting (i := i) (by simpa using hLength) hOperation hHere
      (call.advance_executed _) (call.advance_crashed hLive) hBegin.advance
    intro j other operation hj hOther hOp
    rcases getElem?_set_cases hOther with ⟨hSame, -⟩ | ⟨-, hOld⟩
    · exact absurd hSame hj
    · exact ⟨(hQuiet.calls j other operation hOld hOp).1, hAlone j other hOld⟩
  | close maxRetries =>
    rw [hKind] at hOperation
    have hKnown := hQuiet.calls i call _ hCall hOperation
    rcases close_step hQuiet.consistent hKnown.1 (fun hBegun =>
      (hKnown.2 (inFlight_of_stmt hProgram hLive hBegun)).2)
      hProgram with ⟨hStore, hNext⟩
    refine ⟨by simpa using hLength, Or.inl ⟨leaves, ?_, ?_⟩⟩
    · rcases hStore with hSame | hSealed
      · have hConsistent := hQuiet.consistent
        rw [← hSame] at hConsistent
        exact hConsistent
      · exact hSealed.consistent
    · intro j other operation hOther hOp
      rcases getElem?_set_cases hOther with ⟨rfl, rfl⟩ | ⟨-, hOld⟩
      · rw [hOperation] at hOp
        cases hOp
        constructor
        · intro hZero
          cases hZero
        · intro hFlight
          refine ⟨⟨maxRetries, rfl⟩, hNext ?_⟩
          simp only [Call.inFlight, Bool.and_eq_true] at hFlight
          exact hFlight.1.2
      · have hRest := hQuiet.calls j other operation hOld hOp
        refine ⟨hRest.1, ?_⟩
        intro hFlight
        exact ⟨(hRest.2 hFlight).1, (hRest.2 hFlight).2.mono hStore⟩

variable {j : Nat}

theorem busy_execute (hLength : pool.calls.length = operations.length)
    (hBusy : Busy sha256 canonicalData publisher partitionId operations i pool)
    (hAllowed : Disciplined partitionId operations pool (.execute j))
    (hStep : pool.step (.execute j) = some pool') :
    PoolInvariant sha256 canonicalData publisher partitionId operations pool' := by
  rcases Pool.step_execute hStep with ⟨call, update, next, onFault, hCall, hLive, hProgram, rfl⟩
  have hBound : j < pool.calls.length := (List.getElem?_eq_some_iff.mp hCall).1
  have hOperation : operations[j]? = some operations[j] :=
    List.getElem?_eq_getElem (hLength ▸ hBound)
  rcases hBusy.ingesting with ⟨ingest, begun, hIngest, hBegun, hFlight, hIngesting⟩
  by_cases hj : j = i
  · subst hj
    rw [hCall] at hBegun
    cases hBegun
    rw [hProgram] at hIngesting
    apply invariant_of_ingesting (i := j) (by simpa using hLength) hIngest
      (List.getElem?_set_self hBound) (call.advance_executed _) (call.advance_crashed hLive)
      hIngesting.advance
    intro k other operation hk hOther hOp
    rcases getElem?_set_cases hOther with ⟨hSame, -⟩ | ⟨-, hOld⟩
    · exact absurd hSame hk
    · exact hBusy.others k other operation hk hOld hOp
  · -- no other call may begin while the ingestion is in flight
    have hOther := hBusy.others j call _ hj hCall hOperation
    have hZero : call.executed = 0 := by
      by_contra hStarted
      have hTrue := inFlight_of_stmt hProgram hLive hStarted
      rw [hOther.2] at hTrue
      cases hTrue
    have hIdle : begun.inFlight = false := by
      cases hKind : operations[j] with
      | ingest c =>
        rw [hKind] at hOperation
        exact ((hAllowed call hCall hZero).1 c hOperation).1 i begun hBegun
      | close r =>
        rw [hKind] at hOperation
        exact (hAllowed call hCall hZero).2 r hOperation i begun ingest hBegun hIngest
    rw [hFlight] at hIdle
    cases hIdle

/- A crashed call is out of flight; nothing else changes. -/
theorem invariant_crash
    (hInvariant : PoolInvariant sha256 canonicalData publisher partitionId operations pool)
    (hAllowed : Disciplined partitionId operations pool (.crash j))
    (hStep : pool.step (.crash j) = some pool') :
    PoolInvariant sha256 canonicalData publisher partitionId operations pool' := by
  rcases Pool.step_crash hStep with ⟨call, hCall, hLive, hRunning, rfl⟩
  have hCrashed : ({ call with crashed := true } :
      Call EventsDb EventsError Unit).inFlight = false := by
    simp [Call.inFlight]
  rcases hInvariant with ⟨hLength, ⟨leaves, hQuiet⟩ | ⟨i, hBusy⟩⟩
  · refine ⟨by simpa using hLength, Or.inl ⟨leaves, hQuiet.consistent, ?_⟩⟩
    intro k other operation hOther hOp
    rcases getElem?_set_cases hOther with ⟨rfl, rfl⟩ | ⟨-, hOld⟩
    · refine ⟨(hQuiet.calls k call operation hCall hOp).1, ?_⟩
      intro hFlight
      rw [hCrashed] at hFlight
      cases hFlight
    · exact hQuiet.calls k other operation hOld hOp
  · rcases hBusy.ingesting with ⟨ingest, begun, hIngest, hBegun, hFlight, hIngesting⟩
    by_cases hj : j = i
    · subst hj
      rw [hCall] at hBegun
      cases hBegun
      rcases hIngesting.origin with ⟨db₀, leaves, hConsistent, -, -, -, hSame⟩
      have hStore := hSame (hAllowed call ingest hCall hIngest)
      refine ⟨by simpa using hLength, Or.inl ⟨leaves, ?_, ?_⟩⟩
      · rw [← hStore] at hConsistent
        exact hConsistent
      · intro k other operation hOther hOp
        rcases getElem?_set_cases hOther with ⟨rfl, rfl⟩ | ⟨hk, hOld⟩
        · constructor
          · intro hZero
            simp only [Call.inFlight, Bool.and_eq_true, decide_eq_true_eq] at hFlight
            have hZero : call.executed = 0 := hZero
            omega
          · intro hTrue
            rw [hCrashed] at hTrue
            cases hTrue
        · have hRest := hBusy.others k other operation hk hOld hOp
          refine ⟨hRest.1, ?_⟩
          intro hTrue
          rw [hRest.2] at hTrue
          cases hTrue
    · refine ⟨by simpa using hLength, Or.inr ⟨i, ⟨ingest, begun, hIngest, ?_, hFlight, hIngesting⟩,
        ?_⟩⟩
      · rw [List.getElem?_set_ne hj]
        exact hBegun
      · intro k other operation hk hOther hOp
        rcases getElem?_set_cases hOther with ⟨rfl, rfl⟩ | ⟨-, hOld⟩
        · exact ⟨(hBusy.others k call operation hk hCall hOp).1, hCrashed⟩
        · exact hBusy.others k other operation hk hOld hOp

-- Integrity
----

/- In every disciplined run, a closed partition is sound in every state reached. -/
theorem sound_of_disciplined (sha256 : Bytes → Bytes) (canonicalData : String → String)
    (publisher : SorobanPublisher) {partitionId : String} {operations : List Operation}
    {db : EventsDb} {moves : List Move} {pool : Pool EventsDb EventsError Unit}
    (hOn : ∀ op ∈ operations, op.On partitionId) (hUntouched : Untouched db partitionId)
    (hRun : RunsTo Pool.step (Disciplined partitionId operations)
      (partitionPool sha256 canonicalData publisher partitionId operations db) moves pool) :
    Sound sha256 partitionId pool.store := by
  have hInvariant : PoolInvariant sha256 canonicalData publisher partitionId
      operations pool := by
    refine RunsTo.invariant ?_ ?_ hRun
    · refine ⟨by simp [partitionPool, Pool.start], Or.inl ⟨[], hUntouched.consistent sha256, ?_⟩⟩
      intro j call operation hCall hOp
      rw [partitionPool, Pool.start, List.map_map, List.getElem?_map, hOp, Option.map_some] at hCall
      cases hCall
      refine ⟨fun _ => rfl, ?_⟩
      intro hFlight
      simp [Call.inFlight] at hFlight
    · intro pool move pool' hInvariant hAllowed hStep
      cases move with
      | execute i =>
        rcases hInvariant with ⟨hLength, ⟨leaves, hQuiet⟩ | ⟨k, hBusy⟩⟩
        · exact quiet_execute hOn hLength hQuiet hAllowed hStep
        · exact busy_execute hLength hBusy hAllowed hStep
      | crash i => exact invariant_crash hInvariant hAllowed hStep
  exact hInvariant.sound

/- The sample calls and a close, on one partition. -/
def sampleOperations : List Operation := sampleCalls.map .ingest ++ [.close 3]

def samplePool : Pool EventsDb EventsError Unit :=
  partitionPool id id (fun _ _ => .ok "tx") "testnet:C:0-999" sampleOperations .empty

/- The check of the discipline, move by move. -/
def isDisciplined (partitionId : String) (operations : List Operation)
    (pool : Pool EventsDb EventsError Unit) : Move → Bool
  | .execute i =>
    match pool.calls[i]?, operations[i]? with
    | some call, some (.ingest c) =>
      0 < call.executed || (pool.calls.all fun other => !other.inFlight) &&
        ((pool.store.partitions.find? partitionId).isSome || pool.store.events.rows.all fun e =>
          !(e.id = c.cuid || e.txHash = c.input.txHash && e.eventIndex = c.input.eventIndex))
    | some call, some (.close _) =>
      0 < call.executed || (pool.calls.zip operations).all fun
        | (other, .ingest _) => !other.inFlight
        | (_, .close _) => true
    | _, _ => true
  | .crash i =>
    match pool.calls[i]?, operations[i]? with
    | some call, some (.ingest _) => call.executed ≤ 2
    | _, _ => true

theorem disciplined_of_check {move : Move}
    (hCheck : isDisciplined partitionId operations pool move) :
    Disciplined partitionId operations pool move := by
  cases move with
  | execute i =>
    intro call hCall hFirst
    refine ⟨fun c hOp => ?_, fun r hOp j other c hOther hOther' => ?_⟩
    · simp only [isDisciplined, hCall, hOp, hFirst, lt_irrefl, decide_false, Bool.false_or,
        Bool.and_eq_true] at hCheck
      refine ⟨fun j other hOther => ?_, fun hNone hTaken => ?_⟩
      · simpa using List.all_eq_true.mp hCheck.1 other (List.mem_of_getElem? hOther)
      · rcases hTaken with ⟨e, hMem, hSame⟩
        rw [hNone, Option.isSome_none, Bool.false_or] at hCheck
        have hNot := List.all_eq_true.mp hCheck.2 e hMem
        rcases hSame with hId | ⟨hHash, hIndex⟩
        · simp [hId] at hNot
        · simp [hHash, hIndex] at hNot
    · simp only [isDisciplined, hCall, hOp, hFirst, lt_irrefl, decide_false,
        Bool.false_or] at hCheck
      have hPair : (other, Operation.ingest c) ∈ pool.calls.zip operations :=
        List.mem_of_getElem? (List.getElem?_zip_eq_some.mpr ⟨hOther, hOther'⟩)
      simpa using List.all_eq_true.mp hCheck _ hPair
  | crash i =>
    intro call c hCall hOp
    simpa [isDisciplined, hCall, hOp] using hCheck

/- Both sample calls are ingested, and the partition is closed. -/
def orderedMoves : List Move :=
  List.replicate 6 (.execute 0) ++ List.replicate 7 (.execute 1) ++ List.replicate 5 (.execute 2)

theorem sound_of_disciplined_sample :
    ∃ pool, RunsTo Pool.step (Disciplined "testnet:C:0-999" sampleOperations) samplePool
      orderedMoves pool ∧
      (∃ row, pool.store.partitions.find? "testnet:C:0-999" = some row ∧
        row.status = .published ∧ row.eventCount = 2) ∧ Sound id "testnet:C:0-999" pool.store := by
  have hRun : (runAllowed Pool.step
      (fun pool move => isDisciplined "testnet:C:0-999" sampleOperations pool move = true)
      samplePool orderedMoves).bind (fun pool =>
        (pool.store.partitions.find? "testnet:C:0-999").map (fun row =>
          (row.status, row.eventCount))) =
      some (.published, 2) := by decide
  rcases Option.bind_eq_some_iff.mp hRun with ⟨pool, hPool, hRow⟩
  rcases Option.map_eq_some_iff.mp hRow with ⟨row, hFound, hValues⟩
  have hAllowed := (runsTo_of_runAllowed hPool).mono fun _ _ => disciplined_of_check
  have hOn : ∀ op ∈ sampleOperations, op.On "testnet:C:0-999" := by
    simp [sampleOperations, sampleCalls, Operation.On]
    decide
  exact ⟨pool, hAllowed, ⟨row, hFound, Prod.mk.inj hValues⟩,
    sound_of_disciplined id id (fun _ _ => .ok "tx") hOn (untouched_empty _) hAllowed⟩

/-
  The second sample call counts and extends the tree while the
  first has stored its event but not yet its leaf.
-/
def overlappingMoves : List Move :=
  List.replicate 4 (.execute 0) ++ List.replicate 7 (.execute 1) ++ List.replicate 2 (.execute 0) ++
    List.replicate 5 (.execute 2)

/- Two events are stored, but the closed row counts one. -/
theorem interleaved_ingestion_unsound :
    ∃ pool, RunsTo Pool.step (fun _ _ => True) samplePool overlappingMoves pool ∧
      ¬Sound id "testnet:C:0-999" pool.store := by
  have hRun : (runLabels Pool.step samplePool overlappingMoves).bind (fun pool =>
    (pool.store.partitions.find? "testnet:C:0-999").map (fun row =>
      (row.status, row.eventCount, (pool.store.leaves "testnet:C:0-999").length))) =
    some (.published, 1, 2) := by decide
  rcases Option.bind_eq_some_iff.mp hRun with ⟨pool, hPool, hRow⟩
  rcases Option.map_eq_some_iff.mp hRow with ⟨row, hFound, hValues⟩
  refine ⟨pool, runsTo_of_runLabels hPool, ?_⟩
  intro hSound
  simp only [Prod.mk.injEq] at hValues
  rcases hValues with ⟨hStatus, hCount, hLength⟩
  have hClosed := hSound row hFound (by rw [hStatus]; simp)
  rw [hCount, hLength] at hClosed
  exact absurd hClosed.2.1 (by decide)

end Events

end AccessLayer
