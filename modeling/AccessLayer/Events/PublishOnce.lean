import AccessLayer.Events.Service
import AccessLayer.Library.Phases

/-
  How often the root of a partition is published.

  Publishing a root and recording that are two statements inside
  one loop of attempts.  When closers of a partition do not
  overlap and the record of a publication is made at once, no
  root is published twice.

  Main result: `published_at_most_once`
-/

-- Closers
----

namespace AccessLayer

namespace Events

open Transactional Transactional.Program

section

variable (publisher : SorobanPublisher) (partitionId : String)

/- How many of the later submissions are publications. -/
def publicationsAfter (history : List Submission) : List Submission → Nat
  | [] => 0
  | submission :: rest =>
    (if submission.partitionId = partitionId ∧ (publisher history submission.params).isOk then 1
      else 0) + publicationsAfter (history ++ [submission]) rest

/-
  How often the publisher has published a root of a partition,
  whether or not its caller learnt of it.
-/
def publications (submitted : List Submission) : Nat :=
  publicationsAfter publisher partitionId [] submitted

inductive CloseCall where
  | closePartition (partitionId : String) (maxRetries : Nat)
  | closeCompletedPartitions (network contractId : String) (latestLedger maxRetries : Nat)

def CloseCall.program : CloseCall → EventsM Unit
  | .closePartition partitionId maxRetries =>
    (fun _ => ()) <$> Events.closePartition publisher partitionId maxRetries
  | .closeCompletedPartitions network contractId latestLedger maxRetries =>
    (fun _ => ()) <$> Events.closeCompletedPartitions publisher network
      contractId latestLedger maxRetries

/- The contract that a stored partition belongs to. -/
def EventsDb.origin (db : EventsDb) (partitionId : String) : Option (String × String) :=
  (db.partitions.find? partitionId).map fun row => (row.network, row.contractId)

def CloseCall.covers (partitionId : String) (origin : Option (String × String)) : CloseCall → Bool
  | .closePartition id _ => id = partitionId
  | .closeCompletedPartitions network contractId _ _ => origin = some (network, contractId)

/- Two calls that may close the same partition. -/
def CloseCall.overlaps (db : EventsDb) : CloseCall → CloseCall → Bool
  | .closePartition id _, .closePartition id' _ => id = id'
  | .closePartition id _, .closeCompletedPartitions network contractId _ _ =>
    db.origin id = some (network, contractId)
  | .closeCompletedPartitions network contractId _ _, .closePartition id _ =>
    db.origin id = some (network, contractId)
  | .closeCompletedPartitions network contractId _ _,
    .closeCompletedPartitions network' contractId' _ _ =>
      network = network' ∧ contractId = contractId'

/- A partition whose publication is not recorded yet. -/
def EventsDb.unrecorded (db : EventsDb) (row : MerklePartitionRoot) : Bool :=
  row.status ≠ .published && 0 < publications publisher row.partitionId db.submitted

def EventsDb.settledFor (db : EventsDb) (closer : CloseCall) : Bool :=
  db.partitions.rows.all fun row => !(closer.covers row.partitionId
    (some (row.network, row.contractId)) && db.unrecorded publisher row)

/- Some other call in flight may close the same partition. -/
def contested (closers : List CloseCall) (pool : Pool EventsDb EventsError Unit) (i : Nat)
    (closer : CloseCall) : Bool :=
  (pool.calls.zip closers).zipIdx.any fun entry => entry.2 ≠ i && entry.1.1.inFlight &&
    closer.overlaps pool.store entry.1.2

/- The statement of a call is handed to the publisher. -/
def submits (pool : Pool EventsDb EventsError Unit) (i : Nat) : Bool :=
  match pool.calls[i]? with
  | some call =>
    match call.program with
    | .stmt update _ _ => (update pool.store).submitted ≠ pool.store.submitted
    | _ => false
  | none => false

/-
  Closers of a partition do not overlap.  No answer of the
  publisher is lost, and once a root is published, its closer
  records that without a failed statement or a crash.
-/
def Recorded (closers : List CloseCall) (pool : Pool EventsDb EventsError Unit) : FaultMove → Prop
  | .attempt i outcome =>
    ∀ call ∈ pool.calls[i]?, ∀ closer ∈ closers[i]?, (call.executed = 0 →
      contested closers pool i closer = false) ∧ (outcome = .lost → submits pool i = false) ∧
      (outcome ≠ .served → pool.store.settledFor publisher closer = true)
  | .crash i => ∀ closer ∈ closers[i]?, pool.store.settledFor publisher closer = true

/- The pool of the calls, none of them begun. -/
def closerPool (closers : List CloseCall) (db : EventsDb) : Pool EventsDb EventsError Unit :=
  .start db (closers.map (CloseCall.program publisher))

theorem publicationsAfter_append (history xs ys : List Submission) :
    publicationsAfter publisher partitionId history (xs ++ ys) =
      publicationsAfter publisher partitionId history xs +
        publicationsAfter publisher partitionId (history ++ xs) ys := by
  induction xs generalizing history with
  | nil => simp [publicationsAfter]
  | cons x rest ih =>
    simp only [List.cons_append, publicationsAfter, ih,
      List.append_assoc, List.nil_append, Nat.add_assoc]

theorem publications_concat (submitted : List Submission) (submission : Submission) :
    publications publisher partitionId (submitted ++ [submission]) =
      publications publisher partitionId submitted +
        if submission.partitionId = partitionId ∧
          (publisher submitted submission.params).isOk then 1
        else 0 := by
  simp [publications, publicationsAfter_append, publicationsAfter]

-- Phases of a Partition
----

/-
  A settled partition is unpublished or recorded; a fresh one is
  being closed; of a published one the record is due.
-/
inductive ClosePhase where
  | settled
  | fresh
  | due

/- What the phases of a partition are about. -/
def EventsDb.closeView (publisher : SorobanPublisher) (partitionId : String)
    (db : EventsDb) : Option MerklePartitionRoot × Nat :=
  (db.partitions.find? partitionId, publications publisher partitionId db.submitted)

variable (publisher : SorobanPublisher) (partitionId : String) (origin : Option (String × String))

def ClosePhase.holds (db : EventsDb) : ClosePhase → Prop
  | .settled =>
    db.origin partitionId = origin ∧ (publications publisher partitionId db.submitted = 0 ∨
      publications publisher partitionId db.submitted = 1 ∧
        ∃ row, db.partitions.find? partitionId = some row ∧ row.status = .published)
  | .fresh =>
    db.origin partitionId = origin ∧ publications publisher partitionId db.submitted = 0 ∧
      ∃ row, db.partitions.find? partitionId = some row ∧ row.status ≠ .published
  | .due =>
    db.origin partitionId = origin ∧ publications publisher partitionId db.submitted = 1 ∧
      ∃ row, db.partitions.find? partitionId = some row ∧ row.status ≠ .published

def closePhases : Phases EventsDb ClosePhase where
  holds phase db := phase.holds publisher partitionId origin db
  firm phase := phase = .due
  quiet db db' := db'.submitted = db.submitted

variable {publisher : SorobanPublisher} {partitionId : String} {origin : Option (String × String)}
variable {db db' : EventsDb} {phase : ClosePhase}

theorem ClosePhase.holds.origin_eq (hPhase : phase.holds publisher partitionId origin db) :
    db.origin partitionId = origin := by
  cases phase with
  | settled => exact hPhase.1
  | fresh => exact hPhase.1
  | due => exact hPhase.1

theorem ClosePhase.holds.publications_le (hPhase : phase.holds publisher partitionId origin db) :
    publications publisher partitionId db.submitted ≤ 1 := by
  cases phase with
  | settled =>
    rcases hPhase.2 with hNone | hOne
    · omega
    · exact Nat.le_of_eq hOne.1
  | fresh => exact hPhase.2.1 ▸ Nat.zero_le 1
  | due => exact Nat.le_of_eq hPhase.2.1

theorem ClosePhase.holds.settled {phase : ClosePhase}
    (hPhase : phase.holds publisher partitionId origin db) (hDue : phase ≠ .due) :
    ClosePhase.holds publisher partitionId origin db .settled := by
  cases phase with
  | settled => exact hPhase
  | fresh => exact ⟨hPhase.1, Or.inl hPhase.2.1⟩
  | due => exact absurd rfl hDue

theorem ClosePhase.holds.congr (hPhase : phase.holds publisher partitionId origin db)
    (hView : db'.closeView publisher partitionId = db.closeView publisher partitionId) :
    phase.holds publisher partitionId origin db' := by
  have hRow : db'.partitions.find? partitionId = db.partitions.find? partitionId :=
    congrArg Prod.fst hView
  have hCount : publications publisher partitionId db'.submitted =
      publications publisher partitionId db.submitted :=
    congrArg Prod.snd hView
  have hOrigin : db'.origin partitionId = db.origin partitionId := by
    unfold EventsDb.origin
    rw [hRow]
  cases phase with
  | settled =>
    unfold ClosePhase.holds
    rw [hRow, hCount, hOrigin]
    exact hPhase
  | fresh =>
    unfold ClosePhase.holds
    rw [hRow, hCount, hOrigin]
    exact hPhase
  | due =>
    unfold ClosePhase.holds
    rw [hRow, hCount, hOrigin]
    exact hPhase

end

-- Closing in Phases
----

section

variable {publisher : SorobanPublisher} {partitionId : String} {origin : Option (String × String)}
variable {db : EventsDb} {f : MerklePartitionRoot → MerklePartitionRoot}

/- A rewrite of the row that leaves its contract alone. -/
theorem origin_putPartition {hKey : ∀ row, key (f row) = key row}
    {row : MerklePartitionRoot} (hRow : db.partitions.find? partitionId = some row)
    (hf : (f row).network = row.network ∧ (f row).contractId = row.contractId) :
    (db.putPartition partitionId f hKey).origin partitionId = db.origin partitionId := by
  unfold EventsDb.origin
  rw [find?_putPartition hRow, hRow]
  simp [hf.1, hf.2]

theorem follows_update_fresh {hKey : ∀ row, key (f row) = key row}
    (hf : ∀ row, ((f row).network = row.network ∧ (f row).contractId = row.contractId) ∧
      (f row).status ≠ .published) :
    Follows (closePhases publisher partitionId origin)
      (fun _ phase => phase = .fresh) (· ≠ .due) .fresh (updatePartition partitionId f hKey) := by
  apply follows_execute
  · intro s a s' hFresh hUpdate
    rcases hFresh with ⟨hOrigin, hNone, row, hRow, -⟩
    simp only [hRow] at hUpdate
    cases hUpdate
    exact ⟨(origin_putPartition hRow (hf row).1).trans hOrigin,
      hNone, f row, find?_putPartition hRow, (hf row).2⟩
  · intro _
    rfl
  · simp

theorem follows_publisher (params : PublishRootParams) :
    Follows (closePhases publisher partitionId origin)
      (fun _ phase => phase = .due) (· = .fresh) .fresh
      (activeSorobanPublisher publisher partitionId params) := by
  constructor
  · intro s hFresh
    rcases hFresh with ⟨hOrigin, hNone, hRow⟩
    cases hAnswer : publisher s.submitted params with
    | ok txHash =>
      refine ⟨.due, ⟨hOrigin, ?_, hRow⟩, ?_⟩
      · rw [publications_concat, hNone, hAnswer]
        simp [Except.isOk, Except.toBool]
      · simp only [hAnswer]
        rfl
    | error message =>
      refine ⟨.fresh, ⟨hOrigin, ?_, hRow⟩, ?_⟩
      · rw [publications_concat, hNone, hAnswer]
        simp [Except.isOk, Except.toBool]
      · simp only [hAnswer]
        rfl
  · intro _
    refine ⟨rfl, ?_⟩
    intro s _ hQuiet
    simp [closePhases] at hQuiet

theorem follows_record (txHash : String) (attempt : Nat) :
    Follows (closePhases publisher partitionId origin)
      (fun _ phase => phase = .settled) (· = .fresh) .due (updatePartition partitionId (fun row =>
        { row with
          status := .published
          sorobanTxHash := some txHash
          retryCount := attempt
          lastError := none })
        (fun _ => rfl)) := by
  refine ⟨?_, fun hFirm => absurd rfl hFirm⟩
  intro s hDue
  rcases hDue with ⟨hOrigin, hOne, row, hRow, -⟩
  simp only [hRow]
  refine ⟨.settled, ⟨?_, Or.inr ⟨hOne, ?_⟩⟩, rfl⟩
  · exact (origin_putPartition hRow ⟨rfl, rfl⟩).trans hOrigin
  · exact ⟨_, find?_putPartition hRow, rfl⟩

theorem follows_publishRootOnce (params : PublishRootParams) (attempt : Nat) :
    Follows (closePhases publisher partitionId origin)
      (fun _ phase => phase = .settled) (· = .fresh) .fresh
      (publishRootOnce publisher partitionId params attempt) := by
  refine follows_bind (follows_publisher params) ?_
  rintro txHash _ rfl
  refine follows_bind (follows_record txHash attempt) ?_
  rintro _ _ rfl
  exact follows_pure rfl

theorem follows_publishAttempts (params : PublishRootParams)
    (maxRetries attempt remaining : Nat) (lastError : Option EventsError) :
    Follows (closePhases publisher partitionId origin)
      (fun _ phase => phase ≠ .due) (· ≠ .due) .fresh
      (publishAttempts publisher partitionId params maxRetries attempt lastError remaining) := by
  induction remaining generalizing attempt lastError with
  | zero =>
    refine follows_bind (follows_update_fresh ?_) ?_
    · intro _
      exact ⟨⟨rfl, rfl⟩, by simp⟩
    · rintro _ _ rfl
      exact follows_pure (by simp)
  | succ remaining ih =>
    refine follows_tryCatch (F := (· = ClosePhase.fresh)) ?_ ?_
    · apply follows_of_imp (follows_publishRootOnce params attempt)
      · rintro _ _ rfl
        simp
      · rintro _ rfl
        rfl
    · rintro _ _ rfl
      exact ih _ _

theorem follows_closePartition (maxRetries : Nat) :
    Follows (closePhases publisher partitionId origin)
      (fun _ phase => phase ≠ .due) (· ≠ .due) .settled
      (closePartition publisher partitionId maxRetries) := by
  apply follows_query_bind (by simp)
  intro s hSettled
  cases hRow : s.partitions.find? partitionId with
  | none => exact ⟨.settled, hSettled, follows_throw (by simp)⟩
  | some row =>
    dsimp only
    by_cases hPublished : row.status = .published
    · rw [if_pos hPublished]
      exact ⟨.settled, hSettled, follows_pure (by simp)⟩
    · rw [if_neg hPublished]
      have hNone : publications publisher partitionId s.submitted =
          0 := by
        rcases hSettled.2 with hNone | ⟨-, other, hOther, hIs⟩
        · exact hNone
        · rw [hRow] at hOther
          cases hOther
          exact absurd hIs hPublished
      refine ⟨.fresh, ⟨hSettled.1, hNone, row, hRow, hPublished⟩, ?_⟩
      refine follows_bind (follows_update_fresh ?_) ?_
      · intro _
        exact ⟨⟨rfl, rfl⟩, by simp⟩
      · rintro _ _ rfl
        refine follows_bind (follows_publishAttempts _ maxRetries 0 (maxRetries + 1) none) ?_
        intro _ phase hPhase
        exact follows_query_bind hPhase fun s hs => ⟨phase, hs, follows_pure hPhase⟩

end

-- Other Partitions
----

variable {publisher : SorobanPublisher} {partitionId id : String}
variable {origin : Option (String × String)} {J : Option MerklePartitionRoot × Nat → Prop}

theorem frames_updatePartition {f : MerklePartitionRoot → MerklePartitionRoot}
    {hKey : ∀ row, key (f row) = key row} (hNe : partitionId ≠ id) :
    (updatePartition id f hKey).Frames (EventsDb.closeView publisher partitionId) J := by
  apply frames_execute
  intro s a s' _ hUpdate
  split at hUpdate
  · cases hUpdate
    simp only [EventsDb.closeView, EventsDb.putPartition, Table.find?_update_other _ _ _ hNe]
  · cases hUpdate

theorem frames_publisher (params : PublishRootParams) (hNe : partitionId ≠ id) :
    (activeSorobanPublisher publisher id params).Frames
      (EventsDb.closeView publisher partitionId) J := by
  refine ⟨?_, ?_, trivial⟩
  · intro s _
    simp [EventsDb.closeView, publications_concat, hNe.symm]
  · intro s _
    dsimp only
    cases publisher s.submitted params with
    | ok txHash => trivial
    | error message => trivial

theorem frames_publishAttempts (params : PublishRootParams)
    (maxRetries attempt remaining : Nat) (lastError : Option EventsError) (hNe : partitionId ≠ id) :
    (publishAttempts publisher id params maxRetries attempt lastError remaining).Frames
      (EventsDb.closeView publisher partitionId) J := by
  induction remaining generalizing attempt lastError with
  | zero =>
    exact frames_bind (frames_updatePartition hNe) (fun _ => frames_pure _)
  | succ remaining ih =>
    refine frames_tryCatch ?_ (fun _ => ih _ _)
    refine frames_bind (frames_publisher params hNe) ?_
    intro _
    exact frames_bind (frames_updatePartition hNe) (fun _ => frames_pure _)

theorem frames_closePartition (maxRetries : Nat) (hNe : partitionId ≠ id) :
    (closePartition publisher id maxRetries).Frames
      (EventsDb.closeView publisher partitionId) J := by
  apply frames_query_bind
  intro s _
  cases s.partitions.find? id with
  | none => exact frames_throw _
  | some row =>
    dsimp only
    split
    · exact frames_pure _
    · refine frames_bind (frames_updatePartition hNe) ?_
      intro _
      refine frames_bind (frames_publishAttempts _ maxRetries 0 (maxRetries + 1) none hNe) ?_
      intro _
      exact frames_query _ _

theorem frames_closeEach (maxRetries : Nat) {partitions : List MerklePartitionRoot}
    (hOthers : ∀ row ∈ partitions, partitionId ≠ row.partitionId) :
    (closeEach publisher maxRetries partitions).Frames
      (EventsDb.closeView publisher partitionId) J := by
  induction partitions with
  | nil => exact frames_pure _
  | cons row rest ih =>
    refine frames_bind (frames_closePartition maxRetries (hOthers row (List.mem_cons_self))) ?_
    intro _
    refine frames_bind (ih fun other hMem => hOthers other (List.mem_cons_of_mem _ hMem)) ?_
    intro _
    exact frames_pure _

variable {closer : CloseCall}

/- A call leaves the partitions alone that it may not close. -/
theorem frames_program (hCovers : closer.covers partitionId origin = false) :
    (closer.program publisher).Frames (EventsDb.closeView publisher partitionId) (fun view =>
      view.1.map (fun row => (row.network, row.contractId)) = origin) := by
  cases closer with
  | closePartition id maxRetries =>
    have hNe : id ≠ partitionId := by simpa [CloseCall.covers] using hCovers
    exact frames_bind (frames_closePartition maxRetries hNe.symm) (fun _ => frames_pure _)
  | closeCompletedPartitions network contractId latestLedger maxRetries =>
    refine frames_bind ?_ (fun _ => frames_pure _)
    apply frames_query_bind
    intro s hOrigin
    apply frames_closeEach
    rintro row hMem rfl
    rw [List.mem_insertionSort, List.mem_filter] at hMem
    have hRow := Table.find?_of_mem hMem.1
    have hSelected := of_decide_eq_true hMem.2
    have hFound : s.partitions.find? row.partitionId = some row := hRow
    rw [EventsDb.closeView, hFound, Option.map_some, hSelected.1, hSelected.2.1] at hOrigin
    simp [CloseCall.covers, ← hOrigin] at hCovers

theorem follows_closeOne (maxRetries : Nat) :
    Follows (closePhases publisher partitionId origin)
      (fun _ phase => phase ≠ .due) (· ≠ .due) .settled
      (closePartition publisher id maxRetries) := by
  by_cases hSame : partitionId = id
  · rw [← hSame]
    exact follows_closePartition maxRetries
  · have hFrames :
        (closePartition publisher id maxRetries).Frames (EventsDb.closeView publisher partitionId)
          (fun _ => True) :=
      frames_closePartition maxRetries hSame
    apply follows_of_frames hFrames
    · intro _ _
      trivial
    · intro s s' hView hPhase
      have hSettled : ClosePhase.holds publisher partitionId origin s
          .settled := hPhase
      exact hSettled.congr hView
    · simp
    · simp

theorem follows_closeEach (maxRetries : Nat) (partitions : List MerklePartitionRoot) :
    Follows (closePhases publisher partitionId origin)
      (fun _ phase => phase ≠ .due) (· ≠ .due) .settled
      (closeEach publisher maxRetries partitions) := by
  induction partitions with
  | nil => exact follows_pure (by simp)
  | cons row rest ih =>
    refine follows_bind (follows_closeOne maxRetries) ?_
    intro _ phase hPhase
    refine follows_bind (Q := fun _ phase => phase ≠ .due) ?_ (fun _ _ hLast => follows_pure hLast)
    exact follows_of_narrower ih (by simp [closePhases]) (fun _ hHolds =>
      ClosePhase.holds.settled hHolds hPhase)
      (fun _ _ => hPhase) (fun _ => hPhase)

theorem follows_program (closer : CloseCall) :
    Follows (closePhases publisher partitionId origin)
      (fun _ phase => phase ≠ .due) (· ≠ .due) .settled (closer.program publisher) := by
  cases closer with
  | closePartition id maxRetries =>
    exact follows_bind (follows_closeOne maxRetries) (fun _ _ hLast => follows_pure hLast)
  | closeCompletedPartitions network contractId latestLedger maxRetries =>
    refine follows_bind (Q := fun _ phase => phase ≠ .due) ?_
      (fun _ _ hLast => follows_pure hLast)
    exact follows_query_bind (by simp) fun s hs => ⟨.settled, hs, follows_closeEach _ _⟩

-- Recorded Runs
----

variable {closers : List CloseCall} {db : EventsDb} {pool pool' : Pool EventsDb EventsError Unit}

theorem overlaps_of_covers {one other : CloseCall}
    (hOne : one.covers partitionId (db.origin partitionId) = true)
    (hOther : other.covers partitionId (db.origin partitionId) = true) :
    one.overlaps db other = true := by
  cases one with
  | closePartition id maxRetries =>
    have hId : id = partitionId := of_decide_eq_true hOne
    rw [hId]
    cases other with
    | closePartition id' maxRetries' =>
      have hId' : id' = partitionId := of_decide_eq_true hOther
      simp [CloseCall.overlaps, hId']
    | closeCompletedPartitions network contractId l r => exact hOther
  | closeCompletedPartitions network contractId l r =>
    cases other with
    | closePartition id maxRetries =>
      have hId : id = partitionId := of_decide_eq_true hOther
      rw [hId]
      exact hOne
    | closeCompletedPartitions network' contractId' l' r' =>
      have hPair := of_decide_eq_true hOne
      rw [of_decide_eq_true hOther] at hPair
      cases hPair
      simp [CloseCall.overlaps]

/- The call at an index may close the partition. -/
def coversAt (closers : List CloseCall) (partitionId : String) (origin : Option (String × String))
    (i : Nat) : Prop :=
  ∃ closer, closers[i]? = some closer ∧ closer.covers partitionId origin = true

/- What is invariant for one partition. -/
def ExclusiveFor (publisher : SorobanPublisher) (closers : List CloseCall) (partitionId : String)
    (origin : Option (String × String)) (pool : Pool EventsDb EventsError Unit) : Prop :=
  pool.Exclusive (closePhases publisher partitionId origin)
    .settled (EventsDb.closeView publisher partitionId) (fun view =>
      view.1.map (fun row => (row.network, row.contractId)) = origin)
    (coversAt closers partitionId origin)

theorem closePhases_rests (publisher : SorobanPublisher) (partitionId : String)
    (origin : Option (String × String)) :
    (closePhases publisher partitionId origin).Rests .settled
      (EventsDb.closeView publisher partitionId) (fun view =>
        view.1.map (fun row => (row.network, row.contractId)) = origin) where
  loose := by simp [closePhases]
  settles := by
    intro phase s hFirm hPhase
    exact ClosePhase.holds.settled hPhase hFirm
  shown := by
    intro phase s hPhase
    exact ClosePhase.holds.origin_eq hPhase
  congr := by
    intro phase s s' hView hPhase
    have hHolds : phase.holds publisher partitionId origin s := hPhase
    exact hHolds.congr hView

theorem exclusiveFor_start (hNew : db.submitted = []) :
    ExclusiveFor publisher closers partitionId (db.origin partitionId)
      (closerPool publisher closers db) := by
  apply exclusive_start
  · refine ⟨rfl, Or.inl ?_⟩
    rw [hNew]
    rfl
  · intro p hMem
    rcases List.mem_map.mp hMem with ⟨closer, -, rfl⟩
    exact follows_program closer
  · intro i p hNot hProgram
    rw [List.getElem?_map] at hProgram
    rcases Option.map_eq_some_iff.mp hProgram with ⟨closer, hCloser, rfl⟩
    apply frames_program
    by_contra hCovers
    exact hNot ⟨closer, hCloser, by simpa using hCovers⟩

theorem not_due_of_settledFor (hCovers : closer.covers partitionId origin = true)
    (hSettled : db.settledFor publisher closer = true) :
    ¬ ClosePhase.holds publisher partitionId origin db .due := by
  rintro ⟨hOrigin, hOne, row, hRow, hStatus⟩
  have hKey : row.partitionId = partitionId := Table.key_of_find? hRow
  have hCoversRow : closer.covers partitionId
      (some (row.network, row.contractId)) = true := by
    rw [EventsDb.origin, hRow] at hOrigin
    rw [← hCovers, ← hOrigin]
    rfl
  have hClean := List.all_eq_true.mp hSettled row (Table.mem_of_find? hRow)
  simp [hCoversRow, EventsDb.unrecorded, hStatus, hKey, hOne] at hClean

variable {i : Nat}

theorem alone_of_not_contested {call : Call EventsDb EventsError Unit}
    (hCall : pool.calls[i]? = some call) (hZero : call.executed = 0)
    (hCloser : closer.covers partitionId (pool.store.origin partitionId) = true)
    (hFree : contested closers pool i closer = false) (j : Nat)
    (other : Call EventsDb EventsError Unit)
    (hCovers : coversAt closers partitionId (pool.store.origin partitionId) j)
    (hOther : pool.calls[j]? = some other) :
    other.inFlight = false := by
  by_cases hSame : j = i
  · rw [hSame, hCall] at hOther
    cases hOther
    simp [Call.inFlight, hZero]
  · rcases hCovers with ⟨otherCloser, hOtherCloser, hOtherCovers⟩
    have hZip : (pool.calls.zip closers)[j]? =
        some (other, otherCloser) := by
      rw [List.getElem?_zip_eq_some]
      exact ⟨hOther, hOtherCloser⟩
    have hMem : ((other, otherCloser), j) ∈ (pool.calls.zip closers).zipIdx :=
      List.mem_zipIdx_iff_getElem?.mpr hZip
    unfold contested at hFree
    rw [List.any_eq_false] at hFree
    have hNot := hFree _ hMem
    simp only [overlaps_of_covers hCloser hOtherCovers,
      Bool.and_true, Bool.and_eq_true, decide_eq_true_eq, not_and] at hNot
    simpa using hNot hSame

theorem admits_of_recorded {outcome : Outcome} {present : Call EventsDb EventsError Unit}
    (hPresent : pool.calls[i]? = some present) (hOrigin : pool.store.origin partitionId = origin)
    (hRecorded : Recorded publisher closers pool (.attempt i outcome))
    (hCovers : coversAt closers partitionId origin i) :
    pool.Admits (closePhases publisher partitionId origin)
      (coversAt closers partitionId origin) i outcome := by
  rcases hCovers with ⟨closer, hCloser, hCloserCovers⟩
  constructor
  · intro call hCall hZero j other hOther
    rw [← hOrigin] at hOther hCloserCovers
    exact alone_of_not_contested hCall hZero hCloserCovers
      ((hRecorded call hCall closer hCloser).1 hZero) j other hOther
  · intro hLost call update next onFault hCall hProgram
    have hQuiet := (hRecorded call hCall closer hCloser).2.1 hLost
    simpa [submits, hCall, hProgram, closePhases] using hQuiet
  · intro hFault phase hFirm
    have hDue : phase = .due := hFirm
    rw [hDue]
    exact not_due_of_settledFor hCloserCovers
      ((hRecorded present hPresent closer hCloser).2.2 hFault)

theorem exclusiveFor_step {move : FaultMove}
    (hExclusive : ExclusiveFor publisher closers partitionId origin pool)
    (hRecorded : Recorded publisher closers pool move) (hStep : pool.attempt move = some pool') :
    ExclusiveFor publisher closers partitionId origin pool' := by
  have hRests := closePhases_rests publisher partitionId origin
  cases move with
  | attempt i outcome =>
    rcases Pool.attempt_spec hStep with ⟨call, -, -, -, hCall, -⟩
    rcases hExclusive.held with ⟨phase, hHeld⟩
    have hOrigin := ClosePhase.holds.origin_eq hHeld.holds
    exact exclusive_attempt hRests hExclusive (admits_of_recorded hCall hOrigin hRecorded) hStep
  | crash i =>
    refine exclusive_crash hRests hExclusive ?_ hStep
    rintro ⟨closer, hCloser, hCovers⟩ phase hFirm
    have hDue : phase = .due := hFirm
    rw [hDue]
    exact not_due_of_settledFor hCovers (hRecorded closer hCloser)

/-
  In every run whose publications are recorded, the root of each
  partition is published at most once.
-/
theorem published_at_most_once {moves : List FaultMove} (hNew : db.submitted = []) (hRun :
    RunsTo Pool.attempt (Recorded publisher closers) (closerPool publisher closers db) moves pool)
    (partitionId : String) :
    publications publisher partitionId pool.store.submitted ≤ 1 := by
  have hExclusive : ExclusiveFor publisher closers partitionId (db.origin partitionId) pool :=
    RunsTo.invariant (exclusiveFor_start hNew) (fun _ _ _ hs hAllowed hStep =>
      exclusiveFor_step hs hAllowed hStep)
      hRun
  rcases hExclusive.held with ⟨phase, hHeld⟩
  exact ClosePhase.holds.publications_le hHeld.holds

/- A publisher that answers every call. -/
def steadyPublisher : SorobanPublisher := fun history _ => .ok ("tx" ++ toString history.length)

def samplePartition : MerklePartitionRoot where
  partitionId := "testnet:C:0-9"
  network := "testnet"
  contractId := "C"
  ledgerStart := 0
  ledgerEnd := 9
  root := "r"
  eventCount := 1
  sorobanTxHash := none
  status := .opened
  retryCount := 0
  lastError := none

def samplePartitions : EventsDb :=
  { EventsDb.empty with
    partitions := ⟨[samplePartition], by simp⟩ }

def sampleClosers : List CloseCall :=
  [.closeCompletedPartitions "testnet" "C" 10 3, .closePartition "testnet:C:0-9" 3]

instance (publisher : SorobanPublisher) (closers : List CloseCall)
    (pool : Pool EventsDb EventsError Unit) (move : FaultMove) :
    Decidable (Recorded publisher closers pool move) :=
  match move with
  | .attempt _ _ => inferInstanceAs (Decidable (∀ _ ∈ _, ∀ _ ∈ _, _ ∧ _ ∧ _))
  | .crash _ => inferInstanceAs (Decidable (∀ _ ∈ _, _))

/- Statements of one call that are served. -/
def serves (i count : Nat) : List FaultMove := List.replicate count (.attempt i .served)

def sampleRun : Option (Pool EventsDb EventsError Unit) :=
  runAllowed Pool.attempt (Recorded steadyPublisher sampleClosers)
    (closerPool steadyPublisher sampleClosers samplePartitions) (.attempt 0 .rejected :: serves 1 5)

theorem published_at_most_once_sample :
    publications steadyPublisher "testnet:C:0-9" (sampleRun.get (by decide)).store.submitted ≤ 1 :=
  published_at_most_once rfl (runsTo_of_runAllowed (Option.some_get _).symm) "testnet:C:0-9"

/-
  A record that fails after its publication makes the loop
  publish again; and so do two closers that overlap.
-/
theorem root_published_twice :
    (runLabels Pool.attempt (closerPool steadyPublisher sampleClosers samplePartitions)
      (serves 1 3 ++ [.attempt 1 .rejected] ++ serves 1 2)).map (fun pool =>
        publications steadyPublisher "testnet:C:0-9" pool.store.submitted) = some 2 ∧
    (runLabels Pool.attempt (closerPool steadyPublisher sampleClosers samplePartitions)
      (serves 0 2 ++ serves 1 5 ++ serves 0 3)).map (fun pool =>
        publications steadyPublisher "testnet:C:0-9" pool.store.submitted) = some 2 := by
  decide

end Events

end AccessLayer
