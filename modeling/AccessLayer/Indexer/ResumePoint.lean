import AccessLayer.Indexer.ChainLinkage

/-
  Which ledgers a recovery from a reorg leaves behind
  (`src/modules/indexer/ledger-checkpoint.service.ts`,
  `src/modules/indexer/reorg-guard.service.ts`).

  The indexer resumes after its highest checkpoint.  The incoming
  ledger is recorded even when ledgers below it could not be
  fetched again; the resume point is then past them.

  Main result: `no_lost_ledgers_iff`
-/

-- The Resume Point
----

namespace AccessLayer

namespace Indexer

open Transactional Program

section

variable {chain : ChainDb}

/- The checkpoint of the highest ledger. -/
def readLatestCheckpoint (chain : ChainDb) : Option LedgerCheckpoint :=
  (chain.ledgerCheckpoint.rows.insertionSort fun a b => b.ledger ≤ a.ledger).head?

/- The ledger after it, or `0` on the first run. -/
def getResumePoint (chain : ChainDb) : Int :=
  match readLatestCheckpoint chain with
  | none => 0
  | some checkpoint => checkpoint.ledger + 1

variable {n : Int}

theorem lt_getResumePoint (hStored : chain.checkpoint? n ≠ none) : n < getResumePoint chain := by
  rcases Option.ne_none_iff_exists'.mp hStored with ⟨row, hRow⟩
  have hLedger : row.ledger = n := Table.key_of_find? hRow
  have hMem : row ∈ chain.ledgerCheckpoint.rows.insertionSort
      fun a b => b.ledger ≤ a.ledger := by
    rw [List.mem_insertionSort]
    exact Table.mem_of_find? hRow
  have hSorted := List.pairwise_insertionSort (fun a b : LedgerCheckpoint => b.ledger ≤ a.ledger)
      chain.ledgerCheckpoint.rows
  unfold getResumePoint readLatestCheckpoint
  cases hRows : chain.ledgerCheckpoint.rows.insertionSort fun a b => b.ledger ≤ a.ledger with
  | nil =>
    rw [hRows] at hMem
    cases hMem
  | cons latest rest =>
    rw [hRows] at hMem hSorted
    have hLe : row.ledger ≤ latest.ledger := by
      rcases List.mem_cons.mp hMem with rfl | hRest
      · exact le_refl _
      · exact (List.pairwise_cons.mp hSorted).1 row hRest
    simp only [List.head?_cons]
    omega

-- Confirmed Events
----

variable {header : LedgerHeader} {events : List IndexerChainEvent}

/- The event of a key is stored and not reorged. -/
def ConfirmedIn (table : Table IngestedEvent) (id : String × Nat) : Prop :=
  ∃ row, table.find? id = some row ∧ row.status = .confirmed

/- The unique events of a batch are all confirmed. -/
def Recorded (chain : ChainDb) (events : List IndexerChainEvent) : Prop :=
  ∀ event ∈ dedupeChainEvents events, ConfirmedIn chain.ingestedEvent
    (event.txHash, event.eventIndex)

variable {table : Table IngestedEvent} {id : String × Nat}

theorem confirmedIn_upsertEvent (event : IndexerChainEvent)
    (h : id = (event.txHash, event.eventIndex) ∨ ConfirmedIn table id) :
    ConfirmedIn (upsertEvent header table event) id := by
  unfold ConfirmedIn upsertEvent
  rw [Table.find?_upsert]
  have hKey : key (toIngestedEventFields event header) = (event.txHash, event.eventIndex) := rfl
  rw [hKey]
  by_cases hSame : id = (event.txHash, event.eventIndex)
  · rw [if_pos hSame]
    refine ⟨_, rfl, ?_⟩
    cases table.find? id with
    | none => rfl
    | some row => rfl
  · rw [if_neg hSame]
    exact h.resolve_left hSame

theorem confirmedIn_upsertEvents
    (h : (∃ event ∈ events, id = (event.txHash, event.eventIndex)) ∨ ConfirmedIn table id) :
    ConfirmedIn (events.foldl (upsertEvent header) table) id := by
  induction events generalizing table with
  | nil =>
    rcases h with ⟨event, hEvent, -⟩ | hOld
    · cases hEvent
    · exact hOld
  | cons event rest ih =>
    apply ih
    rcases h with ⟨named, hNamed, hId⟩ | hOld
    · rcases List.mem_cons.mp hNamed with rfl | hRest
      · exact Or.inr (confirmedIn_upsertEvent named (Or.inl hId))
      · exact Or.inl ⟨named, hRest, hId⟩
    · exact Or.inr (confirmedIn_upsertEvent event (Or.inr hOld))

theorem recorded_record (sha256 : String → String) :
    Recorded (recordLedgerIngestion sha256 header events chain) events :=
  fun event hEvent => confirmedIn_upsertEvents (Or.inl ⟨event, hEvent, rfl⟩)

theorem Recorded.record {others : List IndexerChainEvent} (h : Recorded chain others)
    (sha256 : String → String) :
    Recorded (recordLedgerIngestion sha256 header events chain) others :=
  fun event hEvent => confirmedIn_upsertEvents (Or.inr (h event hEvent))

-- Ledgers Fetched Again
----

variable {config : GuardConfig} {deps : ReorgGuardDeps}

def ReorgGuardDeps.headerOf (deps : ReorgGuardDeps) (n : Int) : Option LedgerHeader :=
  deps.fetchHeader.bind fun fetchHeader => fetchHeader n

def ReorgGuardDeps.eventsOf (deps : ReorgGuardDeps) (n : Int) : List IndexerChainEvent :=
  (deps.fetchEvents.map fun fetchEvents => fetchEvents n).getD []

/- What ingesting `reingested` again has made of `before`. -/
structure Reingested (deps : ReorgGuardDeps) (before : ChainDb) (reingested : List Int)
    (after : ChainDb) : Prop where
  checkpoint :
    ∀ n, after.checkpoint? n ≠ none ↔ before.checkpoint? n ≠ none ∨ ∃ m ∈ reingested, ∃ canonical,
      deps.headerOf m = some canonical ∧ canonical.sequence = n
  recorded : ∀ n ∈ reingested, Recorded after (deps.eventsOf n)
  kept : ∀ events, Recorded before events → Recorded after events

theorem Reingested.nil (chain : ChainDb) : Reingested deps chain [] chain := by
  constructor
  · intro n
    simp
  · intro n hn
    cases hn
  · exact fun _ h => h

theorem Reingested.cons {before after : ChainDb} {canonical : LedgerHeader} {reingested : List Int}
    (hHeader : deps.headerOf n = some canonical)
    (h : Reingested deps (recordLedgerIngestion config.sha256 canonical (deps.eventsOf n) before)
      reingested after) :
    Reingested deps before (n :: reingested) after := by
  constructor
  · intro m
    rw [h.checkpoint, checkpoint?_record]
    constructor
    · rintro (hStored | ⟨k, hk, other, hOther, hSequence⟩)
      · by_cases hSame : m = canonical.sequence
        · exact Or.inr ⟨n, List.mem_cons_self, canonical, hHeader, hSame.symm⟩
        · rw [if_neg hSame] at hStored
          exact Or.inl hStored
      · exact Or.inr ⟨k, List.mem_cons_of_mem _ hk, other, hOther, hSequence⟩
    · rintro (hStored | ⟨k, hk, other, hOther, hSequence⟩)
      · left
        split
        · simp
        · exact hStored
      · rcases List.mem_cons.mp hk with rfl | hRest
        · rw [hHeader] at hOther
          cases hOther
          left
          rw [if_pos hSequence.symm]
          simp
        · exact Or.inr ⟨k, hRest, other, hOther, hSequence⟩
  · intro m hm
    rcases List.mem_cons.mp hm with rfl | hRest
    · exact h.kept _ (recorded_record config.sha256)
    · exact h.recorded m hRest
  · intro events hRecorded
    exact h.kept _ (hRecorded.record config.sha256)

/- How far the replay of a range of ledgers has come. -/
structure ReplayOf (deps : ReorgGuardDeps) (seq : Int) (ledgers : Nat)
    (reingested : List Int) : Prop where
  within : ∀ n ∈ reingested, seq ≤ n ∧ n < seq + ledgers ∧ deps.headerOf n ≠ none
  complete : (∀ n, seq ≤ n → n < seq + ledgers → deps.headerOf n ≠ none) →
    ∀ n, seq ≤ n → n < seq + ledgers → n ∈ reingested

variable {seq : Int} {ledgers : Nat} {reingested : List Int}

theorem ReplayOf.empty (seq : Int) : ReplayOf deps seq 0 [] where
  within := by
    intro n hn
    cases hn
  complete := by
    intro _ n hLow hHigh
    push_cast at hHigh
    omega

theorem ReplayOf.stopped (hUnknown : deps.headerOf seq = none) :
    ReplayOf deps seq (ledgers + 1) [] where
  within := by
    intro n hn
    cases hn
  complete := by
    intro hAll
    have hSeq := hAll seq (le_refl _) (by push_cast; omega)
    exact absurd hUnknown hSeq

theorem ReplayOf.cons (h : ReplayOf deps (seq + 1) ledgers reingested)
    (hKnown : deps.headerOf seq ≠ none) :
    ReplayOf deps seq (ledgers + 1) (seq :: reingested) := by
  constructor
  · intro n hn
    rcases List.mem_cons.mp hn with rfl | hRest
    · exact ⟨le_refl _, by push_cast; omega, hKnown⟩
    · rcases h.within n hRest with ⟨hLow, hHigh, hFetched⟩
      refine ⟨by omega, ?_, hFetched⟩
      push_cast
      omega
  · intro hAll n hLow hHigh
    by_cases hSame : n = seq
    · rw [hSame]
      exact List.mem_cons_self
    · apply List.mem_cons_of_mem
      push_cast at hAll hHigh
      apply h.complete
      · exact fun m hm hm' => hAll m (by omega) (by omega)
      · omega
      · omega

theorem ensures_reingest {fetchHeader : Int → Option LedgerHeader}
    {fetchEvents : Int → List IndexerChainEvent} (hHeaders : deps.fetchHeader = some fetchHeader)
    (hEvents : deps.fetchEvents = some fetchEvents) (ledgers : Nat) (seq : Int) (db : Database) :
    (reingest config deps fetchHeader fetchEvents seq ledgers).Ensures db (fun reingested db' =>
      Reingested deps db.chain reingested db'.chain ∧ ReplayOf deps seq ledgers reingested)
      (fun _ => True) := by
  have hHeaderOf : ∀ n, deps.headerOf n = fetchHeader n := by
    intro n
    rw [ReorgGuardDeps.headerOf, hHeaders]
    rfl
  have hEventsOf : ∀ n, deps.eventsOf n = fetchEvents n := by
    intro n
    rw [ReorgGuardDeps.eventsOf, hEvents]
    rfl
  induction ledgers generalizing seq db with
  | zero => exact ensures_pure ⟨.nil _, .empty seq⟩
  | succ ledgers ih =>
    unfold reingest
    cases hHeader : fetchHeader seq with
    | none =>
      have hUnknown : deps.headerOf seq = none := (hHeaderOf seq).trans hHeader
      exact ensures_pure ⟨.nil _, .stopped hUnknown⟩
    | some canonical =>
      apply Ensures.bind
      · exact ensures_ingestOne (Q := fun chain => chain =
          recordLedgerIngestion config.sha256 canonical (fetchEvents seq) db.chain)
          (E := fun _ => True) rfl trivial
      intro _ db' hChain
      apply Ensures.bind (ih (seq + 1) db')
      rintro reingested db'' ⟨hReingested, hReplay⟩
      rw [hChain, ← hEventsOf] at hReingested
      have hKnown : deps.headerOf seq = some canonical := (hHeaderOf seq).trans hHeader
      refine ensures_pure ⟨hReingested.cons hKnown, ?_⟩
      apply hReplay.cons
      rw [hKnown]
      simp

end

-- Lost Ledgers
----

variable {config : GuardConfig} {deps : ReorgGuardDeps} {header : LedgerHeader}
variable {events : List IndexerChainEvent} {forkPoint sequence : Int}

/-
  Both sources are there, and the incoming chain knows every
  ledger between the fork point and the incoming ledger.
-/
structure Refetchable (deps : ReorgGuardDeps) (forkPoint sequence : Int) : Prop where
  events : deps.fetchEvents ≠ none
  header : ∀ n, forkPoint < n → n < sequence → deps.headerOf n ≠ none
  carried : ∀ n, forkPoint < n → n < sequence → ∃ m canonical, forkPoint < m ∧ m < sequence ∧
    deps.headerOf m = some canonical ∧ canonical.sequence = n

/- What a recovery has put back below the incoming ledger. -/
structure Recovered (deps : ReorgGuardDeps) (forkPoint sequence : Int) (reingested : List Int)
    (chain : ChainDb) : Prop where
  recorded : ∀ n ∈ reingested, Recorded chain (deps.eventsOf n)
  complete : (∀ n, forkPoint < n → n < sequence → chain.checkpoint? n ≠ none ∧ n ∈ reingested) ↔
    Refetchable deps forkPoint sequence

theorem Reingested.recovered {before after : ChainDb} {reingested : List Int}
    (h : Reingested deps before reingested after)
    (hReplay : ReplayOf deps (forkPoint + 1) (sequence - (forkPoint + 1)).toNat reingested)
    (hEvents : deps.fetchEvents ≠ none)
    (hBefore : ∀ n, forkPoint < n → before.checkpoint? n = none) :
    Recovered deps forkPoint sequence reingested after := by
  refine ⟨h.recorded, ?_, ?_⟩
  · intro hAll
    refine ⟨hEvents, ?_, ?_⟩
    · intro n hLow hHigh
      exact (hReplay.within n (hAll n hLow hHigh).2).2.2
    · intro n hLow hHigh
      have hStored := (h.checkpoint n).mp (hAll n hLow hHigh).1
      rw [hBefore n hLow] at hStored
      rcases hStored with hOld | ⟨m, hm, canonical, hFetched, hn⟩
      · exact absurd rfl hOld
      · rcases hReplay.within m hm with ⟨hLow', hHigh', -⟩
        exact ⟨m, canonical, by omega, by omega, hFetched, hn⟩
  · intro hRefetchable
    have hComplete : ∀ n, forkPoint < n → n < sequence → n ∈ reingested := by
      intro n hLow hHigh
      apply hReplay.complete
      · exact fun m hm hm' => hRefetchable.header m (by omega) (by omega)
      · omega
      · omega
    intro n hLow hHigh
    refine ⟨?_, hComplete n hLow hHigh⟩
    rcases hRefetchable.carried n hLow hHigh with ⟨m, canonical, hLow', hHigh', hFetched, hn⟩
    rw [h.checkpoint]
    exact Or.inr ⟨m, hComplete m hLow' hHigh', canonical, hFetched, hn⟩

/- Without both sources, nothing is put back. -/
theorem recovered_nil {chain : ChainDb} (hOpen : forkPoint + 1 < sequence)
    (hSources : deps.fetchHeader = none ∨ deps.fetchEvents = none) :
    Recovered deps forkPoint sequence [] chain := by
  refine ⟨?_, ?_, ?_⟩
  · intro n hn
    cases hn
  · intro hAll
    cases (hAll (forkPoint + 1) (by omega) hOpen).2
  · intro hRefetchable
    rcases hSources with hHeaders | hEvents
    · have hFetched := hRefetchable.header (forkPoint + 1) (by omega) hOpen
      unfold ReorgGuardDeps.headerOf at hFetched
      rw [hHeaders] at hFetched
      exact absurd rfl hFetched
    · exact absurd hEvents hRefetchable.events

variable {db : Database}

theorem recovered_reingestUpTo (hOpen : forkPoint + 1 < sequence)
    (hBefore : ∀ n, forkPoint < n → db.chain.checkpoint? n = none) :
    (reingestUpTo config deps forkPoint sequence).Ensures db (fun reingested db' =>
      Recovered deps forkPoint sequence reingested db'.chain) (fun _ => True) := by
  unfold reingestUpTo
  split
  · rename_i fetchHeader fetchEvents hHeaders hEvents
    refine (ensures_reingest hHeaders hEvents _ _ db).imp ?_ fun _ h => h
    rintro reingested db' ⟨hReingested, hReplay⟩
    apply hReingested.recovered hReplay _ hBefore
    rw [hEvents]
    exact Option.some_ne_none _
  · rename_i hMissing
    apply ensures_pure
    apply recovered_nil hOpen
    cases hHeaders : deps.fetchHeader with
    | none => exact Or.inl rfl
    | some fetchHeader =>
      right
      cases hEvents : deps.fetchEvents with
      | none => rfl
      | some fetchEvents => exact (hMissing _ _ hHeaders hEvents).elim

theorem recovered_recoverFromReorg
    (hReorg : diverges header (db.chain.checkpoint? (header.sequence - 1)) = true) :
    (recoverFromReorg config deps header).Ensures db (fun outcome db' => Recovered deps
      (findForkPoint header deps.fetchHeader db.chain)
      header.sequence outcome.reingestedLedgers db'.chain) (fun _ => True) := by
  have hForkPoint := @findForkPoint_lt db.chain header deps.fetchHeader hReorg
  apply ensures_query_bind
  apply Ensures.bind
  · apply ensures_execute (Q := fun _ s' => s'.chain = rollbackChain config.indexer
      (findForkPoint header deps.fetchHeader db.chain) db.chain)
    · exact fun _ _ hOk => rollbackToLedger_chain hOk
    · trivial
  intro counts rolled hChain
  have hRolled : ∀ n, findForkPoint header deps.fetchHeader db.chain < n →
      rolled.chain.checkpoint? n = none := by
    intro n hn
    rw [hChain, checkpoint?_rollbackChain, if_pos hn]
  apply Ensures.bind (recovered_reingestUpTo (by omega) hRolled)
  intro reingestedLedgers db' hRecovered
  exact ensures_pure hRecovered

theorem recovered_ingestLedger {db : Database}
    (hReorg : diverges header (db.chain.checkpoint? (header.sequence - 1)) = true) :
    (ingestLedger config deps header events).Ensures db (fun result db' => Recovered deps
      (findForkPoint header deps.fetchHeader db.chain)
      header.sequence result.reingestedLedgers db'.chain ∧
      db'.chain.checkpoint? header.sequence ≠ none ∧ Recorded db'.chain events)
      (fun _ => True) := by
  apply ensures_query_bind
  unfold checkLinkage
  rw [if_pos hReorg]
  apply Ensures.bind (recovered_recoverFromReorg hReorg)
  intro outcome recovered hRecovered
  apply Ensures.bind
  · exact ensures_ingestOne (Q := fun chain => chain = recordLedgerIngestion config.sha256 header
      (dedupeChainEvents events) recovered.chain) (E := fun _ => True) rfl trivial
  intro _ db' hChain
  apply ensures_pure
  rw [hChain]
  refine ⟨⟨?_, ?_⟩, ?_, ?_⟩
  · exact fun n hn => (hRecovered.recorded n hn).record config.sha256
  · rw [← hRecovered.complete]
    apply forall_congr'
    intro n
    apply imp_congr_right
    intro _
    apply imp_congr_right
    intro hHigh
    rw [checkpoint?_record, if_neg (by omega)]
  · rw [checkpoint?_record, if_pos rfl]
    exact Option.some_ne_none _
  · have hRecorded :=
      @recorded_record recovered.chain header (dedupeChainEvents events) config.sha256
    unfold Recorded at hRecorded ⊢
    rwa [dedupe_dedupe] at hRecorded

/-
  A ledger was ingested by the call: it has a checkpoint, and
  the events of the canonical chain are stored as confirmed.
-/
structure Processed (deps : ReorgGuardDeps) (header : LedgerHeader)
    (events : List IndexerChainEvent) (result : IngestLedgerResult) (chain : ChainDb)
    (n : Int) : Prop where
  ingested : n = header.sequence ∨ n ∈ result.reingestedLedgers
  checkpointed : chain.checkpoint? n ≠ none
  recorded : Recorded chain (if n = header.sequence then events
    else deps.eventsOf n)

/-
  After a recovery, every ledger above the fork point was
  processed or is still ahead of the resume point exactly when
  the sources know all ledgers up to the incoming one.
-/
theorem no_lost_ledgers_iff {db db' : Database} {result : IngestLedgerResult}
    (hReorg : diverges header (db.chain.checkpoint? (header.sequence - 1)) = true)
    (hRun : (ingestLedger config deps header events).run db = (.ok result, db')) :
    (∀ n, findForkPoint header deps.fetchHeader db.chain < n → n ≤ header.sequence →
      Processed deps header events result db'.chain n ∨ getResumePoint db'.chain ≤ n) ↔
      Refetchable deps (findForkPoint header deps.fetchHeader db.chain) header.sequence := by
  have hEnsures := @recovered_ingestLedger config deps header events db hReorg
  unfold Ensures at hEnsures
  rw [hRun] at hEnsures
  rcases hEnsures with ⟨hRecovered, hStored, hRecorded⟩
  have hResume := lt_getResumePoint hStored
  rw [← hRecovered.complete]
  constructor
  · intro hKept n hLow hHigh
    rcases hKept n hLow (by omega) with hProcessed | hAhead
    · refine ⟨hProcessed.checkpointed, ?_⟩
      exact hProcessed.ingested.resolve_left (by omega)
    · omega
  · intro hAll n hLow hHigh
    left
    by_cases hTip : n = header.sequence
    · refine ⟨Or.inl hTip, ?_, ?_⟩
      · rw [hTip]
        exact hStored
      · rw [if_pos hTip]
        exact hRecorded
    · have hBelow := hAll n hLow (by omega)
      refine ⟨Or.inr hBelow.2, hBelow.1, ?_⟩
      rw [if_neg hTip]
      exact hRecovered.recorded n hBelow.2

/- Ledgers 100 and 101 are stored; 101 is off the chain. -/
def forkedDatabase : Database :=
  (ingestLedger sampleGuard sampleDeps ⟨101, "F", some "A"⟩ [sampleBuy "u" 101]).final
    ((ingestLedger sampleGuard sampleDeps ⟨100, "A", none⟩ [sampleBuy "t" 100]).final freshDatabase)

/- A call that can fetch the ledger it rolled back. -/
def refetchingCall : GuardCall :=
  sampleCall [(⟨100, "A", none⟩, [sampleBuy "t" 100]), (⟨101, "C", some "A"⟩, [sampleBuy "v" 101])]
    ⟨102, "D", some "C"⟩ []

/- What the guard reports when it put `reingested` back. -/
def reorgAt100 (reingested : List Int) : IngestLedgerResult where
  reorgDetected := true
  forkPoint := some 100
  reorgedLedgerCount := 1
  affectedEventCount := 1
  sequence := 102
  eventsIngested := 0
  reingestedLedgers := reingested

theorem no_lost_ledgers_sample :
    ∃ result db', (ingestLedger refetchingCall.config refetchingCall.deps
      refetchingCall.header refetchingCall.events).run forkedDatabase = (.ok result, db') ∧ ∀ n,
      findForkPoint refetchingCall.header refetchingCall.deps.fetchHeader
        forkedDatabase.chain < n → n ≤ 102 → Processed refetchingCall.deps refetchingCall.header
          refetchingCall.events result db'.chain n ∨
          getResumePoint db'.chain ≤ n := by
  have hFork :
      findForkPoint refetchingCall.header refetchingCall.deps.fetchHeader forkedDatabase.chain =
        100 := by decide +kernel
  have hKnown : refetchingCall.deps.headerOf 101 =
      some ⟨101, "C", some "A"⟩ := by decide
  have hRun : (ingestLedger refetchingCall.config refetchingCall.deps
      refetchingCall.header refetchingCall.events).run
        forkedDatabase = (.ok (reorgAt100 [101]), _) :=
    Prod.ext (by decide +kernel) rfl
  refine ⟨_, _, hRun, (no_lost_ledgers_iff (by decide +kernel) hRun).mpr
    ⟨Option.some_ne_none _, ?_, ?_⟩⟩
  · intro n hLow hHigh
    rw [hFork] at hLow
    change n < 102 at hHigh
    obtain rfl : n = 101 := by omega
    rw [hKnown]
    exact Option.some_ne_none _
  · intro n hLow hHigh
    rw [hFork] at hLow ⊢
    change n < 102 at hHigh
    obtain rfl : n = 101 := by omega
    exact ⟨101, _, by omega, hHigh, hKnown, rfl⟩

/- The same call, when ledger 101 is not known. -/
def skippingCall : GuardCall := sampleCall [] ⟨102, "D", some "C"⟩ []

/-
  Ledger 101 is rolled back and not ingested again; ledger 102
  is recorded, and the indexer resumes at 103.
-/
theorem skipped_ledger_is_lost :
    diverges skippingCall.header (forkedDatabase.chain.checkpoint? 101) = true ∧
      findForkPoint skippingCall.header skippingCall.deps.fetchHeader forkedDatabase.chain = 100 ∧
      ∃ result db', (ingestLedger skippingCall.config skippingCall.deps
        skippingCall.header skippingCall.events).run forkedDatabase = (.ok result, db') ∧
        db'.chain.checkpoint? 101 = none ∧ getResumePoint db'.chain = 103 ∧
        ¬∀ n, 100 < n → n ≤ 102 → Processed skippingCall.deps skippingCall.header
          skippingCall.events result db'.chain n ∨
          getResumePoint db'.chain ≤ n := by
  have hRun : (ingestLedger skippingCall.config skippingCall.deps
      skippingCall.header skippingCall.events).run forkedDatabase = (.ok (reorgAt100 []), _) :=
    Prod.ext (by decide +kernel) rfl
  have hMissing : ((ingestLedger skippingCall.config skippingCall.deps
      skippingCall.header skippingCall.events).run
        forkedDatabase).2.chain.checkpoint? 101 = none := by decide +kernel
  have hResume : getResumePoint ((ingestLedger skippingCall.config skippingCall.deps
      skippingCall.header skippingCall.events).run
        forkedDatabase).2.chain = 103 := by decide +kernel
  refine ⟨by decide +kernel, by decide +kernel, _, _, hRun, hMissing, hResume, ?_⟩
  intro hKept
  rcases hKept 101 (by omega) (by omega) with hProcessed | hAhead
  · exact hProcessed.checkpointed hMissing
  · rw [hResume] at hAhead
    omega

end Indexer

end AccessLayer
