import AccessLayer.Indexer.ReorgGuard
import AccessLayer.Library.Runs

/-
  Whether the stored ledgers form a chain.

  Consecutive checkpoints link by their hashes, and confirmed
  events carry the hash of their ledger's checkpoint.  Rollbacks
  always keep this; ledgers keep it when they do not replace a
  stored ledger under another hash, and fetched ledgers when
  they link onto the checkpoint that is kept below them.

  Main result: `chain_linked`
-/

-- Linked Chains
----

namespace AccessLayer

namespace Indexer

open Transactional

section

variable {chain : ChainDb} {header : LedgerHeader} {events : List IndexerChainEvent}

/- Hashes that are both present agree. -/
def Linked (parentHash childNames : Option String) : Prop :=
  present parentHash ≠ none → present childNames ≠ none → present childNames = present parentHash

instance (a b : Option String) : Decidable (Linked a b) := inferInstanceAs (Decidable (_ → _ → _))

/- Checkpoints link, and confirmed events are attributed. -/
structure ChainLinked (chain : ChainDb) : Prop where
  linked : ∀ parent ∈ chain.ledgerCheckpoint.rows, ∀ child ∈ chain.ledgerCheckpoint.rows,
    child.ledger = parent.ledger + 1 → Linked parent.ledgerHash child.previousLedgerHash
  attributed : ∀ event ∈ chain.ingestedEvent.rows, event.status = .confirmed →
    chain.hashOf event.ledgerSequence = some event.ledgerHash

theorem chainLinked_iff :
    ChainLinked chain ↔ (∀ parent ∈ chain.ledgerCheckpoint.rows,
      ∀ child ∈ chain.ledgerCheckpoint.rows, child.ledger = parent.ledger + 1 →
        Linked parent.ledgerHash child.previousLedgerHash) ∧ ∀ event ∈ chain.ingestedEvent.rows,
      event.status = .confirmed → chain.hashOf event.ledgerSequence = some event.ledgerHash :=
  ⟨fun h => ⟨h.linked, h.attributed⟩, fun h => ⟨h.1, h.2⟩⟩

instance (chain : ChainDb) : Decidable (ChainLinked chain) := decidable_of_iff' _ chainLinked_iff

theorem chainLinked_of_lookups (hLinked :
    ∀ n parent child, chain.checkpoint? n = some parent → chain.checkpoint? (n + 1) = some child →
      Linked parent.ledgerHash child.previousLedgerHash)
    (hAttributed : ∀ event ∈ chain.ingestedEvent.rows, event.status = .confirmed →
      chain.hashOf event.ledgerSequence = some event.ledgerHash) :
    ChainLinked chain := by
  constructor
  · intro parent hParent child hChild hNext
    apply hLinked parent.ledger parent child
    · exact Table.find?_of_mem hParent
    · rw [← hNext]
      exact Table.find?_of_mem hChild
  · exact hAttributed

theorem ChainLinked.at (h : ChainLinked chain) {n : Int} {parent child : LedgerCheckpoint}
    (hParent : chain.checkpoint? n = some parent)
    (hChild : chain.checkpoint? (n + 1) = some child) :
    Linked parent.ledgerHash child.previousLedgerHash := by
  apply h.linked parent (Table.mem_of_find? hParent) child (Table.mem_of_find? hChild)
  have hParentKey : parent.ledger = n := Table.key_of_find? hParent
  have hChildKey : child.ledger = n + 1 := Table.key_of_find? hChild
  rw [hParentKey, hChildKey]

theorem linked_none (childNames : Option String) : Linked none childNames := by
  intro hParent
  exact absurd rfl hParent

theorem linked_of_clean {storedParent : Option LedgerCheckpoint}
    (hClean : diverges header storedParent = false) :
    Linked (storedParent.bind LedgerCheckpoint.ledgerHash) header.previousLedgerHash := by
  intro hParent hChild
  cases storedParent with
  | none => exact absurd rfl hParent
  | some parent =>
    rcases Option.ne_none_iff_exists'.mp hParent with ⟨stored, hStored⟩
    rcases Option.ne_none_iff_exists'.mp hChild with ⟨incoming, hIncoming⟩
    have hStored' : present parent.ledgerHash = some stored := hStored
    simp only [diverges, Option.bind_some, hStored', hIncoming] at hClean
    rw [hIncoming, hStored]
    simpa using hClean

end

-- Rollbacks
----

section

variable {config : IndexerConfig} {forkPoint : Int} {chain : ChainDb}

/- No ledger from `n` on is stored or confirmed. -/
structure EndsBefore (n : Int) (chain : ChainDb) : Prop where
  checkpoint : ∀ m, n ≤ m → chain.checkpoint? m = none
  event : ∀ event ∈ chain.ingestedEvent.rows, event.status = .confirmed → event.ledgerSequence < n

theorem EndsBefore.mono {m n : Int} (h : EndsBefore m chain) (hLe : m ≤ n) :
    EndsBefore n chain := by
  constructor
  · intro k hk
    exact h.checkpoint k (by omega)
  · intro event hMem hConfirmed
    have hBefore := h.event event hMem hConfirmed
    omega

theorem checkpoint?_rollbackChain (n : Int) :
    (rollbackChain config forkPoint chain).checkpoint? n =
      if forkPoint < n then none else chain.checkpoint? n := by
  unfold rollbackChain ChainDb.checkpoint?
  rw [Table.find?_deleteMany]
  cases hRow : chain.ledgerCheckpoint.find? n with
  | none => simp
  | some row =>
    have hKey : row.ledger = n := Table.key_of_find? hRow
    by_cases hAfter : forkPoint < n
    · simp [hKey, hAfter]
    · simp [hKey, hAfter]

theorem mem_rollbackChain {event : IngestedEvent}
    (hMem : event ∈ (rollbackChain config forkPoint chain).ingestedEvent.rows)
    (hConfirmed : event.status = .confirmed) :
    event ∈ chain.ingestedEvent.rows ∧ event.ledgerSequence ≤ forkPoint := by
  rcases List.mem_map.mp hMem with ⟨row, hRow, hEq⟩
  by_cases hReorged : forkPoint < row.ledgerSequence ∧ row.status = .confirmed
  · rw [if_pos (by simpa using hReorged)] at hEq
    rw [← hEq] at hConfirmed
    cases hConfirmed
  · rw [if_neg (by simpa using hReorged)] at hEq
    subst hEq
    refine ⟨hRow, ?_⟩
    by_contra hAfter
    exact hReorged ⟨not_le.mp hAfter, hConfirmed⟩

theorem endsBefore_rollbackChain :
    EndsBefore (forkPoint + 1) (rollbackChain config forkPoint chain) := by
  constructor
  · intro m hm
    rw [checkpoint?_rollbackChain, if_pos (by omega)]
  · intro event hMem hConfirmed
    have hBelow := (mem_rollbackChain hMem hConfirmed).2
    omega

theorem linked_rollbackChain (h : ChainLinked chain) :
    ChainLinked (rollbackChain config forkPoint chain) := by
  apply chainLinked_of_lookups
  · intro n parent child hParent hChild
    rw [checkpoint?_rollbackChain] at hParent hChild
    split at hParent
    · cases hParent
    · split at hChild
      · cases hChild
      · exact h.at hParent hChild
  · intro event hMem hConfirmed
    rcases mem_rollbackChain hMem hConfirmed with ⟨hOld, hBelow⟩
    unfold ChainDb.hashOf
    rw [checkpoint?_rollbackChain, if_neg (by omega)]
    exact h.attributed event hOld hConfirmed

end

-- Recorded Ledgers
----

section

variable {sha256 : String → String} {chain : ChainDb} {header : LedgerHeader}
variable {events : List IndexerChainEvent}

theorem mem_upsertEvents {table : Table IngestedEvent} {row : IngestedEvent}
    (hMem : row ∈ (events.foldl (upsertEvent header) table).rows) :
    (∃ event ∈ events, row.ledgerSequence = event.ledger.getD header.sequence ∧
      row.ledgerHash = header.hash) ∨ (row ∈ table.rows ∧ ∀ event ∈ events,
      (event.txHash, event.eventIndex) ≠ (row.txHash, row.eventIndex)) := by
  induction events generalizing table with
  | nil =>
    right
    exact ⟨hMem, fun event hEvent => by cases hEvent⟩
  | cons event rest ih =>
    rcases ih hMem with ⟨later, hLater, hFields⟩ | ⟨hOld, hOthers⟩
    · exact .inl ⟨later, List.mem_cons_of_mem _ hLater, hFields⟩
    · have hFound := Table.find?_of_mem hOld
      unfold upsertEvent at hFound
      rw [Table.find?_upsert] at hFound
      by_cases hSame : key row = key (toIngestedEventFields event header)
      · left
        rw [if_pos hSame] at hFound
        refine ⟨event, List.mem_cons_self, ?_⟩
        cases hStored : table.find? (key row) with
        | none =>
          rw [hStored] at hFound
          cases hFound
          exact ⟨rfl, rfl⟩
        | some stored =>
          rw [hStored] at hFound
          rcases Option.some.inj hFound with rfl
          exact ⟨rfl, rfl⟩
      · right
        rw [if_neg hSame] at hFound
        refine ⟨Table.mem_of_find? hFound, ?_⟩
        intro event' hEvent'
        rcases List.mem_cons.mp hEvent' with rfl | hRest
        · exact Ne.symm hSame
        · exact hOthers event' hRest

/- Every event names the ledger or none. -/
def EventsFit (sequence : Int) (events : List IndexerChainEvent) : Prop :=
  ∀ event ∈ dedupeChainEvents events, event.ledger.getD sequence = sequence

/-
  A stored ledger is not replaced under another hash: its child
  names the hash, and so does every confirmed event that is not
  delivered again.
-/
structure Supersedes (chain : ChainDb) (header : LedgerHeader)
    (events : List IndexerChainEvent) : Prop where
  child : ∀ row ∈ chain.ledgerCheckpoint.rows, row.ledger = header.sequence + 1 →
    Linked (some header.hash) row.previousLedgerHash
  event : ∀ row ∈ chain.ingestedEvent.rows, row.status = .confirmed →
    row.ledgerSequence = header.sequence → row.ledgerHash = header.hash ∨
      (row.txHash, row.eventIndex) ∈ (dedupeChainEvents events).map fun event =>
        (event.txHash, event.eventIndex)

theorem EndsBefore.supersedes (h : EndsBefore header.sequence chain) :
    Supersedes chain header events := by
  constructor
  · intro row hMem hNext
    have hNone := h.checkpoint row.ledger (by omega)
    cases (Table.find?_of_mem hMem).symm.trans hNone
  · intro row hMem hConfirmed hSame
    have hBefore := h.event row hMem hConfirmed
    omega

theorem linked_record (h : ChainLinked chain) (hEvents : EventsFit header.sequence events)
    (hParent : Linked (chain.hashOf (header.sequence - 1)) header.previousLedgerHash)
    (hSupersedes : Supersedes chain header events) :
    ChainLinked (recordLedgerIngestion sha256 header events chain) := by
  apply chainLinked_of_lookups
  · intro n parent child hFound hNext
    rw [checkpoint?_record] at hFound hNext
    by_cases hSame : n = header.sequence
    · rw [if_pos hSame] at hFound
      rw [if_neg (by omega)] at hNext
      cases hFound
      have hKey : child.ledger = n + 1 := Table.key_of_find? hNext
      exact hSupersedes.child child (Table.mem_of_find? hNext) (by omega)
    · rw [if_neg hSame] at hFound
      by_cases hChild : n + 1 = header.sequence
      · rw [if_pos hChild] at hNext
        cases hNext
        have hHash : chain.hashOf (header.sequence - 1) =
            parent.ledgerHash := by
          unfold ChainDb.hashOf
          rw [← hChild, Int.add_sub_cancel, hFound]
          rfl
        rw [hHash] at hParent
        exact hParent
      · rw [if_neg hChild] at hNext
        exact h.at hFound hNext
  · intro row hMem hConfirmed
    unfold ChainDb.hashOf
    rw [checkpoint?_record]
    rcases mem_upsertEvents hMem with ⟨event, hEvent, hLedger, hHash⟩ | ⟨hOld, hOthers⟩
    · rw [hEvents event hEvent] at hLedger
      rw [if_pos hLedger, hHash]
      rfl
    · by_cases hSame : row.ledgerSequence = header.sequence
      · rw [if_pos hSame]
        rcases hSupersedes.event row hOld hConfirmed hSame with hHash | hAgain
        · rw [hHash]
          rfl
        · rcases List.mem_map.mp hAgain with ⟨event, hEvent, hKey⟩
          exact absurd hKey (hOthers event hEvent)
      · rw [if_neg hSame]
        exact h.attributed row hOld hConfirmed

/- The ledger becomes the last one. -/
theorem endsBefore_record (h : EndsBefore header.sequence chain)
    (hEvents : EventsFit header.sequence events) :
    EndsBefore (header.sequence + 1) (recordLedgerIngestion sha256 header events chain) := by
  constructor
  · intro m hm
    rw [checkpoint?_record, if_neg (by omega)]
    exact h.checkpoint m (by omega)
  · intro row hMem hConfirmed
    rcases mem_upsertEvents hMem with ⟨event, hEvent, hLedger, -⟩ | ⟨hOld, -⟩
    · rw [hEvents event hEvent] at hLedger
      omega
    · have hBefore := h.event row hOld hConfirmed
      omega

end

-- Recovery
----

section

open Program

variable {config : GuardConfig} {deps : ReorgGuardDeps} {header : LedgerHeader}
variable {events : List IndexerChainEvent}

/-
  Fetched ledgers, as far as they are known, are the ledgers
  asked for, link onto each other from `parentHash` on, and end
  at the parent of `header`.
-/
def SourceFits (header : LedgerHeader) (fetchHeader : Int → Option LedgerHeader)
    (fetchEvents : Int → List IndexerChainEvent) (parentHash : Option String)
    (seq : Int) : Nat → Prop
  | 0 => Linked parentHash header.previousLedgerHash
  | ledgers + 1 =>
    ∀ canonical ∈ fetchHeader seq, canonical.sequence = seq ∧ EventsFit seq (fetchEvents seq) ∧
      Linked parentHash canonical.previousLedgerHash ∧ SourceFits header fetchHeader fetchEvents
        (some canonical.hash) (seq + 1) ledgers

instance (sequence : Int) (events : List IndexerChainEvent) :
    Decidable (EventsFit sequence events) := inferInstanceAs (Decidable (∀ event ∈ _, _))

instance decidableSourceFits (header : LedgerHeader) (fetchHeader : Int → Option LedgerHeader)
    (fetchEvents : Int → List IndexerChainEvent) :
    ∀ parentHash seq ledgers, Decidable (SourceFits header fetchHeader fetchEvents parentHash seq
      ledgers)
  | _, _, 0 => inferInstanceAs (Decidable (Linked _ _))
  | _, seq, ledgers + 1 =>
    have := fun canonical : LedgerHeader => decidableSourceFits header fetchHeader fetchEvents
        (some canonical.hash) (seq + 1) ledgers
    inferInstanceAs (Decidable (∀ canonical ∈ fetchHeader seq, _ ∧ _ ∧ _ ∧ _))

variable {db : Database}

theorem ensures_ingestOne {Q E : ChainDb → Prop} (hRecorded :
    Q (recordLedgerIngestion config.sha256 header events db.chain)) (hFailed : E db.chain) :
    (ingestOne config deps header events).Ensures db
      (fun _ db' => Q db'.chain) (fun db' => E db'.chain) := by
  unfold Ensures
  rw [run_ingestOne]
  cases (deps.processEvents events).run db.trade with
  | mk result trade =>
    cases result with
    | ok _ => exact hRecorded
    | error e => exact hFailed

/- The last stored ledger is one that the header links onto. -/
def ReadyFor (header : LedgerHeader) (chain : ChainDb) : Prop :=
  EndsBefore header.sequence chain ∧ Linked (chain.hashOf (header.sequence - 1))
    header.previousLedgerHash

/- Ledgers that end early leave the parent unknown. -/
theorem EndsBefore.readyFor {chain : ChainDb} {n : Int} (h : EndsBefore n chain)
    (hBefore : n < header.sequence) :
    ReadyFor header chain := by
  constructor
  · exact h.mono (by omega)
  · unfold ChainDb.hashOf
    rw [h.checkpoint _ (by omega)]
    exact linked_none _

theorem linked_reingest {fetchHeader : Int → Option LedgerHeader}
    {fetchEvents : Int → List IndexerChainEvent} {seq : Int} {ledgers : Nat}
    (hSequence : seq + ledgers = header.sequence) (hLinked : ChainLinked db.chain)
    (hEnds : EndsBefore seq db.chain)
    (hSource : SourceFits header fetchHeader fetchEvents (db.chain.hashOf (seq - 1)) seq ledgers) :
    (reingest config deps fetchHeader fetchEvents seq ledgers).Ensures db (fun _ db' =>
      ChainLinked db'.chain ∧ ReadyFor header db'.chain)
      (fun db' => ChainLinked db'.chain) := by
  induction ledgers generalizing seq db with
  | zero =>
    have hSeq : seq = header.sequence := by simpa using hSequence
    subst hSeq
    exact ensures_pure ⟨hLinked, hEnds, hSource⟩
  | succ ledgers ih =>
    unfold reingest
    cases hHeader : fetchHeader seq with
    | none => exact ensures_pure ⟨hLinked, hEnds.readyFor (by omega)⟩
    | some canonical =>
      rcases hSource canonical hHeader with ⟨hSame, hFit, hParent, hRest⟩
      subst hSame
      have hRecorded : ChainLinked (recordLedgerIngestion config.sha256 canonical
          (fetchEvents canonical.sequence) db.chain) :=
        linked_record hLinked hFit hParent hEnds.supersedes
      apply Ensures.bind
      · exact ensures_ingestOne (Q := fun chain => chain =
          recordLedgerIngestion config.sha256 canonical
            (fetchEvents canonical.sequence) db.chain) (E := ChainLinked) rfl hLinked
      intro _ db' hChain
      apply Ensures.bind
      · apply ih
        · push_cast at hSequence
          omega
        · exact hChain ▸ hRecorded
        · exact hChain ▸ endsBefore_record hEnds hFit
        · rw [Int.add_sub_cancel, hChain, hashOf_record]
          exact hRest
      intro reingestedLedgers db'' hReady
      exact ensures_pure hReady

end

-- Chain Linkage
----

open Program

variable {chain : ChainDb} {header : LedgerHeader}
variable {fetchHeader : Option (Int → Option LedgerHeader)}

theorem eq_some_of_present {field : Option String} {text : String} (h : present field = some text) :
    field = some text := (Option.filter_eq_some_iff.mp h).1

/- A walk that starts at a parent that disagrees goes past it. -/
theorem walkBack_lt {oldestStored : Int} {stored : List LedgerCheckpoint}
    (hOldest : oldestStored < header.sequence)
    (hBelow : ∀ row ∈ stored, row.ledger < header.sequence)
    (hNames : header.previousLedgerHash ≠ none)
    (hParent : ∀ row ∈ stored, row.ledger = header.sequence - 1 →
      row.ledgerHash ≠ header.previousLedgerHash) :
    walkBack header fetchHeader oldestStored stored < header.sequence - 1 := by
  induction stored with
  | nil =>
    unfold walkBack
    omega
  | cons row rest ih =>
    have hRow := hBelow row List.mem_cons_self
    have hRest : walkBack header fetchHeader oldestStored rest < header.sequence - 1 :=
      ih (fun r hr => hBelow r (List.mem_cons_of_mem _ hr))
        (fun r hr => hParent r (List.mem_cons_of_mem _ hr))
    have hOther : row.ledger ≠ header.sequence - 1 →
        row.ledger < header.sequence - 1 := by
      intro hNe
      omega
    unfold walkBack
    by_cases hTip : row.ledger = header.sequence - 1
    · have hIncoming : incomingHash header fetchHeader row.ledger = header.previousLedgerHash := by
        unfold incomingHash
        rw [if_pos hTip]
      have hDisagrees := hParent row List.mem_cons_self hTip
      rw [hIncoming]
      cases hPrevious : header.previousLedgerHash with
      | none => exact absurd hPrevious hNames
      | some hash =>
        rw [hPrevious] at hDisagrees
        simp only [if_neg hDisagrees]
        exact hRest
    · cases incomingHash header fetchHeader row.ledger with
      | none => exact hOther hTip
      | some hash =>
        simp only
        split
        · exact hOther hTip
        · exact hRest

theorem lt_of_mem_storedBelow {sequence : Int} {row : LedgerCheckpoint}
    (hMem : row ∈ storedBelow chain sequence) :
    row ∈ chain.ledgerCheckpoint.rows ∧ row.ledger < sequence := by
  have hSorted := List.mem_of_mem_take hMem
  rw [List.mem_insertionSort] at hSorted
  rcases List.mem_filter.mp hSorted with ⟨hRow, hBelow⟩
  exact ⟨hRow, by simpa using hBelow⟩

/- A rollback always removes the parent that disagrees. -/
theorem findForkPoint_lt
    (hDiverges : diverges header (chain.checkpoint? (header.sequence - 1)) = true) :
    findForkPoint header fetchHeader chain < header.sequence - 1 := by
  cases hParent : chain.checkpoint? (header.sequence - 1) with
  | none =>
    rw [hParent] at hDiverges
    cases hDiverges
  | some parent =>
    rw [hParent] at hDiverges
    unfold diverges at hDiverges
    rw [Option.bind_some] at hDiverges
    split at hDiverges
    · rename_i stored incoming hStored hIncoming
      have hHash := eq_some_of_present hStored
      have hNames := eq_some_of_present hIncoming
      have hDiffer : incoming ≠ stored := by simpa using hDiverges
      unfold findForkPoint
      cases hLast : (storedBelow chain header.sequence).getLast? with
      | none =>
        -- the parent itself is stored below the header
        rw [List.getLast?_eq_none_iff] at hLast
        unfold storedBelow at hLast
        rw [List.take_eq_nil_iff] at hLast
        rcases hLast with hZero | hEmpty
        · cases hZero
        · have hKey : parent.ledger = header.sequence - 1 := Table.key_of_find? hParent
          have hMem : parent ∈ (chain.ledgerCheckpoint.rows.filter fun row =>
            row.ledger < header.sequence) :=
            List.mem_filter.mpr ⟨Table.mem_of_find? hParent, by simp [hKey]⟩
          rw [← List.mem_insertionSort fun a b : LedgerCheckpoint =>
            b.ledger ≤ a.ledger, hEmpty] at hMem
          cases hMem
      | some oldest =>
        simp only [hLast]
        apply walkBack_lt
        · exact (lt_of_mem_storedBelow (List.mem_of_getLast? hLast)).2
        · exact fun row hRow => (lt_of_mem_storedBelow hRow).2
        · rw [hNames]
          exact Option.some_ne_none _
        · intro row hRow hTip
          have hFound := Table.find?_of_mem (lt_of_mem_storedBelow hRow).1
          change chain.checkpoint? row.ledger = _ at hFound
          rw [hTip, hParent] at hFound
          rcases Option.some.inj hFound with rfl
          rw [hHash, hNames]
          exact fun hEq => hDiffer (Option.some.inj hEq).symm
    · cases hDiverges

instance (chain : ChainDb) (header : LedgerHeader) (events : List IndexerChainEvent) :
    Decidable (Supersedes chain header events) :=
  decidable_of_iff ((∀ row ∈ chain.ledgerCheckpoint.rows, row.ledger = header.sequence + 1 →
    Linked (some header.hash) row.previousLedgerHash) ∧ ∀ row ∈ chain.ingestedEvent.rows,
    row.status = .confirmed → row.ledgerSequence = header.sequence →
      row.ledgerHash = header.hash ∨ (row.txHash, row.eventIndex) ∈
        (dedupeChainEvents events).map fun event => (event.txHash, event.eventIndex))
    ⟨fun h => ⟨h.1, h.2⟩, fun h => ⟨h.child, h.event⟩⟩

/- The fetched chain links onto the stored one. -/
def SourcesFit (deps : ReorgGuardDeps) (header : LedgerHeader) (chain : ChainDb) : Prop :=
  ∀ fetchHeader ∈ deps.fetchHeader, ∀ fetchEvents ∈ deps.fetchEvents,
    SourceFits header fetchHeader fetchEvents (chain.hashOf
      (findForkPoint header deps.fetchHeader chain))
      (findForkPoint header deps.fetchHeader chain + 1) (header.sequence -
        (findForkPoint header deps.fetchHeader chain + 1)).toNat

/- One call of the reorg guard. -/
structure GuardCall where
  config : GuardConfig
  deps : ReorgGuardDeps
  header : LedgerHeader
  events : List IndexerChainEvent

/- The tables that a call leaves, however it ends. -/
def GuardCall.step (db : Database) (call : GuardCall) : Option Database :=
  some ((ingestLedger call.config call.deps call.header call.events).final db)

/-
  The events belong to the ledger.  A ledger that makes others
  roll back comes with sources that link onto what is kept; any
  other ledger does not replace one under another hash.
-/
def GuardCall.Admissible (db : Database) (call : GuardCall) : Prop :=
  EventsFit call.header.sequence call.events ∧
    if diverges call.header (db.chain.checkpoint? (call.header.sequence - 1)) = true then
      SourcesFit call.deps call.header db.chain
    else Supersedes db.chain call.header call.events

instance (db : Database) (call : GuardCall) : Decidable (call.Admissible db) :=
  have : Decidable (SourcesFit call.deps call.header db.chain) :=
    inferInstanceAs (Decidable (∀ fetchHeader ∈ _, ∀ fetchEvents ∈ _, _))
  inferInstanceAs (Decidable (EventsFit call.header.sequence call.events ∧
    if diverges call.header (db.chain.checkpoint? (call.header.sequence - 1)) = true then
      SourcesFit call.deps call.header db.chain
    else Supersedes db.chain call.header call.events))

variable {db : Database}

theorem linked_recoverFromReorg {config : GuardConfig} {deps : ReorgGuardDeps}
    (hLinked : ChainLinked db.chain)
    (hDiverges : diverges header (db.chain.checkpoint? (header.sequence - 1)) = true)
    (hSources : SourcesFit deps header db.chain) :
    (recoverFromReorg config deps header).Ensures db (fun _ db' =>
      ChainLinked db'.chain ∧ ReadyFor header db'.chain) (fun db' => ChainLinked db'.chain) := by
  have hForkPoint := @findForkPoint_lt db.chain header deps.fetchHeader hDiverges
  apply ensures_query_bind
  apply Ensures.bind
  · apply ensures_execute (Q := fun _ s' => s'.chain = rollbackChain config.indexer
      (findForkPoint header deps.fetchHeader db.chain) db.chain)
    · exact fun _ _ hOk => rollbackToLedger_chain hOk
    · exact hLinked
  intro counts rolled hChain
  have hRolled : ChainLinked rolled.chain := by
    rw [hChain]
    exact linked_rollbackChain hLinked
  have hEnds : EndsBefore (findForkPoint header deps.fetchHeader db.chain + 1)
      rolled.chain := by
    rw [hChain]
    exact endsBefore_rollbackChain
  apply Ensures.bind (Q := fun _ db' => ChainLinked db'.chain ∧ ReadyFor header db'.chain)
  · unfold reingestUpTo
    split
    · rename_i fetchHeader fetchEvents hHeader hEvents
      apply linked_reingest
      · omega
      · exact hRolled
      · exact hEnds
      · have hKept :
            rolled.chain.hashOf (findForkPoint header deps.fetchHeader db.chain) = db.chain.hashOf
              (findForkPoint header deps.fetchHeader db.chain) := by
          unfold ChainDb.hashOf
          rw [hChain, checkpoint?_rollbackChain, if_neg (lt_irrefl _)]
        rw [Int.add_sub_cancel, hKept]
        exact hSources fetchHeader hHeader fetchEvents hEvents
    · exact ensures_pure ⟨hRolled, hEnds.readyFor (by omega)⟩
  intro reingestedLedgers db' hReady
  exact ensures_pure hReady

theorem linked_ingestLedger {call : GuardCall} (hLinked : ChainLinked db.chain)
    (hAdmissible : call.Admissible db) :
    (ingestLedger call.config call.deps call.header call.events).Ensures db
      (fun _ db' => ChainLinked db'.chain) (fun db' => ChainLinked db'.chain) := by
  rcases hAdmissible with ⟨hEvents, hCase⟩
  have hUnique : EventsFit call.header.sequence
      (dedupeChainEvents call.events) := by
    unfold EventsFit
    rw [dedupe_dedupe]
    exact hEvents
  apply ensures_query_bind
  apply Ensures.bind (Q := fun (_ : IngestLedgerResult) (db' : Database) => ChainLinked db'.chain ∧
    Linked (db'.chain.hashOf (call.header.sequence - 1)) call.header.previousLedgerHash ∧
    Supersedes db'.chain call.header (dedupeChainEvents call.events))
    (E := fun db' : Database => ChainLinked db'.chain)
  · unfold checkLinkage
    by_cases hDiverges :
      diverges call.header (db.chain.checkpoint? (call.header.sequence - 1)) = true
    · rw [if_pos hDiverges] at hCase ⊢
      refine (linked_recoverFromReorg hLinked hDiverges hCase).imp ?_ fun _ h => h
      rintro _ db' ⟨hRecovered, hEnds, hParent⟩
      exact ⟨hRecovered, hParent, hEnds.supersedes⟩
    · rw [if_neg hDiverges] at hCase ⊢
      apply ensures_pure
      refine ⟨hLinked, ?_, ?_⟩
      · exact linked_of_clean (Bool.eq_false_of_not_eq_true hDiverges)
      · refine ⟨hCase.child, ?_⟩
        rw [dedupe_dedupe]
        exact hCase.event
  rintro outcome db' ⟨hBefore, hParent, hSupersedes⟩
  apply Ensures.bind
  · exact ensures_ingestOne (Q := ChainLinked) (E := ChainLinked)
      (linked_record hBefore hUnique hParent hSupersedes) hBefore
  intro _ db'' hAfter
  exact ensures_pure hAfter

/-
  In every run of admissible calls, the stored ledgers form a
  chain and confirmed events carry the hash of their ledger.
-/
theorem chain_linked {start db : Database} {calls : List GuardCall}
    (hStart : ChainLinked start.chain)
    (hRun : RunsTo GuardCall.step (fun s call => call.Admissible s) start calls db) :
    ChainLinked db.chain := by
  apply hRun.invariant (I := fun s => ChainLinked s.chain) hStart
  intro s call t hLinked hAdmissible hStep
  cases hStep
  exact (linked_ingestLedger hLinked hAdmissible).final

/- A delivery with the sources of a canonical chain. -/
def sampleCall (fetched : List (LedgerHeader × List IndexerChainEvent)) (header : LedgerHeader)
    (events : List IndexerChainEvent) : GuardCall where
  config := sampleGuard
  deps :=
    { sampleDeps with
      fetchHeader :=
        some fun sequence => (fetched.map Prod.fst).find? fun header => header.sequence = sequence
      fetchEvents :=
        some fun sequence =>
          (fetched.filter fun ledger => ledger.1.sequence = sequence).flatMap Prod.snd }
  header := header
  events := events

/- A fork of one ledger is rolled back, and the canonical ledger is ingested in its place. -/
theorem chain_linked_sample :
    ∃ db, RunsTo GuardCall.step (fun s call => call.Admissible s) freshDatabase
      [sampleCall [] ⟨100, "A", none⟩ [sampleBuy "t" 100], sampleCall [] ⟨101, "F", some "A"⟩
        [sampleBuy "u" 101], sampleCall [(⟨100, "A", none⟩, [sampleBuy "t" 100]),
          (⟨101, "C", some "A"⟩, [sampleBuy "v" 101])] ⟨102, "D", some "C"⟩ []] db ∧
      db.chain.hashOf 101 = some "C" ∧ ChainLinked db.chain := by
  have hStart : RunsTo GuardCall.step (fun s call => call.Admissible s)
      freshDatabase [] freshDatabase := .start
  have hFirst :=
    hStart.step (l := sampleCall [] ⟨100, "A", none⟩ [sampleBuy "t" 100]) (by decide) rfl
  have hFork := hFirst.step (l := sampleCall [] ⟨101, "F", some "A"⟩ [sampleBuy "u" 101])
      (by decide +kernel) rfl
  have hRun := hFork.step (l := sampleCall [(⟨100, "A", none⟩, [sampleBuy "t" 100]),
      (⟨101, "C", some "A"⟩, [sampleBuy "v" 101])] ⟨102, "D", some "C"⟩ [])
      (by decide +kernel) rfl
  refine ⟨_, hRun, ?_, chain_linked ?_ hRun⟩
  · decide +kernel
  · decide

/-
  Two ledgers of one sequence and one parent: the event of the
  first stays confirmed under a hash that is not stored.
-/
theorem replaced_tip_breaks_linkage :
    ChainLinked freshDatabase.chain ∧ ∃ db, RunsTo GuardCall.step (fun _ _ => True) freshDatabase
      [sampleCall [] ⟨101, "F", some "P"⟩ [sampleBuy "t" 101],
        sampleCall [] ⟨101, "C", some "P"⟩ []] db ∧
      ¬ChainLinked db.chain := by
  refine ⟨by decide, _, runsTo_of_runLabels rfl, ?_⟩
  decide +kernel

end Indexer

end AccessLayer
