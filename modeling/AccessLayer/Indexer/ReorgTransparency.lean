import AccessLayer.Indexer.ReorgGuard
import AccessLayer.Indexer.TradeBatches

/-
  Whether a reorg leaves the state of the canonical chain.

  The canonical ledgers after a fork are delivered in order, and
  the first of them names the hash of the last common ledger.
  No parent ever disagrees: nothing is rolled back, and what the
  fork wrote stays.

  Main result: `reorg_transparent_iff`
-/

-- Deliveries of a Chain
----

namespace AccessLayer

namespace Indexer

open Transactional Program

/- A ledger as it is delivered. -/
structure Ledger where
  header : LedgerHeader
  events : List IndexerChainEvent

/-
  Consecutive ledgers from `sequence` on, each of which names
  the hash of the one before it, the first `parentHash`.
-/
def Chained (sequence : Int) (parentHash : Option String) : List Ledger → Prop
  | [] => True
  | ledger :: rest =>
    ledger.header.sequence = sequence ∧ (∀ hash ∈ parentHash,
      ledger.header.previousLedgerHash = some hash) ∧
      Chained (sequence + 1) (some ledger.header.hash) rest

/- Events are processed by the trade pipeline. -/
def pipelineDeps (config : GuardConfig) (fetchHeader : Option (Int → Option LedgerHeader))
    (fetchEvents : Option (Int → List IndexerChainEvent)) :
    ReorgGuardDeps where
  fetchHeader := fetchHeader
  fetchEvents := fetchEvents
  processEvents := processTradeEvents config.indexer

/- One call for each ledger. -/
def ingestLedgers (config : GuardConfig) (deps : ReorgGuardDeps) : List Ledger → GuardM Unit :=
  forEach fun ledger => (fun _ => ()) <$> ingestLedger config deps ledger.header ledger.events

def processLedgers (config : GuardConfig) : List Ledger → IndexerM Unit :=
  forEach fun ledger => processTradeEvents config.indexer (dedupeChainEvents ledger.events)

def recordLedgers (config : GuardConfig) (chain : ChainDb) (ledgers : List Ledger) : ChainDb :=
  ledgers.foldl (fun chain ledger => recordLedgerIngestion config.sha256 ledger.header
    (dedupeChainEvents ledger.events) chain) chain

/- The hash of the last ledger. -/
def tipHash (parentHash : Option String) : List Ledger → Option String
  | [] => parentHash
  | ledger :: rest => tipHash (some ledger.header.hash) rest

-- Chained Ledgers
----

variable {config : GuardConfig} {sequence : Int} {parentHash : Option String}
variable {ledgers : List Ledger} {chain : ChainDb} {xs ys : List Ledger}

theorem chained_append (h : Chained sequence parentHash (xs ++ ys)) :
    Chained sequence parentHash xs ∧ Chained (sequence + xs.length) (tipHash parentHash xs) ys := by
  induction xs generalizing sequence parentHash with
  | nil => exact ⟨trivial, by simpa [tipHash] using h⟩
  | cons ledger rest ih =>
    rcases h with ⟨hSequence, hParent, hRest⟩
    rcases ih hRest with ⟨hFirst, hSecond⟩
    refine ⟨⟨hSequence, hParent, hFirst⟩, ?_⟩
    rw [List.length_cons, Nat.cast_succ, ← add_assoc, add_right_comm]
    exact hSecond

theorem Chained.sequences (h : Chained sequence parentHash ledgers) (n : Int) :
    (∃ ledger ∈ ledgers, ledger.header.sequence = n) ↔
      sequence ≤ n ∧ n < sequence + ledgers.length := by
  induction ledgers generalizing sequence parentHash with
  | nil =>
    have hNone : ¬∃ ledger ∈ ([] : List Ledger),
        ledger.header.sequence = n := by
      rintro ⟨ledger, hMem, -⟩
      cases hMem
    constructor
    · exact fun h => absurd h hNone
    · rintro ⟨hLow, hHigh⟩
      rw [List.length_nil] at hHigh
      omega
  | cons ledger rest ih =>
    rcases h with ⟨hSequence, -, hRest⟩
    have hLater := ih hRest
    rw [List.exists_mem_cons_iff, hLater, hSequence, List.length_cons, Nat.cast_succ]
    constructor
    · omega
    · omega

theorem recordLedgers_append (xs ys : List Ledger) (chain : ChainDb) :
    recordLedgers config chain (xs ++ ys) =
      recordLedgers config (recordLedgers config chain xs) ys := List.foldl_append

/- Other sequences are left alone. -/
theorem checkpoint?_recordLedgers_other {n : Int}
    (hOther : ∀ ledger ∈ ledgers, ledger.header.sequence ≠ n) :
    (recordLedgers config chain ledgers).checkpoint? n = chain.checkpoint? n := by
  induction ledgers generalizing chain with
  | nil => rfl
  | cons ledger rest ih =>
    have hHead := hOther ledger List.mem_cons_self
    have hRest := @ih (recordLedgerIngestion config.sha256 ledger.header
        (dedupeChainEvents ledger.events) chain)
        (fun l hl => hOther l (List.mem_cons_of_mem _ hl))
    rw [checkpoint?_record, if_neg (Ne.symm hHead)] at hRest
    exact hRest

/- What is stored of a recorded ledger depends on it alone. -/
theorem checkpoint?_recordLedgers_mem {n : Int} (a b : ChainDb)
    (hMem : ∃ ledger ∈ ledgers, ledger.header.sequence = n) :
    (recordLedgers config a ledgers).checkpoint? n =
      (recordLedgers config b ledgers).checkpoint? n ∧
      (recordLedgers config a ledgers).checkpoint? n ≠ none := by
  induction ledgers generalizing a b with
  | nil =>
    rcases hMem with ⟨ledger, hIn, -⟩
    cases hIn
  | cons ledger rest ih =>
    by_cases hLater : ∃ l ∈ rest, l.header.sequence = n
    · exact ih _ _ hLater
    · have hHead : n = ledger.header.sequence := by
        rcases hMem with ⟨l, hIn, hSequence⟩
        rcases List.mem_cons.mp hIn with rfl | hRest
        · exact hSequence.symm
        · exact absurd ⟨l, hRest, hSequence⟩ hLater
      have hOthers : ∀ l ∈ rest, l.header.sequence ≠ n := fun l hl hEq => hLater ⟨l, hl, hEq⟩
      have hEach : ∀ c : ChainDb, (recordLedgers config c (ledger :: rest)).checkpoint? n = some
          (checkpointOf config.sha256 ledger.header (dedupeChainEvents
            (dedupeChainEvents ledger.events))) := by
        intro c
        change (recordLedgers config (recordLedgerIngestion config.sha256 ledger.header
          (dedupeChainEvents ledger.events) c) rest).checkpoint? n = _
        rw [checkpoint?_recordLedgers_other hOthers, checkpoint?_record, if_pos hHead]
      rw [hEach a, hEach b]
      exact ⟨rfl, Option.some_ne_none _⟩

theorem hashOf_recordLedgers (h : Chained sequence parentHash ledgers)
    (hTip : chain.hashOf (sequence - 1) = parentHash) :
    (recordLedgers config chain ledgers).hashOf (sequence + ledgers.length - 1) =
      tipHash parentHash ledgers := by
  induction ledgers generalizing sequence parentHash chain with
  | nil =>
    rw [List.length_nil, Nat.cast_zero, add_zero]
    exact hTip
  | cons ledger rest ih =>
    rcases h with ⟨hSequence, -, hRest⟩
    have hNext : (recordLedgerIngestion config.sha256 ledger.header
        (dedupeChainEvents ledger.events) chain).hashOf (sequence + 1 - 1) =
        some ledger.header.hash := by
      rw [Int.add_sub_cancel, ← hSequence]
      exact hashOf_record
    have hEnd := ih hRest hNext
    rw [List.length_cons, Nat.cast_succ, ← add_assoc, add_right_comm]
    exact hEnd

theorem clean_of_named {header : LedgerHeader} {storedParent : Option LedgerCheckpoint}
    (hNames : ∀ hash ∈ storedParent.bind LedgerCheckpoint.ledgerHash,
      header.previousLedgerHash = some hash) :
    diverges header storedParent = false := by
  cases storedParent with
  | none => rfl
  | some parent =>
    unfold diverges
    rw [Option.bind_some]
    split
    · rename_i stored incoming hStored hIncoming
      have hSame := hNames stored (Option.filter_eq_some_iff.mp hStored).1
      rw [hSame] at hIncoming
      have hIn := (Option.filter_eq_some_iff.mp hIncoming).1
      rcases Option.some.inj hIn with rfl
      simp
    · rfl

/- A chain that is delivered in order is processed and recorded ledger by ledger. -/
theorem run_ingestLedgers {fetchHeader : Option (Int → Option LedgerHeader)}
    {fetchEvents : Option (Int → List IndexerChainEvent)} {db : Database}
    (h : Chained sequence parentHash ledgers) (hTip : db.chain.hashOf (sequence - 1) = parentHash) :
    ((ingestLedgers config (pipelineDeps config fetchHeader fetchEvents) ledgers).run db).1 =
      ((processLedgers config ledgers).run db.trade).1 ∧
      (((processLedgers config ledgers).run db.trade).1 = .ok () → ((ingestLedgers config
        (pipelineDeps config fetchHeader fetchEvents) ledgers).run db).2 =
        { trade :=
            ((processLedgers config ledgers).run db.trade).2
          chain := recordLedgers config db.chain ledgers }) := by
  induction ledgers generalizing sequence parentHash db with
  | nil => exact ⟨rfl, fun _ => rfl⟩
  | cons ledger rest ih =>
    rcases h with ⟨hSequence, hNames, hRest⟩
    have hClean : diverges ledger.header (db.chain.checkpoint?
        (ledger.header.sequence - 1)) = false := by
      apply clean_of_named
      rw [hSequence]
      change ∀ hash ∈ db.chain.hashOf (sequence - 1), _
      rw [hTip]
      exact hNames
    have hRun := @run_ingestLedger_clean config (pipelineDeps config fetchHeader fetchEvents)
        ledger.header ledger.events db hClean
    cases hStep : (processTradeEvents config.indexer
      (dedupeChainEvents ledger.events)).run db.trade with
    | mk result trade =>
      have hDeps : ((pipelineDeps config fetchHeader fetchEvents).processEvents
          (dedupeChainEvents ledger.events)).run db.trade = (result, trade) := hStep
      rw [hDeps] at hRun
      unfold ingestLedgers processLedgers forEach
      simp only [run_bind, run_map, hRun, hStep]
      cases result with
      | error e => exact ⟨rfl, fun hOk => by cases hOk⟩
      | ok _ =>
        apply ih hRest
        rw [Int.add_sub_cancel, ← hSequence]
        exact hashOf_record

-- Reorg Transparency
----

variable {common fork canonical : List Ledger}

/- The read models that a reorg must not change. -/
structure SameReadState (a b : Database) : Prop where
  keyOwnership : a.trade.keyOwnership = b.trade.keyOwnership
  activity : a.trade.activity = b.trade.activity
  creatorProfile : a.trade.creatorProfile = b.trade.creatorProfile
  creatorPriceSnapshot : a.trade.creatorPriceSnapshot = b.trade.creatorPriceSnapshot
  creatorPriceHistory : a.trade.creatorPriceHistory = b.trade.creatorPriceHistory
  walletHoldingSnapshot : a.trade.walletHoldingSnapshot = b.trade.walletHoldingSnapshot
  confirmed : ∀ k, (a.chain.ingestedEvent.find? k).filter (fun event => event.status = .confirmed) =
    (b.chain.ingestedEvent.find? k).filter (fun event => event.status = .confirmed)
  checkpoint : ∀ n, a.chain.checkpoint? n = b.chain.checkpoint? n

/- The trades of some ledgers, in the order of delivery. -/
def tradesOfLedgers (ledgers : List Ledger) : List TradeFields :=
  ledgers.flatMap fun ledger => tradesIn (dedupeChainEvents ledger.events)

variable {db : TradeDb}

theorem activity_processLedgers (hOk : ((processLedgers config ledgers).run db).1 = .ok ()) :
    ((processLedgers config ledgers).run db).2.activity = db.activity ++
      (tradesOfLedgers ledgers).map TradeFields.activity := by
  induction ledgers generalizing db with
  | nil => simp [processLedgers, tradesOfLedgers]
  | cons ledger rest ih =>
    unfold processLedgers forEach at hOk ⊢
    rw [run_bind] at hOk ⊢
    cases hFirst : (processTradeEvents config.indexer (dedupeChainEvents ledger.events)).run db with
    | mk result db' =>
      rw [hFirst] at hOk
      cases result with
      | error e => cases hOk
      | ok _ =>
        have hEach :=
          @activity_of_run config.indexer (dedupeChainEvents ledger.events) db (by rw [hFirst])
        have hRest := ih hOk
        rw [hFirst] at hEach
        unfold processLedgers at hRest
        rw [hRest, hEach]
        simp [tradesOfLedgers]

theorem run_processLedgers_empty {ledgers : List Ledger}
    (hEmpty : ∀ ledger ∈ ledgers, ledger.events = []) (db : TradeDb) :
    (processLedgers config ledgers).run db = (.ok (), db) := by
  induction ledgers with
  | nil => rfl
  | cons ledger rest ih =>
    have hHead := hEmpty ledger List.mem_cons_self
    have hRest := ih fun l hl => hEmpty l (List.mem_cons_of_mem _ hl)
    unfold processLedgers forEach
    rw [run_bind, hHead]
    exact hRest

theorem ingestedEvent_recordLedgers (ledgers : List Ledger) (chain : ChainDb) :
    (recordLedgers config chain ledgers).ingestedEvent = ledgers.foldl (fun table ledger =>
      (dedupeChainEvents (dedupeChainEvents ledger.events)).foldl
        (upsertEvent ledger.header) table) chain.ingestedEvent := by
  induction ledgers generalizing chain with
  | nil => rfl
  | cons ledger rest ih => exact ih _

theorem ingestedEvent_recordLedgers_empty (hEmpty : ∀ ledger ∈ ledgers, ledger.events = [])
    (chain : ChainDb) :
    (recordLedgers config chain ledgers).ingestedEvent = chain.ingestedEvent := by
  induction ledgers generalizing chain with
  | nil => rfl
  | cons ledger rest ih =>
    have hHead := hEmpty ledger List.mem_cons_self
    have hRest := @ih (fun l hl => hEmpty l (List.mem_cons_of_mem _ hl))
        (recordLedgerIngestion config.sha256 ledger.header (dedupeChainEvents ledger.events) chain)
    refine Eq.trans hRest ?_
    rw [hHead]
    rfl

theorem events_eq_nil_of_no_trades {ledger : Ledger}
    (hTrades : ∀ event ∈ ledger.events, event.trade ≠ none)
    (hNone : tradesIn (dedupeChainEvents ledger.events) = []) :
    ledger.events = [] := by
  unfold tradesIn at hNone
  rw [dedupe_dedupe, List.filterMap_eq_nil_iff] at hNone
  apply dedupe_eq_nil_iff.mp
  cases hUnique : dedupeChainEvents ledger.events with
  | nil => rfl
  | cons event rest =>
    have hIn : event ∈ dedupeChainEvents ledger.events := by
      rw [hUnique]
      exact List.mem_cons_self
    exact absurd (hNone event hIn) (hTrades event (mem_of_mem_dedupe hIn))

/-
  The canonical ledgers after a fork are delivered like those of
  one chain: their parents are the ledgers stored last.
-/
theorem run_ingestLedgers_fork {fetchHeader : Option (Int → Option LedgerHeader)}
    {fetchEvents : Option (Int → List IndexerChainEvent)} {start : Database}
    (hFork : Chained sequence none (common ++ fork))
    (hCanonical : Chained sequence none (common ++ canonical))
    (hFresh : start.chain.hashOf (sequence - 1) = none) :
    ((ingestLedgers config (pipelineDeps config fetchHeader fetchEvents)
      (common ++ fork ++ canonical)).run start).1 = ((processLedgers config
        (common ++ fork ++ canonical)).run start.trade).1 ∧ (((processLedgers config
        (common ++ fork ++ canonical)).run start.trade).1 = .ok () → ((ingestLedgers config
        (pipelineDeps config fetchHeader fetchEvents)
        (common ++ fork ++ canonical)).run start).2 =
        { trade :=
            ((processLedgers config (common ++ fork ++ canonical)).run start.trade).2
          chain :=
            recordLedgers config start.chain
              (common ++ fork ++ canonical) }) := by
  rcases chained_append hFork with ⟨hCommon, hForkTail⟩
  rcases chained_append hCanonical with ⟨-, hTail⟩
  have hFirst := @run_ingestLedgers config sequence none (common ++ fork)
      fetchHeader fetchEvents start hFork hFresh
  unfold ingestLedgers processLedgers at hFirst ⊢
  rw [run_forEach_append _ (common ++ fork), run_forEach_append _ (common ++ fork)]
  cases hGuarded : (forEach (fun ledger => (fun _ => ()) <$> ingestLedger config
    (pipelineDeps config fetchHeader fetchEvents)
    ledger.header ledger.events) (common ++ fork)).run start with
  | mk result db =>
    cases hPlain : (forEach (fun ledger : Ledger => processTradeEvents config.indexer
      (dedupeChainEvents ledger.events)) (common ++ fork)).run start.trade with
    | mk result' trade =>
      rw [hGuarded, hPlain] at hFirst
      rcases hFirst with ⟨hResult, hState⟩
      change result = result' at hResult
      subst hResult
      cases result with
      | error e => exact ⟨rfl, fun hOk => by cases hOk⟩
      | ok _ =>
        have hDb := hState rfl
        subst hDb
        -- the fork leaves the last common ledger alone
        have hKept : (recordLedgers config start.chain (common ++ fork)).hashOf
            (sequence + common.length - 1) =
            tipHash none common := by
          rw [← @hashOf_recordLedgers config sequence none common start.chain hCommon hFresh]
          unfold ChainDb.hashOf
          rw [recordLedgers_append, checkpoint?_recordLedgers_other]
          · intro ledger hMem hEq
            have hRange := (hForkTail.sequences _).mp ⟨ledger, hMem, hEq⟩
            omega
        have hSecond := @run_ingestLedgers config _ _ canonical fetchHeader fetchEvents
            { trade
              chain := recordLedgers config start.chain (common ++ fork) } hTail hKept
        unfold ingestLedgers processLedgers at hSecond
        refine ⟨hSecond.1, ?_⟩
        intro hOk
        have hEnd := hSecond.2 hOk
        rw [hEnd, recordLedgers_append (common ++ fork)]

theorem run_processLedgers_skip (hEmpty : ∀ ledger ∈ fork, ledger.events = []) (db : TradeDb) :
    (processLedgers config (common ++ fork ++ canonical)).run db =
      (processLedgers config (common ++ canonical)).run db := by
  have hSkip := @run_processLedgers_empty config fork hEmpty
  unfold processLedgers at hSkip ⊢
  rw [List.append_assoc, run_forEach_append, run_forEach_append _ common canonical]
  cases (forEach (fun ledger : Ledger => processTradeEvents config.indexer
    (dedupeChainEvents ledger.events)) common).run db with
  | mk result trade =>
    cases result with
    | error e => rfl
    | ok _ => simp only [run_forEach_append, hSkip]

theorem ingestedEvent_recordLedgers_skip (hEmpty : ∀ ledger ∈ fork, ledger.events = [])
    (chain : ChainDb) :
    (recordLedgers config chain (common ++ fork ++ canonical)).ingestedEvent =
      (recordLedgers config chain (common ++ canonical)).ingestedEvent := by
  simp only [recordLedgers_append]
  rw [ingestedEvent_recordLedgers canonical, ingestedEvent_recordLedgers_empty hEmpty,
    ← ingestedEvent_recordLedgers canonical]

/- Two runs that ended well show the trades of equal feeds. -/
theorem length_tradesOfLedgers_eq (hOk : ((processLedgers config xs).run db).1 = .ok ())
    (hOk' : ((processLedgers config ys).run db).1 = .ok ())
    (hActivity : ((processLedgers config xs).run db).2.activity =
      ((processLedgers config ys).run db).2.activity) :
    (tradesOfLedgers xs).length = (tradesOfLedgers ys).length := by
  rw [activity_processLedgers hOk, activity_processLedgers hOk', List.append_right_inj] at hActivity
  have hLengths := congrArg List.length hActivity
  rwa [List.length_map, List.length_map] at hLengths

theorem events_eq_nil_of_same_trades
    (hTrades : ∀ ledger ∈ fork, ∀ event ∈ ledger.events, event.trade ≠ none)
    (hSame : (tradesOfLedgers (common ++ fork ++ canonical)).length =
      (tradesOfLedgers (common ++ canonical)).length) :
    ∀ ledger ∈ fork, ledger.events = [] := by
  have hNone : tradesOfLedgers fork = [] := by
    apply List.eq_nil_of_length_eq_zero
    simp only [tradesOfLedgers, List.flatMap_append, List.length_append] at hSame ⊢
    omega
  intro ledger hMem
  exact events_eq_nil_of_no_trades (hTrades ledger hMem)
    (List.flatMap_eq_nil_iff.mp hNone ledger hMem)

theorem length_le_of_same_checkpoints (hFork : Chained sequence none (common ++ fork))
    (hCanonical : Chained sequence none (common ++ canonical))
    (hFresh : ∀ n, sequence - 1 ≤ n → chain.checkpoint? n = none)
    (hSame : ∀ n, (recordLedgers config chain (common ++ fork ++ canonical)).checkpoint? n =
      (recordLedgers config chain (common ++ canonical)).checkpoint? n) :
    fork.length ≤ canonical.length := by
  rcases chained_append hFork with ⟨hCommon, hForkTail⟩
  rcases chained_append hCanonical with ⟨-, hTail⟩
  by_contra hLonger
  have hPast : ∀ ledger ∈ canonical, ledger.header.sequence ≠
      sequence + common.length + canonical.length := by
    intro ledger hMem hEq
    have hRange := (hTail.sequences _).mp ⟨ledger, hMem, hEq⟩
    omega
  have hBefore : ∀ ledger ∈ common, ledger.header.sequence ≠
      sequence + common.length + canonical.length := by
    intro ledger hMem hEq
    have hRange := (hCommon.sequences _).mp ⟨ledger, hMem, hEq⟩
    omega
  have hStored := (hForkTail.sequences (sequence + common.length + canonical.length)).mpr (by omega)
  have hNext := hSame (sequence + common.length + canonical.length)
  simp only [recordLedgers_append, checkpoint?_recordLedgers_other hPast,
    checkpoint?_recordLedgers_other hBefore] at hNext
  rw [hFresh _ (by omega)] at hNext
  exact (@checkpoint?_recordLedgers_mem config fork _ (recordLedgers config chain common)
    (recordLedgers config chain common) hStored).2 hNext

theorem checkpoint?_recordLedgers_replaced (hFork : Chained sequence none (common ++ fork))
    (hCanonical : Chained sequence none (common ++ canonical))
    (hLength : fork.length ≤ canonical.length) (chain : ChainDb) (n : Int) :
    (recordLedgers config chain (common ++ fork ++ canonical)).checkpoint? n =
      (recordLedgers config chain (common ++ canonical)).checkpoint? n := by
  rcases chained_append hFork with ⟨-, hForkTail⟩
  rcases chained_append hCanonical with ⟨-, hTail⟩
  simp only [recordLedgers_append]
  by_cases hIn : ∃ ledger ∈ canonical, ledger.header.sequence = n
  · exact (checkpoint?_recordLedgers_mem _ _ hIn).1
  · have hOut : ∀ ledger ∈ canonical, ledger.header.sequence ≠ n :=
      fun ledger hMem hEq => hIn ⟨ledger, hMem, hEq⟩
    have hOutFork : ∀ ledger ∈ fork, ledger.header.sequence ≠ n := by
      intro ledger hMem hEq
      apply hIn
      have hRange := (hForkTail.sequences n).mp ⟨ledger, hMem, hEq⟩
      exact (hTail.sequences n).mpr (by omega)
    rw [checkpoint?_recordLedgers_other hOut, checkpoint?_recordLedgers_other hOutFork,
      checkpoint?_recordLedgers_other hOut]

/-
  After a fork, the canonical ledgers leave the state of the
  canonical chain if and only if the fork held no event and was
  not longer than what replaces it.
-/
theorem reorg_transparent_iff {fetchHeader : Option (Int → Option LedgerHeader)}
    {fetchEvents : Option (Int → List IndexerChainEvent)} {start : Database}
    (hFork : Chained sequence none (common ++ fork))
    (hCanonical : Chained sequence none (common ++ canonical))
    (hTrades : ∀ ledger ∈ fork, ∀ event ∈ ledger.events, event.trade ≠ none)
    (hFresh : ∀ n, sequence - 1 ≤ n → start.chain.checkpoint? n = none)
    (hOnce : ((ingestLedgers config (pipelineDeps config fetchHeader fetchEvents)
      (common ++ canonical)).run start).1 = .ok ()) :
    (((ingestLedgers config (pipelineDeps config fetchHeader fetchEvents)
      (common ++ fork ++ canonical)).run start).1 = .ok () ∧ SameReadState ((ingestLedgers config
        (pipelineDeps config fetchHeader fetchEvents) (common ++ fork ++ canonical)).run start).2
      ((ingestLedgers config (pipelineDeps config fetchHeader fetchEvents)
        (common ++ canonical)).run start).2) ↔ (∀ ledger ∈ fork, ledger.events = []) ∧
      fork.length ≤ canonical.length := by
  have hNoHash : start.chain.hashOf (sequence - 1) = none := by
    unfold ChainDb.hashOf
    rw [hFresh _ (le_refl _)]
    rfl
  rcases @run_ingestLedgers_fork config sequence common fork
    canonical fetchHeader fetchEvents start hFork hCanonical hNoHash with ⟨hResult, hState⟩
  rcases @run_ingestLedgers config sequence none (common ++ canonical) fetchHeader fetchEvents start
    hCanonical hNoHash with ⟨hResult', hState'⟩
  rw [hResult'] at hOnce
  rw [hState' hOnce, hResult]
  constructor
  · rintro ⟨hOk, hSame⟩
    rw [hState hOk] at hSame
    exact ⟨events_eq_nil_of_same_trades hTrades
      (length_tradesOfLedgers_eq hOk hOnce hSame.activity),
      length_le_of_same_checkpoints hFork hCanonical hFresh hSame.checkpoint⟩
  · rintro ⟨hEmpty, hLength⟩
    rw [run_processLedgers_skip hEmpty] at hState ⊢
    refine ⟨hOnce, ?_⟩
    rw [hState hOnce]
    refine ⟨rfl, rfl, rfl, rfl, rfl, rfl, ?_, ?_⟩
    · intro k
      simp only [ingestedEvent_recordLedgers_skip hEmpty]
    · exact checkpoint?_recordLedgers_replaced hFork hCanonical hLength start.chain

/- The ledgers of a canonical chain as they are fetched. -/
def fetchedHeader (ledgers : List Ledger) (sequence : Int) : Option LedgerHeader :=
  (ledgers.map Ledger.header).find? fun header => header.sequence = sequence

def fetchedEvents (ledgers : List Ledger) (sequence : Int) : List IndexerChainEvent :=
  (ledgers.filter fun ledger => ledger.header.sequence = sequence).flatMap Ledger.events

def commonLedger : Ledger := ⟨⟨100, "A", none⟩, [sampleBuy "t" 100]⟩

def canonicalLedgers : List Ledger :=
  [⟨⟨101, "C", some "A"⟩, [sampleBuy "v" 101]⟩, ⟨⟨102, "D", some "C"⟩, []⟩]

/- The calls of a reorg guard that can fetch both chains. -/
def sampleReorg (ledgers : List Ledger) : GuardM Unit :=
  ingestLedgers sampleGuard (pipelineDeps sampleGuard
    (some (fetchedHeader (commonLedger :: canonicalLedgers)))
    (some (fetchedEvents (commonLedger :: canonicalLedgers)))) ledgers

/- An abandoned ledger without events leaves no trace. -/
theorem reorg_transparent_empty_fork :
    ((sampleReorg ([commonLedger] ++ [⟨⟨101, "F", some "A"⟩, []⟩] ++
      canonicalLedgers)).run freshDatabase).1 = .ok () ∧ SameReadState ((sampleReorg
      ([commonLedger] ++ [⟨⟨101, "F", some "A"⟩, []⟩] ++ canonicalLedgers)).run freshDatabase).2
      ((sampleReorg ([commonLedger] ++ canonicalLedgers)).run freshDatabase).2 := by
  have hFork : Chained 100 none
      ([commonLedger] ++ [⟨⟨101, "F", some "A"⟩, []⟩]) := by
    simp [Chained, commonLedger]
  have hCanonical : Chained 100 none ([commonLedger] ++ canonicalLedgers) := by
    simp [Chained, commonLedger, canonicalLedgers]
  apply (reorg_transparent_iff hFork hCanonical _ _ _).mpr
  · simp [canonicalLedgers]
  · intro ledger hMem event hEvent
    rcases List.mem_singleton.mp hMem with rfl
    cases hEvent
  · exact fun n _ => rfl
  · decide +kernel

/-
  A tip with one purchase is replaced by a tip with the same
  parent: its trade stays in the read models.
-/
theorem reorg_not_transparent :
    ((sampleReorg ([commonLedger] ++ [⟨⟨101, "F", some "A"⟩, [sampleBuy "u" 101]⟩] ++
      canonicalLedgers)).run freshDatabase).1 = .ok () ∧ ((sampleReorg
      ([commonLedger] ++ canonicalLedgers)).run freshDatabase).1 = .ok () ∧ ¬SameReadState
      ((sampleReorg ([commonLedger] ++ [⟨⟨101, "F", some "A"⟩, [sampleBuy "u" 101]⟩] ++
        canonicalLedgers)).run freshDatabase).2 ((sampleReorg
        ([commonLedger] ++ canonicalLedgers)).run freshDatabase).2 := by
  refine ⟨by decide +kernel, by decide +kernel, ?_⟩
  intro hSame
  have hLengths : ((sampleReorg ([commonLedger] ++ [⟨⟨101, "F", some "A"⟩, [sampleBuy "u" 101]⟩] ++
      canonicalLedgers)).run freshDatabase).2.trade.activity.length ≠ ((sampleReorg
      ([commonLedger] ++ canonicalLedgers)).run
        freshDatabase).2.trade.activity.length := by decide +kernel
  exact hLengths (congrArg List.length hSame.activity)

end Indexer

end AccessLayer
