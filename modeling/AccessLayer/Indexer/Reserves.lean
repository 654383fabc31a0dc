import AccessLayer.Indexer.EventFields

/-
  Reserve balances and the log of reserve events
  (`src/modules/indexer/reserve-indexer.service.ts`).

  A transaction is one statement, and decimals are exact.  Caches
  and logs of the process are left out.

  Main result: `reserves_agree_iff`
-/

-- Events
----

namespace AccessLayer

namespace Indexer

open Transactional Program

section

structure ReserveFields where
  keyId : Option String
  amount : RawField

abbrev ReserveEvent := PipelineEvent ReserveFields

def reserveAccruedEventTypes : List String := ["RESERVE_ACCRUED", "ReserveAccrued"]

def reserveDeployedEventTypes : List String := ["RESERVE_DEPLOYED", "ReserveDeployed"]

def allReserveEventTypes : List String := reserveAccruedEventTypes ++ reserveDeployedEventTypes

def reserveIndexerDlqJobType : String := "RESERVE"

inductive ReserveType where
  | accrued
  | deployed
  deriving DecidableEq

/- An event that has passed its checks. -/
structure ParsedReserveEvent where
  keyId : String
  type : ReserveType
  amountXlm : ℚ
  amountPos : 0 < amountXlm
  ledger : ℤ
  eventIndex : Nat
  txHash : String

def parseReserveEvent (event : ReserveEvent) : Except String ParsedReserveEvent :=
  match (textField event.creatorId).or (textField event.payload.keyId) with
  | none => .error "missing or invalid key/creator id"
  | some keyId =>
    match parseBigInt event.payload.amount with
    | none => .error "missing or invalid amount"
    | some amount =>
      if hAmount : 0 < amount then
        match event.ledger.filter (0 ≤ ·) with
        | none => .error "missing or invalid ledger"
        | some ledger =>
          if event.txHash = "" then
            .error "missing or invalid txHash/eventIndex"
          else
            .ok {
              keyId
              type :=
                if event.eventType ∈ reserveAccruedEventTypes then
                  .accrued
                else .deployed
              amountXlm := stroopsToXlm amount
              amountPos := stroopsToXlm_pos hAmount
              ledger
              eventIndex := event.eventIndex
              txHash := event.txHash }
      else .error "missing or invalid amount"

-- Tables
----

structure KeyReserve where
  keyId : String
  balance : ℚ
  totalAccrued : ℚ
  totalDeployed : ℚ

structure KeyReserveEvent where
  keyId : String
  type : ReserveType
  amount : ℚ
  ledger : ℤ
  txHash : String
  eventIndex : Nat

instance : Keyed KeyReserve String where
  key row := row.keyId

instance : Keyed KeyReserveEvent (String × Nat) where
  key row := (row.txHash, row.eventIndex)

structure ReserveTables where
  keyReserve : Table KeyReserve
  keyReserveEvent : Table KeyReserveEvent

structure ReserveDb extends ReserveTables where
  indexerDLQ : List (IndexerDLQ ReserveFields)

abbrev ReserveM := Program ReserveDb IndexerError

def ReserveTables.empty : ReserveTables where
  keyReserve := .empty
  keyReserveEvent := .empty

def ReserveDb.empty : ReserveDb where
  toReserveTables := .empty
  indexerDLQ := []

namespace ParsedReserveEvent

variable (value : ParsedReserveEvent)

def ident : String × Nat := (value.txHash, value.eventIndex)

def logRow : KeyReserveEvent where
  keyId := value.keyId
  type := value.type
  amount := value.amountXlm
  ledger := value.ledger
  txHash := value.txHash
  eventIndex := value.eventIndex

/- A deployment that opens its row leaves the balance at zero. -/
def opened : KeyReserve :=
  match value.type with
  | .accrued =>
    { keyId := value.keyId
      balance := value.amountXlm
      totalAccrued := value.amountXlm
      totalDeployed := 0 }
  | .deployed =>
    { keyId := value.keyId
      balance := 0
      totalAccrued := 0
      totalDeployed := value.amountXlm }

def change (row : KeyReserve) : KeyReserve :=
  match value.type with
  | .accrued =>
    { row with
      balance := row.balance + value.amountXlm
      totalAccrued := row.totalAccrued + value.amountXlm }
  | .deployed =>
    { row with
      balance := row.balance - value.amountXlm
      totalDeployed := row.totalDeployed + value.amountXlm }

theorem key_change (row : KeyReserve) : key (value.change row) = key row := by
  unfold change
  cases value.type <;> rfl

theorem key_opened : key value.opened = value.keyId := by
  unfold opened
  cases value.type <;> rfl

end ParsedReserveEvent

/- Log an event and book it, or do neither. -/
def recordReserveEvent (value : ParsedReserveEvent)
    (db : ReserveDb) : Except IndexerError (Bool × ReserveDb) :=
  match db.keyReserveEvent.insert? value.logRow with
  | none => .error .uniqueViolation
  | some keyReserveEvent =>
    .ok (true, { db with
          keyReserve :=
            db.keyReserve.upsert value.opened value.change
              value.key_change
          keyReserveEvent })

def rejectReserveEvent (event : ReserveEvent) (reason : String)
    (db : ReserveDb) : Except IndexerError (Bool × ReserveDb) :=
  .ok (false, { db with
        indexerDLQ := moveToDLQ reserveIndexerDlqJobType event reason db.indexerDLQ })

/- Answers whether the balance has changed. -/
def processReserveEvent (event : ReserveEvent) : ReserveM Bool :=
  match parseReserveEvent event with
  | .error reason => execute .database (rejectReserveEvent event reason)
  | .ok value =>
    tryCatch (execute .database (recordReserveEvent value)) (fun error =>
      if error = .uniqueViolation then pure false
      else throw error)

def isReserveEvent (event : ReserveEvent) : Bool := event.eventType ∈ allReserveEventTypes

def handleReserveEvent (event : ReserveEvent) : ReserveM Unit :=
  if isReserveEvent event then do
    let _ ← processReserveEvent event
  else pure ()

def processReserveEvents (events : List ReserveEvent) : ReserveM Unit :=
  forEach handleReserveEvent (PipelineEvent.dedupe events)

end

-- What a Delivery Does
----

section

/- The tables after an event that reached them. -/
def reserveEffect (event : ReserveEvent) : ReserveDb → ReserveDb :=
  match parseReserveEvent event with
  | .error reason => written (rejectReserveEvent event reason)
  | .ok value => written (recordReserveEvent value)

theorem single_handleReserveEvent {event : ReserveEvent} (hActs : isReserveEvent event = true) :
    Single (reserveEffect event) (handleReserveEvent event) := by
  unfold handleReserveEvent reserveEffect processReserveEvent
  rw [if_pos hActs]
  cases parseReserveEvent event with
  | error reason => exact ⟨_, .database, rfl, fun _ => rfl⟩
  | ok value =>
    refine single_execute ?_ rfl (fun _ => rfl)
    intro db e hError
    refine ⟨false, ?_⟩
    unfold recordReserveEvent at hError
    split at hError
    · cases hError
      rfl
    · cases hError

/- The valid events among those that reached the tables. -/
def acceptedReserves (events : List ReserveEvent) : List ParsedReserveEvent :=
  events.filterMap fun event => (parseReserveEvent event).toOption

def recordedReserves (deliveries : List (List ReserveEvent × List Outcome)) :
    List ParsedReserveEvent :=
  firsts ParsedReserveEvent.ident (acceptedReserves
    (arrivals isReserveEvent PipelineEvent.dedupe deliveries))

def ReserveTables.logged (tables : ReserveTables) : List (String × Nat) :=
  tables.keyReserveEvent.rows.map key

/- Log and book an event. -/
def ParsedReserveEvent.book (value : ParsedReserveEvent)
    (tables : ReserveTables) : ReserveTables where
  keyReserve := tables.keyReserve.upsert value.opened value.change value.key_change
  keyReserveEvent := (tables.keyReserveEvent.insert? value.logRow).getD tables.keyReserveEvent

variable {value : ParsedReserveEvent}

theorem toReserveTables_effect (event : ReserveEvent) (db : ReserveDb) :
    (reserveEffect event db).toReserveTables = (parseReserveEvent event).toOption.elim
      db.toReserveTables (applyOnce ParsedReserveEvent.ident
        ReserveTables.logged ParsedReserveEvent.book db.toReserveTables) := by
  unfold reserveEffect
  cases parseReserveEvent event with
  | error reason => rfl
  | ok value =>
    dsimp only [Except.toOption, Option.elim]
    rw [applyOnce]
    unfold written recordReserveEvent
    rcases db.keyReserveEvent.insert?_cases value.logRow with
      ⟨hOld, hStored⟩ | ⟨hNew, table, hStored, -⟩
    · have hLogged : value.ident ∈ db.logged := hOld
      rw [if_pos hLogged, hStored]
    · have hFresh : value.ident ∉ db.logged := hNew
      rw [if_neg hFresh, hStored, ParsedReserveEvent.book, hStored]
      rfl

end

-- Books
----

def reserveAfter (row : Option KeyReserve) (values : List ParsedReserveEvent) : Option KeyReserve :=
  values.foldl (fun row value => some (row.elim value.opened value.change)) row

/- What the events of one kind amount to. -/
def amountOf (type : ReserveType) (values : List ParsedReserveEvent) : ℚ :=
  ((values.filter (·.type = type)).map (·.amountXlm)).sum

/- The amount of a deployment, zero for an accrual. -/
def ParsedReserveEvent.unbacked (value : ParsedReserveEvent) : ℚ :=
  if value.type = .deployed then value.amountXlm else 0

namespace KeyReserve

/- What the balance holds beyond accruals less deployments. -/
def drift (row : KeyReserve) : ℚ := row.balance - (row.totalAccrued - row.totalDeployed)

def Totals (row : KeyReserve) (values : List ParsedReserveEvent) : Prop :=
  row.totalAccrued = amountOf .accrued values ∧ row.totalDeployed = amountOf .deployed values

end KeyReserve

theorem amountOf_append (type : ReserveType) (xs ys : List ParsedReserveEvent) :
    amountOf type (xs ++ ys) = amountOf type xs + amountOf type ys := by
  unfold amountOf
  rw [List.filter_append, List.map_append, List.sum_append]

theorem ParsedReserveEvent.drift_change (value : ParsedReserveEvent) (row : KeyReserve) :
    (value.change row).drift = row.drift := by
  unfold change KeyReserve.drift
  cases value.type <;> dsimp only <;> ring

theorem ParsedReserveEvent.drift_opened (value : ParsedReserveEvent) :
    value.opened.drift = value.unbacked := by
  unfold opened KeyReserve.drift unbacked
  cases value.type <;> simp

theorem totals_opened (value : ParsedReserveEvent) : value.opened.Totals [value] := by
  unfold ParsedReserveEvent.opened KeyReserve.Totals amountOf
  cases h : value.type <;> simp [h]

variable {row : KeyReserve} {values : List ParsedReserveEvent}

theorem totals_change (value : ParsedReserveEvent) (hRow : row.Totals values) :
    (value.change row).Totals (values ++ [value]) := by
  rcases hRow with ⟨hAccrued, hDeployed⟩
  unfold KeyReserve.Totals
  rw [amountOf_append, amountOf_append, ← hAccrued, ← hDeployed]
  unfold ParsedReserveEvent.change amountOf
  cases h : value.type <;> simp [h]

/-
  A row that is opened and then changed has the totals of all its
  events, and drifts by what its first event deploys.
-/
theorem reserveAfter_opened (value : ParsedReserveEvent) (rest : List ParsedReserveEvent) :
    ∃ row, reserveAfter none (value :: rest) = some row ∧ row.keyId = value.keyId ∧
      row.Totals (value :: rest) ∧
      row.drift = value.unbacked := by
  induction rest using List.reverseRecOn with
  | nil => exact ⟨_, rfl, value.key_opened, totals_opened value, value.drift_opened⟩
  | append_singleton rest last ih =>
    rcases ih with ⟨row, hRow, hKey, hTotals, hDrift⟩
    refine ⟨last.change row, ?_, ?_, ?_, ?_⟩
    · rw [← List.cons_append]
      unfold reserveAfter at hRow ⊢
      rw [List.foldl_append, hRow]
      rfl
    · exact (last.key_change row).trans hKey
    · rw [← List.cons_append]
      exact totals_change last hTotals
    · rw [last.drift_change, hDrift]

-- Agreement with the Log
----

/- What the log of a key holds of one kind. -/
def ReserveTables.loggedTotal (tables : ReserveTables) (keyId : String) (type : ReserveType) : ℚ :=
  ((tables.keyReserveEvent.rows.filter fun entry => entry.keyId = keyId ∧ entry.type = type).map
    (·.amount)).sum

/- A row equals the fold of its event log. -/
def ReserveTables.AgreesWithLog (tables : ReserveTables) (row : KeyReserve) : Prop :=
  row.totalAccrued = tables.loggedTotal row.keyId .accrued ∧
    row.totalDeployed = tables.loggedTotal row.keyId .deployed ∧
    row.balance = row.totalAccrued - row.totalDeployed

/- The rows of the logged keys, each in agreement. -/
structure ReserveTables.Agree (tables : ReserveTables) : Prop where
  stored :
    ∀ entry ∈ tables.keyReserveEvent.rows, ∃ row, tables.keyReserve.find? entry.keyId = some row
  rows : ∀ row ∈ tables.keyReserve.rows, tables.AgreesWithLog row

/- The tables that some valid events leave. -/
structure Books (values : List ParsedReserveEvent) (tables : ReserveTables) : Prop where
  log : tables.keyReserveEvent.rows = values.map ParsedReserveEvent.logRow
  row : ∀ keyId, tables.keyReserve.find? keyId = reserveAfter none (values.filter (·.keyId = keyId))

variable {value : ParsedReserveEvent} {tables : ReserveTables}

theorem rows_book (hNew : value.ident ∉ tables.logged) :
    (value.book tables).keyReserveEvent.rows = tables.keyReserveEvent.rows ++ [value.logRow] := by
  rcases tables.keyReserveEvent.insert?_cases value.logRow with
    ⟨hOld, -⟩ | ⟨-, table, hStored, hRows⟩
  · exact absurd hOld hNew
  · rw [ParsedReserveEvent.book, hStored]
    exact hRows

theorem books_book (hBooks : Books values tables) (hNew : value.ident ∉ tables.logged) :
    Books (values ++ [value]) (value.book tables) where
  log := by
    rw [List.map_append, ← hBooks.log]
    exact rows_book hNew
  row := by
    intro keyId
    unfold ParsedReserveEvent.book
    rw [Table.find?_upsert, value.key_opened, hBooks.row, List.filter_append]
    unfold reserveAfter
    by_cases hKey : value.keyId = keyId
    · rw [if_pos hKey.symm, List.filter_cons_of_pos (by simpa), List.filter_nil, List.foldl_append]
      rfl
    · rw [if_neg (Ne.symm hKey), List.filter_cons_of_neg (by simpa), List.filter_nil,
        List.append_nil]

theorem logged_book (value : ParsedReserveEvent) (tables : ReserveTables)
    (hNew : value.ident ∉ tables.logged) (k : String × Nat) :
    k ∈ (value.book tables).logged ↔ k = value.ident ∨ k ∈ tables.logged := by
  unfold ReserveTables.logged
  rw [rows_book hNew, List.map_append, List.mem_append, or_comm]
  exact or_congr_left List.mem_singleton

theorem books_deliver (deliveries : List (List ReserveEvent × List Outcome)) :
    Books (recordedReserves deliveries) (deliver processReserveEvents deliveries
      .empty).toReserveTables := by
  have hActs : ∀ event, isReserveEvent event = true →
      Single (reserveEffect event) (handleReserveEvent event) :=
    fun event hEvent => single_handleReserveEvent hEvent
  have hIdle : ∀ event, isReserveEvent event = false →
      handleReserveEvent event = pure () := by
    intro event hEvent
    unfold handleReserveEvent
    rw [hEvent]
    rfl
  have hBatch : ∀ events, processReserveEvents events = forEach handleReserveEvent
      (PipelineEvent.dedupe events) :=
    fun _ => rfl
  rw [deliver_eq_foldl hBatch hActs hIdle, foldl_effect ReserveDb.toReserveTables
    toReserveTables_effect]
  have hEmpty : Books [] ReserveDb.empty.toReserveTables := ⟨rfl, fun _ => rfl⟩
  exact holds_foldl logged_book (fun _ _ _ => books_book) _ hEmpty

-- Balances That Equal Their Logs
----

theorem loggedTotal_books (hBooks : Books values tables) (keyId : String) (type : ReserveType) :
    tables.loggedTotal keyId type = amountOf type (values.filter (·.keyId = keyId)) := by
  unfold ReserveTables.loggedTotal amountOf
  rw [hBooks.log, List.filter_map, List.map_map, List.filter_filter]
  congr 2
  apply List.filter_congr
  intro value _
  simp only [Function.comp_apply, ParsedReserveEvent.logRow, Bool.decide_and]
  exact Bool.and_comm _ _

variable {keyId : String}

theorem exists_opening (hBooks : Books values tables)
    (hRow : tables.keyReserve.find? keyId = some row) :
    ∃ value rest, values.filter (·.keyId = keyId) = value :: rest := by
  cases hFilter : values.filter (·.keyId = keyId) with
  | nil =>
    rw [hBooks.row, hFilter] at hRow
    cases hRow
  | cons value rest => exact ⟨value, rest, rfl⟩

theorem exists_row (hBooks : Books values tables) {rest : List ParsedReserveEvent}
    (hFilter : values.filter (·.keyId = keyId) = value :: rest) :
    ∃ row, tables.keyReserve.find? keyId = some row ∧
      (tables.AgreesWithLog row ↔ value.type = .accrued) := by
  rcases reserveAfter_opened value rest with ⟨row, hAfter, -, hTotals, hDrift⟩
  have hFound : tables.keyReserve.find? keyId = some row := by rw [hBooks.row, hFilter, hAfter]
  have hKey : row.keyId = keyId := Table.key_of_find? hFound
  refine ⟨row, hFound, ?_⟩
  unfold ReserveTables.AgreesWithLog
  rw [loggedTotal_books hBooks, loggedTotal_books hBooks, hKey, hFilter, ← hTotals.1, ← hTotals.2]
  have hBalance : row.balance = row.totalAccrued - row.totalDeployed ↔
      value.unbacked = 0 := by
    rw [← hDrift, KeyReserve.drift, sub_eq_zero]
  rw [hBalance, ParsedReserveEvent.unbacked]
  have hPos := value.amountPos
  cases hType : value.type with
  | accrued => simp
  | deployed => simp [hPos.ne']

/- No key is opened by a deployment. -/
def OpensWithAccruals (values : List ParsedReserveEvent) : Prop :=
  ∀ keyId, ∀ value ∈ (values.filter (·.keyId = keyId)).head?, value.type = .accrued

theorem agree_iff_of_books (hBooks : Books values tables) :
    tables.Agree ↔ OpensWithAccruals values := by
  constructor
  · intro hAgree keyId value hHead
    cases hFilter : values.filter (·.keyId = keyId) with
    | nil =>
      rw [hFilter] at hHead
      cases hHead
    | cons first rest =>
      rw [hFilter] at hHead
      cases hHead
      rcases exists_row hBooks hFilter with ⟨row, hFound, hIff⟩
      exact hIff.mp (hAgree.rows row (Table.mem_of_find? hFound))
  · intro hOpens
    constructor
    · intro entry hEntry
      rw [hBooks.log] at hEntry
      rcases List.mem_map.mp hEntry with ⟨value, hValue, rfl⟩
      have hMem : value ∈ values.filter (·.keyId = value.keyId) :=
        List.mem_filter.mpr ⟨hValue, decide_eq_true rfl⟩
      rcases List.exists_cons_of_ne_nil (List.ne_nil_of_mem hMem) with ⟨first, rest, hFilter⟩
      rcases exists_row hBooks hFilter with ⟨row, hFound, -⟩
      exact ⟨row, hFound⟩
    · intro row hRow
      have hFound := Table.find?_of_mem hRow
      rcases exists_opening hBooks hFound with ⟨value, rest, hFilter⟩
      rcases exists_row hBooks hFilter with ⟨row', hFound', hIff⟩
      rw [hFound] at hFound'
      cases hFound'
      apply hIff.mpr
      apply hOpens (key row) value
      rw [hFilter]
      rfl

/-
  For all deliveries of any batches, cut off or failing at any
  transaction, the rows equal the folds of their logs if and only
  if each key is first recorded by an accrual.
-/
theorem reserves_agree_iff (deliveries : List (List ReserveEvent × List Outcome)) :
    (deliver processReserveEvents deliveries .empty).toReserveTables.Agree ↔
      OpensWithAccruals (recordedReserves deliveries) :=
  agree_iff_of_books (books_deliver deliveries)

def reserveEvent (eventType txHash : String) (ledger stroops : ℤ) : ReserveEvent where
  toIndexerChainEvent := { bareEvent eventType txHash 0 ledger with creatorId := some "key" }
  payload := { keyId := none, amount := .bigint stroops }

/- The deployment of one unit is delivered before the accrual. -/
def deploymentFirst : List (List ReserveEvent × List Outcome) :=
  [([reserveEvent "RESERVE_DEPLOYED" "b" 2 10000000], [.served]),
    ([reserveEvent "RESERVE_ACCRUED" "a" 1 30000000], [.served])]

/- Three accrued less one deployed leave a balance of three. -/
theorem deploymentFirst_disagrees :
    ¬ (deliver processReserveEvents deploymentFirst .empty).toReserveTables.Agree := by
  rw [agree_iff_of_books (books_deliver deploymentFirst)]
  intro hOpens
  have hFirst : ((recordedReserves deploymentFirst).filter (·.keyId = "key")).head?.map (·.type) =
      some .deployed := by decide
  rcases Option.map_eq_some_iff.mp hFirst with ⟨value, hHead, hType⟩
  rw [hOpens "key" value hHead] at hType
  cases hType

end Indexer

end AccessLayer
