import AccessLayer.Indexer.EventFields
import AccessLayer.Library.Machines

/-
  Deposits into and withdrawals from the staking vault
  (`src/modules/indexer/vault-indexer.service.ts`,
  `prisma/schema/vault.prisma`).

  The transaction of an event inserts its log row, reads the
  position and overwrites its quantity; other handlers may commit
  between these statements.  A quantity that is no finite number
  is `none`.  Logs of the process are left out.

  Main result: `positions_agree_with_log`
-/

-- Events
----

namespace AccessLayer

namespace Indexer

open Transactional

structure VaultFields where
  wallet : Option String
  quantity : Option ℚ

abbrev VaultChainEvent := PipelineEvent VaultFields

inductive VaultEventType where
  | deposit
  | withdraw

def VaultEventType.ofName : String → Option VaultEventType
  | "VAULT_DEPOSIT" => some .deposit
  | "VAULT_WITHDRAW" => some .withdraw
  | _ => none

/- The quantity after an event; it never falls below zero. -/
def VaultEventType.apply (type : VaultEventType) (quantity current : ℚ) : ℚ :=
  match type with
  | .deposit => current + quantity
  | .withdraw => max 0 (current - quantity)

/- An event that has passed its checks. -/
structure VaultEvent where
  eventType : VaultEventType
  wallet : String
  creatorId : String
  quantity : ℚ
  ledger : Option ℤ
  txHash : String
  eventIndex : Nat

/- Other events, and events with invalid fields, are skipped. -/
def vaultEventOf (event : VaultChainEvent) : Option VaultEvent := do
  let eventType ← VaultEventType.ofName event.eventType
  let wallet ← present event.payload.wallet
  let creatorId ← present event.creatorId
  let quantity ← event.payload.quantity.filter (0 < ·)
  some {
    eventType
    wallet
    creatorId
    quantity
    ledger := event.ledger
    txHash := event.txHash
    eventIndex := event.eventIndex }

structure VaultEventLog where
  eventType : VaultEventType
  wallet : String
  creatorId : String
  quantity : ℚ
  ledger : ℤ
  txHash : String
  eventIndex : Nat

instance : Keyed VaultEventLog (String × Nat) := ⟨fun row => (row.txHash, row.eventIndex)⟩

structure VaultPosition where
  wallet : String
  creatorId : String
  quantity : ℚ

instance : Keyed VaultPosition (String × String) := ⟨fun row => (row.wallet, row.creatorId)⟩

structure VaultDb where
  vaultEventLog : Table VaultEventLog
  vaultPosition : Table VaultPosition

def VaultDb.empty : VaultDb where
  vaultEventLog := .empty
  vaultPosition := .empty

/- The quantity of a position, zero without a row. -/
def VaultDb.quantity (db : VaultDb) (wallet creatorId : String) : ℚ :=
  ((db.vaultPosition.find? (wallet, creatorId)).map VaultPosition.quantity).getD 0

def VaultEvent.log (event : VaultEvent) (ledger : ℤ) : VaultEventLog where
  eventType := event.eventType
  wallet := event.wallet
  creatorId := event.creatorId
  quantity := event.quantity
  ledger := ledger
  txHash := event.txHash
  eventIndex := event.eventIndex

-- Statements
----

inductive VaultError where
  | database
  | invalidLedger

/-
  A handler: the event whose transaction it is in, what it has
  read there, and the events that follow.
-/
inductive VaultWork where
  | createLog (event : VaultEvent) (rest : List VaultChainEvent)
  | findPosition (row : VaultEventLog) (rest : List VaultChainEvent)
  | commit (row : VaultEventLog) (current : ℚ) (rest : List VaultChainEvent)
  | ended (result : Except VaultError Unit)

/- The transaction of the next event that has one. -/
def nextVaultEvent : List VaultChainEvent → VaultWork
  | [] => .ended (.ok ())
  | event :: rest =>
    match vaultEventOf event with
    | none => nextVaultEvent rest
    | some vaultEvent => .createLog vaultEvent rest

def VaultPosition.withQuantity (quantity : ℚ) (row : VaultPosition) : VaultPosition :=
  { row with quantity }

theorem key_withQuantity (quantity : ℚ) (row : VaultPosition) :
    key (row.withQuantity quantity) = key row := rfl

def VaultDb.setQuantity (db : VaultDb) (wallet creatorId : String) (quantity : ℚ) : VaultDb :=
  { db with
    vaultPosition :=
      db.vaultPosition.upsert { wallet, creatorId, quantity }
        (.withQuantity quantity) (key_withQuantity quantity) }

/- The writes of a transaction; a replay has a conflicting key. -/
def VaultDb.commit (db : VaultDb) (row : VaultEventLog) (current : ℚ) : Option VaultDb :=
  (db.vaultEventLog.insert? row).map fun vaultEventLog =>
    { db.setQuantity row.wallet row.creatorId (row.eventType.apply row.quantity current) with
      vaultEventLog }

def executeVaultWork (call : VaultWork) (db : VaultDb) : Option (VaultDb × VaultWork) :=
  match call with
  | .createLog event rest =>
    match event.ledger with
    | none => some (db, .ended (.error .invalidLedger))
    | some ledger =>
      let row := event.log ledger
      match db.vaultEventLog.find? (key row) with
      | some _ => some (db, nextVaultEvent rest)
      | none => some (db, .findPosition row rest)
  | .findPosition row rest => some (db, .commit row (db.quantity row.wallet row.creatorId) rest)
  | .commit row current rest =>
    match db.commit row current with
    | some db' => some (db', nextVaultEvent rest)
    -- the conflict with a row that was committed meanwhile
    | none => some (db, nextVaultEvent rest)
  | .ended _ => none

/- An error other than the conflict ends the batch. -/
def VaultWork.fail : VaultWork → VaultWork
  | .ended result => .ended result
  | _ => .ended (.error .database)

def vaultIndexer : Machine VaultDb VaultWork where
  execute := executeVaultWork
  fail := VaultWork.fail

def processVaultEvents (events : List VaultChainEvent) : VaultWork :=
  nextVaultEvent (PipelineEvent.dedupe events)

/- Handlers that deliver batches side by side. -/
def vaultHandlers (batches : List (List VaultChainEvent)) : Crew VaultDb VaultWork :=
  .start .empty (batches.map processVaultEvents)

-- Positions and Their Logs
----

/- The logged events of a position, in commit order. -/
def VaultDb.logOf (db : VaultDb) (wallet creatorId : String) : List VaultEventLog :=
  db.vaultEventLog.rows.filter fun row => (row.wallet, row.creatorId) = (wallet, creatorId)

/- The quantity that logged events lead to. -/
def replay (rows : List VaultEventLog) : ℚ :=
  rows.foldl (fun current row => row.eventType.apply row.quantity current) 0

/- Every position has the quantity that its log leads to. -/
def AgreesWithLog (db : VaultDb) : Prop :=
  ∀ wallet creatorId, db.quantity wallet creatorId = replay (db.logOf wallet creatorId)

/- The quantity of a position is overwritten while it is the one that the transaction has read. -/
def Current (db : VaultDb) (call : VaultWork) (outcome : Option Outcome) : Prop :=
  match call with
  | .commit row current _ =>
    takesEffect outcome = true → db.vaultEventLog.find? (key row) = none →
      db.quantity row.wallet row.creatorId = current
  | _ => True

instance (db : VaultDb) (call : VaultWork) (outcome : Option Outcome) :
    Decidable (Current db call outcome) := by
  unfold Current
  split <;> infer_instance

theorem quantity_setQuantity (db : VaultDb) (wallet creatorId : String) (quantity : ℚ)
    (wallet' creatorId' : String) :
    (db.setQuantity wallet creatorId quantity).quantity wallet' creatorId' =
      if (wallet', creatorId') = (wallet, creatorId) then quantity
      else db.quantity wallet' creatorId' := by
  have hFind :
      (db.setQuantity wallet creatorId quantity).vaultPosition.find? (wallet', creatorId') =
        if (wallet', creatorId') = (wallet, creatorId) then
          some ((db.vaultPosition.find? (wallet', creatorId')).elim { wallet, creatorId, quantity }
            (.withQuantity quantity))
        else db.vaultPosition.find? (wallet', creatorId') :=
    Table.find?_upsert _ _ _ _ _
  rw [VaultDb.quantity, hFind, VaultDb.quantity]
  by_cases hSame : (wallet', creatorId') = (wallet, creatorId)
  · rw [if_pos hSame, if_pos hSame]
    cases db.vaultPosition.find? (wallet', creatorId') with
    | none => rfl
    | some row => rfl
  · rw [if_neg hSame, if_neg hSame]

variable {db db' : VaultDb} {row : VaultEventLog} {current : ℚ}

theorem replay_logOf_commit (hCommit : db.commit row current = some db')
    (wallet creatorId : String) :
    replay (db'.logOf wallet creatorId) =
      if (wallet, creatorId) = (row.wallet, row.creatorId) then
        row.eventType.apply row.quantity (replay (db.logOf wallet creatorId))
      else replay (db.logOf wallet creatorId) := by
  rcases Option.map_eq_some_iff.mp hCommit with ⟨vaultEventLog, hInsert, rfl⟩
  unfold VaultDb.logOf
  rw [(Table.insert?_eq_some hInsert).2, List.filter_append]
  by_cases hSame : (wallet, creatorId) = (row.wallet, row.creatorId)
  · rw [if_pos hSame, List.filter_cons_of_pos]
    · simp [replay]
    · exact decide_eq_true hSame.symm
  · rw [if_neg hSame, List.filter_cons_of_neg]
    · simp
    · exact fun h => hSame (of_decide_eq_true h).symm

/-
  The quantities agree after a commit exactly if what it wrote is
  what the stored quantity leads to.
-/
theorem agreesWithLog_commit_iff (hAgrees : AgreesWithLog db)
    (hCommit : db.commit row current = some db') :
    AgreesWithLog db' ↔ row.eventType.apply row.quantity current = row.eventType.apply row.quantity
      (db.quantity row.wallet row.creatorId) := by
  have hQuantity : ∀ wallet creatorId, db'.quantity wallet creatorId =
      if (wallet, creatorId) = (row.wallet, row.creatorId) then
        row.eventType.apply row.quantity current
      else db.quantity wallet creatorId := by
    rcases Option.map_eq_some_iff.mp hCommit with ⟨vaultEventLog, -, rfl⟩
    exact quantity_setQuantity db _ _ _
  unfold AgreesWithLog
  simp only [hQuantity, replay_logOf_commit hCommit]
  constructor
  · intro h
    have hOwn := h row.wallet row.creatorId
    rw [if_pos rfl, if_pos rfl, ← hAgrees] at hOwn
    exact hOwn
  · intro hSameResult wallet creatorId
    split
    · rename_i hSame
      cases hSame
      rw [← hAgrees, hSameResult]
    · exact hAgrees wallet creatorId

theorem agreesWithLog_step {call next : VaultWork} {outcome : Option Outcome}
    (hAgrees : AgreesWithLog db) (hCurrent : Current db call outcome)
    (hEffect : takesEffect outcome = true)
    (hExecute : vaultIndexer.execute call db = some (db', next)) :
    AgreesWithLog db' := by
  change executeVaultWork call db = some (db', next) at hExecute
  cases call with
  | createLog event rest =>
    simp only [executeVaultWork] at hExecute
    split at hExecute
    · cases hExecute
      exact hAgrees
    · split at hExecute
      · cases hExecute
        exact hAgrees
      · cases hExecute
        exact hAgrees
  | findPosition row rest =>
    cases hExecute
    exact hAgrees
  | commit row current rest =>
    simp only [executeVaultWork] at hExecute
    split at hExecute
    · rename_i committed hCommit
      cases hExecute
      have hFresh : db.vaultEventLog.find? (key row) = none := by
        rcases Option.map_eq_some_iff.mp hCommit with ⟨vaultEventLog, hInsert, -⟩
        exact (Table.insert?_eq_some hInsert).1
      rw [agreesWithLog_commit_iff hAgrees hCommit, hCurrent hEffect hFresh]
    · cases hExecute
      exact hAgrees
  | ended result => cases hExecute

/-
  In runs whose transactions overwrite what they have read, every
  position is the replay of its logged events.
-/
theorem positions_agree_with_log {batches : List (List VaultChainEvent)} {moves : List FaultMove}
    {crew : Crew VaultDb VaultWork} (hRun :
      RunsTo (Crew.attempt vaultIndexer) (Crew.Admits Current) (vaultHandlers batches) moves crew) :
    AgreesWithLog crew.store := by
  have hKeeps : vaultIndexer.Keeps Current AgreesWithLog fun _ => True :=
    { execute := fun _ _ _ _ _ hAgrees _ hCurrent hEffect hExecute =>
        agreesWithLog_step hAgrees hCurrent hEffect hExecute
      next := fun _ _ _ _ _ _ _ => trivial
      fail := fun _ _ => trivial }
  have hAll : (vaultHandlers batches).All fun _ => True := fun _ _ _ => trivial
  exact (hKeeps.run (fun _ _ => rfl) hAll hRun).1

/- A deposit into one position. -/
def depositOf (txHash : String) (quantity : ℚ) : VaultChainEvent where
  toIndexerChainEvent := { bareEvent "VAULT_DEPOSIT" txHash 0 1 with creatorId := some "K" }
  payload :=
    { wallet := some "A"
      quantity := some quantity }

/- A handler that replays an event of another. -/
def replayedDeposits : List (List VaultChainEvent) :=
  [[depositOf "t" 5], [depositOf "t" 5, depositOf "u" 3]]

theorem positions_agree_with_log_sample :
    ∃ crew, RunsTo (Crew.attempt vaultIndexer) (Crew.Admits Current)
      (vaultHandlers replayedDeposits) (servedMoves 0 3 ++ servedMoves 1 4) crew ∧
      crew.store.quantity "A" "K" = 8 ∧
      AgreesWithLog crew.store := by
  have hRun := runsTo_of_runAllowed (Option.some_get (show (runAllowed (Crew.attempt vaultIndexer)
      (Crew.Admits Current) (vaultHandlers replayedDeposits)
      (servedMoves 0 3 ++ servedMoves 1 4)).isSome =
        true by
      decide +kernel)).symm
  exact ⟨_, hRun, by decide +kernel, positions_agree_with_log hRun⟩

/- Two deposits that read one quantity: the later one wins. -/
theorem overlapping_deposits_lose_one :
    ∃ moves crew, RunsTo (Crew.attempt vaultIndexer) (fun _ _ => True)
      (vaultHandlers [[depositOf "t" 5], [depositOf "u" 3]]) moves crew ∧
      ¬AgreesWithLog crew.store := by
  refine ⟨servedMoves 0 2 ++ servedMoves 1 3 ++ servedMoves 0 1, _, runsTo_of_runLabels rfl, ?_⟩
  intro hAgrees
  exact absurd (hAgrees "A" "K") (by decide +kernel)

end Indexer

end AccessLayer
