import AccessLayer.Indexer.Dispatch
import AccessLayer.Library.Deliveries

/-
  Liquidity positions and the log of liquidity events
  (`src/modules/indexer/lp-indexer.service.ts`).

  A text is what `Number` makes of it; one that the database does
  not take for a decimal fails its transaction.

  Main result: `processLpEvents_eq_fold`
-/

-- Events
----

namespace AccessLayer

namespace Indexer

open Transactional Program

section

/- A field that should be a text; `none` is not finite. -/
inductive LpField where
  | text (number : Option ℚ)
  | other

structure LpFields where
  wallet : Option String
  keyId : Option String
  sharePercent : Option LpField
  rewardAmount : Option LpField
  amount : Option LpField

abbrev LpEvent := PipelineEvent LpFields

/- What an event does to a position. -/
inductive LpChange where
  | added (sharePercent amount : ℚ)
  | claimed (rewardAmount : ℚ)
  | removed

/- An event that has passed its checks. -/
structure LpChainEvent where
  eventType : String
  txHash : String
  eventIndex : Nat
  wallet : String
  keyId : String
  change : LpChange

/- A text with a finite number that is not negative. -/
def LpField.amount? : LpField → Option ℚ
  | .text (some number) =>
    if 0 ≤ number then some number else none
  | .text none => none
  | .other => none

/- The change that an event asks for; `none` when it is invalid. -/
def LpFields.change? (fields : LpFields) (eventType : String) : Option LpChange :=
  if eventType = "LP_ADDED" then
    match fields.sharePercent.bind LpField.amount? with
    | none => none
    | some sharePercent =>
      match fields.amount with
      | none => some (.added sharePercent 0)
      | some amount => amount.amount?.map (.added sharePercent)
  else if eventType = "LP_CLAIMED" then
    (fields.rewardAmount.bind LpField.amount?).map .claimed
  else some .removed

def isValidEvent (event : LpEvent) : Option LpChainEvent :=
  match event.payload.wallet.filter (· ≠ ""), event.payload.keyId.filter (· ≠ "") with
  | some wallet, some keyId =>
    (event.payload.change? (normalizeEventType event.eventType)).map fun change =>
      { eventType := normalizeEventType event.eventType
        txHash := event.txHash
        eventIndex := event.eventIndex
        wallet
        keyId
        change }
  | _, _ => none

-- Positions
----

inductive LpStatus where
  | active
  | removed
  deriving DecidableEq

/- What one wallet holds in the pool of one key. -/
structure LpShare where
  sharePercent : ℚ
  amount : ℚ
  accruedRewards : ℚ
  status : LpStatus

structure LpPosition extends LpShare where
  wallet : String
  keyId : String

structure LpEventLog where
  txHash : String
  eventIndex : Nat
  eventType : String

instance : Keyed LpEventLog (String × Nat) where
  key row := (row.txHash, row.eventIndex)

structure LpDb where
  lpPosition : List LpPosition
  lpEventLog : Table LpEventLog

abbrev LpM := Program LpDb IndexerError

def LpDb.empty : LpDb where
  lpPosition := []
  lpEventLog := .empty

def LpPosition.isOf (wallet keyId : String) (row : LpPosition) : Bool :=
  row.wallet = wallet ∧ row.keyId = keyId

def LpPosition.mapShare (f : LpShare → LpShare) (row : LpPosition) : LpPosition :=
  { row with toLpShare := f row.toLpShare }

/- The row that `findFirst` returns is rewritten. -/
def updateExisting (wallet keyId : String) (f : LpShare → LpShare)
    (rows : List LpPosition) : List LpPosition :=
  rows.modify (rows.findIdx (LpPosition.isOf wallet keyId)) (LpPosition.mapShare f)

/- Liquidity that is added to a removed position starts anew. -/
def LpShare.add (sharePercent amount : ℚ) (share : LpShare) : LpShare :=
  { share with
    sharePercent
    amount :=
      if share.status = .removed then amount
      else share.amount + amount
    status := .active }

def LpShare.claim (rewardAmount : ℚ) (share : LpShare) : LpShare :=
  { share with
    accruedRewards := share.accruedRewards + rewardAmount }

def LpShare.remove (share : LpShare) : LpShare :=
  { share with
    status := .removed
    amount := 0 }

namespace LpChainEvent

variable (event : LpChainEvent)

def ident : String × Nat := (event.txHash, event.eventIndex)

def logRow : LpEventLog where
  txHash := event.txHash
  eventIndex := event.eventIndex
  eventType := event.eventType

/- Claims and removals without a position are passed over. -/
def applyTo (rows : List LpPosition) : List LpPosition :=
  match event.change with
  | .added sharePercent amount =>
    if rows.any (LpPosition.isOf event.wallet event.keyId) then
      updateExisting event.wallet event.keyId (LpShare.add sharePercent amount) rows
    else
      rows ++
        [{ wallet := event.wallet
           keyId := event.keyId
           sharePercent
           amount
           accruedRewards := 0
           status := .active }]
  | .claimed rewardAmount =>
    updateExisting event.wallet event.keyId (LpShare.claim rewardAmount) rows
  | .removed => updateExisting event.wallet event.keyId LpShare.remove rows

end LpChainEvent

/- Log an event and change its position, or do neither. -/
def recordLpEvent
    (event : LpChainEvent) (db : LpDb) : Except IndexerError (Unit × LpDb) :=
  match db.lpEventLog.insert? event.logRow with
  | none => .error .uniqueViolation
  | some lpEventLog =>
    .ok
      ((),
        { lpPosition := event.applyTo db.lpPosition
          lpEventLog })

def handleLpEvent (event : LpEvent) : LpM Unit :=
  if isLpEventType event.eventType then
    match isValidEvent event with
    | none => pure ()
    | some event =>
      tryCatch (execute .database (recordLpEvent event)) (fun error =>
        if error = .uniqueViolation then pure ()
        else throw error)
  else pure ()

def processLpEvents (events : List LpEvent) : LpM Unit :=
  forEach handleLpEvent (PipelineEvent.dedupe events)

end

-- The Meaning of a Change
----

section

/- A change makes of a share, or of none, what it becomes. -/
def LpChange.apply (share : Option LpShare) : LpChange → Option LpShare
  | .added sharePercent amount =>
    some (share.elim
      { sharePercent
        amount
        accruedRewards := 0
        status := .active } (LpShare.add sharePercent amount))
  | .claimed rewardAmount => share.map (LpShare.claim rewardAmount)
  | .removed => share.map LpShare.remove

def LpChainEvent.isOf (wallet keyId : String) (event : LpChainEvent) : Bool :=
  event.wallet = wallet ∧ event.keyId = keyId

def shareAfter (events : List LpChainEvent) (wallet keyId : String) : Option LpShare :=
  ((events.filter (LpChainEvent.isOf wallet keyId)).map (·.change)).foldl LpChange.apply none

def Positions (shares : String → String → Option LpShare) (rows : List LpPosition) : Prop :=
  ∀ wallet keyId, rows.filter (LpPosition.isOf wallet keyId) =
    ((shares wallet keyId).map fun share => { toLpShare := share, wallet, keyId }).toList

variable {α : Type} {p : α → Bool}

theorem filter_modify_first {f : α → α} (hSame : ∀ x, p (f x) = p x) (xs : List α) :
    (xs.modify (xs.findIdx p) f).filter p = (xs.filter p).modifyHead f := by
  induction xs with
  | nil => rfl
  | cons x rest ih =>
    rw [List.findIdx_cons]
    cases hx : p x with
    | true =>
      rw [cond_true, List.modify_zero_cons, List.filter_cons_of_pos ((hSame x).trans hx),
        List.filter_cons_of_pos hx]
      rfl
    | false =>
      have hOut : ¬ p x = true := by simp [hx]
      rw [cond_false, List.modify_succ_cons, List.filter_cons_of_neg hOut,
        List.filter_cons_of_neg hOut, ih]

theorem filter_modify_other {q : α → Bool} {f : α → α} (hSame : ∀ x, q (f x) = q x)
    (hApart : ∀ x, p x = true → q x = false) (xs : List α) :
    (xs.modify (xs.findIdx p) f).filter q = xs.filter q := by
  induction xs with
  | nil => rfl
  | cons x rest ih =>
    rw [List.findIdx_cons]
    cases hx : p x with
    | true =>
      have hOut := hApart x hx
      rw [cond_true, List.modify_zero_cons, List.filter_cons_of_neg (by simp [hSame, hOut]),
        List.filter_cons_of_neg (by simp [hOut])]
    | false => rw [cond_false, List.modify_succ_cons, List.filter_cons, List.filter_cons, ih]

theorem any_iff_filter {xs : List α} : xs.any p = true ↔ xs.filter p ≠ [] := by
  constructor
  · intro hAny hNil
    rcases List.any_eq_true.mp hAny with ⟨x, hx, hp⟩
    exact List.filter_eq_nil_iff.mp hNil x hx hp
  · intro hSome
    rcases List.exists_mem_of_ne_nil _ hSome with ⟨x, hx⟩
    rcases List.mem_filter.mp hx with ⟨hMem, hp⟩
    exact List.any_eq_true.mpr ⟨x, hMem, hp⟩

variable {wallet keyId : String} {f : LpShare → LpShare} {rows : List LpPosition}

theorem filter_updateExisting :
    (updateExisting wallet keyId f rows).filter (LpPosition.isOf wallet keyId) =
      (rows.filter (LpPosition.isOf wallet keyId)).modifyHead (LpPosition.mapShare f) :=
  filter_modify_first (f := LpPosition.mapShare f) (fun _ => rfl) rows

variable {wallet' keyId' : String}

theorem isOf_apart (hOther : ¬ (wallet = wallet' ∧ keyId = keyId')) (row : LpPosition)
    (hRow : row.isOf wallet keyId = true) :
    row.isOf wallet' keyId' = false := by
  have hWallet := of_decide_eq_true hRow
  apply decide_eq_false
  rintro ⟨hWallet', hKey'⟩
  exact hOther ⟨hWallet.1.symm.trans hWallet', hWallet.2.symm.trans hKey'⟩

theorem filter_updateExisting_other (hOther : ¬ (wallet = wallet' ∧ keyId = keyId')) :
    (updateExisting wallet keyId f rows).filter (LpPosition.isOf wallet' keyId') =
      rows.filter (LpPosition.isOf wallet' keyId') :=
  filter_modify_other (f := LpPosition.mapShare f) (fun _ => rfl) (isOf_apart hOther) rows

variable {event : LpChainEvent}

theorem filter_applyTo_other (hOther : ¬ (event.wallet = wallet' ∧ event.keyId = keyId')) :
    (event.applyTo rows).filter (LpPosition.isOf wallet' keyId') =
      rows.filter (LpPosition.isOf wallet' keyId') := by
  unfold LpChainEvent.applyTo
  cases event.change with
  | added sharePercent amount =>
    dsimp only
    split
    · exact filter_updateExisting_other hOther
    · rw [List.filter_append, List.filter_cons_of_neg, List.filter_nil, List.append_nil]
      simpa [LpPosition.isOf] using hOther
  | claimed rewardAmount => exact filter_updateExisting_other hOther
  | removed => exact filter_updateExisting_other hOther

/- An event makes of the share what its change says. -/
theorem filter_applyTo {share : Option LpShare}
    (hRows : rows.filter (LpPosition.isOf event.wallet event.keyId) = (share.map fun share =>
      { toLpShare := share
        wallet := event.wallet
        keyId := event.keyId }).toList) :
    (event.applyTo rows).filter (LpPosition.isOf event.wallet event.keyId) =
      ((event.change.apply share).map fun share =>
        { toLpShare := share
          wallet := event.wallet
          keyId := event.keyId }).toList := by
  unfold LpChainEvent.applyTo
  cases event.change with
  | added sharePercent amount =>
    dsimp only
    cases share with
    | some share =>
      have hAny : rows.any (LpPosition.isOf event.wallet event.keyId) =
          true := by
        rw [any_iff_filter, hRows]
        exact List.cons_ne_nil _ _
      rw [if_pos hAny, filter_updateExisting, hRows]
      rfl
    | none =>
      have hAny : ¬ rows.any (LpPosition.isOf event.wallet event.keyId) =
          true := by
        rw [any_iff_filter, hRows]
        exact not_not_intro rfl
      rw [if_neg hAny, List.filter_append, hRows,
        List.filter_cons_of_pos (by simp [LpPosition.isOf])]
      rfl
  | claimed rewardAmount =>
    rw [filter_updateExisting, hRows]
    cases share <;> rfl
  | removed =>
    rw [filter_updateExisting, hRows]
    cases share <;> rfl

end

-- Positions After Any Deliveries
----

/- An event that opens a transaction. -/
def isAppliedLpEvent (event : LpEvent) : Bool :=
  isLpEventType event.eventType && (isValidEvent event).isSome

/- The store after an event that reached it. -/
def lpEffect (event : LpEvent) (db : LpDb) : LpDb :=
  match isValidEvent event with
  | none => db
  | some event => written (recordLpEvent event) db

/- The distinct events of some deliveries, in the order of their first successful ones. -/
def recordedLpEvents (deliveries : List (List LpEvent × List Outcome)) : List LpChainEvent :=
  firsts LpChainEvent.ident ((arrivals isAppliedLpEvent PipelineEvent.dedupe
    deliveries).filterMap isValidEvent)

/- The store that some distinct events leave. -/
structure Reflects (events : List LpChainEvent) (db : LpDb) : Prop where
  log : db.lpEventLog.rows = events.map LpChainEvent.logRow
  positions : Positions (shareAfter events) db.lpPosition

def LpDb.logged (db : LpDb) : List (String × Nat) := db.lpEventLog.rows.map key

def LpChainEvent.record (event : LpChainEvent) (db : LpDb) : LpDb where
  lpPosition := event.applyTo db.lpPosition
  lpEventLog := (db.lpEventLog.insert? event.logRow).getD db.lpEventLog

variable {event : LpEvent}

theorem single_handleLpEvent (hActs : isAppliedLpEvent event = true) :
    Single (lpEffect event) (handleLpEvent event) := by
  rcases Bool.and_eq_true_iff.mp hActs with ⟨hType, hValid⟩
  rcases Option.isSome_iff_exists.mp hValid with ⟨valid, hValid⟩
  unfold handleLpEvent lpEffect
  rw [if_pos hType, hValid]
  refine single_tryCatch ?_ rfl
  intro db e hError
  unfold recordLpEvent at hError
  split at hError
  · cases hError
    rfl
  · cases hError

theorem handleLpEvent_idle (hIdle : isAppliedLpEvent event = false) :
    handleLpEvent event = pure () := by
  unfold isAppliedLpEvent at hIdle
  unfold handleLpEvent
  cases hType : isLpEventType event.eventType with
  | false => rfl
  | true =>
    rw [hType, Bool.true_and, Option.isSome_eq_false_iff, Option.isNone_iff_eq_none] at hIdle
    rw [if_pos rfl, hIdle]

theorem lpEffect_eq (event : LpEvent) (db : LpDb) :
    lpEffect event db = (isValidEvent event).elim db (applyOnce LpChainEvent.ident LpDb.logged
      LpChainEvent.record db) := by
  unfold lpEffect
  cases isValidEvent event with
  | none => rfl
  | some event =>
    dsimp only [Option.elim]
    rw [applyOnce]
    unfold written recordLpEvent
    rcases db.lpEventLog.insert?_cases event.logRow with ⟨hOld, hStored⟩ | ⟨hNew, table, hStored, -⟩
    · have hLogged : event.ident ∈ db.logged := hOld
      rw [if_pos hLogged, hStored]
    · have hFresh : event.ident ∉ db.logged := hNew
      rw [if_neg hFresh, hStored, LpChainEvent.record, hStored]
      rfl

variable {db : LpDb}

theorem rows_of_record {event : LpChainEvent} (hNew : event.ident ∉ db.logged) :
    (event.record db).lpEventLog.rows = db.lpEventLog.rows ++ [event.logRow] := by
  rcases db.lpEventLog.insert?_cases event.logRow with ⟨hOld, -⟩ | ⟨-, table, hStored, hRows⟩
  · exact absurd hOld hNew
  · rw [LpChainEvent.record, hStored]
    exact hRows

theorem logged_record (event : LpChainEvent) (db : LpDb) (hNew : event.ident ∉ db.logged)
    (k : String × Nat) :
    k ∈ (event.record db).logged ↔ k = event.ident ∨ k ∈ db.logged := by
  unfold LpDb.logged
  rw [rows_of_record hNew, List.map_append, List.mem_append, or_comm]
  exact or_congr_left List.mem_singleton

/- One more event changes the share of its wallet and key. -/
theorem reflects_record {events : List LpChainEvent} {event : LpChainEvent}
    (hReflects : Reflects events db) (hNew : event.ident ∉ db.logged) :
    Reflects (events ++ [event]) (event.record db) where
  log := by
    rw [List.map_append, ← hReflects.log]
    exact rows_of_record hNew
  positions := by
    intro wallet keyId
    have hRows := hReflects.positions wallet keyId
    unfold shareAfter at hRows ⊢
    rw [List.filter_append, List.map_append, List.foldl_append]
    by_cases hSame : event.wallet = wallet ∧ event.keyId = keyId
    · rcases hSame with ⟨rfl, rfl⟩
      rw [List.filter_cons_of_pos (by simp [LpChainEvent.isOf])]
      exact filter_applyTo hRows
    · rw [List.filter_cons_of_neg (by simpa [LpChainEvent.isOf] using hSame)]
      exact (filter_applyTo_other hSame).trans hRows

/-
  After all deliveries of any batches, cut off or failing at any
  transaction, each distinct event is logged once and the
  positions are the fold of the distinct events in the order of
  their first successful delivery.
-/
theorem processLpEvents_eq_fold (deliveries : List (List LpEvent × List Outcome)) :
    Reflects (recordedLpEvents deliveries) (deliver processLpEvents deliveries .empty) := by
  have hBatch :
      ∀ events, processLpEvents events = forEach handleLpEvent (PipelineEvent.dedupe events) :=
    fun _ => rfl
  have hFold (events : List LpEvent) : events.foldl (fun db event => lpEffect event db) .empty =
      (events.filterMap isValidEvent).foldl (applyOnce LpChainEvent.ident LpDb.logged
        LpChainEvent.record) .empty :=
    foldl_effect (fun db => db) lpEffect_eq events .empty
  rw [deliver_eq_foldl hBatch (fun _ => single_handleLpEvent) (fun _ => handleLpEvent_idle), hFold]
  have hEmpty : Reflects [] LpDb.empty := ⟨rfl, fun _ _ => rfl⟩
  exact holds_foldl logged_record (fun _ _ _ => reflects_record) _ hEmpty

end Indexer

end AccessLayer
