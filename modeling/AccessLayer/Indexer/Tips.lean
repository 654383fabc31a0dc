import AccessLayer.Indexer.CoCreators
import AccessLayer.Indexer.InvoiceEvents
import AccessLayer.Library.Stages

/-
  Tips and their totals
  (`src/modules/indexer/tip-indexer.service.ts`,
  `prisma/schema/key-collaboration.prisma`).

  A tip and its total are written in one interactive
  transaction.  A transaction may be aborted at any statement,
  which stands for all other errors of the database.  How `Date`
  reads a text is left open.  Caches and logs are left out.

  Main result: `tips_recorded`
-/

-- Events
----

namespace AccessLayer

namespace Indexer

section

structure TipFields where
  creator_id : Option RawField
  keyId : Option RawField
  key_id : Option RawField
  creator : Option RawField
  tipper : Option RawField
  sender : Option RawField
  wallet : Option RawField
  amount : RawField
  messageHash : Option RawField
  message_hash : Option RawField
  message_cid : Option RawField
  tippedAt : Option RawField
  timestamp : Option RawField
  createdAt : Option RawField

abbrev TipEvent := PipelineEvent TipFields

def tipIndexerDlqJobType : String := "TIP_SENT"

/- An event that has passed its checks. -/
structure ParsedTipEvent where
  keyId : String
  tipper : String
  amountXlm : ℚ
  amountPos : 0 < amountXlm
  messageHash : Option String
  tippedAt : ℤ
  ledger : ℤ
  eventIndex : Nat
  txHash : String

/- How `Date` reads what is no number of milliseconds. -/
structure TipEnv where
  dateOf : RawField → Option ℤ

variable (env : TipEnv)

/- A time that cannot be read is taken to be now. -/
def tippedAtOf (now : ℤ) (event : TipEvent) : ℤ :=
  let rawTippedAt :=
    firstPresent [event.payload.tippedAt, event.payload.timestamp,
      event.tradeAt.map fun time => .number time, event.payload.createdAt]
  let date :=
    rawTippedAt.bind fun field =>
      match field with
      | .number milliseconds => timeClip milliseconds
      | field => env.dateOf field
  date.getD now

def parseTipEvent (now : ℤ) (event : TipEvent) : Except String ParsedTipEvent :=
  match readStringField [event.creatorId.map .text, event.payload.creator_id,
    event.payload.keyId, event.payload.key_id, event.payload.creator] with
  | none => .error "missing or invalid key/creator id"
  | some keyId =>
    match readStringField [event.payload.tipper, event.payload.sender,
      event.payload.wallet, event.actor.map .text] with
    | none => .error "missing or invalid tipper"
    | some tipper =>
      match parseBigInt event.payload.amount with
      | none => .error "missing or invalid amount"
      | some amount =>
        if hAmount : 0 < amount then
          match event.ledger.filter (0 ≤ ·) with
          | none => .error "missing or invalid ledger"
          | some ledger =>
            if event.txHash = "" then
              .error "missing or invalid txHash/eventIndex"
            else
              .ok {
                keyId
                tipper
                amountXlm := stroopsToXlm amount
                amountPos := stroopsToXlm_pos hAmount
                messageHash :=
                  readStringField [event.payload.messageHash, event.payload.message_hash,
                    event.payload.message_cid]
                tippedAt := tippedAtOf env now event
                ledger
                eventIndex := event.eventIndex
                txHash := event.txHash }
        else .error "missing or invalid amount"

end

-- Transactions
----

section

open Transactional Interactive

structure KeyTip where
  keyId : String
  tipper : String
  amount : ℚ
  messageHash : Option String
  ledger : ℤ
  txHash : String
  eventIndex : Nat
  tippedAt : ℤ
  deriving DecidableEq

instance : Keyed KeyTip (String × Nat) where
  key row := (row.txHash, row.eventIndex)

structure KeyTipTotal where
  keyId : String
  total : ℚ
  count : Nat
  deriving DecidableEq

instance : Keyed KeyTipTotal String where
  key row := row.keyId

structure TipDb where
  keyTip : Table KeyTip
  keyTipTotal : Table KeyTipTotal
  indexerDLQ : List (IndexerDLQ TipFields)

def TipDb.empty : TipDb where
  keyTip := .empty
  keyTipTotal := .empty
  indexerDLQ := []

/- What names the rows that are locked. -/
inductive TipRow where
  | tip (txHash : String) (eventIndex : Nat)
  | total (keyId : String)
  deriving DecidableEq

inductive TipError where
  | uniqueViolation
  | recordNotFound

abbrev TipM := Interactive TipDb TipRow TipError

/- An event, and what its call finds when it runs. -/
structure TipDelivery where
  event : TipEvent
  now : ℤ
  atomicUpsert : Bool

namespace ParsedTipEvent

variable (value : ParsedTipEvent)

def tip : KeyTip where
  keyId := value.keyId
  tipper := value.tipper
  amount := value.amountXlm
  messageHash := value.messageHash
  ledger := value.ledger
  txHash := value.txHash
  eventIndex := value.eventIndex
  tippedAt := value.tippedAt

def tipRow : TipRow := .tip value.txHash value.eventIndex

def totalRow : TipRow := .total value.keyId

def firstTotal : KeyTipTotal where
  keyId := value.keyId
  total := value.amountXlm
  count := 1

def increment (row : KeyTipTotal) : KeyTipTotal :=
  { row with
    total := row.total + value.amountXlm
    count := row.count + 1 }

theorem key_increment (row : KeyTipTotal) : key (value.increment row) = key row := rfl

def createKeyTip : TipM Unit :=
  write [value.tipRow] fun db =>
    match db.keyTip.insert? value.tip with
    | none => .error .uniqueViolation
    | some keyTip => .ok ((), { db with keyTip })

def createKeyTipTotal : TipM Unit :=
  write [value.totalRow] fun db =>
    match db.keyTipTotal.insert? value.firstTotal with
    | none => .error .uniqueViolation
    | some keyTipTotal => .ok ((), { db with keyTipTotal })

def updateKeyTipTotal : TipM Unit :=
  write [value.totalRow] fun db =>
    match db.keyTipTotal.find? value.keyId with
    | none => .error .recordNotFound
    | some _ =>
      .ok ((), { db with
            keyTipTotal := db.keyTipTotal.update value.keyId value.increment value.key_increment })

/- The upsert as one statement. -/
def upsertAtOnce : TipM Unit :=
  write [value.totalRow] fun db => .ok ((), { db with
          keyTipTotal :=
            db.keyTipTotal.upsert value.firstTotal value.increment value.key_increment })

/- The upsert that looks for the row first. -/
def upsertFound : Option KeyTipTotal → TipM Unit
  | some _ => value.updateKeyTipTotal
  | none => value.createKeyTipTotal

def upsertKeyTipTotal (atomicUpsert : Bool) : TipM Unit :=
  if atomicUpsert then value.upsertAtOnce
  else do
    let row ← find fun db => db.keyTipTotal.find? value.keyId
    value.upsertFound row

def record (atomicUpsert : Bool) : TipM Bool := do
  value.createKeyTip
  value.upsertKeyTipTotal atomicUpsert
  return true

end ParsedTipEvent

def rejectTipEvent (event : TipEvent) (reason : String) : TipM Bool := do
  write [] fun db => .ok ((), { db with
          indexerDLQ := moveToDLQ tipIndexerDlqJobType event reason db.indexerDLQ })
  return false

def processTipEvent (env : TipEnv) (delivery : TipDelivery) : TipM Bool :=
  match parseTipEvent env delivery.now delivery.event with
  | .error reason => rejectTipEvent delivery.event reason
  | .ok value => value.record delivery.atomicUpsert

abbrev TipPool := Isolation TipDb TipRow TipError Bool

abbrev TipSession := Session TipDb TipRow TipError Bool

def tipPool (env : TipEnv) (deliveries : List TipDelivery) : TipPool :=
  .start .empty (deliveries.map (processTipEvent env))

/-
  What the handler returns, once its transaction has ended: any
  unique violation is taken for a replay, other errors are
  thrown.
-/
def handlerAnswer (session : TipSession) : Option Bool :=
  match session.phase, session.body with
  | .committed, .ret applied => some applied
  | .aborted, .raise .uniqueViolation => some false
  | _, _ => none

end

-- Totals
----

section

open Transactional

namespace TipDb

variable (db : TipDb)

def tipsOf (keyId : String) : List KeyTip := db.keyTip.rows.filter (·.keyId = keyId)

/- The total that the stored tips of a key amount to. -/
def totalOf (keyId : String) : Option KeyTipTotal :=
  match db.tipsOf keyId with
  | [] => none
  | tips =>
    some {
      keyId
      total := (tips.map KeyTip.amount).sum
      count := tips.length }

def TotalsAgree : Prop := ∀ keyId, db.keyTipTotal.find? keyId = db.totalOf keyId

def addTip (value : ParsedTipEvent) : TipDb :=
  { db with
    keyTip := (db.keyTip.insert? value.tip).getD db.keyTip }

def addToTotal (value : ParsedTipEvent) : TipDb :=
  { db with
    keyTipTotal :=
      db.keyTipTotal.upsert value.firstTotal value.increment
        value.key_increment }

variable {db} {value : ParsedTipEvent}

theorem keyTip_addTip (hFresh : db.keyTip.find? (key value.tip) = none) :
    (db.addTip value).keyTip = db.keyTip.create value.tip hFresh := by
  rw [addTip, Table.insert?, dif_pos hFresh]
  rfl

theorem find?_addTip (hFresh : db.keyTip.find? (key value.tip) = none) (position : String × Nat) :
    (db.addTip value).keyTip.find? position =
      if position = key value.tip then some value.tip
      else db.keyTip.find? position := by
  rw [keyTip_addTip hFresh, Table.find?_create]

theorem find?_addToTotal (keyId : String) :
    (db.addToTotal value).keyTipTotal.find? keyId =
      if keyId = value.keyId then
        some ((db.keyTipTotal.find? keyId).elim value.firstTotal value.increment)
      else db.keyTipTotal.find? keyId :=
  Table.find?_upsert db.keyTipTotal value.firstTotal value.increment value.key_increment keyId

theorem tipsOf_addTip (hFresh : db.keyTip.find? (key value.tip) = none) (keyId : String) :
    (db.addTip value).tipsOf keyId = db.tipsOf keyId ++
      if keyId = value.keyId then [value.tip] else [] := by
  rw [tipsOf, keyTip_addTip hFresh]
  change (db.keyTip.rows ++ [value.tip]).filter _ = _
  rw [List.filter_append]
  congr 1
  by_cases hSame : keyId = value.keyId
  · rw [if_pos hSame]
    exact List.filter_cons_of_pos (decide_eq_true hSame.symm)
  · rw [if_neg hSame]
    have hOther : ¬ decide (value.tip.keyId = keyId) = true := by
      rw [decide_eq_true_iff]
      exact Ne.symm hSame
    exact List.filter_cons_of_neg hOther

theorem totalOf_snoc (hAgree : db.TotalsAgree) :
    some ((db.keyTipTotal.find? value.keyId).elim value.firstTotal value.increment) = some
      ({ keyId := value.keyId
         total := ((db.tipsOf value.keyId ++ [value.tip]).map KeyTip.amount).sum
         count := (db.tipsOf value.keyId ++ [value.tip]).length } :
        KeyTipTotal) := by
  rw [hAgree value.keyId, totalOf]
  cases db.tipsOf value.keyId with
  | nil => simp [ParsedTipEvent.firstTotal, ParsedTipEvent.tip]
  | cons tip rest => simp [ParsedTipEvent.increment, ParsedTipEvent.tip, add_assoc]

theorem TotalsAgree.record (hAgree : db.TotalsAgree)
    (hFresh : db.keyTip.find? (key value.tip) = none) :
    ((db.addTip value).addToTotal value).TotalsAgree := by
  intro keyId
  have hTips := tipsOf_addTip hFresh keyId
  rw [find?_addToTotal]
  change _ = totalOf (db.addTip value) keyId
  rw [totalOf, hTips]
  by_cases hSame : keyId = value.keyId
  · subst hSame
    rw [if_pos rfl, if_pos rfl]
    change some ((db.keyTipTotal.find? value.keyId).elim _ _) = _
    rw [totalOf_snoc hAgree]
    cases db.tipsOf value.keyId with
    | nil => rfl
    | cons tip rest => rfl
  · rw [if_neg hSame, if_neg hSame, List.append_nil]
    exact hAgree keyId

end TipDb

end

-- Stages of a Transaction
----

section

open Transactional Interactive

def TipDb.Stores (db : TipDb) (event : TipEvent) : Prop :=
  ∃ row, db.keyTip.find? (event.txHash, event.eventIndex) = some row

theorem position_of_parseTipEvent {env : TipEnv} {now : ℤ} {event : TipEvent}
    {value : ParsedTipEvent} (hValue : parseTipEvent env now event = .ok value) :
    key value.tip = (event.txHash, event.eventIndex) := by
  unfold parseTipEvent at hValue
  repeat' split at hValue
  all_goals cases hValue
  rfl

/-
  Where a transaction stands: what it still runs, what it has
  written and which rows it holds.  Only in a race does it meet
  a total that it has not found.
-/
inductive TipStage (Raced : Prop) (env : TipEnv) (delivery : TipDelivery) (committed : TipDb) :
    TipM Bool → (TipDb → TipDb) → List TipRow → Prop where
  | started : TipStage Raced env delivery committed (processTipEvent env delivery) id []
  | rejected {reason : String} {writes : TipDb → TipDb} {held : List TipRow}
    (hReason : parseTipEvent env delivery.now delivery.event = .error reason)
    (hWrites : ∀ s, (writes s).keyTip = s.keyTip ∧ (writes s).keyTipTotal = s.keyTipTotal) :
    TipStage Raced env delivery committed (.ret false) writes held
  | replayed {writes : TipDb → TipDb} {held : List TipRow}
    (hStored : committed.Stores delivery.event) :
    TipStage Raced env delivery committed (.raise .uniqueViolation) writes held
  | raced {writes : TipDb → TipDb} {held : List TipRow} (hRaced : Raced) :
    TipStage Raced env delivery committed (.raise .uniqueViolation) writes held
  | inserted {value : ParsedTipEvent} {writes : TipDb → TipDb} {held : List TipRow}
    (hValue : parseTipEvent env delivery.now delivery.event = .ok value)
    (hFresh : committed.keyTip.find? (key value.tip) = none) (hHeld : value.tipRow ∈ held)
    (hWrites : ∀ s, writes s = s.addTip value) :
    TipStage Raced env delivery committed (value.upsertKeyTipTotal delivery.atomicUpsert >>=
      fun _ => pure true) writes held
  | looked {value : ParsedTipEvent} {row : Option KeyTipTotal} {writes : TipDb → TipDb}
    {held : List TipRow} (hValue : parseTipEvent env delivery.now delivery.event = .ok value)
    (hFresh : committed.keyTip.find? (key value.tip) = none) (hHeld : value.tipRow ∈ held)
    (hWrites : ∀ s, writes s = s.addTip value)
    (hRow : row.isSome → (committed.keyTipTotal.find? value.keyId).isSome) :
    TipStage Raced env delivery committed (value.upsertFound row >>= fun _ => pure true) writes
      held
  | recorded {value : ParsedTipEvent} {writes : TipDb → TipDb} {held : List TipRow}
    (hValue : parseTipEvent env delivery.now delivery.event = .ok value)
    (hFresh : committed.keyTip.find? (key value.tip) = none) (hHeld : value.tipRow ∈ held)
    (hTotalHeld : value.totalRow ∈ held)
    (hWrites : ∀ s, s.keyTipTotal.find? value.keyId = committed.keyTipTotal.find? value.keyId →
      writes s = (s.addTip value).addToTotal value) :
    TipStage Raced env delivery committed (.ret true) writes held

variable {value : ParsedTipEvent} {s : TipDb}

theorem insert?_firstTotal (hNone : s.keyTipTotal.find? value.keyId = none) :
    ∃ keyTipTotal, s.keyTipTotal.insert? value.firstTotal = some keyTipTotal ∧
      s.addToTotal value = { s with keyTipTotal } := by
  have hFresh : s.keyTipTotal.find? (key value.firstTotal) = none := hNone
  refine ⟨s.keyTipTotal.create value.firstTotal hFresh, Table.insert?_of_fresh hFresh, ?_⟩
  rw [TipDb.addToTotal, Table.upsert, dif_pos hFresh]

theorem update_total {row : KeyTipTotal} (hRow : s.keyTipTotal.find? value.keyId = some row) :
    s.addToTotal value = { s with
        keyTipTotal :=
          s.keyTipTotal.update value.keyId value.increment
            value.key_increment } := by
  have hStored : s.keyTipTotal.find? (key value.firstTotal) ≠ none := by
    change s.keyTipTotal.find? value.keyId ≠ none
    rw [hRow]
    exact Option.some_ne_none _
  rw [TipDb.addToTotal, Table.upsert, dif_neg hStored]
  rfl

end

-- Statements and Commits
----

section

open Transactional Interactive

variable {Raced : Prop} {env : TipEnv} {delivery : TipDelivery} {committed : TipDb}
variable {value : ParsedTipEvent} {writes : TipDb → TipDb} {held : List TipRow} {rows : List TipRow}
variable {update : TipDb → TipDb} {next : TipDb → TipM Bool}

/- The first statement of a call. -/
theorem execute_started (hBody : processTipEvent env delivery = .stmt rows update next) :
    TipStage Raced env delivery committed (next committed) update (rows ++ held) := by
  unfold processTipEvent at hBody
  cases hParse : parseTipEvent env delivery.now delivery.event with
  | error reason =>
    simp only [hParse] at hBody
    rw [rejectTipEvent, write_bind] at hBody
    cases hBody
    exact .rejected hParse fun s => ⟨rfl, rfl⟩
  | ok value =>
    simp only [hParse] at hBody
    rw [ParsedTipEvent.record, ParsedTipEvent.createKeyTip, write_bind] at hBody
    cases hBody
    cases hInsert : committed.keyTip.insert? value.tip with
    | none =>
      simp only [hInsert]
      refine .replayed ?_
      rw [TipDb.Stores, ← position_of_parseTipEvent hParse]
      exact Table.exists_of_insert?_eq_none hInsert
    | some keyTip =>
      simp only [hInsert]
      refine .inserted hParse (Table.insert?_eq_some hInsert).1 List.mem_cons_self fun s => ?_
      rw [TipDb.addTip]
      cases s.keyTip.insert? value.tip with
      | none => rfl
      | some keyTip => rfl

theorem execute_upsert {row : Option KeyTipTotal}
    (hValue : parseTipEvent env delivery.now delivery.event = .ok value)
    (hFresh : committed.keyTip.find? (key value.tip) = none) (hHeld : value.tipRow ∈ held)
    (hWrites : ∀ s, writes s = s.addTip value)
    (hRow : row.isSome → (committed.keyTipTotal.find? value.keyId).isSome)
    (hFree : row = none → ¬ Raced → committed.keyTipTotal.find? value.keyId = none)
    (hBody : (value.upsertFound row >>= fun _ => pure true) = .stmt rows update next) :
    TipStage Raced env delivery committed (next (writes committed)) (fun s => update (writes s))
      (rows ++ held) := by
  cases row with
  | some row =>
    rw [ParsedTipEvent.upsertFound, ParsedTipEvent.updateKeyTipTotal, write_bind] at hBody
    cases hBody
    rcases Option.isSome_iff_exists.mp (hRow rfl) with ⟨stored, hStored⟩
    have hFound : (writes committed).keyTipTotal.find? value.keyId =
        some stored := by
      rw [hWrites]
      exact hStored
    simp only [hFound]
    refine .recorded hValue hFresh (List.mem_cons_of_mem _ hHeld)
      List.mem_cons_self fun s hSame => ?_
    have hHere : (s.addTip value).keyTipTotal.find? value.keyId = some stored := hSame.trans hStored
    simp only [hWrites, hHere]
    exact (update_total hHere).symm
  | none =>
    rw [ParsedTipEvent.upsertFound, ParsedTipEvent.createKeyTipTotal, write_bind] at hBody
    cases hBody
    cases hTotal : committed.keyTipTotal.find? value.keyId with
    | none =>
      have hHere : (committed.addTip value).keyTipTotal.find? value.keyId = none := hTotal
      rcases insert?_firstTotal hHere with ⟨keyTipTotal, hInsert, -⟩
      simp only [hWrites, hInsert]
      refine .recorded hValue hFresh (List.mem_cons_of_mem _ hHeld) List.mem_cons_self
        fun s hSame => ?_
      have hThere : (s.addTip value).keyTipTotal.find? value.keyId =
          none :=
        hSame.trans hTotal
      rcases insert?_firstTotal hThere with ⟨keyTipTotal', hInsert', hAdd⟩
      simp only [hInsert', hAdd]
    | some stored =>
      have hRaced : Raced := by
        by_contra hNot
        rw [hFree rfl hNot] at hTotal
        cases hTotal
      have hTaken : (committed.addTip value).keyTipTotal.insert?
          value.firstTotal = none := by
        rw [Table.insert?_eq_none_iff]
        exact List.mem_map.mpr ⟨stored, Table.mem_of_find? hTotal, Table.key_of_find? hTotal⟩
      simp only [hWrites, hTaken]
      exact .raced hRaced

/-
  A statement leads from one stage to another.  Without a race,
  no total appears between the look and the insert.
-/
theorem TipStage.execute
    (hStage : TipStage Raced env delivery committed (.stmt rows update next) writes held)
    (hFree : ∀ value, parseTipEvent env delivery.now delivery.event = .ok value →
      Interactive.stmt rows update next = (value.createKeyTipTotal >>= fun _ => pure true) →
      ¬ Raced → committed.keyTipTotal.find? value.keyId = none) :
    TipStage Raced env delivery committed (next (writes committed)) (fun s => update (writes s))
      (rows ++ held) := by
  generalize hBody : Interactive.stmt rows update next = body at hStage
  cases hStage with
  | started => exact execute_started hBody.symm
  | rejected hReason hWrites => cases hBody
  | replayed hStored => cases hBody
  | raced hRaced => cases hBody
  | inserted hValue hFresh hHeld hWrites =>
    unfold ParsedTipEvent.upsertKeyTipTotal at hBody
    split at hBody
    · rw [ParsedTipEvent.upsertAtOnce, write_bind] at hBody
      cases hBody
      refine .recorded hValue hFresh (List.mem_cons_of_mem _ hHeld) List.mem_cons_self fun s _ => ?_
      simp only [hWrites]
      rfl
    · cases hBody
      refine .looked hValue hFresh hHeld hWrites fun hSome => ?_
      rw [hWrites] at hSome
      exact hSome
  | looked hValue hFresh hHeld hWrites hRow =>
    refine execute_upsert hValue hFresh hHeld hWrites hRow ?_ hBody.symm
    rintro rfl
    exact hFree _ hValue hBody
  | recorded hValue hFresh hHeld hTotalHeld hWrites => cases hBody

-- Commits
----

/- What commits leave to a transaction that holds some rows. -/
structure TipDb.GrowsTo (committed committed' : TipDb) (held : List TipRow) : Prop where
  stored : ∀ position row, committed.keyTip.find? position = some row →
    committed'.keyTip.find? position = some row
  fresh :
    ∀ value : ParsedTipEvent, value.tipRow ∈ held → committed.keyTip.find? (key value.tip) = none →
      committed'.keyTip.find? (key value.tip) = none
  total :
    ∀ value : ParsedTipEvent, value.totalRow ∈ held → committed'.keyTipTotal.find? value.keyId =
      committed.keyTipTotal.find? value.keyId
  counted : ∀ keyId, (committed.keyTipTotal.find? keyId).isSome →
    (committed'.keyTipTotal.find? keyId).isSome

variable {Raced : Prop} {env : TipEnv} {delivery : TipDelivery} {committed committed' : TipDb}
variable {value : ParsedTipEvent} {body : TipM Bool} {writes : TipDb → TipDb}
variable {held held' : List TipRow}

theorem TipDb.Stores.of_grows {event : TipEvent} (hStores : committed.Stores event)
    (hGrows : committed.GrowsTo committed' held) :
    committed'.Stores event := by
  rcases hStores with ⟨row, hRow⟩
  exact ⟨row, hGrows.stored _ row hRow⟩

theorem TipStage.of_grows (hStage : TipStage Raced env delivery committed body writes held)
    (hGrows : committed.GrowsTo committed' held) :
    TipStage Raced env delivery committed' body writes held := by
  cases hStage with
  | started => exact .started
  | rejected hReason hWrites => exact .rejected hReason hWrites
  | replayed hStored => exact .replayed (hStored.of_grows hGrows)
  | raced hRaced => exact .raced hRaced
  | inserted hValue hFresh hHeld hWrites =>
    exact .inserted hValue (hGrows.fresh _ hHeld hFresh) hHeld hWrites
  | looked hValue hFresh hHeld hWrites hRow =>
    exact .looked hValue (hGrows.fresh _ hHeld hFresh) hHeld
      hWrites fun hSome => hGrows.counted _ (hRow hSome)
  | recorded hValue hFresh hHeld hTotalHeld hWrites =>
    refine .recorded hValue (hGrows.fresh _ hHeld hFresh) hHeld
      hTotalHeld fun s hSame => hWrites s ?_
    rw [hSame, hGrows.total _ hTotalHeld]

theorem grows_of_same (hTips : committed'.keyTip = committed.keyTip)
    (hTotals : committed'.keyTipTotal = committed.keyTipTotal) :
    committed.GrowsTo committed' held' := by
  constructor
  · exact fun _ _ h => hTips ▸ h
  · exact fun _ _ h => hTips ▸ h
  · exact fun _ _ => hTotals ▸ rfl
  · exact fun _ h => hTotals ▸ h

theorem grows_of_record (hFresh : committed.keyTip.find? (key value.tip) = none)
    (hTip : value.tipRow ∉ held') (hTotal : value.totalRow ∉ held') :
    committed.GrowsTo ((committed.addTip value).addToTotal value) held' := by
  have hTips (position : String × Nat) :
      ((committed.addTip value).addToTotal value).keyTip.find? position =
        if position = key value.tip then some value.tip
        else committed.keyTip.find? position :=
    TipDb.find?_addTip hFresh position
  have hTotals (keyId : String) :
      ((committed.addTip value).addToTotal value).keyTipTotal.find? keyId =
        if keyId = value.keyId then
          some ((committed.keyTipTotal.find? keyId).elim value.firstTotal value.increment)
        else committed.keyTipTotal.find? keyId :=
    TipDb.find?_addToTotal keyId
  constructor
  · intro position row hRow
    rw [hTips, if_neg]
    · exact hRow
    · rintro rfl
      rw [hFresh] at hRow
      cases hRow
  · intro other hOther hNone
    rw [hTips, if_neg]
    · exact hNone
    · intro hSame
      apply hTip
      rcases Prod.mk.inj hSame with ⟨hHash, hIndex⟩
      change TipRow.tip value.tip.txHash value.tip.eventIndex ∈ _
      rw [← hHash, ← hIndex]
      exact hOther
  · intro other hOther
    rw [hTotals, if_neg]
    intro hSame
    apply hTotal
    rw [ParsedTipEvent.totalRow, ← hSame]
    exact hOther
  · intro keyId hSome
    rw [hTotals]
    split
    · rfl
    · exact hSome

theorem TipStage.commit {applied : Bool}
    (hStage : TipStage Raced env delivery committed (.ret applied) writes held) :
    (∃ reason, parseTipEvent env delivery.now delivery.event = .error reason ∧
      (writes committed).keyTip = committed.keyTip ∧ (writes committed).keyTipTotal =
        committed.keyTipTotal) ∨ ∃ value, parseTipEvent env delivery.now delivery.event =
          .ok value ∧ committed.keyTip.find? (key value.tip) = none ∧
        value.tipRow ∈ held ∧ value.totalRow ∈ held ∧ writes committed =
          (committed.addTip value).addToTotal value := by
  generalize hBody : Interactive.ret applied = body at hStage
  cases hStage with
  | started =>
    unfold processTipEvent at hBody
    split at hBody <;> cases hBody
  | rejected hReason hWrites => exact Or.inl ⟨_, hReason, hWrites committed⟩
  | replayed hStored => cases hBody
  | raced hRaced => cases hBody
  | inserted hValue hFresh hHeld hWrites =>
    unfold ParsedTipEvent.upsertKeyTipTotal at hBody
    split at hBody <;> cases hBody
  | looked hValue hFresh hHeld hWrites hRow =>
    unfold ParsedTipEvent.upsertFound at hBody
    split at hBody <;> cases hBody
  | recorded hValue hFresh hHeld hTotalHeld hWrites =>
    exact Or.inr ⟨_, hValue, hFresh, hHeld, hTotalHeld, hWrites committed rfl⟩

/- What a commit leaves to the others. -/
theorem TipStage.grows {applied : Bool}
    (hStage : TipStage Raced env delivery committed (.ret applied) writes held)
    (hDisjoint : ∀ row ∈ held, row ∉ held') :
    committed.GrowsTo (writes committed) held' := by
  rcases hStage.commit with ⟨_, -, hTips, hTotals⟩ | ⟨value, -, hFresh, hHeld, hTotalHeld, hWrites⟩
  · exact grows_of_same hTips hTotals
  · rw [hWrites]
    exact grows_of_record hFresh (hDisjoint _ hHeld) (hDisjoint _ hTotalHeld)

theorem TipStage.raised
    (hStage : TipStage Raced env delivery committed (.raise .uniqueViolation) writes held) :
    Raced ∨ committed.Stores delivery.event := by
  generalize hBody : Interactive.raise TipError.uniqueViolation = body at hStage
  cases hStage with
  | started =>
    unfold processTipEvent at hBody
    split at hBody <;> cases hBody
  | rejected hReason hWrites => cases hBody
  | replayed hStored => exact Or.inr hStored
  | raced hRaced => exact Or.inl hRaced
  | inserted hValue hFresh hHeld hWrites =>
    unfold ParsedTipEvent.upsertKeyTipTotal at hBody
    split at hBody <;> cases hBody
  | looked hValue hFresh hHeld hWrites hRow =>
    unfold ParsedTipEvent.upsertFound at hBody
    split at hBody <;> cases hBody
  | recorded hValue hFresh hHeld hTotalHeld hWrites => cases hBody

end

-- Recorded Tips
----

open Transactional Interactive

variable (Raced : Prop) (env : TipEnv) (deliveries : List TipDelivery)

def TipDelivered (tip : KeyTip) : Prop :=
  ∃ delivery ∈ deliveries, ∃ value, parseTipEvent env delivery.now delivery.event = .ok value ∧
    value.tip = tip

/- A total that a transaction has not found is still not there when the transaction inserts it. -/
def TotalsUncontested (state : TipPool) : Turn → Prop
  | .execute i =>
    ∀ session delivery value, state.sessions[i]? = some session → deliveries[i]? = some delivery →
      parseTipEvent env delivery.now delivery.event = .ok value → session.body =
        (value.createKeyTipTotal >>= fun _ => pure true) →
      state.committed.keyTipTotal.find? value.keyId = none
  | _ => True

/- The handler of a valid event has returned, the tip is stored. -/
def TipKept (delivery : TipDelivery) (committed : TipDb) (session : TipSession) : Prop :=
  (handlerAnswer session).isSome → (parseTipEvent env delivery.now delivery.event).isOk →
    committed.Stores delivery.event

def tipStages : Stages TipDb TipRow TipError Bool where
  Stage i s body writes held :=
    ∃ delivery, deliveries[i]? = some delivery ∧ TipStage Raced env delivery s body writes held
  Ended i s session :=
    ∃ delivery, deliveries[i]? = some delivery ∧ (¬ Raced → TipKept env delivery s session)
  Store s := s.TotalsAgree ∧ ∀ tip ∈ s.keyTip.rows, TipDelivered env deliveries tip
  store_of_commit := by
    rintro i s applied writes held ⟨hAgree, hDelivered⟩ ⟨delivery, hDelivery, hStage⟩
    rcases hStage.commit with ⟨_, -, hTips, hTotals⟩ | ⟨value, hValue, hFresh, -, -, hWrites⟩
    · constructor
      · intro keyId
        rw [hTotals, hAgree keyId, TipDb.totalOf, TipDb.totalOf, TipDb.tipsOf, TipDb.tipsOf, hTips]
      · rw [hTips]
        exact hDelivered
    · rw [hWrites]
      refine ⟨hAgree.record hFresh, ?_⟩
      change ∀ tip ∈ (s.addTip value).keyTip.rows, _
      rw [TipDb.keyTip_addTip hFresh]
      intro tip hTip
      rcases List.mem_append.mp hTip with hOld | hNew
      · exact hDelivered tip hOld
      · cases List.mem_singleton.mp hNew
        exact ⟨delivery, List.mem_of_getElem? hDelivery, value, hValue, rfl⟩
  stage_of_commit := by
    rintro i j s applied writes held body writes' held' -
      ⟨_, -, hStage⟩ hDisjoint ⟨delivery, hDelivery, hOther⟩
    exact ⟨delivery, hDelivery, hOther.of_grows (hStage.grows hDisjoint)⟩
  ended_of_commit := by
    rintro i j s applied writes held session - ⟨_, -, hStage⟩ ⟨delivery, hDelivery, hKept⟩
    have hGrows : s.GrowsTo (writes s) [] := hStage.grows fun _ _ => List.not_mem_nil
    refine ⟨delivery, hDelivery, fun hNot hAnswer hValid => ?_⟩
    exact (hKept hNot hAnswer hValid).of_grows hGrows
  committed := by
    rintro i s applied session - - ⟨delivery, hDelivery, hStage⟩
    refine ⟨delivery, hDelivery, fun _ _ hValid => ?_⟩
    rcases hStage.commit with ⟨_, hReason, -⟩ | ⟨value, hValue, hFresh, -, -, hWrites⟩
    · rw [hReason] at hValid
      cases hValid
    · refine ⟨value.tip, ?_⟩
      rw [hWrites, ← position_of_parseTipEvent hValue]
      change (s.addTip value).keyTip.find? _ = _
      rw [TipDb.find?_addTip hFresh, if_pos rfl]
  aborted := by
    rintro i s session ⟨delivery, hDelivery, hStage⟩
    refine ⟨delivery, hDelivery, fun hNot hAnswer _ => ?_⟩
    cases hBody : session.body with
    | ret applied => simp [handlerAnswer, hBody] at hAnswer
    | stmt rows update next => simp [handlerAnswer, hBody] at hAnswer
    | raise error =>
      cases error with
      | recordNotFound => simp [handlerAnswer, hBody] at hAnswer
      | uniqueViolation =>
        rw [hBody] at hStage
        exact hStage.raised.resolve_left hNot

variable {Raced : Prop} {env : TipEnv} {deliveries : List TipDelivery} {turns : List Turn}
variable {state : TipPool}

theorem upheld_of_run {allowed : TipPool → Turn → Prop} (hFree :
    ∀ before turn, ¬ Raced → allowed before turn → TotalsUncontested env deliveries before turn)
    (hRun : RunsTo Isolation.step allowed (tipPool env deliveries) turns state) :
    (tipStages Raced env deliveries).Upheld state := by
  refine hRun.invariant (I := (tipStages Raced env deliveries).Upheld) ?_ ?_
  · apply Stages.upheld_start
    · exact ⟨fun _ => rfl, fun _ h => absurd h List.not_mem_nil⟩
    · intro i body hBody
      rw [List.getElem?_map] at hBody
      rcases Option.map_eq_some_iff.mp hBody with ⟨delivery, hDelivery, rfl⟩
      exact ⟨delivery, hDelivery, .started⟩
  · intro before turn after hUpheld hAllowed hStep
    refine Stages.upheld_step hUpheld ?_ hStep
    rintro i session rows update next rfl hSession hBody ⟨delivery, hDelivery, hStage⟩
    refine ⟨delivery, hDelivery, hStage.execute ?_⟩
    intro value hValue hCreates hNot
    exact hFree before (.execute i) hNot hAllowed session delivery
      value hSession hDelivery hValue (hBody.trans hCreates)

/-
  In a run whose inserts of totals meet no total, the totals
  agree with the tips, and the tip of every valid event is
  stored once its handler has returned.
-/
theorem tips_recorded (hRun : RunsTo Isolation.step (TotalsUncontested env deliveries)
    (tipPool env deliveries) turns state) :
    state.committed.TotalsAgree ∧ (∀ tip ∈ state.committed.keyTip.rows,
      TipDelivered env deliveries tip) ∧ ∀ (i : Nat) session delivery,
      state.sessions[i]? = some session → deliveries[i]? = some delivery →
      TipKept env delivery state.committed session := by
  have hUpheld : (tipStages False env deliveries).Upheld state :=
    upheld_of_run (fun _ _ _ hAllowed => hAllowed) hRun
  refine ⟨hUpheld.store.1, hUpheld.store.2, ?_⟩
  intro i session delivery hSession hDelivery
  by_cases hActive : session.phase = .active
  · intro hAnswer
    simp [handlerAnswer, hActive] at hAnswer
  · rcases hUpheld.ended i session hSession hActive with ⟨_, hSame, hKept⟩
    cases hSame.symm.trans hDelivery
    exact hKept not_false

/- Times that are texts are not read. -/
def noDates : TipEnv where
  dateOf _ := none

def sampleTip (txHash : String) (atomicUpsert : Bool) : TipDelivery where
  event := {
    eventType := "tip"
    txHash := txHash
    eventIndex := 0
    ledger := some 1
    creatorId := some "key"
    actor := some "wallet"
    amount := none
    price := none
    feePaid := none
    tradeAt := none
    paymentAsset := none
    payload := {
      creator_id := none
      keyId := none
      key_id := none
      creator := none
      tipper := none
      sender := none
      wallet := none
      amount := .bigint 10000000
      messageHash := none
      message_hash := none
      message_cid := none
      tippedAt := some (.number 0)
      timestamp := none
      createdAt := none } }
  now := 0
  atomicUpsert := atomicUpsert

/- A store with the total of a key and nothing else. -/
def onlyTotal (value : ParsedTipEvent) : TipDb :=
  { TipDb.empty with keyTipTotal := .create .empty value.firstTotal rfl }

/- A body that inserts no total goes through there. -/
def isUncontested (env : TipEnv) (deliveries : List TipDelivery) (state : TipPool) : Turn → Bool
  | .execute i =>
    match state.sessions[i]?, deliveries[i]? with
    | some session, some delivery =>
      match parseTipEvent env delivery.now delivery.event with
      | .ok value =>
        (state.committed.keyTipTotal.find? value.keyId).isNone ||
          (session.body.alone (onlyTotal value)).isOk
      | .error _ => true
    | _, _ => true
  | _ => true

theorem uncontested_of_check {turn : Turn} (hCheck : isUncontested env deliveries state turn) :
    TotalsUncontested env deliveries state turn := by
  cases turn with
  | execute i =>
    intro session delivery value hSession hDelivery hValue hBody
    simp only [isUncontested, hSession, hDelivery, hValue, Bool.or_eq_true,
      Option.isNone_iff_eq_none] at hCheck
    rcases hCheck with hNone | hOk
    · exact hNone
    · have hStored : (onlyTotal value).keyTipTotal.insert? value.firstTotal = none :=
        Table.insert?_eq_none_iff.mpr List.mem_cons_self
      rw [hBody, ParsedTipEvent.createKeyTipTotal, write_bind, alone, hStored] at hOk
      cases hOk
  | commit i => trivial
  | abort i => trivial

/- The total is inserted, added to at once, and looked for before it is added to. -/
def severalTips : List TipDelivery :=
  [sampleTip "t" false, sampleTip "u" true, sampleTip "t" true, sampleTip "v" false]

/- The second tip begins before the first commits, the third is a replay of the first. -/
def severalTipTurns : List Turn :=
  [.execute 0, .execute 0, .execute 1, .execute 0, .commit 0, .execute 1, .execute 2, .abort 2,
    .commit 1, .execute 3, .execute 3, .execute 3, .commit 3]

theorem tips_recorded_sample :
    ∃ state, RunsTo Isolation.step (TotalsUncontested noDates severalTips)
      (tipPool noDates severalTips) severalTipTurns state ∧
      state.committed.keyTipTotal.find? "key" = some { keyId := "key", total := 3, count := 3 } ∧
      state.committed.TotalsAgree ∧ ∀ tip ∈ state.committed.keyTip.rows,
        TipDelivered noDates severalTips tip := by
  have hRun : (runAllowed Isolation.step
      (fun state turn => isUncontested noDates severalTips state turn = true)
      (tipPool noDates severalTips) severalTipTurns).bind (fun state =>
        state.committed.keyTipTotal.find? "key") =
      some { keyId := "key", total := 3, count := 3 } := by decide +kernel
  rcases Option.bind_eq_some_iff.mp hRun with ⟨state, hState, hTotal⟩
  have hUncontested := (runsTo_of_runAllowed hState).mono fun _ _ => uncontested_of_check
  have hRecorded := tips_recorded hUncontested
  exact ⟨state, hUncontested, hTotal, hRecorded.1, hRecorded.2.1⟩

def twoFirstTips : List TipDelivery := [sampleTip "t" false, sampleTip "u" false]

/- Both look for the total before one of them inserts it. -/
def racingTipTurns : List Turn :=
  [.execute 0, .execute 0, .execute 1, .execute 1, .execute 0, .commit 0, .execute 1, .abort 1]

/- The handler of the second tip returns, the tip is gone. -/
theorem second_tip_lost :
    ∃ state session, RunsTo Isolation.step (fun _ _ => True)
      (tipPool noDates twoFirstTips) racingTipTurns state ∧ state.sessions[1]? = some session ∧
      handlerAnswer session = some false ∧ ¬ TipKept noDates (sampleTip "u" false) state.committed
        session := by
  have hRun :
      (runLabels Isolation.step (tipPool noDates twoFirstTips) racingTipTurns).map (fun state =>
        (state.sessions[1]?.bind handlerAnswer, state.committed.keyTip.find? ("u", 0))) =
        some (some false, none) := by decide
  rcases Option.map_eq_some_iff.mp hRun with ⟨state, hState, hEnd⟩
  rcases Prod.mk.inj hEnd with ⟨hAnswered, hNone⟩
  rcases Option.bind_eq_some_iff.mp hAnswered with ⟨session, hSession, hAnswer⟩
  refine ⟨state, session, runsTo_of_runLabels hState, hSession, hAnswer, ?_⟩
  intro hKept
  have hAnswered : (handlerAnswer session).isSome := by
    rw [hAnswer]
    rfl
  rcases hKept hAnswered (by decide) with ⟨row, hRow⟩
  cases hNone.symm.trans hRow

end Indexer

end AccessLayer
