import AccessLayer.Indexer.TradeTables
import AccessLayer.Library.Json

/-
  Deletion of what a ledger has written
  (`src/modules/indexer/ledger-checkpoint.service.ts`).

  The two deletions are one transaction.  The rows of the tables
  it does not name are of any type; logs are left out.

  Main result: `deletion_is_local_iff`
-/

-- Deletion
----

namespace AccessLayer

namespace Indexer

open Transactional

/- An activity, whatever fields its payload has. -/
structure StoredActivity where
  type : ActivityType
  actor : String
  creatorId : Option String
  payload : Json
  createdAt : Int

/- Numbers are compared by their values. -/
def equalsNumber (n : Int) : Json → Bool
  | .number mantissa exponent =>
    if 0 ≤ exponent then mantissa * 10 ^ exponent.toNat = n
    else mantissa = n * 10 ^ (-exponent).toNat
  | _ => false

/- The filter on the path `ledger_sequence` of the payload. -/
def StoredActivity.hasLedger (ledger : Int) (activity : StoredActivity) : Bool :=
  (activity.payload.get? "ledger_sequence").any (equalsNumber ledger)

structure LedgerDb (τ : Type) where
  activity : List StoredActivity
  keyOwnership : Table KeyOwnership
  others : List τ

/- The count of deleted rows, and what is left. -/
def deleteLedgerRecords {τ : Type} (ledger : Int) (db : LedgerDb τ) : Nat × LedgerDb τ :=
  let activity := db.activity.filter fun row => !row.hasLedger ledger
  -- the filter of the second deletion is empty
  let keyOwnership := db.keyOwnership.deleteMany fun _ => true
  (db.activity.length - activity.length + (db.keyOwnership.rows.length - keyOwnership.rows.length),
    { db with activity, keyOwnership })

-- Locality
----

variable {τ : Type}

/-
  Which positions, and which rows of other tables, derive from a
  ledger.  An activity names its ledger.
-/
structure Provenance (τ : Type) where
  ownership : KeyOwnership → Int → Bool
  other : τ → Int → Bool

/- What derives from the ledger is gone, and all else is kept. -/
structure DeletionIsLocal (provenance : Provenance τ) (ledger : Int)
    (db db' : LedgerDb τ) : Prop where
  activity : db'.activity = db.activity.filter fun row => !row.hasLedger ledger
  ownership :
    db'.keyOwnership.rows = db.keyOwnership.rows.filter fun row => !provenance.ownership row ledger
  others : db'.others = db.others.filter fun row => !provenance.other row ledger

/- The deletion empties one table and leaves the others. -/
theorem deleteLedgerRecords_eq (ledger : Int) (db : LedgerDb τ) :
    (deleteLedgerRecords ledger db).2 = { db with
        activity := db.activity.filter fun row => !row.hasLedger ledger
        keyOwnership := .empty } := by
  have hNone : db.keyOwnership.deleteMany (fun _ => true) = .empty := by
    apply Table.ext
    exact List.filter_eq_nil_iff.mpr (by simp)
  unfold deleteLedgerRecords
  rw [hNone]

/-
  For every notion of what derives from a ledger, its deletion is
  local if and only if every stored position derives from the
  ledger and no row of another table does.
-/
theorem deletion_is_local_iff (provenance : Provenance τ) (ledger : Int) (db : LedgerDb τ) :
    DeletionIsLocal provenance ledger db (deleteLedgerRecords ledger db).2 ↔
      (∀ row ∈ db.keyOwnership.rows, provenance.ownership row ledger = true) ∧
      ∀ row ∈ db.others, provenance.other row ledger = false := by
  rw [deleteLedgerRecords_eq]
  constructor
  · rintro ⟨-, hOwnership, hOthers⟩
    constructor
    · intro row hMem
      have hNone := List.filter_eq_nil_iff.mp hOwnership.symm row hMem
      simpa using hNone
    · intro row hMem
      have hKept := List.filter_eq_self.mp hOthers.symm row hMem
      simpa using hKept
  · rintro ⟨hOwnership, hOthers⟩
    have hNone : db.keyOwnership.rows.filter (fun row => !provenance.ownership row ledger) =
        [] := by
      rw [List.filter_eq_nil_iff]
      intro row hMem
      simp [hOwnership row hMem]
    have hAll : db.others.filter (fun row => !provenance.other row ledger) =
        db.others := by
      rw [List.filter_eq_self]
      intro row hMem
      simp [hOthers row hMem]
    exact ⟨rfl, hNone.symm, hAll.symm⟩

/-
  A position derives from the ledgers its wallet traded the key
  in, a row of the `Trade` table from its own.
-/
def LedgerDb.provenance (db : LedgerDb Trade) : Provenance Trade where
  ownership row ledger :=
    db.activity.any fun activity => activity.hasLedger ledger && activity.type.isTrade &&
      activity.actor = row.ownerAddress && activity.creatorId = some row.creatorId
  other trade ledger := trade.ledger = ledger

def sampleActivity (actor : String) (ledger : Int) : StoredActivity where
  type := .keyBought
  actor := actor
  creatorId := some "K"
  payload := .object [("amount", .number 1 0), ("ledger_sequence", .number ledger 0)]
  createdAt := ledger

/- The wallet `A` bought a key in ledger 5, `B` in ledger 3. -/
def twoLedgers : LedgerDb Trade where
  activity := [sampleActivity "B" 3, sampleActivity "A" 5]
  keyOwnership := .createMany .empty [.opened "B" "K" 1, .opened "A" "K" 1]
  others := []

/- With ledger 5 goes the position of the wallet of ledger 3. -/
theorem other_position_deleted :
    ¬ DeletionIsLocal twoLedgers.provenance 5 twoLedgers (deleteLedgerRecords 5 twoLedgers).2 := by
  intro hLocal
  have hKept : KeyOwnership.opened "B" "K" 1 ∈
      (deleteLedgerRecords 5 twoLedgers).2.keyOwnership.rows := by
    rw [hLocal.ownership]
    exact List.mem_filter.mpr ⟨List.mem_cons_self, by decide⟩
  exact absurd hKept List.not_mem_nil

end Indexer

end AccessLayer
