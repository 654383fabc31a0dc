import AccessLayer.Indexer.Dividends
import AccessLayer.Indexer.EventFields
import AccessLayer.Library.Phases
import Mathlib

/-
  Claims of dividends
  (`src/modules/indexer/dividend-indexer.service.ts`).

  The writes of a claim's transaction take effect together; its
  reads are statements of their own.  A claim row is named by
  its distribution and recipient.  Caches and logs are left out.
  Amounts are compared exactly: they have up to 15 digits.

  Main result: `claims_marked_once`
-/

-- Claim Events
----

namespace AccessLayer

namespace Indexer

open Transactional Program

section

structure DividendClaimedEvent where
  eventType : String
  creatorId : Option String
  claimantAddress : Option String
  amountXlm : Option EventNumber
  claimedAt : Option EventDate
  snapshotReference : Option String
  ledger : Option Int
  txHash : String
  eventIndex : Nat

/- A claim event that has passed its checks. -/
structure DividendClaimRequest where
  creatorId : String
  claimantAddress : String
  amount : Option ℚ
  claimDate : Int
  snapshotReference : Option String

def isClaimEvent (eventType : String) : Bool := eventType ∈ ["DIVIDEND_CLAIMED", "DividendClaimed"]

/- An absent amount is fine, an invalid one is not. -/
def claimAmount : Option EventNumber → Option (Option ℚ)
  | none => some none
  | some (.finite amount) => some (some amount)
  | some .notFinite => none

/- Events that miss a field or carry an invalid one are skipped. -/
def DividendClaimedEvent.request (event : DividendClaimedEvent) : Option DividendClaimRequest := do
  let creatorId ← present event.creatorId
  let claimantAddress ← present event.claimantAddress
  let claimedAt ← event.claimedAt
  let _ ← event.ledger
  let _ ← present (some event.txHash)
  let claimDate ← claimedAt.parsed
  let amount ← claimAmount event.amountXlm
  if isClaimEvent event.eventType then
    some {
      creatorId
      claimantAddress
      amount
      claimDate
      snapshotReference := present event.snapshotReference }
  else none

namespace DividendClaimRequest

variable (request : DividendClaimRequest)

def findDistribution (reference : String) (db : DividendDb) : Option DividendDistribution :=
  db.dividendDistribution.rows.find? fun row => row.creatorId = request.creatorId ∧
    (row.id = reference ∨ row.chainSnapshotId = some reference)

/- An open claim of the wallet on the creator's distributions. -/
def isPending (distributionId : Option String) (db : DividendDb) (row : DividendClaim) : Bool :=
  row.recipientAddress = request.claimantAddress ∧ row.claimedAt = none ∧
    (db.dividendDistribution.find? row.distributionId).any fun distribution =>
      distribution.creatorId = request.creatorId ∧ distributionId.all (distribution.id = ·)

/- Claims on earlier distributions come first. -/
def pendingClaims (distributionId : Option String) (db : DividendDb) : List DividendClaim :=
  (db.dividendClaim.rows.filter (request.isPending distributionId db)).insertionSort fun a b =>
    (db.dividendDistribution.find? a.distributionId).elim 0
      DividendDistribution.distributionDate ≤
      (db.dividendDistribution.find? b.distributionId).elim 0
        DividendDistribution.distributionDate

def matchingClaims (distributionId : Option String) (db : DividendDb) : List DividendClaim :=
  (request.pendingClaims distributionId db).filter fun row => request.amount.all (row.amountXlm = ·)

def selected (matching : List DividendClaim) : Option DividendClaim :=
  match request.snapshotReference with
  | none => onlyOne matching
  | some _ => matching.head?

end DividendClaimRequest

def DividendClaim.mark (claimDate : Int) (row : DividendClaim) : DividendClaim :=
  { row with claimedAt := some claimDate }

/- The row of a key, unless it is marked. -/
def DividendClaim.isOpen (k : String × String) (row : DividendClaim) : Bool :=
  key row = k ∧ row.claimedAt = none

namespace DividendClaimRequest

variable (request : DividendClaimRequest)

/- Mark a row that is still open, and record the activity. -/
def markClaimed (row : DividendClaim) (db : DividendDb) : Except IndexerError (Unit × DividendDb) :=
  if db.dividendClaim.rows.countP (DividendClaim.isOpen (key row)) = 0 then
    .ok ((), db)
  else
    .ok ((), { db with
          trade :=
            db.trade.addActivity
              { type := .dividendClaimed
                actor := request.claimantAddress
                creatorId := some request.creatorId
                payload := .other
                createdAt := request.claimDate }
          dividendClaim :=
            db.dividendClaim.updateMany (DividendClaim.isOpen (key row))
              (.mark request.claimDate) (fun _ => rfl) })

def markSelected (matching : List DividendClaim) : DividendM Unit :=
  match request.selected matching with
  | none => pure ()
  | some row => execute .database (request.markClaimed row)

def markMatching (distributionId : Option String) : DividendM Unit := do
  let matching ← query .database (request.matchingClaims distributionId)
  request.markSelected matching

/- The transaction of a claim. -/
def transaction : DividendM Unit :=
  match request.snapshotReference with
  | none => request.markMatching none
  | some reference => do
    let distribution ← query .database (request.findDistribution reference)
    match distribution with
    | none => pure ()
    | some distribution => request.markMatching (some distribution.id)

end DividendClaimRequest

def processDividendClaim (event : DividendClaimedEvent) : DividendM Unit :=
  match event.request with
  | none => pure ()
  | some request => request.transaction

end

-- Runs
----

section

/- A delivery of an event; `id` names the row of a snapshot. -/
inductive DividendDelivery where
  | snapshot (id : String) (event : DividendEvent)
  | claim (event : DividendClaimedEvent)

def DividendClaimedEvent.id (event : DividendClaimedEvent) : String × Nat :=
  (event.txHash, event.eventIndex)

namespace DividendDelivery

def process : DividendDelivery → DividendM Unit
  | .snapshot id event => processDividendSnapshot id event
  | .claim event => processDividendClaim event

/- Transaction and index of the event. -/
def eventId : DividendDelivery → String × Nat
  | .snapshot _ event => (event.txHash, event.eventIndex)
  | .claim event => event.id

end DividendDelivery

/- A claim row that an event has marked. -/
structure ClaimMark where
  event : String × Nat
  row : String × String
  deriving DecidableEq

/-
  Deliveries that are handled side by side, each by a call of its
  own, and the rows that they have marked so far.
-/
structure ClaimRun where
  pool : Pool DividendDb IndexerError Unit
  marks : List ClaimMark

/- Trades change the holdings at any time. -/
inductive ClaimMove where
  | call (move : FaultMove)
  | trade (trade : TradeDb)

def changedRows (before after : DividendDb) : List (String × String) :=
  (before.dividendClaim.rows.filter fun row =>
    after.dividendClaim.find? (key row) ≠ some row).map key

def marksOf (deliveries : List DividendDelivery)
    (before after : DividendDb) : FaultMove → List ClaimMark
  | .attempt i _ =>
    match deliveries[i]? with
    | some delivery => (changedRows before after).map fun row => { event := delivery.eventId, row }
    | none => []
  | .crash _ => []

def ClaimRun.step (deliveries : List DividendDelivery)
    (run : ClaimRun) : ClaimMove → Option ClaimRun
  | .call move =>
    (run.pool.attempt move).map fun pool =>
      { pool
        marks :=
          run.marks ++ marksOf deliveries run.pool.store pool.store
            move }
  | .trade trade =>
    some { run with
        pool.store := { run.pool.store with trade } }

def ClaimRun.start (deliveries : List DividendDelivery) (db : DividendDb) : ClaimRun where
  pool := .start db (deliveries.map DividendDelivery.process)
  marks := []

/- No event has marked two rows, and no row is marked twice. -/
structure ClaimRun.MarkedOnce (run : ClaimRun) : Prop where
  events : (run.marks.map ClaimMark.event).Nodup
  rows : (run.marks.map ClaimMark.row).Nodup

/- Claims that are delivered under one identifier are one event. -/
def SameEvents (deliveries : List DividendDelivery) : Prop :=
  ∀ event other, .claim event ∈ deliveries → .claim other ∈ deliveries → event.id = other.id →
    event = other

theorem lawful_eventId : LawfulBEq (String × Nat) := inferInstance

attribute [local instance] lawful_eventId

/-
  The delivery of an event without a reference, which has marked
  a row before and now matches exactly one open claim.
-/
def Rematches (run : ClaimRun) (event : DividendClaimedEvent) : Prop :=
  event.id ∈ run.marks.map ClaimMark.event ∧ ∃ request ∈ event.request,
    request.snapshotReference = none ∧ (request.matchingClaims none run.pool.store).length = 1

instance (run : ClaimRun) (event : DividendClaimedEvent) : Decidable (Rematches run event) := by
  unfold Rematches
  infer_instance

def DividendDelivery.claimed : DividendDelivery → Option DividendClaimedEvent
  | .snapshot _ _ => none
  | .claim event => some event

/- The condition on a step, a call that begins being served. -/
def NotRematched (deliveries : List DividendDelivery) (run : ClaimRun) : ClaimMove → Prop
  | .call (.attempt i .served) =>
    ∀ call ∈ run.pool.calls[i]?, call.executed = 0 → ∀ delivery ∈ deliveries[i]?,
      ∀ event ∈ delivery.claimed, ¬ Rematches run event
  | _ => True

instance (deliveries : List DividendDelivery) (run : ClaimRun) (move : ClaimMove) :
    Decidable (NotRematched deliveries run move) := by
  unfold NotRematched
  split <;> infer_instance

end

-- Rows Over Time
----

section

/- Rows have been added, and open ones marked; a row that is marked stays as it is. -/
structure DividendDb.Later (db db' : DividendDb) : Prop where
  distributions : ∃ rows, db'.dividendDistribution.rows = db.dividendDistribution.rows ++ rows
  claims :
    ∀ k row, db.dividendClaim.find? k = some row → ∃ row', db'.dividendClaim.find? k = some row' ∧
      row'.amountXlm = row.amountXlm ∧ (row.claimedAt ≠ none → row' = row)

/- Rows have been added, and none was changed. -/
structure DividendDb.Grows (db db' : DividendDb) : Prop where
  distributions : ∃ rows, db'.dividendDistribution.rows = db.dividendDistribution.rows ++ rows
  claims : ∃ rows, db'.dividendClaim.rows = db.dividendClaim.rows ++ rows

variable {db db' : DividendDb} {request : DividendClaimRequest} {k : String × String}

theorem DividendDb.Grows.refl (db : DividendDb) : db.Grows db :=
  ⟨⟨[], (List.append_nil _).symm⟩, ⟨[], (List.append_nil _).symm⟩⟩

variable {row : DividendClaim}

theorem DividendDb.Grows.find? (hGrows : db.Grows db')
    (hRow : db.dividendClaim.find? k = some row) :
    db'.dividendClaim.find? k = some row := by
  rcases hGrows.claims with ⟨rows, hRows⟩
  exact Table.find?_of_rows_append hRows hRow

theorem DividendDb.Grows.later (hGrows : db.Grows db') : db.Later db' :=
  ⟨hGrows.distributions, fun _ row hRow => ⟨row, hGrows.find? hRow, rfl, fun _ => rfl⟩⟩

def DividendClaimRequest.Matches (request : DividendClaimRequest) (k : String × String)
    (db : DividendDb) : Prop :=
  k.2 = request.claimantAddress ∧ (∃ distribution,
    db.dividendDistribution.find? k.1 = some distribution ∧
      distribution.creatorId = request.creatorId) ∧ ∃ row, db.dividendClaim.find? k = some row ∧
    ∀ amount ∈ request.amount, row.amountXlm = amount

/- The row is stored and not marked yet. -/
def IsOpen (k : String × String) (db : DividendDb) : Prop :=
  ∃ row, db.dividendClaim.find? k = some row ∧ row.claimedAt = none

/- The row is stored, and marked. -/
def IsClosed (k : String × String) (db : DividendDb) : Prop :=
  ∃ row, db.dividendClaim.find? k = some row ∧ row.claimedAt ≠ none

/- What a request has selected a row by. -/
structure DividendClaimRequest.Selects (request : DividendClaimRequest) (k : String × String)
    (db : DividendDb) : Prop where
  isMatch : request.Matches k db
  referenced :
    ∀ reference ∈ request.snapshotReference, ∃ distribution, request.findDistribution reference db =
      some distribution ∧ k.1 = distribution.id

theorem findDistribution_later (hLater : db.Later db') {reference : String}
    {distribution : DividendDistribution}
    (hFound : request.findDistribution reference db = some distribution) :
    request.findDistribution reference db' = some distribution := by
  rcases hLater.distributions with ⟨rows, hRows⟩
  unfold DividendClaimRequest.findDistribution at hFound ⊢
  rw [hRows, List.find?_append, hFound]
  rfl

theorem Matches.later (hMatches : request.Matches k db) (hLater : db.Later db') :
    request.Matches k db' := by
  rcases hMatches with ⟨hWallet, ⟨distribution, hFound, hCreator⟩, row, hRow, hAmount⟩
  rcases hLater.distributions with ⟨rows, hRows⟩
  rcases hLater.claims k row hRow with ⟨row', hRow', hSame, -⟩
  refine ⟨hWallet, ⟨distribution, Table.find?_of_rows_append hRows hFound, hCreator⟩,
    row', hRow', ?_⟩
  rw [hSame]
  exact hAmount

theorem Selects.later (hSelects : request.Selects k db) (hLater : db.Later db') :
    request.Selects k db' := by
  refine ⟨Matches.later hSelects.isMatch hLater, ?_⟩
  intro reference hReference
  rcases hSelects.referenced reference hReference with ⟨distribution, hFound, hId⟩
  exact ⟨distribution, findDistribution_later hLater hFound, hId⟩

theorem IsOpen.earlier (hOpen : IsOpen k db') (hLater : db.Later db')
    (hRow : db.dividendClaim.find? k = some row) :
    IsOpen k db := by
  rcases hOpen with ⟨now, hNow, hNone⟩
  rcases hLater.claims k row hRow with ⟨row', hRow', -, hKept⟩
  refine ⟨row, hRow, ?_⟩
  by_contra hMarked
  rw [hKept hMarked, hNow] at hRow'
  cases hRow'
  exact hMarked hNone

theorem IsClosed.later (hClosed : IsClosed k db) (hLater : db.Later db') : IsClosed k db' := by
  rcases hClosed with ⟨row, hRow, hMarked⟩
  rcases hLater.claims k row hRow with ⟨row', hRow', -, hKept⟩
  rw [hKept hMarked] at hRow'
  exact ⟨row, hRow', hMarked⟩

theorem IsClosed.not_isOpen (hClosed : IsClosed k db) : ¬ IsOpen k db := by
  rintro ⟨row, hRow, hNone⟩
  rcases hClosed with ⟨row', hRow', hMarked⟩
  rw [hRow] at hRow'
  cases hRow'
  exact hMarked hNone

variable {id : Option String}

theorem mem_matchingClaims :
    row ∈ request.matchingClaims id db ↔ (row ∈ db.dividendClaim.rows ∧
      request.isPending id db row = true) ∧
      request.amount.all (row.amountXlm = ·) = true := by
  unfold DividendClaimRequest.matchingClaims DividendClaimRequest.pendingClaims
  rw [List.mem_filter, List.mem_insertionSort, List.mem_filter]

/- A match, read off the tables. -/
theorem matches_of_mem (hMem : row ∈ request.matchingClaims id db) :
    request.Matches (key row) db ∧ IsOpen (key row) db ∧
      ∀ wanted ∈ id, row.distributionId = wanted := by
  rcases mem_matchingClaims.mp hMem with ⟨⟨hStored, hPending⟩, hAmount⟩
  have hFound := Table.find?_of_mem hStored
  rcases of_decide_eq_true hPending with ⟨hWallet, hNone, hAny⟩
  rcases (Option.any_eq_true _ _).mp hAny with ⟨distribution, hDistribution, hFits⟩
  rcases of_decide_eq_true hFits with ⟨hCreator, hWanted⟩
  refine ⟨⟨hWallet, ⟨distribution, hDistribution, hCreator⟩, row,
    hFound, ?_⟩, ⟨row, hFound, hNone⟩, ?_⟩
  · intro amount hMemAmount
    rw [Option.mem_def.mp hMemAmount] at hAmount
    exact of_decide_eq_true hAmount
  · intro wanted hMemWanted
    cases hMemWanted
    rw [← of_decide_eq_true hWanted]
    exact (Table.key_of_find? hDistribution).symm

theorem mem_of_matches (hMatches : request.Matches k db) (hOpen : IsOpen k db) :
    ∃ row ∈ request.matchingClaims none db, key row = k := by
  rcases hMatches with ⟨hWallet, ⟨distribution, hDistribution, hCreator⟩, row, hRow, hAmount⟩
  rcases hOpen with ⟨row', hRow', hNone⟩
  rw [hRow] at hRow'
  cases hRow'
  have hKey := Table.key_of_find? hRow
  refine ⟨row, ?_, hKey⟩
  rw [mem_matchingClaims]
  refine ⟨⟨Table.mem_of_find? hRow, ?_⟩, ?_⟩
  · apply decide_eq_true
    have hId : k.1 = row.distributionId := by
      rw [← hKey]
      rfl
    rw [← hId, hDistribution, Option.any_some]
    refine ⟨?_, hNone, decide_eq_true ⟨hCreator, rfl⟩⟩
    rw [← hWallet, ← hKey]
    rfl
  · cases hRequested : request.amount with
    | none => rfl
    | some amount => exact decide_eq_true (hAmount amount hRequested)

end

-- What a Mark Changes
----

section

variable {db db' : DividendDb} {request : DividendClaimRequest} {k : String × String}

theorem mem_changedRows :
    k ∈ changedRows db db' ↔ ∃ row, db.dividendClaim.find? k = some row ∧
      db'.dividendClaim.find? k ≠ some row := by
  unfold changedRows
  rw [List.mem_map]
  constructor
  · rintro ⟨row, hRow, rfl⟩
    rcases List.mem_filter.mp hRow with ⟨hMem, hChanged⟩
    exact ⟨row, Table.find?_of_mem hMem, of_decide_eq_true hChanged⟩
  · rintro ⟨row, hRow, hChanged⟩
    have hKey := Table.key_of_find? hRow
    refine ⟨row, List.mem_filter.mpr ⟨?_, ?_⟩, hKey⟩
    · exact Table.mem_of_find? hRow
    · rw [hKey]
      exact decide_eq_true hChanged

theorem changedRows_of_grows (hGrows : db.Grows db') : changedRows db db' = [] := by
  rw [List.eq_nil_iff_forall_not_mem]
  intro k hk
  rcases mem_changedRows.mp hk with ⟨row, hRow, hChanged⟩
  exact hChanged (hGrows.find? hRow)

theorem nodup_changedRows (db db' : DividendDb) : (changedRows db db').Nodup :=
  db.dividendClaim.unique.sublist (List.filter_sublist.map key)

theorem find?_markClaimed (row : DividendClaim) (k : String × String) :
    (written (request.markClaimed row) db).dividendClaim.find? k =
      (db.dividendClaim.find? k).map fun stored =>
        if stored.isOpen (key row) then
          stored.mark request.claimDate
        else stored := by
  unfold written DividendClaimRequest.markClaimed
  split_ifs with hCount
  · cases hFound : db.dividendClaim.find? k with
    | none => rfl
    | some stored =>
      have hClosed : ¬ stored.isOpen (key row) = true := by
        intro hOpen
        exact (List.countP_eq_zero.mp hCount) stored (Table.mem_of_find? hFound) hOpen
      rw [Option.map_some, if_neg hClosed]
  · exact Table.find?_updateMany db.dividendClaim (DividendClaim.isOpen (key row))
      (.mark request.claimDate) (fun _ => rfl) k

theorem later_markClaimed (row : DividendClaim) :
    db.Later (written (request.markClaimed row) db) := by
  constructor
  · refine ⟨[], ?_⟩
    rw [List.append_nil]
    unfold written DividendClaimRequest.markClaimed
    split_ifs <;> rfl
  · intro k stored hStored
    rw [find?_markClaimed, hStored]
    refine ⟨_, rfl, ?_, ?_⟩
    · dsimp only
      split
      · rfl
      · rfl
    · intro hMarked
      dsimp only
      rw [if_neg]
      intro hOpen
      exact hMarked (of_decide_eq_true hOpen).2

variable {row : DividendClaim}

theorem mem_changedRows_mark :
    k ∈ changedRows db (written (request.markClaimed row) db) ↔ k = key row ∧ IsOpen k db := by
  rw [mem_changedRows]
  constructor
  · rintro ⟨stored, hStored, hChanged⟩
    rw [find?_markClaimed, hStored, Option.map_some] at hChanged
    by_cases hOpen : stored.isOpen (key row) = true
    · rcases of_decide_eq_true hOpen with ⟨hKey, hNone⟩
      rw [← hKey, Table.key_of_find? hStored]
      exact ⟨rfl, stored, hStored, hNone⟩
    · rw [if_neg hOpen] at hChanged
      exact absurd rfl hChanged
  · rintro ⟨rfl, stored, hStored, hNone⟩
    refine ⟨stored, hStored, ?_⟩
    have hOpen : stored.isOpen (key row) = true :=
      decide_eq_true ⟨Table.key_of_find? hStored, hNone⟩
    rw [find?_markClaimed, hStored, Option.map_some, if_pos hOpen]
    intro hSame
    have hMarked := congrArg DividendClaim.claimedAt (Option.some.inj hSame)
    rw [hNone] at hMarked
    cases hMarked

variable {α : Type}

/- Without duplicates, a list of copies of `x` has at most one. -/
theorem eq_singleton_of_nodup {xs : List α} {x : α} (hNodup : xs.Nodup)
    (hAll : ∀ y, y ∈ xs ↔ y = x) :
    xs = [x] := by
  have hPerm : xs.Perm [x] := by
    rw [List.perm_ext_iff_of_nodup hNodup (List.nodup_singleton x)]
    intro y
    rw [hAll, List.mem_singleton]
  exact List.perm_singleton.mp hPerm

theorem changedRows_markClaimed (hOpen : IsOpen (key row) db) :
    changedRows db (written (request.markClaimed row) db) = [key row] := by
  apply eq_singleton_of_nodup (nodup_changedRows _ _)
  intro k
  rw [mem_changedRows_mark]
  constructor
  · exact And.left
  · rintro rfl
    exact ⟨rfl, hOpen⟩

theorem isClosed_marked {stored : DividendClaim}
    (hStored : db.dividendClaim.find? (key row) = some stored) :
    IsClosed (key row) (written (request.markClaimed row) db) := by
  unfold IsClosed
  rw [find?_markClaimed, hStored]
  refine ⟨_, rfl, ?_⟩
  dsimp only
  split
  · exact Option.some_ne_none _
  · rename_i hOpen
    intro hNone
    exact hOpen (decide_eq_true ⟨Table.key_of_find? hStored, hNone⟩)

-- Stages of a Delivery
----

/- The rows that the next statement of a program writes to. -/
def rowsOfNext (p : DividendM Unit) (db : DividendDb) : List (String × String) :=
  match p with
  | .stmt update _ _ => changedRows db (update db)
  | _ => []

/- Where a delivery stands after some statements, and what it knows of the tables. -/
inductive ClaimStage (db : DividendDb) :
    DividendDelivery → Nat → DividendM Unit → Prop where
  | started (delivery : DividendDelivery) : ClaimStage db delivery 0 delivery.process
  | growing {delivery : DividendDelivery} {n : Nat} {update : DividendDb → DividendDb}
    {next : DividendDb → DividendM Unit} {onFault : DividendM Unit}
    (hUpdate : ∀ t, DividendDb.Grows t (update t)) (hNext : ∀ t, (next t).isRunning = false)
    (hFault : onFault.isRunning = false) : ClaimStage db delivery n (.stmt update next onFault)
  | resolved {event : DividendClaimedEvent} {n : Nat} {request : DividendClaimRequest}
    {reference : String} {distribution : DividendDistribution}
    (hRequest : event.request = some request)
    (hReference : request.snapshotReference = some reference)
    (hFound : request.findDistribution reference db = some distribution) :
    ClaimStage db (.claim event) n (request.markMatching (some distribution.id))
  | marking {event : DividendClaimedEvent} {n : Nat} {request : DividendClaimRequest}
    {row : DividendClaim} (hRequest : event.request = some request)
    (hSelects : request.Selects (key row) db) :
    ClaimStage db (.claim event) n (execute .database (request.markClaimed row))
  | ended {delivery : DividendDelivery} {n : Nat} {p : DividendM Unit}
    (hEnded : p.isRunning = false) : ClaimStage db delivery n p

variable {db db' : DividendDb} {delivery : DividendDelivery} {n : Nat} {p : DividendM Unit}
variable {k : String × String}

theorem ClaimStage.later (hStage : ClaimStage db delivery n p) (hLater : db.Later db') :
    ClaimStage db' delivery n p := by
  cases hStage with
  | started delivery => exact .started delivery
  | growing hUpdate hNext hFault => exact .growing hUpdate hNext hFault
  | resolved hRequest hReference hFound =>
    exact .resolved hRequest hReference (findDistribution_later hLater hFound)
  | marking hRequest hSelects => exact .marking hRequest (Selects.later hSelects hLater)
  | ended hEnded => exact .ended hEnded

theorem rowsOfNext_of_not_running (hEnded : p.isRunning = false) : rowsOfNext p db = [] := by
  cases p with
  | ret a => rfl
  | raise e => rfl
  | stmt update next onFault => cases hEnded

theorem rowsOfNext_query {f : DividendDb → α} {g : α → DividendM Unit} :
    rowsOfNext (query .database f >>= g) db = [] := changedRows_of_grows (.refl db)

/- A delivery begins with a read, or does nothing. -/
theorem rowsOfNext_process (delivery : DividendDelivery) (db : DividendDb) :
    rowsOfNext delivery.process db = [] := by
  cases delivery with
  | snapshot id event =>
    unfold DividendDelivery.process processDividendSnapshot
    dsimp only
    split
    · rfl
    · exact rowsOfNext_query
  | claim event =>
    unfold DividendDelivery.process processDividendClaim
    dsimp only
    split
    · rfl
    · unfold DividendClaimRequest.transaction
      split
      · exact rowsOfNext_query
      · exact rowsOfNext_query

theorem mem_rowsOfNext_mark {request : DividendClaimRequest} :
    k ∈ rowsOfNext (execute .database (request.markClaimed row)) db ↔ k = key row ∧ IsOpen k db :=
  mem_changedRows_mark

/-
  Later, a delivery writes only to a row that it has selected
  now, and that has been open all the time.
-/
theorem ClaimStage.writes (hStage : ClaimStage db delivery n p) (hLater : db.Later db')
    (hWrites : k ∈ rowsOfNext p db') :
    ∃ event request row, delivery = .claim event ∧ event.request = some request ∧
      p = execute .database (request.markClaimed row) ∧
      k = key row ∧ request.Selects k db ∧ IsOpen k db := by
  cases hStage with
  | started delivery =>
    rw [rowsOfNext_process] at hWrites
    cases hWrites
  | growing hUpdate hNext hFault =>
    unfold rowsOfNext at hWrites
    dsimp only at hWrites
    rw [changedRows_of_grows (hUpdate db')] at hWrites
    cases hWrites
  | resolved hRequest hReference hFound =>
    unfold DividendClaimRequest.markMatching at hWrites
    rw [rowsOfNext_query] at hWrites
    cases hWrites
  | @marking event n request row hRequest hSelects =>
    rcases mem_rowsOfNext_mark.mp hWrites with ⟨rfl, hOpen⟩
    rcases hSelects.isMatch.2.2 with ⟨stored, hStored, -⟩
    exact ⟨event, request, row, rfl, hRequest, rfl, rfl, hSelects, hOpen.earlier hLater hStored⟩
  | ended hEnded =>
    rw [rowsOfNext_of_not_running hEnded] at hWrites
    cases hWrites

theorem ClaimStage.writes_earlier (hStage : ClaimStage db delivery n p) (hLater : db.Later db')
    (hWrites : k ∈ rowsOfNext p db') :
    k ∈ rowsOfNext p db := by
  rcases hStage.writes hLater hWrites with ⟨event, request, row, -, -, rfl, hKey, -, hOpen⟩
  exact mem_rowsOfNext_mark.mpr ⟨hKey, hOpen⟩

/-
  One statement of a delivery: it passes on, it selects a row,
  or it marks the row it has selected.
-/
inductive Passes (db : DividendDb) (delivery : DividendDelivery) (n : Nat) (after : DividendDb)
    (p : DividendM Unit) : Prop where
  | on (hGrows : db.Grows after) (hStage : ClaimStage after delivery (n + 1) p)
    (hQuiet : ∀ t, rowsOfNext p t = [])
  | selecting {event : DividendClaimedEvent} {request : DividendClaimRequest} {row : DividendClaim}
    (hDelivery : delivery = .claim event) (hRequest : event.request = some request)
    (hSame : after = db) (hNext : p = execute .database (request.markClaimed row))
    (hSelects : request.Selects (key row) db) (hOpen : IsOpen (key row) db)
    (hOnly : request.snapshotReference = none → n = 0 ∧ request.matchingClaims none db = [row])
  | marked {event : DividendClaimedEvent} {request : DividendClaimRequest} {row : DividendClaim}
    (hDelivery : delivery = .claim event) (hRequest : event.request = some request)
    (hSelects : request.Selects (key row) db)
    (hAfter : after = written (request.markClaimed row) db) (hEnded : p.isRunning = false)

variable {request : DividendClaimRequest} {event : DividendClaimedEvent}
variable {update : DividendDb → DividendDb} {next : DividendDb → DividendM Unit}
variable {onFault : DividendM Unit}

theorem grows_record (snapshot : DividendSnapshot) (holders : List KeyOwnership) (id : String)
    (db : DividendDb) :
    db.Grows (written (snapshot.record holders id) db) := by
  unfold written DividendSnapshot.record
  split
  · rename_i after hRecord
    split at hRecord
    · cases hRecord
    · split at hRecord
      · cases hRecord
      · rename_i hInsert
        cases hRecord
        exact ⟨⟨_, (Table.insert?_eq_some hInsert).2⟩, Table.exists_rows_createMany _ _⟩
  · exact .refl db

/- The read that selects a row, and what it knows of it. -/
theorem passes_markSelected {id : Option String} (hRequest : event.request = some request)
    (hReferenced : ∀ reference ∈ request.snapshotReference, ∃ distribution,
      request.findDistribution reference db = some distribution ∧ id = some distribution.id)
    (hFirst : request.snapshotReference = none → n = 0 ∧ id = none) :
    Passes db (.claim event) n db (request.markSelected (request.matchingClaims id db)) := by
  unfold DividendClaimRequest.markSelected
  split
  · exact .on (.refl db) (.ended rfl) fun _ => rowsOfNext_of_not_running rfl
  · rename_i row hSelected
    unfold DividendClaimRequest.selected at hSelected
    have hMem : row ∈ request.matchingClaims id db := by
      split at hSelected
      · exact mem_of_onlyOne hSelected
      · exact List.mem_of_mem_head? hSelected
    rcases matches_of_mem hMem with ⟨hMatches, hOpen, hWanted⟩
    refine .selecting rfl hRequest rfl rfl ⟨hMatches, ?_⟩ hOpen ?_
    · intro reference hReference
      rcases hReferenced reference hReference with ⟨distribution, hFound, hId⟩
      exact ⟨distribution, hFound, hWanted _ hId⟩
    · intro hNone
      rcases hFirst hNone with ⟨hZero, rfl⟩
      rw [hNone] at hSelected
      exact ⟨hZero, onlyOne_eq_some_iff.mp hSelected⟩

/- The read of the distribution, and what follows it. -/
theorem passes_resolved {reference : String} (hRequest : event.request = some request)
    (hReference : request.snapshotReference = some reference) :
    Passes db (.claim event) n db (match request.findDistribution reference db with
      | none => pure ()
      | some distribution =>
        request.markMatching (some distribution.id)) := by
  split
  · exact .on (.refl db) (.ended rfl) fun _ => rowsOfNext_of_not_running rfl
  · rename_i distribution hFound
    exact .on (.refl db) (.resolved hRequest hReference hFound) fun _ => rowsOfNext_query

/- The transaction that records a distribution. -/
theorem passes_record (snapshot : DividendSnapshot) (holders : List KeyOwnership) (id : String) :
    Passes db delivery n db (tryCatch (execute .database (snapshot.record holders id)) (fun error =>
      if error = .uniqueViolation then pure ()
      else throw error)) := by
  refine .on (.refl db) ?_ ?_
  · refine .growing (grows_record snapshot holders id) ?_ rfl
    intro t
    dsimp only
    cases snapshot.record holders id t with
    | ok result => rfl
    | error error =>
      change Program.isRunning (if error = .uniqueViolation then pure ()
        else throw error : DividendM Unit) = false
      split <;> rfl
  · intro t
    exact changedRows_of_grows (grows_record snapshot holders id t)

theorem ClaimStage.statement (hStage : ClaimStage db delivery n (.stmt update next onFault)) :
    onFault.isRunning = false ∧ Passes db delivery n (update db) (next db) := by
  generalize hStmt : Program.stmt update next onFault = p at hStage
  cases hStage with
  | started delivery =>
    cases delivery with
    | snapshot id event =>
      unfold DividendDelivery.process processDividendSnapshot at hStmt
      dsimp only at hStmt
      split at hStmt
      · cases hStmt
      · rename_i snapshot _
        cases hStmt
        exact ⟨rfl, passes_record snapshot _ id⟩
    | claim event =>
      unfold DividendDelivery.process processDividendClaim at hStmt
      dsimp only at hStmt
      split at hStmt
      · cases hStmt
      · rename_i request hRequest
        unfold DividendClaimRequest.transaction at hStmt
        split at hStmt
        · rename_i hNone
          cases hStmt
          refine ⟨rfl, passes_markSelected hRequest ?_ ?_⟩
          · intro reference hMem
            rw [hNone] at hMem
            cases hMem
          · exact fun _ => ⟨rfl, rfl⟩
        · rename_i reference hReference
          cases hStmt
          exact ⟨rfl, passes_resolved hRequest hReference⟩
  | growing hUpdate hNext hFault =>
    cases hStmt
    exact ⟨hFault, .on (hUpdate db) (.ended (hNext db)) fun _ =>
      rowsOfNext_of_not_running (hNext db)⟩
  | resolved hRequest hReference hFound =>
    cases hStmt
    refine ⟨rfl, passes_markSelected hRequest ?_ ?_⟩
    · intro reference hMem
      rw [hReference] at hMem
      cases hMem
      exact ⟨_, hFound, rfl⟩
    · intro hNone
      rw [hReference] at hNone
      cases hNone
  | marking hRequest hSelects =>
    cases hStmt
    refine ⟨rfl, .marked rfl hRequest hSelects rfl ?_⟩
    dsimp only
    split <;> rfl
  | ended hEnded =>
    rw [← hStmt] at hEnded
    cases hEnded

end

-- What Holds in Every Run
----

section

/- The next statement of a call writes to a row. -/
def ClaimRun.Writes (run : ClaimRun) (i : Nat) (k : String × String) : Prop :=
  ∃ call, run.pool.calls[i]? = some call ∧ call.crashed = false ∧
    k ∈ rowsOfNext call.program run.pool.store

/-
  Marked rows are closed.  An event that is about to mark a row
  has marked none, and would mark the same row in each of its
  deliveries.
-/
structure Tracked (deliveries : List DividendDelivery) (run : ClaimRun) : Prop where
  length : run.pool.calls.length = deliveries.length
  stages :
    ∀ (i : Nat) delivery call, deliveries[i]? = some delivery → run.pool.calls[i]? = some call →
      call.crashed = false → ClaimStage run.pool.store delivery call.executed call.program
  closed : ∀ mark ∈ run.marks, IsClosed mark.row run.pool.store
  referenced : ∀ mark ∈ run.marks, ∀ event request reference,
    .claim event ∈ deliveries → event.id = mark.event → event.request = some request →
      request.snapshotReference = some reference → ∃ distribution,
        request.findDistribution reference run.pool.store = some distribution ∧ mark.row =
          (distribution.id, request.claimantAddress)
  fresh : ∀ i delivery k, deliveries[i]? = some delivery → run.Writes i k →
    delivery.eventId ∉ run.marks.map ClaimMark.event
  agree : ∀ i j delivery other k k', deliveries[i]? = some delivery → deliveries[j]? = some other →
    delivery.eventId = other.eventId → run.Writes i k → run.Writes j k' → k = k'
  once : run.MarkedOnce

variable {deliveries : List DividendDelivery} {run run' : ClaimRun} {db db' : DividendDb} {i : Nat}

theorem tracked_start (deliveries : List DividendDelivery) (db : DividendDb) :
    Tracked deliveries (.start deliveries db) := by
  have hCall : ∀ (i : Nat) call, (ClaimRun.start deliveries db).pool.calls[i]? = some call →
      ∃ delivery, deliveries[i]? = some delivery ∧ call.executed = 0 ∧
        call.program = delivery.process := by
    intro i call hCall
    unfold ClaimRun.start Pool.start at hCall
    rw [List.map_map, List.getElem?_map] at hCall
    rcases Option.map_eq_some_iff.mp hCall with ⟨delivery, hDelivery, rfl⟩
    exact ⟨delivery, hDelivery, rfl, rfl⟩
  have hQuiet : ∀ i k, ¬ (ClaimRun.start deliveries db).Writes i k := by
    rintro i k ⟨call, hHere, -, hWrites⟩
    rcases hCall i call hHere with ⟨delivery, -, -, hProgram⟩
    rw [hProgram, rowsOfNext_process] at hWrites
    cases hWrites
  constructor
  · simp [ClaimRun.start, Pool.start]
  · intro i delivery call hDelivery hHere _
    rcases hCall i call hHere with ⟨other, hOther, hExecuted, hProgram⟩
    rw [hDelivery] at hOther
    cases hOther
    rw [hExecuted, hProgram]
    exact .started delivery
  · intro mark hMark
    cases hMark
  · intro mark hMark
    cases hMark
  · intro i delivery k _ hWrites
    exact absurd hWrites (hQuiet i k)
  · intro i j delivery other k k' _ _ _ hWrites
    exact absurd hWrites (hQuiet i k)
  · exact ⟨List.nodup_nil, List.nodup_nil⟩

variable {k : String × String}

/- What a call writes to after the tables have changed. -/
theorem Tracked.writes_earlier (hTracked : Tracked deliveries run)
    (hLater : run.pool.store.Later db)
    (hWrites : { run with pool.store := db : ClaimRun }.Writes i k) :
    run.Writes i k := by
  rcases hWrites with ⟨call, hCall, hAlive, hRows⟩
  have hBound : i < deliveries.length := by
    rw [← hTracked.length]
    exact (List.getElem?_eq_some_iff.mp hCall).1
  have hStage := hTracked.stages i _ call (List.getElem?_eq_getElem hBound) hCall hAlive
  exact ⟨call, hCall, hAlive, hStage.writes_earlier hLater hRows⟩

theorem Tracked.later (hTracked : Tracked deliveries run) (hLater : run.pool.store.Later db) :
    Tracked deliveries { run with pool.store := db } := by
  constructor
  · exact hTracked.length
  · intro i delivery call hDelivery hCall hAlive
    exact (hTracked.stages i delivery call hDelivery hCall hAlive).later hLater
  · intro mark hMark
    exact (hTracked.closed mark hMark).later hLater
  · intro mark hMark event request reference hEvent hSame hRequest hReference
    rcases hTracked.referenced mark hMark event request reference
      hEvent hSame hRequest hReference with ⟨distribution, hFound, hRow⟩
    exact ⟨distribution, findDistribution_later hLater hFound, hRow⟩
  · intro i delivery k hDelivery hWrites
    exact hTracked.fresh i delivery k hDelivery (hTracked.writes_earlier hLater hWrites)
  · intro i j delivery other k k' hDelivery hOther hSame hMine hTheirs
    exact hTracked.agree i j delivery other k k' hDelivery hOther
      hSame (hTracked.writes_earlier hLater hMine) (hTracked.writes_earlier hLater hTheirs)
  · exact ⟨hTracked.once.events, hTracked.once.rows⟩

variable {delivery : DividendDelivery} {call : Call DividendDb IndexerError Unit}

/- A call goes on, and may now be about to mark a row. -/
theorem Tracked.set (hTracked : Tracked deliveries run) (hDelivery : deliveries[i]? = some delivery)
    (hStage : call.crashed = false → ClaimStage run.pool.store delivery call.executed call.program)
    (hWrites : call.crashed = false → ∀ k ∈ rowsOfNext call.program run.pool.store,
      delivery.eventId ∉ run.marks.map ClaimMark.event ∧
        (∀ k' ∈ rowsOfNext call.program run.pool.store, k' = k) ∧
        ∀ j other k', j ≠ i → deliveries[j]? = some other → other.eventId = delivery.eventId →
          run.Writes j k' → k' = k) :
    Tracked deliveries { run with
        pool.calls := run.pool.calls.set i call } := by
  have hCases : ∀ j k, { run with
          pool.calls := run.pool.calls.set i call : ClaimRun }.Writes j k →
          (j = i ∧ call.crashed = false ∧ k ∈ rowsOfNext call.program run.pool.store) ∨
          (j ≠ i ∧ run.Writes j k) := by
    rintro j k ⟨other, hOther, hAlive, hRows⟩
    rcases getElem?_set_cases hOther with ⟨rfl, rfl⟩ | ⟨hNe, hOld⟩
    · exact Or.inl ⟨rfl, hAlive, hRows⟩
    · exact Or.inr ⟨hNe, other, hOld, hAlive, hRows⟩
  constructor
  · change (run.pool.calls.set i call).length = _
    rw [List.length_set, hTracked.length]
  · intro j other call' hOther hCall hAlive
    rcases getElem?_set_cases hCall with ⟨rfl, rfl⟩ | ⟨-, hOld⟩
    · rw [hDelivery] at hOther
      cases hOther
      exact hStage hAlive
    · exact hTracked.stages j other call' hOther hOld hAlive
  · exact hTracked.closed
  · exact hTracked.referenced
  · intro j other k hOther hRow
    rcases hCases j k hRow with ⟨rfl, hAlive, hRows⟩ | ⟨-, hOld⟩
    · rw [hDelivery] at hOther
      cases hOther
      exact (hWrites hAlive k hRows).1
    · exact hTracked.fresh j other k hOther hOld
  · intro j l one two k k' hOne hTwo hSame hMine hTheirs
    rcases hCases j k hMine with ⟨rfl, hAlive, hRows⟩ | ⟨hNe, hOld⟩
    · rw [hDelivery] at hOne
      cases hOne
      rcases hWrites hAlive k hRows with ⟨-, hOnly, hOthers⟩
      rcases hCases l k' hTheirs with ⟨rfl, -, hRows'⟩ | ⟨hNe', hOld'⟩
      · exact (hOnly k' hRows').symm
      · exact (hOthers l two k' hNe' hTwo hSame.symm hOld').symm
    · rcases hCases l k' hTheirs with ⟨rfl, hAlive', hRows'⟩ | ⟨-, hOld'⟩
      · rw [hDelivery] at hTwo
        cases hTwo
        exact (hWrites hAlive' k' hRows').2.2 j one k hNe hOne hSame hOld
      · exact hTracked.agree j l one two k k' hOne hTwo hSame hOld hOld'
  · exact ⟨hTracked.once.events, hTracked.once.rows⟩

/- A call ends, whatever has happened to the tables. -/
theorem Tracked.ending
    (hTracked : Tracked deliveries run) (hDelivery : deliveries[i]? = some delivery)
    (hLater : run.pool.store.Later db) (hEnded : call.program.isRunning = false) :
    Tracked deliveries
      { pool := {
          store := db
          calls := run.pool.calls.set i call }
        marks := run.marks } := by
  refine (hTracked.later hLater).set hDelivery
    (fun _ => .ended hEnded) ?_
  intro _ k hk
  rw [rowsOfNext_of_not_running hEnded] at hk
  cases hk

theorem Tracked.mark (hTracked : Tracked deliveries run) {mark : ClaimMark}
    (hClosed : IsClosed mark.row run.pool.store)
    (hReferenced : ∀ event request reference, .claim event ∈ deliveries → event.id = mark.event →
      event.request = some request → request.snapshotReference = some reference →
        ∃ distribution, request.findDistribution reference
          run.pool.store = some distribution ∧ mark.row =
          (distribution.id, request.claimantAddress))
    (hEvent : mark.event ∉ run.marks.map ClaimMark.event)
    (hRow : mark.row ∉ run.marks.map ClaimMark.row) (hDone :
      ∀ j other k, deliveries[j]? = some other → run.Writes j k → other.eventId ≠ mark.event) :
    Tracked deliveries
      { run with marks := run.marks ++ [mark] } := by
  constructor
  · exact hTracked.length
  · exact hTracked.stages
  · intro other hOther
    rcases List.mem_append.mp hOther with hOld | hNew
    · exact hTracked.closed other hOld
    · rw [List.mem_singleton.mp hNew]
      exact hClosed
  · intro other hOther
    rcases List.mem_append.mp hOther with hOld | hNew
    · exact hTracked.referenced other hOld
    · rw [List.mem_singleton.mp hNew]
      exact hReferenced
  · intro j other k hOther hWrites
    have hOld := hTracked.fresh j other k hOther hWrites
    have hNew := hDone j other k hOther hWrites
    change other.eventId ∉ (run.marks ++ [mark]).map _
    rw [List.map_append, List.mem_append, not_or]
    exact ⟨hOld, fun h => hNew (List.mem_singleton.mp h)⟩
  · exact hTracked.agree
  · constructor
    · change ((run.marks ++ [mark]).map _).Nodup
      rw [List.map_append, List.map_singleton, List.nodup_append]
      refine ⟨hTracked.once.events, List.nodup_singleton _, ?_⟩
      intro a ha b hb hSame
      rw [List.mem_singleton.mp hb] at hSame
      exact hEvent (hSame ▸ ha)
    · change ((run.marks ++ [mark]).map _).Nodup
      rw [List.map_append, List.map_singleton, List.nodup_append]
      refine ⟨hTracked.once.rows, List.nodup_singleton _, ?_⟩
      intro a ha b hb hSame
      rw [List.mem_singleton.mp hb] at hSame
      exact hRow (hSame ▸ ha)

theorem marksOf_of_grows {move : FaultMove} (hGrows : db.Grows db') :
    marksOf deliveries db db' move = [] := by
  cases move with
  | crash i => rfl
  | attempt i outcome =>
    unfold marksOf
    rw [changedRows_of_grows hGrows]
    dsimp only
    split <;> rfl

variable {outcome : Outcome}

theorem marksOf_attempt (hDelivery : deliveries[i]? = some delivery) :
    marksOf deliveries db db' (.attempt i outcome) = (changedRows db db').map fun row =>
      { event := delivery.eventId, row } := by
  unfold marksOf
  dsimp only
  rw [hDelivery]

variable {event : DividendClaimedEvent} {request : DividendClaimRequest} {row : DividendClaim}
variable {call' : Call DividendDb IndexerError Unit}

/- The run after a statement of a delivery. -/
abbrev ClaimRun.attempted (deliveries : List DividendDelivery) (run : ClaimRun) (i : Nat)
    (outcome : Outcome) (after : DividendDb) (call : Call DividendDb IndexerError Unit) :
    ClaimRun where
  pool :=
    { store := after
      calls := run.pool.calls.set i call }
  marks := run.marks ++ marksOf deliveries run.pool.store after (.attempt i outcome)

theorem tracked_marked (hSame : SameEvents deliveries) (hTracked : Tracked deliveries run)
    (hDelivery : deliveries[i]? = some (.claim event)) (hRequest : event.request = some request)
    (hCall : run.pool.calls[i]? = some call) (hAlive : call.crashed = false)
    (hAfter : db' = written (request.markClaimed row) run.pool.store)
    (hRows : rowsOfNext call.program run.pool.store = changedRows run.pool.store db')
    (hSelects : request.Selects (key row) run.pool.store)
    (hEnded : call'.program.isRunning = false) :
    Tracked deliveries (run.attempted deliveries i outcome db' call') := by
  have hLater : run.pool.store.Later db' := hAfter ▸ later_markClaimed row
  have hMoved : Tracked deliveries
      { pool := {
          store := db'
          calls := run.pool.calls.set i call' }
        marks := run.marks } :=
    hTracked.ending hDelivery hLater hEnded
  have hMarked : IsClosed (key row) db' := by
    rcases hSelects.isMatch.2.2 with ⟨stored, hStored, -⟩
    rw [hAfter]
    exact isClosed_marked hStored
  unfold ClaimRun.attempted
  by_cases hOpen : IsOpen (key row) run.pool.store
  · have hChanged : changedRows run.pool.store db' = [key row] := by
      rw [hAfter]
      exact changedRows_markClaimed hOpen
    have hWrites : run.Writes i (key row) := by
      refine ⟨call, hCall, hAlive, ?_⟩
      rw [hRows, hChanged]
      exact List.mem_singleton_self _
    have hMarks : marksOf deliveries run.pool.store db' (.attempt i outcome) =
        [{ event := event.id, row := key row }] := by
      rw [marksOf_attempt hDelivery, hChanged]
      rfl
    rw [hMarks]
    refine hMoved.mark ?_ ?_ ?_ ?_ ?_
    · exact hMarked
    · intro other request' reference hOther hId hRequest'
        hReference
      have hMem : .claim event ∈ deliveries := List.mem_of_getElem? hDelivery
      rw [hSame other event hOther hMem hId, hRequest]
        at hRequest'
      cases hRequest'
      rcases hSelects.referenced reference hReference with
        ⟨distribution, hFound, hDistribution⟩
      exact ⟨distribution, findDistribution_later hLater hFound,
        Prod.ext hDistribution hSelects.isMatch.1⟩
    · exact hTracked.fresh i _ _ hDelivery hWrites
    · intro hMem
      rcases List.mem_map.mp hMem with ⟨mark, hMark, hRow⟩
      have hClosed := hTracked.closed mark hMark
      rw [hRow] at hClosed
      exact hClosed.not_isOpen hOpen
    · intro j other k hOther hTheirs hId
      rcases hTheirs with ⟨call'', hCall'', hAlive'', hRows⟩
      rcases getElem?_set_cases hCall'' with
        ⟨rfl, rfl⟩ | ⟨-, hOld⟩
      · rw [rowsOfNext_of_not_running hEnded] at hRows
        cases hRows
      · have hStage := hMoved.stages j other call'' hOther hCall'' hAlive''
        rcases hStage.writes (DividendDb.Grows.refl _).later
          hRows with ⟨-, -, -, -, -, -, -, -, hStill⟩
        have hEarlier : run.Writes j k := hTracked.writes_earlier hLater
            ⟨call'', hOld, hAlive'', hRows⟩
        have hAgree := hTracked.agree i j _ other _ k hDelivery hOther
            hId.symm hWrites hEarlier
        rw [← hAgree] at hStill
        exact hMarked.not_isOpen hStill
  · have hChanged : changedRows run.pool.store db' = [] := by
      rw [hAfter, List.eq_nil_iff_forall_not_mem]
      intro k hk
      rcases mem_changedRows_mark.mp hk with ⟨rfl, hStill⟩
      exact hOpen hStill
    rw [marksOf_attempt hDelivery, hChanged, List.map_nil, List.append_nil]
    exact hMoved

/- A reference leads to one row only. -/
theorem selects_unique {reference : String} {k' : String × String}
    (hReference : request.snapshotReference = some reference) (hSelects : request.Selects k db)
    (hSelects' : request.Selects k' db) :
    k = k' := by
  rcases hSelects.referenced reference hReference with ⟨distribution, hFound, hId⟩
  rcases hSelects'.referenced reference hReference with ⟨distribution', hFound', hId'⟩
  rw [hFound] at hFound'
  cases hFound'
  exact Prod.ext (hId.trans hId'.symm) (hSelects.isMatch.1.trans hSelects'.isMatch.1.symm)

/- A read that selects a row, when the condition allows it. -/
theorem tracked_selecting (hSame : SameEvents deliveries)
    (hTracked : Tracked deliveries run) (hDelivery : deliveries[i]? = some (.claim event))
    (hRequest : event.request = some request)
    (hProgram : call'.program = execute .database (request.markClaimed row))
    (hSelects : request.Selects (key row) run.pool.store) (hOpen : IsOpen (key row) run.pool.store)
    (hOnly : request.snapshotReference = none → request.matchingClaims none run.pool.store = [row] ∧
      ¬ Rematches run event) :
    Tracked deliveries { run with
        pool.calls := run.pool.calls.set i call' } := by
  have hEvent : .claim event ∈ deliveries := List.mem_of_getElem? hDelivery
  refine hTracked.set hDelivery ?_ ?_
  · intro _
    rw [hProgram]
    exact .marking hRequest hSelects
  intro _ k hk
  rw [hProgram] at hk ⊢
  rcases mem_rowsOfNext_mark.mp hk with ⟨rfl, -⟩
  refine ⟨?_, ?_, ?_⟩
  · intro hMem
    cases hReference : request.snapshotReference with
    | none =>
      rcases hOnly hReference with ⟨hOne, hNot⟩
      apply hNot
      refine ⟨hMem, request, hRequest, hReference, ?_⟩
      rw [hOne]
      rfl
    | some reference =>
      rcases List.mem_map.mp hMem with ⟨mark, hMark, hId⟩
      rcases hTracked.referenced mark hMark event request reference
        hEvent hId.symm hRequest hReference with ⟨distribution, hFound, hRow⟩
      rcases hSelects.referenced reference hReference with ⟨distribution', hFound', hKey⟩
      rw [hFound] at hFound'
      cases hFound'
      have hMarked : mark.row = key row := by
        rw [hRow]
        exact Prod.ext hKey.symm hSelects.isMatch.1.symm
      have hClosed := hTracked.closed mark hMark
      rw [hMarked] at hClosed
      exact hClosed.not_isOpen hOpen
  · intro k' hk'
    exact (mem_rowsOfNext_mark.mp hk').1
  · intro j other k' _ hOther hId hTheirs
    rcases hTheirs with ⟨call'', hCall'', hAlive'', hRows⟩
    rcases (hTracked.stages j other call'' hOther hCall''
      hAlive'').writes (DividendDb.Grows.refl _).later hRows with
      ⟨event', request', row', rfl, hRequest', -, -, hSelects', hOpen'⟩
    have hSameEvent : event' = event := hSame event' event (List.mem_of_getElem? hOther) hEvent hId
    rw [hSameEvent, hRequest] at hRequest'
    cases hRequest'
    cases hReference : request.snapshotReference with
    | none =>
      rcases mem_of_matches hSelects'.isMatch hOpen' with ⟨found, hFound, hKey⟩
      rw [(hOnly hReference).1] at hFound
      rw [← hKey, List.mem_singleton.mp hFound]
    | some reference => exact selects_unique hReference hSelects' hSelects

variable {update : DividendDb → DividendDb} {next : DividendDb → DividendM Unit}
variable {onFault : DividendM Unit}

/- A statement takes effect, and the call ends. -/
theorem tracked_last (hSame : SameEvents deliveries) (hTracked : Tracked deliveries run)
    (hDelivery : deliveries[i]? = some delivery) (hCall : run.pool.calls[i]? = some call)
    (hAlive : call.crashed = false) (hProgram : call.program = .stmt update next onFault)
    (hEnded : call'.program.isRunning = false) :
    Tracked deliveries (run.attempted deliveries i outcome (update run.pool.store) call') := by
  have hStage := hTracked.stages i delivery call hDelivery hCall hAlive
  rw [hProgram] at hStage
  unfold ClaimRun.attempted
  cases hStage.statement.2 with
  | on hGrows hNext hQuiet =>
    rw [marksOf_of_grows hGrows, List.append_nil]
    exact hTracked.ending hDelivery hGrows.later hEnded
  | selecting hClaim hRequest hAfter hNext hSelects hOpen hOnly =>
    rw [hAfter, marksOf_of_grows (.refl _), List.append_nil]
    exact hTracked.ending hDelivery
      (DividendDb.Grows.refl _).later hEnded
  | marked hClaim hRequest hSelects hAfter _ =>
    subst hClaim
    exact tracked_marked hSame hTracked hDelivery hRequest hCall hAlive hAfter
      (by rw [hProgram]; rfl) hSelects hEnded

theorem tracked_served (hSame : SameEvents deliveries) (hTracked : Tracked deliveries run)
    (hMove : NotRematched deliveries run
      (.call (.attempt i .served))) (hDelivery : deliveries[i]? = some delivery)
    (hCall : run.pool.calls[i]? = some call) (hAlive : call.crashed = false)
    (hProgram : call.program = .stmt update next onFault) :
    Tracked deliveries (run.attempted deliveries i .served (update run.pool.store)
      (call.advance (next run.pool.store))) := by
  have hStage := hTracked.stages i delivery call hDelivery hCall hAlive
  rw [hProgram] at hStage
  unfold ClaimRun.attempted
  cases hStage.statement.2 with
  | on hGrows hNext hQuiet =>
    rw [marksOf_of_grows hGrows, List.append_nil]
    refine (hTracked.later hGrows.later).set hDelivery
      (fun _ => hNext) ?_
    intro _ k hk
    rw [Call.advance, hQuiet] at hk
    cases hk
  | selecting hClaim hRequest hAfter hNext hSelects hOpen hOnly =>
    subst hClaim
    rw [hAfter, marksOf_of_grows (.refl _), List.append_nil]
    refine tracked_selecting hSame hTracked hDelivery hRequest hNext
      hSelects hOpen ?_
    intro hNone
    rcases hOnly hNone with ⟨hFirst, hOne⟩
    exact ⟨hOne, hMove call hCall hFirst _ hDelivery _ rfl⟩
  | marked _ _ _ _ hEnded =>
    exact tracked_last hSame hTracked hDelivery hCall hAlive
      hProgram hEnded

theorem tracked_step {move : ClaimMove} (hSame : SameEvents deliveries)
    (hTracked : Tracked deliveries run) (hMove : NotRematched deliveries run move)
    (hStep : run.step deliveries move = some run') :
    Tracked deliveries run' := by
  cases move with
  | trade trade =>
    cases hStep
    apply hTracked.later
    apply DividendDb.Grows.later
    exact ⟨⟨[], (List.append_nil _).symm⟩, ⟨[], (List.append_nil _).symm⟩⟩
  | call move =>
    rcases Option.map_eq_some_iff.mp hStep with
      ⟨pool', hPool, rfl⟩
    have hDelivery : ∀ (i : Nat) call, run.pool.calls[i]? = some call →
        ∃ delivery, deliveries[i]? = some delivery := by
      intro i call hCall
      have hBound := (List.getElem?_eq_some_iff.mp hCall).1
      rw [hTracked.length] at hBound
      exact ⟨_, List.getElem?_eq_getElem hBound⟩
    cases move with
    | crash i =>
      rcases Pool.step_crash hPool with
        ⟨call, hCall, -, -, rfl⟩
      rcases hDelivery i call hCall with
        ⟨delivery, hHere⟩
      rw [marksOf_of_grows (.refl _), List.append_nil]
      exact hTracked.set hHere (fun h => by cases h)
        (fun h => by cases h)
    | attempt i outcome =>
      rcases Pool.attempt_spec hPool with
        ⟨call, update, next, onFault, hCall, hAlive, hProgram, rfl⟩
      rcases hDelivery i call hCall with
        ⟨delivery, hHere⟩
      have hStage := hTracked.stages i delivery call hHere hCall hAlive
      rw [hProgram] at hStage
      cases outcome with
      | served =>
        exact tracked_served hSame hTracked hMove hHere hCall
          hAlive hProgram
      | rejected =>
        simp only [Outcome.apply]
        rw [marksOf_of_grows (.refl _), List.append_nil]
        exact hTracked.ending hHere
          (DividendDb.Grows.refl _).later
          hStage.statement.1
      | lost =>
        exact tracked_last hSame hTracked hHere hCall hAlive
          hProgram hStage.statement.1

end

variable {deliveries : List DividendDelivery} {run : ClaimRun} {db : DividendDb}

variable {moves : List ClaimMove}

-- Marks
----

variable {i : Nat}

theorem tracked_run (hSame : SameEvents deliveries)
    (hRun : RunsTo (ClaimRun.step deliveries) (NotRematched deliveries) (.start deliveries db) moves
      run) : Tracked deliveries run :=
  hRun.invariant (tracked_start deliveries db) fun _ _ _ hTracked hMove hStep =>
    tracked_step hSame hTracked hMove hStep

/-
  While no event without a reference matches again after it has
  marked a row, each event marks at most one row, and each row
  is marked at most once.
-/
theorem claims_marked_once {moves : List ClaimMove} (hSame : SameEvents deliveries)
    (hRun : RunsTo (ClaimRun.step deliveries) (NotRematched deliveries) (.start deliveries db) moves
      run) :
    run.MarkedOnce := (tracked_run hSame hRun).once

/- A distribution of five XLM to the holders of a key. -/
def sampleSnapshot (txHash : String) : DividendEvent where
  eventType := "DIVIDEND_DISTRIBUTED"
  creatorId := some "key"
  totalDistributed := some (.finite 5)
  distributedAt := some { parsed := some 0 }
  holdersCount := none
  distributorAddress := none
  claimWindowStart := none
  claimWindowEnd := none
  snapshotId := none
  ledger := some 1
  txHash := txHash
  eventIndex := 0

/- A claim of five XLM that names no snapshot. -/
def sampleDividendClaim : DividendClaimedEvent where
  eventType := "DIVIDEND_CLAIMED"
  creatorId := some "key"
  claimantAddress := some "wallet"
  amountXlm := some (.finite 5)
  claimedAt := some { parsed := some 0 }
  snapshotReference := none
  ledger := some 2
  txHash := "claim"
  eventIndex := 0

/- One wallet holds one key. -/
def heldDividendDb : DividendDb where
  trade := TradeDb.empty.incrementBalance "wallet" "key" 1
  dividendDistribution := .empty
  dividendClaim := .empty

/- Deliveries of the claim around some distributions. -/
def claimDeliveries (later : List DividendDelivery) : List DividendDelivery :=
  .snapshot "first" (sampleSnapshot "a") :: .claim sampleDividendClaim :: later ++
    [.claim sampleDividendClaim]

/- The deliveries, one after the other. -/
def servedTwice (calls : Nat) : List ClaimMove :=
  (List.range calls).flatMap fun i => [.call (.attempt i .served), .call (.attempt i .served)]

theorem sameEvents_claimDeliveries : SameEvents (claimDeliveries []) := by
  intro event other hEvent hOther _
  unfold claimDeliveries at hEvent hOther
  simp at hEvent hOther
  rw [hEvent, hOther]

/- A redelivery after which no claim is open. -/
theorem claims_marked_once_redelivered :
    ∃ run, RunsTo (ClaimRun.step (claimDeliveries [])) (NotRematched (claimDeliveries []))
      (.start (claimDeliveries []) heldDividendDb)
      (servedTwice 2 ++ [.call (.attempt 2 .served)]) run ∧
      run.marks.length = 1 ∧ run.MarkedOnce := by
  have hRun : (runAllowed (ClaimRun.step (claimDeliveries [])) (NotRematched (claimDeliveries []))
      (.start (claimDeliveries []) heldDividendDb)
      (servedTwice 2 ++ [.call (.attempt 2 .served)])).map
        (fun run => run.marks.length) = some 1 := by decide +kernel
  rcases Option.map_eq_some_iff.mp hRun with ⟨run, hHere, hLength⟩
  have hRuns := runsTo_of_runAllowed hHere
  exact ⟨run, hRuns, hLength, claims_marked_once sameEvents_claimDeliveries hRuns⟩

/-
  The claim is delivered again after a second distribution of
  the same amount, and marks the row of that too.
-/
theorem redelivered_claim_marks_twice :
    ¬ ∀ deliveries db moves run, SameEvents deliveries →
      RunsTo (ClaimRun.step deliveries) (fun _ _ => True) (.start deliveries db) moves run →
        run.MarkedOnce := by
  intro hAll
  have hSame : SameEvents (claimDeliveries [.snapshot "second" (sampleSnapshot "b")]) := by
    intro event other hEvent hOther _
    unfold claimDeliveries at hEvent hOther
    simp at hEvent hOther
    rw [hEvent, hOther]
  have hRun :
      (runLabels (ClaimRun.step (claimDeliveries [.snapshot "second" (sampleSnapshot "b")])) (.start
        (claimDeliveries [.snapshot "second" (sampleSnapshot "b")]) heldDividendDb)
        (servedTwice 4)).map (fun run => run.marks) = some
          [{ event := ("claim", 0)
             row := ("first", "wallet") },
           { event := ("claim", 0)
             row := ("second", "wallet") }] := by decide +kernel
  rcases Option.map_eq_some_iff.mp hRun with ⟨run, hHere, hMarks⟩
  have hEvents := (hAll _ _ _ _ hSame (runsTo_of_runLabels hHere)).events
  rw [hMarks] at hEvents
  exact absurd hEvents (by decide)

end Indexer

end AccessLayer
