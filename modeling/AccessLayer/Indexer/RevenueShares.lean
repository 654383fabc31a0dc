import AccessLayer.Indexer.Dividends
import AccessLayer.Indexer.EventFields
import AccessLayer.Library.Phases

/-
  Revenue distributions of a key and the claims on their shares
  (`src/modules/indexer/revenue-share-indexer.service.ts`,
  `prisma/schema/revenue.prisma`).

  A claim is checked against what it read and inserted by a
  later statement.  A share is named by its distribution and its
  wallet; caches and logs are left out.  Sums are exact, as those
  of numbers with up to 15 significant digits are.

  Main result: `claims_within_shares`
-/

-- Tables
----

namespace AccessLayer

namespace Indexer

open Transactional Program

section

/- A `Decimal(20, 7)` column of amounts that are not negative. -/
structure Decimal7 where
  units : Nat
  deriving DecidableEq

namespace Decimal7

def value (decimal : Decimal7) : ℚ := decimal.units / 10000000

/- An amount that is stored is rounded to seven decimals. -/
def ofRat (amount : ℚ) : Decimal7 where
  units := ⌊amount * 10000000 + 1 / 2⌋.toNat

theorem value_nonneg (decimal : Decimal7) : 0 ≤ decimal.value := by
  unfold value
  positivity

/- Rounding does not cross a bound of seven decimals. -/
theorem value_ofRat_le {amount : ℚ} {units : ℤ} (hUnits : 0 ≤ units)
    (hAmount : amount ≤ units / 10000000) :
    (ofRat amount).value ≤ units / 10000000 := by
  have hFloor : ⌊amount * 10000000 + 1 / 2⌋ ≤ units := by
    rw [← Int.lt_add_one_iff, Int.floor_lt]
    push_cast
    linarith
  have hNat : ((ofRat amount).units : ℤ) ≤ units := by
    change ((⌊amount * 10000000 + 1 / 2⌋.toNat : ℕ) : ℤ) ≤ units
    omega
  have hCast : ((ofRat amount).units : ℚ) ≤ units := by exact_mod_cast hNat
  unfold value
  gcongr

end Decimal7

structure RevenueDistribution where
  id : String
  keyId : String
  chainDistributionId : Option String
  amount : Decimal7
  holderCount : ℤ
  ledger : ℤ
  txHash : String
  eventIndex : Nat
  distributedAt : ℤ

structure RevenueDistributionShare where
  distributionId : String
  wallet : String
  amount : Decimal7

structure RevenueShareClaim where
  shareId : String × String
  amount : Decimal7
  ledger : ℤ
  txHash : String
  eventIndex : Nat
  claimedAt : ℤ
  deriving DecidableEq

instance : Keyed RevenueDistribution String where
  key row := row.id

instance : Keyed RevenueDistributionShare (String × String) where
  key row := (row.distributionId, row.wallet)

/- A claim is recorded once for each event. -/
instance : Keyed RevenueShareClaim (ℤ × String × Nat) where
  key row := (row.ledger, row.txHash, row.eventIndex)

/- Every claim refers to a share that is stored. -/
structure RevenueDb where
  trade : TradeDb
  revenueDistribution : Table RevenueDistribution
  revenueDistributionShare : Table RevenueDistributionShare
  revenueShareClaim : Table RevenueShareClaim
  claimShare : ∀ claim ∈ revenueShareClaim.rows, ∃ share,
    revenueDistributionShare.find? claim.shareId = some share

inductive RevenueError where
  | database
  | uniqueViolation
  | foreignKeyViolation
  | invalidDistribution (eventId : String)
  | invalidRecipient (eventId : String)
  | invalidHolderCount (eventId : String)
  | invalidClaim (eventId : String)
  | unknownShare (eventId : String)
  | exceedsShare (eventId : String)
  deriving DecidableEq

def RevenueError.message : RevenueError → String
  | .database => "Database statement failed"
  | .uniqueViolation => "Unique constraint failed"
  | .foreignKeyViolation => "Foreign key constraint failed"
  | .invalidDistribution eventId =>
    "RevenueDistributed event " ++ eventId ++ " is missing valid key, amount, date, or ledger"
  | .invalidRecipient eventId =>
    "RevenueDistributed event " ++ eventId ++ " has an invalid recipient"
  | .invalidHolderCount eventId =>
    "RevenueDistributed event " ++ eventId ++ " has an invalid holder count"
  | .invalidClaim eventId =>
    "RevenueShareClaimed event " ++ eventId ++ " is missing valid key, wallet, amount, date, " ++
      "or ledger"
  | .unknownShare eventId =>
    "RevenueShareClaimed event " ++ eventId ++
      " references an unknown or ambiguous distribution " ++ "or wallet share"
  | .exceedsShare eventId =>
    "RevenueShareClaimed event " ++ eventId ++ " exceeds the wallet's distribution share"

abbrev RevenueM := Program RevenueDb RevenueError

-- Events
----

structure RevenueRecipient where
  wallet : Option String
  amount : Option EventNumber

structure RevenueFields where
  keyId : Option String
  wallet : Option String
  distributionId : Option String
  amount : Option EventNumber
  date : Option EventDate
  recipients : List RevenueRecipient
  holderCount : Option EventNumber

abbrev RevenueEvent := PipelineEvent RevenueFields

def revenueDistributionEventTypes : List String := ["RevenueDistributed", "REVENUE_DISTRIBUTED"]

def revenueClaimEventTypes : List String := ["RevenueShareClaimed", "REVENUE_SHARE_CLAIMED"]

/- A text that is not blank, as it is. -/
def readString (field : Option String) : Option String :=
  field.filter fun text => Indexer.trim text ≠ ""

def readDate (field : Option EventDate) : Option ℤ := field.bind EventDate.parsed

def readAmount : Option EventNumber → Option ℚ
  | some (.finite amount) =>
    if 0 ≤ amount then some amount else none
  | _ => none

/- A distribution event that has passed its checks. -/
structure RevenueDistributed where
  keyId : String
  amount : ℚ
  distributedAt : ℤ
  ledger : ℤ
  txHash : String
  eventIndex : Nat
  chainDistributionId : Option String
  deriving DecidableEq

def revenueDistributed (event : RevenueEvent) : Option RevenueDistributed := do
  let keyId ← readString event.payload.keyId
  let amount ← readAmount event.payload.amount
  let distributedAt ← readDate event.payload.date
  let ledger ← event.ledger
  let txHash ← present (some event.txHash)
  some {
    keyId
    amount
    distributedAt
    ledger
    txHash
    eventIndex := event.eventIndex
    chainDistributionId := readString event.payload.distributionId }

/- A claim event that has passed its checks. -/
structure RevenueShareClaimed where
  keyId : String
  wallet : String
  chainDistributionId : Option String
  amount : ℚ
  positive : 0 < amount
  claimedAt : ℤ
  ledger : ℤ
  txHash : String
  eventIndex : Nat

def revenueShareClaimed (event : RevenueEvent) : Option RevenueShareClaimed := do
  let keyId ← readString event.payload.keyId
  let wallet ← readString event.payload.wallet
  let amount ← readAmount event.payload.amount
  let claimedAt ← readDate event.payload.date
  let ledger ← event.ledger
  let txHash ← present (some event.txHash)
  if positive : 0 < amount then
    some {
      keyId
      wallet
      chainDistributionId := readString event.payload.distributionId
      amount
      positive
      claimedAt
      ledger
      txHash
      eventIndex := event.eventIndex }
  else none

-- Distributions
----

/- What a wallet may claim of a distribution. -/
structure RevenueAllocation where
  wallet : String
  amount : ℚ
  deriving DecidableEq

def RevenueRecipient.allocation (recipient : RevenueRecipient) : Option RevenueAllocation := do
  let wallet ← present recipient.wallet
  let amount ← readAmount recipient.amount
  some { wallet, amount }

namespace RevenueDistributed

variable (distributed : RevenueDistributed)

def isStored (db : RevenueDb) : Bool :=
  db.revenueDistribution.rows.any fun row => row.ledger = distributed.ledger ∧
    row.txHash = distributed.txHash ∧ row.eventIndex = distributed.eventIndex ∨
    distributed.chainDistributionId ≠ none ∧ row.keyId = distributed.keyId ∧
      row.chainDistributionId = distributed.chainDistributionId

/- `toFixed(7)` of what the balance of a holder earns. -/
def holderAllocation (holderRows : List KeyOwnership)
    (holder : KeyOwnership) : RevenueAllocation where
  wallet := holder.ownerAddress
  amount := roundXlm (distributed.amount * holder.balance / totalKeyBalance holderRows)

def allocations (recipients : List RevenueRecipient) (holderRows : List KeyOwnership) :
    Option (List RevenueAllocation) :=
  if recipients ≠ [] then
    recipients.mapM RevenueRecipient.allocation
  else if 0 < totalKeyBalance holderRows then
    some (holderRows.map (distributed.holderAllocation holderRows))
  else some []

def row (id : String) (holderCount : ℤ) : RevenueDistribution where
  id := id
  keyId := distributed.keyId
  chainDistributionId := distributed.chainDistributionId
  amount := .ofRat distributed.amount
  holderCount := holderCount
  ledger := distributed.ledger
  txHash := distributed.txHash
  eventIndex := distributed.eventIndex
  distributedAt := distributed.distributedAt

end RevenueDistributed

def RevenueAllocation.share (id : String) (allocation : RevenueAllocation) :
    RevenueDistributionShare where
  distributionId := id
  wallet := allocation.wallet
  amount := .ofRat allocation.amount

def revenueHolderCount (holderCount : Option EventNumber) (shares holderRows : Nat) : Option ℤ :=
  match holderCount with
  | none => some (if shares ≠ 0 then shares else holderRows)
  | some .notFinite => none
  | some (.finite count) =>
    if count.isInt ∧ 0 ≤ count then some count.num else none

/- The transaction that records a distribution. -/
def createDistribution (distributed : RevenueDistributed) (id : String) (holderCount : ℤ)
    (shares : List RevenueAllocation) (db : RevenueDb) : Except RevenueError (Unit × RevenueDb) :=
  if distributed.isStored db then .error .uniqueViolation
  else
    match db.revenueDistribution.insert? (distributed.row id holderCount) with
    | none => .error .uniqueViolation
    | some revenueDistribution =>
      match hShares :
        db.revenueDistributionShare.insertAll? (shares.map (RevenueAllocation.share id))
      with
      | none => .error .uniqueViolation
      | some revenueDistributionShare =>
        .ok ((), { db with
              revenueDistribution
              revenueDistributionShare
              claimShare := by
                intro claim hClaim
                rcases db.claimShare claim hClaim with ⟨share, hShare⟩
                exact ⟨share, Table.find?_of_rows_append (Table.rows_insertAll? hShares) hShare⟩ })

def isUniqueConstraintError (error : RevenueError) : Bool := error = .uniqueViolation

/- A write that another delivery has made before is skipped. -/
def unlessStored (write : RevenueDb → Except RevenueError (Unit × RevenueDb)) : RevenueM Unit :=
  tryCatch (execute .database write) fun error =>
    if isUniqueConstraintError error then pure ()
    else throw error

def recordDistribution (id : String) (event : RevenueEvent) (distributed : RevenueDistributed)
    (holderRows : List KeyOwnership) : RevenueM Unit :=
  match distributed.allocations event.payload.recipients holderRows with
  | none => throw (.invalidRecipient event.id)
  | some shares =>
    match revenueHolderCount event.payload.holderCount shares.length holderRows.length with
    | none => throw (.invalidHolderCount event.id)
    | some holderCount => unlessStored (createDistribution distributed id holderCount shares)

/- `id` is generated for the row. -/
def processRevenueDistributedEvent (id : String) (event : RevenueEvent) : RevenueM Unit :=
  match revenueDistributed event with
  | none => throw (.invalidDistribution event.id)
  | some distributed => do
    let existing ← query .database distributed.isStored
    if existing then pure ()
    else do
      let holderRows ← query .database fun db => db.trade.holders distributed.keyId
      recordDistribution id event distributed holderRows

end

-- Claims
----

section

def tolerance : ℚ := 1 / 10000000

def RevenueDb.claimed (db : RevenueDb) (shareId : String × String) : ℚ :=
  ((db.revenueShareClaim.rows.filter (·.shareId = shareId)).map (·.amount.value)).sum

/- A share of the wallet, and what has been claimed of it. -/
structure RevenueCandidate where
  share : RevenueDistributionShare
  claimed : ℚ

def RevenueCandidate.remaining (candidate : RevenueCandidate) : ℚ :=
  max 0 (candidate.share.amount.value - candidate.claimed)

namespace RevenueShareClaimed

variable (claim : RevenueShareClaimed)

def isStored (db : RevenueDb) : Bool :=
  db.revenueShareClaim.rows.any fun row => row.ledger = claim.ledger ∧ row.txHash = claim.txHash ∧
    row.eventIndex = claim.eventIndex

/- The distributions that the claim may be about. -/
def concerns (db : RevenueDb) (distribution : RevenueDistribution) : Bool :=
  distribution.keyId = claim.keyId &&
    match claim.chainDistributionId with
    | some id => distribution.id = id || distribution.chainDistributionId = some id
    | none => (db.revenueDistributionShare.find? (distribution.id, claim.wallet)).isSome

def candidate (db : RevenueDb) (distribution : RevenueDistribution) : Option RevenueCandidate :=
  (db.revenueDistributionShare.find? (distribution.id, claim.wallet)).map fun share =>
    { share, claimed := db.claimed (key share) }

/- Earlier distributions come first. -/
def candidates (db : RevenueDb) : List RevenueCandidate :=
  ((db.revenueDistribution.rows.filter (claim.concerns db)).insertionSort fun a b =>
    a.distributedAt < b.distributedAt ∨ a.distributedAt = b.distributedAt ∧
      a.id ≤ b.id).filterMap (claim.candidate db)

def pending (candidates : List RevenueCandidate) : List RevenueCandidate :=
  candidates.filter fun candidate => claim.amount ≤ candidate.remaining + tolerance

def exactMatches (candidates : List RevenueCandidate) : List RevenueCandidate :=
  (claim.pending candidates).filter fun candidate =>
    |candidate.remaining - claim.amount| < tolerance

/- Without a distribution, an exact match goes first. -/
def selected (candidates : List RevenueCandidate) : Option RevenueCandidate :=
  match claim.chainDistributionId with
  | some _ => onlyOne (claim.pending candidates)
  | none => (onlyOne (claim.exactMatches candidates)).or (onlyOne (claim.pending candidates))

def row (share : RevenueDistributionShare) : RevenueShareClaim where
  shareId := key share
  amount := .ofRat claim.amount
  ledger := claim.ledger
  txHash := claim.txHash
  eventIndex := claim.eventIndex
  claimedAt := claim.claimedAt

end RevenueShareClaimed

def createClaim (claim : RevenueShareClaim)
    (db : RevenueDb) : Except RevenueError (Unit × RevenueDb) :=
  if hShare :
    (db.revenueDistributionShare.find? claim.shareId).isSome then
    match hClaim : db.revenueShareClaim.insert? claim with
    | none => .error .uniqueViolation
    | some revenueShareClaim =>
      .ok ((), { db with
            revenueShareClaim
            claimShare := by
              rw [(Table.insert?_eq_some hClaim).2]
              intro other hOther
              rcases List.mem_append.mp hOther with hOld | hNew
              · exact db.claimShare other hOld
              · cases List.mem_singleton.mp hNew
                exact Option.isSome_iff_exists.mp hShare })
  else .error .foreignKeyViolation

/- Check the claim against what was read, and insert it. -/
def recordClaim (event : RevenueEvent) (claim : RevenueShareClaimed)
    (candidates : List RevenueCandidate) : RevenueM Unit :=
  match claim.selected candidates with
  | none => throw (.unknownShare event.id)
  | some candidate =>
    if candidate.share.amount.value + tolerance < candidate.claimed + claim.amount then
      throw (.exceedsShare event.id)
    else
      unlessStored (createClaim (claim.row candidate.share))

def processRevenueShareClaimedEvent (event : RevenueEvent) : RevenueM Unit :=
  match revenueShareClaimed event with
  | none => throw (.invalidClaim event.id)
  | some claim => do
    let existing ← query .database claim.isStored
    if existing then pure ()
    else do
      let candidates ← query .database claim.candidates
      recordClaim event claim candidates

/- `newId` names the row that an event creates. -/
def handleRevenueShareEvent (newId : RevenueEvent → String)
    (event : RevenueEvent) : RevenueM Unit :=
  if event.eventType ∈ revenueDistributionEventTypes then
    processRevenueDistributedEvent (newId event) event
  else if event.eventType ∈ revenueClaimEventTypes then
    processRevenueShareClaimedEvent event
  else pure ()

def processRevenueShareEvents (newId : RevenueEvent → String)
    (events : List RevenueEvent) : RevenueM Unit :=
  forEach (handleRevenueShareEvent newId) (PipelineEvent.dedupe events)

end

-- Claims That Fit
----

section

def RevenueDb.WithinShares (db : RevenueDb) : Prop :=
  ∀ share ∈ db.revenueDistributionShare.rows,
    db.claimed (key share) ≤ share.amount.value + tolerance

/- Its share is stored, and has room for the claim. -/
def RevenueShareClaim.Fits (claim : RevenueShareClaim) (db : RevenueDb) : Prop :=
  ∃ share, db.revenueDistributionShare.find? claim.shareId = some share ∧
    db.claimed claim.shareId + claim.amount.value ≤ share.amount.value + tolerance

/- Shares may have been added, but no claims. -/
structure RevenueDb.Extends (db db' : RevenueDb) : Prop where
  shares : ∃ rows, db'.revenueDistributionShare.rows = db.revenueDistributionShare.rows ++ rows
  claims : db'.revenueShareClaim = db.revenueShareClaim

variable {db db' : RevenueDb} {claim : RevenueShareClaim}

theorem RevenueDb.Extends.refl (db : RevenueDb) : db.Extends db :=
  ⟨⟨[], (List.append_nil _).symm⟩, rfl⟩

theorem RevenueDb.Extends.claimed (hExtends : db.Extends db') (shareId : String × String) :
    db'.claimed shareId = db.claimed shareId := by
  unfold RevenueDb.claimed
  rw [hExtends.claims]

variable {shareId : String × String} {share : RevenueDistributionShare}

theorem RevenueDb.Extends.find? (hExtends : db.Extends db')
    (hShare : db.revenueDistributionShare.find? shareId = some share) :
    db'.revenueDistributionShare.find? shareId = some share := by
  rcases hExtends.shares with ⟨rows, hRows⟩
  exact Table.find?_of_rows_append hRows hShare

theorem RevenueShareClaim.Fits.extends (hFits : claim.Fits db) (hExtends : db.Extends db') :
    claim.Fits db' := by
  rcases hFits with ⟨share, hShare, hRoom⟩
  refine ⟨share, hExtends.find? hShare, ?_⟩
  rw [hExtends.claimed]
  exact hRoom

theorem claimed_of_find?_eq_none (hNone : db.revenueDistributionShare.find? shareId = none) :
    db.claimed shareId = 0 := by
  have hClaims : db.revenueShareClaim.rows.filter (·.shareId = shareId) =
      [] := by
    rw [List.filter_eq_nil_iff]
    intro claim hClaim hShareId
    rcases db.claimShare claim hClaim with ⟨share, hShare⟩
    rw [of_decide_eq_true hShareId, hNone] at hShare
    cases hShare
  unfold RevenueDb.claimed
  rw [hClaims]
  rfl

theorem tolerance_nonneg : 0 ≤ tolerance := by
  unfold tolerance
  positivity

theorem RevenueDb.WithinShares.extends (hWithin : db.WithinShares) (hExtends : db.Extends db') :
    db'.WithinShares := by
  intro share hMem
  rw [hExtends.claimed]
  cases hOld : db.revenueDistributionShare.find? (key share) with
  | none =>
    rw [claimed_of_find?_eq_none hOld]
    exact add_nonneg share.amount.value_nonneg tolerance_nonneg
  | some old =>
    have hSame : old = share := by
      have hNew := hExtends.find? hOld
      rw [Table.find?_of_mem hMem] at hNew
      exact (Option.some.inj hNew).symm
    rw [← hSame]
    exact hWithin old (Table.mem_of_find? hOld)

/- What an inserted claim adds. -/
theorem createClaim_spec (hCreate : createClaim claim db = .ok ((), db')) :
    db.revenueShareClaim.find? (key claim) = none ∧ db'.revenueDistributionShare =
      db.revenueDistributionShare ∧ db'.revenueShareClaim.rows =
      db.revenueShareClaim.rows ++ [claim] := by
  unfold createClaim at hCreate
  split at hCreate
  · split at hCreate
    · cases hCreate
    · rename_i hClaim
      cases hCreate
      rcases Table.insert?_eq_some hClaim with ⟨hFresh, hRows⟩
      exact ⟨hFresh, rfl, hRows⟩
  · cases hCreate

theorem claimed_createClaim (hCreate : createClaim claim db = .ok ((), db'))
    (shareId : String × String) :
    db'.claimed shareId = db.claimed shareId +
      if claim.shareId = shareId then claim.amount.value
      else 0 := by
  unfold RevenueDb.claimed
  rw [(createClaim_spec hCreate).2.2, List.filter_append, List.map_append, List.sum_append]
  congr 1
  split
  · rename_i hSame
    simp [hSame]
  · rename_i hOther
    simp [hOther]

theorem RevenueDb.WithinShares.createClaim (hWithin : db.WithinShares) (hFits : claim.Fits db)
    (hCreate : Indexer.createClaim claim db = .ok ((), db')) :
    db'.WithinShares := by
  intro share hMem
  rw [(createClaim_spec hCreate).2.1] at hMem
  rw [claimed_createClaim hCreate]
  split
  · rename_i hSame
    rcases hFits with ⟨found, hFound, hRoom⟩
    rw [hSame, Table.find?_of_mem hMem] at hFound
    cases hFound
    rw [hSame] at hRoom
    exact hRoom
  · rw [add_zero]
    exact hWithin share hMem

theorem claimed_units (db : RevenueDb) (shareId : String × String) :
    ∃ units : ℕ, db.claimed shareId = units / 10000000 := by
  unfold RevenueDb.claimed
  induction db.revenueShareClaim.rows.filter (·.shareId = shareId) with
  | nil => exact ⟨0, by simp⟩
  | cons claim rest ih =>
    rcases ih with ⟨units, hUnits⟩
    refine ⟨claim.amount.units + units, ?_⟩
    rw [List.map_cons, List.sum_cons, hUnits, Decimal7.value]
    push_cast
    ring

/- A claim that passes the check still fits when it is rounded. -/
theorem fits_row {claimed : RevenueShareClaimed}
    (hShare : db.revenueDistributionShare.find? (key share) = some share)
    (hRoom : db.claimed (key share) + claimed.amount ≤ share.amount.value + tolerance) :
    (claimed.row share).Fits db := by
  refine ⟨share, hShare, ?_⟩
  change db.claimed (key share) + (Decimal7.ofRat claimed.amount).value ≤ _
  rcases claimed_units db (key share) with ⟨units, hUnits⟩
  rw [hUnits] at hRoom ⊢
  have hPositive := claimed.positive
  unfold tolerance at hRoom ⊢
  change _ ≤ (share.amount.units : ℚ) / 10000000 + _ at hRoom
  change _ ≤ (share.amount.units : ℚ) / 10000000 + _
  have hUnits' : (units : ℚ) ≤ share.amount.units + 1 := by linarith
  have hLe : (Decimal7.ofRat claimed.amount).value ≤ ((share.amount.units + 1 - units : ℤ) : ℚ) /
      10000000 := by
    apply Decimal7.value_ofRat_le
    · have hInt : units ≤ share.amount.units + 1 := by
        exact_mod_cast hUnits'
      omega
    · push_cast
      linarith
  push_cast at hLe
  linarith

end

-- Careful Programs
----

section

/-
  A program that only adds shares, and inserts claims that fit.
  The claim that it is about to insert fits the tables now.
-/
inductive Careful {α : Type} : RevenueDb → RevenueM α → Prop where
  | answered {db : RevenueDb} (a : α) : Careful db (.ret a)
  | failed {db : RevenueDb} (error : RevenueError) : Careful db (.raise error)
  | reading {db : RevenueDb} {update : RevenueDb → RevenueDb} {next : RevenueDb → RevenueM α}
    {onFault : RevenueM α} (hUpdate : ∀ t, RevenueDb.Extends t (update t))
    (hNext : ∀ t, Careful (update t) (next t)) (hFault : ∀ t, Careful t onFault) :
    Careful db (.stmt update next onFault)
  | inserting {db : RevenueDb} {claim : RevenueShareClaim} {next : RevenueDb → RevenueM α}
    {onFault : RevenueM α} (hFits : db.revenueShareClaim.find? (key claim) = none → claim.Fits db)
    (hNext : ∀ t t', Careful t' (next t)) (hFault : ∀ t, Careful t onFault) :
    Careful db (.stmt (written (createClaim claim)) next onFault)

variable {α β : Type} {db db' : RevenueDb} {p : RevenueM α}

theorem Careful.extends (hCareful : Careful db p) (hExtends : db.Extends db') : Careful db' p := by
  cases hCareful with
  | answered a => exact .answered a
  | failed error => exact .failed error
  | reading hUpdate hNext hFault => exact .reading hUpdate hNext hFault
  | inserting hFits hNext hFault =>
    refine .inserting ?_ hNext hFault
    intro hFresh
    rw [hExtends.claims] at hFresh
    exact (hFits hFresh).extends hExtends

theorem Careful.bind {k : α → RevenueM β} (hCareful : Careful db p) (hk : ∀ a t, Careful t (k a)) :
    Careful db (p >>= k) := by
  change Careful db (p.bind k)
  induction hCareful with
  | answered a => exact hk a _
  | failed error => exact .failed error
  | reading hUpdate hNext hFault ihNext ihFault => exact .reading hUpdate ihNext ihFault
  | inserting hFits hNext hFault ihNext ihFault => exact .inserting hFits ihNext ihFault

theorem careful_forEach {γ : Type} {f : γ → RevenueM Unit} (hf : ∀ x t, Careful t (f x))
    (xs : List γ) (db : RevenueDb) :
    Careful db (forEach f xs) := by
  induction xs generalizing db with
  | nil => exact .answered ()
  | cons x rest ih => exact (hf x db).bind fun _ => ih

theorem careful_query_bind {fault : RevenueError} {f : RevenueDb → β} {k : β → RevenueM α}
    (hk : ∀ t, Careful t (k (f t))) : Careful db (query fault f >>= k) :=
  .reading RevenueDb.Extends.refl hk fun _ => .failed fault

/- A guarded write is one statement. -/
theorem unlessStored_stmt (write : RevenueDb → Except RevenueError (Unit × RevenueDb)) :
    ∃ next onFault, unlessStored write = .stmt (written write) next onFault ∧
      (∀ t t', Careful t' (next t)) ∧
      ∀ t, Careful t onFault := by
  refine ⟨_, _, rfl, ?_, fun _ => .failed .database⟩
  intro t t'
  dsimp only
  cases hWrite : write t with
  | ok result => exact .answered result.1
  | error error =>
    change Careful t' (if isUniqueConstraintError error then pure ()
      else throw error)
    split
    · exact .answered ()
    · exact .failed error

theorem extends_createDistribution (distributed : RevenueDistributed) (id : String)
    (holderCount : ℤ) (shares : List RevenueAllocation) (db : RevenueDb) :
    db.Extends (written (createDistribution distributed id holderCount shares) db) := by
  unfold written
  split
  · rename_i db' hCreate
    unfold createDistribution at hCreate
    split at hCreate
    · cases hCreate
    · split at hCreate
      · cases hCreate
      · split at hCreate
        · cases hCreate
        · rename_i hShares
          cases hCreate
          exact ⟨⟨_, Table.rows_insertAll? hShares⟩, rfl⟩
  · exact .refl db

theorem careful_processRevenueDistributedEvent (id : String) (event : RevenueEvent)
    (db : RevenueDb) :
    Careful db (processRevenueDistributedEvent id event) := by
  unfold processRevenueDistributedEvent
  split
  · exact .failed _
  · rename_i distributed hEvent
    apply careful_query_bind
    intro t
    split
    · exact .answered ()
    · apply careful_query_bind
      intro t'
      unfold recordDistribution
      split
      · exact .failed _
      · rename_i shares _
        split
        · exact .failed _
        · rename_i holderCount _
          rcases unlessStored_stmt (createDistribution distributed id holderCount
            shares) with ⟨next, onFault, hStmt, hNext, hFault⟩
          rw [hStmt]
          exact .reading (extends_createDistribution distributed id holderCount shares)
            (fun t => hNext t _) hFault

variable {claimed : RevenueShareClaimed} {candidate : RevenueCandidate}

/- What is selected is among what was read. -/
theorem mem_of_selected {candidates : List RevenueCandidate}
    (h : claimed.selected candidates = some candidate) :
    candidate ∈ candidates := by
  unfold RevenueShareClaimed.selected at h
  have hPending : onlyOne (claimed.pending candidates) = some candidate → candidate ∈ candidates :=
    fun hOne => (List.mem_filter.mp (mem_of_onlyOne hOne)).1
  split at h
  · exact hPending h
  · rcases Option.or_eq_some_iff.mp h with hExact | ⟨-, hOne⟩
    · have hMem := (List.mem_filter.mp (mem_of_onlyOne hExact)).1
      exact (List.mem_filter.mp hMem).1
    · exact hPending hOne

theorem candidate_spec (hMem : candidate ∈ claimed.candidates db) :
    db.revenueDistributionShare.find? (key candidate.share) = some candidate.share ∧
      candidate.claimed = db.claimed (key candidate.share) := by
  rcases List.mem_filterMap.mp hMem with ⟨distribution, -, hCandidate⟩
  rcases Option.map_eq_some_iff.mp hCandidate with ⟨share, hShare, rfl⟩
  exact ⟨Table.find?_of_mem (Table.mem_of_find? hShare), rfl⟩

theorem careful_processRevenueShareClaimedEvent (event : RevenueEvent) (db : RevenueDb) :
    Careful db (processRevenueShareClaimedEvent event) := by
  unfold processRevenueShareClaimedEvent
  split
  · exact .failed _
  · rename_i claimed hEvent
    apply careful_query_bind
    intro t
    split
    · exact .answered ()
    · apply careful_query_bind
      intro t'
      unfold recordClaim
      split
      · exact .failed _
      · rename_i candidate hSelected
        split
        · exact .failed _
        · rename_i hRoom
          rcases candidate_spec (mem_of_selected hSelected) with ⟨hShare, hClaimed⟩
          rw [hClaimed, not_lt] at hRoom
          rcases unlessStored_stmt (createClaim (claimed.row candidate.share)) with
            ⟨next, onFault, hStmt, hNext, hFault⟩
          rw [hStmt]
          exact .inserting (fun _ => fits_row hShare hRoom) hNext hFault

theorem careful_processRevenueShareEvents (newId : RevenueEvent → String)
    (events : List RevenueEvent) (db : RevenueDb) :
    Careful db (processRevenueShareEvents newId events) := by
  apply careful_forEach
  intro event t
  unfold handleRevenueShareEvent
  split
  · exact careful_processRevenueDistributedEvent _ event t
  · split
    · exact careful_processRevenueShareClaimedEvent event t
    · exact .answered ()

end

variable {db : RevenueDb}

/- The tables after a claim that fits has been tried. -/
theorem within_written {claim : RevenueShareClaim} (hWithin : db.WithinShares)
    (hFits : db.revenueShareClaim.find? (key claim) = none → claim.Fits db) :
    (Program.written (createClaim claim) db).WithinShares := by
  unfold Program.written
  split
  · rename_i db' hCreate
    exact hWithin.createClaim (hFits (createClaim_spec hCreate).1) hCreate
  · exact hWithin

-- Batches Side by Side
----

abbrev RevenuePool := Pool RevenueDb RevenueError Unit

/- Batches that are handled side by side, none of them begun. -/
def revenuePool (newId : RevenueEvent → String) (batches : List (List RevenueEvent))
    (db : RevenueDb) : RevenuePool := .start db (batches.map (processRevenueShareEvents newId))

/- The claim that the next statement inserts. -/
def claimOfNext (p : RevenueM Unit) (db : RevenueDb) : Option RevenueShareClaim :=
  match p with
  | .stmt update _ _ => (update db).revenueShareClaim.rows[db.revenueShareClaim.rows.length]?
  | _ => none

/- The claim that a call is about to insert. -/
def pendingClaim (pool : RevenuePool) (i : Nat) : Option RevenueShareClaim :=
  match pool.calls[i]? with
  | some call =>
    if call.crashed then none
    else claimOfNext call.program pool.store
  | none => none

def RevenueDb.HasRoom (db : RevenueDb) (claim other : RevenueShareClaim) : Prop :=
  ∀ share ∈ db.revenueDistributionShare.find? claim.shareId,
    db.claimed claim.shareId + claim.amount.value + other.amount.value ≤
      share.amount.value + tolerance

instance (db : RevenueDb) (claim other : RevenueShareClaim) :
    Decidable (db.HasRoom claim other) := by
  unfold RevenueDb.HasRoom
  infer_instance

/-
  The claim that a call inserts leaves room for every claim of
  another event that another call has checked on the same share
  and is about to insert.
-/
def RoomBeside (pool : RevenuePool) (i : Nat) : Prop :=
  ∀ claim ∈ pendingClaim pool i, ∀ j < pool.calls.length, j ≠ i → ∀ other ∈ pendingClaim pool j,
    key other ≠ key claim → other.shareId = claim.shareId → pool.store.HasRoom claim other

/- The condition on a step; a rejected one inserts nothing. -/
def LeavesRoom (pool : RevenuePool) : FaultMove → Prop
  | .attempt _ .rejected => True
  | .attempt i _ => RoomBeside pool i
  | .crash _ => True

instance (pool : RevenuePool) (i : Nat) : Decidable (RoomBeside pool i) := by
  unfold RoomBeside
  infer_instance

instance (pool : RevenuePool) (move : FaultMove) : Decidable (LeavesRoom pool move) :=
  match move with
  | .attempt _ .rejected | .crash _ => isTrue trivial
  | .attempt i .served | .attempt i .lost => inferInstanceAs (Decidable (RoomBeside pool i))

variable {db db' : RevenueDb} {claim : RevenueShareClaim} {pool : RevenuePool} {i : Nat}
variable {call : Call RevenueDb RevenueError Unit}

theorem pendingClaim_eq (hCall : pool.calls[i]? = some call) (hAlive : call.crashed = false) :
    pendingClaim pool i = claimOfNext call.program pool.store := by
  unfold pendingClaim
  simp [hCall, hAlive]

theorem exists_createClaim {share : RevenueDistributionShare}
    (hFresh : db.revenueShareClaim.find? (key claim) = none)
    (hShare : db.revenueDistributionShare.find? claim.shareId = some share) :
    ∃ db', createClaim claim db = .ok ((), db') := by
  unfold createClaim
  rw [dif_pos (Option.isSome_iff_exists.mpr ⟨share, hShare⟩)]
  split
  · rename_i hClaim
    rw [Table.insert?_of_fresh hFresh] at hClaim
    cases hClaim
  · exact ⟨_, rfl⟩

variable {next : RevenueDb → RevenueM Unit} {onFault : RevenueM Unit}

theorem claimOfNext_inserting (hCreate : createClaim claim db = .ok ((), db')) :
    claimOfNext (.stmt (written (createClaim claim)) next onFault) db = some claim := by
  have hWritten : written (createClaim claim) db = db' := by
    unfold written
    rw [hCreate]
  unfold claimOfNext
  simp only [hWritten]
  rw [(createClaim_spec hCreate).2.2]
  exact List.getElem?_concat_length

/-
  A claim that is inserted beside a program leaves what the
  program has checked, if the share has room for both.
-/
theorem Careful.beside {p : RevenueM Unit} (hCareful : Careful db p)
    (hCreate : createClaim claim db = .ok ((), db'))
    (hRoom : ∀ other ∈ claimOfNext p db, key other ≠ key claim → other.shareId = claim.shareId →
      db.HasRoom claim other) :
    Careful db' p := by
  cases hCareful with
  | answered a => exact .answered a
  | failed error => exact .failed error
  | reading hUpdate hNext hFault => exact .reading hUpdate hNext hFault
  | @inserting _ other next onFault hFits hNext hFault =>
    refine .inserting ?_ hNext hFault
    intro hFresh'
    rcases createClaim_spec hCreate with ⟨hFresh, hShares, hRows⟩
    have hOut := Table.find?_eq_none_iff.mp hFresh'
    rw [hRows, List.map_append, List.mem_append, not_or] at hOut
    have hOther : key other ≠ key claim := by
      intro hSame
      exact hOut.2 (by simp [hSame])
    have hOld := Table.find?_eq_none_iff.mpr hOut.1
    rcases hFits hOld with ⟨share, hShare, hLe⟩
    refine ⟨share, by rw [hShares]; exact hShare, ?_⟩
    rw [claimed_createClaim hCreate]
    by_cases hSame : claim.shareId = other.shareId
    · rcases exists_createClaim hOld hShare with ⟨_, hOtherCreate⟩
      have hBoth := hRoom other (claimOfNext_inserting hOtherCreate) hOther
          hSame.symm share (by rw [hSame]; exact hShare)
      rw [if_pos hSame, ← hSame]
      exact hBoth
    · rw [if_neg hSame, add_zero]
      exact hLe

/- What holds in every state of a run. -/
structure Checked (pool : RevenuePool) : Prop where
  within : pool.store.WithinShares
  careful : ∀ (i : Nat) call, pool.calls[i]? = some call →
    call.crashed = false → Careful pool.store call.program

theorem checked_start (newId : RevenueEvent → String) (batches : List (List RevenueEvent))
    (hWithin : db.WithinShares) :
    Checked (revenuePool newId batches db) := by
  refine ⟨hWithin, ?_⟩
  intro i call hCall _
  unfold revenuePool Pool.start at hCall
  rw [List.map_map, List.getElem?_map] at hCall
  rcases Option.map_eq_some_iff.mp hCall with ⟨events, -, rfl⟩
  exact careful_processRevenueShareEvents newId events db

variable {update : RevenueDb → RevenueDb}

/- What a call makes of the tables, and of those beside it. -/
theorem checked_update (hChecked : Checked pool) (hRoom : RoomBeside pool i)
    (hCall : pool.calls[i]? = some call) (hAlive : call.crashed = false)
    (hProgram : call.program = .stmt update next onFault) :
    (update pool.store).WithinShares ∧ Careful (update pool.store) (next pool.store) ∧
      ∀ (j : Nat) other, j ≠ i → pool.calls[j]? = some other → other.crashed = false →
        Careful (update pool.store) other.program := by
  have hCareful := hChecked.careful i call hCall hAlive
  rw [hProgram] at hCareful
  cases hCareful with
  | reading hUpdate hNext hFault =>
    refine ⟨hChecked.within.extends (hUpdate _), hNext _, ?_⟩
    intro j other _ hOther hLive
    exact (hChecked.careful j other hOther hLive).extends (hUpdate _)
  | @inserting _ claim _ _ hFits hNext hFault =>
    refine ⟨within_written hChecked.within hFits, hNext _ _, ?_⟩
    intro j other hNe hOther hLive
    have hBeside := hChecked.careful j other hOther hLive
    cases hCreate : createClaim claim pool.store with
    | error error =>
      have hSame : written (createClaim claim) pool.store =
          pool.store := by
        unfold written
        rw [hCreate]
      rw [hSame]
      exact hBeside
    | ok result =>
      have hAfter : written (createClaim claim) pool.store =
          result.2 := by
        unfold written
        rw [hCreate]
      rw [hAfter]
      refine hBeside.beside hCreate ?_
      intro checked hPending hKey hShare
      have hMine : claim ∈ pendingClaim pool i := by
        rw [pendingClaim_eq hCall hAlive, hProgram]
        exact claimOfNext_inserting hCreate
      have hTheirs : checked ∈ pendingClaim pool j := by
        rw [pendingClaim_eq hOther hLive]
        exact hPending
      have hBound : j < pool.calls.length := (List.getElem?_eq_some_iff.mp hOther).1
      exact hRoom claim hMine j hBound hNe checked hTheirs hKey hShare

/- What a failed statement goes on with. -/
theorem careful_onFault (hCareful : Careful db (.stmt update next onFault)) (t : RevenueDb) :
    Careful t onFault := by
  cases hCareful with
  | reading hUpdate hNext hFault => exact hFault t
  | inserting hFits hNext hFault => exact hFault t

theorem checked_step {pool' : RevenuePool} {move : FaultMove} (hChecked : Checked pool)
    (hRoom : LeavesRoom pool move) (hStep : pool.attempt move = some pool') :
    Checked pool' := by
  cases move with
  | attempt i outcome =>
    rcases Pool.attempt_spec hStep with ⟨call, update, next, onFault, hCall, hAlive, hProgram, rfl⟩
    have hFault : ∀ t, Careful t onFault := by
      have hCareful := hChecked.careful i call hCall hAlive
      rw [hProgram] at hCareful
      exact careful_onFault hCareful
    cases outcome with
    | served =>
      rcases checked_update hChecked hRoom hCall hAlive hProgram with ⟨hWithin, hNext, hBeside⟩
      refine ⟨hWithin, ?_⟩
      intro j other hOther hLive
      rcases getElem?_set_cases hOther with ⟨rfl, rfl⟩ | ⟨hNe, hOld⟩
      · exact hNext
      · exact hBeside j other hNe hOld hLive
    | rejected =>
      refine ⟨hChecked.within, ?_⟩
      intro j other hOther hLive
      rcases getElem?_set_cases hOther with ⟨rfl, rfl⟩ | ⟨-, hOld⟩
      · exact hFault _
      · exact hChecked.careful j other hOld hLive
    | lost =>
      rcases checked_update hChecked hRoom hCall hAlive hProgram with ⟨hWithin, -, hBeside⟩
      refine ⟨hWithin, ?_⟩
      intro j other hOther hLive
      rcases getElem?_set_cases hOther with ⟨rfl, rfl⟩ | ⟨hNe, hOld⟩
      · exact hFault _
      · exact hBeside j other hNe hOld hLive
  | crash i =>
    rcases Pool.step_crash hStep with ⟨call, hCall, -, -, rfl⟩
    refine ⟨hChecked.within, ?_⟩
    intro j other hOther hLive
    rcases getElem?_set_cases hOther with ⟨rfl, rfl⟩ | ⟨-, hOld⟩
    · cases hLive
    · exact hChecked.careful j other hOld hLive

theorem checked_run {newId : RevenueEvent → String} {batches : List (List RevenueEvent)}
    {labels : List FaultMove} (hWithin : db.WithinShares)
    (hRun : RunsTo Pool.attempt LeavesRoom (revenuePool newId batches db) labels pool) :
    Checked pool :=
  hRun.invariant (checked_start newId batches hWithin) fun _ _ _ hChecked hRoom hStep =>
    checked_step hChecked hRoom hStep

/- The claims that are recorded for an event. -/
def RevenueDb.claimsOf (db : RevenueDb) (event : RevenueEvent) : List RevenueShareClaim :=
  db.revenueShareClaim.rows.filter fun claim => event.ledger = some claim.ledger ∧
    event.txHash = claim.txHash ∧ event.eventIndex = claim.eventIndex

theorem length_claimsOf_le (db : RevenueDb) (event : RevenueEvent) :
    (db.claimsOf event).length ≤ 1 := by
  cases hClaims : db.claimsOf event with
  | nil => exact Nat.zero_le 1
  | cons claim rest =>
    cases rest with
    | nil => exact le_rfl
    | cons other rest =>
      have hBoth : ∀ row ∈ [claim, other],
          row ∈ db.claimsOf event := by
        intro row hRow
        rw [hClaims]
        exact List.mem_append_left rest hRow
      have hKeys : ((db.claimsOf event).map key).Nodup :=
        db.revenueShareClaim.unique.sublist (List.filter_sublist.map key)
      rw [hClaims, List.map_cons, List.map_cons, List.nodup_cons] at hKeys
      have hOne := of_decide_eq_true (List.mem_filter.mp (hBoth claim (by simp))).2
      have hTwo := of_decide_eq_true (List.mem_filter.mp (hBoth other (by simp))).2
      exfalso
      apply hKeys.1
      have hKey : key claim = key other := by
        change (claim.ledger, claim.txHash, claim.eventIndex) =
          (other.ledger, other.txHash, other.eventIndex)
        rw [← hOne.2.1, ← hOne.2.2, hTwo.2.1, hTwo.2.2, Option.some.inj (hOne.1.symm.trans hTwo.1)]
      rw [hKey]
      exact List.mem_cons_self

/- A distribution of three XLM to one wallet. -/
def sampleDistributed : RevenueEvent where
  toIndexerChainEvent := bareEvent "RevenueDistributed" "distribution" 0 1
  payload := {
    keyId := some "key"
    wallet := none
    distributionId := none
    amount := some (.finite 3)
    date := some { parsed := some 0 }
    recipients :=
      [{ wallet := some "wallet"
         amount := some (.finite 3) }]
    holderCount := none }

def sampleClaimed (txHash : String) (amount : ℚ) : RevenueEvent where
  toIndexerChainEvent := bareEvent "RevenueShareClaimed" txHash 0 2
  payload := {
    keyId := some "key"
    wallet := some "wallet"
    distributionId := none
    amount := some (.finite amount)
    date := some { parsed := some 0 }
    recipients := []
    holderCount := none }

def emptyRevenueDb : RevenueDb where
  trade := .empty
  revenueDistribution := .empty
  revenueDistributionShare := .empty
  revenueShareClaim := .empty
  claimShare := fun _ hClaim => by cases hClaim

/- The tables after the distribution, without claims. -/
def distributedDb : RevenueDb :=
  (processRevenueShareEvents PipelineEvent.id [sampleDistributed]).final emptyRevenueDb

theorem distributedDb_within : distributedDb.WithinShares := by
  unfold RevenueDb.WithinShares
  decide +kernel

/- Two calls read the share before either of them inserts. -/
def overlappingClaims : List FaultMove :=
  [.attempt 0 .served, .attempt 1 .served, .attempt 0 .served, .attempt 1 .served,
    .attempt 0 .served, .attempt 1 .served]

end Indexer

end AccessLayer
