import AccessLayer.Indexer.Pipeline
import AccessLayer.Library.Numerals
import Mathlib.Algebra.BigOperators.Ring.List
import Mathlib.Tactic.Linarith

/-
  Dividend distributions
  (`src/modules/indexer/dividend-indexer.service.ts`).

  A distribution pays each holder an amount for each key, which
  is computed in doubles and written with seven decimals.  A
  field that the source looks up under several names is one
  field here; caches, logs and claim events are left out.

  `dividend_conserved`: amounts that fit the total conserve it.
-/

-- Events and Tables
----

namespace AccessLayer

namespace Indexer

section

open Transactional Program

/- What `Number` makes of a field. -/
inductive EventNumber where
  | finite (value : ℚ)
  | notFinite

/- A date that is given; an invalid one parses to none. -/
structure EventDate where
  parsed : Option Int
  deriving DecidableEq

structure DividendEvent where
  eventType : String
  creatorId : Option String
  totalDistributed : Option EventNumber
  distributedAt : Option EventDate
  holdersCount : Option Int
  distributorAddress : Option String
  claimWindowStart : Option EventDate
  claimWindowEnd : Option EventDate
  snapshotId : Option String
  ledger : Option Int
  txHash : String
  eventIndex : Nat

structure DividendDistribution where
  id : String
  creatorId : String
  distributionDate : Int
  totalAmountXlm : ℚ
  holderCount : Int
  perKeyAmountXlm : ℚ
  claimWindowStart : Option Int
  claimWindowEnd : Option Int
  chainSnapshotId : Option String
  ledger : Int
  txHash : String
  eventIndex : Nat

structure DividendClaim where
  distributionId : String
  recipientAddress : String
  amountXlm : ℚ
  claimedAt : Option Int
  deriving DecidableEq

instance : Keyed DividendDistribution String where
  key row := row.id

instance : Keyed DividendClaim (String × String) where
  key row := (row.distributionId, row.recipientAddress)

structure DividendDb where
  trade : TradeDb
  dividendDistribution : Table DividendDistribution
  dividendClaim : Table DividendClaim

abbrev DividendM := Program DividendDb IndexerError

/- The positions of a creator that hold keys. -/
def TradeDb.holders (db : TradeDb) (creatorId : String) : List KeyOwnership :=
  db.keyOwnership.rows.filter fun row => row.creatorId = creatorId ∧ 0 < row.balance

def DividendDb.claimsOf (db : DividendDb) (id : String) : List DividendClaim :=
  db.dividendClaim.rows.filter fun claim => claim.distributionId = id

-- Distributions
----

/- A distribution event that has passed its checks. -/
structure DividendSnapshot where
  eventType : String
  creatorId : String
  total : ℚ
  totalNonneg : 0 ≤ total
  distributionDate : Int
  holdersCount : Option Int
  distributorAddress : String
  claimWindowStart : Option Int
  claimWindowEnd : Option Int
  chainSnapshotId : Option String
  ledger : Int
  txHash : String
  eventIndex : Nat

def isSnapshotCreated (eventType : String) : Bool :=
  eventType = "DIVIDEND_SNAPSHOT_CREATED" || eventType = "DividendSnapshotCreated"

def isSnapshotEvent (eventType : String) : Bool :=
  eventType = "DIVIDEND_DISTRIBUTED" || isSnapshotCreated eventType

/- An absent window is fine, an invalid one is not. -/
def parseWindow : Option EventDate → Option (Option Int)
  | none => some none
  | some date => date.parsed.map some

/- Events that miss a field or carry an invalid one are skipped. -/
def DividendEvent.snapshot (event : DividendEvent) : Option DividendSnapshot := do
  let creatorId ← present event.creatorId
  let totalDistributed ← event.totalDistributed
  let ledger ← event.ledger
  let txHash ← present (some event.txHash)
  let distributedAt ← event.distributedAt
  let distributionDate ← distributedAt.parsed
  match totalDistributed with
  | .notFinite => none
  | .finite total =>
    let claimWindowStart ← parseWindow event.claimWindowStart
    let claimWindowEnd ← parseWindow event.claimWindowEnd
    if hTotal : 0 ≤ total then
      if isSnapshotEvent event.eventType then
        some {
          eventType := event.eventType
          creatorId
          total
          totalNonneg := hTotal
          distributionDate
          holdersCount := event.holdersCount
          distributorAddress := (present event.distributorAddress).getD "unknown"
          claimWindowStart
          claimWindowEnd
          chainSnapshotId := event.snapshotId
          ledger
          txHash
          eventIndex := event.eventIndex }
      else none
    else none

/- The seven decimals that a number is written with. -/
def toFixed7 (value : ℚ) : ℚ := roundXlm (Doubles.toDouble value)

/- A text that is read as a number and stored with seven decimals. -/
def columnXlm (text : ℚ) : ℚ := roundXlm (Doubles.number text)

def totalKeyBalance (holders : List KeyOwnership) : ℚ := (holders.map KeyOwnership.balance).sum

namespace DividendSnapshot

variable (snapshot : DividendSnapshot) (holders : List KeyOwnership)

def effectiveHolderCount : Int := snapshot.holdersCount.getD holders.length

/- What the total is divided by. -/
def allocationDenominator : ℚ :=
  if isSnapshotCreated snapshot.eventType then
    holders.foldl (fun total holder => Doubles.add total holder.balance) 0
  else snapshot.effectiveHolderCount holders

/- The amount for one key, a text. -/
def perKeyAmountXlm : ℚ :=
  if 0 < snapshot.allocationDenominator holders then
    toFixed7 (Doubles.div snapshot.total (snapshot.allocationDenominator holders))
  else 0

/- What a holder is paid, a text. -/
def holderPayout (holder : KeyOwnership) : ℚ :=
  toFixed7 (Doubles.mul (snapshot.perKeyAmountXlm holders) holder.balance)

def claim (id : String) (holder : KeyOwnership) : DividendClaim where
  distributionId := id
  recipientAddress := holder.ownerAddress
  amountXlm := columnXlm (snapshot.holderPayout holders holder)
  claimedAt := none

def distribution (id : String) : DividendDistribution where
  id := id
  creatorId := snapshot.creatorId
  distributionDate := snapshot.distributionDate
  totalAmountXlm := snapshot.total
  holderCount := snapshot.effectiveHolderCount holders
  perKeyAmountXlm := columnXlm (snapshot.perKeyAmountXlm holders)
  claimWindowStart := snapshot.claimWindowStart
  claimWindowEnd := snapshot.claimWindowEnd
  chainSnapshotId := snapshot.chainSnapshotId
  ledger := snapshot.ledger
  txHash := snapshot.txHash
  eventIndex := snapshot.eventIndex

def isStored (db : DividendDb) : Bool :=
  db.dividendDistribution.rows.any fun row => row.ledger = snapshot.ledger ∧
    row.txHash = snapshot.txHash ∧ row.eventIndex = snapshot.eventIndex ∨
    row.creatorId = snapshot.creatorId ∧ row.chainSnapshotId ≠ none ∧
      row.chainSnapshotId = snapshot.chainSnapshotId

/- The transaction that records a distribution. -/
def record (id : String) (db : DividendDb) : Except IndexerError (Unit × DividendDb) :=
  if snapshot.isStored db then .error .uniqueViolation
  else
    match db.dividendDistribution.insert? (snapshot.distribution holders id) with
    | none => .error .uniqueViolation
    | some dividendDistribution =>
      .ok ((),
        { trade :=
            db.trade.addActivity
              { type := .dividendDistributed
                actor := snapshot.distributorAddress
                creatorId := some snapshot.creatorId
                payload := .other
                createdAt := snapshot.distributionDate }
          dividendDistribution
          dividendClaim :=
            db.dividendClaim.createMany (holders.map (snapshot.claim holders id)) })

end DividendSnapshot

/-
  The handler of a distribution event.  `id` is generated for
  the row; an event that was indexed before is skipped.
-/
def processDividendSnapshot (id : String) (event : DividendEvent) : DividendM Unit :=
  match event.snapshot with
  | none => pure ()
  | some snapshot => do
    let holders ← query .database fun db => db.trade.holders snapshot.creatorId
    tryCatch (execute .database (snapshot.record holders id)) (fun error =>
      if error = .uniqueViolation then pure ()
      else throw error)

end

-- Rounding
----

section

variable {amount : ℚ}

theorem roundXlm_of_nonneg (hAmount : 0 ≤ amount) :
    roundXlm amount = ((⌊amount * 10000000 + 1 / 2⌋ : Int) : ℚ) / 10000000 :=
  if_neg (not_lt.mpr hAmount)

theorem roundXlm_mono {amount' : ℚ} (hAmount : 0 ≤ amount) (hLe : amount ≤ amount') :
    roundXlm amount ≤ roundXlm amount' := by
  rw [roundXlm_of_nonneg hAmount, roundXlm_of_nonneg (hAmount.trans hLe)]
  gcongr

/- Whole multiples of the last decimal are left as they are. -/
theorem roundXlm_of_grid {units : Int} (hUnits : 0 ≤ units) :
    roundXlm ((units : ℚ) / 10000000) = (units : ℚ) / 10000000 := by
  rw [roundXlm_of_nonneg (by positivity)]
  have hFloor : ⌊(units : ℚ) / 10000000 * 10000000 + 1 / 2⌋ = units := by
    rw [Int.floor_eq_iff]
    constructor
    · linarith
    · linarith
  rw [hFloor]

theorem roundXlm_grid (hAmount : 0 ≤ amount) :
    ∃ units : Int, 0 ≤ units ∧ roundXlm amount = (units : ℚ) / 10000000 := by
  refine ⟨⌊amount * 10000000 + 1 / 2⌋, ?_, roundXlm_of_nonneg hAmount⟩
  exact Int.floor_nonneg.mpr (by positivity)

-- Conservation
----

open Transactional Program

/-
  The claims add up to no more than the total, and none exceeds
  the rounded share of its holder's balance.
-/
def Conserved (snapshot : DividendSnapshot) (holders : List KeyOwnership)
    (claims : List DividendClaim) : Prop :=
  (claims.map DividendClaim.amountXlm).sum ≤ snapshot.total ∧ ∀ claim ∈ claims, ∀ holder ∈ holders,
    holder.ownerAddress = claim.recipientAddress → claim.amountXlm ≤ roundXlm
      (snapshot.total * holder.balance / totalKeyBalance holders)

/- The amount for one key, times all keys, stays within the total, and no payout is rounded up. -/
def DividendSnapshot.Fits (snapshot : DividendSnapshot) (holders : List KeyOwnership) : Prop :=
  snapshot.perKeyAmountXlm holders * totalKeyBalance holders ≤ snapshot.total ∧ ∀ holder ∈ holders,
    columnXlm (snapshot.holderPayout holders holder) ≤
      snapshot.perKeyAmountXlm holders * holder.balance

/- No payout is rounded down. -/
def DividendSnapshot.PaysInFull (snapshot : DividendSnapshot) (holders : List KeyOwnership) :
    Prop :=
  ∀ holder ∈ holders, snapshot.perKeyAmountXlm holders * holder.balance ≤
    columnXlm (snapshot.holderPayout holders holder)

variable {snapshot : DividendSnapshot} {holders : List KeyOwnership}

theorem roundXlm_nonneg (hAmount : 0 ≤ amount) : 0 ≤ roundXlm amount := by
  rcases roundXlm_grid hAmount with ⟨units, hUnits, hEq⟩
  rw [hEq]
  positivity

theorem toFixed7_nonneg (hAmount : 0 ≤ amount) : 0 ≤ toFixed7 amount :=
  roundXlm_nonneg (Doubles.toDouble_nonneg hAmount)

theorem perKeyAmountXlm_nonneg : 0 ≤ snapshot.perKeyAmountXlm holders := by
  unfold DividendSnapshot.perKeyAmountXlm
  split
  · rename_i hPositive
    apply toFixed7_nonneg
    apply Doubles.number_nonneg
    exact div_nonneg (Doubles.toDouble_nonneg snapshot.totalNonneg)
      (Doubles.toDouble_nonneg hPositive.le)
  · exact le_rfl

theorem holderPayout_nonneg {holder : KeyOwnership} (hPositive : 0 < holder.balance) :
    0 ≤ snapshot.holderPayout holders holder := by
  apply toFixed7_nonneg
  apply Doubles.number_nonneg
  exact mul_nonneg (Doubles.toDouble_nonneg perKeyAmountXlm_nonneg)
    (Doubles.toDouble_nonneg hPositive.le)

/- What a column has rounded is left as it is. -/
theorem roundXlm_columnXlm (hAmount : 0 ≤ amount) :
    roundXlm (columnXlm amount) = columnXlm amount := by
  unfold columnXlm
  rcases roundXlm_grid (Doubles.number_nonneg hAmount) with ⟨units, hUnits, hEq⟩
  rw [hEq, roundXlm_of_grid hUnits]

theorem sum_mul_balance (amount : ℚ) (holders : List KeyOwnership) :
    (holders.map fun holder => amount * holder.balance).sum = amount * totalKeyBalance holders := by
  unfold totalKeyBalance
  rw [List.sum_map_mul_left]

theorem sum_claims (id : String) :
    ((holders.map (snapshot.claim holders id)).map DividendClaim.amountXlm).sum =
      (holders.map fun holder => columnXlm (snapshot.holderPayout holders holder)).sum := by
  rw [List.map_map]
  rfl

theorem conserved_of_fits (id : String) (hPositive : ∀ holder ∈ holders, 0 < holder.balance)
    (hOwners :
      ∀ one ∈ holders, ∀ other ∈ holders, one.ownerAddress = other.ownerAddress → one = other)
    (hFits : snapshot.Fits holders) :
    Conserved snapshot holders (holders.map (snapshot.claim holders id)) := by
  rcases hFits with ⟨hTotal, hRounded⟩
  constructor
  · calc
      ((holders.map (snapshot.claim holders id)).map DividendClaim.amountXlm).sum
        = (holders.map fun holder => columnXlm (snapshot.holderPayout holders holder)).sum :=
          sum_claims id
      _ ≤ (holders.map fun holder => snapshot.perKeyAmountXlm holders * holder.balance).sum :=
        List.sum_le_sum hRounded
      _ = snapshot.perKeyAmountXlm holders * totalKeyBalance holders := sum_mul_balance _ _
      _ ≤ snapshot.total := hTotal
  · intro claim hClaim holder hHolder hSame
    rcases List.mem_map.mp hClaim with ⟨other, hOther, rfl⟩
    have hEq : holder = other := hOwners holder hHolder other hOther hSame
    subst hEq
    have hBalance : 0 < totalKeyBalance holders := by
      apply List.sum_pos
      · intro balance hMem
        rcases List.mem_map.mp hMem with ⟨one, hOne, rfl⟩
        exact hPositive one hOne
      · intro hNone
        rw [List.map_eq_nil_iff] at hNone
        rw [hNone] at hHolder
        cases hHolder
    have hKey : snapshot.perKeyAmountXlm holders ≤ snapshot.total / totalKeyBalance holders :=
      (le_div_iff₀ hBalance).mpr hTotal
    have hShare : columnXlm (snapshot.holderPayout holders holder) ≤
        snapshot.total * holder.balance / totalKeyBalance holders := by
      calc
        columnXlm (snapshot.holderPayout holders holder)
          ≤ snapshot.perKeyAmountXlm holders * holder.balance := hRounded holder hHolder
        _ ≤ snapshot.total / totalKeyBalance holders * holder.balance :=
          mul_le_mul_of_nonneg_right hKey (hPositive holder hHolder).le
        _ = snapshot.total * holder.balance / totalKeyBalance holders := by ring
    have hPayout := @holderPayout_nonneg snapshot holders holder (hPositive holder hHolder)
    change columnXlm (snapshot.holderPayout holders holder) ≤ _
    rw [← roundXlm_columnXlm hPayout]
    exact roundXlm_mono (roundXlm_nonneg (Doubles.number_nonneg hPayout)) hShare

theorem total_le_of_conserved {id : String} (hFull : snapshot.PaysInFull holders)
    (hConserved : Conserved snapshot holders (holders.map (snapshot.claim holders id))) :
    snapshot.perKeyAmountXlm holders * totalKeyBalance holders ≤ snapshot.total := by
  rw [← sum_mul_balance]
  exact (List.sum_le_sum hFull).trans ((sum_claims id).symm.trans_le hConserved.1)

end

-- Handled Events
----

open Transactional Program

variable {event : DividendEvent} {snapshot : DividendSnapshot} {id : String} {db db' : DividendDb}
variable {trade : TradeDb} {creatorId : String}

theorem mem_holders {holder : KeyOwnership} (hHolder : holder ∈ trade.holders creatorId) :
    holder ∈ trade.keyOwnership.rows ∧ holder.creatorId = creatorId ∧ 0 < holder.balance := by
  rcases List.mem_filter.mp hHolder with ⟨hMem, hSelected⟩
  exact ⟨hMem, of_decide_eq_true hSelected⟩

theorem holders_unique {one other : KeyOwnership} (hOne : one ∈ trade.holders creatorId)
    (hOther : other ∈ trade.holders creatorId) (hSame : one.ownerAddress = other.ownerAddress) :
    one = other := by
  rcases mem_holders hOne with ⟨hMem, hCreator, -⟩
  rcases mem_holders hOther with ⟨hOtherMem, hOtherCreator, -⟩
  have hFound := Table.find?_of_mem hMem
  have hOtherFound := Table.find?_of_mem hOtherMem
  have hKey : key one = key other := Prod.ext hSame (hCreator.trans hOtherCreator.symm)
  rw [hKey, hOtherFound] at hFound
  exact (Option.some.inj hFound).symm

theorem holders_nodup (trade : TradeDb) (creatorId : String) :
    (trade.holders creatorId).Nodup := (List.Nodup.of_map _ trade.keyOwnership.unique).filter _

theorem claimsOf_createMany {claims : Table DividendClaim} {rows : List DividendClaim}
    (hNew : claims.rows.filter (fun claim => claim.distributionId = id) = [])
    (hRows : ∀ claim ∈ rows, claim.distributionId = id) (hUnique : (rows.map key).Nodup) :
    (claims.createMany rows).rows.filter (fun claim => claim.distributionId = id) = rows := by
  have hFresh : ∀ row ∈ rows, claims.find? (key row) = none := by
    intro row hRow
    cases hFound : claims.find? (key row) with
    | none => rfl
    | some stored =>
      have hKey := Table.key_of_find? hFound
      have hId : stored.distributionId = id := (congrArg Prod.fst hKey).trans (hRows row hRow)
      have hNot := List.filter_eq_nil_iff.mp hNew stored (Table.mem_of_find? hFound)
      exact absurd hId (by simpa using hNot)
  rw [Table.rows_createMany hFresh hUnique, List.filter_append,
    hNew, List.nil_append, List.filter_eq_self]
  intro claim hClaim
  exact decide_eq_true (hRows claim hClaim)

/- What the transaction leaves of the claims, if it commits. -/
theorem claimsOf_record (hNew : db.claimsOf id = [])
    (hRecord : snapshot.record (db.trade.holders snapshot.creatorId) id db = .ok ((), db')) :
    db'.claimsOf id = (db.trade.holders snapshot.creatorId).map
      (snapshot.claim (db.trade.holders snapshot.creatorId) id) := by
  unfold DividendSnapshot.record at hRecord
  split at hRecord
  · cases hRecord
  · split at hRecord
    · cases hRecord
    · cases hRecord
      apply claimsOf_createMany hNew
      · intro claim hClaim
        rcases List.mem_map.mp hClaim with ⟨holder, -, rfl⟩
        rfl
      · rw [List.map_map]
        apply (holders_nodup db.trade snapshot.creatorId).map_on
        intro one hOne other hOther hSame
        exact holders_unique hOne hOther (congrArg Prod.snd hSame)

/- An event that stored a distribution went through. -/
theorem record_of_created (hEvent : event.snapshot = some snapshot)
    (hFresh : db.dividendDistribution.find? id = none)
    (hRun : (processDividendSnapshot id event).run db = (.ok (), db'))
    (hCreated : db'.dividendDistribution.find? id ≠ none) :
    snapshot.record (db.trade.holders snapshot.creatorId) id db = .ok ((), db') := by
  simp only [processDividendSnapshot, hEvent, run_bind,
    run_query, run_tryCatch, run_execute] at hRun
  cases hRecord : snapshot.record (db.trade.holders snapshot.creatorId) id db with
  | ok result =>
    simp only [hRecord, Prod.mk.injEq] at hRun
    rw [← hRun.2]
  | error error =>
    simp only [hRecord] at hRun
    split at hRun
    · cases hRun
      exact absurd hFresh hCreated
    · cases hRun

def threeHolders (balance : ℚ) : DividendDb where
  trade :=
    ((TradeDb.empty.incrementBalance "A" "K" balance ).incrementBalance "B" "K" balance
      ).incrementBalance "C" "K" balance
  dividendDistribution := .empty
  dividendClaim := .empty

def sampleDividend (eventType : String) (total : ℚ) : DividendEvent where
  eventType := eventType
  creatorId := some "K"
  totalDistributed := some (.finite total)
  distributedAt := some { parsed := some 0 }
  holdersCount := some 3
  distributorAddress := none
  claimWindowStart := none
  claimWindowEnd := none
  snapshotId := none
  ledger := some 12345
  txHash := "tx"
  eventIndex := 0

def sampleClaims (event : DividendEvent) (db : DividendDb) : List DividendClaim :=
  ((processDividendSnapshot "d" event).final db).claimsOf "d"

end Indexer

end AccessLayer
