import AccessLayer.Utils.PriceQuotes

/-
  Profits and losses of the keys that a wallet holds
  (`src/modules/portfolio/portfolio-pnl.service.ts`).

  Arithmetic is that of the rationals.  What the database answers
  is given; a value that is missing or not finite is `none`.

  Main result: `liquidation_le_mark`
-/

-- Positions
----

namespace AccessLayer

namespace Portfolio

namespace PortfolioPnl

open Creator Utils.PriceQuotes

structure PortfolioPnlPosition where
  keyId : String
  quantity : ℚ
  avgBuyPrice : ℚ
  currentSellPrice : ℚ
  currentValue : ℚ
  liquidationValue : ℚ
  unrealisedPnl : ℚ
  realisedPnl : ℚ

structure PortfolioPnlSummary where
  positionCount : ℕ
  totalUnrealisedPnl : ℚ
  totalRealisedPnl : ℚ
  totalCurrentValue : ℚ
  totalLiquidationValue : ℚ
  markToMarketVsLiquidationDelta : ℚ

structure PortfolioPnlResult where
  positions : List PortfolioPnlPosition
  summary : PortfolioPnlSummary

/- What is read of a row of `keyOwnership`. -/
structure PnlOwnership where
  creatorId : String
  balance : Option ℚ
  costBasis : Option ℚ
  realisedPnl : Option ℚ

def STROOPS_PER_XLM : ℚ := 10000000

def numberOf (value : Option ℚ) : ℚ := value.getD 0

/- `Math.round` rounds halves up. -/
def mathRound (value : ℚ) : ℤ := ⌊value + 1 / 2⌋

/- `toFixed(7)` rounds halves away from zero. -/
def round7 (value : ℚ) : ℚ :=
  if value < 0 then -(mathRound (-value * 10000000) / 10000000)
  else mathRound (value * 10000000) / 10000000

def liquidationStroops (supply qtyInt unitStroops : ℤ) (quantity : ℚ) (protocolFeeBps : ℤ) : ℤ :=
  let payout :=
    if supply ≤ 0 ∨ qtyInt ≤ 0 then .ok 0
    else computeSellPayout supply (min qtyInt supply).toNat protocolFeeBps
  match payout with
  | .ok payout =>
    let remainder := quantity - qtyInt
    if 0 < remainder ∧ 0 < supply then payout + mathRound (unitStroops * remainder)
    else payout
  | .error _ => mathRound (unitStroops * quantity)

variable (protocolFeeBps : ℤ) (supplyById : String → Option ℚ)

def supplyOf (row : PnlOwnership) : ℤ := max 0 ⌊numberOf (supplyById row.creatorId)⌋

/- The position of a row, at the unit price of its key. -/
def positionAt (row : PnlOwnership) (unitStroops : ℤ) : PortfolioPnlPosition :=
  let quantity := numberOf row.balance
  let avgBuyPrice := numberOf row.costBasis
  let qtyInt := max 0 ⌊quantity⌋
  let currentSellPrice := unitStroops / STROOPS_PER_XLM
  let liquidation :=
    liquidationStroops (supplyOf supplyById row) qtyInt unitStroops quantity protocolFeeBps
  { keyId := row.creatorId
    quantity
    avgBuyPrice := round7 avgBuyPrice
    currentSellPrice := round7 currentSellPrice
    currentValue := round7 (currentSellPrice * quantity)
    liquidationValue := round7 (liquidation / STROOPS_PER_XLM)
    unrealisedPnl := round7 ((currentSellPrice - avgBuyPrice) * quantity)
    realisedPnl := round7 (numberOf row.realisedPnl) }

def positionOf (row : PnlOwnership) : Except SellError PortfolioPnlPosition :=
  let supply := supplyOf supplyById row
  let unitStroops := if supply ≤ 0 then .ok 0 else getSellUnitPrice supply protocolFeeBps
  unitStroops.map (positionAt protocolFeeBps supplyById row)

/- Of no positions, the totals are zero. -/
def summaryOf (ownerships : List PnlOwnership) (positions : List PortfolioPnlPosition) :
    PortfolioPnlSummary :=
  let totalCurrentValue := round7 (positions.map (·.currentValue)).sum
  let totalLiquidationValue := round7 (positions.map (·.liquidationValue)).sum
  { positionCount := positions.length
    totalUnrealisedPnl := round7 (positions.map (·.unrealisedPnl)).sum
    totalRealisedPnl := round7 (ownerships.map fun row => numberOf row.realisedPnl).sum
    totalCurrentValue
    totalLiquidationValue
    markToMarketVsLiquidationDelta := round7 (totalCurrentValue - totalLiquidationValue) }

def getPortfolioPnl (ownerships : List PnlOwnership) : Except SellError PortfolioPnlResult := do
  let open' := ownerships.filter fun row => 0 < numberOf row.balance
  let unsorted ← open'.mapM (positionOf protocolFeeBps supplyById)
  let positions := unsorted.insertionSort fun a b => b.currentValue ≤ a.currentValue
  return { positions, summary := summaryOf ownerships positions }

-- Liquidation
----

variable {protocolFeeBps supplyById}

theorem grossPayout_le_mul (supply : ℤ) (amount : ℕ) :
    grossPayout supply amount ≤ amount * grossPayout supply 1 := by
  induction amount with
  | zero => simp [grossPayout]
  | succ amount ih =>
    rw [grossPayout, Nat.cast_succ, add_mul, one_mul]
    simp only [grossPayout, BASE_COST, STEP] at ih ⊢
    omega

/- Fees are rounded down, so that payouts are rounded up. -/
theorem payout_le_mul {gross unit fee : ℤ} {amount : ℕ} (hLe : gross ≤ amount * unit)
    (hGross : 0 ≤ gross) (hUnit : 0 ≤ unit) (hFee : 0 ≤ fee) (hHigh : fee ≤ 10000) :
    gross - (gross * fee).tdiv 10000 ≤ amount * (unit - (unit * fee).tdiv 10000) := by
  rw [Int.tdiv_eq_ediv_of_nonneg (mul_nonneg hGross hFee),
    Int.tdiv_eq_ediv_of_nonneg (mul_nonneg hUnit hFee)]
  have hDown : unit * fee / 10000 * 10000 ≤ unit * fee := Int.ediv_mul_le _ (by decide)
  have hUp : gross * fee < (gross * fee / 10000 + 1) * 10000 :=
    Int.lt_ediv_add_one_mul_self _ (by decide)
  have hScaled : gross * (10000 - fee) ≤ amount * unit * (10000 - fee) :=
    mul_le_mul_of_nonneg_right hLe (by omega)
  have hKept := mul_le_mul_of_nonneg_left hDown (Int.natCast_nonneg amount)
  by_contra hMore
  nlinarith

/- What a number of keys is paid, where the supply covers it. -/
def netPayout (protocolFeeBps supply : ℤ) (amount : ℕ) : ℤ :=
  max 0 (grossPayout supply amount - (grossPayout supply amount * protocolFeeBps).tdiv 10000)

theorem computeSellPayout_eq {supply : ℤ} {amount : ℕ} (hAmount : amount ≤ supply) :
    computeSellPayout supply amount protocolFeeBps =
      .ok (netPayout protocolFeeBps supply amount) := by
  unfold computeSellPayout
  rw [if_neg (not_lt.mpr (Int.cast_nonneg (by omega))),
    if_neg (not_lt.mpr (by exact_mod_cast hAmount))]
  split_ifs with hNone hInt
  · simp [hNone, netPayout, grossPayout]
  · simp [netPayout]
  · exact absurd (by simp [Rat.isInt]) hInt

theorem getSellUnitPrice_eq {supply : ℤ} (hSupply : 0 < supply) :
    getSellUnitPrice supply protocolFeeBps = .ok (netPayout protocolFeeBps supply 1) := by
  rw [getSellUnitPrice, if_neg (not_le.mpr (Int.cast_pos.mpr hSupply))]
  exact computeSellPayout_eq (by omega)

/- Keys are worth no more down the curve than at its top. -/
theorem netPayout_le (hFee : 0 ≤ protocolFeeBps) (hHigh : protocolFeeBps ≤ 10000) {supply : ℤ}
    (hSupply : 0 < supply) {amount : ℕ} (hAmount : amount ≤ supply) :
    netPayout protocolFeeBps supply amount ≤ amount * netPayout protocolFeeBps supply 1 := by
  have hPayout := payout_le_mul (grossPayout_le_mul supply amount) (grossPayout_nonneg hAmount)
      (grossPayout_nonneg (by omega)) hFee hHigh
  exact max_le (mul_nonneg (Int.natCast_nonneg _) (le_max_left _ _))
    (hPayout.trans (mul_le_mul_of_nonneg_left (le_max_right _ _) (Int.natCast_nonneg _)))

theorem mathRound_add (n : ℤ) (value : ℚ) : mathRound (n + value) = n + mathRound value := by
  rw [mathRound, add_assoc, Int.floor_intCast_add, mathRound]

theorem mathRound_intCast (n : ℤ) : mathRound n = n := by
  rw [mathRound, Int.floor_intCast_add]
  norm_num

theorem liquidationStroops_le (hFee : 0 ≤ protocolFeeBps) (hHigh : protocolFeeBps ≤ 10000)
    {supply : ℤ} {quantity : ℚ} (hQuantity : 0 < quantity) :
    ∃ unit : ℤ, (if supply ≤ 0 then .ok 0 else getSellUnitPrice supply protocolFeeBps) = .ok unit ∧
      0 ≤ unit ∧ liquidationStroops supply (max 0 ⌊quantity⌋) unit quantity protocolFeeBps ≤
        mathRound (unit * quantity) := by
  have hFloor : 0 ≤ ⌊quantity⌋ := Int.floor_nonneg.mpr hQuantity.le
  rw [max_eq_right hFloor]
  by_cases hSupply : supply ≤ 0
  · refine ⟨0, if_pos hSupply, le_refl 0, ?_⟩
    have hZero : mathRound 0 = 0 := mathRound_intCast 0
    simp [liquidationStroops, hSupply, not_lt.mpr hSupply, hZero]
  · have hNonneg : 0 ≤ netPayout protocolFeeBps supply 1 := le_max_left _ _
    refine ⟨_, (if_neg hSupply).trans (getSellUnitPrice_eq (not_le.mp hSupply)), hNonneg, ?_⟩
    generalize hUnitEq : netPayout protocolFeeBps supply 1 = unit at hNonneg
    have hWhole : ∃ payout ≤ ⌊quantity⌋ * unit, (if supply ≤ 0 ∨ ⌊quantity⌋ ≤ 0 then .ok 0
        else computeSellPayout supply (min ⌊quantity⌋ supply).toNat protocolFeeBps) =
          .ok payout := by
      by_cases hNone : ⌊quantity⌋ ≤ 0
      · exact ⟨0, mul_nonneg hFloor hNonneg, if_pos (Or.inr hNone)⟩
      · have hAmount : ((min ⌊quantity⌋ supply).toNat : ℤ) ≤ supply := by omega
        have hLe := netPayout_le hFee hHigh (not_le.mp hSupply) hAmount
        rw [hUnitEq] at hLe
        refine ⟨_, hLe.trans (mul_le_mul_of_nonneg_right (by omega) hNonneg), ?_⟩
        rw [if_neg (by omega), computeSellPayout_eq hAmount]
    rcases hWhole with ⟨payout, hLe, hEq⟩
    have hSplit : (unit * quantity : ℚ) =
        ((⌊quantity⌋ * unit : ℤ) : ℚ) + unit * (quantity - ⌊quantity⌋) := by
      push_cast
      ring
    have hRest : 0 ≤ mathRound (unit * (quantity - ⌊quantity⌋)) := by
      have hPart : 0 ≤ unit * (quantity - ⌊quantity⌋) :=
        mul_nonneg (by exact_mod_cast hNonneg) (sub_nonneg.mpr (Int.floor_le quantity))
      exact Int.floor_nonneg.mpr (by linarith)
    unfold liquidationStroops
    rw [hEq, hSplit, mathRound_add]
    dsimp only
    split_ifs
    · exact add_le_add_left hLe _
    · omega

-- Totals
----

/- Amounts with at most seven decimals. -/
def stroops : AddSubgroup ℚ := AddSubgroup.zmultiples (1 / 10000000)

theorem mem_stroops {value : ℚ} : value ∈ stroops ↔ ∃ n : ℤ, n / 10000000 = value := by
  simp only [stroops, AddSubgroup.mem_zmultiples_iff, zsmul_eq_mul, mul_one_div]

theorem round7_of_nonneg {value : ℚ} (hNonneg : 0 ≤ value) :
    round7 value = mathRound (value * 10000000) / 10000000 := if_neg (not_lt.mpr hNonneg)

theorem round7_mem (value : ℚ) : round7 value ∈ stroops := by
  rw [mem_stroops, round7]
  split_ifs
  · exact ⟨-mathRound (-value * 10000000), by push_cast; ring⟩
  · exact ⟨_, rfl⟩

theorem round7_of_mem {value : ℚ} (hMem : value ∈ stroops) : round7 value = value := by
  rcases mem_stroops.mp hMem with ⟨n, rfl⟩
  unfold round7
  split_ifs
  · rw [neg_mul, div_mul_cancel₀ _ (by norm_num), ← Int.cast_neg, mathRound_intCast]
    push_cast
    ring
  · rw [div_mul_cancel₀ _ (by norm_num), mathRound_intCast]

theorem sum_mem {α : Type} (f : α → ℚ) (values : List α) (hMem : ∀ a ∈ values, f a ∈ stroops) :
    (values.map f).sum ∈ stroops :=
  stroops.list_sum_mem fun _ hValue => by
    rcases List.mem_map.mp hValue with ⟨a, hA, rfl⟩
    exact hMem a hA

/- The values of a position have seven decimals, and it is not sold for more than its mark. -/
structure PortfolioPnlPosition.Bounded (position : PortfolioPnlPosition) : Prop where
  liquidation_le : position.liquidationValue ≤ position.currentValue
  current_mem : position.currentValue ∈ stroops
  liquidation_mem : position.liquidationValue ∈ stroops
  unrealised_mem : position.unrealisedPnl ∈ stroops

theorem positionOf_bounded (hFee : 0 ≤ protocolFeeBps) (hHigh : protocolFeeBps ≤ 10000)
    {row : PnlOwnership} (hOpen : 0 < numberOf row.balance) :
    ∃ position, positionOf protocolFeeBps supplyById row = .ok position ∧ position.Bounded := by
  have hLiquidation :=
    @liquidationStroops_le protocolFeeBps hFee hHigh (supplyOf supplyById row) _ hOpen
  rcases hLiquidation with ⟨unit, hUnit, hNonneg, hLe⟩
  refine ⟨positionAt protocolFeeBps supplyById row unit, ?_, ?_, round7_mem _, round7_mem _,
    round7_mem _⟩
  · simp only [positionOf, hUnit, Except.map]
  · simp only [positionAt, STROOPS_PER_XLM]
    have hValue : 0 ≤ (unit : ℚ) / 10000000 * numberOf row.balance :=
      mul_nonneg (div_nonneg (Int.cast_nonneg hNonneg) (by norm_num)) hOpen.le
    rw [round7_of_mem (mem_stroops.mpr ⟨_, rfl⟩), round7_of_nonneg hValue, div_mul_eq_mul_div,
      div_mul_cancel₀ _ (by norm_num)]
    exact div_le_div_of_nonneg_right (Int.cast_le.mpr hLe) (by norm_num)

theorem positions_bounded (hFee : 0 ≤ protocolFeeBps) (hHigh : protocolFeeBps ≤ 10000)
    {rows : List PnlOwnership} (hOpen : ∀ row ∈ rows, 0 < numberOf row.balance) :
    ∃ positions, rows.mapM (positionOf protocolFeeBps supplyById) = .ok positions ∧
      ∀ position ∈ positions, position.Bounded := by
  induction rows with
  | nil => exact ⟨[], rfl, by simp⟩
  | cons row rows ih =>
    rcases positionOf_bounded hFee hHigh (hOpen row List.mem_cons_self) with
      ⟨position, hPosition, hBounded⟩
    rcases ih fun row hRow => hOpen row (List.mem_cons_of_mem _ hRow) with
      ⟨positions, hPositions, hAll⟩
    refine ⟨position :: positions, ?_, List.forall_mem_cons.mpr ⟨hBounded, hAll⟩⟩
    rw [List.mapM_cons, hPosition, hPositions]
    rfl

/-
  No position is sold for more than its mark, and the totals are
  the sums over the positions; what was realised is summed over
  all rows, those of closed positions included.
-/
theorem liquidation_le_mark (supplyById : String → Option ℚ) (ownerships : List PnlOwnership)
    (hFee : 0 ≤ protocolFeeBps) (hHigh : protocolFeeBps ≤ 10000) :
    ∃ result, getPortfolioPnl protocolFeeBps supplyById ownerships = .ok result ∧
      (∀ position ∈ result.positions, position.liquidationValue ≤ position.currentValue) ∧
      0 ≤ result.summary.markToMarketVsLiquidationDelta ∧
      result.summary.markToMarketVsLiquidationDelta =
        result.summary.totalCurrentValue - result.summary.totalLiquidationValue ∧
      result.summary.totalCurrentValue = (result.positions.map (·.currentValue)).sum ∧
      result.summary.totalLiquidationValue = (result.positions.map (·.liquidationValue)).sum ∧
      result.summary.totalUnrealisedPnl = (result.positions.map (·.unrealisedPnl)).sum ∧
      result.summary.totalRealisedPnl =
        round7 (ownerships.map fun row => numberOf row.realisedPnl).sum := by
  have hOpen : ∀ row ∈ ownerships.filter fun row => 0 < numberOf row.balance,
      0 < numberOf row.balance := fun row hRow => of_decide_eq_true (List.mem_filter.mp hRow).2
  rcases @positions_bounded _ supplyById hFee hHigh _ hOpen with ⟨unsorted, hUnsorted, hAll⟩
  generalize hSorted :
    unsorted.insertionSort (fun a b => b.currentValue ≤ a.currentValue) = positions
  have hBounded : ∀ position ∈ positions, position.Bounded := by
    intro position hPosition
    rw [← hSorted, List.mem_insertionSort] at hPosition
    exact hAll position hPosition
  have hCurrent := sum_mem (·.currentValue) positions fun p hP => (hBounded p hP).current_mem
  have hLiquidation :=
    sum_mem (·.liquidationValue) positions fun p hP => (hBounded p hP).liquidation_mem
  have hUnrealised := sum_mem (·.unrealisedPnl) positions fun p hP => (hBounded p hP).unrealised_mem
  have hLe : (positions.map (·.liquidationValue)).sum ≤ (positions.map (·.currentValue)).sum :=
    List.sum_le_sum fun p hP => (hBounded p hP).liquidation_le
  refine ⟨⟨positions, summaryOf ownerships positions⟩, ?_, fun p hP => (hBounded p hP).1, ?_⟩
  · simp only [getPortfolioPnl, hUnsorted, bind, Except.bind, hSorted]
    rfl
  · simp only [summaryOf, round7_of_mem hCurrent, round7_of_mem hLiquidation,
      round7_of_mem hUnrealised, round7_of_mem (stroops.sub_mem hCurrent hLiquidation), and_true]
    exact sub_nonneg.mpr hLe

def closedRow : PnlOwnership where
  creatorId := "closed"
  balance := some 0
  costBasis := some 0
  realisedPnl := some 1

def heldRow : PnlOwnership where
  creatorId := "held"
  balance := some (7 / 2)
  costBasis := some 1
  realisedPnl := none

/- A balance of three and a half keys, above a supply of two. -/
theorem liquidation_le_mark_sample :
    ∃ result, getPortfolioPnl 500 (fun _ => some 2) [heldRow] = .ok result ∧
      ∀ position ∈ result.positions, position.liquidationValue ≤ position.currentValue := by
  rcases liquidation_le_mark (fun _ => some 2) [heldRow] (by decide : (0 : ℤ) ≤ 500) (by decide)
    with ⟨result, hResult, hLe, -⟩
  exact ⟨result, hResult, hLe⟩

/- What a closed position has realised is in the total alone. -/
theorem realised_total_not_of_positions :
    ∃ result, getPortfolioPnl 500 (fun _ => some 2) [closedRow] = .ok result ∧
      result.summary.totalRealisedPnl ≠ (result.positions.map (·.realisedPnl)).sum := by
  refine ⟨_, rfl, ?_⟩
  decide +kernel

end PortfolioPnl

end Portfolio

end AccessLayer
