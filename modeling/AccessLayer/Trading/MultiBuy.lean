import AccessLayer.Keys.KeyTwap
import AccessLayer.Utils.PriceQuotes

/-
  Buying the keys of several creators at once
  (`src/modules/trading/multi-buy.service.ts`), and the slippage
  check of a single buy (`src/modules/creator/buy.controller.ts`).

  What the providers answer is given.  Logs are left out.

  Main result: `slippage_agrees_iff`
-/

-- Slippage Checks
----

namespace AccessLayer

namespace Trading

open AutoInvest Creator Keys.KeyTwap Utils.PriceQuotes

def PROTOCOL_FEE_BPS : ℤ := 500

/- A leg that passed the schema; its bound is in stroops a key. -/
structure MultiBuyLeg where
  creator : String
  amount : ℕ
  max_price : ℤ
  positive : 0 < amount

structure MultiBuyResult where
  creator : String
  amount : ℕ
  total_cost : ℤ
  new_supply : ℚ
  max_available : Option ℤ

/- Each error carries what its message tells. -/
inductive MultiBuyError where
  | legs_empty
  | too_many_legs
  | duplicate_creator (creator : String)
  | deadline_passed (currentLedger globalDeadlineLedger : ℕ)
  | insufficient_funds (buyerBalance worstCaseTotal : ℤ)
  | slippage_exceeded (cost maxAllowed currentPrice : ℤ) (leg : MultiBuyLeg)
  | price (error : ExecutionError)

structure Providers where
  currentLedger : ℕ
  xlmBalance : ℤ
  creatorSupply : String → ℚ
  maxBuy : Option (String → ℤ)

variable (providers : Providers) (leg : MultiBuyLeg) (globalDeadlineLedger : ℕ)

/- The first creator that an earlier leg names as well. -/
def duplicateCreator (creatorSet : List String) : List MultiBuyLeg → Option String
  | [] => none
  | leg :: legs =>
    if leg.creator ∈ creatorSet then some leg.creator
    else duplicateCreator (leg.creator :: creatorSet) legs

/- What is available, if that is not enough for a leg. -/
def depthError : Option ℤ :=
  (providers.maxBuy.map fun getMaxBuy => getMaxBuy leg.creator).filter fun maxAvailable =>
    maxAvailable < leg.amount

def worstCaseTotal (legs : List MultiBuyLeg) : ℤ :=
  ((legs.filter fun leg => depthError providers leg = none).map fun leg =>
    (leg.amount : ℤ) * leg.max_price).sum

def executeLeg : Except MultiBuyError MultiBuyResult :=
  let currentSupply := providers.creatorSupply leg.creator
  match depthError providers leg with
  | some maxAvailable => .ok ⟨leg.creator, leg.amount, 0, currentSupply, some maxAvailable⟩
  | none => do
    let cost ← (computeBuyCost currentSupply leg.amount PROTOCOL_FEE_BPS).mapError .price
    let maxAllowed := leg.max_price * leg.amount
    if maxAllowed < cost then
      let currentPrice ← (getBuyUnitPrice currentSupply PROTOCOL_FEE_BPS).mapError .price
      .error (.slippage_exceeded cost maxAllowed currentPrice leg)
    else .ok ⟨leg.creator, leg.amount, cost, currentSupply + leg.amount, none⟩

def executeMultiBuy (legs : List MultiBuyLeg) : Except MultiBuyError (List MultiBuyResult) :=
  if legs = [] then .error .legs_empty
  else if 10 < legs.length then .error .too_many_legs
  else
    match duplicateCreator [] legs with
    | some creator => .error (.duplicate_creator creator)
    | none =>
      if globalDeadlineLedger < providers.currentLedger then
        .error (.deadline_passed providers.currentLedger globalDeadlineLedger)
      else if providers.xlmBalance < worstCaseTotal providers legs then
        .error (.insufficient_funds providers.xlmBalance (worstCaseTotal providers legs))
      else legs.mapM (executeLeg providers)

def reportsSlippage {α : Type} : Except MultiBuyError α → Bool
  | .error (.slippage_exceeded _ _ _ _) => true
  | _ => false

/- The check of a single buy, whose bound is in XLM. -/
def singleBuyAccepts (supply : ℚ) (protocolFeeBps : ℤ) (max_price : ℚ) : Bool :=
  match getBuyUnitPrice supply protocolFeeBps with
  | .error _ => false
  | .ok unitPrice =>
    let currentPriceXlm : ℚ := unitPrice / 10000000
    ¬ max_price < currentPriceXlm

/-
  The two checks of a purchase agree, and what the single buy
  accepts costs at most its bound a key.
-/
def SlippageAgrees : Prop :=
  let supply := providers.creatorSupply leg.creator
  let accepts := singleBuyAccepts supply PROTOCOL_FEE_BPS (leg.max_price / 10000000)
  (accepts = true ↔
    reportsSlippage (executeMultiBuy providers globalDeadlineLedger [leg]) = false) ∧
    (accepts = true → ∃ cost, computeBuyCost supply leg.amount PROTOCOL_FEE_BPS = .ok cost ∧
      cost ≤ leg.amount * leg.max_price)

/- The leg is not refused before its slippage is checked. -/
def ReachesCheck : Prop :=
  providers.currentLedger ≤ globalDeadlineLedger ∧ depthError providers leg = none ∧
    leg.amount * leg.max_price ≤ providers.xlmBalance

-- Agreement
----

variable {providers leg globalDeadlineLedger}

/- With a fee of five percent, nothing is rounded. -/
theorem computeBuyCost_eq (s : ℕ) {n : ℕ} (hAmount : 0 < n) :
    ∃ cost, computeBuyCost s n PROTOCOL_FEE_BPS = .ok cost ∧
      cost = 525000 * (2 * s + n + 19) * n := by
  have hTwice : 2 * baseCost s n = 1000000 * ((2 * s + n + 19) * n) := by
    have hCurve := baseCost_eq s n
    simp only [curve, BASE_COST, STEP, Int.cast_natCast] at hCurve
    push_cast at hCurve
    exact_mod_cast (show (2 * baseCost s n : ℚ) = 1000000 * ((2 * s + n + 19) * n) by
      rw [hCurve]
      ring)
  have hNonneg := baseCost_nonneg (Int.natCast_nonneg s) n
  have hFee : (baseCost s n * 500).tdiv 10000 = 25000 * ((2 * s + n + 19) * n) := by
    apply Int.tdiv_eq_of_eq_mul_right (by decide)
    linarith
  refine ⟨_, ?_, rfl⟩
  unfold computeBuyCost PROTOCOL_FEE_BPS
  rw [if_neg (not_lt.mpr (Nat.cast_nonneg s)), if_neg hAmount.ne', if_pos (by simp [Rat.isInt])]
  simp only [Rat.num_natCast, hFee, Except.ok.injEq]
  rw [max_eq_right (by omega)]
  linarith

theorem singleBuyAccepts_iff (s : ℕ) (bound : ℤ) :
    singleBuyAccepts s PROTOCOL_FEE_BPS (bound / 10000000) = true ↔
      525000 * (2 * s + 20) ≤ bound := by
  rcases computeBuyCost_eq s one_pos with ⟨unitPrice, hPrice, rfl⟩
  simp only [singleBuyAccepts, getBuyUnitPrice, hPrice, decide_eq_true_eq]
  rw [div_lt_div_iff_of_pos_right (by norm_num), not_lt, Int.cast_le]
  push_cast
  ring_nf

theorem executeMultiBuy_single :
    executeMultiBuy providers globalDeadlineLedger [leg] =
      if globalDeadlineLedger < providers.currentLedger then
        .error (.deadline_passed providers.currentLedger globalDeadlineLedger)
      else if providers.xlmBalance < worstCaseTotal providers [leg] then
        .error (.insufficient_funds providers.xlmBalance (worstCaseTotal providers [leg]))
      else (executeLeg providers leg).map fun result => [result] := by
  unfold executeMultiBuy
  rw [if_neg (List.cons_ne_nil _ _), if_neg (by simp)]
  simp only [duplicateCreator, List.not_mem_nil, if_false, List.mapM_cons, List.mapM_nil]
  cases executeLeg providers leg <;> rfl

section

variable {cost currentPrice : ℤ} {error : ExecutionError}

theorem reportsSlippage_executeLeg (hCost :
    computeBuyCost (providers.creatorSupply leg.creator) leg.amount PROTOCOL_FEE_BPS = .ok cost)
    (hPrice :
      getBuyUnitPrice (providers.creatorSupply leg.creator) PROTOCOL_FEE_BPS = .ok currentPrice) :
    reportsSlippage (executeLeg providers leg) = true ↔
      depthError providers leg = none ∧ leg.amount * leg.max_price < cost := by
  unfold executeLeg
  dsimp only
  rw [hCost, hPrice, mul_comm (leg.amount : ℤ)]
  cases depthError providers leg with
  | some maxAvailable => simp [reportsSlippage]
  | none =>
    by_cases hSlips : leg.max_price * leg.amount < cost
    · simp [reportsSlippage, Except.mapError, bind, Except.bind, hSlips]
    · simp [reportsSlippage, Except.mapError, bind, Except.bind, hSlips]

theorem not_reportsSlippage_executeLeg
    (hCost : computeBuyCost (providers.creatorSupply leg.creator) leg.amount PROTOCOL_FEE_BPS =
      .error error) :
    reportsSlippage (executeLeg providers leg) = false := by
  unfold executeLeg
  dsimp only
  rw [hCost]
  cases depthError providers leg with
  | some maxAvailable => rfl
  | none => rfl

end

theorem reportsSlippage_executeMultiBuy :
    reportsSlippage (executeMultiBuy providers globalDeadlineLedger [leg]) = true ↔
      reportsSlippage (executeLeg providers leg) = true ∧
        providers.currentLedger ≤ globalDeadlineLedger ∧
        worstCaseTotal providers [leg] ≤ providers.xlmBalance := by
  rw [executeMultiBuy_single]
  split_ifs with hLate hPoor
  · simp [reportsSlippage, hLate]
  · simp [reportsSlippage, hPoor]
  · have hMap (answer : Except MultiBuyError MultiBuyResult) :
        reportsSlippage (answer.map fun result => [result]) = reportsSlippage answer := by
      rcases answer with error | result
      · cases error <;> rfl
      · rfl
    rw [hMap, and_iff_left ⟨not_lt.mp hLate, not_lt.mp hPoor⟩]

/- Parts of keys and less than no keys have no price. -/
theorem computeBuyCost_error {supply : ℚ} (hSupply : ∀ s : ℕ, supply ≠ s) {n : ℕ}
    (hAmount : 0 < n) (feeBps : ℤ) : ∃ error, computeBuyCost supply n feeBps = .error error := by
  unfold computeBuyCost
  rw [if_neg hAmount.ne']
  split_ifs with hNegative hInt
  · exact ⟨_, rfl⟩
  · rcases Int.eq_ofNat_of_zero_le (Rat.num_nonneg.mpr (not_lt.mp hNegative)) with ⟨s, hNum⟩
    refine absurd ?_ (hSupply s)
    have hWhole : ((supply.num : ℤ) : ℚ) = supply :=
      Rat.coe_int_num_of_den_eq_one (by simpa [Rat.isInt] using hInt)
    rw [← hWhole, hNum]
    rfl
  · exact ⟨_, rfl⟩

/-
  The purchase of `n` keys at a supply of `s` costs `n` times its
  bound at most, or the first key exceeds it and is refused.
-/
theorem slippage_agrees_iff (providers : Providers) (leg : MultiBuyLeg) (globalDeadlineLedger : ℕ) :
    SlippageAgrees providers leg globalDeadlineLedger ↔
      ∃ s : ℕ, providers.creatorSupply leg.creator = s ∧
        (525000 * (2 * s + leg.amount + 19) ≤ leg.max_price ∨
          leg.max_price < 525000 * (2 * s + 20) ∧
            ReachesCheck providers leg globalDeadlineLedger) := by
  have hAmount : (0 : ℤ) < leg.amount := Int.natCast_pos.mpr leg.positive
  unfold SlippageAgrees
  by_cases hSupply : ∃ s : ℕ, providers.creatorSupply leg.creator = s
  · rcases hSupply with ⟨s, hSupply⟩
    rcases computeBuyCost_eq s leg.positive with ⟨cost, hCost, hCostEq⟩
    rcases computeBuyCost_eq s one_pos with ⟨unitPrice, hPrice, -⟩
    have hBound : cost ≤ leg.amount * leg.max_price ↔
        525000 * (2 * s + leg.amount + 19) ≤ leg.max_price := by
      rw [hCostEq, mul_comm (leg.amount : ℤ)]
      exact mul_le_mul_iff_left₀ hAmount
    have hReports : reportsSlippage (executeMultiBuy providers globalDeadlineLedger [leg]) = true ↔
        leg.max_price < 525000 * (2 * s + leg.amount + 19) ∧
          ReachesCheck providers leg globalDeadlineLedger := by
      rw [reportsSlippage_executeMultiBuy, reportsSlippage_executeLeg (hSupply ▸ hCost)
        (hSupply ▸ hPrice), ← not_le, hBound, not_le, ReachesCheck]
      constructor
      · rintro ⟨⟨hDepth, hSlips⟩, hLedger, hFunds⟩
        exact ⟨hSlips, hLedger, hDepth, by simpa [worstCaseTotal, hDepth] using hFunds⟩
      · rintro ⟨hSlips, hLedger, hDepth, hFunds⟩
        exact ⟨⟨hDepth, hSlips⟩, hLedger, by simpa [worstCaseTotal, hDepth] using hFunds⟩
    have hOnly (t : ℕ) : (s : ℚ) = t ↔ t = s := by rw [Nat.cast_inj, eq_comm]
    dsimp only
    rw [← Bool.not_eq_true, hReports, hSupply, singleBuyAccepts_iff]
    simp only [hCost, Except.ok.injEq, exists_eq_left', hBound, hOnly, exists_eq_left]
    constructor
    · rintro ⟨hAgrees, hCosts⟩
      by_cases hFirst : 525000 * (2 * (s : ℤ) + 20) ≤ leg.max_price
      · exact Or.inl (hCosts hFirst)
      · refine Or.inr ⟨not_le.mp hFirst, ?_⟩
        by_contra hStops
        exact hFirst (hAgrees.mpr fun hReport => hStops hReport.2)
    · rintro (hLow | ⟨hHigh, hReaches⟩)
      · exact ⟨⟨fun _ hReport => by omega, fun _ => by omega⟩, fun _ => hLow⟩
      · exact ⟨⟨fun _ => by omega, fun hNot => absurd ⟨by omega, hReaches⟩ hNot⟩, fun _ => by omega⟩
  · rw [not_exists] at hSupply
    rcases computeBuyCost_error hSupply leg.positive PROTOCOL_FEE_BPS with ⟨error, hError⟩
    rcases computeBuyCost_error hSupply one_pos PROTOCOL_FEE_BPS with ⟨unitError, hUnitError⟩
    have hRefuses : singleBuyAccepts (providers.creatorSupply leg.creator) PROTOCOL_FEE_BPS
        (leg.max_price / 10000000) = false := by
      simp only [singleBuyAccepts, getBuyUnitPrice, hUnitError]
    have hQuiet :
        reportsSlippage (executeMultiBuy providers globalDeadlineLedger [leg]) = false := by
      rw [← Bool.not_eq_true, reportsSlippage_executeMultiBuy,
        not_reportsSlippage_executeLeg hError]
      simp
    constructor
    · rintro ⟨hAgrees, -⟩
      cases hRefuses.symm.trans (hAgrees.mpr hQuiet)
    · rintro ⟨s, hWhole, -⟩
      exact absurd hWhole (hSupply s)

def sampleProviders : Providers where
  currentLedger := 1
  xlmBalance := 100000000
  creatorSupply := fun _ => 0
  maxBuy := none

def twoKeys : MultiBuyLeg where
  creator := "creator"
  amount := 2
  max_price := 10500000
  positive := by decide

/- The second key costs more than the bound. -/
theorem second_key_exceeds_bound : ¬ SlippageAgrees sampleProviders twoKeys 1 := by
  rintro ⟨hAgrees, -⟩
  have hReports : reportsSlippage (executeMultiBuy sampleProviders 1 [twoKeys]) = true := by
    decide +kernel
  exact absurd (hAgrees.mp (by decide +kernel)) (by rw [hReports]; decide)

end Trading

end AccessLayer
