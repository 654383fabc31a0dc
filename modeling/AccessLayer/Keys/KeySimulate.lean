import AccessLayer.Utils.BondingCurve

/-
  Trade simulations
  (`src/modules/keys/key-simulate.service.ts`).

  A walk over the milestones keeps the intervals whose costs it
  adds up.  Powers and quotients are exact.

  Main result: `simulation_respects_curve_iff`
-/

-- Walks
----

namespace AccessLayer

namespace Keys

namespace KeySimulate

open Utils.BondingCurve

/- An interval of supplies, and the exponent for it. -/
structure Segment where
  s0 : ℤ
  s1 : ℤ
  exponent : ℕ

def computeCostInterval (s0 s1 : ℤ) (exponent : ℕ) : ℤ :=
  if s1 ≤ s0 then 0
  else
    let basePart := 1000000 * (s1 - s0)
    let expPlusOne := exponent + 1
    let powerDiff := (s1 : ℚ) ^ expPlusOne - (s0 : ℚ) ^ expPlusOne
    let curvePart := ⌊100000 / (expPlusOne : ℚ) * powerDiff⌋
    basePart + curvePart

def Segment.cost (segment : Segment) : ℤ :=
  computeCostInterval segment.s0 segment.s1 segment.exponent

/- Upwards, by milestones in ascending order. -/
def buySegments (baseExponent : ℕ) (remaining s : ℤ) : List Milestone → List Segment
  | [] => if 0 < remaining then [⟨s, s + remaining, baseExponent⟩] else []
  | m :: rest =>
    if remaining ≤ 0 then []
    else if s < m.supplyThreshold then
      let segment := min remaining (m.supplyThreshold - s)
      ⟨s, s + segment, m.exponent⟩ ::
        buySegments baseExponent (remaining - segment) (s + segment) rest
    else buySegments baseExponent remaining s rest

/- Downwards, by milestones in descending order. -/
def sellSegments (baseExponent : ℕ) (remaining s : ℤ) : List Milestone → List Segment
  | [] => if 0 < remaining then [⟨s - min remaining s, s, baseExponent⟩] else []
  | m :: rest =>
    if remaining ≤ 0 then []
    else if m.supplyThreshold < s then
      let segment := min remaining (s - m.supplyThreshold)
      ⟨s - segment, s, m.exponent⟩ ::
        sellSegments baseExponent (remaining - segment) (s - segment) rest
    else sellSegments baseExponent remaining s rest

def sortDescending (milestones : List Milestone) : List Milestone :=
  milestones.insertionSort fun x y => y.supplyThreshold ≤ x.supplyThreshold

def total (segments : List Segment) : ℤ := (segments.map Segment.cost).sum

def computeBuyCostConstantTime (currentSupply quantity : ℤ) (milestones : List Milestone)
    (baseExponent : ℕ) : ℤ :=
  total (buySegments baseExponent quantity currentSupply (sortMilestones milestones))

def computeSellPayoutConstantTime (currentSupply quantity : ℤ) (milestones : List Milestone)
    (baseExponent : ℕ) : ℤ :=
  total (sellSegments baseExponent quantity currentSupply (sortDescending milestones))

/- The exponent that the unit from a supply on is priced with. -/
def appliedAt (segments : List Segment) (u : ℤ) : Option ℕ :=
  (segments.find? fun segment => segment.s0 ≤ u ∧ u < segment.s1).map Segment.exponent

def exponentBelow (baseExponent : ℕ) (u : ℤ) : List Milestone → ℕ
  | [] => baseExponent
  | m :: rest => if m.supplyThreshold ≤ u then m.exponent else exponentBelow baseExponent u rest

-- Exponents
----

variable {baseExponent : ℕ} {ms : List Milestone} {remaining s u : ℤ}

theorem appliedAt_cons_of_mem {segment : Segment} {segments : List Segment}
    (hMem : segment.s0 ≤ u ∧ u < segment.s1) :
    appliedAt (segment :: segments) u = some segment.exponent := by
  simp [appliedAt, hMem]

theorem appliedAt_cons_of_not_mem {segment : Segment} {segments : List Segment}
    (hMem : ¬(segment.s0 ≤ u ∧ u < segment.s1)) :
    appliedAt (segment :: segments) u = appliedAt segments u := by
  unfold appliedAt
  rw [List.find?_cons_of_neg]
  rwa [decide_eq_true_iff]

/- What lies below the walk has been passed by all milestones. -/
theorem appliedAt_buySegments (hLow : s ≤ u) (hHigh : u < s + remaining) :
    appliedAt (buySegments baseExponent remaining s ms) u =
      some (getExponentForSupply u ms baseExponent) := by
  induction ms generalizing remaining s with
  | nil =>
    rw [buySegments, if_pos (by omega)]
    exact appliedAt_cons_of_mem ⟨hLow, hHigh⟩
  | cons m rest ih =>
    rw [buySegments, if_neg (by omega), getExponentForSupply]
    by_cases hAhead : s < m.supplyThreshold
    · rw [if_pos hAhead]
      by_cases hMem : u < s + min remaining (m.supplyThreshold - s)
      · rw [if_pos (by omega)]
        exact appliedAt_cons_of_mem ⟨hLow, hMem⟩
      · have hPast : ¬u < m.supplyThreshold := by omega
        rw [if_neg hPast, appliedAt_cons_of_not_mem (fun h => hMem h.2)]
        exact ih (by omega) (by omega)
    · rw [if_neg hAhead, if_neg (by omega)]
      exact ih hLow hHigh

theorem appliedAt_sellSegments (hSupply : remaining ≤ s) (hLow : s - remaining ≤ u)
    (hHigh : u < s) :
    appliedAt (sellSegments baseExponent remaining s ms) u =
      some (exponentBelow baseExponent u ms) := by
  induction ms generalizing remaining s with
  | nil =>
    rw [sellSegments, if_pos (by omega), min_eq_left hSupply]
    exact appliedAt_cons_of_mem ⟨hLow, hHigh⟩
  | cons m rest ih =>
    rw [sellSegments, if_neg (by omega), exponentBelow]
    by_cases hBelow : m.supplyThreshold < s
    · rw [if_pos hBelow]
      by_cases hMem : s - min remaining (s - m.supplyThreshold) ≤ u
      · rw [if_pos (by omega)]
        exact appliedAt_cons_of_mem ⟨hMem, hHigh⟩
      · have hPast : ¬(m.supplyThreshold : ℤ) ≤ u := by omega
        rw [if_neg hPast, appliedAt_cons_of_not_mem (fun h => hMem h.1)]
        exact ih (by omega) (by omega) (by omega)
    · rw [if_neg hBelow, if_neg (by omega)]
      exact ih hSupply hLow hHigh

-- Costs
----

/- What a purchase between two supplies costs. -/
def costBetween (baseExponent : ℕ) (ms : List Milestone) (a b : ℤ) : ℤ :=
  total (buySegments baseExponent (b - a) a ms)

variable {a b : ℤ}

theorem total_cons (segment : Segment) (segments : List Segment) :
    total (segment :: segments) = segment.cost + total segments := List.sum_cons

theorem costBetween_of_le (hLe : b ≤ a) : costBetween baseExponent ms a b = 0 := by
  unfold costBetween
  cases ms with
  | nil =>
    rw [buySegments, if_neg (by omega)]
    rfl
  | cons m rest =>
    rw [buySegments, if_pos (by omega)]
    rfl

/- One step of the walk. -/
theorem costBetween_cons (m : Milestone) (hLess : a < b) :
    costBetween baseExponent (m :: ms) a b =
      if a < m.supplyThreshold then
        computeCostInterval a (min b m.supplyThreshold) m.exponent +
          costBetween baseExponent ms (min b m.supplyThreshold) b
      else costBetween baseExponent ms a b := by
  unfold costBetween
  rw [buySegments, if_neg (by omega)]
  by_cases hAhead : a < m.supplyThreshold
  · have hEnd : a + min (b - a) (m.supplyThreshold - a) = min b m.supplyThreshold := by omega
    have hRest :
        b - a - min (b - a) (m.supplyThreshold - a) = b - min b m.supplyThreshold := by omega
    rw [if_pos hAhead, if_pos hAhead, total_cons]
    simp only [hEnd, hRest, Segment.cost]
  · rw [if_neg hAhead, if_neg hAhead]

/- An interval without milestones inside has one price curve. -/
theorem costBetween_eq (hLess : a < b)
    (hInside : ∀ m ∈ ms, ¬(a < m.supplyThreshold ∧ m.supplyThreshold < b)) :
    costBetween baseExponent ms a b =
      computeCostInterval a b (getExponentForSupply a ms baseExponent) := by
  induction ms with
  | nil =>
    unfold costBetween
    rw [buySegments, if_pos (by omega), total_cons, add_sub_cancel]
    exact add_zero _
  | cons m rest ih =>
    rw [costBetween_cons m hLess, getExponentForSupply]
    by_cases hAhead : a < m.supplyThreshold
    · have hEnd : min b (m.supplyThreshold : ℤ) = b :=
        min_eq_left (not_lt.mp fun hLt => hInside m List.mem_cons_self ⟨hAhead, hLt⟩)
      rw [if_pos hAhead, if_pos hAhead, hEnd, costBetween_of_le le_rfl, add_zero]
    · rw [if_neg hAhead, if_neg hAhead]
      exact ih fun m' hMem => hInside m' (List.mem_cons_of_mem m hMem)

/- A purchase may be made in two parts at a milestone. -/
theorem costBetween_add (hSorted : ms.Pairwise fun x y => x.supplyThreshold ≤ y.supplyThreshold)
    {middle : Milestone} (hMem : middle ∈ ms) (hLow : a < middle.supplyThreshold)
    (hHigh : middle.supplyThreshold < b) :
    costBetween baseExponent ms a b = costBetween baseExponent ms a middle.supplyThreshold +
      costBetween baseExponent ms middle.supplyThreshold b := by
  induction ms generalizing a with
  | nil => cases hMem
  | cons m rest ih =>
    rw [List.pairwise_cons] at hSorted
    have hFirst : m.supplyThreshold ≤ middle.supplyThreshold := by
      rcases List.mem_cons.mp hMem with rfl | hRest
      · exact le_rfl
      · exact hSorted.1 middle hRest
    rw [costBetween_cons m (hLow.trans hHigh), costBetween_cons m hLow, costBetween_cons m hHigh,
      if_neg (show ¬(middle.supplyThreshold : ℤ) < m.supplyThreshold by omega),
      show min b (m.supplyThreshold : ℤ) = m.supplyThreshold by omega,
      show min (middle.supplyThreshold : ℤ) m.supplyThreshold = m.supplyThreshold by omega]
    rcases List.mem_cons.mp hMem with rfl | hRest
    · rw [if_pos hLow, if_pos hLow, costBetween_of_le le_rfl, add_zero]
    by_cases hSame : m.supplyThreshold = middle.supplyThreshold
    · rw [if_pos (by omega), if_pos (by omega), hSame, costBetween_of_le le_rfl, add_zero]
    · have hBehind := ih hSorted.2 hRest (show (m.supplyThreshold : ℤ) < _ by omega)
      by_cases hAhead : a < m.supplyThreshold
      · rw [if_pos hAhead, if_pos hAhead, hBehind, add_assoc]
      · rw [if_neg hAhead, if_neg hAhead]
        exact ih hSorted.2 hRest hLow

/-
  When each interval of a sale is priced as in a purchase, the
  sale earns what the purchase costs.
-/
theorem total_sellSegments {all : List Milestone}
    (hSorted : all.Pairwise fun x y => x.supplyThreshold ≤ y.supplyThreshold)
    (hDescending : ms.Pairwise fun x y => y.supplyThreshold ≤ x.supplyThreshold)
    (hSub : ∀ m ∈ ms, m ∈ all)
    (hBelow : ∀ m ∈ all, m.supplyThreshold < s → m ∈ ms) (hSupply : remaining ≤ s)
    (hExponents : ∀ u, s - remaining ≤ u → u < s →
      exponentBelow baseExponent u ms = getExponentForSupply u all baseExponent) :
    total (sellSegments baseExponent remaining s ms) =
      costBetween baseExponent all (s - remaining) s := by
  by_cases hEmpty : remaining ≤ 0
  · rw [costBetween_of_le (by omega)]
    cases ms with
    | nil => rw [sellSegments, if_neg (by omega), total, List.map_nil, List.sum_nil]
    | cons m rest => rw [sellSegments, if_pos hEmpty, total, List.map_nil, List.sum_nil]
  induction ms generalizing remaining s with
  | nil =>
    have hNone : ∀ m ∈ all, ¬(s - remaining < m.supplyThreshold ∧ m.supplyThreshold < s) :=
      fun m hMem hInside => List.not_mem_nil (hBelow m hMem hInside.2)
    have hExponent := hExponents (s - remaining) le_rfl (by omega)
    rw [costBetween_eq (by omega) hNone, sellSegments, if_pos (by omega), total_cons,
      min_eq_left hSupply, ← hExponent]
    exact add_zero _
  | cons m rest ih =>
    rw [List.pairwise_cons] at hDescending
    rw [sellSegments, if_neg hEmpty]
    by_cases hPassed : m.supplyThreshold < s
    · have hHighest : ∀ m' ∈ all, m'.supplyThreshold < s →
          m'.supplyThreshold ≤ m.supplyThreshold := by
        intro m' hMem hLess
        rcases List.mem_cons.mp (hBelow m' hMem hLess) with rfl | hRest
        · exact le_rfl
        · exact hDescending.1 m' hRest
      have hApplied : ∀ u, (m.supplyThreshold : ℤ) ≤ u → s - remaining ≤ u → u < s →
          getExponentForSupply u all baseExponent = m.exponent := by
        intro u hAbove hLow hHigh
        rw [← hExponents u hLow hHigh, exponentBelow, if_pos hAbove]
      rw [if_pos hPassed]
      by_cases hReaches : (m.supplyThreshold : ℤ) ≤ s - remaining
      · have hNone :
            ∀ m' ∈ all, ¬(s - remaining < m'.supplyThreshold ∧ m'.supplyThreshold < s) := by
          intro m' hMem hInside
          have hLe := hHighest m' hMem hInside.2
          omega
        rw [costBetween_eq (by omega) hNone, hApplied _ hReaches le_rfl (by omega)]
        have hAll : min remaining (s - m.supplyThreshold) = remaining := by omega
        rw [hAll, total_cons, sub_self]
        cases rest with
        | nil =>
          rw [sellSegments, if_neg (lt_irrefl 0)]
          exact add_zero _
        | cons m' rest =>
          rw [sellSegments, if_pos le_rfl]
          exact add_zero _
      · have hPart : min remaining (s - m.supplyThreshold) = s - m.supplyThreshold := by omega
        have hNone : ∀ m' ∈ all,
            ¬((m.supplyThreshold : ℤ) < m'.supplyThreshold ∧ m'.supplyThreshold < s) := by
          intro m' hMem hInside
          have hLe := hHighest m' hMem hInside.2
          omega
        have hRest := @ih (remaining - (s - m.supplyThreshold)) m.supplyThreshold hDescending.2
          (fun m' hMem => hSub m' (List.mem_cons_of_mem m hMem))
          (by
            intro m' hMem hLess
            rcases List.mem_cons.mp (hBelow m' hMem (by omega)) with rfl | hRest
            · omega
            · exact hRest)
          (by omega)
          (by
            intro u hLow hHigh
            rw [← hExponents u (by omega) (by omega), exponentBelow, if_neg (by omega)])
          (by omega)
        rw [costBetween_add hSorted (hSub m List.mem_cons_self) (by omega) hPassed,
          costBetween_eq hPassed hNone, hApplied _ le_rfl (by omega) hPassed]
        rw [hPart, total_cons, sub_sub_cancel, hRest, add_comm, Segment.cost]
        congr 2
        omega
    · rw [if_neg hPassed]
      refine ih hDescending.2 (fun m' hMem => hSub m' (List.mem_cons_of_mem m hMem)) ?_ hSupply ?_
        hEmpty
      · intro m' hMem hLess
        rcases List.mem_cons.mp (hBelow m' hMem hLess) with rfl | hRest
        · exact absurd hLess hPassed
        · exact hRest
      · intro u hLow hHigh
        rw [← hExponents u hLow hHigh, exponentBelow, if_neg (by omega)]

-- Agreement
----

section

variable (milestones : List Milestone) (baseExponent s q : ℕ)

/- What the curve asks of simulations between two supplies. -/
structure RespectsCurve : Prop where
  proceeds_le : computeSellPayoutConstantTime (s + q) q milestones baseExponent ≤
    computeBuyCostConstantTime s q milestones baseExponent
  bought : ∀ u : ℤ, s ≤ u → u < s + q →
    appliedAt (buySegments baseExponent q s (sortMilestones milestones)) u =
      some (getExponentForSupply u (sortMilestones milestones) baseExponent)
  sold : ∀ u : ℤ, s ≤ u → u < s + q →
    appliedAt (sellSegments baseExponent q (s + q) (sortDescending milestones)) u =
      some (getExponentForSupply u (sortMilestones milestones) baseExponent)

/- Sales are priced from below, purchases from above. -/
theorem simulation_respects_curve_iff :
    RespectsCurve milestones baseExponent s q ↔
      ∀ u : ℤ, s ≤ u → u < s + q →
        exponentBelow baseExponent u (sortDescending milestones) =
          getExponentForSupply u (sortMilestones milestones) baseExponent := by
  have hSold : ∀ u : ℤ, s ≤ u → u < s + q →
      appliedAt (sellSegments baseExponent q (s + q) (sortDescending milestones)) u =
        some (exponentBelow baseExponent u (sortDescending milestones)) := by
    intro u hLow hHigh
    exact appliedAt_sellSegments (by omega) (by omega) hHigh
  constructor
  · intro hRespects u hLow hHigh
    have hApplied := hRespects.sold u hLow hHigh
    rw [hSold u hLow hHigh] at hApplied
    exact Option.some.inj hApplied
  · intro hExponents
    refine ⟨?_, fun u hLow hHigh => appliedAt_buySegments hLow hHigh, ?_⟩
    · have hTotal := @total_sellSegments baseExponent (sortDescending milestones) q (s + q)
        (sortMilestones milestones) (List.pairwise_insertionSort _ _)
        (List.pairwise_insertionSort _ _)
        (fun m hMem => (List.mem_insertionSort _).mpr ((List.mem_insertionSort _).mp hMem))
        (fun m hMem _ => (List.mem_insertionSort _).mpr ((List.mem_insertionSort _).mp hMem))
        (by omega) (fun u hLow hHigh => hExponents u (by omega) hHigh)
      rw [add_sub_cancel_right, costBetween, add_sub_cancel_left] at hTotal
      exact hTotal.le
    · intro u hLow hHigh
      rw [hSold u hLow hHigh, hExponents u hLow hHigh]

end

/- Below a milestone with a flat curve, a key is sold for more than it is bought for. -/
theorem simulated_sale_gains :
    ¬RespectsCurve [⟨10, 0⟩] 1 4 1 := by
  intro hRespects
  have hProceeds := hRespects.proceeds_le
  revert hProceeds
  decide +kernel

end KeySimulate

end Keys

end AccessLayer
