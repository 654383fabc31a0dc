import AccessLayer.Library.RoundTrips
import Mathlib

/-
  The piecewise bonding curve
  (`src/utils/bonding-curve.utils.ts`).

  Supplies are integers that a double represents exactly.  A
  band ends below its threshold, and each band has an exponent
  of its own.

  Main results: `curve_superadditive`, `curve_bands_agree`
-/

-- The Curve
----

namespace AccessLayer

namespace Utils

namespace BondingCurve

section

open RoundTrips

def BASE_PRICE : ℤ := 1000000

def CURVE_K : ℤ := 100000

def MAX_SAFE_INTEGER : ℤ := 9007199254740991

structure Milestone where
  supplyThreshold : ℕ
  exponent : ℕ
  deriving DecidableEq

/- Milestones with one threshold keep their order. -/
def sortMilestones (milestones : List Milestone) : List Milestone :=
  milestones.insertionSort fun x y => x.supplyThreshold ≤ y.supplyThreshold

def getExponentForSupply (supply : ℤ) (milestones : List Milestone) (baseExponent : ℕ) : ℕ :=
  match milestones with
  | [] => baseExponent
  | m :: rest =>
    if supply < m.supplyThreshold then m.exponent
    else getExponentForSupply supply rest baseExponent

def spotPrice (supply : ℤ) (milestones : List Milestone) (baseExponent : ℕ) : ℤ :=
  if supply ≤ 0 then BASE_PRICE
  else
    let sorted := sortMilestones milestones
    let e := getExponentForSupply supply sorted baseExponent
    BASE_PRICE + CURVE_K * supply ^ e

def computeInterval (s0 s1 : ℤ) (exponent : ℕ) : ℤ :=
  if s1 ≤ s0 then 0
  else
    let p := exponent + 1
    let basePart := BASE_PRICE * (s1 - s0)
    let curvePart := (CURVE_K * (s1 ^ p - s0 ^ p)).tdiv p
    basePart + curvePart

structure Band where
  lo : ℤ
  hi : ℤ
  exponent : ℕ

/- The bands from a supply on; the last one has no milestone. -/
def buildBands (bandStart : ℤ) (baseExponent : ℕ) : List Milestone → List Band
  | [] =>
    [{ lo := bandStart
       hi := MAX_SAFE_INTEGER
       exponent := baseExponent }]
  | m :: rest =>
    let bands := buildBands m.supplyThreshold baseExponent rest
    if bandStart < m.supplyThreshold then
      { lo := bandStart
        hi := m.supplyThreshold
        exponent := m.exponent } :: bands
    else bands

def sumBands (a b total : ℤ) : List Band → ℤ
  | [] => total
  | band :: rest =>
    let lo := max a band.lo
    let hi := min b band.hi
    let total :=
      if lo < hi then
        total + computeInterval lo hi band.exponent
      else total
    if b ≤ band.hi then total else sumBands a b total rest

def cost (a b : ℤ) (milestones : List Milestone) (baseExponent : ℕ) : ℤ :=
  if b ≤ a then 0
  else
    sumBands a b 0 (buildBands 0 baseExponent (sortMilestones milestones))

def buyCost (supply qty : ℤ) (milestones : List Milestone) (baseExponent : ℕ) : ℤ :=
  if qty ≤ 0 then 0
  else cost supply (supply + qty) milestones baseExponent

def sellProceeds (supply qty : ℤ) (milestones : List Milestone) (baseExponent : ℕ) : ℤ :=
  if qty ≤ 0 then 0
  else cost (supply - qty) supply milestones baseExponent

end

-- Bands
----

section

variable {baseExponent : ℕ}

/- The part of a range that lies in a band. -/
def Band.part (band : Band) (a b : ℤ) : ℤ :=
  computeInterval (max a band.lo) (min b band.hi) band.exponent

variable {s0 s1 : ℤ} {exponent : ℕ}

theorem computeInterval_of_le (hEmpty : s1 ≤ s0) : computeInterval s0 s1 exponent = 0 :=
  if_pos hEmpty

/- A band that a range does not meet. -/
theorem Band.part_eq_zero {band : Band} {a b : ℤ} (hApart : min b band.hi ≤ max a band.lo) :
    band.part a b = 0 := computeInterval_of_le hApart

theorem lo_of_mem_buildBands {bandStart : ℤ} {milestones : List Milestone}
    (hAbove : ∀ m ∈ milestones, bandStart ≤ (m.supplyThreshold : ℤ))
    (hSorted : milestones.Pairwise fun x y => x.supplyThreshold ≤ y.supplyThreshold) {band : Band}
    (hBand : band ∈ buildBands bandStart baseExponent milestones) :
    bandStart ≤ band.lo := by
  induction milestones generalizing bandStart with
  | nil => rw [List.mem_singleton.mp hBand]
  | cons m rest ih =>
    rcases List.pairwise_cons.mp hSorted with ⟨hFirst, hRest⟩
    have hStart := hAbove m List.mem_cons_self
    have hTail
    (hMem : band ∈ buildBands m.supplyThreshold baseExponent rest) : bandStart ≤ band.lo :=
      hStart.trans (ih (fun other h => Int.ofNat_le.mpr (hFirst other h)) hRest hMem)
    unfold buildBands at hBand
    split at hBand
    · rcases List.mem_cons.mp hBand with rfl | hMem
      · exact le_refl _
      · exact hTail hMem
    · exact hTail hBand

/- The walk stops early, but no band is left out. -/
theorem sumBands_eq {a b total : ℤ} {bands : List Band}
    (hOrdered : bands.Pairwise fun x y => x.hi ≤ y.lo) :
    sumBands a b total bands = total + (bands.map (·.part a b)).sum := by
  induction bands generalizing total with
  | nil => simp [sumBands]
  | cons band rest ih =>
    rcases List.pairwise_cons.mp hOrdered with ⟨hFirst, hRest⟩
    have hTotal : (if max a band.lo < min b band.hi then
        total + computeInterval (max a band.lo) (min b band.hi) band.exponent
        else total) =
        total + band.part a b := by
      split
      · rfl
      · rename_i hApart
        rw [Band.part_eq_zero (not_lt.mp hApart), add_zero]
    unfold sumBands
    dsimp only
    rw [hTotal, List.map_cons, List.sum_cons, ← add_assoc]
    split
    · have hNone : (rest.map (·.part a b)).sum = 0 := by
        apply List.sum_eq_zero
        intro part hPart
        rcases List.mem_map.mp hPart with ⟨later, hLater, rfl⟩
        apply Band.part_eq_zero
        have := hFirst later hLater
        omega
      rw [hNone, add_zero]
    · exact ih hRest

-- Exact Integrals
----

/- The integral of the curve up to a supply, for one exponent. -/
def area (exponent : ℕ) (s : ℤ) : ℚ :=
  BASE_PRICE * s + CURVE_K * s ^ (exponent + 1) / (exponent + 1 : ℕ)

/- The integral of the curve over the key at a supply. -/
def unitIntegral (exponent : ℕ) (s : ℤ) : ℚ := area exponent (s + 1) - area exponent s

theorem sum_unitIntegral (hLe : s0 ≤ s1) :
    ∑ s ∈ Finset.Ico s0 s1, unitIntegral exponent s = area exponent s1 - area exponent s0 := by
  induction s1, hLe using Int.leInduction with
  | base => simp
  | succ s1 hLe ih =>
    rw [← Finset.insert_Ico_right_eq_Ico_add_one hLe, Finset.sum_insert Finset.right_notMem_Ico, ih,
      unitIntegral]
    ring

/- An interval costs its integral, rounded down. -/
theorem computeInterval_eq_floor (hStart : 0 ≤ s0) :
    computeInterval s0 s1 exponent = ⌊∑ s ∈ Finset.Ico s0 s1, unitIntegral exponent s⌋ := by
  by_cases hEmpty : s1 ≤ s0
  · rw [computeInterval_of_le hEmpty, Finset.Ico_eq_empty_of_le hEmpty]
    simp
  · have hLe : s0 ≤ s1 := (not_le.mp hEmpty).le
    have hPow : s0 ^ (exponent + 1) ≤ s1 ^ (exponent + 1) := pow_le_pow_left₀ hStart hLe _
    have hRise : 0 ≤ CURVE_K * (s1 ^ (exponent + 1) - s0 ^ (exponent + 1)) :=
      mul_nonneg (by decide) (sub_nonneg.mpr hPow)
    have hArea :
        area exponent s1 - area exponent s0 = ((BASE_PRICE * (s1 - s0) : ℤ) : ℚ) + ((CURVE_K *
          (s1 ^ (exponent + 1) - s0 ^ (exponent + 1)) : ℤ) :
          ℚ) /
          (exponent + 1 : ℕ) := by
      unfold area
      push_cast
      ring
    rw [sum_unitIntegral hLe, hArea, Int.floor_intCast_add,
      Rat.floor_intCast_div_natCast, computeInterval, if_neg hEmpty]
    dsimp only
    rw [Int.tdiv_eq_ediv_of_nonneg hRise]

theorem pow_le_unitIntegral {s : ℤ} (hSupply : 0 ≤ s) :
    ((BASE_PRICE + CURVE_K * s ^ exponent : ℤ) : ℚ) ≤ unitIntegral exponent s := by
  have hPow : s ^ (exponent + 1) + (exponent + 1) * s ^ exponent ≤
      (s + 1) ^ (exponent + 1) := by
    induction exponent with
    | zero => simp
    | succ e ih =>
      have hNonneg : 0 ≤ (e + 1) * s ^ e := by positivity
      calc
        s ^ (e + 2) + ((e + 1 : ℕ) + 1) * s ^ (e + 1)
          ≤ s ^ (e + 2) + ((e + 1 : ℕ) + 1) * s ^ (e + 1) + (e + 1) * s ^ e :=
            le_add_of_nonneg_right hNonneg
        _ = (s ^ (e + 1) + (e + 1) * s ^ e) * (s + 1) := by
          push_cast
          ring
        _ ≤ (s + 1) ^ (e + 1) * (s + 1) := mul_le_mul_of_nonneg_right ih (by omega)
        _ = (s + 1) ^ (e + 2) := (pow_succ _ _).symm
  have hPow' : ((s : ℚ) ^ (exponent + 1) + (exponent + 1) * s ^ exponent) ≤
      (s + 1) ^ (exponent + 1) := by
    exact_mod_cast hPow
  have hPos : (0 : ℚ) < (exponent + 1 : ℕ) := by positivity
  have hQuotient : (s : ℚ) ^ exponent ≤ ((s + 1) ^ (exponent + 1) - s ^ (exponent + 1)) /
      (exponent + 1 : ℕ) := by
    rw [le_div_iff₀ hPos]
    push_cast
    linarith
  have hCurve := mul_le_mul_of_nonneg_left hQuotient (show (0 : ℚ) ≤ CURVE_K by norm_num [CURVE_K])
  unfold unitIntegral area
  push_cast at hCurve ⊢
  calc
    (BASE_PRICE : ℚ) + CURVE_K * s ^ exponent ≤ BASE_PRICE + CURVE_K *
      (((s + 1) ^ (exponent + 1) - s ^ (exponent + 1)) / (exponent + 1)) := by
      linarith
    _ = _ := by ring

end

-- Splitting a Range
----

section

open RoundTrips

variable {milestones : List Milestone} {baseExponent : ℕ} {a b c : ℤ}

/- The bands of a curve. -/
def bandsOf (milestones : List Milestone) (baseExponent : ℕ) : List Band :=
  buildBands 0 baseExponent (sortMilestones milestones)

theorem pairwise_sortMilestones (milestones : List Milestone) :
    (sortMilestones milestones).Pairwise fun x y => x.supplyThreshold ≤ y.supplyThreshold := by
  exact List.pairwise_insertionSort _ milestones

theorem pairwise_buildBands {bandStart : ℤ} {sorted : List Milestone}
    (hSorted : sorted.Pairwise fun x y => x.supplyThreshold ≤ y.supplyThreshold) :
    (buildBands bandStart baseExponent sorted).Pairwise fun x y => x.hi ≤ y.lo := by
  induction sorted generalizing bandStart with
  | nil => exact List.pairwise_singleton _ _
  | cons m rest ih =>
    rcases List.pairwise_cons.mp hSorted with ⟨hFirst, hRest⟩
    unfold buildBands
    split
    · rw [List.pairwise_cons]
      refine ⟨fun band hBand => ?_, ih hRest⟩
      exact lo_of_mem_buildBands (fun other h => Int.ofNat_le.mpr (hFirst other h)) hRest hBand
    · exact ih hRest

variable {band : Band}

theorem lo_nonneg_of_mem_bandsOf (hBand : band ∈ bandsOf milestones baseExponent) : 0 ≤ band.lo :=
  lo_of_mem_buildBands (fun _ _ => Int.natCast_nonneg _) (pairwise_sortMilestones milestones) hBand

theorem pairwise_bandsOf : (bandsOf milestones baseExponent).Pairwise fun x y => x.hi ≤ y.lo :=
  pairwise_buildBands (pairwise_sortMilestones milestones)

theorem cost_eq (hLe : a ≤ b) :
    cost a b milestones baseExponent = ((bandsOf milestones baseExponent).map
      (·.part a b)).sum := by
  unfold cost
  split
  · symm
    apply List.sum_eq_zero
    intro part hPart
    rcases List.mem_map.mp hPart with ⟨band, -, rfl⟩
    apply Band.part_eq_zero
    omega
  · exact (sumBands_eq pairwise_bandsOf).trans (zero_add _)

/- A range that is not split inside of a band loses nothing. -/
theorem Band.part_add_of_not_inside (hLeft : a ≤ b) (hRight : b ≤ c)
    (hOutside : b ≤ band.lo ∨ band.hi ≤ b) :
    band.part a b + band.part b c = band.part a c := by
  rcases hOutside with hBefore | hAfter
  · have hNone : band.part a b = 0 := Band.part_eq_zero (by omega)
    have hSame : max b band.lo = max a band.lo := by omega
    rw [hNone, zero_add, Band.part, hSame]
    rfl
  · have hNone : band.part b c = 0 := Band.part_eq_zero (by omega)
    have hSame : min b band.hi = min c band.hi := by omega
    rw [hNone, add_zero, Band.part, hSame]
    rfl

theorem sum_Ico_add {f : ℤ → ℚ} (hLeft : a ≤ b) (hRight : b ≤ c) :
    ∑ s ∈ Finset.Ico a b, f s + ∑ s ∈ Finset.Ico b c, f s = ∑ s ∈ Finset.Ico a c, f s := by
  rw [← Finset.sum_union (Finset.Ico_disjoint_Ico_consecutive a b c),
    Finset.Ico_union_Ico_eq_Ico hLeft hRight]

/- A range that is split inside of a band loses at most one. -/
theorem Band.part_add (hStart : 0 ≤ band.lo) (hLeft : a ≤ b) (hRight : b ≤ c) :
    band.part a b + band.part b c ≤ band.part a c ∧
      band.part a c ≤ band.part a b + band.part b c + 1 := by
  by_cases hOutside : b ≤ band.lo ∨ band.hi ≤ b
  · rw [band.part_add_of_not_inside hLeft hRight hOutside]
    omega
  · have hAB : min b band.hi = b := by omega
    have hBC : max b band.lo = b := by omega
    have hFrom : max a band.lo ≤ b := by omega
    have hTo : b ≤ min c band.hi := by omega
    unfold Band.part
    rw [hAB, hBC, computeInterval_eq_floor (by omega), computeInterval_eq_floor (by omega),
      computeInterval_eq_floor (by omega), ← sum_Ico_add hFrom hTo]
    exact floor_add_le _ _

theorem sum_part_add_of_not_inside {bands : List Band} (hLeft : a ≤ b) (hRight : b ≤ c)
    (hOutside : ∀ band ∈ bands, b ≤ band.lo ∨ band.hi ≤ b) :
    (bands.map (·.part a b)).sum + (bands.map (·.part b c)).sum = (bands.map (·.part a c)).sum := by
  induction bands with
  | nil => rfl
  | cons band rest ih =>
    have hHead := band.part_add_of_not_inside hLeft hRight (hOutside band List.mem_cons_self)
    have hRest := ih fun other h => hOutside other (.tail _ h)
    simp only [List.map_cons, List.sum_cons]
    omega

/- A supply lies inside of one band at most. -/
theorem sum_part_add {bands : List Band} (hStart : ∀ band ∈ bands, 0 ≤ band.lo)
    (hOrdered : bands.Pairwise fun x y => x.hi ≤ y.lo) (hLeft : a ≤ b) (hRight : b ≤ c) :
    (bands.map (·.part a b)).sum + (bands.map (·.part b c)).sum ≤ (bands.map (·.part a c)).sum ∧
      (bands.map (·.part a c)).sum ≤ (bands.map (·.part a b)).sum +
        (bands.map (·.part b c)).sum + 1 := by
  induction bands with
  | nil => simp
  | cons band rest ih =>
    rcases List.pairwise_cons.mp hOrdered with ⟨hFirst, hRest⟩
    simp only [List.map_cons, List.sum_cons]
    by_cases hOutside : b ≤ band.lo ∨ band.hi ≤ b
    · have hHead := band.part_add_of_not_inside hLeft hRight hOutside
      have hTail := ih (fun other h => hStart other (.tail _ h)) hRest
      omega
    · have hHead := Band.part_add (hStart band List.mem_cons_self) hLeft hRight
      have hTail := @sum_part_add_of_not_inside a b c rest hLeft hRight
          fun other h => .inl (by have := hFirst other h; omega)
      omega

/- Any range may be split at any supply, for one stroop at most. -/
theorem cost_split (hLeft : a ≤ b) (hRight : b ≤ c) :
    cost a b milestones baseExponent + cost b c milestones baseExponent ≤
      cost a c milestones baseExponent ∧ cost a c milestones baseExponent ≤
      cost a b milestones baseExponent + cost b c milestones baseExponent + 1 := by
  rw [cost_eq hLeft, cost_eq hRight, cost_eq (hLeft.trans hRight)]
  exact sum_part_add (fun _ => lo_nonneg_of_mem_bandsOf) pairwise_bandsOf hLeft hRight

-- Round Trips
----

def price (milestones : List Milestone) (baseExponent : ℕ) (supply : ℤ)
    (trade : Trade) : Option (ℤ × ℤ) :=
  if 0 ≤ supply ∧ supply ≤ MAX_SAFE_INTEGER then
    match trade with
    | .buy qty =>
      if supply + qty ≤ MAX_SAFE_INTEGER then
        some (supply + qty, buyCost supply qty milestones baseExponent)
      else none
    | .sell qty =>
      if qty ≤ supply then
        some (supply - qty, sellProceeds supply qty milestones baseExponent)
      else none
  else none

variable {supply after amount : ℤ} {qty : ℕ}

theorem price_buy
    (hPrice : price milestones baseExponent supply (.buy qty) = some (after, amount)) :
    0 ≤ supply ∧ supply ≤ after ∧ amount = cost supply after milestones baseExponent := by
  unfold price at hPrice
  split at hPrice
  · rename_i hRange
    dsimp only at hPrice
    split at hPrice
    · cases hPrice
      refine ⟨hRange.1, by omega, ?_⟩
      unfold buyCost
      split
      · rw [cost, if_pos (by omega)]
      · rfl
    · cases hPrice
  · cases hPrice

theorem price_sell
    (hPrice : price milestones baseExponent supply (.sell qty) = some (after, amount)) :
    0 ≤ after ∧ after ≤ supply ∧ amount = cost after supply milestones baseExponent := by
  unfold price at hPrice
  split at hPrice
  · dsimp only at hPrice
    split at hPrice
    · cases hPrice
      refine ⟨by omega, by omega, ?_⟩
      unfold sellProceeds
      split
      · rw [cost, if_pos (by omega)]
      · rfl
    · cases hPrice
  · cases hPrice

/-
  A range costs as much as its two parts, up to one stroop, so
  that trades which lead back to the supply they began at bring
  in one stroop each at most.
-/
theorem curve_superadditive (milestones : List Milestone) (baseExponent : ℕ) :
    (∀ a b c : ℤ, a ≤ b → b ≤ c → cost a b milestones baseExponent +
      cost b c milestones baseExponent ≤ cost a c milestones baseExponent ∧
      cost a c milestones baseExponent ≤ cost a b milestones baseExponent +
        cost b c milestones baseExponent + 1) ∧
    ∀ (supply : ℤ) (trades : List Trade) (account : Account ℤ),
      settle (price milestones baseExponent) ⟨0, 0⟩ supply trades = some (supply, account) →
      account.received ≤ account.spent + trades.length := by
  refine ⟨fun a b c hLeft hRight => cost_split hLeft hRight, ?_⟩
  intro supply trades account hSettle
  have hLe := @received_le_of_closed _ _ _ _ _ _ _ _ (AddMonoidHom.id ℤ)
      (fun s => cost 0 s milestones baseExponent) 1 zero_le_one (by
        intro s n t amount hPrice
        rcases price_buy hPrice with ⟨hFrom, hTo, rfl⟩
        have hSplit := @cost_split milestones baseExponent 0 s t hFrom hTo
        rw [AddMonoidHom.id_apply]
        omega)
      (by
        intro s n t amount hPrice
        rcases price_sell hPrice with ⟨hFrom, hTo, rfl⟩
        have hSplit := @cost_split milestones baseExponent 0 t s hFrom hTo
        rw [AddMonoidHom.id_apply]
        omega)
      _ _ _ hSettle
  simpa using hLe

/- Three keys bought one by one and sold together. -/
theorem curve_superadditive_sample :
    ∃ account, settle (price [⟨2, 1⟩, ⟨0, 3⟩, ⟨2, 4⟩] 2) ⟨0, 0⟩ 2
      [.buy 1, .buy 1, .buy 1, .sell 3] = some (2, account) ∧ account.spent < account.received ∧
      account.received ≤ account.spent + 4 := by
  have hSettle :
      settle (price [⟨2, 1⟩, ⟨0, 3⟩, ⟨2, 4⟩] 2) ⟨0, 0⟩ 2 [.buy 1, .buy 1, .buy 1, .sell 3] =
        some (2, ⟨6899999, 6900000⟩) := by decide
  refine ⟨_, hSettle, by decide, ?_⟩
  exact (curve_superadditive [⟨2, 1⟩, ⟨0, 3⟩, ⟨2, 4⟩] 2).2 2 _ _ hSettle

end

-- Exponents of Supplies
----

open RoundTrips

variable {milestones sorted : List Milestone} {baseExponent : ℕ} {bandStart a b s : ℤ}

/- The exponent that is looked up for a supply. -/
def exponentAt (milestones : List Milestone) (baseExponent : ℕ) (s : ℤ) : ℕ :=
  getExponentForSupply s (sortMilestones milestones) baseExponent

/- The exact integral over the keys of a range in a band. -/
noncomputable def Band.exactPart (band : Band) (exponent : ℤ → ℕ) (a b : ℤ) : ℚ :=
  ∑ s ∈ Finset.Ico (max a band.lo) (min b band.hi), unitIntegral (exponent s) s

theorem exponent_of_mem_buildBands (hAbove : ∀ m ∈ sorted, bandStart ≤ (m.supplyThreshold : ℤ))
    (hSorted : sorted.Pairwise fun x y => x.supplyThreshold ≤ y.supplyThreshold) {band : Band}
    (hBand : band ∈ buildBands bandStart baseExponent sorted) (hLo : band.lo ≤ s)
    (hHi : s < band.hi) :
    getExponentForSupply s sorted baseExponent = band.exponent := by
  induction sorted generalizing bandStart with
  | nil =>
    rw [List.mem_singleton.mp hBand]
    rfl
  | cons m rest ih =>
    rcases List.pairwise_cons.mp hSorted with ⟨hFirst, hRest⟩
    have hAfter : ∀ other ∈ rest, (m.supplyThreshold : ℤ) ≤ other.supplyThreshold :=
      fun other h => Int.ofNat_le.mpr (hFirst other h)
    have hTail (hMem : band ∈ buildBands m.supplyThreshold baseExponent rest) :
        getExponentForSupply s (m :: rest) baseExponent = band.exponent := by
      have hPast := lo_of_mem_buildBands hAfter hRest hMem
      rw [getExponentForSupply, if_neg (by omega)]
      exact ih hAfter hRest hMem
    unfold buildBands at hBand
    split at hBand
    · rcases List.mem_cons.mp hBand with rfl | hMem
      · exact if_pos hHi
      · exact hTail hMem
    · exact hTail hBand

theorem part_eq_floor {band : Band} (hBand : band ∈ bandsOf milestones baseExponent) :
    band.part a b = ⌊band.exactPart (exponentAt milestones baseExponent) a b⌋ := by
  rw [Band.part, computeInterval_eq_floor
    ((lo_nonneg_of_mem_bandsOf hBand).trans (le_max_right _ _))]
  apply congrArg
  apply Finset.sum_congr rfl
  intro s hs
  rcases Finset.mem_Ico.mp hs with ⟨hFrom, hTo⟩
  have hSame : exponentAt milestones baseExponent s = band.exponent :=
    exponent_of_mem_buildBands (fun _ _ => Int.natCast_nonneg _)
      (pairwise_sortMilestones milestones) hBand ((le_max_right _ _).trans hFrom)
      (hTo.trans_le (min_le_right _ _))
  rw [hSame]

theorem sum_exactPart_buildBands (exponent : ℤ → ℕ)
    (hAbove : ∀ m ∈ sorted, bandStart ≤ (m.supplyThreshold : ℤ))
    (hSorted : sorted.Pairwise fun x y => x.supplyThreshold ≤ y.supplyThreshold)
    (hRange : b ≤ MAX_SAFE_INTEGER) :
    ((buildBands bandStart baseExponent sorted).map (·.exactPart exponent a b)).sum =
      ∑ s ∈ Finset.Ico (max a bandStart) b, unitIntegral (exponent s) s := by
  induction sorted generalizing bandStart with
  | nil =>
    simp only [buildBands, List.map_cons, List.map_nil,
      List.sum_cons, List.sum_nil, add_zero, Band.exactPart, min_eq_left hRange]
  | cons m rest ih =>
    rcases List.pairwise_cons.mp hSorted with ⟨hFirst, hRest⟩
    have hStart := hAbove m List.mem_cons_self
    have hTail := @ih m.supplyThreshold (fun other h => Int.ofNat_le.mpr (hFirst other h)) hRest
    unfold buildBands
    split
    · rw [List.map_cons, List.sum_cons, hTail, Band.exactPart]
      dsimp only
      rcases le_total (m.supplyThreshold : ℤ) (max a bandStart) with hBefore | hInside
      · have hSame : max a (m.supplyThreshold : ℤ) = max a bandStart := by omega
        rw [Finset.Ico_eq_empty_of_le (by omega), Finset.sum_empty, zero_add, hSame]
      · rcases le_total b m.supplyThreshold with hEnds | hGoesOn
        · have hNone : b ≤ max a (m.supplyThreshold : ℤ) := by omega
          rw [min_eq_left hEnds, Finset.Ico_eq_empty_of_le hNone, Finset.sum_empty, add_zero]
        · have hSame : max a (m.supplyThreshold : ℤ) = m.supplyThreshold := by omega
          rw [min_eq_right hGoesOn, hSame, sum_Ico_add hInside hGoesOn]
    · have hSame : (m.supplyThreshold : ℤ) = bandStart := by omega
      rw [hTail, hSame]

theorem sum_part_unit (hAbove : ∀ m ∈ sorted, bandStart ≤ (m.supplyThreshold : ℤ)) (hSorted :
    sorted.Pairwise fun x y => x.supplyThreshold ≤ y.supplyThreshold) (hStart : bandStart ≤ s)
    (hRange : s < MAX_SAFE_INTEGER) :
    ((buildBands bandStart baseExponent sorted).map (·.part s (s + 1))).sum =
      computeInterval s (s + 1) (getExponentForSupply s sorted baseExponent) := by
  induction sorted generalizing bandStart with
  | nil =>
    have hLo : max s bandStart = s := by omega
    have hHi : min (s + 1) MAX_SAFE_INTEGER = s + 1 := by omega
    simp only [buildBands, List.map_cons, List.map_nil,
      List.sum_cons, List.sum_nil, add_zero, Band.part, hLo, hHi, getExponentForSupply]
  | cons m rest ih =>
    rcases List.pairwise_cons.mp hSorted with ⟨hFirst, hRest⟩
    have hAfter : ∀ other ∈ rest, (m.supplyThreshold : ℤ) ≤ other.supplyThreshold :=
      fun other h => Int.ofNat_le.mpr (hFirst other h)
    unfold buildBands getExponentForSupply
    by_cases hBelow : s < m.supplyThreshold
    · have hLo : max s bandStart = s := by omega
      have hHi : min (s + 1) (m.supplyThreshold : ℤ) = s + 1 := by omega
      have hNone : ((buildBands m.supplyThreshold baseExponent rest).map
          (·.part s (s + 1))).sum = 0 := by
        apply List.sum_eq_zero
        intro part hPart
        rcases List.mem_map.mp hPart with ⟨band, hBand, rfl⟩
        apply Band.part_eq_zero
        have := lo_of_mem_buildBands hAfter hRest hBand
        omega
      rw [if_pos (by omega), if_pos hBelow, List.map_cons,
        List.sum_cons, hNone, add_zero, Band.part, hLo, hHi]
    · rw [if_neg hBelow, ← ih hAfter hRest (by omega)]
      split
      · rw [List.map_cons, List.sum_cons, Band.part_eq_zero (by dsimp only; omega), zero_add]
      · rfl

theorem cost_unit (hSupply : 0 ≤ s) (hRange : s < MAX_SAFE_INTEGER) :
    cost s (s + 1) milestones baseExponent = computeInterval s (s + 1)
      (exponentAt milestones baseExponent s) := by
  rw [cost_eq (by omega)]
  exact sum_part_unit (fun _ _ => Int.natCast_nonneg _)
    (pairwise_sortMilestones milestones) hSupply hRange

theorem spotPrice_le_cost (hSupply : 0 ≤ s) (hRange : s < MAX_SAFE_INTEGER) :
    spotPrice s milestones baseExponent ≤ cost s (s + 1) milestones baseExponent := by
  have hPrice : spotPrice s milestones baseExponent ≤ BASE_PRICE +
      CURVE_K * s ^ exponentAt milestones baseExponent s := by
    unfold spotPrice
    split
    · exact le_add_of_nonneg_right (mul_nonneg (by decide) (pow_nonneg hSupply _))
    · exact le_refl _
  have hUnit : ∑ t ∈ Finset.Ico s (s + 1), unitIntegral (exponentAt milestones baseExponent s) t =
      unitIntegral (exponentAt milestones baseExponent s) s := by
    rw [sum_unitIntegral (by omega), unitIntegral]
  rw [cost_unit hSupply hRange, computeInterval_eq_floor hSupply, hUnit]
  exact hPrice.trans (Int.le_floor.mpr (pow_le_unitIntegral hSupply))

/- The exact parts of a range, one for each band that it meets. -/
noncomputable def exactParts (milestones : List Milestone) (baseExponent : ℕ) (a b : ℤ) : List ℚ :=
  ((bandsOf milestones baseExponent).filter fun band => max a band.lo < min b band.hi).map
    (·.exactPart (exponentAt milestones baseExponent) a b)

theorem sum_exactParts (hStart : 0 ≤ a) (hRange : b ≤ MAX_SAFE_INTEGER) :
    (exactParts milestones baseExponent a b).sum = ∑ s ∈ Finset.Ico a b,
      unitIntegral (exponentAt milestones baseExponent s) s := by
  have hAll := @sum_exactPart_buildBands (sortMilestones milestones)
      baseExponent 0 a b (exponentAt milestones baseExponent) (fun _ _ => Int.natCast_nonneg _)
      (pairwise_sortMilestones milestones) hRange
  rw [max_eq_left hStart] at hAll
  rw [← hAll, exactParts]
  change _ = ((bandsOf milestones baseExponent).map _).sum
  induction bandsOf milestones baseExponent with
  | nil => rfl
  | cons band rest ih =>
    rw [List.map_cons, List.sum_cons, ← ih, List.filter_cons]
    split
    · rw [List.map_cons, List.sum_cons]
    · rename_i hApart
      have hEmpty : band.exactPart (exponentAt milestones baseExponent) a b =
          0 := by
        rw [Band.exactPart, Finset.Ico_eq_empty_of_le (not_lt.mp (by simpa using hApart)),
          Finset.sum_empty]
      rw [hEmpty, zero_add]

/- A range costs the parts of its bands, each rounded down. -/
theorem cost_eq_sum_floor (hLe : a ≤ b) :
    cost a b milestones baseExponent = ((exactParts milestones baseExponent a b).map
      fun part => ⌊part⌋).sum := by
  rw [cost_eq hLe, exactParts, List.map_map]
  have hParts : ∀ band ∈ bandsOf milestones baseExponent, band.part a b =
      ⌊band.exactPart (exponentAt milestones baseExponent) a b⌋ :=
    fun band hBand => part_eq_floor hBand
  generalize bandsOf milestones baseExponent = bands at hParts ⊢
  induction bands with
  | nil => rfl
  | cons band rest ih =>
    have hRest := ih fun other h => hParts other (.tail _ h)
    rw [List.map_cons, List.sum_cons, hRest, List.filter_cons]
    split
    · rw [List.map_cons, List.sum_cons, Function.comp_apply, hParts band List.mem_cons_self]
    · rename_i hApart
      rw [Band.part_eq_zero (not_lt.mp (by simpa using hApart)), zero_add]

/-
  Each key has the exponent that is looked up for it.  A range
  costs the exact integrals over its keys with these exponents,
  summed and rounded down for each band.
-/
theorem curve_bands_agree (milestones : List Milestone) (baseExponent : ℕ) :
    (∀ s, 0 ≤ s → s < MAX_SAFE_INTEGER → cost s (s + 1) milestones baseExponent =
      computeInterval s (s + 1) (exponentAt milestones baseExponent s) ∧
      spotPrice s milestones baseExponent ≤ cost s (s + 1) milestones baseExponent) ∧
    ∀ a b, 0 ≤ a → a ≤ b → b ≤ MAX_SAFE_INTEGER →
      let parts := exactParts milestones baseExponent a b
      let total := ∑ s ∈ Finset.Ico a b, unitIntegral (exponentAt milestones baseExponent s) s
      cost a b milestones baseExponent = (parts.map fun part => ⌊part⌋).sum ∧ parts.sum = total ∧
        cost a b milestones baseExponent ≤ ⌊total⌋ ∧ ⌊total⌋ ≤ cost a b milestones baseExponent +
          (parts.length - 1 : ℕ) := by
  refine ⟨fun s hSupply hRange => ⟨cost_unit hSupply hRange, spotPrice_le_cost hSupply hRange⟩, ?_⟩
  intro a b hStart hLe hRange parts total
  have hCost : cost a b milestones baseExponent = (parts.map fun part => ⌊part⌋).sum :=
    cost_eq_sum_floor hLe
  have hTotal : parts.sum = total := sum_exactParts hStart hRange
  rcases floor_sum_le parts with ⟨hBelow, hAbove⟩
  rw [← hTotal, hCost]
  refine ⟨rfl, rfl, hBelow, ?_⟩
  by_cases hNone : parts = []
  · rw [hNone]
    rfl
  · have := hAbove hNone
    omega

/- Three keys in three bands, each of which is rounded down. -/
theorem bands_rounded_apart :
    cost 0 3 [⟨1, 2⟩, ⟨2, 2⟩] 2 = 3899999 ∧ ⌊∑ s ∈ Finset.Ico (0 : ℤ) 3,
      unitIntegral (exponentAt [⟨1, 2⟩, ⟨2, 2⟩] 2 s) s⌋ = 3900000 := by
  refine ⟨by decide, ?_⟩
  have hExponent : ∀ s ∈ Finset.Ico (0 : ℤ) 3,
      exponentAt [⟨1, 2⟩, ⟨2, 2⟩] 2 s = 2 := by decide
  rw [Finset.sum_congr rfl fun s hs => by rw [hExponent s hs], sum_unitIntegral (by decide)]
  norm_num [area, BASE_PRICE, CURVE_K]

end BondingCurve

end Utils

end AccessLayer
