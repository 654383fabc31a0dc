import Mathlib.Data.Int.Log
import Mathlib.Data.Rat.Floor
import Mathlib.Tactic.Linarith

/-
  Decimals read as floating-point numbers with 53 significant
  bits, ties to even.  `toNumber` leaves out subnormal numbers;
  neither overflows.

  `toNumber_mono` and `toDouble_toDouble`: rounding keeps the
  order, and a number is rounded to itself.
  `toDouble_eq_of_near`: a decimal of seventeen digits is.
-/

-- Rounding
----

namespace Doubles

/- The closest integer, the even one of two. -/
def roundHalfEven (q : ℚ) : ℤ :=
  if q - ⌊q⌋ < 1 / 2 then ⌊q⌋
  else if 1 / 2 < q - ⌊q⌋ then ⌊q⌋ + 1
  else if ⌊q⌋ % 2 = 0 then ⌊q⌋
  else ⌊q⌋ + 1

/- The last place of the numbers as large as `q`. -/
def unitInLastPlace (q : ℚ) : ℚ := 2 ^ (Int.log 2 |q| - 52)

/- The closest number with 53 significant bits. -/
def toNumber (q : ℚ) : ℚ :=
  if q = 0 then 0
  else
    roundHalfEven (q / unitInLastPlace q) * unitInLastPlace q

example : toNumber 9007199254740993 = 9007199254740992 := by
  decide +kernel

theorem floor_le_roundHalfEven (q : ℚ) : ⌊q⌋ ≤ roundHalfEven q := by
  unfold roundHalfEven
  split_ifs <;> omega

theorem roundHalfEven_le (q : ℚ) : roundHalfEven q ≤ ⌊q⌋ + 1 := by
  unfold roundHalfEven
  split_ifs <;> omega

variable {q r : ℚ}

theorem roundHalfEven_mono (hLe : q ≤ r) : roundHalfEven q ≤ roundHalfEven r := by
  rcases (Int.floor_mono hLe).lt_or_eq with hBelow | hSame
  · calc
      roundHalfEven q ≤ ⌊q⌋ + 1 := roundHalfEven_le q
      _ ≤ ⌊r⌋ := hBelow
      _ ≤ roundHalfEven r := floor_le_roundHalfEven r
  · unfold roundHalfEven
    rw [hSame]
    split_ifs <;> first | omega | linarith

@[simp] theorem roundHalfEven_intCast (n : ℤ) :
    roundHalfEven n = n := by
  unfold roundHalfEven
  norm_num

theorem abs_roundHalfEven_sub_le (q : ℚ) : |roundHalfEven q - q| ≤ 1 / 2 := by
  have hFloor := Int.floor_le q
  have hAbove := Int.lt_floor_add_one q
  rw [abs_le]
  unfold roundHalfEven
  split_ifs <;> push_cast <;> constructor <;> linarith

theorem floor_neg_of_not_int (hFraction : (⌊q⌋ : ℚ) ≠ q) : ⌊-q⌋ = -⌊q⌋ - 1 := by
  rw [Int.floor_eq_iff]
  have hBelow := lt_of_le_of_ne (Int.floor_le q) hFraction
  have hAbove := Int.lt_floor_add_one q
  push_cast
  constructor <;> linarith

theorem roundHalfEven_neg (q : ℚ) : roundHalfEven (-q) = -roundHalfEven q := by
  by_cases hInt : (⌊q⌋ : ℚ) = q
  · rw [← hInt, ← Int.cast_neg, roundHalfEven_intCast, roundHalfEven_intCast]
  · unfold roundHalfEven
    rw [floor_neg_of_not_int hInt]
    push_cast
    split_ifs <;> first | omega | linarith

-- Order
----

theorem unitInLastPlace_pos (q : ℚ) : 0 < unitInLastPlace q := by
  exact zpow_pos two_pos _

theorem toNumber_neg (q : ℚ) : toNumber (-q) = -toNumber q := by
  have hUnit : unitInLastPlace (-q) = unitInLastPlace q := by
    unfold unitInLastPlace
    rw [abs_neg]
  unfold toNumber
  rw [hUnit, neg_div, roundHalfEven_neg]
  by_cases hZero : q = 0
  · simp [hZero]
  · rw [if_neg hZero, if_neg (neg_ne_zero.mpr hZero)]
    push_cast
    ring

/- A power of two as a multiple of a unit. -/
theorem pow_eq_mul_unit (q : ℚ) (k : ℕ) :
    (2 : ℚ) ^ (Int.log 2 |q| - 52 + k) = ((2 ^ k : ℤ) : ℚ) * unitInLastPlace q := by
  unfold unitInLastPlace
  rw [zpow_add₀ two_ne_zero]
  push_cast
  rw [zpow_natCast, mul_comm]

/- A positive number is at least the power of two below it. -/
theorem pow_log_le_toNumber (hPos : 0 < q) : (2 : ℚ) ^ Int.log 2 q ≤ toNumber q := by
  have hUnit := unitInLastPlace_pos q
  have hPow : (2 : ℚ) ^ Int.log 2 q = ((2 ^ 52 : ℤ) : ℚ) * unitInLastPlace q := by
    rw [← pow_eq_mul_unit, abs_of_pos hPos]
    norm_num
  have hLog : (2 : ℚ) ^ Int.log 2 q ≤ q := mod_cast Int.zpow_log_le_self one_lt_two hPos
  have hRound : (2 ^ 52 : ℤ) ≤ roundHalfEven (q / unitInLastPlace q) := by
    rw [← roundHalfEven_intCast (2 ^ 52)]
    apply roundHalfEven_mono
    rw [le_div_iff₀ hUnit, ← hPow]
    exact hLog
  rw [toNumber, if_neg hPos.ne', hPow]
  exact mul_le_mul_of_nonneg_right (by exact_mod_cast hRound) hUnit.le

/- It is at most the power of two above it. -/
theorem toNumber_le_pow_log (hPos : 0 < q) : toNumber q ≤ (2 : ℚ) ^ (Int.log 2 q + 1) := by
  have hUnit := unitInLastPlace_pos q
  have hPow : (2 : ℚ) ^ (Int.log 2 q + 1) = ((2 ^ 53 : ℤ) : ℚ) * unitInLastPlace q := by
    rw [← pow_eq_mul_unit, abs_of_pos hPos]
    congr 1
    push_cast
    ring
  have hLog : q ≤ (2 : ℚ) ^ (Int.log 2 q + 1) :=
    (mod_cast Int.lt_zpow_succ_log_self one_lt_two q : q < (2 : ℚ) ^ (Int.log 2 q + 1)).le
  have hRound : roundHalfEven (q / unitInLastPlace q) ≤ (2 ^ 53 : ℤ) := by
    rw [← roundHalfEven_intCast (2 ^ 53)]
    apply roundHalfEven_mono
    rw [div_le_iff₀ hUnit, ← hPow]
    exact hLog
  rw [toNumber, if_neg hPos.ne', hPow]
  exact mul_le_mul_of_nonneg_right (by exact_mod_cast hRound) hUnit.le

theorem toNumber_pos (hPos : 0 < q) : 0 < toNumber q :=
  (zpow_pos two_pos _).trans_le (pow_log_le_toNumber hPos)

theorem toNumber_mono_of_pos (hPos : 0 < q) (hLe : q ≤ r) : toNumber q ≤ toNumber r := by
  have hPos' := hPos.trans_le hLe
  rcases (Int.log_mono_right hPos hLe : Int.log 2 q ≤ Int.log 2 r ).lt_or_eq with hBelow | hSame
  · calc
      toNumber q ≤ (2 : ℚ) ^ (Int.log 2 q + 1) := toNumber_le_pow_log hPos
      _ ≤ (2 : ℚ) ^ Int.log 2 r := zpow_le_zpow_right₀ one_le_two hBelow
      _ ≤ toNumber r := pow_log_le_toNumber hPos'
  · have hUnit : unitInLastPlace q = unitInLastPlace r := by
      unfold unitInLastPlace
      rw [abs_of_pos hPos, abs_of_pos hPos', hSame]
    have hUnitPos := unitInLastPlace_pos r
    rw [toNumber, toNumber, if_neg hPos.ne', if_neg hPos'.ne', hUnit]
    apply mul_le_mul_of_nonneg_right _ hUnitPos.le
    exact_mod_cast roundHalfEven_mono (div_le_div_of_nonneg_right hLe hUnitPos.le)

/- Numbers are in the order of what they stand for. -/
theorem toNumber_mono (hLe : q ≤ r) : toNumber q ≤ toNumber r := by
  rcases lt_trichotomy q 0 with hNeg | rfl | hPos
  · rcases lt_trichotomy r 0 with hNeg' | rfl | hPos'
    · have hMirrored : toNumber (-r) ≤ toNumber (-q) :=
        toNumber_mono_of_pos (neg_pos.mpr hNeg') (neg_le_neg hLe)
      rw [toNumber_neg, toNumber_neg] at hMirrored
      linarith
    · have hMirrored := toNumber_pos (neg_pos.mpr hNeg)
      rw [toNumber_neg] at hMirrored
      rw [show toNumber 0 = 0 from if_pos rfl]
      linarith
    · have hMirrored := toNumber_pos (neg_pos.mpr hNeg)
      rw [toNumber_neg] at hMirrored
      linarith [toNumber_pos hPos']
  · rcases hLe.eq_or_lt with rfl | hPos'
    · exact le_rfl
    · rw [show toNumber 0 = 0 from if_pos rfl]
      exact (toNumber_pos hPos').le
  · exact toNumber_mono_of_pos hPos hLe

-- Subnormal Numbers
----

/- The last place of a number, which is bounded below. -/
def lastPlace (q : ℚ) : ℚ := 2 ^ max (Int.log 2 |q| - 52) (-1074)

/- The closest number where the smallest ones are subnormal. -/
def toDouble (q : ℚ) : ℚ := roundHalfEven (q / lastPlace q) * lastPlace q

theorem lastPlace_pos (q : ℚ) : 0 < lastPlace q := by
  exact zpow_pos two_pos _

theorem toDouble_eq_toNumber (hNormal : 2 ^ (-1022 : ℤ) ≤ |q|) : toDouble q = toNumber q := by
  have hPos : 0 < |q| := (zpow_pos two_pos _).trans_le hNormal
  have hLog : -1022 ≤ Int.log 2 |q| :=
    (Int.zpow_le_iff_le_log one_lt_two hPos).mp (by exact_mod_cast hNormal)
  have hUnit : lastPlace q = unitInLastPlace q := by
    unfold lastPlace unitInLastPlace
    rw [max_eq_left (by omega)]
  rw [toDouble, toNumber, hUnit, if_neg (abs_pos.mp hPos)]

theorem toDouble_intCast (m : ℤ) : toDouble m = toNumber m := by
  rcases eq_or_ne m 0 with rfl | hNonzero
  · rw [toNumber, if_pos Int.cast_zero, toDouble, Int.cast_zero, zero_div]
    norm_num [roundHalfEven]
  · apply toDouble_eq_toNumber
    have hOne : (1 : ℚ) ≤ |(m : ℚ)| := by exact_mod_cast Int.one_le_abs hNonzero
    exact (zpow_le_one_of_nonpos₀ one_le_two (by norm_num)).trans hOne

theorem toDouble_neg (q : ℚ) : toDouble (-q) = -toDouble q := by
  have hUnit : lastPlace (-q) = lastPlace q := by
    unfold lastPlace
    rw [abs_neg]
  rw [toDouble, toDouble, hUnit, neg_div, roundHalfEven_neg]
  push_cast
  ring

theorem toDouble_nonneg (hNonneg : 0 ≤ q) : 0 ≤ toDouble q := by
  have hRound := roundHalfEven_mono (div_nonneg hNonneg (lastPlace_pos q).le)
  rw [← Int.cast_zero, roundHalfEven_intCast] at hRound
  exact mul_nonneg (by exact_mod_cast hRound) (lastPlace_pos q).le

/- Whole last places are not rounded. -/
theorem toDouble_of_multiple {n : ℤ} (hMultiple : q = n * lastPlace q) : toDouble q = q := by
  have hQuotient : q / lastPlace q = n := by
    rw [div_eq_iff (lastPlace_pos q).ne']
    exact hMultiple
  rw [toDouble, hQuotient, roundHalfEven_intCast, ← hMultiple]

/- So are up to 53 bits of any larger place. -/
theorem toDouble_bits {n e : ℤ} (hBits : n.natAbs ≤ 2 ^ 53) (hPlace : -1074 ≤ e) :
    toDouble (n * 2 ^ e) = n * 2 ^ e := by
  rcases eq_or_ne n 0 with rfl | hNonzero
  · exact @toDouble_of_multiple _ 0 (by simp)
  · have hAbs : |(n : ℚ) * 2 ^ e| = (n.natAbs : ℚ) * 2 ^ e := by
      rw [abs_mul, abs_of_pos (zpow_pos two_pos e : (0 : ℚ) < 2 ^ e), Nat.cast_natAbs, Int.cast_abs]
    have hPos : 0 < (n.natAbs : ℚ) * 2 ^ e :=
      mul_pos (by exact_mod_cast Int.natAbs_pos.mpr hNonzero) (zpow_pos two_pos e)
    have hTop : (n.natAbs : ℚ) * 2 ^ e ≤ 2 ^ (53 + e) := by
      rw [zpow_add₀ two_ne_zero]
      apply mul_le_mul_of_nonneg_right _ (zpow_pos two_pos e).le
      exact_mod_cast hBits
    have hLog : Int.log 2 |(n : ℚ) * 2 ^ e| ≤ 53 + e := by
      rw [hAbs, ← Int.log_zpow (R := ℚ) (b := 2) (by decide) (53 + e)]
      exact Int.log_mono_right hPos (by exact_mod_cast hTop)
    rcases le_or_gt (max (Int.log 2 |(n : ℚ) * 2 ^ e| - 52) (-1074)) e with hFine | hCoarse
    · obtain ⟨k, hk⟩ := Int.le.dest hFine
      apply @toDouble_of_multiple _ (n * 2 ^ k)
      unfold lastPlace
      conv_lhs => rw [← hk, add_comm, zpow_add₀ two_ne_zero, zpow_natCast, ← mul_assoc]
      push_cast
      rfl
    · -- only a power of two has a larger last place
      have hLast : max (Int.log 2 |(n : ℚ) * 2 ^ e| - 52) (-1074) = e + 1 := by omega
      have hLog' : 53 + e ≤ Int.log 2 |(n : ℚ) * 2 ^ e| := by omega
      rw [hAbs, ← Int.zpow_le_iff_le_log one_lt_two hPos] at hLog'
      have hLarge : 2 ^ 53 ≤ n.natAbs := by
        have hCancel : (2 : ℚ) ^ (53 : ℤ) * 2 ^ e ≤ n.natAbs * 2 ^ e := by
          rw [← zpow_add₀ two_ne_zero]
          exact_mod_cast hLog'
        exact_mod_cast le_of_mul_le_mul_right hCancel (zpow_pos two_pos e)
      have hEven : ∃ m : ℤ, n = m * 2 := by
        rcases Int.natAbs_eq n with h | h
        · exact ⟨2 ^ 52, by omega⟩
        · exact ⟨-2 ^ 52, by omega⟩
      rcases hEven with ⟨m, rfl⟩
      apply @toDouble_of_multiple _ m
      unfold lastPlace
      rw [hLast, zpow_add₀ two_ne_zero]
      push_cast
      ring

theorem abs_lt_lastPlaces (q : ℚ) : |q| < 2 ^ 53 * lastPlace q := by
  calc
    |q| < (2 : ℚ) ^ (Int.log 2 |q| + 1) :=
      mod_cast (Int.lt_zpow_succ_log_self one_lt_two |q| :
        |q| < ((2 : ℕ) : ℚ) ^ (Int.log 2 |q| + 1))
    _ ≤ (2 : ℚ) ^ (53 + max (Int.log 2 |q| - 52) (-1074)) := by
      apply zpow_le_zpow_right₀ one_le_two
      omega
    _ = 2 ^ 53 * lastPlace q := by
      rw [zpow_add₀ two_ne_zero]
      rfl

theorem natAbs_roundHalfEven_le (q : ℚ) : (roundHalfEven (q / lastPlace q)).natAbs ≤ 2 ^ 53 := by
  have hPlace := lastPlace_pos q
  rcases abs_lt.mp (abs_lt_lastPlaces q) with ⟨hLow, hHigh⟩
  have hUpper : roundHalfEven (q / lastPlace q) ≤ roundHalfEven ((2 ^ 53 : ℤ) : ℚ) := by
    apply roundHalfEven_mono
    rw [div_le_iff₀ hPlace]
    exact_mod_cast hHigh.le
  have hLower : roundHalfEven ((-2 ^ 53 : ℤ) : ℚ) ≤ roundHalfEven (q / lastPlace q) := by
    apply roundHalfEven_mono
    rw [le_div_iff₀ hPlace]
    push_cast
    linarith
  rw [roundHalfEven_intCast] at hUpper hLower
  omega

/- What is rounded is a number. -/
theorem toDouble_toDouble (q : ℚ) : toDouble (toDouble q) = toDouble q :=
  toDouble_bits (natAbs_roundHalfEven_le q) (le_max_right _ _)

theorem roundHalfEven_of_near {n : ℤ} (hNear : |q - n| < 1 / 2) : roundHalfEven q = n := by
  rcases abs_lt.mp hNear with ⟨hLow, hHigh⟩
  unfold roundHalfEven
  rcases le_or_gt (n : ℚ) q with hAbove | hBelow
  · have hFloor : ⌊q⌋ = n := Int.floor_eq_iff.mpr ⟨hAbove, by linarith⟩
    rw [hFloor, if_pos (by linarith)]
  · have hFloor : ⌊q⌋ = n - 1 :=
      Int.floor_eq_iff.mpr ⟨by push_cast; linarith, by push_cast; linarith⟩
    rw [hFloor]
    push_cast
    rw [if_neg (by linarith), if_pos (by linarith), sub_add_cancel]

variable {x : ℚ}

theorem toDouble_eq_of_places {m : ℤ} (hx : x = m * lastPlace q)
    (hClose : |q - x| < lastPlace q / 2) : toDouble q = x := by
  have hPlace := lastPlace_pos q
  rw [toDouble, @roundHalfEven_of_near _ m, ← hx]
  have hScaled : q / lastPlace q - m = (q - x) / lastPlace q := by
    rw [hx]
    field_simp
  rw [hScaled, abs_div, abs_of_pos hPlace, div_lt_iff₀ hPlace]
  linarith

theorem lastPlace_of_pos (hPos : 0 < q) : lastPlace q = 2 ^ max (Int.log 2 q - 52) (-1074) := by
  unfold lastPlace
  rw [abs_of_pos hPos]

/- A number is less than 53 bits of its last place. -/
theorem bits_of_places {n : ℤ} (hPos : 0 < x) (hn : x = n * lastPlace x) :
    (n : ℚ) ≤ 2 ^ 53 - 1 := by
  have hPlace := lastPlace_pos x
  have hBelow : (n : ℚ) * lastPlace x < (2 ^ 53 : ℤ) * lastPlace x := by
    rw [← hn]
    have hAbs := abs_lt_lastPlaces x
    rw [abs_of_pos hPos] at hAbs
    exact_mod_cast hAbs
  have hBits : n ≤ 2 ^ 53 - 1 :=
    Int.le_sub_one_of_lt (Int.cast_lt.mp (lt_of_mul_lt_mul_right hBelow hPlace.le))
  exact_mod_cast hBits

theorem log_le_of_near {n : ℤ} (hPos : 0 < x) (hn : x = n * lastPlace x) (hqPos : 0 < q)
    (hError : |q - x| < lastPlace x / 2) :
    Int.log 2 q ≤ 52 + max (Int.log 2 x - 52) (-1074) := by
  have hPlace := lastPlace_pos x
  have hTop := mul_le_mul_of_nonneg_right (bits_of_places hPos hn) hPlace.le
  rw [← hn] at hTop
  have hBelow : q < 2 ^ 53 * lastPlace x := by
    have := (abs_lt.mp hError).2
    linarith
  rw [lastPlace_of_pos hPos, ← zpow_natCast, ← zpow_add₀ two_ne_zero] at hBelow
  have hLog := (Int.lt_zpow_iff_log_lt one_lt_two hqPos).mp (by exact_mod_cast hBelow)
  omega

/- A number whose last place is larger than that of a decimal below it. -/
theorem power_of_near {n : ℤ} (hPos : 0 < x) (hn : x = n * lastPlace x) (hqPos : 0 < q)
    (hUnder : q < x) (hError : |q - x| < lastPlace x / 2)
    (hLast : max (Int.log 2 q - 52) (-1074) ≠ max (Int.log 2 x - 52) (-1074)) :
    x = 2 ^ 52 * lastPlace x ∧ lastPlace q = lastPlace x / 2 := by
  have hPlace := lastPlace_pos x
  have hMono : Int.log 2 q ≤ Int.log 2 x := Int.log_mono_right hqPos hUnder.le
  have hPow : (2 : ℚ) ^ Int.log 2 x = (2 ^ 52 : ℤ) * lastPlace x := by
    rw [lastPlace_of_pos hPos, max_eq_left (by omega), Int.cast_pow, ← zpow_natCast, Int.cast_ofNat,
      ← zpow_add₀ two_ne_zero]
    congr 1
    push_cast
    ring
  have hSmall : q < (2 : ℚ) ^ Int.log 2 x := by
    exact_mod_cast (Int.lt_zpow_iff_log_lt one_lt_two hqPos).mpr (by omega)
  have hLarge : (2 : ℚ) ^ Int.log 2 x ≤ x := by
    exact_mod_cast Int.zpow_log_le_self one_lt_two hPos
  rw [hPow] at hSmall hLarge
  have hLe : 2 ^ 52 ≤ n := by
    have hCancel : ((2 ^ 52 : ℤ) : ℚ) * lastPlace x ≤ n * lastPlace x := hLarge.trans_eq hn
    exact Int.cast_le.mp (le_of_mul_le_mul_right hCancel hPlace)
  have hPower : n = 2 ^ 52 := by
    by_contra hNot
    have hNext : ((2 ^ 52 + 1 : ℤ) : ℚ) * lastPlace x ≤ n * lastPlace x :=
      mul_le_mul_of_nonneg_right (Int.cast_le.mpr (by omega)) hPlace.le
    rw [← hn] at hNext
    have := (abs_lt.mp hError).1
    push_cast at hNext hSmall
    linarith
  have hx : x = 2 ^ 52 * lastPlace x := by
    have hSame : x = ((2 ^ 52 : ℤ) : ℚ) * lastPlace x := hPower ▸ hn
    exact_mod_cast hSame
  refine ⟨hx, ?_⟩
  have hHalf : (2 : ℚ) ^ (Int.log 2 x - 1) ≤ q := by
    rw [zpow_sub_one₀ two_ne_zero, hPow]
    have := (abs_lt.mp hError).1
    push_cast
    linarith
  have hLog := (Int.zpow_le_iff_le_log one_lt_two hqPos).mp (by exact_mod_cast hHalf)
  have hShift : max (Int.log 2 q - 52) (-1074) = max (Int.log 2 x - 52) (-1074) - 1 := by omega
  rw [lastPlace_of_pos hPos, lastPlace_of_pos hqPos, hShift, zpow_sub_one₀ two_ne_zero]
  rfl

/- A decimal this close to a number is rounded to it. -/
theorem toDouble_eq_of_near (hPos : 0 < x) (hDouble : toDouble x = x)
    (hNear : |q - x| * (2 * 10 ^ 16) ≤ x) : toDouble q = x := by
  have hPlace := lastPlace_pos x
  have hBelow := abs_lt_lastPlaces x
  rw [abs_of_pos hPos] at hBelow
  have hError : |q - x| < lastPlace x / 2 := by linarith
  have hqPos : 0 < q := by
    have := neg_abs_le (q - x)
    linarith
  -- how many last places the number has
  obtain ⟨n, hn⟩ : ∃ n : ℤ, x = n * lastPlace x := ⟨_, hDouble.symm⟩
  by_cases hLast : max (Int.log 2 q - 52) (-1074) = max (Int.log 2 x - 52) (-1074)
  · have hUnit : lastPlace q = lastPlace x := by
      rw [lastPlace_of_pos hPos, lastPlace_of_pos hqPos, hLast]
    apply @toDouble_eq_of_places _ _ n
    · rw [hUnit]
      exact hn
    · rw [hUnit]
      exact hError
  · have hUnder : q < x := by
      by_contra hNot
      have hMono : Int.log 2 x ≤ Int.log 2 q := Int.log_mono_right hPos (not_lt.mp hNot)
      have hLog := log_le_of_near hPos hn hqPos hError
      omega
    -- the last place is halved below a power of two
    rcases power_of_near hPos hn hqPos hUnder hError hLast with ⟨hx, hHalf⟩
    apply @toDouble_eq_of_places _ _ (2 ^ 53)
    · rw [hHalf]
      push_cast
      linarith
    · rw [hHalf]
      linarith

end Doubles
