import AccessLayer.Library.Doubles
import Mathlib.Data.List.Range
import Mathlib.Data.List.TakeWhile

/-
  Numbers as text, the way ECMAScript writes and reads them.

  A number is written with the fewest digits that are rounded to
  it, in exponent notation if it is very small or has more than
  21 digits before the point.  `parseInt` reads the digits before
  anything else.

  `toDouble_decimalOf`: what is written is rounded to the number.
  `parseInt_numberText`: an integer is read as it was written.

  `number` names a number by the decimal it is written in, and
  `add`, `sub`, `mul` and `div` compute with such names.
  `foldl_add`: a sum that is never rounded is the exact one.
-/

-- Texts
----

namespace Doubles

/- The place of the first digit of a positive number. -/
def place (x : ℚ) : ℤ := Int.log 10 x + 1

/- What `k` digits stand for at the place of `x`. -/
def decimal (x : ℚ) (k : ℕ) (digits : ℤ) : ℚ := digits * 10 ^ (place x - k)

/- The closest digits, and those on both sides. -/
def closeDigits (x : ℚ) (k : ℕ) : List ℤ :=
  let scaled := x * 10 ^ (k - place x)
  [roundHalfEven scaled, ⌊scaled⌋, ⌊scaled⌋ + 1]

def numerals (x : ℚ) : List (ℕ × ℤ) :=
  (List.range' 1 17).flatMap fun k => (closeDigits x k).map (k, ·)

/- The fewest digits that are rounded to a positive number. -/
def shortest (x : ℚ) : ℕ × ℤ :=
  ((numerals x).find? fun numeral => toDouble (decimal x numeral.1 numeral.2) = x).getD
    (17, roundHalfEven (x * 10 ^ (17 - place x)))

/- The mantissa of exponent notation. -/
def mantissa : List Char → List Char
  | d :: e :: rest => d :: '.' :: e :: rest
  | digits => digits

def exponentText (n : ℤ) : List Char :=
  'e' :: (if n < 0 then '-' else '+') :: Nat.toDigits 10 n.natAbs

/- Exponent notation has the point after the first digit. -/
def scientific (digits : List Char) (n : ℤ) : List Char := mantissa digits ++ exponentText (n - 1)

/- Digits, how many they are, and where the point comes. -/
def layout (digits : List Char) (k : ℕ) (n : ℤ) : List Char :=
  if k ≤ n ∧ n ≤ 21 then
    digits ++ List.replicate (n - k).toNat '0'
  else if 0 < n ∧ n ≤ 21 then
    digits.take n.toNat ++ '.' :: digits.drop n.toNat
  else if -6 < n ∧ n ≤ 0 then
    '0' :: '.' :: (List.replicate (-n).toNat '0' ++ digits)
  else scientific digits n

/- The digits of a positive number, how many they are, and where the point comes. -/
def significant (x : ℚ) : ℕ × ℕ × ℤ :=
  let numeral := shortest x
  if numeral.2 = 10 ^ numeral.1 then (1, 1, place x + 1)
  else (numeral.2.toNat, numeral.1, place x)

def positiveText (x : ℚ) : List Char :=
  let (digits, k, n) := significant x
  layout (Nat.toDigits 10 digits) k n

def numberText (x : ℚ) : List Char :=
  if x = 0 then ['0']
  else if x < 0 then '-' :: positiveText (-x)
  else positiveText x

def digitsValue (text : List Char) : Option ℕ :=
  let digits := text.takeWhile Char.isDigit
  if digits = [] then none
  else some (Nat.ofDigitChars 10 digits 0)

/- Numbers that are too large are infinite. -/
def isFiniteNumber (q : ℚ) : Bool := |q| < 2 ^ 1024

/- The integer that a text begins with, in decimal. -/
def parseInt (isSpace : Char → Bool) (text : List Char) : Option ℤ :=
  match text.dropWhile isSpace with
  | '-' :: rest => (digitsValue rest).map fun n => -(n : ℤ)
  | '+' :: rest => (digitsValue rest).map Int.ofNat
  | rest => (digitsValue rest).map Int.ofNat

example : numberText (1 / 2) = ['0', '.', '5'] := by
  decide +kernel

example : numberText (toNumber (10 ^ 23)) = ['1', 'e', '+', '2', '3'] := by
  decide +kernel

-- Integers
----

variable {n : ℕ}

/- Integers of at most 53 bits are numbers. -/
theorem toNumber_natCast (hn : n < 2 ^ 53) : toNumber n = n := by
  rcases Nat.eq_zero_or_pos n with rfl | hPos
  · exact if_pos rfl
  · have hLog : Nat.log 2 n ≤ 52 := Nat.le_of_lt_succ (Nat.log_lt_of_lt_pow hPos.ne' hn)
    have hUnit : unitInLastPlace n = (2 ^ (52 - Nat.log 2 n) : ℚ)⁻¹ := by
      unfold unitInLastPlace
      rw [abs_of_nonneg (Nat.cast_nonneg n), Int.log_natCast, ← zpow_natCast, ← zpow_neg]
      congr 1
      omega
    have hScaled : (n : ℚ) / unitInLastPlace n =
        ((n * 2 ^ (52 - Nat.log 2 n) : ℤ) : ℚ) := by
      rw [hUnit, div_inv_eq_mul]
      push_cast
      rfl
    have hNonzero : unitInLastPlace n ≠ 0 := (unitInLastPlace_pos n).ne'
    rw [toNumber, if_neg (by exact_mod_cast hPos.ne'), hScaled,
      roundHalfEven_intCast, ← hScaled, div_mul_cancel₀ _ hNonzero]

theorem toNumber_two_pow : toNumber (2 ^ 53) = 2 ^ 53 := by
  decide +kernel

/- Only an integer of 53 bits itself is rounded to it. -/
theorem eq_of_toNumber_eq {m : ℤ} (hPos : 0 < n) (hn : n < 2 ^ 53) (hRound : toNumber m = n) :
    m = n := by
  have hPositive : 0 < m := by
    by_contra hNot
    have hLe : toNumber m ≤ toNumber 0 := toNumber_mono (by exact_mod_cast not_lt.mp hNot)
    rw [hRound, show toNumber 0 = 0 from if_pos rfl] at hLe
    exact absurd hLe (not_le.mpr (by exact_mod_cast hPos))
  obtain ⟨k, rfl⟩ := Int.eq_ofNat_of_zero_le hPositive.le
  have hSmall : k < 2 ^ 53 := by
    by_contra hLarge
    have hLe : toNumber (2 ^ 53) ≤ toNumber (k : ℤ) :=
      toNumber_mono (by exact_mod_cast not_lt.mp hLarge)
    rw [hRound, toNumber_two_pow] at hLe
    have hNat : 2 ^ 53 ≤ n := by exact_mod_cast hLe
    omega
  have hSame : ((k : ℕ) : ℚ) = n := by
    rw [← toNumber_natCast hSmall]
    exact_mod_cast hRound
  exact_mod_cast hSame

theorem place_natCast (n : ℕ) : place n = (Nat.log 10 n + 1 : ℕ) := by
  unfold place
  rw [Int.log_natCast]
  rfl

/- Shorter numerals come first. -/
theorem pairwise_numerals (x : ℚ) : (numerals x).Pairwise fun a b => a.1 ≤ b.1 := by
  unfold numerals
  rw [List.pairwise_flatMap]
  constructor
  · intro k _
    rw [List.pairwise_map]
    exact List.pairwise_of_forall fun _ _ => le_rfl
  · refine (List.pairwise_le_range' (s := 1) (n := 17)).imp ?_
    intro k l hLe a ha b hb
    rcases List.mem_map.mp ha with ⟨_, -, rfl⟩
    rcases List.mem_map.mp hb with ⟨_, -, rfl⟩
    exact hLe

theorem mem_numerals_natCast (hn : n < 2 ^ 53) : (Nat.log 10 n + 1, (n : ℤ)) ∈ numerals n := by
  have hLog : Nat.log 10 n < 16 := by
    rcases Nat.eq_zero_or_pos n with rfl | hPos
    · simp
    · exact Nat.log_lt_of_lt_pow hPos.ne' (hn.trans (by norm_num))
  refine List.mem_flatMap.mpr ⟨Nat.log 10 n + 1, ?_, List.mem_map.mpr ⟨n, ?_, rfl⟩⟩
  · rw [List.mem_range'_1]
    omega
  · unfold closeDigits
    rw [place_natCast, sub_self, zpow_zero, mul_one, ← Int.cast_natCast]
    exact List.mem_cons.mpr (.inl (roundHalfEven_intCast n).symm)

/- The digits of an integer, when it is written. -/
theorem shortest_natCast (hPos : 0 < n) (hn : n < 2 ^ 53) :
    ∃ (k : ℕ) (digits : ℕ), shortest n = (k, (digits : ℤ)) ∧ k ≤ Nat.log 10 n + 1 ∧
      digits * 10 ^ (Nat.log 10 n + 1 - k) = n := by
  have hWhole := mem_numerals_natCast hn
  have hExact : toDouble (decimal n (Nat.log 10 n + 1) n) = n := by
    unfold decimal
    rw [place_natCast, sub_self, zpow_zero, mul_one, toDouble_intCast, Int.cast_natCast]
    exact toNumber_natCast hn
  cases hFind : (numerals n).find? fun numeral => toDouble (decimal n numeral.1 numeral.2) = n with
  | none =>
    rw [List.find?_eq_none] at hFind
    have hNot := hFind _ hWhole
    simp [hExact] at hNot
  | some numeral =>
    rcases numeral with ⟨k, digits⟩
    rcases List.find?_eq_some_iff_append.mp hFind with ⟨hRound, before, after, hSplit, hBefore⟩
    have hShort : k ≤ Nat.log 10 n + 1 := by
      rw [hSplit] at hWhole
      rcases List.mem_append.mp hWhole with hEarly | hHere
      · have hNot := hBefore _ hEarly
        simp [hExact] at hNot
      · have hSorted := pairwise_numerals (n : ℚ)
        rw [hSplit] at hSorted
        rcases List.mem_cons.mp hHere with hEq | hLate
        · rw [Prod.mk.injEq] at hEq
          exact hEq.1.ge
        · exact (List.pairwise_cons.mp (List.pairwise_append.mp hSorted).2.1).1 _ hLate
    have hValue : decimal n k digits =
        ((digits * 10 ^ (Nat.log 10 n + 1 - k) : ℤ) : ℚ) := by
      unfold decimal
      rw [place_natCast]
      push_cast
      congr 1
      rw [← zpow_natCast]
      congr 1
      omega
    have hSame : digits * 10 ^ (Nat.log 10 n + 1 - k) = (n : ℤ) := by
      apply eq_of_toNumber_eq hPos hn
      rw [← toDouble_intCast, ← hValue]
      exact of_decide_eq_true hRound
    have hNonneg : 0 ≤ digits := by
      by_contra hNegative
      have hProduct : digits * 10 ^ (Nat.log 10 n + 1 - k) ≤ 0 :=
        mul_nonpos_of_nonpos_of_nonneg (not_le.mp hNegative).le (by positivity)
      omega
    obtain ⟨digits, rfl⟩ := Int.eq_ofNat_of_zero_le hNonneg
    refine ⟨k, digits, ?_, hShort, by exact_mod_cast hSame⟩
    unfold shortest
    rw [hFind]
    rfl

/- An integer is written in its digits. -/
theorem numberText_natCast (hn : n < 2 ^ 53) :
    ∃ digits zeros : ℕ, numberText n = Nat.toDigits 10 digits ++ List.replicate zeros '0' ∧
      digits * 10 ^ zeros = n := by
  rcases Nat.eq_zero_or_pos n with rfl | hPos
  · exact ⟨0, 0, rfl, rfl⟩
  · rcases shortest_natCast hPos hn with ⟨k, digits, hShortest, hShort, hValue⟩
    have hLog : Nat.log 10 n < 16 := Nat.log_lt_of_lt_pow hPos.ne' (hn.trans (by norm_num))
    have hNotPower : (digits : ℤ) ≠ 10 ^ k := by
      intro hPower
      have hDigits : digits = 10 ^ k := by exact_mod_cast hPower
      rw [hDigits, ← pow_add, Nat.add_sub_cancel' hShort] at hValue
      have hAbove := Nat.lt_pow_succ_log_self (by decide : 1 < 10) n
      omega
    refine ⟨digits, Nat.log 10 n + 1 - k, ?_, hValue⟩
    have hNonzero : (n : ℚ) ≠ 0 := by exact_mod_cast hPos.ne'
    have hNonneg : ¬(n : ℚ) < 0 := not_lt.mpr (Nat.cast_nonneg n)
    rw [numberText, if_neg hNonzero, if_neg hNonneg, positiveText, significant, hShortest]
    rw [if_neg hNotPower, place_natCast]
    dsimp only
    rw [layout, if_pos]
    · rw [Int.toNat_natCast]
      congr 2
      omega
    · constructor
      · exact_mod_cast hShort
      · have hPlace : Nat.log 10 n + 1 ≤ 21 := by omega
        exact_mod_cast hPlace

theorem isDigit_of_mem_numberText {c : Char} (hn : n < 2 ^ 53) (hc : c ∈ numberText n) :
    c.isDigit = true := by
  rcases numberText_natCast hn with ⟨digits, zeros, hText, -⟩
  rw [hText] at hc
  rcases List.mem_append.mp hc with hDigit | hZero
  · exact Nat.isDigit_of_mem_toDigits (by decide) (by decide) hDigit
  · rw [List.eq_of_mem_replicate hZero]
    decide

/- An integer is read as it was written. -/
theorem parseInt_numberText {isSpace : Char → Bool}
    (hSpace : ∀ c, c.isDigit = true → isSpace c = false) (hn : n < 2 ^ 53) :
    parseInt isSpace (numberText n) = some (n : ℤ) := by
  have hDigits : ∀ c ∈ numberText n, c.isDigit = true := fun _ hc => isDigit_of_mem_numberText hn hc
  rcases numberText_natCast hn with ⟨digits, zeros, hText, hValue⟩
  have hRead : digitsValue (numberText n) = some n := by
    have hAll : (numberText n).takeWhile Char.isDigit = numberText n :=
      List.takeWhile_eq_self_iff.mpr hDigits
    unfold digitsValue
    rw [hAll, if_neg]
    · rw [hText, Nat.ofDigitChars_append, Nat.ofDigitChars_ten_toDigits,
        Nat.ofDigitChars_replicate_zero, Nat.mul_comm, hValue]
    · rw [hText]
      exact fun h => Nat.toDigits_ne_nil (List.append_eq_nil_iff.mp h).1
  cases hHead : numberText n with
  | nil =>
    rw [hHead] at hRead
    cases hRead
  | cons d rest =>
    have hDigit : d.isDigit = true := hDigits d (hHead ▸ List.mem_cons_self)
    have hMinus : d ≠ '-' := by
      rintro rfl
      cases hDigit
    have hPlus : d ≠ '+' := by
      rintro rfl
      cases hDigit
    rw [hHead] at hRead
    unfold parseInt
    rw [List.dropWhile_cons_of_neg (by simp [hSpace d hDigit])]
    split
    · rename_i hEq
      exact absurd (List.cons.inj hEq).1 hMinus
    · rename_i hEq
      exact absurd (List.cons.inj hEq).1 hPlus
    · rw [hRead]
      rfl

-- Decimals
----

variable {x : ℚ}

/- The leading digit is not a zero. -/
theorem digits_of_mem {k : ℕ} {digits : ℤ} (hPos : 0 < x) (hk : 1 ≤ k)
    (hDigits : digits ∈ closeDigits x k) : 10 ^ (k - 1) ≤ digits ∧ digits ≤ 10 ^ k := by
  have hLow : (10 : ℚ) ^ (place x - 1) ≤ x := by
    unfold place
    rw [add_sub_cancel_right]
    exact_mod_cast Int.zpow_log_le_self (by decide : 1 < 10) hPos
  have hHigh : x < (10 : ℚ) ^ place x := by
    unfold place
    exact_mod_cast Int.lt_zpow_succ_log_self (by decide : 1 < 10) x
  have hScale : (0 : ℚ) < 10 ^ (k - place x) := zpow_pos (by norm_num) _
  have hFloor : 10 ^ (k - 1) ≤ ⌊x * 10 ^ (k - place x)⌋ := by
    rw [Int.le_floor]
    push_cast
    calc
      (10 : ℚ) ^ (k - 1) = 10 ^ (place x - 1) * 10 ^ (k - place x) := by
        rw [← zpow_natCast, ← zpow_add₀ (by norm_num)]
        congr 1
        omega
      _ ≤ x * 10 ^ (k - place x) := mul_le_mul_of_nonneg_right hLow hScale.le
  have hAbove : ⌊x * 10 ^ (k - place x)⌋ < 10 ^ k := by
    rw [Int.floor_lt]
    push_cast
    calc
      x * 10 ^ (k - place x) < 10 ^ place x * 10 ^ (k - place x) :=
        mul_lt_mul_of_pos_right hHigh hScale
      _ = (10 : ℚ) ^ k := by
        rw [← zpow_natCast, ← zpow_add₀ (by norm_num)]
        congr 1
        omega
  have hRound := floor_le_roundHalfEven (x * 10 ^ (k - place x))
  have hRound' := roundHalfEven_le (x * 10 ^ (k - place x))
  simp only [closeDigits, List.mem_cons, List.not_mem_nil, or_false] at hDigits
  omega

/- Seventeen digits are enough. -/
theorem toDouble_seventeen (hPos : 0 < x) (hDouble : toDouble x = x) :
    toDouble (decimal x 17 (roundHalfEven (x * 10 ^ (17 - place x)))) = x := by
  apply toDouble_eq_of_near hPos hDouble
  have hScale : (0 : ℚ) < 10 ^ (place x - 17) := zpow_pos (by norm_num) _
  have hBack : x = x * 10 ^ (17 - place x) * 10 ^ (place x - 17) := by
    rw [mul_assoc, ← zpow_add₀ (by norm_num), sub_add_sub_cancel, sub_self, zpow_zero, mul_one]
  have hError : decimal x 17 (roundHalfEven (x * 10 ^ (17 - place x))) - x =
      (roundHalfEven (x * 10 ^ (17 - place x)) - x * 10 ^ (17 - place x)) *
        10 ^ (place x - 17) := by
    rw [sub_mul, ← hBack]
    rfl
  have hClose := abs_roundHalfEven_sub_le (x * 10 ^ (17 - place x))
  rw [hError, abs_mul, abs_of_pos hScale]
  calc
    |roundHalfEven (x * 10 ^ (17 - place x)) - x * 10 ^ (17 - place x)| *
      10 ^ (place x - 17) * (2 * 10 ^ 16)
    _ ≤ 1 / 2 * 10 ^ (place x - 17) * (2 * 10 ^ 16) := by
      gcongr
    _ = 10 ^ (place x - 1) := by
      rw [show place x - 1 = place x - 17 + 16 by ring, zpow_add₀ (by norm_num) (place x - 17)]
      norm_num
      ring
    _ ≤ x := by
      unfold place
      rw [add_sub_cancel_right]
      exact_mod_cast Int.zpow_log_le_self (by decide : 1 < 10) hPos

theorem shortest_spec (hPos : 0 < x) (hDouble : toDouble x = x) :
    ∃ (k : ℕ) (digits : ℤ), shortest x = (k, digits) ∧ (1 ≤ k ∧ k ≤ 17) ∧
      10 ^ (k - 1) ≤ digits ∧ digits ≤ 10 ^ k ∧ toDouble (decimal x k digits) = x := by
  unfold shortest
  cases hFind : (numerals x).find? fun numeral => toDouble (decimal x numeral.1 numeral.2) = x with
  | none =>
    have hBounds := @digits_of_mem _ 17 _ hPos (by decide) List.mem_cons_self
    exact ⟨17, _, rfl, by decide, hBounds.1, hBounds.2, toDouble_seventeen hPos hDouble⟩
  | some numeral =>
    rcases numeral with ⟨k, digits⟩
    rcases List.mem_flatMap.mp (List.mem_of_find?_eq_some hFind) with ⟨k', hk, hMem⟩
    rcases List.mem_map.mp hMem with ⟨digits', hDigits, hSame⟩
    cases hSame
    rw [List.mem_range'_1] at hk
    have hRange : 1 ≤ k ∧ k ≤ 17 := by omega
    have hBounds := digits_of_mem hPos hRange.1 hDigits
    have hRound := (List.find?_eq_some_iff_append.mp hFind).1
    exact ⟨k, digits, rfl, hRange, hBounds.1, hBounds.2, of_decide_eq_true hRound⟩

/- The digits that are written are rounded to the number. -/
theorem significant_spec (hPos : 0 < x) (hDouble : toDouble x = x) :
    ∃ (digits k : ℕ) (n : ℤ), significant x = (digits, k, n) ∧ 0 < digits ∧
      ((Nat.toDigits 10 digits).length = k ∧ k ≤ 17) ∧ toDouble (digits * 10 ^ (n - k)) = x := by
  rcases shortest_spec hPos hDouble with ⟨k, digits, hShortest, ⟨hk, hFew⟩, hLow, hHigh, hValue⟩
  unfold significant
  rw [hShortest]
  dsimp only
  by_cases hPower : digits = 10 ^ k
  · rw [if_pos hPower]
    refine ⟨1, 1, place x + 1, rfl, Nat.one_pos, ⟨rfl, by decide⟩, ?_⟩
    have hSame : ((1 : ℕ) : ℚ) * 10 ^ (place x + 1 - (1 : ℕ)) = decimal x k digits := by
      rw [decimal, hPower]
      push_cast
      rw [one_mul, add_sub_cancel_right, ← zpow_natCast, ← zpow_add₀ (by norm_num),
        add_sub_cancel]
    rw [hSame]
    exact hValue
  · rw [if_neg hPower]
    have hNonneg : 0 ≤ digits := le_trans (by positivity) hLow
    obtain ⟨digits, rfl⟩ := Int.eq_ofNat_of_zero_le hNonneg
    have hLow' : 10 ^ (k - 1) ≤ digits := by exact_mod_cast hLow
    have hHigh' : digits < 10 ^ k := by
      have hNot : digits ≠ 10 ^ k := by exact_mod_cast hPower
      have hLe : digits ≤ 10 ^ k := by exact_mod_cast hHigh
      omega
    refine ⟨digits, k, place x, rfl, (Nat.pow_pos (by decide)).trans_le hLow', ⟨?_, hFew⟩, hValue⟩
    apply le_antisymm ((Nat.length_toDigits_le_iff (by decide) hk).mpr hHigh')
    by_contra hShort
    rcases Nat.eq_zero_or_pos (k - 1) with hZero | hOne
    · have := @Nat.length_toDigits_pos 10 digits
      omega
    · have hLess := (@Nat.length_toDigits_le_iff 10 digits _ (by decide) hOne).mp (by omega)
      omega

/- Integers of up to 21 digits have no exponent. -/
def positiveDecimal (x : ℚ) : ℤ × ℤ :=
  let (digits, k, n) := significant x
  if k ≤ n ∧ n ≤ 21 then (digits * 10 ^ (n - k).toNat, 0) else (digits, n - k)

/- The mantissa and the exponent that a number is written with. -/
def decimalOf (x : ℚ) : ℤ × ℤ :=
  if x = 0 then (0, 0)
  else if x < 0 then (-(positiveDecimal (-x)).1, (positiveDecimal (-x)).2)
  else positiveDecimal x

theorem positiveDecimal_pos (hPos : 0 < x) (hDouble : toDouble x = x) :
    0 < (positiveDecimal x).1 := by
  rcases significant_spec hPos hDouble with ⟨digits, k, n, hSame, hDigits, -, -⟩
  unfold positiveDecimal
  rw [hSame]
  dsimp only
  split
  · exact mul_pos (Int.natCast_pos.mpr hDigits) (pow_pos (by decide) _)
  · exact Int.natCast_pos.mpr hDigits

theorem toDouble_positiveDecimal (hPos : 0 < x) (hDouble : toDouble x = x) :
    toDouble ((positiveDecimal x).1 * 10 ^ (positiveDecimal x).2) = x := by
  rcases significant_spec hPos hDouble with ⟨digits, k, n, hSame, -, -, hValue⟩
  unfold positiveDecimal
  rw [hSame]
  dsimp only
  split
  · rename_i hInteger
    rw [zpow_zero, mul_one]
    push_cast
    rw [← zpow_natCast, Int.toNat_of_nonneg (by omega)]
    exact hValue
  · exact hValue

/- A number is read as it was written. -/
theorem toDouble_decimalOf (hDouble : toDouble x = x) :
    toDouble ((decimalOf x).1 * 10 ^ (decimalOf x).2) = x := by
  unfold decimalOf
  split
  · rename_i hZero
    rw [hZero, Int.cast_zero, zero_mul, ← Int.cast_zero, toDouble_intCast]
    exact if_pos Int.cast_zero
  · rename_i hNonzero
    split
    · rename_i hNegative
      have hPos : 0 < -x := neg_pos.mpr hNegative
      have hMirrored := toDouble_positiveDecimal hPos (by rw [toDouble_neg, hDouble])
      dsimp only
      rw [Int.cast_neg, neg_mul, toDouble_neg, hMirrored, neg_neg]
    · rename_i hNonneg
      exact toDouble_positiveDecimal (lt_of_le_of_ne (not_lt.mp hNonneg) (Ne.symm hNonzero)) hDouble

-- Arithmetic
----

/- The number that a decimal is read as, named by the decimal it is written in. -/
def number (q : ℚ) : ℚ := (decimalOf (toDouble q)).1 * 10 ^ (decimalOf (toDouble q)).2

variable {y : ℚ}

@[simp] theorem toDouble_number (q : ℚ) : toDouble (number q) = toDouble q :=
  toDouble_decimalOf (toDouble_toDouble q)

@[simp] theorem number_number (q : ℚ) : number (number q) = number q := by
  unfold number
  rw [show toDouble ((decimalOf (toDouble q)).1 * 10 ^ (decimalOf (toDouble q)).2) = toDouble q from
    toDouble_number q]

theorem number_toDouble (q : ℚ) : number (toDouble q) = number q := by
  unfold number
  rw [toDouble_toDouble]

@[simp] theorem toDouble_zero : toDouble 0 = 0 := by
  rw [← Int.cast_zero, toDouble_intCast]
  exact if_pos Int.cast_zero

@[simp] theorem number_zero : number 0 = 0 := by
  rw [number, toDouble_zero, decimalOf, if_pos rfl, Int.cast_zero, zero_mul]

theorem number_neg (q : ℚ) : number (-q) = -number q := by
  unfold number
  rw [toDouble_neg]
  rcases lt_trichotomy (toDouble q) 0 with hNeg | hZero | hPos
  · rw [decimalOf, if_neg (neg_pos.mpr hNeg).ne', if_neg (neg_pos.mpr hNeg).not_gt, decimalOf,
      if_neg hNeg.ne, if_pos hNeg, Int.cast_neg, neg_mul, neg_neg]
  · rw [hZero, neg_zero, decimalOf, if_pos rfl, Int.cast_zero, zero_mul, neg_zero]
  · rw [decimalOf, if_neg (neg_lt_zero.mpr hPos).ne, if_pos (neg_lt_zero.mpr hPos), neg_neg,
      decimalOf, if_neg hPos.ne', if_neg hPos.not_gt, Int.cast_neg, neg_mul]

theorem number_nonneg {q : ℚ} (hNonneg : 0 ≤ q) : 0 ≤ number q := by
  unfold number decimalOf
  rcases (toDouble_nonneg hNonneg).eq_or_lt with hZero | hPos
  · rw [if_pos hZero.symm, Int.cast_zero, zero_mul]
  · rw [if_neg hPos.ne', if_neg hPos.not_gt]
    have hMantissa := (positiveDecimal_pos hPos (toDouble_toDouble q)).le
    exact mul_nonneg (by exact_mod_cast hMantissa) (zpow_nonneg (by norm_num) _)

/- Each result is rounded to a number. -/
protected def add (x y : ℚ) : ℚ := number (toDouble x + toDouble y)

protected def sub (x y : ℚ) : ℚ := number (toDouble x - toDouble y)

protected def mul (x y : ℚ) : ℚ := number (toDouble x * toDouble y)

protected def div (x y : ℚ) : ℚ := number (toDouble x / toDouble y)

/- Results are named by their decimals. -/
@[simp] theorem number_add (x y : ℚ) : number (Doubles.add x y) = Doubles.add x y := number_number _

@[simp] theorem number_sub (x y : ℚ) : number (Doubles.sub x y) = Doubles.sub x y := number_number _

@[simp] theorem number_div (x y : ℚ) : number (Doubles.div x y) = Doubles.div x y := number_number _

@[simp] theorem sub_number (x y : ℚ) : Doubles.sub (number x) y = Doubles.sub x y := by
  rw [Doubles.sub, Doubles.sub, toDouble_number]

protected theorem sub_eq_add_neg (x y : ℚ) : Doubles.sub x y = Doubles.add x (-y) := by
  rw [Doubles.sub, Doubles.add, toDouble_neg, sub_eq_add_neg]

protected theorem neg_div (x y : ℚ) : Doubles.div (-x) y = -Doubles.div x y := by
  rw [Doubles.div, Doubles.div, toDouble_neg, neg_div, number_neg]

protected theorem div_nonneg {x : ℚ} (hx : 0 ≤ x) (hy : 0 ≤ y) : 0 ≤ Doubles.div x y :=
  number_nonneg (div_nonneg (toDouble_nonneg hx) (toDouble_nonneg hy))

protected theorem add_zero (x : ℚ) : Doubles.add x 0 = number x := by
  rw [Doubles.add, toDouble_zero, Rat.add_zero, number_toDouble]

protected theorem zero_add (x : ℚ) : Doubles.add 0 x = number x := by
  rw [Doubles.add, toDouble_zero, Rat.zero_add, number_toDouble]

protected theorem sub_zero (x : ℚ) : Doubles.sub x 0 = number x := by
  rw [Doubles.sub, toDouble_zero, sub_eq_add_neg, neg_zero, Rat.add_zero, number_toDouble]

protected theorem zero_sub (x : ℚ) : Doubles.sub 0 x = -number x := by
  rw [Doubles.sub, toDouble_zero, sub_eq_add_neg, Rat.zero_add, number_neg, number_toDouble]

protected theorem mul_zero (x : ℚ) : Doubles.mul x 0 = 0 := by
  rw [Doubles.mul, toDouble_zero, Rat.mul_zero, number_zero]

/- Changes that are added to a total, one by one, without rounding. -/
def AddsUp (total : ℚ) : List ℚ → Prop
  | [] => True
  | change :: rest => Doubles.add total change = total + change ∧ AddsUp (total + change) rest

instance decidableAddsUp : ∀ total changes, Decidable (AddsUp total changes)
  | _, [] => inferInstanceAs (Decidable True)
  | total, change :: rest =>
    have := decidableAddsUp (total + change) rest
    inferInstanceAs (Decidable (_ ∧ _))

theorem foldl_add {total : ℚ} {changes : List ℚ} (hAdds : AddsUp total changes) :
    changes.foldl Doubles.add total = total + changes.sum := by
  induction changes generalizing total with
  | nil => exact (add_zero total).symm
  | cons change rest ih =>
    rw [List.foldl_cons, hAdds.1, ih hAdds.2, List.sum_cons, add_assoc]

end Doubles
