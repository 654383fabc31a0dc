import AccessLayer.Indexer.EventFields
import AccessLayer.Library.Numerals
import AccessLayer.Library.Table

/-
  Volume discount tiers
  (`src/modules/indexer/volume-discount-tier-indexer.service.ts`,
  `src/modules/traders/trader-discount.service.ts`,
  `prisma/schema/volume-discount.prisma`).

  A threshold is stored as `Decimal(30, 0)`.  The volume of the
  wallet is given.  Caches and logs are left out.

  Main result: `discount_correct_iff`
-/

-- Tier Events
----

namespace AccessLayer

namespace Traders

open Transactional Indexer

structure VolumeDiscountTier where
  tier : ℕ
  name : String
  volumeThreshold : ℕ
  discountBps : ℕ
  deriving DecidableEq

instance : Keyed VolumeDiscountTier ℕ where
  key row := row.tier

/- `none` for a field that is missing, or is not a number. -/
structure VolumeDiscountTierItem where
  tier : Option ℚ
  name : Option String
  volumeThreshold : Option RawField
  discountBps : Option ℚ
  feeBps : Option ℚ

/- The events of tiers; `tiers` is empty unless it is an array. -/
structure VolumeDiscountFields where
  tiers : List VolumeDiscountTierItem
  item : VolumeDiscountTierItem

abbrev VolumeDiscountTierChangedEvent := PipelineEvent VolumeDiscountFields

/- `BigInt` of a field; a blank text is zero. -/
def bigIntOf : RawField → Option ℤ
  | .text value => Governance.parseBigInt value
  | field => parseBigInt field

def naturalOf (value : ℚ) : Option ℕ :=
  if value.isInt ∧ 0 ≤ value then some value.num.toNat else none

/- The row of a valid item. -/
def tierOfItem (item : VolumeDiscountTierItem) : Option VolumeDiscountTier := do
  let tier ← item.tier.bind naturalOf
  let volumeThreshold ← (item.volumeThreshold.bind bigIntOf).filter (0 ≤ ·)
  let discount := item.discountBps <|> item.feeBps.map fun feeBps => max 0 (500 - feeBps)
  let discountBps ← (discount.bind naturalOf).filter (· ≤ 10000)
  return {
    tier
    name := item.name.getD ("TIER_" ++ toString tier)
    volumeThreshold := volumeThreshold.toNat
    discountBps }

def tierItems (fields : VolumeDiscountFields) : Option (List VolumeDiscountTier) :=
  if fields.tiers = [] then (tierOfItem fields.item).map fun row => [row]
  else fields.tiers.mapM tierOfItem

/- `none` where a column overflows, and the statement throws. -/
def upsertTier (table : Table VolumeDiscountTier) (row : VolumeDiscountTier) :
    Option (Table VolumeDiscountTier) :=
  if row.tier < 2 ^ 31 ∧ row.volumeThreshold < 10 ^ 30 then some (table.put row) else none

def processTierEvent (table : Table VolumeDiscountTier) (event : VolumeDiscountTierChangedEvent) :
    Option (Table VolumeDiscountTier) :=
  if event.eventType ∈ volumeDiscountEventTypes then
    ((tierItems event.payload).getD []).foldlM upsertTier table
  else some table

def processVolumeDiscountTierEvents (events : List VolumeDiscountTierChangedEvent)
    (table : Table VolumeDiscountTier) : Option (Table VolumeDiscountTier) :=
  (PipelineEvent.dedupe events).foldlM processTierEvent table

-- Selection
----

/- `toString` of a decimal, in exponent notation from 1e21 on. -/
def decimalText (n : ℕ) : List Char :=
  let digits := Nat.toDigits 10 n
  if n < 10 ^ 21 then digits
  else
    Doubles.mantissa (digits.rdropWhile (· = '0')) ++
      'e' :: '+' :: Nat.toDigits 10 (digits.length - 1)

/- `BigInt` of a text that has no blanks, no sign and no prefix. -/
def bigIntOfDigits (text : List Char) : Option ℕ :=
  if text.all Char.isDigit then some (Nat.ofDigitChars 10 text 0) else none

/- An order in which the database may list the tiers. -/
structure HighestFirst where
  list : List VolumeDiscountTier → List VolumeDiscountTier
  perm : ∀ rows, (list rows).Perm rows
  sorted : ∀ rows, (list rows).Pairwise fun a b => b.volumeThreshold ≤ a.volumeThreshold

/- Tiers with one threshold in the order in which they are stored. -/
def byThreshold : HighestFirst where
  list rows := rows.insertionSort fun a b => b.volumeThreshold ≤ a.volumeThreshold
  perm := List.perm_insertionSort _
  sorted rows := by
    have : Std.Total fun a b : VolumeDiscountTier => b.volumeThreshold ≤ a.volumeThreshold :=
      ⟨fun a b => le_total b.volumeThreshold a.volumeThreshold⟩
    have : IsTrans VolumeDiscountTier fun a b => b.volumeThreshold ≤ a.volumeThreshold :=
      ⟨fun _ _ _ hb ha => ha.trans hb⟩
    exact List.pairwise_insertionSort _ _

def DEFAULT_DISCOUNT_TIERS : List VolumeDiscountTier :=
  [⟨0, "TIER_0", 0, 0⟩, ⟨1, "TIER_1", 1000000000000, 100⟩, ⟨2, "TIER_2", 5000000000000, 200⟩]

variable (order : HighestFirst) (table : Table VolumeDiscountTier) (volume30d : ℕ)

def getVolumeDiscountTiers : List VolumeDiscountTier :=
  if table.rows = [] then
    DEFAULT_DISCOUNT_TIERS.insertionSort fun a b => b.volumeThreshold ≤ a.volumeThreshold
  else order.list table.rows

/- The first tier that the volume reaches; `none` if `BigInt` throws. -/
def findTier : List VolumeDiscountTier → Option (Option VolumeDiscountTier)
  | [] => some none
  | t :: tiers => do
    let threshold ← bigIntOfDigits (decimalText t.volumeThreshold)
    if threshold ≤ volume30d then return some t else findTier tiers

structure TraderDiscount where
  tier : ℕ
  tierLabel : String
  discountBps : ℕ
  volume30d : ℕ

def getTraderDiscount : Option TraderDiscount := do
  let tiers := getVolumeDiscountTiers order table
  let found ← findTier volume30d tiers
  let matched ← found <|> tiers.getLast? <|> DEFAULT_DISCOUNT_TIERS.head?
  return ⟨matched.tier, matched.name, matched.discountBps, volume30d⟩

/-
  The discount of a stored tier with the highest threshold that
  the volume reaches is applied, and none below all thresholds.
-/
def DiscountCorrect : Prop :=
  ∃ result, getTraderDiscount order table volume30d = some result ∧
    ((∃ row ∈ table.rows, row.volumeThreshold ≤ volume30d ∧
      (∀ other ∈ table.rows, other.volumeThreshold ≤ volume30d →
        other.volumeThreshold ≤ row.volumeThreshold) ∧
      result.tier = row.tier ∧ result.discountBps = row.discountBps) ∨
      (∀ row ∈ table.rows, volume30d < row.volumeThreshold) ∧ result.discountBps = 0)

-- Correct Discounts
----

/- A threshold is read back, unless it is written with an exponent. -/
theorem bigIntOfDigits_decimalText (n : ℕ) :
    bigIntOfDigits (decimalText n) = if n < 10 ^ 21 then some n else none := by
  unfold decimalText bigIntOfDigits
  dsimp only
  split_ifs with hPlain hDigits hDigits
  · rw [Nat.ofDigitChars_toDigits (by decide) (by decide)]
  · refine absurd (List.all_eq_true.mpr fun c hc => ?_) hDigits
    exact Nat.isDigit_of_mem_toDigits (by decide) (by decide) hc
  · have hExponent := List.all_eq_true.mp hDigits 'e' (by simp)
    cases hExponent
  · rfl

variable {order table volume30d} {tiers : List VolumeDiscountTier}

/- A threshold that is too large is met first. -/
theorem findTier_eq (hSorted : tiers.Pairwise fun a b => b.volumeThreshold ≤ a.volumeThreshold) :
    findTier volume30d tiers =
      if ∀ t ∈ tiers, t.volumeThreshold < 10 ^ 21 then
        some (tiers.find? (·.volumeThreshold ≤ volume30d))
      else none := by
  induction tiers with
  | nil => rfl
  | cons t tiers ih =>
    rcases List.pairwise_cons.mp hSorted with ⟨hFirst, hRest⟩
    rw [findTier, bigIntOfDigits_decimalText]
    by_cases hPlain : t.volumeThreshold < 10 ^ 21
    · have hAll : ∀ other ∈ tiers, other.volumeThreshold < 10 ^ 21 := fun other hOther =>
        (hFirst other hOther).trans_lt hPlain
      have hBoth : ∀ other ∈ t :: tiers, other.volumeThreshold < 10 ^ 21 :=
        List.forall_mem_cons.mpr ⟨hPlain, hAll⟩
      rw [if_pos hPlain, if_pos hBoth]
      rw [if_pos hAll] at ih
      by_cases hReached : t.volumeThreshold ≤ volume30d
      · simp [hReached]
      · simpa [hReached] using ih hRest
    · rw [if_neg hPlain, if_neg fun hAll => hPlain (hAll t List.mem_cons_self)]
      rfl

theorem find?_highest (hSorted : tiers.Pairwise fun a b => b.volumeThreshold ≤ a.volumeThreshold)
    {t : VolumeDiscountTier} (hFound : tiers.find? (·.volumeThreshold ≤ volume30d) = some t) :
    t ∈ tiers ∧ t.volumeThreshold ≤ volume30d ∧ ∀ other ∈ tiers,
      other.volumeThreshold ≤ volume30d → other.volumeThreshold ≤ t.volumeThreshold := by
  rcases List.find?_eq_some_iff_append.mp hFound with ⟨hReached, before, after, rfl, hBefore⟩
  refine ⟨by simp, of_decide_eq_true hReached, ?_⟩
  intro other hOther hLe
  rcases List.mem_append.mp hOther with hEarly | hLate
  · simpa [hLe] using hBefore other hEarly
  · rcases List.mem_cons.mp hLate with rfl | hAfter
    · exact le_rfl
    · exact (List.pairwise_cons.mp (List.pairwise_append.mp hSorted).2.1).1 other hAfter

theorem getTraderDiscount_default (hNone : table.rows = []) :
    ∃ result, getTraderDiscount order table volume30d = some result ∧
      (result.discountBps = 0 ↔ volume30d < 1000000000000) := by
  have hTiers : getVolumeDiscountTiers order table = DEFAULT_DISCOUNT_TIERS.reverse := by
    rw [getVolumeDiscountTiers, if_pos hNone]
    decide
  have hFind := @findTier_eq volume30d DEFAULT_DISCOUNT_TIERS.reverse (by decide)
  rw [if_pos (by decide)] at hFind
  rw [getTraderDiscount, hTiers, hFind]
  by_cases hTop : 5000000000000 ≤ volume30d
  · exact ⟨⟨2, "TIER_2", 200, volume30d⟩, by simp [DEFAULT_DISCOUNT_TIERS, hTop],
      by simp; omega⟩
  · by_cases hNext : 1000000000000 ≤ volume30d
    · exact ⟨⟨1, "TIER_1", 100, volume30d⟩, by simp [DEFAULT_DISCOUNT_TIERS, hTop, hNext],
        by simpa using hNext⟩
    · exact ⟨⟨0, "TIER_0", 0, volume30d⟩, by simp [DEFAULT_DISCOUNT_TIERS, hTop, hNext],
        by simpa using hNext⟩

/-
  No threshold is large enough to be written with an exponent, and
  the volume reaches one or the last tier grants nothing; without
  tiers, the volume grants nothing by default.
-/
theorem discount_correct_iff (order : HighestFirst) (table : Table VolumeDiscountTier)
    (volume30d : ℕ) :
    DiscountCorrect order table volume30d ↔
      table.rows = [] ∧ volume30d < 1000000000000 ∨
        table.rows ≠ [] ∧ (∀ row ∈ table.rows, row.volumeThreshold < 10 ^ 21) ∧
          ((∃ row ∈ table.rows, row.volumeThreshold ≤ volume30d) ∨
            (order.list table.rows).getLast?.any (·.discountBps = 0)) := by
  by_cases hNone : table.rows = []
  · rcases @getTraderDiscount_default order table volume30d hNone with ⟨result, hResult, hZero⟩
    simp [DiscountCorrect, hResult, hNone, hZero]
  · have hMem (row : VolumeDiscountTier) : row ∈ order.list table.rows ↔ row ∈ table.rows :=
      (order.perm _).mem_iff
    have hTiers : getVolumeDiscountTiers order table = order.list table.rows := if_neg hNone
    have hSorted := order.sorted table.rows
    have hFind := @findTier_eq volume30d _ hSorted
    simp only [hMem] at hFind
    by_cases hPlain : ∀ row ∈ table.rows, row.volumeThreshold < 10 ^ 21
    · rw [if_pos hPlain] at hFind
      cases hFound : (order.list table.rows).find? (·.volumeThreshold ≤ volume30d) with
      | some t =>
        rcases find?_highest hSorted hFound with ⟨hStored, hReached, hHighest⟩
        simp only [hMem] at hStored hHighest
        have hResult : getTraderDiscount order table volume30d =
            some ⟨t.tier, t.name, t.discountBps, volume30d⟩ := by
          simp [getTraderDiscount, hTiers, hFind, hFound]
        constructor
        · intro _
          exact .inr ⟨hNone, hPlain, .inl ⟨t, hStored, hReached⟩⟩
        · intro _
          exact ⟨_, hResult, .inl ⟨t, hStored, hReached, hHighest, rfl, rfl⟩⟩
      | none =>
        have hAbove : ∀ row ∈ table.rows, volume30d < row.volumeThreshold := by
          simpa [hMem] using hFound
        have hBelow : ¬∃ row ∈ table.rows, row.volumeThreshold ≤ volume30d := by
          rintro ⟨row, hRow, hLe⟩
          exact (hAbove row hRow).not_ge hLe
        have hListed : order.list table.rows ≠ [] := fun hNil =>
          hNone (List.nil_perm.mp (hNil ▸ order.perm table.rows))
        have hLast := List.getLast?_eq_some_getLast hListed
        have hResult : (getTraderDiscount order table volume30d).map TraderDiscount.discountBps =
            some ((order.list table.rows).getLast hListed).discountBps := by
          simp [getTraderDiscount, hTiers, hFind, hFound, hLast]
        rcases Option.map_eq_some_iff.mp hResult with ⟨result, hResult, hDiscount⟩
        simp only [DiscountCorrect, hResult, hLast, Option.any_some, decide_eq_true_eq, hBelow,
          Option.some.injEq, exists_eq_left', false_or, hNone, false_and, ← hDiscount]
        constructor
        · rintro (⟨row, hRow, hLe, -⟩ | ⟨-, hZero⟩)
          · exact absurd ⟨row, hRow, hLe⟩ hBelow
          · exact ⟨hNone, hPlain, hZero⟩
        · rintro ⟨-, -, hZero⟩
          exact .inr ⟨hAbove, hZero⟩
    · rw [if_neg hPlain] at hFind
      have hThrows : getTraderDiscount order table volume30d = none := by
        rw [getTraderDiscount, hTiers, hFind]
        rfl
      constructor
      · rintro ⟨result, hResult, -⟩
        cases hThrows.symm.trans hResult
      · rintro (⟨hEmpty, -⟩ | ⟨-, hAll, -⟩)
        · exact absurd hEmpty hNone
        · exact absurd hAll hPlain

/- Two tiers, the lower one first. -/
def twoTiers : Table VolumeDiscountTier where
  rows := [⟨1, "TIER_1", 1000, 100⟩, ⟨2, "TIER_2", 5000, 200⟩]
  unique := by decide

/- A volume between the two is given the lower one. -/
theorem discount_correct_sample :
    (getTraderDiscount byThreshold twoTiers 3000).map TraderDiscount.tier = some 1 ∧
      DiscountCorrect byThreshold twoTiers 3000 :=
  ⟨by decide +kernel, (discount_correct_iff byThreshold twoTiers 3000).mpr
    (.inr ⟨by decide, by decide, .inl ⟨_, List.mem_cons_self, by decide⟩⟩)⟩

def firstTier : VolumeDiscountTierChangedEvent where
  toIndexerChainEvent := bareEvent "VolumeDiscountTierChanged" "t" 0 1
  payload :=
    { tiers := []
      item := ⟨some 1, none, some (.text "1000000000000"), some 100, none⟩ }

/- A wallet that never traded gets the discount of the only tier. -/
theorem untraded_wallet_discounted :
    ∃ table, processVolumeDiscountTierEvents [firstTier] .empty = some table ∧
      ∀ order, ¬DiscountCorrect order table 0 := by
  have hStored : (processVolumeDiscountTierEvents [firstTier] .empty).map Table.rows =
      some [⟨1, "TIER_1", 1000000000000, 100⟩] := by decide +kernel
  rcases Option.map_eq_some_iff.mp hStored with ⟨table, hTable, hRows⟩
  refine ⟨table, hTable, ?_⟩
  rintro order ⟨result, hResult, hCase⟩
  have hList := List.perm_singleton.mp (order.perm [⟨1, "TIER_1", 1000000000000, 100⟩])
  simp [getTraderDiscount, getVolumeDiscountTiers, hRows, hList, findTier,
    bigIntOfDigits_decimalText] at hResult
  subst hResult
  simp [hRows] at hCase

end Traders

end AccessLayer
