import AccessLayer.AutoInvest.RuleExecutions
import AccessLayer.Library.Numerals
import AccessLayer.Library.StepFunctions

/-
  Time-weighted average prices of creator keys
  (`src/modules/keys/key-twap.service.ts`).

  Times are milliseconds, and prices and spot prices are stroops.
  The table of prices is in any order.

  Main results: `twap_is_time_average`, `cached_twap_of_earliest_rows`
-/

-- Averages
----

namespace AccessLayer

namespace Keys

namespace KeyTwap

open StepFunctions

section

structure TwapSnapshotPoint where
  timestamp : ℤ
  price : ℤ

/- What the loop over the snapshots carries along. -/
structure Weighing where
  currentPrice : ℤ
  prevTimeMs : ℤ
  weightedSum : ℤ

/- The price so far is weighed up to the snapshot. -/
def Weighing.visit (w : Weighing) (snapshot : TwapSnapshotPoint) : Weighing where
  currentPrice := snapshot.price
  prevTimeMs := max w.prevTimeMs snapshot.timestamp
  weightedSum := w.weightedSum + w.currentPrice * max 0 (snapshot.timestamp - w.prevTimeMs)

/- The last price is weighed up to now. -/
def Weighing.total (w : Weighing) (nowMs : ℤ) : ℤ :=
  w.weightedSum + w.currentPrice * max 0 (nowMs - w.prevTimeMs)

/- By time, the earliest first. -/
def sortSnapshots (snapshots : List TwapSnapshotPoint) : List TwapSnapshotPoint :=
  snapshots.insertionSort fun a b => a.timestamp ≤ b.timestamp

/-
  The average of the prices that were carried forward.  There is
  always a current price, since the first snapshot gives one.
-/
def computeTwapFromSnapshots (priorPrice : Option ℤ) (snapshots : List TwapSnapshotPoint)
    (windowStartMs nowMs : ℤ) : Option ℤ :=
  let totalMs := nowMs - windowStartMs
  if totalMs ≤ 0 then none
  else
    match sortSnapshots snapshots with
    | [] => priorPrice
    | first :: rest =>
      let seed : Weighing :=
        { currentPrice := priorPrice.getD first.price
          prevTimeMs := windowStartMs
          weightedSum := 0 }
      let w := (first :: rest).foldl Weighing.visit seed
      -- `bigint` division drops the fraction
      some ((w.total nowMs).tdiv totalMs)

/- The price before the first of the snapshots. -/
noncomputable def seedPrice (priorPrice : Option ℤ)
    (snapshots : List TwapSnapshotPoint) : Option ℤ :=
  priorPrice.or ((snapshots.argmin TwapSnapshotPoint.timestamp).map TwapSnapshotPoint.price)

/- The integral of the step price over a period. -/
noncomputable def integral (seed : ℤ) (snapshots : List TwapSnapshotPoint)
    (startMs endMs : ℤ) : ℤ :=
  sumHeld TwapSnapshotPoint.timestamp TwapSnapshotPoint.price seed snapshots startMs endMs

/- The prices that an average is about. -/
def knownPrices (priorPrice : Option ℤ) (snapshots : List TwapSnapshotPoint) : List ℤ :=
  priorPrice.toList ++ snapshots.map TwapSnapshotPoint.price

variable {priorPrice : Option ℤ} {snapshots : List TwapSnapshotPoint} {startMs nowMs : ℤ}

theorem sum_eq_weighted (duration : ℤ) (price : ℤ) :
    duration.toNat • price = price * max 0 duration := by
  rw [nsmul_eq_mul, mul_comm, Int.ofNat_toNat, max_comm]

/- By induction on the snapshots in their order. -/
theorem total_foldl {w : Weighing}
    (hSorted : snapshots.Pairwise fun a b => a.timestamp < b.timestamp)
    (hEnd : ∀ snapshot ∈ snapshots, snapshot.timestamp ≤ nowMs) (hNow : w.prevTimeMs ≤ nowMs) :
    (snapshots.foldl Weighing.visit w).total nowMs = w.weightedSum +
      integral w.currentPrice snapshots w.prevTimeMs nowMs := by
  induction snapshots generalizing w with
  | nil =>
    unfold integral
    rw [sumHeld_nil, sum_eq_weighted]
    rfl
  | cons snapshot rest ih =>
    rcases List.pairwise_cons.mp hSorted with ⟨hFirst, hRest⟩
    have hSnapshot := hEnd snapshot List.mem_cons_self
    rw [List.foldl_cons, ih hRest (fun s hs => hEnd s (List.mem_cons_of_mem _ hs))
      (max_le hNow hSnapshot)]
    unfold integral
    rw [sumHeld_cons hFirst hSnapshot, sum_eq_weighted, ← add_assoc]
    rfl

theorem argmin_of_first {first : TwapSnapshotPoint} {ordered : List TwapSnapshotPoint}
    (hFirst : ∀ other ∈ ordered, first.timestamp < other.timestamp) :
    (first :: ordered).argmin TwapSnapshotPoint.timestamp = some first := by
  rw [List.argmin_cons]
  cases hMin : ordered.argmin TwapSnapshotPoint.timestamp with
  | none => rfl
  | some other =>
    have hLt := hFirst other (List.argmin_mem hMin)
    exact if_neg (not_lt.mpr hLt.le)

variable {snapshots' : List TwapSnapshotPoint}

/- The earliest does not depend on the order. -/
theorem argmin_perm (hDistinct :
    (snapshots.map TwapSnapshotPoint.timestamp).Nodup) (hPerm : snapshots.Perm snapshots') :
    snapshots.argmin TwapSnapshotPoint.timestamp =
      snapshots'.argmin TwapSnapshotPoint.timestamp := by
  cases hMin : snapshots.argmin TwapSnapshotPoint.timestamp with
  | none =>
    rw [List.argmin_eq_none.mp hMin] at hPerm
    rw [← hPerm.nil_eq]
    rfl
  | some first =>
    cases hMin' : snapshots'.argmin TwapSnapshotPoint.timestamp with
    | none =>
      rw [List.argmin_eq_none.mp hMin'] at hPerm
      rw [hPerm.eq_nil] at hMin
      cases hMin
    | some first' =>
      have hFirst := List.argmin_mem hMin
      have hFirst' := hPerm.mem_iff.mpr (List.argmin_mem hMin')
      have hLe := List.le_of_mem_argmin hFirst' hMin
      have hGe := List.le_of_mem_argmin (hPerm.mem_iff.mp hFirst) hMin'
      rw [List.inj_on_of_nodup_map hDistinct hFirst hFirst' (le_antisymm hLe hGe)]

variable {seed : ℤ}

/- Nor does the time average. -/
theorem integral_perm (hDistinct :
    (snapshots.map TwapSnapshotPoint.timestamp).Nodup) (hPerm : snapshots.Perm snapshots') :
    integral seed snapshots startMs nowMs = integral seed snapshots' startMs nowMs := by
  exact sumHeld_congr fun t _ _ => heldAt_perm hDistinct hPerm

theorem sortSnapshots_perm (snapshots : List TwapSnapshotPoint) :
    (sortSnapshots snapshots).Perm snapshots := by
  exact List.perm_insertionSort _ snapshots

/- Snapshots of different times are strictly ordered. -/
theorem sortSnapshots_pairwise (hDistinct : (snapshots.map TwapSnapshotPoint.timestamp).Nodup) :
    (sortSnapshots snapshots).Pairwise fun a b => a.timestamp < b.timestamp := by
  have hLe : (sortSnapshots snapshots).Pairwise fun a b => a.timestamp ≤ b.timestamp :=
    List.pairwise_insertionSort _ snapshots
  have hNe : (sortSnapshots snapshots).Pairwise fun a b =>
    a.timestamp ≠ b.timestamp := by
    rw [← List.pairwise_map]
    exact (((sortSnapshots_perm snapshots).map _).nodup_iff).mpr hDistinct
  exact (hLe.and hNe).imp fun h => lt_of_le_of_ne h.1 h.2

theorem nodup_of_pairwise (hSorted : snapshots.Pairwise fun a b => a.timestamp < b.timestamp) :
    (snapshots.map TwapSnapshotPoint.timestamp).Nodup := by
  rw [List.Nodup, List.pairwise_map]
  exact hSorted.imp fun hLt => hLt.ne

/- Without a price before the window, the first snapshot counts. -/
theorem seedPrice_eq {first : TwapSnapshotPoint} {rest : List TwapSnapshotPoint}
    (hSorted : (first :: rest).Pairwise fun a b => a.timestamp < b.timestamp)
    (hPerm : (first :: rest).Perm snapshots) :
    seedPrice priorPrice snapshots = some (priorPrice.getD first.price) := by
  unfold seedPrice
  rw [← argmin_perm (nodup_of_pairwise hSorted) hPerm,
    argmin_of_first (List.pairwise_cons.mp hSorted).1]
  cases priorPrice <;> rfl

/- An average is the integral over the time, without fraction. -/
theorem computeTwap_eq (hDistinct : (snapshots.map TwapSnapshotPoint.timestamp).Nodup)
    (hEnd : ∀ snapshot ∈ snapshots, snapshot.timestamp ≤ nowMs) (hTotal : startMs < nowMs) :
    computeTwapFromSnapshots priorPrice snapshots startMs nowMs =
      (seedPrice priorPrice snapshots).map fun seed => (integral seed snapshots startMs nowMs).tdiv
        (nowMs - startMs) := by
  have hPerm := sortSnapshots_perm snapshots
  have hSorted := sortSnapshots_pairwise hDistinct
  unfold computeTwapFromSnapshots
  rw [if_neg (by omega)]
  cases hOrdered : sortSnapshots snapshots with
  | nil =>
    rw [hOrdered] at hPerm
    rw [← hPerm.nil_eq]
    cases priorPrice with
    | none => rfl
    | some price =>
      have hLength : (nowMs - startMs).toNat • price = price * (nowMs - startMs) := by
        rw [sum_eq_weighted, max_eq_right (by omega)]
      simp only [seedPrice, integral, sumHeld_nil, hLength, Option.some_or, Option.map_some]
      rw [Int.mul_tdiv_cancel _ (by omega)]
  | cons first rest =>
    rw [hOrdered] at hPerm hSorted
    have hSeed := @seedPrice_eq priorPrice _ _ _ hSorted hPerm
    have hTotalEq := total_foldl (w := ⟨priorPrice.getD first.price, startMs, 0⟩) hSorted
        (fun s hs => hEnd s (hPerm.mem_iff.mp hs)) hTotal.le
    rw [zero_add, integral_perm ?_ hPerm] at hTotalEq
    · simp only [hSeed, Option.map_some, hTotalEq]
    · exact ((hPerm.map _).nodup_iff).mpr hDistinct

/- An average is no lower than the prices. -/
theorem le_tdiv_integral {low : ℤ} (hTotal : startMs < nowMs) (hSeed : low ≤ seed)
    (hSnapshots : ∀ snapshot ∈ snapshots, low ≤ snapshot.price) :
    low ≤ (integral seed snapshots startMs nowMs).tdiv (nowMs - startMs) := by
  have hPos : 0 < nowMs - startMs := by omega
  have hLe : _ ≤ integral seed snapshots startMs nowMs := le_sumHeld hSeed hSnapshots startMs nowMs
  rw [sum_eq_weighted, max_eq_right hPos.le] at hLe
  have hTdiv := Int.tdiv_le_tdiv hPos hLe
  rwa [Int.mul_tdiv_cancel _ hPos.ne'] at hTdiv

/- And no higher. -/
theorem tdiv_integral_le {high : ℤ} (hTotal : startMs < nowMs) (hSeed : seed ≤ high)
    (hSnapshots : ∀ snapshot ∈ snapshots, snapshot.price ≤ high) :
    (integral seed snapshots startMs nowMs).tdiv (nowMs - startMs) ≤ high := by
  have hPos : 0 < nowMs - startMs := by omega
  have hLe : integral seed snapshots startMs nowMs ≤ _ := sumHeld_le hSeed hSnapshots startMs nowMs
  rw [sum_eq_weighted, max_eq_right hPos.le] at hLe
  have hTdiv := Int.tdiv_le_tdiv hPos hLe
  rwa [Int.mul_tdiv_cancel _ hPos.ne'] at hTdiv

theorem integral_nonneg (hSeed : 0 ≤ seed)
    (hSnapshots : ∀ snapshot ∈ snapshots, 0 ≤ snapshot.price) :
    0 ≤ integral seed snapshots startMs nowMs := by
  have hLe : _ ≤ integral seed snapshots startMs nowMs := le_sumHeld hSeed hSnapshots startMs nowMs
  rwa [nsmul_zero] at hLe

theorem known_of_seedPrice (hSeed : seedPrice priorPrice snapshots = some seed) :
    seed ∈ knownPrices priorPrice snapshots := by
  unfold knownPrices
  rw [List.mem_append]
  cases priorPrice with
  | some price =>
    cases hSeed
    exact .inl List.mem_cons_self
  | none =>
    unfold seedPrice at hSeed
    rw [Option.none_or, Option.map_eq_some_iff] at hSeed
    rcases hSeed with ⟨first, hFirst, rfl⟩
    exact .inr (List.mem_map_of_mem (List.argmin_mem hFirst))

theorem known_of_snapshot {snapshot : TwapSnapshotPoint} (hSnapshot : snapshot ∈ snapshots) :
    snapshot.price ∈ knownPrices priorPrice snapshots := by
  exact List.mem_append_right _ (List.mem_map_of_mem hSnapshot)

/- Both divisions round sums of prices down. -/
theorem floor_div_eq_tdiv {sum duration : ℤ} (hSum : 0 ≤ sum) (hDuration : 0 ≤ duration) :
    ⌊(sum : ℚ) / duration⌋ = sum.tdiv duration := by
  rcases Int.eq_ofNat_of_zero_le hDuration with ⟨d, rfl⟩
  rw [Int.tdiv_eq_ediv_of_nonneg hSum, Int.cast_natCast, Rat.floor_intCast_div_natCast]

/-
  An average over a window is the integral of the step price over
  its duration, without the fraction, and rounded down when no
  price is negative.  It is between the known prices, and does not
  depend on the order of the snapshots.
-/
theorem twap_is_time_average {priorPrice : Option ℤ} {snapshots : List TwapSnapshotPoint}
    {startMs nowMs : ℤ} (hDistinct : (snapshots.map TwapSnapshotPoint.timestamp).Nodup)
    (hEnd : ∀ snapshot ∈ snapshots, snapshot.timestamp ≤ nowMs) :
    (nowMs ≤ startMs → computeTwapFromSnapshots priorPrice snapshots startMs nowMs = none) ∧
    (startMs < nowMs → (computeTwapFromSnapshots priorPrice snapshots startMs nowMs = none ↔
      priorPrice = none ∧ snapshots = []) ∧ ∀ twap,
      computeTwapFromSnapshots priorPrice snapshots startMs nowMs = some twap → ∃ seed,
        seedPrice priorPrice snapshots = some seed ∧ twap =
          (integral seed snapshots startMs nowMs).tdiv (nowMs - startMs) ∧
        ((∀ price ∈ knownPrices priorPrice snapshots, 0 ≤ price) → twap =
          ⌊(integral seed snapshots startMs nowMs : ℚ) / (nowMs - startMs : ℤ)⌋) ∧ ∀ low high,
          (∀ price ∈ knownPrices priorPrice snapshots, low ≤ price ∧ price ≤ high) →
          low ≤ twap ∧ twap ≤ high) ∧ ∀ snapshots' : List TwapSnapshotPoint,
      snapshots.Perm snapshots' → computeTwapFromSnapshots priorPrice snapshots' startMs nowMs =
        computeTwapFromSnapshots priorPrice snapshots startMs nowMs := by
  refine ⟨fun hNone => if_pos (by omega), fun hTotal => ⟨?_, ?_⟩, ?_⟩
  · rw [computeTwap_eq hDistinct hEnd hTotal, Option.map_eq_none_iff]
    unfold seedPrice
    rw [Option.or_eq_none_iff, Option.map_eq_none_iff, List.argmin_eq_none]
  · intro twap hTwap
    rw [computeTwap_eq hDistinct hEnd hTotal, Option.map_eq_some_iff] at hTwap
    rcases hTwap with ⟨seed, hSeed, rfl⟩
    have hKnown := known_of_seedPrice hSeed
    refine ⟨seed, hSeed, rfl, fun hNonneg => ?_, ?_⟩
    · rw [floor_div_eq_tdiv ?_ (by omega)]
      exact integral_nonneg (hNonneg seed hKnown) fun s hs => hNonneg s.price (known_of_snapshot hs)
    · intro low high hBounds
      exact ⟨le_tdiv_integral hTotal (hBounds seed hKnown).1
        fun s hs => (hBounds s.price (known_of_snapshot hs)).1,
        tdiv_integral_le hTotal (hBounds seed hKnown).2
          fun s hs => (hBounds s.price (known_of_snapshot hs)).2⟩
  · intro snapshots' hPerm
    by_cases hTotal : startMs < nowMs
    · have hDistinct' := ((hPerm.map TwapSnapshotPoint.timestamp).nodup_iff).mp hDistinct
      rw [computeTwap_eq hDistinct hEnd hTotal, computeTwap_eq hDistinct'
        (fun s hs => hEnd s (hPerm.mem_iff.mpr hs)) hTotal]
      unfold seedPrice
      rw [argmin_perm hDistinct hPerm]
      simp only [integral_perm hDistinct hPerm]
    · rw [computeTwapFromSnapshots, computeTwapFromSnapshots, if_pos (by omega), if_pos (by omega)]

theorem twap_is_time_average_sample :
    computeTwapFromSnapshots (some 100) [⟨90, 400⟩, ⟨30, 200⟩, ⟨60, 0⟩] 0 100 = some 130 ∧ ∃ seed,
      seedPrice (some 100) [⟨90, 400⟩, ⟨30, 200⟩, ⟨60, 0⟩] = some seed ∧ 130 =
        (integral seed [⟨90, 400⟩, ⟨30, 200⟩, ⟨60, 0⟩] 0 100).tdiv (100 - 0) := by
  have hTwap : computeTwapFromSnapshots (some 100) [⟨90, 400⟩, ⟨30, 200⟩, ⟨60, 0⟩] 0 100 =
      some 130 := by decide
  rcases ((@twap_is_time_average (some 100) [⟨90, 400⟩, ⟨30, 200⟩, ⟨60, 0⟩] 0 100
    (by decide) (by decide)).2.1 (by decide)).2 130 hTwap with ⟨seed, hSeed, hEq, _⟩
  exact ⟨hTwap, seed, hSeed, hEq⟩

/- The price before the window is in the average as well. -/
theorem prior_price_above_snapshots :
    ∃ twap, computeTwapFromSnapshots (some 1000) [⟨10, 1⟩] 0 10 = some twap ∧
      ∀ snapshot ∈ ([⟨10, 1⟩] : List TwapSnapshotPoint), snapshot.price < twap :=
  ⟨1000, by decide, by decide⟩

end

-- Cached Averages
----

open Doubles AutoInvest

inductive TwapWindow where
  | oneHour
  | fourHours
  | oneDay

def TwapWindow.text : TwapWindow → String
  | .oneHour => "1h"
  | .fourHours => "4h"
  | .oneDay => "24h"

def TWAP_WINDOW_MS : TwapWindow → ℤ
  | .oneHour => 60 * 60 * 1000
  | .fourHours => 4 * 60 * 60 * 1000
  | .oneDay => 24 * 60 * 60 * 1000

def TWAP_CACHE_TTL_SECONDS : TwapWindow → ℕ
  | .oneHour => 60 * 60
  | .fourHours => 4 * 60 * 60
  | .oneDay => 24 * 60 * 60

/- The most snapshots that an average is computed from. -/
def TWAP_MAX_SNAPSHOTS : ℕ := 5000

def twapRedisKey (keyId : String) (window : TwapWindow) : String :=
  "twap:" ++ keyId ++ ":" ++ window.text

structure CreatorForTwap where
  id : String
  handle : String
  circulatingSupply : Option ℚ
  creatorRoyaltyBuyBps : ℤ
  deriving DecidableEq

structure CreatorPriceHistory where
  creatorId : String
  price : ℤ
  recordedAt : ℤ

structure TwapDb where
  creators : List CreatorForTwap
  prices : List CreatorPriceHistory

inductive TwapError where
  | keyNotFound (keyId : String)
  | pricing (error : ExecutionError)
  deriving DecidableEq

/- `computedAt` is the time that its text stands for. -/
structure TwapPriceResult where
  keyId : String
  window : TwapWindow
  twap : String
  spotPrice : String
  deltaPct : Option ℚ
  computedAt : ℤ
  stale : Bool

/- An entry of Redis, with its time to live. -/
structure CacheEntry where
  key : String
  value : TwapPriceResult
  ttlSeconds : ℕ

/- A number as `toFixed` writes it with four decimals. -/
def toFixed4 (x : ℚ) : ℚ :=
  if |x| < 10 ^ 21 then
    let digits : ℚ := ⌊|x| * 10 ^ 4 + 1 / 2⌋ / 10 ^ 4
    toNumber (if x < 0 then -digits else digits)
  else x

def computeDeltaPct (spotPrice twap : ℤ) : Option ℚ :=
  if twap = 0 then none
  else
    let spot := toNumber spotPrice
    let base := toNumber twap
    if isFiniteNumber spot && isFiniteNumber base then
      some (toFixed4 (toNumber (toNumber (toNumber (spot - base) / base) * 100)))
    else none

def getBuyUnitPrice (currentSupply : ℚ) (feeBps : ℤ) : Except ExecutionError ℤ :=
  computeBuyCost currentSupply 1 feeBps

def fetchCreatorForTwap (db : TwapDb) (keyId : String) : Except TwapError CreatorForTwap :=
  match db.creators.find? fun creator => creator.id = keyId || creator.handle = keyId with
  | none => .error (.keyNotFound keyId)
  | some creator => .ok creator

def getSpotForCreator (creator : CreatorForTwap) : Except ExecutionError ℤ :=
  let supply := toNumber (creator.circulatingSupply.getD 0)
  let safeSupply :=
    if isFiniteNumber supply then max 0 ⌊supply⌋ else 0
  getBuyUnitPrice safeSupply creator.creatorRoyaltyBuyBps

attribute [-instance] Int.instConditionallyCompleteLinearOrder in
/- The latest price before a window. -/
def priorPriceOf (db : TwapDb) (creatorId : String) (windowStartMs : ℤ) : Option ℤ :=
  ((db.prices.filter fun row => row.creatorId = creatorId && row.recordedAt < windowStartMs).argmax
    CreatorPriceHistory.recordedAt).map CreatorPriceHistory.price

/- The prices of a window, in the order of the table. -/
def windowSnapshots (db : TwapDb) (creatorId : String)
    (windowStartMs nowMs : ℤ) : List TwapSnapshotPoint :=
  (db.prices.filter fun row => row.creatorId = creatorId && (windowStartMs ≤ row.recordedAt &&
    row.recordedAt ≤ nowMs)).map fun row => ⟨row.recordedAt, row.price⟩

/- The result is answered and put into the cache. -/
def computeAndCacheTwap (db : TwapDb) (keyId : String) (window : TwapWindow)
    (nowMs : ℤ) : Except TwapError (TwapPriceResult × CacheEntry) :=
  match fetchCreatorForTwap db keyId with
  | .error e => .error e
  | .ok creator =>
    let windowStartMs := nowMs - TWAP_WINDOW_MS window
    let prior := priorPriceOf db creator.id windowStartMs
    let rows :=
      (sortSnapshots (windowSnapshots db creator.id windowStartMs nowMs)).take TWAP_MAX_SNAPSHOTS
    match getSpotForCreator creator with
    | .error e => .error (.pricing e)
    | .ok spotPrice =>
      let computed :=
        if prior.isSome || rows ≠ [] then
          computeTwapFromSnapshots prior rows windowStartMs nowMs
        else none
      let result : TwapPriceResult :=
        { keyId := creator.id
          window := window
          twap := toString (computed.getD spotPrice)
          spotPrice := toString spotPrice
          deltaPct :=
            match computed with
            | none => some 0
            | some twap => computeDeltaPct spotPrice twap
          computedAt := nowMs
          stale := false }
      .ok (result,
        { key := twapRedisKey creator.id window
          value := result
          ttlSeconds := TWAP_CACHE_TTL_SECONDS window })

variable {db : TwapDb} {creatorId : String} {priorPrice : Option ℤ}
variable {snapshots : List TwapSnapshotPoint} {startMs nowMs : ℤ}

/- It sorts its input anyway. -/
theorem computeTwap_sortSnapshots :
    computeTwapFromSnapshots priorPrice (sortSnapshots snapshots) startMs nowMs =
      computeTwapFromSnapshots priorPrice snapshots startMs nowMs := by
  have hSorted : sortSnapshots (sortSnapshots snapshots) = sortSnapshots snapshots :=
    (List.pairwise_insertionSort _ snapshots).insertionSort_eq
  unfold computeTwapFromSnapshots
  rw [hSorted]

variable {snapshot : TwapSnapshotPoint}

theorem mem_windowSnapshots (hSnapshot : snapshot ∈ windowSnapshots db creatorId startMs nowMs) :
    startMs ≤ snapshot.timestamp ∧ snapshot.timestamp ≤ nowMs := by
  rcases List.mem_map.mp hSnapshot with ⟨row, hRow, rfl⟩
  have hWindow := (List.mem_filter.mp hRow).2
  simp only [Bool.and_eq_true, decide_eq_true_eq] at hWindow
  exact hWindow.2

variable {seed : ℤ}

/- From the last snapshot on, its price is held. -/
theorem integral_of_last {last : TwapSnapshotPoint} (hLast : last ∈ snapshots)
    (hLatest : ∀ other ∈ snapshots, other = last ∨ other.timestamp < last.timestamp)
    (hStart : startMs ≤ last.timestamp) (hEnd : last.timestamp ≤ nowMs) :
    integral seed snapshots startMs nowMs = integral seed snapshots startMs last.timestamp +
      last.price * (nowMs - last.timestamp) := by
  unfold integral
  rw [sumHeld_split hStart hEnd]
  congr 1
  rw [sumHeld_const fun t hFrom _ => heldAt_of_last hLast hLatest hFrom,
    sum_eq_weighted, max_eq_right (by omega)]

theorem integral_append {early late : List TwapSnapshotPoint}
    (hLate : ∀ snapshot ∈ late, nowMs ≤ snapshot.timestamp) :
    integral seed (early ++ late) startMs nowMs = integral seed early startMs nowMs := by
  refine sumHeld_congr fun t _ hBefore => ?_
  exact heldAt_append_of_before fun s hs => hBefore.trans_le (hLate s hs)

/- The earliest snapshots give the integral until the last of them, and its price from there on. -/
theorem computeTwap_early {early late : List TwapSnapshotPoint} {last : TwapSnapshotPoint}
    (hDistinct : (snapshots.map TwapSnapshotPoint.timestamp).Nodup)
    (hWindow : ∀ snapshot ∈ snapshots, startMs ≤ snapshot.timestamp ∧ snapshot.timestamp ≤ nowMs)
    (hTotal : startMs < nowMs) (hSplit : sortSnapshots snapshots = early ++ last :: late) :
    ∃ seed, seedPrice priorPrice snapshots = some seed ∧
      computeTwapFromSnapshots priorPrice (early ++ [last]) startMs nowMs = some
        ((integral seed snapshots startMs last.timestamp +
          last.price * (nowMs - last.timestamp)).tdiv (nowMs - startMs)) := by
  have hPerm := sortSnapshots_perm snapshots
  have hSorted := sortSnapshots_pairwise hDistinct
  have hSplit' : early ++ last :: late = (early ++ [last]) ++ late := by simp
  rw [hSplit, hSplit'] at hPerm hSorted
  rcases List.pairwise_append.mp hSorted with ⟨hEarly, _, hBefore⟩
  have hMem : ∀ snapshot ∈ early ++ [last], snapshot ∈ snapshots :=
    fun s hs => hPerm.mem_iff.mp (List.mem_append_left _ hs)
  have hLastMem : last ∈ early ++ [last] := by simp
  have hSeed : ∃ seed, seedPrice priorPrice snapshots = some seed ∧
      seedPrice priorPrice (early ++ [last]) = some seed := by
    cases early with
    | nil => exact ⟨_, seedPrice_eq hSorted hPerm, seedPrice_eq hEarly (List.Perm.refl _)⟩
    | cons first rest =>
      exact ⟨_, seedPrice_eq hSorted hPerm, seedPrice_eq hEarly (List.Perm.refl _)⟩
  rcases hSeed with ⟨seed, hSeed, hEarlySeed⟩
  have hLastWindow := hWindow last (hMem last hLastMem)
  have hLatest : ∀ other ∈ early ++ [last],
      other = last ∨ other.timestamp < last.timestamp := by
    intro other hOther
    rcases List.mem_append.mp hOther with hOther | hOther
    · exact .inr ((List.pairwise_append.mp hEarly).2.2 other hOther last List.mem_cons_self)
    · exact .inl (List.mem_singleton.mp hOther)
  refine ⟨seed, hSeed, ?_⟩
  rw [computeTwap_eq (nodup_of_pairwise hEarly) (fun s hs => (hWindow s (hMem s hs)).2) hTotal,
    hEarlySeed, Option.map_some, integral_of_last hLastMem hLatest hLastWindow.1 hLastWindow.2,
    ← integral_append fun s hs => (hBefore last hLastMem s hs).le,
    integral_perm (nodup_of_pairwise hSorted) hPerm]

/- What is stored comes from the earliest snapshots. -/
theorem computeAndCacheTwap_cases {keyId : String} {window : TwapWindow} {result : TwapPriceResult}
    {entry : CacheEntry}
    (hCompute : computeAndCacheTwap db keyId window nowMs = .ok (result, entry)) :
    ∃ creator spotPrice, fetchCreatorForTwap db keyId = .ok creator ∧
      getSpotForCreator creator = .ok spotPrice ∧ entry = ⟨twapRedisKey creator.id window, result,
        TWAP_CACHE_TTL_SECONDS window⟩ ∧ result.twap = toString ((computeTwapFromSnapshots
          (priorPriceOf db creator.id (nowMs - TWAP_WINDOW_MS window)) ((sortSnapshots
            (windowSnapshots db creator.id (nowMs - TWAP_WINDOW_MS window) nowMs)).take
            TWAP_MAX_SNAPSHOTS) (nowMs - TWAP_WINDOW_MS window) nowMs).getD spotPrice) := by
  unfold computeAndCacheTwap at hCompute
  split at hCompute
  · cases hCompute
  · rename_i creator hCreator
    split at hCompute
    · cases hCompute
    · rename_i spotPrice hSpot
      cases hCompute
      refine ⟨creator, spotPrice, hCreator, hSpot, rfl, ?_⟩
      dsimp only
      congr 2
      split
      · rfl
      · rename_i hNone
        -- without any price there is no average either
        simp only [Bool.or_eq_true, decide_eq_true_eq, not_or,
          not_not, Bool.not_eq_true, Option.isSome_eq_false_iff, Option.isNone_iff_eq_none] at hNone
        rw [hNone.1, hNone.2]
        exact (ite_self none).symm

/-
  What is stored is the average over all prices of the window if
  they are not more than the cap.  If they are, it is the average
  with the last price under the cap held until the end.
-/
theorem cached_twap_of_earliest_rows {db : TwapDb} {keyId : String} {window : TwapWindow}
    {nowMs : ℤ} {result : TwapPriceResult} {entry : CacheEntry}
    (hCompute : computeAndCacheTwap db keyId window nowMs = .ok (result, entry)) :
    ∃ creator spotPrice, fetchCreatorForTwap db keyId = .ok creator ∧
      getSpotForCreator creator = .ok spotPrice ∧ entry = ⟨twapRedisKey creator.id window, result,
        TWAP_CACHE_TTL_SECONDS window⟩ ∧
      let startMs := nowMs - TWAP_WINDOW_MS window
      let prior := priorPriceOf db creator.id startMs
      let snapshots := windowSnapshots db creator.id startMs nowMs
      (snapshots.length ≤ TWAP_MAX_SNAPSHOTS → result.twap = toString
        ((computeTwapFromSnapshots prior snapshots startMs nowMs).getD spotPrice)) ∧
      ∀ early last late, sortSnapshots snapshots = early ++ last :: late →
        early.length + 1 = TWAP_MAX_SNAPSHOTS → (snapshots.map TwapSnapshotPoint.timestamp).Nodup →
        ∃ seed, seedPrice prior snapshots = some seed ∧ result.twap = toString
          ((integral seed snapshots startMs last.timestamp +
            last.price * (nowMs - last.timestamp)).tdiv
            (nowMs - startMs)) := by
  rcases computeAndCacheTwap_cases hCompute with
    ⟨creator, spotPrice, hCreator, hSpot, hEntry, hTwap⟩
  refine ⟨creator, spotPrice, hCreator, hSpot, hEntry, ?_⟩
  intro startMs prior snapshots
  constructor
  · intro hFew
    rw [hTwap, List.take_of_length_le, computeTwap_sortSnapshots]
    exact (sortSnapshots_perm snapshots).length_eq.trans_le hFew
  · intro early last late hSplit hLength hDistinct
    have hTotal : startMs < nowMs := by
      have hPos : 0 < TWAP_WINDOW_MS window := by
        cases window <;> decide
      exact sub_lt_self nowMs hPos
    rcases @computeTwap_early prior snapshots startMs nowMs _ _ _
      hDistinct (fun s hs => mem_windowSnapshots hs) hTotal hSplit with ⟨seed, hSeed, hEarly⟩
    refine ⟨seed, hSeed, ?_⟩
    have hTake : (sortSnapshots snapshots).take TWAP_MAX_SNAPSHOTS =
        early ++ [last] := by
      have hAppend : early ++ last :: late = (early ++ [last]) ++ late := by simp
      rw [hSplit, hAppend, ← hLength]
      exact List.take_left' (by simp)
    rw [hTwap, hTake, hEarly, Option.getD_some]

theorem computeAndCacheTwap_ok {keyId : String} {window : TwapWindow} {creator : CreatorForTwap}
    {spotPrice : ℤ} (hCreator : fetchCreatorForTwap db keyId = .ok creator)
    (hSpot : getSpotForCreator creator = .ok spotPrice) :
    ∃ result entry, computeAndCacheTwap db keyId window nowMs = .ok (result, entry) := by
  unfold computeAndCacheTwap
  rw [hCreator]
  dsimp only
  rw [hSpot]
  exact ⟨_, _, rfl⟩

def sampleCreator : CreatorForTwap where
  id := "creator"
  handle := "handle"
  circulatingSupply := none
  creatorRoyaltyBuyBps := 500

theorem getSpotForCreator_sample : getSpotForCreator sampleCreator = .ok 10500000 := by
  decide +kernel

def sampleTwapDb : TwapDb where
  creators := [sampleCreator]
  prices :=
    [⟨"creator", 400, 5400000⟩, ⟨"other", 7, 5000000⟩,
      ⟨"creator", 100, 1000000⟩, ⟨"creator", 200, 4500000⟩]

theorem cached_twap_of_earliest_rows_sample :
    ∃ result entry, computeAndCacheTwap sampleTwapDb "handle" .oneHour 7200000 =
      .ok (result, entry) ∧
      result.twap = "275" := by
  have hCreator : fetchCreatorForTwap sampleTwapDb "handle" =
      .ok sampleCreator := by decide
  rcases @computeAndCacheTwap_ok sampleTwapDb 7200000 "handle" .oneHour
    _ _ hCreator getSpotForCreator_sample with ⟨result, entry, hCompute⟩
  rcases cached_twap_of_earliest_rows hCompute with ⟨creator, spotPrice, hFetch, _, _, hFew, _⟩
  rw [hCreator] at hFetch
  cases hFetch
  refine ⟨result, entry, hCompute, (hFew (by decide)).trans ?_⟩
  have hTwap : computeTwapFromSnapshots (priorPriceOf sampleTwapDb "creator" 3600000)
      (windowSnapshots sampleTwapDb "creator" 3600000 7200000) 3600000 7200000 =
      some 275 := by decide
  have hText : toString (275 : ℤ) = "275" := by decide
  exact (congrArg (fun o => toString (Option.getD o spotPrice)) hTwap).trans hText

/- Some prices of nothing, and then one that is high. -/
def crowdedTwapDb (n : ℕ) : TwapDb where
  creators := [sampleCreator]
  prices := (List.range n).map (fun i : ℕ => ⟨"creator", 0, (i : ℤ)⟩) ++ [⟨"creator", 3600000, n⟩]

/- Snapshots of price zero fill the query. -/
def crowdedEarly (n : ℕ) : List TwapSnapshotPoint := (List.range n).map fun i : ℕ => ⟨(i : ℤ), 0⟩

variable {n : ℕ}

theorem mem_crowdedEarly (hSnapshot : snapshot ∈ crowdedEarly n) :
    0 ≤ snapshot.timestamp ∧ snapshot.timestamp < n ∧ snapshot.price = 0 := by
  rcases List.mem_map.mp hSnapshot with ⟨i, hi, rfl⟩
  have hLt := List.mem_range.mp hi
  dsimp only
  omega

theorem crowded_rows {row : CreatorPriceHistory} (hRow : row ∈ (crowdedTwapDb n).prices) :
    row.creatorId = "creator" ∧ 0 ≤ row.recordedAt ∧ row.recordedAt ≤ n := by
  rcases List.mem_append.mp hRow with hRow | hRow
  · rcases List.mem_map.mp hRow with ⟨i, hi, rfl⟩
    have hLt := List.mem_range.mp hi
    dsimp only
    exact ⟨rfl, by omega, by omega⟩
  · rw [List.mem_singleton.mp hRow]
    exact ⟨rfl, by simp, le_rfl⟩

/- A price that the capped query does not reach. -/
def crowdedLast (n : ℕ) : TwapSnapshotPoint where
  timestamp := n
  price := 3600000

theorem windowSnapshots_crowded (hNow : n ≤ nowMs) :
    windowSnapshots (crowdedTwapDb n) "creator" 0 nowMs = crowdedEarly n ++ [crowdedLast n] := by
  unfold windowSnapshots
  rw [List.filter_eq_self.mpr]
  · unfold crowdedTwapDb crowdedEarly
    rw [List.map_append, List.map_map]
    rfl
  · intro row hRow
    rcases crowded_rows hRow with ⟨hCreator, hFrom, hTo⟩
    simp only [Bool.and_eq_true, decide_eq_true_eq]
    exact ⟨hCreator, hFrom, hTo.trans hNow⟩

theorem priorPriceOf_crowded : priorPriceOf (crowdedTwapDb n) "creator" 0 = none := by
  unfold priorPriceOf
  rw [List.filter_eq_nil_iff.mpr]
  · rfl
  · intro row hRow
    rcases crowded_rows hRow with ⟨_, hFrom, _⟩
    simp only [Bool.and_eq_true, decide_eq_true_eq]
    omega

theorem crowded_pairwise :
    (crowdedEarly n ++ [crowdedLast n]).Pairwise fun a b => a.timestamp < b.timestamp := by
  refine List.pairwise_append.mpr ⟨?_, by simp, ?_⟩
  · unfold crowdedEarly
    rw [List.pairwise_map]
    exact List.pairwise_lt_range.imp fun h => by
      dsimp only
      omega
  · intro snapshot hSnapshot last hLast
    rw [List.mem_singleton.mp hLast]
    exact (mem_crowdedEarly hSnapshot).2.1

theorem integral_zero (hZero : ∀ snapshot ∈ snapshots, snapshot.price = 0) :
    integral 0 snapshots startMs nowMs = 0 := by
  have hBelow : integral 0 snapshots startMs nowMs ≤ _ :=
    sumHeld_le le_rfl (fun s hs => (hZero s hs).le) startMs nowMs
  rw [nsmul_zero] at hBelow
  exact le_antisymm hBelow (integral_nonneg le_rfl fun s hs => (hZero s hs).ge)

theorem seedPrice_crowded {late : List TwapSnapshotPoint} (hSome : 0 < n)
    (hSorted : (crowdedEarly n ++ late).Pairwise fun a b => a.timestamp < b.timestamp) :
    seedPrice none (crowdedEarly n ++ late) = some 0 := by
  rcases n with _ | n
  · cases hSome
  · have hCons : crowdedEarly (n + 1) = ⟨0, 0⟩ ::
        (List.range n).map fun i : ℕ => ⟨(i + 1 : ℕ), 0⟩ := by
      unfold crowdedEarly
      rw [List.range_succ_eq_map, List.map_cons, List.map_map]
      rfl
    rw [hCons] at hSorted ⊢
    exact seedPrice_eq hSorted (List.Perm.refl _)

theorem computeTwap_crowded_early (hSome : 0 < n) (hNow : n ≤ nowMs) :
    computeTwapFromSnapshots none (crowdedEarly n) 0 nowMs = some 0 := by
  have hEarly := (List.pairwise_append.mp (@crowded_pairwise n)).1
  have hSeed := @seedPrice_crowded n [] hSome (by simpa using hEarly)
  rw [List.append_nil] at hSeed
  rw [computeTwap_eq (nodup_of_pairwise hEarly) (fun s hs => by
    have := (mem_crowdedEarly hs).2.1
    omega)
    (by omega),
    hSeed, Option.map_some,
    integral_zero fun s hs => (mem_crowdedEarly hs).2.2,
    Int.zero_tdiv]

theorem computeTwap_crowded (hSome : 0 < n) (hNow : n ≤ nowMs) :
    computeTwapFromSnapshots none (crowdedEarly n ++ [crowdedLast n]) 0 nowMs =
      some ((3600000 * (nowMs - n)).tdiv nowMs) := by
  have hSorted := @crowded_pairwise n
  have hLatest : ∀ other ∈ crowdedEarly n ++ [crowdedLast n],
      other = crowdedLast n ∨ other.timestamp < n := by
    intro other hOther
    rcases List.mem_append.mp hOther with hOther | hOther
    · exact .inr (mem_crowdedEarly hOther).2.1
    · exact .inl (List.mem_singleton.mp hOther)
  rw [computeTwap_eq (nodup_of_pairwise hSorted) (fun s hs => by
    rcases hLatest s hs with rfl | hLt
    · exact hNow
    · omega)
    (by omega),
    seedPrice_crowded hSome hSorted, Option.map_some,
    integral_of_last (by simp) hLatest (Int.natCast_nonneg n) hNow,
    integral_append (by simp),
    integral_zero fun s hs => (mem_crowdedEarly hs).2.2,
    zero_add, sub_zero]
  rfl

/- The price after the cap is left out of the average. -/
theorem cached_twap_leaves_out_latest :
    ∃ db result entry, computeAndCacheTwap db "creator" .oneHour 3600000 = .ok (result, entry) ∧
      result.twap = "0" ∧ computeTwapFromSnapshots (priorPriceOf db "creator" 0)
        (windowSnapshots db "creator" 0 3600000) 0 3600000 = some 3595000 := by
  have hCap : (TWAP_MAX_SNAPSHOTS : ℤ) ≤ 3600000 := by decide
  have hSome : 0 < TWAP_MAX_SNAPSHOTS := by decide
  have hCreator : fetchCreatorForTwap (crowdedTwapDb TWAP_MAX_SNAPSHOTS) "creator" =
      .ok sampleCreator := by rfl
  rcases @computeAndCacheTwap_ok _ 3600000 _ .oneHour _ _ hCreator getSpotForCreator_sample with
    ⟨result, entry, hCompute⟩
  rcases computeAndCacheTwap_cases hCompute with ⟨creator, spotPrice, hFetch, _, _, hTwap⟩
  rw [hCreator] at hFetch
  cases hFetch
  have hStart : 3600000 - TWAP_WINDOW_MS .oneHour = 0 := by decide
  have hId : sampleCreator.id = "creator" := by rfl
  refine ⟨_, result, entry, hCompute, ?_, ?_⟩
  · have hSorted :
        sortSnapshots (crowdedEarly TWAP_MAX_SNAPSHOTS ++ [crowdedLast TWAP_MAX_SNAPSHOTS]) =
          crowdedEarly TWAP_MAX_SNAPSHOTS ++ [crowdedLast TWAP_MAX_SNAPSHOTS] :=
      (crowded_pairwise.imp fun h => h.le).insertionSort_eq
    have hLength : (crowdedEarly TWAP_MAX_SNAPSHOTS).length =
        TWAP_MAX_SNAPSHOTS := by
      unfold crowdedEarly
      rw [List.length_map, List.length_range]
    rw [hTwap, hId, hStart, priorPriceOf_crowded, windowSnapshots_crowded hCap, hSorted,
      List.take_left' hLength, computeTwap_crowded_early hSome hCap, Option.getD_some]
    decide
  · rw [priorPriceOf_crowded, windowSnapshots_crowded hCap, computeTwap_crowded hSome hCap]
    decide

end KeyTwap

end Keys

end AccessLayer
