import AccessLayer.Library.Keyset
import AccessLayer.Library.Table
import Mathlib

/-
  Pages of histories
  (`src/modules/keys/buyback-pool.service.ts` and
  `src/modules/creator/creator-reputation.service.ts`).

  Rows are read in the order of their times; the database may
  return rows with one time in any order, and in another order
  for the next page.  The look-up of the creator is left out.

  Main result: `histories_visited_once_iff`
-/

-- Pages
----

namespace AccessLayer

namespace Keys

namespace HistoryPages

open Keyset Transactional

/- Times are of type `τ`, in the order in which rows are shown. -/
structure HistoryRow (τ δ : Type) where
  id : String
  creatorId : String
  time : τ
  data : δ

instance {τ δ : Type} : Keyed (HistoryRow τ δ) String where
  key row := row.id

structure BuybackData where
  amountXlm : ℚ
  sourceType : String
  ledger : ℤ
  txHash : String

structure ReputationData where
  score : ℤ
  tier : String
  eventType : String
  ledger : Option ℤ

section

variable {τ δ : Type} [LinearOrder τ]

/- How the database puts the rows of its reads in order. -/
structure Scan (τ δ : Type) [LinearOrder τ] where
  order : ℕ → List (HistoryRow τ δ) → List (HistoryRow τ δ)
  perm : ∀ n rows, (order n rows).Perm rows
  sorted : ∀ n rows, (order n rows).Pairwise fun a b => a.time ≤ b.time

def safeLimit (limit : ℤ) : ℕ := (min (max limit 1) 100).toNat

/- A cursor is the id of a row; rows with its time are left out. -/
def whereRows (t : Table (HistoryRow τ δ)) (creatorId : String) (cursor : Option String) :
    List (HistoryRow τ δ) :=
  let own := t.rows.filter fun row => row.creatorId = creatorId
  match cursor.bind t.find? with
  | some lastItem => own.filter fun row => lastItem.time < row.time
  | none => own

/- The `n`-th read of a walk; one extra row shows whether there are more. -/
def historyPage (t : Table (HistoryRow τ δ)) (scan : Scan τ δ) (creatorId : String) (limit : ℤ)
    (n : ℕ) (cursor : Option String) : Page (HistoryRow τ δ) String :=
  let fetched := (scan.order n (whereRows t creatorId cursor)).take (safeLimit limit + 1)
  let items := fetched.take (safeLimit limit)
  { items
    next := if safeLimit limit < fetched.length then items.getLast?.map HistoryRow.id else none }

end

/- Latest first. -/
def getBuybackPoolHistory (t : Table (HistoryRow ℤᵒᵈ BuybackData)) (scan : Scan ℤᵒᵈ BuybackData)
    (keyId : String) (limit : ℤ) :
    ℕ → Option String → Page (HistoryRow ℤᵒᵈ BuybackData) String := historyPage t scan keyId limit

/- Earliest first. -/
def getCreatorReputationHistory (t : Table (HistoryRow ℤ ReputationData))
    (scan : Scan ℤ ReputationData) (creatorId : String) (limit : ℤ) :
    ℕ → Option String → Page (HistoryRow ℤ ReputationData) String :=
  historyPage t scan creatorId limit

-- Walks
----

/- No page ends between two rows with one time. -/
def Untied {τ : Type} (take : ℕ) (ts : List τ) : Prop :=
  ∀ i, take ∣ i + 1 → ∀ a b, ts[i]? = some a → ts[i + 1]? = some b → a ≠ b

section

variable {τ δ : Type} [LinearOrder τ] {t : Table (HistoryRow τ δ)} {scan : Scan τ δ}
variable {creatorId : String} {limit : ℤ} {n : ℕ} {cursor : Option String}
variable {row last : HistoryRow τ δ}

/- The times of rows, in order. -/
def times (rows : List (HistoryRow τ δ)) : List τ :=
  (rows.map HistoryRow.time).insertionSort (· ≤ ·)

theorem safeLimit_pos (limit : ℤ) : 0 < safeLimit limit := by
  unfold safeLimit
  omega

theorem historyPage_eq :
    historyPage t scan creatorId limit n cursor =
      cut (safeLimit limit) HistoryRow.id (scan.order n (whereRows t creatorId cursor)) := by
  have hMore : (safeLimit limit <
      ((scan.order n (whereRows t creatorId cursor)).take (safeLimit limit + 1)).length) =
      (safeLimit limit < (scan.order n (whereRows t creatorId cursor)).length) := by
    rw [List.length_take]
    exact propext (by omega)
  unfold historyPage cut
  simp only [hMore, List.take_take, Nat.min_eq_left (Nat.le_succ _)]

theorem filter_after {lastItem : HistoryRow τ δ} (hBefore : lastItem.time < last.time)
    (own : List (HistoryRow τ δ)) :
    (own.filter fun row => lastItem.time < row.time).filter (fun row => last.time < row.time) =
      own.filter fun row => last.time < row.time := by
  rw [List.filter_filter]
  apply List.filter_congr
  intro row _
  rw [← Bool.decide_and, decide_eq_decide]
  exact ⟨And.left, fun hAfter => ⟨hAfter, hBefore.trans hAfter⟩⟩

theorem whereRows_next (hLast : last ∈ whereRows t creatorId cursor) :
    whereRows t creatorId (some last.id) =
      (whereRows t creatorId cursor).filter fun row => last.time < row.time := by
  have hStored : last ∈ t.rows := by
    unfold whereRows at hLast
    split at hLast
    · exact List.mem_of_mem_filter (List.mem_of_mem_filter hLast)
    · exact List.mem_of_mem_filter hLast
  have hFound : t.find? last.id = some last := Table.find?_eq_some_iff.mpr ⟨hStored, rfl⟩
  unfold whereRows at hLast ⊢
  rw [Option.bind_some, hFound]
  cases hCursor : cursor.bind t.find? with
  | none => rfl
  | some lastItem =>
    rw [hCursor] at hLast
    have hBefore : lastItem.time < last.time := of_decide_eq_true (List.mem_filter.mp hLast).2
    exact (filter_after hBefore _).symm

theorem visited_subset {fuel : ℕ} {pages : List (Page (HistoryRow τ δ) String)}
    (hWalk : walk (historyPage t scan creatorId limit) fuel n cursor = some pages) :
    ∀ row ∈ visited pages, row ∈ whereRows t creatorId cursor := by
  induction fuel generalizing n cursor pages with
  | zero => cases hWalk
  | succ fuel ih =>
    have hItems : ∀ row ∈ (historyPage t scan creatorId limit n cursor).items,
        row ∈ whereRows t creatorId cursor := by
      intro row hRow
      rw [historyPage_eq] at hRow
      exact (scan.perm n _).mem_iff.mp (List.mem_of_mem_take hRow)
    rcases walk_cases hWalk with ⟨-, hVisited⟩ | ⟨k, rest, hNext, hRest, hVisited⟩
    · rwa [hVisited]
    · intro row hRow
      rw [hVisited] at hRow
      rcases List.mem_append.mp hRow with hRow | hRow
      · exact hItems row hRow
      · rw [historyPage_eq, cut] at hNext
        split at hNext
        · rcases Option.map_eq_some_iff.mp hNext with ⟨last, hLast, rfl⟩
          have hMem := (scan.perm n _).mem_iff.mp
            (List.mem_of_mem_take (List.mem_of_getLast? hLast))
          have hAfter := ih hRest row hRow
          rw [whereRows_next hMem] at hAfter
          exact List.mem_of_mem_filter hAfter
        · cases hNext

theorem times_of_perm {rows rows' : List (HistoryRow τ δ)} (hPerm : rows'.Perm rows)
    (hSorted : rows'.Pairwise fun a b => a.time ≤ b.time) :
    times rows = rows'.map HistoryRow.time := by
  have hOrder : (times rows).Pairwise (· ≤ ·) := List.pairwise_insertionSort _ _
  refine List.Perm.eq_of_pairwise (fun _ _ _ _ => le_antisymm) hOrder
    (List.pairwise_map.mpr hSorted) ?_
  exact (List.perm_insertionSort _ _).trans (hPerm.map _).symm

/- Where the time changes, the rows after a page are the later ones. -/
theorem filter_after_page {left : List (HistoryRow τ δ)} {first : HistoryRow τ δ} {take : ℕ}
    (hSorted : left.Pairwise fun a b => a.time ≤ b.time) (hLast : left[take - 1]? = some last)
    (hFirst : left[take]? = some first) (hNe : last.time ≠ first.time) :
    left.filter (fun row => last.time < row.time) = left.drop take := by
  rcases List.getElem?_eq_some_iff.mp hLast with ⟨hLastLt, rfl⟩
  rcases List.getElem?_eq_some_iff.mp hFirst with ⟨hFirstLt, rfl⟩
  have hMono : ∀ i j (hi : i < left.length) (hj : j < left.length), i ≤ j →
      left[i].time ≤ left[j].time := by
    intro i j hi hj hLe
    rcases hLe.eq_or_lt with rfl | hLess
    · exact le_rfl
    · exact List.pairwise_iff_getElem.mp hSorted i j hi hj hLess
  have hBoundary := lt_of_le_of_ne (hMono (take - 1) take hLastLt hFirstLt (Nat.sub_le _ _)) hNe
  have hBefore : (left.take take).filter (fun row => left[take - 1].time < row.time) = [] := by
    rw [List.filter_eq_nil_iff]
    intro row hRow
    rcases List.mem_take_iff_getElem.mp hRow with ⟨i, hi, rfl⟩
    rw [decide_eq_true_iff, not_lt]
    exact hMono i (take - 1) _ hLastLt (by omega)
  have hAfter : (left.drop take).filter (fun row => left[take - 1].time < row.time) =
      left.drop take := by
    rw [List.filter_eq_self]
    intro row hRow
    rcases List.mem_drop_iff_getElem.mp hRow with ⟨i, hi, rfl⟩
    exact decide_eq_true (hBoundary.trans_le
      (hMono take (take + i) hFirstLt (by omega) (Nat.le_add_right _ _)))
  calc
    left.filter (fun row => left[take - 1].time < row.time) =
      (left.take take ++ left.drop take).filter (fun row => left[take - 1].time < row.time) := by
      rw [List.take_append_drop]
    _ = left.drop take := by rw [List.filter_append, hBefore, hAfter, List.nil_append]

/- Rows of one walk are those it starts with, each of them once. -/
theorem visits_whereRows_iff :
    Visits List.Perm (historyPage t scan creatorId limit) n cursor (whereRows t creatorId cursor) ↔
      Untied (safeLimit limit) (times (whereRows t creatorId cursor)) := by
  induction hCount : (whereRows t creatorId cursor).length using Nat.strong_induction_on
    generalizing n cursor with
  | _ count ih =>
    let left := scan.order n (whereRows t creatorId cursor)
    have hPerm : left.Perm (whereRows t creatorId cursor) := scan.perm n _
    have hSorted : left.Pairwise fun a b => a.time ≤ b.time := scan.sorted n _
    have hTake := safeLimit_pos limit
    have hStart : ∀ rows rows' : List (HistoryRow τ δ), rows.Perm rows' → ∀ m k,
        (Visits List.Perm (historyPage t scan creatorId limit) m k rows ↔
          Visits List.Perm (historyPage t scan creatorId limit) m k rows') := by
      intro rows rows' hSame m k
      constructor
      · rintro ⟨fuel, pages, hWalk, hVisited⟩
        exact ⟨fuel, pages, hWalk, hVisited.trans hSame⟩
      · rintro ⟨fuel, pages, hWalk, hVisited⟩
        exact ⟨fuel, pages, hWalk, hVisited.trans hSame.symm⟩
    rw [← hStart left _ hPerm, visits_cut_iff historyPage_eq hTake List.Perm.refl
      (fun xs ys zs => List.perm_append_left_iff xs), times_of_perm hPerm hSorted,
      show Untied _ _ ↔ _ from cuts_iff hTake]
    by_cases hMore : safeLimit limit < left.length
    swap
    · have hUntied : Untied (safeLimit limit) (left.map HistoryRow.time) :=
        cuts_of_length_le (by rw [List.length_map]; omega)
      exact iff_of_true (fun _ _ hLess => absurd hLess hMore) ((cuts_iff hTake).mp hUntied)
    have hLast : left[safeLimit limit - 1]? = some left[safeLimit limit - 1] :=
      List.getElem?_eq_getElem (by omega)
    have hFirst : left[safeLimit limit]? = some left[safeLimit limit] :=
      List.getElem?_eq_getElem hMore
    generalize hLastRow : left[safeLimit limit - 1] = last at hLast
    generalize hFirstRow : left[safeLimit limit] = first at hFirst
    have hMem : last ∈ whereRows t creatorId cursor := hPerm.mem_iff.mp (List.mem_of_getElem? hLast)
    have hNext := whereRows_next hMem
    have hBoundary : (∀ a b, (left.map HistoryRow.time)[safeLimit limit - 1]? = some a →
        (left.map HistoryRow.time)[safeLimit limit]? = some b → a ≠ b) ↔
          last.time ≠ first.time := by
      simp only [List.getElem?_map, hLast, hFirst, Option.map_some, Option.some.injEq]
      exact ⟨fun hAll => hAll _ _ rfl rfl, fun hNe a b ha hb => ha ▸ hb ▸ hNe⟩
    have hSplit := List.take_append_drop (safeLimit limit) left
    have hParts := hSorted
    rw [← hSplit, List.pairwise_append] at hParts
    have hFirstMem : first ∈ left.drop (safeLimit limit) :=
      List.mem_of_getElem? (i := 0) (by rw [List.getElem?_drop, add_zero, hFirst])
    rw [hBoundary]
    have hOnly : (∀ row, left[safeLimit limit - 1]? = some row → safeLimit limit < left.length →
        Visits List.Perm (historyPage t scan creatorId limit) (n + 1) (some row.id)
          (left.drop (safeLimit limit))) ↔
        Visits List.Perm (historyPage t scan creatorId limit) (n + 1) (some last.id)
          (left.drop (safeLimit limit)) := by
      rw [hLast]
      constructor
      · intro hAll
        exact hAll last rfl hMore
      · rintro hVisits _ ⟨⟩ -
        exact hVisits
    rw [hOnly]
    by_cases hTie : last.time = first.time
    · refine iff_of_false ?_ fun hBoth => hBoth.1 hTie
      rintro ⟨fuel, pages, hWalk, hVisited⟩
      have hAfter := visited_subset hWalk first (hVisited.mem_iff.mpr hFirstMem)
      rw [hNext] at hAfter
      exact (of_decide_eq_true (List.mem_filter.mp hAfter).2).ne hTie
    · have hRest : (left.drop (safeLimit limit)).Perm (whereRows t creatorId (some last.id)) := by
        rw [hNext, ← filter_after_page hSorted hLast hFirst hTie]
        exact hPerm.filter _
      have hTimes : times (whereRows t creatorId (some last.id)) =
          (left.map HistoryRow.time).drop (safeLimit limit) := by
        rw [times_of_perm hRest hParts.2.1, List.map_drop]
      have hFewer : (whereRows t creatorId (some last.id)).length < count := by
        rw [← hRest.length_eq, List.length_drop, ← hCount, ← hPerm.length_eq]
        omega
      rw [hStart _ _ hRest, ih _ hFewer rfl, hTimes]
      exact ⟨fun hUntied => ⟨hTie, hUntied⟩, And.right⟩

end

/-
  Each row is visited once, however the database orders rows with
  one time, if and only if no page ends between such rows.
-/
theorem histories_visited_once_iff (pool : Table (HistoryRow ℤᵒᵈ BuybackData))
    (poolScan : Scan ℤᵒᵈ BuybackData) (history : Table (HistoryRow ℤ ReputationData))
    (historyScan : Scan ℤ ReputationData) (id : String) (limit : ℤ) :
    (Visits List.Perm (getBuybackPoolHistory pool poolScan id limit) 0 none
      (pool.rows.filter fun row => row.creatorId = id) ↔
      Untied (safeLimit limit) (times (pool.rows.filter fun row => row.creatorId = id))) ∧
      (Visits List.Perm (getCreatorReputationHistory history historyScan id limit) 0 none
        (history.rows.filter fun row => row.creatorId = id) ↔
        Untied (safeLimit limit) (times (history.rows.filter fun row => row.creatorId = id))) :=
  ⟨visits_whereRows_iff, visits_whereRows_iff⟩

/- Rows with one time in the order in which they are stored. -/
def storedOrder : Scan ℤᵒᵈ BuybackData where
  order := fun _ rows => rows.insertionSort fun a b => a.time ≤ b.time
  perm := fun _ rows => List.perm_insertionSort _ rows
  sorted := fun _ rows => by
    have : Std.Total fun a b : HistoryRow ℤᵒᵈ BuybackData => a.time ≤ b.time :=
      ⟨fun a b => le_total a.time b.time⟩
    have : IsTrans (HistoryRow ℤᵒᵈ BuybackData) fun a b => a.time ≤ b.time :=
      ⟨fun _ _ _ => le_trans⟩
    exact List.pairwise_insertionSort _ rows

/- Two contributions of one moment, on pages of one row. -/
theorem tied_row_not_visited :
    ¬∀ (t : Table (HistoryRow ℤᵒᵈ BuybackData)) (scan : Scan ℤᵒᵈ BuybackData) (keyId : String)
      (limit : ℤ), Visits List.Perm (getBuybackPoolHistory t scan keyId limit) 0 none
      (t.rows.filter fun row => row.creatorId = keyId) := by
  intro hAll
  have hVisits := hAll ⟨[⟨"a", "key", 0, ⟨1, "tax", 5, "t"⟩⟩, ⟨"b", "key", 0, ⟨1, "tax", 5, "u"⟩⟩],
    by decide⟩ storedOrder "key" 1
  have hUntied := visits_whereRows_iff.mp hVisits
  exact hUntied 0 (one_dvd _) 0 0 rfl rfl rfl

end HistoryPages

end Keys

end AccessLayer
