import Mathlib.Data.List.Sort
import Mathlib.Order.Basic

/-
  Keyset pagination.

  A page holds the first rows below a position, in descending
  order of their keys, and the key at which the next page goes
  on, if there are more.  Rows may be added between two reads;
  none is taken away.

  Main declarations: `visits_shown_iff`, `walk_covers`
-/

-- Pages
----

namespace Keyset

section

structure Page (ρ κ : Type) where
  items : List ρ
  next : Option κ

variable {ρ κ : Type} [LinearOrder κ] (key : ρ → κ)

def Below (position : Option κ) (row : ρ) : Prop := ∀ k ∈ position, key row < k

instance (position : Option κ) (row : ρ) : Decidable (Below key position row) :=
  inferInstanceAs (Decidable (∀ k ∈ position, key row < k))

structure IsPage (rows : List ρ) (position : Option κ) (page : Page ρ κ) : Prop where
  stored : ∀ row ∈ page.items, row ∈ rows ∧ Below key position row
  descending : page.items.Pairwise fun a b => key b < key a
  covers : ∀ row ∈ rows, Below key position row → row ∈ page.items ∨ ∃ k ∈ page.next, key row < k
  next_mem : ∀ k ∈ page.next, ∃ row ∈ page.items, key row = k
  next_le : ∀ k ∈ page.next, ∀ row ∈ page.items, k ≤ key row

/- The rows below a position, in descending order. -/
def found (rows : List ρ) (position : Option κ) : List ρ :=
  (rows.filter (Below key position ·)).insertionSort fun a b => key b ≤ key a

/- One row more than the page holds tells whether there are more. -/
def page (take : Nat) (rows : List ρ) (position : Option κ) : Page ρ κ :=
  let records := (found key rows position).take (take + 1)
  if take < records.length then
    { items := records.take take
      next := (records.take take).getLast?.map key }
  else
    { items := records
      next := none }

variable {key}

@[simp] theorem below_none (row : ρ) : Below key none row := nofun

variable {row : ρ}

@[simp] theorem below_some {k : κ} :
    Below key (some k) row ↔ key row < k := by
  constructor
  · intro hBelow
    exact hBelow k rfl
  · rintro hLess k' ⟨⟩
    exact hLess

theorem mem_found {rows : List ρ} {position : Option κ} :
    row ∈ found key rows position ↔ row ∈ rows ∧ Below key position row := by
  rw [found, List.mem_insertionSort, List.mem_filter, decide_eq_true_iff]

/- Different keys in order are strictly in order. -/
theorem found_pairwise {rows : List ρ} (hUnique : (rows.map key).Nodup) (position : Option κ) :
    (found key rows position).Pairwise fun a b => key b < key a := by
  let kept := rows.filter (Below key position ·)
  have hSorted : (found key rows position).Pairwise fun a b => key b ≤ key a :=
    List.pairwise_insertionSort _ kept
  have hPerm : (found key rows position).Perm kept := List.perm_insertionSort _ kept
  have hKept : (kept.map key).Nodup := hUnique.sublist (List.filter_sublist.map key)
  have hNodup : ((found key rows position).map key).Nodup := (hPerm.map key).nodup_iff.mpr hKept
  have hDistinct : (found key rows position).Pairwise fun a b => key a ≠ key b :=
    List.pairwise_map.mp hNodup
  apply (hSorted.and hDistinct).imp
  rintro a b ⟨hLe, hNe⟩
  exact lt_of_le_of_ne hLe hNe.symm

/- The look-ahead shows exactly whether rows are left. -/
theorem page_eq (take : Nat) (rows : List ρ) (position : Option κ) :
    page key take rows position =
      if take < (found key rows position).length then
        { items := (found key rows position).take take
          next :=
            ((found key rows position).take take).getLast?.map
              key }
      else
        { items := found key rows position
          next := none } := by
  have hMore : (take < ((found key rows position).take (take + 1)).length) =
      (take < (found key rows position).length) := by
    rw [List.length_take]
    exact propext (by omega)
  unfold page
  simp only [hMore, List.take_take]
  split_ifs with hLength
  · rw [Nat.min_eq_left (Nat.le_succ take)]
  · rw [List.take_of_length_le (by omega)]

theorem isPage_take {rows : List ρ} (hUnique : (rows.map key).Nodup) (position : Option κ)
    {start : List ρ} {last : ρ} {rest : List ρ}
    (hFound : found key rows position = start ++ [last] ++ rest) :
    IsPage key rows position
      { items := start ++ [last]
        next := some (key last) } := by
  have hPairwise := found_pairwise hUnique position
  rw [hFound, List.pairwise_append] at hPairwise
  rcases hPairwise with ⟨hItems, -, hRest⟩
  have hLast : last ∈ start ++ [last] := List.mem_append_right _ (List.mem_singleton_self last)
  refine ⟨?_, hItems, ?_, ?_, ?_⟩
  · intro row hRow
    apply mem_found.mp
    rw [hFound]
    exact List.mem_append_left _ hRow
  · intro row hStored hBelow
    have hRow : row ∈ found key rows position := mem_found.mpr ⟨hStored, hBelow⟩
    rw [hFound, List.mem_append] at hRow
    rcases hRow with hRow | hRow
    · exact Or.inl hRow
    · exact Or.inr ⟨key last, rfl, hRest last hLast row hRow⟩
  · rintro k ⟨⟩
    exact ⟨last, hLast, rfl⟩
  · rintro k ⟨⟩ row hRow
    rcases List.mem_append.mp hRow with hRow | hRow
    · have hBefore := (List.pairwise_append.mp hItems).2.2
      exact (hBefore row hRow last (List.mem_singleton_self _)).le
    · rw [List.mem_singleton.mp hRow]

theorem isPage_found {rows : List ρ} (hUnique : (rows.map key).Nodup) (position : Option κ) :
    IsPage key rows position
      { items := found key rows position
        next := none } := by
  refine ⟨?_, found_pairwise hUnique position, ?_, nofun, nofun⟩
  · intro row hRow
    exact mem_found.mp hRow
  · intro row hStored hBelow
    exact Or.inl (mem_found.mpr ⟨hStored, hBelow⟩)

theorem isPage_page {take : Nat} (hTake : 0 < take) {rows : List ρ} (hUnique : (rows.map key).Nodup)
    (position : Option κ) :
    IsPage key rows position (page key take rows position) := by
  rw [page_eq]
  split_ifs with hMore
  · have hItems : (found key rows position).take take ≠ [] := by
      intro hNil
      have hLength := congrArg List.length hNil
      rw [List.length_take, List.length_nil] at hLength
      omega
    rcases List.eq_nil_or_concat ((found key rows position).take take) with
      hNil | ⟨start, last, hPage⟩
    · exact absurd hNil hItems
    · rw [List.concat_eq_append] at hPage
      rw [hPage, List.getLast?_concat]
      apply @isPage_take _ _ _ _ _ hUnique position start last ((found key rows position).drop take)
      rw [← hPage, List.take_append_drop]
  · exact isPage_found hUnique position

end

-- Walks
----

variable {ρ κ : Type}

/- Read pages until no position is left to go on from. -/
def walk (read : Nat → Option κ → Page ρ κ) : Nat → Nat → Option κ → Option (List (Page ρ κ))
  | 0, _, _ => none
  | fuel + 1, n, position =>
    match (read n position).next with
    | none => some [read n position]
    | some k => (walk read fuel (n + 1) (some k)).map (read n position :: ·)

def visited (pages : List (Page ρ κ)) : List ρ := pages.flatMap Page.items

variable {read : Nat → Option κ → Page ρ κ} {position : Option κ}

theorem walk_cases {fuel n : Nat} {pages : List (Page ρ κ)}
    (hWalk : walk read (fuel + 1) n position = some pages) :
    (read n position).next = none ∧ visited pages = (read n position).items ∨
      ∃ k rest, (read n position).next = some k ∧ walk read fuel (n + 1) (some k) = some rest ∧
        visited pages = (read n position).items ++ visited rest := by
  rw [walk] at hWalk
  cases hNext : (read n position).next with
  | none =>
    rw [hNext] at hWalk
    cases hWalk
    exact Or.inl ⟨rfl, List.flatMap_singleton _ _⟩
  | some k =>
    rw [hNext] at hWalk
    rcases Option.map_eq_some_iff.mp hWalk with ⟨rest, hRest, rfl⟩
    exact Or.inr ⟨k, rest, rfl, hRest, rfl⟩

-- Pages Cut From a List
----

section

/- The first rows of a list, and a cursor made of the last of them. -/
def cut (take : Nat) (cursor : ρ → κ) (left : List ρ) : Page ρ κ where
  items := left.take take
  next := if take < left.length then (left.take take).getLast?.map cursor else none

def Visits (same : List ρ → List ρ → Prop) (read : Nat → Option κ → Page ρ κ) (n : Nat)
    (position : Option κ) (rows : List ρ) : Prop :=
  ∃ fuel pages, walk read fuel n position = some pages ∧ same (visited pages) rows

variable {same : List ρ → List ρ → Prop} {n take : Nat} {cursor : ρ → κ} {left : List ρ}

theorem visits_last (hNext : (read n position).next = none) {rows : List ρ} :
    Visits same read n position rows ↔ same (read n position).items rows := by
  have hVisited : visited [read n position] = (read n position).items := List.flatMap_singleton _ _
  constructor
  · rintro ⟨fuel, pages, hWalk, hSame⟩
    cases fuel with
    | zero => cases hWalk
    | succ fuel =>
      rw [walk, hNext] at hWalk
      cases hWalk
      rwa [hVisited] at hSame
  · intro hSame
    refine ⟨1, [read n position], ?_, hVisited ▸ hSame⟩
    rw [walk, hNext]

theorem visits_next {k : κ} (hNext : (read n position).next = some k)
    (hCancel : ∀ xs ys zs, same (xs ++ ys) (xs ++ zs) ↔ same ys zs) {rows : List ρ} :
    Visits same read n position ((read n position).items ++ rows) ↔
      Visits same read (n + 1) (some k) rows := by
  constructor
  · rintro ⟨fuel, pages, hWalk, hSame⟩
    cases fuel with
    | zero => cases hWalk
    | succ fuel =>
      rcases walk_cases hWalk with ⟨hNone, -⟩ | ⟨k', rest, hSome, hRest, hVisited⟩
      · cases hNext.symm.trans hNone
      · cases hNext.symm.trans hSome
        rw [hVisited, hCancel] at hSame
        exact ⟨fuel, rest, hRest, hSame⟩
  · rintro ⟨fuel, rest, hRest, hSame⟩
    refine ⟨fuel + 1, read n position :: rest, ?_, (hCancel _ _ _).mpr hSame⟩
    rw [walk, hNext]
    exact congrArg (Option.map _) hRest

/-
  A walk that shows rows as they are left visits them all if the
  first page shows them all, or the walk goes on with the rest.
-/
theorem visits_shown_iff {σ : Type} {left : List σ} {cursor : σ → κ} (rest : List ρ)
    (hNext : (read n position).next =
      if take < left.length then (left.take take).getLast?.map cursor else none)
    (hTake : 0 < take) (hEnd : left.length ≤ take → rest = []) (hRefl : ∀ xs, same xs xs)
    (hCancel : ∀ xs ys zs, same (xs ++ ys) (xs ++ zs) ↔ same ys zs) :
    Visits same read n position ((read n position).items ++ rest) ↔
      ∀ last, left[take - 1]? = some last → take < left.length →
        Visits same read (n + 1) (some (cursor last)) rest := by
  by_cases hMore : take < left.length
  · have hLast : (left.take take).getLast? = some left[take - 1] := by
      rw [List.getLast?_eq_getElem?, List.length_take, min_eq_left hMore.le,
        List.getElem?_take_of_lt (by omega), List.getElem?_eq_getElem (by omega)]
    rw [if_pos hMore, hLast, Option.map_some] at hNext
    rw [visits_next hNext hCancel]
    constructor
    · intro hRest last hGet _
      rw [List.getElem?_eq_getElem (by omega)] at hGet
      rwa [← Option.some.inj hGet]
    · intro hAll
      exact hAll _ (List.getElem?_eq_getElem (by omega)) hMore
  · rw [if_neg hMore] at hNext
    rw [visits_last hNext, hEnd (by omega), List.append_nil]
    exact iff_of_true (hRefl _) fun _ _ hLess => absurd hLess hMore

theorem visits_cut_iff (hRead : read n position = cut take cursor left) (hTake : 0 < take)
    (hRefl : ∀ xs, same xs xs) (hCancel : ∀ xs ys zs, same (xs ++ ys) (xs ++ zs) ↔ same ys zs) :
    Visits same read n position left ↔
      ∀ last, left[take - 1]? = some last → take < left.length →
        Visits same read (n + 1) (some (cursor last)) (left.drop take) := by
  have hNext : (read n position).next = (cut take cursor left).next := congrArg Page.next hRead
  have hItems : (read n position).items = left.take take := congrArg Page.items hRead
  have hShown := visits_shown_iff (left.drop take) hNext hTake List.drop_of_length_le hRefl hCancel
  rwa [hItems, List.take_append_drop] at hShown

end

section

/- What holds where one page ends and the next one begins. -/
def Cuts (take : ℕ) (R : ρ → ρ → Prop) (rows : List ρ) : Prop :=
  ∀ i, take ∣ i + 1 → ∀ a b, rows[i]? = some a → rows[i + 1]? = some b → R a b

variable {take : ℕ} {R : ρ → ρ → Prop} {rows : List ρ}

theorem cuts_of_length_le (hLength : rows.length ≤ take) : Cuts take R rows := by
  intro i hDvd a b _ hSecond
  have hLe : take ≤ i + 1 := Nat.le_of_dvd (Nat.succ_pos i) hDvd
  rw [List.getElem?_eq_none (by omega)] at hSecond
  cases hSecond

/- The end of the first page, and the pages after it. -/
theorem cuts_iff (hTake : 0 < take) :
    Cuts take R rows ↔
      (∀ a b, rows[take - 1]? = some a → rows[take]? = some b → R a b) ∧
        Cuts take R (rows.drop take) := by
  constructor
  · intro hCuts
    refine ⟨fun a b hFirst hSecond => ?_, fun i hDvd a b hFirst hSecond => ?_⟩
    · refine hCuts (take - 1) ⟨1, by omega⟩ a b hFirst ?_
      rwa [Nat.sub_add_cancel hTake]
    · rw [List.getElem?_drop] at hFirst hSecond
      have hHere : take ∣ take + i + 1 := by
        rw [Nat.add_assoc]
        exact Nat.dvd_add (Nat.dvd_refl take) hDvd
      exact hCuts (take + i) hHere a b hFirst hSecond
  · rintro ⟨hHere, hRest⟩ i hDvd a b hFirst hSecond
    by_cases hPage : i + 1 = take
    · have hIndex : i = take - 1 := by omega
      subst hIndex
      rw [hPage] at hSecond
      exact hHere a b hFirst hSecond
    · have hLe : take ≤ i + 1 := Nat.le_of_dvd (Nat.succ_pos i) hDvd
      refine hRest (i - take) ?_ a b ?_ ?_
      · rw [← Nat.sub_add_comm (by omega)]
        exact Nat.dvd_sub hDvd (Nat.dvd_refl take)
      · rw [List.getElem?_drop, Nat.add_sub_cancel' (by omega)]
        exact hFirst
      · rw [List.getElem?_drop, ← Nat.sub_add_comm (by omega), Nat.add_sub_cancel' (by omega)]
        exact hSecond

end

-- Growing Rows
----

variable [LinearOrder κ] {key : ρ → κ} {rows : Nat → List ρ}

/- No row is visited twice: a walk descends, and stays below the position it starts from. -/
theorem walk_descending
    (hRead : ∀ n position, IsPage key (rows n) position (read n position)) {fuel n : Nat}
    {position : Option κ} {pages : List (Page ρ κ)}
    (hWalk : walk read fuel n position = some pages) :
    (visited pages).Pairwise (fun a b => key b < key a) ∧
      ∀ row ∈ visited pages, Below key position row := by
  induction fuel generalizing n position pages with
  | zero => cases hWalk
  | succ fuel ih =>
    have hPage := hRead n position
    have hItems : ∀ row ∈ (read n position).items,
        Below key position row := by
      intro row hRow
      exact (hPage.stored row hRow).2
    rcases walk_cases hWalk with ⟨-, hVisited⟩ | ⟨k, rest, hNext, hRest, hVisited⟩
    · rw [hVisited]
      exact ⟨hPage.descending, hItems⟩
    · rcases ih hRest with ⟨hDescending, hBelow⟩
      rw [hVisited]
      constructor
      · rw [List.pairwise_append]
        refine ⟨hPage.descending, hDescending, ?_⟩
        intro a ha b hb
        calc
          key b < k := below_some.mp (hBelow b hb)
          _ ≤ key a := hPage.next_le k hNext a ha
      · intro row hRow
        rcases List.mem_append.mp hRow with hRow | hRow
        · exact hItems row hRow
        · rcases hPage.next_mem k hNext with ⟨last, hLast, hKey⟩
          intro bound hBound
          calc
            key row < k := below_some.mp (hBelow row hRow)
            _ = key last := hKey.symm
            _ < bound := hItems last hLast bound hBound

theorem walk_covers (hRead : ∀ n position, IsPage key (rows n) position (read n position))
    (hGrows : ∀ n, rows n ⊆ rows (n + 1)) {fuel n : Nat} {position : Option κ}
    {pages : List (Page ρ κ)} (hWalk : walk read fuel n position = some pages) :
    ∀ row ∈ rows n, Below key position row → row ∈ visited pages := by
  induction fuel generalizing n position pages with
  | zero => cases hWalk
  | succ fuel ih =>
    intro row hStored hBelow
    have hCovers := (hRead n position).covers row hStored hBelow
    rcases walk_cases hWalk with ⟨hNext, hVisited⟩ | ⟨k, rest, hNext, hRest, hVisited⟩
    · rw [hVisited]
      rcases hCovers with hRow | ⟨k, hk, -⟩
      · exact hRow
      · rw [hNext] at hk
        cases hk
    · rw [hVisited, List.mem_append]
      rcases hCovers with hRow | ⟨k', hk', hLess⟩
      · exact Or.inl hRow
      · rw [hNext] at hk'
        cases hk'
        apply Or.inr
        exact ih hRest row (hGrows n hStored) (below_some.mpr hLess)

/- The first page shows rows of the bound only, and so does a page that goes on from one of them. -/
def Anchored (key : ρ → κ) (bound rows : List ρ) : Option κ → Prop
  | none => rows ⊆ bound
  | some k => ∃ row ∈ bound, key row = k

variable {bound : List ρ}

/- A row outside the bound sorts ahead of it. -/
theorem mem_bound {stored : List ρ} (hBound :
    ∀ row ∈ stored, row ∈ bound ∨ ∀ other ∈ bound, key other < key row) {position : Option κ}
    (hAnchored : Anchored key bound stored position) {row : ρ} (hStored : row ∈ stored)
    (hBelow : Below key position row) :
    row ∈ bound := by
  cases position with
  | none => exact hAnchored hStored
  | some k =>
    rcases hAnchored with ⟨anchor, hAnchor, rfl⟩
    rcases hBound row hStored with hRow | hAhead
    · exact hRow
    · have hLess := below_some.mp hBelow
      exact absurd (hAhead anchor hAnchor) hLess.not_gt

/- Going on from a row leaves fewer rows below. -/
theorem length_below_lt {last : ρ} (hLast : last ∈ bound) (hBelow : Below key position last) :
    (bound.filter (Below key (some (key last)) ·)).length <
      (bound.filter (Below key position ·)).length := by
  have hFilter :
      bound.filter (Below key (some (key last)) ·) = (bound.filter (Below key position ·)).filter
        (Below key (some (key last)) ·) := by
    rw [List.filter_filter]
    apply List.filter_congr
    intro row _
    rw [← Bool.decide_and, decide_eq_decide]
    rw [below_some]
    constructor
    · intro hLess
      refine ⟨hLess, ?_⟩
      intro k hk
      exact hLess.trans (hBelow k hk)
    · exact And.left
  rw [hFilter, List.length_filter_lt_length_iff_exists]
  refine ⟨last, ?_, ?_⟩
  · exact List.mem_filter.mpr ⟨hLast, decide_eq_true hBelow⟩
  · rw [decide_eq_true_iff, below_some]
    exact lt_irrefl _

/-
  A walk ends once the rows of the bound are used up, whatever
  is added ahead of them meanwhile, and visits no other row.
-/
theorem walk_ends
    (hRead : ∀ n position, IsPage key (rows n) position (read n position)) {bound : List ρ}
    (hBound :
      ∀ n, ∀ row ∈ rows n, row ∈ bound ∨ ∀ other ∈ bound, key other < key row) {fuel n : Nat}
    {position : Option κ} (hAnchored : Anchored key bound (rows n) position)
    (hFuel : (bound.filter (Below key position ·)).length < fuel) :
    ∃ pages, walk read fuel n position = some pages ∧ visited pages ⊆ bound := by
  induction fuel generalizing n position with
  | zero => exact absurd hFuel (Nat.not_lt_zero _)
  | succ fuel ih =>
    have hPage := hRead n position
    have hItems : (read n position).items ⊆ bound := by
      intro row hRow
      rcases hPage.stored row hRow with ⟨hStored, hBelow⟩
      exact mem_bound (hBound n) hAnchored hStored hBelow
    rw [walk]
    cases hNext : (read n position).next with
    | none =>
      refine ⟨_, rfl, ?_⟩
      rw [visited, List.flatMap_singleton]
      exact hItems
    | some k =>
      rcases hPage.next_mem k hNext with ⟨last, hLast, hKey⟩
      have hLess := length_below_lt (hItems hLast) (hPage.stored last hLast).2
      rw [hKey] at hLess
      rcases @ih (n + 1) (some k) ⟨last, hItems hLast, hKey⟩ (by omega) with ⟨rest, hRest, hVisited⟩
      refine ⟨read n position :: rest, ?_, ?_⟩
      · simp only [hRest, Option.map_some]
      · exact List.append_subset.mpr ⟨hItems, hVisited⟩

-- Prefixes
----

section

variable {α : Type} {p : α → Bool} {xs : List α}

/- What matches comes before what does not. -/
def Leading (p : α → Bool) (xs : List α) : Prop := xs.Pairwise fun a b => p b → p a

theorem filter_append_filter_not (hLeading : Leading p xs) :
    xs.filter p ++ xs.filter (fun x => !p x) = xs := by
  induction xs with
  | nil => rfl
  | cons first rest ih =>
    rcases List.pairwise_cons.mp hLeading with ⟨hFirst, hRest⟩
    cases hMatch : p first with
    | true =>
      rw [List.filter_cons_of_pos hMatch, List.filter_cons_of_neg (by simp [hMatch]),
        List.cons_append, ih hRest]
    | false =>
      have hNone : rest.filter p = [] := by
        rw [List.filter_eq_nil_iff]
        intro x hMem hTrue
        rw [hFirst x hMem hTrue] at hMatch
        cases hMatch
      have hTail := ih hRest
      rw [hNone, List.nil_append] at hTail
      rw [List.filter_cons_of_neg (by simp [hMatch]), List.filter_cons_of_pos (by simp [hMatch]),
        hNone, List.nil_append, hTail]

end

end Keyset
