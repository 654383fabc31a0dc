import AccessLayer.Library.Keyset
import AccessLayer.Library.Numerals
import AccessLayer.Library.Table
import Mathlib.Data.Prod.Lex
import Mathlib.Data.String.Basic

/-
  Leaderboards of the holders of a key
  (`src/modules/keys/key-holder-leaderboard.service.ts`).

  The first page is cut from a snapshot, and later pages go on
  after a position that a cursor carries as text.  The snapshot
  is taken of the holders as they are; the look-up of the key and
  the form of the texts are left out.

  Main result: `leaderboard_agrees_iff`
-/

-- Holders
----

namespace AccessLayer

namespace Keys

namespace HolderLeaderboard

open Doubles Keyset Transactional

section

/- Addresses of type `ω`, in the order of the database. -/
structure Holder (ω : Type) where
  ownerAddress : ω
  balance : ℚ
  createdAt : ℤ
  deriving DecidableEq

instance {ω : Type} : Keyed (Holder ω) ω where
  key holder := holder.ownerAddress

structure CreatorKey (ω : Type) where
  circulatingSupply : ℚ
  ownerships : Table (Holder ω)

variable {ω : Type}

/- The largest balance first, then the first purchase, then the address. -/
def position (holder : Holder ω) : ℚᵒᵈ ×ₗ (ℤ ×ₗ ω) :=
  toLex (OrderDual.toDual holder.balance, toLex (holder.createdAt, holder.ownerAddress))

theorem position_injective : Function.Injective (@position ω) := by
  rintro ⟨owner, balance, since⟩ ⟨owner', balance', since'⟩ hSame
  cases hSame
  rfl

variable [LinearOrder ω]

instance : LinearOrder (Holder ω) := LinearOrder.lift' position position_injective

def aheadOf (holder row : Holder ω) : Bool :=
  holder.balance < row.balance ∨
    row.balance = holder.balance ∧ row.createdAt < holder.createdAt ∨
    row.balance = holder.balance ∧ row.createdAt = holder.createdAt ∧
      row.ownerAddress < holder.ownerAddress

def behind (holder row : Holder ω) : Bool :=
  (row.balance < holder.balance ∧ 0 < row.balance) ∨
    row.balance = holder.balance ∧ holder.createdAt < row.createdAt ∨
    row.balance = holder.balance ∧ row.createdAt = holder.createdAt ∧
      holder.ownerAddress < row.ownerAddress

namespace CreatorKey

def holders (key : CreatorKey ω) : List (Holder ω) := key.ownerships.rows.filter (0 < ·.balance)

/- The holders in the order of the leaderboard. -/
def ranked (key : CreatorKey ω) : List (Holder ω) := key.holders.insertionSort (· ≤ ·)

def totalSupply (key : CreatorKey ω) : ℚ :=
  if 0 < toNumber key.circulatingSupply then toNumber key.circulatingSupply
  else toNumber (key.holders.map Holder.balance).sum

end CreatorKey

structure HolderLeaderboardEntry (ω : Type) where
  rank : ℕ
  walletAddress : ω
  balance : ℚ
  supplyPercent : ℚ
  since : ℤ

def toEntry (row : Holder ω) (rank : ℕ) (totalSupply : ℚ) : HolderLeaderboardEntry ω where
  rank
  walletAddress := row.ownerAddress
  balance := toNumber row.balance
  supplyPercent :=
    if 0 < totalSupply then toNumber (toNumber (toNumber row.balance / totalSupply) * 100) else 0
  since := row.createdAt

/- Rows with consecutive ranks. -/
def toEntries (totalSupply : ℚ) (startRank : ℕ) (rows : List (Holder ω)) :
    List (HolderLeaderboardEntry ω) :=
  (rows.zipIdx startRank).map fun row => toEntry row.1 row.2 totalSupply

-- Cursors
----

/- The balance is what its text stands for, unless the text is refused. -/
structure HolderCursor (ω : Type) where
  balance : Option ℚ
  createdAt : ℤ
  ownerAddress : ω

/- Other numbers are written with an exponent, which no cursor may have. -/
def isPlain (x : ℚ) : Bool := -6 < place x ∧ place x ≤ 21

/- What the text of a number stands for. -/
def textValue (x : ℚ) : ℚ := decimal x (shortest x).1 (shortest x).2

def encodeHolderCursor (row : Holder ω) : HolderCursor ω where
  balance := if isPlain row.balance then some row.balance else none
  createdAt := row.createdAt
  ownerAddress := row.ownerAddress

def decodeHolderCursor (raw : HolderCursor ω) : Option (Holder ω) :=
  raw.balance.map fun balance =>
    { ownerAddress := raw.ownerAddress, balance, createdAt := raw.createdAt }

-- Pages
----

def pageLimit (limit : ℤ) : ℕ := (min (max limit 1) 100).toNat

/- The items of a snapshot. -/
def computeSnapshot (key : CreatorKey ω) : List (HolderLeaderboardEntry ω) :=
  toEntries key.totalSupply 1 (key.ranked.take 100)

/- The place of an entry, as its numbers tell it. -/
def HolderLeaderboardEntry.shown (entry : HolderLeaderboardEntry ω) : Holder ω where
  ownerAddress := entry.walletAddress
  balance := textValue entry.balance
  createdAt := entry.since

/- A cursor that is refused gives no page. -/
def getHolderLeaderboard (key : CreatorKey ω) (limit : ℤ) :
    Option (HolderCursor ω) → Option (Page (HolderLeaderboardEntry ω) (HolderCursor ω))
  | none =>
    let items := (computeSnapshot key).take (pageLimit limit)
    some
      { items
        next :=
          if items.length < key.holders.length then
            items.getLast?.map fun last => encodeHolderCursor last.shown
          else none }
  | some raw =>
    (decodeHolderCursor raw).map fun cursor =>
      let rows :=
        ((key.holders.filter (behind cursor)).insertionSort (· ≤ ·)).take (pageLimit limit + 1)
      let page := rows.take (pageLimit limit)
      let aheadCount := key.holders.countP fun row => aheadOf cursor row ∨ row = cursor
      { items := toEntries key.totalSupply (aheadCount + 1) page
        next :=
          if pageLimit limit < rows.length then page.getLast?.map encodeHolderCursor
          else none }

def getHolderRank (key : CreatorKey ω) (wallet : ω) : Option (HolderLeaderboardEntry ω) :=
  (key.ownerships.find? wallet).bind fun holder =>
    if toNumber holder.balance ≤ 0 then none
    else some (toEntry holder (key.holders.countP (aheadOf holder) + 1) key.totalSupply)

/- The requests of a walk; one that is refused shows nothing. -/
def leaderboardPage (key : CreatorKey ω) (limit : ℤ) (_ : ℕ) (cursor : Option (HolderCursor ω)) :
    Page (HolderLeaderboardEntry ω) (HolderCursor ω) :=
  (getHolderLeaderboard key limit cursor).getD { items := [], next := none }

/-
  The first cursor has an exact enough balance for the holders
  behind it, and no later one has a balance with an exponent.
-/
structure Kept (key : CreatorKey ω) (limit : ℤ) : Prop where
  first : ∀ last next, key.ranked[pageLimit limit - 1]? = some last →
    key.ranked[pageLimit limit]? = some next →
      isPlain (textValue (toNumber last.balance)) ∧ ∀ row ∈ key.holders,
        behind { last with balance := textValue (toNumber last.balance) } row = behind last row
  later : Cuts (pageLimit limit) (fun last _ => isPlain last.balance)
    (key.ranked.drop (pageLimit limit))

-- Order
----

variable {key : CreatorKey ω} {limit : ℤ} {entry : HolderLeaderboardEntry ω}
variable {holder cursor row last : Holder ω} {i : ℕ}

theorem lt_iff {a b : Holder ω} :
    a < b ↔ b.balance < a.balance ∨ a.balance = b.balance ∧ (a.createdAt < b.createdAt ∨
      a.createdAt = b.createdAt ∧ a.ownerAddress < b.ownerAddress) := by
  change position a < position b ↔ _
  simp only [position, Prod.Lex.toLex_lt_toLex, OrderDual.toDual_lt_toDual,
    EmbeddingLike.apply_eq_iff_eq]

theorem aheadOf_iff : aheadOf holder row = true ↔ row < holder := by
  rw [aheadOf, decide_eq_true_iff, lt_iff]
  tauto

theorem behind_iff (hPos : 0 < row.balance) : behind holder row = true ↔ holder < row := by
  rw [behind, decide_eq_true_iff, lt_iff, @eq_comm _ holder.balance, @eq_comm _ holder.createdAt]
  tauto

theorem perm_ranked : key.ranked.Perm key.holders := List.perm_insertionSort _ _

omit [LinearOrder ω] in
theorem pos_of_mem_holders (hRow : row ∈ key.holders) : 0 < row.balance :=
  of_decide_eq_true (List.mem_filter.mp hRow).2

theorem sorted_ranked : key.ranked.Pairwise (· < ·) := by
  have hNodup : key.ranked.Nodup :=
    perm_ranked.nodup_iff.mpr ((List.Nodup.of_map _ key.ownerships.unique).filter _)
  have hSorted : key.ranked.Pairwise (· ≤ ·) := List.pairwise_insertionSort _ _
  apply (hSorted.and hNodup).imp
  rintro a b ⟨hLe, hNe⟩
  exact lt_of_le_of_ne hLe hNe

/- The holders up to a position come first. -/
theorem leading_upTo (cursor : Holder ω) :
    Keyset.Leading (fun row => decide (row ≤ cursor)) key.ranked := by
  apply sorted_ranked.imp
  intro a b hLess hTo
  exact decide_eq_true (hLess.le.trans (of_decide_eq_true hTo))

/- How many holders there are up to a position. -/
def countTo (key : CreatorKey ω) (cursor : Holder ω) : ℕ := key.ranked.countP (· ≤ cursor)

theorem filter_behind (cursor : Holder ω) :
    (key.holders.filter (behind cursor)).insertionSort (· ≤ ·) =
      key.ranked.drop (countTo key cursor) := by
  have hBehind : key.holders.filter (behind cursor) =
      key.holders.filter fun row => !decide (row ≤ cursor) := by
    apply List.filter_congr
    intro row hRow
    rw [Bool.eq_iff_iff, behind_iff (pos_of_mem_holders hRow)]
    simp
  have hRest : (key.ranked.filter fun row => !decide (row ≤ cursor)) =
      key.ranked.drop (countTo key cursor) := by
    conv_rhs => rw [← Keyset.filter_append_filter_not (leading_upTo cursor)]
    rw [countTo, List.countP_eq_length_filter, List.drop_left]
  rw [hBehind, ← hRest]
  refine List.Perm.eq_of_pairwise (fun _ _ _ _ => le_antisymm) (List.pairwise_insertionSort _ _)
    ((sorted_ranked.imp le_of_lt).filter _) ?_
  exact (List.perm_insertionSort _ _).trans (perm_ranked.symm.filter _)

theorem countP_ranked (hLast : key.ranked[i]? = some last) {p : Holder ω → Bool}
    (hBefore : ∀ row ∈ key.ranked, row < last → p row)
    (hAfter : ∀ row ∈ key.ranked, last < row → ¬p row) :
    key.ranked.countP p = i + if p last then 1 else 0 := by
  rcases List.getElem?_eq_some_iff.mp hLast with ⟨hLength, hGet⟩
  have hSplit : key.ranked = key.ranked.take i ++ last :: key.ranked.drop (i + 1) := by
    rw [← hGet, ← List.drop_eq_getElem_cons hLength, List.take_append_drop]
  have hSorted := @sorted_ranked _ _ key
  rw [hSplit, List.pairwise_append, List.pairwise_cons] at hSorted
  rcases hSorted with ⟨-, ⟨hRest, -⟩, hFirst⟩
  have hAll : (key.ranked.take i).countP p = i := by
    have hCount : (key.ranked.take i).countP p = (key.ranked.take i).length :=
      List.countP_eq_length.mpr fun row hRow =>
        hBefore row (List.mem_of_mem_take hRow) (hFirst row hRow last List.mem_cons_self)
    rw [hCount, List.length_take, min_eq_left hLength.le]
  have hNone : (key.ranked.drop (i + 1)).countP p = 0 :=
    List.countP_eq_zero.mpr fun row hRow => hAfter row (List.mem_of_mem_drop hRow) (hRest row hRow)
  rw [hSplit, List.countP_append, List.countP_cons, hAll, hNone, Nat.zero_add]

theorem countTo_eq (hLast : key.ranked[i]? = some last) : countTo key last = i + 1 := by
  have hCount := countP_ranked hLast (p := fun row => decide (row ≤ last))
    (fun row _ hLess => decide_eq_true hLess.le) fun row _ hLess hTo =>
      absurd (of_decide_eq_true hTo) hLess.not_ge
  rwa [if_pos (decide_eq_true le_rfl)] at hCount

theorem countP_aheadOf (hLast : key.ranked[i]? = some last) :
    key.holders.countP (aheadOf last) = i := by
  have hCount := countP_ranked hLast (p := aheadOf last)
    (fun row _ hLess => aheadOf_iff.mpr hLess) fun row _ hLess hAhead =>
      absurd (aheadOf_iff.mp hAhead) hLess.not_gt
  rw [if_neg fun hSelf => lt_irrefl _ (aheadOf_iff.mp hSelf)] at hCount
  rw [← perm_ranked.countP_eq, hCount, Nat.add_zero]

theorem getHolderRank_eq (hRow : key.ranked[i]? = some row) :
    getHolderRank key row.ownerAddress = some (toEntry row (i + 1) key.totalSupply) := by
  have hMem : row ∈ key.holders := perm_ranked.mem_iff.mp (List.mem_of_getElem? hRow)
  have hFound : key.ownerships.find? row.ownerAddress = some row :=
    Table.find?_eq_some_iff.mpr ⟨List.mem_of_mem_filter hMem, rfl⟩
  have hPos : ¬toNumber row.balance ≤ 0 := (toNumber_pos (pos_of_mem_holders hMem)).not_ge
  rw [getHolderRank, hFound, Option.bind_some, if_neg hPos, countP_aheadOf hRow]

-- Walks
----

theorem pageLimit_pos (limit : ℤ) : 0 < pageLimit limit := by
  unfold pageLimit
  omega

theorem pageLimit_le (limit : ℤ) : pageLimit limit ≤ 100 := by
  unfold pageLimit
  omega

omit [LinearOrder ω] in
theorem toEntries_append (totalSupply : ℚ) (start : ℕ) (rows rows' : List (Holder ω)) :
    toEntries totalSupply start (rows ++ rows') =
      toEntries totalSupply start rows ++ toEntries totalSupply (start + rows.length) rows' := by
  rw [toEntries, List.zipIdx_append, List.map_append]
  rfl

omit [LinearOrder ω] in
theorem toEntries_take_drop (totalSupply : ℚ) (start take : ℕ) (rows : List (Holder ω)) :
    toEntries totalSupply start (rows.take take) ++
      toEntries totalSupply (start + take) (rows.drop take) =
      toEntries totalSupply start rows := by
  have hAppend := toEntries_append totalSupply start (rows.take take) (rows.drop take)
  rw [List.take_append_drop] at hAppend
  rw [hAppend]
  by_cases hMore : take ≤ rows.length
  · rw [List.length_take, min_eq_left hMore]
  · rw [List.drop_of_length_le (by omega)]
    rfl

omit [LinearOrder ω] in
theorem toEntries_take (totalSupply : ℚ) (start take : ℕ) (rows : List (Holder ω)) :
    (toEntries totalSupply start rows).take take =
      toEntries totalSupply start (rows.take take) := by
  induction rows generalizing start take with
  | nil => simp [toEntries]
  | cons row rest ih =>
    cases take with
    | zero => rfl
    | succ take => exact congrArg (toEntry row start totalSupply :: ·) (ih (start + 1) take)

omit [LinearOrder ω] in
theorem length_toEntries (totalSupply : ℚ) (start : ℕ) (rows : List (Holder ω)) :
    (toEntries totalSupply start rows).length = rows.length := by
  rw [toEntries, List.length_map, List.length_zipIdx]

/- A holder as the numbers of an entry tell it. -/
def rounded (row : Holder ω) : Holder ω := { row with balance := textValue (toNumber row.balance) }

omit [LinearOrder ω] in
theorem map_shown (totalSupply : ℚ) (start : ℕ) (rows : List (Holder ω)) :
    (toEntries totalSupply start rows).map HolderLeaderboardEntry.shown = rows.map rounded := by
  induction rows generalizing start with
  | nil => rfl
  | cons row rest ih => exact congrArg (rounded row :: ·) (ih (start + 1))

theorem firstPage_eq {n : ℕ} :
    leaderboardPage key limit n none =
      { items := toEntries key.totalSupply 1 (key.ranked.take (pageLimit limit))
        next :=
          if pageLimit limit < key.ranked.length then
            (key.ranked.take (pageLimit limit)).getLast?.map fun last =>
              encodeHolderCursor (rounded last)
          else none } := by
  have hItems : (computeSnapshot key).take (pageLimit limit) =
      toEntries key.totalSupply 1 (key.ranked.take (pageLimit limit)) := by
    rw [computeSnapshot, toEntries_take, List.take_take, min_eq_left (pageLimit_le limit)]
  have hMore : ((toEntries key.totalSupply 1 (key.ranked.take (pageLimit limit))).length <
      key.holders.length) = (pageLimit limit < key.ranked.length) := by
    rw [length_toEntries, List.length_take, ← perm_ranked.length_eq]
    exact propext (by omega)
  have hShown := map_shown key.totalSupply 1 (key.ranked.take (pageLimit limit))
  have hLast := congrArg (fun rows => rows.getLast?.map encodeHolderCursor) hShown
  simp only [List.getLast?_map, Option.map_map] at hLast
  unfold leaderboardPage getHolderLeaderboard
  simp only [hItems, hMore, Option.getD_some]
  congr 1
  split
  · exact hLast
  · rfl

theorem laterPage_eq {n : ℕ} (hPlain : isPlain cursor.balance) :
    leaderboardPage key limit n (some (encodeHolderCursor cursor)) =
      { items := toEntries key.totalSupply (countTo key cursor + 1)
          ((key.ranked.drop (countTo key cursor)).take (pageLimit limit))
        next :=
          if pageLimit limit < (key.ranked.drop (countTo key cursor)).length then
            ((key.ranked.drop (countTo key cursor)).take (pageLimit limit)).getLast?.map
              encodeHolderCursor
          else none } := by
  have hDecode : decodeHolderCursor (encodeHolderCursor cursor) = some cursor := by
    rw [decodeHolderCursor, encodeHolderCursor, if_pos hPlain]
    rfl
  have hAhead :
      (key.holders.countP fun row => aheadOf cursor row ∨ row = cursor) = countTo key cursor := by
    rw [countTo, perm_ranked.countP_eq]
    apply List.countP_congr
    intro row _
    simp only [aheadOf_iff, decide_eq_true_iff, le_iff_lt_or_eq]
  have hMore (rows : List (Holder ω)) :
      (pageLimit limit < (rows.take (pageLimit limit + 1)).length) =
        (pageLimit limit < rows.length) := by
    rw [List.length_take]
    exact propext (by omega)
  unfold leaderboardPage getHolderLeaderboard
  simp only [hDecode, Option.map_some, Option.getD_some, filter_behind, hAhead, hMore,
    List.take_take, min_eq_left (Nat.le_succ _)]

theorem rank_of_visits {n k : ℕ} {rest : List (Holder ω)} (hPlain : isPlain cursor.balance)
    (hVisits : Visits Eq (leaderboardPage key limit) n (some (encodeHolderCursor cursor))
      (toEntries key.totalSupply (k + 1) (row :: rest))) :
    countTo key cursor = k := by
  have hPage := @laterPage_eq _ _ key limit cursor n hPlain
  rcases hVisits with ⟨fuel, pages, hWalk, hVisited⟩
  have hLimit := pageLimit_pos limit
  cases fuel with
  | zero => cases hWalk
  | succ fuel =>
    cases hLeft : key.ranked.drop (countTo key cursor) with
    | nil =>
      rw [hLeft] at hPage
      rcases walk_cases hWalk with ⟨-, hSame⟩ | ⟨next, pages', hNext, -, -⟩
      · rw [hVisited, hPage, List.take_nil] at hSame
        cases hSame
      · rw [hPage] at hNext
        cases hNext
    | cons first left =>
      have hHead : ∃ more, visited pages =
          toEntry first (countTo key cursor + 1) key.totalSupply :: more := by
        have hItems : (leaderboardPage key limit n (some (encodeHolderCursor cursor))).items =
            toEntry first (countTo key cursor + 1) key.totalSupply ::
              toEntries key.totalSupply (countTo key cursor + 2)
                (left.take (pageLimit limit - 1)) := by
          rw [hPage, hLeft, ← Nat.sub_add_cancel hLimit]
          rfl
        rcases walk_cases hWalk with ⟨-, hSame⟩ | ⟨next, pages', -, -, hSame⟩
        · exact ⟨_, hSame.trans hItems⟩
        · exact ⟨_, hSame.trans (congrArg (· ++ visited pages') hItems)⟩
      rcases hHead with ⟨more, hHead⟩
      have hRank := congrArg (fun entries => entries.head?.map HolderLeaderboardEntry.rank)
        (hHead.symm.trans hVisited)
      exact Nat.succ.inj (Option.some.inj hRank)

/- From a position on, the pages show the holders left if no cursor is refused. -/
theorem visits_from_iff {n k : ℕ} (hMore : k < key.ranked.length) :
    Visits Eq (leaderboardPage key limit) n (some (encodeHolderCursor cursor))
      (toEntries key.totalSupply (k + 1) (key.ranked.drop k)) ↔
      isPlain cursor.balance ∧ countTo key cursor = k ∧
        Cuts (pageLimit limit) (fun last _ => isPlain last.balance) (key.ranked.drop k) := by
  induction hCount : key.ranked.length - k using Nat.strong_induction_on
    generalizing n k cursor with
  | _ count ih =>
    have hLimit := pageLimit_pos limit
    have hFirst : key.ranked.drop k = key.ranked[k] :: key.ranked.drop (k + 1) :=
      List.drop_eq_getElem_cons hMore
    by_cases hPlain : isPlain cursor.balance
    swap
    · have hRefused : leaderboardPage key limit n (some (encodeHolderCursor cursor)) =
          { items := [], next := none } := by
        unfold leaderboardPage getHolderLeaderboard decodeHolderCursor encodeHolderCursor
        rw [if_neg hPlain]
        rfl
      rw [visits_last (congrArg Page.next hRefused), hRefused, hFirst]
      exact iff_of_false (by rintro ⟨⟩) fun hBoth => hPlain hBoth.1
    by_cases hPlace : countTo key cursor = k
    swap
    · refine iff_of_false (fun hVisits => hPlace ?_) fun hBoth => hPlace hBoth.2.1
      rw [hFirst] at hVisits
      exact rank_of_visits hPlain hVisits
    subst hPlace
    generalize hLeft : key.ranked.drop (countTo key cursor) = left
    have hPage := @laterPage_eq _ _ key limit cursor n hPlain
    rw [hLeft] at hPage
    have hShown := visits_shown_iff
      (toEntries key.totalSupply (countTo key cursor + 1 + pageLimit limit)
        (left.drop (pageLimit limit))) (congrArg Page.next hPage) hLimit
      (fun hEnd => by rw [List.drop_of_length_le hEnd]; rfl) (@Eq.refl _)
      fun xs ys zs => List.append_right_inj xs
    rw [hPage, toEntries_take_drop] at hShown
    rw [hShown, cuts_iff hLimit]
    refine Iff.trans ?_ ⟨fun hCuts => ⟨hPlain, rfl, hCuts⟩, fun hBoth => hBoth.2.2⟩
    by_cases hLonger : pageLimit limit < left.length
    · have hLength : countTo key cursor + pageLimit limit < key.ranked.length := by
        rw [← hLeft, List.length_drop] at hLonger
        omega
      have hLast : left[pageLimit limit - 1]? = some left[pageLimit limit - 1] :=
        List.getElem?_eq_getElem (by omega)
      have hNext : left[pageLimit limit]? = some left[pageLimit limit] :=
        List.getElem?_eq_getElem hLonger
      generalize left[pageLimit limit - 1] = last at hLast
      have hAt : key.ranked[countTo key cursor + (pageLimit limit - 1)]? = some last := by
        rw [← List.getElem?_drop, hLeft, hLast]
      have hTo : countTo key last = countTo key cursor + pageLimit limit := by
        rw [countTo_eq hAt]
        omega
      have hRest := @ih _ (by omega) last (n + 1) _ hLength rfl
      rw [← List.drop_drop, hLeft, Nat.add_right_comm] at hRest
      constructor
      · intro hAll
        have hBoth := hRest.mp (hAll last hLast hLonger)
        refine ⟨fun a b ha _ => ?_, hBoth.2.2⟩
        rw [hLast] at ha
        exact Option.some.inj ha ▸ hBoth.1
      · rintro ⟨hHere, hCuts⟩ other hOther _
        rw [hLast] at hOther
        cases hOther
        exact hRest.mpr ⟨hHere _ _ hLast hNext, hTo, hCuts⟩
    · refine iff_of_true (fun _ _ hLess => absurd hLess hLonger) ?_
      exact (cuts_iff hLimit).mp (cuts_of_length_le (by omega))

theorem behind_rounded_iff (hLast : key.ranked[i]? = some last) :
    (∀ row ∈ key.holders, behind (rounded last) row = behind last row) ↔
      countTo key (rounded last) = i + 1 := by
  have hTo (cursor : Holder ω) (row : Holder ω) (hRow : row ∈ key.holders) :
      behind cursor row = !decide (row ≤ cursor) := by
    rw [Bool.eq_iff_iff, behind_iff (pos_of_mem_holders hRow)]
    simp
  constructor
  · intro hSame
    rw [← countTo_eq hLast, countTo, countTo, perm_ranked.countP_eq, perm_ranked.countP_eq]
    apply List.countP_congr
    intro row hRow
    have hBehind := hSame row hRow
    rw [hTo _ row hRow, hTo _ row hRow, Bool.not_inj_iff] at hBehind
    rw [hBehind]
  · intro hCount row hRow
    have hMem (cursor : Holder ω) :
        behind cursor row = true ↔ row ∈ key.ranked.drop (countTo key cursor) := by
      rw [← filter_behind, List.mem_insertionSort, List.mem_filter]
      exact ⟨fun hBehind => ⟨hRow, hBehind⟩, And.right⟩
    rw [Bool.eq_iff_iff, hMem, hMem, hCount, countTo_eq hLast]

/-
  The pages list each holder once, in the order of the ranks, and
  a holder is looked up with the rank of its entry.
-/
structure Agrees (key : CreatorKey ω) (limit : ℤ) : Prop where
  pages : Visits Eq (leaderboardPage key limit) 0 none (toEntries key.totalSupply 1 key.ranked)
  ranks : ∀ entry ∈ toEntries key.totalSupply 1 key.ranked,
    getHolderRank key entry.walletAddress = some entry

theorem visits_pages_iff :
    Visits Eq (leaderboardPage key limit) 0 none (toEntries key.totalSupply 1 key.ranked) ↔
      Kept key limit := by
  have hLimit := pageLimit_pos limit
  have hPage := @firstPage_eq _ _ key limit 0
  have hShown := visits_shown_iff
    (toEntries key.totalSupply (1 + pageLimit limit) (key.ranked.drop (pageLimit limit)))
    (congrArg Page.next hPage) hLimit
    (fun hEnd => by rw [List.drop_of_length_le hEnd]; rfl) (@Eq.refl _)
    fun xs ys zs => List.append_right_inj xs
  rw [hPage, toEntries_take_drop] at hShown
  rw [hShown]
  have hRest (last : Holder ω) (hLast : key.ranked[pageLimit limit - 1]? = some last)
      (hMore : pageLimit limit < key.ranked.length) :
      Visits Eq (leaderboardPage key limit) 1 (some (encodeHolderCursor (rounded last)))
        (toEntries key.totalSupply (1 + pageLimit limit) (key.ranked.drop (pageLimit limit))) ↔
        isPlain (textValue (toNumber last.balance)) ∧
          (∀ row ∈ key.holders, behind (rounded last) row = behind last row) ∧
          Cuts (pageLimit limit) (fun last _ => isPlain last.balance)
            (key.ranked.drop (pageLimit limit)) := by
    rw [behind_rounded_iff hLast, Nat.sub_add_cancel hLimit, Nat.add_comm 1]
    exact visits_from_iff hMore
  constructor
  · intro hAll
    by_cases hMore : pageLimit limit < key.ranked.length
    · have hLast : key.ranked[pageLimit limit - 1]? = some key.ranked[pageLimit limit - 1] :=
        List.getElem?_eq_getElem (by omega)
      rcases (hRest _ hLast hMore).mp (hAll _ hLast hMore) with ⟨hPlain, hBehind, hLater⟩
      refine ⟨fun last next hOther _ => ?_, hLater⟩
      cases Option.some.inj (hLast.symm.trans hOther)
      exact ⟨hPlain, hBehind⟩
    · refine ⟨fun last next _ hNone => ?_, ?_⟩
      · rw [List.getElem?_eq_none (by omega)] at hNone
        cases hNone
      · rw [List.drop_of_length_le (by omega)]
        exact cuts_of_length_le (Nat.zero_le _)
  · intro hKept last hLast hMore
    have hFirst := hKept.first last _ hLast (List.getElem?_eq_getElem hMore)
    exact (hRest last hLast hMore).mpr ⟨hFirst.1, hFirst.2, hKept.later⟩

theorem rank_of_entry (hLimit : entry ∈ toEntries key.totalSupply 1 key.ranked) :
    getHolderRank key entry.walletAddress = some entry := by
  rcases List.mem_map.mp hLimit with ⟨⟨row, rank⟩, hRow, rfl⟩
  rcases List.mem_zipIdx_iff_le_and_getElem?_sub.mp hRow with ⟨hLe, hGet⟩
  have hRank := getHolderRank_eq hGet
  rwa [Nat.sub_add_cancel hLe] at hRank

/- Pages and ranks agree if and only if the cursors can be read back. -/
theorem leaderboard_agrees_iff (key : CreatorKey ω) (limit : ℤ) :
    Agrees key limit ↔ Kept key limit := by
  rw [← visits_pages_iff]
  exact ⟨Agrees.pages, fun hPages => ⟨hPages, fun _ => rank_of_entry⟩⟩

/- Two holders of very little, on pages of one. -/
def tinyHolders : CreatorKey String where
  circulatingSupply := 1
  ownerships := ⟨[⟨"A", 1 / 5000000, 0⟩, ⟨"B", 1 / 10000000, 0⟩], by decide⟩

/- The cursor after the first of them is refused. -/
theorem second_holder_not_listed : ¬∀ key limit, @Agrees String _ key limit := by
  intro hAll
  have hKept := visits_pages_iff.mp (hAll tinyHolders 1).pages
  have hPlain := (hKept.first ⟨"A", 1 / 5000000, 0⟩ ⟨"B", 1 / 10000000, 0⟩ (by decide +kernel)
    (by decide +kernel)).1
  exact absurd hPlain (by decide +kernel)

end

end HolderLeaderboard

end Keys

end AccessLayer
