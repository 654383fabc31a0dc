import AccessLayer.Library.Keyset
import AccessLayer.Library.Table
import AccessLayer.Utils.Cursor
import Mathlib.Data.Prod.Lex
import Mathlib.Data.String.Basic

/-
  Pages of the trades of a creator
  (`src/utils/trade-pagination.utils.ts`), newest first.

  Texts are compared by the collation of the database, which is
  any linear order.  Trades may be stored between two requests;
  a stored trade stays as it is.

  Main result: `follow_visits_once`
-/

-- Trades and Their Order
----

namespace AccessLayer

namespace Utils

namespace TradePagination

open Transactional

structure TradeRecord where
  id : String
  buyer : String
  creatorId : String
  quantity : String
  price : String
  ledger : Int32
  txHash : String
  timestamp : Int
  deriving DecidableEq

instance : Keyed TradeRecord (Int32 × String) where
  key trade := (trade.ledger, trade.txHash)

/- Text under a collation. -/
def Collated (_ : LinearOrder String) : Type := String

instance (collation : LinearOrder String) : LinearOrder (Collated collation) := collation

def collate (collation : LinearOrder String) (text : String) : Collated collation := text

inductive QueryError where
  | cursor (error : CursorChecksumError)
  | typeError
  | client (message : String)

/-
  The database: its collation, and what its client answers to a
  cursor that does not hold a ledger and a text.
-/
structure TradeClient where
  collation : LinearOrder String
  findLoosely : List TradeRecord → String → Option Json → Option Json → Nat →
    Except QueryError (List TradeRecord)

variable (client : TradeClient)

abbrev Position : Type := Int ×ₗ Collated client.collation

def position (trade : TradeRecord) : Position client :=
  toLex (trade.ledger.toInt, collate client.collation trade.txHash)

/- `orderBy: [{ ledger: 'desc' }, { txHash: 'desc' }]`. -/
def orderBy (rows : List TradeRecord) : List TradeRecord :=
  rows.insertionSort fun a b => position client b ≤ position client a

-- Queries
----

inductive WhereClause where
  | creator (creatorId : String)
  | behind (creatorId : String) (ledger txHash : Option Json)

/- The values the columns are compared with. -/
def columnValues (ledger txHash : Option Json) : Option (Int × String) :=
  match ledger, txHash with
  | some (.number ledger exponent), some (.string txHash) =>
    if exponent = 0 ∧ -2 ^ 31 ≤ ledger ∧ ledger < 2 ^ 31 then
      some (ledger, txHash)
    else none
  | _, _ => none

/- `OR: [{ ledger: { lt } }, { ledger, txHash: { lt } }]`. -/
def isBehind (ledger : Int) (txHash : String) (trade : TradeRecord) : Bool :=
  trade.ledger.toInt < ledger || (trade.ledger.toInt = ledger &&
    collate client.collation trade.txHash < collate client.collation txHash)

def findMany (rows : List TradeRecord) (whereClause : WhereClause)
    (take : Nat) : Except QueryError (List TradeRecord) :=
  match whereClause with
  | .creator creatorId => .ok ((orderBy client (rows.filter (·.creatorId = creatorId))).take take)
  | .behind creatorId ledger txHash =>
    match columnValues ledger txHash with
    | some (ledger, txHash) =>
      .ok ((orderBy client (rows.filter fun trade => trade.creatorId = creatorId &&
        isBehind client ledger txHash trade)).take take)
    | none => client.findLoosely rows creatorId ledger txHash take

/- The members of `TradeCursorPayload`. -/
def cursorPayload (trade : TradeRecord) : Json :=
  .object [("ledger", .number trade.ledger.toInt 0), ("tx_hash", .string trade.txHash)]

structure PaginatedTradesResult where
  items : List TradeRecord
  cursor : Option String
  has_more : Bool

variable (env : CursorKey)

def whereClause (creatorId : String) (cursor : Option String) : Except QueryError WhereClause :=
  match cursor with
  | none => .ok (.creator creatorId)
  | some cursor =>
    if cursor = "" then .ok (.creator creatorId)
    else
      match decodeCursor env cursor with
      | .error error => .error (.cursor error)
      | .ok .null => .error .typeError
      | .ok decoded => .ok (.behind creatorId (decoded.get? "ledger") (decoded.get? "tx_hash"))

/- Even a limit below one asks for one trade. -/
def pageSize (limit : Int) : Nat := (max 1 limit).toNat

/- The page of the records, of which one may be too many. -/
def paginate (take : Nat) (records : List TradeRecord) : PaginatedTradesResult :=
  let has_more : Bool := take < records.length
  let items := if has_more then records.take take else records
  let nextCursor :=
    match items.getLast? with
    | some lastItem =>
      if has_more then
        some (encodeCursor env (cursorPayload lastItem))
      else none
    | none => none
  { items, cursor := nextCursor, has_more }

def queryTradesPage (creatorId : String) (cursor : Option String) (limit : Int)
    (db : Table TradeRecord) :
    Except QueryError PaginatedTradesResult := do
  let take := pageSize limit
  let whereClause ← whereClause env creatorId cursor
  let records ← findMany client db.rows whereClause (take + 1)
  .ok (paginate env take records)

-- Requests Are Pages
----

variable {client : TradeClient} {env : CursorKey}

def tradesOf (creatorId : String) (db : Table TradeRecord) : List TradeRecord :=
  db.rows.filter (·.creatorId = creatorId)

theorem position_injective {a b : TradeRecord} (hPosition : position client a = position client b) :
    key a = key b := by
  have hPair := toLex.injective hPosition
  have hLedger := Int32.toInt_inj.mp (congrArg Prod.fst hPair)
  have hText : a.txHash = b.txHash := congrArg Prod.snd hPair
  exact Prod.ext hLedger hText

theorem position_unique (creatorId : String) (db : Table TradeRecord) :
    ((tradesOf creatorId db).map (position client)).Nodup := by
  have hKeys : ((tradesOf creatorId db).map key).Nodup :=
    db.unique.sublist (List.filter_sublist.map key)
  have hDistinct : (tradesOf creatorId db).Pairwise fun a b => key a ≠ key b :=
    List.pairwise_map.mp hKeys
  apply List.pairwise_map.mpr
  apply hDistinct.imp
  intro a b hNe hPosition
  exact hNe (position_injective hPosition)

theorem isBehind_iff {last trade : TradeRecord} :
    isBehind client last.ledger.toInt last.txHash trade = true ↔
      position client trade < position client last := by
  unfold position
  rw [Prod.Lex.toLex_lt_toLex, isBehind, Bool.or_eq_true, Bool.and_eq_true]
  simp only [decide_eq_true_eq]

theorem columnValues_cursorPayload (trade : TradeRecord) :
    columnValues ((cursorPayload trade).get? "ledger") ((cursorPayload trade).get? "tx_hash") =
      some (trade.ledger.toInt, trade.txHash) := by
  have hLedger : (cursorPayload trade).get? "ledger" = some (.number trade.ledger.toInt 0) := rfl
  have hText : (cursorPayload trade).get? "tx_hash" = some (.string trade.txHash) := rfl
  rw [hLedger, hText, columnValues]
  exact if_pos ⟨rfl, trade.ledger.le_toInt, trade.ledger.toInt_lt⟩

/- The cursor that goes on after a trade. -/
def cursorAfter (env : CursorKey) (trade : TradeRecord) : String :=
  encodeCursor env (cursorPayload trade)

theorem whereClause_cursorAfter (creatorId : String) (trade : TradeRecord) :
    whereClause env creatorId (some (cursorAfter env trade)) = .ok
      (.behind creatorId ((cursorPayload trade).get? "ledger")
        ((cursorPayload trade).get? "tx_hash")) := by
  rw [whereClause, cursorAfter, if_neg (encodeCursor_ne_empty (cursorPayload trade)),
    decodeCursor_encodeCursor]
  rfl

theorem exists_whereClause (creatorId : String) (last : Option TradeRecord)
    (db : Table TradeRecord) :
    ∃ clause, whereClause env creatorId (last.map (cursorAfter env)) = .ok clause ∧ ∀ take,
      findMany client db.rows clause take = .ok ((Keyset.found (position client)
        (tradesOf creatorId db) (last.map (position client))).take take) := by
  cases last with
  | none =>
    refine ⟨.creator creatorId, rfl, ?_⟩
    intro take
    have hAll : (tradesOf creatorId db).filter (Keyset.Below (position client) none ·) =
        tradesOf creatorId db := by
      apply List.filter_eq_self.mpr
      intro trade _
      exact decide_eq_true (Keyset.below_none trade)
    rw [Option.map_none, Keyset.found, hAll]
    rfl
  | some last =>
    refine ⟨_, whereClause_cursorAfter creatorId last, ?_⟩
    intro take
    have hBehind : (tradesOf creatorId db).filter (Keyset.Below (position client)
        (some (position client last)) ·) =
        db.rows.filter fun trade => trade.creatorId = creatorId &&
          isBehind client last.ledger.toInt last.txHash
            trade := by
      rw [tradesOf, List.filter_filter]
      apply List.filter_congr
      intro trade _
      rw [Bool.and_comm, Bool.eq_iff_iff, Bool.and_eq_true,
        Bool.and_eq_true, isBehind_iff, decide_eq_true_iff, decide_eq_true_iff, Keyset.below_some]
    rw [findMany, columnValues_cursorPayload, Option.map_some, Keyset.found, hBehind]
    rfl

theorem pageSize_pos (limit : Int) : 0 < pageSize limit := by
  unfold pageSize
  omega

/- The trade a page goes on after, if there are more. -/
def lastItem (take : Nat) (records : List TradeRecord) : Option TradeRecord :=
  if take < records.length then (records.take take).getLast?
  else none

theorem paginate_eq {take : Nat} (hTake : 0 < take) (records : List TradeRecord) :
    paginate env take records =
      { items := records.take take
        cursor := (lastItem take records).map (cursorAfter env)
        has_more := (lastItem take records).isSome } := by
  unfold paginate lastItem
  by_cases hMore : take < records.length
  · have hItems : records.take take ≠ [] := by
      intro hNil
      have hLength := congrArg List.length hNil
      rw [List.length_take, List.length_nil] at hLength
      omega
    simp only [hMore, decide_true, if_true, List.getLast?_eq_some_getLast hItems, Option.map_some,
      Option.isSome_some]
    rfl
  · simp only [hMore, decide_false, Bool.false_eq_true, if_false,
      List.take_of_length_le (Nat.not_lt.mp hMore)]
    cases records.getLast? <;> rfl

theorem page_eq_lastItem (take : Nat) (rows : List TradeRecord) (last : Option (Position client)) :
    let records := (Keyset.found (position client) rows last).take (take + 1)
    Keyset.page (position client) take rows last =
      { items := records.take take
        next :=
          (lastItem take records).map (position client) } := by
  intro records
  unfold Keyset.page lastItem
  by_cases hMore : take < records.length
  · rw [if_pos hMore, if_pos hMore]
  · rw [if_neg hMore, if_neg hMore, List.take_of_length_le (Nat.not_lt.mp hMore)]
    rfl

/-
  A request answers with the page below the trade its cursor was
  made of, and with the cursor of the page's last trade.
-/
theorem exists_queryTradesPage (creatorId : String) (last : Option TradeRecord) (limit : Int)
    (db : Table TradeRecord) :
    ∃ items next, queryTradesPage client env creatorId (last.map (cursorAfter env)) limit db = .ok
      { items
        cursor := Option.map (cursorAfter env) next
        has_more := Option.isSome next } ∧ Keyset.page (position client) (pageSize limit)
      (tradesOf creatorId db) (last.map (position client)) =
      { items
        next := Option.map (position client) next } := by
  rcases @exists_whereClause client env creatorId last db with ⟨clause, hClause, hRecords⟩
  let records :=
    (Keyset.found (position client) (tradesOf creatorId db)
      (last.map (position client))).take (pageSize limit + 1)
  refine ⟨records.take (pageSize limit), lastItem (pageSize limit) records, ?_,
    page_eq_lastItem (pageSize limit) _ _⟩
  rw [← paginate_eq (pageSize_pos limit)]
  unfold queryTradesPage
  rw [hClause]
  change (findMany client db.rows clause _).bind _ = _
  rw [hRecords]
  rfl

-- Sessions
----

/-
  A client that follows the cursors of a creator's trades.

  Trades arrive after each request.  Those that do not sort ahead
  of all others are finitely many: at most the ones still missing
  of the newest ledger.
-/
structure Session where
  client : TradeClient
  env : CursorKey
  creatorId : String
  limit : Int
  trades : Table TradeRecord
  arrivals : Nat → List TradeRecord
  late : List TradeRecord
  newer : ∀ n, ∀ trade ∈ arrivals n, trade.creatorId = creatorId →
    trade ∈ late ∨
      ∀ other ∈ tradesOf creatorId trades ++ late,
        position client other < position client trade

namespace Session

variable (session : Session)

/- The trades of the creator at the first request. -/
def stored : List TradeRecord := tradesOf session.creatorId session.trades

def tradesAt : Nat → Table TradeRecord
  | 0 => session.trades
  | n + 1 => (tradesAt n).createMany (session.arrivals n)

/- The answers up to the one without a cursor. -/
def follow : Nat → Nat → Option String → Option (List PaginatedTradesResult)
  | 0, _, _ => none
  | fuel + 1, n, cursor =>
    match queryTradesPage session.client session.env session.creatorId cursor session.limit
      (session.tradesAt n) with
    | .error _ => none
    | .ok result =>
      match result.cursor with
      | none => some [result]
      | some cursor => (follow fuel (n + 1) (some cursor)).map (result :: ·)

def read (n : Nat) (last : Option (Position session.client)) :
    Keyset.Page TradeRecord (Position session.client) :=
  Keyset.page (position session.client) (pageSize session.limit)
    (tradesOf session.creatorId (session.tradesAt n)) last

theorem isPage_read (n : Nat) (last : Option (Position session.client)) :
    Keyset.IsPage (position session.client) (tradesOf session.creatorId (session.tradesAt n)) last
      (session.read n last) := Keyset.isPage_page (pageSize_pos _) (position_unique _ _) last

theorem tradesOf_grows (n : Nat) :
    tradesOf session.creatorId (session.tradesAt n) ⊆
      tradesOf session.creatorId (session.tradesAt (n + 1)) := by
  rcases (session.tradesAt n).exists_rows_createMany (session.arrivals n) with ⟨added, hAdded⟩
  unfold tradesOf
  rw [tradesAt, hAdded, List.filter_append]
  exact List.subset_append_left _ _

theorem mem_tradesOf (n : Nat) :
    ∀ trade ∈ tradesOf session.creatorId (session.tradesAt n),
      trade ∈ session.stored ++ session.late ∨ ∀ other ∈ session.stored ++ session.late,
        position session.client other < position session.client trade := by
  induction n with
  | zero =>
    intro trade hTrade
    exact Or.inl (List.mem_append_left _ hTrade)
  | succ n ih =>
    intro trade hTrade
    rcases List.mem_filter.mp hTrade with ⟨hStored, hCreator⟩
    rw [tradesAt] at hStored
    rcases Table.mem_createMany hStored with hBefore | hArrived
    · exact ih trade (List.mem_filter.mpr ⟨hBefore, hCreator⟩)
    · have hNewer := session.newer n trade hArrived (of_decide_eq_true hCreator)
      exact hNewer.imp (List.mem_append_right _) id

theorem follow_eq_walk (fuel n : Nat) (last : Option TradeRecord) :
    (session.follow fuel n (last.map (cursorAfter session.env))).map
      (List.map PaginatedTradesResult.items) = (Keyset.walk session.read fuel n
        (last.map (position session.client))).map (List.map Keyset.Page.items) := by
  induction fuel generalizing n last with
  | zero => rfl
  | succ fuel ih =>
    rcases @exists_queryTradesPage session.client session.env session.creatorId last session.limit
      (session.tradesAt n) with ⟨items, next, hAnswer, hPage⟩
    rw [follow, Keyset.walk, hAnswer, read, hPage]
    cases next with
    | none => rfl
    | some trade =>
      have hRest := ih (n + 1) (some trade)
      simp only [Option.map_some] at hRest ⊢
      rw [Option.map_map, Option.map_map]
      calc
        _ = ((session.follow fuel (n + 1) (some (cursorAfter session.env trade))).map
          (List.map PaginatedTradesResult.items)).map
          (items :: ·) := by
            rw [Option.map_map]
            rfl
        _ = _ := by
          rw [hRest, Option.map_map]
          rfl

theorem exists_walk :
    ∃ pages, Keyset.walk session.read (session.stored.length + session.late.length + 1) 0 none =
      some pages ∧
      Keyset.visited pages ⊆ session.stored ++ session.late := by
  apply Keyset.walk_ends session.isPage_read session.mem_tradesOf
  · exact List.subset_append_left _ _
  · rw [← List.length_append]
    exact Nat.lt_succ_of_le (List.length_filter_le _ _)

/- The items of the answers, in the order they are given. -/
def visited (pages : List PaginatedTradesResult) : List TradeRecord :=
  pages.flatMap PaginatedTradesResult.items

/-
  Following the cursors comes to an end.  It goes strictly from
  newer to older trades, and passes each stored trade once.  Of
  the trades that arrive meanwhile only late ones are seen.
-/
theorem follow_visits_once :
    ∃ pages, session.follow (session.stored.length + session.late.length + 1) 0 none = some pages ∧
      (visited pages).Pairwise (fun a b => position session.client b <
        position session.client a) ∧ ((visited pages).filter (· ∈ session.stored)).Perm
        session.stored ∧ ∀ trade ∈ visited pages,
        trade ∈ session.stored ∨ trade ∈ session.late := by
  rcases session.exists_walk with ⟨walked, hWalk, hBound⟩
  have hAnswers := session.follow_eq_walk (session.stored.length + session.late.length + 1) 0 none
  rw [Option.map_none, Option.map_none, hWalk, Option.map_some] at hAnswers
  rcases Option.map_eq_some_iff.mp hAnswers with ⟨pages, hFollow, hItems⟩
  have hVisited : visited pages = Keyset.visited walked := by
    unfold visited Keyset.visited
    rw [List.flatMap_def, List.flatMap_def, hItems]
  have hDescending := (Keyset.walk_descending session.isPage_read hWalk).1
  have hCovers : ∀ trade ∈ session.stored, trade ∈ visited pages := by
    intro trade hStored
    rw [hVisited]
    exact Keyset.walk_covers session.isPage_read session.tradesOf_grows hWalk trade hStored
      (Keyset.below_none trade)
  rw [← hVisited] at hDescending hBound
  refine ⟨pages, hFollow, hDescending, ?_, ?_⟩
  · have hVisitedOnce : (visited pages).Nodup := by
      apply hDescending.imp
      rintro a b hLess rfl
      exact lt_irrefl _ hLess
    have hStoredOnce : session.stored.Nodup :=
      (@position_unique session.client session.creatorId session.trades).of_map
    apply (List.perm_ext_iff_of_nodup (hVisitedOnce.filter _) hStoredOnce).mpr
    intro trade
    rw [List.mem_filter, decide_eq_true_iff]
    constructor
    · exact And.right
    · intro hStored
      exact ⟨hCovers trade hStored, hStored⟩
  · intro trade hTrade
    exact List.mem_append.mp (hBound hTrade)

end Session

/- Texts in the order of their code points; other cursors are refused. -/
def plainClient : TradeClient where
  collation := inferInstance
  findLoosely _ _ _ _ _ := .error .typeError

def sampleTrade (ledger : Int32) (txHash : String) : TradeRecord where
  id := txHash
  buyer := "A"
  creatorId := "K"
  quantity := "1"
  price := "1"
  ledger
  txHash
  timestamp := 0

/-
  Pages of one trade.  After the first request, a newer trade is
  stored and one that the walk has not come to yet.
-/
def growingSession : Session where
  client := plainClient
  env := ⟨"secret", fun _ _ => List.replicate 32 0, fun _ _ => List.length_replicate⟩
  creatorId := "K"
  limit := 1
  trades := ⟨[sampleTrade 1 "a", sampleTrade 3 "c"], by decide⟩
  arrivals n := if n = 0 then [sampleTrade 4 "d", sampleTrade 2 "b"] else []
  late := [sampleTrade 2 "b"]
  newer n trade hTrade _ := by
    split at hTrade
    · rcases List.mem_pair.mp hTrade with rfl | rfl
      · exact .inr (by decide +kernel)
      · exact .inl List.mem_cons_self
    · cases hTrade

theorem follow_visits_once_sample :
    ((growingSession.follow 4 0 none).map Session.visited).map (List.map TradeRecord.txHash) =
      some ["c", "b", "a"] ∧
      ∃ pages, growingSession.follow 4 0 none = some pages ∧
        ((Session.visited pages).filter (· ∈ growingSession.stored)).Perm
          growingSession.stored := by
  refine ⟨by decide +kernel, ?_⟩
  rcases growingSession.follow_visits_once with ⟨pages, hPages, -, hOnce, -⟩
  exact ⟨pages, hPages, hOnce⟩

end TradePagination

end Utils

end AccessLayer
