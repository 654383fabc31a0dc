import AccessLayer.Library.Machines
import AccessLayer.Library.Table
import Mathlib

/-
  Limit orders on invoices
  (`src/modules/invoice/invoice-market.service.ts`).

  A run reads the open orders page by page, takes a lease on each
  by a conditional update, submits the purchase that it holds and
  gives the lease back with the outcome.  What a run reads of the
  clock, the tokens it draws and the answers to its purchases are
  given with it; the checks of a signed envelope are left out.

  Main result: `limit_orders_leased`
-/

-- Orders
----

namespace AccessLayer

namespace Invoice

open Transactional

section

inductive OrderStatus where
  | pending
  | submitting
  | filled
  | failed
  deriving DecidableEq

/- Tokens of leases are of type `υ`. -/
structure InvoiceLimitOrder (υ : Type) where
  id : String
  invoiceId : String
  fromWallet : String
  buyerWallet : String
  limitPrice : String
  transactionXdr : String
  txHash : String
  status : OrderStatus
  leaseUntil : Option ℤ
  leaseToken : Option υ
  createdAt : ℤ

instance {υ : Type} : Keyed (InvoiceLimitOrder υ) String where
  key := InvoiceLimitOrder.id

abbrev OrderTable (υ : Type) := Table (InvoiceLimitOrder υ)

/- An order as it is placed, its envelope checked. -/
structure NewOrder where
  id : String
  invoiceId : String
  fromWallet : String
  buyerWallet : String
  limitPrice : String
  transactionXdr : String
  txHash : String
  createdAt : ℤ

inductive ErrorKind where
  | user
  | transient
  deriving DecidableEq

inductive SubmissionStatus where
  | confirmed
  | failed
  deriving DecidableEq

structure SubmissionResult where
  status : SubmissionStatus
  errorKind : Option ErrorKind

inductive BuyError where
  | invalidTransaction
  | submit (kind : ErrorKind)
  | transferBlocked (reason restrictionType : String)
  | other

inductive MatchError where
  | invoiceNotFound
  | database
  | buy (e : BuyError)

inductive OrderResult where
  | settled (orderId : String) (status : OrderStatus)
  | skipped (orderId reason restrictionType : String)

structure MarketConfig where
  pollTimeoutMs : ℤ
  submitMaxAttempts : ℤ
  dbQueryTimeoutMs : ℤ
  submitMaxDelayMs : ℤ
  sellerWallet : String → Option String

def MarketConfig.leaseMs (config : MarketConfig) : ℤ :=
  config.pollTimeoutMs + config.submitMaxAttempts *
    (config.dbQueryTimeoutMs + config.submitMaxDelayMs) + 60000

variable {υ : Type}

def NewOrder.row (order : NewOrder) : InvoiceLimitOrder υ where
  id := order.id
  invoiceId := order.invoiceId
  fromWallet := order.fromWallet
  buyerWallet := order.buyerWallet
  limitPrice := order.limitPrice
  transactionXdr := order.transactionXdr
  txHash := order.txHash
  status := .pending
  leaseUntil := none
  leaseToken := none
  createdAt := order.createdAt

namespace InvoiceLimitOrder

/- Waiting, or under a lease that has lapsed. -/
def Claimable (now : ℤ) (row : InvoiceLimitOrder υ) : Prop :=
  row.status = .pending ∨ row.status = .submitting ∧ ∃ leaseUntil ∈ row.leaseUntil, leaseUntil < now

instance (now : ℤ) (row : InvoiceLimitOrder υ) : Decidable (row.Claimable now) :=
  match hUntil : row.leaseUntil with
  | none => decidable_of_iff (row.status = .pending) (by simp [Claimable, hUntil])
  | some leaseUntil =>
    decidable_of_iff (row.status = .pending ∨ row.status = .submitting ∧ leaseUntil < now)
      (by simp [Claimable, hUntil])

def leased (leaseToken : υ) (leaseUntil : ℤ) (row : InvoiceLimitOrder υ) : InvoiceLimitOrder υ :=
  { row with
    status := .submitting
    leaseToken := some leaseToken
    leaseUntil := some leaseUntil }

def released (status : OrderStatus) (row : InvoiceLimitOrder υ) : InvoiceLimitOrder υ :=
  { row with
    status
    leaseToken := none
    leaseUntil := none }

def Precedes (row other : InvoiceLimitOrder υ) : Prop :=
  row.createdAt < other.createdAt ∨ row.createdAt = other.createdAt ∧ row.id ≤ other.id

instance (row other : InvoiceLimitOrder υ) : Decidable (row.Precedes other) :=
  inferInstanceAs (Decidable (_ ∨ _))

end InvoiceLimitOrder

/- What became of a purchase that was answered. -/
def statusOf (result : SubmissionResult) : OrderStatus :=
  if result.status = .confirmed then .filled
  else if result.errorKind = some .transient then .pending
  else .failed

/- Such an error will not go away. -/
def terminal : BuyError → Bool
  | .invalidTransaction => true
  | .submit kind => kind = .user
  | _ => false

def recoveredStatus (error : BuyError) : OrderStatus :=
  if terminal error then .failed else .pending

end

-- Runs
----

section

variable {υ : Type}

/-
  A run: when it has begun, and for its first, second, … attempt
  on an order the time, the token and the answer to the purchase.
-/
structure MatchRequest (υ : Type) where
  invoiceId : String
  buyer : String
  now : ℤ
  dateNow : ℕ → ℤ
  randomUUID : ℕ → υ
  buyInvoice : ℕ → Except BuyError SubmissionResult

/- What is left of a page, and where the next one begins. -/
structure OrderPage (υ : Type) where
  sellerWallet : String
  rest : List (InvoiceLimitOrder υ)
  cursor : Option String

inductive MatchStage (υ : Type) where
  | opening
  | scanning (sellerWallet : String) (cursor : Option String)
  | claiming (page : OrderPage υ) (row : InvoiceLimitOrder υ)
  | buying (page : OrderPage υ) (row : InvoiceLimitOrder υ) (token : υ)
  | releasing (page : OrderPage υ) (row : InvoiceLimitOrder υ) (token : υ) (status : OrderStatus)
  /- the purchase, or the release after it, has thrown -/
  | recovering (page : OrderPage υ) (row : InvoiceLimitOrder υ) (token : υ) (error : BuyError)
  | ended (result : Except MatchError (List OrderResult))

structure MatchRun (υ : Type) where
  request : MatchRequest υ
  stage : MatchStage υ
  attempts : ℕ
  results : List OrderResult

def MatchRequest.run (request : MatchRequest υ) : MatchRun υ where
  request := request
  stage := .opening
  attempts := 0
  results := []

def pageSize : ℕ := 100

/- The orders of a page are open, and the buyer may trigger them. -/
def MatchRequest.Eligible (request : MatchRequest υ) (sellerWallet : String)
    (row : InvoiceLimitOrder υ) : Prop :=
  row.invoiceId = request.invoiceId ∧ row.createdAt ≤ request.now ∧ (sellerWallet = request.buyer ∨
    row.buyerWallet = request.buyer) ∧ row.Claimable request.now

instance (request : MatchRequest υ) (sellerWallet : String) (row : InvoiceLimitOrder υ) :
    Decidable (request.Eligible sellerWallet row) := inferInstanceAs (Decidable (_ ∧ _))

/- The rows from the cursor on, the first of them skipped. -/
def afterCursor (db : OrderTable υ) (rows : List (InvoiceLimitOrder υ)) :
    Option String → List (InvoiceLimitOrder υ)
  | none => rows
  | some cursor =>
    match db.find? cursor with
    | some start => (rows.filter (start.Precedes ·)).drop 1
    | none => []

def MatchRequest.findMany (request : MatchRequest υ) (sellerWallet : String)
    (cursor : Option String) (db : OrderTable υ) : List (InvoiceLimitOrder υ) :=
  (afterCursor db ((db.rows.filter (request.Eligible sellerWallet ·)).insertionSort
    InvoiceLimitOrder.Precedes) cursor).take pageSize

def nextCursor (rows : List (InvoiceLimitOrder υ)) : Option String :=
  if rows.length = pageSize then
    rows.getLast?.map InvoiceLimitOrder.id
  else none

namespace MatchRun

variable (run : MatchRun υ)

def stop (e : MatchError) : MatchRun υ := { run with stage := .ended (.error e) }

/- The next order of the page, or the next page. -/
def proceed (page : OrderPage υ) : MatchRun υ :=
  match page.rest, page.cursor with
  | row :: rest, _ => { run with stage := .claiming { page with rest } row }
  | [], some cursor =>
    { run with
      stage := .scanning page.sellerWallet (some cursor) }
  | [], none => { run with stage := .ended (.ok run.results) }

def push (result : OrderResult) : MatchRun υ := { run with results := run.results ++ [result] }

def token : υ := run.request.randomUUID run.attempts

/- The order that the claim is made on is still open. -/
def claims (row stored : InvoiceLimitOrder υ) : Bool :=
  stored.id = row.id ∧ stored.Claimable run.request.now

end MatchRun

theorem key_leased (leaseToken : υ) (leaseUntil : ℤ) (row : InvoiceLimitOrder υ) :
    key (row.leased leaseToken leaseUntil) = key row := rfl

theorem key_released (status : OrderStatus) (row : InvoiceLimitOrder υ) :
    key (row.released status) = key row := rfl

/- The conditional update that takes a lease. -/
def claimOrder (config : MarketConfig) (run : MatchRun υ) (row : InvoiceLimitOrder υ)
    (db : OrderTable υ) : OrderTable υ :=
  let leaseUntil := run.request.dateNow run.attempts + config.leaseMs
  db.updateMany (run.claims row) (InvoiceLimitOrder.leased run.token leaseUntil)
    (key_leased run.token leaseUntil)

variable [DecidableEq υ]

/- The conditional update that gives a lease back. -/
def releaseOrder (orderId : String) (token : υ) (status : OrderStatus)
    (db : OrderTable υ) : OrderTable υ :=
  db.updateMany (fun row => row.id = orderId ∧ row.leaseToken = some token)
    (InvoiceLimitOrder.released status) (key_released status)

def executeMatchRun (config : MarketConfig) (run : MatchRun υ)
    (db : OrderTable υ) : Option (OrderTable υ × MatchRun υ) :=
  match run.stage with
  | .opening =>
    match config.sellerWallet run.request.invoiceId with
    | none => some (db, run.stop .invoiceNotFound)
    | some sellerWallet => some (db, { run with stage := .scanning sellerWallet none })
  | .scanning sellerWallet cursor =>
    let rows := run.request.findMany sellerWallet cursor db
    some (db, run.proceed { sellerWallet, rest := rows, cursor := nextCursor rows })
  | .claiming page row =>
    let after := { run with attempts := run.attempts + 1 }
    if db.rows.countP (run.claims row) = 0 then
      some (db, after.proceed page)
    else
      some (claimOrder config run row db, { after with stage := .buying page row run.token })
  | .buying page row token =>
    match run.request.buyInvoice (run.attempts - 1) with
    | .ok result =>
      some (db, { run with
            stage := .releasing page row token (statusOf result) })
    | .error e => some (db, { run with stage := .recovering page row token e })
  | .releasing page row token status =>
    some (releaseOrder row.id token status db, (run.push (.settled row.id status)).proceed page)
  | .recovering page row token error =>
    let db := releaseOrder row.id token (recoveredStatus error) db
    if terminal error then
      some (db, (run.push (.settled row.id .failed)).proceed page)
    else
      match error with
      | .transferBlocked reason restrictionType =>
        some (db, (run.push (.skipped row.id reason restrictionType)).proceed page)
      | _ => some (db, run.stop (.buy error))
  | .ended _ => none

/- The catch of a run is about the purchase and its release. -/
def MatchRun.fail (run : MatchRun υ) : MatchRun υ :=
  match run.stage with
  | .buying page row token => { run with stage := .recovering page row token .other }
  | .releasing page row token _ => { run with stage := .recovering page row token .other }
  | .ended _ => run
  | _ => run.stop .database

/- An order that is being placed, or a run. -/
inductive MarketCall (υ : Type) where
  | placing (order : NewOrder)
  | placed (result : Except MatchError (InvoiceLimitOrder υ))
  | matching (run : MatchRun υ)

/- An envelope that is stored already is not stored again. -/
def placeInvoiceLimitOrder (order : NewOrder) (db : OrderTable υ) : OrderTable υ × MarketCall υ :=
  match db.rows.find? fun row => row.txHash = order.txHash with
  | some row => (db, .placed (.ok row))
  | none =>
    match db.insert? order.row with
    | some db' => (db', .placed (.ok order.row))
    | none => (db, .placed (.error .database))

def executeMarketCall (config : MarketConfig) (call : MarketCall υ)
    (db : OrderTable υ) : Option (OrderTable υ × MarketCall υ) :=
  match call with
  | .placing order => some (placeInvoiceLimitOrder order db)
  | .placed _ => none
  | .matching run => (executeMatchRun config run db).map fun after => (after.1, .matching after.2)

def MarketCall.fail : MarketCall υ → MarketCall υ
  | .placing _ => .placed (.error .database)
  | .placed result => .placed result
  | .matching run => .matching run.fail

def market (config : MarketConfig) : Machine (OrderTable υ) (MarketCall υ) where
  execute := executeMarketCall config
  fail := MarketCall.fail

end

-- Leases
----

section

variable {υ : Type}

namespace MarketCall

/- The tokens that a call may draw. -/
def tokens : MarketCall υ → Set υ
  | .matching run => Set.range run.request.randomUUID
  | _ => ∅

/- The order that a call submits the purchase of, and its lease. -/
def executes : MarketCall υ → Option (String × υ)
  | .matching run =>
    match run.stage with
    | .buying _ row token => some (row.id, token)
    | _ => none
  | _ => none

def settles : MarketCall υ → Option (String × υ × OrderStatus)
  | .matching run =>
    match run.stage with
    | .releasing _ row token status => some (row.id, token, status)
    | .recovering _ row token error => some (row.id, token, recoveredStatus error)
    | _ => none
  | _ => none

/- The order that a call has taken a lease on. -/
def held : MarketCall υ → Option (String × υ)
  | .matching run =>
    match run.stage with
    | .buying _ row token => some (row.id, token)
    | .releasing _ row token _ => some (row.id, token)
    | .recovering _ row token _ => some (row.id, token)
    | _ => none
  | _ => none

/- The order that a call is about to claim, and when it began. -/
def claims : MarketCall υ → Option (String × ℤ)
  | .matching run =>
    match run.stage with
    | .claiming _ row => some (row.id, run.request.now)
    | _ => none
  | _ => none

end MarketCall

/- A run, or an order to be placed. -/
inductive MarketRequest (υ : Type) where
  | placeInvoiceLimitOrder (order : NewOrder)
  | matchInvoiceLimitOrders (request : MatchRequest υ)

def MarketRequest.call : MarketRequest υ → MarketCall υ
  | .placeInvoiceLimitOrder order => .placing order
  | .matchInvoiceLimitOrders request => .matching request.run

abbrev MarketCrew (υ : Type) := Crew (OrderTable υ) (MarketCall υ)

def marketStart (requests : List (MarketRequest υ)) : MarketCrew υ :=
  .start .empty (requests.map MarketRequest.call)

/- No token is drawn by two runs. -/
def TokensApart (requests : List (MarketRequest υ)) : Prop :=
  requests.Pairwise fun request other => Disjoint request.call.tokens other.call.tokens

def InvoiceLimitOrder.Settled (row : InvoiceLimitOrder υ) : Prop :=
  row.status = .filled ∨ row.status = .failed

def KeepsSettled (db db' : OrderTable υ) : Prop :=
  ∀ orderId row, db.find? orderId = some row → row.Settled → ∃ row', db'.find? orderId = some row' ∧
    row'.status = row.status

/-
  An order that is no longer under its lease was settled or
  released by the call that holds the lease.
-/
def ReleasedByOwner (crew : MarketCrew υ) (move : FaultMove) (crew' : MarketCrew υ) : Prop :=
  ∀ orderId row row', crew.store.find? orderId = some row → row.status = .submitting →
    crew'.store.find? orderId = some row' → row'.status ≠ .submitting → ∃ i outcome call token,
      move = .attempt i outcome ∧ crew.calls[i]? = some (some call) ∧
        call.settles = some (orderId, token, row'.status) ∧ row.leaseToken = some token

/- A call that executes an order holds the lease on it, and no two calls execute one order. -/
structure Exclusive (crew : MarketCrew υ) : Prop where
  owner : ∀ (i : ℕ) call orderId token, crew.calls[i]? = some (some call) →
    call.executes = some (orderId, token) → ∃ row, crew.store.find? orderId = some row ∧
      row.status = .submitting ∧ row.leaseToken = some token
  alone : ∀ (i j : ℕ) call call' orderId token token', crew.calls[i]? = some (some call) →
    crew.calls[j]? = some (some call') → call.executes = some (orderId, token) →
      call'.executes = some (orderId, token') → i = j

def executions (crew : MarketCrew υ) : List (String × υ) :=
  crew.calls.filterMap fun call => call.bind MarketCall.executes

/- The call that holds the lease of an order executes it. -/
def Executing (crew : MarketCrew υ) (row : InvoiceLimitOrder υ) : Prop :=
  ∃ token ∈ row.leaseToken, (row.id, token) ∈ executions crew

/- The order of a claim is open, but executed under its lease. -/
def Outlives (crew : MarketCrew υ) (claim : String × ℤ) : Prop :=
  ∃ row ∈ crew.store.find? claim.1, row.Claimable claim.2 ∧ Executing crew row

/-
  A lease that has lapsed is taken over only when the call that
  took it no longer executes the order.
-/
def NotOutlived (crew : MarketCrew υ) : FaultMove → Prop
  | .attempt i outcome =>
    takesEffect (some outcome) = true → ∀ call ∈ crew.calls[i]?.join,
      ∀ claim ∈ call.claims, ¬ Outlives crew claim
  | .crash _ => True

variable [DecidableEq υ]

instance (crew : MarketCrew υ) (row : InvoiceLimitOrder υ) : Decidable (Executing crew row) :=
  inferInstanceAs (Decidable (∃ token ∈ row.leaseToken, _))

instance (crew : MarketCrew υ) (claim : String × ℤ) : Decidable (Outlives crew claim) :=
  inferInstanceAs (Decidable (∃ row ∈ crew.store.find? _, _))

instance (crew : MarketCrew υ) (move : FaultMove) : Decidable (NotOutlived crew move) :=
  match move with
  | .attempt _ _ => inferInstanceAs (Decidable (_ → _))
  | .crash _ => isTrue trivial

end

-- Statements
----

section

variable {υ : Type} [DecidableEq υ] {config : MarketConfig} {db db' : OrderTable υ}
variable {call next : MarketCall υ} {run : MatchRun υ} {row : InvoiceLimitOrder υ}
variable {orderId : String} {token : υ} {status : OrderStatus}

omit [DecidableEq υ] in
theorem held_of_executes (hExecutes : call.executes = some (orderId, token)) :
    call.held = some (orderId, token) := by
  cases call with
  | placing order => cases hExecutes
  | placed result => cases hExecutes
  | matching run =>
    rcases run with ⟨request, stage, attempts, results⟩
    cases stage with
    | buying page row token => exact hExecutes
    | _ => cases hExecutes

omit [DecidableEq υ] in
theorem held_of_settles (hSettles : call.settles = some (orderId, token, status)) :
    call.held = some (orderId, token) := by
  cases call with
  | placing order => cases hSettles
  | placed result => cases hSettles
  | matching run =>
    rcases run with ⟨request, stage, attempts, results⟩
    cases stage with
    | releasing page row token status =>
      cases hSettles
      rfl
    | recovering page row token error =>
      cases hSettles
      rfl
    | _ => cases hSettles

omit [DecidableEq υ] in
theorem held_proceed (run : MatchRun υ) (page : OrderPage υ) :
    (MarketCall.matching (run.proceed page)).held = none := by
  unfold MatchRun.proceed
  split
  · rfl
  · rfl
  · rfl

omit [DecidableEq υ] in
theorem request_proceed (run : MatchRun υ) (page : OrderPage υ) :
    (run.proceed page).request = run.request := by
  unfold MatchRun.proceed
  split
  · rfl
  · rfl
  · rfl

omit [DecidableEq υ] in
theorem executes_eq_none_of_held (hHeld : call.held = none) : call.executes = none := by
  cases hExecutes : call.executes with
  | none => rfl
  | some executed =>
    rw [held_of_executes hExecutes] at hHeld
    cases hHeld

/- What the next statement of a call does to the orders. -/
inductive MarketChange (config : MarketConfig) (db : OrderTable υ) (call : MarketCall υ) :
    OrderTable υ → MarketCall υ → Prop where
  | quiet {next : MarketCall υ} (hExecutes : next.executes = none)
    (hHeld : ∀ held ∈ next.held, call.held = some held) : MarketChange config db call db next
  | placed {order : NewOrder} {db' : OrderTable υ} {next : MarketCall υ}
    (hInsert : db.insert? order.row = some db') (hHeld : next.held = none) :
    MarketChange config db call db' next
  | claimed {run : MatchRun υ} {page : OrderPage υ} {row : InvoiceLimitOrder υ}
    (hCall : call = .matching run) (hStage : run.stage = .claiming page row)
    (hFound : db.rows.countP (run.claims row) ≠ 0) :
    MarketChange config db call (claimOrder config run row db) (.matching { run with
          attempts := run.attempts + 1
          stage := .buying page row run.token })
  | released {orderId : String} {token : υ} {status : OrderStatus} {next : MarketCall υ}
    (hSettles : call.settles = some (orderId, token, status)) (hHeld : next.held = none) :
    MarketChange config db call (releaseOrder orderId token status db) next

theorem MarketChange.unheld {next : MarketCall υ} (hHeld : next.held = none) :
    MarketChange config db call db next := by
  refine .quiet (executes_eq_none_of_held hHeld) ?_
  intro held hSome
  rw [hHeld] at hSome
  cases hSome

/- A statement of a run is one of these changes, and the run keeps its request. -/
theorem spec_executeMatchRun {next : MatchRun υ}
    (hExecute : executeMatchRun config run db = some (db', next)) :
    MarketChange config db (.matching run) db' (.matching next) ∧ next.request = run.request := by
  rcases run with ⟨request, stage, attempts, results⟩
  cases stage with
  | opening =>
    simp only [executeMatchRun] at hExecute
    split at hExecute
    · cases hExecute
      exact ⟨.unheld rfl, rfl⟩
    · cases hExecute
      exact ⟨.unheld rfl, rfl⟩
  | scanning sellerWallet cursor =>
    cases hExecute
    exact ⟨.unheld (held_proceed _ _), request_proceed _ _⟩
  | claiming page row =>
    simp only [executeMatchRun] at hExecute
    split at hExecute
    · cases hExecute
      exact ⟨.unheld (held_proceed _ _), request_proceed _ _⟩
    · rename_i hFound
      cases hExecute
      exact ⟨.claimed rfl rfl hFound, rfl⟩
  | buying page row token =>
    simp only [executeMatchRun] at hExecute
    split at hExecute
    · cases hExecute
      exact ⟨.quiet rfl fun _ hHeld => hHeld, rfl⟩
    · cases hExecute
      exact ⟨.quiet rfl fun _ hHeld => hHeld, rfl⟩
  | releasing page row token status =>
    cases hExecute
    exact ⟨.released rfl (held_proceed _ _), request_proceed _ _⟩
  | recovering page row token error =>
    simp only [executeMatchRun] at hExecute
    split at hExecute
    · cases hExecute
      exact ⟨.released rfl (held_proceed _ _), request_proceed _ _⟩
    · split at hExecute
      · cases hExecute
        exact ⟨.released rfl (held_proceed _ _), request_proceed _ _⟩
      · cases hExecute
        exact ⟨.released rfl rfl, rfl⟩
  | ended result => cases hExecute

theorem spec_market (hExecute : executeMarketCall config call db = some (db', next)) :
    MarketChange config db call db' next ∧ next.tokens = call.tokens := by
  cases call with
  | placing order =>
    have hPlaced : placeInvoiceLimitOrder order db = (db', next) := Option.some.inj hExecute
    unfold placeInvoiceLimitOrder at hPlaced
    split at hPlaced
    · cases hPlaced
      exact ⟨.unheld rfl, rfl⟩
    · split at hPlaced
      · rename_i hInsert
        cases hPlaced
        exact ⟨.placed hInsert rfl, rfl⟩
      · cases hPlaced
        exact ⟨.unheld rfl, rfl⟩
  | placed result => cases hExecute
  | matching run =>
    rcases Option.map_eq_some_iff.mp hExecute with ⟨⟨after, run'⟩, hRun, hSame⟩
    cases hSame
    rcases spec_executeMatchRun hRun with ⟨hChange, hRequest⟩
    exact ⟨hChange,
      congrArg (fun request : MatchRequest υ => Set.range request.randomUUID) hRequest⟩

omit [DecidableEq υ] in
theorem tokens_fail (call : MarketCall υ) : call.fail.tokens = call.tokens := by
  cases call with
  | placing order => rfl
  | placed result => rfl
  | matching run =>
    rcases run with ⟨request, stage, attempts, results⟩
    cases stage with
    | _ => rfl

end

-- Rows
----

section

variable {υ : Type} [DecidableEq υ] {config : MarketConfig} {base db db' : OrderTable υ}
variable {call next : MarketCall υ} {row row' : InvoiceLimitOrder υ} {orderId : String}

/- What a statement leaves of a stored order. -/
inductive RowChange (call : MarketCall υ) (row : InvoiceLimitOrder υ) :
    InvoiceLimitOrder υ → Prop where
  | same : RowChange call row row
  | leased {now leaseUntil : ℤ} {token : υ} (hClaims : call.claims = some (row.id, now))
    (hClaimable : row.Claimable now) : RowChange call row (row.leased token leaseUntil)
  | released {token : υ} {status : OrderStatus}
    (hSettles : call.settles = some (row.id, token, status))
    (hToken : row.leaseToken = some token) : RowChange call row (row.released status)

omit [DecidableEq υ] in
theorem claims_matching {run : MatchRun υ} {page : OrderPage υ}
    (hStage : run.stage = .claiming page row) :
    (MarketCall.matching run).claims = some (row.id, run.request.now) := by
  simp only [MarketCall.claims, hStage]

omit [DecidableEq υ] in
theorem find?_claimOrder (config : MarketConfig) (run : MatchRun υ) (snapshot : InvoiceLimitOrder υ)
    (hRow : db.find? orderId = some row) :
    (claimOrder config run snapshot db).find? orderId = some (if run.claims snapshot row then
      row.leased run.token (run.request.dateNow run.attempts + config.leaseMs)
      else row) := by
  unfold claimOrder
  rw [Table.find?_updateMany, hRow]
  rfl

theorem find?_releaseOrder (id : String) (token : υ) (status : OrderStatus)
    (hRow : db.find? orderId = some row) :
    (releaseOrder id token status db).find? orderId = some
      (if row.id = id ∧ row.leaseToken = some token then
        row.released status
      else row) := by
  unfold releaseOrder
  rw [Table.find?_updateMany, hRow]
  simp only [Option.map_some, decide_eq_true_eq]

theorem row_changed (hChange : MarketChange config db call db' next)
    (hRow : db.find? orderId = some row) :
    ∃ row', db'.find? orderId = some row' ∧ RowChange call row row' := by
  cases hChange with
  | quiet hExecutes hHeld => exact ⟨row, hRow, .same⟩
  | @placed order _ _ hInsert hHeld =>
    have hFresh := (Table.insert?_eq_some hInsert).1
    have hOther : orderId ≠ order.id := by
      rintro rfl
      cases hFresh.symm.trans hRow
    refine ⟨row, ?_, .same⟩
    rw [Table.find?_insert? hInsert, ← hRow]
    exact if_neg hOther
  | @claimed run page snapshot hCall hStage hFound =>
    refine ⟨_, find?_claimOrder config run snapshot hRow, ?_⟩
    by_cases hClaims : run.claims snapshot row = true
    · rw [if_pos hClaims]
      have hBoth := of_decide_eq_true hClaims
      refine .leased ?_ hBoth.2
      rw [hCall, claims_matching hStage, hBoth.1]
    · rw [if_neg hClaims]
      exact .same
  | @released id token status _ hSettles hHeld =>
    refine ⟨_, find?_releaseOrder id token status hRow, ?_⟩
    by_cases hOwn : row.id = id ∧ row.leaseToken = some token
    · rw [if_pos hOwn]
      refine .released ?_ hOwn.2
      rw [hSettles, hOwn.1]
    · rw [if_neg hOwn]
      exact .same

theorem row_placed (hChange : MarketChange config db call db' next)
    (hNone : db.find? orderId = none) (hRow : db'.find? orderId = some row) :
    row.leaseToken = none := by
  cases hChange with
  | quiet hExecutes hHeld => cases hNone.symm.trans hRow
  | @placed order _ _ hInsert hHeld =>
    rw [Table.find?_insert? hInsert] at hRow
    split at hRow
    · cases hRow
      rfl
    · cases hNone.symm.trans hRow
  | @claimed run page snapshot hCall hStage hFound =>
    unfold claimOrder at hRow
    rw [Table.find?_updateMany, hNone] at hRow
    cases hRow
  | @released id token status _ hSettles hHeld =>
    unfold releaseOrder at hRow
    rw [Table.find?_updateMany, hNone] at hRow
    cases hRow

def Unleased (db : OrderTable υ) : Prop :=
  ∀ orderId row, db.find? orderId = some row → row.status ≠ .submitting → row.leaseToken = none

theorem Unleased.change (hUnleased : Unleased db) (hChange : MarketChange config db call db' next) :
    Unleased db' := by
  intro orderId row' hRow' hStatus
  cases hRow : db.find? orderId with
  | none => exact row_placed hChange hRow hRow'
  | some row =>
    rcases row_changed hChange hRow with ⟨stored, hStored, hRowChange⟩
    cases hRow'.symm.trans hStored
    cases hRowChange with
    | same => exact hUnleased _ _ hRow hStatus
    | leased hClaims hClaimable => exact absurd rfl hStatus
    | released hSettles hToken => rfl

omit [DecidableEq υ] in
theorem not_submitting_of_settled (hSettled : row.Settled) : row.status ≠ .submitting := by
  rcases hSettled with hStatus | hStatus
  · rw [hStatus]
    decide
  · rw [hStatus]
    decide

omit [DecidableEq υ] in
theorem not_claimable_of_settled (hSettled : row.Settled) (now : ℤ) : ¬ row.Claimable now := by
  rintro (hPending | ⟨hSubmitting, -⟩)
  · rcases hSettled with hStatus | hStatus
    · cases hPending.symm.trans hStatus
    · cases hPending.symm.trans hStatus
  · exact not_submitting_of_settled hSettled hSubmitting

/- A settled order has no token, and nobody claims it. -/
theorem KeepsSettled.change (hKeeps : KeepsSettled base db) (hUnleased : Unleased db)
    (hChange : MarketChange config db call db' next) :
    KeepsSettled base db' := by
  intro orderId first hFirst hSettled
  rcases hKeeps orderId first hFirst hSettled with ⟨row, hRow, hSame⟩
  have hStill : row.Settled := by
    unfold InvoiceLimitOrder.Settled
    rw [hSame]
    exact hSettled
  rcases row_changed hChange hRow with ⟨row', hRow', hRowChange⟩
  refine ⟨row', hRow', ?_⟩
  cases hRowChange with
  | same => exact hSame
  | leased hClaims hClaimable => exact absurd hClaimable (not_claimable_of_settled hStill _)
  | released hSettles hToken =>
    have hNone := hUnleased orderId row hRow (not_submitting_of_settled hStill)
    cases hNone.symm.trans hToken

end

-- Owners
----

section

variable {υ : Type} [DecidableEq υ] {config : MarketConfig} {base db db' : OrderTable υ}
variable {call next : MarketCall υ} {crew : MarketCrew υ}
variable {moves : List FaultMove} {requests : List (MarketRequest υ)}

def HoldsOwn (call : MarketCall υ) : Prop := ∀ held ∈ call.held, held.2 ∈ call.tokens

theorem market_steady :
    (market config).Steady (MarketCall.tokens : MarketCall υ → Set υ) where
  execute _ _ _ _ hExecute := (spec_market hExecute).2
  fail := tokens_fail

theorem holdsOwn_change (hOwn : HoldsOwn call) (hTokens : next.tokens = call.tokens)
    (hChange : MarketChange config db call db' next) :
    HoldsOwn next := by
  intro held hHeld
  cases hChange with
  | quiet hExecutes hKept =>
    rw [hTokens]
    exact hOwn held (hKept held hHeld)
  | placed hInsert hNone =>
    rw [hNone] at hHeld
    cases hHeld
  | @claimed run page row hCall hStage hFound =>
    cases hHeld
    exact ⟨run.attempts, rfl⟩
  | released hSettles hNone =>
    rw [hNone] at hHeld
    cases hHeld

omit [DecidableEq υ] in
theorem held_fail (call : MarketCall υ) : ∀ held ∈ call.fail.held, call.held = some held := by
  cases call with
  | placing order => exact fun _ hHeld => hHeld
  | placed result => exact fun _ hHeld => hHeld
  | matching run =>
    rcases run with ⟨request, stage, attempts, results⟩
    cases stage with
    | recovering page row token error =>
      intro held hHeld
      cases hHeld
    | _ => exact fun _ hHeld => hHeld

omit [DecidableEq υ] in
theorem executes_fail (call : MarketCall υ) : call.fail.executes = none := by
  cases call with
  | placing order => rfl
  | placed result => rfl
  | matching run =>
    rcases run with ⟨request, stage, attempts, results⟩
    cases stage with
    | _ => rfl

theorem market_keeps (base : OrderTable υ) :
    (market config).Keeps (fun _ _ _ => True) (fun db => Unleased db ∧ KeepsSettled base db)
      HoldsOwn where
  execute := by
    intro db call outcome db' next hStore hOwn _ _ hExecute
    have hChange := (spec_market hExecute).1
    exact ⟨hStore.1.change hChange, hStore.2.change hStore.1 hChange⟩
  next := by
    intro db call db' next _ hOwn hExecute
    exact holdsOwn_change hOwn (spec_market hExecute).2 (spec_market hExecute).1
  fail := by
    intro call hOwn held hHeld
    change held.2 ∈ call.fail.tokens
    rw [tokens_fail]
    exact hOwn held (held_fail call held hHeld)

omit [DecidableEq υ] in
theorem keepsSettled_refl (db : OrderTable υ) : KeepsSettled db db :=
  fun _ row hRow _ => ⟨row, hRow, rfl⟩

variable {allowed : MarketCrew υ → FaultMove → Prop}

theorem guarded_of_run
    (hRun : RunsTo (Crew.attempt (market config)) allowed (marketStart requests) moves crew) :
    Unleased crew.store ∧ crew.All HoldsOwn := by
  have hUnleased : Unleased (Table.empty : OrderTable υ) := by
    intro orderId row hRow
    cases hRow
  have hStart : (marketStart requests).All HoldsOwn := by
    apply Crew.all_start
    intro call hCall
    rcases List.mem_map.mp hCall with ⟨request, -, rfl⟩
    intro held hHeld
    cases request with
    | placeInvoiceLimitOrder order => cases hHeld
    | matchInvoiceLimitOrders request => cases hHeld
  rcases (market_keeps Table.empty).run ⟨hUnleased, keepsSettled_refl _⟩ hStart
    (Crew.admits_any hRun) with ⟨hStore, hAll⟩
  exact ⟨hStore.1, hAll⟩

theorem apart_of_run (hApart : TokensApart requests) (hRun :
    RunsTo (Crew.attempt (market config)) allowed (marketStart requests) moves crew) {i j : ℕ}
    {call call' : MarketCall υ} (hCall : crew.calls[i]? = some (some call))
    (hCall' : crew.calls[j]? = some (some call')) {token : υ} (hToken : token ∈ call.tokens)
    (hToken' : token ∈ call'.tokens) :
    i = j := by
  rcases market_steady.run hRun i call hCall with ⟨begun, hBegun, hSame⟩
  rcases market_steady.run hRun j call' hCall' with ⟨begun', hBegun', hSame'⟩
  rw [List.getElem?_map] at hBegun hBegun'
  rcases Option.map_eq_some_iff.mp hBegun with ⟨request, hRequest, rfl⟩
  rcases Option.map_eq_some_iff.mp hBegun' with ⟨request', hRequest', rfl⟩
  rw [hSame] at hToken
  rw [hSame'] at hToken'
  rcases List.getElem?_eq_some_iff.mp hRequest with ⟨hi, rfl⟩
  rcases List.getElem?_eq_some_iff.mp hRequest' with ⟨hj, rfl⟩
  have hPairs := List.pairwise_iff_getElem.mp hApart
  rcases lt_trichotomy i j with hLess | hEq | hLess
  · exact (Set.disjoint_left.mp (hPairs i j hi hj hLess) hToken hToken').elim
  · exact hEq
  · exact (Set.disjoint_left.mp (hPairs j i hj hi hLess) hToken' hToken).elim

end

-- Exclusion
----

variable {υ : Type} [DecidableEq υ] {config : MarketConfig} {db db' : OrderTable υ}
variable {call next : MarketCall υ} {crew crew' : MarketCrew υ} {move : FaultMove}
variable {moves : List FaultMove} {requests : List (MarketRequest υ)} {orderId : String} {token : υ}

/- The lease that a call holds is the current one. -/
def HasLease (db : OrderTable υ) (orderId : String) (token : υ) : Prop :=
  ∃ row, db.find? orderId = some row ∧ row.status = .submitting ∧ row.leaseToken = some token

/- Whoever executes an order holds its lease. -/
def Owned (crew : MarketCrew υ) : Prop :=
  ∀ (i : ℕ) call orderId token, crew.calls[i]? = some (some call) →
    call.executes = some (orderId, token) → HasLease crew.store orderId token

theorem hasLease_of_claimed (hChange : MarketChange config db call db' next)
    (hExecutes : next.executes = some (orderId, token)) :
    HasLease db' orderId token := by
  cases hChange with
  | quiet hNone hHeld =>
    rw [hNone] at hExecutes
    cases hExecutes
  | placed hInsert hHeld =>
    rw [executes_eq_none_of_held hHeld] at hExecutes
    cases hExecutes
  | @claimed run page row hCall hStage hFound =>
    cases hExecutes
    rw [← Nat.pos_iff_ne_zero, List.countP_pos_iff] at hFound
    rcases hFound with ⟨stored, hMem, hClaims⟩
    have hStored := Table.find?_of_mem hMem
    have hId : key stored = row.id := (of_decide_eq_true hClaims).1
    rw [hId] at hStored
    refine ⟨_, find?_claimOrder config run row hStored, ?_, ?_⟩
    · rw [if_pos hClaims]
      rfl
    · rw [if_pos hClaims]
      rfl
  | released hSettles hHeld =>
    rw [executes_eq_none_of_held hHeld] at hExecutes
    cases hExecutes

/- Others neither take over nor release what a call executes. -/
theorem hasLease_of_other (hLease : HasLease db orderId token)
    (hChange : MarketChange config db call db' next)
    (hClaims : ∀ now row, call.claims = some (orderId, now) →
      db.find? orderId = some row → row.Claimable now → row.leaseToken ≠ some token)
    (hSettles : ∀ status, call.settles ≠ some (orderId, token, status)) :
    HasLease db' orderId token := by
  rcases hLease with ⟨row, hRow, hStatus, hToken⟩
  have hId : row.id = orderId := Table.key_of_find? hRow
  rcases row_changed hChange hRow with ⟨row', hRow', hRowChange⟩
  cases hRowChange with
  | same => exact ⟨_, hRow', hStatus, hToken⟩
  | @leased now _ _ hClaim hClaimable =>
    rw [hId] at hClaim
    exact absurd hToken (hClaims now row hClaim hRow hClaimable)
  | @released token' status hSettle hOther =>
    cases hToken.symm.trans hOther
    rw [hId] at hSettle
    exact absurd hSettle (hSettles status)

omit [DecidableEq υ] in
theorem mem_executions {i : ℕ} (hCall : crew.calls[i]? = some (some call))
    (hExecutes : call.executes = some (orderId, token)) : (orderId, token) ∈ executions crew :=
  List.mem_filterMap.mpr ⟨some call, List.mem_of_getElem? hCall, hExecutes⟩

theorem Owned.step (hOwned : Owned crew) (hOwn : crew.All HoldsOwn)
    (hApart : ∀ (i j : ℕ) call call' token, crew.calls[i]? = some (some call) →
      crew.calls[j]? = some (some call') → token ∈ call.tokens → token ∈ call'.tokens → i = j)
    (hNot : NotOutlived crew move) (hStep : crew.attempt (market config) move = some crew') :
    Owned crew' := by
  cases Crew.moved hStep with
  | crashed hCall =>
    intro j other orderId token hOther hExecutes
    rcases getElem?_set_cases hOther with ⟨-, hSame⟩ | ⟨-, hOld⟩
    · cases hSame
    · exact hOwned j other orderId token hOld hExecutes
  | @settled i call after outcome hCall hExecute =>
    have hChange := (spec_market hExecute).1
    have hOthers (hEffect : takesEffect (some outcome) = true)
        (j : ℕ) (other : MarketCall υ) (orderId : String) (token : υ) (hNe : j ≠ i)
        (hOther : crew.calls[j]? = some (some other))
        (hExecutes : other.executes = some (orderId, token)) :
        HasLease after.1 orderId token := by
      have hMine : token ∈ other.tokens := hOwn j other hOther _ (held_of_executes hExecutes)
      refine hasLease_of_other (hOwned j other orderId token hOther hExecutes) hChange ?_ ?_
      · intro now row hClaim hRow hClaimable hToken
        have hId : row.id = orderId := Table.key_of_find? hRow
        refine hNot hEffect call ?_ (orderId, now) hClaim ⟨row, hRow, hClaimable, token, hToken, ?_⟩
        · rw [hCall]
          rfl
        · rw [hId]
          exact mem_executions hOther hExecutes
      · intro status hSettle
        have hHis : token ∈ call.tokens := hOwn i call hCall _ (held_of_settles hSettle)
        exact hNe (hApart j i other call token hOther hCall hMine hHis)
    intro j other orderId token hOther hExecutes
    cases outcome with
    | served =>
      rcases getElem?_set_cases hOther with ⟨-, hSame⟩ | ⟨hNe, hOld⟩
      · cases hSame
        exact hasLease_of_claimed hChange hExecutes
      · exact hOthers rfl j other orderId token hNe hOld hExecutes
    | rejected =>
      rcases getElem?_set_cases hOther with ⟨-, hSame⟩ | ⟨hNe, hOld⟩
      · cases hSame
        cases (executes_fail call).symm.trans hExecutes
      · exact hOwned j other orderId token hOld hExecutes
    | lost =>
      rcases getElem?_set_cases hOther with ⟨-, hSame⟩ | ⟨hNe, hOld⟩
      · cases hSame
        cases (executes_fail call).symm.trans hExecutes
      · exact hOthers rfl j other orderId token hNe hOld hExecutes

theorem owned_of_run (hApart : TokensApart requests)
    (hRun : RunsTo (Crew.attempt (market config)) NotOutlived (marketStart requests) moves crew) :
    Owned crew := by
  induction hRun with
  | start =>
    intro i call orderId token hCall hExecutes
    have hMem := List.mem_of_getElem? hCall
    rcases List.mem_map.mp hMem with ⟨_, hBegun, hSame⟩
    cases hSame
    rcases List.mem_map.mp hBegun with ⟨request, -, rfl⟩
    cases request with
    | placeInvoiceLimitOrder order => cases hExecutes
    | matchInvoiceLimitOrders request => cases hExecutes
  | step hRun hNot hStep ih =>
    refine ih.step (guarded_of_run hRun).2 ?_ hNot hStep
    intro i j call call' token hCall hCall' hToken hToken'
    exact apart_of_run hApart hRun hCall hCall' hToken hToken'

theorem Owned.exclusive {allowed : MarketCrew υ → FaultMove → Prop} (hOwned : Owned crew)
    (hApart : TokensApart requests)
    (hRun : RunsTo (Crew.attempt (market config)) allowed (marketStart requests) moves crew) :
    Exclusive crew where
  owner := hOwned
  alone := by
    intro i j call call' orderId token token' hCall hCall' hExecutes hExecutes'
    rcases hOwned i call orderId token hCall hExecutes with ⟨row, hRow, -, hToken⟩
    rcases hOwned j call' orderId token' hCall' hExecutes' with ⟨row', hRow', -, hToken'⟩
    cases hRow.symm.trans hRow'
    cases hToken.symm.trans hToken'
    have hOwn := (guarded_of_run hRun).2
    exact apart_of_run hApart hRun hCall hCall' (hOwn i call hCall _ (held_of_executes hExecutes))
      (hOwn j call' hCall' _ (held_of_executes hExecutes'))

theorem releasedByOwner_step (hStep : crew.attempt (market config) move = some crew') :
    ReleasedByOwner crew move crew' := by
  intro orderId row row' hRow hStatus hRow' hLeft
  have hId : row.id = orderId := Table.key_of_find? hRow
  cases Crew.moved hStep with
  | crashed hCall =>
    cases hRow.symm.trans hRow'
    exact absurd hStatus hLeft
  | @settled i call after outcome hCall hExecute =>
    have hChange := (spec_market hExecute).1
    rcases row_changed hChange hRow with ⟨stored, hStored, hRowChange⟩
    have hReleased (hSame : after.1.find? orderId = some row') :
        ∃ token, call.settles = some (orderId, token, row'.status) ∧
          row.leaseToken = some token := by
      cases hStored.symm.trans hSame
      cases hRowChange with
      | same => exact absurd hStatus hLeft
      | leased hClaims hClaimable => exact absurd rfl hLeft
      | released hSettles hToken =>
        rw [hId] at hSettles
        exact ⟨_, hSettles, hToken⟩
    cases outcome with
    | rejected =>
      cases hRow.symm.trans hRow'
      exact absurd hStatus hLeft
    | served =>
      rcases hReleased hRow' with ⟨token, hSettles, hToken⟩
      exact ⟨i, _, call, token, rfl, hCall, hSettles, hToken⟩
    | lost =>
      rcases hReleased hRow' with ⟨token, hSettles, hToken⟩
      exact ⟨i, _, call, token, rfl, hCall, hSettles, hToken⟩

/-
  In every run settled orders keep their status, and only the
  call that holds the current lease settles or releases an order.
  While no lease is outlived, whoever executes an order holds its
  lease, and nobody else executes it.
-/
theorem limit_orders_leased (hApart : TokensApart requests) (hRun :
    RunsTo (Crew.attempt (market config)) (fun _ _ => True) (marketStart requests) moves crew) :
    (∀ moves' crew', RunsTo (Crew.attempt (market config)) (fun _ _ => True) crew moves' crew' →
      KeepsSettled crew.store crew'.store) ∧ (∀ move crew',
      crew.attempt (market config) move = some crew' → ReleasedByOwner crew move crew') ∧
      (RunsTo (Crew.attempt (market config)) NotOutlived (marketStart requests) moves crew →
        Exclusive crew) := by
  rcases guarded_of_run hRun with ⟨hUnleased, hOwn⟩
  refine ⟨?_, fun move crew' => releasedByOwner_step, ?_⟩
  · intro moves' crew' hLater
    rcases (market_keeps crew.store).run ⟨hUnleased, keepsSettled_refl _⟩ hOwn
      (Crew.admits_any hLater) with ⟨hStore, -⟩
    exact hStore.2
  · intro hAllowed
    exact (owned_of_run hApart hAllowed).exclusive hApart hRun

def sampleMarket : MarketConfig where
  pollTimeoutMs := 30000
  submitMaxAttempts := 3
  dbQueryTimeoutMs := 5000
  submitMaxDelayMs := 5000
  sellerWallet _ := some "seller"

def sampleOrder : NewOrder where
  id := "order"
  invoiceId := "1"
  fromWallet := "seller"
  buyerWallet := "buyer"
  limitPrice := "5"
  transactionXdr := "xdr"
  txHash := "tx"
  createdAt := 0

/- The seller triggers the orders at this time. -/
def sampleMatch (run : ℕ) (now : ℤ) : MatchRequest (ℕ × ℕ) where
  invoiceId := "1"
  buyer := "seller"
  now := now
  dateNow _ := now
  randomUUID attempt := (run, attempt)
  buyInvoice _ := .ok { status := .confirmed, errorKind := none }

/- Two runs, the second a lease later. -/
def sampleRequests : List (MarketRequest (ℕ × ℕ)) :=
  [.placeInvoiceLimitOrder sampleOrder, .matchInvoiceLimitOrders (sampleMatch 1 0),
    .matchInvoiceLimitOrders (sampleMatch 2 120001)]

def sampleOrderRow (db : OrderTable (ℕ × ℕ)) : Option (OrderStatus × Option (ℕ × ℕ) × Option ℤ) :=
  (db.find? "order").map fun row => (row.status, row.leaseToken, row.leaseUntil)

def executedBy (crew : MarketCrew (ℕ × ℕ)) (i : ℕ) : Option (String × ℕ × ℕ) :=
  crew.calls[i]?.join.bind MarketCall.executes

theorem sampleRequests_apart : TokensApart sampleRequests := by
  have hRuns : Disjoint (Set.range fun attempt : ℕ => (1, attempt))
      (Set.range fun attempt : ℕ => (2, attempt)) := by
    rw [Set.disjoint_left]
    rintro _ ⟨attempt, rfl⟩ ⟨other, hSame⟩
    cases hSame
  refine .cons ?_ (.cons ?_ (List.pairwise_singleton _ _))
  · intro request _
    exact Set.empty_disjoint _
  · intro request hRequest
    rw [List.mem_singleton.mp hRequest]
    exact hRuns

/- A run dies with its lease, and another fills the order. -/
theorem limit_orders_leased_sample :
    ∃ crew, RunsTo (Crew.attempt (market sampleMarket)) NotOutlived (marketStart sampleRequests)
      (servedMoves 0 1 ++ servedMoves 1 3 ++ [.crash 1] ++ servedMoves 2 5) crew ∧
      sampleOrderRow crew.store = some (.filled, none, none) ∧
      Exclusive crew := by
  have hView :
      (runAllowed (Crew.attempt (market sampleMarket)) NotOutlived (marketStart sampleRequests)
        (servedMoves 0 1 ++ servedMoves 1 3 ++ [.crash 1] ++ servedMoves 2 5)).map
        (fun crew => sampleOrderRow crew.store) =
        some (some (.filled, none, none)) := by decide
  rcases Option.map_eq_some_iff.mp hView with ⟨crew, hCrew, hRow⟩
  have hRun := runsTo_of_runAllowed hCrew
  have hAny := hRun.mono fun _ _ _ => trivial
  exact ⟨crew, hRun, hRow, (limit_orders_leased sampleRequests_apart hAny).2.2 hRun⟩

/-
  A run that is slower than its lease goes on to submit the order
  that another has claimed, under a lease that is live.
-/
theorem outlived_lease_shared :
    ∃ crew, RunsTo (Crew.attempt (market sampleMarket)) (fun _ _ => True)
      (marketStart sampleRequests) (servedMoves 0 1 ++ servedMoves 1 3 ++ servedMoves 2 3) crew ∧
      sampleOrderRow crew.store = some (.submitting, some (2, 0), some 240001) ∧
      executedBy crew 1 = some ("order", 1, 0) ∧
      ¬ Exclusive crew := by
  have hRows : (runLabels (Crew.attempt (market sampleMarket)) (marketStart sampleRequests)
      (servedMoves 0 1 ++ servedMoves 1 3 ++ servedMoves 2 3)).map
      (fun crew => sampleOrderRow crew.store) =
      some (some (.submitting, some (2, 0), some 240001)) := by decide
  have hExecutions : (runLabels (Crew.attempt (market sampleMarket)) (marketStart sampleRequests)
      (servedMoves 0 1 ++ servedMoves 1 3 ++ servedMoves 2 3)).map
      (fun crew => executedBy crew 1) =
      some (some ("order", 1, 0)) := by decide
  rcases Option.map_eq_some_iff.mp hRows with ⟨crew, hCrew, hRow⟩
  rw [hCrew] at hExecutions
  have hExecuted : executedBy crew 1 = some ("order", 1, 0) := Option.some.inj hExecutions
  refine ⟨crew, runsTo_of_runLabels hCrew, hRow, hExecuted, ?_⟩
  intro hExclusive
  rcases Option.bind_eq_some_iff.mp hExecuted with ⟨call, hCall, hExecutes⟩
  rcases hExclusive.owner 1 call "order" (1, 0) (Option.join_eq_some_iff.mp hCall) hExecutes with
    ⟨row, hStored, -, hToken⟩
  rw [sampleOrderRow, hStored] at hRow
  cases hToken.symm.trans (congrArg (fun shown => shown.2.1) (Option.some.inj hRow))

end Invoice

end AccessLayer
