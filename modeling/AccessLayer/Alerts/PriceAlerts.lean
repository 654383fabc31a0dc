import AccessLayer.Indexer.Pipeline
import AccessLayer.Library.Doubles
import AccessLayer.Library.Machines

/-
  Price snapshots and the alerts that they trigger
  (`src/modules/indexer/price-snapshot.service.ts`,
  `src/modules/alerts/alert.service.ts`).

  An alert is claimed by the evaluation of a movement of the
  price, which comes after the transaction that stores the price.
  Calls interleave, their statements fail and they crash.  Caches
  and logs are left out, and so are the calls by which a wallet
  deletes or triggers its own alerts.

  Main result: `alerts_trigger_once`
-/

-- Alerts
----

namespace AccessLayer

namespace Alerts

open Transactional Indexer Doubles

section

inductive AlertDirection where
  | above
  | below
  deriving DecidableEq

/-
  What an alert is registered with.  It is registered after as
  many prices of its key as `since`.
-/
structure AlertTerms where
  id : String
  creatorId : String
  walletAddress : String
  targetPrice : ℚ
  direction : AlertDirection
  callbackUrl : Option String
  createdAt : ℤ
  since : ℕ
  deriving DecidableEq

structure PriceAlert extends AlertTerms where
  isActive : Bool
  triggeredAt : Option ℤ
  triggeredPrice : Option ℤ
  deriving DecidableEq

instance : Keyed PriceAlert String where
  key row := row.id

/- Two prices that are stored one after the other, from the one at the position on. -/
structure PriceMovement where
  creatorId : String
  previousPrice : ℤ
  currentPrice : ℤ
  position : ℕ

/- The prices and the target are compared as numbers. -/
def isCrossed (alert : AlertTerms) (movement : PriceMovement) : Bool :=
  let previousPrice := toNumber movement.previousPrice
  let currentPrice := toNumber movement.currentPrice
  let targetPrice := toNumber alert.targetPrice
  let crossedAbove :=
    alert.direction = .above ∧ previousPrice < targetPrice ∧ targetPrice ≤ currentPrice
  let crossedBelow :=
    alert.direction = .below ∧ targetPrice < previousPrice ∧ currentPrice ≤ targetPrice
  crossedAbove ∨ crossedBelow

structure PriceAlertPayload where
  eventType : String
  alertId : String
  creatorId : String
  walletAddress : String
  targetPrice : ℚ
  currentPrice : ℚ
  direction : AlertDirection

def AlertTerms.payload (alert : AlertTerms) (movement : PriceMovement) : PriceAlertPayload where
  eventType := "price_alert"
  alertId := alert.id
  creatorId := alert.creatorId
  walletAddress := alert.walletAddress
  targetPrice := toNumber alert.targetPrice
  currentPrice := toNumber movement.currentPrice
  direction := alert.direction

/- An alert that was claimed, and the position of the movement. -/
structure Trigger where
  alert : AlertTerms
  position : ℕ
  deriving DecidableEq

structure PriceStore where
  creatorPriceSnapshot : Table CreatorPriceSnapshot
  creatorPriceHistory : List CreatorPriceHistory
  priceAlert : Table PriceAlert
  requests : List PriceAlertPayload
  mails : List (String × PriceAlertPayload)
  triggers : List Trigger

def PriceStore.empty : PriceStore where
  creatorPriceSnapshot := .empty
  creatorPriceHistory := []
  priceAlert := .empty
  requests := []
  mails := []
  triggers := []

/- The prices of a key in the order they are stored in. -/
def PriceStore.prices (store : PriceStore) (creatorId : String) : List ℤ :=
  (store.creatorPriceHistory.filter (·.creatorId = creatorId)).map (·.price)

structure AlertConfig where
  webhookRetryMaxAttempts : ℕ
  verifiedEmail : String → Option String

-- Evaluation
----

/- The statement that an evaluation awaits. -/
inductive Evaluation where
  | finding
  | claiming (alert : PriceAlert) (rest : List PriceAlert)
  | delivering (alert : PriceAlert) (attempt : ℕ) (rest : List PriceAlert)
  | lookingUp (alert : PriceAlert) (rest : List PriceAlert)
  | mailing (alert : PriceAlert) (email : String) (rest : List PriceAlert)

inductive Progress where
  | continues (evaluation : Evaluation)
  | returned
  | threw

/- Go on with the crossed alerts that are left. -/
def Progress.next : List PriceAlert → Progress
  | [] => .returned
  | alert :: rest => .continues (.claiming alert rest)

def PriceStore.findMany (store : PriceStore) (creatorId : String) : List PriceAlert :=
  store.priceAlert.rows.filter fun alert => alert.creatorId = creatorId ∧ alert.isActive = true ∧
    alert.triggeredAt = none

/- Whether the price fits a decimal of 20 digits, 7 of them small. -/
def fitsTriggeredPrice (price : ℤ) : Bool := |price| < 10 ^ 13

def PriceAlert.trigger (price now : ℤ) (alert : PriceAlert) : PriceAlert :=
  { alert with
    isActive := false
    triggeredAt := some now
    triggeredPrice := some price }

/-
  Claim an alert that is active.  The count tells whether it was;
  a price that does not fit its column is refused.
-/
def PriceStore.claim (store : PriceStore) (alertId : String) (movement : PriceMovement)
    (now : ℤ) : Option (PriceStore × ℕ) :=
  match store.priceAlert.rows.find? fun alert => alert.id = alertId ∧ alert.isActive = true ∧
    alert.triggeredAt = none with
  | none => some (store, 0)
  | some alert =>
    if fitsTriggeredPrice movement.currentPrice then
      some ({ store with
            priceAlert :=
              store.priceAlert.update alertId (PriceAlert.trigger movement.currentPrice now)
                fun _ => rfl
            triggers :=
              store.triggers ++
                [{ alert := alert.toAlertTerms
                   position := movement.position }] },
          1)
    else none

def afterClaim (config : AlertConfig) (alert : PriceAlert) (rest : List PriceAlert) : Evaluation :=
  if (alert.callbackUrl.getD "" ≠ "") ∧ 1 ≤ config.webhookRetryMaxAttempts then
    .delivering alert 1 rest
  else .lookingUp alert rest

def evaluatePriceAlertsForMovement (config : AlertConfig) (movement : PriceMovement) (now : ℤ) :
    Evaluation → PriceStore → PriceStore × Progress
  | .finding, store =>
    (store, .next ((store.findMany movement.creatorId).filter fun alert =>
      isCrossed alert.toAlertTerms movement))
  | .claiming alert rest, store =>
    match store.claim alert.id movement now with
    | none => (store, .threw)
    | some (store, count) =>
      if count = 0 then (store, .next rest)
      else (store, .continues (afterClaim config alert rest))
  | .delivering alert _ rest, store =>
    ({ store with
        requests := store.requests ++ [alert.payload movement] },
      .continues (.lookingUp alert rest))
  | .lookingUp alert rest, store =>
    match config.verifiedEmail alert.walletAddress with
    | some email => (store, .continues (.mailing alert email rest))
    | none => (store, .next rest)
  | .mailing alert email rest, store =>
    ({ store with
        mails := store.mails ++ [(email, alert.payload movement)] }, .next rest)

/- A delivery that fails is tried again, and then left. -/
def failEvaluation (config : AlertConfig) : Evaluation → Progress
  | .finding => .threw
  | .claiming _ _ => .threw
  | .delivering alert attempt rest =>
    if attempt < config.webhookRetryMaxAttempts then
      .continues (.delivering alert (attempt + 1) rest)
    else .continues (.lookingUp alert rest)
  | .lookingUp _ rest => .next rest
  | .mailing _ _ rest => .next rest

-- Calls
----

structure TradeEventPayload where
  creatorId : String
  price : ℤ
  tradeAt : ℤ
  supply : Option ℤ
  direction : Option PriceSnapshotDirection

def TradeEventPayload.entry (event : TradeEventPayload) : CreatorPriceHistory where
  creatorId := event.creatorId
  price := event.price
  supply := event.supply.getD 0
  direction := event.direction.getD .buy
  recordedAt := event.tradeAt

structure CreateAlertInput where
  creatorId : String
  walletAddress : String
  targetPrice : ℚ
  direction : AlertDirection
  callbackUrl : String

/- Who runs an evaluation: a write, twice, or someone else. -/
inductive Runner where
  | first
  | second
  | worker
  deriving DecidableEq

inductive AlertError where
  | duplicateAlert
  | notFound
  | internal

def AlertError.message : AlertError → Option String
  | .duplicateAlert =>
    some ("An identical active alert already exists for this " ++
      "creator, wallet, price, and direction")
  | _ => none

inductive PriceCall where
  | reading (event : TradeEventPayload) (now : ℤ)
  | creating (event : TradeEventPayload)
  | updating (event : TradeEventPayload) (existing : CreatorPriceSnapshot) (now : ℤ)
  | evaluating (movement : PriceMovement) (now : ℤ) (runner : Runner) (evaluation : Evaluation)
  | awaiting (creatorId : String) (position : ℕ) (now : ℤ)
  | checking (input : CreateAlertInput) (newId : String) (now : ℤ)
  | registering (input : CreateAlertInput) (newId : String) (now : ℤ)
  | ended (result : Except AlertError Unit)

/- The transaction of the first trade of a key. -/
def PriceStore.seed (store : PriceStore) (event : TradeEventPayload) : Option PriceStore :=
  (store.creatorPriceSnapshot.insert?
    { creatorId := event.creatorId
      currentPrice := event.price
      price24hAgo := event.price
      lastTradeAt := some event.tradeAt }).map fun creatorPriceSnapshot => { store with
      creatorPriceSnapshot
      creatorPriceHistory := store.creatorPriceHistory ++ [event.entry] }

/- What the price of a day ago becomes. -/
def rotated (existing : CreatorPriceSnapshot) (now : ℤ) : ℤ :=
  let shouldRotate24h := existing.lastTradeAt.any (· < now - dayMs)
  if shouldRotate24h then existing.currentPrice
  else existing.price24hAgo

/- The transaction of a later trade. -/
def PriceStore.move (store : PriceStore) (event : TradeEventPayload)
    (existing : CreatorPriceSnapshot) (now : ℤ) : Option PriceStore :=
  (store.creatorPriceSnapshot.find? event.creatorId).map fun _ => { store with
      creatorPriceSnapshot :=
        store.creatorPriceSnapshot.update event.creatorId
          (.withTrade event.price (rotated existing now) event.tradeAt)
          (key_withTrade event.price (rotated existing now) event.tradeAt)
      creatorPriceHistory := store.creatorPriceHistory ++ [event.entry] }

/- The movement of a write over the price that it has read. -/
def PriceStore.movement (store : PriceStore) (event : TradeEventPayload)
    (existing : CreatorPriceSnapshot) : PriceMovement where
  creatorId := event.creatorId
  previousPrice := existing.currentPrice
  currentPrice := event.price
  position := (store.prices event.creatorId).length - 1

/- Where a call goes from an evaluation. -/
def resume (movement : PriceMovement) (now : ℤ) (runner : Runner) : Progress → PriceCall
  | .continues evaluation => .evaluating movement now runner evaluation
  | .returned =>
    match runner with
    | .first => .evaluating movement now .second .finding
    | .second => .ended (.ok ())
    | .worker => .ended (.ok ())
  | .threw =>
    match runner with
    | .first => .evaluating movement now .second .finding
    | .second => .ended (.ok ())
    | .worker => .ended (.error .internal)

def CreateAlertInput.alert (input : CreateAlertInput) (newId : String) (now : ℤ)
    (since : ℕ) : PriceAlert where
  id := newId
  creatorId := input.creatorId
  walletAddress := input.walletAddress
  targetPrice := input.targetPrice
  direction := input.direction
  callbackUrl := some input.callbackUrl
  isActive := true
  triggeredAt := none
  triggeredPrice := none
  createdAt := now
  since

def PriceStore.register (store : PriceStore) (input : CreateAlertInput) (newId : String)
    (now : ℤ) : Option PriceStore :=
  (store.priceAlert.insert? (input.alert newId now (store.prices input.creatorId).length)).map
    fun priceAlert => { store with priceAlert }

def PriceStore.movementAt (store : PriceStore) (creatorId : String)
    (position : ℕ) : Option PriceMovement :=
  match (store.prices creatorId)[position]?, (store.prices creatorId)[position + 1]? with
  | some previousPrice, some currentPrice =>
    some { creatorId, previousPrice, currentPrice, position }
  | _, _ => none

def executePrices (config : AlertConfig) : PriceCall → PriceStore → Option (PriceStore × PriceCall)
  | .reading event now, store =>
    match store.creatorPriceSnapshot.find? event.creatorId with
    | none => some (store, .creating event)
    | some existing =>
      -- an event that is not newer has been handled
      if existing.lastTradeAt.any (event.tradeAt ≤ ·) then
        some (store, .ended (.ok ()))
      else some (store, .updating event existing now)
  | .creating event, store =>
    match store.seed event with
    | some store => some (store, .ended (.ok ()))
    | none => some (store, .ended (.error .internal))
  | .updating event existing now, store =>
    match store.move event existing now with
    | some moved => some (moved, .evaluating (store.movement event existing) now .first .finding)
    | none => some (store, .ended (.error .notFound))
  | .evaluating movement now runner evaluation, store =>
    let (store, progress) := evaluatePriceAlertsForMovement config movement now evaluation store
    some (store, resume movement now runner progress)
  | .awaiting creatorId position now, store =>
    (store.movementAt creatorId position).map fun movement =>
      (store, .evaluating movement now .worker .finding)
  | .checking input newId now, store =>
    let existingAlert :=
      store.priceAlert.rows.find? fun alert => alert.creatorId = input.creatorId ∧
        alert.walletAddress = input.walletAddress ∧ alert.targetPrice = input.targetPrice ∧
        alert.direction = input.direction ∧ alert.isActive = true
    match existingAlert with
    | some _ => some (store, .ended (.error .duplicateAlert))
    | none => some (store, .registering input newId now)
  | .registering input newId now, store =>
    match store.register input newId now with
    | some store => some (store, .ended (.ok ()))
    | none => some (store, .ended (.error .internal))
  | .ended _, _ => none

def failPrices (config : AlertConfig) : PriceCall → PriceCall
  | .evaluating movement now runner evaluation =>
    resume movement now runner (failEvaluation config evaluation)
  | .ended result => .ended result
  | _ => .ended (.error .internal)

def alertService (config : AlertConfig) : Machine PriceStore PriceCall where
  execute := executePrices config
  fail := failPrices config

/- A trade, a further evaluation or a registration. -/
inductive PriceRequest where
  | trade (event : TradeEventPayload) (now : ℤ)
  | evaluation (creatorId : String) (position : ℕ) (now : ℤ)
  | alert (input : CreateAlertInput) (newId : String) (now : ℤ)

def upsertPriceSnapshot (event : TradeEventPayload) (now : ℤ) : PriceCall := .reading event now

def createAlert (input : CreateAlertInput) (newId : String) (now : ℤ) : PriceCall :=
  .checking input newId now

def PriceRequest.begin : PriceRequest → PriceCall
  | .trade event now => upsertPriceSnapshot event now
  | .evaluation creatorId position now => .awaiting creatorId position now
  | .alert input newId now => createAlert input newId now

-- Crossings
----

def Crosses (alert : AlertTerms) (previous current : ℤ) : Prop :=
  match alert.direction with
  | .above => previous < alert.targetPrice ∧ alert.targetPrice ≤ current
  | .below => alert.targetPrice < previous ∧ current ≤ alert.targetPrice

instance (alert : AlertTerms) (previous current : ℤ) :
    Decidable (Crosses alert previous current) := by
  unfold Crosses
  split <;> infer_instance

def CrossedAt (prices : List ℤ) (alert : AlertTerms) (position : ℕ) : Prop :=
  match prices[position]?, prices[position + 1]? with
  | some previous, some current => Crosses alert previous current
  | _, _ => False

instance (prices : List ℤ) (alert : AlertTerms) (position : ℕ) :
    Decidable (CrossedAt prices alert position) := by
  unfold CrossedAt
  split <;> infer_instance

/- The first crossing since the alert was registered. -/
structure FirstCrossing (prices : List ℤ) (alert : AlertTerms) (position : ℕ) : Prop where
  since : alert.since ≤ position + 1
  crossed : CrossedAt prices alert position
  first : ∀ earlier < position, alert.since ≤ earlier + 1 → ¬CrossedAt prices alert earlier

variable {prices : List ℤ} {alert : AlertTerms} {position : ℕ}

theorem crossedAt_iff :
    CrossedAt prices alert position ↔ ∃ previous current, prices[position]? = some previous ∧
      prices[position + 1]? = some current ∧
      Crosses alert previous current := by
  unfold CrossedAt
  split
  · rename_i previous current hPrevious hCurrent
    constructor
    · intro hCrosses
      exact ⟨previous, current, hPrevious, hCurrent, hCrosses⟩
    · rintro ⟨_, _, hPrevious', hCurrent', hCrosses⟩
      rw [hPrevious] at hPrevious'
      rw [hCurrent] at hCurrent'
      cases hPrevious'
      cases hCurrent'
      exact hCrosses
  · rename_i hNone
    refine iff_of_false id ?_
    rintro ⟨previous, current, hPrevious, hCurrent, -⟩
    exact hNone previous current hPrevious hCurrent

theorem CrossedAt.lt_length (hCrossed : CrossedAt prices alert position) :
    position + 1 < prices.length := by
  rcases crossedAt_iff.mp hCrossed with ⟨-, current, -, hCurrent, -⟩
  exact (List.getElem?_eq_some_iff.mp hCurrent).1

/- A further price does not change what has been crossed. -/
theorem crossedAt_append (later : List ℤ) (hStored : position + 1 < prices.length) :
    CrossedAt (prices ++ later) alert position ↔ CrossedAt prices alert position := by
  rw [crossedAt_iff, crossedAt_iff, List.getElem?_append_left (by omega),
    List.getElem?_append_left hStored]

theorem CrossedAt.append (hCrossed : CrossedAt prices alert position) (later : List ℤ) :
    CrossedAt (prices ++ later) alert position :=
  (crossedAt_append later hCrossed.lt_length).mpr hCrossed

theorem crossedAt_concat {price : ℤ} (hCrossed : CrossedAt (prices ++ [price]) alert position) :
    CrossedAt prices alert position ∨ position + 1 = prices.length ∧
      ∃ previous, prices.getLast? = some previous ∧ Crosses alert previous price := by
  have hStored := hCrossed.lt_length
  rw [List.length_append, List.length_singleton] at hStored
  rcases Nat.lt_succ_iff_lt_or_eq.mp hStored with hLt | hLast
  · exact .inl ((crossedAt_append _ hLt).mp hCrossed)
  · right
    rcases crossedAt_iff.mp hCrossed with ⟨previous, current, hPrevious, hCurrent, hCrosses⟩
    rw [List.getElem?_append_left (by omega)] at hPrevious
    rw [hLast, List.getElem?_concat_length] at hCurrent
    cases hCurrent
    refine ⟨hLast, previous, ?_, hCrosses⟩
    rw [List.getLast?_eq_getElem?, ← hPrevious]
    congr 1
    omega

theorem FirstCrossing.append (hFirst : FirstCrossing prices alert position) (later : List ℤ) :
    FirstCrossing (prices ++ later) alert position where
  since := hFirst.since
  crossed := hFirst.crossed.append later
  first := by
    intro earlier hEarlier hSince hCrossed
    have hStored := hFirst.crossed.lt_length
    exact hFirst.first earlier hEarlier hSince ((crossedAt_append later (by omega)).mp hCrossed)

/- The rounding does not change how a price is to the target. -/
def Comparable (price : ℤ) (targetPrice : ℚ) : Prop :=
  (toNumber price < toNumber targetPrice ↔ price < targetPrice) ∧
    (toNumber targetPrice < toNumber price ↔ targetPrice < price)

instance (price : ℤ) (targetPrice : ℚ) : Decidable (Comparable price targetPrice) := by
  unfold Comparable
  infer_instance

theorem isCrossed_iff {movement : PriceMovement}
    (hPrevious : Comparable movement.previousPrice alert.targetPrice)
    (hCurrent : Comparable movement.currentPrice alert.targetPrice) :
    isCrossed alert movement = true ↔ Crosses alert movement.previousPrice
      movement.currentPrice := by
  simp only [isCrossed, Crosses, decide_eq_true_eq]
  cases alert.direction with
  | above =>
    simp only [true_and, reduceCtorEq, false_and, or_false]
    rw [hPrevious.1, ← not_lt, hCurrent.1, not_lt]
  | below =>
    simp only [true_and, reduceCtorEq, false_and, false_or]
    rw [hPrevious.2, ← not_lt, hCurrent.2, not_lt]

end

-- Conditions
----

section

/- The active alerts of a key. -/
def PriceStore.activeAlerts (store : PriceStore) (creatorId : String) : List PriceAlert :=
  store.priceAlert.rows.filter fun alert => alert.creatorId = creatorId ∧ alert.isActive = true

/- A crossing since the registration that is not yet claimed. -/
def IsDue (prices : List ℤ) (alert : AlertTerms) : Prop :=
  ∃ position ∈ List.range prices.length,
    alert.since ≤ position + 1 ∧ CrossedAt prices alert position

instance (prices : List ℤ) (alert : AlertTerms) : Decidable (IsDue prices alert) := by
  unfold IsDue
  infer_instance

/-
  A price is written over the one that was read.  It compares
  with each target as its number does, and crosses no alert that
  is due already.
-/
def WritesInOrder (store : PriceStore) (event : TradeEventPayload)
    (existing : CreatorPriceSnapshot) : Prop :=
  (∀ row ∈ store.creatorPriceSnapshot.rows, row.creatorId = event.creatorId →
    row.currentPrice = existing.currentPrice) ∧
  ∀ alert ∈ store.activeAlerts event.creatorId, Comparable event.price alert.targetPrice ∧
    (Crosses alert.toAlertTerms existing.currentPrice event.price →
      ¬IsDue (store.prices event.creatorId) alert.toAlertTerms)

instance (store : PriceStore) (event : TradeEventPayload) (existing : CreatorPriceSnapshot) :
    Decidable (WritesInOrder store event existing) := by
  unfold WritesInOrder
  infer_instance

/- The alert is to be claimed for the movement. -/
def Awaits (movement : PriceMovement) (alert : AlertTerms) : Prop :=
  alert.since ≤ movement.position + 1 ∧ Crosses alert movement.previousPrice movement.currentPrice

instance (movement : PriceMovement) (alert : AlertTerms) : Decidable (Awaits movement alert) := by
  unfold Awaits
  infer_instance

/- No alert is left to be claimed, other than one that the statement claims. -/
def LeavesNone (store : PriceStore) (movement : PriceMovement) (claimed : Option String) : Prop :=
  ∀ alert ∈ store.activeAlerts movement.creatorId,
    Awaits movement alert.toAlertTerms → claimed = some alert.id

instance (store : PriceStore) (movement : PriceMovement) (claimed : Option String) :
    Decidable (LeavesNone store movement claimed) := by
  unfold LeavesNone
  infer_instance

def ClaimsInTime (movement : PriceMovement) : Evaluation → Prop
  | .claiming alert _ =>
    alert.since ≤ movement.position + 1 ∧ fitsTriggeredPrice movement.currentPrice = true
  | _ => True

instance (movement : PriceMovement) (evaluation : Evaluation) :
    Decidable (ClaimsInTime movement evaluation) := by
  unfold ClaimsInTime
  split <;> infer_instance

/- An evaluation gives up when such a statement fails. -/
def Evaluation.isCritical : Evaluation → Bool
  | .finding => true
  | .claiming _ _ => true
  | _ => false

def Evaluation.claimed : Evaluation → Option String
  | .claiming alert _ => some alert.id
  | _ => none

/- A write does not give up before the alerts that its movement crosses have been claimed. -/
def Finishes (store : PriceStore) (movement : PriceMovement) (runner : Runner)
    (evaluation : Evaluation) : Option Outcome → Prop
  | some .served => True
  | some .rejected =>
    runner = .second → evaluation.isCritical = true → LeavesNone store movement none
  | some .lost =>
    runner = .second → evaluation.isCritical = true → LeavesNone store movement evaluation.claimed
  | none => runner ≠ .worker → LeavesNone store movement none

instance (store : PriceStore) (movement : PriceMovement) (runner : Runner) (evaluation : Evaluation)
    (outcome : Option Outcome) :
    Decidable
      (Finishes store movement runner evaluation outcome) := by
  unfold Finishes
  split <;> infer_instance

/- What is asked of a statement that has its effect, and of a write that fails or crashes. -/
def Handled (store : PriceStore) (call : PriceCall) (outcome : Option Outcome) : Prop :=
  match call with
  | .creating event =>
    takesEffect outcome = true → ∀ alert ∈ store.activeAlerts event.creatorId,
      Comparable event.price alert.targetPrice
  | .updating event existing _ =>
    (takesEffect outcome = true → WritesInOrder store event existing) ∧
    (outcome = some .lost → ∀ alert ∈ store.activeAlerts event.creatorId,
      ¬Crosses alert.toAlertTerms existing.currentPrice event.price)
  | .evaluating movement _ runner evaluation =>
    (takesEffect outcome = true → ClaimsInTime movement evaluation) ∧
    Finishes store movement runner evaluation outcome
  | .registering input _ _ =>
    takesEffect outcome = true → ∀ price ∈ store.prices input.creatorId,
      Comparable price input.targetPrice
  | _ => True

instance (store : PriceStore) (call : PriceCall) (outcome : Option Outcome) :
    Decidable (Handled store call outcome) := by
  unfold Handled
  split <;> infer_instance

-- Invariants
----

/-
  The history and the snapshot agree, an active alert has been
  crossed at most once, and the others have been claimed at their
  first crossing.
-/
structure Kept (store : PriceStore) : Prop where
  current : ∀ row ∈ store.creatorPriceSnapshot.rows, (store.prices row.creatorId).getLast? =
    some row.currentPrice
  begun : ∀ creatorId, store.prices creatorId ≠ [] → ∃ row ∈ store.creatorPriceSnapshot.rows,
    row.creatorId = creatorId
  since : ∀ alert ∈ store.priceAlert.rows, alert.since ≤ (store.prices alert.creatorId).length
  fresh : ∀ alert ∈ store.priceAlert.rows, alert.isActive = true → alert.triggeredAt = none
  comparable :
    ∀ alert ∈ store.priceAlert.rows, alert.isActive = true → ∀ price ∈ store.prices alert.creatorId,
      Comparable price alert.targetPrice
  once : ∀ alert ∈ store.priceAlert.rows, alert.isActive = true →
    ∀ earlier position, earlier < position → alert.since ≤ earlier + 1 →
      CrossedAt (store.prices alert.creatorId) alert.toAlertTerms earlier →
      ¬CrossedAt (store.prices alert.creatorId) alert.toAlertTerms position
  first : ∀ trigger ∈ store.triggers, FirstCrossing (store.prices trigger.alert.creatorId)
    trigger.alert trigger.position
  single : (store.triggers.map (·.alert.id)).Nodup
  claimed : ∀ trigger ∈ store.triggers, ∃ alert ∈ store.priceAlert.rows,
    alert.toAlertTerms = trigger.alert ∧ alert.isActive = false
  recorded : ∀ alert ∈ store.priceAlert.rows, alert.isActive = false → ∃ trigger ∈ store.triggers,
    trigger.alert = alert.toAlertTerms

/- The alerts that an evaluation still goes through. -/
def Evaluation.ahead : Evaluation → List PriceAlert
  | .finding => []
  | .claiming alert rest => alert :: rest
  | .delivering _ _ rest => rest
  | .lookingUp _ rest => rest
  | .mailing _ _ rest => rest

/- The movement is stored, and it crosses the alerts ahead. -/
structure Evaluates (store : PriceStore) (movement : PriceMovement)
    (alerts : List PriceAlert) : Prop where
  previous : (store.prices movement.creatorId)[movement.position]? = some movement.previousPrice
  current : (store.prices movement.creatorId)[movement.position + 1]? = some movement.currentPrice
  ahead : ∀ alert ∈ alerts, alert.creatorId = movement.creatorId ∧
    isCrossed alert.toAlertTerms movement = true ∧ ∃ row ∈ store.priceAlert.rows,
      row.toAlertTerms = alert.toAlertTerms

/- What is known of a call in the state of the store. -/
def KeptCall (store : PriceStore) : PriceCall → Prop
  | .updating event existing _ => existing.creatorId = event.creatorId
  | .evaluating movement _ _ evaluation => Evaluates store movement evaluation.ahead
  | _ => True

/- Prices and alerts are only added. -/
structure Grows (store store' : PriceStore) : Prop where
  prices : ∀ creatorId, store.prices creatorId <+: store'.prices creatorId
  alerts : ∀ alert ∈ store.priceAlert.rows, ∃ alert' ∈ store'.priceAlert.rows,
    alert'.toAlertTerms = alert.toAlertTerms

theorem Grows.refl (store : PriceStore) : Grows store store where
  prices := fun _ => List.prefix_rfl
  alerts := fun alert hAlert => ⟨alert, hAlert, rfl⟩

variable {alerts : List PriceAlert}

theorem Evaluates.grows {store store' : PriceStore} {movement : PriceMovement}
    (hEvaluates : Evaluates store movement alerts) (hGrows : Grows store store') :
    Evaluates store' movement alerts where
  previous := getElem?_extended (hGrows.prices _) hEvaluates.previous
  current := getElem?_extended (hGrows.prices _) hEvaluates.current
  ahead := by
    intro alert hAlert
    rcases hEvaluates.ahead alert hAlert with ⟨hKey, hCrossed, row, hRow, hTerms⟩
    rcases hGrows.alerts row hRow with ⟨row', hRow', hTerms'⟩
    exact ⟨hKey, hCrossed, row', hRow', hTerms'.trans hTerms⟩

theorem KeptCall.grows {store store' : PriceStore} {call : PriceCall} (hCall : KeptCall store call)
    (hGrows : Grows store store') :
    KeptCall store' call := by
  cases call with
  | evaluating movement now runner evaluation => exact Evaluates.grows hCall hGrows
  | updating event existing now => exact hCall
  | reading event now => trivial
  | creating event => trivial
  | awaiting creatorId position now => trivial
  | checking input newId now => trivial
  | registering input newId now => trivial
  | ended result => trivial

theorem kept_empty : Kept .empty := by
  constructor <;> simp [PriceStore.empty, Table.empty, PriceStore.prices]

variable {creatorId : String}

theorem mem_activeAlerts {store : PriceStore} {alert : PriceAlert} :
    alert ∈ store.activeAlerts creatorId ↔ alert ∈ store.priceAlert.rows ∧
      alert.creatorId = creatorId ∧ alert.isActive = true := by
  simp [PriceStore.activeAlerts]

variable {event : TradeEventPayload}

theorem prices_concat {store store' : PriceStore}
    (hHistory : store'.creatorPriceHistory = store.creatorPriceHistory ++ [event.entry])
    (creatorId : String) :
    store'.prices creatorId =
      if event.creatorId = creatorId then
        store.prices creatorId ++ [event.price]
      else store.prices creatorId := by
  rw [PriceStore.prices, hHistory, List.filter_append, List.map_append]
  by_cases hKey : event.creatorId = creatorId
  · simp [PriceStore.prices, TradeEventPayload.entry, hKey]
  · simp [PriceStore.prices, TradeEventPayload.entry, hKey]

/- What a write changes, whichever row it writes. -/
structure Writes (store store' : PriceStore) (event : TradeEventPayload) : Prop where
  history : store'.creatorPriceHistory = store.creatorPriceHistory ++ [event.entry]
  snapshot : ∀ row ∈ store'.creatorPriceSnapshot.rows, row.creatorId = event.creatorId ∧
    row.currentPrice = event.price ∨ row.creatorId ≠ event.creatorId ∧
    row ∈ store.creatorPriceSnapshot.rows
  others : ∀ row ∈ store.creatorPriceSnapshot.rows, ∃ row' ∈ store'.creatorPriceSnapshot.rows,
    row'.creatorId = row.creatorId
  written : ∃ row ∈ store'.creatorPriceSnapshot.rows, row.creatorId = event.creatorId
  alerts : store'.priceAlert = store.priceAlert
  triggers : store'.triggers = store.triggers

theorem Writes.prices_same {store store' : PriceStore} (hWrites : Writes store store' event) :
    store'.prices event.creatorId = store.prices event.creatorId ++ [event.price] := by
  rw [prices_concat hWrites.history, if_pos rfl]

theorem Writes.prices_other {store store' : PriceStore} (hWrites : Writes store store' event)
    (hOther : creatorId ≠ event.creatorId) :
    store'.prices creatorId = store.prices creatorId := by
  rw [prices_concat hWrites.history, if_neg hOther.symm]

theorem Writes.grows {store store' : PriceStore} (hWrites : Writes store store' event) :
    Grows store store' where
  prices := by
    intro creatorId
    by_cases hKey : creatorId = event.creatorId
    · subst hKey
      rw [hWrites.prices_same]
      exact List.prefix_append _ _
    · exact ⟨[], by rw [hWrites.prices_other hKey, List.append_nil]⟩
  alerts := fun alert hAlert => ⟨alert, hWrites.alerts ▸ hAlert, rfl⟩

theorem Kept.write {store store' : PriceStore} (hKept : Kept store)
    (hWrites : Writes store store' event) (hComparable :
      ∀ alert ∈ store.activeAlerts event.creatorId, Comparable event.price alert.targetPrice)
    (hOrder : ∀ alert ∈ store.activeAlerts event.creatorId, ∀ previous,
      (store.prices event.creatorId).getLast? = some previous →
      Crosses alert.toAlertTerms previous event.price → ¬IsDue (store.prices event.creatorId)
        alert.toAlertTerms) :
    Kept store' := by
  constructor
  · intro row hRow
    rcases hWrites.snapshot row hRow with ⟨hKey, hPrice⟩ | ⟨hOther, hOld⟩
    · rw [hKey, hWrites.prices_same, List.getLast?_concat, hPrice]
    · rw [hWrites.prices_other hOther]
      exact hKept.current row hOld
  · intro creatorId hSome
    by_cases hKey : creatorId = event.creatorId
    · exact hKey ▸ hWrites.written
    · rw [hWrites.prices_other hKey] at hSome
      rcases hKept.begun creatorId hSome with ⟨row, hRow, rfl⟩
      exact hWrites.others row hRow
  · intro alert hAlert
    rw [hWrites.alerts] at hAlert
    exact (hKept.since alert hAlert).trans (hWrites.grows.prices alert.creatorId).length_le
  · intro alert hAlert
    rw [hWrites.alerts] at hAlert
    exact hKept.fresh alert hAlert
  · intro alert hAlert hActive price hPrice
    rw [hWrites.alerts] at hAlert
    by_cases hKey : alert.creatorId = event.creatorId
    · rw [hKey, hWrites.prices_same] at hPrice
      rcases List.mem_append.mp hPrice with hOld | hLast
      · rw [← hKey] at hOld
        exact hKept.comparable alert hAlert hActive price hOld
      · cases List.mem_singleton.mp hLast
        exact hComparable alert (mem_activeAlerts.mpr ⟨hAlert, hKey, hActive⟩)
    · rw [hWrites.prices_other hKey] at hPrice
      exact hKept.comparable alert hAlert hActive price hPrice
  · intro alert hAlert hActive earlier position hLt hSince hEarlier hPosition
    rw [hWrites.alerts] at hAlert
    have hOnce := hKept.once alert hAlert hActive earlier position hLt hSince
    by_cases hKey : alert.creatorId = event.creatorId
    · rw [hKey, hWrites.prices_same] at hEarlier hPosition
      rw [hKey] at hOnce
      have hBound := hPosition.lt_length
      rw [List.length_append, List.length_singleton] at hBound
      -- the earlier one is not the one that is written
      have hDue : CrossedAt (store.prices event.creatorId) alert.toAlertTerms earlier :=
        (crossedAt_append _ (by omega)).mp hEarlier
      rcases crossedAt_concat hPosition with hOld | ⟨-, previous, hPrevious, hCrosses⟩
      · exact hOnce hDue hOld
      · refine hOrder alert (mem_activeAlerts.mpr ⟨hAlert, hKey, hActive⟩)
          previous hPrevious hCrosses ⟨earlier, ?_, hSince, hDue⟩
        exact List.mem_range.mpr (by omega)
    · rw [hWrites.prices_other hKey] at hEarlier hPosition
      exact hOnce hEarlier hPosition
  · intro trigger hTrigger
    rw [hWrites.triggers] at hTrigger
    rcases hWrites.grows.prices trigger.alert.creatorId with ⟨later, hLater⟩
    rw [← hLater]
    exact (hKept.first trigger hTrigger).append later
  · rw [hWrites.triggers]
    exact hKept.single
  · intro trigger hTrigger
    rw [hWrites.triggers] at hTrigger
    rw [hWrites.alerts]
    exact hKept.claimed trigger hTrigger
  · intro alert hAlert hInactive
    rw [hWrites.alerts] at hAlert
    rw [hWrites.triggers]
    exact hKept.recorded alert hAlert hInactive

theorem writes_seed {store store' : PriceStore} (hSeed : store.seed event = some store') :
    Writes store store' event ∧ ∀ row ∈ store.creatorPriceSnapshot.rows,
      row.creatorId ≠ event.creatorId := by
  rcases Option.map_eq_some_iff.mp hSeed with ⟨table, hInsert, rfl⟩
  rcases Table.insert?_eq_some hInsert with ⟨hNone, hRows⟩
  have hFresh : ∀ row ∈ store.creatorPriceSnapshot.rows,
      row.creatorId ≠ event.creatorId := by
    intro row hRow hKey
    exact Table.find?_eq_none_iff.mp hNone (List.mem_map.mpr ⟨row, hRow, hKey⟩)
  refine ⟨⟨rfl, ?_, ?_, ?_, rfl, rfl⟩, hFresh⟩
  · intro row hRow
    change row ∈ table.rows at hRow
    rw [hRows] at hRow
    rcases List.mem_append.mp hRow with hOld | hLast
    · exact .inr ⟨hFresh row hOld, hOld⟩
    · cases List.mem_singleton.mp hLast
      exact .inl ⟨rfl, rfl⟩
  · intro row hRow
    refine ⟨row, ?_, rfl⟩
    change row ∈ table.rows
    rw [hRows]
    exact List.mem_append_left _ hRow
  · refine
      ⟨{ creatorId := event.creatorId
         currentPrice := event.price
         price24hAgo := event.price
         lastTradeAt := some event.tradeAt }, ?_, rfl⟩
    change _ ∈ table.rows
    rw [hRows]
    exact List.mem_append_right _ (List.mem_singleton_self _)

variable {existing : CreatorPriceSnapshot}

theorem writes_move {store store' : PriceStore} {now : ℤ}
    (hMove : store.move event existing now = some store') :
    Writes store store' event ∧ ∃ row ∈ store.creatorPriceSnapshot.rows,
      row.creatorId = event.creatorId := by
  rcases Option.map_eq_some_iff.mp hMove with ⟨stored, hFind, rfl⟩
  have hStored := Table.mem_of_find? hFind
  have hStoredKey : stored.creatorId = event.creatorId := Table.key_of_find? hFind
  have hKeep := key_withTrade event.price (rotated existing now) event.tradeAt
  refine ⟨⟨rfl, ?_, ?_, ?_, rfl, rfl⟩, stored, hStored, hStoredKey⟩
  · intro row' hRow'
    rcases (Table.mem_rows_update hKeep).mp hRow' with ⟨row, hRow, rfl⟩
    split
    · rename_i hKey
      exact .inl ⟨hKey, rfl⟩
    · rename_i hKey
      exact .inr ⟨hKey, hRow⟩
  · intro row hRow
    refine ⟨_, (Table.mem_rows_update hKeep).mpr ⟨row, hRow, rfl⟩, ?_⟩
    split <;> rfl
  · refine ⟨_, (Table.mem_rows_update hKeep).mpr ⟨stored, hStored, rfl⟩, ?_⟩
    rw [if_pos (show key stored = event.creatorId from hStoredKey)]
    exact hStoredKey

theorem Kept.seed {store store' : PriceStore} (hKept : Kept store) (hComparable :
    ∀ alert ∈ store.activeAlerts event.creatorId, Comparable event.price alert.targetPrice)
    (hSeed : store.seed event = some store') :
    Kept store' ∧ Grows store store' := by
  rcases writes_seed hSeed with ⟨hWrites, hFresh⟩
  refine ⟨hKept.write hWrites hComparable ?_, hWrites.grows⟩
  intro alert hAlert previous hPrevious
  have hSome : store.prices event.creatorId ≠ [] := by
    intro hNone
    rw [hNone] at hPrevious
    cases hPrevious
  rcases hKept.begun _ hSome with ⟨row, hRow, hKey⟩
  exact absurd hKey (hFresh row hRow)

theorem Kept.getLast?_of_inOrder {store store' : PriceStore} {now : ℤ} (hKept : Kept store)
    (hOrder : WritesInOrder store event existing)
    (hMove : store.move event existing now = some store') :
    (store.prices event.creatorId).getLast? = some existing.currentPrice := by
  rcases (writes_move hMove).2 with ⟨row, hRow, hKey⟩
  rw [← hKey, hKept.current row hRow, hOrder.1 row hRow hKey]

theorem Kept.move {store store' : PriceStore} {now : ℤ} (hKept : Kept store)
    (hOrder : WritesInOrder store event existing)
    (hMove : store.move event existing now = some store') :
    Kept store' ∧ Grows store store' ∧ Evaluates store' (store.movement event existing) [] := by
  have hLast := hKept.getLast?_of_inOrder hOrder hMove
  have hWrites := (writes_move hMove).1
  have hLength : 0 < (store.prices event.creatorId).length := by
    rw [List.length_pos_iff]
    intro hNone
    rw [hNone] at hLast
    cases hLast
  refine ⟨hKept.write hWrites ?_ ?_, hWrites.grows, ?_⟩
  · exact fun alert hAlert => (hOrder.2 alert hAlert).1
  · intro alert hAlert previous hPrevious hCrosses
    rw [hLast] at hPrevious
    cases hPrevious
    exact (hOrder.2 alert hAlert).2 hCrosses
  · constructor
    · rw [List.getLast?_eq_getElem?] at hLast
      exact getElem?_extended (hWrites.grows.prices _) hLast
    · change (store'.prices event.creatorId)[(store.prices event.creatorId).length - 1 + 1]? = _
      rw [Nat.sub_add_cancel hLength, hWrites.prices_same, List.getElem?_concat_length]
      rfl
    · exact fun alert hAlert => absurd hAlert List.not_mem_nil

variable {input : CreateAlertInput} {newId : String}

theorem mem_register {store store' : PriceStore} {now : ℤ}
    (hRegister : store.register input newId now = some store') :
    (∀ alert ∈ store.priceAlert.rows, alert.id ≠ newId) ∧
      ∃ priceAlert, store' = { store with priceAlert } ∧ ∀ alert, alert ∈ priceAlert.rows ↔
        alert ∈ store.priceAlert.rows ∨ alert = input.alert newId now
          (store.prices input.creatorId).length := by
  rcases Option.map_eq_some_iff.mp hRegister with ⟨table, hInsert, rfl⟩
  rcases Table.insert?_eq_some hInsert with ⟨hNone, hRows⟩
  refine ⟨fun alert hAlert hId => ?_, table, rfl, fun alert => ?_⟩
  · exact Table.find?_eq_none_iff.mp hNone (List.mem_map.mpr ⟨alert, hAlert, hId⟩)
  · rw [hRows, List.mem_append, List.mem_singleton]

theorem Kept.register {store store' : PriceStore} {now : ℤ} (hKept : Kept store)
    (hComparable : ∀ price ∈ store.prices input.creatorId, Comparable price input.targetPrice)
    (hRegister : store.register input newId now = some store') :
    Kept store' ∧ Grows store store' := by
  rcases mem_register hRegister with ⟨hFresh, priceAlert, rfl, hMem⟩
  refine ⟨⟨hKept.current, hKept.begun, ?_, ?_, ?_, ?_, hKept.first, hKept.single, ?_, ?_⟩, ?_⟩
  · intro alert hAlert
    rcases (hMem alert).mp hAlert with hOld | rfl
    · exact hKept.since alert hOld
    · exact le_rfl
  · intro alert hAlert hActive
    rcases (hMem alert).mp hAlert with hOld | rfl
    · exact hKept.fresh alert hOld hActive
    · rfl
  · intro alert hAlert hActive
    rcases (hMem alert).mp hAlert with hOld | rfl
    · exact hKept.comparable alert hOld hActive
    · exact hComparable
  · intro alert hAlert hActive
    rcases (hMem alert).mp hAlert with hOld | rfl
    · exact hKept.once alert hOld hActive
    · intro earlier position hLt hSince hEarlier
      exact absurd hEarlier.lt_length (not_lt.mpr hSince)
  · intro trigger hTrigger
    rcases hKept.claimed trigger hTrigger with ⟨alert, hAlert, hClaimed⟩
    exact ⟨alert, (hMem alert).mpr (.inl hAlert), hClaimed⟩
  · intro alert hAlert hInactive
    rcases (hMem alert).mp hAlert with hOld | rfl
    · exact hKept.recorded alert hOld hInactive
    · cases hInactive
  · exact ⟨fun _ => List.prefix_rfl, fun alert hAlert =>
      ⟨alert, (hMem alert).mpr (.inl hAlert), rfl⟩⟩

/- The row that a claim finds. -/
structure Claimable (store : PriceStore) (alertId : String) (alert : PriceAlert) : Prop where
  mem : alert ∈ store.priceAlert.rows
  id : alert.id = alertId
  active : alert.isActive = true

variable {after : PriceStore} {alertId : String} {count : ℕ}

/- A claim finds no active alert, or it triggers the one that it finds. -/
theorem claim_cases {store : PriceStore} {movement : PriceMovement} {now : ℤ}
    (hClaim : store.claim alertId movement now = some (after, count)) :
    (count = 0 ∧ after = store ∧ ∀ alert ∈ store.priceAlert.rows, alert.id = alertId →
      alert.isActive = true → alert.triggeredAt ≠ none) ∨ count = 1 ∧
      ∃ alert, Claimable store alertId alert ∧ after = { store with
            priceAlert :=
              store.priceAlert.update alertId (PriceAlert.trigger movement.currentPrice now)
                fun _ => rfl
            triggers :=
              store.triggers ++
                [{ alert := alert.toAlertTerms
                   position := movement.position }] } := by
  unfold PriceStore.claim at hClaim
  split at hClaim
  · rename_i hNone
    cases hClaim
    refine .inl ⟨rfl, rfl, ?_⟩
    intro alert hAlert hId hActive hFresh
    have hNot := List.find?_eq_none.mp hNone alert hAlert
    simp [hId, hActive, hFresh] at hNot
  · rename_i alert hFound
    split at hClaim
    · cases hClaim
      have hPred : alert.id = alertId ∧ alert.isActive = true ∧
          alert.triggeredAt = none := by
        simpa using List.find?_some hFound
      exact .inr ⟨rfl, alert, ⟨List.mem_of_find?_eq_some hFound, hPred.1, hPred.2.1⟩, rfl⟩
    · cases hClaim

/- What a claim leaves of a row. -/
def triggered (alertId : String) (price now : ℤ) (row : PriceAlert) : PriceAlert :=
  if row.id = alertId then row.trigger price now else row

theorem terms_triggered (alertId : String) (price now : ℤ) (row : PriceAlert) :
    (triggered alertId price now row).toAlertTerms = row.toAlertTerms := by
  unfold triggered
  split <;> rfl

variable {price : ℤ} {row : PriceAlert}

theorem active_triggered {now : ℤ} (hActive : (triggered alertId price now row).isActive = true) :
    row.id ≠ alertId ∧ triggered alertId price now row = row := by
  unfold triggered at hActive ⊢
  split at hActive
  · cases hActive
  · rename_i hOther
    exact ⟨hOther, if_neg hOther⟩

theorem mem_claimed {store : PriceStore} {now : ℤ} {row' : PriceAlert} :
    row' ∈ (store.priceAlert.update alertId (PriceAlert.trigger price now) fun _ => rfl).rows ↔
      ∃ row ∈ store.priceAlert.rows, triggered alertId price now row = row' :=
  Table.mem_rows_update (f := PriceAlert.trigger price now) fun _ => rfl

variable {rest : List PriceAlert}

theorem Claimable.firstCrossing {store : PriceStore} {alert : PriceAlert} {movement : PriceMovement}
    (hRow : Claimable store alert.id row) (hKept : Kept store)
    (hEvaluates : Evaluates store movement (alert :: rest))
    (hInTime : alert.since ≤ movement.position + 1) :
    FirstCrossing (store.prices row.creatorId) row.toAlertTerms movement.position := by
  rcases hEvaluates.ahead alert List.mem_cons_self with ⟨hKey, hCrossed, other, hOther, hSame⟩
  have hTerms : row.toAlertTerms = alert.toAlertTerms := by
    have hId : other.id = row.id := by rw [hRow.id, ← hSame]
    rw [List.inj_on_of_nodup_map store.priceAlert.unique hRow.mem hOther hId.symm, hSame]
  rw [← hTerms] at hKey hCrossed hInTime
  have hPrevious := hEvaluates.previous
  have hCurrent := hEvaluates.current
  rw [← hKey] at hPrevious hCurrent
  have hComparable := hKept.comparable row hRow.mem hRow.active
  have hCrosses := (isCrossed_iff (hComparable _ (List.mem_of_getElem? hPrevious))
      (hComparable _ (List.mem_of_getElem? hCurrent))).mp hCrossed
  have hCrossedAt := crossedAt_iff.mpr ⟨_, _, hPrevious, hCurrent, hCrosses⟩
  refine ⟨hInTime, hCrossedAt, ?_⟩
  intro earlier hEarlier hSince hDue
  exact hKept.once row hRow.mem hRow.active earlier _ hEarlier hSince hDue hCrossedAt

theorem Claimable.untriggered {store : PriceStore} {trigger : Trigger}
    (hRow : Claimable store alertId row) (hKept : Kept store)
    (hTrigger : trigger ∈ store.triggers) :
    trigger.alert.id ≠ row.id := by
  intro hId
  rcases hKept.claimed trigger hTrigger with ⟨other, hOther, hSame, hInactive⟩
  have hOtherId : other.id = row.id := by rw [← hId, ← hSame]
  cases List.inj_on_of_nodup_map store.priceAlert.unique hOther hRow.mem hOtherId
  rw [hRow.active] at hInactive
  cases hInactive

/- An active alert is triggered at its first crossing. -/
theorem Kept.claim {store : PriceStore} {alert : PriceAlert} {movement : PriceMovement} {now : ℤ}
    (hKept : Kept store) (hEvaluates : Evaluates store movement (alert :: rest))
    (hInTime : alert.since ≤ movement.position + 1)
    (hClaim : store.claim alert.id movement now = some (after, count)) :
    Kept after ∧ Grows store after := by
  rcases claim_cases hClaim with ⟨-, rfl, -⟩ | ⟨-, row, hRow, rfl⟩
  · exact ⟨hKept, Grows.refl _⟩
  refine ⟨⟨hKept.current, hKept.begun, ?_, ?_, ?_, ?_, ?_, ?_, ?_, ?_⟩, ?_⟩
  · intro row' hRow'
    rcases mem_claimed.mp hRow' with ⟨old, hOld, rfl⟩
    have hSince := hKept.since old hOld
    rwa [← terms_triggered alert.id movement.currentPrice now old] at hSince
  · intro row' hRow' hActive
    rcases mem_claimed.mp hRow' with ⟨old, hOld, rfl⟩
    have hSame := (active_triggered hActive).2
    rw [hSame] at hActive ⊢
    exact hKept.fresh old hOld hActive
  · intro row' hRow' hActive
    rcases mem_claimed.mp hRow' with ⟨old, hOld, rfl⟩
    have hSame := (active_triggered hActive).2
    rw [hSame] at hActive ⊢
    exact hKept.comparable old hOld hActive
  · intro row' hRow' hActive
    rcases mem_claimed.mp hRow' with ⟨old, hOld, rfl⟩
    have hSame := (active_triggered hActive).2
    rw [hSame] at hActive ⊢
    exact hKept.once old hOld hActive
  · intro trigger hTrigger
    rcases List.mem_append.mp hTrigger with hOld | hLast
    · exact hKept.first trigger hOld
    · cases List.mem_singleton.mp hLast
      exact hRow.firstCrossing hKept hEvaluates hInTime
  · change ((store.triggers ++ [_]).map _).Nodup
    rw [List.map_append, List.map_singleton]
    refine List.Nodup.append hKept.single (List.nodup_singleton _) ?_
    rw [List.disjoint_singleton]
    intro hMem
    rcases List.mem_map.mp hMem with ⟨trigger, hTrigger, hId⟩
    exact hRow.untriggered hKept hTrigger hId
  · intro trigger hTrigger
    rcases List.mem_append.mp hTrigger with hOld | hLast
    · rcases hKept.claimed trigger hOld with ⟨other, hOther, hSame, hInactive⟩
      refine ⟨_, mem_claimed.mpr ⟨other, hOther, rfl⟩,
        (terms_triggered _ _ _ other).trans hSame, ?_⟩
      unfold triggered
      split
      · rfl
      · exact hInactive
    · cases List.mem_singleton.mp hLast
      refine ⟨_, mem_claimed.mpr ⟨row, hRow.mem, rfl⟩, terms_triggered _ _ _ row, ?_⟩
      rw [triggered, if_pos hRow.id]
      rfl
  · intro row' hRow' hInactive
    rcases mem_claimed.mp hRow' with ⟨old, hOld, rfl⟩
    rw [terms_triggered]
    by_cases hActive : old.isActive = true
    · have hOldId : old.id = alert.id := by
        by_contra hOther
        rw [triggered, if_neg hOther, hActive] at hInactive
        cases hInactive
      cases List.inj_on_of_nodup_map store.priceAlert.unique hOld
        hRow.mem (hOldId.trans hRow.id.symm)
      exact ⟨_, List.mem_append_right _ (List.mem_singleton_self _), rfl⟩
    · rcases hKept.recorded old hOld ((Bool.not_eq_true _).mp hActive) with
        ⟨trigger, hTrigger, hSame⟩
      exact ⟨trigger, List.mem_append_left _ hTrigger, hSame⟩
  · constructor
    · exact fun _ => List.prefix_rfl
    · intro old hOld
      exact ⟨_, mem_claimed.mpr ⟨old, hOld, rfl⟩, terms_triggered _ _ _ old⟩

-- Steps
----

variable {config : AlertConfig} {store : PriceStore} {movement : PriceMovement} {now : ℤ}

def Progress.ahead : Progress → List PriceAlert
  | .continues evaluation => evaluation.ahead
  | .returned => []
  | .threw => []

theorem ahead_next (alerts : List PriceAlert) : (Progress.next alerts).ahead = alerts := by
  cases alerts <;> rfl

theorem ahead_afterClaim (alert : PriceAlert) (rest : List PriceAlert) :
    (afterClaim config alert rest).ahead = rest := by
  unfold afterClaim
  split <;> rfl

theorem ahead_failEvaluation_subset (evaluation : Evaluation) :
    (failEvaluation config evaluation).ahead ⊆ evaluation.ahead := by
  cases evaluation with
  | finding => exact fun _ h => h
  | claiming alert rest => exact List.nil_subset _
  | delivering alert attempt rest =>
    simp only [failEvaluation]
    split <;> exact fun _ h => h
  | lookingUp alert rest =>
    rw [failEvaluation, ahead_next]
    exact fun _ h => h
  | mailing alert email rest =>
    rw [failEvaluation, ahead_next]
    exact fun _ h => h

theorem Evaluates.subset {alerts' : List PriceAlert} (hEvaluates : Evaluates store movement alerts)
    (hSub : alerts' ⊆ alerts) :
    Evaluates store movement alerts' where
  previous := hEvaluates.previous
  current := hEvaluates.current
  ahead := fun alert hAlert => hEvaluates.ahead alert (hSub hAlert)

variable {progress : Progress}

theorem Evaluates.resume (hEvaluates : Evaluates store movement progress.ahead) (runner : Runner) :
    KeptCall store (resume movement now runner progress) := by
  cases progress with
  | continues evaluation => exact hEvaluates
  | returned => cases runner <;> first | exact hEvaluates | trivial
  | threw => cases runner <;> first | exact hEvaluates | trivial

theorem Evaluates.findMany (hEvaluates : Evaluates store movement alerts) :
    Evaluates store movement ((store.findMany movement.creatorId).filter fun alert =>
      isCrossed alert.toAlertTerms movement) where
  previous := hEvaluates.previous
  current := hEvaluates.current
  ahead := by
    intro alert hAlert
    rcases List.mem_filter.mp hAlert with ⟨hFound, hCrossed⟩
    rcases List.mem_filter.mp hFound with ⟨hRow, hPred⟩
    exact ⟨(of_decide_eq_true hPred).1, hCrossed, alert, hRow, rfl⟩

theorem Kept.deliver (hKept : Kept store) (requests : List PriceAlertPayload)
    (mails : List (String × PriceAlertPayload)) :
    Kept { store with requests, mails } where
  current := hKept.current
  begun := hKept.begun
  since := hKept.since
  fresh := hKept.fresh
  comparable := hKept.comparable
  once := hKept.once
  first := hKept.first
  single := hKept.single
  claimed := hKept.claimed
  recorded := hKept.recorded

theorem Grows.deliver (requests : List PriceAlertPayload)
    (mails : List (String × PriceAlertPayload)) :
    Grows store { store with requests, mails } where
  prices := fun _ => List.prefix_rfl
  alerts := fun alert hAlert => ⟨alert, hAlert, rfl⟩

variable {evaluation : Evaluation}

theorem Kept.evaluate (hKept : Kept store) (hEvaluates : Evaluates store movement evaluation.ahead)
    (hInTime : ClaimsInTime movement evaluation) (hEvaluate :
      evaluatePriceAlertsForMovement config movement now evaluation store = (after, progress)) :
    Kept after ∧ Grows store after ∧ Evaluates after movement progress.ahead := by
  cases evaluation with
  | finding =>
    cases hEvaluate
    rw [ahead_next]
    exact ⟨hKept, Grows.refl _, hEvaluates.findMany⟩
  | claiming alert rest =>
    have hRest := hEvaluates.subset (List.subset_cons_self _ _)
    simp only [evaluatePriceAlertsForMovement] at hEvaluate
    split at hEvaluate
    · cases hEvaluate
      exact ⟨hKept, Grows.refl _, hEvaluates.subset (List.nil_subset _)⟩
    · rename_i claimed count hClaim
      rcases hKept.claim hEvaluates hInTime.1 hClaim with ⟨hKept', hGrows⟩
      split at hEvaluate <;> cases hEvaluate
      · rw [ahead_next]
        exact ⟨hKept', hGrows, hRest.grows hGrows⟩
      · refine ⟨hKept', hGrows, ?_⟩
        rw [Progress.ahead, ahead_afterClaim]
        exact hRest.grows hGrows
  | delivering alert attempt rest =>
    cases hEvaluate
    exact ⟨hKept.deliver _ _, Grows.deliver _ _, hEvaluates.grows (Grows.deliver _ _)⟩
  | lookingUp alert rest =>
    simp only [evaluatePriceAlertsForMovement] at hEvaluate
    split at hEvaluate <;> cases hEvaluate
    · exact ⟨hKept, Grows.refl _, hEvaluates⟩
    · rw [ahead_next]
      exact ⟨hKept, Grows.refl _, hEvaluates⟩
  | mailing alert email rest =>
    cases hEvaluate
    rw [ahead_next]
    exact ⟨hKept.deliver _ _, Grows.deliver _ _, hEvaluates.grows (Grows.deliver _ _)⟩

theorem evaluates_movementAt {position : ℕ}
    (hMovement : store.movementAt creatorId position = some movement) :
    Evaluates store movement [] := by
  unfold PriceStore.movementAt at hMovement
  split at hMovement
  · rename_i previous current hPrevious hCurrent
    cases hMovement
    exact ⟨hPrevious, hCurrent, fun _ h => absurd h List.not_mem_nil⟩
  · cases hMovement

theorem alertService_maintains : (alertService config).Maintains Handled Kept KeptCall := by
  constructor
  · intro store call outcome after next hKept hCall hHandled hEffect hExecute
    change executePrices config call store = some (after, next) at hExecute
    -- what is known of the others outlives the growth
    suffices hGoal : Kept after ∧ Grows store after ∧ KeptCall after next from
      ⟨hGoal.1, hGoal.2.2, fun other hOther => hOther.grows hGoal.2.1⟩
    cases call with
    | reading event now =>
      simp only [executePrices] at hExecute
      split at hExecute
      · cases hExecute
        exact ⟨hKept, Grows.refl _, trivial⟩
      · rename_i existing hFind
        split at hExecute <;> cases hExecute
        · exact ⟨hKept, Grows.refl _, trivial⟩
        · exact ⟨hKept, Grows.refl _, Table.key_of_find? hFind⟩
    | creating event =>
      simp only [executePrices] at hExecute
      split at hExecute <;> cases hExecute
      · rename_i hSeed
        rcases hKept.seed (hHandled hEffect) hSeed with ⟨hKept', hGrows⟩
        exact ⟨hKept', hGrows, trivial⟩
      · exact ⟨hKept, Grows.refl _, trivial⟩
    | updating event existing now =>
      simp only [executePrices] at hExecute
      split at hExecute <;> cases hExecute
      · rename_i hMove
        exact hKept.move (hHandled.1 hEffect) hMove
      · exact ⟨hKept, Grows.refl _, trivial⟩
    | evaluating movement now runner evaluation =>
      cases hExecute
      rcases hKept.evaluate hCall (hHandled.1 hEffect) rfl with ⟨hKept', hGrows, hEvaluates⟩
      exact ⟨hKept', hGrows, hEvaluates.resume runner⟩
    | awaiting creatorId position now =>
      rcases Option.map_eq_some_iff.mp hExecute with ⟨movement, hMovement, hSame⟩
      cases hSame
      exact ⟨hKept, Grows.refl _, evaluates_movementAt hMovement⟩
    | checking input newId now =>
      simp only [executePrices] at hExecute
      split at hExecute <;> cases hExecute
      · exact ⟨hKept, Grows.refl _, trivial⟩
      · exact ⟨hKept, Grows.refl _, trivial⟩
    | registering input newId now =>
      simp only [executePrices] at hExecute
      split at hExecute <;> cases hExecute
      · rename_i hRegister
        rcases hKept.register (hHandled hEffect) hRegister with ⟨hKept', hGrows⟩
        exact ⟨hKept', hGrows, trivial⟩
      · exact ⟨hKept, Grows.refl _, trivial⟩
    | ended result => cases hExecute
  · intro store call hCall
    cases call with
    | evaluating movement now runner evaluation =>
      exact Evaluates.resume (Evaluates.subset hCall (ahead_failEvaluation_subset evaluation))
        runner
    | _ => trivial

-- Who Will Claim
----

/- The alert is active although it has been crossed. -/
def Unclaimed (store : PriceStore) (alert : AlertTerms) (position : ℕ) : Prop :=
  alert.since ≤ position + 1 ∧ CrossedAt (store.prices alert.creatorId) alert position ∧
    ∃ row ∈ store.priceAlert.rows, row.toAlertTerms = alert ∧ row.isActive = true

/- The alert is found, or still ahead, in what the write runs. -/
def Responsible (alert : AlertTerms) (position : ℕ) : PriceCall → Prop
  | .evaluating movement _ runner evaluation =>
    movement.creatorId = alert.creatorId ∧ movement.position = position ∧
      match runner with
      | .first => True
      | .second => evaluation = .finding ∨ alert ∈ evaluation.ahead.map (·.toAlertTerms)
      | .worker => False
  | _ => False

variable {config : AlertConfig} {store : PriceStore} {movement : PriceMovement} {now : ℤ}
variable {alert : AlertTerms} {position : ℕ}

theorem responsible_resume_first (hKey : movement.creatorId = alert.creatorId)
    (hPosition : movement.position = position) (progress : Progress) :
    Responsible alert position (resume movement now .first progress) := by
  cases progress with
  | continues evaluation => exact ⟨hKey, hPosition, trivial⟩
  | returned => exact ⟨hKey, hPosition, .inl rfl⟩
  | threw => exact ⟨hKey, hPosition, .inl rfl⟩

theorem responsible_resume_second (hKey : movement.creatorId = alert.creatorId)
    (hPosition : movement.position = position)
    (hAhead : alert ∈ progress.ahead.map (·.toAlertTerms)) :
    Responsible alert position (resume movement now .second progress) := by
  cases progress with
  | continues evaluation => exact ⟨hKey, hPosition, .inr hAhead⟩
  | returned => cases hAhead
  | threw => cases hAhead

theorem Unclaimed.of_claim (hUnclaimed : Unclaimed after alert position)
    (hClaim : store.claim alertId movement now = some (after, count)) :
    Unclaimed store alert position := by
  rcases claim_cases hClaim with ⟨-, rfl, -⟩ | ⟨-, row, -, rfl⟩
  · exact hUnclaimed
  · rcases hUnclaimed with ⟨hSince, hCrossed, row', hRow', hTerms, hActive⟩
    rcases mem_claimed.mp hRow' with ⟨old, hOld, rfl⟩
    rw [(active_triggered hActive).2] at hTerms
    refine ⟨hSince, hCrossed, old, hOld, hTerms, ?_⟩
    have hSame := (active_triggered hActive).2
    rwa [hSame] at hActive

theorem Unclaimed.of_evaluate (hUnclaimed : Unclaimed after alert position) (hEvaluate :
    evaluatePriceAlertsForMovement config movement now evaluation store = (after, progress)) :
    Unclaimed store alert position := by
  cases evaluation with
  | finding =>
    cases hEvaluate
    exact hUnclaimed
  | claiming claimed rest =>
    simp only [evaluatePriceAlertsForMovement] at hEvaluate
    split at hEvaluate
    · cases hEvaluate
      exact hUnclaimed
    · rename_i hClaim
      split at hEvaluate <;> cases hEvaluate
      · exact hUnclaimed.of_claim hClaim
      · exact hUnclaimed.of_claim hClaim
  | delivering claimed attempt rest =>
    cases hEvaluate
    exact hUnclaimed
  | lookingUp claimed rest =>
    simp only [evaluatePriceAlertsForMovement] at hEvaluate
    split at hEvaluate <;> cases hEvaluate
    · exact hUnclaimed
    · exact hUnclaimed
  | mailing claimed email rest =>
    cases hEvaluate
    exact hUnclaimed

/- The alert that a statement claims is not left active. -/
theorem not_unclaimed_of_claim (hKept : Kept store)
    (hClaim : store.claim alert.id movement now = some (after, count)) :
    ¬Unclaimed after alert position := by
  rintro ⟨-, -, row', hRow', hTerms, hActive⟩
  rcases claim_cases hClaim with ⟨-, rfl, hNone⟩ | ⟨-, row, -, rfl⟩
  · exact hNone row' hRow' (by rw [hTerms]) hActive (hKept.fresh row' hRow' hActive)
  · rcases mem_claimed.mp hRow' with ⟨old, hOld, rfl⟩
    rcases active_triggered hActive with ⟨hOther, hSame⟩
    rw [hSame] at hTerms
    exact hOther (by rw [hTerms])

theorem claim_ne_none (hFits : fitsTriggeredPrice movement.currentPrice = true) :
    store.claim alertId movement now ≠ none := by
  unfold PriceStore.claim
  split
  · nofun
  · rw [if_pos hFits]
    nofun

/- The movement of a responsible call crosses the alert. -/
theorem Unclaimed.awaits (hUnclaimed : Unclaimed store alert position)
    (hEvaluates : Evaluates store movement alerts) (hKey : movement.creatorId = alert.creatorId)
    (hPosition : movement.position = position) :
    ∃ row ∈ store.activeAlerts movement.creatorId,
      row.toAlertTerms = alert ∧ Awaits movement alert := by
  rcases hUnclaimed with ⟨hSince, hCrossed, row, hRow, hTerms, hActive⟩
  rcases crossedAt_iff.mp hCrossed with ⟨previous, current, hPrevious, hCurrent, hCrosses⟩
  rw [← hKey, ← hPosition, hEvaluates.previous] at hPrevious
  rw [← hKey, ← hPosition, hEvaluates.current] at hCurrent
  cases hPrevious
  cases hCurrent
  refine ⟨row, ?_, hTerms, hPosition ▸ hSince, hCrosses⟩
  exact mem_activeAlerts.mpr ⟨hRow, by rw [hTerms, hKey], hActive⟩

theorem LeavesNone.claims {alerts : List PriceAlert} {claimed : Option String}
    (hLeaves : LeavesNone store movement claimed) (hUnclaimed : Unclaimed store alert position)
    (hEvaluates : Evaluates store movement alerts) (hKey : movement.creatorId = alert.creatorId)
    (hPosition : movement.position = position) :
    claimed = some alert.id := by
  rcases hUnclaimed.awaits hEvaluates hKey hPosition with ⟨row, hRow, rfl, hAwaits⟩
  exact hLeaves row hRow hAwaits

end

-- What Is Not Lost
----

variable {config : AlertConfig} {store store' : PriceStore} {movement : PriceMovement} {now : ℤ}
variable {alert : AlertTerms} {position : ℕ} {event : TradeEventPayload}

theorem Unclaimed.of_write (hUnclaimed : Unclaimed store' alert position)
    (hWrites : Writes store store' event) :
    Unclaimed store alert position ∨ alert.creatorId = event.creatorId ∧
      position + 1 = (store.prices event.creatorId).length ∧ ∃ previous,
        (store.prices event.creatorId).getLast? = some previous ∧
          Crosses alert previous event.price ∧ ∃ row ∈ store.activeAlerts event.creatorId,
            row.toAlertTerms = alert := by
  rcases hUnclaimed with ⟨hSince, hCrossed, row, hRow, hTerms, hActive⟩
  rw [hWrites.alerts] at hRow
  by_cases hKey : alert.creatorId = event.creatorId
  · rw [hKey, hWrites.prices_same] at hCrossed
    rcases crossedAt_concat hCrossed with hOld | ⟨hLast, previous, hPrevious, hCrosses⟩
    · rw [← hKey] at hOld
      exact .inl ⟨hSince, hOld, row, hRow, hTerms, hActive⟩
    · refine .inr ⟨hKey, hLast, previous, hPrevious, hCrosses, row, ?_, hTerms⟩
      exact mem_activeAlerts.mpr ⟨hRow, by rw [hTerms, hKey], hActive⟩
  · rw [hWrites.prices_other hKey] at hCrossed
    exact .inl ⟨hSince, hCrossed, row, hRow, hTerms, hActive⟩

theorem Unclaimed.of_seed (hUnclaimed : Unclaimed store' alert position) (hKept : Kept store)
    (hSeed : store.seed event = some store') :
    Unclaimed store alert position := by
  rcases writes_seed hSeed with ⟨hWrites, hFresh⟩
  refine (hUnclaimed.of_write hWrites).resolve_right ?_
  rintro ⟨-, hLast, -⟩
  have hSome : store.prices event.creatorId ≠ [] := by
    rw [← List.length_pos_iff]
    omega
  rcases hKept.begun _ hSome with ⟨row, hRow, hKey⟩
  exact hFresh row hRow hKey

theorem Unclaimed.of_register {input : CreateAlertInput} {newId : String}
    (hUnclaimed : Unclaimed store' alert position)
    (hRegister : store.register input newId now = some store') :
    Unclaimed store alert position := by
  rcases mem_register hRegister with ⟨-, priceAlert, rfl, hMem⟩
  rcases hUnclaimed with ⟨hSince, hCrossed, row, hRow, hTerms, hActive⟩
  rcases (hMem row).mp hRow with hOld | rfl
  · exact ⟨hSince, hCrossed, row, hOld, hTerms, hActive⟩
  · subst hTerms
    exact absurd hCrossed.lt_length (not_lt.mpr hSince)

variable {after : PriceStore × PriceCall} {outcome : Outcome}

/- A statement of a call that is not responsible. -/
theorem not_unclaimed_settle {call : PriceCall} (hBefore : ¬Unclaimed store alert position)
    (hAfter : takesEffect (some outcome) = true → Unclaimed after.1 alert position →
      Unclaimed store alert position) :
    ¬Unclaimed ((alertService config).settle call store after outcome).1 alert position := by
  cases outcome with
  | served => exact fun h => hBefore (hAfter rfl h)
  | rejected => exact hBefore
  | lost => exact fun h => hBefore (hAfter rfl h)

/- What is asked and known of a call before its statement. -/
def Known (store : PriceStore) (call : PriceCall) (outcome : Option Outcome) : Prop :=
  Handled store call outcome ∧ Kept store ∧ KeptCall store call

/- A write over the last price is responsible for its movement. -/
theorem settle_updating {existing : CreatorPriceSnapshot}
    (hBefore : ¬Unclaimed store alert position)
    (hKnown : Known store (.updating event existing now) (some outcome))
    (hExecute : executePrices config (.updating event existing now) store = some after) :
    ¬Unclaimed ((alertService config).settle (.updating event existing now) store after outcome).1
      alert position ∨ Responsible alert position ((alertService config).settle
        (.updating event existing now) store after outcome).2 := by
  rcases hKnown with ⟨hHandled, hKept, -⟩
  simp only [executePrices] at hExecute
  split at hExecute <;> cases hExecute
  · rename_i moved hMove
    have hWrites := (writes_move hMove).1
    cases outcome with
    | rejected => exact .inl hBefore
    | served =>
      by_cases hUnclaimed : Unclaimed moved alert position
      · rcases hUnclaimed.of_write hWrites with hOld | ⟨hKey, hLast, -⟩
        · exact absurd hOld hBefore
        · refine .inr ⟨hKey.symm, ?_, trivial⟩
          change (store.prices event.creatorId).length - 1 = _
          omega
      · exact .inl hUnclaimed
    | lost =>
      refine .inl fun hUnclaimed => ?_
      rcases hUnclaimed.of_write hWrites with
        hOld | ⟨-, -, previous, hPrevious, hCrosses, row, hRow, rfl⟩
      · exact hBefore hOld
      · rw [hKept.getLast?_of_inOrder (hHandled.1 rfl) hMove] at hPrevious
        cases hPrevious
        exact hHandled.2 rfl row hRow hCrosses
  · exact .inl (not_unclaimed_settle hBefore fun _ h => h)

variable {evaluation : Evaluation}

theorem ahead_fail (hDelivers : evaluation.isCritical = false) :
    (failEvaluation config evaluation).ahead = evaluation.ahead := by
  cases evaluation with
  | finding => cases hDelivers
  | claiming claimed rest => cases hDelivers
  | delivering claimed attempt rest =>
    simp only [failEvaluation]
    split <;> rfl
  | lookingUp claimed rest => exact ahead_next rest
  | mailing claimed email rest => exact ahead_next rest

theorem ahead_deliver (hDelivers : evaluation.isCritical = false) :
    (evaluatePriceAlertsForMovement config movement now evaluation store).2.ahead =
      evaluation.ahead := by
  cases evaluation with
  | finding => cases hDelivers
  | claiming claimed rest => cases hDelivers
  | delivering claimed attempt rest => rfl
  | lookingUp claimed rest =>
    simp only [evaluatePriceAlertsForMovement]
    split
    · rfl
    · exact ahead_next rest
  | mailing claimed email rest => exact ahead_next rest

/- An alert that is to be claimed is among those that are found. -/
theorem Unclaimed.mem_found {alerts : List PriceAlert} (hUnclaimed : Unclaimed store alert position)
    (hKept : Kept store) (hEvaluates : Evaluates store movement alerts)
    (hKey : movement.creatorId = alert.creatorId) (hPosition : movement.position = position) :
    alert ∈ ((store.findMany movement.creatorId).filter fun found =>
      isCrossed found.toAlertTerms movement).map (·.toAlertTerms) := by
  rcases hUnclaimed.awaits hEvaluates hKey hPosition with ⟨row, hRow, rfl, -, hCrosses⟩
  rcases mem_activeAlerts.mp hRow with ⟨hMem, hRowKey, hActive⟩
  have hPrevious := hEvaluates.previous
  have hCurrent := hEvaluates.current
  rw [← hRowKey] at hPrevious hCurrent
  have hComparable := hKept.comparable row hMem hActive
  have hCrossed := (isCrossed_iff (hComparable _ (List.mem_of_getElem? hPrevious))
      (hComparable _ (List.mem_of_getElem? hCurrent))).mpr hCrosses
  refine List.mem_map.mpr ⟨row, ?_, rfl⟩
  refine List.mem_filter.mpr ⟨?_, hCrossed⟩
  refine List.mem_filter.mpr ⟨hMem, ?_⟩
  exact decide_eq_true ⟨hRowKey, hActive, hKept.fresh row hMem hActive⟩

variable {claimed : PriceAlert} {rest : List PriceAlert}

theorem Evaluates.terms_eq (hEvaluates : Evaluates store movement (claimed :: rest))
    (hUnclaimed : Unclaimed store alert position) (hId : claimed.id = alert.id) :
    claimed.toAlertTerms = alert := by
  rcases hEvaluates.ahead claimed List.mem_cons_self with ⟨-, -, row, hRow, hTerms⟩
  rcases hUnclaimed with ⟨-, -, row', hRow', hTerms', -⟩
  have hSame : row.id = row'.id := by rw [hTerms, hTerms', hId]
  rw [← hTerms, ← hTerms', List.inj_on_of_nodup_map store.priceAlert.unique hRow hRow' hSame]

/- A claim that has its effect triggers the alert, or leaves it ahead. -/
theorem claim_or_ahead {after : PriceStore} {progress : Progress} (hKept : Kept store)
    (hFits : fitsTriggeredPrice movement.currentPrice = true)
    (hAhead : alert ∈ (claimed :: rest).map (·.toAlertTerms))
    (hEvaluate : evaluatePriceAlertsForMovement config movement now (.claiming claimed rest) store =
      (after, progress)) :
    ¬Unclaimed after alert position ∨ claimed.toAlertTerms ≠ alert ∧
      alert ∈ progress.ahead.map (·.toAlertTerms) := by
  simp only [evaluatePriceAlertsForMovement] at hEvaluate
  split at hEvaluate
  · rename_i hNone
    exact absurd hNone (claim_ne_none hFits)
  · rename_i store' count hClaim
    by_cases hSame : claimed.toAlertTerms = alert
    · subst hSame
      left
      split at hEvaluate <;> cases hEvaluate
      · exact not_unclaimed_of_claim hKept hClaim
      · exact not_unclaimed_of_claim hKept hClaim
    · have hRest : alert ∈ rest.map (·.toAlertTerms) := by
        rcases List.mem_cons.mp hAhead with hFirst | hRest
        · exact absurd hFirst.symm hSame
        · exact hRest
      refine .inr ⟨hSame, ?_⟩
      split at hEvaluate <;> cases hEvaluate
      · rw [ahead_next]
        exact hRest
      · rw [Progress.ahead, ahead_afterClaim]
        exact hRest

theorem settle_second (hUnclaimed : Unclaimed store alert position)
    (hKnown : Known store (.evaluating movement now .second evaluation) (some outcome))
    (hKey : movement.creatorId = alert.creatorId) (hPosition : movement.position = position)
    (hAhead : evaluation = .finding ∨ alert ∈ evaluation.ahead.map (·.toAlertTerms)) :
    let after := evaluatePriceAlertsForMovement config movement now evaluation store
    let settled :=
      (alertService config).settle (.evaluating movement now .second evaluation) store
        (after.1, resume movement now .second after.2) outcome
    ¬Unclaimed settled.1 alert position ∨ Responsible alert position settled.2 := by
  rcases hKnown with ⟨⟨hInTime, hFinishes⟩, hKept, hEvaluates⟩
  have hNotNone (hLeaves : LeavesNone store movement none) : False := by
    cases hLeaves.claims hUnclaimed hEvaluates hKey hPosition
  intro after settled
  cases hCritical : evaluation.isCritical with
  | false =>
    have hMem : alert ∈ evaluation.ahead.map (·.toAlertTerms) := by
      refine hAhead.resolve_left ?_
      rintro rfl
      cases hCritical
    right
    cases outcome with
    | served =>
      refine responsible_resume_second hKey hPosition ?_
      rw [ahead_deliver hCritical]
      exact hMem
    | rejected =>
      refine responsible_resume_second hKey hPosition ?_
      rw [ahead_fail hCritical]
      exact hMem
    | lost =>
      refine responsible_resume_second hKey hPosition ?_
      rw [ahead_fail hCritical]
      exact hMem
  | true =>
    cases outcome with
    | rejected => exact (hNotNone (hFinishes rfl hCritical)).elim
    | served =>
      cases evaluation with
      | finding =>
        right
        refine responsible_resume_second hKey hPosition ?_
        change alert ∈ (Progress.next _).ahead.map _
        rw [ahead_next]
        exact hUnclaimed.mem_found hKept hEvaluates hKey hPosition
      | claiming claimed rest =>
        rcases claim_or_ahead hKept (hInTime rfl).2 (hAhead.resolve_left nofun) rfl with
          hClaimed | ⟨-, hLeft⟩
        · exact .inl hClaimed
        · right
          exact responsible_resume_second hKey hPosition hLeft
      | delivering claimed attempt rest => cases hCritical
      | lookingUp claimed rest => cases hCritical
      | mailing claimed email rest => cases hCritical
    | lost =>
      have hClaims := (hFinishes rfl hCritical).claims hUnclaimed hEvaluates hKey hPosition
      cases evaluation with
      | finding => cases hClaims
      | claiming claimed rest =>
        -- the claim that is lost is that of the alert
        have hSame : claimed.toAlertTerms = alert :=
          hEvaluates.terms_eq hUnclaimed (Option.some.inj hClaims)
        left
        rcases claim_or_ahead hKept (hInTime rfl).2 (hAhead.resolve_left nofun) rfl with
          hClaimed | ⟨hOther, -⟩
        · exact hClaimed
        · exact absurd hSame hOther
      | delivering claimed attempt rest => cases hCritical
      | lookingUp claimed rest => cases hCritical
      | mailing claimed email rest => cases hCritical

/- A crossed alert is claimed by the write that crosses it. -/
theorem alertService_mends (alert : AlertTerms) (position : ℕ) :
    (alertService config).Mends Known (fun store => ¬Unclaimed store alert position)
      (Responsible alert position) where
  settle := by
    intro store call after outcome hEither hKnown hExecute
    change executePrices config call store = some after at hExecute
    cases call with
    | reading event now =>
      refine .inl (not_unclaimed_settle (hEither.resolve_right id) fun _ hAfter => ?_)
      simp only [executePrices] at hExecute
      split at hExecute
      · cases hExecute
        exact hAfter
      · split at hExecute <;> cases hExecute <;> exact hAfter
    | creating event =>
      refine .inl (not_unclaimed_settle (hEither.resolve_right id) fun _ hAfter => ?_)
      simp only [executePrices] at hExecute
      split at hExecute <;> cases hExecute
      · rename_i hSeed
        exact hAfter.of_seed hKnown.2.1 hSeed
      · exact hAfter
    | updating event existing now =>
      exact settle_updating (hEither.resolve_right id) hKnown hExecute
    | evaluating movement now runner evaluation =>
      cases hExecute
      by_cases hBefore : Unclaimed store alert position
      · rcases hEither.resolve_left (not_not.mpr hBefore) with ⟨hKey, hPosition, hRunner⟩
        cases runner with
        | first =>
          right
          cases outcome <;> exact responsible_resume_first hKey hPosition _
        | second => exact settle_second hBefore hKnown hKey hPosition hRunner
        | worker => exact hRunner.elim
      · exact .inl (not_unclaimed_settle hBefore fun _ hAfter => hAfter.of_evaluate rfl)
    | awaiting creatorId start now =>
      refine .inl (not_unclaimed_settle (hEither.resolve_right id) fun _ hAfter => ?_)
      rcases Option.map_eq_some_iff.mp hExecute with ⟨movement, -, hSame⟩
      cases hSame
      exact hAfter
    | checking input newId now =>
      refine .inl (not_unclaimed_settle (hEither.resolve_right id) fun _ hAfter => ?_)
      simp only [executePrices] at hExecute
      split at hExecute <;> cases hExecute <;> exact hAfter
    | registering input newId now =>
      refine .inl (not_unclaimed_settle (hEither.resolve_right id) fun _ hAfter => ?_)
      simp only [executePrices] at hExecute
      split at hExecute <;> cases hExecute
      · rename_i hRegister
        exact hAfter.of_register hRegister
      · exact hAfter
    | ended result => cases hExecute
  crash := by
    intro store call hKnown hResponsible hUnclaimed
    cases call with
    | evaluating movement now runner evaluation =>
      rcases hKnown with ⟨⟨-, hFinishes⟩, -, hEvaluates⟩
      rcases hResponsible with ⟨hKey, hPosition, hRunner⟩
      have hActs : runner ≠ .worker := by
        rintro rfl
        exact hRunner
      cases (hFinishes hActs).claims hUnclaimed hEvaluates hKey hPosition
    | _ => cases hResponsible

def PriceRun (config : AlertConfig) (requests : List PriceRequest) (moves : List FaultMove)
    (crew : Crew PriceStore PriceCall) : Prop :=
  RunsTo (Crew.attempt (alertService config)) (Crew.Admits Handled)
    (.start .empty (requests.map PriceRequest.begin)) moves crew

theorem kept_begin (requests : List PriceRequest) :
    (Crew.start PriceStore.empty (requests.map PriceRequest.begin)).All (KeptCall .empty) := by
  apply Crew.all_start
  intro call hCall
  rcases List.mem_map.mp hCall with ⟨request, -, rfl⟩
  cases request <;> trivial

theorem not_unclaimed_empty (alert : AlertTerms) (position : ℕ) :
    ¬Unclaimed .empty alert position := by
  rintro ⟨-, -, row, hRow, -⟩
  cases hRow

def PriceCall.isEnded : PriceCall → Bool
  | .ended _ => true
  | _ => false

/-
  Alerts are triggered once, at their first crossing.  A crossed
  alert that is active is about to be claimed by the write that
  crossed it; once all calls have ended or crashed, the triggers
  are the first crossings.
-/
structure ExactlyOnce (crew : Crew PriceStore PriceCall) : Prop where
  first : ∀ trigger ∈ crew.store.triggers, FirstCrossing (crew.store.prices trigger.alert.creatorId)
    trigger.alert trigger.position
  single : (crew.store.triggers.map (·.alert.id)).Nodup
  triggered :
    ∀ alert ∈ crew.store.priceAlert.rows, alert.isActive = false ↔ ∃ trigger ∈ crew.store.triggers,
      trigger.alert = alert.toAlertTerms
  awaited : ∀ alert ∈ crew.store.priceAlert.rows, alert.isActive = true →
    ∀ position, alert.since ≤ position + 1 → CrossedAt (crew.store.prices alert.creatorId)
      alert.toAlertTerms position → crew.Some (Responsible alert.toAlertTerms position)
  settled : crew.All (·.isEnded = true) → ∀ alert ∈ crew.store.priceAlert.rows, ∀ position,
    FirstCrossing (crew.store.prices alert.creatorId) alert.toAlertTerms position ↔
      { alert := alert.toAlertTerms, position } ∈ crew.store.triggers

theorem FirstCrossing.unique {prices : List ℤ} {position' : ℕ}
    (hFirst : FirstCrossing prices alert position)
    (hFirst' : FirstCrossing prices alert position') :
    position = position' := by
  rcases Nat.lt_trichotomy position position' with hLt | hSame | hGt
  · exact absurd hFirst.crossed (hFirst'.first position hLt hFirst.since)
  · exact hSame
  · exact absurd hFirst'.crossed (hFirst.first position' hGt hFirst'.since)

theorem not_responsible_of_ended {crew : Crew PriceStore PriceCall}
    (hEnded : crew.All (·.isEnded = true)) :
    ¬crew.Some (Responsible alert position) := by
  rintro ⟨i, call, hCall, hResponsible⟩
  have hEnd := hEnded i call hCall
  cases call with
  | ended result => exact hResponsible
  | _ => cases hEnd

/- Every crossing triggers its alert, and nothing else does. -/
theorem alerts_trigger_once {requests : List PriceRequest} {moves : List FaultMove}
    {crew : Crew PriceStore PriceCall} (hRun : PriceRun config requests moves crew) :
    ExactlyOnce crew := by
  have hBegin := kept_begin requests
  have hKept := (alertService_maintains.run kept_empty hBegin hRun).1
  have hKnown := alertService_maintains.both.admits kept_empty
      (fun i call hCall => ⟨kept_empty, hBegin i call hCall⟩) hRun
  have hAwaited : ∀ row ∈ crew.store.priceAlert.rows, row.isActive = true →
      ∀ position, row.since ≤ position + 1 → CrossedAt (crew.store.prices row.creatorId)
        row.toAlertTerms position →
        crew.Some (Responsible row.toAlertTerms position) := by
    intro row hRow hActive position hSince hCrossed
    have hEither :=
      (alertService_mends row.toAlertTerms position).run (not_unclaimed_empty _ _) hKnown
    refine hEither.resolve_left (not_not.mpr ?_)
    exact ⟨hSince, hCrossed, row, hRow, rfl, hActive⟩
  refine ⟨hKept.first, hKept.single, fun row hRow => ⟨?_, ?_⟩, hAwaited, ?_⟩
  · exact hKept.recorded row hRow
  · rintro ⟨trigger, hTrigger, hSame⟩
    rcases hKept.claimed trigger hTrigger with ⟨row', hRow', hTerms, hInactive⟩
    have hId : row'.id = row.id := by rw [hTerms, hSame]
    rwa [← List.inj_on_of_nodup_map crew.store.priceAlert.unique hRow' hRow hId]
  · intro hEnded row hRow position
    constructor
    · intro hFirst
      have hInactive : row.isActive = false := by
        rw [← Bool.not_eq_true]
        intro hActive
        exact not_responsible_of_ended hEnded (hAwaited row hRow hActive position hFirst.since
          hFirst.crossed)
      rcases hKept.recorded row hRow hInactive with ⟨trigger, hTrigger, hTerms⟩
      have hSame : trigger.position = position := by
        have hTriggered := hKept.first trigger hTrigger
        rw [hTerms] at hTriggered
        exact hTriggered.unique hFirst
      rw [← hTerms, ← hSame]
      exact hTrigger
    · exact hKept.first _

def sampleConfig : AlertConfig where
  webhookRetryMaxAttempts := 3
  verifiedEmail := fun _ => none

def sampleTrade (price tradeAt : ℤ) : TradeEventPayload where
  creatorId := "key"
  price
  tradeAt
  supply := some 1
  direction := some .buy

def sampleAlert : CreateAlertInput where
  creatorId := "key"
  walletAddress := "wallet"
  targetPrice := 6
  direction := .above
  callbackUrl := "https://accesslayer.org/webhooks/alerts"

/- The price rises past the target of an alert. -/
def sampleRequests : List PriceRequest :=
  [.trade (sampleTrade 4 1) 10, .alert sampleAlert "1" 11, .trade (sampleTrade 7 2) 12]

theorem alerts_trigger_once_sample :
    ∃ crew, PriceRun sampleConfig sampleRequests
      (servedMoves 0 2 ++ servedMoves 1 2 ++ servedMoves 2 7) crew ∧ crew.store.triggers =
      [{ alert := (sampleAlert.alert "1" 11 1).toAlertTerms
         position := 0 }] ∧
      ExactlyOnce crew := by
  have hTriggers : (runAllowed (Crew.attempt (alertService sampleConfig)) (Crew.Admits Handled)
      (.start .empty (sampleRequests.map PriceRequest.begin))
      (servedMoves 0 2 ++ servedMoves 1 2 ++ servedMoves 2 7)).map
      (fun crew => crew.store.triggers) = some
      [{ alert := (sampleAlert.alert "1" 11 1).toAlertTerms
         position := 0 }] := by decide +kernel
  rcases Option.map_eq_some_iff.mp hTriggers with ⟨crew, hCrew, hSame⟩
  have hRun := runsTo_of_runAllowed hCrew
  exact ⟨crew, hRun, hSame, alerts_trigger_once hRun⟩

def redeliveredRequests : List PriceRequest := sampleRequests ++ [.trade (sampleTrade 7 2) 13]

/-
  The write of the price crashes before it evaluates the alerts,
  and the trade that is delivered again is skipped.
-/
theorem crossing_missed_after_crash :
    ∃ crew alert, RunsTo (Crew.attempt (alertService sampleConfig)) (fun _ _ => True) (.start .empty
      (redeliveredRequests.map PriceRequest.begin))
      (servedMoves 0 2 ++ servedMoves 1 2 ++ servedMoves 2 2 ++ .crash 2 :: servedMoves 3 1)
      crew ∧ crew.All (·.isEnded = true) ∧ crew.store.priceAlert.rows = [alert] ∧
      alert.isActive = true ∧ FirstCrossing (crew.store.prices alert.creatorId)
        alert.toAlertTerms 0 ∧
      crew.store.triggers = [] := by
  have hStore :
      (runAllowed (Crew.attempt (alertService sampleConfig)) (fun _ _ => True) (.start .empty
        (redeliveredRequests.map PriceRequest.begin)) (servedMoves 0 2 ++ servedMoves 1 2 ++
        servedMoves 2 2 ++ .crash 2 :: servedMoves 3 1)).any
        (fun crew =>
          decide (crew.All (·.isEnded = true) ∧ crew.store.priceAlert.rows =
            [sampleAlert.alert "1" 11 1] ∧ crew.store.prices "key" = [4, 7] ∧
            crew.store.triggers = [])) =
        true := by decide
  rcases (Option.any_eq_true _ _).mp hStore with ⟨crew, hCrew, hChecked⟩
  rcases of_decide_eq_true hChecked with ⟨hEnded, hRows, hPrices, hTriggers⟩
  refine ⟨crew, sampleAlert.alert "1" 11 1, runsTo_of_runAllowed hCrew,
    hEnded, hRows, rfl, ?_, hTriggers⟩
  change FirstCrossing (crew.store.prices "key") _ 0
  rw [hPrices]
  exact ⟨by decide, by decide, nofun⟩

end Alerts

end AccessLayer
