import AccessLayer.Library.Reactors
import AccessLayer.Library.Table

/-
  Deliveries of trade events to webhooks
  (`src/modules/webhooks/webhook.service.ts`).

  A dispatch stores an event for every webhook of the creator and
  starts its delivery, which it does not wait for.  The requests
  that were sent are kept with the store, each with the event that
  it was sent for; the code itself does not keep that event once
  the delivery has begun.

  Main result: `deliveries_attributed`
-/

-- Webhooks
----

namespace AccessLayer

namespace Webhooks

open Transactional

section

inductive WebhookEventType where
  | buy
  | sell
  deriving DecidableEq

inductive WebhookEventStatus where
  | pending
  | delivered
  | failed
  deriving DecidableEq

/- A subscription to the trades of a creator. -/
structure Webhook where
  id : String
  creatorId : String
  callbackUrl : String
  events : List WebhookEventType
  isActive : Bool
  isFailing : Bool

instance : Keyed Webhook String where
  key webhook := webhook.id

structure TradeEvent where
  type : WebhookEventType
  creatorId : String
  buyerOrSellerAddress : String
  amount : String
  price : String
  feePaid : String
  timestamp : String

structure WebhookEventPayload where
  eventType : WebhookEventType
  creatorId : String
  buyerOrSellerAddress : String
  amount : String
  price : String
  feePaid : String
  timestamp : String
  deriving DecidableEq

def buildWebhookPayload (event : TradeEvent) : WebhookEventPayload where
  eventType := event.type
  creatorId := event.creatorId
  buyerOrSellerAddress := event.buyerOrSellerAddress
  amount := event.amount
  price := event.price
  feePaid := event.feePaid
  timestamp := event.timestamp

/- A trade to be told to one subscription. -/
structure WebhookEvent where
  id : String
  webhookId : String
  eventType : WebhookEventType
  payload : WebhookEventPayload
  status : WebhookEventStatus
  retryCount : ℕ
  lastError : Option String

instance : Keyed WebhookEvent String where
  key event := event.id

/- A request that was sent, and whether the receiver accepted it. -/
structure SentRequest where
  eventId : String
  webhookId : String
  payload : WebhookEventPayload
  accepted : Bool

/- The tables, and every request that was sent. -/
structure WebhookDb where
  webhook : Table Webhook
  webhookEvent : Table WebhookEvent
  requests : List SentRequest

def WebhookDb.start (webhook : Table Webhook) : WebhookDb where
  webhook := webhook
  webhookEvent := .empty
  requests := []

/-
  What a request comes back with.  A receiver may have accepted
  a request that was aborted or lost on the way back.
-/
inductive Reply where
  | response (status : ℕ) (statusText : String)
  | error (message : String) (accepted : Bool)

namespace Reply

def ok : Reply → Bool
  | .response status _ => 200 ≤ status && status < 300
  | .error _ _ => false

/- A receiver may have accepted what ends in an error. -/
def accepted : Reply → Bool
  | .response status _ => 200 ≤ status && status < 300
  | .error _ accepted => accepted

def errMsg : Reply → String
  | .response status statusText => "HTTP " ++ toString status ++ ": " ++ statusText
  | .error message _ => message

theorem accepted_of_ok {reply : Reply} (hOk : reply.ok = true) : reply.accepted = true := by
  cases reply with
  | response status statusText => exact hOk
  | error message accepted => cases hOk

end Reply

-- Deliveries
----

/- A trade, and the ids that its rows will have. -/
structure Dispatch where
  tradeEvent : TradeEvent
  cuid : ℕ → String

/- The delivery of one event, and its attempt. -/
structure Delivery where
  eventId : String
  webhookId : String
  callbackUrl : String
  payload : WebhookEventPayload
  attempt : ℕ

/- The statement that a delivery runs next. -/
inductive DeliveryStage where
  | fetching
  | delivered
  | retrying (errMsg : String)
  | flagging
  | failed

/- A dispatch, or one of the deliveries it starts. -/
inductive WebhookTask where
  | finding (dispatch : Dispatch)
  | creating (dispatch : Dispatch) (created : ℕ) (rest : List Webhook)
  | delivering (delivery : Delivery) (stage : DeliveryStage)
  | ended

/- What became of a statement, or of a request. -/
inductive Given where
  | statement (outcome : Outcome) (errMsg : String)
  | reply (reply : Reply)

/- The store, the task and what it has started. -/
abbrev Effect := WebhookDb × WebhookTask × List WebhookTask

/- A statement that starts nothing. -/
def settle (db after : WebhookDb) (next failed : WebhookTask) : Outcome → Effect
  | .served => (after, next, [])
  | .rejected => (db, failed, [])
  | .lost => (after, failed, [])

namespace Dispatch

variable (dispatch : Dispatch)

/- Subscriptions to such trades, active and not failing. -/
def findMany (db : WebhookDb) : List Webhook :=
  db.webhook.rows.filter fun webhook => webhook.creatorId = dispatch.tradeEvent.creatorId ∧
    webhook.isActive ∧ ¬ webhook.isFailing ∧ dispatch.tradeEvent.type ∈ webhook.events

def event (created : ℕ) (webhook : Webhook) : WebhookEvent where
  id := dispatch.cuid created
  webhookId := webhook.id
  eventType := dispatch.tradeEvent.type
  payload := buildWebhookPayload dispatch.tradeEvent
  status := .pending
  retryCount := 0
  lastError := none

def delivery (created : ℕ) (webhook : Webhook) : Delivery where
  eventId := dispatch.cuid created
  webhookId := webhook.id
  callbackUrl := webhook.callbackUrl
  payload := buildWebhookPayload dispatch.tradeEvent
  attempt := 1

def create (created : ℕ) (rest : List Webhook) (webhook : Webhook)
    (db : WebhookDb) : Outcome → Effect
  | .rejected => (db, .ended, [])
  | outcome =>
    match db.webhookEvent.insert? (dispatch.event created webhook) with
    | none => (db, .ended, [])
    | some webhookEvent =>
      if outcome = .served then
        ({ db with webhookEvent }, .creating dispatch (created + 1) rest,
          [.delivering (dispatch.delivery created webhook) .fetching])
      else ({ db with webhookEvent }, .ended, [])

end Dispatch

namespace WebhookEvent

def markDelivered (attempt : ℕ) (event : WebhookEvent) : WebhookEvent :=
  { event with status := .delivered, retryCount := attempt }

def noteError (attempt : ℕ) (errMsg : String) (event : WebhookEvent) : WebhookEvent :=
  { event with retryCount := attempt, lastError := some errMsg }

def markFailed (attempt : ℕ) (event : WebhookEvent) : WebhookEvent :=
  { event with status := .failed, retryCount := attempt }

end WebhookEvent

namespace Delivery

variable (delivery : Delivery)

/- The events that the updates of a delivery are made on. -/
def selects (event : WebhookEvent) : Bool :=
  event.webhookId = delivery.webhookId ∧ event.status = .pending

def updateMany (f : WebhookEvent → WebhookEvent) (hKey : ∀ event, key (f event) = key event)
    (db : WebhookDb) : WebhookDb :=
  { db with
    webhookEvent := db.webhookEvent.updateMany delivery.selects f hKey }

def fetch (reply : Reply) (db : WebhookDb) : WebhookDb :=
  { db with
    requests :=
      db.requests ++
        [{ eventId := delivery.eventId
           webhookId := delivery.webhookId
           payload := delivery.payload
           accepted := reply.accepted }] }

def flag (db : WebhookDb) : WebhookDb :=
  { db with
    webhook :=
      db.webhook.update delivery.webhookId (fun webhook => { webhook with isFailing := true })
        fun _ => rfl }

/- After an error: the next attempt, or none is left. -/
def retry (maxAttempts : ℕ) : WebhookTask :=
  if delivery.attempt < maxAttempts then
    .delivering { delivery with attempt := delivery.attempt + 1 } .fetching
  else .delivering delivery .flagging

end Delivery

/- The reply decides between the two updates. -/
def attemptDelivery (maxAttempts : ℕ) (delivery : Delivery)
    (db : WebhookDb) : DeliveryStage → Given → Option Effect
  | .fetching, .reply reply =>
    some (delivery.fetch reply db, .delivering delivery (if reply.ok then .delivered
      else .retrying reply.errMsg), [])
  | .delivered, .statement outcome errMsg =>
    some (settle db (delivery.updateMany (WebhookEvent.markDelivered delivery.attempt)
      (fun _ => rfl) db) .ended (.delivering delivery (.retrying errMsg)) outcome)
  | .retrying errMsg, .statement outcome _ =>
    some (settle db (delivery.updateMany (WebhookEvent.noteError delivery.attempt errMsg)
      (fun _ => rfl) db) (delivery.retry maxAttempts) .ended outcome)
  | .flagging, .statement outcome _ =>
    match db.webhook.find? delivery.webhookId with
    | none => some (db, .ended, [])
    | some _ => some (settle db (delivery.flag db) (.delivering delivery .failed) .ended outcome)
  | .failed, .statement outcome _ =>
    some (settle db (delivery.updateMany (WebhookEvent.markFailed delivery.attempt)
      (fun _ => rfl) db) .ended .ended outcome)
  | _, _ => none

def dispatchWebhookEvent (dispatch : Dispatch) (db : WebhookDb) : Outcome → Effect :=
  settle db db (.creating dispatch 0 (dispatch.findMany db)) .ended

def webhookDeliveries (maxAttempts : ℕ) : Reactor WebhookDb WebhookTask Given where
  react task given db :=
    match task, given with
    | .finding dispatch, .statement outcome _ => some (dispatchWebhookEvent dispatch db outcome)
    | .creating dispatch created (webhook :: rest), .statement outcome _ =>
      some (dispatch.create created rest webhook db outcome)
    | .delivering delivery stage, given => attemptDelivery maxAttempts delivery db stage given
    | _, _ => none

end

-- Attribution
----

namespace WebhookDb

/- The receiver accepted a request with the event's payload. -/
def Accepted (db : WebhookDb) (event : WebhookEvent) : Prop :=
  ∃ request ∈ db.requests, request.eventId = event.id ∧ request.webhookId = event.webhookId ∧
    request.payload = event.payload ∧ request.accepted = true

/- The requests that were sent for an event. -/
def attempts (db : WebhookDb) (eventId : String) : ℕ :=
  db.requests.countP fun request => request.eventId = eventId

/- The requests for the event were as many as there may be. -/
def Exhausted (maxAttempts : ℕ) (db : WebhookDb) (event : WebhookEvent) : Prop :=
  maxAttempts ≤ db.attempts event.id

instance (db : WebhookDb) (event : WebhookEvent) : Decidable (db.Accepted event) :=
  inferInstanceAs (Decidable (∃ request ∈ _, _))

instance (maxAttempts : ℕ) (db : WebhookDb) (event : WebhookEvent) :
    Decidable (db.Exhausted maxAttempts event) := inferInstanceAs (Decidable (_ ≤ _))

/- A status is one that the requests account for. -/
def Attributed (maxAttempts : ℕ) (db : WebhookDb) : Prop :=
  ∀ event ∈ db.webhookEvent.rows, (event.status = .delivered → db.Accepted event) ∧
    (event.status = .failed → db.Exhausted maxAttempts event)

/- No event and no request is ever taken back. -/
structure Extends (db db' : WebhookDb) : Prop where
  event : ∀ eventId event, db.webhookEvent.find? eventId = some event →
    ∃ event', db'.webhookEvent.find? eventId = some event' ∧
      event'.webhookId = event.webhookId ∧ event'.payload = event.payload
  requests : db.requests <+: db'.requests

theorem Extends.refl (db : WebhookDb) : db.Extends db where
  event _ event hEvent := ⟨event, hEvent, rfl, rfl⟩
  requests := List.prefix_rfl

variable {db db' : WebhookDb}

theorem Extends.attempts (hExtends : db.Extends db') (eventId : String) :
    db.attempts eventId ≤ db'.attempts eventId := hExtends.requests.sublist.countP_le

variable {event : WebhookEvent}

theorem Extends.accepted (hExtends : db.Extends db') (hAccepted : db.Accepted event) :
    db'.Accepted event := by
  rcases hAccepted with ⟨request, hMem, hRequest⟩
  exact ⟨request, hExtends.requests.subset hMem, hRequest⟩

theorem Extends.exhausted {maxAttempts : ℕ} (hExtends : db.Extends db')
    (hExhausted : db.Exhausted maxAttempts event) : db'.Exhausted maxAttempts event :=
  hExhausted.trans (hExtends.attempts event.id)

variable {webhookEvent : Table WebhookEvent}

theorem extends_insert (hInsert : db.webhookEvent.insert? event = some webhookEvent) :
    db.Extends { db with webhookEvent } where
  event := by
    intro eventId stored hStored
    rcases Table.exists_create_of_insert? hInsert with ⟨hFresh, rfl⟩
    refine ⟨stored, ?_, rfl, rfl⟩
    rw [Table.find?_create, if_neg]
    · exact hStored
    · rintro rfl
      rw [hFresh] at hStored
      cases hStored
  requests := List.prefix_rfl

variable {f : WebhookEvent → WebhookEvent}

theorem extends_updateMany (db : WebhookDb) (delivery : Delivery)
    (hKey : ∀ event, key (f event) = key event)
    (hKeeps : ∀ event, (f event).webhookId = event.webhookId ∧ (f event).payload = event.payload) :
    db.Extends (delivery.updateMany f hKey db) where
  event := by
    intro eventId event hEvent
    refine ⟨if delivery.selects event then f event else event, ?_, ?_⟩
    · change (db.webhookEvent.updateMany _ f hKey).find? eventId = _
      rw [Table.find?_updateMany, hEvent]
      rfl
    · split
      · exact hKeeps event
      · exact ⟨rfl, rfl⟩
  requests := List.prefix_rfl

theorem extends_fetch (db : WebhookDb) (delivery : Delivery) (reply : Reply) :
    db.Extends (delivery.fetch reply db) where
  event _ event hEvent := ⟨event, hEvent, rfl, rfl⟩
  requests := List.prefix_append _ _

theorem extends_flag (db : WebhookDb) (delivery : Delivery) : db.Extends (delivery.flag db) where
  event _ event hEvent := ⟨event, hEvent, rfl, rfl⟩
  requests := List.prefix_rfl

theorem Attributed.of_requests {maxAttempts : ℕ} (hAttributed : db.Attributed maxAttempts)
    (hExtends : db.Extends db') (hRows : db'.webhookEvent = db.webhookEvent) :
    db'.Attributed maxAttempts := by
  intro event hEvent
  rw [hRows] at hEvent
  rcases hAttributed event hEvent with ⟨hDelivered, hFailed⟩
  exact ⟨fun h => hExtends.accepted (hDelivered h), fun h => hExtends.exhausted (hFailed h)⟩

theorem Attributed.insert {maxAttempts : ℕ} (hAttributed : db.Attributed maxAttempts)
    (hPending : event.status = .pending)
    (hInsert : db.webhookEvent.insert? event = some webhookEvent) :
    Attributed maxAttempts { db with webhookEvent } := by
  intro other hOther
  change other ∈ webhookEvent.rows at hOther
  rw [(Table.insert?_eq_some hInsert).2, List.mem_append, List.mem_singleton] at hOther
  rcases hOther with hOld | rfl
  · exact hAttributed other hOld
  · rw [hPending]
    constructor
    · nofun
    · nofun

theorem Attributed.updateMany {maxAttempts : ℕ} {delivery : Delivery}
    (hAttributed : db.Attributed maxAttempts) (hKey : ∀ event, key (f event) = key event)
    (hSelected : ∀ event ∈ db.webhookEvent.rows, delivery.selects event = true →
      ((f event).status = .delivered → db.Accepted (f event)) ∧ ((f event).status = .failed →
        db.Exhausted maxAttempts (f event))) :
    (delivery.updateMany f hKey db).Attributed maxAttempts := by
  intro event hEvent
  change event ∈ (db.webhookEvent.rows.map _) at hEvent
  rcases List.mem_map.mp hEvent with ⟨before, hBefore, rfl⟩
  split
  · rename_i hSelects
    exact hSelected before hBefore hSelects
  · exact hAttributed before hBefore

end WebhookDb

-- What a Delivery Has Done
----

namespace Delivery

/- The event that the delivery was started for is stored. -/
def Owns (db : WebhookDb) (delivery : Delivery) : Prop :=
  ∃ event, db.webhookEvent.find? delivery.eventId = some event ∧
    event.webhookId = delivery.webhookId ∧ event.payload = delivery.payload

def Accepted (db : WebhookDb) (delivery : Delivery) : Prop :=
  ∃ request ∈ db.requests, request.eventId = delivery.eventId ∧
    request.webhookId = delivery.webhookId ∧ request.payload = delivery.payload ∧
    request.accepted = true

/- What has been sent before a stage of a delivery. -/
def Reached (maxAttempts : ℕ) (db : WebhookDb) (delivery : Delivery) : DeliveryStage → Prop
  | .fetching => delivery.attempt ≤ db.attempts delivery.eventId + 1
  | .delivered => delivery.attempt ≤ db.attempts delivery.eventId ∧ delivery.Accepted db
  | .retrying _ => delivery.attempt ≤ db.attempts delivery.eventId
  | .flagging => maxAttempts ≤ db.attempts delivery.eventId
  | .failed => maxAttempts ≤ db.attempts delivery.eventId

variable {db db' : WebhookDb} {delivery : Delivery}

theorem Owns.extends (hOwns : delivery.Owns db) (hExtends : db.Extends db') :
    delivery.Owns db' := by
  rcases hOwns with ⟨event, hEvent, hWebhook, hPayload⟩
  rcases hExtends.event _ event hEvent with ⟨event', hEvent', hWebhook', hPayload'⟩
  exact ⟨event', hEvent', hWebhook'.trans hWebhook, hPayload'.trans hPayload⟩

theorem Accepted.extends (hAccepted : delivery.Accepted db) (hExtends : db.Extends db') :
    delivery.Accepted db' := by
  rcases hAccepted with ⟨request, hMem, hRequest⟩
  exact ⟨request, hExtends.requests.subset hMem, hRequest⟩

theorem Reached.extends {maxAttempts : ℕ} {stage : DeliveryStage}
    (hReached : delivery.Reached maxAttempts db stage) (hExtends : db.Extends db') :
    delivery.Reached maxAttempts db' stage := by
  have hAttempts := hExtends.attempts delivery.eventId
  cases stage with
  | fetching => exact hReached.trans (Nat.add_le_add_right hAttempts 1)
  | delivered => exact ⟨hReached.1.trans hAttempts, hReached.2.extends hExtends⟩
  | retrying errMsg => exact hReached.trans hAttempts
  | flagging => exact hReached.trans hAttempts
  | failed => exact hReached.trans hAttempts

theorem accepted_event {event : WebhookEvent} (hOwns : delivery.Owns db)
    (hEvent : event ∈ db.webhookEvent.rows) (hId : event.id = delivery.eventId)
    (hAccepted : delivery.Accepted db) :
    db.Accepted event := by
  rcases hOwns with ⟨own, hOwn, hWebhook, hPayload⟩
  have hFind := Table.find?_of_mem hEvent
  change db.webhookEvent.find? event.id = some event at hFind
  rw [hId, hOwn] at hFind
  cases hFind
  rcases hAccepted with ⟨request, hMem, hEventId, hTo, hBody, hTrue⟩
  exact ⟨request, hMem, hEventId.trans hId.symm,
    hTo.trans hWebhook.symm, hBody.trans hPayload.symm, hTrue⟩

theorem attempts_fetch (delivery : Delivery) (reply : Reply) (db : WebhookDb) :
    (delivery.fetch reply db).attempts delivery.eventId = db.attempts delivery.eventId + 1 := by
  simp [fetch, WebhookDb.attempts]

theorem accepted_fetch (delivery : Delivery) {reply : Reply} (hOk : reply.ok = true)
    (db : WebhookDb) : delivery.Accepted (delivery.fetch reply db) :=
  ⟨_, List.mem_append_right _ (List.mem_singleton_self _), rfl, rfl, rfl, Reply.accepted_of_ok hOk⟩

/- No other event of the webhook is pending. -/
def Alone (db : WebhookDb) (delivery : Delivery) : Prop :=
  ∀ event ∈ db.webhookEvent.rows, delivery.selects event = true → event.id = delivery.eventId

instance (db : WebhookDb) (delivery : Delivery) : Decidable (delivery.Alone db) :=
  inferInstanceAs (Decidable (∀ event ∈ _, _ → _))

end Delivery

namespace WebhookTask

def Known (maxAttempts : ℕ) (db : WebhookDb) : WebhookTask → Prop
  | .delivering delivery stage => delivery.Owns db ∧ delivery.Reached maxAttempts db stage
  | _ => True

theorem Known.extends {maxAttempts : ℕ} {db db' : WebhookDb} {task : WebhookTask}
    (hKnown : task.Known maxAttempts db) (hExtends : db.Extends db') :
    task.Known maxAttempts db' := by
  cases task with
  | delivering delivery stage => exact ⟨hKnown.1.extends hExtends, hKnown.2.extends hExtends⟩
  | _ => trivial

/- The delivery whose events are about to be marked. -/
def marks? : WebhookTask → Option Delivery
  | .delivering delivery .delivered => some delivery
  | .delivering delivery .failed => some delivery
  | _ => none

end WebhookTask

def Given.hasEffect : Given → Bool
  | .statement outcome _ => takesEffect (some outcome)
  | .reply _ => false

/-
  A delivery that marks its event as delivered or as failed is
  the only one of its webhook that is pending.
-/
def Unshared (db : WebhookDb) (task : WebhookTask) (given : Given) : Prop :=
  ∀ delivery ∈ task.marks?, given.hasEffect = true → delivery.Alone db

instance (db : WebhookDb) (task : WebhookTask) (given : Given) :
    Decidable (Unshared db task given) :=
  inferInstanceAs (Decidable (∀ delivery ∈ (_ : Option _), _ → _))

-- Runs
----

variable {maxAttempts : ℕ}

/- What is left of a task by a statement or a request. -/
structure Leaves (maxAttempts : ℕ) (db : WebhookDb) (effect : Effect) : Prop where
  store : db.Extends effect.1
  attributed : effect.1.Attributed maxAttempts
  tasks : ∀ task ∈ effect.2.1 :: effect.2.2, task.Known maxAttempts effect.1

variable {db after : WebhookDb}

theorem Leaves.one {task : WebhookTask} (hExtends : db.Extends after)
    (hAttributed : after.Attributed maxAttempts) (hKnown : task.Known maxAttempts after) :
    Leaves maxAttempts db (after, task, []) where
  store := hExtends
  attributed := hAttributed
  tasks := by
    intro other hOther
    rw [List.mem_singleton.mp hOther]
    exact hKnown

/- It is enough to look at what a statement leads to. -/
theorem Leaves.settle {next failed : WebhookTask} {outcome : Outcome}
    (hAttributed : db.Attributed maxAttempts) (hExtends : db.Extends after)
    (hAfter : takesEffect (some outcome) = true → after.Attributed maxAttempts)
    (hFailed : failed.Known maxAttempts db) (hNext : next.Known maxAttempts after) :
    Leaves maxAttempts db (settle db after next failed outcome) := by
  cases outcome with
  | served => exact .one hExtends (hAfter rfl) hNext
  | rejected => exact .one (.refl db) hAttributed hFailed
  | lost => exact .one hExtends (hAfter rfl) (hFailed.extends hExtends)

theorem Leaves.create {dispatch : Dispatch} (hAttributed : db.Attributed maxAttempts) (created : ℕ)
    (rest : List Webhook) (webhook : Webhook) (outcome : Outcome) :
    Leaves maxAttempts db (dispatch.create created rest webhook db outcome) := by
  have hStays : Leaves maxAttempts db (db, .ended, []) := .one (.refl db) hAttributed trivial
  have hCreated {webhookEvent : Table WebhookEvent}
      (hInsert : db.webhookEvent.insert? (dispatch.event created webhook) = some webhookEvent) :
      Leaves maxAttempts db ({ db with webhookEvent }, .creating dispatch (created + 1) rest,
        [.delivering (dispatch.delivery created webhook) .fetching]) ∧ Leaves maxAttempts db
        ({ db with webhookEvent }, .ended, []) := by
    have hExtends := WebhookDb.extends_insert hInsert
    have hLeft := hAttributed.insert rfl hInsert
    constructor
    · refine ⟨hExtends, hLeft, ?_⟩
      intro task hTask
      rcases List.mem_cons.mp hTask with rfl | hStarted
      · trivial
      · rw [List.mem_singleton.mp hStarted]
        refine ⟨?_, Nat.le_add_left 1 _⟩
        rcases Table.exists_create_of_insert? hInsert with ⟨hFresh, rfl⟩
        refine ⟨dispatch.event created webhook, ?_, rfl, rfl⟩
        exact (Table.find?_create _ _ hFresh _).trans (if_pos rfl)
    · exact .one hExtends hLeft trivial
  cases outcome with
  | rejected => exact hStays
  | served =>
    simp only [Dispatch.create]
    split
    · exact hStays
    · rename_i hInsert
      exact (hCreated hInsert).1
  | lost =>
    simp only [Dispatch.create]
    split
    · exact hStays
    · rename_i hInsert
      exact (hCreated hInsert).2

variable {delivery : Delivery}

theorem Delivery.retry_known (hOwns : delivery.Owns db)
    (hSent : delivery.attempt ≤ db.attempts delivery.eventId) :
    (delivery.retry maxAttempts).Known maxAttempts db := by
  rw [retry]
  split
  · exact ⟨hOwns, Nat.add_le_add_right hSent 1⟩
  · rename_i hLast
    exact ⟨hOwns, (Nat.le_of_not_lt hLast).trans hSent⟩

/- One case for each stage of a delivery. -/
theorem Leaves.attempt {stage : DeliveryStage} {given : Given} {effect : Effect}
    (hAttributed : db.Attributed maxAttempts)
    (hKnown : (WebhookTask.delivering delivery stage).Known maxAttempts db)
    (hUnshared : Unshared db (.delivering delivery stage) given)
    (hAttempt : attemptDelivery maxAttempts delivery db stage given = some effect) :
    Leaves maxAttempts db effect := by
  rcases hKnown with ⟨hOwns, hReached⟩
  cases stage with
  | fetching =>
    cases given with
    | statement outcome errMsg => cases hAttempt
    | reply reply =>
      cases hAttempt
      have hExtends := db.extends_fetch delivery reply
      have hSent : delivery.attempt ≤ (delivery.fetch reply db).attempts
          delivery.eventId := by
        rw [delivery.attempts_fetch]
        exact hReached
      refine .one hExtends (hAttributed.of_requests hExtends rfl) ⟨hOwns.extends hExtends, ?_⟩
      split
      · rename_i hOk
        exact ⟨hSent, delivery.accepted_fetch hOk db⟩
      · exact hSent
  | delivered =>
    cases given with
    | reply reply => cases hAttempt
    | statement outcome errMsg =>
      cases hAttempt
      have hExtends :=
        db.extends_updateMany delivery (f := WebhookEvent.markDelivered delivery.attempt)
          (fun _ => rfl) fun _ => ⟨rfl, rfl⟩
      refine .settle hAttributed hExtends ?_ ⟨hOwns, hReached.1⟩ trivial
      intro hEffect
      apply hAttributed.updateMany
      intro event hEvent hSelects
      have hId := hUnshared delivery rfl hEffect event hEvent hSelects
      have hAccepted : db.Accepted event := delivery.accepted_event hOwns hEvent hId hReached.2
      exact ⟨fun _ => hAccepted, nofun⟩
  | retrying message =>
    cases given with
    | reply reply => cases hAttempt
    | statement outcome errMsg =>
      cases hAttempt
      have hExtends :=
        db.extends_updateMany delivery (f := WebhookEvent.noteError delivery.attempt message)
          (fun _ => rfl) fun _ => ⟨rfl, rfl⟩
      refine .settle hAttributed hExtends ?_ trivial ((delivery.retry_known hOwns hReached).extends
        hExtends)
      intro _
      apply hAttributed.updateMany
      intro event hEvent _
      exact hAttributed event hEvent
  | flagging =>
    cases given with
    | reply reply => cases hAttempt
    | statement outcome errMsg =>
      simp only [attemptDelivery] at hAttempt
      split at hAttempt
      · cases hAttempt
        exact .one (.refl db) hAttributed trivial
      · cases hAttempt
        have hExtends := db.extends_flag delivery
        exact .settle hAttributed hExtends (fun _ => hAttributed.of_requests hExtends rfl)
          trivial ⟨hOwns.extends hExtends, hReached⟩
  | failed =>
    cases given with
    | reply reply => cases hAttempt
    | statement outcome errMsg =>
      cases hAttempt
      have hExtends :=
        db.extends_updateMany delivery (f := WebhookEvent.markFailed delivery.attempt)
          (fun _ => rfl) fun _ => ⟨rfl, rfl⟩
      refine .settle hAttributed hExtends ?_ trivial trivial
      intro hEffect
      apply hAttributed.updateMany
      intro event hEvent hSelects
      have hId := hUnshared delivery rfl hEffect event hEvent hSelects
      refine ⟨nofun, fun _ => ?_⟩
      change maxAttempts ≤ db.attempts event.id
      rw [hId]
      exact hReached

/- Every task keeps the statuses attributed. -/
theorem webhookDeliveries_maintains :
    (webhookDeliveries maxAttempts).Maintains Unshared (WebhookDb.Attributed maxAttempts)
      (fun db task => task.Known maxAttempts db) where
  react := by
    intro db task given db' next started hAttributed hKnown hUnshared hReact
    have hLeaves : Leaves maxAttempts db (db', next, started) := by
      cases task with
      | finding dispatch =>
        cases given with
        | reply reply => cases hReact
        | statement outcome errMsg =>
          rw [← Option.some.inj hReact]
          exact .settle hAttributed (.refl db) (fun _ => hAttributed) trivial trivial
      | creating dispatch created rest =>
        cases rest with
        | nil => cases given <;> cases hReact
        | cons webhook rest =>
          cases given with
          | reply reply => cases hReact
          | statement outcome errMsg =>
            rw [← Option.some.inj hReact]
            exact .create hAttributed _ _ _ _
      | delivering delivery stage => exact .attempt hAttributed hKnown hUnshared hReact
      | ended => cases given <;> cases hReact
    exact ⟨hLeaves.attributed, hLeaves.tasks, fun _ hOther => hOther.extends hLeaves.store⟩

/-
  Where a delivery never marks while another event of its webhook
  is pending, an event is only delivered that the receiver has
  accepted, and only failed after all of its own attempts.
-/
theorem deliveries_attributed {webhooks : Table Webhook} {dispatches : List Dispatch}
    {moves : List (TaskMove Given)} {crew : Crew WebhookDb WebhookTask}
    (hRun : RunsTo (Crew.react (webhookDeliveries maxAttempts)) (Crew.Permits Unshared)
      (.start (WebhookDb.start webhooks) (dispatches.map .finding)) moves crew) :
    ∀ event ∈ crew.store.webhookEvent.rows,
      (event.status = .delivered → crew.store.Accepted event) ∧ (event.status = .failed →
        crew.store.Exhausted maxAttempts event) := by
  have hStart : Crew.All (WebhookTask.Known maxAttempts (WebhookDb.start webhooks))
      (.start (WebhookDb.start webhooks) (dispatches.map .finding)) := by
    apply Crew.all_start
    intro task hTask
    rcases List.mem_map.mp hTask with ⟨dispatch, -, rfl⟩
    trivial
  have hEmpty : (WebhookDb.start webhooks).Attributed maxAttempts := by
    intro event hEvent
    cases hEvent
  exact (webhookDeliveries_maintains.run hEmpty hStart hRun).1

def sampleWebhook : Webhook where
  id := "hook"
  creatorId := "creator"
  callbackUrl := "https://receiver"
  events := [.buy]
  isActive := true
  isFailing := false

def sampleWebhooks : Table Webhook where
  rows := [sampleWebhook]
  unique := by simp

def sampleDispatch (amount : String) : Dispatch where
  tradeEvent :=
    { type := .buy
      creatorId := "creator"
      buyerOrSellerAddress := "buyer"
      amount
      price := "1"
      feePaid := "0"
      timestamp := "now" }
  cuid := fun _ => amount

def sampleCrew (amounts : List String) : Crew WebhookDb WebhookTask :=
  .start (WebhookDb.start sampleWebhooks)
    (amounts.map fun amount => .finding (sampleDispatch amount))

def served (i : ℕ) : TaskMove Given := .input i (.statement .served "")

def replied (i : ℕ) (status : ℕ) : TaskMove Given := .input i (.reply (.response status ""))

/- One attempt that is refused, and what is noted of it. -/
def refused (i : ℕ) : List (TaskMove Given) := [replied i 500, served i]

/- The events that are stored, and whether they were accepted. -/
def sampleEvents (db : WebhookDb) : List (String × WebhookEventStatus) :=
  db.webhookEvent.rows.map fun event => (event.id, event.status)

/-
  One event is accepted; the other is dispatched after that, and
  all of its attempts are refused.
-/
theorem deliveries_attributed_sample :
    ∃ crew, RunsTo (Crew.react (webhookDeliveries 3))
      (Crew.Permits Unshared) (sampleCrew ["1", "2"])
      ([served 0, served 0, replied 2 200, served 2, served 1,
        served 1] ++ refused 3 ++ refused 3 ++ refused 3 ++ [served 3, served 3]) crew ∧
      sampleEvents crew.store = [("1", .delivered), ("2", .failed)] ∧
      ∀ event ∈ crew.store.webhookEvent.rows,
        (event.status = .delivered → crew.store.Accepted event) ∧ (event.status = .failed →
          crew.store.Exhausted 3 event) := by
  have hRuns :
      (runAllowed (Crew.react (webhookDeliveries 3)) (Crew.Permits Unshared) (sampleCrew ["1", "2"])
        ([served 0, served 0, replied 2 200, served 2, served 1,
          served 1] ++ refused 3 ++ refused 3 ++ refused 3 ++ [served 3, served 3])).map
        (fun crew => sampleEvents crew.store) =
        some [("1", .delivered), ("2", .failed)] := by decide
  rcases Option.map_eq_some_iff.mp hRuns with ⟨crew, hSome, hSeen⟩
  have hRun := runsTo_of_runAllowed hSome
  exact ⟨crew, hRun, hSeen, @deliveries_attributed 3 sampleWebhooks
    (["1", "2"].map sampleDispatch) _ _ hRun⟩

/-
  The reply to the second event marks the first one as delivered,
  before anything was sent for it; the last attempt for the third
  one marks the fourth as failed, of which nothing was sent.
-/
theorem others_marked :
    ∃ crew, RunsTo (Crew.react (webhookDeliveries 3)) (fun _ _ => True)
      (sampleCrew ["1", "2", "3", "4"]) ([served 0, served 0, served 1, served 1, replied 5 200,
        served 5, served 2, served 2, served 3, served 3] ++
        refused 6 ++ refused 6 ++ refused 6 ++ [served 6, served 6]) crew ∧
      (∃ event ∈ crew.store.webhookEvent.rows, event.status = .delivered ∧
        ¬ crew.store.Accepted event) ∧ ∃ event ∈ crew.store.webhookEvent.rows,
        event.status = .failed ∧ ¬ crew.store.Exhausted 3 event := by
  have hRuns : (runLabels (Crew.react (webhookDeliveries 3)) (sampleCrew ["1", "2", "3", "4"])
      ([served 0, served 0, served 1, served 1, replied 5 200,
        served 5, served 2, served 2, served 3, served 3] ++
        refused 6 ++ refused 6 ++ refused 6 ++ [served 6, served 6])).map
      (fun crew => (decide (∃ event ∈ crew.store.webhookEvent.rows, event.status = .delivered ∧
        ¬ crew.store.Accepted event), decide (∃ event ∈ crew.store.webhookEvent.rows,
        event.status = .failed ∧ ¬ crew.store.Exhausted 3 event))) =
      some (true, true) := by decide
  rcases Option.map_eq_some_iff.mp hRuns with ⟨crew, hSome, hSeen⟩
  rcases Prod.mk.inj hSeen with ⟨hDelivered, hFailed⟩
  exact ⟨crew, runsTo_of_runLabels hSome, of_decide_eq_true hDelivered, of_decide_eq_true hFailed⟩

end Webhooks

end AccessLayer
