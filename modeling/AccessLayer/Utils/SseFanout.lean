import AccessLayer.Library.Json
import AccessLayer.Library.Runs
import Mathlib.Logic.Function.Basic

/-
  Delivery of events to subscribers over server-sent events
  (`src/utils/sse-fanout.utils.ts`).

  Connections are closed and opened anew, replays and fan-outs of
  events interleave between any two awaits, a write may throw,
  and commands to Redis may fail and take their effect late.
  Redis is not disabled; throttling, connection counts and logs
  are left out.

  Main result: `cursor_never_ahead`
-/

-- Connections
----

namespace AccessLayer

namespace Utils

namespace SseFanout

section

/- The settings, which the configuration checks are positive. -/
structure SseConfig where
  queueCapacity : ℕ
  queueFullTimeoutMs : ℕ
  replayMaxEvents : ℕ
  queueCapacity_pos : 0 < queueCapacity
  replayMaxEvents_pos : 0 < replayMaxEvents

structure SseEvent where
  cursor : String
  topic : String
  payload : Json

/- An event, the wallet it is for and its place in the log. -/
structure Published extends SseEvent where
  walletAddress : String
  position : ℕ

/- The text that is written for an event. -/
def SseEvent.frame (event : SseEvent) : String :=
  "id: " ++ event.cursor ++ "\nevent: " ++ event.topic ++
    "\ndata: " ++ String.ofList event.payload.stringify ++ "\n\n"

structure SseConnectionState where
  subscriptionId : String
  walletAddress : String
  headersSent : Bool
  replayTruncated : Bool
  chunks : List String
  queue : List Published
  queueFullSince : Option ℕ
  closed : Bool

/- An entry of the map of connections; slots are in order. -/
structure HubEntry where
  slot : ℕ
  subscriptionId : String
  state : ℕ

/- Every connection there has been, and the map of open ones. -/
structure Hub where
  states : List SseConnectionState
  connections : List HubEntry
  slots : ℕ

namespace Hub

variable (hub : Hub)

def lookUp (subscriptionId : String) : Option HubEntry :=
  hub.connections.find? (·.subscriptionId = subscriptionId)

/- The connection of a subscription, unless it is closed. -/
def open? (subscriptionId : String) : Option (ℕ × SseConnectionState) :=
  match hub.lookUp subscriptionId with
  | some entry =>
    match hub.states[entry.state]? with
    | some state =>
      if state.closed then none else some (entry.state, state)
    | none => none
  | none => none

def setState (i : ℕ) (state : SseConnectionState) : Hub :=
  { hub with states := hub.states.set i state }

/- An entry that exists keeps its place in the map. -/
def registerConnection (subscriptionId walletAddress : String) (headersSent : Bool) : Hub :=
  let states :=
    hub.states ++
      [{ subscriptionId
         walletAddress
         headersSent
         replayTruncated := false
         chunks := []
         queue := []
         queueFullSince := none
         closed := false }]
  match hub.lookUp subscriptionId with
  | some _ =>
    { hub with
      states
      connections :=
        hub.connections.map fun entry =>
          if entry.subscriptionId = subscriptionId then
            { entry with state := hub.states.length }
          else entry }
  | none =>
    { states
      connections :=
        hub.connections ++
          [{ slot := hub.slots
             subscriptionId
             state := hub.states.length }]
      slots := hub.slots + 1 }

def delete (subscriptionId : String) : Hub :=
  { hub with
    connections := hub.connections.filter (·.subscriptionId ≠ subscriptionId) }

def closeConnection (subscriptionId : String) : Hub :=
  match hub.open? subscriptionId with
  | some (i, state) => (hub.setState i { state with closed := true }).delete subscriptionId
  | none => hub

/- The last words to a slow client may fail. -/
def forceCloseConnection (subscriptionId : String) (served : Bool) : Hub :=
  match hub.open? subscriptionId with
  | some (i, state) =>
    (hub.setState i { state with
        closed := true
        chunks :=
          if served then
            state.chunks ++ [": connection closed: slow client\n\n"]
          else state.chunks }).delete subscriptionId
  | none => hub

/- Write the queued events until one throws, and answer with those that have been written. -/
def drain (subscriptionId : String) (i : ℕ) :
    SseConnectionState → List Published → List Bool → Hub → Hub × List Published
  | state, [], _, hub => (hub.setState i { state with queue := [] }, [])
  | state, event :: rest, writes, hub =>
    if writes.head? = some false then
      ((hub.setState i { state with queue := event :: rest } ).closeConnection subscriptionId, [])
    else
      let state := { state with chunks := state.chunks ++ [event.frame] }
      let drained := drain subscriptionId i state rest writes.tail hub
      (drained.1, event :: drained.2)

def drainQueue (subscriptionId : String) (writes : List Bool) : Hub × List Published :=
  match hub.open? subscriptionId with
  | some (i, state) => drain subscriptionId i state state.queue writes hub
  | none => (hub, [])

/- Queue an event and drain the queue, unless it is full. -/
def sendSseEvent (config : SseConfig) (subscriptionId : String) (event : Published) (now : ℕ)
    (writes : List Bool) : Hub × List Published :=
  match hub.open? subscriptionId with
  | none => (hub, [])
  | some (i, state) =>
    if config.queueCapacity ≤ state.queue.length then
      match state.queueFullSince with
      | none => (hub.setState i { state with queueFullSince := some now }, [])
      | some since =>
        if config.queueFullTimeoutMs ≤ now - since then
          (hub.forceCloseConnection subscriptionId (writes.head? ≠ some false), [])
        else (hub, [])
    else
      (hub.setState i { state with
          queueFullSince := none
          queue := state.queue ++ [event] }).drainQueue subscriptionId writes

/- A heartbeat that cannot be written closes the connection. -/
def heartbeat (i : ℕ) (served : Bool) : Option Hub :=
  match hub.states[i]? with
  | some state =>
    if state.closed then none
    else if served then
      some (hub.setState i { state with
            chunks := state.chunks ++ [": heartbeat\n\n"] })
    else some (hub.closeConnection state.subscriptionId)
  | none => none

end Hub

end

-- Replays and Fan-Outs
----

section

open Transactional

structure Subscription where
  walletAddress : String
  topics : List String

/- The events after a cursor; all of them if it is not found. -/
def eventsAfter (lastEventId : Option String) (events : List Published) : List Published :=
  match lastEventId with
  | some cursor =>
    -- an empty string is no cursor
    if cursor = "" then events
    else
      match events.findIdx? (·.cursor = cursor) with
      | some lastIndex => events.drop (lastIndex + 1)
      | none => events
  | none => events

/- A cursor that is being saved once its event is written. -/
structure CursorSave where
  subscriptionId : String
  event : Published

/-
  What has been published, written to the clients of a
  subscription and cut off from replays, and the saved cursors.
-/
structure Stream where
  log : List Published
  written : List (String × ℕ)
  cut : List (String × ℕ)
  cursors : String → Option String
  saves : List CursorSave

def Stream.eventsOf (stream : Stream) (subscription : Subscription) : List Published :=
  stream.log.filter fun event => event.walletAddress = subscription.walletAddress ∧
    event.topic ∈ subscription.topics

inductive FanOutStage where
  /- the slot to look at next -/
  | visiting (slot : ℕ)
  /- `getSubscription` is awaited -/
  | found (slot : ℕ) (subscriptionId : String)
  | ended

structure FanOut where
  event : Published
  stage : FanOutStage

inductive ReplayStage where
  | writing
  /- `saveCursor` is awaited -/
  | saving (event : Published)
  | ended (broken : Bool)

/-
  A call of `replayEvents` on a connection, the events it still
  has to write, and the length of the log it began with.
-/
structure Replay where
  subscriptionId : String
  state : ℕ
  logged : ℕ
  rest : List Published
  stage : ReplayStage
  replayed : ℕ
  truncated : Bool

structure SseWorld where
  registry : String → Option Subscription
  hub : Hub
  stream : Stream
  fanOuts : List FanOut
  replays : List Replay

def SseWorld.start (registry : String → Option Subscription) : SseWorld where
  registry := registry
  hub := { states := [], connections := [], slots := 0 }
  stream :=
    { log := []
      written := []
      cut := []
      cursors := fun _ => none
      saves := [] }
  fanOuts := []
  replays := []

inductive SseMove where
  | publish (walletAddress topic : String) (payload : Json) (cursor : String)
  | fanOut (k : ℕ) (served : Bool) (now : ℕ) (writes : List Bool)
  | save (k : ℕ) (served : Bool)
  | connect (subscriptionId : String) (headersSent : Bool)
  | disconnect (subscriptionId : String)
  | heartbeat (i : ℕ) (served : Bool)
  | replay (subscriptionId : String) (lastEventId : Option String)
  | resume (r : ℕ) (served : Bool)

namespace Stream

variable (stream : Stream)

def publish (walletAddress topic : String) (payload : Json) (cursor : String) : Published where
  cursor
  topic
  payload
  walletAddress
  position := stream.log.length

def add (event : Published) : Stream := { stream with log := stream.log ++ [event] }

/- Events that have been written are saved without waiting. -/
def sent (subscriptionId : String) (events : List Published) : Stream :=
  { stream with
    written := stream.written ++ events.map fun event => (subscriptionId, event.position)
    saves := stream.saves ++ events.map fun event => { subscriptionId, event } }

def write (subscriptionId : String) (event : Published) : Stream :=
  { stream with
    written := stream.written ++ [(subscriptionId, event.position)] }

def cutOff (subscriptionId : String) (events : List Published) : Stream :=
  { stream with
    cut := stream.cut ++ events.map fun event => (subscriptionId, event.position) }

def saveCursor (subscriptionId cursor : String) : Stream :=
  { stream with
    cursors := Function.update stream.cursors subscriptionId (some cursor) }

end Stream

/- The header is refused once the headers have been sent. -/
def SseConnectionState.truncate (state : SseConnectionState) : SseConnectionState :=
  if state.headersSent then state
  else { state with replayTruncated := true }

namespace SseWorld

variable (world : SseWorld)

/- The loop of `fanOutEvent` up to its next await. -/
def fanOut (config : SseConfig) (k : ℕ) (call : FanOut) (served : Bool) (now : ℕ)
    (writes : List Bool) : Option SseWorld :=
  let moveTo (stage : FanOutStage) : List FanOut := world.fanOuts.set k { call with stage }
  match call.stage with
  | .visiting slot =>
    match world.hub.connections.find? (slot ≤ ·.slot) with
    | none => some { world with fanOuts := moveTo .ended }
    | some entry =>
      match world.hub.states[entry.state]? with
      | none => none
      | some state =>
        if state.closed ∨ state.walletAddress ≠ call.event.walletAddress then
          some { world with
            fanOuts := moveTo (.visiting (entry.slot + 1)) }
        else
          some { world with
            fanOuts := moveTo (.found entry.slot entry.subscriptionId) }
  | .found slot subscriptionId =>
    if served = false then
      some { world with fanOuts := moveTo .ended }
    else
      match world.registry subscriptionId with
      | none =>
        some { world with
          fanOuts := moveTo (.visiting (slot + 1)) }
      | some subscription =>
        if call.event.topic ∉ subscription.topics then
          some { world with
            fanOuts := moveTo (.visiting (slot + 1)) }
        else
          let sent := world.hub.sendSseEvent config subscriptionId call.event now writes
          some { world with
            hub := sent.1
            stream := world.stream.sent subscriptionId sent.2
            fanOuts := moveTo (.visiting (slot + 1)) }
  | .ended => none

/- The events after the cursor, of which the newest are replayed when there are too many. -/
def replay (config : SseConfig) (subscriptionId : String)
    (lastEventId : Option String) : Option SseWorld :=
  match world.registry subscriptionId with
  | none => none
  | some subscription =>
    match world.hub.open? subscriptionId with
    | none => some world
    | some (i, state) =>
      let events := world.stream.eventsOf subscription
      let after := eventsAfter lastEventId events
      let dropped := after.length - config.replayMaxEvents
      let rest := after.drop dropped
      some { world with
        hub :=
          if config.replayMaxEvents < after.length then
            world.hub.setState i state.truncate
          else world.hub
        stream := world.stream.cutOff subscriptionId (after.take dropped)
        replays :=
          world.replays ++
            [{ subscriptionId
               state := i
               logged := world.stream.log.length
               rest
               stage := .writing
               replayed := rest.length
               truncated :=
                 config.replayMaxEvents < rest.length ∨ config.replayMaxEvents < events.length }] }

/- The loop of `replayEvents` up to its next await. -/
def resume (r : ℕ) (call : Replay) (served : Bool) : Option SseWorld :=
  let moveTo (call : Replay) : List Replay := world.replays.set r call
  match call.stage with
  | .writing =>
    match call.rest with
    | [] =>
      some { world with
        replays := moveTo { call with stage := .ended false } }
    | event :: rest =>
      match world.hub.states[call.state]? with
      | none => none
      | some state =>
        if state.closed then
          some { world with
            replays := moveTo { call with stage := .ended true } }
        else if served = false then
          some { world with
            hub := world.hub.closeConnection call.subscriptionId
            replays := moveTo { call with stage := .ended true } }
        else
          some { world with
            hub :=
              world.hub.setState call.state { state with
                  chunks := state.chunks ++ [event.frame] }
            stream := world.stream.write call.subscriptionId event
            replays := moveTo { call with rest, stage := .saving event } }
  | .saving event =>
    if served = false then
      some { world with
        hub := world.hub.closeConnection call.subscriptionId
        replays := moveTo { call with stage := .ended true } }
    else
      some { world with
        stream := world.stream.saveCursor call.subscriptionId event.cursor
        replays := moveTo { call with stage := .writing } }
  | .ended _ => none

/- A save that is not awaited may fail, or be overtaken. -/
def save (k : ℕ) (served : Bool) : Option SseWorld :=
  match world.stream.saves[k]? with
  | none => none
  | some pending =>
    let stream :=
      { world.stream with
        saves := world.stream.saves.eraseIdx k }
    some { world with
      stream :=
        if served then
          stream.saveCursor pending.subscriptionId
            pending.event.cursor
        else stream }

def step (config : SseConfig) (world : SseWorld) : SseMove → Option SseWorld
  | .publish walletAddress topic payload cursor =>
    let event := world.stream.publish walletAddress topic payload cursor
    some { world with
      stream := world.stream.add event
      fanOuts := world.fanOuts ++ [{ event, stage := .visiting 0 }] }
  | .fanOut k served now writes =>
    match world.fanOuts[k]? with
    | some call => world.fanOut config k call served now writes
    | none => none
  | .save k served => world.save k served
  | .connect subscriptionId headersSent =>
    (world.registry subscriptionId).map fun subscription => { world with
        hub := world.hub.registerConnection subscriptionId subscription.walletAddress headersSent }
  | .disconnect subscriptionId =>
    some { world with
      hub := world.hub.closeConnection subscriptionId }
  | .heartbeat i served => (world.hub.heartbeat i served).map fun hub => { world with hub }
  | .replay subscriptionId lastEventId => world.replay config subscriptionId lastEventId
  | .resume r served =>
    match world.replays[r]? with
    | some call => world.resume r call served
    | none => none

end SseWorld

end

-- What a Client Has Been Sent
----

section

open Transactional

namespace Stream

variable (stream : Stream)

/- An event is written to the clients or cut off from a replay. -/
def Done (subscriptionId : String) (position : ℕ) : Prop :=
  (subscriptionId, position) ∈ stream.written ∨ (subscriptionId, position) ∈ stream.cut

instance (subscriptionId : String) (position : ℕ) :
    Decidable (stream.Done subscriptionId position) := inferInstanceAs (Decidable (_ ∨ _))

/- Nothing of a subscription is missing before a position. -/
def DoneBefore (subscriptionId : String) (subscription : Subscription) (position : ℕ) : Prop :=
  ∀ event ∈ stream.eventsOf subscription, event.position < position →
    stream.Done subscriptionId event.position

instance (subscriptionId : String) (subscription : Subscription) (position : ℕ) :
    Decidable (stream.DoneBefore subscriptionId subscription position) :=
  inferInstanceAs (Decidable (∀ event ∈ _, _))

def HasSent (subscriptionId : String) (subscription : Subscription) (cursor : String) : Prop :=
  ∃ event ∈ stream.eventsOf subscription, event.cursor = cursor ∧
    (subscriptionId, event.position) ∈ stream.written

instance (subscriptionId : String) (subscription : Subscription) (cursor : String) :
    Decidable (stream.HasSent subscriptionId subscription cursor) :=
  inferInstanceAs (Decidable (∃ event ∈ _, _))

end Stream

/- The client that a step of a fan-out writes the event to, if it does. -/
def SseWorld.receiver (config : SseConfig) (world : SseWorld) (call : FanOut) (served : Bool)
    (now : ℕ) (writes : List Bool) : Option (String × Subscription) :=
  match call.stage with
  | .found _ subscriptionId =>
    if served = false then none
    else
      (world.registry subscriptionId).bind fun subscription =>
        if call.event.topic ∈ subscription.topics ∧
          (world.hub.sendSseEvent config subscriptionId call.event now writes).2 ≠ [] then
          some (subscriptionId, subscription)
        else none
  | _ => none

/- A live event goes to a client that misses none before it. -/
def SseWorld.ReadyFor (config : SseConfig) (world : SseWorld) (call : FanOut) (served : Bool)
    (now : ℕ) (writes : List Bool) : Prop :=
  ∀ client ∈ world.receiver config call served now writes,
    world.stream.DoneBefore client.1 client.2 call.event.position

/-
  Live events go to clients that have caught up, and a client
  resumes from a cursor it has been sent, or from none.
-/
def CaughtUp (config : SseConfig) (world : SseWorld) : SseMove → Prop
  | .fanOut k served now writes =>
    ∀ call ∈ world.fanOuts[k]?, world.ReadyFor config call served now writes
  | .replay subscriptionId lastEventId =>
    ∀ cursor ∈ lastEventId, ∀ subscription ∈ world.registry subscriptionId,
      (∃ event ∈ world.stream.eventsOf subscription, event.cursor = cursor) →
      world.stream.HasSent subscriptionId subscription cursor
  | _ => True

instance (config : SseConfig) (world : SseWorld) (call : FanOut) (served : Bool) (now : ℕ)
    (writes : List Bool) : Decidable (world.ReadyFor config call served now writes) :=
  inferInstanceAs (Decidable (∀ client ∈ (_ : Option _), _))

instance (config : SseConfig) (world : SseWorld) (move : SseMove) :
    Decidable (CaughtUp config world move) := by
  unfold CaughtUp
  split <;> infer_instance

/-
  The saved cursor is that of an event that has been written,
  and nothing of the subscription is missing up to it.
-/
def NeverAhead (world : SseWorld) : Prop :=
  ∀ subscriptionId subscription cursor, world.registry subscriptionId = some subscription →
    world.stream.cursors subscriptionId = some cursor →
      ∃ event ∈ world.stream.eventsOf subscription, event.cursor = cursor ∧
        world.stream.DoneBefore subscriptionId subscription (event.position + 1)

/- A replay that has run to its end leaves nothing missing of what was published before it. -/
def ReplaysDeliver (world : SseWorld) : Prop :=
  ∀ call ∈ world.replays, call.stage = .ended false →
    ∀ subscription ∈ world.registry call.subscriptionId,
      world.stream.DoneBefore call.subscriptionId subscription call.logged

end

-- Queues of Open Connections
----

section

open Transactional

namespace Hub

variable {registry : String → Option Subscription} {config : SseConfig} {hub : Hub}
variable {subscriptionId : String} {i : ℕ} {state state' : SseConnectionState} {event : Published}

theorem open?_spec (h : hub.open? subscriptionId = some (i, state)) :
    hub.states[i]? = some state ∧ state.closed = false ∧
      ∃ entry, hub.lookUp subscriptionId = some entry ∧ entry.state = i := by
  unfold open? at h
  split at h
  · rename_i entry hEntry
    split at h
    · rename_i found hState
      split at h
      · cases h
      · rename_i hOpen
        cases h
        exact ⟨hState, Bool.eq_false_iff.mpr hOpen, entry, hEntry, rfl⟩
    · cases h
  · cases h

theorem open?_setState (h : hub.open? subscriptionId = some (i, state))
    (state' : SseConnectionState) (hOpen : state'.closed = false) :
    (hub.setState i state').open? subscriptionId = some (i, state') := by
  rcases open?_spec h with ⟨hState, -, entry, hEntry, rfl⟩
  have hLess := (List.getElem?_eq_some_iff.mp hState).1
  have hSet : (hub.states.set entry.state state')[entry.state]? =
      some state' := by
    simp [hLess]
  unfold open?
  rw [show (hub.setState entry.state state').lookUp subscriptionId = some entry from hEntry]
  unfold setState
  simp only [hSet, hOpen]
  rfl

/-
  Between two steps, an open connection has nothing queued; an
  entry leads to a connection of its subscription, and the wallet
  of a connection is that of the subscription.
-/
structure Sound (registry : String → Option Subscription) (hub : Hub) : Prop where
  idle : ∀ state ∈ hub.states, state.closed = false → state.queue = []
  owner : ∀ state ∈ hub.states, ∀ subscription ∈ registry state.subscriptionId,
    subscription.walletAddress = state.walletAddress
  entry : ∀ entry ∈ hub.connections, ∃ state, hub.states[entry.state]? = some state ∧
    state.subscriptionId = entry.subscriptionId

theorem Sound.start (registry : String → Option Subscription) :
    Sound registry { states := [], connections := [], slots := 0 }
    where
  idle _ h := nomatch h
  owner _ h := nomatch h
  entry _ h := nomatch h

theorem Sound.setState (hSound : hub.Sound registry) (hState : hub.states[i]? = some state)
    (hIdle : state'.closed = false → state'.queue = [])
    (hId : state'.subscriptionId = state.subscriptionId)
    (hWallet : state'.walletAddress = state.walletAddress) :
    (hub.setState i state').Sound registry where
  idle := by
    intro other hOther hOpen
    rcases List.mem_or_eq_of_mem_set hOther with hOld | rfl
    · exact hSound.idle other hOld hOpen
    · exact hIdle hOpen
  owner := by
    intro other hOther
    rcases List.mem_or_eq_of_mem_set hOther with hOld | rfl
    · exact hSound.owner other hOld
    · rw [hId, hWallet]
      exact hSound.owner state (List.mem_of_getElem? hState)
  entry := by
    intro entry hEntry
    rcases hSound.entry entry hEntry with ⟨found, hFound, hSame⟩
    have hLess := (List.getElem?_eq_some_iff.mp hState).1
    by_cases hHere : entry.state = i
    · subst hHere
      rw [hState] at hFound
      cases hFound
      exact ⟨state', by simp [Hub.setState, hLess], hId.trans hSame⟩
    · refine ⟨found, ?_, hSame⟩
      unfold Hub.setState
      rw [List.getElem?_set_ne (Ne.symm hHere)]
      exact hFound

theorem Sound.delete (hSound : hub.Sound registry) (subscriptionId : String) :
    (hub.delete subscriptionId).Sound registry where
  idle := hSound.idle
  owner := hSound.owner
  entry entry hEntry := hSound.entry entry (List.mem_of_mem_filter hEntry)

theorem Sound.closeConnection (hSound : hub.Sound registry) (subscriptionId : String) :
    (hub.closeConnection subscriptionId).Sound registry := by
  unfold Hub.closeConnection
  split
  · rename_i i state hOpen
    apply Sound.delete
    exact hSound.setState (open?_spec hOpen).1 (fun h => nomatch h) rfl rfl
  · exact hSound

theorem Sound.heartbeat {hub' : Hub} {served : Bool} (hSound : hub.Sound registry)
    (hBeat : hub.heartbeat i served = some hub') :
    hub'.Sound registry := by
  unfold Hub.heartbeat at hBeat
  split at hBeat
  · rename_i state hState
    split at hBeat
    · cases hBeat
    · split at hBeat
      · cases hBeat
        refine hSound.setState hState ?_ rfl rfl
        exact hSound.idle state (List.mem_of_getElem? hState)
      · cases hBeat
        exact hSound.closeConnection _
  · cases hBeat

theorem Sound.registerConnection {subscription : Subscription} (hSound : hub.Sound registry)
    (hSubscription : registry subscriptionId = some subscription) (headersSent : Bool) :
    (hub.registerConnection subscriptionId
      subscription.walletAddress headersSent).Sound registry := by
  have hNew : ∀ state : SseConnectionState,
      (hub.states ++ [state])[hub.states.length]? = some state := by
    intro state
    simp
  have hOld : ∀ (entry : HubEntry) (state : SseConnectionState),
      entry ∈ hub.connections →
        ∃ found, (hub.states ++ [state])[entry.state]? =
          some found ∧
          found.subscriptionId = entry.subscriptionId := by
    intro entry state hEntry
    rcases hSound.entry entry hEntry with ⟨found, hFound, hSame⟩
    exact ⟨found, getElem?_extended (List.prefix_append _ _) hFound, hSame⟩
  unfold Hub.registerConnection
  constructor
  · intro state hState hOpen
    have hMem : state ∈ hub.states ∨ state.queue = [] := by
      split at hState
      all_goals
        rcases List.mem_append.mp hState with hState | hState
        · exact .inl hState
        · rw [List.mem_singleton.mp hState]
          exact .inr rfl
    rcases hMem with hMem | hMem
    · exact hSound.idle state hMem hOpen
    · exact hMem
  · intro state hState
    have hMem : state ∈ hub.states ∨
        state.subscriptionId = subscriptionId ∧
          state.walletAddress = subscription.walletAddress := by
      split at hState
      all_goals
        rcases List.mem_append.mp hState with hState | hState
        · exact .inl hState
        · rw [List.mem_singleton.mp hState]
          exact .inr ⟨rfl, rfl⟩
    rcases hMem with hMem | ⟨hId, hWallet⟩
    · exact hSound.owner state hMem
    · rw [hId, hWallet, hSubscription]
      intro found hFound
      cases hFound
      rfl
  · split
    · intro entry hEntry
      rcases List.mem_map.mp hEntry with ⟨old, hMem, rfl⟩
      split
      · rename_i hSame
        exact ⟨_, hNew _, hSame.symm⟩
      · exact hOld old _ hMem
    · intro entry hEntry
      rcases List.mem_append.mp hEntry with hEntry | hEntry
      · exact hOld entry _ hEntry
      · rw [List.mem_singleton.mp hEntry]
        exact ⟨_, hNew _, rfl⟩

theorem setState_setState (hub : Hub) (i : ℕ) (state state' : SseConnectionState) :
    (hub.setState i state).setState i state' = hub.setState i state' := by
  unfold Hub.setState
  rw [List.set_set]

theorem closeConnection_setState (hOpen : hub.open? subscriptionId = some (i, state))
    (state' : SseConnectionState) (hStays : state'.closed = false) :
    (hub.setState i state').closeConnection subscriptionId =
      (hub.setState i { state' with closed := true }).delete
        subscriptionId := by
  unfold closeConnection
  rw [open?_setState hOpen state' hStays]
  dsimp only
  rw [setState_setState]

theorem drain_setState (queue : List Published) (writes : List Bool) (hub : Hub) :
    ∀ state : SseConnectionState, drain subscriptionId i state queue writes
      (hub.setState i state') = drain subscriptionId i state queue writes hub := by
  induction queue generalizing writes with
  | nil =>
    intro state
    simp only [drain, setState_setState]
  | cons event rest ih =>
    intro state
    simp only [drain, setState_setState, ih]

/- A drain leaves the connection with nothing queued or closed, and writes only what was queued. -/
theorem Sound.drain (hSound : hub.Sound registry)
    (hOpen : hub.open? subscriptionId = some (i, state)) (queue : List Published)
    (writes : List Bool) (state' : SseConnectionState) (hClosed : state'.closed = false)
    (hId : state'.subscriptionId = state.subscriptionId)
    (hWallet : state'.walletAddress = state.walletAddress) :
    (Hub.drain subscriptionId i state' queue writes hub).1.Sound registry ∧ ∀ written ∈
      (Hub.drain subscriptionId i state' queue writes hub).2, written ∈ queue := by
  have hState := (open?_spec hOpen).1
  induction queue generalizing state' writes with
  | nil => exact ⟨hSound.setState hState (fun _ => rfl) hId hWallet, fun _ h => nomatch h⟩
  | cons event rest ih =>
    unfold Hub.drain
    split
    · refine ⟨?_, fun _ h => nomatch h⟩
      rw [closeConnection_setState hOpen { state' with queue := event :: rest } hClosed]
      apply Sound.delete
      exact hSound.setState hState (fun h => nomatch h) hId hWallet
    · rcases ih writes.tail { state' with
              chunks := state'.chunks ++ [event.frame] } hClosed hId hWallet with ⟨hRest, hWritten⟩
      refine ⟨hRest, ?_⟩
      intro written hMem
      rcases List.mem_cons.mp hMem with rfl | hMem
      · exact List.mem_cons_self
      · exact List.mem_cons_of_mem _ (hWritten written hMem)

/- The queue of an open connection is never full, and nothing but the event itself is written. -/
theorem Sound.sendSseEvent (hSound : hub.Sound registry) (now : ℕ) (writes : List Bool) :
    (hub.sendSseEvent config subscriptionId event now writes).1.Sound registry ∧ ∀ written ∈
      (hub.sendSseEvent config subscriptionId event now writes).2, written = event ∧
      (hub.open? subscriptionId).isSome = true := by
  unfold Hub.sendSseEvent
  cases hOpen : hub.open? subscriptionId with
  | none => exact ⟨hSound, fun _ h => nomatch h⟩
  | some found =>
    rcases found with ⟨i, state⟩
    rcases open?_spec hOpen with ⟨hState, hClosed, -⟩
    have hQueue : state.queue = [] := hSound.idle state (List.mem_of_getElem? hState) hClosed
    have hRoom : ¬config.queueCapacity ≤ state.queue.length := by
      rw [hQueue]
      exact Nat.not_le.mpr config.queueCapacity_pos
    dsimp only
    rw [if_neg hRoom, drainQueue, open?_setState hOpen { state with
          queueFullSince := none
          queue := state.queue ++ [event] } hClosed]
    dsimp only
    rw [drain_setState, hQueue]
    rcases hSound.drain hOpen ([] ++ [event]) writes { state with
            queueFullSince := none
            queue := [] ++ [event] } hClosed rfl rfl with ⟨hDrained, hWritten⟩
    exact ⟨hDrained, fun written hMem => ⟨List.mem_singleton.mp (hWritten written hMem), rfl⟩⟩

end Hub

end

-- Nothing Missing Before What Is Done
----

section

variable {registry : String → Option Subscription} {stream stream' : Stream}
variable {subscriptionId : String} {subscription : Subscription} {event : Published}

/- What is published, written or cut later. -/
structure Stream.Grows (stream stream' : Stream) : Prop where
  log :
    ∃ more, stream'.log = stream.log ++ more ∧ ∀ event ∈ more, stream.log.length ≤ event.position
  written : ∀ entry ∈ stream.written, entry ∈ stream'.written
  cut : ∀ entry ∈ stream.cut, entry ∈ stream'.cut

namespace Stream

theorem Grows.of_same (hLog : stream'.log = stream.log)
    (hWritten : stream'.written = stream.written) (hCut : stream'.cut = stream.cut) :
    stream.Grows stream' where
  log := ⟨[], hLog.trans (List.append_nil _).symm, fun _ h => nomatch h⟩
  written _ h := hWritten ▸ h
  cut _ h := hCut ▸ h

variable {position : ℕ}

theorem Grows.done (hGrows : stream.Grows stream') (hDone : stream.Done subscriptionId position) :
    stream'.Done subscriptionId position := hDone.imp (hGrows.written _) (hGrows.cut _)

theorem Grows.mem_eventsOf (hGrows : stream.Grows stream')
    (hEvent : event ∈ stream.eventsOf subscription) :
    event ∈ stream'.eventsOf subscription := by
  rcases hGrows.log with ⟨more, hLog, -⟩
  unfold eventsOf at hEvent ⊢
  rw [hLog, List.filter_append]
  exact List.mem_append_left _ hEvent

theorem Grows.old_or_later (hGrows : stream.Grows stream')
    (hEvent : event ∈ stream'.eventsOf subscription) :
    event ∈ stream.eventsOf subscription ∨ stream.log.length ≤ event.position := by
  rcases hGrows.log with ⟨more, hLog, hLater⟩
  unfold eventsOf at hEvent ⊢
  rw [hLog, List.filter_append] at hEvent
  rcases List.mem_append.mp hEvent with hOld | hNew
  · exact .inl hOld
  · exact .inr (hLater event (List.mem_of_mem_filter hNew))

/-
  Nothing is missing before an event that is done, and what is
  being saved or has been saved is the cursor of a written event.
-/
structure Kept (registry : String → Option Subscription) (stream : Stream) : Prop where
  sorted : stream.log.Pairwise fun a b => a.position < b.position
  bound : ∀ event ∈ stream.log, event.position < stream.log.length
  below :
    ∀ subscriptionId position, stream.Done subscriptionId position → position < stream.log.length
  closed : ∀ subscriptionId, ∀ subscription ∈ registry subscriptionId,
    ∀ event ∈ stream.eventsOf subscription, stream.Done subscriptionId event.position →
      stream.DoneBefore subscriptionId subscription event.position
  saves : ∀ pending ∈ stream.saves, ∀ subscription ∈ registry pending.subscriptionId,
    pending.event ∈ stream.eventsOf subscription ∧
      (pending.subscriptionId, pending.event.position) ∈ stream.written
  cursors : ∀ subscriptionId, ∀ cursor ∈ stream.cursors subscriptionId,
    ∀ subscription ∈ registry subscriptionId, stream.HasSent subscriptionId subscription cursor

theorem HasSent.grows {cursor : String} (h : stream.HasSent subscriptionId subscription cursor)
    (hGrows : stream.Grows stream') :
    stream'.HasSent subscriptionId subscription cursor := by
  rcases h with ⟨event, hEvent, hCursor, hWritten⟩
  exact ⟨event, hGrows.mem_eventsOf hEvent, hCursor, hGrows.written _ hWritten⟩

theorem grows_add (stream : Stream) (walletAddress topic : String) (payload : Json)
    (cursor : String) :
    stream.Grows (stream.add (stream.publish walletAddress topic payload cursor)) where
  log := by
    refine ⟨[_], rfl, ?_⟩
    intro event hEvent
    rw [List.mem_singleton.mp hEvent]
    exact Nat.le_refl _
  written _ h := h
  cut _ h := h

theorem Kept.add (hKept : stream.Kept registry) (walletAddress topic : String) (payload : Json)
    (cursor : String) :
    (stream.add (stream.publish walletAddress topic payload cursor)).Kept registry := by
  have hGrows := grows_add stream walletAddress topic payload cursor
  have hLength : (stream.add (stream.publish walletAddress topic payload
      cursor)).log.length = stream.log.length + 1 :=
    List.length_append
  constructor
  · refine List.pairwise_append.mpr ⟨hKept.sorted, by simp, ?_⟩
    intro old hOld new hNew
    rw [List.mem_singleton.mp hNew]
    exact hKept.bound old hOld
  · intro event hEvent
    rw [hLength]
    rcases List.mem_append.mp hEvent with hOld | hNew
    · exact Nat.lt_succ_of_lt (hKept.bound event hOld)
    · rw [List.mem_singleton.mp hNew]
      exact Nat.lt_succ_self _
  · intro id position hDone
    rw [hLength]
    exact Nat.lt_succ_of_lt (hKept.below id position hDone)
  · intro id subscription hSubscription event hEvent hDone
    have hLess := hKept.below id event.position hDone
    have hOld : event ∈ stream.eventsOf subscription :=
      (hGrows.old_or_later hEvent).resolve_right (Nat.not_le.mpr hLess)
    intro earlier hEarlier hBefore
    rcases hGrows.old_or_later hEarlier with hMem | hLater
    · exact hKept.closed id subscription hSubscription event hOld hDone earlier hMem hBefore
    · omega
  · intro pending hPending subscription hSubscription
    rcases hKept.saves pending hPending subscription hSubscription with ⟨hEvent, hWritten⟩
    exact ⟨hGrows.mem_eventsOf hEvent, hWritten⟩
  · intro id saved hSaved subscription hSubscription
    exact (hKept.cursors id saved hSaved subscription hSubscription).grows hGrows

/- Events of one subscription become done, each of them with all that comes before it. -/
theorem Kept.mark (hKept : stream.Kept registry) (marked : List Published)
    (hSubscription : registry subscriptionId = some subscription)
    (hMarked : ∀ event ∈ marked, event ∈ stream.eventsOf subscription)
    (hBefore : ∀ event ∈ marked, ∀ earlier ∈ stream.eventsOf subscription,
      earlier.position < event.position → stream.Done subscriptionId earlier.position ∨
        earlier ∈ marked) (hGrows : stream.Grows stream') (hLog : stream'.log = stream.log)
    (hDone :
      ∀ id position, stream'.Done id position ↔ stream.Done id position ∨ id = subscriptionId ∧
        ∃ event ∈ marked, event.position = position) (hSaves :
      ∀ pending ∈ stream'.saves, pending ∈ stream.saves ∨ pending.subscriptionId = subscriptionId ∧
        pending.event ∈ marked ∧ (subscriptionId, pending.event.position) ∈ stream'.written)
    (hCursors : stream'.cursors = stream.cursors) :
    stream'.Kept registry := by
  have hEvents : ∀ subscription, stream'.eventsOf subscription =
      stream.eventsOf subscription := by
    intro subscription
    unfold eventsOf
    rw [hLog]
  constructor
  · rw [hLog]
    exact hKept.sorted
  · rw [hLog]
    exact hKept.bound
  · intro id position h
    rw [hLog]
    rcases (hDone id position).mp h with hOld | ⟨-, event, hEvent, rfl⟩
    · exact hKept.below id position hOld
    · exact hKept.bound event (List.mem_of_mem_filter (hMarked event hEvent))
  · intro id other hOther event hEvent h earlier hEarlier hLess
    rw [hEvents] at hEvent hEarlier
    rw [hDone]
    rcases (hDone id event.position).mp h with hOld | ⟨rfl, found, hFound, hSame⟩
    · exact .inl (hKept.closed id other hOther event hEvent hOld earlier hEarlier hLess)
    · rw [hSubscription] at hOther
      cases hOther
      rw [← hSame] at hLess
      rcases hBefore found hFound earlier hEarlier hLess with hOld | hMem
      · exact .inl hOld
      · exact .inr ⟨rfl, earlier, hMem, rfl⟩
  · intro pending hPending other hOther
    rw [hEvents]
    rcases hSaves pending hPending with hOld | ⟨hId, hMem, hWritten⟩
    · rcases hKept.saves pending hOld other hOther with ⟨hEvent, hWritten⟩
      exact ⟨hEvent, hGrows.written _ hWritten⟩
    · rw [hId] at hOther ⊢
      rw [hSubscription] at hOther
      cases hOther
      exact ⟨hMarked _ hMem, hWritten⟩
  · intro id cursor hCursor other hOther
    rw [hCursors] at hCursor
    exact (hKept.cursors id cursor hCursor other hOther).grows hGrows

theorem Kept.saveCursor (hKept : stream.Kept registry)
    (hSent : ∀ subscription ∈ registry subscriptionId, event ∈ stream.eventsOf subscription ∧
      (subscriptionId, event.position) ∈ stream.written) :
    (stream.saveCursor subscriptionId event.cursor).Kept registry where
  sorted := hKept.sorted
  bound := hKept.bound
  below := hKept.below
  closed := hKept.closed
  saves := hKept.saves
  cursors := by
    intro id cursor hCursor subscription hSubscription
    by_cases hSame : id = subscriptionId
    · subst hSame
      unfold Stream.saveCursor at hCursor
      simp only [Function.update_self] at hCursor
      cases hCursor
      rcases hSent subscription hSubscription with ⟨hEvent, hWritten⟩
      exact ⟨event, hEvent, rfl, hWritten⟩
    · unfold Stream.saveCursor at hCursor
      simp only [Function.update_of_ne hSame] at hCursor
      exact hKept.cursors id cursor hCursor subscription hSubscription

variable {events : List Published}

theorem mem_entries {id : String} :
    (id, position) ∈ events.map (fun event => (subscriptionId, event.position)) ↔
      id = subscriptionId ∧ ∃ event ∈ events, event.position = position := by
  simp only [List.mem_map, Prod.mk.injEq]
  constructor
  · rintro ⟨event, hEvent, rfl, rfl⟩
    exact ⟨rfl, event, hEvent, rfl⟩
  · rintro ⟨rfl, event, hEvent, rfl⟩
    exact ⟨event, hEvent, rfl, rfl⟩

theorem grows_sent (stream : Stream) (subscriptionId : String) (events : List Published) :
    stream.Grows (stream.sent subscriptionId events) where
  log := ⟨[], (List.append_nil _).symm, fun _ h => nomatch h⟩
  written _ h := List.mem_append_left _ h
  cut _ h := h

theorem done_sent (id : String) (position : ℕ) :
    (stream.sent subscriptionId events).Done id position ↔ stream.Done id position ∨
      id = subscriptionId ∧ ∃ event ∈ events, event.position = position := by
  unfold Done Stream.sent
  rw [List.mem_append, mem_entries]
  exact or_right_comm

theorem grows_write (stream : Stream) (subscriptionId : String) (event : Published) :
    stream.Grows (stream.write subscriptionId event) where
  log := ⟨[], (List.append_nil _).symm, fun _ h => nomatch h⟩
  written _ h := List.mem_append_left _ h
  cut _ h := h

theorem done_write (id : String) (position : ℕ) :
    (stream.write subscriptionId event).Done id position ↔ stream.Done id position ∨
      id = subscriptionId ∧ ∃ found ∈ [event], found.position = position := by
  rw [← done_sent]
  rfl

theorem grows_cutOff (stream : Stream) (subscriptionId : String) (events : List Published) :
    stream.Grows (stream.cutOff subscriptionId events) where
  log := ⟨[], (List.append_nil _).symm, fun _ h => nomatch h⟩
  written _ h := h
  cut _ h := List.mem_append_left _ h

theorem done_cutOff (id : String) (position : ℕ) :
    (stream.cutOff subscriptionId events).Done id position ↔ stream.Done id position ∨
      id = subscriptionId ∧ ∃ event ∈ events, event.position = position := by
  unfold Done Stream.cutOff
  rw [List.mem_append, mem_entries]
  exact or_assoc.symm

end Stream

-- What a Replay Leaves
----

theorem eventsAfter_sublist (lastEventId : Option String) (events : List Published) :
    (eventsAfter lastEventId events).Sublist events := by
  unfold eventsAfter
  split
  · split
    · exact List.Sublist.refl _
    · split
      · exact List.drop_sublist _ _
      · exact List.Sublist.refl _
  · exact List.Sublist.refl _

/- What is not replayed is at or before the first event that has the cursor. -/
theorem mem_eventsAfter_or {lastEventId : Option String} {events : List Published}
    (hSorted : events.Pairwise fun a b => a.position < b.position) (hEvent : event ∈ events) :
    event ∈ eventsAfter lastEventId events ∨ ∃ cursor ∈ lastEventId, ∃ last ∈ events,
      last.cursor = cursor ∧ event.position ≤ last.position ∧
        ∀ found ∈ events, found.cursor = cursor → last.position ≤ found.position := by
  unfold eventsAfter
  split
  · rename_i cursor
    split
    · exact .inl hEvent
    · split
      · rename_i lastIndex hIndex
        rcases List.findIdx?_eq_some_iff_getElem.mp hIndex with ⟨hLess, hCursor, hFirst⟩
        have hPositions := List.pairwise_iff_getElem.mp hSorted
        rcases List.mem_iff_getElem.mp hEvent with ⟨j, hj, rfl⟩
        by_cases hAfter : lastIndex < j
        · left
          refine List.mem_drop_iff_getElem.mpr ⟨j - (lastIndex + 1), by omega, ?_⟩
          congr 1
          omega
        · right
          refine ⟨cursor, rfl, events[lastIndex], List.getElem_mem _,
            of_decide_eq_true hCursor, ?_, ?_⟩
          · rcases Nat.eq_or_lt_of_le (Nat.not_lt.mp hAfter) with rfl | hBefore
            · exact Nat.le_refl _
            · exact Nat.le_of_lt (hPositions _ _ hj hLess hBefore)
          · intro found hFound hSame
            rcases List.mem_iff_getElem.mp hFound with ⟨m, hm, rfl⟩
            by_cases hEarlier : m < lastIndex
            · exact absurd (decide_eq_true hSame) (hFirst m hEarlier)
            · rcases Nat.eq_or_lt_of_le (Nat.not_lt.mp hEarlier) with rfl | hLater
              · exact Nat.le_refl _
              · exact Nat.le_of_lt (hPositions _ _ hLess hm hLater)
      · exact .inl hEvent
  · exact .inl hEvent

/-
  Of what had been published when a replay began, what is not
  done is left to be written, in order.
-/
structure Replay.Kept (registry : String → Option Subscription) (stream : Stream)
    (call : Replay) : Prop where
  known : ∃ subscription, registry call.subscriptionId = some subscription
  logged : call.logged ≤ stream.log.length
  sorted : call.rest.Pairwise fun a b => a.position < b.position
  events : ∀ subscription ∈ registry call.subscriptionId,
    ∀ event ∈ call.rest, event ∈ stream.eventsOf subscription
  bound : ∀ event ∈ call.rest, event.position < call.logged
  left : ∀ subscription ∈ registry call.subscriptionId, ∀ event ∈ stream.eventsOf subscription,
    event.position < call.logged → stream.Done call.subscriptionId event.position ∨
      event ∈ call.rest
  saving : ∀ event, call.stage = .saving event → ∀ subscription ∈ registry call.subscriptionId,
    event ∈ stream.eventsOf subscription ∧
      (call.subscriptionId, event.position) ∈ stream.written
  ended : call.stage = .ended false → call.rest = []

variable {call : Replay}

theorem Replay.Kept.grows (hCall : call.Kept registry stream) (hGrows : stream.Grows stream') :
    call.Kept registry stream' where
  known := hCall.known
  logged := by
    rcases hGrows.log with ⟨more, hLog, -⟩
    rw [hLog, List.length_append]
    exact Nat.le_add_right_of_le hCall.logged
  sorted := hCall.sorted
  events subscription hSubscription event hEvent :=
    hGrows.mem_eventsOf (hCall.events subscription hSubscription event hEvent)
  bound := hCall.bound
  left := by
    intro subscription hSubscription event hEvent hLess
    rcases hGrows.old_or_later hEvent with hOld | hLater
    · exact (hCall.left subscription hSubscription event hOld hLess).imp_left hGrows.done
    · have hLogged := hCall.logged
      omega
  saving := by
    intro event hStage subscription hSubscription
    rcases hCall.saving event hStage subscription hSubscription with ⟨hEvent, hWritten⟩
    exact ⟨hGrows.mem_eventsOf hEvent, hGrows.written _ hWritten⟩
  ended := hCall.ended

/- A call that has written nothing changes its stage. -/
theorem Replay.Kept.stage {stage : ReplayStage} (hCall : call.Kept registry stream)
    (hSaving : ∀ event, stage ≠ .saving event) (hEnded : stage = .ended false → call.rest = []) :
    Replay.Kept registry stream { call with stage } where
  known := hCall.known
  logged := hCall.logged
  sorted := hCall.sorted
  events := hCall.events
  bound := hCall.bound
  left := hCall.left
  saving event hStage := absurd hStage (hSaving event)
  ended := hEnded

variable {rest : List Published}

theorem Replay.Kept.before (hCall : call.Kept registry stream) (hRest : call.rest = event :: rest)
    (hSubscription : registry call.subscriptionId = some subscription) :
    stream.DoneBefore call.subscriptionId subscription event.position := by
  intro earlier hEarlier hLess
  have hBound := hCall.bound event (hRest ▸ List.mem_cons_self)
  rcases hCall.left subscription hSubscription earlier hEarlier (Nat.lt_trans hLess hBound) with
    hDone | hMem
  · exact hDone
  · have hSorted := hCall.sorted
    rw [hRest] at hMem hSorted
    rcases List.mem_cons.mp hMem with rfl | hMem
    · omega
    · have := (List.pairwise_cons.mp hSorted).1 earlier hMem
      omega

theorem Replay.Kept.write (hCall : call.Kept registry stream) (hRest : call.rest = event :: rest) :
    Replay.Kept registry (stream.write call.subscriptionId event)
      { call with rest, stage := .saving event } := by
  have hSorted := hCall.sorted
  rw [hRest] at hSorted
  have hIn : ∀ other ∈ rest, other ∈ call.rest := by
    intro other hOther
    rw [hRest]
    exact List.mem_cons_of_mem _ hOther
  have hHead : event ∈ call.rest := hRest ▸ List.mem_cons_self
  constructor
  · exact hCall.known
  · exact hCall.logged
  · exact (List.pairwise_cons.mp hSorted).2
  · exact fun subscription hSubscription other hOther =>
      hCall.events subscription hSubscription other (hIn other hOther)
  · exact fun other hOther => hCall.bound other (hIn other hOther)
  · intro subscription hSubscription other hOther hLess
    rw [Stream.done_write]
    rcases hCall.left subscription hSubscription other hOther hLess with hDone | hMem
    · exact .inl (.inl hDone)
    · rw [hRest] at hMem
      rcases List.mem_cons.mp hMem with rfl | hMem
      · exact .inl (.inr ⟨rfl, other, List.mem_singleton_self _, rfl⟩)
      · exact .inr hMem
  · intro found hStage subscription hSubscription
    cases hStage
    exact ⟨hCall.events subscription hSubscription event hHead,
      List.mem_append_right _ (List.mem_singleton_self _)⟩
  · exact fun h => nomatch h

end

-- Runs
----

open Transactional

variable {registry : String → Option Subscription} {config : SseConfig} {world world' : SseWorld}

/-
  A fan-out is of a published event, and the connection that it
  has found is of the event's wallet.
-/
structure FanOut.Kept (registry : String → Option Subscription) (stream : Stream)
    (call : FanOut) : Prop where
  logged : call.event ∈ stream.log
  owner : ∀ slot subscriptionId, call.stage = .found slot subscriptionId →
    ∀ subscription ∈ registry subscriptionId,
      call.event.walletAddress = subscription.walletAddress

/- What every step keeps. -/
structure Kept (registry : String → Option Subscription) (world : SseWorld) : Prop where
  same : world.registry = registry
  hub : world.hub.Sound registry
  stream : world.stream.Kept registry
  fanOuts : ∀ call ∈ world.fanOuts, call.Kept registry world.stream
  replays : ∀ call ∈ world.replays, call.Kept registry world.stream

theorem Kept.start (registry : String → Option Subscription) : Kept registry (.start registry) where
  same := rfl
  hub := Hub.Sound.start registry
  stream :=
    { sorted := List.Pairwise.nil
      bound := fun _ h => nomatch h
      below := fun _ _ h => h.elim (nomatch ·) (nomatch ·)
      closed := fun _ _ _ _ h => nomatch h
      saves := fun _ h => nomatch h
      cursors := fun _ _ h => nomatch h }
  fanOuts _ h := nomatch h
  replays _ h := nomatch h

variable {call : FanOut} {stream : Stream}

theorem FanOut.Kept.grows {stream' : Stream} (hCall : call.Kept registry stream)
    (hGrows : stream.Grows stream') :
    call.Kept registry stream' where
  logged := by
    rcases hGrows.log with ⟨more, hLog, -⟩
    rw [hLog]
    exact List.mem_append_left _ hCall.logged
  owner := hCall.owner

variable {hub : Hub}

/- The hub and the stream go on, and every call looks on. -/
theorem Kept.grows (hKept : Kept registry world) (hHub : hub.Sound registry)
    (hStream : stream.Kept registry) (hGrows : world.stream.Grows stream) :
    Kept registry { world with hub, stream } where
  same := hKept.same
  hub := hHub
  stream := hStream
  fanOuts call hCall := (hKept.fanOuts call hCall).grows hGrows
  replays call hCall := (hKept.replays call hCall).grows hGrows

variable {k : ℕ}

theorem Kept.setFanOut (hKept : Kept registry world) (hCall : call.Kept registry world.stream) :
    Kept registry
      { world with fanOuts := world.fanOuts.set k call } where
  same := hKept.same
  hub := hKept.hub
  stream := hKept.stream
  fanOuts := by
    intro other hOther
    rcases List.mem_or_eq_of_mem_set hOther with hOld | rfl
    · exact hKept.fanOuts other hOld
    · exact hCall
  replays := hKept.replays

variable {r : ℕ}

theorem Kept.setReplay {call : Replay} (hKept : Kept registry world)
    (hCall : call.Kept registry world.stream) :
    Kept registry
      { world with replays := world.replays.set r call } where
  same := hKept.same
  hub := hKept.hub
  stream := hKept.stream
  fanOuts := hKept.fanOuts
  replays := by
    intro other hOther
    rcases List.mem_or_eq_of_mem_set hOther with hOld | rfl
    · exact hKept.replays other hOld
    · exact hCall

theorem Kept.publish (hKept : Kept registry world) (walletAddress topic : String) (payload : Json)
    (cursor : String)
    (hStep : world.step config (.publish walletAddress topic payload cursor) = some world') :
    Kept registry world' := by
  cases hStep
  have hGrows := Stream.grows_add world.stream walletAddress topic payload cursor
  have hNext := hKept.grows hKept.hub (hKept.stream.add walletAddress topic payload cursor) hGrows
  refine
    { same := hNext.same
      hub := hNext.hub
      stream := hNext.stream
      fanOuts := ?_
      replays := hNext.replays }
  intro call hCall
  rcases List.mem_append.mp hCall with hOld | hNew
  · exact hNext.fanOuts call hOld
  · rw [List.mem_singleton.mp hNew]
    exact
      { logged :=
          List.mem_append_right _ (List.mem_singleton_self _)
        owner := fun _ _ h => nomatch h }

variable {subscriptionId : String} {subscription : Subscription} {event : Published}

/- A live event that is written to a client that has caught up. -/
theorem Kept.send (hKept : Kept registry world) (config : SseConfig)
    (hSubscription : registry subscriptionId = some subscription)
    (hEvent : event ∈ world.stream.eventsOf subscription) (now : ℕ) (writes : List Bool)
    (hBefore : (world.hub.sendSseEvent config subscriptionId event now writes).2 ≠ [] →
      world.stream.DoneBefore subscriptionId subscription event.position) :
    let sent := world.hub.sendSseEvent config subscriptionId event now writes
    Kept registry { world with
      hub := sent.1
      stream := world.stream.sent subscriptionId sent.2 } := by
  intro sent
  rcases @Hub.Sound.sendSseEvent registry config world.hub
    subscriptionId event hKept.hub now writes with ⟨hHub, hWritten⟩
  have hGrows := Stream.grows_sent world.stream subscriptionId sent.2
  refine hKept.grows hHub ?_ hGrows
  refine hKept.stream.mark sent.2 hSubscription ?_ ?_ hGrows rfl Stream.done_sent ?_ rfl
  · intro written hMem
    rw [(hWritten written hMem).1]
    exact hEvent
  · intro written hMem earlier hEarlier hLess
    have hSome : sent.2 ≠ [] := List.ne_nil_of_mem hMem
    rw [(hWritten written hMem).1] at hLess
    exact .inl (hBefore hSome earlier hEarlier hLess)
  · intro pending hPending
    rcases List.mem_append.mp hPending with hOld | hNew
    · exact .inl hOld
    · rcases List.mem_map.mp hNew with ⟨written, hMem, rfl⟩
      exact .inr ⟨rfl, hMem, List.mem_append_right _
        (Stream.mem_entries.mpr ⟨rfl, written, hMem, rfl⟩)⟩

variable {served : Bool}

theorem Kept.fanOut {now : ℕ} {writes : List Bool} (hKept : Kept registry world)
    (hCall : world.fanOuts[k]? = some call)
    (hReady : world.ReadyFor config call served now writes)
    (hStep : world.fanOut config k call served now writes = some world') :
    Kept registry world' := by
  have hOld := hKept.fanOuts call (List.mem_of_getElem? hCall)
  have hMove :
      ∀ stage : FanOutStage, (∀ slot id, stage ≠ .found slot id) → FanOut.Kept registry world.stream
        { call with stage } :=
    fun stage hStage =>
      { logged := hOld.logged
        owner := fun slot id h => absurd h (hStage slot id) }
  unfold SseWorld.fanOut at hStep
  split at hStep
  · split at hStep
    · cases hStep
      exact hKept.setFanOut (hMove _ fun _ _ h => nomatch h)
    · rename_i entry hEntry
      split at hStep
      · cases hStep
      · rename_i state hState
        split at hStep
        · cases hStep
          exact hKept.setFanOut (hMove _ fun _ _ h => nomatch h)
        · rename_i hMatches
          cases hStep
          refine hKept.setFanOut { logged := hOld.logged, owner := ?_ }
          intro slot id hStage subscription hSubscription
          cases hStage
          rcases hKept.hub.entry entry (List.mem_of_find?_eq_some hEntry)
            with ⟨found, hFound, hSame⟩
          rw [hState] at hFound
          cases hFound
          rw [← hSame] at hSubscription
          have hOwner :=
            hKept.hub.owner state (List.mem_of_getElem? hState) subscription hSubscription
          rw [hOwner]
          by_contra hOther
          exact hMatches (.inr (Ne.symm hOther))
  · rename_i slot id hStage
    split at hStep
    · cases hStep
      exact hKept.setFanOut (hMove _ fun _ _ h => nomatch h)
    · rename_i hServed
      split at hStep
      · cases hStep
        exact hKept.setFanOut (hMove _ fun _ _ h => nomatch h)
      · rename_i subscription hSubscription
        split at hStep
        · cases hStep
          exact hKept.setFanOut (hMove _ fun _ _ h => nomatch h)
        · rename_i hTopic
          cases hStep
          have hRegistry : registry id = some subscription := by
            rw [← hKept.same]
            exact hSubscription
          have hEvent : call.event ∈ world.stream.eventsOf subscription := by
            refine List.mem_filter.mpr ⟨hOld.logged, ?_⟩
            exact decide_eq_true ⟨hOld.owner slot id hStage subscription hRegistry,
              not_not.mp hTopic⟩
          have hBefore : (world.hub.sendSseEvent config id call.event now writes).2 ≠ [] →
              world.stream.DoneBefore id subscription call.event.position := by
            intro hWrites
            apply hReady (id, subscription)
            simp only [SseWorld.receiver, hStage, if_neg hServed, hSubscription, Option.bind_some]
            exact if_pos ⟨not_not.mp hTopic, hWrites⟩
          have hSent := hKept.send config hRegistry hEvent now writes hBefore
          apply hSent.setFanOut
          refine FanOut.Kept.grows ?_ (Stream.grows_sent _ _ _)
          exact hMove _ fun _ _ h => nomatch h
  · cases hStep

theorem Kept.save (hKept : Kept registry world) (hStep : world.save k served = some world') :
    Kept registry world' := by
  unfold SseWorld.save at hStep
  split at hStep
  · cases hStep
  · rename_i pending hPending
    cases hStep
    have hMem := List.mem_of_getElem? hPending
    have hLess : Stream.Kept registry { world.stream with
          saves := world.stream.saves.eraseIdx k } :=
      { sorted := hKept.stream.sorted
        bound := hKept.stream.bound
        below := hKept.stream.below
        closed := hKept.stream.closed
        saves := fun other hOther => hKept.stream.saves other (List.mem_of_mem_eraseIdx hOther)
        cursors := hKept.stream.cursors }
    split
    · exact hKept.grows hKept.hub (hLess.saveCursor (hKept.stream.saves pending hMem))
        (.of_same rfl rfl rfl)
    · exact hKept.grows hKept.hub hLess (.of_same rfl rfl rfl)

variable {lastEventId : Option String}

/- All that a replay skips is done, in runs of honest clients. -/
theorem Kept.skipped (hKept : Kept registry world)
    (hSubscription : registry subscriptionId = some subscription)
    (hSent : ∀ cursor ∈ lastEventId, (∃ event ∈ world.stream.eventsOf subscription,
      event.cursor = cursor) → world.stream.HasSent subscriptionId subscription cursor)
    (hEvent : event ∈ world.stream.eventsOf subscription) :
    world.stream.Done subscriptionId event.position ∨ event ∈ eventsAfter lastEventId
      (world.stream.eventsOf subscription) := by
  have hSorted := hKept.stream.sorted.filter fun event =>
    event.walletAddress = subscription.walletAddress ∧ event.topic ∈ subscription.topics
  rcases mem_eventsAfter_or hSorted hEvent with
    hAfter | ⟨cursor, hCursor, last, hLast, hSame, hUpTo, hFirst⟩
  · exact .inr hAfter
  · left
    rcases hSent cursor hCursor ⟨last, hLast, hSame⟩ with ⟨written, hWritten, hOther, hDone⟩
    have hLe := hFirst written hWritten hOther
    rcases Nat.eq_or_lt_of_le (Nat.le_trans hUpTo hLe) with hHere | hLess
    · rw [hHere]
      exact .inl hDone
    · exact hKept.stream.closed subscriptionId subscription
        hSubscription written hWritten (.inl hDone) event hEvent hLess

theorem Hub.Sound.truncate {i : ℕ} {state : SseConnectionState} (hSound : hub.Sound registry)
    (hState : hub.states[i]? = some state) :
    (hub.setState i state.truncate).Sound registry := by
  have hIdle := hSound.idle state (List.mem_of_getElem? hState)
  unfold SseConnectionState.truncate
  split
  · exact hSound.setState hState hIdle rfl rfl
  · exact hSound.setState hState hIdle rfl rfl

theorem Kept.replay (hKept : Kept registry world)
    (hAllowed : CaughtUp config world (.replay subscriptionId lastEventId))
    (hStep : world.replay config subscriptionId lastEventId = some world') :
    Kept registry world' := by
  unfold SseWorld.replay at hStep
  split at hStep
  · cases hStep
  · rename_i subscription hFound
    split at hStep
    · cases hStep
      exact hKept
    · rename_i i state hOpen
      cases hStep
      have hSubscription : registry subscriptionId = some subscription := by
        rw [← hKept.same]
        exact hFound
      have hSkipped : ∀ event ∈ world.stream.eventsOf subscription, _ :=
        fun event hEvent => hKept.skipped hSubscription (fun cursor hCursor =>
          hAllowed cursor hCursor subscription hFound)
          hEvent
      have hSublist := eventsAfter_sublist lastEventId (world.stream.eventsOf subscription)
      have hSorted :=
        (hKept.stream.sorted.filter fun event => event.walletAddress = subscription.walletAddress ∧
          event.topic ∈ subscription.topics).sublist hSublist
      generalize eventsAfter lastEventId (world.stream.eventsOf subscription) = after at *
      generalize after.length - config.replayMaxEvents = dropped
      have hSplit := List.take_append_drop dropped after
      rw [← hSplit] at hSorted
      rcases List.pairwise_append.mp hSorted with ⟨-, hRest, hAcross⟩
      have hParts : ∀ event ∈ after, event ∈ after.take dropped ∨
          event ∈ after.drop dropped := by
        intro event hEvent
        rw [← hSplit] at hEvent
        exact List.mem_append.mp hEvent
      have hGrows := Stream.grows_cutOff world.stream subscriptionId (after.take dropped)
      have hStream : (world.stream.cutOff subscriptionId (after.take dropped)).Kept registry := by
        refine hKept.stream.mark (after.take dropped) hSubscription ?_
          ?_ hGrows rfl Stream.done_cutOff (fun _ h => .inl h) rfl
        · exact fun event hEvent => hSublist.subset (List.mem_of_mem_take hEvent)
        · intro event hEvent earlier hEarlier hLess
          rcases hSkipped earlier hEarlier with hDone | hAfter
          · exact .inl hDone
          · rcases hParts earlier hAfter with hCut | hLeft
            · exact .inr hCut
            · have := hAcross event hEvent earlier hLeft
              omega
      have hHub : (if config.replayMaxEvents < after.length then
          world.hub.setState i state.truncate
          else world.hub).Sound registry := by
        split
        · exact hKept.hub.truncate (Hub.open?_spec hOpen).1
        · exact hKept.hub
      have hNext := hKept.grows hHub hStream hGrows
      refine
        { same := hNext.same
          hub := hNext.hub
          stream := hNext.stream
          fanOuts := hNext.fanOuts
          replays := ?_ }
      intro call hCall
      rcases List.mem_append.mp hCall with hOld | hNew
      · exact hNext.replays call hOld
      · rw [List.mem_singleton.mp hNew]
        have hIn : ∀ event ∈ after.drop dropped, event ∈ world.stream.eventsOf subscription :=
          fun event hEvent => hSublist.subset (List.mem_of_mem_drop hEvent)
        exact
          { known := ⟨subscription, hSubscription⟩
            logged := Nat.le_refl _
            sorted := hRest
            events := by
              intro other hOther event hEvent
              rw [hSubscription] at hOther
              cases hOther
              exact hGrows.mem_eventsOf (hIn event hEvent)
            bound := fun event hEvent => hKept.stream.bound event
              (List.mem_of_mem_filter (hIn event hEvent))
            left := by
              intro other hOther event hEvent _
              rw [hSubscription] at hOther
              cases hOther
              rcases hSkipped event hEvent with hDone | hAfter
              · exact .inl (hGrows.done hDone)
              · rcases hParts event hAfter with hCut | hLeft
                · exact .inl (Stream.done_cutOff _ _ |>.mpr (.inr ⟨rfl, event, hCut, rfl⟩))
                · exact .inr hLeft
            saving := fun _ h => nomatch h
            ended := fun h => nomatch h }

theorem Kept.resume {call : Replay} (hKept : Kept registry world)
    (hCall : world.replays[r]? = some call) (hStep : world.resume r call served = some world') :
    Kept registry world' := by
  have hOld := hKept.replays call (List.mem_of_getElem? hCall)
  have hClosed : Kept registry { world with
        hub := world.hub.closeConnection call.subscriptionId } :=
    hKept.grows (hKept.hub.closeConnection _) hKept.stream (.of_same rfl rfl rfl)
  have hBroken : Replay.Kept registry world.stream { call with stage := .ended true } :=
    hOld.stage (fun _ h => nomatch h) fun h => nomatch h
  unfold SseWorld.resume at hStep
  split at hStep
  · split at hStep
    · rename_i hNone
      cases hStep
      exact hKept.setReplay (hOld.stage (fun _ h => nomatch h) fun _ => hNone)
    · rename_i event rest hRest
      split at hStep
      · cases hStep
      · rename_i state hState
        split at hStep
        · cases hStep
          exact hKept.setReplay hBroken
        · split at hStep
          · cases hStep
            exact hClosed.setReplay hBroken
          · cases hStep
            have hHub : (world.hub.setState call.state { state with
                    chunks := state.chunks ++ [event.frame] }).Sound
                  registry :=
              hKept.hub.setState hState (hKept.hub.idle state (List.mem_of_getElem? hState)) rfl rfl
            have hGrows := Stream.grows_write world.stream call.subscriptionId event
            have hHead : event ∈ call.rest := hRest ▸ List.mem_cons_self
            rcases hOld.known with ⟨subscription, hRegistry⟩
            refine (hKept.grows hHub ?_ hGrows).setReplay (hOld.write hRest)
            refine hKept.stream.mark [event] hRegistry ?_ ?_ hGrows rfl
              Stream.done_write (fun _ h => .inl h) rfl
            · intro other hOther
              rw [List.mem_singleton.mp hOther]
              exact hOld.events subscription hRegistry event hHead
            · intro other hOther earlier hEarlier hLess
              rw [List.mem_singleton.mp hOther] at hLess
              exact .inl (hOld.before hRest hRegistry earlier hEarlier hLess)
  · rename_i event hStage
    split at hStep
    · cases hStep
      exact hClosed.setReplay hBroken
    · cases hStep
      have hStream := hKept.stream.saveCursor (hOld.saving event hStage)
      have hGrows : world.stream.Grows (world.stream.saveCursor call.subscriptionId event.cursor) :=
        .of_same rfl rfl rfl
      have hWriting : Replay.Kept registry world.stream { call with stage := .writing } :=
        hOld.stage (fun _ h => nomatch h) fun h => nomatch h
      exact (hKept.grows hKept.hub hStream hGrows).setReplay (hWriting.grows hGrows)
  · cases hStep

theorem Kept.step {move : SseMove} (hKept : Kept registry world)
    (hAllowed : CaughtUp config world move)
    (hStep : world.step config move = some world') :
    Kept registry world' := by
  have hHub : ∀ hub : Hub, hub.Sound registry → Kept registry { world with hub } :=
    fun hub hSound => hKept.grows hSound hKept.stream (.of_same rfl rfl rfl)
  cases move with
  | publish walletAddress topic payload cursor =>
    exact hKept.publish walletAddress topic payload cursor hStep
  | fanOut k served now writes =>
    simp only [SseWorld.step] at hStep
    split at hStep
    · rename_i call hCall
      exact hKept.fanOut hCall (hAllowed call hCall) hStep
    · cases hStep
  | save k served => exact hKept.save hStep
  | connect subscriptionId headersSent =>
    rcases Option.map_eq_some_iff.mp hStep with ⟨subscription, hSubscription, rfl⟩
    rw [hKept.same] at hSubscription
    exact hHub _ (hKept.hub.registerConnection hSubscription _)
  | disconnect subscriptionId =>
    cases hStep
    exact hHub _ (hKept.hub.closeConnection subscriptionId)
  | heartbeat i served =>
    rcases Option.map_eq_some_iff.mp hStep with ⟨hub, hBeat, rfl⟩
    exact hHub hub (hKept.hub.heartbeat hBeat)
  | replay subscriptionId lastEventId => exact hKept.replay hAllowed hStep
  | resume r served =>
    simp only [SseWorld.step] at hStep
    split at hStep
    · rename_i call hCall
      exact hKept.resume hCall hStep
    · cases hStep

theorem Kept.neverAhead (hKept : Kept registry world) : NeverAhead world := by
  intro id subscription cursor hSubscription hCursor
  rw [hKept.same] at hSubscription
  rcases hKept.stream.cursors id cursor hCursor subscription hSubscription with
    ⟨event, hEvent, hSame, hWritten⟩
  refine ⟨event, hEvent, hSame, ?_⟩
  intro earlier hEarlier hLess
  rcases Nat.eq_or_lt_of_le (Nat.le_of_lt_succ hLess) with hHere | hBefore
  · rw [hHere]
    exact .inl hWritten
  · exact hKept.stream.closed id subscription hSubscription event
      hEvent (.inl hWritten) earlier hEarlier hBefore

theorem Kept.replaysDeliver (hKept : Kept registry world) : ReplaysDeliver world := by
  intro call hCall hEnded subscription hSubscription event hEvent hLess
  rw [hKept.same] at hSubscription
  have hOld := hKept.replays call hCall
  rcases hOld.left subscription hSubscription event hEvent hLess with hDone | hMem
  · exact hDone
  · rw [hOld.ended hEnded] at hMem
    cases hMem

/-
  In runs in which live events go to clients that have caught up,
  the saved cursor is never ahead of an event that is neither
  written nor cut off, and a replay that runs to its end delivers
  all that had been published.
-/
theorem cursor_never_ahead {moves : List SseMove}
    (hRun : RunsTo (SseWorld.step config) (CaughtUp config) (.start registry) moves world) :
    NeverAhead world ∧ ReplaysDeliver world := by
  have hKept : Kept registry world :=
    hRun.invariant (Kept.start registry) fun before move after hBefore hAllowed hStep =>
      hBefore.step hAllowed hStep
  exact ⟨hKept.neverAhead, hKept.replaysDeliver⟩

def sampleSseConfig (replayMaxEvents : ℕ) (h : 0 < replayMaxEvents) : SseConfig where
  queueCapacity := 5
  queueFullTimeoutMs := 2000
  replayMaxEvents
  queueCapacity_pos := by decide
  replayMaxEvents_pos := h

/- One subscription of a wallet to purchases. -/
def sampleRegistry (subscriptionId : String) : Option Subscription :=
  if subscriptionId = "s" then
    some { walletAddress := "A", topics := ["key_buy"] }
  else none

def publishBuy (cursor : String) : SseMove := .publish "A" "key_buy" .null cursor

/- A replay of one event, its save and the end of the loop. -/
def replayOne (r : ℕ) : List SseMove := [.resume r true, .resume r true, .resume r true]

/-
  A client gets one event from a replay, during which one of
  another topic is fanned out, and one live, goes away, and gets
  the next one from a replay after the saved cursor.
-/
def reconnectingMoves : List SseMove :=
  [publishBuy "c0", .connect "s" true, .replay "s" none, .publish "A" "key_sell" .null "c",
    .fanOut 1 true 0 [], .fanOut 1 true 0 []] ++ replayOne 0 ++
    [publishBuy "c1", .fanOut 2 true 0 [], .fanOut 2 true 0 [],
      .save 0 true, .disconnect "s", publishBuy "c2", .connect "s" true, .replay "s" (some "c1")] ++
    replayOne 1

theorem cursor_never_ahead_sample :
    ∃ world, RunsTo (SseWorld.step (sampleSseConfig 10 (by decide)))
      (CaughtUp (sampleSseConfig 10 (by decide))) (.start sampleRegistry) reconnectingMoves world ∧
      world.stream.cursors "s" = some "c2" ∧
      NeverAhead world ∧ ReplaysDeliver world := by
  have hSome : (runAllowed (SseWorld.step (sampleSseConfig 10 (by decide)))
      (CaughtUp (sampleSseConfig 10 (by decide))) (.start sampleRegistry) reconnectingMoves).map
        (fun world => world.stream.cursors "s") =
      some (some "c2") := by decide
  rcases Option.map_eq_some_iff.mp hSome with ⟨world, hWorld, hCursor⟩
  have hRun := runsTo_of_runAllowed hWorld
  exact ⟨world, hRun, hCursor, cursor_never_ahead hRun⟩

/- The first of two events is cut off from a replay. -/
def truncatedMoves : List SseMove :=
  [publishBuy "c0", publishBuy "c1", .connect "s" true, .replay "s" none] ++ replayOne 0

/- A live event is sent while a replay saves its first cursor, and the client goes away. -/
def overtakenMoves : List SseMove :=
  [publishBuy "c0", publishBuy "c1", .connect "s" true,
    .replay "s" none, .resume 0 true, publishBuy "c2",
    .fanOut 2 true 0 [], .fanOut 2 true 0 [], .resume 0 true,
    .save 0 true, .disconnect "s", .resume 0 true]

/-
  The saved cursor is ahead of an event that was cut off from a
  replay, or that a replay has not got to.
-/
theorem cursor_ahead :
    (∃ world, RunsTo (SseWorld.step (sampleSseConfig 1 (by decide)))
      (CaughtUp (sampleSseConfig 1 (by decide))) (.start sampleRegistry) truncatedMoves world ∧
      world.stream.log.map (fun event => event.cursor) = ["c0", "c1"] ∧
      world.stream.cursors "s" = some "c1" ∧ ("s", 0) ∉ world.stream.written) ∧ ∃ world,
      RunsTo (SseWorld.step (sampleSseConfig 10 (by decide)))
        (fun _ _ => True) (.start sampleRegistry) overtakenMoves world ∧
      world.stream.log.map (fun event => event.cursor) = ["c0", "c1", "c2"] ∧
      world.stream.cursors "s" = some "c2" ∧
      ("s", 1) ∉ world.stream.written := by
  constructor
  · have hSome : (runAllowed (SseWorld.step (sampleSseConfig 1 (by decide)))
        (CaughtUp (sampleSseConfig 1 (by decide))) (.start sampleRegistry) truncatedMoves).map
        (fun world =>
          (world.stream.log.map fun event => event.cursor, world.stream.cursors "s",
            decide (("s", 0) ∉ world.stream.written))) =
        some (["c0", "c1"], some "c1", true) := by decide
    rcases Option.map_eq_some_iff.mp hSome with ⟨world, hWorld, hEnd⟩
    simp only [Prod.mk.injEq, decide_eq_true_eq] at hEnd
    exact ⟨world, runsTo_of_runAllowed hWorld, hEnd⟩
  · have hSome : (runLabels (SseWorld.step (sampleSseConfig 10 (by decide)))
        (.start sampleRegistry) overtakenMoves).map (fun world =>
          (world.stream.log.map fun event => event.cursor, world.stream.cursors "s",
            decide (("s", 1) ∉ world.stream.written))) =
        some (["c0", "c1", "c2"], some "c2", true) := by decide
    rcases Option.map_eq_some_iff.mp hSome with ⟨world, hWorld, hEnd⟩
    simp only [Prod.mk.injEq, decide_eq_true_eq] at hEnd
    exact ⟨world, runsTo_of_runLabels hWorld, hEnd⟩

end SseFanout

end Utils

end AccessLayer
