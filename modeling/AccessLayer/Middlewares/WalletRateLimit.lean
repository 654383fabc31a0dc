import AccessLayer.Library.Runs
import AccessLayer.Library.SlidingWindows
import Mathlib.Algebra.Order.Group.Int
import Mathlib.Algebra.Order.Ring.Nat

/-
  The sliding-window rate limit of a wallet
  (`src/middlewares/wallet-rate-limit.middleware.ts`).

  A request takes its time, and its pipeline is executed at some
  moment after that.  The key of a wallet runs out a window after
  the last pipeline, which may be between the two.

  Main result: `rate_limit_kept`
-/

-- Middleware
----

namespace AccessLayer

namespace Middlewares

open Transactional SlidingWindows

section

structure WalletRateLimitOptions where
  windowMs : ℕ
  max : ℕ
  keyPrefix : String

def buyKeyRateLimit : WalletRateLimitOptions where
  windowMs := 10000
  max := 5
  keyPrefix := "rl:buy:"

/- A request with the wallet whose signature was verified. -/
structure WalletRequest where
  internalServiceKey : Option String
  walletAddress : Option String

/- What the limiter is told by clocks and chance. -/
structure RateVisit where
  now : ℕ
  executedAt : ℕ
  uuid : String

def RateVisit.member (visit : RateVisit) : String := toString visit.now ++ "-" ++ visit.uuid

/- Redis may be disabled, and a pipeline may fail. -/
inductive RedisClient where
  | disabled
  | failing
  | connected (keys : String → SortedSet String ℤ)

inductive RateAnswer where
  | next
  | rateLimited (retryAfterSeconds : ℕ)
  deriving DecidableEq

/- The key that trusted services send, if there is one. -/
def isInternalServiceCall (INTERNAL_SERVICE_KEY : Option String) (request : WalletRequest) : Bool :=
  match INTERNAL_SERVICE_KEY with
  | none => false
  | some serviceKey => serviceKey ≠ "" ∧ request.internalServiceKey = some serviceKey

def limitedWallet (INTERNAL_SERVICE_KEY : Option String)
    (request : WalletRequest) : Option String :=
  if isInternalServiceCall INTERNAL_SERVICE_KEY request then none
  else request.walletAddress.filter (· ≠ "")

/- The four commands, and what the third one counts. -/
def rateLimitPipeline (options : WalletRateLimitOptions) (visit : RateVisit)
    (set : SortedSet String ℤ) : ℕ × SortedSet String ℤ :=
  let pruned : SortedSet String ℤ :=
    (set.expire (visit.executedAt : ℤ)).zremrangebyscore 0 (visit.now - options.windowMs)
  let added := pruned.zadd (visit.now : ℤ) visit.member
  (added.zcard, added.pexpire visit.executedAt options.windowMs)

def walletRateLimit (options : WalletRateLimitOptions) (INTERNAL_SERVICE_KEY : Option String)
    (request : WalletRequest) (visit : RateVisit) : RedisClient → RateAnswer × RedisClient
  | .disabled => (.next, .disabled)
  | .failing => (.next, .failing)
  | .connected keys =>
    match limitedWallet INTERNAL_SERVICE_KEY request with
    | none => (.next, .connected keys)
    | some walletAddress =>
      let slot := options.keyPrefix ++ walletAddress
      let result := rateLimitPipeline options visit (keys slot)
      (if options.max < result.1 then
        .rateLimited ((options.windowMs + 999) / 1000)
        else .next,
        .connected (Function.update keys slot result.2))

-- Runs
----

/- A request that was counted for its wallet. -/
structure HandledRequest where
  walletAddress : String
  now : ℕ
  member : String
  answer : RateAnswer

/- Redis, and the requests that were counted so far. -/
structure RateWorld where
  keys : String → SortedSet String ℤ
  handled : List HandledRequest

def RateWorld.start : RateWorld where
  keys _ := .empty
  handled := []

structure RateArrival where
  request : WalletRequest
  visit : RateVisit

variable (options : WalletRateLimitOptions) (INTERNAL_SERVICE_KEY : Option String)

namespace RateWorld

variable (world : RateWorld)

def slot (walletAddress : String) : SortedSet String ℤ :=
  world.keys (options.keyPrefix ++ walletAddress)

def requests (walletAddress : String) : List HandledRequest :=
  world.handled.filter (·.walletAddress = walletAddress)

def receive (arrival : RateArrival) : RateWorld :=
  let result :=
    walletRateLimit options INTERNAL_SERVICE_KEY arrival.request
      arrival.visit (.connected world.keys)
  { keys :=
      match result.2 with
      | .connected keys => keys
      | _ => world.keys
    handled :=
      world.handled ++ ((limitedWallet INTERNAL_SERVICE_KEY
        arrival.request).map fun walletAddress =>
          { walletAddress
            now := arrival.visit.now
            member := arrival.visit.member
            answer := result.1 }).toList }

def step (options : WalletRateLimitOptions) (INTERNAL_SERVICE_KEY : Option String)
    (world : RateWorld) (arrival : RateArrival) : Option RateWorld :=
  some (world.receive options INTERNAL_SERVICE_KEY arrival)

/- How many requests of a wallet were admitted in a window. -/
def admittedIn (walletAddress : String) (t : ℤ) : ℕ :=
  ((world.requests walletAddress).filter fun handled => handled.answer = .next ∧
    t - options.windowMs < handled.now ∧ handled.now ≤ t).length

end RateWorld

/-
  Pipelines are executed after their time is taken, those of one
  wallet in the order of these times, and no identifier is drawn
  twice.
-/
def Arrives (world : RateWorld) (arrival : RateArrival) : Prop :=
  arrival.visit.now ≤ arrival.visit.executedAt ∧ ∀ walletAddress ∈
    limitedWallet INTERNAL_SERVICE_KEY arrival.request,
    ∀ handled ∈ world.requests walletAddress, handled.now ≤ arrival.visit.now ∧
      handled.member ≠ arrival.visit.member

/- The key of the wallet does not run out between the time that is taken and the pipeline. -/
def NotOutrun (world : RateWorld) (arrival : RateArrival) : Prop :=
  ∀ walletAddress ∈ limitedWallet INTERNAL_SERVICE_KEY arrival.request,
    ∀ expiry ∈ (world.slot options walletAddress).expiresAt, expiry < arrival.visit.executedAt →
      expiry ≤ arrival.visit.now

instance (world : RateWorld) (arrival : RateArrival) :
    Decidable (Arrives INTERNAL_SERVICE_KEY world arrival) := inferInstanceAs (Decidable (_ ∧ _))

instance (world : RateWorld) (arrival : RateArrival) :
    Decidable (NotOutrun options INTERNAL_SERVICE_KEY world arrival) :=
  inferInstanceAs (Decidable (∀ walletAddress ∈ (_ : Option _), _))

end

-- What a Run Keeps
----

variable {options : WalletRateLimitOptions} {INTERNAL_SERVICE_KEY : Option String}
variable {world : RateWorld} {arrival : RateArrival} {visit : RateVisit} {walletAddress : String}

/- The member of a request, with its score. -/
def HandledRequest.entry (handled : HandledRequest) : String × ℤ := (handled.member, handled.now)

def HandledRequest.admissions (handled : HandledRequest) : ℕ :=
  if handled.answer = .next then 1 else 0

/-
  The pipeline counts the requests of the window, the new one
  among them, whatever became of them.
-/
theorem rateLimitPipeline_spec {set : SortedSet String ℤ} {log : List (String × ℤ)}
    (hWindow : 0 < options.windowMs) (hFollows : set.Follows (options.windowMs : ℤ) visit.now log)
    (hPast : ∀ x ∈ log, 0 ≤ x.2 ∧ x.2 ≤ visit.now) (hFresh : ∀ x ∈ log, x.1 ≠ visit.member)
    (hExecuted : visit.now ≤ visit.executedAt)
    (hOver : ∀ expiry ∈ set.expiresAt, expiry < visit.executedAt → expiry ≤ visit.now) :
    (rateLimitPipeline options visit set).1 = (log.filter fun x =>
      (visit.now : ℤ) - options.windowMs < x.2).length + 1 ∧
      (rateLimitPipeline options visit set).2.Follows (options.windowMs : ℤ) visit.now
        (log ++ [(visit.member, (visit.now : ℤ))]) := by
  have hLow : ∀ x ∈ log, 0 ≤ x.2 := fun x hx => (hPast x hx).1
  have hAlive := hFollows.expire le_rfl hOver
  have hMembers := hAlive.members_zremrangebyscore hLow
  have hPruned := hAlive.zremrangebyscore hLow
  have hNow : (visit.now : ℤ) ≤ visit.executedAt := by exact_mod_cast hExecuted
  constructor
  · unfold rateLimitPipeline
    dsimp only
    rw [SortedSet.zcard, SortedSet.members_zadd_of_fresh fun x hx => hFresh x (hPruned.sub x hx),
      hMembers, List.length_append, List.length_singleton]
  · exact hPruned.record hFresh (by exact_mod_cast hWindow)
      (fun x hx => (hPast x hx).2.trans hNow) hNow

theorem requests_receive_of_limited
    (hWallet : limitedWallet INTERNAL_SERVICE_KEY arrival.request = some walletAddress) :
    (world.receive options INTERNAL_SERVICE_KEY arrival).requests walletAddress =
      world.requests walletAddress ++
        [{ walletAddress
           now := arrival.visit.now
           member := arrival.visit.member
           answer :=
             if options.max < (rateLimitPipeline options arrival.visit
               (world.slot options walletAddress)).1 then
               .rateLimited ((options.windowMs + 999) / 1000)
             else .next }] := by
  unfold RateWorld.requests RateWorld.receive walletRateLimit
  rw [hWallet]
  simp only [List.filter_append, Option.map_some,
    Option.toList_some, List.filter_singleton, decide_true]
  rfl

theorem requests_receive_of_other
    (hOther : limitedWallet INTERNAL_SERVICE_KEY arrival.request ≠ some walletAddress) :
    (world.receive options INTERNAL_SERVICE_KEY arrival).requests walletAddress =
      world.requests walletAddress := by
  unfold RateWorld.requests RateWorld.receive
  cases hWallet : limitedWallet INTERNAL_SERVICE_KEY arrival.request with
  | none => simp
  | some wallet =>
    have hNe : wallet ≠ walletAddress := by
      rintro rfl
      exact hOther hWallet
    simp [hNe]

theorem slot_receive_of_limited
    (hWallet : limitedWallet INTERNAL_SERVICE_KEY arrival.request = some walletAddress) :
    (world.receive options INTERNAL_SERVICE_KEY arrival).slot options walletAddress =
      (rateLimitPipeline options arrival.visit (world.slot options walletAddress)).2 := by
  unfold RateWorld.slot RateWorld.receive walletRateLimit
  rw [hWallet]
  simp

theorem slot_receive_of_other
    (hOther : limitedWallet INTERNAL_SERVICE_KEY arrival.request ≠ some walletAddress) :
    (world.receive options INTERNAL_SERVICE_KEY arrival).slot options walletAddress =
      world.slot options walletAddress := by
  unfold RateWorld.slot RateWorld.receive walletRateLimit
  cases hWallet : limitedWallet INTERNAL_SERVICE_KEY arrival.request with
  | none => rfl
  | some wallet =>
    have hNe : options.keyPrefix ++ walletAddress ≠
        options.keyPrefix ++ wallet := by
      intro hSame
      rw [String.append_right_inj] at hSame
      exact hOther (hWallet.trans (congrArg some hSame.symm))
    exact Function.update_of_ne hNe _ _

/- What a run keeps of a wallet. -/
structure Metered (options : WalletRateLimitOptions) (walletAddress : String)
    (world : RateWorld) : Prop where
  follows : ∀ start : ℤ, (∀ handled ∈ world.requests walletAddress, (handled.now : ℤ) ≤ start) →
    (world.slot options walletAddress).Follows (options.windowMs : ℤ) start
      ((world.requests walletAddress).map HandledRequest.entry)
  bounded : ∀ t, weightIn (options.windowMs : ℤ) (fun handled : HandledRequest => (handled.now : ℤ))
    HandledRequest.admissions (world.requests walletAddress) t ≤ options.max
  alone : ∀ before handled after, world.requests walletAddress = before ++ handled :: after →
    (∀ earlier ∈ before, ¬((handled.now : ℤ) - options.windowMs < earlier.now ∧
      earlier.now ≤ handled.now)) → handled.answer = .next

theorem metered_start (options : WalletRateLimitOptions) (walletAddress : String) :
    Metered options walletAddress .start where
  follows start _ := SortedSet.follows_empty _ start
  bounded _ := Nat.zero_le _
  alone before handled after hSplit := by
    have hNil : before ++ handled :: after = [] := hSplit.symm
    simp at hNil

theorem HandledRequest.admissions_le_one (handled : HandledRequest) : handled.admissions ≤ 1 := by
  unfold admissions
  split <;> omega

theorem admissions_le_count (log : List HandledRequest) (handled : HandledRequest) (width : ℤ) :
    weightIn width (fun handled : HandledRequest => (handled.now : ℤ))
      HandledRequest.admissions (log ++ [handled]) handled.now ≤
      ((log.map HandledRequest.entry).filter fun x =>
        (handled.now : ℤ) - width < x.2).length + 1 := by
  rw [weightIn_append]
  apply Nat.add_le_add
  · rw [List.filter_map, List.length_map]
    let within (earlier : HandledRequest) : Bool :=
      (handled.now : ℤ) - width < earlier.now ∧ (earlier.now : ℤ) ≤ handled.now
    have hSum : ((log.filter within).map HandledRequest.admissions).sum ≤
        (log.filter within).length := by
      have hCard := List.sum_le_card_nsmul ((log.filter within).map HandledRequest.admissions) 1 (by
        intro n hn
        rcases List.mem_map.mp hn with ⟨earlier, -, rfl⟩
        exact earlier.admissions_le_one)
      simpa using hCard
    refine hSum.trans (List.Sublist.length_le ?_)
    apply List.monotone_filter_right
    intro earlier hWithin
    exact decide_eq_true (of_decide_eq_true hWithin).1
  · split
    · exact handled.admissions_le_one
    · exact Nat.zero_le 1

theorem within_eq_nil {log : List HandledRequest} {now : ℕ} {width : ℤ}
    (hBefore : ∀ earlier ∈ log, earlier.now ≤ now)
    (hIdle : ∀ earlier ∈ log, ¬((now : ℤ) - width < earlier.now ∧ earlier.now ≤ now)) :
    ((log.map HandledRequest.entry).filter fun x => (now : ℤ) - width < x.2) = [] := by
  rw [List.filter_eq_nil_iff]
  intro x hx
  rcases List.mem_map.mp hx with ⟨earlier, hEarlier, rfl⟩
  intro hWithin
  exact hIdle earlier hEarlier ⟨of_decide_eq_true hWithin, hBefore earlier hEarlier⟩

theorem metered_receive (hWindow : 0 < options.windowMs) (hMax : 1 ≤ options.max)
    (hMetered : Metered options walletAddress world)
    (hArrives : Arrives INTERNAL_SERVICE_KEY world arrival)
    (hNotOutrun : NotOutrun options INTERNAL_SERVICE_KEY world arrival) :
    Metered options walletAddress (world.receive options INTERNAL_SERVICE_KEY arrival) := by
  by_cases hWallet : limitedWallet INTERNAL_SERVICE_KEY arrival.request = some walletAddress
  · rcases hArrives with ⟨hExecuted, hOrder⟩
    have hBefore := hOrder walletAddress hWallet
    have hNow : ∀ handled ∈ world.requests walletAddress,
        (handled.now : ℤ) ≤ arrival.visit.now := by
      intro handled hHandled
      exact_mod_cast (hBefore handled hHandled).1
    rcases rateLimitPipeline_spec hWindow (hMetered.follows _ hNow) (by
      intro x hx
      rcases List.mem_map.mp hx with ⟨handled, hHandled, rfl⟩
      exact ⟨Int.natCast_nonneg _, hNow handled hHandled⟩)
      (by
        intro x hx
        rcases List.mem_map.mp hx with ⟨handled, hHandled, rfl⟩
        exact (hBefore handled hHandled).2)
      hExecuted (hNotOutrun walletAddress hWallet) with
      ⟨hCount, hFollows⟩
    have hRequests :=
      @requests_receive_of_limited options INTERNAL_SERVICE_KEY world arrival walletAddress hWallet
    have hSlot :=
      @slot_receive_of_limited options INTERNAL_SERVICE_KEY world arrival walletAddress hWallet
    refine ⟨?_, ?_, ?_⟩
    · intro start hStart
      rw [hRequests] at hStart
      rw [hRequests, hSlot, List.map_append]
      apply hFollows.mono
      exact hStart _ (List.mem_append_right _ List.mem_cons_self)
    · rw [hRequests]
      by_cases hOver :
        options.max < (rateLimitPipeline options arrival.visit
          (world.slot options walletAddress)).1
      · intro t
        rw [weightIn_append_zero]
        · exact hMetered.bounded t
        · rw [if_pos hOver]
          rfl
      · apply weightIn_append_le
        · exact fun _ _ => Nat.zero_le _
        · exact hNow
        · exact hMetered.bounded
        · refine (admissions_le_count _ _ _).trans ?_
          rw [← hCount]
          exact not_lt.mp hOver
    · intro before handled after hSplit hAlone
      rw [hRequests] at hSplit
      rcases List.eq_nil_or_concat after with rfl | ⟨rest, last, rfl⟩
      · have hLast := List.append_inj' hSplit rfl
        rcases hLast with ⟨rfl, hHandled⟩
        cases hHandled
        have hNone := within_eq_nil (fun earlier hEarlier => (hBefore earlier hEarlier).1) hAlone
        rw [hNone] at hCount
        rw [hCount]
        exact if_neg (not_lt.mpr hMax)
      · refine hMetered.alone before handled rest ?_ hAlone
        have hInit : world.requests walletAddress ++ [_] = (before ++ handled :: rest) ++ [last] :=
          hSplit.trans (by simp)
        exact (List.append_inj' hInit rfl).1
  · have hRequests :=
      @requests_receive_of_other options INTERNAL_SERVICE_KEY world arrival walletAddress hWallet
    have hSlot :=
      @slot_receive_of_other options INTERNAL_SERVICE_KEY world arrival walletAddress hWallet
    refine ⟨?_, ?_, ?_⟩
    · rw [hRequests, hSlot]
      exact hMetered.follows
    · rw [hRequests]
      exact hMetered.bounded
    · rw [hRequests]
      exact hMetered.alone

-- Windows of a Wallet
----

variable {arrivals : List RateArrival}

theorem metered_of_run (hWindow : 0 < options.windowMs) (hMax : 1 ≤ options.max)
    (hRun : RunsTo (RateWorld.step options INTERNAL_SERVICE_KEY) (fun world arrival =>
      Arrives INTERNAL_SERVICE_KEY world arrival ∧
        NotOutrun options INTERNAL_SERVICE_KEY world arrival) .start arrivals world)
    (walletAddress : String) :
    Metered options walletAddress world := by
  apply hRun.invariant (metered_start options walletAddress)
  intro before arrival after hMetered hAllowed hStep
  cases hStep
  exact metered_receive hWindow hMax hMetered hAllowed.1 hAllowed.2

theorem admittedIn_eq_weightIn (options : WalletRateLimitOptions) (world : RateWorld)
    (walletAddress : String) (t : ℤ) :
    world.admittedIn options walletAddress t = weightIn (options.windowMs : ℤ)
      (fun handled : HandledRequest => (handled.now : ℤ)) HandledRequest.admissions
      (world.requests walletAddress) t := by
  unfold RateWorld.admittedIn weightIn
  induction world.requests walletAddress with
  | nil => rfl
  | cons handled rest ih =>
    rw [List.filter_cons, List.filter_cons]
    by_cases hNext : handled.answer = .next <;> by_cases hWithin :
      t - options.windowMs < handled.now ∧ (handled.now : ℤ) ≤ t <;>
      simpa [hNext, hWithin, HandledRequest.admissions, Nat.add_comm] using ih

/-
  In every run in which no key runs out between the time of a
  request and its pipeline, no window holds more than `max`
  admitted requests of a wallet, and a request that none has
  preceded in its window is admitted.
-/
theorem rate_limit_kept (hWindow : 0 < options.windowMs) (hMax : 1 ≤ options.max)
    (hRun : RunsTo (RateWorld.step options INTERNAL_SERVICE_KEY) (fun world arrival =>
      Arrives INTERNAL_SERVICE_KEY world arrival ∧
        NotOutrun options INTERNAL_SERVICE_KEY world arrival) .start arrivals world)
    (walletAddress : String) :
    (∀ t, world.admittedIn options walletAddress t ≤ options.max) ∧ ∀ before handled after,
      world.requests walletAddress = before ++ handled :: after → (∀ earlier ∈ before,
        ¬((handled.now : ℤ) - options.windowMs < earlier.now ∧ earlier.now ≤ handled.now)) →
        handled.answer = .next := by
  have hMetered := metered_of_run hWindow hMax hRun walletAddress
  refine ⟨fun t => ?_, hMetered.alone⟩
  rw [admittedIn_eq_weightIn]
  exact hMetered.bounded t

def sampleArrival (now executedAt : ℕ) (uuid : String) : RateArrival where
  request := { internalServiceKey := none, walletAddress := "alice" }
  visit := { now, executedAt, uuid }

/- Five requests at once, and one when a window has passed. -/
def sampleArrivals : List RateArrival :=
  [sampleArrival 0 1 "a", sampleArrival 0 1 "b", sampleArrival 1 2 "c", sampleArrival 1 2 "d",
    sampleArrival 2 3 "e", sampleArrival 3 4 "f", sampleArrival 10002 10002 "g"]

theorem rate_limit_kept_sample :
    ∃ world, RunsTo (RateWorld.step buyKeyRateLimit none) (fun world arrival =>
      Arrives none world arrival ∧ NotOutrun buyKeyRateLimit none world arrival)
      .start sampleArrivals world ∧
      world.admittedIn buyKeyRateLimit "alice" 3 = 5 ∧
      world.admittedIn buyKeyRateLimit "alice" 10002 ≤ 5 := by
  have hRuns : (runAllowed (RateWorld.step buyKeyRateLimit none) (fun world arrival =>
    Arrives none world arrival ∧ NotOutrun buyKeyRateLimit none world arrival)
    .start sampleArrivals).map
    (fun world => world.admittedIn buyKeyRateLimit "alice" 3) =
    some 5 := by decide
  rcases Option.map_eq_some_iff.mp hRuns with ⟨world, hSome, hCount⟩
  have hRun := runsTo_of_runAllowed hSome
  exact ⟨world, hRun, hCount, (rate_limit_kept (by decide) (by decide) hRun "alice").1 10002⟩

/-
  The pipeline of the sixth request is executed when the key has
  run out; the five before it are still in its window.
-/
theorem sixth_request_admitted :
    ∃ world, RunsTo (RateWorld.step buyKeyRateLimit none) (Arrives none) .start
      [sampleArrival 0 0 "a", sampleArrival 0 0 "b", sampleArrival 0 0 "c", sampleArrival 0 0 "d",
        sampleArrival 0 0 "e", sampleArrival 9999 10001 "f"] world ∧ buyKeyRateLimit.max <
      world.admittedIn buyKeyRateLimit "alice" 9999 := by
  have hRuns : (runAllowed (RateWorld.step buyKeyRateLimit none) (Arrives none) .start
      [sampleArrival 0 0 "a", sampleArrival 0 0 "b",
        sampleArrival 0 0 "c", sampleArrival 0 0 "d", sampleArrival 0 0 "e",
        sampleArrival 9999 10001 "f"]).map
      (fun world => world.admittedIn buyKeyRateLimit "alice" 9999) =
      some 6 := by decide
  rcases Option.map_eq_some_iff.mp hRuns with ⟨world, hSome, hCount⟩
  refine ⟨world, runsTo_of_runAllowed hSome, ?_⟩
  rw [hCount]
  decide

end Middlewares

end AccessLayer
