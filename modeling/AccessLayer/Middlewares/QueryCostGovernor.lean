import AccessLayer.Governance.Proposals
import AccessLayer.Library.Json
import AccessLayer.Library.Numerals
import AccessLayer.Library.Runs
import AccessLayer.Library.SlidingWindows
import Mathlib.Algebra.BigOperators.Ring.Finset
import Mathlib.Algebra.Order.Group.Int

/-
  The budget of query costs in a rolling window
  (`src/middlewares/query-cost-governor.middleware.ts`,
  `src/utils/query-cost.utils.ts`).

  A request is charged by a member of a sorted set whose name
  begins with its cost.  Commands of one request come one after
  another; the set may run out in between.  Logs are left out.

  Main result: `budget_kept`
-/

-- Costs
----

namespace AccessLayer

namespace Middlewares

open Doubles

section

def DEFAULT_QUERY_COST_MAP : List (String × ℚ) :=
  [("GET /creators", 1), ("GET /creators/:id/holders", 3),
    ("GET /creators/:id/stats", 2), ("GET /keys/search", 5)]

def DEFAULT_QUERY_COST : ℚ := 1

def QUERY_COST_EXEMPT_PATH_PREFIXES : List String := ["/health", "/status", "/internal/qcost"]

structure CompiledCostRoute where
  method : String
  pattern : String
  baseCost : ℚ

/- A segment that begins with a colon stands for any other. -/
def matchesSegments : List (List Char) → List (List Char) → Bool
  | [], [] => true
  | (':' :: _) :: segments, part :: path => !part.isEmpty && matchesSegments segments path
  | segment :: segments, part :: path => segment = part && matchesSegments segments path
  | _, _ => false

/- The path may end with one more slash. -/
def CompiledCostRoute.isMatch (route : CompiledCostRoute) (path : String) : Bool :=
  let segments := route.pattern.toList.splitOn '/'
  let parts := path.toList.splitOn '/'
  matchesSegments segments parts || matchesSegments (segments ++ [[]]) parts

def parseKey (slot : String) : Option (String × String) :=
  let chars := slot.toList
  if ' ' ∈ chars then
    some ((String.ofList (chars.takeWhile (· ≠ ' '))).toUpper,
      String.ofList ((chars.dropWhile (· ≠ ' ')).drop 1))
  else none

def positiveCost : Json → Option ℚ
  | .number mantissa exponent =>
    let value := toNumber (mantissa * 10 ^ exponent)
    if isFiniteNumber value ∧ 0 < value then some value else none
  | _ => none

/- An entry takes the place of one with the same key. -/
def assignCost (merged : List (String × ℚ)) (slot : String) (cost : ℚ) : List (String × ℚ) :=
  if slot ∈ merged.map Prod.fst then
    merged.map fun entry =>
      if entry.1 = slot then (slot, cost) else entry
  else merged ++ [(slot, cost)]

def mergeCosts (merged : List (String × ℚ)) :
    List (String × Json) → Except String (List (String × ℚ))
  | [] => .ok merged
  | (slot, value) :: rest =>
    match positiveCost value with
    | none => .error ("QUERY_COST_MAP_JSON entry \"" ++ slot ++ "\" must map to a positive number")
    | some cost =>
      mergeCosts (if slot = "__proto__" then merged
        else assignCost merged slot cost) rest

def overrideCosts (overrideJson : Option String) (defaults : List (String × ℚ)) :
    Except String (List (String × ℚ)) :=
  match overrideJson.filter (· ≠ "") with
  | none => .ok defaults
  | some text =>
    match Json.parse text.toList with
    | none =>
      .error ("QUERY_COST_MAP_JSON is not valid JSON — expected " ++
        "an object of \"METHOD /pattern\": cost entries")
    | some (.object members) => mergeCosts defaults members
    | some _ =>
      .error ("QUERY_COST_MAP_JSON must be a JSON object of " ++
        "\"METHOD /pattern\": cost entries")

def compileEntry (entry : String × ℚ) : Except String CompiledCostRoute :=
  match parseKey entry.1 with
  | none =>
    .error ("Query cost map key \"" ++ entry.1 ++ "\" must be of the form \"METHOD /pattern\"")
  | some (method, pattern) => .ok { method, pattern, baseCost := entry.2 }

def compileCostMap (overrideJson : Option String) (defaults : List (String × ℚ)) :
    Except String (List CompiledCostRoute) := do
  let merged ← overrideCosts overrideJson defaults
  merged.mapM compileEntry

def matchCostRoute (routes : List CompiledCostRoute)
    (method path : String) : Option CompiledCostRoute :=
  routes.find? fun route => route.method = method.toUpper && route.isMatch path

/- The query parameter `limit`; `none` is what is no text. -/
inductive LimitParam where
  | single (value : Option String)
  | many (values : List (Option String))

def LimitParam.first : LimitParam → Option String
  | .single value => value
  | .many values => values.head?.join

def parseNumber (text : List Char) : Option ℚ :=
  ((parseInt Governance.isWhiteSpace text).map fun value : ℤ =>
    toNumber value).filter isFiniteNumber

def computeQueryCost (matched : Option CompiledCostRoute) (limitParam : LimitParam) : ℚ :=
  let baseCost := (matched.map CompiledCostRoute.baseCost).getD DEFAULT_QUERY_COST
  match limitParam.first.bind fun text => parseNumber text.toList with
  | some parsedLimit =>
    if 1 < parsedLimit then toNumber (baseCost * parsedLimit)
    else baseCost
  | none => baseCost

/- A member of the set: the cost, and an identifier. -/
def encodeMember (cost : ℚ) (uuid : String) : String :=
  String.ofList (numberText cost ++ ':' :: uuid.toList)

/- The number before the first colon, or in the whole text. -/
def decodeCost (member : String) : ℚ := (parseNumber (member.toList.takeWhile (· ≠ ':'))).getD 0

/- The members' costs, added up in their order. -/
def spentOf (members : List String) : ℚ :=
  members.foldl (fun sum member => toNumber (sum + decodeCost member)) 0

-- Middleware
----

open SlidingWindows

structure GovernorEnv where
  windowMs : ℕ
  budget : ℚ
  QUERY_COST_MAP_JSON : Option String
  QUERY_COST_ADMIN_WALLETS : Option String
  INTERNAL_SERVICE_KEY : Option String
  verifyWalletAccessToken : String → Option String

structure GovernedRequest where
  method : String
  path : String
  ip : Option String
  authorization : Option String
  internalServiceKey : Option String
  limit : LimitParam

/- What the governor is told by clocks and chance. -/
structure GovernorVisit where
  now : ℕ
  readAt : ℕ
  writtenAt : ℕ
  uuid : String

inductive GovernorAnswer where
  | exempt
  | unchecked (cost : ℚ)
  | admitted (cost remaining : ℚ)
  | exceeded (cost remaining : ℚ) (retryAfterSeconds resetSeconds : ℤ)

inductive GovernorRedis where
  | disabled
  | failing
  | connected (keys : String → SortedSet String ℤ)

def extractBearerToken (authHeader : Option String) : Option String :=
  match authHeader.map fun header => header.toList.splitOn ' ' with
  | some (scheme :: token :: _) =>
    if token = [] ∨ (String.ofList scheme).toLower ≠ "bearer" then none
    else
      (some (Governance.trim (String.ofList token))).filter (· ≠ "")
  | _ => none

namespace GovernorEnv

variable (env : GovernorEnv)

def adminWallets : List String :=
  match env.QUERY_COST_ADMIN_WALLETS with
  | none => []
  | some raw =>
    ((raw.toList.splitOn ',').map fun wallet =>
      (Governance.trim (String.ofList wallet)).toLower).filter (· ≠ "")

/- The defaults alone, where the entries are invalid. -/
def compiledRoutes : List CompiledCostRoute :=
  match compileCostMap env.QUERY_COST_MAP_JSON DEFAULT_QUERY_COST_MAP with
  | .ok routes => routes
  | .error _ => (compileCostMap none DEFAULT_QUERY_COST_MAP).toOption.getD []

def isTrustedService (request : GovernedRequest) : Bool :=
  match env.INTERNAL_SERVICE_KEY with
  | none => false
  | some serviceKey => serviceKey ≠ "" ∧ request.internalServiceKey = some serviceKey

def isExemptPath (path : String) : Bool :=
  QUERY_COST_EXEMPT_PATH_PREFIXES.any fun start => start.toList.isPrefixOf path.toList

def resolveWalletAddress (request : GovernedRequest) : Option String :=
  (extractBearerToken request.authorization).bind env.verifyWalletAccessToken

/- Who is charged, if the request is not exempt. -/
def identityOf (request : GovernedRequest) : Option String :=
  if isExemptPath request.path || env.isTrustedService request then
    none
  else
    match (env.resolveWalletAddress request).filter (· ≠ "") with
    | some walletAddress =>
      if walletAddress.toLower ∈ env.adminWallets then none
      else some ("wallet:" ++ walletAddress)
    | none => some ("ip:" ++ request.ip.getD "unknown")

def costOf (request : GovernedRequest) : ℚ :=
  computeQueryCost (matchCostRoute env.compiledRoutes request.method request.path) request.limit

end GovernorEnv

def buildQueryCostRedisKey (identity : String) : String := "qcost:" ++ identity

/- What is in the set when its members are read. -/
def visitedSet (env : GovernorEnv) (visit : GovernorVisit)
    (set : SortedSet String ℤ) : SortedSet String ℤ :=
  (set.expire (visit.readAt : ℤ)).zremrangebyscore 0 (visit.now - env.windowMs)

def spentIn (set : SortedSet String ℤ) : ℚ := spentOf (set.zrange.map Prod.fst)

def resetAtMs (env : GovernorEnv) (visit : GovernorVisit) (set : SortedSet String ℤ) : ℤ :=
  (set.zrange.head?.map Prod.snd).getD visit.now + env.windowMs

/- One request of an identity, and its set. -/
def chargeRequest (env : GovernorEnv) (visit : GovernorVisit) (cost : ℚ)
    (set : SortedSet String ℤ) : GovernorAnswer × SortedSet String ℤ :=
  let visited := visitedSet env visit set
  let spent := spentIn visited
  if env.budget < toNumber (spent + cost) then
    let resetAt := resetAtMs env visit visited
    (.exceeded cost (max 0 (toNumber (env.budget - spent)))
      (max 1 ⌈((resetAt - visit.now : ℤ) : ℚ) / 1000⌉) (resetAt / 1000), visited)
  else
    let added :=
      (visited.expire (visit.writtenAt : ℤ)).zadd (visit.now : ℤ) (encodeMember cost visit.uuid)
    (.admitted cost (max 0 (toNumber (toNumber (env.budget - spent) - cost))),
      added.pexpire visit.writtenAt env.windowMs)

def queryCostGovernor (env : GovernorEnv) (request : GovernedRequest) (visit : GovernorVisit)
    (redis : GovernorRedis) : GovernorAnswer × GovernorRedis :=
  match env.identityOf request with
  | none => (.exempt, redis)
  | some identity =>
    let cost := env.costOf request
    match redis with
    | .disabled => (.unchecked cost, .disabled)
    | .failing => (.unchecked cost, .failing)
    | .connected keys =>
      let slot := buildQueryCostRedisKey identity
      let result := chargeRequest env visit cost (keys slot)
      (result.1, .connected (Function.update keys slot result.2))

end

-- Runs
----

section

open SlidingWindows Transactional

def GovernorAnswer.isAdmitted : GovernorAnswer → Bool
  | .admitted _ _ => true
  | _ => false

/- A request that was checked against its identity's budget. -/
structure HandledQuery where
  identity : String
  now : ℕ
  finishedAt : ℕ
  cost : ℚ
  uuid : String
  isAdmitted : Bool

structure GovernorWorld where
  keys : String → SortedSet String ℤ
  handled : List HandledQuery

def GovernorWorld.start : GovernorWorld where
  keys _ := .empty
  handled := []

structure GovernorArrival where
  request : GovernedRequest
  visit : GovernorVisit

variable (env : GovernorEnv)

/- What is recorded of a request of an identity. -/
def GovernorArrival.handled (arrival : GovernorArrival) (identity : String)
    (answer : GovernorAnswer) : HandledQuery where
  identity
  now := arrival.visit.now
  finishedAt := arrival.visit.writtenAt
  cost := env.costOf arrival.request
  uuid := arrival.visit.uuid
  isAdmitted := answer.isAdmitted

namespace GovernorWorld

variable (world : GovernorWorld)

def slot (identity : String) : SortedSet String ℤ := world.keys (buildQueryCostRedisKey identity)

def queries (identity : String) : List HandledQuery := world.handled.filter (·.identity = identity)

def charges (identity : String) : List HandledQuery :=
  (world.queries identity).filter HandledQuery.isAdmitted

def admittedCost (identity : String) (t : ℤ) : ℚ :=
  weightIn (env.windowMs : ℤ) (fun query : HandledQuery => (query.now : ℤ))
    HandledQuery.cost (world.charges identity) t

def receive (arrival : GovernorArrival) : GovernorWorld :=
  let result := queryCostGovernor env arrival.request arrival.visit (.connected world.keys)
  { keys :=
      match result.2 with
      | .connected keys => keys
      | _ => world.keys
    handled :=
      world.handled ++ ((env.identityOf arrival.request).map fun identity =>
        arrival.handled env identity result.1).toList }

def step (env : GovernorEnv) (world : GovernorWorld)
    (arrival : GovernorArrival) : Option GovernorWorld := some (world.receive env arrival)

end GovernorWorld

/-
  The commands of a request come in order, those of an identity
  after those of its earlier requests, and no identifier is drawn
  twice.
-/
def InTurn (world : GovernorWorld) (arrival : GovernorArrival) : Prop :=
  (arrival.visit.now ≤ arrival.visit.readAt ∧ arrival.visit.readAt ≤ arrival.visit.writtenAt) ∧
    ∀ identity ∈ env.identityOf arrival.request, ∀ query ∈ world.queries identity,
      query.finishedAt ≤ arrival.visit.now ∧ query.uuid ≠ arrival.visit.uuid

/- The route's cost times the limit is a whole number. -/
def CostIsWhole (arrival : GovernorArrival) : Prop :=
  (⌊env.costOf arrival.request⌋₊ : ℚ) = env.costOf arrival.request

/- The set of the identity does not run out between the time that is taken and the read. -/
def ReadInTime (world : GovernorWorld) (arrival : GovernorArrival) : Prop :=
  ∀ identity ∈ env.identityOf arrival.request, ∀ expiry ∈ (world.slot identity).expiresAt,
    expiry < arrival.visit.readAt → expiry ≤ arrival.visit.now

instance (world : GovernorWorld) (arrival : GovernorArrival) :
    Decidable (InTurn env world arrival) := inferInstanceAs (Decidable (_ ∧ _))

instance (arrival : GovernorArrival) : Decidable (CostIsWhole env arrival) :=
  inferInstanceAs (Decidable (_ = _))

instance (world : GovernorWorld) (arrival : GovernorArrival) :
    Decidable (ReadInTime env world arrival) :=
  inferInstanceAs (Decidable (∀ identity ∈ (_ : Option _), _))

end

-- Members and Their Costs
----

theorem isWhiteSpace_of_isDigit (c : Char) (hDigit : c.isDigit = true) :
    Governance.isWhiteSpace c = false := by
  have hRange : 48 ≤ c.toNat ∧ c.toNat ≤ 57 := by
    unfold Char.isDigit at hDigit
    rw [Bool.and_eq_true, decide_eq_true_iff, decide_eq_true_iff] at hDigit
    exact hDigit
  have hOutside : ∀ n ∈ [0x9, 0xA, 0xB, 0xC, 0xD, 0x20, 0xA0, 0x1680, 0x2000,
      0x2001, 0x2002, 0x2003, 0x2004, 0x2005, 0x2006, 0x2007,
      0x2008, 0x2009, 0x200A, 0x2028, 0x2029, 0x202F, 0x205F, 0x3000, 0xFEFF],
      n < 48 ∨ 57 < n := by decide
  unfold Governance.isWhiteSpace
  rw [decide_eq_false_iff_not]
  intro hMem
  have hNot := hOutside _ hMem
  omega

variable {n : ℕ}

theorem colon_notMem_numberText (hn : n < 2 ^ 53) : ':' ∉ numberText n := by
  intro hMem
  have hDigit := isDigit_of_mem_numberText hn hMem
  revert hDigit
  decide

/- The text of a member up to its first colon. -/
theorem takeWhile_encodeMember (hn : n < 2 ^ 53) (uuid : String) :
    (encodeMember n uuid).toList.takeWhile (· ≠ ':') = numberText n := by
  unfold encodeMember
  rw [String.toList_ofList, List.takeWhile_append_of_pos]
  · rw [List.takeWhile_cons_of_neg (by simp), List.append_nil]
  · intro c hc
    refine decide_eq_true ?_
    rintro rfl
    exact colon_notMem_numberText hn hc

theorem parseNumber_numberText (hn : n < 2 ^ 53) : parseNumber (numberText n) = some (n : ℚ) := by
  unfold parseNumber
  rw [parseInt_numberText isWhiteSpace_of_isDigit hn,
    Option.map_some, Int.cast_natCast, toNumber_natCast hn, Option.filter_some, if_pos]
  refine decide_eq_true ?_
  rw [abs_of_nonneg (Nat.cast_nonneg n)]
  have hBound : (n : ℚ) < 2 ^ 53 := by exact_mod_cast hn
  exact hBound.trans (pow_lt_pow_right₀ one_lt_two (by decide))

/- A whole cost is read from a member as it was written. -/
theorem decodeCost_encodeMember (hn : n < 2 ^ 53) (uuid : String) :
    decodeCost (encodeMember n uuid) = n := by
  unfold decodeCost
  rw [takeWhile_encodeMember hn, parseNumber_numberText hn]
  rfl

theorem encodeMember_inj {m : ℕ} {uuid uuid' : String} (hn : n < 2 ^ 53) (hm : m < 2 ^ 53)
    (hSame : encodeMember n uuid = encodeMember m uuid') :
    uuid = uuid' := by
  have hTexts : numberText n = numberText m := by
    rw [← takeWhile_encodeMember hn uuid, hSame, takeWhile_encodeMember hm uuid']
  have hLists := congrArg String.toList hSame
  unfold encodeMember at hLists
  rw [String.toList_ofList, String.toList_ofList, hTexts] at hLists
  have hTails := List.append_cancel_left hLists
  exact String.toList_inj.mp (List.cons.inj hTails).2

/- Whole costs are added up without rounding. -/
theorem foldl_toNumber {members : List String} {costs : List ℕ}
    (hCosts : members.map decodeCost = costs.map fun n : ℕ => (n : ℚ)) :
    ∀ {sum : ℕ}, sum + costs.sum < 2 ^ 53 → members.foldl
      (fun sum member => toNumber (sum + decodeCost member)) (sum : ℚ) =
      ((sum + costs.sum : ℕ) : ℚ) := by
  induction members generalizing costs with
  | nil =>
    intro sum _
    cases costs with
    | nil => rfl
    | cons n rest => cases hCosts
  | cons member members ih =>
    intro sum hSmall
    cases costs with
    | nil => cases hCosts
    | cons n rest =>
      rcases List.cons.inj hCosts with ⟨hHead, hRest⟩
      rw [List.sum_cons] at hSmall ⊢
      have hHere : toNumber ((sum : ℚ) + n) = (sum + n : ℕ) := by
        rw [← Nat.cast_add]
        exact toNumber_natCast (by omega)
      rw [List.foldl_cons, hHead, hHere, ih hRest (by omega), Nat.add_assoc]

variable {members : List String}

theorem map_decodeCost
    (hWhole : ∀ member ∈ members, ((⌊decodeCost member⌋₊ : ℕ) : ℚ) = decodeCost member) :
    members.map decodeCost = (members.map fun member => ⌊decodeCost member⌋₊).map
      fun n : ℕ => (n : ℚ) := by
  rw [List.map_map]
  apply List.map_congr_left
  exact fun member hMember => (hWhole member hMember).symm

theorem spentOf_eq {costs : List ℕ} (hCosts :
    members.map decodeCost = costs.map fun n : ℕ => (n : ℚ)) (hSmall : costs.sum < 2 ^ 53) :
    spentOf members = (costs.sum : ℕ) := by
  have hFold := @foldl_toNumber members costs hCosts 0 (by omega)
  rw [Nat.zero_add, Nat.cast_zero] at hFold
  exact hFold

-- What a Run Keeps
----

open SlidingWindows Transactional

variable {env : GovernorEnv} {world : GovernorWorld} {arrival : GovernorArrival}
variable {visit : GovernorVisit} {identity : String}

/- The member of a charge, with its score. -/
def HandledQuery.entry (query : HandledQuery) : String × ℤ :=
  (encodeMember query.cost query.uuid, query.now)

/- The cost is a whole number that is exact. -/
def HandledQuery.IsExact (query : HandledQuery) : Prop := ∃ n : ℕ, n < 2 ^ 53 ∧ query.cost = n

variable {query : HandledQuery}

theorem HandledQuery.decodeCost_entry (hExact : query.IsExact) :
    decodeCost query.entry.1 = query.cost := by
  rcases hExact with ⟨n, hn, hCost⟩
  unfold HandledQuery.entry
  rw [hCost]
  exact decodeCost_encodeMember hn query.uuid

theorem HandledQuery.natCast_floor_cost (hExact : query.IsExact) :
    ((⌊query.cost⌋₊ : ℕ) : ℚ) = query.cost := by
  rcases hExact with ⟨n, -, hCost⟩
  rw [hCost, Nat.floor_natCast]

/- The charges that are still in the window. -/
def keptCharges (env : GovernorEnv) (visit : GovernorVisit)
    (charges : List HandledQuery) : List HandledQuery :=
  charges.filter fun query => (visit.now : ℤ) - env.windowMs < query.now

theorem weightIn_eq_sum {charges : List HandledQuery}
    (hPast : ∀ query ∈ charges, query.now ≤ visit.now) (hExact : ∀ query ∈ charges, query.IsExact) :
    weightIn (env.windowMs : ℤ) (fun query : HandledQuery => (query.now : ℤ))
      HandledQuery.cost charges visit.now = ((((keptCharges env visit charges).map fun query =>
      ⌊query.cost⌋₊).sum : ℕ) : ℚ) := by
  have hCosts : (keptCharges env visit charges).map HandledQuery.cost =
      ((keptCharges env visit charges).map fun query =>
        ⌊query.cost⌋₊).map fun n : ℕ => (n : ℚ) := by
    rw [List.map_map]
    apply List.map_congr_left
    intro query hQuery
    exact (HandledQuery.natCast_floor_cost (hExact query (List.mem_of_mem_filter hQuery))).symm
  have hKept : charges.filter (fun query => (visit.now : ℤ) - env.windowMs < query.now ∧
      (query.now : ℤ) ≤ visit.now) =
      keptCharges env visit charges := by
    apply List.filter_congr
    intro query hQuery
    have hBefore : (query.now : ℤ) ≤ visit.now := by exact_mod_cast hPast query hQuery
    simp [hBefore]
  unfold weightIn
  rw [hKept, hCosts, Nat.cast_list_sum]

variable {set : SortedSet String ℤ} {charges : List HandledQuery}

theorem zrange_visitedSet
    (hFollows : set.Follows (env.windowMs : ℤ) visit.now (charges.map HandledQuery.entry))
    (hOver : ∀ expiry ∈ set.expiresAt, expiry < visit.readAt → expiry ≤ visit.now) :
    ((visitedSet env visit set).zrange.map Prod.fst).Perm
      ((keptCharges env visit charges).map fun query => query.entry.1) := by
  have hMembers : (visitedSet env visit set).members = (keptCharges env visit charges).map
      HandledQuery.entry := by
    unfold visitedSet
    rw [(hFollows.expire le_rfl hOver).members_zremrangebyscore, List.filter_map]
    · rfl
    · intro x hx
      rcases List.mem_map.mp hx with ⟨query, -, rfl⟩
      exact Int.natCast_nonneg _
  have hSorted :=
    (List.perm_insertionSort (fun x y : String × ℤ => x.2 < y.2 ∨ x.2 = y.2 ∧ x.1 ≤ y.1)
      ((keptCharges env visit charges).map HandledQuery.entry)).map Prod.fst
  rw [List.map_map] at hSorted
  unfold SortedSet.zrange
  rw [hMembers]
  exact hSorted

theorem spentIn_visitedSet
    (hFollows : set.Follows (env.windowMs : ℤ) visit.now (charges.map HandledQuery.entry))
    (hOver : ∀ expiry ∈ set.expiresAt, expiry < visit.readAt → expiry ≤ visit.now)
    (hPast : ∀ query ∈ charges, query.now ≤ visit.now) (hExact : ∀ query ∈ charges, query.IsExact)
    (hSmall : weightIn (env.windowMs : ℤ) (fun query : HandledQuery => (query.now : ℤ))
      HandledQuery.cost charges visit.now < 2 ^ 53) :
    spentIn (visitedSet env visit set) = ((((keptCharges env visit charges).map fun query =>
      ⌊query.cost⌋₊).sum : ℕ) : ℚ) := by
  have hPerm := zrange_visitedSet hFollows hOver
  have hDecoded : ∀ query ∈ keptCharges env visit charges,
      decodeCost query.entry.1 = query.cost := fun query hQuery =>
    HandledQuery.decodeCost_entry (hExact query (List.mem_of_mem_filter hQuery))
  have hSum : (((visitedSet env visit set).zrange.map Prod.fst).map
      fun member => ⌊decodeCost member⌋₊).sum =
      ((keptCharges env visit charges).map fun query =>
        ⌊query.cost⌋₊).sum := by
    rw [(hPerm.map _).sum_eq, List.map_map]
    congr 1
    apply List.map_congr_left
    intro query hQuery
    rw [Function.comp_apply, hDecoded query hQuery]
  rw [weightIn_eq_sum hPast hExact, ← hSum] at hSmall
  rw [← hSum]
  refine spentOf_eq (map_decodeCost fun member hMember => ?_) ?_
  · rcases List.mem_map.mp (hPerm.mem_iff.mp hMember) with ⟨query, hQuery, rfl⟩
    rw [hDecoded query hQuery]
    exact HandledQuery.natCast_floor_cost (hExact query (List.mem_of_mem_filter hQuery))
  · exact_mod_cast hSmall

/- Whole numbers within a budget are added up exactly. -/
theorem fits_of_not_exceeded {spent cost : ℕ} {budget : ℚ} (hBudget : budget < 2 ^ 53)
    (hFits : ¬budget < toNumber ((spent : ℚ) + cost)) :
    ((spent : ℚ) + cost ≤ budget) ∧ spent + cost < 2 ^ 53 := by
  have hSmall : spent + cost < 2 ^ 53 := by
    by_contra hLarge
    have hLe : toNumber (2 ^ 53) ≤ toNumber ((spent : ℚ) + cost) :=
      toNumber_mono (by exact_mod_cast not_lt.mp hLarge)
    rw [toNumber_two_pow] at hLe
    exact hFits (hBudget.trans_le hLe)
  rw [← Nat.cast_add, toNumber_natCast hSmall, not_lt] at hFits
  exact ⟨by exact_mod_cast hFits, hSmall⟩

-- Budgets
----

/- The request's own answer, and its set afterwards. -/
def GovernorArrival.result (env : GovernorEnv) (arrival : GovernorArrival)
    (set : SortedSet String ℤ) : GovernorAnswer × SortedSet String ℤ :=
  chargeRequest env arrival.visit (env.costOf arrival.request) set

theorem queries_receive_of_identity (hIdentity : env.identityOf arrival.request = some identity) :
    (world.receive env arrival).queries identity = world.queries identity ++
      [arrival.handled env identity (arrival.result env (world.slot identity)).1] := by
  unfold GovernorWorld.queries GovernorWorld.receive queryCostGovernor
  rw [hIdentity]
  simp only [List.filter_append, Option.map_some, Option.toList_some, List.filter_singleton]
  rw [show (arrival.handled env identity _).identity = identity from rfl, decide_eq_true rfl]
  rfl

theorem queries_receive_of_other (hOther : env.identityOf arrival.request ≠ some identity) :
    (world.receive env arrival).queries identity = world.queries identity := by
  unfold GovernorWorld.queries GovernorWorld.receive
  cases hIdentity : env.identityOf arrival.request with
  | none => simp
  | some other =>
    have hNe : other ≠ identity := by
      rintro rfl
      exact hOther hIdentity
    simp [GovernorArrival.handled, hNe]

theorem slot_receive_of_identity (hIdentity : env.identityOf arrival.request = some identity) :
    (world.receive env arrival).slot identity = (arrival.result env (world.slot identity)).2 := by
  unfold GovernorWorld.slot GovernorWorld.receive queryCostGovernor
  rw [hIdentity]
  exact Function.update_self _ _ _

theorem slot_receive_of_identity_other (hOther : env.identityOf arrival.request ≠ some identity) :
    (world.receive env arrival).slot identity = world.slot identity := by
  unfold GovernorWorld.slot GovernorWorld.receive queryCostGovernor
  cases hIdentity : env.identityOf arrival.request with
  | none => rfl
  | some other =>
    have hNe : buildQueryCostRedisKey identity ≠
        buildQueryCostRedisKey other := by
      intro hSame
      unfold buildQueryCostRedisKey at hSame
      rw [String.append_right_inj] at hSame
      exact hOther (hIdentity.trans (congrArg some hSame.symm))
    exact Function.update_of_ne hNe _ _

/- A charge that is within what is left of the budget. -/
theorem result_of_fits (hFits : ¬env.budget < toNumber (spentIn (visitedSet env arrival.visit set) +
    env.costOf arrival.request)) :
    (arrival.result env set).1.isAdmitted = true ∧ (arrival.result env set).2 =
      (((visitedSet env arrival.visit set).expire (arrival.visit.writtenAt : ℤ)).zadd
        (arrival.visit.now : ℤ) (encodeMember (env.costOf arrival.request)
          arrival.visit.uuid)).pexpire (arrival.visit.writtenAt : ℤ) env.windowMs := by
  unfold GovernorArrival.result chargeRequest
  rw [if_neg hFits]
  exact ⟨rfl, rfl⟩

theorem result_of_exceeds
    (hExceeds : env.budget < toNumber (spentIn (visitedSet env arrival.visit set) +
      env.costOf arrival.request)) :
    (arrival.result env set).1.isAdmitted = false ∧ (arrival.result env set).2 =
      visitedSet env arrival.visit set := by
  unfold GovernorArrival.result chargeRequest
  rw [if_pos hExceeds]
  exact ⟨rfl, rfl⟩

/- What a run keeps of an identity. -/
structure Budgeted (env : GovernorEnv) (identity : String) (world : GovernorWorld) : Prop where
  follows : ∀ start : ℤ, (∀ query ∈ world.queries identity, (query.finishedAt : ℤ) ≤ start) →
    (world.slot identity).Follows (env.windowMs : ℤ) start
      ((world.charges identity).map HandledQuery.entry)
  bounded : ∀ t, world.admittedCost env identity t ≤ env.budget
  exact : ∀ query ∈ world.charges identity, query.IsExact
  ordered : ∀ query ∈ world.queries identity, query.now ≤ query.finishedAt

theorem budgeted_start (hBudget : 0 ≤ env.budget) : Budgeted env identity .start where
  follows start _ := SortedSet.follows_empty _ start
  bounded _ := hBudget
  exact _ h := nomatch h
  ordered _ h := nomatch h

theorem Budgeted.visited (hBudgeted : Budgeted env identity world) (hIdentity :
    env.identityOf arrival.request = some identity) (hInTurn : InTurn env world arrival)
    (hReadInTime : ReadInTime env world arrival) :
    (∀ query ∈ world.charges identity, query.now ≤ arrival.visit.now) ∧
      (world.slot identity).Follows (env.windowMs : ℤ) arrival.visit.now
        ((world.charges identity).map HandledQuery.entry) ∧
      (visitedSet env arrival.visit (world.slot identity)).Follows
        (env.windowMs : ℤ) arrival.visit.now ((world.charges identity).map HandledQuery.entry) := by
  have hFinished := hInTurn.2 identity hIdentity
  have hPast : ∀ query ∈ world.charges identity,
      query.now ≤ arrival.visit.now := by
    intro query hQuery
    have hMem := List.mem_of_mem_filter hQuery
    exact (hBudgeted.ordered query hMem).trans (hFinished query hMem).1
  have hFollows := hBudgeted.follows arrival.visit.now fun query hQuery => by
    exact_mod_cast (hFinished query hQuery).1
  refine ⟨hPast, hFollows, ?_⟩
  apply (hFollows.expire le_rfl (hReadInTime identity hIdentity)).zremrangebyscore
  intro x hx
  rcases List.mem_map.mp hx with ⟨query, -, rfl⟩
  exact Int.natCast_nonneg _

/- A charge within the budget. -/
theorem Budgeted.admitted (hWindow : 0 < env.windowMs) (hBudget : env.budget < 2 ^ 53)
    (hBudgeted : Budgeted env identity world) (hIdentity :
      env.identityOf arrival.request = some identity) (hInTurn : InTurn env world arrival)
    (hWhole : CostIsWhole env arrival) (hReadInTime : ReadInTime env world arrival)
    (hFits : ¬env.budget < toNumber (spentIn (visitedSet env arrival.visit (world.slot identity)) +
      env.costOf arrival.request)) :
    Budgeted env identity (world.receive env arrival) := by
  rcases hBudgeted.visited hIdentity hInTurn hReadInTime with ⟨hPast, hFollows, hVisited⟩
  rcases hInTurn with ⟨⟨hReadAt, hWrittenAt⟩, hEarlier⟩
  let charged : HandledQuery :=
    { identity
      now := arrival.visit.now
      finishedAt := arrival.visit.writtenAt
      cost := env.costOf arrival.request
      uuid := arrival.visit.uuid
      isAdmitted := true }
  have hWeight := @weightIn_eq_sum env arrival.visit (world.charges identity) hPast hBudgeted.exact
  have hSpent := spentIn_visitedSet hFollows (hReadInTime identity hIdentity) hPast hBudgeted.exact
      ((hBudgeted.bounded _).trans_lt hBudget)
  rcases result_of_fits hFits with ⟨hAdmitted, hSet⟩
  rw [hSpent, ← hWhole] at hFits
  rcases fits_of_not_exceeded hBudget hFits with ⟨hLe, hSmall⟩
  have hExact : charged.IsExact :=
    ⟨⌊env.costOf arrival.request⌋₊, (Nat.le_add_left _ _).trans_lt hSmall, hWhole.symm⟩
  have hAnswer : arrival.handled env identity (arrival.result env (world.slot identity)).1 =
      charged := by
    unfold GovernorArrival.handled
    rw [hAdmitted]
  have hQueries := @queries_receive_of_identity env world arrival identity hIdentity
  rw [hAnswer] at hQueries
  have hCharges : (world.receive env arrival).charges identity =
      world.charges identity ++ [charged] := by
    unfold GovernorWorld.charges
    rw [hQueries, List.filter_append]
    rfl
  have hAllExact : ∀ query ∈ (world.receive env arrival).charges identity,
      query.IsExact := by
    intro query hQuery
    rw [hCharges] at hQuery
    rcases List.mem_append.mp hQuery with hOld | hNew
    · exact hBudgeted.exact query hOld
    · rw [List.mem_singleton.mp hNew]
      exact hExact
  have hNow : (arrival.visit.now : ℤ) ≤ arrival.visit.writtenAt := by
    exact_mod_cast hReadAt.trans hWrittenAt
  refine ⟨?_, ?_, ?_, ?_⟩
  · intro start hStart
    rw [hQueries] at hStart
    have hLast : (arrival.visit.writtenAt : ℤ) ≤ start :=
      hStart charged (List.mem_append_right _ List.mem_cons_self)
    rw [slot_receive_of_identity hIdentity, hSet, hCharges, List.map_append]
    refine ((hVisited.expire hNow fun _ _ h => h.le).record ?_
      (by exact_mod_cast hWindow) ?_ hNow).mono hLast
    · intro x hx hSame
      rcases List.mem_map.mp hx with ⟨query, hQuery, rfl⟩
      rcases hBudgeted.exact query hQuery with ⟨n, hn, hCost⟩
      rcases hExact with ⟨m, hm, hCost'⟩
      unfold HandledQuery.entry at hSame
      rw [hCost, show env.costOf arrival.request = m from hCost'] at hSame
      exact (hEarlier identity hIdentity query (List.mem_of_mem_filter hQuery)).2
        (encodeMember_inj hn hm hSame)
    · intro x hx
      rcases List.mem_map.mp hx with ⟨query, hQuery, rfl⟩
      refine le_trans ?_ hNow
      exact Int.ofNat_le.mpr (hPast query hQuery)
  · unfold GovernorWorld.admittedCost
    rw [hCharges]
    apply weightIn_append_le
    · intro query hQuery
      rw [← hCharges] at hQuery
      rcases hAllExact query hQuery with ⟨n, -, hCost⟩
      rw [hCost]
      exact Nat.cast_nonneg n
    · exact fun query hQuery => Int.ofNat_le.mpr (hPast query hQuery)
    · exact hBudgeted.bounded
    · rw [weightIn_append, if_pos, hWeight]
      · rw [hWhole] at hLe
        exact hLe
      · exact ⟨sub_lt_self _ (by exact_mod_cast hWindow), le_rfl⟩
  · exact hAllExact
  · intro query hQuery
    rw [hQueries] at hQuery
    rcases List.mem_append.mp hQuery with hOld | hNew
    · exact hBudgeted.ordered query hOld
    · rw [List.mem_singleton.mp hNew]
      exact hReadAt.trans hWrittenAt

theorem Budgeted.exceeded (hBudgeted : Budgeted env identity world) (hIdentity :
    env.identityOf arrival.request = some identity) (hInTurn : InTurn env world arrival)
    (hReadInTime : ReadInTime env world arrival) (hExceeds :
      env.budget < toNumber (spentIn (visitedSet env arrival.visit (world.slot identity)) +
        env.costOf arrival.request)) :
    Budgeted env identity (world.receive env arrival) := by
  rcases hBudgeted.visited hIdentity hInTurn hReadInTime with ⟨-, -, hVisited⟩
  rcases result_of_exceeds hExceeds with ⟨hRefused, hSet⟩
  rcases hInTurn with ⟨⟨hReadAt, hWrittenAt⟩, -⟩
  have hQueries := @queries_receive_of_identity env world arrival identity hIdentity
  have hCharges : (world.receive env arrival).charges identity =
      world.charges identity := by
    unfold GovernorWorld.charges
    rw [hQueries, List.filter_append, List.filter_singleton]
    unfold GovernorArrival.handled
    rw [hRefused]
    exact List.append_nil _
  refine ⟨?_, ?_, ?_, ?_⟩
  · intro start hStart
    rw [hQueries] at hStart
    have hLast : (arrival.visit.writtenAt : ℤ) ≤ start :=
      hStart _ (List.mem_append_right _ List.mem_cons_self)
    rw [slot_receive_of_identity hIdentity, hSet, hCharges]
    refine hVisited.mono (le_trans ?_ hLast)
    exact_mod_cast hReadAt.trans hWrittenAt
  · unfold GovernorWorld.admittedCost
    rw [hCharges]
    exact hBudgeted.bounded
  · rw [hCharges]
    exact hBudgeted.exact
  · intro query hQuery
    rw [hQueries] at hQuery
    rcases List.mem_append.mp hQuery with hOld | hNew
    · exact hBudgeted.ordered query hOld
    · rw [List.mem_singleton.mp hNew]
      exact hReadAt.trans hWrittenAt

theorem budgeted_receive (hWindow : 0 < env.windowMs) (hBudget : env.budget < 2 ^ 53)
    (hBudgeted : Budgeted env identity world) (hInTurn : InTurn env world arrival)
    (hWhole : CostIsWhole env arrival) (hReadInTime : ReadInTime env world arrival) :
    Budgeted env identity (world.receive env arrival) := by
  by_cases hIdentity : env.identityOf arrival.request = some identity
  · by_cases hOver :
      env.budget < toNumber (spentIn (visitedSet env arrival.visit (world.slot identity)) +
        env.costOf arrival.request)
    · exact hBudgeted.exceeded hIdentity hInTurn hReadInTime hOver
    · exact hBudgeted.admitted hWindow hBudget hIdentity hInTurn hWhole hReadInTime hOver
  · have hQueries := @queries_receive_of_other env world arrival identity hIdentity
    have hSlot := @slot_receive_of_identity_other env world arrival identity hIdentity
    have hCharges : (world.receive env arrival).charges identity =
        world.charges identity := by
      unfold GovernorWorld.charges
      rw [hQueries]
    refine ⟨?_, ?_, ?_, ?_⟩
    · rw [hQueries, hSlot, hCharges]
      exact hBudgeted.follows
    · unfold GovernorWorld.admittedCost
      rw [hCharges]
      exact hBudgeted.bounded
    · rw [hCharges]
      exact hBudgeted.exact
    · rw [hQueries]
      exact hBudgeted.ordered

-- Windows of an Identity
----

variable {arrivals : List GovernorArrival}

theorem budgeted_of_run (hWindow : 0 < env.windowMs) (hPositive : 0 ≤ env.budget)
    (hBudget : env.budget < 2 ^ 53) (hRun : RunsTo (GovernorWorld.step env) (fun world arrival =>
      InTurn env world arrival ∧ CostIsWhole env arrival ∧ ReadInTime env world arrival)
      .start arrivals world) (identity : String) :
    Budgeted env identity world := by
  apply hRun.invariant (budgeted_start hPositive)
  intro before arrival after hBudgeted hAllowed hStep
  rcases hAllowed with ⟨hInTurn, hWhole, hReadInTime⟩
  cases hStep
  exact budgeted_receive hWindow hBudget hBudgeted hInTurn hWhole hReadInTime

/-
  In every run in which the costs are whole numbers and no set
  runs out between the time of a request and its read, what the
  admitted requests of a window cost is within the budget.
-/
theorem budget_kept (hWindow : 0 < env.windowMs) (hPositive : 0 ≤ env.budget)
    (hBudget : env.budget < 2 ^ 53) (hRun : RunsTo (GovernorWorld.step env) (fun world arrival =>
      InTurn env world arrival ∧ CostIsWhole env arrival ∧ ReadInTime env world arrival)
      .start arrivals world) (identity : String) (t : ℤ) :
    world.admittedCost env identity t ≤ env.budget :=
  (budgeted_of_run hWindow hPositive hBudget hRun identity).bounded t

def sampleGovernorEnv (costs : Option String) (budget : ℚ) : GovernorEnv where
  windowMs := 60000
  budget
  QUERY_COST_MAP_JSON := costs
  QUERY_COST_ADMIN_WALLETS := none
  INTERNAL_SERVICE_KEY := none
  verifyWalletAccessToken _ := none

def sampleQuery (limit : Option String) (now : ℕ) (uuid : String) : GovernorArrival where
  request :=
    { method := "GET"
      path := "/creators"
      ip := none
      authorization := none
      internalServiceKey := none
      limit := .single limit }
  visit := { now, readAt := now, writtenAt := now, uuid }

def sampleQueries : List GovernorArrival :=
  [sampleQuery (some "3") 0 "a", sampleQuery none 10 "b",
    sampleQuery (some "2") 20 "c", sampleQuery none 60000 "d"]

/- Three are charged 3, 1 and 1; a limit of 2 is too much. -/
theorem budget_kept_sample :
    ∃ world, RunsTo (GovernorWorld.step (sampleGovernorEnv none 5)) (fun world arrival =>
      InTurn (sampleGovernorEnv none 5) world arrival ∧
        CostIsWhole (sampleGovernorEnv none 5) arrival ∧
        ReadInTime (sampleGovernorEnv none 5) world arrival) .start sampleQueries world ∧
      (world.queries "ip:unknown").map HandledQuery.isAdmitted = [true, true, false, true] ∧
      world.admittedCost (sampleGovernorEnv none 5) "ip:unknown" 60000 ≤ 5 := by
  have hRuns : (runAllowed (GovernorWorld.step (sampleGovernorEnv none 5)) (fun world arrival =>
    InTurn (sampleGovernorEnv none 5) world arrival ∧
      CostIsWhole (sampleGovernorEnv none 5) arrival ∧
      ReadInTime (sampleGovernorEnv none 5) world arrival)
    .start sampleQueries).map
    (fun world => (world.queries "ip:unknown").map HandledQuery.isAdmitted) =
    some [true, true, false, true] := by decide +kernel
  rcases Option.map_eq_some_iff.mp hRuns with ⟨world, hSome, hAnswers⟩
  have hRun := runsTo_of_runAllowed hSome
  exact ⟨world, hRun, hAnswers, budget_kept (by decide) (by decide)
    (by decide) hRun "ip:unknown" 60000⟩

def halfCosts : Option String := some "\x7b\"GET /creators\": 0.5\x7d"

/- A cost of one half is written, and zero is read; a budget of one admits three such requests. -/
theorem half_costs_not_counted :
    ∃ world, RunsTo (GovernorWorld.step (sampleGovernorEnv halfCosts 1)) (fun world arrival =>
      InTurn (sampleGovernorEnv halfCosts 1) world arrival ∧
        ReadInTime (sampleGovernorEnv halfCosts 1) world arrival) .start
      [sampleQuery none 0 "a", sampleQuery none 10 "b", sampleQuery none 20 "c"] world ∧
      (sampleGovernorEnv halfCosts 1).budget < world.admittedCost (sampleGovernorEnv halfCosts 1)
        "ip:unknown" 20 := by
  have hRuns :
      (runAllowed (GovernorWorld.step (sampleGovernorEnv halfCosts 1)) (fun world arrival =>
        InTurn (sampleGovernorEnv halfCosts 1) world arrival ∧
          ReadInTime (sampleGovernorEnv halfCosts 1) world arrival)
        .start
        [sampleQuery none 0 "a", sampleQuery none 10 "b", sampleQuery none 20 "c"]).map
        (fun world => world.admittedCost (sampleGovernorEnv halfCosts 1) "ip:unknown" 20) =
        some (3 / 2) := by decide +kernel
  rcases Option.map_eq_some_iff.mp hRuns with ⟨world, hSome, hCost⟩
  refine ⟨world, runsTo_of_runAllowed hSome, ?_⟩
  rw [hCost]
  decide +kernel

end Middlewares

end AccessLayer
