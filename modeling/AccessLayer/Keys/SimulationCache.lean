import AccessLayer.Keys.KeySimulate

/-
  The cache of trade simulations
  (`src/modules/keys/key-simulate.service.ts`).

  The parts of a cache key stand for its text, and amounts for
  theirs.  An entry may expire and Redis may fail at any time.

  Main result: `cache_transparent_iff`
-/

-- Requests
----

namespace AccessLayer

namespace Keys

namespace KeySimulate

open Utils.BondingCurve

inductive SimulateSide where
  | buy
  | sell
  deriving DecidableEq

/- What a computation may fail with. -/
inductive SimulateError where
  | batchSizeExceedsLimit
  | quantityExceedsLimit
  | keyNotFound (keyId : String)
  | insufficientCirculatingSupply (quantity currentSupply : ℤ)
  /- the range error of a division by zero -/
  | divisionByZero

/- What the curve of a key is computed from. -/
structure SimulatedKey where
  id : String
  circulatingSupply : ℤ
  curveMilestones : List Milestone
  baseExponent : ℕ

/- One quantity, with what it costs or pays. -/
structure SingleSimulation where
  quantity : ℤ
  totalCost : ℤ
  pricePerUnit : ℤ
  priceImpact : String
  startPrice : ℤ
  endPrice : ℤ

structure SimulateTradeResult where
  keyId : String
  side : SimulateSide
  circulatingSupply : ℤ
  simulations : List SingleSimulation

/- Quantities are answered in their order. -/
structure SimulateRequest where
  keyId : String
  quantities : List ℤ
  side : SimulateSide

def MAX_QUANTITY : ℤ := 1000000

def MAX_BATCH_SIZE : ℕ := 20

/- The supply to the power of the exponent. -/
def getSpotPrice (supply : ℤ) (exponent : ℕ) : ℤ :=
  if supply ≤ 0 then 1000000 else 1000000 + supply ^ exponent * 100000

/- The keys by id or handle, and the text of a price impact. -/
structure SimulateEnv where
  creatorProfile : String → Option SimulatedKey
  impact : ℤ → ℤ → String

variable (env : SimulateEnv)

/- No more can be sold than is in circulation. -/
def simulateQuantity (key : SimulatedKey) (side : SimulateSide) (q : ℤ) :
    Except SimulateError SingleSimulation :=
  let currentSupply := key.circulatingSupply
  if side = .sell ∧ currentSupply < q then
    .error (.insufficientCirculatingSupply q currentSupply)
  else
    let startPrice := getSpotPrice currentSupply key.baseExponent
    let amounts :=
      match side with
      | .buy =>
        (computeBuyCostConstantTime currentSupply q key.curveMilestones key.baseExponent,
          getSpotPrice (currentSupply + q) key.baseExponent)
      | .sell =>
        (computeSellPayoutConstantTime currentSupply q key.curveMilestones key.baseExponent,
          getSpotPrice (max 0 (currentSupply - q)) key.baseExponent)
    if q = 0 then .error .divisionByZero
    else
      .ok
        { quantity := q
          totalCost := amounts.1
          pricePerUnit := amounts.1.tdiv q
          priceImpact := env.impact startPrice amounts.2
          startPrice
          endPrice := amounts.2 }

/- The limits are checked ahead of the cache. -/
def checkLimits (request : SimulateRequest) : Except SimulateError Unit :=
  if MAX_BATCH_SIZE < request.quantities.length then .error .batchSizeExceedsLimit
  else if ∃ q ∈ request.quantities, MAX_QUANTITY < q then .error .quantityExceedsLimit
  else .ok ()

/- The first failure ends the computation. -/
def computeSimulations (request : SimulateRequest) : Except SimulateError SimulateTradeResult :=
  match env.creatorProfile request.keyId with
  | none => .error (.keyNotFound request.keyId)
  | some key => do
    let simulations ← request.quantities.mapM (simulateQuantity env key request.side)
    .ok
      { keyId := key.id
        side := request.side
        circulatingSupply := key.circulatingSupply
        simulations }

/- What is answered without Redis. -/
def uncached (request : SimulateRequest) : Except SimulateError SimulateTradeResult := do
  checkLimits request
  computeSimulations env request

-- The Cache
----

/- The quantities are sorted in the key. -/
structure CacheKey where
  keyId : String
  side : SimulateSide
  sortedQuantities : List ℤ
  deriving DecidableEq

def SimulateRequest.cacheKey (request : SimulateRequest) : CacheKey where
  keyId := request.keyId
  side := request.side
  sortedQuantities := request.quantities.insertionSort (· ≤ ·)

abbrev SimulationCache := CacheKey → Option SimulateTradeResult

/- Whether the cache is reached by the read and by the write. -/
def simulateKeyTrade (reads writes : Bool) (request : SimulateRequest) (cache : SimulationCache) :
    Except SimulateError SimulateTradeResult × SimulationCache :=
  match checkLimits request with
  | .error e => (.error e, cache)
  | .ok () =>
    match if reads then cache request.cacheKey else none with
    | some result => (.ok result, cache)
    | none =>
      match computeSimulations env request with
      | .error e => (.error e, cache)
      | .ok result =>
        (.ok result, if writes then Function.update cache request.cacheKey (some result) else cache)

/- A request, or the expiry of an entry. -/
inductive SimulationMove where
  | request (reads writes : Bool) (request : SimulateRequest)
  | expire (key : CacheKey)

/- The requests of a run, with their responses. -/
def responses (cache : SimulationCache) : List SimulationMove →
    List (SimulateRequest × Except SimulateError SimulateTradeResult)
  | [] => []
  | .request reads writes request :: rest =>
    let after := simulateKeyTrade env reads writes request cache
    (request, after.1) :: responses after.2 rest
  | .expire key :: rest => responses (Function.update cache key none) rest

def SimulateTradeResult.quantities (result : SimulateTradeResult) : List ℤ :=
  result.simulations.map SingleSimulation.quantity

/- What is found was stored for the same order. -/
def Aligned (cache : SimulationCache) : List SimulationMove → Prop
  | [] => True
  | .request reads writes request :: rest =>
    (reads = true → checkLimits request = .ok () →
      ∀ result ∈ cache request.cacheKey, result.quantities = request.quantities) ∧
      Aligned (simulateKeyTrade env reads writes request cache).2 rest
  | .expire key :: rest => Aligned (Function.update cache key none) rest

/- Each entry answers a request with its key. -/
def CacheSound (cache : SimulationCache) : Prop :=
  ∀ key, ∀ result ∈ cache key, ∃ request : SimulateRequest,
    request.cacheKey = key ∧ computeSimulations env request = .ok result

-- Transparency
----

variable {env} {cache : SimulationCache} {request : SimulateRequest}
variable {result : SimulateTradeResult} {reads writes : Bool}

/- By induction on the quantities. -/
theorem quantities_mapM {key : SimulatedKey} {side : SimulateSide} {quantities : List ℤ}
    {simulations : List SingleSimulation}
    (hRun : quantities.mapM (simulateQuantity env key side) = .ok simulations) :
    simulations.map SingleSimulation.quantity = quantities := by
  induction quantities generalizing simulations with
  | nil =>
    cases hRun
    rfl
  | cons q rest ih =>
    rw [List.mapM_cons] at hRun
    cases hFirst : simulateQuantity env key side q with
    | error e =>
      rw [hFirst] at hRun
      cases hRun
    | ok simulation =>
      have hQuantity : simulation.quantity = q := by
        unfold simulateQuantity at hFirst
        dsimp only at hFirst
        split_ifs at hFirst
        cases hFirst
        rfl
      cases hRest : rest.mapM (simulateQuantity env key side) with
      | error e =>
        rw [hFirst, hRest] at hRun
        cases hRun
      | ok simulations' =>
        rw [hFirst, hRest] at hRun
        cases hRun
        rw [List.map_cons, hQuantity, ih hRest]

/- The answer is in the order of the request. -/
theorem quantities_computeSimulations (hCompute : computeSimulations env request = .ok result) :
    result.quantities = request.quantities := by
  unfold computeSimulations at hCompute
  cases hKey : env.creatorProfile request.keyId with
  | none =>
    rw [hKey] at hCompute
    cases hCompute
  | some key =>
    rw [hKey] at hCompute
    cases hRun : request.quantities.mapM (simulateQuantity env key request.side) with
    | error e =>
      simp only [hRun] at hCompute
      cases hCompute
    | ok simulations =>
      simp only [hRun] at hCompute
      cases hCompute
      exact quantities_mapM hRun

theorem uncached_of_checked (hChecked : checkLimits request = .ok ()) :
    uncached env request = computeSimulations env request := by
  unfold uncached
  rw [hChecked]
  rfl

/- An entry is put in place of another, or expires. -/
theorem CacheSound.update (hSound : CacheSound env cache) {key : CacheKey}
    {entry : Option SimulateTradeResult} (hEntry : ∀ result ∈ entry, ∃ request : SimulateRequest,
      request.cacheKey = key ∧ computeSimulations env request = .ok result) :
    CacheSound env (Function.update cache key entry) := by
  intro key' result hResult
  by_cases hKey : key' = key
  · subst hKey
    rw [Function.update_self] at hResult
    exact hEntry result hResult
  · rw [Function.update_of_ne hKey] at hResult
    exact hSound key' result hResult

/- Whatever is stored was computed for its key. -/
theorem CacheSound.simulate (hSound : CacheSound env cache) :
    CacheSound env (simulateKeyTrade env reads writes request cache).2 := by
  unfold simulateKeyTrade
  split
  · exact hSound
  · split
    · exact hSound
    · split
      · exact hSound
      · rename_i result hCompute
        cases writes with
        | false => exact hSound
        | true =>
          refine hSound.update ?_
          rintro _ ⟨⟩
          exact ⟨request, rfl, hCompute⟩

/- An entry answers exactly the requests in its own order. -/
theorem CacheSound.entry_eq_iff (hSound : CacheSound env cache)
    (hEntry : cache request.cacheKey = some result) :
    computeSimulations env request = .ok result ↔ result.quantities = request.quantities := by
  rcases hSound _ _ hEntry with ⟨stored, hKey, hStored⟩
  constructor
  · exact quantities_computeSimulations
  · intro hSame
    have hOrder := quantities_computeSimulations hStored
    have hRequest : stored = request := by
      rcases stored with ⟨keyId, quantities, side⟩
      rcases request with ⟨keyId', quantities', side'⟩
      injection hKey with hId hSide
      dsimp only at hId hSide hSame hOrder
      rw [hId, hSide, ← hOrder, hSame]
    rw [← hRequest]
    exact hStored

/- A hit is right if it has the order of the request. -/
theorem CacheSound.response_eq_iff (hSound : CacheSound env cache) :
    (simulateKeyTrade env reads writes request cache).1 = uncached env request ↔
      (reads = true → checkLimits request = .ok () →
        ∀ result ∈ cache request.cacheKey, result.quantities = request.quantities) := by
  unfold simulateKeyTrade
  cases hChecked : checkLimits request with
  | error e =>
    have hUncached : uncached env request = .error e := by
      unfold uncached
      rw [hChecked]
      rfl
    constructor
    · intro _ _ hOk
      cases hOk
    · intro _
      exact hUncached.symm
  | ok _ =>
    rw [uncached_of_checked hChecked]
    cases reads with
    | false =>
      constructor
      · intro _ hReads
        cases hReads
      · intro _
        cases computeSimulations env request <;> rfl
    | true =>
      cases hEntry : cache request.cacheKey with
      | none =>
        constructor
        · rintro - - - _ ⟨⟩
        · intro _
          rw [if_pos rfl]
          cases computeSimulations env request <;> rfl
      | some result =>
        rw [if_pos rfl, eq_comm, hSound.entry_eq_iff hEntry]
        constructor
        · rintro hSame - - _ ⟨⟩
          exact hSame
        · intro hSame
          exact hSame rfl rfl result rfl

/- By induction on the moves. -/
theorem transparent_iff_of_sound (hSound : CacheSound env cache) (moves : List SimulationMove) :
    (∀ answered ∈ responses env cache moves, answered.2 = uncached env answered.1) ↔
      Aligned env cache moves := by
  induction moves generalizing cache with
  | nil =>
    constructor
    · intro _
      trivial
    · rintro - _ ⟨⟩
  | cons move rest ih =>
    cases move with
    | request reads writes request =>
      rw [responses, Aligned, List.forall_mem_cons, ih hSound.simulate, hSound.response_eq_iff]
    | expire key =>
      rw [responses, Aligned]
      refine ih (hSound.update ?_)
      rintro _ ⟨⟩

/- What follows of a response that is as without the cache. -/
theorem quantities_uncached (hUncached : uncached env request = .ok result) :
    result.quantities = request.quantities := by
  cases hChecked : checkLimits request with
  | error e =>
    unfold uncached at hUncached
    rw [hChecked] at hUncached
    cases hUncached
  | ok _ =>
    rw [uncached_of_checked hChecked] at hUncached
    exact quantities_computeSimulations hUncached

/-
  The cache shows where an entry is read by a request that lists
  its quantities in another order.
-/
theorem cache_transparent_iff (env : SimulateEnv) (moves : List SimulationMove) :
    (∀ answered ∈ responses env (fun _ => none) moves, answered.2 = uncached env answered.1 ∧
      ∀ result, answered.2 = .ok result → result.quantities = answered.1.quantities) ↔
      Aligned env (fun _ => none) moves := by
  have hSound : CacheSound env fun _ => none := by rintro _ _ ⟨⟩
  rw [← transparent_iff_of_sound hSound]
  constructor
  · intro hAll answered hMem
    exact (hAll answered hMem).1
  · intro hAll answered hMem
    refine ⟨hAll answered hMem, fun result hResult => ?_⟩
    rw [hAll answered hMem] at hResult
    exact quantities_uncached hResult

section

/- A key with four units, and the requests of two and one units. -/
def sampleEnv : SimulateEnv where
  creatorProfile := fun _ => some ⟨"key", 4, [], 1⟩
  impact := fun _ _ => "0.00%"

def sampleRequests : List SimulationMove :=
  [.request true true ⟨"key", [1, 2], .buy⟩, .request true true ⟨"key", [2, 1], .buy⟩]

/- Both orders of the quantities have one cache key. -/
theorem reordered_request_misread :
    ¬∀ answered ∈ responses sampleEnv (fun _ => none) sampleRequests,
      answered.2 = uncached sampleEnv answered.1 ∧
        ∀ result, answered.2 = .ok result → result.quantities = answered.1.quantities := by
  intro hAll
  have hEntry := (hAll _ (List.mem_cons_of_mem _ List.mem_cons_self)).2 _ rfl
  revert hEntry
  decide +kernel

end

end KeySimulate

end Keys

end AccessLayer
