import AccessLayer.Library.Runs
import Mathlib.Order.Basic

/-
  Consuming the nonces of a wallet
  (`src/modules/nonce/nonce.service.ts`,
  `src/modules/nonce/nonce.contract.ts`).

  The calls of one wallet interleave between any two awaits.
  Redis may fail any command, cached entries lapse, and the
  nonce registry contract answers as it likes.  Keys of Redis
  are kept by what they are about; logs, the stored action and
  its time are left out.

  Main result: `nonce_single_use`
-/

-- Calls
----

namespace AccessLayer

namespace Nonce

open Transactional

section

/-
  What a process and Redis keep of a wallet: its consumed
  nonces in memory, its tracked nonce, and its entries under
  `nonce:consumed` and `nonce:current`.  `contract` is what
  `fetchNonceFromContract` would answer.
-/
structure NonceStore where
  inMemoryConsumedNonces : List Nat
  trackedOnChainNonce : Option Nat
  consumed : List Nat
  current : Option Nat
  contract : Option Nat
  deriving DecidableEq

inductive NonceError where
  | nonceAlreadyConsumed (wallet : String) (nonce : Nat)
  | nonceMismatch (wallet : String) (expectedNonce providedNonce : Nat)
  deriving DecidableEq

def NonceError.status : NonceError → Nat
  | .nonceAlreadyConsumed _ _ => 409
  | .nonceMismatch _ _ _ => 400

def NonceError.message : NonceError → String
  | .nonceAlreadyConsumed wallet nonce =>
    "Nonce " ++ toString nonce ++ " for wallet " ++ wallet ++ " has already been consumed"
  | .nonceMismatch wallet expectedNonce providedNonce =>
    "Invalid nonce for wallet " ++ wallet ++ ": expected " ++
      toString expectedNonce ++ ", received " ++ toString providedNonce

/- Where a call of `consumeWalletNonce` goes on. -/
inductive Stage where
  | isNonceConsumed
  | getCurrent
  | fetchNonceFromContract
  | getTrackedOnChainNonce
  | setCurrent (onChainNonce : Nat)
  | compare (current : Nat)
  | setConsumed
  | setTrackedOnChainNonce
  | invalidateCurrent
  | accepted (nextNonce : Nat)
  | rejected (error : NonceError)
  deriving DecidableEq

structure ConsumeCall where
  nonce : Nat
  stage : Stage
  deriving DecidableEq

/- The call up to its first await. -/
def consumeWalletNonce (wallet : String) (store : NonceStore) (nonce : Nat) : ConsumeCall where
  nonce := nonce
  stage :=
    if nonce ∈ store.inMemoryConsumedNonces then
      .rejected (.nonceAlreadyConsumed wallet nonce)
    else .isNonceConsumed

/- Insertion into a set. -/
def add (nonce : Nat) (nonces : List Nat) : List Nat :=
  if nonce ∈ nonces then nonces else nonces ++ [nonce]

/-
  The next step of a call.  A command that Redis does not serve
  reads nothing and writes nothing.
-/
def resume (wallet : String) (served : Bool) (store : NonceStore)
    (nonce : Nat) : Stage → Option (NonceStore × Stage)
  | .isNonceConsumed =>
    if served ∧ nonce ∈ store.consumed then
      some (store, .rejected (.nonceAlreadyConsumed wallet nonce))
    else some (store, .getCurrent)
  | .getCurrent =>
    match served, store.current with
    | true, some current => some (store, .compare current)
    | _, _ => some (store, .fetchNonceFromContract)
  | .fetchNonceFromContract =>
    match store.contract with
    | some onChain => some (store, .setCurrent onChain)
    | none => some (store, .getTrackedOnChainNonce)
  | .getTrackedOnChainNonce => some (store, .setCurrent (store.trackedOnChainNonce.getD 0))
  | .setCurrent onChainNonce =>
    some ({ store with
        current :=
          if served then some onChainNonce
          else store.current },
        .compare onChainNonce)
  | .compare current =>
    if nonce < current then
      some (store, .rejected (.nonceAlreadyConsumed wallet nonce))
    else if nonce ≠ current then
      some (store, .rejected (.nonceMismatch wallet current nonce))
    else
      some ({ store with
          inMemoryConsumedNonces := add nonce store.inMemoryConsumedNonces }, .setConsumed)
  | .setConsumed =>
    some ({ store with
        consumed :=
          if served then add nonce store.consumed
          else store.consumed },
        .setTrackedOnChainNonce)
  | .setTrackedOnChainNonce =>
    some ({ store with trackedOnChainNonce := some (nonce + 1) }, .invalidateCurrent)
  | .invalidateCurrent =>
    some ({ store with
        current := if served then none else store.current }, .accepted (nonce + 1))
  | .accepted _ => none
  | .rejected _ => none

structure NonceWorld where
  store : NonceStore
  calls : List ConsumeCall
  deriving DecidableEq

inductive NonceMove where
  | arrive (nonce : Nat)
  | resume (i : Nat) (served : Bool)
  | lapseCurrent
  | lapseConsumed (nonce : Nat)
  | contract (answer : Option Nat)

/- A process that has just started, and an empty cache. -/
def NonceWorld.start (contract : Option Nat) : NonceWorld where
  store := {
    inMemoryConsumedNonces := []
    trackedOnChainNonce := none
    consumed := []
    current := none
    contract }
  calls := []

def NonceWorld.step (wallet : String) (world : NonceWorld) : NonceMove → Option NonceWorld
  | .arrive nonce =>
    some { world with
      calls := world.calls ++ [consumeWalletNonce wallet world.store nonce] }
  | .resume i served =>
    match world.calls[i]? with
    | some call =>
      match Nonce.resume wallet served world.store call.nonce call.stage with
      | some (store, stage) =>
        some {
          store
          calls := world.calls.set i { call with stage } }
      | none => none
    | none => none
  | .lapseCurrent =>
    some { world with
      store := { world.store with current := none } }
  | .lapseConsumed nonce =>
    some { world with
      store := { world.store with
        consumed := world.store.consumed.filter (· ≠ nonce) } }
  | .contract answer =>
    some { world with
      store := { world.store with contract := answer } }

/- What the provider answers. -/
def NonceStore.onChainNonce (store : NonceStore) : Nat :=
  store.contract.getD (store.trackedOnChainNonce.getD 0)

/- The nonce that `getWalletNonce` reports. -/
def NonceStore.expectedNonce (store : NonceStore) : Nat := store.current.getD store.onChainNonce

-- Coherent Worlds
----

/- The call has passed its checks and will be accepted. -/
def Stage.isRecorded : Stage → Bool
  | .setConsumed => true
  | .setTrackedOnChainNonce => true
  | .invalidateCurrent => true
  | .accepted _ => true
  | _ => false

def Stage.isAccepted : Stage → Bool
  | .accepted _ => true
  | _ => false

/- Recorded, but the tracked nonce has not been advanced. -/
def Stage.isPending : Stage → Bool
  | .setConsumed => true
  | .setTrackedOnChainNonce => true
  | _ => false

/- The nonce a call holds as the current one. -/
def Stage.held : Stage → Option Nat
  | .setCurrent onChainNonce => some onChainNonce
  | .compare current => some current
  | _ => none

def AcceptedOnce (world : NonceWorld) : Prop :=
  ∀ (i j : Nat) one other, world.calls[i]? = some one → world.calls[j]? = some other →
    one.stage.isAccepted = true → other.stage.isAccepted = true → one.nonce = other.nonce → i = j

/- A call records its nonce while no other call has, and caches what the provider still answers. -/
def Stage.Undisturbed (served : Bool) (store : NonceStore) (nonce : Nat) : Stage → Prop
  | .compare current => nonce = current → nonce ∉ store.inMemoryConsumedNonces
  | .setCurrent onChainNonce => served = true → onChainNonce = store.onChainNonce
  | _ => True

/- The contract answers always or never, and never goes down. -/
def Succeeds : Option Nat → Option Nat → Prop
  | none, none => True
  | some before, some after => before ≤ after
  | _, _ => False

def Undisturbed (world : NonceWorld) : NonceMove → Prop
  | .resume i served =>
    ∀ call ∈ world.calls[i]?, call.stage.Undisturbed served world.store call.nonce
  | .contract answer => Succeeds world.store.contract answer
  | _ => True

instance (served : Bool) (store : NonceStore) (nonce : Nat) (stage : Stage) :
    Decidable (stage.Undisturbed served store nonce) :=
  match stage with
  | .compare _ => inferInstanceAs (Decidable (_ = _ → _ ∉ _))
  | .setCurrent _ => inferInstanceAs (Decidable (_ = true → _ = _))
  | .isNonceConsumed | .getCurrent | .fetchNonceFromContract
  | .getTrackedOnChainNonce | .setConsumed
  | .setTrackedOnChainNonce | .invalidateCurrent | .accepted _
  | .rejected _ => isTrue trivial

instance (before after : Option Nat) : Decidable (Succeeds before after) :=
  match before, after with
  | none, none => isTrue trivial
  | some _, some _ => inferInstanceAs (Decidable (_ ≤ _))
  | none, some _ => isFalse id
  | some _, none => isFalse id

instance (world : NonceWorld) (move : NonceMove) : Decidable (Undisturbed world move) :=
  match move with
  | .resume i served =>
    match hCall : world.calls[i]? with
    | none => isTrue (by simp [Undisturbed, hCall])
    | some call =>
      decidable_of_iff (call.stage.Undisturbed served world.store call.nonce)
        (by simp [Undisturbed, hCall])
  | .contract _ => inferInstanceAs (Decidable (Succeeds _ _))
  | .arrive _ | .lapseCurrent | .lapseConsumed _ => isTrue trivial

/-
  Without a contract the tracked nonce is the first that is not
  recorded, or the one that is being recorded.
-/
structure NonceStore.Coherent (store : NonceStore) : Prop where
  cached : ∀ current, store.current = some current → current ≤ store.onChainNonce
  below : store.contract = none → ∀ nonce < store.onChainNonce, nonce ∈ store.inMemoryConsumedNonces
  above : store.contract = none → ∀ nonce ∈ store.inMemoryConsumedNonces, nonce ≤ store.onChainNonce

structure ConsumeCall.Coherent (store : NonceStore) (call : ConsumeCall) : Prop where
  recorded : call.stage.isRecorded = true → call.nonce ∈ store.inMemoryConsumedNonces
  pending : store.contract = none → call.stage.isPending = true → call.nonce = store.onChainNonce
  held : store.contract = none → ∀ nonce, call.stage.held = some nonce → nonce ≤ store.onChainNonce

structure NonceWorld.Coherent (world : NonceWorld) : Prop where
  store : world.store.Coherent
  calls : ∀ call ∈ world.calls, call.Coherent world.store
  distinct : ∀ (i j : Nat) one other, world.calls[i]? = some one → world.calls[j]? = some other →
    one.stage.isRecorded = true → other.stage.isRecorded = true → one.nonce = other.nonce → i = j

variable {stage : Stage}

theorem isRecorded_of_isAccepted (hAccepted : stage.isAccepted = true) :
    stage.isRecorded = true := by
  cases stage with
  | accepted nextNonce => rfl
  | _ => simp [Stage.isAccepted] at hAccepted

theorem isRecorded_of_isPending (hPending : stage.isPending = true) : stage.isRecorded = true := by
  cases stage with
  | setConsumed => rfl
  | setTrackedOnChainNonce => rfl
  | _ => simp [Stage.isPending] at hPending

theorem NonceWorld.Coherent.acceptedOnce {world : NonceWorld} (hCoherent : world.Coherent) :
    AcceptedOnce world := by
  intro i j one other hOne hOther hAccepted hOtherAccepted hSame
  exact hCoherent.distinct i j one other hOne hOther (isRecorded_of_isAccepted hAccepted)
    (isRecorded_of_isAccepted hOtherAccepted) hSame

theorem coherent_start (contract : Option Nat) : (NonceWorld.start contract).Coherent where
  store := {
    cached := by
      intro current hCurrent
      cases hCurrent
    below := by
      intro hNone nonce hLess
      have hContract : contract = none := hNone
      simp [NonceWorld.start, NonceStore.onChainNonce, hContract] at hLess
    above := by
      intro _ nonce hMem
      cases hMem }
  calls := by
    intro call hMem
    cases hMem
  distinct := by
    intro i j one other hOne
    simp [NonceWorld.start] at hOne

theorem coherent_idle (store : NonceStore) {call : ConsumeCall}
    (hRecorded : call.stage.isRecorded = false) (hHeld : call.stage.held = none) :
    call.Coherent store where
  recorded := by
    intro h
    rw [hRecorded] at h
    cases h
  pending := by
    intro _ hPending
    rw [isRecorded_of_isPending hPending] at hRecorded
    cases hRecorded
  held := by
    intro _ nonce h
    rw [hHeld] at h
    cases h

theorem mem_add {nonce other : Nat} {nonces : List Nat} :
    other ∈ add nonce nonces ↔ other = nonce ∨ other ∈ nonces := by
  unfold add
  split
  · constructor
    · exact Or.inr
    · rintro (rfl | hMem)
      · assumption
      · exact hMem
  · simp [or_comm]

variable {world : NonceWorld}

theorem coherent_set {i : Nat} {store : NonceStore} {call : ConsumeCall}
    (hCoherent : world.Coherent) (hStore : store.Coherent) (hCall : call.Coherent store)
    (hOthers : ∀ (j : Nat) other, j ≠ i → world.calls[j]? = some other → other.Coherent store)
    (hDistinct :
      call.stage.isRecorded = true → ∀ (j : Nat) other, j ≠ i → world.calls[j]? = some other →
        other.stage.isRecorded = true → other.nonce ≠ call.nonce) :
    NonceWorld.Coherent
      { store, calls := world.calls.set i call } where
  store := hStore
  calls := by
    intro one hMem
    rcases List.mem_iff_getElem?.mp hMem with ⟨j, hOne⟩
    rcases getElem?_set_cases hOne with ⟨-, rfl⟩ | ⟨hNe, hOld⟩
    · exact hCall
    · exact hOthers j one hNe hOld
  distinct := by
    intro j k one other hOne hOther hRecorded hOtherRecorded hSame
    rcases getElem?_set_cases hOne with ⟨rfl, rfl⟩ | ⟨hj, hOneOld⟩
    · rcases getElem?_set_cases hOther with ⟨rfl, -⟩ | ⟨hk, hOtherOld⟩
      · rfl
      · exact absurd hSame.symm (hDistinct hRecorded k other hk hOtherOld hOtherRecorded)
    · rcases getElem?_set_cases hOther with ⟨rfl, rfl⟩ | ⟨hk, hOtherOld⟩
      · exact absurd hSame (hDistinct hOtherRecorded j one hj hOneOld hRecorded)
      · exact hCoherent.distinct j k one other hOneOld hOtherOld hRecorded hOtherRecorded hSame

end

-- Undisturbed Runs
----

variable {wallet : String} {world world' : NonceWorld} {served : Bool} {store store' : NonceStore}
variable {stage : Stage}

/- What a step of a call reads, and what it writes. -/
theorem resume_cases {nonce : Nat} {stage' : Stage}
    (hResume : resume wallet served store nonce stage = some (store', stage')) :
    (store' = store ∧ stage'.isRecorded = false ∧ ∀ n, stage'.held = some n →
      store.current = some n ∨ store.contract = some n ∨ n = store.trackedOnChainNonce.getD 0) ∨
    (∃ n, stage = .setCurrent n ∧ stage' = .compare n ∧ store' = { store with
        current := if served then some n else store.current }) ∨ (stage = .compare nonce ∧
      stage' = .setConsumed ∧
      store' = { store with
        inMemoryConsumedNonces := add nonce store.inMemoryConsumedNonces }) ∨
    (stage = .setConsumed ∧ stage' = .setTrackedOnChainNonce ∧ store' = { store with
        consumed :=
          if served then add nonce store.consumed
          else store.consumed }) ∨
    (stage = .setTrackedOnChainNonce ∧ stage' = .invalidateCurrent ∧ store' = { store with
        trackedOnChainNonce := some (nonce + 1) }) ∨
    (stage = .invalidateCurrent ∧ stage' = .accepted (nonce + 1) ∧ store' = { store with
        current := if served then none else store.current }) := by
  cases stage with
  | isNonceConsumed =>
    left
    simp only [resume] at hResume
    split at hResume
    · cases hResume
      exact ⟨rfl, rfl, by simp [Stage.held]⟩
    · cases hResume
      exact ⟨rfl, rfl, by simp [Stage.held]⟩
  | getCurrent =>
    left
    simp only [resume] at hResume
    split at hResume
    · rename_i current hCurrent
      cases hResume
      refine ⟨rfl, rfl, ?_⟩
      intro n hHeld
      rw [hCurrent]
      exact Or.inl hHeld
    · cases hResume
      exact ⟨rfl, rfl, by simp [Stage.held]⟩
  | fetchNonceFromContract =>
    left
    simp only [resume] at hResume
    split at hResume
    · rename_i onChain hContract
      cases hResume
      refine ⟨rfl, rfl, ?_⟩
      intro n hHeld
      rw [hContract]
      exact Or.inr (Or.inl hHeld)
    · cases hResume
      exact ⟨rfl, rfl, by simp [Stage.held]⟩
  | getTrackedOnChainNonce =>
    left
    cases hResume
    refine ⟨rfl, rfl, ?_⟩
    intro n hHeld
    cases hHeld
    exact Or.inr (Or.inr rfl)
  | setCurrent onChainNonce =>
    right; left
    cases hResume
    exact ⟨onChainNonce, rfl, rfl, rfl⟩
  | compare current =>
    simp only [resume] at hResume
    split at hResume
    · left
      cases hResume
      exact ⟨rfl, rfl, by simp [Stage.held]⟩
    · split at hResume
      · left
        cases hResume
        exact ⟨rfl, rfl, by simp [Stage.held]⟩
      · rename_i hSame
        rw [not_not] at hSame
        right; right; left
        cases hResume
        exact ⟨by rw [hSame], rfl, rfl⟩
  | setConsumed =>
    right; right; right; left
    cases hResume
    exact ⟨rfl, rfl, rfl⟩
  | setTrackedOnChainNonce =>
    right; right; right; right; left
    cases hResume
    exact ⟨rfl, rfl, rfl⟩
  | invalidateCurrent =>
    right; right; right; right; right
    cases hResume
    exact ⟨rfl, rfl, rfl⟩
  | accepted nextNonce => cases hResume
  | rejected error => cases hResume

/- What is cached does not exceed what the provider answers. -/
theorem NonceStore.Coherent.expectedNonce_le (hStore : store.Coherent) :
    store.expectedNonce ≤ store.onChainNonce := by
  unfold NonceStore.expectedNonce
  cases hCurrent : store.current with
  | none => exact Nat.le_refl _
  | some current => exact hStore.cached current hCurrent

variable {current : Option Nat}

/- The cached entry may change, to nothing beyond the answer. -/
theorem coherent_cache (hStore : store.Coherent)
    (hCurrent : ∀ n, current = some n → n ≤ store.onChainNonce) :
    NonceStore.Coherent { store with current } where
  cached := hCurrent
  below := hStore.below
  above := hStore.above

/- Calls do not look at the entries in Redis. -/
theorem coherent_call_congr {call : ConsumeCall} (hCall : call.Coherent store)
    (hMemory : store'.inMemoryConsumedNonces = store.inMemoryConsumedNonces)
    (hTracked : store'.trackedOnChainNonce = store.trackedOnChainNonce)
    (hContract : store'.contract = store.contract) :
    call.Coherent store' := by
  have hOnChain : store'.onChainNonce = store.onChainNonce := by
    unfold NonceStore.onChainNonce
    rw [hTracked, hContract]
  constructor
  · rw [hMemory]
    exact hCall.recorded
  · rw [hContract, hOnChain]
    exact hCall.pending
  · rw [hContract, hOnChain]
    exact hCall.held

variable {i : Nat} {call : ConsumeCall}

theorem NonceWorld.Coherent.of_getElem? (hCoherent : world.Coherent)
    (hCall : world.calls[i]? = some call) : call.Coherent world.store :=
  hCoherent.calls call (List.mem_of_getElem? hCall)

theorem distinct_of_recorded (hCoherent : world.Coherent)
    (hCall : world.calls[i]? = some call) (hRecorded : call.stage.isRecorded = true) :
    ({ call with stage } : ConsumeCall).stage.isRecorded = true → ∀ (j : Nat) other, j ≠ i →
      world.calls[j]? = some other → other.stage.isRecorded = true →
      other.nonce ≠ call.nonce := by
  intro _ j other hNe hOther hOtherRecorded hSame
  exact hNe (hCoherent.distinct j i other call hOther hCall hOtherRecorded hRecorded hSame)

/-
  Without a contract, a nonce that is recorded first is the
  tracked one: smaller nonces are recorded already.
-/
theorem coherent_record (hCoherent : world.Coherent) (hCall : world.calls[i]? = some call)
    (hStage : call.stage = .compare call.nonce)
    (hFresh : call.nonce ∉ world.store.inMemoryConsumedNonces) :
    NonceWorld.Coherent {
      store := { world.store with
        inMemoryConsumedNonces := add call.nonce world.store.inMemoryConsumedNonces }
      calls :=
        world.calls.set i { call with stage := .setConsumed } } := by
  have hLe : world.store.contract = none →
      call.nonce ≤ world.store.onChainNonce := by
    intro hNone
    exact (hCoherent.of_getElem? hCall).held hNone call.nonce (by rw [hStage]; rfl)
  have hTracked : world.store.contract = none →
      call.nonce = world.store.onChainNonce := by
    intro hNone
    by_contra hNe
    have hLess := lt_of_le_of_ne (hLe hNone) hNe
    exact hFresh (hCoherent.store.below hNone _ hLess)
  apply coherent_set hCoherent
  · constructor
    · exact hCoherent.store.cached
    · intro hNone nonce hLess
      exact mem_add.mpr (Or.inr (hCoherent.store.below hNone nonce hLess))
    · intro hNone nonce hMem
      rcases mem_add.mp hMem with rfl | hOld
      · exact hLe hNone
      · exact hCoherent.store.above hNone nonce hOld
  · constructor
    · intro _
      exact mem_add.mpr (Or.inl rfl)
    · intro hNone _
      exact hTracked hNone
    · intro _ nonce hHeld
      cases hHeld
  · intro j other _ hOther
    have hOld := hCoherent.of_getElem? hOther
    constructor
    · intro hRecorded
      exact mem_add.mpr (Or.inr (hOld.recorded hRecorded))
    · exact hOld.pending
    · exact hOld.held
  · intro _ j other _ hOther hRecorded hSame
    have hMem := (hCoherent.of_getElem? hOther).recorded hRecorded
    rw [hSame] at hMem
    exact hFresh hMem

/-
  The recorded nonce is the tracked one, so that the tracked
  nonce advances by one and no other call is left to advance it.
-/
theorem coherent_track (hCoherent : world.Coherent) (hCall : world.calls[i]? = some call)
    (hStage : call.stage = .setTrackedOnChainNonce) :
    NonceWorld.Coherent {
      store := { world.store with
        trackedOnChainNonce := some (call.nonce + 1) }
      calls := world.calls.set i { call with stage := .invalidateCurrent } } ∧
    world.store.onChainNonce ≤ NonceStore.onChainNonce { world.store with
          trackedOnChainNonce := some (call.nonce + 1) } := by
  have hRecorded : call.stage.isRecorded = true := by
    rw [hStage]
    rfl
  have hMem := (hCoherent.of_getElem? hCall).recorded hRecorded
  have hTracked : world.store.contract = none →
      call.nonce = world.store.onChainNonce := by
    intro hNone
    exact (hCoherent.of_getElem? hCall).pending hNone (by rw [hStage]; rfl)
  have hAfter : world.store.contract = none → NonceStore.onChainNonce { world.store with
              trackedOnChainNonce := some (call.nonce + 1) } =
          call.nonce + 1 := by
    intro hNone
    simp [NonceStore.onChainNonce, hNone]
  have hGrows : world.store.onChainNonce ≤ NonceStore.onChainNonce { world.store with
            trackedOnChainNonce := some (call.nonce + 1) } := by
    cases hContract : world.store.contract with
    | none =>
      rw [hAfter hContract, ← hTracked hContract]
      exact Nat.le_succ _
    | some onChain => simp [NonceStore.onChainNonce, hContract]
  refine ⟨?_, hGrows⟩
  apply coherent_set hCoherent
  · constructor
    · intro current hCurrent
      exact (hCoherent.store.cached current hCurrent).trans hGrows
    · intro hNone nonce hLess
      rw [hAfter hNone] at hLess
      rcases Nat.lt_succ_iff_lt_or_eq.mp hLess with hOld | rfl
      · rw [hTracked hNone] at hOld
        exact hCoherent.store.below hNone nonce hOld
      · exact hMem
    · intro hNone nonce hNonce
      exact (hCoherent.store.above hNone nonce hNonce).trans hGrows
  · constructor
    · intro _
      exact hMem
    · intro _ hPending
      cases hPending
    · intro _ nonce hHeld
      cases hHeld
  · intro j other hNe hOther
    have hOld := hCoherent.of_getElem? hOther
    constructor
    · exact hOld.recorded
    · intro hNone hPending
      have hSame := (hOld.pending hNone hPending).trans (hTracked hNone).symm
      exact absurd (hCoherent.distinct j i other call hOther hCall
        (isRecorded_of_isPending hPending) hRecorded hSame) hNe
    · intro hNone nonce hHeld
      exact (hOld.held hNone nonce hHeld).trans hGrows
  · exact distinct_of_recorded hCoherent hCall hRecorded

theorem coherent_read (hCoherent : world.Coherent) (hRecorded : stage.isRecorded = false) (hHeld :
    ∀ n, stage.held = some n → world.store.current = some n ∨ world.store.contract = some n ∨
      n = world.store.trackedOnChainNonce.getD 0) :
    NonceWorld.Coherent {
      store := world.store
      calls := world.calls.set i { call with stage } } := by
  apply coherent_set hCoherent hCoherent.store
  · constructor
    · intro h
      exact absurd h (by simp [hRecorded])
    · intro _ hPending
      exact absurd (isRecorded_of_isPending hPending) (by simp [hRecorded])
    · intro hNone n hn
      rcases hHeld n hn with hCurrent | hContract | rfl
      · exact hCoherent.store.cached n hCurrent
      · rw [hNone] at hContract
        cases hContract
      · simp [NonceStore.onChainNonce, hNone]
  · intro j other _ hOther
    exact hCoherent.of_getElem? hOther
  · intro h
    exact absurd h (by simp [hRecorded])

/- An answer of the provider is cached, or the cache is cleared. -/
theorem coherent_setCurrent (hCoherent : world.Coherent)
    (hCurrent : ∀ n, current = some n → n ≤ world.store.onChainNonce)
    (hOwn : ConsumeCall.Coherent { world.store with current } { call with stage })
    (hDistinct : stage.isRecorded = true → ∀ (j : Nat) other, j ≠ i → world.calls[j]? = some other →
      other.stage.isRecorded = true → other.nonce ≠ call.nonce) :
    NonceWorld.Coherent {
      store := { world.store with current }
      calls := world.calls.set i { call with stage } } := by
  apply coherent_set hCoherent
  · exact coherent_cache hCoherent.store hCurrent
  · exact hOwn
  · intro j other _ hOther
    exact coherent_call_congr (hCoherent.of_getElem? hOther) rfl rfl rfl
  · exact hDistinct

/- The copy in Redis of the recorded nonces is not looked at. -/
theorem coherent_setConsumed (hCoherent : world.Coherent)
    (hCall : world.calls[i]? = some call) (hStage : call.stage = .setConsumed)
    (consumed : List Nat) :
    NonceWorld.Coherent {
      store := { world.store with consumed }
      calls :=
        world.calls.set i
          { call with stage := .setTrackedOnChainNonce } } := by
  have hOld := hCoherent.of_getElem? hCall
  apply coherent_set hCoherent
  · exact ⟨hCoherent.store.cached, hCoherent.store.below, hCoherent.store.above⟩
  · constructor
    · intro _
      exact hOld.recorded (by rw [hStage]; rfl)
    · intro hNone _
      exact hOld.pending hNone (by rw [hStage]; rfl)
    · intro _ m hm
      cases hm
  · intro j other _ hOther
    exact coherent_call_congr (hCoherent.of_getElem? hOther) rfl rfl rfl
  · exact distinct_of_recorded hCoherent hCall (by rw [hStage]; rfl)

theorem coherent_resume (hCoherent : world.Coherent) (hCall : world.calls[i]? = some call)
    (hUndisturbed : call.stage.Undisturbed served world.store call.nonce)
    (hResume : resume wallet served world.store call.nonce call.stage = some (store, stage)) :
    NonceWorld.Coherent {
      store
      calls := world.calls.set i { call with stage } } ∧
    world.store.expectedNonce ≤ store.expectedNonce := by
  have hOld := hCoherent.of_getElem? hCall
  have hExpected := hCoherent.store.expectedNonce_le
  rcases resume_cases hResume with ⟨rfl, hRecorded, hHeld⟩ | ⟨n, hStage, rfl, rfl⟩ |
    ⟨hStage, rfl, rfl⟩ | ⟨hStage, rfl, rfl⟩ | ⟨hStage, rfl, rfl⟩ | ⟨hStage, rfl, rfl⟩
  · -- a read, or a rejection
    exact ⟨coherent_read hCoherent hRecorded hHeld, Nat.le_refl _⟩
  · -- the answer of the provider is cached
    rw [hStage] at hUndisturbed
    refine ⟨coherent_setCurrent hCoherent ?_ ?_ ?_, ?_⟩
    · intro m hm
      cases served with
      | true =>
        cases hm
        exact Nat.le_of_eq (hUndisturbed rfl)
      | false => exact hCoherent.store.cached m hm
    · constructor
      · intro h
        cases h
      · intro _ hPending
        cases hPending
      · intro hNone m hm
        cases hm
        exact hOld.held hNone n (by rw [hStage]; rfl)
    · intro h
      cases h
    · cases served with
      | true =>
        have hFresh := hUndisturbed rfl
        rw [← hFresh] at hExpected
        exact hExpected
      | false => exact Nat.le_refl _
  · -- the nonce is recorded
    rw [hStage] at hUndisturbed
    exact ⟨coherent_record hCoherent hCall hStage (hUndisturbed rfl), Nat.le_refl _⟩
  · -- the nonce is recorded in Redis, too
    exact ⟨coherent_setConsumed hCoherent hCall hStage _, Nat.le_refl _⟩
  · -- the tracked nonce advances
    have hTrack := coherent_track hCoherent hCall hStage
    refine ⟨hTrack.1, ?_⟩
    unfold NonceStore.expectedNonce
    cases hCurrent : world.store.current with
    | none => simpa [hCurrent] using hTrack.2
    | some current => simp
  · -- the cache is cleared
    have hRecorded : call.stage.isRecorded = true := by
      rw [hStage]
      rfl
    refine ⟨coherent_setCurrent hCoherent ?_ ?_ ?_, ?_⟩
    · intro m hm
      cases served with
      | true => cases hm
      | false => exact hCoherent.store.cached m hm
    · constructor
      · intro _
        exact hOld.recorded hRecorded
      · intro _ hPending
        cases hPending
      · intro _ m hm
        cases hm
    · exact distinct_of_recorded hCoherent hCall hRecorded
    · cases served with
      | true => exact hExpected
      | false => exact Nat.le_refl _

theorem coherent_arrive (hCoherent : world.Coherent) (nonce : Nat) :
    NonceWorld.Coherent { world with
      calls :=
        world.calls ++ [consumeWalletNonce wallet world.store nonce] } := by
  have hRecorded : (consumeWalletNonce wallet world.store nonce).stage.isRecorded = false := by
    unfold consumeWalletNonce
    split
    · rfl
    · rfl
  have hHeld : (consumeWalletNonce wallet world.store nonce).stage.held =
      none := by
    unfold consumeWalletNonce
    split
    · rfl
    · rfl
  have hOld :
      ∀ (j : Nat) other, (world.calls ++ [consumeWalletNonce wallet world.store nonce])[j]? =
        some other → other.stage.isRecorded = true →
        world.calls[j]? = some other := by
    intro j other hOther hOtherRecorded
    rcases getElem?_concat_cases hOther with hBefore | ⟨-, rfl⟩
    · exact hBefore
    · exact absurd hOtherRecorded (by simp [hRecorded])
  constructor
  · exact hCoherent.store
  · intro one hMem
    rcases List.mem_append.mp hMem with hMem | hNew
    · exact hCoherent.calls one hMem
    · rw [List.mem_singleton.mp hNew]
      exact coherent_idle world.store hRecorded hHeld
  · intro j k one other hOne hOther hOneRecorded hOtherRecorded hSame
    exact hCoherent.distinct j k one other (hOld j one hOne hOneRecorded)
      (hOld k other hOther hOtherRecorded) hOneRecorded hOtherRecorded hSame

theorem coherent_contract {answer : Option Nat} (hCoherent : world.Coherent)
    (hSucceeds : Succeeds world.store.contract answer) :
    NonceWorld.Coherent { world with
      store := { world.store with contract := answer } } ∧ world.store.onChainNonce ≤
      NonceStore.onChainNonce
        { world.store with contract := answer } := by
  cases hContract : world.store.contract with
  | none =>
    cases answer with
    | none =>
      have hSame : { world.store with contract := none } = world.store := by rw [← hContract]
      rw [hSame]
      exact ⟨hCoherent, Nat.le_refl _⟩
    | some after => simp [hContract, Succeeds] at hSucceeds
  | some before =>
    cases answer with
    | none => simp [hContract, Succeeds] at hSucceeds
    | some after =>
      have hGrows : world.store.onChainNonce ≤ NonceStore.onChainNonce
          { world.store with contract := some after } := by
        simpa [NonceStore.onChainNonce, hContract, Succeeds] using hSucceeds
      refine ⟨⟨⟨?_, ?_, ?_⟩, ?_, ?_⟩, hGrows⟩
      · intro current hCurrent
        exact (hCoherent.store.cached current hCurrent).trans hGrows
      · intro hNone
        cases hNone
      · intro hNone
        cases hNone
      · intro call hMem
        refine ⟨(hCoherent.calls call hMem).recorded, ?_, ?_⟩
        · intro hNone
          cases hNone
        · intro hNone
          cases hNone
      · exact hCoherent.distinct

theorem coherent_step {move : NonceMove} (hCoherent : world.Coherent)
    (hUndisturbed : Undisturbed world move) (hStep : world.step wallet move = some world') :
    world'.Coherent ∧ world.store.expectedNonce ≤ world'.store.expectedNonce := by
  cases move with
  | arrive nonce =>
    cases hStep
    exact ⟨coherent_arrive hCoherent nonce, Nat.le_refl _⟩
  | resume i served =>
    unfold NonceWorld.step at hStep
    cases hCall : world.calls[i]? with
    | none => simp [hCall] at hStep
    | some call =>
      simp only [hCall] at hStep
      cases hResume : resume wallet served world.store call.nonce call.stage with
      | none => simp [hResume] at hStep
      | some result =>
        simp only [hResume, Option.some.injEq] at hStep
        rw [← hStep]
        exact coherent_resume hCoherent hCall (hUndisturbed call hCall) hResume
  | lapseCurrent =>
    cases hStep
    refine ⟨⟨?_, ?_, hCoherent.distinct⟩, ?_⟩
    · apply coherent_cache hCoherent.store
      intro n hn
      cases hn
    · intro call hMem
      exact coherent_call_congr (hCoherent.calls call hMem) rfl rfl rfl
    · exact hCoherent.store.expectedNonce_le
  | lapseConsumed nonce =>
    cases hStep
    refine ⟨⟨?_, ?_, hCoherent.distinct⟩, Nat.le_refl _⟩
    · exact ⟨hCoherent.store.cached, hCoherent.store.below, hCoherent.store.above⟩
    · intro call hMem
      exact coherent_call_congr (hCoherent.calls call hMem) rfl rfl rfl
  | contract answer =>
    cases hStep
    have hContract := coherent_contract hCoherent hUndisturbed
    refine ⟨hContract.1, ?_⟩
    unfold NonceStore.expectedNonce
    cases hCurrent : world.store.current with
    | none => simpa [hCurrent] using hContract.2
    | some current => simp

/-
  In every undisturbed run each nonce is accepted at most once
  and no undisturbed step lowers the expected nonce.
-/
theorem nonce_single_use {contract : Option Nat} {moves : List NonceMove}
    (hRun : RunsTo (NonceWorld.step wallet) Undisturbed (.start contract) moves world) :
    AcceptedOnce world ∧ ∀ move world', Undisturbed world move →
      world.step wallet move = some world' → world.store.expectedNonce ≤
        world'.store.expectedNonce := by
  have hCoherent : world.Coherent :=
    RunsTo.invariant (coherent_start contract) (fun _ _ _ hs hAllowed hStep =>
      (coherent_step hs hAllowed hStep).1)
      hRun
  refine ⟨hCoherent.acceptedOnce, ?_⟩
  intro move world' hUndisturbed hStep
  exact (coherent_step hCoherent hUndisturbed hStep).2

/- Steps of one call, with Redis in service. -/
def resumes (i count : Nat) : List NonceMove := List.replicate count (.resume i true)

/- Nonce 0 has been consumed. -/
def firstConsumed : NonceStore where
  inMemoryConsumedNonces := [0]
  trackedOnChainNonce := some 1
  consumed := [0]
  current := none
  contract := none

/- Two consumers of nonce 0 overlap, and one of nonce 1 follows. -/
def overlappingConsumers : List NonceMove :=
  [.arrive 0, .arrive 0] ++ resumes 0 4 ++ resumes 1 3 ++ resumes 0 5 ++ resumes 1 3 ++
    .arrive 1 :: resumes 2 6

theorem nonce_single_use_sample :
    ∃ world, RunsTo (NonceWorld.step "G") Undisturbed (.start none) overlappingConsumers world ∧
      world.calls.map ConsumeCall.stage =
        [.accepted 1, .rejected (.nonceAlreadyConsumed "G" 0), .accepted 2] ∧
      AcceptedOnce world := by
  have hRun : (runAllowed (NonceWorld.step "G") Undisturbed (.start none)
      overlappingConsumers).map (fun world => world.calls.map ConsumeCall.stage) =
        some [.accepted 1, .rejected (.nonceAlreadyConsumed "G" 0), .accepted 2] := by decide
  rcases Option.map_eq_some_iff.mp hRun with ⟨world, hWorld, hStages⟩
  have hUndisturbed := runsTo_of_runAllowed hWorld
  exact ⟨world, hUndisturbed, hStages, (nonce_single_use hUndisturbed).1⟩

/-
  Two calls that overlap consume the same nonce; and a call that
  caches what it read before another was accepted takes the
  expected nonce back.
-/
theorem nonce_consumed_twice :
    (∃ world, runLabels (NonceWorld.step "G") (.start none)
      ([.arrive 0, .arrive 0] ++ resumes 0 5 ++ resumes 1 2 ++ resumes 0 4 ++ resumes 1 4) =
      some world ∧ ¬ AcceptedOnce world) ∧ ∃ world world',
      runLabels (NonceWorld.step "G") (.start none) ([.arrive 7, .arrive 0] ++ resumes 0 4 ++
        resumes 1 9) = some world ∧ world.step "G" (.resume 0 true) = some world' ∧
      world'.store.expectedNonce < world.store.expectedNonce := by
  constructor
  · refine
      ⟨{ store := firstConsumed
         calls := [{ nonce := 0, stage := .accepted 1 }, { nonce := 0, stage := .accepted 1 }] },
        by decide, ?_⟩
    intro hOnce
    exact absurd (hOnce 0 1 _ _ rfl rfl rfl rfl rfl) (by decide)
  · exact
      ⟨{ store := firstConsumed
         calls := [{ nonce := 7, stage := .setCurrent 0 }, { nonce := 0, stage := .accepted 1 }] },
        _, by decide, rfl, by decide⟩

/- Without a contract, no nonce is consumed before a lower one. -/
theorem nonces_consumed_in_turn {contract : Option Nat} {moves : List NonceMove}
    (hRun : RunsTo (NonceWorld.step wallet) Undisturbed (.start contract) moves world)
    (hNone : world.store.contract = none) {nonce lower : Nat}
    (hConsumed : nonce ∈ world.store.inMemoryConsumedNonces) (hLower : lower < nonce) :
    lower ∈ world.store.inMemoryConsumedNonces := by
  have hCoherent : world.Coherent := hRun.invariant (coherent_start contract)
    fun _ _ _ hs hAllowed hStep => (coherent_step hs hAllowed hStep).1
  exact hCoherent.store.below hNone lower
    (hLower.trans_le (hCoherent.store.above hNone nonce hConsumed))

theorem nonces_consumed_in_turn_sample :
    ∃ world, RunsTo (NonceWorld.step "G") Undisturbed (.start none)
      (.arrive 0 :: resumes 0 9 ++ .arrive 1 :: resumes 1 9) world ∧
      0 ∈ world.store.inMemoryConsumedNonces := by
  have hRun : RunsTo (NonceWorld.step "G") Undisturbed (.start none)
      (.arrive 0 :: resumes 0 9 ++ .arrive 1 :: resumes 1 9) _ :=
    runsTo_of_runAllowed (Option.some_get (by decide)).symm
  exact ⟨_, hRun, nonces_consumed_in_turn hRun (by decide) (show 1 ∈ _ by decide) (by decide)⟩

end Nonce

end AccessLayer
