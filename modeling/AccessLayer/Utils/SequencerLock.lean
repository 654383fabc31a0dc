import AccessLayer.Library.Runs
import Mathlib.Logic.Function.Basic

/-
  The lock of a creator's wallet in Redis
  (`src/utils/sequencer-lock.utils.ts`).

  A holder reads the lock and then renews or deletes it, in two
  commands.  Calls of any processes interleave between any two
  commands, any command may fail, and a lock may expire at any
  moment.  Redis is not disabled; logs are left out.

  Main result: `locks_respected`
-/

-- Calls
----

namespace AccessLayer

namespace Utils

namespace SequencerLock

open Transactional

section

def LOCK_ACQUIRE_TIMEOUT_MS : ℕ := 8000

def lockKey (creatorWallet : String) : String := "seq_lock:" ++ creatorWallet

/- The process and the millisecond of a call. -/
def lockValueOf (pid now : ℕ) : String := toString pid ++ ":" ++ toString now

/- An error of the sequencer, or one that Redis has thrown. -/
inductive LockError where
  | sequencerContention (message : String)
  | redis
  deriving DecidableEq

def LockError.code : LockError → Option String
  | .sequencerContention _ => some "sequencer_contention"
  | .redis => none

def contentionError (creatorWallet : String) : LockError :=
  .sequencerContention ("Could not acquire sequencer lock for " ++ creatorWallet ++
    " within " ++ toString LOCK_ACQUIRE_TIMEOUT_MS ++ "ms")

inductive ActKind where
  | renewal
  | release
  deriving DecidableEq

/- Whether the lock is still to be read, or acted on. -/
inductive ActStage where
  | get
  | command
  | ended
  deriving DecidableEq

/- What a holder does about its lock. -/
structure LockAct where
  kind : ActKind
  stage : ActStage

inductive LockStage where
  | retrying
  | acquired
  | failed (error : LockError)
  deriving DecidableEq

/-
  A call of `acquireSequencerLock`.  It holds its lock from when
  it is acquired until it is released or expires.
-/
structure LockCall where
  creatorWallet : String
  lockValue : String
  deadline : ℕ
  stage : LockStage
  renewing : Bool
  holds : Bool
  acts : List LockAct

/- The value of a lock, and the call that has set it. -/
structure LockEntry where
  value : String
  owner : ℕ

structure LockWorld where
  keys : String → Option LockEntry
  calls : List LockCall

def LockWorld.start : LockWorld where
  keys _ := none
  calls := []

inductive LockMove where
  | begin (creatorWallet : String) (pid now base : ℕ)
  | attempt (i now : ℕ) (served : Bool)
  | tick (i : ℕ)
  | release (i : ℕ)
  | act (i k : ℕ) (served : Bool)
  | expire (creatorWallet : String)

def acquireSequencerLock (creatorWallet : String) (pid now base : ℕ) : LockCall where
  creatorWallet
  lockValue := lockValueOf pid now
  deadline := base + LOCK_ACQUIRE_TIMEOUT_MS
  stage := .retrying
  renewing := false
  holds := false
  acts := []

namespace LockCall

variable (call : LockCall)

def acquire : LockCall :=
  { call with
    stage := .acquired
    renewing := true
    holds := true }

def withAct (kind : ActKind) : LockCall :=
  { call with
    acts := call.acts ++ [{ kind, stage := .get }] }

/- The interval is cleared before the lock is read. -/
def release : LockCall :=
  { call.withAct .release with
    renewing := false
    holds := false }

def setAct (k : ℕ) (act : LockAct) (stage : ActStage) : LockCall :=
  { call with acts := call.acts.set k { act with stage } }

end LockCall

namespace LockWorld

variable (world : LockWorld)

def setCall (i : ℕ) (call : LockCall) : LockWorld := { world with calls := world.calls.set i call }

def setKey (creatorWallet : String) (entry : Option LockEntry) : LockWorld :=
  { world with
    keys := Function.update world.keys (lockKey creatorWallet) entry }

def entryOf (creatorWallet : String) : Option LockEntry := world.keys (lockKey creatorWallet)

/- The loop looks at the time, then sets the key if it is free. -/
def attempt (i : ℕ) (call : LockCall) (now : ℕ) (served : Bool) : LockWorld :=
  if call.deadline ≤ now then
    world.setCall i { call with
        stage := .failed (contentionError call.creatorWallet) }
  else if served = false then
    world.setCall i { call with stage := .failed .redis }
  else
    match world.entryOf call.creatorWallet with
    | some _ => world
    | none =>
      (world.setKey call.creatorWallet (some { value := call.lockValue, owner := i })).setCall i
        call.acquire

def act (i : ℕ) (call : LockCall) (k : ℕ) (act : LockAct) (served : Bool) : Option LockWorld :=
  match act.stage with
  | .get =>
    let found :=
      served ∧ (world.entryOf call.creatorWallet).map LockEntry.value = some call.lockValue
    some (world.setCall i (call.setAct k act (if found then .command else .ended)))
  | .command =>
    let world :=
      match act.kind, served with
      | .release, true => world.setKey call.creatorWallet none
      | _, _ => world
    some (world.setCall i (call.setAct k act .ended))
  | .ended => none

/- The holder of a lock that expires does not hold it any more. -/
def expire (creatorWallet : String) : Option LockWorld :=
  match world.entryOf creatorWallet with
  | none => none
  | some entry =>
    let world := world.setKey creatorWallet none
    match world.calls[entry.owner]? with
    | none => some world
    | some call => some (world.setCall entry.owner { call with holds := false })

def step (world : LockWorld) : LockMove → Option LockWorld
  | .begin creatorWallet pid now base =>
    some { world with
      calls := world.calls ++ [acquireSequencerLock creatorWallet pid now base] }
  | .attempt i now served =>
    match world.calls[i]? with
    | some call =>
      if call.stage = .retrying then
        some (world.attempt i call now served)
      else none
    | none => none
  | .tick i =>
    match world.calls[i]? with
    | some call =>
      if call.renewing then
        some (world.setCall i (call.withAct .renewal))
      else none
    | none => none
  | .release i =>
    match world.calls[i]? with
    | some call =>
      if call.stage = .acquired then
        some (world.setCall i call.release)
      else none
    | none => none
  | .act i k served =>
    match world.calls[i]? with
    | some call =>
      match call.acts[k]? with
      | some act => world.act i call k act served
      | none => none
    | none => none
  | .expire creatorWallet => world.expire creatorWallet

end LockWorld

/- A lock that is acted on is the actor's own, and no two calls hold the lock of a wallet. -/
structure LocksRespected (world : LockWorld) : Prop where
  own : ∀ (i : ℕ) call act, world.calls[i]? = some call → act ∈ call.acts → act.stage = .command →
    ∀ entry ∈ world.entryOf call.creatorWallet, entry.owner = i
  unique : ∀ (i j : ℕ) one other, world.calls[i]? = some one → world.calls[j]? = some other →
    one.holds = true → other.holds = true → one.creatorWallet = other.creatorWallet → i = j

/-
  No lock is acquired while a call of the wallet is about to act,
  and no call finds its own value in a lock of another.
-/
def Guarded (world : LockWorld) : LockMove → Prop
  | .attempt i now served =>
    ∀ call ∈ world.calls[i]?, now < call.deadline ∧ served = true → ∀ other ∈ world.calls,
      other.creatorWallet = call.creatorWallet → ∀ act ∈ other.acts, act.stage = .command →
        (world.entryOf call.creatorWallet).isSome = true
  | .act i k _ =>
    ∀ call ∈ world.calls[i]?, ∀ act ∈ call.acts[k]?, act.stage = .get →
      ∀ entry ∈ world.entryOf call.creatorWallet, entry.value = call.lockValue → entry.owner = i
  | _ => True

instance (world : LockWorld) (move : LockMove) : Decidable (Guarded world move) :=
  match move with
  | .attempt _ _ _ => inferInstanceAs (Decidable (∀ call ∈ (_ : Option _), _ → _))
  | .act _ _ _ => inferInstanceAs (Decidable (∀ call ∈ (_ : Option _), _))
  | .begin _ _ _ _ | .tick _ | .release _ | .expire _ => isTrue trivial

end

-- What a Run Keeps
----

variable {world world' : LockWorld} {move : LockMove} {i j : ℕ} {call other : LockCall}
variable {wallet : String}

@[simp] theorem entryOf_setCall :
    (world.setCall i call).entryOf wallet = world.entryOf wallet := rfl

theorem entryOf_setKey_same (entry : Option LockEntry) :
    (world.setKey wallet entry).entryOf wallet = entry := Function.update_self _ _ _

theorem entryOf_setKey_other {owner : String} (hOwner : owner ≠ wallet) (entry : Option LockEntry) :
    (world.setKey wallet entry).entryOf owner = world.entryOf owner := by
  apply Function.update_of_ne
  intro hSame
  unfold lockKey at hSame
  rw [String.append_right_inj] at hSame
  exact hOwner hSame

theorem getElem?_setCall (hOther : (world.setCall i call).calls[j]? = some other) :
    j = i ∧ other = call ∨ j ≠ i ∧ world.calls[j]? = some other := getElem?_set_cases hOther

theorem mem_setCall (hOther : other ∈ (world.setCall i call).calls) :
    other = call ∨ other ∈ world.calls := by
  rcases List.mem_or_eq_of_mem_set hOther with hOld | hNew
  · exact Or.inr hOld
  · exact Or.inl hNew

/- What a lock that is acted on or held is, and what a call has done so far. -/
structure Kept (world : LockWorld) : Prop where
  own : ∀ (i : ℕ) call act, world.calls[i]? = some call → act ∈ call.acts → act.stage = .command →
    ∀ entry ∈ world.entryOf call.creatorWallet, entry.owner = i
  held : ∀ (i : ℕ) call, world.calls[i]? = some call → call.holds = true →
    ∃ entry ∈ world.entryOf call.creatorWallet, entry.owner = i
  released : ∀ call ∈ world.calls, ∀ act ∈ call.acts, act.kind = .release → call.holds = false
  idle : ∀ call ∈ world.calls, call.stage ≠ .acquired →
    call.acts = [] ∧ call.holds = false ∧ call.renewing = false
  stopped : ∀ call ∈ world.calls, call.renewing = false → call.holds = false

theorem Kept.respected (hKept : Kept world) : LocksRespected world where
  own := hKept.own
  unique := by
    intro i j one other hOne hOther hHolds hOtherHolds hSame
    rcases hKept.held i one hOne hHolds with ⟨entry, hEntry, rfl⟩
    rcases hKept.held j other hOther hOtherHolds with ⟨entry', hEntry', rfl⟩
    rw [hSame] at hEntry
    rw [Option.mem_unique hEntry hEntry']

theorem kept_start : Kept .start where
  own _ _ _ h := nomatch h
  held _ _ h := nomatch h
  released _ h := nomatch h
  idle _ h := nomatch h
  stopped _ h := nomatch h

/-
  One call goes on and its wallet's lock stays: it acts on its
  own lock only, and holds what it held.
-/
theorem Kept.setCall {next : LockCall} (hKept : Kept world)
    (hCall : world.calls[i]? = some call) (hWallet : next.creatorWallet = call.creatorWallet)
    (hOwn : ∀ act ∈ next.acts, act.stage = .command → ∀ entry ∈ world.entryOf call.creatorWallet,
      entry.owner = i) (hHolds : next.holds = true → call.holds = true)
    (hReleased : ∀ act ∈ next.acts, act.kind = .release → next.holds = false)
    (hIdle : next.stage ≠ .acquired → next.acts = [] ∧ next.holds = false ∧ next.renewing = false)
    (hStopped : next.renewing = false → next.holds = false) :
    Kept (world.setCall i next) := by
  refine ⟨?_, ?_, ?_, ?_, ?_⟩
  · intro j one act hOne hAct hStage
    rcases getElem?_setCall hOne with ⟨rfl, rfl⟩ | ⟨-, hOld⟩
    · rw [hWallet]
      exact hOwn act hAct hStage
    · exact hKept.own j one act hOld hAct hStage
  · intro j one hOne hOneHolds
    rcases getElem?_setCall hOne with ⟨rfl, rfl⟩ | ⟨-, hOld⟩
    · rw [hWallet]
      exact hKept.held j call hCall (hHolds hOneHolds)
    · exact hKept.held j one hOld hOneHolds
  · intro one hMem
    rcases mem_setCall hMem with rfl | hOld
    · exact hReleased
    · exact hKept.released one hOld
  · intro one hMem
    rcases mem_setCall hMem with rfl | hOld
    · exact hIdle
    · exact hKept.idle one hOld
  · intro one hMem
    rcases mem_setCall hMem with rfl | hOld
    · exact hStopped
    · exact hKept.stopped one hOld

theorem Kept.deleteKey (hKept : Kept world) (wallet : String)
    (hNone : ∀ (i : ℕ) call, world.calls[i]? = some call →
      call.holds = true → call.creatorWallet ≠ wallet) :
    Kept (world.setKey wallet none) := by
  refine ⟨?_, ?_, hKept.released, hKept.idle, hKept.stopped⟩
  · intro j one act hOne hAct hStage entry hEntry
    by_cases hSame : one.creatorWallet = wallet
    · rw [hSame, entryOf_setKey_same] at hEntry
      cases hEntry
    · rw [entryOf_setKey_other hSame] at hEntry
      exact hKept.own j one act hOne hAct hStage entry hEntry
  · intro j one hOne hHolds
    rw [entryOf_setKey_other (hNone j one hOne hHolds)]
    exact hKept.held j one hOne hHolds

theorem Kept.begin (hKept : Kept world) (pid now base : ℕ) :
    Kept { world with
      calls :=
        world.calls ++ [acquireSequencerLock wallet pid now base] } := by
  refine ⟨?_, ?_, ?_, ?_, ?_⟩
  · intro j one act hOne hAct
    rcases getElem?_concat_cases hOne with hOld | ⟨-, rfl⟩
    · exact hKept.own j one act hOld hAct
    · cases hAct
  · intro j one hOne hHolds
    rcases getElem?_concat_cases hOne with hOld | ⟨-, rfl⟩
    · exact hKept.held j one hOld hHolds
    · cases hHolds
  · intro one hMem act hAct
    rcases List.mem_append.mp hMem with hOld | hNew
    · exact hKept.released one hOld act hAct
    · rw [List.mem_singleton.mp hNew] at hAct
      cases hAct
  · intro one hMem hStage
    rcases List.mem_append.mp hMem with hOld | hNew
    · exact hKept.idle one hOld hStage
    · rw [List.mem_singleton.mp hNew]
      exact ⟨rfl, rfl, rfl⟩
  · intro one hMem hRenewing
    rcases List.mem_append.mp hMem with hOld | hNew
    · exact hKept.stopped one hOld hRenewing
    · rw [List.mem_singleton.mp hNew]
      rfl

theorem Kept.acquire (hKept : Kept world) (hCall : world.calls[i]? = some call)
    (hStage : call.stage = .retrying) (hFree : world.entryOf call.creatorWallet = none)
    (hNobody : ∀ other ∈ world.calls, other.creatorWallet = call.creatorWallet →
      ∀ act ∈ other.acts, act.stage ≠ .command) :
    Kept ((world.setKey call.creatorWallet (some { value := call.lockValue, owner := i })).setCall i
      call.acquire) := by
  have hMem := List.mem_of_getElem? hCall
  have hIdle := hKept.idle call hMem (by rw [hStage]; nofun)
  have hHeldNone : ∀ (j : ℕ) one, world.calls[j]? = some one → one.holds = true →
      one.creatorWallet ≠ call.creatorWallet := by
    intro j one hOne hHolds hSame
    rcases hKept.held j one hOne hHolds with ⟨entry, hEntry, -⟩
    rw [hSame, hFree] at hEntry
    cases hEntry
  refine ⟨?_, ?_, ?_, ?_, ?_⟩
  · intro j one act hOne hAct hCommand entry hEntry
    rcases getElem?_setCall hOne with ⟨rfl, rfl⟩ | ⟨-, hOld⟩
    · have hNil : call.acquire.acts = [] := hIdle.1
      rw [hNil] at hAct
      cases hAct
    · have hOther : one.creatorWallet ≠ call.creatorWallet :=
        fun hSame => hNobody one (List.mem_of_getElem? hOld) hSame act hAct hCommand
      rw [entryOf_setCall, entryOf_setKey_other hOther] at hEntry
      exact hKept.own j one act hOld hAct hCommand entry hEntry
  · intro j one hOne hHolds
    rcases getElem?_setCall hOne with ⟨rfl, rfl⟩ | ⟨-, hOld⟩
    · exact ⟨_, entryOf_setKey_same _, rfl⟩
    · rw [entryOf_setCall, entryOf_setKey_other (hHeldNone j one hOld hHolds)]
      exact hKept.held j one hOld hHolds
  · intro one hOne act hAct hRelease
    rcases mem_setCall hOne with rfl | hOld
    · have hNil : call.acquire.acts = [] := hIdle.1
      rw [hNil] at hAct
      cases hAct
    · exact hKept.released one hOld act hAct hRelease
  · intro one hOne hNot
    rcases mem_setCall hOne with rfl | hOld
    · exact absurd rfl hNot
    · exact hKept.idle one hOld hNot
  · intro one hOne hRenewing
    rcases mem_setCall hOne with rfl | hOld
    · cases hRenewing
    · exact hKept.stopped one hOld hRenewing

theorem Kept.setAct {k : ℕ} {act : LockAct} {stage : ActStage} (hKept : Kept world)
    (hCall : world.calls[i]? = some call) (hAct : call.acts[k]? = some act)
    (hOwn : stage = .command → ∀ entry ∈ world.entryOf call.creatorWallet, entry.owner = i) :
    Kept (world.setCall i (call.setAct k act stage)) := by
  have hMem := List.mem_of_getElem? hCall
  have hOld := List.mem_of_getElem? hAct
  have hCases :
      ∀ one ∈ (call.setAct k act stage).acts, one ∈ call.acts ∨ one = { act with stage } :=
    fun one hOne => List.mem_or_eq_of_mem_set hOne
  refine hKept.setCall hCall rfl ?_ id ?_ ?_ ?_
  · intro one hOne hStage
    rcases hCases one hOne with hBefore | rfl
    · exact hKept.own i call one hCall hBefore hStage
    · exact hOwn hStage
  · intro one hOne hRelease
    rcases hCases one hOne with hBefore | rfl
    · exact hKept.released call hMem one hBefore hRelease
    · exact hKept.released call hMem act hOld hRelease
  · intro hStage
    rcases hKept.idle call hMem hStage with ⟨hNil, -, -⟩
    rw [hNil] at hOld
    cases hOld
  · exact hKept.stopped call hMem

/- A call that fails has done nothing yet. -/
theorem Kept.fail (hKept : Kept world) (hCall : world.calls[i]? = some call)
    (hStage : call.stage = .retrying) (error : LockError) :
    Kept (world.setCall i { call with stage := .failed error }) := by
  have hMem := List.mem_of_getElem? hCall
  have hIdle := hKept.idle call hMem (by rw [hStage]; nofun)
  exact hKept.setCall hCall rfl (fun act hAct => hKept.own i call act hCall hAct) id
    (hKept.released call hMem) (fun _ => hIdle) (hKept.stopped call hMem)

theorem Kept.attempt {now : ℕ} {served : Bool} (hKept : Kept world)
    (hCall : world.calls[i]? = some call) (hStage : call.stage = .retrying)
    (hGuarded : Guarded world (.attempt i now served)) :
    Kept (world.attempt i call now served) := by
  unfold LockWorld.attempt
  split
  · exact hKept.fail hCall hStage _
  · rename_i hEarly
    split
    · exact hKept.fail hCall hStage _
    · rename_i hServed
      split
      · exact hKept
      · rename_i hFree
        apply hKept.acquire hCall hStage hFree
        intro other hOther hWallet act hAct hCommand
        have hSome := hGuarded call hCall ⟨not_le.mp hEarly, by simpa using hServed⟩ other
            hOther hWallet act hAct hCommand
        rw [hFree] at hSome
        cases hSome

theorem Kept.deletes {k : ℕ} {act : LockAct} (hKept : Kept world)
    (hCall : world.calls[i]? = some call) (hAct : call.acts[k]? = some act)
    (hStage : act.stage = .command) (hKind : act.kind = .release) :
    Kept (world.setKey call.creatorWallet none) := by
  have hMem := List.mem_of_getElem? hAct
  apply hKept.deleteKey
  intro j other hOther hHolds hSame
  rcases hKept.held j other hOther hHolds with ⟨entry, hEntry, rfl⟩
  rw [hSame] at hEntry
  have hOwner := hKept.own i call act hCall hMem hStage entry hEntry
  rw [hOwner, hCall] at hOther
  cases hOther
  rw [hKept.released call (List.mem_of_getElem? hCall) act hMem hKind] at hHolds
  cases hHolds

theorem Kept.act {k : ℕ} {act : LockAct} {served : Bool} (hKept : Kept world)
    (hCall : world.calls[i]? = some call) (hAct : call.acts[k]? = some act)
    (hGuarded : Guarded world (.act i k served))
    (hStep : world.act i call k act served = some world') :
    Kept world' := by
  unfold LockWorld.act at hStep
  split at hStep
  · rename_i hStage
    cases hStep
    apply hKept.setAct hCall hAct
    intro hCommand entry hEntry
    split at hCommand
    · rename_i hFound
      have hValue := hFound.2
      rw [Option.mem_def.mp hEntry, Option.map_some, Option.some.injEq] at hValue
      exact hGuarded call hCall act hAct hStage entry hEntry hValue
    · cases hCommand
  · rename_i hStage
    cases hStep
    have hEnds : (.ended : ActStage) = .command → False := nofun
    split
    · rename_i hKind
      exact (hKept.deletes hCall hAct hStage hKind).setAct hCall hAct fun h => (hEnds h).elim
    · exact hKept.setAct hCall hAct fun h => (hEnds h).elim
  · cases hStep

theorem Kept.expire (hKept : Kept world) (hStep : world.expire wallet = some world') :
    Kept world' := by
  unfold LockWorld.expire at hStep
  split at hStep
  · cases hStep
  · rename_i entry hEntry
    have hOwner : ∀ (j : ℕ) other, world.calls[j]? = some other →
        other.holds = true → other.creatorWallet = wallet → j = entry.owner := by
      intro j other hOther hHolds hSame
      rcases hKept.held j other hOther hHolds with ⟨entry', hEntry', rfl⟩
      rw [hSame] at hEntry'
      rw [Option.mem_unique hEntry hEntry']
    dsimp only at hStep
    split at hStep
    · rename_i hNone
      cases hStep
      apply hKept.deleteKey
      intro j other hOther hHolds hSame
      have hGone := hOwner j other hOther hHolds hSame
      rw [hGone] at hOther
      exact absurd (hOther.symm.trans hNone) nofun
    · rename_i call hCall
      cases hStep
      have hMem := List.mem_of_getElem? hCall
      have hGivenUp : Kept (world.setCall entry.owner
          { call with holds := false }) := by
        refine hKept.setCall hCall rfl ?_ nofun (fun _ _ _ => rfl) ?_ fun _ => rfl
        · exact fun act hAct => hKept.own entry.owner call act hCall hAct
        · intro hStage
          rcases hKept.idle call hMem hStage with ⟨hNil, -, hRenewing⟩
          exact ⟨hNil, rfl, hRenewing⟩
      apply hGivenUp.deleteKey wallet
      intro j other hOther hHolds hSame
      rcases getElem?_setCall hOther with ⟨-, rfl⟩ | ⟨hNe, hOld⟩
      · cases hHolds
      · exact hNe (hOwner j other hOld hHolds hSame)

/- An act that begins is not about to do anything yet. -/
theorem Kept.withAct {next : LockCall} {kind : ActKind} (hKept : Kept world)
    (hCall : world.calls[i]? = some call)
    (hActs : next.acts = call.acts ++ [{ kind, stage := .get }])
    (hWallet : next.creatorWallet = call.creatorWallet) (hStage : next.stage = .acquired)
    (hHolds : next.holds = true → call.holds = true)
    (hReleases : kind = .release → next.holds = false)
    (hStopped : next.renewing = false → next.holds = false) :
    Kept (world.setCall i next) := by
  have hMem := List.mem_of_getElem? hCall
  have hCases : ∀ act ∈ next.acts,
      act ∈ call.acts ∨ act = { kind, stage := .get } := by
    intro act hAct
    rw [hActs] at hAct
    exact (List.mem_append.mp hAct).imp_right List.mem_singleton.mp
  refine hKept.setCall hCall hWallet ?_ hHolds ?_ (fun hNot => absurd hStage hNot) hStopped
  · intro act hAct hCommand
    rcases hCases act hAct with hOld | rfl
    · exact hKept.own i call act hCall hOld hCommand
    · cases hCommand
  · intro act hAct hKind
    rcases hCases act hAct with hOld | rfl
    · have hNot := hKept.released call hMem act hOld hKind
      rw [← Bool.not_eq_true]
      intro hNow
      rw [hHolds hNow] at hNot
      cases hNot
    · exact hReleases hKind

theorem kept_step (hKept : Kept world) (hGuarded : Guarded world move)
    (hStep : world.step move = some world') :
    Kept world' := by
  cases move with
  | begin creatorWallet pid now base =>
    cases hStep
    exact hKept.begin pid now base
  | attempt i now served =>
    simp only [LockWorld.step] at hStep
    split at hStep
    · rename_i call hCall
      split at hStep
      · rename_i hStage
        cases hStep
        exact hKept.attempt hCall hStage hGuarded
      · cases hStep
    · cases hStep
  | tick i =>
    simp only [LockWorld.step] at hStep
    split at hStep
    · rename_i call hCall
      split at hStep
      · rename_i hRenewing
        cases hStep
        have hMem := List.mem_of_getElem? hCall
        have hStage : call.stage = .acquired := by
          by_contra hNot
          rw [(hKept.idle call hMem hNot).2.2] at hRenewing
          cases hRenewing
        exact hKept.withAct hCall rfl rfl hStage id nofun (hKept.stopped call hMem)
      · cases hStep
    · cases hStep
  | release i =>
    simp only [LockWorld.step] at hStep
    split at hStep
    · rename_i call hCall
      split at hStep
      · rename_i hStage
        cases hStep
        exact hKept.withAct hCall rfl rfl hStage nofun (fun _ => rfl) fun _ => rfl
      · cases hStep
    · cases hStep
  | act i k served =>
    simp only [LockWorld.step] at hStep
    split at hStep
    · rename_i call hCall
      split at hStep
      · rename_i act hAct
        exact hKept.act hCall hAct hGuarded hStep
      · cases hStep
    · cases hStep
  | expire creatorWallet => exact hKept.expire hStep

/-
  In every guarded run a lock that is renewed or deleted is the
  call's own, and a wallet's lock has one holder.
-/
theorem locks_respected {moves : List LockMove}
    (hRun : RunsTo LockWorld.step Guarded .start moves world) : LocksRespected world :=
  Kept.respected (hRun.invariant kept_start fun _ _ _ hKept hGuarded hStep =>
    kept_step hKept hGuarded hStep)

def sampleLockMoves : List LockMove :=
  [.begin "alice" 1 0 0, .attempt 0 0 true, .begin "alice" 2 50 50,
    .attempt 1 50 true, .tick 0, .act 0 0 true, .act 0 0 true,
    .release 0, .act 0 1 true, .expire "alice", .act 0 1 true, .attempt 1 150 true]

theorem locks_respected_sample :
    ∃ world, RunsTo LockWorld.step Guarded .start sampleLockMoves world ∧
      world.calls.map LockCall.holds = [false, true] ∧
      LocksRespected world := by
  have hRuns : (runAllowed LockWorld.step Guarded .start sampleLockMoves).map
      (fun world => world.calls.map LockCall.holds) =
      some [false, true] := by decide
  rcases Option.map_eq_some_iff.mp hRuns with ⟨world, hSome, hHolds⟩
  have hRun := runsTo_of_runAllowed hSome
  exact ⟨world, hRun, hHolds, locks_respected hRun⟩

/-
  The lock expires when its holder has read it for the release,
  and the delete takes the lock of the second call; the third
  one acquires it.
-/
theorem others_lock_deleted :
    ∃ world, RunsTo LockWorld.step (fun _ _ => True) .start
      [.begin "alice" 1 0 0, .attempt 0 0 true, .release 0,
        .act 0 0 true, .expire "alice", .begin "alice" 2 20 20, .attempt 1 20 true, .act 0 0 true,
        .begin "alice" 3 30 30, .attempt 2 30 true] world ∧
      ¬LocksRespected world := by
  have hRuns :
      (runLabels LockWorld.step .start [.begin "alice" 1 0 0, .attempt 0 0 true, .release 0,
        .act 0 0 true, .expire "alice", .begin "alice" 2 20 20,
        .attempt 1 20 true, .act 0 0 true, .begin "alice" 3 30 30, .attempt 2 30 true]).map
        (fun world => (world.calls[1]?.map fun call => (call.creatorWallet, call.holds),
          world.calls[2]?.map fun call => (call.creatorWallet, call.holds))) =
        some (some ("alice", true), some ("alice", true)) := by decide
  rcases Option.map_eq_some_iff.mp hRuns with ⟨world, hSome, hBoth⟩
  rcases Prod.mk.inj hBoth with ⟨hOne, hTwo⟩
  rcases Option.map_eq_some_iff.mp hOne with ⟨one, hFirst, hHolds⟩
  rcases Option.map_eq_some_iff.mp hTwo with ⟨two, hSecond, hHolds'⟩
  rcases Prod.mk.inj hHolds with ⟨hWallet, hIs⟩
  rcases Prod.mk.inj hHolds' with ⟨hWallet', hIs'⟩
  refine ⟨world, runsTo_of_runLabels hSome, ?_⟩
  intro hRespected
  have hSame := hRespected.unique 1 2 one two hFirst hSecond hIs hIs' (hWallet.trans hWallet'.symm)
  omega

end SequencerLock

end Utils

end AccessLayer
