import AccessLayer.Library.Machines
import AccessLayer.Library.Table
import Mathlib.Data.Rat.Defs

/-
  The qualification of wallets for campaigns
  (`src/modules/campaigns/campaign-qualification.service.ts`).

  Candidates of a chunk are handled at the same time, and those
  of a run that has thrown go on beside the next run.  Each one
  is a call of its own, which reads whether it is qualified as
  its batch does.  Campaigns and activities give the candidates.

  Main result: `wallets_qualified_once`
-/

-- Candidates
----

namespace AccessLayer

namespace Campaigns

open Transactional

inductive QualificationStatus where
  | qualified
  | failed
  deriving DecidableEq

structure CampaignQualificationLog where
  campaignId : String
  wallet : String
  status : QualificationStatus
  metricValue : ℚ
  txHash : Option String
  error : Option String
  qualifiedAt : ℤ

instance : Keyed CampaignQualificationLog (String × String) where
  key row := (row.campaignId, row.wallet)

/- The log, and the successful calls of the contract. -/
structure CampaignDb where
  log : Table CampaignQualificationLog
  qualified : List (String × String)

def CampaignDb.empty : CampaignDb where
  log := .empty
  qualified := []

structure WalletActivityCandidate where
  wallet : String
  metricValue : ℚ

/- A candidate of a campaign in a run. -/
structure Candidacy extends WalletActivityCandidate where
  campaignId : String
  now : ℤ

def Candidacy.pair (c : Candidacy) : String × String := (c.campaignId, c.wallet)

/- The hash that the contract answers, and the text of its failures. -/
structure CampaignContract where
  txHash : List (String × String) → String → String → Option String
  failure : String

def CampaignDb.isQualified (s : CampaignDb) (pair : String × String) : Bool :=
  (s.log.find? pair).any fun row => row.status = .qualified

def CampaignDb.recordQualified (s : CampaignDb) (c : Candidacy) (txHash : Option String) :
    CampaignDb :=
  { s with
    log :=
      s.log.upsert
        { campaignId := c.campaignId
          wallet := c.wallet
          status := .qualified
          metricValue := c.metricValue
          txHash
          error := none
          qualifiedAt := c.now }
        (fun row => { row with
          status := .qualified
          metricValue := c.metricValue
          txHash
          error := none
          qualifiedAt := c.now })
        fun _ => rfl }

def CampaignDb.recordFailed (s : CampaignDb) (c : Candidacy) (error : String) : CampaignDb :=
  { s with
    log :=
      s.log.upsert
        { campaignId := c.campaignId
          wallet := c.wallet
          status := .failed
          metricValue := c.metricValue
          txHash := none
          error := some error
          qualifiedAt := c.now }
        (fun row => { row with
          status := .failed
          metricValue := c.metricValue
          error := some error })
        fun _ => rfl }

-- Qualification
----

inductive QualificationResult where
  | skipped
  | qualified
  | failed
  | threw

/- What a candidate awaits, from the read of its batch on. -/
inductive QualificationCall where
  | finding (c : Candidacy)
  | qualifying (c : Candidacy)
  | recording (c : Candidacy) (txHash : Option String)
  | failing (c : Candidacy) (error : String)
  | ended (result : QualificationResult)

def qualifySingleWallet (contract : CampaignContract) :
    QualificationCall → CampaignDb → Option (CampaignDb × QualificationCall)
  | .finding c, s => some (s, if s.isQualified c.pair then .ended .skipped else .qualifying c)
  | .qualifying c, s =>
    some ({ s with qualified := s.qualified ++ [c.pair] },
      .recording c (contract.txHash s.qualified c.campaignId c.wallet))
  | .recording c txHash, s => some (s.recordQualified c txHash, .ended .qualified)
  | .failing c error, s => some (s.recordFailed c error, .ended .failed)
  | .ended _, _ => none

/- A record that fails is caught like a call that fails. -/
def catchFailure (contract : CampaignContract) : QualificationCall → QualificationCall
  | .finding _ => .ended .threw
  | .qualifying c => .failing c contract.failure
  | .recording c _ => .failing c contract.failure
  | .failing _ _ => .ended .threw
  | .ended result => .ended result

def qualification (contract : CampaignContract) : Machine CampaignDb QualificationCall where
  execute := qualifySingleWallet contract
  fail := catchFailure contract

/- The candidates of a batch of a campaign. -/
structure CampaignBatch where
  campaignId : String
  candidates : List WalletActivityCandidate

/- The calls of a run at some time over its batches. -/
def evaluateActiveCampaigns (now : ℤ) (batches : List CampaignBatch) : List QualificationCall :=
  batches.flatMap fun batch => batch.candidates.map fun candidate =>
    .finding { candidate with campaignId := batch.campaignId, now }

-- Undisturbed Records
----

section

def underway : QualificationCall → Option (String × String)
  | .qualifying c => some c.pair
  | .recording c _ => some c.pair
  | .failing c _ => some c.pair
  | _ => none

/- The contract has qualified the pair, the log not yet. -/
def unrecorded : QualificationCall → Option (String × String)
  | .recording c _ => some c.pair
  | _ => none

/- A call of the crew by its position, and what it tells. -/
def tells (f : QualificationCall → Option (String × String))
    (calls : List (Option QualificationCall)) (i : ℕ) : Option (String × String) :=
  calls[i]?.join.bind f

/-
  A batch is read while no other call for its candidate is under
  way, the answer of a successful call is heard, and its record
  is written.
-/
def Undisturbed (crew : Crew CampaignDb QualificationCall) : FaultMove → Prop
  | .attempt i outcome =>
    match crew.calls[i]?.join with
    | some (.finding c) =>
      ∀ j < crew.calls.length, tells underway crew.calls j ≠ some c.pair
    | some (.qualifying _) => outcome ≠ .lost
    | some (.recording _ _) => outcome = .served
    | _ => True
  | .crash i => tells unrecorded crew.calls i = none

instance (crew : Crew CampaignDb QualificationCall) (move : FaultMove) :
    Decidable (Undisturbed crew move) := by
  unfold Undisturbed
  split
  · split <;> infer_instance
  · infer_instance

/-
  One call at most is under way for a pair, and a qualified pair
  is recorded unless its call is about to do so.
-/
structure Kept (crew : Crew CampaignDb QualificationCall) : Prop where
  apart : ∀ i j pair, tells underway crew.calls i = some pair →
    tells underway crew.calls j = some pair → i = j
  once : crew.store.qualified.Nodup
  recorded : ∀ pair ∈ crew.store.qualified, (∃ j, tells unrecorded crew.calls j = some pair) ∨
    crew.store.isQualified pair = true ∧ ∀ j, tells underway crew.calls j ≠ some pair

variable {contract : CampaignContract} {crew crew' : Crew CampaignDb QualificationCall} {i : ℕ}
variable {call : QualificationCall} {pair : String × String} {move : FaultMove}

theorem tells_of_call {f : QualificationCall → Option (String × String)}
    (hCall : crew.calls[i]? = some (some call)) : tells f crew.calls i = f call := by
  rw [tells, hCall]
  rfl

theorem tells_set {f : QualificationCall → Option (String × String)}
    (hCall : crew.calls[i]? = some (some call)) (next : Option QualificationCall) (j : ℕ) :
    tells f (crew.calls.set i next) j = if j = i then next.bind f else tells f crew.calls j := by
  unfold tells
  split
  · rename_i hSame
    subst hSame
    rw [List.getElem?_set_self (List.getElem?_eq_some_iff.mp hCall).1]
    rfl
  · rename_i hOther
    rw [List.getElem?_set_ne (Ne.symm hOther)]

theorem underway_of_unrecorded (h : tells unrecorded crew.calls i = some pair) :
    tells underway crew.calls i = some pair := by
  unfold tells at h ⊢
  cases hCall : crew.calls[i]?.join with
  | none =>
    rw [hCall] at h
    cases h
  | some call =>
    rw [hCall] at h
    cases call with
    | recording c txHash => exact h
    | _ => cases h

theorem Kept.not_mem_qualified (hKept : Kept crew) (hCall : crew.calls[i]? = some (some call))
    (hUnderway : underway call = some pair) (hUnrecorded : unrecorded call = none) :
    pair ∉ crew.store.qualified := by
  intro hMem
  have hHere : tells underway crew.calls i = some pair := (tells_of_call hCall).trans hUnderway
  rcases hKept.recorded pair hMem with ⟨j, hLeft⟩ | ⟨-, hNone⟩
  · have hSame := hKept.apart j i pair (underway_of_unrecorded hLeft) hHere
    rw [hSame, tells_of_call hCall, hUnrecorded] at hLeft
    cases hLeft
  · exact hNone i hHere

theorem Kept.set (hKept : Kept crew) (hCall : crew.calls[i]? = some (some call))
    {store : CampaignDb} {next : Option QualificationCall}
    (hUnderway : ∀ pair, next.bind underway = some pair →
      underway call = some pair ∨ ∀ j, tells underway crew.calls j ≠ some pair)
    (hOnce : store.qualified.Nodup)
    (hQualified : ∀ pair ∈ store.qualified, next.bind unrecorded = some pair ∨
      (next.bind underway = none ∧ underway call = some pair ∧ store.isQualified pair = true) ∨
      (pair ∈ crew.store.qualified ∧ underway call ≠ some pair ∧
        next.bind underway ≠ some pair ∧
        (crew.store.isQualified pair = true → store.isQualified pair = true))) :
    Kept { store, calls := crew.calls.set i next } where
  apart := by
    intro j k pair hj hk
    rw [tells_set hCall] at hj hk
    have hOther (l : ℕ) (hNext : next.bind underway = some pair)
        (hl : tells underway crew.calls l = some pair) : l = i := by
      rcases hUnderway pair hNext with hSame | hNone
      · exact hKept.apart l i pair hl ((tells_of_call hCall).trans hSame)
      · exact absurd hl (hNone l)
    split at hj
    · split at hk
      · simp only [*]
      · rename_i hJ hK
        exact absurd (hOther k hj hk) hK
    · split at hk
      · rename_i hJ hK
        exact absurd (hOther j hk hj) hJ
      · exact hKept.apart j k pair hj hk
  once := hOnce
  recorded := by
    intro pair hMem
    rcases hQualified pair hMem with hNext | ⟨hNone, hOwn, hRecorded⟩ |
      ⟨hOld, hOwn, hNext, hRecorded⟩
    · exact .inl ⟨i, by rw [tells_set hCall, if_pos rfl, hNext]⟩
    · refine .inr ⟨hRecorded, fun j hj => ?_⟩
      rw [tells_set hCall] at hj
      split at hj
      · rw [hNone] at hj
        cases hj
      · rename_i hOther
        exact hOther (hKept.apart j i pair hj ((tells_of_call hCall).trans hOwn))
    · rcases hKept.recorded pair hOld with ⟨j, hLeft⟩ | ⟨hWas, hNone⟩
      · have hOther : j ≠ i := by
          rintro rfl
          exact hOwn ((tells_of_call hCall).symm.trans (underway_of_unrecorded hLeft))
        exact .inl ⟨j, by rw [tells_set hCall, if_neg hOther, hLeft]⟩
      · refine .inr ⟨hRecorded hWas, fun j hj => ?_⟩
        rw [tells_set hCall] at hj
        split at hj
        · exact hNext hj
        · exact hNone j hj

/- A call that ends or goes on without a write. -/
theorem Kept.rest (hKept : Kept crew) (hCall : crew.calls[i]? = some (some call))
    {next : Option QualificationCall}
    (hUnderway : next.bind underway = none ∨ next.bind underway = underway call)
    (hUnrecorded : unrecorded call = none) :
    Kept { crew with calls := crew.calls.set i next } := by
  refine hKept.set hCall ?_ hKept.once fun pair hMem => .inr (.inr ⟨hMem, ?_, ?_, id⟩)
  · intro pair hNext
    rcases hUnderway with hNone | hSame
    · rw [hNone] at hNext
      cases hNext
    · exact .inl (hSame.symm.trans hNext)
  · exact fun hOwn => hKept.not_mem_qualified hCall hOwn hUnrecorded hMem
  · intro hNext
    rcases hUnderway with hNone | hSame
    · rw [hNone] at hNext
      cases hNext
    · exact hKept.not_mem_qualified hCall (hSame.symm.trans hNext) hUnrecorded hMem

theorem isQualified_recordQualified (s : CampaignDb) (c : Candidacy) (txHash : Option String) :
    (s.recordQualified c txHash).isQualified pair =
      if pair = c.pair then true else s.isQualified pair := by
  unfold CampaignDb.isQualified CampaignDb.recordQualified
  rw [Table.find?_upsert]
  change Option.any _ (if pair = c.pair then _ else _) = _
  split
  · cases s.log.find? pair with
    | none => rfl
    | some row => rfl
  · rfl

theorem isQualified_recordFailed (s : CampaignDb) (c : Candidacy) (error : String)
    (hOther : pair ≠ c.pair) :
    (s.recordFailed c error).isQualified pair = s.isQualified pair := by
  unfold CampaignDb.isQualified CampaignDb.recordFailed
  rw [Table.find?_upsert]
  exact congrArg _ (if_neg hOther)

theorem Kept.begin {c : Candidacy} (hKept : Kept crew)
    (hCall : crew.calls[i]? = some (some (.finding c)))
    (hNone : ∀ j < crew.calls.length, tells underway crew.calls j ≠ some c.pair)
    (hNot : crew.store.isQualified c.pair = false) :
    Kept { crew with calls := crew.calls.set i (some (.qualifying c)) } := by
  have hAway (j : ℕ) : tells underway crew.calls j ≠ some c.pair := by
    by_cases hLength : j < crew.calls.length
    · exact hNone j hLength
    · rw [tells, List.getElem?_eq_none (not_lt.mp hLength)]
      exact fun h => by cases h
  refine hKept.set hCall ?_ hKept.once fun pair hMem => .inr (.inr ⟨hMem, ?_, ?_, id⟩)
  · rintro _ ⟨⟩
    exact .inr hAway
  · exact fun h => by cases h
  · rintro ⟨⟩
    rcases hKept.recorded c.pair hMem with ⟨j, hLeft⟩ | ⟨hRecorded, -⟩
    · exact hAway j (underway_of_unrecorded hLeft)
    · rw [hNot] at hRecorded
      cases hRecorded

/- One move keeps what is known of the calls. -/
theorem Kept.step (hKept : Kept crew) (hAllowed : Undisturbed crew move)
    (hStep : crew.attempt (qualification contract) move = some crew') : Kept crew' := by
  cases Crew.moved hStep with
  | @crashed i call hCall =>
    exact hKept.rest hCall (.inl rfl) ((tells_of_call hCall).symm.trans hAllowed)
  | @settled i call after outcome hCall hExecute =>
    have hJoin : crew.calls[i]?.join = some call := by
      rw [hCall]
      rfl
    simp only [Undisturbed, hJoin] at hAllowed
    cases call with
    | finding c =>
      cases hExecute
      cases outcome with
      | served =>
        cases hQualified : crew.store.isQualified c.pair with
        | true =>
          exact hKept.rest hCall (.inl rfl) rfl
        | false =>
          exact hKept.begin hCall hAllowed hQualified
      | rejected => exact hKept.rest hCall (.inl rfl) rfl
      | lost => exact hKept.rest hCall (.inl rfl) rfl
    | qualifying c =>
      cases hExecute
      have hFresh := hKept.not_mem_qualified hCall rfl rfl
      cases outcome with
      | served =>
        refine hKept.set hCall (fun pair hNext => .inl hNext) ?_ fun pair hMem => ?_
        · exact List.nodup_append.mpr ⟨hKept.once, List.nodup_singleton _, fun a ha b hb =>
            (List.mem_singleton.mp hb ▸ fun hSame => hFresh (hSame ▸ ha))⟩
        · rcases List.mem_append.mp hMem with hOld | hNew
          · have hOther : some c.pair ≠ some pair := by
              rintro ⟨⟩
              exact hFresh hOld
            exact .inr (.inr ⟨hOld, hOther, hOther, id⟩)
          · exact .inl (congrArg some (List.mem_singleton.mp hNew).symm)
      | rejected => exact hKept.rest hCall (.inr rfl) rfl
      | lost => exact absurd rfl hAllowed
    | recording c txHash =>
      cases hExecute
      subst hAllowed
      refine hKept.set hCall (fun _ hNext => by cases hNext) hKept.once fun pair hMem => .inr ?_
      have hStored := @isQualified_recordQualified pair crew.store c txHash
      by_cases hOwn : pair = c.pair
      · rw [if_pos hOwn] at hStored
        exact .inl ⟨rfl, congrArg some hOwn.symm, hStored⟩
      · rw [if_neg hOwn] at hStored
        refine .inr ⟨hMem, fun h => hOwn (Option.some.inj h).symm, fun h => (by cases h), ?_⟩
        exact fun hWas => hStored.trans hWas
    | failing c error =>
      cases hExecute
      have hFresh := hKept.not_mem_qualified hCall rfl rfl
      have hWritten (result : QualificationResult) : Kept
          { store := crew.store.recordFailed c error,
            calls := crew.calls.set i (some (.ended result)) } := by
        refine hKept.set hCall (fun _ hNext => by cases hNext) hKept.once fun pair hMem => ?_
        have hOther : pair ≠ c.pair := fun hSame => hFresh (hSame ▸ hMem)
        refine .inr (.inr ⟨hMem, fun h => hOther (Option.some.inj h).symm,
          fun h => (by cases h), fun hWas => ?_⟩)
        exact (isQualified_recordFailed crew.store c error hOther).trans hWas
      cases outcome with
      | served => exact hWritten .failed
      | rejected => exact hKept.rest hCall (.inl rfl) rfl
      | lost => exact hWritten .threw
    | ended result => cases hExecute

/- Runs of the evaluation, whose statements interleave. -/
def QualificationRun (contract : CampaignContract) (runs : List (ℤ × List CampaignBatch))
    (moves : List FaultMove) (crew : Crew CampaignDb QualificationCall) : Prop :=
  RunsTo (Crew.attempt (qualification contract)) Undisturbed
    (.start .empty (runs.flatMap fun run => evaluateActiveCampaigns run.1 run.2)) moves crew

/- No pair is qualified twice, and each is recorded unless its call is about to do so. -/
structure QualifiedOnce (crew : Crew CampaignDb QualificationCall) : Prop where
  once : crew.store.qualified.Nodup
  recorded : ∀ pair ∈ crew.store.qualified,
    crew.store.isQualified pair = true ∨ crew.Some fun call => unrecorded call = some pair

theorem kept_start (runs : List (ℤ × List CampaignBatch)) :
    Kept (.start .empty (runs.flatMap fun run => evaluateActiveCampaigns run.1 run.2)) := by
  have hNone (i : ℕ) : tells underway (Crew.start CampaignDb.empty
      (runs.flatMap fun run => evaluateActiveCampaigns run.1 run.2)).calls i = none := by
    rw [Crew.start, tells, List.getElem?_map]
    cases hCall : (runs.flatMap fun run => evaluateActiveCampaigns run.1 run.2)[i]? with
    | none => rfl
    | some call =>
      rcases List.mem_flatMap.mp (List.mem_of_getElem? hCall) with ⟨run, -, hRun⟩
      rcases List.mem_flatMap.mp hRun with ⟨batch, -, hBatch⟩
      rcases List.mem_map.mp hBatch with ⟨candidate, -, rfl⟩
      rfl
  refine ⟨?_, List.nodup_nil, fun pair hMem => absurd hMem List.not_mem_nil⟩
  intro i j pair hi
  rw [hNone i] at hi
  cases hi

/- Every wallet left to a batch is qualified once. -/
theorem wallets_qualified_once {runs : List (ℤ × List CampaignBatch)} {moves : List FaultMove}
    (hRun : QualificationRun contract runs moves crew) : QualifiedOnce crew := by
  have hKept : Kept crew := RunsTo.invariant (kept_start runs) (fun _ _ _ hKept hAllowed hStep =>
    hKept.step hAllowed hStep) hRun
  refine ⟨hKept.once, fun pair hMem => ?_⟩
  rcases hKept.recorded pair hMem with ⟨i, hLeft⟩ | ⟨hRecorded, -⟩
  · right
    unfold tells at hLeft
    cases hCall : crew.calls[i]? with
    | none =>
      rw [hCall] at hLeft
      cases hLeft
    | some held =>
      rw [hCall] at hLeft
      rcases Option.bind_eq_some_iff.mp hLeft with ⟨call, hHeld, hTold⟩
      exact ⟨i, call, hCall.trans (congrArg some hHeld), hTold⟩
  · exact .inl hRecorded

/- Two runs with one candidate. -/
def sampleRuns : List (ℤ × List CampaignBatch) :=
  [(1, [⟨"c", [⟨"w", 5⟩]⟩]), (2, [⟨"c", [⟨"w", 5⟩]⟩])]

def sampleContract : CampaignContract where
  txHash _ _ _ := some "hash"
  failure := "connection lost"

theorem wallets_qualified_once_sample :
    ∃ crew, QualificationRun sampleContract sampleRuns (servedMoves 0 3 ++ servedMoves 1 1) crew ∧
      crew.store.qualified = [("c", "w")] ∧ QualifiedOnce crew := by
  have hStore : (runAllowed (Crew.attempt (qualification sampleContract)) Undisturbed
      (.start .empty (sampleRuns.flatMap fun run => evaluateActiveCampaigns run.1 run.2))
      (servedMoves 0 3 ++ servedMoves 1 1)).map (fun crew => crew.store.qualified) =
      some [("c", "w")] := by decide +kernel
  rcases Option.map_eq_some_iff.mp hStore with ⟨crew, hCrew, hQualified⟩
  have hRun := runsTo_of_runAllowed hCrew
  exact ⟨crew, hRun, hQualified, wallets_qualified_once hRun⟩

/-
  The record of a successful call fails, the candidate is logged
  as failed, and the next run qualifies it again.
-/
theorem qualified_again_after_failed_record :
    ∃ crew, RunsTo (Crew.attempt (qualification sampleContract)) (fun _ _ => True)
      (.start .empty (sampleRuns.flatMap fun run => evaluateActiveCampaigns run.1 run.2))
      (servedMoves 0 2 ++ [.attempt 0 .rejected] ++ servedMoves 0 1 ++ servedMoves 1 3) crew ∧
      crew.store.qualified = [("c", "w"), ("c", "w")] := by
  have hStore : (runLabels (Crew.attempt (qualification sampleContract))
      (.start .empty (sampleRuns.flatMap fun run => evaluateActiveCampaigns run.1 run.2))
      (servedMoves 0 2 ++ [.attempt 0 .rejected] ++ servedMoves 0 1 ++ servedMoves 1 3)).map
      (fun crew => crew.store.qualified) = some [("c", "w"), ("c", "w")] := by decide +kernel
  rcases Option.map_eq_some_iff.mp hStore with ⟨crew, hCrew, hQualified⟩
  exact ⟨crew, runsTo_of_runLabels hCrew, hQualified⟩

end

end Campaigns

end AccessLayer
