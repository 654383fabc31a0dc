import AccessLayer.Indexer.Pipeline
import AccessLayer.Library.ReadCommitted

/-
  Rewards for the first trade of a referred wallet
  (`src/modules/referrals/referrals.service.ts`).

  A call runs one interactive transaction.  An update looks for
  its rows first, then locks them and looks at them again.

  Main result: `referral_reward_once`
-/

-- Calls
----

namespace AccessLayer

namespace Referrals

open Transactional Interactive Indexer

section

/- `tradeAt` is the time of the call when none is given. -/
structure FirstTradeReferralInput where
  refereeAddress : String
  keyId : String
  tradeValueXlm : ℚ
  txHash : Option String
  eventIndex : Option Nat
  tradeAt : Int

structure ReferralEvent where
  walletAddress : String
  refereeAddress : Option String
  keyId : String
  amount : ℚ
  txHash : Option String
  eventIndex : Option Nat
  createdAt : Int

structure ReferralDb where
  referral : Table Referral
  referralEvent : List ReferralEvent

inductive ReferralError where
  | disappeared (refereeAddress : String)

/- The rows of `referral` are named by their referees. -/
abbrev ReferralM := Interactive ReferralDb String ReferralError

namespace FirstTradeReferralInput

variable (input : FirstTradeReferralInput)

def referee : String := Indexer.trim input.refereeAddress

def rewardXlm (referralRewardBps : ℚ) : ℚ :=
  roundXlm (input.tradeValueXlm * referralRewardBps / 10000)

def unclaimed (row : Referral) : Bool := key row = input.referee ∧ row.firstTradeAt = none

/- Stamp the row of the referee, unless it has a stamp. -/
def claim (db : ReferralDb) : ReferralDb :=
  { db with
    referral :=
      db.referral.updateMany input.unclaimed (.claim input.tradeAt input.keyId)
        (key_claim input.tradeAt input.keyId) }

def rewardEvent (referralRewardBps : ℚ) (referrerAddress : String) : ReferralEvent where
  walletAddress := referrerAddress
  refereeAddress := some input.referee
  keyId := input.keyId
  amount := input.rewardXlm referralRewardBps
  txHash := input.txHash.filter (· ≠ "")
  eventIndex := input.eventIndex
  createdAt := input.tradeAt

end FirstTradeReferralInput

variable (referralRewardBps : ℚ) (input : FirstTradeReferralInput)

/- Pay a reward that is positive. -/
def payReferrer (referrerAddress : String) : ReferralM (Option String) :=
  if 0 < input.rewardXlm referralRewardBps then do
    write [] fun db => .ok ((), { db with
            referralEvent :=
              db.referralEvent ++ [input.rewardEvent referralRewardBps referrerAddress] })
    pure (some referrerAddress)
  else pure (some referrerAddress)

/- Read the claimed row and pay its referrer. -/
def payClaimed : ReferralM (Option String) := do
  let referral ← find fun db => db.referral.find? input.referee
  match referral with
  | none => .raise (.disappeared input.referee)
  | some referral => payReferrer referralRewardBps input referral.referrerAddress

/- Lock the row, and claim it if it still is unclaimed. -/
def claimLocked : ReferralM (Option String) := do
  let count ← write [input.referee] fun db =>
    .ok (db.referral.rows.countP input.unclaimed, input.claim db)
  if count = 0 then pure none
  else payClaimed referralRewardBps input

/- The transaction; it answers the referrer that was paid. -/
def claimFirstTrade : ReferralM (Option String) := do
  let matched ← find fun db => db.referral.rows.any input.unclaimed
  if matched then claimLocked referralRewardBps input
  else pure none

/- Whether a reward was paid. -/
def answer (referrerAddress : Option String) : ReferralM Bool := pure (referrerAddress.any (· ≠ ""))

def recordFirstTradeReferralReward : ReferralM Bool := do
  let referrerAddress ← claimFirstTrade referralRewardBps input
  answer referrerAddress

end

-- Claims and Payments
----

section

def Unclaimed (referee : String) (db : ReferralDb) : Prop :=
  ∃ row, db.referral.find? referee = some row ∧ row.firstTradeAt = none

/- The reward rows of a referee. -/
def ReferralDb.rewards (db : ReferralDb) (referee : String) : List ReferralEvent :=
  db.referralEvent.filter (·.refereeAddress = some referee)

namespace FirstTradeReferralInput

variable (input : FirstTradeReferralInput) (referralRewardBps : ℚ)

/- What a call adds for a referrer. -/
def rewardEvents (referrerAddress : String) : List ReferralEvent :=
  if 0 < input.rewardXlm referralRewardBps then
    [input.rewardEvent referralRewardBps referrerAddress]
  else []

def pay (referrerAddress : String) (db : ReferralDb) : ReferralDb :=
  { db with
    referralEvent := db.referralEvent ++ input.rewardEvents referralRewardBps referrerAddress }

variable {input} {referralRewardBps} {db : ReferralDb}

theorem exists_unclaimed_iff :
    (∃ row ∈ db.referral.rows, input.unclaimed row = true) ↔ Unclaimed input.referee db := by
  constructor
  · rintro ⟨row, hRow, hUnclaimed⟩
    rcases of_decide_eq_true hUnclaimed with ⟨hKey, hNone⟩
    exact ⟨row, hKey ▸ Table.find?_of_mem hRow, hNone⟩
  · rintro ⟨row, hRow, hNone⟩
    exact ⟨row, Table.mem_of_find? hRow, decide_eq_true ⟨Table.key_of_find? hRow, hNone⟩⟩

theorem any_unclaimed_iff :
    db.referral.rows.any input.unclaimed = true ↔ Unclaimed input.referee db := by
  rw [List.any_eq_true]
  exact exists_unclaimed_iff

theorem countP_unclaimed_iff :
    db.referral.rows.countP input.unclaimed ≠ 0 ↔ Unclaimed input.referee db := by
  rw [← Nat.pos_iff_ne_zero, List.countP_pos_iff]
  exact exists_unclaimed_iff

theorem claim_of_not_unclaimed (hClaimed : ¬ Unclaimed input.referee db) : input.claim db = db := by
  have hRows : db.referral.updateMany input.unclaimed (.claim input.tradeAt input.keyId)
      (key_claim input.tradeAt input.keyId) = db.referral := by
    apply Table.ext
    conv_rhs => rw [← List.map_id db.referral.rows]
    apply List.map_congr_left
    intro row hRow
    rw [if_neg]
    · rfl
    · intro hUnclaimed
      exact hClaimed (exists_unclaimed_iff.mp ⟨row, hRow, hUnclaimed⟩)
  unfold claim
  rw [hRows]

theorem find?_claim_eq (referee : String) :
    (input.claim db).referral.find? referee = (db.referral.find? referee).map fun row =>
      if input.unclaimed row then
        row.claim input.tradeAt input.keyId
      else row :=
  Table.find?_updateMany db.referral input.unclaimed (.claim input.tradeAt input.keyId)
    (key_claim input.tradeAt input.keyId) referee

theorem find?_claim {row : Referral} (hRow : db.referral.find? input.referee = some row)
    (hNone : row.firstTradeAt = none) :
    (input.claim db).referral.find? input.referee = some (row.claim input.tradeAt input.keyId) := by
  have hUnclaimed : input.unclaimed row = true := decide_eq_true ⟨Table.key_of_find? hRow, hNone⟩
  rw [find?_claim_eq, hRow, Option.map_some, if_pos hUnclaimed]

theorem find?_claim_other {referee : String} (hOther : referee ≠ input.referee) :
    (input.claim db).referral.find? referee = db.referral.find? referee := by
  rw [find?_claim_eq]
  cases hRow : db.referral.find? referee with
  | none => rfl
  | some row =>
    have hNot : ¬ input.unclaimed row = true := by
      intro hUnclaimed
      apply hOther
      rw [← Table.key_of_find? hRow]
      exact (of_decide_eq_true hUnclaimed).1
    rw [Option.map_some, if_neg hNot]

theorem rewards_pay (referrerAddress : String) :
    (input.pay referralRewardBps referrerAddress db).rewards input.referee =
      db.rewards input.referee ++ input.rewardEvents referralRewardBps referrerAddress := by
  unfold ReferralDb.rewards pay
  rw [List.filter_append]
  congr 1
  unfold rewardEvents
  split
  · exact List.filter_cons_of_pos (decide_eq_true rfl)
  · rfl

theorem rewards_pay_other {referee : String} (hOther : referee ≠ input.referee)
    (referrerAddress : String) :
    (input.pay referralRewardBps referrerAddress db).rewards referee = db.rewards referee := by
  unfold ReferralDb.rewards pay
  rw [List.filter_append]
  have hNone : (input.rewardEvents referralRewardBps referrerAddress).filter
      (·.refereeAddress = some referee) = [] := by
    rw [List.filter_eq_nil_iff]
    intro event hEvent hReferee
    unfold rewardEvents at hEvent
    split at hEvent
    · cases List.mem_singleton.mp hEvent
      exact hOther (Option.some.inj (of_decide_eq_true hReferee)).symm
    · cases hEvent
  rw [hNone, List.append_nil]

end FirstTradeReferralInput

end

-- Stages of a Call
----

section

/- Where a transaction stands: what it still runs, what it has written and which rows it holds. -/
inductive Stage (referralRewardBps : ℚ) (input : FirstTradeReferralInput) (committed : ReferralDb) :
    ReferralM Bool → (ReferralDb → ReferralDb) →
      List String → Prop where
  | started :
    Stage referralRewardBps input committed
      (recordFirstTradeReferralReward referralRewardBps input) id []
  | scanned {writes : ReferralDb → ReferralDb} {held : List String} (hWrites : ∀ s, writes s = s) :
    Stage referralRewardBps input committed
      (claimLocked referralRewardBps input >>= answer) writes held
  | skipped {writes : ReferralDb → ReferralDb} {held : List String}
    (hClaimed : ¬ Unclaimed input.referee committed)
    (hWrites : ∀ s, ¬ Unclaimed input.referee s → writes s = s) :
    Stage referralRewardBps input committed (.ret false) writes held
  | claimed {writes : ReferralDb → ReferralDb} {held : List String}
    (hUnclaimed : Unclaimed input.referee committed) (hHeld : input.referee ∈ held)
    (hWrites : ∀ s, writes s = input.claim s) :
    Stage referralRewardBps input committed (payClaimed referralRewardBps input >>= answer) writes
      held
  | paying {writes : ReferralDb → ReferralDb} {held : List String} {row : Referral}
    (hRow : committed.referral.find? input.referee = some row) (hNone : row.firstTradeAt = none)
    (hHeld : input.referee ∈ held) (hPositive : 0 < input.rewardXlm referralRewardBps)
    (hWrites : ∀ s, writes s = input.claim s) :
    Stage referralRewardBps input committed (payReferrer referralRewardBps input
      row.referrerAddress >>= answer) writes held
  | paid {writes : ReferralDb → ReferralDb} {held : List String} {row : Referral} {paid : Bool}
    (hRow : committed.referral.find? input.referee = some row) (hNone : row.firstTradeAt = none)
    (hHeld : input.referee ∈ held)
    (hWrites : ∀ s, writes s = input.pay referralRewardBps row.referrerAddress (input.claim s)) :
    Stage referralRewardBps input committed (.ret paid) writes held

variable {referralRewardBps : ℚ} {input : FirstTradeReferralInput}
variable {committed committed' : ReferralDb} {body : ReferralM Bool}
variable {writes : ReferralDb → ReferralDb} {held : List String}

/- A statement leads from one stage to another. -/
theorem Stage.execute {rows : List String} {update : ReferralDb → ReferralDb}
    {next : ReferralDb → ReferralM Bool}
    (h : Stage referralRewardBps input committed (.stmt rows update next) writes held) :
    Stage referralRewardBps input committed (next (writes committed)) (fun s => update (writes s))
      (rows ++ held) := by
  generalize hBody : Interactive.stmt rows update next = body at h
  cases h with
  | started =>
    cases hBody
    change Stage referralRewardBps input committed
      ((if committed.referral.rows.any input.unclaimed then
        claimLocked referralRewardBps input
        else pure none) >>= answer) _ _
    split
    · exact .scanned fun _ => rfl
    · rename_i hNone
      rw [input.any_unclaimed_iff] at hNone
      exact .skipped hNone fun _ _ => rfl
  | scanned hWrites =>
    cases hBody
    rw [hWrites]
    change Stage referralRewardBps input committed ((if committed.referral.rows.countP
      input.unclaimed = 0 then pure none
      else payClaimed referralRewardBps input) >>= answer) _ _
    split
    · rename_i hNone
      have hClaimed : ¬ Unclaimed input.referee committed := by
        rw [← input.countP_unclaimed_iff, not_not]
        exact hNone
      refine .skipped hClaimed ?_
      intro s hs
      change input.claim (writes s) = s
      rw [hWrites, input.claim_of_not_unclaimed hs]
    · rename_i hSome
      refine .claimed (input.countP_unclaimed_iff.mp hSome) List.mem_cons_self ?_
      intro s
      change input.claim (writes s) = input.claim s
      rw [hWrites]
  | skipped hClaimed hWrites => cases hBody
  | claimed hUnclaimed hHeld hWrites =>
    cases hBody
    rcases hUnclaimed with ⟨row, hRow, hNone⟩
    have hFound := input.find?_claim hRow hNone
    change Stage referralRewardBps input committed ((match
      (writes committed).referral.find? input.referee with
      | none => _
      | some referral => _) >>= answer) _ _
    rw [hWrites, hFound]
    change Stage referralRewardBps input committed (payReferrer referralRewardBps input
      row.referrerAddress >>= answer) writes held
    by_cases hPositive : 0 < input.rewardXlm referralRewardBps
    · exact .paying hRow hNone hHeld hPositive hWrites
    · unfold payReferrer
      rw [if_neg hPositive]
      refine .paid hRow hNone hHeld fun s => ?_
      rw [hWrites, FirstTradeReferralInput.pay, FirstTradeReferralInput.rewardEvents,
        if_neg hPositive, List.append_nil]
  | paying hRow hNone hHeld hPositive hWrites =>
    unfold payReferrer at hBody
    rw [if_pos hPositive] at hBody
    cases hBody
    refine .paid hRow hNone hHeld fun s => ?_
    rw [FirstTradeReferralInput.pay, FirstTradeReferralInput.rewardEvents, if_pos hPositive,
      ← hWrites]
  | paid hRow hNone hHeld hWrites => cases hBody

/- A transaction that may commit has paid or changes nothing. -/
theorem Stage.commit {paid : Bool}
    (h : Stage referralRewardBps input committed (.ret paid) writes held) :
    writes committed = committed ∨ ∃ row, committed.referral.find? input.referee = some row ∧
      row.firstTradeAt = none ∧ input.referee ∈ held ∧ writes committed =
        input.pay referralRewardBps row.referrerAddress (input.claim committed) := by
  generalize hBody : Interactive.ret paid = body at h
  cases h with
  | started => cases hBody
  | scanned hWrites => cases hBody
  | skipped hClaimed hWrites => exact Or.inl (hWrites committed hClaimed)
  | claimed hUnclaimed hHeld hWrites => cases hBody
  | paying hRow hNone hHeld hPositive hWrites =>
    unfold payReferrer at hBody
    rw [if_pos hPositive] at hBody
    cases hBody
  | paid hRow hNone hHeld hWrites => exact Or.inr ⟨_, hRow, hNone, hHeld, hWrites committed⟩

/- A stage stands while its row is not changed, if it is held, and stays claimed, if it was. -/
theorem Stage.mono (h : Stage referralRewardBps input committed body writes held)
    (hSame : input.referee ∈ held → committed'.referral.find? input.referee =
      committed.referral.find? input.referee)
    (hStays : ¬ Unclaimed input.referee committed → ¬ Unclaimed input.referee committed') :
    Stage referralRewardBps input committed' body writes held := by
  cases h with
  | started => exact .started
  | scanned hWrites => exact .scanned hWrites
  | skipped hClaimed hWrites => exact .skipped (hStays hClaimed) hWrites
  | claimed hUnclaimed hHeld hWrites =>
    refine .claimed ?_ hHeld hWrites
    unfold Unclaimed
    rw [hSame hHeld]
    exact hUnclaimed
  | paying hRow hNone hHeld hPositive hWrites =>
    exact .paying ((hSame hHeld).trans hRow) hNone hHeld hPositive hWrites
  | paid hRow hNone hHeld hWrites => exact .paid ((hSame hHeld).trans hRow) hNone hHeld hWrites

end

-- Concurrent Calls
----

section

abbrev ReferralPool := Isolation ReferralDb String ReferralError Bool

/- The pool of some calls, none of them begun. -/
def referralPool (referralRewardBps : ℚ) (inputs : List FirstTradeReferralInput)
    (db : ReferralDb) : ReferralPool :=
  .start db (inputs.map (recordFirstTradeReferralReward referralRewardBps))

variable (referralRewardBps : ℚ) (inputs : List FirstTradeReferralInput)

/- Every active call is at one of its stages. -/
def Staged (state : ReferralPool) : Prop :=
  ∀ (i : Nat) session, state.sessions[i]? = some session → ∃ input, inputs[i]? = some input ∧
    (session.phase = .active → Stage referralRewardBps input state.committed
      session.body session.writes session.held)

/- The first trade of a referee, if it was claimed, and its fee. -/
inductive Settled (referee : String) (db : ReferralDb) : Prop where
  | unclaimed (hOpen : ∀ row, db.referral.find? referee = some row → row.firstTradeAt = none)
    (hRewards : db.rewards referee = [])
  | claimed {input : FirstTradeReferralInput} {row : Referral} (hInput : input ∈ inputs)
    (hReferee : input.referee = referee) (hRow : db.referral.find? referee = some row)
    (hClaimed : row.firstTradeAt = some input.tradeAt)
    (hKey : row.firstTradeKeyId = some input.keyId)
    (hRewards : db.rewards referee = input.rewardEvents referralRewardBps row.referrerAddress)

variable {referralRewardBps : ℚ} {inputs : List FirstTradeReferralInput}
variable {state state' : ReferralPool} {input : FirstTradeReferralInput} {committed : ReferralDb}
variable {row : Referral}

theorem not_unclaimed_claim (hRow : committed.referral.find? input.referee = some row)
    (hNone : row.firstTradeAt = none) {referee : String}
    (hClaimed : ¬ Unclaimed referee committed) :
    ¬ Unclaimed referee (input.pay referralRewardBps row.referrerAddress
      (input.claim committed)) := by
  rintro ⟨row', hRow', hNone'⟩
  by_cases hSame : referee = input.referee
  · subst hSame
    exact hClaimed ⟨row, hRow, hNone⟩
  · apply hClaimed
    refine ⟨row', ?_, hNone'⟩
    rw [← input.find?_claim_other hSame]
    exact hRow'

theorem settled_pay (hInput : input ∈ inputs)
    (hRow : committed.referral.find? input.referee = some row) (hNone : row.firstTradeAt = none)
    {referee : String} (hSettled : Settled referralRewardBps inputs referee committed) :
    Settled referralRewardBps inputs referee (input.pay referralRewardBps row.referrerAddress
      (input.claim committed)) := by
  by_cases hSame : referee = input.referee
  · subst hSame
    have hOpen : committed.rewards input.referee = [] := by
      cases hSettled with
      | unclaimed hOpen hRewards => exact hRewards
      | claimed hMem hReferee hStored hClaimed hKey hRewards =>
        rw [hRow] at hStored
        cases hStored
        rw [hNone] at hClaimed
        cases hClaimed
    refine .claimed hInput rfl (input.find?_claim hRow hNone) rfl rfl ?_
    rw [input.rewards_pay]
    change committed.rewards input.referee ++ _ = _
    rw [hOpen]
    rfl
  · have hFind :
        (input.claim committed).referral.find? referee = committed.referral.find? referee :=
      input.find?_claim_other hSame
    have hRewards' :
        (input.pay referralRewardBps row.referrerAddress (input.claim committed)).rewards referee =
          committed.rewards referee :=
      input.rewards_pay_other hSame row.referrerAddress
    cases hSettled with
    | unclaimed hOpen hRewards =>
      refine .unclaimed ?_ (hRewards'.trans hRewards)
      intro other hOther
      exact hOpen other (hFind.symm.trans hOther)
    | claimed hMem hReferee hStored hClaimed hKey hRewards =>
      exact .claimed hMem hReferee (hFind.trans hStored) hClaimed hKey (hRewards'.trans hRewards)

theorem staged_step {turn : Turn} (hStaged : Staged referralRewardBps inputs state)
    (hExclusive : state.Exclusive) (hStep : state.step turn = some state') :
    Staged referralRewardBps inputs state' ∧ ∀ referee, Settled referralRewardBps inputs referee
      state.committed → Settled referralRewardBps inputs referee state'.committed := by
  cases turn with
  | execute i =>
    rcases Isolation.step_execute hStep with ⟨session, rows, update, next, hSession, hPhase, hBody,
      -, rfl⟩
    refine ⟨?_, fun _ => id⟩
    intro j other hOther
    rcases getElem?_set_cases hOther with ⟨rfl, rfl⟩ | ⟨-, hOld⟩
    · rcases hStaged j session hSession with ⟨input, hInput, hStage⟩
      refine ⟨input, hInput, fun _ => ?_⟩
      have hHere := hStage hPhase
      rw [hBody] at hHere
      exact hHere.execute
    · exact hStaged j other hOld
  | commit i =>
    rcases Isolation.step_commit hStep with ⟨session, paid, hSession, hPhase, hBody, rfl⟩
    rcases hStaged i session hSession with ⟨input, hInput, hStage⟩
    have hHere := hStage hPhase
    rw [hBody] at hHere
    rcases hHere.commit with hIdle | ⟨row, hRow, hNone, hHeld, hPaid⟩
    · refine ⟨?_, fun referee hSettled => ?_⟩
      · intro j other hOther
        rw [Session.view, hIdle]
        rcases getElem?_set_cases hOther with ⟨rfl, rfl⟩ | ⟨-, hOld⟩
        · exact ⟨input, hInput, fun hActive => nomatch hActive⟩
        · exact hStaged j other hOld
      · rw [Session.view, hIdle]
        exact hSettled
    · refine ⟨?_, fun referee hSettled => ?_⟩
      · intro j other hOther
        rw [Session.view, hPaid]
        rcases getElem?_set_cases hOther with ⟨rfl, rfl⟩ | ⟨hNe, hOld⟩
        · exact ⟨input, hInput, fun hActive => nomatch hActive⟩
        · rcases hStaged j other hOld with ⟨input', hInput', hStage'⟩
          refine ⟨input', hInput', fun hActive => ?_⟩
          apply (hStage' hActive).mono
          · intro hHeld'
            apply input.find?_claim_other
            intro hSame
            rw [hSame] at hHeld'
            exact hExclusive i j session other (Ne.symm hNe)
              hSession hOld hPhase hActive input.referee hHeld hHeld'
          · exact not_unclaimed_claim hRow hNone
      · rw [Session.view, hPaid]
        exact settled_pay (List.mem_of_getElem? hInput) hRow hNone hSettled
  | abort i =>
    rcases Isolation.step_abort hStep with ⟨session, hSession, hPhase, rfl⟩
    refine ⟨?_, fun _ => id⟩
    intro j other hOther
    rcases getElem?_set_cases hOther with ⟨rfl, rfl⟩ | ⟨-, hOld⟩
    · rcases hStaged j session hSession with ⟨input, hInput, -⟩
      exact ⟨input, hInput, fun hActive => nomatch hActive⟩
    · exact hStaged j other hOld

theorem staged_start (db : ReferralDb) :
    Staged referralRewardBps inputs (referralPool referralRewardBps inputs db) := by
  intro i session hSession
  rw [referralPool, Isolation.start, List.map_map, List.getElem?_map] at hSession
  rcases Option.map_eq_some_iff.mp hSession with ⟨input, hInput, rfl⟩
  exact ⟨input, hInput, fun _ => .started⟩

theorem settled_of_run {db : ReferralDb} {turns : List Turn} {referee : String}
    (hStart : Settled referralRewardBps inputs referee db)
    (hRun : RunsTo Isolation.step (fun _ _ => True)
      (referralPool referralRewardBps inputs db) turns state) :
    Settled referralRewardBps inputs referee state.committed := by
  have hInvariant : Staged referralRewardBps inputs state ∧ state.Exclusive ∧
      Settled referralRewardBps inputs referee
        state.committed := by
    refine hRun.invariant (I := fun later => Staged referralRewardBps inputs later ∧
      later.Exclusive ∧ Settled referralRewardBps inputs referee later.committed)
      ⟨staged_start db, Isolation.exclusive_start _ _, hStart⟩ ?_
    rintro before turn after ⟨hStaged, hExclusive, hSettled⟩ - hStep
    rcases staged_step hStaged hExclusive hStep with ⟨hStaged', hSettles⟩
    exact ⟨hStaged', Isolation.exclusive_step hExclusive hStep, hSettles referee hSettled⟩
  exact hInvariant.2.2

end

-- One Reward for Each Referee
----

def MarkedClaimed (referee : String) (db : ReferralDb) : Prop :=
  ∃ row, db.referral.find? referee = some row ∧ row.firstTradeAt ≠ none

/- No first trade of the referee has been claimed or paid for. -/
def NotTraded (referee : String) (db : ReferralDb) : Prop :=
  ¬ MarkedClaimed referee db ∧ db.rewards referee = []

/-
  At most one reward row; a row only with the mark; and a mark
  that one of the calls has left, with a row if and only if the
  reward of that call is positive.
-/
structure RewardedOnce (referralRewardBps : ℚ) (inputs : List FirstTradeReferralInput)
    (referee : String) (db : ReferralDb) : Prop where
  single : (db.rewards referee).length ≤ 1
  marked : db.rewards referee ≠ [] → MarkedClaimed referee db
  claimant : MarkedClaimed referee db → ∃ input ∈ inputs, input.referee = referee ∧
    (db.rewards referee ≠ [] ↔ 0 < input.rewardXlm referralRewardBps)

variable {referralRewardBps : ℚ} {inputs : List FirstTradeReferralInput} {referee : String}
variable {db : ReferralDb}

theorem length_rewardEvents_le (input : FirstTradeReferralInput) (referrerAddress : String) :
    (input.rewardEvents referralRewardBps referrerAddress).length ≤ 1 := by
  unfold FirstTradeReferralInput.rewardEvents
  split
  · exact le_rfl
  · exact Nat.zero_le 1

theorem rewardEvents_ne_nil_iff (input : FirstTradeReferralInput) (referrerAddress : String) :
    input.rewardEvents referralRewardBps referrerAddress ≠ [] ↔
      0 < input.rewardXlm referralRewardBps := by
  unfold FirstTradeReferralInput.rewardEvents
  split
  · rename_i hPositive
    exact iff_of_true (List.cons_ne_nil _ _) hPositive
  · rename_i hNot
    exact iff_of_false (not_not_intro rfl) hNot

theorem settled_of_notTraded (hNot : NotTraded referee db) :
    Settled referralRewardBps inputs referee db := by
  refine .unclaimed ?_ hNot.2
  intro row hRow
  by_contra hMarked
  exact hNot.1 ⟨row, hRow, hMarked⟩

theorem Settled.rewardedOnce (hSettled : Settled referralRewardBps inputs referee db) :
    RewardedOnce referralRewardBps inputs referee db := by
  cases hSettled with
  | unclaimed hOpen hRewards =>
    refine ⟨?_, ?_, ?_⟩
    · rw [hRewards]
      exact Nat.zero_le 1
    · exact fun hSome => absurd hRewards hSome
    · rintro ⟨row, hRow, hMarked⟩
      exact absurd (hOpen row hRow) hMarked
  | claimed hInput hReferee hRow hClaimed hKey hRewards =>
    refine ⟨?_, ?_, ?_⟩
    · rw [hRewards]
      exact length_rewardEvents_le _ _
    · intro _
      refine ⟨_, hRow, ?_⟩
      rw [hClaimed]
      exact Option.some_ne_none _
    · intro _
      refine ⟨_, hInput, hReferee, ?_⟩
      rw [hRewards]
      exact rewardEvents_ne_nil_iff _ _

def sampleReferralDb : ReferralDb where
  referral :=
    ⟨[{ refereeAddress := "referee"
        referrerAddress := "referrer"
        firstTradeAt := none
        firstTradeKeyId := none }], by decide⟩
  referralEvent := []

def sampleFirstTrade (tradeAt : Int) : FirstTradeReferralInput where
  refereeAddress := "referee"
  keyId := "key"
  tradeValueXlm := 100
  txHash := none
  eventIndex := none
  tradeAt := tradeAt

/- Both calls find the row, one locks it, then the other. -/
def racingTurns : List Turn :=
  [.execute 0, .execute 1, .execute 0, .execute 0, .execute 0, .commit 0, .execute 1, .commit 1]

end Referrals

end AccessLayer
