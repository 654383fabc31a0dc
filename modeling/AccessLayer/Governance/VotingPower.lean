import AccessLayer.Governance.Tally
import Mathlib.Tactic.Linarith

/-
  Whether the balance of a holder counts more than once on a
  proposal.

  A vote carries the voter's balance and those of its active
  delegators.  The voter's own delegation is not looked at, and
  delegators may vote as well, so a balance can be counted by
  two votes.

  Main result: `power_bounded`
-/

-- Balances of Some Holders
----

namespace AccessLayer

namespace Governance

open Transactional Program Indexer Keys

section

variable {db : VotingDb} {keyId : String} {p q r : String → Prop}
variable [DecidablePred p] [DecidablePred q] [DecidablePred r]

/- The sum of the balances of a key's holders that satisfy `p`. -/
def held (db : VotingDb) (keyId : String) (p : String → Prop) [DecidablePred p] : ℚ :=
  db.keyOwnership.total fun row =>
    if p row.ownerAddress ∧ row.creatorId = keyId ∧ 0 < row.balance then row.balance
    else 0

theorem held_mono (hSub : ∀ wallet, p wallet → q wallet) : held db keyId p ≤ held db keyId q := by
  apply Table.total_le_total
  intro row _
  split
  · rename_i hRow
    rw [if_pos ⟨hSub _ hRow.1, hRow.2⟩]
  · split
    · rename_i hRow
      exact hRow.2.2.le
    · exact le_refl _

/- Holders of two kinds, none of which is of both. -/
theorem held_add_le (hDisjoint : ∀ wallet, p wallet → ¬ q wallet)
    (hLeft : ∀ wallet, p wallet → r wallet) (hRight : ∀ wallet, q wallet → r wallet) :
    held db keyId p + held db keyId q ≤ held db keyId r := by
  unfold held
  rw [← Table.total_add]
  apply Table.total_le_total
  intro row _
  by_cases hHolds : row.creatorId = keyId ∧ 0 < row.balance
  · by_cases hp : p row.ownerAddress
    · have hq := hDisjoint _ hp
      have hr := hLeft _ hp
      simp [hp, hq, hr, hHolds]
    · rw [if_neg fun hRow => hp hRow.1, zero_add]
      by_cases hq : q row.ownerAddress
      · have hr := hRight _ hq
        simp [hq, hr, hHolds]
      · rw [if_neg fun hRow => hq hRow.1]
        split
        · exact hHolds.2.le
        · exact le_refl _
  · rw [if_neg fun hRow => hHolds hRow.2, if_neg fun hRow => hHolds hRow.2,
      if_neg fun hRow => hHolds hRow.2, add_zero]

theorem held_self {wallet : String} (hEligible : 0 < ownBalanceOf db wallet keyId) :
    ownBalanceOf db wallet keyId ≤ held db keyId (· = wallet) := by
  unfold ownBalanceOf at hEligible ⊢
  cases hRow : db.keyOwnership.find? (wallet, keyId) with
  | none =>
    rw [hRow] at hEligible
    exact absurd hEligible (lt_irrefl 0)
  | some row =>
    rw [hRow] at hEligible
    change 0 < row.balance at hEligible
    have hKey := Table.key_of_find? hRow
    have hOwner : row.ownerAddress = wallet := congrArg Prod.fst hKey
    have hCreator : row.creatorId = keyId := congrArg Prod.snd hKey
    apply List.single_le_sum
    · intro balance hMem
      rcases List.mem_map.mp hMem with ⟨other, -, rfl⟩
      split
      · rename_i hHolds
        exact hHolds.2.2.le
      · exact le_refl _
    · refine List.mem_map.mpr ⟨row, Table.mem_of_find? hRow, ?_⟩
      rw [if_pos ⟨hOwner, hCreator, hEligible⟩]
      rfl

end

-- Delegates
----

variable {db db' : VotingDb}

/- The wallet that carries the weight of a holder, if any. -/
def delegateOf (db : VotingDb) (wallet keyId : String) : Option String :=
  ((db.voteDelegation.find? (wallet, keyId)).filter
    VoteDelegation.isActive).map VoteDelegation.delegateeWallet

/- The delegators that a vote counts. -/
def delegatorsOf (db : VotingDb) (wallet keyId : String) : List String :=
  (db.activeDelegations wallet keyId).map VoteDelegation.delegatorWallet

theorem mem_delegatorsOf {wallet keyId holder : String} :
    holder ∈ delegatorsOf db wallet keyId ↔ delegateOf db holder keyId = some wallet := by
  unfold delegatorsOf delegateOf VotingDb.activeDelegations
  constructor
  · intro hMem
    rcases List.mem_map.mp hMem with ⟨row, hRow, rfl⟩
    rcases List.mem_filter.mp hRow with ⟨hStored, hMatch⟩
    have hFields : (row.delegateeWallet = wallet ∧ row.keyId = keyId) ∧
        row.isActive = true := by
      simpa using hMatch
    rcases hFields with ⟨⟨hDelegatee, rfl⟩, hActive⟩
    have hFound := Table.find?_of_mem hStored
    change db.voteDelegation.find? (row.delegatorWallet, row.keyId) = _ at hFound
    rw [hFound, Option.filter_some_pos hActive, Option.map_some, hDelegatee]
  · intro hDelegate
    rcases Option.map_eq_some_iff.mp hDelegate with ⟨row, hRow, hDelegatee⟩
    rcases Option.filter_eq_some_iff.mp hRow with ⟨hFound, hActive⟩
    have hKey := Table.key_of_find? hFound
    have hDelegator : row.delegatorWallet = holder := congrArg Prod.fst hKey
    have hKeyId : row.keyId = keyId := congrArg Prod.snd hKey
    refine List.mem_map.mpr ⟨row, List.mem_filter.mpr ⟨Table.mem_of_find? hFound, ?_⟩, hDelegator⟩
    simp [hDelegatee, hKeyId, hActive]

/- What an event leaves: all but the delegation it names. -/
structure DelegationKept (event : DelegationEvent) (db db' : VotingDb) : Prop where
  governance : db'.governance = db.governance
  keyOwnership : db'.keyOwnership = db.keyOwnership
  others : ∀ wallet keyId, ¬ (event.payload.delegatorWallet = some wallet ∧
    event.payload.keyId = some keyId) → delegateOf db' wallet keyId = delegateOf db wallet keyId

theorem DelegationKept.refl (event : DelegationEvent) (db : VotingDb) :
    DelegationKept event db db := ⟨rfl, rfl, fun _ _ _ => rfl⟩

variable {event : DelegationEvent} {row : VoteDelegationHistory}

theorem kept_of_appendHistory (h : DelegationKept event db db') {after : VotingDb}
    (hOk : appendHistory row db' = .ok ((), after)) :
    DelegationKept event db after := by
  unfold appendHistory at hOk
  split at hOk
  · cases hOk
  · cases hOk
    exact ⟨h.governance, h.keyOwnership, h.others⟩

theorem named_of_historyRow {delegateeWallet : Option String} {action : DelegationAction}
    (h : historyRow event delegateeWallet action = some row) :
    event.payload.delegatorWallet = some row.delegatorWallet ∧
      event.payload.keyId = some row.keyId := by
  unfold historyRow at h
  simp only [Option.bind_eq_bind, Option.bind_eq_some_iff] at h
  rcases h with ⟨delegatorWallet, hDelegator, keyId, hKey, _, -, _, -, _, -, hRow⟩
  cases hRow
  exact ⟨(Option.filter_eq_some_iff.mp hDelegator).1, (Option.filter_eq_some_iff.mp hKey).1⟩

theorem kept_setDelegation (hNamed : event.payload.delegatorWallet = some row.delegatorWallet ∧
    event.payload.keyId = some row.keyId) (delegateeWallet : String) (db : VotingDb) :
    DelegationKept event db (db.setDelegation row delegateeWallet) := by
  refine ⟨rfl, rfl, ?_⟩
  intro wallet keyId hOther
  unfold delegateOf VotingDb.setDelegation
  rw [Table.find?_upsert, if_neg]
  intro hSame
  rcases Prod.mk.inj hSame with ⟨rfl, rfl⟩
  exact hOther hNamed

theorem kept_revokeDelegation (hNamed : event.payload.delegatorWallet = some row.delegatorWallet ∧
    event.payload.keyId = some row.keyId) (db : VotingDb) :
    DelegationKept event db (db.revokeDelegation row) := by
  refine ⟨rfl, rfl, ?_⟩
  intro wallet keyId hOther
  unfold delegateOf VotingDb.revokeDelegation
  rw [Table.find?_update_other]
  intro hSame
  rcases Prod.mk.inj hSame with ⟨rfl, rfl⟩
  exact hOther hNamed

variable {accepts : String → Bool}

theorem ok_of_withActivity {type : String} {result : Unit × VotingDb}
    {change : VotingDb → Except GovernanceError (Unit × VotingDb)}
    (hOk : withActivity accepts type change db = .ok result) : change db = .ok result := by
  unfold withActivity at hOk
  split at hOk
  · exact hOk
  · cases hOk

/- The spec of both handlers. -/
theorem ensures_applyDelegationEvent (event : DelegationEvent) (db : VotingDb) :
    (applyDelegationEvent accepts event).Ensures db (fun _ => DelegationKept event db)
      (DelegationKept event db) := by
  have hRefl := DelegationKept.refl event db
  unfold applyDelegationEvent
  split
  · unfold applyDelegationSet
    split
    · exact ensures_pure hRefl
    rename_i delegateeWallet _
    split
    · exact ensures_pure hRefl
    rename_i row hRow
    have hNamed := named_of_historyRow hRow
    apply ensures_query_bind
    split
    · exact ensures_pure hRefl
    apply ensures_query_bind
    split
    · exact ensures_execute (fun _ _ hOk => kept_of_appendHistory hRefl hOk) hRefl
    · exact ensures_execute (fun _ _ hOk => kept_of_appendHistory
        (kept_setDelegation hNamed delegateeWallet db) (ok_of_withActivity hOk)) hRefl
  · split
    · unfold applyDelegationRevoked
      split
      · exact ensures_pure hRefl
      rename_i row hRow
      have hNamed := named_of_historyRow hRow
      apply ensures_query_bind
      split
      · exact ensures_pure hRefl
      apply ensures_query_bind
      split
      · exact ensures_execute (fun _ _ hOk => kept_of_appendHistory hRefl hOk) hRefl
      · exact ensures_execute (fun _ _ hOk => kept_of_appendHistory
          (kept_revokeDelegation hNamed db) (ok_of_withActivity hOk)) hRefl
    · exact ensures_pure hRefl

-- Recorded Power
----

variable {proposal : ProposalKey} {call : KeyVoteCall}

def HasVoted (db : VotingDb) (proposal : ProposalKey) (wallet : String) : Prop :=
  (db.governance.governanceVote.find? (proposal, wallet)).isSome = true

instance (db : VotingDb) (proposal : ProposalKey) (wallet : String) :
    Decidable (HasVoted db proposal wallet) := inferInstanceAs (Decidable (_ = true))

/- A holder that has voted, or whose delegate has. -/
def Counted (db : VotingDb) (proposal : ProposalKey) (wallet : String) : Prop :=
  HasVoted db proposal wallet ∨ ∃ delegate ∈ delegateOf db wallet proposal.1,
    HasVoted db proposal delegate

instance (db : VotingDb) (proposal : ProposalKey) : DecidablePred (Counted db proposal) :=
  fun wallet =>
    match hDelegate : delegateOf db wallet proposal.1 with
    | none =>
      decidable_of_iff (HasVoted db proposal wallet) (by
        simp [Counted, hDelegate])
    | some delegate =>
      decidable_of_iff (HasVoted db proposal wallet ∨ HasVoted db proposal delegate) (by
        simp [Counted, hDelegate])

def recordedPower (db : VotingDb) (proposal : ProposalKey) : ℤ :=
  db.governance.governanceVote.total fun vote =>
    if vote.proposal = proposal then vote.weight else 0

theorem vote_recorded (h : KeyVoteRecorded call db db') :
    ∃ vote : GovernanceVote, ∃ hFresh, key vote = ((call.keyId, call.proposalId), call.wallet) ∧
      db'.governance.governanceVote = db.governance.governanceVote.create vote hFresh ∧
      (vote.weight : ℚ) = ownBalanceOf db call.wallet call.keyId + held db call.keyId
        (· ∈ delegatorsOf db call.wallet call.keyId) := by
  rcases h.recorded with ⟨current, option, tallies, weight, -, -, hWeight, hTally⟩
  unfold tallyVote at hTally
  split at hTally
  · cases hTally
  · split at hTally
    · cases hTally
    · rename_i votes hInsert
      rcases Table.exists_create_of_insert? hInsert with ⟨hFresh, rfl⟩
      have hVotes := congrArg (fun result =>
        (result.toOption.map fun pair => pair.2.governanceVote)) hTally
      exact ⟨_, hFresh, rfl, (Option.some.inj hVotes).symm, hWeight⟩

theorem delegateOf_recorded (h : KeyVoteRecorded call db db') (wallet keyId : String) :
    delegateOf db' wallet keyId = delegateOf db wallet keyId := by
  rw [h.kept]
  rfl

theorem held_recorded (h : KeyVoteRecorded call db db') (keyId : String) (p : String → Prop)
    [DecidablePred p] :
    held db' keyId p = held db keyId p := by
  rw [h.kept]
  rfl

theorem hasVoted_recorded (h : KeyVoteRecorded call db db') (wallet : String) :
    HasVoted db' proposal wallet ↔ ((call.keyId, call.proposalId) = proposal ∧
      wallet = call.wallet) ∨
      HasVoted db proposal wallet := by
  rcases vote_recorded h with ⟨vote, hFresh, hKey, hVotes, -⟩
  unfold HasVoted
  rw [hVotes, Table.find?_create, hKey]
  by_cases hSame : (proposal, wallet) = ((call.keyId, call.proposalId), call.wallet)
  · rcases Prod.mk.inj hSame with ⟨rfl, rfl⟩
    simp
  · rw [if_neg hSame, or_iff_right]
    rintro ⟨hProposal, hWallet⟩
    exact hSame (by rw [hProposal, hWallet])

theorem recordedPower_recorded (h : KeyVoteRecorded call db db') :
    (recordedPower db' proposal : ℚ) = recordedPower db proposal +
      if (call.keyId, call.proposalId) = proposal then
        ownBalanceOf db call.wallet call.keyId + held db call.keyId
          (· ∈ delegatorsOf db call.wallet call.keyId)
      else 0 := by
  rcases vote_recorded h with ⟨vote, hFresh, hKey, hVotes, hWeight⟩
  have hOn : vote.proposal = (call.keyId, call.proposalId) := congrArg Prod.fst hKey
  unfold recordedPower
  rw [hVotes, Table.total_create, hOn]
  split
  · rw [Int.cast_add, hWeight]
  · rw [add_zero, add_zero]

-- Bounded Power
----

/- A wallet votes, or a delegation changes. -/
inductive PowerStep where
  | vote (call : KeyVoteCall)
  | delegate (event : DelegationEvent)

/- The tables that a step leaves, however it ends. -/
def PowerStep.apply (accepts : String → Bool) (db : VotingDb) : PowerStep → VotingDb
  | .vote call => (castKeyProposalVote call).final db
  | .delegate event => (applyDelegationEvent accepts event).final db

def PowerStep.step (accepts : String → Bool) (db : VotingDb) (label : PowerStep) :
    Option VotingDb := some (label.apply accepts db)

/-
  A voter on the proposal does not delegate to itself or to a
  wallet that has voted, and none of its delegators has voted.
  A delegation to a wallet that has voted is left as it is.
-/
def PowerStep.Admissible (proposal : ProposalKey) (db : VotingDb) : PowerStep → Prop
  | .vote call =>
    (call.keyId, call.proposalId) = proposal → (∀ delegate ∈ delegateOf db call.wallet call.keyId,
      delegate ≠ call.wallet ∧ ¬ HasVoted db proposal delegate) ∧
      ∀ holder ∈ delegatorsOf db call.wallet call.keyId, ¬ HasVoted db proposal holder
  | .delegate event =>
    ∀ wallet ∈ event.payload.delegatorWallet, event.payload.keyId = some proposal.1 →
      ∀ delegate ∈ delegateOf db wallet proposal.1, ¬ HasVoted db proposal delegate

instance (proposal : ProposalKey) (db : VotingDb) (label : PowerStep) :
    Decidable (label.Admissible proposal db) :=
  match label with
  | .vote _ => inferInstanceAs (Decidable (_ → (∀ delegate ∈ _, _ ∧ ¬ _) ∧ ∀ holder ∈ _, ¬ _))
  | .delegate _ => inferInstanceAs (Decidable (∀ wallet ∈ _, _ → ∀ delegate ∈ _, ¬ _))

/- The weights recorded so far are of balances counted once. -/
def Bounded (proposal : ProposalKey) (db : VotingDb) : Prop :=
  (recordedPower db proposal : ℚ) ≤ held db proposal.1 (Counted db proposal)

theorem counted_recorded (hRecorded : KeyVoteRecorded call db db') (wallet : String)
    (hCounted : Counted db proposal wallet) :
    Counted db' proposal wallet := by
  rcases hCounted with hVoted | ⟨delegate, hDelegate, hVoted⟩
  · left
    rw [hasVoted_recorded hRecorded]
    exact Or.inr hVoted
  · refine Or.inr ⟨delegate, ?_, ?_⟩
    · rw [delegateOf_recorded hRecorded]
      exact hDelegate
    · rw [hasVoted_recorded hRecorded]
      exact Or.inr hVoted

def CountedBy (db : VotingDb) (call : KeyVoteCall) (wallet : String) : Prop :=
  wallet = call.wallet ∨ wallet ∈ delegatorsOf db call.wallet call.keyId

instance (db : VotingDb) (call : KeyVoteCall) : DecidablePred (CountedBy db call) :=
  fun _ => inferInstanceAs (Decidable (_ ∨ _))

theorem fresh_of_admissible
    (hAdmissible : (PowerStep.vote call).Admissible (call.keyId, call.proposalId) db)
    (hRecorded : KeyVoteRecorded call db db') (wallet : String)
    (hCounted : Counted db (call.keyId, call.proposalId) wallet) :
    ¬ CountedBy db call wallet := by
  rcases hAdmissible rfl with ⟨hOwn, hDelegators⟩
  have hFresh : ¬ HasVoted db (call.keyId, call.proposalId)
      call.wallet := by
    rcases vote_recorded hRecorded with ⟨vote, hNew, hKey, -⟩
    unfold HasVoted
    rw [← hKey, hNew]
    exact Bool.false_ne_true
  rcases hCounted with hVoted | ⟨delegate, hDelegate, hVoted⟩
  · rintro (rfl | hDelegator)
    · exact hFresh hVoted
    · exact hDelegators wallet hDelegator hVoted
  · rintro (rfl | hDelegator)
    · exact (hOwn delegate hDelegate).2 hVoted
    · rw [mem_delegatorsOf] at hDelegator
      rw [hDelegator] at hDelegate
      cases hDelegate
      exact hFresh hVoted

theorem counted_of_countedBy (hRecorded : KeyVoteRecorded call db db') (wallet : String)
    (hCounted : CountedBy db call wallet) :
    Counted db' (call.keyId, call.proposalId) wallet := by
  have hVoter : HasVoted db' (call.keyId, call.proposalId) call.wallet :=
    (hasVoted_recorded hRecorded call.wallet).mpr (Or.inl ⟨rfl, rfl⟩)
  rcases hCounted with rfl | hDelegator
  · exact Or.inl hVoter
  · refine Or.inr ⟨call.wallet, ?_, hVoter⟩
    rw [delegateOf_recorded hRecorded]
    exact mem_delegatorsOf.mp hDelegator

theorem weight_le_held
    (hAdmissible : (PowerStep.vote call).Admissible (call.keyId, call.proposalId) db)
    (hRecorded : KeyVoteRecorded call db db') :
    ownBalanceOf db call.wallet call.keyId + held db call.keyId
      (· ∈ delegatorsOf db call.wallet call.keyId) ≤
      held db call.keyId (CountedBy db call) := by
  rcases hAdmissible rfl with ⟨hOwn, -⟩
  have hSelf : ∀ wallet, wallet = call.wallet →
      wallet ∉ delegatorsOf db call.wallet call.keyId := by
    rintro wallet rfl hDelegator
    rw [mem_delegatorsOf] at hDelegator
    exact (hOwn _ hDelegator).1 rfl
  have hBoth : held db call.keyId (· = call.wallet) + held db call.keyId
      (· ∈ delegatorsOf db call.wallet call.keyId) ≤ held db call.keyId (CountedBy db call) :=
    held_add_le hSelf (fun _ hp => Or.inl hp) fun _ hq => Or.inr hq
  have hOwnHeld := held_self hRecorded.eligible
  linarith

theorem Bounded.vote (h : Bounded proposal db) (hAdmissible :
    (PowerStep.vote call).Admissible proposal db) (hRecorded : KeyVoteRecorded call db db') :
    Bounded proposal db' := by
  unfold Bounded at h ⊢
  rw [recordedPower_recorded hRecorded, held_recorded hRecorded]
  by_cases hOn : (call.keyId, call.proposalId) = proposal
  · subst hOn
    rw [if_pos rfl]
    have hWeight := weight_le_held hAdmissible hRecorded
    have hAll : held db call.keyId (Counted db (call.keyId, call.proposalId)) +
        held db call.keyId (CountedBy db call) ≤ held db call.keyId
        (Counted db' (call.keyId, call.proposalId)) :=
      held_add_le (fresh_of_admissible hAdmissible hRecorded) (counted_recorded hRecorded)
        (counted_of_countedBy hRecorded)
    linarith
  · rw [if_neg hOn, add_zero]
    exact h.trans (held_mono (counted_recorded hRecorded))

theorem Bounded.delegate (h : Bounded proposal db) (hAdmissible :
    (PowerStep.delegate event).Admissible proposal db) (hKept : DelegationKept event db db') :
    Bounded proposal db' := by
  have hVotes : ∀ wallet, HasVoted db' proposal wallet ↔
      HasVoted db proposal wallet := by
    intro wallet
    unfold HasVoted
    rw [hKept.governance]
  have hPower : recordedPower db' proposal = recordedPower db proposal := by
    unfold recordedPower
    rw [hKept.governance]
  have hHeld : held db' proposal.1 (Counted db' proposal) =
      held db proposal.1 (Counted db' proposal) := by
    unfold held
    rw [hKept.keyOwnership]
  unfold Bounded at h ⊢
  rw [hPower, hHeld]
  refine h.trans (held_mono ?_)
  rintro wallet (hVoted | ⟨delegate, hDelegate, hVoted⟩)
  · exact Or.inl ((hVotes wallet).mpr hVoted)
  · refine Or.inr ⟨delegate, ?_, (hVotes delegate).mpr hVoted⟩
    rw [hKept.others]
    · exact hDelegate
    · rintro ⟨hWallet, hKey⟩
      exact hAdmissible wallet hWallet hKey delegate hDelegate hVoted

theorem Bounded.apply {label : PowerStep} (h : Bounded proposal db)
    (hAdmissible : label.Admissible proposal db) :
    Bounded proposal (label.apply accepts db) := by
  cases label with
  | vote call =>
    apply Ensures.final
    refine (ensures_castKeyProposalVote call db).imp ?_ ?_
    · exact fun _ _ hRecorded => h.vote hAdmissible hRecorded
    · rintro db' rfl
      exact h
  | delegate event =>
    apply Ensures.final
    refine (ensures_applyDelegationEvent event db).imp ?_ ?_
    · exact fun _ _ hKept => h.delegate hAdmissible hKept
    · exact fun _ hKept => h.delegate hAdmissible hKept

/- `A`, `B` and `C` hold 10, 5 and 3; `A` delegates to `B`. -/
def sampleHolders : VotingDb where
  governance :=
    { sampleWorld.db with
      governanceProposal :=
        Table.empty.createMany [proposalOf ⟨fun _ => none⟩ 1 "id" "K" "P"
          (sampleEvent "PROPOSAL_CREATED" 0 { sampleFields with
              options := .array [some "Yes", some "No"] }) 1] }
  keyOwnership := Table.empty.createMany [.opened "A" "K" 10, .opened "B" "K" 5, .opened "C" "K" 3]
  voteDelegation :=
    Table.empty.createMany
      [{ delegatorWallet := "A"
         keyId := "K"
         delegateeWallet := "B"
         isActive := true
         ledger := 1
         txHash := "d"
         occurredAt := 1 }]
  voteDelegationHistory := .empty

/- The activity types that the schema lists. -/
def listed (type : String) : Bool := (ActivityType.ofName type).isSome

def sampleBallot (wallet : String) (optionIndex : ℤ) : PowerStep :=
  .vote ⟨"K", "P", optionIndex, wallet, 2⟩

end Governance

end AccessLayer
