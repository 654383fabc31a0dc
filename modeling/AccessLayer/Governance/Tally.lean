import AccessLayer.Keys.ProposalVotes
import AccessLayer.Library.Runs
import Mathlib.Data.List.NodupEquivFin

/-
  Whether the stored tally of a proposal is the sum of its
  votes.

  Votes are tallied when they are recorded.  Those that arrive
  before their proposal are recorded without a tally, and the
  proposal starts at zero; they are the early votes of a run.

  Main result: `tally_exact`
-/

-- Sums over Votes
----

namespace AccessLayer

namespace Governance

open Transactional Program Utils

section

variable {votes : Table GovernanceVote} {early : List (ProposalKey × String)}
variable {proposal : ProposalKey} {choice : Nat → Prop} [DecidablePred choice]

def recordedWeight (votes : Table GovernanceVote) (early : List (ProposalKey × String))
    (proposal : ProposalKey) (choice : Nat → Prop) [DecidablePred choice] : ℤ :=
  votes.total fun vote =>
    if vote.proposal = proposal ∧ key vote ∉ early ∧ choice vote.optionIndex then vote.weight
    else 0

theorem recordedWeight_create (vote : GovernanceVote) (hFresh : votes.find? (key vote) = none) :
    recordedWeight (votes.create vote hFresh) early proposal choice =
      recordedWeight votes early proposal choice +
        if vote.proposal = proposal ∧ key vote ∉ early ∧ choice vote.optionIndex then vote.weight
        else 0 := Table.total_create votes vote hFresh _

theorem recordedWeight_append {others : List (ProposalKey × String)}
    (hOthers : ∀ k ∈ others, votes.find? k = none) :
    recordedWeight votes (early ++ others) proposal choice =
      recordedWeight votes early proposal choice := by
  unfold recordedWeight Table.total
  congr 1
  apply List.map_congr_left
  intro vote hVote
  have hEarly : key vote ∈ early ++ others ↔ key vote ∈ early := by
    rw [List.mem_append, or_iff_left]
    intro hOther
    have hStored := Table.find?_of_mem hVote
    rw [hOthers _ hOther] at hStored
    cases hStored
  simp only [hEarly]

theorem recordedWeight_eq_zero
    (hEarly : ∀ vote ∈ votes.rows, vote.proposal = proposal → key vote ∈ early) :
    recordedWeight votes early proposal choice = 0 := by
  apply List.sum_eq_zero
  intro weight hWeight
  rcases List.mem_map.mp hWeight with ⟨vote, hVote, rfl⟩
  rw [if_neg]
  rintro ⟨hProposal, hCounted, -⟩
  exact hCounted (hEarly vote hVote hProposal)

/- The stored tally is the sum of the votes that count. -/
structure Tallied (votes : Table GovernanceVote) (early : List (ProposalKey × String))
    (proposal : GovernanceProposal) : Prop where
  total : proposal.totalVotingWeight = recordedWeight votes early (key proposal)
    (· < proposal.options.length)
  option :
    ∀ (i : Nat) option, proposal.options[i]? = some option → resultOf proposal.results option =
      recordedWeight votes early (key proposal) (· = i)

/- Several options have the label of this one. -/
def SharesLabel (options : List String) (optionIndex : Nat) : Prop :=
  ∃ option ∈ options[optionIndex]?, options.Duplicate option

instance (options : List String) (optionIndex : Nat) :
    Decidable (SharesLabel options optionIndex) :=
  match hOption : options[optionIndex]? with
  | none =>
    isFalse (by
      rintro ⟨option, hMem, -⟩
      rw [hOption] at hMem
      cases hMem)
  | some option =>
    decidable_of_iff (options.Duplicate option) (by
      simp [SharesLabel, hOption])

theorem index_unique {options : List String} {i j : Nat} {option : String}
    (hShares : ¬ SharesLabel options i) (hi : options[i]? = some option)
    (hj : options[j]? = some option) :
    j = i := by
  by_contra hNe
  apply hShares
  refine ⟨option, hi, ?_⟩
  rcases List.getElem?_eq_some_iff.mp hi with ⟨hLtI, hI⟩
  rcases List.getElem?_eq_some_iff.mp hj with ⟨hLtJ, hJ⟩
  rw [List.duplicate_iff_exists_distinct_get]
  rcases lt_or_gt_of_ne hNe with hBefore | hAfter
  · exact ⟨⟨j, hLtJ⟩, ⟨i, hLtI⟩, hBefore, hJ.symm, hI.symm⟩
  · exact ⟨⟨i, hLtI⟩, ⟨j, hLtJ⟩, hAfter, hI.symm, hJ.symm⟩

end

-- What a Step Does
----

section

open Indexer

/- What one step can do to proposals and votes. -/
inductive TallyChange (db : GovernanceDb) :
    GovernanceDb → Prop where
  | same : TallyChange db db
  | created (proposal : GovernanceProposal)
    (hFresh :
      db.governanceProposal.find? (key proposal) = none) (hNormal : Normal proposal.options)
    (hTotal : proposal.totalVotingWeight = 0)
    (hResults : ∀ label, resultOf proposal.results label = 0) :
    TallyChange db { db with
        governanceProposal := db.governanceProposal.create proposal hFresh }
  | uncounted (vote : GovernanceVote) (hFresh : db.governanceVote.find? (key vote) = none)
    (hOut : ∀ current ∈ db.governanceProposal.find? vote.proposal,
      current.options.length ≤ vote.optionIndex) :
    TallyChange db { db with
        governanceVote := db.governanceVote.create vote hFresh }
  | counted (vote : GovernanceVote) (hFresh : db.governanceVote.find? (key vote) = none)
    (current : GovernanceProposal)
    (hStored : db.governanceProposal.find? vote.proposal = some current) (option : String)
    (hOption : current.options[vote.optionIndex]? = some option) (tallies : VoteTally)
    (hTallies : applyVoteWeight current.tally vote.weight option = some tallies)
    (hApart : vote.weight = 0 ∨ ¬ SharesLabel current.options vote.optionIndex) :
    TallyChange db { db.storeTally vote.proposal tallies with
        governanceVote := db.governanceVote.create vote hFresh }
  | executed (proposal : ProposalKey) (executedAt : ℤ) :
    TallyChange db (markExecuted proposal executedAt db)

/- A program whose every end is one change of its start. -/
def Changes {α : Type} (p : GovernanceM α) (db : GovernanceDb) : Prop :=
  p.Ensures db (fun _ => TallyChange db) (TallyChange db)

variable {α : Type}

theorem changes_pure (a : α) (db : GovernanceDb) : Changes (pure a) db := ensures_pure .same

theorem changes_throw (e : GovernanceError) (db : GovernanceDb) :
    Changes (throw e : GovernanceM α) db := ensures_throw .same

variable {db : GovernanceDb}

/- A write whose unique key is taken changes nothing. -/
theorem changes_tryCatch {f : GovernanceDb → Except GovernanceError (α × GovernanceDb)}
    {h : GovernanceError → GovernanceM α} (hf : ∀ a db', f db = .ok (a, db') → TallyChange db db')
    (hh : ∀ e, Changes (h e) db) :
    Changes (tryCatch (execute .database f) h) db := by
  apply Ensures.tryCatch (F := fun db' => db' = db)
  · exact ensures_execute hf rfl
  · rintro e db' rfl
    exact hh e

theorem changes_skipReplay (e : GovernanceError) (db : GovernanceDb) :
    Changes (skipReplay e) db := by
  cases e with
  | uniqueViolation => exact changes_pure () db
  | _ => exact changes_throw _ db

theorem changes_insertProposal (config : GovernanceConfig) (now : ℤ) (id keyId proposalId : String)
    (event : GovernanceEvent) (db : GovernanceDb) :
    Changes (insertProposal config now id keyId proposalId event) db := by
  have hCreate : ∀ ledger, Changes (tryCatch (execute .database (createProposal
      (proposalOf config now id keyId proposalId event ledger)))
      skipReplay) db := by
    intro ledger
    refine changes_tryCatch ?_ fun e => changes_skipReplay e db
    intro _ db' hOk
    unfold createProposal at hOk
    split at hOk
    · cases hOk
    · rename_i governanceProposal hInsert
      rcases Table.exists_create_of_insert? hInsert with ⟨hFresh, rfl⟩
      cases hOk
      exact .created _ hFresh (normal_normalizeOptions config _) rfl (resultOf_initialResults _)
  apply ensures_query_bind
  split
  · exact changes_pure () db
  · unfold snapshotLedgerOf
    split
    · exact hCreate _
    · exact hCreate _

theorem changes_executeProposal (now : ℤ) (proposal : ProposalKey) (fields : GovernanceFields)
    (db : GovernanceDb) :
    Changes (executeProposal now proposal fields) db := by
  apply ensures_query_bind
  split
  · exact changes_pure () db
  · split
    · exact changes_pure () db
    · refine ensures_execute ?_ .same
      intro _ db' hOk
      cases hOk
      exact .executed proposal _

variable {vote : GovernanceVote}

theorem changes_insertVote
    (hNormal : ∀ current ∈ db.governanceProposal.find? vote.proposal, Normal current.options)
    (hApart : ∀ current ∈ db.governanceProposal.find? vote.proposal, vote.weight = 0 ∨
      ¬ SharesLabel current.options vote.optionIndex) :
    Changes (insertVote vote) db := by
  apply ensures_query_bind
  split
  · exact changes_pure () db
  · refine changes_tryCatch ?_ fun e => changes_skipReplay e db
    intro _ db' hOk
    unfold recordVoteCast at hOk
    split at hOk
    · cases hOk
    · rename_i governanceVote hInsert
      rcases Table.exists_create_of_insert? hInsert with ⟨hFresh, rfl⟩
      unfold foldVote at hOk
      cases hStored : db.governanceProposal.find? vote.proposal with
      | none =>
        rw [hStored] at hOk
        cases hOk
        refine .uncounted vote hFresh ?_
        intro current hCurrent
        rw [hStored] at hCurrent
        cases hCurrent
      | some current =>
        have hLabels := hNormal current hStored
        unfold Normal at hLabels
        simp only [hStored, hLabels] at hOk
        split at hOk
        · rename_i hOut
          cases hOk
          refine .uncounted vote hFresh ?_
          intro other hOther
          rw [hStored] at hOther
          cases hOther
          exact List.getElem?_eq_none_iff.mp hOut
        · rename_i option hOption
          split at hOk
          · cases hOk
          · rename_i tallies hTallies
            cases hOk
            exact .counted vote hFresh current hStored option hOption
              tallies hTallies (hApart current hStored)

def VotesApart (proposal : GovernanceProposal) (optionIndex : ℤ) : Prop :=
  ¬ SharesLabel proposal.options optionIndex.toNat

instance (proposal : GovernanceProposal) (optionIndex : ℤ) :
    Decidable (VotesApart proposal optionIndex) := inferInstanceAs (Decidable (¬ _))

variable {option : String}

theorem getElem?_of_optionAt {options : List String} {optionIndex : ℤ}
    (h : optionAt options optionIndex = some option) :
    options[optionIndex.toNat]? = some option := by
  unfold optionAt at h
  split at h
  · cases h
  · exact h

theorem change_of_tallyVote {current : GovernanceProposal} {tallies : VoteTally}
    {db' : GovernanceDb} (hStored : db.governanceProposal.find? vote.proposal = some current)
    (hOption : current.options[vote.optionIndex]? = some option)
    (hApart : ¬ SharesLabel current.options vote.optionIndex)
    (hOk : tallyVote current option vote db = .ok (tallies, db')) :
    TallyChange db db' := by
  unfold tallyVote at hOk
  split at hOk
  · cases hOk
  · rename_i folded hFolded
    split at hOk
    · cases hOk
    · rename_i governanceVote hInsert
      rcases Table.exists_create_of_insert? hInsert with ⟨hFresh, rfl⟩
      cases hOk
      exact .counted vote hFresh current hStored option hOption _ hFolded (Or.inr hApart)

variable {call : GovernanceVoteCall}

theorem changes_weighGovernanceVote {proposal : GovernanceProposal}
    (hStored : db.governanceProposal.find? (key proposal) = some proposal)
    (hOption : optionAt proposal.options call.optionIndex = some option)
    (hApart : VotesApart proposal call.optionIndex) :
    Changes (weighGovernanceVote call proposal option) db := by
  apply ensures_query_bind
  extract_lets weight
  split
  · exact changes_throw _ db
  · apply ensures_query_bind
    split
    · exact changes_throw _ db
    · apply Ensures.bind (Q := fun _ => TallyChange db)
      · refine changes_tryCatch ?_ ?_
        · intro tallies db' hOk
          unfold recordGovernanceVote at hOk
          split at hOk
          · cases hOk
          · rename_i current hCurrent
            change db.governanceProposal.find? (key proposal) = _ at hCurrent
            rw [hStored] at hCurrent
            cases hCurrent
            split at hOk
            · cases hOk
            · refine change_of_tallyVote ?_ ?_ ?_ hOk
              · exact hStored
              · exact getElem?_of_optionAt hOption
              · exact hApart
        · intro e
          cases e with
          | _ => exact changes_throw _ db
      · exact fun _ _ hChange => ensures_pure hChange

theorem changes_castGovernanceVote (hApart :
    ∀ proposal ∈ findProposal call.proposalIdParam db, VotesApart proposal call.optionIndex) :
    Changes (castGovernanceVote call) db := by
  apply ensures_query_bind
  cases hFound : findProposal call.proposalIdParam db with
  | none => exact changes_throw _ db
  | some proposal =>
    have hStored := Table.find?_of_mem (List.mem_of_find?_eq_some hFound)
    simp only
    split
    · exact changes_throw _ db
    · split
      · exact changes_throw _ db
      · rename_i option hOption
        exact changes_weighGovernanceVote hStored hOption (hApart proposal hFound)

end

-- Steps of a Tally
----

section

variable {votes : Table GovernanceVote} {early others : List (ProposalKey × String)}
variable {proposal : GovernanceProposal} {vote : GovernanceVote}

theorem Tallied.create (h : Tallied votes early proposal) (hFresh : votes.find? (key vote) = none)
    (hOthers : ∀ k ∈ others, votes.find? k = none)
    (hOut : vote.proposal = key proposal → proposal.options.length ≤ vote.optionIndex) :
    Tallied (votes.create vote hFresh) (early ++ others) proposal := by
  constructor
  · rw [recordedWeight_create, recordedWeight_append hOthers, ← h.total, if_neg, add_zero]
    rintro ⟨hProposal, -, hInRange⟩
    have hLength := hOut hProposal
    omega
  · intro i option hOption
    rw [recordedWeight_create, recordedWeight_append hOthers,
      ← h.option i option hOption, if_neg, add_zero]
    rintro ⟨hProposal, -, hSame⟩
    have hLength := hOut hProposal
    have hLt := (List.getElem?_eq_some_iff.mp hOption).1
    omega

theorem Tallied.counted {option : String} {tallies : VoteTally} (h : Tallied votes early proposal)
    (hFresh : votes.find? (key vote) = none) (hProposal : vote.proposal = key proposal)
    (hEarly : key vote ∉ early) (hOption : proposal.options[vote.optionIndex]? = some option)
    (hTallies : applyVoteWeight proposal.tally vote.weight option = some tallies)
    (hApart : vote.weight = 0 ∨ ¬ SharesLabel proposal.options vote.optionIndex) :
    Tallied (votes.create vote hFresh) early (proposal.withTally tallies) := by
  have hKey : key (proposal.withTally tallies) = key proposal := rfl
  constructor
  · have hInRange : vote.optionIndex < proposal.options.length :=
      (List.getElem?_eq_some_iff.mp hOption).1
    have hTotal := total_applyVoteWeight hTallies
    change _ = proposal.totalVotingWeight + _ at hTotal
    change tallies.totalVotingWeight = recordedWeight _ _ _ (· < proposal.options.length)
    rw [hKey, recordedWeight_create, if_pos ⟨hProposal, hEarly, hInRange⟩, ← h.total, hTotal]
  · intro i label hLabel
    change proposal.options[i]? = some label at hLabel
    have hResult := resultOf_applyVoteWeight hTallies label
    change _ = resultOf proposal.results label + _ at hResult
    change resultOf tallies.results label = _
    rw [hKey, recordedWeight_create, hResult, ← h.option i label hLabel]
    congr 1
    by_cases hIndex : vote.optionIndex = i
    · -- the option that is voted for
      rw [hIndex, hLabel] at hOption
      rw [if_pos (Option.some.inj hOption), if_pos ⟨hProposal, hEarly, hIndex⟩]
    · -- another option, whose label the vote may share
      have hOther : ¬ (vote.proposal = key proposal ∧ key vote ∉ early ∧ vote.optionIndex = i) :=
        fun hCounts => hIndex hCounts.2.2
      rw [if_neg hOther]
      split
      · rename_i hShared
        rw [hShared] at hLabel
        rcases hApart with hZero | hOnly
        · exact hZero
        · exact absurd (index_unique hOnly hOption hLabel).symm hIndex
      · rfl

theorem Tallied.append (h : Tallied votes early proposal)
    (hOthers : ∀ k ∈ others, votes.find? k = none) :
    Tallied votes (early ++ others) proposal := by
  constructor
  · rw [recordedWeight_append hOthers]
    exact h.total
  · intro i option hOption
    rw [recordedWeight_append hOthers]
    exact h.option i option hOption

theorem tallied_of_early
    (hEarly : ∀ vote ∈ votes.rows, vote.proposal = key proposal → key vote ∈ early)
    (hTotal : proposal.totalVotingWeight = 0)
    (hResults : ∀ label, resultOf proposal.results label = 0) :
    Tallied votes early proposal := by
  constructor
  · rw [recordedWeight_eq_zero hEarly, hTotal]
  · intro i option _
    rw [recordedWeight_eq_zero hEarly, hResults]

-- Runs
----

open Indexer Keys

/- New votes whose proposal is not stored. -/
def earlyVotes (before after : GovernanceDb) : List (ProposalKey × String) :=
  (after.governanceVote.rows.map key).filter fun k => before.governanceVote.find? k = none &&
    before.governanceProposal.find? k.1 = none

variable {k : ProposalKey × String}

theorem mem_earlyVotes {before after : GovernanceDb} :
    k ∈ earlyVotes before after ↔ (∃ vote ∈ after.governanceVote.rows, key vote = k) ∧
      before.governanceVote.find? k = none ∧ before.governanceProposal.find? k.1 = none := by
  simp [earlyVotes]

/- The tables, and the keys of the early votes so far. -/
structure TallyWorld where
  db : GovernanceDb
  early : List (ProposalKey × String)

/-
  Tallies are exact, labels are normal, and the early votes are
  recorded votes, all votes on unknown proposals among them.
-/
structure Consistent (s : TallyWorld) : Prop where
  tallied :
    ∀ k, ∀ proposal ∈ s.db.governanceProposal.find? k, Tallied s.db.governanceVote s.early proposal
  normal : ∀ k, ∀ proposal ∈ s.db.governanceProposal.find? k, Normal proposal.options
  recorded : ∀ k ∈ s.early, s.db.governanceVote.find? k ≠ none
  unknown : ∀ vote ∈ s.db.governanceVote.rows, s.db.governanceProposal.find? vote.proposal = none →
    key vote ∈ s.early

variable {s : TallyWorld}

/- The world after a change of its tables. -/
def TallyWorld.become (s : TallyWorld) (db : GovernanceDb) : TallyWorld where
  db
  early := s.early ++ earlyVotes s.db db

theorem fresh_of_early {db : GovernanceDb} :
    ∀ k ∈ earlyVotes s.db db, s.db.governanceVote.find? k = none :=
  fun _ hk => (mem_earlyVotes.mp hk).2.1

theorem find?_updateProposal (db : GovernanceDb) (proposal : ProposalKey)
    (f : GovernanceProposal → GovernanceProposal) (hKey : ∀ row, key (f row) = key row)
    (k : ProposalKey) :
    (db.updateProposal proposal f hKey).governanceProposal.find? k =
      (db.governanceProposal.find? k).map fun row =>
        if k = proposal then f row else row := by
  unfold GovernanceDb.updateProposal
  by_cases hSame : k = proposal
  · simp only [hSame, if_true, Table.find?_update_same]
  · simp only [hSame, if_false, Table.find?_update_other _ _ _ hSame, Option.map_id']

theorem find?_storeTally (db : GovernanceDb) (proposal : ProposalKey) (tallies : VoteTally)
    (k : ProposalKey) :
    (db.storeTally proposal tallies).governanceProposal.find? k =
      (db.governanceProposal.find? k).map fun row =>
        if k = proposal then row.withTally tallies else row :=
  find?_updateProposal db proposal _ _ k

theorem find?_markExecuted (db : GovernanceDb) (proposal : ProposalKey) (executedAt : ℤ)
    (k : ProposalKey) :
    (markExecuted proposal executedAt db).governanceProposal.find? k =
      (db.governanceProposal.find? k).map fun row =>
        if k = proposal then
          { row with
            status := .executed
            executedAt := some executedAt
            closedAt := some executedAt }
        else row := find?_updateProposal db proposal _ _ k

variable {db : GovernanceDb}

/- Votes are never deleted. -/
theorem TallyChange.votes_kept (h : TallyChange s.db db)
    (hStored : s.db.governanceVote.find? k ≠ none) :
    db.governanceVote.find? k ≠ none := by
  cases h with
  | same => exact hStored
  | created => exact hStored
  | executed => exact hStored
  | uncounted vote hFresh =>
    rw [Table.find?_create]
    split
    · simp
    · exact hStored
  | counted vote hFresh =>
    rw [Table.find?_create]
    split
    · simp
    · exact hStored

theorem TallyChange.proposals_kept (h : TallyChange s.db db) {k : ProposalKey}
    (hUnknown : db.governanceProposal.find? k = none) :
    s.db.governanceProposal.find? k = none := by
  cases h with
  | same => exact hUnknown
  | created proposal hFresh =>
    rw [Table.find?_create] at hUnknown
    split at hUnknown
    · cases hUnknown
    · exact hUnknown
  | executed =>
    rw [find?_markExecuted] at hUnknown
    exact Option.map_eq_none_iff.mp hUnknown
  | uncounted vote hFresh => exact hUnknown
  | counted vote hFresh current _ option _ tallies =>
    change (s.db.storeTally vote.proposal tallies).governanceProposal.find? k = none at hUnknown
    rw [find?_storeTally] at hUnknown
    exact Option.map_eq_none_iff.mp hUnknown

theorem TallyChange.normal (h : TallyChange s.db db)
    (hNormal : ∀ k, ∀ proposal ∈ s.db.governanceProposal.find? k, Normal proposal.options)
    (k : ProposalKey) :
    ∀ proposal ∈ db.governanceProposal.find? k, Normal proposal.options := by
  intro proposal hProposal
  cases h with
  | same => exact hNormal k proposal hProposal
  | created row hFresh hLabels =>
    rw [Table.find?_create] at hProposal
    split at hProposal
    · cases hProposal
      exact hLabels
    · exact hNormal k proposal hProposal
  | executed =>
    rw [find?_markExecuted] at hProposal
    rcases Option.map_eq_some_iff.mp hProposal with ⟨stored, hStored, rfl⟩
    split
    · exact hNormal k stored hStored
    · exact hNormal k stored hStored
  | uncounted vote hFresh => exact hNormal k proposal hProposal
  | counted vote hFresh current _ option _ tallies =>
    change (s.db.storeTally vote.proposal tallies).governanceProposal.find? k = some proposal
      at hProposal
    rw [find?_storeTally] at hProposal
    rcases Option.map_eq_some_iff.mp hProposal with ⟨stored, hStored, rfl⟩
    split
    · exact hNormal k stored hStored
    · exact hNormal k stored hStored

theorem Consistent.tallied_before (h : Consistent s) {k : ProposalKey}
    {proposal : GovernanceProposal} (hProposal : s.db.governanceProposal.find? k = some proposal) :
    Tallied s.db.governanceVote (s.become db).early proposal :=
  (h.tallied k proposal hProposal).append fresh_of_early

/- A proposal that is created starts at zero. -/
theorem Consistent.tallied_created (h : Consistent s) {row : GovernanceProposal}
    (hFresh : s.db.governanceProposal.find? (key row) = none) (hTotal : row.totalVotingWeight = 0)
    (hResults : ∀ label, resultOf row.results label = 0) :
    Tallied s.db.governanceVote (s.become db).early row := by
  refine tallied_of_early ?_ hTotal hResults
  intro vote hVote hOn
  apply List.mem_append_left
  apply h.unknown vote hVote
  rw [hOn]
  exact hFresh

theorem Consistent.not_early (h : Consistent s) {current : GovernanceProposal}
    (hFresh : s.db.governanceVote.find? (key vote) = none)
    (hStored : s.db.governanceProposal.find? vote.proposal = some current) :
    key vote ∉ (s.become db).early := by
  intro hEarly
  rcases List.mem_append.mp hEarly with hOld | hNew
  · exact h.recorded _ hOld hFresh
  · have hUnknown := (mem_earlyVotes.mp hNew).2.2
    change s.db.governanceProposal.find? vote.proposal = none at hUnknown
    rw [hStored] at hUnknown
    cases hUnknown

/- The step lemma: every change keeps tallies exact. -/
theorem Consistent.tallied_become (h : Consistent s) (hChange : TallyChange s.db db)
    (k : ProposalKey) :
    ∀ proposal ∈ db.governanceProposal.find? k,
      Tallied db.governanceVote (s.become db).early proposal := by
  intro proposal hProposal
  cases hChange with
  | same => exact h.tallied_before hProposal
  | created row hFresh hNormal hTotal hResults =>
    rw [Table.find?_create] at hProposal
    split at hProposal
    · cases hProposal
      exact h.tallied_created hFresh hTotal hResults
    · exact h.tallied_before hProposal
  | executed key executedAt =>
    rw [find?_markExecuted] at hProposal
    rcases Option.map_eq_some_iff.mp hProposal with ⟨stored, hStored, rfl⟩
    have hTallied :=
      @Consistent.tallied_before s (markExecuted key executedAt s.db) h k stored hStored
    split
    · exact ⟨hTallied.total, hTallied.option⟩
    · exact hTallied
  | uncounted vote hFresh hOut =>
    refine (h.tallied k proposal hProposal).create hFresh fresh_of_early ?_
    intro hOn
    apply hOut
    rw [hOn, Table.key_of_find? hProposal]
    exact hProposal
  | counted vote hFresh current hStored option hOption tallies hTallies hApart =>
    change (s.db.storeTally vote.proposal tallies).governanceProposal.find? k = some proposal
      at hProposal
    rw [find?_storeTally] at hProposal
    rcases Option.map_eq_some_iff.mp hProposal with ⟨stored, hFound, rfl⟩
    by_cases hSame : k = vote.proposal
    · -- the proposal that is voted on
      rw [if_pos hSame]
      rw [hSame, hStored] at hFound
      cases hFound
      exact (h.tallied_before hStored).counted hFresh (Table.key_of_find? hStored).symm
        (h.not_early hFresh hStored) hOption hTallies hApart
    · -- the vote is on another proposal
      rw [if_neg hSame]
      refine (h.tallied k stored hFound).create hFresh fresh_of_early ?_
      intro hOn
      have hKey := Table.key_of_find? hFound
      exact absurd (hKey.symm.trans hOn.symm) hSame

theorem Consistent.become (h : Consistent s) (hChange : TallyChange s.db db) :
    Consistent (s.become db) := by
  refine ⟨h.tallied_become hChange, hChange.normal h.normal, ?_, ?_⟩
  · intro k hk
    rcases List.mem_append.mp hk with hOld | hNew
    · exact hChange.votes_kept (h.recorded k hOld)
    · rcases (mem_earlyVotes.mp hNew).1 with ⟨vote, hVote, rfl⟩
      change db.governanceVote.find? _ ≠ none
      rw [Table.find?_of_mem hVote]
      exact Option.some_ne_none _
  · intro vote hVote hUnknown
    apply List.mem_append.mpr
    have hBefore := hChange.proposals_kept hUnknown
    cases hStored : s.db.governanceVote.find? (key vote) with
    | none =>
      right
      exact mem_earlyVotes.mpr ⟨⟨vote, hVote, rfl⟩, hStored, hBefore⟩
    | some stored =>
      left
      have hKey : key stored = key vote := Table.key_of_find? hStored
      have hOn : stored.proposal = vote.proposal := congrArg Prod.fst hKey
      rw [← hKey]
      apply h.unknown stored (Table.mem_of_find? hStored)
      rw [hOn]
      exact hBefore

end

-- Exact Tallies
----

section

open Indexer Keys

/-
  An event, a vote by snapshot weight, or a vote by balance,
  with the balances and delegations that it finds.
-/
inductive TallyStep where
  | index (config : GovernanceConfig) (now : ℤ) (id : String) (event : GovernanceEvent)
  | governanceVote (call : GovernanceVoteCall)
  | keyVote (holdings : VotingDb) (call : KeyVoteCall)

/- The tables that a step leaves, however it ends. -/
def TallyStep.apply (db : GovernanceDb) : TallyStep → GovernanceDb
  | .index config now id event => (applyGovernanceEvent config now id event).final db
  | .governanceVote call => (castGovernanceVote call).final db
  | .keyVote holdings call =>
    ((castKeyProposalVote call).final { holdings with governance := db }).governance

def TallyWorld.step (s : TallyWorld) (label : TallyStep) : Option TallyWorld :=
  some (s.become (label.apply s.db))

def castBy (now : ℤ) (event : GovernanceEvent) : Option GovernanceVote :=
  if event.eventType ∈ voteCastEventTypes then
    voteOf now event.payload
  else none

def TallyStep.Admissible (s : TallyWorld) : TallyStep → Prop
  | .index _ now _ event =>
    ∀ vote ∈ castBy now event, ∀ current ∈ s.db.governanceProposal.find? vote.proposal,
      vote.weight = 0 ∨ ¬ SharesLabel current.options vote.optionIndex
  | .governanceVote call =>
    ∀ current ∈ findProposal call.proposalIdParam s.db, VotesApart current call.optionIndex
  | .keyVote _ call =>
    ∀ current ∈ s.db.governanceProposal.find? (call.keyId, call.proposalId),
      VotesApart current call.optionIndex

instance (s : TallyWorld) (label : TallyStep) : Decidable (label.Admissible s) :=
  match label with
  | .index _ _ _ _ => inferInstanceAs (Decidable (∀ vote ∈ _, ∀ current ∈ _, _ ∨ _))
  | .governanceVote _ => inferInstanceAs (Decidable (∀ current ∈ _, _))
  | .keyVote _ _ => inferInstanceAs (Decidable (∀ current ∈ _, _))

theorem changes_applyGovernanceEvent {config : GovernanceConfig} {now : ℤ} {id : String}
    {event : GovernanceEvent} {db : GovernanceDb}
    (hNormal : ∀ k, ∀ proposal ∈ db.governanceProposal.find? k, Normal proposal.options)
    (hApart : ∀ vote ∈ castBy now event, ∀ current ∈ db.governanceProposal.find? vote.proposal,
      vote.weight = 0 ∨ ¬ SharesLabel current.options vote.optionIndex) :
    Changes (applyGovernanceEvent config now id event) db := by
  unfold applyGovernanceEvent
  split
  · unfold applyProposalCreated
    split
    · exact changes_insertProposal _ _ _ _ _ _ db
    · exact changes_pure () db
  · split
    · rename_i hCast
      unfold castBy at hApart
      rw [if_pos hCast] at hApart
      unfold applyVoteCast
      split
      · exact changes_pure () db
      · rename_i vote hVote
        exact changes_insertVote (hNormal _) (hApart vote hVote)
    · split
      · unfold applyProposalExecuted
        split
        · exact changes_executeProposal _ _ _ db
        · exact changes_pure () db
      · exact changes_pure () db

theorem change_of_keyVote {call : KeyVoteCall} {db db' : VotingDb}
    (hApart : ∀ current ∈ db.governance.governanceProposal.find? (call.keyId, call.proposalId),
      VotesApart current call.optionIndex) (hRecorded : KeyVoteRecorded call db db') :
    TallyChange db.governance db'.governance := by
  rcases hRecorded.recorded with ⟨current, option, tallies, weight, hStored, hOption, -, hTally⟩
  refine change_of_tallyVote ?_ ?_ ?_ hTally
  · exact hStored
  · exact getElem?_of_optionAt hOption
  · exact hApart current hStored

theorem TallyStep.change {s : TallyWorld} {label : TallyStep} (h : Consistent s)
    (hAdmissible : label.Admissible s) :
    TallyChange s.db (label.apply s.db) := by
  cases label with
  | index config now id event => exact (changes_applyGovernanceEvent h.normal hAdmissible).final
  | governanceVote call => exact (changes_castGovernanceVote hAdmissible).final
  | keyVote holdings call =>
    have hEnsures := ensures_castKeyProposalVote call { holdings with governance := s.db }
    apply Ensures.final (E := fun db' : VotingDb => TallyChange s.db db'.governance)
    refine hEnsures.imp ?_ ?_
    · intro _ db' hRecorded
      exact @change_of_keyVote call { holdings with governance := s.db } db' hAdmissible hRecorded
    · rintro db' rfl
      exact .same

/-
  In every run of admissible steps, the stored tally of a
  proposal is the sum of its recorded votes, less the early.
-/
theorem tally_exact {start s : TallyWorld} {steps : List TallyStep} (hStart : Consistent start)
    (hRun : RunsTo TallyWorld.step (fun s label => label.Admissible s) start steps s) :
    ∀ k, ∀ proposal ∈ s.db.governanceProposal.find? k,
      Tallied s.db.governanceVote s.early proposal := by
  have hConsistent := hRun.invariant (I := Consistent) hStart (by
    intro s label t h hAdmissible hStep
    cases hStep
    exact h.become (label.change h hAdmissible))
  exact hConsistent.tallied

end

-- Sample Runs
----

open Indexer

/- An event on proposal `P` of key `K`. -/
def sampleEvent (eventType : String) (eventIndex : Nat)
    (fields : GovernanceFields) : GovernanceEvent where
  toIndexerChainEvent := bareEvent eventType "t" eventIndex 1
  payload := fields

def sampleFields : GovernanceFields where
  keyId := some "K"
  proposalId := some "P"
  title := none
  options := .other
  expiresAt := some 100
  deadline := none
  occurredAt := some 1
  createdAt := none
  executedAt := none
  quorumBps := none
  snapshotLedger := none
  snapshotTotalWeight := none
  voter := none
  wallet := none
  optionIndex := none
  weight := none

def sampleCreated (options : List String) : TallyStep :=
  .index ⟨fun _ => none⟩ 1 "id" (sampleEvent "PROPOSAL_CREATED" 0 { sampleFields with
        options := .array (options.map some) })

def sampleVote (voter : String) (optionIndex : ℤ) (weight : String) : TallyStep :=
  .index ⟨fun _ => none⟩ 2 "id" (sampleEvent "VOTE_CAST" 1 { sampleFields with
        voter := some voter
        optionIndex := some optionIndex
        weight := some weight })

/- No proposal and no vote; `B` has 7 keys in the snapshot. -/
def sampleWorld : TallyWorld where
  db := {
    governanceProposal := .empty
    governanceVote := .empty
    governanceVotingSnapshot := Table.empty.createMany [⟨"K", "P", "B", "7.0000000"⟩]
    latestLedger := none }
  early := []

theorem consistent_sampleWorld : Consistent sampleWorld := by
  refine ⟨?_, ?_, ?_, ?_⟩
  · intro k proposal hProposal
    cases hProposal
  · intro k proposal hProposal
    cases hProposal
  · intro k hEarly
    cases hEarly
  · intro vote hVote
    cases hVote

/-
  An event's vote and a vote by snapshot weight; the event is
  delivered again, and the proposal executed.
-/
theorem tally_exact_sample :
    ∃ s proposal, RunsTo TallyWorld.step (fun s label => label.Admissible s) sampleWorld
      [sampleCreated ["Yes", "No"], sampleVote "A" 0 "5", .governanceVote ⟨"P", "B", 1, 3, 3⟩,
        sampleVote "A" 0 "5", .index ⟨fun _ => none⟩ 4 "id"
          (sampleEvent "PROPOSAL_EXECUTED" 2 sampleFields)] s ∧
      s.db.governanceProposal.find? ("K", "P") = some proposal ∧ proposal.totalVotingWeight = 12 ∧
      Tallied s.db.governanceVote s.early proposal := by
  have hRun := runsTo_of_runAllowed (Option.some_get (show (runAllowed TallyWorld.step
      (fun s label => label.Admissible s) sampleWorld
      [sampleCreated ["Yes", "No"], sampleVote "A" 0 "5", .governanceVote ⟨"P", "B", 1, 3, 3⟩,
        sampleVote "A" 0 "5", .index ⟨fun _ => none⟩ 4 "id" (sampleEvent "PROPOSAL_EXECUTED" 2
          sampleFields)]).isSome = true by
      decide)).symm
  refine ⟨_, _, hRun, (Option.some_get (by decide)).symm, ?_,
    tally_exact consistent_sampleWorld hRun ("K", "P") _ (Option.some_get (by decide)).symm⟩
  decide

/-
  A vote that comes before its proposal is never tallied, and
  two options of one label both show the votes of either.
-/
theorem early_or_shared_vote_breaks_tally :
    (∃ s, RunsTo TallyWorld.step (fun _ _ => True) sampleWorld
      [sampleVote "A" 0 "5", sampleCreated ["Yes", "No"]] s ∧
      ∃ proposal ∈ s.db.governanceProposal.find? ("K", "P"),
        ¬ Tallied s.db.governanceVote [] proposal) ∧ ∃ s,
      RunsTo TallyWorld.step (fun _ _ => True) sampleWorld
        [sampleCreated ["Yes", "Yes"], sampleVote "A" 0 "5"] s ∧
      ∃ proposal ∈ s.db.governanceProposal.find? ("K", "P"),
        ¬ Tallied s.db.governanceVote [] proposal := by
  refine ⟨⟨_, runsTo_of_runLabels rfl, _, (Option.some_get (by decide)).symm, ?_⟩,
    ⟨_, runsTo_of_runLabels rfl, _, (Option.some_get (by decide)).symm, ?_⟩⟩
  · intro hTallied
    exact absurd hTallied.total (by decide)
  · intro hTallied
    exact absurd (hTallied.option 1 "Yes" rfl) (by decide)

end Governance

end AccessLayer
