import AccessLayer.Keys.ProposalVotes
import AccessLayer.Library.Machines

/-
  The closing of proposals whose deadline has passed
  (`src/modules/governance/governance-proposals.service.ts`,
  `src/modules/indexer/governance-proposal-indexer.service.ts`).

  The statements of votes, indexed events and closing runs
  interleave.  The writes of a transaction take effect when it
  commits, one step after its read of the proposal.

  Main result: `closed_proposals_consistent`
-/

-- Outcomes
----

namespace AccessLayer

namespace Governance

open Transactional Program Utils

inductive ProposalOutcome where
  | passed
  | failed
  | quorumNotMet
  deriving DecidableEq

def ProposalOutcome.status : ProposalOutcome → ProposalStatus
  | .passed => .passed
  | .failed => .failed
  | .quorumNotMet => .quorumNotMet

def BPS_DENOMINATOR : ℤ := 10000

/- The least weight that makes up the quorum. -/
def quorumRequiredWeight (totalWeight quorumBps : ℤ) : ℤ :=
  let bps := max 0 quorumBps
  if totalWeight ≤ 0 ∨ bps ≤ 0 then 0
  else (totalWeight * bps + BPS_DENOMINATOR - 1) / BPS_DENOMINATOR

/- The first option of greatest weight. -/
def leadingOption (options : List String) (results : Results) : Option String × ℤ :=
  options.foldl (fun leading candidate =>
    let weight := resultOf results candidate
    if leading.1 = none ∨ leading.2 < weight then
      (some candidate, weight)
    else leading)
    (none, 0)

structure OutcomeInput where
  options : List String
  results : Results
  castWeight : ℤ
  snapshotTotalWeight : ℤ
  quorumBps : ℤ

def evaluateProposalOutcome (input : OutcomeInput) : ProposalOutcome :=
  let required := quorumRequiredWeight input.snapshotTotalWeight input.quorumBps
  if input.snapshotTotalWeight ≤ 0 ∨ input.castWeight ≤ 0 then
    .quorumNotMet
  else if 0 < required ∧ input.castWeight < required then
    .quorumNotMet
  else if input.castWeight < (leadingOption input.options input.results).2 * 2 then
    .passed
  else .failed

/- What an outcome is computed from. -/
def GovernanceProposal.outcomeInput (proposal : GovernanceProposal) : OutcomeInput where
  options := proposal.options
  results := proposal.results
  castWeight := proposal.totalVotingWeight
  snapshotTotalWeight := proposal.snapshotTotalWeight
  quorumBps := proposal.quorumBps

def GovernanceProposal.outcome (proposal : GovernanceProposal) : ProposalOutcome :=
  evaluateProposalOutcome proposal.outcomeInput

/- The status that is shown, which no read stores. -/
def resolveProposalStatus (proposal : GovernanceProposal) (now : ℤ) : ProposalStatus :=
  if proposal.status = .executed ∨ proposal.executedAt ≠ none then
    .executed
  else if proposal.status ≠ .active then proposal.status
  else if now < proposal.expiresAt then .active
  else proposal.outcome.status

/- A closed proposal has the status of its tally. -/
def GovernanceProposal.Settled (proposal : GovernanceProposal) : Prop :=
  proposal.status ≠ .active → proposal.status ≠ .executed →
    proposal.status = proposal.outcome.status

instance (proposal : GovernanceProposal) : Decidable proposal.Settled := by
  unfold GovernanceProposal.Settled
  infer_instance

-- Votes before their Transactions
----

open Keys

/- Proposals and their votes among the voting tables. -/
def VotingDb.governancePart : Component VotingDb GovernanceDb where
  get := VotingDb.governance
  set := fun governance db => { db with governance }
  get_set := fun _ _ => rfl
  set_get := fun _ => rfl
  set_set := fun _ _ _ => rfl

/- `castGovernanceVote` up to its transaction. -/
def governanceBallot (call : GovernanceVoteCall) : GovernanceM (String × GovernanceVote) := do
  let found ← query .database (findProposal call.proposalIdParam)
  match found with
  | none => throw (.proposalNotFound call.proposalIdParam)
  | some proposal =>
    if proposal.status ≠ .active ∨ proposal.expiresAt ≤ call.now then
      throw (.votingPeriodEnded proposal.proposalId)
    else
      match optionAt proposal.options call.optionIndex with
      | none => throw (.optionOutOfRange call.optionIndex proposal.options.length)
      | some option => do
        let snapshot ← query .database fun db => db.governanceVotingSnapshot.find?
            ((proposal.keyId, proposal.proposalId), call.wallet)
        let weight := toBigInt (snapshot.map GovernanceVotingSnapshot.weight)
        if weight ≤ 0 then
          throw (.noSnapshotVotingPower call.wallet)
        else do
          let existing ← query .database fun db => db.governanceVote.find?
              ((proposal.keyId, proposal.proposalId), call.wallet)
          if existing.isSome then throw .duplicateVote
          else
            pure (option,
              { keyId := proposal.keyId
                proposalId := proposal.proposalId
                voter := call.wallet
                optionIndex := call.optionIndex.toNat
                weight
                createdAt := call.committedAt })

structure KeyBallot where
  option : String
  ownBalance : ℚ
  delegatedBalance : ℚ
  delegatorCount : Nat

/- `castKeyProposalVote` up to its transaction. -/
def keyBallot (call : KeyVoteCall) : VotingM KeyBallot := do
  let found ← query .database fun db => db.governance.governanceProposal.find?
      (call.keyId, call.proposalId)
  match found with
  | none => throw .proposalNotFoundOrClosed
  | some proposal =>
    match optionAt proposal.options call.optionIndex with
    | none => throw (.optionOutOfRange call.optionIndex proposal.options.length)
    | some option => do
      let ownBalance ← query .database fun db => ownBalanceOf db call.wallet call.keyId
      if ownBalance ≤ 0 then
        throw (.holderNotEligible call.wallet)
      else do
        let voted ← query .database fun db => db.governance.governanceVote.find?
            ((call.keyId, call.proposalId), call.wallet)
        if voted.isSome then throw .duplicateVote
        else do
          let delegatedBalance ← getDelegatedVoteWeight call.wallet call.keyId
          let delegatorCount ← query .database fun db => (db.activeDelegations call.wallet
              call.keyId).length
          pure
            { option
              ownBalance
              delegatedBalance
              delegatorCount }

/- A `VOTE_CAST` event whose vote is not recorded yet. -/
def indexedBallot (vote : GovernanceVote) : GovernanceM (Option GovernanceVote) := do
  let existing ← query .database fun db => db.governanceVote.find? (key vote)
  if existing.isSome then pure none else pure (some vote)

-- Statements
----

/- A vote whose transaction is next. -/
inductive Ballot where
  /- of `castGovernanceVote` -/
  | snapshot (option : String) (vote : GovernanceVote)
  /- of `castKeyProposalVote` -/
  | balance (call : KeyVoteCall) (option : String) (totalWeight : ℚ)
  /- of a `VOTE_CAST` event -/
  | indexed (vote : GovernanceVote)

/- What the transaction of a vote has to write. -/
structure VoteWrite where
  vote : GovernanceVote
  tallies : Option VoteTally

def foldInto (current : GovernanceProposal) (option : String)
    (vote : GovernanceVote) : Option VoteWrite :=
  (applyVoteWeight current.tally vote.weight option).map
    fun tallies => { vote, tallies := some tallies }

/- The read of the transaction; `none` where it throws. -/
def Ballot.read (db : GovernanceDb) : Ballot → Option VoteWrite
  | .snapshot option vote =>
    match db.governanceProposal.find? vote.proposal with
    | none => none
    | some current =>
      if current.status ≠ .active ∨ current.expiresAt ≤ vote.createdAt then none
      else foldInto current option vote
  | .balance call option totalWeight =>
    match db.governanceProposal.find? (call.keyId, call.proposalId) with
    | none => none
    | some current =>
      if current.status ≠ .active then none
      else
        (integerOf totalWeight).bind fun weight => foldInto current option
          { keyId := call.keyId
            proposalId := call.proposalId
            voter := call.wallet
            optionIndex := call.optionIndex.toNat
            weight
            createdAt := call.committedAt }
  | .indexed vote =>
    match db.governanceProposal.find? vote.proposal with
    | none => some { vote, tallies := none }
    | some current =>
      match (normalizeArray (current.options.map some))[vote.optionIndex]? with
      | none => some { vote, tallies := none }
      | some option => foldInto current option vote

/- The tally and the vote are written together, or neither. -/
def VoteWrite.commit (write : VoteWrite) (db : GovernanceDb) : Option GovernanceDb :=
  (db.governanceVote.insert? write.vote).map fun governanceVote =>
    match write.tallies with
    | some tallies =>
      { db.storeTally write.vote.proposal tallies with
        governanceVote }
    | none => { db with governanceVote }

/- What `closeDueProposals` finds. -/
def GovernanceDb.due (db : GovernanceDb) (now : ℤ) : List GovernanceProposal :=
  db.governanceProposal.rows.filter fun row => row.status = .active && row.expiresAt ≤ now

/- The row of an identifier gets an outcome as its status. -/
def GovernanceDb.close (db : GovernanceDb) (id : String) (outcome : ProposalOutcome)
    (now : ℤ) : GovernanceDb :=
  { db with
    governanceProposal :=
      db.governanceProposal.updateMany (fun row => row.id = id) (fun row => { row with
            status := outcome.status
            closedAt := some now }) fun _ => rfl }

/- The rows that a program may not touch. -/
structure Bystander where
  program : VotingM Unit
  frames : program.Frames (fun db => db.governance.governanceProposal) fun _ => True

/- A call and what it has read so far. -/
inductive ProposalWork where
  /- before the transaction of a vote, if there is one -/
  | preparing (ballot : VotingM (Option Ballot))
  /- the transaction has read the proposal -/
  | voting (write : VoteWrite)
  /- `closeDueProposals`, before its first statement -/
  | sweeping (now : ℤ)
  /- the proposals that were found due and not closed yet -/
  | closing (now : ℤ) (due : List GovernanceProposal)
  /- the handler of an event that is no vote -/
  | handling (program : GovernanceM Unit)
  | elsewhere (program : Bystander)
  | ended

/- The call after the read of its vote's transaction. -/
def ProposalWork.begin (db : GovernanceDb) (ballot : Ballot) : ProposalWork :=
  match ballot.read db with
  | some write => .voting write
  | none => .ended

def executeProposalWork (call : ProposalWork) (db : VotingDb) : Option (VotingDb × ProposalWork) :=
  match call with
  | .preparing (.stmt update next _) => some (update db, .preparing (next db))
  | .preparing (.ret (some ballot)) => some (db, .begin db.governance ballot)
  | .preparing _ => none
  | .voting write =>
    match write.commit db.governance with
    | some governance => some ({ db with governance }, .ended)
    | none => some (db, .ended)
  | .sweeping now => some (db, .closing now (db.governance.due now))
  | .closing now (proposal :: rest) =>
    if db.governance.governanceProposal.rows.any fun row => row.id = proposal.id then
      some ({ db with
            governance := db.governance.close proposal.id proposal.outcome now }, .closing now rest)
    else some (db, .ended)
  | .closing _ [] => none
  | .handling (.stmt update next _) =>
    some ({ db with governance := update db.governance }, .handling (next db.governance))
  | .handling _ => none
  | .elsewhere ⟨.stmt update next _, hFrames⟩ =>
    some (update db, .elsewhere ⟨next db, hFrames.2.1 db trivial⟩)
  | .elsewhere _ => none
  | .ended => none

/- A statement that fails rolls its transaction back. -/
def failProposalWork : ProposalWork → ProposalWork
  | .preparing (.stmt _ _ onFault) => .preparing onFault
  | .handling (.stmt _ _ onFault) => .handling onFault
  | .elsewhere ⟨.stmt _ _ onFault, hFrames⟩ => .elsewhere ⟨onFault, hFrames.2.2⟩
  | _ => .ended

def proposals : Machine VotingDb ProposalWork where
  execute := executeProposalWork
  fail := failProposalWork

/- What is asked of the services and the indexer. -/
inductive ProposalRequest where
  | castGovernanceVote (call : GovernanceVoteCall)
  | castKeyProposalVote (call : KeyVoteCall)
  | indexedEvent (now : ℤ) (id : String) (event : GovernanceEvent)
  | closeDueProposals (now : ℤ)
  /- closes what is due, then only reads -/
  | listGovernanceProposals (now : ℤ)
  | elsewhere (program : Bystander)

/- The vote of an event, unless it is recorded already. -/
def voteCastBallot (now : ℤ) (event : GovernanceEvent) : GovernanceM (Option Ballot) :=
  match voteOf now event.payload with
  | none => pure none
  | some vote => do
    let fresh ← indexedBallot vote
    pure (fresh.map .indexed)

def ProposalRequest.work (config : GovernanceConfig) : ProposalRequest → ProposalWork
  | .castGovernanceVote call =>
    .preparing ((do
      let ballot ← governanceBallot call
      pure (some (.snapshot ballot.1 ballot.2)) : GovernanceM (Option Ballot)).zoom
      VotingDb.governancePart)
  | .castKeyProposalVote call =>
    .preparing do
      let ballot ← keyBallot call
      pure (some (.balance call ballot.option (ballot.ownBalance + ballot.delegatedBalance)))
  | .indexedEvent now id event =>
    if event.eventType ∈ proposalCreatedEventTypes then
      .handling (applyProposalCreated config now id event)
    else if event.eventType ∈ voteCastEventTypes then
      .preparing ((voteCastBallot now event).zoom VotingDb.governancePart)
    else if event.eventType ∈ proposalExecutedEventTypes then
      .handling (applyProposalExecuted now event)
    else .ended
  | .closeDueProposals now => .sweeping now
  | .listGovernanceProposals now => .sweeping now
  | .elsewhere program => .elsewhere program

-- Consistency
----

/-
  Votes are tallied while their proposal is active, or once it
  is executed, and a closing run finds each proposal with the
  tally that it read, and not executed.
-/
def Timely (db : VotingDb) (call : ProposalWork) (outcome : Option Outcome) : Prop :=
  takesEffect outcome = true →
    match call with
    | .voting write =>
      write.tallies.isSome = true → db.governance.governanceVote.find? (key write.vote) = none →
        ∀ row, db.governance.governanceProposal.find? write.vote.proposal = some row →
          row.status = .active ∨ row.status = .executed
    | .closing _ (proposal :: _) =>
      ∀ row ∈ db.governance.governanceProposal.rows, row.id = proposal.id → row.status ≠ .executed ∧
        row.outcomeInput = proposal.outcomeInput
    | _ => True

/- What the writes to the proposals keep. -/
structure Preserved (J : Table GovernanceProposal → Prop) : Prop where
  tally : ∀ t proposal tallies, J t → (∀ row, t.find? proposal = some row →
    row.status = .active ∨ row.status = .executed) → J (t.update proposal
      (fun row : GovernanceProposal => row.withTally tallies) fun _ => rfl)
  close : ∀ (t : Table GovernanceProposal) (proposal : GovernanceProposal) now, J t →
    (∀ row ∈ t.rows, row.id = proposal.id → row.status ≠ .executed ∧
      row.outcomeInput = proposal.outcomeInput) → J
      (t.updateMany (fun row => row.id = proposal.id) (fun row => { row with
            status := proposal.outcome.status
            closedAt := some now }) fun _ => rfl)
  create : ∀ (t : Table GovernanceProposal) row t', J t →
    row.status = .active → t.insert? row = some t' → J t'
  execute :
    ∀ (t : Table GovernanceProposal) proposal executedAt, J t → J (t.update proposal (fun row =>
      { row with
        status := .executed
        executedAt := some executedAt
        closedAt := some executedAt })
      fun _ => rfl)

/- Every closed proposal has the status of its tally. -/
def AllSettled (t : Table GovernanceProposal) : Prop := ∀ row ∈ t.rows, row.Settled

instance (t : Table GovernanceProposal) : Decidable (AllSettled t) := by
  unfold AllSettled
  infer_instance

def IsExecuted (proposal : ProposalKey) (t : Table GovernanceProposal) : Prop :=
  ∃ row, t.find? proposal = some row ∧ row.status = .executed

variable {t : Table GovernanceProposal} {p : GovernanceProposal → Bool}
variable {f : GovernanceProposal → GovernanceProposal}

theorem mem_rewritten {hKey : ∀ row, key (f row) = key row} {row : GovernanceProposal}
    (hRow : row ∈ (t.updateMany p f hKey).rows) :
    row ∈ t.rows ∨ ∃ old ∈ t.rows, p old = true ∧ row = f old := by
  rcases List.mem_map.mp hRow with ⟨old, hOld, rfl⟩
  split
  · rename_i hSelected
    exact Or.inr ⟨old, hOld, hSelected, rfl⟩
  · exact Or.inl hOld

theorem preserved_allSettled : Preserved AllSettled where
  tally := by
    intro t proposal tallies hAll hOpen row hRow
    rcases mem_rewritten hRow with hOld | ⟨old, hOld, hKey, rfl⟩
    · exact hAll row hOld
    · intro hActive hExecuted
      rcases hOpen old (Table.find?_eq_some_iff.mpr ⟨hOld, of_decide_eq_true hKey⟩) with h | h
      · exact absurd h hActive
      · exact absurd h hExecuted
  close := by
    intro t proposal now hAll hRead row hRow
    rcases mem_rewritten hRow with hOld | ⟨old, hOld, hId, rfl⟩
    · exact hAll row hOld
    · intro _ _
      have hInput := (hRead old hOld (of_decide_eq_true hId)).2
      change proposal.outcome.status = (evaluateProposalOutcome old.outcomeInput).status
      rw [hInput]
      rfl
  create := by
    intro t row t' hAll hActive hInsert other hOther
    rcases Table.exists_create_of_insert? hInsert with ⟨hFresh, rfl⟩
    rcases List.mem_append.mp hOther with hOld | hNew
    · exact hAll other hOld
    · rw [List.mem_singleton.mp hNew]
      exact fun h => absurd hActive h
  execute := by
    intro t proposal executedAt hAll row hRow
    rcases mem_rewritten hRow with hOld | ⟨old, hOld, -, rfl⟩
    · exact hAll row hOld
    · exact fun _ h => absurd rfl h

theorem executed_rewritten {proposal : ProposalKey} {hKey : ∀ row, key (f row) = key row}
    (hExecuted : IsExecuted proposal t)
    (hKept : ∀ row ∈ t.rows, p row = true → row.status = .executed → (f row).status = .executed) :
    IsExecuted proposal (t.updateMany p f hKey) := by
  rcases hExecuted with ⟨row, hFind, hStatus⟩
  refine ⟨if p row then f row else row, ?_, ?_⟩
  · rw [Table.find?_updateMany, hFind]
    rfl
  · split
    · rename_i hSelected
      exact hKept row (Table.mem_of_find? hFind) hSelected hStatus
    · exact hStatus

theorem preserved_executed (proposal : ProposalKey) : Preserved (IsExecuted proposal) where
  tally := by
    intro t other tallies hExecuted _
    exact executed_rewritten hExecuted fun row _ _ h => h
  close := by
    intro t closed now hExecuted hRead
    apply executed_rewritten hExecuted
    intro row hRow hId hStatus
    exact absurd hStatus (hRead row hRow (of_decide_eq_true hId)).1
  create := by
    intro t row t' hExecuted _ hInsert
    rcases hExecuted with ⟨old, hFind, hStatus⟩
    refine ⟨old, ?_, hStatus⟩
    rcases Table.exists_create_of_insert? hInsert with ⟨hFresh, rfl⟩
    rw [Table.find?_create, if_neg]
    · exact hFind
    · rintro rfl
      rw [hFind] at hFresh
      cases hFresh
  execute := by
    intro t other executedAt hExecuted
    exact executed_rewritten hExecuted fun _ _ _ _ => rfl

-- Runs
----

variable {J : Table GovernanceProposal → Prop}

def VotingDb.proposalRows (db : VotingDb) : Table GovernanceProposal :=
  db.governance.governanceProposal

/- What the writes keep holds after the change. -/
def ProposalChange (db db' : GovernanceDb) : Prop :=
  ∀ J, Preserved J → J db.governanceProposal → J db'.governanceProposal

/-
  Calls that write no proposals outside the transaction of a
  vote and a closing run, or write them as an event does.
-/
def ProposalWork.Fair : ProposalWork → Prop
  | .preparing ballot => ballot.Frames VotingDb.proposalRows fun _ => True
  | .handling program => program.Changes ProposalChange
  | _ => True

theorem preserved_commit (hPreserved : Preserved J) {write : VoteWrite} {db : VotingDb}
    {governance : GovernanceDb} (hJ : J db.proposalRows) (hOpen :
      write.tallies.isSome = true → db.governance.governanceVote.find? (key write.vote) = none →
        ∀ row, db.proposalRows.find? write.vote.proposal =
          some row → row.status = .active ∨ row.status = .executed)
    (hCommit : write.commit db.governance = some governance) :
    J governance.governanceProposal := by
  rcases Option.map_eq_some_iff.mp hCommit with ⟨governanceVote, hInsert, rfl⟩
  rcases Table.exists_create_of_insert? hInsert with ⟨hFresh, -⟩
  cases hTallies : write.tallies with
  | none => exact hJ
  | some tallies =>
    apply hPreserved.tally _ _ _ hJ
    exact hOpen (by rw [hTallies]; rfl) hFresh

theorem proposals_keeps (hPreserved : Preserved J) :
    proposals.Keeps Timely (fun db => J db.proposalRows) ProposalWork.Fair where
  execute := by
    intro db call outcome db' next hJ hFair hTimely hEffect hStep
    have hWrite := hTimely hEffect
    cases call with
    | preparing ballot =>
      cases ballot with
      | ret ballot =>
        cases ballot with
        | none => cases hStep
        | some ballot =>
          cases hStep
          exact hJ
      | raise e => cases hStep
      | stmt update next onFault =>
        cases hStep
        rw [hFair.1 db trivial]
        exact hJ
    | voting write =>
      simp only [proposals, executeProposalWork] at hStep
      split at hStep
      · rename_i governance hCommit
        cases hStep
        exact preserved_commit hPreserved hJ hWrite hCommit
      · cases hStep
        exact hJ
    | sweeping now =>
      cases hStep
      exact hJ
    | closing now due =>
      cases due with
      | nil => cases hStep
      | cons proposal rest =>
        simp only [proposals, executeProposalWork] at hStep
        split at hStep
        · cases hStep
          exact hPreserved.close _ proposal now hJ hWrite
        · cases hStep
          exact hJ
    | handling program =>
      cases program with
      | ret a => cases hStep
      | raise e => cases hStep
      | stmt update next onFault =>
        cases hStep
        exact hFair.1 db.governance J hPreserved hJ
    | elsewhere bystander =>
      rcases bystander with ⟨program, hFrames⟩
      cases program with
      | ret a => cases hStep
      | raise e => cases hStep
      | stmt update next onFault =>
        cases hStep
        have hSame : (update db).proposalRows = db.proposalRows := hFrames.1 db trivial
        rw [hSame]
        exact hJ
    | ended => cases hStep
  next := by
    intro db call db' next hJ hFair hStep
    cases call with
    | preparing ballot =>
      cases ballot with
      | ret ballot =>
        cases ballot with
        | none => cases hStep
        | some ballot =>
          cases hStep
          simp only [ProposalWork.begin]
          split <;> trivial
      | raise e => cases hStep
      | stmt update next onFault =>
        cases hStep
        exact hFair.2.1 db trivial
    | voting write =>
      simp only [proposals, executeProposalWork] at hStep
      split at hStep <;> cases hStep <;> trivial
    | sweeping now =>
      cases hStep
      trivial
    | closing now due =>
      cases due with
      | nil => cases hStep
      | cons proposal rest =>
        simp only [proposals, executeProposalWork] at hStep
        split at hStep <;> cases hStep <;> trivial
    | handling program =>
      cases program with
      | ret a => cases hStep
      | raise e => cases hStep
      | stmt update next onFault =>
        cases hStep
        exact hFair.2.1 db.governance
    | elsewhere bystander =>
      rcases bystander with ⟨program, hFrames⟩
      cases program with
      | ret a => cases hStep
      | raise e => cases hStep
      | stmt update next onFault =>
        cases hStep
        trivial
    | ended => cases hStep
  fail := by
    intro call hFair
    cases call with
    | preparing ballot =>
      cases ballot with
      | stmt update next onFault => exact hFair.2.2
      | _ => trivial
    | handling program =>
      cases program with
      | stmt update next onFault => exact hFair.2.2
      | _ => trivial
    | elsewhere bystander =>
      rcases bystander with ⟨program, hFrames⟩
      cases program <;> trivial
    | _ => trivial

theorem frames_governanceBallot (call : GovernanceVoteCall) :
    (governanceBallot call).Frames GovernanceDb.governanceProposal fun _ => True := by
  apply frames_query_bind
  intro db _
  split
  · trivial
  split
  · trivial
  split
  · trivial
  apply frames_query_bind
  intro db _
  dsimp only
  split
  · trivial
  apply frames_query_bind
  intro db _
  split <;> trivial

theorem frames_keyBallot (call : KeyVoteCall) :
    (keyBallot call).Frames VotingDb.proposalRows fun _ => True := by
  apply frames_query_bind
  intro db _
  split
  · trivial
  split
  · trivial
  apply frames_query_bind
  intro db _
  split
  · trivial
  apply frames_query_bind
  intro db _
  split
  · trivial
  apply frames_bind
  · apply frames_query_bind
    intro db _
    split
    · trivial
    · exact frames_query _ _
  · intro delegated
    exact frames_query_bind fun _ _ => trivial

theorem frames_voteCastBallot (now : ℤ) (event : GovernanceEvent) :
    (voteCastBallot now event).Frames GovernanceDb.governanceProposal fun _ => True := by
  unfold voteCastBallot
  split
  · trivial
  · apply frames_bind
    · apply frames_query_bind
      intro db _
      split <;> trivial
    · exact fun _ => trivial

theorem proposalChange_refl (db : GovernanceDb) : ProposalChange db db := fun _ _ hJ => hJ

theorem proposalChange_skipReplay (error : GovernanceError) :
    (skipReplay error).Changes ProposalChange := by
  unfold skipReplay
  split <;> trivial

theorem changes_applyProposalCreated (config : GovernanceConfig) (now : ℤ) (id : String)
    (event : GovernanceEvent) :
    (applyProposalCreated config now id event).Changes ProposalChange := by
  unfold applyProposalCreated
  split
  · apply changes_bind (changes_query proposalChange_refl _ _)
    intro existing
    split
    · trivial
    · apply changes_bind
      · unfold snapshotLedgerOf
        split
        · trivial
        · exact changes_query proposalChange_refl _ _
      · intro snapshotLedger
        refine changes_tryCatch ?_ proposalChange_skipReplay
        apply changes_execute proposalChange_refl
        intro db _ db' hCreate J hPreserved hJ
        unfold createProposal at hCreate
        split at hCreate
        · cases hCreate
        · rename_i t hInsert
          cases hCreate
          exact hPreserved.create _ _ _ hJ rfl hInsert
  · trivial

theorem changes_applyProposalExecuted (now : ℤ) (event : GovernanceEvent) :
    (applyProposalExecuted now event).Changes ProposalChange := by
  unfold applyProposalExecuted
  split
  · apply changes_bind (changes_query proposalChange_refl _ _)
    intro found
    split
    · trivial
    · split
      · trivial
      · apply changes_execute proposalChange_refl
        intro db _ db' hMark J hPreserved hJ
        cases hMark
        exact hPreserved.execute _ _ _ hJ
  · trivial

theorem fair_work (config : GovernanceConfig) (request : ProposalRequest) :
    (request.work config).Fair := by
  cases request with
  | castGovernanceVote call =>
    have hBallot : (do
      let ballot ← governanceBallot call
      pure (some (.snapshot ballot.1 ballot.2)) : GovernanceM (Option Ballot)).Frames
      GovernanceDb.governanceProposal fun _ => True :=
      frames_bind (frames_governanceBallot call) fun _ => trivial
    exact hBallot.zoom (c := VotingDb.governancePart)
  | castKeyProposalVote call => exact frames_bind (frames_keyBallot call) fun _ => trivial
  | indexedEvent now id event =>
    simp only [ProposalRequest.work]
    split
    · exact changes_applyProposalCreated config now id event
    · split
      · exact (frames_voteCastBallot now event).zoom (c := VotingDb.governancePart)
      · split
        · exact changes_applyProposalExecuted now event
        · trivial
  | _ => trivial

/-
  In runs in which votes are tallied in time and closing runs
  find what they read, every closed proposal has the status of
  its tally, and an executed one stays executed.
-/
theorem closed_proposals_consistent {config : GovernanceConfig} {requests : List ProposalRequest}
    {db : VotingDb} {moves : List FaultMove} {crew : Crew VotingDb ProposalWork}
    (hStart : AllSettled db.proposalRows)
    (hRun : RunsTo (Crew.attempt proposals) (Crew.Admits Timely)
      (.start db (requests.map (·.work config))) moves crew) :
    AllSettled crew.store.proposalRows ∧ ∀ move crew', crew.Admits Timely move →
      crew.attempt proposals move = some crew' →
        ∀ proposal, IsExecuted proposal crew.store.proposalRows →
          IsExecuted proposal crew'.store.proposalRows := by
  have hFair : (Crew.start db (requests.map (·.work config))).All
      ProposalWork.Fair := by
    apply Crew.all_start
    intro call hCall
    rcases List.mem_map.mp hCall with ⟨request, -, rfl⟩
    exact fair_work config request
  have hReached := (proposals_keeps preserved_allSettled).run hStart hFair hRun
  refine ⟨hReached.1, ?_⟩
  intro move crew' hAdmits hStep proposal hExecuted
  have hKeeps := proposals_keeps (preserved_executed proposal)
  exact (hKeeps.maintains.step hExecuted hReached.2 hAdmits hStep).1

/- A proposal that is due, and nobody has voted on it. -/
def dueProposal : GovernanceProposal where
  id := "id"
  keyId := "K"
  proposalId := "P"
  title := "Proposal"
  options := ["Yes", "No"]
  totalVotingWeight := 0
  results := initialResults ["Yes", "No"]
  snapshotLedger := 1
  snapshotTotalWeight := 10
  quorumBps := 3000
  expiresAt := 0
  closedAt := none
  executedAt := none
  status := .active

def dueDb : VotingDb where
  governance := {
    governanceProposal := Table.empty.create dueProposal rfl
    governanceVote := .empty
    governanceVotingSnapshot := .empty
    latestLedger := none }
  keyOwnership := .empty
  voteDelegation := .empty
  voteDelegationHistory := .empty

/- An event on the proposal, with all its fields. -/
def dueEvent (eventType : String) : GovernanceEvent where
  toIndexerChainEvent := Indexer.bareEvent eventType "t" 0 1
  payload := {
    keyId := some "K"
    proposalId := some "P"
    title := none
    options := .other
    expiresAt := none
    deadline := none
    occurredAt := some 0
    createdAt := none
    executedAt := none
    quorumBps := none
    snapshotLedger := none
    snapshotTotalWeight := none
    voter := some "A"
    wallet := none
    optionIndex := some 0
    weight := some "5" }

def closingAnd (eventType : String) : Crew VotingDb ProposalWork :=
  .start dueDb ([.closeDueProposals 1, .indexedEvent 1 "" (dueEvent eventType)].map
    (ProposalRequest.work ⟨fun _ => none⟩))

theorem allSettled_dueDb : AllSettled dueDb.proposalRows := by
  intro row hRow
  rw [List.mem_singleton.mp hRow]
  exact fun h => absurd rfl h

def afterVote (moves : List FaultMove) : Crew VotingDb ProposalWork :=
  (runLabels (Crew.attempt proposals) (closingAnd "VOTE_CAST") moves).getD (closingAnd "VOTE_CAST")

theorem afterVote_reads :
    RunsTo (Crew.attempt proposals) (Crew.Admits Timely) (closingAnd "VOTE_CAST")
      [.attempt 1 .served, .attempt 1 .served]
      (afterVote [.attempt 1 .served, .attempt 1 .served]) := by
  have hFirst : RunsTo (Crew.attempt proposals) (Crew.Admits Timely)
      (closingAnd "VOTE_CAST") [.attempt 1 .served]
      (afterVote [.attempt 1 .served]) := by
    refine RunsTo.start.step ?_ rfl
    rintro call ⟨⟩ _
    trivial
  refine hFirst.step ?_ rfl
  rintro call ⟨⟩ _
  trivial

theorem afterVote_tallied :
    RunsTo (Crew.attempt proposals) (Crew.Admits Timely) (closingAnd "VOTE_CAST")
      [.attempt 1 .served, .attempt 1 .served, .attempt 1 .served] (afterVote
        [.attempt 1 .served, .attempt 1 .served, .attempt 1 .served]) := by
  refine afterVote_reads.step ?_ rfl
  rintro call ⟨⟩ _ _ _ row ⟨⟩
  exact Or.inl rfl

theorem afterVote_closed :
    RunsTo (Crew.attempt proposals) (Crew.Admits Timely) (closingAnd "VOTE_CAST")
      [.attempt 1 .served, .attempt 1 .served, .attempt 1 .served, .attempt 0 .served,
        .attempt 0 .served] (afterVote [.attempt 1 .served, .attempt 1 .served,
          .attempt 1 .served, .attempt 0 .served, .attempt 0 .served]) := by
  have hFound : RunsTo (Crew.attempt proposals) (Crew.Admits Timely) (closingAnd "VOTE_CAST")
      [.attempt 1 .served, .attempt 1 .served, .attempt 1 .served, .attempt 0 .served] (afterVote
        [.attempt 1 .served, .attempt 1 .served, .attempt 1 .served, .attempt 0 .served]) := by
    refine afterVote_tallied.step ?_ rfl
    rintro call ⟨⟩ _
    trivial
  refine hFound.step ?_ rfl
  rintro call ⟨⟩ _ row hRow _
  cases List.mem_singleton.mp hRow
  exact ⟨nofun, rfl⟩

/- The vote is tallied first, then the proposal is closed. -/
theorem closed_proposals_consistent_sample :
    ∃ moves crew, RunsTo (Crew.attempt proposals) (Crew.Admits Timely)
      (closingAnd "VOTE_CAST") moves crew ∧
      crew.store.proposalRows.rows.map (·.status) = [.passed] ∧
      AllSettled crew.store.proposalRows := by
  refine ⟨_, _, afterVote_closed, by decide, ?_⟩
  exact (@closed_proposals_consistent ⟨fun _ => none⟩ _ _ _ _ allSettled_dueDb afterVote_closed).1

/-
  A vote is tallied after its proposal was closed, and a closing
  run closes a proposal that was executed since it was read.
-/
theorem late_writes_break_closing :
    (∃ moves crew, RunsTo (Crew.attempt proposals) (fun _ _ => True)
      (closingAnd "VOTE_CAST") moves crew ∧ ¬AllSettled crew.store.proposalRows) ∧
    ∃ moves move crew crew', RunsTo (Crew.attempt proposals) (fun _ _ => True)
      (closingAnd "PROPOSAL_EXECUTED") moves crew ∧ crew.attempt proposals move = some crew' ∧
      IsExecuted ("K", "P") crew.store.proposalRows ∧
      ¬IsExecuted ("K", "P") crew'.store.proposalRows := by
  refine ⟨⟨[.attempt 0 .served, .attempt 0 .served, .attempt 1 .served, .attempt 1 .served,
    .attempt 1 .served], _, runsTo_of_runLabels rfl, ?_⟩,
    ⟨[.attempt 0 .served, .attempt 1 .served, .attempt 1 .served], .attempt 0 .served, _, _,
      runsTo_of_runLabels rfl, rfl, ⟨_, rfl, rfl⟩, ?_⟩⟩
  · decide
  · rintro ⟨row, ⟨⟩, ⟨⟩⟩

end Governance

end AccessLayer
