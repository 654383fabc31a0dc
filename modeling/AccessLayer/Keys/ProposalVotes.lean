import AccessLayer.Governance.Delegation

/-
  Votes of key holders
  (`src/modules/keys/key-proposal-votes.service.ts`).

  The weight of a vote is the voter's balance and the balances
  of the wallets that delegate to it, read when it votes.  The
  sums are exact, as those of numbers with up to 15 significant
  digits are.

  Main declaration: `castKeyProposalVote`
-/

-- Votes by Balance
----

namespace AccessLayer

namespace Keys

open Transactional Program Indexer Governance

/- `BigInt` of a number's text; `none` where it throws. -/
def integerOf (n : ℚ) : Option ℤ :=
  if n.den = 1 ∧ |n| < 10 ^ 21 then some n.num else none

theorem cast_integerOf {n : ℚ} {z : ℤ} (h : integerOf n = some z) : (z : ℚ) = n := by
  unfold integerOf at h
  split at h
  · rename_i hInteger
    cases h
    exact Rat.coe_int_num_of_den_eq_one hInteger.1
  · cases h

structure KeyVoteCall where
  keyId : String
  proposalId : String
  optionIndex : ℤ
  wallet : String
  committedAt : ℤ

structure CastVoteResult where
  proposalId : String
  optionIndex : ℤ
  option : String
  weight : ℚ
  ownWeight : ℚ
  delegatedWeight : ℚ
  delegatorCount : Nat

/- The balance that makes a wallet eligible. -/
def ownBalanceOf (db : VotingDb) (wallet keyId : String) : ℚ :=
  ((db.keyOwnership.find? (wallet, keyId)).map KeyOwnership.balance).getD 0

/- The transaction of a vote: active, folded and recorded. -/
def recordKeyVote (call : KeyVoteCall) (option : String) (totalWeight : ℚ)
    (db : VotingDb) : Except GovernanceError (Unit × VotingDb) :=
  match db.governance.governanceProposal.find? (call.keyId, call.proposalId) with
  | none => .error .proposalNotFoundOrClosed
  | some current =>
    if current.status ≠ .active then
      .error .proposalNotFoundOrClosed
    else
      match integerOf totalWeight with
      | none => .error .notANumber
      | some weight =>
        match tallyVote current option
          { keyId := call.keyId
            proposalId := call.proposalId
            voter := call.wallet
            optionIndex := call.optionIndex.toNat
            weight
            createdAt := call.committedAt } db.governance with
        | .error e => .error e
        | .ok (_, governance) => .ok ((), { db with governance })

/- A vote of an eligible wallet, with its delegated weight. -/
def submitKeyVote (call : KeyVoteCall) (option : String)
    (ownBalance : ℚ) : VotingM CastVoteResult := do
  let delegatedBalance ← getDelegatedVoteWeight call.wallet call.keyId
  let delegatorCount ← query .database fun db =>
    (db.activeDelegations call.wallet call.keyId).length
  execute .database (recordKeyVote call option (ownBalance + delegatedBalance))
  pure {
    proposalId := call.proposalId
    optionIndex := call.optionIndex
    option
    weight := ownBalance + delegatedBalance
    ownWeight := ownBalance
    delegatedWeight := delegatedBalance
    delegatorCount }

/- Holders vote once. -/
def checkEligibility (call : KeyVoteCall) (option : String) : VotingM CastVoteResult := do
  let ownBalance ← query .database fun db => ownBalanceOf db call.wallet call.keyId
  if ownBalance ≤ 0 then throw (.holderNotEligible call.wallet)
  else do
    let voted ← query .database fun db => db.governance.governanceVote.find?
        ((call.keyId, call.proposalId), call.wallet)
    if voted.isSome then throw .duplicateVote
    else submitKeyVote call option ownBalance

def castKeyProposalVote (call : KeyVoteCall) : VotingM CastVoteResult := do
  let found ← query .database fun db => db.governance.governanceProposal.find?
      (call.keyId, call.proposalId)
  match found with
  | none => throw .proposalNotFoundOrClosed
  | some proposal =>
    match optionAt proposal.options call.optionIndex with
    | none => throw (.optionOutOfRange call.optionIndex proposal.options.length)
    | some option => checkEligibility call option

-- What a Vote Records
----

theorem ensures_getDelegatedVoteWeight {wallet keyId : String} {db : VotingDb}
    {E : VotingDb → Prop} :
    (getDelegatedVoteWeight wallet keyId).Ensures db (fun delegated s => s = db ∧ delegated =
      db.sumOfBalances ((db.activeDelegations wallet keyId).map
        VoteDelegation.delegatorWallet) keyId) E := by
  apply ensures_query_bind
  split
  · rename_i hEmpty
    apply ensures_pure
    rw [List.isEmpty_iff.mp hEmpty]
    refine ⟨rfl, ?_⟩
    simp [VotingDb.sumOfBalances, Table.total]
  · exact ⟨rfl, rfl⟩

/- What a vote that is answered has written. -/
structure KeyVoteRecorded (call : KeyVoteCall) (db db' : VotingDb) : Prop where
  eligible : 0 < ownBalanceOf db call.wallet call.keyId
  recorded : ∃ current option tallies, ∃ weight : ℤ, db.governance.governanceProposal.find?
    (call.keyId, call.proposalId) = some current ∧
    optionAt current.options call.optionIndex = some option ∧ (weight : ℚ) =
      ownBalanceOf db call.wallet call.keyId + db.sumOfBalances
        ((db.activeDelegations call.wallet call.keyId).map
          VoteDelegation.delegatorWallet) call.keyId ∧ tallyVote current option
        { keyId := call.keyId
          proposalId := call.proposalId
          voter := call.wallet
          optionIndex := call.optionIndex.toNat
          weight
          createdAt := call.committedAt } db.governance = .ok (tallies, db'.governance)
  kept : db' = { db with governance := db'.governance }

theorem ensures_castKeyProposalVote (call : KeyVoteCall) (db : VotingDb) :
    (castKeyProposalVote call).Ensures db (fun _ => KeyVoteRecorded call db)
      (fun db' => db' = db) := by
  apply ensures_query_bind
  split
  · exact ensures_throw rfl
  rename_i proposal hFound
  split
  · exact ensures_throw rfl
  rename_i option hOption
  apply ensures_query_bind
  split
  · exact ensures_throw rfl
  rename_i hEligible
  apply ensures_query_bind
  split
  · exact ensures_throw rfl
  apply Ensures.bind ensures_getDelegatedVoteWeight
  rintro delegated s ⟨rfl, rfl⟩
  apply ensures_query_bind
  apply Ensures.bind (Q := fun _ => KeyVoteRecorded call s)
  · refine ensures_execute ?_ rfl
    intro _ db' hOk
    unfold recordKeyVote at hOk
    rw [hFound] at hOk
    simp only at hOk
    split at hOk
    · cases hOk
    · split at hOk
      · cases hOk
      · rename_i weight hWeight
        split at hOk
        · cases hOk
        · rename_i tallies governance hTally
          cases hOk
          exact ⟨not_le.mp hEligible, ⟨proposal, option, tallies, weight, hFound, hOption,
            cast_integerOf hWeight, hTally⟩, rfl⟩
  · exact fun _ _ hRecorded => ensures_pure hRecorded

end Keys

end AccessLayer
