import AccessLayer.Governance.ProposalClosing
import Mathlib.Algebra.Order.Floor.Ring

/-
  Outcomes of proposals and what is shown of them
  (`src/modules/governance/governance-proposals.service.ts`).

  Weights are stored as texts and compared as integers.  Times
  are milliseconds, and rates are exact ratios.

  Main result: `outcome_exact`
-/

-- Proposals as They Are Shown
----

namespace AccessLayer

namespace Governance

open Transactional Utils

/-
  A row as it is stored.  `options` is `none` where the column
  does not hold an array, `results` where it is null.
-/
structure ProposalRow where
  id : String
  keyId : String
  proposalId : String
  title : String
  options : Option (List String)
  results : Option (List (String × String))
  totalVotingWeight : String
  snapshotTotalWeight : Option String
  quorumBps : Option ℤ
  snapshotLedger : ℤ
  expiresAt : ℤ
  closedAt : Option ℤ
  executedAt : Option ℤ
  status : ProposalStatus
  createdAt : ℤ

/- The integers that the texts of an object are read as. -/
def parseResults (results : List (String × String)) : Results :=
  results.foldl (fun parsed entry => setResult parsed entry.1 (toBigInt (some entry.2))) .empty

/- Missing columns have their defaults. -/
def ProposalRow.parsed (row : ProposalRow) : GovernanceProposal where
  id := row.id
  keyId := row.keyId
  proposalId := row.proposalId
  title := row.title
  options := row.options.getD []
  totalVotingWeight := toBigInt (some row.totalVotingWeight)
  results := parseResults (row.results.getD [])
  snapshotLedger := row.snapshotLedger
  snapshotTotalWeight := toBigInt (some (row.snapshotTotalWeight.getD "0"))
  quorumBps := row.quorumBps.getD defaultQuorumBps
  expiresAt := row.expiresAt
  closedAt := row.closedAt
  executedAt := row.executedAt
  status := row.status

structure GovernanceProposalDto where
  id : String
  keyId : String
  proposalId : String
  title : String
  options : List String
  status : ProposalStatus
  snapshotLedger : ℤ
  snapshotTotalWeight : String
  quorumBps : ℤ
  quorumPercent : ℚ
  quorumRequired : ℤ
  quorumMet : Bool
  winningOption : Option String
  totalVotingWeight : String
  results : List (String × String)
  participationRate : Option ℚ
  timeRemaining : ℤ
  timeRemainingSeconds : ℤ
  expiresAt : ℤ
  closedAt : Option ℤ
  executedAt : Option ℤ
  createdAt : ℤ

def proposalToDto (row : ProposalRow) (now : ℤ) : GovernanceProposalDto :=
  let proposal := row.parsed
  let cast := proposal.totalVotingWeight
  let eligible := proposal.snapshotTotalWeight
  let required := quorumRequiredWeight eligible proposal.quorumBps
  let timeRemaining := max 0 ((row.expiresAt - now) / 1000)
  { id := row.id
    keyId := row.keyId
    proposalId := row.proposalId
    title := row.title
    options := proposal.options
    status := resolveProposalStatus proposal now
    snapshotLedger := row.snapshotLedger
    snapshotTotalWeight := row.snapshotTotalWeight.getD "0"
    quorumBps := proposal.quorumBps
    quorumPercent := proposal.quorumBps / 100
    quorumRequired := required
    quorumMet := 0 < eligible && required ≤ cast
    winningOption := (leadingOption proposal.options proposal.results).1
    totalVotingWeight := row.totalVotingWeight
    results := row.results.getD []
    participationRate :=
      if 0 < eligible then some (cast / eligible) else none
    timeRemaining
    timeRemainingSeconds := timeRemaining
    expiresAt := row.expiresAt
    closedAt := row.closedAt
    executedAt := row.executedAt
    createdAt := row.createdAt }

-- Leading Options
----

variable {options : List String} {results : Results}

/- The option that leads among those that were looked at. -/
structure Leads (results : Results) (options : List String)
    (leading : Option String × ℤ) : Prop where
  none : leading.1 = none ↔ options = []
  zero : leading.1 = .none → leading.2 = 0
  member : ∀ option ∈ leading.1, option ∈ options
  weight : ∀ option ∈ leading.1, leading.2 = resultOf results option
  greatest : ∀ option ∈ options, resultOf results option ≤ leading.2

theorem leads_step {leading : Option String × ℤ} (hLeads : Leads results options leading)
    (candidate : String) :
    Leads results (options ++ [candidate]) (if leading.1 = none ∨
      leading.2 < resultOf results candidate then
      (some candidate, resultOf results candidate)
      else leading) := by
  have hNonempty : options ++ [candidate] ≠ [] := by simp
  split
  · rename_i hTakes
    refine ⟨by simp, by simp, by simp, by simp, ?_⟩
    intro option hMem
    rcases List.mem_append.mp hMem with hOld | hNew
    · rcases hTakes with hNone | hMore
      · rw [hLeads.none.mp hNone] at hOld
        cases hOld
      · exact (hLeads.greatest option hOld).trans hMore.le
    · rw [List.mem_singleton.mp hNew]
  · rename_i hStays
    rw [not_or, not_lt] at hStays
    refine ⟨iff_of_false hStays.1 hNonempty, fun hNone => absurd hNone hStays.1, ?_,
      hLeads.weight, ?_⟩
    · intro option hOption
      exact List.mem_append_left _ (hLeads.member option hOption)
    · intro option hMem
      rcases List.mem_append.mp hMem with hOld | hNew
      · exact hLeads.greatest option hOld
      · rw [List.mem_singleton.mp hNew]
        exact hStays.2

theorem leads_leadingOption (options : List String) (results : Results) :
    Leads results options (leadingOption options results) := by
  induction options using List.reverseRecOn with
  | nil => exact ⟨by simp [leadingOption], by simp [leadingOption],
    by simp [leadingOption], by simp [leadingOption], by simp⟩
  | append_singleton options candidate ih =>
    have hStep := leads_step ih candidate
    unfold leadingOption at hStep ⊢
    rw [List.foldl_append]
    exact hStep

theorem majority_iff {castWeight : ℤ} (hCast : 0 < castWeight) :
    castWeight < (leadingOption options results).2 * 2 ↔ ∃ option ∈ options,
      castWeight < 2 * resultOf results option := by
  have hLeads := leads_leadingOption options results
  constructor
  · intro hMajority
    cases hLeading : (leadingOption options results).1 with
    | none =>
      have hZero := hLeads.zero hLeading
      omega
    | some option =>
      have hWeight := hLeads.weight option hLeading
      exact ⟨option, hLeads.member option hLeading, by omega⟩
  · rintro ⟨option, hMem, hMajority⟩
    have hLe := hLeads.greatest option hMem
    omega

-- Quorum
----

variable {totalWeight quorumBps castWeight : ℤ}

/- The weight that the quorum asks for. -/
def quorumCeiling (totalWeight quorumBps : ℤ) : ℤ := ⌈(totalWeight * quorumBps / 10000 : ℚ)⌉

theorem quorumRequiredWeight_eq (hTotal : 0 < totalWeight) (hBps : 0 < quorumBps) :
    quorumRequiredWeight totalWeight quorumBps = quorumCeiling totalWeight quorumBps := by
  unfold quorumRequiredWeight quorumCeiling
  rw [max_eq_right hBps.le]
  simp only [not_le.mpr hTotal, not_le.mpr hBps, or_self, if_false, BPS_DENOMINATOR]
  symm
  rw [Int.ceil_eq_iff]
  set quotient := (totalWeight * quorumBps + 10000 - 1) / 10000
  have hLow : 10000 * (quotient - 1) < totalWeight * quorumBps := by omega
  have hHigh : totalWeight * quorumBps ≤ 10000 * quotient := by omega
  have hLow' : ((10000 * (quotient - 1) : ℤ) : ℚ) < ((totalWeight * quorumBps : ℤ) : ℚ) :=
    Int.cast_lt.mpr hLow
  have hHigh' : ((totalWeight * quorumBps : ℤ) : ℚ) ≤ ((10000 * quotient : ℤ) : ℚ) :=
    Int.cast_le.mpr hHigh
  push_cast at hLow' hHigh'
  constructor
  · rw [lt_div_iff₀ (by norm_num)]
    linarith
  · rw [div_le_iff₀ (by norm_num)]
    linarith

theorem quorumRequiredWeight_of_not_pos (hBps : quorumBps ≤ 0) :
    quorumRequiredWeight totalWeight quorumBps = 0 := by
  unfold quorumRequiredWeight
  rw [max_eq_left hBps]
  simp

/- What is cast reaches the one bound if it reaches the other. -/
theorem required_le_iff (hTotal : 0 < totalWeight) (hCast : 0 < castWeight) :
    quorumRequiredWeight totalWeight quorumBps ≤ castWeight ↔
      quorumCeiling totalWeight quorumBps ≤ castWeight := by
  rcases lt_or_ge 0 quorumBps with hPos | hNot
  · rw [quorumRequiredWeight_eq hTotal hPos]
  · rw [quorumRequiredWeight_of_not_pos hNot]
    refine iff_of_true hCast.le ?_
    refine le_trans ?_ hCast.le
    unfold quorumCeiling
    rw [Int.ceil_le, Int.cast_zero]
    have hProduct : totalWeight * quorumBps ≤ 0 := mul_nonpos_of_nonneg_of_nonpos hTotal.le hNot
    have hCastProduct : ((totalWeight * quorumBps : ℤ) : ℚ) ≤ 0 := Int.cast_nonpos.mpr hProduct
    push_cast at hCastProduct
    linarith

theorem quorumNotMet_iff (input : OutcomeInput) :
    evaluateProposalOutcome input = .quorumNotMet ↔
      input.snapshotTotalWeight ≤ 0 ∨ input.castWeight ≤ 0 ∨ input.castWeight <
        quorumRequiredWeight input.snapshotTotalWeight input.quorumBps := by
  unfold evaluateProposalOutcome
  simp only
  split
  · rename_i hNothing
    exact iff_of_true rfl (or_assoc.mp (Or.inl hNothing))
  · rename_i hSome
    rw [not_or, not_le, not_le] at hSome
    split
    · rename_i hBelow
      exact iff_of_true rfl (Or.inr (Or.inr hBelow.2))
    · have hOutcome : (if input.castWeight < (leadingOption input.options input.results).2 * 2
          then ProposalOutcome.passed
          else .failed) ≠ .quorumNotMet := by
        split
        · simp
        · simp
      refine iff_of_false hOutcome ?_
      omega

theorem passed_iff (input : OutcomeInput) :
    evaluateProposalOutcome input = .passed ↔ 0 < input.snapshotTotalWeight ∧ 0 < input.castWeight ∧
      quorumCeiling input.snapshotTotalWeight input.quorumBps ≤ input.castWeight ∧
      ∃ option ∈ input.options, input.castWeight < 2 * resultOf input.results option := by
  by_cases hQuorum : evaluateProposalOutcome input = .quorumNotMet
  · rw [hQuorum]
    refine iff_of_false (by simp) ?_
    rintro ⟨hTotal, hCast, hReaches, -⟩
    have hRequired := (required_le_iff hTotal hCast).mpr hReaches
    rcases (quorumNotMet_iff input).mp hQuorum with hNone | hNone | hBelow
    · exact absurd hTotal (not_lt.mpr hNone)
    · exact absurd hCast (not_lt.mpr hNone)
    · exact absurd hRequired (not_le.mpr hBelow)
  · have hMet := mt (quorumNotMet_iff input).mpr hQuorum
    simp only [not_or, not_le, not_lt] at hMet
    rcases hMet with ⟨hTotal, hCast, hRequired⟩
    have hReaches := (required_le_iff hTotal hCast).mp hRequired
    rw [← majority_iff hCast]
    simp only [hTotal, hCast, hReaches, true_and]
    unfold evaluateProposalOutcome
    simp only [not_le.mpr hTotal, not_le.mpr hCast,
      not_lt.mpr hRequired, or_self, and_false, if_false]
    split
    · rename_i hMajority
      exact iff_of_true rfl hMajority
    · rename_i hMajority
      exact iff_of_false (by simp) hMajority

-- Exactness
----

/- The flag and the outcome agree where a quorum can be missed. -/
theorem quorumMet_iff (row : ProposalRow) (now : ℤ)
    (hSomething : 0 < row.parsed.totalVotingWeight ∨ 0 < (proposalToDto row now).quorumRequired) :
    (proposalToDto row now).quorumMet = true ↔ row.parsed.outcome ≠ .quorumNotMet := by
  have hRequired :
      (proposalToDto row now).quorumRequired = quorumRequiredWeight row.parsed.snapshotTotalWeight
        row.parsed.quorumBps := by
    simp only [proposalToDto]
  rw [hRequired] at hSomething
  have hFlag : (proposalToDto row now).quorumMet = true ↔ 0 < row.parsed.snapshotTotalWeight ∧
      quorumRequiredWeight row.parsed.snapshotTotalWeight row.parsed.quorumBps ≤
        row.parsed.totalVotingWeight := by
    simp only [proposalToDto, Bool.and_eq_true, decide_eq_true_eq]
  have hOutcome := not_congr (quorumNotMet_iff row.parsed.outcomeInput)
  rw [hFlag]
  refine Iff.trans ?_ hOutcome.symm
  simp only [GovernanceProposal.outcomeInput]
  constructor
  · rintro ⟨hTotal, hReached⟩
    omega
  · intro hMet
    omega

/-
  A proposal passes exactly when the quorum of its supply was
  cast and an option has more than half of what was cast.  The
  flag of the quorum agrees with the outcome if anything was cast
  or the quorum asks for anything.
-/
theorem outcome_exact :
    (∀ input : OutcomeInput, evaluateProposalOutcome input = .passed ↔
      0 < input.snapshotTotalWeight ∧ 0 < input.castWeight ∧
        quorumCeiling input.snapshotTotalWeight input.quorumBps ≤ input.castWeight ∧
        ∃ option ∈ input.options, input.castWeight < 2 * resultOf input.results option) ∧
      ∀ (row : ProposalRow) (now : ℤ), 0 < row.parsed.totalVotingWeight ∨
        0 < (proposalToDto row now).quorumRequired → ((proposalToDto row now).quorumMet = true ↔
        row.parsed.outcome ≠ .quorumNotMet) := ⟨passed_iff, quorumMet_iff⟩

/- Two answers, of which one has all the weight that was cast. -/
def sampleRow (castWeight snapshotTotalWeight : String) (quorumBps : ℤ) : ProposalRow where
  id := "1"
  keyId := "K"
  proposalId := "P"
  title := "Title"
  options := some ["Yes", "No"]
  results := some [("Yes", castWeight), ("No", "0")]
  totalVotingWeight := castWeight
  snapshotTotalWeight := some snapshotTotalWeight
  quorumBps := some quorumBps
  snapshotLedger := 1
  expiresAt := 0
  closedAt := none
  executedAt := none
  status := .active
  createdAt := 0

/-
  Without a supply no weight passes a proposal, although it
  reaches the ceiling and is a majority.  With a quorum of zero
  and no votes, the flag says that a quorum is met.
-/
theorem outcome_not_exact :
    (evaluateProposalOutcome (sampleRow "5" "0" 3000).parsed.outcomeInput ≠ .passed ∧
      quorumCeiling 0 3000 ≤ 5 ∧ (sampleRow "5" "0" 3000).parsed.snapshotTotalWeight = 0 ∧
      (sampleRow "5" "0" 3000).parsed.totalVotingWeight = 5 ∧
      (leadingOption (sampleRow "5" "0" 3000).parsed.options
        (sampleRow "5" "0" 3000).parsed.results) = (some "Yes", 5)) ∧
      (proposalToDto (sampleRow "0" "10" 0) 0).quorumMet = true ∧
      (sampleRow "0" "10" 0).parsed.outcome = .quorumNotMet := by
  refine ⟨⟨?_, ?_, ?_, ?_, ?_⟩, ?_, ?_⟩
  · decide +kernel
  · norm_num [quorumCeiling]
  · decide +kernel
  · decide +kernel
  · decide +kernel
  · decide +kernel
  · decide +kernel

end Governance

end AccessLayer
