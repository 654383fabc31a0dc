import AccessLayer.AutoInvest.RuleExecutions

/-
  The prices at which auto-invest rules buy
  (`src/modules/auto-invest/auto-invest.service.ts`).

  A run is that of one evaluation.  Before each of its statements
  the store may be any, and the statement may fail, with or
  without its effect.  The price of a key is that of the curve,
  before fees.

  Main result: `price_cap_kept`
-/

-- Purchases of an Evaluation
----

namespace AccessLayer

namespace AutoInvest

open Transactional Doubles

/- The price of the next key at a supply, in stroops. -/
def keyPrice (supply : ℚ) : ℚ := Creator.BASE_COST + supply * Creator.STEP

def AutoInvestRule.maxPriceStroops (rule : AutoInvestRule) : ℚ := rule.maxPrice * STROOPS_PER_XLM

def EvaluationRequest.currentSupply (request : EvaluationRequest) : ℚ :=
  toNumber ((request.key.bind ListedKey.circulatingSupply).getD 0)

/- The rule whose purchase is submitted next. -/
def EvaluationCall.buys (call : EvaluationCall) : List AutoInvestRule :=
  match call.stage with
  | .buying rule _ => [rule]
  | _ => []

/- An evaluation and the rules that have bought in it. -/
structure EvaluationState where
  call : EvaluationCall
  bought : List AutoInvestRule

def EvaluationRequest.start (request : EvaluationRequest) : EvaluationState where
  call := request.call
  bought := []

/- The next statement meets a store and has an outcome. -/
def EvaluationState.step (state : EvaluationState)
    (move : AutoInvestDb × Outcome) : Option EvaluationState :=
  (autoInvest.execute state.call move.1).map fun after =>
    { call :=
        (autoInvest.settle state.call move.1 after move.2).2
      bought :=
        if takesEffect (some move.2) then
          state.bought ++ state.call.buys
        else state.bought }

/- The keys that some rules buy. -/
def keysOf (rules : List AutoInvestRule) : ℕ := (rules.map quantityOf).sum

/- Each key of each rule is bought at a price that is not above the maximum price of the rule. -/
def PriceCapped (supply : ℚ) : List AutoInvestRule → Prop
  | [] => True
  | rule :: rest =>
    (∀ i < quantityOf rule, keyPrice (supply + i) ≤ rule.maxPriceStroops) ∧
      PriceCapped (supply + quantityOf rule) rest

/-
  Where a purchase is submitted, the last of its keys is not too
  expensive at the supply that the evaluation has reached.
-/
def WithinCap (request : EvaluationRequest) (state : EvaluationState)
    (move : AutoInvestDb × Outcome) : Prop :=
  takesEffect (some move.2) = true → ∀ rule ∈ state.call.buys, keyPrice
    (request.currentSupply + keysOf state.bought + (quantityOf rule - 1)) ≤
    rule.maxPriceStroops

instance (request : EvaluationRequest) (state : EvaluationState) (move : AutoInvestDb × Outcome) :
    Decidable (WithinCap request state move) := by
  unfold WithinCap
  infer_instance

-- Prices of Keys
----

variable {supply : ℚ}

/- A later key is not cheaper. -/
theorem keyPrice_mono {supply' : ℚ} (hLe : supply ≤ supply') :
    keyPrice supply ≤ keyPrice supply' := by
  unfold keyPrice
  have hStep : (0 : ℚ) ≤ (Creator.STEP : ℤ) := by norm_num [Creator.STEP]
  have hMul := mul_le_mul_of_nonneg_right hLe hStep
  linarith

theorem quantityOf_pos (rule : AutoInvestRule) : 0 < quantityOf rule := by
  unfold quantityOf
  omega

/- No key of a rule is too expensive unless its last one is. -/
theorem keys_capped_iff (supply : ℚ) (rule : AutoInvestRule) :
    (∀ i < quantityOf rule, keyPrice (supply + i) ≤ rule.maxPriceStroops) ↔
      keyPrice (supply + (quantityOf rule - 1)) ≤ rule.maxPriceStroops := by
  have hPos := quantityOf_pos rule
  constructor
  · intro hAll
    have hLast := hAll (quantityOf rule - 1) (by omega)
    rwa [Nat.cast_sub (by omega), Nat.cast_one] at hLast
  · intro hLast i hi
    refine le_trans (keyPrice_mono ?_) hLast
    have hCast : (i : ℚ) + 1 ≤ quantityOf rule := by exact_mod_cast hi
    linarith

theorem keysOf_cons (rule : AutoInvestRule) (rest : List AutoInvestRule) :
    keysOf (rule :: rest) = quantityOf rule + keysOf rest := rfl

theorem priceCapped_append {bought later : List AutoInvestRule} :
    PriceCapped supply (bought ++ later) ↔ PriceCapped supply bought ∧
      PriceCapped (supply + keysOf bought) later := by
  induction bought generalizing supply with
  | nil => simp [PriceCapped, keysOf]
  | cons rule rest ih =>
    rw [List.cons_append, PriceCapped, PriceCapped, ih, and_assoc, keysOf_cons]
    push_cast
    rw [add_assoc]

-- Runs
----

variable {request : EvaluationRequest} {state state' : EvaluationState}
variable {move : AutoInvestDb × Outcome}

/- One rule at most has its purchase submitted. -/
theorem EvaluationCall.buys_cases (call : EvaluationCall) :
    call.buys = [] ∨ ∃ rule, call.buys = [rule] := by
  unfold buys
  split
  · exact Or.inr ⟨_, rfl⟩
  · exact Or.inl rfl

theorem bought_of_step (hStep : state.step move = some state') :
    state'.bought =
      if takesEffect (some move.2) then
        state.bought ++ state.call.buys
      else state.bought := by
  rcases Option.map_eq_some_iff.mp hStep with ⟨after, -, rfl⟩
  rfl

/- A step keeps the caps if and only if it is within its own. -/
theorem priceCapped_step (hCapped : PriceCapped request.currentSupply state.bought)
    (hStep : state.step move = some state') :
    PriceCapped request.currentSupply state'.bought ↔ WithinCap request state move := by
  rw [bought_of_step hStep]
  unfold WithinCap
  by_cases hEffect : takesEffect (some move.2) = true
  · rw [if_pos hEffect, priceCapped_append]
    simp only [hCapped, true_and, hEffect, forall_const]
    rcases state.call.buys_cases with hNone | ⟨rule, hOne⟩
    · simp [hNone, PriceCapped]
    · rw [hOne]
      simp only [PriceCapped, and_true, List.mem_singleton, forall_eq]
      exact keys_capped_iff _ rule
  · rw [if_neg hEffect]
    simp [hEffect, hCapped]

/-
  In every run each of whose purchases is within its cap, no key
  is bought above the maximum price of its rule; the first one
  that is not breaks this.
-/
theorem price_cap_kept {moves : List (AutoInvestDb × Outcome)}
    (hRun : RunsTo EvaluationState.step (WithinCap request) request.start moves state) :
    PriceCapped request.currentSupply state.bought ∧ ∀ move state', state.step move = some state' →
      (WithinCap request state move ↔ PriceCapped request.currentSupply state'.bought) := by
  have hCapped : PriceCapped request.currentSupply state.bought := by
    apply RunsTo.invariant _ _ hRun
    · trivial
    · intro state move state' hCapped hWithin hStep
      exact (priceCapped_step hCapped hStep).mpr hWithin
  exact ⟨hCapped, fun move state' hStep => (priceCapped_step hCapped hStep).symm⟩

/- It buys two keys. -/
def ruleWithCap (id : String) (maxPrice : ℚ) : AutoInvestRule := { sampleRule with id, maxPrice }

/- A listing at the price of its first key.  Only the first wallet has no funds. -/
def cappedEvaluation (rules : List AutoInvestRule) : EvaluationRequest :=
  { sampleEvaluation "key" with
    currentPrice := some Creator.BASE_COST
    rules
    getXlmBalance := fun execution => if execution = 0 then 0 else 1000000 }

/- A store with the execution of a rule. -/
def reservedStore (ruleId : String) : AutoInvestDb :=
  { AutoInvestDb.empty with
    autoInvestExecution :=
      Table.empty.createMany
        [{ ruleId
           listingId := "key"
           status := .pending
           transactionHash := none }] }

/- A rule that is skipped, a purchase that is recorded and one more. -/
def purchaseMoves : List (AutoInvestDb × Outcome) :=
  List.replicate 3 (.empty, .served) ++ (reservedStore "short", .served) ::
    List.replicate 3 (.empty, .served) ++ (reservedStore "first", .served) ::
    List.replicate 3 (.empty, .served)

def cappedRules (maxPrice : ℚ) : List AutoInvestRule :=
  [ruleWithCap "short" 2, ruleWithCap "first" maxPrice, ruleWithCap "second" 2]

theorem price_cap_kept_sample :
    ∃ state, RunsTo EvaluationState.step (WithinCap (cappedEvaluation (cappedRules 2)))
      (cappedEvaluation (cappedRules 2)).start purchaseMoves state ∧
      state.bought = [ruleWithCap "first" 2, ruleWithCap "second" 2] ∧
      PriceCapped (cappedEvaluation (cappedRules 2)).currentSupply state.bought := by
  have hRuns : (runAllowed EvaluationState.step (WithinCap (cappedEvaluation (cappedRules 2)))
      (cappedEvaluation (cappedRules 2)).start purchaseMoves).map EvaluationState.bought =
      some [ruleWithCap "first" 2, ruleWithCap "second" 2] := by decide +kernel
  rcases Option.map_eq_some_iff.mp hRuns with ⟨state, hSome, hBought⟩
  have hRun := runsTo_of_runAllowed hSome
  exact ⟨state, hRun, hBought, (price_cap_kept hRun).1⟩

/- A rule that pays one XLM at most buys two keys for one XLM and for more. -/
theorem second_key_above_cap :
    ∃ state, runLabels EvaluationState.step (cappedEvaluation (cappedRules 1)).start
      purchaseMoves = some state ∧
      state.bought = [ruleWithCap "first" 1, ruleWithCap "second" 2] ∧
      ¬ PriceCapped (cappedEvaluation (cappedRules 1)).currentSupply state.bought := by
  have hRuns : (runLabels EvaluationState.step (cappedEvaluation (cappedRules 1)).start
      purchaseMoves).map EvaluationState.bought =
      some [ruleWithCap "first" 1, ruleWithCap "second" 2] := by decide +kernel
  rcases Option.map_eq_some_iff.mp hRuns with ⟨state, hSome, hBought⟩
  refine ⟨state, hSome, hBought, ?_⟩
  rw [hBought]
  intro hCapped
  exact absurd (hCapped.1 1 (by decide)) (by decide +kernel)

end AutoInvest

end AccessLayer
