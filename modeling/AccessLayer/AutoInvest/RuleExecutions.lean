import AccessLayer.Creator.Sell
import AccessLayer.Library.Doubles
import AccessLayer.Library.Machines
import Mathlib

/-
  Executions of auto-invest rules for a listing
  (`src/modules/auto-invest/auto-invest.service.ts`).

  An evaluation goes through the rules of a listing; for each it
  reserves an execution, submits the purchase and records what
  became of it.  What it reads of the listing, the rules, the fees
  and the balances is given with it.  A purchase is a statement on
  the list of the purchases that were submitted.

  Main result: `executions_at_most_once`
-/

-- Rules
----

namespace AccessLayer

namespace AutoInvest

open Transactional

section

open Doubles

structure AutoInvestRule where
  id : String
  walletAddress : String
  category : String
  minRating : Option ℚ
  maxPrice : ℚ
  maxPerKey : ℤ
  isActive : Bool
  deriving DecidableEq

structure ListedKey where
  category : Option String
  rating : Option ℚ
  circulatingSupply : Option ℚ

inductive Ineligibility where
  | inactive
  | rating (keyRating : Option ℚ) (minRating : ℚ)
  | price (currentPrice maxPrice : ℤ)

inductive ExecutionError where
  | database
  | chain
  | negativeSupply
  | notAnInteger
  deriving DecidableEq

inductive RuleOutcome where
  | executed
  | skipped
  | failed (error : ExecutionError)
  | ineligible (reason : Ineligibility)
  | duplicate

structure RuleResult where
  ruleId : String
  walletAddress : String
  outcome : RuleOutcome

structure Evaluation where
  evaluated : ℕ
  executed : ℕ
  skipped : ℕ
  failed : ℕ
  results : List RuleResult

def Evaluation.empty : Evaluation where
  evaluated := 0
  executed := 0
  skipped := 0
  failed := 0
  results := []

def STROOPS_PER_XLM : ℚ := 10000000

def toStroops (xlm : ℚ) : ℤ := ⌊toNumber (toNumber xlm * STROOPS_PER_XLM)⌋

def baseCost (currentSupply : ℤ) : ℕ → ℤ
  | 0 => 0
  | i + 1 => baseCost currentSupply i + (Creator.BASE_COST + (currentSupply + i) * Creator.STEP)

/- The cost in stroops, the protocol fee included. -/
def computeBuyCost (currentSupply : ℚ) (amount : ℕ) (feeBps : ℤ) : Except ExecutionError ℤ :=
  if currentSupply < 0 then .error .negativeSupply
  else if amount = 0 then .ok 0
  else if currentSupply.isInt then
    let totalBaseCost := baseCost currentSupply.num amount
    let fee := (totalBaseCost * feeBps).tdiv 10000
    .ok (max 0 (totalBaseCost + fee))
  else .error .notAnInteger

def quantityOf (rule : AutoInvestRule) : ℕ := (max 1 rule.maxPerKey).toNat

/- Why a rule is not executed, if it is not. -/
def ineligibility (rating : Option ℚ) (currentPrice : ℤ)
    (rule : AutoInvestRule) : Option Ineligibility :=
  if rule.isActive = false then some .inactive
  else
    match rule.minRating with
    | none => priceCheck
    | some minRating =>
      match rating with
      | none => some (.rating none minRating)
      | some keyRating =>
        if keyRating < minRating then
          some (.rating (some keyRating) minRating)
        else priceCheck
where
  priceCheck : Option Ineligibility :=
    if toStroops rule.maxPrice < currentPrice then
      some (.price currentPrice (toStroops rule.maxPrice))
    else none

-- Evaluations
----

inductive ExecutionStatus where
  | pending
  | executed
  | failed
  | skippedInsufficientBalance
  deriving DecidableEq

structure AutoInvestExecution where
  ruleId : String
  listingId : String
  status : ExecutionStatus
  transactionHash : Option String

instance : Keyed AutoInvestExecution (String × String) where
  key row := (row.ruleId, row.listingId)

structure Purchase where
  ruleId : String
  creatorId : String
  walletAddress : String
  quantity : ℕ

structure AutoInvestDb where
  autoInvestExecution : Table AutoInvestExecution
  purchases : List Purchase

def AutoInvestDb.empty : AutoInvestDb where
  autoInvestExecution := .empty
  purchases := []

/-
  An evaluation, with what it reads: the listing, its price, the
  rules in the order of their creation, and for the first, second,
  … rule it executes the fee, the balance of the rule's wallet and
  the hash of the purchase.
-/
structure EvaluationRequest where
  listingId : String
  key : Option ListedKey
  currentPrice : Option ℤ
  rules : List AutoInvestRule
  protocolFeeBps : ℕ → ℤ
  getXlmBalance : ℕ → ℚ
  transactionHash : ℕ → Option String

inductive EvaluationStage where
  | loading
  | reserving (rule : AutoInvestRule) (rest : List AutoInvestRule)
  | funding (rule : AutoInvestRule) (rest : List AutoInvestRule)
  | skipping (rule : AutoInvestRule) (rest : List AutoInvestRule)
  | buying (rule : AutoInvestRule) (rest : List AutoInvestRule)
  | recording (rule : AutoInvestRule) (rest : List AutoInvestRule) (transactionHash : Option String)
  /- the catch of an execution -/
  | failing (rule : AutoInvestRule) (rest : List AutoInvestRule) (error : ExecutionError)
  | ended (result : Except ExecutionError Evaluation)

structure EvaluationCall where
  request : EvaluationRequest
  stage : EvaluationStage
  /- the rules whose execution has ended, one way or another -/
  executions : ℕ
  evaluation : Evaluation

def EvaluationRequest.call (request : EvaluationRequest) : EvaluationCall where
  request := request
  stage := .loading
  executions := 0
  evaluation := .empty

namespace EvaluationCall

variable (call : EvaluationCall)

def moveTo (stage : EvaluationStage) : EvaluationCall := { call with stage }

def push (rule : AutoInvestRule) (outcome : RuleOutcome) : EvaluationCall :=
  { call with
    evaluation :=
      { call.evaluation with
        results :=
          call.evaluation.results ++
            [{ ruleId := rule.id
               walletAddress := rule.walletAddress
               outcome }] } }

def count (f : Evaluation → Evaluation) : EvaluationCall :=
  { call with evaluation := f call.evaluation }

/- The next rule that is to be executed. -/
def proceed (call : EvaluationCall) : List AutoInvestRule → EvaluationCall
  | [] => call.moveTo (.ended (.ok call.evaluation))
  | rule :: rest =>
    let counted :=
      call.count fun evaluation => { evaluation with evaluated := evaluation.evaluated + 1 }
    match ineligibility (call.request.key.bind ListedKey.rating)
      (call.request.currentPrice.getD 0) rule with
    | some reason => (counted.push rule (.ineligible reason)).proceed rest
    | none => counted.moveTo (.reserving rule rest)

/- How a rule that was executed, skipped or failed is counted. -/
def settleRule (rule : AutoInvestRule) (rest : List AutoInvestRule)
    (outcome : RuleOutcome) : EvaluationCall :=
  let counted :=
    match outcome with
    | .executed =>
      call.count fun evaluation => { evaluation with executed := evaluation.executed + 1 }
    | .skipped => call.count fun evaluation => { evaluation with skipped := evaluation.skipped + 1 }
    | .failed _ => call.count fun evaluation => { evaluation with failed := evaluation.failed + 1 }
    | _ => call
  { counted.push rule outcome with executions := counted.executions + 1 }.proceed rest

def load : EvaluationCall :=
  match call.request.key, call.request.currentPrice with
  | some key, some _ =>
    match key.category.filter (· ≠ "") with
    | some category =>
      call.proceed (call.request.rules.filter fun rule => rule.isActive ∧ rule.category = category)
    | none => call.moveTo (.ended (.ok .empty))
  | _, _ => call.moveTo (.ended (.ok .empty))

/- The balance has to cover the estimated cost. -/
def fund (rule : AutoInvestRule) (rest : List AutoInvestRule) : EvaluationCall :=
  let currentSupply := toNumber (((call.request.key.bind ListedKey.circulatingSupply)).getD 0)
  match computeBuyCost currentSupply (quantityOf rule)
    (call.request.protocolFeeBps call.executions) with
  | .error e => call.moveTo (.failing rule rest e)
  | .ok estimatedCost =>
    let balance := call.request.getXlmBalance call.executions
    if ⌊toNumber (balance * STROOPS_PER_XLM)⌋ < estimatedCost then
      call.moveTo (.skipping rule rest)
    else call.moveTo (.buying rule rest)

/- What an evaluation does when a step of it fails. -/
def fail : EvaluationCall :=
  match call.stage with
  | .loading => call.moveTo (.ended (.error .database))
  | .reserving rule rest => call.settleRule rule rest .duplicate
  | .funding rule rest => call.moveTo (.failing rule rest .chain)
  | .skipping rule rest => call.moveTo (.failing rule rest .database)
  | .buying rule rest => call.moveTo (.failing rule rest .chain)
  | .recording rule rest _ => call.moveTo (.failing rule rest .database)
  | .failing rule rest e => call.settleRule rule rest (.failed e)
  | .ended _ => call

end EvaluationCall

namespace AutoInvestExecution

def settle (status : ExecutionStatus) (transactionHash : Option String)
    (row : AutoInvestExecution) : AutoInvestExecution :=
  { row with
    status
    transactionHash := transactionHash.or row.transactionHash }

theorem key_settle (status : ExecutionStatus) (transactionHash : Option String)
    (row : AutoInvestExecution) : key (row.settle status transactionHash) = key row := rfl

end AutoInvestExecution

/- The update of an execution; a row that is missing is an error. -/
def settleExecution (call : EvaluationCall) (rule : AutoInvestRule) (status : ExecutionStatus)
    (transactionHash : Option String) (after : EvaluationCall)
    (db : AutoInvestDb) : AutoInvestDb × EvaluationCall :=
  let own := (rule.id, call.request.listingId)
  match db.autoInvestExecution.find? own with
  | some _ =>
    ({ db with
        autoInvestExecution :=
          db.autoInvestExecution.update own (AutoInvestExecution.settle status transactionHash)
            (AutoInvestExecution.key_settle status transactionHash) },
      after)
  | none => (db, call.fail)

def executeEvaluation (call : EvaluationCall) (db : AutoInvestDb) :
    Option (AutoInvestDb × EvaluationCall) :=
  match call.stage with
  | .loading => some (db, call.load)
  | .reserving rule rest =>
    match db.autoInvestExecution.insert?
      { ruleId := rule.id
        listingId := call.request.listingId
        status := .pending
        transactionHash := none } with
    | some autoInvestExecution =>
      some ({ db with autoInvestExecution }, call.moveTo (.funding rule rest))
    | none => some (db, call.settleRule rule rest .duplicate)
  | .funding rule rest => some (db, call.fund rule rest)
  | .skipping rule rest =>
    some (settleExecution call rule .skippedInsufficientBalance none
      (call.settleRule rule rest .skipped) db)
  | .buying rule rest =>
    some ({ db with
          purchases :=
            db.purchases ++
              [{ ruleId := rule.id
                 creatorId := call.request.listingId
                 walletAddress := rule.walletAddress
                 quantity := quantityOf rule }] },
        call.moveTo (.recording rule rest (call.request.transactionHash call.executions)))
  | .recording rule rest transactionHash =>
    some (settleExecution call rule .executed transactionHash
      (call.settleRule rule rest .executed) db)
  | .failing rule rest e =>
    some (settleExecution call rule .failed none (call.settleRule rule rest (.failed e)) db)
  | .ended _ => none

def autoInvest : Machine AutoInvestDb EvaluationCall where
  execute := executeEvaluation
  fail := EvaluationCall.fail

end

-- Reservations
----

/- The rule and the listing of an execution. -/
def EvaluationCall.own (call : EvaluationCall) (rule : AutoInvestRule) : String × String :=
  (rule.id, call.request.listingId)

def AutoInvestDb.Reserved (db : AutoInvestDb) (own : String × String) : Prop :=
  (db.autoInvestExecution.find? own).isSome = true

/- What a call goes on with once it has reserved an execution. -/
def EvaluationCall.OwnsExecution (db : AutoInvestDb) (call : EvaluationCall) : Prop :=
  match call.stage with
  | .funding rule _ => db.Reserved (call.own rule)
  | .skipping rule _ => db.Reserved (call.own rule)
  | .buying rule _ => db.Reserved (call.own rule)
  | .recording rule _ _ => db.Reserved (call.own rule)
  | .failing rule _ _ => db.Reserved (call.own rule)
  | _ => True

/- No execution is ever taken back. -/
def AutoInvestDb.Extends (db db' : AutoInvestDb) : Prop := ∀ own, db.Reserved own → db'.Reserved own

variable {db : AutoInvestDb} {call : EvaluationCall}

theorem EvaluationCall.OwnsExecution.extends {db' : AutoInvestDb} (hOwns : call.OwnsExecution db)
    (hExtends : db.Extends db') :
    call.OwnsExecution db' := by
  unfold EvaluationCall.OwnsExecution at hOwns ⊢
  split <;> simp_all only
  all_goals exact hExtends _ hOwns

/- The stages between two rules. -/
def EvaluationStage.Between : EvaluationStage → Prop
  | .reserving _ _ => True
  | .ended _ => True
  | _ => False

theorem EvaluationCall.proceed_between (call : EvaluationCall) (rules : List AutoInvestRule) :
    (call.proceed rules).stage.Between := by
  induction rules generalizing call with
  | nil => trivial
  | cons rule rest ih =>
    simp only [proceed]
    split
    · exact ih _
    · trivial

theorem EvaluationCall.settleRule_between (call : EvaluationCall) (rule : AutoInvestRule)
    (rest : List AutoInvestRule) (outcome : RuleOutcome) :
    (call.settleRule rule rest outcome).stage.Between := proceed_between _ _

theorem EvaluationCall.load_between (call : EvaluationCall) :
    call.load.stage.Between := by
  unfold load
  split
  · split
    · exact proceed_between _ _
    · trivial
  · trivial

theorem EvaluationCall.OwnsExecution.of_between (hBetween : call.stage.Between)
    (db : AutoInvestDb) :
    call.OwnsExecution db := by
  unfold OwnsExecution
  cases hStage : call.stage with
  | reserving rule rest => trivial
  | ended result => trivial
  | _ =>
    rw [hStage] at hBetween
    exact hBetween.elim

theorem AutoInvestDb.reserved_iff {own : String × String} :
    db.Reserved own ↔ ∃ row, db.autoInvestExecution.find? own = some row := Option.isSome_iff_exists

/- What a statement of a call does, and where it leads. -/
inductive EvaluationCall.Executed (call : EvaluationCall)
    (db : AutoInvestDb) : AutoInvestDb → EvaluationCall → Prop where
  /- the rules are read, or the execution was reserved before -/
  | passed {next : EvaluationCall} (hFail : call.fail.stage.Between) (hNext : next.stage.Between) :
    Executed call db db next
  | reserved {rule : AutoInvestRule} {rest : List AutoInvestRule} {row : AutoInvestExecution}
    {table : Table AutoInvestExecution} (hStage : call.stage = .reserving rule rest)
    (hOwn : key row = call.own rule) (hPending : row.status = .pending)
    (hInsert : db.autoInvestExecution.insert? row = some table) :
    Executed call db { db with autoInvestExecution := table } (call.moveTo (.funding rule rest))
  | funded {rule : AutoInvestRule} {rest : List AutoInvestRule} {stage : EvaluationStage}
    (hStage : call.stage = .funding rule rest)
    (hFunded : stage = .buying rule rest ∨ stage = .skipping rule rest ∨
      ∃ e, stage = .failing rule rest e) : Executed call db db (call.moveTo stage)
  | bought {rule : AutoInvestRule} {rest : List AutoInvestRule} {purchase : Purchase}
    {next : EvaluationCall} {transactionHash : Option String}
    (hStage : call.stage = .buying rule rest)
    (hOwn : (purchase.ruleId, purchase.creatorId) = call.own rule)
    (hNext : next.stage = .recording rule rest transactionHash)
    (hRequest : next.request = call.request) :
    Executed call db { db with purchases := db.purchases ++ [purchase] } next
  | recorded {rule : AutoInvestRule} {rest : List AutoInvestRule} {status : ExecutionStatus}
    {transactionHash : Option String} {next : EvaluationCall}
    (hStage : (call.stage = .skipping rule rest ∧ status = .skippedInsufficientBalance) ∨
      (∃ hash, call.stage = .recording rule rest hash ∧ status = .executed) ∨
      ∃ e, call.stage = .failing rule rest e ∧ status = .failed) (hNext : next.stage.Between) :
    Executed call db { db with
        autoInvestExecution :=
          db.autoInvestExecution.update (call.own rule)
            (AutoInvestExecution.settle status transactionHash)
            (AutoInvestExecution.key_settle status transactionHash) }
      next

theorem EvaluationCall.fund_funded (call : EvaluationCall) (rule : AutoInvestRule)
    (rest : List AutoInvestRule) :
    ∃ stage, call.fund rule rest = call.moveTo stage ∧
      (stage = .buying rule rest ∨ stage = .skipping rule rest ∨
        ∃ e, stage = .failing rule rest e) := by
  simp only [fund]
  split
  · rename_i e _
    exact ⟨_, rfl, .inr (.inr ⟨e, rfl⟩)⟩
  · split
    · exact ⟨_, rfl, .inr (.inl rfl)⟩
    · exact ⟨_, rfl, .inl rfl⟩

theorem settleExecution_of_reserved {rule : AutoInvestRule}
    (hReserved : db.Reserved (call.own rule)) (status : ExecutionStatus)
    (transactionHash : Option String) (after : EvaluationCall) :
    settleExecution call rule status transactionHash after db = ({ db with
          autoInvestExecution :=
            db.autoInvestExecution.update (call.own rule)
              (AutoInvestExecution.settle status transactionHash)
              (AutoInvestExecution.key_settle status transactionHash) },
        after) := by
  rcases AutoInvestDb.reserved_iff.mp hReserved with ⟨row, hRow⟩
  change db.autoInvestExecution.find? (rule.id, call.request.listingId) = some row at hRow
  simp only [settleExecution, hRow]
  rfl

theorem EvaluationCall.executed {call next : EvaluationCall} {db db' : AutoInvestDb}
    (hOwns : call.OwnsExecution db) (hExecute : autoInvest.execute call db = some (db', next)) :
    call.Executed db db' next := by
  change executeEvaluation call db = some (db', next) at hExecute
  unfold executeEvaluation at hExecute
  unfold OwnsExecution at hOwns
  cases hStage : call.stage with
  | loading =>
    simp only [hStage] at hExecute
    cases hExecute
    refine .passed ?_ call.load_between
    rw [fail, hStage]
    trivial
  | reserving rule rest =>
    simp only [hStage] at hExecute
    split at hExecute
    · rename_i table hInsert
      cases hExecute
      exact .reserved hStage rfl rfl hInsert
    · cases hExecute
      refine .passed ?_ (call.settleRule_between _ _ _)
      rw [fail, hStage]
      exact call.settleRule_between _ _ _
  | funding rule rest =>
    simp only [hStage] at hExecute
    rcases call.fund_funded rule rest with ⟨stage, hFund, hFunded⟩
    rw [hFund] at hExecute
    cases hExecute
    exact .funded hStage hFunded
  | skipping rule rest =>
    simp only [hStage] at hExecute hOwns
    rw [settleExecution_of_reserved hOwns] at hExecute
    cases hExecute
    exact .recorded (.inl ⟨hStage, rfl⟩) (call.settleRule_between _ _ _)
  | buying rule rest =>
    simp only [hStage] at hExecute
    cases hExecute
    exact .bought hStage rfl rfl rfl
  | recording rule rest transactionHash =>
    simp only [hStage] at hExecute hOwns
    rw [settleExecution_of_reserved hOwns] at hExecute
    cases hExecute
    exact .recorded (.inr (.inl ⟨transactionHash, hStage, rfl⟩)) (call.settleRule_between _ _ _)
  | failing rule rest e =>
    simp only [hStage] at hExecute hOwns
    rw [settleExecution_of_reserved hOwns] at hExecute
    cases hExecute
    exact .recorded (.inr (.inr ⟨e, hStage, rfl⟩)) (call.settleRule_between _ _ _)
  | ended result =>
    simp only [hStage] at hExecute
    cases hExecute

theorem AutoInvestDb.extends_insert {row : AutoInvestExecution} {table : Table AutoInvestExecution}
    (hInsert : db.autoInvestExecution.insert? row = some table) :
    db.Extends { db with autoInvestExecution := table } := by
  intro own hReserved
  rcases Table.exists_create_of_insert? hInsert with ⟨hFresh, rfl⟩
  rw [Reserved, Table.find?_create]
  split
  · rfl
  · exact hReserved

theorem AutoInvestDb.extends_settle (db : AutoInvestDb) (own : String × String)
    (status : ExecutionStatus) (transactionHash : Option String) :
    db.Extends { db with
        autoInvestExecution :=
          db.autoInvestExecution.update own (AutoInvestExecution.settle status transactionHash)
            (AutoInvestExecution.key_settle status
              transactionHash) } := by
  intro other hReserved
  rw [Reserved, Table.update, Table.find?_updateMany, Option.isSome_map]
  exact hReserved

theorem EvaluationCall.OwnsExecution.fail (hOwns : call.OwnsExecution db) :
    call.fail.OwnsExecution db := by
  have hBetween (rule : AutoInvestRule) (rest : List AutoInvestRule) (outcome : RuleOutcome) :
      (call.settleRule rule rest outcome).OwnsExecution db :=
    .of_between (call.settleRule_between rule rest outcome) db
  unfold OwnsExecution at hOwns
  cases hStage : call.stage <;> simp only [EvaluationCall.fail, hStage] at hOwns ⊢ <;> first
    | exact hBetween _ _ _
    | exact hOwns
    | trivial
    | exact .of_between (by rw [hStage]; trivial) db

theorem autoInvest_maintains (allowed : AutoInvestDb → EvaluationCall → Option Outcome → Prop) :
    autoInvest.Maintains allowed (fun _ => True) fun db call => call.OwnsExecution db where
  execute := by
    intro db call outcome db' next _ hOwns _ _ hExecute
    refine ⟨trivial, ?_⟩
    cases call.executed hOwns hExecute with
    | passed _ hNext => exact ⟨.of_between hNext _, fun _ hOther => hOther⟩
    | reserved _ hOwn _ hInsert =>
      have hExtends := AutoInvestDb.extends_insert hInsert
      refine ⟨?_, fun _ hOther => hOther.extends hExtends⟩
      rcases Table.exists_create_of_insert? hInsert with ⟨hFresh, rfl⟩
      change AutoInvestDb.Reserved _ _
      rw [AutoInvestDb.Reserved, Table.find?_create]
      exact (congrArg Option.isSome (if_pos hOwn.symm)).trans rfl
    | funded hStage hFunded =>
      refine ⟨?_, fun _ hOther => hOther⟩
      unfold EvaluationCall.OwnsExecution at hOwns
      rw [hStage] at hOwns
      rcases hFunded with rfl | rfl | ⟨e, rfl⟩ <;> exact hOwns
    | bought hStage _ hNext hRequest =>
      refine ⟨?_, fun _ hOther => hOther.extends fun _ => id⟩
      unfold EvaluationCall.OwnsExecution at hOwns ⊢
      rw [hStage] at hOwns
      rw [hNext]
      simp only [EvaluationCall.own, hRequest]
      exact hOwns
    | recorded _ hNext =>
      refine ⟨.of_between hNext _, fun _ hOther => hOther.extends (db.extends_settle _ _ _)⟩
  fail := fun _ _ hOwns => hOwns.fail

-- Purchases
----

namespace AutoInvestDb

def purchasesOf (own : String × String) (db : AutoInvestDb) : List Purchase :=
  db.purchases.filter fun purchase => (purchase.ruleId, purchase.creatorId) = own

def Failed (db : AutoInvestDb) (own : String × String) : Prop :=
  ∃ row ∈ db.autoInvestExecution.find? own, row.status = .failed

instance (db : AutoInvestDb) (own : String × String) : Decidable (db.Reserved own) :=
  inferInstanceAs (Decidable (_ = true))

instance (db : AutoInvestDb) (own : String × String) : Decidable (db.Failed own) :=
  inferInstanceAs (Decidable (∃ row ∈ (_ : Option _), _))

/-
  What has come of an execution beyond its reservation: its
  purchases, and its failure at a price of its own.
-/
def spent (price : ℤ) (own : String × String) (db : AutoInvestDb) : ℤ :=
  (db.purchasesOf own).length + (if db.Failed own then price else 0) -
    if db.Reserved own then 1 else 0

variable {db : AutoInvestDb}

theorem spent_of_find? {db' : AutoInvestDb} {own : String × String}
    (hFind : db'.autoInvestExecution.find? own = db.autoInvestExecution.find? own)
    (hPurchases : db'.purchases = db.purchases) (price : ℤ) :
    spent price own db' = spent price own db := by
  have hFailed : db'.Failed own ↔ db.Failed own := by rw [Failed, Failed, hFind]
  have hReserved : db'.Reserved own ↔ db.Reserved own := by rw [Reserved, Reserved, hFind]
  simp only [spent, purchasesOf, hPurchases, hFailed, hReserved]

theorem spent_reserve {row : AutoInvestExecution} {table : Table AutoInvestExecution}
    (hPending : row.status = .pending) (hInsert : db.autoInvestExecution.insert? row = some table)
    (price : ℤ) (own : String × String) :
    spent price own { db with autoInvestExecution := table } =
      spent price own db - if key row = own then 1 else 0 := by
  rcases Table.exists_create_of_insert? hInsert with ⟨hFresh, rfl⟩
  by_cases hOwn : key row = own
  · subst hOwn
    simp [spent, purchasesOf, Failed, Reserved, Table.find?_create, hFresh, hPending]
  · rw [if_neg hOwn, Int.sub_zero]
    apply spent_of_find?
    · rw [Table.find?_create, if_neg (Ne.symm hOwn)]
    · rfl

theorem spent_buy (db : AutoInvestDb) (purchase : Purchase) (price : ℤ) (own : String × String) :
    spent price own { db with purchases := db.purchases ++ [purchase] } = spent price own db +
      if (purchase.ruleId, purchase.creatorId) = own then 1
      else 0 := by
  have hLength : (purchasesOf own { db with
            purchases := db.purchases ++ [purchase] }).length = (db.purchasesOf own).length +
          if (purchase.ruleId, purchase.creatorId) = own then 1
          else 0 := by
    rw [purchasesOf, purchasesOf, List.filter_append, List.length_append]
    by_cases hOwn : (purchase.ruleId, purchase.creatorId) = own
    · simp [hOwn]
    · simp [hOwn]
  rw [spent, hLength, spent]
  change ((_ : ℕ) : ℤ) + (if db.Failed own then price else 0) - (if db.Reserved own then 1 else 0) =
    _
  push_cast
  omega

theorem spent_settle {price : ℤ} (hNonneg : 0 ≤ price) (db : AutoInvestDb)
    (settled own : String × String) (status : ExecutionStatus) (transactionHash : Option String) :
    spent price own { db with
          autoInvestExecution :=
            db.autoInvestExecution.update settled
              (AutoInvestExecution.settle status transactionHash)
              (AutoInvestExecution.key_settle status transactionHash) } ≤
      spent price own db + if settled = own ∧ status = .failed then price else 0 := by
  by_cases hOwn : settled = own
  · subst hOwn
    cases hRow : db.autoInvestExecution.find? settled with
    | none =>
      simp only [spent, purchasesOf, Failed, Reserved,
        Table.find?_update_same, hRow, Option.map_none]
      split <;> omega
    | some row =>
      simp only [spent, purchasesOf, Failed, Reserved,
        Table.find?_update_same, hRow, Option.map_some,
        Option.isSome_some, Option.mem_def, Option.some.injEq,
        exists_eq_left', AutoInvestExecution.settle, true_and]
      split <;> split <;> simp <;> omega
  · rw [if_neg fun h => hOwn h.1, Int.add_zero]
    apply le_of_eq
    apply spent_of_find?
    · exact Table.find?_update_other _ _ (AutoInvestExecution.key_settle status transactionHash)
        (Ne.symm hOwn)
    · rfl

end AutoInvestDb

namespace EvaluationCall

def charge (call : EvaluationCall) (rule : AutoInvestRule) (own : String × String)
    (amount : ℤ) : ℤ :=
  if call.own rule = own then amount else 0

variable {call : EvaluationCall} {rule : AutoInvestRule} {own : String × String} {amount : ℤ}

theorem charge_mono {amount' : ℤ} (hLe : amount ≤ amount') :
    call.charge rule own amount ≤ call.charge rule own amount' := by
  unfold charge
  split
  · exact hLe
  · exact le_rfl

theorem charge_nonneg (hNonneg : 0 ≤ amount) : 0 ≤ call.charge rule own amount := by
  unfold charge
  split
  · exact hNonneg
  · exact le_rfl

/- What a call may still spend on an execution. -/
def maySpend (price : ℤ) (own : String × String) (call : EvaluationCall) : ℤ :=
  match call.stage with
  | .funding rule _ => call.charge rule own 1
  | .buying rule _ => call.charge rule own 1
  | .skipping rule _ => call.charge rule own price
  | .failing rule _ _ => call.charge rule own price
  | _ => 0

theorem maySpend_of_between (hBetween : call.stage.Between) (price : ℤ) (own : String × String) :
    call.maySpend price own = 0 := by
  unfold maySpend
  cases hStage : call.stage with
  | loading => rfl
  | reserving rule rest => rfl
  | recording rule rest transactionHash => rfl
  | ended result => rfl
  | _ =>
    rw [hStage] at hBetween
    exact hBetween.elim

theorem maySpend_nonneg {price : ℤ} (hNonneg : 0 ≤ price) (own : String × String)
    (call : EvaluationCall) :
    0 ≤ call.maySpend price own := by
  unfold maySpend
  split
  · exact charge_nonneg Int.one_nonneg
  · exact charge_nonneg Int.one_nonneg
  · exact charge_nonneg hNonneg
  · exact charge_nonneg hNonneg
  · exact le_rfl

end EvaluationCall

namespace EvaluationStage

/- The next statement submits the purchase. -/
def buys : EvaluationStage → Bool
  | .buying _ _ => true
  | _ => false

/- The next statement records that it was executed. -/
def records : EvaluationStage → Bool
  | .recording _ _ _ => true
  | _ => false

end EvaluationStage

namespace EvaluationCall

/-
  Neither the purchase nor the update that records it fails
  once the purchase has been submitted.
-/
def NoFailureAfterPurchase (call : EvaluationCall) : Option Outcome → Prop
  | some .rejected => call.stage.records = false
  | some .lost => call.stage.buys = false ∧ call.stage.records = false
  | _ => True

instance (call : EvaluationCall) (outcome : Option Outcome) :
    Decidable (call.NoFailureAfterPurchase outcome) :=
  match outcome with
  | some .served => isTrue trivial
  | some .rejected => inferInstanceAs (Decidable (_ = _))
  | some .lost => inferInstanceAs (Decidable (_ ∧ _))
  | none => isTrue trivial

variable {price : ℤ} {call : EvaluationCall}

theorem maySpend_fail (hNonneg : 0 ≤ price) (hOne : price ≤ 1)
    (hAllowed : price = 0 ∨ call.stage.records = false) (own : String × String) :
    call.fail.maySpend price own ≤ call.maySpend price own := by
  have hBetween (rule : AutoInvestRule) (rest : List AutoInvestRule) (outcome : RuleOutcome) :
      (call.settleRule rule rest outcome).maySpend price own ≤ call.maySpend price own := by
    rw [maySpend_of_between (call.settleRule_between _ _ _)]
    exact maySpend_nonneg hNonneg own call
  cases hStage : call.stage with
  | loading =>
    simp only [fail, hStage]
    exact maySpend_nonneg hNonneg own call
  | reserving rule rest =>
    simp only [fail, hStage]
    exact hBetween _ _ _
  | failing rule rest e =>
    simp only [fail, hStage]
    exact hBetween _ _ _
  | recording rule rest hash =>
    rcases hAllowed with rfl | hNot
    · simp [fail, maySpend, hStage, moveTo, charge]
    · rw [hStage] at hNot
      cases hNot
  | ended result =>
    simp only [fail, hStage]
    exact le_rfl
  | funding rule rest =>
    simp only [fail, maySpend, hStage]
    exact charge_mono hOne
  | buying rule rest =>
    simp only [fail, maySpend, hStage]
    exact charge_mono hOne
  | skipping rule rest =>
    simp only [fail, maySpend, hStage]
    exact le_rfl

variable {rule : AutoInvestRule} {rest : List AutoInvestRule}

theorem maySpend_funded (hOne : price ≤ 1) {stage : EvaluationStage}
    (hStage : call.stage = .funding rule rest) (hFunded :
      stage = .buying rule rest ∨ stage = .skipping rule rest ∨ ∃ e, stage = .failing rule rest e)
    (own : String × String) :
    (call.moveTo stage).maySpend price own ≤ call.maySpend price own := by
  have hHeld : call.maySpend price own = call.charge rule own 1 := by rw [maySpend, hStage]
  rw [hHeld]
  rcases hFunded with rfl | rfl | ⟨e, rfl⟩
  · exact le_rfl
  · exact charge_mono hOne
  · exact charge_mono hOne

variable {status : ExecutionStatus}

theorem maySpend_recorded (hNonneg : 0 ≤ price)
    (hStage : (call.stage = .skipping rule rest ∧ status = .skippedInsufficientBalance) ∨
      (∃ hash, call.stage = .recording rule rest hash ∧ status = .executed) ∨
      ∃ e, call.stage = .failing rule rest e ∧ status = .failed) (own : String × String) :
    (if call.own rule = own ∧ status = .failed then price
      else 0) ≤
      call.maySpend price own := by
  rcases hStage with ⟨-, rfl⟩ | ⟨hash, -, rfl⟩ | ⟨e, hStage, rfl⟩
  · rw [if_neg (by simp)]
    exact maySpend_nonneg hNonneg own call
  · rw [if_neg (by simp)]
    exact maySpend_nonneg hNonneg own call
  · rw [maySpend, hStage]
    apply le_of_eq
    simp only [charge, and_true]

theorem maySpend_recorded_lost (hNonneg : 0 ≤ price) (hOne : price ≤ 1)
    (hStage : (call.stage = .skipping rule rest ∧ status = .skippedInsufficientBalance) ∨
      (∃ hash, call.stage = .recording rule rest hash ∧ status = .executed) ∨
      ∃ e, call.stage = .failing rule rest e ∧ status = .failed)
    (hAllowed : price = 0 ∨ call.stage.records = false) (own : String × String) :
    (if call.own rule = own ∧ status = .failed then price
      else 0) + call.fail.maySpend price own ≤
      call.maySpend price own := by
  have hFail : call.fail.maySpend price own ≤ call.maySpend price own :=
    maySpend_fail hNonneg hOne hAllowed own
  have hRecorded := maySpend_recorded hNonneg hStage own
  rcases hStage with ⟨-, rfl⟩ | ⟨hash, -, rfl⟩ | ⟨e, hStage, rfl⟩
  · rw [if_neg (by simp), Int.zero_add]
    exact hFail
  · rw [if_neg (by simp), Int.zero_add]
    exact hFail
  · have hBetween : call.fail.stage.Between := by
      rw [fail, hStage]
      exact call.settleRule_between _ _ _
    rw [maySpend_of_between hBetween, Int.add_zero]
    exact hRecorded

variable {next : EvaluationCall} {db db' : AutoInvestDb}

/- A statement that is served. -/
theorem Executed.paid (hNonneg : 0 ≤ price) (hOne : price ≤ 1)
    (hExecuted : call.Executed db db' next) (own : String × String) :
    db'.spent price own + next.maySpend price own ≤
      db.spent price own + call.maySpend price own := by
  have hHeld := maySpend_nonneg hNonneg own call
  cases hExecuted with
  | passed _ hNext =>
    rw [maySpend_of_between hNext]
    omega
  | @reserved rule rest row table hStage hOwn hPending hInsert =>
    rw [AutoInvestDb.spent_reserve hPending hInsert, hOwn]
    change _ + call.charge rule own 1 ≤ _
    rw [charge]
    omega
  | funded hStage hFunded =>
    have hNext := maySpend_funded hOne hStage hFunded own
    omega
  | @bought rule rest purchase next hash hStage hOwn hNext _ =>
    rw [AutoInvestDb.spent_buy, hOwn, maySpend, hNext]
    simp only [maySpend, hStage, charge]
    omega
  | @recorded rule rest status hash next hStage hNext =>
    have hSettle := AutoInvestDb.spent_settle hNonneg db (call.own rule) own status hash
    have hRecorded := maySpend_recorded hNonneg hStage own
    rw [maySpend_of_between hNext]
    omega

/- A statement whose reply is lost. -/
theorem Executed.paid_lost (hNonneg : 0 ≤ price) (hOne : price ≤ 1)
    (hExecuted : call.Executed db db' next) (hAllowed :
      price = 0 ∨ call.stage.buys = false ∧ call.stage.records = false) (own : String × String) :
    db'.spent price own + call.fail.maySpend price own ≤
      db.spent price own + call.maySpend price own := by
  have hFail : call.fail.maySpend price own ≤ call.maySpend price own :=
    maySpend_fail hNonneg hOne (hAllowed.imp_right And.right) own
  cases hExecuted with
  | passed _ _ => omega
  | @reserved rule rest row table hStage hOwn hPending hInsert =>
    rw [AutoInvestDb.spent_reserve hPending hInsert]
    split <;> omega
  | funded _ _ => omega
  | @bought rule rest purchase next hash hStage hOwn _ _ =>
    rcases hAllowed with rfl | ⟨hBuys, -⟩
    · rw [AutoInvestDb.spent_buy, hOwn]
      simp only [fail, maySpend, hStage, moveTo, charge, ite_self]
      omega
    · rw [hStage] at hBuys
      cases hBuys
  | @recorded rule rest status hash next hStage _ =>
    have hSettle := AutoInvestDb.spent_settle hNonneg db (call.own rule) own status hash
    have hRecorded := maySpend_recorded_lost hNonneg hOne hStage (hAllowed.imp_right And.right) own
    omega

end EvaluationCall

/- A reservation pays for a purchase, and for a failure that comes in the place of the purchase. -/
theorem autoInvest_spends {price : ℤ} (hNonneg : 0 ≤ price) (hOne : price ≤ 1)
    (own : String × String) :
    autoInvest.Spends (fun db call outcome => (price = 0 ∨ call.NoFailureAfterPurchase outcome) ∧
      call.OwnsExecution db) (AutoInvestDb.spent price own)
      (EvaluationCall.maySpend price own) where
  settle := by
    intro db call after outcome hAllowed hExecute
    rcases hAllowed with ⟨hFaults, hOwns⟩
    have hExecuted : call.Executed db after.1 after.2 := call.executed hOwns hExecute
    cases outcome with
    | served => exact hExecuted.paid hNonneg hOne own
    | rejected => exact Int.add_le_add_left (call.maySpend_fail hNonneg hOne hFaults own) _
    | lost => exact hExecuted.paid_lost hNonneg hOne hFaults own
  nonneg := EvaluationCall.maySpend_nonneg hNonneg own

/- All statements of a run in which no purchase has failed. -/
def Admissible (crew : Crew AutoInvestDb EvaluationCall) (move : FaultMove) : Prop :=
  crew.Admits (fun _ call outcome => call.NoFailureAfterPurchase outcome) move

instance (crew : Crew AutoInvestDb EvaluationCall) (move : FaultMove) :
    Decidable (Admissible crew move) := inferInstanceAs (Decidable (crew.Admits _ move))

variable {requests : List EvaluationRequest} {crew : Crew AutoInvestDb EvaluationCall}
variable {moves : List FaultMove}

theorem spent_of_run
    {allowed :
      AutoInvestDb → EvaluationCall → Option Outcome → Prop} {price : ℤ} (hNonneg : 0 ≤ price)
    (hOne : price ≤ 1)
    (hAllowed :
      ∀ db call outcome, allowed db call outcome → price = 0 ∨ call.NoFailureAfterPurchase outcome)
    (hRun : RunsTo (Crew.attempt autoInvest) (Crew.Admits allowed) (.start AutoInvestDb.empty
      (requests.map EvaluationRequest.call)) moves crew) (own : String × String) :
    crew.store.spent price own ≤ 0 := by
  let begun : Crew AutoInvestDb EvaluationCall :=
    .start AutoInvestDb.empty (requests.map EvaluationRequest.call)
  have hOwns : begun.All fun call =>
    call.OwnsExecution AutoInvestDb.empty := by
    apply Crew.all_start
    intro call hCall
    rcases List.mem_map.mp hCall with ⟨request, -, rfl⟩
    trivial
  have hHeld : begun.total (EvaluationCall.maySpend price own) = 0 := by
    apply Crew.total_eq_zero
    apply Crew.all_start
    intro call hCall
    rcases List.mem_map.mp hCall with ⟨request, -, rfl⟩
    rfl
  have hOwned := (autoInvest_maintains fun _ call outcome =>
    price = 0 ∨ call.NoFailureAfterPurchase outcome).admits
    trivial hOwns
    (hRun.mono fun crew move hAdmits => by
      cases move with
      | attempt i outcome =>
        intro call hCall
        exact hAllowed _ _ _ (hAdmits call hCall)
      | crash i =>
        intro call hCall
        exact hAllowed _ _ _ (hAdmits call hCall))
  have hSpent := (autoInvest_spends hNonneg hOne own).run hOwned
  have hTotal : 0 ≤ crew.total (EvaluationCall.maySpend price own) :=
    Crew.total_nonneg (EvaluationCall.maySpend_nonneg hNonneg own)
  change _ ≤ AutoInvestDb.empty.spent price own + begun.total _ at hSpent
  rw [hHeld] at hSpent
  have hEmpty : AutoInvestDb.empty.spent price own = 0 := rfl
  omega

/-
  A rule buys a listing once at most, in every run.  Where no
  purchase fails once it has been submitted, an execution that
  is recorded as failed has not bought.
-/
theorem executions_at_most_once
    (hRun : RunsTo (Crew.attempt autoInvest) (fun _ _ => True) (.start AutoInvestDb.empty
      (requests.map EvaluationRequest.call)) moves crew) :
    (∀ own, (crew.store.purchasesOf own).length ≤ 1) ∧ (RunsTo (Crew.attempt autoInvest) Admissible
      (.start AutoInvestDb.empty (requests.map EvaluationRequest.call)) moves crew →
      ∀ own, crew.store.Failed own → crew.store.purchasesOf own = []) := by
  constructor
  · intro own
    have hSpent :=
      spent_of_run le_rfl Int.one_nonneg (fun _ _ _ _ => .inl rfl) (Crew.admits_any hRun) own
    rw [AutoInvestDb.spent] at hSpent
    split at hSpent <;> split at hSpent <;> omega
  · intro hAdmissible own hFailed
    have hSpent :=
      spent_of_run Int.one_nonneg le_rfl (fun _ _ _ hAllowed => .inr hAllowed) hAdmissible own
    rw [AutoInvestDb.spent, if_pos hFailed] at hSpent
    apply List.length_eq_zero_iff.mp
    split at hSpent <;> omega

def sampleRule : AutoInvestRule where
  id := "rule"
  walletAddress := "wallet"
  category := "art"
  minRating := none
  maxPrice := 10
  maxPerKey := 2
  isActive := true

def sampleEvaluation (listingId : String) : EvaluationRequest where
  listingId := listingId
  key :=
    some
      { category := some "art"
        rating := none
        circulatingSupply := none }
  currentPrice := some 1000
  rules := [sampleRule]
  protocolFeeBps := fun _ => 100
  getXlmBalance := fun _ => 1000000
  transactionHash := fun _ => some "tx"

/- What is stored of the execution for a listing. -/
def sampleExecution (listingId : String) (db : AutoInvestDb) : Option ExecutionStatus × ℕ :=
  ((db.autoInvestExecution.find? ("rule", listingId)).map AutoInvestExecution.status,
    (db.purchasesOf ("rule", listingId)).length)

/- Two evaluations of one listing overlap, and the purchase of another listing is refused. -/
theorem executions_at_most_once_sample :
    ∃ crew, RunsTo (Crew.attempt autoInvest) Admissible (.start AutoInvestDb.empty
      (["key", "key", "late"].map fun listingId => (sampleEvaluation listingId).call))
      (servedMoves 0 3 ++ servedMoves 1 2 ++ servedMoves 0 2 ++
        servedMoves 2 3 ++ .attempt 2 .rejected :: servedMoves 2 1) crew ∧
      sampleExecution "key" crew.store = (some .executed, 1) ∧
      sampleExecution "late" crew.store = (some .failed, 0) ∧
      (crew.store.purchasesOf ("rule", "key")).length ≤ 1 ∧ (crew.store.Failed ("rule", "late") →
        crew.store.purchasesOf ("rule", "late") = []) := by
  have hRuns : (runAllowed (Crew.attempt autoInvest) Admissible (.start AutoInvestDb.empty
      (["key", "key", "late"].map fun listingId => (sampleEvaluation listingId).call))
      (servedMoves 0 3 ++ servedMoves 1 2 ++ servedMoves 0 2 ++ servedMoves 2 3 ++
        .attempt 2 .rejected :: servedMoves 2 1)).map
      (fun crew => (sampleExecution "key" crew.store, sampleExecution "late" crew.store)) =
      some ((some .executed, 1), (some .failed, 0)) := by decide +kernel
  rcases Option.map_eq_some_iff.mp hRuns with ⟨crew, hSome, hSeen⟩
  rcases Prod.mk.inj hSeen with ⟨hKey, hLate⟩
  have hRun := runsTo_of_runAllowed hSome
  have hOnce := @executions_at_most_once (["key", "key", "late"].map sampleEvaluation) crew _
      (hRun.mono fun _ _ _ => trivial)
  exact ⟨crew, hRun, hKey, hLate, hOnce.1 _, hOnce.2 hRun _⟩

/-
  The purchase goes through, the update that records it fails,
  and the execution is recorded as failed.
-/
theorem bought_and_recorded_failed :
    ∃ crew, RunsTo (Crew.attempt autoInvest) (fun _ _ => True) (.start AutoInvestDb.empty
      (["key"].map fun listingId => (sampleEvaluation listingId).call))
      (servedMoves 0 4 ++ .attempt 0 .rejected :: servedMoves 0 1) crew ∧
      crew.store.Failed ("rule", "key") ∧
      (crew.store.purchasesOf ("rule", "key")).length = 1 := by
  have hRuns :
      (runLabels (Crew.attempt autoInvest) (.start AutoInvestDb.empty (["key"].map fun listingId =>
        (sampleEvaluation listingId).call))
        (servedMoves 0 4 ++ .attempt 0 .rejected :: servedMoves 0 1)).map
        (fun crew => (decide (crew.store.Failed ("rule", "key")),
          (crew.store.purchasesOf ("rule", "key")).length)) =
        some (true, 1) := by decide +kernel
  rcases Option.map_eq_some_iff.mp hRuns with ⟨crew, hSome, hSeen⟩
  rcases Prod.mk.inj hSeen with ⟨hFailed, hLength⟩
  exact ⟨crew, runsTo_of_runLabels hSome, of_decide_eq_true hFailed, hLength⟩

end AutoInvest

end AccessLayer
