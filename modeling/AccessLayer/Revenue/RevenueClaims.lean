import AccessLayer.Indexer.Dividends
import AccessLayer.Library.Machines
import AccessLayer.Library.Numerals

/-
  Claims on the protocol revenue of a cycle
  (`src/modules/revenue/revenue.service.ts`,
  `prisma/schema/revenue.prisma`).

  A cycle is finalised on the first claim after it has ended;
  a claim is computed from the stake that it reads, and written
  by a later transaction.  A cycle is named by its index.  Fees,
  stakes and shares are computed in doubles.  Audit entries and
  logs are left out.

  `revenue_conserved`: claims stay within the fees of a cycle in
  runs where shares are kept and not rounded up.

  Main result: `revenue_conserved`
-/

-- Cycles
----

namespace AccessLayer

namespace Revenue

open Transactional Program Indexer

section

structure RevenueCycleWindow where
  cycleIndex : ℤ
  startsAt : ℤ
  endsAt : ℤ

/- The first millisecond of 2026. -/
def revenueCycleEpochMs : ℤ := 1767225600000

def getCycleDurationMs (cycleDays : ℕ) : ℤ := cycleDays * 24 * 60 * 60 * 1000

def getCycleWindow (cycleDays : ℕ) (cycleIndex : ℤ) : RevenueCycleWindow :=
  let duration := getCycleDurationMs cycleDays
  { cycleIndex
    startsAt := revenueCycleEpochMs + cycleIndex * duration
    endsAt := revenueCycleEpochMs + (cycleIndex + 1) * duration }

def getCurrentCycleIndex (cycleDays : ℕ) (now : ℤ) : ℤ :=
  (now - revenueCycleEpochMs) / getCycleDurationMs cycleDays

/- The last cycle that has ended, if any has. -/
def getLatestEndedCycle (cycleDays : ℕ) (now : ℤ) : Option RevenueCycleWindow :=
  let current := getCurrentCycleIndex cycleDays now
  if current < 1 then none
  else some (getCycleWindow cycleDays (current - 1))

structure RevenueCycle where
  cycleIndex : ℤ
  startsAt : ℤ
  endsAt : ℤ
  totalFeesXlm : ℚ
  distributedXlm : ℚ

instance : Keyed RevenueCycle ℤ := ⟨RevenueCycle.cycleIndex⟩

structure RevenueClaim where
  cycleIndex : ℤ
  wallet : String
  entitledAmountXlm : ℚ
  claimedAt : ℤ

instance : Keyed RevenueClaim (ℤ × String) := ⟨fun row => (row.cycleIndex, row.wallet)⟩

/- A row of the `Trade` table, as the fees are read from it. -/
structure FeeTrade where
  price : ℚ
  quantity : ℚ
  timestamp : ℤ

/- What trades and transfers write; its fee rate is a setting. -/
structure Market where
  db : TradeDb
  trades : List FeeTrade
  protocolFeeBps : Option ℕ

/- What a claim was computed from. -/
structure StakeShare where
  walletStake : ℚ
  totalStake : ℚ

/- `claimed` pairs each claim with what it was computed from. -/
structure RevenueDb where
  market : Market
  revenueCycle : Table RevenueCycle
  revenueClaim : Table RevenueClaim
  claimed : List (RevenueClaim × StakeShare)

-- Entitlements
----

/- The fee of a trade, in the order of the code. -/
def FeeTrade.feeXlm (protocolFeeBps : ℕ) (trade : FeeTrade) : ℚ :=
  Doubles.div (Doubles.mul (Doubles.mul trade.price trade.quantity) protocolFeeBps) 10000

def cycleFeesXlm (protocolFeeBps : ℕ) (window : RevenueCycleWindow) (trades : List FeeTrade) : ℚ :=
  (trades.filter fun trade => window.startsAt ≤ trade.timestamp &&
    trade.timestamp < window.endsAt).foldl
    (fun total trade => Doubles.add total (trade.feeXlm protocolFeeBps)) 0

/- The positive balances of a wallet, summed. -/
def stakeOfOwner (db : TradeDb) (owner : String) : ℚ :=
  ((db.keyOwnership.rows.filter fun row => 0 < row.balance && row.ownerAddress = owner).map
    KeyOwnership.balance).sum

/- The wallets with positive balances and their sums. -/
def getStakeWeights (db : TradeDb) : List (String × ℚ) :=
  let owners :=
    (db.keyOwnership.rows.filter fun row => 0 < row.balance).map KeyOwnership.ownerAddress
  (owners.dedup.map fun owner => (owner, Doubles.number (stakeOfOwner db owner))).filter
    fun weight => 0 < weight.2

/- The weights as the code adds them up. -/
def totalStake (weights : List (String × ℚ)) : ℚ :=
  weights.foldl (fun total weight => Doubles.add total weight.2) 0

/- The weight of a wallet, zero if it has none. -/
def walletStake (weights : List (String × ℚ)) (wallet : String) : ℚ :=
  ((weights.find? fun weight => weight.1 = wallet).map Prod.snd).getD 0

def stakeShare (db : TradeDb) (wallet : String) : StakeShare where
  walletStake := walletStake (getStakeWeights db) wallet
  totalStake := totalStake (getStakeWeights db)

def StakeShare.entitled (share : StakeShare) (totalFeesXlm : ℚ) : ℚ :=
  Doubles.div (Doubles.mul totalFeesXlm share.walletStake) share.totalStake

inductive RevenueClaimError where
  | database
  | noCompletedCycle
  | nothingToClaim
  | alreadyClaimed (cycleIndex : ℤ) (wallet : String)
  | uniqueViolation
  | recordNotFound
  | market (e : IndexerError)

def RevenueClaimError.message : RevenueClaimError → String
  | .database => "Database statement failed"
  | .noCompletedCycle => "No completed distribution cycle is available " ++ "to claim yet"
  | .nothingToClaim => "No claimable revenue for this cycle"
  | .alreadyClaimed cycleIndex wallet =>
    "Wallet " ++ wallet ++ " already claimed revenue for cycle " ++ toString cycleIndex
  | .uniqueViolation => "Unique constraint failed"
  | .recordNotFound => "No record was found for an update."
  | .market e => e.message

-- Statements
----

/- A wallet that claims, and the time that its row records. -/
structure Claimant where
  wallet : String
  claimedAt : ℤ

/- A call and what it has read so far. -/
inductive RevenueWork where
  /- `finalizeCycle` -/
  | findCycle (claimant : Claimant) (window : RevenueCycleWindow)
  | upsertConfig (claimant : Claimant) (window : RevenueCycleWindow)
  | findTrades (claimant : Claimant) (window : RevenueCycleWindow) (protocolFeeBps : ℕ)
  | createCycle (claimant : Claimant) (window : RevenueCycleWindow) (totalFeesXlm : ℚ)
  | refindCycle (claimant : Claimant) (window : RevenueCycleWindow)
  /- `getStakeWeights` -/
  | weigh (claimant : Claimant) (cycle : RevenueCycle)
  | claim (claimant : Claimant) (cycle : RevenueCycle) (share : StakeShare)
  /- trades, transfers and whatever else changes the market -/
  | trade (update : Market → Market) (next : Market → Program Market IndexerError Unit)
    (onFault : Program Market IndexerError Unit)
  | ended (result : Except RevenueClaimError Unit)

/- A call of the market of which this much is left. -/
def trading : Program Market IndexerError Unit → RevenueWork
  | .ret _ => .ended (.ok ())
  | .raise e => .ended (.error (.market e))
  | .stmt update next onFault => .trade update next onFault

/- The stake is read for a cycle that has fees. -/
def weighing (claimant : Claimant) (cycle : RevenueCycle) : RevenueWork :=
  if cycle.totalFeesXlm ≤ 0 then .ended (.error .nothingToClaim)
  else .weigh claimant cycle

/- A finalised cycle; amounts are stored with seven decimals. -/
def RevenueCycleWindow.finalized (window : RevenueCycleWindow)
    (totalFeesXlm : ℚ) : RevenueCycle where
  cycleIndex := window.cycleIndex
  startsAt := window.startsAt
  endsAt := window.endsAt
  totalFeesXlm := roundXlm totalFeesXlm
  distributedXlm := 0

def Claimant.row (claimant : Claimant) (cycle : RevenueCycle)
    (share : StakeShare) : RevenueClaim where
  cycleIndex := cycle.cycleIndex
  wallet := claimant.wallet
  entitledAmountXlm := roundXlm (share.entitled cycle.totalFeesXlm)
  claimedAt := claimant.claimedAt

def RevenueCycle.distribute (amountXlm : ℚ) (row : RevenueCycle) : RevenueCycle :=
  { row with
    distributedXlm := roundXlm (row.distributedXlm + amountXlm) }

theorem key_distribute (amountXlm : ℚ) (row : RevenueCycle) :
    key (row.distribute amountXlm) = key row := rfl

/- The transaction of a claim: its row, and the running total. -/
def RevenueDb.claim (s : RevenueDb) (claimant : Claimant) (cycle : RevenueCycle)
    (share : StakeShare) : Except RevenueClaimError RevenueDb :=
  let row := claimant.row cycle share
  match s.revenueClaim.insert? row with
  | none => .error (.alreadyClaimed cycle.cycleIndex claimant.wallet)
  | some revenueClaim =>
    match s.revenueCycle.find? cycle.cycleIndex with
    | none => .error .recordNotFound
    | some _ =>
      let amountXlm := share.entitled cycle.totalFeesXlm
      .ok { s with
          revenueClaim
          revenueCycle :=
            s.revenueCycle.update cycle.cycleIndex (.distribute amountXlm)
              (key_distribute amountXlm)
          claimed := s.claimed ++ [(row, share)] }

def executeRevenueWork (call : RevenueWork) (s : RevenueDb) : Option (RevenueDb × RevenueWork) :=
  match call with
  | .findCycle claimant window =>
    match s.revenueCycle.find? window.cycleIndex with
    | some cycle => some (s, weighing claimant cycle)
    | none => some (s, .upsertConfig claimant window)
  | .upsertConfig claimant window =>
    let protocolFeeBps := s.market.protocolFeeBps.getD 500
    some ({ s with
          market :=
            { s.market with
              protocolFeeBps := some protocolFeeBps } },
        .findTrades claimant window protocolFeeBps)
  | .findTrades claimant window protocolFeeBps =>
    some (s, .createCycle claimant window (cycleFeesXlm protocolFeeBps window s.market.trades))
  | .createCycle claimant window totalFeesXlm =>
    let cycle := window.finalized totalFeesXlm
    match s.revenueCycle.insert? cycle with
    | some revenueCycle => some ({ s with revenueCycle }, weighing claimant cycle)
    -- another call has finalised the cycle
    | none => some (s, .refindCycle claimant window)
  | .refindCycle claimant window =>
    match s.revenueCycle.find? window.cycleIndex with
    | some cycle => some (s, weighing claimant cycle)
    | none => some (s, .ended (.error .uniqueViolation))
  | .weigh claimant cycle =>
    let share := stakeShare s.market.db claimant.wallet
    if share.totalStake ≤ 0 ∨ share.walletStake ≤ 0 ∨ share.entitled cycle.totalFeesXlm ≤ 0 then
      some (s, .ended (.error .nothingToClaim))
    else some (s, .claim claimant cycle share)
  | .claim claimant cycle share =>
    match s.claim claimant cycle share with
    | .ok s' => some (s', .ended (.ok ()))
    | .error e => some (s, .ended (.error e))
  | .trade update next _ => some ({ s with market := update s.market }, trading (next s.market))
  | .ended _ => none

def RevenueWork.fail : RevenueWork → RevenueWork
  | .trade _ _ onFault => trading onFault
  | .ended result => .ended result
  | _ => .ended (.error .database)

def revenueClaims : Machine RevenueDb RevenueWork where
  execute := executeRevenueWork
  fail := RevenueWork.fail

/- A claim of a wallet, or a program on the market. -/
inductive RevenueRequest where
  | claimRevenue (claimant : Claimant) (now : ℤ)
  | onMarket (program : Program Market IndexerError Unit)

def RevenueRequest.work (cycleDays : ℕ) : RevenueRequest → RevenueWork
  | .claimRevenue claimant now =>
    match getLatestEndedCycle cycleDays now with
    | none => .ended (.error .noCompletedCycle)
    | some window => .findCycle claimant window
  | .onMarket program => trading program

-- Stake Weights
----

theorem walletStake_cons (weight : String × ℚ) (rest : List (String × ℚ)) (wallet : String) :
    walletStake (weight :: rest) wallet =
      if weight.1 = wallet then weight.2
      else walletStake rest wallet := by
  unfold walletStake
  rw [List.find?_cons]
  by_cases hSame : weight.1 = wallet
  · simp [hSame]
  · simp [hSame]

variable {weight : String × ℚ} {wallets : List String}

theorem sum_walletStake_cons {rest : List (String × ℚ)} (hWallets : wallets.Nodup)
    (hWeight : 0 ≤ weight.2) (hRest : ∀ wallet, 0 ≤ walletStake rest wallet) :
    (wallets.map (walletStake (weight :: rest))).sum ≤
      weight.2 + (wallets.map (walletStake rest)).sum := by
  induction wallets with
  | nil => simpa using hWeight
  | cons wallet wallets ih =>
    have hTail := ih (List.nodup_cons.mp hWallets).2
    have hFresh := (List.nodup_cons.mp hWallets).1
    simp only [List.map_cons, List.sum_cons, walletStake_cons]
    split
    · rename_i hSame
      have hOthers : wallets.map (walletStake (weight :: rest)) =
          wallets.map (walletStake rest) := by
        apply List.map_congr_left
        intro other hOther
        rw [walletStake_cons, if_neg]
        rintro rfl
        exact hFresh (hSame ▸ hOther)
      rw [hOthers]
      linarith [hRest wallet]
    · linarith

variable {weights : List (String × ℚ)}

theorem walletStake_nonneg (hWeights : ∀ weight ∈ weights, 0 ≤ weight.2) (wallet : String) :
    0 ≤ walletStake weights wallet := by
  unfold walletStake
  cases hFind : weights.find? fun weight => weight.1 = wallet with
  | none => exact le_rfl
  | some weight => exact hWeights weight (List.mem_of_find?_eq_some hFind)

/- The weights without any rounding. -/
def exactStake (weights : List (String × ℚ)) : ℚ := (weights.map Prod.snd).sum

theorem sum_walletStake_le (hWeights : ∀ weight ∈ weights, 0 ≤ weight.2)
    (hWallets : wallets.Nodup) :
    (wallets.map (walletStake weights)).sum ≤ exactStake weights := by
  induction weights with
  | nil =>
    apply le_of_eq
    exact List.sum_eq_zero fun x hx => by
      rcases List.mem_map.mp hx with ⟨wallet, -, rfl⟩
      rfl
  | cons weight rest ih =>
    have hTail := ih fun other hOther => hWeights other (List.mem_cons_of_mem _ hOther)
    have hCons := sum_walletStake_cons hWallets (hWeights weight List.mem_cons_self)
        (walletStake_nonneg fun other hOther => hWeights other (List.mem_cons_of_mem _ hOther))
    calc
      (wallets.map (walletStake (weight :: rest))).sum ≤
        weight.2 + (wallets.map (walletStake rest)).sum :=
        hCons
      _ ≤ weight.2 + exactStake rest := by gcongr
      _ = exactStake (weight :: rest) := by simp [exactStake]

theorem getStakeWeights_pos {db : TradeDb} (hWeight : weight ∈ getStakeWeights db) : 0 < weight.2 :=
  of_decide_eq_true (List.mem_filter.mp hWeight).2

/- The part of the fees that a claim was computed from. -/
def StakeShare.fraction (share : StakeShare) : ℚ := share.walletStake / share.totalStake

/- The part of all stake that a wallet holds. -/
def heldFraction (db : TradeDb) (wallet : String) : ℚ :=
  walletStake (getStakeWeights db) wallet / exactStake (getStakeWeights db)

theorem sum_fraction_le_one (db : TradeDb) (hWallets : wallets.Nodup) :
    (wallets.map (heldFraction db)).sum ≤ 1 := by
  have hNonneg : ∀ weight ∈ getStakeWeights db, 0 ≤ weight.2 :=
    fun weight hWeight => (getStakeWeights_pos hWeight).le
  have hTotal : 0 ≤ exactStake (getStakeWeights db) := List.sum_nonneg fun x hx => by
    rcases List.mem_map.mp hx with ⟨weight, hWeight, rfl⟩
    exact hNonneg weight hWeight
  have hSum : (wallets.map (heldFraction db)).sum =
      (wallets.map (walletStake (getStakeWeights db))).sum /
        exactStake (getStakeWeights db) := by
    rw [div_eq_mul_inv, ← List.sum_map_mul_right]
    rfl
  rw [hSum]
  exact div_le_one_of_le₀ (sum_walletStake_le hNonneg hWallets) hTotal

-- The Steps
----

/- The cycle is stored, with the fees that a call has read. -/
def RevenueDb.Stores (s : RevenueDb) (cycle : RevenueCycle) : Prop :=
  ∃ row, s.revenueCycle.find? cycle.cycleIndex = some row ∧ row.totalFeesXlm = cycle.totalFeesXlm

/- What a call knows of the store. -/
def RevenueWork.Known (s : RevenueDb) : RevenueWork → Prop
  | .weigh _ cycle => s.Stores cycle
  | .claim _ cycle share => s.Stores cycle ∧ 0 < share.entitled cycle.totalFeesXlm
  | _ => True

/- What a statement of a call does. -/
inductive RevenueStep (s : RevenueDb) :
    RevenueWork → RevenueDb → RevenueWork → Prop where
  | stays {call next : RevenueWork} (market : Market) (hNext : next.Known s) :
    RevenueStep s call { s with market } next
  | creates {claimant : Claimant} {window : RevenueCycleWindow} {totalFeesXlm : ℚ}
    {revenueCycle : Table RevenueCycle}
    (hInsert : s.revenueCycle.insert? (window.finalized totalFeesXlm) = some revenueCycle) :
    RevenueStep s (.createCycle claimant window totalFeesXlm) { s with revenueCycle }
      (weighing claimant (window.finalized totalFeesXlm))
  | claims {claimant : Claimant} {cycle stored : RevenueCycle} {share : StakeShare}
    {revenueClaim : Table RevenueClaim}
    (hInsert : s.revenueClaim.insert? (claimant.row cycle share) = some revenueClaim)
    (hCycle : s.revenueCycle.find? cycle.cycleIndex = some stored) :
    RevenueStep s (.claim claimant cycle share) { s with
        revenueClaim
        revenueCycle :=
          s.revenueCycle.update cycle.cycleIndex (.distribute (share.entitled cycle.totalFeesXlm))
            (key_distribute (share.entitled cycle.totalFeesXlm))
        claimed := s.claimed ++ [(claimant.row cycle share, share)] }
      (.ended (.ok ()))

variable {s s' : RevenueDb} {call next : RevenueWork}

theorem known_trading (s : RevenueDb) (p : Program Market IndexerError Unit) :
    (trading p).Known s := by
  cases p with
  | _ => trivial

variable {claimant : Claimant} {cycle : RevenueCycle}

theorem known_weighing (hCycle : s.Stores cycle) : (weighing claimant cycle).Known s := by
  unfold weighing
  split
  · trivial
  · exact hCycle

theorem known_found {window : RevenueCycleWindow}
    (hFind : s.revenueCycle.find? window.cycleIndex = some cycle) :
    (weighing claimant cycle).Known s := by
  have hIndex : cycle.cycleIndex = window.cycleIndex := Table.key_of_find? hFind
  exact known_weighing ⟨cycle, hIndex ▸ hFind, rfl⟩

theorem revenueClaims_step (hKnown : call.Known s)
    (hExecute : revenueClaims.execute call s = some (s', next)) :
    RevenueStep s call s' next := by
  change executeRevenueWork call s = some (s', next) at hExecute
  cases call with
  | findCycle claimant window =>
    simp only [executeRevenueWork] at hExecute
    split at hExecute
    · rename_i cycle hFind
      cases hExecute
      exact .stays s.market (known_found hFind)
    · cases hExecute
      exact .stays s.market trivial
  | upsertConfig claimant window =>
    cases hExecute
    exact .stays _ trivial
  | findTrades claimant window protocolFeeBps =>
    cases hExecute
    exact .stays s.market trivial
  | createCycle claimant window totalFeesXlm =>
    simp only [executeRevenueWork] at hExecute
    split at hExecute
    · rename_i revenueCycle hInsert
      cases hExecute
      exact .creates hInsert
    · cases hExecute
      exact .stays s.market trivial
  | refindCycle claimant window =>
    simp only [executeRevenueWork] at hExecute
    split at hExecute
    · rename_i cycle hFind
      cases hExecute
      exact .stays s.market (known_found hFind)
    · cases hExecute
      exact .stays s.market trivial
  | weigh claimant cycle =>
    simp only [executeRevenueWork] at hExecute
    split at hExecute
    · cases hExecute
      exact .stays s.market trivial
    · rename_i hShare
      cases hExecute
      refine .stays s.market ⟨hKnown, ?_⟩
      exact not_le.mp fun hNone => hShare (.inr (.inr hNone))
  | claim claimant cycle share =>
    simp only [executeRevenueWork, RevenueDb.claim] at hExecute
    cases hInsert : s.revenueClaim.insert? (claimant.row cycle share) with
    | none =>
      simp only [hInsert] at hExecute
      cases hExecute
      exact .stays s.market trivial
    | some revenueClaim =>
      cases hCycle : s.revenueCycle.find? cycle.cycleIndex with
      | none =>
        simp only [hInsert, hCycle] at hExecute
        cases hExecute
        exact .stays s.market trivial
      | some stored =>
        simp only [hInsert, hCycle] at hExecute
        cases hExecute
        exact .claims hInsert hCycle
  | trade update next onFault =>
    cases hExecute
    exact .stays _ (known_trading s _)
  | ended result => cases hExecute

theorem known_fail (s : RevenueDb) (call : RevenueWork) : (revenueClaims.fail call).Known s := by
  cases call with
  | trade update next onFault => exact known_trading s _
  | _ => trivial

theorem RevenueDb.Stores.step {cycle : RevenueCycle} (hCycle : s.Stores cycle)
    (hStep : RevenueStep s call s' next) :
    s'.Stores cycle := by
  rcases hCycle with ⟨row, hFind, hFees⟩
  cases hStep with
  | stays market hNext => exact ⟨row, hFind, hFees⟩
  | @creates claimant window totalFeesXlm revenueCycle hInsert =>
    refine ⟨row, ?_, hFees⟩
    rw [Table.find?_insert? hInsert, if_neg]
    · exact hFind
    · intro hSame
      rw [hSame, (Table.insert?_eq_some hInsert).1] at hFind
      cases hFind
  | @claims claimant cycle' stored share revenueClaim hInsert hCycle =>
    unfold RevenueDb.Stores
    rw [Table.find?_update_stored hCycle]
    split
    · rename_i hSame
      rw [hSame, hCycle] at hFind
      cases hFind
      exact ⟨_, rfl, hFees⟩
    · exact ⟨row, hFind, hFees⟩

theorem known_step {other : RevenueWork} (hKnown : other.Known s)
    (hStep : RevenueStep s call s' next) :
    other.Known s' := by
  cases other with
  | weigh claimant cycle => exact hKnown.step hStep
  | claim claimant cycle share => exact ⟨hKnown.1.step hStep, hKnown.2⟩
  | _ => trivial

theorem known_next (hStep : RevenueStep s call s' next) : next.Known s' := by
  have hTaken := hStep
  cases hStep with
  | stays market hNext => exact known_step hNext hTaken
  | creates hInsert =>
    apply known_weighing
    refine ⟨_, ?_, rfl⟩
    rw [Table.find?_insert? hInsert]
    exact if_pos rfl
  | claims hInsert hCycle => trivial

end

-- Claims Add Up
----

section

def RevenueDb.claimsOf (s : RevenueDb) (cycleIndex : ℤ) : List RevenueClaim :=
  s.revenueClaim.rows.filter fun row => row.cycleIndex = cycleIndex

def RevenueDb.claimedFrom (s : RevenueDb) (cycleIndex : ℤ) : ℚ :=
  ((s.claimsOf cycleIndex).map RevenueClaim.entitledAmountXlm).sum

/-
  The running total of a cycle is the sum of its claim rows, in
  whole units of the last decimal; a cycle that is not stored has
  no claims.
-/
structure Accounted (s : RevenueDb) : Prop where
  distributed : ∀ cycleIndex cycle, s.revenueCycle.find? cycleIndex = some cycle →
    cycle.distributedXlm = s.claimedFrom cycleIndex
  unclaimed : ∀ cycleIndex, s.revenueCycle.find? cycleIndex = none → s.claimedFrom cycleIndex = 0
  grid : ∀ cycleIndex, ∃ units : ℤ, 0 ≤ units ∧ s.claimedFrom cycleIndex = (units : ℚ) / 10000000

/- An amount is rounded alike on its own and in a sum. -/
theorem roundXlm_add_grid {units : ℤ} {amount : ℚ} (hUnits : 0 ≤ units) (hAmount : 0 ≤ amount) :
    roundXlm ((units : ℚ) / 10000000 + amount) = (units : ℚ) / 10000000 + roundXlm amount := by
  rw [roundXlm_of_nonneg (by positivity), roundXlm_of_nonneg hAmount]
  have hFloor : ⌊((units : ℚ) / 10000000 + amount) * 10000000 + 1 / 2⌋ =
      units + ⌊amount * 10000000 + 1 / 2⌋ := by
    rw [← Int.floor_intCast_add]
    congr 1
    ring
  rw [hFloor]
  push_cast
  ring

variable {s s' : RevenueDb} {call next : RevenueWork} {revenueClaim : Table RevenueClaim}
variable {row : RevenueClaim}

theorem claimsOf_insert (hInsert : s.revenueClaim.insert? row = some revenueClaim)
    (hRows : s'.revenueClaim = revenueClaim) (cycleIndex : ℤ) :
    s'.claimsOf cycleIndex = s.claimsOf cycleIndex ++
      if row.cycleIndex = cycleIndex then [row] else [] := by
  unfold RevenueDb.claimsOf
  rw [hRows, (Table.insert?_eq_some hInsert).2, List.filter_append]
  by_cases hSame : row.cycleIndex = cycleIndex
  · simp [hSame]
  · simp [hSame]

theorem claimedFrom_insert (hInsert : s.revenueClaim.insert? row = some revenueClaim)
    (hRows : s'.revenueClaim = revenueClaim) (cycleIndex : ℤ) :
    s'.claimedFrom cycleIndex = s.claimedFrom cycleIndex +
      if row.cycleIndex = cycleIndex then
        row.entitledAmountXlm
      else 0 := by
  unfold RevenueDb.claimedFrom
  rw [claimsOf_insert hInsert hRows, List.map_append, List.sum_append]
  split
  · simp
  · simp

theorem Accounted.step (h : Accounted s) (hKnown : call.Known s)
    (hStep : RevenueStep s call s' next) :
    Accounted s' := by
  cases hStep with
  | stays market hNext => exact ⟨h.distributed, h.unclaimed, h.grid⟩
  | @creates claimant window totalFeesXlm revenueCycle hInsert =>
    have hFresh := (Table.insert?_eq_some hInsert).1
    refine ⟨?_, ?_, h.grid⟩
    · intro cycleIndex cycle hFind
      rw [Table.find?_insert? hInsert] at hFind
      split at hFind
      · rename_i hSame
        cases hFind
        rw [← hSame] at hFresh
        exact (h.unclaimed cycleIndex hFresh).symm
      · exact h.distributed cycleIndex cycle hFind
    · intro cycleIndex hFind
      rw [Table.find?_insert? hInsert] at hFind
      split at hFind
      · cases hFind
      · exact h.unclaimed cycleIndex hFind
  | @claims claimant cycle stored share revenueClaim hInsert hCycle =>
    have hAmount := hKnown.2.le
    refine ⟨?_, ?_, ?_⟩
    · intro cycleIndex row hFind
      rw [claimedFrom_insert hInsert rfl]
      rw [Table.find?_update_stored hCycle] at hFind
      split at hFind
      · rename_i hSame
        cases hFind
        rcases h.grid cycleIndex with ⟨units, hUnits, hGrid⟩
        have hStored : stored.distributedXlm = s.claimedFrom cycleIndex := by
          rw [hSame]
          exact h.distributed _ stored hCycle
        have hRow : (claimant.row cycle share).cycleIndex = cycleIndex := hSame.symm
        rw [if_pos hRow]
        change roundXlm (stored.distributedXlm + share.entitled cycle.totalFeesXlm) =
          s.claimedFrom cycleIndex + roundXlm (share.entitled cycle.totalFeesXlm)
        rw [hStored, hGrid, roundXlm_add_grid hUnits hAmount]
      · rename_i hNe
        rw [if_neg fun hSame => hNe hSame.symm, add_zero]
        exact h.distributed cycleIndex row hFind
    · intro cycleIndex hFind
      rw [claimedFrom_insert hInsert rfl]
      rw [Table.find?_update_stored hCycle] at hFind
      split at hFind
      · cases hFind
      · rename_i hNe
        rw [if_neg fun hSame => hNe hSame.symm, add_zero]
        exact h.unclaimed cycleIndex hFind
    · intro cycleIndex
      rw [claimedFrom_insert hInsert rfl]
      rcases h.grid cycleIndex with ⟨units, hUnits, hGrid⟩
      rw [hGrid]
      split
      · rcases roundXlm_grid hAmount with ⟨added, hAdded, hRounded⟩
        refine ⟨units + added, add_nonneg hUnits hAdded, ?_⟩
        change _ + roundXlm _ = _
        rw [hRounded]
        push_cast
        ring
      · exact ⟨units, hUnits, add_zero _⟩

/- A store in which no cycle has been finalised. -/
def RevenueDb.start (market : Market) : RevenueDb where
  market := market
  revenueCycle := .empty
  revenueClaim := .empty
  claimed := []

def revenueStart (cycleDays : ℕ) (market : Market) (requests : List RevenueRequest) :
    Crew RevenueDb RevenueWork :=
  .start (.start market) (requests.map (RevenueRequest.work cycleDays))

theorem accounted_start (market : Market) : Accounted (.start market) where
  distributed := fun _ _ hFind => by cases hFind
  unclaimed := fun _ _ => rfl
  grid := fun _ => ⟨0, le_rfl, by norm_num [RevenueDb.start,
    RevenueDb.claimedFrom, RevenueDb.claimsOf, Table.empty]⟩

theorem known_work (cycleDays : ℕ) (s : RevenueDb) (request : RevenueRequest) :
    (request.work cycleDays).Known s := by
  cases request with
  | claimRevenue claimant now =>
    unfold RevenueRequest.work
    dsimp only
    split
    · trivial
    · trivial
  | onMarket program => exact known_trading s program

theorem known_start (cycleDays : ℕ) (market : Market) (requests : List RevenueRequest) :
    (revenueStart cycleDays market requests).All (RevenueWork.Known (.start market)) := by
  apply Crew.all_start
  intro call hCall
  rcases List.mem_map.mp hCall with ⟨request, -, rfl⟩
  exact known_work cycleDays _ request

theorem length_claims_le_one (s : RevenueDb) (cycleIndex : ℤ) (wallet : String) :
    ((s.claimsOf cycleIndex).filter fun row => row.wallet = wallet).length ≤ 1 := by
  unfold RevenueDb.claimsOf
  rw [List.filter_filter]
  apply Table.length_filter_le_one (k := (cycleIndex, wallet))
  intro row hRow
  simp only [Bool.and_eq_true, decide_eq_true_eq] at hRow
  exact Prod.ext hRow.2 hRow.1

end

-- Claims Within the Fees
----

/- A claim has not used up more than its wallet holds now. -/
def HoldsShare (s : RevenueDb) (wallet : String) (share : StakeShare) : Prop :=
  share.fraction ≤ heldFraction s.market.db wallet

instance (s : RevenueDb) (wallet : String) (share : StakeShare) :
    Decidable (HoldsShare s wallet share) := by
  unfold HoldsShare
  infer_instance

/-
  A cycle is finalised with fees that are not negative.  When a
  first claim of a wallet is committed, it is not rounded up, and
  the wallets that have claimed from the cycle, this one with
  them, hold at least the share of all stake that their claims
  were computed from.
-/
def Upheld (s : RevenueDb) (call : RevenueWork) (outcome : Option Outcome) : Prop :=
  match call with
  | .createCycle _ _ totalFeesXlm => takesEffect outcome = true → 0 ≤ totalFeesXlm
  | .claim claimant cycle share =>
    takesEffect outcome = true → s.revenueClaim.find? (key (claimant.row cycle share)) = none →
      roundXlm (share.entitled cycle.totalFeesXlm) ≤ cycle.totalFeesXlm * share.fraction ∧
        HoldsShare s claimant.wallet share ∧ ∀ claimed ∈ s.claimed,
          claimed.1.cycleIndex = cycle.cycleIndex → HoldsShare s claimed.1.wallet claimed.2
  | _ => True

instance (s : RevenueDb) (call : RevenueWork) (outcome : Option Outcome) :
    Decidable (Upheld s call outcome) := by
  unfold Upheld
  split <;> infer_instance

/- Each claim took at most the share that it was computed from. -/
structure WithinFees (s : RevenueDb) : Prop where
  rows : s.revenueClaim.rows = s.claimed.map Prod.fst
  fees : ∀ cycleIndex cycle, s.revenueCycle.find? cycleIndex = some cycle → 0 ≤ cycle.totalFeesXlm ∧
    s.claimedFrom cycleIndex ≤ cycle.totalFeesXlm
  shares :
    ∀ claimed ∈ s.claimed, ∃ cycle, cycle.cycleIndex = claimed.1.cycleIndex ∧ s.Stores cycle ∧
      claimed.1.entitledAmountXlm ≤ cycle.totalFeesXlm * claimed.2.fraction

variable {s s' : RevenueDb} {call next : RevenueWork} {outcome : Option Outcome}

theorem claimedFrom_eq (hRows : s.revenueClaim.rows = s.claimed.map Prod.fst) (cycleIndex : ℤ) :
    s.claimedFrom cycleIndex = ((s.claimed.filter fun claimed =>
      claimed.1.cycleIndex = cycleIndex).map fun claimed => claimed.1.entitledAmountXlm).sum := by
  unfold RevenueDb.claimedFrom RevenueDb.claimsOf
  rw [hRows, List.filter_map, List.map_map]
  rfl

theorem nodup_wallets (hRows : s.revenueClaim.rows = s.claimed.map Prod.fst) (cycleIndex : ℤ) :
    ((s.claimed.filter fun claimed => claimed.1.cycleIndex = cycleIndex).map fun claimed =>
      claimed.1.wallet).Nodup := by
  have hUnique := s.revenueClaim.unique
  rw [hRows, List.map_map] at hUnique
  have hFiltered : ((s.claimed.filter fun claimed => claimed.1.cycleIndex = cycleIndex).map
      (key ∘ Prod.fst)).Nodup :=
    hUnique.sublist (List.filter_sublist.map _)
  have hKeys :
      (s.claimed.filter fun claimed => claimed.1.cycleIndex = cycleIndex).map (key ∘ Prod.fst) =
        ((s.claimed.filter fun claimed =>
          claimed.1.cycleIndex = cycleIndex).map fun claimed =>
            claimed.1.wallet).map fun wallet =>
              (cycleIndex, wallet) := by
    rw [List.map_map]
    apply List.map_congr_left
    intro claimed hClaimed
    have hIndex := of_decide_eq_true (List.mem_filter.mp hClaimed).2
    exact Prod.ext hIndex rfl
  rw [hKeys] at hFiltered
  exact hFiltered.of_map

variable {cycle : RevenueCycle}

theorem claimedFrom_le {cycleIndex : ℤ} (hRows : s.revenueClaim.rows = s.claimed.map Prod.fst)
    (hFees : 0 ≤ cycle.totalFeesXlm) (hShares :
      ∀ claimed ∈ s.claimed, claimed.1.cycleIndex = cycleIndex → claimed.1.entitledAmountXlm ≤
        cycle.totalFeesXlm * claimed.2.fraction ∧ HoldsShare s claimed.1.wallet claimed.2) :
    s.claimedFrom cycleIndex ≤ cycle.totalFeesXlm := by
  let claims := s.claimed.filter fun claimed => claimed.1.cycleIndex = cycleIndex
  let held : String → ℚ := heldFraction s.market.db
  have hHeld : ((claims.map fun claimed => claimed.1.wallet).map held).sum ≤ 1 :=
    sum_fraction_le_one s.market.db (nodup_wallets hRows cycleIndex)
  rw [List.map_map] at hHeld
  rw [claimedFrom_eq hRows]
  calc
    (claims.map fun claimed => claimed.1.entitledAmountXlm).sum ≤ (claims.map fun claimed =>
      cycle.totalFeesXlm * held claimed.1.wallet).sum := by
      apply List.sum_le_sum
      intro claimed hClaimed
      rcases List.mem_filter.mp hClaimed with ⟨hMem, hIndex⟩
      rcases hShares claimed hMem (of_decide_eq_true hIndex) with ⟨hAmount, hHolds⟩
      exact hAmount.trans (mul_le_mul_of_nonneg_left hHolds hFees)
    _ = cycle.totalFeesXlm * (claims.map fun claimed => held claimed.1.wallet).sum :=
      List.sum_map_mul_left _ _ _
    _ ≤ cycle.totalFeesXlm * 1 := mul_le_mul_of_nonneg_left hHeld hFees
    _ = cycle.totalFeesXlm := mul_one _

theorem RevenueDb.Stores.fees_eq {cycle' : RevenueCycle} (hStores : s.Stores cycle)
    (hFind : s.revenueCycle.find? cycle.cycleIndex = some cycle') :
    cycle'.totalFeesXlm = cycle.totalFeesXlm := by
  rcases hStores with ⟨row, hRow, hFees⟩
  rw [hFind] at hRow
  cases hRow
  exact hFees

theorem WithinFees.shares_step (h : WithinFees s) (hStep : RevenueStep s call s' next) :
    ∀ claimed ∈ s.claimed, ∃ cycle, cycle.cycleIndex = claimed.1.cycleIndex ∧ s'.Stores cycle ∧
      claimed.1.entitledAmountXlm ≤ cycle.totalFeesXlm * claimed.2.fraction := by
  intro claimed hClaimed
  rcases h.shares claimed hClaimed with ⟨cycle, hIndex, hStores, hTook⟩
  exact ⟨cycle, hIndex, hStores.step hStep, hTook⟩

theorem WithinFees.step (h : WithinFees s) (hKnown : call.Known s) (hUpheld : Upheld s call outcome)
    (hEffect : takesEffect outcome = true) (hAccounted : Accounted s)
    (hStep : RevenueStep s call s' next) :
    WithinFees s' := by
  have hTaken := hStep
  cases hStep with
  | stays market hNext => exact ⟨h.rows, h.fees, h.shares⟩
  | @creates claimant window totalFeesXlm revenueCycle hInsert =>
    have hFresh := (Table.insert?_eq_some hInsert).1
    refine ⟨h.rows, ?_, h.shares_step hTaken⟩
    intro cycleIndex cycle hFind
    rw [Table.find?_insert? hInsert] at hFind
    split at hFind
    · rename_i hSame
      cases hFind
      have hFees : 0 ≤ roundXlm totalFeesXlm := by
        rcases roundXlm_grid (hUpheld hEffect) with ⟨units, hUnits, hRounded⟩
        rw [hRounded]
        positivity
      refine ⟨hFees, ?_⟩
      rw [← hSame] at hFresh
      change s.claimedFrom cycleIndex ≤ _
      rw [hAccounted.unclaimed cycleIndex hFresh]
      exact hFees
    · exact h.fees cycleIndex cycle hFind
  | @claims claimant cycle stored share revenueClaim hInsert hCycle =>
    rcases Table.insert?_eq_some hInsert with ⟨hFresh, hAdded⟩
    rcases hUpheld hEffect hFresh with ⟨hRounded, hOwn, hOthers⟩
    have hAmount : (claimant.row cycle share).entitledAmountXlm ≤
        cycle.totalFeesXlm * share.fraction :=
      hRounded
    have hRows : revenueClaim.rows = (s.claimed ++ [(claimant.row cycle share, share)]).map
        Prod.fst := by
      rw [hAdded, h.rows, List.map_append]
      rfl
    have hShares := h.shares_step hTaken
    have hStores := hKnown.1.step hTaken
    refine ⟨hRows, ?_, ?_⟩
    · intro cycleIndex cycle' hFind
      by_cases hSame : cycleIndex = cycle.cycleIndex
      · subst hSame
        have hFees := hStores.fees_eq hFind
        have hNonneg : 0 ≤ cycle'.totalFeesXlm := by
          rw [hFees, ← hKnown.1.fees_eq hCycle]
          exact (h.fees _ stored hCycle).1
        refine ⟨hNonneg, claimedFrom_le hRows hNonneg ?_⟩
        intro claimed hClaimed hIndex
        rcases List.mem_append.mp hClaimed with hOld | hNew
        · rcases hShares claimed hOld with ⟨read, hRead, hStored, hTook⟩
          have hSameFees : cycle'.totalFeesXlm = read.totalFeesXlm := by
            apply hStored.fees_eq
            rw [hRead, hIndex]
            exact hFind
          rw [hSameFees]
          exact ⟨hTook, hOthers claimed hOld hIndex⟩
        · cases List.mem_singleton.mp hNew
          rw [hFees]
          exact ⟨hAmount, hOwn⟩
      · rw [claimedFrom_insert hInsert rfl, if_neg fun hEq => hSame hEq.symm, add_zero]
        apply h.fees cycleIndex cycle'
        rw [Table.find?_update_stored hCycle, if_neg hSame] at hFind
        exact hFind
    · intro claimed hClaimed
      rcases List.mem_append.mp hClaimed with hOld | hNew
      · exact hShares claimed hOld
      · cases List.mem_singleton.mp hNew
        exact ⟨cycle, rfl, hStores, hAmount⟩

theorem withinFees_start (market : Market) : WithinFees (.start market) where
  rows := rfl
  fees := fun _ _ hFind => by cases hFind
  shares := fun _ hClaimed => by cases hClaimed

/-
  In runs that uphold the shares, the claims from a cycle are
  within its fees, its running total is their sum, and no wallet
  has claimed from it twice.
-/
theorem revenue_conserved {cycleDays : ℕ} {market : Market} {requests : List RevenueRequest}
    {moves : List FaultMove} {crew : Crew RevenueDb RevenueWork}
    (hRun : RunsTo (Crew.attempt revenueClaims) (Crew.Admits Upheld)
      (revenueStart cycleDays market requests) moves crew) :
    ∀ cycle ∈ crew.store.revenueCycle.rows, crew.store.claimedFrom cycle.cycleIndex ≤
      cycle.totalFeesXlm ∧ cycle.distributedXlm = crew.store.claimedFrom cycle.cycleIndex ∧
      ∀ wallet, ((crew.store.claimsOf cycle.cycleIndex).filter
        fun row => row.wallet = wallet).length ≤ 1 := by
  have hMaintains : revenueClaims.Maintains Upheld (fun s => Accounted s ∧ WithinFees s)
      RevenueWork.Known :=
    { execute := fun s call outcome s' next h hKnown hUpheld hEffect hExecute =>
        have hStep := revenueClaims_step hKnown hExecute
        ⟨⟨h.1.step hKnown hStep, h.2.step hKnown hUpheld hEffect h.1 hStep⟩, known_next hStep,
          fun _ hOther => known_step hOther hStep⟩
      fail := fun s call _ => known_fail s call }
  have h := (hMaintains.run ⟨accounted_start market, withinFees_start market⟩
      (known_start cycleDays market requests) hRun).1
  intro cycle hCycle
  have hFind := Table.find?_of_mem hCycle
  exact ⟨(h.2.fees _ cycle hFind).2, h.1.distributed _ cycle hFind, length_claims_le_one _ _⟩

def Market.tables : Component Market TradeDb where
  get := Market.db
  set := fun db market => { market with db }
  get_set := fun _ _ => rfl
  set_get := fun _ => rfl
  set_set := fun _ _ _ => rfl

/- A first cycle with one trade, and wallets with ten keys each. -/
def firstCycle (price : ℚ) (holders : List String) : Market where
  db := holders.foldl (fun db holder => db.incrementBalance holder "K" 10) .empty
  trades :=
    [{ price
       quantity := 20
       timestamp := revenueCycleEpochMs }]
  protocolFeeBps := none

/- A wallet claims a week after the first cycle has begun. -/
def claimOf (wallet : String) : RevenueRequest :=
  .claimRevenue { wallet, claimedAt := 0 } (revenueCycleEpochMs + getCycleDurationMs 7)

theorem revenue_conserved_sample :
    ∃ crew, RunsTo (Crew.attempt revenueClaims) (Crew.Admits Upheld)
      (revenueStart 7 (firstCycle 100 ["A", "B"]) [claimOf "A", claimOf "B"])
      (servedMoves 0 6 ++ servedMoves 1 3) crew ∧ crew.store.claimedFrom 0 = 100 ∧
      ∀ cycle ∈ crew.store.revenueCycle.rows, crew.store.claimedFrom cycle.cycleIndex ≤
        cycle.totalFeesXlm := by
  have hRun := runsTo_of_runAllowed (Option.some_get (show (runAllowed (Crew.attempt revenueClaims)
      (Crew.Admits Upheld) (revenueStart 7 (firstCycle 100 ["A", "B"])
        [claimOf "A", claimOf "B"]) (servedMoves 0 6 ++ servedMoves 1 3)).isSome =
        true by
      decide +kernel)).symm
  exact ⟨_, hRun, by decide +kernel, fun cycle hCycle => (revenue_conserved hRun cycle hCycle).1⟩

/- Ten keys are bought by a wallet. -/
def tenBought (actor : String) : TradeFields where
  direction := .buy
  creatorId := "K"
  actor := actor
  amount := 10
  price := 1
  feePaid := "0"
  tradeAt := 1
  ledger := 1
  paymentAsset := "XLM"
  txHash := "t"
  eventIndex := 0

/-
  Stake that is bought after the only staker has claimed all the
  fees claims a share of them again, and shares that are rounded
  up exceed the fees without any trade.
-/
theorem moved_stake_overdraws_cycle :
    (∃ moves crew, RunsTo (Crew.attempt revenueClaims) (fun _ _ => True)
      (revenueStart 7 (firstCycle 100 ["A"]) [claimOf "A", .onMarket
        ((processTrade sampleConfig (tenBought "B")).zoom Market.tables), claimOf "B"])
      moves crew ∧ ∃ cycle ∈ crew.store.revenueCycle.rows, cycle.totalFeesXlm <
        crew.store.claimedFrom cycle.cycleIndex) ∧ ∃ moves crew,
      RunsTo (Crew.attempt revenueClaims) (fun _ _ => True)
        (revenueStart 7 (firstCycle (1 / 10000000) ["A", "B"]) [claimOf "A", claimOf "B"])
        moves crew ∧ ∃ cycle ∈ crew.store.revenueCycle.rows, cycle.totalFeesXlm <
          crew.store.claimedFrom cycle.cycleIndex := by
  have hMoved := runsTo_of_runLabels (Option.some_get (show (runLabels (Crew.attempt revenueClaims)
      (revenueStart 7 (firstCycle 100 ["A"]) [claimOf "A", .onMarket
        ((processTrade sampleConfig (tenBought "B")).zoom Market.tables), claimOf "B"])
      (servedMoves 0 6 ++ servedMoves 1 4 ++ servedMoves 2 3)).isSome = true by
      decide +kernel)).symm
  have hRounded :=
    runsTo_of_runLabels (Option.some_get (show (runLabels (Crew.attempt revenueClaims)
      (revenueStart 7 (firstCycle (1 / 10000000) ["A", "B"]) [claimOf "A", claimOf "B"])
      (servedMoves 0 6 ++ servedMoves 1 3)).isSome =
        true by
      decide +kernel)).symm
  exact ⟨⟨_, _, hMoved, by decide +kernel⟩, ⟨_, _, hRounded, by decide +kernel⟩⟩

end Revenue

end AccessLayer
