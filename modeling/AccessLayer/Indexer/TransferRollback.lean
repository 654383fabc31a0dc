import AccessLayer.Indexer.ReorgTransparency
import AccessLayer.Indexer.ReplayedPositions
import AccessLayer.Keys.KeyTransfer

/-
  What a rollback makes of the keys that wallets have transferred
  (`src/modules/indexer/reorg-guard.service.ts`,
  `src/modules/keys/key-transfer.service.ts`).

  Transfers change balances and write no trade activity.  Calls
  run one after the other, and a ledger extends the last one.
  What is said of runs is said of those that round nothing.

  Main result: `rollback_restores_iff`
-/

-- Traded Keys
----

namespace AccessLayer

namespace Indexer

open Transactional Program Keys

section

/- What the trade activities of a wallet and a key add up to. -/
def tradedKeys (activities : List Activity) (ownerAddress creatorId : String) : ℚ :=
  ((activities.filter fun activity => activity.actor = ownerAddress &&
    (activity.creatorId = some creatorId && activity.type.isTrade)).map Activity.supplyChange).sum

def Activity.isAfter (forkPoint : Int) (activity : Activity) : Bool :=
  activity.payload.ledgerSequence?.any fun ledger => forkPoint < ledger

/- What the committed transfers have moved. -/
def netTransfers (transfers : List TransferInput) (ownerAddress creatorId : String) : ℚ :=
  (transfers.map fun input => input.moved ownerAddress creatorId).sum

variable {owner creator : String} {db : TradeDb}

theorem tradedKeys_append (xs ys : List Activity) :
    tradedKeys (xs ++ ys) owner creator =
      tradedKeys xs owner creator + tradedKeys ys owner creator := by
  rw [tradedKeys, List.filter_append, List.map_append, List.sum_append]
  rfl

theorem tradedKeys_activity (trade : TradeFields) :
    tradedKeys [trade.activity] owner creator =
      if (owner, creator) = trade.pair then trade.signedAmount else 0 := by
  have hTrade : trade.activity.type.isTrade = true := by
    unfold TradeFields.activity TradeFields.activityType
    cases trade.direction <;> rfl
  have hChange : trade.activity.supplyChange = trade.signedAmount := by
    unfold Activity.supplyChange TradeFields.activity TradeFields.activityType
      TradeFields.signedAmount
    cases trade.direction <;> rfl
  by_cases hPair : (owner, creator) = trade.pair
  · rw [if_pos hPair]
    cases hPair
    rw [tradedKeys, List.filter_cons_of_pos]
    · simp [hChange]
    · simpa [TradeFields.activity] using hTrade
  · rw [if_neg hPair, tradedKeys, List.filter_cons_of_neg]
    · rfl
    · simp only [Bool.and_eq_true, decide_eq_true_eq]
      rintro ⟨hOwner, hCreator, -⟩
      exact hPair (Prod.ext hOwner.symm (Option.some.inj hCreator).symm)

theorem tradedKeys_split (forkPoint : Int) (activities : List Activity) :
    tradedKeys activities owner creator =
      tradedKeys (activities.filter (!·.isAfter forkPoint)) owner creator +
        tradedKeys (activities.filter (·.isAfter forkPoint)) owner creator := by
  rw [add_comm, ← tradedKeys_append]
  have hParts := List.filter_append_perm (·.isAfter forkPoint) activities
  exact ((hParts.symm.filter _).map Activity.supplyChange).sum_eq

theorem balance_positionAfter {trade : TradeFields} (hExact : SubtractsExactly db trade) :
    (positionAfter trade (db.keyOwnership.find? trade.pair)).balance =
      db.balance trade.actor trade.creatorId + trade.signedAmount := by
  change _ = ((db.keyOwnership.find? trade.pair).map KeyOwnership.balance).getD 0 + _
  unfold positionAfter TradeFields.signedAmount
  cases hDirection : trade.direction with
  | buy =>
    cases db.keyOwnership.find? trade.pair with
    | none => exact (zero_add _).symm
    | some stored => rfl
  | sell =>
    cases hRow : db.keyOwnership.find? trade.pair with
    | none => exact (zero_add _).symm
    | some stored =>
      unfold soldPosition
      dsimp only
      split
      · rfl
      · rename_i hCovered
        change Doubles.sub (Doubles.number stored.balance) trade.amount = _ + _
        rw [Doubles.sub_number, hExact hDirection stored hRow (not_lt.mp hCovered), sub_eq_add_neg]
        rfl

theorem balance_processTrade (config : IndexerConfig) {trade : TradeFields}
    (hExact : SubtractsExactly db trade) :
    ((processTrade config trade).run db).2.balance owner creator =
      db.balance owner creator + tradedKeys [trade.activity] owner creator := by
  rw [TradeDb.balance, find?_processTrade, tradedKeys_activity]
  by_cases hPair : (owner, creator) = trade.pair
  · rw [if_pos hPair, if_pos hPair]
    cases hPair
    exact balance_positionAfter hExact
  · rw [if_neg hPair, if_neg hPair, add_zero, TradeDb.balance]

-- Calls
----

/- Balances are what the trades and some transfers add up to. -/
def Accounted (transfers : List TransferInput) (db : TradeDb) : Prop :=
  ∀ owner creator, db.balance owner creator =
    tradedKeys db.activity owner creator + netTransfers transfers owner creator

structure MixedState where
  db : Database
  transfers : List TransferInput

inductive MixedCall where
  | ingest (ledger : Ledger)
  | transfer (input : TransferInput)

/- A ledger may fail to be processed, and a transfer may throw. -/
def MixedState.step (config : GuardConfig) (fetchHeader : Option (Int → Option LedgerHeader))
    (fetchEvents : Option (Int → List IndexerChainEvent)) (state : MixedState) :
    MixedCall → Option MixedState
  | .ingest ledger =>
    if diverges ledger.header (state.db.chain.checkpoint? (ledger.header.sequence - 1)) then none
    else some { state with
        db :=
          ((ingestLedger config (pipelineDeps config fetchHeader fetchEvents) ledger.header
            ledger.events).run state.db).2 }
  | .transfer input =>
    match (transferKeys input).alone state.db.trade with
    | .ok (_, trade) =>
      some { db := { state.db with trade }, transfers := state.transfers ++ [input] }
    | .error _ => some state

variable {config : GuardConfig} {fetchHeader : Option (Int → Option LedgerHeader)}
variable {fetchEvents : Option (Int → List IndexerChainEvent)} {transfers : List TransferInput}

/- Sales of an ingested ledger are subtracted without rounding. -/
def MixedCall.Exact (config : GuardConfig) (state : MixedState) : MixedCall → Prop
  | .ingest ledger =>
    EachReached config.indexer SubtractsExactly state.db.trade
      (tradesIn (dedupeChainEvents ledger.events))
  | .transfer _ => True

instance (config : GuardConfig) (state : MixedState) (call : MixedCall) :
    Decidable (call.Exact config state) := by
  unfold MixedCall.Exact
  split <;> infer_instance

theorem Accounted.processTrade (hAccounted : Accounted transfers db) (config : IndexerConfig)
    {trade : TradeFields} (hExact : SubtractsExactly db trade) :
    Accounted transfers ((processTrade config trade).run db).2 := by
  intro owner creator
  rw [balance_processTrade config hExact, activity_processTrade, tradedKeys_append,
    hAccounted owner creator]
  exact add_right_comm _ _ _

theorem Accounted.transfer {input : TransferInput} {result : TransferResult} {db' : TradeDb}
    (hAccounted : Accounted transfers db)
    (hOk : (transferKeys input).alone db = .ok (result, db')) :
    Accounted (transfers ++ [input]) db' := by
  rcases apply_of_alone hOk with ⟨hSender, rfl⟩
  intro owner creator
  have hNet : netTransfers (transfers ++ [input]) owner creator =
      netTransfers transfers owner creator + input.moved owner creator := by
    rw [netTransfers, List.map_append, List.sum_append, List.map_singleton, List.sum_singleton]
    rfl
  rw [balance_apply hSender, hAccounted owner creator, hNet, ← add_assoc]
  rfl

theorem accounted_step {state state' : MixedState} {call : MixedCall}
    (hAccounted : Accounted state.transfers state.db.trade) (hExact : call.Exact config state)
    (hStep : state.step config fetchHeader fetchEvents call = some state') :
    Accounted state'.transfers state'.db.trade := by
  cases call with
  | ingest ledger =>
    unfold MixedState.step at hStep
    dsimp only at hStep
    split at hStep
    · cases hStep
    · rename_i hClean
      cases hStep
      rw [run_ingestLedger_clean (Bool.not_eq_true _ ▸ hClean)]
      have hTrades := EachReached.processTradeEvents (I := Accounted state.transfers)
          (fun _ _ hKept hSold => hKept.processTrade config.indexer hSold) (fun _ _ hs => hs)
          hAccounted hExact
      unfold pipelineDeps
      split
      · rename_i hRun
        rw [hRun] at hTrades
        exact hTrades
      · rename_i hRun
        rw [hRun] at hTrades
        exact hTrades
  | transfer input =>
    unfold MixedState.step at hStep
    dsimp only at hStep
    split at hStep
    · rename_i hOk
      cases hStep
      exact hAccounted.transfer hOk
    · cases hStep
      exact hAccounted

-- Rebuilt Positions
----

/- Trades that add up without rounding are replayed exactly. -/
theorem balance_replay {activities : List Activity} {position : ReplayedPosition}
    (hAdds : Doubles.AddsUp position.balance (activities.map Activity.supplyChange)) :
    (activities.foldl ReplayedPosition.apply position).balance =
      position.balance + (activities.map Activity.supplyChange).sum := by
  induction activities generalizing position with
  | nil => exact (add_zero _).symm
  | cons activity rest ih =>
    rcases hAdds with ⟨hFirst, hRest⟩
    have hApply : (position.apply activity).balance =
        position.balance + activity.supplyChange := by
      rw [← hFirst]
      unfold ReplayedPosition.apply
      dsimp only
      split
      · rename_i hZero
        rw [hFirst, Activity.supplyChange, hZero, neg_zero, ite_self, add_zero]
      · unfold Activity.supplyChange
        dsimp only
        split
        · rfl
        · split <;> exact Doubles.sub_eq_add_neg _ _
    rw [List.foldl_cons, ih (hApply ▸ hRest), hApply, List.map_cons, List.sum_cons, add_assoc]

/- The history of a wallet and a key adds up without rounding. -/
def HistoryAddsUp (db : TradeDb) (pair : String × String) : Prop :=
  Doubles.AddsUp 0 ((db.historyOf pair.1 pair.2).map Activity.supplyChange)

instance (db : TradeDb) (pair : String × String) : Decidable (HistoryAddsUp db pair) :=
  inferInstanceAs (Decidable (Doubles.AddsUp _ _))

theorem balance_historyOf (hAdds : HistoryAddsUp db (owner, creator)) :
    ((db.historyOf owner creator).foldl ReplayedPosition.apply .flat).balance =
      tradedKeys db.activity owner creator := by
  have hReplay := @balance_replay (db.historyOf owner creator) .flat hAdds
  rw [hReplay, tradedKeys, ← List.filter_filter]
  exact (zero_add _).trans ((List.perm_insertionSort _ _).map _).sum_eq

theorem balance_rebuild {ownerAddress creatorId : String}
    (hAdds : HistoryAddsUp db (ownerAddress, creatorId)) :
    (rebuildOwnershipPosition db ownerAddress creatorId).balance owner creator =
      if (owner, creator) = (ownerAddress, creatorId) then tradedKeys db.activity owner creator
      else db.balance owner creator := by
  have hReplay := balance_historyOf hAdds
  unfold rebuildOwnershipPosition
  dsimp only
  split
  · rename_i hNone
    rw [hNone.2] at hReplay
    split
    · rename_i hPair
      cases hPair
      rw [← hReplay, TradeDb.balance, hNone.1]
      rfl
    · rfl
  · unfold TradeDb.upsertOwnership TradeDb.balance
    rw [Table.find?_upsert]
    change (Option.map _ (if (owner, creator) = (ownerAddress, creatorId) then _ else _)).getD 0 = _
    split
    · rename_i hPair
      cases hPair
      rw [← hReplay]
      cases db.keyOwnership.find? (owner, creator) with
      | none => rfl
      | some row => rfl
    · rfl

theorem activity_rebuild (ownerAddress creatorId : String) :
    (rebuildOwnershipPosition db ownerAddress creatorId).activity = db.activity := by
  unfold rebuildOwnershipPosition
  dsimp only
  split <;> rfl

theorem HistoryAddsUp.congr {db' : TradeDb} {pair : String × String}
    (hAdds : HistoryAddsUp db pair) (hActivity : db'.activity = db.activity) :
    HistoryAddsUp db' pair := by
  unfold HistoryAddsUp TradeDb.historyOf TradeDb.tradesOf at hAdds ⊢
  rwa [hActivity]

theorem balance_restorePositions (events : List IngestedEvent) {pairs : List (String × String)}
    (hAdds : ∀ pair ∈ pairs, HistoryAddsUp db pair) :
    (pairs.foldl (restorePosition events) db).balance owner creator =
      if (owner, creator) ∈ pairs then tradedKeys db.activity owner creator
      else db.balance owner creator := by
  induction pairs generalizing db with
  | nil => exact (if_neg List.not_mem_nil).symm
  | cons pair rest ih =>
    have hActivity : (restorePosition events db pair).activity = db.activity :=
      activity_rebuild pair.1 pair.2
    have hBalance : (restorePosition events db pair).balance owner creator =
        if (owner, creator) = pair then tradedKeys db.activity owner creator
        else db.balance owner creator := balance_rebuild (hAdds pair List.mem_cons_self)
    rw [List.foldl_cons, ih fun p hp => (hAdds p (List.mem_cons_of_mem _ hp)).congr hActivity,
      hActivity, hBalance]
    by_cases hLater : (owner, creator) ∈ rest
    · rw [if_pos hLater, if_pos (List.mem_cons_of_mem _ hLater)]
    · rw [if_neg hLater]
      refine if_congr ?_ rfl rfl
      rw [List.mem_cons, or_iff_left hLater]

theorem keyOwnership_restoreSupplies {config : IndexerConfig} {creators : List String}
    {db' : TradeDb} (hOk : creators.foldlM (restoreSupply config) db = .ok db') :
    db'.keyOwnership = db.keyOwnership := by
  induction creators generalizing db with
  | nil =>
    cases hOk
    rfl
  | cons creatorId rest ih =>
    rw [List.foldlM_cons] at hOk
    cases hFirst : restoreSupply config db creatorId with
    | error e =>
      rw [hFirst] at hOk
      cases hOk
    | ok restored =>
      rw [hFirst] at hOk
      refine (ih hOk).trans ?_
      unfold restoreSupply at hFirst
      split at hFirst <;> cases hFirst
      rfl

theorem tradedKeys_deleteTradeHistory (forkPoint : Int) :
    tradedKeys (deleteTradeHistory forkPoint db).activity owner creator =
      tradedKeys (db.activity.filter (!·.isAfter forkPoint)) owner creator := by
  unfold tradedKeys deleteTradeHistory
  rw [List.filter_filter, List.filter_filter]
  congr 2
  apply List.filter_congr
  intro activity _
  unfold Activity.isAfter
  cases activity.type.isTrade
  · simp
  · rw [Bool.true_and]

/- Affected positions lose what was transferred. -/
theorem balance_rollbackTrades {config : IndexerConfig} {forkPoint : Int}
    {events : List IngestedEvent} {db' : TradeDb}
    (hOk : rollbackTrades config forkPoint events db = .ok db')
    (hAdds : ∀ pair ∈ affectedPairs events,
      HistoryAddsUp (deleteTradeHistory forkPoint db) pair) :
    db'.balance owner creator =
      if (owner, creator) ∈ affectedPairs events then
        tradedKeys (db.activity.filter (!·.isAfter forkPoint)) owner creator
      else db.balance owner creator := by
  have hPriced (creators : List String) (db : TradeDb) :
      (creators.foldl (restorePrices events) db).activity = db.activity ∧
        (creators.foldl (restorePrices events) db).keyOwnership = db.keyOwnership := by
    induction creators generalizing db with
    | nil => exact ⟨rfl, rfl⟩
    | cons creatorId rest ih => exact ih (restorePrices events db creatorId)
  rw [TradeDb.balance, keyOwnership_restoreSupplies hOk, ← TradeDb.balance,
    balance_restorePositions events fun pair hPair => (hAdds pair hPair).congr (hPriced _ _).1,
    (hPriced _ _).1, tradedKeys_deleteTradeHistory, TradeDb.balance,
    (hPriced _ _).2]
  rfl

/- What trades up to the fork point and transfers add up to. -/
def Restored (forkPoint : Int) (state : MixedState) (db : TradeDb) : Prop :=
  ∀ owner creator, db.balance owner creator =
    tradedKeys (state.db.trade.activity.filter (!·.isAfter forkPoint)) owner creator +
      netTransfers state.transfers owner creator

/-
  No position that is rebuilt has a net transfer, and what was
  traded later in the others cancels out, as where nothing was.
-/
def NoneLost (forkPoint : Int) (state : MixedState) : Prop :=
  ∀ owner creator,
    if (owner, creator) ∈ affectedPairs (reorgedEventsOf forkPoint state.db.chain) then
      netTransfers state.transfers owner creator = 0
    else tradedKeys (state.db.trade.activity.filter (·.isAfter forkPoint)) owner creator = 0

/- The surviving trades of each rebuilt position add up without rounding. -/
def ReplaysAddUp (forkPoint : Int) (state : MixedState) : Prop :=
  ∀ pair ∈ affectedPairs (reorgedEventsOf forkPoint state.db.chain),
    HistoryAddsUp (deleteTradeHistory forkPoint state.db.trade) pair

instance (forkPoint : Int) (state : MixedState) : Decidable (ReplaysAddUp forkPoint state) :=
  inferInstanceAs (Decidable (∀ pair ∈ _, _))

/-
  In runs that round nothing, a rollback restores what trades and
  transfers add up to if and only if no transfer is lost.
-/
theorem rollback_restores_iff {start : Database} {calls : List MixedCall} {state : MixedState}
    {forkPoint : Int} {counts : RollbackCounts} {db' : Database} (hStart : Accounted [] start.trade)
    (hRun : RunsTo (MixedState.step config fetchHeader fetchEvents)
      (fun state call => call.Exact config state) { db := start, transfers := [] } calls state)
    (hReplays : ReplaysAddUp forkPoint state)
    (hOk : rollbackToLedger config.indexer forkPoint state.db = .ok (counts, db')) :
    Restored forkPoint state db'.trade ↔ NoneLost forkPoint state := by
  have hAccounted : Accounted state.transfers state.db.trade :=
    RunsTo.invariant (I := fun s => Accounted s.transfers s.db.trade) hStart
      (fun _ _ _ hKept hExact hStep => accounted_step hKept hExact hStep) hRun
  have hTrades : rollbackTrades config.indexer forkPoint (reorgedEventsOf forkPoint state.db.chain)
      state.db.trade = .ok db'.trade := by
    unfold rollbackToLedger at hOk
    cases hResult : rollbackTrades config.indexer forkPoint
      (reorgedEventsOf forkPoint state.db.chain) state.db.trade with
    | error e =>
      simp only [hResult, bind, Except.bind] at hOk
      cases hOk
    | ok trade =>
      simp only [hResult, bind, Except.bind] at hOk
      cases hOk
      rfl
  refine forall_congr' fun owner => forall_congr' fun creator => ?_
  rw [balance_rollbackTrades hTrades hReplays]
  split
  · exact left_eq_add
  · rw [hAccounted owner creator, tradedKeys_split forkPoint, add_assoc, add_right_inj,
      add_eq_right]

/- A ledger with one purchase of one key. -/
def openLedger (sequence : Int) : Ledger where
  header := { sequence, hash := toString sequence, previousLedgerHash := none }
  events := [sampleBuy (toString sequence) sequence]

/- A key changes hands between two purchases of the sender. -/
def sampleCalls : List MixedCall :=
  [.ingest (openLedger 1), .transfer { sampleTransfer "B" with quantity := 1 },
    .ingest (openLedger 2)]

theorem run_sampleCalls :
    ∃ state counts db', RunsTo (MixedState.step sampleGuard none none)
      (fun state call => call.Exact sampleGuard state) { db := freshDatabase, transfers := [] }
      sampleCalls state ∧
      rollbackToLedger sampleConfig 1 state.db = .ok (counts, db') ∧ ReplaysAddUp 1 state ∧
      db'.trade.balance "A" "K" = 1 ∧
      tradedKeys (state.db.trade.activity.filter (!·.isAfter 1)) "A" "K" +
        netTransfers state.transfers "A" "K" = 0 := by
  have hRun :
      (runAllowed (MixedState.step sampleGuard none none)
        (fun state call => call.Exact sampleGuard state) { db := freshDatabase, transfers := [] }
        sampleCalls).any (fun state : MixedState =>
          ((rollbackToLedger sampleConfig 1 state.db).toOption.any fun result =>
            result.2.trade.balance "A" "K" = 1) && decide (ReplaysAddUp 1 state ∧
          tradedKeys (state.db.trade.activity.filter (!·.isAfter 1)) "A" "K" +
            netTransfers state.transfers "A" "K" = 0)) = true := by decide +kernel
  rcases (Option.any_eq_true _ _).mp hRun with ⟨state, hState, hBoth⟩
  rw [Bool.and_eq_true] at hBoth
  rcases (Option.any_eq_true _ _).mp hBoth.1 with ⟨⟨counts, db'⟩, hOk, hBalance⟩
  rcases of_decide_eq_true hBoth.2 with ⟨hReplays, hSum⟩
  refine ⟨state, counts, db', runsTo_of_runAllowed hState, ?_, hReplays,
    of_decide_eq_true hBalance, hSum⟩
  cases hResult : rollbackToLedger sampleConfig 1 state.db with
  | error e =>
    rw [hResult] at hOk
    cases hOk
  | ok result =>
    rw [hResult] at hOk
    exact congrArg Except.ok (Option.some.inj hOk)

theorem rollback_restores_sample :
    ∃ state counts db', rollbackToLedger sampleConfig 1 state.db = .ok (counts, db') ∧
      (Restored 1 state db'.trade ↔ NoneLost 1 state) := by
  rcases run_sampleCalls with ⟨state, counts, db', hRun, hOk, hReplays, -⟩
  exact ⟨state, counts, db', hOk,
    rollback_restores_iff (fun _ _ => (add_zero _).symm) hRun hReplays hOk⟩

/-
  A wallet buys one key, transfers it and buys another one.  The
  rollback of the second purchase gives the first key back.
-/
theorem transferred_key_returned :
    ∃ state counts db', RunsTo (MixedState.step sampleGuard none none) (fun _ _ => True)
      { db := freshDatabase, transfers := [] } sampleCalls state ∧
      rollbackToLedger sampleConfig 1 state.db = .ok (counts, db') ∧
      ¬Restored 1 state db'.trade := by
  rcases run_sampleCalls with ⟨state, counts, db', hRun, hOk, -, hBalance, hSum⟩
  refine ⟨state, counts, db', hRun.mono fun _ _ _ => trivial, hOk, fun hRestored => ?_⟩
  have hSame := hRestored "A" "K"
  rw [hBalance, hSum] at hSame
  exact absurd hSame one_ne_zero

end

end Indexer

end AccessLayer
