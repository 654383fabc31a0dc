import AccessLayer.Library.Grouped
import AccessLayer.Indexer.Dispatch
import AccessLayer.Indexer.Dividends
import Mathlib.Data.List.Pairwise

/-
  Where a list of events is cut into batches.

  Inside a batch the events are handled stage by stage, across
  batches they are handled in chain order.  The handlers of the
  stages are any programs that run one event after the other;
  those of trades and distributions are the ones of the source.

  Main result: `batch_boundary_iff`
-/

-- Deduplication of Two Batches
----

namespace AccessLayer

namespace Indexer

section

variable {π : Type}

namespace PipelineEvent

variable {seen : List String} {events : List (PipelineEvent π)}

theorem dedupeFrom_congr {seen' : List String}
    (h : ∀ event ∈ events, event.id ∈ seen ↔ event.id ∈ seen') :
    dedupeFrom seen events = dedupeFrom seen' events := by
  induction events generalizing seen seen' with
  | nil => rfl
  | cons event rest ih =>
    have hHead := h event List.mem_cons_self
    rw [dedupeFrom, dedupeFrom]
    by_cases hSeen : event.id ∈ seen
    · rw [if_pos hSeen, if_pos (hHead.mp hSeen)]
      exact ih fun e he => h e (List.mem_cons_of_mem _ he)
    · rw [if_neg hSeen, if_neg (mt hHead.mpr hSeen)]
      congr 1
      apply ih
      intro e he
      simp only [List.mem_cons]
      rw [h e (List.mem_cons_of_mem _ he)]

theorem dedupeFrom_append (seen : List String) (events events' : List (PipelineEvent π)) :
    ∃ seen', (∀ id, id ∈ seen' ↔ id ∈ seen ∨ id ∈ events.map PipelineEvent.id) ∧
      dedupeFrom seen (events ++ events') =
        dedupeFrom seen events ++ dedupeFrom seen' events' := by
  induction events generalizing seen with
  | nil => exact ⟨seen, by simp, rfl⟩
  | cons event rest ih =>
    by_cases hSeen : event.id ∈ seen
    · rcases ih seen with ⟨seen', hIds, hEq⟩
      refine ⟨seen', ?_, ?_⟩
      · intro id
        rw [hIds, List.map_cons, List.mem_cons]
        constructor
        · rintro (hOld | hNew)
          · exact Or.inl hOld
          · exact Or.inr (Or.inr hNew)
        · rintro (hOld | rfl | hNew)
          · exact Or.inl hOld
          · exact Or.inl hSeen
          · exact Or.inr hNew
      · rw [List.cons_append, dedupeFrom, if_pos hSeen, dedupeFrom, if_pos hSeen, hEq]
    · rcases ih (event.id :: seen) with ⟨seen', hIds, hEq⟩
      refine ⟨seen', ?_, ?_⟩
      · intro id
        rw [hIds, List.map_cons, List.mem_cons, List.mem_cons]
        tauto
      · rw [List.cons_append, dedupeFrom, if_neg hSeen,
          dedupeFrom, if_neg hSeen, hEq, List.cons_append]

theorem mem_of_mem_dedupeFrom {event : PipelineEvent π} (hMem : event ∈ dedupeFrom seen events) :
    event ∈ events := by
  induction events generalizing seen with
  | nil => cases hMem
  | cons first rest ih =>
    rw [dedupeFrom] at hMem
    split at hMem
    · exact List.mem_cons_of_mem _ (ih hMem)
    · rcases List.mem_cons.mp hMem with rfl | hLater
      · exact List.mem_cons_self
      · exact List.mem_cons_of_mem _ (ih hLater)

/- Two batches that share no event are deduplicated apart. -/
theorem dedupe_append {events' : List (PipelineEvent π)}
    (hApart : ∀ event ∈ events, ∀ event' ∈ events', event.id ≠ event'.id) :
    dedupe (events ++ events') = dedupe events ++ dedupe events' := by
  rcases dedupeFrom_append [] events events' with ⟨seen, hIds, hEq⟩
  unfold dedupe
  rw [hEq]
  congr 1
  apply dedupeFrom_congr
  intro event' hEvent'
  rw [hIds]
  constructor
  · rintro (hOld | hNew)
    · exact hOld
    · rcases List.mem_map.mp hNew with ⟨event, hEvent, hId⟩
      exact absurd hId (hApart event hEvent event' hEvent')
  · intro hOld
    cases hOld

end PipelineEvent

end

-- One Stage for Each Type
----

/- All types that a stage is given. -/
def Stage.types : Stage → List String
  | .invoiceProtocol =>
    invoiceProtocolEventTypes ++
      ["ISSUER_SCORE_UPDATED", "REPORT_SUBMITTED", "REPORT_RESOLVED", "CHANGE_PROPOSED",
        "CHANGE_EXECUTED", "CHANGE_CANCELLED", "TRANSFER_BLOCKED"]
  | .spotlightBid =>
    ["SpotlightBidPlaced", "SPOTLIGHT_BID_PLACED", "SpotlightAwarded", "SPOTLIGHT_AWARDED"]
  | .socialMetadata => ["SOCIAL_METADATA_UPDATED"]
  | .twap => ["TWAP_UPDATED", "TWAPUpdated"]
  | .keySnapshot => ["SNAPSHOT_TAKEN", "SnapshotTaken"]
  | .keyDepth => ["DEPTH_UPDATED", "DepthUpdated"]
  | .keyLeaderboard => ["LEADERBOARD_UPDATED", "LeaderboardUpdated"]
  | .whitelist =>
    ["WalletWhitelisted", "WALLET_WHITELISTED",
      "WHITELIST_ADDED", "WalletRemovedFromWhitelist",
      "WALLET_REMOVED_FROM_WHITELIST", "WHITELIST_REMOVED"]
  | .governance =>
    ["PROPOSAL_CREATED", "ProposalCreated", "VOTE_CAST",
      "VoteCast", "PROPOSAL_EXECUTED", "ProposalExecuted"]
  | .subscription => ["SubscriptionCreated", "SUBSCRIPTION_CREATED"]
  | .keyPoll =>
    ["PollCreated", "POLL_CREATED", "PollVoteCast", "POLL_VOTE_CAST", "PollClosed", "POLL_CLOSED"]
  | .curveUpdate => curveUpdateEventTypes
  | .milestoneClaim => milestoneRewardClaimedEventTypes
  | .keyRetirement => keyRetirementEventTypes
  | .keyLaunchAuction => keyLaunchAuctionEventTypes
  | .trades => ["KEY_BOUGHT", "KEY_SOLD"]
  | .dividends =>
    ["DividendSnapshotCreated", "DIVIDEND_SNAPSHOT_CREATED", "DIVIDEND_DISTRIBUTED",
      "DividendClaimed", "DIVIDEND_CLAIMED"]
  | .revenueShare =>
    ["RevenueDistributed", "REVENUE_DISTRIBUTED",
      "RevenueShareClaimed", "REVENUE_SHARE_CLAIMED"]
  | .lp =>
    ["LP_ADDED", "LP_CLAIMED", "LP_REMOVED",
      "LiquidityAdded", "RewardsClaimed", "LiquidityRemoved"]
  | .coCreator =>
    ["CO_CREATOR_ADDED", "CoCreatorAdded", "CO_CREATOR_SET", "CoCreatorSet", "co_set",
      "CO_CREATOR_REMOVED", "CoCreatorRemoved", "cc_rm"]
  | .reserve => ["RESERVE_ACCRUED", "ReserveAccrued", "RESERVE_DEPLOYED", "ReserveDeployed"]
  | .tip => ["TIP_SENT", "TipSent", "tip"]
  | .treasury => feeReceivedEventTypes ++ fundsAllocatedEventTypes
  | .earlySlot => earlySlotFilledEventTypes
  | .issuerVerification => verificationGrantedEventTypes ++ verificationRevokedEventTypes
  | .healthScore => healthScoreUpdatedEventTypes
  | .badgeMinted => badgeMintedEventTypes

theorem nodup_types : (Stage.all.flatMap Stage.types).Nodup := by
  decide +kernel

theorem mem_types_of_invoice {type : String} (hInvoice : isInvoiceEventType type = true) :
    type ∈ Stage.invoiceProtocol.types := by
  have hNamed := of_decide_eq_true hInvoice
  unfold canonicalInvoiceEventType at hNamed
  cases hFind : invoiceProtocolEventTypes.find? fun name =>
    (String.ofList (splitWords name.toList)).toUpper = type with
  | none =>
    rw [hFind] at hNamed
    exact List.mem_append_left _ hNamed
  | some name =>
    have hUpper : (String.ofList (splitWords name.toList)).toUpper = type := by
      simpa using List.find?_some hFind
    have hAll : ∀ name ∈ invoiceProtocolEventTypes,
        (String.ofList (splitWords name.toList)).toUpper ∈ Stage.invoiceProtocol.types := by
      decide +kernel
    rw [← hUpper]
    exact hAll name (List.mem_of_find?_eq_some hFind)

theorem Stage.mem_types_of_routes {stage : Stage} {type : String}
    (hRoutes : stage.routes type = true) : type ∈ stage.types := by
  cases stage with
  | invoiceProtocol => exact mem_types_of_invoice hRoutes
  | lp =>
    simp only [routes, isLpEventType, Bool.or_eq_true, decide_eq_true_eq] at hRoutes
    unfold normalizeEventType at hRoutes
    split at hRoutes <;> simp_all [types, or_assoc]
  | trades => simpa [routes, types, isTradeEvent] using hRoutes
  | socialMetadata => simpa [routes, types] using hRoutes
  | _ => exact of_decide_eq_true hRoutes

/- No type is given to two stages. -/
theorem Stage.eq_of_routes {stage other : Stage} {type : String}
    (hRoutes : stage.routes type = true) (hOther : other.routes type = true) : stage = other := by
  by_contra hDifferent
  have hDisjoint := (List.nodup_flatMap.mp nodup_types).2
  have : Std.Symm (Function.onFun List.Disjoint Stage.types) := ⟨fun _ _ => List.disjoint_symm⟩
  exact hDisjoint.forall (Stage.mem_all stage) (Stage.mem_all other) hDifferent
    (Stage.mem_types_of_routes hRoutes) (Stage.mem_types_of_routes hOther)

-- Calls of the Handlers
----

section

open Transactional Program Grouped

variable {σ π : Type}

def Stage.handled (stage : Stage) (events : List (PipelineEvent π)) : List (PipelineEvent π) :=
  stage.unique (stage.routed events)

/- The calls that some stages make, in order. -/
def callsOf (events : List (PipelineEvent π))
    (stages : List Stage) : List (Stage × PipelineEvent π) :=
  grouped stages fun stage => stage.handled events

/- The calls that a batch makes. -/
def calls (events : List (PipelineEvent π)) : List (Stage × PipelineEvent π) :=
  callsOf events Stage.all

variable (handle : Stage → PipelineEvent π → Program σ IndexerError Unit)

def runCalls (made : List (Stage × PipelineEvent π)) : Program σ IndexerError Unit :=
  forEach (fun call => handle call.1 call.2) made

variable {handle}

theorem run_runCalls_append (made made' : List (Stage × PipelineEvent π)) (tables : σ) :
    (runCalls handle (made ++ made')).run tables =
      match (runCalls handle made).run tables with
      | (.ok _, tables') => (runCalls handle made').run tables'
      | (.error e, tables') => (.error e, tables') := by
  unfold runCalls
  rw [run_forEach_append]
  cases (forEach (fun call => handle call.1 call.2) made).run tables with
  | mk result tables' =>
    cases result with
    | ok _ => rfl
    | error e => rfl

theorem handled_of_routed_nil {stage : Stage} {events : List (PipelineEvent π)}
    (hNone : stage.routed events = []) :
    stage.handled events = [] := by
  unfold Stage.handled Stage.unique
  rw [hNone]
  split <;> rfl

theorem runCalls_stage (stage : Stage) (events : List (PipelineEvent π)) :
    runCalls handle (events.map (stage, ·)) = forEach (handle stage) events := by
  induction events with
  | nil => rfl
  | cons event rest ih =>
    change (handle stage event >>= fun _ => runCalls handle (rest.map (stage, ·))) =
      (handle stage event >>= fun _ => forEach (handle stage) rest)
    rw [ih]

theorem run_runStage (events : List (PipelineEvent π)) (stage : Stage) (db : PipelineDb σ) :
    (runStage (sequential handle) events stage).run db = ((runCalls handle
      ((stage.handled events).map (stage, ·))).zoom PipelineDb.tablesPart).run db := by
  unfold runStage
  split
  · rename_i hNone
    rw [handled_of_routed_nil hNone, run_zoom]
    rfl
  · rename_i first rest hRouted
    rw [← hRouted, runCalls_stage]
    rfl

/- The stages together make the calls of the batch. -/
theorem run_stages (events : List (PipelineEvent π)) (stages : List Stage) (db : PipelineDb σ) :
    (forEach (runStage (sequential handle) events) stages).run db =
      ((runCalls handle (callsOf events stages)).zoom PipelineDb.tablesPart).run db := by
  induction stages generalizing db with
  | nil => simp [callsOf, grouped, runCalls, PipelineDb.tablesPart]
  | cons stage rest ih =>
    rw [forEach, run_bind, run_runStage, run_zoom, run_zoom]
    have hSplit : callsOf events (stage :: rest) = (stage.handled events).map (stage, ·) ++
        callsOf events rest := rfl
    rw [hSplit, run_runCalls_append]
    cases hRun :
      (runCalls handle ((stage.handled events).map (stage, ·))).run
        (PipelineDb.tablesPart.get db) with
    | mk result tables =>
      cases result with
      | ok _ =>
        dsimp only
        rw [ih, run_zoom]
        rfl
      | error e => rfl

/- What a batch leaves behind. -/
theorem run_processIndexerEvents (asOf : Int) (events : List (PipelineEvent π))
    (db : PipelineDb σ) :
    (processIndexerEvents (sequential handle) asOf true events).run db =
      match (runCalls handle (calls events)).run db.tables with
      | (.ok _, tables) =>
        (.ok (),
          { tables
            atomicSwap := db.atomicSwap.map (AtomicSwap.expire asOf)
            indexedLedger :=
              match batchLedger (PipelineEvent.chain events) with
              | some ledger => some ⟨ledger, toString ledger ++ "-000"⟩
              | none => db.indexedLedger })
      | (.error e, tables) => (.error e, { db with tables }) := by
  unfold processIndexerEvents
  rw [run_bind, run_stages, run_zoom]
  cases hRun : (runCalls handle (calls events)).run db.tables with
  | mk result tables =>
    have hStages : (runCalls handle (callsOf events Stage.all)).run (PipelineDb.tablesPart.get db) =
        (result, tables) := hRun
    rw [hStages]
    cases result with
    | error e => rfl
    | ok _ =>
      cases hLedger : batchLedger (PipelineEvent.chain events) with
      | none =>
        simp [advanceCursorForBatch, markExpiredSwaps, checkpointHighestLedger, hLedger,
          PipelineDb.tablesPart]
      | some ledger =>
        simp [advanceCursorForBatch, markExpiredSwaps, checkpointHighestLedger, hLedger,
          upsertIndexedLedger, PipelineDb.tablesPart, PipelineDb.cursorPart]

end

-- Batch Boundaries
----

section

open Transactional Program Grouped

variable {σ π : Type}

/- Two runs answer alike and leave the same tables; when they return, also the same swaps. -/
def SameOutcome (a b : Except IndexerError Unit × PipelineDb σ) : Prop :=
  a.1 = b.1 ∧ a.2.tables = b.2.tables ∧ (a.1 = .ok () → a.2.atomicSwap = b.2.atomicSwap)

/- Two consecutive batches, each with its own time. -/
def processBoth (handle : Stage → PipelineEvent π → Program σ IndexerError Unit) (asOf asOf' : Int)
    (first second : List (PipelineEvent π)) : PipelineM σ Unit := do
  processIndexerEvents (sequential handle) asOf true first
  processIndexerEvents (sequential handle) asOf' true second

variable (handle : Stage → PipelineEvent π → Program σ IndexerError Unit)

/- The cut makes no difference to the tables. -/
def BoundaryIndependent (first second : List (PipelineEvent π)) : Prop :=
  ∀ (asOf asOf' : Int) (db : PipelineDb σ), asOf ≤ asOf' → SameOutcome
    ((processIndexerEvents (sequential handle) asOf' true (first ++ second)).run db)
    ((processBoth handle asOf asOf' first second).run db)

/- In either order, two handlers answer alike and leave the same tables. -/
def Commute (handler handler' : Program σ IndexerError Unit) : Prop :=
  ∀ tables, (handler >>= fun _ => handler').run tables = (handler' >>= fun _ => handler).run tables

/-
  Where an event of the second batch belongs to an earlier stage
  than one of the first, their handlers commute.
-/
def CommuteAcross (first second : List (PipelineEvent π)) : Prop :=
  ∀ event ∈ first, ∀ event' ∈ second, ∀ earlier later : Stage, earlier.number < later.number →
    later.routes event.eventType → earlier.routes event'.eventType →
      Commute (handle later event) (handle earlier event')

variable {handle}

variable {first second : List (PipelineEvent π)}

theorem routed_append (stage : Stage) :
    stage.routed (first ++ second) = stage.routed first ++ stage.routed second :=
  List.filter_append _ _

variable {stage : Stage}

theorem handled_append (hDistinct : ∀ event ∈ stage.routed first, ∀ event' ∈ stage.routed second,
    event.id ≠ event'.id) :
    stage.handled (first ++ second) = stage.handled first ++ stage.handled second := by
  unfold Stage.handled Stage.unique
  rw [routed_append]
  split
  · exact PipelineEvent.dedupe_append hDistinct
  · rfl

theorem mem_of_mem_handled {event : PipelineEvent π} {events : List (PipelineEvent π)}
    (hMem : event ∈ stage.handled events) :
    event ∈ events ∧ stage.routes event.eventType = true := by
  unfold Stage.handled Stage.unique at hMem
  split at hMem
  · exact List.mem_filter.mp (PipelineEvent.mem_of_mem_dedupeFrom hMem)
  · exact List.mem_filter.mp hMem

/- Distinct events are deduplicated apart. -/
theorem calls_append (hDistinct : ∀ event ∈ first, ∀ event' ∈ second, event.id ≠ event'.id) :
    calls (first ++ second) =
      grouped Stage.all fun stage => stage.handled first ++ stage.handled second := by
  unfold calls callsOf
  congr 1
  funext stage
  apply handled_append
  intro event hEvent event' hEvent'
  exact hDistinct event (List.mem_filter.mp hEvent).1 event' (List.mem_filter.mp hEvent').1

/- Commuting calls may be rearranged. -/
theorem runCalls_rearranged {made made' : List (Stage × PipelineEvent π)}
    (hRearranged : Rearranged (fun call call' =>
      Commute (handle call'.1 call'.2) (handle call.1 call.2)) made made')
    (tables : σ) : (runCalls handle made).run tables = (runCalls handle made').run tables := by
  induction hRearranged generalizing tables with
  | refl => rfl
  | trans _ _ ihFirst ihSecond => exact (ihFirst tables).trans (ihSecond tables)
  | @swap before after call call' hCommute =>
    have hPair : ∀ tables, (runCalls handle (call :: call' :: after)).run tables =
        (runCalls handle (call' :: call :: after)).run tables := by
      intro tables
      have hSame := hCommute tables
      have hSplit : ∀ a b : Stage × PipelineEvent π, runCalls handle (a :: b :: after) =
          ((handle a.1 a.2 >>= fun _ => handle b.1 b.2) >>= fun _ => runCalls handle after) :=
        fun a b => (bind_bind _ _ _).symm
      rw [hSplit, hSplit, run_bind, ← hSame, ← run_bind]
    rw [run_runCalls_append, run_runCalls_append]
    cases (runCalls handle before).run tables with
    | mk result tables' =>
      cases result with
      | error e => rfl
      | ok _ => exact hPair tables'

theorem expire_expire {asOf asOf' : Int} (hLe : asOf ≤ asOf') (swap : AtomicSwap) :
    (swap.expire asOf).expire asOf' = swap.expire asOf' := by
  unfold AtomicSwap.expire
  split_ifs with hFirst hBoth hSecond hSecond hThird
  all_goals simp_all
  omega

/- What the cut comes to: one list of calls instead of two. -/
theorem boundaryIndependent_iff :
    BoundaryIndependent handle first second ↔ ∀ tables,
      (runCalls handle (calls (first ++ second))).run tables =
        (runCalls handle (calls first ++ calls second)).run tables := by
  have hBoth : ∀ asOf asOf' (db : PipelineDb σ), asOf ≤ asOf' →
      ((processBoth handle asOf asOf' first second).run db).1 =
        ((runCalls handle (calls first ++ calls second)).run db.tables).1 ∧
        ((processBoth handle asOf asOf' first second).run db).2.tables =
          ((runCalls handle (calls first ++ calls second)).run db.tables).2 ∧
        (((processBoth handle asOf asOf' first second).run db).1 = .ok () →
          ((processBoth handle asOf asOf' first second).run db).2.atomicSwap =
            db.atomicSwap.map (AtomicSwap.expire asOf')) := by
    intro asOf asOf' db hLe
    unfold processBoth
    rw [run_bind, run_processIndexerEvents, run_runCalls_append]
    cases hFirst : (runCalls handle (calls first)).run db.tables with
    | mk result tables =>
      cases result with
      | error e => exact ⟨rfl, rfl, fun hOk => by cases hOk⟩
      | ok _ =>
        dsimp only
        rw [run_processIndexerEvents]
        cases hSecond : (runCalls handle (calls second)).run tables with
        | mk result' tables' =>
          cases result' with
          | error e => exact ⟨rfl, rfl, fun hOk => by cases hOk⟩
          | ok _ =>
            refine ⟨rfl, rfl, fun _ => ?_⟩
            rw [List.map_map]
            exact List.map_congr_left fun swap _ => expire_expire hLe swap
  unfold BoundaryIndependent SameOutcome
  constructor
  · intro hSame tables
    have hAt := hSame 0 0 ⟨tables, [], none⟩ (le_refl 0)
    rcases hBoth 0 0 ⟨tables, [], none⟩ (le_refl 0) with ⟨hResult, hTables, -⟩
    rw [hResult, hTables, run_processIndexerEvents] at hAt
    dsimp only at hAt
    cases hJoint : (runCalls handle (calls (first ++ second))).run tables with
    | mk result tables' =>
      rw [hJoint] at hAt
      cases result with
      | error e => exact Prod.ext hAt.1 hAt.2.1
      | ok _ => exact Prod.ext hAt.1 hAt.2.1
  · intro hSame asOf asOf' db hLe
    rcases hBoth asOf asOf' db hLe with ⟨hResult, hTables, hSwaps⟩
    rw [hTables]
    rw [hResult] at hSwaps ⊢
    rw [← hSame] at hSwaps ⊢
    rw [run_processIndexerEvents]
    cases hJoint : (runCalls handle (calls (first ++ second))).run db.tables with
    | mk result tables' =>
      rw [hJoint] at hSwaps
      cases result with
      | error e => exact ⟨rfl, rfl, fun hOk => by cases hOk⟩
      | ok _ => exact ⟨rfl, rfl, fun hOk => (hSwaps hOk).symm⟩

theorem boundaryIndependent_of_commute
    (hDistinct : ∀ event ∈ first, ∀ event' ∈ second, event.id ≠ event'.id)
    (hCommute : CommuteAcross handle first second) : BoundaryIndependent handle first second := by
  rw [boundaryIndependent_iff]
  intro tables
  rw [calls_append hDistinct]
  apply runCalls_rearranged
  apply grouped_append
  apply Stage.ordered_all.imp
  intro earlier later hOrder event' hEvent' event hEvent
  rcases mem_of_mem_handled hEvent with ⟨hFirst, hRoutes⟩
  rcases mem_of_mem_handled hEvent' with ⟨hSecond, hRoutes'⟩
  exact hCommute event hFirst event' hSecond earlier later hOrder hRoutes hRoutes'

-- Pairs of Events
----

variable {event event' : PipelineEvent π}

theorem handled_single (hRoutes : stage.routes event.eventType = true) (other : Stage) :
    other.handled [event] = if other = stage then [event] else [] := by
  have hDedupe : PipelineEvent.dedupe [event] = [event] := rfl
  unfold Stage.handled Stage.unique Stage.routed
  by_cases hSame : other = stage
  · rw [hSame, List.filter_singleton, hRoutes, cond_true, hDedupe, ite_self, if_pos rfl]
  · have hNot : other.routes event.eventType = false :=
      Bool.eq_false_iff.mpr fun h => hSame (Stage.eq_of_routes h hRoutes)
    rw [List.filter_singleton, hNot, cond_false, if_neg hSame]
    split <;> rfl

theorem calls_single (hRoutes : stage.routes event.eventType = true) :
    calls [event] = [(stage, event)] := by
  have hOnly := grouped_of_only (f := fun stage => stage.handled [event]) Stage.nodup_all
    (Stage.mem_all stage) fun other _ hOther => by rw [handled_single hRoutes, if_neg hOther]
  rw [handled_single hRoutes, if_pos rfl] at hOnly
  exact hOnly

/- In one batch, the event of the earlier stage is handled first. -/
theorem calls_pair (hId : event.id ≠ event'.id) {earlier later : Stage}
    (hOrder : earlier.number < later.number) (hRoutes : later.routes event.eventType = true)
    (hRoutes' : earlier.routes event'.eventType = true) :
    calls ([event] ++ [event']) = [(earlier, event'), (later, event)] := by
  have hEach : (fun stage : Stage => stage.handled [event] ++ stage.handled [event']) =
      fun stage => stage.handled [event'] ++ stage.handled [event] := by
    funext stage
    rw [handled_single hRoutes, handled_single hRoutes']
    by_cases hLater : stage = later
    · have hNot : stage ≠ earlier := by
        rintro rfl
        rw [hLater] at hOrder
        exact lt_irrefl _ hOrder
      rw [if_neg hNot, List.append_nil, List.nil_append]
    · rw [if_neg hLater, List.append_nil, List.nil_append]
  have hSplit : Rearranged (fun _ _ => False)
      (grouped Stage.all fun stage => stage.handled [event'] ++ stage.handled [event])
      (calls [event'] ++ calls [event]) := by
    apply grouped_append
    apply Stage.ordered_all.imp
    intro i j hBefore x hx y hy
    rw [handled_single hRoutes] at hx
    rw [handled_single hRoutes'] at hy
    split at hx
    · split at hy
      · subst i j
        exact absurd hOrder (lt_asymm hBefore)
      · cases hy
    · cases hx
  rw [calls_append (by simpa using hId), hEach, hSplit.eq, calls_single hRoutes,
    calls_single hRoutes']
  rfl

end

-- A Dividend Before a Purchase
----

open Transactional Program

/- The fields of an event that distributions read. -/
structure DividendFields where
  totalDistributed : Option EventNumber
  distributedAt : Option EventDate
  holdersCount : Option Int
  distributorAddress : Option String
  claimWindowStart : Option EventDate
  claimWindowEnd : Option EventDate
  snapshotId : Option String

def PipelineEvent.dividend (event : PipelineEvent DividendFields) : DividendEvent where
  eventType := event.eventType
  creatorId := event.creatorId
  totalDistributed := event.payload.totalDistributed
  distributedAt := event.payload.distributedAt
  holdersCount := event.payload.holdersCount
  distributorAddress := event.payload.distributorAddress
  claimWindowStart := event.payload.claimWindowStart
  claimWindowEnd := event.payload.claimWindowEnd
  snapshotId := event.payload.snapshotId
  ledger := event.ledger
  txHash := event.txHash
  eventIndex := event.eventIndex

def DividendDb.tradePart : Component DividendDb TradeDb where
  get db := db.trade
  set trade db := { db with trade }
  get_set _ _ := rfl
  set_get _ := rfl
  set_set _ _ _ := rfl

/-
  The handlers of purchases, sales and distributions.  The
  identifier of a distribution is made from that of its event;
  the other events are left to handlers that do nothing.
-/
def tradeAndDividendHandlers (config : IndexerConfig) :
    Stage → PipelineEvent DividendFields → Program DividendDb IndexerError Unit
  | .trades, event =>
    tradeHandler (fun branch event =>
      match branch with
      | .trade => (processTradeEvent config event.toIndexerChainEvent).zoom DividendDb.tradePart
      | _ => pure ())
      event
  | .dividends, event => processDividendSnapshot event.id event.dividend
  | _, _ => pure ()

/- `A` holds the only key when a dividend is distributed. -/
def distribution : PipelineEvent DividendFields :=
  { sampleBuy "t1" 10 with
    eventType := "DIVIDEND_DISTRIBUTED"
    payload :=
      { totalDistributed := some (.finite 10)
        distributedAt := some { parsed := some 50000 }
        holdersCount := none
        distributorAddress := none
        claimWindowStart := none
        claimWindowEnd := none
        snapshotId := none } }

/- `B` buys a key one ledger later. -/
def purchase : PipelineEvent DividendFields :=
  { sampleBuy "t2" 11 with
    actor := some "B"
    payload := distribution.payload }

def oneHolder : PipelineDb DividendDb where
  tables :=
    { trade := freshCreator.incrementBalance "A" "K" 1
      dividendDistribution := .empty
      dividendClaim := .empty }
  atomicSwap := []
  indexedLedger := none

/- Who is paid, and how much. -/
def payouts (result : Except IndexerError Unit × PipelineDb DividendDb) : List (String × ℚ) :=
  result.2.tables.dividendClaim.rows.map fun claim => (claim.recipientAddress, claim.amountXlm)

def oneBatch : Except IndexerError Unit × PipelineDb DividendDb :=
  (processIndexerEvents (sequential (tradeAndDividendHandlers sampleConfig)) 0 true
    ([distribution] ++ [purchase])).run oneHolder

def twoBatches : Except IndexerError Unit × PipelineDb DividendDb :=
  (processBoth (tradeAndDividendHandlers sampleConfig) 0 0 [distribution] [purchase]).run oneHolder

end Indexer

end AccessLayer
