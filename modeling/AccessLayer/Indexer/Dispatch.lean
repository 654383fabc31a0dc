import AccessLayer.Indexer.Pipeline

/-
  The dispatcher of mixed batches
  (`src/modules/indexer/indexer-pipeline.service.ts`).

  A batch is split by event type into stages that run in a fixed
  order; the shared cursor moves once all of them have returned.
  The read models of the stages are a store `σ` of their own, and
  `π` are the fields of an event that trades do not read.

  Main declarations: `routes_eq_recognises`, `processIndexerEvents`
-/

-- Events of a Batch
----

namespace AccessLayer

namespace Indexer

section

structure PipelineEvent (π : Type) extends IndexerChainEvent where
  payload : π
  deriving DecidableEq

namespace PipelineEvent

variable {π : Type}

def id (event : PipelineEvent π) : String := getChainEventId event.toIndexerChainEvent

/- The events whose identifier has not been seen before. -/
def dedupeFrom (seen : List String) : List (PipelineEvent π) → List (PipelineEvent π)
  | [] => []
  | event :: rest =>
    if event.id ∈ seen then dedupeFrom seen rest
    else event :: dedupeFrom (event.id :: seen) rest

def dedupe (events : List (PipelineEvent π)) : List (PipelineEvent π) := dedupeFrom [] events

/- The chain events of a batch. -/
def chain (events : List (PipelineEvent π)) : List IndexerChainEvent :=
  events.map toIndexerChainEvent

end PipelineEvent

end

-- Event Types
----

section

def invoiceProtocolEventTypes : List String :=
  ["IssuerScoreUpdated", "ReportSubmitted", "ReportResolved",
    "ChangeProposed", "ChangeExecuted", "ChangeCancelled", "TransferBlocked"]

/- Put `_` between a small letter and a capital one. -/
def splitWords : List Char → List Char
  | a :: b :: rest =>
    if a.isLower && b.isUpper then
      a :: '_' :: splitWords (b :: rest)
    else a :: splitWords (b :: rest)
  | rest => rest

/- The name of a type whose upper case spelling is given. -/
def canonicalInvoiceEventType (type : String) : String :=
  (invoiceProtocolEventTypes.find? fun name => (String.ofList (splitWords name.toList)).toUpper =
    type).getD type

def isInvoiceEventType (type : String) : Bool :=
  canonicalInvoiceEventType type ∈ invoiceProtocolEventTypes

def curveUpdateEventTypes : List String :=
  ["CurveUpdateProposed", "CURVE_UPDATE_PROPOSED", "CurveUpdateExecuted", "CURVE_UPDATE_EXECUTED"]

def milestoneRewardClaimedEventTypes : List String :=
  ["MilestoneRewardClaimed", "MILESTONE_REWARD_CLAIMED"]

def keyRetirementEventTypes : List String :=
  ["RetirementProposed", "RETIREMENT_PROPOSED", "RetirementExecuted", "RETIREMENT_EXECUTED",
    "DeprecationExecuted", "DEPRECATION_EXECUTED"]

def keyLaunchAuctionEventTypes : List String :=
  ["AuctionCreated", "AUCTION_CREATED", "BidPlaced",
    "BID_PLACED", "AuctionSettled", "AUCTION_SETTLED"]

def feeReceivedEventTypes : List String := ["FeeReceived", "FEE_RECEIVED"]

def fundsAllocatedEventTypes : List String := ["FundsAllocated", "FUNDS_ALLOCATED"]

def earlySlotFilledEventTypes : List String := ["EarlySlotFilled", "EARLY_SLOT_FILLED"]

def verificationGrantedEventTypes : List String := ["VerificationGranted", "VERIFICATION_GRANTED"]

def verificationRevokedEventTypes : List String := ["VerificationRevoked", "VERIFICATION_REVOKED"]

def healthScoreUpdatedEventTypes : List String := ["HealthScoreUpdated", "HEALTH_SCORE_UPDATED"]

def badgeMintedEventTypes : List String := ["BadgeMinted", "BADGE_MINTED"]

def volumeDiscountEventTypes : List String :=
  ["VolumeDiscountTierChanged", "VOLUME_DISCOUNT_TIER_CHANGED", "VolumeDiscountTierConfigUpdated",
    "VOLUME_TIER_CONFIG_UPDATED"]

def swapEventTypes : List String :=
  ["SwapProposed", "SWAP_PROPOSED", "swap_proposed",
    "SwapExecuted", "SWAP_EXECUTED", "swap_executed",
    "SwapCancelled", "SWAP_CANCELLED", "swap_cancelled"]

def bundleEventTypes : List String := ["BundleExecuted", "BUNDLE_EXECUTED"]

def normalizeEventType : String → String
  | "LiquidityAdded" => "LP_ADDED"
  | "RewardsClaimed" => "LP_CLAIMED"
  | "LiquidityRemoved" => "LP_REMOVED"
  | eventType => eventType

def isLpEventType (eventType : String) : Bool :=
  let normalized := normalizeEventType eventType
  normalized = "LP_ADDED" || normalized = "LP_CLAIMED" || normalized = "LP_REMOVED"

def isTradeEvent (eventType : String) : Bool := eventType = "KEY_BOUGHT" || eventType = "KEY_SOLD"

/- The branches of the trade handler. -/
inductive TradeBranch where
  | creatorRegistered
  | bundle
  | volumeDiscount
  | atomicSwap
  | trade

def tradeBranch (eventType : String) : Option TradeBranch :=
  if eventType = "CREATOR_REGISTERED" then
    some .creatorRegistered
  else if eventType ∈ bundleEventTypes then some .bundle
  else if eventType ∈ volumeDiscountEventTypes then
    some .volumeDiscount
  else if eventType ∈ swapEventTypes then some .atomicSwap
  else if isTradeEvent eventType then some .trade
  else none

-- Stages
----

/- The stages, in the order in which they run. -/
inductive Stage where
  | invoiceProtocol
  | spotlightBid
  | socialMetadata
  | twap
  | keySnapshot
  | keyDepth
  | keyLeaderboard
  | whitelist
  | governance
  | subscription
  | keyPoll
  | curveUpdate
  | milestoneClaim
  | keyRetirement
  | keyLaunchAuction
  | trades
  | dividends
  | revenueShare
  | lp
  | coCreator
  | reserve
  | tip
  | treasury
  | earlySlot
  | issuerVerification
  | healthScore
  | badgeMinted
  deriving DecidableEq

namespace Stage

def all : List Stage :=
  [.invoiceProtocol, .spotlightBid, .socialMetadata, .twap,
    .keySnapshot, .keyDepth, .keyLeaderboard, .whitelist,
    .governance, .subscription, .keyPoll, .curveUpdate,
    .milestoneClaim, .keyRetirement, .keyLaunchAuction, .trades,
    .dividends, .revenueShare, .lp, .coCreator, .reserve, .tip,
    .treasury, .earlySlot, .issuerVerification, .healthScore, .badgeMinted]

theorem mem_all (stage : Stage) : stage ∈ all := by
  cases stage <;> decide

theorem nodup_all : all.Nodup := by
  decide

/- The place of a stage in the order. -/
def number (stage : Stage) : ℕ := all.idxOf stage

theorem ordered_all : all.Pairwise fun earlier later => earlier.number < later.number := by
  decide

/- The filter that the dispatcher selects the events by. -/
def routes (stage : Stage) (type : String) : Bool :=
  match stage with
  | .invoiceProtocol => isInvoiceEventType type
  | .spotlightBid =>
    type ∈ ["SpotlightBidPlaced", "SPOTLIGHT_BID_PLACED", "SpotlightAwarded", "SPOTLIGHT_AWARDED"]
  | .socialMetadata => type = "SOCIAL_METADATA_UPDATED"
  | .twap => type ∈ ["TWAP_UPDATED", "TWAPUpdated"]
  | .keySnapshot => type ∈ ["SNAPSHOT_TAKEN", "SnapshotTaken"]
  | .keyDepth => type ∈ ["DEPTH_UPDATED", "DepthUpdated"]
  | .keyLeaderboard => type ∈ ["LEADERBOARD_UPDATED", "LeaderboardUpdated"]
  | .whitelist =>
    type ∈ ["WalletWhitelisted", "WALLET_WHITELISTED",
      "WHITELIST_ADDED", "WalletRemovedFromWhitelist",
      "WALLET_REMOVED_FROM_WHITELIST", "WHITELIST_REMOVED"]
  | .governance =>
    type ∈ ["PROPOSAL_CREATED", "ProposalCreated", "VOTE_CAST",
      "VoteCast", "PROPOSAL_EXECUTED", "ProposalExecuted"]
  | .subscription => type ∈ ["SubscriptionCreated", "SUBSCRIPTION_CREATED"]
  | .keyPoll =>
    type ∈ ["PollCreated", "POLL_CREATED", "PollVoteCast",
      "POLL_VOTE_CAST", "PollClosed", "POLL_CLOSED"]
  | .curveUpdate => type ∈ curveUpdateEventTypes
  | .milestoneClaim => type ∈ milestoneRewardClaimedEventTypes
  | .keyRetirement => type ∈ keyRetirementEventTypes
  | .keyLaunchAuction => type ∈ keyLaunchAuctionEventTypes
  | .trades => isTradeEvent type
  | .dividends =>
    type ∈ ["DividendSnapshotCreated", "DIVIDEND_SNAPSHOT_CREATED", "DIVIDEND_DISTRIBUTED",
      "DividendClaimed", "DIVIDEND_CLAIMED"]
  | .revenueShare =>
    type ∈ ["RevenueDistributed", "REVENUE_DISTRIBUTED",
      "RevenueShareClaimed", "REVENUE_SHARE_CLAIMED"]
  | .lp => isLpEventType type
  | .coCreator =>
    type ∈ ["CO_CREATOR_ADDED", "CoCreatorAdded", "CO_CREATOR_SET", "CoCreatorSet", "co_set",
      "CO_CREATOR_REMOVED", "CoCreatorRemoved", "cc_rm"]
  | .reserve => type ∈ ["RESERVE_ACCRUED", "ReserveAccrued", "RESERVE_DEPLOYED", "ReserveDeployed"]
  | .tip => type ∈ ["TIP_SENT", "TipSent", "tip"]
  | .treasury => type ∈ feeReceivedEventTypes ++ fundsAllocatedEventTypes
  | .earlySlot => type ∈ earlySlotFilledEventTypes
  | .issuerVerification => type ∈ verificationGrantedEventTypes ++ verificationRevokedEventTypes
  | .healthScore => type ∈ healthScoreUpdatedEventTypes
  | .badgeMinted => type ∈ badgeMintedEventTypes

/-
  The types that the service of a stage handles.  The handler of
  subscriptions takes every event it is given.
-/
def recognises (stage : Stage) (type : String) : Bool :=
  match stage with
  | .invoiceProtocol => isInvoiceEventType type
  | .spotlightBid =>
    type ∈ ["SpotlightBidPlaced", "SPOTLIGHT_BID_PLACED", "SpotlightAwarded", "SPOTLIGHT_AWARDED"]
  | .socialMetadata => type = "SOCIAL_METADATA_UPDATED"
  | .twap => type ∈ ["TWAP_UPDATED", "TWAPUpdated"]
  | .keySnapshot => type ∈ ["SNAPSHOT_TAKEN", "SnapshotTaken"]
  | .keyDepth => type ∈ ["DEPTH_UPDATED", "DepthUpdated"]
  | .keyLeaderboard => type ∈ ["LEADERBOARD_UPDATED", "LeaderboardUpdated"]
  | .whitelist =>
    type ∈ ["WalletWhitelisted", "WALLET_WHITELISTED", "WHITELIST_ADDED"] ||
    type ∈ ["WalletRemovedFromWhitelist", "WALLET_REMOVED_FROM_WHITELIST", "WHITELIST_REMOVED"]
  | .governance =>
    type ∈ ["PROPOSAL_CREATED", "ProposalCreated"] ||
    type ∈ ["VOTE_CAST", "VoteCast"] ||
    type ∈ ["PROPOSAL_EXECUTED", "ProposalExecuted"]
  | .subscription => type ∈ ["SubscriptionCreated", "SUBSCRIPTION_CREATED"]
  | .keyPoll =>
    type ∈ ["PollCreated", "POLL_CREATED"] ||
    type ∈ ["PollVoteCast", "POLL_VOTE_CAST"] ||
    type ∈ ["PollClosed", "POLL_CLOSED"]
  | .curveUpdate => type ∈ curveUpdateEventTypes
  | .milestoneClaim => type ∈ milestoneRewardClaimedEventTypes
  | .keyRetirement => type ∈ keyRetirementEventTypes
  | .keyLaunchAuction => type ∈ keyLaunchAuctionEventTypes
  | .trades => (tradeBranch type).isSome
  | .dividends =>
    type ∈ ["DIVIDEND_CLAIMED", "DividendClaimed"] ||
    type ∈ ["DIVIDEND_DISTRIBUTED", "DIVIDEND_SNAPSHOT_CREATED", "DividendSnapshotCreated"]
  | .revenueShare =>
    type ∈ ["RevenueDistributed", "REVENUE_DISTRIBUTED"] ||
    type ∈ ["RevenueShareClaimed", "REVENUE_SHARE_CLAIMED"]
  | .lp => normalizeEventType type ∈ ["LP_ADDED", "LP_CLAIMED", "LP_REMOVED"]
  | .coCreator =>
    type ∈ ["CO_CREATOR_ADDED", "CoCreatorAdded", "CO_CREATOR_SET", "CoCreatorSet", "co_set"] ||
    type ∈ ["CO_CREATOR_REMOVED", "CoCreatorRemoved", "cc_rm"]
  | .reserve =>
    type ∈ ["RESERVE_ACCRUED", "ReserveAccrued"] ||
    type ∈ ["RESERVE_DEPLOYED", "ReserveDeployed"]
  | .tip => type ∈ ["TIP_SENT", "TipSent", "tip"]
  | .treasury =>
    type ∈ feeReceivedEventTypes ||
    type ∈ fundsAllocatedEventTypes
  | .earlySlot => type ∈ earlySlotFilledEventTypes
  | .issuerVerification =>
    type ∈ verificationGrantedEventTypes ||
    type ∈ verificationRevokedEventTypes
  | .healthScore => type ∈ healthScoreUpdatedEventTypes
  | .badgeMinted => type ∈ badgeMintedEventTypes

/- Two services walk over the events without deduplication. -/
def dedupes : Stage → Bool
  | .spotlightBid => false
  | .subscription => false
  | _ => true

variable {π : Type}

/- The events of a batch that a stage is given. -/
def routed (stage : Stage) (events : List (PipelineEvent π)) : List (PipelineEvent π) :=
  events.filter fun event => stage.routes event.eventType

/- The events that the service of a stage works through. -/
def unique (stage : Stage) (events : List (PipelineEvent π)) : List (PipelineEvent π) :=
  if stage.dedupes then PipelineEvent.dedupe events else events

end Stage

/- The handlers of the pipeline.  The dispatcher never calls the one of sunset flags. -/
inductive PipelineHandler where
  | stage (stage : Stage)
  | sunsetFlagged
  deriving DecidableEq

def PipelineHandler.recognises : PipelineHandler → String → Bool
  | stage s, type => s.recognises type
  | .sunsetFlagged, type => type = "KEY_SUNSET_FLAGGED"

def PipelineHandler.routes : PipelineHandler → String → Bool
  | stage s, type => s.routes type
  | .sunsetFlagged, _ => false

/- Outside trades, what a service handles is routed to it. -/
theorem routes_eq_recognises {stage : Stage} (hStage : stage ≠ .trades) (type : String) :
    stage.routes type = stage.recognises type := by
  cases stage <;> simp [Stage.routes, Stage.recognises, isLpEventType] at hStage ⊢ <;> grind

end

-- The Dispatcher
----

open Transactional Program

inductive SwapStatus where
  | pending
  | executed
  | cancelled
  | expired
  deriving DecidableEq

structure AtomicSwap where
  swapId : String
  status : SwapStatus
  expiresAt : Int
  deriving DecidableEq

/- A pending swap expires; the others are left alone. -/
def AtomicSwap.expire (asOf : Int) (swap : AtomicSwap) : AtomicSwap :=
  if swap.status = .pending ∧ swap.expiresAt ≤ asOf then
    { swap with status := .expired }
  else swap

/- The read models of the stages, the swaps and the cursor. -/
structure PipelineDb (σ : Type) where
  tables : σ
  atomicSwap : List AtomicSwap
  indexedLedger : Option IndexedLedger

variable {σ π : Type}

def PipelineDb.tablesPart : Component (PipelineDb σ) σ where
  get db := db.tables
  set tables db := { db with tables }
  get_set _ _ := rfl
  set_get _ := rfl
  set_set _ _ _ := rfl

def PipelineDb.cursorPart : Component (PipelineDb σ) (Option IndexedLedger) where
  get db := db.indexedLedger
  set indexedLedger db := { db with indexedLedger }
  get_set _ _ := rfl
  set_get _ := rfl
  set_set _ _ _ := rfl

abbrev PipelineM (σ : Type) := Program (PipelineDb σ) IndexerError

/- The services of the stages. -/
abbrev Services (σ π : Type) := Stage → List (PipelineEvent π) → Program σ IndexerError Unit

def sequential (handle : Stage → PipelineEvent π → Program σ IndexerError Unit) : Services σ π :=
  fun stage events => forEach (handle stage) (stage.unique events)

def tradeHandler (branch : TradeBranch → PipelineEvent π → Program σ IndexerError Unit)
    (event : PipelineEvent π) : Program σ IndexerError Unit :=
  match tradeBranch event.eventType with
  | some selected => branch selected event
  | none => pure ()

/- The upsert of the cursor; its failure is only logged. -/
def upsertIndexedLedger (ledger : Int) : Program (Option IndexedLedger) IndexerError Unit :=
  tryCatch (execute .database fun _ => .ok ((), some ⟨ledger, toString ledger ++ "-000"⟩))
    (fun _ => pure ())

/- The highest ledger of a batch. -/
def batchLedger (events : List IndexerChainEvent) : Option Int :=
  ((dedupeChainEvents events).filterMap IndexerChainEvent.ledger).max?

/- Nothing is compared with the cursor that is stored. -/
def checkpointHighestLedger (events : List (PipelineEvent π)) : PipelineM σ Unit :=
  match batchLedger (PipelineEvent.chain events) with
  | some ledger => (upsertIndexedLedger ledger).zoom PipelineDb.cursorPart
  | none => pure ()

def markExpiredSwaps (asOf : Int) : PipelineM σ Unit :=
  tryCatch (execute .database fun db => .ok ((), { db with
            atomicSwap := db.atomicSwap.map (AtomicSwap.expire asOf) })) (fun _ => pure ())

def advanceCursorForBatch (asOf : Int) (events : List (PipelineEvent π)) : PipelineM σ Unit := do
  markExpiredSwaps asOf
  checkpointHighestLedger events

def runStage (services : Services σ π) (events : List (PipelineEvent π))
    (stage : Stage) : PipelineM σ Unit :=
  match stage.routed events with
  | [] => pure ()
  | event :: rest => (services stage (event :: rest)).zoom PipelineDb.tablesPart

def processIndexerEvents (services : Services σ π) (asOf : Int) (advanceCursor : Bool)
    (events : List (PipelineEvent π)) : PipelineM σ Unit := do
  forEach (runStage services events) Stage.all
  if advanceCursor then advanceCursorForBatch asOf events
  else pure ()

end Indexer

end AccessLayer
