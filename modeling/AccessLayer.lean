import AccessLayer.Acl.AclWhitelist
import AccessLayer.Admin.MultisigProposal
import AccessLayer.AutoInvest.PriceCap
import AccessLayer.Campaigns.CampaignQualification
import AccessLayer.ContentAccess.ContentGate
import AccessLayer.Creator.Reputation
import AccessLayer.Events.PartitionIntegrity
import AccessLayer.Events.PublishOnce
import AccessLayer.Followers.FollowerCounter
import AccessLayer.Governance.Escalations
import AccessLayer.Governance.ProposalOutcome
import AccessLayer.Governance.VotingPower
import AccessLayer.Indexer.AtomicSwaps
import AccessLayer.Indexer.AuctionBids
import AccessLayer.Indexer.BatchBoundaries
import AccessLayer.Indexer.CheckpointedReplay
import AccessLayer.Indexer.CursorMonotonicity
import AccessLayer.Indexer.DispatchCompleteness
import AccessLayer.Indexer.DividendClaims
import AccessLayer.Indexer.FlashLoanGuard
import AccessLayer.Indexer.ForkPoint
import AccessLayer.Indexer.InvoiceConvergence
import AccessLayer.Indexer.KeyDepth
import AccessLayer.Indexer.KeyLeaderboards
import AccessLayer.Indexer.LedgerDeletion
import AccessLayer.Indexer.LpRewards
import AccessLayer.Indexer.MultisigConvergence
import AccessLayer.Indexer.PriceHistory
import AccessLayer.Indexer.Redelivery
import AccessLayer.Indexer.Reserves
import AccessLayer.Indexer.ResumePoint
import AccessLayer.Indexer.RevenueAllocation
import AccessLayer.Indexer.SocialMetadata
import AccessLayer.Indexer.Tips
import AccessLayer.Indexer.TradeIndexer
import AccessLayer.Indexer.TradingVolume
import AccessLayer.Indexer.TransferRollback
import AccessLayer.Indexer.VaultPositions
import AccessLayer.Invoice.LimitOrders
import AccessLayer.Jobs.KeyBalanceSync
import AccessLayer.Keys.BuyCooldown
import AccessLayer.Keys.BuybackPool
import AccessLayer.Keys.HistoryPages
import AccessLayer.Keys.HolderLeaderboard
import AccessLayer.Keys.KeyExport
import AccessLayer.Keys.KeyTwap
import AccessLayer.Keys.SimulationCache
import AccessLayer.Middlewares.QueryCostGovernor
import AccessLayer.Middlewares.WalletRateLimit
import AccessLayer.Platform.PlatformPause
import AccessLayer.Portfolio.PortfolioPnl
import AccessLayer.Referrals.FirstTradeReward
import AccessLayer.Referrals.ReferralTiers
import AccessLayer.Revenue.RevenueClaims
import AccessLayer.Staking.StakingIndexer
import AccessLayer.Traders.TraderDiscount
import AccessLayer.Trading.MultiBuy
import AccessLayer.Utils.BreakerThreshold
import AccessLayer.Utils.CanonicalHashes
import AccessLayer.Utils.CreatorSequencer
import AccessLayer.Utils.PriceQuotes
import AccessLayer.Utils.SequencerLock
import AccessLayer.Utils.SseFanout
import AccessLayer.Utils.TradePagination
import AccessLayer.Vesting.VestingClaims
import AccessLayer.Webhooks.WebhookDeliveries
