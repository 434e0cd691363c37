import StellarPriceOracle.AggregatorMerkle
import StellarPriceOracle.AdminHandover
import StellarPriceOracle.PriceCells
import StellarPriceOracle.BatchReplay
import StellarPriceOracle.StakeSolvency
import StellarPriceOracle.Registry
import StellarPriceOracle.GovernanceDefeat
import StellarPriceOracle.GovernanceActions
import StellarPriceOracle.VotingPower
import StellarPriceOracle.MultiSigUsable
import StellarPriceOracle.ProxyUpgrade
import StellarPriceOracle.ProxyAccess
import StellarPriceOracle.RehearsalMirror
import StellarPriceOracle.ProposalService
import StellarPriceOracle.FeedPublishing
import StellarPriceOracle.PriceConvergence
import StellarPriceOracle.EpochFencing
import StellarPriceOracle.RegionFailback
import StellarPriceOracle.PollLoop
import StellarPriceOracle.VerifierAgreement
import StellarPriceOracle.TamperEvidence
import StellarPriceOracle.AuditLogger
import StellarPriceOracle.AuditRetention
import StellarPriceOracle.TransactionDurability
import StellarPriceOracle.WebhookDelivery
import StellarPriceOracle.WebhookReplay
import StellarPriceOracle.FeedLifecycle
import StellarPriceOracle.WsSequence
import StellarPriceOracle.EventProjections
import StellarPriceOracle.EmergencyHold
import StellarPriceOracle.CatalogRollback
import StellarPriceOracle.HistoryQueries
import StellarPriceOracle.ReputationDecay
import StellarPriceOracle.RedirectChain
import StellarPriceOracle.AuditPrediction
import StellarPriceOracle.RecoveryTraffic
import StellarPriceOracle.HybridCache
import StellarPriceOracle.BreakerTrace
import StellarPriceOracle.DbBreaker
import StellarPriceOracle.PriceStaleness
import StellarPriceOracle.EvidenceReplay
import StellarPriceOracle.PublishablePrices
import StellarPriceOracle.SubmissionRetries
import StellarPriceOracle.ArchiveRestore
import StellarPriceOracle.RecoveryCap
import StellarPriceOracle.DisclosureExpiry
import StellarPriceOracle.CheckpointStream
import StellarPriceOracle.ReplayPaging
import StellarPriceOracle.ReplayLimiter
import StellarPriceOracle.Sanitization
import StellarPriceOracle.WsSigning
