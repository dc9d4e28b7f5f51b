import TrustCopilot.Library.UnlockedUpdate
import TrustCopilot.AccountTransitionRaces
import TrustCopilot.LaneBudgetRaces
import TrustCopilot.Sending
import TrustCopilot.Billing
import TrustCopilot.PaymentEvents
import TrustCopilot.PaymentOrder
import TrustCopilot.Provisioning
import TrustCopilot.ContactDecision
import TrustCopilot.Library.RegexLines
import TrustCopilot.Library.PyRegex
import TrustCopilot.MailText
import TrustCopilot.ReplyClassifier
import TrustCopilot.OutboxCrashes
import TrustCopilot.Promotions
import TrustCopilot.SendReplays
import TrustCopilot.ReplyAttribution
import TrustCopilot.Qualification
import TrustCopilot.Safety
import TrustCopilot.ContactGates
import TrustCopilot.Library.FirstFit
import TrustCopilot.PausePersistence
import TrustCopilot.Mailboxes
import TrustCopilot.DryRuns
import TrustCopilot.CrawlScheduler
import TrustCopilot.CrawlRecovery
import TrustCopilot.InboxThreads
import TrustCopilot.ThreadDelivery
import TrustCopilot.IntakeRooms
import TrustCopilot.WorkerLoop
import TrustCopilot.LaneBudgetRows
import TrustCopilot.Library.Rounding
import TrustCopilot.IcpScoring
import TrustCopilot.QualificationPipeline
import TrustCopilot.BuyerResolver
import TrustCopilot.ContactPlans
import TrustCopilot.FulfillmentJobs
import TrustCopilot.OutboxTerminality
import TrustCopilot.ReplayTools
import TrustCopilot.ModelSelection
import TrustCopilot.MailboxResumes
import TrustCopilot.Library.KeyedLog
import TrustCopilot.Segmentation
import TrustCopilot.SuppressionQueries
import TrustCopilot.SafetyReference
import TrustCopilot.NudgeCadence
import TrustCopilot.NudgeCap
import TrustCopilot.ThroughputControls
import TrustCopilot.CheckoutFidelity
import TrustCopilot.SuppressionArguments
import TrustCopilot.Refusals
import TrustCopilot.Library.LinePatterns
import TrustCopilot.Library.TextLines
import TrustCopilot.QuoteStripping
import TrustCopilot.CrlfMail
import TrustCopilot.Library.Paragraphs
import TrustCopilot.Extractor
import TrustCopilot.ChunkSections
import TrustCopilot.ChunkSpans
import TrustCopilot.CheckoutUniqueness
import TrustCopilot.JobRequests
import TrustCopilot.Reactivation
import TrustCopilot.CompetitorEvidence
import TrustCopilot.ContactCutoffs
import TrustCopilot.Library.FirstByKey
import TrustCopilot.PageOrder
import TrustCopilot.LanePromotions
import TrustCopilot.LaneRefunds
import TrustCopilot.CrawlBudgets
import TrustCopilot.CrawlBackoff
import TrustCopilot.Library.Ranking
import TrustCopilot.TriggerTaxonomy
import TrustCopilot.SignalDecay
import TrustCopilot.WhyNowScore
import TrustCopilot.SignalFusion
import TrustCopilot.FusionOrder
import TrustCopilot.FusionTimestamps
import TrustCopilot.Library.Binary64
import TrustCopilot.FloatFusion
import TrustCopilot.FusionClockSkew
import TrustCopilot.Library.Phrases
import TrustCopilot.AccountNarrative
import TrustCopilot.NarrativeChecks
import TrustCopilot.NarrativeCitations
import TrustCopilot.SignalExtractor
import TrustCopilot.MessageComposer
import TrustCopilot.Library.RegexMatches
import TrustCopilot.MessageGuardrails
import TrustCopilot.Library.DictPatch
import TrustCopilot.DecisionReplays
import TrustCopilot.Firmographics
import TrustCopilot.SizeBands
import TrustCopilot.IcpBuckets
import TrustCopilot.FeedDedupe
import TrustCopilot.StorageKeys
import TrustCopilot.Library.TopCut
import TrustCopilot.OfflineEvaluation
import TrustCopilot.SourceHealth
import TrustCopilot.Library.BudgetPrefix
import TrustCopilot.MemoryRetrieval
import TrustCopilot.OfferEngine
import TrustCopilot.SelfDomains
import TrustCopilot.PageFetches
import TrustCopilot.RenderPool
import TrustCopilot.ModelScores
import TrustCopilot.GovernorLoad
import TrustCopilot.ConflictDetector
import TrustCopilot.PainRules
import TrustCopilot.DealValue
import TrustCopilot.CompetitorDetection
import TrustCopilot.NegativeSignals
import TrustCopilot.MessagePlan
import TrustCopilot.Library.GroupedFold
import TrustCopilot.OutcomeLabels
import TrustCopilot.OpsDashboard
import TrustCopilot.PageClassifier
import TrustCopilot.Library.GatedLog
import TrustCopilot.EventStore
import TrustCopilot.ShadowScoring
import TrustCopilot.ProofPacks
import TrustCopilot.SendPolicy
import TrustCopilot.Library.PyJson
import TrustCopilot.JobBoards
import TrustCopilot.ContentFreshness
