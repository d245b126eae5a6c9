import CatalogSentinel.Adapters.GenericCsv
import CatalogSentinel.Adapters.RateLimit
import CatalogSentinel.Capture.Registry
import CatalogSentinel.Checkpoint.PassPlans
import CatalogSentinel.Checkpoint.TieredAnswers
import CatalogSentinel.Connect.Release
import CatalogSentinel.Connect.RevocationReach
import CatalogSentinel.Connect.SameAnswers
import CatalogSentinel.Core.Ids
import CatalogSentinel.Distrokid.BoundedPasses
import CatalogSentinel.Distrokid.ChunkCompleteness
import CatalogSentinel.Distrokid.Converging
import CatalogSentinel.Distrokid.FinalizerAccepts
import CatalogSentinel.Distrokid.JobIds
import CatalogSentinel.Distrokid.LedgerConvergence
import CatalogSentinel.Distrokid.Locks
import CatalogSentinel.Distrokid.PersistedOutcomes
import CatalogSentinel.Distrokid.PoolResults
import CatalogSentinel.Distrokid.RecoveryAuthority
import CatalogSentinel.Extract.Attribution
import CatalogSentinel.Extract.CatalogReading
import CatalogSentinel.Extract.Evidence
import CatalogSentinel.Fixer.FixIds
import CatalogSentinel.Guard.Agreement
import CatalogSentinel.Link.OutboxSafety
import CatalogSentinel.Lyrics.Verification
import CatalogSentinel.Matching.Caps
import CatalogSentinel.Matching.Levenshtein
import CatalogSentinel.Persistence.AlbumIds
import CatalogSentinel.Search.Crashes
import CatalogSentinel.Search.HistoryCursor
import CatalogSentinel.Search.ManualReview
import CatalogSentinel.Search.Projection
import CatalogSentinel.Search.ReviewDecisions
import CatalogSentinel.Search.Updates
import CatalogSentinel.Security.Envelope
import CatalogSentinel.Stores.Enumeration
import CatalogSentinel.Stores.SearchProvider
import CatalogSentinel.Stores.Verdicts
import CatalogSentinel.Tenancy.LastOwner
import CatalogSentinel.Tenancy.Provenance
import CatalogSentinel.Tenancy.Revocation
