import PyScoped.Foundation.Json
import PyScoped.Foundation.HashChain
import PyScoped.Foundation.JsonText
import PyScoped.Foundation.Timestamp
import PyScoped.Foundation.Fields
import PyScoped.Foundation.Blocks
import PyScoped.Legacy.Types
import PyScoped.Proofs.AuditChain
import PyScoped.Core.Client
import PyScoped.Proofs.HistoryVerification
import PyScoped.Proofs.Isolation
import PyScoped.Proofs.Connectors
import PyScoped.Proofs.Federation
import PyScoped.Proofs.FederationSequences
import PyScoped.Proofs.ArchivedScopes
import PyScoped.Proofs.Rules
import PyScoped.Proofs.RuleCache
import PyScoped.Proofs.Quotas
import PyScoped.Proofs.ResultCache
import PyScoped.Proofs.RuleVersions
import PyScoped.Proofs.Storage
import PyScoped.Proofs.Nesting
import PyScoped.Proofs.Overrides
import PyScoped.Proofs.EventStorage
import PyScoped.Proofs.Recordings
import PyScoped.Proofs.RestoredColumns
import PyScoped.Proofs.Restorations
import PyScoped.Proofs.Plugins
import PyScoped.Proofs.RowSecurity
import PyScoped.Proofs.Ambient
import PyScoped.Proofs.Config
import PyScoped.Proofs.RuleBindings
import PyScoped.Foundation.TimeOrder
import PyScoped.Legacy.Memberships
import PyScoped.Proofs.Memberships
import PyScoped.Proofs.Spellings
import PyScoped.Proofs.RelationGuards
import PyScoped.Foundation.Orderly
import PyScoped.Proofs.ScopeGuards
import PyScoped.Proofs.JobQueue
import PyScoped.Proofs.Pipelines
import PyScoped.Proofs.EnvironmentLifecycle
import PyScoped.Proofs.MemberBatches
import PyScoped.Proofs.Redaction
import PyScoped.Proofs.Tiering
import PyScoped.Foundation.Paging
import PyScoped.Foundation.Overwrites
import PyScoped.Legacy.Tiering
import PyScoped.Proofs.Contracts
import PyScoped.Proofs.Registry
import PyScoped.Proofs.Principals
import PyScoped.Proofs.RateLimits
import PyScoped.Proofs.Webhooks
import PyScoped.Proofs.Scheduler
import PyScoped.Proofs.Blobs
import PyScoped.Proofs.Deployments
import PyScoped.Proofs.Contexts
import PyScoped.Proofs.LeakDetection
import PyScoped.Proofs.TenantRouter
import PyScoped.Proofs.Projections
import PyScoped.Proofs.EventBus
import PyScoped.Proofs.AuditSequences
import PyScoped.Proofs.Marketplace
import PyScoped.Proofs.Rotation
import PyScoped.Proofs.Templates
import PyScoped.Proofs.Urns
import PyScoped.Proofs.Placeholders
import PyScoped.Proofs.ScopeTree
import PyScoped.Proofs.Migrations
import PyScoped.Proofs.SearchIndex
import PyScoped.Proofs.DjangoSync
import PyScoped.Proofs.RegistryStore
import PyScoped.Proofs.AuditVerification
import PyScoped.Proofs.VisibilityQueries
import PyScoped.Proofs.SyncOrder
import PyScoped.Proofs.VaultCalls
