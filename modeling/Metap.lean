import Metap.Permission.FailClosed
import Metap.Query.Composition
import Metap.Query.PlanShape
import Metap.Crud.Pagination
import Metap.OAuth.Amplification
import Metap.Control.Isolation
import Metap.Control.Provisioning
import Metap.Cron.BulkAction
import Metap.Cron.Resume
import Metap.Auth.Identity
import Metap.Crud.ReferentialIntegrity
import Metap.Crud.ValidDocuments
import Metap.OAuth.RefreshReuse
import Metap.OAuth.RefreshRotation
import Metap.OAuth.SingleUse
import Metap.Reconciler.PlannedFit
import Metap.Reconciler.Quoting
import Metap.Reconciler.ReferenceWaves
import Metap.Reconciler.AppliedVersions
import Metap.Reconciler.Rollout
import Metap.Reconciler.Watchdog
import Metap.Reconciler.Quarantine
import Metap.Reconciler.SyncTriggers
import Metap.Reconciler.Uniqueness
import Metap.Crud.AuditVisibility
import Metap.Permission.Explain
import Metap.Permission.CacheCoherence
import Metap.Crud.Capabilities
import Metap.Crud.GetMany
import Metap.Eventbus.Topics
import Metap.Jwks.KeyStore
