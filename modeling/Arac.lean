import Arac.Theory.Machine
import Arac.Theory.OrderedSet
import Arac.Theory.ExpiringMap
import Arac.Theory.Acyclic
import Arac.Theory.LookupTable
import Arac.Theory.Async
import Arac.Theory.Faults
import Arac.Theory.Interleaving
import Arac.Theory.Commuting
import Arac.Theory.Recall
import Arac.Theory.ReadCommitted
import Arac.Theory.Snapshot
import Arac.Theory.Base64
import Arac.Theory.Upsert
import Arac.Theory.Routes
import Arac.Theory.Validation
import Arac.Sessions.Store
import Arac.Sessions.Ledger
import Arac.Sessions.Redis
import Arac.Sessions.InMemory
import Arac.Sessions.FamilyIndex
import Arac.Sessions.RevokeUser
import Arac.Sessions.ReuseDetection
import Arac.Sessions.History
import Arac.Sessions.InMemoryIndex
import Arac.Sessions.InMemoryExact
import Arac.Sessions.InMemoryHistory
import Arac.Sessions.Ideal
import Arac.Sessions.StoreEquivalence
import Arac.Db.Schema
import Arac.Db.Seed
import Arac.Db.Queries
import Arac.Db.Updates
import Arac.Db.Upserts
import Arac.Db.IdentityUpserts
import Arac.Services.World
import Arac.Services.Token
import Arac.Services.Concurrent
import Arac.Rbac.Resolver
import Arac.Rbac.Service
import Arac.Rbac.Termination
import Arac.Org.Claims
import Arac.Org.Service
import Arac.Org.Effects
import Arac.Org.TargetScope
import Arac.Org.Growth
import Arac.Org.Transactions
import Arac.Org.SeedForest
import Arac.Org.Replacement
import Arac.Org.Saving
import Arac.Auth.Identity
import Arac.Auth.InMemoryIdentity
import Arac.Auth.Service
import Arac.Auth.LinearRotation
import Arac.Auth.PasswordRace
import Arac.Auth.FailedReplacement
import Arac.Auth.FailedRefresh
import Arac.Auth.ResetTokens
import Arac.Auth.SingleUse
import Arac.Auth.ForgotPassword
import Arac.Auth.OneAccount
import Arac.Auth.ProviderEquivalence
import Arac.Admin.Service
import Arac.Admin.Effects
import Arac.Admin.Listing
import Arac.Admin.TargetScope
import Arac.Admin.Escalation
import Arac.Admin.ScopeMonotone
import Arac.Admin.LostUpdate
import Arac.Admin.UniqueAssignments
import Arac.Auth.TornClaims
import Arac.Mediation.Operations
import Arac.Mediation.Frame
import Arac.Mediation.Claims
import Arac.Mediation.Writes
import Arac.Mediation.Interleaved
import Arac.Mediation.Calls
import Arac.Mediation.Expiry
import Arac.Mediation.Tenancy
import Arac.Mediation.DisabledAccount
import Arac.Config.Configuration
import Arac.Config.SignAndVerify
import Arac.Config.KeyEncodings
import Arac.Web.Cookies
import Arac.Web.SilentRefresh
import Arac.Web.AuthController
import Arac.Web.Session
import Arac.Seed.Script
import Arac.Seed.Settled
import Arac.Seed.Idempotent
import Arac.Seed.Writes
import Arac.Seed.Matrix
import Arac.Http.Dtos
import Arac.Http.Controllers
import Arac.Http.Gateway
import Arac.Http.Carried
import Arac.Http.Operations
import Arac.Http.Failures
import Arac.Http.Bounds
import Arac.Http.Anonymous
import Arac.Http.Proxy
import Arac.Http.Freshness
import Arac.Http.Refresh
import Arac.Http.Matrix
import Arac.Http.Concurrent
