import GeoPlatform.Library.Run
import GeoPlatform.Library.Table
import GeoPlatform.Library.OrderedMap
import GeoPlatform.Library.ListSums
import GeoPlatform.ArcGIS.Circuit
import GeoPlatform.ArcGIS.CircuitRecovery
import GeoPlatform.ArcGIS.CircuitOpening
import GeoPlatform.ArcGIS.TokenRenewal
import GeoPlatform.ArcGIS.CircuitEvidence
import GeoPlatform.Library.SqlText
import GeoPlatform.ArcGIS.Where
import GeoPlatform.Convex.Values
import GeoPlatform.Convex.Schema
import GeoPlatform.Convex.RateLimit
import GeoPlatform.Convex.Quota
import GeoPlatform.Convex.Authorize
import GeoPlatform.Convex.Keys
import GeoPlatform.Convex.Payments
import GeoPlatform.Convex.Usage
import GeoPlatform.Convex.Windows
import GeoPlatform.Convex.Effects
import GeoPlatform.Convex.Backend
import GeoPlatform.Convex.Counters
import GeoPlatform.Convex.OkCalls
import GeoPlatform.Convex.DemoLimit
import GeoPlatform.Convex.MinuteCaps
import GeoPlatform.Convex.QuotaWindows
import GeoPlatform.Convex.KeyTable
import GeoPlatform.Convex.QuotaLedger
import GeoPlatform.Convex.FreeTier
import GeoPlatform.Convex.FreeQuota
import GeoPlatform.Convex.Dashboard
import GeoPlatform.Convex.Revocation
import GeoPlatform.Convex.Rotation
import GeoPlatform.Convex.PlaygroundTokens
import GeoPlatform.Convex.UserTable
import GeoPlatform.Convex.Lockout
import GeoPlatform.Convex.Checkout
import GeoPlatform.Convex.PaymentEffects
import GeoPlatform.Convex.PaymentRuns
import GeoPlatform.Convex.UsageLedger
import GeoPlatform.Api.UsageRecorder
import GeoPlatform.Api.UsageDelivery
import GeoPlatform.Library.AStar
import GeoPlatform.Library.AStarRuns
import GeoPlatform.Library.Csr
import GeoPlatform.Geo.RoadGraph
import GeoPlatform.Library.AStarMap
import GeoPlatform.Geo.RoadSearch
import GeoPlatform.Geo.RoadCosts
import GeoPlatform.Geo.RoadOptimal
import GeoPlatform.Convex.KeyStanding
import GeoPlatform.Convex.UsageAbsorb
import GeoPlatform.Convex.UsageHistory
import GeoPlatform.Geo.RoadUnusable
import GeoPlatform.Geo.RoadItinerary
import GeoPlatform.Library.AStarReach
import GeoPlatform.Library.UnionFind
import GeoPlatform.Geo.RoadReach
import GeoPlatform.ArcGIS.Pagination
import GeoPlatform.ArcGIS.RoadNetwork
import GeoPlatform.ArcGIS.RoadLayer
import GeoPlatform.Api.UsageBuffer
import GeoPlatform.Library.RunPairs
import GeoPlatform.Convex.Ceilings
import GeoPlatform.Convex.Isolation
import GeoPlatform.Convex.Reconcile
import GeoPlatform.Convex.PlanPeriods
import GeoPlatform.Convex.PlanLevels
import GeoPlatform.Convex.FreeAfterPaid
import GeoPlatform.Convex.Bystanders
import GeoPlatform.Convex.CountersAlike
import GeoPlatform.Convex.PaidTraffic
import GeoPlatform.Convex.OwnedRows
import GeoPlatform.Convex.TenantWrites
import GeoPlatform.Convex.TenantIsolation
import GeoPlatform.Convex.KeyCounts
import GeoPlatform.Convex.Lookups
import GeoPlatform.Convex.UsageViews
import GeoPlatform.Convex.ResetTimes
import GeoPlatform.Api.SiteKeyMirror
import GeoPlatform.Geo.RoadExpansions
import GeoPlatform.Geo.RoadStaying
import GeoPlatform.Library.AStarAlike
import GeoPlatform.Geo.RoadJunctions
import GeoPlatform.Geo.RoadNearest
import GeoPlatform.ArcGIS.Retries
import GeoPlatform.Api.CacheRecency
import GeoPlatform.Api.UsageOverflow
import GeoPlatform.ArcGIS.ReverseGeocoding
import GeoPlatform.ArcGIS.ExactMatch
import GeoPlatform.Api.GeocodingCaches
import GeoPlatform.Convex.QuotaShown
import GeoPlatform.Api.VisitorBucket
import GeoPlatform.ArcGIS.GraphRefresh
import GeoPlatform.ArcGIS.RouteReplies
import GeoPlatform.Api.RedactedSecrets
import GeoPlatform.ArcGIS.RingCentroid
import GeoPlatform.Library.Loops
import GeoPlatform.Geo.RoadAdjacency
import GeoPlatform.Geo.RoadComponents
import GeoPlatform.Library.CyclicPairs
import GeoPlatform.Convex.CommonPasswords
import GeoPlatform.Library.RegexTexts
import GeoPlatform.Library.Rejection
import GeoPlatform.Api.KeyFormats
import GeoPlatform.Library.Interaction
import GeoPlatform.Api.Middleware
import GeoPlatform.Api.MiddlewareRuns
import GeoPlatform.Api.MiddlewareRecords
import GeoPlatform.Api.MiddlewareHeaders
import GeoPlatform.Api.FailureLimiter
import GeoPlatform.Library.RunImage
import GeoPlatform.Api.Access
import GeoPlatform.Api.AccessRuns
import GeoPlatform.Api.AccessMemory
import GeoPlatform.Convex.SystemAccount
import GeoPlatform.Library.Semaphore
import GeoPlatform.Api.Slots
import GeoPlatform.Library.HitWindows
import GeoPlatform.Library.Json
import GeoPlatform.Web.AuthProxy
import GeoPlatform.Convex.HttpRuns
import GeoPlatform.Api.GatewayClient
import GeoPlatform.Api.AccessLink
