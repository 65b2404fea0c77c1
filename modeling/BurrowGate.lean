import BurrowGate.Ha.WritablePrimary
import BurrowGate.Ha.EpochMonotone
import BurrowGate.Ha.PromotionBarrier
import BurrowGate.Ha.PromotionIntent
import BurrowGate.Replication.CatchUp
import BurrowGate.Routes.PathGlobs
import BurrowGate.Routes.PolicyCache
import BurrowGate.Search.LiteralSearch
import BurrowGate.Search.SqlAgreement
import BurrowGate.Cache.Representation
import BurrowGate.Firewall.NftInjection
import BurrowGate.CrowdSec.AgesOut
import BurrowGate.CrowdSec.Poller
import BurrowGate.Network.NetworkContract
import BurrowGate.Http.CorsMerge
import BurrowGate.Http.BodyCapture
import BurrowGate.Http.Cookies
import BurrowGate.Http.GuardedBody
import BurrowGate.Http.UpstreamBody
import BurrowGate.Access.LoginBound
import BurrowGate.Bandwidth.Conservation
import BurrowGate.Bandwidth.LimitWindows
import BurrowGate.PendingChange.AppliedOnce
import BurrowGate.Balancer.Availability
import BurrowGate.Privacy.Recovery
import BurrowGate.Health.PoolEvents
import BurrowGate.Notification.NeverStuck
import BurrowGate.ProxyProtocol.RoundTrip
import BurrowGate.AccessList.LostUpdate
import BurrowGate.Admin.AdministratorRemains
import BurrowGate.Admin.SecondFactorBound
import BurrowGate.Ruleset.AbsentFields
import BurrowGate.Ruleset.AppendedQuery
import BurrowGate.Balancer.SmoothWeights
import BurrowGate.Health.Hysteresis
import BurrowGate.Health.StreamHealth
import BurrowGate.Acme.IssuanceLocks
import BurrowGate.Sites.StaticFiles
import BurrowGate.Sdk.CacheInvalidation
import BurrowGate.Sdk.BrowserSession
import BurrowGate.Stream.AmplificationBacklog
import BurrowGate.Stream.StreamEdits
import BurrowGate.Stream.UdpQueues
import BurrowGate.Stream.Monitoring
import BurrowGate.Stream.NetworkEnforcement
import BurrowGate.TcpRelay.Faithful
import BurrowGate.TcpRelay.MinecraftLogin
import BurrowGate.TcpRelay.ProtectionOutrun
import BurrowGate.OriginSigning.DomainSeparation
import BurrowGate.Sso.LogoutOnce
import BurrowGate.Tls.ListenerReload
import BurrowGate.Sso.Identities
import BurrowGate.Firewall.SyncHash
import BurrowGate.Firewall.RuleDiff
import BurrowGate.Challenge.ReturnPath
import BurrowGate.Challenge.Snake
import BurrowGate.Challenge.FailureBan
import BurrowGate.Logging.NoLineLost
import BurrowGate.StreamProxy.ListenersMatch
import BurrowGate.WebSocketProxy.NoLeak
import BurrowGate.Ha.MembershipGrace
import BurrowGate.Net.CidrNotation
import BurrowGate.Maintenance.RetentionRuns
