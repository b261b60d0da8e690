import Masterserver.Lib.Dict
import Masterserver.Lib.DictMerge
import Masterserver.Lib.Json
import Masterserver.Lib.Binary64
import Masterserver.Lib.JsonDecode
import Masterserver.Lib.JsonRoundTrip
import Masterserver.Lib.JsonNumber
import Masterserver.Lib.Outcome
import Masterserver.Lib.JsonGrammar
import Masterserver.Lib.JsonComplete
import Masterserver.Lib.JsonCanonical
import Masterserver.Lib.JsonSize
import Masterserver.Lib.JsonSame
import Masterserver.Lib.JsonDigits
import Masterserver.Lib.Rounding
import Masterserver.Lib.JsonPrinted
import Masterserver.Lib.JsonWritten
import Masterserver.Lib.JsonInjective
import Masterserver.Lib.Sorting
import Masterserver.Lib.Ranking
import Masterserver.Lib.System
import Masterserver.Lib.Spending
import Masterserver.Lib.Metering
import Masterserver.Lib.Lease
import Masterserver.Lib.Window
import Masterserver.Lib.Since
import Masterserver.Lib.Recency
import Masterserver.Lib.OrderStatistic
import Masterserver.Lib.Channel
import Masterserver.Lib.Greedy
import Masterserver.App.Config
import Masterserver.App.StrictJson
import Masterserver.App.RateLimits
import Masterserver.App.Admission
import Masterserver.App.SessionCrypto
import Masterserver.App.Protocol
import Masterserver.App.Trust
import Masterserver.App.Hub
import Masterserver.App.NodeMesh
import Masterserver.App.Server
import Masterserver.App.NodeLink
import Masterserver.App.NodeHello
import Masterserver.App.Signing
import Masterserver.App.Routes
import Masterserver.App.V2
import Masterserver.App.Metrics
import Masterserver.App.Turn
import Masterserver.App.Health
import Masterserver.App.Hpke
import Masterserver.Runs.Admission
import Masterserver.Runs.Hub
import Masterserver.Runs.Mesh
import Masterserver.Runs.Network
import Masterserver.Runs.Node
import Masterserver.Runs.Session
import Masterserver.Runs.Server
import Masterserver.Runs.Exchange
import Masterserver.Runs.Links
import Masterserver.Runs.Signing
import Masterserver.Runs.Metrics
import Masterserver.Runs.Pending
import Masterserver.Runs.ClockSkew
import Masterserver.Proofs.Buckets
import Masterserver.Proofs.BucketRuns
import Masterserver.Proofs.Admission
import Masterserver.Proofs.StrictTree
import Masterserver.Proofs.Validation
import Masterserver.Proofs.BadFrames
import Masterserver.Proofs.StrictLanguage
import Masterserver.Proofs.Fields
import Masterserver.Proofs.Grammar
import Masterserver.Proofs.Digests
import Masterserver.Proofs.HubOps
import Masterserver.Proofs.HubActions
import Masterserver.Proofs.HubRoutes
import Masterserver.Proofs.HubOutbound
import Masterserver.Proofs.Sessions
import Masterserver.Proofs.Endpoints
import Masterserver.Proofs.EndpointsV1
import Masterserver.Proofs.SignalChecks
import Masterserver.Proofs.EndpointsV2
import Masterserver.Proofs.ServerRuns
import Masterserver.Proofs.ProofSafety
import Masterserver.Proofs.MessageRate
import Masterserver.Proofs.Handovers
import Masterserver.Proofs.Healing
import Masterserver.Proofs.Relays
import Masterserver.Proofs.RouteAuthority
import Masterserver.Proofs.SignalOnce
import Masterserver.Proofs.Isolation
import Masterserver.Proofs.Directed
import Masterserver.Proofs.MeshOps
import Masterserver.Proofs.Registry
import Masterserver.Proofs.SingleOwner
import Masterserver.Proofs.Membership
import Masterserver.Proofs.SplitBrain
import Masterserver.Proofs.Rebalancing
import Masterserver.Proofs.Placement
import Masterserver.Proofs.PeerFrame
import Masterserver.Proofs.LocalEntries
import Masterserver.Proofs.SessionMap
import Masterserver.Proofs.Refusals
import Masterserver.Proofs.Lookups
import Masterserver.Proofs.BucketOwners
import Masterserver.Proofs.Registrable
import Masterserver.Proofs.Remembered
import Masterserver.Proofs.DedupeWindow
import Masterserver.Proofs.LinkInput
import Masterserver.Proofs.IdleRecipient
import Masterserver.Proofs.Attendance
import Masterserver.Proofs.Departures
import Masterserver.Proofs.RequestOps
import Masterserver.Proofs.Requests
import Masterserver.Proofs.PeerTexts
import Masterserver.Proofs.CanonicalBytes
import Masterserver.Proofs.SignedObjects
import Masterserver.Proofs.Grants
import Masterserver.Proofs.Manifests
import Masterserver.Proofs.OneLink
import Masterserver.Proofs.DeliveryReports
import Masterserver.Proofs.NodeFrames
import Masterserver.Proofs.SentMessages
import Masterserver.Proofs.PeersReply
import Masterserver.Proofs.Discovery
import Masterserver.Proofs.PeerEntries
import Masterserver.Proofs.Failover
import Masterserver.Proofs.StaleDescriptors
import Masterserver.Proofs.Suspicion
import Masterserver.Proofs.PendingCalls
import Masterserver.Proofs.HopLimit
import Masterserver.Proofs.Histograms
import Masterserver.Proofs.FiniteNumbers
import Masterserver.Proofs.TurnReadiness
import Masterserver.Proofs.ClockSkew
import Masterserver.Proofs.ReplayKeys
import Masterserver.Proofs.Quantile
import Masterserver.Proofs.HexFields
import Masterserver.Proofs.WireRoom
import Masterserver.Proofs.HubCalls
import Masterserver.Proofs.HubMoves
import Masterserver.Proofs.Deliveries
import Masterserver.Proofs.SignalOrder
import Masterserver.Proofs.LeaseRate
import Masterserver.Proofs.Answers
import Masterserver.Proofs.Sealing
import Masterserver.Proofs.BucketExact
