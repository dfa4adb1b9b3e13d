import Psiphon.Meek.Downstream
import Psiphon.Meek.FailedRelay
import Psiphon.Meek.Expiry
import Psiphon.Ops.PsiphondConfig
import Psiphon.Ops.Disclosure
import Psiphon.Ops.Retry
import Psiphon.Ops.DirtyFlag
import Psiphon.Ops.SponsorLists
import Psiphon.Ops.ReplaceDiscovery
import Psiphon.Ops.ReplaceServers
import Psiphon.Ops.UpgradeTotal
import Psiphon.Ops.FirewallReach
import Psiphon.Client.ProxyFailure
import Psiphon.Client.StopBarrier
import Psiphon.Client.SignedPackage
import Psiphon.Android.StoppedTunnel
import Psiphon.Android.VerifiedUpgrade
import Psiphon.Feedback.StoredFeedback
import Psiphon.Feedback.ExportedOnce
import Psiphon.Stats.Columns
import Psiphon.Stats.Incremental
import Psiphon.Ops.Routes
import Psiphon.Discovery.Buckets
import Psiphon.Web.Stores
import Psiphon.Client.RegistryFailure
import Psiphon.Client.PolipoReads
import Psiphon.Ops.RemoveHosts
import Psiphon.Ops.Migrate
import Psiphon.Ops.Export
import Psiphon.Client.SavedSettings
import Psiphon.Client.HomePages
import Psiphon.Client.HttpsRequest
import Psiphon.Android.DataPackage
import Psiphon.Android.TransferBuckets
import Psiphon.Responder.LetterCase
import Psiphon.Responder.EveryEntry
import Psiphon.Ops.ObjectNames
import Psiphon.Android.UpstreamProxyUrl
import Psiphon.Android.LegacyEntries
import Psiphon.Android.SafetyNet
import Psiphon.Meek.TurnAround
import Psiphon.PyClient.DataFile
import Psiphon.Meek.Payload
import Psiphon.Ops.Persistence
import Psiphon.Client.TickCount
import Psiphon.Ops.WeightedChoice
import Psiphon.Client.HexCoding
