import Mathlib.Data.List.AList
import Mathlib.Data.Fintype.Defs
import Psiphon.Lib.Table
import Psiphon.Python

/-!
# The network database

The records of `psi_ops.py` and the `PsiphonNetwork` object. Dictionaries that keep records under
their own ids are tables, in the order in which Python happens to iterate over them.
-/

namespace Psiphon.Ops

/-- An instant in microseconds, in the local time of the scripts. -/
abbrev Date := ℤ

abbrev Id := String

/-- The log that a record type adds to its records; creating a record writes the first
entry. -/
abbrev Logs := List (Date × String)

inductive Platform where
  | windows
  | android
  | ios
  deriving DecidableEq, Repr

inductive Mechanism where
  | twitter
  | emailAutoresponder
  | staticDownload
  deriving DecidableEq, Repr

structure PropagationChannel where
  id : Id
  name : String
  deriving DecidableEq, Repr

structure SponsorHomePage where
  region : String
  url : String
  logs : Logs
  deriving DecidableEq, Repr

structure SponsorRegex where
  regex : String
  replace : String
  logs : Logs
  deriving DecidableEq, Repr

structure SponsorCampaign where
  propagationChannelId : Id
  propagationMechanismType : Mechanism
  s3BucketName : Option String
  platforms : Option (List Platform)
  deriving DecidableEq, Repr

abbrev HomePages := AList fun _ : String => List SponsorHomePage

structure Sponsor where
  id : Id
  name : String
  homePages : HomePages
  mobileHomePages : HomePages
  campaigns : List SponsorCampaign
  pageViewRegexes : List SponsorRegex
  httpsRequestRegexes : List SponsorRegex
  useDataFromSponsorId : Option Id

structure Host where
  id : Id
  isTCS : Bool
  provider : String
  providerId : String
  region : Option String
  meekServerPort : Option Port
  meekServerObfuscatedKey : Option String
  meekServerFrontingDomain : Option String
  meekServerFrontingHost : Option String
  alternateMeekServerFrontingHosts : List String
  meekCookieEncryptionPublicKey : Option String
  meekCookieEncryptionPrivateKey : Option String
  deriving DecidableEq, Repr

/-- The keys of a server's `capabilities`, and the two that only server entries have. -/
inductive Capability where
  | handshake
  | sshApiRequests
  | vpn
  | ssh
  | ossh
  | frontedMeek
  | unfrontedMeek
  | unfrontedMeekSessionTicket
  | unfrontedMeekHttps
  | frontedMeekHttp
  deriving DecidableEq, Repr

def Capability.all : List Capability :=
  [.handshake, .sshApiRequests, .vpn, .ssh, .ossh, .frontedMeek, .unfrontedMeek,
    .unfrontedMeekSessionTicket, .unfrontedMeekHttps, .frontedMeekHttp]

abbrev Capabilities := Capability → Bool

def serverCapabilities : Capabilities
  | .handshake | .vpn | .ssh | .ossh => true
  | _ => false

structure Server where
  id : Id
  hostId : Id
  ipAddress : String
  egressIpAddress : String
  internalIpAddress : String
  propagationChannelId : Id
  isEmbedded : Bool
  isPermanent : Bool
  discoveryDateRange : Option (Date × Date)
  capabilities : Option Capabilities
  webServerPort : String
  webServerSecret : Option String
  webServerCertificate : Option String
  webServerPrivateKey : Option String
  sshPort : Option Port
  sshUsername : Option String
  sshPassword : Option String
  sshHostKey : Option String
  sshObfuscatedPort : Option Port
  sshObfuscatedKey : Option String
  alternateSshObfuscatedPorts : List Port

structure ClientVersion where
  version : String
  description : String
  deriving DecidableEq, Repr

structure SpeedTestURL where
  serverAddress : String
  serverPort : String
  requestPath : String
  deriving DecidableEq, Repr

/-- A build target: a propagation channel and a sponsor. -/
abbrev Target := Id × Id

/-- A `PsiphonNetwork` object. Python sets are lists here. -/
structure Network where
  isLocked : Bool
  sponsors : Table Sponsor.id
  propagationChannels : Table PropagationChannel.id
  hosts : Table Host.id
  deletedHosts : List Host
  servers : Table Server.id
  deletedServers : List Server
  hostsToRemoveFromProviders : List Host
  clientVersions : Platform → List ClientVersion
  speedTestUrls : List SpeedTestURL
  defaultSponsorId : Option Id
  alternateMeekFrontingAddresses : String → List String
  alternateMeekFrontingAddressesRegex : String → String
  meekFrontingDisableSNI : String → Bool
  deployImplementationRequiredForHosts : List Id
  deployDataRequiredForAll : Bool
  deployBuildsRequiredForCampaigns : Platform → List Target
  deployStatsConfigRequired : Bool
  deployEmailConfigRequired : Bool
  deployWebsiteRequiredForSponsors : List Id
  deployPaveOslsRequiredForPropagationChannels : List Id

namespace Network

def init : Network where
  isLocked := false
  sponsors := .empty _
  propagationChannels := .empty _
  hosts := .empty _
  deletedHosts := []
  servers := .empty _
  deletedServers := []
  hostsToRemoveFromProviders := []
  clientVersions := fun _ => []
  speedTestUrls := []
  defaultSponsorId := none
  alternateMeekFrontingAddresses := fun _ => []
  alternateMeekFrontingAddressesRegex := fun _ => ""
  meekFrontingDisableSNI := fun _ => false
  deployImplementationRequiredForHosts := []
  deployDataRequiredForAll := false
  deployBuildsRequiredForCampaigns := fun _ => []
  deployStatsConfigRequired := false
  deployEmailConfigRequired := false
  deployWebsiteRequiredForSponsors := []
  deployPaveOslsRequiredForPropagationChannels := []

/-- `self.__hosts[server.host_id]`. -/
def getHostForServer (net : Network) (server : Server) : Py Host :=
  match net.hosts.get? server.hostId with
  | some host => .ok host
  | none => .error .keyError

end Network

def plainHost (id : Id) (isTCS : Bool) : Host where
  id := id
  isTCS := isTCS
  provider := ""
  providerId := ""
  region := none
  meekServerPort := none
  meekServerObfuscatedKey := none
  meekServerFrontingDomain := none
  meekServerFrontingHost := none
  alternateMeekServerFrontingHosts := []
  meekCookieEncryptionPublicKey := none
  meekCookieEncryptionPrivateKey := none

def plainServer (id hostId : Id) (discoveryDateRange : Option (Date × Date)) : Server where
  id := id
  hostId := hostId
  ipAddress := "10.0.0.1"
  egressIpAddress := "10.0.0.1"
  internalIpAddress := "10.0.0.1"
  propagationChannelId := ""
  isEmbedded := false
  isPermanent := false
  discoveryDateRange := discoveryDateRange
  capabilities := some serverCapabilities
  webServerPort := "8080"
  webServerSecret := some "secret"
  webServerCertificate := some "certificate"
  webServerPrivateKey := some "key"
  sshPort := some (.int 22)
  sshUsername := some "user"
  sshPassword := some "password"
  sshHostKey := some "ssh-rsa key"
  sshObfuscatedPort := some (.str "53")
  sshObfuscatedKey := some "obfuscated"
  alternateSshObfuscatedPorts := []

def Server.discoverable (date : Date) (server : Server) : Bool :=
  match server.discoveryDateRange with
  | none => false
  | some (first, last) => decide (first ≤ date) && decide (date < last)

end Psiphon.Ops
