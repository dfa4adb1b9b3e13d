import Psiphon.Lib.Records
import Psiphon.Python

/-!
# Upgrading the network database

`PsiphonNetwork.upgrade` of `psi_ops.py`. Reading an attribute that a loaded object does not have
raises. Versions are the minor numbers of `0.0` to `0.45`.
-/

namespace Psiphon.Ops.Upgrade

open Records (Assignment Record)

inductive Value where
  | none
  | bool (b : Bool)
  | int (n : ℤ)
  | text (s : String)
  | list (items : List Value)
  | set (items : List Value)
  | dict (items : List (String × Value))
  /-- A record of the named type with its default fields. -/
  | record (typename : String)

def Value.truthy : Value → Bool
  | .none => false
  | .bool b => b
  | .int n => n != 0
  | .text s => s != ""
  | .list items | .set items => !items.isEmpty
  | .dict items => !items.isEmpty
  | .record _ => true

/-- The attributes of the network that a step assigns or reads, and the same of its Linode
account. -/
inductive Attribute where
  | clientVersions
  | deployBuildsRequiredForCampaigns
  | linodeApiKey
  | providerRanks
  | elastichostsAccounts
  | speedTestUrls
  | remoteServerListSigningKeyPair
  | feedbackEncryptionKeyPair
  | feedbackUploadInfo
  | upgradePackageSigningKeyPair
  | defaultEmailAutoresponderAccount
  | deployWebsiteRequiredForSponsors
  | automationBucket
  | digitaloceanAccount
  | discoveryStrategyValueHmacKey
  | androidHomeTabUrlExclusions
  | alternateMeekFrontingAddresses
  | routesSigningKeyPair
  | alternateMeekFrontingAddressesRegex
  | meekFrontingDisableSNI
  | vpsnetAccount
  | linodeTcsBaseRootPassword
  | linodeTcsBaseHostPublicKey
  | tcsTrafficRulesSet
  | tcsPsiphondConfigValues
  | tcsOslConfig
  | defaultSponsorId
  | deployPaveOslsRequiredForPropagationChannels
  | alternateS3BucketDomains
  deriving DecidableEq, Repr

/-- The collections of records. `campaigns` are those of all sponsors. -/
inductive Collection where
  | sponsors
  | campaigns
  | propagationChannels
  | hosts
  | deletedHosts
  | hostsToRemoveFromProviders
  | servers
  | deletedServers
  deriving DecidableEq, Repr

/-- The fields of the record types, but for `capabilities`. -/
inductive Field where
  | id
  | logs
  | name
  | propagationMechanismTypes
  | propagatorManagedUpgrades
  | newDiscoveryServersCount
  | newPropagationServersCount
  | maxDiscoveryServerAgeInDays
  | maxPropagationServerAgeInDays
  | banner
  | websiteBanner
  | websiteBannerLink
  | homePages
  | mobileHomePages
  | campaigns
  | pageViewRegexes
  | httpsRequestRegexes
  | useDataFromSponsorId
  | propagationChannelId
  | propagationMechanismType
  | account
  | s3BucketName
  | alternateS3BucketName
  | languages
  | platforms
  | customDownloadSite
  | isTCS
  | tcsType
  | provider
  | providerId
  | ipAddress
  | sshPort
  | sshUsername
  | sshPassword
  | sshHostKey
  | statsSshUsername
  | statsSshPassword
  | datacenterName
  | region
  | meekServerPort
  | meekServerObfuscatedKey
  | meekServerFrontingDomain
  | meekServerFrontingHost
  | alternateMeekServerFrontingHosts
  | meekCookieEncryptionPublicKey
  | meekCookieEncryptionPrivateKey
  | hostId
  | egressIpAddress
  | internalIpAddress
  | isEmbedded
  | isPermanent
  | discoveryDateRange
  | webServerPort
  | webServerSecret
  | webServerCertificate
  | webServerPrivateKey
  | tcsSshPrivateKey
  | sshObfuscatedPort
  | sshObfuscatedKey
  | alternateSshObfuscatedPorts
  | oslIds
  | oslDiscoveryDateRange
  deriving DecidableEq, Repr

/-- The fields of the current record type of a collection. -/
def Collection.fields : Collection → List Field
  | sponsors =>
    [.id, .name, .banner, .websiteBanner, .websiteBannerLink, .homePages, .mobileHomePages,
      .campaigns, .pageViewRegexes, .httpsRequestRegexes, .useDataFromSponsorId, .logs]
  | campaigns =>
    [.propagationChannelId, .propagationMechanismType, .account, .s3BucketName,
      .alternateS3BucketName, .languages, .platforms, .customDownloadSite, .logs]
  | propagationChannels =>
    [.id, .name, .propagationMechanismTypes, .propagatorManagedUpgrades,
      .newDiscoveryServersCount, .newPropagationServersCount, .maxDiscoveryServerAgeInDays,
      .maxPropagationServerAgeInDays, .logs]
  | hosts | deletedHosts | hostsToRemoveFromProviders =>
    [.id, .isTCS, .tcsType, .provider, .providerId, .ipAddress, .sshPort, .sshUsername,
      .sshPassword, .sshHostKey, .statsSshUsername, .statsSshPassword, .datacenterName, .region,
      .meekServerPort, .meekServerObfuscatedKey, .meekServerFrontingDomain,
      .meekServerFrontingHost, .alternateMeekServerFrontingHosts,
      .meekCookieEncryptionPublicKey, .meekCookieEncryptionPrivateKey, .logs]
  | servers | deletedServers =>
    [.id, .hostId, .ipAddress, .egressIpAddress, .internalIpAddress, .propagationChannelId,
      .isEmbedded, .isPermanent, .discoveryDateRange, .webServerPort, .webServerSecret,
      .webServerCertificate, .webServerPrivateKey, .sshPort, .sshUsername, .sshPassword,
      .sshHostKey, .tcsSshPrivateKey, .sshObfuscatedPort, .sshObfuscatedKey,
      .alternateSshObfuscatedPorts, .oslIds, .oslDiscoveryDateRange, .logs]

def Collection.holdsServers (c : Collection) : Bool := c = .servers || c = .deletedServers

/-! ### Capabilities -/

/-- The keys of a `capabilities` dictionary, over all versions. -/
inductive CapabilityKey where
  | handshake
  | sshApiRequests
  | vpn
  | ssh
  | sshPlus
  | ossh
  | frontedMeek
  | unfrontedMeek
  | unfrontedMeekSessionTicket
  deriving DecidableEq, Repr

/-- The keys that `copy_server_capabilities` reads. -/
def copiedKeys : List CapabilityKey :=
  [.handshake, .sshApiRequests, .vpn, .ssh, .ossh, .frontedMeek, .unfrontedMeek,
    .unfrontedMeekSessionTicket]

abbrev CapabilityDict := Record CapabilityKey Bool

def CapabilityDict.truthy (d : CapabilityDict) : Bool :=
  (.sshPlus :: copiedKeys).any fun key => (d key).isSome

/-- `ServerCapabilities()`, as it is today. -/
def newServerCapabilities : CapabilityDict
  | .handshake | .vpn | .ssh | .ossh => some true
  | .sshApiRequests | .frontedMeek | .unfrontedMeek | .unfrontedMeekSessionTicket => some false
  | .sshPlus => none

/-- What the body of a loop over servers does to `server.capabilities`. -/
inductive CapabilityUpdate where
  | keep
  /-- `server.capabilities = ServerCapabilities()` -/
  | create
  /-- The value of `SSH+` is moved to `OSSH`. -/
  | renameSshPlus
  /-- `if server.capabilities:` each of the keys is assigned `False`. -/
  | disable (keys : List CapabilityKey)

/-- The field `capabilities` of a server: it may be unset, and it may be `None`. -/
abbrev CapabilitiesField := Option (Option CapabilityDict)

def CapabilityUpdate.run : CapabilityUpdate → CapabilitiesField → Py CapabilitiesField
  | keep, field => .ok field
  | create, _ => .ok (some (some newServerCapabilities))
  | renameSshPlus, none => .error .attributeError
  | renameSshPlus, some none => .error .typeError
  | renameSshPlus, some (some d) =>
    match d .sshPlus with
    | none => .error .keyError
    | some b =>
      .ok (some (some (Function.update (Function.update d .ossh (some b)) .sshPlus none)))
  | disable _, none => .error .attributeError
  | disable _, some none => .ok (some none)
  | disable keys, some (some d) =>
    .ok (some (some (if d.truthy then
      keys.foldl (fun d key => Function.update d key (some false)) d else d)))

/-! ### Statements -/

structure Entry where
  fields : Record Field Value
  capabilities : CapabilitiesField

/-- A loaded object. A collection whose attribute the object does not have is `none`. -/
structure Database where
  version : ℕ
  attributes : Record Attribute Value
  records : Collection → Option (List Entry)

structure Env where
  /-- `binascii.b2a_hex(os.urandom(32))` -/
  hmacKey : String
  /-- The banner as a PNG, unless the conversion raises. -/
  toPng : Value → Option Value
  /-- `psi_linode.get_datacenter_names`, a dictionary by the id of the provider. -/
  datacenterNames : Py (Value → Option String)

inductive Statement where
  | assign (a : Assignment Attribute Value)
  /-- The attribute of the collection is assigned an empty one. -/
  | create (c : Collection)
  | upgradeHostDatacenterNames
  | forEach (c : Collection) (body : List (Assignment Field Value))
      (capabilities : CapabilityUpdate)

def Database.getRecords (db : Database) (c : Collection) : Py (List Entry) :=
  match db.records c with
  | some entries => .ok entries
  | none => .error .attributeError

def Database.setRecords (db : Database) (c : Collection) (entries : List Entry) : Database :=
  { db with records := Function.update db.records c (some entries) }

def Entry.run (body : List (Assignment Field Value)) (capabilities : CapabilityUpdate)
    (entry : Entry) : Py Entry := do
  let fields ← Records.exec .attributeError body entry.fields
  return ⟨fields, ← capabilities.run entry.capabilities⟩

/-- The round of `__upgrade_host_datacenter_names`. -/
def Entry.nameDatacenter (names : Value → Option String) (host : Entry) : Py Entry := do
  match ← Records.getField .attributeError host.fields .provider with
  | .text provider =>
    let name ← if provider.toLower = "linode" then do
        match names (← Records.getField .attributeError host.fields .providerId) with
        | some name => pure name
        | none => throw .keyError
      else pure provider
    return { host with fields := Function.update host.fields .datacenterName (some (.text name)) }
  | _ => throw .attributeError

def Statement.run (env : Env) : Statement → Database → Py Database
  | assign a, db => do return { db with attributes := ← a.exec .attributeError db.attributes }
  | create c, db => return db.setRecords c []
  | upgradeHostDatacenterNames, db => do
    if (← Records.getField .attributeError db.attributes .linodeApiKey).truthy then do
      let names ← env.datacenterNames
      let hosts ← (← db.getRecords .hosts).mapM (Entry.nameDatacenter names)
      return db.setRecords .hosts hosts
    else return db
  | forEach c body capabilities, db => do
    let entries ← (← db.getRecords c).mapM (Entry.run body capabilities)
    return db.setRecords c entries

/-! ### The steps -/

/-- `self.__attribute = value` -/
def attr (name : Attribute) (value : Value) : Statement := .assign (Records.set name value)

/-- The same assignments of constants for every record of a collection. -/
def fill (c : Collection) (body : List (Field × Value)) : Statement :=
  .forEach c (body.map fun (field, value) => Records.set field value) .keep

/-- Versions `0.8` and on keep an attribute for each platform. -/
def byPlatform (android : Value) (name : Attribute) : Statement :=
  .assign ⟨name, .read name fun windows => .dict [("Windows", windows), ("Android", android)]⟩

/-- The six fields of a host's meek server. -/
def noMeekServer : List (Field × Value) :=
  [(.meekServerPort, .none), (.meekServerObfuscatedKey, .none), (.meekServerFrontingDomain, .none),
    (.meekServerFrontingHost, .none), (.meekCookieEncryptionPublicKey, .none),
    (.meekCookieEncryptionPrivateKey, .none)]

/-- `'DOCKER' if host.is_TCS else None` -/
def setTcsType : Assignment Field Value :=
  ⟨.tcsType, .read .isTCS fun isTCS => if isTCS.truthy then .text "DOCKER" else .none⟩

/-- The banner is converted when it is set; one that cannot be converted stays. -/
def convertBanner (env : Env) : Assignment Field Value :=
  ⟨.banner, .read .banner fun banner =>
    if banner.truthy then (env.toPng banner).getD banner else banner⟩

/-- The statements under `if cmp(parse_version(self.version), parse_version('0.n')) < 0`. -/
def statements (env : Env) : ℕ → List Statement
  | 1 => [attr .providerRanks (.list []), attr .elastichostsAccounts (.list [])]
  | 2 => [fill .servers [(.sshObfuscatedPort, .none), (.sshObfuscatedKey, .none)]]
  | 3 => [fill .hosts [(.provider, .none)]]
  | 4 => [fill .sponsors [(.pageViewRegexes, .list []), (.httpsRequestRegexes, .list [])]]
  | 5 => [attr .speedTestUrls (.list [])]
  | 6 => [fill .propagationChannels
      [(.newDiscoveryServersCount, .int 0), (.newPropagationServersCount, .int 0),
        (.maxDiscoveryServerAgeInDays, .int 0), (.maxPropagationServerAgeInDays, .int 0)]]
  | 7 => [attr .remoteServerListSigningKeyPair .none]
  | 8 => [byPlatform (.list []) .clientVersions,
      byPlatform (.set []) .deployBuildsRequiredForCampaigns]
  | 9 => [fill .hosts [(.datacenterName, .text "")], .upgradeHostDatacenterNames,
      .create .deletedHosts, .create .deletedServers]
  | 10 => [.forEach .servers [⟨.internalIpAddress, .read .ipAddress id⟩] .create,
      .forEach .deletedServers [⟨.internalIpAddress, .read .ipAddress id⟩] .create]
  | 11 => [.forEach .servers [] .renameSshPlus, .forEach .deletedServers [] .renameSshPlus]
  | 12 => [attr .feedbackEncryptionKeyPair .none]
  | 13 => [fill .campaigns [(.languages, .none)]]
  | 14 => [attr .feedbackUploadInfo .none]
  | 15 => [fill .servers [(.isPermanent, .bool false)],
      fill .deletedServers [(.isPermanent, .bool false)]]
  | 16 => [fill .campaigns [(.customDownloadSite, .bool false)]]
  | 17 => [attr .upgradePackageSigningKeyPair .none]
  | 18 => [attr .defaultEmailAutoresponderAccount .none]
  | 19 => [.create .hostsToRemoveFromProviders]
  | 20 => [fill .hosts [(.region, .text "")], fill .deletedHosts [(.region, .text "")]]
  | 21 => [fill .propagationChannels [(.propagatorManagedUpgrades, .bool false)]]
  | 22 => [attr .deployWebsiteRequiredForSponsors (.set []),
      fill .sponsors [(.websiteBanner, .none), (.websiteBannerLink, .none)]]
  | 23 => [attr .automationBucket .none]
  | 24 => [attr .digitaloceanAccount (.record "DigitalOceanAccount")]
  | 25 => [fill .servers [(.alternateSshObfuscatedPorts, .list [])],
      fill .deletedServers [(.alternateSshObfuscatedPorts, .list [])]]
  | 26 => [attr .discoveryStrategyValueHmacKey (.text env.hmacKey),
      fill .hosts noMeekServer, fill .deletedHosts noMeekServer,
      fill .hostsToRemoveFromProviders noMeekServer,
      .forEach .servers [] (.disable [.frontedMeek, .unfrontedMeek]),
      .forEach .deletedServers [] (.disable [.frontedMeek, .unfrontedMeek])]
  | 27 => [fill .sponsors [(.mobileHomePages, .dict [])]]
  | 28 => [attr .androidHomeTabUrlExclusions (.set [])]
  | 29 => [attr .alternateMeekFrontingAddresses (.dict [])]
  | 30 => [attr .routesSigningKeyPair .none]
  | 31 => [fill .campaigns [(.platforms, .none)]]
  | 32 => [fill .sponsors [(.useDataFromSponsorId, .none)]]
  | 33 => [attr .alternateMeekFrontingAddressesRegex (.dict [])]
  | 34 => [.forEach .sponsors [convertBanner env] .keep]
  | 35 => [attr .meekFrontingDisableSNI (.dict []),
      fill .hosts [(.alternateMeekServerFrontingHosts, .none)],
      fill .deletedHosts [(.alternateMeekServerFrontingHosts, .none)],
      fill .hostsToRemoveFromProviders [(.alternateMeekServerFrontingHosts, .none)]]
  | 36 => [attr .vpsnetAccount (.record "VPSNetAccount")]
  | 37 => [fill .hosts [(.isTCS, .bool false)], fill .deletedHosts [(.isTCS, .bool false)],
      fill .hostsToRemoveFromProviders [(.isTCS, .bool false)],
      fill .servers [(.tcsSshPrivateKey, .none)], fill .deletedServers [(.tcsSshPrivateKey, .none)],
      .forEach .servers [] (.disable [.sshApiRequests]),
      .forEach .deletedServers [] (.disable [.sshApiRequests]),
      attr .linodeTcsBaseRootPassword (.text ""), attr .linodeTcsBaseHostPublicKey (.text ""),
      attr .tcsTrafficRulesSet (.text "\x7b\x7d"), attr .tcsPsiphondConfigValues (.dict [])]
  | 38 => [attr .tcsOslConfig (.text "\x7b\x7d")]
  | 39 => [attr .defaultSponsorId .none]
  | 40 => [.forEach .servers [] (.disable [.unfrontedMeekSessionTicket]),
      .forEach .deletedServers [] (.disable [.unfrontedMeekSessionTicket])]
  | 41 => [fill .campaigns [(.alternateS3BucketName, .none)]]
  | 42 => [attr .deployPaveOslsRequiredForPropagationChannels (.set [])]
  | 43 => [fill .servers [(.oslIds, .none), (.oslDiscoveryDateRange, .none)],
      fill .deletedServers [(.oslIds, .none), (.oslDiscoveryDateRange, .none)]]
  | 44 => [.forEach .hosts [setTcsType] .keep, .forEach .deletedHosts [setTcsType] .keep,
      .forEach .hostsToRemoveFromProviders [setTcsType] .keep]
  | 45 => [attr .alternateS3BucketDomains (.set [])]
  | _ => []

def classVersion : ℕ := 45

/-- One `if` of `upgrade`. -/
def upgradeTo (env : Env) (n : ℕ) (db : Database) : Py Database :=
  if db.version < n then do
    let db ← (statements env n).foldlM (fun db statement => statement.run env db) db
    return { db with version := n }
  else return db

/-- The first `n` of them. -/
def upgradeSteps (env : Env) : ℕ → Database → Py Database
  | 0, db => .ok db
  | n + 1, db => do upgradeTo env (n + 1) (← upgradeSteps env n db)

def upgrade (env : Env) (db : Database) : Py Database := upgradeSteps env classVersion db

end Psiphon.Ops.Upgrade
