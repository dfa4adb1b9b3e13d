import Psiphon.Ops.Deploy

/-!
# Operations on the database

An operation of `psi_ops.py` that raises only before its first assignment is a function from the
database to the new one; the others are scripts.
-/

namespace Psiphon.Ops

/-- An operation that raises before it assigns anything. -/
def updateNet (f : Network → Py Network) : Script Unit := do
  let w ← get
  let net ← raisePy (f w.net)
  assign fun _ => net

/-- Reading an attribute of what a lookup by name returned: it returned `None` if there was no
match. -/
def attributeOf {α : Type} : Option α → Py α
  | some a => .ok a
  | none => .error .attributeError

def createdLog (now : Date) : Logs := [(now, "created")]

namespace Network

def getSponsorByName (net : Network) (name : String) : Option Sponsor :=
  net.sponsors.records.find? fun sponsor => sponsor.name == name

def getPropagationChannelByName (net : Network) (name : String) : Option PropagationChannel :=
  net.propagationChannels.records.find? fun channel => channel.name == name

end Network

/-! ### Sponsors -/

def newSponsor (id name : String) : Sponsor where
  id := id
  name := name
  homePages := ∅
  mobileHomePages := ∅
  campaigns := []
  pageViewRegexes := []
  httpsRequestRegexes := []
  useDataFromSponsorId := none

def importSponsor (id name : String) (net : Network) : Py Network := do
  pyAssert net.isLocked
  pyAssert (!net.sponsors.contains id)
  pyAssert (!net.sponsors.records.any fun sponsor => sponsor.name == name)
  return { net with sponsors := net.sponsors.add (newSponsor id name) }

structure SponsorField (α : Type) where
  get : Sponsor → α
  set : α → Sponsor → Sponsor
  id_set : ∀ a sponsor, Sponsor.id (set a sponsor) = Sponsor.id sponsor

def homePagesField : SponsorField HomePages :=
  ⟨Sponsor.homePages, fun pages sponsor => { sponsor with homePages := pages }, fun _ _ => rfl⟩

def mobileHomePagesField : SponsorField HomePages :=
  ⟨Sponsor.mobileHomePages, fun pages sponsor => { sponsor with mobileHomePages := pages },
    fun _ _ => rfl⟩

def pageViewRegexesField : SponsorField (List SponsorRegex) :=
  ⟨Sponsor.pageViewRegexes, fun regexes sponsor => { sponsor with pageViewRegexes := regexes },
    fun _ _ => rfl⟩

def httpsRequestRegexesField : SponsorField (List SponsorRegex) :=
  ⟨Sponsor.httpsRequestRegexes,
    fun regexes sponsor => { sponsor with httpsRequestRegexes := regexes }, fun _ _ => rfl⟩

def Network.setSponsorField {α : Type} (field : SponsorField α) (id : Id) (a : α)
    (net : Network) : Network :=
  { net with sponsors := net.sponsors.modify id (field.set a) (field.id_set a) }

def putPages (region : String) (list : List SponsorHomePage) (pages : HomePages) : HomePages :=
  if region ∈ pages then pages.replace region list else pages.insert region list

/-- A home page is added, unless an equal record is there. Records are equal only if their
logs are. A region that is new gets the page in any case. -/
def addHomePage (field : SponsorField HomePages) (sponsorName region url : String) (now : Date)
    (net : Network) : Py Network := do
  pyAssert net.isLocked
  let sponsor ← attributeOf (net.getSponsorByName sponsorName)
  let homePage : SponsorHomePage := ⟨region, url, createdLog now⟩
  let list := ((field.get sponsor).lookup region).getD []
  if homePage ∈ list then return net
  else
    return { net.setSponsorField field sponsor.id
        (putPages region (list ++ [homePage]) (field.get sponsor)) with
      deployDataRequiredForAll := true }

def setSponsorHomePage : String → String → String → Date → Network → Py Network :=
  addHomePage homePagesField

def setSponsorMobileHomePage : String → String → String → Date → Network → Py Network :=
  addHomePage mobileHomePagesField

def removeSponsorHomePage (sponsorName region url : String) (now : Date) (net : Network) :
    Py Network := do
  pyAssert net.isLocked
  let sponsor ← attributeOf (net.getSponsorByName sponsorName)
  let homePage : SponsorHomePage := ⟨region, url, createdLog now⟩
  let list := (sponsor.homePages.lookup region).getD []
  if homePage ∈ list then
    return { net.setSponsorField homePagesField sponsor.id
        (putPages region (list.erase homePage) sponsor.homePages) with
      deployDataRequiredForAll := true }
  else return net

/-- A regex is added, unless there is one with the same pattern. -/
def addRegex (field : SponsorField (List SponsorRegex)) (sponsorName regex replace : String)
    (now : Date) (net : Network) : Py Network := do
  pyAssert net.isLocked
  let sponsor ← attributeOf (net.getSponsorByName sponsorName)
  if (field.get sponsor).any fun rx => rx.regex == regex then return net
  else
    return { net.setSponsorField field sponsor.id
        (field.get sponsor ++ [⟨regex, replace, createdLog now⟩]) with
      deployDataRequiredForAll := true }

def setSponsorPageViewRegex : String → String → String → Date → Network → Py Network :=
  addRegex pageViewRegexesField

def setSponsorHttpsRequestRegex : String → String → String → Date → Network → Py Network :=
  addRegex httpsRequestRegexesField

/-- The records popped while the list is enumerated, and those left. The position goes on
after a pop, so the record that follows a match is not looked at. -/
def popMatches (regex : String) : List SponsorRegex → List SponsorRegex × List SponsorRegex
  | [] => ([], [])
  | [rx] => if rx.regex == regex then ([rx], []) else ([], [rx])
  | rx :: next :: rest =>
    if rx.regex == regex then
      let popped := popMatches regex rest
      (rx :: popped.1, next :: popped.2)
    else
      let popped := popMatches regex (next :: rest)
      (popped.1, rx :: popped.2)

/-- `regexes.remove(regex)`, for a text: no record equals a text. -/
def removeText : Py Unit := .error .valueError

/-- The matching records have been popped when the removal of the text raises. -/
def removeRegex (field : SponsorField (List SponsorRegex)) (sponsorName regex : String) :
    Script Unit := do
  let w ← get
  raisePy (pyAssert w.net.isLocked)
  let sponsor ← raisePy (attributeOf (w.net.getSponsorByName sponsorName))
  let popped := popMatches regex (field.get sponsor)
  if popped.1 ≠ [] then do
    assign (Network.setSponsorField field sponsor.id popped.2)
    raisePy removeText
    assign fun net => { net with deployDataRequiredForAll := true }
  else pure ()

def removeSponsorPageViewRegex : String → String → Script Unit :=
  removeRegex pageViewRegexesField

def removeSponsorHttpsRequestRegex : String → String → Script Unit :=
  removeRegex httpsRequestRegexesField

def useDataField : SponsorField (Option Id) :=
  ⟨Sponsor.useDataFromSponsorId, fun id sponsor => { sponsor with useDataFromSponsorId := id },
    fun _ _ => rfl⟩

def addTargets (sponsor : Sponsor) (targets : List Target) : List Target :=
  sponsor.campaigns.foldl
    (fun targets campaign => targets.insert (campaign.propagationChannelId, sponsor.id)) targets

def setSponsorOverrideDataSponsorId (sponsorName useDataFromSponsorName : String)
    (net : Network) : Py Network := do
  pyAssert net.isLocked
  let override ← attributeOf (net.getSponsorByName useDataFromSponsorName)
  let sponsor ← attributeOf (net.getSponsorByName sponsorName)
  return { net.setSponsorField useDataField sponsor.id (some override.id) with
    deployBuildsRequiredForCampaigns := fun platform =>
      if platform ∈ clientPlatforms then
        addTargets sponsor (net.deployBuildsRequiredForCampaigns platform)
      else net.deployBuildsRequiredForCampaigns platform
    deployDataRequiredForAll := true
    deployWebsiteRequiredForSponsors :=
      net.deployWebsiteRequiredForSponsors.insert sponsor.id }

/-! ### Discovery dates -/

def minute : ℤ := 60 * 1000000

def day : ℤ := 24 * 60 * minute

/-- `__copy_date_range`: both dates without their seconds. -/
def copyDateRange (range : Date × Date) : Date × Date :=
  (range.1 / minute * minute, range.2 / minute * minute)

/-- A server of the channel that is discoverable today is no longer so. -/
def replacedServer (channelId : Id) (today : Date) (server : Server) : Server :=
  match server.discoveryDateRange with
  | none => server
  | some (first, last) =>
    if server.propagationChannelId = channelId ∧ first ≤ today ∧ today < last then
      { server with discoveryDateRange := some (first, today) }
    else server

theorem id_replacedServer (ci : Id) (t : Date) (s : Server) :
    Server.id (replacedServer ci t s) = Server.id s := by
  unfold replacedServer
  split
  · rfl
  · split <;> rfl

def replacePropagationChannelDiscoveryServers (channelId : Id) (now : Date) (net : Network) :
    Network :=
  { net with
    servers := net.servers.map (replacedServer channelId (now / day * day))
      (id_replacedServer channelId _) }

def Server.setChannel (channelId : Id) (server : Server) : Server :=
  { server with propagationChannelId := channelId }

def Server.setRange (range : Date × Date) (server : Server) : Server :=
  { server with discoveryDateRange := some range }

theorem Server.id_setChannel (ci : Id) (s : Server) : Server.id (s.setChannel ci) = Server.id s :=
  rfl

theorem Server.id_setRange (r : Date × Date) (s : Server) :
    Server.id (s.setRange r) = Server.id s := rfl

def Network.modifyServer (serverId : Id) (f : Server → Server)
    (hf : ∀ server, Server.id (f server) = Server.id server) (net : Network) : Network :=
  { net with servers := net.servers.modify serverId f hf }

/-- One round of the loop over the server names. -/
def setServer (channel : Option PropagationChannel) (range : Option (Date × Date))
    (serverName : Id) : Script Unit := do
  let w ← get
  let _ ← raisePy (lookup w.net.servers serverName)
  let channel ← raisePy (attributeOf channel)
  assign (Network.modifyServer serverName _ (Server.id_setChannel channel.id))
  match range with
  | none => throw (.raised .typeError)
  | some range =>
    assign (Network.modifyServer serverName _ (Server.id_setRange (copyDateRange range)))

/-- The servers that the channel has so far are replaced, if they are to be. -/
def replaceOtherServers (replaceOthers : Bool) (channel : Option PropagationChannel)
    (now : Date) : Script Unit :=
  if replaceOthers then do
    let channel ← raisePy (attributeOf channel)
    assign (replacePropagationChannelDiscoveryServers channel.id now)
  else pure ()

def setServersPropagationChannelAndDiscoveryDateRange (serverNames : List Id)
    (channelName : String) (range : Option (Date × Date)) (replaceOthers : Bool) (now : Date) :
    Script Unit := do
  let w ← get
  raisePy (pyAssert w.net.isLocked)
  let channel := w.net.getPropagationChannelByName channelName
  replaceOtherServers replaceOthers channel now
  serverNames.forM (setServer channel range)
  assign fun net => { net with deployDataRequiredForAll := true }

/-! ### Client versions and speed tests -/

def nextVersion (versions : List ClientVersion) : Py ℤ :=
  match versions.getLast? with
  | none => .ok 1
  | some last => (pyInt last.version).map (· + 1)

def addClientVersion (platform : Platform) (description : String) (net : Network) :
    Py Network := do
  pyAssert net.isLocked
  pyAssert (clientPlatforms.contains platform)
  let next ← nextVersion (net.clientVersions platform)
  return { net with
    clientVersions := Function.update net.clientVersions platform
      (net.clientVersions platform ++ [⟨toString next, description⟩])
    deployBuildsRequiredForCampaigns :=
      Function.update net.deployBuildsRequiredForCampaigns platform
        (net.sponsors.records.foldl (fun targets sponsor => addTargets sponsor targets)
          (net.deployBuildsRequiredForCampaigns platform))
    deployDataRequiredForAll := true }

def addSpeedTestUrl (url : SpeedTestURL) (net : Network) : Py Network := do
  pyAssert net.isLocked
  if url ∈ net.speedTestUrls then return net
  else
    return { net with
      speedTestUrls := net.speedTestUrls ++ [url]
      deployDataRequiredForAll := true }

/-! ### Hosts and servers -/

/-- `import_host`: the fields that are not arguments stay empty. -/
def importHost (id : Id) (isTCS : Bool) (provider providerId : String) (net : Network) :
    Py Network := do
  pyAssert net.isLocked
  pyAssert (!net.hosts.contains id)
  return { net with
    hosts := net.hosts.add
      { plainHost id isTCS with provider := provider, providerId := providerId } }

/-- `import_server`: the fields for obfuscated SSH are not arguments. -/
def importServer (server : Server) (net : Network) : Py Network := do
  pyAssert net.isLocked
  pyAssert (!net.servers.contains server.id)
  return { net with
    servers := net.servers.add { server with
      sshObfuscatedPort := none
      sshObfuscatedKey := none
      alternateSshObfuscatedPorts := [] } }

def Network.modifyHost (hostId : Id) (f : Host → Host)
    (hf : ∀ host, Host.id (f host) = Host.id host) (net : Network) : Network :=
  { net with hosts := net.hosts.modify hostId f hf }

/-- `server.capabilities[capability] = value`, for some capabilities. -/
def Server.setCapabilities (f : Capabilities → Capabilities) (server : Server) : Server :=
  { server with capabilities := server.capabilities.map f }

theorem Server.id_setCapabilities (f : Capabilities → Capabilities) (s : Server) :
    Server.id (s.setCapabilities f) = Server.id s := rfl

structure MeekKeys where
  obfuscatedKey : String
  cookiePublicKey : String
  cookiePrivateKey : String

def Host.setFronting (domain host : String) (h : Host) : Host :=
  { h with meekServerFrontingDomain := some domain, meekServerFrontingHost := some host }

def Host.setMeekPort (port : ℕ) (h : Host) : Host :=
  { h with meekServerPort := some (.int port) }

def Host.setObfuscatedKey (key : String) (h : Host) : Host :=
  { h with meekServerObfuscatedKey := some key }

def Host.setCookieKeys (publicKey privateKey : String) (h : Host) : Host :=
  { h with
    meekCookieEncryptionPublicKey := some publicKey
    meekCookieEncryptionPrivateKey := some privateKey }

theorem Host.id_setFronting (d host : String) (h : Host) :
    Host.id (h.setFronting d host) = Host.id h := rfl

theorem Host.id_setMeekPort (port : ℕ) (h : Host) : Host.id (h.setMeekPort port) = Host.id h := rfl

theorem Host.id_setObfuscatedKey (key : String) (h : Host) :
    Host.id (h.setObfuscatedKey key) = Host.id h := rfl

theorem Host.id_setCookieKeys (publicKey pk : String) (h : Host) :
    Host.id (h.setCookieKeys publicKey pk) = Host.id h := rfl

section

variable (env : Outside)

def setupObfuscatedKey (host : Host) (keys : MeekKeys) : Script Unit :=
  if textTruthy host.meekServerObfuscatedKey then pure ()
  else assign (Network.modifyHost host.id _ (Host.id_setObfuscatedKey keys.obfuscatedKey))

def setupCookieKeys (host : Host) (keys : MeekKeys) : Script Unit :=
  if textTruthy host.meekCookieEncryptionPublicKey ∧
      textTruthy host.meekCookieEncryptionPrivateKey then pure ()
  else do
    call env .generateKeypair
    assign (Network.modifyHost host.id _
      (Host.id_setCookieKeys keys.cookiePublicKey keys.cookiePrivateKey))

/-- `setup_meek_parameters_for_host`; `host` is the record with a port still missing. -/
def setupMeekParametersForHost (host : Host) (port : ℕ) (keys : MeekKeys) : Script Unit := do
  raisePy (pyAssert host.meekServerPort.isNone)
  assign (Network.modifyHost host.id _ (Host.id_setMeekPort port))
  setupObfuscatedKey host keys
  setupCookieKeys env host keys

def sendHostData (hostId : Id) (data : HostData) : Script Unit := fun w =>
  if env.succeeds w.calls then
    .ok () { w with
      sent := Function.update w.sent hostId (some data)
      done := .hostData hostId :: w.done
      calls := w.calls + 1 }
  else .error (.call (.hostData hostId)) { w with calls := w.calls + 1 }

/-- `install_meek_for_host`: only this host is sent new data. -/
def installMeekForHost (host : Host) : Script Unit := do
  call env (.installFirewallRules host.id)
  call env (.installPsiLimitLoad host.id)
  call env (.hostImplementation host.id)
  let w ← get
  let data ← raisePy (hostDataGenerator env w.net host.id host.isTCS)
  sendHostData env host.id data

/-- The host of a server that is to be set up for meek, and has not been so far. -/
def meekHost (net : Network) (serverId : Id) : Py Host := do
  let server ← lookup net.servers serverId
  let host ← lookup net.hosts server.hostId
  pyAssert host.meekServerPort.isNone
  -- assigning to an item of `None` raises
  match server.capabilities with
  | none => .error .typeError
  | some _ => return host

def setupFrontingForServer (serverId domain frontingHost : String) (keys : MeekKeys) :
    Script Unit := do
  let w ← get
  let host ← raisePy (meekHost w.net serverId)
  assign (Network.modifyServer serverId _ (Server.id_setCapabilities fun capabilities =>
    Function.update capabilities .frontedMeek true))
  assign (Network.modifyHost host.id _ (Host.id_setFronting domain frontingHost))
  setupMeekParametersForHost env host 443 keys
  installMeekForHost env host

def unfrontedCapabilities (capabilities : Capabilities) : Capabilities
  | .handshake | .vpn | .ssh | .ossh | .frontedMeek => false
  | .unfrontedMeek => true
  | capability => capabilities capability

def setupUnfrontedMeekForServer (serverId : Id) (keys : MeekKeys) : Script Unit := do
  let w ← get
  let host ← raisePy (meekHost w.net serverId)
  assign (Network.modifyServer serverId _ (Server.id_setCapabilities unfrontedCapabilities))
  setupMeekParametersForHost env host 80 keys
  installMeekForHost env host

end

/-! ### Removing a host -/

def deletedServer (server : Server) : Server :=
  { server with
    webServerCertificate := none
    webServerSecret := none
    webServerPrivateKey := none
    sshPassword := none
    sshHostKey := none
    sshObfuscatedKey := none }

def removeServer (serverId : Id) : Script Unit := do
  let w ← get
  raisePy (pyAssert (!w.net.deletedServers.any fun server => server.id == serverId))
  let server ← raisePy (lookup w.net.servers serverId)
  assign fun net =>
    { net with
      servers := net.servers.erase serverId
      deletedServers := net.deletedServers ++ [deletedServer server] }

def serverIdsOnHost (net : Network) (hostId : Id) : List Id :=
  (net.servers.records.filter fun server => server.hostId == hostId).map Server.id

def removeHost (hostId : Id) : Script Unit := do
  let w ← get
  raisePy (pyAssert w.net.isLocked)
  let host ← raisePy (lookup w.net.hosts hostId)
  assign fun net =>
    { net with hostsToRemoveFromProviders := net.hostsToRemoveFromProviders ++ [host] }
  (serverIdsOnHost w.net hostId).forM removeServer
  assign fun net =>
    { net with
      hosts := net.hosts.erase hostId
      deletedHosts := net.deletedHosts ++ [host]
      deployImplementationRequiredForHosts :=
        net.deployImplementationRequiredForHosts.filter (· ≠ hostId)
      deployStatsConfigRequired := true }

end Psiphon.Ops
