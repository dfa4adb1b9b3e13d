import Psiphon.Ops.ServerEntry

/-!
# The handshake

`PsiphonNetwork.handshake`. The strategy value 0 counts as false in Python.
-/

namespace Psiphon.Ops

open List

structure HandshakeRequest where
  serverIpAddress : String
  clientIpAddressStrategyValue : Option ℕ
  clientRegion : String
  propagationChannelId : Id
  sponsorId : Id
  clientPlatformString : String
  clientVersion : String
  eventLogger : Bool

structure HandshakeEnv where
  list : ListEnv
  homepages : Shuffle
  speedTestUrl : ℕ
  sshSessionId : List UInt8

structure RelayConfig where
  sshUsername : Option String
  sshPassword : Option String
  sshHostKey : String
  sshPort : Option ℤ
  /-- The port and key of the obfuscated protocol. -/
  sshObfuscated : Option (ℤ × Option String)
  deriving DecidableEq, Repr

structure HandshakeConfig where
  homepages : List String
  upgradeClientVersion : Option String
  encodedServerList : List EncodedServerEntry
  relay : RelayConfig
  sshSessionId : List UInt8
  pageViewRegexes : List (String × String)
  httpsRequestRegexes : List (String × String)
  speedTestUrl : Option SpeedTestURL
  deriving DecidableEq, Repr

def matchPlatform (clientPlatformString : String) : Platform :=
  if pyIn "android".toList (clientPlatformString.toList.map Char.toLower) then .android
  else if "iOS".toList.isPrefixOf clientPlatformString.toList then .ios
  else .windows

/-- The alternate port that a handshake gives: the latest, unless tunneling through meek. The
session ticket protocol is not asked for. -/
def relayAlternate (server : Server) : Py (Option ℤ) :=
  match server.alternateSshObfuscatedPorts.getLast? with
  | none => pure none
  | some alternate => do
    let fronted ← pyCapability server.capabilities .frontedMeek
    let unfronted ← pyCapability server.capabilities .unfrontedMeek
    if fronted || unfronted then pure none else alternate.toInt.map some

def relayPort : Option Port → Py (Option ℤ)
  | none => pure none
  | some port => if port.truthy then port.toInt.map some else pure none

def relayHostKey (server : Server) : Py String := do
  let (sshHostKeyType, sshHostKey) ← match server.sshHostKey with
    | none => .error .attributeError
    | some key => pySplitPair key
  pyAssert (sshHostKeyType == "ssh-rsa")
  return sshHostKey

namespace Network

def getSponsorHomePages (net : Network) (sponsorId : Id) (region : String) (platform : Platform) :
    List String :=
  match net.sponsors.get? sponsorId with
  | none => []
  | some sponsor =>
    let homePages :=
      if platform ≠ .windows ∧ sponsor.mobileHomePages.entries ≠ [] then sponsor.mobileHomePages
      else sponsor.homePages
    let urls (key : String) := ((homePages.lookup key).getD []).map SponsorHomePage.url
    let sponsorHomePages := if urls region = [] then urls "None" else urls region
    sponsorHomePages.map (·.replace "client_region=XX" ("client_region=" ++ region))

def getSponsorPageViewRegexes (net : Network) (sponsorId : Id) : List SponsorRegex :=
  ((net.sponsors.get? sponsorId).map Sponsor.pageViewRegexes).getD []

def getSponsorHttpsRequestRegexes (net : Network) (sponsorId : Id) : List SponsorRegex :=
  ((net.sponsors.get? sponsorId).map Sponsor.httpsRequestRegexes).getD []

def checkUpgrade (net : Network) (platform : Platform) (clientVersion : String) :
    Py (Option String) :=
  match (net.clientVersions platform).getLast? with
  | none => .ok none
  | some last => do
    let lastVersion ← pyInt last.version
    let version ← pyInt clientVersion
    return if lastVersion > version then some last.version else none

def relayConfig (net : Network) (serverIpAddress : String) : Py RelayConfig :=
  match net.servers.records.find? (·.internalIpAddress == serverIpAddress) with
  | none => .error .stopIteration
  | some server => do
    let sshHostKey ← relayHostKey server
    let sshPort ← relayPort server.sshPort
    let sshObfuscatedPort ← relayPort server.sshObfuscatedPort
    let alternate ← relayAlternate server
    return {
      sshUsername := server.sshUsername
      sshPassword := server.sshPassword
      sshHostKey := sshHostKey
      sshPort := sshPort
      sshObfuscated := (alternate <|> sshObfuscatedPort).map (·, server.sshObfuscatedKey) }

def discover (net : Network) (env : ListEnv) (request : HandshakeRequest) :
    Py (List EncodedServerEntry) :=
  match request.clientIpAddressStrategyValue with
  | none | some 0 => .ok []
  | some value => do
    let list ← getEncodedServerList net env request.propagationChannelId (some value)
      request.eventLogger none false true
    return list.entries

def handshake (net : Network) (env : HandshakeEnv) (request : HandshakeRequest) :
    Py HandshakeConfig := do
  let platform := matchPlatform request.clientPlatformString
  let sponsorId :=
    match net.sponsors.contains request.sponsorId, net.defaultSponsorId with
    | false, some id => if id ≠ "" ∧ net.sponsors.contains id then id else request.sponsorId
    | _, _ => request.sponsorId
  let homepages := env.homepages.run
    (net.getSponsorHomePages sponsorId request.clientRegion platform)
  let upgradeClientVersion ← net.checkUpgrade platform request.clientVersion
  let encodedServerList ← net.discover env.list request
  let relay ← net.relayConfig request.serverIpAddress
  return {
    homepages := homepages
    upgradeClientVersion := upgradeClientVersion
    encodedServerList := encodedServerList
    relay := relay
    sshSessionId := env.sshSessionId
    pageViewRegexes := (net.getSponsorPageViewRegexes sponsorId).map fun r => (r.regex, r.replace)
    httpsRequestRegexes :=
      (net.getSponsorHttpsRequestRegexes sponsorId).map fun r => (r.regex, r.replace)
    speedTestUrl := net.speedTestUrls[env.speedTestUrl % net.speedTestUrls.length]? }

end Network

/-! ### What the handshake discloses -/

/-- The server's record and its host's satisfy the assertions of
`__get_encoded_server_entry`. -/
def Encodable (net : Network) (server : Server) : Prop :=
  ∀ random, ∃ entry, getEncodedServerEntry net random server = .ok entry

/-- The list discloses one discoverable server if there is one, and nothing else. -/
structure DiscoversExactly (net : Network) (env : ListEnv) (list : List EncodedServerEntry) :
    Prop where
  complete : (∃ server ∈ net.servers, server.discoverable env.now = true) →
    ∃ entry, list = [entry]
  none : (∀ server ∈ net.servers, server.discoverable env.now = false) → list = []
  exclusive : ∀ entry ∈ list, ∃ server ∈ net.servers, server.discoverable env.now = true ∧
    getEncodedServerEntry net (env.entry server.id) server = .ok entry

variable {net : Network}

theorem mem_candidateServers {date : Date} {server : Server} :
    server ∈ candidateServers net date ↔ server ∈ net.servers ∧ server.discoverable date = true :=
  mem_filter

variable {request : HandshakeRequest}

theorem discover_of_ne_zero (env : ListEnv) {v : ℕ}
    (hnet : ∀ server ∈ net.servers, Encodable net server)
    (hreq : request.clientIpAddressStrategyValue = some v) (hv : v ≠ 0) :
    ∃ list, net.discover env request = .ok list ∧ DiscoversExactly net env list := by
  have hdi : net.discover env request = (do
      let servers ← Discovery.selectServers (candidateServers net env.now) v env.timeInSeconds
      servers.mapM fun server => getEncodedServerEntry net (env.entry server.id) server) := by
    simp [Network.discover,hreq,getEncodedServerList]
  by_cases hem : candidateServers net env.now = []
  · have hn : ∀ server ∈ net.servers, server.discoverable env.now = false := by
      intro server hs
      have hnot : server ∉ candidateServers net env.now := by simp [hem]
      simpa [mem_candidateServers,hs] using hnot
    refine ⟨[],?_,?_,fun _ => rfl,?_⟩
    · rw [hdi,hem]
      rfl
    · rintro ⟨server,hs,hd⟩
      rw [hn server hs] at hd
      cases hd
    · intro entry he
      cases he
  · obtain ⟨server,hidx,hsel⟩ := Discovery.selectServers_eq hem v env.timeInSeconds
    have hmem : server ∈ candidateServers net env.now := mem_of_getElem? hidx
    obtain ⟨hs,hd⟩ := mem_candidateServers.mp hmem
    obtain ⟨entry,hen⟩ := hnet server hs (env.entry server.id)
    refine ⟨[entry],?_,fun _ => ⟨entry,rfl⟩,?_,?_⟩
    · rw [hdi,hsel]
      change List.mapM (fun s => getEncodedServerEntry net (env.entry s.id) s) [server] = _
      rw [mapM_cons,hen]
      rfl
    · intro hn
      rw [hn server hs] at hd
      cases hd
    · intro e he
      rw [mem_singleton.mp he]
      exact ⟨server,hs,hd,hen⟩

theorem discoversExactly_nil_iff {env : ListEnv} : DiscoversExactly net env [] ↔
      ∀ server ∈ net.servers, server.discoverable env.now = false := by
  constructor
  · intro h server hs
    by_contra hd
    obtain ⟨entry,he⟩ := h.complete ⟨server,hs,by simpa using hd⟩
    cases he
  · intro h
    refine ⟨?_,fun _ => rfl,?_⟩
    · rintro ⟨server,hs,hd⟩
      rw [h server hs] at hd
      cases hd
    · intro entry he
      cases he

theorem handshake_eq_ok (env : HandshakeEnv) {list : List EncodedServerEntry}
    (hl : net.discover env.list request = .ok list) :
    ((∃ v, net.checkUpgrade (matchPlatform request.clientPlatformString)
        request.clientVersion = .ok v) →
      (∃ relay, net.relayConfig request.serverIpAddress = .ok relay) →
      ∃ c, net.handshake env request = .ok c) ∧
    ∀ c, net.handshake env request = .ok c → c.encodedServerList = list := by
  constructor
  · rintro ⟨v,hv⟩ ⟨relay,hr⟩
    simp only [Network.handshake,hv,hl,hr]
    exact ⟨_,rfl⟩
  · intro c h
    simp only [Network.handshake,hl] at h
    cases hv : net.checkUpgrade (matchPlatform request.clientPlatformString)
        request.clientVersion with
    | error e => rw [hv] at h; cases h
    | ok v =>
      cases hr : net.relayConfig request.serverIpAddress with
      | error e => rw [hv,hr] at h; cases h
      | ok relay =>
        rw [hv,hr] at h
        cases h
        rfl

/-- Unless the client's version or the server's own record stops it, the answer discloses exactly
one discoverable server, or none when there is none, if and only if the strategy value is not 0 or
no server is discoverable. -/
theorem handshake_discovers_iff {net : Network} {env : HandshakeEnv} {request : HandshakeRequest}
    {v : ℕ} (hnet : ∀ server ∈ net.servers, Encodable net server)
    (hreq : request.clientIpAddressStrategyValue = some v) :
    ((∃ version, net.checkUpgrade (matchPlatform request.clientPlatformString)
        request.clientVersion = .ok version) →
      (∃ relay, net.relayConfig request.serverIpAddress = .ok relay) →
      ∃ config, net.handshake env request = .ok config) ∧
    ∀ config, net.handshake env request = .ok config →
      (DiscoversExactly net env.list config.encodedServerList ↔
        v ≠ 0 ∨ ∀ server ∈ net.servers, server.discoverable env.list.now = false) := by
  by_cases hv : v = 0
  · have hl : net.discover env.list request = .ok [] := by
      simp [Network.discover,hreq,hv]
    obtain ⟨hr,heq⟩ := handshake_eq_ok env hl
    refine ⟨hr,?_⟩
    intro config h
    rw [heq config h,discoversExactly_nil_iff]
    simp [hv]
  · obtain ⟨list,hl,he⟩ := discover_of_ne_zero env.list hnet hreq hv
    obtain ⟨hr,heq⟩ := handshake_eq_ok env hl
    refine ⟨hr,?_⟩
    intro config h
    rw [heq config h]
    exact iff_of_true he (.inl hv)

def oneServerNetwork : Network :=
  { Network.init with
    hosts := (Table.empty Host.id).add (plainHost "H" false)
    servers := (Table.empty Server.id).add (plainServer "S" "H" (some (0, 10))) }

def handshakeAtFive : HandshakeEnv :=
  ⟨⟨5, 0, .id, fun _ => ⟨.id, .id⟩⟩, .id, 0, []⟩

def handshakeRequest (strategyValue : ℕ) : HandshakeRequest :=
  ⟨"10.0.0.1", some strategyValue, "", "", "", "", "1", false⟩

theorem handshake_discovers_with_value_one :
    ∃ config, oneServerNetwork.handshake handshakeAtFive (handshakeRequest 1) = .ok config ∧
      DiscoversExactly oneServerNetwork handshakeAtFive.list config.encodedServerList := by
  have hnet : ∀ server ∈ oneServerNetwork.servers, Encodable oneServerNetwork server := by
    intro server hs random
    obtain rfl : server = plainServer "S" "H" (some (0, 10)) := mem_singleton.mp hs
    exact ⟨_,rfl⟩
  obtain ⟨hret,hiff⟩ := @handshake_discovers_iff _ handshakeAtFive (handshakeRequest 1) 1 hnet rfl
  obtain ⟨config,hc⟩ := hret ⟨_,rfl⟩ ⟨_,rfl⟩
  exact ⟨config,hc,(hiff config hc).mpr (.inl one_ne_zero)⟩

/-- With the strategy value 0 the discoverable server is not disclosed. -/
theorem handshake_hides_with_value_zero :
    ∃ config, oneServerNetwork.handshake handshakeAtFive (handshakeRequest 0) = .ok config ∧
      (∀ server ∈ oneServerNetwork.servers, Encodable oneServerNetwork server) ∧
      (∃ server ∈ oneServerNetwork.servers, server.discoverable handshakeAtFive.list.now = true) ∧
      config.encodedServerList = [] := by
  refine ⟨_,rfl,?_,⟨_,mem_singleton.mpr rfl,rfl⟩,rfl⟩
  intro server hs random
  obtain rfl : server = plainServer "S" "H" (some (0, 10)) := mem_singleton.mp hs
  exact ⟨_,rfl⟩

/-! ### The server's own record -/

/-- What the answer says of the server itself can be said. -/
structure HasRelay (server : Server) : Prop where
  sshHostKey : ∃ key, server.sshHostKey = some key ∧ IsHostKey key
  sshPort : ReadablePort server.sshPort
  sshObfuscatedPort : ReadablePort server.sshObfuscatedPort
  alternate : ReadableAlternate (fun caps => caps .frontedMeek || caps .unfrontedMeek) server

section Endpoint

variable {net : Network} {server : Server} {serverIpAddress : String} {relay : RelayConfig}

theorem sshObfuscated_of_relayConfig {port : Port}
    (hs : net.servers.records.find? (·.internalIpAddress == serverIpAddress) = some server)
    (hp : server.sshObfuscatedPort = some port) (ht : port.truthy = true)
    (h : net.relayConfig serverIpAddress = .ok relay) :
    ∃ n a, port.toInt = .ok n ∧ relayAlternate server = .ok a ∧
      relay.sshObfuscated = some (a.getD n, server.sshObfuscatedKey) := by
  simp only [Network.relayConfig,hs,hp,bind_eq_ok_iff] at h
  obtain ⟨hostKey,-,sshPort,-,obfuscated,ho,a,ha,hr⟩ := h
  cases hr
  rw [relayPort,if_pos ht] at ho
  cases hn : port.toInt with
  | error e =>
    rw [hn] at ho
    cases ho
  | ok n =>
    rw [hn] at ho
    cases ho
    refine ⟨n,a,rfl,ha,?_⟩
    cases a <;> rfl

def TicketOnly (server : Server) : Prop :=
  ∃ caps, server.capabilities = some caps ∧ caps .unfrontedMeekSessionTicket = true ∧
    caps .frontedMeek = false ∧ caps .unfrontedMeek = false

/-- The port of an entry, next to what a handshake gives. -/
theorem entryPort_eq_iff {port : Port} {n m : ℤ} {alternate : Option ℤ}
    (hp : server.sshObfuscatedPort = some port) (hn : port.toInt = .ok n)
    (hal : relayAlternate server = .ok alternate) (he : entrySshObfuscatedPort server = .ok m) :
    alternate.getD n = m ↔ ¬ (TicketOnly server ∧
      ∃ last, server.alternateSshObfuscatedPorts.getLast? = some last ∧ last.toInt ≠ .ok n) := by
  rw [entrySshObfuscatedPort,hp,portOrZero_of_toInt hn,ok_bind] at he
  rw [relayAlternate] at hal
  cases hl : server.alternateSshObfuscatedPorts.getLast? with
  | none =>
    rw [hl] at hal he
    cases hal
    cases he
    simp
  | some last =>
    rw [hl] at hal he
    cases hc : server.capabilities with
    | none =>
      rw [hc] at he
      cases he
    | some caps =>
      simp only [hc,pyCapability,ok_bind] at hal he
      have hti : TicketOnly server ↔ caps .unfrontedMeekSessionTicket = true ∧
          caps .frontedMeek = false ∧ caps .unfrontedMeek = false := by
        simp [TicketOnly,hc]
      rw [hti]
      by_cases hm : (caps .frontedMeek || caps .unfrontedMeek) = true
      · -- neither gives an alternate port
        rw [if_pos hm] at hal
        rw [if_pos (by rw [hm,Bool.true_or])] at he
        cases hal
        cases he
        refine iff_of_true rfl fun hb => ?_
        rw [hb.1.2.1,hb.1.2.2] at hm
        exact Bool.false_ne_true hm
      · have ho : caps .frontedMeek = false ∧ caps .unfrontedMeek = false := by
          simpa using hm
        rw [if_neg hm] at hal
        rw [Bool.eq_false_iff.mpr hm,Bool.false_or] at he
        cases ha : last.toInt with
        | error e =>
          rw [ha] at hal
          cases hal
        | ok a =>
          rw [ha] at hal he
          cases hal
          cases ht : caps .unfrontedMeekSessionTicket with
          | false =>
            rw [ht] at he
            cases he
            simp
          | true =>
            rw [ht] at he
            cases he
            simp [ho,ha]

theorem relayConfig_of_handshake {env : HandshakeEnv} {c : HandshakeConfig}
    (h : net.handshake env request = .ok c) :
    net.relayConfig request.serverIpAddress = .ok c.relay := by
  simp only [Network.handshake,bind_eq_ok_iff] at h
  obtain ⟨version,-,list,-,relay,hr,hc⟩ := h
  cases hc
  exact hr

theorem sshObfuscatedKey_of_entry {r : EntryRandom} {entry : EncodedServerEntry}
    (h : getEncodedServerEntry net r server = .ok entry) :
    entry.extendedConfig.sshObfuscatedKey = textOrEmpty server.sshObfuscatedKey := by
  simp only [getEncodedServerEntry,bind_eq_ok_iff] at h
  obtain ⟨host,-,certificate,-,ip,-,web,-,secret,-,cert,-,ssh,-,key,-,ossh,-,meek, -,caps,-,he⟩ := h
  cases he
  rfl

/-- The handshake and the server's entry tell the same endpoint exactly when the server has a key,
and does not give entries another port because of the session ticket protocol. -/
theorem handshake_entry_endpoint_iff {env : HandshakeEnv} {request : HandshakeRequest}
    {config : HandshakeConfig} {random : EntryRandom} {entry : EncodedServerEntry} {port : Port}
    (hserving : net.servers.records.find? (·.internalIpAddress == request.serverIpAddress) =
      some server)
    (hport : server.sshObfuscatedPort = some port) (htruthy : port.truthy = true)
    (hentry : getEncodedServerEntry net random server = .ok entry)
    (hconfig : net.handshake env request = .ok config) :
    config.relay.sshObfuscated = some (entry.extendedConfig.sshObfuscatedPort,
        some entry.extendedConfig.sshObfuscatedKey) ↔
      server.sshObfuscatedKey ≠ none ∧ ¬ (TicketOnly server ∧
        ∃ last, server.alternateSshObfuscatedPorts.getLast? = some last ∧
          last.toInt ≠ port.toInt) := by
  obtain ⟨n,alternate,hn,ha,hr⟩ := sshObfuscated_of_relayConfig hserving hport
    htruthy (relayConfig_of_handshake hconfig)
  obtain ⟨host,hp⟩ := entryOf_of_eq_ok hentry
  rw [hr,sshObfuscatedKey_of_entry hentry,Option.some_inj,Prod.mk_inj,hn,
    entryPort_eq_iff hport hn ha hp.sshObfuscatedPort,and_comm]
  refine and_congr_left' ?_
  cases server.sshObfuscatedKey with
  | none => exact iff_of_false nofun fun h => h rfl
  | some key => exact iff_of_true rfl nofun

def alternateServer (ticket : Bool) : Server :=
  { plainServer "S" "H" none with
    capabilities := some (Function.update serverCapabilities .unfrontedMeekSessionTicket ticket)
    alternateSshObfuscatedPorts := [.str "54", .str "55"] }

def alternateNetwork (ticket : Bool) : Network :=
  { Network.init with
    hosts := (Table.empty Host.id).add (plainHost "H" false)
    servers := (Table.empty Server.id).add (alternateServer ticket) }

theorem handshake_entry_endpoint_alternate :
    ∃ config entry,
      (alternateNetwork false).handshake handshakeAtFive (handshakeRequest 0) = .ok config ∧
      getEncodedServerEntry (alternateNetwork false) ⟨.id, .id⟩ (alternateServer false) =
        .ok entry ∧
      config.relay.sshObfuscated = some (entry.extendedConfig.sshObfuscatedPort,
        some entry.extendedConfig.sshObfuscatedKey) := by
  refine ⟨_,_,rfl,rfl,(@handshake_entry_endpoint_iff (alternateNetwork false)
    (alternateServer false) handshakeAtFive (handshakeRequest 0) _ ⟨.id,.id⟩ _ (.str "53") rfl rfl
    rfl rfl rfl).mpr ⟨nofun,?_⟩⟩
  rintro ⟨⟨caps,hca,ht,-⟩,-⟩
  cases hca
  exact Bool.false_ne_true ht

/-- With the session ticket protocol, the handshake gives the alternate port and the entry does
not. -/
theorem handshake_entry_endpoint_differs :
    ∃ config entry,
      (alternateNetwork true).handshake handshakeAtFive (handshakeRequest 0) = .ok config ∧
      getEncodedServerEntry (alternateNetwork true) ⟨.id, .id⟩ (alternateServer true) = .ok entry ∧
      config.relay.sshObfuscated = some (55, some "obfuscated") ∧
      entry.extendedConfig.sshObfuscatedPort = 53 :=
  ⟨_,_,rfl,rfl,rfl,rfl⟩

end Endpoint

end Psiphon.Ops
