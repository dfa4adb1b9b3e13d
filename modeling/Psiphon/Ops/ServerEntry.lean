import Psiphon.Discovery.SelectServers
import Psiphon.Ops.Network

/-!
# Server entries and server lists

`__get_encoded_server_entry` and `__get_encoded_server_list` of `psi_ops.py`. An entry is kept as
its parts.
-/

namespace Psiphon.Ops

/-- What `random.shuffle` does to a list. -/
structure Shuffle where
  run : List String → List String
  perm : ∀ l, (run l).Perm l

def Shuffle.id : Shuffle := ⟨fun l => l, fun _ => .rfl⟩

structure EntryRandom where
  addresses : Shuffle
  hosts : Shuffle

structure ExtendedConfig where
  ipAddress : String
  webServerPort : String
  webServerSecret : String
  webServerCertificate : String
  sshPort : ℤ
  sshUsername : String
  sshPassword : String
  sshHostKey : String
  sshObfuscatedPort : ℤ
  sshObfuscatedKey : String
  region : Option String
  meekServerPort : ℤ
  meekObfuscatedKey : String
  meekFrontingDomain : String
  meekFrontingHost : String
  meekCookieEncryptionPublicKey : String
  meekFrontingAddresses : Option (List String)
  meekFrontingAddressesRegex : Option String
  meekFrontingDisableSNI : Option Bool
  meekFrontingHosts : Option (List String)
  capabilities : List Capability
  deriving DecidableEq, Repr

structure EncodedServerEntry where
  ipAddress : String
  webServerPort : String
  webServerSecret : String
  webServerCertificate : String
  extendedConfig : ExtendedConfig
  deriving DecidableEq, Repr

/-- `''.join(certificate.split('\n')[1:-2])`: the certificate without its PEM lines. -/
def stripPem (certificate : String) : String :=
  let lines := pySplit certificate '\n'
  String.join ((lines.take (lines.length - 2)).drop 1)

/-- `assert(len(text) > 1)`, and the text; `None` has no length. -/
def pyAssertLong : Option String → Py String
  | some text => do
    pyAssert (decide (text.length > 1))
    return text
  | none => .error .typeError

/-- `server.capabilities[capability]`; `None` cannot be subscripted. -/
def pyCapability (capabilities : Option Capabilities) (capability : Capability) : Py Bool :=
  match capabilities with
  | some capabilities => .ok (capabilities capability)
  | none => .error .typeError

/-- The certificate as entries give it: that of a TCS host has PEM lines. -/
def entryCertificate (host : Host) (server : Server) : Py (Option String) :=
  if host.isTCS then
    match server.webServerCertificate with
    | some certificate => .ok (some (stripPem certificate))
    | none => .error .attributeError
  else .ok server.webServerCertificate

def entrySshHostKey (server : Server) : Py String :=
  if textTruthy server.sshHostKey then do
    let (sshHostKeyType, sshHostKey) ← pySplitPair (textOrEmpty server.sshHostKey)
    pyAssert (sshHostKeyType == "ssh-rsa")
    return sshHostKey
  else return ""

/-- The entry's `sshObfuscatedPort`: the latest alternate port unless tunneling through
meek. -/
def entrySshObfuscatedPort (server : Server) : Py ℤ := do
  let sshObfuscatedPort ← portOrZero server.sshObfuscatedPort
  match server.alternateSshObfuscatedPorts.getLast? with
  | none => return sshObfuscatedPort
  | some alternate =>
    let fronted ← pyCapability server.capabilities .frontedMeek
    let unfronted ← pyCapability server.capabilities .unfrontedMeek
    let ticket ← pyCapability server.capabilities .unfrontedMeekSessionTicket
    if fronted || unfronted || ticket then return sshObfuscatedPort else alternate.toInt

/-- `int(port)`, for a port that may be `None`. -/
def pyPort : Option Port → Py ℤ
  | some port => port.toInt
  | none => .error .typeError

def copyServerCapabilities (caps : Capabilities) : Capabilities
  | .unfrontedMeekHttps | .frontedMeekHttp => false
  | capability => caps capability

def entryCapabilities (host : Host) (server : Server) : Py (List Capability) := do
  let withHttps ← match server.capabilities.map copyServerCapabilities with
    | none => pure none
    | some capabilities =>
      if capabilities .unfrontedMeek then do
        let port ← match host.meekServerPort with
          | none => .error .typeError
          | some port => port.toInt
        if port = 443 then
          pure (some (Function.update (Function.update capabilities .unfrontedMeek false)
            .unfrontedMeekHttps true))
        else pure (some capabilities)
      else pure (some capabilities)
  let withHttp ←
    if host.alternateMeekServerFrontingHosts ≠ [] then do
      let fronted ← pyCapability withHttps .frontedMeek
      pure (if fronted then
        withHttps.map fun capabilities => Function.update capabilities .frontedMeekHttp true
      else withHttps)
    else pure withHttps
  return match withHttp with
    | none => []
    | some capabilities => Capability.all.filter capabilities

def firstThree (shuffle : Shuffle) (texts : List String) : Option (List String) :=
  if texts.length > 0 then some ((shuffle.run texts).take 3) else none

def getEncodedServerEntry (net : Network) (random : EntryRandom) (server : Server) :
    Py EncodedServerEntry := do
  let host ← net.getHostForServer server
  let certificate ← entryCertificate host server
  let ipAddress ← pyAssertLong (some server.ipAddress)
  let webServerPort ← pyAssertLong (some server.webServerPort)
  let webServerSecret ← pyAssertLong server.webServerSecret
  let webServerCertificate ← pyAssertLong certificate
  let sshPort ← portOrZero server.sshPort
  let sshHostKey ← entrySshHostKey server
  let sshObfuscatedPort ← entrySshObfuscatedPort server
  let meekServerPort ← portOrZero host.meekServerPort
  let capabilities ← entryCapabilities host server
  let domain := textOrEmpty host.meekServerFrontingDomain
  let fronting := domain ≠ ""
  return {
    ipAddress := ipAddress
    webServerPort := webServerPort
    webServerSecret := webServerSecret
    webServerCertificate := webServerCertificate
    extendedConfig := {
      ipAddress := ipAddress
      webServerPort := webServerPort
      webServerSecret := webServerSecret
      webServerCertificate := webServerCertificate
      sshPort := sshPort
      sshUsername := textOrEmpty server.sshUsername
      sshPassword := textOrEmpty server.sshPassword
      sshHostKey := sshHostKey
      sshObfuscatedPort := sshObfuscatedPort
      sshObfuscatedKey := textOrEmpty server.sshObfuscatedKey
      region := host.region
      meekServerPort := meekServerPort
      meekObfuscatedKey := textOrEmpty host.meekServerObfuscatedKey
      meekFrontingDomain := domain
      meekFrontingHost := textOrEmpty host.meekServerFrontingHost
      meekCookieEncryptionPublicKey := textOrEmpty host.meekCookieEncryptionPublicKey
      meekFrontingAddresses :=
        if fronting then firstThree random.addresses (net.alternateMeekFrontingAddresses domain)
        else none
      meekFrontingAddressesRegex :=
        if fronting then some (net.alternateMeekFrontingAddressesRegex domain) else none
      meekFrontingDisableSNI :=
        if fronting then some (net.meekFrontingDisableSNI domain) else none
      meekFrontingHosts := firstThree random.hosts host.alternateMeekServerFrontingHosts
      capabilities := capabilities } }

/-! ### What an entry says -/

/-- The entry of a server on a host, part by part. -/
structure EntryOf (net : Network) (random : EntryRandom) (host : Host) (server : Server)
    (entry : EncodedServerEntry) : Prop where
  host_eq : net.getHostForServer server = .ok host
  certificate : ∃ certificate, entryCertificate host server = .ok certificate ∧
    pyAssertLong certificate = .ok entry.webServerCertificate
  ipAddress : pyAssertLong (some server.ipAddress) = .ok entry.ipAddress
  webServerPort : pyAssertLong (some server.webServerPort) = .ok entry.webServerPort
  webServerSecret : pyAssertLong server.webServerSecret = .ok entry.webServerSecret
  sshPort : portOrZero server.sshPort = .ok entry.extendedConfig.sshPort
  sshObfuscatedPort :
    entrySshObfuscatedPort server = .ok entry.extendedConfig.sshObfuscatedPort
  meekServerPort : portOrZero host.meekServerPort = .ok entry.extendedConfig.meekServerPort
  capabilities : entryCapabilities host server = .ok entry.extendedConfig.capabilities

variable {server : Server}

/-- An entry is produced only for a server whose host is known, and every part of it was
produced. -/
theorem entryOf_of_eq_ok {net : Network} {r : EntryRandom} {entry : EncodedServerEntry}
    (h : getEncodedServerEntry net r server = .ok entry) :
    ∃ host, EntryOf net r host server entry := by
  simp only [getEncodedServerEntry,bind_eq_ok_iff] at h
  obtain ⟨host,hh,c,hc,ip,hip,web,hw,secret,hs,cert,hl,ssh,
    hssh,key,hkey,ossh,ho,meek,hm,caps,hca,he⟩ := h
  cases he
  exact ⟨host,hh,⟨c,hc,hl⟩,hip,hw,hs,hssh,ho,hm,hca⟩

theorem pyAssertLong_eq_ok {text : Option String} {long : String}
    (h : pyAssertLong text = .ok long) : text = some long ∧ 1 < long.length := by
  cases text with
  | none => cases h
  | some text =>
    simp only [pyAssertLong,bind_eq_ok_iff,pyAssert_eq_ok_iff] at h
    obtain ⟨_,hl,ht⟩ := h
    cases ht
    exact ⟨rfl,of_decide_eq_true hl⟩

theorem portOrZero_of_toInt {port : Port} {n : ℤ} (h : port.toInt = .ok n) :
    portOrZero (some port) = .ok n := by
  cases port with
  | int m =>
    cases h
    by_cases hn : n = 0 <;> simp [portOrZero,Port.truthy,Port.toInt,hn]
  | str text =>
    have ht : text ≠ "" := by
      rintro rfl
      have hno : (Port.str "").toInt = .error .valueError := rfl
      cases h
    simpa [portOrZero,Port.truthy,ht] using h

theorem portOrZero_of_pyPort {port : Option Port} {n : ℤ} (h : pyPort port = .ok n) :
    portOrZero port = .ok n := by
  cases port with
  | none => cases h
  | some port => exact portOrZero_of_toInt h

/-- The alternate port that an entry advertises: the latest, unless tunneling through meek. -/
def advertisedAlternate (caps : Capabilities) (server : Server) : Option Port :=
  if caps .frontedMeek || caps .unfrontedMeek || caps .unfrontedMeekSessionTicket then none
  else server.alternateSshObfuscatedPorts.getLast?

variable {caps : Capabilities}

theorem mem_of_advertisedAlternate {a : Port} (h : advertisedAlternate caps server = some a) :
    a ∈ server.alternateSshObfuscatedPorts := by
  rw [advertisedAlternate] at h
  split at h
  · cases h
  · exact List.mem_of_getLast? h

theorem entrySshObfuscatedPort_eq {ossh : ℤ} (hc : server.capabilities = some caps)
    (ho : pyPort server.sshObfuscatedPort = .ok ossh) : entrySshObfuscatedPort server =
      (advertisedAlternate caps server).elim (.ok ossh) Port.toInt := by
  rw [entrySshObfuscatedPort,portOrZero_of_pyPort ho,ok_bind,advertisedAlternate,hc]
  cases server.alternateSshObfuscatedPorts.getLast? with
  | none => simp [pure_eq_ok]
  | some alternate =>
    simp only [pyCapability,ok_bind,pure_eq_ok]
    split <;> rfl

/-- The capabilities that an entry lists, for a server with the capabilities `caps`;
`onHttps` says that the meek server of the host listens on port 443. -/
def entryLists (onHttps : Bool) (host : Host) (caps : Capabilities) : Capability → Bool
  | .unfrontedMeek => caps .unfrontedMeek && !onHttps
  | .unfrontedMeekHttps => caps .unfrontedMeek && onHttps
  | .frontedMeekHttp => caps .frontedMeek && decide (host.alternateMeekServerFrontingHosts ≠ [])
  | capability => caps capability

theorem entryCapabilities_eq {host : Host} {n : ℤ} (hc : server.capabilities = some caps)
    (hm : caps .unfrontedMeek = true →
      ∃ port, host.meekServerPort = some port ∧ port.toInt = .ok n) :
    entryCapabilities host server =
      .ok (Capability.all.filter (entryLists (decide (n = 443)) host caps)) := by
  -- in every case the two rewritings leave a function that agrees with `entryLists`
  cases hun : caps .unfrontedMeek with
  | false =>
    by_cases ha : host.alternateMeekServerFrontingHosts = [] <;> cases hfr : caps .frontedMeek <;>
    · simp [entryCapabilities,hc,copyServerCapabilities,hun,ha,hfr,pyCapability,pure_eq_ok]
      refine List.filter_congr fun c _ => ?_
      cases c <;> simp [copyServerCapabilities,entryLists,hun,ha,hfr]
  | true =>
    obtain ⟨port,hp,hn⟩ := hm hun
    by_cases h4 : n = 443 <;> by_cases ha : host.alternateMeekServerFrontingHosts = [] <;>
      cases hfr : caps .frontedMeek <;>
    · simp [entryCapabilities,hc,copyServerCapabilities,hun,hp,hn,h4,ha,hfr,pyCapability,pure_eq_ok]
      refine List.filter_congr fun c _ => ?_
      cases c <;> simp [copyServerCapabilities,entryLists,hun,ha,hfr]

/-- The port of the meek server is read only with `UNFRONTED-MEEK`. -/
theorem meekPort_of_entryCapabilities {host : Host} {list : List Capability}
    (hs : server.capabilities = some caps) (h : entryCapabilities host server = .ok list) :
    ∃ n, caps .unfrontedMeek = true →
      ∃ port, host.meekServerPort = some port ∧ port.toInt = .ok n := by
  by_cases hun : caps .unfrontedMeek = true
  · cases hp : host.meekServerPort with
    | none =>
      simp [entryCapabilities,hs,hun,hp,copyServerCapabilities] at h
      cases h
    | some port =>
      cases hn : port.toInt with
      | ok n => exact ⟨n,fun _ => ⟨port,rfl,hn⟩⟩
      | error e =>
        simp [entryCapabilities,hs,hun,hp,hn,copyServerCapabilities] at h
        cases h
  · exact ⟨0,fun hon => absurd hon hun⟩

/-- The capabilities of every entry are those of `entryLists`, or none. -/
theorem entryLists_of_entryCapabilities {host : Host} {list : List Capability}
    (h : entryCapabilities host server = .ok list) :
    list = [] ∨ ∃ oh caps, list = Capability.all.filter (entryLists oh host caps) := by
  cases hs : server.capabilities with
  | none =>
    by_cases hh : host.alternateMeekServerFrontingHosts = []
    · simp only [entryCapabilities,hs,hh,Option.map_none,ne_eq,not_true_eq_false,
        if_false,pure_bind] at h
      exact .inl (Except.ok.inj h).symm
    · simp only [entryCapabilities,hs,hh,Option.map_none,ne_eq,not_false_eq_true,
        if_true,pure_bind] at h
      cases h
  | some caps =>
    obtain ⟨n,hp⟩ := meekPort_of_entryCapabilities hs h
    rw [entryCapabilities_eq hs hp] at h
    exact .inr ⟨_,caps,(Except.ok.inj h).symm⟩

/-! ### The servers that have an entry -/

/-- `int` reads the port, or is not asked to. -/
def ReadablePort (port : Option Port) : Prop :=
  ∀ p, port = some p → p.truthy = true → ∃ n, p.toInt = .ok n

/-- The last alternate port is a number, unless the capabilities rule it out. -/
def ReadableAlternate (ruledOut : Capabilities → Bool) (server : Server) : Prop :=
  ∀ alternate, server.alternateSshObfuscatedPorts.getLast? = some alternate →
    ∃ caps, server.capabilities = some caps ∧
      (ruledOut caps = false → ∃ n, alternate.toInt = .ok n)

/-- The text is the type of the key and the key. -/
def IsHostKey (text : String) : Prop := ∃ key, pySplitPair text = .ok ("ssh-rsa", key)

/-- What `__get_encoded_server_entry` asserts and converts. -/
structure HasEntry (host : Host) (server : Server) : Prop where
  certificate : ∃ certificate, server.webServerCertificate = some certificate ∧
    1 < (if host.isTCS then stripPem certificate else certificate).length
  ipAddress : 1 < server.ipAddress.length
  webServerPort : 1 < server.webServerPort.length
  webServerSecret : ∃ secret, server.webServerSecret = some secret ∧ 1 < secret.length
  sshPort : ReadablePort server.sshPort
  sshHostKey : ∀ key, server.sshHostKey = some key → key ≠ "" → IsHostKey key
  sshObfuscatedPort : ReadablePort server.sshObfuscatedPort
  alternate : ReadableAlternate (fun caps => caps .frontedMeek || caps .unfrontedMeek ||
    caps .unfrontedMeekSessionTicket) server
  meekServerPort : ReadablePort host.meekServerPort
  unfronted : ∀ caps, server.capabilities = some caps → caps .unfrontedMeek = true →
    ∃ port n, host.meekServerPort = some port ∧ port.toInt = .ok n
  fronting : host.alternateMeekServerFrontingHosts ≠ [] → server.capabilities.isSome

/-- What `__get_encoded_server_list` returns, and the addresses it hands to the logger. -/
structure ServerList where
  entries : List EncodedServerEntry
  egressIpAddresses : List String
  logged : List String
  deriving DecidableEq, Repr

structure ListEnv where
  now : Date
  timeInSeconds : ℕ
  permanentIds : Shuffle
  entry : Id → EntryRandom

def embeddedServers (net : Network) (env : ListEnv) (propagationChannelId : Id)
    (test includePropagationServers : Bool) : List Server :=
  let permanentServerIds := env.permanentIds.run
    ((net.servers.records.filter fun server =>
      server.propagationChannelId ≠ propagationChannelId && server.isPermanent).map Server.id)
  net.servers.records.filter fun server =>
    (server.propagationChannelId == propagationChannelId &&
      (server.isPermanent || (server.isEmbedded && includePropagationServers))) ||
    (!test && (permanentServerIds.take 50).contains server.id)

def candidateServers (net : Network) (discoveryDate : Date) : List Server :=
  net.servers.records.filter (Server.discoverable discoveryDate)

/-- `__get_encoded_server_list`. A strategy value that counts as false, 0 included, asks
for the embedded list. -/
def getEncodedServerList (net : Network) (env : ListEnv) (propagationChannelId : Id)
    (clientIpAddressStrategyValue : Option ℕ) (eventLogger : Bool) (discoveryDate : Option Date)
    (test includePropagationServers : Bool) : Py ServerList := do
  let servers ← match clientIpAddressStrategyValue with
    | none | some 0 =>
      pure (embeddedServers net env propagationChannelId test includePropagationServers)
    | some value =>
      Discovery.selectServers (candidateServers net (discoveryDate.getD env.now)) value
        env.timeInSeconds
  let entries ← servers.mapM fun server => getEncodedServerEntry net (env.entry server.id) server
  return ⟨entries, servers.map Server.egressIpAddress,
    if eventLogger then servers.map Server.ipAddress else []⟩

end Psiphon.Ops
