import Mathlib.Data.List.ReduceOption
import Psiphon.Ops.ServerEntry

/-!
# The ports of a TCS host

`get_supported_protocol_ports` and `make_psiphond_config` of `psi_ops_deploy.py`. Clients dial the
ports of the server entry.
-/

namespace Psiphon.Ops

open List

inductive TcsType where
  | native
  | docker
  deriving DecidableEq, Repr

/-- The keys of `TunnelProtocolPorts`. -/
inductive TunnelProtocol where
  | ssh
  | ossh
  | frontedMeekOssh
  | unfrontedMeekOssh
  | frontedMeekHttpOssh
  | unfrontedMeekHttpsOssh
  | unfrontedMeekSessionTicketOssh
  deriving DecidableEq, Repr

namespace TunnelProtocol

/-- The capability with the name of the protocol, without a trailing `-OSSH`. -/
def capability : TunnelProtocol → Capability
  | ssh => .ssh
  | ossh => .ossh
  | frontedMeekOssh => .frontedMeek
  | unfrontedMeekOssh => .unfrontedMeek
  | frontedMeekHttpOssh => .frontedMeekHttp
  | unfrontedMeekHttpsOssh => .unfrontedMeekHttps
  | unfrontedMeekSessionTicketOssh => .unfrontedMeekSessionTicket

end TunnelProtocol

def tcsDockerWebServerPort : ℤ := 1025

/-- `TCS_protocols`: the protocols with their Docker ports, in the order of the loop. -/
def tcsProtocols (meekPorts : Bool) : List (TunnelProtocol × ℤ) :=
  [(.ssh, 1026), (.ossh, 1027)] ++
    if meekPorts then
      [(.frontedMeekOssh, 1028), (.unfrontedMeekOssh, 1029), (.frontedMeekHttpOssh, 1030),
        (.unfrontedMeekHttpsOssh, 1031), (.unfrontedMeekSessionTicketOssh, 1032)]
    else []

/-- One round of the loop: the port under which the protocol is entered, if it is. -/
def supportedPort (host : Host) (server : Server) (externalPorts : Bool) (dockerPort : ℤ)
    (protocol : TunnelProtocol) : Py (Option ℤ) :=
  let listen (port : Py ℤ) : Py (Option ℤ) :=
    if externalPorts then do return some (← port) else .ok (some dockerPort)
  match protocol with
  | .ssh => do
    if ← pyCapability server.capabilities .ssh then listen (pyPort server.sshPort)
    else return none
  | .ossh => do
    if ← pyCapability server.capabilities .ossh then listen (pyPort server.sshObfuscatedPort)
    else return none
  | .frontedMeekOssh => do
    if ← pyCapability server.capabilities .frontedMeek then listen (.ok 443) else return none
  | .unfrontedMeekOssh => do
    if ← pyCapability server.capabilities .unfrontedMeek then
      if (← pyPort host.meekServerPort) = 443 then return none
      else listen (pyPort host.meekServerPort)
    else return none
  | .frontedMeekHttpOssh => do
    if ← pyCapability server.capabilities .frontedMeek then
      if host.alternateMeekServerFrontingHosts ≠ [] then listen (.ok 80) else return none
    else return none
  | .unfrontedMeekHttpsOssh => do
    if ← pyCapability server.capabilities .unfrontedMeek then
      if (← pyPort host.meekServerPort) = 443 then listen (pyPort host.meekServerPort)
      else return none
    else return none
  | .unfrontedMeekSessionTicketOssh => do
    if ← pyCapability server.capabilities .unfrontedMeekSessionTicket then
      listen (pyPort host.meekServerPort)
    else return none

/-- `get_supported_protocol_ports`: the entries of the map, each protocol at most once. -/
def getSupportedProtocolPorts (host : Host) (server : Server) (externalPorts meekPorts : Bool) :
    Py (List (TunnelProtocol × ℤ)) := do
  let entered ← (tcsProtocols meekPorts).mapM fun (protocol, dockerPort) => do
    let port ← supportedPort host server externalPorts dockerPort protocol
    return port.map fun port => (protocol, port)
  return entered.reduceOption

structure PsiphondConfig where
  hostId : Id
  serverIpAddress : String
  webServerPort : ℤ
  tunnelProtocolPorts : List (TunnelProtocol × ℤ)
  webServerPortForwardAddress : String × ℤ
  webServerPortForwardRedirectAddress : Option (String × ℤ)
  obfuscatedSshKey : Option String
  meekCookieEncryptionPrivateKey : Option String
  meekObfuscatedKey : Option String

/-- `make_psiphond_config`; `host.TCS_type` is an argument of its own. -/
def makePsiphondConfig (tcsType : TcsType) (host : Host) (server : Server) :
    Py PsiphondConfig := do
  let (serverIpAddress, webServerPort, externalPorts) ← match tcsType with
    | .native => do pure (server.internalIpAddress, ← pyInt server.webServerPort, true)
    | .docker => pure ("0.0.0.0", tcsDockerWebServerPort, false)
  let ports ← getSupportedProtocolPorts host server externalPorts true
  let webPort ← pyInt server.webServerPort
  let ossh ← pyCapability server.capabilities .ossh
  let fronted ← pyCapability server.capabilities .frontedMeek
  let unfronted ← pyCapability server.capabilities .unfrontedMeek
  let ticket ← pyCapability server.capabilities .unfrontedMeekSessionTicket
  let meek := fronted || unfronted || ticket
  return {
    hostId := host.id
    serverIpAddress := serverIpAddress
    webServerPort := webServerPort
    tunnelProtocolPorts := ports
    webServerPortForwardAddress := (server.ipAddress, webPort)
    webServerPortForwardRedirectAddress := match tcsType with
      | .native => none
      | .docker => some ("127.0.0.1", tcsDockerWebServerPort)
    obfuscatedSshKey := if ossh || meek then server.sshObfuscatedKey else none
    meekCookieEncryptionPrivateKey :=
      if meek then host.meekCookieEncryptionPrivateKey else none
    meekObfuscatedKey := if meek then host.meekServerObfuscatedKey else none }

/-! ### Entry and configuration -/

/-- The port at which a client that knows the entry dials the protocol. -/
def EncodedServerEntry.dialPort (entry : EncodedServerEntry) : TunnelProtocol → ℤ
  | .ssh => entry.extendedConfig.sshPort
  | .ossh => entry.extendedConfig.sshObfuscatedPort
  | .frontedMeekHttpOssh => 80
  | _ => entry.extendedConfig.meekServerPort

/-- The port on which a server with the given ports serves the protocol. -/
def servicePort (ssh ossh meek : ℤ) : TunnelProtocol → ℤ
  | .ssh => ssh
  | .ossh => ossh
  | .frontedMeekOssh => 443
  | .frontedMeekHttpOssh => 80
  | _ => meek

/-- The port of the map: a protocol is entered exactly when the entry lists its capability. -/
def listeningPort (caps : Capabilities) (host : Host) (ssh ossh meek : ℤ)
    (protocol : TunnelProtocol) : Option ℤ :=
  if entryLists (decide (meek = 443)) host caps protocol.capability then
    some (servicePort ssh ossh meek protocol)
  else none

section Agreement

variable {host : Host} {server : Server} {caps : Capabilities} {ssh ossh meek : ℤ}

variable (host server caps ssh ossh meek) in
/-- The capabilities and the ports of a server; the port for meek only if it is used. -/
structure HasPorts : Prop where
  capabilities : server.capabilities = some caps
  ssh : pyPort server.sshPort = .ok ssh
  ossh : pyPort server.sshObfuscatedPort = .ok ossh
  meek : caps .frontedMeek = true ∨ caps .unfrontedMeek = true ∨
    caps .unfrontedMeekSessionTicket = true → pyPort host.meekServerPort = .ok meek

theorem pyCapability_eq (hc : server.capabilities = some caps) (c : Capability) :
    pyCapability server.capabilities c = .ok (caps c) := by
  rw [hc]
  rfl

theorem supportedPort_eq (h : HasPorts host server caps ssh ossh meek) (dp : ℤ)
    (p : TunnelProtocol) :
    supportedPort host server true dp p = .ok (listeningPort caps host ssh ossh meek p) := by
  have hp := h.meek
  cases p <;>
    simp only [supportedPort,listeningPort,servicePort,TunnelProtocol.capability,entryLists,
      pyCapability_eq h.capabilities,ok_bind,h.ssh,h.ossh,if_true,pure_eq_ok]
  case ssh => exact (apply_ite _ _ _ _).symm
  case ossh => exact (apply_ite _ _ _ _).symm
  case frontedMeekOssh => exact (apply_ite _ _ _ _).symm
  case frontedMeekHttpOssh =>
    by_cases h : caps .frontedMeek = true <;>
      by_cases halt : host.alternateMeekServerFrontingHosts = [] <;> simp [h,halt]
  case unfrontedMeekOssh =>
    by_cases h : caps .unfrontedMeek = true
    · by_cases h443 : meek = 443 <;> simp [hp (.inr (.inl h)),h,h443]
    · simp [h]
  case unfrontedMeekHttpsOssh =>
    by_cases h : caps .unfrontedMeek = true
    · by_cases h443 : meek = 443 <;> simp [hp (.inr (.inl h)),h,h443]
    · simp [h]
  case unfrontedMeekSessionTicketOssh =>
    by_cases h : caps .unfrontedMeekSessionTicket = true
    · simp [hp (.inr (.inr h)),h]
    · simp [h]

theorem lookup_reduceOption_map {α β : Type} [DecidableEq α] (f : α → Option β) (l : List α)
    (a : α) :
    ((l.map fun x => (f x).map fun b => (x, b)).reduceOption).lookup a =
      if a ∈ l then f a else none := by
  induction l with
  | nil => rfl
  | cons x l ih =>
    cases hx : f x with
    | none =>
      have ht : f a = none ∨ a ≠ x := by
        by_cases hax : a = x
        · exact .inl (hax ▸ hx)
        · exact .inr hax
      rw [map_cons,hx,Option.map_none,reduceOption_cons_of_none,ih]
      rcases ht with hn | hne
      · simp [hn]
      · simp [hne]
    | some b =>
      rw [map_cons,hx,Option.map_some,reduceOption_cons_of_some]
      by_cases hax : a = x
      · subst hax
        simp [hx]
      · have hbeq : (a == x) = false := by simpa using hax
        simp [lookup_cons,hbeq,ih,hax]

theorem mem_tcsProtocols (p : TunnelProtocol) : p ∈ (tcsProtocols true).map Prod.fst := by
  cases p <;> decide

/-- The map of a host that listens on its own ports. -/
theorem getSupportedProtocolPorts_eq (h : HasPorts host server caps ssh ossh meek) :
    ∃ ports, getSupportedProtocolPorts host server true true = .ok ports ∧
      ∀ p, ports.lookup p = listeningPort caps host ssh ossh meek p := by
  have hr : ∀ e : TunnelProtocol × ℤ,
      (do let port ← supportedPort host server true e.2 e.1
          return port.map fun port => (e.1, port) : Py (Option (TunnelProtocol × ℤ))) =
        pure ((listeningPort caps host ssh ossh meek e.1).map fun port => (e.1, port)) := by
    intro e
    rw [supportedPort_eq h,ok_bind]
  have hmap := lookup_reduceOption_map (listeningPort caps host ssh ossh meek)
    ((tcsProtocols true).map Prod.fst)
  refine ⟨_,?_,fun p => (hmap p).trans (if_pos (mem_tcsProtocols p))⟩
  show (do
    let e ← (tcsProtocols true).mapM fun e => do
      let port ← supportedPort host server true e.2 e.1
      return port.map fun port => (e.1, port)
    return e.reduceOption : Py (List (TunnelProtocol × ℤ))) = _
  simp only [hr,mapM_pure,pure_bind]
  rfl

theorem listeningPort_isSome_iff (p : TunnelProtocol) :
    (∃ port, listeningPort caps host ssh ossh meek p = some port) ↔ p.capability ∈
        Capability.all.filter (entryLists (decide (meek = 443)) host caps) := by
  have ha : p.capability ∈ Capability.all := by cases p <;> decide
  by_cases h : entryLists (decide (meek = 443)) host caps p.capability = true <;>
    simp [listeningPort,h,ha]

theorem makePsiphondConfig_native {web : ℤ} {p : List (TunnelProtocol × ℤ)}
    (hc : server.capabilities = some caps) (hw : pyInt server.webServerPort = .ok web)
    (hp : getSupportedProtocolPorts host server true true = .ok p) :
    ∃ config, makePsiphondConfig .native host server = .ok config ∧
      config.tunnelProtocolPorts = p := by
  simp only [makePsiphondConfig,hw,hp,pyCapability_eq hc,pure_eq_ok,ok_bind]
  exact ⟨_,rfl,rfl⟩

section Entry

variable {net : Network} {random : EntryRandom} {entry : EncodedServerEntry}
  (hof : EntryOf net random host server entry) (hs : HasPorts host server caps ssh ossh meek)
include hof hs

theorem capabilities_of_entryOf :
    Capability.all.filter (entryLists (decide (meek = 443)) host caps) =
      entry.extendedConfig.capabilities := by
  have hun : caps .unfrontedMeek = true →
      ∃ port, host.meekServerPort = some port ∧ port.toInt = .ok meek := by
    intro h
    have hp := hs.meek (.inr (.inl h))
    cases hset : host.meekServerPort with
    | none => rw [hset] at hp; cases hp
    | some port => exact ⟨port,rfl,by rw [hset] at hp; exact hp⟩
  have hl := hof.capabilities
  rw [entryCapabilities_eq hs.capabilities hun] at hl
  exact Except.ok.inj hl

/-- The obfuscated port is the one that is dialed, or an alternate port is. -/
theorem ossh_dialed :
    ossh = entry.extendedConfig.sshObfuscatedPort ∨ ∃ a ∈ server.alternateSshObfuscatedPorts,
        a.toInt = .ok entry.extendedConfig.sshObfuscatedPort := by
  have hp := hof.sshObfuscatedPort
  rw [entrySshObfuscatedPort_eq hs.capabilities hs.ossh] at hp
  cases ha : advertisedAlternate caps server with
  | none => exact .inl (by rw [ha] at hp; exact Except.ok.inj hp)
  | some a =>
    rw [ha] at hp
    exact .inr ⟨a,mem_of_advertisedAlternate ha,hp⟩

/-- A port that the daemon listens on is one that clients dial. -/
theorem listeningPort_dialed (hf : caps .frontedMeek = true → meek = 443) {p : TunnelProtocol}
    {port : ℤ} (hp : listeningPort caps host ssh ossh meek p = some port) :
    port = entry.dialPort p ∨
      (p = .ossh ∧ ∃ a ∈ server.alternateSshObfuscatedPorts,
        a.toInt = .ok entry.extendedConfig.sshObfuscatedPort) := by
  have hm : caps .frontedMeek = true ∨ caps .unfrontedMeek = true ∨
      caps .unfrontedMeekSessionTicket = true → meek = entry.extendedConfig.meekServerPort :=
    fun h => Except.ok.inj ((portOrZero_of_pyPort (hs.meek h)).symm.trans hof.meekServerPort)
  rw [listeningPort] at hp
  split at hp
  case isFalse => cases hp
  case isTrue hon =>
    cases p <;> cases hp
    case ssh => exact .inl (Except.ok.inj ((portOrZero_of_pyPort hs.ssh).symm.trans hof.sshPort))
    case ossh => exact (ossh_dialed hof hs).imp_right fun h => ⟨rfl,h⟩
    case frontedMeekOssh =>
      have h : caps .frontedMeek = true := hon
      exact .inl ((hf h).symm.trans (hm (.inl h)))
    case frontedMeekHttpOssh => exact .inl rfl
    case unfrontedMeekOssh =>
      have h : caps .unfrontedMeek = true := (Bool.and_eq_true_iff.mp hon).1
      exact .inl (hm (.inr (.inl h)))
    case unfrontedMeekHttpsOssh =>
      have h : caps .unfrontedMeek = true := (Bool.and_eq_true_iff.mp hon).1
      exact .inl (hm (.inr (.inl h)))
    case unfrontedMeekSessionTicketOssh => exact .inl (hm (.inr (.inr hon)))

end Entry

/-- On a native TCS host the daemon serves exactly the protocols that the entry lists, each on the
port that clients dial; the obfuscated port may be dialed at an alternate port instead. -/
theorem psiphond_ports_agree {net : Network} {random : EntryRandom} {entry : EncodedServerEntry}
    {web : ℤ} (hentry : getEncodedServerEntry net random server = .ok entry)
    (hhost : net.getHostForServer server = .ok host) (hcaps : server.capabilities = some caps)
    (hweb : pyInt server.webServerPort = .ok web)
    (hssh : pyPort server.sshPort = .ok ssh) (hossh : pyPort server.sshObfuscatedPort = .ok ossh)
    (hmeek : (caps .frontedMeek || caps .unfrontedMeek || caps .unfrontedMeekSessionTicket) = true →
      pyPort host.meekServerPort = .ok meek)
    (hfronted : caps .frontedMeek = true → meek = 443) :
    ∃ config, makePsiphondConfig .native host server = .ok config ∧ ∀ protocol,
      ((∃ port, config.tunnelProtocolPorts.lookup protocol = some port) ↔
        protocol.capability ∈ entry.extendedConfig.capabilities) ∧
      ∀ port, config.tunnelProtocolPorts.lookup protocol = some port →
        port = entry.dialPort protocol ∨
        (protocol = .ossh ∧ ∃ alternate ∈ server.alternateSshObfuscatedPorts,
          alternate.toInt = .ok entry.extendedConfig.sshObfuscatedPort) := by
  obtain ⟨host',hof⟩ := entryOf_of_eq_ok hentry
  obtain rfl : host' = host := by simpa [hof.host_eq] using hhost
  have hs : HasPorts host' server caps ssh ossh meek :=
    ⟨hcaps,hssh,hossh,by simpa only [Bool.or_eq_true,or_assoc] using hmeek⟩
  obtain ⟨ports,hp,hl⟩ := getSupportedProtocolPorts_eq hs
  obtain ⟨config,hc,rfl⟩ := makePsiphondConfig_native hcaps hweb hp
  refine ⟨config,hc,fun protocol => ⟨?_,fun port hpo => ?_⟩⟩
  · rw [hl,← capabilities_of_entryOf hof hs]
    exact listeningPort_isSome_iff protocol
  · rw [hl] at hpo
    exact listeningPort_dialed hof hs hfronted hpo

end Agreement

def frontedHost : Host :=
  { plainHost "H" true with
    meekServerPort := some (.int 443)
    alternateMeekServerFrontingHosts := ["front"] }

def frontedServer : Server :=
  { plainServer "S" "H" none with
    capabilities := some fun _ => true
    webServerCertificate := some "BEGIN\ncertificate\nEND\n"
    alternateSshObfuscatedPorts := [.str "443"] }

def frontedNetwork : Network :=
  { Network.init with
    hosts := (Table.empty Host.id).add frontedHost
    servers := (Table.empty Server.id).add frontedServer }

theorem psiphond_ports_agree_fronted :
    ∃ entry config, getEncodedServerEntry frontedNetwork ⟨.id, .id⟩ frontedServer = .ok entry ∧
      makePsiphondConfig .native frontedHost frontedServer = .ok config ∧
      ∀ protocol, (∃ port, config.tunnelProtocolPorts.lookup protocol = some port) ↔
        protocol.capability ∈ entry.extendedConfig.capabilities := by
  obtain ⟨config,hc,ha⟩ := @psiphond_ports_agree frontedHost frontedServer _ _ _ 443 frontedNetwork
    ⟨.id,.id⟩ _ _ rfl rfl rfl rfl rfl rfl (fun _ => rfl) fun _ => rfl
  exact ⟨_,config,rfl,hc,fun protocol => (ha protocol).1⟩

end Psiphon.Ops
