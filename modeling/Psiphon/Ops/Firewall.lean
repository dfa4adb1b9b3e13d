import Psiphon.Ops.ServerEntry

/-!
# The firewall of a legacy host

The chains that `install_legacy_firewall_rules` (`psi_ops_install.py`) writes for packets that
arrive.
-/

namespace Psiphon.Ops.Firewall

inductive Protocol where
  | tcp
  | udp
  | esp
  | ah
  deriving DecidableEq, Repr

inductive ConnectionState where
  | new
  | established
  | related
  deriving DecidableEq, Repr

structure Packet where
  inInterface : String
  destination : String
  protocol : Protocol
  dport : ℤ
  state : ConnectionState
  /-- The packet is within the limits of `-m limit` and `-m recent`. -/
  withinLimits : Bool
  deriving DecidableEq, Repr

/-- What a rule asks of a packet. A port is kept as the value whose text stands in the rule. -/
inductive Match where
  /-- `-i name` -/
  | inInterface (name : String)
  /-- `! -i name` -/
  | notInInterface (name : String)
  /-- `-i start+` -/
  | inInterfaces (start : String)
  /-- `-d address` -/
  | destination (address : String)
  /-- `-d 127.0.0.0/8` -/
  | destinationLoopback
  /-- `-p protocol` -/
  | protocol (p : Protocol)
  /-- `-m state --state states` -/
  | state (states : List ConnectionState)
  /-- `--dport port` -/
  | dport (port : Option Port)
  /-- `-m limit` -/
  | limit
  /-- `-m recent --set` -/
  | recentSet
  /-- `-m recent --update --seconds 60 --hitcount 3` -/
  | recentHits

def isLoopback (address : String) : Bool := "127.".toList.isPrefixOf address.toList

def Match.holds (packet : Packet) : Match → Bool
  | inInterface name => packet.inInterface = name
  | notInInterface name => packet.inInterface ≠ name
  | inInterfaces start => start.toList.isPrefixOf packet.inInterface.toList
  | destination address => packet.destination = address
  | destinationLoopback => isLoopback packet.destination
  | protocol p => packet.protocol = p
  | state states => packet.state ∈ states
  | dport port => pyPort port = .ok packet.dport
  | limit => packet.withinLimits
  | recentSet => true
  | recentHits => !packet.withinLimits

/-- A rule of a chain; one without a target only counts the packet. -/
structure Rule (V : Type) where
  conditions : List Match
  target : Option V

def Rule.fire {V : Type} (packet : Packet) (rule : Rule V) : Option V :=
  if rule.conditions.all (Match.holds packet) then rule.target else none

def decision {V : Type} (rules : List (Rule V)) (packet : Packet) : Option V :=
  rules.findSome? (Rule.fire packet)

inductive Verdict where
  | accept
  | drop
  | reject
  deriving DecidableEq, Repr

/-! ### The text of the rules -/

/-- The rules of each server that meets a condition: `''.join([… for s in servers if …])`. -/
def forServers {V : Type} (servers : List Server) (condition : Server → Py Bool)
    (rules : Server → List (Rule V)) : Py (List (Rule V)) := do
  let parts ← servers.mapM fun s => do
    if ← condition s then return rules s else return []
  return parts.flatten

/-- `-p tcp -m state --state NEW -m tcp --dport port`, to an address of the server. -/
def newTcp (s : Server) (port : Option Port) : List Match :=
  [.destination s.internalIpAddress, .protocol .tcp, .state [.new], .dport port]

/-- `s.capabilities['FRONTED-MEEK'] or s.capabilities['UNFRONTED-MEEK']` -/
def meekCapability (s : Server) : Py Bool := do
  if ← pyCapability s.capabilities .frontedMeek then return true
  else pyCapability s.capabilities .unfrontedMeek

def portTruthy : Option Port → Bool
  | some port => port.truthy
  | none => false

def limitedService (s : Server) (port : Option Port) : List (Rule Verdict) :=
  [⟨newTcp s port ++ [.recentSet], none⟩, ⟨newTcp s port ++ [.recentHits], some .drop⟩,
    ⟨newTcp s port, some .accept⟩]

def loopbackRules (servers : List Server) : Py (List (Rule Verdict)) := do
  let redis : List (Rule Verdict) := [7300, 6379, 6000].map fun port =>
    ⟨[.inInterface "lo", .protocol .tcp, .dport (some (.int port))], some .accept⟩
  let ossh ← forServers servers
    (fun s => do return (← meekCapability s) && portTruthy s.sshObfuscatedPort)
    fun s => [⟨.inInterface "lo" :: newTcp s s.sshObfuscatedPort, some .accept⟩]
  let web ← forServers servers (fun _ => .ok true)
    fun s => [⟨.inInterface "lo" :: newTcp s (some (.str s.webServerPort)), some .accept⟩]
  return redis ++ ossh ++ web

def serviceRules (host : Host) (servers : List Server) : Py (List (Rule Verdict)) := do
  let meek ← forServers servers
    (fun s => do return (← meekCapability s) && portTruthy host.meekServerPort)
    fun s => [⟨newTcp s host.meekServerPort ++ [.limit], some .accept⟩]
  let web ← forServers servers (fun s => pyCapability s.capabilities .handshake)
    fun s => [⟨newTcp s (some (.str s.webServerPort)), some .accept⟩]
  let ssh ← forServers servers (fun s => pyCapability s.capabilities .ssh)
    fun s => limitedService s s.sshPort
  let ossh ← forServers servers (fun s => pyCapability s.capabilities .ossh)
    fun s => limitedService s s.sshObfuscatedPort
  let vpn ← forServers servers (fun s => pyCapability s.capabilities .vpn)
    fun s =>
      [⟨[.destination s.internalIpAddress, .protocol .esp], some .accept⟩,
        ⟨[.destination s.internalIpAddress, .protocol .ah], some .accept⟩,
        ⟨[.destination s.internalIpAddress, .protocol .udp, .dport (some (.int 500))],
          some .accept⟩,
        ⟨[.destination s.internalIpAddress, .protocol .udp, .dport (some (.int 4500))],
          some .accept⟩,
        ⟨[.destination s.internalIpAddress, .inInterfaces "ipsec", .protocol .udp,
          .dport (some (.int 1701))], some .accept⟩]
  return meek ++ web ++ ssh ++ ossh ++ vpn

/-- `-A INPUT …`, for a host whose own SSH server listens on `sshPort`. -/
def inputChain (sshPort : Port) (host : Host) (servers : List Server) :
    Py (List (Rule Verdict)) := do
  let loopback ← loopbackRules servers
  let services ← serviceRules host servers
  return loopback ++
    [⟨[.destinationLoopback, .notInInterface "lo"], some .drop⟩,
      ⟨[.state [.related, .established]], some .accept⟩,
      ⟨[.protocol .tcp, .state [.new], .dport (some sshPort)], some .accept⟩] ++
    services ++
    [⟨[.protocol .tcp], some .reject⟩, ⟨[], some .drop⟩]

/-- `if condition: int(port) == 443 else False` -/
def on443 (condition : Bool) (port : Option Port) : Py Bool :=
  if condition then do return decide ((← pyPort port) = 443) else .ok false

/-- The condition under which port 443 is forwarded to the web server. -/
def forwards443 (host : Host) (s : Server) : Py Bool := do
  if ← pyCapability s.capabilities .handshake then
    if ← on443 (← meekCapability s) host.meekServerPort then return false
    else return !(← on443 (← pyCapability s.capabilities .ossh) s.sshObfuscatedPort)
  else return false

/-- `-A PREROUTING …`: a target is the port to which the packet is sent on. -/
def preroutingChain (host : Host) (servers : List Server) : Py (List (Rule (Option Port))) := do
  let web ← forServers servers (forwards443 host)
    fun s => [⟨[.inInterfaces "eth", .protocol .tcp, .destination s.internalIpAddress,
      .dport (some (.int 443))], some (some (.str s.webServerPort))⟩]
  let alternates ← forServers servers (fun _ => .ok true)
    fun s => s.alternateSshObfuscatedPorts.map fun alternate =>
      ⟨[.inInterfaces "eth", .protocol .tcp, .destination s.internalIpAddress,
        .dport (some alternate)], some s.sshObfuscatedPort⟩
  return web ++ alternates

structure Chains where
  prerouting : List (Rule (Option Port))
  input : List (Rule Verdict)

def installLegacyFirewallRules (sshPort : Port) (host : Host) (servers : List Server) :
    Py Chains := do
  let input ← inputChain sshPort host servers
  let prerouting ← preroutingChain host servers
  return ⟨prerouting, input⟩

def Chains.translate (chains : Chains) (packet : Packet) : Packet :=
  match decision chains.prerouting packet with
  | none => packet
  | some port => match pyPort port with
    | .ok dport => { packet with dport := dport }
    | .error _ => packet

def Chains.deliver (chains : Chains) (packet : Packet) : Option ℤ :=
  let packet := chains.translate packet
  if decision chains.input packet = some .accept then some packet.dport else none

def connection (address : String) (port : ℤ) : Packet where
  inInterface := "eth0"
  destination := address
  protocol := .tcp
  dport := port
  state := .new
  withinLimits := true

end Psiphon.Ops.Firewall
