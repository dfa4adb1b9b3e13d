import Psiphon.Web.Inputs

/-!
# When the handlers come to their end

A handler raises on some requests that pass the checks.
-/

namespace Psiphon.Web

open List Hoare Fallible Input

variable {runtime : Runtime} {server : Server} {request : Request} {s s' : State}

/-! ### Checks that raise -/

/-- The check of such an address raises: it has one colon, and either an empty host, or a valid one
and a port of digits that `int` refuses. -/
def UnreadableAddress (platform : Platform) (text : Text) : Prop :=
  ∃ host port, text.splitOn ':' = [host, port] ∧
    (host = [] ∧ platform.inetAton host = false ∨
      (platform.inetAton host = true ∨ isValidDomain host = some true) ∧
        platform.isdigit port = true ∧ platform.int port = none)

variable {text : Text} {name : Name}

section Checks

variable {platform : Platform}

/-- The check of the text that is given for the name raises. Only `ValueError` is caught while
header names are parsed. -/
def Unreadable (platform : Platform) : Name → Text → Prop
  | .meekDialAddress, text | .meekHostHeader, text => UnreadableAddress platform text
  | .upstreamProxyCustomHeaderNames, text =>
    ∃ e, platform.loads (orEmptyValue text) = .error e ∧ e ≠ .valueError
  | _, _ => False

end Checks

/-- The names whose values are used as texts in the JSON log. -/
def textNames : List Name :=
  [.meekDialAddress, .meekHostHeader, .upstreamProxyType, .upstreamProxyCustomHeaderNames]

variable (runtime) in
/-- If the text counts as digits, then it is a number, and may become one. -/
def JsonReady (entry : Name × Text) : Prop :=
  runtime.isdigit entry.2 = true → (runtime.int entry.2).isSome ∧ entry.1 ∉ textNames

section Accepted

variable {session : Text → Option Text} {endpoint : Endpoint} {inputs : List (Name × Text)}
  (h : getInputs runtime.toPlatform server session request
    (endpoint.additional runtime.toPlatform) = some inputs)
include h

end Accepted

/-! ### The handshake -/

variable {handshakeRequest : Ops.HandshakeRequest}

variable (runtime) in
/-- Every record of the discovery store can be read. -/
def ReadableDiscovery (s : State) : Prop :=
  ∀ id record, s.discovery id = some record →
    ∃ value, recordStrategyValue runtime record = .ok value

variable (runtime server request) in
def strategyValue (s : State) : Option ℕ :=
  if isRequestTunnelled server request then
    match request.param .clientSessionId with
    | none => none
    | some id =>
      match s.discovery id with
      | some (c :: record) => (recordStrategyValue runtime (c :: record)).toOption
      | _ => none
  else some (Discovery.calculateIpAddressStrategyValue runtime.hmac runtime.hmacKey
    (some request.remoteAddr))

variable (runtime server) in
/-- What the answer to a handshake needs: versions that are numbers, servers that can be disclosed,
a record of the server itself, and a file for the key. -/
structure Answerable (inputs : List (Name × Text)) (value : Option ℕ) (secrets : Option Text) :
    Prop where
  version : ∀ clientPlatform clientVersion, (.clientPlatform, clientPlatform) ∈ inputs →
    (.clientVersion, clientVersion) ∈ inputs →
      ∀ last, (runtime.net.clientVersions
          (Ops.matchPlatform (String.ofList clientPlatform))).getLast? = some last →
        (∃ n, pyInt last.version = .ok n) ∧ clientVersion ≠ emptyValue
  discovered : ∀ found ∈ discoveredServers runtime value, ∃ host,
    runtime.net.hosts.get? found.hostId = some host ∧ Ops.HasEntry host found
  relay : ∃ own, runtime.net.servers.records.find?
      (·.internalIpAddress == String.ofList server.ipAddress) = some own ∧ Ops.HasRelay own
  secrets : (.relayProtocol, "VPN".toList) ∈ inputs → runtime.vpn = true → secrets.isSome

variable {inputs : List (Name × Text)}

section Answers

variable {session : Text → Option Text} {endpoint : Endpoint} {inputs : List (Name × Text)}
  {value : Option ℕ}
  (h : getInputs runtime.toPlatform server session request
    (endpoint.additional runtime.toPlatform) = some inputs)
include h

variable (runtime) in
/-- What `connected` needs of its inputs: values for the JSON log, and from a Windows client a
version that is a number. -/
structure Connectable (inputs : List (Name × Text)) : Prop where
  json : ∀ entry ∈ inputs, JsonReady runtime entry
  version : ∀ clientPlatform clientVersion, (.clientPlatform, clientPlatform) ∈ inputs →
    (.clientVersion, clientVersion) ∈ inputs → platformHas runtime "windows" clientPlatform = true →
      (runtime.int clientVersion).isSome

end Answers

section Status

variable {session : Text → Option Text} {inputs : List (Name × Text)}

variable (runtime request) in
/-- What `status` needs of its parameters: two of them are read again without their defaults, and go
to the JSON log when the client has disconnected. -/
def Reportable : Prop :=
  ∃ relayProtocol sessionId, request.param .relayProtocol = some relayProtocol ∧
    request.param .sessionId = some sessionId ∧
    (request.param .connected ≠ some "1".toList →
      JsonReady runtime (.relayProtocol, relayProtocol) ∧
        JsonReady runtime (.sessionId, sessionId))

end Status

/-! ### All handlers -/

variable (runtime server request) in
/-- What a handler needs of accepted inputs. -/
def Endpoint.Usable (inputs : List (Name × Text)) (s : State) : Endpoint → Prop
  | .handshake => request.knownServers.all runtime.inetAton = true →
      (∀ entry ∈ inputs, JsonReady runtime entry) ∧
        Answerable runtime server inputs (strategyValue runtime server request s) s.secrets
  | .connected => Connectable runtime inputs
  | .status => Reportable runtime request
  | .download | .routes | .failed | .speed => True

variable (runtime) in
structure Readable (s : State) : Prop where
  sessions : ReadableSessions runtime s
  discovery : ReadableDiscovery runtime s

theorem readable_initial (secrets : Option Text) : Readable runtime (.initial secrets) :=
  ⟨fun _ _ h => (Option.some_ne_none _ h.symm).elim,
    fun _ _ h => (Option.some_ne_none _ h.symm).elim⟩

def raised : EStateM.Result Raised State Response → Option Raised
  | .ok _ _ => none
  | .error e _ => some e

end Psiphon.Web
