import Psiphon.Lib.Hoare
import Psiphon.Ops.Handshake
import Psiphon.Web.FlatJson
import Psiphon.Web.Psk

/-!
# The handlers of the web server

The handlers of `psi_web.py` with their answers, their exceptions and both logs. What a handler did
before it raised stays done.
-/

namespace Psiphon.Web

/-! ### The log -/

/-- The names in the JSON log: two of the names are replaced, by what kind of address the value
is. -/
inductive JsonKey where
  | key (key : Key)
  | frontingIpAddress
  | frontingDomain
  | meekDialIpAddress
  | meekDialDomain
  deriving DecidableEq, Repr

inductive Line where
  | line (event : LogName) (values : List Text)
  | json (event : LogName) (members : List (JsonKey × Value))

structure State where
  session : Text → Option Text
  discovery : Text → Option Text
  /-- `ipsec.secrets`, if there is one -/
  secrets : Option Text
  log : List Line

/-- How a handler fails: the check of an input raises, or a later statement. -/
inductive Raised where
  | check (name : Name)
  | python (error : PyError)
  deriving DecidableEq, Repr

abbrev Handled := EStateM Raised State

def raise {α : Type} : Py α → Handled α
  | .ok a => pure a
  | .error e => throw (.python e)

/-- `syslog.syslog` -/
def write (line : Line) : Handled Unit := modify fun s => { s with log := s.log ++ [line] }

/-- What the web server calls, and what it finds on its host. -/
structure Runtime extends Platform where
  /-- `json.dumps` -/
  dumps : Value → Text
  hmac : Discovery.Hmac
  hmacKey : Text
  /-- The files in `UPGRADE_DOWNLOAD_PATH` by their names. -/
  downloads : Text → Option Text
  /-- The files in `ROUTES_PATH` by their names. -/
  routeFiles : Text → Option Text
  net : Ops.Network
  handshakeEnv : Ops.HandshakeEnv
  /-- The server has the capability `VPN`. -/
  vpn : Bool
  /-- The random part of a new key. -/
  random : List UInt8

variable (runtime : Runtime)

/-- A text of digits becomes a number. -/
def normalizedValue : Value → Py Value
  | .text t =>
    if runtime.isdigit t then
      match runtime.int t with
      | some n => .ok (.int n)
      | none => .error .valueError
    else .ok (.text t)
  | value => .ok value

/-- `is_valid_ip_address`, which is false of a number -/
def isIpAddress : Value → Bool
  | .text t => runtime.inetAton t
  | _ => false

def getHost (text : Text) : Text := text.takeWhile (· ≠ ':')

/-- `json.loads(value)`, which wants a text. -/
def loadsValue : Value → Py Value
  | .text t => runtime.loads t
  | _ => .error .typeError

/-- The assignment to a member of the JSON object for a value. -/
def jsonMember (entry : Key × Value) : Py (JsonKey × Value) := do
  let value ← normalizedValue runtime entry.2
  match entry.1 with
  | .name .frontingAddress =>
    return (if isIpAddress runtime value then .frontingIpAddress else .frontingDomain, value)
  | .name .meekDialAddress => do
    let host := getHost (← value.asText)
    return (if runtime.inetAton host then .meekDialIpAddress else .meekDialDomain, .text host)
  | .name .meekHostHeader => do
    let host := getHost (← value.asText)
    return (.key entry.1, .text host)
  | .name .upstreamProxyType => do
    let text ← value.asText
    return (.key entry.1, .text (runtime.lower text))
  | .name .upstreamProxyCustomHeaderNames => do
    let names ← loadsValue runtime value
    let items ← names.iterate
    return (.key entry.1, .text (runtime.dumps (.list items)))
  | key => return (.key key, value)

def writeLine (call : LogCall) : Handled Unit :=
  if call.event.hasLine then
    write (.line call.event
      ((call.values.filter fun entry => !entry.1.isOptional).map fun entry =>
        str runtime.toPlatform entry.2))
  else pure ()

def writeJson (call : LogCall) : Handled Unit :=
  if call.event.hasJson then do
    let members ← raise (call.values.mapM (jsonMember runtime))
    write (.json call.event members)
  else pure ()

def logEvent (call : LogCall) : Handled Unit := do
  writeLine runtime call
  writeJson runtime call

/-! ### Inputs -/

variable (server : Server) (request : Request)

/-- A lookup is kept for later requests of the session, unless its id is empty. -/
def cacheGeoip (id : Text) (geoip : Geoip) : Handled Unit :=
  if id.length > 0 then
    modify fun s => { s with
      session := Function.update s.session id (some (runtime.dumps geoip.value)) }
  else pure ()

/-- The place by the address, for a session without a record. -/
def lookupGeoip (id : Text) : Handled Geoip :=
  if isRequestTunnelled server request then pure unknownGeoip
  else do
    let geoip := runtime.getGeoip request.remoteAddr
    cacheGeoip runtime id geoip
    pure geoip

/-- Where the client is; `none` if the session id is not valid. -/
def findGeoip : Handled (Option Geoip) :=
  match request.param .clientSessionId with
  | none => pure (some (addressGeoip runtime.toPlatform server request))
  | some id =>
    if !consistsOf id hexdigits then pure none
    else do
      let s ← get
      match s.session id with
      | some (c :: record) => do
        let geoip ← raise (recordGeoip runtime.toPlatform (c :: record))
        pure (some geoip)
      | _ => do
        let geoip ← lookupGeoip runtime server request id
        pure (some geoip)

/-- `_get_inputs`; `none` for `False` -/
def readInputs (additional : List Input) : Handled (Option (List (Name × Text))) := do
  let geoip ← findGeoip runtime server request
  match geoip with
  | none => pure none
  | some geoip =>
    match checkInputs request (expectedInputs runtime.toPlatform server additional) with
    | .error name => throw (.check name)
    | .ok none => pure none
    | .ok (some values) => pure (some (located server geoip values))

/-- `dict(inputs)[name]` -/
def inputOf (inputs : List (Name × Text)) (name : Name) : Py Text :=
  match inputs.reverse.lookup name with
  | some text => .ok text
  | none => .error .keyError

/-! ### Answers -/

inductive Body where
  | empty
  | file (contents : Text)
  | connectedTimestamp
  /-- The answer to a handshake, with the region of the client and the new key of the VPN. -/
  | config (config : Ops.HandshakeConfig) (clientRegion : Text) (psk : Option Text)

inductive Response where
  | notFound
  | forbidden
  | ok (body : Body)

/-- A handler that answers 404 unless the inputs are valid. -/
def withInputs (additional : List Input) (handler : List (Name × Text) → Handled Response) :
    Handled Response := do
  let inputs ← readInputs runtime server request additional
  match inputs with
  | none => pure .notFound
  | some inputs => handler inputs

def onlyLog (event : LogName) (inputs : List (Name × Text)) : Handled Response := do
  logEvent runtime ⟨event, logged inputs⟩
  pure (.ok .empty)

/-- `client_platform.lower().find(word) != -1` -/
def platformHas (word : String) (clientPlatform : Text) : Bool :=
  pyIn word.toList (runtime.lower clientPlatform)

def sendRoutes (inputs : List (Name × Text)) : Handled Response := do
  let clientPlatform ← raise (inputOf inputs .clientPlatform)
  let clientRegion ← raise (inputOf inputs .clientRegion)
  if platformHas runtime "android" clientPlatform then pure (.ok .empty)
  else match runtime.routeFiles (clientRegion ++ ".route.zlib".toList) with
    | some contents => pure (.ok (.file contents))
    | none => pure (.ok .empty)

def downloadName (clientPlatform propagationChannelId sponsorId : Text) : Text :=
  if platformHas runtime "android" clientPlatform then
    "PsiphonAndroid-".toList ++ propagationChannelId ++ "-".toList ++ sponsorId ++ ".apk".toList
  else "psiphon-".toList ++ propagationChannelId ++ "-".toList ++ sponsorId ++ ".exe".toList

def download (inputs : List (Name × Text)) : Handled Response := do
  logEvent runtime ⟨.stats .download, logged inputs⟩
  let clientPlatform ← raise (inputOf inputs .clientPlatform)
  let propagationChannelId ← raise (inputOf inputs .propagationChannelId)
  let sponsorId ← raise (inputOf inputs .sponsorId)
  match runtime.downloads
      (downloadName runtime clientPlatform propagationChannelId sponsorId) with
  | some contents => pure (.ok (.file contents))
  | none => pure .notFound

def routes (inputs : List (Name × Text)) : Handled Response := do
  logEvent runtime ⟨.routes, logged inputs⟩
  sendRoutes runtime inputs

/-- The version is read only for Windows; the last one that asks for routes is 44. -/
def wantsRoutes (inputs : List (Name × Text)) : Py Bool := do
  let clientPlatform ← inputOf inputs .clientPlatform
  if platformHas runtime "windows" clientPlatform then do
    let clientVersion ← inputOf inputs .clientVersion
    let version ← intOf runtime.toPlatform (.text clientVersion)
    return version ≤ 44
  else return false

def connected (inputs : List (Name × Text)) : Handled Response := do
  logEvent runtime ⟨.stats .connected, logged inputs⟩
  let wants ← raise (wantsRoutes runtime inputs)
  if wants then sendRoutes runtime inputs else pure (.ok .connectedTimestamp)

/-! ### Handshake -/

/-- The strategy value in a record of the discovery store. -/
def recordStrategyValue (record : Text) : Py ℕ := do
  let value ← runtime.loads record
  match ← value.getItem "client_ip_address_strategy_value" with
  | .int n => return n.toNat
  | _ => .error .typeError

/-- What `json.dumps` is given for a strategy value. -/
def strategyRecord (value : ℕ) : Value :=
  .object [("client_ip_address_strategy_value".toList, .int value)]

/-- The strategy value that was stored for a tunnelled request, which takes it out of the store. -/
def takeStrategyValue (id : Text) : Handled (Option ℕ) := do
  let s ← get
  match s.discovery id with
  | some (c :: record) => do
    set { s with discovery := Function.update s.discovery id none }
    let value ← raise (recordStrategyValue runtime (c :: record))
    pure (some value)
  | _ => pure none

/-- The strategy value of a request from outside, which is stored unless there is one. -/
def putStrategyValue (value : ℕ) : Option Text → Handled Unit
  | none => pure ()
  | some id => modify fun s =>
    if (s.discovery id).isNone then
      { s with discovery :=
          Function.update s.discovery id (some (runtime.dumps (strategyRecord value))) }
    else s

def findStrategyValue : Handled (Option ℕ) :=
  if isRequestTunnelled server request then
    match request.param .clientSessionId with
    | none => pure none
    | some id => takeStrategyValue runtime id
  else do
    let value := Discovery.calculateIpAddressStrategyValue runtime.hmac runtime.hmacKey
      (some request.remoteAddr)
    putStrategyValue runtime value (request.param .clientSessionId)
    pure (some value)

def discoveredServers (value : Option ℕ) : List Ops.Server :=
  match value with
  | none | some 0 => []
  | some value => ((Discovery.selectServers (Ops.candidateServers runtime.net
      runtime.handshakeEnv.list.now) value
        runtime.handshakeEnv.list.timeInSeconds).toOption).getD []

/-- What is passed to `psinet.handshake`. -/
def handshakeRequest (inputs : List (Name × Text)) (value : Option ℕ) :
    Py Ops.HandshakeRequest := do
  let clientRegion ← inputOf inputs .clientRegion
  let propagationChannelId ← inputOf inputs .propagationChannelId
  let sponsorId ← inputOf inputs .sponsorId
  let clientPlatform ← inputOf inputs .clientPlatform
  let clientVersion ← inputOf inputs .clientVersion
  return {
    serverIpAddress := String.ofList server.ipAddress
    clientIpAddressStrategyValue := value
    clientRegion := String.ofList clientRegion
    propagationChannelId := String.ofList propagationChannelId
    sponsorId := String.ofList sponsorId
    clientPlatformString := String.ofList clientPlatform
    clientVersion := String.ofList clientVersion
    eventLogger := true }

/-- The key of the VPN is set for clients that use it. -/
def setPskFor (relayProtocol : Text) : Handled (Option Text) :=
  if relayProtocol = "VPN".toList ∧ runtime.vpn then do
    let s ← get
    let psk := Psk.hexlify runtime.random
    let secrets ← raise (Psk.setPsk server.ipAddress psk s.secrets)
    set { s with secrets := some secrets }
    pure (some psk)
  else pure none

/-- `handshake`, once the strategy value is known. The version is compared before the servers are
logged, and their entries are made afterwards. -/
def handshakeWith (inputs : List (Name × Text)) (value : Option ℕ) : Handled Response := do
  let handshakeRequest ← raise (handshakeRequest server inputs value)
  let _ ← raise (runtime.net.checkUpgrade (Ops.matchPlatform handshakeRequest.clientPlatformString)
    handshakeRequest.clientVersion)
  (discoveredServers runtime value).forM fun discovered =>
    logEvent runtime (discoveryCall request inputs discovered.ipAddress.toList)
  let config ← raise (runtime.net.handshake runtime.handshakeEnv handshakeRequest)
  let relayProtocol ← raise (inputOf inputs .relayProtocol)
  let psk ← setPskFor runtime server relayProtocol
  pure (.ok (.config config handshakeRequest.clientRegion.toList psk))

/-- `handshake`, with known servers that are addresses. -/
def handshakeAnswer (inputs : List (Name × Text)) : Handled Response := do
  logEvent runtime ⟨.stats .handshake, logged inputs⟩
  let value ← findStrategyValue runtime server request
  handshakeWith runtime server request inputs value

def handshakeFor (inputs : List (Name × Text)) : Handled Response :=
  if request.knownServers.all runtime.inetAton then handshakeAnswer runtime server request inputs
  else pure .notFound

/-! ### Status -/

/-- A call whose arguments may raise. -/
def logCall (call : Py LogCall) : Handled Unit := do
  let call ← raise call
  logEvent runtime call

/-- What the body reports is logged while it is parsed. -/
def parseReport (inputs : List (Name × Text)) : Handled Unit :=
  (bodyCalls runtime.toPlatform request inputs).forM (logCall runtime)

def parses (inputs : List (Name × Text)) : Handled Bool :=
  tryCatch
    (do
      parseReport runtime request inputs
      pure true)
    fun _ => pure false

/-- The session of a client that has disconnected is forgotten. -/
def cleanUpSession (isConnected : Text) : Handled Unit :=
  match request.param .clientSessionId with
  | none => pure ()
  | some id =>
    if isConnected = "0".toList then
      modify fun s => { s with session := Function.update s.session id none }
    else pure ()

/-- Any exception while the body is parsed is answered with 403. -/
def statusAnswer (inputs : List (Name × Text)) (isConnected : Text) : Handled Response := do
  let parsed ← parses runtime request inputs
  if parsed then do
    cleanUpSession request isConnected
    pure (.ok .empty)
  else pure .forbidden

/-- `status` reads some of the parameters again, as the request has them. -/
def statusFor (inputs : List (Name × Text)) : Handled Response := do
  let isConnected ← raise (paramOf request .connected)
  logCall runtime (statusCall request)
  statusAnswer runtime request inputs isConnected

/-! ### The handlers -/

/-- What a handler does with valid inputs. -/
def Endpoint.answer (inputs : List (Name × Text)) : Endpoint → Handled Response
  | .handshake => handshakeFor runtime server request inputs
  | .download => Web.download runtime inputs
  | .routes => Web.routes runtime inputs
  | .connected => Web.connected runtime inputs
  | .failed => onlyLog runtime (.stats .failed) inputs
  | .status => statusFor runtime request inputs
  | .speed => onlyLog runtime (.stats .speed) inputs

def respond (endpoint : Endpoint) : Handled Response :=
  withInputs runtime server request (endpoint.additional runtime.toPlatform) fun inputs =>
    endpoint.answer runtime server request inputs

/-! ### Runs of the statements -/

section Runs

open Hoare

variable {runtime} {server} {request} {α β : Type} {s s' : State}

variable {f : α → Handled β} {r : Py α}

theorem raise_bind_of_ok {a : α} (h : r = .ok a) (s : State) : (raise r >>= f) s = f a s := by
  rw [h]
  rfl

theorem raise_bind_of_error {e : PyError} (h : r = .error e) (s : State) :
    (raise r >>= f) s = .error (.python e) s := by
  rw [h]
  rfl

def State.write (s : State) (lines : List Line) : State := { s with log := s.log ++ lines }

theorem State.write_nil (s : State) : s.write [] = s := by simp [State.write]

theorem State.write_write (s : State) (lines later : List Line) :
    (s.write lines).write later = s.write (lines ++ later) := by simp [State.write]

variable (runtime) in
/-- What a call writes to the log for the statistics. -/
def LogCall.lines (call : LogCall) : List Line :=
  if call.event.hasLine then [.line call.event
      ((call.values.filter fun entry => !entry.1.isOptional).map fun entry =>
        str runtime.toPlatform entry.2)]
  else []

variable (runtime) in
/-- What a call writes to the JSON log, if the values can be converted. -/
def LogCall.jsons (call : LogCall) : Py (List Line) :=
  if call.event.hasJson then (call.values.mapM (jsonMember runtime)).map fun members =>
    [.json call.event members]
  else .ok []

theorem writeLine_run (call : LogCall) (s : State) :
    writeLine runtime call s = .ok () (s.write (call.lines runtime)) := by
  unfold writeLine LogCall.lines
  split
  · rfl
  · rw [s.write_nil]
    rfl

theorem writeJson_run (call : LogCall) (s : State) :
    writeJson runtime call s = match call.jsons runtime with
      | .ok lines => .ok () (s.write lines)
      | .error e => .error (.python e) s := by
  unfold writeJson LogCall.jsons
  split
  · cases call.values.mapM (jsonMember runtime) <;> rfl
  · dsimp only
    rw [s.write_nil]
    rfl

variable {call : LogCall}

theorem logEvent_of_ok {lines : List Line} (h : call.jsons runtime = .ok lines) (s : State) :
    logEvent runtime call s = .ok () (s.write (call.lines runtime ++ lines)) := by
  rw [logEvent,bind_of_ok (writeLine_run call s),writeJson_run,h,← State.write_write]

/-- The line for the statistics is written before the values are converted. -/
theorem logEvent_of_error {e : PyError} (h : call.jsons runtime = .error e) (s : State) :
    logEvent runtime call s = .error (.python e) (s.write (call.lines runtime)) := by
  rw [logEvent,bind_of_ok (writeLine_run call s),writeJson_run,h]

end Runs

/-! ### A small installation -/

def smallRuntime : Runtime where
  inetAton := isOneOf ["10.0.0.1", "198.51.100.7"]
  isdigit := fun text => text ≠ [] && text.all Char.isDigit
  int := fun text => (digits? text).map Int.ofNat
  truncate := fun _ => none
  lower := fun text => text.map Char.toLower
  loads := Flat.loads
  str := Flat.dumps
  getGeoip := fun _ => ⟨"CA".toList, "Toronto".toList, "None".toList⟩
  dumps := Flat.dumps
  hmac := fun _ _ _ => 1
  hmacKey := []
  downloads := fun _ => none
  routeFiles := fun _ => none
  net := Ops.oneServerNetwork
  handshakeEnv := Ops.handshakeAtFive
  vpn := true
  random := []

def smallServer : Server := ⟨"10.0.0.1".toList, "secret".toList⟩

def clientParam (others : Name → Option Text) (name : Name) : Option Text :=
  (others name).or (match name with
    | .serverSecret => some "secret".toList
    | .propagationChannelId => some "AA".toList
    | .sponsorId => some "BB".toList
    | .clientVersion => some "44".toList
    | .clientPlatform => some "Windows".toList
    | .relayProtocol => some "VPN".toList
    | .sessionId => some "0f".toList
    | _ => none)

def smallRequest (others : Name → Option Text) (body : Text) : Request :=
  ⟨clientParam others, "198.51.100.7".toList, [], body⟩

def State.initial (secrets : Option Text) : State := ⟨fun _ => none, fun _ => none, secrets, []⟩

end Psiphon.Web
