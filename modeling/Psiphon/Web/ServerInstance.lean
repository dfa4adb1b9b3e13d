import Mathlib.Data.Int.Notation
import Mathlib.Data.List.Basic
import Psiphon.Python

/-!
# The requests of clients and what the web server logs for them

The input checks and `_get_inputs` of `psi_web.py`, and the calls of `_log_event` that its handlers
make.
-/

namespace Psiphon.Web

abbrev Text := List Char

/-- The names of request parameters and of logged values. -/
inductive Name where
  | serverIpAddress
  | clientRegion
  | clientCity
  | clientIsp
  | serverSecret
  | propagationChannelId
  | sponsorId
  | clientVersion
  | clientPlatform
  | relayProtocol
  | tunnelWholeDevice
  | clientBuildRev
  | deviceRegion
  | meekDialAddress
  | meekResolvedIpAddress
  | meekSniServerName
  | meekHostHeader
  | meekTransformedHostName
  | userAgent
  | serverEntryRegion
  | serverEntrySource
  | serverEntryTimestamp
  | upstreamProxyType
  | upstreamProxyCustomHeaderNames
  | frontingHost
  | frontingAddress
  | frontingResolvedIpAddress
  | frontingEnabledSni
  | frontingUseHttp
  | substituteServerName
  | substituteHostHeader
  | sessionId
  | lastConnected
  | errorCode
  | connected
  | operation
  | info
  | milliseconds
  | size
  | clientSessionId
  | vpnClientIpAddress
  | clientId
  | unknown
  | bytes
  | page
  | domain
  | count
  deriving DecidableEq, Repr

/-! ### Values of the request body and of the session store -/

inductive Value where
  | null
  | bool (b : Bool)
  | int (n : ℤ)
  /-- A float, as `str` writes it, and whether it is greater than zero. -/
  | float (text : Text) (positive : Bool)
  | text (t : Text)
  | list (items : List Value)
  /-- A dictionary, in the order in which Python goes through it. -/
  | object (members : List (Text × Value))

namespace Value

/-- `value > 0`, where everything but a number and `None` is greater than a number. -/
def positive : Value → Bool
  | null => false
  | bool b => b
  | int n => 0 < n
  | float _ positive => positive
  | text _ => true
  | list _ => true
  | object _ => true

/-- `value[key]`, unless it raises -/
def get (value : Value) (key : String) : Option Value :=
  match value with
  | object members => members.lookup key.toList
  | _ => none

/-- What a loop over the value goes through, unless it raises. -/
def items : Value → Option (List Value)
  | list items => some items
  | object members => some (members.map fun member => text member.1)
  | text t => some (t.map fun c => text [c])
  | _ => none

/-- `value[key]` -/
def getItem (value : Value) (key : String) : Py Value :=
  match value with
  | object _ =>
    match value.get key with
    | some item => .ok item
    | none => .error .keyError
  | _ => .error .typeError

/-- What a loop over the value goes through. -/
def iterate (value : Value) : Py (List Value) :=
  match value.items with
  | some items => .ok items
  | none => .error .typeError

/-- `key in value.keys()` -/
def hasKey (value : Value) (key : String) : Bool := (value.get key).isSome

/-- The value has the methods of a text. -/
def asText : Value → Py Text
  | text t => .ok t
  | _ => .error .attributeError

end Value

structure Geoip where
  region : Text
  city : Text
  isp : Text

structure Platform where
  /-- `socket.inet_aton` does not raise. -/
  inetAton : Text → Bool
  /-- `text.isdigit()` -/
  isdigit : Text → Bool
  /-- `int(text)`, unless it raises -/
  int : Text → Option ℤ
  /-- `int` of the float written so, unless it raises -/
  truncate : Text → Option ℤ
  lower : Text → Text
  /-- `json.loads`, which raises `ValueError` on a text that is no JSON, and may raise others. -/
  loads : Text → Py Value
  /-- `str` of a list or a dictionary -/
  str : Value → Text
  /-- `psi_geoip.get_geoip` -/
  getGeoip : Text → Geoip

variable (platform : Platform)

def decimal : ℤ → Text
  | .ofNat n => Nat.toDigits 10 n
  | .negSucc n => '-' :: Nat.toDigits 10 (n + 1)

/-- `str(value.encode('utf8') if type(value) == unicode else value)` -/
def str : Value → Text
  | .null => "None".toList
  | .bool b => (if b then "True" else "False").toList
  | .int n => decimal n
  | .float text _ => text
  | .text t => t
  | .list items => platform.str (.list items)
  | .object members => platform.str (.object members)

def safeInt : Value → ℤ
  | .int n => n
  | .bool b => if b then 1 else 0
  | .text t => (platform.int t).getD 0
  | .float text _ => (platform.truncate text).getD 0
  | .null => 0
  | .list _ => 0
  | .object _ => 0

/-! ### The input checks -/

def hexdigits : Text := "0123456789abcdefABCDEF".toList

def digits : Text := "0123456789".toList

def letters : Text := "abcdefghijklmnopqrstuvwxyzABCDEFGHIJKLMNOPQRSTUVWXYZ".toList

def whitespace : Text := "\t\n\x0b\x0c\r ".toList

def emptyValue : Text := "(NONE)".toList

def constantTimeCompare (a b : Text) : Bool :=
  a.length = b.length &&
    (a.zip b).foldl (fun result pair => result ||| (pair.1.toNat ^^^ pair.2.toNat)) 0 = 0

def consistsOf (text characters : Text) : Bool := (text.filter fun c => c ∉ characters).length = 0

def contains (text characters : Text) : Bool := characters.any fun c => c ∈ text

def isOneOf (texts : List String) (text : Text) : Bool := (texts.map String.toList).contains text

/-- `allowed.match(segment)`: the dollar sign also matches before a line break at the end. -/
def isDomainSegment (segment : Text) : Bool :=
  let body := if segment.getLast? = some '\n' then segment.dropLast else segment
  1 ≤ body.length && body.length ≤ 63 && body.all (fun c => c.isAlphanum || c = '-') &&
    body.head? ≠ some '-' && body.getLast? ≠ some '-'

/-- `is_valid_domain`, which raises on the empty text. -/
def isValidDomain (hostname : Text) : Option Bool :=
  if 255 < hostname.length then some false
  else match hostname.getLast? with
    | none => none
    | some last =>
      let hostname := if last = '.' then hostname.dropLast else hostname
      some ((hostname.splitOn '.').all isDomainSegment)

/-- `first or second`, where either may raise -/
def orElse (first second : Option Bool) : Option Bool :=
  match first with
  | some false => second
  | first => first

def isValidDialAddress (text : Text) : Option Bool :=
  match text.splitOn ':' with
  | [host, port] => do
    if !(← orElse (some (platform.inetAton host)) (isValidDomain host)) then return false
    if !platform.isdigit port then return false
    let port ← platform.int port
    return 0 < port && port < 65536
  | _ => some false

def isValidHostHeader (text : Text) : Option Bool :=
  orElse (isValidDialAddress platform text)
    (orElse (isValidDomain text) (some (platform.inetAton text)))

def isValidRelayProtocol : Text → Bool :=
  isOneOf ["VPN", "SSH", "OSSH", "FRONTED-MEEK-OSSH", "FRONTED-MEEK-HTTP-OSSH",
    "UNFRONTED-MEEK-OSSH", "UNFRONTED-MEEK-HTTPS-OSSH", "(NONE)"]

def isValidServerEntrySource : Text → Bool := isOneOf ["EMBEDDED", "REMOTE", "DISCOVERY", "TARGET"]

/-- Between `low` and `high` digits, as many as there are, and what follows. -/
def digitRun (low high : ℕ) (text : Text) : Option Text :=
  let n := min (text.takeWhile Char.isDigit).length high
  if low ≤ n then some (text.drop n) else none

def character (c : Char) : Text → Option Text
  | [] => none
  | d :: rest => if d = c then some rest else none

/-- `(\.(?P<fraction>[0-9]+))?` -/
def fraction : Text → Option Text
  | '.' :: rest => digitRun 1 rest.length rest
  | text => some text

/-- `Z|(([-+])([0-9]{2}):([0-9]{2}))` -/
def timezone : Text → Option Text
  | 'Z' :: rest => some rest
  | c :: rest =>
    if c = '-' ∨ c = '+' then digitRun 2 2 rest >>= character ':' >>= digitRun 2 2 else none
  | [] => none

/-- `is_valid_iso8601_date`: only the start of the text has to match. -/
def isValidIso8601Date (text : Text) : Bool :=
  (digitRun 4 4 text >>= character '-' >>= digitRun 1 2 >>= character '-' >>= digitRun 1 2 >>=
    character 'T' >>= digitRun 2 2 >>= character ':' >>= digitRun 2 2 >>= character ':' >>=
    digitRun 2 2 >>= fraction >>= timezone).isSome

def isValidBooleanStr : Text → Bool := isOneOf ["0", "1"]

def isValidUpstreamProxyType (text : Text) : Bool :=
  isOneOf ["socks4a", "socks5", "http"] (platform.lower text)

/-- `is_valid_json_string_array`, which catches `ValueError` only. -/
def isValidJsonStringArray (text : Text) : Option Bool :=
  match platform.loads text with
  | .ok (.list items) => some (items.all fun item => match item with
    | .text _ => true
    | _ => false)
  | .ok _ | .error .valueError => some false
  | .error _ => none

structure Server where
  ipAddress : Text
  secret : Text

/-- A name with its check. -/
structure Input where
  name : Name
  valid : Text → Option Bool

/-- A check that does not raise. -/
def Input.of (name : Name) (valid : Text → Bool) : Input := ⟨name, fun text => some (valid text)⟩

variable (server : Server)

def commonInputs : List Input :=
  [.of .serverSecret fun x => constantTimeCompare x server.secret,
    .of .propagationChannelId fun x => consistsOf x hexdigits || x = emptyValue,
    .of .sponsorId fun x => consistsOf x hexdigits || x = emptyValue,
    .of .clientVersion fun x => consistsOf x digits || x = emptyValue,
    .of .clientPlatform fun x => !contains x whitespace,
    .of .relayProtocol isValidRelayProtocol,
    .of .tunnelWholeDevice isValidBooleanStr]

def optionalCommonInputs : List Input :=
  [.of .clientBuildRev fun x => consistsOf x hexdigits || x = emptyValue,
    .of .deviceRegion fun x => consistsOf x letters && x.length = 2,
    ⟨.meekDialAddress, isValidDialAddress platform⟩,
    .of .meekResolvedIpAddress platform.inetAton,
    ⟨.meekSniServerName, isValidDomain⟩,
    ⟨.meekHostHeader, isValidHostHeader platform⟩,
    .of .meekTransformedHostName isValidBooleanStr,
    .of .userAgent fun _ => true,
    .of .serverEntryRegion fun x => consistsOf x letters && x.length = 2,
    .of .serverEntrySource isValidServerEntrySource,
    .of .serverEntryTimestamp isValidIso8601Date,
    .of .upstreamProxyType (isValidUpstreamProxyType platform),
    ⟨.upstreamProxyCustomHeaderNames, isValidJsonStringArray platform⟩,
    ⟨.frontingHost, isValidDomain⟩,
    ⟨.frontingAddress, fun x => orElse (some (platform.inetAton x)) (isValidDomain x)⟩,
    .of .frontingResolvedIpAddress platform.inetAton,
    .of .frontingEnabledSni isValidBooleanStr,
    .of .frontingUseHttp isValidBooleanStr,
    ⟨.substituteServerName, isValidDomain⟩,
    ⟨.substituteHostHeader, isValidDomain⟩]

/-- `OPTIONAL_COMMON_INPUT_NAMES` -/
def isOptional : Name → Bool
  | .clientBuildRev | .deviceRegion | .meekDialAddress | .meekResolvedIpAddress
  | .meekSniServerName | .meekHostHeader | .meekTransformedHostName | .userAgent
  | .serverEntryRegion | .serverEntrySource | .serverEntryTimestamp | .upstreamProxyType
  | .upstreamProxyCustomHeaderNames | .frontingHost | .frontingAddress
  | .frontingResolvedIpAddress | .frontingEnabledSni | .frontingUseHttp | .substituteServerName
  | .substituteHostHeader => true
  | _ => false

/-! ### The inputs of a request -/

structure Request where
  /-- `request.params[name]` -/
  param : Name → Option Text
  remoteAddr : Text
  /-- `request.params.getall('known_server')` -/
  knownServers : List Text
  body : Text

variable (session : Text → Option Text) (request : Request)

def isRequestTunnelled : Bool :=
  ["localhost".toList, "127.0.0.1".toList, server.ipAddress].contains request.remoteAddr

def getRegionOnly (region : Text) : Geoip := ⟨region, "None".toList, "None".toList⟩

/-- What is logged when nothing is known. -/
def unknownGeoip : Geoip := ⟨"Unknown".toList, "Unknown".toList, "Unknown".toList⟩

/-- The lookup by address, for requests from outside the tunnel. -/
def addressGeoip : Geoip :=
  if isRequestTunnelled server request then unknownGeoip else platform.getGeoip request.remoteAddr

/-- What `json.dumps` is given for a place. -/
def Geoip.value (geoip : Geoip) : Value :=
  .object [("region".toList, .text geoip.region), ("city".toList, .text geoip.city),
    ("isp".toList, .text geoip.isp)]

/-- The place in a record of the session store; older records have only the region. -/
def recordGeoip (record : Text) : Py Geoip :=
  match platform.loads record with
  | .error .valueError => return getRegionOnly record
  | .error e => .error e
  | .ok value => do
    let region ← value.getItem "region" >>= Value.asText
    let city ← value.getItem "city" >>= Value.asText
    let isp ← value.getItem "isp" >>= Value.asText
    return ⟨region, city, isp⟩

/-- Where the client is, as `_get_inputs` finds it. -/
def geoip : Option Geoip :=
  match request.param .clientSessionId with
  | none => some (addressGeoip platform server request)
  | some id =>
    if !consistsOf id hexdigits then none
    else match session id with
      | some (c :: record) => (recordGeoip platform (c :: record)).toOption
      | _ => some (addressGeoip platform server request)

/-- `text.replace(' ', '_')` -/
def underscored (text : Text) : Text := text.map fun c => if c = ' ' then '_' else c

/-- What the request gives for a name. -/
inductive Given where
  | value (text : Text)
  | skipped
  | missing

def given (name : Name) : Given :=
  match request.param name with
  | some text => .value text
  | none =>
    match name, request.param .vpnClientIpAddress, request.param .clientId with
    | .relayProtocol, _, _ => .value "VPN".toList
    | .sessionId, some text, _ => .value text
    | .propagationChannelId, _, some text => .value text
    | .clientPlatform, _, _ => .value "Windows".toList
    | .lastConnected, _, _ => .value "Unknown".toList
    | .tunnelWholeDevice, _, _ => .value "0".toList
    | name, _, _ => if isOptional name then .skipped else .missing

def orEmptyValue (text : Text) : Text := if text.length = 0 then emptyValue else text

/-- The loop over the expected inputs; `none` if one is missing or not valid. The error is the name
whose check raises. -/
def checkInputs : List Input → Except Name (Option (List (Name × Text)))
  | [] => .ok (some [])
  | input :: rest =>
    match given request input.name with
    | .missing => .ok none
    | .skipped => checkInputs rest
    | .value text =>
      match input.valid (orEmptyValue text) with
      | none => .error input.name
      | some false => .ok none
      | some true => do
        let values ← checkInputs rest
        return values.map fun values =>
          if input.name ≠ .serverSecret then (input.name, orEmptyValue text) :: values else values

def expectedInputs (additional : List Input) : List Input :=
  commonInputs server ++ optionalCommonInputs platform ++ additional

/-- The inputs with the address of the server and the place of the client. -/
def located (geoip : Geoip) (values : List (Name × Text)) : List (Name × Text) :=
  [(.serverIpAddress, server.ipAddress), (.clientRegion, underscored geoip.region),
    (.clientCity, underscored geoip.city), (.clientIsp, underscored geoip.isp)] ++ values

/-- What `_get_inputs` returns, unless that is `False` or it raises. -/
def getInputs (additional : List Input) : Option (List (Name × Text)) := do
  let geoip ← geoip platform server session request
  match checkInputs request (expectedInputs platform server additional) with
  | .ok (some values) => return located server geoip values
  | _ => none

/-! ### Events -/

inductive EventName where
  | handshake
  | discovery
  | connected
  | failed
  | download
  | status
  | disconnected
  | bytesTransferred
  | pageViews
  | httpsRequests
  | speed
  deriving DecidableEq, Repr

def EventName.text : EventName → Text
  | handshake => "handshake".toList
  | discovery => "discovery".toList
  | connected => "connected".toList
  | failed => "failed".toList
  | download => "download".toList
  | status => "status".toList
  | disconnected => "disconnected".toList
  | bytesTransferred => "bytes_transferred".toList
  | pageViews => "page_views".toList
  | httpsRequests => "https_requests".toList
  | speed => "speed".toList

/-- The names of events; some of them have no part in the statistics. -/
inductive LogName where
  | stats (name : EventName)
  | routes
  | session
  | domainBytes
  | remoteServerList
  deriving DecidableEq, Repr

/-- `event_name not in ['domain_bytes', 'session']` -/
def LogName.hasLine : LogName → Bool
  | .session | .domainBytes => false
  | _ => true

/-- The names that have no JSON object: `status`, `speed`, `routes`, `download`, `discovery`,
`https_requests`, `page_views` and `failed`. -/
def LogName.hasJson : LogName → Bool
  | .stats name =>
    name ∉ [.status, .speed, .download, .discovery, .httpsRequests, .pageViews, .failed]
  | .routes => false
  | _ => true

/-- The names of logged values. -/
inductive Key where
  | name (name : Name)
  | tunnelNumber
  | tunnelServerIpAddress
  | establishmentDuration
  | serverHandshakeTimestamp
  | duration
  | totalBytesSent
  | totalBytesReceived
  | clientDownloadTimestamp
  | url
  | etag
  deriving DecidableEq, Repr

/-- `OPTIONAL_COMMON_INPUT_NAMES` -/
def Key.isOptional : Key → Bool
  | .name n => Web.isOptional n
  | _ => false

/-- The arguments of `_log_event`. -/
structure LogCall where
  event : LogName
  values : List (Key × Value)

def logged (inputs : List (Name × Text)) : List (Key × Value) :=
  inputs.map fun input => (.name input.1, .text input.2)

/-- A call for the statistics, with the values as they are written. -/
structure Event where
  name : EventName
  values : List (Name × Text)
  deriving DecidableEq, Repr

/-- A value as it is written for the statistics. -/
def written (entry : Key × Value) : Option (Name × Text) :=
  match entry.1 with
  | .name name => some (name, str platform entry.2)
  | _ => none

def LogCall.event? (call : LogCall) : Option Event :=
  match call.event with
  | .stats name => some ⟨name, call.values.filterMap (written platform)⟩
  | _ => none

/-- The values that go to the statistics log. -/
def Event.logged (event : Event) : List (Name × Text) :=
  event.values.filter fun value => !isOptional value.1

/-- The text that `_log_event` gives to `syslog`. -/
def Event.text (event : Event) : Text :=
  [' '].intercalate (event.name.text :: event.logged.map Prod.snd)

/-! ### The handlers -/

/-- `is_valid_ip_address(x) or consists_of(x, string.hexdigits)` -/
def sessionIdInput : Input :=
  .of .sessionId fun x => platform.inetAton x || consistsOf x hexdigits

def connectedInputs : List Input :=
  [sessionIdInput platform,
    .of .lastConnected fun x => isValidIso8601Date x || x = "None".toList || x = "Unknown".toList]

def failedInputs : List Input := [.of .errorCode fun x => consistsOf x digits]

def statusInputs : List Input := [sessionIdInput platform, .of .connected isValidBooleanStr]

def speedInputs : List Input :=
  [.of .operation fun _ => true, .of .info fun _ => true,
    .of .milliseconds fun x => consistsOf x digits, .of .size fun x => consistsOf x digits]

inductive Endpoint where
  | handshake
  | download
  | routes
  | connected
  | failed
  | status
  | speed
  deriving DecidableEq, Repr

def Endpoint.additional (platform : Platform) : Endpoint → List Input
  | .handshake | .download => []
  | .routes => [sessionIdInput platform]
  | .connected => connectedInputs platform
  | .failed => failedInputs
  | .status => statusInputs platform
  | .speed => speedInputs

/-! ### What the handlers log -/

/-- `discovery_logger` -/
def discoveryCall (inputs : List (Name × Text)) (ipAddress : Text) : LogCall :=
  ⟨.stats .discovery, logged inputs ++ [(.name .serverIpAddress, .text ipAddress),
    (.name .unknown,
      .text (if request.knownServers.contains ipAddress then "0".toList else "1".toList))]⟩

/-- `int(value)` -/
def intOf (platform : Platform) : Value → Py ℤ
  | .int n => .ok n
  | .bool b => .ok (if b then 1 else 0)
  | .text t => match platform.int t with
    | some n => .ok n
    | none => .error .valueError
  | .float text _ => match platform.truncate text with
    | some n => .ok n
    | none => .error .valueError
  | _ => .error .typeError

/-- The calls of a loop over the items under a key of the body. -/
def itemCalls (stats : Value) (key : String) (call : Value → Py LogCall) : List (Py LogCall) :=
  match stats.getItem key >>= Value.iterate with
  | .error e => [.error e]
  | .ok items => items.map call

/-- A key that older clients do not send. -/
def itemCallsIfSent (stats : Value) (key : String) (call : Value → Py LogCall) :
    List (Py LogCall) :=
  if stats.hasKey key then itemCalls stats key call else []

def bytesTransferredCalls (inputs : List (Name × Text)) (stats : Value) : List (Py LogCall) :=
  match stats.getItem "bytes_transferred" with
  | .error e => [.error e]
  | .ok bytes =>
    if bytes.positive then
      [.ok ⟨.stats .bytesTransferred, logged inputs ++ [(.name .bytes, bytes)]⟩]
    else []

def countCall (event : EventName) (inputs : List (Name × Text)) (key : String) (name : Name)
    (item : Value) : Py LogCall := do
  let value ← item.getItem key
  let count ← item.getItem "count"
  return ⟨.stats event, logged inputs ++
    [(.name name, value), (.name .count, .int (safeInt platform count))]⟩

def pageViewCalls (inputs : List (Name × Text)) (stats : Value) : List (Py LogCall) :=
  itemCalls stats "page_views" (countCall platform .pageViews inputs "page" .page)

def httpsRequestCalls (inputs : List (Name × Text)) (stats : Value) : List (Py LogCall) :=
  itemCalls stats "https_requests" (countCall platform .httpsRequests inputs "domain" .domain)

/-- A duration in nanoseconds, in milliseconds. -/
def milliseconds (duration : Value) : Py Value := do
  let nanoseconds ← intOf platform duration
  return .int (nanoseconds / 1000000)

/-- The duration of the establishment, which older clients do not send. -/
def establishmentDuration (tunnel : Value) : Py (List (Key × Value)) :=
  match tunnel.get "establishment_duration" with
  | none => return []
  | some duration => do
    let duration ← milliseconds platform duration
    return [(.establishmentDuration, duration)]

def tunnelCall (inputs : List (Name × Text)) (tunnel : Value) : Py LogCall := do
  let sessionId ← tunnel.getItem "session_id"
  let tunnelNumber ← tunnel.getItem "tunnel_number"
  let tunnelServerIpAddress ← tunnel.getItem "tunnel_server_ip_address"
  let establishment ← establishmentDuration platform tunnel
  let serverHandshakeTimestamp ← tunnel.getItem "server_handshake_timestamp"
  let duration ← tunnel.getItem "duration" >>= milliseconds platform
  let totalBytesSent ← tunnel.getItem "total_bytes_sent"
  let totalBytesReceived ← tunnel.getItem "total_bytes_received"
  return ⟨.session, logged inputs ++ [(.name .sessionId, sessionId), (.tunnelNumber, tunnelNumber),
    (.tunnelServerIpAddress, tunnelServerIpAddress)] ++ establishment ++
    [(.serverHandshakeTimestamp, serverHandshakeTimestamp), (.duration, duration),
      (.totalBytesSent, totalBytesSent), (.totalBytesReceived, totalBytesReceived)]⟩

def tunnelCalls (inputs : List (Name × Text)) (stats : Value) : List (Py LogCall) :=
  itemCallsIfSent stats "tunnel_stats" (tunnelCall platform inputs)

/-- `stats['host_bytes'].iteritems()` wants an object. -/
def hostBytesCalls (inputs : List (Name × Text)) (stats : Value) : List (Py LogCall) :=
  match stats.get "host_bytes" with
  | none => []
  | some (.object members) => members.map fun member =>
    .ok ⟨.domainBytes, logged inputs ++ [(.name .domain, .text member.1), (.name .bytes, member.2)]⟩
  | some _ => [.error .attributeError]

def remoteServerListCall (inputs : List (Name × Text)) (item : Value) : Py LogCall := do
  let clientDownloadTimestamp ← item.getItem "client_download_timestamp"
  let url ← item.getItem "url"
  let etag ← item.getItem "etag"
  return ⟨.remoteServerList, logged inputs ++
    [(.clientDownloadTimestamp, clientDownloadTimestamp), (.url, url), (.etag, etag)]⟩

def remoteServerListCalls (inputs : List (Name × Text)) (stats : Value) : List (Py LogCall) :=
  itemCallsIfSent stats "remote_server_list_stats" (remoteServerListCall inputs)

/-- The calls for the statistics in a body, in their order. -/
def reportCalls (inputs : List (Name × Text)) (stats : Value) : List (Py LogCall) :=
  bytesTransferredCalls inputs stats ++ (pageViewCalls platform inputs stats ++
    (httpsRequestCalls platform inputs stats ++ (tunnelCalls platform inputs stats ++
      (hostBytesCalls inputs stats ++ remoteServerListCalls inputs stats))))

/-- `request.params[name]` -/
def paramOf (name : Name) : Py Text :=
  match request.param name with
  | some text => .ok text
  | none => .error .keyError

/-- The call for the status itself, with parameters as the request has them. -/
def statusCall : Py LogCall := do
  let isConnected ← paramOf request .connected
  let relayProtocol ← paramOf request .relayProtocol
  let sessionId ← paramOf request .sessionId
  return ⟨.stats (if isConnected = "1".toList then .status else .disconnected),
    logged [(.relayProtocol, relayProtocol), (.sessionId, sessionId)]⟩

/-- What is logged for the body of a status request. -/
def bodyCalls (inputs : List (Name × Text)) : List (Py LogCall) :=
  if request.body = [] then []
  else match platform.loads request.body with
    | .error e => [.error e]
    | .ok stats => reportCalls platform inputs stats

/-- The calls of a handler with accepted inputs, where `discovered` are the addresses that
`psinet.handshake` reports. -/
def Endpoint.calls (discovered : List Text) (inputs : List (Name × Text)) :
    Endpoint → List (Py LogCall)
  | .handshake =>
    if request.knownServers.all platform.inetAton then
      .ok ⟨.stats .handshake, logged inputs⟩ ::
        discovered.map fun ipAddress => .ok (discoveryCall request inputs ipAddress)
    else []
  | .download => [.ok ⟨.stats .download, logged inputs⟩]
  | .routes => [.ok ⟨.routes, logged inputs⟩]
  | .connected => [.ok ⟨.stats .connected, logged inputs⟩]
  | .failed => [.ok ⟨.stats .failed, logged inputs⟩]
  | .status => statusCall request :: bodyCalls platform request inputs
  | .speed => [.ok ⟨.stats .speed, logged inputs⟩]

/-- The calls up to the first whose arguments raise. -/
def made : List (Py LogCall) → List LogCall
  | .ok call :: rest => call :: made rest
  | _ => []

/-- What a handler logs for the statistics. -/
def handle (endpoint : Endpoint) (discovered : List Text) : List Event :=
  match getInputs platform server session request (endpoint.additional platform) with
  | none => []
  | some inputs => (made (endpoint.calls platform request discovered inputs)).filterMap
      (LogCall.event? platform)

end Psiphon.Web
