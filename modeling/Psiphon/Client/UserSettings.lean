import Psiphon.Client.ServerEntry
import Psiphon.Lib.Cut
import Psiphon.Lib.Hoare

/-!
# The settings of the Windows client

`usersettings.cpp`. The JSON reader is an argument, and so is which writes to the registry succeed.
-/

namespace Psiphon.Client.Settings

open Cut (cut)
open Json (Bytes ascii)

/-! ### JSON values -/

/-- A double: what it is as an unsigned integer, if it is in the range of one, and its text. -/
structure Double where
  unsigned : Option UInt32
  text : Bytes

/-- `Json::Value` -/
abbrev JsonValue := Json.ValueOver String Double

namespace JsonValue

def get (json : JsonValue) (key : String) (default : JsonValue) : Cpp JsonValue :=
  match json with
  | .null => return default
  | .obj members => return (members.lookup key).getD default
  | _ => throw "in Json::Value::find(key, end, found): requires objectValue or nullValue"

def asUInt : JsonValue → Cpp UInt32
  | .int n =>
    if 0 ≤ n ∧ n < 2 ^ 32 then return UInt32.ofNat n.toNat
    else throw "LargestInt out of UInt range"
  | .real ⟨some n, _⟩ => return n
  | .real ⟨none, _⟩ => throw "double out of UInt range"
  | .null => return 0
  | .bool b => return if b then 1 else 0
  | .str _ | .arr _ | .obj _ => throw "Value is not convertible to UInt."

def asString : JsonValue → Cpp Bytes
  | .null => return []
  | .str text => return text
  | .bool b => return ascii (if b then "true" else "false")
  | .int n => return Json.printInt n
  | .real double => return double.text
  | .arr _ | .obj _ => throw "Type is not convertible to string"

end JsonValue

/-! ### The registry -/

inductive Name where
  /-- `SplitTunnel` -/
  | splitTunnel
  /-- `DisableTimeouts` -/
  | disableTimeouts
  /-- `Transport` -/
  | transport
  /-- `LocalHTTPProxyPort` -/
  | httpProxyPort
  /-- `LocalSOCKSProxyPort` -/
  | socksProxyPort
  /-- `EgressRegion` -/
  | egressRegion
  /-- `SSHParentProxySkip` -/
  | skipUpstreamProxy
  /-- `SSHParentProxyHostname` -/
  | upstreamProxyHostname
  /-- `SSHParentProxyPort` -/
  | upstreamProxyPort
  /-- `SystrayMinimize` -/
  | systrayMinimize
  deriving DecidableEq, Repr

inductive RegistryValue where
  | dword (value : UInt32)
  | sz (text : Bytes)
  /-- A value of another type. -/
  | other
  deriving DecidableEq, Repr

abbrev Store := Name → Option RegistryValue

/-- `GetSettingDword`: a value of another type does not count. -/
def getSettingDword (store : Store) (name : Name) (default : UInt32) : UInt32 :=
  match store name with
  | some (.dword value) => value
  | _ => default

def getSettingString (store : Store) (name : Name) (default : Bytes) : Bytes :=
  match store name with
  | some (.sz text) => text
  | _ => default

/-! ### Getters -/

section Getters

variable (store : Store)

def maxPort : UInt32 := 0xFFFF

def flag (name : Name) : Bool := getSettingDword store name 0 ≠ 0

/-- The value of a port. The default, `NULL_PORT`, also stands for a value that is no port. -/
def port (name : Name) : UInt32 :=
  let value := getSettingDword store name 0
  if value > maxPort then 0 else value

def splitTunnel : Bool := flag store .splitTunnel

def disableTimeouts : Bool := flag store .disableTimeouts

/-- `CORE_TRANSPORT_PROTOCOL_NAME` -/
def transportDefault : Bytes := ascii "CoreTransport"

/-- `VPN_TRANSPORT_PROTOCOL_NAME` -/
def transportVpn : Bytes := ascii "VPN"

def transport : Bytes :=
  let transport := getSettingString store .transport transportDefault
  if transport ≠ transportVpn then transportDefault else transport

def localHttpProxyPort : UInt32 := port store .httpProxyPort

def localSocksProxyPort : UInt32 := port store .socksProxyPort

def atSign : UInt8 := 64

def colon : UInt8 := 58

def backslash : UInt8 := 92

def upstreamProxyAuthenticatedHostname : Bytes :=
  getSettingString store .upstreamProxyHostname []

def hostnameOf (text : Bytes) : Bytes :=
  match cut atSign text with
  | some (_, hostname) => hostname
  | none => text

def withoutDomain (username : Bytes) : Bytes :=
  match cut backslash username with
  | some (_, username) => username
  | none => username

def usernameOf (text : Bytes) : Bytes :=
  match cut atSign text with
  | some (credentials, _) =>
    match cut colon credentials with
    | some (username, _) => withoutDomain username
    | none => withoutDomain credentials
  | none => []

/-- What `UpstreamProxyPassword` makes of the stored text. Without a colon the index is that of the
first byte. -/
def passwordOf (text : Bytes) : Bytes :=
  match cut atSign text with
  | some (credentials, _) =>
    match cut colon credentials with
    | some (_, password) => password
    | none => credentials
  | none => []

def domainOf (text : Bytes) : Bytes :=
  match cut backslash text with
  | some (domain, _) => domain
  | none => []

def upstreamProxyHostname : Bytes := hostnameOf (upstreamProxyAuthenticatedHostname store)

def upstreamProxyPort : UInt32 := port store .upstreamProxyPort

def upstreamProxyUsername : Bytes := usernameOf (upstreamProxyAuthenticatedHostname store)

def upstreamProxyPassword : Bytes := passwordOf (upstreamProxyAuthenticatedHostname store)

def upstreamProxyDomain : Bytes := domainOf (upstreamProxyAuthenticatedHostname store)

def skipUpstreamProxy : Bool := flag store .skipUpstreamProxy

def egressRegion : Bytes := getSettingString store .egressRegion []

def systrayMinimize : Bool := flag store .systrayMinimize

end Getters

/-! ### `ToJson` -/

def ofFlag (b : Bool) : JsonValue := .int (if b then 1 else 0)

def ofPort (port : UInt32) : JsonValue := .int port.toNat

/-- What `ToJson` lists under `defaults`. -/
def defaults : List (String × JsonValue) := [
  ("SplitTunnel", .int 0),
  ("DisableTimeouts", .int 0),
  ("VPN", .int 0),
  ("LocalHttpProxyPort", .int 0),
  ("LocalSocksProxyPort", .int 0),
  ("SkipUpstreamProxy", .int 0),
  ("UpstreamProxyHostname", .str []),
  ("UpstreamProxyPort", .int 0),
  ("UpstreamProxyUsername", .str []),
  ("UpstreamProxyPassword", .str []),
  ("UpstreamProxyDomain", .str []),
  ("EgressRegion", .str []),
  ("SystrayMinimize", .int 0)]

def toJson (store : Store) : JsonValue := .obj [
  ("defaults", .obj defaults),
  ("SplitTunnel", ofFlag (splitTunnel store)),
  ("DisableTimeouts", ofFlag (disableTimeouts store)),
  ("VPN", ofFlag (transport store = transportVpn)),
  ("LocalHttpProxyPort", ofPort (localHttpProxyPort store)),
  ("LocalSocksProxyPort", ofPort (localSocksProxyPort store)),
  ("SkipUpstreamProxy", ofFlag (skipUpstreamProxy store)),
  ("UpstreamProxyHostname", .str (upstreamProxyHostname store)),
  ("UpstreamProxyPort", ofPort (upstreamProxyPort store)),
  ("UpstreamProxyUsername", .str (upstreamProxyUsername store)),
  ("UpstreamProxyPassword", .str (upstreamProxyPassword store)),
  ("UpstreamProxyDomain", .str (upstreamProxyDomain store)),
  ("EgressRegion", .str (egressRegion store)),
  ("SystrayMinimize", ofFlag (systrayMinimize store))]

/-! ### `FromJson` -/

structure Saving where
  store : Store
  /-- `reconnectRequiredValueChanged` -/
  changed : Bool

abbrev SettingsM := EStateM String Saving

def ofCpp {α : Type} : Cpp α → SettingsM α
  | .ok a => pure a
  | .error e => throw e

def authenticatedHostname (username password domain hostname : Bytes) : Bytes :=
  if username.length > 0 ∧ password.length > 0 then
    let username := if domain.length > 0 then domain ++ backslash :: username else username
    username ++ colon :: password ++ atSign :: hostname
  else hostname

def readUInt (json : JsonValue) (key : String) (default : JsonValue) : Cpp UInt32 :=
  json.get key default >>= JsonValue.asUInt

def readString (json : JsonValue) (key : String) : Cpp Bytes :=
  json.get key (.str []) >>= JsonValue.asString

section FromJson

variable (writes : Name → Bool) (json : JsonValue)

/-- `WriteRegistryDwordValue` or `WriteRegistryStringValue`, whose result is ignored. -/
def written (store : Store) (name : Name) (value : RegistryValue) : Store :=
  if writes name then Function.update store name (some value) else store

/-- What is read for a setting, as it is written. The default for the transport is a wide text,
which only the constructor of `Json::Value` for a `bool` takes. -/
def given : Name → Cpp RegistryValue
  | .splitTunnel => return .dword (← readUInt json "SplitTunnel" (.int 0))
  | .disableTimeouts => return .dword (← readUInt json "DisableTimeouts" (.int 0))
  | .transport => do
    let vpn ← readUInt json "VPN" (.bool true)
    return .sz (if vpn ≠ 0 then transportVpn else transportDefault)
  | .httpProxyPort => return .dword (← readUInt json "LocalHttpProxyPort" (.int 0))
  | .socksProxyPort => return .dword (← readUInt json "LocalSocksProxyPort" (.int 0))
  | .upstreamProxyHostname => do
    let username ← readString json "UpstreamProxyUsername"
    let password ← readString json "UpstreamProxyPassword"
    let domain ← readString json "UpstreamProxyDomain"
    let hostname ← readString json "UpstreamProxyHostname"
    return .sz (authenticatedHostname username password domain hostname)
  | .upstreamProxyPort => return .dword (← readUInt json "UpstreamProxyPort" (.int 0))
  | .skipUpstreamProxy => return .dword (← readUInt json "SkipUpstreamProxy" (.int 0))
  | .egressRegion => return .sz (← readString json "EgressRegion")
  | .systrayMinimize => return .dword (← readUInt json "SystrayMinimize" (.int 0))

/-- A value is not what the getter returns. No reconnect is needed for the last setting. -/
def differs (store : Store) : Name → RegistryValue → Bool
  | .splitTunnel, .dword value => decide (value ≠ 0) != splitTunnel store
  | .disableTimeouts, .dword value => decide (value ≠ 0) != disableTimeouts store
  | .transport, .sz text => text != transport store
  | .httpProxyPort, .dword value => value != localHttpProxyPort store
  | .socksProxyPort, .dword value => value != localSocksProxyPort store
  | .upstreamProxyHostname, .sz text => text != upstreamProxyAuthenticatedHostname store
  | .upstreamProxyPort, .dword value => value != upstreamProxyPort store
  | .skipUpstreamProxy, .dword value => decide (value ≠ 0) != skipUpstreamProxy store
  | .egressRegion, .sz text => text != egressRegion store
  | _, _ => false

/-- A setting is read, compared with what the getter returns, and written. -/
def save (name : Name) : SettingsM Unit := do
  let value ← ofCpp (given json name)
  modify fun s => { s with changed := s.changed || differs s.store name value }
  modify fun s => { s with store := written writes s.store name value }

/-- The settings in the order in which they are saved. -/
def saveOrder : List Name :=
  [.splitTunnel, .disableTimeouts, .transport, .httpProxyPort, .socksProxyPort,
    .upstreamProxyHostname, .upstreamProxyPort, .skipUpstreamProxy, .egressRegion, .systrayMinimize]

def saveAll : SettingsM Unit := saveOrder.forM (save writes json)

end FromJson

/-- What `FromJson` leaves: the settings, its result and `o_reconnectRequired`. -/
structure Saved where
  store : Store
  success : Bool
  reconnectRequired : Bool

def fromJson (parse : Bytes → Option JsonValue) (writes : Name → Bool) (utf8Json : Bytes)
    (store : Store) : Saved :=
  match parse utf8Json with
  | none => ⟨store, false, false⟩
  | some json =>
    match saveAll writes json ⟨store, false⟩ with
    | .ok _ s => ⟨s.store, true, s.changed⟩
    | .error _ s => ⟨s.store, false, false⟩

end Psiphon.Client.Settings
