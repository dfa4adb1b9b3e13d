import Mathlib.Algebra.Group.Nat.Defs
import Mathlib.Data.List.Infix

/-!
# The system proxy settings

`systemproxysettings.cpp`. The world is what outlives the process; a crash is a run that is left
between two writes.
-/

namespace Psiphon.Client

structure ProxySetting where
  flags : ℕ
  proxy : String
  bypass : String
  deriving DecidableEq, Repr

structure ConnectionProxy extends ProxySetting where
  name : String
  deriving DecidableEq, Repr

def defaultConnectionName : String := ""

def systemProxySettingsProxyBypass : String := "<local>"

def proxyTypeProxy : ℕ := 2

structure World where
  settings : String → ProxySetting
  native : List ConnectionProxy
  psiphon : List ConnectionProxy

structure Process where
  world : World
  trace : List World
  settingsApplied : Bool

def Process.start (w : World) : Process := ⟨w, [], false⟩

abbrev ProcessM := StateM Process

def Process.write (f : World → World) (s : Process) : Process :=
  { s with world := f s.world, trace := f s.world :: s.trace }

def write (f : World → World) : ProcessM Unit := modify (.write f)

/-! ### Reading and setting connections -/

def World.query (w : World) (name : String) : ConnectionProxy := ⟨w.settings name, name⟩

def World.setConnection (setting : ConnectionProxy) (w : World) : World :=
  { w with settings := Function.update w.settings setting.name setting.toProxySetting }

/-- The results of the calls made to set one connection: the three `InternetSetOption` and the
`InternetQueryOption` that reads the setting back. -/
structure SetResults where
  set : Bool
  changed : Bool
  refresh : Bool
  verify : Bool
  deriving DecidableEq, Repr

def setCurrentSystemConnectionProxy (r : SetResults) (setting : ConnectionProxy) :
    ProcessM Bool := do
  if r.set then
    write (.setConnection setting)
    return r.changed && r.refresh
  else return false

/-- The results are those of the connection at an index. A connection other than the default one
that cannot be verified only causes a warning. -/
def setCurrentSystemConnectionsProxy (results : ℕ → SetResults) :
    ℕ → List ConnectionProxy → ProcessM Bool
  | _, [] => return true
  | i, setting :: rest => do
    if ← setCurrentSystemConnectionProxy (results i) setting then
      let entry := (← get).world.query setting.name
      if ((results i).verify && entry = setting) || setting.name ≠ defaultConnectionName then
        setCurrentSystemConnectionsProxy results (i + 1) rest
      else return false
    else return false

def connections (ras : List String) : List String := ras ++ [defaultConnectionName]

def World.queryAll (ras : List String) (w : World) : List ConnectionProxy :=
  (connections ras).map w.query

def queriesOk (ras : List String) (results : ℕ → Bool) : Bool :=
  (List.range (connections ras).length).all results

/-- `GetCurrentSystemConnectionsProxyInfo`: a failed query leaves nothing. -/
def getCurrentSystemConnectionsProxyInfo (ras : List String) (results : ℕ → Bool) :
    ProcessM (Bool × List ConnectionProxy) := do
  let w := (← get).world
  return if queriesOk ras results then (true, w.queryAll ras) else (false, [])

/-! ### The proxy address -/

structure Ports where
  http : ℤ
  https : ℤ
  socks : ℤ
  deriving DecidableEq, Repr

def makeProxySettingString (ports : Ports) : String :=
  let part (protocol : String) (port : ℤ) : List String :=
    if port > 0 then [protocol ++ "=127.0.0.1:" ++ toString port] else []
  String.intercalate ";"
    (part "http" ports.http ++ part "https" ports.https ++ part "socks" ports.socks)

def psiphonSetting (address : String) : ProxySetting :=
  ⟨proxyTypeProxy, address, systemProxySettingsProxyBypass⟩

def setPsiphonProxyForConnections (address : String) (proxyInfo : List ConnectionProxy) :
    List ConnectionProxy :=
  proxyInfo.map fun entry => ⟨psiphonSetting address, entry.name⟩

/-! ### The proxy left by an older version -/

def splitAtFirst (c : Char) (text : List Char) : Option (List Char × List Char) :=
  if c ∈ text then some (text.takeWhile (· ≠ c), (text.dropWhile (· ≠ c)).tail) else none

/-- The loop of `DecomposeDefaultProxyInfo` for the https proxy. The last part is left in place, so
another `=` in it starts a part again. -/
def httpsPart : ℕ → List Char → List Char → List Char → List Char
  | 0, _, _, https => https
  | fuel + 1, text, protocol, https =>
    match splitAtFirst '=' text with
    | none => https
    | some (before, after) =>
      let protocol := if before ≠ [] then before else protocol
      let (proxy, rest) := match splitAtFirst ';' after with
        | none => (after, after)
        | some (proxy, rest) => (proxy, rest)
      httpsPart fuel rest protocol (if protocol = "https".toList then proxy else https)

def wtoi (text : List Char) : ℕ :=
  let number (digits : List Char) : ℕ :=
    (digits.takeWhile Char.isDigit).foldl (fun n c => 10 * n + (c.toNat - '0'.toNat)) 0
  match text.dropWhile Char.isWhitespace with
  | '-' :: digits => (2 ^ 32 - min (number digits) (2 ^ 31)) % 2 ^ 32
  | '+' :: digits => min (number digits) (2 ^ 31 - 1)
  | digits => min (number digits) (2 ^ 31 - 1)

/-- `DecomposeDefaultProxyInfo`: the https proxy and its port. -/
def decomposeHttpsProxy (setting : ProxySetting) : List Char × ℕ :=
  let text := setting.proxy.toList
  if setting.flags.testBit 1 && text.contains ':' then
    let https := if text.contains '=' then httpsPart text.length text [] [] else text
    match splitAtFirst ':' https with
    | some (host, port) => (host, wtoi port)
    | none => ([], 0)
  else ([], 0)

/-- The settings are a proxy that an older version may have left behind. -/
def leftByOlderVersion (setting : ProxySetting) : Bool :=
  let (host, port) := decomposeHttpsProxy setting
  host = "127.0.0.1".toList && 8080 ≤ port && port ≤ 8090

def getDefaultProxyInfo (proxyInfo : List ConnectionProxy) : ProxySetting :=
  match proxyInfo.find? fun entry => entry.name = defaultConnectionName with
  | some entry => entry.toProxySetting
  | none => ⟨0, "", ""⟩

/-! ### Startup, apply, revert -/

def writeNative (proxyInfo : List ConnectionProxy) : ProcessM Unit :=
  write fun w => { w with native := proxyInfo }

def writePsiphon (proxyInfo : List ConnectionProxy) : ProcessM Unit :=
  write fun w => { w with psiphon := proxyInfo }

structure StartupResults where
  restore : ℕ → SetResults
  query : ℕ → Bool
  requery : ℕ → Bool
  /-- Something responds on the port of the https proxy. -/
  connectable : Bool

/-- The first part of `DoStartupSystemProxyWork`: the native settings are restored when
Psiphon's are still recorded. -/
def restoreNative (results : ℕ → SetResults) : ProcessM Bool := do
  let w := (← get).world
  if w.psiphon ≠ [] then
    if ← setCurrentSystemConnectionsProxy results 0 w.native then
      writePsiphon []
      return true
    else return false
  else return true

/-- The second part: the native settings are recorded, without what an older version left. -/
def recordNative (ras : List String) (r : StartupResults) : ProcessM Unit := do
  let (_, proxyInfo) ← getCurrentSystemConnectionsProxyInfo ras r.query
  writeNative proxyInfo
  if leftByOlderVersion (getDefaultProxyInfo (← get).world.native) && !r.connectable then
    let (_, proxyInfo) ← getCurrentSystemConnectionsProxyInfo ras r.requery
    writeNative (proxyInfo.map fun entry => ⟨⟨0, "", ""⟩, entry.name⟩)

def doStartupSystemProxyWork (ras : List String) (r : StartupResults) : ProcessM Unit := do
  if ← restoreNative r.restore then recordNative ras r

structure ApplyResults where
  query : ℕ → Bool
  sets : ℕ → SetResults

/-- `Apply`; `skip` says that skipping is allowed and that the user asked for it. -/
def apply (ras : List String) (r : ApplyResults) (ports : Ports) (skip : Bool) :
    ProcessM Bool := do
  let address := makeProxySettingString ports
  if address = "" then return false
  else
    let (success, proxyInfo) ← getCurrentSystemConnectionsProxyInfo ras r.query
    if success then
      let proxyInfo := setPsiphonProxyForConnections address proxyInfo
      writePsiphon proxyInfo
      if skip then return true
      else if ← setCurrentSystemConnectionsProxy r.sets 0 proxyInfo then
        modify fun s => { s with settingsApplied := true }
        return true
      else return false
    else return false

def revert (results : ℕ → SetResults) : ProcessM Bool := do
  let s ← get
  if s.settingsApplied then
    if ← setCurrentSystemConnectionsProxy results 0 s.world.native then
      modify fun s => { s with settingsApplied := false }
      writePsiphon []
      return true
    else return false
  else
    writePsiphon []
    return true

end Psiphon.Client
