import Mathlib.Algebra.Group.Int.Defs
import Mathlib.Algebra.Group.Nat.Defs
import Psiphon.Lib.Fallible
import Psiphon.Lib.Json

/-!
# Server entries of the Windows client

`ServerEntry` of `serverlist.cpp`. The JSON reader and writer are arguments, and so is what the
constructor leaves uninitialized.
-/

namespace Psiphon.Client

open Json (Bytes Value ascii)

/-- Code that may throw a `std::exception`. -/
abbrev Cpp := Except String

structure Platform where
  /-- `Json::Reader::parse` -/
  parse : Bytes → Option Value
  /-- `Json::FastWriter::write` -/
  write : Value → Bytes
  uninitialized : ℤ

/-! ### Text -/

def space : UInt8 := 32

/-- `getline`: the item up to the delimiter or the end, and what follows. It fails at the end of
the text only. -/
def getline (delimiter : UInt8) : Bytes → Option (Bytes × Bytes)
  | [] => none
  | c :: text =>
    some ((c :: text).takeWhile (· != delimiter), ((c :: text).dropWhile (· != delimiter)).tail)

theorem getline_length {d : UInt8} {text item rest : Bytes}
    (h : getline d text = some (item, rest)) : rest.length < text.length := by
  cases text with
  | nil => cases h
  | cons c text =>
    obtain ⟨-,rfl⟩ := Prod.mk.inj (Option.some.inj h)
    have hle := ((c :: text).dropWhile_suffix (· != d)).length_le
    rw [List.length_tail]
    rw [List.length_cons] at hle ⊢
    omega

def getlines (delimiter : UInt8) (text : Bytes) : List Bytes :=
  match _h : getline delimiter text with
  | none => []
  | some (item, rest) => item :: getlines delimiter rest
termination_by text.length
decreasing_by exact getline_length _h

def cString (text : Bytes) : Bytes := text.takeWhile (· != 0)

def hexlifyWith (digit : ℕ → UInt8) (input : Bytes) : Bytes :=
  input.flatMap fun c => [digit (c.toNat / 16), digit (c.toNat % 16)]

def hexlify : Bytes → Bytes := hexlifyWith Json.hexDigit

def dehexlifyPairs : Bytes → Cpp Bytes
  | [] => return []
  | [_] => throw "Dehexlify: odd length"
  | a :: b :: rest =>
    match Json.hexByte a b with
    | none => throw "Dehexlify: not a hex digit"
    | some c => do return c :: (← dehexlifyPairs rest)

def dehexlify (input : Bytes) : Cpp Bytes :=
  if input.length % 2 = 1 then throw "Dehexlify: odd length" else dehexlifyPairs input

def isCSpace (c : UInt8) : Bool := c == 32 || (9 ≤ c && c ≤ 13)

/-- `(int) strtol(text.c_str(), NULL, 10)`; `long` has 32 bits. -/
def strtol (text : Bytes) : ℤ :=
  let number (digits : Bytes) : ℕ := Json.numberOf (digits.takeWhile Json.isDigit)
  match text.dropWhile isCSpace with
  | 45 :: digits => max (-(2 ^ 31)) (-number digits)
  | 43 :: digits => min (2 ^ 31 - 1) (number digits)
  | digits => min (2 ^ 31 - 1) (number digits)

/-! ### JSON values, as `Json::Value` gives them -/

/-- The member of a name; the last one counts. -/
def findMember (members : List (Bytes × Value)) (key : String) : Option Value :=
  members.reverse.lookup (ascii key)

/-- `Value::get` -/
def jsonGet (json : Value) (key : String) (default : Value) : Cpp Value :=
  match json with
  | .null => return default
  | .obj members => return (findMember members key).getD default
  | _ => throw "in Json::Value::find(key, end, found): requires objectValue or nullValue"

def asString : Value → Cpp Bytes
  | .null => return []
  | .str s => return s
  | .bool b => return ascii (if b then "true" else "false")
  | .int n => return Json.printInt n
  | .arr _ | .obj _ => throw "Type is not convertible to string"

def IsInt (n : ℤ) : Prop := -(2 ^ 31) ≤ n ∧ n < 2 ^ 31

instance (n : ℤ) : Decidable (IsInt n) := inferInstanceAs (Decidable (_ ∧ _))

def asInt : Value → Cpp ℤ
  | .int n => if IsInt n then return n else throw "LargestInt out of Int range"
  | .null => return 0
  | .bool b => return if b then 1 else 0
  | .str _ | .arr _ | .obj _ => throw "Value is not convertible to Int."

/-- The values at the indices below `size()`; only an array or null has any. -/
def jsonItems : Value → Cpp (List Value)
  | .arr items => return items
  | .obj (_ :: _) => throw "in Json::Value::operator[](ArrayIndex)const: requires arrayValue"
  | _ => return []

/-- The loops that collect the texts of an array that are not empty. -/
def jsonStrings (json : Value) : Cpp (List Bytes) := do
  let items ← jsonItems json
  let strings ← items.mapM asString
  return strings.filter (· ≠ [])

/-! ### Entries -/

structure ServerEntry where
  serverAddress : Bytes
  region : Bytes
  webServerPort : ℤ
  webServerSecret : Bytes
  webServerCertificate : Bytes
  sshPort : ℤ
  sshUsername : Bytes
  sshPassword : Bytes
  sshHostKey : Bytes
  sshObfuscatedPort : ℤ
  sshObfuscatedKey : Bytes
  capabilities : List Bytes
  meekObfuscatedKey : Bytes
  meekServerPort : ℤ
  meekCookieEncryptionPublicKey : Bytes
  meekFrontingDomain : Bytes
  meekFrontingHost : Bytes
  meekFrontingAddressesRegex : Bytes
  meekFrontingAddresses : List Bytes
  deriving DecidableEq, Repr

namespace ServerEntry

def hasCapability (entry : ServerEntry) (capability : String) : Bool :=
  entry.capabilities.contains (ascii capability)

/-- The extended values, in the order of a `std::map`. -/
def members (entry : ServerEntry) : List (Bytes × Value) := [
  (ascii "capabilities", .arr (entry.capabilities.map .str)),
  (ascii "ipAddress", .str entry.serverAddress),
  (ascii "meekCookieEncryptionPublicKey", .str entry.meekCookieEncryptionPublicKey),
  (ascii "meekFrontingAddresses", .arr (entry.meekFrontingAddresses.map .str)),
  (ascii "meekFrontingAddressesRegex", .str entry.meekFrontingAddressesRegex),
  (ascii "meekFrontingDomain", .str entry.meekFrontingDomain),
  (ascii "meekFrontingHost", .str entry.meekFrontingHost),
  (ascii "meekObfuscatedKey", .str entry.meekObfuscatedKey),
  (ascii "meekServerPort", .int entry.meekServerPort),
  (ascii "region", .str entry.region),
  (ascii "sshHostKey", .str entry.sshHostKey),
  (ascii "sshObfuscatedKey", .str entry.sshObfuscatedKey),
  (ascii "sshObfuscatedPort", .int entry.sshObfuscatedPort),
  (ascii "sshPassword", .str entry.sshPassword),
  (ascii "sshPort", .int entry.sshPort),
  (ascii "sshUsername", .str entry.sshUsername),
  (ascii "webServerCertificate", .str entry.webServerCertificate),
  (ascii "webServerPort", .str (Json.printInt entry.webServerPort)),
  (ascii "webServerSecret", .str entry.webServerSecret)]

/-- `ToString` -/
def toText (platform : Platform) (entry : ServerEntry) : Bytes :=
  entry.serverAddress ++ space :: Json.printInt entry.webServerPort ++
    space :: entry.webServerSecret ++ space :: entry.webServerCertificate ++
    space :: platform.write (.obj entry.members)

end ServerEntry

def legacyEntry (platform : Platform) (serverAddress : Bytes) (webServerPort : ℤ)
    (webServerSecret webServerCertificate : Bytes) : ServerEntry where
  serverAddress
  region := []
  webServerPort
  webServerSecret
  webServerCertificate
  sshPort := 0
  sshUsername := []
  sshPassword := []
  sshHostKey := []
  sshObfuscatedPort := 0
  sshObfuscatedKey := []
  capabilities := []
  meekObfuscatedKey := []
  meekServerPort := platform.uninitialized
  meekCookieEncryptionPublicKey := []
  meekFrontingDomain := []
  meekFrontingHost := []
  meekFrontingAddressesRegex := []
  meekFrontingAddresses := []

/-- The capabilities of all servers when capabilities were introduced. -/
def defaultCapabilities : Value :=
  .arr [.str (ascii "OSSH"), .str (ascii "SSH"), .str (ascii "VPN"), .str (ascii "handshake")]

def jsonText (json : Value) (key : String) : Cpp Bytes := jsonGet json key (.str []) >>= asString

def jsonInt (json : Value) (key : String) : Cpp ℤ := jsonGet json key (.int 0) >>= asInt

/-- The values of the meek server are read only with a capability that the client knows to use
them. -/
def extendMeek (entry : ServerEntry) (json : Value) : Cpp ServerEntry := do
  if entry.hasCapability "FRONTED-MEEK" || entry.hasCapability "UNFRONTED-MEEK" ||
      entry.hasCapability "UNFRONTED-MEEK-HTTPS" then
    let meekServerPort ← jsonInt json "meekServerPort"
    let meekObfuscatedKey ← jsonText json "meekObfuscatedKey"
    let meekCookieEncryptionPublicKey ← jsonText json "meekCookieEncryptionPublicKey"
    return { entry with meekServerPort, meekObfuscatedKey, meekCookieEncryptionPublicKey }
  else return { entry with
    meekServerPort := -1, meekObfuscatedKey := [], meekCookieEncryptionPublicKey := [] }

/-- The values of fronting are read only with `FRONTED-MEEK`. -/
def extendFronting (entry : ServerEntry) (json : Value) : Cpp ServerEntry := do
  if entry.hasCapability "FRONTED-MEEK" then
    let meekFrontingDomain ← jsonText json "meekFrontingDomain"
    let meekFrontingHost ← jsonText json "meekFrontingHost"
    let meekFrontingAddressesRegex ← jsonText json "meekFrontingAddressesRegex"
    let meekFrontingAddresses ← jsonGet json "meekFrontingAddresses" (.arr []) >>= jsonStrings
    return { entry with meekFrontingDomain, meekFrontingHost, meekFrontingAddressesRegex,
                        meekFrontingAddresses }
  else return { entry with
    meekFrontingDomain := [], meekFrontingHost := [], meekFrontingAddressesRegex := [],
    meekFrontingAddresses := [] }

/-- The part of `FromString` that reads the extended values into an entry. -/
def extend (entry : ServerEntry) (json : Value) : Cpp ServerEntry := do
  let region ← jsonText json "region"
  let sshPort ← jsonInt json "sshPort"
  let sshUsername ← jsonText json "sshUsername"
  let sshPassword ← jsonText json "sshPassword"
  let sshHostKey ← jsonText json "sshHostKey"
  let sshObfuscatedPort ← jsonInt json "sshObfuscatedPort"
  let sshObfuscatedKey ← jsonText json "sshObfuscatedKey"
  let capabilities ← jsonGet json "capabilities" defaultCapabilities >>= jsonStrings
  let entry := { entry with region, sshPort, sshUsername, sshPassword, sshHostKey,
                            sshObfuscatedPort, sshObfuscatedKey, capabilities }
  let entry ← extendMeek entry json
  extendFronting entry json

def legacyItem (name : String) (text : Bytes) : Cpp (Bytes × Bytes) :=
  match getline space text with
  | some item => return item
  | none => throw ("Server Entries are corrupt: can't parse " ++ name)

/-- `FromString` -/
def fromText (platform : Platform) (text : Bytes) : Cpp ServerEntry := do
  let (serverAddress, text) ← legacyItem "Server Address" text
  let (webServerPort, text) ← legacyItem "Web Server Port" text
  let (webServerSecret, text) ← legacyItem "Web Server Secret" text
  let (webServerCertificate, text) ← legacyItem "Web Server Certificate" text
  let entry := legacyEntry platform serverAddress (strtol webServerPort) webServerSecret
    webServerCertificate
  match getline 0 text with
  | none => return entry
  | some (text, _) =>
    match platform.parse text with
    | none => throw "Server Entries are corrupt: can't parse JSON"
    | some json =>
      match extend entry json with
      | .ok entry => return entry
      | .error _ => throw "Server Entries are corrupt: parse JSON exception"

def parseServerEntry (platform : Platform) (serverEntry : Bytes) : Cpp ServerEntry := do
  fromText platform (← dehexlify serverEntry)

def parseServerEntries (platform : Platform) (serverEntryList : Bytes) :
    Cpp (List ServerEntry) := do
  let entries ← (getlines 10 (cString serverEntryList)).mapM (parseServerEntry platform)
  return entries.filter fun entry => entry.webServerCertificate ≠ ascii "None"

def encodeServerEntries (platform : Platform) (serverEntryList : List ServerEntry) : Bytes :=
  serverEntryList.flatMap fun entry => hexlify (entry.toText platform) ++ [10]

end Psiphon.Client
