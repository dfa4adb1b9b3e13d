import Psiphon.Lib.Scan
import Psiphon.Feedback.Objects

/-!
# Redaction of feedback

`convert_psinet_values` of `utils.py` rewrites every string leaf for the addresses and for the
server entries in it, both from the value that the leaf had before.
-/

namespace Psiphon.Feedback

open Scan (Pattern Split)

/-! ### The patterns -/

/-- `\d`, without the flag for Unicode. -/
def isDigit (c : Char) : Bool := '0' ≤ c && c ≤ '9'

/-- `[0-9A-Fa-f]` -/
def isHex (c : Char) : Bool := isDigit c || 'A' ≤ c && c ≤ 'F' || 'a' ≤ c && c ≤ 'f'

/-- The size of `(\d{1,3}\.){n}\d{1,3}` at the start of a text. The dots cannot be digits, so that
only the last group can take less than all the digits at its place. -/
def dottedSize : ℕ → Text → Option ℕ
  | 0, text =>
    let digits := (text.takeWhile isDigit).length
    if digits = 0 then none else some (min digits 3)
  | n + 1, text =>
    let digits := (text.takeWhile isDigit).length
    if 1 ≤ digits ∧ digits ≤ 3 ∧ text[digits]? = some '.' then
      (dottedSize n (text.drop (digits + 1))).map (digits + 1 + ·)
    else none

theorem length_takeWhile_le (p : Char → Bool) (text : Text) :
    (text.takeWhile p).length ≤ text.length := (List.takeWhile_prefix p).length_le

theorem dottedSize_bounds {n k : ℕ} {text : Text} (h : dottedSize n text = some k) :
    0 < k ∧ k ≤ text.length := by
  induction n generalizing text k with
  | zero =>
    rw [dottedSize] at h
    have hle := length_takeWhile_le isDigit text
    split at h
    · cases h
    · cases h
      omega
  | succ n ih =>
    rw [dottedSize] at h
    split at h
    · obtain ⟨m,hm,rfl⟩ := Option.map_eq_some_iff.mp h
      have hr := ih hm
      rw [List.length_drop] at hr
      omega
    · cases h

def ipv4Regex : Pattern Char where
  size := dottedSize 3
  size_pos h := (dottedSize_bounds h).1
  size_le h := (dottedSize_bounds h).2

def serverEntryRegex : Pattern Char where
  size text :=
    if 33 ≤ (text.takeWhile isHex).length then some (text.takeWhile isHex).length else none
  size_pos h := by
    split at h
    · obtain rfl := Option.some.inj h
      omega
    · cases h
  size_le h := by
    split at h
    · obtain rfl := Option.some.inj h
      exact length_takeWhile_le isHex _
    · cases h

def localhost : Text := "127.0.0.1".toList

/-! ### The network database -/

structure Server where
  id : Text
  ipAddress : Text
  deriving DecidableEq, Repr

structure Psinet where
  servers : List Server
  deletedServers : List Server
  /-- The names of the propagation channels by their IDs. -/
  propagationChannels : List (Text × Text)
  sponsors : List (Text × Text)
  deriving DecidableEq, Repr

namespace Psinet

def byIpAddress (servers : List Server) (ip : Text) : Option Server :=
  match servers.filter fun server => server.ipAddress = ip with
  | [server] => some server
  | _ => none

def getServerDisplayIdFromIp (psinet : Psinet) (ip : Text) : Text :=
  match byIpAddress psinet.servers ip with
  | some server => "[".toList ++ server.id ++ "]".toList
  | none =>
    match byIpAddress psinet.deletedServers ip with
    | some server => "[".toList ++ server.id ++ "][DELETED]".toList
    | none => "[UNKNOWN]".toList

/-- The name of the ID. Only strings are IDs. -/
def nameById (names : List (Text × Text)) : Obj → Option Text
  | .str _ id => names.lookup id
  | _ => none

end Psinet

/-! ### `convert_psinet_values` -/

def displayAddress (psinet : Psinet) (ip : Text) : Text :=
  if ip = localhost then ip else psinet.getServerDisplayIdFromIp ip

def entryRedacted : Text := "[SERVER ENTRY REDACTED]".toList

def propagationChannelId : Key := .str "PROPAGATION_CHANNEL_ID".toList

def sponsorId : Key := .str "SPONSOR_ID".toList

/-- The assignments to a leaf for the addresses and the entries in it. -/
def redactions (psinet : Psinet) : Obj → List Obj
  | .str kind text =>
    let addresses := ipv4Regex.split text
    let entries := serverEntryRegex.split text
    (if addresses.found.any (· != localhost) then
      [.str kind (addresses.join (displayAddress psinet))] else []) ++
    (if entries.parts ≠ [] then
      [.str kind (List.intercalate entryRedacted entries.between)] else [])
  | _ => []

def conversions (names : List (Text × Text)) (val : Obj) : List Obj :=
  match Psinet.nameById names val with
  | some name => if name = [] then [] else [.str .unicode name]
  | none => []

def convertLeaf (psinet : Psinet) (obj : Obj) (leaf : Path × Obj) : Raises Obj := do
  let (path, val) := leaf
  let obj ← (redactions psinet val).foldlM
    (fun obj value => obj.assignValueToObjAtPath path value) obj
  match path.getLast? with
  | none => .error .indexError
  | some key =>
    let names :=
      if key = propagationChannelId then psinet.propagationChannels
      else if key = sponsorId then psinet.sponsors
      else []
    (conversions names val).foldlM (fun obj value => obj.assignValueToObjAtPath path value) obj

/-- The walk goes on while the leaves are assigned to. It does not come back to a leaf, so that it
visits what was there at the start. -/
def convertPsinetValues (psinet : Psinet) (obj : Obj) : Raises Obj :=
  match obj with
  | .str _ _ => .ok obj
  | _ => (obj.objwalk []).foldlM (convertLeaf psinet) obj

end Psiphon.Feedback
