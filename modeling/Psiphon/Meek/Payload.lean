import Psiphon.Lib.Fallible
import Psiphon.Meek.Dispatcher

/-!
# The payload of a cookie

`parseCookieJSON` of `meek-server.go`, and the use that `GetSession` makes of its result. A nil
pointer panics.
-/

namespace Psiphon.Meek

abbrev Bytes := List Byte

inductive Failure where
  | panic
  | error (text : String)
  deriving DecidableEq, Repr

abbrev Go := Except Failure

def fail {α : Type} (text : String) : Go α := .error (.error text)

/-- What the bytes of a payload are for `json.Unmarshal`; a value of another type is decoded as far
as it goes. -/
inductive Document where
  | malformed
  | null
  | value (data : ClientSessionData) (mismatch : Bool)

def dereference {α : Type} : Option α → Go α
  | none => .error .panic
  | some a => .ok a

/-- The pointer that `json.Unmarshal` leaves, and whether it reports an error. -/
def Document.decoded : Document → Option ClientSessionData × Bool
  | .malformed => (none, true)
  | .null => (none, false)
  | .value data mismatch => (some data, mismatch)

def parseCookieJSON (unmarshal : Bytes → Document) (forcePsiphonServerAddress : String)
    (cookieJson : Bytes) : Go (Option ClientSessionData × Bool) := do
  let (clientSessionData, err) := (unmarshal cookieJson).decoded
  if forcePsiphonServerAddress ≠ "" then
    let data ← dereference clientSessionData
    return (some { data with psiphonServerAddress := forcePsiphonServerAddress }, err)
  else return (clientSessionData, err)

/-- From the payload to the address that is dialed. -/
def readPayload (unmarshal : Bytes → Document) (forcePsiphonServerAddress : String)
    (cookieJson : Bytes) : Go ClientSessionData := do
  let (clientSessionData, err) ← parseCookieJSON unmarshal forcePsiphonServerAddress cookieJson
  if err then fail "parseCookieJSON error decoding" else dereference clientSessionData

/-- A payload leads to no nil pointer unless it is `null`, or is no JSON and the address of the
server is forced. -/
theorem payload_never_nil_iff (unmarshal : Bytes → Document) (force : String) (json : Bytes) :
    readPayload unmarshal force json ≠ .error .panic ↔
      unmarshal json ≠ .null ∧ (unmarshal json = .malformed → force = "") := by
  unfold readPayload parseCookieJSON
  by_cases hf : force = ""
  · cases unmarshal json with
    | malformed => simp [Document.decoded,hf,fail,pure,Except.pure]
    | null => simp [Document.decoded,hf,dereference,pure,Except.pure]
    | value data mismatch =>
      cases mismatch <;> simp [Document.decoded,hf,dereference,fail,pure,Except.pure]
  · cases unmarshal json with
    | malformed => simp [Document.decoded,hf,dereference,bind,Except.bind]
    | null => simp [Document.decoded,hf,dereference,bind,Except.bind]
    | value data mismatch =>
      cases mismatch <;> simp [Document.decoded,hf,dereference,fail,pure,Except.pure]

theorem payload_never_nil_value :
    readPayload (fun _ => .value ⟨1, "id", "host"⟩ false) "forced" [] ≠
    .error .panic :=
  (payload_never_nil_iff _ _ _).mpr ⟨nofun,nofun⟩

theorem payload_null_panics : readPayload (fun _ => .null) "" [] = .error .panic ∧
    readPayload (fun _ => .malformed) "forced" [] = .error .panic :=
  ⟨rfl,rfl⟩

end Psiphon.Meek
