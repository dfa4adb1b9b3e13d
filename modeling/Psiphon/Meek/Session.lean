import Mathlib.Data.List.Basic
import Mathlib.Data.Int.Basic

/-!
# The meek server's session and its relay

`Touch`, `Expired`, and `relayPayload` with its copy loop `copyWithTimeout`. A relay that has used
up its list of turns is still waiting for the next read.
-/

namespace Psiphon.Meek

abbrev Byte := UInt8

/-- `time.Time` and `time.Duration`, in nanoseconds. -/
abbrev Time := ℤ

abbrev ConnId := ℕ

def millisecond : Time := 1000000
def second : Time := 1000 * millisecond

def maxPayloadLength : ℕ := 0x10000
def extendedTurnAroundTimeout : Time := 100 * millisecond
def maxSessionStaleness : Time := 45 * second

def meekProtocolVersion1 : ℤ := 1
def meekProtocolVersion2 : ℤ := 2

/-- The fields that the dispatcher reads. `throttledPayloadLength` is
`int(float64(MAX_PAYLOAD_LENGTH) * ThrottleMaxPayloadSizeMultiple)`, divided by ten when the session
is throttled severely. -/
structure Config where
  throttleThresholdBytes : ℤ
  throttledPayloadLength : Bool → ℕ
  throttleRegions : List String
  allowedRegions : List String

def openConfig : Config := ⟨0, fun _ => 0, [], []⟩

structure Session where
  psiConn : ConnId
  meekProtocolVersion : ℤ
  lastSeen : Time
  bytesTransferred : ℤ
  isThrottled : Bool
  isThrottledSeverely : Bool
  meekSessionKeySent : Bool
  deriving DecidableEq, Repr

def Session.touch (session : Session) (now : Time) : Session :=
  { session with lastSeen := now }

def Session.expired (session : Session) (now : Time) : Bool :=
  decide (now - session.lastSeen > maxSessionStaleness)

/-- What `psiConn.Read` can fail with, as far as the relay tells errors apart. -/
inductive ReadError where
  | eof
  | timeout
  | other
  deriving DecidableEq, Repr

structure ReadResult where
  data : List Byte
  err : Option ReadError
  deriving DecidableEq, Repr

/-- What `responseWriter.Write` does. An `io.Writer` that accepts fewer bytes than it
was given reports an error. -/
inductive WriteResult where
  | all
  | failed (n : ℕ)
  deriving DecidableEq, Repr

def WriteResult.accepted : WriteResult → List Byte → List Byte
  | .all, data => data
  | .failed n, data => data.take n

def WriteResult.err : WriteResult → Bool
  | .all => false
  | .failed _ => true

/-- One read from `psiConn`, the write of what it returned, and the time since the copy
loop was entered. -/
structure Turn where
  read : ReadResult
  write : WriteResult
  elapsed : Time
  deriving DecidableEq, Repr

inductive CopyError where
  | write
  | shortWrite
  | read
  deriving DecidableEq, Repr

/-- How far a relay has come: still waiting for a read, or returned with or without an
error. -/
inductive Status (ε : Type) where
  | waiting
  | returned (err : Option ε)
  deriving DecidableEq, Repr

/-- The bytes a relay got from `psiConn.Read` and those the response body accepted. -/
structure Transfer (ε : Type) where
  read : List Byte
  body : List Byte
  status : Status ε
  deriving DecidableEq, Repr

/-- One iteration of the copy loop came before the transfer `t`. -/
def Transfer.after {ε : Type} (read body : List Byte) (t : Transfer ε) : Transfer ε :=
  ⟨read ++ t.read, body ++ t.body, t.status⟩

/-- The loop ends by its clock: the elapsed time, divided by a millisecond, is compared
with a `Duration`. -/
def outOfTime (elapsed : Time) : Bool :=
  decide (elapsed.tdiv millisecond ≥ extendedTurnAroundTimeout)

def copyWithTimeout : List Turn → Transfer CopyError
  | [] => ⟨[], [], .waiting⟩
  | turn :: turns =>
    let data := turn.read.data.take (64 * 1024)
    let accepted := turn.write.accepted data
    if data ≠ [] ∧ turn.write.err then
      ⟨data, accepted, .returned (some .write)⟩
    else if data ≠ [] ∧ data.length ≠ accepted.length then
      ⟨data, accepted, .returned (some .shortWrite)⟩
    else
      match turn.read.err with
      | some .eof => ⟨data, data, .returned none⟩
      | some .timeout => ⟨data, data, .returned none⟩
      | some .other => ⟨data, data, .returned (some .read)⟩
      | none =>
        if outOfTime turn.elapsed then ⟨data, data, .returned none⟩
        else (copyWithTimeout turns).after data data

/-- The error returns of `relayPayload`, in the order of its text: "writing payload to
psiConn", "reading payload from psiConn", "reading from psiConn", "writing to response". -/
inductive RelayError where
  | writingPayload
  | readingPayload (err : CopyError)
  | reading
  | writingResponse
  deriving DecidableEq, Repr

/-- The answers of the outside world during one `relayPayload` call: the upload's
`io.Copy`, and the reads and writes of the download. -/
structure RelayIO where
  uploaded : ℕ
  uploadFailed : Bool
  turns : List Turn
  deriving DecidableEq, Repr

/-- `relayPayload` throttles a session that has transferred enough bytes. -/
def throttle (cfg : Config) (session : Session) : Bool :=
  decide (cfg.throttleThresholdBytes > 0) &&
    ((session.isThrottled &&
        decide (session.bytesTransferred ≥ cfg.throttleThresholdBytes)) ||
      (session.isThrottledSeverely &&
        decide (session.bytesTransferred ≥ cfg.throttleThresholdBytes.tdiv 10)))

/-- The chunked copy loop serves sessions that are not throttled and speak a known
protocol version; the others get one read per request. -/
def streams (cfg : Config) (session : Session) : Bool :=
  !throttle cfg session && decide (session.meekProtocolVersion ≥ meekProtocolVersion1)

def Session.addBytes (session : Session) (n : ℕ) : Session :=
  { session with bytesTransferred := session.bytesTransferred + n }

def responseMaxPayloadLength (cfg : Config) (session : Session) : ℕ :=
  if throttle cfg session then cfg.throttledPayloadLength session.isThrottledSeverely
  else maxPayloadLength

def relayOnce (length : ℕ) : List Turn → Transfer RelayError
  | [] => ⟨[], [], .waiting⟩
  | turn :: _ =>
    let data := turn.read.data.take length
    if turn.read.err ≠ none ∧ turn.read.err ≠ some .timeout then
      ⟨data, [], .returned (some .reading)⟩
    else if turn.write.err then
      ⟨data, turn.write.accepted data, .returned (some .writingResponse)⟩
    else ⟨data, turn.write.accepted data, .returned none⟩

structure Relayed where
  session : Session
  setCookie : Option String
  transfer : Transfer RelayError

def Transfer.mapError {ε ε' : Type} (f : ε → ε') (t : Transfer ε) : Transfer ε' :=
  ⟨t.read, t.body, match t.status with
    | .waiting => .waiting
    | .returned err => .returned (err.map f)⟩

/-- Only a relay that returns without an error counts the bytes it wrote. -/
def countResponse (session : Session) (t : Transfer RelayError) : Session :=
  match t.status with
  | .returned none => session.addBytes t.body.length
  | _ => session

def relayPayload (cfg : Config) (sessionCookie : String) (session : Session)
    (io : RelayIO) : Relayed :=
  if io.uploadFailed then
    ⟨session, none, ⟨[], [], .returned (some .writingPayload)⟩⟩
  else
    let session := session.addBytes io.uploaded
    let sendKey := decide (session.meekProtocolVersion ≥ meekProtocolVersion2) &&
      !session.meekSessionKeySent
    let setCookie := if sendKey then some sessionCookie else none
    let session := { session with meekSessionKeySent := session.meekSessionKeySent || sendKey }
    let t :=
      if streams cfg session then (copyWithTimeout io.turns).mapError .readingPayload
      else relayOnce (responseMaxPayloadLength cfg session) io.turns
    ⟨countResponse session t, setCookie, t⟩

def Relayed.failed (r : Relayed) : Bool :=
  match r.transfer.status with
  | .returned (some _) => true
  | _ => false

def Relayed.returned (r : Relayed) : Bool :=
  match r.transfer.status with
  | .returned _ => true
  | .waiting => false

/-- The transfer of a relay. Marking the session key as sent changes neither the path
taken nor the buffer. -/
theorem relayPayload_transfer (cfg : Config) (sc : String) (session : Session) (io : RelayIO) :
    (relayPayload cfg sc session io).transfer =
      if io.uploadFailed then ⟨[],[],.returned (some .writingPayload)⟩
      else if streams cfg (session.addBytes io.uploaded) then
        (copyWithTimeout io.turns).mapError .readingPayload
      else relayOnce (responseMaxPayloadLength cfg (session.addBytes io.uploaded)) io.turns := by
  unfold relayPayload
  split <;> rfl

/-- A relay keeps the connection and the last-seen time of its session. -/
theorem relayPayload_frame (cfg : Config) (sc : String) (session : Session) (io : RelayIO) :
    (relayPayload cfg sc session io).session.psiConn = session.psiConn ∧
      (relayPayload cfg sc session io).session.lastSeen = session.lastSeen := by
  unfold relayPayload countResponse Session.addBytes
  split
  · exact ⟨rfl,rfl⟩
  · dsimp only
    split <;> exact ⟨rfl,rfl⟩

end Psiphon.Meek
