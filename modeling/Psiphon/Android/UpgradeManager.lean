import Psiphon.Lib.Base64
import Psiphon.Lib.Files
import Psiphon.Lib.Json
import Psiphon.Lib.Runs

/-!
# Upgrades of the Android client

`UpgradeManager.java` and `AuthenticatedDataPackage.java`: `getAvailableCompleteUpgradeFile` in the
two processes of the app.
-/

namespace Psiphon.Android

open Files (Directory Stream)
open Json (Bytes ascii)

/-! ### Packages -/

inductive FieldValue where
  | string (text : Bytes)
  | other
  deriving DecidableEq, Repr

structure Document where
  /-- The first token is `START_OBJECT`. -/
  startObject : Bool
  fields : List (Bytes × FieldValue)
  /-- `END_OBJECT` follows the fields, and not some other token or a failure to read. -/
  endObject : Bool
  deriving DecidableEq, Repr

structure Libraries where
  /-- `GZIPInputStream` and `JsonParser`, unless the stream cannot be opened. -/
  createParser : Bytes → Option Document
  /-- The chunks that `readBinaryValue` writes for a text, and whether it reaches the end of it. -/
  readBinaryValue : Bytes → List Bytes × Bool
  /-- The digest of the embedded public key, in Base64. -/
  publicKeyDigest : Bytes
  /-- `Base64.decode` of a signature, unless it throws `IllegalArgumentException`. -/
  decodeSignature : Bytes → Option Bytes
  /-- `verifier.verify` of a signature after the data. -/
  verify : Bytes → Bytes → Bool
  /-- The version code that `getPackageArchiveInfo` finds. -/
  archiveVersionCode : Bytes → Option ℤ
  /-- The version code of the app, unless `NameNotFoundException`. -/
  currentVersionCode : Option ℤ

inductive Outcome where
  | returns
  /-- `AuthenticatedDataPackageException` -/
  | throws
  /-- An exception that nobody catches. -/
  | uncaught
  deriving DecidableEq, Repr

structure Extraction where
  chunks : List Bytes
  dataValueRead : Bool
  signature : Option Bytes
  signingPublicKeyDigest : Option Bytes
  deriving DecidableEq, Repr

/-- The body of the loop, and whether it ends normally. A second value cannot be written to the
stream, which the first has closed. -/
def Extraction.readField (libs : Libraries) (e : Extraction) :
    Bytes × FieldValue → Extraction × Bool
  | (_, .other) => (e, true)
  | (fieldName, .string text) =>
    if fieldName = ascii "data" then
      let (chunks, complete) := libs.readBinaryValue text
      if e.dataValueRead = true ∧ chunks ≠ [] then (e, false)
      else if complete then
        ({ e with chunks := e.chunks ++ chunks, dataValueRead := true }, true)
      else ({ e with chunks := e.chunks ++ chunks }, false)
    else if fieldName = ascii "signature" then ({ e with signature := some text }, true)
    else if fieldName = ascii "signingPublicKeyDigest" then
      ({ e with signingPublicKeyDigest := some text }, true)
    else (e, true)

def Extraction.readFields (libs : Libraries) :
    Extraction → List (Bytes × FieldValue) → Extraction × Bool
  | e, [] => (e, true)
  | e, field :: fields =>
    match e.readField libs field with
    | (e, true) => e.readFields libs fields
    | (e, false) => (e, false)

/-- The checks after the loop. The signature is on the data in Base64. -/
def Extraction.finish (libs : Libraries) (e : Extraction) : Outcome :=
  match e.dataValueRead, e.signature, e.signingPublicKeyDigest with
  | true, some signature, some digest =>
    if libs.publicKeyDigest ≠ digest then .throws
    else match libs.decodeSignature signature with
      | none => .uncaught
      | some signature =>
        if libs.verify (Base64.encode e.chunks.flatten) signature then .returns else .throws
  | _, _, _ => .throws

/-- What `extractAndVerifyData` writes when no write fails, and how it ends then. -/
def extractAndVerifyData (libs : Libraries) (package : Document) : List Bytes × Outcome :=
  if package.startObject then
    match Extraction.readFields libs ⟨[], false, none, none⟩ package.fields with
    | (e, true) => (e.chunks, if package.endObject then e.finish libs else .throws)
    | (e, false) => (e.chunks, .throws)
  else ([], .throws)

/-! ### Calls -/

inductive UpgradeFile where
  /-- `PsiphonAndroid.apk` -/
  | verified
  /-- `PsiphonAndroid.apk.unverified` -/
  | unverified
  /-- `PsiphonAndroid.upgrade_package` -/
  | downloaded
  deriving DecidableEq, Repr

inductive Process where
  | tunnelService
  | upgradeChecker
  deriving DecidableEq, Repr

inductive Point where
  /-- `downloadedFile.exists()` -/
  | start
  | openUnzipStream
  | createForWriting (chunks : List Bytes) (outcome : Outcome)
  /-- In `extractAndVerifyData`, with the chunks that are left and the bytes that it has written. -/
  | extracting (stream : Stream) (chunks : List Bytes) (written : Bytes) (outcome : Outcome)
  /-- `extractAndVerifyData` has returned after it wrote these bytes. -/
  | rename (written : Bytes)
  | deleteDownloaded (success : Bool)
  /-- `file.exists()` -/
  | findVerified
  | getPackageArchiveInfo
  | deleteVerified
  | returned (available : Bool)
  /-- The exception or the death of its process ended the call. -/
  | ended
  deriving DecidableEq, Repr

structure Call where
  process : Process
  point : Point
  deriving DecidableEq, Repr

/-- The next step of a call, with the files after it. A failure of the system makes `failure` the
number of bytes that a write writes before it. -/
def Point.next (libs : Libraries) (files : Directory UpgradeFile UInt8) (failure : Option ℕ) :
    Point → Option (Directory UpgradeFile UInt8 × Point)
  | .start =>
    some (files, if (files.read .downloaded).isSome then .openUnzipStream else .findVerified)
  | .openUnzipStream =>
    match (files.read .downloaded).bind libs.createParser with
    | some package =>
      let (chunks, outcome) := extractAndVerifyData libs package
      some (files, .createForWriting chunks outcome)
    | none => some (files, .deleteDownloaded false)
  | .createForWriting chunks outcome =>
    match failure with
    | none =>
      let (files, stream) := files.openTruncate .unverified
      some (files, .extracting stream chunks [] outcome)
    | some _ => some (files, .deleteDownloaded false)
  | .extracting stream (chunk :: chunks) written outcome =>
    match failure with
    | none =>
      let (files, stream) := files.write stream chunk
      some (files, .extracting stream chunks (written ++ chunk) outcome)
    | some n => some ((files.write stream (chunk.take n)).1, .deleteDownloaded false)
  | .extracting _ [] written .returns => some (files, .rename written)
  | .extracting _ [] _ .throws => some (files, .deleteDownloaded false)
  | .extracting _ [] _ .uncaught => some (files, .ended)
  | .rename _ =>
    match failure, files.rename .unverified .verified with
    | none, some files => some (files, .deleteDownloaded true)
    | _, _ => some (files, .deleteDownloaded false)
  | .deleteDownloaded success =>
    some (files.delete .downloaded, if success then .findVerified else .returned false)
  | .findVerified =>
    some (files, if (files.read .verified).isSome then .getPackageArchiveInfo else .returned false)
  | .getPackageArchiveInfo =>
    match (files.read .verified).bind libs.archiveVersionCode, libs.currentVersionCode with
    | none, _ => some (files, .deleteVerified)
    | some _, none => some (files, .returned false)
    | some upgrade, some current =>
      some (files, if upgrade ≤ current then .deleteVerified else .returned true)
  | .deleteVerified => some (files.delete .verified, .returned false)
  | .returned _ => none
  | .ended => none

def Point.verifies : Point → List Bytes
  | .extracting _ [] written .returns => [written]
  | _ => []

/-! ### The device -/

structure Device where
  files : Directory UpgradeFile UInt8
  calls : List Call
  /-- What the calls of `extractAndVerifyData` that returned normally had written. -/
  verified : List Bytes

inductive Action where
  /-- A process calls `getAvailableCompleteUpgradeFile`. -/
  | call (process : Process)
  /-- A call takes its next step. -/
  | step (i : ℕ) (failure : Option ℕ)
  /-- A tunnel core replaces the downloaded package. -/
  | download (package : Bytes)
  | die (process : Process)
  deriving DecidableEq, Repr

namespace Device

def fresh : Device := ⟨.empty, [], []⟩

def stepCall (libs : Libraries) (s : Device) (i : ℕ) (failure : Option ℕ) (c : Call) :
    Option Device :=
  (c.point.next libs s.files failure).map fun (files, point) =>
    ⟨files, s.calls.set i ⟨c.process, point⟩, s.verified ++ c.point.verifies⟩

def step (libs : Libraries) (s : Device) : Action → Option Device
  | .call process => some { s with calls := s.calls ++ [⟨process, .start⟩] }
  | .step i failure => (s.calls[i]?).bind (s.stepCall libs i failure)
  | .download package => some { s with files := s.files.create .downloaded package }
  | .die process =>
    some { s with
      calls := s.calls.map fun c => if c.process = process then ⟨process, .ended⟩ else c }

end Device

end Psiphon.Android
