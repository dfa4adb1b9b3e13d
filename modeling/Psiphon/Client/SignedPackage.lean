import Psiphon.Client.ServerEntry
import Psiphon.Lib.Base64

/-!
# Signed data packages

`verifySignedDataPackage` of `authenticated_data_package.cpp` and `make_signed_data` of
`psi_ops_crypto_tools.py`. The verifier takes the last bytes of all as the signature.
-/

namespace Psiphon.Client

open List
open Json (Bytes Value ascii)

/-! ### The client -/

structure PackageLibraries where
  /-- `CryptoPP::Gunzip`, unless it throws. -/
  gunzip : Bytes → Option Bytes
  /-- `inflateInit` returns `Z_OK`. -/
  inflateInit : Bool
  /-- The output of the calls of `inflate` up to the first that fails, and whether the call returned
  `Z_STREAM_END`. -/
  inflate : Bytes → List (Bytes × Bool)
  /-- `Json::Reader::parse` -/
  parse : Bytes → Option Value
  sha256 : Bytes → Bytes

def sanityCheckSize : ℕ := 10 * 1024 * 1024

/-- The loop over `inflate`. The output is appended as a C string. -/
def inflateLoop (jsonString : Bytes) : List (Bytes × Bool) → Option Bytes
  | [] => none
  | (out, streamEnd) :: calls =>
    let jsonString := jsonString ++ cString out
    if jsonString.length > sanityCheckSize then none
    else if streamEnd then some jsonString
    else inflateLoop jsonString calls

def unpack (libs : PackageLibraries) (gzipped : Bool) (package : Bytes) : Option Bytes :=
  if gzipped then do
    let jsonString ← libs.gunzip package
    if jsonString.length = 0 then none
    else if jsonString.length > sanityCheckSize then none
    else some jsonString
  else if libs.inflateInit then inflateLoop [] (libs.inflate package)
  else none

structure PackageFields where
  data : Bytes
  base64Signature : Bytes
  signingPublicKeyDigest : Bytes

def packageFields (json : Value) : Cpp PackageFields := do
  let data ← jsonGet json "data" (.int 0) >>= asString
  let base64Signature ← jsonGet json "signature" (.int 0) >>= asString
  let signingPublicKeyDigest ← jsonGet json "signingPublicKeyDigest" (.int 0) >>= asString
  return { data, base64Signature, signingPublicKeyDigest }

structure Verifier where
  signatureLength : ℕ
  verifyMessage : Bytes → Bytes → Bool

/-- `SignatureVerificationFilter` with `SIGNATURE_AT_END` -/
def verifyAtEnd (verifier : Verifier) (input : Bytes) : Bool :=
  let length := input.length - verifier.signatureLength
  verifier.verifyMessage (input.take length) (input.drop length)

section Verify

variable (libs : PackageLibraries) (signaturePublicKey : Bytes) (verifier : Verifier)
  (gzipped : Bool) (signedDataPackage : Bytes)

/-- The data and the signature that are verified, for a package that gets as far. -/
def presented : Option (Bytes × Bytes) := do
  let jsonString ← unpack libs gzipped signedDataPackage
  let json ← libs.parse jsonString
  let fields ← (packageFields json).toOption
  let expectedPublicKeyDigest := Base64.encode (libs.sha256 signaturePublicKey)
  if expectedPublicKeyDigest ≠ fields.signingPublicKeyDigest then none
  else some (fields.data, Base64.decode fields.base64Signature)

/-- `verifySignedDataPackage`: what it returns, and `authenticDataPackage`. -/
def verifySignedDataPackage : Bool × Bytes :=
  match presented libs signaturePublicKey gzipped signedDataPackage with
  | none => (false, [])
  | some (data, signature) =>
    if verifyAtEnd verifier (data ++ signature) then (true, data) else (false, [])

end Verify

/-! ### The operator -/

def packageText (dumps : Value → Bytes) (data signature publicKeyDigest : Bytes) : Bytes :=
  dumps (.obj [
    (ascii "data", .str data),
    (ascii "signature", .str (Base64.encode signature)),
    (ascii "signingPublicKeyDigest", .str (Base64.encode publicKeyDigest))])

def makeSignedData (dumps : Value → Bytes) (sha256 sign : Bytes → Bytes) (publicKey data : Bytes) :
    Bytes :=
  packageText dumps data (sign data) (sha256 publicKey)

/-! ### Packages as they are signed -/

/-- Signatures have their length, and are for data that the operator signed. -/
def Unforgeable (verifier : Verifier) (signed : Set Bytes) : Prop :=
  ∀ message signature, verifier.verifyMessage message signature = true →
    signature.length = verifier.signatureLength ∧ message ∈ signed

def AsSigned (signed : Set Bytes) (result : Bool × Bytes) : Prop :=
  (result.1 = true → result.2 ∈ signed) ∧ (result.1 = false → result.2 = [])

section Boundary

variable {libs : PackageLibraries} {signaturePublicKey : Bytes} {verifier : Verifier}
  {gzipped : Bool} {package data signature : Bytes}

theorem verify_of_presented
    (h : presented libs signaturePublicKey gzipped package = some (data, signature)) :
    verifySignedDataPackage libs signaturePublicKey verifier gzipped package =
      if verifyAtEnd verifier (data ++ signature) then (true, data) else (false, []) := by
  rw [verifySignedDataPackage,h]

/-- With a signature of the right length the verifier sees the data. -/
theorem verifyAtEnd_append (h : signature.length = verifier.signatureLength) :
    verifyAtEnd verifier (data ++ signature) = verifier.verifyMessage data signature := by
  have hl : (data ++ signature).length - verifier.signatureLength = data.length := by
    rw [length_append]
    omega
  simp only [verifyAtEnd,hl,take_left,drop_left]

/-- Wherever the boundary between the fields is, the verifier sees the message and its signature. -/
theorem accepted_of_split {m signature' : Bytes}
    (h : presented libs signaturePublicKey gzipped package = some (data, signature))
    (hs : data ++ signature = m ++ signature') (hl : signature'.length = verifier.signatureLength)
    (hv : verifier.verifyMessage m signature' = true) :
    verifySignedDataPackage libs signaturePublicKey verifier gzipped package = (true, data) := by
  rw [verify_of_presented h,hs,verifyAtEnd_append hl,hv]
  rfl

theorem asSigned_of_length {signed : Set Bytes} (hu : Unforgeable verifier signed)
    (hl : ∀ data signature,
      presented libs signaturePublicKey gzipped package = some (data, signature) →
        signature.length = verifier.signatureLength ∨
          (data ++ signature).length < verifier.signatureLength) : AsSigned signed
      (verifySignedDataPackage libs signaturePublicKey verifier gzipped package) := by
  cases hp : presented libs signaturePublicKey gzipped package with
  | none =>
    rw [verifySignedDataPackage,hp]
    exact ⟨nofun,fun _ => rfl⟩
  | some fields =>
    obtain ⟨data,signature⟩ := fields
    rw [verify_of_presented hp]
    split
    · rename_i hv
      refine ⟨fun _ => ?_,nofun⟩
      rcases hl data signature hp with he | hshort
      · rw [verifyAtEnd_append he] at hv
        exact (hu data signature hv).2
      · -- all that there is would be the signature
        have hs := (hu _ _ hv).1
        rw [length_drop] at hs
        omega
    · exact ⟨nofun,fun _ => rfl⟩

/-- With a signature of another length the package may be accepted for data that was not signed:
the verifier sees other data. -/
theorem exists_not_asSigned {n : ℕ}
    (h : presented libs signaturePublicKey gzipped package = some (data, signature))
    (hlength : signature.length ≠ n) (hlong : n ≤ (data ++ signature).length) :
    ∃ (verifier : Verifier) (signed : Set Bytes), verifier.signatureLength = n ∧
      Unforgeable verifier signed ∧ ¬ AsSigned signed
        (verifySignedDataPackage libs signaturePublicKey verifier gzipped package) := by
  obtain ⟨message,signature',hsp,hsize⟩ : ∃ message signature',
      data ++ signature = message ++ signature' ∧ signature'.length = n := by
    refine ⟨_,_,(take_append_drop ((data ++ signature).length - n) _).symm,?_⟩
    rw [length_drop]
    omega
  -- the operator signed this message only
  refine ⟨⟨n,fun m s => m = message ∧ s = signature'⟩,{message},rfl,?_,fun hs => ?_⟩
  · intro m s hv
    obtain ⟨rfl,rfl⟩ := of_decide_eq_true hv
    exact ⟨hsize,rfl⟩
  · rw [accepted_of_split h hsp hsize (by simp)] at hs
    have hd : data = message := hs.1 rfl
    have hsi := congrArg List.length hsp
    rw [length_append,length_append,hd] at hsi
    omega

/-- A package is accepted only for data that was signed exactly when it is refused before its
signature is verified, or its signature has the length of signatures, or it is shorter than them
altogether. -/
theorem accepted_as_signed_iff (libs : PackageLibraries) (signaturePublicKey : Bytes) (n : ℕ)
    (gzipped : Bool) (package : Bytes) :
    (∀ (verifier : Verifier) (signed : Set Bytes), verifier.signatureLength = n →
      Unforgeable verifier signed → AsSigned signed
        (verifySignedDataPackage libs signaturePublicKey verifier gzipped package)) ↔
    ∀ data signature, presented libs signaturePublicKey gzipped package = some (data, signature) →
      signature.length = n ∨ (data ++ signature).length < n := by
  constructor
  · intro ha data signature hp
    by_contra hc
    obtain ⟨hlen,hl⟩ := not_or.mp hc
    obtain ⟨verifier,signed,hn,hu,hnot⟩ :=
      exists_not_asSigned hp hlen (Nat.le_of_not_lt hl)
    exact hnot (ha verifier signed hn hu)
  · rintro hlen verifier signed rfl hu
    exact asSigned_of_length hu hlen

end Boundary

/-! ### Packages of the operator and of others -/

section Packages

variable {libs : PackageLibraries} {dumps : Value → Bytes} {signaturePublicKey : Bytes}
  {gzipped : Bool} {package data signature : Bytes}

theorem presented_packageText (hp : ∀ value, libs.parse (dumps value) = some value)
    (hu : unpack libs gzipped package =
      some (packageText dumps data signature (libs.sha256 signaturePublicKey))) :
    presented libs signaturePublicKey gzipped package = some (data, signature) := by
  have hf : ∀ b d, packageFields (.obj [(ascii "data", .str data),
      (ascii "signature", .str b),(ascii "signingPublicKeyDigest", .str d)]) =
        .ok ⟨data,b,d⟩ := fun b d => rfl
  simp only [presented,hu,packageText,hp,hf,Option.bind_eq_bind,
    Option.bind_some,Except.toOption,ne_eq,not_true_eq_false,if_false,Base64.decode_encode]

/-- What the operator signed is accepted as it is. -/
theorem verify_makeSignedData {verifier : Verifier} {sign : Bytes → Bytes}
    (hp : ∀ value, libs.parse (dumps value) = some value) (hu : unpack libs gzipped package =
      some (makeSignedData dumps libs.sha256 sign signaturePublicKey data))
    (hl : (sign data).length = verifier.signatureLength)
    (hv : verifier.verifyMessage data (sign data) = true) :
    verifySignedDataPackage libs signaturePublicKey verifier gzipped package = (true, data) :=
  accepted_of_split (presented_packageText hp hu) rfl hl hv

end Packages

def plainLibraries : PackageLibraries where
  gunzip := some
  inflateInit := true
  inflate package := [(package, true)]
  parse := Json.read
  sha256 text := text

def plainPackage (data signature : String) : Bytes :=
  packageText Json.print (ascii data) (ascii signature) (ascii "key")

theorem presented_plainPackage {gzipped : Bool} {data signature : String}
    (h : unpack plainLibraries gzipped (plainPackage data signature) =
      some (plainPackage data signature)) :
    presented plainLibraries (ascii "key") gzipped (plainPackage data signature) =
      some (ascii data, ascii signature) :=
  presented_packageText Json.read_print h

def listVerifier : Verifier := ⟨4, fun m s => m = ascii "server list" ∧ s = ascii "sign"⟩

theorem verify_makeSignedData_list :
    verifySignedDataPackage plainLibraries (ascii "key") listVerifier
    true (plainPackage "server list" "sign") = (true, ascii "server list") :=
  @verify_makeSignedData _ _ _ _ _ _ listVerifier (fun _ => ascii "sign") Json.read_print
    (by decide +kernel) (by decide) (by decide)

theorem unforgeable_listVerifier : Unforgeable listVerifier {ascii "server list"} := by
  intro m s hv
  obtain ⟨rfl,rfl⟩ := of_decide_eq_true hv
  exact ⟨by decide,rfl⟩

theorem accepted_as_signed_list :
    AsSigned {ascii "server list"} (verifySignedDataPackage plainLibraries (ascii "key")
      listVerifier true (plainPackage "server list" "sign")) := by
  refine (accepted_as_signed_iff plainLibraries (ascii "key") 4 true _).mpr ?_ listVerifier _ rfl
    unforgeable_listVerifier
  intro data signature hp
  rw [presented_plainPackage (by decide +kernel)] at hp
  cases hp
  exact .inl (by decide)

/-- With the boundary moved to the left the list is accepted without its end, and with the boundary
moved to the right, with the start of the signature. -/
theorem moved_boundary_accepted :
    Unforgeable listVerifier {ascii "server list"} ∧ ∀ gzipped,
      verifySignedDataPackage plainLibraries (ascii "key") listVerifier gzipped
        (plainPackage "server" " listsign") = (true, ascii "server") ∧
      verifySignedDataPackage plainLibraries (ascii "key") listVerifier gzipped
        (plainPackage "server listsi" "gn") = (true, ascii "server listsi") := by
  refine ⟨unforgeable_listVerifier,fun gzipped => ?_⟩
  cases gzipped <;> exact ⟨by decide +kernel,by decide +kernel⟩

end Psiphon.Client
