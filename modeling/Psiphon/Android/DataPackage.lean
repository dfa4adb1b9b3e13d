import Psiphon.Android.UpgradeManager

/-!
# What the signature of a package covers

`VerifyingOutputStream` gives every chunk to the destination and, through an encoder, to the
verifier. The stream is closed after the first value of the data.
-/

namespace Psiphon.Android

open List Base64
open Json (Bytes ascii)

/-! ### The stream -/

inductive StreamEvent where
  /-- A write to `dataDestination`. -/
  | write (chunk : Bytes)
  /-- `signature.update` -/
  | update (text : Bytes)
  /-- `verifier.verify` -/
  | verify (signature : Bytes)
  deriving DecidableEq

def StreamEvent.written : StreamEvent → Option Bytes
  | .write chunk => some chunk
  | _ => none

def StreamEvent.updated : StreamEvent → Bytes
  | .update text => text
  | _ => []

structure VerifyingOutputStream where
  isOpen : Bool
  /-- What `Base64OutputStream` has not encoded yet. -/
  tail : Bytes
  events : List StreamEvent

namespace VerifyingOutputStream

def chunks (s : VerifyingOutputStream) : List Bytes := s.events.filterMap StreamEvent.written

def signed (s : VerifyingOutputStream) : Bytes := s.events.flatMap StreamEvent.updated

/-- `write`, unless `dataDestination` throws `IOException`. -/
def write (s : VerifyingOutputStream) (chunk : Bytes) : Option VerifyingOutputStream :=
  if s.isOpen then
    let given := s.tail ++ chunk
    let n := given.length / 3 * 3
    some ⟨true, given.drop n, s.events ++ [.write chunk, .update (encode (given.take n))]⟩
  else none

def close (s : VerifyingOutputStream) : VerifyingOutputStream :=
  if s.isOpen then ⟨false, [], s.events ++ [.update (encode s.tail)]⟩ else s

/-- The chunks of a value, and whether all were written and the value was read to its end. -/
def readBinaryValue (complete : Bool) :
    VerifyingOutputStream → List Bytes → VerifyingOutputStream × Bool
  | s, [] => (s, complete)
  | s, chunk :: chunks =>
    match s.write chunk with
    | some s => s.readBinaryValue complete chunks
    | none => (s, false)

end VerifyingOutputStream

structure Reading where
  stream : VerifyingOutputStream
  dataValueRead : Bool
  signature : Option Bytes
  signingPublicKeyDigest : Option Bytes

namespace Reading

def readField (libs : Libraries) (r : Reading) : Bytes × FieldValue → Reading × Bool
  | (_, .other) => (r, true)
  | (fieldName, .string text) =>
    if fieldName = ascii "data" then
      let (chunks, complete) := libs.readBinaryValue text
      let (stream, complete) := r.stream.readBinaryValue complete chunks
      if complete then ({ r with stream := stream.close, dataValueRead := true }, true)
      else ({ r with stream }, false)
    else if fieldName = ascii "signature" then ({ r with signature := some text }, true)
    else if fieldName = ascii "signingPublicKeyDigest" then
      ({ r with signingPublicKeyDigest := some text }, true)
    else (r, true)

def readFields (libs : Libraries) : Reading → List (Bytes × FieldValue) → Reading × Bool
  | r, [] => (r, true)
  | r, field :: fields =>
    match r.readField libs field with
    | (r, true) => r.readFields libs fields
    | (r, false) => (r, false)

def finish (libs : Libraries) (r : Reading) : VerifyingOutputStream × Outcome :=
  match r.dataValueRead, r.signature, r.signingPublicKeyDigest with
  | true, some signature, some digest =>
    if libs.publicKeyDigest ≠ digest then (r.stream, .throws)
    else match libs.decodeSignature signature with
      | none => (r.stream, .uncaught)
      | some signature =>
        ({ r.stream with events := r.stream.events ++ [.verify signature] },
          if libs.verify r.stream.signed signature then .returns else .throws)
  | _, _, _ => (r.stream, .throws)

def start : Reading := ⟨⟨true, [], []⟩, false, none, none⟩

end Reading

/-- The `try` block of `extractAndVerifyData`. -/
def VerifyingOutputStream.extract (libs : Libraries) (package : Document) :
    VerifyingOutputStream × Outcome :=
  if package.startObject then
    match Reading.start.readFields libs package.fields with
    | (r, true) => if package.endObject then r.finish libs else (r.stream, .throws)
    | (r, false) => (r.stream, .throws)
  else (Reading.start.stream, .throws)

def VerifyingOutputStream.extractAndVerifyData (libs : Libraries) (package : Document) :
    VerifyingOutputStream × Outcome :=
  let (stream, outcome) := extract libs package
  (stream.close, outcome)

/-! ### The bytes on both sides -/

namespace VerifyingOutputStream

/-- The verifier has the text of what was written, up to what the encoder holds. -/
def Encoded (s : VerifyingOutputStream) : Prop :=
  if s.isOpen then
    ∃ groups, 3 ∣ groups.length ∧ s.chunks.flatten = groups ++ s.tail ∧
      s.signed = encode groups
  else s.signed = encode s.chunks.flatten

variable {s : VerifyingOutputStream}

theorem Encoded.write (h : s.Encoded) (ho : s.isOpen = true) (c : Bytes) :
    ∃ s', s.write c = some s' ∧ s'.Encoded ∧ s'.isOpen = true ∧ s'.chunks = s.chunks ++ [c] := by
  rw [Encoded,if_pos ho] at h
  obtain ⟨g,ht,hc,hs⟩ := h
  have ha (tail text : Bytes) :
      chunks ⟨true,tail,s.events ++ [.write c,.update text]⟩ = s.chunks ++ [c] := by
    simp [chunks,StreamEvent.written]
  refine ⟨_,if_pos ho,?_,rfl,ha _ _⟩
  rw [Encoded,if_pos rfl,ha]
  refine ⟨g ++ (s.tail ++ c).take ((s.tail ++ c).length / 3 * 3),?_,?_,?_⟩
  · rw [length_append,length_take]
    omega
  · rw [append_assoc,take_append_drop,flatten_append,hc]
    simp
  · rw [encode_append ht,← hs]
    simp [signed,StreamEvent.updated]

theorem Encoded.readBinaryValue (h : s.Encoded) (ho : s.isOpen = true) (chunks : List Bytes)
    (complete : Bool) : ∃ s', s.readBinaryValue complete chunks = (s', complete) ∧ s'.Encoded ∧
      s'.isOpen = true ∧ s'.chunks = s.chunks ++ chunks := by
  induction chunks generalizing s with
  | nil => exact ⟨s,rfl,h,ho,(append_nil _).symm⟩
  | cons c chunks ih =>
    obtain ⟨next,hw,hn,ho',hc⟩ := h.write ho c
    obtain ⟨s',hr,hs'⟩ := ih hn ho'
    rw [hc,append_assoc,singleton_append] at hs'
    exact ⟨s',by rw [VerifyingOutputStream.readBinaryValue,hw]; exact hr,hs'⟩

theorem isOpen_close : s.close.isOpen = false := by
  rw [close]
  split_ifs with ho
  · rfl
  · exact Bool.eq_false_iff.mpr ho

theorem chunks_close : s.close.chunks = s.chunks := by
  rw [close]
  split_ifs <;> simp [chunks,StreamEvent.written]

theorem Encoded.close (h : s.Encoded) : s.close.Encoded := by
  rw [Encoded,if_neg (by simp [isOpen_close]),chunks_close,VerifyingOutputStream.close]
  rw [Encoded] at h
  split_ifs at h ⊢ with hopen
  · obtain ⟨groups,ht,hc,hs⟩ := h
    rw [hc,encode_append ht,← hs]
    simp [signed,StreamEvent.updated]
  · exact h

end VerifyingOutputStream

/-! ### The extraction at the level of chunks -/

/-- The stream has written what the extraction collected, and is open until a value was read. -/
structure Reading.Follows (r : Reading) (e : Extraction) : Prop where
  eq : e = ⟨r.stream.chunks, r.dataValueRead, r.signature, r.signingPublicKeyDigest⟩
  isOpen : r.stream.isOpen = !r.dataValueRead
  encoded : r.stream.Encoded

namespace Reading.Follows

open VerifyingOutputStream (chunks_close isOpen_close)

variable (libs : Libraries) {r : Reading} {e : Extraction}

theorem readField (h : r.Follows e) (field : Bytes × FieldValue) :
    ∃ r' e' ok, r.readField libs field = (r', ok) ∧ e.readField libs field = (e', ok) ∧
      r'.stream.chunks = e'.chunks ∧ (ok = true → r'.Follows e') := by
  obtain ⟨rfl,ho,he⟩ := h
  obtain ⟨fieldName,value⟩ := field
  have hsa : r.Follows ⟨r.stream.chunks,r.dataValueRead,r.signature,r.signingPublicKeyDigest⟩ :=
    ⟨rfl,ho,he⟩
  cases value with
  | other => exact ⟨_,_,true,rfl,rfl,rfl,fun _ => hsa⟩
  | string text =>
    rw [Reading.readField,Extraction.readField]
    split_ifs with hdata hsignature hdigest
    · obtain ⟨chunks,complete⟩ := libs.readBinaryValue text
      cases hr : r.dataValueRead with
      | false =>
        rw [hr] at ho
        obtain ⟨s',hv,hs',-,hc⟩ := he.readBinaryValue ho chunks complete
        cases complete with
        | false => exact ⟨_,_,false,by simp [hv]; rfl,by simp; rfl,hc,by simp⟩
        | true =>
          refine ⟨_,_,true,by simp [hv]; rfl,by simp; rfl,?_,fun _ => ⟨?_,?_,hs'.close⟩⟩
          · simpa [chunks_close] using hc
          · simp [chunks_close,hc]
          · simp [isOpen_close]
      | true =>
        -- the stream is closed: only a value without a chunk is read
        rw [hr] at ho
        cases chunks with
        | cons c chunks =>
          have hw : r.stream.write c = none := if_neg (by simp [ho])
          exact ⟨_,_,false,by simp [VerifyingOutputStream.readBinaryValue,hw]; rfl,
            by simp; rfl,rfl,by simp⟩
        | nil =>
          have hcl : r.stream.close = r.stream := if_neg (by simp [ho])
          cases complete with
          | false => exact ⟨_,_,false,rfl,by simp; rfl,rfl,by simp⟩
          | true =>
            refine ⟨_,_,true,rfl,by simp; rfl,congrArg _ hcl,fun _ => ⟨?_,?_,?_⟩⟩
            · rw [hcl]
            · rw [hcl,ho]
            · rwa [hcl]
    · exact ⟨_,_,true,rfl,rfl,rfl,fun _ => ⟨rfl,ho,he⟩⟩
    · exact ⟨_,_,true,rfl,rfl,rfl,fun _ => ⟨rfl,ho,he⟩⟩
    · exact ⟨_,_,true,rfl,rfl,rfl,fun _ => hsa⟩

theorem readFields (h : r.Follows e) (fields : List (Bytes × FieldValue)) :
    ∃ r' e' ok, r.readFields libs fields = (r', ok) ∧ e.readFields libs fields = (e', ok) ∧
      r'.stream.chunks = e'.chunks ∧ (ok = true → r'.Follows e') := by
  induction fields generalizing r e with
  | nil => exact ⟨r,e,true,rfl,rfl,by rw [h.eq],fun _ => h⟩
  | cons field fields ih =>
    obtain ⟨r',e',ok,hr,he,hc,hn⟩ := h.readField libs field
    simp only [Reading.readFields,Extraction.readFields,hr,he]
    cases ok with
    | false => exact ⟨r',e',false,rfl,rfl,hc,hn⟩
    | true => exact ih (hn rfl)

theorem signed_eq (h : r.Follows e) (hr : r.dataValueRead = true) :
    r.stream.signed = encode r.stream.chunks.flatten := by
  have he := h.encoded
  rwa [VerifyingOutputStream.Encoded,if_neg (by simp [h.isOpen,hr])] at he

theorem finish (h : r.Follows e) :
    (r.finish libs).1.chunks = e.chunks ∧ (r.finish libs).2 = e.finish libs := by
  have hs := h.signed_eq
  obtain ⟨rfl,-,-⟩ := h
  rcases r with ⟨stream,_ | _,_ | signature,_ | digest⟩
  case true.some.some =>
    simp only [Reading.finish,Extraction.finish,← hs rfl]
    split_ifs
    · exact ⟨rfl,rfl⟩
    · cases libs.decodeSignature signature with
      | none => exact ⟨rfl,rfl⟩
      | some => exact ⟨by simp [VerifyingOutputStream.chunks,StreamEvent.written],rfl⟩
  all_goals exact ⟨rfl,rfl⟩

end Reading.Follows

theorem Reading.follows_start : Reading.start.Follows ⟨[],false,none,none⟩ := by
  refine ⟨rfl,rfl,?_⟩
  exact ⟨[],Nat.dvd_zero 3,rfl,by simp [VerifyingOutputStream.signed,start,encode, sextets]⟩

namespace VerifyingOutputStream

/-- The stream writes the chunks of the extraction, and ends as it does. -/
theorem extractAndVerifyData_eq (libs : Libraries) (p : Document) :
    ((extractAndVerifyData libs p).1.chunks, (extractAndVerifyData libs p).2) =
      Psiphon.Android.extractAndVerifyData libs p := by
  obtain ⟨start,fields,f⟩ := p
  obtain ⟨r,e,ok,hr,he,hc,hf⟩ :=
    Reading.follows_start.readFields libs fields
  simp only [extractAndVerifyData,extract,Psiphon.Android.extractAndVerifyData,chunks_close,hr,he]
  cases start with
  | false => rfl
  | true =>
    cases ok with
    | false => exact Prod.ext hc rfl
    | true =>
      obtain ⟨hw,ho⟩ := (hf rfl).finish libs
      cases f with
      | false => exact Prod.ext hc rfl
      | true => exact Prod.ext hw ho

/-- The verifier accepted the signature of the package over the text of what was written, at the
end. -/
def Covers (libs : Libraries) (package : Document) (s : VerifyingOutputStream) : Prop :=
  ∃ events text signature, s.events = events ++ [.verify signature] ∧
    (ascii "signature", .string text) ∈ package.fields ∧
    libs.decodeSignature text = some signature ∧
    (ascii "signingPublicKeyDigest", .string libs.publicKeyDigest) ∈ package.fields ∧
    libs.verify (events.flatMap StreamEvent.updated) signature = true ∧
    events.flatMap StreamEvent.updated = encode s.chunks.flatten

end VerifyingOutputStream

/-- The texts of the fields with a name that are strings. -/
def texts (name : String) (fields : List (Bytes × FieldValue)) : List Bytes :=
  fields.filterMap fun
    | (fieldName, .string text) => if fieldName = ascii name then some text else none
    | _ => none

theorem texts_string (name : String) (fieldName text : Bytes) (fields : List (Bytes × FieldValue)) :
    texts name ((fieldName, .string text) :: fields) =
      if fieldName = ascii name then text :: texts name fields else texts name fields := by
  by_cases h : fieldName = ascii name <;> simp [texts,h]

/-- The package has data, which is read to its end each time, and only the first time with anything
to write. Its last digest is that of the embedded key, and its last signature is not in Base64. -/
def Undecodable (libs : Libraries) (package : Document) : Prop :=
  package.startObject = true ∧ package.endObject = true ∧ texts "data" package.fields ≠ [] ∧
    (∀ text ∈ texts "data" package.fields, (libs.readBinaryValue text).2 = true) ∧
    (∀ text ∈ (texts "data" package.fields).tail, (libs.readBinaryValue text).1 = []) ∧
    (texts "signingPublicKeyDigest" package.fields).getLast? = some libs.publicKeyDigest ∧
    ∃ text, (texts "signature" package.fields).getLast? = some text ∧
      libs.decodeSignature text = none

/-- What a list of fields makes of an extraction, if all are read. -/
theorem Extraction.readFields_spec (libs : Libraries) (e : Extraction)
    (fields : List (Bytes × FieldValue)) :
    ((e.readFields libs fields).2 = true ↔
      (∀ text ∈ texts "data" fields, (libs.readBinaryValue text).2 = true) ∧
      ∀ text ∈ if e.dataValueRead then texts "data" fields else (texts "data" fields).tail,
        (libs.readBinaryValue text).1 = []) ∧
    ((e.readFields libs fields).2 = true →
      ((e.readFields libs fields).1.dataValueRead = true ↔
        e.dataValueRead = true ∨ texts "data" fields ≠ []) ∧
      (e.readFields libs fields).1.signature =
        (texts "signature" fields).getLast?.or e.signature ∧
      (e.readFields libs fields).1.signingPublicKeyDigest =
        (texts "signingPublicKeyDigest" fields).getLast?.or e.signingPublicKeyDigest) := by
  induction fields generalizing e with
  | nil => simp [texts,readFields]
  | cons field fields ih =>
    have hne : ascii "signature" ≠ ascii "data" ∧ ascii "signingPublicKeyDigest" ≠ ascii "data" ∧
      ascii "signingPublicKeyDigest" ≠ ascii "signature" := by decide
    obtain ⟨name,text | _⟩ := field
    case other => exact ih e
    have hlast (ts : List Bytes) (o : Option Bytes) :
        (text :: ts).getLast?.or o = ts.getLast?.or (some text) := by
      rw [List.getLast?_cons]
      cases ts.getLast? <;> rfl
    by_cases hdata : name = ascii "data"
    · subst hdata
      -- from the second value of the data on, the first chunk throws
      have hi := ih { e with
        chunks := e.chunks ++ (libs.readBinaryValue text).1
        dataValueRead := true }
      rcases hv : libs.readBinaryValue text with ⟨chunks,complete⟩
      rw [hv] at hi
      cases hr : e.dataValueRead <;> cases complete <;> cases chunks <;>
        simp_all [readFields,readField,texts_string,hne.1.symm,hne.2.1.symm]
    by_cases hs : name = ascii "signature"
    · subst hs
      simpa [readFields,readField,texts_string,hne,hne.2.2.symm,hlast] using
        ih { e with signature := some text }
    by_cases hd : name = ascii "signingPublicKeyDigest"
    · subst hd
      simpa [readFields,readField,texts_string,hne,hlast] using
        ih { e with signingPublicKeyDigest := some text }
    · simpa [readFields,readField,texts_string,hdata,hs,hd] using ih e

section Covered

variable {libs : Libraries}

def Reading.Named (r : Reading) (fields : List (Bytes × FieldValue)) : Prop :=
  (∀ text, r.signature = some text → (ascii "signature", .string text) ∈ fields) ∧
    ∀ text, r.signingPublicKeyDigest = some text →
      (ascii "signingPublicKeyDigest", .string text) ∈ fields

theorem Reading.Named.readField {r r' : Reading} {fields : List (Bytes × FieldValue)}
    {field : Bytes × FieldValue} {ok : Bool} (h : r.Named fields) (hmem : field ∈ fields)
    (hr : r.readField libs field = (r', ok)) : r'.Named fields := by
  obtain ⟨name,_ | text⟩ := field
  case string =>
    rw [Reading.readField] at hr
    split_ifs at hr with hdata hs hd
    · dsimp only at hr
      split_ifs at hr <;> obtain ⟨rfl,-⟩ := Prod.mk.inj hr <;> exact h
    · obtain ⟨rfl,-⟩ := Prod.mk.inj hr
      refine ⟨fun _ ht => ?_,h.2⟩
      rwa [← Option.some.inj ht,← hs]
    · obtain ⟨rfl,-⟩ := Prod.mk.inj hr
      refine ⟨h.1,fun _ ht => ?_⟩
      rwa [← Option.some.inj ht,← hd]
    · obtain ⟨rfl,-⟩ := Prod.mk.inj hr
      exact h
  case other =>
    obtain ⟨rfl,-⟩ := Prod.mk.inj hr
    exact h

theorem Reading.Named.readFields {r r' : Reading} {fields rest : List (Bytes × FieldValue)}
    {ok : Bool} (h : r.Named fields) (hre : ∀ field ∈ rest, field ∈ fields)
    (hr : r.readFields libs rest = (r', ok)) : r'.Named fields := by
  induction rest generalizing r with
  | nil =>
    obtain ⟨rfl,-⟩ := Prod.mk.inj hr
    exact h
  | cons field rest ih =>
    rw [forall_mem_cons] at hre
    rw [Reading.readFields] at hr
    split at hr
    · exact ih (h.readField hre.1 ‹_›) hre.2 hr
    · obtain ⟨rfl,-⟩ := Prod.mk.inj hr
      exact h.readField hre.1 ‹_›

variable (libs) in
theorem Reading.finish_cases (r : Reading) :
    (∃ text, r.dataValueRead = true ∧ r.signature = some text ∧
      r.signingPublicKeyDigest = some libs.publicKeyDigest ∧
        ((∃ signature, libs.decodeSignature text = some signature ∧
          r.finish libs = (⟨r.stream.isOpen,r.stream.tail,r.stream.events ++ [.verify signature]⟩,
            if libs.verify r.stream.signed signature then .returns else .throws)) ∨
        libs.decodeSignature text = none ∧ r.finish libs = (r.stream, .uncaught))) ∨
    r.finish libs = (r.stream, .throws) := by
  rcases r with ⟨stream,_ | _,_ | text,_ | digest⟩
  case true.some.some =>
    by_cases hd : libs.publicKeyDigest = digest
    · subst hd
      refine .inl ⟨text,rfl,rfl,rfl,?_⟩
      cases hde : libs.decodeSignature text with
      | none => exact .inr ⟨rfl,by simp [finish,hde]⟩
      | some signature => exact .inl ⟨signature,rfl,by simp [finish,hde]⟩
    · exact .inr (by simp [finish,hd])
  all_goals exact .inr rfl

theorem undecodable_iff {start f ok : Bool} {fields : List (Bytes × FieldValue)} {r : Reading}
    (hr : Reading.start.readFields libs fields = (r, ok)) :
    Undecodable libs ⟨start,fields,f⟩ ↔ start = true ∧ f = true ∧ ok = true ∧
      r.dataValueRead = true ∧ r.signingPublicKeyDigest = some libs.publicKeyDigest ∧
      ∃ text, r.signature = some text ∧ libs.decodeSignature text = none := by
  obtain ⟨r',e,ok',hr',he,-,hfo⟩ := Reading.follows_start.readFields libs fields
  cases hr.symm.trans hr'
  obtain ⟨hall,hspec⟩ := Extraction.readFields_spec libs ⟨[],false,none,none⟩ fields
  rw [he] at hall hspec
  rw [Undecodable]
  refine and_congr_right fun _ => and_congr_right fun _ => ?_
  cases ok with
  | false =>
    refine iff_of_false (fun h => ?_) (fun h => Bool.noConfusion h.1)
    exact Bool.noConfusion (hall.mpr ⟨h.2.1,h.2.2.1⟩)
  | true =>
    obtain ⟨hdata,hsignature,hdigest⟩ := hspec rfl
    obtain ⟨htexts,hrest⟩ := hall.mp rfl
    rw [(hfo rfl).eq] at hdata hsignature hdigest
    simp only [Bool.false_eq_true,false_or,Option.or_none] at hdata hsignature hdigest
    rw [hdata,hsignature,hdigest]
    exact ⟨fun ⟨hne,_,_,hd,hs⟩ => ⟨rfl,hne,hd,hs⟩,
      fun ⟨_,hne,hd,hs⟩ => ⟨hne,htexts,hrest,hd,hs⟩⟩

namespace VerifyingOutputStream

/-- A package is refused with `AuthenticatedDataPackageException`, or what was written is what its
signature was checked for, unless its signature is not in Base64. -/
theorem package_covered_iff_decodable (libs : Libraries) (package : Document) :
    ((extractAndVerifyData libs package).2 = .returns ∧
        (extractAndVerifyData libs package).1.Covers libs package ∨
      (extractAndVerifyData libs package).2 = .throws) ↔ ¬ Undecodable libs package := by
  obtain ⟨start,fields,f⟩ := package
  obtain ⟨r,e,ok,hr,-,-,hfo⟩ :=
    Reading.follows_start.readFields libs fields
  have hn : r.Named fields :=
    Reading.Named.readFields (r := Reading.start) ⟨by simp [Reading.start],by simp [Reading.start]⟩
      (fun _ h => h) hr
  by_cases hw : start = true ∧ ok = true ∧ f = true
  case neg =>
    -- a package that is not read to its end
    have ht : (extractAndVerifyData libs ⟨start,fields,f⟩).2 = .throws := by
      cases start <;> cases ok <;> cases f <;>
        simp [extractAndVerifyData,extract,hr] at hw ⊢
    refine iff_of_true (.inr ht) ?_
    rw [undecodable_iff hr]
    rintro ⟨hst,hfi,hok,-⟩
    exact hw ⟨hst,hok,hfi⟩
  obtain ⟨rfl,rfl,rfl⟩ := hw
  have he : extract libs ⟨true,fields,true⟩ = r.finish libs := by simp [extract,hr]
  rw [extractAndVerifyData,he,undecodable_iff hr]
  rcases r.finish_cases libs with
    ⟨text,hre,hs,hd,⟨signature,hde,hf⟩ | ⟨hde,hf⟩⟩ | hf
  · refine iff_of_true ?_ fun ⟨_,_,_,_,_,text',hs',hno⟩ => ?_
    case refine_2 =>
      cases hs.symm.trans hs'
      cases hde.symm.trans hno
    have hc : r.stream.isOpen = false := by simp [(hfo rfl).isOpen,hre]
    rw [hf]
    by_cases hv : libs.verify r.stream.signed signature = true
    · refine .inl ⟨if_pos hv,r.stream.events,text,signature,?_,hn.1 text hs, hde,hn.2 _ hd,hv,?_⟩
      · simp [close,hc]
      · have hch : chunks ⟨r.stream.isOpen,r.stream.tail,r.stream.events ++ [.verify signature]⟩ =
            r.stream.chunks := by
          simp [chunks,StreamEvent.written]
        rw [chunks_close,hch]
        exact (hfo rfl).signed_eq hre
    · exact .inr (if_neg hv)
  · rw [hf]
    exact iff_of_false (by simp) (not_not_intro ⟨rfl,rfl,rfl,hre,hd,text,hs,hde⟩)
  · rw [hf]
    refine iff_of_true (.inr rfl) ?_
    rintro ⟨-,-,-,hre,hd,text',hs,hno⟩
    simp [Reading.finish,hre,hs,hd,hno] at hf

/-- A verifier that takes the number of the bytes of a text for its signature. -/
def countingLibraries : Libraries where
  createParser _ := none
  readBinaryValue text := ([text], true)
  publicKeyDigest := ascii "digest"
  decodeSignature text := if text.length % 4 = 1 then none else some (decode text)
  verify text signature := signature = [UInt8.ofNat text.length]
  archiveVersionCode _ := none
  currentVersionCode := none

def signedPackage (signature : Bytes) : Document :=
  ⟨true, [(ascii "data", .string [1, 2]), (ascii "signature", .string signature),
    (ascii "signingPublicKeyDigest", .string (ascii "digest"))], true⟩

theorem package_covered_signed :
    (extractAndVerifyData countingLibraries (signedPackage (ascii "BA=="))).2 = .returns ∧
      (extractAndVerifyData countingLibraries (signedPackage (ascii "BA=="))).1.Covers
        countingLibraries (signedPackage (ascii "BA==")) := by
  have hd : (extractAndVerifyData countingLibraries (signedPackage (ascii "BA=="))).2
      ≠ .throws := by
    decide +kernel
  refine ((package_covered_iff_decodable _ _).mpr ?_).resolve_right hd
  rintro ⟨-,-,-,-,-,-,text,hs,hn⟩
  have ht : (texts "signature" (signedPackage (ascii "BA==")).fields).getLast? =
      some (ascii "BA==") := rfl
  cases hs.symm.trans ht
  cases hn

/-- `IllegalArgumentException` for a signature of one letter. -/
theorem package_uncaught_one_letter :
    (extractAndVerifyData countingLibraries (signedPackage (ascii "A"))).2 = .uncaught := rfl

end VerifyingOutputStream

end Covered

end Psiphon.Android
