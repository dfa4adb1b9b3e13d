import Psiphon.Feedback.Redaction

/-!
# The stages of the feedback decryptor

`decrypt`, `_load_yaml`, `is_diagnostic_info_sane` and `transform`, with every exception that they
let through. `transform` changes its argument in place, also when it raises.
-/

namespace Psiphon.Feedback

def key (name : String) : Key := .str name.toList

structure Libraries where
  jsonLoads : Text → Raises Obj
  yamlSafeLoadAll : Text → Raises (List Obj)
  yamlSafeLoad : Text → Raises Obj
  b64decode : Obj → Raises Text
  /-- `private_decrypt` with the private key, unless it raises -/
  privateDecrypt : Text → Option Text
  hmacSha256 : Text → Text → Text
  /-- The plaintext for a key, an initialization vector and a ciphertext, unless M2Crypto raises. -/
  aesDecrypt : Text → Text → Text → Option Text
  translate : Obj → Obj × Obj × Obj
  /-- The printed form of the time that `strptime` finds. -/
  strptime : Text → Option Text
  /-- `int(text, 16)` -/
  parseHex : Text → Option ℤ
  /-- `str` of a datetime, a list or a dict -/
  repr : Obj → Text
  /-- A walk that renames the keys with dots of the leaves, with what it raises, if it does, and the
  entries after it. It changes the dicts that it iterates over, so that its course depends on their
  layout. -/
  renameWalk : (Text → Text) → List (Key × Obj) → Option Exn × List (Key × Obj)
  /-- An entry that is renamed stays, under its new key. -/
  renameWalk_ne_nil : ∀ f entries, entries ≠ [] → (renameWalk f entries).2 ≠ []
  /-- `binascii.hexlify(os.urandom(8))` -/
  randomId : Text
  /-- `locale_codes.json`, by `lcid_number` -/
  localeCodes : List (ℤ × Obj)
  /-- `country_dialing_codes.json`, by `dialing_code` -/
  countryDialingCodes : List (Text × Obj)
  psinet : Psinet

variable (libs : Libraries)

/-! ### Strings -/

def isAscii (text : Text) : Bool := text.all fun c => c.toNat < 128

/-- The printed form of an object that is not a string. -/
def pyRepr : Obj → Text
  | .none => "None".toList
  | .bool b => if b then "True".toList else "False".toList
  | .int n => (toString n).toList
  | .float text => text
  | obj => libs.repr obj

def pyStr : Obj → Raises Text
  | .str .byte text => .ok text
  | .str .unicode text => if isAscii text then .ok text else .error .valueError
  | obj => .ok (pyRepr libs obj)

def pyUnicode : Obj → Raises Text
  | .str .unicode text => .ok text
  | .str .byte text => if isAscii text then .ok text else .error .valueError
  | obj => .ok (pyRepr libs obj)

/-- `'%s' % obj`, which keeps a string as it is -/
def percentS : Obj → Text
  | .str _ text => text
  | obj => pyRepr libs obj

/-- `json.loads(obj)` -/
def jsonLoadsObj : Obj → Raises Obj
  | .str _ text => libs.jsonLoads text
  | _ => .error .typeError

/-- What `strip` of a byte string takes away. -/
def isSpace (c : Char) : Bool := [' ', '\t', '\n', '\r', '\x0b', '\x0c'].contains c

def strip (text : Text) : Text := ((text.dropWhile isSpace).reverse.dropWhile isSpace).reverse

/-! ### Decryption -/

/-- The key in a field. Whatever fails is a `DecryptorException`. -/
def unwrapKey (data : Obj) (field : String) : Raises Text :=
  match (data.getItem (key field)).bind libs.b64decode with
  | .ok wrapped =>
    match libs.privateDecrypt wrapped with
    | some unwrapped => .ok unwrapped
    | none => .error .decryptorException
  | .error _ => .error .decryptorException

def decrypt (data : Obj) : Raises Text := do
  let ciphertext ← libs.b64decode (← data.getItem (key "contentCiphertext"))
  let iv ← libs.b64decode (← data.getItem (key "iv"))
  let macKey ← unwrapKey libs data "wrappedMacKey"
  let contentMac ← libs.b64decode (← data.getItem (key "contentMac"))
  if libs.hmacSha256 macKey (iv ++ ciphertext) ≠ contentMac then throw .decryptorException
  let aesKey ← unwrapKey libs data "wrappedEncryptionKey"
  match libs.aesDecrypt aesKey iv ciphertext with
  | some plaintext => return plaintext
  | none => throw .m2CryptoError

/-! ### Loading -/

def replaceDots (by_ : Text) (name : Text) : Text :=
  name.flatMap fun c => if c = '.' then by_ else [c]

/-- `yaml_docs[idx]` -/
def docAt (docs : List Obj) (idx : ℕ) : Raises Obj :=
  match docs[idx]? with
  | some doc => .ok doc
  | none => .error .indexError

/-- The walk over the list of documents, as one over a dict by their numbers. -/
def renameDocs (docs : List Obj) : Raises (List Obj) :=
  match libs.renameWalk (replaceDots "__".toList)
      (docs.zipIdx.map fun doc => (.int doc.2, doc.1)) with
  | (none, entries) => .ok (entries.map Prod.snd)
  | (some e, _) => .error e

def upgradeOldObject (docs : List Obj) : Raises Obj := do
  if docs.length = 1 then return ← docAt docs 0
  let docs ← renameDocs libs docs
  let metadata := .dict [(key "platform", .str .byte "android".toList), (key "version", .int 1),
    (key "id", .str .byte libs.randomId)]
  let systemInformation ← docAt docs 0
  let serverResponseCheck ← docAt docs 1
  let diagnosticHistory ← if docs.length > 3 then docAt docs 2 else pure (.list [])
  let statusHistory ← docAt docs (if docs.length > 3 then 3 else 2)
  return .dict [(key "Metadata", metadata), (key "SystemInformation", systemInformation),
    (key "ServerResponseCheck", serverResponseCheck),
    (key "DiagnosticHistory", diagnosticHistory), (key "StatusHistory", statusHistory)]

def loadYaml (text : Text) : Raises Obj :=
  match libs.jsonLoads text with
  | .ok obj => .ok obj
  | .error _ => do upgradeOldObject libs (← libs.yamlSafeLoadAll text)

/-! ### The sanity check -/

/-- `val in ['android', 'ios', 'windows']` -/
def sanePlatform : Obj → Bool
  | .str _ text => ["android".toList, "ios".toList, "windows".toList].contains text
  | _ => false

/-- `val in range(1, 5)` -/
def saneVersion : Obj → Bool
  | .int n => 1 ≤ n && n < 5
  | .bool b => b
  | .float text => ["1.0".toList, "2.0".toList, "3.0".toList, "4.0".toList].contains text
  | _ => false

/-- `re.match(r'^[a-fA-F0-9]\x7b16\x7d', str(val)) is not None` -/
def saneId (val : Obj) : Raises Bool := do
  let text ← pyStr libs val
  return 16 ≤ text.length && (text.take 16).all isHex

/-- A field that has to be there and pass its check. -/
def checkField (check : Obj → Raises Bool) (entries : List (Key × Obj)) (name : String) :
    Raises Bool :=
  match Obj.lookup (key name) entries with
  | some value => check value
  | none => .ok false

def saneMetadata : Obj → Raises Bool
  | .dict entries => do
    if !(← checkField (fun val => .ok (sanePlatform val)) entries "platform") then return false
    if !(← checkField (fun val => .ok (saneVersion val)) entries "version") then return false
    checkField (saneId libs) entries "id"
  | _ => .ok false

/-- The fields of the exemplar are checked in the order in which CPython 2 iterates over it. -/
def isDiagnosticInfoSane : Obj → Raises Bool
  | .dict entries =>
    if (Obj.lookup (key "_id") entries).isSome then .ok false
    else if (Obj.lookup (key "datetime") entries).isSome then .ok false
    else checkField (saneMetadata libs) entries "Metadata"
  | _ => .ok false

/-! ### Transformation -/

abbrev Transform := EStateM Exn Obj Unit

/-- A change that is made as a whole or not at all. -/
def edit (f : Obj → Raises Obj) : Transform := fun obj =>
  match f obj with
  | .ok new => .ok () new
  | .error e => .error e obj

/-- What the object determines, and raises. -/
def reading {α : Type} (f : Obj → Raises α) : EStateM Exn Obj α := fun obj =>
  match f obj with
  | .ok a => .ok a obj
  | .error e => .error e obj

def timestampSuffix : Text := "!!timestamp".toList

/-- The leaves whose last key ends like a timestamp, with the key without that end. -/
def timestamps : List (Path × Obj) → Raises (List (Path × Text × Obj))
  | [] => .ok []
  | (path, val) :: leaves => do
    let rest (found : List (Path × Text × Obj)) : Raises (List (Path × Text × Obj)) :=
      (timestamps leaves).map (found ++ ·)
    match path.getLast? with
    | none => .error .indexError
    | some (.int _) => rest []
    | some (.str name) =>
      if isAscii name then
        rest (if timestampSuffix.isSuffixOf name then
          [(path, name.take (name.length - timestampSuffix.length), val)] else [])
      else .error .valueError

/-- `datetime.datetime.strptime(val, ...)` -/
def parseTimestamp : Obj → Raises Obj
  | .str _ text =>
    match libs.strptime text with
    | some time => .ok (.datetime time)
    | none => .error .valueError
  | _ => .error .typeError

def convertTimestamp (leaf : Path × Text × Obj) : Transform := do
  let (path, name, val) := leaf
  let time ← reading fun _ => parseTimestamp libs val
  edit fun obj => obj.renameKeyInObjAtPath path (.str name)
  edit fun obj => obj.assignValueToObjAtPath (path.dropLast ++ [.str name]) time

def coalesce : Obj → Path → Obj
  | obj, [] => obj
  | .dict entries, k :: path =>
    match Obj.lookup k entries with
    | some value => coalesce value path
    | none => .none
  | _, _ :: _ => .none

/-- `stringtype(val)` -/
def toKind (kind : StrKind) (val : Obj) : Raises Text :=
  match kind with
  | .byte => pyStr libs val
  | .unicode => pyUnicode libs val

def ensureFieldIsString (kind : StrKind) (path : Path) : Transform :=
  edit fun obj =>
    match coalesce obj path with
    | .none => .ok obj
    | val => do obj.assignValueToObjAtPath path (.str kind (← toKind libs kind val))

def postprocessYaml : Transform := do
  let found ← reading fun obj => timestamps (obj.objwalk [])
  found.forM (convertTimestamp libs)
  ensureFieldIsString libs .byte [key "Metadata", key "id"]
  ensureFieldIsString libs .unicode [key "Feedback", key "email"]
  ensureFieldIsString libs .unicode [key "Feedback", key "Message", key "text"]

/-- `data.get('Feedback', \x7b\x7d).get(name)` -/
def feedbackPart (name : String) (obj : Obj) : Raises Obj := do
  let feedback ← obj.get (key "Feedback") (.dict [])
  feedback.get (key name) .none

/-- `data[a][b][c]` -/
def itemAt : Obj → Path → Raises Obj
  | obj, [] => .ok obj
  | obj, k :: path => do itemAt (← obj.getItem k) path

def translateFeedback : Transform := do
  let message ← reading (feedbackPart "Message")
  if message.truthy then
    let text ← reading fun obj => itemAt obj [key "Feedback", key "Message", key "text"]
    let (langCode, langName, translated) := libs.translate text
    edit fun obj => obj.setAt [key "Feedback", key "Message", key "text_lang_code"] langCode
    edit fun obj => obj.setAt [key "Feedback", key "Message", key "text_lang_name"] langName
    edit fun obj => obj.setAt [key "Feedback", key "Message", key "text_translated"] translated

def parseSurveyResults : Transform := do
  let survey ← reading (feedbackPart "Survey")
  if survey.truthy then
    let results ← reading fun obj =>
      match itemAt obj [key "Feedback", key "Survey", key "json"] >>= jsonLoadsObj libs with
      | .ok results => .ok results
      | .error _ => .ok .none
    edit fun obj => obj.setAt [key "Feedback", key "Survey", key "results"] results

def osInfoPath : Path := [key "DiagnosticInfo", key "SystemInformation", key "OSInfo"]

def osInfo (obj : Obj) : Raises Obj := do
  let diagnosticInfo ← obj.get (key "DiagnosticInfo") (.dict [])
  let systemInformation ← diagnosticInfo.get (key "SystemInformation") (.dict [])
  systemInformation.get (key "OSInfo") .none

def localeMatch (matched : ℤ → Bool) : Obj :=
  match libs.localeCodes.find? fun code => matched code.1 with
  | some code => code.2
  | none => .none

def localeInfo (info : Obj) : Raises Obj := do
  let text ← pyStr libs info
  match libs.parseHex text with
  | some n => return localeMatch libs (· = n)
  | none => throw .valueError

def languageInfo : Obj → Obj
  | .int n => localeMatch libs (· = n)
  | .bool b => localeMatch libs (· = if b then 1 else 0)
  | .float text => localeMatch libs fun n => text = (toString n ++ ".0").toList
  | _ => .none

/-- The records with the code, else those with the code without its last digit. -/
def countryCodeInfo (info : Obj) : Raises Obj := do
  let text ← pyStr libs info
  let matching (code : Text) := (libs.countryDialingCodes.filter (·.1 = code)).map Prod.snd
  let found := matching text
  let found := if found.isEmpty then matching text.dropLast else found
  return if found.isEmpty then .none else .list found

/-- A field of the system information that is looked up when it counts as true. -/
def convertOsInfo (field info : String) (convert : Obj → Raises Obj) : Transform := do
  let value ← reading fun obj => do (← osInfo obj).get (key field) .none
  if value.truthy then
    let converted ← reading fun _ => convert value
    edit fun obj => obj.setAt (osInfoPath ++ [key info]) converted

def convertLocaleInfo : Transform := do
  let info ← reading osInfo
  if info.truthy then
    convertOsInfo "locale" "LocaleInfo" (localeInfo libs)
    convertOsInfo "language" "LanguageInfo" fun info => .ok (languageInfo libs info)
    convertOsInfo "countryCode" "CountryCodeInfo" (countryCodeInfo libs)

def sanitizeKeys : Transform := fun obj =>
  match obj with
  | .dict entries =>
    -- What the walk has renamed stays renamed when it raises.
    match libs.renameWalk (replaceDots "_".toList) entries with
    | (none, entries) => .ok () (.dict entries)
    | (some e, entries) => .error e (.dict entries)
  | obj => .ok () obj

/-- `set((platform,))`, as far as it can be a key of `_transformations`. A list or a dict has no
hash. -/
def platformKey : Obj → Raises (List Text)
  | .str _ text => .ok [text]
  | .list _ | .dict _ => .error .typeError
  | _ => .ok []

/-- The keys of `_transformations` that the platform and the version select. -/
def transformKeys (obj : Obj) : Raises (List Text) := do
  let metadata ← obj.getItem (key "Metadata")
  let platform ← metadata.getItem (key "platform")
  let alone ← platformKey platform
  let version ← metadata.getItem (key "version")
  return alone ++ [percentS libs platform ++ "_".toList ++ percentS libs version]

def transform : Transform := do
  postprocessYaml libs
  let keys ← reading (transformKeys libs)
  (keys.filter ["android_4".toList, "ios".toList, "windows".toList].contains).forM fun _ => do
    translateFeedback libs
    parseSurveyResults libs
    convertLocaleInfo libs
    sanitizeKeys libs

end Psiphon.Feedback
