import Psiphon.Client.ServerEntryText
import Psiphon.Ops.ServerEntry

/-!
# Server entries through the Windows client

An entry of `__get_encoded_server_entry` is parsed by `ParseServerEntry` and encoded again.
-/

namespace Psiphon.Client

open List
open Json (Bytes Value ascii)
open Ops (Capability ExtendedConfig EncodedServerEntry)

/-! ### The text of an entry -/

def utf8 (text : String) : Bytes := text.toList.flatMap String.utf8EncodeChar

def lowerHexDigit (d : ℕ) : UInt8 := UInt8.ofNat (if d < 10 then 48 + d else 87 + d)

def capabilityKey : Capability → String
  | .handshake => "handshake"
  | .sshApiRequests => "ssh-api-requests"
  | .vpn => "VPN"
  | .ssh => "SSH"
  | .ossh => "OSSH"
  | .frontedMeek => "FRONTED-MEEK"
  | .unfrontedMeek => "UNFRONTED-MEEK"
  | .unfrontedMeekSessionTicket => "UNFRONTED-MEEK-SESSION-TICKET"
  | .unfrontedMeekHttps => "UNFRONTED-MEEK-HTTPS"
  | .frontedMeekHttp => "FRONTED-MEEK-HTTP"

def textValue (text : String) : Value := .str (utf8 text)

def textsValue (texts : List String) : Value := .arr (texts.map textValue)

def optionalMember (key : String) (value : Option Value) : List (Bytes × Value) :=
  (value.map fun value => (ascii key, value)).toList

def fixedMembers (config : ExtendedConfig) : List (Bytes × Value) := [
  (ascii "ipAddress", textValue config.ipAddress),
  (ascii "webServerPort", textValue config.webServerPort),
  (ascii "webServerSecret", textValue config.webServerSecret),
  (ascii "webServerCertificate", textValue config.webServerCertificate),
  (ascii "sshPort", .int config.sshPort),
  (ascii "sshUsername", textValue config.sshUsername),
  (ascii "sshPassword", textValue config.sshPassword),
  (ascii "sshHostKey", textValue config.sshHostKey),
  (ascii "sshObfuscatedPort", .int config.sshObfuscatedPort),
  (ascii "sshObfuscatedKey", textValue config.sshObfuscatedKey),
  (ascii "region", (config.region.map textValue).getD .null),
  (ascii "meekServerPort", .int config.meekServerPort),
  (ascii "meekObfuscatedKey", textValue config.meekObfuscatedKey),
  (ascii "meekFrontingDomain", textValue config.meekFrontingDomain),
  (ascii "meekFrontingHost", textValue config.meekFrontingHost),
  (ascii "meekCookieEncryptionPublicKey", textValue config.meekCookieEncryptionPublicKey),
  (ascii "capabilities",
    .arr (config.capabilities.map fun capability => .str (ascii (capabilityKey capability))))]

def extendedMembers (config : ExtendedConfig) : List (Bytes × Value) :=
  fixedMembers config ++
  optionalMember "meekFrontingAddresses" (config.meekFrontingAddresses.map textsValue) ++
  optionalMember "meekFrontingAddressesRegex" (config.meekFrontingAddressesRegex.map textValue) ++
  optionalMember "meekFrontingDisableSNI" (config.meekFrontingDisableSNI.map .bool) ++
  optionalMember "meekFrontingHosts" (config.meekFrontingHosts.map textsValue)

def entryText (dumps : Value → Bytes) (entry : EncodedServerEntry) : Bytes :=
  utf8 entry.ipAddress ++ space :: utf8 entry.webServerPort ++
    space :: utf8 entry.webServerSecret ++ space :: utf8 entry.webServerCertificate ++
    space :: dumps (.obj (extendedMembers entry.extendedConfig))

def encodedEntry (dumps : Value → Bytes) (entry : EncodedServerEntry) : Bytes :=
  hexlifyWith lowerHexDigit (entryText dumps entry)

/-! ### Fields and their use -/

/-- The fields that name a port, a key, a host, a domain, addresses, a regex, a capability or a
region. -/
inductive Field where
  | sshPort
  | sshObfuscatedPort
  | sshObfuscatedKey
  | meekServerPort
  | meekObfuscatedKey
  | meekCookieEncryptionPublicKey
  | meekFrontingDomain
  | meekFrontingHost
  | meekFrontingHosts
  | meekFrontingAddresses
  | meekFrontingAddressesRegex
  | meekFrontingDisableSNI
  | capabilities
  | region
  deriving DecidableEq, Repr

namespace Field

def key : Field → String
  | sshPort => "sshPort"
  | sshObfuscatedPort => "sshObfuscatedPort"
  | sshObfuscatedKey => "sshObfuscatedKey"
  | meekServerPort => "meekServerPort"
  | meekObfuscatedKey => "meekObfuscatedKey"
  | meekCookieEncryptionPublicKey => "meekCookieEncryptionPublicKey"
  | meekFrontingDomain => "meekFrontingDomain"
  | meekFrontingHost => "meekFrontingHost"
  | meekFrontingHosts => "meekFrontingHosts"
  | meekFrontingAddresses => "meekFrontingAddresses"
  | meekFrontingAddressesRegex => "meekFrontingAddressesRegex"
  | meekFrontingDisableSNI => "meekFrontingDisableSNI"
  | capabilities => "capabilities"
  | region => "region"

end Field

def isMeek : Capability → Bool
  | .frontedMeek | .unfrontedMeek | .unfrontedMeekSessionTicket | .unfrontedMeekHttps
  | .frontedMeekHttp => true
  | _ => false

def isFronted : Capability → Bool
  | .frontedMeek | .frontedMeekHttp => true
  | _ => false

/-- The capability uses the field. Every one is listed and chosen by region; through meek there is
an obfuscated SSH connection. -/
def usedBy (capability : Capability) : Field → Bool
  | .capabilities | .region => true
  | .sshPort => capability = .ssh
  | .sshObfuscatedPort => capability = .ossh
  | .sshObfuscatedKey => capability = .ossh || isMeek capability
  | .meekServerPort | .meekObfuscatedKey | .meekCookieEncryptionPublicKey => isMeek capability
  | .meekFrontingDomain | .meekFrontingHost | .meekFrontingHosts | .meekFrontingAddresses
  | .meekFrontingAddressesRegex | .meekFrontingDisableSNI => isFronted capability

def Used (config : ExtendedConfig) (field : Field) : Prop :=
  ∃ capability ∈ config.capabilities, usedBy capability field = true

/-- The extended values in the text of an entry: what stands after the fourth space. -/
def extendedOf (platform : Platform) (text : Bytes) : Option (List (Bytes × Value)) := do
  let (_, text) ← getline space text
  let (_, text) ← getline space text
  let (_, text) ← getline space text
  let (_, text) ← getline space text
  match ← platform.parse text with
  | .obj members => some members
  | _ => none

def storedMembers (platform : Platform) (stored : Bytes) : Option (List (Bytes × Value)) := do
  let (line, _) ← getline 10 stored
  extendedOf platform (← (dehexlify line).toOption)

/-- The entry is parsed, and every field that is used has the same value when it is encoded
again. -/
def Survives (platform : Platform) (dumps : Value → Bytes) (entry : EncodedServerEntry) : Prop :=
  ∃ parsed members, parseServerEntry platform (encodedEntry dumps entry) = .ok parsed ∧
    storedMembers platform (encodeServerEntries platform [parsed]) = some members ∧
    ∀ field, Used entry.extendedConfig field →
      ∀ value, findMember (extendedMembers entry.extendedConfig) field.key = some value →
        findMember members field.key = some value

structure RoundTrips (platform : Platform) (dumps : Value → Bytes) : Prop where
  parse_dumps : ∀ value, platform.parse (dumps value) = some value
  parse_write : ∀ value, platform.parse (platform.write value) = some value
  dumps_text : ∀ value, 0 ∉ dumps value ∧ dumps value ≠ []

/-! ### Members -/

section Members

variable {members : List (Bytes × Value)} {key : String} {value : Value}

theorem findMember_of_mem (hnd : (members.map Prod.fst).Nodup)
    (hmem : (ascii key, value) ∈ members) : findMember members key = some value := by
  have hlo : ∀ l : List (Bytes × Value), (l.map Prod.fst).Nodup → (ascii key, value) ∈ l →
      l.lookup (ascii key) = some value := by
    intro l hl hv
    induction l with
    | nil => cases hv
    | cons m l ih =>
      obtain ⟨hnew,hl⟩ := nodup_cons.mp hl
      rcases mem_cons.mp hv with rfl | hv
      · simp
      · have hne : (ascii key == m.1) = false := by
          simp only [beq_eq_false_iff_ne]
          exact fun heq => hnew (heq ▸ mem_map_of_mem hv)
        rw [lookup_cons,hne]
        exact ih hl hv
  refine hlo _ ?_ (mem_reverse.mpr hmem)
  rw [map_reverse]
  exact nodup_reverse.mpr hnd

theorem findMember_eq_none (h : ascii key ∉ members.map Prod.fst) :
    findMember members key = none := by
  refine lookup_eq_none_iff.mpr fun m hm => ?_
  simp only [bne_iff_ne]
  rintro heq
  exact h (heq ▸ mem_map_of_mem (mem_reverse.mp hm))

end Members

/-! ### What is sent and what is kept -/

namespace Field

def sent (config : ExtendedConfig) : Field → Option Value
  | sshPort => some (.int config.sshPort)
  | sshObfuscatedPort => some (.int config.sshObfuscatedPort)
  | sshObfuscatedKey => some (textValue config.sshObfuscatedKey)
  | meekServerPort => some (.int config.meekServerPort)
  | meekObfuscatedKey => some (textValue config.meekObfuscatedKey)
  | meekCookieEncryptionPublicKey => some (textValue config.meekCookieEncryptionPublicKey)
  | meekFrontingDomain => some (textValue config.meekFrontingDomain)
  | meekFrontingHost => some (textValue config.meekFrontingHost)
  | meekFrontingHosts => config.meekFrontingHosts.map textsValue
  | meekFrontingAddresses => config.meekFrontingAddresses.map textsValue
  | meekFrontingAddressesRegex => config.meekFrontingAddressesRegex.map textValue
  | meekFrontingDisableSNI => config.meekFrontingDisableSNI.map .bool
  | capabilities =>
    some (.arr (config.capabilities.map fun capability => .str (ascii (capabilityKey capability))))
  | region => some ((config.region.map textValue).getD .null)

def kept (entry : ServerEntry) : Field → Option Value
  | sshPort => some (.int entry.sshPort)
  | sshObfuscatedPort => some (.int entry.sshObfuscatedPort)
  | sshObfuscatedKey => some (.str entry.sshObfuscatedKey)
  | meekServerPort => some (.int entry.meekServerPort)
  | meekObfuscatedKey => some (.str entry.meekObfuscatedKey)
  | meekCookieEncryptionPublicKey => some (.str entry.meekCookieEncryptionPublicKey)
  | meekFrontingDomain => some (.str entry.meekFrontingDomain)
  | meekFrontingHost => some (.str entry.meekFrontingHost)
  | meekFrontingHosts => none
  | meekFrontingAddresses => some (.arr (entry.meekFrontingAddresses.map .str))
  | meekFrontingAddressesRegex => some (.str entry.meekFrontingAddressesRegex)
  | meekFrontingDisableSNI => none
  | capabilities => some (.arr (entry.capabilities.map .str))
  | region => some (.str entry.region)

end Field

theorem findMember_append (a b : List (Bytes × Value)) (key : String) :
    findMember (a ++ b) key = (findMember b key).or (findMember a key) := by
  rw [findMember,reverse_append,lookup_append,findMember,findMember]

theorem findMember_optionalMember (key key' : String) (value : Option Value) :
    findMember (optionalMember key value) key' =
      if ascii key' = ascii key then value else none := by
  cases value with
  | none => simp [optionalMember,findMember]
  | some value =>
    by_cases h : ascii key' = ascii key
    · simp [optionalMember,findMember,h]
    · have hne : (ascii key' == ascii key) = false := by simpa using h
      simp [optionalMember,findMember,h,lookup_cons,hne]

section Extended

variable (config : ExtendedConfig)

def fixedKeys : List Bytes :=
  ["ipAddress", "webServerPort", "webServerSecret", "webServerCertificate", "sshPort",
    "sshUsername", "sshPassword", "sshHostKey", "sshObfuscatedPort", "sshObfuscatedKey", "region",
    "meekServerPort", "meekObfuscatedKey", "meekFrontingDomain", "meekFrontingHost",
    "meekCookieEncryptionPublicKey", "capabilities"].map ascii

def optionalKeys : List Bytes :=
  ["meekFrontingAddresses", "meekFrontingAddressesRegex", "meekFrontingDisableSNI",
    "meekFrontingHosts"].map ascii

theorem keys_fixedMembers : (fixedMembers config).map Prod.fst = fixedKeys := rfl

theorem nodup_keys : (fixedKeys ++ optionalKeys).Nodup := by decide +kernel

theorem findMember_fixed {key : String} {value : Value}
    (h : (ascii key, value) ∈ fixedMembers config) :
    findMember (extendedMembers config) key = some value := by
  obtain ⟨hnd,-,hd⟩ := nodup_append.mp nodup_keys
  rw [← keys_fixedMembers config] at hnd
  have hmem : ascii key ∈ fixedKeys := keys_fixedMembers config ▸ mem_map_of_mem h
  have hkey : ascii key ∉ optionalKeys := fun hopt => hd _ hmem _ hopt rfl
  simp only [optionalKeys,map_cons,map_nil,mem_cons,not_mem_nil,or_false,not_or] at hkey
  simp only [extendedMembers,findMember_append,findMember_optionalMember,hkey,if_false,
    Option.none_or,findMember_of_mem hnd h]

theorem findMember_fixed_eq_none {key : String} (h : ascii key ∈ optionalKeys) :
    findMember (fixedMembers config) key = none := by
  obtain ⟨-,-,hd⟩ := nodup_append.mp nodup_keys
  exact findMember_eq_none fun hm => hd _ hm _ h rfl

theorem findMember_field (field : Field) :
    findMember (extendedMembers config) field.key = field.sent config := by
  cases field
  case meekFrontingHosts | meekFrontingAddresses | meekFrontingAddressesRegex |
      meekFrontingDisableSNI =>
    simp only [extendedMembers,findMember_append,findMember_optionalMember,Field.key]
    rw [findMember_fixed_eq_none config (by simp [optionalKeys])]
    simp +decide only [if_true,if_false,Option.none_or,Option.or_none,Field.sent]
  all_goals exact findMember_fixed config (by simp [fixedMembers,Field.key])

end Extended

theorem findMember_members (entry : ServerEntry) (field : Field) :
    findMember entry.members field.key = field.kept entry := by
  have hnd : (entry.members.map Prod.fst).Nodup := by
    simp only [ServerEntry.members,map_cons,map_nil]
    decide +kernel
  cases field
  case meekFrontingHosts | meekFrontingDisableSNI =>
    refine findMember_eq_none ?_
    simp only [ServerEntry.members,map_cons,map_nil]
    decide +kernel
  all_goals exact findMember_of_mem hnd (by simp [ServerEntry.members,Field.key])

/-! ### Reading an entry's own values -/

def knowsMeek (capabilities : List Capability) : Bool :=
  capabilities.contains .frontedMeek || capabilities.contains .unfrontedMeek ||
    capabilities.contains .unfrontedMeekHttps

def readBase (base : ServerEntry) (config : ExtendedConfig) : ServerEntry :=
  { base with
    region := (config.region.map utf8).getD []
    sshPort := config.sshPort
    sshUsername := utf8 config.sshUsername
    sshPassword := utf8 config.sshPassword
    sshHostKey := utf8 config.sshHostKey
    sshObfuscatedPort := config.sshObfuscatedPort
    sshObfuscatedKey := utf8 config.sshObfuscatedKey
    capabilities := config.capabilities.map fun capability => ascii (capabilityKey capability) }

def readMeek (entry : ServerEntry) (config : ExtendedConfig) : ServerEntry :=
  if knowsMeek config.capabilities then { entry with
    meekServerPort := config.meekServerPort
    meekObfuscatedKey := utf8 config.meekObfuscatedKey
    meekCookieEncryptionPublicKey := utf8 config.meekCookieEncryptionPublicKey }
  else { entry with
    meekServerPort := -1, meekObfuscatedKey := [], meekCookieEncryptionPublicKey := [] }

def readFronting (entry : ServerEntry) (config : ExtendedConfig) : ServerEntry :=
  if config.capabilities.contains .frontedMeek then { entry with
    meekFrontingDomain := utf8 config.meekFrontingDomain
    meekFrontingHost := utf8 config.meekFrontingHost
    meekFrontingAddressesRegex := (config.meekFrontingAddressesRegex.map utf8).getD []
    meekFrontingAddresses := ((config.meekFrontingAddresses.getD []).map utf8).filter (· ≠ []) }
  else { entry with
    meekFrontingDomain := [], meekFrontingHost := [], meekFrontingAddressesRegex := [],
    meekFrontingAddresses := [] }

def readEntry (base : ServerEntry) (config : ExtendedConfig) : ServerEntry :=
  readFronting (readMeek (readBase base config) config) config

structure IntPorts (config : ExtendedConfig) : Prop where
  ssh : IsInt config.sshPort
  ossh : IsInt config.sshObfuscatedPort
  meek : knowsMeek config.capabilities = true → IsInt config.meekServerPort

section Reading

variable {config : ExtendedConfig}

theorem jsonGet_field (field : Field) (d : Value) :
    jsonGet (.obj (extendedMembers config)) field.key d = .ok ((field.sent config).getD d) := by
  rw [jsonGet,findMember_field]
  rfl

theorem jsonText_field (field : Field) : jsonText (.obj (extendedMembers config)) field.key =
    asString ((field.sent config).getD (.str [])) := by
  rw [jsonText,jsonGet_field]
  rfl

theorem jsonText_fixed {key : String} (text : String)
    (h : (ascii key, textValue text) ∈ fixedMembers config) :
    jsonText (.obj (extendedMembers config)) key = .ok (utf8 text) := by
  rw [jsonText,jsonGet,findMember_fixed config h]
  rfl

theorem jsonInt_fixed {key : String} (n : ℤ) (h : (ascii key, .int n) ∈ fixedMembers config) :
    jsonInt (.obj (extendedMembers config)) key = asInt (.int n) := by
  rw [jsonInt,jsonGet,findMember_fixed config h]
  rfl

theorem asInt_eq_ok_iff {n m : ℤ} : asInt (.int n) = .ok m ↔ IsInt n ∧ n = m := by
  rw [asInt]
  split
  · rename_i h
    exact ⟨fun heq => ⟨h,Except.ok.inj heq⟩,fun heq => congrArg _ heq.2⟩
  · rename_i h
    exact ⟨nofun,fun heq => absurd heq.1 h⟩

theorem jsonStrings_arr (t : List Bytes) :
    jsonStrings (.arr (t.map .str)) = .ok (t.filter (· ≠ [])) := by
  have hm : (t.map .str).mapM asString = .ok t := by
    induction t with
    | nil => rfl
    | cons text t ih => rw [map_cons,mapM_cons,ih]; rfl
  show (List.mapM asString _ >>= fun strings => _) = _
  rw [hm]
  rfl

theorem jsonText_region : jsonText (.obj (extendedMembers config)) "region" =
    .ok ((config.region.map utf8).getD []) := by
  refine (jsonText_field .region).trans ?_
  rw [Field.sent]
  cases config.region <;> rfl

theorem jsonText_regex : jsonText (.obj (extendedMembers config)) "meekFrontingAddressesRegex" =
    .ok ((config.meekFrontingAddressesRegex.map utf8).getD []) := by
  refine (jsonText_field .meekFrontingAddressesRegex).trans ?_
  rw [Field.sent]
  cases config.meekFrontingAddressesRegex <;> rfl

theorem jsonStrings_field (field : Field) (d : Value) :
    (jsonGet (.obj (extendedMembers config)) field.key d >>= jsonStrings) =
      jsonStrings ((field.sent config).getD d) := by
  rw [jsonGet_field]
  rfl

theorem jsonStrings_addresses :
    (jsonGet (.obj (extendedMembers config)) "meekFrontingAddresses" (.arr []) >>= jsonStrings) =
      .ok (((config.meekFrontingAddresses.getD []).map utf8).filter (· ≠ [])) := by
  refine (jsonStrings_field .meekFrontingAddresses _).trans ?_
  rw [Field.sent]
  cases config.meekFrontingAddresses with
  | none => rfl
  | some t =>
    have ht : textsValue t = .arr ((t.map utf8).map .str) := by
      simp [textsValue,textValue]
    show jsonStrings (textsValue t) = _
    rw [ht,jsonStrings_arr]
    rfl

/-- No key of a capability is empty, so that all of them are read. -/
theorem jsonStrings_capabilities :
    (jsonGet (.obj (extendedMembers config)) "capabilities" defaultCapabilities >>= jsonStrings) =
      .ok (config.capabilities.map fun capability => ascii (capabilityKey capability)) := by
  have hf : (config.capabilities.map fun c => ascii (capabilityKey c)).filter (· ≠ []) =
      config.capabilities.map fun c => ascii (capabilityKey c) := by
    refine filter_eq_self.mpr fun text ht => ?_
    obtain ⟨c,-,rfl⟩ := mem_map.mp ht
    cases c <;> decide
  have ha := jsonStrings_arr (config.capabilities.map fun c => ascii (capabilityKey c))
  rw [map_map] at ha
  exact (jsonStrings_field .capabilities _).trans (ha.trans (congrArg _ hf))

theorem capabilityKey_injective {c d : Capability}
    (h : ascii (capabilityKey c) = ascii (capabilityKey d)) : c = d := by
  have ha : ∀ c : Capability, c ∈ Capability.all := by intro c; cases c <;> decide
  have hk : ∀ c ∈ Capability.all, ∀ d ∈ Capability.all,
      ascii (capabilityKey c) = ascii (capabilityKey d) → c = d := by decide +kernel
  exact hk c (ha c) d (ha d) h

theorem hasCapability_iff (entry : ServerEntry) (capability : Capability) (hc : entry.capabilities =
      config.capabilities.map fun capability => ascii (capabilityKey capability)) :
    entry.hasCapability (capabilityKey capability) = config.capabilities.contains capability := by
  have hk : ∀ c, ascii (capabilityKey c) = ascii (capabilityKey capability) ↔ c = capability :=
    fun c => ⟨capabilityKey_injective,fun h => h ▸ rfl⟩
  rw [ServerEntry.hasCapability,hc,Bool.eq_iff_iff]
  simp [hk]

theorem extendMeek_eq_ok_iff {entry entry' : ServerEntry} (hc : entry.capabilities =
      config.capabilities.map fun capability => ascii (capabilityKey capability)) :
    extendMeek entry (.obj (extendedMembers config)) = .ok entry' ↔
      (knowsMeek config.capabilities = true → IsInt config.meekServerPort) ∧
        entry' = readMeek entry config := by
  have hcap := fun capability => hasCapability_iff entry capability hc
  -- the keys of the source are those of the capabilities
  rw [extendMeek,show "FRONTED-MEEK" = capabilityKey .frontedMeek from rfl,
    show "UNFRONTED-MEEK" = capabilityKey .unfrontedMeek from rfl,
    show "UNFRONTED-MEEK-HTTPS" = capabilityKey .unfrontedMeekHttps from rfl,hcap,hcap,hcap,
    ← knowsMeek]
  rw [jsonInt_fixed config.meekServerPort (by simp [fixedMembers]),
    jsonText_fixed config.meekObfuscatedKey (by simp [fixedMembers]),
    jsonText_fixed config.meekCookieEncryptionPublicKey (by simp [fixedMembers]),
    readMeek]
  cases knowsMeek config.capabilities with
  | true =>
    simp only [if_true,Fallible.bind_eq_ok_iff,asInt_eq_ok_iff,Fallible.ok_bind,true_implies]
    constructor
    · rintro ⟨port,⟨hi,rfl⟩,heq⟩
      exact ⟨hi,(Except.ok.inj heq).symm⟩
    · rintro ⟨hi,rfl⟩
      exact ⟨_,⟨hi,rfl⟩,rfl⟩
  | false =>
    refine ⟨fun heq => ⟨fun ho => absurd ho Bool.false_ne_true,(Except.ok.inj heq).symm⟩,?_⟩
    rintro ⟨-,rfl⟩
    rfl

theorem extendFronting_eq {entry : ServerEntry} (hc : entry.capabilities =
      config.capabilities.map fun capability => ascii (capabilityKey capability)) :
    extendFronting entry (.obj (extendedMembers config)) = .ok (readFronting entry config) := by
  rw [extendFronting,show "FRONTED-MEEK" = capabilityKey .frontedMeek from rfl,
    hasCapability_iff entry .frontedMeek hc]
  rw [jsonText_fixed config.meekFrontingDomain (by simp [fixedMembers]),
    jsonText_fixed config.meekFrontingHost (by simp [fixedMembers]),jsonText_regex,
    jsonStrings_addresses,readFronting]
  split <;> rfl

/-- The client reads an entry exactly when the numbers it reads are `int`s. -/
theorem extend_eq_ok_iff {base entry : ServerEntry} :
    extend base (.obj (extendedMembers config)) = .ok entry ↔
      IntPorts config ∧ entry = readEntry base config := by
  rw [extend,jsonText_region,jsonStrings_capabilities,
    jsonInt_fixed config.sshPort (by simp [fixedMembers]),
    jsonText_fixed config.sshUsername (by simp [fixedMembers]),
    jsonText_fixed config.sshPassword (by simp [fixedMembers]),
    jsonText_fixed config.sshHostKey (by simp [fixedMembers]),
    jsonInt_fixed config.sshObfuscatedPort (by simp [fixedMembers]),
    jsonText_fixed config.sshObfuscatedKey (by simp [fixedMembers])]
  simp only [Fallible.ok_bind,Fallible.bind_eq_ok_iff,asInt_eq_ok_iff]
  have hc : (readMeek (readBase base config) config).capabilities =
      config.capabilities.map fun capability => ascii (capabilityKey capability) := by
    rw [readMeek]
    split <;> rfl
  constructor
  · rintro ⟨ssh,⟨hssh,rfl⟩,ossh,⟨ho,rfl⟩,meek,hm,hf⟩
    obtain ⟨hint,rfl⟩ := (extendMeek_eq_ok_iff rfl).mp hm
    have hr := (extendFronting_eq hc).symm.trans hf
    exact ⟨⟨hssh,ho,hint⟩,(Except.ok.inj hr).symm⟩
  · rintro ⟨hp,rfl⟩
    exact ⟨_,⟨hp.ssh,rfl⟩,_,⟨hp.ossh,rfl⟩,_,
      (extendMeek_eq_ok_iff rfl).mpr ⟨hp.meek,rfl⟩,extendFronting_eq hc⟩

end Reading

end Psiphon.Client
