import Psiphon.Client.EntrySurvival

/-!
# Server entries that are read twice

An entry that was read with extended values is written as a text that is read as the same entry.
-/

namespace Psiphon.Client

open List Fallible Json ServerEntry

variable {platform : Platform}

structure WritesJson (platform : Platform) : Prop where
  parse_write : ∀ value, platform.parse (platform.write value) = some value
  write_text : ∀ value, 0 ∉ platform.write value ∧ platform.write value ≠ []

def extendedText (text : Bytes) : Option Bytes := do
  let (_, text) ← getline space text
  let (_, text) ← getline space text
  let (_, text) ← getline space text
  let (_, text) ← getline space text
  let (item, _) ← getline 0 text
  return item

namespace ServerEntry

def usesMeek (entry : ServerEntry) : Bool :=
  entry.hasCapability "FRONTED-MEEK" || entry.hasCapability "UNFRONTED-MEEK" ||
    entry.hasCapability "UNFRONTED-MEEK-HTTPS"

def settled (entry : ServerEntry) : ServerEntry :=
  if entry.usesMeek then entry else { entry with meekServerPort := -1 }

structure WellRead (entry : ServerEntry) : Prop where
  plain : space ∉ entry.serverAddress ∧ space ∉ entry.webServerSecret ∧
    space ∉ entry.webServerCertificate
  ports : IsInt entry.webServerPort ∧ IsInt entry.sshPort ∧ IsInt entry.sshObfuscatedPort
  capabilities : [] ∉ entry.capabilities
  meek : entry.usesMeek = true → IsInt entry.meekServerPort
  noMeek : entry.usesMeek = false →
    entry.meekObfuscatedKey = [] ∧ entry.meekCookieEncryptionPublicKey = []
  fronting : entry.hasCapability "FRONTED-MEEK" = true → [] ∉ entry.meekFrontingAddresses
  noFronting : entry.hasCapability "FRONTED-MEEK" = false →
    entry.meekFrontingDomain = [] ∧ entry.meekFrontingHost = [] ∧
      entry.meekFrontingAddressesRegex = [] ∧ entry.meekFrontingAddresses = []

end ServerEntry

/-! ### What is read -/

section Reading

variable {json : Value} {key : String} {base entry : ServerEntry} {text : Bytes}

theorem isInt_of_jsonInt {n : ℤ} (h : jsonInt json key = .ok n) : IsInt n := by
  obtain ⟨value,-,hv⟩ := bind_eq_ok_iff.mp h
  cases value with
  | int m =>
    obtain ⟨hi,rfl⟩ := asInt_eq_ok_iff.mp hv
    exact hi
  | null =>
    cases hv
    decide
  | bool b =>
    cases b <;> cases hv <;> decide
  | real r => exact r.elim
  | str s => cases hv
  | arr items => cases hv
  | obj members => cases hv

theorem nil_notMem_of_jsonStrings {value : Value} {t : List Bytes}
    (h : jsonStrings value = .ok t) : [] ∉ t := by
  obtain ⟨items,-,h⟩ := bind_eq_ok_iff.mp h
  obtain ⟨strings,-,h⟩ := bind_eq_ok_iff.mp h
  cases h
  simp

theorem isInt_zero : IsInt 0 := by decide

theorem isInt_strtol (text : Bytes) : IsInt (strtol text) := by
  simp only [strtol,IsInt]
  split <;> omega

theorem extendMeek_cases (h : extendMeek base json = .ok entry) :
    (∃ port key cookie, jsonInt json "meekServerPort" = .ok port ∧ base.usesMeek = true ∧
      entry = { base with
        meekServerPort := port, meekObfuscatedKey := key,
        meekCookieEncryptionPublicKey := cookie }) ∨
    base.usesMeek = false ∧ entry = { base with
      meekServerPort := -1, meekObfuscatedKey := [], meekCookieEncryptionPublicKey := [] } := by
  rw [extendMeek] at h
  split at h
  · rename_i hmeek
    simp only [bind_eq_ok_iff] at h
    obtain ⟨port,hport,key,-,cookie,-,h⟩ := h
    cases h
    exact .inl ⟨port,key,cookie,hport,hmeek,rfl⟩
  · rename_i hmeek
    cases h
    exact .inr ⟨Bool.eq_false_iff.mpr hmeek,rfl⟩

theorem extendFronting_cases (h : extendFronting base json = .ok entry) :
    (∃ d host r addresses, [] ∉ addresses ∧ base.hasCapability "FRONTED-MEEK" = true ∧
      entry = { base with
        meekFrontingDomain := d, meekFrontingHost := host,
        meekFrontingAddressesRegex := r, meekFrontingAddresses := addresses }) ∨
    base.hasCapability "FRONTED-MEEK" = false ∧ entry = { base with
      meekFrontingDomain := [], meekFrontingHost := [], meekFrontingAddressesRegex := [],
      meekFrontingAddresses := [] } := by
  rw [extendFronting] at h
  split at h
  · rename_i hf
    simp only [bind_eq_ok_iff] at h
    obtain ⟨d,-,host,-,r,-,addresses,⟨value,-,ha⟩,h⟩ := h
    cases h
    exact .inl ⟨d,host,r,addresses,nil_notMem_of_jsonStrings ha,hf,rfl⟩
  · rename_i hf
    cases h
    exact .inr ⟨Bool.eq_false_iff.mpr hf,rfl⟩

theorem wellRead_extend (hp : space ∉ base.serverAddress ∧ space ∉ base.webServerSecret ∧
      space ∉ base.webServerCertificate) (hport : IsInt base.webServerPort)
    (h : extend base json = .ok entry) : entry.WellRead ∧ entry.settled = entry := by
  simp only [extend,bind_eq_ok_iff] at h
  obtain ⟨region,-,ssh,hssh,user,-,password,-,host,-,ossh,hossh,key,-,caps,
    ⟨value,-,hcaps⟩,meek,hmeek,hfr⟩ := h
  have hpo := And.intro hport (And.intro (isInt_of_jsonInt hssh) (isInt_of_jsonInt hossh))
  have hn := nil_notMem_of_jsonStrings hcaps
  have hc := extendFronting_cases hfr
  rcases extendMeek_cases hmeek with ⟨mport,mkey,cookie,hm,hk,rfl⟩ | ⟨hk,rfl⟩
  · rcases hc with ⟨d,f,r,addresses,ha,hf,rfl⟩ | ⟨hf,rfl⟩
    · exact ⟨⟨hp,hpo,hn,fun _ => isInt_of_jsonInt hm,
        fun hoff => absurd hk (Bool.eq_false_iff.mp hoff),fun _ => ha,
        fun hoff => absurd hf (Bool.eq_false_iff.mp hoff)⟩,if_pos hk⟩
    · exact ⟨⟨hp,hpo,hn,fun _ => isInt_of_jsonInt hm,
        fun hoff => absurd hk (Bool.eq_false_iff.mp hoff),
        fun hon => absurd hon (Bool.eq_false_iff.mp hf),fun _ => ⟨rfl,rfl,rfl,rfl⟩⟩,
        if_pos hk⟩
  · rcases hc with ⟨d,f,r,addresses,ha,hf,rfl⟩ | ⟨hf,rfl⟩
    · exact ⟨⟨hp,hpo,hn,fun hon => absurd hon (Bool.eq_false_iff.mp hk),
        fun _ => ⟨rfl,rfl⟩,fun _ => ha,
        fun hoff => absurd hf (Bool.eq_false_iff.mp hoff)⟩,ite_self _⟩
    · exact ⟨⟨hp,hpo,hn,fun hon => absurd hon (Bool.eq_false_iff.mp hk),
        fun _ => ⟨rfl,rfl⟩,fun hon => absurd hon (Bool.eq_false_iff.mp hf),
        fun _ => ⟨rfl,rfl,rfl,rfl⟩⟩,ite_self _⟩

theorem fromText_cases (h : fromText platform text = .ok entry) :
    ∃ base : ServerEntry, (∃ a port s c, space ∉ a ∧ space ∉ s ∧ space ∉ c ∧
        base = legacyEntry platform a (strtol port) s c) ∧
      (extendedText text = none ∧ entry = base ∨
        ∃ item json, extendedText text = some item ∧ platform.parse item = some json ∧
          extend base json = .ok entry) := by
  simp only [fromText,bind_eq_ok_iff] at h
  obtain ⟨⟨a,text₁⟩,ha,⟨port,text₂⟩,hp,⟨s,text₃⟩,hs, ⟨c,text₄⟩,hc,h⟩ := h
  have ha := legacyItem_eq_ok ha
  have hp := legacyItem_eq_ok hp
  have hs := legacyItem_eq_ok hs
  have hc := legacyItem_eq_ok hc
  have he : extendedText text = (getline 0 text₄).map Prod.fst := by
    rw [extendedText,ha]
    simp only [Option.bind_eq_bind,Option.bind_some,hp,hs,hc]
    cases getline 0 text₄ <;> rfl
  refine ⟨_,⟨a,port,s,c,notMem_of_getline ha, notMem_of_getline hs,notMem_of_getline hc,rfl⟩,?_⟩
  split at h
  · rename_i hn
    cases h
    exact .inl ⟨by rw [he,hn]; rfl,rfl⟩
  · rename_i item rest hso
    split at h
    · cases h
    · rename_i json hj
      split at h
      · rename_i hex
        cases h
        exact .inr ⟨item,json,by rw [he,hso]; rfl,hj,hex⟩
      · cases h

theorem wellRead_legacyEntry {a port s c : Bytes} (ha : space ∉ a)
    (hs : space ∉ s) (hc : space ∉ c) : (legacyEntry platform a (strtol port) s c).WellRead :=
  ⟨⟨ha,hs,hc⟩,⟨isInt_strtol port,isInt_zero,isInt_zero⟩,nofun,nofun,
    fun _ => ⟨rfl,rfl⟩,nofun,fun _ => ⟨rfl,rfl,rfl,rfl⟩⟩

theorem wellRead_of_fromText (h : fromText platform text = .ok entry) : entry.WellRead := by
  obtain ⟨base,⟨address,port,secret,certificate,ha,hs,hc,rfl⟩,
    ⟨-,rfl⟩ | ⟨item,json,-,-,he⟩⟩ := fromText_cases h
  · exact wellRead_legacyEntry ha hs hc
  · exact (wellRead_extend ⟨ha,hs,hc⟩ (isInt_strtol port) he).1

end Reading

/-! ### What is written -/

section Writing

variable {entry : ServerEntry}

theorem not_isCSpace_of_isDigit {c : UInt8} (h : isDigit c = true) : ¬ isCSpace c = true := by
  simp only [isDigit,Bool.and_eq_true,decide_eq_true_eq,UInt8.le_iff_toNat_le] at h
  simp only [isCSpace,Bool.or_eq_true,Bool.and_eq_true,beq_iff_eq,decide_eq_true_eq,
    UInt8.le_iff_toNat_le,← UInt8.toNat_inj]
  have hdigits : (48 : UInt8).toNat = 48 ∧ (32 : UInt8).toNat = 32 ∧ (13 : UInt8).toNat = 13 := by
    decide
  omega

theorem strtol_printInt {n : ℤ} (h : IsInt n) : strtol (printInt n) = n := by
  have hd : ∀ m : ℕ, (printNat m).takeWhile isDigit = printNat m :=
    fun m => takeWhile_eq_self_iff.mpr fun c hc => isDigit_of_mem_printNat hc
  obtain ⟨hlow,hh⟩ := h
  cases n with
  | negSucc m =>
    show max (-(2 ^ 31)) (-(numberOf ((printNat (m + 1)).takeWhile isDigit) : ℤ)) = _
    rw [hd,numberOf_printNat]
    omega
  | ofNat m =>
    have hs : (printNat m).dropWhile isCSpace = printNat m := by
      refine dropWhile_eq_self_iff.mpr fun hpos => ?_
      exact not_isCSpace_of_isDigit (isDigit_of_mem_printNat (getElem_mem hpos))
    have hn : min (2 ^ 31 - 1) ((numberOf ((printNat m).takeWhile isDigit)) : ℤ) = Int.ofNat m := by
      rw [hd,numberOf_printNat]
      rw [Int.ofNat_eq_natCast] at hh ⊢
      omega
    show strtol (printNat m) = _
    rw [strtol,hs]
    split
    · rename_i digits hm
      have hdi : isDigit 45 = true :=
        isDigit_of_mem_printNat (hm ▸ mem_cons_self)
      exact absurd hdi (by decide)
    · rename_i digits hp
      have hdi : isDigit 43 = true :=
        isDigit_of_mem_printNat (hp ▸ mem_cons_self)
      exact absurd hdi (by decide)
    · exact hn

theorem nodup_members (entry : ServerEntry) : (entry.members.map Prod.fst).Nodup := by
  simp only [members,map_cons,map_nil]
  decide +kernel

theorem jsonText_member {key : String} (value : Bytes)
    (h : (ascii key, .str value) ∈ entry.members) :
    jsonText (.obj entry.members) key = .ok value := by
  rw [jsonText,jsonGet,findMember_of_mem (nodup_members entry) h]
  rfl

theorem jsonInt_member {key : String} {n : ℤ} (h : (ascii key, .int n) ∈ entry.members)
    (hi : IsInt n) : jsonInt (.obj entry.members) key = .ok n := by
  rw [jsonInt,jsonGet,findMember_of_mem (nodup_members entry) h]
  exact asInt_eq_ok_iff.mpr ⟨hi,rfl⟩

theorem jsonStrings_member {key : String} {t : List Bytes}
    (h : (ascii key, .arr (t.map .str)) ∈ entry.members) (hn : [] ∉ t) (d : Value) :
    (jsonGet (.obj entry.members) key d >>= jsonStrings) = .ok t := by
  have hf : t.filter (· ≠ []) = t := by
    refine filter_eq_self.mpr fun text ht => ?_
    simp only [ne_eq,decide_not,Bool.not_eq_true',decide_eq_false_iff_not]
    rintro rfl
    exact hn ht
  rw [jsonGet,findMember_of_mem (nodup_members entry) h]
  exact (jsonStrings_arr t).trans (congrArg _ hf)

theorem extendMeek_members (h : entry.WellRead) {base : ServerEntry}
    (hcaps : base.capabilities = entry.capabilities) :
    extendMeek base (.obj entry.members) = .ok { base with
      meekServerPort := entry.settled.meekServerPort
      meekObfuscatedKey := entry.meekObfuscatedKey
      meekCookieEncryptionPublicKey := entry.meekCookieEncryptionPublicKey } := by
  have hmeek : base.usesMeek = entry.usesMeek := by
    simp only [usesMeek,hasCapability,hcaps]
  rw [extendMeek,← usesMeek,hmeek,settled]
  cases hk : entry.usesMeek with
  | true =>
    rw [jsonInt_member (by simp [members]) (h.meek hk),
      jsonText_member entry.meekObfuscatedKey (by simp [members]),
      jsonText_member entry.meekCookieEncryptionPublicKey (by simp [members])]
    rfl
  | false =>
    obtain ⟨hkey,hc⟩ := h.noMeek hk
    rw [hkey,hc]
    rfl

theorem extendFronting_members (h : entry.WellRead) {base : ServerEntry}
    (hcaps : base.capabilities = entry.capabilities) :
    extendFronting base (.obj entry.members) = .ok { base with
      meekFrontingDomain := entry.meekFrontingDomain
      meekFrontingHost := entry.meekFrontingHost
      meekFrontingAddressesRegex := entry.meekFrontingAddressesRegex
      meekFrontingAddresses := entry.meekFrontingAddresses } := by
  have hf : base.hasCapability "FRONTED-MEEK" = entry.hasCapability "FRONTED-MEEK" := by
    simp only [hasCapability,hcaps]
  rw [extendFronting,hf]
  cases hk : entry.hasCapability "FRONTED-MEEK" with
  | true =>
    rw [jsonText_member entry.meekFrontingDomain (by simp [members]),
      jsonText_member entry.meekFrontingHost (by simp [members]),
      jsonText_member entry.meekFrontingAddressesRegex (by simp [members]),
      jsonStrings_member (by simp [members]) (h.fronting hk)]
    rfl
  | false =>
    obtain ⟨hd,hhost,hr,ha⟩ := h.noFronting hk
    rw [hd,hhost,hr,ha]
    rfl

theorem extend_members (h : entry.WellRead) (base : ServerEntry)
    (hbase : base.legacy = entry.legacy) :
    extend base (.obj entry.members) = .ok entry.settled := by
  obtain ⟨-,hssh,hossh⟩ := h.ports
  rw [extend,jsonText_member entry.region (by simp [members]),
    jsonInt_member (by simp [members]) hssh,
    jsonText_member entry.sshUsername (by simp [members]),
    jsonText_member entry.sshPassword (by simp [members]),
    jsonText_member entry.sshHostKey (by simp [members]),
    jsonInt_member (by simp [members]) hossh,
    jsonText_member entry.sshObfuscatedKey (by simp [members]),
    jsonStrings_member (by simp [members]) h.capabilities]
  simp only [ok_bind]
  rw [extendMeek_members h ?meek,ok_bind,extendFronting_members h ?fronting]
  case meek => rfl
  case fronting => rfl
  simp only [legacy,Prod.mk.injEq] at hbase
  obtain ⟨ha,hport,hs,hcert⟩ := hbase
  rw [settled,ha,hport,hs,hcert]
  split <;> rfl

/-- What `FromString` reads from what `ToString` wrote. -/
theorem fromText_toText (hj : WritesJson platform) (h : entry.WellRead) :
    fromText platform (entry.toText platform) = .ok entry.settled := by
  obtain ⟨ha,hs,hc⟩ := h.plain
  obtain ⟨hz,ht⟩ := hj.write_text (.obj entry.members)
  rw [toText,fromText_items ha (space_notMem_printInt _) hs hc
    hz ht (hj.parse_write _),strtol_printInt h.ports.1]
  exact extend_members h _ rfl

@[simp] theorem webServerCertificate_settled (entry : ServerEntry) :
    entry.settled.webServerCertificate = entry.webServerCertificate := by
  rw [settled]
  split <;> rfl

theorem parseServerEntries_settled (hj : WritesJson platform) {list : List ServerEntry}
    (h : ∀ entry ∈ list, entry.WellRead ∧ entry.webServerCertificate ≠ ascii "None") :
    parseServerEntries platform (encodeServerEntries platform list) =
      .ok (list.map settled) := by
  have hr : (list.mapM fun entry => fromText platform (entry.toText platform)) =
      .ok (list.map settled) := by
    induction list with
    | nil => rfl
    | cons entry list ih =>
      obtain ⟨he,hl⟩ := forall_mem_cons.mp h
      rw [mapM_cons,fromText_toText hj he.1,ih hl]
      rfl
  rw [parseServerEntries_encode,hr,ok_bind]
  refine congrArg Except.ok (filter_eq_self.mpr fun entry hm => ?_)
  obtain ⟨s,hs,rfl⟩ := mem_map.mp hm
  simpa using (h s hs).2

theorem wellRead_of_parse {text : Bytes} {list : List ServerEntry}
    (h : parseServerEntries platform text = .ok list) :
    ∀ entry ∈ list, entry.WellRead ∧ entry.webServerCertificate ≠ ascii "None" := by
  obtain ⟨entries,he,hl⟩ := bind_eq_ok_iff.mp h
  cases hl
  intro entry hm
  obtain ⟨hm,hc⟩ := mem_filter.mp hm
  obtain ⟨line,-,hli⟩ := exists_of_mem_mapM he hm
  obtain ⟨text,-,ht⟩ := bind_eq_ok_iff.mp hli
  exact ⟨wellRead_of_fromText ht,by simpa using hc⟩

end Writing

/-! ### Fixed points -/

def HasMember (json : Value) (key : String) : Prop :=
  ∃ members value, json = .obj members ∧ findMember members key = some value

def NamesNoCapabilities (platform : Platform) (text : Bytes) : Prop :=
  ∀ item ∈ extendedText text, ∀ json ∈ platform.parse item, ¬ HasMember json "capabilities"

def fourCapabilities : List Bytes := [ascii "OSSH", ascii "SSH", ascii "VPN", ascii "handshake"]

/-- The entry is read again from its own text, and has the default capabilities when its text names
none. -/
structure Settles (platform : Platform) (text : Bytes) (entry : ServerEntry) : Prop where
  again : fromText platform (entry.toText platform) = .ok entry
  defaults : NamesNoCapabilities platform text → entry.capabilities = fourCapabilities

theorem capabilities_extend {base entry : ServerEntry} {json : Value}
    (h : extend base json = .ok entry) :
    (jsonGet json "capabilities" defaultCapabilities >>= jsonStrings) = .ok entry.capabilities := by
  simp only [extend,bind_eq_ok_iff] at h
  obtain ⟨region,-,ssh,-,user,-,password,-,host,-,ossh,-,key,-,caps,hcaps,meek, hmeek,hf⟩ := h
  have hsame : entry.capabilities = caps := by
    rcases extendMeek_cases hmeek with ⟨_,_,_,-,-,rfl⟩ | ⟨-,rfl⟩ <;>
      rcases extendFronting_cases hf with ⟨_,_,_,_,-,-,rfl⟩ | ⟨-,rfl⟩ <;> rfl
  rw [hsame]
  exact bind_eq_ok_iff.mpr hcaps

theorem capabilities_of_not_hasMember {base entry : ServerEntry} {json : Value}
    (h : extend base json = .ok entry) (hn : ¬ HasMember json "capabilities") :
    entry.capabilities = fourCapabilities := by
  have hc := capabilities_extend h
  have hget : jsonGet json "capabilities" defaultCapabilities = .ok defaultCapabilities ∨
      ∃ e, jsonGet json "capabilities" defaultCapabilities = .error e := by
    cases json with
    | null => exact .inl rfl
    | obj members =>
      have hm : findMember members "capabilities" = none := by
        by_contra hs
        obtain ⟨value,hv⟩ := Option.ne_none_iff_exists'.mp hs
        exact hn ⟨members,value,rfl,hv⟩
      rw [jsonGet,hm]
      exact .inl rfl
    | bool b => exact .inr ⟨_,rfl⟩
    | int n => exact .inr ⟨_,rfl⟩
    | real r => exact r.elim
    | str s => exact .inr ⟨_,rfl⟩
    | arr items => exact .inr ⟨_,rfl⟩
  have hd : jsonStrings defaultCapabilities = .ok fourCapabilities := by
    refine (jsonStrings_arr fourCapabilities).trans ?_
    decide +kernel
  rcases hget with hget | ⟨e,hget⟩
  · rw [hget,ok_bind,hd] at hc
    exact (Except.ok.inj hc).symm
  · rw [hget] at hc
    cases hc

/-- An entry is a fixed point with the default capabilities exactly when its text has extended
values. -/
theorem settles_iff (hjson : WritesJson platform) {text : Bytes} {entry : ServerEntry}
    (h : fromText platform text = .ok entry) :
    Settles platform text entry ↔ extendedText text ≠ none := by
  have hr := fromText_toText hjson (wellRead_of_fromText h)
  obtain ⟨base,⟨address,port,secret,certificate,ha,hsec,hc,rfl⟩,
    ⟨hno,rfl⟩ | ⟨item,json,hi,hp,he⟩⟩ := fromText_cases h
  · refine iff_of_false (fun hs => ?_) fun hso => hso hno
    have hca := hs.defaults fun item hi => by
      rw [hno] at hi
      cases hi
    exact absurd hca nofun
  · refine iff_of_true ⟨?_,fun hn => ?_⟩ (by rw [hi]; nofun)
    · obtain ⟨-,hse⟩ :=
        wellRead_extend ⟨ha,hsec,hc⟩ (isInt_strtol port) he
      rwa [hse] at hr
    · exact capabilities_of_not_hasMember he (hn item hi json hp)

theorem writesJson_reference : WritesJson referencePlatform where
  parse_write := roundTrips_reference.parse_write
  write_text json := by
    refine ⟨fun hz => ?_,by simp [referencePlatform]⟩
    rcases mem_append.mp hz with hz | hz
    · exact absurd (le_of_mem_print hz) (by decide)
    · exact absurd (mem_singleton.mp hz) (by decide)

def regionText : Bytes := ascii "1.2.3.4 8080 secret cert \x7b\"region\":\"US\"\x7d"

theorem settles_region : ∃ entry, fromText referencePlatform regionText = .ok entry ∧
    Settles referencePlatform regionText entry := by
  obtain ⟨entry,he⟩ : ∃ entry, fromText referencePlatform regionText = .ok entry :=
    ⟨_,rfl⟩
  exact ⟨entry,he,(settles_iff writesJson_reference he).mpr (by decide +kernel)⟩

def legacyText : Bytes := ascii "1.2.3.4 8080 secret cert"

/-- A text without extended values: no capability, and another port when it is read again. -/
theorem legacy_text_not_settled :
    ∃ entry, fromText referencePlatform legacyText = .ok entry ∧ entry.capabilities = [] ∧
      entry.meekServerPort = 0 ∧
      fromText referencePlatform (entry.toText referencePlatform) =
        .ok { entry with meekServerPort := -1 } ∧
      ¬ Settles referencePlatform legacyText entry := by
  have he : fromText referencePlatform legacyText = .ok (legacyEntry referencePlatform
    (ascii "1.2.3.4") 8080 (ascii "secret") (ascii "cert")) := by decide +kernel
  have ha := fromText_toText writesJson_reference (wellRead_of_fromText he)
  refine ⟨_,he,rfl,rfl,ha,fun hs => ?_⟩
  have hp := congrArg meekServerPort (Except.ok.inj (hs.again.symm.trans ha))
  exact absurd hp (by decide)

end Psiphon.Client
