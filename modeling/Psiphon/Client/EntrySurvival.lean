import Psiphon.Client.EntryRoundTrip

/-!
# Which fields survive the Windows client

What is lost is lost in parsing.
-/

namespace Psiphon.Client

open List
open Json (Bytes Value ascii)
open Ops (Capability ExtendedConfig EncodedServerEntry)

variable {platform : Platform} {dumps : Value → Bytes}

/-! ### Encoding -/

theorem extendedOf_items {a port s c text : Bytes} (ha : space ∉ a)
    (hpo : space ∉ port) (hs : space ∉ s) (hc : space ∉ c)
    {members : List (Bytes × Value)} (hp : platform.parse text = some (.obj members)) :
    extendedOf platform (a ++ space :: port ++ space :: s ++ space :: c ++
      space :: text) = some members := by
  simp only [extendedOf,append_assoc,cons_append,getline_append ha,
    getline_append hpo,getline_append hs,getline_append hc,hp,
    Option.bind_eq_bind,Option.bind_some]

theorem storedMembers_encode (entry : ServerEntry) :
    storedMembers platform (encodeServerEntries platform [entry]) =
      extendedOf platform (entry.toText platform) := by
  rw [storedMembers,encodeServerEntries_cons,getline_append (notMem_hexlify (by decide) _)]
  simp only [Option.bind_eq_bind,Option.bind_some,dehexlify_hexlify,Except.toOption]

theorem parseServerEntry_encodedEntry (entry : EncodedServerEntry) :
    parseServerEntry platform (encodedEntry dumps entry) =
      fromText platform (entryText dumps entry) := by
  have hd : ∀ d < 16, Json.hexValue (lowerHexDigit d) = some d := by decide
  rw [parseServerEntry,encodedEntry,dehexlify_hexlifyWith hd]
  rfl

theorem storedMembers_of_fromText (hr : RoundTrips platform dumps) {text : Bytes}
    {parsed : ServerEntry} (h : fromText platform text = .ok parsed) :
    storedMembers platform (encodeServerEntries platform [parsed]) = some parsed.members := by
  obtain ⟨ha,hs,hc⟩ := space_notMem_of_fromText h
  rw [storedMembers_encode,ServerEntry.toText]
  exact extendedOf_items ha (space_notMem_printInt _) hs hc (hr.parse_write _)

def KeepsUsed (config : ExtendedConfig) (parsed : ServerEntry) : Prop :=
  ∀ field, Used config field → ∀ value, field.sent config = some value →
    field.kept parsed = some value

/-- An entry survives when it survives being parsed. -/
theorem survives_iff_parsed (hr : RoundTrips platform dumps) (entry : EncodedServerEntry) :
    Survives platform dumps entry ↔
      ∃ parsed, fromText platform (entryText dumps entry) = .ok parsed ∧
        KeepsUsed entry.extendedConfig parsed := by
  simp only [Survives,parseServerEntry_encodedEntry,findMember_field]
  constructor
  · rintro ⟨parsed,members,hp,hm,hk⟩
    obtain rfl := Option.some.inj ((storedMembers_of_fromText hr hp).symm.trans hm)
    simp only [findMember_members] at hk
    exact ⟨parsed,hp,hk⟩
  · rintro ⟨parsed,hp,hk⟩
    refine ⟨parsed,parsed.members,hp,storedMembers_of_fromText hr hp,?_⟩
    simp only [findMember_members]
    exact hk

/-! ### Parsing -/

/-- The four values before the extended ones can be told apart. -/
def NoSpaces (entry : EncodedServerEntry) : Prop :=
  ∀ text ∈ [entry.ipAddress, entry.webServerPort, entry.webServerSecret,
    entry.webServerCertificate], space ∉ utf8 text

instance (entry : EncodedServerEntry) : Decidable (NoSpaces entry) :=
  inferInstanceAs (Decidable (∀ text ∈ [_, _, _, _], _))

def readLegacy (platform : Platform) (entry : EncodedServerEntry) : ServerEntry :=
  legacyEntry platform (utf8 entry.ipAddress) (strtol (utf8 entry.webServerPort))
    (utf8 entry.webServerSecret) (utf8 entry.webServerCertificate)

theorem fromText_entryText_iff (hr : RoundTrips platform dumps) {entry : EncodedServerEntry}
    (hs : NoSpaces entry) {parsed : ServerEntry} :
    fromText platform (entryText dumps entry) = .ok parsed ↔ IntPorts entry.extendedConfig ∧
        parsed = readEntry (readLegacy platform entry) entry.extendedConfig := by
  obtain ⟨hz,ht⟩ := hr.dumps_text (.obj (extendedMembers entry.extendedConfig))
  rw [entryText,fromText_items (hs _ (by simp)) (hs _ (by simp)) (hs _ (by simp))
    (hs _ (by simp)) hz ht (hr.parse_dumps _),extend_eq_ok_iff]
  rfl

/-! ### What is read -/

theorem utf8_eq_nil_iff {text : String} : utf8 text = [] ↔ text = "" := by
  have hch : ∀ c, String.utf8EncodeChar c ≠ [] := fun c h => by
    have := String.length_utf8EncodeChar c
    simp at *
  rw [utf8,flatMap_eq_nil_iff]
  constructor
  · intro h
    have : text.toList = [] := eq_nil_iff_forall_not_mem.mpr fun c hc => hch c (h c hc)
    exact String.toList_eq_nil_iff.mp this
  · rintro rfl c hc
    simp at hc

structure Kept (config : ExtendedConfig) : Prop where
  ports : IntPorts config
  region : config.capabilities ≠ [] → config.region ≠ none
  ticket : .unfrontedMeekSessionTicket ∈ config.capabilities →
    knowsMeek config.capabilities = false → config.meekServerPort = -1 ∧
      config.meekObfuscatedKey = "" ∧ config.meekCookieEncryptionPublicKey = ""
  fronting : .frontedMeek ∈ config.capabilities → config.meekFrontingHosts = none ∧
    config.meekFrontingDisableSNI = none ∧
    ∀ addresses, config.meekFrontingAddresses = some addresses → "" ∉ addresses

section Reading

variable {config : ExtendedConfig} {base : ServerEntry}

theorem kept_readEntry (field : Field) : field.kept (readEntry base config) =
    let fronted := config.capabilities.contains .frontedMeek
    let known := knowsMeek config.capabilities
    match field with
    | .region => some (.str ((config.region.map utf8).getD []))
    | .meekServerPort => if known then field.sent config else some (.int (-1))
    | .meekObfuscatedKey | .meekCookieEncryptionPublicKey =>
      if known then field.sent config else some (.str [])
    | .meekFrontingDomain | .meekFrontingHost =>
      if fronted then field.sent config else some (.str [])
    | .meekFrontingAddressesRegex =>
      if fronted then some (.str ((config.meekFrontingAddressesRegex.map utf8).getD []))
      else some (.str [])
    | .meekFrontingAddresses =>
      if fronted then some (.arr
        ((((config.meekFrontingAddresses.getD []).map utf8).filter (· ≠ [])).map .str))
      else some (.arr [])
    | .meekFrontingHosts | .meekFrontingDisableSNI => none
    | _ => field.sent config := by
  rw [readEntry,readFronting,readMeek]
  cases config.capabilities.contains .frontedMeek <;> cases knowsMeek config.capabilities <;>
    cases field <;> simp [Field.kept,Field.sent,readBase,textValue]

theorem contains_of_used {field : Field} (hf : ∀ c, usedBy c field = isFronted c)
    (hh : .frontedMeekHttp ∈ config.capabilities → .frontedMeek ∈ config.capabilities)
    (hu : Used config field) : .frontedMeek ∈ config.capabilities := by
  obtain ⟨c,hc,huse⟩ := hu
  rw [hf] at huse
  cases c
  case frontedMeek => exact hc
  case frontedMeekHttp => exact hh hc
  all_goals cases huse

/-- A capability that uses the meek server is one that the client knows, or the one it does not. -/
theorem knowsMeek_or_of_used {field : Field} (hf : ∀ c, usedBy c field = isMeek c)
    (hh : .frontedMeekHttp ∈ config.capabilities → .frontedMeek ∈ config.capabilities)
    (hu : Used config field) : knowsMeek config.capabilities = true ∨
      .unfrontedMeekSessionTicket ∈ config.capabilities := by
  obtain ⟨c,hc,huse⟩ := hu
  rw [hf] at huse
  simp only [knowsMeek,Bool.or_eq_true,contains_iff_mem]
  cases c
  case frontedMeek => exact .inl (.inl (.inl hc))
  case frontedMeekHttp => exact .inl (.inl (.inl (hh hc)))
  case unfrontedMeek => exact .inl (.inl (.inr hc))
  case unfrontedMeekHttps => exact .inl (.inr hc)
  case unfrontedMeekSessionTicket => exact .inr hc
  all_goals cases huse

/-- A field of the meek server is kept when the client knows a capability that uses it, or when its
value is the one that stands for none. -/
theorem kept_of_ticket {field : Field} (hf : ∀ c, usedBy c field = isMeek c) {a : Value}
    (hke : field.kept (readEntry base config) =
      if knowsMeek config.capabilities = true then field.sent config else some a)
    (hh : .frontedMeekHttp ∈ config.capabilities → .frontedMeek ∈ config.capabilities)
    (ht : .unfrontedMeekSessionTicket ∈ config.capabilities →
      knowsMeek config.capabilities = false → field.sent config = some a)
    (hu : Used config field) : field.kept (readEntry base config) = field.sent config := by
  rw [hke]
  split
  · rfl
  · rename_i hk
    have hm := (knowsMeek_or_of_used hf hh hu).resolve_left hk
    exact (ht hm (by simpa using hk)).symm

theorem keepsUsed_of_kept
    (hht : .frontedMeekHttp ∈ config.capabilities → .frontedMeek ∈ config.capabilities)
    (h : Kept config) : KeepsUsed config (readEntry base config) := by
  intro field hu value hs
  cases field
  case sshPort | sshObfuscatedPort | sshObfuscatedKey | capabilities =>
    exact (kept_readEntry _).trans hs
  case region =>
    obtain ⟨c,hc,-⟩ := hu
    obtain ⟨region,hr⟩ := Option.ne_none_iff_exists'.mp (h.region (ne_nil_of_mem hc))
    rw [← hs,kept_readEntry,Field.sent,hr]
    rfl
  case meekServerPort =>
    refine (kept_of_ticket (fun _ => rfl) (kept_readEntry _) hht ?_ hu).trans hs
    exact fun hm hk => by rw [Field.sent,(h.ticket hm hk).1]
  case meekObfuscatedKey =>
    refine (kept_of_ticket (fun _ => rfl) (kept_readEntry _) hht ?_ hu).trans hs
    exact fun hm hk => by rw [Field.sent,(h.ticket hm hk).2.1]; rfl
  case meekCookieEncryptionPublicKey =>
    refine (kept_of_ticket (fun _ => rfl) (kept_readEntry _) hht ?_ hu).trans hs
    exact fun hm hk => by rw [Field.sent,(h.ticket hm hk).2.2]; rfl
  -- the fields that are left are used with `FRONTED-MEEK` alone
  all_goals
    have hm := contains_of_used (fun _ => rfl) hht hu
    have hf := contains_iff_mem.mpr hm
    obtain ⟨hh,hsni,ha⟩ := h.fronting hm
  case meekFrontingDomain | meekFrontingHost =>
    rw [kept_readEntry]
    simp only [hf,if_true,hs]
  case meekFrontingHosts => rw [Field.sent,hh] at hs; cases hs
  case meekFrontingDisableSNI => rw [Field.sent,hsni] at hs; cases hs
  case meekFrontingAddressesRegex =>
    obtain ⟨regex,hre,rfl⟩ := Option.map_eq_some_iff.mp hs
    rw [kept_readEntry]
    simp only [hf,if_true,hre]
    rfl
  case meekFrontingAddresses =>
    obtain ⟨addresses,had,rfl⟩ := Option.map_eq_some_iff.mp hs
    have hfi : (addresses.map utf8).filter (· ≠ []) = addresses.map utf8 := by
      refine filter_eq_self.mpr fun text ht => ?_
      obtain ⟨address,hm,rfl⟩ := mem_map.mp ht
      have hne : address ≠ "" := fun heq => ha addresses had (heq ▸ hm)
      simpa using mt utf8_eq_nil_iff.mp hne
    rw [kept_readEntry]
    simp only [hf,if_true,had,Option.getD_some,hfi,textsValue,map_map]
    rfl

theorem kept_of_keepsUsed (hp : IntPorts config)
    (h : KeepsUsed config (readEntry base config)) : Kept config := by
  refine ⟨hp,?_,?_,?_⟩
  · intro hca hr
    obtain ⟨c,hc⟩ := exists_mem_of_ne_nil _ hca
    have hke := h .region ⟨c,hc,rfl⟩ .null (by rw [Field.sent,hr]; rfl)
    cases hke
  · intro hm hk
    have hl : ∀ field, usedBy .unfrontedMeekSessionTicket field = true →
        (field.sent config).isSome → field.kept (readEntry base config) = field.sent config := by
      intro field hu hs
      obtain ⟨value,hv⟩ := Option.isSome_iff_exists.mp hs
      exact (h field ⟨_,hm,hu⟩ value hv).trans hv.symm
    have hpo := hl .meekServerPort rfl rfl
    have hkey := hl .meekObfuscatedKey rfl rfl
    have hco := hl .meekCookieEncryptionPublicKey rfl rfl
    simp only [kept_readEntry,hk,Field.sent,textValue,Bool.false_eq_true,if_false,
      Option.some.injEq,Json.ValueOver.int.injEq,Json.ValueOver.str.injEq] at hpo hkey hco
    exact ⟨hpo.symm,utf8_eq_nil_iff.mp hkey.symm,utf8_eq_nil_iff.mp hco.symm⟩
  · intro hm
    have hf := contains_iff_mem.mpr hm
    refine ⟨?_,?_,fun addresses ha he => ?_⟩
    · by_contra hh
      obtain ⟨hosts,hh⟩ := Option.ne_none_iff_exists'.mp hh
      cases h .meekFrontingHosts ⟨_,hm,rfl⟩ (textsValue hosts) (by rw [Field.sent,hh]; rfl)
    · by_contra hsni
      obtain ⟨sni,hsni⟩ := Option.ne_none_iff_exists'.mp hsni
      cases h .meekFrontingDisableSNI ⟨_,hm,rfl⟩ (.bool sni) (by rw [Field.sent,hsni]; rfl)
    · have hke := h .meekFrontingAddresses ⟨_,hm,rfl⟩ (textsValue addresses)
        (by rw [Field.sent,ha]; rfl)
      rw [kept_readEntry] at hke
      simp only [hf,if_true,ha,Option.getD_some,textsValue,Option.some.injEq,
        Json.ValueOver.arr.injEq] at hke
      -- the empty address is among those sent and not among those read
      have hm : .str [] ∈ addresses.map textValue :=
        mem_map.mpr ⟨"",he,rfl⟩
      rw [← hke] at hm
      simp at hm

end Reading

/-! ### Whole entries -/

/-- Entries list `FRONTED-MEEK-HTTP` only along with `FRONTED-MEEK`. -/
theorem frontedMeek_of_http {host : Ops.Host} {s : Ops.Server} {caps : List Capability}
    (h : Ops.entryCapabilities host s = .ok caps) (hh : .frontedMeekHttp ∈ caps) :
    .frontedMeek ∈ caps := by
  rcases Ops.entryLists_of_entryCapabilities h with rfl | ⟨onHttps,set,rfl⟩
  · cases hh
  · have hon := Bool.and_eq_true_iff.mp (mem_filter.mp hh).2
    exact mem_filter.mpr ⟨by decide,hon.1⟩

/-- An entry survives when its first four values have no spaces and none of the fields in use is one
that the client drops. Without spaces it survives only then. -/
theorem entry_survives_iff {net : Ops.Network} {random : Ops.EntryRandom} {server : Ops.Server}
    {entry : EncodedServerEntry} (hentry : Ops.getEncodedServerEntry net random server = .ok entry)
    (hround : RoundTrips platform dumps) :
    (NoSpaces entry ∧ Kept entry.extendedConfig → Survives platform dumps entry) ∧
      (NoSpaces entry → Survives platform dumps entry → Kept entry.extendedConfig) := by
  obtain ⟨host,hof⟩ := Ops.entryOf_of_eq_ok hentry
  have hh := frontedMeek_of_http hof.capabilities
  rw [survives_iff_parsed hround]
  constructor
  · rintro ⟨hs,hk⟩
    exact ⟨_,(fromText_entryText_iff hround hs).mpr ⟨hk.ports,rfl⟩,keepsUsed_of_kept hh hk⟩
  · rintro hs ⟨parsed,hp,hk⟩
    obtain ⟨hpo,rfl⟩ := (fromText_entryText_iff hround hs).mp hp
    exact kept_of_keepsUsed hpo hk

/-- The reference platform reads what it and Python write. -/
theorem roundTrips_reference : RoundTrips referencePlatform Json.print where
  parse_dumps := Json.read_print
  parse_write json := @Json.read_print_append [] [10] nofun (Json.stops_cons rfl []) json
  dumps_text json := by
    refine ⟨fun hz => absurd (Json.le_of_mem_print hz) (by decide),fun hn => ?_⟩
    have hr := Json.read_print json
    rw [hn] at hr
    cases hr

def regionHost : Ops.Host := { Ops.plainHost "H" false with region := some "US" }

def ticketHost : Ops.Host :=
  { regionHost with
    meekServerPort := some (.int 443)
    meekServerObfuscatedKey := some "key"
    meekCookieEncryptionPublicKey := some "cookie" }

/-- A server whose meek server speaks TLS with session tickets only. -/
def ticketServer : Ops.Server :=
  { Ops.plainServer "S" "H" none with
    capabilities := some fun c => c = .handshake ∨ c = .unfrontedMeekSessionTicket }

def networkOf (host : Ops.Host) (server : Ops.Server) : Ops.Network :=
  { Ops.Network.init with
    hosts := (Table.empty Ops.Host.id).add host
    servers := (Table.empty Ops.Server.id).add server }

theorem entry_survives_plain :
    ∃ entry, Ops.getEncodedServerEntry (networkOf regionHost (Ops.plainServer "S" "H" none))
        ⟨.id, .id⟩ (Ops.plainServer "S" "H" none) = .ok entry ∧
      Survives referencePlatform Json.print entry := by
  refine ⟨_,rfl,(@entry_survives_iff _ _ (networkOf regionHost (Ops.plainServer "S" "H" none))
    ⟨.id,.id⟩ (Ops.plainServer "S" "H" none) _ rfl roundTrips_reference).1 ?_⟩
  refine ⟨by decide +kernel,⟨by decide,by decide,by decide⟩,fun _ => nofun,?_,?_⟩
  · exact fun hm => absurd hm (by decide)
  · exact fun hm => absurd hm (by decide)

/-- The port of such a server is lost. -/
theorem ticket_port_lost :
    ∃ entry parsed members,
      Ops.getEncodedServerEntry (networkOf ticketHost ticketServer) ⟨.id, .id⟩ ticketServer =
        .ok entry ∧
      parseServerEntry referencePlatform (encodedEntry Json.print entry) = .ok parsed ∧
      storedMembers referencePlatform (encodeServerEntries referencePlatform [parsed]) =
        some members ∧
      Used entry.extendedConfig .meekServerPort ∧
      findMember (extendedMembers entry.extendedConfig) "meekServerPort" = some (.int 443) ∧
      findMember members "meekServerPort" = some (.int (-1)) := by
  obtain ⟨entry,he⟩ : ∃ entry, Ops.getEncodedServerEntry (networkOf ticketHost ticketServer)
      ⟨.id,.id⟩ ticketServer = .ok entry := ⟨_,rfl⟩
  have hc := Except.ok.inj he
  have hs : NoSpaces entry := by
    rw [← hc]
    decide +kernel
  have hpo : IntPorts entry.extendedConfig := by
    rw [← hc]
    exact ⟨by decide,by decide,by decide⟩
  have hp := (fromText_entryText_iff roundTrips_reference hs).mpr ⟨hpo,rfl⟩
  refine ⟨entry,_,_,he,(parseServerEntry_encodedEntry entry).trans hp,
    storedMembers_of_fromText roundTrips_reference hp,?_,?_,?_⟩
  · rw [← hc]
    exact ⟨.unfrontedMeekSessionTicket,by decide,rfl⟩
  · refine (findMember_field entry.extendedConfig .meekServerPort).trans ?_
    rw [← hc]
    rfl
  · refine (findMember_members _ .meekServerPort).trans ((kept_readEntry _).trans ?_)
    rw [← hc]
    rfl

end Psiphon.Client
