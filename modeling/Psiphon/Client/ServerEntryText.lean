import Mathlib.Data.List.TakeWhile
import Psiphon.Client.ServerEntry

/-!
# Reading and writing server entries

What is read of texts that `ToString`, `Hexlify` and `EncodeServerEntries` wrote.
-/

namespace Psiphon.Client

open List Json

variable {platform : Platform}

/-! ### Items -/

variable {text : Bytes} {delimiter : UInt8}

theorem bne_of_notMem (h : delimiter ∉ text) : ∀ c ∈ text, (c != delimiter) = true := by
  intro c hc
  simp only [bne_iff_ne]
  rintro rfl
  exact h hc

theorem getline_append {item : Bytes} (h : delimiter ∉ item) (rest : Bytes) :
    getline delimiter (item ++ delimiter :: rest) = some (item, rest) := by
  have hi := bne_of_notMem h
  have ht : (item ++ delimiter :: rest).takeWhile (· != delimiter) = item := by
    rw [takeWhile_append_of_pos hi,takeWhile_cons_of_neg (by simp),append_nil]
  have hd : (item ++ delimiter :: rest).dropWhile (· != delimiter) = delimiter :: rest := by
    rw [dropWhile_append_of_pos hi,dropWhile_cons_of_neg (by simp)]
  obtain ⟨c,text,hte⟩ : ∃ c text, item ++ delimiter :: rest = c :: text := by
    cases item with
    | nil => exact ⟨_,_,rfl⟩
    | cons c item => exact ⟨_,_,rfl⟩
  rw [hte] at ht hd ⊢
  rw [getline,ht,hd]
  rfl

theorem getline_of_notMem (h : delimiter ∉ text) (hne : text ≠ []) :
    getline delimiter text = some (text, []) := by
  have ht := bne_of_notMem h
  cases text with
  | nil => exact absurd rfl hne
  | cons c text =>
    rw [getline,takeWhile_eq_self_iff.mpr ht,dropWhile_eq_nil_iff.mpr ht]
    rfl

theorem notMem_of_getline {text item rest : Bytes}
    (h : getline delimiter text = some (item, rest)) :
    delimiter ∉ item := by
  cases text with
  | nil => cases h
  | cons c text =>
    obtain ⟨rfl,-⟩ := Prod.mk.inj (Option.some.inj h)
    intro hm
    have := mem_takeWhile_imp hm
    simp at this

theorem getlines_nil (delimiter : UInt8) : getlines delimiter [] = [] := by
  rw [getlines]
  rfl

theorem getlines_append {item : Bytes} (h : delimiter ∉ item) (rest : Bytes) :
    getlines delimiter (item ++ delimiter :: rest) = item :: getlines delimiter rest := by
  rw [getlines]
  split
  · rename_i hn
    rw [getline_append h] at hn
    cases hn
  · rename_i item' rest' hs
    rw [getline_append h] at hs
    cases hs
    rfl

/-! ### Hexadecimal text -/

section Hexadecimal

variable {digit : ℕ → UInt8} (hdigit : ∀ d < 16, hexValue (digit d) = some d)
include hdigit

theorem hexByte_digit (c : UInt8) :
    hexByte (digit (c.toNat / 16)) (digit (c.toNat % 16)) = some c := by
  have hc : c.toNat < 256 := c.toNat_lt
  have hb := hexByte_hexDigit c
  rw [hexByte,hexValue_hexDigit (by omega),hexValue_hexDigit (by omega)] at hb
  rw [hexByte,hdigit _ (by omega),hdigit _ (by omega),hb]

theorem dehexlifyPairs_hexlifyWith (text : Bytes) :
    dehexlifyPairs (hexlifyWith digit text) = .ok text := by
  induction text with
  | nil => rfl
  | cons c text ih =>
    show dehexlifyPairs (_ :: _ :: hexlifyWith digit text) = _
    rw [dehexlifyPairs,hexByte_digit hdigit,ih]
    rfl

theorem dehexlify_hexlifyWith (text : Bytes) : dehexlify (hexlifyWith digit text) = .ok text := by
  have hl : (hexlifyWith digit text).length = 2 * text.length := by
    induction text with
    | nil => rfl
    | cons c text ih =>
      show (_ :: _ :: hexlifyWith digit text).length = _
      simp only [length_cons,ih]
      omega
  rw [dehexlify,if_neg (by rw [hl]; omega),dehexlifyPairs_hexlifyWith hdigit]

end Hexadecimal

theorem dehexlify_hexlify (text : Bytes) : dehexlify (hexlify text) = .ok text :=
  dehexlify_hexlifyWith (fun _ => hexValue_hexDigit) text

theorem le_of_mem_hexlify {c : UInt8} (h : c ∈ hexlify text) : 48 ≤ c := by
  have hdigit : ∀ d < 16, 48 ≤ hexDigit d := by decide
  obtain ⟨b,-,hc⟩ := mem_flatMap.mp h
  have hb : b.toNat < 256 := b.toNat_lt
  simp only [mem_cons,not_mem_nil,or_false] at hc
  rcases hc with rfl | rfl
  · exact hdigit _ (by omega)
  · exact hdigit _ (by omega)

theorem notMem_hexlify {c : UInt8} (hc : c < 48) (text : Bytes) : c ∉ hexlify text :=
  fun hm => UInt8.not_lt.mpr (le_of_mem_hexlify hm) hc

/-! ### Lists -/

theorem encodeServerEntries_cons (entry : ServerEntry) (entries : List ServerEntry) :
    encodeServerEntries platform (entry :: entries) =
      hexlify (entry.toText platform) ++ 10 :: encodeServerEntries platform entries := by
  rw [encodeServerEntries,flatMap_cons,append_assoc]
  rfl

theorem cString_encodeServerEntries (entries : List ServerEntry) :
    cString (encodeServerEntries platform entries) = encodeServerEntries platform entries := by
  refine takeWhile_eq_self_iff.mpr (bne_of_notMem fun hz => ?_)
  obtain ⟨entry,-,hz⟩ := mem_flatMap.mp hz
  rcases mem_append.mp hz with hz | hz
  · exact notMem_hexlify (by decide) _ hz
  · exact absurd (mem_singleton.mp hz) (by decide)

theorem getlines_encodeServerEntries (entries : List ServerEntry) :
    getlines 10 (encodeServerEntries platform entries) =
      entries.map fun entry => hexlify (entry.toText platform) := by
  induction entries with
  | nil => exact getlines_nil 10
  | cons entry entries ih =>
    rw [encodeServerEntries_cons,getlines_append (notMem_hexlify (by decide) _),ih,map_cons]

theorem parseServerEntry_hexlify (text : Bytes) :
    parseServerEntry platform (hexlify text) = fromText platform text := by
  rw [parseServerEntry,dehexlify_hexlify]
  rfl

/-- A list of entries is read back entry by entry, without those that have no certificate. -/
theorem parseServerEntries_encode (entries : List ServerEntry) :
    parseServerEntries platform (encodeServerEntries platform entries) = do
      let read ← entries.mapM fun entry => fromText platform (entry.toText platform)
      return read.filter fun entry => entry.webServerCertificate ≠ ascii "None" := by
  rw [parseServerEntries,cString_encodeServerEntries,getlines_encodeServerEntries,mapM_map]
  simp only [Function.comp_def,parseServerEntry_hexlify]

/-! ### Addresses -/

theorem legacyItem_eq_ok {name : String} {item : Bytes × Bytes}
    (h : legacyItem name text = .ok item) : getline space text = some item := by
  rw [legacyItem] at h
  split at h
  · rename_i item' hi
    cases h
    exact hi
  · cases h

def ServerEntry.legacy (entry : ServerEntry) : Bytes × ℤ × Bytes × Bytes :=
  (entry.serverAddress, entry.webServerPort, entry.webServerSecret, entry.webServerCertificate)

variable {entry entry' : ServerEntry} {json : Value}

theorem legacy_extendMeek (h : extendMeek entry json = .ok entry') :
    entry'.legacy = entry.legacy := by
  rw [extendMeek] at h
  split at h
  · simp only [Fallible.bind_eq_ok_iff] at h
    obtain ⟨port,-,key,-,cookie,-,h⟩ := h
    cases h
    rfl
  · cases h
    rfl

theorem legacy_extendFronting (h : extendFronting entry json = .ok entry') :
    entry'.legacy = entry.legacy := by
  rw [extendFronting] at h
  split at h
  · simp only [Fallible.bind_eq_ok_iff] at h
    obtain ⟨domain,-,host,-,regex,-,addresses,-,h⟩ := h
    cases h
    rfl
  · cases h
    rfl

theorem legacy_extend (h : extend entry json = .ok entry') : entry'.legacy = entry.legacy := by
  simp only [extend,Fallible.bind_eq_ok_iff] at h
  obtain ⟨region,-,ssh,-,user,-,password,-,host,-,ossh,-,key,-,caps,-,meek,hm, hf⟩ := h
  have hl := legacy_extendMeek hm
  exact (legacy_extendFronting hf).trans hl

theorem items_of_fromText {entry : ServerEntry} (h : fromText platform text = .ok entry) :
    ∃ a port s c text₁ text₂ text₃ text₄,
      getline space text = some (a, text₁) ∧ getline space text₁ = some (port, text₂) ∧
      getline space text₂ = some (s, text₃) ∧ getline space text₃ = some (c, text₄) ∧
      entry.legacy = (a, strtol port, s, c) := by
  simp only [fromText,Fallible.bind_eq_ok_iff] at h
  obtain ⟨⟨a,text₁⟩,ha,⟨port,text₂⟩,hp,⟨s,text₃⟩,hs, ⟨c,text₄⟩,hc,h⟩ := h
  refine ⟨a,port,s,c,text₁,text₂,text₃,text₄,
    legacyItem_eq_ok ha,legacyItem_eq_ok hp,legacyItem_eq_ok hs,
    legacyItem_eq_ok hc,?_⟩
  split at h
  · cases h
    rfl
  · split at h
    · cases h
    · split at h
      · rename_i he
        cases h
        exact legacy_extend he
      · cases h

theorem space_notMem_of_fromText {entry : ServerEntry} (h : fromText platform text = .ok entry) :
    space ∉ entry.serverAddress ∧
      space ∉ entry.webServerSecret ∧ space ∉ entry.webServerCertificate := by
  obtain ⟨address,port,secret,certificate,text₁,text₂,text₃,text₄,ha,-,hs,
    hc,hl⟩ := items_of_fromText h
  simp only [ServerEntry.legacy,Prod.mk.injEq] at hl
  obtain ⟨rfl,-,rfl,rfl⟩ := hl
  exact ⟨notMem_of_getline ha,notMem_of_getline hs,notMem_of_getline hc⟩

theorem space_notMem_of_parseServerEntry {entry : ServerEntry}
    (h : parseServerEntry platform text = .ok entry) : space ∉ entry.serverAddress := by
  obtain ⟨line,-,h⟩ := Fallible.bind_eq_ok_iff.mp h
  exact (space_notMem_of_fromText h).1

/-- An address without a space survives being written and read. -/
theorem serverAddress_of_fromText_toText (hs : space ∉ entry.serverAddress)
    (h : fromText platform (entry.toText platform) = .ok entry') :
    entry'.serverAddress = entry.serverAddress := by
  obtain ⟨address,port,secret,certificate,text₁,-,-,-,ha,-,-,-,hl⟩ :=
    items_of_fromText h
  rw [ServerEntry.toText] at ha
  simp only [append_assoc,cons_append] at ha
  rw [getline_append hs] at ha
  have hi := (Prod.mk.inj (Option.some.inj ha)).1
  exact (congrArg Prod.fst hl).trans hi.symm

/-! ### Whole entries -/

theorem fromText_items {a port s c text : Bytes} (ha : space ∉ a)
    (hpo : space ∉ port) (hs : space ∉ s) (hc : space ∉ c)
    (hz : 0 ∉ text) (ht : text ≠ []) (hp : platform.parse text = some json) {entry : ServerEntry} :
    fromText platform (a ++ space :: port ++ space :: s ++ space :: c ++
        space :: text) = .ok entry ↔
      extend (legacyEntry platform a (strtol port) s c) json = .ok entry := by
  have hi : ∀ {name : String} {item rest : Bytes}, space ∉ item →
      legacyItem name (item ++ space :: rest) = .ok (item, rest) := by
    intro name item rest h
    rw [legacyItem,getline_append h]
    rfl
  simp only [fromText,append_assoc,cons_append,hi ha,hi hpo,
    hi hs,hi hc,Fallible.ok_bind,getline_of_notMem hz ht,hp]
  cases extend (legacyEntry platform a (strtol port) s c) json with
  | ok entry' => exact .rfl
  | error e => exact ⟨nofun,nofun⟩

theorem space_notMem_printInt (n : ℤ) : space ∉ printInt n := by
  have hd : ∀ m, space ∉ printNat m := fun m hm => absurd (isDigit_of_mem_printNat hm) (by decide)
  cases n with
  | ofNat n => exact hd n
  | negSucc n => exact not_mem_cons_of_ne_of_not_mem (by decide) (hd (n + 1))

/-! ### A platform -/

def referencePlatform : Platform := ⟨read, fun json => print json ++ [10], 0⟩

def sampleEntry (address certificate : String) : ServerEntry :=
  legacyEntry referencePlatform (ascii address) 8080 (ascii "secret") (ascii certificate)

end Psiphon.Client
