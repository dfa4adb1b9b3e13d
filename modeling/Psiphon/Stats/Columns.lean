import Psiphon.Web.FlatJson
import Psiphon.Web.LoggedValues

/-!
# Logged values and the columns they land in

The statistics reader splits a line at white space, and takes the schema that has as many columns as
it finds words.
-/

namespace Psiphon.Stats

open List Option Words Outcome

/-! ### What should be stored -/

def eventType : Web.EventName → EventType
  | .handshake => .handshake
  | .discovery => .discovery
  | .connected => .connected
  | .failed => .failed
  | .download => .download
  | .status => .status
  | .disconnected => .disconnected
  | .bytesTransferred => .bytesTransferred
  | .pageViews => .pageViews
  | .httpsRequests => .httpsRequests
  | .speed => .speed

/-- The column that a logged name stands for. -/
def columnOf (event : Web.EventName) : Web.Name → Option Column
  | .serverIpAddress => some .serverId
  | .clientRegion => some .clientRegion
  | .clientCity => some .clientCity
  | .clientIsp => some .clientIsp
  | .propagationChannelId => some .propagationChannelId
  | .sponsorId => some .sponsorId
  | .clientVersion => some .clientVersion
  | .clientPlatform => some .clientPlatform
  | .relayProtocol => some .relayProtocol
  | .tunnelWholeDevice => some .tunnelWholeDevice
  | .sessionId => some .sessionId
  | .lastConnected => some .lastConnected
  | .errorCode => some .errorCode
  | .connected => some .connected
  | .operation => some .operation
  | .info => some .info
  | .milliseconds => some .milliseconds
  | .size => some .size
  | .unknown => some .clientUnknown
  | .bytes => some .bytes
  | .page => some .pagename
  | .domain => some .domain
  | .count => if event = .pageViews then some .viewcount else some .count
  | _ => none

/-- The columns of the names of an event. A server address that is not the first value is that of a
discovered server. -/
def columnsOf (event : Web.EventName) : List Web.Name → List (Option Column)
  | [] => []
  | first :: rest => columnOf event first :: rest.map fun name =>
    if name = .serverIpAddress then some .discoveryServerId else columnOf event name

def record (event : Web.Event) : List (Option Column × Text) :=
  (columnsOf event.name (event.logged.map Prod.fst)).zip (event.logged.map Prod.snd)

/-- The entry of the log: `syslog` puts the timestamp, the host and the tag before the text. -/
def entry (timestamp hostId : Text) (event : Web.Event) : Text :=
  timestamp ++ ' ' :: (hostId ++ (tag ++ event.text))

namespace Outcome

def rejected : Outcome → Bool
  | unexpected | invalidFields | invalidBytes | discarded => true
  | raised => false
  | accepted _ _ => false

def isAccepted : Outcome → Bool
  | accepted _ _ => true
  | _ => false

end Outcome

section

variable (int : Text → Option ℤ)

/-- Every line of the entry is rejected or stores each value in its own column, and at most one line
is accepted. -/
structure InColumns (event : Web.Event) (entry : Text) : Prop where
  each : ∀ line ∈ lines entry, (readLine int line).rejected = true ∨
    ∃ kind values, readLine int line = .accepted kind values ∧ kind.event = eventType event.name ∧
      (kind.columns.map some).zip values = record event
  once : ((lines entry).filter fun line => (readLine int line).isAccepted).length ≤ 1

/-! ### Lines that are not read -/

def IsEntry (line : Text) (event : EventType) (text : Text) : Prop :=
  ∃ timestamp hostId, IsTimestamp timestamp ∧ IsHostId hostId ∧ text ≠ [] ∧
    line = entryHead timestamp hostId event.text ++ text

def fieldCounts (event : EventType) : List ℕ := (schema event).length :: (older event).map Prod.fst

/-- Why a line is not read. -/
inductive Unreadable (line : Text) : Prop where
  /-- It is no entry of any event. -/
  | pattern (h : ∀ event text, ¬ IsEntry line event text)
  /-- No schema of its event has as many columns as there are words. -/
  | count {event : EventType} {text : Text} (hentry : IsEntry line event text)
      (hcount : (words isSpace text).length ∉ fieldCounts event)
  /-- It holds a byte count in the first form, of client version 24. -/
  | version {text : Text} (hentry : IsEntry line .bytesTransferred text)
      (hcount : (words isSpace text).length = 8)
      (hversion : int ((words isSpace text).getD 4 []) = some 24)
  /-- It holds a byte count that is out of range. -/
  | bytes {text value : Text} {n : ℤ} (hentry : IsEntry line .bytesTransferred text)
      (hcount : (words isSpace text).length ∈ fieldCounts .bytesTransferred)
      (hversion : (words isSpace text).length = 8 →
        (int ((words isSpace text).getD 4 [])).isSome = true)
      (hlast : (words isSpace text).getLast? = some value)
      (hvalue : int value = some n) (hrange : ¬ (0 ≤ n ∧ n < 2147483647))

end

/-! ### Keys and byte counts -/

variable {event : EventType}

theorem length_of_mem_older {pair : ℕ × List Column} (h : pair ∈ older event) :
    pair.2.length = pair.1 := by
  have ha : ∀ pair ∈ older event, pair.2.length = pair.1 := by
    cases event <;> decide
  exact ha pair h

variable {kind : Kind}

theorem columns_of_kindOf {n : ℕ} (h : kindOf event n = some kind) :
    kind.columns ∈ schema event :: (older event).map Prod.snd ∧
      (kind.fields = none ∧ n = (schema event).length ∨ kind.fields = some n) := by
  unfold kindOf at h
  split at h
  · next hn =>
    cases h
    exact ⟨(.head _),.inl ⟨rfl,hn⟩⟩
  · split at h
    · cases h
    · next columns hc =>
      split at h
      · cases h
        obtain ⟨before,after,holder,-⟩ := lookup_eq_some_iff.mp hc
        simp only [Kind.columns,hc,getD_some]
        refine ⟨mem_cons_of_mem _ (mem_map.mpr ⟨(n, columns),?_,rfl⟩),Or.inr trivial⟩
        rw [holder]
        exact mem_append_right _ (.head _)
      · cases h

theorem kindOf_eq_none_iff {n : ℕ} : kindOf event n = none ↔ n ∉ fieldCounts event := by
  rw [fieldCounts,mem_cons,not_or,kindOf]
  by_cases hn : n = (schema event).length
  · simp [hn]
  · rw [if_neg hn]
    simp only [hn,not_false_eq_true,true_and]
    cases hl : (older event).lookup n with
    | none =>
      have hk := lookup_eq_none_iff.mp hl
      simp only [true_iff]
      intro hmem
      obtain ⟨pair,hp,rfl⟩ := mem_map.mp hmem
      simpa using hk pair hp
    | some columns =>
      obtain ⟨before,after,holder,-⟩ := lookup_eq_some_iff.mp hl
      have hmem : (n, columns) ∈ older event := by
        rw [holder]
        exact mem_append_right _ (.head _)
      have hlen := length_of_mem_older hmem
      simp only [hlen,if_true,reduceCtorEq,false_iff,not_not]
      exact mem_map.mpr ⟨(n, columns),hmem,rfl⟩

theorem bytes_not_mem_columns {n : ℕ} (he : event ≠ .bytesTransferred)
    (h : kindOf event n = some kind) : .bytes ∉ kind.columns := by
  have ha : ∀ columns ∈ schema event :: (older event).map Prod.snd, .bytes ∉ columns := by
    cases event <;> first | exact absurd rfl he | decide
  exact ha _ (columns_of_kindOf h).1

/-- The byte count is the last column of its schemas, and no other column is one. -/
theorem bytes_last_column {n : ℕ} (h : kindOf .bytesTransferred n = some kind) :
    kind.columns = kind.columns.dropLast ++ [.bytes] ∧ .bytes ∉ kind.columns.dropLast := by
  have ha : ∀ columns ∈ schema .bytesTransferred :: (older .bytesTransferred).map Prod.snd,
      columns = columns.dropLast ++ [.bytes] ∧ .bytes ∉ columns.dropLast := by decide
  exact ha _ (columns_of_kindOf h).1

section

variable {int : Text → Option ℤ}

theorem byteFieldsValid_append {fields later : List (Column × Text)}
    (h : ∀ field ∈ fields, field.1 ≠ .bytes) :
    byteFieldsValid int (fields ++ later) = byteFieldsValid int later := by
  induction fields with
  | nil => rfl
  | cons field fields ih =>
    rw [cons_append,byteFieldsValid,if_neg (h field (.head _)),ih fun f hf => h f (.tail _ hf)]

/-- Whether a byte count is in range, unless `int` raises. -/
def countValid (int : Text → Option ℤ) (value : Text) : Option Bool :=
  (int value).map fun n => decide (0 ≤ n ∧ n < 2147483647)

theorem byteFieldsValid_of_ne {values : List Text} (he : event ≠ .bytesTransferred)
    (h : kindOf event values.length = some kind) :
    byteFieldsValid int (kind.columns.zip values) = some true := by
  rw [← append_nil (kind.columns.zip values),byteFieldsValid_append]
  · rfl
  · intro field hf heq
    exact bytes_not_mem_columns he h (heq ▸ (of_mem_zip hf).1)

variable {value : Text}

theorem byteFieldsValid_bytes {values : List Text}
    (h : kindOf .bytesTransferred (values ++ [value]).length = some kind) :
    byteFieldsValid int (kind.columns.zip (values ++ [value])) = countValid int value := by
  obtain ⟨hc,hb⟩ := bytes_last_column h
  have hl : kind.columns.dropLast.length = values.length := by
    rw [length_dropLast,(length_columns_of_kindOf h).2]
    simp
  rw [hc,zip_append hl,byteFieldsValid_append]
  · show byteFieldsValid int [(.bytes, value)] = countValid int value
    rw [byteFieldsValid,if_pos rfl,countValid]
    cases int value with
    | none => rfl
    | some n =>
      simp only [map_some]
      split
      · next hr => rw [decide_eq_true hr]; rfl
      · next hr => rw [decide_eq_false hr]
  · intro field hf heq
    exact hb (heq ▸ (of_mem_zip hf).1)

/-! ### Entries -/

variable {text : Text}

theorem readEntry_of_ne (he : event ≠ .bytesTransferred) :
    readEntry int event text = match kindOf event (words isSpace text).length with
      | none => .invalidFields
      | some kind => .accepted kind (words isSpace text) := by
  unfold readEntry
  dsimp only
  cases hk : kindOf event (words isSpace text).length with
  | none => rfl
  | some kind =>
    have hv : fromVersion24 int kind (words isSpace text) = some false := by
      refine if_neg fun heq => he ?_
      rw [← (length_columns_of_kindOf hk).1,heq]
    simp only [hv,byteFieldsValid_of_ne he hk]

/-- Whether a byte count in the first form is to be discarded. -/
def versionDiscarded (int : Text → Option ℤ) (values : List Text) : Option Bool :=
  if values.length = 8 then (int (values.getD 4 [])).map (· = 24) else some false

theorem readEntry_bytes {values : List Text} (hw : words isSpace text = values ++ [value]) :
    readEntry int .bytesTransferred text =
      match kindOf .bytesTransferred (values ++ [value]).length with
      | none => .invalidFields
      | some kind => match versionDiscarded int (values ++ [value]) with
        | none => .raised
        | some true => .discarded
        | some false => match countValid int value with
          | none => .raised
          | some false => .invalidBytes
          | some true => .accepted kind (values ++ [value]) := by
  unfold readEntry
  dsimp only
  rw [hw]
  cases hk : kindOf .bytesTransferred (values ++ [value]).length with
  | none => rfl
  | some kind =>
    -- the first form is the key for eight values
    have heq : kind = ⟨.bytesTransferred,some 8⟩ ↔ (values ++ [value]).length = 8 := by
      constructor
      · rintro rfl
        exact (length_columns_of_kindOf hk).2.symm
      · intro hlen
        rw [hlen] at hk
        exact (Option.some.inj hk).symm
    have hv : fromVersion24 int kind (values ++ [value]) =
        versionDiscarded int (values ++ [value]) := by
      simp only [fromVersion24,versionDiscarded,heq]
    have hva : byteFieldsValid int (kind.columns.zip (values ++ [value])) =
        countValid int value := byteFieldsValid_bytes hk
    dsimp only
    rw [hv]
    generalize countValid int value = valid at hva
    subst hva
    rfl

/-! ### Lines -/

theorem line_break_of_char {p : Char → Bool} (hp : p '\n' = false) (h : ∀ c ∈ text, p c = true) :
    '\n' ∉ text := fun hm => by
  rw [h _ hm] at hp
  exact Bool.noConfusion hp

theorem not_mem_entryHead {timestamp hostId : Text} (ht : IsTimestamp timestamp)
    (hh : IsHostId hostId) (event : EventType) : '\n' ∉ entryHead timestamp hostId event.text := by
  have h₁ := line_break_of_char (p := isTimestampChar) rfl ht.2
  have h₂ := line_break_of_char (p := isHostChar) rfl hh.2
  have h₃ := line_break_of_char (p := isWordChar) rfl event.text_wellFormed.2
  have h₄ : '\n' ∉ tag := by decide +kernel
  simp [entryHead,h₁,h₂,h₃,h₄]

/-- The reader takes an entry apart where the writer put it together. -/
theorem readLine_of_isEntry {line text : Text} (hl : '\n' ∉ line) (h : IsEntry line event text) :
    readLine int line = readEntry int event text := by
  obtain ⟨timestamp,hostId,ht,hh,hne,rfl⟩ := h
  have hw : (Match.mk timestamp hostId event.text text).WellFormed :=
    ⟨ht,hh,event.text_wellFormed,hne,fun hmem => hl (by simp [hmem])⟩
  have hm := matchLine_line hw
  unfold readLine
  rw [show entryHead timestamp hostId event.text ++ text =
    (Match.mk timestamp hostId event.text text).line from rfl,hm]
  dsimp only
  rw [event.ofText_text]

/-- A line is an entry, or it has not the pattern. -/
theorem isEntry_or_unexpected (int : Text → Option ℤ) {line : Text} (hl : '\n' ∉ line) :
    (∃ event text, IsEntry line event text) ∨
      (∀ event text, ¬ IsEntry line event text) ∧ readLine int line = .unexpected := by
  by_cases he : ∃ event text, IsEntry line event text
  · exact .inl he
  · refine .inr ⟨fun event text h => he ⟨event,text,h⟩,?_⟩
    unfold readLine
    cases hma : matchLine line with
    | none => rfl
    | some m =>
      obtain ⟨hm,hw⟩ := (matchLine_eq_some_iff hl).mp hma
      cases hev : EventType.ofText m.event with
      | none => simp only [hev]
      | some event =>
        obtain heq := EventType.ofText_eq_some_iff.mp hev
        exact absurd ⟨event,m.text,m.timestamp,m.hostId,hw.timestamp,hw.hostId,
          hw.text.1,heq ▸ hm⟩ he

theorem exists_last_word (h : (words isSpace text).length ∈ fieldCounts .bytesTransferred) :
    ∃ values value, words isSpace text = values ++ [value] := by
  cases hl : (words isSpace text).getLast? with
  | none =>
    rw [List.getLast?_eq_none_iff.mp hl] at h
    exact absurd h (by decide)
  | some value => exact ⟨_,value,(dropLast_append_getLast? value hl).symm⟩

theorem versionDiscarded_eq_some_iff {values : List Text} {b : Bool} :
    versionDiscarded int values = some b ↔
      (values.length = 8 ∧ ∃ n, int (values.getD 4 []) = some n ∧
      decide (n = 24) = b) ∨ (values.length ≠ 8 ∧ b = false) := by
  unfold versionDiscarded
  split
  · next h => simp [h]
  · next h => simp [h,eq_comm]

theorem countValid_eq_some_iff {b : Bool} :
    countValid int value = some b ↔ ∃ n, int value = some n ∧ decide (0 ≤ n ∧ n < 2147483647) = b :=
  map_eq_some_iff

/-- An entry of a byte count is rejected for its version or its value, if its schema is found. -/
theorem rejected_bytes_iff {values : List Text} (hw : words isSpace text = values ++ [value])
    (hc : (values ++ [value]).length ∈ fieldCounts .bytesTransferred) :
    (readEntry int .bytesTransferred text).rejected = true ↔
      versionDiscarded int (values ++ [value]) = some true ∨
      versionDiscarded int (values ++ [value]) = some false ∧
        countValid int value = some false := by
  rw [readEntry_bytes hw]
  cases hk : kindOf .bytesTransferred (values ++ [value]).length with
  | none => exact absurd hc (kindOf_eq_none_iff.mp hk)
  | some kind =>
    cases versionDiscarded int (values ++ [value]) with
    | none => simp [rejected]
    | some b =>
      cases b with
      | true => simp [rejected]
      | false =>
        cases countValid int value with
        | none => simp [rejected]
        | some b => cases b <;> simp [rejected]

theorem unreadable_of_rejected {line text : Text} (he : IsEntry line event text)
    (h : (readEntry int event text).rejected = true) : Unreadable int line := by
  by_cases hc : (words isSpace text).length ∈ fieldCounts event
  · by_cases hev : event = .bytesTransferred
    · subst hev
      obtain ⟨values,value,hw⟩ := exists_last_word hc
      rw [rejected_bytes_iff hw (hw ▸ hc),versionDiscarded_eq_some_iff,
        versionDiscarded_eq_some_iff,← hw] at h
      rcases h with (⟨hl,n,hn,heq⟩ | ⟨-,heq⟩) | ⟨hv,hva⟩
      · exact .version he hl (of_decide_eq_true heq ▸ hn)
      · exact absurd heq.symm Bool.false_ne_true
      · obtain ⟨n,hn,hr⟩ := countValid_eq_some_iff.mp hva
        refine .bytes he hc (fun hl => ?_) (by simp [hw]) hn (of_decide_eq_false hr)
        rcases hv with ⟨-,m,hm,-⟩ | ⟨hl',-⟩
        · exact isSome_of_eq_some hm
        · exact absurd hl hl'
    · -- every other entry that has a schema is accepted
      rw [readEntry_of_ne hev] at h
      cases hk : kindOf event (words isSpace text).length with
      | none => exact absurd hc (kindOf_eq_none_iff.mp hk)
      | some kind =>
        rw [hk] at h
        cases h
  · exact .count he hc

theorem rejected_of_count (hc : (words isSpace text).length ∉ fieldCounts event) :
    readEntry int event text = .invalidFields := by
  unfold readEntry
  dsimp only
  rw [kindOf_eq_none_iff.mpr hc]

/-- The reader rejects exactly the lines that it cannot read. -/
theorem rejected_readLine_iff {line : Text} (hl : '\n' ∉ line) :
    (readLine int line).rejected = true ↔ Unreadable int line := by
  constructor
  · intro h
    obtain ⟨event,text,he⟩ | ⟨hn,-⟩ := isEntry_or_unexpected int hl
    · exact unreadable_of_rejected he (readLine_of_isEntry hl he ▸ h)
    · exact .pattern hn
  · intro h
    cases h with
    | pattern hn =>
      obtain ⟨event,text,he⟩ | ⟨-,hre⟩ := isEntry_or_unexpected int hl
      · exact absurd he (hn event text)
      · rw [hre]
        rfl
    | count he hc =>
      rw [readLine_of_isEntry hl he,rejected_of_count hc]
      rfl
    | version he hlen hv =>
      have hc := hlen ▸ (by decide : 8 ∈ fieldCounts .bytesTransferred)
      obtain ⟨values,value,hw⟩ := exists_last_word hc
      rw [readLine_of_isEntry hl he,rejected_bytes_iff hw (hw ▸ hc),← hw]
      exact .inl (versionDiscarded_eq_some_iff.mpr (.inl ⟨hlen,24,hv,rfl⟩))
    | @bytes text value n he hc hv hla hva hra =>
      have hw := (dropLast_append_getLast? value hla).symm
      have hr : countValid int value = some false :=
        countValid_eq_some_iff.mpr ⟨n,hva,decide_eq_false hra⟩
      rw [readLine_of_isEntry hl he,rejected_bytes_iff hw (hw ▸ hc),← hw]
      by_cases hlen : (words isSpace text).length = 8
      · -- version 24 is discarded before its value is looked at
        obtain ⟨m,hm⟩ := isSome_iff_exists.mp (hv hlen)
        have hf : versionDiscarded int (words isSpace text) = some (decide (m = 24)) :=
          versionDiscarded_eq_some_iff.mpr (.inl ⟨hlen,m,hm,rfl⟩)
        cases hd : decide (m = 24) with
        | true => exact .inl (hd ▸ hf)
        | false => exact .inr ⟨hd ▸ hf,hr⟩
      · exact .inr ⟨versionDiscarded_eq_some_iff.mpr (.inr ⟨hlen,rfl⟩),hr⟩

/-! ### The entry of an event -/

theorem text_eventType (name : Web.EventName) : (eventType name).text = name.text := by
  cases name <;> rfl

theorem columnsOf_names (name : Web.EventName) :
    columnsOf name name.names = (schema (eventType name)).map some := by
  cases name <;> rfl

theorem eventType_eq_bytes {name : Web.EventName} :
    eventType name = .bytesTransferred ↔ name = .bytesTransferred := by
  cases name <;> simp [eventType]

def values (event : Web.Event) : List Text := event.logged.map Prod.snd

/-- The byte count that an event logs is one that `int` reads. -/
def CountReads (int : Text → Option ℤ) (event : Web.Event) : Prop :=
  event.name = .bytesTransferred → ∀ value, (values event).getLast? = some value →
    (int value).isSome = true

theorem lines_of_not_mem (h : '\n' ∉ text) : lines text = [text] :=
  splitOn_eq_singleton h

theorem not_mem_of_mem_lines {text line : Text} (h : line ∈ lines text) : '\n' ∉ line := by
  intro hm
  have hs := sep_of_mem_splitOnP h hm
  exact absurd hs (by decide)

theorem of_readLine_eq_accepted {line : Text} {stored : List Text}
    (h : readLine int line = .accepted kind stored) :
    (∀ value ∈ stored, IsWord isSpace value) ∧ kind.columns.length = stored.length := by
  unfold readLine at h
  split at h
  · exact Outcome.noConfusion h
  · split at h
    · exact Outcome.noConfusion h
    · unfold readEntry at h
      dsimp only at h
      split at h
      · exact Outcome.noConfusion h
      · next hk =>
        -- the checks on byte counts change neither the key nor the values
        split at h
        · exact Outcome.noConfusion h
        · exact Outcome.noConfusion h
        · split at h
          · exact Outcome.noConfusion h
          · exact Outcome.noConfusion h
          · obtain ⟨rfl,rfl⟩ := accepted.inj h
            exact ⟨fun value hv => isWord_of_mem hv,(length_columns_of_kindOf hk).2⟩

section Entry

variable {event : Web.Event} {timestamp hostId : Text} (hr : event.Regular)

section Regular

include hr

theorem record_eq :
    record event = ((schema (eventType event.name)).map some).zip (values event) := by
  have hn : event.logged.map Prod.fst = event.name.names := hr.names
  rw [record,hn,columnsOf_names]
  rfl

theorem length_values :
    (values event).length = (schema (eventType event.name)).length := by
  have hn : event.logged.map Prod.fst = event.name.names := hr.names
  have hlen : event.name.names.length = (schema (eventType event.name)).length := by
    cases event.name <;> rfl
  rw [values,length_map,← hlen,← hn,length_map]

theorem values_ne_nil : values event ≠ [] := by
  intro hnil
  have hl := length_values hr
  rw [hnil] at hl
  cases hn : event.name <;> rw [hn] at hl <;> exact absurd hl (by decide)

theorem exists_last_value : ∃ value, (values event).getLast? = some value :=
  ne_none_iff_exists'.mp (mt List.getLast?_eq_none_iff.mp (values_ne_nil hr))

theorem entry_eq : entry timestamp hostId event =
    entryHead timestamp hostId (eventType event.name).text ++ [' '].intercalate (values event) := by
  have ht : event.text =
      (eventType event.name).text ++ ' ' :: [' '].intercalate (values event) := by
    rw [Web.Event.text,text_eventType]
    exact intercalate_cons_of_ne_nil (values_ne_nil hr) |>.trans (by simp [values])
  rw [entry,entryHead,ht]
  simp

theorem values_of_record {stored : List Text}
    (hl : kind.columns.length = stored.length)
    (h : (kind.columns.map some).zip stored = record event) : stored = values event := by
  rw [record_eq hr] at h
  have hv := congrArg (List.map Prod.snd) h
  rwa [map_snd_zip (by simp [hl]),map_snd_zip (by simp [length_values hr])] at hv

variable (ht : IsTimestamp timestamp) (hh : IsHostId hostId)
  (hw : ∀ value ∈ values event, IsWord isSpace value)
include ht hh hw

theorem isEntry_entry :
    '\n' ∉ entry timestamp hostId event ∧
      IsEntry (entry timestamp hostId event) (eventType event.name)
        ([' '].intercalate (values event)) := by
  have hne : [' '].intercalate (values event) ≠ [] := by
    intro hnil
    have hre : words isSpace ([' '].intercalate (values event)) = values event :=
      words_intercalate_of_isWord rfl hw
    rw [hnil] at hre
    exact values_ne_nil hr hre.symm
  constructor
  · rw [entry_eq hr,mem_append,not_or]
    refine ⟨not_mem_entryHead ht hh _,fun hmem => ?_⟩
    obtain heq | ⟨value,hv,hmem⟩ := mem_intercalate hmem
    · exact absurd heq (by decide)
    · exact absurd ((hw value hv).2 _ hmem) (by decide)
  · exact ⟨timestamp,hostId,ht,hh,hne,entry_eq hr⟩

/-- An entry whose values are words is stored as it was logged, unless its byte count is out of
range or cannot be read. -/
theorem readLine_entry (int : Text → Option ℤ) :
    readLine int (entry timestamp hostId event) = if event.name = .bytesTransferred then
        match (values event).getLast?.bind (countValid int) with
        | none => .raised
        | some false => .invalidBytes
        | some true => .accepted ⟨eventType event.name,none⟩ (values event)
      else .accepted ⟨eventType event.name,none⟩ (values event) := by
  obtain ⟨hli,he⟩ := isEntry_entry hr ht hh hw
  have hre : words isSpace ([' '].intercalate (values event)) = values event :=
    words_intercalate_of_isWord rfl hw
  have hk : kindOf (eventType event.name) (values event).length =
      some ⟨eventType event.name,none⟩ := length_values hr ▸ kindOf_length_schema _
  rw [readLine_of_isEntry hli he]
  split
  · next hn =>
    have hb := eventType_eq_bytes.mpr hn
    obtain ⟨value,hl⟩ := exists_last_value hr
    have hs := (dropLast_append_getLast? value hl).symm
    have hlen : (values event).length ≠ 8 := by
      rw [length_values hr,hb]
      decide
    have hv : versionDiscarded int (values event) = some false := if_neg hlen
    rw [hb] at hk ⊢
    rw [readEntry_bytes (hre.trans hs),← hs,hk,hv,hl]
    rfl
  · next hn =>
    rw [readEntry_of_ne (mt eventType_eq_bytes.mp hn),hre,hk]

theorem countReads_of_each
    (h : readLine int (entry timestamp hostId event) ≠ .raised) : CountReads int event := by
  intro hn value hl
  by_contra hno
  have hra : countValid int value = none := by
    rw [countValid,not_isSome_iff_eq_none.mp hno]
    rfl
  rw [readLine_entry hr ht hh hw int,if_pos hn,hl,bind_some,hra] at h
  exact h rfl

/-- An entry whose values are words, and whose byte count can be read, is one line that is rejected
or stored as it was logged. -/
theorem inColumns_of_words
    (hc : CountReads int event) : InColumns int event (entry timestamp hostId event) := by
  have hl := lines_of_not_mem (isEntry_entry hr ht hh hw).1
  constructor
  · intro line hli
    rw [hl,mem_singleton] at hli
    subst hli
    have ha : ∃ kind stored, accepted ⟨eventType event.name,none⟩ (values event) =
        .accepted kind stored ∧ kind.event = eventType event.name ∧
          (kind.columns.map some).zip stored = record event :=
      ⟨_,_,rfl,rfl,(record_eq hr).symm⟩
    rw [readLine_entry hr ht hh hw int]
    split
    · next hna =>
      obtain ⟨value,hla⟩ := exists_last_value hr
      obtain ⟨n,hn⟩ := isSome_iff_exists.mp (hc hna value hla)
      rw [hla,bind_some,countValid,hn,map_some]
      cases decide (0 ≤ n ∧ n < 2147483647) with
      | false => exact .inl rfl
      | true => exact .inr ha
    · exact .inr ha
  · rw [hl]
    exact Nat.le_trans (length_filter_le _ _) (by simp)

end Regular

theorem inColumns_of_unreadable (h : ∀ line ∈ lines text, Unreadable int line) :
    InColumns int event text := by
  have hr : ∀ line ∈ lines text, (readLine int line).rejected = true := fun line hl =>
    (rejected_readLine_iff (not_mem_of_mem_lines hl)).mpr (h line hl)
  refine ⟨fun line hl => .inl (hr line hl),?_⟩
  rw [filter_eq_nil_iff.mpr,length_nil]
  · exact Nat.zero_le 1
  · intro line hl ha
    have hl := hr line hl
    cases hre : readLine int line <;> rw [hre] at hl ha <;>
      first | exact Bool.noConfusion hl | exact Bool.noConfusion ha

/-- An event is stored in its columns exactly when its free values are single words and its byte
count can be read, or when no line of its entry can be read. -/
theorem inColumns_iff (int : Text → Option ℤ) (hr : event.Regular)
    (ht : IsTimestamp timestamp) (hh : IsHostId hostId) :
    InColumns int event (entry timestamp hostId event) ↔
      ((∀ value ∈ event.logged, value.1 ∈ Web.freeNames → IsWord isSpace value.2) ∧
        CountReads int event) ∨
      ∀ line ∈ lines (entry timestamp hostId event), Unreadable int line := by
  have hall : (∀ value ∈ event.logged, value.1 ∈ Web.freeNames → IsWord isSpace value.2) ↔
      ∀ value ∈ values event, IsWord isSpace value := by
    constructor
    · intro h text hte
      obtain ⟨value,hv,rfl⟩ := mem_map.mp hte
      by_cases hf : value.1 ∈ Web.freeNames
      · exact h value hv hf
      · exact hr.words value hv hf
    · intro h value hv _
      exact h value.2 (mem_map_of_mem hv)
  rw [hall]
  constructor
  · intro h
    by_cases hw : ∀ value ∈ values event, IsWord isSpace value
    · refine .inl ⟨hw,countReads_of_each hr ht hh hw fun hra => ?_⟩
      have hl : entry timestamp hostId event ∈ lines (entry timestamp hostId event) := by
        rw [lines_of_not_mem (isEntry_entry hr ht hh hw).1]
        exact mem_singleton_self _
      obtain hre | ⟨kind,stored,hread,-⟩ := h.each _ hl
      · rw [hra] at hre
        exact Bool.noConfusion hre
      · exact Outcome.noConfusion (hra.symm.trans hread)
    · -- what is stored are words, so that no line can be stored as it was logged
      refine .inr fun line hl => ?_
      obtain hre | ⟨kind,stored,hread,-,hrec⟩ := h.each line hl
      · exact (rejected_readLine_iff (not_mem_of_mem_lines hl)).mp hre
      · obtain ⟨hs,hlen⟩ := of_readLine_eq_accepted hread
        exact absurd (values_of_record hr hlen hrec ▸ hs) hw
  · rintro (⟨hw,hc⟩ | hn)
    · exact inColumns_of_words hr ht hh hw hc
    · exact inColumns_of_unreadable hn

end Entry

end

/-! ### What the server logs -/

/-- Whatever a handler logs for a request is stored in its columns exactly when its free values are
single words and its byte count can be read, or when no line of its entry can be read. -/
theorem logged_inColumns_iff (int : Text → Option ℤ) {platform : Web.Platform} {server : Web.Server}
    {session : Text → Option Text} {request : Web.Request} {endpoint : Web.Endpoint}
    {discovered : List Text} {event : Web.Event}
    (hevent : event ∈ Web.handle platform server session request endpoint discovered)
    {timestamp hostId : Text} (htimestamp : IsTimestamp timestamp) (hhost : IsHostId hostId) :
    InColumns int event (entry timestamp hostId event) ↔
      ((∀ value ∈ event.logged, value.1 ∈ Web.freeNames → IsWord isSpace value.2) ∧
        CountReads int event) ∨
      ∀ line ∈ lines (entry timestamp hostId event), Unreadable int line :=
  inColumns_iff int (Web.regular_of_mem_handle hevent) htimestamp hhost

def examplePlatform : Web.Platform where
  inetAton text := text = "1.2.3.4".toList
  isdigit text := text ≠ [] && text.all Char.isDigit
  int text := (digits? text).map Int.ofNat
  truncate _ := none
  lower text := text.map Char.toLower
  loads := Web.Flat.loads
  str := Web.Flat.dumps
  getGeoip _ := Web.unknownGeoip

/-- The session of the client, as the meek server has stored it. -/
def sessionIn (city : String) (id : Text) : Option Text :=
  if id = "CCCC".toList then
    some (Web.Flat.dumps (Web.Geoip.value ⟨"CA".toList, city.toList, "None".toList⟩))
  else none

def exampleServer : Web.Server := ⟨"1.2.3.4".toList, "5ec2e7".toList⟩

def handshakeRequest : Web.Request where
  param
    | .serverSecret => some "5ec2e7".toList
    | .propagationChannelId => some "AAAA".toList
    | .sponsorId => some "BBBB".toList
    | .clientVersion => some "44".toList
    | .clientSessionId => some "CCCC".toList
    | _ => none
  remoteAddr := "127.0.0.1".toList
  knownServers := []
  body := []

def handshakeEvent (city : String) : Web.Event :=
  ⟨.handshake, [(.serverIpAddress, "1.2.3.4".toList), (.clientRegion, "CA".toList),
    (.clientCity, city.toList), (.clientIsp, "None".toList), (.propagationChannelId, "AAAA".toList),
    (.sponsorId, "BBBB".toList), (.clientVersion, "44".toList), (.clientPlatform, "Windows".toList),
    (.relayProtocol, "VPN".toList), (.tunnelWholeDevice, "0".toList)]⟩

def exampleTimestamp : Text := "2011-06-28T13:15:59.000000-07:00".toList

theorem logged_inColumns_toronto :
    handshakeEvent "Toronto" ∈ Web.handle examplePlatform exampleServer (sessionIn "Toronto")
      handshakeRequest .handshake [] ∧
    InColumns (fun _ => none) (handshakeEvent "Toronto")
      (entry exampleTimestamp "host1".toList (handshakeEvent "Toronto")) := by
  have he : handshakeEvent "Toronto" ∈ Web.handle examplePlatform exampleServer
      (sessionIn "Toronto") handshakeRequest .handshake [] := by
    decide +kernel
  exact ⟨he,(logged_inColumns_iff (fun _ => none) he (by decide +kernel)
    (by decide +kernel)).mpr (.inl ⟨by decide +kernel,fun hn => absurd hn (by decide)⟩)⟩

/-- A client whose city is empty, as without the header of the meek server: the line has nine words,
and is stored as one without the flag for whole devices. -/
theorem not_inColumns_emptyCity :
    handshakeEvent "" ∈ Web.handle examplePlatform exampleServer (sessionIn "")
      handshakeRequest .handshake [] ∧
    IsTimestamp exampleTimestamp ∧ IsHostId "host1".toList ∧
    readLine (fun _ => none) (entry exampleTimestamp "host1".toList (handshakeEvent "")) =
      .accepted ⟨.handshake, some 9⟩
        (["1.2.3.4", "CA", "None", "AAAA", "BBBB", "44", "Windows", "VPN",
        "0"].map String.toList) ∧
    ¬ InColumns (fun _ => none) (handshakeEvent "")
      (entry exampleTimestamp "host1".toList (handshakeEvent "")) := by
  refine ⟨by decide +kernel,by decide +kernel,by decide +kernel,by decide +kernel,fun h => ?_⟩
  obtain hr | ⟨kind,stored,ha,-,hre⟩ :=
    h.each (entry exampleTimestamp "host1".toList (handshakeEvent "")) (by decide +kernel)
  · exact absurd hr (by decide +kernel)
  · cases ha
    exact absurd hre (by decide +kernel)

end Psiphon.Stats
