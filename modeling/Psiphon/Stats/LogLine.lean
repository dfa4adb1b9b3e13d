import Mathlib.Data.Int.Notation
import Psiphon.Lib.Words

/-!
# The lines of the statistics log

The part of `process_stats` of `psi_process_stats.py` that takes a line apart.
-/

namespace Psiphon.Stats

open List Option Words

abbrev Text := List Char

/-! ### Events and their columns -/

/-- The keys of `LOG_EVENT_TYPE_SCHEMA` without a number. -/
inductive EventType where
  | started
  | handshake
  | discovery
  | connected
  | failed
  | download
  | disconnected
  | status
  | bytesTransferred
  | pageViews
  | httpsRequests
  | speed
  | feedback
  deriving DecidableEq, Repr

namespace EventType

def text : EventType → Text
  | started => "started".toList
  | handshake => "handshake".toList
  | discovery => "discovery".toList
  | connected => "connected".toList
  | failed => "failed".toList
  | download => "download".toList
  | disconnected => "disconnected".toList
  | status => "status".toList
  | bytesTransferred => "bytes_transferred".toList
  | pageViews => "page_views".toList
  | httpsRequests => "https_requests".toList
  | speed => "speed".toList
  | feedback => "feedback".toList

def all : List EventType :=
  [started, handshake, discovery, connected, failed, download, disconnected, status,
    bytesTransferred, pageViews, httpsRequests, speed, feedback]

/-- `LOG_EVENT_TYPE_SCHEMA.has_key(name)`, for a name without a dot. -/
def ofText (name : Text) : Option EventType := all.find? fun event => event.text = name

end EventType

inductive Column where
  | timestamp
  | hostId
  | serverId
  | clientRegion
  | clientCity
  | clientIsp
  | propagationChannelId
  | sponsorId
  | clientVersion
  | clientPlatform
  | relayProtocol
  | tunnelWholeDevice
  | discoveryServerId
  | clientUnknown
  | sessionId
  | lastConnected
  | errorCode
  | connected
  | bytes
  | pagename
  | viewcount
  | domain
  | count
  | operation
  | info
  | milliseconds
  | size
  | question
  | answer
  deriving DecidableEq, Repr

/-- What every event of the first clients starts with. -/
def regionColumns : List Column :=
  [.serverId, .clientRegion, .propagationChannelId, .sponsorId, .clientVersion, .clientPlatform,
    .relayProtocol]

/-- The same with city and provider. -/
def cityColumns : List Column :=
  [.serverId, .clientRegion, .clientCity, .clientIsp, .propagationChannelId, .sponsorId,
    .clientVersion, .clientPlatform, .relayProtocol]

/-- The same with the flag for whole devices. -/
def deviceColumns : List Column := cityColumns ++ [.tunnelWholeDevice]

/-- `LOG_EVENT_TYPE_SCHEMA`, at the keys without a number. -/
def schema : EventType → List Column
  | .started => [.serverId]
  | .handshake => deviceColumns
  | .discovery => deviceColumns ++ [.discoveryServerId, .clientUnknown]
  | .connected => deviceColumns ++ [.sessionId, .lastConnected]
  | .failed => deviceColumns ++ [.errorCode]
  | .download => deviceColumns
  | .disconnected => [.relayProtocol, .sessionId]
  | .status => [.relayProtocol, .sessionId]
  | .bytesTransferred => deviceColumns ++ [.sessionId, .connected, .bytes]
  | .pageViews => deviceColumns ++ [.sessionId, .connected, .pagename, .viewcount]
  | .httpsRequests => deviceColumns ++ [.sessionId, .connected, .domain, .count]
  | .speed => deviceColumns ++ [.operation, .info, .milliseconds, .size]
  | .feedback => deviceColumns ++ [.sessionId, .question, .answer]

/-- The same at the keys with a number. -/
def older : EventType → List (ℕ × List Column)
  | .started => []
  | .handshake => [(7, regionColumns), (9, cityColumns)]
  | .discovery => [(9, regionColumns ++ [.discoveryServerId, .clientUnknown]),
      (11, cityColumns ++ [.discoveryServerId, .clientUnknown])]
  | .connected => [(8, regionColumns ++ [.sessionId]),
      (11, cityColumns ++ [.sessionId, .lastConnected])]
  | .failed => [(8, regionColumns ++ [.errorCode]), (10, cityColumns ++ [.errorCode])]
  | .download => [(6, regionColumns.dropLast), (8, cityColumns.dropLast)]
  | .disconnected => []
  | .status => []
  | .bytesTransferred => [(8, regionColumns ++ [.bytes]),
      (12, cityColumns ++ [.sessionId, .connected, .bytes])]
  | .pageViews => [(9, regionColumns ++ [.pagename, .viewcount]),
      (13, cityColumns ++ [.sessionId, .connected, .pagename, .viewcount])]
  | .httpsRequests => [(9, regionColumns ++ [.domain, .count]),
      (13, cityColumns ++ [.sessionId, .connected, .domain, .count])]
  | .speed => [(11, regionColumns ++ [.operation, .info, .milliseconds, .size]),
      (13, cityColumns ++ [.operation, .info, .milliseconds, .size])]
  | .feedback => [(12, cityColumns ++ [.sessionId, .question, .answer])]

/-- A key of `LOG_EVENT_TYPE_SCHEMA`: the event, and the number after the dot if there is one. -/
structure Kind where
  event : EventType
  fields : Option ℕ
  deriving DecidableEq, Repr

def Kind.columns (kind : Kind) : List Column :=
  match kind.fields with
  | none => schema kind.event
  | some n => ((older kind.event).lookup n).getD []

/-- The key for a line of the event with so many values. -/
def kindOf (event : EventType) (n : ℕ) : Option Kind :=
  if n = (schema event).length then some ⟨event, none⟩
  else match (older event).lookup n with
    | none => none
    | some columns => if n = columns.length then some ⟨event, some n⟩ else none

/-! ### The pattern -/

/-- `[\dT\.:\+-]` -/
def isTimestampChar (c : Char) : Bool :=
  c.isDigit || c = 'T' || c = '.' || c = ':' || c = '+' || c = '-'

/-- `\w` -/
def isWordChar (c : Char) : Bool := c.isAlphanum || c = '_'

/-- `[\w\(\)-]` -/
def isHostChar (c : Char) : Bool := isWordChar c || c = '(' || c = ')' || c = '-'

/-- Where `split()` splits. -/
def isSpace (c : Char) : Bool :=
  c = ' ' || c = '\t' || c = '\n' || c = '\r' || c = '\x0b' || c = '\x0c'

structure Match where
  timestamp : Text
  hostId : Text
  event : Text
  text : Text
  deriving DecidableEq, Repr

def tag : Text := " psiphonv: ".toList

/-- `line_re.match(line)`: no class holds the character that follows it in the pattern, so that no
group can give back what it took. -/
def matchLine (line : Text) : Option Match := do
  let (timestamp, rest) ← run isTimestampChar line
  let rest ← literal [' '] rest
  let (hostId, rest) ← run isHostChar rest
  let rest ← literal tag rest
  let (event, rest) ← run isWordChar rest
  let rest ← literal [' '] rest
  let (text, _) ← run (· ≠ '\n') rest
  return ⟨timestamp, hostId, event, text⟩

/-! ### Taking a line apart -/

inductive Outcome where
  /-- `'unexpected log line pattern'` -/
  | unexpected
  /-- `'invalid log line fields'` -/
  | invalidFields
  /-- `'invalid byte fields'` -/
  | invalidBytes
  /-- Byte counts of client version 24 are discarded. -/
  | discarded
  /-- `int` raises. -/
  | raised
  /-- The values go to the columns of the key. -/
  | accepted (kind : Kind) (values : List Text)
  deriving DecidableEq, Repr

variable (int : Text → Option ℤ)

/-- The loop over the columns that looks for byte counts: `none` if `int` raises, otherwise whether
all are in range. -/
def byteFieldsValid : List (Column × Text) → Option Bool
  | [] => some true
  | (column, value) :: rest =>
    if column = .bytes then
      match int value with
      | none => none
      | some n => if 0 ≤ n ∧ n < 2147483647 then byteFieldsValid rest else some false
    else byteFieldsValid rest

/-- `int(field_values[6]) == 24`, where only `bytes_transferred.8` is looked at: the client version
is the fifth value. -/
def fromVersion24 (kind : Kind) (values : List Text) : Option Bool :=
  if kind = ⟨.bytesTransferred, some 8⟩ then (int (values.getD 4 [])).map (· = 24) else some false

/-- The values of an entry, once its event is known. -/
def readEntry (event : EventType) (text : Text) : Outcome :=
  let values := words isSpace text
  match kindOf event values.length with
  | none => .invalidFields
  | some kind =>
    match fromVersion24 int kind values with
    | none => .raised
    | some true => .discarded
    | some false =>
      match byteFieldsValid int (kind.columns.zip values) with
      | none => .raised
      | some false => .invalidBytes
      | some true => .accepted kind values

/-- A line that the watermark and the flag for minimal processing let through. -/
def readLine (line : Text) : Outcome :=
  match matchLine line with
  | none => .unexpected
  | some m =>
    match EventType.ofText m.event with
    | none => .unexpected
    | some event => readEntry int event m.text

/-- `file.read().split('\n')` -/
def lines (text : Text) : List Text := text.splitOn '\n'

/-! ### What the pattern matches -/

def IsTimestamp (text : Text) : Prop := text ≠ [] ∧ ∀ c ∈ text, isTimestampChar c = true

def IsHostId (text : Text) : Prop := text ≠ [] ∧ ∀ c ∈ text, isHostChar c = true

-- by the characters of the text: the instance for all of `Char` would try every character there is
instance (text : Text) : Decidable (IsTimestamp text) :=
  have := List.decidableBAll (isTimestampChar · = true) text
  inferInstanceAs (Decidable (_ ∧ _))

instance (text : Text) : Decidable (IsHostId text) :=
  have := List.decidableBAll (isHostChar · = true) text
  inferInstanceAs (Decidable (_ ∧ _))

def entryHead (timestamp hostId event : Text) : Text :=
  timestamp ++ ' ' :: (hostId ++ (tag ++ (event ++ [' '])))

def Match.line (m : Match) : Text := entryHead m.timestamp m.hostId m.event ++ m.text

structure Match.WellFormed (m : Match) : Prop where
  timestamp : IsTimestamp m.timestamp
  hostId : IsHostId m.hostId
  event : m.event ≠ [] ∧ ∀ c ∈ m.event, isWordChar c = true
  text : m.text ≠ [] ∧ '\n' ∉ m.text

theorem run_of_space {p : Char → Bool} (hs : p ' ' = false) {first : Text}
    (hf : first ≠ [] ∧ ∀ c ∈ first, p c = true) (rest : Text) :
    run p (first ++ ' ' :: rest) = some (first, ' ' :: rest) := by
  refine run_eq_some_iff.mpr ⟨rfl,hf.1,hf.2,?_⟩
  rintro c ⟨⟩
  exact hs

theorem matchLine_line {m : Match} (h : m.WellFormed) : matchLine m.line = some m := by
  have htag : tag = ' ' :: "psiphonv: ".toList := rfl
  have ht : run (· ≠ '\n') m.text = some (m.text, []) := by
    refine run_eq_some_iff.mpr ⟨(append_nil _).symm,h.text.1,?_,by simp⟩
    intro c hc
    exact decide_eq_true fun heq => h.text.2 (heq ▸ hc)
  have hl : m.line = m.timestamp ++ ' ' :: (m.hostId ++ ' ' ::
      ("psiphonv: ".toList ++ (m.event ++ ' ' :: m.text))) := by
    simp only [Match.line,entryHead,htag,append_assoc,cons_append,nil_append]
  -- every group ends at a blank, which is in none of the classes
  have h₁ := run_of_space (p := isTimestampChar) rfl h.timestamp
    (m.hostId ++ ' ' :: ("psiphonv: ".toList ++ (m.event ++ ' ' :: m.text)))
  have h₂ := run_of_space (p := isHostChar) rfl h.hostId
    ("psiphonv: ".toList ++ (m.event ++ ' ' :: m.text))
  have h₃ := run_of_space (p := isWordChar) rfl h.event m.text
  have hb : ∀ rest : Text, literal [' '] (' ' :: rest) = some rest := fun rest =>
    literal_eq_some_iff.mpr rfl
  have hm : literal tag (' ' :: ("psiphonv: ".toList ++ (m.event ++ ' ' :: m.text))) =
      some (m.event ++ ' ' :: m.text) := literal_eq_some_iff.mpr rfl
  rw [matchLine,hl]
  simp only [h₁,h₂,h₃,hb,hm,ht,bind_eq_bind,bind_some]
  rfl

/-- The pattern matches a line exactly when its groups make up the line. -/
theorem matchLine_eq_some_iff {line : Text} (hl : '\n' ∉ line) {m : Match} :
    matchLine line = some m ↔ line = m.line ∧ m.WellFormed := by
  constructor
  · intro h
    simp only [matchLine,Option.bind_eq_bind,Option.bind_eq_some_iff,Prod.exists,
      Option.pure_def,Option.some.injEq,run_eq_some_iff,literal_eq_some_iff] at h
    obtain ⟨ts,r₁,⟨rfl,hts⟩,r₂,rfl,host,r₃,⟨rfl,hh⟩,r₄,rfl,event,r₅,⟨rfl,he⟩,
      r₆,rfl,text,r₇,⟨rfl,ht⟩,rfl⟩ := h
    -- the last group goes to the end of the line, for nothing else stops it
    obtain rfl : r₇ = [] := by
      cases r₇ with
      | nil => rfl
      | cons c r₇ =>
        obtain rfl : c = '\n' := by simpa using ht.2.2 c rfl
        exact absurd (by simp) hl
    refine ⟨by simp [Match.line,entryHead],⟨hts.1,hts.2.1⟩,⟨hh.1,hh.2.1⟩, ⟨he.1,he.2.1⟩,ht.1,?_⟩
    intro hm
    exact hl (by simp [hm])
  · rintro ⟨rfl,h⟩
    exact matchLine_line h

theorem EventType.ofText_text (event : EventType) : EventType.ofText event.text = some event := by
  cases event <;> decide +kernel

theorem EventType.ofText_eq_some_iff {name : Text} {event : EventType} :
    EventType.ofText name = some event ↔ name = event.text := by
  constructor
  · intro h
    have hf := List.find?_some h
    exact (of_decide_eq_true hf).symm
  · rintro rfl
    exact event.ofText_text

theorem EventType.text_wellFormed (event : EventType) :
    event.text ≠ [] ∧ ∀ c ∈ event.text, isWordChar c = true := by
  have ha : event.text.all isWordChar = true := by cases event <;> decide +kernel
  exact ⟨by cases event <;> decide +kernel,all_eq_true.mp ha⟩

theorem length_columns_of_kindOf {event : EventType} {n : ℕ} {kind : Kind}
    (h : kindOf event n = some kind) : kind.event = event ∧ kind.columns.length = n := by
  unfold kindOf at h
  split at h
  · next hn =>
    cases h
    exact ⟨rfl,hn.symm⟩
  · split at h
    · cases h
    · next columns hc =>
      split at h
      · next hn =>
        cases h
        simp only [Kind.columns,hc,getD_some]
        exact ⟨trivial,hn.symm⟩
      · cases h

theorem kindOf_length_schema (event : EventType) :
    kindOf event (schema event).length = some ⟨event,none⟩ := if_pos rfl

end Psiphon.Stats
