import Mathlib.Data.List.Lex
import Mathlib.Data.Char
import Psiphon.Stats.LogLine

/-!
# Storing the statistics log

`process_stats` of `psi_process_stats.py` goes through the log files of a host from their last line
back, down to the watermark. A run that fails is not committed.
-/

namespace Psiphon.Stats

open Words

/-- What the processor is given: the host, the network, the libraries and the database. -/
structure Config (V : Type) where
  hostId : Text
  /-- `server_ip_address_to_id` -/
  serverIds : List (Text × Text)
  /-- `excluded_propagation_channel_ids` -/
  excluded : List Text
  int : Text → Option ℤ
  /-- `text.strip()` -/
  strip : Text → Text
  /-- `iso8601.parse_date(text).isoformat()`, unless it raises -/
  parseDate : Text → Option Text
  /-- The value that the database makes of a text for a column, unless it refuses the text. -/
  cast : EventType → Column → Text → Option V
  /-- What a column gets that a row does not name; `none` is `NULL`. -/
  default : EventType → Column → Option V

variable {V : Type} (config : Config V)

def fixTimestamp (timestamp : Text) : Text :=
  match config.parseDate (config.strip timestamp) with
  | some _ => timestamp
  | none =>
    match config.parseDate ((config.strip timestamp).take 10) with
    | some date => date
    | none => timestamp

/-! ### Rows -/

structure Row (V : Type) where
  event : EventType
  /-- The columns of the table, with their values. -/
  values : List (Column × Option V)
  deriving DecidableEq, Repr

def Row.get (row : Row V) (column : Column) : Option V := (row.values.lookup column).join

/-- `LOG_ENTRY_COMMON_FIELDS` and the columns of the newest schema, which has those of the older
ones. -/
def tableColumns (event : EventType) : List Column := .timestamp :: .hostId :: schema event

def newRow (event : EventType) (fields : List (Column × Option V)) : Row V :=
  ⟨event, (tableColumns event).map fun column =>
    (column, (fields.lookup column).getD (config.default event column))⟩

/-- The row meets the condition of the insert, which compares the named columns, with `is` where the
value is `NULL`. -/
def covers [DecidableEq V] (event : EventType) (fields : List (Column × Option V)) (row : Row V) :
    Bool :=
  row.event = event && fields.all fun field => row.get field.1 = field.2

/-- `insert into … select … where not exists (…)` -/
def insertRow [DecidableEq V] (rows : List (Row V)) (event : EventType)
    (fields : List (Column × Option V)) : List (Row V) :=
  if rows.any (covers event fields) then rows else rows ++ [newRow config event fields]

/-! ### Entries -/

/-- A line that matches, of an event that is known. -/
structure Entry where
  timestamp : Text
  event : EventType
  text : Text
  deriving DecidableEq, Repr

def logEntry (line : Text) : Option Entry := do
  let m ← matchLine line
  let event ← EventType.ofText m.event
  return ⟨fixTimestamp config m.timestamp, event, m.text⟩

/-- The rewriting of server addresses and of `last_connected`. -/
def rewriteField (event : EventType) (column : Column) (value : Text) : Option Text :=
  if column = .serverId ∨ column = .discoveryServerId then
    some ((config.serverIds.lookup value).getD "Unknown".toList)
  else if event = .connected ∧ column = .lastConnected then
    if value = "Unknown".toList then none
    else if value = "None".toList then some "1900-01-01T00:00:00Z".toList
    else some (fixTimestamp config value)
  else some value

/-- The values as the database has them, unless it refuses one. -/
def castFields (event : EventType) :
    List (Column × Option Text) → Option (List (Column × Option V))
  | [] => some []
  | (column, none) :: rest => (castFields event rest).map ((column, none) :: ·)
  | (column, some text) :: rest => do
    let value ← config.cast event column text
    let values ← castFields event rest
    return (column, some value) :: values

inductive Effect (V : Type) where
  | nothing
  | fails
  | inserts (fields : List (Column × Option V))
  deriving DecidableEq

/-- The fields of an accepted entry, after their rewriting. -/
def fieldsOf (entry : Entry) (kind : Kind) (values : List Text) : List (Column × Option Text) :=
  (.timestamp, some entry.timestamp) :: (.hostId, some config.hostId) ::
    (kind.columns.zip values).map fun field =>
      (field.1, rewriteField config kind.event field.1 field.2)

/-- The entry is one of tests or of deployment validation. -/
def isExcluded (kind : Kind) (values : List Text) : Bool :=
  match (kind.columns.zip values).lookup .propagationChannelId with
  | some id => id ∈ config.excluded
  | none => false

def effect (entry : Entry) : Effect V :=
  match readEntry config.int entry.event entry.text with
  | .accepted kind values =>
    if isExcluded config kind values then .nothing
    else match castFields config entry.event (fieldsOf config entry kind values) with
      | none => .fails
      | some fields => .inserts fields
  | .raised => .fails
  | _ => .nothing

/-! ### Runs -/

/-- The event tables, and the timestamp of the host in `processed_logs`. -/
structure State (V : Type) where
  rows : List (Row V)
  lastTimestamp : Option Text

def State.empty : State V := ⟨[], none⟩

/-- `last_timestamp and timestamp < last_timestamp` -/
def isOld (last : Option Text) (timestamp : Text) : Bool :=
  match last with
  | none => false
  | some last => timestamp < last

/-- `if not next_last_timestamp or timestamp > next_last_timestamp: next_last_timestamp =
timestamp` -/
def later (next : Option Text) (timestamp : Text) : Option Text :=
  match next with
  | none => some timestamp
  | some next => if next < timestamp then some timestamp else some next

/-- The events that minimal processing does not skip. -/
def isMinimal (event : EventType) : Bool := event = .connected || event = .pageViews

structure Progress (V : Type) where
  rows : List (Row V)
  next : Option Text

/-- An entry that is neither old nor skipped. -/
def processEntry [DecidableEq V] (progress : Progress V) (entry : Entry) : Option (Progress V) :=
  match effect config entry with
  | .nothing => some ⟨progress.rows, later progress.next entry.timestamp⟩
  | .fails => none
  | .inserts fields =>
    some ⟨insertRow config progress.rows entry.event fields, later progress.next entry.timestamp⟩

/-- The loop over the lines of a file, from the last one back; an old line ends it. -/
def scanLines [DecidableEq V] (last : Option Text) (minimal : Bool) :
    List Text → Progress V → Option (Progress V)
  | [], progress => some progress
  | line :: rest, progress =>
    match logEntry config line with
    | none => scanLines last minimal rest progress
    | some entry =>
      if isOld last entry.timestamp then some progress
      else if minimal && !isMinimal entry.event then scanLines last minimal rest progress
      else match processEntry config progress entry with
        | none => none
        | some progress => scanLines last minimal rest progress

def scanFiles [DecidableEq V] (last : Option Text) (minimal : Bool) :
    List Text → Progress V → Option (Progress V)
  | [], progress => some progress
  | file :: rest, progress => do
    let progress ← scanLines config last minimal (lines file).reverse progress
    scanFiles last minimal rest progress

/-- `process_stats`, unless it raises -/
def processStats [DecidableEq V] (minimal : Bool) (files : List Text) (s : State V) :
    Option (State V) := do
  let progress ← scanFiles config s.lastTimestamp minimal files ⟨s.rows, none⟩
  return ⟨progress.rows, progress.next.or s.lastTimestamp⟩

/-- `process_stats_on_host`: nothing is committed when the run raises. -/
def processStatsOnHost [DecidableEq V] (minimal : Bool) (files : List Text) (s : State V) :
    State V :=
  (processStats config minimal files s).getD s

end Psiphon.Stats
