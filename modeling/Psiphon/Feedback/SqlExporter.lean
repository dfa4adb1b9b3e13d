import Psiphon.Feedback.Decryptor
import Psiphon.Lib.Runs
import Mathlib.Data.List.Sort

/-!
# The export of feedback to SQL

`sqlexporter.py` copies records to the table `diagnostic_data`, in passes that each start at the
largest time in the table. Times are in milliseconds from 1970.
-/

namespace Psiphon.Feedback

structure Record where
  /-- `_id` -/
  id : ℕ
  datetime : ℕ
  info : Obj

structure Row where
  objId : ℕ
  datetime : ℕ
  deriving DecidableEq, Repr

/-- MySQL discards fractions of a second. -/
def dropFraction (time : ℕ) : ℕ := time / 1000 * 1000

def diagnosticDataLifetime : ℕ := 60 * 60 * 24 * 7 * 26 * 1000

/-- Android data of a version below 2, or without a version that is an integer. -/
def isOldAndroid (info : Obj) : Bool :=
  let version : ℤ := match coalesce info [key "Metadata", key "version"] with
    | .int n => n
    | _ => 0
  match coalesce info [key "Metadata", key "platform"] with
  | .str _ text => text = "android".toList && version < 2
  | _ => false

def createRow (record : Record) : Row := ⟨record.id, dropFraction record.datetime⟩

def isExported (table : List Row) (record : Record) : Bool :=
  table.any fun row => row.objId = record.id

/-- The table after the call, unless it raises. Whether a row that is not a duplicate goes in is
given. -/
def processDiagnosticInfo (table : List Row) (record : Record) (succeeds : Bool) :
    Option (List Row) :=
  if isOldAndroid record.info then some table
  -- "Duplicate entry" for `obj_id` is expected and ignored.
  else if isExported table record then some table
  else if succeeds then some (table ++ [createRow record])
  else none

def getLastTimestamp (table : List Row) : ℕ := (table.map Row.datetime).foldl max 0

def getSqlexporterDiagnosticInfoIterator (store : List Record) (startDatetime : ℕ) : List Record :=
  (store.filter fun record => startDatetime < record.datetime).insertionSort
    fun a b => a.datetime ≤ b.datetime

def truncateDb (now : ℕ) (table : List Row) : List Row :=
  table.filter fun row => now ≤ row.datetime + diagnosticDataLifetime

/-- One turn of the loop of `_diagnostic_record_iter`. -/
structure Pass where
  lastTimestamp : ℕ
  /-- The time of the record that the cursor gave last. -/
  position : ℕ
  /-- What the cursor has still to give. -/
  queue : List Record
  /-- The records that were visible when the pass began. -/
  began : List Record
  /-- A call in this pass raised. -/
  raised : Bool

inductive Inserter where
  | mailDecryptor
  | s3Decryptor
  deriving DecidableEq, Repr

structure Export where
  clock : ℕ
  /-- All records that were ever stamped, each at the place of its ID. -/
  stamped : List Record
  /-- A record that its process has stamped and that is not visible yet. -/
  pending : Inserter → Option Record
  store : List Record
  table : List Row
  pass : Option Pass

namespace Export

def fresh : Export := ⟨1, [], fun _ => none, [], [], none⟩

inductive Action where
  | tick (n : ℕ)
  /-- `obj['datetime'] = datetime.datetime.now()` -/
  | stamp (inserter : Inserter) (info : Obj)
  /-- The record becomes visible. A cursor that is open may still come to it. -/
  | insert (inserter : Inserter) (seen : Bool)
  /-- The store drops what is past its lifetime. -/
  | expire
  | begin
  | process (succeeds : Bool)
  | finish

/-- The open cursor with a record that it will come to. -/
def Pass.see (pass : Pass) (record : Record) : Option Pass :=
  if pass.lastTimestamp < record.datetime ∧ pass.position ≤ record.datetime then
    some { pass with queue := pass.queue.orderedInsert (fun a b => a.datetime ≤ b.datetime) record }
  else none

def step (s : Export) : Action → Option Export
  | .tick n => some { s with clock := s.clock + n }
  | .stamp inserter info =>
    match s.pending inserter with
    | none =>
      let record : Record := ⟨s.stamped.length, s.clock, info⟩
      some { s with
        stamped := s.stamped ++ [record]
        pending := Function.update s.pending inserter (some record) }
    | some _ => none
  | .insert inserter seen =>
    match s.pending inserter with
    | some record =>
      let s' := { s with
        pending := Function.update s.pending inserter none
        store := s.store ++ [record] }
      if seen then
        (s.pass.bind fun pass => Pass.see pass record).map fun pass => { s' with pass := some pass }
      else some s'
    | none => none
  | .expire =>
    some { s with store := s.store.filter fun r => s.clock ≤ r.datetime + diagnosticDataLifetime }
  | .begin =>
    match s.pass with
    | none =>
      let last := getLastTimestamp s.table
      let queue := getSqlexporterDiagnosticInfoIterator s.store last
      some { s with pass := some ⟨last, last, queue, s.store, false⟩ }
    | some _ => none
  | .process succeeds =>
    match s.pass with
    | some ⟨last, _, r :: queue, began, raised⟩ =>
      match processDiagnosticInfo s.table r succeeds with
      | some table => some { s with table, pass := some ⟨last, r.datetime, queue, began, raised⟩ }
      | none => some { s with pass := some ⟨last, r.datetime, queue, began, true⟩ }
    | _ => none
  | .finish =>
    match s.pass with
    | some ⟨_, _, [], _, _⟩ => some { s with table := truncateDb s.clock s.table, pass := none }
    | _ => none

end Export

end Psiphon.Feedback
