import Mathlib.Data.Int.Notation
import Psiphon.Lib.Fallible

/-!
# The Python values the operations scripts compute with

The exceptions, the conversions, and the port fields that are sometimes numbers and sometimes text.
-/

namespace Psiphon

inductive PyError where
  | assertionError
  | keyError
  | typeError
  | valueError
  | indexError
  | attributeError
  | zeroDivisionError
  | unboundLocalError
  | stopIteration
  /-- `struct.error` -/
  | structError
  | overflowError
  | runtimeError
  /-- A call to the outside world that failed. -/
  | external
  deriving DecidableEq, Repr

abbrev Py := Except PyError

def pyAssert (condition : Bool) : Py Unit :=
  if condition then .ok () else .error .assertionError

/-- `text.strip()`, for text in ASCII. -/
def pyStrip (text : List Char) : List Char :=
  ((text.dropWhile Char.isWhitespace).reverse.dropWhile Char.isWhitespace).reverse

def digits? (text : List Char) : Option ℕ :=
  if text ≠ [] ∧ text.all Char.isDigit then
    some (text.foldl (fun n c => 10 * n + (c.toNat - '0'.toNat)) 0)
  else none

/-- `int(text)`. -/
def pyInt (text : String) : Py ℤ :=
  let value := match pyStrip text.toList with
    | '-' :: rest => (digits? rest).map fun n => -(n : ℤ)
    | '+' :: rest => (digits? rest).map Int.ofNat
    | rest => (digits? rest).map Int.ofNat
  match value with
  | some n => .ok n
  | none => .error .valueError

/-- `part in text`. -/
def pyIn (part text : List Char) : Bool := text.tails.any part.isPrefixOf

/-- `text.split(separator)`, for a separator of one character. -/
def pySplit (text : String) (separator : Char) : List String :=
  (text.toList.splitOn separator).map String.ofList

/-- `first, second = text.split(' ')`. -/
def pySplitPair (text : String) : Py (String × String) :=
  match pySplit text ' ' with
  | [first, second] => .ok (first, second)
  | _ => .error .valueError

/-- A port field of the database: some are stored as numbers and some as text. -/
inductive Port where
  | int (n : ℤ)
  | str (text : String)
  deriving DecidableEq, Repr

namespace Port

def truthy : Port → Bool
  | int n => n != 0
  | str text => text != ""

/-- `int(port)`. -/
def toInt : Port → Py ℤ
  | int n => .ok n
  | str text => pyInt text

/-- `str(port)`. -/
def toStr : Port → String
  | int n => toString n
  | str text => text

end Port

/-- `int(port) if port else 0`. -/
def portOrZero : Option Port → Py ℤ
  | some port => if port.truthy then port.toInt else .ok 0
  | none => .ok 0

/-- `text if text else ''`. -/
def textOrEmpty (text : Option String) : String := text.getD ""

def textTruthy (text : Option String) : Bool := textOrEmpty text != ""

export Fallible (ok_bind pure_eq_ok bind_eq_ok_iff exists_bind_ok forall₂_of_mapM_eq_ok mapM_ok
  exists_of_forall₂_mem exists_of_mem_forall₂ exists_of_mem_mapM)

theorem pyAssert_eq_ok_iff {c : Bool} {u : Unit} : pyAssert c = .ok u ↔ c = true := by
  cases c <;> simp [pyAssert]

end Psiphon
