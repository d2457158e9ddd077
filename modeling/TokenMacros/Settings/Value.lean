import TokenMacros.Host.FileSystem
import TokenMacros.Settings.Binary64
import TokenMacros.Text.Numeral
import TokenMacros.Text.Quoted

/-!
# Setting values

Settings are of many kinds, in a configuration file as in an override.  Where a
setting needs a truth value, a whole number or a table, values of other kinds
are converted if that makes sense, and refused with a reason otherwise.
-/

namespace TokenMacros

inductive MomentKind where
  | date
  /-- A date and a time of day, wherever. -/
  | localDateTime
  /-- A date and a time of day at a known distance from universal time. -/
  | dateTime
  | time
  deriving Repr, DecidableEq

structure Moment where
  kind : MomentKind
  text : String
  /-- Microseconds since the year one began, or since the day did; by universal
  time if the distance from it is known. -/
  instant : Int
  deriving Repr, DecidableEq

/-- What a table can have as a key: all but lists and tables. -/
inductive TableKey where
  | null
  | boolean (value : Bool)
  | integer (value : Int)
  | float (value : Binary64)
  | text (value : String)
  | moment (value : Moment)
  deriving Repr

namespace TableKey

/-- A key as a number; truth values count as one and zero. -/
def number? : TableKey → Option Binary64
  | boolean value => some (.finite false value.toNat 0)
  | integer value => some (.finite (value < 0) value.natAbs 0)
  | float value => some value
  | _ => none

/-- Both find the same entry of a table. -/
def same : TableKey → TableKey → Bool
  | null, null => true
  | text left, text right => left == right
  | moment left, moment right =>
    left.kind == right.kind && left.instant == right.instant
  | left, right =>
    match left.number?, right.number? with
    | some left, some right => left.equals right
    | _, _ => false

instance : BEq TableKey := ⟨same⟩

def text? : TableKey → Option String
  | text value => some value
  | _ => none

end TableKey

inductive Value where
  | null
  | boolean (value : Bool)
  | integer (value : Int)
  | float (value : Binary64)
  | text (value : String)
  | moment (value : Moment)
  | list (items : List Value)
  /-- Values by key, in the order in which the keys were set. -/
  | table (entries : List (TableKey × Value))
  deriving Repr, BEq

/-- The entries of a table. -/
abbrev Entries := List (TableKey × Value)

namespace Entries

/-- The value under a name. -/
def entry? (entries : Entries) (name : String) : Option Value :=
  entries.lookup (.text name)

def names (entries : Entries) : List String :=
  entries.filterMap (·.1.text?)

/-- Sets a key of a table; a key that is there keeps its place and its
spelling. -/
def set (entries : Entries) (key : TableKey) (value : Value) : Entries :=
  match entries with
  | [] => [(key, value)]
  | (held, old) :: rest =>
    if held == key then (held, value) :: rest else (held, old) :: set rest key value

end Entries

namespace Value

def kindName : Value → String
  | null => "NoneType"
  | boolean _ => "bool"
  | integer _ => "int"
  | float _ => "float"
  | text _ => "str"
  | moment value =>
    match value.kind with
    | .date => "datetime.date"
    | .localDateTime => "datetime.datetime"
    | .dateTime => "datetime.datetime"
    | .time => "datetime.time"
  | list _ => "list"
  | table _ => "dict"

/-- The value counts as true: it is no zero and not empty. -/
def truth : Value → Bool
  | null => false
  | boolean value => value
  | integer value => value != 0
  | float value => !value.isZero
  | text value => value != ""
  | moment .. => true
  | list items => !items.isEmpty
  | table entries => !entries.isEmpty

/-- The longest quotation of a text in a reason. -/
def maxQuotation : Nat := 200

/-- A whole number that is written in a text. -/
def wholeOfText (written : String) : Except Stop Int :=
  match Text.readNumeral written.toList with
  | .ok value => .ok value
  | .error .malformed =>
    let quotation := (Text.quoted written.toList).take maxQuotation
    .error (.wrongValue
      ("invalid literal for int() with base 10: " ++ String.ofList quotation))
  | .error (.tooLong digits) =>
    .error (.wrongValue
      ("Exceeds the limit (" ++ toString Text.maxNumeralDigits ++
        " digits) for integer string conversion: value has " ++ toString digits ++
        " digits; use sys.set_int_max_str_digits() to increase the limit"))

/-- The value as a whole number; a fraction is cut off. -/
def toWhole : Value → Except Stop Int
  | boolean value => .ok (if value then 1 else 0)
  | integer value => .ok value
  | float (.finite negative significand exponent) =>
    .ok (Binary64.truncate negative significand exponent)
  | float (.infinity _) => .error .infinite
  | float .nan => .error (.wrongValue "cannot convert float NaN to integer")
  | text value => wholeOfText value
  | value =>
    .error (.wrongKind
      ("int() argument must be a string, a bytes-like object or a real number, not '" ++
        value.kindName ++ "'"))

/-- A key of a table as a value. -/
def ofKey : TableKey → Value
  | .null => null
  | .boolean value => boolean value
  | .integer value => integer value
  | .float value => float value
  | .text value => text value
  | .moment value => moment value

/-- The elements of a value that is made of elements: the items of a list, the
characters of a text, the keys of a table. -/
def elements? : Value → Option (List Value)
  | list items => some items
  | text value => some (value.toList.map fun c => text (String.singleton c))
  | table entries => some (entries.map fun (key, _) => ofKey key)
  | _ => none

/-- A value as the key of a table. -/
def toKey : Value → Except Stop TableKey
  | null => .ok .null
  | boolean value => .ok (.boolean value)
  | integer value => .ok (.integer value)
  | float value => .ok (.float value)
  | text value => .ok (.text value)
  | moment value => .ok (.moment value)
  | value => .error (.wrongKind ("unhashable type: '" ++ value.kindName ++ "'"))

/-- Key and value of the element of the given number, which must be made of two
elements. -/
def toPair (index : Nat) (element : Value) : Except Stop (TableKey × Value) :=
  match element.elements? with
  | none =>
    .error (.wrongKind
      ("cannot convert dictionary update sequence element #" ++ toString index ++
        " to a sequence"))
  | some [key, value] => return (← key.toKey, value)
  | some parts =>
    .error (.wrongValue
      ("dictionary update sequence element #" ++ toString index ++ " has length " ++
        toString parts.length ++ "; 2 is required"))

/-- The value as a table: a table itself, or pairs of keys and values. -/
def toTable (value : Value) : Except Stop Entries :=
  match value with
  | table entries => .ok entries
  | _ =>
    match value.elements? with
    | none => .error (.wrongKind ("'" ++ value.kindName ++ "' object is not iterable"))
    | some parts => do
      let pairs ← parts.zipIdx.mapM fun (part, index) => toPair index part
      return pairs.foldl (fun entries (key, value) => entries.set key value) ([] : Entries)

end Value

end TokenMacros
