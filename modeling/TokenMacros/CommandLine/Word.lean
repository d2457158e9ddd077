import TokenMacros.CommandLine.Switch
import TokenMacros.Text.Digit
import TokenMacros.Text.Split

/-!
# Words of a command line

Whether a word is an option or not is told from its characters alone.  Words
that look like negative numbers, or that hold a space, are arguments even if
they begin with a dash.
-/

namespace TokenMacros

/-- What a word of a command line is. -/
inductive Word where
  | argument
  /-- Two dashes: all words that follow are arguments. -/
  | separator
  /-- An option by a name of two dashes, with what stands behind an equals sign.
  -/
  | long (switch : Switch) (attached : Option (List Char))
  /-- An option by a name of one dash, with what stands behind an equals sign or
  directly behind the name. -/
  | short (switch : Switch) (attached : Option (List Char))
  /-- An option that does not exist. -/
  | unknown
  deriving Repr, DecidableEq

namespace Word

/-- A line break may end a number. -/
def dropFinalBreak (text : List Char) : List Char :=
  if text.getLast? == some '\n' then text.dropLast else text

/-- A nonempty run of decimal digits. -/
def isDigits (text : List Char) : Bool :=
  !text.isEmpty && text.all fun c => (Text.decimalValue? c).isSome

/-- A dash with a whole or a decimal number behind it. -/
def isNegativeNumber : List Char → Bool
  | '-' :: number =>
    let number := dropFinalBreak number
    let whole := number.takeWhile (· != '.')
    isDigits number ||
      ((whole.isEmpty || isDigits whole) && isDigits (number.drop (whole.length + 1)))
  | _ => false

/-- An option by its full name. -/
def ofName (name : List Char) (attached : Option (List Char)) : Option Word :=
  (Switch.ofName? name).map fun switch =>
    if name.take 2 == ['-', '-'] then long switch attached else short switch attached

/-- An option whose name ends before an equals sign. -/
def ofAssignment (word : List Char) : Option Word :=
  let name := word.takeWhile (· != '=')
  if name.length = word.length then none
  else ofName name (some (word.drop (name.length + 1)))

/-- An option whose name is the first two characters. -/
def ofCluster (word : List Char) : Option Word :=
  if word.take 2 == ['-', '-'] then none
  else (Switch.ofName? (word.take 2)).map fun switch => short switch (some (word.drop 2))

/-- Tells what a word is. -/
def classify (word : List Char) : Word :=
  if word == ['-', '-'] then separator
  else if word.head? != some '-' || word == ['-'] then argument
  else
    match ofName word none <|> ofAssignment word <|> ofCluster word with
    | some option => option
    | none => if isNegativeNumber word || word.contains ' ' then argument else unknown

end Word

end TokenMacros
