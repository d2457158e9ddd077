import TokenMacros.Host.FileSystem

/-!
# Templates

A template is a text with directives, each of which begins with a percent sign.
A directive shows a value, laid out as it asks for.  There is a single value
here, the name of the program; a directive that does not name it shows the table
that holds it.
-/

namespace TokenMacros.Template

/-- What the next directive shows. -/
inductive Subject where
  /-- The table of all values. -/
  | table
  /-- The value that was named last. -/
  | value
  /-- Nothing, as it was shown before. -/
  | spent
  deriving Repr, DecidableEq

namespace Subject

def key : List Char := ['p', 'r', 'o', 'g']

/-- The subject as it is shown between quotes. -/
def quoted (program : List Char) : Subject → List Char
  | table => '\x7b' :: Text.quoted key ++ [':', ' '] ++ Text.quoted program ++ ['\x7d']
  | _ => Text.quoted program

/-- The subject as a text. -/
def shown (program : List Char) : Subject → List Char
  | table => quoted program table
  | _ => program

def kindName : Subject → String
  | table => "dict"
  | _ => "str"

end Subject

/-- What stops the run if a directive has nothing left to show. -/
def nothingLeft : Stop :=
  .wrongKind "not enough arguments for format string"

/-- The characters in front of the parenthesis that closes a key.  `depth` counts
the parentheses that are open within the key. -/
def keyLength? (depth : Nat) : List Char → Option Nat
  | [] => none
  | ')' :: rest =>
    match depth with
    | 0 => some 0
    | depth + 1 => (keyLength? depth rest).map (· + 1)
  | '(' :: rest => (keyLength? (depth + 1) rest).map (· + 1)
  | _ :: rest => (keyLength? depth rest).map (· + 1)

/-- The subject behind a key in parentheses, if there is one, and the extent of
the key with them. -/
def named (subject : Subject) : List Char → Except Stop (Subject × Nat)
  | '(' :: rest =>
    match keyLength? 0 rest with
    | some length =>
      let key := rest.take length
      if key = Subject.key then .ok (.value, length + 2)
      else .error (.missingKey (String.ofList key))
    | none => .error (.wrongValue "incomplete format key")
  | _ => .ok (subject, 0)

def isFlag (c : Char) : Bool :=
  ['-', '+', ' ', '#', '0'].contains c

/-- A count at the front of the text, and its extent.  A star stands for the next
value, which is no count. -/
def count (largest : Nat) (name : String) (subject : Subject) :
    List Char → Except Stop (Nat × Nat)
  | '*' :: _ =>
    if subject = .spent then .error nothingLeft
    else .error (.wrongKind "* wants int")
  | text =>
    let digits := text.takeWhile Char.isDigit
    let value := digits.foldl (fun value c => value * 10 + (c.toNat - '0'.toNat)) 0
    if largest < value then .error (.wrongValue (name ++ " too big"))
    else .ok (value, digits.length)

def maxWidth : Nat := 9223372036854775807

def maxPrecision : Nat := 2147483647

/-- How a directive lays out what it shows. -/
structure Layout where
  isLeft : Bool
  width : Nat
  precision : Option Nat
  deriving Repr, DecidableEq

def Layout.fill (layout : Layout) (shown : List Char) : List Char :=
  let kept := layout.precision.elim shown (shown.take ·)
  let padding := List.replicate (layout.width - kept.length) ' '
  if layout.isLeft then kept ++ padding else padding ++ kept

/-- A layout at the front of the text, and its extent: flags, a width, a
precision behind a point, and a mark for the size of numbers. -/
def layout (subject : Subject) (text : List Char) : Except Stop (Layout × Nat) := do
  let flags := text.takeWhile isFlag
  let rest := text.drop flags.length
  let (width, widthExtent) ← count maxWidth "width" subject rest
  let rest := rest.drop widthExtent
  let (precision, precisionExtent) ←
    match rest with
    | '.' :: rest => do
      let (precision, extent) ← count maxPrecision "precision" subject rest
      pure (some precision, extent + 1)
    | _ => pure (none, 0)
  let size := if ['h', 'l', 'L'].any ((rest.drop precisionExtent).head? == some ·) then 1 else 0
  return (⟨flags.contains '-', width, precision⟩,
    flags.length + widthExtent + precisionExtent + size)

/-- A character beyond ASCII is escaped. -/
def escapeBeyondAscii (c : Char) : List Char :=
  if c.toNat < 0x80 then [c]
  else if c.toNat < 0x100 then '\\' :: 'x' :: Text.paddedHex 2 c.toNat
  else if c.toNat < 0x10000 then '\\' :: 'u' :: Text.paddedHex 4 c.toNat
  else '\\' :: 'U' :: Text.paddedHex 8 c.toNat

/-- The subject as the letter of a directive asks for it.  It is no number. -/
def converted (program : List Char) (subject : Subject) (letter : Char) :
    Except Stop (List Char) :=
  let refused (reason : String) : Except Stop (List Char) := .error (.wrongKind reason)
  let isNone := ", not " ++ subject.kindName
  let asked := "%" ++ String.singleton letter ++ " format: "
  if letter = 's' then .ok (subject.shown program)
  else if letter = 'r' then .ok (subject.quoted program)
  else if letter = 'a' then .ok ((subject.quoted program).flatMap escapeBeyondAscii)
  else if letter = 'c' then
    match subject, program with
    | .value, [c] => .ok [c]
    | _, _ => refused "%c requires int or char"
  else if ['d', 'i', 'u'].contains letter then
    refused (asked ++ "a real number is required" ++ isNone)
  else if ['o', 'x', 'X'].contains letter then
    refused (asked ++ "an integer is required" ++ isNone)
  else if ['e', 'E', 'f', 'F', 'g', 'G'].contains letter then
    refused ("must be real number" ++ isNone)
  else
    .error (.wrongValue
      ("unsupported format character '" ++ String.singleton letter ++ "'"))

/-- What a directive shows, which stands behind a percent sign at the front of
the text; what the next one shows; and its extent.  A second percent sign is
shown as it is. -/
def directive (program : List Char) (subject : Subject) (text : List Char) :
    Except Stop (List Char × Subject × Nat) := do
  if text.head? == some '%' then return (['%'], subject, 1)
  let (subject, keyExtent) ← named subject text
  let (layout, layoutExtent) ← layout subject (text.drop keyExtent)
  let extent := keyExtent + layoutExtent
  match (text.drop extent).head? with
  | none => throw (.wrongValue "incomplete format")
  | some letter =>
    if subject = .spent then throw nothingLeft
    let shown ← converted program subject letter
    return (layout.fill shown, .spent, extent + 1)

/-- The text that a template stands for. -/
def instantiate (program : List Char) (subject : Subject) :
    List Char → Except Stop (List Char)
  | [] => .ok []
  | c :: rest =>
    if c = '%' then do
      let (shown, subject, extent) ← directive program subject rest
      return shown ++ (← instantiate program subject (rest.drop extent))
    else return c :: (← instantiate program subject rest)
termination_by text => text.length
decreasing_by
  · simp only [List.length_drop, List.length_cons]
    omega
  · exact Nat.lt_succ_self _

end TokenMacros.Template
