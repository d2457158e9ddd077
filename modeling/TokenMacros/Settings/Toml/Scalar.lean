import TokenMacros.Settings.Value

/-!
# Scalars of a TOML document

Strings, numbers, dates and times, and the spaces and comments between them.  A
reader answers what it has read from the front of a text and the text that is
left.
-/

namespace TokenMacros.Toml

inductive Refusal where
  /-- The document breaks the rules of the format. -/
  | malformed
  /-- A whole number has more digits than may be converted. -/
  | tooManyDigits
  deriving Repr, DecidableEq

def malformedMessage : String := "the document is not valid TOML"

def tooManyDigitsMessage :
    String := "a whole number of the document has too many digits"

/-- A space or a tab. -/
def isSpace (c : Char) : Bool := c == ' ' || c == '\t'

/-- A space, a tab or a line feed. -/
def isSpaceOrLineFeed (c : Char) : Bool := isSpace c || c == '\n'

/-- A control character that may not stand in a string or comment; a tab may. -/
def isForbidden (c : Char) :
    Bool := (c.toNat < 0x20 && c != '\t') || c.toNat == 0x7f

def skipSpaces (text : List Char) : List Char := text.dropWhile isSpace

/-- The text behind a comment, if there is one. -/
def skipComment : List Char → Except Refusal (List Char)
  | '#' :: rest =>
    let comment := rest.takeWhile (· != '\n')
    if comment.any isForbidden then .error .malformed else .ok (rest.drop comment.length)
  | text => .ok text

def beginsWith (start text : List Char) : Bool := start.isPrefixOf text

/-- A character written as hexadecimal digits. -/
def hexCharacter (digits : Nat) (text : List Char) :
    Except Refusal (Char × List Char) :=
  let written := text.take digits
  let value := written.foldl (fun value c =>
    value * 16 + (if c.isDigit then c.toNat - 48 else c.toLower.toNat - 87)) 0
  let isHex (c : Char) : Bool := c.isDigit || ('a' ≤ c.toLower && c.toLower ≤ 'f')
  if written.length == digits && written.all isHex &&
      (value < 0xd800 || (0xdfff < value && value < 0x110000)) then
    .ok (Char.ofNat value, text.drop digits)
  else .error .malformed

/-- What stands behind a backslash: the characters it means. -/
def escape (multiline : Bool) (text : List Char) :
    Except Refusal (List Char × List Char) :=
  match text with
  | [] => .error .malformed
  | c :: rest =>
    if multiline && isSpaceOrLineFeed c then
      -- a backslash at the end of a line hides the break and the spaces around it
      match text.dropWhile isSpace with
      | [] => .ok ([], [])
      | '\n' :: rest => .ok ([], rest.dropWhile isSpaceOrLineFeed)
      | _ => .error .malformed
    else
      match c with
      | 'u' => (hexCharacter 4 rest).map fun (c, rest) => ([c], rest)
      | 'U' => (hexCharacter 8 rest).map fun (c, rest) => ([c], rest)
      | 'b' => .ok (['\x08'], rest)
      | 't' => .ok (['\t'], rest)
      | 'n' => .ok (['\n'], rest)
      | 'f' => .ok (['\x0c'], rest)
      | 'r' => .ok (['\r'], rest)
      | '\x22' => .ok (['\x22'], rest)
      | '\\' => .ok (['\\'], rest)
      | _ => .error .malformed

/-- The body of a string with escapes, through its end mark.  `fuel` bounds the
number of characters. -/
def basicBody (multiline : Bool) :
    (fuel : Nat) → List Char → Except Refusal (List Char × List Char)
  | 0, _ => .error .malformed
  | _, [] => .error .malformed
  | fuel + 1, c :: rest =>
    if c == '\x22' && !multiline then .ok ([], rest)
    else if beginsWith ['\x22', '\x22', '\x22'] (c :: rest) then .ok ([], rest.drop 2)
    else if c == '\\' then do
      let (meant, rest) ← escape multiline rest
      let (body, rest) ← basicBody multiline fuel rest
      return (meant ++ body, rest)
    else if isForbidden c && !(multiline && c == '\n') then .error .malformed
    else do
      let (body, rest) ← basicBody multiline fuel rest
      return (c :: body, rest)

/-- The body of a string without escapes, up to the given end mark. -/
def literalBody (endMark : List Char) (multiline : Bool) :
    List Char → Except Refusal (List Char × List Char)
  | [] => .error .malformed
  | c :: rest =>
    if beginsWith endMark (c :: rest) then .ok ([], rest.drop (endMark.length - 1))
    else if isForbidden c && !(multiline && c == '\n') then .error .malformed
    else do
      let (body, rest) ← literalBody endMark multiline rest
      return (c :: body, rest)

/-- Up to two more quotes that belong to a string of several lines. -/
def extraQuotes (quote : Char) (text : List Char) : List Char × List Char :=
  let extra := (text.take 2).takeWhile (· == quote)
  (extra, text.drop extra.length)

/-- A string of one line, at its open quote. -/
def lineString (quote : Char) (text : List Char) :
    Except Refusal (String × List Char) := do
  let body := text.drop 1
  let (content, rest) ←
    if quote == '\x22' then basicBody false (body.length + 1) body
    else literalBody ['\x27'] false body
  return (String.ofList content, rest)

/-- A string of several lines, at its open quotes.  A line break right behind
them is no part of it. -/
def blockString (quote : Char) (text : List Char) :
    Except Refusal (String × List Char) := do
  let body := match text.drop 3 with
    | '\n' :: rest => rest
    | rest => rest
  let (content, rest) ←
    if quote == '\x22' then basicBody true (body.length + 1) body
    else literalBody ['\x27', '\x27', '\x27'] true body
  let (extra, rest) := extraQuotes quote rest
  return (String.ofList (content ++ extra), rest)

/-- A digit run with single underscores inside; nothing if no digit stands in
front. -/
def digitRun (isRunDigit : Char → Bool) (text : List Char) :
    List Char × List Char :=
  match text with
  | [] => ([], [])
  | c :: rest => if isRunDigit c then continued [c] rest else ([], text)
where
  /-- The run whose digits so far are `read`, in reverse. -/
  continued (read : List Char) : List Char → List Char × List Char
    | [] => (read.reverse, [])
    | ['_'] => (read.reverse, ['_'])
    | '_' :: c :: rest =>
      if isRunDigit c then continued (c :: read) rest else (read.reverse, '_' :: c :: rest)
    | c :: rest => if isRunDigit c then continued (c :: read) rest else (read.reverse, c :: rest)

def digitsValue (radix : Nat) (digits : List Char) : Nat :=
  digits.foldl (fun value c =>
    value * radix + (if c.isDigit then c.toNat - 48 else c.toLower.toNat - 87)) 0

/-- A whole number in hexadecimal, binary or octal notation. -/
def radixNumber? (text : List Char) : Option (Value × List Char) :=
  match text with
  | '0' :: mark :: rest =>
    let read (radix : Nat) (isRunDigit : Char → Bool) : Option (Value × List Char) :=
      match digitRun isRunDigit rest with
      | ([], _) => none
      | (digits, rest) => some (.integer (digitsValue radix digits), rest)
    match mark with
    | 'x' => read 16 fun c => c.isDigit || ('a' ≤ c.toLower && c.toLower ≤ 'f')
    | 'b' => read 2 fun c => c == '0' || c == '1'
    | 'o' => read 8 fun c => '0' ≤ c && c ≤ '7'
    | _ => none
  | _ => none

def sign : List Char → Bool × List Char
  | '+' :: rest => (false, rest)
  | '-' :: rest => (true, rest)
  | text => (false, text)

/-- The digits behind the point of a number, if there are some. -/
def fractionDigits : List Char → List Char × List Char
  | '.' :: rest =>
    match digitRun Char.isDigit rest with
    | ([], _) => ([], '.' :: rest)
    | found => found
  | text => ([], text)

/-- The exponent of a number, if there is one. -/
def exponentPart? : List Char → Option (Int × List Char)
  | e :: rest =>
    if e == 'e' || e == 'E' then
      let (negative, unsigned) := sign rest
      match digitRun Char.isDigit unsigned with
      | ([], _) => none
      | (digits, rest) =>
        let value : Int := digitsValue 10 digits
        some (if negative then -value else value, rest)
    else none
  | [] => none

/-- A decimal number: a float if it has a fraction or an exponent.  Whole
numbers begin with a zero only if they are zero. -/
def decimalNumber? (text : List Char) :
    Option (Except Refusal (Value × List Char)) :=
  let (negative, unsigned) := sign text
  let (whole, rest) : List Char × List Char :=
    match unsigned with
    | '0' :: rest => (['0'], rest)
    | _ => digitRun Char.isDigit unsigned
  if whole.isEmpty then none
  else
    let (fraction, afterFraction) := fractionDigits rest
    match fraction, exponentPart? afterFraction with
    | [], none =>
      if Text.maxNumeralDigits < whole.length then some (.error .tooManyDigits)
      else
        let value : Int := digitsValue 10 whole
        some (.ok (.integer (if negative then -value else value), rest))
    | fraction, exponent? =>
      let (exponent, rest) := exponent?.getD (0, afterFraction)
      let value := Binary64.ofDecimal negative (digitsValue 10 (whole ++ fraction))
        (exponent - fraction.length)
      some (.ok (.float value, rest))

/-- The names of infinity and of the value that is no number. -/
def specialFloat? (text : List Char) : Option (Value × List Char) :=
  let (negative, unsigned) := sign text
  if beginsWith ['i', 'n', 'f'] unsigned then
    some (.float (.infinity negative), unsigned.drop 3)
  else if beginsWith ['n', 'a', 'n'] unsigned then some (.float .nan, unsigned.drop 3)
  else none

end TokenMacros.Toml
