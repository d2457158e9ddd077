import TokenMacros.Text.Blank
import TokenMacros.Text.Digit

/-!
# Decimal numerals

Whole numbers as people write them in settings and options: blanks around, an
optional sign, and decimal digits of any script with single underscores between
them.
-/

namespace TokenMacros.Text

inductive NumeralFailure where
  /-- The text has another form. -/
  | malformed
  /-- The digits are well formed so far but more than may be converted. -/
  | tooLong (digits : Nat)
  deriving Repr, DecidableEq

/-- The largest number of digits that is converted. -/
def maxNumeralDigits : Nat := 4300

/-- Blanks that may stand around a numeral: all but the ASCII separators. -/
def isNumeralBlank (c : Char) : Bool :=
  isBlank c && !(0x1c ≤ c.toNat && c.toNat ≤ 0x1f)

/-- The leading run of digits and underscores, and what follows it. -/
def digitRun (text : List Char) : List Char × List Char :=
  text.span fun c => c == '_' || (decimalValue? c).isSome

/-- Every underscore stands between two digits, and there is a digit.
`afterDigit` tells whether a digit stands in front. -/
def wellSeparated (afterDigit : Bool) : List Char → Bool
  | [] => afterDigit
  | c :: rest => if c = '_' then afterDigit && wellSeparated false rest else wellSeparated true rest

/-- The value of a run of digits, underscores skipped. -/
def runValue (run : List Char) : Nat :=
  run.foldl (fun value c => if c = '_' then value else value * 10 + (decimalValue? c).getD 0) 0

def readNumeral (text : List Char) : Except NumeralFailure Int :=
  let body := text.dropWhile isNumeralBlank
  let (negative, unsigned) : Bool × List Char :=
    match body with
    | '+' :: rest => (false, rest)
    | '-' :: rest => (true, rest)
    | rest => (false, rest)
  let (run, rest) := digitRun unsigned
  let digits := run.countP (· != '_')
  if !wellSeparated false run then .error .malformed
  else if digits > maxNumeralDigits then .error (.tooLong digits)
  else if !rest.all isNumeralBlank then .error .malformed
  else .ok (if negative then -(runValue run : Int) else runValue run)

end TokenMacros.Text
