import TokenMacros.Text.Blank
import TokenMacros.Text.Digit

/-!
# Extents of lexical pieces

How many characters a piece of source takes when it begins at the front of a
text: a run of white space, an identifier, a comment, a quoted literal, a
number.  An unterminated comment or literal takes all that is left.  No extent
exceeds the text.
-/

namespace TokenMacros

open Text (isBlank isDigit)

def beginsWith (start text : List Char) : Bool :=
  start.isPrefixOf text

/-- A letter, the underscore, or anything beyond ASCII. -/
def isIdentifierStart (c : Char) : Bool :=
  c.isAlpha || c == '_' || 0x80 ≤ c.toNat

/-- What may follow in an identifier: also digits. -/
def isIdentifierPart (c : Char) : Bool :=
  isIdentifierStart c || isDigit c

namespace Extent

/-- A run of white space. -/
def blanks (text : List Char) : Nat :=
  (text.takeWhile isBlank).length

/-- The rest of an identifier.  A backslash belongs to it when a new part of the
qualified name follows. -/
def identifier : List Char → Nat
  | [] => 0
  | c :: rest =>
    if isIdentifierPart c then 1 + identifier rest
    else if c == '\\' && rest.head?.any isIdentifierStart then 1 + identifier rest
    else 0

/-- A comment to the end of the line, or up to a close tag. -/
def lineComment : List Char → Nat
  | [] => 0
  | c :: rest =>
    if c == '\r' || c == '\n' || beginsWith ['?', '>'] (c :: rest) then 0 else 1 + lineComment rest

/-- The text through the next end mark of a block comment. -/
def throughCommentEnd : List Char → Nat
  | [] => 0
  | c :: rest => if beginsWith ['*', '/'] (c :: rest) then 2 else 1 + throughCommentEnd rest

/-- A block comment, begin mark included. -/
def blockComment : List Char → Nat
  | _ :: _ :: body => 2 + throughCommentEnd body
  | text => text.length

/-- The text through the next quote that no backslash escapes. -/
def throughQuote (quote : Char) : List Char → Nat
  | [] => 0
  | ['\\'] => 1
  | '\\' :: _ :: rest => 2 + throughQuote quote rest
  | c :: rest => if c = quote then 1 else 1 + throughQuote quote rest

/-- A quoted literal, open quote included. -/
def quotedLiteral (quote : Char) : List Char → Nat
  | [] => 0
  | _ :: body => 1 + throughQuote quote body

/-- Digits and the underscores between them. -/
def isNumberPart (c : Char) : Bool :=
  isDigit c || c == '_'

/-- The digits after a radix mark, if the text begins with one. -/
def radixDigits? : List Char → Option String
  | '0' :: mark :: _ =>
    match mark.toLower with
    | 'x' => some "0123456789abcdefABCDEF_"
    | 'b' => some "01_"
    | 'o' => some "01234567_"
    | _ => none
  | _ => none

/-- The fraction of a number: a point with a digit behind it. -/
def fraction : List Char → Nat
  | '.' :: d :: rest => if isDigit d then 2 + (rest.takeWhile isNumberPart).length else 0
  | _ => 0

/-- The exponent of a number: the letter, an optional sign and digits. -/
def exponent : List Char → Nat
  | e :: rest =>
    if e == 'e' || e == 'E' then
      let sign := if rest.head?.any (fun c => c == '+' || c == '-') then 1 else 0
      let digits := ((rest.drop sign).takeWhile isDigit).length
      if digits = 0 then 0 else 1 + sign + digits
    else 0
  | [] => 0

/-- A number, and whether it is a floating-point one. -/
def number (text : List Char) : Nat × Bool :=
  match radixDigits? text with
  | some digits => (2 + ((text.drop 2).takeWhile digits.toList.contains).length, false)
  | none =>
    let whole := (text.takeWhile isNumberPart).length
    let fractional := fraction (text.drop whole)
    let scale := exponent (text.drop (whole + fractional))
    (whole + fractional + scale, fractional != 0 || scale != 0)

/-- A number begins with a digit, or with a point that a digit follows. -/
theorem number_pos {c : Char} {rest : List Char}
    (numeric : (isDigit c || (c == '.' && rest.head?.any isDigit)) = true) :
    0 < (number (c :: rest)).1 := by
  unfold number
  split
  · show 0 < 2 + _
    omega
  · show 0 < _ + _ + _
    by_cases digit : isDigit c = true
    · have : 0 < ((c :: rest).takeWhile isNumberPart).length := by
        simp [isNumberPart, digit]
      omega
    · have point : c = '.' ∧ rest.head?.any isDigit = true := by simpa [digit] using numeric
      obtain ⟨rfl, following⟩ := point
      cases rest with
      | nil => simp at following
      | cons d tail =>
          have digitFollows : isDigit d = true := by simpa using following
          have noWhole : ('.' :: d :: tail).takeWhile isNumberPart = [] := by
            rw [List.takeWhile_cons_of_neg (by decide)]
          have fractional : fraction ('.' :: d :: tail) =
              2 + (tail.takeWhile isNumberPart).length := if_pos digitFollows
          rw [noWhole, List.length_nil, List.drop_zero, fractional]
          omega

end Extent

end TokenMacros
