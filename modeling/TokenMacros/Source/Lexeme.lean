import TokenMacros.Source.Heredoc
import TokenMacros.Source.Keyword
import TokenMacros.Source.Token

/-!
# The next piece of code

Which kind of token begins at the front of a code text and how far it reaches.
The classes are tried in a fixed order; a character that begins none of them
stands alone.
-/

namespace TokenMacros

open Text (isBlank isDigit)

/-- Kind and length of a piece of code; a bare one has no kind. -/
structure Lexeme where
  kind? : Option Kind
  extent : Nat
  deriving Repr, DecidableEq

/-- Operators of more than one character, longest first. -/
def operators : List (List Char) :=
  [['<', '<', '='], ['>', '>', '='], ['*', '*', '='], ['.', '.', '.'], ['<', '=', '>'],
   ['=', '=', '='], ['!', '=', '='], ['?', '?', '='], ['?', '-', '>'], ['-', '>'], ['=', '>'],
   [':', ':'], ['+', '+'], ['-', '-'], ['=', '='], ['!', '='], ['<', '>'], ['<', '='],
   ['>', '='], ['&', '&'], ['|', '|'], ['?', '?'], ['+', '='], ['-', '='], ['*', '='],
   ['/', '='], ['.', '='], ['%', '='], ['&', '='], ['|', '='], ['^', '='], ['<', '<'],
   ['>', '>'], ['*', '*'], ['#', '[']]

def isQuote (c : Char) : Bool :=
  c == '\x27' || c == '\x22' || c == '\x60'

/-- Keyword or identifier. -/
def wordKind (word : List Char) : Kind :=
  if isKeyword word then .keyword else .identifier

namespace Lexeme

/-- The longest operator at the front of the text, or a bare character. -/
def operatorOrBare (text : List Char) : Lexeme :=
  match operators.find? (beginsWith · text) with
  | some operator => ⟨some .operator, operator.length⟩
  | none => ⟨none, 1⟩

/-- The piece that begins with the character `c`, which `rest` follows. -/
def next (c : Char) (rest : List Char) : Lexeme :=
  let text := c :: rest
  let second (p : Char → Bool) : Bool := rest.head?.any p
  if beginsWith ['?', '>'] text then
    -- a close tag owns the line break behind it
    ⟨some .closeTag, 2 + Extent.lineBreak (text.drop 2)⟩
  else if isBlank c then
    ⟨some .whitespace, Extent.blanks text⟩
  else if (c == '#' && !second (· == '[')) || beginsWith ['/', '/'] text then
    ⟨some .comment, Extent.lineComment text⟩
  else if beginsWith ['/', '*'] text then
    let isDoc := beginsWith ['/', '*', '*'] text && (text.drop 3).head?.any isBlank
    ⟨some (if isDoc then .docComment else .comment), Extent.blockComment text⟩
  else if isQuote c then
    ⟨some .string, Extent.quotedLiteral c text⟩
  else if c == '$' && second isIdentifierStart then
    ⟨some .variable, 1 + Extent.identifier rest⟩
  else if isDigit c || (c == '.' && second isDigit) then
    let (extent, isFloat) := Extent.number text
    ⟨some (if isFloat then .float else .integer), extent⟩
  else if isIdentifierStart c || (c == '\\' && second isIdentifierStart) then
    let extent := 1 + Extent.identifier rest
    ⟨some (wordKind (text.take extent)), extent⟩
  else if beginsWith ['<', '<', '<'] text then
    match Extent.heredoc? text with
    | some extent => ⟨some .string, extent⟩
    | none => operatorOrBare text
  else operatorOrBare text

theorem operatorOrBare_extent_pos (text : List Char) :
    0 < (operatorOrBare text).extent := by
  unfold operatorOrBare
  split
  · next operator found =>
      have listed : operator ∈ operators := List.mem_of_find?_eq_some found
      have nonempty : ∀ operator ∈ operators, 0 < operator.length := by decide
      exact nonempty operator listed
  · exact Nat.one_pos

/-- Every piece of code has a character, so reading code makes progress. -/
theorem next_extent_pos (c : Char) (rest : List Char) :
    0 < (next c rest).extent := by
  unfold next
  simp only
  split
  · show 0 < 2 + _
    omega
  split
  · next blank => simp [Extent.blanks, blank]
  split
  · next notClose _ comment =>
      show 0 < Extent.lineComment (c :: rest)
      have notBreak : (c == '\r' || c == '\n') = false := by
        rcases Bool.or_eq_true_iff.mp comment with hash | slashes
        · have : c = '#' := by simp_all
          subst this
          rfl
        · have : c = '/' := by
            have := slashes
            simp only [beginsWith, List.isPrefixOf, Bool.and_eq_true, beq_iff_eq] at this
            exact this.1.symm
          subst this
          rfl
      rw [Extent.lineComment, if_neg (by simp_all)]
      omega
  split
  · show 0 < Extent.blockComment (c :: rest)
    cases rest with
    | nil => exact Nat.one_pos
    | cons d tail =>
        show 0 < 2 + _
        omega
  split
  · show 0 < Extent.quotedLiteral c (c :: rest)
    show 0 < 1 + _
    omega
  split
  · show 0 < 1 + _
    omega
  split
  · next numeric =>
      show 0 < (Extent.number (c :: rest)).1
      exact Extent.number_pos numeric
  split
  · show 0 < 1 + _
    omega
  split
  · split
    · next extent found =>
        show 0 < extent
        simp only [Extent.heredoc?, Option.map_eq_some_iff] at found
        obtain ⟨_, _, rfl⟩ := found
        omega
    · exact operatorOrBare_extent_pos _
  · exact operatorOrBare_extent_pos _

end Lexeme

end TokenMacros
