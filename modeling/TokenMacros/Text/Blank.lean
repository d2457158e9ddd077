import TokenMacros.Text.CharRange

/-!
# Blanks

The white space of the source language and of definition lines: the Unicode
spaces, the line and paragraph breaks, and the four ASCII separators.  Trimming
removes blanks from the ends.
-/

namespace TokenMacros.Text

/-- Ranges of white space. -/
def blankRanges : List (Nat × Nat) :=
  [(0x9, 0xd), (0x1c, 0x20), (0x85, 0x85), (0xa0, 0xa0), (0x1680, 0x1680), (0x2000, 0x200a),
   (0x2028, 0x2029), (0x202f, 0x202f), (0x205f, 0x205f), (0x3000, 0x3000)]

/-- White space of any kind; zero-width spaces are none. -/
def isBlank (c : Char) : Bool :=
  inRanges blankRanges c

def trimLeft (text : List Char) : List Char :=
  text.dropWhile isBlank

def trimRight : List Char → List Char
  | [] => []
  | c :: rest =>
    match trimRight rest with
    | [] => if isBlank c then [] else [c]
    | kept => c :: kept

def trim (text : List Char) : List Char :=
  trimRight (trimLeft text)

end TokenMacros.Text
