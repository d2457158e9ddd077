import TokenMacros.Source.Cursor
import TokenMacros.Source.Lexeme

/-!
# Cutting a source into tokens

A source is read in two modes.  Template text runs up to the next open tag, code
up to the next close tag.  The tokens of a source are its pieces in order;
nothing is dropped, and each piece knows its line.
-/

namespace TokenMacros

open Text (isBlank lower)

/-- What the text at a cursor is. -/
inductive Mode where
  /-- Text outside of code, copied as it is. -/
  | template
  /-- Code of the host language. -/
  | code
  deriving Repr, DecidableEq

/-- The tag that opens code. -/
def openTagMark : List Char := ['<', '?', 'p', 'h', 'p']

/-- The tag that opens code whose value is printed. -/
def echoTagMark : List Char := ['<', '?', '=']

/-- Offset of the first open tag in a lowered text. -/
def openTagOffset? : List Char → Option Nat
  | [] => none
  | c :: rest =>
    if beginsWith openTagMark (c :: rest) || beginsWith echoTagMark (c :: rest) then some 0
    else (openTagOffset? rest).map (· + 1)

/-- Length of an open tag at the front of the text.  The long tag owns the line
break or the single blank behind it. -/
def openTagExtent (text : List Char) : Nat :=
  if beginsWith echoTagMark text then 3
  else
    match text.drop 5 with
    | '\r' :: '\n' :: _ => 7
    | c :: _ => if isBlank c then 6 else 5
    | [] => 5

theorem openTagExtent_pos (text : List Char) : 0 < openTagExtent text := by
  unfold openTagExtent
  repeat' split
  all_goals omega

/-- The token for a piece of source and its line; a piece without a kind is
bare. -/
def Token.ofPiece (kind? : Option Kind) (text : List Char) (line : Nat) :
    Token :=
  match kind? with
  | some kind => .classified kind (String.ofList text) line
  | none => .bare (String.ofList text)

/-- What one turn reads: tokens, and how and where reading goes on behind them.
-/
structure Turn where
  tokens : List Token
  mode : Mode
  behind : Cursor

namespace Cursor

def readToken (cursor : Cursor) (kind? : Option Kind) (extent : Nat) :
    Except Failure (Token × Cursor) := do
  let ((text, line), behind) ← cursor.readTo (cursor.position + extent)
  return (.ofPiece kind? text line, behind)

/-- Reads a piece of code.  A close tag ends the code. -/
def readCode (cursor : Cursor) (lexeme : Lexeme) : Except Failure Turn := do
  let (token, behind) ← cursor.readToken lexeme.kind? lexeme.extent
  return ⟨[token], if lexeme.kind? = some .closeTag then .template else .code, behind⟩

/-- Reads an open tag. -/
def readOpenTag (cursor : Cursor) : Except Failure (Token × Cursor) :=
  cursor.readToken (some .openTag) (openTagExtent cursor.rest)

/-- Reads template text through the next open tag.  The tag is looked for in
`lowered`, the lower case of the whole source, and cut out of the source itself.
-/
def readTemplate (cursor : Cursor) (lowered : List Char) :
    Except Failure Turn :=
  match openTagOffset? (lowered.drop cursor.position) with
  | none => do
    let (html, behind) ← cursor.readToken (some .inlineHtml) cursor.rest.length
    return ⟨[html], .template, behind⟩
  | some 0 => do
    let (tag, behind) ← cursor.readOpenTag
    return ⟨[tag], .code, behind⟩
  | some offset => do
    let (html, atTag) ← cursor.readToken (some .inlineHtml) offset
    let (tag, behind) ← atTag.readOpenTag
    return ⟨[html, tag], .code, behind⟩

/-- One turn at a cursor in front of the character `c` and `rest`. -/
def turn (lowered : List Char) (mode : Mode) (cursor : Cursor) (c : Char)
    (rest : List Char) :
    Except Failure Turn :=
  match mode with
  | .code => cursor.readCode (Lexeme.next c rest)
  | .template => cursor.readTemplate lowered

/-- The tokens are pieces of the source, one behind the other, that lead from
one cursor to the other. -/
inductive Reads : Cursor → List Token → Cursor → Prop where
  | stay (cursor : Cursor) : Reads cursor [] cursor
  | piece {cursor last : Cursor} {tokens : List Token} (kind? : Option Kind) {extent : Nat} :
      0 < extent →
      Reads (cursor.advance extent) tokens last →
      Reads cursor (.ofPiece kind? (cursor.rest.take extent) cursor.line :: tokens) last

theorem Reads.append {cursor middle last : Cursor} {front back : List Token}
    (first : cursor.Reads front middle) (second : middle.Reads back last) :
    cursor.Reads (front ++ back) last := by
  induction first with
  | stay => exact second
  | piece kind? positive _ induction => exact .piece kind? positive (induction second)

theorem Reads.length_rest_le {cursor last : Cursor} {tokens : List Token}
    (reads : cursor.Reads tokens last) :
    last.rest.length ≤ cursor.rest.length := by
  induction reads with
  | stay => exact Nat.le_refl _
  | piece _ _ _ induction =>
      simp only [advance, List.length_drop] at induction
      omega

theorem Reads.length_rest_lt {cursor last : Cursor} {token : Token}
    {tokens : List Token} (reads : cursor.Reads (token :: tokens) last)
    (remaining : cursor.rest ≠ []) :
    last.rest.length < cursor.rest.length := by
  cases reads with
  | piece _ positive later =>
      have shorter := later.length_rest_le
      have nonempty : 0 < cursor.rest.length := List.length_pos_iff.mpr remaining
      simp only [advance, List.length_drop] at shorter
      omega

/-- A token is read as soon as it has an extent. -/
theorem readToken_eq (cursor : Cursor) (kind? : Option Kind) {extent : Nat}
    (positive : 0 < extent) :
    cursor.readToken kind? extent =
      .ok (.ofPiece kind? (cursor.rest.take extent) cursor.line, cursor.advance extent) := by
  have forward : (cursor.position : Int) < cursor.position + extent := by omega
  have count : ((cursor.position + extent : Int) - cursor.position).toNat = extent := by omega
  simp only [readToken, readTo, if_pos forward, count]
  rfl

theorem readCode_reads (cursor : Cursor) {lexeme : Lexeme}
    (positive : 0 < lexeme.extent) :
    ∃ read, cursor.readCode lexeme = .ok read ∧ read.tokens ≠ [] ∧
      cursor.Reads read.tokens read.behind := by
  rw [readCode, readToken_eq cursor lexeme.kind? positive]
  exact ⟨_, rfl, List.cons_ne_nil _ _, .piece _ positive (.stay _)⟩

theorem readOpenTag_eq (cursor : Cursor) :
    cursor.readOpenTag =
      .ok (.ofPiece (some .openTag) (cursor.rest.take (openTagExtent cursor.rest)) cursor.line,
        cursor.advance (openTagExtent cursor.rest)) :=
  cursor.readToken_eq (some .openTag) (openTagExtent_pos cursor.rest)

theorem readTemplate_reads (cursor : Cursor) (lowered : List Char)
    (remaining : cursor.rest ≠ []) :
    ∃ read, cursor.readTemplate lowered = .ok read ∧ read.tokens ≠ [] ∧
      cursor.Reads read.tokens read.behind := by
  have tagTakes (atTag : Cursor) : 0 < openTagExtent atTag.rest := openTagExtent_pos atTag.rest
  unfold readTemplate
  split
  · have allTaken : 0 < cursor.rest.length := List.length_pos_iff.mpr remaining
    rw [readToken_eq cursor _ allTaken]
    exact ⟨_, rfl, List.cons_ne_nil _ _, .piece _ allTaken (.stay _)⟩
  · rw [readOpenTag_eq]
    exact ⟨_, rfl, List.cons_ne_nil _ _, .piece _ (tagTakes cursor) (.stay _)⟩
  · next offset notHere _ =>
      have htmlTakes : 0 < offset := Nat.pos_of_ne_zero notHere
      simp only [readToken_eq cursor _ htmlTakes, bind, Except.bind, readOpenTag_eq]
      exact ⟨_, rfl, List.cons_ne_nil _ _,
        .piece _ htmlTakes (.piece _ (tagTakes _) (.stay _))⟩

/-- Where text remains, a turn succeeds, and it reads the pieces between two
cursors. -/
theorem turn_reads (lowered : List Char) (mode : Mode) {cursor : Cursor}
    {c : Char} {rest : List Char} (remaining : cursor.rest = c :: rest) :
    ∃ read, cursor.turn lowered mode c rest = .ok read ∧ read.tokens ≠ [] ∧
      cursor.Reads read.tokens read.behind := by
  cases mode with
  | code => exact cursor.readCode_reads (Lexeme.next_extent_pos c rest)
  | template => exact cursor.readTemplate_reads lowered (by simp [remaining])

theorem turn_advances {lowered : List Char} {mode : Mode} {cursor : Cursor}
    {c : Char} {rest : List Char} {read : Turn}
    (remaining : cursor.rest = c :: rest)
    (reading : cursor.turn lowered mode c rest = .ok read) :
    read.behind.rest.length < cursor.rest.length := by
  obtain ⟨actual, success, nonempty, reads⟩ := turn_reads lowered mode remaining
  obtain rfl : actual = read := Except.ok.inj (success.symm.trans reading)
  obtain ⟨token, tokens, shape⟩ := List.exists_cons_of_ne_nil nonempty
  rw [shape] at reads
  exact reads.length_rest_lt (by simp [remaining])

end Cursor

/-- The tokens from the cursor on: turns are made until nothing remains. -/
def lexFrom (lowered : List Char) (mode : Mode) (cursor : Cursor) :
    Except Cursor.Failure (List Token) :=
  match _remaining : cursor.rest with
  | [] => .ok []
  | c :: rest =>
    match _reading : cursor.turn lowered mode c rest with
    | .error failure => .error failure
    | .ok read => (lexFrom lowered read.mode read.behind).map (read.tokens ++ ·)
  termination_by cursor.rest.length
  decreasing_by exact Cursor.turn_advances _remaining _reading

/-- Reading never fails, and it ends behind the last character. -/
theorem lexFrom_reads (lowered : List Char) (mode : Mode) (cursor : Cursor) :
    ∃ tokens last, lexFrom lowered mode cursor = .ok tokens ∧
      cursor.Reads tokens last ∧ last.rest = [] := by
  fun_induction lexFrom with
  | case1 mode cursor exhausted => exact ⟨[], cursor, rfl, .stay cursor, exhausted⟩
  | case2 mode cursor c rest remaining failure failed =>
      obtain ⟨read, success, _⟩ := Cursor.turn_reads lowered mode remaining
      rw [success] at failed
      cases failed
  | case3 mode cursor c rest remaining read reading induction =>
      obtain ⟨actual, success, _, reads⟩ := Cursor.turn_reads lowered mode remaining
      obtain rfl : actual = read := Except.ok.inj (success.symm.trans reading)
      obtain ⟨tokens, last, run, laterReads, exhausted⟩ := induction
      exact ⟨actual.tokens ++ tokens, last, by rw [run]; rfl,
        reads.append laterReads, exhausted⟩

theorem lexFrom_isSome (lowered : List Char) (mode : Mode) (cursor : Cursor) :
    (lexFrom lowered mode cursor).toOption.isSome := by
  obtain ⟨tokens, _, success, _⟩ := lexFrom_reads lowered mode cursor
  rw [success]
  rfl

/-- The tokens of a source that begins in the given mode. -/
def lex (mode : Mode) (source : String) : List Token :=
  (lexFrom (lower source.toList) mode (.start source.toList)).toOption.get
    (lexFrom_isSome _ mode _)

theorem lexFrom_start (mode : Mode) (source : String) :
    lexFrom (lower source.toList) mode (.start source.toList) = .ok (lex mode source) := by
  obtain ⟨tokens, _, success, _⟩ :=
    lexFrom_reads (lower source.toList) mode (.start source.toList)
  have result : lex mode source = tokens := by simp [lex, success, Except.toOption]
  rw [success, result]

def lexCode (code : String) : List Token :=
  lex .code code

end TokenMacros
