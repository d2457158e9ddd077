import Mathlib.Data.List.TakeDrop
import TokenMacros.Proofs.LosslessLexing
import TokenMacros.Rule.Chunk

/-!
# Code as a row of pieces

Up to lines, lexed code is a row of pieces: kinds with the texts they were cut
from.  The pieces of a text are found without a cursor, so that they can be
compared between texts.  The row ends behind the first close tag, where the
lexer leaves code.
-/

namespace TokenMacros

/-- Two characters end the code. -/
def closeTagMark : List Char := ['?', '>']

/-- A token without its line. -/
def Token.piece (token : Token) : Option Kind × List Char :=
  (token.kind?, token.text.toList)

@[simp] theorem Token.piece_ofPiece (kind? : Option Kind) (text : List Char)
    (line : Nat) :
    (ofPiece kind? text line).piece = (kind?, text) := by
  cases kind? <;> simp [piece, ofPiece, Token.kind?, Token.text]

/-- The piece is not trivia. -/
def isMeaningful (piece : Option Kind × List Char) : Bool :=
  !piece.1.any Kind.isTrivia

theorem Token.isTrivia_eq (token : Token) :
    token.isTrivia = token.kind?.any Kind.isTrivia := by
  cases token <;> rfl

theorem isMeaningful_comp_piece :
    isMeaningful ∘ Token.piece = fun token => !token.isTrivia := by
  funext token
  rw [Token.isTrivia_eq]
  rfl

theorem length_drop_next_lt (c : Char) (rest : List Char) :
    ((c :: rest).drop (Lexeme.next c rest).extent).length <
      (c :: rest).length := by
  have positive := Lexeme.next_extent_pos c rest
  rw [List.length_drop, List.length_cons]
  omega

/-- The pieces of a text that is read as code, through the first close tag. -/
def codePieces : List Char → List (Option Kind × List Char)
  | [] => []
  | c :: rest =>
    ((Lexeme.next c rest).kind?,
        (c :: rest).take (Lexeme.next c rest).extent) ::
      if (Lexeme.next c rest).kind? = some .closeTag then []
      else codePieces ((c :: rest).drop (Lexeme.next c rest).extent)
  termination_by text => text.length
  decreasing_by exact length_drop_next_lt c rest

theorem codePieces_nil : codePieces [] = [] := by
  rw [codePieces]

theorem codePieces_cons (c : Char) (rest : List Char) :
    codePieces (c :: rest) =
      ((Lexeme.next c rest).kind?,
          (c :: rest).take (Lexeme.next c rest).extent) ::
        if (Lexeme.next c rest).kind? = some .closeTag then []
        else codePieces ((c :: rest).drop (Lexeme.next c rest).extent) := by
  rw [codePieces]

/-- Code is not left within the pieces. -/
def CodeOnly (pieces : List (Option Kind × List Char)) : Prop :=
  ∀ piece ∈ pieces, piece.1 ≠ some .closeTag

theorem codeOnly_append {front back : List (Option Kind × List Char)} :
    CodeOnly (front ++ back) ↔ CodeOnly front ∧ CodeOnly back :=
  List.forall_mem_append

theorem CodeOnly.of_codePieces_cons {c : Char} {rest : List Char}
    (codeOnly : CodeOnly (codePieces (c :: rest))) :
    (Lexeme.next c rest).kind? ≠ some .closeTag ∧
      CodeOnly (codePieces ((c :: rest).drop (Lexeme.next c rest).extent)) := by
  rw [codePieces_cons] at codeOnly
  have staysIn := codeOnly _ List.mem_cons_self
  rw [if_neg staysIn] at codeOnly
  exact ⟨staysIn, (List.forall_mem_cons.mp codeOnly).2⟩

theorem codePieces_bracket {c : Char} (bracket : isBracket c = true) :
    codePieces [c] = [(none, [c])] := by
  simp only [isBracket, Bool.or_eq_true, beq_iff_eq] at bracket
  rcases bracket with ((((rfl | rfl) | rfl) | rfl) | rfl) | rfl <;>
    decide +kernel

namespace Cursor

theorem rest_advance (cursor : Cursor) (count : Nat) :
    (cursor.advance count).rest = cursor.rest.drop count := rfl

theorem turn_code_eq (lowered : List Char) (cursor : Cursor) (c : Char)
    (rest : List Char) :
    cursor.turn lowered .code c rest =
      .ok ⟨[.ofPiece (Lexeme.next c rest).kind?
          (cursor.rest.take (Lexeme.next c rest).extent) cursor.line],
        if (Lexeme.next c rest).kind? = some .closeTag then .template
        else .code,
        cursor.advance (Lexeme.next c rest).extent⟩ := by
  rw [turn, readCode, readToken_eq cursor _ (Lexeme.next_extent_pos c rest)]
  rfl

end Cursor

theorem lexFrom_nil (lowered : List Char) (mode : Mode) {cursor : Cursor}
    (exhausted : cursor.rest = []) :
    lexFrom lowered mode cursor = .ok [] := by
  rw [lexFrom]
  split
  · rfl
  · next remaining =>
      rw [exhausted] at remaining
      cases remaining

/-- Lexing goes on where a turn left off. -/
theorem lexFrom_turn {lowered : List Char} {mode : Mode} {cursor : Cursor}
    {c : Char} {rest : List Char} {read : Turn}
    (remaining : cursor.rest = c :: rest)
    (reading : cursor.turn lowered mode c rest = .ok read) :
    lexFrom lowered mode cursor =
      (lexFrom lowered read.mode read.behind).map (read.tokens ++ ·) := by
  rw [lexFrom]
  split
  · next exhausted =>
      rw [remaining] at exhausted
      cases exhausted
  · next first later shape =>
      obtain ⟨rfl, rfl⟩ : first = c ∧ later = rest := by
        rw [remaining] at shape
        simpa using shape.symm
      split
      · next failed =>
          rw [reading] at failed
          cases failed
      · next succeeded =>
          rw [reading] at succeeded
          obtain rfl := Except.ok.inj succeeded
          rfl

theorem exists_of_lexFrom_turn {lowered : List Char} {mode : Mode}
    {cursor : Cursor} {c : Char} {rest : List Char} {read : Turn}
    {tokens : List Token} (remaining : cursor.rest = c :: rest)
    (reading : cursor.turn lowered mode c rest = .ok read)
    (success : lexFrom lowered mode cursor = .ok tokens) :
    ∃ following, lexFrom lowered read.mode read.behind = .ok following ∧
      tokens = read.tokens ++ following := by
  rw [lexFrom_turn remaining reading] at success
  cases later : lexFrom lowered read.mode read.behind with
  | error failure =>
      rw [later] at success
      cases success
  | ok following =>
      rw [later] at success
      exact ⟨following, rfl, (Except.ok.inj success).symm⟩

theorem flatMap_codePieces {text : List Char}
    (codeOnly : CodeOnly (codePieces text)) :
    (codePieces text).flatMap Prod.snd = text := by
  fun_induction codePieces text with
  | case1 => rfl
  | case2 c rest induction =>
      have staysIn := codeOnly _ List.mem_cons_self
      rw [if_neg staysIn] at codeOnly ⊢
      have later := induction fun piece member =>
        codeOnly piece (List.mem_cons_of_mem _ member)
      rw [List.flatMap_cons, later, List.take_append_drop]

/-- Code is lexed into its pieces; if they spell the text, that is all. -/
theorem lexFrom_code_pieces {lowered : List Char} {cursor : Cursor}
    {tokens : List Token}
    (success : lexFrom lowered .code cursor = .ok tokens) :
    ∃ behind, tokens.map Token.piece = codePieces cursor.rest ++ behind ∧
      ((codePieces cursor.rest).flatMap Prod.snd = cursor.rest →
        behind = []) := by
  generalize remaining : cursor.rest = text
  fun_induction codePieces text generalizing cursor tokens with
  | case1 =>
      rw [lexFrom_nil lowered .code remaining] at success
      obtain rfl := Except.ok.inj success
      exact ⟨[], rfl, fun _ => rfl⟩
  | case2 c rest induction =>
      let extent := (Lexeme.next c rest).extent
      obtain ⟨following, later, rfl⟩ := exists_of_lexFrom_turn remaining
        (cursor.turn_code_eq lowered c rest) success
      have left : (cursor.advance extent).rest = (c :: rest).drop extent := by
        rw [Cursor.rest_advance, remaining]
      rw [List.map_append, List.map_singleton, Token.piece_ofPiece, remaining]
      by_cases closes : (Lexeme.next c rest).kind? = some .closeTag
      · rw [if_pos closes]
        refine ⟨following.map Token.piece, rfl, ?_⟩
        intro spelled
        rw [List.flatMap_cons, List.flatMap_nil, List.append_nil,
          List.take_eq_self_iff] at spelled
        have exhausted : (cursor.advance extent).rest = [] := by
          rw [left, List.drop_eq_nil_iff]
          exact spelled
        rw [lexFrom_nil lowered _ exhausted] at later
        obtain rfl := Except.ok.inj later
        rfl
      · simp only [if_neg closes] at later ⊢
        obtain ⟨behind, split, none⟩ := induction later left
        refine ⟨behind, by rw [split]; rfl, ?_⟩
        intro spelled
        apply none
        rw [List.flatMap_cons] at spelled
        have parts : (c :: rest).take extent ++ (c :: rest).drop extent =
            c :: rest := List.take_append_drop extent (c :: rest)
        exact List.append_cancel_left (spelled.trans parts.symm)

theorem render_lex (mode : Mode) (source : String) :
    Token.render (lex mode source) = source := by
  obtain ⟨tokens, last, success, reads, exhausted⟩ :=
    lexFrom_reads (Text.lower source.toList) mode (.start source.toList)
  obtain rfl : lex mode source = tokens :=
    Except.ok.inj ((lexFrom_start mode source).symm.trans success)
  have spelled := reads.render_append_rest
  rw [exhausted, List.append_nil] at spelled
  exact String.toList_inj.mp spelled

theorem flatMap_piece (tokens : List Token) :
    (tokens.map Token.piece).flatMap Prod.snd =
      (Token.render tokens).toList := by
  induction tokens with
  | nil => rfl
  | cons token tokens induction =>
      rw [List.map_cons, List.flatMap_cons, induction, Token.render_cons,
        String.toList_append]
      rfl

theorem lexCode_pieces (code : String) :
    ∃ behind,
      (lexCode code).map Token.piece = codePieces code.toList ++ behind ∧
      ((codePieces code.toList).flatMap Prod.snd = code.toList →
        behind = []) :=
  lexFrom_code_pieces (lexFrom_start .code code)

theorem exists_token_of_mem_codePieces {code : String}
    {piece : Option Kind × List Char} (member : piece ∈ codePieces code.toList) :
    ∃ token ∈ lexCode code, token.piece = piece := by
  obtain ⟨behind, split, _⟩ := lexCode_pieces code
  apply List.mem_map.mp
  rw [split]
  exact List.mem_append_left behind member

end TokenMacros
