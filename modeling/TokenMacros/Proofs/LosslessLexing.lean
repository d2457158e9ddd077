import TokenMacros.Source.Lex

/-!
# Lossless lexing

The lexer cuts pieces out of the source, one behind the other.  Tokens read
between two cursors therefore spell the text between them, and the line of a
classified token counts the line breaks in front of it.  Both facts hold for
every reading, so they do not depend on where a piece ends.
-/

namespace TokenMacros

namespace Token

@[simp] theorem text_ofPiece (kind? : Option Kind) (text : List Char)
    (line : Nat) :
    (ofPiece kind? text line).text = String.ofList text := by
  cases kind? <;> rfl

@[simp] theorem render_nil : render [] = "" := rfl

@[simp] theorem render_cons (token : Token) (tokens : List Token) :
    render (token :: tokens) = token.text ++ render tokens := by
  simp [render, String.join_cons]

theorem line_of_ofPiece_eq {kind? : Option Kind} {piece : List Char}
    {start : Nat} {kind : Kind} {text : String} {line : Nat}
    (same : ofPiece kind? piece start = .classified kind text line) :
    line = start := by
  cases kind? with
  | none => simp [ofPiece] at same
  | some _ =>
      simp only [ofPiece, classified.injEq] at same
      exact same.2.2.symm

/-- How many lines end within the tokens. -/
def lineBreaks (tokens : List Token) : Nat :=
  (render tokens).toList.count '\n'

theorem lineBreaks_cons (token : Token) (tokens : List Token) :
    lineBreaks (token :: tokens) =
      token.text.toList.count '\n' + lineBreaks tokens := by
  simp [lineBreaks]

end Token

namespace Cursor.Reads

open Token (render lineBreaks)

/-- Tokens spell the text between the cursors that they lead through. -/
theorem render_append_rest {cursor last : Cursor} {tokens : List Token}
    (reads : cursor.Reads tokens last) :
    (render tokens).toList ++ last.rest = cursor.rest := by
  induction reads with
  | stay => rfl
  | @piece cursor last tokens kind? extent _ _ induction =>
      let piece := cursor.rest.take extent
      have behind : (render tokens).toList ++ last.rest =
          cursor.rest.drop extent := induction
      calc
        (render (.ofPiece kind? piece cursor.line :: tokens)).toList ++
              last.rest =
            piece ++ ((render tokens).toList ++ last.rest) := by simp
        _ = piece ++ cursor.rest.drop extent := by rw [behind]
        _ = cursor.rest := List.take_append_drop extent cursor.rest

/-- A classified token stands on the line that the breaks in front of it lead
to. -/
theorem line_eq {cursor last : Cursor} {tokens : List Token}
    (reads : cursor.Reads tokens last) {index : Nat} {kind : Kind}
    {text : String} {line : Nat}
    (found : tokens[index]? = some (.classified kind text line)) :
    line = cursor.line + lineBreaks (tokens.take index) := by
  induction reads generalizing index with
  | stay => simp at found
  | @piece cursor last tokens kind? extent _ _ induction =>
      cases index with
      | zero =>
          have first := Option.some.inj found
          simpa [lineBreaks] using Token.line_of_ofPiece_eq first
      | succ index =>
          have later := induction (by simpa using found)
          simp only [List.take_succ_cons, Token.lineBreaks_cons,
            Token.text_ofPiece, String.toList_ofList]
          simp only [advance] at later
          omega

end Cursor.Reads

/-- Every source is read without failure in either mode.  The tokens spell the
source, and the line of each classified one is one more than the number of line
breaks in the tokens before. -/
theorem lex_lossless (mode : Mode) (source : String) :
    lexFrom (Text.lower source.toList) mode (.start source.toList) =
        .ok (lex mode source) ∧
      Token.render (lex mode source) = source ∧
      ∀ (index : Nat) (kind : Kind) (text : String) (line : Nat),
        (lex mode source)[index]? = some (.classified kind text line) →
          line = 1 +
            (Token.render ((lex mode source).take index)).toList.count
              '\n' := by
  obtain ⟨tokens, last, success, reads, exhausted⟩ :=
    lexFrom_reads (Text.lower source.toList) mode (.start source.toList)
  have result : lex mode source = tokens :=
    Except.ok.inj ((lexFrom_start mode source).symm.trans success)
  rw [result]
  refine ⟨success, ?_, ?_⟩
  · have spelled := reads.render_append_rest
    rw [exhausted, List.append_nil] at spelled
    exact String.toList_inj.mp spelled
  · intro index kind text line found
    exact reads.line_eq found

end TokenMacros
