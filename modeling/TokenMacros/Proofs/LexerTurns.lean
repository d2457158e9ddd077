import TokenMacros.Proofs.CodePieces

/-!
# The turns of the lexer

A source is lexed turn by turn.  A turn reads a piece of code, template text and
the open tag behind it, or template text to the end, and the tokens of a source
are what its turns read.
-/

namespace TokenMacros

namespace Cursor

theorem advance_zero (cursor : Cursor) : cursor.advance 0 = cursor := by
  cases cursor
  simp [advance]

/-- The template text in front of a tag, if there is any. -/
def htmlBefore (cursor : Cursor) (offset : Nat) : List Token :=
  if offset = 0 then []
  else [.ofPiece (some .inlineHtml) (cursor.rest.take offset) cursor.line]

/-- The open tag at the front of the text. -/
def openTag (cursor : Cursor) : Token :=
  .ofPiece (some .openTag) (cursor.rest.take (openTagExtent cursor.rest))
    cursor.line

theorem turn_template_of_tag {lowered : List Char} {cursor : Cursor}
    {offset : Nat} (c : Char) (rest : List Char)
    (found : openTagOffset? (lowered.drop cursor.position) = some offset) :
    cursor.turn lowered .template c rest =
      .ok ⟨cursor.htmlBefore offset ++ [(cursor.advance offset).openTag],
        .code,
        (cursor.advance offset).advance
          (openTagExtent (cursor.advance offset).rest)⟩ := by
  rw [turn, readTemplate, found]
  cases offset with
  | zero =>
      rw [advance_zero]
      simp only [readOpenTag_eq]
      rfl
  | succ offset =>
      simp only [readToken_eq cursor _ (Nat.succ_pos offset), bind,
        Except.bind, readOpenTag_eq]
      rfl

theorem turn_template_to_end {lowered : List Char} {cursor : Cursor} (c : Char)
    (rest : List Char) (remaining : cursor.rest ≠ [])
    (none : openTagOffset? (lowered.drop cursor.position) = none) :
    cursor.turn lowered .template c rest =
      .ok ⟨[.ofPiece (some .inlineHtml) cursor.rest cursor.line], .template,
        cursor.advance cursor.rest.length⟩ := by
  rw [turn, readTemplate, none]
  dsimp only
  rw [readToken_eq cursor _ (List.length_pos_iff.mpr remaining),
    List.take_length]
  rfl

end Cursor

/-- The tokens are read in turns from the cursor to the end of the source. -/
inductive Turns (lowered : List Char) : Mode → Cursor → List Token → Prop where
  | done {mode : Mode} {cursor : Cursor} :
      cursor.rest = [] →
      Turns lowered mode cursor []
  | code {cursor : Cursor} {c : Char} {rest : List Char}
      {tokens : List Token} :
      cursor.rest = c :: rest →
      Turns lowered
        (if (Lexeme.next c rest).kind? = some .closeTag then .template
        else .code)
        (cursor.advance (Lexeme.next c rest).extent) tokens →
      Turns lowered .code cursor
        (.ofPiece (Lexeme.next c rest).kind?
            (cursor.rest.take (Lexeme.next c rest).extent) cursor.line ::
          tokens)
  | html {cursor : Cursor} :
      cursor.rest ≠ [] →
      openTagOffset? (lowered.drop cursor.position) = none →
      Turns lowered .template cursor
        [.ofPiece (some .inlineHtml) cursor.rest cursor.line]
  | tag {cursor : Cursor} {offset : Nat} {tokens : List Token} :
      cursor.rest ≠ [] →
      openTagOffset? (lowered.drop cursor.position) = some offset →
      Turns lowered .code
        ((cursor.advance offset).advance
          (openTagExtent (cursor.advance offset).rest)) tokens →
      Turns lowered .template cursor
        (cursor.htmlBefore offset ++ (cursor.advance offset).openTag :: tokens)

/-- Whatever is lexed is read in turns. -/
theorem turns_of_lexFrom {lowered : List Char} {mode : Mode} {cursor : Cursor}
    {tokens : List Token} (success : lexFrom lowered mode cursor = .ok tokens) :
    Turns lowered mode cursor tokens := by
  fun_induction lexFrom generalizing tokens with
  | case1 mode cursor exhausted =>
      obtain rfl := Except.ok.inj success
      exact .done exhausted
  | case2 => cases success
  | case3 mode cursor c rest remaining read reading induction =>
      have nonempty : cursor.rest ≠ [] := by
        rw [remaining]
        exact List.cons_ne_nil c rest
      rw [← lexFrom_turn remaining reading] at success
      obtain ⟨following, later, rfl⟩ :=
        exists_of_lexFrom_turn remaining reading success
      cases mode with
      | code =>
          rw [Cursor.turn_code_eq] at reading
          obtain rfl := Except.ok.inj reading
          exact .code remaining (induction later)
      | template =>
          cases found : openTagOffset? (lowered.drop cursor.position) with
          | none =>
              rw [Cursor.turn_template_to_end c rest nonempty found] at reading
              obtain rfl := Except.ok.inj reading
              have exhausted : (cursor.advance cursor.rest.length).rest = [] :=
                List.drop_length
              rw [lexFrom_nil lowered _ exhausted] at later
              obtain rfl := Except.ok.inj later
              exact .html nonempty found
          | some offset =>
              rw [Cursor.turn_template_of_tag c rest found] at reading
              obtain rfl := Except.ok.inj reading
              rw [List.append_assoc, List.singleton_append]
              exact .tag nonempty found (induction later)

end TokenMacros
