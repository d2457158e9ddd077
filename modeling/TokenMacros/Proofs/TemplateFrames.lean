import Mathlib.Data.List.Chain
import TokenMacros.Proofs.SourcePieces

/-!
# Frames of a template

Close tags, template text and open tags frame the code of a source.  Whatever
the source is, template text is read at the beginning or behind a close tag
only, and an open tag or the end follows it.
-/

namespace TokenMacros

namespace Token

/-- Template text or an open tag. -/
def isTemplate (token : Token) : Bool :=
  token.kind?.any Kind.isTemplate

/-- Template text or one of the tags around it. -/
def isFrame (token : Token) : Bool :=
  token.isTemplate || token.kind? == some .closeTag

theorem isTemplate_eq_false {token : Token} (code : token.isFrame = false) :
    token.isTemplate = false := by
  rw [isFrame, Bool.or_eq_false_iff] at code
  exact code.1

theorem isTemplate_of_openTag {token : Token}
    (tag : token.kind? = some .openTag) : token.isTemplate = true := by
  rw [isTemplate, tag]
  rfl

theorem isTemplate_of_inlineHtml {token : Token}
    (html : token.kind? = some .inlineHtml) : token.isTemplate = true := by
  rw [isTemplate, html]
  rfl

theorem kind_of_isTemplate {token : Token}
    (template : token.isTemplate = true) :
    token.kind? = some .openTag ∨ token.kind? = some .inlineHtml := by
  obtain ⟨kind, isKind, isTemplate⟩ := (Option.any_eq_true _ _).mp template
  rw [isKind]
  cases kind with
  | openTag => exact .inl rfl
  | inlineHtml => exact .inr rfl
  | _ => cases isTemplate

theorem text_ofPiece_ne_empty {kind? : Option Kind} {text : List Char}
    {extent line : Nat} (positive : 0 < extent) (remaining : text ≠ []) :
    (ofPiece kind? (text.take extent) line).text ≠ "" := by
  rw [text_ofPiece, Ne, String.ofList_eq_empty_iff, List.take_eq_nil_iff]
  rintro (zero | empty)
  · exact Nat.ne_of_gt positive zero
  · exact remaining empty

@[simp] theorem kind_ofPiece (kind? : Option Kind) (text : List Char)
    (line : Nat) : (ofPiece kind? text line).kind? = kind? := by
  cases kind? <;> rfl

end Token

/-- Rows of tokens in which an open tag or nothing follows template text, and
which have template text behind close tags only, or at the beginning of a row in
template mode. -/
inductive Framed : Mode → List Token → Prop where
  | nil (mode : Mode) : Framed mode []
  | code {mode : Mode} {token : Token} {tokens : List Token} :
      token.isFrame = false →
      token.text ≠ "" →
      Framed .code tokens →
      Framed mode (token :: tokens)
  | close {mode : Mode} {token : Token} {tokens : List Token} :
      token.kind? = some .closeTag →
      closeTagMark <+: token.text.toList →
      Framed .template tokens →
      Framed mode (token :: tokens)
  | tag {mode : Mode} {token : Token} {tokens : List Token} :
      token.kind? = some .openTag →
      Framed .code tokens →
      Framed mode (token :: tokens)
  | html {token : Token} {tokens : List Token} :
      token.kind? = some .inlineHtml →
      token.text ≠ "" →
      (∀ next ∈ tokens.head?, next.kind? = some .openTag) →
      Framed .code tokens →
      Framed .template (token :: tokens)

namespace Framed

theorem of_code {mode : Mode} {tokens : List Token}
    (framed : Framed .code tokens) : Framed mode tokens := by
  cases framed with
  | nil => exact .nil mode
  | code plain nonempty later => exact .code plain nonempty later
  | close closes marked later => exact .close closes marked later
  | tag opens later => exact .tag opens later

theorem isChain_html {mode : Mode} {tokens : List Token}
    (framed : Framed mode tokens) :
    tokens.IsChain fun html next =>
      html.kind? = some .inlineHtml → next.kind? = some .openTag := by
  have noHtml {token : Token} (other : token.kind? ≠ some .inlineHtml)
      {tokens : List Token}
      (later : tokens.IsChain fun html next =>
        html.kind? = some .inlineHtml → next.kind? = some .openTag) :
      (token :: tokens).IsChain fun html next =>
        html.kind? = some .inlineHtml → next.kind? = some .openTag := by
    apply later.cons
    intro next _ html
    exact absurd html other
  induction framed with
  | nil => exact .nil
  | code plain _ _ induction =>
      apply noHtml _ induction
      intro html
      have template := Token.isTemplate_of_inlineHtml html
      rw [Token.isTemplate_eq_false plain] at template
      cases template
  | close closes _ _ induction =>
      apply noHtml _ induction
      rw [closes]
      decide
  | tag opens _ induction =>
      apply noHtml _ induction
      rw [opens]
      decide
  | html _ _ opens _ induction =>
      apply induction.cons
      intro next isHead _
      exact opens next isHead

theorem text_ne_empty {mode : Mode} {tokens : List Token}
    (framed : Framed mode tokens) {token : Token} (member : token ∈ tokens)
    (other : token.kind? ≠ some .openTag) : token.text ≠ "" := by
  induction framed with
  | nil => cases member
  | code _ nonempty _ induction =>
      rcases List.mem_cons.mp member with rfl | later
      · exact nonempty
      · exact induction later
  | close _ marked _ induction =>
      rcases List.mem_cons.mp member with rfl | later
      · intro empty
        rw [empty] at marked
        exact absurd marked (by decide)
      · exact induction later
  | tag opens _ induction =>
      rcases List.mem_cons.mp member with rfl | later
      · exact absurd opens other
      · exact induction later
  | html _ nonempty _ _ induction =>
      rcases List.mem_cons.mp member with rfl | later
      · exact nonempty
      · exact induction later

end Framed

namespace Turns

variable {lowered : List Char} {mode : Mode} {cursor : Cursor}
  {tokens : List Token}

/-- What holds of each piece of code and of all template text and open tags holds
of every token. -/
theorem forall_mem {p : Token → Prop}
    (turns : Turns lowered mode cursor tokens)
    (code : ∀ c rest line, p (.ofPiece (Lexeme.next c rest).kind?
      ((c :: rest).take (Lexeme.next c rest).extent) line))
    (template : ∀ token, token.isTemplate = true → p token) :
    ∀ token ∈ tokens, p token := by
  have html (text : List Char) (line : Nat) :
      p (.ofPiece (some .inlineHtml) text line) :=
    template _ (Token.isTemplate_of_inlineHtml (Token.kind_ofPiece _ _ _))
  induction turns with
  | done => exact List.forall_mem_nil _
  | @code cursor c rest _ remaining _ induction =>
      rw [remaining, List.forall_mem_cons]
      exact ⟨code c rest cursor.line, induction⟩
  | html => exact List.forall_mem_singleton.mpr (html _ _)
  | tag _ _ _ induction =>
      have tag (cursor : Cursor) : p cursor.openTag :=
        template _ (Token.isTemplate_of_openTag (Token.kind_ofPiece _ _ _))
      rw [List.forall_mem_append, List.forall_mem_cons]
      refine ⟨?_, tag _, induction⟩
      rw [Cursor.htmlBefore]
      split
      · exact List.forall_mem_nil _
      · exact List.forall_mem_singleton.mpr (html _ _)

theorem framed (turns : Turns lowered mode cursor tokens) :
    Framed mode tokens := by
  induction turns with
  | done => exact .nil _
  | @code cursor c rest _ remaining _ induction =>
      split at induction
      · next closes =>
          apply Framed.close _ _ induction
          · rw [Token.kind_ofPiece, closes]
          · rw [Token.text_ofPiece, String.toList_ofList, remaining]
            exact Lexeme.next_closeTag closes
      · next inCode =>
          have nonempty : cursor.rest ≠ [] := by
            rw [remaining]
            exact List.cons_ne_nil c rest
          apply Framed.code _ _ induction
          · rw [Token.isFrame, Token.isTemplate, Token.kind_ofPiece,
              Lexeme.next_isTemplate, Bool.false_or]
            exact beq_eq_false_iff_ne.mpr inCode
          · exact Token.text_ofPiece_ne_empty (Lexeme.next_extent_pos c rest)
              nonempty
  | html nonempty _ =>
      apply Framed.html (Token.kind_ofPiece _ _ _) _ _ (.nil .code)
      · rw [Token.text_ofPiece, Ne, String.ofList_eq_empty_iff]
        exact nonempty
      · intro next isHead
        cases isHead
  | @tag cursor offset _ nonempty _ _ induction =>
      have tagKind : (cursor.advance offset).openTag.kind? = some .openTag :=
        Token.kind_ofPiece _ _ _
      rw [Cursor.htmlBefore]
      split
      · exact .tag tagKind induction
      · next html =>
          apply Framed.html (Token.kind_ofPiece _ _ _) _ _
            (.tag tagKind induction)
          · exact Token.text_ofPiece_ne_empty (Nat.pos_of_ne_zero html) nonempty
          · intro next isHead
            obtain rfl := Option.some.inj isHead
            exact tagKind

end Turns

theorem lex_framed (mode : Mode) (source : String) :
    Framed mode (lex mode source) :=
  (turns_of_lexFrom (lexFrom_start mode source)).framed

end TokenMacros
