import Mathlib.Data.List.Find
import TokenMacros.Proofs.HeredocLocality
import TokenMacros.Proofs.LexemeForms

/-!
# Pieces that end within a text

A piece of code that begins in a text and ends in it is the same whether
something follows the text or not, unless the text ends within a close tag that
stands directly behind the piece.  The text shows the form of the piece, since a
form that takes a second character to be told takes that character too; and each
form is read the same in the text.
-/

namespace TokenMacros

open Text (isBlank isDigit)

namespace Extent

variable {text back : List Char} {c : Char}

theorem three_le_of_heredoc? {extent : Nat}
    (found : heredoc? text = some extent) : 3 ≤ extent := by
  rw [heredoc?, Option.map_eq_some_iff] at found
  obtain ⟨_, _, rfl⟩ := found
  dsimp only
  omega

theorem blockComment_append {d : Char}
    (fits : blockComment (c :: d :: (text ++ back)) ≤ text.length + 2) :
    blockComment (c :: d :: (text ++ back)) = blockComment (c :: d :: text) := by
  simp only [blockComment] at fits ⊢
  rw [throughCommentEnd_append (by omega)]

theorem docMark_append {d : Char}
    (fits : blockComment (c :: d :: (text ++ back)) ≤ text.length + 2) :
    docMark (c :: d :: (text ++ back)) = docMark (c :: d :: text) := by
  cases back with
  | nil => rw [List.append_nil]
  | cons b back =>
      simp only [blockComment] at fits
      have closed := @docMark_of_closed text (b :: back) [] c d (by omega)
        (List.cons_ne_nil b back)
      rw [← closed, List.append_nil]

end Extent

namespace Lexeme

variable {c : Char} {front back : List Char}

/-- An operator that ends in the text is found there, and none that the text
shows is overlooked. -/
theorem operatorOrBare_append {text : List Char}
    (fits : (operatorOrBare (text ++ back)).extent ≤ text.length) :
    operatorOrBare (text ++ back) = operatorOrBare text := by
  have overlooked (operator : List Char)
      (absent : ¬ beginsWith operator (text ++ back) = true) :
      ¬ beginsWith operator text = true := fun begins =>
    absent (beginsWith_append_right begins back)
  unfold operatorOrBare at fits ⊢
  cases found : operators.find? (beginsWith · (text ++ back)) with
  | none =>
      have none : operators.find? (beginsWith · text) = none := by
        rw [List.find?_eq_none] at found ⊢
        exact fun operator member =>
          overlooked operator (found operator member)
      rw [none]
  | some operator =>
      rw [found] at fits
      obtain ⟨begins, before, behind, listed, earlier⟩ :=
        List.find?_eq_some_iff_append.mp found
      have here : operators.find? (beginsWith · text) = some operator := by
        rw [List.find?_eq_some_iff_append]
        refine ⟨?_, before, behind, listed, ?_⟩
        · rw [beginsWith, Extent.isPrefixOf_append_of_le fits] at begins
          exact begins
        · intro other member
          have absent := earlier other member
          rw [Bool.not_eq_true', ← Bool.not_eq_true] at absent ⊢
          exact overlooked other absent
      rw [here]

theorem heredocOrOperator_append {text : List Char}
    (fits : (heredocOrOperator (text ++ back)).extent ≤ text.length) :
    heredocOrOperator (text ++ back) = heredocOrOperator text := by
  unfold heredocOrOperator at fits ⊢
  by_cases mark : beginsWith ['<', '<', '<'] text = true
  · have long : 3 ≤ text.length :=
      (List.isPrefixOf_iff_prefix.mp mark).length_le
    rw [if_pos (beginsWith_append_right mark back)] at fits ⊢
    rw [if_pos mark]
    have same : Extent.heredoc? (text ++ back) = Extent.heredoc? text := by
      apply Extent.heredoc?_append long
      intro extent found
      rw [found] at fits
      exact fits
    rw [same] at fits ⊢
    cases found : Extent.heredoc? text with
    | some extent => rfl
    | none =>
        rw [found] at fits
        exact operatorOrBare_append fits
  · rw [if_neg mark]
    by_cases longer : beginsWith ['<', '<', '<'] (text ++ back) = true
    · rw [if_pos longer] at fits ⊢
      cases found : Extent.heredoc? (text ++ back) with
      | some extent =>
          -- the heredoc has its mark in the text
          rw [found] at fits
          have long : ['<', '<', '<'].length ≤ text.length :=
            Nat.le_trans (Extent.three_le_of_heredoc? found) fits
          rw [beginsWith, Extent.isPrefixOf_append_of_le long] at longer
          exact absurd longer mark
      | none =>
          rw [found] at fits
          exact operatorOrBare_append fits
    · rw [if_neg longer] at fits ⊢
      exact operatorOrBare_append fits

/-- What is left to a form are the extents, and each of them that ends in the
text is as long there. -/
theorem Form.read_append (form : Form)
    (tag : beginsWith ['?', '>'] ((c :: (front ++ back)).drop
        (form.read c (front ++ back)).extent) = true →
      beginsWith ['?', '>'] ((c :: front).drop
        (form.read c (front ++ back)).extent) = true)
    (fits : (form.read c (front ++ back)).extent ≤ (c :: front).length) :
    form.read c (front ++ back) = form.read c front := by
  cases form with
  | closeTag =>
      cases front with
      | nil =>
          have long : 2 ≤ 1 := Nat.le_trans (Nat.le_add_right 2 _) fits
          omega
      | cons d front =>
          simp only [read, List.cons_append, List.drop_succ_cons,
            List.drop_zero, List.length_cons] at fits ⊢
          rw [Extent.lineBreak_append (by omega)]
  | blanks =>
      have same : Extent.blanks (c :: front ++ back) =
          Extent.blanks (c :: front) :=
        congrArg List.length (takeWhile_append_of_le fits)
      rw [read, read, ← same, List.cons_append]
  | lineComment =>
      have same := @Extent.lineComment_append (c :: front) back tag fits
      rw [read, read, ← same, List.cons_append]
  | blockComment =>
      cases front with
      | nil =>
          cases back with
          | nil => rfl
          | cons b back =>
              have long : 2 ≤ 1 := Nat.le_trans (Nat.le_add_right 2 _) fits
              omega
      | cons d front =>
          simp only [read, List.cons_append, List.length_cons] at fits ⊢
          simp only [Extent.docMark_append fits, Extent.blockComment_append fits]
  | quoted =>
      simp only [read, Extent.quotedLiteral, List.length_cons] at fits ⊢
      rw [Extent.throughQuote_append c (by omega)]
  | dollar =>
      simp only [read, List.length_cons] at fits ⊢
      rw [Extent.identifier_append (by omega)]
  | number =>
      have same := @Extent.number_append (c :: front) back
        (List.cons_ne_nil _ _) fits
      rw [List.cons_append] at same
      simp only [read, same]
  | word =>
      simp only [read, List.length_cons] at fits ⊢
      have same : Extent.identifier (front ++ back) =
          Extent.identifier front := Extent.identifier_append (by omega)
      rw [same] at fits ⊢
      rw [← List.cons_append, List.take_append_of_le_length fits]
  | other =>
      exact @heredocOrOperator_append back (c :: front) fits

/-- A piece that ends in the text is the same without what follows the text.  A
close tag behind the piece must not be torn apart, since a comment would go on
over what is left of it. -/
theorem next_append
    (tag : beginsWith ['?', '>'] ((c :: (front ++ back)).drop
        (next c (front ++ back)).extent) = true →
      beginsWith ['?', '>'] ((c :: front).drop
        (next c (front ++ back)).extent) = true)
    (fits : (next c (front ++ back)).extent ≤ (c :: front).length) :
    next c (front ++ back) = next c front := by
  have form : Form.ofChars c (front ++ back).head? =
      Form.ofChars c front.head? := by
    cases front with
    | nil => exact Form.ofChars_of_extent_le_one fits
    | cons d front => rfl
  rw [next_eq_read, form] at tag fits ⊢
  rw [next_eq_read]
  exact Form.read_append _ tag fits

/-- What begins with white space or a bracket tears no close tag apart. -/
theorem next_append_of_breaksOff (breaks : BreaksOff back)
    (fits : (next c (front ++ back)).extent ≤ (c :: front).length) :
    next c (front ++ back) = next c front := by
  apply next_append _ fits
  intro tag
  rw [← List.cons_append, List.drop_append_of_le_length fits] at tag
  rwa [beginsWith_append (by decide) _ breaks] at tag

end Lexeme

end TokenMacros
