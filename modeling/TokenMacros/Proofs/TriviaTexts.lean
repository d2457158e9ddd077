import TokenMacros.Proofs.CodePieces
import TokenMacros.Proofs.LexemeForms

/-!
# Trivia told from texts

In code, whether a token is trivia can be told from its text: white space
begins with a blank and a comment with one of the comment marks, and nothing
else begins like that.
-/

namespace TokenMacros

open Text (isBlank)

/-- The text begins like white space or like a comment. -/
def looksTrivial : List Char → Bool
  | [] => false
  | c :: rest =>
    isBlank c || (c == '#' && !rest.head?.any (· == '[')) ||
      beginsWith ['/', '/'] (c :: rest) || beginsWith ['/', '*'] (c :: rest)

namespace Lexeme

theorem looksTrivial_cons (c : Char) (rest : List Char) :
    looksTrivial (c :: rest) = (Form.ofChars c rest.head?).isTrivia := by
  rw [looksTrivial, beginsWith_two_head, beginsWith_two_head]
  by_cases isMark : c = '?'
  · subst isMark
    rw [Form.ofChars]
    split <;> rfl
  have notMark : (c == '?') = false := beq_eq_false_iff_ne.mpr isMark
  -- the forms behind those of trivia are all the same
  simp only [Form.ofChars, notMark, apply_ite Form.isTrivia, Bool.false_and,
    Bool.false_eq_true, if_false]
  simp only [Form.isTrivia, ite_self, Bool.if_true_left, Bool.if_false_right,
    Bool.decide_eq_true, Bool.and_true, Bool.or_assoc]

/-- A piece of code is trivia if what it begins looks trivial. -/
theorem next_isTrivia (c : Char) (rest : List Char) :
    (next c rest).kind?.any Kind.isTrivia = looksTrivial (c :: rest) := by
  rw [next_eq_read, Form.read_isTrivia, looksTrivial_cons]

theorem looksTrivial_of_extent_one {c : Char} {rest : List Char}
    (single : (next c rest).extent = 1) :
    looksTrivial (c :: rest) = looksTrivial [c] := by
  rw [looksTrivial_cons, looksTrivial_cons, List.head?_nil,
    Form.ofChars_of_extent_le_one single.le]

/-- A piece of code is long enough for its text to look like what it begins. -/
theorem looksTrivial_take_next (c : Char) (rest : List Char) :
    looksTrivial ((c :: rest).take (next c rest).extent) =
      looksTrivial (c :: rest) := by
  obtain ⟨further, extent⟩ :=
    Nat.exists_eq_add_of_le' (next_extent_pos c rest)
  cases further with
  | zero => 
      rw [looksTrivial_of_extent_one extent, extent]
      rfl
  | succ further =>
      rw [extent]
      cases rest <;> rfl

theorem next_closeTag {c : Char} {rest : List Char}
    (closes : (next c rest).kind? = some .closeTag) :
    closeTagMark <+: (c :: rest).take (next c rest).extent := by
  rw [next_eq_read] at closes
  have form := Form.eq_closeTag_of_kind closes
  have marked := Form.ofChars_eq_closeTag_iff.mp form
  rw [next_eq_read, form]
  exact List.prefix_take_iff.mpr
    ⟨List.isPrefixOf_iff_prefix.mp marked, Nat.le_add_right 2 _⟩

end Lexeme

/-- In code, the texts of trivia look trivial, and no others do. -/
theorem codePieces_isTrivia {text : List Char} {piece : Option Kind × List Char}
    (member : piece ∈ codePieces text) :
    piece.1.any Kind.isTrivia = looksTrivial piece.2 := by
  fun_induction codePieces text with
  | case1 => cases member
  | case2 c rest induction =>
      rcases List.mem_cons.mp member with rfl | later
      · exact (Lexeme.next_isTrivia c rest).trans
          (Lexeme.looksTrivial_take_next c rest).symm
      · split at later
        · cases later
        · next inCode => exact induction later

theorem codePieces_closeTag {text : List Char} {piece : Option Kind × List Char}
    (member : piece ∈ codePieces text) (closes : piece.1 = some .closeTag) :
    closeTagMark <+: piece.2 := by
  fun_induction codePieces text with
  | case1 => cases member
  | case2 c rest induction =>
      rcases List.mem_cons.mp member with rfl | later
      · exact Lexeme.next_closeTag closes
      · split at later
        · cases later
        · next inCode => exact induction later

namespace Token

/-- Whether the token is trivia can be told from its text. -/
def ShowsTrivia (token : Token) : Prop :=
  token.isTrivia = looksTrivial token.text.toList

instance (token : Token) : Decidable token.ShowsTrivia :=
  inferInstanceAs (Decidable (_ = _))

end Token

/-- Where no token shows the mark of a close tag, code is all there is. -/
theorem lexFrom_code_eq {lowered : List Char} {cursor : Cursor}
    {tokens : List Token}
    (success : lexFrom lowered .code cursor = .ok tokens)
    (codeOnly : ∀ token ∈ tokens, ¬ closeTagMark <+: token.text.toList) :
    tokens.map Token.piece = codePieces cursor.rest := by
  obtain ⟨behind, split, none⟩ := lexFrom_code_pieces success
  have noTag : CodeOnly (codePieces cursor.rest) := by
    intro piece member closes
    have read : piece ∈ tokens.map Token.piece := by
      rw [split]
      exact List.mem_append_left behind member
    obtain ⟨token, listed, rfl⟩ := List.mem_map.mp read
    exact codeOnly token listed (codePieces_closeTag member closes)
  rw [split, none (flatMap_codePieces noTag), List.append_nil]

theorem showsTrivia_of_lexFrom_code {lowered : List Char} {cursor : Cursor}
    {tokens : List Token}
    (success : lexFrom lowered .code cursor = .ok tokens)
    (codeOnly : ∀ token ∈ tokens, ¬ closeTagMark <+: token.text.toList) :
    ∀ token ∈ tokens, token.ShowsTrivia := by
  intro token member
  have piece : token.piece ∈ codePieces cursor.rest := by
    rw [← lexFrom_code_eq success codeOnly]
    exact List.mem_map_of_mem member
  rw [Token.ShowsTrivia, Token.isTrivia_eq]
  exact codePieces_isTrivia piece

end TokenMacros
