import TokenMacros.Proofs.CodePieces
import TokenMacros.Proofs.LexemeLocality

/-!
# Code that is cut between tokens

A piece of code that ends in a text does not depend on what follows the text.
So code that is cut in two between tokens is lexed into the tokens in front of
the cut and into those behind it; only the lines of the latter are counted anew.
A close tag would have to be left out, since the lexer leaves code behind it.
-/

namespace TokenMacros

namespace Token

/-- The token so many lines further up. -/
def movedUp (lines : Nat) : Token → Token
  | .bare text => .bare text
  | .classified kind text line => .classified kind text (line - lines)

/-- The token so many lines further down. -/
def movedDown (lines : Nat) : Token → Token
  | .bare text => .bare text
  | .classified kind text line => .classified kind text (line + lines)

theorem movedUp_movedDown (token : Token) (lines : Nat) :
    (token.movedDown lines).movedUp lines = token := by
  cases token with
  | bare text => rfl
  | classified kind text line =>
      simp only [movedDown, movedUp, Nat.add_sub_cancel]

theorem movedDown_ofPiece (lines : Nat) (kind? : Option Kind)
    (text : List Char) (line : Nat) :
    (ofPiece kind? text line).movedDown lines =
      ofPiece kind? text (line + lines) := by
  cases kind? <;> rfl

end Token

/-! ## Pieces with their lines -/

/-- The tokens of pieces that begin on a line. -/
def tokensOn (line : Nat) : List (Option Kind × List Char) → List Token
  | [] => []
  | (kind?, text) :: pieces =>
    .ofPiece kind? text line :: tokensOn (line + text.count '\n') pieces

theorem map_piece_tokensOn (line : Nat)
    (pieces : List (Option Kind × List Char)) :
    (tokensOn line pieces).map Token.piece = pieces := by
  induction pieces generalizing line with
  | nil => rfl
  | cons piece pieces induction =>
      rw [tokensOn, List.map_cons, Token.piece_ofPiece, induction]

theorem length_tokensOn (line : Nat)
    (pieces : List (Option Kind × List Char)) :
    (tokensOn line pieces).length = pieces.length := by
  rw [← List.length_map Token.piece, map_piece_tokensOn]

theorem tokensOn_append (line : Nat)
    (front back : List (Option Kind × List Char)) :
    tokensOn line (front ++ back) =
      tokensOn line front ++
        tokensOn (line + (front.flatMap Prod.snd).count '\n') back := by
  induction front generalizing line with
  | nil => rfl
  | cons piece front induction =>
      rw [List.cons_append, tokensOn, induction, tokensOn, List.cons_append,
        List.flatMap_cons, List.count_append, Nat.add_assoc]

theorem map_movedDown_tokensOn (lines line : Nat)
    (pieces : List (Option Kind × List Char)) :
    (tokensOn line pieces).map (Token.movedDown lines) =
      tokensOn (line + lines) pieces := by
  induction pieces generalizing line with
  | nil => rfl
  | cons piece pieces induction =>
      rw [tokensOn, List.map_cons, Token.movedDown_ofPiece, induction,
        tokensOn, Nat.add_right_comm]

theorem lexFrom_code_of_codeOnly (lowered : List Char) {cursor : Cursor}
    (codeOnly : CodeOnly (codePieces cursor.rest)) :
    lexFrom lowered .code cursor =
      .ok (tokensOn cursor.line (codePieces cursor.rest)) := by
  generalize remaining : cursor.rest = text at codeOnly
  fun_induction codePieces text generalizing cursor with
  | case1 => exact lexFrom_nil lowered .code remaining
  | case2 c rest induction =>
      let extent := (Lexeme.next c rest).extent
      rw [← codePieces_cons] at codeOnly
      obtain ⟨staysIn, codeOnlyLater⟩ := codeOnly.of_codePieces_cons
      have left : (cursor.advance extent).rest = (c :: rest).drop extent := by
        rw [Cursor.rest_advance, remaining]
      have later : lexFrom lowered .code (cursor.advance extent) = _ :=
        induction left codeOnlyLater
      rw [lexFrom_turn remaining (cursor.turn_code_eq lowered c rest)]
      simp only [if_neg staysIn]
      rw [later, remaining, tokensOn]
      simp only [Cursor.advance, remaining]
      rfl

theorem lexCode_of_codePieces {code : String}
    {pieces : List (Option Kind × List Char)}
    (cut : codePieces code.toList = pieces) (codeOnly : CodeOnly pieces) :
    lexCode code = tokensOn 1 pieces := by
  subst cut
  have lexed := @lexFrom_code_of_codeOnly (Text.lower code.toList)
    (.start code.toList) codeOnly
  exact Except.ok.inj ((lexFrom_start .code code).symm.trans lexed)

theorem codeOnly_of_lexCode {code : String}
    (noClose : ∀ token ∈ lexCode code, token.kind? ≠ some .closeTag) :
    CodeOnly (codePieces code.toList) := by
  intro piece member
  obtain ⟨token, lexed, rfl⟩ := exists_token_of_mem_codePieces member
  exact noClose token lexed

/-! ## The cut -/

theorem next_kind_of_closeTag {c : Char} {rest : List Char}
    (tag : beginsWith ['?', '>'] (c :: rest) = true) :
    (Lexeme.next c rest).kind? = some .closeTag := by
  rw [Lexeme.next_eq_read, Lexeme.Form.ofChars_eq_closeTag_iff.mpr tag,
    Lexeme.Form.read]

theorem not_beginsWith_closeTag {text : List Char}
    (codeOnly : CodeOnly (codePieces text)) :
    ¬ beginsWith ['?', '>'] text = true := by
  intro tag
  cases text with
  | nil => cases tag
  | cons c rest =>
      exact codeOnly.of_codePieces_cons.1 (next_kind_of_closeTag tag)

/-- The first piece is found again where the text is cut behind it. -/
theorem codePieces_cut {c : Char} {front back : List Char}
    (fits : (Lexeme.next c (front ++ back)).extent ≤ (c :: front).length)
    (codeOnly : CodeOnly (codePieces (c :: (front ++ back)))) :
    codePieces (c :: front) =
      ((Lexeme.next c (front ++ back)).kind?,
          (c :: (front ++ back)).take (Lexeme.next c (front ++ back)).extent) ::
        codePieces ((c :: front).drop
          (Lexeme.next c (front ++ back)).extent) := by
  obtain ⟨staysIn, codeOnlyLater⟩ := codeOnly.of_codePieces_cons
  have same : Lexeme.next c (front ++ back) = Lexeme.next c front := by
    apply Lexeme.next_append _ fits
    intro tag
    exact absurd tag (not_beginsWith_closeTag codeOnlyLater)
  rw [same] at fits staysIn
  rw [same, codePieces_cons, if_neg staysIn, ← List.cons_append,
    List.take_append_of_le_length fits]

theorem codePieces_take_append {c : Char} {rest front back : List Char}
    (left : (c :: rest).drop (Lexeme.next c rest).extent = front ++ back)
    (goesOn : back ≠ []) (codeOnly : CodeOnly (codePieces (c :: rest))) :
    codePieces ((c :: rest).take (Lexeme.next c rest).extent ++ front) =
      ((Lexeme.next c rest).kind?,
          (c :: rest).take (Lexeme.next c rest).extent) ::
        codePieces front := by
  have positive := Lexeme.next_extent_pos c rest
  have inside : (Lexeme.next c rest).extent ≤ (c :: rest).length := by
    apply Nat.le_of_lt
    apply Nat.lt_of_not_le
    intro beyond
    rw [List.drop_of_length_le beyond] at left
    exact goesOn (List.append_eq_nil_iff.mp left.symm).2
  have taken : ((c :: rest).take (Lexeme.next c rest).extent).length =
      (Lexeme.next c rest).extent := List.length_take_of_le inside
  have whole : (c :: rest).take (Lexeme.next c rest).extent ++ front ++ back =
      c :: rest := by
    rw [List.append_assoc, ← left, List.take_append_drop]
  cases text : (c :: rest).take (Lexeme.next c rest).extent ++ front with
  | nil =>
      have length := congrArg List.length text
      rw [List.length_append, List.length_nil] at length
      omega
  | cons d later =>
      rw [text, List.cons_append] at whole
      obtain ⟨rfl, rfl⟩ := List.cons.inj whole
      rw [codePieces_cut _ codeOnly, ← text, List.drop_left' taken]
      rw [← text, List.length_append]
      omega

/-- Pieces of code are found again where the code is cut between them. -/
theorem codePieces_split {text : List Char}
    {front back : List (Option Kind × List Char)}
    (codeOnly : CodeOnly (codePieces text))
    (split : codePieces text = front ++ back) :
    codePieces (front.flatMap Prod.snd) = front ∧
      codePieces (back.flatMap Prod.snd) = back := by
  by_cases nothing : back = []
  · subst nothing
    have spelled := flatMap_codePieces codeOnly
    rw [split, List.append_nil] at spelled
    rw [spelled, split, List.append_nil]
    exact ⟨rfl, codePieces_nil⟩
  induction front generalizing text with
  | nil =>
      have spelled := flatMap_codePieces codeOnly
      rw [split, List.nil_append] at spelled
      rw [spelled]
      exact ⟨codePieces_nil, split⟩
  | cons piece front induction =>
      cases text with
      | nil =>
          rw [codePieces_nil] at split
          cases split
      | cons c rest =>
          obtain ⟨staysIn, codeOnlyLater⟩ := codeOnly.of_codePieces_cons
          rw [codePieces_cons, if_neg staysIn, List.cons_append] at split
          obtain ⟨rfl, later⟩ := List.cons.inj split
          obtain ⟨frontStays, backStays⟩ := induction codeOnlyLater later
          refine ⟨?_, backStays⟩
          have left : (c :: rest).drop (Lexeme.next c rest).extent =
              front.flatMap Prod.snd ++ back.flatMap Prod.snd := by
            rw [← List.flatMap_append, ← later,
              flatMap_codePieces codeOnlyLater]
          have goesOn : back.flatMap Prod.snd ≠ [] := by
            intro none
            rw [none, codePieces_nil] at backStays
            exact nothing backStays.symm
          rw [List.flatMap_cons,
            codePieces_take_append left goesOn codeOnly, frontStays]

/-- Code without a close tag can be cut between any two tokens.  Either part is
lexed into its own tokens, and behind the cut the lines are counted from the cut
on. -/
theorem lexCode_split {source : String} {front back : List Token}
    (noClose : ∀ token ∈ lexCode source, token.kind? ≠ some .closeTag)
    (split : lexCode source = front ++ back) :
    lexCode (Token.render front) = front ∧
      lexCode (Token.render back) =
        back.map (Token.movedUp (Token.lineBreaks front)) ∧
      (lexCode (Token.render back)).map
        (Token.movedDown (Token.lineBreaks front)) = back := by
  have codeOnly := codeOnly_of_lexCode noClose
  have lexed := lexCode_of_codePieces rfl codeOnly
  have pieces : codePieces source.toList =
      front.map Token.piece ++ back.map Token.piece := by
    rw [← List.map_append, ← split, lexed, map_piece_tokensOn]
  obtain ⟨frontPieces, backPieces⟩ := codePieces_split codeOnly pieces
  rw [pieces] at codeOnly lexed
  rw [flatMap_piece] at frontPieces backPieces
  obtain ⟨frontOnly, backOnly⟩ := codeOnly_append.mp codeOnly
  have frontLexed := lexCode_of_codePieces frontPieces frontOnly
  have backLexed := lexCode_of_codePieces backPieces backOnly
  rw [split, tokensOn_append, flatMap_piece] at lexed
  have sameLength : front.length =
      (tokensOn 1 (front.map Token.piece)).length := by
    rw [length_tokensOn, List.length_map]
  obtain ⟨frontTokens, backTokens⟩ := List.append_inj lexed sameLength
  have below : (lexCode (Token.render back)).map
      (Token.movedDown (Token.lineBreaks front)) = back := by
    rw [backLexed, map_movedDown_tokensOn]
    exact backTokens.symm
  refine ⟨frontLexed.trans frontTokens.symm, ?_, below⟩
  calc
    lexCode (Token.render back) =
        ((lexCode (Token.render back)).map
          (Token.movedDown (Token.lineBreaks front))).map
            (Token.movedUp (Token.lineBreaks front)) := by
      rw [List.map_map, List.map_congr_left, List.map_id]
      exact fun token _ => token.movedUp_movedDown _
    _ = back.map (Token.movedUp (Token.lineBreaks front)) := by rw [below]

/-- A cut behind a comment, two lines below the begin. -/
theorem lexCode_split_comment :
    let front : List Token :=
      [.classified .string "<<<A\nx\nA" 1, .classified .whitespace " " 3,
        .classified .float ".5" 3, .classified .comment "//?" 3]
    let back : List Token :=
      [.classified .whitespace "\n" 3, .bare ">", .classified .whitespace " " 4,
        .classified .operator "++" 4]
    let source := "<<<A\nx\nA .5//?\n> ++"
    (∀ token ∈ lexCode source, token.kind? ≠ some .closeTag) ∧
      lexCode source = front ++ back ∧
      lexCode (Token.render front) = front ∧
      lexCode (Token.render back) = back.map (Token.movedUp 2) ∧
      (lexCode (Token.render back)).map (Token.movedDown 2) = back := by
  intro front back source
  have noClose : ∀ token ∈ lexCode source,
      token.kind? ≠ some .closeTag := by
    decide +kernel
  have split : lexCode source = front ++ back := by decide +kernel
  have lines : Token.lineBreaks front = 2 := by decide +kernel
  have cut := lexCode_split noClose split
  rw [lines] at cut
  exact ⟨noClose, split, cut⟩

end TokenMacros
