import TokenMacros.Proofs.TriviaPieces

/-!
# Comments that lose spaces

A comment from which spaces are left out ends where it ended before, unless a
mark comes about in it.  None does if what is left of the comment is one comment
when nothing follows it.
-/

namespace TokenMacros

open Text (isBlank)

/-- The second text is the first one without some of its spaces. -/
inductive LosesSpaces : List Char → List Char → Prop where
  | nil : LosesSpaces [] []
  | keep {text shorter : List Char} (c : Char) :
      LosesSpaces text shorter → LosesSpaces (c :: text) (c :: shorter)
  | leaveOut {text shorter : List Char} :
      LosesSpaces text shorter → LosesSpaces (' ' :: text) shorter

namespace LosesSpaces

theorem head {c : Char} {text shorter : List Char} (notSpace : c ≠ ' ')
    (loses : LosesSpaces (c :: text) shorter) :
    ∃ rest, shorter = c :: rest ∧ LosesSpaces text rest := by
  cases loses with
  | keep _ later => exact ⟨_, rfl, later⟩
  | leaveOut later => exact absurd rfl notSpace

theorem ending {text last shorter : List Char} (spaceless : ' ' ∉ last)
    (loses : LosesSpaces (text ++ last) shorter) :
    ∃ rest, shorter = rest ++ last := by
  induction text generalizing shorter with
  | nil =>
      refine ⟨[], ?_⟩
      rw [List.nil_append] at loses ⊢
      induction last generalizing shorter with
      | nil =>
          cases loses
          rfl
      | cons c last induction =>
          rw [List.mem_cons, not_or] at spaceless
          obtain ⟨rest, rfl, later⟩ := loses.head (Ne.symm spaceless.1)
          rw [induction spaceless.2 later]
  | cons c text induction =>
      rw [List.cons_append] at loses
      cases loses with
      | keep _ later =>
          obtain ⟨rest, rfl⟩ := induction later
          exact ⟨c :: rest, rfl⟩
      | leaveOut later => exact induction later

end LosesSpaces

/-! ## Where comments end -/

namespace Extent

theorem lineComment_le_length (text : List Char) :
    lineComment text ≤ text.length := by
  induction text with
  | nil => exact Nat.le_refl 0
  | cons c text induction =>
      rw [lineComment, List.length_cons]
      split <;> omega

theorem lineComment_behind {text back : List Char}
    (ends : lineComment (text ++ back) = text.length) :
    lineComment back = 0 := by
  induction text with
  | nil => exact ends
  | cons c text induction =>
      rw [List.cons_append, lineComment, List.length_cons] at ends
      split at ends
      · cases ends
      · exact induction (by omega)

theorem beginsWith_closeTag_of_lineComment {back : List Char}
    (stops : lineComment back = 0) (c : Char) (text : List Char) :
    beginsWith ['?', '>'] (c :: (text ++ back)) =
      beginsWith ['?', '>'] (c :: text) := by
  cases text with
  | cons d text =>
      rw [List.cons_append, beginsWith_two, beginsWith_two]
  | nil =>
      cases back with
      | nil => rfl
      | cons b back =>
          have notClose : b ≠ '>' := by
            rintro rfl
            simp [lineComment, beginsWith, List.isPrefixOf] at stops
          rw [List.nil_append, beginsWith_two, beginsWith_singleton,
            beq_eq_false_iff_ne.mpr (Ne.symm notClose), Bool.and_false]

/-- A line comment ends in front of what ended another one. -/
theorem lineComment_in_front {text back : List Char}
    (whole : lineComment text = text.length) (stops : lineComment back = 0) :
    lineComment (text ++ back) = text.length := by
  induction text with
  | nil => exact stops
  | cons c text induction =>
      rw [lineComment, List.length_cons] at whole
      split at whole
      · cases whole
      · next goesOn =>
          rw [List.cons_append, lineComment,
            beginsWith_closeTag_of_lineComment stops, if_neg goesOn,
            induction (by omega), List.length_cons, Nat.add_comm]

theorem throughCommentEnd_ending {text back : List Char}
    (ends : throughCommentEnd (text ++ back) = text.length)
    (goesOn : back ≠ []) : ∃ front, text = front ++ ['*', '/'] := by
  induction text with
  | nil =>
      obtain ⟨b, back, rfl⟩ := List.exists_cons_of_ne_nil goesOn
      have positive := throughCommentEnd_pos b back
      rw [List.nil_append, List.length_nil] at ends
      omega
  | cons c text induction =>
      rw [List.cons_append, throughCommentEnd, List.length_cons] at ends
      split at ends
      · next marked =>
          obtain ⟨d, rfl⟩ : ∃ d, text = [d] :=
            List.length_eq_one_iff.mp (by omega)
          rw [List.singleton_append, beginsWith_two, Bool.and_eq_true,
            beq_iff_eq, beq_iff_eq] at marked
          obtain ⟨rfl, rfl⟩ := marked
          exact ⟨[], rfl⟩
      · obtain ⟨front, rfl⟩ := induction (by omega)
        exact ⟨c :: front, rfl⟩

theorem throughCommentEnd_le_length (text : List Char) :
    throughCommentEnd text ≤ text.length := by
  induction text with
  | nil => exact Nat.le_refl 0
  | cons c text induction =>
      rw [throughCommentEnd]
      split
      · next marked =>
          exact (List.isPrefixOf_iff_prefix.mp marked).length_le
      · rw [List.length_cons]
        omega

theorem throughCommentEnd_le_of_closed (text back : List Char) :
    throughCommentEnd (text ++ ['*', '/'] ++ back) ≤
      (text ++ ['*', '/']).length := by
  induction text with
  | nil => exact Nat.le_refl 2
  | cons c text induction =>
      rw [List.cons_append, List.cons_append, throughCommentEnd,
        List.length_cons]
      split
      · rw [List.length_append]
        exact Nat.le_add_left 2 _
      · omega

end Extent

namespace Lexeme

theorem next_hash {rest : List Char}
    (trivia : (next '#' rest).kind?.any Kind.isTrivia = true) :
    next '#' rest = ⟨some .comment, Extent.lineComment ('#' :: rest)⟩ := by
  rcases next_cases_of_isTrivia trivia with ⟨blank, _⟩ | line | ⟨_, slash, _⟩
  · cases blank
  · exact line
  · cases slash

theorem extent_le_of_isTrivia {c : Char} {rest : List Char}
    (trivia : (next c rest).kind?.any Kind.isTrivia = true) :
    (next c rest).extent ≤ (c :: rest).length := by
  rcases next_cases_of_isTrivia trivia with
    ⟨_, blanks⟩ | line | ⟨tail, rfl, rfl⟩
  · rw [blanks]
    exact (List.takeWhile_prefix isBlank).length_le
  · rw [line]
    exact Extent.lineComment_le_length (c :: rest)
  · have inside := Extent.throughCommentEnd_le_length tail
    rw [next_blockComment]
    simp only [List.length_cons]
    omega

theorem mark_of_comment {c : Char} {front back : List Char}
    (trivia : (next c (front ++ back)).kind?.any Kind.isTrivia = true)
    (comment : (next c (front ++ back)).kind? ≠ some .whitespace)
    (ends : (next c (front ++ back)).extent = (c :: front).length) :
    c = '#' ∨ c = '/' ∧
      ((∃ body, front = '/' :: body) ∨ ∃ body, front = '*' :: body) := by
  have looks := looksTrivial_take_next c (front ++ back)
  rw [next_isTrivia] at trivia
  rw [ends, ← List.cons_append, List.take_left, List.cons_append, trivia]
    at looks
  rw [looksTrivial_cons] at looks
  rcases Form.trivia_cases looks with
    ⟨blank, _⟩ | ⟨hash | ⟨isSlash, slash⟩, _⟩ | ⟨⟨isSlash, star⟩, _⟩
  · rw [next_blank blank] at comment
    exact absurd rfl comment
  · exact .inl hash
  · exact .inr ⟨isSlash, .inl (List.head?_eq_some_iff.mp slash)⟩
  · exact .inr ⟨isSlash, .inr (List.head?_eq_some_iff.mp star)⟩

theorem next_hash_in_front {front back : List Char}
    (trivia : (next '#' front).kind?.any Kind.isTrivia = true)
    (stops : Extent.lineComment back = 0) :
    (next '#' (front ++ back)).kind?.any Kind.isTrivia = true := by
  rw [next_isTrivia] at trivia ⊢
  cases front with
  | cons d front => exact trivia
  | nil =>
      cases back with
      | nil => exact trivia
      | cons b back =>
          have notAttribute : b ≠ '[' := by
            rintro rfl
            simp [Extent.lineComment, beginsWith, List.isPrefixOf] at stops
          simp [looksTrivial, notAttribute]

/-- What is left of a comment without spaces ends where the comment ended, if
it is a comment by itself. -/
theorem next_shortened {c : Char} {front shorter back : List Char}
    (trivia : (next c (front ++ back)).kind?.any Kind.isTrivia = true)
    (comment : (next c (front ++ back)).kind? ≠ some .whitespace)
    (ends : (next c (front ++ back)).extent = (c :: front).length)
    (loses : LosesSpaces front shorter)
    (alone : (next c shorter).kind?.any Kind.isTrivia = true)
    (whole : (c :: shorter).length ≤ (next c shorter).extent) :
    (next c (shorter ++ back)).kind?.any Kind.isTrivia = true ∧
      (next c (shorter ++ back)).extent = (c :: shorter).length := by
  have line
      (ends : Extent.lineComment (c :: front ++ back) = (c :: front).length)
      (whole : (c :: shorter).length ≤ Extent.lineComment (c :: shorter)) :
      Extent.lineComment back = 0 ∧
        Extent.lineComment (c :: shorter ++ back) = (c :: shorter).length := by
    have stops := Extent.lineComment_behind ends
    have full := Nat.le_antisymm (Extent.lineComment_le_length _) whole
    exact ⟨stops, Extent.lineComment_in_front full stops⟩
  rcases mark_of_comment trivia comment ends with
    rfl | ⟨rfl, ⟨body, rfl⟩ | ⟨body, rfl⟩⟩
  · rw [next_hash trivia] at ends
    rw [next_hash alone] at whole
    obtain ⟨stops, extent⟩ := line ends whole
    have hash := next_hash_in_front alone stops
    refine ⟨hash, ?_⟩
    rw [next_hash hash]
    exact extent
  · obtain ⟨rest, rfl, later⟩ := loses.head (by decide)
    exact ⟨rfl, (line ends whole).2⟩
  · obtain ⟨rest, rfl, later⟩ := loses.head (by decide)
    rw [List.cons_append, next_blockComment] at ends
    rw [next_blockComment] at whole
    rw [List.cons_append, next_blockComment]
    simp only [List.length_cons] at ends whole ⊢
    constructor
    · split <;> rfl
    · cases back with
      | nil =>
          have inside := Extent.throughCommentEnd_le_length rest
          rw [List.append_nil]
          omega
      | cons b back =>
          have ends' : Extent.throughCommentEnd (body ++ b :: back) =
              body.length := by
            omega
          obtain ⟨inner, rfl⟩ :=
            Extent.throughCommentEnd_ending ends' (List.cons_ne_nil b back)
          obtain ⟨inner', rfl⟩ := later.ending (by decide)
          have closed :=
            Extent.throughCommentEnd_le_of_closed inner' (b :: back)
          have same := Extent.throughCommentEnd_append closed
          have inside :=
            Extent.throughCommentEnd_le_length (inner' ++ ['*', '/'])
          omega

end Lexeme

/-! ## Comments as pieces -/

theorem next_of_lexCode {c : Char} {rest : List Char}
    (alone : (lexCode (String.ofList (c :: rest))).map Token.isTrivia =
      [true]) :
    (Lexeme.next c rest).kind?.any Kind.isTrivia = true ∧
      (c :: rest).length ≤ (Lexeme.next c rest).extent := by
  obtain ⟨token, single, trivia⟩ := List.map_eq_singleton_iff.mp alone
  obtain ⟨behind, split, _⟩ := lexCode_pieces (String.ofList (c :: rest))
  rw [single, String.toList_ofList, codePieces_cons, List.map_singleton,
    List.cons_append] at split
  obtain ⟨piece, _⟩ := List.cons.inj split
  obtain ⟨isKind, isText⟩ := Prod.mk.inj piece
  constructor
  · rwa [Token.isTrivia_eq, isKind] at trivia
  · have spelled := congrArg String.toList
      (render_lex .code (String.ofList (c :: rest)))
    rw [← lexCode, single, ← flatMap_piece, List.map_singleton,
      List.flatMap_singleton, String.toList_ofList, Token.piece, isText]
      at spelled
    exact List.take_eq_self_iff _ |>.mp spelled

/-- A comment that loses spaces is still a piece if it is one by itself. -/
theorem sourcePieces_shortened {mode : Mode} {kind? : Option Kind}
    {comment shorter back : List Char} {pieces : List (Option Kind × List Char)}
    (trivia : kind?.any Kind.isTrivia = true)
    (notBlank : kind? ≠ some .whitespace)
    (split : sourcePieces mode (comment ++ back) = (kind?, comment) :: pieces)
    (loses : LosesSpaces comment shorter)
    (alone : (lexCode (String.ofList shorter)).map Token.isTrivia = [true]) :
    ∃ c front rest shortKind?, comment = c :: front ∧ shorter = c :: rest ∧
      isStop c = true ∧ shortKind?.any Kind.isTrivia = true ∧
        sourcePieces .code (shorter ++ back) =
          (shortKind?, shorter) :: pieces := by
  have nonempty : comment ≠ [] := by
    apply @sourcePieces_text_ne_nil mode _ (kind?, comment)
    rw [split]
    exact List.mem_cons_self
  obtain rfl := mode_of_isTrivia split trivia
  obtain ⟨c, front, rfl⟩ := List.exists_cons_of_ne_nil nonempty
  rw [List.cons_append, sourcePieces_cons, Lexeme.inMode] at split
  obtain ⟨piece, behind⟩ := List.cons.inj split
  obtain ⟨isKind, isText⟩ := Prod.mk.inj piece
  rw [← isKind] at trivia notBlank
  have extent : (Lexeme.next c (front ++ back)).extent =
      (c :: front).length := by
    have inside := Lexeme.extent_le_of_isTrivia trivia
    have length := congrArg List.length isText
    rw [List.length_take, Nat.min_eq_left inside] at length
    exact length
  have notSpace : c ≠ ' ' := by
    rintro rfl
    rw [Lexeme.next_blank rfl] at notBlank
    exact notBlank rfl
  obtain ⟨rest, rfl, later⟩ := loses.head notSpace
  obtain ⟨aloneTrivia, whole⟩ := next_of_lexCode alone
  obtain ⟨shortTrivia, shortExtent⟩ :=
    Lexeme.next_shortened trivia notBlank extent later aloneTrivia whole
  refine ⟨c, front, rest, (Lexeme.next c (rest ++ back)).kind?, rfl, rfl,
    Lexeme.isStop_of_isTrivia trivia, shortTrivia, ?_⟩
  rw [extent, ← List.cons_append, List.drop_left,
    modeBehind_of_isTrivia trivia] at behind
  have row := @sourcePieces_of_extent .code _ c rest back rfl shortExtent
  rw [Lexeme.inMode, modeBehind_of_isTrivia shortTrivia, behind] at row
  exact row

end TokenMacros
