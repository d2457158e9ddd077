import TokenMacros.Proofs.StopPieces

/-!
# White space and comments as pieces

White space is one piece up to what is none, and a comment in front of a space
is closed, so that it does not depend on what follows.
-/

namespace TokenMacros

open Text (isBlank)

theorem Extent.lineComment_ne_length (text more : List Char) :
    lineComment (text ++ ' ' :: more) ≠ text.length := by
  induction text with
  | nil =>
      have goesOn : beginsWith ['?', '>'] (' ' :: more) = false :=
        Text.beginsWith_cons_of_ne (by decide) _ _
      rw [List.nil_append, lineComment, goesOn, List.length_nil]
      simp
  | cons c text induction =>
      rw [List.cons_append, lineComment, List.length_cons]
      split
      · exact (Nat.succ_ne_zero _).symm
      · omega

namespace Lexeme

theorem next_blockComment (tail : List Char) :
    next '/' ('*' :: tail) =
      ⟨some (if Extent.docMark ('/' :: '*' :: tail) then .docComment
        else .comment), 2 + Extent.throughCommentEnd tail⟩ := rfl

theorem next_cases_of_isTrivia {c : Char} {rest : List Char}
    (trivia : (next c rest).kind?.any Kind.isTrivia = true) :
    (isBlank c = true ∧
        next c rest = ⟨some .whitespace, Extent.blanks (c :: rest)⟩) ∨
      next c rest = ⟨some .comment, Extent.lineComment (c :: rest)⟩ ∨
      ∃ tail, c = '/' ∧ rest = '*' :: tail := by
  rw [next_eq_read, Form.read_isTrivia] at trivia
  rw [next_eq_read]
  rcases Form.trivia_cases trivia with ⟨blank, form⟩ | ⟨_, form⟩ | block
  · rw [form]
    exact .inl ⟨blank, rfl⟩
  · rw [form]
    exact .inr (.inl rfl)
  · obtain ⟨⟨isSlash, star⟩, _⟩ := block
    obtain ⟨tail, shape⟩ := List.head?_eq_some_iff.mp star
    exact .inr (.inr ⟨tail, isSlash, shape⟩)

theorem isStop_of_isTrivia {c : Char} {rest : List Char}
    (trivia : (next c rest).kind?.any Kind.isTrivia = true) :
    isStop c = true := by
  rw [next_eq_read, Form.read_isTrivia] at trivia
  rw [isStop]
  rcases Form.trivia_cases trivia with
    ⟨blank, _⟩ | ⟨rfl | ⟨rfl, _⟩, _⟩ | ⟨⟨rfl, _⟩, _⟩
  · rw [blank]
    rfl
  · rfl
  · rfl
  · rfl

theorem isBlank_of_whitespace {c : Char} {rest : List Char}
    (whitespace : (next c rest).kind? = some .whitespace) :
    isBlank c = true := by
  have trivia : (next c rest).kind?.any Kind.isTrivia = true := by
    rw [whitespace]
    rfl
  rcases next_cases_of_isTrivia trivia with ⟨blank, _⟩ | comment | block
  · exact blank
  · rw [comment] at whitespace
    cases whitespace
  · obtain ⟨tail, rfl, rfl⟩ := block
    rw [next_blockComment] at whitespace
    split at whitespace <;> cases whitespace

theorem next_comment_of_closed {c : Char} {front more back : List Char}
    (trivia : (next c (front ++ ' ' :: more)).kind?.any Kind.isTrivia = true)
    (comment : (next c (front ++ ' ' :: more)).kind? ≠ some .whitespace)
    (ends : (next c (front ++ ' ' :: more)).extent = (c :: front).length) :
    next c (front ++ back) = next c (front ++ ' ' :: more) := by
  rcases next_cases_of_isTrivia trivia with ⟨_, blank⟩ | line | block
  · rw [blank] at comment
    exact absurd rfl comment
  · exfalso
    rw [line] at ends
    exact Extent.lineComment_ne_length (c :: front) more ends
  · obtain ⟨tail, rfl, shape⟩ := block
    cases front with
    | nil => cases shape
    | cons d front =>
        obtain ⟨rfl, _⟩ := List.cons.inj shape
        rw [List.cons_append, next_blockComment] at ends
        have closed : Extent.throughCommentEnd (front ++ ' ' :: more) ≤
            front.length := by
          simp only [List.length_cons] at ends
          omega
        have goesOn : ' ' :: more ≠ [] := List.cons_ne_nil _ _
        rw [List.cons_append, List.cons_append, next_blockComment,
          next_blockComment, Extent.throughCommentEnd_of_closed closed goesOn,
          Extent.docMark_of_closed '/' '*' closed goesOn]

end Lexeme

theorem Kind.isTemplate_of_isTrivia (kind : Kind)
    (trivia : kind.isTrivia = true) : kind.isTemplate = false := by
  cases kind with
  | openTag => cases trivia
  | inlineHtml => cases trivia
  | _ => rfl

theorem inMode_template_isTemplate (c : Char) (rest : List Char) :
    (Lexeme.inMode .template c rest).kind?.any Kind.isTemplate = true := by
  unfold Lexeme.inMode
  dsimp only
  split <;> rfl

/-! ## Rows that begin with trivia -/

theorem mode_of_isTrivia {mode : Mode} {text : List Char}
    {piece : Option Kind × List Char}
    {pieces : List (Option Kind × List Char)}
    (split : sourcePieces mode text = piece :: pieces)
    (trivia : piece.1.any Kind.isTrivia = true) : mode = .code := by
  cases mode with
  | code => rfl
  | template =>
      cases text with
      | nil =>
          rw [sourcePieces_nil] at split
          cases split
      | cons c rest =>
          rw [sourcePieces_cons] at split
          obtain ⟨rfl, _⟩ := List.cons.inj split
          obtain ⟨kind, isKind, isTrivia⟩ := (Option.any_eq_true _ _).mp trivia
          have template := inMode_template_isTemplate c rest
          dsimp only at isKind
          rw [isKind, Option.any_some, kind.isTemplate_of_isTrivia isTrivia]
            at template
          cases template

theorem blanks_of_sourcePieces {mode : Mode} {text : List Char}
    {blanks : List Char} {pieces : List (Option Kind × List Char)}
    (split : sourcePieces mode text = (some .whitespace, blanks) :: pieces) :
    mode = .code ∧ (∀ c ∈ blanks, isBlank c = true) ∧
      ∀ c ∈ (pieces.flatMap Prod.snd).head?, isBlank c = false := by
  obtain rfl := mode_of_isTrivia split rfl
  cases text with
  | nil =>
      rw [sourcePieces_nil] at split
      cases split
  | cons c rest =>
  rw [sourcePieces_cons] at split
  obtain ⟨here, rfl⟩ := List.cons.inj split
  obtain ⟨isBlanks, rfl⟩ := Prod.mk.inj here
  have piece := Lexeme.next_blank (Lexeme.isBlank_of_whitespace isBlanks) rest
  rw [Lexeme.inMode, piece, flatMap_sourcePieces, Extent.blanks]
  have parts := @List.takeWhile_append_dropWhile _ isBlank (c :: rest)
  have behind : (c :: rest).drop ((c :: rest).takeWhile isBlank).length =
      (c :: rest).dropWhile isBlank := by
    conv_lhs => arg 2; rw [← parts]
    exact List.drop_left
  rw [behind, take_length_takeWhile]
  refine ⟨rfl, fun _ member => List.mem_takeWhile_imp member, ?_⟩
  intro b isHead
  have notBlank := List.head?_dropWhile_not isBlank (c :: rest)
  rw [Option.mem_def.mp isHead] at notBlank
  exact notBlank

theorem sourcePieces_blanks {blanks text : List Char} (nonempty : blanks ≠ [])
    (blank : ∀ c ∈ blanks, isBlank c = true)
    (ends : ∀ c ∈ text.head?, isBlank c = false) :
    sourcePieces .code (blanks ++ text) =
      (some .whitespace, blanks) :: sourcePieces .code text := by
  obtain ⟨c, rest, rfl⟩ := List.exists_cons_of_ne_nil nonempty
  have noMore : text.takeWhile isBlank = [] := by
    cases text with
    | nil => rfl
    | cons b text =>
        rw [List.takeWhile_cons_of_neg]
        rw [ends b rfl]
        decide
  have run : (c :: (rest ++ text)).takeWhile isBlank = c :: rest := by
    rw [← List.cons_append, List.takeWhile_append_of_pos blank, noMore,
      List.append_nil]
  have space := Lexeme.next_blank (blank c List.mem_cons_self) (rest ++ text)
  rw [Extent.blanks, run] at space
  exact sourcePieces_of_extent (congrArg Lexeme.kind? space)
    (congrArg Lexeme.extent space)

theorem modeBehind_of_isTrivia {kind? : Option Kind}
    (trivia : kind?.any Kind.isTrivia = true) : modeBehind kind? = .code := by
  rw [modeBehind, if_neg]
  rintro (rfl | rfl) <;> cases trivia

/-- A comment in front of a space is a piece whatever follows it instead. -/
theorem sourcePieces_comment {mode : Mode} {kind? : Option Kind}
    {comment more : List Char} {pieces : List (Option Kind × List Char)}
    (trivia : kind?.any Kind.isTrivia = true)
    (notBlank : kind? ≠ some .whitespace)
    (split : sourcePieces mode (comment ++ ' ' :: more) =
      (kind?, comment) :: pieces) :
    (∀ c ∈ comment.head?, isStop c = true) ∧
      ∀ back, sourcePieces .code (comment ++ back) =
        (kind?, comment) :: sourcePieces .code back := by
  obtain rfl := mode_of_isTrivia split trivia
  obtain ⟨c, front, rfl, rfl, extent, _⟩ :=
    exists_of_sourcePieces_cons split (List.cons_ne_nil _ _)
  have closed (back : List Char) :
      Lexeme.inMode .code c (front ++ back) =
        Lexeme.inMode .code c (front ++ ' ' :: more) :=
    Lexeme.next_comment_of_closed trivia notBlank extent
  constructor
  · rintro _ ⟨⟩
    exact Lexeme.isStop_of_isTrivia trivia
  · intro back
    rw [← closed back] at extent
    have row := sourcePieces_of_extent (congrArg Lexeme.kind? (closed back))
      extent
    rwa [modeBehind_of_isTrivia trivia] at row

end TokenMacros
