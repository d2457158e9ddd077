import TokenMacros.Proofs.ExtentLocality
import TokenMacros.Source.Lexeme

/-!
# The forms of a piece of code

The first two characters of a code text tell in which form the piece that begins
there is read, and the form tells which kinds the piece can have.  Only how far
it reaches depends on the rest of the text.
-/

namespace TokenMacros

open Text (isBlank isDigit)

theorem beginsWith_two_head (a b c : Char) (rest : List Char) :
    beginsWith [a, b] (c :: rest) = (c == a && rest.head?.any (· == b)) := by
  cases rest with
  | nil =>
      rw [beginsWith_singleton, List.head?_nil, Option.any_none, Bool.and_false]
  | cons d rest =>
      rw [beginsWith_two, List.head?_cons, Option.any_some, BEq.comm (a := a),
        BEq.comm (a := b)]

namespace Lexeme

theorem operatorOrBare_kind (text : List Char) :
    (operatorOrBare text).kind? = some .operator ∨
      (operatorOrBare text).kind? = none := by
  unfold operatorOrBare
  split
  · exact .inl rfl
  · exact .inr rfl

theorem wordKind_cases (word : List Char) :
    wordKind word = .keyword ∨ wordKind word = .identifier := by
  unfold wordKind
  split
  · exact .inl rfl
  · exact .inr rfl

/-- The piece where nothing but a heredoc or an operator is left to try. -/
def heredocOrOperator (text : List Char) : Lexeme :=
  if beginsWith ['<', '<', '<'] text then
    match Extent.heredoc? text with
    | some extent => ⟨some .string, extent⟩
    | none => operatorOrBare text
  else operatorOrBare text

theorem heredocOrOperator_kind (text : List Char) :
    (heredocOrOperator text).kind? = some .string ∨
      heredocOrOperator text = operatorOrBare text := by
  unfold heredocOrOperator
  split
  · split
    · exact .inl rfl
    · exact .inr rfl
  · exact .inr rfl

/-- The forms of a piece of code, in the order in which they are tried. -/
inductive Form where
  | closeTag
  | blanks
  | lineComment
  | blockComment
  | quoted
  | dollar
  | number
  | word
  /-- A heredoc, an operator or a bare character. -/
  | other
  deriving Repr, DecidableEq

namespace Form

/-- The form that begins with the character `c`, told from the character behind
it. -/
def ofChars (c : Char) (second? : Option Char) : Form :=
  if c == '?' && second?.any (· == '>') then .closeTag
  else if isBlank c then .blanks
  else if c == '#' && !second?.any (· == '[') ||
      c == '/' && second?.any (· == '/') then .lineComment
  else if c == '/' && second?.any (· == '*') then .blockComment
  else if isQuote c then .quoted
  else if c == '$' && second?.any isIdentifierStart then .dollar
  else if isDigit c || c == '.' && second?.any isDigit then .number
  else if isIdentifierStart c ||
      c == '\\' && second?.any isIdentifierStart then .word
  else .other

/-- The piece in this form that begins with the character `c`, which `rest`
follows. -/
def read (c : Char) (rest : List Char) : Form → Lexeme
  | .closeTag => ⟨some .closeTag, 2 + Extent.lineBreak ((c :: rest).drop 2)⟩
  | .blanks => ⟨some .whitespace, Extent.blanks (c :: rest)⟩
  | .lineComment => ⟨some .comment, Extent.lineComment (c :: rest)⟩
  | .blockComment =>
    ⟨some (if Extent.docMark (c :: rest) then .docComment else .comment),
      Extent.blockComment (c :: rest)⟩
  | .quoted => ⟨some .string, Extent.quotedLiteral c (c :: rest)⟩
  | .dollar => ⟨some .variable, 1 + Extent.identifier rest⟩
  | .number =>
    let (extent, isFloat) := Extent.number (c :: rest)
    ⟨some (if isFloat then .float else .integer), extent⟩
  | .word =>
    let extent := 1 + Extent.identifier rest
    ⟨some (wordKind ((c :: rest).take extent)), extent⟩
  | .other => heredocOrOperator (c :: rest)

/-- The kinds that a piece in this form can have. -/
def kinds : Form → List (Option Kind)
  | .closeTag => [some .closeTag]
  | .blanks => [some .whitespace]
  | .lineComment => [some .comment]
  | .blockComment => [some .docComment, some .comment]
  | .quoted => [some .string]
  | .dollar => [some .variable]
  | .number => [some .float, some .integer]
  | .word => [some .keyword, some .identifier]
  | .other => [some .string, some .operator, none]

theorem read_kind_mem (form : Form) (c : Char) (rest : List Char) :
    (form.read c rest).kind? ∈ form.kinds := by
  cases form with
  | closeTag => exact List.mem_cons_self
  | blanks => exact List.mem_cons_self
  | lineComment => exact List.mem_cons_self
  | blockComment =>
      simp only [read]
      split
      · exact List.mem_cons_self
      · exact List.mem_cons_of_mem _ List.mem_cons_self
  | quoted => exact List.mem_cons_self
  | dollar => exact List.mem_cons_self
  | number =>
      simp only [read]
      split
      · exact List.mem_cons_self
      · exact List.mem_cons_of_mem _ List.mem_cons_self
  | word =>
      simp only [read]
      rcases wordKind_cases ((c :: rest).take (1 + Extent.identifier rest)) with
        word | word <;> rw [word]
      · exact List.mem_cons_self
      · exact List.mem_cons_of_mem _ List.mem_cons_self
  | other =>
      rw [read]
      rcases heredocOrOperator_kind (c :: rest) with heredoc | bare
      · rw [heredoc]
        exact List.mem_cons_self
      · rw [bare]
        rcases operatorOrBare_kind (c :: rest) with kind | kind <;> rw [kind]
        · exact List.mem_cons_of_mem _ List.mem_cons_self
        · exact List.mem_cons_of_mem _
            (List.mem_cons_of_mem _ List.mem_cons_self)

theorem read_kind {p : Option Kind → Prop} {form : Form}
    (all : ∀ kind? ∈ form.kinds, p kind?) (c : Char) (rest : List Char) :
    p (form.read c rest).kind? :=
  all _ (form.read_kind_mem c rest)

/-- White space and comments. -/
def isTrivia : Form → Bool
  | .blanks | .lineComment | .blockComment => true
  | _ => false

theorem read_isTrivia (form : Form) (c : Char) (rest : List Char) :
    (form.read c rest).kind?.any Kind.isTrivia = form.isTrivia := by
  apply @read_kind (fun kind? => kind?.any Kind.isTrivia = form.isTrivia)
  cases form <;> decide

theorem eq_closeTag_of_kind {form : Form} {c : Char} {rest : List Char}
    (closes : (form.read c rest).kind? = some .closeTag) : form = .closeTag := by
  revert closes
  apply @read_kind (fun kind? => kind? = some .closeTag → form = .closeTag)
  cases form <;> decide

theorem ofChars_eq_closeTag_iff {c : Char} {rest : List Char} :
    ofChars c rest.head? = .closeTag ↔
      beginsWith ['?', '>'] (c :: rest) = true := by
  rw [beginsWith_two_head, ofChars]
  split
  · next marked => exact iff_of_true rfl marked
  · next unmarked =>
      refine iff_of_false ?_ unmarked
      repeat' split
      all_goals exact Form.noConfusion

theorem ofChars_blank {c : Char} (blank : isBlank c = true)
    (second? : Option Char) : ofChars c second? = .blanks := by
  have notMark : (c == '?') = false := by
    rw [beq_eq_false_iff_ne]
    rintro rfl
    cases blank
  rw [ofChars, notMark, Bool.false_and, if_neg Bool.false_ne_true, if_pos blank]

theorem trivia_cases {c : Char} {second? : Option Char}
    (trivia : (ofChars c second?).isTrivia = true) :
    (isBlank c = true ∧ ofChars c second? = .blanks) ∨
      ((c = '#' ∨ c = '/' ∧ second? = some '/') ∧
        ofChars c second? = .lineComment) ∨
      (c = '/' ∧ second? = some '*') ∧ ofChars c second? = .blockComment := by
  revert trivia
  unfold ofChars
  split
  · exact Bool.noConfusion
  split
  · next blank => exact fun _ => .inl ⟨blank, rfl⟩
  split
  · next comment =>
      refine fun _ => .inr (.inl ⟨?_, rfl⟩)
      rcases Bool.or_eq_true_iff.mp comment with hash | slashes
      · exact .inl (beq_iff_eq.mp (Bool.and_eq_true_iff.mp hash).1)
      · exact .inr (by simpa [Option.any_eq_true] using slashes)
  split
  · next block =>
      exact fun _ =>
        .inr (.inr ⟨by simpa [Option.any_eq_true] using block, rfl⟩)
  repeat' split
  all_goals exact Bool.noConfusion

end Form

theorem next_eq_read (c : Char) (rest : List Char) :
    next c rest = (Form.ofChars c rest.head?).read c rest := by
  unfold next Form.ofChars
  simp only [beginsWith_two_head, apply_ite (Form.read c rest)]
  rfl

theorem next_blank {c : Char} (blank : isBlank c = true)
    (rest : List Char) :
    next c rest = ⟨some .whitespace, Extent.blanks (c :: rest)⟩ := by
  rw [next_eq_read, Form.ofChars_blank blank, Form.read]

/-! ## The second character -/

/-- Together the two characters begin a form or an operator that the first one
does not begin alone. -/
inductive Joins : Char → Char → Prop where
  | closeTag : Joins '?' '>'
  | hash : Joins '#' '['
  | lineComment : Joins '/' '/'
  | blockComment : Joins '/' '*'
  | dollar {d : Char} : isIdentifierStart d = true → Joins '$' d
  | point {d : Char} : isDigit d = true → Joins '.' d
  | backslash {d : Char} : isIdentifierStart d = true → Joins '\\' d

theorem Form.ofChars_of_not_joins {c d : Char} (apart : ¬ Joins c d) :
    ofChars c (some d) = ofChars c none := by
  have fails {mark : Char} {test : Bool} (joins : test = true → Joins mark d) :
      (c == mark && test) = false := by
    rw [Bool.eq_false_iff]
    intro both
    obtain ⟨isMark, holds⟩ := Bool.and_eq_true_iff.mp both
    obtain rfl := beq_iff_eq.mp isMark
    exact apart (joins holds)
  have closeTag : (c == '?' && d == '>') = false :=
    fails fun same => beq_iff_eq.mp same ▸ .closeTag
  have hash : (c == '#' && !d == '[') = (c == '#') := by
    have none : (c == '#' && d == '[') = false :=
      fails fun same => beq_iff_eq.mp same ▸ .hash
    cases isHash : c == '#' <;> simp_all
  have slashes : (c == '/' && d == '/') = false :=
    fails fun same => beq_iff_eq.mp same ▸ .lineComment
  have star : (c == '/' && d == '*') = false :=
    fails fun same => beq_iff_eq.mp same ▸ .blockComment
  have dollar : (c == '$' && isIdentifierStart d) = false := fails .dollar
  have point : (c == '.' && isDigit d) = false := fails .point
  have qualified : (c == '\\' && isIdentifierStart d) = false := fails .backslash
  simp only [ofChars, Option.any_some, Option.any_none, closeTag, hash,
    slashes, star, dollar, point, qualified, Bool.and_false, Bool.not_false,
    Bool.and_true]

/-- Characters that join are taken together. -/
theorem two_le_extent_of_joins {c d : Char} (joins : Joins c d)
    (rest : List Char) : 2 ≤ (next c (d :: rest)).extent := by
  cases joins with
  | closeTag => exact Nat.le_add_right 2 _
  | hash => exact Nat.le_refl 2
  | lineComment =>
      show 2 ≤ 1 + (1 + Extent.lineComment rest)
      omega
  | blockComment => exact Nat.le_add_right 2 _
  | @dollar d starts =>
      have named := @Extent.identifier_pos (d :: rest) starts
      rw [next_eq_read, List.head?_cons]
      show 2 ≤ (Form.read '$' (d :: rest)
        (if isIdentifierStart d then .dollar else .other)).extent
      rw [if_pos starts]
      show 2 ≤ 1 + Extent.identifier (d :: rest)
      omega
  | @point d digit =>
      rw [next_eq_read, List.head?_cons]
      show 2 ≤ (Form.read '.' (d :: rest)
        (if isDigit d then .number else .other)).extent
      rw [if_pos digit]
      exact Extent.two_le_number_of_point digit rest
  | @backslash d starts =>
      have named := @Extent.identifier_pos (d :: rest) starts
      rw [next_eq_read, List.head?_cons]
      show 2 ≤ (Form.read '\\' (d :: rest)
        (if isIdentifierStart d then .word else .other)).extent
      rw [if_pos starts]
      show 2 ≤ 1 + Extent.identifier (d :: rest)
      omega

/-- A piece of one character is in the form that the character begins alone. -/
theorem Form.ofChars_of_extent_le_one {c : Char} {rest : List Char}
    (single : (next c rest).extent ≤ 1) :
    ofChars c rest.head? = ofChars c none := by
  cases rest with
  | nil => rfl
  | cons d rest =>
      apply ofChars_of_not_joins
      intro joins
      exact absurd (two_le_extent_of_joins joins rest) (by omega)

end Lexeme

end TokenMacros
