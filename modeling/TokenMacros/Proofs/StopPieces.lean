import TokenMacros.Proofs.StopLocality
import TokenMacros.Proofs.TemplateSegments

/-!
# The next piece in front of a stop

The piece that begins at some place of the code is read branch by branch of the
lexer: it is the same with any stop behind the text that it ends in.  A lone
slash is the exception, since it begins a comment with the stop, and so are
close tags and shifts, which look behind where they end.
-/

namespace TokenMacros

open Text (isBlank isDigit)

namespace Extent

variable {c : Char} {front back : List Char}

theorem lineBreak_behind_closeTag (c : Char) (long : 3 ≤ front.length)
    (back back' : List Char) :
    lineBreak ((c :: (front ++ back)).drop 2) =
      lineBreak ((c :: (front ++ back')).drop 2) := by
  have behind (back : List Char) :
      (c :: (front ++ back)).drop 2 = front.drop 1 ++ back := by
    rw [List.drop_succ_cons, List.drop_append_of_le_length]
    omega
  rw [behind, behind]
  apply lineBreak_append_of_long
  rw [List.length_drop]
  omega

/-- A closed block comment shows where it ends and whether it documents. -/
theorem blockComment_of_closed {d : Char}
    (fits : blockComment (c :: d :: (front ++ back)) ≤ front.length + 2)
    (goesOn : back ≠ []) (back' : List Char) :
    blockComment (c :: d :: (front ++ back')) =
        blockComment (c :: d :: (front ++ back)) ∧
      docMark (c :: d :: (front ++ back')) =
        docMark (c :: d :: (front ++ back)) := by
  have body : throughCommentEnd (front ++ back) ≤ front.length := by
    simp only [blockComment] at fits
    omega
  constructor
  · simp only [blockComment, throughCommentEnd_of_closed body goesOn]
  · exact docMark_of_closed c d body goesOn

end Extent

namespace Lexeme

variable {c : Char} {front : List Char}

theorem operatorOrBare_stop (c : Char) (front : List Char) {stop : Char}
    (stops : isStop stop = true) (more : List Char) :
    operatorOrBare (c :: (front ++ stop :: more)) =
      operatorOrBare (c :: front) := by
  have stopless : ∀ operator ∈ operators,
      ∀ m ∈ operator.tail, isStop m = false := by
    decide +kernel
  have same : operators.find? (beginsWith · (c :: (front ++ stop :: more))) =
      operators.find? (beginsWith · (c :: front)) := by
    apply List.find?_congr
    intro operator member
    exact beginsWith_cons_stop (stopless operator member) c front stops more
  rw [operatorOrBare, operatorOrBare, same]

section

variable {stop old : Char} (replaces : Replaces stop old)
  {more more' : List Char}

include replaces

/-- A stop that can stand in the place of another joins no more to what stands
before it, unless it makes a comment of a slash. -/
theorem Form.ofChars_replaces (c : Char)
    (slash : c = '/' → stop = '/' → old = '/') :
    ofChars c (some stop) = ofChars c (some old) := by
  rcases replaces.same with rfl | ⟨rfl, noPart⟩
  · rfl
  have noStart : isIdentifierStart stop = false := replaces.isIdentifierStart_eq
  have noDigit := isDigit_of_isStop replaces.stops
  have apart : ¬ Joins c stop := by
    intro joins
    cases joins with
    | closeTag => cases replaces.stops
    | hash => cases replaces.stops
    | lineComment => exact absurd (slash rfl rfl) (by decide)
    | blockComment => cases replaces.stops
    | dollar starts => exact Bool.false_ne_true (noStart.symm.trans starts)
    | point digit => exact Bool.false_ne_true (noDigit.symm.trans digit)
    | backslash starts => exact Bool.false_ne_true (noStart.symm.trans starts)
  have apartSpace : ¬ Joins c ' ' := by
    intro joins
    cases joins with
    | dollar starts => cases starts
    | point digit => cases digit
    | backslash starts => cases starts
  rw [ofChars_of_not_joins apart, ofChars_of_not_joins apartSpace]

theorem heredocOrOperator_replaces (more' : List Char)
    (fits : (heredocOrOperator (c :: (front ++ old :: more))).extent ≤
      (c :: front).length)
    (heredoc : beginsWith ['<', '<', '<'] (c :: front) = true →
      (heredocOrOperator (c :: (front ++ old :: more))).kind? = some .string) :
    heredocOrOperator (c :: (front ++ stop :: more')) =
      heredocOrOperator (c :: (front ++ old :: more)) := by
  have mark {stop : Char} (stops : isStop stop = true) (more : List Char) :
      beginsWith ['<', '<', '<'] (c :: (front ++ stop :: more)) =
        beginsWith ['<', '<', '<'] (c :: front) :=
    beginsWith_cons_stop (by decide) c front stops more
  unfold heredocOrOperator at fits heredoc ⊢
  rw [mark replaces.stops, operatorOrBare_stop c front replaces.stops]
  rw [mark replaces.oldStops, operatorOrBare_stop c front replaces.oldStops]
    at fits heredoc ⊢
  split
  · next here =>
      rw [if_pos here] at fits heredoc
      have long : 3 ≤ (c :: front).length :=
        (List.isPrefixOf_iff_prefix.mp here).length_le
      cases found : Extent.heredoc? (c :: (front ++ old :: more)) with
      | some extent =>
          rw [found] at fits
          have part : (stop :: more').head?.any isIdentifierPart = true →
              (old :: more).head?.any isIdentifierPart = true := by
            rw [List.head?_cons, Option.any_some, replaces.isIdentifierPart_eq]
            exact id
          have stays := @Extent.heredoc?_of_closed (c :: front) (old :: more)
            (stop :: more') extent long (List.cons_ne_nil _ _) part found fits
          rw [List.cons_append] at stays
          rw [stays]
      | none =>
          have isString := heredoc here
          rw [found] at isString
          rcases operatorOrBare_kind (c :: front) with kind | kind <;>
            simp [kind] at isString
  · rfl

/-- What is left to a form are the extents, and none of them depends on the stop
behind it.  A close tag is long enough to show the line break that it owns, and
what begins like a heredoc is one. -/
theorem Form.read_replaces (form : Form) (more' : List Char)
    (fits : (form.read c (front ++ old :: more)).extent ≤ (c :: front).length)
    (closed : (form.read c (front ++ old :: more)).kind? = some .closeTag →
      3 ≤ front.length)
    (heredoc : beginsWith ['<', '<', '<'] (c :: front) = true →
      (form.read c (front ++ old :: more)).kind? = some .string) :
    form.read c (front ++ stop :: more') =
      form.read c (front ++ old :: more) := by
  cases form with
  | closeTag =>
      rw [read, read, Extent.lineBreak_behind_closeTag c (closed rfl)]
  | blanks =>
      have ends : isBlank old = false → isBlank stop = false := by
        intro ends
        have notSpace : old ≠ ' ' := by
          rintro rfl
          cases ends
        rwa [replaces.eq_of_ne_space notSpace]
      have run := @takeWhile_of_ends isBlank (c :: front) more more' stop old
        ends fits
      rw [List.cons_append, List.cons_append] at run
      rw [read, read, Extent.blanks, Extent.blanks, run]
  | lineComment =>
      have run := @Extent.lineComment_replaces (c :: front) stop old replaces
        more more' fits
      rw [List.cons_append, List.cons_append] at run
      rw [read, read, run]
  | blockComment =>
      cases front with
      | nil =>
          have long : 2 ≤ 1 := Nat.le_trans (Nat.le_add_right 2 _) fits
          omega
      | cons d front =>
          obtain ⟨extent, isDoc⟩ := @Extent.blockComment_of_closed c front
            (old :: more) d fits (List.cons_ne_nil old more) (stop :: more')
          simp only [read, List.cons_append, extent, isDoc]
  | quoted =>
      simp only [read, Extent.quotedLiteral, List.length_cons] at fits ⊢
      rw [Extent.throughQuote_of_closed c (by omega) (List.cons_ne_nil old more)]
  | dollar =>
      simp only [read, List.length_cons] at fits ⊢
      have name : Extent.identifier (front ++ old :: more) ≤ front.length := by
        omega
      rw [Extent.identifier_replaces replaces name]
  | number =>
      have same {stop : Char} (stops : isStop stop = true) (more : List Char) :
          Extent.number (c :: (front ++ stop :: more)) =
            Extent.number (c :: front) :=
        Extent.number_stop (c :: front) stops more
      simp only [read, same replaces.stops, same replaces.oldStops]
  | word =>
      simp only [read, List.length_cons] at fits ⊢
      have name : Extent.identifier (front ++ old :: more) ≤ front.length := by
        omega
      rw [Extent.identifier_replaces replaces name, ← List.cons_append, ← List.cons_append,
        List.take_append_of_le_length fits, List.take_append_of_le_length fits]
  | other => exact heredocOrOperator_replaces replaces more' fits heredoc

/-- The stop behind a piece can be replaced, unless it would make a comment of a
slash. -/
theorem next_replaces
    (fits : (next c (front ++ old :: more)).extent ≤ (c :: front).length)
    (slash : c = '/' → front = [] → stop = '/' → old = '/')
    (closed : (next c (front ++ old :: more)).kind? = some .closeTag →
      3 ≤ front.length)
    (heredoc : beginsWith ['<', '<', '<'] (c :: front) = true →
      (next c (front ++ old :: more)).kind? = some .string) :
    next c (front ++ stop :: more') = next c (front ++ old :: more) := by
  have form : Form.ofChars c (front ++ stop :: more').head? =
      Form.ofChars c (front ++ old :: more).head? := by
    cases front with
    | nil =>
        exact Form.ofChars_replaces replaces c fun isSlash => slash isSlash rfl
    | cons d front => rfl
  rw [next_eq_read] at fits closed heredoc
  rw [next_eq_read, next_eq_read, form]
  exact Form.read_replaces replaces _ more' fits closed heredoc

end

theorem next_slash {stop : Char} (stops : isStop stop = true)
    (other : stop ≠ '/') (more : List Char) :
    next '/' (stop :: more) = ⟨none, 1⟩ := by
  have apart : ¬ Joins '/' stop := by
    intro joins
    cases joins with
    | lineComment => exact other rfl
    | blockComment => cases stops
  have form : Form.ofChars '/' (some stop) = .other :=
    Form.ofChars_of_not_joins apart
  have noHeredoc : beginsWith ['<', '<', '<'] ('/' :: stop :: more) = false :=
    rfl
  rw [next_eq_read, List.head?_cons, form, Form.read, heredocOrOperator,
    noHeredoc, if_neg Bool.false_ne_true]
  exact operatorOrBare_stop '/' [] stops more

theorem next_shift {c : Char} {rest : List Char}
    (begins : beginsWith ['<', '<', '<'] (c :: rest) = true) :
    (next c rest).kind? = some .string ∨
      next c rest = ⟨some .operator, 2⟩ := by
  obtain ⟨tail, shape⟩ := List.isPrefixOf_iff_prefix.mp begins
  obtain rfl : '<' = c := (List.cons.inj shape).1
  obtain rfl : '<' :: '<' :: tail = rest := (List.cons.inj shape).2
  have shift : operatorOrBare ('<' :: '<' :: '<' :: tail) =
      ⟨some .operator, 2⟩ := rfl
  rw [next_eq_read, ← shift]
  exact heredocOrOperator_kind ('<' :: '<' :: '<' :: tail)

end Lexeme

end TokenMacros
