import TokenMacros.Proofs.ExtentLocality

/-!
# Heredocs that end within a text

The begin line of a heredoc is closed by its line break, and the body by a label
behind which no name goes on.  So a heredoc that ends in a text is the same
whatever follows the text, as long as no name goes on there.
-/

namespace TokenMacros

namespace Extent

variable {text back back' : List Char} {label : List Char}

theorem isIdentifierPart_of_mem_label {header : Nat}
    (found : heredocHeader? text = some (label, header)) :
    ∀ c ∈ label, isIdentifierPart c = true := by
  simp only [heredocHeader?, Option.ite_none_right_eq_some] at found
  obtain ⟨rfl, _⟩ := Prod.mk.inj (Option.some.inj found.2)
  intro c member
  exact List.mem_takeWhile_imp member

theorem label_ne_nil {header : Nat}
    (found : heredocHeader? text = some (label, header)) : label ≠ [] := by
  simp only [heredocHeader?, Option.ite_none_right_eq_some,
    Bool.and_eq_true] at found
  obtain ⟨⟨⟨starts, _⟩, _⟩, same⟩ := found
  obtain ⟨rfl, _⟩ := Prod.mk.inj (Option.some.inj same)
  intro empty
  rw [empty] at starts
  cases starts

theorem takeWhile_append_of_lt {p : Char → Bool}
    (inside : ((text ++ back).takeWhile p).length < text.length) :
    (text ++ back').takeWhile p = (text ++ back).takeWhile p := by
  have within := takeWhile_append_of_le (Nat.le_of_lt inside)
  rw [within] at inside ⊢
  rw [List.takeWhile_append, if_neg (Nat.ne_of_lt inside)]

theorem isPrefixOf_append_of_le {mark : List Char}
    (fits : mark.length ≤ text.length) :
    mark.isPrefixOf (text ++ back) = mark.isPrefixOf text := by
  rw [Bool.eq_iff_iff, List.isPrefixOf_iff_prefix, List.isPrefixOf_iff_prefix]
  constructor
  · intro begins
    exact List.prefix_of_prefix_length_le begins (List.prefix_append _ _) fits
  · intro begins
    exact begins.trans (List.prefix_append _ _)

theorem lineBreak_append_of_long (long : 2 ≤ text.length) :
    lineBreak (text ++ back) = lineBreak (text ++ back') := by
  match text with
  | c :: d :: text => exact lineBreak_cons_cons c d _ _

theorem lineBreak_of_closed (some : lineBreak (text ++ back) ≠ 0)
    (fits : lineBreak (text ++ back) ≤ text.length) :
    lineBreak (text ++ back') = lineBreak (text ++ back) := by
  match text with
  | [] =>
      rw [List.length_nil] at fits
      exact absurd (Nat.le_zero.mp fits) some
  | [c] =>
      rw [List.singleton_append] at some fits ⊢
      rw [List.length_singleton] at fits
      -- a break of one character is a newline
      unfold lineBreak at some fits
      split at fits
      · exact absurd fits (by decide)
      · next shape =>
          obtain ⟨rfl, rfl⟩ := List.cons.inj shape
          rfl
      · next shape => simp_all
  | c :: d :: text => exact lineBreak_cons_cons c d _ _

/-- The begin line of a heredoc ends with its line break, whatever follows. -/
theorem heredocHeader?_of_closed {header : Nat}
    (found : heredocHeader? (text ++ back) = some (label, header))
    (fits : header ≤ text.length) :
    heredocHeader? (text ++ back') = some (label, header) := by
  rw [← found]
  simp only [heredocHeader?, Option.ite_none_right_eq_some,
    Bool.and_eq_true, bne_iff_ne] at found
  obtain ⟨⟨_, breaks⟩, same⟩ := found
  obtain ⟨rfl, rfl⟩ := Prod.mk.inj (Option.some.inj same)
  -- each part of the line ends in front of the break, which is in the text
  simp only [heredocHeader?]
  clear same
  rw [@takeWhile_append_of_lt text back back' isIndent (by omega)]
  generalize ((text ++ back).takeWhile isIndent).length = indented at *
  have short : indented ≤ text.length := by omega
  have length : (text.drop indented).length = text.length - indented :=
    List.length_drop
  rw [@List.drop_append_of_le_length _ _ back _ short] at *
  rw [@List.drop_append_of_le_length _ _ back' _ short]
  generalize text.drop indented = named at *
  have some : 1 ≤ named.length := by omega
  rw [@List.take_append_of_le_length _ _ back _ some] at *
  rw [@List.take_append_of_le_length _ _ back' _ some]
  generalize (named.take 1).filter _ = quote at *
  have shortQuote : quote.length ≤ named.length := by omega
  have lengthQuote : (named.drop quote.length).length =
      named.length - quote.length := List.length_drop
  rw [@List.drop_append_of_le_length _ _ back _ shortQuote] at *
  rw [@List.drop_append_of_le_length _ _ back' _ shortQuote]
  generalize named.drop quote.length = labelled at *
  rw [@takeWhile_append_of_lt labelled back back' isIdentifierPart (by omega)]
  generalize (labelled ++ back).takeWhile isIdentifierPart = label at *
  have shortLabel : label.length ≤ labelled.length := by omega
  have lengthLabel : (labelled.drop label.length).length =
      labelled.length - label.length := List.length_drop
  rw [@List.drop_append_of_le_length _ _ back _ shortLabel] at *
  rw [@List.drop_append_of_le_length _ _ back' _ shortLabel]
  generalize labelled.drop label.length = closed at *
  have shortClose : quote.length ≤ closed.length := by omega
  have lengthClose : (closed.drop quote.length).length =
      closed.length - quote.length := List.length_drop
  rw [@List.drop_append_of_le_length _ _ back _ shortClose] at *
  rw [@List.drop_append_of_le_length _ _ back' _ shortClose]
  generalize closed.drop quote.length = line at *
  rw [@lineBreak_of_closed line back back' breaks (by omega)]
  rw [@isPrefixOf_append_of_le closed back _ shortClose,
    @isPrefixOf_append_of_le closed back' _ shortClose]

/-- A closing label that ends in the text shows there.  If it ends with the
text, it is decided by what follows that no name goes on. -/
theorem closingLabel?_of_closed {extent : Nat} (nonempty : label ≠ [])
    (part : extent = text.length →
      back'.head?.any isIdentifierPart = true →
        back.head?.any isIdentifierPart = true)
    (found : closingLabel? label (text ++ back) = some extent)
    (fits : extent ≤ text.length) :
    closingLabel? label (text ++ back') = some extent := by
  have length := List.length_pos_iff.mpr nonempty
  simp only [closingLabel?, Option.ite_none_right_eq_some] at found
  obtain ⟨closes, same⟩ := found
  obtain rfl := Option.some.inj same
  simp only [closingLabel?]
  clear same
  rw [@takeWhile_append_of_lt text back back' isIndent (by omega)]
  generalize ((text ++ back).takeWhile isIndent).length = indented at *
  have short : indented ≤ text.length := by omega
  have lengthNamed : (text.drop indented).length = text.length - indented :=
    List.length_drop
  rw [@List.drop_append_of_le_length _ _ back _ short] at closes
  rw [@List.drop_append_of_le_length _ _ back' _ short]
  generalize text.drop indented = named at *
  have shortLabel : label.length ≤ named.length := by omega
  rw [@isPrefixOf_append_of_le named back _ shortLabel,
    @List.drop_append_of_le_length _ _ back _ shortLabel] at closes
  rw [@isPrefixOf_append_of_le named back' _ shortLabel,
    @List.drop_append_of_le_length _ _ back' _ shortLabel, if_pos]
  rw [Bool.and_eq_true, Bool.not_eq_true'] at closes ⊢
  refine ⟨closes.1, ?_⟩
  cases behind : named.drop label.length with
  | cons c rest =>
      rw [behind] at closes
      exact closes.2
  | nil =>
      rw [behind, List.nil_append] at closes
      have last : indented + label.length = text.length := by
        have all := List.drop_eq_nil_iff.mp behind
        omega
      rw [List.nil_append, ← Bool.not_eq_true]
      intro goesOn
      rw [part last goesOn] at closes
      cases closes.2

/-- A closing label that does not end in the text stands on the line that the
text begins. -/
theorem newline_not_mem_of_closingLabel? {extent : Nat}
    (named : ∀ c ∈ label, isIdentifierPart c = true)
    (found : closingLabel? label (text ++ back) = some extent)
    (beyond : text.length ≤ extent) : '\n' ∉ text := by
  obtain ⟨indent, afterIndent, cut, indented, taken⟩ :=
    exists_takeWhile isIndent (text ++ back)
  simp only [closingLabel?, taken, Option.ite_none_right_eq_some,
    Bool.and_eq_true, List.isPrefixOf_iff_prefix] at found
  obtain ⟨⟨⟨behind, labelled⟩, _⟩, same⟩ := found
  obtain rfl := Option.some.inj same
  rw [cut, List.drop_left] at labelled
  have line : indent ++ label <+: text ++ back := by
    refine ⟨behind, ?_⟩
    rw [List.append_assoc, labelled, cut]
  have inLine : text <+: indent ++ label := by
    apply List.prefix_of_prefix_length_le (List.prefix_append text back) line
    rwa [List.length_append]
  intro newline
  rcases List.mem_append.mp (inLine.subset newline) with inIndent | inLabel
  · exact absurd (indented _ inIndent) (by decide)
  · exact absurd (named _ inLabel) (by decide)

theorem closingLabel?_eq_none_of_newline (nonempty : label ≠ [])
    (named : ∀ c ∈ label, isIdentifierPart c = true) (newline : '\n' ∈ text)
    (none : closingLabel? label (text ++ back) = none) :
    closingLabel? label (text ++ back') = Option.none := by
  cases found : closingLabel? label (text ++ back') with
  | none => rfl
  | some extent =>
      exfalso
      have inside : extent < text.length := by
        apply Nat.lt_of_not_le
        intro beyond
        exact newline_not_mem_of_closingLabel? named found beyond newline
      have stood : closingLabel? label (text ++ back) = some extent :=
        closingLabel?_of_closed nonempty
          (fun last => absurd last (Nat.ne_of_lt inside)) found
          (Nat.le_of_lt inside)
      rw [stood] at none
      cases none

theorem heredocBody_cons (label : List Char) (atLineStart : Bool) (c : Char)
    (rest : List Char) :
    heredocBody label atLineStart (c :: rest) =
      (if atLineStart then closingLabel? label (c :: rest) else none).getD
        (1 + heredocBody label (c == '\n') rest) := by
  rw [heredocBody]
  split
  · next found => rw [found, Option.getD_some]
  · next found => rw [found, Option.getD_none]

/-- A body that ends in the text ends with a closing label at its front, or with
one on a later line. -/
theorem exists_closingLabel?_or_newline_mem {atLineStart : Bool}
    (goesOn : back ≠ [])
    (fits : heredocBody label atLineStart (text ++ back) ≤ text.length) :
    (∃ extent ≤ text.length, atLineStart = true ∧
      closingLabel? label (text ++ back) = some extent) ∨ '\n' ∈ text := by
  induction text generalizing atLineStart with
  | nil =>
      obtain ⟨b, back, rfl⟩ := List.exists_cons_of_ne_nil goesOn
      rw [List.nil_append, heredocBody_cons] at fits
      cases closes : (if atLineStart then closingLabel? label (b :: back)
          else none) with
      | some extent =>
          rw [closes, Option.getD_some] at fits
          exact .inl ⟨extent, fits, Option.ite_none_right_eq_some.mp closes⟩
      | none =>
          rw [closes, Option.getD_none, List.length_nil] at fits
          omega
  | cons c text induction =>
      rw [List.cons_append, heredocBody_cons] at fits
      cases closes : (if atLineStart then
          closingLabel? label (c :: (text ++ back)) else none) with
      | some extent =>
          rw [closes, Option.getD_some] at fits
          exact .inl ⟨extent, fits, Option.ite_none_right_eq_some.mp closes⟩
      | none =>
          rw [closes, Option.getD_none, List.length_cons] at fits
          have later : heredocBody label (c == '\n') (text ++ back) ≤
              text.length := by
            omega
          rcases induction later with ⟨_, _, newline, _⟩ | inText
          · rw [beq_iff_eq.mp newline]
            exact .inr List.mem_cons_self
          · exact .inr (List.mem_cons_of_mem c inText)

theorem closingLabel?_pos {extent : Nat} (nonempty : label ≠ [])
    (found : closingLabel? label text = some extent) : 0 < extent := by
  have length := List.length_pos_iff.mpr nonempty
  simp only [closingLabel?, Option.ite_none_right_eq_some,
    Option.some.injEq] at found
  omega

theorem heredocBody_of_closed (nonempty : label ≠ [])
    (named : ∀ c ∈ label, isIdentifierPart c = true) (goesOn : back ≠ [])
    (part : back'.head?.any isIdentifierPart = true →
      back.head?.any isIdentifierPart = true)
    {atLineStart : Bool}
    (fits : heredocBody label atLineStart (text ++ back) ≤ text.length) :
    heredocBody label atLineStart (text ++ back') =
      heredocBody label atLineStart (text ++ back) := by
  induction text generalizing atLineStart with
  | nil =>
      obtain ⟨b, back, rfl⟩ := List.exists_cons_of_ne_nil goesOn
      rw [List.nil_append, heredocBody_cons, List.length_nil] at fits
      cases closes : (if atLineStart then closingLabel? label (b :: back)
          else none) with
      | some extent =>
          have found := (Option.ite_none_right_eq_some.mp closes).2
          have positive := closingLabel?_pos nonempty found
          rw [closes, Option.getD_some] at fits
          omega
      | none =>
          rw [closes, Option.getD_none] at fits
          omega
  | cons c text induction =>
      rw [List.cons_append, heredocBody_cons] at fits ⊢
      rw [List.cons_append, heredocBody_cons]
      cases closes : (if atLineStart then
          closingLabel? label (c :: (text ++ back)) else none) with
      | some extent =>
          rw [closes, Option.getD_some] at fits
          obtain ⟨atStart, found⟩ := Option.ite_none_right_eq_some.mp closes
          have stays : closingLabel? label (c :: (text ++ back')) =
              some extent :=
            @closingLabel?_of_closed (c :: text) back back' label extent
              nonempty (fun _ => part) found fits
          rw [if_pos atStart, stays]
          rfl
      | none =>
          rw [closes, Option.getD_none, List.length_cons] at fits
          have later : heredocBody label (c == '\n') (text ++ back) ≤
              text.length := by
            omega
          have newline : '\n' ∈ c :: text := by
            rcases exists_closingLabel?_or_newline_mem goesOn later with
              ⟨_, _, newline, _⟩ | inText
            · rw [beq_iff_eq.mp newline]
              exact List.mem_cons_self
            · exact List.mem_cons_of_mem c inText
          have stays : (if atLineStart then
              closingLabel? label (c :: (text ++ back')) else none) = none := by
            cases atLineStart with
            | false => rfl
            | true =>
                exact @closingLabel?_eq_none_of_newline (c :: text) back back'
                  label nonempty named newline closes
          rw [stays, Option.getD_none, Option.getD_none, induction later]

theorem heredoc?_of_closed {extent : Nat} (long : 3 ≤ text.length)
    (goesOn : back ≠ [])
    (part : back'.head?.any isIdentifierPart = true →
      back.head?.any isIdentifierPart = true)
    (found : heredoc? (text ++ back) = some extent)
    (fits : extent ≤ text.length) :
    heredoc? (text ++ back') = some extent := by
  rw [heredoc?, Option.map_eq_some_iff] at found ⊢
  obtain ⟨⟨label, header⟩, headed, same⟩ := found
  dsimp only at same
  have cut (back : List Char) {count : Nat} (short : count ≤ text.length) :
      (text ++ back).drop count = text.drop count ++ back :=
    List.drop_append_of_le_length short
  have short : 3 + header ≤ text.length := by omega
  have headerInside : header ≤ (text.drop 3).length := by
    rw [List.length_drop]
    omega
  have nonempty := label_ne_nil headed
  have named := isIdentifierPart_of_mem_label headed
  rw [cut _ long] at headed
  rw [cut _ short] at same
  refine ⟨(label, header), ?_, ?_⟩
  · rw [cut _ long]
    exact heredocHeader?_of_closed headed headerInside
  · dsimp only
    rw [← same, cut _ short, heredocBody_of_closed nonempty named goesOn part]
    rw [List.length_drop]
    omega

theorem lineBreak_le_length (text : List Char) :
    lineBreak text ≤ text.length := by
  unfold lineBreak
  split <;> simp

theorem add_lineBreak_le_length {count : Nat}
    (breaks : lineBreak (text.drop count) ≠ 0) :
    count + lineBreak (text.drop count) ≤ text.length := by
  have inside := lineBreak_le_length (text.drop count)
  rw [List.length_drop] at inside
  omega

theorem header_le_length {header : Nat}
    (found : heredocHeader? text = some (label, header)) :
    header ≤ text.length := by
  simp only [heredocHeader?, List.drop_drop, Option.ite_none_right_eq_some,
    Bool.and_eq_true, bne_iff_ne] at found
  obtain ⟨⟨_, breaks⟩, same⟩ := found
  obtain ⟨_, rfl⟩ := Prod.mk.inj (Option.some.inj same)
  exact add_lineBreak_le_length breaks

/-- A heredoc that ends in the text is the same without what follows, and none
comes about without it. -/
theorem heredoc?_append (long : 3 ≤ text.length)
    (fits : ∀ extent, heredoc? (text ++ back) = some extent →
      extent ≤ text.length) :
    heredoc? (text ++ back) = heredoc? text := by
  cases back with
  | nil => rw [List.append_nil]
  | cons b back =>
      cases found : heredoc? (text ++ b :: back) with
      | some extent =>
          have closed : heredoc? (text ++ []) = some extent :=
            heredoc?_of_closed long (List.cons_ne_nil b back) (by simp) found
              (fits extent found)
          rw [← closed, List.append_nil]
      | none =>
          have noHeader : heredocHeader? (text.drop 3 ++ b :: back) = none := by
            simpa [heredoc?, List.drop_append_of_le_length long] using found
          cases header : heredocHeader? (text.drop 3) with
          | none => simp [heredoc?, header]
          | some found =>
              obtain ⟨label, extent⟩ := found
              have stays : heredocHeader? (text.drop 3 ++ b :: back) =
                  some (label, extent) := by
                apply heredocHeader?_of_closed _ (header_le_length header)
                · exact []
                · rwa [List.append_nil]
              rw [noHeader] at stays
              cases stays

end Extent

end TokenMacros
