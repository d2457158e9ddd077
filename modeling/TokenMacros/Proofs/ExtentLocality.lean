import Mathlib.Data.List.TakeWhile
import TokenMacros.Rule.Chunk
import TokenMacros.Source.Extent
import TokenMacros.Source.Heredoc

/-!
# Extents that end within a text

A stretch of code that begins in a text and ends in it is as long whether
something follows the text or not.  Only a line comment looks behind its end,
where a close tag must not be torn apart.

A run is a text without white space and brackets; what follows it cannot tear
anything apart.
-/

namespace TokenMacros

open Text (isBlank isDigit)

/-- The character is neither white space nor a bracket. -/
def IsPlain (c : Char) : Prop :=
  isBlank c = false ∧ isBracket c = false

instance (c : Char) : Decidable (IsPlain c) :=
  inferInstanceAs (Decidable (_ ∧ _))

-- found before the instance that runs through all characters
instance decidableForallMem (p : Char → Prop) [DecidablePred p]
    (text : List Char) : Decidable (∀ c ∈ text, p c) :=
  List.decidableBAll p text

/-- The text is empty or begins with white space or a bracket. -/
def BreaksOff (text : List Char) : Prop :=
  ∀ c ∈ text.head?, ¬ IsPlain c

theorem beginsWith_append_right {mark text : List Char}
    (begins : beginsWith mark text = true) (back : List Char) :
    beginsWith mark (text ++ back) = true := by
  rw [beginsWith, List.isPrefixOf_iff_prefix] at begins ⊢
  exact begins.trans (List.prefix_append text back)

/-- A mark that has no character in common with the front of the text behind is
found without it. -/
theorem beginsWith_append_of_ne {mark : List Char} (text : List Char)
    {back : List Char} (apart : ∀ m ∈ mark, ∀ c ∈ back.head?, m ≠ c) :
    beginsWith mark (text ++ back) = beginsWith mark text := by
  induction mark generalizing text with
  | nil => rfl
  | cons m mark induction =>
      cases text with
      | nil =>
          cases back with
          | nil => rfl
          | cons b back =>
              have different : m ≠ b := apart m List.mem_cons_self b rfl
              simp [beginsWith, List.isPrefixOf, different]
      | cons c text =>
          have later := induction text fun other member =>
            apart other (List.mem_cons_of_mem _ member)
          simp only [beginsWith, List.cons_append, List.isPrefixOf]
            at later ⊢
          rw [later]

theorem beginsWith_append {mark : List Char}
    (plain : ∀ m ∈ mark, IsPlain m) (text : List Char) {back : List Char}
    (breaks : BreaksOff back) :
    beginsWith mark (text ++ back) = beginsWith mark text := by
  apply beginsWith_append_of_ne
  rintro m member c isHead rfl
  exact breaks m isHead (plain m member)

theorem beginsWith_two (a b c d : Char) (rest : List Char) :
    beginsWith [a, b] (c :: d :: rest) = (a == c && b == d) := by
  simp [beginsWith, List.isPrefixOf]

theorem beginsWith_singleton (a b c : Char) (rest : List Char) :
    beginsWith (a :: b :: rest) [c] = false := by
  simp [beginsWith, List.isPrefixOf]

/-! ## Extents -/

theorem takeWhile_append_of_le {p : Char → Bool} {text back : List Char}
    (fits : ((text ++ back).takeWhile p).length ≤ text.length) :
    (text ++ back).takeWhile p = text.takeWhile p := by
  rw [List.takeWhile_append] at fits ⊢
  split
  · next all =>
      rw [if_pos all, List.length_append] at fits
      have nothing : back.takeWhile p = [] :=
        List.length_eq_zero_iff.mp (by omega)
      have whole : text.takeWhile p = text :=
        (List.takeWhile_prefix p).eq_of_length all
      rw [nothing, List.append_nil, whole]
  · rfl

theorem takeWhile_of_stops {p : Char → Bool} {front back : List Char}
    (inside : ∀ c ∈ front, p c = true) (stops : ∀ c ∈ back.head?, p c = false) :
    (front ++ back).takeWhile p = front := by
  rw [List.takeWhile_append_of_pos inside]
  cases back with
  | nil => exact List.append_nil front
  | cons stop back =>
      have ends : ¬ p stop = true := by simpa using stops stop rfl
      rw [List.takeWhile_cons_of_neg ends, List.append_nil]

theorem take_length_takeWhile (p : Char → Bool) (text : List Char) :
    text.take (text.takeWhile p).length = text.takeWhile p :=
  (List.prefix_iff_eq_take.mp (List.takeWhile_prefix p)).symm

theorem exists_takeWhile (p : Char → Bool) (text : List Char) :
    ∃ run behind, text = run ++ behind ∧ (∀ c ∈ run, p c = true) ∧
      text.takeWhile p = run :=
  ⟨text.takeWhile p, text.dropWhile p, List.takeWhile_append_dropWhile.symm,
    fun _ => List.mem_takeWhile_imp, rfl⟩

namespace Extent

variable {text back back' : List Char}

theorem lineBreak_cons_cons (c d : Char) (text text' : List Char) :
    lineBreak (c :: d :: text) = lineBreak (c :: d :: text') := by
  unfold lineBreak
  split <;> split <;> simp_all

theorem lineBreak_append (fits : lineBreak (text ++ back) ≤ text.length) :
    lineBreak (text ++ back) = lineBreak text := by
  match text with
  | [] => simpa [lineBreak] using fits
  | [c] =>
      rw [List.singleton_append, List.length_singleton] at fits
      rw [List.singleton_append]
      -- a break of one character is a newline
      unfold lineBreak at fits ⊢
      split at fits <;> simp_all
  | c :: d :: text => exact lineBreak_cons_cons c d _ _

theorem identifier_pos (starts : text.head?.any isIdentifierStart = true) :
    0 < identifier text := by
  cases text with
  | nil => cases starts
  | cons c text =>
      have part : isIdentifierPart c = true := by
        simpa [isIdentifierPart] using Or.inl starts
      rw [identifier, if_pos part]
      omega

theorem identifier_append
    (fits : identifier (text ++ back) ≤ text.length) :
    identifier (text ++ back) = identifier text := by
  induction text with
  | nil => simpa [identifier] using fits
  | cons c text induction =>
      rw [List.cons_append, identifier] at fits ⊢
      rw [identifier]
      rw [List.length_cons] at fits
      by_cases part : isIdentifierPart c = true
      · rw [if_pos part] at fits
        rw [if_pos part, if_pos part, induction (by omega)]
      rw [if_neg part] at fits
      rw [if_neg part, if_neg part]
      cases text with
      | nil =>
          -- a backslash at the end does not belong to a name that goes on
          split
          · next goesOn =>
              rw [if_pos goesOn] at fits
              have starts : back.head?.any isIdentifierStart = true :=
                (Bool.and_eq_true_iff.mp goesOn).2
              have some := identifier_pos starts
              rw [List.length_nil, List.nil_append] at fits
              omega
          · rw [List.head?_nil, Option.any_none, Bool.and_false, if_neg (by decide)]
      | cons d text =>
          rw [List.cons_append, List.head?_cons] at fits ⊢
          rw [List.head?_cons]
          split
          · next goesOn =>
              rw [if_pos goesOn] at fits
              rw [← List.cons_append, induction (by rw [List.cons_append]; omega)]
          · rfl

/-- A close tag that ends the comment must stand in the text. -/
theorem lineComment_append
    (tag : beginsWith ['?', '>']
        ((text ++ back).drop (lineComment (text ++ back))) = true →
      beginsWith ['?', '>'] (text.drop (lineComment (text ++ back))) = true)
    (fits : lineComment (text ++ back) ≤ text.length) :
    lineComment (text ++ back) = lineComment text := by
  induction text with
  | nil => simpa [lineComment] using fits
  | cons c text induction =>
      rw [List.cons_append, lineComment] at fits tag ⊢
      rw [lineComment]
      by_cases ends : (c == '\r' || c == '\n' ||
          beginsWith ['?', '>'] (c :: (text ++ back))) = true
      · rw [if_pos ends] at tag
        have endsHere : (c == '\r' || c == '\n' ||
            beginsWith ['?', '>'] (c :: text)) = true := by
          rw [Bool.or_eq_true] at ends ⊢
          exact ends.imp_right tag
        rw [if_pos ends, if_pos endsHere]
      · rw [if_neg ends] at fits tag
        have goesOn : ¬ (c == '\r' || c == '\n' ||
            beginsWith ['?', '>'] (c :: text)) = true := by
          intro endsHere
          rw [Bool.or_eq_true] at endsHere
          apply ends
          rw [Bool.or_eq_true]
          exact endsHere.imp_right fun begins =>
            beginsWith_append_right begins back
        rw [Nat.add_comm 1, List.drop_succ_cons, List.drop_succ_cons] at tag
        rw [List.length_cons] at fits
        rw [if_neg ends, if_neg goesOn, induction tag (by omega)]

theorem throughCommentEnd_pos (c : Char) (rest : List Char) :
    0 < throughCommentEnd (c :: rest) := by
  rw [throughCommentEnd]
  split <;> omega

theorem two_le_throughCommentEnd (c d : Char) (rest : List Char) :
    2 ≤ throughCommentEnd (c :: d :: rest) := by
  have later := throughCommentEnd_pos d rest
  rw [throughCommentEnd]
  split <;> omega

theorem throughCommentEnd_of_closed
    (fits : throughCommentEnd (text ++ back) ≤ text.length) (goesOn : back ≠ []) :
    throughCommentEnd (text ++ back') = throughCommentEnd (text ++ back) := by
  induction text with
  | nil =>
      obtain ⟨b, back, rfl⟩ := List.exists_cons_of_ne_nil goesOn
      have positive := throughCommentEnd_pos b back
      rw [List.nil_append, List.length_nil] at fits
      omega
  | cons c text induction =>
      cases text with
      | nil =>
          obtain ⟨b, back, rfl⟩ := List.exists_cons_of_ne_nil goesOn
          have long := two_le_throughCommentEnd c b back
          rw [List.singleton_append, List.length_singleton] at fits
          omega
      | cons d text =>
          have step (back : List Char) :
              throughCommentEnd (c :: d :: text ++ back) =
                if '*' == c && '/' == d then 2
                else 1 + throughCommentEnd (d :: text ++ back) := by
            rw [List.cons_append, List.cons_append, throughCommentEnd,
              beginsWith_two]
          rw [step, List.length_cons] at fits
          rw [step, step]
          split
          · rfl
          · next unended =>
              rw [if_neg unended] at fits
              rw [induction (by omega)]

/-- The text begins like a comment that documents. -/
def docMark (text : List Char) : Bool :=
  beginsWith ['/', '*', '*'] text && (text.drop 3).head?.any isBlank

theorem docMark_of_closed (c d : Char)
    (fits : throughCommentEnd (text ++ back) ≤ text.length)
    (goesOn : back ≠ []) :
    docMark (c :: d :: (text ++ back')) =
      docMark (c :: d :: (text ++ back)) := by
  obtain ⟨b, back, rfl⟩ := List.exists_cons_of_ne_nil goesOn
  match text with
  | [] =>
      have positive := throughCommentEnd_pos b back
      rw [List.nil_append, List.length_nil] at fits
      omega
  | [e] =>
      have long := two_le_throughCommentEnd e b back
      rw [List.singleton_append, List.length_singleton] at fits
      omega
  | e :: f :: text => rfl

theorem throughCommentEnd_append
    (fits : throughCommentEnd (text ++ back) ≤ text.length) :
    throughCommentEnd (text ++ back) = throughCommentEnd text := by
  cases back with
  | nil => rw [List.append_nil]
  | cons b back =>
      have closed := @throughCommentEnd_of_closed text (b :: back) [] fits
        (List.cons_ne_nil b back)
      rw [← closed, List.append_nil]

theorem throughQuote_cons {c : Char} (plain : c ≠ '\\') (quote : Char)
    (text : List Char) :
    throughQuote quote (c :: text) =
      if c = quote then 1 else 1 + throughQuote quote text := by
  rw [throughQuote]
  · rintro rfl
    exact absurd rfl plain
  · rintro _ _ rfl
    exact absurd rfl plain

theorem throughQuote_pos (quote c : Char) (text : List Char) :
    0 < throughQuote quote (c :: text) := by
  by_cases escape : c = '\\'
  · subst escape
    cases text with
    | nil => exact Nat.one_pos
    | cons d text =>
        show 0 < 2 + throughQuote quote text
        omega
  · rw [throughQuote_cons escape]
    split <;> omega

theorem ne_backslash {c : Char} {text : List Char}
    (notLast : c = '\\' → text = [] → False)
    (notEscape : ∀ d later, c = '\\' → text = d :: later → False) :
    c ≠ '\\' := by
  rintro rfl
  cases text with
  | nil => exact notLast rfl rfl
  | cons d text => exact notEscape d text rfl rfl

theorem throughQuote_of_closed (quote : Char)
    (fits : throughQuote quote (text ++ back) ≤ text.length)
    (goesOn : back ≠ []) :
    throughQuote quote (text ++ back') = throughQuote quote (text ++ back) := by
  fun_induction throughQuote quote text with
  | case1 =>
      obtain ⟨b, back, rfl⟩ := List.exists_cons_of_ne_nil goesOn
      have positive := throughQuote_pos quote b back
      rw [List.nil_append, List.length_nil] at fits
      omega
  | case2 =>
      obtain ⟨b, back, rfl⟩ := List.exists_cons_of_ne_nil goesOn
      have escaped : throughQuote quote ('\\' :: b :: back) =
          2 + throughQuote quote back := rfl
      rw [List.singleton_append, escaped, List.length_singleton] at fits
      omega
  | case3 d text induction =>
      have escaped (back : List Char) :
          throughQuote quote ('\\' :: d :: (text ++ back)) =
            2 + throughQuote quote (text ++ back) := rfl
      rw [List.cons_append, List.cons_append, escaped] at fits ⊢
      rw [List.length_cons, List.length_cons] at fits
      rw [List.cons_append, List.cons_append, escaped, induction (by omega)]
  | case4 text notLast notEscape =>
      have plain := ne_backslash notLast notEscape
      rw [List.cons_append, List.cons_append, throughQuote_cons plain,
        throughQuote_cons plain, if_pos rfl, if_pos rfl]
  | case5 c text notLast notEscape notQuote induction =>
      have plain := ne_backslash notLast notEscape
      rw [List.cons_append, throughQuote_cons plain, if_neg notQuote] at fits ⊢
      rw [List.cons_append, throughQuote_cons plain, if_neg notQuote]
      rw [List.length_cons] at fits
      rw [induction (by omega)]

theorem throughQuote_append (quote : Char)
    (fits : throughQuote quote (text ++ back) ≤ text.length) :
    throughQuote quote (text ++ back) = throughQuote quote text := by
  cases back with
  | nil => rw [List.append_nil]
  | cons b back =>
      have closed := @throughQuote_of_closed text (b :: back) [] quote fits
        (List.cons_ne_nil b back)
      rw [← closed, List.append_nil]

theorem fraction_of_ne {c : Char} (notPoint : c ≠ '.') (rest : List Char) :
    fraction (c :: rest) = 0 := by
  unfold fraction
  split
  · next same =>
      exact absurd (List.cons.inj same).1 notPoint
  · rfl

theorem fraction_point (d : Char) (rest : List Char) :
    fraction ('.' :: d :: rest) =
      if isDigit d then 2 + (rest.takeWhile isNumberPart).length else 0 := rfl

theorem fraction_append (fits : fraction (text ++ back) ≤ text.length) :
    fraction (text ++ back) = fraction text := by
  cases text with
  | nil => simpa [fraction] using fits
  | cons c text =>
      rw [List.cons_append] at fits ⊢
      by_cases point : c = '.'
      · subst point
        cases text with
        | nil =>
            cases back with
            | nil => rfl
            | cons b back =>
                rw [List.nil_append, fraction_point] at fits ⊢
                split
                · next digit =>
                    rw [if_pos digit, List.length_singleton] at fits
                    omega
                · rfl
        | cons d text =>
            rw [List.cons_append, fraction_point] at fits ⊢
            rw [fraction_point]
            split
            · next digit =>
                rw [if_pos digit, List.length_cons, List.length_cons] at fits
                rw [takeWhile_append_of_le (by omega)]
            · rfl
      · rw [fraction_of_ne point, fraction_of_ne point]

/-- A sign at the front of the text. -/
def sign (text : List Char) : Nat :=
  if text.head?.any (fun c => c == '+' || c == '-') then 1 else 0

/-- An exponent whose letter stands in front of the text. -/
def signedDigits (text : List Char) : Nat :=
  let digits := ((text.drop (sign text)).takeWhile isDigit).length
  if digits = 0 then 0 else 1 + sign text + digits

theorem exponent_cons (e : Char) (rest : List Char) :
    exponent (e :: rest) =
      if e == 'e' || e == 'E' then signedDigits rest else 0 := rfl

theorem signedDigits_append
    (fits : signedDigits (text ++ back) ≤ text.length + 1) :
    signedDigits (text ++ back) = signedDigits text := by
  cases text with
  | nil =>
      rw [List.nil_append, List.length_nil] at fits
      have none : signedDigits back = 0 := by
        simp only [signedDigits] at fits ⊢
        split
        · rfl
        · next some =>
            rw [if_neg some] at fits
            omega
      exact none
  | cons d text =>
      have sameSign : sign (d :: text ++ back) = sign (d :: text) := rfl
      have short : sign (d :: text) ≤ (d :: text).length := by
        unfold sign
        split <;> simp
      have digits : ((d :: text ++ back).drop (sign (d :: text))).takeWhile
          isDigit = ((d :: text).drop (sign (d :: text))).takeWhile isDigit := by
        rw [List.drop_append_of_le_length short]
        apply takeWhile_append_of_le
        simp only [signedDigits, sameSign,
          List.drop_append_of_le_length short] at fits
        rw [List.length_drop]
        split at fits <;> omega
      simp only [signedDigits, sameSign, digits]

theorem exponent_append (fits : exponent (text ++ back) ≤ text.length) :
    exponent (text ++ back) = exponent text := by
  cases text with
  | nil => simpa [exponent] using fits
  | cons e text =>
      rw [List.cons_append, exponent_cons] at fits ⊢
      rw [exponent_cons]
      split
      · next mark =>
          rw [if_pos mark, List.length_cons] at fits
          exact signedDigits_append fits
      · rfl

theorem radixDigits?_cons_cons (c d : Char) (text text' : List Char) :
    radixDigits? (c :: d :: text) = radixDigits? (c :: d :: text') := by
  unfold radixDigits?
  split
  · next mark tail shape =>
      obtain ⟨rfl, rfl, _⟩ : c = '0' ∧ d = mark ∧ text = tail := by
        simpa using shape
      rfl
  · next other =>
      split
      · next mark tail shape =>
          obtain ⟨rfl, rfl, _⟩ : c = '0' ∧ d = mark ∧ text' = tail := by
            simpa using shape
          exact absurd rfl (other d text)
      · rfl

theorem number_of_radix {digits : String}
    (radix : radixDigits? text = some digits) :
    number text =
      (2 + ((text.drop 2).takeWhile digits.toList.contains).length, false) := by
  rw [number, radix]

/-- The whole part of a number. -/
def whole (text : List Char) : Nat :=
  (text.takeWhile isNumberPart).length

theorem number_of_no_radix (plain : radixDigits? text = none) :
    number text =
      let fractional := fraction (text.drop (whole text))
      let scale := exponent (text.drop (whole text + fractional))
      (whole text + fractional + scale, fractional != 0 || scale != 0) := by
  rw [number, plain]
  rfl

theorem number_append_of_no_radix
    (plain : radixDigits? text = none)
    (plain' : radixDigits? (text ++ back) = none)
    (fits : (number (text ++ back)).1 ≤ text.length) :
    number (text ++ back) = number text := by
  rw [number_of_no_radix plain'] at fits ⊢
  rw [number_of_no_radix plain]
  simp only at fits ⊢
  have sameWhole : whole (text ++ back) = whole text := by
    have short : whole (text ++ back) ≤ text.length := by omega
    exact congrArg List.length (takeWhile_append_of_le short)
  rw [sameWhole] at fits ⊢
  have sameFraction : fraction ((text ++ back).drop (whole text)) =
      fraction (text.drop (whole text)) := by
    rw [List.drop_append_of_le_length (by omega)] at fits ⊢
    apply fraction_append
    rw [List.length_drop]
    omega
  rw [sameFraction] at fits ⊢
  have sameScale : exponent ((text ++ back).drop
        (whole text + fraction (text.drop (whole text)))) =
      exponent (text.drop
        (whole text + fraction (text.drop (whole text)))) := by
    rw [List.drop_append_of_le_length (by omega)] at fits ⊢
    apply exponent_append
    rw [List.length_drop]
    omega
  rw [sameScale]

theorem number_append (some : text ≠ [])
    (fits : (number (text ++ back)).1 ≤ text.length) :
    number (text ++ back) = number text := by
  obtain ⟨c, text, rfl⟩ := List.exists_cons_of_ne_nil some
  cases text with
  | nil =>
      have plain : radixDigits? [c] = none := by
        unfold radixDigits?
        split
        · next shape => simp at shape
        · rfl
      apply number_append_of_no_radix plain _ fits
      cases radix : radixDigits? ([c] ++ back) with
      | none => rfl
      | some digits =>
          rw [number_of_radix radix, List.length_singleton] at fits
          omega
  | cons d text =>
      have same : radixDigits? (c :: d :: text ++ back) =
          radixDigits? (c :: d :: text) :=
        radixDigits?_cons_cons c d (text ++ back) text
      cases radix : radixDigits? (c :: d :: text) with
      | none =>
          rw [radix] at same
          exact number_append_of_no_radix radix same fits
      | some digits =>
          rw [radix] at same
          rw [number_of_radix same] at fits ⊢
          rw [number_of_radix radix]
          have behind : (c :: d :: text ++ back).drop 2 = text ++ back := rfl
          rw [behind] at fits ⊢
          rw [takeWhile_append_of_le]
          · rfl
          · simp only [List.length_cons] at fits
            omega

theorem two_le_number_of_point {d : Char} (digit : isDigit d = true)
    (rest : List Char) : 2 ≤ (number ('.' :: d :: rest)).1 := by
  have plain : radixDigits? ('.' :: d :: rest) = none := rfl
  have noWhole : whole ('.' :: d :: rest) = 0 := by
    rw [whole, List.takeWhile_cons_of_neg (by decide)]
    rfl
  rw [number_of_no_radix plain]
  simp only [noWhole, List.drop_zero, fraction_point, digit, if_true]
  omega

end Extent

end TokenMacros
