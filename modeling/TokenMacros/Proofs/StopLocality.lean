import TokenMacros.Proofs.LexemeLocality
import TokenMacros.Proofs.TemplateStart

/-!
# Pieces that end in front of a stop

White space and the characters that comments begin with are stops: whatever ends
in front of a space also ends in front of another stop, if that is no part of a
name.  So the piece of code that begins at some place does not depend on the
stop behind it, nor on what follows the stop.
-/

namespace TokenMacros

open Text (isBlank isDigit codesOf blankRanges)

/-- White space, or what a comment can begin with. -/
def isStop (c : Char) : Bool :=
  isBlank c || c == '#' || c == '/'

theorem forall_stop {p : Char → Prop}
    (all : ∀ code ∈ 0x23 :: 0x2f :: codesOf blankRanges, p (Char.ofNat code))
    {stop : Char} (stops : isStop stop = true) : p stop := by
  have listed : stop.toNat ∈ 0x23 :: 0x2f :: codesOf blankRanges := by
    simp only [isStop, Bool.or_eq_true, beq_iff_eq] at stops
    rcases stops with (blank | rfl) | rfl
    · exact List.mem_cons_of_mem _
        (List.mem_cons_of_mem _ (Text.mem_codesOf_of_inRanges blank))
    · exact List.mem_cons_self
    · exact List.mem_cons_of_mem _ List.mem_cons_self
  have found := all stop.toNat listed
  rwa [Char.ofNat_toNat] at found

theorem isNumberPart_of_isStop {stop : Char} (stops : isStop stop = true) :
    Extent.isNumberPart stop = false :=
  @forall_stop (fun stop => Extent.isNumberPart stop = false)
    (by decide +kernel) stop stops

theorem isDigit_of_isStop {stop : Char} (stops : isStop stop = true) :
    isDigit stop = false := by
  have other := isNumberPart_of_isStop stops
  rw [Extent.isNumberPart, Bool.or_eq_false_iff] at other
  exact other.1

theorem isIdentifierPart_of_isStop {stop : Char} (stops : isStop stop = true)
    (ascii : stop.toNat < 0x80) : isIdentifierPart stop = false :=
  @forall_stop (fun stop => stop.toNat < 0x80 → isIdentifierPart stop = false)
    (by decide +kernel) stop stops ascii

theorem toLower_of_isStop {stop : Char} (stops : isStop stop = true) :
    stop.toLower = stop :=
  @forall_stop (fun stop => stop.toLower = stop) (by decide +kernel) stop stops

theorem ne_of_isStop {c stop : Char} (stops : isStop stop = true)
    (other : isStop c = false) : c ≠ stop := by
  rintro rfl
  rw [stops] at other
  cases other

/-- The stop can stand in the place of the other one: the two are the same, or
it is no part of a name and the other one is a space. -/
structure Replaces (stop old : Char) : Prop where
  stops : isStop stop = true
  oldStops : isStop old = true
  same : stop = old ∨ old = ' ' ∧ isIdentifierPart stop = false

namespace Replaces

variable {stop old : Char} (replaces : Replaces stop old)

include replaces

theorem eq_of_ne_space (notSpace : old ≠ ' ') : stop = old :=
  replaces.same.resolve_right fun space => notSpace space.1

theorem isIdentifierPart_eq : isIdentifierPart stop = isIdentifierPart old := by
  rcases replaces.same with rfl | ⟨rfl, noPart⟩
  · rfl
  · rw [noPart]
    rfl

theorem isIdentifierStart_eq :
    isIdentifierStart stop = isIdentifierStart old := by
  have part := replaces.isIdentifierPart_eq
  rwa [isIdentifierPart, isIdentifierPart, isDigit_of_isStop replaces.stops,
    isDigit_of_isStop replaces.oldStops, Bool.or_false, Bool.or_false] at part

end Replaces

/-! ## Extents -/

/-- A mark does not reach into a text that begins with a stop. -/
theorem beginsWith_stop {mark : List Char}
    (stopless : ∀ m ∈ mark, isStop m = false) (text : List Char) {stop : Char}
    (stops : isStop stop = true) (more : List Char) :
    beginsWith mark (text ++ stop :: more) = beginsWith mark text := by
  apply beginsWith_append_of_ne
  intro m member c isHead
  obtain rfl := Option.some.inj isHead
  exact ne_of_isStop stops (stopless m member)

theorem beginsWith_cons_stop {mark : List Char}
    (stopless : ∀ m ∈ mark.tail, isStop m = false) (c : Char)
    (text : List Char) {stop : Char} (stops : isStop stop = true)
    (more : List Char) :
    beginsWith mark (c :: (text ++ stop :: more)) =
      beginsWith mark (c :: text) := by
  cases mark with
  | nil => rfl
  | cons m mark =>
      have later := beginsWith_stop stopless text stops more
      rw [beginsWith, List.tail_cons] at later
      rw [beginsWith, beginsWith, List.isPrefixOf, List.isPrefixOf, later]
      rfl

theorem takeWhile_stop {p : Char → Bool} (text : List Char) {stop : Char}
    (ends : p stop = false) (more : List Char) :
    (text ++ stop :: more).takeWhile p = text.takeWhile p := by
  rw [List.takeWhile_append]
  split
  · next all =>
      rw [List.takeWhile_cons_of_neg (by rw [ends]; decide), List.append_nil]
      exact ((List.takeWhile_prefix p).eq_of_length all).symm
  · rfl

theorem takeWhile_of_ends {p : Char → Bool} {text more more' : List Char}
    {stop old : Char}
    (ends : p old = false → p stop = false)
    (fits : ((text ++ old :: more).takeWhile p).length ≤ text.length) :
    (text ++ stop :: more').takeWhile p = (text ++ old :: more).takeWhile p := by
  induction text with
  | nil =>
      have oldEnds : p old = false := by
        rw [← Bool.not_eq_true]
        intro goesOn
        rw [List.nil_append, List.takeWhile_cons_of_pos goesOn] at fits
        exact absurd fits (Nat.not_succ_le_zero _)
      rw [List.nil_append, List.nil_append,
        List.takeWhile_cons_of_neg (by rw [ends oldEnds]; decide),
        List.takeWhile_cons_of_neg (by rw [oldEnds]; decide)]
  | cons c text induction =>
      rw [List.cons_append, List.takeWhile_cons] at fits ⊢
      rw [List.cons_append, List.takeWhile_cons]
      split
      · next goesOn =>
          rw [if_pos goesOn] at fits
          rw [induction (Nat.le_of_succ_le_succ fits)]
      · rfl

namespace Extent

variable {text back back' : List Char}

theorem two_le_length_of_radixDigits? {digits : String}
    (found : radixDigits? text = some digits) : 2 ≤ text.length := by
  unfold radixDigits? at found
  split at found
  · simp
  · cases found

theorem not_mem_radixDigits? {digits : String}
    (found : radixDigits? text = some digits) {stop : Char}
    (stops : isStop stop = true) : digits.toList.contains stop = false := by
  have apart : ∀ digits ∈ ["0123456789abcdefABCDEF_", "01_", "01234567_"],
      ∀ digit ∈ digits.toList, isStop digit = false := by
    decide +kernel
  have listed : digits ∈ ["0123456789abcdefABCDEF_", "01_", "01234567_"] := by
    unfold radixDigits? at found
    split at found
    · split at found
      · obtain rfl := Option.some.inj found
        decide
      · obtain rfl := Option.some.inj found
        decide
      · obtain rfl := Option.some.inj found
        decide
      · cases found
    · cases found
  rw [← Bool.not_eq_true, List.contains_iff_mem]
  intro member
  rw [apart digits listed stop member] at stops
  cases stops

theorem fraction_le_length (text : List Char) :
    fraction text ≤ text.length := by
  unfold fraction
  split
  · next d rest =>
      have inside := (@List.takeWhile_prefix _ rest isNumberPart).length_le
      split
      · rw [List.length_cons, List.length_cons]
        omega
      · exact Nat.zero_le _
  · exact Nat.zero_le _

theorem radixDigits?_stop (text : List Char) {stop : Char}
    (stops : isStop stop = true) (more : List Char) :
    radixDigits? (text ++ stop :: more) = radixDigits? text := by
  cases text with
  | nil =>
      have notZero : '0' ≠ stop := ne_of_isStop stops (by decide)
      unfold radixDigits?
      split
      · next shape => exact absurd (List.cons.inj shape).1.symm notZero
      · rfl
  | cons c text =>
      cases text with
      | cons d text => exact radixDigits?_cons_cons c d _ _
      | nil =>
          have alone : radixDigits? [c] = none := by
            unfold radixDigits?
            split
            · next shape => simp at shape
            · rfl
          rw [alone, List.singleton_append]
          unfold radixDigits?
          split
          · next mark tail shape =>
              obtain ⟨_, rfl, _⟩ : c = '0' ∧ stop = mark ∧ more = tail := by
                simpa using shape
              rw [toLower_of_isStop stops]
              split
              · exact absurd stops (by decide)
              · exact absurd stops (by decide)
              · exact absurd stops (by decide)
              · rfl
          · rfl

theorem fraction_stop (text : List Char) {stop : Char}
    (stops : isStop stop = true) (more : List Char) :
    fraction (text ++ stop :: more) = fraction text := by
  cases text with
  | nil => exact fraction_of_ne (ne_of_isStop stops (by decide)).symm more
  | cons c text =>
      rw [List.cons_append]
      by_cases point : c = '.'
      · subst point
        cases text with
        | nil =>
            rw [List.nil_append, fraction_point, isDigit_of_isStop stops]
            rfl
        | cons d text =>
            rw [List.cons_append, fraction_point, fraction_point,
              takeWhile_stop text (isNumberPart_of_isStop stops)]
      · rw [fraction_of_ne point, fraction_of_ne point]

theorem signedDigits_stop (text : List Char) {stop : Char}
    (stops : isStop stop = true) (more : List Char) :
    signedDigits (text ++ stop :: more) = signedDigits text := by
  have noDigit := isDigit_of_isStop stops
  cases text with
  | nil =>
      have notPlus : stop ≠ '+' := (ne_of_isStop stops (by decide)).symm
      have notMinus : stop ≠ '-' := (ne_of_isStop stops (by decide)).symm
      have unsigned : sign (stop :: more) = 0 := by
        simp [sign, notPlus, notMinus]
      have none : (stop :: more).takeWhile isDigit = [] :=
        List.takeWhile_cons_of_neg (by rw [noDigit]; decide)
      rw [List.nil_append, signedDigits, unsigned, List.drop_zero, none]
      rfl
  | cons d text =>
      have sameSign : sign (d :: text ++ stop :: more) = sign (d :: text) := rfl
      have short : sign (d :: text) ≤ (d :: text).length := by
        unfold sign
        split <;> simp
      rw [signedDigits, signedDigits, sameSign,
        List.drop_append_of_le_length short, takeWhile_stop _ noDigit]

theorem exponent_stop (text : List Char) {stop : Char}
    (stops : isStop stop = true) (more : List Char) :
    exponent (text ++ stop :: more) = exponent text := by
  cases text with
  | nil =>
      have notSmall : stop ≠ 'e' := (ne_of_isStop stops (by decide)).symm
      have notCapital : stop ≠ 'E' := (ne_of_isStop stops (by decide)).symm
      simp [exponent, notSmall, notCapital]
  | cons e text =>
      rw [List.cons_append, exponent_cons, exponent_cons,
        signedDigits_stop text stops]

theorem number_stop (text : List Char) {stop : Char}
    (stops : isStop stop = true) (more : List Char) :
    number (text ++ stop :: more) = number text := by
  have radix := radixDigits?_stop text stops more
  cases found : radixDigits? text with
  | some digits =>
      have two : 2 ≤ text.length := two_le_length_of_radixDigits? found
      have noDigit := not_mem_radixDigits? found stops
      rw [found] at radix
      rw [number_of_radix radix, number_of_radix found,
        List.drop_append_of_le_length two, takeWhile_stop _ noDigit]
  | none =>
      rw [found] at radix
      have sameWhole : whole (text ++ stop :: more) = whole text := by
        rw [whole, takeWhile_stop text (isNumberPart_of_isStop stops), whole]
      have short : whole text ≤ text.length :=
        (List.takeWhile_prefix _).length_le
      have shortFraction :
          whole text + fraction (text.drop (whole text)) ≤ text.length := by
        have inside := fraction_le_length (text.drop (whole text))
        rw [List.length_drop] at inside
        omega
      rw [number_of_no_radix radix, number_of_no_radix found, sameWhole,
        List.drop_append_of_le_length short, fraction_stop _ stops]
      simp only [List.drop_append_of_le_length shortFraction,
        exponent_stop _ stops]

section

variable {stop old : Char} (replaces : Replaces stop old)
  {more more' : List Char}

include replaces

theorem identifier_replaces
    (fits : identifier (text ++ old :: more) ≤ text.length) :
    identifier (text ++ stop :: more') = identifier (text ++ old :: more) := by
  have noSlash {stop : Char} (stops : isStop stop = true) :
      (stop == '\\') = false :=
    beq_eq_false_iff_ne.mpr (ne_of_isStop stops (by decide)).symm
  induction text with
  | nil =>
      have oldEnds : isIdentifierPart old = false := by
        rw [← Bool.not_eq_true]
        intro part
        rw [List.nil_append, identifier, if_pos part, List.length_nil] at fits
        omega
      rw [List.nil_append, List.nil_append, identifier, identifier,
        replaces.isIdentifierPart_eq, oldEnds, noSlash replaces.stops,
        noSlash replaces.oldStops]
      rfl
  | cons c text induction =>
      have following : (text ++ stop :: more').head?.any isIdentifierStart =
          (text ++ old :: more).head?.any isIdentifierStart := by
        cases text with
        | nil => exact replaces.isIdentifierStart_eq
        | cons d text => rfl
      rw [List.cons_append, identifier] at fits ⊢
      rw [List.cons_append, identifier, following]
      rw [List.length_cons] at fits
      split
      · next part =>
          rw [if_pos part] at fits
          rw [induction (by omega)]
      · next noPart =>
          rw [if_neg noPart] at fits
          split
          · next goesOn =>
              rw [if_pos goesOn] at fits
              rw [induction (by omega)]
          · rfl

theorem lineComment_replaces
    (fits : lineComment (text ++ old :: more) ≤ text.length) :
    lineComment (text ++ stop :: more') = lineComment (text ++ old :: more) := by
  induction text with
  | nil =>
      have unmarked (more : List Char) {stop : Char}
          (stops : isStop stop = true) :
          beginsWith ['?', '>'] (stop :: more) = false :=
        beginsWith_stop (by decide) [] stops more
      have breaks : (old == '\r' || old == '\n') = true := by
        rw [← Bool.not_eq_false]
        intro goesOn
        rw [List.nil_append, lineComment, goesOn, unmarked _ replaces.oldStops,
          List.length_nil] at fits
        simp at fits
      obtain rfl : stop = old := by
        apply replaces.eq_of_ne_space
        rintro rfl
        exact absurd breaks (by decide)
      rw [List.nil_append, List.nil_append, lineComment, lineComment, breaks]
      rfl
  | cons c text induction =>
      have mark {stop : Char} (stops : isStop stop = true) (more : List Char) :
          beginsWith ['?', '>'] (c :: (text ++ stop :: more)) =
            beginsWith ['?', '>'] (c :: text) :=
        beginsWith_cons_stop (by decide) c text stops more
      rw [List.cons_append, lineComment, mark replaces.oldStops] at fits
      rw [List.cons_append, List.cons_append, lineComment, lineComment,
        mark replaces.stops, mark replaces.oldStops]
      split
      · rfl
      · next goesOn =>
          rw [if_neg goesOn, List.length_cons] at fits
          rw [induction (by omega)]

end

end Extent

end TokenMacros
