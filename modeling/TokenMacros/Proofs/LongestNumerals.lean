import TokenMacros.Proofs.LongestCaptures
import TokenMacros.Proofs.StopLocality
import TokenMacros.Proofs.TemplateStart

/-!
# Longest numerals

A number is read as far as it goes.  Behind a radix mark it takes every digit of
that radix.  Otherwise it is the longest front of the text that is a decimal
numeral, a whole part with an optional fraction and an optional exponent, and it
is a floating-point number exactly if one of the two is there.
-/

namespace TokenMacros

open Text (isDigit lower lowerAfter)

namespace Extent

/-- The radix marks in lower case, and the digits that may follow them. -/
def radixes : List (Char × String) :=
  [('x', "0123456789abcdefABCDEF_"), ('b', "01_"), ('o', "01234567_")]

/-- A point, a digit, and further digits and underscores; or nothing. -/
inductive IsFraction : List Char → Prop where
  | missing : IsFraction []
  | point {d : Char} {digits : List Char} :
      isDigit d = true →
      (∀ c ∈ digits, isNumberPart c = true) →
      IsFraction ('.' :: d :: digits)

/-- The letter, an optional sign, and digits; or nothing. -/
inductive IsExponent : List Char → Prop where
  | missing : IsExponent []
  | letter {e : Char} {sign digits : List Char} :
      e ∈ ['e', 'E'] →
      sign ∈ [[], ['+'], ['-']] →
      digits ≠ [] →
      (∀ c ∈ digits, isDigit c = true) →
      IsExponent (e :: (sign ++ digits))

/-- A decimal numeral in its parts; a fraction or an exponent that is missing is
empty. -/
structure Numeral where
  whole : List Char
  fraction : List Char
  exponent : List Char
  isWhole : ∀ c ∈ whole, isNumberPart c = true
  isFraction : IsFraction fraction
  isExponent : IsExponent exponent

def Numeral.text (numeral : Numeral) : List Char :=
  numeral.whole ++ (numeral.fraction ++ numeral.exponent)

/-- The text is a decimal numeral. -/
def SpellsNumeral (text : List Char) : Prop :=
  ∃ numeral : Numeral, numeral.text = text

/-- The number at the front of a text reaches through the longest run of digits
behind a radix mark, if there is such a mark; otherwise through the longest
decimal numeral, and it is a floating-point number exactly if that has a
fraction or an exponent. -/
structure ReadsNumber (text : List Char) (extent : Nat) (isFloat : Bool) :
    Prop where
  marked : ∀ mark digits, (mark, digits) ∈ radixes →
    lower (text.take 2) = ['0', mark] →
    ∃ run, LongestFront (fun front => ∀ c ∈ front, c ∈ digits.toList)
        (text.drop 2) run ∧
      extent = 2 + run.length ∧ isFloat = false
  unmarked : (∀ radix ∈ radixes, lower (text.take 2) ≠ ['0', radix.1]) →
    (∃ numeral : Numeral, LongestFront SpellsNumeral text numeral.text) ∧
    ∀ numeral : Numeral, LongestFront SpellsNumeral text numeral.text →
      extent = numeral.text.length ∧
        (isFloat = true ↔ numeral.fraction ≠ [] ∨ numeral.exponent ≠ [])

/-- A digit stands at the index, or a point with a digit behind it. -/
def NumberBegins (source : List Char) (start : Nat) : Prop :=
  (∃ d, source[start]? = some d ∧ isDigit d = true) ∨
    source[start]? = some '.' ∧ ∃ d, source[start + 1]? = some d ∧ isDigit d = true

/-! ## Runs -/

section

variable {p : Char → Bool} {front back text : List Char}

theorem length_le_takeWhile (inside : ∀ c ∈ front, p c = true)
    (begins : front <+: text) :
    front.length ≤ (text.takeWhile p).length := by
  obtain ⟨behind, rfl⟩ := begins
  rw [List.takeWhile_append_of_pos inside, List.length_append]
  exact Nat.le_add_right _ _

/-- A run takes all characters of its class, and no front of that class is
longer. -/
theorem takeWhile_longestFront (p : Char → Bool) (text : List Char) :
    LongestFront (fun front => ∀ c ∈ front, p c = true) text
      (text.takeWhile p) where
  isPrefix := List.takeWhile_prefix p
  holds _ member := List.mem_takeWhile_imp member
  longest _ begins inside := length_le_takeWhile inside begins

/-- What is read behind a run reaches at least as far as what stands behind any
other front of the class: if something stands there that is not of the class,
the front is the run. -/
theorem length_le_of_run {read : List Char → Nat}
    (inside : ∀ c ∈ front, p c = true) (stops : ∀ c ∈ back.head?, p c = false)
    (begins : front ++ back <+: text)
    (reaches : ∀ later, back <+: later → back.length ≤ read later) :
    (front ++ back).length ≤
      (text.takeWhile p).length + read (text.drop (text.takeWhile p).length) := by
  cases back with
  | nil =>
      rw [List.append_nil] at begins ⊢
      have short := length_le_takeWhile inside begins
      omega
  | cons stop back =>
      obtain ⟨behind, rfl⟩ := begins
      have run : (front ++ stop :: back ++ behind).takeWhile p = front := by
        rw [List.append_assoc]
        exact takeWhile_of_stops inside stops
      rw [run, List.append_assoc, List.drop_left, List.length_append]
      exact Nat.add_le_add_left (reaches _ (List.prefix_append _ _)) _

end

/-! ## Exponents -/

theorem IsExponent.stops {text : List Char} (exponent : IsExponent text) :
    ∀ c ∈ text.head?, isNumberPart c = false ∧ c ≠ '.' := by
  have letters : ∀ e ∈ ['e', 'E'], isNumberPart e = false ∧ e ≠ '.' := by
    decide
  cases exponent with
  | missing =>
      intro c head
      cases head
  | letter listed =>
      rintro c ⟨⟩
      exact letters _ listed

theorem sign_of_digit {d : Char} (digit : isDigit d = true) (text : List Char) :
    sign (d :: text) = 0 := by
  have notPlus : d ≠ '+' := by
    rintro rfl
    exact absurd digit (by decide)
  have notMinus : d ≠ '-' := by
    rintro rfl
    exact absurd digit (by decide)
  simp [sign, notPlus, notMinus]

theorem IsExponent.length_le {front text : List Char} (isExponent : IsExponent front)
    (begins : front <+: text) : front.length ≤ exponent text := by
  cases isExponent with
  | missing => exact Nat.zero_le _
  | @letter e mark digits listed signed some inside =>
      obtain ⟨behind, rfl⟩ := begins
      have letter : (e == 'e' || e == 'E') = true := by
        simpa using listed
      have signRead : sign (mark ++ (digits ++ behind)) = mark.length := by
        obtain ⟨d, digits, rfl⟩ := List.exists_cons_of_ne_nil some
        rcases List.mem_cons.mp signed with rfl | signed
        · exact sign_of_digit (inside d List.mem_cons_self) _
        rcases List.mem_cons.mp signed with rfl | signed
        · rfl
        · obtain rfl := List.mem_singleton.mp signed
          rfl
      have run := length_le_takeWhile inside (List.prefix_append digits behind)
      have positive := List.length_pos_iff.mpr some
      rw [List.cons_append, List.append_assoc, exponent_cons, if_pos letter,
        signedDigits, signRead, List.drop_left, if_neg (by omega),
        List.length_cons, List.length_append]
      omega

theorem take_sign (text : List Char) :
    text.take (sign text) ∈ [[], ['+'], ['-']] := by
  cases text with
  | nil => exact List.mem_cons_self
  | cons c text =>
      by_cases plus : c = '+'
      · subst plus
        exact List.mem_cons_of_mem _ List.mem_cons_self
      by_cases minus : c = '-'
      · subst minus
        exact List.mem_cons_of_mem _ (List.mem_cons_of_mem _ List.mem_cons_self)
      have unsigned : sign (c :: text) = 0 := by simp [sign, plus, minus]
      rw [unsigned]
      exact List.mem_cons_self

theorem exponent_le_length (text : List Char) : exponent text ≤ text.length := by
  cases text with
  | nil => exact Nat.le_refl _
  | cons e text =>
      have inside := (@List.takeWhile_prefix _ (text.drop (sign text)) isDigit).length_le
      rw [List.length_drop] at inside
      rw [exponent_cons, signedDigits, List.length_cons]
      split
      · split <;> omega
      · exact Nat.zero_le _

theorem isExponent_take (text : List Char) :
    IsExponent (text.take (exponent text)) := by
  cases text with
  | nil => exact .missing
  | cons e text =>
      rw [exponent_cons]
      split
      · next letter =>
          rw [signedDigits]
          split
          · exact .missing
          · next some =>
              rw [Nat.add_assoc, Nat.add_comm 1, List.take_succ_cons,
                List.take_add, take_length_takeWhile]
              apply IsExponent.letter
              · simpa using letter
              · exact take_sign text
              · exact fun empty => some (List.length_eq_zero_iff.mpr empty)
              · exact fun _ member => List.mem_takeWhile_imp member
      · exact .missing

/-! ## Fractions -/

theorem IsFraction.stops {front back : List Char} (fraction : IsFraction front)
    (exponent : IsExponent back) :
    ∀ c ∈ (front ++ back).head?, isNumberPart c = false := by
  cases fraction with
  | missing => exact fun c head => (exponent.stops c head).1
  | point =>
      rintro c ⟨⟩
      decide

theorem IsFraction.length_le {front back text : List Char}
    (isFraction : IsFraction front) (isExponent : IsExponent back)
    (begins : front ++ back <+: text) :
    (front ++ back).length ≤
      fraction text + exponent (text.drop (fraction text)) := by
  cases isFraction with
  | missing =>
      have none : back ≠ [] → fraction text = 0 := by
        intro some
        obtain ⟨c, back, rfl⟩ := List.exists_cons_of_ne_nil some
        obtain ⟨behind, rfl⟩ := begins
        exact fraction_of_ne (isExponent.stops c rfl).2 _
      cases back with
      | nil => exact Nat.zero_le _
      | cons c back =>
          rw [none (List.cons_ne_nil c back), List.drop_zero, Nat.zero_add]
          exact isExponent.length_le begins
  | @point d digits digit inside =>
      obtain ⟨behind, rfl⟩ := begins
      have read := length_le_of_run inside
        (fun c head => (isExponent.stops c head).1) (List.prefix_append _ behind)
        fun _ => isExponent.length_le
      rw [List.cons_append, List.cons_append, List.cons_append, List.cons_append,
        fraction_point, if_pos digit, List.length_cons, List.length_cons,
        Nat.add_comm 2, List.drop_succ_cons, List.drop_succ_cons]
      omega

theorem isFraction_take (text : List Char) :
    IsFraction (text.take (fraction text)) := by
  match text with
  | [] => exact .missing
  | [c] =>
      by_cases point : c = '.'
      · subst point
        exact .missing
      · rw [fraction_of_ne point]
        exact .missing
  | c :: d :: text =>
      by_cases point : c = '.'
      · subst point
        rw [fraction_point]
        split
        · next digit =>
            rw [Nat.add_comm, List.take_succ_cons, List.take_succ_cons,
              take_length_takeWhile]
            exact .point digit fun _ member => List.mem_takeWhile_imp member
        · exact .missing
      · rw [fraction_of_ne point]
        exact .missing

/-! ## Numerals -/

/-- A numeral has a fraction or an exponent if it has a character that is
neither a digit nor an underscore. -/
theorem Numeral.isFloat_iff (numeral : Numeral) :
    numeral.fraction ≠ [] ∨ numeral.exponent ≠ [] ↔
      ∃ c ∈ numeral.text, isNumberPart c = false := by
  have stops := numeral.isFraction.stops numeral.isExponent
  rw [← not_and_or, ← List.append_eq_nil_iff, text]
  generalize numeral.fraction ++ numeral.exponent = tail at stops ⊢
  cases tail with
  | nil =>
      apply iff_of_false
      · exact fun some => some rfl
      · rintro ⟨c, member, noPart⟩
        rw [List.append_nil] at member
        rw [numeral.isWhole c member] at noPart
        cases noPart
  | cons c tail =>
      apply iff_of_true (List.cons_ne_nil c tail)
      exact ⟨c, List.mem_append_right _ List.mem_cons_self, stops c rfl⟩

section

variable {text : List Char}

/-- What stands behind the whole part of a number. -/
def pastWhole (text : List Char) : List Char :=
  text.drop (whole text)

/-- What stands behind the whole part of a number and its fraction. -/
def pastFraction (text : List Char) : List Char :=
  (pastWhole text).drop (fraction (pastWhole text))

/-- The numeral that is read at the front of a text. -/
def numeralAt (text : List Char) : Numeral where
  whole := text.takeWhile isNumberPart
  fraction := (pastWhole text).take (fraction (pastWhole text))
  exponent := (pastFraction text).take (exponent (pastFraction text))
  isWhole _ member := List.mem_takeWhile_imp member
  isFraction := isFraction_take (pastWhole text)
  isExponent := isExponent_take (pastFraction text)

theorem text_numeralAt (text : List Char) :
    (numeralAt text).text =
      text.take
        (whole text + (fraction (pastWhole text) + exponent (pastFraction text))) := by
  have taken : text.take (whole text) = text.takeWhile isNumberPart :=
    take_length_takeWhile isNumberPart text
  rw [List.take_add, List.take_add, taken]
  rfl

theorem length_text_numeralAt (text : List Char) :
    (numeralAt text).text.length =
      whole text + (fraction (pastWhole text) + exponent (pastFraction text)) := by
  have shortWhole : whole text ≤ text.length :=
    (List.takeWhile_prefix isNumberPart).length_le
  have shortFraction := fraction_le_length (pastWhole text)
  have shortExponent := exponent_le_length (pastFraction text)
  have lengthWhole : (pastWhole text).length = text.length - whole text :=
    List.length_drop
  have lengthFraction : (pastFraction text).length =
      (pastWhole text).length - fraction (pastWhole text) :=
    List.length_drop
  rw [text_numeralAt]
  apply List.length_take_of_le
  omega

/-- The numeral that is read is the longest at the front of the text. -/
theorem numeralAt_longestFront (text : List Char) :
    LongestFront SpellsNumeral text (numeralAt text).text where
  isPrefix := by
    rw [text_numeralAt]
    exact List.take_prefix _ _
  holds := ⟨numeralAt text, rfl⟩
  longest := by
    rintro _ begins ⟨numeral, rfl⟩
    rw [length_text_numeralAt]
    exact length_le_of_run numeral.isWhole
      (numeral.isFraction.stops numeral.isExponent) begins
      fun _ => numeral.isFraction.length_le numeral.isExponent

/-- Without a radix mark, a number is the numeral that is read. -/
theorem number_eq_numeralAt (plain : radixDigits? text = none) :
    (number text).1 = (numeralAt text).text.length ∧
      ((number text).2 = true ↔
        (numeralAt text).fraction ≠ [] ∨ (numeralAt text).exponent ≠ []) := by
  have some {read : List Char → Nat} (nothing : read [] = 0) (text : List Char) :
      read text ≠ 0 ↔ text.take (read text) ≠ [] := by
    rw [ne_eq, ne_eq, List.take_eq_nil_iff, not_or]
    constructor
    · intro reads
      refine ⟨reads, ?_⟩
      rintro rfl
      exact reads nothing
    · exact And.left
  rw [number_of_no_radix plain, length_text_numeralAt]
  simp only [← List.drop_drop]
  constructor
  · exact Nat.add_assoc _ _ _
  · rw [Bool.or_eq_true, bne_iff_ne, bne_iff_ne]
    exact or_congr (some rfl (pastWhole text)) (some rfl (pastFraction text))

/-- Whichever way the longest numeral is read, it is the number. -/
theorem number_of_longestFront (plain : radixDigits? text = none)
    {numeral : Numeral}
    (longest : LongestFront SpellsNumeral text numeral.text) :
    (number text).1 = numeral.text.length ∧
      ((number text).2 = true ↔
        numeral.fraction ≠ [] ∨ numeral.exponent ≠ []) := by
  have same := (numeralAt_longestFront text).unique longest
  obtain ⟨extent, isFloat⟩ := number_eq_numeralAt plain
  rw [Numeral.isFloat_iff, ← same, ← Numeral.isFloat_iff] at isFloat
  exact ⟨extent.trans (congrArg List.length same.symm), isFloat⟩

end

/-! ## Radix marks -/

section

variable {text : List Char} {digits : String} {mark : Char}

theorem lower_radix_iff (listed : (mark, digits) ∈ radixes) :
    lower (text.take 2) = ['0', mark] ↔
      ∃ c tail, text = '0' :: c :: tail ∧ c.toLower = mark := by
  have plain : ∀ radix ∈ radixes, (0 < radix.1.toNat ∧ radix.1.toNat < 0x80) ∧
      radix.1 ≠ 'k' ∧ radix.1 ≠ 'i' := by
    decide
  obtain ⟨ascii, apart⟩ : (0 < mark.toNat ∧ mark.toNat < 0x80) ∧
      mark ≠ 'k' ∧ mark ≠ 'i' := plain (mark, digits) listed
  have zero : (0 < '0'.toNat ∧ '0'.toNat < 0x80) ∧ '0' ≠ 'k' ∧ '0' ≠ 'i' := by
    decide
  match text with
  | [] => simp [lower, lowerAfter]
  | [c] =>
      have short : ¬ lowerAfter [c] [] = [mark] := fun same => by cases same
      simp [lower, Text.lowerAfter_cons_eq_iff zero.1 zero.2, short]
  | c :: d :: text =>
      have noLetter : '0'.toNat < 0x41 := by decide
      have taken : (c :: d :: text).take 2 = [c, d] := rfl
      rw [taken, lower, Text.lowerAfter_cons_eq_iff zero.1 zero.2,
        Text.toLower_eq_iff noLetter, Text.lowerAfter_cons_eq_iff ascii apart]
      constructor
      · rintro ⟨rfl, marked, _⟩
        exact ⟨d, text, rfl, marked⟩
      · rintro ⟨_, _, ⟨⟩, marked⟩
        exact ⟨rfl, marked, rfl⟩

/-- The digits of a radix are read exactly behind its mark. -/
theorem radixDigits?_eq_some_iff :
    radixDigits? text = some digits ↔
      ∃ mark, (mark, digits) ∈ radixes ∧ lower (text.take 2) = ['0', mark] := by
  constructor
  · intro found
    unfold radixDigits? at found
    split at found
    · next c tail =>
        split at found
        · next mark =>
            obtain rfl := Option.some.inj found
            have listed : ('x', "0123456789abcdefABCDEF_") ∈ radixes := by decide
            exact ⟨'x', listed, (lower_radix_iff listed).mpr ⟨c, tail, rfl, mark⟩⟩
        · next mark =>
            obtain rfl := Option.some.inj found
            have listed : ('b', "01_") ∈ radixes := by decide
            exact ⟨'b', listed, (lower_radix_iff listed).mpr ⟨c, tail, rfl, mark⟩⟩
        · next mark =>
            obtain rfl := Option.some.inj found
            have listed : ('o', "01234567_") ∈ radixes := by decide
            exact ⟨'o', listed, (lower_radix_iff listed).mpr ⟨c, tail, rfl, mark⟩⟩
        · cases found
    · cases found
  · rintro ⟨mark, listed, lowered⟩
    obtain ⟨c, tail, rfl, rfl⟩ := (lower_radix_iff listed).mp lowered
    simp only [radixes, List.mem_cons, List.not_mem_nil, or_false,
      Prod.mk.injEq] at listed
    rcases listed with ⟨mark, rfl⟩ | ⟨mark, rfl⟩ | ⟨mark, rfl⟩ <;>
      simp [radixDigits?, mark]

/-- Behind a radix mark, a number takes the longest run of digits of the radix.
-/
theorem number_of_radixMark (listed : (mark, digits) ∈ radixes)
    (lowered : lower (text.take 2) = ['0', mark]) :
    ∃ run, LongestFront (fun front => ∀ c ∈ front, c ∈ digits.toList)
        (text.drop 2) run ∧
      (number text).1 = 2 + run.length ∧ (number text).2 = false := by
  have longest := takeWhile_longestFront digits.toList.contains (text.drop 2)
  simp only [List.contains_iff_mem] at longest
  refine ⟨_, longest, ?_⟩
  rw [number_of_radix (radixDigits?_eq_some_iff.mpr ⟨mark, listed, lowered⟩)]
  exact ⟨rfl, rfl⟩

end

theorem number_pos_of_begins {source : List Char} {start : Nat}
    (begins : NumberBegins source start) : 0 < (number (source.drop start)).1 := by
  have inside : start < source.length := by
    rcases begins with ⟨d, here, _⟩ | ⟨here, _⟩
    · exact (List.getElem?_eq_some_iff.mp here).1
    · exact (List.getElem?_eq_some_iff.mp here).1
  rw [List.drop_eq_getElem_cons inside]
  apply number_pos
  rw [Bool.or_eq_true, Bool.and_eq_true, beq_iff_eq]
  rw [NumberBegins, List.getElem?_eq_getElem inside] at begins
  rcases begins with ⟨d, here, digit⟩ | ⟨here, d, next, digit⟩
  · obtain rfl := Option.some.inj here
    exact .inl digit
  · refine .inr ⟨Option.some.inj here, ?_⟩
    rw [List.head?_drop, next]
    exact digit

theorem number_reads (text : List Char) :
    ReadsNumber text (number text).1 (number text).2 where
  marked _ _ := number_of_radixMark
  unmarked := by
    intro unmarked
    have plain : radixDigits? text = none := by
      rw [Option.eq_none_iff_forall_not_mem]
      intro digits found
      obtain ⟨mark, listed, lowered⟩ := radixDigits?_eq_some_iff.mp found
      exact unmarked (mark, digits) listed lowered
    exact ⟨⟨numeralAt text, numeralAt_longestFront text⟩,
      fun _ => number_of_longestFront plain⟩

/-- Where a number begins, it is read as far as it goes, which is one character at
least. -/
theorem number_longest {source : List Char} {start : Nat}
    (begins : NumberBegins source start) :
    ∃ extent isFloat, number (source.drop start) = (extent, isFloat) ∧
      ReadsNumber (source.drop start) extent isFloat ∧ start < start + extent :=
  ⟨_, _, rfl, number_reads _,
    Nat.lt_add_of_pos_right (number_pos_of_begins begins)⟩

/-- A fraction in digits of another script, and an exponent; the points behind
them begin another piece. -/
theorem number_longest_exponent :
    let source := ['=', '1', '_', '.', '\u0663', '_', 'E', '-', '7', '.', '.', '2']
    NumberBegins source 1 ∧
    ∃ extent isFloat, number (source.drop 1) = (extent, isFloat) ∧
      ReadsNumber (source.drop 1) extent isFloat ∧ 1 < 1 + extent :=
  have begins := .inl ⟨'1', rfl, by decide⟩
  ⟨begins, number_longest begins⟩

end Extent

end TokenMacros
