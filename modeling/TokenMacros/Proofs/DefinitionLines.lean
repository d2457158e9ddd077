import TokenMacros.Proofs.BracedTexts
import TokenMacros.Proofs.CaptureMarks
import TokenMacros.Proofs.RuleTokens
import TokenMacros.Rule.Definition

/-!
# Lines that define rules

How a definition is spelled: the keyword, a pattern and a replacement between
balanced braces, and blanks around them.  A line has at most one such spelling,
and it defines a rule exactly if it has one and the pattern can be looked up by
its first token.
-/

namespace TokenMacros

open Text (isBlank trim trimLeft)

/-- Blanks only, or nothing. -/
def IsGap (text : List Char) : Prop :=
  ∀ c ∈ text, isBlank c = true

/-- The line spells a definition with these texts between its braces.  Anything
may follow. -/
def SpellsDefinition (line pattern replacement : List Char) : Prop :=
  ∃ beforePattern beforeArrow behindArrow rest,
    IsGap beforePattern ∧ IsGap beforeArrow ∧ IsGap behindArrow ∧
    BalancedBraces pattern ∧ BalancedBraces replacement ∧
    line = "$(macro)".toList ++ (beforePattern ++ '\x7b' :: (pattern ++
      '\x7d' :: (beforeArrow ++ (">>".toList ++ (behindArrow ++ '\x7b' ::
        (replacement ++ '\x7d' :: rest))))))

/-- The pattern has an element, and the first is no capture. -/
def Pattern.Opens (pattern : Pattern) : Prop :=
  pattern.elements ≠ [] ∧
    ∀ index name, pattern.elements.head? ≠ some (.placeholder index name)

namespace Text

/-! ## Gaps -/

theorem exists_gap (text : List Char) :
    ∃ gap, IsGap gap ∧ text = gap ++ trimLeft text :=
  ⟨text.takeWhile isBlank, List.all_eq_true.mp List.all_takeWhile,
    List.takeWhile_append_dropWhile.symm⟩

theorem trimLeft_gap_append {gap : List Char} (blank : IsGap gap) {c : Char}
    (visible : isBlank c = false) (rest : List Char) :
    trimLeft (gap ++ c :: rest) = c :: rest := by
  rw [trimLeft, List.dropWhile_append_of_pos blank,
    List.dropWhile_cons_of_neg (by simp [visible])]

end Text

/-! ## Spellings -/

namespace Definition

theorem braced?_append {body : List Char} (balanced : BalancedBraces body)
    (rest : List Char) :
    braced? ('\x7b' :: (body ++ '\x7d' :: rest)) = some (trim body, rest) := by
  have behind : (body ++ '\x7d' :: rest).drop (body.length + 1) = rest := by
    simp [List.drop_append]
  rw [braced?, balanced.closingBraceOffset?_append rest, Option.map_some,
    List.take_left, behind]

theorem exists_of_braced? {text inner rest : List Char}
    (read : braced? text = some (inner, rest)) :
    ∃ body, BalancedBraces body ∧ text = '\x7b' :: (body ++ '\x7d' :: rest) ∧
      inner = trim body := by
  unfold braced? at read
  split at read
  · next text =>
      obtain ⟨offset, found, _⟩ := Option.map_eq_some_iff.mp read
      obtain ⟨body, behind, rfl, balanced, _⟩ :=
        exists_of_closingBraceOffset? found
      have again := braced?_append balanced behind
      rw [braced?, read, Option.some.injEq, Prod.mk.injEq] at again
      obtain ⟨rfl, rfl⟩ := again
      exact ⟨body, balanced, rfl, rfl⟩
  · cases read

/-- The parts of a line are the trimmed texts of its spelling. -/
theorem parts?_eq_some_iff {line inner outer : List Char} :
    parts? line = some (inner, outer) ↔
      ∃ pattern replacement, SpellsDefinition line pattern replacement ∧
        inner = trim pattern ∧ outer = trim replacement := by
  constructor
  · intro read
    simp only [parts?, Option.bind_eq_bind, Option.bind_eq_some_iff,
      Option.pure_def, Option.some.injEq, Prod.mk.injEq, Prod.exists] at read
    obtain ⟨afterKeyword, keyword, _, afterPattern, opened, afterArrow, arrow, _,
      rest, opened', rfl, rfl⟩ := read
    obtain ⟨pattern, balanced, patternSplit, rfl⟩ := exists_of_braced? opened
    obtain ⟨replacement, balanced', replacementSplit, rfl⟩ :=
      exists_of_braced? opened'
    obtain ⟨gap, blank, split⟩ := Text.exists_gap afterKeyword
    obtain ⟨gap', blank', split'⟩ := Text.exists_gap afterPattern
    obtain ⟨gap'', blank'', split''⟩ := Text.exists_gap afterArrow
    refine ⟨pattern, replacement, ⟨gap, gap', gap'', rest, blank, blank',
      blank'', balanced, balanced', ?_⟩, rfl, rfl⟩
    rw [Mark.exactly?_eq_some keyword, split, patternSplit, split',
      Mark.exactly?_eq_some arrow, split'', replacementSplit]
    rfl
  · rintro ⟨pattern, replacement, ⟨gap, gap', gap'', rest, blank, blank', blank'',
      balanced, balanced', rfl⟩, rfl, rfl⟩
    have keyword : "$(macro)".toList =
      ['$', '(', 'm', 'a', 'c', 'r', 'o', ')'] := rfl
    have arrow : ">>".toList = ['>', '>'] := rfl
    have brace (text : List Char) {gap : List Char} (blank : IsGap gap) :
        trimLeft (gap ++ '\x7b' :: text) = '\x7b' :: text :=
      Text.trimLeft_gap_append blank (by decide) text
    have mark (text : List Char) :
        trimLeft (gap' ++ (">>".toList ++ text)) = ">>".toList ++ text :=
      Text.trimLeft_gap_append blank' (by decide) ('>' :: text)
    simp only [parts?, ← keyword, ← arrow, Mark.exactly?_append, brace _ blank,
      brace _ blank'', mark, braced?_append balanced, braced?_append balanced',
      Option.bind_eq_bind, Option.bind_some]
    rfl

end Definition

theorem SpellsDefinition.unique {line pattern pattern' replacement replacement' :
    List Char} (spells : SpellsDefinition line pattern replacement)
    (spells' : SpellsDefinition line pattern' replacement') :
    pattern' = pattern ∧ replacement' = replacement := by
  have behindGap {gap gap' text text' : List Char} {c : Char}
      (visible : isBlank c = false) (blank : IsGap gap) (blank' : IsGap gap')
      (same : gap ++ c :: text = gap' ++ c :: text') : text = text' := by
    have trimmed := congrArg trimLeft same
    rw [Text.trimLeft_gap_append blank visible,
      Text.trimLeft_gap_append blank' visible] at trimmed
    exact (List.cons.inj trimmed).2
  -- from left to right: a gap ends at the first visible character, and a body
  -- at the brace that closes it
  obtain ⟨gap₁, gap₂, gap₃, rest, blank₁, blank₂, blank₃, balanced, balancedR,
    rfl⟩ := spells
  obtain ⟨gap₁', gap₂', gap₃', rest', blank₁', blank₂', blank₃', balanced',
    balancedR', same⟩ := spells'
  have bodies := behindGap (by decide) blank₁ blank₁'
    (List.append_cancel_left same)
  obtain ⟨rfl, arrows⟩ := balanced.eq_of_append balanced' bodies
  have arrowsBehind := behindGap (by decide) blank₂ blank₂' arrows
  have bodiesBehind := behindGap (by decide) blank₃ blank₃'
    (List.cons.inj arrowsBehind).2
  obtain ⟨rfl, _⟩ := balancedR.eq_of_append balancedR' bodiesBehind
  exact ⟨rfl, rfl⟩

namespace Rule

theorem define_eq_ok_iff {source : RuleSource} {rule : Rule} :
    define source = .ok rule ↔
      (Pattern.parse source.pattern).Opens ∧
        rule =
          { pattern := source.pattern
            replacement := source.replacement
            name := source.name
            file := source.file
            line := source.line
            priority := source.priority
            elements := (Pattern.parse source.pattern).elements
            captures := (Pattern.parse source.pattern).captures
            template := Replacement.parse source.replacement } := by
  unfold define Pattern.Opens
  dsimp only
  split
  · next nothing => simp [nothing]
  · next capture => simp [capture]
  · next opens =>
      constructor
      · intro defined
        exact ⟨by simp [opens], (Except.ok.inj defined).symm⟩
      · rintro ⟨_, rfl⟩
        rfl

/-- There are two ways for a source to define nothing. -/
theorem define_eq_error {source : RuleSource} {failure : Failure}
    (refused : define source = .error failure) :
    failure = .emptyPattern source.file source.line ∨
      failure = .leadingCapture source.pattern source.file source.line := by
  unfold define at refused
  dsimp only at refused
  split at refused
  · exact .inl (Except.error.inj refused).symm
  · exact .inr (Except.error.inj refused).symm
  · cases refused

end Rule

/-- A comment spells no definition, and neither does an empty line. -/
theorem SpellsDefinition.isVisible {line pattern replacement : List Char}
    (spells : SpellsDefinition line pattern replacement) :
    (line.isEmpty || Definition.isComment line) = false := by
  obtain ⟨gap, gap', gap'', rest, _, _, _, _, _, rfl⟩ := spells
  rfl

theorem parseLine?_eq_some_iff {line : String} {file : Option String}
    {number : Option Int} {rule : Rule} :
    Definition.parseLine? line file number = some rule ↔
      ∃ pattern replacement,
        SpellsDefinition (trim line.toList) pattern replacement ∧
          Rule.define
            { pattern := String.ofList (trim pattern)
              replacement := String.ofList (trim replacement)
              file := file
              line := number } = .ok rule := by
  rw [Definition.parseLine?]
  simp only
  split
  · next hidden =>
      constructor
      · intro impossible
        cases impossible
      · rintro ⟨pattern, replacement, spells, _⟩
        rw [spells.isVisible] at hidden
        cases hidden
  · simp only [Option.bind_eq_bind, Option.bind_eq_some_iff,
      Rule.toOption_define_eq_some, Prod.exists, Definition.parts?_eq_some_iff]
    constructor
    · rintro ⟨_, _, ⟨pattern, replacement, spells, rfl, rfl⟩, defined⟩
      exact ⟨pattern, replacement, spells, defined⟩
    · rintro ⟨pattern, replacement, spells, defined⟩
      exact ⟨_, _, ⟨pattern, replacement, spells, rfl, rfl⟩, defined⟩

/-- A line defines a rule if and only if, without the blanks at its ends, it
spells a definition whose pattern opens with a token.  It spells at most one,
and the rule has its trimmed texts and the given place.  A spelled definition
that defines nothing is one of those that are passed over: its pattern is empty
or begins with a capture. -/
theorem parseLine?_grammar (line : String) (file : Option String)
    (number : Option Int) :
    let text := trim line.toList
    let read := Definition.parseLine? line file number
    (read.isSome = true ↔
      ∃ pattern replacement, SpellsDefinition text pattern replacement ∧
        (Pattern.parse (String.ofList (trim pattern))).Opens) ∧
    ∀ pattern replacement, SpellsDefinition text pattern replacement →
      let source : RuleSource :=
        { pattern := String.ofList (trim pattern)
          replacement := String.ofList (trim replacement)
          file := file
          line := number }
      (∀ pattern' replacement', SpellsDefinition text pattern' replacement' →
        pattern' = pattern ∧ replacement' = replacement) ∧
      (∀ rule, read = some rule →
        Rule.define source = .ok rule ∧ rule.pattern = source.pattern ∧
          rule.replacement = source.replacement ∧ rule.file = file ∧
            rule.line = number) ∧
      ∀ failure, Rule.define source = .error failure →
        failure = .emptyPattern file number ∨
          failure = .leadingCapture source.pattern file number := by
  intro text read
  refine ⟨?_, ?_⟩
  · rw [Option.isSome_iff_exists]
    constructor
    · rintro ⟨rule, success⟩
      obtain ⟨pattern, replacement, spells, defined⟩ :=
        parseLine?_eq_some_iff.mp success
      exact ⟨pattern, replacement, spells, (Rule.define_eq_ok_iff.mp defined).1⟩
    · rintro ⟨pattern, replacement, spells, opens⟩
      exact ⟨_, parseLine?_eq_some_iff.mpr ⟨pattern, replacement, spells,
        Rule.define_eq_ok_iff.mpr ⟨opens, rfl⟩⟩⟩
  · intro pattern replacement spells source
    refine ⟨fun _ _ => spells.unique, ?_, fun _ => Rule.define_eq_error⟩
    intro rule success
    obtain ⟨pattern', replacement', spells', defined⟩ :=
      parseLine?_eq_some_iff.mp success
    obtain ⟨rfl, rfl⟩ := spells.unique spells'
    obtain ⟨_, rfl⟩ := Rule.define_eq_ok_iff.mp defined
    exact ⟨defined, rfl, rfl, rfl, rfl⟩

end TokenMacros
