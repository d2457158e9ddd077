import TokenMacros.Proofs.HeredocLocality
import TokenMacros.Proofs.StopLocality
import TokenMacros.Text.Split

/-!
# Closing labels

A heredoc begins exactly where a well-formed begin line stands behind its `<<<`,
and it ends behind the label on the first later line that begins with the label
as a word of its own.  A heredoc without such a line takes all that is left.
-/

namespace TokenMacros

open Text (splitOn)

namespace Extent

/-- A name: a character that begins one, and characters that go on with it. -/
structure IsLabel (label : List Char) : Prop where
  starts : label.head?.any isIdentifierStart = true
  named : ∀ c ∈ label, isIdentifierPart c = true

/-- The begin line of a heredoc in its parts.  What follows the label is no part
of a name, so the label is all of the name that stands there. -/
structure BeginLine where
  indent : List Char
  quote : List Char
  label : List Char
  newline : List Char
  indented : ∀ c ∈ indent, isIndent c = true
  quoted : quote ∈ [[], ['\x27'], ['\x22']]
  isLabel : IsLabel label
  broken : newline ∈ [['\n'], ['\r', '\n']]

def BeginLine.text (line : BeginLine) : List Char :=
  line.indent ++ (line.quote ++ (line.label ++ (line.quote ++ line.newline)))

/-- The line begins with the label as a word of its own, behind nothing but
spaces and tabs; the label ends at `place`. -/
def ClosesLine (label line : List Char) (place : Nat) : Prop :=
  ∃ indent behind, line = indent ++ (label ++ behind) ∧
    (∀ c ∈ indent, isIndent c = true) ∧
    (∀ c ∈ behind.head?, isIdentifierPart c = false) ∧
    place = indent.length + label.length

/-- The lines begin at `start`, and the heredoc reaches through the label on the
first one that closes; it reaches to the end if no line does. -/
def ThroughLabel (label : List Char) (lines : List (List Char))
    (start finish stop : Nat) : Prop :=
  (∃ earlier line later place, lines = earlier ++ line :: later ∧
    (∀ other ∈ earlier, ∀ place, ¬ ClosesLine label other place) ∧
    ClosesLine label line place ∧
    stop = start + (earlier.flatMap fun other => other ++ ['\n']).length + place) ∨
  (∀ line ∈ lines, ∀ place, ¬ ClosesLine label line place) ∧ stop = finish

/-! ## Labels -/

theorem IsLabel.exists_cons {label : List Char} (isLabel : IsLabel label) :
    ∃ c name, label = c :: name ∧ isIdentifierStart c = true := by
  cases label with
  | nil => cases isLabel.starts
  | cons c name => exact ⟨c, name, rfl, isLabel.starts⟩

theorem IsLabel.stops {label : List Char} (isLabel : IsLabel label)
    {p : Char → Bool} (apart : ∀ c, p c = true → isIdentifierStart c = false)
    (behind : List Char) : ∀ c ∈ (label ++ behind).head?, p c = false := by
  obtain ⟨first, name, rfl, starts⟩ := isLabel.exists_cons
  intro c isHead
  obtain rfl := Option.some.inj isHead
  rw [← Bool.not_eq_true]
  intro inClass
  rw [apart _ inClass] at starts
  cases starts

theorem isIdentifierStart_of_isIndent (c : Char) (indent : isIndent c = true) :
    isIdentifierStart c = false := by
  rw [isIndent, Bool.or_eq_true, beq_iff_eq, beq_iff_eq] at indent
  rcases indent with rfl | rfl <;> decide

/-! ## Begin lines -/

/-- A quote of either kind. -/
def isLabelQuote (c : Char) : Bool :=
  c == '\x27' || c == '\x22'

/-- The quote at the front of a text, if there is one. -/
def openQuote (text : List Char) : List Char :=
  (text.take 1).filter isLabelQuote

theorem isIdentifierStart_of_isLabelQuote (c : Char)
    (quote : isLabelQuote c = true) : isIdentifierStart c = false := by
  rw [isLabelQuote, Bool.or_eq_true, beq_iff_eq, beq_iff_eq] at quote
  rcases quote with rfl | rfl <;> decide

theorem exists_openQuote (text : List Char) :
    ∃ quote behind, text = quote ++ behind ∧
      quote ∈ [[], ['\x27'], ['\x22']] ∧ openQuote text = quote := by
  cases text with
  | nil => exact ⟨[], [], rfl, List.mem_cons_self, rfl⟩
  | cons c text =>
      have cut : openQuote (c :: text) = [c].filter isLabelQuote := rfl
      by_cases isQuote : isLabelQuote c = true
      · refine ⟨[c], text, rfl, ?_, ?_⟩
        · simpa [isLabelQuote] using isQuote
        · rw [cut, List.filter_cons_of_pos isQuote, List.filter_nil]
      · refine ⟨[], c :: text, rfl, List.mem_cons_self, ?_⟩
        rw [cut, List.filter_cons_of_neg isQuote, List.filter_nil]

theorem openQuote_append {quote label : List Char}
    (quoted : quote ∈ [[], ['\x27'], ['\x22']]) (isLabel : IsLabel label)
    (behind : List Char) : openQuote (quote ++ (label ++ behind)) = quote := by
  simp only [List.mem_cons, List.not_mem_nil, or_false] at quoted
  rcases quoted with rfl | rfl | rfl
  · have noQuote := isLabel.stops isIdentifierStart_of_isLabelQuote behind
    obtain ⟨c, name, rfl, _⟩ := isLabel.exists_cons
    have other : isLabelQuote c = false := noQuote c rfl
    simp [openQuote, other]
  · rfl
  · rfl

theorem lineBreak_newline {newline : List Char}
    (broken : newline ∈ [['\n'], ['\r', '\n']]) (rest : List Char) :
    lineBreak (newline ++ rest) = newline.length ∧ newline.length ≠ 0 := by
  rcases List.mem_cons.mp broken with rfl | broken
  · exact ⟨rfl, by decide⟩
  · obtain rfl := List.mem_singleton.mp broken
    exact ⟨rfl, by decide⟩

theorem take_lineBreak {text : List Char} (breaks : lineBreak text ≠ 0) :
    text.take (lineBreak text) ∈ [['\n'], ['\r', '\n']] := by
  unfold lineBreak at breaks ⊢
  split at breaks
  · exact List.mem_cons_of_mem _ List.mem_cons_self
  · exact List.mem_cons_self
  · exact absurd rfl breaks

theorem BeginLine.text_length_pos (line : BeginLine) : 0 < line.text.length := by
  have newline := (lineBreak_newline line.broken []).2
  simp only [BeginLine.text, List.length_append]
  omega

theorem BeginLine.indent_ends (line : BeginLine) (rest : List Char) :
    ∀ c ∈ (line.quote ++ (line.label ++ rest)).head?, isIndent c = false := by
  have quoted := line.quoted
  simp only [List.mem_cons, List.not_mem_nil, or_false] at quoted
  rcases quoted with quote | quote | quote
  · rw [quote]
    exact line.isLabel.stops isIdentifierStart_of_isIndent rest
  all_goals
    rw [quote]
    rintro c ⟨rfl⟩
    decide

theorem BeginLine.ends (line : BeginLine) (rest : List Char) :
    ∀ c ∈ (line.quote ++ (line.newline ++ rest)).head?,
      isIdentifierPart c = false := by
  have quoted := line.quoted
  have broken := line.broken
  simp only [List.mem_cons, List.not_mem_nil, or_false] at quoted broken
  rcases quoted with quote | quote | quote <;>
    rcases broken with newline | newline <;>
    · rw [quote, newline]
      rintro c ⟨rfl⟩
      decide

theorem heredocHeader?_beginLine (line : BeginLine) (rest : List Char) :
    heredocHeader? (line.text ++ rest) = some (line.label, line.text.length) := by
  have parts : line.text ++ rest = line.indent ++ (line.quote ++ (line.label ++
      (line.quote ++ (line.newline ++ rest)))) := by
    simp [BeginLine.text]
  have quoteTaken := openQuote_append line.quoted line.isLabel
    (line.quote ++ (line.newline ++ rest))
  have nameTaken := takeWhile_of_stops line.isLabel.named (line.ends rest)
  have indentTaken := takeWhile_of_stops line.indented
    (line.indent_ends (line.quote ++ (line.newline ++ rest)))
  obtain ⟨breaks, some⟩ := lineBreak_newline line.broken rest
  have closes : line.quote.isPrefixOf (line.quote ++ (line.newline ++ rest)) =
      true :=
    List.isPrefixOf_iff_prefix.mpr (List.prefix_append _ _)
  unfold openQuote isLabelQuote at quoteTaken
  rw [parts]
  simp only [heredocHeader?, indentTaken, quoteTaken, nameTaken, List.drop_left,
    breaks, closes, line.isLabel.starts]
  simp only [BeginLine.text, List.length_append, Bool.and_true, bne_iff_ne,
    Bool.true_and, if_pos some, Nat.add_assoc]

theorem exists_beginLine {text label : List Char} {header : Nat}
    (found : heredocHeader? text = some (label, header)) :
    ∃ (line : BeginLine) (rest : List Char), text = line.text ++ rest := by
  obtain ⟨indent, behind, rfl, indented, indentTaken⟩ :=
    exists_takeWhile isIndent text
  obtain ⟨quote, behind, rfl, quoted, quoteTaken⟩ := exists_openQuote behind
  obtain ⟨name, behind, rfl, named, nameTaken⟩ :=
    exists_takeWhile isIdentifierPart behind
  unfold openQuote isLabelQuote at quoteTaken
  simp only [heredocHeader?, indentTaken, quoteTaken, nameTaken, List.drop_left,
    Option.ite_none_right_eq_some, Bool.and_eq_true, bne_iff_ne,
    List.isPrefixOf_iff_prefix] at found
  obtain ⟨⟨⟨starts, ⟨behind, rfl⟩⟩, breaks⟩, _⟩ := found
  rw [List.drop_left] at breaks
  refine ⟨⟨indent, quote, name, behind.take (lineBreak behind), indented, quoted,
    ⟨starts, named⟩, take_lineBreak breaks⟩, behind.drop (lineBreak behind), ?_⟩
  simp [BeginLine.text]

/-! ## Closing lines -/

theorem closingLabel?_eq_some_iff {label line : List Char} {place : Nat}
    (isLabel : IsLabel label) :
    closingLabel? label line = some place ↔ ClosesLine label line place := by
  constructor
  · intro found
    obtain ⟨indent, behind, rfl, indented, taken⟩ := exists_takeWhile isIndent line
    simp only [closingLabel?, taken, List.drop_left,
      Option.ite_none_right_eq_some, Bool.and_eq_true,
      List.isPrefixOf_iff_prefix, Bool.not_eq_true'] at found
    obtain ⟨⟨⟨behind, rfl⟩, ends⟩, same⟩ := found
    rw [List.drop_left] at ends
    refine ⟨indent, behind, rfl, indented, ?_, (Option.some.inj same).symm⟩
    intro c isHead
    rwa [Option.mem_def.mp isHead] at ends
  · rintro ⟨indent, behind, rfl, indented, ends, rfl⟩
    have taken := takeWhile_of_stops indented
      (isLabel.stops isIdentifierStart_of_isIndent behind)
    have labelled : label.isPrefixOf (label ++ behind) = true :=
      List.isPrefixOf_iff_prefix.mpr (List.prefix_append label behind)
    have closed : behind.head?.any isIdentifierPart = false := by
      cases behind with
      | nil => rfl
      | cons c behind => exact ends c rfl
    simp only [closingLabel?, taken, List.drop_left, labelled, closed]
    rfl

theorem ClosesLine.place_le {label line : List Char} {place : Nat}
    (closes : ClosesLine label line place) : place ≤ line.length := by
  obtain ⟨indent, behind, rfl, _, _, rfl⟩ := closes
  rw [List.length_append, List.length_append]
  omega

theorem closingLabel?_line {label : List Char} (isLabel : IsLabel label)
    (line rest : List Char) :
    closingLabel? label (line ++ '\n' :: rest) = closingLabel? label line := by
  have noNewline : ∀ c ∈ label, ∀ d ∈ ('\n' :: rest).head?, c ≠ d := by
    rintro c member d ⟨rfl⟩ rfl
    exact absurd (isLabel.named _ member) (by decide)
  have indented := takeWhile_stop line (by decide : isIndent '\n' = false) rest
  obtain ⟨indent, behind, rfl, _, taken⟩ := exists_takeWhile isIndent line
  have labelled : label.isPrefixOf (behind ++ '\n' :: rest) =
      label.isPrefixOf behind :=
    beginsWith_append_of_ne behind noNewline
  rw [taken, List.append_assoc] at indented
  simp only [closingLabel?, indented, taken, List.append_assoc, List.drop_left,
    labelled]
  cases begins : label.isPrefixOf behind with
  | false => rfl
  | true =>
      obtain ⟨after, rfl⟩ := List.isPrefixOf_iff_prefix.mp begins
      rw [List.append_assoc, List.drop_left, List.drop_left]
      cases after with
      | nil => rfl
      | cons c after => rfl

/-! ## Bodies -/

theorem heredocBody_le_length {label : List Char} (isLabel : IsLabel label)
    (atLineStart : Bool) (text : List Char) :
    heredocBody label atLineStart text ≤ text.length := by
  induction text generalizing atLineStart with
  | nil => exact Nat.le_refl 0
  | cons c text induction =>
      rw [heredocBody_cons]
      cases closes : (if atLineStart then closingLabel? label (c :: text)
          else none) with
      | some place =>
          have found := (Option.ite_none_right_eq_some.mp closes).2
          exact ((closingLabel?_eq_some_iff isLabel).mp found).place_le
      | none =>
          have later := induction (c == '\n')
          rw [Option.getD_none, List.length_cons]
          omega

/-- Behind the start of a line, nothing closes up to its end. -/
theorem heredocBody_front {label front : List Char} (plain : '\n' ∉ front)
    (back : List Char) :
    heredocBody label false (front ++ back) =
      front.length + heredocBody label false back := by
  induction front with
  | nil => simp
  | cons c front induction =>
      rw [List.mem_cons, not_or] at plain
      have other : (c == '\n') = false := by simpa using Ne.symm plain.1
      rw [List.cons_append, heredocBody_cons, if_neg Bool.false_ne_true,
        Option.getD_none, other, induction plain.2, List.length_cons]
      omega

/-- A line that is not empty closes at its start or nowhere. -/
theorem heredocBody_lineStart (label : List Char) {c : Char} {front : List Char}
    (plain : '\n' ∉ c :: front) (back : List Char) :
    heredocBody label true (c :: front ++ back) =
      (closingLabel? label (c :: front ++ back)).getD
        ((c :: front).length + heredocBody label false back) := by
  rw [List.mem_cons, not_or] at plain
  have other : (c == '\n') = false := by simpa using Ne.symm plain.1
  rw [List.cons_append, heredocBody_cons, if_pos rfl, other,
    heredocBody_front plain.2, ← Nat.add_assoc, List.length_cons,
    Nat.add_comm 1]

section

variable {label : List Char} (isLabel : IsLabel label)

include isLabel

theorem not_closesLine {line : List Char}
    (goesOn : closingLabel? label line = none) (place : Nat) :
    ¬ ClosesLine label line place := by
  intro closes
  rw [(closingLabel?_eq_some_iff isLabel).mpr closes] at goesOn
  cases goesOn

theorem closingLabel?_nil : closingLabel? label [] = none := by
  obtain ⟨c, name, rfl, _⟩ := isLabel.exists_cons
  rfl

theorem heredocBody_lastLine {line : List Char} (plain : '\n' ∉ line) :
    heredocBody label true line =
      (closingLabel? label line).getD line.length := by
  cases line with
  | nil =>
      rw [closingLabel?_nil isLabel]
      rfl
  | cons c line =>
      have start := heredocBody_lineStart label plain []
      rwa [List.append_nil] at start

/-- A line that does not close is passed with its line break. -/
theorem heredocBody_line {line : List Char} (plain : '\n' ∉ line)
    (rest : List Char) :
    heredocBody label true (line ++ '\n' :: rest) =
      (closingLabel? label line).getD
        (line.length + (1 + heredocBody label true rest)) := by
  rw [← closingLabel?_line isLabel line rest]
  cases line with
  | nil =>
      rw [List.nil_append, heredocBody_cons, if_pos rfl, List.length_nil,
        Nat.zero_add]
      rfl
  | cons c line =>
      have newline : heredocBody label false ('\n' :: rest) =
          1 + heredocBody label true rest :=
        heredocBody_cons label false '\n' rest
      rw [heredocBody_lineStart label plain, newline]

end

theorem ThroughLabel.here {label line : List Char} {place : Nat}
    (closes : ClosesLine label line place) (later : List (List Char))
    (start finish : Nat) :
    ThroughLabel label (line :: later) start finish (start + place) :=
  .inl ⟨[], line, later, place, rfl, by simp, closes, rfl⟩

theorem ThroughLabel.behind {label line : List Char}
    (goesOn : ∀ place, ¬ ClosesLine label line place)
    {lines : List (List Char)} {start finish stop : Nat}
    (through : ThroughLabel label lines (start + (line.length + 1)) finish stop) :
    ThroughLabel label (line :: lines) start finish stop := by
  rcases through with
    ⟨earlier, closing, later, place, rfl, before, closes, rfl⟩ | ⟨none, rfl⟩
  · refine .inl ⟨line :: earlier, closing, later, place, rfl, ?_, closes, ?_⟩
    · exact List.forall_mem_cons.mpr ⟨goesOn, before⟩
    · simp only [List.flatMap_cons, List.length_append, List.length_singleton]
      omega
  · exact .inr ⟨List.forall_mem_cons.mpr ⟨goesOn, none⟩, rfl⟩

/-- The body is read line by line up to the first closing one. -/
theorem heredocBody_throughLabel {label : List Char} (isLabel : IsLabel label)
    (line : List Char) (lines : List (List Char))
    (plain : ∀ piece ∈ line :: lines, '\n' ∉ piece) (start : Nat) :
    ThroughLabel label (line :: lines) start
      (start + (['\n'].intercalate (line :: lines)).length)
      (start + heredocBody label true (['\n'].intercalate (line :: lines))) := by
  induction lines generalizing line start with
  | nil =>
      rw [List.intercalate_singleton,
        heredocBody_lastLine isLabel (plain line List.mem_cons_self)]
      cases closes : closingLabel? label line with
      | some place =>
          exact .here ((closingLabel?_eq_some_iff isLabel).mp closes) [] _ _
      | none =>
          exact .inr ⟨by simpa using not_closesLine isLabel closes, rfl⟩
  | cons next lines induction =>
      obtain ⟨plainLine, plainLines⟩ := List.forall_mem_cons.mp plain
      have joined : ['\n'].intercalate (line :: next :: lines) =
          line ++ '\n' :: ['\n'].intercalate (next :: lines) := by
        rw [List.intercalate_cons_cons, List.append_assoc]
        rfl
      rw [joined, heredocBody_line isLabel plainLine]
      cases closes : closingLabel? label line with
      | some place =>
          exact .here ((closingLabel?_eq_some_iff isLabel).mp closes) _ _ _
      | none =>
          have later := induction next plainLines (start + (line.length + 1))
          have through := later.behind (not_closesLine isLabel closes)
          simpa [Nat.add_assoc, Nat.add_comm 1] using through

/-! ## Heredocs -/

section

variable {source : List Char} {start : Nat}

theorem heredoc?_eq_none_iff :
    heredoc? (source.drop start) = none ↔
      heredocHeader? (source.drop (start + 3)) = none := by
  rw [heredoc?, Option.map_eq_none_iff, List.drop_drop]

theorem heredoc?_of_header {label : List Char} {header : Nat}
    (found : heredocHeader? (source.drop (start + 3)) = some (label, header)) :
    heredoc? (source.drop start) =
      some (3 + header + heredocBody label true
        ((source.drop (start + 3)).drop header)) := by
  simp only [heredoc?, List.drop_drop, found, Option.map_some, Nat.add_assoc]

end

/-- A heredoc begins with the three characters of its mark and a begin line, and
it reaches through the label on the first line of its body that closes. -/
theorem heredoc?_throughLabel (source : List Char) (start : Nat) :
    (heredoc? (source.drop start) = none ↔
      ∀ line : BeginLine, ¬ line.text <+: source.drop (start + 3)) ∧
    ∀ (line : BeginLine) (body : List Char),
      source.drop (start + 3) = line.text ++ body →
        ∃ stop,
          (heredoc? (source.drop start)).map (start + ·) = some stop ∧
          ThroughLabel line.label (splitOn '\n' body)
            (start + 3 + line.text.length) source.length stop ∧
          start < stop ∧ stop ≤ source.length := by
  constructor
  · rw [heredoc?_eq_none_iff]
    constructor
    · rintro noHeader line ⟨rest, begins⟩
      rw [← begins, heredocHeader?_beginLine] at noHeader
      cases noHeader
    · intro noLine
      cases found : heredocHeader? (source.drop (start + 3)) with
      | none => rfl
      | some header =>
          obtain ⟨line, rest, begins⟩ := exists_beginLine found
          exact absurd ⟨rest, begins.symm⟩ (noLine line)
  · intro line body begins
    have header : heredocHeader? (source.drop (start + 3)) =
        some (line.label, line.text.length) := by
      rw [begins]
      exact heredocHeader?_beginLine line body
    have found := heredoc?_of_header header
    rw [begins, List.drop_left] at found
    have length : source.length =
        start + 3 + line.text.length + body.length := by
      have nonempty := line.text_length_pos
      have behind := congrArg List.length begins
      rw [List.length_drop, List.length_append] at behind
      omega
    refine ⟨start + 3 + line.text.length + heredocBody line.label true body,
      ?_, ?_, by omega, ?_⟩
    · rw [found, Option.map_some, Nat.add_assoc 3, ← Nat.add_assoc start,
        ← Nat.add_assoc]
    · obtain ⟨first, later, cut⟩ := Text.exists_splitOn '\n' body
      obtain ⟨joined, plain⟩ := Text.splitOn_pieces '\n' body
      rw [cut] at joined plain ⊢
      have through := heredocBody_throughLabel line.isLabel first later plain
        (start + 3 + line.text.length)
      rwa [← joined, ← length] at through
    · have inBody := heredocBody_le_length line.isLabel true body
      omega

/-- A longer name does not close the heredoc; the indented label behind it does.
-/
theorem heredoc?_throughLabel_indented :
    let source := ['=', '<', '<', '<', '\x27', 'E', 'T', '\x27', '\n',
      'E', 'T', 'X', '\n', ' ', 'E', 'T', ';']
    let body := ['E', 'T', 'X', '\n', ' ', 'E', 'T', ';']
    source.drop 4 = ['\x27', 'E', 'T', '\x27', '\n'] ++ body ∧
      ∃ stop,
        (heredoc? (source.drop 1)).map (1 + ·) = some stop ∧
        ThroughLabel ['E', 'T'] (splitOn '\n' body) 9 17 stop ∧
        1 < stop ∧ stop ≤ 17 :=
  ⟨rfl, (heredoc?_throughLabel _ 1).2
    ⟨[], ['\x27'], ['E', 'T'], ['\n'], by decide, by decide,
      ⟨by decide, by decide⟩, by decide⟩ _ rfl⟩

end Extent

end TokenMacros
