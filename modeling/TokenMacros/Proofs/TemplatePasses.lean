import TokenMacros.Proofs.FixedPoints
import TokenMacros.Proofs.TemplateSegments

/-!
# Passes over a template

Matching looks at texts only, so a rule can match template text.  A rule without
captures that is made from code never reaches a tag, though, and so not over the
edges of template text: it replaces the whole of it, by a pattern of one token,
or nothing of it.
-/

namespace TokenMacros

/-- The characters that open tags begin with. -/
def tagStart : List Char := ['<', '?']

/-- Open tags show by their texts what they are. -/
def TagsShown (tokens : List Token) : Prop :=
  ∀ token ∈ tokens, token.kind? = some .openTag →
    tagStart <+: token.text.toList

instance (tokens : List Token) : Decidable (TagsShown tokens) :=
  inferInstanceAs (Decidable (∀ token ∈ tokens, _))

theorem TagsShown.of_subset {tokens tokens' : List Token}
    (shown : TagsShown tokens) (subset : tokens' ⊆ tokens) :
    TagsShown tokens' :=
  fun token member => shown token (subset member)

theorem tagsShown_of_inPlace {source : String}
    (inPlace : TagsInPlace source.toList) :
    TagsShown (lex .template source) := by
  intro token member opens
  have piece : token.piece ∈ sourcePieces .template source.toList := by
    rw [← lex_sourcePieces inPlace]
    exact List.mem_map_of_mem member
  rcases (segmented_of_mem_sourcePieces piece).tag opens with echo | php
  · have starts : tagStart <+: echoTagMark := by decide
    exact starts.trans echo
  · have starts : tagStart <+: openTagMark := by decide
    exact (prefix_asciiLower_iff (by decide)).mp (starts.trans php)

/-! ## Tokens of code -/

/-- The token is neither template text nor a tag, nor does it read like a tag.
-/
structure Token.IsCode (token : Token) : Prop where
  plain : token.isFrame = false
  nonempty : token.text ≠ ""
  closesNot : ¬ closeTagMark <+: token.text.toList
  opensNot : ¬ tagStart <+: token.text.toList

theorem Lexeme.next_less_question (rest : List Char) :
    next '<' ('?' :: rest) = ⟨none, 1⟩ := rfl

theorem Lexeme.not_tagStart_prefix_take_next (c : Char) (rest : List Char) :
    ¬ tagStart <+: (c :: rest).take (next c rest).extent := by
  intro taken
  obtain ⟨begins, long⟩ := List.prefix_take_iff.mp taken
  rw [tagStart, List.cons_prefix_cons] at begins
  obtain ⟨rfl, back, rfl⟩ := begins
  rw [List.singleton_append, next_less_question] at long
  exact absurd long (by decide)

theorem codePieces_isCode {text : List Char} {piece : Option Kind × List Char}
    (member : piece ∈ codePieces text) :
    piece.1.any Kind.isTemplate = false ∧ piece.2 ≠ [] ∧
      ¬ tagStart <+: piece.2 := by
  fun_induction codePieces text with
  | case1 => cases member
  | case2 c rest induction =>
      rcases List.mem_cons.mp member with rfl | later
      · refine ⟨Lexeme.next_isTemplate c rest, ?_,
          Lexeme.not_tagStart_prefix_take_next c rest⟩
        obtain ⟨further, extent⟩ :=
          Nat.exists_eq_add_of_le' (Lexeme.next_extent_pos c rest)
        rw [extent]
        exact List.cons_ne_nil _ _
      · split at later
        · cases later
        · exact induction later

theorem isCode_of_mem_lexCode {code : String}
    (noTag : ¬ closeTagMark <:+: code.toList) {token : Token}
    (member : token ∈ lexCode code) : token.IsCode := by
  have closesNot : ∀ token ∈ lexCode code,
      ¬ closeTagMark <+: token.text.toList := by
    intro token listed tagged
    exact noTag (tagged.isInfix.trans (text_infix_of_mem_lex listed))
  have piece : token.piece ∈ codePieces code.toList := by
    have pieces := lexFrom_code_eq (lexFrom_start .code code) closesNot
    change _ = codePieces code.toList at pieces
    rw [← pieces]
    exact List.mem_map_of_mem member
  obtain ⟨noTemplate, nonempty, opensNot⟩ := codePieces_isCode piece
  refine ⟨?_, ?_, closesNot token member, opensNot⟩
  · rw [Token.isFrame, Bool.or_eq_false_iff]
    refine ⟨noTemplate, ?_⟩
    rw [beq_eq_false_iff_ne]
    intro closes
    exact closesNot token member (codePieces_closeTag piece closes)
  · intro empty
    exact nonempty (String.toList_eq_nil_iff.mpr empty)

/-! ## Rules of code -/

/-- The rule has no captures, and reads and writes tokens of code. -/
structure Rule.IsCode (rule : Rule) : Prop where
  captureFree : rule.hasCaptures = false
  pattern : ∀ literal, .token literal ∈ rule.elements → literal.IsCode
  template : ∀ token, .token token ∈ rule.template → token.IsCode

theorem Pattern.parse_of_captureFree {text : String}
    (captureFree : (parse text).captures = []) :
    (parse text).elements = (lexCode text).map .token := by
  unfold parse at captureFree ⊢
  dsimp only at captureFree ⊢
  split
  · rfl
  · next marked =>
      rw [if_neg marked] at captureFree
      simp [numberedNames] at captureFree
      exact absurd captureFree (by simpa using marked)

theorem Rule.isCode_of_define {source : RuleSource} {rule : Rule}
    (defined : define source = .ok rule)
    (captureFree : rule.hasCaptures = false)
    (noTagRead : ¬ closeTagMark <:+: rule.pattern.toList)
    (noTagWritten : ¬ closeTagMark <:+: rule.replacement.toList) :
    rule.IsCode := by
  obtain ⟨elements, captures, template⟩ := define_eq_ok defined
  refine ⟨captureFree, ?_, ?_⟩
  · intro literal member
    have none : (Pattern.parse rule.pattern).captures = [] := by
      rw [← captures]
      simpa [hasCaptures] using captureFree
    rw [elements, Pattern.parse_of_captureFree none] at member
    obtain ⟨token, read, same⟩ := List.mem_map.mp member
    obtain rfl := PatternElement.token.inj same
    exact isCode_of_mem_lexCode noTagRead read
  · intro token member
    rw [template] at member
    obtain ⟨stretch, cut, read⟩ := exists_stretch_of_mem_parse member
    have part : stretch <:+: rule.replacement.toList := by
      apply Stretches.infix_of_mem_all _ cut
      intro text name behind marked
      exact ⟨_, (Mark.reference?_eq_some marked).symm⟩
    apply isCode_of_mem_lexCode _ read
    rw [String.toList_ofList]
    exact fun tagged => noTagWritten (tagged.trans part)

/-! ## What a rule matches -/

/-- The pattern is a single token with the text of the given one. -/
def Rule.matchesAlone (rule : Rule) (token : Token) : Bool :=
  match rule.elements with
  | [element] => element.accepts token
  | _ => false

/-- Template text or a tag that no rule matches alone. -/
def survives (rules : List Rule) (token : Token) : Bool :=
  token.isTemplate && !rules.any (·.matchesAlone token)

theorem PatternElement.exists_of_accepts {element : PatternElement}
    {token : Token} (accepted : element.accepts token = true) :
    ∃ literal, element = .token literal ∧ literal.text = token.text := by
  cases element with
  | token literal => exact ⟨literal, rfl, by simpa [accepts] using accepted⟩
  | placeholder index name => cases accepted

theorem Rule.candidate?_of_matchesAlone {rule : Rule} {token : Token}
    (captureFree : rule.hasCaptures = false)
    (alone : rule.matchesAlone token = true) (rest : List Token) :
    rule.candidate? (token :: rest) = some ⟨rule, [], 1⟩ := by
  unfold matchesAlone at alone
  split at alone
  · next element elements =>
      simp [candidate?, elements, alone, captureFree, acceptsAll]
  · cases alone

theorem Rule.IsCode.first {rule : Rule} (isCode : rule.IsCode) {first : Token}
    {rest : List Token} {candidate : Candidate}
    (found : rule.candidate? (first :: rest) = some candidate) :
    ∃ literal pattern, rule.elements = .token literal :: pattern ∧
      literal.text = first.text ∧ literal.IsCode := by
  obtain ⟨literal, pattern, _, _, elements, split, same⟩ :=
    Rule.candidate?_first found
  obtain ⟨rfl, rfl⟩ := List.cons.inj split
  refine ⟨literal, pattern, elements, same, ?_⟩
  apply isCode.pattern
  rw [elements]
  exact List.mem_cons_self

theorem Framed.cases_of_isCode {literal first : Token} {mode : Mode}
    {rest : List Token} (isCode : literal.IsCode)
    (same : literal.text = first.text) (framed : Framed mode (first :: rest))
    (shown : TagsShown (first :: rest)) :
    (first.isTemplate = false ∧ Framed .code rest) ∨
      (mode = .template ∧ Framed .code rest ∧
        ∀ next ∈ rest.head?, next.kind? = some .openTag) := by
  cases framed with
  | code plain _ later => exact .inl ⟨Token.isTemplate_eq_false plain, later⟩
  | close _ marked _ =>
      rw [← same] at marked
      exact absurd marked isCode.closesNot
  | tag opens _ =>
      have starts := shown first List.mem_cons_self opens
      rw [← same] at starts
      exact absurd starts isCode.opensNot
  | html _ _ opens later => exact .inr ⟨rfl, later, opens⟩

/-- A row of tokens of code matches within code only. -/
theorem Framed.drop_accepted {pattern : List PatternElement}
    {tokens : List Token}
    (code : ∀ literal, .token literal ∈ pattern → literal.IsCode)
    (framed : Framed .code tokens) (shown : TagsShown tokens)
    (accepted : acceptsAll pattern tokens = true) :
    Framed .code (tokens.drop pattern.length) ∧
      ∀ token ∈ tokens.take pattern.length, token.isTemplate = false := by
  induction pattern generalizing tokens with
  | nil => exact ⟨framed, fun token member => by cases member⟩
  | cons element pattern induction =>
      cases tokens with
      | nil => cases accepted
      | cons token tokens =>
          rw [acceptsAll, Bool.and_eq_true] at accepted
          obtain ⟨here, behind⟩ := accepted
          obtain ⟨literal, rfl, same⟩ := PatternElement.exists_of_accepts here
          have isCode := code literal List.mem_cons_self
          obtain ⟨plain, later⟩ :=
            (framed.cases_of_isCode isCode same shown).resolve_right
              fun html => Mode.noConfusion html.1
          obtain ⟨left, taken⟩ := induction
            (fun other member => code other (List.mem_cons_of_mem _ member))
            later (shown.of_subset (List.subset_cons_self token tokens)) behind
          exact ⟨left, List.forall_mem_cons.mpr ⟨plain, taken⟩⟩

/-- What a rule matches is code, or template text that it matches alone. -/
theorem Framed.candidate {rule : Rule} (isCode : rule.IsCode) {mode : Mode}
    {first : Token} {rest : List Token} (framed : Framed mode (first :: rest))
    (shown : TagsShown (first :: rest)) {candidate : Candidate}
    (found : rule.candidate? (first :: rest) = some candidate) :
    Framed .code (rest.drop (candidate.consumed - 1)) ∧
      ∀ token ∈ first :: rest.take (candidate.consumed - 1),
        token.isTemplate = true → rule.matchesAlone token = true := by
  obtain ⟨literal, pattern, elements, same, firstCode⟩ := isCode.first found
  rcases Rule.candidate?_cases found with ⟨capturing, _⟩ | ⟨_, accepted, rfl⟩
  · rw [isCode.captureFree] at capturing
    cases capturing
  rw [elements, acceptsAll, Bool.and_eq_true] at accepted
  have readsCode : ∀ literal, .token literal ∈ pattern → literal.IsCode := by
    intro other member
    apply isCode.pattern other
    rw [elements]
    exact List.mem_cons_of_mem _ member
  have shownBehind := shown.of_subset (List.subset_cons_self first rest)
  rw [elements, List.length_cons, Nat.add_sub_cancel]
  rcases framed.cases_of_isCode firstCode same shown with
    ⟨plain, later⟩ | ⟨_, later, opens⟩
  · obtain ⟨left, taken⟩ :=
      later.drop_accepted readsCode shownBehind accepted.2
    have notTemplate : ∀ token ∈ first :: rest.take pattern.length,
        token.isTemplate = false := List.forall_mem_cons.mpr ⟨plain, taken⟩
    refine ⟨left, ?_⟩
    intro token member template
    rw [notTemplate token member] at template
    cases template
  · -- a second token of the pattern would have to be the open tag
    cases pattern with
    | nil =>
        refine ⟨later, ?_⟩
        intro token member _
        obtain rfl := List.mem_singleton.mp member
        rw [Rule.matchesAlone, elements]
        exact accepted.1
    | cons element pattern =>
        exfalso
        cases rest with
        | nil => cases accepted.2
        | cons next rest =>
            rw [acceptsAll, Bool.and_eq_true] at accepted
            obtain ⟨second, rfl, sameNext⟩ :=
              PatternElement.exists_of_accepts accepted.2.1
            have starts := shownBehind next List.mem_cons_self (opens next rfl)
            rw [← sameNext] at starts
            exact (readsCode second List.mem_cons_self).opensNot starts

section

variable {rules : List Rule}

theorem exists_of_chosen? {first : Token} {rest : List Token}
    {candidate : Candidate}
    (chosen : chosen? rules false (first :: rest) = some candidate) :
    ∃ rule ∈ rules, rule.candidate? (first :: rest) = some candidate := by
  unfold chosen? at chosen
  split at chosen
  · next matched found =>
      obtain rfl := Option.some.inj chosen
      exact List.exists_of_findSome?_eq_some found
  · cases chosen

theorem matchesAlone_of_unmatched (code : ∀ rule ∈ rules, rule.IsCode)
    {first : Token} {rest : List Token}
    (unmatched : chosen? rules false (first :: rest) = none) :
    rules.any (·.matchesAlone first) = false := by
  rw [List.any_eq_false]
  intro rule member alone
  have applies := Rule.candidate?_of_matchesAlone
    (code rule member).captureFree alone rest
  unfold chosen? at unmatched
  split at unmatched
  · cases unmatched
  · next none =>
      rw [List.findSome?_eq_none_iff] at none
      rw [none rule member] at applies
      cases applies

theorem chosen?_of_tagStart (code : ∀ rule ∈ rules, rule.IsCode)
    {first : Token} (starts : tagStart <+: first.text.toList)
    (rest : List Token) : chosen? rules false (first :: rest) = none := by
  cases chosen : chosen? rules false (first :: rest) with
  | none => rfl
  | some candidate =>
      obtain ⟨rule, member, found⟩ := exists_of_chosen? chosen
      obtain ⟨literal, _, _, same, isCode⟩ := (code rule member).first found
      rw [← same] at starts
      exact absurd starts isCode.opensNot

/-! ## Passes -/

theorem Framed.append {mode : Mode} {front tokens : List Token}
    (code : ∀ token ∈ front, token.isFrame = false ∧ token.text ≠ "")
    (framed : Framed .code tokens) : Framed mode (front ++ tokens) := by
  induction front generalizing mode with
  | nil => exact framed.of_code
  | cons token front induction =>
      obtain ⟨plain, nonempty⟩ := code token List.mem_cons_self
      apply Framed.code plain nonempty
      apply induction
      intro other member
      exact code other (List.mem_cons_of_mem _ member)

theorem Rule.IsCode.written {rule : Rule} (isCode : rule.IsCode)
    {tokens : List Token} {candidate : Candidate}
    (found : rule.candidate? tokens = some candidate) :
    ∀ token ∈ instantiate candidate.rule.template candidate.captures,
      token.isFrame = false ∧ token.text ≠ "" := by
  rcases Rule.candidate?_cases found with ⟨capturing, _⟩ | ⟨_, _, rfl⟩
  · rw [isCode.captureFree] at capturing
    cases capturing
  intro token member
  rcases mem_instantiate member with copied | ⟨name, rfl⟩ | ⟨_, _, held, _⟩
  · have code := isCode.template token copied
    exact ⟨code.plain, code.nonempty⟩
  · refine ⟨rfl, ?_⟩
    intro empty
    have characters := congrArg String.toList empty
    simp [Token.text, referenceText] at characters
  · cases held

theorem head?_pass_of_openTag (code : ∀ rule ∈ rules, rule.IsCode)
    {tokens : List Token} (shown : TagsShown tokens)
    (opens : ∀ next ∈ tokens.head?, next.kind? = some .openTag) :
    ∀ next ∈ (pass rules false tokens).head?, next.kind? = some .openTag := by
  cases tokens with
  | nil =>
      rw [pass]
      exact opens
  | cons tag tokens =>
      have starts := shown tag List.mem_cons_self (opens tag rfl)
      rw [pass, chosen?_of_tagStart code starts]
      exact opens

/-- A pass keeps the frames, and drops no template text but what a rule matches
alone. -/
theorem Framed.pass (code : ∀ rule ∈ rules, rule.IsCode) {mode : Mode}
    {tokens : List Token} (framed : Framed mode tokens)
    (shown : TagsShown tokens) :
    Framed mode (pass rules false tokens) ∧
      (pass rules false tokens).filter Token.isTemplate =
        tokens.filter (survives rules) := by
  fun_induction TokenMacros.pass rules false tokens generalizing mode with
  | case1 => exact ⟨framed, rfl⟩
  | case2 first rest unmatched induction =>
      have keeps : survives rules first = first.isTemplate := by
        rw [survives, matchesAlone_of_unmatched code unmatched, Bool.not_false,
          Bool.and_true]
      have behind := shown.of_subset (List.subset_cons_self first rest)
      rw [List.filter_cons, List.filter_cons, keeps]
      cases framed with
      | code plain nonempty later =>
          obtain ⟨row, kept⟩ := induction later behind
          exact ⟨.code plain nonempty row, by rw [kept]⟩
      | close closes marked later =>
          obtain ⟨row, kept⟩ := induction later behind
          exact ⟨.close closes marked row, by rw [kept]⟩
      | tag opens later =>
          obtain ⟨row, kept⟩ := induction later behind
          exact ⟨.tag opens row, by rw [kept]⟩
      | html html nonempty opens later =>
          obtain ⟨row, kept⟩ := induction later behind
          refine ⟨.html html nonempty ?_ row, by rw [kept]⟩
          exact head?_pass_of_openTag code behind opens
  | case3 first rest candidate chosen induction =>
      obtain ⟨rule, member, found⟩ := exists_of_chosen? chosen
      have isCode := code rule member
      obtain ⟨left, taken⟩ := framed.candidate isCode shown found
      have written := isCode.written found
      have notTemplate : (instantiate candidate.rule.template
          candidate.captures).filter Token.isTemplate = [] := by
        rw [List.filter_eq_nil_iff]
        intro token listed
        rw [Token.isTemplate_eq_false (written token listed).1]
        exact Bool.false_ne_true
      have dropped : (first :: rest.take (candidate.consumed - 1)).filter
          (survives rules) = [] := by
        rw [List.filter_eq_nil_iff]
        intro token listed kept
        rw [survives, Bool.and_eq_true, Bool.not_eq_true'] at kept
        have alone := taken token listed kept.1
        have none := List.any_eq_false.mp kept.2 rule member
        exact none alone
      have subset : rest.drop (candidate.consumed - 1) ⊆ first :: rest :=
        List.subset_cons_of_subset first (List.drop_subset _ rest)
      obtain ⟨row, kept⟩ := induction left (shown.of_subset subset)
      refine ⟨row.append written, ?_⟩
      calc
        (instantiate candidate.rule.template candidate.captures ++
              TokenMacros.pass rules false
                (rest.drop (candidate.consumed - 1))).filter
              Token.isTemplate =
            (rest.drop (candidate.consumed - 1)).filter (survives rules) := by
          rw [List.filter_append, notTemplate, List.nil_append, kept]
        _ = (first :: (rest.take (candidate.consumed - 1) ++
              rest.drop (candidate.consumed - 1))).filter (survives rules) := by
          rw [← List.cons_append, List.filter_append, dropped, List.nil_append]
        _ = (first :: rest).filter (survives rules) := by
          rw [List.take_append_drop]

/-! ## Expansion -/

theorem filter_survives (rules : List Rule) (tokens : List Token) :
    tokens.filter (survives rules) =
      (tokens.filter Token.isTemplate).filter
        fun token => !rules.any (·.matchesAlone token) := by
  rw [List.filter_filter]
  apply List.filter_congr
  intro token _
  rw [survives, Bool.and_comm]

theorem filter_survives_of_eq {tokens tokens' : List Token}
    (kept : tokens'.filter Token.isTemplate = tokens.filter (survives rules)) :
    tokens'.filter (survives rules) = tokens.filter (survives rules) := by
  rw [filter_survives, kept, filter_survives, List.filter_filter]
  simp only [Bool.and_self]

theorem TagsShown.of_filter_eq {tokens tokens' : List Token}
    (shown : TagsShown tokens)
    (kept : tokens'.filter Token.isTemplate = tokens.filter (survives rules)) :
    TagsShown tokens' := by
  intro token member opens
  have template : token ∈ tokens'.filter Token.isTemplate :=
    List.mem_filter.mpr ⟨member, Token.isTemplate_of_openTag opens⟩
  rw [kept] at template
  exact shown token (List.mem_of_mem_filter template) opens

/-- After passes, the template text and tags are those that no rule matches
alone. -/
theorem Framed.passes (code : ∀ rule ∈ rules, rule.IsCode) {mode : Mode}
    {tokens : List Token} (framed : Framed mode tokens)
    (shown : TagsShown tokens) (count : Nat) :
    Framed mode (passes rules false (count + 1) tokens).1 ∧
      (passes rules false (count + 1) tokens).1.filter Token.isTemplate =
        tokens.filter (survives rules) := by
  induction count generalizing tokens with
  | zero => exact framed.pass code shown
  | succ count induction =>
      obtain ⟨row, kept⟩ := framed.pass code shown
      obtain ⟨last, keptLast⟩ := induction row (shown.of_filter_eq kept)
      exact ⟨last, keptLast.trans (filter_survives_of_eq kept)⟩

theorem Framed.rounds (code : ∀ rule ∈ rules, rule.IsCode)
    (some : rules ≠ []) {mode : Mode} {tokens : List Token}
    (framed : Framed mode tokens) (shown : TagsShown tokens) (limit : Nat) :
    (rounds rules false (limit + 1) tokens).tokens.filter Token.isTemplate =
      tokens.filter (survives rules) := by
  obtain ⟨count, length⟩ := Nat.exists_eq_add_one_of_ne_zero
    (List.length_eq_zero_iff.not.mpr some)
  induction limit generalizing tokens with
  | zero =>
      obtain ⟨row, kept⟩ := framed.passes code shown count
      rw [TokenMacros.rounds, round, length]
      dsimp only
      split
      · exact kept
      · exact kept
  | succ limit induction =>
      obtain ⟨row, kept⟩ := framed.passes code shown count
      rw [TokenMacros.rounds, round, length]
      dsimp only
      split
      · exact (induction row (shown.of_filter_eq kept)).trans
          (filter_survives_of_eq kept)
      · exact kept

theorem Framed.expandTokens (code : ∀ rule ∈ rules, rule.IsCode) {mode : Mode}
    {tokens : List Token} (framed : Framed mode tokens)
    (shown : TagsShown tokens) {limits : Limits}
    (noFallback : limits.singleTokenFallback = false) :
    (expandTokens rules limits tokens).tokens.filter Token.isTemplate =
      tokens.filter (survives rules) := by
  cases rules with
  | nil =>
      rw [filter_survives]
      exact (List.filter_eq_self.mpr fun _ _ => rfl).symm
  | cons rule rules =>
      obtain ⟨limit, positive⟩ :=
        Nat.exists_eq_add_one_of_ne_zero limits.maxIterations_pos.ne'
      rw [TokenMacros.expandTokens, if_neg (by simp), noFallback, positive]
      exact framed.rounds code (List.cons_ne_nil rule rules) shown limit

end

/-- Which template text and tags an expansion by rules without captures keeps:
all but the template text that a rule matches alone. -/
theorem expandSource_template {source : String} {rules : List Rule}
    {limits : Limits} (template : sourceMode source = .template)
    (defined : ∀ rule ∈ rules, ∃ source, Rule.define source = .ok rule)
    (captureFree : ∀ rule ∈ rules, rule.hasCaptures = false)
    (noTagRead : ∀ rule ∈ rules, ¬ closeTagMark <:+: rule.pattern.toList)
    (noTagWritten : ∀ rule ∈ rules,
      ¬ closeTagMark <:+: rule.replacement.toList)
    (noFallback : limits.singleTokenFallback = false)
    (shown : TagsShown (lex .template source)) :
    let present := (lex .template source).filter Token.isTemplate
    let kept :=
      (expandSource rules limits source).tokens.filter Token.isTemplate
    kept = present.filter (fun token => !rules.any (·.matchesAlone token)) ∧
      (texts kept = texts present ↔
        ∀ rule ∈ rules, ∀ token ∈ lex .template source,
          token.kind? = some .inlineHtml →
            rule.matchesAlone token = false) := by
  intro present kept
  have code : ∀ rule ∈ rules, rule.IsCode := by
    intro rule member
    obtain ⟨origin, success⟩ := defined rule member
    exact Rule.isCode_of_define success (captureFree rule member)
      (noTagRead rule member) (noTagWritten rule member)
  have survivors : kept =
      present.filter fun token => !rules.any (·.matchesAlone token) := by
    rw [← filter_survives]
    change (TokenMacros.expandTokens rules limits
      (lex (sourceMode source) source)).tokens.filter _ = _
    rw [template]
    exact (lex_framed .template source).expandTokens code shown noFallback
  refine ⟨survivors, ?_⟩
  rw [survivors]
  constructor
  · intro same rule member token listed html
    have length := congrArg List.length same
    rw [texts, texts, List.length_map, List.length_map] at length
    have all := List.filter_eq_self.mp
      (List.filter_sublist.eq_of_length length)
    have isPresent : token ∈ present :=
      List.mem_filter.mpr ⟨listed, Token.isTemplate_of_inlineHtml html⟩
    have unmatched := all token isPresent
    rw [Bool.not_eq_true', List.any_eq_false] at unmatched
    exact eq_false_of_ne_true (unmatched rule member)
  · intro unmatched
    congr 1
    rw [List.filter_eq_self]
    intro token isPresent
    rw [Bool.not_eq_true', List.any_eq_false]
    intro rule member
    obtain ⟨listed, isTemplate⟩ := List.mem_filter.mp isPresent
    rcases Token.kind_of_isTemplate isTemplate with opens | html
    · intro alone
      have isCode := code rule member
      obtain ⟨literal, _, _, same, literalCode⟩ := isCode.first
        (Rule.candidate?_of_matchesAlone isCode.captureFree alone [])
      have starts := shown token listed opens
      rw [← same] at starts
      exact literalCode.opensNot starts
    · rw [unmatched rule member token listed html]
      exact Bool.false_ne_true

/-- Template text that contains a pattern is kept. -/
theorem expandSource_template_renaming :
    let source := " <?php x; ?> x <?= x"
    let rules := rulesOf [("x", "y"), ("y", "z")]
    sourceMode source = .template ∧
      (∀ rule ∈ rules, rule.hasCaptures = false) ∧
      (∀ rule ∈ rules, ¬ closeTagMark <:+: rule.pattern.toList) ∧
      (∀ rule ∈ rules, ¬ closeTagMark <:+: rule.replacement.toList) ∧
      TagsShown (lex .template source) ∧
      texts ((expandSource rules { } source).tokens.filter Token.isTemplate) =
        texts ((lex .template source).filter Token.isTemplate) := by
  intro source rules
  have template : sourceMode source = .template := by decide +kernel
  have captureFree : ∀ rule ∈ rules, rule.hasCaptures = false := by
    decide +kernel
  have noTagRead : ∀ rule ∈ rules, ¬ closeTagMark <:+: rule.pattern.toList := by
    decide +kernel
  have noTagWritten : ∀ rule ∈ rules,
      ¬ closeTagMark <:+: rule.replacement.toList := by
    decide +kernel
  have shown : TagsShown (lex .template source) :=
    tagsShown_of_inPlace (by decide)
  refine ⟨template, captureFree, noTagRead, noTagWritten, shown, ?_⟩
  apply (expandSource_template template (rulesOf_defined _) captureFree
    noTagRead noTagWritten rfl shown).2.mpr
  decide +kernel

/-- Template text that is a pattern is replaced, and so is an open tag that is
cut out of the source in the wrong place. -/
theorem expandSource_template_lost :
    let renamed := rulesOf [("x", "y")]
    let quoted := rulesOf [("\"abc\"", "y")]
    ((expandSource renamed { } "<?php a ?>x").text = "<?php a ?>y" ∧
      texts ((lex .template "<?php a ?>x").filter Token.isTemplate) =
        ["<?php ", "x"] ∧
      texts ((expandSource renamed { } "<?php a ?>x").tokens.filter
        Token.isTemplate) = ["<?php "]) ∧
    texts ((lex .template "<?php ?>İİİİİİ<?php \"abc\";").filter
        Token.isTemplate) = ["<?php ", "İİİİİİ<?php ", "\"abc\""] ∧
      texts ((expandSource quoted { }
        "<?php ?>İİİİİİ<?php \"abc\";").tokens.filter Token.isTemplate) =
          ["<?php ", "İİİİİİ<?php "] := by
  decide +kernel

end TokenMacros
