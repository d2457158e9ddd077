import TokenMacros.Proofs.CaptureMarks
import TokenMacros.Proofs.DefinitionLines
import TokenMacros.Proofs.PlainInstances
import TokenMacros.Proofs.PriorityOrder
import TokenMacros.Proofs.RoundLimits

/-!
# Rules on their own patterns

A pattern without captures is code, and so is the text of the pattern when it is
expanded as a source.  The rule then matches the whole source, and as it has
captured nothing, it writes its replacement as it is spelled.
-/

namespace TokenMacros

/-! ## Replacements as they are spelled -/

namespace Stretches

/-- The text of the stretches, with marks written between them. -/
def spelled (written : List Char → List Char) (stretches : Stretches) :
    List Char :=
  stretches.lead ++
    stretches.marked.flatMap fun (name, stretch) => written name ++ stretch

/-- Where a mark is read as it is written, cutting a text loses nothing. -/
theorem spelled_cut {mark? : List Char → Option (List Char × List Char)}
    (written : List Char → List Char)
    (reads : ∀ text name behind, mark? text = some (name, behind) →
      text = written name ++ behind) (text : List Char) :
    (cut mark? text).spelled written = text := by
  fun_induction cut mark? text with
  | case1 => rfl
  | case2 c rest name behind marked shorter stretches induction =>
      rw [reads _ _ _ marked]
      calc
        spelled written
              ⟨[], (name, stretches.lead) :: stretches.marked⟩ =
            written name ++ stretches.spelled written := by
          simp [spelled]
        _ = written name ++ behind := by rw [induction]
  | case3 c rest name behind marked longer stretches induction =>
      exact congrArg (c :: ·) induction
  | case4 c rest unmarked stretches induction =>
      exact congrArg (c :: ·) induction

end Stretches

namespace Token

theorem render_append (left right : List Token) :
    render (left ++ right) = render left ++ render right := by
  induction left with
  | nil => simp
  | cons token left induction =>
      rw [List.cons_append, render_cons, render_cons, induction,
        String.append_assoc]

end Token

theorem plainInstance_append (captures : Captures)
    (left right : List ReplacementElement) :
    plainInstance (left ++ right) captures =
      plainInstance left captures ++ plainInstance right captures :=
  List.flatMap_append

theorem plainInstance_tokens (captures : Captures) (tokens : List Token) :
    plainInstance (tokens.map .token) captures = tokens := by
  induction tokens with
  | nil => rfl
  | cons token tokens induction =>
      rw [List.map_cons, plainInstance_cons, induction]
      rfl

theorem render_codeElements (stretch : List Char) :
    Token.render (plainInstance (Replacement.codeElements stretch) []) =
      String.ofList stretch := by
  rw [Replacement.codeElements, plainInstance_tokens, lexCode, render_lex]

/-- Where nothing was captured, a replacement is written as it is spelled. -/
theorem render_instantiate_nothing (replacement : String) :
    Token.render (instantiate (Replacement.parse replacement) []) =
      replacement := by
  have cutText := Stretches.spelled_cut
    (fun name => ['$', '('] ++ name ++ [')'])
    (fun _ _ _ => Mark.reference?_eq_some) replacement.toList
  have marked (marks : List (List Char × List Char)) :
      (Token.render (plainInstance
        (marks.flatMap fun (name, stretch) =>
          .reference (String.ofList name) ::
            Replacement.codeElements stretch) [])).toList =
        marks.flatMap fun (name, stretch) =>
          ['$', '('] ++ name ++ [')'] ++ stretch := by
    induction marks with
    | nil => rfl
    | cons mark marks induction =>
        obtain ⟨name, stretch⟩ := mark
        simp only [List.flatMap_cons, List.cons_append, plainInstance_cons,
          plainInstance_append, Token.render_append, render_codeElements,
          String.toList_append, induction, ReplacementElement.plain]
        simp [Captures.find?, Token.text, referenceText]
  have nothing : Captures.Trimmed [] := by
    simp [Captures.Trimmed, Captures.find?]
  apply String.toList_inj.mp
  rw [instantiate_of_trimmed nothing, Replacement.parse, plainInstance_append,
    Token.render_append, String.toList_append, render_codeElements,
    String.toList_ofList, marked]
  exact cutText

/-! ## Patterns without captures -/

theorem IsCapture.begins {name written : List Char}
    (capture : IsCapture name written) : "$(layer()".toList <+: written := by
  obtain ⟨before, after, _, _, _, rfl⟩ := capture
  simp only [List.append_assoc]
  exact List.prefix_append _ _

theorem CutAtCaptures.marked_eq_nil {text : List Char} {stretches : Stretches}
    (isCut : CutAtCaptures text stretches)
    (captureFree : ∀ name written, IsCapture name written →
      ¬ written <:+: text) : stretches.marked = [] := by
  induction isCut with
  | nil => rfl
  | @capture name written rest behind capture _ _ =>
      exact absurd (List.prefix_append written rest).isInfix
        (captureFree name written capture)
  | skip _ _ induction =>
      apply induction
      intro name written capture inRest
      exact captureFree name written capture (List.infix_cons inRest)

theorem Pattern.parse_of_no_capture {text : String}
    (captureFree : ∀ name written, IsCapture name written →
      ¬ written <:+: text.toList) :
    parse text = ⟨(lexCode text).map .token, []⟩ := by
  have unmarked := (cut_capture? text.toList).marked_eq_nil captureFree
  rw [parse, unmarked]
  rfl

theorem lexCode_ne_nil {code : String} (some : code ≠ "") :
    lexCode code ≠ [] := by
  intro none
  have spelled : Token.render (lexCode code) = code := render_lex .code code
  rw [none] at spelled
  exact some spelled.symm

theorem acceptsAll_tokens (tokens : List Token) :
    acceptsAll (tokens.map .token) tokens = true := by
  induction tokens with
  | nil => rfl
  | cons token tokens induction =>
      simp [acceptsAll, PatternElement.accepts, induction]

/-- A rule whose pattern is a row of tokens matches these tokens. -/
theorem Rule.candidate?_ownTokens {rule : Rule} {tokens : List Token}
    (some : tokens ≠ []) (elements : rule.elements = tokens.map .token)
    (captures : rule.captures = []) :
    rule.candidate? tokens = Option.some ⟨rule, [], tokens.length⟩ := by
  obtain ⟨token, rest, rfl⟩ := List.exists_cons_of_ne_nil some
  have accepted := acceptsAll_tokens (token :: rest)
  rw [List.map_cons] at elements accepted
  simp [candidate?, hasCaptures, elements, captures, accepted,
    PatternElement.accepts]

/-! ## One round -/

theorem pass_of_whole {rule : Rule} {fallback : Bool} {tokens : List Token}
    (some : tokens ≠ [])
    (matched : rule.candidate? tokens = Option.some ⟨rule, [], tokens.length⟩) :
    pass [rule] fallback tokens = instantiate rule.template [] := by
  obtain ⟨token, rest, rfl⟩ := List.exists_cons_of_ne_nil some
  have chosen : chosen? [rule] fallback (token :: rest) =
      Option.some ⟨rule, [], (token :: rest).length⟩ := by
    rw [chosen?, List.findSome?_cons, matched]
  rw [pass, chosen]
  simp only [List.length_cons, Nat.add_sub_cancel, List.drop_length]
  rw [pass, List.append_nil]

theorem expandTokens_of_one (rule : Rule) (fallback : Bool)
    (tokens : List Token) :
    let outcome := expandTokens [rule]
      { maxIterations := 1, singleTokenFallback := fallback } tokens
    outcome.tokens = pass [rule] fallback tokens ∧ outcome.iterations = 1 := by
  intro outcome
  have expanded : outcome = rounds [rule] fallback 1 tokens := rfl
  rcases first : round [rule] fallback tokens with ⟨result, changed⟩
  have passed : result = pass [rule] fallback tokens :=
    (congrArg Prod.fst first).symm
  rw [expanded, ← passed]
  cases changed with
  | true =>
      rw [rounds_of_changed first]
      exact ⟨rfl, rfl⟩
  | false =>
      rw [rounds_of_unchanged first]
      exact ⟨rfl, rfl⟩

/-- A rule without captures turns its own pattern into its replacement.  The
pattern must not be read as a template; its text may be of any other form, and
the references of the replacement stay as they are written. -/
theorem expandSource_ownPattern {pattern : String} (some : pattern ≠ "")
    (captureFree : ∀ name written, IsCapture name written →
      ¬ written <:+: pattern.toList)
    (code : ¬ openTagMark <+: Text.lower (Text.trimLeft pattern.toList))
    (replacement : String) (fallback : Bool) :
    ∃ rule, Rule.define { pattern, replacement } = .ok rule ∧
      let outcome := expandSource (RuleBook.ofRules [rule]).serve.1
        { maxIterations := 1, singleTokenFallback := fallback } pattern
      outcome.text = replacement ∧ outcome.iterations = 1 := by
  have parsed := Pattern.parse_of_no_capture captureFree
  have tokens : lexCode pattern ≠ [] := lexCode_ne_nil some
  have opens : (Pattern.parse pattern).Opens := by
    obtain ⟨token, rest, split⟩ := List.exists_cons_of_ne_nil tokens
    simp [Pattern.Opens, parsed, split]
  obtain ⟨rule, elements, captures, template, defined⟩ :
      ∃ rule : Rule, rule.elements = (lexCode pattern).map .token ∧
        rule.captures = [] ∧ rule.template = Replacement.parse replacement ∧
        Rule.define { pattern, replacement } = .ok rule :=
    ⟨_, congrArg Pattern.elements parsed, congrArg Pattern.captures parsed, rfl,
      Rule.define_eq_ok_iff.mpr ⟨opens, rfl⟩⟩
  refine ⟨rule, defined, ?_⟩
  intro outcome
  have served : (RuleBook.ofRules [rule]).serve.1 = [rule] := by
    apply RuleBook.serve_ofRules_singleton
    simpa [elements] using tokens
  have asCode : sourceMode pattern = .code := by
    rw [sourceMode, if_neg]
    rwa [beginsWith, List.isPrefixOf_iff_prefix]
  obtain ⟨passed, iterations⟩ :=
    expandTokens_of_one rule fallback (lexCode pattern)
  have expanded : outcome = expandTokens [rule]
      { maxIterations := 1, singleTokenFallback := fallback }
      (lexCode pattern) := by
    simp only [outcome, expandSource, served, asCode, lexCode]
  refine ⟨?_, expanded ▸ iterations⟩
  calc
    outcome.text = Token.render (pass [rule] fallback (lexCode pattern)) := by
      rw [Outcome.text, expanded, passed]
    _ = Token.render (instantiate (Replacement.parse replacement) []) := by
      rw [pass_of_whole tokens
        (Rule.candidate?_ownTokens tokens elements captures), template]
    _ = replacement := render_instantiate_nothing replacement

/-- A pattern with a capture that does not close, behind a closing tag and in
front of a string without an end. -/
theorem expandSource_ownPattern_unclosed :
    let pattern := " use ?>/* $(a) */ $(layer(a) as b) 'open"
    let replacement := "$(a)$(b) // $(c)?>\n\""
    ∃ rule, Rule.define { pattern, replacement } = .ok rule ∧
      let outcome := expandSource (RuleBook.ofRules [rule]).serve.1
        { maxIterations := 1, singleTokenFallback := true } pattern
      outcome.text = replacement ∧ outcome.iterations = 1 := by
  intro pattern replacement
  have unopened : ¬ "$(layer()".toList <:+: pattern.toList := by
    decide
  refine expandSource_ownPattern (by decide) ?_ (by decide) replacement true
  intro _ _ capture inPattern
  exact unopened (capture.begins.isInfix.trans inPattern)

end TokenMacros
