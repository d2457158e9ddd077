import TokenMacros.Proofs.PatternDecomposition

/-!
# Matching what a pattern writes

A pattern is written out by putting assigned tokens in the place of its
placeholders and tokens of the same text in the place of its literals, with
trivia where the walk passes over it.  If the assigned tokens do not hide where
they end, the walk recovers them from the text, whatever stands around it.
-/

namespace TokenMacros

/-- The assigned tokens end where what follows the placeholder begins.  Behind
the last placeholder nothing follows; there must only be something to capture.
-/
def Suits (captured : List Token) : (following : Option PatternElement) → Prop
  | none => captured ≠ []
  | some (.placeholder ..) => False
  | some (.token literal) =>
    match opening? literal.text with
    | some opening => Balanced opening literal.text captured
    | none =>
      (∀ token ∈ captured, token.text ≠ literal.text) ∧
        ∀ first ∈ captured.head?, first.isTrivia = false

instance (captured : List Token) : (following : Option PatternElement) →
    Decidable (Suits captured following)
  | none => inferInstanceAs (Decidable (captured ≠ []))
  | some (.placeholder ..) => inferInstanceAs (Decidable False)
  | some (.token literal) =>
    match pair : opening? literal.text with
    | some opening =>
      decidable_of_iff (Balanced opening literal.text captured)
        (by simp only [Suits, pair])
    | none =>
      decidable_of_iff ((∀ token ∈ captured, token.text ≠ literal.text) ∧
        ∀ first ∈ captured.head?, first.isTrivia = false)
        (by simp only [Suits, pair])

/-- Every placeholder of the pattern is assigned tokens that suit what follows
it. -/
def Admissible (assigned : String → List Token) : List PatternElement → Prop
  | [] => True
  | .token _ :: pattern => Admissible assigned pattern
  | .placeholder _ name :: pattern =>
    Suits (assigned name) pattern.head? ∧ Admissible assigned pattern

instance (assigned : String → List Token) : (pattern : List PatternElement) →
    Decidable (Admissible assigned pattern)
  | [] => inferInstanceAs (Decidable True)
  | .token _ :: pattern =>
    have := instDecidableAdmissible assigned pattern
    inferInstanceAs (Decidable (Admissible assigned pattern))
  | .placeholder _ name :: pattern =>
    have := instDecidableAdmissible assigned pattern
    inferInstanceAs
      (Decidable (Suits (assigned name) pattern.head? ∧
        Admissible assigned pattern))

/-- The pattern written out under an assignment.  Trivia may stand in front of a
literal that follows a literal, unless it is a single space, and in front of a
placeholder that a literal other than a closing delimiter follows. -/
inductive WrittenOut (assigned : String → List Token) :
    (afterLiteral : Bool) → List PatternElement → List Token → Prop where
  | done {afterLiteral : Bool} : WrittenOut assigned afterLiteral [] []
  | literal {afterLiteral : Bool} {expected actual : Token}
      {skipped written : List Token} {pattern : List PatternElement} :
      AllTrivia skipped →
      (skipped ≠ [] → afterLiteral = true ∧ expected.text ≠ " ") →
      actual.isTrivia = false →
      actual.text = expected.text →
      WrittenOut assigned true pattern written →
      WrittenOut assigned afterLiteral (.token expected :: pattern)
        (skipped ++ actual :: written)
  | capture {afterLiteral : Bool} {index : Nat} {name : String}
      {skipped written : List Token} {pattern : List PatternElement} :
      AllTrivia skipped →
      (skipped ≠ [] → ∃ literal, pattern.head? = some (.token literal) ∧
        opening? literal.text = none) →
      WrittenOut assigned false pattern written →
      WrittenOut assigned afterLiteral (.placeholder index name :: pattern)
        (skipped ++ assigned name ++ written)

/-! ## Steps of the walk -/

theorem skipTrivia_append {skipped rest : List Token}
    (trivia : AllTrivia skipped)
    (meaningful : ∀ first ∈ rest.head?, first.isTrivia = false) :
    skipTrivia (skipped ++ rest) = rest := by
  rw [skipTrivia, List.dropWhile_append_of_pos trivia]
  cases rest with
  | nil => rfl
  | cons first rest =>
      have notTrivia := meaningful first rfl
      rw [List.dropWhile_cons_of_neg (by simp [notTrivia])]

theorem walk_literal {expected actual : Token} {skipped : List Token}
    (rest : List Token) (pattern : List PatternElement) (captures : Captures)
    (trivia : AllTrivia skipped) (spaced : skipped ≠ [] → expected.text ≠ " ")
    (meaningful : actual.isTrivia = false)
    (same : actual.text = expected.text) :
    walk (.token expected :: pattern) (skipped ++ actual :: rest) captures =
      walk pattern rest captures := by
  have passed : skipTrivia (skipped ++ actual :: rest) = actual :: rest :=
    skipTrivia_append trivia (by simp [meaningful])
  have input : (if expected.text = " " then skipped ++ actual :: rest
      else skipTrivia (skipped ++ actual :: rest)) = actual :: rest := by
    rw [passed]
    split
    · next space =>
        have nothing : skipped = [] := by
          by_contra something
          exact spaced something space
        rw [nothing, List.nil_append]
    · rfl
  obtain ⟨token, tokens, shape⟩ := List.exists_cons_of_ne_nil
    (show skipped ++ actual :: rest ≠ [] by simp)
  rw [shape] at input ⊢
  simp only [walk, input, if_pos same.symm]

theorem walk_balanced {index : Nat} {name opening : String}
    {closing closer : Token} {captured rest : List Token}
    {pattern : List PatternElement} {captures : Captures}
    (pair : opening? closing.text = some opening)
    (balanced : Balanced opening closing.text captured)
    (closes : closer.text = closing.text) :
    walk (.placeholder index name :: .token closing :: pattern)
        (captured ++ closer :: rest) captures =
      walk pattern rest (captures.bind name captured) := by
  have settled : occurrences closing.text captured =
      0 + occurrences opening captured := by
    rw [balanced.settled, Nat.zero_add]
  have taken :
      balancedRun opening closing.text 0 (captured ++ closer :: rest) =
        captured :=
    balancedRun_append (opening?_ne pair) balanced.covers settled closes
  obtain ⟨token, tokens, shape⟩ := List.exists_cons_of_ne_nil
    (show captured ++ closer :: rest ≠ [] by simp)
  have behind : (token :: tokens).drop captured.length = closer :: rest := by
    rw [← shape, List.drop_left]
  rw [shape] at taken ⊢
  simp only [walk, PatternElement.text, pair, taken, behind]

theorem walk_upTo {index : Nat} {name : String} {terminator actual : Token}
    {skipped captured rest : List Token} {pattern : List PatternElement}
    {captures : Captures} (notClosing : opening? terminator.text = none)
    (trivia : AllTrivia skipped)
    (free : ∀ token ∈ captured, token.text ≠ terminator.text)
    (begins : ∀ first ∈ captured.head?, first.isTrivia = false)
    (meaningful : actual.isTrivia = false)
    (same : actual.text = terminator.text) :
    walk (.placeholder index name :: .token terminator :: pattern)
        (skipped ++ captured ++ actual :: rest) captures =
      walk (.token terminator :: pattern) (actual :: rest)
        (captures.bind name captured) := by
  have passed : skipTrivia (skipped ++ captured ++ actual :: rest) =
      captured ++ actual :: rest := by
    rw [List.append_assoc]
    apply skipTrivia_append trivia
    cases captured with
    | nil => simp [meaningful]
    | cons first captured => simpa using begins
  have taken : (captured ++ actual :: rest).takeWhile
      (fun token => !(PatternElement.token terminator).accepts token) =
        captured := by
    rw [List.takeWhile_append_of_pos]
    · simp [PatternElement.accepts, same]
    · intro token member
      have different : terminator.text ≠ token.text := (free token member).symm
      simp [PatternElement.accepts, different]
  obtain ⟨token, tokens, shape⟩ := List.exists_cons_of_ne_nil
    (show skipped ++ captured ++ actual :: rest ≠ [] by simp)
  rw [shape] at passed ⊢
  simp only [walk, PatternElement.text, notClosing, passed, taken,
    List.drop_left]

theorem walk_trailing (index : Nat) (name : String) {captured : List Token}
    (captures : Captures) (something : captured ≠ []) :
    walk [.placeholder index name] captured captures =
      some (captures.bind name captured, []) := by
  obtain ⟨token, tokens, rfl⟩ := List.exists_cons_of_ne_nil something
  rfl

theorem WrittenOut.begins {assigned : String → List Token} {literal : Token}
    {pattern : List PatternElement} {window : List Token}
    (written : WrittenOut assigned false (.token literal :: pattern) window) :
    ∃ actual behind, window = actual :: behind ∧ actual.isTrivia = false ∧
      actual.text = literal.text := by
  cases written with
  | @literal _ _ actual skipped behind _ _ allowed meaningful same _ =>
      have nothingSkipped : skipped = [] := by
        by_contra something
        simpa using (allowed something).1
      refine ⟨actual, behind, ?_, meaningful, same⟩
      rw [nothingSkipped, List.nil_append]

/-- The pattern ends with a placeholder, which captures all that is left. -/
def EndsWithCapture (pattern : List PatternElement) : Prop :=
  ∃ index name, pattern.getLast? = some (.placeholder index name)

theorem EndsWithCapture.cons {pattern : List PatternElement}
    (ends : EndsWithCapture pattern) (element : PatternElement) :
    EndsWithCapture (element :: pattern) := by
  obtain ⟨index, name, last⟩ := ends
  exact ⟨index, name, by rw [List.getLast?_cons, last]; rfl⟩

/-- One step over a placeholder: the walk binds what is assigned and goes on
behind it. -/
theorem walk_capture {assigned : String → List Token} {index : Nat}
    {name : String} {pattern : List PatternElement}
    {skipped written right : List Token} {captures : Captures}
    (trivia : AllTrivia skipped)
    (allowed : skipped ≠ [] → ∃ literal, pattern.head? = some (.token literal) ∧
      opening? literal.text = none)
    (later : WrittenOut assigned false pattern written)
    (suits : Suits (assigned name) pattern.head?)
    (closed :
      EndsWithCapture (.placeholder index name :: pattern) → right = []) :
    walk (.placeholder index name :: pattern)
        (skipped ++ assigned name ++ written ++ right) captures =
      walk pattern (written ++ right) (captures.bind name (assigned name)) := by
  cases pattern with
  | nil =>
      have nothingSkipped : skipped = [] := by
        by_contra something
        simpa using allowed something
      have nothingBehind : right = [] := closed ⟨index, name, rfl⟩
      cases later
      subst nothingSkipped nothingBehind
      simpa [walk] using walk_trailing index name captures suits
  | cons following pattern =>
      cases following with
      | placeholder => exact suits.elim
      | token literal =>
          obtain ⟨actual, behind, rfl, meaningful, same⟩ := later.begins
          cases pair : opening? literal.text with
          | some opening =>
              have balanced :
                  Balanced opening literal.text (assigned name) := by
                simpa [Suits, pair] using suits
              have nothingSkipped : skipped = [] := by
                by_contra something
                obtain ⟨next, isNext, notClosing⟩ := allowed something
                obtain rfl : literal = next := by simpa using isNext
                rw [pair] at notClosing
                cases notClosing
              -- the walk takes the delimiter together with the capture
              have matched :
                  walk (.token literal :: pattern) (actual :: (behind ++ right))
                      (captures.bind name (assigned name)) =
                    walk pattern (behind ++ right)
                      (captures.bind name (assigned name)) :=
                walk_literal _ pattern _ allTrivia_nil (absurd rfl)
                  meaningful same
              rw [List.cons_append, matched, nothingSkipped, List.nil_append,
                List.append_assoc, List.cons_append]
              exact walk_balanced pair balanced same
          | none =>
              have free : (∀ token ∈ assigned name, token.text ≠ literal.text) ∧
                  ∀ first ∈ (assigned name).head?, first.isTrivia = false := by
                simpa [Suits, pair] using suits
              rw [List.append_assoc, List.cons_append]
              exact walk_upTo pair trivia free.1 free.2 meaningful same

/-- The walk recovers an admissible assignment from the pattern written out
under it. -/
theorem walk_writtenOut {assigned : String → List Token} {afterLiteral : Bool}
    {pattern : List PatternElement} {window right : List Token}
    (captures : Captures)
    (written : WrittenOut assigned afterLiteral pattern window)
    (admissible : Admissible assigned pattern)
    (closed : EndsWithCapture pattern → right = []) :
    walk pattern (window ++ right) captures =
      some (captures.bindAll
        ((captureNames pattern).map fun name => (name, assigned name)),
        right) := by
  induction written generalizing captures with
  | done => cases right <;> rfl
  | @literal afterLiteral expected actual skipped written pattern trivia allowed
      meaningful same _ induction =>
      rw [List.append_assoc, List.cons_append,
        walk_literal _ _ _ trivia (fun something => (allowed something).2)
          meaningful same]
      exact induction captures admissible fun ends => closed (ends.cons _)
  | @capture afterLiteral index name skipped written pattern trivia allowed
      later induction =>
      obtain ⟨suits, laterAdmissible⟩ := admissible
      rw [walk_capture trivia allowed later suits closed]
      exact induction _ laterAdmissible fun ends => closed (ends.cons _)

namespace Captures

/-- After binding every name to what is assigned to it, the table is the
assignment. -/
theorem find?_bindAll_assigned (captures : Captures)
    (assigned : String → List Token) (names : List String) (asked : String) :
    (captures.bindAll (names.map fun name => (name, assigned name))).find?
        asked =
      if asked ∈ names then some (assigned asked)
      else captures.find? asked := by
  induction names generalizing captures with
  | nil => simp
  | cons name names induction =>
      rw [List.map_cons, bindAll_cons, induction, find?_bind]
      by_cases later : asked ∈ names
      · simp [later]
      · by_cases here : asked = name
        · simp [here]
        · simp [later, here]

end Captures

namespace Rule

theorem elements_of_define {source : RuleSource} {rule : Rule}
    (defined : define source = .ok rule) :
    ∃ literal pattern, rule.elements = .token literal :: pattern := by
  unfold define at defined
  dsimp only at defined
  split at defined
  · cases defined
  · cases defined
  · next literal pattern elements =>
      obtain rfl := Except.ok.inj defined
      exact ⟨literal, pattern, elements⟩

end Rule

/-- A pattern with captures written out under an admissible assignment is
matched where it stands, by one candidate that takes exactly the written tokens
and captures exactly the assignment.  The tokens in front are arbitrary; those
behind are too, unless the pattern ends with a placeholder, which would capture
them. -/
theorem candidatesAt_writtenOut {source : RuleSource} {rule : Rule}
    {assigned : String → List Token} {left window right : List Token}
    (defined : Rule.define source = .ok rule)
    (capturing : rule.hasCaptures = true)
    (admissible : Admissible assigned rule.elements)
    (written : WrittenOut assigned false rule.elements window)
    (closed : EndsWithCapture rule.elements → right = []) :
    ∃ captures,
      candidatesAt [rule] (left ++ window ++ right) left.length =
        [⟨rule, captures, window.length⟩] ∧
      ∀ name, captures.find? name =
        if name ∈ captureNames rule.elements then some (assigned name)
        else none := by
  obtain ⟨literal, pattern, elements⟩ := Rule.elements_of_define defined
  have walked := walk_writtenOut [] written admissible closed
  refine ⟨_, ?_,
    Captures.find?_bindAll_assigned [] assigned (captureNames rule.elements)⟩
  rw [elements] at written
  obtain ⟨actual, behind, rfl, _, same⟩ := written.begins
  have candidate :=
    Rule.candidate?_eq_walk (behind ++ right) elements same.symm capturing
  rw [← List.cons_append, walked] at candidate
  have position :
      (left ++ (actual :: behind) ++ right).drop (left.length : Int).toNat =
        actual :: behind ++ right := by
    rw [Int.toNat_natCast, List.append_assoc, List.drop_left]
  rw [candidatesAt, if_pos (Int.natCast_nonneg _), position, candidates,
    List.filterMap_cons, candidate, List.filterMap_nil]
  have taken : (actual :: behind ++ right).length - right.length =
      (actual :: behind).length := by
    rw [List.length_append, Nat.add_sub_cancel]
  simp only [Option.map_some, taken]

/-- A binding for each name that `letRule` captures. -/
def letAssignment (name : String) : List Token :=
  match name with
  | "name" => lexCode "$a "
  | "value" => lexCode "f(1)"
  | _ => lexCode " g();"

theorem candidatesAt_writtenOut_let :
    let left := lexCode "x; "
    let window := lexCode "let $a = /* no */ (f(1)) in g();"
    Rule.define letSource = .ok letRule ∧ letRule.hasCaptures = true ∧
      Admissible letAssignment letRule.elements ∧
      WrittenOut letAssignment false letRule.elements window ∧
      (EndsWithCapture letRule.elements → ([] : List Token) = []) ∧
      ∃ captures,
        candidatesAt [letRule] (left ++ window ++ []) left.length =
          [⟨letRule, captures, window.length⟩] ∧
        ∀ name, captures.find? name =
          if name ∈ captureNames letRule.elements then some (letAssignment name)
          else none := by
  intro left window
  have defined : Rule.define letSource = .ok letRule := by decide +kernel
  have capturing : letRule.hasCaptures = true := by decide +kernel
  have admissible : Admissible letAssignment letRule.elements := by
    decide +kernel
  have written : WrittenOut letAssignment false letRule.elements window := by
    have elements : letRule.elements =
        [.token (.classified .identifier "let" 1), .placeholder 0 "name",
          .token (.bare "="), .token (.bare "("), .placeholder 1 "value",
          .token (.bare ")"), .token (.classified .identifier "in" 1),
          .placeholder 2 "body"] := by
      decide +kernel
    have pieces : window =
        [] ++ .classified .identifier "let" 1 ::
          (lexCode " " ++ letAssignment "name" ++
            ([] ++ .bare "=" :: (lexCode " /* no */ " ++ .bare "(" ::
              ([] ++ letAssignment "value" ++ ([] ++ .bare ")" ::
                (lexCode " " ++ .classified .identifier "in" 1 ::
                  ([] ++ letAssignment "body" ++ []))))))) := by
      decide +kernel
    rw [elements, pieces]
    refine .literal allTrivia_nil (absurd rfl) rfl rfl ?_
    refine .capture (by decide +kernel) (fun _ => ⟨.bare "=", rfl, rfl⟩) ?_
    refine .literal allTrivia_nil (absurd rfl) rfl rfl ?_
    refine .literal (by decide +kernel) (fun _ => by decide) rfl rfl ?_
    refine .capture allTrivia_nil (absurd rfl) ?_
    refine .literal allTrivia_nil (absurd rfl) rfl rfl ?_
    refine .literal (by decide +kernel) (fun _ => by decide) rfl rfl ?_
    exact .capture allTrivia_nil (absurd rfl) .done
  exact ⟨defined, capturing, admissible, written, fun _ => rfl,
    candidatesAt_writtenOut defined capturing admissible written fun _ => rfl⟩

end TokenMacros
