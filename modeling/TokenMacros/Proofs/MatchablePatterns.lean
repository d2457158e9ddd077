import Mathlib.Data.Fintype.EquivFin
import TokenMacros.Proofs.OwnPatterns
import TokenMacros.Proofs.PatternInstances
import TokenMacros.Proofs.RuleTokens
import TokenMacros.Proofs.TemplatePasses

/-!
# Patterns that can be matched

A placeholder captures up to what follows it in the pattern, and a placeholder
is nothing that can be found in the input.  So a pattern in which one follows
another matches no input at all.  Every other pattern that a rule can have is
matched by its own literals with some foreign token in the place of each
placeholder.
-/

namespace TokenMacros

/-- The elements are not both placeholders. -/
def PatternElement.Apart : PatternElement → PatternElement → Prop
  | .placeholder .., .placeholder .. => False
  | _, _ => True

instance : DecidableRel PatternElement.Apart
  | .placeholder .., .placeholder .. => inferInstanceAs (Decidable False)
  | .placeholder .., .token _ => inferInstanceAs (Decidable True)
  | .token _, .placeholder .. => inferInstanceAs (Decidable True)
  | .token _, .token _ => inferInstanceAs (Decidable True)

/-- No placeholder directly follows another one. -/
def Separated (pattern : List PatternElement) : Prop :=
  pattern.IsChain PatternElement.Apart

instance (pattern : List PatternElement) : Decidable (Separated pattern) :=
  inferInstanceAs (Decidable (pattern.IsChain _))

theorem separated_token_cons {literal : Token}
    {pattern : List PatternElement} :
    Separated (.token literal :: pattern) ↔ Separated pattern := by
  cases pattern with
  | nil => simp [Separated]
  | cons following pattern =>
      cases following <;> simp [Separated, PatternElement.Apart]

theorem separated_placeholder_cons {index : Nat} {name : String}
    {literal : Token} {pattern : List PatternElement} :
    Separated (.placeholder index name :: .token literal :: pattern) ↔
      Separated pattern := by
  rw [Separated, List.isChain_cons_cons, ← Separated, separated_token_cons]
  simp [PatternElement.Apart]

/-! ## What matches is separated -/

theorem Fits.separated {pattern : List PatternElement} {blocks : List Block}
    {rest : List Token} (fits : Fits pattern blocks rest) :
    Separated pattern := by
  induction fits with
  | done => exact List.isChain_nil
  | literal _ _ _ induction => exact separated_token_cons.mpr induction
  | balanced _ _ _ induction =>
      exact separated_placeholder_cons.mpr (separated_token_cons.mp induction)
  | upTo _ _ _ _ induction =>
      exact separated_placeholder_cons.mpr (separated_token_cons.mp induction)
  | trailing => exact List.isChain_singleton _

theorem separated_of_acceptsAll {pattern : List PatternElement}
    {tokens : List Token} (accepted : acceptsAll pattern tokens = true) :
    Separated pattern := by
  fun_induction acceptsAll pattern tokens with
  | case1 => exact List.isChain_nil
  | case2 => cases accepted
  | case3 element pattern token tokens induction =>
      obtain ⟨accepts, later⟩ := Bool.and_eq_true_iff.mp accepted
      cases element with
      | token literal => exact separated_token_cons.mpr (induction later)
      | placeholder index name => simp [PatternElement.accepts] at accepts

theorem Rule.separated_of_candidate {rule : Rule} {tokens : List Token}
    {candidate : Candidate} (found : rule.candidate? tokens = some candidate) :
    Separated rule.elements := by
  rcases candidate?_cases found with ⟨capturing, _⟩ | ⟨_, accepted, _⟩
  · obtain ⟨_, _, _, fits, _⟩ := candidate?_fits found capturing
    exact fits.separated
  · exact separated_of_acceptsAll accepted

theorem Rule.separated_of_mem_candidatesAt {rule : Rule} {tokens : List Token}
    {position : Int} {candidate : Candidate}
    (found : candidate ∈ candidatesAt [rule] tokens position) :
    Separated rule.elements := by
  unfold candidatesAt at found
  split at found
  · obtain ⟨other, listed, applies⟩ := List.mem_filterMap.mp found
    obtain rfl := List.mem_singleton.mp listed
    exact separated_of_candidate applies
  · cases found

/-! ## Input for a separated pattern -/

theorem exists_fresh_text (texts : List String) : ∃ text, text ∉ texts := by
  obtain ⟨text, fresh⟩ := Infinite.exists_notMem_finset texts.toFinset
  exact ⟨text, by simpa using fresh⟩

theorem balanced_of_other {opening closing : String} {token : Token}
    (opensNothing : token.text ≠ opening)
    (closesNothing : token.text ≠ closing) :
    Balanced opening closing [token] := by
  constructor
  · intro front isPrefix
    have none : occurrences closing [token] = 0 := by
      simp [occurrences, closesNothing]
    have fewer : occurrences closing front ≤ occurrences closing [token] :=
      isPrefix.sublist.countP_le
    omega
  · simp [occurrences, opensNothing, closesNothing]

theorem suits_of_other {captured literal : Token}
    (meaningful : captured.isTrivia = false)
    (opensNothing : captured.text ∉ ["(", "\x7b", "["])
    (other : captured.text ≠ literal.text) :
    Suits [captured] (some (.token literal)) := by
  cases pair : opening? literal.text with
  | some opening =>
      have noOpening : captured.text ≠ opening := by
        rcases opening?_cases pair with ⟨_, rfl⟩ | ⟨_, rfl⟩ | ⟨_, rfl⟩ <;>
          simp_all
      simpa [Suits, pair] using balanced_of_other noOpening other
  | none => simpa [Suits, pair, meaningful] using other

theorem admissible_of_separated {pattern : List PatternElement}
    {captured : Token} (separated : Separated pattern)
    (meaningful : captured.isTrivia = false)
    (opensNothing : captured.text ∉ ["(", "\x7b", "["])
    (other : ∀ element ∈ pattern, captured.text ≠ element.text) :
    Admissible (fun _ => [captured]) pattern := by
  induction pattern with
  | nil => trivial
  | cons element pattern induction =>
      have later (rest : Separated pattern) :=
        induction rest fun following member =>
          other following (List.mem_cons_of_mem _ member)
      cases element with
      | token literal => exact later (separated_token_cons.mp separated)
      | placeholder index name =>
          refine ⟨?_, later separated.tail⟩
          cases pattern with
          | nil => simp [Suits]
          | cons following pattern =>
              cases following with
              | token literal =>
                  have different : captured.text ≠ literal.text :=
                    other (.token literal) (by simp)
                  exact suits_of_other meaningful opensNothing different
              | placeholder =>
                  simp [Separated, PatternElement.Apart] at separated

/-- The literals of a pattern, and assigned tokens in the place of its
placeholders. -/
def spellOut (assigned : String → List Token) : List PatternElement → List Token
  | [] => []
  | .token literal :: pattern => literal :: spellOut assigned pattern
  | .placeholder _ name :: pattern => assigned name ++ spellOut assigned pattern

theorem writtenOut_spellOut {assigned : String → List Token}
    {pattern : List PatternElement}
    (meaningful : ∀ literal, .token literal ∈ pattern →
      literal.isTrivia = false) (afterLiteral : Bool) :
    WrittenOut assigned afterLiteral pattern (spellOut assigned pattern) := by
  induction pattern generalizing afterLiteral with
  | nil => exact .done
  | cons element pattern induction =>
      have later := induction fun literal member =>
        meaningful literal (List.mem_cons_of_mem _ member)
      cases element with
      | token literal =>
          exact .literal allTrivia_nil (absurd rfl)
            (meaningful literal List.mem_cons_self) rfl (later true)
      | placeholder index name =>
          exact .capture allTrivia_nil (absurd rfl) (later false)

/-! ## Patterns of rules -/

theorem isTrivia_of_mem_chunkElements {names : List (Nat × String)}
    {chunk : List Char} {literal : Token}
    (member : .token literal ∈ Pattern.chunkElements names chunk) :
    literal.isTrivia = false := by
  have inCode (member : .token literal ∈
      Pattern.chunkElements.codeElements chunk) : literal.isTrivia = false := by
    simp only [Pattern.chunkElements.codeElements, List.mem_map,
      List.mem_filter] at member
    obtain ⟨token, ⟨_, meaningful⟩, same⟩ := member
    obtain rfl := PatternElement.token.inj same
    simpa using meaningful
  unfold Pattern.chunkElements at member
  split at member
  · simp at member
  split at member
  · split at member
    · obtain rfl : literal = .bare _ := by simpa using member
      rfl
    · exact inCode member
  · exact inCode member

theorem Pattern.isTrivia_of_mem_parse {text : String} {literal : Token}
    (capturing : (parse text).captures ≠ [])
    (member : .token literal ∈ (parse text).elements) :
    literal.isTrivia = false := by
  unfold parse at capturing member
  dsimp only at capturing member
  split at member
  · next unmarked =>
      rw [if_pos unmarked] at capturing
      exact absurd rfl capturing
  · obtain ⟨chunk, _, inChunk⟩ := List.mem_flatMap.mp member
    exact isTrivia_of_mem_chunkElements inChunk

/-- A rule with captures applies to its own literals around a token that occurs
nowhere in the pattern. -/
theorem Rule.exists_candidate_of_captures {source : RuleSource} {rule : Rule}
    (defined : define source = .ok rule) (capturing : rule.hasCaptures = true)
    (separated : Separated rule.elements) :
    ∃ tokens candidate, rule.candidate? tokens = some candidate := by
  obtain ⟨literal, pattern, elements⟩ := elements_of_define defined
  obtain ⟨parsed, captures, _⟩ := define_eq_ok defined
  obtain ⟨fresh, other⟩ := exists_fresh_text
    (["(", "\x7b", "["] ++ rule.elements.map PatternElement.text)
  rw [List.mem_append, not_or] at other
  let captured : Token := .bare fresh
  let assigned : String → List Token := fun _ => [captured]
  have meaningful : ∀ literal, .token literal ∈ rule.elements →
      literal.isTrivia = false := by
    intro literal member
    rw [parsed] at member
    apply Pattern.isTrivia_of_mem_parse _ member
    rw [← captures]
    simpa [hasCaptures] using capturing
  have admissible : Admissible assigned rule.elements := by
    have notThere : ∀ element ∈ rule.elements,
        captured.text ≠ element.text := by
      intro element member same
      exact other.2 (List.mem_map.mpr ⟨element, member, same.symm⟩)
    exact admissible_of_separated separated rfl other.1 notThere
  have walked : walk rule.elements (spellOut assigned rule.elements ++ []) [] =
      _ :=
    walk_writtenOut [] (writtenOut_spellOut meaningful false) admissible
      fun _ => rfl
  have spelled : spellOut assigned rule.elements ++ [] =
      literal :: spellOut assigned pattern := by
    simp [elements, spellOut]
  rw [spelled] at walked
  have applies : rule.candidate? (literal :: spellOut assigned pattern) = _ :=
    candidate?_eq_walk _ elements rfl capturing
  rw [walked, Option.map_some] at applies
  exact ⟨_, _, applies⟩

theorem Rule.exists_candidate_of_no_captures {source : RuleSource}
    {rule : Rule} (defined : define source = .ok rule)
    (captureFree : rule.captures = []) :
    ∃ tokens candidate, rule.candidate? tokens = some candidate := by
  obtain ⟨literal, pattern, elements⟩ := elements_of_define defined
  obtain ⟨parsed, captures, _⟩ := define_eq_ok defined
  have ownTokens : rule.elements = (lexCode rule.pattern).map .token := by
    rw [parsed]
    apply Pattern.parse_of_captureFree
    rw [← captures, captureFree]
  have some : lexCode rule.pattern ≠ [] := by
    intro none
    simp [none, elements] at ownTokens
  exact ⟨_, _, candidate?_ownTokens some ownTokens captureFree⟩

/-- A rule that can be defined applies somewhere exactly if no capture of its
pattern directly follows another one.  A pattern that violates this is accepted
all the same. -/
theorem define_matchable_iff {source : RuleSource} {rule : Rule}
    (defined : Rule.define source = .ok rule) :
    (∃ tokens position, candidatesAt [rule] tokens position ≠ []) ↔
      Separated rule.elements := by
  constructor
  · rintro ⟨tokens, position, applies⟩
    obtain ⟨candidate, found⟩ := List.exists_mem_of_ne_nil _ applies
    exact Rule.separated_of_mem_candidatesAt found
  · intro separated
    obtain ⟨tokens, candidate, found⟩ :
        ∃ tokens candidate, rule.candidate? tokens = some candidate := by
      by_cases captureFree : rule.captures = []
      · exact Rule.exists_candidate_of_no_captures defined captureFree
      · apply Rule.exists_candidate_of_captures defined _ separated
        simpa [Rule.hasCaptures] using captureFree
    refine ⟨tokens, 0, ?_⟩
    simp [candidatesAt, candidates, found]

/-- Captures in front of each kind of literal, two of them under one name. -/
def eachSource : RuleSource where
  pattern := "each ($(layer() as x)) $(layer() as x), $(layer() as y)"
  replacement := "$(x)"

def eachRule : Rule :=
  (Rule.define eachSource).toOption.get (by decide +kernel)

theorem define_matchable_each :
    Rule.define eachSource = .ok eachRule ∧ Separated eachRule.elements ∧
      ∃ tokens position, candidatesAt [eachRule] tokens position ≠ [] := by
  have defined : Rule.define eachSource = .ok eachRule := by decide +kernel
  have separated : Separated eachRule.elements := by decide +kernel
  exact ⟨defined, separated, (define_matchable_iff defined).mpr separated⟩

/-- Captures with nothing but white space between them. -/
def touchingSource : RuleSource where
  pattern := "f $(layer() as a) $(layer() as b)"
  replacement := "g"

def touchingRule : Rule :=
  (Rule.define touchingSource).toOption.get (by decide +kernel)

/-- A rule that is accepted and applies nowhere. -/
theorem define_not_matchable :
    Rule.define touchingSource = .ok touchingRule ∧
      ∀ tokens position, candidatesAt [touchingRule] tokens position = [] := by
  have touching : ¬ Separated touchingRule.elements := by decide +kernel
  refine ⟨by decide +kernel, ?_⟩
  intro tokens position
  by_contra applies
  obtain ⟨candidate, found⟩ := List.exists_mem_of_ne_nil _ applies
  exact touching (Rule.separated_of_mem_candidatesAt found)

end TokenMacros
