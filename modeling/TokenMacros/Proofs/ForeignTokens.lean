import TokenMacros.Proofs.CodePieces
import TokenMacros.Proofs.RoundLimits
import TokenMacros.Proofs.WeightedConvergence

/-!
# Foreign tokens

A rule is tried only where its pattern begins.  Tokens among which no pattern
begins are foreign to the rules: they are copied by every pass, so an expansion
leaves them as they are and needs one round to notice.
-/

namespace TokenMacros

/-- No token has the text of the first element of a rule's pattern. -/
def Foreign (rules : List Rule) (tokens : List Token) : Prop :=
  ∀ rule ∈ rules, ∀ first ∈ rule.elements.head?, ∀ token ∈ tokens,
    token.text ≠ first.text

instance (rules : List Rule) (tokens : List Token) :
    Decidable (Foreign rules tokens) :=
  inferInstanceAs (Decidable (∀ _ ∈ _, ∀ _ ∈ _, ∀ _ ∈ _, _))

section

variable {rules : List Rule} {fallback : Bool} {tokens : List Token}

/-! ## Tokens without a place for a rule -/

theorem Foreign.of_suffix {suffix : List Token}
    (foreign : Foreign rules tokens) (behind : suffix <:+ tokens) :
    Foreign rules suffix :=
  fun rule listed first isFirst token member =>
    foreign rule listed first isFirst token (behind.subset member)

theorem Foreign.candidate?_eq_none (foreign : Foreign rules tokens)
    {rule : Rule} (listed : rule ∈ rules) : rule.candidate? tokens = none := by
  cases found : rule.candidate? tokens with
  | none => rfl
  | some candidate =>
      obtain ⟨first, pattern, token, rest, elements, rfl, same⟩ :=
        Rule.candidate?_first found
      have isFirst : PatternElement.token first ∈ rule.elements.head? := by
        rw [elements]
        rfl
      exact absurd same.symm
        (foreign rule listed _ isFirst token List.mem_cons_self)

theorem Foreign.singleTokenCandidate?_eq_none (foreign : Foreign rules tokens)
    {rule : Rule} (listed : rule ∈ rules) {token : Token}
    (member : token ∈ tokens) : rule.singleTokenCandidate? token = none := by
  unfold Rule.singleTokenCandidate?
  rw [if_neg]
  intro begins
  obtain ⟨first, isFirst, accepts⟩ := (Option.any_eq_true _ _).mp begins
  exact foreign rule listed first isFirst token member
    (PatternElement.text_of_accepts accepts).symm

theorem Foreign.chosen?_eq_none (foreign : Foreign rules tokens)
    (fallback : Bool) : chosen? rules fallback tokens = none := by
  have unmatched : rules.findSome? (·.candidate? tokens) = none :=
    List.findSome?_eq_none_iff.mpr fun _ listed =>
      foreign.candidate?_eq_none listed
  rw [chosen?, unmatched]
  cases fallback with
  | false => rfl
  | true =>
      cases tokens with
      | nil => rfl
      | cons token rest =>
          exact List.findSome?_eq_none_iff.mpr fun _ listed =>
            foreign.singleTokenCandidate?_eq_none listed List.mem_cons_self

theorem Foreign.quiet (foreign : Foreign rules tokens) (fallback : Bool) :
    Quiet rules fallback tokens :=
  fun _ behind => (foreign.of_suffix behind).chosen?_eq_none fallback

/-! ## Expansions of quiet tokens -/

theorem Quiet.passes_eq (quiet : Quiet rules fallback tokens) (count : Nat) :
    passes rules fallback count tokens = (tokens, false) := by
  induction count with
  | zero => rfl
  | succ count induction =>
      rw [passes, quiet.pass_eq, induction, bne_self_eq_false]
      rfl

/-- An expansion leaves quiet tokens as they are.  It takes one round to notice,
or none if there is no rule. -/
theorem Quiet.expandTokens_eq {limits : Limits}
    (quiet : Quiet rules limits.singleTokenFallback tokens) :
    expandTokens rules limits tokens =
      ⟨tokens, if rules.isEmpty then 0 else 1, true⟩ := by
  cases rules with
  | nil => rfl
  | cons rule rules =>
      obtain ⟨further, limit⟩ :=
        Nat.exists_eq_add_one_of_ne_zero limits.maxIterations_pos.ne'
      have unchanged := quiet.passes_eq (rule :: rules).length
      rw [expandTokens, limit]
      exact rounds_of_unchanged unchanged

end

/-- A source without a token that a rule's pattern begins with is not touched.
The outcome has the very tokens that the source is cut into, and its text is the
source; one round is made, or none if there is no rule. -/
theorem expandSource_foreign {source : String} {rules : List Rule}
    (foreign : Foreign rules (lex (sourceMode source) source))
    (limits : Limits) :
    expandSource rules limits source =
        ⟨lex (sourceMode source) source, if rules.isEmpty then 0 else 1, true⟩ ∧
      (expandSource rules limits source).text = source := by
  have same : expandSource rules limits source =
      ⟨lex (sourceMode source) source, if rules.isEmpty then 0 else 1, true⟩ :=
    (foreign.quiet limits.singleTokenFallback).expandTokens_eq
  refine ⟨same, ?_⟩
  rw [same]
  exact render_lex (sourceMode source) source

/-- The first text of the pattern occurs in the source, but within longer tokens
only. -/
theorem expandSource_foreign_let :
    let source := "<?php\r\n$let = \"let\"; // let\r\n?> let\n"
    let limits : Limits := { singleTokenFallback := true }
    Foreign [letRule] (lex (sourceMode source) source) ∧
      expandSource [letRule] limits source =
        ⟨lex (sourceMode source) source, 1, true⟩ ∧
      (expandSource [letRule] limits source).text = source := by
  intro source limits
  have foreign : Foreign [letRule] (lex (sourceMode source) source) := by
    decide +kernel
  exact ⟨foreign, expandSource_foreign foreign limits⟩

end TokenMacros
