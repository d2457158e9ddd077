import TokenMacros.Expansion.Pass
import TokenMacros.Proofs.SettledPasses

/-!
# A pass as a row of blocks

A pass cuts its input into consecutive blocks and writes each of them on its
own.  A block is a token that no rule applies to, or what the first rule that
applies takes, looked up in the input as it was before the pass.  Every rule
takes some tokens and none beyond the end, so nothing is lost or written twice.
-/

namespace TokenMacros

/-- Consecutive tokens of the input of a pass, and what is written for them. -/
structure PassBlock where
  taken : List Token
  written : List Token
  deriving Repr, DecidableEq

/-- The first element of the rule's pattern has the text of the token. -/
def Rule.BeginsLike (rule : Rule) (token : Token) : Prop :=
  ∃ first ∈ rule.elements.head?, first.accepts token = true

/-- What a pass over the tokens can do at an index. -/
inductive PassBlock.Explained (rules : List Rule) (fallback : Bool)
    (tokens : List Token) (index : Nat) : PassBlock → Prop where
  /-- No rule applies.  With the fallback, no pattern begins like the token
  either. -/
  | copied {token : Token} :
      tokens[index]? = some token →
      candidatesAt rules tokens index = [] →
      (fallback = true → ∀ rule ∈ rules, ¬ rule.BeginsLike token) →
      Explained rules fallback tokens index ⟨[token], [token]⟩
  /-- The first rule that applies is instantiated in the place of what it takes.
  -/
  | matched {earlier later : List Rule} {rule : Rule} {captures : Captures}
      {consumed : Nat} :
      rules = earlier ++ rule :: later →
      candidatesAt earlier tokens index = [] →
      candidatesAt [rule] tokens index = [⟨rule, captures, consumed⟩] →
      1 ≤ consumed →
      index + consumed ≤ tokens.length →
      Explained rules fallback tokens index
        ⟨(tokens.drop index).take consumed, instantiate rule.template captures⟩
  /-- No rule applies, but with the fallback the first one that begins like the
  token is instantiated without captures. -/
  | begun {earlier later : List Rule} {rule : Rule} {token : Token} :
      fallback = true →
      tokens[index]? = some token →
      candidatesAt rules tokens index = [] →
      rules = earlier ++ rule :: later →
      (∀ other ∈ earlier, ¬ other.BeginsLike token) →
      rule.BeginsLike token →
      Explained rules fallback tokens index
        ⟨[token], instantiate rule.template []⟩

/-! ## How much a rule takes -/

theorem length_le_of_acceptsAll {elements : List PatternElement}
    {tokens : List Token} (accepted : acceptsAll elements tokens = true) :
    elements.length ≤ tokens.length := by
  fun_induction acceptsAll elements tokens with
  | case1 => simp
  | case2 => cases accepted
  | case3 element elements token tokens induction =>
      have behind := induction (Bool.and_eq_true_iff.mp accepted).2
      simpa using behind

/-- Wherever a rule applies, it takes a token and none beyond the end. -/
theorem Rule.candidate?_takes {rule : Rule} {tokens : List Token}
    {candidate : Candidate} (found : rule.candidate? tokens = some candidate) :
    1 ≤ candidate.consumed ∧ candidate.consumed ≤ tokens.length := by
  rcases candidate?_cases found with ⟨capturing, _⟩ | ⟨_, accepted, rfl⟩
  · have decomposes := candidate?_decomposes found capturing
    exact ⟨decomposes.consumed_pos, decomposes.consumed_le⟩
  · obtain ⟨first, pattern, _, _, elements, _, _⟩ := candidate?_first found
    constructor
    · simp [elements]
    · exact length_le_of_acceptsAll accepted

/-! ## What is chosen at the front -/

section

variable {rules : List Rule} {fallback : Bool} {token : Token}
  {rest : List Token}

theorem Rule.singleTokenCandidate?_eq_none_iff {rule : Rule} :
    rule.singleTokenCandidate? token = none ↔ ¬ rule.BeginsLike token := by
  simp [singleTokenCandidate?, BeginsLike, Option.any_eq_true]

theorem Rule.beginsLike_of_candidate {rule : Rule} {candidate : Candidate}
    (found : rule.singleTokenCandidate? token = some candidate) :
    rule.BeginsLike token := by
  by_contra other
  rw [singleTokenCandidate?_eq_none_iff.mpr other] at found
  cases found

theorem candidates_eq_nil_iff {tokens : List Token} :
    candidates rules tokens = [] ↔
      ∀ rule ∈ rules, rule.candidate? tokens = none := by
  simp [candidates, List.filterMap_eq_nil_iff]

theorem PassBlock.explained_of_unchosen
    (unchosen : chosen? rules fallback (token :: rest) = none) :
    Explained rules fallback (token :: rest) 0 ⟨[token], [token]⟩ := by
  unfold chosen? at unchosen
  split at unchosen
  · cases unchosen
  · next unmatched =>
      refine .copied rfl ?_ ?_
      · apply candidates_eq_nil_iff.mpr
        exact List.findSome?_eq_none_iff.mp unmatched
      · intro withFallback rule listed
        rw [if_pos withFallback] at unchosen
        have unbegun : rules.findSome? (·.singleTokenCandidate? token) = none :=
          unchosen
        apply Rule.singleTokenCandidate?_eq_none_iff.mp
        exact List.findSome?_eq_none_iff.mp unbegun rule listed

/-- What is chosen takes a block off the front: it does not reach beyond the
end. -/
theorem PassBlock.explained_of_chosen {candidate : Candidate}
    (chosen : chosen? rules fallback (token :: rest) = some candidate) :
    Explained rules fallback (token :: rest) 0
      ⟨token :: rest.take (candidate.consumed - 1),
        instantiate candidate.rule.template candidate.captures⟩ := by
  unfold chosen? at chosen
  split at chosen
  · next matched found =>
      obtain rfl := Option.some.inj chosen
      obtain ⟨earlier, rule, later, order, applies, before⟩ :=
        List.findSome?_eq_some_iff.mp found
      obtain rfl : matched.rule = rule := Rule.candidate?_rule applies
      obtain ⟨positive, inside⟩ := Rule.candidate?_takes applies
      have taken : token :: rest.take (matched.consumed - 1) =
          ((token :: rest).drop 0).take matched.consumed := by
        obtain ⟨further, more⟩ := Nat.exists_eq_add_of_le' positive
        simp [more]
      rw [taken]
      refine .matched order (candidates_eq_nil_iff.mpr before) ?_ positive ?_
      · simp [candidatesAt, candidates, applies]
      · simpa using inside
  · next unmatched =>
      obtain ⟨withFallback, search⟩ := Option.ite_none_right_eq_some.mp chosen
      have found : rules.findSome? (·.singleTokenCandidate? token) =
          some candidate := search
      obtain ⟨earlier, rule, later, order, begins, before⟩ :=
        List.findSome?_eq_some_iff.mp found
      obtain rfl := Rule.singleTokenCandidate?_eq begins
      refine .begun withFallback rfl ?_ order ?_ ?_
      · apply candidates_eq_nil_iff.mpr
        exact List.findSome?_eq_none_iff.mp unmatched
      · intro other isEarlier
        apply Rule.singleTokenCandidate?_eq_none_iff.mp
        exact before other isEarlier
      · exact Rule.beginsLike_of_candidate begins

end

/-! ## Rows of blocks -/

section

variable {rules : List Rule} {fallback : Bool} {tokens : List Token}

theorem candidatesAt_natCast (index : Nat) :
    candidatesAt rules tokens index = candidates rules (tokens.drop index) := by
  simp [candidatesAt]

theorem candidatesAt_drop (index further : Nat) :
    candidatesAt rules (tokens.drop index) further =
      candidatesAt rules tokens (index + further : Nat) := by
  simp only [candidatesAt_natCast, List.drop_drop]

theorem PassBlock.Explained.of_drop {index further : Nat} {block : PassBlock}
    (explained :
      block.Explained rules fallback (tokens.drop index) further) :
    block.Explained rules fallback tokens (index + further) := by
  cases explained with
  | copied here unmatched unbegun =>
      rw [List.getElem?_drop] at here
      rw [candidatesAt_drop] at unmatched
      exact .copied here unmatched unbegun
  | @matched _ _ _ _ consumed order before applies positive inside =>
      rw [candidatesAt_drop] at before applies
      rw [List.drop_drop]
      refine .matched order before applies positive ?_
      rw [List.length_drop] at inside
      omega
  | begun withFallback here unmatched order before begins =>
      rw [List.getElem?_drop] at here
      rw [candidatesAt_drop] at unmatched
      exact .begun withFallback here unmatched order before begins

/-- The blocks stand behind each other from the index on, and each of them is
explained where it stands. -/
def PassBlock.Row (rules : List Rule) (fallback : Bool) (tokens : List Token)
    (blocks : List PassBlock) : Prop :=
  ∀ front block back, blocks = front ++ block :: back →
    block.Explained rules fallback tokens (front.flatMap taken).length

theorem PassBlock.Row.cons {block : PassBlock} {blocks : List PassBlock}
    {left : List Token} (covered : tokens = block.taken ++ left)
    (explained : block.Explained rules fallback tokens 0)
    (row : Row rules fallback left blocks) :
    Row rules fallback tokens (block :: blocks) := by
  have behindBlock : left = tokens.drop block.taken.length := by
    rw [covered, List.drop_left]
  subst behindBlock
  intro front other back split
  cases front with
  | nil =>
      obtain ⟨rfl, rfl⟩ := List.cons.inj split
      exact explained
  | cons first front =>
      obtain ⟨rfl, behind⟩ := List.cons.inj split
      rw [List.flatMap_cons, List.length_append]
      exact (row front other back behind).of_drop

end

/-- A pass writes its input block by block.  The blocks cover the input in
order, every token once, and each of them is explained by the input, as it was
before the pass, at the index where the block begins. -/
theorem pass_blocks (rules : List Rule) (fallback : Bool)
    (tokens : List Token) :
    ∃ blocks : List PassBlock,
      tokens = blocks.flatMap PassBlock.taken ∧
      pass rules fallback tokens = blocks.flatMap PassBlock.written ∧
      PassBlock.Row rules fallback tokens blocks := by
  fun_induction pass rules fallback tokens with
  | case1 =>
      refine ⟨[], rfl, rfl, ?_⟩
      simp [PassBlock.Row]
  | case2 token rest unchosen induction =>
      obtain ⟨blocks, covered, written, row⟩ := induction
      have explained := PassBlock.explained_of_unchosen unchosen
      refine ⟨⟨[token], [token]⟩ :: blocks, ?_, ?_, row.cons rfl explained⟩
      · simpa using covered
      · simpa using written
  | case3 token rest candidate chosen induction =>
      obtain ⟨blocks, covered, written, row⟩ := induction
      have explained := PassBlock.explained_of_chosen chosen
      refine ⟨_ :: blocks, ?_, ?_, row.cons ?_ explained⟩
      · simp [← covered]
      · simp [← written]
      · simp

end TokenMacros
