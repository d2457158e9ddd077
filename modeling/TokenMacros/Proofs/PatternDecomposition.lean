import Mathlib.Data.List.TakeWhile
import TokenMacros.Expansion.Matching
import TokenMacros.Proofs.BalancedRuns
import TokenMacros.Proofs.CaptureTables

/-!
# What a match consists of

`Fits` says how the consecutive blocks of an input answer the elements of a
pattern, one block for each element, without looking at how they are found.  A
successful walk leaves such a row of blocks behind it: nothing of the input in
front of the rest is lost or taken twice, and the captures are the bodies of the
placeholders' blocks.
-/

namespace TokenMacros

/-- What one element of a pattern takes from the input: trivia that is passed
over, and the tokens the element stands for. -/
structure Block where
  skipped : List Token
  body : List Token

namespace Block

/-- All tokens of a block. -/
def tokens (block : Block) : List Token :=
  block.skipped ++ block.body

/-- The input that consecutive blocks take. -/
def window (blocks : List Block) : List Token :=
  blocks.flatMap tokens

@[simp] theorem window_nil : window [] = [] := rfl

@[simp] theorem window_cons (skipped body : List Token) (blocks : List Block) :
    window (⟨skipped, body⟩ :: blocks) = skipped ++ body ++ window blocks := rfl

end Block

/-- White space and comments only. -/
def AllTrivia (tokens : List Token) : Prop :=
  ∀ token ∈ tokens, token.isTrivia = true

instance (tokens : List Token) : Decidable (AllTrivia tokens) :=
  inferInstanceAs (Decidable (∀ token ∈ tokens, token.isTrivia = true))

theorem allTrivia_nil : AllTrivia [] := by
  intro token member
  cases member

/-- The blocks answer the elements of the pattern in order, and `rest` is the
input behind them.

A literal is answered by a token of its text, with trivia in front.  A
placeholder in front of a closing delimiter is answered by balanced tokens that
the delimiter follows at once; one in front of another literal by trivia and
then tokens without that literal's text; one at the end of the pattern by all
the input that is left. -/
inductive Fits : List PatternElement → List Block → List Token → Prop where
  | done (rest : List Token) : Fits [] [] rest
  | literal {expected actual : Token} {skipped rest : List Token}
      {pattern : List PatternElement} {blocks : List Block} :
      AllTrivia skipped →
      actual.text = expected.text →
      Fits pattern blocks rest →
      Fits (.token expected :: pattern) (⟨skipped, [actual]⟩ :: blocks) rest
  | balanced {index : Nat} {name opening : String} {closing closer : Token}
      {captured rest : List Token} {pattern : List PatternElement}
      {blocks : List Block} :
      opening? closing.text = some opening →
      Balanced opening closing.text captured →
      Fits (.token closing :: pattern) (⟨[], [closer]⟩ :: blocks) rest →
      Fits (.placeholder index name :: .token closing :: pattern)
        (⟨[], captured⟩ :: ⟨[], [closer]⟩ :: blocks) rest
  | upTo {index : Nat} {name : String} {terminator : Token}
      {skipped captured rest : List Token} {pattern : List PatternElement}
      {blocks : List Block} :
      opening? terminator.text = none →
      AllTrivia skipped →
      (∀ token ∈ captured, token.text ≠ terminator.text) →
      Fits (.token terminator :: pattern) blocks rest →
      Fits (.placeholder index name :: .token terminator :: pattern)
        (⟨skipped, captured⟩ :: blocks) rest
  | trailing (index : Nat) (name : String) (captured : List Token) :
      Fits [.placeholder index name] [⟨[], captured⟩] []

theorem Fits.length_eq {pattern : List PatternElement} {blocks : List Block}
    {rest : List Token} (fits : Fits pattern blocks rest) :
    blocks.length = pattern.length := by
  induction fits with
  | done => rfl
  | literal _ _ _ induction => simpa using induction
  | balanced _ _ _ induction => simpa using induction
  | upTo _ _ _ _ induction => simpa using induction
  | trailing => rfl

/-- The names that a pattern captures, in order. -/
def captureNames : List PatternElement → List String
  | [] => []
  | .token _ :: pattern => captureNames pattern
  | .placeholder _ name :: pattern => name :: captureNames pattern

/-- The names of the placeholders with the tokens that their blocks capture. -/
def bindings : List PatternElement → List Block → List (String × List Token)
  | .token _ :: pattern, _ :: blocks => bindings pattern blocks
  | .placeholder _ name :: pattern, block :: blocks =>
    (name, block.body) :: bindings pattern blocks
  | _, _ => []

theorem Fits.map_fst_bindings {pattern : List PatternElement}
    {blocks : List Block} {rest : List Token}
    (fits : Fits pattern blocks rest) :
    (bindings pattern blocks).map Prod.fst = captureNames pattern := by
  induction fits with
  | done => rfl
  | literal _ _ _ induction => exact induction
  | balanced _ _ _ induction => exact congrArg (_ :: ·) induction
  | upTo _ _ _ _ induction => exact congrArg (_ :: ·) induction
  | trailing => rfl

/-! ## Parts of the walk -/

theorem exists_skipTrivia (tokens : List Token) :
    ∃ skipped, AllTrivia skipped ∧ tokens = skipped ++ skipTrivia tokens := by
  refine ⟨tokens.takeWhile Token.isTrivia, ?_,
    List.takeWhile_append_dropWhile.symm⟩
  exact List.all_eq_true.mp List.all_takeWhile

theorem exists_skipped_before (expected : Token) (tokens : List Token) :
    ∃ skipped, AllTrivia skipped ∧
      tokens = skipped ++
        if expected.text = " " then tokens else skipTrivia tokens := by
  by_cases space : expected.text = " "
  · exact ⟨[], allTrivia_nil, by simp [space]⟩
  · rw [if_neg space]
    exact exists_skipTrivia tokens

theorem length_of_opening? {opening closing : String}
    (pair : opening? closing = some opening) :
    closing.length = 1 := by
  rcases opening?_cases pair with ⟨rfl, rfl⟩ | ⟨rfl, rfl⟩ | ⟨rfl, rfl⟩ <;> rfl

/-- A marker is too long for a closing delimiter, so only a literal can end a
balanced capture. -/
theorem opening?_marker (index : Nat) : opening? (marker index) = none := by
  cases pair : opening? (marker index) with
  | none => rfl
  | some opening =>
      have short := length_of_opening? pair
      have long : "__CAPTURE_".length = 10 := by decide
      simp only [marker, String.length_append, long] at short
      omega

theorem literal_of_opening? {terminator : PatternElement} {opening : String}
    (pair : opening? terminator.text = some opening) :
    ∃ closing, terminator = .token closing := by
  cases terminator with
  | token closing => exact ⟨closing, rfl⟩
  | placeholder index name =>
      rw [PatternElement.text, opening?_marker] at pair
      cases pair

/-- What a placeholder captures in front of another element is free of tokens
that the element accepts, and nothing between the capture and the rest is lost.
-/
theorem exists_captured_before (terminator : PatternElement)
    (input : List Token) :
    let captured := input.takeWhile fun token => !terminator.accepts token
    (∀ token ∈ captured, terminator.accepts token = false) ∧
      input = captured ++ input.drop captured.length := by
  constructor
  · intro token member
    simpa using List.all_eq_true.mp List.all_takeWhile token member
  · exact (List.prefix_iff_eq_append.mp (List.takeWhile_prefix _)).symm

/-- A successful walk decomposes its input: the blocks answer the pattern, and
the captures are the bodies of the placeholders' blocks, bound in order. -/
theorem walk_fits {pattern : List PatternElement} {tokens rest : List Token}
    {captures result : Captures}
    (walked : walk pattern tokens captures = some (result, rest)) :
    ∃ blocks, tokens = Block.window blocks ++ rest ∧ Fits pattern blocks rest ∧
      result = captures.bindAll (bindings pattern blocks) := by
  fun_induction walk pattern tokens captures with
  | case1 tokens captures =>
      obtain ⟨rfl, rfl⟩ : captures = result ∧ tokens = rest := by
        simpa using walked
      exact ⟨[], rfl, .done tokens, rfl⟩
  | case2 => cases walked
  | case3 => cases walked
  | case4 expected pattern token tokens captures input first behind found same
      induction =>
      obtain ⟨blocks, split, fits, bound⟩ := induction walked
      obtain ⟨skipped, trivia, front⟩ :=
        exists_skipped_before expected (token :: tokens)
      refine ⟨⟨skipped, [first]⟩ :: blocks, ?_,
        .literal trivia same.symm fits, bound⟩
      calc
        token :: tokens = skipped ++ input := front
        _ = skipped ++ first :: behind := by rw [found]
        _ = Block.window (⟨skipped, [first]⟩ :: blocks) ++ rest := by
          simp [split]
  | case5 => cases walked
  | case6 index name token tokens captures =>
      obtain ⟨rfl, rfl⟩ :
          captures.bind name (token :: tokens) = result ∧ [] = rest := by
        simpa using walked
      exact ⟨[⟨[], token :: tokens⟩], by simp, .trailing index name _, rfl⟩
  | case7 => cases walked
  | case8 index name terminator pattern token tokens captures opening pair
      captured closer behind stopped induction =>
      obtain ⟨blocks, split, fits, bound⟩ := induction walked
      obtain ⟨closing, rfl⟩ := literal_of_opening? pair
      have balanced := balancedRun_balanced pair stopped
      have closes : closer.text = closing.text :=
        (balancedRun_stop (opening?_ne pair) stopped).1
      have delimiter :
          Fits (.token closing :: pattern) (⟨[], [closer]⟩ :: blocks) rest :=
        .literal allTrivia_nil closes fits
      refine ⟨⟨[], captured⟩ :: ⟨[], [closer]⟩ :: blocks, ?_,
        .balanced pair balanced delimiter, bound⟩
      calc
        token :: tokens = captured ++ (token :: tokens).drop captured.length :=
          (List.prefix_iff_eq_append.mp (balancedRun_isPrefix 0 _)).symm
        _ = captured ++ closer :: behind := by rw [stopped]
        _ = Block.window (⟨[], captured⟩ :: ⟨[], [closer]⟩ :: blocks) ++
            rest := by simp [split]
  | case9 index name terminator pattern token tokens captures notClosing input
      captured induction =>
      obtain ⟨blocks, split, fits, bound⟩ := induction walked
      obtain ⟨free, behindCapture⟩ := exists_captured_before terminator input
      obtain ⟨skipped, trivia, front⟩ := exists_skipTrivia (token :: tokens)
      have parts : token :: tokens =
          Block.window (⟨skipped, captured⟩ :: blocks) ++ rest := by
        calc
          token :: tokens = skipped ++ input := front
          _ = skipped ++ (captured ++ input.drop captured.length) := by
            rw [← behindCapture]
          _ = Block.window (⟨skipped, captured⟩ :: blocks) ++ rest := by
            simp [split]
      cases terminator with
      | token literal =>
          refine ⟨⟨skipped, captured⟩ :: blocks, parts, ?_, bound⟩
          refine .upTo notClosing trivia ?_ fits
          intro token member same
          have refused := free token member
          simp [PatternElement.accepts, same] at refused
      | placeholder nextIndex nextName =>
          -- a placeholder accepts nothing, so all the input is captured and
          -- the walk ends
          have allCaptured : captured = input :=
            List.takeWhile_eq_self_iff.mpr fun _ _ => rfl
          rw [allCaptured, List.drop_length, walk] at walked
          cases walked

/-! ## Candidates -/

namespace Rule

theorem candidate?_first {rule : Rule} {tokens : List Token}
    {candidate : Candidate} (found : rule.candidate? tokens = some candidate) :
    ∃ first pattern token rest, rule.elements = .token first :: pattern ∧
      tokens = token :: rest ∧ first.text = token.text := by
  unfold candidate? at found
  split at found
  · next first pattern token rest elements =>
      cases first with
      | token literal =>
          refine ⟨literal, pattern, token, rest, elements, rfl, ?_⟩
          by_cases same : literal.text = token.text
          · exact same
          · simp [PatternElement.accepts, same] at found
      | placeholder index name => simp [PatternElement.accepts] at found
  · cases found

/-- A rule with captures is walked along the input; any other is compared with
it token by token. -/
theorem candidate?_cases {rule : Rule} {tokens : List Token}
    {candidate : Candidate} (found : rule.candidate? tokens = some candidate) :
    (rule.hasCaptures = true ∧ ∃ captures behind,
        walk rule.elements tokens [] = some (captures, behind) ∧
          candidate = ⟨rule, captures, tokens.length - behind.length⟩) ∨
      (rule.hasCaptures = false ∧ acceptsAll rule.elements tokens = true ∧
        candidate = ⟨rule, [], rule.elements.length⟩) := by
  unfold candidate? at found
  split at found
  · split at found
    · cases found
    · split at found
      · next capturing =>
          obtain ⟨⟨captures, behind⟩, walked, rfl⟩ :=
            Option.map_eq_some_iff.mp found
          exact .inl ⟨capturing, captures, behind, walked, rfl⟩
      · next plain =>
          split at found
          · next accepted =>
              cases found
              exact .inr ⟨Bool.eq_false_iff.mpr plain, accepted, rfl⟩
          · cases found
  · cases found

theorem candidate?_rule {rule : Rule} {tokens : List Token}
    {candidate : Candidate} (found : rule.candidate? tokens = some candidate) :
    candidate.rule = rule := by
  rcases candidate?_cases found with ⟨_, _, _, _, rfl⟩ | ⟨_, _, rfl⟩ <;> rfl

theorem candidate?_eq_walk {rule : Rule} {first token : Token}
    {pattern : List PatternElement} (rest : List Token)
    (elements : rule.elements = .token first :: pattern)
    (same : first.text = token.text) (capturing : rule.hasCaptures = true) :
    rule.candidate? (token :: rest) =
      (walk rule.elements (token :: rest) []).map fun (captures, behind) =>
        ⟨rule, captures, (token :: rest).length - behind.length⟩ := by
  have accepted : (PatternElement.token first).accepts token = true := by
    simp [PatternElement.accepts, same]
  simp only [candidate?, elements, accepted, capturing, Bool.not_true,
    Bool.false_eq_true, if_false, if_true]

/-- A candidate of a rule with captures comes from a decomposition of the input.
-/
theorem candidate?_fits {rule : Rule} {tokens : List Token}
    {candidate : Candidate} (found : rule.candidate? tokens = some candidate)
    (capturing : rule.hasCaptures = true) :
    ∃ blocks rest, tokens = Block.window blocks ++ rest ∧
      Fits rule.elements blocks rest ∧
      candidate = ⟨rule, Captures.bindAll [] (bindings rule.elements blocks),
        (Block.window blocks).length⟩ := by
  rcases candidate?_cases found with
    ⟨_, captures, rest, walked, rfl⟩ | ⟨plain, _, _⟩
  · obtain ⟨blocks, split, fits, bound⟩ := walk_fits walked
    refine ⟨blocks, rest, split, fits, ?_⟩
    have taken :
        tokens.length - rest.length = (Block.window blocks).length := by
      rw [split, List.length_append, Nat.add_sub_cancel]
    rw [taken, bound]
  · rw [plain] at capturing
    cases capturing

end Rule

theorem Fits.window_length_pos {literal : Token} {pattern : List PatternElement}
    {blocks : List Block} {rest : List Token}
    (fits : Fits (.token literal :: pattern) blocks rest) :
    0 < (Block.window blocks).length := by
  cases fits with
  | literal _ _ _ =>
      simp only [Block.window_cons, List.length_append, List.length_singleton]
      omega

/-- What a candidate takes off the front of the tokens.  It takes at least one
token and at most all of them; these fall into one block for each element of the
pattern, with nothing left over; and each captured name holds what the last
placeholder of that name took. -/
structure Candidate.Decomposes (candidate : Candidate) (tokens : List Token) :
    Prop where
  consumed_pos : 1 ≤ candidate.consumed
  consumed_le : candidate.consumed ≤ tokens.length
  blocks : ∃ blocks, tokens.take candidate.consumed = Block.window blocks ∧
    blocks.length = candidate.rule.elements.length ∧
    Fits candidate.rule.elements blocks (tokens.drop candidate.consumed) ∧
    ∀ name, candidate.captures.find? name =
      (bindings candidate.rule.elements blocks).reverse.lookup name
  keys : ∀ name, name ∈ candidate.captures.map Prod.fst ↔
    name ∈ captureNames candidate.rule.elements

theorem Rule.candidate?_decomposes {rule : Rule} {tokens : List Token}
    {candidate : Candidate} (found : rule.candidate? tokens = some candidate)
    (capturing : rule.hasCaptures = true) :
    candidate.Decomposes tokens := by
  obtain ⟨first, pattern, _, _, elements, _, _⟩ := Rule.candidate?_first found
  obtain ⟨blocks, rest, split, fits, rfl⟩ :=
    Rule.candidate?_fits found capturing
  have positive : 0 < (Block.window blocks).length := by
    rw [elements] at fits
    exact fits.window_length_pos
  have behind : tokens.drop (Block.window blocks).length = rest := by
    rw [split, List.drop_left]
  have held (name : String) :
      (Captures.bindAll [] (bindings rule.elements blocks)).find? name =
        (bindings rule.elements blocks).reverse.lookup name := by
    rw [Captures.find?_bindAll]
    exact Option.or_none
  refine ⟨positive, ?_, ⟨blocks, ?_, fits.length_eq, behind ▸ fits, held⟩, ?_⟩
  · simp [split]
  · rw [split, List.take_left]
  · intro name
    have bound :=
      Captures.mem_keys_iff (bindings rule.elements blocks).reverse name
    rw [List.map_reverse, List.mem_reverse, fits.map_fst_bindings] at bound
    rw [Captures.mem_keys_iff, held]
    exact bound.symm

/-- Wherever a rule with captures has a candidate, the candidate decomposes the
tokens from that position on. -/
theorem candidatesAt_decompose {rules : List Rule} {tokens : List Token}
    {position : Int} {candidate : Candidate}
    (found : candidate ∈ candidatesAt rules tokens position)
    (capturing : candidate.rule.hasCaptures = true) :
    0 ≤ position ∧ candidate.Decomposes (tokens.drop position.toNat) := by
  unfold candidatesAt at found
  split at found
  · next inside =>
      obtain ⟨rule, _, applies⟩ := List.mem_filterMap.mp found
      obtain rfl : candidate.rule = rule := Rule.candidate?_rule applies
      exact ⟨inside, Rule.candidate?_decomposes applies capturing⟩
  · cases found

/-- A rule with a capture of each kind: up to a literal, balanced, and trailing.
-/
def letSource : RuleSource where
  pattern :=
    "let $(layer() as name) = ($(layer() as value)) in $(layer() as body)"
  replacement := "$(name)= $(value);$(body)"

/-- The rule of `letSource`. -/
def letRule : Rule :=
  (Rule.define letSource).toOption.get (by decide +kernel)

theorem candidatesAt_decompose_let :
    let tokens := lexCode "x; let $a = /* no */ (f(1)) in g();"
    let candidate : Candidate :=
      { rule := letRule
        captures := [("name", lexCode "$a "), ("value", lexCode "f(1)"),
          ("body", lexCode " g();")]
        consumed := 21 }
    candidate ∈ candidatesAt [letRule] tokens 3 ∧ letRule.hasCaptures = true ∧
      0 ≤ (3 : Int) ∧ candidate.Decomposes (tokens.drop 3) := by
  intro tokens candidate
  have found : candidate ∈ candidatesAt [letRule] tokens 3 := by decide +kernel
  have capturing : letRule.hasCaptures = true := by decide +kernel
  exact ⟨found, capturing, candidatesAt_decompose found capturing⟩

end TokenMacros
