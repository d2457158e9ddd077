import Mathlib.Algebra.Order.BigOperators.Group.List
import Mathlib.Algebra.Order.Ring.Nat
import TokenMacros.Expansion.Pass
import TokenMacros.Proofs.PatternDecomposition
import TokenMacros.Proofs.PlainInstances

/-!
# Token weights

A weight is given to each token text.  If the replacement of a rule weighs less
than the token its pattern begins with, and copies no capture twice, then
applying the rule makes the tokens lighter: the captures are disjoint parts of
what was matched behind the first token.
-/

namespace TokenMacros

/-- The total weight of a token list. -/
def weigh (weight : String → Nat) (tokens : List Token) : Nat :=
  (tokens.map fun token => weight token.text).sum

/-- The total weight of a replacement as it is written, references included. -/
def weighTemplate (weight : String → Nat) (template : List ReplacementElement) :
    Nat :=
  (template.map fun element => weight element.text).sum

/-- The total weight of all captured tokens. -/
def weighCaptures (weight : String → Nat) (captures : Captures) : Nat :=
  (captures.map fun entry => weigh weight entry.2).sum

/-- The rule takes away more weight than its replacement brings. -/
structure Rule.Lightens (weight : String → Nat) (rule : Rule) : Prop where
  lighter : ∀ first ∈ rule.elements.head?,
    weighTemplate weight rule.template < weight first.text
  /-- No capture is copied twice. -/
  once : ∀ name ∈ captureNames rule.elements,
    rule.template.count (.reference name) ≤ 1

instance (weight : String → Nat) (rule : Rule) :
    Decidable (rule.Lightens weight) :=
  decidable_of_iff
    ((∀ first ∈ rule.elements.head?,
        weighTemplate weight rule.template < weight first.text) ∧
      ∀ name ∈ captureNames rule.elements,
        rule.template.count (.reference name) ≤ 1)
    ⟨fun ⟨lighter, once⟩ => ⟨lighter, once⟩,
      fun lightens => ⟨lightens.lighter, lightens.once⟩⟩

variable {weight : String → Nat}

@[simp] theorem weigh_nil : weigh weight [] = 0 := rfl

@[simp] theorem weigh_cons (token : Token) (tokens : List Token) :
    weigh weight (token :: tokens) =
      weight token.text + weigh weight tokens := rfl

@[simp] theorem weigh_append (left right : List Token) :
    weigh weight (left ++ right) = weigh weight left + weigh weight right := by
  simp [weigh]

theorem weigh_le_of_sublist {some all : List Token}
    (sublist : some.Sublist all) :
    weigh weight some ≤ weigh weight all :=
  (sublist.map fun token : Token => weight token.text).sum_le_sum
    fun _ _ => Nat.zero_le _

theorem weigh_eq_of_texts {left right : List Token}
    (same : left.map Token.text = right.map Token.text) :
    weigh weight left = weigh weight right := by
  have weights := congrArg (fun texts => (texts.map weight).sum) same
  unfold weigh
  simpa only [List.map_map, Function.comp_def] using weights

@[simp] theorem weighTemplate_cons (element : ReplacementElement)
    (template : List ReplacementElement) :
    weighTemplate weight (element :: template) =
      weight element.text + weighTemplate weight template := rfl

@[simp] theorem weighCaptures_nil : weighCaptures weight [] = 0 := rfl

@[simp] theorem weighCaptures_cons (name : String) (tokens : List Token)
    (captures : Captures) :
    weighCaptures weight ((name, tokens) :: captures) =
      weigh weight tokens + weighCaptures weight captures := rfl

/-! ## The weight of an instance -/

variable (weight)

/-- The weight that a replacement copies from the captures. -/
def weighCopied (template : List ReplacementElement) (captures : Captures) :
    Nat :=
  (captures.map fun (name, held) =>
    template.count (.reference name) * weigh weight held).sum

theorem weighCopied_le_cons (element : ReplacementElement)
    (template : List ReplacementElement) (captures : Captures) :
    weighCopied weight template captures ≤
      weighCopied weight (element :: template) captures := by
  refine List.sum_le_sum fun entry _ => ?_
  exact Nat.mul_le_mul_right _ List.count_le_count_cons

theorem weighCopied_reference {name : String} {held : List Token}
    {captures : Captures} (found : captures.find? name = some held)
    (template : List ReplacementElement) :
    weigh weight held + weighCopied weight template captures ≤
      weighCopied weight (.reference name :: template) captures := by
  obtain ⟨before, after, rfl, -⟩ := List.lookup_eq_some_iff.mp found
  have front := weighCopied_le_cons weight (.reference name) template before
  have back := weighCopied_le_cons weight (.reference name) template after
  simp only [weighCopied, List.map_append, List.map_cons, List.sum_append,
    List.sum_cons, List.count_cons_self, Nat.add_mul, Nat.one_mul]
    at front back ⊢
  omega

/-- An instance consists of the replacement's own tokens and of copied captures.
-/
theorem weigh_plainInstance_le (template : List ReplacementElement)
    (captures : Captures) :
    weigh weight (plainInstance template captures) ≤
      weighTemplate weight template + weighCopied weight template captures := by
  induction template with
  | nil => exact Nat.zero_le _
  | cons element template induction =>
      have more := weighCopied_le_cons weight element template captures
      rw [plainInstance_cons, weigh_append, weighTemplate_cons]
      cases element with
      | token copied =>
          simp only [ReplacementElement.plain, weigh_cons, weigh_nil,
            ReplacementElement.text]
          omega
      | reference name =>
          cases found : captures.find? name with
          | none =>
              have marker :
                  weigh weight
                      ((ReplacementElement.reference name).plain captures) =
                    weight (referenceText name) := by
                simp [ReplacementElement.plain, found, Token.text]
              rw [marker, ReplacementElement.text]
              omega
          | some held =>
              have copied := weighCopied_reference weight found template
              have resolved :
                  (ReplacementElement.reference name).plain captures =
                    held := by
                simp [ReplacementElement.plain, found]
              rw [resolved]
              omega

/-- Where no capture is copied twice, an instance weighs no more than the
replacement and the captures together. -/
theorem weigh_instantiate_le {template : List ReplacementElement}
    {captures : Captures}
    (once : ∀ name ∈ captures.map Prod.fst,
      template.count (.reference name) ≤ 1) :
    weigh weight (instantiate template captures) ≤
      weighTemplate weight template + weighCaptures weight captures := by
  have copied : weighCopied weight template captures ≤
      weighCaptures weight captures := by
    refine List.sum_le_sum fun entry member => ?_
    have atMostOnce := once entry.1 (List.mem_map_of_mem member)
    calc
      template.count (.reference entry.1) * weigh weight entry.2 ≤
          1 * weigh weight entry.2 :=
        Nat.mul_le_mul_right _ atMostOnce
      _ = weigh weight entry.2 := Nat.one_mul _
  calc
    weigh weight (instantiate template captures) ≤
        weigh weight (plainInstance template captures) :=
      weigh_le_of_sublist (instantiate_sublist template captures)
    _ ≤ weighTemplate weight template + weighCopied weight template captures :=
      weigh_plainInstance_le weight template captures
    _ ≤ weighTemplate weight template + weighCaptures weight captures :=
      Nat.add_le_add_left copied _

/-! ## The weight of captures -/

/-- A name that is bound again gives up what it held. -/
theorem weighCaptures_bind_le (captures : Captures) (name : String)
    (tokens : List Token) :
    weighCaptures weight (captures.bind name tokens) ≤
      weighCaptures weight captures + weigh weight tokens := by
  induction captures with
  | nil => simp [Captures.bind]
  | cons entry captures induction =>
      obtain ⟨bound, held⟩ := entry
      rw [Captures.bind]
      split
      · simp only [weighCaptures_cons]
        omega
      · simp only [weighCaptures_cons]
        omega

theorem weighCaptures_bindAll_le (captures : Captures)
    (bindings : List (String × List Token)) :
    weighCaptures weight (captures.bindAll bindings) ≤
      weighCaptures weight captures + weighCaptures weight bindings := by
  induction bindings generalizing captures with
  | nil => simp
  | cons binding bindings induction =>
      obtain ⟨name, tokens⟩ := binding
      have first := weighCaptures_bind_le weight captures name tokens
      have later := induction (captures.bind name tokens)
      rw [Captures.bindAll_cons, weighCaptures_cons]
      omega

/-- What placeholders capture is disjoint: it weighs no more than the input that
is taken. -/
theorem Fits.weighCaptures_le {pattern : List PatternElement}
    {blocks : List Block} {rest : List Token}
    (fits : Fits pattern blocks rest) :
    weighCaptures weight (bindings pattern blocks) ≤
      weigh weight (Block.window blocks) := by
  induction fits with
  | done => exact Nat.zero_le _
  | literal _ _ _ induction =>
      simp only [bindings, Block.window_cons, weigh_append]
      omega
  | balanced _ _ _ induction =>
      simp only [bindings, weighCaptures_cons, Block.window_cons, weigh_append]
        at induction ⊢
      omega
  | upTo _ _ _ _ induction =>
      simp only [bindings, weighCaptures_cons, Block.window_cons, weigh_append]
        at induction ⊢
      omega
  | trailing index name captured => simp [bindings]

/-- The literal that a pattern begins with is matched beside the captures. -/
theorem Fits.weigh_first_le {first : Token} {pattern : List PatternElement}
    {blocks : List Block} {rest : List Token}
    (fits : Fits (.token first :: pattern) blocks rest) :
    weight first.text +
        weighCaptures weight (bindings (.token first :: pattern) blocks) ≤
      weigh weight (Block.window blocks) := by
  cases fits with
  | literal _ same later =>
      have captured := later.weighCaptures_le weight
      rw [bindings, Block.window_cons, weigh_append, weigh_append, weigh_cons,
        weigh_nil, same]
      omega

/-! ## The weight of a match -/

variable {weight}

/-- A candidate takes the first token of the input, and what it captures stands
behind that token and in front of what is left.  Only names of the pattern are
captured. -/
structure Candidate.Pays (weight : String → Nat) (candidate : Candidate)
    (tokens : List Token) : Prop where
  consumed_pos : 1 ≤ candidate.consumed
  names : ∀ name ∈ candidate.captures.map Prod.fst,
    name ∈ captureNames candidate.rule.elements
  first : ∃ first ∈ candidate.rule.elements.head?,
    weight first.text + weighCaptures weight candidate.captures +
      weigh weight (tokens.drop candidate.consumed) ≤ weigh weight tokens

theorem Candidate.pays_of_no_captures {rule : Rule} {first : PatternElement}
    {token : Token} {rest : List Token} {consumed : Nat}
    (begins : rule.elements.head? = some first) (same : first.text = token.text)
    (positive : 1 ≤ consumed) :
    Candidate.Pays weight ⟨rule, [], consumed⟩ (token :: rest) := by
  refine ⟨positive, by simp, first, begins, ?_⟩
  obtain ⟨further, rfl⟩ := Nat.exists_eq_add_of_le' positive
  have left : weigh weight (rest.drop further) ≤ weigh weight rest :=
    weigh_le_of_sublist (List.drop_sublist further rest)
  simp only [weighCaptures_nil, List.drop_succ_cons, weigh_cons, same]
  omega

/-- Whatever a rule matches, its captures are paid for. -/
theorem Rule.candidate?_pays {rule : Rule} {tokens : List Token}
    {candidate : Candidate} (found : rule.candidate? tokens = some candidate) :
    candidate.Pays weight tokens := by
  obtain ⟨first, pattern, token, rest, elements, rfl, same⟩ :=
    Rule.candidate?_first found
  have begins : rule.elements.head? = some (.token first) := by
    rw [elements]
    rfl
  rcases Rule.candidate?_cases found with ⟨capturing, _⟩ | ⟨_, _, rfl⟩
  · have decomposes := Rule.candidate?_decomposes found capturing
    obtain ⟨blocks, behind, split, fits, rfl⟩ :=
      Rule.candidate?_fits found capturing
    refine ⟨decomposes.consumed_pos, ?_, _, begins, ?_⟩
    · intro name captured
      exact (decomposes.keys name).mp captured
    have bound :=
      weighCaptures_bindAll_le weight [] (bindings rule.elements blocks)
    rw [elements] at fits bound ⊢
    have taken := fits.weigh_first_le weight
    rw [split, List.drop_left, weigh_append]
    simp only [weighCaptures_nil, PatternElement.text] at bound ⊢
    omega
  · exact Candidate.pays_of_no_captures begins same (by simp [elements])

theorem PatternElement.text_of_accepts {element : PatternElement}
    {actual : Token} (accepts : element.accepts actual = true) :
    element.text = actual.text := by
  cases element with
  | token expected =>
      simpa [PatternElement.accepts, PatternElement.text] using accepts
  | placeholder index name => simp [PatternElement.accepts] at accepts

theorem Rule.singleTokenCandidate?_rule {rule : Rule} {token : Token}
    {candidate : Candidate}
    (found : rule.singleTokenCandidate? token = some candidate) :
    candidate.rule = rule := by
  unfold Rule.singleTokenCandidate? at found
  split at found <;> cases found
  rfl

theorem Rule.singleTokenCandidate?_pays {rule : Rule} {token : Token}
    {rest : List Token} {candidate : Candidate}
    (found : rule.singleTokenCandidate? token = some candidate) :
    candidate.Pays weight (token :: rest) := by
  unfold Rule.singleTokenCandidate? at found
  split at found
  · next begins =>
      obtain ⟨first, isFirst, accepts⟩ := (Option.any_eq_true _ _).mp begins
      cases found
      have same := PatternElement.text_of_accepts accepts
      exact Candidate.pays_of_no_captures isFirst same le_rfl
  · cases found

/-- Applying a rule that lightens makes the tokens lighter. -/
theorem Candidate.Pays.lighter {candidate : Candidate} {tokens : List Token}
    (pays : candidate.Pays weight tokens)
    (lightens : candidate.rule.Lightens weight) :
    weigh weight (instantiate candidate.rule.template candidate.captures) +
      weigh weight (tokens.drop candidate.consumed) < weigh weight tokens := by
  obtain ⟨first, begins, paid⟩ := pays.first
  have written :
      weighTemplate weight candidate.rule.template < weight first.text :=
    lightens.lighter first begins
  have once : ∀ name ∈ candidate.captures.map Prod.fst,
      candidate.rule.template.count (.reference name) ≤ 1 := by
    intro name captured
    exact lightens.once name (pays.names name captured)
  have copied := weigh_instantiate_le weight once
  omega

end TokenMacros
