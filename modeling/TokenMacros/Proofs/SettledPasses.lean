import TokenMacros.Proofs.Outlines
import TokenMacros.Proofs.RuleTokens
import TokenMacros.Proofs.SettledTokens

/-!
# Passes over settled tokens

What a pass makes of settled tokens is settled again, and its texts depend on
the texts of the tokens only.  The first token, which need not show whether it
is trivia, stays in front or is replaced; it is never captured.
-/

namespace TokenMacros

section

variable {rules : List Rule} {fallback : Bool}

/-! ## Where the tokens of a pass come from -/

/-- The token stands in a replacement, or shows a reference to a name that was
not captured. -/
def WrittenBy (rules : List Rule) (token : Token) : Prop :=
  (∃ rule ∈ rules, .token token ∈ rule.template) ∨
    ∃ name, token = .bare (referenceText name)

theorem mem_instantiate {template : List ReplacementElement}
    {captures : Captures} {token : Token}
    (member : token ∈ instantiate template captures) :
    .token token ∈ template ∨ (∃ name, token = .bare (referenceText name)) ∨
      ∃ name captured, captures.find? name = some captured ∧
        token ∈ captured := by
  obtain ⟨element, listed, stands⟩ := List.mem_flatMap.mp
    ((instantiate_sublist template captures).subset member)
  cases element with
  | token copied =>
      obtain rfl : token = copied := by
        simpa [ReplacementElement.plain] using stands
      exact .inl listed
  | reference name =>
      rw [ReplacementElement.plain] at stands
      cases held : captures.find? name with
      | none =>
          rw [held, Option.getD_none] at stands
          exact .inr (.inl ⟨name, List.mem_singleton.mp stands⟩)
      | some captured =>
          rw [held, Option.getD_some] at stands
          exact .inr (.inr ⟨name, captured, held, stands⟩)

theorem subset_window_of_mem_bindings {pattern : List PatternElement}
    {blocks : List Block} {name : String} {captured : List Token}
    (bound : (name, captured) ∈ bindings pattern blocks) :
    captured ⊆ Block.window blocks := by
  fun_induction bindings pattern blocks with
  | case1 expected pattern block blocks induction =>
      exact List.subset_append_of_subset_right _ (induction bound)
  | case2 index shown pattern block blocks induction =>
      rcases List.mem_cons.mp bound with here | later
      · obtain ⟨_, rfl⟩ := Prod.mk.inj here
        intro token member
        exact List.mem_append_left _ (List.mem_append_right _ member)
      · exact List.subset_append_of_subset_right _ (induction later)
  | case3 => cases bound

theorem mem_of_lookup_eq_some {bound : List (String × List Token)}
    {name : String} {captured : List Token}
    (found : bound.lookup name = some captured) : (name, captured) ∈ bound := by
  induction bound with
  | nil => cases found
  | cons entry bound induction =>
      obtain ⟨other, held⟩ := entry
      rw [List.lookup_cons] at found
      split at found
      · next same =>
          obtain rfl := beq_iff_eq.mp same
          obtain rfl := Option.some.inj found
          exact List.mem_cons_self
      · exact List.mem_cons_of_mem _ (induction found)

theorem Rule.candidate?_captured {rule : Rule} {first : Token}
    {rest : List Token} {candidate : Candidate}
    (found : rule.candidate? (first :: rest) = some candidate)
    {name : String} {captured : List Token}
    (held : candidate.captures.find? name = some captured) :
    captured ⊆ rest := by
  obtain ⟨literal, pattern, _, _, elements, _, _⟩ := candidate?_first found
  rcases candidate?_cases found with ⟨capturing, _⟩ | ⟨_, _, rfl⟩
  · obtain ⟨blocks, behind, split, fits, rfl⟩ :=
      candidate?_fits found capturing
    rw [Captures.find?_bindAll] at held
    have bound : (name, captured) ∈ bindings rule.elements blocks := by
      apply List.mem_reverse.mp
      apply mem_of_lookup_eq_some
      simpa [Captures.find?] using held
    rw [elements] at fits bound
    cases fits with
    | @literal _ actual skipped _ _ blocks trivia same fits =>
        have later : captured ⊆ Block.window blocks :=
          subset_window_of_mem_bindings bound
        have tail : rest =
            (skipped ++ [actual]).tail ++ (Block.window blocks ++ behind) := by
          have split' : first :: rest =
              (skipped ++ [actual]) ++ (Block.window blocks ++ behind) := by
            rw [split, Block.window_cons, List.append_assoc]
          rw [← List.tail_append_of_ne_nil (by simp), ← split', List.tail_cons]
        rw [tail]
        exact List.Subset.trans later (List.subset_append_of_subset_right _
          (List.subset_append_left _ _))
  · cases held

theorem Rule.singleTokenCandidate?_eq {rule : Rule} {token : Token}
    {candidate : Candidate}
    (found : rule.singleTokenCandidate? token = some candidate) :
    candidate = ⟨rule, [], 1⟩ := by
  unfold singleTokenCandidate? at found
  split at found
  · exact (Option.some.inj found).symm
  · cases found

/-- The chosen candidate is of one of the rules, and what it captures lies
behind the first token. -/
theorem chosen?_captured {first : Token} {rest : List Token}
    {candidate : Candidate}
    (chosen : chosen? rules fallback (first :: rest) = some candidate) :
    candidate.rule ∈ rules ∧ ∀ name captured,
      candidate.captures.find? name = some captured → captured ⊆ rest := by
  unfold chosen? at chosen
  split at chosen
  · next matched found =>
      obtain rfl := Option.some.inj chosen
      obtain ⟨rule, member, applies⟩ := List.exists_of_findSome?_eq_some found
      obtain rfl : matched.rule = rule := Rule.candidate?_rule applies
      exact ⟨member, fun name captured held =>
        Rule.candidate?_captured applies held⟩
  · split at chosen
    · obtain ⟨rule, member, applies⟩ :=
        List.exists_of_findSome?_eq_some (chosen : rules.findSome? _ = _)
      obtain rfl := Rule.singleTokenCandidate?_eq applies
      refine ⟨member, ?_⟩
      intro name captured held
      cases held
    · cases chosen

theorem mem_instantiate_chosen {first : Token} {rest : List Token}
    {candidate : Candidate}
    (chosen : chosen? rules fallback (first :: rest) = some candidate)
    {token : Token}
    (member : token ∈
      instantiate candidate.rule.template candidate.captures) :
    token ∈ rest ∨ WrittenBy rules token := by
  obtain ⟨listed, behind⟩ := chosen?_captured chosen
  rcases mem_instantiate member with copied | unresolved |
    ⟨name, captured, held, inside⟩
  · exact .inr (.inl ⟨_, listed, copied⟩)
  · exact .inr (.inr unresolved)
  · exact .inl (behind name captured held inside)

/-- A pass copies tokens and writes those of its rules. -/
theorem mem_pass {tokens : List Token} {token : Token}
    (member : token ∈ pass rules fallback tokens) :
    token ∈ tokens ∨ WrittenBy rules token := by
  fun_induction pass rules fallback tokens with
  | case1 => cases member
  | case2 first rest unmatched induction =>
      rcases List.mem_cons.mp member with rfl | later
      · exact .inl List.mem_cons_self
      · exact (induction later).imp_left (List.mem_cons_of_mem _)
  | case3 first rest candidate chosen induction =>
      rcases List.mem_append.mp member with instantiated | later
      · exact (mem_instantiate_chosen chosen instantiated).imp_left
          (List.mem_cons_of_mem _)
      · refine (induction later).imp_left fun left => ?_
        exact List.mem_cons_of_mem _ (List.mem_of_mem_drop left)

/-! ## Settled tokens stay settled -/

theorem WrittenBy.showsTrivia (shows : ∀ rule ∈ rules, rule.ShowsTrivia)
    {token : Token} (written : WrittenBy rules token) : token.ShowsTrivia := by
  rcases written with ⟨rule, member, copied⟩ | ⟨name, rfl⟩
  · exact (shows rule member).template token copied
  · have text : (Token.bare (referenceText name)).text.toList =
        '$' :: '(' :: name.toList ++ [')'] := by
      simp [Token.text, referenceText]
    rw [Token.ShowsTrivia, text]
    rfl

/-- What a pass makes of settled tokens is settled. -/
theorem Settled.pass (shows : ∀ rule ∈ rules, rule.ShowsTrivia)
    {tokens : List Token} (settled : Settled tokens) :
    Settled (pass rules fallback tokens) := by
  cases tokens with
  | nil => rwa [TokenMacros.pass]
  | cons first rest =>
      have settles {token : Token}
          (source : token ∈ rest ∨ WrittenBy rules token) :
          token.ShowsTrivia := by
        rcases source with behind | written
        · exact settled.behind token behind
        · exact written.showsTrivia shows
      rw [TokenMacros.pass]
      split
      · refine ⟨settled.first, ?_⟩
        intro token member
        exact settles (mem_pass member)
      · next candidate chosen =>
          apply Settled.of_showsTrivia
          intro token member
          apply settles
          rcases List.mem_append.mp member with instantiated | later
          · exact mem_instantiate_chosen chosen instantiated
          · exact (mem_pass later).imp_left List.mem_of_mem_drop

/-! ## Passes depend on texts -/

theorem outlines_eq_of_texts {tokens tokens' : List Token}
    (shows : ∀ token ∈ tokens, token.ShowsTrivia)
    (shows' : ∀ token ∈ tokens', token.ShowsTrivia)
    (same : texts tokens = texts tokens') :
    outlines tokens = outlines tokens' := by
  induction tokens generalizing tokens' with
  | nil =>
      have nothing : tokens' = [] := List.map_eq_nil_iff.mp same.symm
      rw [nothing]
  | cons token tokens induction =>
      obtain ⟨token', tokens', rfl⟩ := exists_cons_of_texts same
      obtain ⟨sameText, sameTexts⟩ := List.cons.inj same
      have sameTrivia : token.isTrivia = token'.isTrivia := by
        rw [shows token List.mem_cons_self, shows' token' List.mem_cons_self,
          sameText]
      have behind : outlines tokens = outlines tokens' := by
        apply induction _ _ sameTexts
        · intro other member
          exact shows other (List.mem_cons_of_mem _ member)
        · intro other member
          exact shows' other (List.mem_cons_of_mem _ member)
      rw [outlines_cons, outlines_cons, behind,
        Token.outline_eq_iff.mpr ⟨sameText, sameTrivia⟩]

theorem PatternElement.accepts_of_text {token token' : Token}
    (same : token.text = token'.text) (element : PatternElement) :
    element.accepts token = element.accepts token' := by
  cases element with
  | token expected => rw [accepts, accepts, same]
  | placeholder index name => rfl

theorem acceptsAll_texts {tokens tokens' : List Token}
    (same : texts tokens = texts tokens') (pattern : List PatternElement) :
    acceptsAll pattern tokens = acceptsAll pattern tokens' := by
  induction pattern generalizing tokens tokens' with
  | nil => rw [acceptsAll, acceptsAll]
  | cons element pattern induction =>
      cases tokens with
      | nil =>
          have nothing : tokens' = [] := List.map_eq_nil_iff.mp same.symm
          rw [nothing]
      | cons token tokens =>
          obtain ⟨token', tokens', rfl⟩ := exists_cons_of_texts same
          obtain ⟨sameText, sameTexts⟩ := List.cons.inj same
          rw [acceptsAll, acceptsAll, induction sameTexts,
            element.accepts_of_text sameText]

theorem Rule.candidate?_of_looksTrivial {rule : Rule}
    (shows : rule.ShowsTrivia) (capturing : rule.hasCaptures = true)
    {first : Token} (trivial : looksTrivial first.text.toList = true)
    (rest : List Token) : rule.candidate? (first :: rest) = none := by
  cases found : rule.candidate? (first :: rest) with
  | none => rfl
  | some candidate =>
      obtain ⟨literal, pattern, token, tokens, elements, split, same⟩ :=
        candidate?_first found
      obtain ⟨rfl, rfl⟩ := List.cons.inj split
      have plain := shows.opening capturing literal (by rw [elements]; rfl)
      rw [same, trivial] at plain
      cases plain

/-- A rule with captures is not applied where the text looks trivial, and any
other rule looks at texts only. -/
theorem Rule.candidate?_texts {rule : Rule} (shows : rule.ShowsTrivia)
    {first first' : Token} {rest rest' : List Token}
    (trivial : looksTrivial first.text.toList = true)
    (same : texts (first :: rest) = texts (first' :: rest')) :
    rule.candidate? (first :: rest) = rule.candidate? (first' :: rest') := by
  have sameText : first.text = first'.text := (List.cons.inj same).1
  cases capturing : rule.hasCaptures with
  | true =>
      rw [candidate?_of_looksTrivial shows capturing trivial,
        candidate?_of_looksTrivial shows capturing (sameText ▸ trivial)]
  | false =>
      unfold candidate?
      cases rule.elements with
      | nil => rfl
      | cons element pattern =>
          simp only [capturing, element.accepts_of_text sameText,
            acceptsAll_texts same, Bool.false_eq_true, if_false]

theorem chosen?_texts (shows : ∀ rule ∈ rules, rule.ShowsTrivia)
    {first first' : Token} {rest rest' : List Token}
    (trivial : looksTrivial first.text.toList = true)
    (same : texts (first :: rest) = texts (first' :: rest')) :
    chosen? rules fallback (first :: rest) =
      chosen? rules fallback (first' :: rest') := by
  have sameText : first.text = first'.text := (List.cons.inj same).1
  have matched : rules.findSome? (·.candidate? (first :: rest)) =
      rules.findSome? (·.candidate? (first' :: rest')) := by
    rw [← List.head?_filterMap, ← List.head?_filterMap]
    congr 1
    apply List.filterMap_congr
    intro rule member
    exact Rule.candidate?_texts (shows rule member) trivial same
  have single : ∀ rule : Rule, rule.singleTokenCandidate? first =
      rule.singleTokenCandidate? first' := by
    intro rule
    simp only [Rule.singleTokenCandidate?,
      PatternElement.accepts_of_text sameText]
  simp only [chosen?, matched, single, List.head?_cons, Option.bind_some]

/-- Passes over settled tokens with the same texts make the same texts. -/
theorem Settled.texts_pass (shows : ∀ rule ∈ rules, rule.ShowsTrivia)
    {tokens tokens' : List Token} (settled : Settled tokens)
    (settled' : Settled tokens') (same : texts tokens = texts tokens') :
    texts (TokenMacros.pass rules fallback tokens) =
      texts (TokenMacros.pass rules fallback tokens') := by
  cases tokens with
  | nil =>
      have nothing : tokens' = [] := List.map_eq_nil_iff.mp same.symm
      rw [nothing]
  | cons first rest =>
      obtain ⟨first', rest', rfl⟩ := exists_cons_of_texts same
      obtain ⟨sameText, sameTexts⟩ := List.cons.inj same
      have sameRest : outlines rest = outlines rest' :=
        outlines_eq_of_texts settled.behind settled'.behind sameTexts
      by_cases sameTrivia : first.isTrivia = first'.isTrivia
      · apply texts_eq_of_outlines
        apply pass_outlines
        rw [outlines_cons, outlines_cons, sameRest,
          Token.outline_eq_iff.mpr ⟨sameText, sameTrivia⟩]
      · have trivial : looksTrivial first.text.toList = true := by
          cases plain : first.isTrivia with
          | true => exact settled.first first rfl plain
          | false =>
              rw [plain, eq_comm, Bool.not_eq_false] at sameTrivia
              rw [sameText]
              exact settled'.first first' rfl sameTrivia
        rw [TokenMacros.pass, TokenMacros.pass,
          chosen?_texts shows trivial same]
        split
        · rw [texts, texts, List.map_cons, List.map_cons, sameText]
          congr 1
          exact texts_eq_of_outlines (pass_outlines rules fallback sameRest)
        · next candidate chosen =>
            have left : outlines (rest.drop (candidate.consumed - 1)) =
                outlines (rest'.drop (candidate.consumed - 1)) := by
              rw [outlines_drop, outlines_drop, sameRest]
            rw [texts, texts, List.map_append, List.map_append]
            congr 1
            exact texts_eq_of_outlines (pass_outlines rules fallback left)

end

end TokenMacros
