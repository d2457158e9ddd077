import TokenMacros.Proofs.MarkStretches
import TokenMacros.Proofs.TriviaTexts
import TokenMacros.Rule.Basic

/-!
# Tokens of rules

Where a replacement has no close tag, all tokens that its rule writes show by
their texts whether they are trivia.  The first literal of a pattern with
captures does not look trivial, whatever the pattern contains.
-/

namespace TokenMacros

theorem Token.text_infix_render {token : Token} {tokens : List Token}
    (member : token ∈ tokens) :
    token.text.toList <:+: (render tokens).toList := by
  obtain ⟨front, back, rfl⟩ := List.append_of_mem member
  refine ⟨(render front).toList, (render back).toList, ?_⟩
  simp [render]

theorem text_infix_of_mem_lex {mode : Mode} {source : String} {token : Token}
    (member : token ∈ lex mode source) :
    token.text.toList <:+: source.toList := by
  have inside := Token.text_infix_render member
  rwa [render_lex] at inside

/-- Code without a close tag is lexed into tokens that show whether they are
trivia. -/
theorem lexCode_showsTrivia {code : String}
    (codeOnly : ¬ closeTagMark <:+: code.toList) :
    ∀ token ∈ lexCode code, token.ShowsTrivia := by
  apply showsTrivia_of_lexFrom_code (lexFrom_start .code code)
  intro token listed tagged
  exact codeOnly (tagged.isInfix.trans (text_infix_of_mem_lex listed))

/-- The first token of code that is not trivia does not look trivial.  Behind a
close tag there may be others that do. -/
theorem looksTrivial_first_of_lexCode {code : String} {first : Token}
    (isFirst : ((lexCode code).filter (!·.isTrivia)).head? = some first) :
    looksTrivial first.text.toList = false := by
  obtain ⟨behind, split, none⟩ := lexCode_pieces code
  have found : (codePieces code.toList ++ behind).find? isMeaningful =
      some first.piece := by
    have firstToken : (lexCode code).find? (!·.isTrivia) = some first := by
      rw [← List.head?_filter]
      exact isFirst
    rw [← split, List.find?_map, isMeaningful_comp_piece]
    exact congrArg (Option.map Token.piece) firstToken
  rw [List.find?_append] at found
  cases inCode : (codePieces code.toList).find? isMeaningful with
  | some piece =>
      rw [inCode, Option.some_or] at found
      obtain rfl := Option.some.inj found
      have plain : isMeaningful first.piece = true := List.find?_some inCode
      have shown : first.piece.1.any Kind.isTrivia =
          looksTrivial first.text.toList :=
        codePieces_isTrivia (List.mem_of_find?_eq_some inCode)
      rw [← shown]
      simpa [isMeaningful] using plain
  | none =>
      have noTag : CodeOnly (codePieces code.toList) := by
        intro piece member closes
        have refused := List.find?_eq_none.mp inCode piece member
        simp [isMeaningful, closes, Kind.isTrivia] at refused
      rw [inCode, none (flatMap_codePieces noTag)] at found
      cases found

/-! ## Patterns -/

theorem looksTrivial_bracket {c : Char} (bracket : isBracket c = true) :
    looksTrivial [c] = false := by
  have piece : (none, [c]) ∈ codePieces [c] := by
    rw [codePieces_bracket bracket]
    exact List.mem_singleton_self _
  exact (codePieces_isTrivia piece).symm

theorem looksTrivial_first_of_codeElements {chunk : List Char} {first : Token}
    (isFirst : (Pattern.chunkElements.codeElements chunk).head? =
      some (.token first)) :
    looksTrivial first.text.toList = false := by
  rw [Pattern.chunkElements.codeElements, List.head?_map,
    Option.map_eq_some_iff] at isFirst
  obtain ⟨token, isHead, same⟩ := isFirst
  obtain rfl := PatternElement.token.inj same
  exact looksTrivial_first_of_lexCode isHead

theorem looksTrivial_first_of_chunkElements {names : List (Nat × String)}
    {chunk : List Char} {first : Token}
    (isFirst : (Pattern.chunkElements names chunk).head? =
      some (.token first)) :
    looksTrivial first.text.toList = false := by
  unfold Pattern.chunkElements at isFirst
  split at isFirst
  · cases isFirst
  split at isFirst
  · split at isFirst
    · next c _ bracket =>
        obtain rfl : .bare (String.singleton c) = first := by
          simpa using isFirst
        have text : (Token.bare (String.singleton c)).text.toList = [c] := by
          simp [Token.text]
        rw [text]
        exact looksTrivial_bracket bracket
    · exact looksTrivial_first_of_codeElements isFirst
  · exact looksTrivial_first_of_codeElements isFirst

theorem looksTrivial_first_of_chunks {names : List (Nat × String)}
    {chunks : List (List Char)} {first : Token}
    (isFirst : (chunks.flatMap (Pattern.chunkElements names)).head? =
      some (.token first)) :
    looksTrivial first.text.toList = false := by
  induction chunks with
  | nil => cases isFirst
  | cons chunk chunks induction =>
      rw [List.flatMap_cons, List.head?_append] at isFirst
      cases here : (Pattern.chunkElements names chunk).head? with
      | none =>
          rw [here, Option.none_or] at isFirst
          exact induction isFirst
      | some element =>
          rw [here, Option.some_or] at isFirst
          obtain rfl := Option.some.inj isFirst
          exact looksTrivial_first_of_chunkElements here

theorem looksTrivial_first_of_parse {pattern : String} {first : Token}
    (capturing : (Pattern.parse pattern).captures ≠ [])
    (isFirst : (Pattern.parse pattern).elements.head? = some (.token first)) :
    looksTrivial first.text.toList = false := by
  unfold Pattern.parse at capturing isFirst
  simp only at capturing isFirst
  split at isFirst
  · next unmarked =>
      rw [if_pos unmarked] at capturing
      exact absurd rfl capturing
  · exact looksTrivial_first_of_chunks isFirst

/-! ## Replacements -/

theorem exists_stretch_of_mem_parse {replacement : String} {token : Token}
    (member : .token token ∈ Replacement.parse replacement) :
    ∃ stretch ∈ (Stretches.cut Mark.reference? replacement.toList).all,
      token ∈ lexCode (String.ofList stretch) := by
  have ofCode {stretch : List Char}
      (listed : .token token ∈ Replacement.codeElements stretch) :
      token ∈ lexCode (String.ofList stretch) := by
    obtain ⟨copied, read, same⟩ := List.mem_map.mp listed
    obtain rfl := ReplacementElement.token.inj same
    exact read
  unfold Replacement.parse at member
  rcases List.mem_append.mp member with lead | behind
  · exact ⟨_, List.mem_cons_self, ofCode lead⟩
  · obtain ⟨⟨name, stretch⟩, marked, listed⟩ := List.mem_flatMap.mp behind
    rcases List.mem_cons.mp listed with reference | code
    · cases reference
    · exact ⟨stretch,
        List.mem_cons_of_mem _ (List.mem_map_of_mem marked), ofCode code⟩

theorem parse_showsTrivia {replacement : String}
    (codeOnly : ¬ closeTagMark <:+: replacement.toList) {token : Token}
    (member : .token token ∈ Replacement.parse replacement) :
    token.ShowsTrivia := by
  obtain ⟨stretch, cut, read⟩ := exists_stretch_of_mem_parse member
  have part : stretch <:+: replacement.toList := by
    apply Stretches.infix_of_mem_all _ cut
    intro text name behind marked
    exact ⟨_, (Mark.reference?_eq_some marked).symm⟩
  apply lexCode_showsTrivia _ token read
  intro tagged
  rw [String.toList_ofList] at tagged
  exact codeOnly (tagged.trans part)

/-! ## Rules -/

/-- The tokens that a rule writes show whether they are trivia. -/
def Rule.WritesShown (rule : Rule) : Prop :=
  ∀ token, .token token ∈ rule.template → token.ShowsTrivia

/-- The tokens of a rule's replacement, and the first of its pattern if it has
captures, are told from trivia by their texts. -/
structure Rule.ShowsTrivia (rule : Rule) : Prop where
  template : rule.WritesShown
  opening : rule.hasCaptures = true → ∀ first,
    rule.elements.head? = some (.token first) →
      looksTrivial first.text.toList = false

namespace Rule

theorem toOption_define_eq_some {source : RuleSource} {rule : Rule} :
    (define source).toOption = some rule ↔ define source = .ok rule := by
  cases define source <;> simp [Except.toOption]

theorem define_eq_ok {source : RuleSource} {rule : Rule}
    (defined : define source = .ok rule) :
    rule.elements = (Pattern.parse rule.pattern).elements ∧
      rule.captures = (Pattern.parse rule.pattern).captures ∧
      rule.template = Replacement.parse rule.replacement := by
  unfold define at defined
  dsimp only at defined
  split at defined
  · cases defined
  · cases defined
  · obtain rfl := Except.ok.inj defined
    exact ⟨rfl, rfl, rfl⟩

theorem writesShown_of_define {source : RuleSource} {rule : Rule}
    (defined : define source = .ok rule)
    (noTagWritten : ¬ closeTagMark <:+: rule.replacement.toList) :
    rule.WritesShown := by
  intro token member
  rw [(define_eq_ok defined).2.2] at member
  exact parse_showsTrivia noTagWritten member

theorem showsTrivia_of_define {source : RuleSource} {rule : Rule}
    (defined : define source = .ok rule) (written : rule.WritesShown) :
    rule.ShowsTrivia := by
  obtain ⟨elements, captures, -⟩ := define_eq_ok defined
  refine ⟨written, ?_⟩
  intro capturing first isFirst
  rw [elements] at isFirst
  apply looksTrivial_first_of_parse _ isFirst
  intro nothing
  simp [hasCaptures, captures, nothing] at capturing

end Rule

end TokenMacros
