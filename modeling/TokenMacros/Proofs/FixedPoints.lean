import TokenMacros.Proofs.SettledPasses
import TokenMacros.Proofs.WeightedConvergence

/-!
# Fixed points

Expansion stops when a round changes no text.  On settled tokens a pass depends
on texts only, so what a converged expansion leaves is left alone by every later
expansion, also when its text is lexed anew into tokens of the same texts.
-/

namespace TokenMacros

/-- A pass changes no text. -/
def Still (rules : List Rule) (fallback : Bool) (tokens : List Token) : Prop :=
  texts (pass rules fallback tokens) = texts tokens

section

variable {rules : List Rule} {fallback : Bool}

theorem Settled.still_of_texts (shows : ∀ rule ∈ rules, rule.ShowsTrivia)
    {tokens tokens' : List Token} (settled : Settled tokens)
    (settled' : Settled tokens') (same : texts tokens' = texts tokens)
    (still : Still rules fallback tokens) : Still rules fallback tokens' := by
  calc
    texts (TokenMacros.pass rules fallback tokens') =
        texts (TokenMacros.pass rules fallback tokens) :=
      settled'.texts_pass shows settled same
    _ = texts tokens := still
    _ = texts tokens' := same.symm

/-! ## Passes -/

theorem Settled.passes (shows : ∀ rule ∈ rules, rule.ShowsTrivia)
    {tokens : List Token} (settled : Settled tokens) (count : Nat) :
    Settled (passes rules fallback count tokens).1 := by
  induction count generalizing tokens with
  | zero => exact settled
  | succ count induction => exact induction (settled.pass shows)

theorem Still.passes_unchanged (shows : ∀ rule ∈ rules, rule.ShowsTrivia)
    {tokens : List Token} (settled : Settled tokens)
    (still : Still rules fallback tokens) (count : Nat) :
    (passes rules fallback count tokens).2 = false ∧
      texts (passes rules fallback count tokens).1 = texts tokens := by
  induction count generalizing tokens with
  | zero => exact ⟨rfl, rfl⟩
  | succ count induction =>
      have rebuilt : Settled (pass rules fallback tokens) := settled.pass shows
      have stillRebuilt : Still rules fallback (pass rules fallback tokens) :=
        settled.still_of_texts shows rebuilt still still
      obtain ⟨unchanged, same⟩ := induction rebuilt stillRebuilt
      refine ⟨?_, same.trans still⟩
      have here : (texts (pass rules fallback tokens) != texts tokens) =
          false := by
        rw [still, bne_self_eq_false]
      simp only [passes, here, unchanged, Bool.or_false]

theorem still_of_passes_unchanged {count : Nat} {tokens : List Token}
    (unchanged : (passes rules fallback (count + 1) tokens).2 = false) :
    Still rules fallback tokens := by
  simp only [passes, Bool.or_eq_false_iff, bne_eq_false_iff_eq] at unchanged
  exact unchanged.1

/-! ## Rounds -/

/-- Rounds that converge end with settled tokens on which a pass changes no
text. -/
theorem Settled.rounds_still (shows : ∀ rule ∈ rules, rule.ShowsTrivia)
    (some : rules ≠ []) {limit : Nat} {tokens : List Token}
    (settled : Settled tokens)
    (converged : (rounds rules fallback limit tokens).converged = true) :
    Settled (rounds rules fallback limit tokens).tokens ∧
      Still rules fallback (rounds rules fallback limit tokens).tokens := by
  induction limit generalizing tokens with
  | zero => cases converged
  | succ limit induction =>
      have result : Settled (round rules fallback tokens).1 :=
        settled.passes shows rules.length
      rw [rounds] at converged ⊢
      cases changed : (round rules fallback tokens).2 with
      | true =>
          simp only [changed, if_true] at converged ⊢
          exact induction result converged
      | false =>
          simp only [changed, Bool.false_eq_true, if_false]
          obtain ⟨count, length⟩ := Nat.exists_eq_add_one_of_ne_zero
            (List.length_eq_zero_iff.not.mpr some)
          -- the first pass of the last round tells; the others repeat it
          have still : Still rules fallback tokens := by
            rw [round, length] at changed
            exact still_of_passes_unchanged changed
          have same : texts (round rules fallback tokens).1 = texts tokens :=
            (still.passes_unchanged shows settled rules.length).2
          exact ⟨result, settled.still_of_texts shows result same still⟩

theorem Still.rounds_eq (shows : ∀ rule ∈ rules, rule.ShowsTrivia)
    {tokens : List Token} (settled : Settled tokens)
    (still : Still rules fallback tokens) {limit : Nat} (positive : 0 < limit) :
    texts (rounds rules fallback limit tokens).tokens = texts tokens ∧
      (rounds rules fallback limit tokens).converged = true ∧
      (rounds rules fallback limit tokens).iterations = 1 := by
  obtain ⟨further, rfl⟩ := Nat.exists_eq_add_one_of_ne_zero positive.ne'
  obtain ⟨unchanged, same⟩ :=
    still.passes_unchanged shows settled rules.length
  simp only [rounds, round, unchanged, Bool.false_eq_true, if_false]
  exact ⟨same, trivial, trivial⟩

/-! ## Expansion -/

theorem still_of_no_rules (fallback : Bool) (tokens : List Token) :
    Still [] fallback tokens := by
  rw [Still, (quiet_of_no_rules fallback tokens).pass_eq]

/-- A converged expansion ends with settled tokens on which a pass changes no
text. -/
theorem Settled.expandTokens_still (shows : ∀ rule ∈ rules, rule.ShowsTrivia)
    {limits : Limits} {tokens : List Token} (settled : Settled tokens)
    (converged : (expandTokens rules limits tokens).converged = true) :
    Settled (expandTokens rules limits tokens).tokens ∧
      Still rules limits.singleTokenFallback
        (expandTokens rules limits tokens).tokens := by
  cases rules with
  | nil => exact ⟨settled, still_of_no_rules _ tokens⟩
  | cons rule rules =>
      exact settled.rounds_still shows (List.cons_ne_nil rule rules) converged

/-- Expansion leaves the texts of still tokens alone and needs one round at most
to notice. -/
theorem Still.expandTokens_eq (shows : ∀ rule ∈ rules, rule.ShowsTrivia)
    {limits : Limits} {tokens : List Token} (settled : Settled tokens)
    (still : Still rules limits.singleTokenFallback tokens) :
    texts (expandTokens rules limits tokens).tokens = texts tokens ∧
      (expandTokens rules limits tokens).converged = true ∧
      (expandTokens rules limits tokens).iterations ≤ 1 := by
  cases rules with
  | nil => exact ⟨rfl, rfl, Nat.zero_le 1⟩
  | cons rule rules =>
      obtain ⟨same, converged, iterations⟩ :=
        still.rounds_eq shows settled limits.maxIterations_pos
      exact ⟨same, converged, iterations.le⟩

theorem showsTrivia_of_defined
    (defined : ∀ rule ∈ rules, ∃ source, Rule.define source = .ok rule)
    (written : ∀ rule ∈ rules, rule.WritesShown) :
    ∀ rule ∈ rules, rule.ShowsTrivia := by
  intro rule member
  obtain ⟨source, success⟩ := defined rule member
  exact Rule.showsTrivia_of_define success (written rule member)

theorem writesShown_of_no_tag
    (defined : ∀ rule ∈ rules, ∃ source, Rule.define source = .ok rule)
    (noTagWritten : ∀ rule ∈ rules,
      ¬ closeTagMark <:+: rule.replacement.toList) :
    ∀ rule ∈ rules, rule.WritesShown := by
  intro rule member
  obtain ⟨source, success⟩ := defined rule member
  exact Rule.writesShown_of_define success (noTagWritten rule member)

theorem lex_settled_of_no_tag {mode : Mode} {source : String}
    (own : mode = .template → sourceMode source = .template)
    (noTag : ¬ closeTagMark <:+: source.toList) :
    Settled (lex mode source) := by
  apply lex_settled own
  intro token member tagged
  exact noTag (tagged.isInfix.trans (text_infix_of_mem_lex member))

end

/-- What a converged expansion of code makes is a fixed point: where neither the
code nor a replacement has a close tag, expanding the tokens again, under
whatever limit, changes no text and takes one round at most. -/
theorem expandTokens_fixed {code : String} {rules : List Rule}
    {limits again : Limits}
    (defined : ∀ rule ∈ rules, ∃ source, Rule.define source = .ok rule)
    (noTagWritten : ∀ rule ∈ rules,
      ¬ closeTagMark <:+: rule.replacement.toList)
    (noTag : ¬ closeTagMark <:+: code.toList)
    (converged : (expandTokens rules limits (lexCode code)).converged = true)
    (sameFallback : again.singleTokenFallback = limits.singleTokenFallback) :
    let result := (expandTokens rules limits (lexCode code)).tokens
    texts (expandTokens rules again result).tokens = texts result ∧
      (expandTokens rules again result).converged = true ∧
      (expandTokens rules again result).iterations ≤ 1 := by
  intro result
  have shows := showsTrivia_of_defined defined
    (writesShown_of_no_tag defined noTagWritten)
  have lexed : Settled (lexCode code) := by
    apply lex_settled_of_no_tag _ noTag
    intro template
    cases template
  obtain ⟨settled, still⟩ := lexed.expandTokens_still shows converged
  apply Still.expandTokens_eq shows settled
  rw [sameFallback]
  exact still

theorem letRule_defined :
    ∀ rule ∈ [letRule], ∃ source, Rule.define source = .ok rule := by
  intro rule member
  obtain rfl := List.mem_singleton.mp member
  exact ⟨letSource, by decide +kernel⟩

theorem letRule_writes_no_tag :
    ∀ rule ∈ [letRule], ¬ closeTagMark <:+: rule.replacement.toList := by
  intro rule member
  obtain rfl := List.mem_singleton.mp member
  decide +kernel

theorem expandTokens_fixed_let :
    let code := "x; let $a = /* no */ (f(1)) in g($a);"
    let limits : Limits := { }
    let again : Limits := { maxIterations := 1 }
    let result := (expandTokens [letRule] limits (lexCode code)).tokens
    ¬ closeTagMark <:+: code.toList ∧
      (expandTokens [letRule] limits (lexCode code)).converged = true ∧
      again.singleTokenFallback = limits.singleTokenFallback ∧
      texts (expandTokens [letRule] again result).tokens = texts result ∧
      (expandTokens [letRule] again result).converged = true ∧
      (expandTokens [letRule] again result).iterations ≤ 1 := by
  intro code limits again result
  have noTag : ¬ closeTagMark <:+: code.toList := by decide +kernel
  have converged :
      (expandTokens [letRule] limits (lexCode code)).converged = true := by
    decide +kernel
  have sameFallback :
      again.singleTokenFallback = limits.singleTokenFallback := rfl
  exact ⟨noTag, converged, sameFallback,
    expandTokens_fixed letRule_defined letRule_writes_no_tag noTag converged
      sameFallback⟩

/-- Expanding a source again changes nothing if the text of the first result is
lexed into tokens of the same texts, and if in the source, in the replacements
and in that text trivia are told from template text.  They are where no close
tag occurs. -/
theorem expandSource_idempotent {source : String} {rules : List Rule}
    {limits : Limits}
    (defined : ∀ rule ∈ rules, ∃ source, Rule.define source = .ok rule)
    (written : ∀ rule ∈ rules, rule.WritesShown)
    (settled : Settled (lex (sourceMode source) source))
    (converged : (expandSource rules limits source).converged = true)
    (faithful :
      let result := expandSource rules limits source
      texts (lex (sourceMode result.text) result.text) = texts result.tokens)
    (settledAgain :
      let result := expandSource rules limits source
      Settled (lex (sourceMode result.text) result.text)) :
    let result := expandSource rules limits source
    (expandSource rules limits result.text).text = result.text := by
  intro result
  have shows := showsTrivia_of_defined defined written
  obtain ⟨settledResult, still⟩ := settled.expandTokens_still shows converged
  have stillAgain :=
    settledResult.still_of_texts shows settledAgain faithful still
  calc
    (expandSource rules limits result.text).text =
        String.join (texts (expandSource rules limits result.text).tokens) := rfl
    _ = String.join (texts (lex (sourceMode result.text) result.text)) :=
      congrArg String.join (stillAgain.expandTokens_eq shows settledAgain).1
    _ = result.text := congrArg String.join faithful

theorem expandSource_idempotent_let :
    let source := "<?php let $a = (f(1)) in g($a); ?><b> x</b>"
    let result := expandSource [letRule] { } source
    Settled (lex (sourceMode source) source) ∧ result.converged = true ∧
      texts (lex (sourceMode result.text) result.text) = texts result.tokens ∧
      Settled (lex (sourceMode result.text) result.text) ∧
      (expandSource [letRule] { } result.text).text = result.text := by
  intro source result
  have settled : Settled (lex (sourceMode source) source) := by decide +kernel
  have converged : result.converged = true := by decide +kernel
  have faithful : texts (lex (sourceMode result.text) result.text) =
      texts result.tokens := by
    decide +kernel
  have settledAgain : Settled (lex (sourceMode result.text) result.text) := by
    decide +kernel
  have written := writesShown_of_no_tag letRule_defined letRule_writes_no_tag
  exact ⟨settled, converged, faithful, settledAgain,
    expandSource_idempotent letRule_defined written settled converged faithful
      settledAgain⟩

/-- The rules of patterns with their replacements. -/
def rulesOf (pairs : List (String × String)) : List Rule :=
  pairs.filterMap fun (pattern, replacement) =>
    (Rule.define { pattern, replacement }).toOption

theorem rulesOf_defined (pairs : List (String × String)) :
    ∀ rule ∈ rulesOf pairs, ∃ source, Rule.define source = .ok rule := by
  intro rule member
  obtain ⟨⟨pattern, replacement⟩, _, some⟩ := List.mem_filterMap.mp member
  exact ⟨{ pattern, replacement }, Rule.toOption_define_eq_some.mp some⟩

/-- Expanding the source converges to one text, and expanding that gives
another. -/
def ExpandsTwice (rules : List Rule) (source once twice : String) : Prop :=
  (expandSource rules { } source).converged = true ∧
    (expandSource rules { } source).text = once ∧
    (expandSource rules { } once).text = twice ∧ once ≠ twice

instance (rules : List Rule) (source once twice : String) :
    Decidable (ExpandsTwice rules source once twice) :=
  inferInstanceAs (Decidable (_ ∧ _ ∧ _ ∧ _))

/-- Each condition is needed.  Tokens around a removed one can fuse; and
template text behind a close tag, of the source or of a replacement, is trivia
when it is read again as code, or the other way round. -/
theorem expandSource_not_idempotent :
    let fusing := rulesOf [("x", ""), ("++", "y")]
    let closing :=
      rulesOf [("f $(layer() as z) ()", "done"), ("?>$(layer() as z)", "$(z))")]
    let opening := closing ++ rulesOf [("s", "?> ")]
    let tagging :=
      rulesOf [("q", "?>"),
        ("w $(layer() as y) ?>$(layer() as z)", "w $(y)?>$(z) ")]
    ExpandsTwice fusing "+x+" "++" "y" ∧
    (ExpandsTwice closing "f x(?> " "f x( )" "done" ∧
      texts (lexCode "f x( )") =
        texts (expandSource closing { } "f x(?> ").tokens) ∧
    (ExpandsTwice opening "f x(s" "f x( )" "done" ∧
      texts (lexCode "f x( )") =
        texts (expandSource opening { } "f x(s").tokens) ∧
    ExpandsTwice tagging "w x;q " "w x;?> " "w x;?>  " ∧
      texts (lexCode "w x;?> ") =
        texts (expandSource tagging { } "w x;q ").tokens := by
  decide +kernel

end TokenMacros
