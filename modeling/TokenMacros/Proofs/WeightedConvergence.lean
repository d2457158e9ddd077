import TokenMacros.Expansion.Run
import TokenMacros.Proofs.TokenWeights

/-!
# Convergence of rules that lighten

A pass with rules that lighten either makes the tokens lighter or finds nothing
to apply.  The weight bounds how often the former can happen, so expansion comes
to rest within as many rounds as the tokens weigh, and one more to notice.
-/

namespace TokenMacros

/-- No rule is applied at any place of the tokens. -/
def Quiet (rules : List Rule) (fallback : Bool) (tokens : List Token) : Prop :=
  ∀ suffix, suffix <:+ tokens → chosen? rules fallback suffix = none

section

variable {rules : List Rule} {fallback : Bool} {weight : String → Nat}

/-! ## Quiet tokens -/

theorem candidate?_nil (rule : Rule) : rule.candidate? [] = none := by
  unfold Rule.candidate?
  split
  · contradiction
  · rfl

theorem chosen?_nil : chosen? rules fallback [] = none := by
  have noMatch : rules.findSome? (·.candidate? []) = none :=
    List.findSome?_eq_none_iff.mpr fun rule _ => candidate?_nil rule
  cases fallback <;> simp [chosen?, noMatch]

theorem quiet_nil : Quiet rules fallback [] := by
  intro suffix behind
  rw [List.suffix_nil.mp behind, chosen?_nil]

theorem Quiet.cons {token : Token} {rest : List Token}
    (quiet : Quiet rules fallback rest)
    (unmatched : chosen? rules fallback (token :: rest) = none) :
    Quiet rules fallback (token :: rest) := by
  intro suffix behind
  rcases List.suffix_cons_iff.mp behind with rfl | later
  · exact unmatched
  · exact quiet suffix later

theorem Quiet.tail {token : Token} {rest : List Token}
    (quiet : Quiet rules fallback (token :: rest)) :
    Quiet rules fallback rest :=
  fun suffix behind => quiet suffix (behind.trans (List.suffix_cons token rest))

theorem Quiet.pass_eq {tokens : List Token}
    (quiet : Quiet rules fallback tokens) :
    pass rules fallback tokens = tokens := by
  induction tokens with
  | nil => rw [pass]
  | cons token rest induction =>
      have unmatched : chosen? rules fallback (token :: rest) = none :=
        quiet _ (List.suffix_refl _)
      rw [pass, unmatched, induction quiet.tail]

theorem quiet_of_no_rules (fallback : Bool) (tokens : List Token) :
    Quiet [] fallback tokens := by
  intro suffix _
  cases fallback <;> simp [chosen?]

theorem Quiet.candidatesAt_eq {tokens : List Token}
    (quiet : Quiet rules fallback tokens) (position : Int) :
    candidatesAt rules tokens position = [] := by
  have unmatched : chosen? rules fallback (tokens.drop position.toNat) = none :=
    quiet _ (List.drop_suffix _ tokens)
  have noMatch :
      rules.findSome? (·.candidate? (tokens.drop position.toNat)) = none := by
    unfold chosen? at unmatched
    split at unmatched
    · cases unmatched
    · assumption
  unfold candidatesAt
  split
  · exact List.filterMap_eq_nil_iff.mpr (List.findSome?_eq_none_iff.mp noMatch)
  · rfl

/-! ## What one pass takes away -/

/-- The chosen candidate is of one of the rules, and its captures are paid for.
-/
theorem chosen?_pays {tokens : List Token} {candidate : Candidate}
    (chosen : chosen? rules fallback tokens = some candidate) :
    candidate.rule ∈ rules ∧ candidate.Pays weight tokens := by
  unfold chosen? at chosen
  split at chosen
  · next matched found =>
      obtain rfl := Option.some.inj chosen
      obtain ⟨rule, member, applies⟩ := List.exists_of_findSome?_eq_some found
      obtain rfl : matched.rule = rule := Rule.candidate?_rule applies
      exact ⟨member, Rule.candidate?_pays applies⟩
  · split at chosen
    · obtain ⟨token, isHead, found⟩ := Option.bind_eq_some_iff.mp chosen
      obtain ⟨rest, rfl⟩ := List.head?_eq_some_iff.mp isHead
      obtain ⟨rule, member, applies⟩ := List.exists_of_findSome?_eq_some found
      obtain rfl : candidate.rule = rule :=
        Rule.singleTokenCandidate?_rule applies
      exact ⟨member, Rule.singleTokenCandidate?_pays applies⟩
    · cases chosen

/-- A pass makes the tokens lighter, or there is nothing for it to do. -/
theorem pass_lighter_or_quiet (lightens : ∀ rule ∈ rules, rule.Lightens weight)
    (fallback : Bool) (tokens : List Token) :
    weigh weight (pass rules fallback tokens) < weigh weight tokens ∨
      Quiet rules fallback tokens := by
  fun_induction pass rules fallback tokens with
  | case1 => exact .inr quiet_nil
  | case2 token rest unmatched induction =>
      rcases induction with lighter | quiet
      · left
        simpa using lighter
      · exact .inr (quiet.cons unmatched)
  | case3 token rest candidate chosen induction =>
      left
      have paid :
          candidate.rule ∈ rules ∧ candidate.Pays weight (token :: rest) :=
        chosen?_pays chosen
      obtain ⟨member, pays⟩ := paid
      have applied := pays.lighter (lightens candidate.rule member)
      have behind :
          weigh weight
              (pass rules fallback (rest.drop (candidate.consumed - 1))) ≤
            weigh weight (rest.drop (candidate.consumed - 1)) := by
        rcases induction with lighter | quiet
        · exact Nat.le_of_lt lighter
        · rw [quiet.pass_eq]
      have left : (token :: rest).drop candidate.consumed =
          rest.drop (candidate.consumed - 1) := by
        obtain ⟨further, taken⟩ := Nat.exists_eq_add_of_le' pays.consumed_pos
        rw [taken, List.drop_succ_cons, Nat.add_sub_cancel]
      rw [left] at applied
      rw [weigh_append]
      omega

/-! ## What repeated passes take away -/

theorem texts_ne_of_lighter {left right : List Token}
    (lighter : weigh weight left < weigh weight right) :
    texts left ≠ texts right := by
  intro same
  exact Nat.ne_of_lt lighter (weigh_eq_of_texts same)

/-- Passes that change a text make the tokens lighter.  If none does, the tokens
stay as they are and there is nothing to apply. -/
theorem passes_lighter_or_quiet
    (lightens : ∀ rule ∈ rules, rule.Lightens weight) (fallback : Bool)
    (count : Nat) (tokens : List Token) :
    ((passes rules fallback count tokens).2 = true ∧
        weigh weight (passes rules fallback count tokens).1 <
          weigh weight tokens) ∨
      (passes rules fallback count tokens = (tokens, false) ∧
        (count ≠ 0 → Quiet rules fallback tokens)) := by
  induction count generalizing tokens with
  | zero => exact .inr ⟨rfl, absurd rfl⟩
  | succ count induction =>
      rw [passes]
      rcases pass_lighter_or_quiet lightens fallback tokens with lighter | quiet
      · left
        have changed :
            (texts (pass rules fallback tokens) != texts tokens) = true :=
          bne_iff_ne.mpr (texts_ne_of_lighter lighter)
        refine ⟨by simp only [changed, Bool.true_or], ?_⟩
        rcases induction (pass rules fallback tokens) with
          ⟨_, later⟩ | ⟨unchanged, _⟩
        · exact later.trans lighter
        · simpa only [unchanged] using lighter
      · have same : (texts tokens != texts tokens) = false :=
          bne_self_eq_false _
        simp only [quiet.pass_eq, same, Bool.false_or]
        rcases induction tokens with ⟨changed, lighter⟩ | ⟨unchanged, _⟩
        · exact .inl ⟨changed, lighter⟩
        · exact .inr ⟨unchanged, fun _ => quiet⟩

/-- More rounds than the tokens weigh are enough, and of these only as many are
made as the tokens weigh, and one more. -/
theorem rounds_converge (lightens : ∀ rule ∈ rules, rule.Lightens weight)
    (some : rules ≠ []) (limit : Nat) (tokens : List Token)
    (enough : weigh weight tokens < limit) :
    (rounds rules fallback limit tokens).converged = true ∧
      (rounds rules fallback limit tokens).iterations ≤
        weigh weight tokens + 1 ∧
      Quiet rules fallback (rounds rules fallback limit tokens).tokens := by
  induction limit generalizing tokens with
  | zero => cases enough
  | succ limit induction =>
      rw [rounds, round]
      rcases passes_lighter_or_quiet lightens fallback rules.length tokens with
        ⟨changed, lighter⟩ | ⟨unchanged, quiet⟩
      · have fewer :
            weigh weight (passes rules fallback rules.length tokens).1 <
              limit := by
          omega
        obtain ⟨converged, bound, quiet⟩ := induction _ fewer
        simp only [changed, if_true]
        refine ⟨converged, ?_, quiet⟩
        omega
      · simp only [unchanged, Bool.false_eq_true, if_false]
        refine ⟨trivial, Nat.le_add_left 1 _, quiet ?_⟩
        simpa using some

end

/-- Rules that lighten converge.  If more rounds are allowed than the tokens
weigh, expansion comes to rest within one round more than that, and no rule
matches anywhere in the result. -/
theorem expandTokens_converges {rules : List Rule} {weight : String → Nat}
    (lightens : ∀ rule ∈ rules, rule.Lightens weight) (limits : Limits)
    (tokens : List Token)
    (enough : weigh weight tokens < limits.maxIterations) :
    (expandTokens rules limits tokens).converged = true ∧
      (expandTokens rules limits tokens).iterations ≤ weigh weight tokens + 1 ∧
      ∀ position,
        candidatesAt rules (expandTokens rules limits tokens).tokens position =
          [] := by
  unfold expandTokens
  cases rules with
  | nil =>
      have quiet := quiet_of_no_rules false tokens
      exact ⟨rfl, Nat.zero_le _, quiet.candidatesAt_eq⟩
  | cons rule rules =>
      have some : rule :: rules ≠ [] := List.cons_ne_nil rule rules
      obtain ⟨converged, bound, quiet⟩ :=
        rounds_converge lightens some limits.maxIterations tokens enough
      exact ⟨converged, bound, quiet.candidatesAt_eq⟩

theorem expandTokens_converges_let :
    let weight : String → Nat := fun text => if text = "let" then 1 else 0
    let limits : Limits := { }
    let tokens :=
      lexCode "x; let $a = /* no */ (f(1)) in let $b = ($a) in g($b);"
    (∀ rule ∈ [letRule], rule.Lightens weight) ∧
      weigh weight tokens < limits.maxIterations ∧
      (expandTokens [letRule] limits tokens).converged = true ∧
      (expandTokens [letRule] limits tokens).iterations ≤
        weigh weight tokens + 1 ∧
      ∀ position,
        candidatesAt [letRule] (expandTokens [letRule] limits tokens).tokens
          position = [] := by
  intro weight limits tokens
  have lightens : ∀ rule ∈ [letRule], rule.Lightens weight := by decide +kernel
  have enough : weigh weight tokens < limits.maxIterations := by decide +kernel
  exact ⟨lightens, enough, expandTokens_converges lightens limits tokens enough⟩

end TokenMacros
