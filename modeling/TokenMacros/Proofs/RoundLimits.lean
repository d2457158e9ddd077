import TokenMacros.Expansion.Run
import TokenMacros.Proofs.PatternDecomposition

/-!
# Limits of rounds

A limit on the rounds only cuts an expansion short.  A run that has converged is
the same under every larger limit; one that was stopped has used up its limit,
and a larger limit goes on from its tokens as a run of its own would.
-/

namespace TokenMacros

section

variable {rules : List Rule} {fallback : Bool}

theorem rounds_of_changed {limit : Nat} {tokens result : List Token}
    (changed : round rules fallback tokens = (result, true)) :
    rounds rules fallback (limit + 1) tokens =
      { rounds rules fallback limit result with
        iterations := (rounds rules fallback limit result).iterations + 1 } := by
  rw [rounds, changed]
  rfl

theorem rounds_of_unchanged {limit : Nat} {tokens result : List Token}
    (unchanged : round rules fallback tokens = (result, false)) :
    rounds rules fallback (limit + 1) tokens = ⟨result, 1, true⟩ := by
  rw [rounds, unchanged]
  rfl

theorem rounds_iterations_of_stopped {limit : Nat} {tokens : List Token}
    (stopped : (rounds rules fallback limit tokens).converged = false) :
    (rounds rules fallback limit tokens).iterations = limit := by
  induction limit generalizing tokens with
  | zero => rfl
  | succ limit induction =>
      rcases first : round rules fallback tokens with ⟨result, changed⟩
      cases changed with
      | true =>
          rw [rounds_of_changed first] at stopped ⊢
          rw [induction stopped]
      | false =>
          rw [rounds_of_unchanged first] at stopped
          cases stopped

/-- What converges under a limit is the same under every larger one. -/
theorem rounds_add_of_converged {limit : Nat} {tokens : List Token}
    (converged : (rounds rules fallback limit tokens).converged = true)
    (further : Nat) :
    rounds rules fallback (limit + further) tokens =
      rounds rules fallback limit tokens := by
  induction limit generalizing tokens with
  | zero => cases converged
  | succ limit induction =>
      rw [Nat.succ_add]
      rcases first : round rules fallback tokens with ⟨result, changed⟩
      cases changed with
      | true =>
          rw [rounds_of_changed first] at converged ⊢
          rw [rounds_of_changed first, induction converged]
      | false => rw [rounds_of_unchanged first, rounds_of_unchanged first]

/-- What is stopped by a limit goes on under a larger one with the tokens it was
stopped at; the rounds made so far count. -/
theorem rounds_add_of_stopped {limit : Nat} {tokens : List Token}
    (stopped : (rounds rules fallback limit tokens).converged = false)
    (further : Nat) :
    let later := rounds rules fallback further
      (rounds rules fallback limit tokens).tokens
    rounds rules fallback (limit + further) tokens =
      ⟨later.tokens, limit + later.iterations, later.converged⟩ := by
  induction limit generalizing tokens with
  | zero => simp only [rounds, Nat.zero_add]
  | succ limit induction =>
      rw [Nat.succ_add]
      rcases first : round rules fallback tokens with ⟨result, changed⟩
      cases changed with
      | true =>
          rw [rounds_of_changed first] at stopped ⊢
          rw [rounds_of_changed first, induction stopped]
          simp only [Outcome.mk.injEq, true_and, and_true]
          omega
      | false =>
          rw [rounds_of_unchanged first] at stopped
          cases stopped

end

/-- The limit only truncates an expansion.  If it converges, it is the same
under a larger limit.  If not, it has made as many rounds as the limit allows,
and under a larger one it goes on as an expansion of its tokens under the rest
of the limit. -/
theorem expandTokens_prolonged (rules : List Rule) (fallback : Bool)
    {limit further : Nat} (positive : 0 < limit) (goesOn : 0 < further)
    (tokens : List Token) :
    let first := expandTokens rules ⟨limit, fallback, positive⟩ tokens
    let later := expandTokens rules ⟨further, fallback, goesOn⟩ first.tokens
    let whole := expandTokens rules
      ⟨limit + further, fallback, Nat.add_pos_left positive further⟩ tokens
    (first.converged = true → whole = first) ∧
      (first.converged = false →
        first.iterations = limit ∧
          whole = ⟨later.tokens, limit + later.iterations, later.converged⟩) := by
  unfold expandTokens
  cases rules with
  | nil =>
      refine ⟨fun _ => rfl, ?_⟩
      intro stopped
      cases stopped
  | cons rule rules =>
      refine ⟨fun converged => rounds_add_of_converged converged further, ?_⟩
      intro stopped
      exact ⟨rounds_iterations_of_stopped stopped,
        rounds_add_of_stopped stopped further⟩

theorem expandTokens_prolonged_let :
    let tokens := lexCode "let $a = (1) in let $b = ($a) in f($b);"
    let run (limit : Nat) (positive : 0 < limit) :=
      expandTokens [letRule] ⟨limit, false, positive⟩
    let first := run 1 Nat.one_pos tokens
    let later := run 2 Nat.two_pos first.tokens
    let whole := run 3 (Nat.succ_pos 2) tokens
    first.converged = false ∧ first.iterations = 1 ∧
      whole = ⟨later.tokens, 1 + later.iterations, later.converged⟩ ∧
      whole.converged = true ∧ run 5 (Nat.succ_pos 4) tokens = whole := by
  intro tokens run first later whole
  have stopped : first.converged = false := by decide +kernel
  have converged : whole.converged = true := by decide +kernel
  obtain ⟨used, continued⟩ :=
    (expandTokens_prolonged [letRule] false Nat.one_pos Nat.two_pos tokens).2
      stopped
  have same :=
    (expandTokens_prolonged [letRule] false (Nat.succ_pos 2) Nat.two_pos tokens).1
      converged
  exact ⟨stopped, used, continued, converged, same⟩

end TokenMacros
