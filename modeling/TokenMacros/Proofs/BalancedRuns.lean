import Mathlib.Data.List.Infix
import TokenMacros.Delimiter

/-!
# Balanced runs

A run of tokens covers a depth if no prefix of it closes more than was open
before and inside it.  `balancedRun` stops exactly where that would be violated,
so what it takes is covered, what stops it is a closing delimiter on level zero,
and a balanced text in front of such a delimiter is taken as a whole.
-/

namespace TokenMacros

/-- How many of the tokens have the given text. -/
def occurrences (text : String) (tokens : List Token) : Nat :=
  tokens.countP fun token => token.text = text

@[simp] theorem occurrences_nil (text : String) : occurrences text [] = 0 := rfl

theorem occurrences_cons (text : String) (token : Token) (tokens : List Token) :
    occurrences text (token :: tokens) =
      occurrences text tokens + if token.text = text then 1 else 0 := by
  simp [occurrences, List.countP_cons]

/-- No prefix closes more delimiters than `depth` and its own opening ones. -/
def Covers (opening closing : String) (depth : Nat) (tokens : List Token) :
    Prop :=
  ∀ front, front <+: tokens →
    occurrences closing front ≤ depth + occurrences opening front

/-- Every closing delimiter has its opening one in front of it, and every
opening delimiter is closed. -/
structure Balanced (opening closing : String) (tokens : List Token) : Prop where
  covered : ∀ front, front <+: tokens →
    occurrences closing front ≤ occurrences opening front
  settled : occurrences opening tokens = occurrences closing tokens

instance (opening closing : String) (tokens : List Token) :
    Decidable (Balanced opening closing tokens) :=
  decidable_of_iff
    ((∀ front ∈ tokens.inits,
        occurrences closing front ≤ occurrences opening front) ∧
      occurrences opening tokens = occurrences closing tokens)
    (by
      simp only [List.mem_inits]
      exact ⟨fun ⟨covered, settled⟩ => ⟨covered, settled⟩,
        fun ⟨covered, settled⟩ => ⟨covered, settled⟩⟩)

theorem Balanced.covers {opening closing : String} {tokens : List Token}
    (balanced : Balanced opening closing tokens) :
    Covers opening closing 0 tokens := by
  intro front isPrefix
  have fewer := balanced.covered front isPrefix
  omega

theorem covers_nil (opening closing : String) (depth : Nat) :
    Covers opening closing depth [] := by
  intro front isPrefix
  rw [List.prefix_nil.mp isPrefix]
  simp

/-- Covering is decided from front to back: what a token opens or closes changes
the depth that is left for the tokens behind it. -/
theorem covers_cons_iff {opening closing : String} {depth : Nat} {token : Token}
    {tokens : List Token} :
    Covers opening closing depth (token :: tokens) ↔
      ∀ front, front <+: tokens →
        occurrences closing front + (if token.text = closing then 1 else 0) ≤
          depth + (occurrences opening front +
            if token.text = opening then 1 else 0) := by
  constructor
  · intro covers front isPrefix
    have extended :=
      covers (token :: front) ((List.prefix_cons_inj token).mpr isPrefix)
    rwa [occurrences_cons, occurrences_cons] at extended
  · intro covers front isPrefix
    rcases List.prefix_cons_iff.mp isPrefix with rfl | ⟨tail, rfl, tailPrefix⟩
    · simp
    · rw [occurrences_cons, occurrences_cons]
      exact covers tail tailPrefix

theorem opening?_cases {opening closing : String}
    (pair : opening? closing = some opening) :
    closing = ")" ∧ opening = "(" ∨ closing = "\x7d" ∧ opening = "\x7b" ∨
      closing = "]" ∧ opening = "[" := by
  unfold opening? at pair
  split at pair
  · exact .inl ⟨rfl, (Option.some.inj pair).symm⟩
  · exact .inr (.inl ⟨rfl, (Option.some.inj pair).symm⟩)
  · exact .inr (.inr ⟨rfl, (Option.some.inj pair).symm⟩)
  · cases pair

theorem opening?_ne {opening closing : String}
    (pair : opening? closing = some opening) :
    opening ≠ closing := by
  rcases opening?_cases pair with ⟨rfl, rfl⟩ | ⟨rfl, rfl⟩ | ⟨rfl, rfl⟩ <;>
    decide

section Run

variable {opening closing : String}

theorem balancedRun_opens {depth : Nat} {token : Token} {rest : List Token}
    (opens : token.text = opening) :
    balancedRun opening closing depth (token :: rest) =
      token :: balancedRun opening closing (depth + 1) rest := by
  rw [balancedRun.eq_def]
  exact if_pos opens

theorem balancedRun_closes_inner {depth : Nat} {token : Token}
    {rest : List Token} (opensNothing : token.text ≠ opening)
    (closes : token.text = closing) :
    balancedRun opening closing (depth + 1) (token :: rest) =
      token :: balancedRun opening closing depth rest := by
  rw [balancedRun, if_neg opensNothing, if_pos closes]

theorem balancedRun_closes_outer {token : Token} {rest : List Token}
    (opensNothing : token.text ≠ opening) (closes : token.text = closing) :
    balancedRun opening closing 0 (token :: rest) = [] := by
  rw [balancedRun, if_neg opensNothing, if_pos closes]

theorem balancedRun_plain {depth : Nat} {token : Token} {rest : List Token}
    (opensNothing : token.text ≠ opening)
    (closesNothing : token.text ≠ closing) :
    balancedRun opening closing depth (token :: rest) =
      token :: balancedRun opening closing depth rest := by
  rw [balancedRun.eq_def]
  simp only [if_neg opensNothing, if_neg closesNothing]

theorem balancedRun_isPrefix (depth : Nat) (tokens : List Token) :
    balancedRun opening closing depth tokens <+: tokens := by
  fun_induction balancedRun opening closing depth tokens with
  | case1 => exact List.prefix_rfl
  | case2 depth token rest _ induction =>
      exact (List.prefix_cons_inj token).mpr induction
  | case3 => exact List.nil_prefix
  | case4 token rest _ _ depth induction =>
      exact (List.prefix_cons_inj token).mpr induction
  | case5 depth token rest _ _ induction =>
      exact (List.prefix_cons_inj token).mpr induction

theorem balancedRun_covers (distinct : opening ≠ closing) (depth : Nat)
    (tokens : List Token) :
    Covers opening closing depth
      (balancedRun opening closing depth tokens) := by
  fun_induction balancedRun opening closing depth tokens with
  | case1 depth => exact covers_nil opening closing depth
  | case2 depth token rest opens induction =>
      rw [covers_cons_iff]
      intro front isPrefix
      have behind := induction front isPrefix
      have closesNothing : token.text ≠ closing := by
        rw [opens]
        exact distinct
      simp only [opens, if_neg distinct, if_true]
      omega
  | case3 => exact covers_nil opening closing 0
  | case4 token rest opensNothing closes depth induction =>
      rw [covers_cons_iff]
      intro front isPrefix
      have behind := induction front isPrefix
      simp only [if_pos closes, if_neg opensNothing]
      omega
  | case5 depth token rest opensNothing closesNothing induction =>
      rw [covers_cons_iff]
      intro front isPrefix
      simpa only [if_neg opensNothing, if_neg closesNothing, Nat.add_zero] using
        induction front isPrefix

/-- A run that ends in front of a token ends in front of a closing delimiter,
and all that was open is closed there. -/
theorem balancedRun_stop (distinct : opening ≠ closing) {depth : Nat}
    {tokens rest : List Token} {closer : Token}
    (stopped : tokens.drop (balancedRun opening closing depth tokens).length =
      closer :: rest) :
    closer.text = closing ∧
      occurrences closing (balancedRun opening closing depth tokens) =
        depth +
          occurrences opening (balancedRun opening closing depth tokens) := by
  fun_induction balancedRun opening closing depth tokens with
  | case1 => simp at stopped
  | case2 depth token tokens opens induction =>
      obtain ⟨closes, settled⟩ := induction (by simpa using stopped)
      have closesNothing : token.text ≠ closing := by
        rw [opens]
        exact distinct
      refine ⟨closes, ?_⟩
      rw [occurrences_cons, occurrences_cons, if_pos opens,
        if_neg closesNothing]
      omega
  | case3 token tokens _ closes =>
      obtain ⟨rfl, rfl⟩ : token = closer ∧ tokens = rest := by
        simpa using stopped
      exact ⟨closes, by simp⟩
  | case4 token tokens opensNothing closes depth induction =>
      obtain ⟨closerCloses, settled⟩ := induction (by simpa using stopped)
      refine ⟨closerCloses, ?_⟩
      rw [occurrences_cons, occurrences_cons, if_pos closes,
        if_neg opensNothing]
      omega
  | case5 depth token tokens opensNothing closesNothing induction =>
      obtain ⟨closes, settled⟩ := induction (by simpa using stopped)
      refine ⟨closes, ?_⟩
      rw [occurrences_cons, occurrences_cons, if_neg opensNothing,
        if_neg closesNothing]
      omega

/-- A covered text that leaves nothing open is taken as a whole if a closing
delimiter follows. -/
theorem balancedRun_append {depth : Nat} {body rest : List Token}
    {closer : Token} (distinct : opening ≠ closing)
    (covers : Covers opening closing depth body)
    (settled : occurrences closing body = depth + occurrences opening body)
    (closes : closer.text = closing) :
    balancedRun opening closing depth (body ++ closer :: rest) = body := by
  induction body generalizing depth with
  | nil =>
      have level : depth = 0 := by simpa using settled.symm
      subst level
      have opensNothing : closer.text ≠ opening := by
        rw [closes]
        exact distinct.symm
      exact balancedRun_closes_outer opensNothing closes
  | cons token body induction =>
      rw [covers_cons_iff] at covers
      rw [occurrences_cons, occurrences_cons] at settled
      rw [List.cons_append]
      by_cases opens : token.text = opening
      · have closesNothing : token.text ≠ closing := by
          rw [opens]
          exact distinct
        simp only [if_pos opens, if_neg closesNothing] at covers settled
        have behind : Covers opening closing (depth + 1) body := by
          intro front isPrefix
          have fewer := covers front isPrefix
          omega
        rw [balancedRun_opens opens, induction behind (by omega)]
      · by_cases tokenCloses : token.text = closing
        · simp only [if_neg opens, if_pos tokenCloses] at covers settled
          -- the empty prefix shows that something is open for it to close
          have positive := covers [] List.nil_prefix
          obtain ⟨depth, rfl⟩ : ∃ inner, depth = inner + 1 :=
            Nat.exists_eq_succ_of_ne_zero (by rintro rfl; simp at positive)
          have behind : Covers opening closing depth body := by
            intro front isPrefix
            have fewer := covers front isPrefix
            omega
          rw [balancedRun_closes_inner opens tokenCloses,
            induction behind (by omega)]
        · simp only [if_neg opens, if_neg tokenCloses, Nat.add_zero]
            at covers settled
          rw [balancedRun_plain opens tokenCloses, induction covers settled]

end Run

/-- What is captured in front of a closing delimiter is balanced in that
delimiter's pair. -/
theorem balancedRun_balanced {opening closing : String}
    {tokens rest : List Token} {closer : Token}
    (pair : opening? closing = some opening)
    (stopped : tokens.drop (balancedRun opening closing 0 tokens).length =
      closer :: rest) :
    Balanced opening closing (balancedRun opening closing 0 tokens) := by
  have distinct := opening?_ne pair
  obtain ⟨_, settled⟩ := balancedRun_stop distinct stopped
  refine ⟨?_, by omega⟩
  intro front isPrefix
  have fewer := balancedRun_covers distinct 0 tokens front isPrefix
  omega

end TokenMacros
