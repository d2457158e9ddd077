import TokenMacros.Proofs.BalancedRuns

/-!
# Texts between braces

A text is balanced if every closing brace has its opening one in front of it and
every opening brace is closed.  The search for the brace that closes a text is
the balanced run of its characters as tokens, so it finds the end of a balanced
text, and what lies in front of the brace it finds is balanced.
-/

namespace TokenMacros

/-- Every closing brace has its opening one in front of it, and every opening
brace is closed. -/
structure BalancedBraces (text : List Char) : Prop where
  covered : ∀ front, front <+: text → front.count '\x7d' ≤ front.count '\x7b'
  settled : text.count '\x7b' = text.count '\x7d'

/-! ## Characters as tokens -/

/-- The characters of a text, each a token of its own. -/
def charTokens (text : List Char) : List Token :=
  text.map fun c => .bare (String.singleton c)

theorem charTokens_cons (c : Char) (text : List Char) :
    charTokens (c :: text) = .bare (String.singleton c) :: charTokens text := rfl

theorem text_charToken_eq_iff (c d : Char) :
    (Token.bare (String.singleton c)).text = String.singleton d ↔ c = d := by
  simp [Token.text, ← String.toList_inj]

theorem occurrences_charTokens (c : Char) (text : List Char) :
    occurrences (String.singleton c) (charTokens text) = text.count c := by
  rw [occurrences, charTokens, List.countP_map, List.count_eq_countP]
  apply List.countP_congr
  intro other _
  simp [text_charToken_eq_iff]

theorem balancedBraces_iff {text : List Char} :
    BalancedBraces text ↔ Balanced "\x7b" "\x7d" (charTokens text) := by
  have opening : "\x7b" = String.singleton '\x7b' := rfl
  have closing : "\x7d" = String.singleton '\x7d' := rfl
  rw [opening, closing]
  constructor
  · intro balanced
    refine ⟨?_, by simpa only [occurrences_charTokens] using balanced.settled⟩
    intro front isPrefix
    obtain ⟨chars, charsPrefix, rfl⟩ := List.prefix_map_iff.mp isPrefix
    have fewer := balanced.covered chars charsPrefix
    rwa [← occurrences_charTokens, ← occurrences_charTokens] at fewer
  · intro balanced
    refine ⟨?_, by simpa only [occurrences_charTokens] using balanced.settled⟩
    intro front isPrefix
    have fewer := balanced.covered (charTokens front) (isPrefix.map _)
    rwa [occurrences_charTokens, occurrences_charTokens] at fewer

/-! ## The closing brace -/

/-- The closing brace stands behind the balanced run of the characters, if
anything does.  The search counts the brace that it closes, the run does not. -/
theorem closingBraceOffset?_eq_run (depth : Nat) (text : List Char) :
    closingBraceOffset? (depth + 1) text =
      let run := balancedRun "\x7b" "\x7d" depth (charTokens text)
      if run.length < text.length then some run.length else none := by
  have opens {c : Char} :
      (Token.bare (String.singleton c)).text = "\x7b" ↔ c = '\x7b' :=
    text_charToken_eq_iff c '\x7b'
  have closes {c : Char} :
      (Token.bare (String.singleton c)).text = "\x7d" ↔ c = '\x7d' :=
    text_charToken_eq_iff c '\x7d'
  have further (run length : Nat) :
      (if run < length then some run else none).map (· + 1) =
        if run + 1 < length + 1 then some (run + 1) else none := by
    simp only [Nat.add_lt_add_iff_right]
    split <;> rfl
  induction text generalizing depth with
  | nil => rfl
  | cons c rest induction =>
      rw [closingBraceOffset?, charTokens_cons]
      by_cases opening : c = '\x7b'
      · rw [if_pos opening, balancedRun_opens (opens.mpr opening), induction]
        exact further _ _
      · rw [if_neg opening]
        by_cases closing : c = '\x7d'
        · rw [if_pos closing, Nat.add_sub_cancel]
          cases depth with
          | zero =>
              rw [balancedRun_closes_outer (opens.not.mpr opening)
                (closes.mpr closing)]
              exact (if_pos (Nat.succ_pos _)).symm
          | succ depth =>
              rw [if_neg (Nat.succ_ne_zero depth), induction,
                balancedRun_closes_inner (opens.not.mpr opening)
                  (closes.mpr closing)]
              exact further _ _
        · rw [if_neg closing, induction,
            balancedRun_plain (opens.not.mpr opening) (closes.not.mpr closing)]
          exact further _ _

theorem BalancedBraces.closingBraceOffset?_append {body : List Char}
    (balanced : BalancedBraces body) (rest : List Char) :
    closingBraceOffset? 1 (body ++ '\x7d' :: rest) = some body.length := by
  have tokens := balancedBraces_iff.mp balanced
  have split : charTokens (body ++ '\x7d' :: rest) =
      charTokens body ++ .bare "\x7d" :: charTokens rest :=
    List.map_append
  have run : balancedRun "\x7b" "\x7d" 0
      (charTokens (body ++ '\x7d' :: rest)) = charTokens body := by
    rw [split]
    apply balancedRun_append (by decide) tokens.covers _ rfl
    rw [tokens.settled, Nat.zero_add]
  rw [closingBraceOffset?_eq_run, run]
  simp [charTokens]

theorem exists_of_closingBraceOffset? {text : List Char} {offset : Nat}
    (found : closingBraceOffset? 1 text = some offset) :
    ∃ body rest, text = body ++ '\x7d' :: rest ∧ BalancedBraces body ∧
      body.length = offset := by
  simp only [closingBraceOffset?_eq_run] at found
  split at found
  · next inside =>
      have length := Option.some.inj found
      rw [length] at inside
      obtain ⟨c, rest, behind⟩ := List.exists_cons_of_ne_nil
        (List.drop_eq_nil_iff.not.mpr (Nat.not_le.mpr inside))
      have stopped : (charTokens text).drop
          (balancedRun "\x7b" "\x7d" 0 (charTokens text)).length =
            .bare (String.singleton c) :: charTokens rest := by
        rw [length, charTokens, ← List.map_drop, behind]
        rfl
      have closes : c = '\x7d' :=
        (text_charToken_eq_iff c '\x7d').mp
          (balancedRun_stop (by decide) stopped).1
      have taken : balancedRun "\x7b" "\x7d" 0 (charTokens text) =
          charTokens (text.take offset) := by
        rw [List.prefix_iff_eq_take.mp (balancedRun_isPrefix 0 _), length,
          charTokens, charTokens, List.map_take]
      refine ⟨text.take offset, rest, ?_, ?_, ?_⟩
      · rw [← closes, ← behind, List.take_append_drop]
      · rw [balancedBraces_iff, ← taken]
        exact balancedRun_balanced rfl stopped
      · exact List.length_take_of_le inside.le
  · cases found

/-- Where a balanced text ends is told by what comes first. -/
theorem BalancedBraces.eq_of_append {body body' rest rest' : List Char}
    (balanced : BalancedBraces body) (balanced' : BalancedBraces body')
    (same : body ++ '\x7d' :: rest = body' ++ '\x7d' :: rest') :
    body = body' ∧ rest = rest' := by
  have found := balanced.closingBraceOffset?_append rest
  rw [same, balanced'.closingBraceOffset?_append rest', Option.some.injEq]
    at found
  obtain ⟨bodies, behind⟩ := List.append_inj same found.symm
  exact ⟨bodies, (List.cons.inj behind).2⟩

end TokenMacros
