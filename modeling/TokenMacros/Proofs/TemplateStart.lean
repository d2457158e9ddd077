import TokenMacros.Expansion.Run

/-!
# The start of a template

The open tag of a source is looked for in its lower case, where places can be
shifted.  A source that is read as a template has nothing but blanks in front of
its first open tag; blanks are their own lower case, so the tag found is the one
that stands there.
-/

namespace TokenMacros

namespace Text

/-! ## Lower case of single characters -/

/-- All code points of the listed ranges. -/
def codesOf (ranges : List (Nat × Nat)) : List Nat :=
  ranges.flatMap fun range => List.range' range.1 (range.2 + 1 - range.1)

theorem mem_codesOf_of_inRanges {ranges : List (Nat × Nat)} {c : Char}
    (inside : inRanges ranges c = true) :
    c.toNat ∈ codesOf ranges := by
  obtain ⟨range, listed, bounds⟩ := List.any_eq_true.mp inside
  simp only [Bool.and_eq_true, decide_eq_true_eq] at bounds
  refine List.mem_flatMap.mpr ⟨range, listed, ?_⟩
  rw [List.mem_range'_1]
  omega

theorem lowerChar_of_isBlank {c : Char} (blank : isBlank c = true) :
    c ≠ 'Σ' ∧ lowerChar c = [c] := by
  have all : ∀ code ∈ codesOf blankRanges,
      Char.ofNat code ≠ 'Σ' ∧
        lowerChar (Char.ofNat code) = [Char.ofNat code] := by
    decide +kernel
  have fixed := all c.toNat (mem_codesOf_of_inRanges blank)
  rwa [Char.ofNat_toNat] at fixed

/-- Only `İ` has more than one character as its lower case. -/
theorem lowerChar_cases (c : Char) :
    lowerChar c = ['i', '\u0307'] ∨ ∃ d, lowerChar c = [d] := by
  unfold lowerChar
  simp only
  split
  · exact .inr ⟨_, rfl⟩
  split
  · exact .inl rfl
  split
  · exact .inr ⟨_, rfl⟩
  · exact .inr ⟨_, rfl⟩

theorem toNat_ofNat (code : Nat) :
    (Char.ofNat code).toNat = code ∨ (Char.ofNat code).toNat = 0 := by
  by_cases valid : code.isValidChar
  · rw [Char.ofNat, dif_pos valid]
    exact .inl rfl
  · rw [Char.ofNat, dif_neg valid]
    exact .inr rfl

theorem toLower_eq_iff {m : Char} (noLetter : m.toNat < 0x41) (c : Char) :
    c.toLower = m ↔ c = m := by
  by_cases capital : 'A'.val ≤ c.val ∧ c.val ≤ 'Z'.val
  · have first : 0x41 ≤ c.toNat := UInt32.le_iff_toNat_le.mp capital.1
    have last : c.val.toNat ≤ 0x5A := UInt32.le_iff_toNat_le.mp capital.2
    apply iff_of_false
    · intro lowered
      unfold Char.toLower at lowered
      rw [dif_pos capital] at lowered
      have code := congrArg Char.toNat lowered
      simp only [Char.toNat, UInt32.toNat_add] at code noLetter first
      change (c.val.toNat + 0x20) % _ = _ at code
      omega
    · rintro rfl
      exact Nat.not_le.mpr noLetter first
  · unfold Char.toLower
    rw [dif_neg capital]

/-- A character of ASCII is the lower case of itself or its ASCII capital and of
no other character, with the one exception of `k`. -/
theorem lowerChar_eq_ascii_iff {m : Char} (ascii : 0 < m.toNat ∧ m.toNat < 0x80)
    (notK : m ≠ 'k') (c : Char) : lowerChar c = [m] ↔ c.toLower = m := by
  by_cases low : c.toNat < 0x80
  · simp [lowerChar, low]
  have notCapital : c.toLower = c := by
    have high : ¬ c.val ≤ 'Z'.val := by
      intro below
      exact low (Nat.lt_of_le_of_lt (UInt32.le_iff_toNat_le.mp below) (by decide))
    unfold Char.toLower
    rw [dif_neg]
    exact fun capital => high capital.2
  rw [notCapital]
  constructor
  · intro lowered
    exfalso
    unfold lowerChar at lowered
    simp only [if_neg low] at lowered
    split at lowered
    · simp at lowered
    split at lowered
    · next range found =>
        -- the sign of the kelvin is the only capital that is lowered into ASCII
        have beyond : ∀ range ∈ lowerRanges, 0x80 ≤ range.target ∨
            range.first = range.last ∧ range.target = 'k'.toNat := by
          decide +kernel
        have inside := List.find?_some found
        simp only [Bool.and_eq_true, decide_eq_true_eq] at inside
        have code := congrArg Char.toNat (List.singleton_inj.mp lowered)
        rcases toNat_ofNat (range.target + (c.toNat - range.first)) with
          same | zero
        · rcases beyond range (List.mem_of_find?_eq_some found) with
            high | ⟨single, kelvin⟩
          · omega
          · have offset : c.toNat - range.first = 0 := by omega
            rw [same, offset, kelvin] at code
            exact notK (Char.toNat_inj.mp code.symm)
        · omega
    · obtain rfl : c = m := by simpa using lowered
      exact low ascii.2
  · rintro rfl
    exact absurd ascii.2 low

theorem eq_of_lowerChar {c : Char} (lowered : lowerChar c = ['<']) : c = '<' := by
  rw [lowerChar_eq_ascii_iff (by decide) (by decide)] at lowered
  exact (toLower_eq_iff (by decide) c).mp lowered

/-! ## Lower case of texts -/

theorem beginsWith_cons_of_ne {m c : Char} (different : m ≠ c)
    (mark text : List Char) :
    beginsWith (m :: mark) (c :: text) = false := by
  simp [beginsWith, List.isPrefixOf, beq_eq_false_iff_ne.mpr different]

theorem lowerAfter_blanks {blanks : List Char}
    (blank : ∀ c ∈ blanks, isBlank c = true) (before text : List Char) :
    lowerAfter before (blanks ++ text) =
      blanks ++ lowerAfter (blanks.reverse ++ before) text := by
  induction blanks generalizing before with
  | nil => rfl
  | cons c blanks induction =>
      obtain ⟨notSigma, fixed⟩ := lowerChar_of_isBlank (blank c List.mem_cons_self)
      have later : ∀ d ∈ blanks, isBlank d = true := by
        intro d member
        exact blank d (List.mem_cons_of_mem c member)
      rw [List.cons_append, lowerAfter, if_neg notSigma, fixed,
        induction later, List.reverse_cons, List.append_assoc]
      rfl

/-- A lower case begins with a character of ASCII exactly if the text begins with
it or with its ASCII capital. `k` and `i` are apart: they begin the lower case of
a character beyond ASCII. -/
theorem lowerAfter_cons_eq_iff {m : Char} (ascii : 0 < m.toNat ∧ m.toNat < 0x80)
    (apart : m ≠ 'k' ∧ m ≠ 'i') {before : List Char} {c : Char}
    {text lowered : List Char} :
    lowerAfter before (c :: text) = m :: lowered ↔
      c.toLower = m ∧ lowerAfter (c :: before) text = lowered := by
  have low := lowerChar_eq_ascii_iff ascii apart.1 c
  rw [lowerAfter]
  by_cases sigma : c = 'Σ'
  · subst sigma
    have beyond : ∀ d ∈ ['σ', 'ς', 'Σ'.toLower], 0x80 ≤ d.toNat := by decide
    have other {d : Char} (listed : d ∈ ['σ', 'ς', 'Σ'.toLower]) : d ≠ m := by
      rintro rfl
      exact Nat.not_le.mpr ascii.2 (beyond d listed)
    rw [if_pos rfl]
    apply iff_of_false
    · intro same
      have first := (List.cons.inj same).1
      split at first
      · exact other (by decide) first
      · exact other (by decide) first
    · exact fun same => other (by decide) same.1
  · rw [if_neg sigma]
    rcases lowerChar_cases c with two | ⟨d, one⟩
    · rw [two] at low ⊢
      apply iff_of_false
      · exact fun same => apart.2 (List.cons.inj same).1.symm
      · intro same
        have single := low.mpr same.1
        cases single
    · rw [one, List.singleton_inj] at low
      rw [one, List.singleton_append, List.cons.injEq, low]

/-- Whether a lowered text begins with a mark does not depend on what stands in
front of the text. -/
theorem beginsWith_lowerAfter {mark : List Char}
    (plain : ∀ m ∈ mark, m ≠ 'i' ∧ m ≠ 'σ' ∧ m ≠ 'ς')
    (before before' text : List Char) :
    beginsWith mark (lowerAfter before text) =
      beginsWith mark (lowerAfter before' text) := by
  induction mark generalizing before before' text with
  | nil => rfl
  | cons m mark induction =>
      obtain ⟨notI, notSigma, notFinal⟩ := plain m List.mem_cons_self
      have later : ∀ d ∈ mark, d ≠ 'i' ∧ d ≠ 'σ' ∧ d ≠ 'ς' := by
        intro d member
        exact plain d (List.mem_cons_of_mem m member)
      cases text with
      | nil => rfl
      | cons c text =>
          rw [lowerAfter, lowerAfter]
          by_cases sigma : c = 'Σ'
          · simp only [if_pos sigma]
            split <;> split <;>
              simp only [List.singleton_append,
                beginsWith_cons_of_ne notSigma, beginsWith_cons_of_ne notFinal]
          · simp only [if_neg sigma]
            rcases lowerChar_cases c with two | ⟨d, one⟩
            · simp only [two, List.cons_append, beginsWith_cons_of_ne notI]
            · have tails := induction later (c :: before) (c :: before') text
              simp only [beginsWith] at tails
              simp [one, beginsWith, List.isPrefixOf, tails]

end Text

open Text (isBlank lower lowerAfter trimLeft)

theorem openTagOffset?_append {front text : List Char}
    (other : ∀ c ∈ front, c ≠ '<')
    (tagged : beginsWith openTagMark text = true) :
    openTagOffset? (front ++ text) = some front.length := by
  induction front with
  | nil =>
      cases text with
      | nil => cases tagged
      | cons c text =>
          rw [List.nil_append, openTagOffset?, tagged, Bool.true_or]
          rfl
  | cons c front induction =>
      have notHere : '<' ≠ c := (other c List.mem_cons_self).symm
      have later : ∀ d ∈ front, d ≠ '<' := by
        intro d member
        exact other d (List.mem_cons_of_mem c member)
      rw [List.cons_append, openTagOffset?, openTagMark, echoTagMark,
        Text.beginsWith_cons_of_ne notHere, Text.beginsWith_cons_of_ne notHere,
        induction later]
      rfl

theorem exists_of_lower_openTag {text : List Char}
    (tagged : beginsWith openTagMark (lower text) = true) :
    ∃ rest, text = '<' :: rest := by
  cases text with
  | nil => cases tagged
  | cons c rest =>
      have notSigma : c ≠ 'Σ' := by
        rintro rfl
        rw [lower, lowerAfter, if_pos rfl] at tagged
        split at tagged <;>
          simp [openTagMark, beginsWith, List.isPrefixOf] at tagged
      rw [lower, lowerAfter, if_neg notSigma] at tagged
      rcases Text.lowerChar_cases c with two | ⟨d, one⟩
      · simp [two, openTagMark, beginsWith, List.isPrefixOf] at tagged
      · obtain ⟨rfl, _⟩ : '<' = d ∧ _ := by
          simpa [one, openTagMark, beginsWith, List.isPrefixOf] using tagged
        rw [Text.eq_of_lowerChar one]
        exact ⟨rest, rfl⟩

/-- In a source that is read as a template, the tag that is found is the one
behind the leading blanks. -/
theorem exists_tag_of_template {source : String}
    (template : sourceMode source = .template) :
    ∃ offset rest, openTagOffset? (lower source.toList) = some offset ∧
      source.toList.drop offset = '<' :: rest := by
  have tagged :
      beginsWith openTagMark (lower (trimLeft source.toList)) = true := by
    unfold sourceMode at template
    split at template
    · assumption
    · cases template
  let blanks := source.toList.takeWhile isBlank
  have blank : ∀ c ∈ blanks, isBlank c = true :=
    List.all_eq_true.mp List.all_takeWhile
  have split : source.toList = blanks ++ trimLeft source.toList :=
    List.takeWhile_append_dropWhile.symm
  have lowered : lower source.toList =
      blanks ++ lowerAfter blanks.reverse (trimLeft source.toList) := by
    have leading :=
      Text.lowerAfter_blanks blank [] (trimLeft source.toList)
    rwa [← split, List.append_nil] at leading
  have other : ∀ c ∈ blanks, c ≠ '<' := by
    rintro c member rfl
    exact absurd (blank _ member) (by decide)
  have plain : ∀ m ∈ openTagMark, m ≠ 'i' ∧ m ≠ 'σ' ∧ m ≠ 'ς' := by
    simp only [openTagMark, List.forall_mem_cons]
    exact ⟨by decide, by decide, by decide, by decide, by decide,
      List.forall_mem_nil _⟩
  have found := openTagOffset?_append other
    ((Text.beginsWith_lowerAfter plain blanks.reverse [] _).trans tagged)
  obtain ⟨rest, begins⟩ := exists_of_lower_openTag tagged
  refine ⟨blanks.length, rest, by rw [lowered, found], ?_⟩
  rw [split, List.drop_left, begins]

end TokenMacros
