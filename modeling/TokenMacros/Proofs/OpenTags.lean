import Mathlib.Data.List.Infix
import TokenMacros.Proofs.TemplateStart

/-!
# Open tags in place

Open tags are looked for in the lower case of the whole source, and the source
is cut at the offset found there.  The two agree as long as no tag stands behind
an `İ`, the only character whose lower case is longer than itself.
-/

namespace TokenMacros

open Text (lowerAfter lowerChar)

namespace Text

theorem eq_dotted_of_lowerChar {c : Char}
    (lowered : lowerChar c = ['i', '\u0307']) : c = 'İ' := by
  unfold lowerChar at lowered
  simp only at lowered
  split at lowered
  · simp at lowered
  split at lowered
  · next code => exact Char.ext (UInt32.toNat_inj.mp code)
  split at lowered <;> simp at lowered

end Text

/-! ## Tags of a text -/

/-- The text with its ASCII capitals lowered. -/
def asciiLower (text : List Char) : List Char :=
  text.map Char.toLower

@[simp] theorem asciiLower_cons (c : Char) (text : List Char) :
    asciiLower (c :: text) = c.toLower :: asciiLower text := rfl

/-- An open tag stands at the front of the text, in whatever case. -/
def opensCode (text : List Char) : Bool :=
  beginsWith openTagMark (asciiLower text) ||
    beginsWith echoTagMark (asciiLower text)

/-- No open tag stands behind an `İ`. -/
def TagsInPlace (source : List Char) : Prop :=
  ∀ text ∈ source.tails, text.head? = some 'İ' →
    ∀ back ∈ text.tails, opensCode back = false

instance (source : List Char) : Decidable (TagsInPlace source) :=
  inferInstanceAs (Decidable (∀ text ∈ source.tails, _))

theorem TagsInPlace.of_suffix {source text : List Char}
    (inPlace : TagsInPlace source) (behind : text <:+ source) :
    TagsInPlace text := by
  intro back member
  apply inPlace
  rw [List.mem_tails] at member ⊢
  exact member.trans behind

theorem TagsInPlace.untagged {text : List Char}
    (inPlace : TagsInPlace ('İ' :: text)) :
    ∀ back, back <:+ 'İ' :: text → opensCode back = false := by
  intro back behind
  apply inPlace ('İ' :: text) _ rfl back
  · rwa [List.mem_tails]
  · rw [List.mem_tails]

theorem tagsInPlace_of_not_mem {source : List Char}
    (plain : 'İ' ∉ source) : TagsInPlace source := by
  intro text member dotted
  rw [List.mem_tails] at member
  exact absurd (member.subset (List.mem_of_mem_head? dotted)) plain

theorem openTagOffset?_cons (c : Char) (text : List Char) :
    openTagOffset? (c :: text) =
      if beginsWith openTagMark (c :: text) ||
          beginsWith echoTagMark (c :: text) then some 0
      else (openTagOffset? text).map (· + 1) := rfl

theorem openTagOffset?_eq_none {text : List Char}
    (untagged : ∀ back, back <:+ text → opensCode back = false) :
    openTagOffset? (asciiLower text) = none := by
  induction text with
  | nil => rfl
  | cons c text induction =>
      have notHere := untagged (c :: text) (List.suffix_refl _)
      rw [opensCode, asciiLower_cons] at notHere
      rw [asciiLower_cons, openTagOffset?_cons, notHere, if_neg (by decide),
        induction]
      · rfl
      · intro back behind
        exact untagged back (behind.trans (List.suffix_cons c text))

theorem openTagOffset?_drop_eq_none {text : List Char}
    (untagged : openTagOffset? text = none) (count : Nat) :
    openTagOffset? (text.drop count) = none := by
  induction count generalizing text with
  | zero => exact untagged
  | succ count induction =>
      cases text with
      | nil => rfl
      | cons c text =>
          rw [openTagOffset?_cons] at untagged
          split at untagged
          · cases untagged
          · exact induction (Option.map_eq_none_iff.mp untagged)

theorem openTagOffset?_drop {text : List Char} {offset : Nat}
    (found : openTagOffset? text = some offset) :
    openTagOffset? (text.drop offset) = some 0 := by
  induction text generalizing offset with
  | nil => cases found
  | cons c text induction =>
      have here := found
      rw [openTagOffset?_cons] at here
      split at here
      · obtain rfl := Option.some.inj here
        exact found
      · obtain ⟨later, foundLater, rfl⟩ := Option.map_eq_some_iff.mp here
        exact induction foundLater

/-! ## Tags of the lowered source -/

/-- A tag shows in the lower case of a text exactly if it stands in the text. -/
theorem beginsWith_lowerAfter_eq {mark : List Char}
    (inTag : ∀ m ∈ mark, m ∈ ['<', '?', '=', 'p', 'h'])
    (before text : List Char) :
    beginsWith mark (lowerAfter before text) =
      beginsWith mark (asciiLower text) := by
  have apart : ∀ m ∈ ['<', '?', '=', 'p', 'h'],
      (0 < m.toNat ∧ m.toNat < 0x80) ∧ m ≠ 'k' ∧
        m ≠ 'i' ∧ m ≠ 'σ' ∧ m ≠ 'ς' ∧ m ≠ 'Σ' := by
    decide
  induction mark generalizing before text with
  | nil => rfl
  | cons m mark induction =>
      have listed := inTag m List.mem_cons_self
      obtain ⟨ascii, notK, notI, notSigma, notFinal, notCapital⟩ :=
        apart m listed
      cases text with
      | nil => rfl
      | cons c text =>
          rw [lowerAfter, asciiLower_cons]
          have iff := Text.lowerChar_eq_ascii_iff ascii notK c
          by_cases sigma : c = 'Σ'
          · have capital : c.toLower = 'Σ' := by
              rw [sigma]
              decide
            rw [if_pos sigma, capital, Text.beginsWith_cons_of_ne notCapital]
            split <;>
              simp only [List.singleton_append,
                Text.beginsWith_cons_of_ne notSigma,
                Text.beginsWith_cons_of_ne notFinal]
          · rw [if_neg sigma]
            rcases Text.lowerChar_cases c with two | ⟨d, one⟩
            · have other : m ≠ c.toLower := by
                intro same
                have single := iff.mpr same.symm
                rw [two] at single
                cases single
              rw [two, Text.beginsWith_cons_of_ne other]
              exact Text.beginsWith_cons_of_ne notI _ _
            · have heads : (m == d) = (m == c.toLower) := by
                rw [one, List.singleton_inj] at iff
                rw [Bool.eq_iff_iff, beq_iff_eq, beq_iff_eq, eq_comm, iff,
                  eq_comm]
              have tails := induction
                (fun other member => inTag other (List.mem_cons_of_mem m member))
                (c :: before) text
              simp only [beginsWith] at tails
              simp only [one, List.singleton_append, beginsWith,
                List.isPrefixOf, heads, tails]

theorem opensCode_lowerAfter (before text : List Char) :
    (beginsWith openTagMark (lowerAfter before text) ||
        beginsWith echoTagMark (lowerAfter before text)) =
      opensCode text := by
  rw [opensCode, beginsWith_lowerAfter_eq (by decide),
    beginsWith_lowerAfter_eq (by decide)]

/-- Where tags are in place, the first tag of the lower case has the offset that
it has in the text. -/
theorem openTagOffset?_lowerAfter {text : List Char}
    (inPlace : TagsInPlace text) (before : List Char) :
    openTagOffset? (lowerAfter before text) =
      openTagOffset? (asciiLower text) := by
  induction text generalizing before with
  | nil => rfl
  | cons c text induction =>
      have later := induction (inPlace.of_suffix (List.suffix_cons c text))
        (c :: before)
      have here := opensCode_lowerAfter before (c :: text)
      have single {d : Char}
          (one : lowerAfter before (c :: text) =
            d :: lowerAfter (c :: before) text) :
          openTagOffset? (lowerAfter before (c :: text)) =
            openTagOffset? (asciiLower (c :: text)) := by
        rw [opensCode, asciiLower_cons] at here
        rw [one] at here ⊢
        rw [asciiLower_cons, openTagOffset?_cons, openTagOffset?_cons, here,
          later]
      by_cases sigma : c = 'Σ'
      · apply single
        rw [lowerAfter, if_pos sigma]
        rfl
      rcases Text.lowerChar_cases c with two | ⟨d, one⟩
      · -- behind an `İ` there is no tag, neither here nor there
        obtain rfl : c = 'İ' := Text.eq_dotted_of_lowerChar two
        have untagged := inPlace.untagged
        have none := openTagOffset?_eq_none
          fun back behind => untagged back (behind.trans (List.suffix_cons _ text))
        rw [openTagOffset?_eq_none untagged, lowerAfter, if_neg sigma, two]
        simp only [List.cons_append, List.nil_append]
        rw [none] at later
        rw [openTagOffset?_cons, openTagOffset?_cons, later]
        simp [openTagMark, echoTagMark, beginsWith, List.isPrefixOf]
      · apply single
        rw [lowerAfter, if_neg sigma, one]
        rfl

/-- The lower case can be entered at any place of a source with its tags in
place. -/
theorem openTagOffset?_drop_lowerAfter {source : List Char}
    (inPlace : TagsInPlace source) (before : List Char) (position : Nat) :
    openTagOffset? ((lowerAfter before source).drop position) =
      openTagOffset? (asciiLower (source.drop position)) := by
  induction source generalizing before position with
  | nil => simp [lowerAfter, asciiLower]
  | cons c source induction =>
      cases position with
      | zero => exact openTagOffset?_lowerAfter inPlace before
      | succ position =>
          have behind := inPlace.of_suffix (List.suffix_cons c source)
          have later := induction behind (c :: before) position
          by_cases sigma : c = 'Σ'
          · rw [lowerAfter, if_pos sigma]
            exact later
          rcases Text.lowerChar_cases c with two | ⟨d, one⟩
          · obtain rfl : c = 'İ' := Text.eq_dotted_of_lowerChar two
            have untagged := inPlace.untagged
            have none : openTagOffset? (lowerAfter before ('İ' :: source)) =
                none := by
              rw [openTagOffset?_lowerAfter inPlace,
                openTagOffset?_eq_none untagged]
            rw [openTagOffset?_drop_eq_none none, openTagOffset?_eq_none]
            intro back suffix
            exact untagged back (suffix.trans (List.drop_suffix _ _))
          · rw [lowerAfter, if_neg sigma, one]
            exact later

end TokenMacros
