import TokenMacros.Proofs.PatternChunks

/-!
# Runs of literals

The literals of a pattern, run by run: in front of its first placeholder, between
placeholders, and behind the last.  They are found stretch by stretch and chunk
by chunk.
-/

namespace TokenMacros

/-- The texts of the tokens of a code text that are not trivia. -/
def meaningfulTexts (code : List Char) : List String :=
  ((lexCode (String.ofList code)).filter (!·.isTrivia)).map Token.text

/-- The texts of the pieces of a text that are not trivia. -/
def meaningfulPieces (text : List Char) : List (List Char) :=
  ((codePieces text).filter isMeaningful).map Prod.snd

theorem meaningfulPieces_nil : meaningfulPieces [] = [] := by
  rw [meaningfulPieces, codePieces_nil]
  rfl

theorem meaningfulTexts_eq {code : List Char}
    (spelled : (codePieces code).flatMap Prod.snd = code) :
    meaningfulTexts code = (meaningfulPieces code).map String.ofList := by
  obtain ⟨behind, split, none⟩ := lexCode_pieces (String.ofList code)
  rw [String.toList_ofList] at split none
  rw [none spelled, List.append_nil] at split
  rw [meaningfulTexts, meaningfulPieces, ← split, List.filter_map,
    isMeaningful_comp_piece, List.map_map, List.map_map]
  apply List.map_congr_left
  intro token _
  simp [Token.piece]

/-- The texts of the tokens that are not trivia, chunk by chunk. -/
def chunkTexts (stretch : List Char) : List String :=
  (chunks stretch).flatMap meaningfulTexts

/-- The texts of the literals in front of the first placeholder, between
placeholders and behind the last. -/
def literalRuns : List PatternElement → List (List String)
  | [] => [[]]
  | .placeholder _ _ :: pattern => [] :: literalRuns pattern
  | .token literal :: pattern =>
    (literalRuns pattern).modifyHead (literal.text :: ·)

/-- The elements are literals of these texts. -/
def SpellLiterals (elements : List PatternElement) (texts : List String) :
    Prop :=
  ∃ literals : List Token,
    elements = literals.map .token ∧ literals.map Token.text = texts

theorem SpellLiterals.append {left right : List PatternElement}
    {leftTexts rightTexts : List String} (first : SpellLiterals left leftTexts)
    (second : SpellLiterals right rightTexts) :
    SpellLiterals (left ++ right) (leftTexts ++ rightTexts) := by
  obtain ⟨literals, rfl, rfl⟩ := first
  obtain ⟨later, rfl, rfl⟩ := second
  exact ⟨literals ++ later, by rw [List.map_append], by rw [List.map_append]⟩

theorem SpellLiterals.literalRuns_append {elements : List PatternElement}
    {texts : List String} (spell : SpellLiterals elements texts)
    (pattern : List PatternElement) :
    literalRuns (elements ++ pattern) =
      (literalRuns pattern).modifyHead (texts ++ ·) := by
  obtain ⟨literals, rfl, rfl⟩ := spell
  induction literals with
  | nil =>
      rw [List.map_nil, List.map_nil, List.nil_append]
      cases literalRuns pattern <;> rfl
  | cons literal literals induction =>
      rw [List.map_cons, List.cons_append, literalRuns, induction]
      cases literalRuns pattern <;> rfl

theorem meaningfulTexts_bracket {c : Char} (bracket : isBracket c = true) :
    meaningfulTexts [c] = [String.singleton c] := by
  have spelled : (codePieces [c]).flatMap Prod.snd = [c] := by
    rw [codePieces_bracket bracket]
    rfl
  rw [meaningfulTexts_eq spelled, meaningfulPieces, codePieces_bracket bracket]
  rfl

section

variable {names : List (Nat × String)}

/-- A chunk that is no marker of a capture stands for the tokens of its code. -/
theorem spellLiterals_chunk {chunk : List Char}
    (unmarked : ∀ entry ∈ names, (marker entry.1).toList ≠ chunk) :
    SpellLiterals (Pattern.chunkElements names chunk)
      (meaningfulTexts chunk) := by
  unfold Pattern.chunkElements
  split
  · next index name found =>
      have same := List.find?_some found
      have listed : (index, name) ∈ names := List.mem_of_find?_eq_some found
      exact absurd (beq_iff_eq.mp same) (unmarked (index, name) listed)
  split
  · next c notMarker =>
      split
      · next bracket =>
          rw [meaningfulTexts_bracket bracket]
          exact ⟨[.bare (String.singleton c)], rfl, rfl⟩
      · exact ⟨_, rfl, rfl⟩
  · exact ⟨_, rfl, rfl⟩

theorem spellLiterals_stretch {count : Nat}
    (numbered : ∀ entry ∈ names, entry.1 < count) {stretch : List Char}
    (unforged : Unforged count stretch) :
    SpellLiterals ((chunks stretch).flatMap (Pattern.chunkElements names))
      (chunkTexts stretch) := by
  have unmarked : ∀ chunk ∈ chunks stretch, ∀ entry ∈ names,
      (marker entry.1).toList ≠ chunk :=
    fun chunk member entry listed =>
      unforged.marker_ne_chunk (numbered entry listed) chunk member
  unfold chunkTexts
  generalize chunks stretch = found at unmarked ⊢
  induction found with
  | nil => exact ⟨[], rfl, rfl⟩
  | cons chunk found induction =>
      rw [List.flatMap_cons, List.flatMap_cons]
      apply (spellLiterals_chunk (unmarked chunk List.mem_cons_self)).append
      apply induction
      intro other member
      exact unmarked other (List.mem_cons_of_mem _ member)

theorem exists_placeholder {index : Nat} {name : String}
    (listed : (index, name) ∈ names) :
    ∃ index' name', Pattern.chunkElements names (marker index).toList =
      [.placeholder index' name'] := by
  unfold Pattern.chunkElements
  split
  · next index' name' found => exact ⟨index', name', rfl⟩
  · next notFound =>
      have refused := List.find?_eq_none.mp notFound (index, name) listed
      exact absurd (beq_self_eq_true _) refused

/-- The literals of marked stretches, one run for each of them. -/
theorem literalRuns_marked {count : Nat}
    (numbered : ∀ entry ∈ names, entry.1 < count) {stretch : List Char}
    {marked : List ((List Char × List Char) × Nat)}
    (unforged : ∀ text ∈ stretch :: marked.map (·.1.2), Unforged count text)
    (closes : ∀ text ∈ (stretch :: marked.map (·.1.2)).dropLast,
      ClosesMarkers text)
    (named : ∀ entry ∈ marked, ∃ name, (entry.2, name) ∈ names) :
    literalRuns ((chunks (stretch ++ markedTail marked)).flatMap
        (Pattern.chunkElements names)) =
      (stretch :: marked.map (·.1.2)).map chunkTexts := by
  have spelled :=
    spellLiterals_stretch numbered (unforged stretch List.mem_cons_self)
  induction marked generalizing stretch with
  | nil =>
      have alone := spelled.literalRuns_append []
      rw [List.append_nil] at alone
      rw [markedTail, List.flatMap_nil, List.append_nil, alone]
      simp [literalRuns]
  | cons entry marked induction =>
      obtain ⟨⟨name, later⟩, index⟩ := entry
      obtain ⟨shown, listed⟩ := named _ List.mem_cons_self
      obtain ⟨index', name', placeholder⟩ := exists_placeholder listed
      have here : ClosesMarkers stretch := closes stretch List.mem_cons_self
      have laterUnforged : ∀ text ∈ later :: marked.map (·.1.2),
          Unforged count text :=
        fun text member => unforged text (List.mem_cons_of_mem _ member)
      have behind := induction laterUnforged
        (fun text member => closes text (List.mem_cons_of_mem _ member))
        (fun other member => named other (List.mem_cons_of_mem _ member))
        (spellLiterals_stretch numbered (laterUnforged later List.mem_cons_self))
      have front := spelled.literalRuns_append
        (.placeholder index' name' ::
          (chunks (later ++ markedTail marked)).flatMap
            (Pattern.chunkElements names))
      rw [literalRuns, behind, List.modifyHead_cons, List.append_nil] at front
      rw [markedTail_cons, chunks,
        chunksAfter_append (.inr ⟨_, _, rfl⟩) (fun _ => here), chunks_marker,
        List.flatMap_append, List.flatMap_cons, placeholder,
        List.singleton_append]
      exact front

end

/-- The literals of a pattern with captures are found in its stretches, chunk by
chunk, if none of these contains the marker of a capture, and those in front of
captures close the markers that begin there. -/
theorem literalRuns_parse {text : String} {stretches : Stretches}
    (isCut : stretches = Stretches.cut Mark.capture? text.toList)
    (capturing : stretches.marked ≠ [])
    (unforged : ∀ stretch ∈ stretches.all,
      Unforged stretches.marked.length stretch)
    (closes : ∀ stretch ∈ stretches.all.dropLast, ClosesMarkers stretch) :
    literalRuns (Pattern.parse text).elements =
      stretches.all.map chunkTexts := by
  have marked : ¬ stretches.marked.isEmpty = true := by
    rwa [List.isEmpty_iff]
  rw [all_eq_zipIdx] at unforged closes ⊢
  unfold Pattern.parse
  simp only [← isCut, if_neg marked, markedText_eq]
  apply literalRuns_marked (fun _ => fst_lt_of_mem_numberedNames) unforged closes
  intro entry member
  exact ⟨String.ofList entry.1.1, List.mem_map_of_mem member⟩

end TokenMacros
