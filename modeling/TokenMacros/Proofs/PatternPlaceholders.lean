import TokenMacros.Proofs.CaptureMarks
import TokenMacros.Proofs.PatternChunks

/-!
# Placeholders of a pattern

The captures of a pattern are found again by their markers.  They are all found,
and nothing else is, if no stretch contains the marker of a capture or the
beginning of a marker that would run into the next one.
-/

namespace TokenMacros

open Text (isBlank)

/-- Name and number of a placeholder. -/
def PatternElement.capture? : PatternElement → Option (String × Nat)
  | .placeholder index name => some (name, index)
  | .token _ => none

def placeholders (elements : List PatternElement) : List (String × Nat) :=
  elements.filterMap PatternElement.capture?

/-! ## Placeholders of chunks -/

section

variable {names : List (Nat × String)}

/-- The placeholders that chunks stand for. -/
def chunkPlaceholders (names : List (Nat × String)) (chunks : List (List Char)) :
    List (String × Nat) :=
  placeholders (chunks.flatMap (Pattern.chunkElements names))

theorem chunkPlaceholders_append (left right : List (List Char)) :
    chunkPlaceholders names (left ++ right) =
      chunkPlaceholders names left ++ chunkPlaceholders names right := by
  rw [chunkPlaceholders, placeholders, List.flatMap_append,
    List.filterMap_append]
  rfl

theorem placeholders_map_token (literals : List Token) :
    placeholders (literals.map .token) = [] := by
  rw [placeholders, List.filterMap_eq_nil_iff]
  intro element member
  obtain ⟨literal, _, rfl⟩ := List.mem_map.mp member
  rfl

/-- A chunk stands for the capture whose marker it is. -/
theorem placeholders_chunkElements (chunk : List Char) :
    placeholders (Pattern.chunkElements names chunk) =
      ((names.find? fun entry => (marker entry.1).toList == chunk).map
        Prod.swap).toList := by
  unfold Pattern.chunkElements
  split
  · next index name found =>
      rw [show names.find? (fun entry => (marker entry.1).toList == chunk) =
        some (index, name) from found]
      rfl
  · next notFound =>
      rw [show names.find? (fun entry => (marker entry.1).toList == chunk) =
        none from notFound]
      have plain := placeholders_map_token
      split
      · split
        · exact plain [_]
        · exact plain _
      · exact plain _

theorem chunkPlaceholders_of_ne {chunks : List (List Char)}
    (other : ∀ chunk ∈ chunks, ∀ entry ∈ names,
      (marker entry.1).toList ≠ chunk) :
    chunkPlaceholders names chunks = [] := by
  induction chunks with
  | nil => rfl
  | cons chunk chunks induction =>
      have later := induction fun next member =>
        other next (List.mem_cons_of_mem chunk member)
      have notFound :
          names.find? (fun entry => (marker entry.1).toList == chunk) = none := by
        rw [List.find?_eq_none]
        intro entry member same
        exact other chunk List.mem_cons_self entry member (beq_iff_eq.mp same)
      have here := @placeholders_chunkElements names chunk
      rw [notFound] at here
      rw [← List.singleton_append, chunkPlaceholders_append, later,
        List.append_nil, chunkPlaceholders, List.flatMap_singleton, here]
      rfl

/-- In front of a marker or the end, the chunks of a stretch stand for no
capture. -/
theorem chunkPlaceholders_chunks {count : Nat}
    (numbered : ∀ entry ∈ names, entry.1 < count) {tail : List Char}
    (follows : MarkedOrNothing tail) {stretch : List Char}
    (unforged : Unforged count stretch)
    (closes : tail ≠ [] → ClosesMarkers stretch) :
    chunkPlaceholders names (chunks (stretch ++ tail)) =
      chunkPlaceholders names (chunks tail) := by
  have none : chunkPlaceholders names (chunks stretch) = [] := by
    apply chunkPlaceholders_of_ne
    intro chunk member entry listed
    exact unforged.marker_ne_chunk (numbered entry listed) chunk member
  rw [chunks, chunksAfter_append follows closes [], chunkPlaceholders_append,
    ← chunks, none, List.nil_append]

/-- Each marked stretch shows the capture in front of it, and no other. -/
theorem chunkPlaceholders_marked {count : Nat}
    (numbered : ∀ entry ∈ names, entry.1 < count) {stretch : List Char}
    {marked : List ((List Char × List Char) × Nat)}
    (unforged : ∀ text ∈ stretch :: marked.map (·.1.2), Unforged count text)
    (closes : ∀ text ∈ (stretch :: marked.map (·.1.2)).dropLast,
      ClosesMarkers text)
    (named : ∀ entry ∈ marked,
      placeholders (Pattern.chunkElements names (marker entry.2).toList) =
        [(String.ofList entry.1.1, entry.2)]) :
    chunkPlaceholders names (chunks (stretch ++ markedTail marked)) =
      marked.map fun entry => (String.ofList entry.1.1, entry.2) := by
  induction marked generalizing stretch with
  | nil =>
      have alone := chunkPlaceholders_chunks numbered (.inl rfl)
        (unforged stretch List.mem_cons_self) (fun some => absurd rfl some)
      have nothing : chunkPlaceholders names (chunks []) = [] := by
        rw [chunks, chunksAfter_nil]
        rfl
      exact alone.trans nothing
  | cons entry marked induction =>
      obtain ⟨⟨name, later⟩, index⟩ := entry
      have here : ClosesMarkers stretch := closes stretch List.mem_cons_self
      have behind := induction
        (fun text member => unforged text (List.mem_cons_of_mem _ member))
        (fun text member => closes text (List.mem_cons_of_mem _ member))
        (fun entry member => named entry (List.mem_cons_of_mem _ member))
      calc
        chunkPlaceholders names (chunks (stretch ++
              markedTail (((name, later), index) :: marked))) =
            chunkPlaceholders names (chunks ((marker index).toList ++
              (later ++ markedTail marked))) := by
          rw [markedTail_cons]
          exact chunkPlaceholders_chunks numbered (.inr ⟨_, _, rfl⟩)
            (unforged stretch List.mem_cons_self) (fun _ => here)
        _ = placeholders
                (Pattern.chunkElements names (marker index).toList) ++
              chunkPlaceholders names (chunks (later ++ markedTail marked)) := by
          rw [chunks_marker, ← List.singleton_append, chunkPlaceholders_append,
            chunkPlaceholders, List.flatMap_singleton]
        _ = (String.ofList name, index) ::
              marked.map fun entry => (String.ofList entry.1.1, entry.2) := by
          rw [behind, named _ List.mem_cons_self, List.singleton_append]

/-! ## Placeholders of numbered captures -/

theorem marker_injective {left right : Nat}
    (same : (marker left).toList = (marker right).toList) : left = right := by
  rw [toList_marker, toList_marker, List.append_cancel_left_eq,
    List.append_cancel_right_eq] at same
  calc
    left = Nat.ofDigitChars 10 (Nat.toDigits 10 left) 0 :=
      Nat.ofDigitChars_ten_toDigits.symm
    _ = right := by rw [same, Nat.ofDigitChars_ten_toDigits]

theorem find?_marker (distinct : (names.map Prod.fst).Nodup) {index : Nat}
    {name : String} (listed : (index, name) ∈ names) :
    names.find? (fun entry => (marker entry.1).toList ==
      (marker index).toList) = some (index, name) := by
  induction names with
  | nil => cases listed
  | cons entry names induction =>
      rw [List.map_cons, List.nodup_cons] at distinct
      rcases List.mem_cons.mp listed with rfl | later
      · rw [List.find?_cons_of_pos]
        exact beq_self_eq_true _
      · rw [List.find?_cons_of_neg]
        · exact induction distinct.2 later
        · intro same
          apply distinct.1
          rw [marker_injective (beq_iff_eq.mp same)]
          exact List.mem_map_of_mem later

end

/-- The names of the captures, from left to right. -/
def Stretches.names (stretches : Stretches) : List String :=
  stretches.marked.map fun mark => String.ofList mark.1

theorem numberedNames_eq (stretches : Stretches) :
    Pattern.numberedNames stretches = stretches.names.zipIdx.map Prod.swap := by
  rw [Stretches.names, List.zipIdx_map, List.map_map]
  rfl

theorem length_names (stretches : Stretches) :
    stretches.names.length = stretches.marked.length :=
  List.length_map _

theorem placeholders_subset_names (stretches : Stretches)
    (chunks : List (List Char)) :
    chunkPlaceholders (Pattern.numberedNames stretches) chunks ⊆
      stretches.names.zipIdx := by
  intro entry member
  obtain ⟨element, listed, shown⟩ := List.mem_filterMap.mp member
  obtain ⟨chunk, _, stands⟩ := List.mem_flatMap.mp listed
  have here : entry ∈ placeholders
      (Pattern.chunkElements (Pattern.numberedNames stretches) chunk) :=
    List.mem_filterMap.mpr ⟨element, stands, shown⟩
  rw [placeholders_chunkElements, Option.mem_toList,
    Option.map_eq_some_iff] at here
  obtain ⟨found, isFound, rfl⟩ := here
  have inTable := List.mem_of_find?_eq_some isFound
  rw [numberedNames_eq] at inTable
  obtain ⟨numbered, isNumbered, rfl⟩ := List.mem_map.mp inTable
  exact isNumbered

/-- The captures of a pattern, numbered from left to right, are what its table
lists and what its placeholders are taken from.  They are its placeholders if no
stretch contains the marker of one of them and the stretches in front of them
close the markers that begin there. -/
theorem parse_placeholders {text : String} {stretches : Stretches}
    (isCut : CutAtCaptures text.toList stretches) :
    let names := stretches.names
    let pattern := Pattern.parse text
    pattern.captures =
        names.zipIdx.map (fun (name, index) => (marker index, name)) ∧
      placeholders pattern.elements ⊆ names.zipIdx ∧
      ((∀ stretch ∈ stretches.all, Unforged names.length stretch) →
        (∀ stretch ∈ stretches.all.dropLast, ClosesMarkers stretch) →
          placeholders pattern.elements = names.zipIdx) := by
  intro names pattern
  have parsed : pattern = Pattern.parse text := rfl
  unfold Pattern.parse at parsed
  dsimp only at parsed
  rw [← isCut.eq_cut] at parsed
  split at parsed
  · next unmarked =>
      have none : names = [] := by
        simp only [names, Stretches.names, List.map_eq_nil_iff]
        exact List.isEmpty_iff.mp unmarked
      have nothing := placeholders_map_token (lexCode text)
      rw [parsed, none]
      exact ⟨rfl, by rw [nothing]; exact List.nil_subset _,
        fun _ _ => nothing⟩
  · next marked =>
      let numbered := Pattern.numberedNames stretches
      have elements : placeholders pattern.elements =
          chunkPlaceholders numbered (chunks (Pattern.markedText stretches)) := by
        rw [parsed]
        rfl
      refine ⟨?_, ?_, ?_⟩
      · rw [parsed, numberedNames_eq, List.map_map]
        rfl
      · rw [elements]
        exact placeholders_subset_names stretches _
      · intro unforged closes
        rw [length_names, all_eq_zipIdx] at unforged
        rw [all_eq_zipIdx] at closes
        rw [elements, markedText_eq, chunkPlaceholders_marked
          (fun _ => fst_lt_of_mem_numberedNames) unforged closes]
        · simp only [names, Stretches.names, List.zipIdx_map]
          rfl
        · intro entry member
          have listed : (entry.2, String.ofList entry.1.1) ∈ numbered :=
            List.mem_map_of_mem member
          rw [placeholders_chunkElements,
            find?_marker (nodup_numberedNames stretches) listed]
          rfl

/-- Markers of other numbers do no harm. -/
theorem parse_placeholders_unless :
    let text :=
      "unless __CAPTURE_7__ ($(layer() as c)) return $(layer() as result);"
    let stretches := Stretches.cut Mark.capture? text.toList
    CutAtCaptures text.toList stretches ∧
      stretches.names = ["c", "result"] ∧
      (∀ stretch ∈ stretches.all, Unforged stretches.names.length stretch) ∧
      (∀ stretch ∈ stretches.all.dropLast, ClosesMarkers stretch) ∧
      placeholders (Pattern.parse text).elements =
        [("c", 0), ("result", 1)] := by
  intro text stretches
  have isCut : CutAtCaptures text.toList stretches := cut_capture? text.toList
  have names : stretches.names = ["c", "result"] := by decide +kernel
  have unforged : ∀ stretch ∈ stretches.all,
      Unforged stretches.names.length stretch := by
    decide +kernel
  have closes : ∀ stretch ∈ stretches.all.dropLast, ClosesMarkers stretch := by
    decide +kernel
  refine ⟨isCut, names, unforged, closes, ?_⟩
  have shown := (parse_placeholders isCut).2.2 unforged closes
  rw [names] at shown
  exact shown

/-- A marker in a pattern stands for a capture, and the beginning of one takes
in the marker of the capture behind it. -/
theorem parse_placeholders_forged :
    let shown (text : String) := placeholders (Pattern.parse text).elements
    let names (text : String) :=
      (Stretches.cut Mark.capture? text.toList).names
    (shown "f __CAPTURE_0__ $(layer() as x)" = [("x", 0), ("x", 0)] ∧
      names "f __CAPTURE_0__ $(layer() as x)" = ["x"]) ∧
    (shown "f __CAPTURE_5 $(layer() as x)" = [] ∧
      names "f __CAPTURE_5 $(layer() as x)" = ["x"]) ∧
    shown "__CAPTURE$(layer() as x)" = [] ∧
      names "__CAPTURE$(layer() as x)" = ["x"] := by
  decide +kernel

end TokenMacros
