import Mathlib.Data.List.Infix
import TokenMacros.Proofs.CodePieces
import TokenMacros.Proofs.MarkStretches
import TokenMacros.Rule.Pattern

/-!
# Chunks between captures

A pattern is cut into chunks once its captures are marked.  Where the stretches
in front of captures close the markers that begin there, the chunks of the marked
text are those of the stretches with the markers between them.
-/

namespace TokenMacros

open Text (isBlank)

/-! ## Markers -/

theorem toList_marker (index : Nat) :
    (marker index).toList =
      markerStart ++ (Nat.toDigits 10 index ++ ['_', '_']) := by
  have start : "__CAPTURE_".toList = markerStart := by decide
  have stop : "__".toList = ['_', '_'] := by decide
  have digits : (toString index).toList = Nat.toDigits 10 index :=
    Nat.toList_repr
  rw [marker, String.toList_append, String.toList_append, start, stop, digits,
    List.append_assoc]

theorem throughUnderscores?_append {digits : List Char}
    (noUnderscore : ∀ c ∈ digits, c ≠ '_') (more : List Char) :
    throughUnderscores? (digits ++ '_' :: '_' :: more) =
      some (digits.length + 2) := by
  induction digits with
  | nil => rfl
  | cons c digits induction =>
      have notHere : ¬ beginsWith ['_', '_']
          (c :: (digits ++ '_' :: '_' :: more)) = true := by
        have different : '_' ≠ c := (noUnderscore c List.mem_cons_self).symm
        simp [beginsWith, List.isPrefixOf, different]
      have later := induction fun other member =>
        noUnderscore other (List.mem_cons_of_mem _ member)
      rw [List.cons_append, throughUnderscores?, if_neg notHere, later,
        Option.map_some, List.length_cons]

theorem markerExtent?_marker (index : Nat) (more : List Char) :
    markerExtent? ((marker index).toList ++ more) =
      some (marker index).toList.length := by
  have noUnderscore : ∀ c ∈ Nat.toDigits 10 index, c ≠ '_' := by
    rintro c member rfl
    have digit := Nat.isDigit_of_mem_toDigits (by decide) (by decide) member
    exact absurd digit (by decide)
  have shape : (marker index).toList ++ more =
      markerStart ++ (Nat.toDigits 10 index ++ '_' :: '_' :: more) := by
    rw [toList_marker]
    simp
  have begins : beginsWith markerStart ((marker index).toList ++ more) = true := by
    rw [shape]
    exact List.isPrefixOf_iff_prefix.mpr (List.prefix_append _ _)
  rw [markerExtent?, if_pos begins, shape, List.drop_left,
    throughUnderscores?_append noUnderscore, toList_marker]
  simp only [Option.map_some, List.length_append, List.length_cons,
    List.length_nil]
  congr 1
  omega

/-- A marker start overlaps itself in one character at most. -/
theorem markerStart_overlap :
    ∀ shift < 9, shift ≠ 0 →
      markerStart.drop shift ≠ markerStart.take (10 - shift) := by
  decide

/-- A marker that begins in front of another one has at most its last character
in common with that. -/
theorem markerStart_prefix_of_append {text tail : List Char}
    (some : text ≠ []) (follows : markerStart <+: tail)
    (begins : markerStart <+: text ++ tail) : markerStart <+: text ++ ['_'] := by
  obtain ⟨more, rfl⟩ := follows
  have length : markerStart.length = 10 := rfl
  by_cases short : text.length < 9
  · -- the marker would begin in the text and overlap the next one
    exfalso
    have positive : text.length ≠ 0 := by
      rwa [ne_eq, List.length_eq_zero_iff]
    have overlap := begins.drop text.length
    rw [List.drop_left] at overlap
    have inStart : markerStart.drop text.length <+: markerStart := by
      apply List.prefix_of_prefix_length_le overlap (List.prefix_append _ _)
      rw [List.length_drop]
      omega
    have same := List.prefix_iff_eq_take.mp inStart
    rw [List.length_drop, length] at same
    exact markerStart_overlap text.length short positive same
  · have split : text ++ (markerStart ++ more) =
        text ++ ['_'] ++ (markerStart.tail ++ more) := by
      simp [markerStart]
    rw [split] at begins
    apply List.prefix_of_prefix_length_le begins (List.prefix_append _ _)
    rw [List.length_append, List.length_singleton]
    omega

/-! ## Extents of markers -/

theorem throughUnderscores?_append_of_some {text : List Char} {extent : Nat}
    (found : throughUnderscores? text = some extent) (more : List Char) :
    throughUnderscores? (text ++ more) = some extent := by
  induction text generalizing extent with
  | nil => cases found
  | cons c text induction =>
      rw [throughUnderscores?] at found
      rw [List.cons_append, throughUnderscores?]
      split at found
      · next here =>
          have begins : ['_', '_'] <+: c :: text :=
            List.isPrefixOf_iff_prefix.mp here
          have longer : beginsWith ['_', '_'] (c :: (text ++ more)) = true :=
            List.isPrefixOf_iff_prefix.mpr
              (begins.trans (List.prefix_append (c :: text) more))
          rw [if_pos longer]
          exact found
      · next notHere =>
          obtain ⟨later, foundLater, rfl⟩ := Option.map_eq_some_iff.mp found
          cases text with
          | nil => cases foundLater
          | cons d text =>
              have notLonger :
                  ¬ beginsWith ['_', '_'] (c :: (d :: text ++ more)) = true := by
                simpa [beginsWith, List.isPrefixOf] using notHere
              rw [if_neg notLonger, induction foundLater]
              rfl

theorem throughUnderscores?_le {text : List Char} {extent : Nat}
    (found : throughUnderscores? text = some extent) :
    extent ≤ text.length := by
  induction text generalizing extent with
  | nil => cases found
  | cons c text induction =>
      rw [throughUnderscores?] at found
      split at found
      · next here =>
          obtain rfl := Option.some.inj found
          exact (List.isPrefixOf_iff_prefix.mp here).length_le
      · obtain ⟨later, foundLater, rfl⟩ := Option.map_eq_some_iff.mp found
        exact Nat.succ_le_succ (induction foundLater)

theorem markerExtent?_eq_some_iff {text : List Char} {extent : Nat} :
    markerExtent? text = some extent ↔
      markerStart <+: text ∧
        ∃ body, throughUnderscores? (text.drop markerStart.length) = some body ∧
          extent = body + markerStart.length := by
  rw [markerExtent?, beginsWith]
  split
  · next begins =>
      rw [Option.map_eq_some_iff]
      have starts := List.isPrefixOf_iff_prefix.mp begins
      simp only [starts, true_and, eq_comm]
  · next notBegins =>
      rw [List.isPrefixOf_iff_prefix] at notBegins
      simp only [notBegins, false_and, reduceCtorEq]

theorem markerExtent?_append {text : List Char} {extent : Nat}
    (found : markerExtent? text = some extent) (more : List Char) :
    markerExtent? (text ++ more) = some extent := by
  rw [markerExtent?_eq_some_iff] at found ⊢
  obtain ⟨begins, body, stops, rfl⟩ := found
  refine ⟨begins.trans (List.prefix_append _ _), body, ?_, rfl⟩
  rw [List.drop_append_of_le_length begins.length_le]
  exact throughUnderscores?_append_of_some stops more

theorem markerExtent?_le {text : List Char} {extent : Nat}
    (found : markerExtent? text = some extent) : extent ≤ text.length := by
  rw [markerExtent?_eq_some_iff] at found
  obtain ⟨begins, body, stops, rfl⟩ := found
  have within := throughUnderscores?_le stops
  have starts := begins.length_le
  rw [List.length_drop] at within
  omega

/-! ## Markers in stretches -/

/-- None of the first markers stands in the text. -/
def Unforged (count : Nat) (text : List Char) : Prop :=
  ∀ index < count, ¬ (marker index).toList <:+: text

instance (count : Nat) (text : List Char) : Decidable (Unforged count text) :=
  inferInstanceAs (Decidable (∀ index < count, _))

/-- Markers that begin in the text, be it with their last character behind it,
end in the text. -/
def ClosesMarkers (text : List Char) : Prop :=
  ∀ back ∈ text.tails, markerStart <+: back ++ ['_'] →
    (markerExtent? back).isSome = true

instance (text : List Char) : Decidable (ClosesMarkers text) :=
  inferInstanceAs (Decidable (∀ back ∈ text.tails, _))

theorem ClosesMarkers.of_suffix {text back : List Char}
    (closes : ClosesMarkers text) (behind : back <:+ text) :
    ClosesMarkers back := by
  intro later member
  apply closes
  rw [List.mem_tails] at member ⊢
  exact member.trans behind

/-- Nothing, or a marker with what stands behind it. -/
def MarkedOrNothing (tail : List Char) : Prop :=
  tail = [] ∨ ∃ index more, tail = (marker index).toList ++ more

/-- In a text that closes its markers, no marker begins that runs into the next
one. -/
theorem markerExtent?_append_eq_none {text tail : List Char} (some : text ≠ [])
    (follows : MarkedOrNothing tail)
    (closes : tail ≠ [] → ClosesMarkers text)
    (unmarked : markerExtent? text = none) :
    markerExtent? (text ++ tail) = none := by
  rcases follows with rfl | ⟨index, more, rfl⟩
  · rwa [List.append_nil]
  · have starts : markerStart <+: (marker index).toList ++ more := by
      rw [toList_marker, List.append_assoc]
      exact List.prefix_append _ _
    have nonempty : (marker index).toList ++ more ≠ [] := by
      rw [toList_marker]
      rintro ⟨⟩
    by_contra marked
    obtain ⟨extent, found⟩ := Option.ne_none_iff_exists'.mp marked
    have begins := (markerExtent?_eq_some_iff.mp found).1
    have inside := closes nonempty text ((List.mem_tails _ _).mpr List.suffix_rfl)
      (markerStart_prefix_of_append some starts begins)
    rw [unmarked] at inside
    cases inside

/-! ## Chunks -/

theorem chunksAfter_nil (run : List Char) : chunksAfter run [] = runChunk run := by
  rw [chunksAfter]

theorem chunksAfter_marker (run : List Char) (index : Nat)
    (more : List Char) :
    chunksAfter run ((marker index).toList ++ more) =
      runChunk run ++ (marker index).toList :: chunks more := by
  have extent := markerExtent?_marker index more
  have some : (marker index).toList ≠ [] := by
    rw [toList_marker]
    exact List.cons_ne_nil _ _
  generalize (marker index).toList = text at extent some ⊢
  obtain ⟨c, text, rfl⟩ := List.exists_cons_of_ne_nil some
  rw [List.cons_append] at extent ⊢
  rw [chunksAfter, extent]
  simp [chunks]

theorem chunks_marker (index : Nat) (more : List Char) :
    chunks ((marker index).toList ++ more) =
      (marker index).toList :: chunks more := by
  rw [chunks, chunksAfter_marker]
  rfl

section

variable {c : Char} {rest : List Char}
  (unmarked : markerExtent? (c :: rest) = none)

include unmarked

theorem chunksAfter_bracket (run : List Char) (bracket : isBracket c = true) :
    chunksAfter run (c :: rest) = runChunk run ++ [c] :: chunks rest := by
  rw [chunksAfter, unmarked]
  simp [bracket, chunks]

theorem chunksAfter_blank (run : List Char) (notBracket : isBracket c = false)
    (blank : isBlank c = true) :
    chunksAfter run (c :: rest) = runChunk run ++ chunks rest := by
  rw [chunksAfter, unmarked]
  simp [notBracket, blank, chunks]

theorem chunksAfter_plain (run : List Char) (notBracket : isBracket c = false)
    (notBlank : isBlank c = false) :
    chunksAfter run (c :: rest) = chunksAfter (c :: run) rest := by
  rw [chunksAfter, unmarked]
  simp [notBracket, notBlank]

end

/-- In front of a marker or the end, a stretch is cut by itself. -/
theorem chunksAfter_append {stretch tail : List Char}
    (follows : MarkedOrNothing tail) (closes : tail ≠ [] → ClosesMarkers stretch)
    (run : List Char) :
    chunksAfter run (stretch ++ tail) = chunksAfter run stretch ++ chunks tail := by
  have behind {c : Char} {rest left : List Char}
      (closes : tail ≠ [] → ClosesMarkers (c :: rest)) (suffix : left <:+ rest)
      (some : tail ≠ []) : ClosesMarkers left :=
    (closes some).of_suffix (suffix.trans (List.suffix_cons c rest))
  have stays {c : Char} {rest : List Char}
      (closes : tail ≠ [] → ClosesMarkers (c :: rest))
      (unmarked : markerExtent? (c :: rest) = none) :
      markerExtent? (c :: (rest ++ tail)) = none :=
    markerExtent?_append_eq_none (List.cons_ne_nil c rest) follows closes unmarked
  fun_induction chunksAfter run stretch with
  | case1 run =>
      rw [List.nil_append]
      rcases follows with rfl | ⟨index, more, rfl⟩
      · rw [chunks, chunksAfter_nil, chunksAfter_nil]
        exact (List.append_nil _).symm
      · rw [chunksAfter_marker, chunks_marker]
  | case2 run c rest extent found induction =>
      have within : extent ≤ rest.length + 1 := markerExtent?_le found
      have taken : (c :: (rest ++ tail)).take extent = (c :: rest).take extent := by
        rw [← List.cons_append, List.take_append_of_le_length within]
      have left : (rest ++ tail).drop (extent - 1) =
          rest.drop (extent - 1) ++ tail :=
        List.drop_append_of_le_length (by omega)
      rw [List.cons_append, chunksAfter, ← List.cons_append,
        markerExtent?_append found tail, List.cons_append]
      dsimp only
      rw [taken, left, induction (behind closes (List.drop_suffix _ _)),
        List.append_assoc, List.cons_append]
  | case3 run c rest unmarked bracket induction =>
      rw [List.cons_append, chunksAfter_bracket (stays closes unmarked) run bracket,
        chunks, induction (behind closes List.suffix_rfl), List.append_assoc,
        List.cons_append]
  | case4 run c rest unmarked notBracket blank induction =>
      rw [List.cons_append, chunksAfter_blank (stays closes unmarked) run
        (Bool.eq_false_iff.mpr notBracket) blank, chunks,
        induction (behind closes List.suffix_rfl), List.append_assoc]
  | case5 run c rest unmarked notBracket notBlank induction =>
      rw [List.cons_append, chunksAfter_plain (stays closes unmarked) run
        (Bool.eq_false_iff.mpr notBracket) (Bool.eq_false_iff.mpr notBlank)]
      exact induction (behind closes List.suffix_rfl)

theorem eq_of_mem_runChunk {run chunk : List Char}
    (member : chunk ∈ runChunk run) : chunk = run.reverse := by
  unfold runChunk at member
  split at member
  · cases member
  · exact List.mem_singleton.mp member

theorem infix_append_cons {chunk behind rest : List Char}
    (inside : chunk <:+: behind) (suffix : behind <:+ rest)
    (front : List Char) (c : Char) : chunk <:+: front ++ c :: rest := by
  have later : behind <:+ front ++ c :: rest :=
    suffix.trans ((List.suffix_cons c rest).trans (List.suffix_append _ _))
  exact inside.trans later.isInfix

theorem infix_of_mem_chunksAfter {run text chunk : List Char}
    (member : chunk ∈ chunksAfter run text) :
    chunk <:+: run.reverse ++ text := by
  fun_induction chunksAfter run text with
  | case1 run =>
      rw [eq_of_mem_runChunk member, List.append_nil]
  | case2 run c rest extent found induction =>
      rcases List.mem_append.mp member with before | behind
      · rw [eq_of_mem_runChunk before]
        exact (List.prefix_append _ _).isInfix
      rcases List.mem_cons.mp behind with rfl | later
      · exact (List.take_prefix _ _).isInfix.trans
          (List.suffix_append _ _).isInfix
      · exact infix_append_cons (induction later) (List.drop_suffix _ _) _ c
  | case3 run c rest unmarked bracket induction =>
      rcases List.mem_append.mp member with before | behind
      · rw [eq_of_mem_runChunk before]
        exact (List.prefix_append _ _).isInfix
      rcases List.mem_cons.mp behind with rfl | later
      · exact ⟨run.reverse, rest, by simp⟩
      · exact infix_append_cons (induction later) (List.suffix_refl _) _ c
  | case4 run c rest unmarked notBracket blank induction =>
      rcases List.mem_append.mp member with before | later
      · rw [eq_of_mem_runChunk before]
        exact (List.prefix_append _ _).isInfix
      · exact infix_append_cons (induction later) (List.suffix_refl _) _ c
  | case5 run c rest unmarked notBracket notBlank induction =>
      have inText := induction member
      rwa [List.reverse_cons, List.append_assoc, List.singleton_append]
        at inText

/-- No chunk of an unforged stretch is the marker of a capture. -/
theorem Unforged.marker_ne_chunk {count index : Nat} {stretch : List Char}
    (unforged : Unforged count stretch) (less : index < count) :
    ∀ chunk ∈ chunks stretch, (marker index).toList ≠ chunk := by
  rintro chunk member rfl
  exact unforged index less (infix_of_mem_chunksAfter member)

/-! ## The marked text -/

/-- The marked stretches of a text, each behind the marker of its number. -/
def markedTail (marked : List ((List Char × List Char) × Nat)) : List Char :=
  marked.flatMap fun entry => (marker entry.2).toList ++ entry.1.2

theorem markedTail_cons (name stretch : List Char) (index : Nat)
    (marked : List ((List Char × List Char) × Nat)) :
    markedTail (((name, stretch), index) :: marked) =
      (marker index).toList ++ (stretch ++ markedTail marked) := by
  simp [markedTail]

theorem markedText_eq (stretches : Stretches) :
    Pattern.markedText stretches =
      stretches.lead ++ markedTail stretches.marked.zipIdx := rfl

theorem all_eq_zipIdx (stretches : Stretches) :
    stretches.all =
      stretches.lead :: stretches.marked.zipIdx.map (·.1.2) := by
  have numbers : stretches.marked.zipIdx.map (·.1.2) =
      (stretches.marked.zipIdx.map Prod.fst).map Prod.snd := by
    rw [List.map_map]
    rfl
  rw [numbers, List.zipIdx_map_fst, Stretches.all]

theorem fst_lt_of_mem_numberedNames {stretches : Stretches}
    {entry : Nat × String} (listed : entry ∈ Pattern.numberedNames stretches) :
    entry.1 < stretches.marked.length := by
  obtain ⟨mark, numbered, rfl⟩ := List.mem_map.mp listed
  exact List.snd_lt_of_mem_zipIdx numbered

theorem nodup_numberedNames (stretches : Stretches) :
    ((Pattern.numberedNames stretches).map Prod.fst).Nodup := by
  have numbers : (Pattern.numberedNames stretches).map Prod.fst =
      stretches.marked.zipIdx.map Prod.snd := by
    rw [Pattern.numberedNames, List.map_map]
    rfl
  rw [numbers, List.zipIdx_map_snd]
  exact List.nodup_range' 1

end TokenMacros
