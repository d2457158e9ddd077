import TokenMacros.Proofs.ExtentLocality
import TokenMacros.Proofs.PatternPlaceholders

/-!
# What chunks are made of

Cutting a text into chunks drops white space and nothing else, and each chunk is
a single bracket, a marker, or a run free of white space and brackets.  A marker
keeps whatever stands in it, white space and brackets included.
-/

namespace TokenMacros

open Text (isBlank)

/-- The text without its white space. -/
def withoutBlanks (text : List Char) : List Char :=
  text.filter fun c => !isBlank c

/-- The three shapes of a chunk. -/
inductive IsChunk : List Char → Prop where
  | bracket {c : Char} : isBracket c = true → IsChunk [c]
  /-- From a marker start through a pair of underscores behind it. -/
  | marker (inside : List Char) : IsChunk (markerStart ++ inside ++ ['_', '_'])
  | run {chunk : List Char} :
      chunk ≠ [] → (∀ c ∈ chunk, IsPlain c) → IsChunk chunk

theorem IsChunk.ne_nil {chunk : List Char} (shape : IsChunk chunk) :
    chunk ≠ [] := by
  cases shape with
  | bracket => exact List.cons_ne_nil _ _
  | marker inside => exact List.append_ne_nil_of_right_ne_nil _ (by decide)
  | run nonempty => exact nonempty

theorem withoutBlanks_append (left right : List Char) :
    withoutBlanks (left ++ right) = withoutBlanks left ++ withoutBlanks right :=
  List.filter_append left right

theorem withoutBlanks_cons_blank {c : Char} (blank : isBlank c = true)
    (text : List Char) : withoutBlanks (c :: text) = withoutBlanks text :=
  List.filter_cons_of_neg (by simp [blank])

/-! ## Markers -/

theorem take_throughUnderscores? {text : List Char} {extent : Nat}
    (found : throughUnderscores? text = some extent) :
    ∃ inside, text.take extent = inside ++ ['_', '_'] := by
  induction text generalizing extent with
  | nil => cases found
  | cons c text induction =>
      rw [throughUnderscores?] at found
      split at found
      · next here =>
          obtain rfl := Option.some.inj found
          have begins := List.isPrefixOf_iff_prefix.mp here
          exact ⟨[], (List.prefix_iff_eq_take.mp begins).symm⟩
      · obtain ⟨later, foundLater, rfl⟩ := Option.map_eq_some_iff.mp found
        obtain ⟨inside, taken⟩ := induction foundLater
        exact ⟨c :: inside, by rw [List.take_succ_cons, taken, List.cons_append]⟩

theorem take_markerExtent? {text : List Char} {extent : Nat}
    (found : markerExtent? text = some extent) :
    ∃ inside, text.take extent = markerStart ++ inside ++ ['_', '_'] := by
  obtain ⟨begins, body, stops, rfl⟩ := markerExtent?_eq_some_iff.mp found
  obtain ⟨behind, rfl⟩ := begins
  rw [List.drop_left] at stops
  obtain ⟨inside, taken⟩ := take_throughUnderscores? stops
  refine ⟨inside, ?_⟩
  rw [Nat.add_comm, List.take_length_add_append, taken, List.append_assoc]

/-! ## Chunks -/

theorem flatten_runChunk (run : List Char) :
    (runChunk run).flatten = run.reverse := by
  unfold runChunk
  split
  · next empty => rw [List.isEmpty_iff.mp empty, List.reverse_nil, List.flatten_nil]
  · exact List.flatten_singleton

/-- All characters but white space are kept, in their order. -/
theorem withoutBlanks_chunksAfter (run text : List Char) :
    withoutBlanks (chunksAfter run text).flatten =
      withoutBlanks (run.reverse ++ text) := by
  fun_induction chunksAfter run text with
  | case1 run => rw [flatten_runChunk, List.append_nil]
  | case2 run c rest extent found induction =>
      have positive : 0 < extent := by
        obtain ⟨_, body, _, rfl⟩ := markerExtent?_eq_some_iff.mp found
        exact Nat.add_pos_right body (by decide)
      have behind : rest.drop (extent - 1) = (c :: rest).drop extent := by
        rw [← List.drop_succ_cons, Nat.sub_add_cancel positive]
      rw [List.flatten_append, flatten_runChunk, List.flatten_cons,
        withoutBlanks_append, withoutBlanks_append, induction,
        List.reverse_nil, List.nil_append, behind, ← withoutBlanks_append,
        List.take_append_drop, ← withoutBlanks_append]
  | case3 run c rest unmarked bracket induction =>
      rw [List.flatten_append, flatten_runChunk, List.flatten_cons,
        withoutBlanks_append, withoutBlanks_append, induction,
        List.reverse_nil, List.nil_append, ← withoutBlanks_append,
        ← withoutBlanks_append, List.singleton_append]
  | case4 run c rest unmarked notBracket blank induction =>
      rw [List.flatten_append, flatten_runChunk, withoutBlanks_append,
        induction, List.reverse_nil, List.nil_append, withoutBlanks_append,
        withoutBlanks_cons_blank blank]
  | case5 run c rest unmarked notBracket notBlank induction =>
      rw [induction, List.reverse_cons, List.append_assoc,
        List.singleton_append]

theorem isChunk_of_mem_runChunk {run chunk : List Char}
    (plain : ∀ c ∈ run, IsPlain c) (member : chunk ∈ runChunk run) :
    IsChunk chunk := by
  unfold runChunk at member
  split at member
  · cases member
  · next some =>
      obtain rfl := List.mem_singleton.mp member
      refine .run ?_ fun c inside => plain c (List.mem_reverse.mp inside)
      rw [ne_eq, List.reverse_eq_nil_iff]
      exact fun empty => some (List.isEmpty_iff.mpr empty)

/-- Where the characters read so far make a run, what is cut off has one of the
three shapes. -/
theorem isChunk_of_mem_chunksAfter {run text chunk : List Char}
    (plain : ∀ c ∈ run, IsPlain c) (member : chunk ∈ chunksAfter run text) :
    IsChunk chunk := by
  fun_induction chunksAfter run text with
  | case1 run => exact isChunk_of_mem_runChunk plain member
  | case2 run c rest extent found induction =>
      rcases List.mem_append.mp member with before | behind
      · exact isChunk_of_mem_runChunk plain before
      rcases List.mem_cons.mp behind with rfl | later
      · obtain ⟨inside, taken⟩ := take_markerExtent? found
        rw [taken]
        exact .marker inside
      · exact induction (List.forall_mem_nil _) later
  | case3 run c rest unmarked bracket induction =>
      rcases List.mem_append.mp member with before | behind
      · exact isChunk_of_mem_runChunk plain before
      rcases List.mem_cons.mp behind with rfl | later
      · exact .bracket bracket
      · exact induction (List.forall_mem_nil _) later
  | case4 run c rest unmarked notBracket blank induction =>
      rcases List.mem_append.mp member with before | later
      · exact isChunk_of_mem_runChunk plain before
      · exact induction (List.forall_mem_nil _) later
  | case5 run c rest unmarked notBracket notBlank induction =>
      have plainHere : IsPlain c :=
        ⟨Bool.eq_false_iff.mpr notBlank, Bool.eq_false_iff.mpr notBracket⟩
      exact induction (List.forall_mem_cons.mpr ⟨plainHere, plain⟩) member

/-- The chunks of a text are never empty, each has one of the three shapes, and
joined they are the text up to white space. -/
theorem chunks_keepText (text : List Char) :
    [] ∉ chunks text ∧ (∀ chunk ∈ chunks text, IsChunk chunk) ∧
      withoutBlanks (chunks text).flatten = withoutBlanks text := by
  have shaped : ∀ chunk ∈ chunks text, IsChunk chunk := by
    intro chunk member
    exact isChunk_of_mem_chunksAfter (List.forall_mem_nil _) member
  refine ⟨?_, shaped, ?_⟩
  · intro member
    exact (shaped [] member).ne_nil rfl
  · rw [chunks, withoutBlanks_chunksAfter, List.reverse_nil, List.nil_append]

end TokenMacros
