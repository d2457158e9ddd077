/-!
# Splitting and decoding

Cutting a text at a separator, and reading the bytes of a file as text: strict
UTF-8, with every line break turned into a line feed.
-/

namespace TokenMacros.Text

/-- The pieces between the separators; one more than there are separators. -/
def splitOn (separator : Char) : List Char → List (List Char)
  | [] => [[]]
  | c :: rest =>
    if c = separator then [] :: splitOn separator rest
    else
      match splitOn separator rest with
      | [] => [[c]]
      | piece :: pieces => (c :: piece) :: pieces

theorem exists_splitOn (separator : Char) (text : List Char) :
    ∃ piece pieces, splitOn separator text = piece :: pieces := by
  fun_cases splitOn separator text with
  | case1 => exact ⟨_, _, rfl⟩
  | case2 rest => exact ⟨_, _, rfl⟩
  | case3 c rest other => exact ⟨_, _, rfl⟩
  | case4 c rest other => exact ⟨_, _, rfl⟩

theorem intercalate_cons_piece {separator : Char} (c : Char)
    (piece : List Char) (pieces : List (List Char)) :
    [separator].intercalate ((c :: piece) :: pieces) =
      c :: [separator].intercalate (piece :: pieces) := by
  cases pieces with
  | nil => simp
  | cons next pieces => simp [List.intercalate_cons_cons]

/-- The pieces hold no separator; joined by separators, they are the text. -/
theorem splitOn_pieces (separator : Char) (text : List Char) :
    text = [separator].intercalate (splitOn separator text) ∧
      ∀ piece ∈ splitOn separator text, separator ∉ piece := by
  induction text with
  | nil => simp [splitOn]
  | cons c rest induction =>
      obtain ⟨piece, pieces, cut⟩ := exists_splitOn separator rest
      obtain ⟨joined, plain⟩ := induction
      rw [cut] at joined plain
      rw [splitOn, cut]
      split
      · next same =>
          refine ⟨?_, List.forall_mem_cons.mpr ⟨List.not_mem_nil, plain⟩⟩
          rw [List.intercalate_cons_cons, ← joined, same]
          rfl
      · next other =>
          rw [List.forall_mem_cons] at plain
          refine ⟨?_, List.forall_mem_cons.mpr ⟨?_, plain.2⟩⟩
          · rw [intercalate_cons_piece, ← joined]
          · rw [List.mem_cons, not_or]
            exact ⟨Ne.symm other, plain.1⟩

/-- Turns carriage returns, alone or in front of a line feed, into line feeds.
-/
def unifyLineBreaks : List Char → List Char
  | [] => []
  | '\r' :: '\n' :: rest => '\n' :: unifyLineBreaks rest
  | c :: rest => (if c = '\r' then '\n' else c) :: unifyLineBreaks rest

/-- The text of a file, if its bytes are valid UTF-8. -/
def decode? (bytes : ByteArray) : Option String :=
  (String.fromUTF8? bytes).map fun text => String.ofList (unifyLineBreaks text.toList)

end TokenMacros.Text
