import Mathlib.Data.String.Basic
import TokenMacros.Session.Basic

/-!
# Names of outputs

Which sources share the name of their output, and in which order they are
visited.  A name and the same name followed by `.php` may both be that of a
source, and then their outputs have one name; there is no other such pair, and
the shorter name comes first.
-/

namespace TokenMacros

/-! ## Names -/

theorem isSourceName_iff {name : String} :
    isSourceName name = true ↔
      ∃ stem : String, name = stem ++ ".syn.php" ∨ name = stem ++ ".syn" := by
  simp only [isSourceName, sourceEndings, List.any_cons, List.any_nil,
    Bool.or_false, Bool.or_eq_true, List.isSuffixOf_iff_suffix]
  constructor
  · rintro (⟨stem, split⟩ | ⟨stem, split⟩)
    · exact ⟨String.ofList stem, .inl (String.toList_inj.mp (by simp [← split]))⟩
    · exact ⟨String.ofList stem, .inr (String.toList_inj.mp (by simp [← split]))⟩
  · rintro ⟨stem, rfl | rfl⟩
    · exact .inl ⟨stem.toList, by simp⟩
    · exact .inr ⟨stem.toList, by simp⟩

theorem outputName_synPhp (stem : String) :
    outputName (stem ++ ".syn.php") = stem ++ ".php" := by
  simp [outputName, sourceEndings]

theorem outputName_syn (stem : String) :
    outputName (stem ++ ".syn") = stem ++ ".php" := by
  have short : ¬ ['.', 's', 'y', 'n', '.', 'p', 'h', 'p'] <:+
      stem.toList ++ ['.', 's', 'y', 'n'] := by
    rintro ⟨front, split⟩
    have last := congrArg List.getLast? split
    simp at last
  simp [outputName, sourceEndings, short]

theorem outputName_ne_dots {name : String} (isSource : isSourceName name = true) :
    outputName name ≠ ".." := by
  have stem_ne (stem : String) : stem ++ ".php" ≠ ".." := by
    intro same
    have last := congrArg (fun name : String => name.toList.getLast?) same
    simp at last
  obtain ⟨stem, rfl | rfl⟩ := isSourceName_iff.mp isSource
  · rw [outputName_synPhp]
    exact stem_ne stem
  · rw [outputName_syn]
    exact stem_ne stem

/-- Two sources whose outputs have one name: the names are the same, or one is
the other followed by `.php`. -/
theorem eq_or_eq_php_of_outputName {left right : String}
    (isLeft : isSourceName left = true) (isRight : isSourceName right = true)
    (same : outputName left = outputName right) :
    left = right ∨ left = right ++ ".php" ∨ right = left ++ ".php" := by
  have twin (stem : String) : stem ++ ".syn.php" = stem ++ ".syn" ++ ".php" := by
    rw [String.append_assoc]
    rfl
  obtain ⟨stem, rfl | rfl⟩ := isSourceName_iff.mp isLeft <;>
    obtain ⟨other, rfl | rfl⟩ := isSourceName_iff.mp isRight <;>
    simp only [outputName_synPhp, outputName_syn, String.append_left_inj] at same <;>
    subst same
  · exact .inl rfl
  · exact .inr (.inl (twin stem))
  · exact .inr (.inr (twin stem))
  · exact .inl rfl

theorem not_append_lt (name ending : String) : ¬ name ++ ending < name := by
  rw [String.lt_iff_toList_lt, String.toList_append, List.not_lt]
  exact (List.prefix_append name.toList ending.toList).le

/-! ## Order of visits -/

namespace Path

theorem partsLe_cons_iff {part other : String} {parts others : List String} :
    partsLe (part :: parts) (other :: others) = true ↔
      part < other ∨ part = other ∧ partsLe parts others = true := by
  rw [partsLe]
  by_cases same : part = other
  · rw [if_pos same]
    simp only [same, lt_irrefl, true_and, false_or]
  · rw [if_neg same, decide_eq_true_eq]
    simp only [same, false_and, or_false]

theorem partsLe_total (left right : List String) :
    (partsLe left right || partsLe right left) = true := by
  rw [Bool.or_eq_true]
  induction left generalizing right with
  | nil => simp [partsLe]
  | cons part parts induction =>
    cases right with
    | nil => simp [partsLe]
    | cons other others =>
      rw [partsLe_cons_iff, partsLe_cons_iff]
      rcases lt_trichotomy part other with less | same | more
      · exact .inl (.inl less)
      · exact (induction others).imp (.inr ⟨same, ·⟩) (.inr ⟨same.symm, ·⟩)
      · exact .inr (.inl more)

theorem partsLe_trans {left middle right : List String}
    (first : partsLe left middle = true) (second : partsLe middle right = true) :
    partsLe left right = true := by
  induction left generalizing middle right with
  | nil => rfl
  | cons part parts induction =>
    cases middle with
    | nil => simp [partsLe] at first
    | cons other others =>
      cases right with
      | nil => simp [partsLe] at second
      | cons last further =>
        rw [partsLe_cons_iff] at first second ⊢
        rcases first with less | ⟨rfl, first⟩
        · rcases second with less' | ⟨rfl, -⟩
          · exact .inl (less.trans less')
          · exact .inl less
        · exact second.imp id (And.imp_right (induction first))

theorem partsLe_append (above left right : List String) :
    partsLe (above ++ left) (above ++ right) = partsLe left right := by
  induction above with
  | nil => rfl
  | cons part above induction => simpa [partsLe] using induction

end Path

namespace FileSystem

theorem mem_sorted {path : Path} {paths : List Path} :
    path ∈ sorted paths ↔ path ∈ paths :=
  List.mem_mergeSort

theorem pairwise_sorted (paths : List Path) :
    (sorted paths).Pairwise fun left right => left.le right = true := by
  refine List.pairwise_mergeSort ?_ ?_ paths
  · exact fun _ _ _ first second => Path.partsLe_trans first second
  · exact fun _ _ => Path.partsLe_total _ _

end FileSystem

end TokenMacros
