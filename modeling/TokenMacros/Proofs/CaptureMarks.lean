import TokenMacros.Proofs.MarkStretches
import TokenMacros.Proofs.TemplateStart

/-!
# Captures in a pattern text

How a capture is written, and what the captures of a text are: the first one
from the left, then the first one behind it, and so on.
-/

namespace TokenMacros

open Text (isBlank isWord)

/-- A non-empty run of characters of a class. -/
def IsRun (p : Char → Bool) (text : List Char) : Prop :=
  text ≠ [] ∧ ∀ c ∈ text, p c = true

/-- The text is a capture of the given name. -/
def IsCapture (name text : List Char) : Prop :=
  ∃ before after, IsRun isBlank before ∧ IsRun isBlank after ∧
    IsRun isWord name ∧
    text = "$(layer()".toList ++ before ++ "as".toList ++ after ++ name ++
      [')']

/-- The stretches of a text cut at its captures, from left to right. -/
inductive CutAtCaptures : List Char → Stretches → Prop where
  | nil : CutAtCaptures [] ⟨[], []⟩
  | capture {name text rest : List Char} {behind : Stretches} :
      IsCapture name text →
      CutAtCaptures rest behind →
      CutAtCaptures (text ++ rest) ⟨[], (name, behind.lead) :: behind.marked⟩
  | skip {c : Char} {rest : List Char} {behind : Stretches} :
      (∀ name text, IsCapture name text → ¬ text <+: c :: rest) →
      CutAtCaptures rest behind →
      CutAtCaptures (c :: rest) ⟨c :: behind.lead, behind.marked⟩

namespace Mark

theorem exactly?_append (expected rest : List Char) :
    exactly? expected (expected ++ rest) = some rest := by
  have begins : expected.isPrefixOf (expected ++ rest) = true :=
    List.isPrefixOf_iff_prefix.mpr (List.prefix_append _ _)
  rw [exactly?, if_pos begins, List.drop_left]

theorem isRun_of_some? {p : Char → Bool} {text run rest : List Char}
    (read : some? p text = some (run, rest)) : IsRun p run := by
  simp only [some?] at read
  split at read
  · cases read
  · next nonempty =>
      obtain ⟨rfl, _⟩ := Prod.mk.inj (Option.some.inj read)
      refine ⟨?_, List.all_eq_true.mp List.all_takeWhile⟩
      rwa [ne_eq, ← List.isEmpty_iff]

theorem some?_append {p : Char → Bool} {run rest : List Char}
    (isRun : IsRun p run) (ends : ∀ c ∈ rest.head?, p c = false) :
    some? p (run ++ rest) = some (run, rest) := by
  have stops : rest.takeWhile p = [] := by
    cases rest with
    | nil => rfl
    | cons c rest =>
        rw [List.takeWhile_cons, ends c rfl]
        rfl
  have taken : (run ++ rest).takeWhile p = run := by
    rw [List.takeWhile_append_of_pos isRun.2, stops, List.append_nil]
  have nonempty : ¬ run.isEmpty = true := by
    rw [List.isEmpty_iff]
    exact isRun.1
  simp only [some?, taken, if_neg nonempty, List.drop_left]

theorem isWord_not_isBlank {c : Char} (word : isWord c = true) :
    isBlank c = false := by
  have all : ∀ code ∈ Text.codesOf Text.blankRanges,
      isWord (Char.ofNat code) = false := by
    decide +kernel
  cases blank : isBlank c with
  | false => rfl
  | true =>
      have noWord := all c.toNat (Text.mem_codesOf_of_inRanges blank)
      rw [Char.ofNat_toNat, word] at noWord
      cases noWord

theorem capture?_eq_some {text name rest : List Char}
    (read : capture? text = some (name, rest)) :
    ∃ written, IsCapture name written ∧ text = written ++ rest := by
  simp only [capture?, Option.bind_eq_bind, Option.bind_eq_some_iff,
    Option.pure_def, Option.some.injEq, Prod.mk.injEq, Prod.exists] at read
  obtain ⟨_, opened, before, _, blank, _, word, after, _, blank', run, _, named,
    _, closed, rfl, rfl⟩ := read
  refine ⟨_, ⟨before, after, isRun_of_some? blank, isRun_of_some? blank',
    isRun_of_some? named, rfl⟩, ?_⟩
  rw [exactly?_eq_some opened, some?_eq_some blank, exactly?_eq_some word,
    some?_eq_some blank', some?_eq_some named, exactly?_eq_some closed]
  simp only [List.append_assoc]
  rfl

theorem capture?_of_isCapture {name written : List Char}
    (capture : IsCapture name written) (rest : List Char) :
    capture? (written ++ rest) = some (name, rest) := by
  obtain ⟨before, after, blank, blank', word, rfl⟩ := capture
  obtain ⟨first, name, rfl⟩ := List.exists_cons_of_ne_nil word.1
  have beforeEnds (text : List Char) :
      ∀ c ∈ ("as".toList ++ text).head?, isBlank c = false := by
    rintro _ ⟨⟩
    decide
  have afterEnds (text : List Char) :
      ∀ c ∈ (first :: name ++ text).head?, isBlank c = false := by
    rintro _ ⟨⟩
    exact isWord_not_isBlank (word.2 first List.mem_cons_self)
  have nameEnds (text : List Char) :
      ∀ c ∈ ([')'] ++ text).head?, isWord c = false := by
    rintro _ ⟨⟩
    decide
  have opens : "$(layer()".toList =
    ['$', '(', 'l', 'a', 'y', 'e', 'r', '(', ')'] := rfl
  have separator : "as".toList = ['a', 's'] := rfl
  simp only [List.append_assoc, capture?, ← opens, ← separator, exactly?_append,
    some?_append blank (beforeEnds _), some?_append blank' (afterEnds _),
    some?_append word (nameEnds _), Option.bind_eq_bind, Option.bind_some]
  rfl

end Mark

theorem IsCapture.ne_nil {name text : List Char} (capture : IsCapture name text) :
    text ≠ [] := by
  obtain ⟨before, after, _, _, _, rfl⟩ := capture
  rintro ⟨⟩

theorem cut_capture? (text : List Char) :
    CutAtCaptures text (Stretches.cut Mark.capture? text) := by
  fun_induction Stretches.cut Mark.capture? text with
  | case1 => exact .nil
  | case2 c rest name behind marked shorter stretches induction =>
      obtain ⟨written, capture, split⟩ := Mark.capture?_eq_some marked
      rw [split]
      exact .capture capture induction
  | case3 c rest name behind marked longer stretches induction =>
      exfalso
      apply longer
      obtain ⟨written, capture, split⟩ := Mark.capture?_eq_some marked
      have positive := List.length_pos_iff.mpr capture.ne_nil
      rw [split, List.length_append]
      omega
  | case4 c rest unmarked stretches induction =>
      apply CutAtCaptures.skip _ induction
      rintro name written capture ⟨behind, split⟩
      rw [← split, Mark.capture?_of_isCapture capture] at unmarked
      cases unmarked

/-- There is one way to cut a pattern. -/
theorem CutAtCaptures.eq_cut {text : List Char} {stretches : Stretches}
    (isCut : CutAtCaptures text stretches) :
    stretches = Stretches.cut Mark.capture? text := by
  induction isCut with
  | nil => rw [Stretches.cut]
  | @capture name written rest behind capture _ induction =>
      have marked := Mark.capture?_of_isCapture capture rest
      have positive := List.length_pos_iff.mpr capture.ne_nil
      obtain ⟨c, written, rfl⟩ := List.exists_cons_of_ne_nil capture.ne_nil
      rw [List.cons_append] at marked ⊢
      rw [Stretches.cut]
      split
      · next name' rest' marked' =>
          obtain ⟨rfl, rfl⟩ : name = name' ∧ rest = rest' := by
            rw [marked] at marked'
            exact Prod.mk.inj (Option.some.inj marked')
          split
          · rw [← induction]
          · next longer =>
              rw [← List.cons_append, List.length_append] at longer
              omega
      · next unmarked =>
          rw [marked] at unmarked
          cases unmarked
  | @skip c rest behind notHere _ induction =>
      rw [Stretches.cut]
      split
      · next name rest' marked =>
          obtain ⟨written, capture, split⟩ := Mark.capture?_eq_some marked
          exact absurd ⟨rest', split.symm⟩ (notHere name written capture)
      · rw [← induction]

end TokenMacros
