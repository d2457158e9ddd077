import TokenMacros.Rule.Mark

/-!
# Stretches of a text cut at its marks

Every stretch is a part of the text it was cut from.  So what no part of a
replacement contains is found in none of its stretches.
-/

namespace TokenMacros

namespace Mark

theorem exactly?_eq_some {expected text rest : List Char}
    (read : exactly? expected text = some rest) : text = expected ++ rest := by
  unfold exactly? at read
  split at read
  · next begins =>
      obtain rfl := Option.some.inj read
      exact List.prefix_iff_eq_append.mp
        (List.isPrefixOf_iff_prefix.mp begins) |>.symm
  · cases read

theorem some?_eq_some {p : Char → Bool} {text run rest : List Char}
    (read : some? p text = some (run, rest)) : text = run ++ rest := by
  simp only [some?] at read
  split at read
  · cases read
  · obtain ⟨rfl, rfl⟩ := Prod.mk.inj (Option.some.inj read)
    exact (List.prefix_iff_eq_append.mp (List.takeWhile_prefix p)).symm

theorem reference?_eq_some {text name rest : List Char}
    (read : reference? text = some (name, rest)) :
    text = ['$', '('] ++ name ++ [')'] ++ rest := by
  simp only [reference?, Option.bind_eq_bind, Option.bind_eq_some_iff,
    Option.pure_def, Option.some.injEq, Prod.mk.injEq, Prod.exists] at read
  obtain ⟨inner, opened, run, tail, named, rest', closed, rfl, rfl⟩ := read
  rw [exactly?_eq_some opened, some?_eq_some named, exactly?_eq_some closed]
  simp only [List.append_assoc]

end Mark

namespace Stretches

/-- All stretches of a cut text, in order. -/
def all (stretches : Stretches) : List (List Char) :=
  stretches.lead :: stretches.marked.map Prod.snd

theorem lead_cut_isPrefix
    (mark? : List Char → Option (List Char × List Char)) (text : List Char) :
    (cut mark? text).lead <+: text := by
  fun_induction cut mark? text with
  | case1 => exact List.prefix_refl []
  | case2 => exact List.nil_prefix
  | case3 c rest name behind marked longer stretches induction =>
      exact (List.prefix_cons_inj c).mpr induction
  | case4 c rest unmarked stretches induction =>
      exact (List.prefix_cons_inj c).mpr induction

variable {mark? : List Char → Option (List Char × List Char)}

theorem infix_of_mem_marked
    (leaves : ∀ text name behind,
      mark? text = some (name, behind) → behind <:+ text)
    {text stretch : List Char}
    (member : stretch ∈ (cut mark? text).marked.map Prod.snd) :
    stretch <:+: text := by
  fun_induction cut mark? text with
  | case1 => cases member
  | case2 c rest name behind marked shorter stretches induction =>
      have left : behind <:+: c :: rest := (leaves _ _ _ marked).isInfix
      rcases List.mem_cons.mp member with rfl | later
      · exact (lead_cut_isPrefix mark? behind).isInfix.trans left
      · exact (induction later).trans left
  | case3 c rest name behind marked longer stretches induction =>
      exact (induction member).trans (List.infix_cons List.infix_rfl)
  | case4 c rest unmarked stretches induction =>
      exact (induction member).trans (List.infix_cons List.infix_rfl)

theorem infix_of_mem_all
    (leaves : ∀ text name behind,
      mark? text = some (name, behind) → behind <:+ text)
    {text stretch : List Char} (member : stretch ∈ (cut mark? text).all) :
    stretch <:+: text := by
  rcases List.mem_cons.mp member with rfl | marked
  · exact (lead_cut_isPrefix mark? text).isInfix
  · exact infix_of_mem_marked leaves marked

end Stretches

end TokenMacros
