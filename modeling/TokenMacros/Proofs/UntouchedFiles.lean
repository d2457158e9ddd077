import TokenMacros.Proofs.ForeignTokens
import TokenMacros.Proofs.HostRuns
import TokenMacros.Proofs.PriorityOrder
import TokenMacros.Session.Basic

/-!
# Untouched files

A file whose tokens are foreign to the rules is copied, as far as its text goes.
The text is read with every line break turned into a line feed and written as it
was read, so the bytes stay exactly if there is no carriage return among them.
-/

namespace TokenMacros

namespace Text

/-! ## Texts as they are read -/

/-- The text that is read from a file in which the given text is written. -/
def asRead (written : String) : String :=
  String.ofList (unifyLineBreaks written.toList)

theorem decode?_toUTF8 (written : String) :
    decode? written.toUTF8 = some (asRead written) := by
  have valid : String.fromUTF8? written.toUTF8 = some written := by
    rw [String.fromUTF8?, String.toUTF8_eq_toByteArray,
      dif_pos written.isValidUTF8]
    rfl
  rw [decode?, valid]
  rfl

theorem not_mem_unifyLineBreaks (text : List Char) :
    '\r' ∉ unifyLineBreaks text := by
  fun_induction unifyLineBreaks text with
  | case1 => exact List.not_mem_nil
  | case2 rest induction =>
      rw [List.mem_cons, not_or]
      exact ⟨by decide, induction⟩
  | case3 c rest unpaired induction =>
      rw [List.mem_cons, not_or]
      refine ⟨?_, induction⟩
      split
      · decide
      · next other => exact Ne.symm other

theorem unifyLineBreaks_eq_self_iff {text : List Char} :
    unifyLineBreaks text = text ↔ '\r' ∉ text := by
  constructor
  · intro same
    rw [← same]
    exact not_mem_unifyLineBreaks text
  · intro plain
    fun_induction unifyLineBreaks text with
    | case1 => rfl
    | case2 rest induction => exact absurd List.mem_cons_self plain
    | case3 c rest unpaired induction =>
        rw [List.mem_cons, not_or] at plain
        rw [if_neg (Ne.symm plain.1), induction plain.2]

/-- What is read is written back byte for byte exactly if it has no carriage
return. -/
theorem toUTF8_asRead_eq_iff {written : String} :
    (asRead written).toUTF8 = written.toUTF8 ↔ '\r' ∉ written.toList := by
  rw [String.toUTF8_eq_toByteArray, String.toUTF8_eq_toByteArray,
    String.toByteArray_inj, ← String.toList_inj, asRead, String.toList_ofList]
  exact unifyLineBreaks_eq_self_iff

end Text

namespace Session

variable {session : Session} {input output : Path} {before after : Workbench}

/-! ## Outputs -/

/-- The file that an output path stands for: within a directory, the one that
has the output's name. -/
def outputFile (tree : FileTree) (input output : Path) : Path :=
  match tree.kind? output with
  | .ok (some .directory) => output.join ⟨"", [outputName input.name]⟩
  | _ => output

/-- Writes a file into a directory that is created if it is missing. -/
def putFile (path : Path) (text : String) : Run (StateM Workbench) Unit := do
  FileSystem.ensureDirectory path.parent
  FileSystem.writeText path text

theorem read_of_putFile {path : Path} {text : String}
    (put : Returns (putFile path text) before () after) :
    FileTree.Keeps before.tree after.tree ∧
      after.tree.read path = .ok text.toUTF8 := by
  obtain ⟨_, ready, ensured, wrote⟩ := Returns.bind_iff.mp put
  obtain ⟨_, writes, rfl⟩ := Returns.writeText_iff.mp wrote
  obtain ⟨_, _, keeps, holds, _⟩ := FileTree.Keeps.of_write writes
  exact ⟨(Returns.grows_of_ensureDirectory ensured).1.toKeeps.trans keeps, holds⟩

theorem exists_kind?_of_putFile {text : String}
    (put : Returns (putFile (outputFile before.tree input output) text) before ()
      after) :
    ∃ kind?, before.tree.kind? output = .ok kind? := by
  rcases told : before.tree.kind? output with failure | kind?
  · rw [outputFile, told] at put
    obtain ⟨keeps, holds⟩ := read_of_putFile put
    obtain ⟨_, leads, _⟩ := FileTree.read_eq_ok_iff.mp holds
    rw [← told]
    exact keeps.exists_kind? leads
  · exact ⟨kind?, rfl⟩

/-! ## Expanding one file -/

/-- Where the output path can be looked at, a file is processed by expanding it
into the file that the output path stands for. -/
theorem processFile_iff {report : FileOutcome}
    (isFile : before.tree.kind? input = .ok (some .file)) :
    Returns (session.processFile input output) before report after ↔
      (∃ kind?, before.tree.kind? output = .ok kind?) ∧
        Returns (session.expandInto input (outputFile before.tree input output))
          before report after := by
  have asked : Returns (FileSystem.isFile input) before true before :=
    Returns.isFile_iff.mpr ⟨_, isFile, rfl, rfl⟩
  rw [processFile, Returns.then_iff asked]
  change Returns (FileSystem.isDirectory output >>= _) before report after ↔ _
  constructor
  · intro returned
    obtain ⟨_, _, asked', returned⟩ := Returns.bind_iff.mp returned
    obtain ⟨kind?, told, rfl, rfl⟩ := Returns.isDirectory_iff.mp asked'
    refine ⟨⟨kind?, told⟩, ?_⟩
    rw [outputFile, told]
    rcases kind? with _ | _ | _
    · exact returned
    · exact returned
    · exact returned
  · rintro ⟨⟨kind?, told⟩, returned⟩
    have asked' : Returns (FileSystem.isDirectory output) before
        (kind? == some .directory) before :=
      Returns.isDirectory_iff.mpr ⟨_, told, rfl, rfl⟩
    apply (Returns.then_iff asked').mpr
    rw [outputFile, told] at returned
    rcases kind? with _ | _ | _
    · exact returned
    · exact returned
    · exact returned

/-- An expansion that nothing interrupts puts its text into the output, and is
reported. -/
theorem expandInto_iff {report : FileOutcome} {text : String} {outcome : Outcome}
    (read : Returns (FileSystem.readText input) before text before)
    (expanded : session.expand text = .ok outcome)
    (converged : outcome.converged = true) :
    Returns (session.expandInto input output) before report after ↔
      ∃ written, Returns (putFile output outcome.text) before () written ∧
        Returns (Console.progress session.configuration.isVerbose
          ("Processed '" ++ input.toString ++ "' into '" ++ output.toString ++
            "'")) written () after ∧
        report = ⟨input, output, text.toList.count '\n' + 1, outcome.iterations,
          true⟩ := by
  have given : Returns (ExceptT.mk (pure (session.expand text))) before outcome
      before :=
    Returns.mk_pure_iff.mpr ⟨expanded, rfl⟩
  rw [expandInto, Returns.then_iff read, Returns.then_iff given, converged]
  change Returns (FileSystem.ensureDirectory output.parent >>= _) before report
    after ↔ _
  constructor
  · intro returned
    obtain ⟨_, ready, ensured, returned⟩ := Returns.bind_iff.mp returned
    obtain ⟨_, written, wrote, returned⟩ := Returns.bind_iff.mp returned
    obtain ⟨_, shown, told, returned⟩ := Returns.bind_iff.mp returned
    obtain ⟨rfl, rfl⟩ := Returns.pure_iff.mp returned
    exact ⟨written, Returns.bind_iff.mpr ⟨(), ready, ensured, wrote⟩, told, rfl⟩
  · rintro ⟨written, put, told, rfl⟩
    obtain ⟨_, ready, ensured, wrote⟩ := Returns.bind_iff.mp put
    apply (Returns.then_iff ensured).mpr
    apply (Returns.then_iff wrote).mpr
    apply (Returns.then_iff told).mpr
    exact Returns.pure_iff.mpr ⟨rfl, rfl⟩

theorem exists_progress (wanted : Bool) (text : String) (before : Workbench) :
    ∃ after, Returns (Console.progress wanted text) before () after := by
  cases wanted with
  | false => exact ⟨before, Returns.pure_iff.mpr ⟨rfl, rfl⟩⟩
  | true => exact ⟨_, Returns.message_iff.mpr rfl⟩

/-- A file with a converging expansion is processed whenever its output can be
written, and the output then holds the text of the expansion. -/
theorem processFile_puts {text : String} {outcome : Outcome}
    (read : Returns (FileSystem.readText input) before text before)
    (expanded : session.expand text = .ok outcome)
    (converged : outcome.converged = true) :
    let target := outputFile before.tree input output
    ((∃ report after,
        Returns (session.processFile input output) before report after) ↔
      ∃ after, Returns (putFile target outcome.text) before () after) ∧
    ∀ report after,
      Returns (session.processFile input output) before report after →
        after.tree.read target = .ok outcome.text.toUTF8 := by
  intro target
  have isFile : before.tree.kind? input = .ok (some .file) := by
    obtain ⟨bytes, held, _⟩ := Returns.readText_iff.mp read
    exact FileTree.kind?_eq_file_iff.mpr ⟨bytes, held⟩
  have puts (report : FileOutcome) (after : Workbench)
      (returned : Returns (session.processFile input output) before report
        after) :
      ∃ written, Returns (putFile target outcome.text) before () written ∧
        after.tree = written.tree := by
    obtain ⟨_, returned⟩ := (processFile_iff isFile).mp returned
    obtain ⟨written, put, told, _⟩ :=
      (expandInto_iff read expanded converged).mp returned
    exact ⟨written, put, Returns.progress_tree told⟩
  constructor
  · constructor
    · rintro ⟨report, after, returned⟩
      obtain ⟨written, put, _⟩ := puts report after returned
      exact ⟨written, put⟩
    · rintro ⟨written, put⟩
      obtain ⟨after, told⟩ := exists_progress session.configuration.isVerbose
        ("Processed '" ++ input.toString ++ "' into '" ++ target.toString ++ "'")
        written
      have returned : Returns (session.expandInto input target) before _ after :=
        (expandInto_iff read expanded converged).mpr ⟨written, put, told, rfl⟩
      exact ⟨_, after, (processFile_iff isFile).mpr
        ⟨exists_kind?_of_putFile put, returned⟩⟩
  · intro report after returned
    obtain ⟨written, put, sameTree⟩ := puts report after returned
    rw [sameTree]
    exact (read_of_putFile put).2

theorem expand_foreign {text : String} {limits : Limits}
    (limited : session.configuration.limits = .ok limits)
    (foreign : Foreign session.rules (lex (sourceMode text) text)) :
    ∃ outcome, session.expand text = .ok outcome ∧ outcome.text = text ∧
      outcome.converged = true := by
  have unchanged : expandSource session.rules limits text =
      ⟨lex (sourceMode text) text, if session.rules.isEmpty then 0 else 1, true⟩ :=
    (foreign.quiet limits.singleTokenFallback).expandTokens_eq
  refine ⟨expandSource session.rules limits text, ?_, ?_, ?_⟩
  · rw [expand, limited]
    rfl
  · rw [unchanged]
    exact render_lex (sourceMode text) text
  · rw [unchanged]

/-- A file whose tokens are foreign to the rules of a session is processed
whenever its output can be written, and the output then holds what was read from
the file.  These are the bytes of the file exactly if there is no carriage return
among them. -/
theorem processFile_untouched {written : String} {limits : Limits}
    (limited : session.configuration.limits = .ok limits)
    (held : before.tree.read input = .ok written.toUTF8)
    (foreign : Foreign session.rules
      (lex (sourceMode (Text.asRead written)) (Text.asRead written))) :
    let target := outputFile before.tree input output
    ((∃ report after,
        Returns (session.processFile input output) before report after) ↔
      ∃ after, Returns (putFile target (Text.asRead written)) before () after) ∧
    (∀ report after,
      Returns (session.processFile input output) before report after →
        after.tree.read target = .ok (Text.asRead written).toUTF8) ∧
    ((Text.asRead written).toUTF8 = written.toUTF8 ↔ '\r' ∉ written.toList) := by
  intro target
  have read : Returns (FileSystem.readText input) before (Text.asRead written)
      before :=
    Returns.readText_iff.mpr ⟨_, held, Text.decode?_toUTF8 written, rfl⟩
  obtain ⟨outcome, expanded, same, converged⟩ := expand_foreign limited foreign
  obtain ⟨returns, writes⟩ := processFile_puts read expanded converged
  rw [same] at returns writes
  exact ⟨returns, writes, Text.toUTF8_asRead_eq_iff⟩

/-! ## Line breaks of both kinds -/

/-- A session with the rule for `let`. -/
def letSession : Session := ⟨{}, RuleBook.ofRules [letRule]⟩

theorem rules_letSession : letSession.rules = [letRule] :=
  RuleBook.serve_ofRules_singleton (by decide +kernel)

/-- The text of a template in which the rule does not apply. -/
def letTemplate : String := "<?php $let = 'let'; // let\n?>let us see\n"

/-- A directory with the template. -/
def letDesk : Workbench where
  tree := { entries :=
    [(["in"], .directory), (["in", "a.syn"], .file letTemplate.toUTF8)] }

/-- The template is copied into a directory that was missing. -/
theorem processFile_untouched_let :
    ∃ report after,
      Returns (letSession.processFile ⟨"", ["in", "a.syn"]⟩ ⟨"", ["out", "b"]⟩)
          letDesk report after ∧
        after.tree.read ⟨"", ["out", "b"]⟩ = .ok letTemplate.toUTF8 := by
  have held : letDesk.tree.read ⟨"", ["in", "a.syn"]⟩ =
      .ok letTemplate.toUTF8 := by
    decide +kernel
  have foreign : Foreign letSession.rules
      (lex (sourceMode (Text.asRead letTemplate)) (Text.asRead letTemplate)) := by
    rw [rules_letSession]
    decide +kernel
  let limits : Limits := {}
  have limited : letSession.configuration.limits = .ok limits := rfl
  let output : Path := ⟨"", ["out", "b"]⟩
  have ended : (StateT.run (putFile output (Text.asRead letTemplate)).run
      letDesk).run.1.isOk = true := by
    decide +kernel
  obtain ⟨_, put⟩ := Returns.exists_of_isOk ended
  have target : outputFile letDesk.tree ⟨"", ["in", "a.syn"]⟩ output =
      output := by
    decide +kernel
  obtain ⟨returns, writes, same⟩ := processFile_untouched limited held foreign
  rw [target] at returns writes
  obtain ⟨report, after, returned⟩ := returns.mpr ⟨_, put⟩
  refine ⟨report, after, returned, ?_⟩
  rw [← same.mpr (by decide +kernel)]
  exact writes report after returned

/-- A file that has a line break of two characters. -/
def breakDesk : Workbench where
  tree := { entries := [(["a.syn"], .file "a\r\nb".toUTF8)] }

/-- A carriage return in front of a line feed is lost. -/
theorem processFile_untouched_lost :
    ¬ ∀ (session : Session) (input output : Path) (before : Workbench)
        (source : String) (limits : Limits),
      session.configuration.limits = .ok limits →
      before.tree.read input = .ok source.toUTF8 →
      Foreign session.rules (lex (sourceMode source) source) →
      (∃ after, Returns (putFile (outputFile before.tree input output) source)
        before () after) →
      ∃ report after,
        Returns (session.processFile input output) before report after ∧
          after.tree.read (outputFile before.tree input output) =
            .ok source.toUTF8 := by
  intro restores
  let source := "a\r\nb"
  have held : breakDesk.tree.read ⟨"", ["a.syn"]⟩ = .ok source.toUTF8 := by
    decide +kernel
  have foreign : ∀ text ∈ [source, Text.asRead source],
      Foreign letSession.rules (lex (sourceMode text) text) := by
    rw [rules_letSession]
    decide +kernel
  have ended : (StateT.run (putFile ⟨"", ["b.php"]⟩ source).run
      breakDesk).run.1.isOk = true := by
    decide +kernel
  obtain ⟨_, put⟩ := Returns.exists_of_isOk ended
  obtain ⟨report, after, returned, holds⟩ := restores letSession
    ⟨"", ["a.syn"]⟩ ⟨"", ["b.php"]⟩ breakDesk source {} rfl held (foreign source (by simp))
    ⟨_, put⟩
  have read := Returns.readText_iff.mpr
    ⟨_, held, Text.decode?_toUTF8 source, rfl⟩
  obtain ⟨outcome, expanded, same, converged⟩ :=
    expand_foreign rfl (foreign (Text.asRead source) (by simp))
  have writes := (processFile_puts read expanded converged).2 report after
    returned
  rw [holds, same] at writes
  have kept : '\r' ∉ source.toList :=
    Text.toUTF8_asRead_eq_iff.mp (Except.ok.inj writes.symm)
  exact absurd kept (by decide +kernel)

end Session

end TokenMacros
