import TokenMacros.Host.Workbench
import TokenMacros.Proofs.TreeGrowth

/-!
# Runs on a workbench

A run that returns gives an answer and leaves a workbench.  What a run of
several operations returns is told from what each of them returns.
-/

namespace TokenMacros

variable {α β : Type}

/-- The run ends with an answer; nothing stops it. -/
def Returns (run : Run (StateM Workbench) α) (before : Workbench) (answer : α)
    (after : Workbench) : Prop :=
  (StateT.run run.run before).run = (.ok answer, after)

@[simp]
theorem Workbench.print_tree (bench : Workbench) (stream : Stream)
    (text : String) : (bench.print stream text).tree = bench.tree := by
  cases stream <;> rfl

namespace Returns

variable {before after : Workbench} {path : Path}

theorem bind_iff {run : Run (StateM Workbench) α}
    {next : α → Run (StateM Workbench) β} {answer : β} :
    Returns (run >>= next) before answer after ↔
      ∃ first between, Returns run before first between ∧
        Returns (next first) between answer after := by
  unfold Returns
  rw [ExceptT.run_bind, StateT.run_bind, Id.run_bind]
  rcases (StateT.run run.run before).run with ⟨first | first, between⟩
  · simp
  · constructor
    · exact fun returned => ⟨first, between, rfl, returned⟩
    · rintro ⟨_, _, same, returned⟩
      cases same
      exact returned

theorem run_bind {run : Run (StateM Workbench) α}
    {next : α → Run (StateM Workbench) β} {first : α}
    (returned : Returns run before first after) :
    (StateT.run (run >>= next).run before).run =
      (StateT.run (next first).run after).run := by
  rw [ExceptT.run_bind, StateT.run_bind, Id.run_bind, returned]

theorem then_iff {run : Run (StateM Workbench) α}
    {next : α → Run (StateM Workbench) β} {first : α} {between : Workbench}
    {answer : β} (returned : Returns run before first between) :
    Returns (run >>= next) before answer after ↔
      Returns (next first) between answer after := by
  rw [Returns, run_bind returned, Returns]

theorem pure_iff {value answer : α} :
    Returns (pure value) before answer after ↔
      answer = value ∧ after = before := by
  simp [Returns, eq_comm]

theorem not_throw {stop : Stop} {answer : α} :
    ¬ Returns (throw stop) before answer after := by
  simp [Returns]

theorem mk_pure_iff {result : Except Stop α} {answer : α} :
    Returns (ExceptT.mk (pure result)) before answer after ↔
      result = .ok answer ∧ after = before := by
  simp [Returns, ExceptT.run_mk, eq_comm]

theorem lift_iff {operation : StateM Workbench α} {answer : α} :
    Returns (monadLift operation) before answer after ↔
      (StateT.run operation before).run = (answer, after) := by
  rcases result : (StateT.run operation before).run with ⟨given, left⟩
  simp [Returns, result]

theorem exists_of_isOk {run : Run (StateM Workbench) α}
    (ended : (StateT.run run.run before).run.1.isOk = true) :
    ∃ answer, Returns run before answer (StateT.run run.run before).run.2 := by
  rcases result : (StateT.run run.run before).run with ⟨_ | answer, after⟩
  · simp [result, Except.isOk, Except.toBool] at ended
  · exact ⟨answer, result⟩

theorem attempt_iff {operation : StateM Workbench (Except SystemFailure α)}
    {answer : α} :
    Returns (FileSystem.attempt operation) before answer after ↔
      (StateT.run operation before).run = (.ok answer, after) := by
  rcases result : (StateT.run operation before).run with ⟨given | given, left⟩
  · simp [Returns, FileSystem.attempt, result, Except.mapError]
  · simp [Returns, FileSystem.attempt, result, Except.mapError]

/-- An operation that only looks at the tree leaves the workbench as it was. -/
theorem attempt_look_iff {operation : StateM Workbench (Except SystemFailure α)}
    {answer : α} {told : Except SystemFailure α}
    (looks : (StateT.run operation before).run = (told, before)) :
    Returns (FileSystem.attempt operation) before answer after ↔
      told = .ok answer ∧ after = before := by
  rw [attempt_iff, looks, Prod.mk.injEq, eq_comm (a := before)]

theorem run_update (change : FileTree → Except SystemFailure FileTree)
    (bench : Workbench) :
    (StateT.run (Workbench.onTree (FileTree.update change)) bench).run =
      match change bench.tree with
      | .ok tree => (.ok (), { bench with tree := tree })
      | .error failure => (.error failure, bench) := by
  rcases result : change bench.tree with failure | tree
  · simp only [Workbench.onTree, FileTree.update, StateT.run, result]
    rfl
  · simp only [Workbench.onTree, FileTree.update, StateT.run, result]
    rfl

/-! ## Files and directories -/

theorem ask_iff {kind : EntryKind} {answer : Bool} :
    Returns (do return (← FileSystem.attempt (FileSystem.kind? path)) == some kind)
        before answer after ↔
      ∃ kind?, before.tree.kind? path = .ok kind? ∧
        answer = (kind? == some kind) ∧ after = before := by
  rw [bind_iff]
  constructor
  · rintro ⟨kind?, between, looked, given⟩
    obtain ⟨told, rfl⟩ := (attempt_look_iff rfl).mp looked
    obtain ⟨rfl, rfl⟩ := pure_iff.mp given
    exact ⟨kind?, told, rfl, rfl⟩
  · rintro ⟨kind?, told, rfl, rfl⟩
    exact ⟨kind?, after, (attempt_look_iff rfl).mpr ⟨told, rfl⟩,
      pure_iff.mpr ⟨rfl, rfl⟩⟩

theorem isFile_iff {answer : Bool} :
    Returns (FileSystem.isFile path) before answer after ↔
      ∃ kind?, before.tree.kind? path = .ok kind? ∧
        answer = (kind? == some .file) ∧ after = before :=
  ask_iff

theorem isDirectory_iff {answer : Bool} :
    Returns (FileSystem.isDirectory path) before answer after ↔
      ∃ kind?, before.tree.kind? path = .ok kind? ∧
        answer = (kind? == some .directory) ∧ after = before :=
  ask_iff

theorem readText_iff {text : String} :
    Returns (FileSystem.readText path) before text after ↔
      ∃ bytes, before.tree.read path = .ok bytes ∧
        Text.decode? bytes = some text ∧ after = before := by
  rw [FileSystem.readText, bind_iff]
  constructor
  · rintro ⟨bytes, between, looked, given⟩
    obtain ⟨told, rfl⟩ := (attempt_look_iff rfl).mp looked
    rcases decoded : Text.decode? bytes with _ | decoded'
    · rw [decoded] at given
      exact absurd given not_throw
    · rw [decoded] at given
      obtain ⟨rfl, rfl⟩ := pure_iff.mp given
      exact ⟨bytes, told, decoded, rfl⟩
  · rintro ⟨bytes, told, decoded, rfl⟩
    refine ⟨bytes, after, (attempt_look_iff rfl).mpr ⟨told, rfl⟩, ?_⟩
    rw [decoded]
    exact pure_iff.mpr ⟨rfl, rfl⟩

theorem run_readText {bench : Workbench} {bytes : ByteArray}
    (held : bench.tree.read path = .ok bytes) :
    Id.run (StateT.run (FileSystem.readText path).run bench) =
      ((Text.decode? bytes).elim (.error (.undecodable path)) .ok, bench) := by
  have looked : Returns (FileSystem.attempt (FileSystem.read path)) bench bytes
      bench :=
    (attempt_look_iff rfl).mpr ⟨held, rfl⟩
  rw [FileSystem.readText, run_bind looked]
  cases Text.decode? bytes with
  | some text => rfl
  | none => rfl

theorem writeText_iff {text : String} :
    Returns (FileSystem.writeText path text) before () after ↔
      ∃ tree, before.tree.write path text.toUTF8 = .ok tree ∧
        after = { before with tree := tree } := by
  rw [FileSystem.writeText, attempt_iff]
  change (StateT.run (Workbench.onTree (FileTree.update _)) before).run = _ ↔ _
  rw [run_update]
  rcases before.tree.write path text.toUTF8 with failure | tree
  · simp
  · simp [eq_comm]

theorem descendants_iff {paths : List Path} :
    Returns (FileSystem.attempt (FileSystem.descendants path)) before paths
        after ↔
      before.tree.descendants path = .ok paths ∧ after = before :=
  attempt_look_iff rfl

/-! ## Messages -/

theorem message_iff {level : Level} {text : String} :
    Returns (Console.message level text) before () after ↔
      after = before.print level.stream
        ("[Syn] " ++ level.label before.isTerminal ++ " " ++ text ++ "\n") := by
  have runs : (StateT.run
      (Console.message level text : Run (StateM Workbench) Unit).run before).run =
      (.ok (), before.print level.stream
        ("[Syn] " ++ level.label before.isTerminal ++ " " ++ text ++ "\n")) :=
    rfl
  rw [Returns, runs]
  simp [eq_comm]

theorem progress_tree {wanted : Bool} {text : String}
    (shown : Returns (Console.progress wanted text) before () after) :
    after.tree = before.tree := by
  cases wanted
  · obtain ⟨-, rfl⟩ := pure_iff.mp shown
    rfl
  · obtain rfl := message_iff.mp shown
    simp

theorem of_message_first {shown : Bool} {level : Level} {text : String}
    {next : Run (StateM Workbench) α} {answer : α}
    (returned : Returns
      (if shown then Console.message level text >>= fun _ => next else next)
      before answer after) :
    ∃ between, between.tree = before.tree ∧
      Returns next between answer after := by
  cases shown
  · exact ⟨before, rfl, returned⟩
  · obtain ⟨_, between, printed, returned⟩ := bind_iff.mp returned
    obtain rfl := message_iff.mp printed
    exact ⟨_, Workbench.print_tree .., returned⟩

/-! ## Creating directories -/

theorem unlessPresent_iff {failure : SystemFailure} :
    Returns (FileSystem.unlessPresent path failure) before () after ↔
      before.tree.kind? path = .ok (some .directory) ∧ after = before := by
  rw [FileSystem.unlessPresent, bind_iff]
  constructor
  · rintro ⟨isThere, between, asked, passed⟩
    obtain ⟨kind?, told, rfl, rfl⟩ := isDirectory_iff.mp asked
    by_cases isThere : kind? = some .directory
    · subst isThere
      exact ⟨told, (pure_iff.mp passed).2⟩
    · rw [beq_eq_false_iff_ne.mpr isThere] at passed
      exact absurd passed not_throw
  · rintro ⟨told, rfl⟩
    exact ⟨true, after, isDirectory_iff.mpr ⟨_, told, rfl, rfl⟩,
      pure_iff.mpr ⟨rfl, rfl⟩⟩

/-- Trying to create a directory creates it or changes nothing. -/
theorem tried_makeDirectory {result : Except SystemFailure Unit}
    (tried : Returns
      (monadLift (FileSystem.makeDirectory path : StateM Workbench _))
      before result after) :
    (result = .ok () ∧ FileTree.Grows before.tree after.tree ∧
        after.tree.kind? path = .ok (some .directory)) ∨
      ((∃ failure, result = .error failure) ∧ after = before) := by
  rw [lift_iff] at tried
  change (StateT.run (Workbench.onTree (FileTree.update _)) before).run = _ at tried
  rw [run_update] at tried
  rcases made : before.tree.makeDirectory path with failure | tree
  · rw [made] at tried
    cases tried
    exact .inr ⟨⟨failure, rfl⟩, rfl⟩
  · rw [made] at tried
    cases tried
    exact .inl ⟨rfl, FileTree.Grows.of_makeDirectory made⟩

theorem grows_of_createDirectory
    (made : Returns (FileSystem.createDirectory path) before () after) :
    FileTree.Grows before.tree after.tree ∧
      after.tree.kind? path = .ok (some .directory) := by
  rw [FileSystem.createDirectory, bind_iff] at made
  obtain ⟨result, between, tried, made⟩ := made
  rcases tried_makeDirectory tried with
    ⟨rfl, grows, isThere⟩ | ⟨⟨failure, rfl⟩, rfl⟩
  · obtain ⟨-, rfl⟩ := pure_iff.mp made
    exact ⟨grows, isThere⟩
  · split at made
    · contradiction
    · exact absurd made not_throw
    · obtain ⟨isThere, rfl⟩ := unlessPresent_iff.mp made
      exact ⟨.refl _, isThere⟩

theorem grows_of_ensureDirectoryIn {root : String} {parts : List String}
    (ensured : Returns (FileSystem.ensureDirectoryIn root parts) before ()
      after) :
    FileTree.Grows before.tree after.tree ∧
      after.tree.kind? ⟨root, parts.reverse⟩ = .ok (some .directory) := by
  induction parts generalizing before after with
  | nil => exact grows_of_createDirectory ensured
  | cons part parents induction =>
    rw [FileSystem.ensureDirectoryIn, bind_iff] at ensured
    obtain ⟨result, between, tried, ensured⟩ := ensured
    rcases tried_makeDirectory tried with
      ⟨rfl, grows, isThere⟩ | ⟨⟨failure, rfl⟩, rfl⟩
    · obtain ⟨-, rfl⟩ := pure_iff.mp ensured
      exact ⟨grows, isThere⟩
    · split at ensured
      · contradiction
      · obtain ⟨_, between, above, made⟩ := bind_iff.mp ensured
        obtain ⟨grows, isThere⟩ := grows_of_createDirectory made
        exact ⟨(induction above).1.trans grows, isThere⟩
      · obtain ⟨isThere, rfl⟩ := unlessPresent_iff.mp ensured
        exact ⟨.refl _, isThere⟩

/-- Once a directory is ensured, its path leads to a directory, and nothing else
has happened but that directories were created. -/
theorem grows_of_ensureDirectory
    (ensured : Returns (FileSystem.ensureDirectory path) before () after) :
    FileTree.Grows before.tree after.tree ∧
      after.tree.kind? path = .ok (some .directory) := by
  simpa using grows_of_ensureDirectoryIn ensured

end Returns

end TokenMacros
