import TokenMacros.Proofs.StatefulRuns
import TokenMacros.Proofs.UntouchedFiles

/-!
# Guarantees of runs

What can be said of every run of an operation on a workbench, told from its file
tree alone: which answers it gives, which trees it leaves, and, if it may be
stopped, for which reasons.
-/

namespace TokenMacros

variable {α β : Type}

/-- Started on a tree with the property `pre`, the operation gives an answer and
leaves a tree that `post` relates. -/
def Guarantees (pre : FileTree → Prop) (operation : StateM Workbench α)
    (post : α → FileTree → Prop) : Prop :=
  Delivers (pre ·.tree) operation fun answer after => post answer after.tree

/-- Started on a tree with the property `pre`, the run answers as `answers` says
or is stopped for one of the reasons `stops`. -/
def Ends (pre : FileTree → Prop) (run : Run (StateM Workbench) α)
    (answers : α → FileTree → Prop) (stops : Stop → Prop) : Prop :=
  Guarantees pre run.run fun result tree => Yields (answers · tree) stops result

/-- The run leaves the tree alone; what it answers is told. -/
def Looks (tree : FileTree) (run : Run (StateM Workbench) α) (told : α → Prop)
    (stops : Stop → Prop) : Prop :=
  Ends (· = tree) run (fun answer after => after = tree ∧ told answer) stops

namespace Guarantees

variable {pre : FileTree → Prop} {mid : α → FileTree → Prop}
  {post : β → FileTree → Prop} {operation : StateM Workbench α}
  {next : α → StateM Workbench β}

theorem pure {answer : β} (given : ∀ tree, pre tree → post answer tree) :
    Guarantees pre (Pure.pure answer) post :=
  Delivers.pure fun after => given after.tree

theorem bind (first : Guarantees pre operation mid)
    (second : ∀ answer, Guarantees (mid answer) (next answer) post) :
    Guarantees pre (operation >>= next) post :=
  Delivers.bind first second

theorem mono {pre' : FileTree → Prop} {mid' : α → FileTree → Prop}
    (ends : Guarantees pre operation mid) (start : ∀ tree, pre' tree → pre tree)
    (given : ∀ answer tree, mid answer tree → mid' answer tree) :
    Guarantees pre' operation mid' :=
  Delivers.mono ends (fun before => start before.tree)
    fun answer after => given answer after.tree

theorem update {change : FileTree → Except SystemFailure FileTree}
    {changed : FileTree → Prop} {refusals : SystemFailure → Prop}
    (given : ∀ tree after, pre tree → change tree = .ok after → changed after)
    (refused : ∀ tree failure, pre tree → change tree = .error failure →
      refusals failure) :
    Guarantees pre (Workbench.onTree (FileTree.update change))
      fun result tree =>
        Yields (fun _ => changed tree) (fun failure => pre tree ∧ refusals failure)
          result := by
  intro before answer after start ended
  rw [Returns.run_update] at ended
  rcases result : change before.tree with failure | tree
  · rw [result] at ended
    cases ended
    exact ⟨start, refused _ failure start result⟩
  · rw [result] at ended
    cases ended
    exact given _ tree start result

end Guarantees

namespace Ends

variable {pre : FileTree → Prop} {mid : α → FileTree → Prop}
  {post : β → FileTree → Prop} {stops : Stop → Prop}
  {run : Run (StateM Workbench) α} {next : α → Run (StateM Workbench) β}

theorem pure {answer : β} (given : ∀ tree, pre tree → post answer tree) :
    Ends pre (Pure.pure answer) post stops :=
  Guarantees.pure given

theorem throw {stop : Stop} (allowed : stops stop) :
    Ends pre (MonadExcept.throw stop) post stops :=
  Guarantees.pure fun _ _ => allowed

theorem bind (first : Ends pre run mid stops)
    (second : ∀ answer, Ends (mid answer) (next answer) post stops) :
    Ends pre (run >>= next) post stops :=
  Serves.bind first second

theorem mono {pre' : FileTree → Prop} {mid' : α → FileTree → Prop}
    {stops' : Stop → Prop} (ends : Ends pre run mid stops)
    (start : ∀ tree, pre' tree → pre tree)
    (given : ∀ answer tree, mid answer tree → mid' answer tree)
    (allowed : ∀ stop, stops stop → stops' stop) :
    Ends pre' run mid' stops' :=
  Serves.mono ends (fun before => start before.tree)
    (fun answer after => given answer after.tree) allowed

theorem lift {operation : StateM Workbench α}
    (ends : Guarantees pre operation mid) :
    Ends pre (monadLift operation) mid stops := by
  intro before result after start ended
  rcases ran : (StateT.run operation before).run with ⟨answer, left⟩
  obtain ⟨rfl, rfl⟩ : Except.ok answer = result ∧ left = after := by
    simpa [ran] using ended
  exact ends before answer left start ran

theorem mk_pure {result : Except Stop α}
    (yields : ∀ tree, pre tree → Yields (mid · tree) stops result) :
    Ends pre (ExceptT.mk (Pure.pure result)) mid stops :=
  Guarantees.pure yields

/-- What ends well on each single tree ends well on all of them. -/
theorem of_each (ends : ∀ tree, pre tree → Ends (· = tree) run mid stops) :
    Ends pre run mid stops :=
  fun before result after start ended =>
    ends before.tree start before result after rfl ended

theorem assuming {fact : Prop} (ends : fact → Ends pre run mid stops) :
    Ends (fun tree => pre tree ∧ fact) run mid stops :=
  fun before result after start ended =>
    ends start.2 before result after start.1 ended

theorem of_looks {told : FileTree → α → Prop}
    (looks : ∀ tree, pre tree → Looks tree run (told tree) stops) :
    Ends pre run (fun _ => pre) stops := by
  apply of_each
  intro tree start
  apply (looks tree start).mono (fun _ same => same) _ (fun _ allowed => allowed)
  rintro _ _ ⟨rfl, _⟩
  exact start

/-- Whatever does not touch the tree keeps its properties. -/
theorem message {level : Level} {text : String} :
    Ends pre (Console.message level text) (fun _ => pre) stops := by
  intro before result after start ended
  cases ended
  simpa [Yields] using start

theorem progress {wanted : Bool} {text : String} :
    Ends pre (Console.progress wanted text) (fun _ => pre) stops := by
  cases wanted with
  | false => exact pure fun _ start => start
  | true => exact message

theorem attempt {operation : StateM Workbench (Except SystemFailure α)}
    {refusals : SystemFailure → FileTree → Prop}
    (ends : Guarantees pre operation fun result tree =>
      Yields (mid · tree) (refusals · tree) result)
    (allowed : ∀ failure tree, refusals failure tree →
      stops (FileSystem.stopOf failure)) :
    Ends pre (FileSystem.attempt operation) mid stops := by
  refine Guarantees.bind ends ?_
  intro result
  apply Guarantees.pure
  intro tree ended
  cases result with
  | ok answer => exact ended
  | error failure => exact allowed failure tree ended

end Ends

namespace Looks

variable {tree : FileTree} {told : α → Prop} {post : β → FileTree → Prop}
  {stops : Stop → Prop} {run : Run (StateM Workbench) α}
  {next : α → Run (StateM Workbench) β}

theorem pure {answer : α} (given : told answer) :
    Looks tree (Pure.pure answer) told stops :=
  Ends.pure fun _ same => ⟨same, given⟩

theorem bind (first : Looks tree run told stops)
    (second : ∀ answer, told answer → Ends (· = tree) (next answer) post stops) :
    Ends (· = tree) (run >>= next) post stops := by
  apply Ends.bind first
  intro answer
  apply Ends.of_each
  rintro _ ⟨rfl, given⟩
  exact second answer given

theorem mono {told' : α → Prop} {stops' : Stop → Prop}
    (looks : Looks tree run told stops)
    (given : ∀ answer, told answer → told' answer)
    (allowed : ∀ stop, stops stop → stops' stop) : Looks tree run told' stops' :=
  Ends.mono looks (fun _ same => same)
    (fun answer _ ended => ⟨ended.1, given answer ended.2⟩) allowed

theorem mk_pure {result : Except Stop α} (yields : Yields told stops result) :
    Looks tree (ExceptT.mk (Pure.pure result)) told stops :=
  Ends.mk_pure fun _ same =>
    yields.mono (fun _ given => ⟨same, given⟩) fun _ allowed => allowed

theorem attempt {operation : StateM Workbench (Except SystemFailure α)}
    {result : Except SystemFailure α}
    (looks : ∀ bench, bench.tree = tree →
      (StateT.run operation bench).run = (result, bench))
    (yields : Yields told (fun failure => stops (FileSystem.stopOf failure))
      result) :
    Looks tree (FileSystem.attempt operation) told stops := by
  have ends : Guarantees (· = tree) operation
      fun result after => Yields (fun answer => after = tree ∧ told answer)
        (fun failure => stops (FileSystem.stopOf failure)) result := by
    intro before answer after start ended
    rw [looks before start] at ended
    cases ended
    exact yields.mono (fun _ given => ⟨start, given⟩) fun _ allowed => allowed
  exact Ends.attempt ends fun _ _ allowed => allowed

end Looks

/-! ## Files and directories -/

/-- A stop that every run explains to the user. -/
def Stop.isExplained : Stop → Bool
  | .failed _ => true
  | .refused _ => true
  | .interrupted => true
  | _ => false

/-- The stop is explained to the user, or it is one of the given ones. -/
def ExplainedOr (lapses : Stop → Prop) (stop : Stop) : Prop :=
  stop.isExplained = true ∨ lapses stop

theorem ExplainedOr.mono {lapses lapses' : Stop → Prop} {stop : Stop}
    (known : ExplainedOr lapses stop)
    (implied : ∀ stop, lapses stop → lapses' stop) : ExplainedOr lapses' stop :=
  known.imp_right (implied stop)

/-- A component of the path holds a character that no name may hold. -/
def Path.Unnameable (path : Path) : Prop :=
  ∃ part ∈ path.parts, '\x00' ∈ part.toList

/-- What stops an operation on a path: a refusal, which is explained, unless the
path is no path at all. -/
inductive RefusedAt (path : Path) : Stop → Prop where
  | explained {stop : Stop} (explained : stop.isExplained = true) :
      RefusedAt path stop
  | unnameable (unnameable : path.Unnameable) :
      RefusedAt path (FileSystem.stopOf (.unnameable path))

namespace RefusedAt

variable {path : Path} {stop : Stop}

theorem isExplained (refused : RefusedAt path stop)
    (nameable : ¬ path.Unnameable) : stop.isExplained = true := by
  cases refused with
  | explained explained => exact explained
  | unnameable unnameable => exact absurd unnameable nameable

end RefusedAt

namespace FileTree

variable {tree after : FileTree} {path : Path} {failure : SystemFailure}
  {location : Location} {parts : List String} {bytes : ByteArray}

theorem isExplained_of_follow
    (refused : tree.follow path location parts = .error failure) :
    (FileSystem.stopOf failure).isExplained = true := by
  induction parts generalizing location with
  | nil => cases refused
  | cons part parts induction =>
      rw [follow] at refused
      split at refused
      · cases refused
        rfl
      · cases refused
        rfl
      · split_ifs at refused
        · exact induction refused
        · cases refused
          rfl
        · exact induction refused

theorem refusedAt_of_locate (refused : tree.locate path = .error failure) :
    RefusedAt path (FileSystem.stopOf failure) := by
  by_cases unnameable : path.Unnameable
  · have some : path.parts.any (·.toList.contains '\x00') = true := by
      simpa [Path.Unnameable] using unnameable
    rw [locate, if_pos some] at refused
    cases refused
    exact .unnameable unnameable
  · have nameable : ∀ part ∈ path.parts, '\x00' ∉ part.toList := by
      simpa [Path.Unnameable] using unnameable
    rw [locate_of_nameable nameable] at refused
    split_ifs at refused
    · cases refused
      exact .explained rfl
    · exact .explained (isExplained_of_follow refused)

/-- What is done at the place a path leads to, if all its refusals are explained.
-/
theorem refusedAt_of_bind {α : Type} {next : Location → Except SystemFailure α}
    (explained : ∀ place failure, next place = .error failure →
      (FileSystem.stopOf failure).isExplained = true)
    (refused : (tree.locate path >>= next) = .error failure) :
    RefusedAt path (FileSystem.stopOf failure) := by
  rcases leads : tree.locate path with failure' | place
  · rw [leads] at refused
    cases refused
    exact refusedAt_of_locate leads
  · rw [leads] at refused
    exact .explained (explained place failure refused)

theorem refusedAt_of_write (refused : tree.write path bytes = .error failure) :
    RefusedAt path (FileSystem.stopOf failure) := by
  apply refusedAt_of_bind _ refused
  intro place failure refused
  split at refused
  · cases refused
    rfl
  · cases refused

theorem refusedAt_of_makeDirectory
    (refused : tree.makeDirectory path = .error failure) :
    RefusedAt path (FileSystem.stopOf failure) := by
  apply refusedAt_of_bind _ refused
  intro place failure refused
  split at refused
  · cases refused
    rfl
  · cases refused

theorem isExplained_of_kind? (refused : tree.kind? path = .error failure) :
    (FileSystem.stopOf failure).isExplained = true := by
  rw [kind?] at refused
  split at refused
  · cases refused
  · cases refused
    rfl
  · cases refused

/-- Whatever holds no text was there before. -/
def AddsText (before after : FileTree) : Prop :=
  ∀ place bytes, after.entry? place = some (.file bytes) →
    Text.decode? bytes = none → before.entry? place = some (.file bytes)

theorem AddsText.refl (tree : FileTree) : AddsText tree tree :=
  fun _ _ found _ => found

theorem AddsText.put {before : FileTree} {place : Location} {entry : Entry}
    (adds : AddsText before tree)
    (text : ∀ bytes, entry = .file bytes → Text.decode? bytes ≠ none) :
    AddsText before (tree.put place entry) := by
  intro other bytes found undecodable
  by_cases same : other = place
  · subst same
    by_cases top : other = []
    · rw [top] at found
      cases found
    · rw [entry?_put_self top] at found
      exact absurd undecodable (text bytes (Option.some.inj found))
  · rw [entry?_put_of_ne same] at found
    exact adds other bytes found undecodable

end FileTree

section

variable {tree before : FileTree} {path : Path}

section

variable {stops : Stop → Prop}
  (allowed : ∀ stop, stop.isExplained = true → stops stop)

include allowed

theorem Looks.ask {kind : EntryKind} :
    Looks tree
      (do return (← FileSystem.attempt (FileSystem.kind? path)) == some kind)
      (fun answer => answer = true → tree.kind? path = .ok (some kind))
      stops := by
  have looks : ∀ bench : Workbench, bench.tree = tree →
      (StateT.run (FileSystem.kind? path : StateM Workbench _) bench).run =
        (tree.kind? path, bench) := by
    rintro bench rfl
    rfl
  have asked : Looks tree (FileSystem.attempt (FileSystem.kind? path))
      (fun kind? => tree.kind? path = .ok kind?) stops := by
    apply Looks.attempt looks
    cases told : tree.kind? path with
    | ok kind? => rfl
    | error failure => exact allowed _ (FileTree.isExplained_of_kind? told)
  apply Looks.bind asked
  intro kind? told
  apply Looks.pure
  intro isKind
  rw [told, eq_of_beq isKind]

theorem Looks.isFile :
    Looks tree (FileSystem.isFile path)
      (fun answer => answer = true → tree.kind? path = .ok (some .file))
      stops :=
  Looks.ask allowed

theorem Looks.isDirectory :
    Looks tree (FileSystem.isDirectory path)
      (fun answer => answer = true → tree.kind? path = .ok (some .directory))
      stops :=
  Looks.ask allowed

end

/-- The path leads to a file that holds no text. -/
def FileTree.HoldsNoText (tree : FileTree) (path : Path) : Prop :=
  ∃ bytes, tree.read path = .ok bytes ∧ Text.decode? bytes = none

theorem Looks.readText (isFile : tree.kind? path = .ok (some .file)) :
    Looks tree (FileSystem.readText path)
      (fun text => ∃ bytes, tree.read path = .ok bytes ∧
        Text.decode? bytes = some text)
      (fun stop => stop = .undecodable path ∧ tree.HoldsNoText path) := by
  obtain ⟨held, holds⟩ := FileTree.kind?_eq_file_iff.mp isFile
  have looks : ∀ bench : Workbench, bench.tree = tree →
      (StateT.run (FileSystem.read path : StateM Workbench _) bench).run =
        (.ok held, bench) := by
    rintro bench rfl
    rw [← holds]
    rfl
  have read : Looks tree (FileSystem.attempt (FileSystem.read path))
      (fun bytes => bytes = held)
      (fun stop => stop = .undecodable path ∧ tree.HoldsNoText path) :=
    Looks.attempt looks rfl
  apply Looks.bind read
  intro bytes same
  rw [same]
  rcases decoded : Text.decode? held with _ | text
  · exact Ends.throw ⟨rfl, held, holds, decoded⟩
  · exact Looks.pure ⟨held, holds, decoded⟩

theorem Ends.writeText {text : String} :
    Ends before.AddsText (FileSystem.writeText path text)
      (fun _ => before.AddsText) (RefusedAt path) := by
  refine Ends.attempt (Guarantees.update ?_ ?_) fun _ _ refused => refused.2
  · intro tree after adds wrote
    obtain ⟨place, _, _, rfl⟩ := FileTree.write_eq_ok_iff.mp wrote
    apply adds.put
    rintro bytes ⟨⟩ undecodable
    rw [Text.decode?_toUTF8] at undecodable
    cases undecodable
  · exact fun _ _ _ refused => FileTree.refusedAt_of_write refused

theorem Guarantees.makeDirectory :
    Guarantees before.AddsText
      (FileSystem.makeDirectory path : StateM Workbench _)
      fun result tree => Yields (fun _ => before.AddsText tree)
        (fun failure => before.AddsText tree ∧
          RefusedAt path (FileSystem.stopOf failure)) result := by
  refine Guarantees.update ?_ ?_
  · intro tree after adds made
    obtain ⟨place, _, _, rfl⟩ := FileTree.makeDirectory_eq_ok_iff.mp made
    apply adds.put
    rintro bytes ⟨⟩
  · exact fun _ _ _ refused => FileTree.refusedAt_of_makeDirectory refused

theorem Ends.unlessPresent {failure : SystemFailure}
    (refused : RefusedAt path (FileSystem.stopOf failure)) :
    Ends before.AddsText (FileSystem.unlessPresent path failure)
      (fun _ => before.AddsText) (RefusedAt path) := by
  have asked : Ends before.AddsText (FileSystem.isDirectory path)
      (fun _ => before.AddsText) (RefusedAt path) :=
    Ends.of_looks fun _ _ => Looks.isDirectory fun _ => .explained
  apply Ends.bind asked
  intro isThere
  cases isThere with
  | true => exact Ends.pure fun _ adds => adds
  | false => exact Ends.throw refused

theorem Ends.createDirectory :
    Ends before.AddsText (FileSystem.createDirectory path)
      (fun _ => before.AddsText) (RefusedAt path) := by
  apply Ends.bind (Ends.lift Guarantees.makeDirectory)
  intro result
  rcases result with failure | _
  · apply Ends.assuming
    intro refused
    split
    · contradiction
    · exact Ends.throw (.explained rfl)
    · next same =>
        cases same
        exact Ends.unlessPresent refused
  · exact Ends.pure fun _ adds => adds

theorem RefusedAt.of_parent {root part : String} {parents : List String}
    {stop : Stop} (refused : RefusedAt ⟨root, parents.reverse⟩ stop) :
    RefusedAt ⟨root, (part :: parents).reverse⟩ stop := by
  cases refused with
  | explained explained => exact .explained explained
  | unnameable unnameable =>
      obtain ⟨part', member, zero⟩ := unnameable
      have member' : part' ∈ (part :: parents).reverse := by
        simp only [List.mem_reverse, List.mem_cons] at member ⊢
        exact .inr member
      exact .unnameable ⟨part', member', zero⟩

theorem Ends.ensureDirectoryIn {root : String} {parts : List String} :
    Ends before.AddsText (FileSystem.ensureDirectoryIn root parts)
      (fun _ => before.AddsText) (RefusedAt ⟨root, parts.reverse⟩) := by
  induction parts with
  | nil => exact Ends.createDirectory
  | cons part parents induction =>
      apply Ends.bind (Ends.lift Guarantees.makeDirectory)
      intro result
      rcases result with failure | _
      · apply Ends.assuming
        intro refused
        split
        · contradiction
        · have above : Ends before.AddsText
              (FileSystem.ensureDirectoryIn root parents)
              (fun _ => before.AddsText)
              (RefusedAt ⟨root, (part :: parents).reverse⟩) :=
            induction.mono (fun _ adds => adds) (fun _ _ adds => adds)
              fun _ refused => refused.of_parent
          exact Ends.bind above fun _ => Ends.createDirectory
        · next same =>
            cases same
            exact Ends.unlessPresent refused
      · exact Ends.pure fun _ adds => adds

theorem Ends.ensureDirectory :
    Ends before.AddsText (FileSystem.ensureDirectory path)
      (fun _ => before.AddsText) (RefusedAt path) := by
  have ends : Ends before.AddsText (FileSystem.ensureDirectory path)
      (fun _ => before.AddsText)
      (RefusedAt ⟨path.root, path.parts.reverse.reverse⟩) :=
    Ends.ensureDirectoryIn
  rwa [List.reverse_reverse] at ends

end

end TokenMacros
