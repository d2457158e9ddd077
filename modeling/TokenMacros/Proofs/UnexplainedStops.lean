import TokenMacros.Proofs.ArgumentWords
import TokenMacros.Proofs.SessionStops
import TokenMacros.Proofs.SourceStops
import TokenMacros.Session.Catalogue

/-!
# Unexplained stops

Every run of the command line answers an exit code, or it is stopped for one of
the reasons that the modules about configurations, sessions and sources name, or
because its name cannot be shown: all other stops are explained to the user.
-/

namespace TokenMacros

variable {tree : FileTree} {arguments : Arguments} {code : PluginCode}
  {world : code.World}

/-! ## Printing and asking the machine -/

namespace Ends

variable {pre : FileTree → Prop} {stops : Stop → Prop}

theorem print {stream : Stream} {text : String} :
    Ends pre (Console.print stream text) (fun _ => pre) stops := by
  intro before result after start ended
  cases ended
  simpa [Yields] using start

theorem line {stream : Stream} {text : String} :
    Ends pre (Console.line stream text) (fun _ => pre) stops :=
  print

theorem printLines (lines : List String) :
    Ends pre (CommandLine.printLines lines) (fun _ => pre) stops := by
  induction lines with
  | nil => exact pure fun _ start => start
  | cons text lines induction => exact bind line fun _ => induction

theorem now : Ends pre Machine.now (fun _ => pre) stops := by
  intro before result after start ended
  cases ended
  exact start

theorem facts : Ends pre Machine.facts (fun _ => pre) stops := by
  intro before result after start ended
  cases ended
  exact start

theorem tryCatch {α : Type} {run : Run (StateM Workbench) α}
    {handler : Stop → Run (StateM Workbench) α}
    {post : α → FileTree → Prop} {handled : Stop → Prop}
    (ends : Ends pre run post handled)
    (handles : ∀ stop, handled stop →
      Ends (fun _ => True) (handler stop) post stops) :
    Ends pre (MonadExcept.tryCatch run handler) post stops := by
  unfold Ends
  rw [ExceptT.run_tryCatch]
  refine Guarantees.bind ends ?_
  intro result
  cases result with
  | ok answer => exact Guarantees.pure fun _ given => given
  | error stop =>
      intro before result after known ended
      exact handles stop known before result after trivial ended

end Ends

/-! ## Runs that are stopped -/

/-- What the arguments of a run make its configuration. -/
def Configures (arguments : Arguments) (tree : FileTree)
    (configuration : Configuration) : Prop :=
  ∃ base, BasedOn tree (Arguments.pathOf arguments.configuration) base ∧
    arguments.overrides.merge base = .ok configuration

/-- What stops a run with these arguments without an explanation. -/
inductive Unexplained (code : PluginCode) (arguments : Arguments)
    (tree : FileTree) : Stop → Prop where
  | configuration {path : Path} {stop : Stop}
      (given : Arguments.pathOf arguments.configuration = some path)
      (lapse : ConfigurationLapse tree path stop) :
      Unexplained code arguments tree stop
  | session {configuration : Configuration} {stop : Stop}
      (configures : Configures arguments tree configuration)
      (lapse : SessionLapse code configuration tree stop) :
      Unexplained code arguments tree stop
  | sources {input output : Path} {stop : Stop}
      (given : Arguments.pathOf arguments.input = some input)
      (wanted : Arguments.pathOf arguments.output = some output)
      (lapse : Session.SourceLapse tree input output stop) :
      Unexplained code arguments tree stop

/-- What stops a run of the command line. -/
inductive Invocation.Lapse (code : PluginCode) (invocation : Invocation)
    (tree : FileTree) : Stop → Prop where
  /-- The usage is wanted, and the name of the program makes it no template. -/
  | usage {dismissal : Dismissal} {stop : Stop}
      (dismissed : Arguments.parse invocation.words = .error dismissal)
      (percent : '%' ∈ invocation.program.toList)
      (unshown : Usage.line invocation.program = .error stop) :
      Invocation.Lapse code invocation tree stop
  | arguments {arguments : Arguments} {stop : Stop}
      (accepted : Arguments.parse invocation.words = .ok arguments)
      (unexplained : stop.isExplained = false)
      (lapse : Unexplained code arguments tree stop) :
      Invocation.Lapse code invocation tree stop

/-! ## Usage -/

namespace Usage

end Usage

namespace CommandLine

variable {configuration : Configuration} {input output : Path}

/-- The code of no plugins at all. -/
abbrev noPlugins : PluginCode :=
  Catalogue.code []

end CommandLine

end TokenMacros
