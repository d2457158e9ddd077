import TokenMacros.CommandLine.Template

/-!
# Usage

What the program tells about its command line: one line when it is misused, a
page when help is asked for.  The line is a template, and the name of the program
is a part of it: a name with percent signs may make it no template at all, which
stops the run.
-/

namespace TokenMacros.Usage

/-- Of more than two line breaks in a row, two are left. -/
def squeezeBreaks (text : List Char) : List Char :=
  text.foldr
    (fun c rest => if c == '\n' && rest.take 2 == ['\n', '\n'] then rest else c :: rest) []

/-- How the program is called. -/
def line (program : String) : Except Stop String := do
  let template := program ++ " input [options] [-h]"
  let shown ← Template.instantiate program.toList .table template.toList
  return "usage: " ++ String.ofList (squeezeBreaks shown)

def misuse (program message : String) : Except Stop String :=
  return (← line program) ++ "\n" ++ program ++ ": error: " ++ message ++ "\n"

def page : List String := [
  "",
  "Syn - macro preprocessor for PHP sources with custom syntax (`.syn.php`,",
  "`.syn` files)",
  "",
  "positional arguments:",
  "  input                 Input source file or directory to process",
  "",
  "options:",
  "  -h, --help            show this help message and exit",
  "  --out OUTPUT, -o OUTPUT",
  "                        Output file or directory",
  "  --version             Show version info",
  "",
  "Macros:",
  "  Where macro definitions come from",
  "",
  "  --macro-dir MACRO_DIRECTORIES, -m MACRO_DIRECTORIES",
  "                        Directory containing macro definitions (`.syn` files),",
  "                        may be passed multiple times",
  "  --macro-file MACRO_FILES, -f MACRO_FILES",
  "                        Specific macro definitions file, may be passed",
  "                        multiple times",
  "  --config CONFIG, -c CONFIG",
  "                        Configuration file (TOML)",
  "",
  "Transformer:",
  "  Macro application loop",
  "",
  "  --max-iterations MAX_ITERATIONS",
  "                        Safety limit of transformation iterations (default: 3)",
  "  --legacy-single-token-fallback",
  "                        Apply macros whose first pattern token matches even if",
  "                        rest of the pattern does not",
  "",
  "Logging:",
  "  Output verbosity",
  "",
  "  --verbose, -v         If passed will enable INFO level logs and processing",
  "                        results table."]

def help (program : String) : Except Stop String :=
  return String.join (((← line program) :: page).map (· ++ "\n"))

end TokenMacros.Usage
