/-!
# Consoles

Where messages go: progress to the output, warnings and errors to the error
stream.  A label in front tells them apart, in colour if the stream is a
terminal.
-/

namespace TokenMacros

inductive Stream where
  | output
  | errors
  deriving Repr, DecidableEq

class Console (m : Type → Type) where
  print : Stream → String → m Unit
  isTerminal : Stream → m Bool

/-- A computation that may be stopped prints where it would print otherwise. -/
instance {m : Type → Type} {ε : Type} [Monad m] [Console m] :
    Console (ExceptT ε m) where
  print stream text := ExceptT.lift (Console.print stream text)
  isTerminal stream := ExceptT.lift (Console.isTerminal stream)

inductive Level where
  | info
  | warning
  | error
  deriving Repr, DecidableEq

namespace Level

def stream : Level → Stream
  | info => .output
  | warning => .errors
  | error => .errors

def name : Level → String
  | info => "INFO"
  | warning => "WARNING"
  | error => "ERROR"

/-- The number of a level's colour on a terminal. -/
def colour : Level → String
  | info => "94"
  | warning => "93"
  | error => "91"

/-- The label of a level, in colour for a terminal. -/
def label (level : Level) (isTerminal : Bool) : String :=
  let plain := "[" ++ level.name ++ "]"
  if isTerminal then "\x1b[" ++ level.colour ++ "m" ++ plain ++ "\x1b[0m" else plain

end Level

namespace Console

variable {m : Type → Type} [Monad m] [Console m]

def line (stream : Stream) (text : String) : m Unit :=
  print stream (text ++ "\n")

def message (level : Level) (text : String) : m Unit := do
  let label := level.label (← isTerminal level.stream)
  line level.stream ("[Syn] " ++ label ++ " " ++ text)

/-- Prints a message about progress, if such messages are wanted. -/
def progress (wanted : Bool) (text : String) : m Unit := do
  if wanted then message .info text

end Console

end TokenMacros
