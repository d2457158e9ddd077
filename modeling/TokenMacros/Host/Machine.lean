/-!
# Machines

What the program asks of the machine it runs on: the time, to tell how long it
took, and a description for the user.
-/

namespace TokenMacros

class Machine (m : Type → Type) where
  /-- Nanoseconds since some fixed moment. -/
  now : m Nat
  /-- What the machine says about itself, as lines of a label and a text. -/
  facts : m (List (String × String))

/-- A computation that may be stopped asks the same machine. -/
instance {m : Type → Type} {ε : Type} [Monad m] [Machine m] :
    Machine (ExceptT ε m) where
  now := ExceptT.lift Machine.now
  facts := ExceptT.lift Machine.facts

end TokenMacros
