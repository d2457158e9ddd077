import TokenMacros.CommandLine.Word
import TokenMacros.Text.Numeral
import TokenMacros.Text.Quoted

/-!
# Arguments

What a command line asks for.  Options take effect in the order in which they
stand, and the first misuse ends the reading; only words that nothing takes are
collected and reported together at the end.
-/

namespace TokenMacros

inductive Misuse where
  /-- An option lacks its value. -/
  | missingValue (switch : Switch)
  /-- A value is attached to an option that takes none. -/
  | unusedValue (switch : Switch) (value : List Char)
  /-- An iteration limit is no whole number. -/
  | malformedLimit (value : List Char)
  /-- An iteration limit is less than one. -/
  | limitTooSmall (limit : Int)
  /-- Nothing takes these words. -/
  | unrecognized (words : List String)
  deriving Repr, DecidableEq

def Misuse.message : Misuse → String
  | missingValue switch => "argument " ++ switch.shown ++ ": expected one argument"
  | unusedValue switch value =>
    "argument " ++ switch.shown ++ ": ignored explicit argument " ++
      String.ofList (Text.quoted value)
  | malformedLimit value =>
    "argument " ++ Switch.maxIterations.shown ++ ": invalid int value: '" ++
      String.ofList value ++ "'"
  | limitTooSmall limit =>
    "argument " ++ Switch.maxIterations.shown ++ ": must be at least 1, got " ++ toString limit
  | unrecognized words => "unrecognized arguments: " ++ String.intercalate " " words

inductive Dismissal where
  /-- Help is wanted instead. -/
  | help
  | misuse (misuse : Misuse)
  deriving Repr, DecidableEq

structure Arguments where
  input : Option String := none
  output : Option String := none
  configuration : Option String := none
  ruleDirectories : List String := []
  ruleFiles : List String := []
  maxIterations : Option Int := none
  singleTokenFallback : Bool := false
  version : Bool := false
  verbose : Bool := false
  explainsFailures : Bool := true
  deriving Repr, DecidableEq

namespace Arguments

/-- An iteration limit. -/
def readLimit (value : List Char) : Except Dismissal Int :=
  match Text.readNumeral value with
  | .ok limit => if limit < 1 then .error (.misuse (.limitTooSmall limit)) else .ok limit
  | .error _ => .error (.misuse (.malformedLimit value))

/-- The effect of an option with its value, which is empty if it takes none.
The last value counts, but rule paths are collected. -/
def apply (arguments : Arguments) (switch : Switch) (value : List Char) :
    Except Dismissal Arguments :=
  let text := String.ofList value
  match switch with
  | .help => .error .help
  | .output => .ok { arguments with output := some text }
  | .version => .ok { arguments with version := true }
  | .ruleDirectory =>
    .ok { arguments with ruleDirectories := arguments.ruleDirectories ++ [text] }
  | .ruleFile => .ok { arguments with ruleFiles := arguments.ruleFiles ++ [text] }
  | .configuration => .ok { arguments with configuration := some text }
  | .maxIterations => return { arguments with maxIterations := some (← readLimit value) }
  | .singleTokenFallback => .ok { arguments with singleTokenFallback := true }
  | .verbose => .ok { arguments with verbose := true }
  | .rawFailures => .ok { arguments with explainsFailures := false }

/-- The effect of options that take no value. -/
def applyAll (arguments : Arguments) (switches : List Switch) :
    Except Dismissal Arguments :=
  switches.foldlM (fun arguments switch => arguments.apply switch []) arguments

end Arguments

/-- Options that are written together: all but the last one take no value. -/
structure Cluster where
  switches : List Switch := []
  last : Switch
  /-- What is attached to the last option. -/
  attached : Option (List Char) := none
  deriving Repr, DecidableEq

namespace Cluster

/-- The options in a word of one dash, from the one whose name was read to the
end. -/
def ofShort (switch : Switch) : List Char → Except Dismissal Cluster
  | [] => .ok { last := switch }
  | c :: rest =>
    if switch.takesValue then .ok { last := switch, attached := some (c :: rest) }
    else
      match Switch.ofName? ['-', c] with
      | some next => do
        let cluster ← ofShort next rest
        return { cluster with switches := switch :: cluster.switches }
      | none => .error (.misuse (.unusedValue switch (c :: rest)))

def single (switch : Switch) (attached : Option (List Char)) :
    Except Dismissal Cluster :=
  match attached with
  | some value =>
    if switch.takesValue then .ok { last := switch, attached := some value }
    else .error (.misuse (.unusedValue switch value))
  | none => .ok { last := switch }

/-- The options in a word, if there are any. -/
def ofWord? : Word → Option (Except Dismissal Cluster)
  | .long switch attached => some (single switch attached)
  | .short switch (some (c :: rest)) => some (ofShort switch (c :: rest))
  | .short switch attached => some (single switch attached)
  | _ => none

end Cluster

/-- How far a command line was read. -/
structure Reading where
  arguments : Arguments := {}
  /-- Words that nothing takes. -/
  extras : List String := []
  deriving Repr, DecidableEq

namespace Reading

/-- Takes a word that is no option: the first one is the input. -/
def take (reading : Reading) (word : String) : Reading :=
  match reading.arguments.input with
  | none => { reading with arguments := { reading.arguments with input := some word } }
  | some _ => { reading with extras := reading.extras ++ [word] }

/-- Takes the words behind a separator.  The separator is one of the words that
nothing takes, unless the input stands directly before or behind it. -/
def takeSeparated (reading : Reading) (afterInput : Bool)
    (words : List String) : Reading :=
  let reading :=
    if afterInput || reading.arguments.input.isNone then reading else reading.take "--"
  words.foldl take reading

/-- Applies a cluster whose last option may take the word behind it as its
value.  Answers whether it did. -/
def applyCluster (reading : Reading) (cluster : Cluster)
    (next : Option String) :
    Except Dismissal (Reading × Bool) := do
  let (value, taken) ←
    match cluster.attached with
    | some text => pure (text, false)
    | none =>
      if cluster.last.takesValue then
        match next with
        | some word =>
          if Word.classify word.toList = .argument then pure (word.toList, true)
          else throw (.misuse (.missingValue cluster.last))
        | none => throw (.misuse (.missingValue cluster.last))
      else pure ([], false)
  let arguments ← reading.arguments.applyAll cluster.switches
  let arguments ← arguments.apply cluster.last value
  return ({ reading with arguments := arguments }, taken)

/-- Reads words. `afterInput` tells that the word in front was taken as the
input. -/
def readWords (reading : Reading) (afterInput : Bool) :
    List String → Except Dismissal Reading
  | [] => .ok reading
  | word :: rest =>
    match Word.classify word.toList with
    | .separator => .ok (reading.takeSeparated afterInput rest)
    | .argument => readWords (reading.take word) reading.arguments.input.isNone rest
    | .unknown => readWords { reading with extras := reading.extras ++ [word] } false rest
    | option =>
      match Cluster.ofWord? option with
      | none => .ok reading
      | some (.error dismissal) => .error dismissal
      | some (.ok cluster) =>
        match reading.applyCluster cluster rest.head? with
        | .error dismissal => .error dismissal
        | .ok (reading, false) => readWords reading false rest
        | .ok (reading, true) => readWords reading false rest.tail
termination_by words => words.length
decreasing_by
  · exact Nat.lt_succ_self _
  · exact Nat.lt_succ_self _
  · exact Nat.lt_succ_self _
  · simp only [List.length_tail, List.length_cons]
    omega

end Reading

def Arguments.parse (words : List String) : Except Dismissal Arguments := do
  let reading ← Reading.readWords {} false words
  if reading.extras.isEmpty then return reading.arguments
  else throw (.misuse (.unrecognized reading.extras))

end TokenMacros
