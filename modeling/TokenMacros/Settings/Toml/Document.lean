import TokenMacros.Settings.Toml.Moment

/-!
# TOML documents

A document is read statement by statement into a table: table headers, headers
of table lists, and keys with their values.  A table may be opened by a header
once, and what was written as an inline value may not be added to; the document
remembers both.
-/

namespace TokenMacros.Toml

abbrev Key := List String

abbrev Table := Entries

/-- Characters of a key without quotes. -/
def isBareKey (c : Char) : Bool :=
  c.isAlphanum || c == '-' || c == '_'

/-- One part of a dotted key. -/
def keyPart : List Char → Except Refusal (String × List Char)
  | [] => .error .malformed
  | c :: rest =>
    if isBareKey c then
      let run := (c :: rest).takeWhile isBareKey
      .ok (String.ofList run, (c :: rest).drop run.length)
    else if c == '\x27' || c == '\x22' then lineString c (c :: rest)
    else .error .malformed

/-- The parts of a dotted key, with the spaces behind it.  `fuel` bounds their
number. -/
def dottedKey : (fuel : Nat) → List Char → Except Refusal (Key × List Char)
  | 0, _ => .error .malformed
  | fuel + 1, text => do
    let (part, rest) ← keyPart text
    match skipSpaces rest with
    | '.' :: rest =>
      let (parts, rest) ← dottedKey fuel (skipSpaces rest)
      return (part :: parts, rest)
    | rest => return ([part], rest)

/-- Changes the table that a key leads to, creating the tables on the way.  With
`throughLists`, a list of tables leads to its last one. -/
def updateAt (throughLists : Bool) (change : Table → Except Refusal Table) :
    Key → Table → Except Refusal Table
  | [], entries => change entries
  | part :: parts, entries => do
    match entries.entry? part with
    | none =>
      return entries.set (.text part) (.table (← updateAt throughLists change parts []))
    | some (.table inner) =>
      return entries.set (.text part) (.table (← updateAt throughLists change parts inner))
    | some (.list items) =>
      match throughLists, items.reverse with
      | true, .table inner :: before =>
        let last : Value := .table (← updateAt throughLists change parts inner)
        return entries.set (.text part) (.list (last :: before).reverse)
      | _, _ => throw .malformed
    | some _ => throw .malformed

/-- Adds a key that is not there yet. -/
def addKey (key : String) (value : Value) (entries : Table) :
    Except Refusal Table :=
  if (entries.entry? key).isSome then .error .malformed
  else .ok (entries.set (.text key) value)

/-- The key or one that it begins with is among the given ones. -/
def isWithin (keys : List Key) (key : Key) : Bool :=
  keys.any fun held => held.isPrefixOf key

/-- Lists and tables that are written inline cannot be added to. -/
def isInline : Value → Bool
  | .list _ => true
  | .table _ => true
  | _ => false

/-- Skips spaces, line feeds and comments inside a list.  `fuel` bounds the
comments. -/
def skipBreaks : (fuel : Nat) → List Char → Except Refusal (List Char)
  | 0, text => .ok text
  | fuel + 1, text =>
    match text.dropWhile isSpaceOrLineFeed with
    | '#' :: rest => do skipBreaks fuel (← skipComment ('#' :: rest))
    | rest => .ok rest

/-- What separates the last part of a key from the others. -/
def splitKey (key : Key) : Key × String :=
  (key.dropLast, key.getLast?.getD "")

mutual

/-- A value.  `fuel` bounds how deep values are nested and how many stand side
by side. -/
def value : (fuel : Nat) → List Char → Except Refusal (Value × List Char)
  | 0, _ => .error .malformed
  | fuel + 1, text =>
    match text with
    | '\x22' :: '\x22' :: '\x22' :: _ =>
      (blockString '\x22' text).map fun (content, rest) => (.text content, rest)
    | '\x22' :: _ =>
      (lineString '\x22' text).map fun (content, rest) => (.text content, rest)
    | '\x27' :: '\x27' :: '\x27' :: _ =>
      (blockString '\x27' text).map fun (content, rest) => (.text content, rest)
    | '\x27' :: _ =>
      (lineString '\x27' text).map fun (content, rest) => (.text content, rest)
    | 't' :: 'r' :: 'u' :: 'e' :: rest => .ok (.boolean true, rest)
    | 'f' :: 'a' :: 'l' :: 's' :: 'e' :: rest => .ok (.boolean false, rest)
    | '[' :: rest => do
      match ← skipBreaks rest.length rest with
      | ']' :: rest => return (.list [], rest)
      | rest =>
        let (items, rest) ← listItems fuel rest
        return (.list items, rest)
    | '\x7b' :: rest =>
      match skipSpaces rest with
      | '\x7d' :: rest => .ok (.table [], rest)
      | rest =>
        (inlineEntries fuel [] [] rest).map fun (entries, rest) =>
          (.table entries, rest)
    | _ =>
      match dateValue? text with
      | some found => found
      | none =>
        match timeValue? text with
        | some found => .ok found
        | none =>
          match radixNumber? text with
          | some found => .ok found
          | none =>
            match decimalNumber? text with
            | some found => found
            | none =>
              match specialFloat? text with
              | some found => .ok found
              | none => .error .malformed

/-- The items of a list, through its end mark.  A comma may stand behind the
last one. -/
def listItems : (fuel : Nat) → List Char → Except Refusal (List Value × List Char)
  | 0, _ => .error .malformed
  | fuel + 1, text => do
    let (item, rest) ← value fuel text
    match ← skipBreaks rest.length rest with
    | ']' :: rest => return ([item], rest)
    | ',' :: rest =>
      match ← skipBreaks rest.length rest with
      | ']' :: rest => return ([item], rest)
      | rest =>
        let (items, rest) ← listItems fuel rest
        return (item :: items, rest)
    | _ => throw .malformed

/-- The keys and values of an inline table, through its end mark, added to
`entries`. -/
def inlineEntries : (fuel : Nat) → (entries : Table) → (frozen : List Key) → List Char →
    Except Refusal (Table × List Char)
  | 0, _, _, _ => .error .malformed
  | fuel + 1, entries, frozen, text => do
    let (key, rest) ← dottedKey text.length text
    let (item, rest) ← assigned fuel rest
    if isWithin frozen key then throw .malformed
    let (parents, last) := splitKey key
    let entries ← updateAt false (addKey last item) parents entries
    match skipSpaces rest with
    | '\x7d' :: rest => return (entries, rest)
    | ',' :: rest =>
      let frozen := if isInline item then key :: frozen else frozen
      inlineEntries fuel entries frozen (skipSpaces rest)
    | _ => throw .malformed

/-- The value behind the sign of a key and value pair. -/
def assigned : (fuel : Nat) → List Char → Except Refusal (Value × List Char)
  | 0, _ => .error .malformed
  | fuel + 1, text =>
    match text with
    | '=' :: rest => value fuel (skipSpaces rest)
    | _ => .error .malformed

end

/-- A document, as far as it has been read. -/
structure Document where
  root : Table := []
  /-- The table that keys are added to. -/
  header : Key := []
  /-- Keys of inline values. -/
  frozen : List Key := []
  /-- Keys of tables that no header may open again. -/
  opened : List Key := []
  /-- Keys of tables that no header behind the next one may open. -/
  pending : List Key := []

namespace Document

/-- What is pending holds from the next header on. -/
def settle (document : Document) : Document :=
  { document with opened := document.pending ++ document.opened, pending := [] }

def openTable (document : Document) (key : Key) : Except Refusal Document := do
  if document.opened.contains key || isWithin document.frozen key then
    throw .malformed
  let root ← updateAt true .ok key document.root
  return { document with root := root, header := key, opened := key :: document.opened }

/-- Adds an empty table to the list that the entries hold under a key. -/
def appendTable (key : String) (entries : Table) : Except Refusal Table :=
  match entries.entry? key with
  | none => .ok (entries.set (.text key) (.list [.table []]))
  | some (.list items) =>
    .ok (entries.set (.text key) (.list (items ++ [.table []])))
  | some _ => .error .malformed

/-- Adds a table to the list of a header.  What was remembered of the tables
before it is forgotten. -/
def openListTable (document : Document) (key : Key) :
    Except Refusal Document := do
  if isWithin document.frozen key then throw .malformed
  let outside (keys : List Key) : List Key :=
    keys.filter fun held => !key.isPrefixOf held
  let (parents, last) := splitKey key
  let root ← updateAt true (appendTable last) parents document.root
  return { document with
    root := root
    header := key
    frozen := outside document.frozen
    opened := key :: outside document.opened }

def assign (document : Document) (key : Key) (item : Value) :
    Except Refusal Document := do
  let (parents, last) := splitKey key
  let containers := (List.range parents.length).map fun count =>
    document.header ++ key.take (count + 1)
  if containers.any document.opened.contains then throw .malformed
  let place := document.header ++ parents
  if isWithin document.frozen place then throw .malformed
  let root ← updateAt true (addKey last item) place document.root
  let frozen :=
    if isInline item then (document.header ++ key) :: document.frozen
    else document.frozen
  return { document with
    root := root, frozen := frozen, pending := containers ++ document.pending }

/-- Reads one statement at the front of the text, which is not blank. -/
def statement (document : Document) (text : List Char) :
    Except Refusal (Document × List Char) := do
  match text with
  | '[' :: '[' :: rest =>
    let (key, rest) ← dottedKey text.length (skipSpaces rest)
    let document ← document.settle.openListTable key
    match rest with
    | ']' :: ']' :: rest => return (document, rest)
    | _ => throw .malformed
  | '[' :: rest =>
    let (key, rest) ← dottedKey text.length (skipSpaces rest)
    let document ← document.settle.openTable key
    match rest with
    | ']' :: rest => return (document, rest)
    | _ => throw .malformed
  | '#' :: _ => return (document, text)
  | _ =>
    let (key, rest) ← dottedKey text.length text
    let (item, rest) ← assigned (2 * text.length + 2) rest
    return (← document.assign key item, rest)

/-- Reads the statements of a text.  `fuel` bounds the number of lines. -/
def statements : (fuel : Nat) → Document → List Char → Except Refusal Document
  | 0, document, _ => .ok document
  | fuel + 1, document, text =>
    match skipSpaces text with
    | [] => .ok document
    | '\n' :: rest => statements fuel document rest
    | text => do
      let (document, rest) ← document.statement text
      match ← skipComment (skipSpaces rest) with
      | [] => return document
      | '\n' :: rest => statements fuel document rest
      | _ => throw .malformed

end Document

def parse (text : String) : Except Refusal Table :=
  return (← Document.statements (text.length + 1) {} text.toList).root

end TokenMacros.Toml
