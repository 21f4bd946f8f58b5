import BuildWatch.Toml.Document

/-!
Reading TOML: a document is a sequence of lines, each a header, a key with its
value, or nothing but a comment.
-/

namespace BuildWatch.Toml

/-- Arrays and braced tables are nested less deep than this. -/
def nestingLimit : Nat := 80

def bracedEntries? : List (List String × Item) → Entries → Option Entries
  | [], entries => some entries
  | (key, item) :: rest, entries => do
      bracedEntries? rest (← entries.insert? key item)

mutual

/-- A value; `room` is the nesting that is left and `bound` limits the steps. -/
def takeItem? (room : Nat) : Nat → List Char → Option (Item × List Char)
  | 0, _ => none
  | bound + 1, text =>
      match text with
      | '[' :: rest =>
          if room = 0 then none
          else do
            let (items, rest) ← takeItems? (room - 1) bound rest
            return (.array items, rest)
      | '{' :: rest =>
          if room = 0 then none
          else
            match skipBlanks rest with
            | '}' :: rest => some (.braced [], rest)
            | rest => do
                let (pairs, rest) ← takePairs? (room - 1) bound rest
                let entries ← bracedEntries? pairs []
                return (.braced entries, rest)
      | _ => (takeScalar? text).map fun taken => (.scalar taken.1, taken.2)

/-- The items of an array up to its bracket.  The last may be followed by a comma. -/
def takeItems? (room : Nat) : Nat → List Char → Option (List Item × List Char)
  | 0, _ => none
  | bound + 1, text =>
      match skipLines text.length text with
      | ']' :: rest => some ([], rest)
      | text => do
          let (item, rest) ← takeItem? room bound text
          match skipLines rest.length rest with
          | ',' :: rest => do
              let (items, rest) ← takeItems? room bound rest
              return (item :: items, rest)
          | ']' :: rest => return ([item], rest)
          | _ => none

def takePairs? (room : Nat) : Nat → List Char → Option (List (List String × Item) × List Char)
  | 0, _ => none
  | bound + 1, text => do
      let (key, rest) ← takeKey? (keyLimit - 1) text
      let rest ← takeChar? '=' rest
      let (item, rest) ← takeItem? room bound (skipBlanks rest)
      match skipBlanks rest with
      | ',' :: rest => do
          let (pairs, rest) ← takePairs? room bound rest
          return ((key, item) :: pairs, rest)
      | '}' :: rest => return ([(key, item)], rest)
      | _ => none

end

def takeElementHeader? (text : List Char) : Option (List String × List Char) := do
  let (path, rest) ← takeKey? (keyLimit - 1) text
  let rest ← takeChar? ']' rest
  let rest ← takeChar? ']' rest
  return (path, rest)

def takeTableHeader? (text : List Char) : Option (List String × List Char) := do
  let (path, rest) ← takeKey? (keyLimit - 1) text
  let rest ← takeChar? ']' rest
  return (path, rest)

def takeAssignment? (text : List Char) : Option ((List String × Item) × List Char) := do
  let (key, rest) ← takeKey? (keyLimit - 1) text
  let rest ← takeChar? '=' rest
  let (item, rest) ← takeItem? (nestingLimit - 1) (2 * text.length + 4) (skipBlanks rest)
  return ((key, item), rest)

/-- Read the lines of a document; `bound` limits their number. -/
def readLines? (draft : Draft) : Nat → List Char → Option Draft
  | 0, _ => none
  | bound + 1, text =>
      match skipBlanks text with
      | [] => some draft
      | '#' :: rest => do
          readLines? draft bound (← takeLineEnd? ('#' :: rest))
      | '\n' :: rest => readLines? draft bound rest
      | '\r' :: rest => do
          readLines? draft bound (← takeNewline? ('\r' :: rest))
      | '[' :: '[' :: rest => do
          let (path, rest) ← takeElementHeader? rest
          readLines? (← draft.openElement? path) bound (← takeLineEnd? rest)
      | '[' :: rest => do
          let (path, rest) ← takeTableHeader? rest
          readLines? (← draft.openTable? path) bound (← takeLineEnd? rest)
      | text => do
          let ((key, item), rest) ← takeAssignment? text
          readLines? (← draft.assign? key item) bound (← takeLineEnd? rest)

/-- The entries of a document.  A byte order mark may stand before it. -/
def parse? (text : String) : Option Entries :=
  let chars :=
    match text.toList with
    | '\uFEFF' :: rest => rest
    | chars => chars
  (readLines? {} (chars.length + 1) chars).map Draft.entries

end BuildWatch.Toml
