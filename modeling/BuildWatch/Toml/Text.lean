/-!
The strings, blanks and keys of TOML.  A reader takes the characters of a
text and gives what it read together with what follows.
-/

namespace BuildWatch.Toml

def isBlank (char : Char) : Bool := char == ' ' || char == '\t'

def skipBlanks (text : List Char) : List Char := text.dropWhile isBlank

/-- Characters past the ASCII range stand for themselves everywhere. -/
def isWide (char : Char) : Bool := 0x80 ≤ char.toNat

/-- The visible characters of the ASCII range, and the space. -/
def isPlain (char : Char) : Bool := ' ' ≤ char && char ≤ '~'

def isCommentChar (char : Char) : Bool := char == '\t' || isPlain char || isWide char

def isBasicChar (char : Char) : Bool := isCommentChar char && char != '"' && char != '\\'

def isLiteralChar (char : Char) : Bool := isCommentChar char && char != '\''

def takeNewline? : List Char → Option (List Char)
  | '\n' :: rest => some rest
  | '\r' :: '\n' :: rest => some rest
  | _ => none

def skipComment : List Char → List Char
  | '#' :: rest => rest.dropWhile isCommentChar
  | text => text

/-- The end of a line: blanks, a comment, and a line break or the end of the text. -/
def takeLineEnd? (text : List Char) : Option (List Char) :=
  match skipComment (skipBlanks text) with
  | [] => some []
  | rest => takeNewline? rest

/-- Skip blanks, comments and line breaks; `bound` limits the number of lines. -/
def skipLines : Nat → List Char → List Char
  | 0, text => text
  | bound + 1, text =>
      let rest := skipComment (skipBlanks text)
      match takeNewline? rest with
      | some rest => skipLines bound rest
      | none => rest

/-! ### Strings -/

def hexDigit? (char : Char) : Option Nat :=
  if '0' ≤ char ∧ char ≤ '9' then some (char.toNat - '0'.toNat)
  else if 'a' ≤ char ∧ char ≤ 'f' then some (char.toNat - 'a'.toNat + 10)
  else if 'A' ≤ char ∧ char ≤ 'F' then some (char.toNat - 'A'.toNat + 10)
  else none

def takeCodePoint? (value : Nat) : Nat → List Char → Option (Char × List Char)
  | 0, text => if value.isValidChar then some (Char.ofNat value, text) else none
  | count + 1, char :: rest => do
      let digit ← hexDigit? char
      takeCodePoint? (value * 16 + digit) count rest
  | _ + 1, [] => none

def takeEscape? : List Char → Option (Char × List Char)
  | 'b' :: rest => some ('\x08', rest)
  | 't' :: rest => some ('\t', rest)
  | 'n' :: rest => some ('\n', rest)
  | 'f' :: rest => some ('\x0c', rest)
  | 'r' :: rest => some ('\r', rest)
  | '"' :: rest => some ('"', rest)
  | '\\' :: rest => some ('\\', rest)
  | 'u' :: rest => takeCodePoint? 0 4 rest
  | 'U' :: rest => takeCodePoint? 0 8 rest
  | _ => none

/-- The rest of a string in double quotes; `bound` limits the number of characters. -/
def takeBasic? (done : List Char) : Nat → List Char → Option (String × List Char)
  | 0, _ => none
  | bound + 1, text =>
      match text with
      | '"' :: rest => some (String.ofList done.reverse, rest)
      | '\\' :: rest =>
          match takeEscape? rest with
          | some (char, rest) => takeBasic? (char :: done) bound rest
          | none => none
      | char :: rest => if isBasicChar char then takeBasic? (char :: done) bound rest else none
      | [] => none

def takeLiteral? (text : List Char) : Option (String × List Char) :=
  match text.dropWhile isLiteralChar with
  | '\'' :: rest => some (String.ofList (text.takeWhile isLiteralChar), rest)
  | _ => none

def countQuotes (quote : Char) (text : List Char) : Nat :=
  (text.takeWhile (· == quote)).length

/-- Three quotes end a string of several lines, and two more may stand before
them; fewer than three stand for themselves. -/
def takeQuotes? (quote : Char) (text : List Char) : Option (Nat × Bool × List Char) :=
  let count := countQuotes quote text
  let rest := text.drop count
  if count < 3 then some (count, false, rest)
  else if count ≤ 5 then some (count - 3, true, rest)
  else none

/-- The line break and the blanks after a backslash at the end of a line. -/
def takeContinuation? (text : List Char) : Option (List Char) :=
  (takeNewline? (skipBlanks text)).map fun rest =>
    rest.dropWhile (fun char => isBlank char || char == '\n' || char == '\r')

def takeBasicLines? (done : List Char) : Nat → List Char → Option (String × List Char)
  | 0, _ => none
  | bound + 1, text =>
      match text with
      | '"' :: _ =>
          match takeQuotes? '"' text with
          | some (count, true, rest) =>
              some (String.ofList (List.replicate count '"' ++ done).reverse, rest)
          | some (count, false, rest) =>
              takeBasicLines? (List.replicate count '"' ++ done) bound rest
          | none => none
      | '\\' :: rest =>
          match takeContinuation? rest with
          | some rest => takeBasicLines? done bound rest
          | none =>
              match takeEscape? rest with
              | some (char, rest) => takeBasicLines? (char :: done) bound rest
              | none => none
      | char :: rest =>
          match takeNewline? text with
          | some rest => takeBasicLines? ('\n' :: done) bound rest
          | none => if isBasicChar char then takeBasicLines? (char :: done) bound rest else none
      | [] => none

def takeLiteralLines? (done : List Char) : Nat → List Char → Option (String × List Char)
  | 0, _ => none
  | bound + 1, text =>
      match text with
      | '\'' :: _ =>
          match takeQuotes? '\'' text with
          | some (count, true, rest) =>
              some (String.ofList (List.replicate count '\'' ++ done).reverse, rest)
          | some (count, false, rest) =>
              takeLiteralLines? (List.replicate count '\'' ++ done) bound rest
          | none => none
      | char :: rest =>
          match takeNewline? text with
          | some rest => takeLiteralLines? ('\n' :: done) bound rest
          | none => if isLiteralChar char then takeLiteralLines? (char :: done) bound rest else none
      | [] => none

def skipNewline (text : List Char) : List Char :=
  (takeNewline? text).getD text

def takeLineString? (text : List Char) : Option (String × List Char) :=
  match text with
  | '"' :: rest => takeBasic? [] (rest.length + 1) rest
  | '\'' :: rest => takeLiteral? rest
  | _ => none

def takeString? (text : List Char) : Option (String × List Char) :=
  match text with
  | '"' :: '"' :: '"' :: rest => takeBasicLines? [] (rest.length + 1) (skipNewline rest)
  | '\'' :: '\'' :: '\'' :: rest => takeLiteralLines? [] (rest.length + 1) (skipNewline rest)
  | _ => takeLineString? text

/-! ### Keys -/

def isBareChar (char : Char) : Bool :=
  char.isAlphanum || char == '-' || char == '_'

def takeKeyPart? (text : List Char) : Option (String × List Char) :=
  match text with
  | '"' :: _ | '\'' :: _ => takeLineString? text
  | _ =>
      let name := text.takeWhile isBareChar
      if name.isEmpty then none else some (String.ofList name, text.dropWhile isBareChar)

def keyLimit : Nat := 80

/-- The parts of a key, with points and blanks between them. -/
def takeKey? : Nat → List Char → Option (List String × List Char)
  | 0, _ => none
  | bound + 1, text => do
      let (part, rest) ← takeKeyPart? (skipBlanks text)
      match skipBlanks rest with
      | '.' :: rest => do
          let (parts, rest) ← takeKey? bound rest
          return (part :: parts, rest)
      | rest => return ([part], rest)

end BuildWatch.Toml
