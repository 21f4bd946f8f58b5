import BuildWatch.Json.Document

/-!
Reading the JSON grammar.  A text is cut into tokens, and the tokens drive a
machine that holds the arrays and objects still open.  Both steps consume their
input once from left to right.
-/

namespace BuildWatch.Json

inductive Token where
  | openArray
  | closeArray
  | openObject
  | closeObject
  | comma
  | colon
  | null
  | bool (value : Bool)
  | number (literal : NumberLiteral)
  | string (literal : Literal)
deriving Repr, DecidableEq

/-! ### Tokens -/

def isSpace (char : Char) : Bool :=
  char == ' ' || char == '\n' || char == '\t' || char == '\r'

def punctuation? : Char → Option Token
  | '[' => some .openArray
  | ']' => some .closeArray
  | '{' => some .openObject
  | '}' => some .closeObject
  | ',' => some .comma
  | ':' => some .colon
  | _ => none

def hexDigit? (char : Char) : Option Nat :=
  if '0' ≤ char ∧ char ≤ '9' then some (char.toNat - '0'.toNat)
  else if 'a' ≤ char ∧ char ≤ 'f' then some (char.toNat - 'a'.toNat + 10)
  else if 'A' ≤ char ∧ char ≤ 'F' then some (char.toNat - 'A'.toNat + 10)
  else none

/-- The characters a backslash introduces, `u` apart. -/
def escaped? : Char → Option Char
  | '"' => some '"'
  | '\\' => some '\\'
  | '/' => some '/'
  | 'b' => some '\x08'
  | 'f' => some '\x0c'
  | 'n' => some '\n'
  | 'r' => some '\r'
  | 't' => some '\t'
  | _ => none

def codeUnit? (a b c d : Char) : Option Nat := do
  let a ← hexDigit? a
  let b ← hexDigit? b
  let c ← hexDigit? c
  let d ← hexDigit? d
  return ((a * 16 + b) * 16 + c) * 16 + d

/-- The literal up to the closing quote, and what follows it.  The pieces in
`done` stand in reverse. -/
def stringBody? (done : List Piece) : Text.Source → Option (Literal × Text.Source)
  | some '"' :: rest => some (done.reverse, rest)
  | some '\\' :: some 'u' :: some a :: some b :: some c :: some d :: rest =>
      match codeUnit? a b c d with
      | some unit => stringBody? (.unit unit :: done) rest
      | none => none
  | some '\\' :: some char :: rest =>
      match escaped? char with
      | some char => stringBody? (.char char :: done) rest
      | none => none
  | some '\\' :: _ => none
  | some char :: rest =>
      if char < ' ' then none else stringBody? (.char char :: done) rest
  | none :: rest => stringBody? (.stray :: done) rest
  | [] => none

def isWordChar (char : Char) : Bool :=
  char.isAlphanum || char == '+' || char == '-' || char == '.'

def takeWord (done : List Char) : Text.Source → List Char × Text.Source
  | some char :: rest =>
      if isWordChar char then takeWord (char :: done) rest
      else (done.reverse, some char :: rest)
  | source => (done.reverse, source)

def digitValue (char : Char) : Nat := char.toNat - '0'.toNat

def takeDigits (word : List Char) : List Nat × List Char :=
  ((word.takeWhile Char.isDigit).map digitValue, word.dropWhile Char.isDigit)

/-- Some digits with no leading zero, or a zero alone. -/
def isWhole : List Nat → Bool
  | [] => false
  | [_] => true
  | first :: _ => first != 0

/-- The exponent of a number, to the end of its word. -/
def exponentOfWord? (word : List Char) : Option (Option (Bool × List Nat)) :=
  match word with
  | [] => some none
  | mark :: rest =>
      if mark == 'e' || mark == 'E' then
        let (negative, digits) :=
          match rest with
          | '-' :: digits => (true, digits)
          | '+' :: digits => (false, digits)
          | digits => (false, digits)
        if !digits.isEmpty && digits.all Char.isDigit then
          some (some (negative, digits.map digitValue))
        else none
      else none

def NumberLiteral.ofWord? (word : List Char) : Option NumberLiteral := do
  let (negative, word) :=
    match word with
    | '-' :: rest => (true, rest)
    | rest => (false, rest)
  let (whole, word) := takeDigits word
  if !isWhole whole then none
  match word with
  | '.' :: rest =>
      let (fraction, rest) := takeDigits rest
      if fraction.isEmpty then none
      let exponent ← exponentOfWord? rest
      return { negative, whole, fraction, exponent }
  | rest =>
      let exponent ← exponentOfWord? rest
      return { negative, whole, exponent }

def Token.ofWord? (word : List Char) : Option Token :=
  if word == ['n', 'u', 'l', 'l'] then some .null
  else if word == ['t', 'r', 'u', 'e'] then some (.bool true)
  else if word == ['f', 'a', 'l', 's', 'e'] then some (.bool false)
  else (NumberLiteral.ofWord? word).map .number

theorem stringBody?_length {done : List Piece} {source : Text.Source} {literal : Literal}
    {rest : Text.Source} (hBody : stringBody? done source = some (literal, rest)) :
    rest.length < source.length := by
  fun_induction stringBody? done source <;> simp_all <;> omega

theorem takeWord_length (done : List Char) (source : Text.Source) :
    (takeWord done source).2.length ≤ source.length := by
  fun_induction takeWord done source <;> simp_all
  omega

/-- The tokens of a text, after those in `done` (in reverse). -/
def tokensFrom? (done : List Token) (source : Text.Source) : Option (List Token) :=
  match source with
  | [] => some done.reverse
  | none :: _ => none
  | some char :: rest =>
      if isSpace char then tokensFrom? done rest
      else if char = '"' then
        match _hBody : stringBody? [] rest with
        | some (literal, rest') => tokensFrom? (.string literal :: done) rest'
        | none => none
      else
        match punctuation? char with
        | some token => tokensFrom? (token :: done) rest
        | none =>
            if isWordChar char then
              match Token.ofWord? (takeWord [char] rest).1 with
              | some token => tokensFrom? (token :: done) (takeWord [char] rest).2
              | none => none
            else none
termination_by source.length
decreasing_by
  · simp
  · have hShorter := stringBody?_length _hBody
    simp only [List.length_cons]
    omega
  · simp
  · have hShorter := takeWord_length [char] rest
    simp only [List.length_cons]
    omega

def tokens? (source : Text.Source) : Option (List Token) :=
  tokensFrom? [] source

/-! ### Documents -/

/-- An array or object still open; what it holds so far stands in reverse. -/
inductive Frame where
  | array (before : List Document)
  | object (before : List (Literal × Document)) (key : Literal)
deriving Repr

/-- What the machine has seen, innermost frame first. -/
inductive State where
  | expectValue (frames : List Frame)
  | expectItem (frames : List Frame)
  /-- A key must follow; the object may also end here if it was just opened. -/
  | expectKey (frames : List Frame) (before : List (Literal × Document)) (opened : Bool)
  | expectColon (frames : List Frame) (before : List (Literal × Document)) (key : Literal)
  | complete (frames : List Frame) (document : Document)
deriving Repr

def State.start? (frames : List Frame) : Token → Option State
  | .null => some (.complete frames .null)
  | .bool value => some (.complete frames (.bool value))
  | .number literal => some (.complete frames (.number literal))
  | .string literal => some (.complete frames (.string literal))
  | .openArray => some (.expectItem frames)
  | .openObject => some (.expectKey frames [] true)
  | _ => none

def State.next? : State → Token → Option State
  | .expectValue frames, token => State.start? frames token
  | .expectItem frames, .closeArray => some (.complete frames (.array []))
  | .expectItem frames, token => State.start? (.array [] :: frames) token
  | .expectKey frames before _, .string literal => some (.expectColon frames before literal)
  | .expectKey frames _ true, .closeObject => some (.complete frames (.object []))
  | .expectColon frames before key, .colon => some (.expectValue (.object before key :: frames))
  | .complete (.array before :: frames) document, .comma =>
      some (.expectValue (.array (document :: before) :: frames))
  | .complete (.array before :: frames) document, .closeArray =>
      some (.complete frames (.array (document :: before).reverse))
  | .complete (.object before key :: frames) document, .comma =>
      some (.expectKey frames ((key, document) :: before) false)
  | .complete (.object before key :: frames) document, .closeObject =>
      some (.complete frames (.object ((key, document) :: before).reverse))
  | _, _ => none

def State.feed? (state : State) : List Token → Option State
  | [] => some state
  | token :: rest =>
      match state.next? token with
      | some state => State.feed? state rest
      | none => none

def State.document? : State → Option Document
  | .complete [] document => some document
  | _ => none

def Document.ofSource? (source : Text.Source) : Option Document := do
  let tokens ← tokens? source
  let state ← State.feed? (.expectValue []) tokens
  state.document?

def Document.ofText? (text : String) : Option Document :=
  Document.ofSource? (Text.Source.ofChars text.toList)

/-- The document of a byte sequence; ill-formed bytes may stand in strings only. -/
def Document.ofBytes? (bytes : List UInt8) : Option Document :=
  Document.ofSource? (Text.Utf8.decode bytes)

end BuildWatch.Json
