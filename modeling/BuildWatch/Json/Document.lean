import BuildWatch.Text.Utf8

/-!
JSON documents as they are written.  A document keeps the members of an object
in order and with their repetitions, and keeps strings and numbers as they
were spelled: whether a string denotes a text and a number denotes a value is
asked only by readers that need the text or the value.
-/

namespace BuildWatch.Json

inductive Piece where
  | char (value : Char)
  /-- A code unit of sixteen bits, written with four hexadecimal digits. -/
  | unit (value : Nat)
  | stray
deriving Repr, DecidableEq

abbrev Literal := List Piece

def pairedChar (high low : Nat) : Char :=
  Char.ofNat (0x10000 + (high - 0xD800) * 0x400 + (low - 0xDC00))

/-- The characters a literal denotes, after those in `done` (in reverse).  Every
surrogate must be half of a pair. -/
def Literal.chars? (done : List Char) : Literal → Option (List Char)
  | [] => some done.reverse
  | .char value :: rest => Literal.chars? (value :: done) rest
  | .stray :: _ => none
  | .unit high :: rest =>
      if 0xD800 ≤ high ∧ high ≤ 0xDBFF then
        match rest with
        | .unit low :: rest' =>
            if 0xDC00 ≤ low ∧ low ≤ 0xDFFF then
              Literal.chars? (pairedChar high low :: done) rest'
            else none
        | _ => none
      else if 0xDC00 ≤ high ∧ high ≤ 0xDFFF then none
      else Literal.chars? (Char.ofNat high :: done) rest

def Literal.text? (literal : Literal) : Option String :=
  (Literal.chars? [] literal).map String.ofList

/-- A number as written: its digits in three groups. -/
structure NumberLiteral where
  negative : Bool
  whole : List Nat
  fraction : List Nat := []
  exponent : Option (Bool × List Nat) := none
deriving Repr, DecidableEq

inductive Document where
  | null
  | bool (value : Bool)
  | number (literal : NumberLiteral)
  | string (literal : Literal)
  | array (items : List Document)
  | object (members : List (Literal × Document))
deriving Repr

instance : Inhabited Document := ⟨.null⟩

def nestingLimit : Nat := 127

mutual

def Document.depth : Document → Nat
  | .array items => Document.itemsDepth items + 1
  | .object members => Document.membersDepth members + 1
  | _ => 0

def Document.itemsDepth : List Document → Nat
  | [] => 0
  | item :: rest => max item.depth (Document.itemsDepth rest)

def Document.membersDepth : List (Literal × Document) → Nat
  | [] => 0
  | member :: rest => max (Document.memberDepth member) (Document.membersDepth rest)

def Document.memberDepth : Literal × Document → Nat
  | (_, document) => document.depth

end

end BuildWatch.Json
