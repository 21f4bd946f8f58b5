import BuildWatch.Json.Value

/-!
Writing JSON.  A compact text has no blanks at all; an indented one puts every
item and member on a line of its own, two blanks further in.
-/

namespace BuildWatch.Json

open BuildWatch.Decimal

/-! ### Numbers -/

structure NumberForm where
  /-- The decimal point may stand at most so far right of the first digit. -/
  greatestPoint : Int
  /-- It may stand fewer than so many places left of the first digit. -/
  leastPoint : Int
deriving Repr, DecidableEq

/-- Numbers from `1e-5` up to below `1e16` are written with a point, others with a
signed exponent; a point is followed by at least one digit. -/
def numberForm : NumberForm := { greatestPoint := 16, leastPoint := -5 }

def digitsOf (number : Nat) : List Char :=
  Nat.toDigits 10 number

def renderInt : Int → List Char
  | .ofNat value => digitsOf value
  | .negSucc value => '-' :: digitsOf (value + 1)

def renderDecimal (form : NumberForm) (numeral : Numeral) : List Char :=
  let digits := digitsOf numeral.digits
  let point := (digits.length : Int) + numeral.exponent
  if 0 ≤ numeral.exponent ∧ point ≤ form.greatestPoint then
    digits ++ List.replicate numeral.exponent.toNat '0' ++ ['.', '0']
  else if 0 < point ∧ point ≤ form.greatestPoint then
    digits.take point.toNat ++ '.' :: digits.drop point.toNat
  else if form.leastPoint < point ∧ point ≤ 0 then
    '0' :: '.' :: List.replicate (-point).toNat '0' ++ digits
  else
    let mantissa :=
      match digits with
      | [] => []
      | [digit] => [digit]
      | digit :: rest => digit :: '.' :: rest
    let exponent := point - 1
    mantissa ++ 'e' :: (if exponent < 0 then '-' else '+') :: digitsOf exponent.natAbs

def renderReal (number : Binary64) : List Char :=
  let sign := if number.negative then ['-'] else []
  if number.isZero then sign ++ ['0', '.', '0']
  else sign ++ renderDecimal numberForm number.shortest

def Number.render : Number → List Char
  | .int value => renderInt value
  | .real value => renderReal value

/-! ### Strings -/

def hexDigit (value : Nat) : Char :=
  if value < 10 then Char.ofNat ('0'.toNat + value) else Char.ofNat ('a'.toNat + (value - 10))

/-- One character inside a string: quotes, backslashes and control characters
are escaped, all else stands for itself. -/
def escapeChar (char : Char) : List Char :=
  if char = '"' then ['\\', '"']
  else if char = '\\' then ['\\', '\\']
  else if char = '\x08' then ['\\', 'b']
  else if char = '\x0c' then ['\\', 'f']
  else if char = '\n' then ['\\', 'n']
  else if char = '\r' then ['\\', 'r']
  else if char = '\t' then ['\\', 't']
  else if char < ' ' then
    ['\\', 'u', '0', '0', hexDigit (char.toNat / 16), hexDigit (char.toNat % 16)]
  else [char]

def renderString (text : String) : List Char :=
  '"' :: (text.toList.flatMap escapeChar ++ ['"'])

/-! ### Compact texts -/

mutual

def Value.render : Value → List Char
  | .null => ['n', 'u', 'l', 'l']
  | .bool true => ['t', 'r', 'u', 'e']
  | .bool false => ['f', 'a', 'l', 's', 'e']
  | .number value => value.render
  | .string value => renderString value
  | .array items => '[' :: (Value.renderItems items ++ [']'])
  | .object members => '{' :: (Value.renderMembers members ++ ['}'])

def Value.renderItems : List Value → List Char
  | [] => []
  | [item] => item.render
  | item :: rest => item.render ++ ',' :: Value.renderItems rest

def Value.renderMembers : List (String × Value) → List Char
  | [] => []
  | [member] => Value.renderMember member
  | member :: rest => Value.renderMember member ++ ',' :: Value.renderMembers rest

def Value.renderMember : String × Value → List Char
  | (key, value) => renderString key ++ ':' :: value.render

end

def Value.text (value : Value) : String :=
  String.ofList value.render

/-! ### Indented texts -/

def newLine (level : Nat) : List Char :=
  '\n' :: List.replicate (2 * level) ' '

mutual

def Value.indented (level : Nat) : Value → List Char
  | .array [] => ['[', ']']
  | .object [] => ['{', '}']
  | .array items => '[' :: (Value.indentedItems (level + 1) items ++ newLine level ++ [']'])
  | .object members =>
      '{' :: (Value.indentedMembers (level + 1) members ++ newLine level ++ ['}'])
  | .null => Value.render .null
  | .bool value => Value.render (.bool value)
  | .number value => value.render
  | .string value => renderString value

def Value.indentedItems (level : Nat) : List Value → List Char
  | [] => []
  | [item] => newLine level ++ item.indented level
  | item :: rest =>
      newLine level ++ item.indented level ++ ',' :: Value.indentedItems level rest

def Value.indentedMembers (level : Nat) : List (String × Value) → List Char
  | [] => []
  | [member] => newLine level ++ Value.indentedMember level member
  | member :: rest =>
      newLine level ++ Value.indentedMember level member ++ ',' :: Value.indentedMembers level rest

def Value.indentedMember (level : Nat) : String × Value → List Char
  | (key, value) => renderString key ++ ':' :: ' ' :: value.indented level

end

def Value.indentedText (value : Value) : String :=
  String.ofList (value.indented 0)

end BuildWatch.Json
