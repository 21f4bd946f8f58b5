import BuildWatch.Decimal.Shortest
import BuildWatch.Json.Parser

/-!
JSON values.  Reading a document freely forgets how it was spelled: an object
becomes a map, sorted by key and with the last of several equal keys, and a
number becomes an integer or a binary number.
-/

namespace BuildWatch.Json

open BuildWatch.Decimal

/-- A number: an integer of at most 64 bits, or a binary number. -/
inductive Number where
  | int (value : Int)
  | real (value : Binary64)
deriving Repr, DecidableEq

inductive Value where
  | null
  | bool (value : Bool)
  | number (value : Number)
  | string (value : String)
  | array (items : List Value)
  | object (members : List (String × Value))
deriving Repr

instance : Inhabited Value := ⟨.null⟩

/-! ### Numbers -/

/-- Digits are gathered as long as they fit into 64 bits. -/
def gatherLimit : Nat := Nat.pow 2 64

/-- Digits gathered after a number, and the digits that no longer fit. -/
def gather (number : Nat) : List Nat → Nat × List Nat
  | [] => (number, [])
  | digit :: rest =>
      if number * 10 + digit < gatherLimit then gather (number * 10 + digit) rest
      else (number, digit :: rest)

/-- The binary number nearest to a power of ten, up to the largest in range. -/
def powerOfTen (exponent : Nat) : Binary64 :=
  (Binary64.ofQuotient? false (Nat.pow 10 exponent) 1).getD (Binary64.zero false)

/-- The greatest power of ten that is used in one multiplication or division. -/
def greatestPower : Nat := 308

/-- A binary number scaled by a power of ten.  Large negative powers are applied
in several divisions, so two of them suffice to reach zero. -/
def scaleByTen? (number : Binary64) (exponent : Int) : Nat → Option Binary64
  | 0 => some (Binary64.zero false)
  | divisions + 1 =>
      if exponent.natAbs ≤ greatestPower then
        let power := powerOfTen exponent.natAbs
        if 0 ≤ exponent then Binary64.mul? number power else Binary64.div? number power
      else if number.isZero then some number
      else if 0 ≤ exponent then none
      else
        match Binary64.div? number (powerOfTen greatestPower) with
        | some number => scaleByTen? number (exponent + greatestPower) divisions
        | none => none

def exponentLimit : Nat := Nat.pow 2 31

/-- The exponent written by some digits, if it is not past the limit. -/
def exponentOfDigits? (digits : List Nat) : Option Nat :=
  let value := digits.foldl (fun value digit => value * 10 + digit) 0
  if value < exponentLimit then some value else none

/-- The binary number a literal with many digits, a fraction or an exponent
denotes: the digits that fit are rounded, then scaled by a power of ten and
rounded again.  There is none past the range of the format. -/
def NumberLiteral.real? (literal : NumberLiteral) : Option Binary64 := do
  let (significand, dropped) := gather 0 literal.whole
  let (significand, unused) := gather significand literal.fraction
  let shift : Int := (dropped.length : Int) - ((literal.fraction.length - unused.length : Nat) : Int)
  let start ← Binary64.ofQuotient? false significand 1
  match literal.exponent with
  | none => return (← scaleByTen? start shift 4).withSign literal.negative
  | some (negative, digits) =>
      match exponentOfDigits? digits with
      | some exponent =>
          let exponent : Int := if negative then shift - exponent else shift + exponent
          return (← scaleByTen? start exponent 4).withSign literal.negative
      | none =>
          if significand != 0 && !negative then none
          else return Binary64.zero literal.negative

/-- The number a literal denotes.  Integers that fit stay integers; a negative
zero is a binary number. -/
def NumberLiteral.number? (literal : NumberLiteral) : Option Number :=
  if literal.fraction.isEmpty && literal.exponent.isNone then
    match gather 0 literal.whole with
    | (value, []) =>
        if !literal.negative then some (.int value)
        else if value != 0 && value ≤ Nat.pow 2 63 then some (.int (-(value : Int)))
        else literal.real?.map .real
    | _ => literal.real?.map .real
  else literal.real?.map .real

/-! ### Maps -/

/-- Put a member into a list sorted by key, in place of one with the same key. -/
def insertMember (key : String) (value : Value) :
    List (String × Value) → List (String × Value)
  | [] => [(key, value)]
  | member :: rest =>
      if key < member.1 then (key, value) :: member :: rest
      else if key = member.1 then (key, value) :: rest
      else member :: insertMember key value rest

/-- The map of a list of members: sorted by key, the last of equal keys kept. -/
def mapOfMembers (members : List (String × Value)) : List (String × Value) :=
  members.foldl (fun map member => insertMember member.1 member.2 map) []

/-! ### Free values -/

mutual

def Value.ofDocument? : Document → Option Value
  | .null => some .null
  | .bool value => some (.bool value)
  | .number literal => literal.number?.map .number
  | .string literal => literal.text?.map .string
  | .array items => (Value.ofItems? items).map .array
  | .object members => (Value.ofMembers? members).map (fun members => .object (mapOfMembers members))

def Value.ofItems? : List Document → Option (List Value)
  | [] => some []
  | item :: rest => do
      let value ← Value.ofDocument? item
      let values ← Value.ofItems? rest
      return value :: values

def Value.ofMembers? : List (Literal × Document) → Option (List (String × Value))
  | [] => some []
  | member :: rest => do
      let member ← Value.ofMember? member
      let members ← Value.ofMembers? rest
      return member :: members

def Value.ofMember? : Literal × Document → Option (String × Value)
  | (key, document) => do
      let key ← key.text?
      let value ← Value.ofDocument? document
      return (key, value)

end

/-- Read a document as a free value, at most `room` levels deep. -/
def Document.value? (document : Document) (room : Nat) : Option Value :=
  if document.depth ≤ room then Value.ofDocument? document else none

def Value.ofText? (text : String) : Option Value := do
  let document ← Document.ofText? text
  document.value? nestingLimit

/-! ### Sorted output -/

mutual

def Value.sorted : Value → Value
  | .array items => .array (Value.sortedItems items)
  | .object members => .object (mapOfMembers (Value.sortedMembers members))
  | value => value

def Value.sortedItems : List Value → List Value
  | [] => []
  | item :: rest => item.sorted :: Value.sortedItems rest

def Value.sortedMembers : List (String × Value) → List (String × Value)
  | [] => []
  | member :: rest => Value.sortedMember member :: Value.sortedMembers rest

def Value.sortedMember : String × Value → String × Value
  | (key, value) => (key, value.sorted)

end

end BuildWatch.Json
