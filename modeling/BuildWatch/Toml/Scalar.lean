import BuildWatch.Decimal.Binary64
import BuildWatch.Toml.Text

/-!
The numbers, dates and times of TOML.
-/

namespace BuildWatch.Toml

open BuildWatch.Decimal

/-- A value without parts.  Of floating-point numbers and of points in time only
the kind is kept. -/
inductive Scalar where
  | string (value : String)
  | integer (value : Int)
  | float
  | boolean (value : Bool)
  | moment
deriving Repr, DecidableEq

/-! ### Numbers -/

def takeDigits (isDigit : Char → Bool) : List Char → List Char × List Char
  | '_' :: char :: rest =>
      if isDigit char then
        let (digits, rest) := takeDigits isDigit rest
        (char :: digits, rest)
      else ([], '_' :: char :: rest)
  | char :: rest =>
      if isDigit char then
        let (digits, rest) := takeDigits isDigit rest
        (char :: digits, rest)
      else ([], char :: rest)
  | [] => ([], [])

/-- One digit at least, with single underscores between digits. -/
def takeSomeDigits? (isDigit : Char → Bool) (text : List Char) : Option (List Char × List Char) :=
  match text with
  | char :: _ => if isDigit char then some (takeDigits isDigit text) else none
  | [] => none

def takeSign : List Char → Bool × List Char
  | '-' :: rest => (true, rest)
  | '+' :: rest => (false, rest)
  | text => (false, text)

/-- The digits of a decimal integer, which has no leading zero. -/
def takeWhole? (text : List Char) : Option (List Char × List Char) :=
  match text with
  | '0' :: rest => some (['0'], rest)
  | _ => takeSomeDigits? Char.isDigit text

def valueOf (base : Nat) (digits : List Char) : Nat :=
  digits.foldl (fun value char => value * base + (hexDigit? char).getD 0) 0

def integerOf? (negative : Bool) (value : Nat) : Option Int :=
  if negative then if value ≤ Nat.pow 2 63 then some (-(value : Int)) else none
  else if value < Nat.pow 2 63 then some value else none

def takeBased? (base : Nat) (isDigit : Char → Bool) (text : List Char) : Option (Scalar × List Char) := do
  let (digits, rest) ← takeSomeDigits? isDigit text
  let value ← integerOf? false (valueOf base digits)
  return (.integer value, rest)

def takeInteger? (text : List Char) : Option (Scalar × List Char) :=
  match text with
  | '0' :: 'x' :: rest => takeBased? 16 (fun char => (hexDigit? char).isSome) rest
  | '0' :: 'o' :: rest => takeBased? 8 (fun char => '0' ≤ char && char ≤ '7') rest
  | '0' :: 'b' :: rest => takeBased? 2 (fun char => char == '0' || char == '1') rest
  | _ => do
      let (negative, rest) := takeSign text
      let (digits, rest) ← takeWhole? rest
      let value ← integerOf? negative (valueOf 10 digits)
      return (.integer value, rest)

def takeExponent? (text : List Char) : Option (Int × List Char) :=
  match text with
  | mark :: rest =>
      if mark == 'e' || mark == 'E' then do
        let (negative, rest) := takeSign rest
        let (digits, rest) ← takeSomeDigits? Char.isDigit rest
        let value : Int := valueOf 10 digits
        return (if negative then -value else value, rest)
      else some (0, text)
  | [] => some (0, text)

def isInRange (digits : List Char) (exponent : Int) : Bool :=
  let value := valueOf 10 digits
  if value = 0 then true
  else if 400 < (digits.length : Int) + exponent then
    (400 < (digits.dropWhile (· == '0')).length + exponent) == false
  else if (digits.length : Int) + exponent < 0 then true
  else if 0 ≤ exponent then (Binary64.ofQuotient? false (value * Nat.pow 10 exponent.toNat) 1).isSome
  else (Binary64.ofQuotient? false value (Nat.pow 10 (-exponent).toNat)).isSome

/-- A floating-point number with a fraction or an exponent.  One too large for
the format is refused if it is positive. -/
def takeDecimal? (text : List Char) : Option (Scalar × List Char) := do
  let (negative, rest) := takeSign text
  let (whole, rest) ← takeWhole? rest
  match rest with
  | '.' :: rest => do
      let (fraction, rest) ← takeSomeDigits? Char.isDigit rest
      let (exponent, rest) ← takeExponent? rest
      if negative || isInRange (whole ++ fraction) (exponent - fraction.length) then
        return (.float, rest)
      else none
  | mark :: _ =>
      if mark == 'e' || mark == 'E' then do
        let (exponent, rest) ← takeExponent? rest
        if negative || isInRange whole exponent then return (.float, rest) else none
      else none
  | [] => none

def takeSpecial? (text : List Char) : Option (Scalar × List Char) :=
  match (takeSign text).2 with
  | 'i' :: 'n' :: 'f' :: rest => some (.float, rest)
  | 'n' :: 'a' :: 'n' :: rest => some (.float, rest)
  | _ => none

/-! ### Dates and times -/

def takeFixed? (count : Nat) (text : List Char) : Option (Nat × List Char) :=
  let digits := text.take count
  if digits.length = count && digits.all Char.isDigit then
    some (valueOf 10 digits, text.drop count)
  else none

def takeChar? (char : Char) : List Char → Option (List Char)
  | first :: rest => if first = char then some rest else none
  | [] => none

def daysIn (year month : Nat) : Nat :=
  if month = 2 then
    if year % 4 = 0 && (year % 100 ≠ 0 || year % 400 = 0) then 29 else 28
  else if month = 4 || month = 6 || month = 9 || month = 11 then 30
  else 31

def takeDate? (text : List Char) : Option (List Char) := do
  let (year, rest) ← takeFixed? 4 text
  let rest ← takeChar? '-' rest
  let (month, rest) ← takeFixed? 2 rest
  let rest ← takeChar? '-' rest
  let (day, rest) ← takeFixed? 2 rest
  if 1 ≤ month && month ≤ 12 && 1 ≤ day && day ≤ daysIn year month then some rest else none

/-- A time of day; the last second of a day may be a leap second. -/
def takeTime? (text : List Char) : Option (List Char) := do
  let (hour, rest) ← takeFixed? 2 text
  let rest ← takeChar? ':' rest
  let (minute, rest) ← takeFixed? 2 rest
  let rest ← takeChar? ':' rest
  let (second, rest) ← takeFixed? 2 rest
  if 23 < hour || 59 < minute || 60 < second then none
  match rest with
  | '.' :: rest' =>
      let digits := rest'.takeWhile Char.isDigit
      if digits.isEmpty then some rest else some (rest'.dropWhile Char.isDigit)
  | _ => some rest

def skipOffset (text : List Char) : List Char :=
  match text with
  | 'Z' :: rest | 'z' :: rest => rest
  | sign :: rest =>
      if sign == '+' || sign == '-' then
        let offset := do
          let (hour, rest) ← takeFixed? 2 rest
          let rest ← takeChar? ':' rest
          let (minute, rest) ← takeFixed? 2 rest
          if 23 < hour || 59 < minute then none else some rest
        offset.getD text
      else text
  | [] => []

def takeMoment? (text : List Char) : Option (Scalar × List Char) :=
  match takeDate? text with
  | some rest =>
      match rest with
      | mark :: rest' =>
          if mark == 'T' || mark == 't' || mark == ' ' then
            match takeTime? rest' with
            | some rest => some (.moment, skipOffset rest)
            | none => some (.moment, rest)
          else some (.moment, rest)
      | [] => some (.moment, [])
  | none => (takeTime? text).map fun rest => (.moment, rest)

def takeNumeric? (text : List Char) : Option (Scalar × List Char) :=
  (takeMoment? text).or ((takeDecimal? text).or ((takeSpecial? text).or (takeInteger? text)))

def takeBoolean? : List Char → Option (Scalar × List Char)
  | 't' :: 'r' :: 'u' :: 'e' :: rest => some (.boolean true, rest)
  | 'f' :: 'a' :: 'l' :: 's' :: 'e' :: rest => some (.boolean false, rest)
  | _ => none

def takeScalar? (text : List Char) : Option (Scalar × List Char) :=
  match text with
  | '"' :: _ | '\'' :: _ => (takeString? text).map fun taken => (.string taken.1, taken.2)
  | char :: _ =>
      if char.isDigit || char == '+' || char == '-' then takeNumeric? text
      else if char == 'i' || char == 'n' then takeSpecial? text
      else takeBoolean? text
  | [] => none

end BuildWatch.Toml
