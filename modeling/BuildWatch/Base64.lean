/-!
Base64 with the standard alphabet and padding.  Decoding is strict: the text is
made of groups of four, the last one may be padded, and the bits a padded group
does not use must be zero, so every byte sequence has exactly one spelling.
-/

namespace BuildWatch.Base64

def digit? (char : Char) : Option Nat :=
  if 'A' ≤ char ∧ char ≤ 'Z' then some (char.toNat - 'A'.toNat)
  else if 'a' ≤ char ∧ char ≤ 'z' then some (char.toNat - 'a'.toNat + 26)
  else if '0' ≤ char ∧ char ≤ '9' then some (char.toNat - '0'.toNat + 52)
  else if char = '+' then some 62
  else if char = '/' then some 63
  else none

def digitChar (value : Nat) : Char :=
  if value < 26 then Char.ofNat ('A'.toNat + value)
  else if value < 52 then Char.ofNat ('a'.toNat + (value - 26))
  else if value < 62 then Char.ofNat ('0'.toNat + (value - 52))
  else if value = 62 then '+'
  else '/'

def byteOf (value : Nat) : UInt8 := UInt8.ofNat (value % 256)

/-- The bytes of a text, after those in `done` (in reverse). -/
def decodeFrom? (done : List UInt8) : List Char → Option (List UInt8)
  | [] => some done.reverse
  | [a, b, '=', '='] => do
      let a ← digit? a
      let b ← digit? b
      if b % 16 ≠ 0 then none
      return (byteOf (a * 4 + b / 16) :: done).reverse
  | [a, b, c, '='] => do
      let a ← digit? a
      let b ← digit? b
      let c ← digit? c
      if c % 4 ≠ 0 then none
      return (byteOf (b * 16 + c / 4) :: byteOf (a * 4 + b / 16) :: done).reverse
  | a :: b :: c :: d :: rest =>
      match digit? a, digit? b, digit? c, digit? d with
      | some a, some b, some c, some d =>
          decodeFrom?
            (byteOf (c * 64 + d) :: byteOf (b * 16 + c / 4) :: byteOf (a * 4 + b / 16) :: done)
            rest
      | _, _, _, _ => none
  | _ => none

def decode? (text : String) : Option (List UInt8) :=
  decodeFrom? [] text.toList

def encodeList : List UInt8 → List Char
  | [] => []
  | [a] =>
      let a := a.toNat
      [digitChar (a / 4), digitChar (a % 4 * 16), '=', '=']
  | [a, b] =>
      let a := a.toNat
      let b := b.toNat
      [digitChar (a / 4), digitChar (a % 4 * 16 + b / 16), digitChar (b % 16 * 4), '=']
  | a :: b :: c :: rest =>
      let a := a.toNat
      let b := b.toNat
      let c := c.toNat
      digitChar (a / 4) :: digitChar (a % 4 * 16 + b / 16) :: digitChar (b % 16 * 4 + c / 64) ::
        digitChar (c % 64) :: encodeList rest

def encode (bytes : List UInt8) : String :=
  String.ofList (encodeList bytes)

end BuildWatch.Base64
