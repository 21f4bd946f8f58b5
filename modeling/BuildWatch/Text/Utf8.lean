/-!
UTF-8.  Bytes that come from outside need not be text, so decoding never
fails: it keeps the characters and marks every maximal run of bytes that
belongs to no character.
-/

namespace BuildWatch.Text

/-- Characters as they arrived; `none` stands for bytes that are no text. -/
abbrev Source := List (Option Char)

namespace Utf8

/-- What a leading byte promises: the value bits it carries, the number of
continuation bytes and the range of the first of them. -/
structure Lead where
  bits : Nat
  following : Nat
  low : Nat
  high : Nat
deriving Repr, DecidableEq

def Lead.ofByte? (byte : Nat) : Option Lead :=
  if 0xC2 ≤ byte ∧ byte ≤ 0xDF then some ⟨byte - 0xC0, 1, 0x80, 0xBF⟩
  else if byte = 0xE0 then some ⟨0, 2, 0xA0, 0xBF⟩
  else if byte = 0xED then some ⟨byte - 0xE0, 2, 0x80, 0x9F⟩
  else if 0xE1 ≤ byte ∧ byte ≤ 0xEF then some ⟨byte - 0xE0, 2, 0x80, 0xBF⟩
  else if byte = 0xF0 then some ⟨0, 3, 0x90, 0xBF⟩
  else if 0xF1 ≤ byte ∧ byte ≤ 0xF3 then some ⟨byte - 0xF0, 3, 0x80, 0xBF⟩
  else if byte = 0xF4 then some ⟨byte - 0xF0, 3, 0x80, 0x8F⟩
  else none

/-- Where the decoder stands: between characters, or inside one. -/
inductive Stand where
  | between
  | inside (value : Nat) (following : Nat) (low high : Nat)
deriving Repr, DecidableEq

def start (byte : Nat) (done : Source) : Stand × Source :=
  if byte < 0x80 then (.between, some (Char.ofNat byte) :: done)
  else
    match Lead.ofByte? byte with
    | none => (.between, none :: done)
    | some lead => (.inside lead.bits lead.following lead.low lead.high, done)

/-- One byte.  A byte that cannot continue the open character closes it as no
text and is read again between characters. -/
def step (stand : Stand) (byte : Nat) (done : Source) : Stand × Source :=
  match stand with
  | .between => start byte done
  | .inside value following low high =>
      if low ≤ byte ∧ byte ≤ high then
        let value := value * 64 + byte % 64
        match following with
        | 0 | 1 => (.between, some (Char.ofNat value) :: done)
        | following + 1 => (.inside value following 0x80 0xBF, done)
      else start byte (none :: done)

/-- Decode bytes from a given stand; what is decoded so far is held in reverse. -/
def decodeFrom : Stand → Source → List UInt8 → Source
  | .between, done, [] => done.reverse
  | .inside .., done, [] => (none :: done).reverse
  | stand, done, byte :: rest =>
      let next := step stand byte.toNat done
      decodeFrom next.1 next.2 rest

def decode (bytes : List UInt8) : Source :=
  decodeFrom .between [] bytes

def text? (bytes : List UInt8) : Option String :=
  let source := decode bytes
  if source.all Option.isSome then some (String.ofList (source.filterMap id)) else none

/-- The text of a byte sequence with the replacement character for what is no text. -/
def lossyText (bytes : List UInt8) : String :=
  String.ofList ((decode bytes).map (fun char? => char?.getD '\uFFFD'))

end Utf8

def Source.ofChars (chars : List Char) : Source :=
  chars.map some

def bytesOf (text : String) : List UInt8 :=
  text.toUTF8.toList

end BuildWatch.Text
