import BuildWatch.Base64
import BuildWatch.Failure
import BuildWatch.Project.ChangeEvent
import BuildWatch.Text.Blank
import BuildWatch.Zlib.Deflate
import BuildWatch.Zlib.Inflate

/-!
Packed batches of change events: the base64 text of a zlib stream of the JSON
text of a list of events.  Only so many bytes are inflated.
-/

namespace BuildWatch

open BuildWatch.Json

inductive PayloadError where
  | base64
  | inflate
  | json
  | tooLarge (limit : Nat)
deriving Repr, DecidableEq

def PayloadError.message : PayloadError → String
  | .base64 => "payload is not valid base64: " ++ base64Tag
  | .inflate => "failed to inflate payload: " ++ ioTag
  | .json => "payload is not a JSON event array: " ++ jsonTag
  | .tooLarge limit => "inflated payload exceeds " ++ toString limit ++ " bytes"

namespace Payload

def defaultLimit : Nat := 64 * 1024 * 1024

def countBound : Nat := Nat.pow 2 64

/-- The inflater works ahead in windows of this many bytes. -/
def windowSize : Nat := 32768

/-- The room that opens every window one of the first `wanted` bytes lies in. -/
def roomFor (wanted : Nat) : Nat :=
  (wanted + windowSize - 1) / windowSize * windowSize

/-- Inflate, to see whether there are more than `limit` bytes: one byte more is
asked for, a count that starts again at zero past the greatest number. -/
def unpack (stream : ByteArray) (limit : Nat) : Except PayloadError ByteArray :=
  let wanted := (limit + 1) % countBound
  if wanted = 0 then .ok ByteArray.empty
  else
    let inflation := Zlib.inflate stream (roomFor wanted)
    match inflation.halt with
    | some .broken => .error .inflate
    | some .full => .error (.tooLarge limit)
    | some .cutShort =>
        if limit < inflation.bytes.size then .error (.tooLarge limit) else .error .inflate
    | none =>
        if limit < inflation.bytes.size then .error (.tooLarge limit) else .ok inflation.bytes

def eventsOf (bytes : ByteArray) : Except PayloadError (List ChangeEvent) :=
  match (Document.ofBytes? bytes.toList).bind (·.list? ChangeEvent.ofDocument?) with
  | some events => .ok events
  | none => .error .json

def decodeLimited (message : String) (limit : Nat) : Except PayloadError (List ChangeEvent) :=
  match Base64.decode? (Text.trim message) with
  | none => .error .base64
  | some stream => (unpack ⟨stream.toArray⟩ limit).bind eventsOf

def decode (message : String) : Except PayloadError (List ChangeEvent) :=
  decodeLimited message defaultLimit

def plain (events : List ChangeEvent) : List UInt8 :=
  Text.bytesOf (ChangeEvent.listText events)

def packWith (compress : List UInt8 → List UInt8) (events : List ChangeEvent) : List UInt8 :=
  compress (plain events)

def pack (events : List ChangeEvent) : List UInt8 :=
  packWith Zlib.deflate events

def encodeWith (compress : List UInt8 → List UInt8) (events : List ChangeEvent) : String :=
  Base64.encode (packWith compress events)

def encode (events : List ChangeEvent) : String :=
  encodeWith Zlib.deflate events

end Payload

end BuildWatch
