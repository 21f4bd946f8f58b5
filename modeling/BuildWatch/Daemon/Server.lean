import BuildWatch.Daemon.Services
import BuildWatch.Text.Blank

/-!
Serving requests line by line: every line that is not blank is answered by one
line.
-/

namespace BuildWatch

/-- One line of input: its bytes, and whether a line break ends it. -/
structure InputLine where
  bytes : List UInt8
  ended : Bool
deriving Repr, DecidableEq

namespace InputLine

def newlineByte : UInt8 := 10

/-- The byte that may stand before the end of a line. -/
def returnByte : UInt8 := 13

/-- Split input into lines; what is read of the first of them so far is held in
reverse. -/
def splitFrom (start : List UInt8) : List UInt8 → List InputLine
  | [] => if start.isEmpty then [] else [{ bytes := start.reverse, ended := false }]
  | byte :: rest =>
      if byte = newlineByte then { bytes := start.reverse, ended := true } :: splitFrom [] rest
      else splitFrom (byte :: start) rest

def split (bytes : List UInt8) : List InputLine :=
  splitFrom [] bytes

def content (line : InputLine) : List UInt8 :=
  match line.ended, line.bytes.getLast? with
  | true, some last => if last = returnByte then line.bytes.dropLast else line.bytes
  | _, _ => line.bytes

def text? (line : InputLine) : Option String :=
  Text.Utf8.text? line.content

end InputLine

structure Serving where
  coordinator : Coordinator
  replies : List String := []
  failure : Option Failure := none

namespace Serving

def output (serving : Serving) : String :=
  String.join (serving.replies.map fun reply => reply ++ "\n")

end Serving

namespace Services

variable {m : Type → Type} [Monad m]

def unreadableLine : Failure :=
  { messages := ["Failed to read request", ioTag] }

def answerLine (services : Services m) (coordinator : Coordinator) (text : String) :
    m (Coordinator × Option String) := do
  if Text.isBlankText text then return (coordinator, none)
  else
    let (coordinator, reply) ← services.handleLine coordinator text
    return (coordinator, some reply)

/-- Serve some lines, up to the first that is no text. -/
def serveLines (services : Services m) (coordinator : Coordinator) :
    List InputLine → m Serving
  | [] => return { coordinator := coordinator }
  | line :: rest => do
      match line.text? with
      | none => return { coordinator := coordinator, failure := some unreadableLine }
      | some text =>
          let (coordinator, reply?) ← services.answerLine coordinator text
          let serving ← services.serveLines coordinator rest
          return { serving with replies := reply?.toList ++ serving.replies }

def serve (services : Services m) (coordinator : Coordinator) (input : List UInt8) : m Serving :=
  services.serveLines coordinator (InputLine.split input)

end Services

end BuildWatch
