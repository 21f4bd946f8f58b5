/-!
Failures with their causes.
-/

namespace BuildWatch

/-- What went wrong, outermost first: each message is caused by the next. -/
structure Failure where
  messages : List String
deriving Repr, DecidableEq

namespace Failure

def of (message : String) : Failure := { messages := [message] }

def context (failure : Failure) (message : String) : Failure :=
  { messages := message :: failure.messages }

def chain (failure : Failure) : String :=
  ": ".intercalate failure.messages

end Failure

/-- The wording of the reader that refused a JSON text is its own affair: in a
message it shows as this tag. -/
def jsonTag : String := "<json>"

def ioTag : String := "<io>"

def base64Tag : String := "<base64>"

def tomlTag : String := "<toml>"

end BuildWatch
