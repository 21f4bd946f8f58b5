import BuildWatch.Json.Printer
import BuildWatch.Json.Reader

/-!
Changes of single files, as a file watcher reports them.
-/

namespace BuildWatch

open BuildWatch.Json

structure ChangeEvent where
  path : String
  timestamp : UInt64
  kind : String
  directory : Bool := false
deriving Repr, DecidableEq

namespace ChangeEvent

/-- Slashes of both kinds separate the parts of a reported path. -/
def isSeparator (char : Char) : Bool :=
  char == '/' || char == '\\'

def lastPart (path : List Char) : List Char :=
  (path.reverse.takeWhile (fun char => !isSeparator char)).reverse

def fileName (event : ChangeEvent) : String :=
  String.ofList (lastPart event.path.toList)

/-- Whether a file of the given name changed; a directory never counts. -/
def isFileNamed (event : ChangeEvent) (name : String) : Bool :=
  !event.directory && event.fileName == name

def toJson (event : ChangeEvent) : Value :=
  .object
    [("path", .string event.path),
     ("timestamp", .number (.int event.timestamp.toNat)),
     ("type", .string event.kind),
     ("directory", .bool event.directory)]

def text (event : ChangeEvent) : String := event.toJson.text

def fields : List Field :=
  [{ name := "path" }, { name := "timestamp" }, { name := "type" }, { name := "directory" }]

def ofDocument? (document : Document) : Option ChangeEvent := do
  match ← document.fields? fields with
  | [path, timestamp, kind, directory] =>
      return {
        path := ← required Document.string? path
        timestamp := ← required Document.uint64? timestamp
        kind := ← required Document.string? kind
        directory := ← orElse false Document.bool? directory }
  | _ => none

def listText (events : List ChangeEvent) : String :=
  (Value.array (events.map toJson)).text

end ChangeEvent

end BuildWatch
