import BuildWatch.Files.Path
import BuildWatch.Project.Capabilities

/-!
Project records.  A record says what a project is and where it lies; it is read
anew for every request, so that each one acts on the state of its moment.
-/

namespace BuildWatch

open BuildWatch.Json

structure ProjectInfo where
  id : String
  kind : String
  name : Option String := none
  location : Files.Path
  autoBuild : Bool := true
  appPorts : List String := []
  debugPort : Option String := none
  startMode : StartMode := .run
  contextRoot : Option String := none
deriving Repr, DecidableEq

namespace ProjectInfo

def pathOf (info : ProjectInfo) (file : Files.Path) : Files.Path :=
  Files.join info.location file

def optionalMember (key : String) (text : Option String) : List (String × Value) :=
  match text with
  | some text => [(key, .string text)]
  | none => []

def toJson (info : ProjectInfo) : Value :=
  .object <|
    [("projectID", .string info.id), ("projectType", .string info.kind)] ++
    optionalMember "projectName" info.name ++
    [("location", .string info.location),
     ("autoBuildEnabled", .bool info.autoBuild),
     ("appPorts", .array (info.appPorts.map .string))] ++
    optionalMember "debugPort" info.debugPort ++
    [("startMode", info.startMode.toJson)] ++
    optionalMember "contextRoot" info.contextRoot

def text (info : ProjectInfo) : String := info.toJson.text

def fileText (info : ProjectInfo) : String := info.toJson.indentedText

/-- A port, which may be written as a text or as a number. -/
def portOfDocument? (document : Document) : Option String :=
  match document.string? with
  | some text => some text
  | none => (document.naturalBelow? (Nat.pow 2 64)).map fun value => toString value

def portsOfDocument? (document : Document) : Option (List String) :=
  (document.orNull? (·.list? portOfDocument?)).map (·.getD [])

/-- The debug port; null and an empty text stand for none. -/
def debugPortOfDocument? (document : Document) : Option (Option String) :=
  (document.orNull? portOfDocument?).map (·.filter (fun port => !port.isEmpty))

def fields : List Field :=
  [{ name := "projectID" }, { name := "projectType" }, { name := "projectName" },
   { name := "location" }, { name := "autoBuildEnabled" }, { name := "appPorts" },
   { name := "debugPort" }, { name := "startMode" }, { name := "contextRoot" }]

def ofDocument? (document : Document) : Option ProjectInfo := do
  match ← document.fields? fields with
  | [id, kind, name, location, autoBuild, appPorts, debugPort, startMode, contextRoot] =>
      return {
        id := ← required Document.string? id
        kind := ← required Document.string? kind
        name := ← optional Document.string? name
        location := ← required Document.string? location
        autoBuild := ← orElse true Document.bool? autoBuild
        appPorts := ← orElse [] portsOfDocument? appPorts
        debugPort := ← orElse none debugPortOfDocument? debugPort
        startMode := ← orElse .run StartMode.ofDocument? startMode
        contextRoot := ← optional Document.string? contextRoot }
  | _ => none

def ofText? (text : String) : Option ProjectInfo := do
  ofDocument? (← Document.ofText? text)

end ProjectInfo

end BuildWatch
