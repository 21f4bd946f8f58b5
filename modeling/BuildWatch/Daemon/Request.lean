import BuildWatch.Coordinator.Notification
import BuildWatch.Files.Path

/-!
Requests to the daemon.  A request is an object whose member `op` says which
request it is, or an array that starts with the same word.
-/

namespace BuildWatch

open BuildWatch.Json

inductive Request where
  | update (project : Option String)
  /-- Take in a chunk of changes, given as such or packed into a message. -/
  | notify (notification : ChangeNotification) (packed : Option String)
  | ports (container project : String)
  /-- Tell whether a container lacks the declared debug port. -/
  | debugPortChanged (container project : String)
  | capabilities (kind : String)
  | types
  | detect (location : Files.Path)
deriving Repr, DecidableEq

namespace Request

inductive Tag where
  | update
  | notify
  | ports
  | debugPortChanged
  | capabilities
  | types
  | detect
deriving Repr, DecidableEq

def Tag.name : Tag → String
  | .update => "update"
  | .notify => "notify"
  | .ports => "ports"
  | .debugPortChanged => "debugPortChanged"
  | .capabilities => "capabilities"
  | .types => "types"
  | .detect => "detect"

def Tag.all : List Tag :=
  [.update, .notify, .ports, .debugPortChanged, .capabilities, .types, .detect]

def Tag.ofName? (word : String) : Option Tag :=
  all.find? (fun tag => tag.name == word)

def tag : Request → Tag
  | .update _ => .update
  | .notify .. => .notify
  | .ports .. => .ports
  | .debugPortChanged .. => .debugPortChanged
  | .capabilities _ => .capabilities
  | .types => .types
  | .detect _ => .detect

def Tag.fields : Tag → List Field
  | .update => [{ name := "projectID" }]
  | .notify =>
      [{ name := "projectID" }, { name := "timestamp" }, { name := "chunk" },
       { name := "chunk_total", aliases := ["chunkTotal"] },
       { name := "events", aliases := ["eventArray"] }, { name := "msg" }]
  | .ports => [{ name := "container" }, { name := "projectID" }]
  | .debugPortChanged => [{ name := "container" }, { name := "projectID" }]
  | .capabilities => [{ name := "projectType" }]
  | .types => []
  | .detect => [{ name := "location" }]

def ofFields? : Tag → List (Option Document) → Option Request
  | .update, [project] => return .update (← optional Document.string? project)
  | .notify, [project, timestamp, chunk, chunkTotal, events, packed] => do
      let notification ←
        ChangeNotification.ofFields? [project, timestamp, chunk, chunkTotal, events]
      return .notify notification (← optional Document.string? packed)
  | .ports, [container, project] => do
      return .ports (← required Document.string? container) (← required Document.string? project)
  | .debugPortChanged, [container, project] => do
      return .debugPortChanged (← required Document.string? container)
        (← required Document.string? project)
  | .capabilities, [kind] => return .capabilities (← required Document.string? kind)
  | .types, [] => some .types
  | .detect, [location] => return .detect (← required Document.string? location)
  | _, _ => none

def tagField : Field := { name := "op" }

/-- The tag of a document, and what is left of the document without it. -/
def splitTag? : Document → Option (Tag × Document)
  | .object members => do
      let keyed ← keyedMembers? members
      let word ← required Document.string? (← tagField.pick? keyed)
      let rest := members.filter fun member => member.1.text? != some tagField.name
      return (← Tag.ofName? word, .object rest)
  | .array (word :: rest) => do return (← Tag.ofName? (← word.string?), .array rest)
  | _ => none

/-- Read a request.  The whole document must denote a value, also in members that
are not looked at. -/
def ofDocument? (document : Document) : Option Request := do
  let _ ← document.value? nestingLimit
  let (tag, rest) ← splitTag? document
  ofFields? tag (← rest.fields? tag.fields)

def ofText? (text : String) : Option Request := do
  ofDocument? (← Document.ofText? text)

end Request

end BuildWatch
