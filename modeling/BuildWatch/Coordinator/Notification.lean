import BuildWatch.Project.ChangeEvent

/-!
Change notifications.  A watcher splits a batch of changes into chunks that
share a timestamp, and sends each chunk as one notification.
-/

namespace BuildWatch

open BuildWatch.Json

structure ChangeNotification where
  project : Option String := none
  timestamp : Option UInt64 := none
  chunk : Option UInt32 := none
  chunkTotal : Option UInt32 := none
  events : Option (List ChangeEvent) := none
deriving Repr, DecidableEq

structure Change where
  project : String
  timestamp : UInt64
  chunkTotal : UInt32
  events : List ChangeEvent
deriving Repr, DecidableEq

namespace ChangeNotification

/-- The chunk of a notification that lacks nothing.  A zero and an empty id count
as missing. -/
def change? (notification : ChangeNotification) : Option Change := do
  let project ← notification.project
  let timestamp ← notification.timestamp
  let chunk ← notification.chunk
  let chunkTotal ← notification.chunkTotal
  let events ← notification.events
  if project.isEmpty || timestamp == 0 || chunk == 0 || chunkTotal == 0 then none
  else some { project, timestamp, chunkTotal, events }

def fields : List Field :=
  [{ name := "projectID" }, { name := "timestamp" }, { name := "chunk" },
   { name := "chunk_total", aliases := ["chunkTotal"] },
   { name := "eventArray", aliases := ["events"] }]

def ofFields? : List (Option Document) → Option ChangeNotification
  | [project, timestamp, chunk, chunkTotal, events] => do
      return {
        project := ← optional Document.string? project
        timestamp := ← optional Document.uint64? timestamp
        chunk := ← optional Document.uint32? chunk
        chunkTotal := ← optional Document.uint32? chunkTotal
        events := ← optional (·.list? ChangeEvent.ofDocument?) events }
  | _ => none

def ofDocument? (document : Document) : Option ChangeNotification := do
  ofFields? (← document.fields? fields)

def ofText? (text : String) : Option ChangeNotification := do
  ofDocument? (← Document.ofText? text)

end ChangeNotification

end BuildWatch
