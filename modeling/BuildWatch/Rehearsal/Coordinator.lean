import BuildWatch.Coordinator.Service
import BuildWatch.Files.Tree
import BuildWatch.Handler.Registry

/-!
Rehearsing a coordinator among scripted surroundings: projects are kept in
memory, and builds end when and how the script says.
-/

namespace BuildWatch.Rehearsal

open BuildWatch.Files

inductive StoredProject where
  | info (info : ProjectInfo)
  | unreadable
  | panicking
deriving Repr, DecidableEq

inductive ScriptedEnd where
  | rebuilt
  | restarted
  | panic
  | failure (message : String)
deriving Repr, DecidableEq

/-- The end a word stands for; a word that is not known is the message of a failure. -/
def ScriptedEnd.ofWord (word : String) : ScriptedEnd :=
  if word = "rebuilt" then .rebuilt
  else if word = "restarted" then .restarted
  else if word = "panic" then .panic
  else .failure word

def ScriptedEnd.result : ScriptedEnd → BuildResult
  | .rebuilt => .done .rebuilt
  | .restarted => .done .restarted
  | .panic => .panicked
  | .failure message => .failed (Failure.of message)

structure ScriptedHandler where
  kind : String
  gated : Bool := false
  ending : ScriptedEnd := .rebuilt
deriving Repr, DecidableEq

structure CoordinatorWorld where
  tree : Tree := {}
  projects : Table StoredProject := {}
  handlers : List ScriptedHandler := []
  fallback : ScriptedHandler
  /-- The types and projects of builds that were released and have not ended yet. -/
  releases : List (String × String) := []
  applies : Bool := true

namespace CoordinatorWorld

def handler (world : CoordinatorWorld) (kind : String) : ScriptedHandler :=
  (world.handlers.find? (fun handler => handler.kind == kind)).getD world.fallback

def supportedTypes (world : CoordinatorWorld) : List String :=
  let kinds := world.handlers.map ScriptedHandler.kind
  if kinds.contains world.fallback.kind then kinds else kinds ++ [world.fallback.kind]

def setEnding (world : CoordinatorWorld) (kind : String) (ending : ScriptedEnd) :
    CoordinatorWorld :=
  let change (handler : ScriptedHandler) : ScriptedHandler :=
    if handler.kind = kind then { handler with ending := ending } else handler
  { world with handlers := world.handlers.map change, fallback := change world.fallback }

def lookUp (world : CoordinatorWorld) (project : String) : Lookup :=
  match world.projects.get? project with
  | some (.info info) => .found info
  | some .unreadable => .failed (.unreadable project)
  | some .panicking => .panicked
  | none => .failed (.notFound project)

def applySettings (world : CoordinatorWorld) (project : String) (settings : Settings) :
    CoordinatorWorld :=
  match world.applies, world.projects.get? project with
  | true, some (.info info) =>
      { world with projects := world.projects.set project (.info (settings.applyTo info)) }
  | _, _ => world

/-- Build a project: a gated build takes one release of its type and project. -/
def build (world : CoordinatorWorld) (operation : Operation) :
    Option BuildResult × CoordinatorWorld :=
  let handler := world.handler operation.project.kind
  let key := (handler.kind, operation.project.id)
  if !handler.gated then (some handler.ending.result, world)
  else if world.releases.contains key then
    (some handler.ending.result, { world with releases := world.releases.erase key })
  else (none, world)

def files : FileSystem (StateM CoordinatorWorld) :=
  .ofTree CoordinatorWorld.tree fun world tree => { world with tree := tree }

def surrounding : Surrounding (StateM CoordinatorWorld) where
  lookUp project := return (← get).lookUp project
  loadSettings path := return (← Settings.load files path).toOption
  applySettings project settings := do
    modify (·.applySettings project settings)
    return if (← get).applies then .applied else .failed
  build operation _ := modifyGet (·.build operation)

end CoordinatorWorld

inductive LogEntry where
  | required
  | queued
  | started
  | finished (result : BuildResult)
  | settings (settings : Settings)
  | build (handler : String) (operation : Operation) (changes : Option (List ChangeEvent))

structure CoordinatorRehearsal where
  coordinator : Coordinator
  world : CoordinatorWorld
  reports : Bool := true

namespace CoordinatorRehearsal

def act {α : Type} (rehearsal : CoordinatorRehearsal)
    (action : Coordinator → StateM CoordinatorWorld (Coordinator × α)) :
    CoordinatorRehearsal × α :=
  let ((coordinator, result), world) := (action rehearsal.coordinator).run rehearsal.world
  ({ rehearsal with coordinator := coordinator, world := world }, result)

def settle (rehearsal : CoordinatorRehearsal) : CoordinatorRehearsal :=
  (rehearsal.act fun coordinator => do
    return (← coordinator.settle CoordinatorWorld.surrounding, ())).1

/-- Change the surroundings, then let every task run until it waits. -/
def change (rehearsal : CoordinatorRehearsal) (change : CoordinatorWorld → CoordinatorWorld) :
    CoordinatorRehearsal :=
  { rehearsal with world := change rehearsal.world }.settle

def store (rehearsal : CoordinatorRehearsal) (id : String) (project : StoredProject) :
    CoordinatorRehearsal :=
  rehearsal.change fun world => { world with projects := world.projects.set id project }

def forget (rehearsal : CoordinatorRehearsal) (id : String) : CoordinatorRehearsal :=
  rehearsal.change fun world => { world with projects := world.projects.erase id }

def release (rehearsal : CoordinatorRehearsal) (kind id : String) : CoordinatorRehearsal :=
  rehearsal.change fun world => { world with releases := world.releases ++ [(kind, id)] }

def notify (rehearsal : CoordinatorRehearsal) (notification : ChangeNotification) :
    CoordinatorRehearsal × Option UpdateResult :=
  rehearsal.act (·.notify CoordinatorWorld.surrounding notification)

def update (rehearsal : CoordinatorRehearsal) (id : String) :
    CoordinatorRehearsal × Option UpdateResult :=
  rehearsal.act (·.update CoordinatorWorld.surrounding id)

def advance (rehearsal : CoordinatorRehearsal) (duration : Nat) : CoordinatorRehearsal :=
  (rehearsal.act fun coordinator => do
    return (← coordinator.advance CoordinatorWorld.surrounding duration, ())).1

def shutdown (rehearsal : CoordinatorRehearsal) : CoordinatorRehearsal :=
  { rehearsal with coordinator := rehearsal.coordinator.shutdown }.settle

def report (rehearsal : CoordinatorRehearsal) (project : String) (entry : LogEntry) :
    Option (String × LogEntry) :=
  if rehearsal.reports then some (project, entry) else none

def entryOf (rehearsal : CoordinatorRehearsal) : Notice → Option (String × LogEntry)
  | .required project => rehearsal.report project .required
  | .queued project _ => rehearsal.report project .queued
  | .started project => rehearsal.report project .started
  | .finished project result => rehearsal.report project (.finished result)
  | .applying project settings => some (project, .settings settings)
  | .handed operation changes =>
      let handler := rehearsal.world.handler operation.project.kind
      some (operation.project.id, .build handler.kind operation changes)
  | _ => none

def takeLog (rehearsal : CoordinatorRehearsal) :
    CoordinatorRehearsal × List (String × LogEntry) :=
  let (coordinator, history) := rehearsal.coordinator.takeHistory
  ({ rehearsal with coordinator := coordinator }, history.filterMap rehearsal.entryOf)

end CoordinatorRehearsal

end BuildWatch.Rehearsal
