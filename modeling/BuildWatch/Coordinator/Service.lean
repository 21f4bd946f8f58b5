import BuildWatch.Coordinator.Machine
import BuildWatch.Tasks.Executor

/-!
A coordinator at work among its surroundings.  After each request every task
runs until it waits; time passes only when it is told to.
-/

namespace BuildWatch

open BuildWatch.Tasks

structure Surrounding (m : Type → Type) where
  /-- Look a project up. -/
  lookUp : String → m Lookup
  /-- The settings of a file, if it holds any. -/
  loadSettings : Files.Path → m (Option Settings)
  /-- Apply settings to a project, and say what came of it. -/
  applySettings : String → Settings → m SettingsResult
  /-- Build a project; there is no result while the build goes on. -/
  build : Operation → Option (List ChangeEvent) → m (Option BuildResult)

def Surrounding.answer {m : Type → Type} [Monad m] (surrounding : Surrounding m) :
    Query → m (Option Answer)
  | .lookUp project => return some (.lookup (← surrounding.lookUp project))
  | .loadSettings path => return some (.settings (← surrounding.loadSettings path))
  | .applySettings project settings =>
      return some (.applied (← surrounding.applySettings project settings))
  | .build operation changes => return (← surrounding.build operation changes).map Answer.build

structure Coordinator where
  options : CoordinatorOptions
  system : System Coordinator.Stage Query CoordinatorState := { data := {} }

namespace Coordinator

variable {m : Type → Type} [Monad m]

def state (coordinator : Coordinator) : CoordinatorState :=
  coordinator.system.data

def takeHistory (coordinator : Coordinator) : Coordinator × List Notice :=
  ({ coordinator with
      system := { coordinator.system with data := { coordinator.state with history := [] } } },
    coordinator.state.history)

def settle (coordinator : Coordinator) (surrounding : Surrounding m) : m Coordinator := do
  let system ← coordinator.system.wakeAskers.settle (program coordinator.options)
    surrounding.answer
  return { coordinator with system := system }

def advance (coordinator : Coordinator) (surrounding : Surrounding m) (duration : Nat) :
    m Coordinator := do
  let system ← System.advance (program coordinator.options) surrounding.answer duration
    coordinator.system
  return { coordinator with system := system }

def answerTo? (history : List Notice) (request : Nat) : Option UpdateResult :=
  history.findSome? fun notice =>
    match notice with
    | .answered other result => if other = request then some result else none
    | _ => none

/-- Start the task of a request and let every task run until it waits. -/
def submit (coordinator : Coordinator) (surrounding : Surrounding m) (stage : Stage) :
    m (Coordinator × Option UpdateResult) := do
  let request := coordinator.system.nextId
  let coordinator := { coordinator with system := coordinator.system.spawn stage }
  let coordinator ← coordinator.settle surrounding
  return (coordinator, answerTo? coordinator.state.history request)

def update (coordinator : Coordinator) (surrounding : Surrounding m) (project : String) :
    m (Coordinator × Option UpdateResult) :=
  if project.isEmpty then return (coordinator, some (.error .missingProject))
  else coordinator.submit surrounding (.update project)

def notify (coordinator : Coordinator) (surrounding : Surrounding m)
    (notification : ChangeNotification) : m (Coordinator × Option UpdateResult) :=
  match notification.change? with
  | some change => coordinator.submit surrounding (.change change)
  | none => return (coordinator, some (.error .missingFields))

def shutdown (coordinator : Coordinator) : Coordinator :=
  let system := coordinator.system
  let stale := system.data.timers.all
  let system := { system with data := { system.data with timers := {} } }
  { coordinator with system := stale.foldl System.remove system }

/-! ### What can be seen of a project -/

structure ProjectView where
  pending : List ChangeEvent
  outstanding : Nat
  timer : Bool
  inProgress : Bool
  requested : Bool
  required : Bool
deriving Repr, DecidableEq

def view (coordinator : Coordinator) (project : String) : ProjectView :=
  let state := coordinator.state
  let builds := state.builds.state project
  { pending := state.changes project
    outstanding := state.batches.outstanding project
    timer := state.timers.isPending project
    inProgress := builds.inProgress
    requested := builds.requested.isSome
    required := builds.required }

end Coordinator

end BuildWatch
