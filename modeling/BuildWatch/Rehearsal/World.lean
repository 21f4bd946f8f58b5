import BuildWatch.Container.Docker
import BuildWatch.Files.Tree
import BuildWatch.Table

/-!
Scripted surroundings: files in memory, containers that answer as they are told
to, and a docker command that answers from a script.
-/

namespace BuildWatch.Rehearsal

open BuildWatch.Files

/-! ### Entries under keys -/

/-- Entries in the order of their keys; entries of one key keep their order. -/
def grouped {α : Type} (entries : List (String × α)) : List (String × α) :=
  entries.mergeSort (fun entry other => entry.1 ≤ other.1)

/-! ### Containers -/

structure ScriptedContainers where
  /-- The state of every container that has none of its own. -/
  initial : ContainerState := .notFound
  states : Table ContainerState := {}
  /-- What an inspection of any container finds. -/
  inspected : Except Failure (Option ContainerDetails) := .ok none
  /-- The calls that fail, with their messages. -/
  failing : List (String × String) := []
  /-- The calls that were made, under the names of their containers. -/
  calls : List (String × String) := []

namespace ScriptedContainers

def stateOfWord (word : String) : ContainerState :=
  if word = "active" then .active
  else if word = "stopped" then .stopped
  else if word = "starting" then .starting
  else .notFound

def state (containers : ScriptedContainers) (name : String) : ContainerState :=
  (containers.states.get? name).getD containers.initial

def setState (containers : ScriptedContainers) (name : String) (state : ContainerState) :
    ScriptedContainers :=
  { containers with states := containers.states.set name state }

def setAll (containers : ScriptedContainers) (state : ContainerState) : ScriptedContainers :=
  { containers with initial := state, states := {} }

def note (containers : ScriptedContainers) (name call : String) : ScriptedContainers :=
  { containers with calls := containers.calls ++ [(name, call)] }

def shownOptions (options : List String) : String :=
  "[" ++ ", ".intercalate (options.map fun option => "\"" ++ option ++ "\"") ++ "]"

def outcome {α : Type} (containers : ScriptedContainers) (call : String) (value : α) :
    Except Failure α :=
  match containers.failing.lookup call with
  | some message => .error (Failure.of message)
  | none => .ok value

end ScriptedContainers

/-! ### The docker command -/

/-- A docker command that answers from a script. -/
structure ScriptedDocker where
  /-- The name under which it can be started. -/
  binary : String := ""
  answers : List CommandOutput := []
  /-- The arguments it was started with. -/
  calls : List (List String) := []

namespace ScriptedDocker

def isArgument (argument : String) : Bool :=
  !argument.contains '\x00'

/-- Run a command.  Past the end of the script it says nothing. -/
def run (docker : ScriptedDocker) (binary : String) (arguments : List String) :
    Option CommandOutput × ScriptedDocker :=
  if binary = docker.binary && arguments.all isArgument then
    (some (docker.answers.head?.getD {}),
      { docker with answers := docker.answers.tail, calls := docker.calls ++ [arguments] })
  else (none, docker)

end ScriptedDocker

/-! ### The world -/

structure World where
  tree : Tree := {}
  containers : ScriptedContainers := {}
  docker : ScriptedDocker := {}

namespace World

abbrev Action := StateM World

def files : FileSystem Action :=
  .ofTree World.tree fun world tree => { world with tree := tree }

def command : CommandRunner Action := fun binary arguments =>
  modifyGet fun world =>
    let (output, docker) := world.docker.run binary arguments
    (output, { world with docker := docker })

def mapContainers (world : World) (change : ScriptedContainers → ScriptedContainers) : World :=
  { world with containers := change world.containers }

def call {α : Type} (kind name text : String) (value : ScriptedContainers → α)
    (effect : ScriptedContainers → ScriptedContainers) : ExceptT Failure Action α :=
  ExceptT.mk do
    modify (·.mapContainers (·.note name text))
    let containers := (← get).containers
    let outcome := containers.outcome kind (value containers)
    if outcome.isOk then modify (·.mapContainers effect)
    return outcome

def runtime : ContainerRuntime Action where
  inspect name := do
    let inspected ← call "inspect" name ("inspect " ++ name) ScriptedContainers.inspected id
    ExceptT.mk (pure inspected)
  state name := call "state" name ("state " ++ name) (·.state name) id
  build name directory options :=
    call "build" name
      ("build " ++ name ++ " " ++ directory ++ " " ++ ScriptedContainers.shownOptions options)
      (fun _ => ()) id
  run name := call "run" name ("run " ++ name) (fun _ => ()) (·.setState name .active)
  restart name := call "restart" name ("restart " ++ name) (fun _ => ()) id
  remove name := call "remove" name ("remove " ++ name) (fun _ => ()) (·.setState name .notFound)

def takeCalls (world : World) : World × List (String × String) :=
  (world.mapContainers fun containers => { containers with calls := [] }, world.containers.calls)

def takeDockerCalls (world : World) : World × List (List String) :=
  ({ world with docker := { world.docker with calls := [] } }, world.docker.calls)

end World

end BuildWatch.Rehearsal
