import BuildWatch.Container.PortTable
import BuildWatch.Project.Info

/-!
Which published ports belong to the application and to its debugger.  Ports the
project declares come first; a container that publishes none of them is taken
to answer on its first port that is not the debug port.
-/

namespace BuildWatch

structure ResolvedPorts where
  internalPort : Option String := none
  exposedPort : Option String := none
  internalDebugPort : Option String := none
  exposedDebugPort : Option String := none
  containerPorts : List String := []
deriving Repr, DecidableEq

namespace PortTable

/-- A declared port together with the host port its first binding is published on. -/
def publishedPair? (table : PortTable) (port : String) : Option (String × String) := do
  let binding ← table.find? port
  let host ← binding.hostPort?
  return (port, host)

def declaredPair? (table : PortTable) (project : ProjectInfo) : Option (String × String) :=
  project.appPorts.findSome? table.publishedPair?

/-- The binding that is taken by its position: the first, or the second if the
first is the debug port. -/
def positional? (table : PortTable) (debugPort : Option String) : Option PortBinding :=
  match table.bindings with
  | first :: second :: _ => if debugPort = some first.internalPort then some second else some first
  | bindings => bindings.head?

def positionalPair? (table : PortTable) (project : ProjectInfo) : Option (String × String) := do
  let binding ← table.positional? project.debugPort
  let host ← binding.hostPort?
  return (binding.internalPort, host)

def appPair? (table : PortTable) (project : ProjectInfo) : Option (String × String) :=
  (table.declaredPair? project).or (table.positionalPair? project)

def debugBinding? (table : PortTable) (project : ProjectInfo) : Option (String × PortBinding) :=
  if project.startMode.isDebug then do
    let port ← project.debugPort
    let binding ← table.find? port
    return (port, binding)
  else none

def resolve (table : PortTable) (project : ProjectInfo) : ResolvedPorts :=
  let app := table.appPair? project
  let debug := table.debugBinding? project
  { internalPort := app.map Prod.fst
    exposedPort := app.map Prod.snd
    internalDebugPort := debug.map Prod.fst
    exposedDebugPort := debug.bind (·.2.hostPort?)
    containerPorts := table.internalPorts }

end PortTable

end BuildWatch
