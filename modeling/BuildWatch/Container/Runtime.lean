import BuildWatch.Container.Resolution
import BuildWatch.Failure

/-!
What the watcher asks of a container runtime.
-/

namespace BuildWatch

open BuildWatch.Json

inductive ContainerState where
  | notFound
  | stopped
  | starting
  | active
deriving Repr, DecidableEq

namespace ContainerState

def ofStatus (status : String) : ContainerState :=
  if status = "created" ∨ status = "restarting" then .starting
  else if status = "running" then .active
  else .stopped

end ContainerState

structure ContainerDetails where
  id : String
  ip : String
  ports : PortTable
deriving Repr, DecidableEq

structure ContainerRuntime (m : Type → Type) where
  inspect : String → ExceptT Failure m (Option ContainerDetails)
  state : String → ExceptT Failure m ContainerState
  /-- Build the image of a name from a directory, with some options. -/
  build : String → Files.Path → List String → ExceptT Failure m Unit
  run : String → ExceptT Failure m Unit
  restart : String → ExceptT Failure m Unit
  remove : String → ExceptT Failure m Unit

structure ContainerInfo where
  containerId : String := ""
  ip : String := ""
  ports : ResolvedPorts := {}
deriving Repr, DecidableEq

namespace ContainerInfo

def textOrNull : Option String → Value
  | some text => .string text
  | none => .null

def toJson (info : ContainerInfo) : Value :=
  .object
    [("containerId", .string info.containerId),
     ("ip", .string info.ip),
     ("exposedPort", textOrNull info.ports.exposedPort),
     ("internalPort", textOrNull info.ports.internalPort),
     ("exposedDebugPort", textOrNull info.ports.exposedDebugPort),
     ("internalDebugPort", textOrNull info.ports.internalDebugPort),
     ("containerPorts", .array (info.ports.containerPorts.map .string))]

/-- What a container's details tell about a project; nothing if it is not running. -/
def ofDetails (project : ProjectInfo) : Option ContainerDetails → ContainerInfo
  | none => {}
  | some details =>
      { containerId := details.id, ip := details.ip, ports := details.ports.resolve project }

end ContainerInfo

namespace ContainerRuntime

variable {m : Type → Type} [Monad m]

def containerInfo (runtime : ContainerRuntime m) (container : String) (project : ProjectInfo) :
    ExceptT Failure m ContainerInfo :=
  return ContainerInfo.ofDetails project (← runtime.inspect container)

/-- Whether a running container has no binding of the declared debug port; also
true where that cannot be told. -/
def lacksDebugPort (project : ProjectInfo) : Except Failure (Option ContainerDetails) → Bool
  | .ok (some details) =>
      match project.debugPort with
      | some port => (details.ports.find? port).isNone
      | none => true
  | _ => true

def debugPortChanged (runtime : ContainerRuntime m) (container : String)
    (project : ProjectInfo) : m Bool :=
  return lacksDebugPort project (← (runtime.inspect container).run)

end ContainerRuntime

end BuildWatch
