import BuildWatch.Coordinator.Service
import BuildWatch.Daemon.Request
import BuildWatch.Daemon.Response
import BuildWatch.Handler.Registry
import BuildWatch.Project.Payload

/-!
The services of the daemon: how each request is answered.
-/

namespace BuildWatch

open BuildWatch.Files
open BuildWatch.Json

structure Services (m : Type → Type) where
  files : FileSystem m
  runtime : ContainerRuntime m
  registry : Registry m
  directory : InfoDirectory

namespace Services

variable {m : Type → Type} [Monad m]

def create (files : FileSystem m) (runtime : ContainerRuntime m) (directory : InfoDirectory) :
    Services m :=
  { files := files
    runtime := runtime
    registry := Registry.builtin files runtime
    directory := directory }

def buildResult : Except Failure BuildOutcome → BuildResult
  | .ok outcome => .done outcome
  | .error failure => .failed failure

def surrounding (services : Services m) : Surrounding m where
  lookUp project := do
    match ← services.directory.read services.files project with
    | .ok info => return .found info
    | .error error => return .failed error
  loadSettings path := return (← Settings.load services.files path).toOption
  applySettings project settings := do
    match ← services.directory.apply services.files project settings with
    | .ok _ => return .applied
    | .error _ => return .failed
  build operation changes := do
    let handler := services.registry.resolve operation.project.kind
    return some (buildResult (← (handler.update operation changes).run))

/-! ### Requests -/

def lookupResponse (error : LookupError) : Response :=
  match error with
  | .notFound _ => .error 404 error.message
  | _ => .error 500 error.message

def withProject (services : Services m) (project : String) (answer : ProjectInfo → m Response) :
    m Response := do
  match ← services.directory.read services.files project with
  | .ok info => answer info
  | .error error => return lookupResponse error

def portsResponse : Except Failure ContainerInfo → Response
  | .ok info => .ok info.toJson
  | .error failure => .error 500 failure.chain

def detectResponse : Except Failure (List String) → Response
  | .ok kinds => .ok (.array (kinds.map .string))
  | .error failure => .error 400 failure.chain

def payloadResponse (error : PayloadError) : Response :=
  .error 400 ("Bad request: " ++ error.message)

def malformedResponse : Response :=
  .error 400 ("Bad request: " ++ jsonTag)

/-- The events of a notification: those given as such, or else those of its message. -/
def eventsOf (notification : ChangeNotification) (packed : Option String) :
    Except PayloadError (Option (List ChangeEvent)) :=
  match notification.events, packed with
  | some events, _ => .ok (some events)
  | none, some message => (Payload.decode message).map some
  | none, none => .ok none

/-- The response to a request that builds; it is always answered before the next. -/
def updateResponse (project : String) (result? : Option UpdateResult) : Response :=
  .ofUpdate (result?.getD (.error (.internal project)))

def handle (services : Services m) (coordinator : Coordinator) :
    Request → m (Coordinator × Response)
  | .update project => do
      let project := project.getD ""
      let (coordinator, result?) ← coordinator.update services.surrounding project
      return (coordinator, updateResponse project result?)
  | .notify notification packed => do
      match eventsOf notification packed with
      | .error error => return (coordinator, payloadResponse error)
      | .ok events =>
          let (coordinator, result?) ←
            coordinator.notify services.surrounding { notification with events := events }
          return (coordinator, updateResponse (notification.project.getD "") result?)
  | .ports container project =>
      return (coordinator, ← services.withProject project fun info =>
        return portsResponse (← (services.runtime.containerInfo container info).run))
  | .debugPortChanged container project =>
      return (coordinator, ← services.withProject project fun info => do
        let changed ← services.runtime.debugPortChanged container info
        return .ok (.object [("changed", .bool changed)]))
  | .capabilities kind =>
      return (coordinator, .ok (services.registry.capabilitiesFor kind).toJson)
  | .types =>
      return (coordinator, .ok (.array (services.registry.supportedTypes.map .string)))
  | .detect location =>
      return (coordinator,
        detectResponse (← (services.registry.detect services.files location).run))

def handleLine (services : Services m) (coordinator : Coordinator) (line : String) :
    m (Coordinator × String) := do
  match Request.ofText? line with
  | some request =>
      let (coordinator, response) ← services.handle coordinator request
      return (coordinator, response.text)
  | none => return (coordinator, malformedResponse.text)

end Services

end BuildWatch
