import BuildWatch.Handler.Basic

/-!
The life of a project's container: an update replaces it by one from a new
image, or restarts it where its image can stay.
-/

namespace BuildWatch.Lifecycle

variable {m : Type → Type} [Monad m]

def buildContext (operation : Operation) : String :=
  "Image build failed for project " ++ operation.project.id

def startContext (operation : Operation) : String :=
  "Container start failed for project " ++ operation.project.id

/-- Remove the container if there is one, build the image and start a container. -/
def rebuild (runtime : ContainerRuntime m) (operation : Operation) :
    ExceptT Failure m BuildOutcome := do
  let state ← runtime.state operation.container
  if state ≠ .notFound then runtime.remove operation.container
  ExceptT.adapt (Failure.context · (buildContext operation))
    (runtime.build operation.container operation.project.location [])
  ExceptT.adapt (Failure.context · (startContext operation)) (runtime.run operation.container)
  return .rebuilt

/-- Whether the image has to be built again: always where the build was asked for,
and where one of some files changed. -/
def needsRebuild (triggers : List String) : Option (List ChangeEvent) → Bool
  | none => true
  | some events => events.any fun event => triggers.any event.isFileNamed

/-- Restart the container if it is active and its image can stay, else rebuild. -/
def restartOrRebuild (runtime : ContainerRuntime m) (triggers : List String)
    (operation : Operation) (changed : Option (List ChangeEvent)) :
    ExceptT Failure m BuildOutcome := do
  if needsRebuild triggers changed then rebuild runtime operation
  else
    let state ← runtime.state operation.container
    if state = .active then
      runtime.restart operation.container
      return .restarted
    else rebuild runtime operation

end BuildWatch.Lifecycle
