import BuildWatch.Files.System
import BuildWatch.Handler.Lifecycle
import BuildWatch.Text.Blank

/-!
The handlers that are built in.  All of them run a project as one container
whose image is built from the project's directory.
-/

namespace BuildWatch

open BuildWatch.Files

namespace Handler

variable {m : Type → Type} [Monad m]

/-! ### Recognising projects -/

def holdsFile (files : FileSystem m) (name : String) (location : Path) : m Bool :=
  files.isFile (join location name)

/-- How a Maven project file names a dependency group. -/
def groupElement (group : String) : String :=
  "<groupId>" ++ group ++ "</groupId>"

def declaresGroup (files : FileSystem m) (group : String) (location : Path) : m Bool := do
  match ← files.readText (join location "pom.xml") with
  | .ok text => return Text.occursIn (groupElement group).toList text.toList
  | .error _ => return false

/-! ### The handlers -/

def libertyTriggers : List String :=
  ["Dockerfile", "Dockerfile-build", "pom.xml", "server.xml", "jvm.options"]

def liberty (files : FileSystem m) (runtime : ContainerRuntime m) : Handler m where
  kind := "liberty"
  accepts := declaresGroup files "org.eclipse.microprofile"
  capabilities := { startModes := [.run, .debug] }
  update := Lifecycle.restartOrRebuild runtime libertyTriggers

def springTriggers : List String :=
  ["Dockerfile", "pom.xml"]

def spring (files : FileSystem m) (runtime : ContainerRuntime m) : Handler m where
  kind := "spring"
  accepts := declaresGroup files "org.springframework.boot"
  capabilities := { startModes := [.run, .debug, .debugNoInit] }
  update := Lifecycle.restartOrRebuild runtime springTriggers

/-- Swift projects: their programs are part of the image, so every change rebuilds. -/
def swift (files : FileSystem m) (runtime : ContainerRuntime m) : Handler m where
  kind := "swift"
  accepts := holdsFile files "Package.swift"
  update operation _ := Lifecycle.rebuild runtime operation

def nodejsTriggers : List String :=
  ["Dockerfile", "package.json", "package-lock.json"]

def nodejs (files : FileSystem m) (runtime : ContainerRuntime m) : Handler m where
  kind := "nodejs"
  accepts := holdsFile files "package.json"
  capabilities := { startModes := [.run, .debugNoInit] }
  update := Lifecycle.restartOrRebuild runtime nodejsTriggers

/-- Projects of any other type: of them only the container file is known. -/
def generic (files : FileSystem m) (runtime : ContainerRuntime m) : Handler m where
  kind := genericType
  accepts := holdsFile files "Dockerfile"
  update operation _ := Lifecycle.rebuild runtime operation

def builtins (files : FileSystem m) (runtime : ContainerRuntime m) : List (Handler m) :=
  [liberty files runtime, spring files runtime, swift files runtime, nodejs files runtime]

end Handler

end BuildWatch
