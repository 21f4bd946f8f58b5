import BuildWatch.CommandLine.Arguments
import BuildWatch.CommandLine.Style
import BuildWatch.Configuration.Printer
import BuildWatch.Configuration.Reader
import BuildWatch.Container.Docker
import BuildWatch.Daemon.Server

/-!
What the commands show.
-/

namespace BuildWatch.CommandLine

open BuildWatch.Files

/-! ### Texts -/

def line (text : String) : String := text ++ "\n"

def rule : String := String.ofList (List.replicate 50 '━')

def shownIdLength : Nat := 12

def portPair : Option String → Option String → String
  | some internal, some exposed => internal ++ " -> " ++ Style.green.apply exposed
  | _, _ => Style.dim.apply "none"

def portsTitle (container : String) : String :=
  line (Style.bold.apply ("Container " ++ container)) ++ line rule

def portsText (container : String) (project : ProjectInfo) (info : ContainerInfo) : String :=
  let ports := info.ports
  if info.containerId.isEmpty then
    portsTitle container ++ line (Style.yellow.apply "Not running")
  else
    let id := String.ofList (info.containerId.toList.take shownIdLength)
    let debug :=
      if project.startMode.isDebug then
        line ("Debug port:    " ++ portPair ports.internalDebugPort ports.exposedDebugPort)
      else ""
    portsTitle container ++
      line ("ID:            " ++ Style.yellow.apply id) ++
      line ("IP:            " ++ Style.cyan.apply info.ip) ++
      line ("App port:      " ++ portPair ports.internalPort ports.exposedPort) ++
      debug ++
      line ("All ports:     " ++ Style.dim.apply (", ".intercalate ports.containerPorts))

def typeText (kind : String) (capabilities : Capabilities) : String :=
  let modes := ", ".intercalate (capabilities.startModes.map StartMode.name)
  line (Style.green.apply kind ++ "  " ++ Style.dim.apply ("start modes: " ++ modes))

def noTypeText : String :=
  line (Style.yellow.apply "No known project type") ++
    line ("  " ++ Style.dim.apply "Tip: any directory with a Dockerfile builds as 'docker'")

def locationText : Option (Path × Bool) → String
  | some (path, true) =>
      line (Style.dim.apply "Location" ++ ": " ++ Style.dim.apply path) ++ "\n"
  | some (path, false) =>
      line (Style.dim.apply "Location" ++ ": " ++ Style.dim.apply path ++ " " ++
        Style.dim.apply "(not found, defaults)") ++ "\n"
  | none => line (Style.dim.apply "Using defaults") ++ "\n"

def assignSign : List Char := " = ".toList

def splitAssignment? (key : List Char) : List Char → Option (List Char × List Char)
  | [] => none
  | char :: rest =>
      if assignSign.isPrefixOf (char :: rest) then
        some (key.reverse, (char :: rest).drop assignSign.length)
      else splitAssignment? (char :: key) rest

def configurationLine (text : List Char) : String :=
  match text with
  | '[' :: _ => line (Style.yellow.apply (String.ofList text))
  | _ =>
      match splitAssignment? [] text with
      | some (key, value) =>
          line (Style.cyan.apply (String.ofList key) ++ " = " ++ String.ofList value)
      | none => line (String.ofList text)

/-- The lines of a text; a line break at its end begins no line. -/
def linesOf (text : List Char) : List (List Char) :=
  (InputLine.split (Text.bytesOf (String.ofList text))).filterMap fun line =>
    line.text?.map String.toList

def configurationText (location : Option (Path × Bool)) (configuration : Configuration) :
    String :=
  line (Style.bold.apply "Configuration") ++
    locationText location ++
    String.join ((linesOf configuration.text.toList).map configurationLine) ++
    "\n" ++ line (Style.bold.apply "Valid Ranges:") ++
    line "  coordinator.debounce_ms: 10-600,000"

/-! ### Commands -/

structure Ending where
  output : String := ""
  failure : Option Failure := none
deriving Repr, DecidableEq

def Ending.status (ending : Ending) : Nat :=
  if ending.failure.isSome then 1 else 0

def usageStatus : Nat := 2

structure Platform (m : Type → Type) where
  files : FileSystem m
  runner : CommandRunner m
  surroundings : Surroundings

namespace Platform

variable {m : Type → Type} [Monad m]

def configurationFailure (error : ConfigurationError) : Failure :=
  (Failure.of error.message).context "Failed to load configuration"

def configuration (platform : Platform m) (path? : Option Path) :
    ExceptT Failure m Configuration := do
  match ← ExceptT.lift (Configuration.load platform.files platform.surroundings path?) with
  | .ok configuration => return configuration
  | .error error => throw (configurationFailure error)

def docker (configuration : Configuration) : Docker :=
  { binary := configuration.containers.dockerBinary
    network := configuration.containers.network
    label := configuration.containers.buildLabel }

def services (platform : Platform m) (configuration : Configuration) : Services m :=
  Services.create platform.files ((docker configuration).runtime platform.runner)
    { path := configuration.projects.infoDirectory }

def ports (platform : Platform m) (path? : Option Path) (container project : String) :
    ExceptT Failure m String := do
  let services := platform.services (← platform.configuration path?)
  match ← ExceptT.lift (services.directory.read services.files project) with
  | .error error =>
      throw (error.failure.context ("Failed to read project info for " ++ project))
  | .ok info =>
      return portsText container info (← services.runtime.containerInfo container info)

def detect (platform : Platform m) (path? : Option Path) (location : Path) :
    ExceptT Failure m String := do
  let services := platform.services (← platform.configuration path?)
  match ← services.registry.detect services.files location with
  | [] => return noTypeText
  | kinds =>
      return String.join (kinds.map fun kind =>
        typeText kind (services.registry.capabilitiesFor kind))

def showConfiguration (platform : Platform m) (path? : Option Path) :
    ExceptT Failure m String := do
  let configuration ← platform.configuration path?
  match path?.or platform.surroundings.configurationFile with
  | none => return configurationText none configuration
  | some path =>
      let found ← platform.files.kind path
      return configurationText (some (path, found.isOk)) configuration

def conclude (action : ExceptT Failure m String) : m Ending := do
  match ← action.run with
  | .ok output => return { output := output }
  | .error failure => return { failure := some failure }

def coordinator (configuration : Configuration) : Coordinator :=
  { options := .ofConfiguration configuration }

def serve (platform : Platform m) (path? : Option Path) (input : List UInt8) : m Ending := do
  match ← (platform.configuration path?).run with
  | .error failure => return { failure := some failure }
  | .ok configuration =>
      let services := platform.services configuration
      let serving ← services.serve (coordinator configuration) input
      return { output := serving.output, failure := serving.failure }

def run (platform : Platform m) (invocation : Invocation) (input : List UInt8) : m Ending :=
  match invocation.command with
  | .serve => platform.serve invocation.configuration input
  | .ports container project =>
      conclude (platform.ports invocation.configuration container project)
  | .detect location => conclude (platform.detect invocation.configuration location)
  | .config true => return { output := Configuration.exampleText }
  | .config false => conclude (platform.showConfiguration invocation.configuration)

end Platform

end BuildWatch.CommandLine
