import BuildWatch.Failure
import BuildWatch.Files.System

/-!
The configuration of the watcher.  Every key has a value of its own, so a file
may give any part of them, or be missing.
-/

namespace BuildWatch

open BuildWatch.Files

/-! ### Where files are kept -/

structure Surroundings where
  home : Option Path := none
  configurations : Option Path := none
  data : Option Path := none
  temporary : Path := "/tmp"
deriving Repr, DecidableEq

namespace Surroundings

/-- A directory that is named and starts at the root, or else one below the home
directory. -/
def directory (surroundings : Surroundings) (named : Option Path) (belowHome : Path) :
    Option Path :=
  match named.filter isAbsolute with
  | some path => some path
  | none => (surroundings.home.filter (fun path => !path.isEmpty)).map (join · belowHome)

def configurationFile (surroundings : Surroundings) : Option Path :=
  (surroundings.directory surroundings.configurations ".config").map fun base =>
    join (join base "pfw") "config.toml"

def infoDirectory (surroundings : Surroundings) : Path :=
  let base := surroundings.directory surroundings.data ".local/share"
  join (join (base.getD surroundings.temporary) "pfw") "projects"

end Surroundings

/-! ### The parts of a configuration -/

structure CoordinatorSection where
  /-- The quiet period, in milliseconds, after which an incomplete batch is built. -/
  debounceMs : UInt64 := 20000
  settingsFile : String := ".cw-settings"
deriving Repr, DecidableEq

structure ProjectsSection where
  infoDirectory : Path
deriving Repr, DecidableEq

structure ContainersSection where
  dockerBinary : String := "docker"
  namePrefix : String := "mc-"
  network : String := "microclimate_network"
  buildLabel : String := "builtBy=microclimate"
deriving Repr, DecidableEq

structure Configuration where
  coordinator : CoordinatorSection := {}
  projects : ProjectsSection
  containers : ContainersSection := {}
deriving Repr, DecidableEq

namespace Configuration

def standard (surroundings : Surroundings) : Configuration :=
  { projects := { infoDirectory := surroundings.infoDirectory } }

def debounceNanos (configuration : Configuration) : Nat :=
  configuration.coordinator.debounceMs.toNat * 1000000

def containerName (configuration : Configuration) (id : String) : String :=
  configuration.containers.namePrefix ++ id

end Configuration

/-! ### Checks -/

inductive ConfigurationError where
  | unreadable (path : Path)
  | malformed (path : Path)
  | outOfRange (key : String) (value least greatest : Nat)
  | empty (key : String)
deriving Repr, DecidableEq

def ConfigurationError.message : ConfigurationError → String
  | .unreadable path => "failed to read config file " ++ path ++ ": " ++ ioTag
  | .malformed path => "failed to parse config file " ++ path ++ ": " ++ tomlTag
  | .outOfRange key value least greatest =>
      key ++ " must be in " ++ toString least ++ "..=" ++ toString greatest ++ ", got " ++
        toString value
  | .empty key => key ++ " must not be empty"

namespace Configuration

def leastDebounce : Nat := 10

def greatestDebounce : Nat := 600000

/-- Check the values of a configuration; the first fault is reported. -/
def validate (configuration : Configuration) : Except ConfigurationError Unit :=
  let debounce := configuration.coordinator.debounceMs.toNat
  if debounce < leastDebounce ∨ greatestDebounce < debounce then
    .error (.outOfRange "coordinator.debounce_ms" debounce leastDebounce greatestDebounce)
  else if configuration.coordinator.settingsFile.isEmpty then
    .error (.empty "coordinator.settings_file")
  else if configuration.containers.dockerBinary.isEmpty then
    .error (.empty "containers.docker_binary")
  else .ok ()

end Configuration

end BuildWatch
