import BuildWatch.Configuration.Basic
import BuildWatch.Toml.Parser

/-!
Reading a configuration.  A section is a table, or an array of its values in
the order of their declaration; keys that are not known are ignored.
-/

namespace BuildWatch

open BuildWatch.Files
open BuildWatch.Toml (Item Entries)

namespace Configuration

/-- The values given for some keys by a table or an array. -/
def givenFor (keys : List String) : Item → Option (List (Option Item))
  | .table _ entries | .braced entries => some (keys.map (Entries.get? entries))
  | .array items => some (keys.zipIdx.map fun key => items[key.2]?)
  | .tables latest earlier =>
      let items := (latest :: earlier).reverse.map (Item.table .declared ·)
      some (keys.zipIdx.map fun key => items[key.2]?)
  | .scalar .moment => some (keys.map fun _ => none)
  | .scalar _ => none

def textOr (default : String) : Option Item → Option String
  | none => some default
  | some (.scalar (.string text)) => some text
  | some _ => none

def numberOr (default : UInt64) : Option Item → Option UInt64
  | none => some default
  | some (.scalar (.integer value)) =>
      if 0 ≤ value then some (UInt64.ofNat value.toNat) else none
  | some _ => none

def sectionOr {α : Type} (default : α) (read : Item → Option α) : Option Item → Option α
  | none => some default
  | some item => read item

def readCoordinator (standard : CoordinatorSection) (item : Item) : Option CoordinatorSection := do
  match ← givenFor ["debounce_ms", "settings_file"] item with
  | [debounceMs, settingsFile] =>
      return {
        debounceMs := ← numberOr standard.debounceMs debounceMs
        settingsFile := ← textOr standard.settingsFile settingsFile }
  | _ => none

def readProjects (standard : ProjectsSection) (item : Item) : Option ProjectsSection := do
  match ← givenFor ["info_dir"] item with
  | [infoDirectory] => return { infoDirectory := ← textOr standard.infoDirectory infoDirectory }
  | _ => none

def readContainers (standard : ContainersSection) (item : Item) : Option ContainersSection := do
  match ← givenFor ["docker_binary", "name_prefix", "network", "build_label"] item with
  | [dockerBinary, namePrefix, network, buildLabel] =>
      return {
        dockerBinary := ← textOr standard.dockerBinary dockerBinary
        namePrefix := ← textOr standard.namePrefix namePrefix
        network := ← textOr standard.network network
        buildLabel := ← textOr standard.buildLabel buildLabel }
  | _ => none

def ofToml? (surroundings : Surroundings) (text : String) : Option Configuration := do
  let entries ← Toml.parse? text
  let standard := standard surroundings
  return {
    coordinator := ← sectionOr standard.coordinator (readCoordinator standard.coordinator)
      (Entries.get? entries "coordinator")
    projects := ← sectionOr standard.projects (readProjects standard.projects)
      (Entries.get? entries "projects")
    containers := ← sectionOr standard.containers (readContainers standard.containers)
      (Entries.get? entries "containers") }

def ofFile (surroundings : Surroundings) (path : Path) (text : String) :
    Except ConfigurationError Configuration :=
  match ofToml? surroundings text with
  | none => .error (.malformed path)
  | some configuration => configuration.validate.map fun _ => configuration

/-- Load the configuration of a file, or of the file in its usual place.  A file
that does not exist says nothing. -/
def load {m : Type → Type} [Monad m] (files : FileSystem m) (surroundings : Surroundings)
    (path? : Option Path) : m (Except ConfigurationError Configuration) := do
  match path?.or surroundings.configurationFile with
  | none => return .ok (standard surroundings)
  | some path =>
      match ← files.readText path with
      | .error .notFound => return .ok (standard surroundings)
      | .error _ => return .error (.unreadable path)
      | .ok text => return ofFile surroundings path text

end Configuration

end BuildWatch
