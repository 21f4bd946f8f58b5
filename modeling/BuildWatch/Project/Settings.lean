import BuildWatch.Failure
import BuildWatch.Files.System
import BuildWatch.Project.Info

/-!
Settings files.  A settings file at the root of a project overrides part of the
project's record.  Its fields are checked one by one, in the order of their
names, and all faults are reported together.
-/

namespace BuildWatch

open BuildWatch.Json

structure Settings where
  contextRoot : Option String := none
  appPort : Option String := none
  debugPort : Option String := none
  healthCheck : Option String := none
  watchedFiles : Option Value := none
  ignoredPaths : List String := []
  mavenProfiles : List String := []
  mavenProperties : List String := []
  isHttps : Option Bool := none
  statusPingTimeout : Option String := none
deriving Repr

inductive SettingKind where
  | text
  | number
  | object
  | texts
  | flag
deriving Repr, DecidableEq

def SettingKind.name : SettingKind → String
  | .text => "a string"
  | .number => "a number"
  | .object => "an object"
  | .texts => "an array of strings"
  | .flag => "a boolean"

inductive SettingKey where
  | contextRoot
  | appPort
  | debugPort
  | healthCheck
  | watchedFiles
  | ignoredPaths
  | mavenProfiles
  | mavenProperties
  | isHttps
  | statusPingTimeout
deriving Repr, DecidableEq

namespace SettingKey

def name : SettingKey → String
  | .contextRoot => "contextRoot"
  | .appPort => "internalAppPort"
  | .debugPort => "internalDebugPort"
  | .healthCheck => "healthCheck"
  | .watchedFiles => "watchedFiles"
  | .ignoredPaths => "ignoredPaths"
  | .mavenProfiles => "mavenProfiles"
  | .mavenProperties => "mavenProperties"
  | .isHttps => "isHttps"
  | .statusPingTimeout => "statusPingTimeout"

/-- The settings, in the order in which they are written. -/
def all : List SettingKey :=
  [.contextRoot, .appPort, .debugPort, .healthCheck, .watchedFiles, .ignoredPaths,
   .mavenProfiles, .mavenProperties, .isHttps, .statusPingTimeout]

def ofName? (key : String) : Option SettingKey :=
  all.find? (fun setting => setting.name == key)

def kind : SettingKey → SettingKind
  | .contextRoot | .healthCheck => .text
  | .appPort | .debugPort | .statusPingTimeout => .number
  | .watchedFiles => .object
  | .ignoredPaths | .mavenProfiles | .mavenProperties => .texts
  | .isHttps => .flag

def title : SettingKey → String
  | .contextRoot => "context root"
  | .appPort => "application port"
  | .debugPort => "debug port"
  | .healthCheck => "health check"
  | .watchedFiles => "watched files"
  | key => key.name

end SettingKey

inductive SettingFault where
  | unknown (key : String)
  | unsuitable (key : SettingKey) (shown : String)
deriving Repr, DecidableEq

def SettingFault.message : SettingFault → String
  | .unknown key => "Invalid setting: Could not identify the setting: " ++ key
  | .unsuitable key shown =>
      "Invalid " ++ key.title ++ ": Could not convert \"" ++ shown ++ "\" to " ++ key.kind.name

inductive SettingsError where
  | invalid (faults : List SettingFault)
  | notAnObject
  | malformed
  | unreadable (fault : Files.FileError)
deriving Repr, DecidableEq

def SettingsError.message : SettingsError → String
  | .invalid faults => ", ".intercalate (faults.map SettingFault.message)
  | .notAnObject => "settings file is not a JSON object"
  | .malformed => "failed to parse settings: " ++ jsonTag
  | .unreadable _ => "failed to read settings: " ++ ioTag

namespace Settings

/-! ### Reading the fields -/

/-- A value as a message shows it: a text without quotes, all else as JSON. -/
def shown : Value → String
  | .string text => text
  | value => value.text

def textOf? : Value → Option String
  | .string text => some text
  | _ => none

/-- A number, kept as text; a text is taken as it is. -/
def numberOf? : Value → Option String
  | .string text => some text
  | .number value => some (String.ofList value.render)
  | _ => none

def textsOf? : Value → Option (List String)
  | .array items => items.mapM textOf?
  | _ => none

def flagOf? : Value → Option Bool
  | .bool value => some value
  | _ => none

def objectOf? : Value → Option Value
  | .object members => some (.object members)
  | _ => none

def set? (settings : Settings) (key : SettingKey) (value : Value) : Option Settings :=
  match key with
  | .contextRoot => (textOf? value).map fun text => { settings with contextRoot := some text }
  | .appPort => (numberOf? value).map fun text => { settings with appPort := some text }
  | .debugPort => (numberOf? value).map fun text => { settings with debugPort := some text }
  | .healthCheck => (textOf? value).map fun text => { settings with healthCheck := some text }
  | .watchedFiles => (objectOf? value).map fun value => { settings with watchedFiles := some value }
  | .ignoredPaths => (textsOf? value).map fun texts => { settings with ignoredPaths := texts }
  | .mavenProfiles => (textsOf? value).map fun texts => { settings with mavenProfiles := texts }
  | .mavenProperties => (textsOf? value).map fun texts => { settings with mavenProperties := texts }
  | .isHttps => (flagOf? value).map fun flag => { settings with isHttps := some flag }
  | .statusPingTimeout =>
      (numberOf? value).map fun text => { settings with statusPingTimeout := some text }

def takeField (settings : Settings) (key : String) (value : Value) :
    Except SettingFault Settings :=
  match SettingKey.ofName? key with
  | none => .error (.unknown key)
  | some setting =>
      match settings.set? setting value with
      | some settings => .ok settings
      | none => .error (.unsuitable setting (shown value))

def takeFields (settings : Settings) : List (String × Value) → Settings × List SettingFault
  | [] => (settings, [])
  | (key, value) :: rest =>
      match settings.takeField key value with
      | .ok settings => settings.takeFields rest
      | .error fault =>
          let (settings, faults) := settings.takeFields rest
          (settings, fault :: faults)

def parse (text : String) : Except SettingsError Settings :=
  match Value.ofText? text with
  | none => .error .malformed
  | some (.object members) =>
      match takeFields {} members with
      | (settings, []) => .ok settings
      | (_, faults) => .error (.invalid faults)
  | some _ => .error .notAnObject

def load {m : Type → Type} [Monad m] (files : Files.FileSystem m) (path : Files.Path) :
    m (Except SettingsError Settings) := do
  match ← files.readText path with
  | .ok text => return parse text
  | .error fault => return .error (.unreadable fault)

/-! ### Writing, and reading what was written -/

def optionalMember (key : SettingKey) (value : Option Value) : List (String × Value) :=
  match value with
  | some value => [(key.name, value)]
  | none => []

def listMember (key : SettingKey) (texts : List String) : List (String × Value) :=
  if texts.isEmpty then [] else [(key.name, .array (texts.map .string))]

def toJson (settings : Settings) : Value :=
  .object <|
    optionalMember .contextRoot (settings.contextRoot.map .string) ++
    optionalMember .appPort (settings.appPort.map .string) ++
    optionalMember .debugPort (settings.debugPort.map .string) ++
    optionalMember .healthCheck (settings.healthCheck.map .string) ++
    optionalMember .watchedFiles settings.watchedFiles ++
    listMember .ignoredPaths settings.ignoredPaths ++
    listMember .mavenProfiles settings.mavenProfiles ++
    listMember .mavenProperties settings.mavenProperties ++
    optionalMember .isHttps (settings.isHttps.map .bool) ++
    optionalMember .statusPingTimeout (settings.statusPingTimeout.map .string)

def text (settings : Settings) : String := settings.toJson.text

def fields : List Field := SettingKey.all.map fun key => { name := key.name }

/-- A text that may be null; a record of settings keeps it in any case. -/
def textField? (given : Option Document) (isList : Bool) : Option (Option String) :=
  match given with
  | some document => document.orNull? Document.string?
  | none => if isList then none else some none

def isArray : Document → Bool
  | .array _ => true
  | _ => false

/-- Read settings as a record, each field in the kind in which it is kept.  In
a record given as an array only the lists of texts may be left out. -/
def ofDocument? (document : Document) : Option Settings := do
  let isList := isArray document
  match ← document.fields? fields with
  | [contextRoot, appPort, debugPort, healthCheck, watchedFiles, ignoredPaths, mavenProfiles,
      mavenProperties, isHttps, statusPingTimeout] =>
      return {
        contextRoot := ← textField? contextRoot isList
        appPort := ← textField? appPort isList
        debugPort := ← textField? debugPort isList
        healthCheck := ← textField? healthCheck isList
        watchedFiles := ← (match watchedFiles with
          | some document => document.orNull? (·.value? (nestingLimit - 1))
          | none => if isList then none else some none)
        ignoredPaths := ← orElse [] (·.list? Document.string?) ignoredPaths
        mavenProfiles := ← orElse [] (·.list? Document.string?) mavenProfiles
        mavenProperties := ← orElse [] (·.list? Document.string?) mavenProperties
        isHttps := ← (match isHttps with
          | some document => document.orNull? Document.bool?
          | none => if isList then none else some none)
        statusPingTimeout := ← textField? statusPingTimeout isList }
  | _ => none

/-! ### Applying settings -/

def applyTo (settings : Settings) (info : ProjectInfo) : ProjectInfo :=
  { info with
    contextRoot := settings.contextRoot.or info.contextRoot
    appPorts := match settings.appPort with
      | some port => [port]
      | none => info.appPorts
    debugPort := settings.debugPort.or info.debugPort }

def changes (settings : Settings) (info : ProjectInfo) : Bool :=
  settings.applyTo info != info

end Settings

end BuildWatch
