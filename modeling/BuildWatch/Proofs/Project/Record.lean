import BuildWatch.Project.Info
import BuildWatch.Proofs.Json.Indented

/-!
A project record is read back from the text it is written as.  Only an empty debug port is not
kept: it is written as such, and read as none.
-/

namespace BuildWatch

open BuildWatch.Json

theorem StartMode.ofDocument?_written (mode : StartMode) :
    StartMode.ofDocument? mode.toJson.written = some mode := by
  have hName := text?_ofText mode.name
  rw [toJson, Value.written, ofDocument?, Document.oneOf?, hName, Option.bind_some]
  cases mode with
  | run => decide
  | debug => decide
  | debugNoInit => decide

namespace ProjectInfo

/-- The document a text is written as, if there is one. -/
def writtenText (text : Option String) : Option Document :=
  text.map fun text => (Value.string text).written

/-- A record as it is read again. -/
def asRead (info : ProjectInfo) : ProjectInfo :=
  { info with debugPort := info.debugPort.filter fun port => !port.isEmpty }

theorem optional_writtenText (text : Option String) :
    Json.optional Document.string? (writtenText text) = some text := by
  cases text with
  | none => rfl
  | some text =>
      calc Json.optional Document.string? (writtenText (some text))
          = (Value.string text).written.string?.map some := rfl
        _ = some (some text) := by rw [string?_written, Option.map_some]

theorem portOfDocument?_written (port : String) :
    portOfDocument? (Value.string port).written = some port := by
  rw [portOfDocument?, string?_written]

theorem portsOfDocument?_written (ports : List String) :
    portsOfDocument? (Value.array (ports.map .string)).written = some ports := by
  have hPorts := list?_written portOfDocument? Value.string portOfDocument?_written ports
  calc portsOfDocument? (Value.array (ports.map .string)).written
      = (((Value.array (ports.map .string)).written.list? portOfDocument?).map some).map
          (·.getD []) := rfl
    _ = some ports := by rw [hPorts, Option.map_some, Option.map_some, Option.getD_some]

theorem debugPort_writtenText (port : Option String) :
    orElse none debugPortOfDocument? (writtenText port) =
      some (port.filter fun port => !port.isEmpty) := by
  cases port with
  | none => rfl
  | some port =>
      calc orElse none debugPortOfDocument? (writtenText (some port))
          = ((portOfDocument? (Value.string port).written).map some).map
              (·.filter fun port => !port.isEmpty) := rfl
        _ = some ((some port).filter fun port => !port.isEmpty) := by
          rw [portOfDocument?_written, Option.map_some, Option.map_some]

theorem fields?_toJson (info : ProjectInfo) :
    Document.fields? fields info.toJson.written =
      some [some (Value.string info.id).written, some (Value.string info.kind).written,
        writtenText info.name, some (Value.string info.location).written,
        some (Value.bool info.autoBuild).written,
        some (Value.array (info.appPorts.map .string)).written, writtenText info.debugPort,
        some info.startMode.toJson.written, writtenText info.contextRoot] := by
  obtain ⟨id, kind, name, location, autoBuild, appPorts, debugPort, startMode, contextRoot⟩ := info
  rw [toJson, fields?_written]
  -- Which members there are depends on the three that may be left out.
  cases name <;> cases debugPort <;> cases contextRoot <;> rfl

theorem ofDocument?_written (info : ProjectInfo) :
    ofDocument? info.toJson.written = some info.asRead := by
  rw [ofDocument?, fields?_toJson]
  simp [required, orElse_some, string?_written, bool?_written, optional_writtenText,
    portsOfDocument?_written, StartMode.ofDocument?_written, debugPort_writtenText, asRead]

theorem isWhole_optionalMember (key : String) (text : Option String) :
    ∀ member ∈ optionalMember key text, member.2.isWhole = true := by
  cases text with
  | none => exact List.forall_mem_nil _
  | some text => exact List.forall_mem_singleton.mpr (Value.isWhole_string text)

theorem isWhole_toJson (info : ProjectInfo) : info.toJson.isWhole = true := by
  rw [toJson, Value.isWhole, Value.haveWhole_iff]
  intro member hMember
  simp only [List.mem_append, List.mem_cons, List.not_mem_nil, or_false] at hMember
  rcases hMember with (((((rfl | rfl) | hName) | rfl | rfl | rfl) | hPort) | rfl) | hRoot
  · rfl
  · rfl
  · exact isWhole_optionalMember _ _ member hName
  · rfl
  · rfl
  · exact Value.isWhole_strings info.appPorts
  · exact isWhole_optionalMember _ _ member hPort
  · rfl
  · exact isWhole_optionalMember _ _ member hRoot

theorem ofText?_fileText (info : ProjectInfo) : ofText? info.fileText = some info.asRead := by
  rw [ofText?, fileText, Document.ofText?_indentedText info.isWhole_toJson, Option.bind_eq_bind,
    Option.bind_some, ofDocument?_written]

theorem filter_debugPort {given : Option Document} {port : Option String}
    (hPort : orElse none debugPortOfDocument? given = some port) :
    port.filter (fun port => !port.isEmpty) = port := by
  cases given with
  | none =>
      obtain rfl := Option.some.inj hPort
      rfl
  | some document =>
      obtain ⟨read, _, rfl⟩ := Option.map_eq_some_iff.mp hPort
      rw [Option.filter_filter]
      simp

/-- What is given for each field of a record, and is read as its value. -/
structure Given (info : ProjectInfo) where
  id : Option Document
  kind : Option Document
  name : Option Document
  location : Option Document
  autoBuild : Option Document
  appPorts : Option Document
  debugPort : Option Document
  startMode : Option Document
  contextRoot : Option Document
  id_read : required Document.string? id = some info.id
  kind_read : required Document.string? kind = some info.kind
  name_read : Json.optional Document.string? name = some info.name
  location_read : required Document.string? location = some info.location
  autoBuild_read : orElse true Document.bool? autoBuild = some info.autoBuild
  appPorts_read : orElse [] portsOfDocument? appPorts = some info.appPorts
  debugPort_read : orElse none debugPortOfDocument? debugPort = some info.debugPort
  startMode_read : orElse .run StartMode.ofDocument? startMode = some info.startMode
  contextRoot_read : Json.optional Document.string? contextRoot = some info.contextRoot

def Given.inOrder {info : ProjectInfo} (given : Given info) : List (Option Document) :=
  [given.id, given.kind, given.name, given.location, given.autoBuild, given.appPorts,
    given.debugPort, given.startMode, given.contextRoot]

theorem exists_given {document : Document} {info : ProjectInfo}
    (hInfo : ofDocument? document = some info) :
    ∃ given : Given info, document.fields? fields = some given.inOrder := by
  obtain ⟨inOrder, hFields, hRead⟩ := Option.bind_eq_some_iff.mp hInfo
  split at hRead
  · next id kind name location autoBuild appPorts debugPort startMode contextRoot =>
      simp only [Option.bind_eq_bind, Option.bind_eq_some_iff, Option.pure_def, Option.some.injEq]
        at hRead
      obtain ⟨_, hId, _, hKind, _, hName, _, hLocation, _, hBuild, _, hPorts, _, hDebug, _, hMode,
        _, hRoot, rfl⟩ := hRead
      exact ⟨⟨id, kind, name, location, autoBuild, appPorts, debugPort, startMode, contextRoot,
        hId, hKind, hName, hLocation, hBuild, hPorts, hDebug, hMode, hRoot⟩, hFields⟩
  · cases hRead

/-- A record that was read is read again as it is. -/
theorem asRead_of_ofText? {text : String} {info : ProjectInfo} (hText : ofText? text = some info) :
    info.asRead = info := by
  obtain ⟨document, _, hInfo⟩ := Option.bind_eq_some_iff.mp hText
  obtain ⟨given, _⟩ := exists_given hInfo
  rw [asRead, filter_debugPort given.debugPort_read]

end ProjectInfo

end BuildWatch
