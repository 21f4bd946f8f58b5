import BuildWatch.Daemon.Services
import BuildWatch.Proofs.Json.OneLine
import BuildWatch.Proofs.Project.InfoDirectory

/-!
What a reply looks like: one line, a JSON object with one of five status codes, whatever texts the
request, the records and the messages hold.
-/

namespace BuildWatch

open BuildWatch.Json

namespace Response

def codes : List Nat := [200, 202, 400, 404, 500]

def codeOf? : Document → Option Nat
  | .object members => do
      match ← (Document.object members).fields? [{ name := "statusCode" }] with
      | [some code] => code.naturalBelow? (Nat.pow 2 16)
      | _ => none
  | _ => none

/-- The status code in a reply, if the reply is an object with such a code. -/
def codeOfText? (reply : String) : Option Nat :=
  (Document.ofText? reply).bind codeOf?

/-- A reply as clients expect it: an object on one line, with one of the status codes. -/
structure IsReply (reply : String) : Prop where
  noNewline : '\n' ∉ reply.toList
  noReturn : '\r' ∉ reply.toList
  hasCode : ∃ code ∈ codes, codeOfText? reply = some code

/-- A response with one of the status codes and with data that have no fractions. -/
structure IsProper (response : Response) : Prop where
  code_mem : response.code ∈ codes
  isWhole_data : ∀ data, response.data = some data → data.isWhole = true

/-! ### The text of a response -/

theorem isWhole_toJson {response : Response} (hProper : response.IsProper) :
    response.toJson.isWhole = true := by
  rw [toJson, Value.isWhole, Value.haveWhole_iff]
  intro member hMember
  rw [List.mem_cons, List.mem_append] at hMember
  rcases hMember with rfl | hMessage | hData
  · rfl
  · cases hGiven : response.message with
    | none =>
        rw [hGiven] at hMessage
        exact absurd hMessage List.not_mem_nil
    | some message =>
        rw [hGiven] at hMessage
        rw [List.mem_singleton.mp hMessage]
        rfl
  · cases hGiven : response.data with
    | none =>
        rw [hGiven] at hData
        exact absurd hData List.not_mem_nil
    | some data =>
        rw [hGiven] at hData
        rw [List.mem_singleton.mp hData]
        exact data.isWhole_sorted (hProper.isWhole_data data hGiven)

theorem fields?_toJson (response : Response) :
    response.toJson.written.fields? [{ name := "statusCode" }] =
      some [some (Value.number (.int response.code)).written] := by
  obtain ⟨code, message, data⟩ := response
  rw [toJson, fields?_written]
  -- Which other members there are does not matter, none of them has the name.
  cases message <;> cases data <;> rfl

theorem codeOf?_toJson (response : Response) :
    codeOf? response.toJson.written =
      (Value.number (.int response.code)).written.naturalBelow? (Nat.pow 2 16) := by
  have hFields := response.fields?_toJson
  obtain ⟨members, hMembers⟩ : ∃ members, response.toJson.written = .object members :=
    ⟨_, by rw [toJson, Value.written]⟩
  rw [hMembers] at hFields ⊢
  rw [codeOf?, hFields]
  rfl

theorem codeOfText?_text {response : Response} (hProper : response.IsProper) :
    codeOfText? response.text = some response.code := by
  have hBound : ∀ code ∈ codes, code < Nat.pow 2 16 := by decide
  have hCode := naturalBelow?_written (show Nat.pow 2 16 ≤ Nat.pow 2 64 by decide)
    (hBound response.code hProper.code_mem)
  rw [codeOfText?, text, Document.ofText?_text (isWhole_toJson hProper), Option.bind_some,
    codeOf?_toJson, hCode]

theorem isReply_text {response : Response} (hProper : response.IsProper) :
    IsReply response.text := by
  have hPrinted : ∀ char ∈ response.text.toList, IsPrinted char := by
    intro char hChar
    rw [text, Value.text, String.toList_ofList] at hChar
    exact isPrinted_render _ char hChar
  refine ⟨?_, ?_, response.code, hProper.code_mem, codeOfText?_text hProper⟩
  · intro hNewline
    exact (hPrinted _ hNewline).ne_newline rfl
  · intro hReturn
    exact (hPrinted _ hReturn).ne_return rfl

/-! ### Single responses -/

theorem isProper_of_noData {response : Response} (hCode : response.code ∈ codes)
    (hData : response.data = none) : response.IsProper := by
  refine ⟨hCode, ?_⟩
  intro data hGiven
  rw [hData] at hGiven
  cases hGiven

theorem isProper_error {code : Nat} (hCode : code ∈ codes) (message : String) :
    (error code message).IsProper :=
  isProper_of_noData hCode rfl

theorem isProper_ok {data : Value} (hData : data.isWhole = true) : (ok data).IsProper := by
  refine ⟨show 200 ∈ codes by decide, ?_⟩
  rintro _ ⟨⟩
  exact hData

theorem statusCode_mem (result : UpdateResult) : statusCode result ∈ codes := by
  cases result with
  | ok _ => exact show 202 ∈ codes by decide
  | error error =>
      cases error with
      | badRequest _ => exact show 400 ∈ codes by decide
      | notFound _ => exact show 404 ∈ codes by decide
      | internal _ => exact show 500 ∈ codes by decide

theorem isProper_ofUpdate (result : UpdateResult) : (ofUpdate result).IsProper :=
  isProper_of_noData (statusCode_mem result) rfl

end Response

/-! ### Data -/

theorem ContainerInfo.isWhole_toJson (info : ContainerInfo) : info.toJson.isWhole = true := by
  have hText (text : Option String) : (textOrNull text).isWhole = true := by
    cases text <;> rfl
  rw [toJson, Value.isWhole, Value.haveWhole_iff]
  simp only [List.mem_cons, List.not_mem_nil, or_false, forall_eq_or_imp, forall_eq,
    Value.isWhole_string, Value.isWhole_strings, hText, and_self]

theorem Capabilities.isWhole_toJson (capabilities : Capabilities) :
    capabilities.toJson.isWhole = true := by
  have hModes := Value.isWhole_map StartMode.toJson (fun _ => rfl) capabilities.startModes
  have hCommands :=
    Value.isWhole_map ControlCommand.toJson (fun _ => rfl) capabilities.controlCommands
  rw [toJson, Value.isWhole, Value.haveWhole_iff]
  simp only [List.mem_cons, List.not_mem_nil, or_false, forall_eq_or_imp, forall_eq, hModes,
    hCommands, and_self]

namespace Services

open Response

/-! ### Answering requests -/

variable {World : Type} (services : Services (StateM World))

theorem isProper_lookupResponse (error : LookupError) : (lookupResponse error).IsProper := by
  cases error with
  | notFound id => exact isProper_error (by decide) _
  | unreadable path => exact isProper_error (by decide) _
  | malformed path => exact isProper_error (by decide) _

theorem isProper_withProject {project : String} {answer : ProjectInfo → StateM World Response}
    (hAnswer : ∀ info world, ((answer info).run world).1.IsProper) (world : World) :
    ((services.withProject project answer).run world).1.IsProper := by
  unfold withProject
  rw [InfoDirectory.run_bind]
  cases ((services.directory.read services.files project).run world).1 with
  | error error => exact isProper_lookupResponse error
  | ok info => exact hAnswer info _

theorem isProper_portsResponse (answer : Except Failure ContainerInfo) :
    (portsResponse answer).IsProper := by
  cases answer with
  | error failure => exact isProper_error (by decide) _
  | ok info => exact isProper_ok info.isWhole_toJson

theorem isProper_detectResponse (answer : Except Failure (List String)) :
    (detectResponse answer).IsProper := by
  cases answer with
  | error failure => exact isProper_error (by decide) _
  | ok kinds => exact isProper_ok (Value.isWhole_strings kinds)

theorem isProper_handle (coordinator : Coordinator) (request : Request) (world : World) :
    ((services.handle coordinator request).run world).1.2.IsProper := by
  cases request with
  | update project => exact isProper_ofUpdate _
  | notify notification packed =>
      simp only [handle]
      cases eventsOf notification packed with
      | error error => exact isProper_error (show 400 ∈ codes by decide) _
      | ok events => exact isProper_ofUpdate _
  | ports container project =>
      rw [handle, InfoDirectory.run_bind]
      refine services.isProper_withProject ?_ world
      intro info later
      exact isProper_portsResponse _
  | debugPortChanged container project =>
      rw [handle, InfoDirectory.run_bind]
      refine services.isProper_withProject ?_ world
      intro info later
      exact isProper_ok rfl
  | capabilities kind => exact isProper_ok (Capabilities.isWhole_toJson _)
  | types => exact isProper_ok (Value.isWhole_strings _)
  | detect location => exact isProper_detectResponse _

theorem isReply_handleLine (coordinator : Coordinator) (line : String) (world : World) :
    IsReply ((services.handleLine coordinator line).run world).1.2 := by
  unfold handleLine
  cases Request.ofText? line with
  | none => exact isReply_text (isProper_error (by decide) _)
  | some request => exact isReply_text (services.isProper_handle coordinator request world)

end Services

end BuildWatch
