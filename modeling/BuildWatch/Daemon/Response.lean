import BuildWatch.Coordinator.Update
import BuildWatch.Json.Printer

/-!
Responses of the daemon, each one line of JSON.
-/

namespace BuildWatch

open BuildWatch.Json

structure Response where
  code : Nat
  message : Option String := none
  data : Option Value := none
deriving Repr

namespace Response

def ok (data : Value) : Response :=
  { code := 200, data := some data }

def error (code : Nat) (message : String) : Response :=
  { code := code, message := some message }

def ofUpdate (result : UpdateResult) : Response :=
  { code := statusCode result, message := statusMessage result }

def optionalMember (key : String) : Option Value → List (String × Value)
  | some value => [(key, value)]
  | none => []

def toJson (response : Response) : Value :=
  .object <|
    ("statusCode", .number (.int response.code)) ::
      (optionalMember "message" (response.message.map .string) ++
        optionalMember "data" (response.data.map Value.sorted))

def text (response : Response) : String := response.toJson.text

end Response

end BuildWatch
