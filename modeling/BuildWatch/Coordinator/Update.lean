/-!
What comes of a request to build a project.
-/

namespace BuildWatch

inductive UpdateError where
  | badRequest (text : String)
  | notFound (project : String)
  | internal (project : String)
deriving Repr, DecidableEq

namespace UpdateError

def code : UpdateError → Nat
  | .badRequest _ => 400
  | .notFound _ => 404
  | .internal _ => 500

def message : UpdateError → String
  | .badRequest text => text
  | .notFound project => "Project does not exist " ++ project
  | .internal project => "Internal error occurred when updating project " ++ project

def missingProject : UpdateError :=
  .badRequest "Bad request, projectID is required."

def missingFields : UpdateError :=
  .badRequest "Bad request. projectID, timestamp, chunk, chunk_total and eventArray are required."

end UpdateError

abbrev UpdateResult := Except UpdateError Unit

def statusCode : UpdateResult → Nat
  | .ok _ => 202
  | .error error => error.code

def statusMessage : UpdateResult → Option String
  | .ok _ => none
  | .error error => some error.message

end BuildWatch
