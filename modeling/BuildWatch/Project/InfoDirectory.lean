import BuildWatch.Project.ChangeEvent
import BuildWatch.Project.Settings

/-!
A directory of project records, one file per project, named for its id.
-/

namespace BuildWatch

open BuildWatch.Files

inductive LookupError where
  | notFound (id : String)
  | unreadable (path : Path)
  | malformed (path : Path)
deriving Repr, DecidableEq

namespace LookupError

def message : LookupError → String
  | .notFound id => "Project does not exist " ++ id
  | .unreadable path => "failed to read project info " ++ path ++ ": " ++ ioTag
  | .malformed path => "failed to parse project info " ++ path ++ ": " ++ jsonTag

def failure (error : LookupError) : Failure :=
  match error with
  | .notFound _ => Failure.of error.message
  | .unreadable _ => { messages := [error.message, ioTag] }
  | .malformed _ => { messages := [error.message, jsonTag] }

end LookupError

structure InfoDirectory where
  path : Path
deriving Repr, DecidableEq

namespace InfoDirectory

def infoFile (directory : InfoDirectory) (id : String) : Path :=
  join directory.path (id ++ ".json")

/-- Ids come from outside: one that could lead out of the directory, or to a
hidden file, names no project. -/
def isSafeId (id : String) : Bool :=
  !id.isEmpty && !id.toList.any ChangeEvent.isSeparator && !id.startsWith "."

variable {m : Type → Type} [Monad m]

def read (directory : InfoDirectory) (files : FileSystem m) (id : String) :
    m (Except LookupError ProjectInfo) := do
  if !isSafeId id then return .error (.notFound id)
  let path := directory.infoFile id
  match ← files.readText path with
  | .error .notFound => return .error (.notFound id)
  | .error _ => return .error (.unreadable path)
  | .ok text =>
      match ProjectInfo.ofText? text with
      | some info => return .ok info
      | none => return .error (.malformed path)

def write (directory : InfoDirectory) (files : FileSystem m) (info : ProjectInfo) :
    m (Except LookupError Unit) := do
  let path := directory.infoFile info.id
  match ← files.write path info.fileText.toUTF8 with
  | .ok _ => return .ok ()
  | .error _ => return .error (.unreadable path)

/-- Take settings into the record of a project; the file is written only if the
record changes. -/
def apply (directory : InfoDirectory) (files : FileSystem m) (id : String)
    (settings : Settings) : m (Except LookupError Unit) := do
  match ← directory.read files id with
  | .error error => return .error error
  | .ok info =>
      if settings.changes info then directory.write files (settings.applyTo info)
      else return .ok ()

end InfoDirectory

end BuildWatch
