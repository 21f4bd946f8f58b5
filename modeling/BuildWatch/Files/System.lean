import BuildWatch.Files.Path
import BuildWatch.Text.Utf8

/-!
What the watcher asks of a file system, and how it can fail.
-/

namespace BuildWatch.Files

inductive FileError where
  | notFound
  | notADirectory
  | isADirectory
  | nameTooLong
  | zeroInName
  | notText
  | refused
deriving Repr, DecidableEq

def FileError.message : FileError → String
  | .notFound => "No such file or directory (os error 2)"
  | .notADirectory => "Not a directory (os error 20)"
  | .isADirectory => "Is a directory (os error 21)"
  | .nameTooLong => "File name too long (os error 36)"
  | .zeroInName => "file name contained an unexpected NUL byte"
  | .notText => "stream did not contain valid UTF-8"
  | .refused => "Permission denied (os error 13)"

inductive FileKind where
  | file
  | directory
  | other
deriving Repr, DecidableEq

structure FileSystem (m : Type → Type) where
  read : Path → m (Except FileError ByteArray)
  write : Path → ByteArray → m (Except FileError Unit)
  kind : Path → m (Except FileError FileKind)

namespace FileSystem

variable {m : Type → Type} [Monad m]

def textOf (bytes : ByteArray) : Except FileError String :=
  match Text.Utf8.text? bytes.toList with
  | some text => .ok text
  | none => .error .notText

def readText (files : FileSystem m) (path : Path) : m (Except FileError String) := do
  match ← files.read path with
  | .ok bytes => return textOf bytes
  | .error fault => return .error fault

def isFile (files : FileSystem m) (path : Path) : m Bool := do
  match ← files.kind path with
  | .ok .file => return true
  | _ => return false

end FileSystem

end BuildWatch.Files
