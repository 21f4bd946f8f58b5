/-!
Paths as texts.  A path is made of names with slashes between them; nothing is
normalised when paths are put together.
-/

namespace BuildWatch.Files

abbrev Path := String

def isAbsolute (path : Path) : Bool :=
  path.startsWith "/"

/-- A path seen from a base: an absolute path replaces the base, any other is
appended after one slash. -/
def join (base path : Path) : Path :=
  if isAbsolute path then path
  else if base.isEmpty || base.endsWith "/" then base ++ path
  else base ++ "/" ++ path

/-- The parts of a path between slashes; some may be empty. -/
def parts (path : Path) : List String :=
  (path.toList.splitOn '/').map String.ofList

end BuildWatch.Files
