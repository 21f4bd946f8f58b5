import BuildWatch.Files.System

/-!
A file tree in memory.  It answers as a case-sensitive file system does:
names hold at most 255 bytes, paths at most 4095, and every part of a path but
the last must be a directory.
-/

namespace BuildWatch.Files

inductive Entry where
  | file (bytes : ByteArray)
  | directory

instance : DecidableEq Entry
  | .file bytes, .file other =>
      have : Decidable (bytes = other) := ByteArray.decEq bytes other
      decidable_of_iff' (bytes = other) (Entry.file.injEq bytes other).to_iff
  | .directory, .directory => isTrue rfl
  | .file _, .directory => isFalse nofun
  | .directory, .file _ => isFalse nofun

abbrev Place := List String

/-- The files and directories that exist, the root apart, which always does. -/
structure Tree where
  entries : List (Place × Entry) := []
  workingDirectory : Place := []
deriving DecidableEq

namespace Tree

instance : Inhabited Tree := ⟨{}⟩

def entry? (tree : Tree) (place : Place) : Option Entry :=
  if place.isEmpty then some .directory else tree.entries.lookup place

def setEntry (tree : Tree) (place : Place) (entry : Entry) : Tree :=
  { tree with entries := (place, entry) :: tree.entries.filter (fun other => other.1 != place) }

def nameLimit : Nat := 255

/-- The least number of bytes that is too long for a path. -/
def pathLimit : Nat := 4096

def follow (tree : Tree) (place : Place) : List String → Except FileError Place
  | [] => .ok place
  | part :: rest =>
      match tree.entry? place with
      | none => .error .notFound
      | some (.file _) => .error .notADirectory
      | some .directory =>
          if part.isEmpty || part == "." then tree.follow place rest
          else if part == ".." then tree.follow place.dropLast rest
          else if nameLimit < part.utf8ByteSize then .error .nameTooLong
          else tree.follow (place ++ [part]) rest

/-- The place a path leads to; nothing need stand there yet. -/
def resolve (tree : Tree) (path : Path) : Except FileError Place :=
  if path.toList.contains '\x00' then .error .zeroInName
  else if path.isEmpty then .error .notFound
  else if pathLimit ≤ path.utf8ByteSize then .error .nameTooLong
  else tree.follow (if isAbsolute path then [] else tree.workingDirectory) (parts path)

def read (tree : Tree) (path : Path) : Except FileError ByteArray := do
  let place ← tree.resolve path
  match tree.entry? place with
  | some (.file bytes) => .ok bytes
  | some .directory => .error .isADirectory
  | none => .error .notFound

def kind (tree : Tree) (path : Path) : Except FileError FileKind := do
  let place ← tree.resolve path
  match tree.entry? place with
  | some (.file _) => .ok .file
  | some .directory => .ok .directory
  | none => .error .notFound

def write (tree : Tree) (path : Path) (bytes : ByteArray) : Except FileError Tree := do
  let place ← tree.resolve path
  match tree.entry? place with
  | some .directory => .error .isADirectory
  | _ =>
      if path.endsWith "/" then .error .isADirectory
      else .ok (tree.setEntry place (.file bytes))

/-! ### Laying out a tree -/

/-- Make the directories that lead to a place, where nothing stands yet. -/
def makeDirectories (tree : Tree) (place : Place) : Tree :=
  (List.range place.length).foldl
    (fun tree count =>
      let place := place.take (count + 1)
      match tree.entry? place with
      | some _ => tree
      | none => tree.setEntry place .directory)
    tree

def remove (tree : Tree) (place : Place) : Tree :=
  { tree with entries := tree.entries.filter (fun other => !place.isPrefixOf other.1) }

def plant (tree : Tree) (place : Place) (entry : Entry) : Tree :=
  (tree.makeDirectories place.dropLast).setEntry place entry

/-- The place a path spells, without looking at the tree. -/
def placeOf (path : Path) : Place :=
  (parts path).filter (fun part => !part.isEmpty && part != ".")

end Tree

/-- A file system whose files are a tree that is part of a larger state. -/
def FileSystem.ofTree {World : Type} (tree : World → Tree) (setTree : World → Tree → World) :
    FileSystem (StateM World) where
  read path := return (tree (← get)).read path
  kind path := return (tree (← get)).kind path
  write path bytes := do
    match (tree (← get)).write path bytes with
    | .ok changed => modify (setTree · changed); return .ok ()
    | .error fault => return .error fault

end BuildWatch.Files
