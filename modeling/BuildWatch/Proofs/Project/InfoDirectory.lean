import BuildWatch.Project.InfoDirectory
import BuildWatch.Proofs.Files.Tree

/-!
A directory of project records touches no file but that of the project it is asked for, as long
as the record in that file carries the id of the project.  Only the id that is asked for is looked
at before a path is made of it; a record is written to the path that its own id leads to.
-/

namespace BuildWatch

namespace Files

/-! ### Accesses -/

inductive FileAccess where
  | read (path : Path)
  | write (path : Path)
  | kind (path : Path)
deriving Repr, DecidableEq

def FileAccess.path : FileAccess → Path
  | .read path => path
  | .write path => path
  | .kind path => path

/-- A file system that notes every access to it. -/
def FileSystem.noting {World : Type} (files : FileSystem (StateM World)) :
    FileSystem (StateM (World × List FileAccess)) where
  read path := fun (world, noted) =>
    let (answer, world) := (files.read path).run world
    (answer, (world, noted ++ [.read path]))
  write path bytes := fun (world, noted) =>
    let (answer, world) := (files.write path bytes).run world
    (answer, (world, noted ++ [.write path]))
  kind path := fun (world, noted) =>
    let (answer, world) := (files.kind path).run world
    (answer, (world, noted ++ [.kind path]))

end Files

namespace InfoDirectory

open BuildWatch.Files

/-! ### Ids -/

theorem any_isSeparator_iff (chars : List Char) :
    chars.any ChangeEvent.isSeparator = true ↔ '/' ∈ chars ∨ '\\' ∈ chars := by
  simp [ChangeEvent.isSeparator, and_or_left, exists_or]

/-- The ids that name no project: the empty one, those with a slash of either kind, and those
that start with a point. -/
theorem isSafeId_eq_false_iff (id : String) :
    isSafeId id = false ↔
      id = "" ∨ '/' ∈ id.toList ∨ '\\' ∈ id.toList ∨ id.startsWith "." = true := by
  have hSeparators := any_isSeparator_iff id.toList
  unfold isSafeId
  rw [Bool.and_eq_false_iff, Bool.and_eq_false_iff, Bool.not_eq_false', Bool.not_eq_false',
    Bool.not_eq_false', hSeparators, String.isEmpty_iff]
  simp only [or_assoc]

theorem isPlainName_file {id : String} (hSafe : isSafeId id = true) :
    IsPlainName (id ++ ".json") := by
  have hLonger (short : String) (hShort : short.toList.length < 5) : id ++ ".json" ≠ short := by
    intro hSame
    have hLength : 5 ≤ (id ++ ".json").toList.length := by
      rw [String.toList_append, List.length_append]
      exact Nat.le_add_left _ _
    rw [hSame] at hLength
    exact Nat.not_le_of_lt hShort hLength
  constructor
  · exact hLonger "" (by decide)
  · intro hSlash
    rw [String.toList_append, List.mem_append] at hSlash
    rcases hSlash with hInId | hInEnd
    · have hUnsafe := (isSafeId_eq_false_iff id).mpr (Or.inr (Or.inl hInId))
      rw [hSafe] at hUnsafe
      cases hUnsafe
    · exact absurd hInEnd (by decide)
  · exact hLonger "." (by decide)
  · exact hLonger ".." (by decide)

/-! ### What the operations make of a world -/

def recordOf (directory : InfoDirectory) (id : String) :
    Except FileError String → Except LookupError ProjectInfo
  | .error .notFound => .error (.notFound id)
  | .error _ => .error (.unreadable (directory.infoFile id))
  | .ok text =>
      match ProjectInfo.ofText? text with
      | some info => .ok info
      | none => .error (.malformed (directory.infoFile id))

def writtenOf (directory : InfoDirectory) (info : ProjectInfo) :
    Except FileError Unit → Except LookupError Unit
  | .ok _ => .ok ()
  | .error _ => .error (.unreadable (directory.infoFile info.id))

section

variable {World : Type} (directory : InfoDirectory) (files : FileSystem (StateM World))

theorem run_bind {α β : Type} (first : StateM World α) (next : α → StateM World β)
    (world : World) :
    (first >>= next).run world = (next (first.run world).1).run (first.run world).2 :=
  rfl

theorem readText_run (path : Path) (world : World) :
    (files.readText path).run world =
      (((files.read path).run world).1.bind FileSystem.textOf,
        ((files.read path).run world).2) := by
  unfold FileSystem.readText
  rw [run_bind]
  cases ((files.read path).run world).1 <;> rfl

theorem read_run_refused {id : String} (hUnsafe : isSafeId id = false) (world : World) :
    (directory.read files id).run world = (.error (.notFound id), world) := by
  unfold InfoDirectory.read
  rw [hUnsafe]
  rfl

theorem read_run {id : String} (hSafe : isSafeId id = true) (world : World) :
    (directory.read files id).run world =
      (directory.recordOf id ((files.readText (directory.infoFile id)).run world).1,
        ((files.readText (directory.infoFile id)).run world).2) := by
  unfold InfoDirectory.read
  rw [hSafe, if_neg (by simp), run_bind]
  cases ((files.readText (directory.infoFile id)).run world).1 with
  | error fault => cases fault <;> rfl
  | ok text =>
      simp only [recordOf]
      cases ProjectInfo.ofText? text <;> rfl

theorem write_run (info : ProjectInfo) (world : World) :
    (directory.write files info).run world =
      (directory.writtenOf info
          ((files.write (directory.infoFile info.id) info.fileText.toUTF8).run world).1,
        ((files.write (directory.infoFile info.id) info.fileText.toUTF8).run world).2) := by
  unfold InfoDirectory.write
  rw [run_bind]
  cases ((files.write (directory.infoFile info.id) info.fileText.toUTF8).run world).1 <;> rfl

theorem apply_run (id : String) (settings : Settings) (world : World) :
    (directory.apply files id settings).run world =
      match (directory.read files id).run world with
      | (.error error, after) => (.error error, after)
      | (.ok info, after) =>
          if settings.changes info then (directory.write files (settings.applyTo info)).run after
          else (.ok (), after) := by
  unfold InfoDirectory.apply
  rw [run_bind]
  obtain ⟨answer, after⟩ := (directory.read files id).run world
  cases answer with
  | error error => rfl
  | ok info =>
      simp only
      split <;> rfl

/-! ### Accesses -/

theorem read_noting {id : String} (hSafe : isSafeId id = true) (world : World) :
    (directory.read files.noting id).run (world, []) =
      (((directory.read files id).run world).1, ((directory.read files id).run world).2,
        [.read (directory.infoFile id)]) := by
  rw [read_run _ _ hSafe, read_run _ _ hSafe, readText_run, readText_run]
  rfl

theorem write_noting (info : ProjectInfo) (world : World) (noted : List FileAccess) :
    (directory.write files.noting info).run (world, noted) =
      (((directory.write files info).run world).1, ((directory.write files info).run world).2,
        noted ++ [.write (directory.infoFile info.id)]) := by
  rw [write_run, write_run]
  rfl

theorem apply_noting {id : String} (hSafe : isSafeId id = true) (settings : Settings)
    (world : World) :
    ((directory.apply files.noting id settings).run (world, [])).2.2 =
      .read (directory.infoFile id) ::
        match ((directory.read files id).run world).1 with
        | .ok info =>
            if settings.changes info then [.write (directory.infoFile info.id)] else []
        | .error _ => [] := by
  rw [apply_run, read_noting _ _ hSafe]
  cases ((directory.read files id).run world).1 with
  | error error => rfl
  | ok info =>
      simp only
      split
      · rw [write_noting]
        rfl
      · rfl

/-- Taking settings into a record reads the file of the id that is asked for, and writes no file
but that of the id which the record carries. -/
theorem of_mem_apply_noting {id : String} {settings : Settings} {world : World}
    {access : FileAccess}
    (hAccess : access ∈ ((directory.apply files.noting id settings).run (world, [])).2.2) :
    access = .read (directory.infoFile id) ∨
      ∃ info, ((directory.read files id).run world).1 = .ok info ∧
        access = .write (directory.infoFile info.id) := by
  cases hSafe : isSafeId id with
  | false =>
      rw [apply_run, read_run_refused _ _ hSafe] at hAccess
      cases hAccess
  | true =>
      rw [apply_noting _ _ hSafe, List.mem_cons] at hAccess
      refine hAccess.imp_right ?_
      intro hWrite
      cases hRead : ((directory.read files id).run world).1 with
      | error error =>
          rw [hRead] at hWrite
          cases hWrite
      | ok info =>
          simp only [hRead] at hWrite
          split at hWrite
          · exact ⟨info, rfl, List.mem_singleton.mp hWrite⟩
          · cases hWrite

/-- Whatever record is found for an id carries this id. -/
def Faithful (world : World) (id : String) : Prop :=
  ∀ info, ((directory.read files id).run world).1 = .ok info → info.id = id

theorem path_of_mem_apply_noting {id : String} {settings : Settings} {world : World}
    (hFaithful : directory.Faithful files world id) {access : FileAccess}
    (hAccess : access ∈ ((directory.apply files.noting id settings).run (world, [])).2.2) :
    access.path = directory.infoFile id := by
  rcases directory.of_mem_apply_noting files hAccess with rfl | ⟨info, hRead, rfl⟩
  · rfl
  · rw [← hFaithful info hRead]
    rfl

end

/-! ### Trees -/

theorem tree_read (directory : InfoDirectory) (tree : Tree) (id : String) :
    ((directory.read Tree.files id).run tree).2 = tree := by
  cases hSafe : isSafeId id with
  | false => rw [read_run_refused _ _ hSafe]
  | true => rw [read_run _ _ hSafe, readText_run, Tree.read_files]

/-- Taking settings into a record changes nothing in a tree but the file of the project. -/
theorem entry?_apply (directory : InfoDirectory) (settings : Settings) {tree : Tree} {id : String}
    (hFaithful : directory.Faithful Tree.files tree id) {place : Place}
    (hElsewhere : tree.resolve (directory.infoFile id) ≠ .ok place) :
    Tree.entry? ((directory.apply Tree.files id settings).run tree).2 place =
      tree.entry? place := by
  obtain ⟨answer, hRead⟩ : ∃ answer, (directory.read Tree.files id).run tree = (answer, tree) :=
    ⟨_, Prod.ext rfl (directory.tree_read tree id)⟩
  rw [apply_run, hRead]
  cases answer with
  | error error => rfl
  | ok info =>
      have hId : info.id = id := hFaithful info (congrArg Prod.fst hRead)
      simp only
      split
      · rw [write_run]
        apply Tree.entry?_write_files
        rw [← hId] at hElsewhere
        exact hElsewhere
      · rfl

/-! ### Confinement -/

/-- Looking a record up and taking settings into it touch no file but that of the project, which
lies in the directory itself, provided that the record in this file carries the id of the project;
an id that could lead elsewhere touches no file at all. -/
theorem touches_own_file_only (directory : InfoDirectory) (id : String) (settings : Settings) :
    ((id = "" ∨ '/' ∈ id.toList ∨ '\\' ∈ id.toList ∨ id.startsWith "." = true) →
      ∀ (World : Type) (files : FileSystem (StateM World)) (world : World),
        (directory.read files.noting id).run (world, []) =
            (.error (.notFound id), (world, [])) ∧
          (directory.apply files.noting id settings).run (world, []) =
            (.error (.notFound id), (world, []))) ∧
    (∀ (World : Type) (files : FileSystem (StateM World)) (world : World),
      (∀ access ∈ ((directory.read files.noting id).run (world, [])).2.2,
        access = .read (directory.infoFile id)) ∧
      (∀ access ∈ ((directory.apply files.noting id settings).run (world, [])).2.2,
        access = .read (directory.infoFile id) ∨
          ∃ info, ((directory.read files id).run world).1 = .ok info ∧
            access = .write (directory.infoFile info.id)) ∧
      (directory.Faithful files world id →
        ∀ access ∈ ((directory.apply files.noting id settings).run (world, [])).2.2,
          access.path = directory.infoFile id)) ∧
    ∀ tree : Tree,
      (isSafeId id = true → ∀ place, tree.resolve (directory.infoFile id) = .ok place →
        tree.IsChild directory.path (id ++ ".json") place) ∧
      ((directory.read Tree.files id).run tree).2 = tree ∧
      (directory.Faithful Tree.files tree id →
        ∀ place, tree.resolve (directory.infoFile id) ≠ .ok place →
          Tree.entry? ((directory.apply Tree.files id settings).run tree).2 place =
            tree.entry? place) := by
  refine ⟨?_, ?_, ?_⟩
  · intro hUnsafe World files world
    have hNoProject := (isSafeId_eq_false_iff id).mpr hUnsafe
    have hRead := directory.read_run_refused files.noting hNoProject (world, [])
    refine ⟨hRead, ?_⟩
    rw [apply_run, hRead]
  · intro World files world
    refine ⟨?_, fun access => directory.of_mem_apply_noting files,
      fun hFaithful access => directory.path_of_mem_apply_noting files hFaithful⟩
    intro access hAccess
    cases hSafe : isSafeId id with
    | false =>
        rw [read_run_refused _ _ hSafe] at hAccess
        cases hAccess
    | true =>
        rw [read_noting _ _ hSafe] at hAccess
        exact List.mem_singleton.mp hAccess
  · intro tree
    refine ⟨?_, directory.tree_read tree id, ?_⟩
    · intro hSafe place hPlace
      exact tree.resolve_join directory.path (isPlainName_file hSafe) hPlace
    · intro hFaithful place hElsewhere
      exact directory.entry?_apply settings hFaithful hElsewhere

/-- A tree with a record that carries some id in the file of "p", and a file outside of the
directory of records. -/
def treeWith (id : String) : Tree where
  entries :=
    [(["projects"], .directory),
      (["projects", "p.json"], .file
        ("\x7b\"projectID\":\"" ++ id ++
          "\",\"projectType\":\"nodejs\",\"location\":\"/w\"\x7d").toUTF8),
      (["notes.json"], .file "keep".toUTF8)]

def projects : InfoDirectory where
  path := "/projects"

/-- Settings are taken into a record, nothing changes outside the directory, and an id that would
lead there is no project. -/
theorem touches_own_file_only_oneProject :
    let settings : Settings := { contextRoot := some "/x" }
    let applying := (projects.apply Tree.files.noting "p" settings).run (treeWith "p", [])
    let after := ((projects.apply Tree.files "p" settings).run (treeWith "p")).2
    applying.2.2 = [.read "/projects/p.json", .write "/projects/p.json"] ∧
      (∀ access ∈ applying.2.2, access.path = projects.infoFile "p") ∧
      Tree.IsChild (treeWith "p") "/projects" "p.json" ["projects", "p.json"] ∧
      after.entry? ["notes.json"] = Tree.entry? (treeWith "p") ["notes.json"] ∧
      (projects.apply Tree.files.noting "../notes" settings).run (treeWith "p", []) =
        (.error (.notFound "../notes"), (treeWith "p", [])) := by
  intro settings applying after
  obtain ⟨_, hAccesses, hTree⟩ := touches_own_file_only projects "p" settings
  obtain ⟨hUnsafe, _⟩ := touches_own_file_only projects "../notes" settings
  have hFaithful : projects.Faithful Tree.files (treeWith "p") "p" := by
    have hId : ((projects.read Tree.files "p").run (treeWith "p")).1.toOption.map
        ProjectInfo.id = some "p" := by
      decide +kernel
    intro info hRead
    rw [hRead] at hId
    exact Option.some.inj hId
  have hPlace : Tree.resolve (treeWith "p") (projects.infoFile "p") =
      .ok ["projects", "p.json"] := by
    have hSome : (Tree.resolve (treeWith "p") (projects.infoFile "p")).toOption =
        some ["projects", "p.json"] := by
      decide +kernel
    cases hResolve : Tree.resolve (treeWith "p") (projects.infoFile "p") with
    | error fault =>
        rw [hResolve] at hSome
        cases hSome
    | ok place =>
        rw [hResolve] at hSome
        exact congrArg Except.ok (Option.some.inj hSome)
  refine ⟨by decide +kernel, (hAccesses Tree Tree.files (treeWith "p")).2.2 hFaithful,
    (hTree (treeWith "p")).1 (by decide +kernel) _ hPlace, ?_, ?_⟩
  · apply (hTree (treeWith "p")).2.2 hFaithful
    rw [hPlace]
    simp
  · exact (hUnsafe (Or.inr (Or.inl (by decide +kernel))) Tree Tree.files (treeWith "p")).2

/-- The record of "p" carries an id that leads out of the directory, and the file it leads to is
written. -/
theorem apply_leaves_directory :
    let settings : Settings := { contextRoot := some "/x" }
    let applying := (projects.apply Tree.files.noting "p" settings).run (treeWith "../q", [])
    let after := ((projects.apply Tree.files "p" settings).run (treeWith "../q")).2
    applying.2.2 = [.read "/projects/p.json", .write "/projects/../q.json"] ∧
      Tree.entry? (treeWith "../q") ["q.json"] = none ∧ after.entry? ["q.json"] ≠ none := by
  decide +kernel

end InfoDirectory

end BuildWatch
