import BuildWatch.Proofs.Bytes
import BuildWatch.Proofs.Project.InfoDirectory
import BuildWatch.Proofs.Project.Record
import BuildWatch.Proofs.Text.Decoding

/-!
Settings that are taken into a record are what the record holds when it is looked up again, and
nothing else changes.  The file of the record is rewritten only if the settings change the record;
a file stands at its place before and after, so every path leads where it led.
-/

namespace BuildWatch

namespace Files.FileSystem

theorem textOf_eq_ok_iff {bytes : ByteArray} {text : String} :
    textOf bytes = .ok text ↔ bytes = text.toUTF8 := by
  rw [← Bytes.toList_inj]
  change textOf bytes = .ok text ↔ bytes.toList = Text.bytesOf text
  rw [← Text.Utf8.text?_eq_some_iff, textOf]
  cases Text.Utf8.text? bytes.toList <;> simp

end Files.FileSystem

namespace Settings

/-- A record that is read back after settings were taken into it may have lost an empty debug
port; the settings bring it in again. -/
theorem applyTo_asRead_applyTo (settings : Settings) {info : ProjectInfo}
    (hRead : info.asRead = info) :
    settings.applyTo (settings.applyTo info).asRead = settings.applyTo info := by
  have hPort : info.debugPort.filter (fun port => !port.isEmpty) = info.debugPort :=
    congrArg ProjectInfo.debugPort hRead
  unfold applyTo ProjectInfo.asRead
  congr 1
  · cases settings.appPort <;> rfl
  · cases settings.debugPort with
    | none => exact hPort
    | some port => rfl
  · cases settings.contextRoot <;> rfl

theorem changes_eq_false_iff (settings : Settings) (info : ProjectInfo) :
    settings.changes info = false ↔ settings.applyTo info = info := by
  unfold changes
  simp

end Settings

namespace InfoDirectory

open BuildWatch.Files

variable {directory : InfoDirectory} {tree : Tree} {id : String} {place : Place}
  {info : ProjectInfo}

/-- The name of a record's file ends in a letter, so that its path is no path of a directory. -/
theorem infoFile_isNoFolder (directory : InfoDirectory) (id : String) :
    (directory.infoFile id).endsWith "/" = false := by
  have hName : ∃ base, directory.infoFile id = base ++ ".json" := by
    unfold infoFile join
    split
    · exact ⟨id, rfl⟩
    · split
      · exact ⟨directory.path ++ id, by rw [String.append_assoc]⟩
      · exact ⟨directory.path ++ "/" ++ id, by simp only [String.append_assoc]⟩
  obtain ⟨base, hBase⟩ := hName
  rw [hBase, Bool.eq_false_iff]
  intro hSlash
  obtain ⟨rest, hRest⟩ := endsWith_slash hSlash
  have hLast := congrArg (fun path : String => path.toList.getLast?) hRest
  simp [String.toList_append] at hLast

/-- A record can be looked up for an id, and its file stands at some place. -/
structure HasRecord (directory : InfoDirectory) (tree : Tree) (id : String) (place : Place)
    (info : ProjectInfo) : Prop where
  isSafe : isSafeId id = true
  leads : tree.resolve (directory.infoFile id) = .ok place
  holds : ∃ text, tree.entry? place = some (.file text.toUTF8) ∧
    ProjectInfo.ofText? text = some info

theorem recordOf_eq_ok {answer : Except FileError String}
    (hRecord : directory.recordOf id answer = .ok info) :
    ∃ text, answer = .ok text ∧ ProjectInfo.ofText? text = some info := by
  unfold recordOf at hRecord
  split at hRecord
  · cases hRecord
  · cases hRecord
  · rename_i text
    split at hRecord
    · rename_i found hFound
      cases hRecord
      exact ⟨text, rfl, hFound⟩
    · cases hRecord

theorem readText_files_eq_ok_iff (path : Path) (text : String) :
    ((Tree.files.readText path).run tree).1 = .ok text ↔
      ∃ place, tree.resolve path = .ok place ∧ tree.entry? place = some (.file text.toUTF8) := by
  rw [readText_run, Tree.read_files, ← Tree.read_eq_ok_iff]
  cases tree.read path with
  | error fault => simp [Except.bind]
  | ok bytes => simp [Except.bind, FileSystem.textOf_eq_ok_iff]

theorem read_files_eq_ok_iff :
    ((directory.read Tree.files id).run tree).1 = .ok info ↔
      ∃ place, directory.HasRecord tree id place info := by
  constructor
  · intro hRead
    cases hSafe : isSafeId id with
    | false =>
        rw [read_run_refused _ _ hSafe] at hRead
        cases hRead
    | true =>
        rw [read_run _ _ hSafe] at hRead
        obtain ⟨text, hText, hInfo⟩ := recordOf_eq_ok hRead
        obtain ⟨place, hPlace, hFile⟩ := (readText_files_eq_ok_iff _ _).mp hText
        exact ⟨place, hSafe, hPlace, text, hFile, hInfo⟩
  · rintro ⟨place, hSafe, hPlace, text, hFile, hInfo⟩
    have hText := (readText_files_eq_ok_iff _ _).mpr ⟨place, hPlace, hFile⟩
    rw [read_run _ _ hSafe, hText]
    simp only [recordOf, hInfo]

namespace HasRecord

theorem read (hRecord : directory.HasRecord tree id place info) :
    (directory.read Tree.files id).run tree = (.ok info, tree) :=
  Prod.ext (read_files_eq_ok_iff.mpr ⟨place, hRecord⟩) (directory.tree_read tree id)

theorem asRead (hRecord : directory.HasRecord tree id place info) : info.asRead = info := by
  obtain ⟨text, _, hInfo⟩ := hRecord.holds
  exact ProjectInfo.asRead_of_ofText? hInfo

theorem write (hRecord : directory.HasRecord tree id place info) {later : ProjectInfo}
    (hId : later.id = id) :
    (directory.write Tree.files later).run tree =
      (.ok (), tree.setEntry place (.file later.fileText.toUTF8)) := by
  obtain ⟨text, hFile, _⟩ := hRecord.holds
  have hWrite := Tree.write_file hRecord.leads hFile (directory.infoFile_isNoFolder id)
    later.fileText.toUTF8
  rw [write_run, hId, Tree.write_files, hWrite]
  rfl

theorem written (hRecord : directory.HasRecord tree id place info) (later : ProjectInfo) :
    directory.HasRecord (tree.setEntry place (.file later.fileText.toUTF8)) id place
      later.asRead := by
  obtain ⟨text, hFile, _⟩ := hRecord.holds
  refine ⟨hRecord.isSafe, ?_, later.fileText, ?_, later.ofText?_fileText⟩
  · rw [Tree.resolve_setEntry_file hFile]
    exact hRecord.leads
  · exact tree.entry?_setEntry_self (Tree.ne_nil_of_file hFile) _

end HasRecord

/-! ### Taking settings into a record -/

def settled (settings : Settings) (tree : Tree) (place : Place) (info : ProjectInfo) : Tree :=
  if settings.changes info then
    tree.setEntry place (.file (settings.applyTo info).fileText.toUTF8)
  else tree

theorem HasRecord.apply (hRecord : directory.HasRecord tree id place info) (hId : info.id = id)
    (settings : Settings) :
    (directory.apply Tree.files id settings).run tree =
      (.ok (), settled settings tree place info) := by
  rw [apply_run, hRecord.read]
  unfold InfoDirectory.settled
  dsimp only
  split
  · exact hRecord.write hId
  · rfl

theorem HasRecord.settled (hRecord : directory.HasRecord tree id place info)
    (settings : Settings) :
    directory.HasRecord (settled settings tree place info) id place
      (settings.applyTo info).asRead := by
  unfold InfoDirectory.settled
  cases hChanges : settings.changes info with
  | false =>
      rw [(settings.changes_eq_false_iff info).mp hChanges, hRecord.asRead]
      exact hRecord
  | true => exact hRecord.written _

theorem HasRecord.settled_settled (hRecord : directory.HasRecord tree id place info)
    (settings : Settings) :
    InfoDirectory.settled settings (InfoDirectory.settled settings tree place info) place
        (settings.applyTo info).asRead =
      InfoDirectory.settled settings tree place info := by
  cases hChanges : settings.changes info with
  | false =>
      have hSame := (settings.changes_eq_false_iff info).mp hChanges
      rw [hSame, hRecord.asRead, InfoDirectory.settled, hChanges]
      rfl
  | true =>
      have hAgain := settings.applyTo_asRead_applyTo hRecord.asRead
      have hOnce : InfoDirectory.settled settings tree place info =
          tree.setEntry place (.file (settings.applyTo info).fileText.toUTF8) := by
        rw [InfoDirectory.settled, hChanges]
        rfl
      rw [hOnce, InfoDirectory.settled, hAgain]
      split
      · exact tree.setEntry_setEntry place _ _
      · rfl

theorem entry?_settled (settings : Settings) {other : Place} (hOther : other ≠ place) :
    Tree.entry? (settled settings tree place info) other = tree.entry? other := by
  unfold settled
  split
  · exact tree.entry?_setEntry_of_ne hOther _
  · rfl

theorem asRead_applyTo (settings : Settings) {info : ProjectInfo} (hRead : info.asRead = info) :
    (settings.applyTo info).asRead =
      { info with
        contextRoot := match settings.contextRoot with
          | some contextRoot => some contextRoot
          | none => info.contextRoot
        appPorts := match settings.appPort with
          | some port => [port]
          | none => info.appPorts
        debugPort := match settings.debugPort with
          | some port => if port = "" then none else some port
          | none => info.debugPort } := by
  have hPort : info.debugPort.filter (fun port => !port.isEmpty) = info.debugPort :=
    congrArg ProjectInfo.debugPort hRead
  unfold Settings.applyTo ProjectInfo.asRead
  congr 1
  · cases settings.debugPort with
    | none => exact hPort
    | some port =>
        by_cases hEmpty : port = ""
        · simp [hEmpty]
        · simp [hEmpty]
  · cases settings.contextRoot <;> rfl

theorem accesses_of_record (hRecord : directory.HasRecord tree id place info) (hId : info.id = id)
    (settings : Settings) :
    ((directory.apply Tree.files.noting id settings).run (tree, [])).2.2 =
      .read (directory.infoFile id) ::
        if settings.changes info then [.write (directory.infoFile id)] else [] := by
  rw [apply_noting _ _ hRecord.isSafe, hRecord.read]
  dsimp only
  rw [hId]

theorem apply_of_error {error : LookupError}
    (hError : ((directory.read Tree.files id).run tree).1 = .error error) (settings : Settings) :
    (directory.apply Tree.files id settings).run tree = (.error error, tree) := by
  have hRead : (directory.read Tree.files id).run tree = (.error error, tree) :=
    Prod.ext hError (directory.tree_read tree id)
  rw [apply_run, hRead]

/-! ### What is looked up after settings were taken in -/

/-- Settings that are taken into the record of a project are what the next lookup finds, in the
fields that they set; an empty debug port stands for none.  No other field of the record and no
other file changes, the file of the record is written only if the settings change the record, and
taking them in once more leaves the tree as it is.  Without a record nothing changes at all. -/
theorem applied_settings_found (directory : InfoDirectory) (tree : Tree) (id : String)
    (settings : Settings) :
    let applied := (directory.apply Tree.files id settings).run tree
    let accesses := ((directory.apply Tree.files.noting id settings).run (tree, [])).2.2
    (∀ info, ((directory.read Tree.files id).run tree).1 = .ok info → info.id = id →
      applied.1 = .ok () ∧
      (directory.read Tree.files id).run applied.2 =
        (.ok { info with
            contextRoot := match settings.contextRoot with
              | some contextRoot => some contextRoot
              | none => info.contextRoot
            appPorts := match settings.appPort with
              | some port => [port]
              | none => info.appPorts
            debugPort := match settings.debugPort with
              | some port => if port = "" then none else some port
              | none => info.debugPort }, applied.2) ∧
      (∃ place, tree.resolve (directory.infoFile id) = .ok place ∧
        ∀ other, other ≠ place → Tree.entry? applied.2 other = tree.entry? other) ∧
      (accesses = .read (directory.infoFile id) ::
        if settings.changes info then [.write (directory.infoFile id)] else []) ∧
      (settings.changes info = false → applied.2 = tree) ∧
      (directory.apply Tree.files id settings).run applied.2 = (.ok (), applied.2)) ∧
    (∀ error, ((directory.read Tree.files id).run tree).1 = .error error →
      applied = (.error error, tree) ∧
        ∀ access ∈ accesses, access = .read (directory.infoFile id)) := by
  intro applied accesses
  constructor
  · intro info hRead hId
    obtain ⟨place, hRecord⟩ := read_files_eq_ok_iff.mp hRead
    have hApplied : applied = (.ok (), settled settings tree place info) :=
      hRecord.apply hId settings
    have hSettled := hRecord.settled settings
    rw [hApplied]
    refine ⟨rfl, ?_, ⟨place, hRecord.leads, fun other => entry?_settled settings⟩,
      accesses_of_record hRecord hId settings, ?_, ?_⟩
    · rw [← asRead_applyTo settings hRecord.asRead]
      exact hSettled.read
    · intro hSame
      simp only [settled, hSame, Bool.false_eq_true, if_false]
    · dsimp only
      rw [hSettled.apply hId settings, hRecord.settled_settled]
  · intro error hError
    refine ⟨apply_of_error hError settings, ?_⟩
    intro access hAccess
    rcases directory.of_mem_apply_noting Tree.files hAccess with hRead | ⟨info, hRead, _⟩
    · exact hRead
    · rw [hError] at hRead
      cases hRead

/-- The settings set all three fields, the debug port to an empty text; an id that leads out of the
directory has no record. -/
theorem applied_settings_found_emptyPort :
    let settings : Settings :=
      { contextRoot := some "/x", appPort := some "8080", debugPort := some "" }
    let info : ProjectInfo := { id := "p", kind := "nodejs", location := "/w" }
    let applied := (projects.apply Tree.files "p" settings).run (treeWith "p")
    ((projects.read Tree.files "p").run (treeWith "p")).1 = .ok info ∧
      applied.1 = .ok () ∧
      (projects.read Tree.files "p").run applied.2 =
        (.ok { info with contextRoot := some "/x", appPorts := ["8080"] }, applied.2) ∧
      (projects.apply Tree.files "p" settings).run applied.2 = (.ok (), applied.2) ∧
      (projects.apply Tree.files "../notes" settings).run (treeWith "p") =
        (.error (.notFound "../notes"), treeWith "p") := by
  intro settings info applied
  have hFound : ((projects.read Tree.files "p").run (treeWith "p")).1 = .ok info := by
    have hSome : ((projects.read Tree.files "p").run (treeWith "p")).1.toOption = some info := by
      decide +kernel
    cases hRead : ((projects.read Tree.files "p").run (treeWith "p")).1 with
    | error error =>
        rw [hRead] at hSome
        cases hSome
    | ok found =>
        rw [hRead] at hSome
        exact congrArg Except.ok (Option.some.inj hSome)
  have hRefused : ((projects.read Tree.files "../notes").run (treeWith "p")).1 =
      .error (.notFound "../notes") := by
    rw [read_run_refused _ _ (by decide +kernel)]
  obtain ⟨hOk, hRead, _, _, _, hAgain⟩ :=
    (applied_settings_found projects (treeWith "p") "p" settings).1 info hFound rfl
  exact ⟨hFound, hOk, hRead, hAgain,
    ((applied_settings_found projects (treeWith "p") "../notes" settings).2 _ hRefused).1⟩

end InfoDirectory

end BuildWatch
