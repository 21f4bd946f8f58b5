import BuildWatch.Files.Tree

/-!
Where paths lead in a tree.  A path that ends in a plain name leads to what has that name in the
directory that the rest of the path leads to, and what is written to a path changes nothing that
stands at any other place.
-/

namespace BuildWatch.Files

/-! ### Paths -/

/-- A name that stands for something within a directory. -/
structure IsPlainName (name : String) : Prop where
  ne_empty : name ≠ ""
  noSlash : '/' ∉ name.toList
  ne_dot : name ≠ "."
  ne_dotDot : name ≠ ".."

theorem isAbsolute_iff (path : Path) : isAbsolute path = true ↔ path.toList.head? = some '/' := by
  unfold isAbsolute
  rw [String.startsWith_string_iff]
  cases path.toList with
  | nil => simp
  | cons first rest => simp [eq_comm]

theorem isAbsolute_append {base : Path} (hBase : base ≠ "") (rest : Path) :
    isAbsolute (base ++ rest) = isAbsolute base := by
  rw [Bool.eq_iff_iff, isAbsolute_iff, isAbsolute_iff, String.toList_append]
  cases hChars : base.toList with
  | nil => exact absurd (String.toList_eq_nil_iff.mp hChars) hBase
  | cons first more => simp

theorem IsPlainName.not_isAbsolute {name : String} (hName : IsPlainName name) :
    isAbsolute name = false := by
  rw [Bool.eq_false_iff, ne_eq, isAbsolute_iff]
  intro hSlash
  exact hName.noSlash (List.mem_of_head? hSlash)

theorem endsWith_slash {path : Path} (hSlash : path.endsWith "/" = true) :
    ∃ rest, path = rest ++ "/" := by
  rw [String.endsWith_eq_endsWith_toSlice, String.Slice.endsWith_string_iff,
    String.copy_toSlice] at hSlash
  obtain ⟨rest, hRest⟩ := hSlash
  refine ⟨String.ofList rest, String.toList_inj.mp ?_⟩
  simp [← hRest]

theorem parts_slash (base rest : Path) :
    parts (base ++ "/" ++ rest) = parts base ++ parts rest := by
  have hChars : (base ++ "/" ++ rest).toList = base.toList ++ '/' :: rest.toList := by
    simp [String.toList_append]
  unfold parts
  rw [hChars, List.splitOn_append_cons_self, List.map_append]

theorem IsPlainName.parts_eq {name : String} (hName : IsPlainName name) :
    parts name = [name] := by
  unfold parts
  rw [List.splitOn_eq_singleton hName.noSlash]
  simp

theorem parts_ofSlash (base : Path) : parts (base ++ "/") = parts base ++ [""] := by
  have hParts := parts_slash base ""
  rw [String.append_empty] at hParts
  exact hParts

/-- The path of a directory as such; an empty path stands for the working directory. -/
def folderPath (path : Path) : Path :=
  if path.isEmpty then "." else path

/-- A path that is not absolute is joined to another by a slash, unless that one is empty or ends
with one. -/
theorem join_cases {path : Path} (hRelative : isAbsolute path = false) (base : Path) :
    (base = "" ∧ join base path = path) ∨
      (∃ rest, base = rest ++ "/" ∧ join base path = rest ++ "/" ++ path) ∨
        (base ≠ "" ∧ join base path = base ++ "/" ++ path) := by
  unfold join
  rw [hRelative, if_neg Bool.false_ne_true]
  by_cases hEmpty : base = ""
  · left
    simp [hEmpty]
  · by_cases hSlash : base.endsWith "/" = true
    · obtain ⟨rest, hRest⟩ := endsWith_slash hSlash
      refine Or.inr (Or.inl ⟨rest, hRest, ?_⟩)
      rw [if_pos (by simp [hSlash]), hRest]
    · refine Or.inr (Or.inr ⟨hEmpty, ?_⟩)
      rw [if_neg (by simp [hSlash, hEmpty])]

/-! ### Places -/

namespace Tree

def start (tree : Tree) (path : Path) : Place :=
  if isAbsolute path then [] else tree.workingDirectory

theorem resolve_eq_ok_iff (tree : Tree) (path : Path) (place : Place) :
    tree.resolve path = .ok place ↔
      ('\x00' ∉ path.toList ∧ path ≠ "" ∧ path.utf8ByteSize < pathLimit) ∧
        tree.follow (tree.start path) (parts path) = .ok place := by
  unfold resolve start
  by_cases hZero : '\x00' ∈ path.toList
  · simp [hZero]
  · by_cases hEmpty : path = ""
    · simp [hEmpty]
    · by_cases hLong : pathLimit ≤ path.utf8ByteSize
      · simp [hZero, hEmpty, hLong, Nat.not_lt.mpr hLong]
      · simp [hZero, hEmpty, hLong, Nat.lt_of_not_le hLong]

theorem follow_append (tree : Tree) (place : Place) (early late : List String) :
    tree.follow place (early ++ late) =
      (tree.follow place early).bind fun found => tree.follow found late := by
  induction early generalizing place with
  | nil => rfl
  | cons part rest ih =>
      simp only [List.cons_append, follow]
      split
      · rfl
      · rfl
      · split
        · exact ih place
        · split
          · exact ih place.dropLast
          · split
            · rfl
            · exact ih (place ++ [part])

theorem follow_stays (tree : Tree) {place : Place}
    (hDirectory : tree.entry? place = some .directory) {part : String}
    (hPart : part = "" ∨ part = ".") : tree.follow place [part] = .ok place := by
  simp only [follow, hDirectory]
  rcases hPart with rfl | rfl
  · rfl
  · rfl

theorem follow_plainName (tree : Tree) {name : String} (hName : IsPlainName name)
    {place found : Place} (hFound : tree.follow place [name] = .ok found) :
    tree.entry? place = some .directory ∧ found = place ++ [name] := by
  simp only [follow] at hFound
  split at hFound
  · cases hFound
  · cases hFound
  · rename_i hDirectory
    refine ⟨hDirectory, ?_⟩
    rw [if_neg (by simp [hName.ne_empty, hName.ne_dot]), if_neg (by simp [hName.ne_dotDot])]
      at hFound
    split at hFound
    · cases hFound
    · cases hFound
      rfl

def IsChild (tree : Tree) (path : Path) (name : String) (place : Place) : Prop :=
  ∃ folder, tree.resolve (folderPath path) = .ok folder ∧ tree.entry? folder = some .directory ∧
    place = folder ++ [name]

theorem follow_last (tree : Tree) {name : String} (hName : IsPlainName name) (start : Place)
    (early : List String) {place : Place}
    (hPlace : tree.follow start (early ++ [name]) = .ok place) :
    ∃ folder, tree.follow start early = .ok folder ∧ tree.entry? folder = some .directory ∧
      place = folder ++ [name] := by
  rw [follow_append] at hPlace
  cases hEarly : tree.follow start early with
  | error fault =>
      rw [hEarly] at hPlace
      cases hPlace
  | ok folder =>
      rw [hEarly] at hPlace
      obtain ⟨hDirectory, hFound⟩ := tree.follow_plainName hName hPlace
      exact ⟨folder, rfl, hDirectory, hFound⟩

/-- Whatever leads somewhere, the path it starts with leads to where its parts do. -/
theorem resolve_start (tree : Tree) {base rest : Path} (hBase : base ≠ "") {place folder : Place}
    (hPlace : tree.resolve (base ++ rest) = .ok place)
    (hFolder : tree.follow (tree.start (base ++ rest)) (parts base) = .ok folder) :
    tree.resolve base = .ok folder := by
  obtain ⟨⟨hZero, _, hShort⟩, _⟩ := (tree.resolve_eq_ok_iff _ _).mp hPlace
  refine (tree.resolve_eq_ok_iff _ _).mpr ⟨⟨?_, hBase, ?_⟩, ?_⟩
  · intro hMem
    apply hZero
    rw [String.toList_append]
    exact List.mem_append_left _ hMem
  · rw [String.utf8ByteSize_append] at hShort
    omega
  · unfold start at hFolder ⊢
    rw [isAbsolute_append hBase] at hFolder
    exact hFolder

/-- A plain name that is joined to a path names something in the directory of the path. -/
theorem resolve_join (tree : Tree) (base : Path) {name : String} (hName : IsPlainName name)
    {place : Place} (hPlace : tree.resolve (join base name) = .ok place) :
    tree.IsChild base name place := by
  have hFollow := ((tree.resolve_eq_ok_iff _ _).mp hPlace).2
  rcases join_cases hName.not_isAbsolute base with ⟨hEmpty, hJoin⟩ | ⟨rest, hBase, hJoin⟩ | ⟨hBase, hJoin⟩
  · -- The name alone is followed from the working directory.
    rw [hJoin, hName.parts_eq, start, hName.not_isAbsolute] at hFollow
    obtain ⟨hDirectory, hFound⟩ := tree.follow_plainName hName hFollow
    refine ⟨tree.workingDirectory, ?_, hDirectory, hFound⟩
    have hParts : parts "." = ["."] := by decide
    have hStart : tree.start "." = tree.workingDirectory := by
      unfold start
      rw [if_neg (by rw [isAbsolute_iff]; decide)]
    rw [hEmpty]
    refine (tree.resolve_eq_ok_iff "." _).mpr ⟨by decide, ?_⟩
    rw [hParts, hStart]
    exact tree.follow_stays hDirectory (Or.inr rfl)
  · have hSlash : rest ++ "/" ≠ "" := by simp
    rw [hJoin] at hPlace hFollow
    rw [parts_slash, hName.parts_eq] at hFollow
    obtain ⟨folder, hEarly, hDirectory, hFound⟩ := tree.follow_last hName _ _ hFollow
    refine ⟨folder, ?_, hDirectory, hFound⟩
    rw [hBase, folderPath, if_neg (by simp)]
    apply tree.resolve_start hSlash hPlace
    rw [parts_ofSlash, follow_append, hEarly]
    exact tree.follow_stays hDirectory (Or.inl rfl)
  · rw [hJoin] at hPlace hFollow
    rw [parts_slash, hName.parts_eq] at hFollow
    obtain ⟨folder, hEarly, hDirectory, hFound⟩ := tree.follow_last hName _ _ hFollow
    refine ⟨folder, ?_, hDirectory, hFound⟩
    rw [folderPath, if_neg (by simp [hBase])]
    rw [String.append_assoc] at hPlace hEarly
    exact tree.resolve_start hBase hPlace hEarly

/-! ### Writing -/

theorem lookup_filter_ne (entries : List (Place × Entry)) {place other : Place}
    (hOther : other ≠ place) :
    (entries.filter fun entry => entry.1 != place).lookup other = entries.lookup other := by
  induction entries with
  | nil => rfl
  | cons entry rest ih =>
      by_cases hPlace : entry.1 = place
      · have hSkipped : (other == entry.1) = false := by simpa [hPlace] using hOther
        rw [List.filter_cons_of_neg (by simp [hPlace]), List.lookup_cons, hSkipped]
        exact ih
      · rw [List.filter_cons_of_pos (by simp [hPlace]), List.lookup_cons, List.lookup_cons, ih]

theorem entry?_setEntry_of_ne (tree : Tree) {place other : Place} (hOther : other ≠ place)
    (entry : Entry) : Tree.entry? (tree.setEntry place entry) other = tree.entry? other := by
  have hSkipped : (other == place) = false := by simpa using hOther
  unfold entry? setEntry
  rw [List.lookup_cons, hSkipped, lookup_filter_ne _ hOther]

theorem entry?_setEntry_self (tree : Tree) {place : Place} (hPlace : place ≠ []) (entry : Entry) :
    Tree.entry? (tree.setEntry place entry) place = some entry := by
  unfold entry? setEntry
  rw [if_neg (by simpa using hPlace), List.lookup_cons_self]

theorem setEntry_setEntry (tree : Tree) (place : Place) (early late : Entry) :
    Tree.setEntry (tree.setEntry place early) place late = tree.setEntry place late := by
  simp [setEntry, List.filter_filter]

theorem write_eq_ok {tree changed : Tree} {path : Path} {bytes : ByteArray}
    (hWrite : tree.write path bytes = .ok changed) :
    ∃ place, tree.resolve path = .ok place ∧ changed = tree.setEntry place (.file bytes) := by
  unfold write at hWrite
  cases hPlace : tree.resolve path with
  | error fault =>
      rw [hPlace] at hWrite
      cases hWrite
  | ok place =>
      rw [hPlace] at hWrite
      refine ⟨place, rfl, ?_⟩
      simp only [bind, Except.bind] at hWrite
      split at hWrite
      · cases hWrite
      · split at hWrite
        · cases hWrite
        · cases hWrite
          rfl

def files : FileSystem (StateM Tree) :=
  .ofTree (fun tree => tree) fun _ changed => changed

theorem read_files (tree : Tree) (path : Path) :
    (files.read path).run tree = (tree.read path, tree) :=
  rfl

theorem write_files (tree : Tree) (path : Path) (bytes : ByteArray) :
    (files.write path bytes).run tree =
      match tree.write path bytes with
      | .ok changed => (.ok (), changed)
      | .error fault => (.error fault, tree) := by
  simp only [files, FileSystem.ofTree, StateT.run_bind, StateT.run_get, pure_bind]
  cases tree.write path bytes <;> rfl

theorem entry?_write_files (tree : Tree) (path : Path) (bytes : ByteArray) {place : Place}
    (hElsewhere : tree.resolve path ≠ .ok place) :
    Tree.entry? ((files.write path bytes).run tree).2 place = tree.entry? place := by
  rw [write_files]
  cases hWrite : tree.write path bytes with
  | error fault => rfl
  | ok changed =>
      obtain ⟨written, hResolve, hChanged⟩ := write_eq_ok hWrite
      have hOther : place ≠ written := by
        rintro rfl
        exact hElsewhere hResolve
      simp only [hChanged]
      exact tree.entry?_setEntry_of_ne hOther _

/-! ### Writing over a file -/

theorem ne_nil_of_file {tree : Tree} {place : Place} {bytes : ByteArray}
    (hFile : tree.entry? place = some (.file bytes)) : place ≠ [] := by
  rintro rfl
  cases hFile

/-- Paths lead where they led when the bytes of a file are replaced. -/
theorem follow_setEntry_file {tree : Tree} {file : Place} {before : ByteArray}
    (hFile : tree.entry? file = some (.file before)) (after : ByteArray) (start : Place)
    (names : List String) :
    Tree.follow (tree.setEntry file (.file after)) start names = tree.follow start names := by
  induction names generalizing start with
  | nil => rfl
  | cons part rest ih =>
      by_cases hHere : start = file
      · subst hHere
        simp only [follow, entry?_setEntry_self tree (ne_nil_of_file hFile), hFile]
      · simp only [follow, entry?_setEntry_of_ne tree hHere, ih]

theorem resolve_setEntry_file {tree : Tree} {file : Place} {before : ByteArray}
    (hFile : tree.entry? file = some (.file before)) (after : ByteArray) (path : Path) :
    Tree.resolve (tree.setEntry file (.file after)) path = tree.resolve path := by
  have hStart : (tree.setEntry file (.file after)).workingDirectory = tree.workingDirectory := rfl
  simp only [resolve, follow_setEntry_file hFile, hStart]

theorem read_eq_ok_iff (tree : Tree) (path : Path) (bytes : ByteArray) :
    tree.read path = .ok bytes ↔
      ∃ place, tree.resolve path = .ok place ∧ tree.entry? place = some (.file bytes) := by
  unfold read
  cases hPlace : tree.resolve path with
  | error fault => simp [bind, Except.bind]
  | ok place =>
      simp only [bind, Except.bind, Except.ok.injEq, exists_eq_left']
      split <;> simp_all

theorem write_file {tree : Tree} {path : Path} {place : Place} {before : ByteArray}
    (hPlace : tree.resolve path = .ok place) (hFile : tree.entry? place = some (.file before))
    (hName : path.endsWith "/" = false) (after : ByteArray) :
    tree.write path after = .ok (tree.setEntry place (.file after)) := by
  simp [write, hPlace, hFile, hName, bind, Except.bind]

end Tree

end BuildWatch.Files
