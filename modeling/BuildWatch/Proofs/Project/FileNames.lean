import Mathlib.Data.List.TakeWhile
import BuildWatch.Project.ChangeEvent
import BuildWatch.Proofs.Files.Tree

/-!
The file that a change event is about.  Its name is what follows the last separator of the reported
path, and all of a path that has none; an event of a directory is about no file.
-/

namespace BuildWatch.ChangeEvent

/-- A name is what follows the last separator of a path, or all of a path without separators. -/
def IsLastPart (name path : List Char) : Prop :=
  (∀ char ∈ name, isSeparator char = false) ∧
    (path = name ∨ ∃ directory separator,
      isSeparator separator = true ∧ path = directory ++ separator :: name)

theorem isLastPart_lastPart (path : List Char) : IsLastPart (lastPart path) path := by
  have hPath : path =
      (path.reverse.dropWhile fun char => !isSeparator char).reverse ++ lastPart path := by
    rw [lastPart, ← List.reverse_append, List.takeWhile_append_dropWhile, List.reverse_reverse]
  constructor
  · intro char hChar
    have hTaken := List.mem_takeWhile_imp (List.mem_reverse.mp hChar)
    simpa using hTaken
  · have hHead := List.head?_dropWhile_not (fun char => !isSeparator char) path.reverse
    cases hRest : path.reverse.dropWhile fun char => !isSeparator char with
    | nil =>
        rw [hRest] at hPath
        exact Or.inl hPath
    | cons separator rest =>
        rw [hRest, List.reverse_cons, List.append_assoc, List.singleton_append] at hPath
        have hSeparator : isSeparator separator = true := by simpa [hRest] using hHead
        exact Or.inr ⟨rest.reverse, separator, hSeparator, hPath⟩

theorem lastPart_of_isLastPart {name path : List Char} (hName : IsLastPart name path) :
    lastPart path = name := by
  obtain ⟨hPlain, hPath⟩ := hName
  have hReversed : ∀ char ∈ name.reverse, (!isSeparator char) = true := by
    intro char hChar
    rw [hPlain char (List.mem_reverse.mp hChar)]
    rfl
  rcases hPath with rfl | ⟨directory, separator, hSeparator, rfl⟩
  · rw [lastPart, List.takeWhile_eq_self_iff.mpr hReversed, List.reverse_reverse]
  · rw [lastPart, List.reverse_append, List.reverse_cons, List.append_assoc,
      List.takeWhile_append_of_pos hReversed, List.singleton_append,
      List.takeWhile_cons_of_neg (by simp [hSeparator]), List.append_nil, List.reverse_reverse]

theorem lastPart_eq_iff {name path : List Char} : lastPart path = name ↔ IsLastPart name path := by
  constructor
  · rintro rfl
    exact isLastPart_lastPart path
  · exact lastPart_of_isLastPart

instance (name path : List Char) : Decidable (IsLastPart name path) :=
  decidable_of_iff (lastPart path = name) lastPart_eq_iff

theorem IsLastPart.eq {name other path : List Char} (hName : IsLastPart name path)
    (hOther : IsLastPart other path) : name = other :=
  (lastPart_of_isLastPart hName).symm.trans (lastPart_of_isLastPart hOther)

theorem isLastPart_below_iff {separator : Char} (hSeparator : isSeparator separator = true)
    (directory name : List Char) :
    IsLastPart name (directory ++ separator :: name) ↔
      ∀ char ∈ name, isSeparator char = false := by
  constructor
  · intro hName
    exact hName.1
  · intro hPlain
    exact ⟨hPlain, Or.inr ⟨directory, separator, hSeparator, rfl⟩⟩

theorem isLastPart_join_iff (base name : Files.Path) :
    IsLastPart name.toList (Files.join base name).toList ↔
      ∀ char ∈ name.toList, isSeparator char = false := by
  constructor
  · intro hName
    exact hName.1
  · intro hPlain
    have hRelative : Files.isAbsolute name = false := by
      rw [Bool.eq_false_iff, ne_eq, Files.isAbsolute_iff]
      intro hSlash
      exact absurd (hPlain '/' (List.mem_of_head? hSlash)) (by decide)
    have hBelow (directory : Files.Path) :
        IsLastPart name.toList (directory ++ "/" ++ name).toList := by
      have hChars : (directory ++ "/" ++ name).toList =
          directory.toList ++ '/' :: name.toList := by
        simp [String.toList_append]
      rw [hChars]
      exact (isLastPart_below_iff (by decide) _ _).mpr hPlain
    rcases Files.join_cases hRelative base with ⟨_, hJoin⟩ | ⟨rest, _, hJoin⟩ | ⟨_, hJoin⟩
    · rw [hJoin]
      exact ⟨hPlain, Or.inl rfl⟩
    · rw [hJoin]
      exact hBelow rest
    · rw [hJoin]
      exact hBelow base

theorem isSeparator_eq_false_iff (char : Char) :
    isSeparator char = false ↔ char ≠ '/' ∧ char ≠ '\\' := by
  simp [isSeparator]

/-- An event touches the file of some name if it is not of a directory, and its path ends in the
name. -/
def Touches (event : ChangeEvent) (name : String) : Prop :=
  event.directory = false ∧ IsLastPart name.toList event.path.toList

instance (event : ChangeEvent) (name : String) : Decidable (event.Touches name) :=
  inferInstanceAs (Decidable (_ ∧ _))

theorem isFileNamed_iff {event : ChangeEvent} {name : String} :
    event.isFileNamed name = true ↔ event.Touches name := by
  have hName : event.fileName = name ↔ lastPart event.path.toList = name.toList := by
    rw [fileName, ← String.toList_inj, String.toList_ofList]
  rw [isFileNamed, Touches, Bool.and_eq_true, Bool.not_eq_true', beq_iff_eq, hName, lastPart_eq_iff]

end BuildWatch.ChangeEvent
