/-!
White space.  Lines and payloads are trimmed of every character that has the
Unicode property White_Space.
-/

namespace BuildWatch.Text

/-- The characters with the Unicode property White_Space. -/
def isBlank (char : Char) : Bool :=
  let code := char.toNat
  (0x09 ≤ code && code ≤ 0x0D) || code == 0x20 || code == 0x85 || code == 0xA0 ||
    code == 0x1680 || (0x2000 ≤ code && code ≤ 0x200A) || code == 0x2028 || code == 0x2029 ||
    code == 0x202F || code == 0x205F || code == 0x3000

def trimList (chars : List Char) : List Char :=
  ((chars.dropWhile isBlank).reverse.dropWhile isBlank).reverse

def trim (text : String) : String :=
  String.ofList (trimList text.toList)

def isBlankText (text : String) : Bool :=
  text.toList.all isBlank

def occursIn (part : List Char) : List Char → Bool
  | [] => part.isEmpty
  | char :: rest => part.isPrefixOf (char :: rest) || occursIn part rest

theorem isBlank_of_isWhitespace {char : Char} (hSpace : char.isWhitespace = true) :
    isBlank char = true := by
  simp only [Char.isWhitespace, Bool.or_eq_true, decide_eq_true_eq] at hSpace
  rcases hSpace with ((rfl | rfl) | rfl) | rfl <;> decide

/-- White space around a text is trimmed with the white space the text itself has. -/
theorem trimList_surrounded {before after : List Char} (chars : List Char)
    (hBefore : ∀ char ∈ before, isBlank char = true)
    (hAfter : ∀ char ∈ after, isBlank char = true) :
    trimList (before ++ chars ++ after) = trimList chars := by
  have hReversed : ∀ char ∈ after.reverse, isBlank char = true := by
    intro char hChar
    exact hAfter char (List.mem_reverse.mp hChar)
  rw [trimList, trimList, List.append_assoc, List.dropWhile_append_of_pos hBefore,
    List.dropWhile_append]
  split
  · next hEmpty =>
      have hGone : after.dropWhile isBlank = [] := by
        rw [← List.append_nil after, List.dropWhile_append_of_pos hAfter, List.dropWhile_nil]
      rw [hGone, List.isEmpty_iff.mp hEmpty]
  · rw [List.reverse_append, List.dropWhile_append_of_pos hReversed]

theorem dropWhile_isBlank_of_none {chars : List Char}
    (hChars : ∀ char ∈ chars, isBlank char = false) : chars.dropWhile isBlank = chars := by
  cases chars with
  | nil => rfl
  | cons char rest =>
      exact List.dropWhile_cons_of_neg (by simp [hChars char List.mem_cons_self])

theorem trimList_of_none {chars : List Char} (hChars : ∀ char ∈ chars, isBlank char = false) :
    trimList chars = chars := by
  have hReversed : ∀ char ∈ chars.reverse, isBlank char = false := by
    intro char hChar
    exact hChars char (List.mem_reverse.mp hChar)
  rw [trimList, dropWhile_isBlank_of_none hChars, dropWhile_isBlank_of_none hReversed,
    List.reverse_reverse]

end BuildWatch.Text
