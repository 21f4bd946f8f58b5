import BuildWatch.Proofs.Text.Utf8

/-!
Texts are in the order of their bytes.  The leading byte of a character tells how many bytes
it has, and more bytes stand for greater characters, so that the first byte in which two texts
differ decides.
-/

namespace BuildWatch.Text

theorem ofNat_lt_ofNat {least most : Nat} (hLess : least < most) (hByte : most < 256) :
    UInt8.ofNat least < UInt8.ofNat most := by
  rw [UInt8.lt_iff_toNat_lt, Bytes.toNat_ofNat_of_lt (Nat.lt_trans hLess hByte),
    Bytes.toNat_ofNat_of_lt hByte]
  exact hLess

theorem cons_lt_cons {first second : Nat} (hByte : second < 256) (hMost : first ≤ second)
    {rest other : List UInt8} (hRest : first = second → rest < other) :
    UInt8.ofNat first :: rest < UInt8.ofNat second :: other := by
  rw [List.cons_lt_cons_iff]
  rcases Nat.lt_or_eq_of_le hMost with hLess | hSame
  · exact Or.inl (ofNat_lt_ofNat hLess hByte)
  · exact Or.inr ⟨congrArg UInt8.ofNat hSame, hRest hSame⟩

theorem utf8EncodeChar_lt {char other : Char} (hLess : char < other) (rest after : List UInt8) :
    String.utf8EncodeChar char ++ rest < String.utf8EncodeChar other ++ after := by
  have hCode : char.val.toNat < other.val.toNat := hLess
  have hBound : other.val.toNat < 0x110000 := by
    have hValid : other.toNat < 0xD800 ∨ 0xDFFF < other.toNat ∧ other.toNat < 0x110000 :=
      other.valid
    change other.toNat < 0x110000
    omega
  rw [String.utf8EncodeChar, String.utf8EncodeChar]
  generalize char.val.toNat = code at hCode ⊢
  generalize other.val.toNat = greater at hCode hBound ⊢
  -- Both have bytes in order up to the first that differs; if none did, the codes were the same.
  split_ifs
  all_goals
    simp only [List.cons_append, List.nil_append]
    repeat refine cons_lt_cons (by omega) (by omega) (fun _ => ?_)
    exfalso
    omega

theorem utf8EncodeChar_ne_nil (char : Char) : String.utf8EncodeChar char ≠ [] := by
  rw [String.utf8EncodeChar]
  split_ifs <;> exact List.cons_ne_nil _ _

theorem flatMap_utf8EncodeChar_lt {chars others : List Char} (hLess : chars < others) :
    chars.flatMap String.utf8EncodeChar < others.flatMap String.utf8EncodeChar := by
  induction chars generalizing others with
  | nil =>
      cases others with
      | nil => exact absurd hLess (List.lt_irrefl [])
      | cons other after =>
          have hSome : String.utf8EncodeChar other ++ after.flatMap String.utf8EncodeChar ≠ [] :=
            List.append_ne_nil_of_left_ne_nil (utf8EncodeChar_ne_nil other) _
          obtain ⟨byte, bytes, hBytes⟩ := List.exists_cons_of_ne_nil hSome
          rw [List.flatMap_cons, hBytes]
          exact List.nil_lt_cons byte bytes
  | cons char rest ih =>
      cases others with
      | nil => exact absurd hLess (List.not_lt_nil _)
      | cons other after =>
          rw [List.flatMap_cons, List.flatMap_cons]
          rcases List.cons_lt_cons_iff.mp hLess with hFirst | ⟨rfl, hRest⟩
          · exact utf8EncodeChar_lt hFirst _ _
          · exact List.append_left_lt (ih hRest)

/-- Texts are in the order of their bytes. -/
theorem bytesOf_lt_bytesOf {text other : String} (hLess : text < other) :
    bytesOf text < bytesOf other := by
  rw [bytesOf_eq, bytesOf_eq]
  exact flatMap_utf8EncodeChar_lt hLess

end BuildWatch.Text
