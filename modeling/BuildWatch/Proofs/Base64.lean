import Mathlib.Tactic.Basic
import BuildWatch.Base64
import BuildWatch.Text.Blank

/-!
Decoding gives back every byte sequence from its spelling.
-/

namespace BuildWatch.Base64

/-! ### Digits -/

theorem digit?_digitChar {value : Nat} (hValue : value < 64) :
    digit? (digitChar value) = some value := by
  revert value
  decide

theorem digitChar_ne_padding {value : Nat} (hValue : value < 64) : digitChar value ≠ '=' := by
  revert value
  decide

theorem isBlank_digitChar {value : Nat} (hValue : value < 64) :
    Text.isBlank (digitChar value) = false := by
  revert value
  decide

theorem byteOf_eq {value : Nat} {byte : UInt8} (hValue : value % 256 = byte.toNat) :
    byteOf value = byte := by
  rw [byteOf, hValue, UInt8.ofNat_toNat]

/-! ### Groups -/

theorem decodeFrom?_group {a b c d : Nat} {done : List UInt8} {rest : List Char} (hA : a < 64)
    (hB : b < 64) (hC : c < 64) (hD : d < 64) :
    decodeFrom? done (digitChar a :: digitChar b :: digitChar c :: digitChar d :: rest) =
      decodeFrom?
        (byteOf (c * 64 + d) :: byteOf (b * 16 + c / 4) :: byteOf (a * 4 + b / 16) :: done)
        rest := by
  rw [decodeFrom?]
  · rw [digit?_digitChar hA, digit?_digitChar hB, digit?_digitChar hC, digit?_digitChar hD]
  · intro hPadding
    exact absurd hPadding (digitChar_ne_padding hC)
  · intro hPadding
    exact absurd hPadding (digitChar_ne_padding hD)

theorem decodeFrom?_two {a b c : Nat} {done : List UInt8} (hA : a < 64) (hB : b < 64)
    (hC : c < 64) (hUnused : c % 4 = 0) :
    decodeFrom? done [digitChar a, digitChar b, digitChar c, '='] =
      some (byteOf (b * 16 + c / 4) :: byteOf (a * 4 + b / 16) :: done).reverse := by
  rw [decodeFrom?]
  · simp [digit?_digitChar hA, digit?_digitChar hB, digit?_digitChar hC, hUnused]
  · exact digitChar_ne_padding hC

theorem decodeFrom?_one {a b : Nat} {done : List UInt8} (hA : a < 64) (hB : b < 64)
    (hUnused : b % 16 = 0) :
    decodeFrom? done [digitChar a, digitChar b, '=', '='] =
      some (byteOf (a * 4 + b / 16) :: done).reverse := by
  rw [decodeFrom?]
  simp [digit?_digitChar hA, digit?_digitChar hB, hUnused]

theorem decodeFrom?_encodeList (bytes done : List UInt8) :
    decodeFrom? done (encodeList bytes) = some (done.reverse ++ bytes) := by
  fun_induction encodeList bytes generalizing done with
  | case1 => rw [decodeFrom?, List.append_nil]
  | case2 first a =>
      have hA : a < 256 := UInt8.toNat_lt first
      have hFirst : byteOf (a / 4 * 4 + a % 4 * 16 / 16) = first := byteOf_eq (by omega)
      rw [decodeFrom?_one (by omega) (by omega) (by omega), hFirst, List.reverse_cons]
  | case3 first second a b =>
      have hA : a < 256 := UInt8.toNat_lt first
      have hB : b < 256 := UInt8.toNat_lt second
      have hFirst : byteOf (a / 4 * 4 + (a % 4 * 16 + b / 16) / 16) = first :=
        byteOf_eq (by omega)
      have hSecond : byteOf ((a % 4 * 16 + b / 16) * 16 + b % 16 * 4 / 4) = second :=
        byteOf_eq (by omega)
      rw [decodeFrom?_two (by omega) (by omega) (by omega) (by omega), hFirst, hSecond]
      simp
  | case4 first second third rest a b c ih =>
      have hA : a < 256 := UInt8.toNat_lt first
      have hB : b < 256 := UInt8.toNat_lt second
      have hC : c < 256 := UInt8.toNat_lt third
      have hFirst : byteOf (a / 4 * 4 + (a % 4 * 16 + b / 16) / 16) = first :=
        byteOf_eq (by omega)
      have hSecond : byteOf ((a % 4 * 16 + b / 16) * 16 + (b % 16 * 4 + c / 64) / 4) = second :=
        byteOf_eq (by omega)
      have hThird : byteOf ((b % 16 * 4 + c / 64) * 64 + c % 64) = third :=
        byteOf_eq (by omega)
      rw [decodeFrom?_group (by omega) (by omega) (by omega) (by omega), hFirst, hSecond, hThird,
        ih]
      simp

/-! ### Texts -/

theorem decode?_encode (bytes : List UInt8) : decode? (encode bytes) = some bytes := by
  rw [decode?, encode, String.toList_ofList, decodeFrom?_encodeList, List.reverse_nil,
    List.nil_append]

theorem isBlank_encodeList {bytes : List UInt8} {char : Char} (hChar : char ∈ encodeList bytes) :
    Text.isBlank char = false := by
  fun_induction encodeList bytes with
  | case1 => exact absurd hChar List.not_mem_nil
  | case2 first a =>
      have hA : a < 256 := UInt8.toNat_lt first
      simp only [List.mem_cons, List.not_mem_nil, or_false] at hChar
      obtain rfl | rfl | rfl | rfl := hChar
      · exact isBlank_digitChar (by omega)
      · exact isBlank_digitChar (by omega)
      · rfl
      · rfl
  | case3 first second a b =>
      have hA : a < 256 := UInt8.toNat_lt first
      have hB : b < 256 := UInt8.toNat_lt second
      simp only [List.mem_cons, List.not_mem_nil, or_false] at hChar
      obtain rfl | rfl | rfl | rfl := hChar
      · exact isBlank_digitChar (by omega)
      · exact isBlank_digitChar (by omega)
      · exact isBlank_digitChar (by omega)
      · rfl
  | case4 first second third rest a b c ih =>
      have hA : a < 256 := UInt8.toNat_lt first
      have hB : b < 256 := UInt8.toNat_lt second
      have hC : c < 256 := UInt8.toNat_lt third
      simp only [List.mem_cons] at hChar
      obtain rfl | rfl | rfl | rfl | hRest := hChar
      · exact isBlank_digitChar (by omega)
      · exact isBlank_digitChar (by omega)
      · exact isBlank_digitChar (by omega)
      · exact isBlank_digitChar (by omega)
      · exact ih hRest

end BuildWatch.Base64
