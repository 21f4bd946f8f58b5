import Mathlib.Tactic.SplitIfs
import BuildWatch.Proofs.Bytes
import BuildWatch.Text.Utf8

/-!
Decoding gives back the characters of every encoded text.
-/

namespace BuildWatch.Text

theorem bytesOf_eq (text : String) :
    bytesOf text = text.toList.flatMap String.utf8EncodeChar := by
  rw [bytesOf, String.toUTF8_eq_toByteArray, ← String.utf8Encode_toList, List.utf8Encode,
    Bytes.toList_eq, List.toList_data_toByteArray]

namespace Utf8

theorem decodeFrom_cons (stand : Stand) (done : Source) (byte : UInt8) (rest : List UInt8) :
    decodeFrom stand done (byte :: rest) =
      decodeFrom (step stand byte.toNat done).1 (step stand byte.toNat done).2 rest := by
  cases stand with
  | between => rfl
  | inside => rfl

/-! ### Single bytes -/

theorem step_more {value following low high byte : Nat} {done : Source} (hLow : low ≤ byte)
    (hHigh : byte ≤ high) :
    step (.inside value (following + 2) low high) byte done =
      (.inside (value * 64 + byte % 64) (following + 1) 0x80 0xBF, done) :=
  if_pos ⟨hLow, hHigh⟩

theorem step_last {value low high byte : Nat} {done : Source} (hLow : low ≤ byte)
    (hHigh : byte ≤ high) :
    step (.inside value 1 low high) byte done =
      (.between, some (Char.ofNat (value * 64 + byte % 64)) :: done) :=
  if_pos ⟨hLow, hHigh⟩

theorem start_two {code : Nat} (done : Source) (hLeast : 0x80 ≤ code) (hMost : code < 0x800) :
    start (code / 64 + 0xC0) done = (.inside (code / 64) 1 0x80 0xBF, done) := by
  have hLead : Lead.ofByte? (code / 64 + 0xC0) = some ⟨code / 64, 1, 0x80, 0xBF⟩ := by
    rw [Lead.ofByte?, if_pos (by omega), Nat.add_sub_cancel]
  rw [start, if_neg (by omega), hLead]

/-- The first byte of three.  It allows the second one, as the character is no surrogate. -/
theorem start_three {code : Nat} (done : Source) (hLeast : 0x800 ≤ code) (hMost : code < 0x10000)
    (hValid : code < 0xD800 ∨ 0xDFFF < code) :
    ∃ low high, start (code / 4096 + 0xE0) done = (.inside (code / 4096) 2 low high, done) ∧
      low ≤ code / 64 % 64 + 0x80 ∧ code / 64 % 64 + 0x80 ≤ high := by
  have hLead : ∃ low high, Lead.ofByte? (code / 4096 + 0xE0) = some ⟨code / 4096, 2, low, high⟩ ∧
      low ≤ code / 64 % 64 + 0x80 ∧ code / 64 % 64 + 0x80 ≤ high := by
    rw [Lead.ofByte?, if_neg (by omega)]
    by_cases hFirst : code / 4096 = 0
    · refine ⟨0xA0, 0xBF, ?_, by omega, by omega⟩
      rw [if_pos (by omega), hFirst]
    rw [if_neg (by omega)]
    by_cases hSurrogate : code / 4096 = 13
    · refine ⟨0x80, 0x9F, ?_, by omega, by omega⟩
      rw [if_pos (by omega), Nat.add_sub_cancel]
    refine ⟨0x80, 0xBF, ?_, by omega, by omega⟩
    rw [if_neg (by omega), if_pos (by omega), Nat.add_sub_cancel]
  obtain ⟨low, high, hLead, hAllows⟩ := hLead
  refine ⟨low, high, ?_, hAllows⟩
  rw [start, if_neg (by omega), hLead]

theorem start_four {code : Nat} (done : Source) (hLeast : 0x10000 ≤ code)
    (hMost : code < 0x110000) :
    ∃ low high, start (code / 262144 + 0xF0) done = (.inside (code / 262144) 3 low high, done) ∧
      low ≤ code / 4096 % 64 + 0x80 ∧ code / 4096 % 64 + 0x80 ≤ high := by
  have hLead : ∃ low high,
      Lead.ofByte? (code / 262144 + 0xF0) = some ⟨code / 262144, 3, low, high⟩ ∧
      low ≤ code / 4096 % 64 + 0x80 ∧ code / 4096 % 64 + 0x80 ≤ high := by
    rw [Lead.ofByte?, if_neg (by omega), if_neg (by omega), if_neg (by omega), if_neg (by omega)]
    by_cases hFirst : code / 262144 = 0
    · refine ⟨0x90, 0xBF, ?_, by omega, by omega⟩
      rw [if_pos (by omega), hFirst]
    rw [if_neg (by omega)]
    by_cases hLast : code / 262144 = 4
    · refine ⟨0x80, 0x8F, ?_, by omega, by omega⟩
      rw [if_neg (by omega), if_pos (by omega), Nat.add_sub_cancel]
    refine ⟨0x80, 0xBF, ?_, by omega, by omega⟩
    rw [if_pos (by omega), Nat.add_sub_cancel]
  obtain ⟨low, high, hLead, hAllows⟩ := hLead
  refine ⟨low, high, ?_, hAllows⟩
  rw [start, if_neg (by omega), hLead]

/-! ### Characters -/

theorem decodeFrom_two {code : Nat} (hLeast : 0x80 ≤ code) (hMost : code < 0x800) (done : Source)
    (rest : List UInt8) :
    decodeFrom .between done
        (UInt8.ofNat (code / 64 % 32 + 0xC0) :: UInt8.ofNat (code % 64 + 0x80) :: rest) =
      decodeFrom .between (some (Char.ofNat code) :: done) rest := by
  have hValue : code / 64 * 64 + (code % 64 + 0x80) % 64 = code := by omega
  rw [decodeFrom_cons, decodeFrom_cons, Bytes.toNat_ofNat_of_lt (by omega),
    Bytes.toNat_ofNat_of_lt (by omega), Nat.mod_eq_of_lt (show code / 64 < 32 by omega)]
  rw [step, start_two done hLeast hMost, step_last (by omega) (by omega), hValue]

theorem decodeFrom_three {code : Nat} (hLeast : 0x800 ≤ code) (hMost : code < 0x10000)
    (hValid : code < 0xD800 ∨ 0xDFFF < code) (done : Source) (rest : List UInt8) :
    decodeFrom .between done
        (UInt8.ofNat (code / 4096 % 16 + 0xE0) :: UInt8.ofNat (code / 64 % 64 + 0x80) ::
          UInt8.ofNat (code % 64 + 0x80) :: rest) =
      decodeFrom .between (some (Char.ofNat code) :: done) rest := by
  obtain ⟨low, high, hStart, hLow, hHigh⟩ := start_three done hLeast hMost hValid
  have hValue : (code / 4096 * 64 + (code / 64 % 64 + 0x80) % 64) * 64 +
      (code % 64 + 0x80) % 64 = code := by omega
  rw [decodeFrom_cons, decodeFrom_cons, decodeFrom_cons, Bytes.toNat_ofNat_of_lt (by omega),
    Bytes.toNat_ofNat_of_lt (by omega), Bytes.toNat_ofNat_of_lt (by omega),
    Nat.mod_eq_of_lt (show code / 4096 < 16 by omega)]
  rw [step, hStart, step_more hLow hHigh, step_last (by omega) (by omega), hValue]

theorem decodeFrom_four {code : Nat} (hLeast : 0x10000 ≤ code) (hMost : code < 0x110000)
    (done : Source) (rest : List UInt8) :
    decodeFrom .between done
        (UInt8.ofNat (code / 262144 % 8 + 0xF0) :: UInt8.ofNat (code / 4096 % 64 + 0x80) ::
          UInt8.ofNat (code / 64 % 64 + 0x80) :: UInt8.ofNat (code % 64 + 0x80) :: rest) =
      decodeFrom .between (some (Char.ofNat code) :: done) rest := by
  obtain ⟨low, high, hStart, hLow, hHigh⟩ := start_four done hLeast hMost
  have hValue : ((code / 262144 * 64 + (code / 4096 % 64 + 0x80) % 64) * 64 +
      (code / 64 % 64 + 0x80) % 64) * 64 + (code % 64 + 0x80) % 64 = code := by omega
  rw [decodeFrom_cons, decodeFrom_cons, decodeFrom_cons, decodeFrom_cons,
    Bytes.toNat_ofNat_of_lt (by omega), Bytes.toNat_ofNat_of_lt (by omega),
    Bytes.toNat_ofNat_of_lt (by omega), Bytes.toNat_ofNat_of_lt (by omega),
    Nat.mod_eq_of_lt (show code / 262144 < 8 by omega)]
  rw [step, hStart, step_more hLow hHigh, step_more (by omega) (by omega),
    step_last (by omega) (by omega), hValue]

theorem decodeFrom_char (char : Char) (done : Source) (rest : List UInt8) :
    decodeFrom .between done (String.utf8EncodeChar char ++ rest) =
      decodeFrom .between (some char :: done) rest := by
  have hValid : char.toNat < 0xD800 ∨ 0xDFFF < char.toNat ∧ char.toNat < 0x110000 := char.valid
  have hChar : Char.ofNat char.toNat = char := Char.ofNat_toNat char
  generalize hCode : char.toNat = code at hValid hChar
  rw [String.utf8EncodeChar, show char.val.toNat = code from hCode, ← hChar]
  split_ifs with hOne hTwo hThree
  · rw [List.singleton_append, decodeFrom_cons, Bytes.toNat_ofNat_of_lt (by omega)]
    rw [step, start, if_pos (by omega)]
  · exact decodeFrom_two (by omega) (by omega) done rest
  · exact decodeFrom_three (by omega) (by omega) (by omega) done rest
  · exact decodeFrom_four (by omega) (by omega) done rest

theorem decodeFrom_chars (chars : List Char) (done : Source) :
    decodeFrom .between done (chars.flatMap String.utf8EncodeChar) =
      done.reverse ++ Source.ofChars chars := by
  induction chars generalizing done with
  | nil => simp [decodeFrom, Source.ofChars]
  | cons char rest ih =>
      rw [List.flatMap_cons, decodeFrom_char, ih]
      simp [Source.ofChars]

theorem decode_bytesOf (text : String) : decode (bytesOf text) = Source.ofChars text.toList := by
  rw [decode, bytesOf_eq, decodeFrom_chars, List.reverse_nil, List.nil_append]

end Utf8

end BuildWatch.Text
