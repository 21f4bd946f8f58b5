import BuildWatch.Proofs.Text.Utf8

/-!
Bytes are text exactly if they encode one: decoding them accepts every encoded text, and no bytes
besides.  A byte below 128 in a text is a character of the text.
-/

namespace BuildWatch.Text.Utf8

/-! ### What is decoded stays -/

theorem start_extends (byte : Nat) (done : Source) : done <:+ (start byte done).2 := by
  unfold start
  split
  · exact List.suffix_cons _ _
  · split
    · exact List.suffix_cons _ _
    · exact List.suffix_refl _

theorem step_extends (stand : Stand) (byte : Nat) (done : Source) :
    done <:+ (step stand byte done).2 := by
  unfold step
  split
  · exact start_extends byte done
  · split
    · split
      · exact List.suffix_cons _ _
      · exact List.suffix_cons _ _
      · exact List.suffix_refl _
    · exact (List.suffix_cons none done).trans (start_extends byte _)

theorem none_mem_decodeFrom {stand : Stand} {done : Source} (hMarked : none ∈ done)
    (bytes : List UInt8) : none ∈ decodeFrom stand done bytes := by
  induction bytes generalizing stand done with
  | nil =>
      cases stand with
      | between => exact List.mem_reverse.mpr hMarked
      | inside => exact List.mem_reverse.mpr (List.mem_cons_of_mem _ hMarked)
  | cons byte rest ih =>
      rw [decodeFrom_cons]
      exact ih ((step_extends stand byte.toNat done).mem hMarked)

/-! ### Single characters -/

theorem toNat_ofNat_of_valid {code : Nat}
    (hValid : code < 0xD800 ∨ 0xDFFF < code ∧ code < 0x110000) :
    (Char.ofNat code).val.toNat = code := by
  rw [Char.ofNat, dif_pos (show code.isValidChar from hValid)]
  rfl

theorem ofNat_eq (byte : UInt8) {value : Nat} (hValue : value = byte.toNat) :
    UInt8.ofNat value = byte := by
  rw [hValue, UInt8.ofNat_toNat]

theorem exists_char_two (first second : UInt8) (hFirst : 0xC2 ≤ first.toNat ∧ first.toNat ≤ 0xDF)
    (hSecond : 0x80 ≤ second.toNat ∧ second.toNat ≤ 0xBF) :
    ∃ char, String.utf8EncodeChar char = [first, second] := by
  refine ⟨Char.ofNat ((first.toNat - 0xC0) * 64 + (second.toNat - 0x80)), ?_⟩
  rw [String.utf8EncodeChar, toNat_ofNat_of_valid (by omega), if_neg (by omega),
    if_pos (by omega), ofNat_eq first (by omega), ofNat_eq second (by omega)]

theorem exists_char_three (first second third : UInt8)
    (hFirst : 0xE0 ≤ first.toNat ∧ first.toNat ≤ 0xEF)
    (hSecond : 0x80 ≤ second.toNat ∧ second.toNat ≤ 0xBF)
    (hThird : 0x80 ≤ third.toNat ∧ third.toNat ≤ 0xBF)
    (hLong : first.toNat = 0xE0 → 0xA0 ≤ second.toNat)
    (hScalar : first.toNat = 0xED → second.toNat ≤ 0x9F) :
    ∃ char, String.utf8EncodeChar char = [first, second, third] := by
  refine ⟨Char.ofNat ((first.toNat - 0xE0) * 4096 + (second.toNat - 0x80) * 64 +
    (third.toNat - 0x80)), ?_⟩
  rw [String.utf8EncodeChar, toNat_ofNat_of_valid (by omega), if_neg (by omega),
    if_neg (by omega), if_pos (by omega), ofNat_eq first (by omega),
    ofNat_eq second (by omega), ofNat_eq third (by omega)]

theorem exists_char_four (first second third fourth : UInt8)
    (hFirst : 0xF0 ≤ first.toNat ∧ first.toNat ≤ 0xF4)
    (hSecond : 0x80 ≤ second.toNat ∧ second.toNat ≤ 0xBF)
    (hThird : 0x80 ≤ third.toNat ∧ third.toNat ≤ 0xBF)
    (hFourth : 0x80 ≤ fourth.toNat ∧ fourth.toNat ≤ 0xBF)
    (hLong : first.toNat = 0xF0 → 0x90 ≤ second.toNat)
    (hScalar : first.toNat = 0xF4 → second.toNat ≤ 0x8F) :
    ∃ char, String.utf8EncodeChar char = [first, second, third, fourth] := by
  refine ⟨Char.ofNat ((first.toNat - 0xF0) * 262144 + (second.toNat - 0x80) * 4096 +
    (third.toNat - 0x80) * 64 + (fourth.toNat - 0x80)), ?_⟩
  rw [String.utf8EncodeChar, toNat_ofNat_of_valid (by omega), if_neg (by omega),
    if_neg (by omega), if_neg (by omega), ofNat_eq first (by omega),
    ofNat_eq second (by omega), ofNat_eq third (by omega),
    ofNat_eq fourth (by omega)]

/-! ### Bytes that are text -/

theorem exists_continuation {value following low high : Nat} {done : Source}
    {bytes : List UInt8}
    (hText : none ∉ decodeFrom (.inside value following low high) done bytes) :
    ∃ byte rest, bytes = byte :: rest ∧ low ≤ byte.toNat ∧ byte.toNat ≤ high ∧
      none ∉ decodeFrom (step (.inside value following low high) byte.toNat done).1
        (step (.inside value following low high) byte.toNat done).2 rest := by
  cases bytes with
  | nil => exact absurd (by simp [decodeFrom]) hText
  | cons byte rest =>
      rw [decodeFrom_cons] at hText
      by_cases hRange : low ≤ byte.toNat ∧ byte.toNat ≤ high
      · exact ⟨byte, rest, rfl, hRange.1, hRange.2, hText⟩
      · refine absurd (none_mem_decodeFrom ?_ rest) hText
        rw [step, if_neg hRange]
        exact (start_extends _ _).mem List.mem_cons_self

theorem exists_last {value low high : Nat} {done : Source} {bytes : List UInt8}
    (hText : none ∉ decodeFrom (.inside value 1 low high) done bytes) :
    ∃ byte rest, bytes = byte :: rest ∧ low ≤ byte.toNat ∧ byte.toNat ≤ high ∧
      ∃ done, none ∉ decodeFrom .between done rest := by
  obtain ⟨byte, rest, hBytes, hLow, hHigh, hRest⟩ := exists_continuation hText
  rw [step_last hLow hHigh] at hRest
  exact ⟨byte, rest, hBytes, hLow, hHigh, _, hRest⟩

theorem exists_more {value following low high : Nat} {done : Source} {bytes : List UInt8}
    (hText : none ∉ decodeFrom (.inside value (following + 2) low high) done bytes) :
    ∃ byte rest, bytes = byte :: rest ∧ low ≤ byte.toNat ∧ byte.toNat ≤ high ∧
      ∃ value, none ∉ decodeFrom (.inside value (following + 1) 0x80 0xBF) done rest := by
  obtain ⟨byte, rest, hBytes, hLow, hHigh, hRest⟩ := exists_continuation hText
  rw [step_more hLow hHigh] at hRest
  exact ⟨byte, rest, hBytes, hLow, hHigh, _, hRest⟩

/-- The three kinds of leading bytes, and the range of the byte after them: it excludes what has
a shorter encoding, surrogates, and codes that are too large. -/
theorem lead_cases {byte : Nat} {lead : Lead} (hLead : Lead.ofByte? byte = some lead) :
    (lead.following = 1 ∧ 0xC2 ≤ byte ∧ byte ≤ 0xDF ∧ lead.low = 0x80 ∧ lead.high = 0xBF) ∨
    (lead.following = 2 ∧ 0xE0 ≤ byte ∧ byte ≤ 0xEF ∧ 0x80 ≤ lead.low ∧ lead.high ≤ 0xBF ∧
      (byte = 0xE0 → lead.low = 0xA0) ∧ (byte = 0xED → lead.high = 0x9F)) ∨
    (lead.following = 3 ∧ 0xF0 ≤ byte ∧ byte ≤ 0xF4 ∧ 0x80 ≤ lead.low ∧ lead.high ≤ 0xBF ∧
      (byte = 0xF0 → lead.low = 0x90) ∧ (byte = 0xF4 → lead.high = 0x8F)) := by
  unfold Lead.ofByte? at hLead
  split_ifs at hLead <;> obtain rfl := Option.some.inj hLead <;> simp <;> omega

theorem exists_char {first : UInt8} {rest : List UInt8} {done : Source}
    (hText : none ∉ decodeFrom .between done (first :: rest)) :
    ∃ char later done, first :: rest = String.utf8EncodeChar char ++ later ∧
      none ∉ decodeFrom .between done later := by
  rw [decodeFrom_cons, step, start] at hText
  by_cases hPlain : first.toNat < 0x80
  · rw [if_pos hPlain] at hText
    refine ⟨Char.ofNat first.toNat, rest, _, ?_, hText⟩
    rw [String.utf8EncodeChar, toNat_ofNat_of_valid (by omega)]
    rw [if_pos (by omega), UInt8.ofNat_toNat, List.singleton_append]
  · rw [if_neg hPlain] at hText
    cases hLead : Lead.ofByte? first.toNat with
    | none =>
        rw [hLead] at hText
        exact absurd (none_mem_decodeFrom List.mem_cons_self rest) hText
    | some lead =>
        rw [hLead] at hText
        obtain ⟨bits, following, low, high⟩ := lead
        dsimp only at hText
        have hCases := lead_cases hLead
        dsimp only at hCases
        rcases hCases with ⟨rfl, hLeast, hMost, hLow, hHigh⟩ |
          ⟨rfl, hLeast, hMost, hLow, hHigh, hShort, hSurrogate⟩ |
            ⟨rfl, hLeast, hMost, hLow, hHigh, hShort, hLarge⟩
        · obtain ⟨second, later, rfl, hFrom, hTo, done, hLater⟩ := exists_last hText
          obtain ⟨char, hChar⟩ := exists_char_two first second ⟨hLeast, hMost⟩ (by omega)
          exact ⟨char, later, done, by rw [hChar]; rfl, hLater⟩
        · obtain ⟨second, more, rfl, hFrom, hTo, _, hMore⟩ := exists_more hText
          obtain ⟨third, later, rfl, hFrom', hTo', done, hLater⟩ := exists_last hMore
          obtain ⟨char, hChar⟩ := exists_char_three first second third ⟨hLeast, hMost⟩ (by omega)
            ⟨hFrom', hTo'⟩ (by omega) (by omega)
          exact ⟨char, later, done, by rw [hChar]; rfl, hLater⟩
        · obtain ⟨second, more, rfl, hFrom, hTo, _, hMore⟩ := exists_more hText
          obtain ⟨third, more, rfl, hFrom', hTo', _, hMore⟩ := exists_more hMore
          obtain ⟨fourth, later, rfl, hFrom'', hTo'', done, hLater⟩ := exists_last hMore
          obtain ⟨char, hChar⟩ := exists_char_four first second third fourth ⟨hLeast, hMost⟩
            (by omega) ⟨hFrom', hTo'⟩ ⟨hFrom'', hTo''⟩ (by omega) (by omega)
          exact ⟨char, later, done, by rw [hChar]; rfl, hLater⟩

theorem exists_chars {bytes : List UInt8} {done : Source}
    (hText : none ∉ decodeFrom .between done bytes) :
    ∃ chars : List Char, bytes = chars.flatMap String.utf8EncodeChar := by
  generalize hLength : bytes.length = length
  induction length using Nat.strongRecOn generalizing bytes done with
  | ind length ih =>
      cases bytes with
      | nil => exact ⟨[], rfl⟩
      | cons first rest =>
          obtain ⟨char, later, done, hBytes, hLater⟩ := exists_char hText
          have hShorter : later.length < length := by
            have hSome := char.utf8Size_pos
            rw [← hLength, hBytes, List.length_append, String.length_utf8EncodeChar]
            omega
          obtain ⟨chars, rfl⟩ := ih later.length hShorter hLater rfl
          exact ⟨char :: chars, by rw [hBytes, List.flatMap_cons]⟩

/-! ### Texts of bytes -/

theorem text?_bytesOf (text : String) : text? (bytesOf text) = some text := by
  rw [text?, decode_bytesOf]
  simp [Source.ofChars]

/-- Bytes are text exactly if they encode it. -/
theorem text?_eq_some_iff {bytes : List UInt8} {text : String} :
    text? bytes = some text ↔ bytes = bytesOf text := by
  constructor
  · intro hText
    have hAll : none ∉ decodeFrom .between [] bytes := by
      intro hNone
      have hSome : (decode bytes).all Option.isSome = false :=
        List.all_eq_false.mpr ⟨none, hNone, by simp⟩
      rw [text?, hSome] at hText
      cases hText
    obtain ⟨chars, hChars⟩ := exists_chars hAll
    have hBytes : bytes = bytesOf (String.ofList chars) := by
      rw [bytesOf_eq, String.toList_ofList, hChars]
    rw [hBytes, text?_bytesOf] at hText
    rw [hBytes, Option.some.inj hText]
  · rintro rfl
    exact text?_bytesOf text

theorem text?_eq_none_iff {bytes : List UInt8} :
    text? bytes = none ↔ ∀ text, bytes ≠ bytesOf text := by
  rw [Option.eq_none_iff_forall_ne_some]
  simp only [ne_eq, text?_eq_some_iff]

/-! ### Plain bytes -/

theorem char_of_plainByte {char : Char} {byte : UInt8}
    (hByte : byte ∈ String.utf8EncodeChar char) (hPlain : byte.toNat < 0x80) :
    char = Char.ofNat byte.toNat := by
  have hLimit : char.val.toNat < 0x110000 := by
    have hValid : char.val.toNat < 0xD800 ∨ 0xDFFF < char.val.toNat ∧ char.val.toNat < 0x110000 :=
      char.valid
    omega
  suffices hSame : char.val.toNat = byte.toNat by
    rw [← hSame]
    exact (Char.ofNat_toNat char).symm
  rw [String.utf8EncodeChar] at hByte
  generalize char.val.toNat = code at hByte hLimit
  split_ifs at hByte with hOne hTwo hThree
  · rw [List.mem_singleton.mp hByte, Bytes.toNat_ofNat_of_lt (by omega)]
  · -- All bytes of a longer character are at least 128.
    simp only [List.mem_cons, List.not_mem_nil, or_false] at hByte
    rcases hByte with rfl | rfl <;> rw [Bytes.toNat_ofNat_of_lt (by omega)] at hPlain <;> omega
  · simp only [List.mem_cons, List.not_mem_nil, or_false] at hByte
    rcases hByte with rfl | rfl | rfl <;> rw [Bytes.toNat_ofNat_of_lt (by omega)] at hPlain <;>
      omega
  · simp only [List.mem_cons, List.not_mem_nil, or_false] at hByte
    rcases hByte with rfl | rfl | rfl | rfl <;>
      rw [Bytes.toNat_ofNat_of_lt (by omega)] at hPlain <;> omega

theorem mem_bytesOf_plain {text : String} {byte : UInt8} (hByte : byte ∈ bytesOf text)
    (hPlain : byte.toNat < 0x80) : Char.ofNat byte.toNat ∈ text.toList := by
  rw [bytesOf_eq, List.mem_flatMap] at hByte
  obtain ⟨char, hChar, hIn⟩ := hByte
  rw [← char_of_plainByte hIn hPlain]
  exact hChar

theorem bytesOf_append (text other : String) :
    bytesOf (text ++ other) = bytesOf text ++ bytesOf other := by
  rw [bytesOf_eq, bytesOf_eq, bytesOf_eq, String.toList_append, List.flatMap_append]

end BuildWatch.Text.Utf8
