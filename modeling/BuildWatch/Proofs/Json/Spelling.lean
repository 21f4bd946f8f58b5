import Mathlib.Tactic.SplitIfs
import BuildWatch.Proofs.Json.Tokens
import BuildWatch.Json.Printer

/-!
How texts and integers are written in JSON, and that they are read back.
-/

namespace BuildWatch.Json

open BuildWatch.Text

/-! ### Strings -/

/-- The piece a character is written as: control characters without an escape of
their own are written by their number. -/
def Piece.ofChar (char : Char) : Piece :=
  if char < ' ' ∧ char ∉ ['\x08', '\x0c', '\n', '\r', '\t'] then .unit char.toNat else .char char

def Literal.ofText (text : String) : Literal :=
  text.toList.map Piece.ofChar

theorem hexDigit?_hexDigit {value : Nat} (hValue : value < 16) :
    hexDigit? (hexDigit value) = some value := by
  revert value
  decide

theorem codeUnit?_hexDigits {value : Nat} (hValue : value < 256) :
    codeUnit? '0' '0' (hexDigit (value / 16)) (hexDigit (value % 16)) = some value := by
  have hHigh := hexDigit?_hexDigit (show value / 16 < 16 by omega)
  have hLow := hexDigit?_hexDigit (show value % 16 < 16 by omega)
  have hZero : hexDigit? '0' = some 0 := by decide
  have hUnit : ((0 * 16 + 0) * 16 + value / 16) * 16 + value % 16 = value := by omega
  rw [codeUnit?, hZero, hHigh, hLow]
  exact congrArg some hUnit

theorem stringBody?_escape {mark char : Char} {done : List Piece} {rest : Source}
    (hMark : mark ≠ 'u') (hChar : escaped? mark = some char) :
    stringBody? done (some '\\' :: some mark :: rest) = stringBody? (.char char :: done) rest := by
  rw [stringBody?]
  · rw [hChar]
  · intro _ _ _ _ _ _ hSame
    exact absurd hSame hMark

theorem stringBody?_plain {char : Char} {done : List Piece} {rest : Source} (hQuote : char ≠ '"')
    (hSlash : char ≠ '\\') (hPrinted : ¬ char < ' ') :
    stringBody? done (some char :: rest) = stringBody? (.char char :: done) rest := by
  rw [stringBody?]
  · rw [if_neg hPrinted]
  · exact fun hSame => absurd hSame hQuote
  · exact fun _ _ _ _ _ _ hSame => absurd hSame hSlash
  · exact fun _ _ _ hSame => absurd hSame hSlash
  · exact fun hSame => absurd hSame hSlash

theorem stringBody?_escapeChar (char : Char) (done : List Piece) (rest : Source) :
    stringBody? done (Source.ofChars (escapeChar char) ++ rest) =
      stringBody? (Piece.ofChar char :: done) rest := by
  unfold escapeChar
  split_ifs with hQuote hSlash hBack hForm hLine hReturn hTab hControl
  · rw [hQuote]
    exact stringBody?_escape (by decide) (by decide)
  · rw [hSlash]
    exact stringBody?_escape (by decide) (by decide)
  · rw [hBack]
    exact stringBody?_escape (by decide) (by decide)
  · rw [hForm]
    exact stringBody?_escape (by decide) (by decide)
  · rw [hLine]
    exact stringBody?_escape (by decide) (by decide)
  · rw [hReturn]
    exact stringBody?_escape (by decide) (by decide)
  · rw [hTab]
    exact stringBody?_escape (by decide) (by decide)
  · have hUnit : Piece.ofChar char = .unit char.toNat := by
      simp [Piece.ofChar, hControl, hBack, hForm, hLine, hReturn, hTab]
    have hSmall : char.toNat < 256 := Nat.lt_trans (show char.toNat < 32 from hControl) (by decide)
    rw [hUnit]
    simp [Source.ofChars, stringBody?, codeUnit?_hexDigits hSmall]
  · have hChar : Piece.ofChar char = .char char := by
      simp [Piece.ofChar, hControl]
    rw [hChar]
    exact stringBody?_plain hQuote hSlash hControl

theorem stringBody?_escapeChars (chars : List Char) (done : List Piece) (rest : Source) :
    stringBody? done (Source.ofChars (chars.flatMap escapeChar) ++ some '"' :: rest) =
      some (done.reverse ++ chars.map Piece.ofChar, rest) := by
  induction chars generalizing done with
  | nil => simp [Source.ofChars, stringBody?]
  | cons char others ih =>
      have hSplit : Source.ofChars ((char :: others).flatMap escapeChar) =
          Source.ofChars (escapeChar char) ++ Source.ofChars (others.flatMap escapeChar) := by
        simp [Source.ofChars]
      rw [hSplit, List.append_assoc, stringBody?_escapeChar, ih]
      simp

theorem chars?_unit {unit : Nat} (hUnit : unit < 0xD800) (done : List Char) (rest : Literal) :
    Literal.chars? done (.unit unit :: rest) = Literal.chars? (Char.ofNat unit :: done) rest := by
  rw [Literal.chars?.eq_def]
  dsimp only
  rw [if_neg (by omega), if_neg (by omega)]

theorem chars?_ofChar (chars done : List Char) :
    Literal.chars? done (chars.map Piece.ofChar) = some (done.reverse ++ chars) := by
  induction chars generalizing done with
  | nil => simp [Literal.chars?]
  | cons char rest ih =>
      have hRest := ih (char :: done)
      rw [List.reverse_cons, List.append_assoc, List.singleton_append] at hRest
      rw [List.map_cons, ← hRest]
      unfold Piece.ofChar
      split_ifs with hUnit
      · have hSmall : char.toNat < 32 := hUnit.1
        rw [chars?_unit (by omega), Char.ofNat_toNat]
      · rw [Literal.chars?]

theorem text?_ofText (text : String) : (Literal.ofText text).text? = some text := by
  rw [Literal.text?, Literal.ofText, chars?_ofChar, List.reverse_nil, List.nil_append,
    Option.map_some, String.ofList_toList]

/-! ### Integers -/

theorem isDigit_of_mem_digitsOf {number : Nat} {char : Char} (hChar : char ∈ digitsOf number) :
    char.isDigit = true :=
  Nat.isDigit_of_mem_toDigits (by decide) (by decide) hChar

theorem digitValue_digitChar {digit : Nat} (hDigit : digit < 10) :
    digitValue digit.digitChar = digit := by
  revert digit
  decide

theorem digitsOf_eq_cons {number : Nat} (hPositive : 0 < number) :
    ∃ first rest, digitsOf number = first :: rest ∧ digitValue first ≠ 0 := by
  induction number using Nat.strongRecOn with
  | ind number ih =>
      by_cases hDigit : number < 10
      · refine ⟨number.digitChar, [], Nat.toDigits_of_lt_base hDigit, ?_⟩
        rw [digitValue_digitChar hDigit]
        omega
      · obtain ⟨first, rest, hDigits, hFirst⟩ := ih (number / 10) (by omega) (by omega)
        refine ⟨first, rest ++ [(number % 10).digitChar], ?_, hFirst⟩
        rw [digitsOf] at hDigits ⊢
        rw [Nat.toDigits_of_base_le (by decide) (by omega), hDigits, List.cons_append]

def digitValues (number : Nat) : List Nat :=
  (digitsOf number).map digitValue

theorem isWhole_digitValues (number : Nat) : isWhole (digitValues number) = true := by
  by_cases hPositive : 0 < number
  · obtain ⟨first, rest, hDigits, hFirst⟩ := digitsOf_eq_cons hPositive
    rw [digitValues, hDigits]
    cases rest with
    | nil => rfl
    | cons second rest => simp [isWhole, hFirst]
  · rw [Nat.eq_zero_of_not_pos hPositive]
    decide

theorem takeDigits_digitsOf (number : Nat) :
    takeDigits (digitsOf number) = (digitValues number, []) := by
  have hAll : ∀ char ∈ digitsOf number, char.isDigit = true := fun char => isDigit_of_mem_digitsOf
  have hTaken : (digitsOf number ++ []).takeWhile Char.isDigit = _ :=
    List.takeWhile_append_of_pos hAll
  have hDropped : (digitsOf number ++ []).dropWhile Char.isDigit = _ :=
    List.dropWhile_append_of_pos hAll
  rw [List.append_nil] at hTaken hDropped
  rw [takeDigits, hTaken, hDropped]
  simp [digitValues]

def wholeLiteral (value : Int) : NumberLiteral :=
  { negative := decide (value < 0), whole := digitValues value.natAbs }

theorem ofWord?_negative (number : Nat) :
    NumberLiteral.ofWord? ('-' :: digitsOf number) =
      some { negative := true, whole := digitValues number } := by
  simp [NumberLiteral.ofWord?, takeDigits_digitsOf, isWhole_digitValues, exponentOfWord?]

theorem ofWord?_digitsOf (number : Nat) :
    NumberLiteral.ofWord? (digitsOf number) =
      some { negative := false, whole := digitValues number } := by
  cases hDigits : digitsOf number with
  | nil => exact absurd hDigits Nat.toDigits_ne_nil
  | cons first rest =>
      have hFirst : first ≠ '-' := by
        intro hSame
        have hDigit : first.isDigit = true :=
          isDigit_of_mem_digitsOf (by rw [hDigits]; exact List.mem_cons_self)
        rw [hSame] at hDigit
        exact absurd hDigit (by decide)
      have hTaken := takeDigits_digitsOf number
      rw [hDigits] at hTaken
      simp [NumberLiteral.ofWord?, hFirst, hTaken, isWhole_digitValues, exponentOfWord?]

theorem ofWord?_renderInt (value : Int) :
    NumberLiteral.ofWord? (renderInt value) = some (wholeLiteral value) := by
  cases value with
  | ofNat value => exact ofWord?_digitsOf value
  | negSucc value =>
      rw [renderInt, ofWord?_negative, wholeLiteral, decide_eq_true (Int.negSucc_lt_zero value)]
      rfl

theorem mem_renderInt {value : Int} {char : Char} (hChar : char ∈ renderInt value) :
    char.isDigit = true ∨ char = '-' := by
  cases value with
  | ofNat value => exact Or.inl (isDigit_of_mem_digitsOf hChar)
  | negSucc value =>
      obtain rfl | hDigit := List.mem_cons.mp hChar
      · exact Or.inr rfl
      · exact Or.inl (isDigit_of_mem_digitsOf hDigit)

theorem isWordChar_renderInt {value : Int} {char : Char} (hChar : char ∈ renderInt value) :
    isWordChar char = true := by
  obtain hDigit | rfl := mem_renderInt hChar
  · simp [isWordChar, Char.isAlphanum, hDigit]
  · decide

theorem tokenOfWord?_renderInt (value : Int) :
    Token.ofWord? (renderInt value) = some (.number (wholeLiteral value)) := by
  have hNoName : ∀ word : List Char, (∃ char ∈ word, char.isDigit = false ∧ char ≠ '-') →
      ¬ (renderInt value == word) = true := by
    rintro word ⟨char, hChar, hDigit, hSign⟩ hSame
    rw [← eq_of_beq hSame] at hChar
    obtain hDigit' | hSign' := mem_renderInt hChar
    · rw [hDigit] at hDigit'
      exact Bool.false_ne_true hDigit'
    · exact hSign hSign'
  rw [Token.ofWord?, if_neg (hNoName _ ⟨'u', by decide⟩), if_neg (hNoName _ ⟨'u', by decide⟩),
    if_neg (hNoName _ ⟨'a', by decide⟩), ofWord?_renderInt, Option.map_some]

/-! ### Values of integers -/

def valueOf (number : Nat) (digits : List Nat) : Nat :=
  digits.foldl (fun value digit => value * 10 + digit) number

theorem le_valueOf (digits : List Nat) (number : Nat) : number ≤ valueOf number digits := by
  induction digits generalizing number with
  | nil => exact Nat.le_refl number
  | cons digit rest ih =>
      have hRest : number * 10 + digit ≤ valueOf number (digit :: rest) := ih _
      omega

/-- Digits whose value fits are all gathered. -/
theorem gather_eq {digits : List Nat} {number : Nat}
    (hFits : valueOf number digits < gatherLimit) :
    gather number digits = (valueOf number digits, []) := by
  induction digits generalizing number with
  | nil => rfl
  | cons digit rest ih =>
      have hNext : number * 10 + digit < gatherLimit :=
        Nat.lt_of_le_of_lt (le_valueOf rest _) hFits
      rw [gather, if_pos hNext]
      exact ih hFits

theorem valueOf_digitValues (number : Nat) : valueOf 0 (digitValues number) = number := by
  have hValue := Nat.ofDigitChars_ten_toDigits (n := number)
  rw [Nat.ofDigitChars_eq_foldl] at hValue
  rw [valueOf, digitValues, List.foldl_map]
  simpa [digitValue, digitsOf, Nat.mul_comm] using hValue

theorem gather_digitValues {number : Nat} (hFits : number < Nat.pow 2 64) :
    gather 0 (digitValues number) = (number, []) := by
  have hValue := valueOf_digitValues number
  rw [gather_eq (by rw [hValue]; exact hFits), hValue]

theorem number?_positive {number : Nat} (hFits : number < Nat.pow 2 64) :
    NumberLiteral.number? { negative := false, whole := digitValues number } =
      some (.int number) := by
  simp only [NumberLiteral.number?, gather_digitValues hFits]
  rfl

theorem number?_negative {number : Nat} (hPositive : number ≠ 0)
    (hFits : number ≤ Nat.pow 2 63) :
    NumberLiteral.number? { negative := true, whole := digitValues number } =
      some (.int (-(number : Int))) := by
  have hMost : number < Nat.pow 2 64 := Nat.lt_of_le_of_lt hFits (by decide)
  have hSize : (number != 0 && decide (number ≤ Nat.pow 2 63)) = true := by
    rw [Bool.and_eq_true, bne_iff_ne, decide_eq_true_eq]
    exact ⟨hPositive, hFits⟩
  simp only [NumberLiteral.number?, gather_digitValues hMost, hSize]
  rfl

/-- Integers of 64 bits, with or without a sign, are read back. -/
theorem number?_wholeLiteral {value : Int}
    (hNegative : value < 0 → value.natAbs ≤ Nat.pow 2 63)
    (hPositive : 0 ≤ value → value.natAbs < Nat.pow 2 64) :
    (wholeLiteral value).number? = some (.int value) := by
  by_cases hSign : value < 0
  · have hSome : value.natAbs ≠ 0 := by omega
    have hBack : -(value.natAbs : Int) = value := by omega
    rw [wholeLiteral, decide_eq_true hSign, number?_negative hSome (hNegative hSign), hBack]
  · have hLeast : 0 ≤ value := Int.not_lt.mp hSign
    have hBack : (value.natAbs : Int) = value := by omega
    rw [wholeLiteral, decide_eq_false hSign, number?_positive (hPositive hLeast), hBack]

end BuildWatch.Json
