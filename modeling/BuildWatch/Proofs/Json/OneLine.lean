import BuildWatch.Proofs.Json.Written

/-!
The compact text of a value has no control characters, whatever strings the value holds; so it
stands on one line.
-/

namespace BuildWatch.Json

/-- Whether a character is no control character: nothing before the blank is printed. -/
def IsPrinted (char : Char) : Prop := ' ' ≤ char

instance (char : Char) : Decidable (IsPrinted char) :=
  inferInstanceAs (Decidable (' ' ≤ char))

theorem IsPrinted.ne_newline {char : Char} (hChar : IsPrinted char) : char ≠ '\n' := by
  rintro rfl
  exact absurd hChar (by decide)

theorem IsPrinted.ne_return {char : Char} (hChar : IsPrinted char) : char ≠ '\r' := by
  rintro rfl
  exact absurd hChar (by decide)

theorem isPrinted_of_all {chars : List Char} (hAll : chars.all (fun char => ' ' ≤ char) = true) :
    ∀ char ∈ chars, IsPrinted char := by
  intro char hChar
  exact of_decide_eq_true (List.all_eq_true.mp hAll char hChar)

/-! ### Strings -/

theorem isPrinted_hexDigit {value : Nat} (hValue : value < 16) : IsPrinted (hexDigit value) := by
  have hDigits : ∀ digit : Fin 16, IsPrinted (hexDigit digit) := by decide
  exact hDigits ⟨value, hValue⟩

theorem isPrinted_mark {mark other : Char} (hOther : other ∈ ['\\', mark]) (hMark : IsPrinted mark) :
    IsPrinted other := by
  rcases List.mem_cons.mp hOther with rfl | hLast
  · decide
  · rw [List.mem_singleton.mp hLast]
    exact hMark

theorem isPrinted_escapeChar {char other : Char} (hOther : other ∈ escapeChar char) :
    IsPrinted other := by
  unfold escapeChar at hOther
  split_ifs at hOther with _ _ _ _ _ _ _ hControl
  · exact isPrinted_mark hOther (by decide)
  · exact isPrinted_mark hOther (by decide)
  · exact isPrinted_mark hOther (by decide)
  · exact isPrinted_mark hOther (by decide)
  · exact isPrinted_mark hOther (by decide)
  · exact isPrinted_mark hOther (by decide)
  · exact isPrinted_mark hOther (by decide)
  · have hCode : char.toNat < 32 := hControl
    simp only [List.mem_cons, List.not_mem_nil, or_false] at hOther
    rcases hOther with rfl | rfl | rfl | rfl | rfl | rfl
    · decide
    · decide
    · decide
    · decide
    · exact isPrinted_hexDigit (by omega)
    · exact isPrinted_hexDigit (by omega)
  · rw [List.mem_singleton.mp hOther]
    exact Char.not_lt.mp hControl

theorem isPrinted_renderString {text : String} {char : Char} (hChar : char ∈ renderString text) :
    IsPrinted char := by
  rw [renderString, List.mem_cons, List.mem_append, List.mem_flatMap, List.mem_singleton] at hChar
  rcases hChar with rfl | ⟨shown, _, hShown⟩ | rfl
  · decide
  · exact isPrinted_escapeChar hShown
  · decide

/-! ### Numbers -/

theorem isPrinted_digitsOf {number : Nat} {char : Char} (hChar : char ∈ digitsOf number) :
    IsPrinted char := by
  have hDigit := isDigit_of_mem_digitsOf hChar
  rw [Char.isDigit, Bool.and_eq_true, decide_eq_true_eq] at hDigit
  exact Nat.le_trans (show ' '.toNat ≤ '0'.toNat by decide) hDigit.1

theorem isPrinted_renderInt {value : Int} {char : Char} (hChar : char ∈ renderInt value) :
    IsPrinted char := by
  cases value with
  | ofNat value => exact isPrinted_digitsOf hChar
  | negSucc value =>
      rcases List.mem_cons.mp hChar with rfl | hDigit
      · decide
      · exact isPrinted_digitsOf hDigit

theorem isPrinted_zeros {count : Nat} {char : Char} (hChar : char ∈ List.replicate count '0') :
    IsPrinted char := by
  rw [List.eq_of_mem_replicate hChar]
  decide

theorem isPrinted_renderDecimal {form : NumberForm} {numeral : Decimal.Numeral} {char : Char}
    (hChar : char ∈ renderDecimal form numeral) : IsPrinted char := by
  unfold renderDecimal at hChar
  have hDigits (digit : Char) (hDigit : digit ∈ digitsOf numeral.digits) : IsPrinted digit :=
    isPrinted_digitsOf hDigit
  generalize digitsOf numeral.digits = digits at hChar hDigits
  dsimp only at hChar
  split at hChar
  · -- A whole number, filled up with zeros.
    simp only [List.mem_append, List.mem_cons, List.not_mem_nil, or_false] at hChar
    rcases hChar with (hDigit | hZero) | rfl | rfl
    · exact hDigits char hDigit
    · exact isPrinted_zeros hZero
    · decide
    · decide
  · split at hChar
    · -- The point stands between digits.
      rw [List.mem_append, List.mem_cons] at hChar
      rcases hChar with hDigit | rfl | hDigit
      · exact hDigits char (List.mem_of_mem_take hDigit)
      · decide
      · exact hDigits char (List.mem_of_mem_drop hDigit)
    · split at hChar
      · -- The point stands before the digits.
        simp only [List.mem_append, List.mem_cons, List.cons_append] at hChar
        rcases hChar with rfl | rfl | hZero | hDigit
        · decide
        · decide
        · exact isPrinted_zeros hZero
        · exact hDigits char hDigit
      · -- A mantissa and an exponent.
        rw [List.mem_append, List.mem_cons, List.mem_cons] at hChar
        rcases hChar with hMantissa | rfl | rfl | hDigit
        · split at hMantissa
          · exact absurd hMantissa List.not_mem_nil
          · exact hDigits char hMantissa
          · rw [List.mem_cons, List.mem_cons] at hMantissa
            rcases hMantissa with rfl | rfl | hDigit
            · exact hDigits _ List.mem_cons_self
            · decide
            · exact hDigits char (List.mem_cons_of_mem _ hDigit)
        · decide
        · split <;> decide
        · exact isPrinted_digitsOf hDigit

theorem isPrinted_renderReal {number : Decimal.Binary64} {char : Char}
    (hChar : char ∈ renderReal number) : IsPrinted char := by
  have hSign (sign : Char) (hIn : sign ∈ if number.negative then ['-'] else []) :
      IsPrinted sign := by
    split at hIn
    · rw [List.mem_singleton.mp hIn]
      decide
    · exact absurd hIn List.not_mem_nil
  unfold renderReal at hChar
  dsimp only at hChar
  split at hChar
  · simp only [List.mem_append, List.mem_cons, List.not_mem_nil, or_false] at hChar
    rcases hChar with hIn | rfl | rfl | rfl
    · exact hSign char hIn
    · decide
    · decide
    · decide
  · rcases List.mem_append.mp hChar with hIn | hDecimal
    · exact hSign char hIn
    · exact isPrinted_renderDecimal hDecimal

theorem isPrinted_renderNumber {number : Number} {char : Char} (hChar : char ∈ number.render) :
    IsPrinted char := by
  cases number with
  | int value => exact isPrinted_renderInt hChar
  | real value => exact isPrinted_renderReal hChar

/-! ### Values -/

theorem isPrinted_enclosed {left right char : Char} {chars : List Char} (hLeft : IsPrinted left)
    (hRight : IsPrinted right) (hChars : ∀ other ∈ chars, IsPrinted other)
    (hChar : char ∈ left :: (chars ++ [right])) : IsPrinted char := by
  rw [List.mem_cons, List.mem_append, List.mem_singleton] at hChar
  rcases hChar with rfl | hOther | rfl
  · exact hLeft
  · exact hChars char hOther
  · exact hRight

theorem isPrinted_joined {between char : Char} {chars others : List Char}
    (hBetween : IsPrinted between) (hChars : ∀ other ∈ chars, IsPrinted other)
    (hOthers : ∀ other ∈ others, IsPrinted other) (hChar : char ∈ chars ++ between :: others) :
    IsPrinted char := by
  rw [List.mem_append, List.mem_cons] at hChar
  rcases hChar with hEarly | rfl | hLate
  · exact hChars char hEarly
  · exact hBetween
  · exact hOthers char hLate

mutual

theorem isPrinted_render : ∀ value : Value, ∀ char ∈ value.render, IsPrinted char
  | .null => isPrinted_of_all rfl
  | .bool true => isPrinted_of_all rfl
  | .bool false => isPrinted_of_all rfl
  | .number _ => fun _ => isPrinted_renderNumber
  | .string _ => fun _ => isPrinted_renderString
  | .array items => fun _ =>
      isPrinted_enclosed (by decide) (by decide) (isPrinted_renderItems items)
  | .object members => fun _ =>
      isPrinted_enclosed (by decide) (by decide) (isPrinted_renderMembers members)
termination_by structural value => value

theorem isPrinted_renderItems :
    ∀ items : List Value, ∀ char ∈ Value.renderItems items, IsPrinted char
  | [] => List.forall_mem_nil _
  | [item] => isPrinted_render item
  | item :: other :: others => fun _ =>
      isPrinted_joined (by decide) (isPrinted_render item)
        (isPrinted_renderItems (other :: others))
termination_by structural items => items

theorem isPrinted_renderMembers :
    ∀ members : List (String × Value), ∀ char ∈ Value.renderMembers members, IsPrinted char
  | [] => List.forall_mem_nil _
  | [member] => isPrinted_renderMember member
  | member :: other :: others => fun _ =>
      isPrinted_joined (by decide) (isPrinted_renderMember member)
        (isPrinted_renderMembers (other :: others))
termination_by structural members => members

theorem isPrinted_renderMember :
    ∀ member : String × Value, ∀ char ∈ Value.renderMember member, IsPrinted char
  | (_, value) => fun _ =>
      isPrinted_joined (by decide) (fun _ => isPrinted_renderString) (isPrinted_render value)
termination_by structural member => member

end

end BuildWatch.Json
