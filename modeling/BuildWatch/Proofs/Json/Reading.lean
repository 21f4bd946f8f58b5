import BuildWatch.Proofs.Json.Spelling
import Mathlib.Data.List.Induction
import Mathlib.Data.List.TakeWhile

/-!
What a text must be to be read as a document.  Its tokens are those of the document, so each number
in the document was written as some word; an integer was written with exactly its own digits.
-/

namespace BuildWatch.Json

open BuildWatch.Text

/-! ### What the machine has read -/

def followedTokens {α : Type} (spell : α → List Token) (parts : List α) : List Token :=
  parts.flatMap fun part => spell part ++ [.comma]

section Joined

variable {α : Type} {spell : α → List Token} {join : List α → List Token}
  (hOne : ∀ part, join [part] = spell part)
  (hMore : ∀ part other others,
    join (part :: other :: others) = spell part ++ .comma :: join (other :: others))
include hOne hMore

theorem joined_concat (parts : List α) (last : α) :
    join (parts ++ [last]) = followedTokens spell parts ++ spell last := by
  induction parts with
  | nil => exact hOne last
  | cons part rest ih =>
      obtain ⟨other, others, hSome⟩ := List.exists_cons_of_ne_nil
        (List.append_ne_nil_of_right_ne_nil rest (List.cons_ne_nil last []))
      rw [List.cons_append, hSome, hMore, ← hSome, ih, followedTokens, followedTokens,
        List.flatMap_cons]
      simp only [List.append_assoc, List.cons_append, List.nil_append]

theorem mem_joined {parts : List α} {part : α} {token : Token} (hPart : part ∈ parts)
    (hToken : token ∈ spell part) : token ∈ join parts := by
  induction parts with
  | nil => cases hPart
  | cons first rest ih =>
      cases rest with
      | nil =>
          rw [hOne, ← List.mem_singleton.mp hPart]
          exact hToken
      | cons other others =>
          rw [hMore, List.mem_append, List.mem_cons]
          rcases List.mem_cons.mp hPart with rfl | hRest
          · exact Or.inl hToken
          · exact Or.inr (Or.inr (ih hRest))

end Joined

theorem Document.itemsTokens_concat (items : List Document) (item : Document) :
    Document.itemsTokens (items ++ [item]) = followedTokens Document.tokens items ++ item.tokens :=
  joined_concat (fun _ => rfl) Document.itemsTokens_cons items item

theorem Document.membersTokens_concat (members : List (Literal × Document))
    (member : Literal × Document) :
    Document.membersTokens (members ++ [member]) =
      followedTokens Document.memberTokens members ++ Document.memberTokens member :=
  joined_concat (fun _ => rfl) Document.membersTokens_cons members member

theorem Document.mem_tokens_array {items : List Document} {item : Document} {token : Token}
    (hItem : item ∈ items) (hToken : token ∈ item.tokens) :
    token ∈ (Document.array items).tokens := by
  have hItems := mem_joined (fun _ => rfl) Document.itemsTokens_cons hItem hToken
  exact List.mem_cons_of_mem _ (List.mem_append_left _ hItems)

theorem Document.mem_tokens_object {members : List (Literal × Document)} {key : Literal}
    {document : Document} {token : Token} (hMember : (key, document) ∈ members)
    (hToken : token ∈ document.tokens) : token ∈ (Document.object members).tokens := by
  have hOwn : token ∈ Document.memberTokens (key, document) :=
    List.mem_cons_of_mem _ (List.mem_cons_of_mem _ hToken)
  have hMembers := mem_joined (fun _ => rfl) Document.membersTokens_cons hMember hOwn
  exact List.mem_cons_of_mem _ (List.mem_append_left _ hMembers)

/-- The tokens that open some frames and fill them so far. -/
def Frame.tokens : List Frame → List Token
  | [] => []
  | .array before :: frames =>
      Frame.tokens frames ++ .openArray :: followedTokens Document.tokens before.reverse
  | .object before key :: frames =>
      Frame.tokens frames ++
        .openObject :: (followedTokens Document.memberTokens before.reverse ++
          [.string key, .colon])

/-- The tokens after which the machine is in a state. -/
def State.tokens : State → List Token
  | .expectValue frames => Frame.tokens frames
  | .expectItem frames => Frame.tokens frames ++ [.openArray]
  | .expectKey frames before _ =>
      Frame.tokens frames ++ .openObject :: followedTokens Document.memberTokens before.reverse
  | .expectColon frames before key =>
      Frame.tokens frames ++
        .openObject :: (followedTokens Document.memberTokens before.reverse ++ [.string key])
  | .complete frames document => Frame.tokens frames ++ document.tokens

/-- An object that was just opened has no members yet. -/
def State.IsOrderly : State → Prop
  | .expectKey _ before true => before = []
  | _ => True

theorem State.start?_tokens {frames : List Frame} {token : Token} {next : State}
    (hNext : State.start? frames token = some next) :
    next.tokens = Frame.tokens frames ++ [token] ∧ next.IsOrderly := by
  cases token with
  | openObject =>
      obtain rfl := Option.some.inj hNext
      exact ⟨rfl, rfl⟩
  | null | bool | number | string | openArray =>
      obtain rfl := Option.some.inj hNext
      exact ⟨rfl, trivial⟩
  | closeArray | closeObject | comma | colon => cases hNext

/-- One more token is read in each step. -/
theorem State.next?_tokens {state next : State} {token : Token} (hOrderly : state.IsOrderly)
    (hNext : state.next? token = some next) :
    next.tokens = state.tokens ++ [token] ∧ next.IsOrderly := by
  have hOpened (frames : List Frame) : Frame.tokens (.array [] :: frames) =
      Frame.tokens frames ++ [.openArray] := rfl
  unfold State.next? at hNext
  -- A case for each rule of the machine, in its order.
  split at hNext
  · exact State.start?_tokens hNext
  · cases hNext
    exact ⟨by simp [State.tokens, Document.tokens, Document.itemsTokens], trivial⟩
  · -- The first item of an array that was just opened.
    rw [State.tokens, ← hOpened]
    exact State.start?_tokens hNext
  · cases hNext
    exact ⟨by simp [State.tokens], trivial⟩
  · cases hNext
    obtain rfl : _ = [] := hOrderly
    exact ⟨by simp [State.tokens, Document.tokens, Document.membersTokens, followedTokens],
      trivial⟩
  · cases hNext
    exact ⟨by simp [State.tokens, Frame.tokens], trivial⟩
  · cases hNext
    exact ⟨by simp [State.tokens, Frame.tokens, followedTokens], trivial⟩
  · cases hNext
    exact ⟨by simp [State.tokens, Frame.tokens, Document.tokens, Document.itemsTokens_concat],
      trivial⟩
  · cases hNext
    exact ⟨by simp [State.tokens, Frame.tokens, followedTokens, Document.memberTokens], trivial⟩
  · cases hNext
    exact ⟨by simp [State.tokens, Frame.tokens, Document.tokens, Document.membersTokens_concat,
      Document.memberTokens], trivial⟩
  · cases hNext

theorem State.feed?_eq_tokens {state last : State} {tokens : List Token}
    (hOrderly : state.IsOrderly) (hFed : state.feed? tokens = some last) :
    last.tokens = state.tokens ++ tokens := by
  induction tokens generalizing state with
  | nil =>
      cases hFed
      rw [List.append_nil]
  | cons token rest ih =>
      rw [State.feed?] at hFed
      split at hFed
      · next next hNext =>
          obtain ⟨hTokens, hNextOrderly⟩ := State.next?_tokens hOrderly hNext
          rw [ih hNextOrderly hFed, hTokens, List.append_assoc, List.singleton_append]
      · cases hFed

/-- A text is read as the document whose tokens it is cut into. -/
theorem Document.ofSource?_eq_some_iff {source : Source} {document : Document} :
    Document.ofSource? source = some document ↔ tokens? source = some document.tokens := by
  refine ⟨?_, Document.ofSource?_of_tokens⟩
  intro hRead
  obtain ⟨tokens, hTokens, hRead⟩ := Option.bind_eq_some_iff.mp hRead
  obtain ⟨last, hFed, hLast⟩ := Option.bind_eq_some_iff.mp hRead
  have hOrderly : (State.expectValue []).IsOrderly := trivial
  have hSame : last.tokens = tokens := State.feed?_eq_tokens hOrderly hFed
  unfold State.document? at hLast
  split at hLast
  · cases hLast
    rw [hTokens, ← hSame]
    rfl
  · cases hLast

/-! ### Numbers -/

/-- A number stands for a word that is read as its literal. -/
def Token.IsSpelled : Token → Prop
  | .number literal => ∃ word, NumberLiteral.ofWord? word = some literal
  | _ => True

theorem Token.isSpelled_of_ofWord? {word : List Char} {token : Token}
    (hToken : Token.ofWord? word = some token) : token.IsSpelled := by
  unfold Token.ofWord? at hToken
  split_ifs at hToken
  · cases hToken
    exact trivial
  · cases hToken
    exact trivial
  · cases hToken
    exact trivial
  · obtain ⟨literal, hLiteral, rfl⟩ := Option.map_eq_some_iff.mp hToken
    exact ⟨word, hLiteral⟩

theorem Token.isSpelled_of_punctuation? {char : Char} {token : Token}
    (hToken : punctuation? char = some token) : token.IsSpelled := by
  unfold punctuation? at hToken
  split at hToken <;> cases hToken <;> exact trivial

theorem isSpelled_of_tokensFrom? {done : List Token} {source : Source} {tokens : List Token}
    (hDone : ∀ token ∈ done, token.IsSpelled) (hTokens : tokensFrom? done source = some tokens) :
    ∀ token ∈ tokens, token.IsSpelled := by
  fun_induction tokensFrom? done source with
  | case1 done =>
      cases hTokens
      intro token hToken
      exact hDone token (List.mem_reverse.mp hToken)
  | case2 => cases hTokens
  | case3 done char rest _ ih => exact ih hDone hTokens
  | case4 done rest literal rest' _ _ ih =>
      exact ih (List.forall_mem_cons.mpr ⟨trivial, hDone⟩) hTokens
  | case5 => cases hTokens
  | case6 done char rest _ _ token hToken ih =>
      exact ih (List.forall_mem_cons.mpr ⟨Token.isSpelled_of_punctuation? hToken, hDone⟩) hTokens
  | case7 done char rest _ _ _ _ token hToken ih =>
      exact ih (List.forall_mem_cons.mpr ⟨Token.isSpelled_of_ofWord? hToken, hDone⟩) hTokens
  | case8 => cases hTokens
  | case9 => cases hTokens

theorem NumberLiteral.spelled_of_mem_tokens {source : Source} {document : Document}
    (hRead : Document.ofSource? source = some document) {literal : NumberLiteral}
    (hLiteral : Token.number literal ∈ document.tokens) :
    ∃ word, NumberLiteral.ofWord? word = some literal :=
  isSpelled_of_tokensFrom? (List.forall_mem_nil _) (Document.ofSource?_eq_some_iff.mp hRead) _
    hLiteral

/-! ### Integers -/

theorem digitValue_lt {char : Char} (hDigit : char.isDigit = true) : digitValue char < 10 := by
  rw [Char.isDigit, Bool.and_eq_true, decide_eq_true_eq, decide_eq_true_eq] at hDigit
  have hMost : char.toNat ≤ '0'.toNat + 9 := hDigit.2
  unfold digitValue
  omega

theorem digitChar_digitValue {char : Char} (hDigit : char.isDigit = true) :
    (digitValue char).digitChar = char := by
  have hAll : ∀ digit : Fin 10, digit.val.digitChar = Char.ofNat ('0'.toNat + digit.val) := by
    decide
  have hValue := digitValue_lt hDigit
  rw [Char.isDigit, Bool.and_eq_true, decide_eq_true_eq, decide_eq_true_eq] at hDigit
  have hLeast : '0'.toNat ≤ char.toNat := hDigit.1
  have hBack : '0'.toNat + digitValue char = char.toNat := Nat.add_sub_cancel' hLeast
  rw [hAll ⟨digitValue char, hValue⟩, hBack, Char.ofNat_toNat]

theorem valueOf_concat (number : Nat) (digits : List Nat) (digit : Nat) :
    valueOf number (digits ++ [digit]) = valueOf number digits * 10 + digit := by
  simp [valueOf]

theorem digitsOf_valueOf {chars : List Char} (hDigits : ∀ char ∈ chars, char.isDigit = true)
    (hWhole : isWhole (chars.map digitValue) = true) :
    digitsOf (valueOf 0 (chars.map digitValue)) = chars := by
  induction chars using List.reverseRecOn with
  | nil => cases hWhole
  | append_singleton chars last ih =>
      have hLast : last.isDigit = true := hDigits last (by simp)
      have hSmall := digitValue_lt hLast
      have hEarlier : ∀ char ∈ chars, char.isDigit = true :=
        fun char hChar => hDigits char (List.mem_append_left [last] hChar)
      rw [List.map_append, List.map_singleton, valueOf_concat]
      cases chars with
      | nil =>
          rw [digitsOf, Nat.toDigits_of_lt_base (by simpa [valueOf] using hSmall)]
          simpa [valueOf] using digitChar_digitValue hLast
      | cons first rest =>
          have hFirst : digitValue first ≠ 0 := by
            cases rest <;> simpa [isWhole] using hWhole
          have hBefore : isWhole ((first :: rest).map digitValue) = true := by
            cases rest with
            | nil => rfl
            | cons => simpa [isWhole] using hFirst
          have hPositive : digitValue first ≤ valueOf 0 ((first :: rest).map digitValue) := by
            simpa [valueOf] using le_valueOf (rest.map digitValue) (digitValue first)
          have hRest := ih hEarlier hBefore
          rw [digitsOf] at hRest ⊢
          rw [Nat.toDigits_of_base_le (by decide) (by omega), Nat.mul_add_mod_of_lt hSmall,
            Nat.mul_comm, Nat.mul_add_div (by decide), Nat.div_eq_of_lt hSmall, Nat.add_zero, hRest,
            digitChar_digitValue hLast]

theorem valueOf_of_gather {number value : Nat} {digits : List Nat}
    (hGathered : gather number digits = (value, [])) : valueOf number digits = value := by
  induction digits generalizing number with
  | nil => exact congrArg Prod.fst hGathered
  | cons digit rest ih =>
      rw [gather] at hGathered
      split at hGathered
      · exact ih hGathered
      · cases hGathered

theorem plain_of_number? {literal : NumberLiteral} {value : Nat}
    (hNumber : literal.number? = some (.int value)) :
    literal.negative = false ∧ literal.fraction = [] ∧ literal.exponent = none ∧
      valueOf 0 literal.whole = value := by
  have hReal (number : Number) : literal.real?.map Number.real = some number →
      number ≠ .int value := by
    rintro hSome rfl
    obtain ⟨real, _, hSame⟩ := Option.map_eq_some_iff.mp hSome
    cases hSame
  unfold NumberLiteral.number? at hNumber
  split at hNumber
  · next hPlain =>
      rw [Bool.and_eq_true, List.isEmpty_iff, Option.isNone_iff_eq_none] at hPlain
      split at hNumber
      · next gathered hGathered =>
          split_ifs at hNumber with hSign hSome
          · have hValue : (gathered : Int) = value := by simpa using hNumber
            refine ⟨by simpa using hSign, hPlain.1, hPlain.2, ?_⟩
            rw [valueOf_of_gather hGathered]
            exact Int.ofNat_inj.mp hValue
          · -- A number with a sign is less than zero.
            have hValue : -(gathered : Int) = value := by simpa using hNumber
            have hPositive : gathered ≠ 0 := by
              rw [Bool.and_eq_true, bne_iff_ne] at hSome
              exact hSome.1
            omega
          · exact absurd rfl (hReal _ hNumber)
      · exact absurd rfl (hReal _ hNumber)
  · exact absurd rfl (hReal _ hNumber)

theorem exponentOfWord?_eq_none {word : List Char} (hWord : exponentOfWord? word = some none) :
    word = [] := by
  cases word with
  | nil => rfl
  | cons mark rest =>
      unfold exponentOfWord? at hWord
      dsimp only at hWord
      split_ifs at hWord
      simp at hWord

theorem negative_of_ofWord? {rest : List Char} {literal : NumberLiteral}
    (hWord : NumberLiteral.ofWord? ('-' :: rest) = some literal) : literal.negative = true := by
  rcases hTaken : takeDigits rest with ⟨whole, others⟩
  simp only [NumberLiteral.ofWord?, hTaken] at hWord
  split_ifs at hWord
  · cases hWord
  · split at hWord
    · split_ifs at hWord
      · cases hWord
      · obtain ⟨exponent, _, hLiteral⟩ := Option.bind_eq_some_iff.mp hWord
        cases hLiteral
        rfl
    · obtain ⟨exponent, _, hLiteral⟩ := Option.bind_eq_some_iff.mp hWord
      cases hLiteral
      rfl

theorem takeDigits_of_ofWord? {word : List Char} {literal : NumberLiteral}
    (hWord : NumberLiteral.ofWord? word = some literal) (hSign : literal.negative = false)
    (hFraction : literal.fraction = []) (hExponent : literal.exponent = none) :
    takeDigits word = (literal.whole, []) ∧ isWhole literal.whole = true := by
  have hUnsigned : ∀ rest, word ≠ '-' :: rest := by
    rintro rest rfl
    rw [negative_of_ofWord? hWord] at hSign
    cases hSign
  rcases hTaken : takeDigits word with ⟨whole, others⟩
  simp only [NumberLiteral.ofWord?, hTaken] at hWord
  split_ifs at hWord with hWhole
  · cases hWord
  · have hProper : isWhole whole = true := by simpa using hWhole
    split at hWord
    · next others =>
        split_ifs at hWord with hDigits
        · cases hWord
        · obtain ⟨exponent, _, hLiteral⟩ := Option.bind_eq_some_iff.mp hWord
          obtain rfl := Option.some.inj hLiteral
          exact absurd (List.isEmpty_iff.mpr hFraction) hDigits
    · obtain ⟨exponent, hLast, hLiteral⟩ := Option.bind_eq_some_iff.mp hWord
      obtain rfl := Option.some.inj hLiteral
      obtain rfl : exponent = none := hExponent
      rw [exponentOfWord?_eq_none hLast]
      exact ⟨rfl, hProper⟩

theorem eq_digitsOf_of_ofWord? {word : List Char} {literal : NumberLiteral} {value : Nat}
    (hWord : NumberLiteral.ofWord? word = some literal)
    (hNumber : literal.number? = some (.int value)) : word = digitsOf value := by
  obtain ⟨hSign, hFraction, hExponent, hValue⟩ := plain_of_number? hNumber
  obtain ⟨hTaken, hWhole⟩ := takeDigits_of_ofWord? hWord hSign hFraction hExponent
  obtain ⟨hDigits, hRest⟩ := Prod.mk.inj hTaken
  -- Nothing is dropped after the digits, so that they are the whole word.
  have hAll := List.dropWhile_eq_nil_iff.mp hRest
  rw [List.takeWhile_eq_self_iff.mpr hAll] at hDigits
  rw [← hDigits] at hValue hWhole
  rw [← hValue, digitsOf_valueOf hAll hWhole]

end BuildWatch.Json
