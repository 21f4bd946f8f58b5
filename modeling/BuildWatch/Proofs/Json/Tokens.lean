import Mathlib.Tactic.Basic
import BuildWatch.Json.Parser

/-!
The tokens of a document.  The machine reads them back as the document, and each
kind of token is cut off the text that spells it.
-/

namespace BuildWatch.Json

open BuildWatch.Text

/-! ### Tokens of documents -/

mutual

def Document.tokens : Document → List Token
  | .null => [.null]
  | .bool value => [.bool value]
  | .number literal => [.number literal]
  | .string literal => [.string literal]
  | .array items => .openArray :: (Document.itemsTokens items ++ [.closeArray])
  | .object members => .openObject :: (Document.membersTokens members ++ [.closeObject])

def Document.itemsTokens : List Document → List Token
  | [] => []
  | [item] => item.tokens
  | item :: rest => item.tokens ++ .comma :: Document.itemsTokens rest

def Document.membersTokens : List (Literal × Document) → List Token
  | [] => []
  | [member] => Document.memberTokens member
  | member :: rest => Document.memberTokens member ++ .comma :: Document.membersTokens rest

def Document.memberTokens : Literal × Document → List Token
  | (key, document) => .string key :: .colon :: document.tokens

end

theorem Document.itemsTokens_cons (item other : Document) (others : List Document) :
    Document.itemsTokens (item :: other :: others) =
      item.tokens ++ .comma :: Document.itemsTokens (other :: others) := rfl

theorem Document.membersTokens_cons (member other : Literal × Document)
    (others : List (Literal × Document)) :
    Document.membersTokens (member :: other :: others) =
      Document.memberTokens member ++ .comma :: Document.membersTokens (other :: others) := rfl

/-! ### The machine -/

theorem State.feed?_cons {state next : State} {token : Token} {rest : List Token}
    (hNext : state.next? token = some next) : state.feed? (token :: rest) = next.feed? rest := by
  rw [State.feed?, hNext]

/-- An array that was just opened reads its first item like any other. -/
theorem State.feed?_expectItem (frames : List Frame) (item : Document) (rest : List Token) :
    State.feed? (.expectItem frames) (item.tokens ++ rest) =
      State.feed? (.expectValue (.array [] :: frames)) (item.tokens ++ rest) := by
  cases item with
  | null => rfl
  | bool => rfl
  | number => rfl
  | string => rfl
  | array => rfl
  | object => rfl

theorem State.feed?_expectItems (frames : List Frame) (item : Document) (others : List Document)
    (rest : List Token) :
    State.feed? (.expectItem frames) (Document.itemsTokens (item :: others) ++ rest) =
      State.feed? (.expectValue (.array [] :: frames))
        (Document.itemsTokens (item :: others) ++ rest) := by
  cases others with
  | nil => exact State.feed?_expectItem frames item rest
  | cons other others =>
      rw [Document.itemsTokens_cons, List.append_assoc]
      exact State.feed?_expectItem frames item _

mutual

/-- The machine reads the tokens of a document as the document. -/
theorem State.feed?_tokens (frames : List Frame) (rest : List Token) :
    ∀ document : Document, State.feed? (.expectValue frames) (document.tokens ++ rest) =
      State.feed? (.complete frames document) rest
  | .null => rfl
  | .bool _ => rfl
  | .number _ => rfl
  | .string _ => rfl
  | .array [] => rfl
  | .array (item :: others) => by
      rw [Document.tokens, List.cons_append, List.append_assoc,
        State.feed?_cons (show _ = some (.expectItem frames) from rfl), State.feed?_expectItems]
      exact State.feed?_itemsTokens frames rest [] (item :: others) (List.cons_ne_nil _ _)
  | .object [] => rfl
  | .object (member :: others) => by
      rw [Document.tokens, List.cons_append, List.append_assoc,
        State.feed?_cons (show _ = some (.expectKey frames [] true) from rfl)]
      exact State.feed?_membersTokens frames rest [] true (member :: others)
        (List.cons_ne_nil _ _)
termination_by structural document => document

theorem State.feed?_itemsTokens (frames : List Frame) (rest : List Token)
    (before : List Document) : ∀ items : List Document, items ≠ [] →
    State.feed? (.expectValue (.array before :: frames))
        (Document.itemsTokens items ++ ([.closeArray] ++ rest)) =
      State.feed? (.complete frames (.array (before.reverse ++ items))) rest
  | [], hSome => absurd rfl hSome
  | [item], _ => by
      rw [Document.itemsTokens, State.feed?_tokens (.array before :: frames) _ item,
        List.singleton_append, State.feed?_cons rfl, List.reverse_cons]
  | item :: other :: others, _ => by
      have hOthers := State.feed?_itemsTokens frames rest (item :: before) (other :: others)
        (List.cons_ne_nil _ _)
      rw [Document.itemsTokens_cons, List.append_assoc,
        State.feed?_tokens (.array before :: frames) _ item, List.cons_append,
        State.feed?_cons rfl, hOthers, List.reverse_cons, List.append_assoc, List.singleton_append]
termination_by structural items => items

theorem State.feed?_memberTokens (frames : List Frame) (rest : List Token)
    (before : List (Literal × Document)) (opened : Bool) : ∀ member : Literal × Document,
    State.feed? (.expectKey frames before opened) (Document.memberTokens member ++ rest) =
      State.feed? (.complete (.object before member.1 :: frames) member.2) rest
  | (key, document) => by
      rw [Document.memberTokens, List.cons_append, List.cons_append, State.feed?_cons rfl,
        State.feed?_cons rfl, State.feed?_tokens (.object before key :: frames) _ document]
termination_by structural member => member

theorem State.feed?_membersTokens (frames : List Frame) (rest : List Token)
    (before : List (Literal × Document)) (opened : Bool) :
    ∀ members : List (Literal × Document), members ≠ [] →
    State.feed? (.expectKey frames before opened)
        (Document.membersTokens members ++ ([.closeObject] ++ rest)) =
      State.feed? (.complete frames (.object (before.reverse ++ members))) rest
  | [], hSome => absurd rfl hSome
  | [member], _ => by
      rw [Document.membersTokens, State.feed?_memberTokens frames _ before opened member,
        List.singleton_append, State.feed?_cons rfl, List.reverse_cons]
  | member :: other :: others, _ => by
      have hOthers := State.feed?_membersTokens frames rest (member :: before) false
        (other :: others) (List.cons_ne_nil _ _)
      rw [Document.membersTokens_cons, List.append_assoc,
        State.feed?_memberTokens frames _ before opened member, List.cons_append,
        State.feed?_cons rfl, hOthers, List.reverse_cons, List.append_assoc,
        List.singleton_append]
termination_by structural members => members

end

/-! ### Tokens of texts -/

/-- Nothing that follows a word may continue it. -/
def EndsWord (source : Source) : Prop :=
  ∀ char rest, source = some char :: rest → isWordChar char = false

theorem endsWord_nil : EndsWord [] := by
  intro char rest hSource
  exact absurd hSource (List.cons_ne_nil _ _).symm

theorem endsWord_cons {char : Char} {rest : Source} (hChar : isWordChar char = false) :
    EndsWord (some char :: rest) := by
  intro other tail hSource
  injection hSource with hHead hTail
  injection hHead with hSame
  rw [← hSame, hChar]

theorem takeWord_append {word : List Char} (done : List Char) {rest : Source}
    (hWord : ∀ char ∈ word, isWordChar char = true) (hRest : EndsWord rest) :
    takeWord done (Source.ofChars word ++ rest) = (done.reverse ++ word, rest) := by
  induction word generalizing done with
  | nil =>
      rw [Source.ofChars, List.map_nil, List.nil_append, List.append_nil]
      unfold takeWord
      split
      · next char tail =>
          rw [hRest char tail rfl, if_neg Bool.false_ne_true]
      · rfl
  | cons char word ih =>
      have hOthers : ∀ other ∈ word, isWordChar other = true := by
        intro other hOther
        exact hWord other (List.mem_cons_of_mem char hOther)
      have hTaken := ih (char :: done) hOthers
      rw [List.reverse_cons, List.append_assoc, List.singleton_append] at hTaken
      rw [← hTaken]
      exact if_pos (hWord char List.mem_cons_self)

theorem punctuation?_of_wordChar {char : Char} (hChar : isWordChar char = true) :
    isSpace char = false ∧ char ≠ '"' ∧ punctuation? char = none := by
  have hOther : ∀ other, isWordChar other = false → char ≠ other := by
    intro other hOther hSame
    rw [hSame, hOther] at hChar
    exact Bool.false_ne_true hChar
  refine ⟨?_, hOther '"' (by decide), ?_⟩
  · simp [isSpace, hOther ' ' (by decide), hOther '\n' (by decide), hOther '\t' (by decide),
      hOther '\r' (by decide)]
  · unfold punctuation?
    split
    · exact absurd rfl (hOther '[' (by decide))
    · exact absurd rfl (hOther ']' (by decide))
    · exact absurd rfl (hOther '{' (by decide))
    · exact absurd rfl (hOther '}' (by decide))
    · exact absurd rfl (hOther ',' (by decide))
    · exact absurd rfl (hOther ':' (by decide))
    · rfl

theorem tokensFrom?_punctuation {char : Char} {token : Token}
    (hToken : punctuation? char = some token) (done : List Token) (rest : Source) :
    tokensFrom? done (some char :: rest) = tokensFrom? (token :: done) rest := by
  have hPlain : isSpace char = false ∧ char ≠ '"' := by
    revert hToken
    unfold punctuation?
    split <;> simp [isSpace]
  rw [tokensFrom?, hPlain.1, if_neg Bool.false_ne_true, if_neg hPlain.2, hToken]

theorem tokensFrom?_string {literal : Literal} {rest rest' : Source}
    (hBody : stringBody? [] rest = some (literal, rest')) (done : List Token) :
    tokensFrom? done (some '"' :: rest) = tokensFrom? (.string literal :: done) rest' := by
  rw [tokensFrom?, if_neg (by decide), if_pos rfl]
  split
  · next hBody' =>
      rw [hBody] at hBody'
      injection hBody' with hPair
      injection hPair with hLiteral hRest
      rw [hLiteral, hRest]
  · next hBody' =>
      rw [hBody] at hBody'
      exact absurd hBody' (Option.some_ne_none _)

theorem tokensFrom?_word {word : List Char} {token : Token} {rest : Source}
    (hToken : Token.ofWord? word = some token) (hWord : ∀ char ∈ word, isWordChar char = true)
    (hRest : EndsWord rest) (done : List Token) :
    tokensFrom? done (Source.ofChars word ++ rest) = tokensFrom? (token :: done) rest := by
  cases word with
  | nil => exact absurd hToken (by decide +revert)
  | cons char word =>
      have hChar : isWordChar char = true := hWord char List.mem_cons_self
      have hOthers : ∀ other ∈ word, isWordChar other = true := by
        intro other hOther
        exact hWord other (List.mem_cons_of_mem char hOther)
      obtain ⟨hSpace, hQuote, hPunctuation⟩ := punctuation?_of_wordChar hChar
      have hTaken := takeWord_append [char] hOthers hRest
      rw [Source.ofChars] at hTaken
      rw [Source.ofChars, List.map_cons, List.cons_append, tokensFrom?, hSpace,
        if_neg Bool.false_ne_true, if_neg hQuote, hPunctuation]
      simp only [hChar, hTaken, if_true, List.reverse_singleton, List.singleton_append, hToken]

/-! ### Texts -/

theorem Document.ofSource?_of_tokens {source : Source} {document : Document}
    (hTokens : tokens? source = some document.tokens) :
    Document.ofSource? source = some document := by
  have hFed := State.feed?_tokens [] [] document
  rw [List.append_nil] at hFed
  rw [Document.ofSource?, hTokens, Option.bind_eq_bind, Option.bind_some, hFed]
  rfl

end BuildWatch.Json
