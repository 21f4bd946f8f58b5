import BuildWatch.Proofs.Json.Written

/-!
Blanks between tokens do not matter: the indented text of a value is read as the same document as
its compact text.
-/

namespace BuildWatch.Json

open BuildWatch.Text

theorem tokensFrom?_blanks {blanks : List Char} (hBlanks : ∀ char ∈ blanks, isSpace char = true)
    (done : List Token) (rest : Source) :
    tokensFrom? done (Source.ofChars blanks ++ rest) = tokensFrom? done rest := by
  induction blanks with
  | nil => rfl
  | cons char others ih =>
      have hOthers : ∀ other ∈ others, isSpace other = true :=
        fun other hOther => hBlanks other (List.mem_cons_of_mem char hOther)
      rw [ofChars_cons, List.cons_append, tokensFrom?, hBlanks char List.mem_cons_self,
        if_pos rfl, ih hOthers]

theorem tokensFrom?_newLine (level : Nat) (done : List Token) (rest : Source) :
    tokensFrom? done (Source.ofChars (newLine level) ++ rest) = tokensFrom? done rest := by
  apply tokensFrom?_blanks
  intro char hChar
  rcases List.mem_cons.mp hChar with rfl | hBlank
  · decide
  · rw [List.eq_of_mem_replicate hBlank]
    decide

theorem endsWord_newLine (level : Nat) (rest : Source) :
    EndsWord (Source.ofChars (newLine level) ++ rest) :=
  endsWord_cons (by decide)

theorem ofChars_block (left right : Char) (level : Nat) (chars : List Char) (rest : Source) :
    Source.ofChars (left :: (chars ++ newLine level ++ [right])) ++ rest =
      some left :: (Source.ofChars chars ++
        (Source.ofChars (newLine level) ++ some right :: rest)) := by
  simp [Source.ofChars]

mutual

/-- The indented text of a value is cut into the tokens of the document it is written as. -/
theorem tokensFrom?_indented {rest : Source} (hRest : EndsWord rest) (done : List Token) :
    ∀ (value : Value) (level : Nat), value.isWhole = true →
    tokensFrom? done (Source.ofChars (value.indented level) ++ rest) =
      tokensFrom? (value.written.tokens.reverse ++ done) rest
  | .null, _, hWhole => tokensFrom?_render hRest done .null hWhole
  | .bool value, _, hWhole => tokensFrom?_render hRest done (.bool value) hWhole
  | .number value, _, hWhole => tokensFrom?_renderNumber hWhole hRest done
  | .string value, _, _ => tokensFrom?_renderString value done rest
  | .array [], _, hWhole => tokensFrom?_render hRest done (.array []) hWhole
  | .object [], _, hWhole => tokensFrom?_render hRest done (.object []) hWhole
  | .array (item :: others), level, hWhole => by
      rw [show Value.indented level (.array (item :: others)) =
          '[' :: (Value.indentedItems (level + 1) (item :: others) ++ newLine level ++ [']'])
          from rfl, ofChars_block,
        tokensFrom?_punctuation (show punctuation? '[' = some .openArray from rfl),
        tokensFrom?_indentedItems (endsWord_newLine level _) _ (item :: others) (level + 1) hWhole,
        tokensFrom?_newLine,
        tokensFrom?_punctuation (show punctuation? ']' = some .closeArray from rfl)]
      simp [Value.written, Document.tokens]
  | .object (member :: others), level, hWhole => by
      rw [show Value.indented level (.object (member :: others)) =
          '{' :: (Value.indentedMembers (level + 1) (member :: others) ++ newLine level ++ ['}'])
          from rfl, ofChars_block,
        tokensFrom?_punctuation (show punctuation? '{' = some .openObject from rfl),
        tokensFrom?_indentedMembers (endsWord_newLine level _) _ (member :: others) (level + 1)
          hWhole,
        tokensFrom?_newLine,
        tokensFrom?_punctuation (show punctuation? '}' = some .closeObject from rfl)]
      simp [Value.written, Document.tokens]
termination_by structural value => value

theorem tokensFrom?_indentedItems {rest : Source} (hRest : EndsWord rest) (done : List Token) :
    ∀ (items : List Value) (level : Nat), Value.areWhole items = true →
    tokensFrom? done (Source.ofChars (Value.indentedItems level items) ++ rest) =
      tokensFrom? ((Document.itemsTokens (Value.writtenItems items)).reverse ++ done) rest
  | [], _, _ => rfl
  | [item], level, hWhole => by
      simp only [Value.areWhole, Bool.and_true] at hWhole
      rw [Value.indentedItems, ofChars_append, List.append_assoc, tokensFrom?_newLine]
      exact tokensFrom?_indented hRest done item level hWhole
  | item :: other :: others, level, hWhole => by
      rw [Value.areWhole, Bool.and_eq_true] at hWhole
      have hOthers := tokensFrom?_indentedItems hRest
        (.comma :: (item.written.tokens.reverse ++ done)) (other :: others) level hWhole.2
      rw [show Value.indentedItems level (item :: other :: others) =
          newLine level ++ item.indented level ++
            ',' :: Value.indentedItems level (other :: others) from rfl,
        ofChars_append, ofChars_append, ofChars_cons, List.append_assoc, List.append_assoc,
        tokensFrom?_newLine, List.cons_append,
        tokensFrom?_indented (endsWord_cons (by decide)) done item level hWhole.1,
        tokensFrom?_punctuation (show punctuation? ',' = some .comma from rfl), hOthers]
      simp [Value.writtenItems, Document.itemsTokens_cons]
termination_by structural items => items

theorem tokensFrom?_indentedMembers {rest : Source} (hRest : EndsWord rest)
    (done : List Token) :
    ∀ (members : List (String × Value)) (level : Nat), Value.haveWhole members = true →
    tokensFrom? done (Source.ofChars (Value.indentedMembers level members) ++ rest) =
      tokensFrom? ((Document.membersTokens (Value.writtenMembers members)).reverse ++ done) rest
  | [], _, _ => rfl
  | [member], level, hWhole => by
      simp only [Value.haveWhole, Bool.and_true] at hWhole
      rw [Value.indentedMembers, ofChars_append, List.append_assoc, tokensFrom?_newLine]
      exact tokensFrom?_indentedMember hRest done member level hWhole
  | member :: other :: others, level, hWhole => by
      rw [Value.haveWhole, Bool.and_eq_true] at hWhole
      have hOthers := tokensFrom?_indentedMembers hRest
        (.comma :: ((Document.memberTokens (Value.writtenMember member)).reverse ++ done))
        (other :: others) level hWhole.2
      rw [show Value.indentedMembers level (member :: other :: others) =
          newLine level ++ Value.indentedMember level member ++
            ',' :: Value.indentedMembers level (other :: others) from rfl,
        ofChars_append, ofChars_append, ofChars_cons, List.append_assoc, List.append_assoc,
        tokensFrom?_newLine, List.cons_append,
        tokensFrom?_indentedMember (endsWord_cons (by decide)) done member level hWhole.1,
        tokensFrom?_punctuation (show punctuation? ',' = some .comma from rfl), hOthers]
      simp [Value.writtenMembers, Document.membersTokens_cons]
termination_by structural members => members

theorem tokensFrom?_indentedMember {rest : Source} (hRest : EndsWord rest)
    (done : List Token) :
    ∀ (member : String × Value) (level : Nat), Value.hasWhole member = true →
    tokensFrom? done (Source.ofChars (Value.indentedMember level member) ++ rest) =
      tokensFrom? ((Document.memberTokens (Value.writtenMember member)).reverse ++ done) rest
  | (key, value), level, hWhole => by
      rw [Value.indentedMember, ofChars_append, ofChars_cons, ofChars_cons, List.append_assoc,
        List.cons_append, List.cons_append, tokensFrom?_renderString,
        tokensFrom?_punctuation (show punctuation? ':' = some .colon from rfl),
        show some ' ' :: (Source.ofChars (value.indented level) ++ rest) =
          Source.ofChars [' '] ++ (Source.ofChars (value.indented level) ++ rest) from rfl,
        tokensFrom?_blanks (List.all_eq_true.mp rfl), tokensFrom?_indented hRest _ value level hWhole]
      simp [Value.writtenMember, Document.memberTokens]
termination_by structural member => member

end

/-- The indented text of a value is read as the document it is written as. -/
theorem Document.ofText?_indentedText {value : Value} (hWhole : value.isWhole = true) :
    Document.ofText? value.indentedText = some value.written := by
  have hTokens := tokensFrom?_indented endsWord_nil [] value 0 hWhole
  rw [List.append_nil, List.append_nil] at hTokens
  rw [Document.ofText?, Value.indentedText, String.toList_ofList]
  apply Document.ofSource?_of_tokens
  rw [tokens?, hTokens, tokensFrom?, List.reverse_reverse]

end BuildWatch.Json
