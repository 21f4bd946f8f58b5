import BuildWatch.Json.Reader
import BuildWatch.Proofs.Json.Spelling

/-!
The document a value is written as.  Its text is read as that document, if the
value holds no binary numbers.
-/

namespace BuildWatch.Json

open BuildWatch.Text

def Number.literal : Number → NumberLiteral
  | .int value => wholeLiteral value
  | .real value => (NumberLiteral.ofWord? (renderReal value)).getD (wholeLiteral 0)

mutual

/-- The document a value is written as. -/
def Value.written : Value → Document
  | .null => .null
  | .bool value => .bool value
  | .number value => .number value.literal
  | .string value => .string (Literal.ofText value)
  | .array items => .array (Value.writtenItems items)
  | .object members => .object (Value.writtenMembers members)

def Value.writtenItems : List Value → List Document
  | [] => []
  | item :: rest => item.written :: Value.writtenItems rest

def Value.writtenMembers : List (String × Value) → List (Literal × Document)
  | [] => []
  | member :: rest => Value.writtenMember member :: Value.writtenMembers rest

def Value.writtenMember : String × Value → Literal × Document
  | (key, value) => (Literal.ofText key, value.written)

end

mutual

def Value.isWhole : Value → Bool
  | .number (.real _) => false
  | .array items => Value.areWhole items
  | .object members => Value.haveWhole members
  | _ => true

def Value.areWhole : List Value → Bool
  | [] => true
  | item :: rest => item.isWhole && Value.areWhole rest

def Value.haveWhole : List (String × Value) → Bool
  | [] => true
  | member :: rest => Value.hasWhole member && Value.haveWhole rest

def Value.hasWhole : String × Value → Bool
  | (_, value) => value.isWhole

end

theorem Value.writtenItems_eq_map (items : List Value) :
    Value.writtenItems items = items.map Value.written := by
  induction items with
  | nil => rfl
  | cons item rest ih => rw [Value.writtenItems, ih, List.map_cons]

theorem Value.areWhole_iff {items : List Value} :
    Value.areWhole items = true ↔ ∀ item ∈ items, item.isWhole = true := by
  induction items with
  | nil => simp [Value.areWhole]
  | cons item rest ih => simp [Value.areWhole, ih]

theorem Value.hasWhole_eq (member : String × Value) :
    Value.hasWhole member = member.2.isWhole := by
  obtain ⟨key, value⟩ := member
  rw [Value.hasWhole]

theorem Value.haveWhole_iff {members : List (String × Value)} :
    Value.haveWhole members = true ↔ ∀ member ∈ members, member.2.isWhole = true := by
  induction members with
  | nil => simp [Value.haveWhole]
  | cons member rest ih =>
      rw [Value.haveWhole, Bool.and_eq_true, Value.hasWhole_eq, ih, List.forall_mem_cons]

theorem Value.isWhole_string (text : String) : (Value.string text).isWhole = true := rfl

theorem Value.isWhole_map {α : Type} (write : α → Value)
    (hWrite : ∀ item, (write item).isWhole = true) (items : List α) :
    (Value.array (items.map write)).isWhole = true := by
  rw [Value.isWhole, Value.areWhole_iff]
  intro value hValue
  obtain ⟨item, _, rfl⟩ := List.mem_map.mp hValue
  exact hWrite item

theorem Value.isWhole_strings (texts : List String) :
    (Value.array (texts.map .string)).isWhole = true :=
  Value.isWhole_map .string Value.isWhole_string texts

/-! ### Cutting written values -/

theorem ofChars_append (chars others : List Char) :
    Source.ofChars (chars ++ others) = Source.ofChars chars ++ Source.ofChars others :=
  List.map_append

theorem ofChars_cons (char : Char) (chars : List Char) :
    Source.ofChars (char :: chars) = some char :: Source.ofChars chars := rfl

theorem ofChars_enclosed (left right : Char) (chars : List Char) (rest : Source) :
    Source.ofChars (left :: (chars ++ [right])) ++ rest =
      some left :: (Source.ofChars chars ++ some right :: rest) := by
  simp [Source.ofChars]

theorem tokensFrom?_renderString (text : String) (done : List Token) (rest : Source) :
    tokensFrom? done (Source.ofChars (renderString text) ++ rest) =
      tokensFrom? (.string (Literal.ofText text) :: done) rest := by
  have hBody := stringBody?_escapeChars text.toList [] rest
  rw [renderString, ofChars_enclosed]
  exact tokensFrom?_string hBody done

theorem tokensFrom?_renderNumber {value : Number} (hWhole : (Value.number value).isWhole = true)
    {rest : Source} (hRest : EndsWord rest) (done : List Token) :
    tokensFrom? done (Source.ofChars value.render ++ rest) =
      tokensFrom? (.number value.literal :: done) rest := by
  cases value with
  | int value =>
      have hWord : ∀ char ∈ renderInt value, isWordChar char = true :=
        fun _ => isWordChar_renderInt
      exact tokensFrom?_word (tokenOfWord?_renderInt value) hWord hRest done
  | real value => exact absurd hWhole Bool.false_ne_true

mutual

/-- The text of a value is cut into the tokens of the document it is written as. -/
theorem tokensFrom?_render {rest : Source} (hRest : EndsWord rest) (done : List Token) :
    ∀ value : Value, value.isWhole = true →
    tokensFrom? done (Source.ofChars value.render ++ rest) =
      tokensFrom? (value.written.tokens.reverse ++ done) rest
  | .null, _ => tokensFrom?_word rfl (List.all_eq_true.mp rfl) hRest done
  | .bool true, _ => tokensFrom?_word rfl (List.all_eq_true.mp rfl) hRest done
  | .bool false, _ => tokensFrom?_word rfl (List.all_eq_true.mp rfl) hRest done
  | .number value, hWhole => tokensFrom?_renderNumber hWhole hRest done
  | .string value, _ => tokensFrom?_renderString value done rest
  | .array items, hWhole => by
      rw [Value.render, ofChars_enclosed,
        tokensFrom?_punctuation (show punctuation? '[' = some .openArray from rfl),
        tokensFrom?_renderItems (endsWord_cons (by decide)) _ items hWhole,
        tokensFrom?_punctuation (show punctuation? ']' = some .closeArray from rfl)]
      simp [Value.written, Document.tokens]
  | .object members, hWhole => by
      rw [Value.render, ofChars_enclosed,
        tokensFrom?_punctuation (show punctuation? '{' = some .openObject from rfl),
        tokensFrom?_renderMembers (endsWord_cons (by decide)) _ members hWhole,
        tokensFrom?_punctuation (show punctuation? '}' = some .closeObject from rfl)]
      simp [Value.written, Document.tokens]
termination_by structural value => value

theorem tokensFrom?_renderItems {rest : Source} (hRest : EndsWord rest) (done : List Token) :
    ∀ items : List Value, Value.areWhole items = true →
    tokensFrom? done (Source.ofChars (Value.renderItems items) ++ rest) =
      tokensFrom? ((Document.itemsTokens (Value.writtenItems items)).reverse ++ done) rest
  | [], _ => rfl
  | [item], hWhole => by
      simp only [Value.areWhole, Bool.and_true] at hWhole
      exact tokensFrom?_render hRest done item hWhole
  | item :: other :: others, hWhole => by
      rw [Value.areWhole, Bool.and_eq_true] at hWhole
      have hOthers := tokensFrom?_renderItems hRest
        (.comma :: (item.written.tokens.reverse ++ done)) (other :: others) hWhole.2
      rw [show Value.renderItems (item :: other :: others) =
          item.render ++ ',' :: Value.renderItems (other :: others) from rfl,
        ofChars_append, ofChars_cons, List.append_assoc, List.cons_append,
        tokensFrom?_render (endsWord_cons (by decide)) done item hWhole.1,
        tokensFrom?_punctuation (show punctuation? ',' = some .comma from rfl), hOthers]
      simp [Value.writtenItems, Document.itemsTokens_cons]
termination_by structural items => items

theorem tokensFrom?_renderMembers {rest : Source} (hRest : EndsWord rest) (done : List Token) :
    ∀ members : List (String × Value), Value.haveWhole members = true →
    tokensFrom? done (Source.ofChars (Value.renderMembers members) ++ rest) =
      tokensFrom? ((Document.membersTokens (Value.writtenMembers members)).reverse ++ done) rest
  | [], _ => rfl
  | [member], hWhole => by
      simp only [Value.haveWhole, Bool.and_true] at hWhole
      exact tokensFrom?_renderMember hRest done member hWhole
  | member :: other :: others, hWhole => by
      rw [Value.haveWhole, Bool.and_eq_true] at hWhole
      have hOthers := tokensFrom?_renderMembers hRest
        (.comma :: ((Document.memberTokens (Value.writtenMember member)).reverse ++ done))
        (other :: others) hWhole.2
      rw [show Value.renderMembers (member :: other :: others) =
          Value.renderMember member ++ ',' :: Value.renderMembers (other :: others) from rfl,
        ofChars_append, ofChars_cons, List.append_assoc, List.cons_append,
        tokensFrom?_renderMember (endsWord_cons (by decide)) done member hWhole.1,
        tokensFrom?_punctuation (show punctuation? ',' = some .comma from rfl), hOthers]
      simp [Value.writtenMembers, Document.membersTokens_cons]
termination_by structural members => members

theorem tokensFrom?_renderMember {rest : Source} (hRest : EndsWord rest) (done : List Token) :
    ∀ member : String × Value, Value.hasWhole member = true →
    tokensFrom? done (Source.ofChars (Value.renderMember member) ++ rest) =
      tokensFrom? ((Document.memberTokens (Value.writtenMember member)).reverse ++ done) rest
  | (key, value), hWhole => by
      rw [Value.renderMember, ofChars_append, ofChars_cons, List.append_assoc, List.cons_append,
        tokensFrom?_renderString,
        tokensFrom?_punctuation (show punctuation? ':' = some .colon from rfl),
        tokensFrom?_render hRest _ value hWhole]
      simp [Value.writtenMember, Document.memberTokens]
termination_by structural member => member

end

/-! ### Reading written values -/

theorem tokens?_render {value : Value} (hWhole : value.isWhole = true) :
    tokens? (Source.ofChars value.render) = some value.written.tokens := by
  have hTokens := tokensFrom?_render endsWord_nil [] value hWhole
  rw [List.append_nil, List.append_nil] at hTokens
  rw [tokens?, hTokens, tokensFrom?, List.reverse_reverse]

/-- The text of a value is read as the document it is written as. -/
theorem Document.ofText?_text {value : Value} (hWhole : value.isWhole = true) :
    Document.ofText? value.text = some value.written := by
  rw [Document.ofText?, Value.text, String.toList_ofList]
  exact Document.ofSource?_of_tokens (tokens?_render hWhole)

theorem string?_written (text : String) : (Value.string text).written.string? = some text :=
  text?_ofText text

theorem bool?_written (value : Bool) : (Value.bool value).written.bool? = some value := rfl

theorem naturalBelow?_written {bound value : Nat} (hBound : bound ≤ Nat.pow 2 64)
    (hValue : value < bound) :
    (Value.number (.int value)).written.naturalBelow? bound = some value := by
  have hNumber : (wholeLiteral value).number? = some (.int value) := by
    apply number?_wholeLiteral
    · intro hNegative
      omega
    · intro _
      exact Nat.lt_of_lt_of_le hValue hBound
  simp [Value.written, Number.literal, Document.naturalBelow?, hNumber, hValue]

theorem uint64?_written (value : UInt64) :
    (Value.number (.int value.toNat)).written.uint64? = some value := by
  have hValue : value.toNat < Nat.pow 2 64 := UInt64.toNat_lt value
  rw [Document.uint64?, naturalBelow?_written (Nat.le_refl _) hValue, Option.map_some,
    UInt64.ofNat_toNat]

theorem keyedMembers?_written (members : List (String × Value)) :
    keyedMembers? (Value.writtenMembers members) =
      some (members.map fun member => (member.1, member.2.written)) := by
  induction members with
  | nil => rfl
  | cons member rest ih =>
      obtain ⟨key, value⟩ := member
      rw [keyedMembers?] at ih ⊢
      simp [Value.writtenMembers, Value.writtenMember, text?_ofText, ih]

theorem fields?_written (fields : List Field) (members : List (String × Value)) :
    (Value.object members).written.fields? fields =
      fields.mapM fun field =>
        field.pick? (members.map fun member => (member.1, member.2.written)) := by
  have hMembers := keyedMembers?_written members
  simp [Value.written, Document.fields?, hMembers]

theorem orElse_some {α : Type} (default : α) (read : Document → Option α) (document : Document) :
    orElse default read (some document) = read document := rfl

theorem list?_written {α : Type} (read : Document → Option α) (write : α → Value)
    (hRead : ∀ item, read (write item).written = some item) (items : List α) :
    (Value.array (items.map write)).written.list? read = some items := by
  rw [Value.written, Value.writtenItems_eq_map, Document.list?, List.map_map]
  induction items with
  | nil => rfl
  | cons item rest ih =>
      rw [List.map_cons, List.mapM_cons, Function.comp_apply, hRead, ih]
      rfl

/-! ### Sorted values -/

theorem mem_insertMember {key : String} {value : Value} {members : List (String × Value)}
    {member : String × Value} (hMember : member ∈ insertMember key value members) :
    member = (key, value) ∨ member ∈ members := by
  induction members with
  | nil => exact Or.inl (List.mem_singleton.mp hMember)
  | cons first rest ih =>
      rw [insertMember] at hMember
      split at hMember
      · exact List.mem_cons.mp hMember
      · split at hMember
        · exact (List.mem_cons.mp hMember).imp_right (List.mem_cons_of_mem first)
        · rcases List.mem_cons.mp hMember with rfl | hRest
          · exact Or.inr List.mem_cons_self
          · exact (ih hRest).imp_right (List.mem_cons_of_mem first)

theorem mem_foldl_insertMember {members start : List (String × Value)} {member : String × Value}
    (hMember : member ∈
      members.foldl (fun map member => insertMember member.1 member.2 map) start) :
    member ∈ start ∨ member ∈ members := by
  induction members generalizing start with
  | nil => exact Or.inl hMember
  | cons first rest ih =>
      rw [List.mem_cons]
      rcases ih hMember with hStart | hRest
      · rcases mem_insertMember hStart with hFirst | hBefore
        · exact Or.inr (Or.inl hFirst)
        · exact Or.inl hBefore
      · exact Or.inr (Or.inr hRest)

theorem mem_mapOfMembers {members : List (String × Value)} {member : String × Value}
    (hMember : member ∈ mapOfMembers members) : member ∈ members :=
  (mem_foldl_insertMember hMember).resolve_left List.not_mem_nil

mutual

theorem Value.isWhole_sorted : ∀ value : Value, value.isWhole = true → value.sorted.isWhole = true
  | .null, _ => rfl
  | .bool _, _ => rfl
  | .number _, hWhole => hWhole
  | .string _, _ => rfl
  | .array items, hWhole => Value.areWhole_sortedItems items hWhole
  | .object members, hWhole => by
      rw [Value.isWhole] at hWhole
      have hMembers := Value.haveWhole_iff.mp (Value.haveWhole_sortedMembers members hWhole)
      rw [Value.sorted, Value.isWhole, Value.haveWhole_iff]
      intro member hMember
      exact hMembers member (mem_mapOfMembers hMember)
termination_by structural value => value

theorem Value.areWhole_sortedItems :
    ∀ items : List Value, Value.areWhole items = true →
      Value.areWhole (Value.sortedItems items) = true
  | [], _ => rfl
  | item :: rest, hWhole => by
      rw [Value.areWhole, Bool.and_eq_true] at hWhole
      rw [Value.sortedItems, Value.areWhole, Value.isWhole_sorted item hWhole.1,
        Value.areWhole_sortedItems rest hWhole.2, Bool.and_self]
termination_by structural items => items

theorem Value.haveWhole_sortedMembers :
    ∀ members : List (String × Value), Value.haveWhole members = true →
      Value.haveWhole (Value.sortedMembers members) = true
  | [], _ => rfl
  | member :: rest, hWhole => by
      rw [Value.haveWhole, Bool.and_eq_true] at hWhole
      rw [Value.sortedMembers, Value.haveWhole, Value.hasWhole_sortedMember member hWhole.1,
        Value.haveWhole_sortedMembers rest hWhole.2, Bool.and_self]
termination_by structural members => members

theorem Value.hasWhole_sortedMember :
    ∀ member : String × Value, Value.hasWhole member = true →
      Value.hasWhole (Value.sortedMember member) = true
  | (_, value), hWhole => Value.isWhole_sorted value hWhole
termination_by structural member => member

end

end BuildWatch.Json
