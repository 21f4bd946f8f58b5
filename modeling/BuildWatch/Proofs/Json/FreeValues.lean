import BuildWatch.Proofs.Json.Maps

/-!
Values as they are read.  Every object in them is a map, and an integer in them has at most 64
bits; such values are read back from their texts, if they hold no binary numbers.
-/

namespace BuildWatch.Json

/-! ### Integers -/

/-- The integers of 64 bits, with or without a sign. -/
def Number.Fits : Number → Prop
  | .int value =>
      (value < 0 → value.natAbs ≤ Nat.pow 2 63) ∧ (0 ≤ value → value.natAbs < Nat.pow 2 64)
  | .real _ => True

theorem gather_lt {number : Nat} (hFits : number < gatherLimit) (digits : List Nat) :
    (gather number digits).1 < gatherLimit := by
  induction digits generalizing number with
  | nil => exact hFits
  | cons digit rest ih =>
      rw [gather]
      split
      · rename_i hNext
        exact ih hNext
      · exact hFits

theorem fits_natural {value : Nat} (hFits : value < Nat.pow 2 64) : (Number.int value).Fits := by
  constructor
  · intro hNegative
    omega
  · intro _
    exact hFits

theorem fits_negated {value : Nat} (hSome : value ≠ 0) (hFits : value ≤ Nat.pow 2 63) :
    (Number.int (-(value : Int))).Fits := by
  constructor
  · intro _
    rw [Int.natAbs_neg, Int.natAbs_natCast]
    exact hFits
  · intro hPositive
    omega

theorem fits_of_real {literal : NumberLiteral} {number : Number}
    (hNumber : literal.real?.map .real = some number) : number.Fits := by
  obtain ⟨value, _, rfl⟩ := Option.map_eq_some_iff.mp hNumber
  exact trivial

theorem fits_of_number? {literal : NumberLiteral} {number : Number}
    (hNumber : literal.number? = some number) : number.Fits := by
  have hGathered : (gather 0 literal.whole).1 < Nat.pow 2 64 := gather_lt (by decide) literal.whole
  rw [NumberLiteral.number?] at hNumber
  split at hNumber
  · split at hNumber
    · rename_i value hValue
      rw [hValue] at hGathered
      split at hNumber
      · cases hNumber
        exact fits_natural hGathered
      · split at hNumber
        · rename_i hNegative
          rw [Bool.and_eq_true, bne_iff_ne, decide_eq_true_eq] at hNegative
          cases hNumber
          exact fits_negated hNegative.1 hNegative.2
        · exact fits_of_real hNumber
    · exact fits_of_real hNumber
  · exact fits_of_real hNumber

/-! ### Tidy values -/

mutual

/-- Every object is a map, and every integer fits. -/
def Value.IsTidy : Value → Prop
  | .number value => value.Fits
  | .array items => Value.AreTidy items
  | .object members => IsMap members ∧ Value.HaveTidy members
  | _ => True

def Value.AreTidy : List Value → Prop
  | [] => True
  | item :: rest => item.IsTidy ∧ Value.AreTidy rest

def Value.HaveTidy : List (String × Value) → Prop
  | [] => True
  | member :: rest => Value.HasTidy member ∧ Value.HaveTidy rest

def Value.HasTidy : String × Value → Prop
  | (_, value) => value.IsTidy

end

theorem Value.haveTidy_iff {members : List (String × Value)} :
    Value.HaveTidy members ↔ ∀ member ∈ members, member.2.IsTidy := by
  induction members with
  | nil => simp [Value.HaveTidy]
  | cons member rest ih =>
      obtain ⟨key, value⟩ := member
      rw [Value.HaveTidy, Value.HasTidy, ih, List.forall_mem_cons]

theorem Document.membersDepth_le_iff {members : List (Literal × Document)} {room : Nat} :
    Document.membersDepth members ≤ room ↔ ∀ member ∈ members, member.2.depth ≤ room := by
  induction members with
  | nil => simp [Document.membersDepth]
  | cons member rest ih =>
      obtain ⟨key, document⟩ := member
      rw [Document.membersDepth, Nat.max_le, Document.memberDepth, ih, List.forall_mem_cons]

theorem Value.writtenMembers_eq_map (members : List (String × Value)) :
    Value.writtenMembers members =
      members.map fun member => (Literal.ofText member.1, member.2.written) := by
  induction members with
  | nil => rfl
  | cons member rest ih =>
      obtain ⟨key, value⟩ := member
      rw [Value.writtenMembers, Value.writtenMember, ih, List.map_cons]

theorem Value.membersDepth_written_le_iff {members : List (String × Value)} {room : Nat} :
    Document.membersDepth (Value.writtenMembers members) ≤ room ↔
      ∀ member ∈ members, member.2.written.depth ≤ room := by
  rw [Document.membersDepth_le_iff, Value.writtenMembers_eq_map, List.forall_mem_map]

/-! ### What is read is tidy -/

mutual

/-- A value that is read is tidy, and is written no deeper than the document it was read from. -/
theorem Value.tidy_of_document : ∀ (document : Document) (value : Value),
    Value.ofDocument? document = some value →
      value.IsTidy ∧ value.written.depth ≤ document.depth
  | .null, value, hRead => by
      cases hRead
      exact ⟨trivial, Nat.le_refl _⟩
  | .bool _, value, hRead => by
      cases hRead
      exact ⟨trivial, Nat.le_refl _⟩
  | .number literal, value, hRead => by
      obtain ⟨number, hNumber, rfl⟩ := Option.map_eq_some_iff.mp hRead
      exact ⟨fits_of_number? hNumber, Nat.le_refl _⟩
  | .string literal, value, hRead => by
      obtain ⟨text, _, rfl⟩ := Option.map_eq_some_iff.mp hRead
      exact ⟨trivial, Nat.le_refl _⟩
  | .array items, value, hRead => by
      obtain ⟨values, hValues, rfl⟩ := Option.map_eq_some_iff.mp hRead
      obtain ⟨hTidy, hDepth⟩ := Value.tidy_of_items items values hValues
      exact ⟨hTidy, Nat.succ_le_succ hDepth⟩
  | .object members, value, hRead => by
      obtain ⟨values, hValues, rfl⟩ := Option.map_eq_some_iff.mp hRead
      obtain ⟨hTidy, hDepth⟩ := Value.tidy_of_members members values hValues
      rw [Value.haveTidy_iff] at hTidy
      rw [Value.membersDepth_written_le_iff] at hDepth
      refine ⟨⟨isMap_mapOfMembers values, Value.haveTidy_iff.mpr ?_⟩, Nat.succ_le_succ ?_⟩
      · intro member hMember
        exact hTidy member (mem_mapOfMembers hMember)
      · rw [Value.membersDepth_written_le_iff]
        intro member hMember
        exact hDepth member (mem_mapOfMembers hMember)
termination_by structural document => document

theorem Value.tidy_of_items : ∀ (items : List Document) (values : List Value),
    Value.ofItems? items = some values →
      Value.AreTidy values ∧
        Document.itemsDepth (Value.writtenItems values) ≤ Document.itemsDepth items
  | [], values, hRead => by
      cases hRead
      exact ⟨trivial, Nat.le_refl _⟩
  | item :: rest, values, hRead => by
      obtain ⟨value, hValue, hRead⟩ := Option.bind_eq_some_iff.mp hRead
      obtain ⟨others, hOthers, hRead⟩ := Option.bind_eq_some_iff.mp hRead
      cases hRead
      obtain ⟨hTidy, hDepth⟩ := Value.tidy_of_document item value hValue
      obtain ⟨hTidyRest, hDepthRest⟩ := Value.tidy_of_items rest others hOthers
      refine ⟨⟨hTidy, hTidyRest⟩, ?_⟩
      rw [Value.writtenItems, Document.itemsDepth, Document.itemsDepth]
      omega
termination_by structural items => items

theorem Value.tidy_of_members : ∀ (members : List (Literal × Document))
    (values : List (String × Value)), Value.ofMembers? members = some values →
      Value.HaveTidy values ∧
        Document.membersDepth (Value.writtenMembers values) ≤ Document.membersDepth members
  | [], values, hRead => by
      cases hRead
      exact ⟨trivial, Nat.le_refl _⟩
  | member :: rest, values, hRead => by
      obtain ⟨value, hValue, hRead⟩ := Option.bind_eq_some_iff.mp hRead
      obtain ⟨others, hOthers, hRead⟩ := Option.bind_eq_some_iff.mp hRead
      cases hRead
      obtain ⟨hTidy, hDepth⟩ := Value.tidy_of_member member value hValue
      obtain ⟨hTidyRest, hDepthRest⟩ := Value.tidy_of_members rest others hOthers
      refine ⟨⟨hTidy, hTidyRest⟩, ?_⟩
      rw [Value.writtenMembers, Document.membersDepth, Document.membersDepth]
      omega
termination_by structural members => members

theorem Value.tidy_of_member : ∀ (member : Literal × Document) (value : String × Value),
    Value.ofMember? member = some value →
      Value.HasTidy value ∧
        Document.memberDepth (Value.writtenMember value) ≤ Document.memberDepth member
  | (key, document), value, hRead => by
      obtain ⟨name, _, hRead⟩ := Option.bind_eq_some_iff.mp hRead
      obtain ⟨found, hFound, hRead⟩ := Option.bind_eq_some_iff.mp hRead
      cases hRead
      exact Value.tidy_of_document document found hFound
termination_by structural member => member

end

/-! ### Reading back -/

mutual

theorem Value.ofDocument?_written : ∀ value : Value, value.IsTidy → value.isWhole = true →
    Value.ofDocument? value.written = some value
  | .null, _, _ => rfl
  | .bool _, _, _ => rfl
  | .number (.int value), hTidy, _ => by
      rw [Value.written, Value.ofDocument?, Number.literal, number?_wholeLiteral hTidy.1 hTidy.2,
        Option.map_some]
  | .number (.real _), _, hWhole => absurd hWhole Bool.false_ne_true
  | .string text, _, _ => by
      rw [Value.written, Value.ofDocument?, text?_ofText, Option.map_some]
  | .array items, hTidy, hWhole => by
      rw [Value.written, Value.ofDocument?, Value.ofItems?_written items hTidy hWhole,
        Option.map_some]
  | .object members, hTidy, hWhole => by
      rw [Value.written, Value.ofDocument?, Value.ofMembers?_written members hTidy.2 hWhole,
        Option.map_some, hTidy.1.mapOfMembers_eq]
termination_by structural value => value

theorem Value.ofItems?_written : ∀ items : List Value, Value.AreTidy items →
    Value.areWhole items = true → Value.ofItems? (Value.writtenItems items) = some items
  | [], _, _ => rfl
  | item :: rest, hTidy, hWhole => by
      rw [Value.areWhole, Bool.and_eq_true] at hWhole
      simp [Value.writtenItems, Value.ofItems?, Value.ofDocument?_written item hTidy.1 hWhole.1,
        Value.ofItems?_written rest hTidy.2 hWhole.2]
termination_by structural items => items

theorem Value.ofMembers?_written : ∀ members : List (String × Value), Value.HaveTidy members →
    Value.haveWhole members = true →
      Value.ofMembers? (Value.writtenMembers members) = some members
  | [], _, _ => rfl
  | member :: rest, hTidy, hWhole => by
      rw [Value.haveWhole, Bool.and_eq_true] at hWhole
      simp [Value.writtenMembers, Value.ofMembers?,
        Value.ofMember?_written member hTidy.1 hWhole.1,
        Value.ofMembers?_written rest hTidy.2 hWhole.2]
termination_by structural members => members

theorem Value.ofMember?_written : ∀ member : String × Value, Value.HasTidy member →
    Value.hasWhole member = true → Value.ofMember? (Value.writtenMember member) = some member
  | (key, value), hTidy, hWhole => by
      simp [Value.writtenMember, Value.ofMember?, text?_ofText,
        Value.ofDocument?_written value hTidy hWhole]
termination_by structural member => member

end

/-! ### Texts -/

theorem Document.value?_eq_some_iff {document : Document} {room : Nat} {value : Value} :
    document.value? room = some value ↔
      document.depth ≤ room ∧ Value.ofDocument? document = some value := by
  rw [Document.value?]
  by_cases hDepth : document.depth ≤ room
  · simp [hDepth]
  · simp [hDepth]

namespace Value

theorem ofText?_eq_some_iff {text : String} {value : Value} :
    ofText? text = some value ↔
      ∃ document, Document.ofText? text = some document ∧ document.depth ≤ nestingLimit ∧
        ofDocument? document = some value := by
  simp only [ofText?, Option.bind_eq_bind, Option.bind_eq_some_iff, Document.value?_eq_some_iff]

theorem tidy_of_text {text : String} {value : Value} (hText : ofText? text = some value) :
    value.IsTidy ∧ value.written.depth ≤ nestingLimit := by
  obtain ⟨document, _, hDepth, hValue⟩ := ofText?_eq_some_iff.mp hText
  obtain ⟨hTidy, hWritten⟩ := tidy_of_document document value hValue
  exact ⟨hTidy, Nat.le_trans hWritten hDepth⟩

/-- The members of the object that a text spells, in order and with their repetitions. -/
def membersOfText? (text : String) : Option (List (String × Value)) := do
  match ← Document.ofText? text with
  | .object members =>
      if (Document.object members).depth ≤ nestingLimit then ofMembers? members else none
  | _ => none

theorem ofText?_eq_object_iff {text : String} {members : List (String × Value)} :
    ofText? text = some (.object members) ↔
      ∃ given, membersOfText? text = some given ∧ mapOfMembers given = members := by
  rw [ofText?_eq_some_iff, membersOfText?]
  cases Document.ofText? text with
  | none => simp
  | some document =>
      cases document with
      | object spelled =>
          by_cases hDepth : (Document.object spelled).depth ≤ nestingLimit
          · simp [hDepth, ofDocument?]
          · simp [hDepth]
      | _ => simp [ofDocument?]

theorem ofText?_object {members : List (String × Value)} (hTidy : HaveTidy members)
    (hWhole : haveWhole members = true) (hDepth : (object members).written.depth ≤ nestingLimit) :
    ofText? (object members).text = some (.object (mapOfMembers members)) := by
  refine ofText?_eq_some_iff.mpr ⟨_, Document.ofText?_text hWhole, hDepth, ?_⟩
  rw [written, ofDocument?, ofMembers?_written members hTidy hWhole, Option.map_some]

end Value

end BuildWatch.Json
