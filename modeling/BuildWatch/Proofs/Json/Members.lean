import BuildWatch.Proofs.Json.FreeValues

/-!
Members of an object, from the text that it is written as.  Read freely they are a map again; read
as the fields of a record, each field finds the member with its name.
-/

namespace BuildWatch.Json

/-! ### Members that are read back -/

/-- Values that are read back from the member they are written as: tidy, without binary numbers,
and not nested too deep to stand in an object. -/
structure Value.ReadsBack (value : Value) : Prop where
  isTidy : value.IsTidy
  isWhole : value.isWhole = true
  isShallow : value.written.depth ≤ nestingLimit - 1

namespace Value.ReadsBack

theorem string (text : String) : (Value.string text).ReadsBack :=
  ⟨trivial, rfl, Nat.zero_le _⟩

theorem bool (flag : Bool) : (Value.bool flag).ReadsBack :=
  ⟨trivial, rfl, Nat.zero_le _⟩

theorem strings (texts : List String) : (Value.array (texts.map .string)).ReadsBack := by
  have hTidy : Value.AreTidy (texts.map .string) := by
    induction texts with
    | nil => exact trivial
    | cons text rest ih => exact ⟨trivial, ih⟩
  have hDepth : Document.itemsDepth (Value.writtenItems (texts.map .string)) = 0 := by
    induction texts with
    | nil => rfl
    | cons text rest ih =>
        rw [List.map_cons, Value.writtenItems, Document.itemsDepth, ih hTidy.2, Nat.max_zero]
        rfl
  refine ⟨hTidy, Value.isWhole_strings texts, ?_⟩
  rw [Value.written, Document.depth, hDepth]
  decide

theorem value?_written {value : Value} (hReads : value.ReadsBack) :
    value.written.value? (nestingLimit - 1) = some value := by
  rw [Document.value?, if_pos hReads.isShallow]
  exact Value.ofDocument?_written value hReads.isTidy hReads.isWhole

theorem ofText?_object {members : List (String × Value)}
    (hReads : ∀ member ∈ members, member.2.ReadsBack) :
    Value.ofText? (Value.object members).text = some (.object (mapOfMembers members)) := by
  apply Value.ofText?_object
  · rw [Value.haveTidy_iff]
    exact fun member hMember => (hReads member hMember).isTidy
  · rw [Value.haveWhole_iff]
    exact fun member hMember => (hReads member hMember).isWhole
  · have hDepth : Document.membersDepth (Value.writtenMembers members) ≤ nestingLimit - 1 := by
      rw [Value.membersDepth_written_le_iff]
      exact fun member hMember => (hReads member hMember).isShallow
    exact Nat.succ_le_succ hDepth

end Value.ReadsBack

/-! ### Members that can be read -/

/-- A member whose key and value can be read freely, the value at most `room` levels deep. -/
def IsReadable (room : Nat) (member : Literal × Document) : Prop :=
  (∃ key, member.1.text? = some key) ∧ ∃ value, member.2.value? room = some value

theorem exists_ofMembers? {room : Nat} {members : List (Literal × Document)}
    (hReadable : ∀ member ∈ members, IsReadable room member) :
    ∃ values, Value.ofMembers? members = some values := by
  induction members with
  | nil => exact ⟨[], rfl⟩
  | cons member rest ih =>
      obtain ⟨⟨⟨key, hKey⟩, value, hValue⟩, hRest⟩ := List.forall_mem_cons.mp hReadable
      obtain ⟨values, hValues⟩ := ih hRest
      obtain ⟨_, hValue⟩ := Document.value?_eq_some_iff.mp hValue
      obtain ⟨literal, document⟩ := member
      exact ⟨(key, value) :: values, by
        simp [Value.ofMembers?, Value.ofMember?, hKey, hValue, hValues]⟩

theorem exists_value?_object {room : Nat} {members : List (Literal × Document)}
    (hReadable : ∀ member ∈ members, IsReadable room member) :
    ∃ value, (Document.object members).value? (room + 1) = some value := by
  have hDepth : (Document.object members).depth ≤ room + 1 := by
    rw [Document.depth, Nat.add_le_add_iff_right, Document.membersDepth_le_iff]
    intro member hMember
    obtain ⟨_, value, hValue⟩ := hReadable member hMember
    exact (Document.value?_eq_some_iff.mp hValue).1
  obtain ⟨values, hValues⟩ := exists_ofMembers? hReadable
  refine ⟨.object (mapOfMembers values), Document.value?_eq_some_iff.mpr ⟨hDepth, ?_⟩⟩
  rw [Value.ofDocument?, hValues, Option.map_some]

theorem exists_keyedMembers? {room : Nat} {members : List (Literal × Document)}
    (hReadable : ∀ member ∈ members, IsReadable room member) :
    ∃ keyed, keyedMembers? members = some keyed := by
  induction members with
  | nil => exact ⟨[], rfl⟩
  | cons member rest ih =>
      obtain ⟨⟨⟨key, hKey⟩, _⟩, hRest⟩ := List.forall_mem_cons.mp hReadable
      obtain ⟨keyed, hKeyed⟩ := ih hRest
      rw [keyedMembers?] at hKeyed
      exact ⟨(key, member.2) :: keyed, by simp [keyedMembers?, hKey, hKeyed]⟩

/-! ### Fields of a record -/

theorem mapM_eq_some_iff {α β : Type} {read : α → Option β} {items : List α} {values : List β} :
    items.mapM read = some values ↔
      List.Forall₂ (fun item value => read item = some value) items values := by
  induction items generalizing values with
  | nil =>
      rw [List.mapM_nil, List.forall₂_nil_left_iff]
      exact Option.some_inj.trans eq_comm
  | cons item rest ih =>
      rw [List.mapM_cons, List.forall₂_cons_left_iff]
      simp only [Option.bind_eq_bind, Option.bind_eq_some_iff, ih, Option.pure_def,
        Option.some.injEq]
      constructor
      · rintro ⟨value, hValue, others, hOthers, rfl⟩
        exact ⟨value, others, hValue, hOthers, rfl⟩
      · rintro ⟨value, others, hValue, hOthers, rfl⟩
        exact ⟨value, hValue, others, hOthers, rfl⟩

theorem mapM_of_forall₂ {α β γ : Type} {spelled : β → α → Prop} {read : α → Option γ}
    {value : β → γ} {reports : List β} {items : List α}
    (hItems : List.Forall₂ spelled reports items)
    (hRead : ∀ report item, spelled report item → read item = some (value report)) :
    items.mapM read = some (reports.map value) := by
  rw [mapM_eq_some_iff, List.forall₂_map_right_iff]
  exact (hItems.imp hRead).flip

theorem filter_keyedMembers {members : List (Literal × Document)}
    {keyed : List (String × Document)} (hKeyed : keyedMembers? members = some keyed)
    (name : String) :
    keyed.filter (fun member => member.1 == name) =
      (members.filter (fun member => member.1.text? == some name)).map
        fun member => (name, member.2) := by
  rw [keyedMembers?, mapM_eq_some_iff] at hKeyed
  induction hKeyed with
  | nil => rfl
  | cons hFirst _ ih =>
      obtain ⟨key, hKey, rfl⟩ := Option.map_eq_some_iff.mp hFirst
      rw [List.filter_cons, List.filter_cons, hKey, ih]
      by_cases hName : key = name
      · simp [hName]
      · simp [hName]

theorem Field.answersTo_name (name key : String) :
    ({ name := name } : Field).answersTo key = (key == name) := by
  simp [Field.answersTo]

section Pick

variable {members : List (Literal × Document)} {keyed : List (String × Document)} {name : String}

/-- A field without other names is given what stands in the one member with its name. -/
theorem pick?_keyedMembers (hKeyed : keyedMembers? members = some keyed) (name : String) :
    ({ name := name } : Field).pick? keyed =
      match members.filter (fun member => member.1.text? == some name) with
      | [] => some none
      | [member] => some (some member.2)
      | _ => none := by
  simp only [Field.pick?, Field.answersTo_name, filter_keyedMembers hKeyed]
  generalize members.filter (fun member => member.1.text? == some name) = found
  rcases found with _ | ⟨first, _ | _⟩ <;> rfl

theorem filter_of_lacking (hNone : ∀ member ∈ members, member.1.text? ≠ some name) :
    members.filter (fun member => member.1.text? == some name) = [] := by
  rw [List.filter_eq_nil_iff]
  intro member hMember
  simpa using hNone member hMember

theorem pick?_of_lacking (hKeyed : keyedMembers? members = some keyed)
    (hNone : ∀ member ∈ members, member.1.text? ≠ some name) :
    ({ name := name } : Field).pick? keyed = some none := by
  rw [pick?_keyedMembers hKeyed, filter_of_lacking hNone]

theorem pick?_of_single {before after : List (Literal × Document)} {key : Literal}
    {document : Document}
    (hKeyed : keyedMembers? (before ++ (key, document) :: after) = some keyed)
    (hKey : key.text? = some name)
    (hOthers : ∀ member ∈ before ++ after, member.1.text? ≠ some name) :
    ({ name := name } : Field).pick? keyed = some (some document) := by
  obtain ⟨hBefore, hAfter⟩ := List.forall_mem_append.mp hOthers
  rw [pick?_keyedMembers hKeyed, List.filter_append, List.filter_cons_of_pos (by simp [hKey]),
    filter_of_lacking hBefore, filter_of_lacking hAfter]
  rfl

theorem pick?_of_mem (hKeyed : keyedMembers? members = some keyed) {key : Literal}
    {document : Document} (hMember : (key, document) ∈ members) (hKey : key.text? = some name)
    {given : Option Document} (hGiven : ({ name := name } : Field).pick? keyed = some given) :
    given = some document := by
  have hFilter : (key, document) ∈ members.filter fun member => member.1.text? == some name :=
    List.mem_filter.mpr ⟨hMember, by simp [hKey]⟩
  rw [pick?_keyedMembers hKeyed] at hGiven
  split at hGiven
  · next hNone =>
      rw [hNone] at hFilter
      cases hFilter
  · next member hOnly =>
      rw [hOnly] at hFilter
      rw [← List.mem_singleton.mp hFilter] at hGiven
      exact (Option.some.inj hGiven).symm
  · cases hGiven

end Pick

theorem lookup_map_written (members : List (String × Value)) (key : String) :
    (members.map fun member => (member.1, member.2.written)).lookup key =
      (members.lookup key).map Value.written := by
  induction members with
  | nil => rfl
  | cons member rest ih =>
      rw [List.map_cons, lookup_cons_eq, lookup_cons_eq, ih]
      split <;> rfl

theorem pick?_eq_lookup {members : List (String × Document)}
    (hDistinct : (members.map Prod.fst).Nodup) (name : String) :
    ({ name := name } : Field).pick? members = some (members.lookup name) := by
  simp only [Field.pick?, Field.answersTo_name]
  induction members with
  | nil => rfl
  | cons member rest ih =>
      rw [List.map_cons, List.nodup_cons] at hDistinct
      rw [lookup_cons_eq]
      by_cases hName : member.1 = name
      · have hNone : rest.filter (fun other => other.1 == name) = [] := by
          rw [List.filter_eq_nil_iff]
          intro other hOther hSame
          rw [← hName, beq_iff_eq] at hSame
          exact hDistinct.1 (List.mem_map.mpr ⟨other, hOther, hSame⟩)
        rw [List.filter_cons, if_pos (beq_iff_eq.mpr hName), hNone, if_pos hName.symm]
      · rw [List.filter_cons, if_neg (hName ∘ beq_iff_eq.mp), if_neg (Ne.symm hName)]
        exact ih hDistinct.2

theorem optional_written {α : Type} {read : Document → Option α} {write : α → Value}
    {item? : Option α}
    (hRead : ∀ item, item? = some item →
      read (write item).written = some item ∧ (write item).written ≠ .null) :
    optional read ((item?.map write).map Value.written) = some item? := by
  cases item? with
  | none => rfl
  | some item =>
      obtain ⟨hItem, hSome⟩ := hRead item rfl
      have hNotNull : ∀ document : Document, document ≠ .null →
          document.orNull? read = (read document).map some := by
        intro document hDocument
        cases document <;> first | exact absurd rfl hDocument | rfl
      rw [Option.map_some, Option.map_some, optional, hNotNull _ hSome, hItem, Option.map_some]

end BuildWatch.Json
