import BuildWatch.Project.Settings
import BuildWatch.Proofs.Json.FreeValues
import BuildWatch.Proofs.Text.ByteOrder

/-!
A settings file is accepted exactly if each of its fields is a setting with a value of the kind
of that setting.  If not, all fields at fault are reported, each once and in the order of the bytes
of their names; the order in which they stand in the file does not matter.
-/

namespace BuildWatch

open BuildWatch.Json

inductive SettingKind.Suits : SettingKind → Value → Prop
  | text (text : String) : Suits .text (.string text)
  | numeral (text : String) : Suits .number (.string text)
  | number (number : Number) : Suits .number (.number number)
  | object (members : List (String × Value)) : Suits .object (.object members)
  | texts (texts : List String) : Suits .texts (.array (texts.map .string))
  | flag (flag : Bool) : Suits .flag (.bool flag)

/-! ### Names of settings -/

namespace SettingKey

theorem ofName?_name (setting : SettingKey) : ofName? setting.name = some setting := by
  cases setting <;> decide

theorem ofName?_eq_some_iff {key : String} {setting : SettingKey} :
    ofName? key = some setting ↔ setting.name = key := by
  constructor
  · intro hFound
    have hNamed := List.find?_some
      (show all.find? (fun other => other.name == key) = some setting from hFound)
    exact beq_iff_eq.mp hNamed
  · rintro rfl
    exact ofName?_name setting

theorem name_injective : Function.Injective name := by
  intro setting other hSame
  have hFound := ofName?_name setting
  rw [hSame, ofName?_name] at hFound
  exact (Option.some.inj hFound).symm

end SettingKey

namespace Settings

/-! ### Values of a kind -/

theorem textOf?_eq_some_iff {value : Value} {text : String} :
    textOf? value = some text ↔ value = .string text := by
  cases value <;> simp [textOf?]

theorem textsOf?_eq_some_iff {value : Value} {texts : List String} :
    textsOf? value = some texts ↔ value = .array (texts.map .string) := by
  cases value with
  | array items =>
      rw [textsOf?, Value.array.injEq]
      induction items generalizing texts with
      | nil => cases texts <;> simp
      | cons item rest ih =>
          rw [List.mapM_cons, Option.bind_eq_bind, Option.bind_eq_some_iff]
          constructor
          · rintro ⟨text, hText, hRest⟩
            obtain ⟨others, hOthers, hTexts⟩ := Option.bind_eq_some_iff.mp hRest
            cases hTexts
            rw [textOf?_eq_some_iff.mp hText, ih.mp hOthers, List.map_cons]
          · intro hItems
            cases texts with
            | nil => cases hItems
            | cons text others =>
                obtain ⟨rfl, hOthers⟩ := List.cons.inj hItems
                refine ⟨text, rfl, ?_⟩
                rw [ih.mpr hOthers]
                rfl
  | _ => simp [textsOf?]

def reads : SettingKind → Value → Bool
  | .text, value => (textOf? value).isSome
  | .number, value => (numberOf? value).isSome
  | .object, value => (objectOf? value).isSome
  | .texts, value => (textsOf? value).isSome
  | .flag, value => (flagOf? value).isSome

theorem reads_iff (kind : SettingKind) (value : Value) :
    reads kind value = true ↔ kind.Suits value := by
  constructor
  · intro hReads
    cases kind with
    | texts =>
        obtain ⟨texts, hTexts⟩ := Option.isSome_iff_exists.mp hReads
        rw [textsOf?_eq_some_iff.mp hTexts]
        exact .texts texts
    | text => cases value <;> first | exact .text _ | cases hReads
    | number => cases value <;> first | exact .numeral _ | exact .number _ | cases hReads
    | object => cases value <;> first | exact .object _ | cases hReads
    | flag => cases value <;> first | exact .flag _ | cases hReads
  · intro hSuits
    cases hSuits with
    | texts texts =>
        rw [reads, textsOf?_eq_some_iff.mpr rfl]
        rfl
    | _ => rfl

theorem set?_isSome (settings : Settings) (setting : SettingKey) (value : Value) :
    (settings.set? setting value).isSome = reads setting.kind value := by
  cases setting <;> exact Option.isSome_map

/-! ### Fields -/

/-- A field is a setting with a value of the kind of that setting. -/
def Accepts (key : String) (value : Value) : Prop :=
  ∃ setting : SettingKey, setting.name = key ∧ setting.kind.Suits value

theorem accepts_iff (key : String) (value : Value) :
    (match SettingKey.ofName? key with
      | some setting => reads setting.kind value
      | none => false) = true ↔ Accepts key value := by
  constructor
  · intro hReads
    split at hReads
    · rename_i setting hSetting
      exact ⟨setting, SettingKey.ofName?_eq_some_iff.mp hSetting, (reads_iff _ _).mp hReads⟩
    · cases hReads
  · rintro ⟨setting, rfl, hSuits⟩
    rw [SettingKey.ofName?_name]
    exact (reads_iff _ _).mpr hSuits

instance (key : String) (value : Value) : Decidable (Accepts key value) :=
  decidable_of_iff _ (accepts_iff key value)

/-- What is reported of a field at fault: a name that no setting has, or else a value that does not
suit. -/
def faultOf (key : String) (value : Value) : SettingFault :=
  match SettingKey.ofName? key with
  | none => .unknown key
  | some setting => .unsuitable setting (shown value)

theorem takeField_of_accepts (settings : Settings) {key : String} {value : Value}
    (hAccepts : Accepts key value) :
    ∃ setting later, setting.name = key ∧ settings.set? setting value = some later ∧
      settings.takeField key value = .ok later := by
  obtain ⟨setting, rfl, hSuits⟩ := hAccepts
  have hSome := settings.set?_isSome setting value
  rw [(reads_iff _ _).mpr hSuits] at hSome
  obtain ⟨later, hLater⟩ := Option.isSome_iff_exists.mp hSome
  refine ⟨setting, later, rfl, hLater, ?_⟩
  simp only [takeField, SettingKey.ofName?_name, hLater]

theorem takeField_of_not (settings : Settings) {key : String} {value : Value}
    (hAccepts : ¬ Accepts key value) :
    settings.takeField key value = .error (faultOf key value) := by
  unfold takeField faultOf
  cases hSetting : SettingKey.ofName? key with
  | none => rfl
  | some setting =>
      have hReads : reads setting.kind value = false := by
        rw [Bool.eq_false_iff, ne_eq, reads_iff]
        intro hSuits
        exact hAccepts ⟨setting, SettingKey.ofName?_eq_some_iff.mp hSetting, hSuits⟩
      have hNone := settings.set?_isSome setting value
      rw [hReads, Option.isSome_eq_false_iff, Option.isNone_iff_eq_none] at hNone
      simp only [hNone]

/-- Each field at fault is reported once, in the order in which the fields are taken. -/
theorem faults_takeFields (settings : Settings) (members : List (String × Value)) :
    (settings.takeFields members).2 =
      (members.filter fun member => ¬ Accepts member.1 member.2).map fun member =>
        faultOf member.1 member.2 := by
  induction members generalizing settings with
  | nil => rfl
  | cons member rest ih =>
      obtain ⟨key, value⟩ := member
      by_cases hAccepts : Accepts key value
      · obtain ⟨setting, later, _, _, hTaken⟩ := settings.takeField_of_accepts hAccepts
        rw [takeFields, hTaken, List.filter_cons_of_neg (by simpa using hAccepts)]
        exact ih later
      · rw [takeFields, settings.takeField_of_not hAccepts,
          List.filter_cons_of_pos (by simpa using hAccepts), List.map_cons, ← ih settings]

/-- The settings with some values, each in the form in which its setting is kept: a number as
text, all else as it is. -/
def withValues (settings : Settings) (value? : SettingKey → Option Value) : Settings where
  contextRoot := ((value? .contextRoot).bind textOf?).or settings.contextRoot
  appPort := ((value? .appPort).bind numberOf?).or settings.appPort
  debugPort := ((value? .debugPort).bind numberOf?).or settings.debugPort
  healthCheck := ((value? .healthCheck).bind textOf?).or settings.healthCheck
  watchedFiles := ((value? .watchedFiles).bind objectOf?).or settings.watchedFiles
  ignoredPaths := ((value? .ignoredPaths).bind textsOf?).getD settings.ignoredPaths
  mavenProfiles := ((value? .mavenProfiles).bind textsOf?).getD settings.mavenProfiles
  mavenProperties := ((value? .mavenProperties).bind textsOf?).getD settings.mavenProperties
  isHttps := ((value? .isHttps).bind flagOf?).or settings.isHttps
  statusPingTimeout := ((value? .statusPingTimeout).bind numberOf?).or settings.statusPingTimeout

theorem withValues_set? {settings later : Settings} {setting : SettingKey} {value : Value}
    (hSet : settings.set? setting value = some later) {value? : SettingKey → Option Value}
    (hNew : value? setting = none) :
    later.withValues value? =
      settings.withValues fun key => if key = setting then some value else value? key := by
  cases setting <;>
  · obtain ⟨read, hRead, rfl⟩ := Option.map_eq_some_iff.mp hSet
    simp [withValues, hNew, hRead]

theorem settings_takeFields (settings : Settings) {members : List (String × Value)}
    (hDistinct : (members.map Prod.fst).Nodup)
    (hAccepts : ∀ member ∈ members, Accepts member.1 member.2) :
    (settings.takeFields members).1 =
      settings.withValues fun setting => members.lookup setting.name := by
  -- The settings vary: what the first field sets is then one of the values for the rest.
  induction members generalizing settings with
  | nil => cases settings; simp [takeFields, withValues]
  | cons member rest ih =>
      obtain ⟨key, value⟩ := member
      obtain ⟨hFirst, hRest⟩ := List.forall_mem_cons.mp hAccepts
      rw [List.map_cons, List.nodup_cons] at hDistinct
      obtain ⟨setting, later, rfl, hSet, hTaken⟩ := settings.takeField_of_accepts hFirst
      have hNew : rest.lookup setting.name = none := by
        rw [Option.eq_none_iff_forall_ne_some]
        intro found hFound
        exact hDistinct.1 (List.mem_map.mpr ⟨_, mem_of_lookup hFound, rfl⟩)
      have hLater := ih later hDistinct.2 hRest
      rw [withValues_set? hSet hNew] at hLater
      simp only [takeFields, hTaken, hLater]
      congr 1
      funext other
      rw [lookup_cons_eq]
      by_cases hSame : other = setting
      · rw [if_pos hSame, if_pos (congrArg SettingKey.name hSame)]
      · rw [if_neg hSame, if_neg fun hName => hSame (SettingKey.name_injective hName)]

/-! ### Texts -/

theorem parse_of_none {text : String} (hText : Value.ofText? text = none) :
    parse text = .error .malformed := by
  rw [parse, hText]

theorem parse_of_other {text : String} {value : Value} (hText : Value.ofText? text = some value)
    (hOther : ∀ members, value ≠ .object members) : parse text = .error .notAnObject := by
  rw [parse, hText]
  cases value with
  | object members => exact absurd rfl (hOther members)
  | _ => rfl

theorem isMap_of_text {text : String} {members : List (String × Value)}
    (hText : Value.ofText? text = some (.object members)) : IsMap members :=
  (Value.tidy_of_text hText).1.1

theorem parse_of_object {text : String} {members : List (String × Value)}
    (hText : Value.ofText? text = some (.object members)) :
    parse text =
      if (takeFields {} members).2 = [] then .ok (takeFields {} members).1
      else .error (.invalid (takeFields {} members).2) := by
  rw [parse, hText]
  dsimp only
  rcases takeFields {} members with ⟨settings, _ | _⟩ <;> rfl

theorem no_faults_iff (members : List (String × Value)) :
    (takeFields {} members).2 = [] ↔ ∀ member ∈ members, Accepts member.1 member.2 := by
  rw [faults_takeFields, List.map_eq_nil_iff, List.filter_eq_nil_iff]
  simp

theorem parse_of_accepted {text : String} {members : List (String × Value)}
    (hText : Value.ofText? text = some (.object members))
    (hAccepts : ∀ member ∈ members, Accepts member.1 member.2) :
    parse text = .ok (({} : Settings).withValues fun setting => members.lookup setting.name) := by
  rw [parse_of_object hText, if_pos ((no_faults_iff members).mpr hAccepts),
    settings_takeFields {} (isMap_of_text hText).nodup_keys hAccepts]

theorem parse_of_refused {text : String} {members : List (String × Value)}
    (hText : Value.ofText? text = some (.object members))
    (hRefused : ¬ ∀ member ∈ members, Accepts member.1 member.2) :
    parse text =
      .error (.invalid ((members.filter fun member => ¬ Accepts member.1 member.2).map
        fun member => faultOf member.1 member.2)) := by
  rw [parse_of_object hText, if_neg (hRefused ∘ (no_faults_iff members).mp), faults_takeFields]

/-- Settings are what the fields of an object set, if all of them are accepted. -/
theorem parse_eq_ok_iff {text : String} {settings : Settings} :
    parse text = .ok settings ↔
      ∃ members, Value.ofText? text = some (.object members) ∧
        (∀ member ∈ members, Accepts member.1 member.2) ∧
        settings = ({} : Settings).withValues fun setting => members.lookup setting.name := by
  constructor
  · intro hOk
    cases hText : Value.ofText? text with
    | none =>
        rw [parse_of_none hText] at hOk
        cases hOk
    | some value =>
        cases value with
        | object members =>
            by_cases hAccepts : ∀ member ∈ members, Accepts member.1 member.2
            · rw [parse_of_accepted hText hAccepts] at hOk
              exact ⟨members, rfl, hAccepts, (Except.ok.inj hOk).symm⟩
            · rw [parse_of_refused hText hAccepts] at hOk
              cases hOk
        | _ =>
            rw [parse_of_other hText (by simp)] at hOk
            cases hOk
  · rintro ⟨members, hText, hAccepts, rfl⟩
    exact parse_of_accepted hText hAccepts

theorem parse_eq_malformed_iff (text : String) :
    parse text = .error .malformed ↔ Value.ofText? text = none := by
  cases hText : Value.ofText? text with
  | none => exact iff_of_true (parse_of_none hText) rfl
  | some value =>
      refine iff_of_false ?_ (Option.some_ne_none value)
      cases value with
      | object members =>
          rw [parse_of_object hText]
          split_ifs <;> simp
      | _ => simp [parse_of_other hText]

theorem parse_eq_notAnObject_iff (text : String) :
    parse text = .error .notAnObject ↔
      ∃ value, Value.ofText? text = some value ∧ ∀ members, value ≠ .object members := by
  cases hText : Value.ofText? text with
  | none => simp [parse_of_none hText]
  | some value =>
      cases value with
      | object members =>
          rw [parse_of_object hText]
          split_ifs <;> simp
      | _ => simp [parse_of_other hText]

/-- The order in which the members stand, and those that are given again later, do not matter. -/
theorem parse_congr {text other : String} {given others : List (String × Value)}
    (hText : Value.membersOfText? text = some given)
    (hOther : Value.membersOfText? other = some others)
    (hSame : ∀ key, given.reverse.lookup key = others.reverse.lookup key) :
    parse other = parse text := by
  have hGiven := Value.ofText?_eq_object_iff.mpr ⟨given, hText, rfl⟩
  have hOthers := Value.ofText?_eq_object_iff.mpr ⟨others, hOther, rfl⟩
  rw [parse, parse, hGiven, hOthers, mapOfMembers_congr hSame]

theorem forall_accepts_iff {members : List (String × Value)} (hMap : IsMap members) :
    (∀ key value, members.lookup key = some value → Accepts key value) ↔
      ∀ member ∈ members, Accepts member.1 member.2 := by
  constructor
  · intro hAccepts member hMember
    exact hAccepts _ _ ((hMap.mem_iff_lookup member).mp hMember)
  · intro hAccepts key value hValue
    exact hAccepts (key, value) (mem_of_lookup hValue)

/-- A text is malformed if it is no JSON text, and refused if it is not an object.  An object is
read as a map, in the order of the bytes of the keys and with the last of the values given for a
key.  It is accepted exactly if each of its fields is; the settings are then the values of the
fields.  If not, the fields at fault are reported, each once and in that order.  Nothing else
about the text matters. -/
theorem fields_accepted_or_refused (text : String) :
    (parse text = .error .malformed ↔ Value.ofText? text = none) ∧
    (parse text = .error .notAnObject ↔
      ∃ value, Value.ofText? text = some value ∧ ∀ members, value ≠ .object members) ∧
    (∀ members, Value.ofText? text = some (.object members) →
      let offending := members.filter fun member => ¬ Accepts member.1 member.2
      (∃ given, Value.membersOfText? text = some given ∧
        ∀ key, members.lookup key = given.reverse.lookup key) ∧
      (members.Pairwise fun member other => Text.bytesOf member.1 < Text.bytesOf other.1) ∧
      ((∃ settings, parse text = .ok settings) ↔
        ∀ key value, members.lookup key = some value → Accepts key value) ∧
      (∀ settings, parse text = .ok settings →
        settings = ({} : Settings).withValues fun setting => members.lookup setting.name) ∧
      (∀ error, parse text = .error error →
        error = .invalid (offending.map fun member => faultOf member.1 member.2) ∧
        error.message =
          ", ".intercalate (offending.map fun member => (faultOf member.1 member.2).message))) ∧
    (∀ other given others, Value.membersOfText? text = some given →
      Value.membersOfText? other = some others →
      (∀ key, given.reverse.lookup key = others.reverse.lookup key) →
      parse other = parse text) := by
  refine ⟨parse_eq_malformed_iff text, parse_eq_notAnObject_iff text, ?_,
    fun _ _ _ => parse_congr⟩
  intro members hText offending
  have hMap := isMap_of_text hText
  refine ⟨?_, hMap.imp Text.bytesOf_lt_bytesOf, ?_⟩
  · obtain ⟨given, hGiven, rfl⟩ := Value.ofText?_eq_object_iff.mp hText
    exact ⟨given, hGiven, lookup_mapOfMembers given⟩
  · rw [forall_accepts_iff hMap]
    by_cases hAccepts : ∀ member ∈ members, Accepts member.1 member.2
    · rw [parse_of_accepted hText hAccepts]
      refine ⟨iff_of_true ⟨_, rfl⟩ hAccepts, ?_, ?_⟩
      · intro settings hOk
        exact (Except.ok.inj hOk).symm
      · intro error hError
        cases hError
    · rw [parse_of_refused hText hAccepts]
      refine ⟨iff_of_false ?_ hAccepts, ?_, ?_⟩
      · rintro ⟨settings, hOk⟩
        cases hOk
      · intro settings hOk
        cases hOk
      · intro error hError
        have hFaults := (Except.error.inj hError).symm
        refine ⟨hFaults, ?_⟩
        rw [hFaults]
        exact congrArg (", ".intercalate ·) List.map_map

/-- Three fields are at fault; the root of the context is given twice. -/
theorem fields_accepted_or_refused_threeFaults :
    let text := "\x7b\"x\":0,\"isHttps\":1,\"contextRoot\":\"/\",\"contextRoot\":2\x7d"
    let number (value : Int) : Value := .number (.int value)
    Value.ofText? text =
        some (.object [("contextRoot", number 2), ("isHttps", number 1), ("x", number 0)]) ∧
      parse text =
        .error (.invalid [.unsuitable .contextRoot "2", .unsuitable .isHttps "1",
          .unknown "x"]) := by
  intro text number
  have hText : Value.ofText? text =
      some (.object [("contextRoot", number 2), ("isHttps", number 1), ("x", number 0)]) := by
    let given : List (String × Value) :=
      [("x", number 0), ("isHttps", number 1), ("contextRoot", .string "/"),
        ("contextRoot", number 2)]
    have hSpelled : (Value.object given).text = text := by decide +kernel
    have hTidy : Value.HaveTidy given :=
      ⟨fits_natural (by decide), fits_natural (by decide), trivial, fits_natural (by decide),
        trivial⟩
    rw [← hSpelled, Value.ofText?_object hTidy (by decide +kernel) (by decide +kernel)]
    congr 2
    -- Keys are not compared by evaluation: both lists are maps and give the same for each key.
    apply (isMap_mapOfMembers given).eq_of_lookup (by decide +kernel)
    intro key
    simp only [lookup_mapOfMembers, given, List.reverse_cons, List.reverse_nil, List.nil_append,
      List.cons_append, lookup_cons_eq]
    split_ifs <;> rfl
  obtain ⟨_, _, hOk, _, hError⟩ := (fields_accepted_or_refused text).2.2.1 _ hText
  refine ⟨hText, ?_⟩
  cases hParse : parse text with
  | ok settings =>
      have hAccepts : Accepts "x" (number 0) := hOk.mp ⟨settings, hParse⟩ "x" (number 0) rfl
      exact absurd hAccepts (by decide +kernel)
  | error error =>
      rw [(hError error hParse).1]
      exact congrArg (Except.error ∘ SettingsError.invalid) (by decide +kernel)

/-- A setting that does not exist is reported by its name; the value that was given for it is not
shown. -/
theorem unknown_setting_hides_value :
    let error : SettingsError := .invalid [.unknown "unknownKey"]
    parse "\x7b\"unknownKey\":12\x7d" = .error error ∧
      error.message = "Invalid setting: Could not identify the setting: unknownKey" ∧
      shown (.number (.int 12)) = "12" ∧ '1' ∉ error.message.toList := by
  intro error
  have hText : Value.ofText? "\x7b\"unknownKey\":12\x7d" =
      some (.object [("unknownKey", .number (.int 12))]) := by
    have hSpelled : (Value.object [("unknownKey", .number (.int 12))]).text =
        "\x7b\"unknownKey\":12\x7d" := by
      decide +kernel
    rw [← hSpelled]
    exact Value.ofText?_object ⟨fits_natural (by decide), trivial⟩ (by decide +kernel)
      (by decide +kernel)
  have hRefused : ¬ Accepts "unknownKey" (.number (.int 12)) := by decide +kernel
  refine ⟨?_, by decide +kernel, by decide +kernel, by decide +kernel⟩
  rw [parse_of_refused hText (by simpa using hRefused),
    List.filter_cons_of_pos (by simpa using hRefused)]
  rfl

end Settings

end BuildWatch
