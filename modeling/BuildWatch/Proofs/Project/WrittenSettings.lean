import BuildWatch.Proofs.Json.Members
import BuildWatch.Proofs.Project.AppliedSettings
import BuildWatch.Proofs.Project.SettingsFields

/-!
Settings that were accepted are read again from the text they are written as, by the check of the
fields and by the reader of records alike.  The two differ in much else: only the former takes
numbers for texts, and only the latter takes nulls and passes over unknown names.
-/

namespace BuildWatch

open BuildWatch.Json

namespace Settings

/-! ### Values of settings -/

def listValue? (texts : List String) : Option Value :=
  if texts.isEmpty then none else some (.array (texts.map .string))

/-- The value a setting is written as, if it is written at all. -/
def value? (settings : Settings) : SettingKey → Option Value
  | .contextRoot => settings.contextRoot.map .string
  | .appPort => settings.appPort.map .string
  | .debugPort => settings.debugPort.map .string
  | .healthCheck => settings.healthCheck.map .string
  | .watchedFiles => settings.watchedFiles
  | .ignoredPaths => listValue? settings.ignoredPaths
  | .mavenProfiles => listValue? settings.mavenProfiles
  | .mavenProperties => listValue? settings.mavenProperties
  | .isHttps => settings.isHttps.map .bool
  | .statusPingTimeout => settings.statusPingTimeout.map .string

def members (settings : Settings) : List (String × Value) :=
  SettingKey.all.flatMap fun setting => optionalMember setting (settings.value? setting)

theorem listMember_eq (setting : SettingKey) (texts : List String) :
    listMember setting texts = optionalMember setting (listValue? texts) := by
  rw [listMember, listValue?]
  split <;> rfl

theorem toJson_eq (settings : Settings) : settings.toJson = .object settings.members := by
  simp [toJson, members, SettingKey.all, value?, listMember_eq]

theorem mem_optionalMember {setting : SettingKey} {value : Option Value}
    {member : String × Value} :
    member ∈ optionalMember setting value ↔ member.1 = setting.name ∧ value = some member.2 := by
  obtain ⟨key, given⟩ := member
  cases value with
  | none => simp [optionalMember]
  | some own => simp [optionalMember, eq_comm]

theorem mem_members {settings : Settings} {member : String × Value} :
    member ∈ settings.members ↔
      ∃ setting : SettingKey, member.1 = setting.name ∧
        settings.value? setting = some member.2 := by
  simp only [members, List.mem_flatMap, mem_optionalMember]
  constructor
  · rintro ⟨setting, _, hMember⟩
    exact ⟨setting, hMember⟩
  · rintro ⟨setting, hMember⟩
    exact ⟨setting, by cases setting <;> decide, hMember⟩

theorem nodup_members (settings : Settings) : (settings.members.map Prod.fst).Nodup := by
  have hAll : (SettingKey.all.map SettingKey.name).Nodup := by decide
  -- The keys are those of all settings, less those that are left out.
  refine hAll.sublist ?_
  rw [members]
  generalize SettingKey.all = keys
  induction keys with
  | nil => exact List.Sublist.refl _
  | cons setting rest ih =>
      rw [List.flatMap_cons, List.map_append, List.map_cons]
      cases settings.value? setting with
      | none => exact ih.cons _
      | some value => exact ih.cons_cons _

theorem lookup_members (settings : Settings) (setting : SettingKey) :
    settings.members.lookup setting.name = settings.value? setting := by
  apply Option.ext
  intro value
  constructor
  · intro hValue
    obtain ⟨other, hName, hOther⟩ := mem_members.mp (mem_of_lookup hValue)
    rw [SettingKey.name_injective hName]
    exact hOther
  · intro hValue
    exact lookup_of_mem settings.nodup_members (mem_members.mpr ⟨setting, rfl, hValue⟩)

/-! ### What can be written -/

theorem eq_of_objectOf? {value files : Value} (hObject : objectOf? value = some files) :
    value = files ∧ ∃ members, files = .object members := by
  cases value with
  | object members =>
      cases hObject
      exact ⟨rfl, members, rfl⟩
  | _ => cases hObject

/-- Watched files as they are accepted: an object that is read back. -/
def KeepsFiles (settings : Settings) : Prop :=
  ∀ files, settings.watchedFiles = some files →
    (∃ members, files = .object members) ∧ files.ReadsBack

theorem keepsFiles_of_parse {text : String} {settings : Settings}
    (hParse : parse text = .ok settings)
    (hWhole : ∀ files, settings.watchedFiles = some files → files.isWhole = true) :
    settings.KeepsFiles := by
  intro files hFiles
  obtain ⟨members, hText, _, rfl⟩ := parse_eq_ok_iff.mp hParse
  have hRead : (members.lookup SettingKey.watchedFiles.name).bind objectOf? = some files := by
    rw [← hFiles]
    exact (Option.or_none).symm
  obtain ⟨value, hValue, hObject⟩ := Option.bind_eq_some_iff.mp hRead
  obtain ⟨rfl, hObject⟩ := eq_of_objectOf? hObject
  obtain ⟨⟨_, hTidy⟩, hDepth⟩ := Value.tidy_of_text hText
  have hMember := mem_of_lookup hValue
  have hShallow : Document.membersDepth (Value.writtenMembers members) ≤ nestingLimit - 1 :=
    Nat.le_of_succ_le_succ hDepth
  exact ⟨hObject, Value.haveTidy_iff.mp hTidy _ hMember, hWhole _ hFiles,
    Value.membersDepth_written_le_iff.mp hShallow _ hMember⟩

theorem listValue?_eq_some {texts : List String} {value : Value}
    (hValue : listValue? texts = some value) : value = .array (texts.map .string) := by
  rw [listValue?] at hValue
  split at hValue
  · cases hValue
  · exact (Option.some.inj hValue).symm

theorem value?_suits {settings : Settings} (hFiles : settings.KeepsFiles) {setting : SettingKey}
    {value : Value} (hValue : settings.value? setting = some value) :
    setting.kind.Suits value ∧ value.ReadsBack := by
  cases setting with
  | watchedFiles =>
      obtain ⟨⟨members, rfl⟩, hReads⟩ := hFiles value hValue
      exact ⟨.object members, hReads⟩
  | contextRoot | healthCheck =>
      obtain ⟨text, _, rfl⟩ := Option.map_eq_some_iff.mp hValue
      exact ⟨.text text, .string text⟩
  | appPort | debugPort | statusPingTimeout =>
      obtain ⟨text, _, rfl⟩ := Option.map_eq_some_iff.mp hValue
      exact ⟨.numeral text, .string text⟩
  | ignoredPaths | mavenProfiles | mavenProperties =>
      rw [listValue?_eq_some hValue]
      exact ⟨.texts _, .strings _⟩
  | isHttps =>
      obtain ⟨flag, _, rfl⟩ := Option.map_eq_some_iff.mp hValue
      exact ⟨.flag flag, .bool flag⟩

/-! ### Reading the fields again -/

theorem map_bind_read {α β : Type} {read : β → Option α} {write : α → β}
    (hRead : ∀ item, read (write item) = some item) (item? : Option α) :
    (item?.map write).bind read = item? := by
  cases item? with
  | none => rfl
  | some item => exact hRead item

theorem textsOf?_listValue? (texts : List String) :
    ((listValue? texts).bind textsOf?).getD [] = texts := by
  cases texts with
  | nil => rfl
  | cons text rest =>
      rw [listValue?, List.isEmpty_cons, if_neg Bool.false_ne_true, Option.bind_some,
        textsOf?_eq_some_iff.mpr rfl, Option.getD_some]

theorem withValues_value? {settings : Settings} (hFiles : settings.KeepsFiles) :
    ({} : Settings).withValues settings.value? = settings := by
  have hKept : settings.watchedFiles.bind objectOf? = settings.watchedFiles := by
    cases hSome : settings.watchedFiles with
    | none => rfl
    | some files =>
        obtain ⟨⟨members, rfl⟩, _⟩ := hFiles files hSome
        rfl
  have hText : ∀ text, textOf? (.string text) = some text := fun _ => rfl
  have hNumber : ∀ text, numberOf? (.string text) = some text := fun _ => rfl
  have hFlag : ∀ flag, flagOf? (.bool flag) = some flag := fun _ => rfl
  simp only [withValues, value?, map_bind_read hText, map_bind_read hNumber, map_bind_read hFlag,
    hKept, textsOf?_listValue?, Option.or_none]

theorem parse_text {settings : Settings} (hFiles : settings.KeepsFiles) :
    parse settings.text = .ok settings := by
  have hText : Value.ofText? settings.text = some (.object (mapOfMembers settings.members)) := by
    rw [text, toJson_eq]
    apply Value.ReadsBack.ofText?_object
    intro member hMember
    obtain ⟨setting, _, hValue⟩ := mem_members.mp hMember
    exact (value?_suits hFiles hValue).2
  refine parse_eq_ok_iff.mpr ⟨_, hText, ?_, ?_⟩
  · intro member hMember
    obtain ⟨setting, hName, hValue⟩ := mem_members.mp (mem_mapOfMembers hMember)
    exact ⟨setting, hName.symm, (value?_suits hFiles hValue).1⟩
  · simp only [lookup_mapOfMembers_of_nodup settings.nodup_members, lookup_members]
    exact (withValues_value? hFiles).symm

/-! ### Reading settings as a record -/

theorem fields?_toJson (settings : Settings) :
    settings.toJson.written.fields? fields =
      some (SettingKey.all.map fun setting => (settings.value? setting).map Value.written) := by
  have hDistinct : ((settings.members.map fun member =>
      (member.1, member.2.written)).map Prod.fst).Nodup := by
    rw [List.map_map]
    exact settings.nodup_members
  rw [toJson_eq, fields?_written, fields]
  -- Each field looks up its own name, so which members there are does not matter.
  generalize SettingKey.all = keys
  induction keys with
  | nil => rfl
  | cons setting rest ih =>
      rw [List.map_cons, List.mapM_cons, ih, pick?_eq_lookup hDistinct, lookup_map_written,
        lookup_members]
      rfl

/-- An object that is read as a record may leave out any setting. -/
theorem textField?_eq_optional (given : Option Document) :
    textField? given false = optional Document.string? given := by
  cases given <;> rfl

theorem textField?_written (text? : Option String) :
    textField? ((text?.map Value.string).map Value.written) false = some text? := by
  rw [textField?_eq_optional]
  apply optional_written
  intro text _
  exact ⟨string?_written text, fun hNull => by cases hNull⟩

theorem flag_written (flag? : Option Bool) :
    optional Document.bool? ((flag?.map Value.bool).map Value.written) = some flag? := by
  apply optional_written
  intro flag _
  exact ⟨bool?_written flag, fun hNull => by cases hNull⟩

theorem KeepsFiles.files_written {settings : Settings} (hFiles : settings.KeepsFiles) :
    optional (·.value? (nestingLimit - 1)) (settings.watchedFiles.map Value.written) =
      some settings.watchedFiles := by
  have hWritten : optional (·.value? (nestingLimit - 1))
      ((settings.watchedFiles.map id).map Value.written) = some settings.watchedFiles := by
    apply optional_written
    intro files hSome
    obtain ⟨⟨members, rfl⟩, hReads⟩ := hFiles files hSome
    exact ⟨hReads.value?_written, fun hNull => by cases hNull⟩
  rwa [Option.map_id_fun, id_eq] at hWritten

theorem texts_written (texts : List String) :
    orElse [] (·.list? Document.string?) ((listValue? texts).map Value.written) = some texts := by
  cases texts with
  | nil => rfl
  | cons text rest =>
      exact list?_written Document.string? Value.string string?_written (text :: rest)

theorem ofDocument?_written {settings : Settings} (hFiles : settings.KeepsFiles) :
    ofDocument? settings.toJson.written = some settings := by
  have hRecord : isArray settings.toJson.written = false := by
    rw [toJson_eq]
    rfl
  rw [ofDocument?, fields?_toJson, hRecord]
  simp only [SettingKey.all, List.map_cons, List.map_nil, value?, Option.bind_eq_bind,
    Option.bind_some, textField?_written, texts_written]
  refine Option.bind_eq_some_iff.mpr ⟨_, hFiles.files_written, ?_⟩
  exact Option.bind_eq_some_iff.mpr ⟨_, flag_written settings.isHttps, rfl⟩

theorem ofText?_text {settings : Settings} (hFiles : settings.KeepsFiles) :
    (Document.ofText? settings.text).bind ofDocument? = some settings := by
  have hWhole : settings.toJson.isWhole = true := by
    rw [toJson_eq, Value.isWhole, Value.haveWhole_iff]
    intro member hMember
    obtain ⟨setting, _, hValue⟩ := mem_members.mp hMember
    exact (value?_suits hFiles hValue).2.isWhole
  rw [text, Document.ofText?_text hWhole, Option.bind_some, ofDocument?_written hFiles]

/-! ### Settings that were accepted -/

theorem applyTo_applyTo (settings : Settings) (info : ProjectInfo) :
    settings.applyTo (settings.applyTo info) = settings.applyTo info := by
  unfold applyTo
  congr 1
  · cases settings.appPort <;> rfl
  · cases settings.debugPort <;> rfl
  · cases settings.contextRoot <;> rfl

/-- Settings that were accepted are what both readers read from the text that they are written as,
unless there are binary numbers in the watched files.  What is read again is written as the same
text and changes the same in every record, and nothing the second time. -/
theorem written_settings_read_back {text : String} {settings : Settings}
    (hParse : parse text = .ok settings)
    (hWhole : ∀ files, settings.watchedFiles = some files → files.isWhole = true) :
    parse settings.text = .ok settings ∧
      (Document.ofText? settings.text).bind ofDocument? = some settings ∧
      ∀ again, parse settings.text = .ok again ∨
          (Document.ofText? settings.text).bind ofDocument? = some again →
        again.text = settings.text ∧
          ∀ info, again.applyTo info = settings.applyTo info ∧
            again.changes info = settings.changes info ∧
            again.changes (again.applyTo info) = false := by
  have hFiles := keepsFiles_of_parse hParse hWhole
  refine ⟨parse_text hFiles, ofText?_text hFiles, ?_⟩
  intro again hAgain
  have hSame : again = settings := by
    rcases hAgain with hRead | hRead
    · rw [parse_text hFiles] at hRead
      exact (Except.ok.inj hRead).symm
    · rw [ofText?_text hFiles] at hRead
      exact (Option.some.inj hRead).symm
  rw [hSame]
  refine ⟨rfl, fun info => ⟨rfl, rfl, ?_⟩⟩
  rw [changes_eq_false_iff]
  exact settings.applyTo_applyTo info

/-- A port that is given as a number is written as a text, and an empty list is left out. -/
theorem written_settings_read_back_numericPort :
    let files : Value :=
      .object [("includeFiles", .array [.string "src"]), ("limit", .number (.int 3))]
    let settings : Settings := { appPort := some "9080", watchedFiles := some files }
    let text := "\x7b\"ignoredPaths\":[],\"internalAppPort\":9080,\"watchedFiles\":" ++
      "\x7b\"includeFiles\":[\"src\"],\"limit\":3\x7d\x7d"
    parse text = .ok settings ∧ files.isWhole = true ∧
      settings.text = "\x7b\"internalAppPort\":\"9080\",\"watchedFiles\":" ++
        "\x7b\"includeFiles\":[\"src\"],\"limit\":3\x7d\x7d" ∧
      parse settings.text = .ok settings ∧
      (Document.ofText? settings.text).bind ofDocument? = some settings := by
  intro files settings text
  have hParse : parse text = .ok settings := by
    let given : List (String × Value) :=
      [("ignoredPaths", .array []), ("internalAppPort", .number (.int 9080)),
        ("watchedFiles", files)]
    have hText : Value.ofText? text = some (.object given) := by
      have hSpelled : (Value.object given).text = text := by decide +kernel
      have hMap : IsMap given := by decide +kernel
      have hInner :
          IsMap [("includeFiles", .array [.string "src"]), ("limit", .number (.int 3))] := by
        decide +kernel
      have hTidy : Value.HaveTidy given :=
        ⟨trivial, fits_natural (by decide),
          ⟨hInner, ⟨trivial, trivial⟩, fits_natural (by decide), trivial⟩, trivial⟩
      rw [← hSpelled, Value.ofText?_object hTidy (by decide +kernel) (by decide +kernel),
        hMap.mapOfMembers_eq]
    exact parse_eq_ok_iff.mpr ⟨given, hText, by decide +kernel, rfl⟩
  have hWhole : files.isWhole = true := by decide +kernel
  have hBoth := written_settings_read_back hParse fun other hOther => by
    cases hOther
    exact hWhole
  exact ⟨hParse, hWhole, by decide +kernel, hBoth.1, hBoth.2.1⟩

end Settings

end BuildWatch
