import BuildWatch.Proofs.Json.Members
import BuildWatch.Proofs.Json.Reading
import BuildWatch.Proofs.Project.Record

/-!
Records and the texts they are read from.  A record that was read is read again, as it is, from both
texts that it is written as; its ports stand in the order in which they were given, each with the
digits that were given for it.
-/

namespace BuildWatch.ProjectInfo

open BuildWatch.Json

theorem ofText?_text (info : ProjectInfo) : ofText? info.text = some info.asRead := by
  rw [ofText?, text, Document.ofText?_text info.isWhole_toJson, Option.bind_eq_bind,
    Option.bind_some, ofDocument?_written]

/-! ### Ports as they are given -/

/-- A port is given as a text, or as a number with the digits of the port. -/
def SpellsPort (port : String) : Document → Prop
  | .string literal => literal.text? = some port
  | .number literal =>
      (∀ char ∈ port.toList, char.isDigit = true) ∧
        NumberLiteral.ofWord? port.toList = some literal
  | _ => False

/-- The ports of the application that a record gives, by their name or by their position. -/
def GivesPorts (items : List Document) : Document → Prop
  | .object members => ∃ key, (key, .array items) ∈ members ∧ key.text? = some "appPorts"
  | .array values => values[5]? = some (.array items)
  | _ => False

theorem toList_toString (value : Nat) : (toString value).toList = digitsOf value := by
  simp [digitsOf]

theorem spellsPort_of_natural {literal : NumberLiteral} {word : List Char}
    (hWord : NumberLiteral.ofWord? word = some literal) {value : Nat}
    (hValue : (Document.number literal).naturalBelow? (Nat.pow 2 64) = some value) :
    SpellsPort (toString value) (.number literal) := by
  have hNumber : literal.number? = some (.int value) := by
    unfold Document.naturalBelow? at hValue
    dsimp only at hValue
    split at hValue
    · next number hNumber =>
        split at hValue
        · next hSize =>
            rw [hNumber, ← Option.some.inj hValue, Int.toNat_of_nonneg hSize.1]
        · cases hValue
    · cases hValue
  have hDigits := eq_digitsOf_of_ofWord? hWord hNumber
  rw [SpellsPort, toList_toString, ← hDigits]
  refine ⟨?_, hWord⟩
  rw [hDigits]
  exact fun char => isDigit_of_mem_digitsOf

theorem spellsPort_of_portOfDocument? {document : Document} {port : String}
    (hSpelled : ∀ literal, document = .number literal →
      ∃ word, NumberLiteral.ofWord? word = some literal)
    (hPort : portOfDocument? document = some port) : SpellsPort port document := by
  cases document with
  | string literal =>
      unfold portOfDocument? at hPort
      split at hPort
      · next text hText =>
          rw [← Option.some.inj hPort]
          exact hText
      · cases hPort
  | number literal =>
      obtain ⟨word, hWord⟩ := hSpelled literal rfl
      obtain ⟨value, hValue, rfl⟩ := Option.map_eq_some_iff.mp hPort
      exact spellsPort_of_natural hWord hValue
  | null => cases hPort
  | bool => cases hPort
  | array => cases hPort
  | object => cases hPort

theorem fields?_of_givesPorts {document : Document} {items : List Document}
    (hGives : GivesPorts items document) {given : List (Option Document)}
    (hGiven : document.fields? fields = some given) : given[5]? = some (some (.array items)) := by
  cases document with
  | object members =>
      obtain ⟨key, hMember, hKey⟩ := hGives
      obtain ⟨keyed, hKeyed, hGiven⟩ := Option.bind_eq_some_iff.mp hGiven
      have hFields := mapM_eq_some_iff.mp hGiven
      have hLength : 5 < given.length := by
        rw [← hFields.length_eq]
        decide
      have hPicked := hFields.get (i := 5) (by decide) hLength
      rw [List.getElem?_eq_getElem hLength]
      exact congrArg some (pick?_of_mem hKeyed hMember hKey hPicked)
  | array values =>
      have hSixth : values[5]? = some (.array items) := hGives
      obtain ⟨hLength, _⟩ := List.getElem?_eq_some_iff.mp hSixth
      unfold Document.fields? at hGiven
      dsimp only at hGiven
      split at hGiven
      · rw [← Option.some.inj hGiven, List.getElem?_append_left (by simpa using hLength),
          List.getElem?_map, hSixth, Option.map_some]
      · cases hGiven
  | null => cases hGives
  | bool => cases hGives
  | number => cases hGives
  | string => cases hGives

theorem portsOfDocument?_given {document : Document} {info : ProjectInfo} {items : List Document}
    (hInfo : ofDocument? document = some info) (hGives : GivesPorts items document) :
    items.mapM portOfDocument? = some info.appPorts := by
  obtain ⟨given, hGiven⟩ := exists_given hInfo
  have hSixth : given.appPorts = some (.array items) :=
    Option.some.inj (fields?_of_givesPorts hGives hGiven)
  have hPorts := given.appPorts_read
  rw [hSixth] at hPorts
  obtain ⟨read, hRead, hPorts⟩ := Option.map_eq_some_iff.mp hPorts
  obtain ⟨texts, hTexts, rfl⟩ := Option.map_eq_some_iff.mp hRead
  rw [← hPorts]
  exact hTexts

theorem mem_tokens_of_givesPorts {document item : Document} {items : List Document} {token : Token}
    (hGives : GivesPorts items document) (hItem : item ∈ items) (hToken : token ∈ item.tokens) :
    token ∈ document.tokens := by
  have hItems := Document.mem_tokens_array hItem hToken
  cases document with
  | object members =>
      obtain ⟨key, hMember, _⟩ := hGives
      exact Document.mem_tokens_object hMember hItems
  | array values => exact Document.mem_tokens_array (List.mem_of_getElem? hGives) hItems
  | null => cases hGives
  | bool => cases hGives
  | number => cases hGives
  | string => cases hGives

theorem spellsPort_of_ofText? {text : String} {info : ProjectInfo} {document : Document}
    {items : List Document} (hText : ofText? text = some info)
    (hDocument : Document.ofText? text = some document) (hGives : GivesPorts items document) :
    List.Forall₂ (fun item port => SpellsPort port item) items info.appPorts := by
  obtain ⟨read, hRead, hInfo⟩ := Option.bind_eq_some_iff.mp hText
  obtain rfl := Option.some.inj (hRead.symm.trans hDocument)
  have hPorts := mapM_eq_some_iff.mp (portsOfDocument?_given hInfo hGives)
  have hPlaces := (List.forall₂_and_left items _).mpr ⟨fun _ hItem => hItem, hPorts⟩
  refine hPlaces.imp ?_
  rintro item port ⟨hItem, hPort⟩
  refine spellsPort_of_portOfDocument? ?_ hPort
  rintro literal rfl
  exact NumberLiteral.spelled_of_mem_tokens hRead
    (mem_tokens_of_givesPorts hGives hItem (List.mem_singleton.mpr rfl))

theorem debugPort_ne_empty {info : ProjectInfo} (hRead : info.asRead = info) :
    info.debugPort ≠ some "" := by
  have hPort : info.debugPort.filter (fun port => !port.isEmpty) = info.debugPort :=
    congrArg debugPort hRead
  intro hEmpty
  rw [hEmpty] at hPort
  cases hPort

/-! ### Records that are read again -/

/-- A record that was read is read again, as it is, from the compact and from the indented text that
it is written as, so that it is written as the same texts again.  Its application ports are those
that were given, in their order and with their digits, and it has no empty debug port. -/
theorem record_reads_back {text : String} {info : ProjectInfo} (hText : ofText? text = some info) :
    ofText? info.text = some info ∧ ofText? info.fileText = some info ∧
      (∀ again, ofText? info.text = some again ∨ ofText? info.fileText = some again →
        again.text = info.text ∧ again.fileText = info.fileText) ∧
      (∀ document items, Document.ofText? text = some document → GivesPorts items document →
        List.Forall₂ (fun item port => SpellsPort port item) items info.appPorts) ∧
      info.debugPort ≠ some "" := by
  have hSame := asRead_of_ofText? hText
  have hCompact : ofText? info.text = some info := by rw [ofText?_text, hSame]
  have hIndented : ofText? info.fileText = some info := by rw [ofText?_fileText, hSame]
  refine ⟨hCompact, hIndented, ?_, ?_, debugPort_ne_empty hSame⟩
  · intro again hAgain
    rw [hCompact, hIndented, or_self] at hAgain
    obtain rfl := Option.some.inj hAgain
    exact ⟨rfl, rfl⟩
  · intro document items
    exact spellsPort_of_ofText? hText

/-- The ports are given as a number and as a text, the debug port as an empty text. -/
theorem record_reads_back_bothKindsOfPort :
    let text := "\x7b\"appPorts\":[3000,\"9080\"],\"location\":\"/w\",\"debugPort\":\"\"," ++
      "\"startMode\":\x7b\"debug\":null\x7d,\"projectType\":\"nodejs\",\"projectID\":\"p\"\x7d"
    let ports : List Value := [.number (.int 3000), .string "9080"]
    let info : ProjectInfo :=
      { id := "p", kind := "nodejs", location := "/w", appPorts := ["3000", "9080"],
        startMode := .debug }
    ofText? text = some info ∧ ofText? info.text = some info ∧
      ofText? info.fileText = some info ∧
      List.Forall₂ (fun item port => SpellsPort port item) (ports.map Value.written)
        info.appPorts := by
  intro text ports info
  have hText : ofText? text = some info := by decide +kernel
  let given : Value :=
    .object [("appPorts", .array ports), ("location", .string "/w"), ("debugPort", .string ""),
      ("startMode", .object [("debug", .null)]), ("projectType", .string "nodejs"),
      ("projectID", .string "p")]
  have hDocument : Document.ofText? text = some given.written := by
    have hSpelled : given.text = text := by decide +kernel
    rw [← hSpelled]
    exact Document.ofText?_text rfl
  have hGives : GivesPorts (ports.map Value.written) given.written :=
    ⟨Literal.ofText "appPorts", List.mem_cons_self, text?_ofText "appPorts"⟩
  obtain ⟨hCompact, hIndented, _, hPorts, _⟩ := record_reads_back hText
  exact ⟨hText, hCompact, hIndented, hPorts _ _ hDocument hGives⟩

end BuildWatch.ProjectInfo
