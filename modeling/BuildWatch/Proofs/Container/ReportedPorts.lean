import BuildWatch.Container.Resolution
import BuildWatch.Proofs.Json.Members
import BuildWatch.Proofs.Json.Reading

/-!
Tables of ports as they are reported.  Each entry is read as one binding, in the order of the text
and with repeated keys; a host port is read alike by itself and as a member of an object.  Nothing
else is taken from such an object, but all of it must be readable.
-/

namespace BuildWatch

open BuildWatch.Json

theorem map_eq_of_forall₂ {α β γ : Type} {value : α → γ} {other : β → γ} {items : List α}
    {others : List β} (hSame : List.Forall₂ (fun item own => value item = other own) items others) :
    items.map value = others.map other := by
  rw [← List.forall₂_map_right_iff, ← List.forall₂_map_left_iff, List.forall₂_eq_eq_eq] at hSame
  exact hSame

/-! ### Reports of host ports -/

/-- A port of the host as it is reported: by itself, or by an object that need not name it. -/
inductive HostReport where
  | bare (port : String)
  | record (port? : Option String)
deriving Repr, DecidableEq

namespace HostReport

def port : HostReport → String
  | .bare port => port
  | .record port? => port?.getD ""

/-- A report that may have been replaced by its port. -/
inductive Bared : HostReport → HostReport → Prop
  | kept (report : HostReport) : Bared report report
  | bared (report : HostReport) : Bared report (.bare report.port)

theorem Bared.port_eq {report other : HostReport} (hBared : Bared report other) :
    report.port = other.port := by
  cases hBared with
  | kept => rfl
  | bared => rfl

/-- A member of an object that is not the port, and can be read. -/
def IsOther (room : Nat) (member : Literal × Document) : Prop :=
  member.1.text? ≠ some "HostPort" ∧ IsReadable room member

/-- The documents that spell a report.  An object may have other members before and after the port,
each with a value of at most `room` levels. -/
inductive SpelledAs (room : Nat) : HostReport → Document → Prop
  | bare {literal : Literal} {port : String} (hPort : literal.text? = some port) :
      SpelledAs room (.bare port) (.string literal)
  | unnamed {members : List (Literal × Document)}
      (hOthers : ∀ member ∈ members, IsOther room member) :
      SpelledAs room (.record none) (.object members)
  | named {before after : List (Literal × Document)} {key literal : Literal} {port : String}
      (hKey : key.text? = some "HostPort") (hPort : literal.text? = some port)
      (hOthers : ∀ member ∈ before ++ after, IsOther room member) :
      SpelledAs room (.record (some port)) (.object (before ++ (key, .string literal) :: after))

theorem value?_string {room : Nat} {literal : Literal} {port : String}
    (hPort : literal.text? = some port) :
    (Document.string literal).value? room = some (.string port) := by
  refine Document.value?_eq_some_iff.mpr ⟨Nat.zero_le room, ?_⟩
  rw [Value.ofDocument?, hPort, Option.map_some]

theorem read_bare {room : Nat} {literal : Literal} {port : String}
    (hPort : literal.text? = some port) :
    PortTable.hostPortOfDocument? room (.string literal) = some port := by
  rw [PortTable.hostPortOfDocument?, value?_string hPort]
  exact hPort

theorem read_record {room : Nat} {members : List (Literal × Document)}
    (hReadable : ∀ member ∈ members, IsReadable room member) {given : Option Document}
    (hGiven : ∀ keyed, keyedMembers? members = some keyed →
      ({ name := "HostPort" } : Field).pick? keyed = some given) :
    PortTable.hostPortOfDocument? (room + 1) (.object members) =
      orElse "" Document.string? given := by
  obtain ⟨value, hValue⟩ := exists_value?_object hReadable
  obtain ⟨keyed, hKeyed⟩ := exists_keyedMembers? hReadable
  simp [PortTable.hostPortOfDocument?, PortTable.hostFields, Document.fields?, hValue, hKeyed,
    hGiven keyed hKeyed]

theorem SpelledAs.read {room : Nat} {report : HostReport} {document : Document}
    (hSpelled : SpelledAs room report document) :
    PortTable.hostPortOfDocument? (room + 1) document = some report.port := by
  cases hSpelled with
  | bare hPort => exact read_bare hPort
  | unnamed hOthers =>
      have hGiven keyed (hKeyed : keyedMembers? _ = some keyed) :=
        pick?_of_lacking hKeyed fun member hMember => (hOthers member hMember).1
      exact read_record (fun member hMember => (hOthers member hMember).2) hGiven
  | @named before after key literal port hKey hPort hOthers =>
      have hReadable : ∀ member ∈ before ++ (key, .string literal) :: after,
          IsReadable room member := by
        obtain ⟨hBefore, hAfter⟩ := List.forall_mem_append.mp hOthers
        rw [List.forall_mem_append, List.forall_mem_cons]
        exact ⟨fun member hMember => (hBefore member hMember).2,
          ⟨⟨_, hKey⟩, _, value?_string hPort⟩, fun member hMember => (hAfter member hMember).2⟩
      have hGiven keyed (hKeyed : keyedMembers? (before ++ (key, .string literal) :: after) =
          some keyed) :=
        pick?_of_single hKeyed hKey fun member hMember => (hOthers member hMember).1
      rw [read_record hReadable hGiven]
      exact hPort

end HostReport

/-! ### Reports of tables -/

/-- An entry of a table as it is reported: a port of the container, and the ports of the host, if
there is a list of them. -/
structure PortReport where
  key : String
  hosts : Option (List HostReport)
deriving Repr, DecidableEq

namespace PortReport

def binding (report : PortReport) : PortBinding :=
  { key := report.key, hostPorts := (report.hosts.getD []).map HostReport.port }

def SpelledAs (room : Nat) (report : PortReport) (member : Literal × Document) : Prop :=
  member.1.text? = some report.key ∧
    match report.hosts with
    | none => member.2 = .null
    | some hosts =>
        ∃ items, member.2 = .array items ∧ List.Forall₂ (HostReport.SpelledAs room) hosts items

/-- An entry of which some host ports may have been replaced by their ports. -/
def Bared (report other : PortReport) : Prop :=
  report.key = other.key ∧ Option.Rel (List.Forall₂ HostReport.Bared) report.hosts other.hosts

theorem Bared.binding_eq {report other : PortReport} (hBared : Bared report other) :
    report.binding = other.binding := by
  obtain ⟨key, hosts⟩ := report
  obtain ⟨otherKey, otherHosts⟩ := other
  obtain ⟨hKey, hHosts⟩ := hBared
  obtain rfl : key = otherKey := hKey
  cases hHosts with
  | none => rfl
  | some hPorts =>
      have hSame := map_eq_of_forall₂ (hPorts.imp fun _ _ => HostReport.Bared.port_eq)
      exact congrArg (PortBinding.mk key) hSame

theorem SpelledAs.read {room : Nat} {report : PortReport} {member : Literal × Document}
    (hSpelled : SpelledAs room report member) :
    PortTable.bindingOfMember? (room + 1) member = some report.binding := by
  obtain ⟨key, hosts⟩ := report
  obtain ⟨literal, document⟩ := member
  obtain ⟨hKey, hHosts⟩ := hSpelled
  have hText : literal.text? = some key := hKey
  cases hosts with
  | none =>
      obtain rfl : document = .null := hHosts
      simp [PortTable.bindingOfMember?, hText, Document.orNull?, binding]
  | some hosts =>
      obtain ⟨items, hItems, hReports⟩ := hHosts
      obtain rfl : document = .array items := hItems
      have hRead := mapM_of_forall₂ hReports fun _ _ => HostReport.SpelledAs.read
      simp [PortTable.bindingOfMember?, hText, Document.orNull?, Document.list?, hRead, binding]

end PortReport

namespace PortTable

def ofReports (reports : List PortReport) : PortTable :=
  { bindings := reports.map PortReport.binding }

def SpelledAs (room : Nat) (reports : List PortReport) (document : Document) : Prop :=
  ∃ members, document = .object members ∧ List.Forall₂ (PortReport.SpelledAs room) reports members

theorem ofDocument?_of_spelledAs {room : Nat} {reports : List PortReport} {document : Document}
    (hSpelled : SpelledAs room reports document) :
    ofDocument? (room + 1) document = some (ofReports reports) := by
  obtain ⟨members, rfl, hMembers⟩ := hSpelled
  have hBindings := mapM_of_forall₂ hMembers fun _ _ => PortReport.SpelledAs.read
  rw [ofDocument?, hBindings, Option.map_some]
  rfl

def memberRoom : Nat := textRoom - 1

theorem ofText?_of_spelledAs {text : String} {document : Document} {reports : List PortReport}
    (hText : Document.ofText? text = some document)
    (hSpelled : SpelledAs memberRoom reports document) :
    ofText? text = some (ofReports reports) := by
  rw [ofText?, hText, Option.bind_eq_bind, Option.bind_some]
  exact ofDocument?_of_spelledAs hSpelled

/-- A text that spells some entries is read as one binding for each, in their order; a host port is
read by itself or out of its object.  Where an object is replaced by its port the table stays the
same, and so do the ports that are taken from it for any project.  A table is the same again when it
is built from its pairs. -/
theorem reported_ports_kept {text : String} {document : Document} {reports : List PortReport}
    (hText : Document.ofText? text = some document)
    (hSpelled : SpelledAs memberRoom reports document) :
    ofText? text = some (ofReports reports) ∧
      (∀ otherText otherDocument others, Document.ofText? otherText = some otherDocument →
        SpelledAs memberRoom others otherDocument → List.Forall₂ PortReport.Bared reports others →
          ofText? otherText = ofText? text ∧
            ∀ project, (ofText? otherText).map (·.resolve project) =
              (ofText? text).map (·.resolve project)) ∧
      ∀ table : PortTable, ofPairs table.pairs = table := by
  have hRead := ofText?_of_spelledAs hText hSpelled
  refine ⟨hRead, ?_, ofPairs_pairs⟩
  intro otherText otherDocument others hOtherText hOtherSpelled hBared
  have hBindings := map_eq_of_forall₂ (hBared.imp fun _ _ => PortReport.Bared.binding_eq)
  have hOther : ofText? otherText = ofText? text := by
    rw [hRead, ofText?_of_spelledAs hOtherText hOtherSpelled, ofReports, ofReports, hBindings]
  exact ⟨hOther, fun project => by rw [hOther]⟩

/-- A key stands twice, an object has an address beside its port, another one has no port. -/
theorem reported_ports_kept_allForms :
    let text := "\x7b\"9080/tcp\":[\x7b\"HostIp\":\"::\",\"HostPort\":\"32001\"\x7d,\"32002\"," ++
      "\x7b\x7d],\"8080/tcp\":null,\"9080/tcp\":[]\x7d"
    let bareText := "\x7b\"9080/tcp\":[\"32001\",\"32002\",\"\"]," ++
      "\"8080/tcp\":null,\"9080/tcp\":[]\x7d"
    let reports : List PortReport :=
      [{ key := "9080/tcp", hosts := some [.record (some "32001"), .bare "32002", .record none] },
        { key := "8080/tcp", hosts := none }, { key := "9080/tcp", hosts := some [] }]
    ofText? text = some (ofReports reports) ∧ ofText? bareText = ofText? text ∧
      (ofReports reports).pairs =
        [("9080/tcp", ["32001", "32002", ""]), ("8080/tcp", []), ("9080/tcp", [])] := by
  intro text bareText reports
  let others : List PortReport :=
    [{ key := "9080/tcp", hosts := some [.bare "32001", .bare "32002", .bare ""] },
      { key := "8080/tcp", hosts := none }, { key := "9080/tcp", hosts := some [] }]
  let given : Value :=
    .object [("9080/tcp", .array [.object [("HostIp", .string "::"), ("HostPort", .string "32001")],
        .string "32002", .object []]), ("8080/tcp", .null), ("9080/tcp", .array [])]
  let bareGiven : Value :=
    .object [("9080/tcp", .array [.string "32001", .string "32002", .string ""]),
      ("8080/tcp", .null), ("9080/tcp", .array [])]
  have hText : Document.ofText? text = some given.written := by
    have hShown : given.text = text := by decide +kernel
    rw [← hShown]
    exact Document.ofText?_text rfl
  have hBareText : Document.ofText? bareText = some bareGiven.written := by
    have hShown : bareGiven.text = bareText := by decide +kernel
    rw [← hShown]
    exact Document.ofText?_text rfl
  have hBare (port : String) : HostReport.SpelledAs memberRoom (.bare port)
      (Value.string port).written := .bare (text?_ofText port)
  have hNamed : HostReport.SpelledAs memberRoom (.record (some "32001"))
      (.object ([(Literal.ofText "HostIp", .string (Literal.ofText "::"))] ++
        (Literal.ofText "HostPort", .string (Literal.ofText "32001")) :: [])) := by
    refine .named (text?_ofText _) (text?_ofText _) (List.forall_mem_singleton.mpr ?_)
    exact ⟨by decide +kernel, ⟨_, text?_ofText _⟩, _, HostReport.value?_string (text?_ofText _)⟩
  have hUnnamed : HostReport.SpelledAs memberRoom (.record none) (.object []) :=
    .unnamed (List.forall_mem_nil _)
  have hRest : List.Forall₂ (PortReport.SpelledAs memberRoom)
      [{ key := "8080/tcp", hosts := none }, { key := "9080/tcp", hosts := some [] }]
      (Value.writtenMembers [("8080/tcp", .null), ("9080/tcp", .array [])]) :=
    .cons ⟨text?_ofText _, rfl⟩ (.cons ⟨text?_ofText _, [], rfl, .nil⟩ .nil)
  have hSpelled : SpelledAs memberRoom reports given.written :=
    ⟨_, rfl, .cons ⟨text?_ofText _, _, rfl,
      .cons hNamed (.cons (hBare "32002") (.cons hUnnamed .nil))⟩ hRest⟩
  have hBareSpelled : SpelledAs memberRoom others bareGiven.written :=
    ⟨_, rfl, .cons ⟨text?_ofText _, _, rfl,
      .cons (hBare "32001") (.cons (hBare "32002") (.cons (hBare "") .nil))⟩ hRest⟩
  have hBared : List.Forall₂ PortReport.Bared reports others :=
    .cons ⟨rfl, .some (.cons (.bared _) (.cons (.kept _) (.cons (.bared _) .nil)))⟩
      (.cons ⟨rfl, .none⟩ (.cons ⟨rfl, .some .nil⟩ .nil))
  obtain ⟨hRead, hSame, _⟩ := reported_ports_kept hText hSpelled
  exact ⟨hRead, (hSame bareText _ _ hBareText hBareSpelled hBared).1, rfl⟩

/-- A table is refused if the object of a host port has a number beyond the range of binary numbers,
although the number is not the port. -/
theorem unreadable_member_refused :
    let text := "\x7b\"8080/tcp\":[\x7b\"HostIp\":1e400,\"HostPort\":\"32000\"\x7d]\x7d"
    let address : Literal × Document := (Literal.ofText "HostIp",
      .number { negative := false, whole := [1], exponent := some (false, [4, 0, 0]) })
    let port : Literal × Document :=
      (Literal.ofText "HostPort", .string (Literal.ofText "32000"))
    let document : Document :=
      .object [(Literal.ofText "8080/tcp", .array [.object [address, port]])]
    let reports : List PortReport :=
      [{ key := "8080/tcp", hosts := some [.record (some "32000")] }]
    Document.ofText? text = some document ∧
      ofText? text = none ∧ ofText? text ≠ some (ofReports reports) := by
  intro text address port document reports
  have hNone : ofText? text = none := by decide +kernel
  refine ⟨Document.ofSource?_eq_some_iff.mpr (by decide +kernel), hNone, ?_⟩
  rw [hNone]
  exact Option.some_ne_none _ ∘ Eq.symm

end PortTable

end BuildWatch
