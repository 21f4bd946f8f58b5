import BuildWatch.Container.Resolution

/-!
Which published ports are taken for a project.  A declared port answers if the first binding of it
is published.  The first declared port that answers is taken, and a binding is taken by its position
only if none does; so every port that is given for a project stands in the table.
-/

namespace BuildWatch

theorem exists_first {α : Type} {good : α → Prop} [DecidablePred good] {items : List α}
    (hSome : ∃ item ∈ items, good item) :
    ∃ before item after, items = before ++ item :: after ∧
      (∀ earlier ∈ before, ¬ good earlier) ∧ good item := by
  have hFound : (items.find? (fun item => decide (good item))).isSome = true := by
    simpa only [List.find?_isSome, decide_eq_true_eq] using hSome
  obtain ⟨item, hItem⟩ := Option.isSome_iff_exists.mp hFound
  obtain ⟨hGood, before, after, hItems, hEarlier⟩ := List.find?_eq_some_iff_append.mp hItem
  refine ⟨before, item, after, hItems, ?_, of_decide_eq_true hGood⟩
  intro earlier hBefore
  simpa using hEarlier earlier hBefore

/-! ### Bindings -/

namespace PortBinding

/-- A binding is published on its first port of the host, unless that one is empty. -/
def IsPublishedOn (binding : PortBinding) (host : String) : Prop :=
  binding.hostPorts.head? = some host ∧ host ≠ ""

theorem hostPort?_eq_some_iff {binding : PortBinding} {host : String} :
    binding.hostPort? = some host ↔ binding.IsPublishedOn host := by
  rw [hostPort?, Option.filter_eq_some_iff, IsPublishedOn]
  simp

theorem hostPort?_eq_none_iff {binding : PortBinding} :
    binding.hostPort? = none ↔ ∀ host, ¬ binding.IsPublishedOn host := by
  simp only [← hostPort?_eq_some_iff, Option.eq_none_iff_forall_ne_some, ne_eq]

instance (binding : PortBinding) (host : String) : Decidable (binding.IsPublishedOn host) :=
  inferInstanceAs (Decidable (_ ∧ _))

instance (binding : PortBinding) : Decidable (∃ host, binding.IsPublishedOn host) :=
  decidable_of_iff (binding.hostPort?.isSome = true) (by
    simp only [Option.isSome_iff_exists, hostPort?_eq_some_iff])

end PortBinding

/-- The ports of the application are those of a binding; there are none if it is not published. -/
structure ResolvedPorts.AreOf (ports : ResolvedPorts) (binding : PortBinding) : Prop where
  published : ∀ host, binding.IsPublishedOn host →
    ports.internalPort = some binding.internalPort ∧ ports.exposedPort = some host
  unpublished : (∀ host, ¬ binding.IsPublishedOn host) →
    ports.internalPort = none ∧ ports.exposedPort = none

namespace PortTable

variable {table : PortTable} {project : ProjectInfo} {port host : String}

def Publishes (table : PortTable) (port : String) : Prop :=
  ∃ binding ∈ table.bindings, binding.internalPort = port ∧ ∃ host, binding.IsPublishedOn host

instance (table : PortTable) (port : String) : Decidable (table.Publishes port) :=
  inferInstanceAs (Decidable (∃ binding ∈ table.bindings, _ ∧ _))

def Answers (table : PortTable) (port host : String) : Prop :=
  ∃ before binding after, table.bindings = before ++ binding :: after ∧
    (∀ earlier ∈ before, earlier.internalPort ≠ port) ∧
    binding.internalPort = port ∧ binding.IsPublishedOn host

/-! ### Declared ports -/

theorem find?_eq_some_iff {binding : PortBinding} :
    table.find? port = some binding ↔
      ∃ before after, table.bindings = before ++ binding :: after ∧
        (∀ earlier ∈ before, earlier.internalPort ≠ port) ∧ binding.internalPort = port := by
  rw [find?, List.find?_eq_some_iff_append]
  simp only [beq_iff_eq, Bool.not_eq_true', beq_eq_false_iff_ne]
  constructor
  · rintro ⟨hPort, before, after, hBindings, hEarlier⟩
    exact ⟨before, after, hBindings, hEarlier, hPort⟩
  · rintro ⟨before, after, hBindings, hEarlier, hPort⟩
    exact ⟨hPort, before, after, hBindings, hEarlier⟩

theorem mem_of_find? {binding : PortBinding} (hFound : table.find? port = some binding) :
    binding ∈ table.bindings ∧ binding.internalPort = port := by
  obtain ⟨before, after, hBindings, _, hPort⟩ := find?_eq_some_iff.mp hFound
  rw [hBindings]
  exact ⟨List.mem_append_right before List.mem_cons_self, hPort⟩

theorem publishedPair?_eq_some_iff {pair : String × String} :
    table.publishedPair? port = some pair ↔ pair.1 = port ∧ table.Answers port pair.2 := by
  obtain ⟨own, host⟩ := pair
  simp only [publishedPair?, Option.bind_eq_bind, Option.bind_eq_some_iff, Option.pure_def,
    Option.some.injEq, Prod.mk.injEq, PortBinding.hostPort?_eq_some_iff, find?_eq_some_iff]
  constructor
  · rintro ⟨binding, ⟨before, after, hBindings, hEarlier, hPort⟩, host, hHost, rfl, rfl⟩
    exact ⟨rfl, before, binding, after, hBindings, hEarlier, hPort, hHost⟩
  · rintro ⟨rfl, before, binding, after, hBindings, hEarlier, hPort, hHost⟩
    exact ⟨binding, ⟨before, after, hBindings, hEarlier, hPort⟩, host, hHost, rfl, rfl⟩

instance (table : PortTable) (port host : String) : Decidable (table.Answers port host) :=
  decidable_of_iff (table.publishedPair? port = some (port, host)) (by
    rw [publishedPair?_eq_some_iff, eq_self, true_and])

theorem publishedPair?_eq_none_iff :
    table.publishedPair? port = none ↔ ∀ host, ¬ table.Answers port host := by
  rw [Option.eq_none_iff_forall_ne_some]
  constructor
  · intro hNone host hAnswers
    exact hNone (port, host) (publishedPair?_eq_some_iff.mpr ⟨rfl, hAnswers⟩)
  · intro hSilent pair hPair
    exact hSilent pair.2 (publishedPair?_eq_some_iff.mp hPair).2

theorem declaredPair?_of_answers {before after : List String}
    (hDeclared : project.appPorts = before ++ port :: after)
    (hSilent : ∀ earlier ∈ before, ∀ other, ¬ table.Answers earlier other)
    (hAnswers : table.Answers port host) : table.declaredPair? project = some (port, host) := by
  rw [declaredPair?, List.findSome?_eq_some_iff]
  refine ⟨before, port, after, hDeclared, publishedPair?_eq_some_iff.mpr ⟨rfl, hAnswers⟩, ?_⟩
  intro earlier hEarlier
  exact publishedPair?_eq_none_iff.mpr (hSilent earlier hEarlier)

theorem declaredPair?_eq_none_iff :
    table.declaredPair? project = none ↔
      ∀ port ∈ project.appPorts, ∀ host, ¬ table.Answers port host := by
  simp only [declaredPair?, List.findSome?_eq_none_iff, publishedPair?_eq_none_iff]

theorem of_declaredPair? {pair : String × String}
    (hPair : table.declaredPair? project = some pair) : table.Answers pair.1 pair.2 := by
  obtain ⟨_, port, _, _, hPublished, _⟩ := List.findSome?_eq_some_iff.mp hPair
  obtain ⟨rfl, hAnswers⟩ := publishedPair?_eq_some_iff.mp hPublished
  exact hAnswers

theorem Answers.exists_binding (hAnswers : table.Answers port host) :
    ∃ binding ∈ table.bindings, binding.internalPort = port ∧ binding.IsPublishedOn host := by
  obtain ⟨before, binding, after, hBindings, _, hPort, hHost⟩ := hAnswers
  refine ⟨binding, ?_, hPort, hHost⟩
  rw [hBindings]
  exact List.mem_append_right before List.mem_cons_self

theorem Answers.publishes (hAnswers : table.Answers port host) : table.Publishes port := by
  obtain ⟨binding, hBinding, hPort, hHost⟩ := hAnswers.exists_binding
  exact ⟨binding, hBinding, hPort, host, hHost⟩

/-! ### Bindings that are taken by their position -/

theorem positional?_of_first {first : PortBinding} {rest : List PortBinding}
    (hBindings : table.bindings = first :: rest) {debugPort : Option String}
    (hFirst : debugPort ≠ some first.internalPort ∨ rest = []) :
    table.positional? debugPort = some first := by
  rw [positional?, hBindings]
  cases rest with
  | nil => rfl
  | cons second rest =>
      have hOther := hFirst.resolve_right (List.cons_ne_nil second rest)
      exact if_neg hOther

theorem positional?_of_second {first second : PortBinding} {rest : List PortBinding}
    (hBindings : table.bindings = first :: second :: rest) {debugPort : Option String}
    (hFirst : debugPort = some first.internalPort) : table.positional? debugPort = some second := by
  rw [positional?, hBindings]
  exact if_pos hFirst

theorem mem_of_positional? {debugPort : Option String} {binding : PortBinding}
    (hBinding : table.positional? debugPort = some binding) : binding ∈ table.bindings := by
  unfold positional? at hBinding
  split at hBinding
  · next first second rest hBindings =>
      rw [hBindings]
      split at hBinding
      · rw [← Option.some.inj hBinding]
        exact List.mem_cons_of_mem first List.mem_cons_self
      · rw [← Option.some.inj hBinding]
        exact List.mem_cons_self
  · exact List.mem_of_mem_head? hBinding

theorem positionalPair?_of_published {binding : PortBinding}
    (hBinding : table.positional? project.debugPort = some binding)
    (hHost : binding.IsPublishedOn host) :
    table.positionalPair? project = some (binding.internalPort, host) := by
  rw [positionalPair?, hBinding, Option.bind_eq_bind, Option.bind_some,
    PortBinding.hostPort?_eq_some_iff.mpr hHost]
  rfl

theorem positionalPair?_of_unpublished {binding : PortBinding}
    (hBinding : table.positional? project.debugPort = some binding)
    (hHost : ∀ host, ¬ binding.IsPublishedOn host) : table.positionalPair? project = none := by
  rw [positionalPair?, hBinding, Option.bind_eq_bind, Option.bind_some,
    PortBinding.hostPort?_eq_none_iff.mpr hHost]
  rfl

theorem of_positionalPair? {pair : String × String}
    (hPair : table.positionalPair? project = some pair) :
    ∃ binding ∈ table.bindings, binding.internalPort = pair.1 ∧ binding.IsPublishedOn pair.2 := by
  obtain ⟨binding, hBinding, hPair⟩ := Option.bind_eq_some_iff.mp hPair
  obtain ⟨host, hHost, hPair⟩ := Option.bind_eq_some_iff.mp hPair
  obtain rfl := Option.some.inj hPair
  exact ⟨binding, mem_of_positional? hBinding, rfl, PortBinding.hostPort?_eq_some_iff.mp hHost⟩

/-! ### The ports of the application -/

theorem resolve_of_appPair? {pair : String × String}
    (hPair : table.appPair? project = some pair) :
    (table.resolve project).internalPort = some pair.1 ∧
      (table.resolve project).exposedPort = some pair.2 := by
  simp only [resolve, hPair, Option.map_some, and_self]

theorem resolve_of_no_appPair? (hPair : table.appPair? project = none) :
    (table.resolve project).internalPort = none ∧
      (table.resolve project).exposedPort = none := by
  simp only [resolve, hPair, Option.map_none, and_self]

/-- The ports of the application depend on nothing but the pair that is taken. -/
theorem resolve_congr {other : ProjectInfo}
    (hSame : table.appPair? other = table.appPair? project) :
    (table.resolve other).internalPort = (table.resolve project).internalPort ∧
      (table.resolve other).exposedPort = (table.resolve project).exposedPort := by
  simp only [resolve, hSame, and_self]

theorem of_appPair? {pair : String × String} (hPair : table.appPair? project = some pair) :
    ∃ binding ∈ table.bindings, binding.internalPort = pair.1 ∧ binding.IsPublishedOn pair.2 := by
  rcases Option.or_eq_some_iff.mp hPair with hDeclared | ⟨_, hPositional⟩
  · exact (of_declaredPair? hDeclared).exists_binding
  · exact of_positionalPair? hPositional

theorem resolve_of_answers {before after : List String}
    (hDeclared : project.appPorts = before ++ port :: after)
    (hSilent : ∀ earlier ∈ before, ∀ other, ¬ table.Answers earlier other)
    (hAnswers : table.Answers port host) :
    (table.resolve project).internalPort = some port ∧
      (table.resolve project).exposedPort = some host := by
  have hPair : table.appPair? project = some (port, host) := by
    rw [appPair?, declaredPair?_of_answers hDeclared hSilent hAnswers, Option.some_or]
  exact resolve_of_appPair? hPair

theorem appPair?_of_silent
    (hSilent : ∀ port ∈ project.appPorts, ∀ host, ¬ table.Answers port host) :
    table.appPair? project = table.positionalPair? project := by
  rw [appPair?, declaredPair?_eq_none_iff.mpr hSilent, Option.none_or]

theorem resolve_of_positional? {binding : PortBinding}
    (hSilent : ∀ port ∈ project.appPorts, ∀ host, ¬ table.Answers port host)
    (hBinding : table.positional? project.debugPort = some binding) :
    (table.resolve project).AreOf binding := by
  have hPair := appPair?_of_silent hSilent
  constructor
  · intro host hHost
    rw [positionalPair?_of_published hBinding hHost] at hPair
    exact resolve_of_appPair? hPair
  · intro hHost
    rw [positionalPair?_of_unpublished hBinding hHost] at hPair
    exact resolve_of_no_appPair? hPair

theorem resolve_of_no_bindings (hBindings : table.bindings = []) :
    (table.resolve project).internalPort = none ∧
      (table.resolve project).exposedPort = none := by
  apply resolve_of_no_appPair?
  cases hPair : table.appPair? project with
  | none => rfl
  | some pair =>
      obtain ⟨binding, hBinding, _⟩ := of_appPair? hPair
      rw [hBindings] at hBinding
      cases hBinding

/-! ### The ports of the debugger -/

theorem debugBinding?_eq_some {pair : String × PortBinding}
    (hPair : table.debugBinding? project = some pair) :
    project.startMode.isDebug = true ∧ project.debugPort = some pair.1 ∧
      table.find? pair.1 = some pair.2 := by
  unfold debugBinding? at hPair
  split at hPair
  · next hMode =>
      obtain ⟨port, hPort, hPair⟩ := Option.bind_eq_some_iff.mp hPair
      obtain ⟨binding, hBinding, hPair⟩ := Option.bind_eq_some_iff.mp hPair
      obtain rfl := Option.some.inj hPair
      exact ⟨hMode, hPort, hBinding⟩
  · cases hPair

theorem exposedDebugPort_eq_some {exposed : String}
    (hExposed : (table.resolve project).exposedDebugPort = some exposed) :
    ∃ binding ∈ table.bindings, project.debugPort = some binding.internalPort ∧
      binding.IsPublishedOn exposed := by
  obtain ⟨pair, hPair, hHost⟩ := Option.bind_eq_some_iff.mp hExposed
  obtain ⟨_, hDeclared, hFound⟩ := debugBinding?_eq_some hPair
  obtain ⟨hBinding, hPort⟩ := mem_of_find? hFound
  rw [← hPort] at hDeclared
  exact ⟨pair.2, hBinding, hDeclared, PortBinding.hostPort?_eq_some_iff.mp hHost⟩

theorem no_debugPorts_of_run (hMode : project.startMode = .run) :
    (table.resolve project).internalDebugPort = none ∧
      (table.resolve project).exposedDebugPort = none := by
  have hNone : table.debugBinding? project = none := by
    rw [debugBinding?, hMode]
    rfl
  simp only [resolve, hNone, Option.map_none, Option.bind_none, and_self]

/-! ### Priority -/

/-- The ports of an application are both given or both missing, and stand in the table as a binding
and the first of its host ports; so does the exposed debug port, which is given in a debug mode
only.  The first declared port that answers is taken, whatever is declared after it and whatever the
start mode.  Where none answers the first binding is taken, or the second if the first is that of the
declared debug port; there are no ports if that binding is not published. -/
theorem ports_taken_by_priority (table : PortTable) (project : ProjectInfo) :
    let ports := table.resolve project
    (ports.internalPort = none ↔ ports.exposedPort = none) ∧
    (∀ internal exposed, ports.internalPort = some internal → ports.exposedPort = some exposed →
      ∃ binding ∈ table.bindings, binding.internalPort = internal ∧
        binding.IsPublishedOn exposed) ∧
    (∀ exposed, ports.exposedDebugPort = some exposed →
      ∃ binding ∈ table.bindings, project.debugPort = some binding.internalPort ∧
        binding.IsPublishedOn exposed) ∧
    (ports.internalDebugPort ≠ none ∨ ports.exposedDebugPort ≠ none →
      project.startMode = .debug ∨ project.startMode = .debugNoInit) ∧
    (∀ mode, (table.resolve { project with startMode := mode }).internalPort = ports.internalPort ∧
      (table.resolve { project with startMode := mode }).exposedPort = ports.exposedPort) ∧
    (∀ before port after host, project.appPorts = before ++ port :: after →
      (∀ earlier ∈ before, ∀ other, ¬ table.Answers earlier other) → table.Answers port host →
        ∀ later, let others := table.resolve { project with appPorts := before ++ port :: later }
          others.internalPort = some port ∧ others.exposedPort = some host) ∧
    ((∀ port ∈ project.appPorts, ∀ host, ¬ table.Answers port host) →
      (table.bindings = [] → ports.internalPort = none ∧ ports.exposedPort = none) ∧
      (∀ first rest, table.bindings = first :: rest →
        project.debugPort ≠ some first.internalPort ∨ rest = [] → ports.AreOf first) ∧
      (∀ first second rest, table.bindings = first :: second :: rest →
        project.debugPort = some first.internalPort → ports.AreOf second)) ∧
    ports.containerPorts = table.bindings.map PortBinding.internalPort := by
  intro ports
  refine ⟨?_, ?_, fun _ => exposedDebugPort_eq_some, ?_, ?_, ?_, ?_, rfl⟩
  · simp only [ports, resolve, Option.map_eq_none_iff]
  · intro internal exposed hInternal hExposed
    obtain ⟨pair, hPair, rfl⟩ := Option.map_eq_some_iff.mp hInternal
    obtain ⟨same, hSame, rfl⟩ := Option.map_eq_some_iff.mp hExposed
    obtain rfl := Option.some.inj (hPair.symm.trans hSame)
    exact of_appPair? hPair
  · intro hDebug
    cases hMode : project.startMode with
    | run =>
        obtain ⟨hInternal, hExposed⟩ : ports.internalDebugPort = none ∧
            ports.exposedDebugPort = none := no_debugPorts_of_run hMode
        exact absurd hDebug (by simp [hInternal, hExposed])
    | debug => exact Or.inl rfl
    | debugNoInit => exact Or.inr rfl
  · intro mode
    exact resolve_congr rfl
  · intro before port after host _ hSilent hAnswers later
    exact resolve_of_answers rfl hSilent hAnswers
  · intro hSilent
    refine ⟨resolve_of_no_bindings, ?_, ?_⟩
    · intro first rest hBindings hFirst
      exact resolve_of_positional? hSilent (positional?_of_first hBindings hFirst)
    · intro first second rest hBindings hFirst
      exact resolve_of_positional? hSilent (positional?_of_second hBindings hFirst)

/-- The first binding stands for the debug port, the second is not published, and the port of the
second is published by the third only. -/
theorem ports_taken_by_priority_besideDebugPort :
    let table := ofPairs [("7777/tcp", ["32010"]), ("9080/tcp", []), ("9080/udp", ["32012"]),
      ("8080/tcp", ["32011", "32013"])]
    let project : ProjectInfo :=
      { id := "p", kind := "docker", location := "/p", appPorts := ["9080", "8080"],
        debugPort := some "7777", startMode := .debug }
    let undeclared : ProjectInfo := { project with appPorts := ["9080"] }
    (∀ host, ¬ table.Answers "9080" host) ∧ table.Answers "8080" "32011" ∧
      (∀ later, (table.resolve { project with appPorts := "9080" :: "8080" :: later }).exposedPort =
        some "32011") ∧
      (∃ binding ∈ table.bindings, project.debugPort = some binding.internalPort ∧
        binding.IsPublishedOn "32010") ∧
      (table.resolve undeclared).internalPort = none := by
  intro table project undeclared
  have hSilent : ∀ host, ¬ table.Answers "9080" host :=
    publishedPair?_eq_none_iff.mp (by decide +kernel)
  have hAnswers : table.Answers "8080" "32011" := by
    decide +kernel
  obtain ⟨_, _, hDebug, _, _, hFirst, _, _⟩ := ports_taken_by_priority table project
  obtain ⟨_, _, _, _, _, _, hNone, _⟩ := ports_taken_by_priority table undeclared
  refine ⟨hSilent, hAnswers, ?_, hDebug "32010" (by decide +kernel), ?_⟩
  · intro later
    refine (hFirst ["9080"] "8080" [] "32011" rfl ?_ hAnswers later).2
    intro earlier hEarlier
    rw [List.mem_singleton.mp hEarlier]
    exact hSilent
  · have hAlone : ∀ port ∈ undeclared.appPorts, ∀ host, ¬ table.Answers port host := by
      intro port hPort
      rw [List.mem_singleton.mp hPort]
      exact hSilent
    have hSecond := (hNone hAlone).2.2 _ _ _ rfl (by decide +kernel)
    exact (hSecond.unpublished (PortBinding.hostPort?_eq_none_iff.mp rfl)).1

/-! ### Declared ports that are published -/

theorem declaredPair?_of_silent {before after : List String}
    (hDeclared : project.appPorts = before ++ after)
    (hSilent : ∀ port ∈ before, ∀ host, ¬ table.Answers port host) :
    table.declaredPair? project = table.declaredPair? { project with appPorts := after } := by
  have hBefore : before.findSome? table.publishedPair? = none := by
    rw [List.findSome?_eq_none_iff]
    exact fun port hPort => publishedPair?_eq_none_iff.mpr (hSilent port hPort)
  rw [declaredPair?, hDeclared, List.findSome?_append, hBefore, Option.none_or]
  rfl

/-- If a declared port is published, the first one that is published is taken with the host port of
one of its bindings, unless the first of its bindings is not published: then it is passed over, and
the ports are those of a project that declares only what follows it. -/
theorem published_declared_port_found (table : PortTable) (project : ProjectInfo)
    (hSome : ∃ port ∈ project.appPorts, table.Publishes port) :
    ∃ before port after, project.appPorts = before ++ port :: after ∧
      (∀ earlier ∈ before, ¬ table.Publishes earlier) ∧ table.Publishes port ∧
      ((∃ host, table.Answers port host) →
        (table.resolve project).internalPort = some port ∧
          ∃ binding ∈ table.bindings, binding.internalPort = port ∧
            ∃ host, binding.IsPublishedOn host ∧
              (table.resolve project).exposedPort = some host) ∧
      ((∀ host, ¬ table.Answers port host) →
        let others := table.resolve { project with appPorts := after }
        (table.resolve project).internalPort = others.internalPort ∧
          (table.resolve project).exposedPort = others.exposedPort) := by
  obtain ⟨before, port, after, hDeclared, hEarlier, hPort⟩ := exists_first hSome
  have hSilent : ∀ earlier ∈ before, ∀ host, ¬ table.Answers earlier host :=
    fun earlier hBefore host hAnswers => hEarlier earlier hBefore hAnswers.publishes
  refine ⟨before, port, after, hDeclared, hEarlier, hPort, ?_, ?_⟩
  · rintro ⟨host, hAnswers⟩
    obtain ⟨hInternal, hExposed⟩ := resolve_of_answers hDeclared hSilent hAnswers
    obtain ⟨binding, hBinding, hOwn, hHost⟩ := hAnswers.exists_binding
    exact ⟨hInternal, binding, hBinding, hOwn, host, hHost, hExposed⟩
  · intro hPassed
    have hSplit : project.appPorts = (before ++ [port]) ++ after := by
      rw [hDeclared, List.append_assoc, List.singleton_append]
    have hAllSilent : ∀ other ∈ before ++ [port], ∀ host, ¬ table.Answers other host := by
      intro other hOther host
      rcases List.mem_append.mp hOther with hBefore | hLast
      · exact hSilent other hBefore host
      · rw [List.mem_singleton.mp hLast]
        exact hPassed host
    have hPair := declaredPair?_of_silent hSplit hAllSilent
    exact resolve_congr (congrArg (Option.or · (table.positionalPair? project)) hPair)

/-- The first of the declared ports is in the table, but not published. -/
theorem published_declared_port_found_second :
    let table := ofPairs [("8080/tcp", []), ("9080/tcp", ["32001"]), ("9080/udp", [])]
    let project : ProjectInfo :=
      { id := "p", kind := "docker", location := "/p", appPorts := ["8080", "9080"] }
    (∃ port ∈ project.appPorts, table.Publishes port) ∧
      (table.resolve project).internalPort = some "9080" ∧
      (table.resolve project).exposedPort = some "32001" := by
  intro table project
  have hSome : ∃ port ∈ project.appPorts, table.Publishes port :=
    ⟨"9080", by decide, by decide +kernel⟩
  have hAnswers : table.Answers "9080" "32001" := by
    decide +kernel
  refine ⟨hSome, ?_⟩
  obtain ⟨before, port, after, hDeclared, _, hPort, hFound, _⟩ :=
    published_declared_port_found table project hSome
  have hOwn : port = "9080" := by
    have hEither : port ∈ project.appPorts := by
      rw [hDeclared]
      exact List.mem_append_right before List.mem_cons_self
    rcases List.mem_cons.mp hEither with rfl | hLast
    · exact absurd hPort (by decide +kernel)
    · exact List.mem_singleton.mp hLast
  subst hOwn
  obtain ⟨hInternal, binding, hBinding, hBound, host, hHost, hExposed⟩ :=
    hFound ⟨"32001", hAnswers⟩
  have hHosts : ∀ binding ∈ table.bindings, binding.internalPort = "9080" →
      binding.hostPort? = some "32001" ∨ binding.hostPort? = none := by
    decide +kernel
  rcases hHosts binding hBinding hBound with hOnly | hNone
  · rw [PortBinding.hostPort?_eq_some_iff.mpr hHost] at hOnly
    rw [hExposed, hOnly]
    exact ⟨hInternal, rfl⟩
  · exact absurd hHost (PortBinding.hostPort?_eq_none_iff.mp hNone host)

/-- A declared port that is published is overlooked, because its first binding is not published. -/
theorem second_binding_overlooked :
    let table := ofPairs [("8080/tcp", []), ("8080/udp", ["32000"])]
    let project : ProjectInfo :=
      { id := "p", kind := "docker", location := "/p", appPorts := ["8080"] }
    (∃ port ∈ project.appPorts, table.Publishes port) ∧
      (table.resolve project).internalPort = none ∧ (table.resolve project).exposedPort = none := by
  decide +kernel

end PortTable

end BuildWatch
