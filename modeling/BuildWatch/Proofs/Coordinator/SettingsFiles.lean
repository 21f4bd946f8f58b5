import BuildWatch.Proofs.Coordinator.SettingsTurns
import BuildWatch.Proofs.Project.FileNames
import Mathlib.Data.List.Induction

/-!
Which changes are changes of settings, and what comes of them in a run.  A change is one of
settings if its path ends in the name of the settings file; a name with a separator is the end
of no path, so that the file it names is loaded but never watched.
-/

namespace BuildWatch

open BuildWatch.Tasks

/-! ### The changes that are recognised -/

namespace CoordinatorOptions

variable (options : CoordinatorOptions) {event : ChangeEvent}

theorem isSettingsEvent_iff :
    options.isSettingsEvent event = true ↔ event.Touches options.settingsFile :=
  ChangeEvent.isFileNamed_iff

theorem isSettingsEvent_eq_false {part : List Char}
    (hPart : ChangeEvent.IsLastPart part event.path.toList)
    (hOther : event.directory = true ∨ part ≠ options.settingsFile.toList) :
    options.isSettingsEvent event = false := by
  rw [Bool.eq_false_iff, ne_eq, isSettingsEvent_iff]
  rintro ⟨hFile, hName⟩
  rcases hOther with hDirectory | hDifferent
  · rw [hFile] at hDirectory
    cases hDirectory
  · exact hDifferent (hPart.eq hName)

variable (hFile : event.directory = false)

include hFile in
/-- A file with the name of the settings file is recognised in every directory, if the name has
no separator. -/
theorem isSettingsEvent_below_iff {directory : String} {separator : Char}
    (hSeparator : separator = '/' ∨ separator = '\\')
    (hPath : event.path = directory ++ separator.toString ++ options.settingsFile) :
    options.isSettingsEvent event = true ↔
      ∀ char ∈ options.settingsFile.toList, char ≠ '/' ∧ char ≠ '\\' := by
  have hSeparates : ChangeEvent.isSeparator separator = true := by
    rcases hSeparator with rfl | rfl <;> rfl
  have hChars : event.path.toList =
      directory.toList ++ separator :: options.settingsFile.toList := by
    rw [hPath]
    simp [Char.toString]
  simp only [isSettingsEvent_iff, ChangeEvent.Touches, hFile, hChars, true_and,
    ChangeEvent.isLastPart_below_iff hSeparates, ChangeEvent.isSeparator_eq_false_iff]

include hFile in
theorem isSettingsEvent_pathOf_iff {info : ProjectInfo}
    (hPath : event.path = info.pathOf options.settingsFile) :
    options.isSettingsEvent event = true ↔
      ∀ char ∈ options.settingsFile.toList, char ≠ '/' ∧ char ≠ '\\' := by
  rw [isSettingsEvent_iff, ChangeEvent.Touches, hPath]
  simp only [hFile, true_and, ProjectInfo.pathOf, ChangeEvent.isLastPart_join_iff,
    ChangeEvent.isSeparator_eq_false_iff]

end CoordinatorOptions

namespace Coordinator

variable {options : CoordinatorOptions}

/-! ### Settings along a run -/

/-- Every request of a run has dealt with its settings as far as it has come, nobody else has
asked for a settings file, and no change of settings waits to be built. -/
structure Run.Heeding (options : CoordinatorOptions) (questions : List Question) (run : Run) :
    Prop where
  ids : (run.calls.map Prod.fst).Nodup
  below : ∀ id call, (id, call) ∈ run.calls → id < run.system.nextId
  made : ∀ task ∈ run.system.tasks, ∀ call, task.stage.call? = some call →
    (task.id, call) ∈ run.calls
  tasks : ∀ task ∈ run.system.tasks, task.stage.Awaits options task.wait ∧
    task.stage.Heeds options questions run.history task.id task.wait
  asked : ∀ question ∈ questions, ∀ path, question.query = .loadSettings path →
    ∃ chunk, (question.task, .notify chunk) ∈ run.calls ∧ touchesSettings options chunk = true
  answered : ∀ id result, .answered id result ∈ run.history →
    ∃ call, (id, call) ∈ run.calls ∧ ∀ chunk, call = .notify chunk → result = .ok () →
      Heeded options questions run.history id chunk
  changes : ∀ project, ∀ event ∈ run.state.changes project, options.isSettingsEvent event = false

theorem Run.heeding_start (options : CoordinatorOptions) : ({} : Run).Heeding options [] where
  ids := List.nodup_nil
  below := by
    intro id call hCall
    cases hCall
  made := by
    intro task hTask
    cases hTask
  tasks := by
    intro task hTask
    cases hTask
  asked := by
    intro question hQuestion
    cases hQuestion
  answered := by
    intro id result hAnswered
    cases hAnswered
  changes := by
    intro project event hEvent
    cases hEvent

section

variable {run : Run} {questions : List Question}

theorem Run.Heeding.thin (hHeeding : run.Heeding options questions) {system : CoordinatorSystem}
    (hTasks : ∀ task ∈ system.tasks, task ∈ run.system.tasks)
    (hId : system.nextId = run.system.nextId)
    (hHistory : system.data.history = run.system.data.history)
    (hPending : system.data.pending = run.system.data.pending) :
    ({ run with system := system } : Run).Heeding options questions where
  ids := hHeeding.ids
  below := by
    intro id call hCall
    exact hId ▸ hHeeding.below id call hCall
  made := fun task hTask => hHeeding.made task (hTasks task hTask)
  tasks := by
    intro task hTask
    obtain ⟨hAwaits, hHeeds⟩ := hHeeding.tasks task (hTasks task hTask)
    refine ⟨hAwaits, ?_⟩
    change task.stage.Heeds options questions system.data.history task.id task.wait
    rw [hHistory]
    exact hHeeds
  asked := hHeeding.asked
  answered := by
    intro id result hAnswered
    change _ ∈ system.data.history at hAnswered
    change ∃ call, _ ∧ ∀ chunk, _ → _ → Heeded options questions system.data.history id chunk
    rw [hHistory] at hAnswered ⊢
    exact hHeeding.answered id result hAnswered
  changes := by
    intro project event hEvent
    refine hHeeding.changes project event ?_
    change event ∈ system.data.changes project at hEvent
    unfold CoordinatorState.changes at hEvent
    rw [hPending] at hEvent
    exact hEvent

theorem Run.Heeding.call (hHeeding : run.Heeding options questions) (call : Call) :
    ({ system := run.system.spawn call.stage
       calls := run.calls ++ [(run.system.nextId, call)] } : Run).Heeding options questions := by
  have hStage (wait : Wait Query) : call.stage.call? = some call ∧
      call.stage.Awaits options .turn ∧
        call.stage.Heeds options questions run.history run.system.nextId wait := by
    cases call <;> exact ⟨rfl, rfl, trivial⟩
  refine ⟨ids_nodup_concat hHeeding.ids hHeeding.below call,
    ids_below_concat hHeeding.below call, ?_, ?_, ?_, ?_, hHeeding.changes⟩
  · intro task hTask made hMade
    rcases List.mem_append.mp hTask with hOld | hNew
    · exact List.mem_append_left _ (hHeeding.made task hOld made hMade)
    · cases List.mem_singleton.mp hNew
      cases (hStage .turn).1.symm.trans hMade
      exact List.mem_append_right _ List.mem_cons_self
  · intro task hTask
    rcases List.mem_append.mp hTask with hOld | hNew
    · exact hHeeding.tasks task hOld
    · cases List.mem_singleton.mp hNew
      exact (hStage .turn).2
  · intro question hQuestion path hLoads
    obtain ⟨chunk, hMade, hTouches⟩ := hHeeding.asked question hQuestion path hLoads
    exact ⟨chunk, List.mem_append_left _ hMade, hTouches⟩
  · intro id result hAnswered
    obtain ⟨made, hMade, hHeeded⟩ := hHeeding.answered id result hAnswered
    exact ⟨made, List.mem_append_left _ hMade, hHeeded⟩

theorem Run.Heeding.answered_mono (hHeeding : run.Heeding options questions)
    {more : List Question} {later : List Notice} (hQuestions : questions ⊆ more)
    (hHistory : run.history ⊆ later) {id : Nat} {result : UpdateResult}
    (hAnswered : .answered id result ∈ run.history) :
    ∃ call, (id, call) ∈ run.calls ∧ ∀ chunk, call = .notify chunk → result = .ok () →
      Heeded options more later id chunk := by
  obtain ⟨call, hMade, hHeeded⟩ := hHeeding.answered id result hAnswered
  refine ⟨call, hMade, ?_⟩
  intro chunk hChunk hOk
  exact (hHeeded chunk hChunk hOk).mono hQuestions hHistory

/-- A settings file is asked for by a request with a change of settings only. -/
theorem Run.Heeding.record (hHeeding : run.Heeding options questions) (event : Event) :
    run.Heeding options (questions ++ (event.question? run.system).toList) := by
  have hMore : questions ⊆ questions ++ (event.question? run.system).toList :=
    List.subset_append_left _ _
  refine ⟨hHeeding.ids, hHeeding.below, hHeeding.made, ?_, ?_, ?_, hHeeding.changes⟩
  · intro task hTask
    obtain ⟨hAwaits, hHeeds⟩ := hHeeding.tasks task hTask
    exact ⟨hAwaits, hHeeds.mono hMore (List.Subset.refl _)⟩
  · intro question hQuestion path hLoads
    rcases List.mem_append.mp hQuestion with hOld | hNew
    · exact hHeeding.asked question hOld path hLoads
    · obtain ⟨task, hTask, hId, hWait⟩ := Event.exists_of_question? (Option.mem_toList.mp hNew)
      obtain ⟨hAwaits, hHeeds⟩ := hHeeding.tasks task hTask
      rw [hWait, hLoads] at hAwaits
      obtain ⟨chunk, info, hStage⟩ := Stage.eq_changeLoaded hAwaits
      rw [hStage] at hHeeds
      exact ⟨chunk, hId ▸ hHeeding.made task hTask (.notify chunk) (by rw [hStage]; rfl), hHeeds.1⟩
  · intro id result hAnswered
    exact hHeeding.answered_mono hMore (List.Subset.refl _) hAnswered

theorem Run.Heeding.afterTurn (hHeeding : run.Heeding options questions)
    {task : Task Stage Query} (hTask : task ∈ run.system.tasks) {turn : CoordinatorTurn}
    (hTurn : TurnHeeds options questions task.id task.stage run.system.data turn) :
    (run.afterTurn task.id turn).Heeding options questions := by
  have hHistory := run.history_afterTurn task.id turn
  have hTold : run.history ⊆ (run.afterTurn task.id turn).history := hHistory ▸ hTurn.history
  refine ⟨hHeeding.ids, ?_, ?_, ?_, hHeeding.asked, ?_, ?_⟩
  · intro id call hCall
    change id < (run.system.applyTurn task.id turn).nextId
    rw [System.applyTurn_nextId]
    exact Nat.lt_add_right _ (hHeeding.below id call hCall)
  · intro other hOther call hCall
    rcases System.mem_applyTurn_tasks hOther with ⟨hOld, _⟩ | ⟨hSelf, hNext, _⟩ |
      ⟨_, index, hStage, _⟩
    · exact hHeeding.made other hOld call hCall
    · rw [hSelf]
      exact hHeeding.made task hTask call ((hTurn.next other.stage hNext).1 ▸ hCall)
    · rw [(hTurn.spawned _ (List.mem_of_getElem? hStage)).2] at hCall
      cases hCall
  · -- The other tasks keep what is on record, the one that goes on has it from its turn, and a
    -- task that has just been started deals with no request.
    intro other hOther
    rcases System.mem_applyTurn_tasks hOther with ⟨hOld, _⟩ | ⟨hSelf, hNext, hWait⟩ |
      ⟨hWait, index, hStage, _⟩
    · obtain ⟨hAwaits, hHeeds⟩ := hHeeding.tasks other hOld
      exact ⟨hAwaits, hHeeds.mono (List.Subset.refl _) hTold⟩
    · rw [hSelf, hWait, hHistory]
      exact (hTurn.next other.stage hNext).2 _
    · obtain ⟨hAwaits, hNone⟩ := hTurn.spawned _ (List.mem_of_getElem? hStage)
      exact ⟨hWait ▸ hAwaits, Stage.heeds_of_call? hNone _⟩
  · intro id result hAnswered
    rw [hHistory] at hAnswered
    rcases hTurn.answered id result hAnswered with hOld | ⟨rfl, call, hCall, hHeeded⟩
    · exact hHeeding.answered_mono (List.Subset.refl _) hTold hOld
    · refine ⟨call, hHeeding.made task hTask call hCall, ?_⟩
      rw [hHistory]
      exact hHeeded
  · intro project event hEvent
    change event ∈ (run.system.applyTurn task.id turn).data.changes project at hEvent
    rw [System.applyTurn_data] at hEvent
    exact (hTurn.changes project event hEvent).elim (hHeeding.changes project event) id

theorem Run.Heeding.step (hApplies : options.appliesSettings = true)
    (hHeeding : run.Heeding options questions) (event : Event) :
    (run.step options event).Heeding options
      (questions ++ (event.question? run.system).toList) := by
  have hRecorded := hHeeding.record event
  have hCalls (call? : Option Call) (hNone : event.question? run.system = none) : ({
      system := takeCall run.system call?
      calls := run.calls ++ call?.toList.map fun call => (run.system.nextId, call) } : Run).Heeding
        options (questions ++ (event.question? run.system).toList) := by
    rw [hNone, Option.toList_none, List.append_nil] at hRecorded ⊢
    cases call? with
    | some call => exact hHeeding.call call
    | none =>
        rw [Option.toList_none, List.map_nil, List.append_nil]
        exact hHeeding
  cases event with
  | update project => exact hCalls _ rfl
  | notify notification => exact hCalls _ rfl
  | pass duration =>
      rw [run.step_silent rfl]
      exact hRecorded.thin (fun _ hTask => hTask) rfl rfl rfl
  | reorder ready =>
      rw [run.step_silent rfl]
      exact hRecorded.thin (fun _ hTask => hTask) rfl rfl rfl
  | shutdown =>
      rw [run.step_silent rfl]
      refine hRecorded.thin ?_ ?_ ?_ ?_
      · intro task hTask
        simp only [happen, shutdown, System.foldl_remove_tasks] at hTask
        exact (List.mem_filter.mp hTask).1
      · simp only [happen, shutdown, System.foldl_remove_nextId]
      · simp only [happen, shutdown, System.foldl_remove_data]
      · simp only [happen, shutdown, System.foldl_remove_data]
  | poll id surrounding =>
      rw [run.step_silent rfl]
      simp only [happen]
      rcases pollTask_cases options run.system id surrounding with ⟨locks, hPoll, _⟩ |
        ⟨locks, task, answer?, hFound, hGrant, hPoll⟩
      · rw [hPoll]
        exact hRecorded.thin (fun _ hTask => hTask) rfl rfl rfl
      · have hTask := List.mem_of_find?_eq_some hFound
        have hLocked : ({ run with system := { run.system with locks := locks } } : Run).Heeding
            options (questions ++ ((Event.poll id surrounding).question? run.system).toList) :=
          hRecorded.thin (fun _ hTask => hTask) rfl rfl rfl
        obtain ⟨hAwaits, hHeeds⟩ := hRecorded.tasks task hTask
        have hTurn := resume_heeds hApplies task.id run.system.nextId run.system.data hAwaits hHeeds
          (recorded_of_grant hFound hGrant questions)
        rw [hPoll]
        exact hLocked.afterTurn hTask hTurn

end

theorem Run.heeding (hApplies : options.appliesSettings = true) (events : List Event) :
    (Run.after options events).Heeding options (questionsOf options events) := by
  induction events using List.reverseRecOn with
  | nil => exact Run.heeding_start options
  | append_singleton events event ih =>
      rw [questionsOf, Run.questions_concat, Run.after_append]
      exact ih.step hApplies event

/-- An event of an accepted request is dealt with: the settings are applied if it is a change of
the settings, and it has been put into the buffer if not. -/
theorem Heeded.event {questions : List Question} {history : List Notice} {request : Nat}
    {chunk : Change} (hHeeded : Heeded options questions history request chunk)
    {event : ChangeEvent} (hEvent : event ∈ chunk.events) :
    if options.isSettingsEvent event then
      SettingsApplied options questions request chunk.project
    else ∃ changes, .buffered request chunk.project changes ∈ history ∧ event ∈ changes := by
  split
  · rename_i hSettings
    exact hHeeded.settings (touchesSettings_iff.mpr ⟨event, hEvent, hSettings⟩)
  · rename_i hOther
    have hBuild : event ∈ buildEvents options chunk :=
      mem_buildEvents_iff.mpr ⟨hEvent, Bool.eq_false_iff.mpr hOther⟩
    exact ⟨_, hHeeded.others (List.ne_nil_of_mem hBuild), hBuild⟩

/-- A change of the settings file is recognised wherever it is, exactly if the configured name
of the file has no separator, and nothing else is taken for one.  In every run whatsoever no
recognised change comes into a buffer; a request is accepted only after the settings of its
project were loaded and applied, if it has such a change, and its other changes were put into
the buffer; and no request without such a change has the settings loaded. -/
theorem settings_file_recognised_iff (configuration : Configuration) :
    let options := CoordinatorOptions.ofConfiguration configuration
    let name := configuration.coordinator.settingsFile
    (∀ (event : ChangeEvent) (directory : String) (separator : Char),
      separator = '/' ∨ separator = '\\' → event.directory = false →
        event.path = directory ++ separator.toString ++ name →
          (options.isSettingsEvent event = true ↔
            ∀ char ∈ name.toList, char ≠ '/' ∧ char ≠ '\\')) ∧
    (∀ (event : ChangeEvent) (info : ProjectInfo), event.directory = false →
      event.path = info.pathOf name →
        (options.isSettingsEvent event = true ↔
          ∀ char ∈ name.toList, char ≠ '/' ∧ char ≠ '\\')) ∧
    (∀ (event : ChangeEvent) (part : List Char),
      ChangeEvent.IsLastPart part event.path.toList →
        event.directory = true ∨ part ≠ name.toList → options.isSettingsEvent event = false) ∧
    ∀ events,
      let run := Run.after options events
      let questions := questionsOf options events
      (∀ project, ∀ event ∈ run.state.changes project, options.isSettingsEvent event = false) ∧
      ∀ request chunk, (request, .notify chunk) ∈ run.calls →
        (.answered request (.ok ()) ∈ run.history → ∀ event ∈ chunk.events,
          if options.isSettingsEvent event then
            SettingsApplied options questions request chunk.project
          else ∃ changes,
            .buffered request chunk.project changes ∈ run.history ∧ event ∈ changes) ∧
        ((∀ event ∈ chunk.events, options.isSettingsEvent event = false) →
          ∀ question ∈ questions, question.task = request →
            ∀ path, question.query ≠ .loadSettings path) := by
  intro options name
  refine ⟨?_, ?_, ?_, ?_⟩
  · intro event directory separator hSeparator hFile hPath
    exact options.isSettingsEvent_below_iff hFile hSeparator hPath
  · intro event info hFile hPath
    exact options.isSettingsEvent_pathOf_iff hFile hPath
  · intro event part hPart hOther
    exact options.isSettingsEvent_eq_false hPart hOther
  · intro events run questions
    have hHeeding : run.Heeding options questions := Run.heeding rfl events
    -- Ids are distinct, so a request is known by its id.
    have hUnique {request : Nat} {call other : Call} (hCall : (request, call) ∈ run.calls)
        (hOther : (request, other) ∈ run.calls) : call = other :=
      congrArg Prod.snd (List.inj_on_of_nodup_map hHeeding.ids hCall hOther rfl)
    refine ⟨hHeeding.changes, ?_⟩
    intro request chunk hCall
    constructor
    · intro hAccepted event hEvent
      obtain ⟨call, hMade, hHeeded⟩ := hHeeding.answered request (.ok ()) hAccepted
      exact (hHeeded chunk (hUnique hMade hCall) rfl).event hEvent
    · rintro hOthers question hQuestion rfl path hLoads
      obtain ⟨other, hMade, hTouches⟩ := hHeeding.asked question hQuestion path hLoads
      cases hUnique hMade hCall
      obtain ⟨event, hEvent, hSettings⟩ := touchesSettings_iff.mp hTouches
      rw [hOthers event hEvent] at hSettings
      cases hSettings

/-- A configuration that says nothing but how the settings file is called. -/
def settingsCalled (name : String) : Configuration where
  coordinator := { settingsFile := name }
  projects := { infoDirectory := "/projects" }

def rooted : Surrounding Id :=
  { steady none with loadSettings := fun _ => some { contextRoot := some "/x" } }

def fileChanges (path : String) : List Event :=
  .notify (oneChange path) :: List.replicate 7 (.poll 0 rooted)

theorem settings_file_recognised_iff_atRoot :
    let options := CoordinatorOptions.ofConfiguration (settingsCalled ".cw-settings")
    let event : ChangeEvent := { path := "/a/.cw-settings", timestamp := 7, kind := "MODIFY" }
    options.isSettingsEvent event = true ∧
      options.isSettingsEvent { event with directory := true } = false ∧
      SettingsApplied options (questionsOf options (fileChanges event.path)) 0 "a" := by
  intro options event
  let chunk : Change := { project := "a", timestamp := 7, chunkTotal := 1, events := [event] }
  obtain ⟨hBelow, _, hElse, hRuns⟩ := settings_file_recognised_iff (settingsCalled ".cw-settings")
  have hRecognised : options.isSettingsEvent event = true :=
    (hBelow event "/a" '/' (Or.inl rfl) rfl (by decide)).mpr (by simp [settingsCalled])
  have hMade : (0, .notify chunk) ∈ (Run.after options (fileChanges event.path)).calls := by
    decide +kernel
  have hAccepted : .answered 0 (.ok ()) ∈
      (Run.after options (fileChanges event.path)).history := by
    rw [← mem_answers_iff]
    decide +kernel
  have hHeeded := ((hRuns _).2 0 chunk hMade).1 hAccepted event List.mem_cons_self
  rw [if_pos hRecognised] at hHeeded
  exact ⟨hRecognised, hElse { event with directory := true } ".cw-settings".toList
    (by decide +kernel) (Or.inl rfl), hHeeded⟩

/-- A settings file below the root of the project is accepted by the check of the configuration.
The file that is loaded lies there, but a change of it is taken for one that has to be built. -/
theorem nested_settings_file_overlooked :
    let configuration := settingsCalled "conf/settings.json"
    let options := CoordinatorOptions.ofConfiguration configuration
    let event : ChangeEvent :=
      { path := "/a/conf/settings.json", timestamp := 7, kind := "MODIFY" }
    let info : ProjectInfo := { id := "a", kind := "nodejs", location := "/a" }
    configuration.validate = .ok () ∧ rooted.lookUp "a" = .found info ∧
      event.path = "/a" ++ '/'.toString ++ configuration.coordinator.settingsFile ∧
      event.path = info.pathOf configuration.coordinator.settingsFile ∧
      event.directory = false ∧ options.isSettingsEvent event = false ∧
      bufferings 0 (Run.after options (fileChanges event.path)).history = [("a", [event])] := by
  exact ⟨rfl, rfl, by decide +kernel⟩

end Coordinator

end BuildWatch
