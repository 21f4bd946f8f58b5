import BuildWatch.Proofs.Coordinator.Countdowns
import BuildWatch.Proofs.Coordinator.Isolation
import BuildWatch.Proofs.Coordinator.PromptRuns

/-!
Batches that touch nothing but the settings of a project.  Their chunks are counted like any
others and bring nothing to build, so that no build comes of them and whatever waits keeps
waiting.  Only the last of several chunks can do harm: it takes the changes that wait for
those of its own batch.
-/

namespace BuildWatch

open BuildWatch.Tasks

/-- Whether a build begins or is to follow the one in progress. -/
def Notice.decides : Notice → Bool
  | .begun _ _ => true
  | .queued _ _ => true
  | _ => false

namespace Coordinator

/-! ### Work that builds nothing -/

/-- Between two moments nothing was decided on, nothing has come to wait, and nothing that
waits was taken. -/
structure NothingDecided (before after : CoordinatorState) : Prop where
  changes : ∀ project, after.changes project = before.changes project
  inProgress : ∀ project,
    (after.builds.state project).inProgress = (before.builds.state project).inProgress
  requested : ∀ project,
    (after.builds.state project).requested = (before.builds.state project).requested
  told : ∃ told, after.history = before.history ++ told ∧
    ∀ notice ∈ told, notice.decides = false

theorem NothingDecided.of_same {before after : CoordinatorState}
    (hPending : after.pending = before.pending) (hBuilds : after.builds = before.builds)
    (hHistory : after.history = before.history) : NothingDecided before after where
  changes := by
    intro project
    unfold CoordinatorState.changes
    rw [hPending]
  inProgress := by
    intro project
    rw [hBuilds]
  requested := by
    intro project
    rw [hBuilds]
  told := by
    refine ⟨[], ?_, List.forall_mem_nil _⟩
    rw [hHistory, List.append_nil]

theorem NothingDecided.trans {before middle after : CoordinatorState}
    (hEarly : NothingDecided before middle) (hLate : NothingDecided middle after) :
    NothingDecided before after where
  changes := fun project => (hLate.changes project).trans (hEarly.changes project)
  inProgress := fun project => (hLate.inProgress project).trans (hEarly.inProgress project)
  requested := fun project => (hLate.requested project).trans (hEarly.requested project)
  told := by
    obtain ⟨early, hTold, hNone⟩ := hEarly.told
    obtain ⟨late, hMore, hNoMore⟩ := hLate.told
    refine ⟨early ++ late, ?_, ?_⟩
    · rw [hMore, hTold, List.append_assoc]
    · intro notice hNotice
      rcases List.mem_append.mp hNotice with hFirst | hSecond
      · exact hNone notice hFirst
      · exact hNoMore notice hSecond

theorem nothingDecided_tell (state : CoordinatorState) {notice : Notice}
    (hNone : notice.decides = false) : NothingDecided state (state.tell notice) where
  changes := fun _ => rfl
  inProgress := fun _ => rfl
  requested := fun _ => rfl
  told := by
    refine ⟨[notice], rfl, ?_⟩
    intro told hTold
    rw [List.mem_singleton.mp hTold]
    exact hNone

theorem nothingDecided_require (state : CoordinatorState) (other : String) :
    NothingDecided state (state.require other) := by
  have hBuilds : NothingDecided state
      { state with builds := state.builds.require other true } := by
    constructor
    · exact fun _ => rfl
    · intro project
      simp only [Builds.state_require]
      by_cases hSame : project = other
      · rw [if_pos hSame, hSame]
      · rw [if_neg hSame]
    · intro project
      simp only [Builds.state_require]
      by_cases hSame : project = other
      · rw [if_pos hSame, hSame]
      · rw [if_neg hSame]
    · exact ⟨[], (List.append_nil _).symm, List.forall_mem_nil _⟩
  exact hBuilds.trans (nothingDecided_tell _ rfl)

theorem nothingDecided_buffer (state : CoordinatorState) (request : Nat) (other : String) :
    NothingDecided state (state.buffer request other []) where
  changes := by
    intro project
    rw [CoordinatorState.changes_buffer, List.append_nil]
    by_cases hSame : project = other
    · rw [if_pos hSame, hSame]
    · rw [if_neg hSame]
  inProgress := fun _ => rfl
  requested := fun _ => rfl
  told := ⟨[.buffered request other []], rfl, by simp [Notice.decides]⟩

def Stage.isBuild : Stage → Bool
  | .build _ _ => true
  | _ => false

/-- What holds of the work of a turn as long as it builds nothing. -/
structure Work.BuildsNothing (data : CoordinatorState) (work : Work) : Prop where
  state : NothingDecided data work.state
  spawned : ∀ stage ∈ work.spawned, stage.isBuild = false

structure TurnBuildsNothing (data : CoordinatorState) (turn : CoordinatorTurn) : Prop where
  state : NothingDecided data turn.data
  next : ∀ later, turn.next.stage? = some later → later.isBuild = false
  spawned : ∀ stage ∈ turn.spawned, stage.isBuild = false

section

variable {data : CoordinatorState} {work : Work}

theorem Work.buildsNothing_start (fresh : Nat) :
    Work.BuildsNothing data { state := data, fresh := fresh } where
  state := .of_same rfl rfl rfl
  spawned := List.forall_mem_nil _

theorem Work.BuildsNothing.map (hNothing : work.BuildsNothing data)
    (change : CoordinatorState → CoordinatorState)
    (hChange : NothingDecided work.state (change work.state)) :
    (work.map change).BuildsNothing data where
  state := hNothing.state.trans hChange
  spawned := hNothing.spawned

theorem Work.BuildsNothing.cancelTimer (hNothing : work.BuildsNothing data) (project : String) :
    (work.cancelTimer project).BuildsNothing data where
  state := hNothing.state.trans (.of_same rfl rfl rfl)
  spawned := hNothing.spawned

theorem Work.BuildsNothing.armTimer (hNothing : work.BuildsNothing data) (project : String) :
    (work.armTimer project).BuildsNothing data where
  state := hNothing.state.trans (.of_same rfl rfl rfl)
  spawned := by
    intro stage hStage
    rcases List.mem_append.mp hStage with hOld | hTimer
    · exact hNothing.spawned stage hOld
    · rw [List.mem_singleton.mp hTimer]
      rfl

theorem Work.BuildsNothing.record (hNothing : work.BuildsNothing data) (chunk : Change) :
    (work.record chunk).BuildsNothing data :=
  hNothing.map _ (.of_same rfl rfl rfl)

/-- Nothing comes of a decision about a project that is not built on its own. -/
theorem Work.BuildsNothing.trigger (hNothing : work.BuildsNothing data) {info : ProjectInfo}
    (hOff : info.autoBuild = false) (requireChanges : Bool) :
    (work.trigger info requireChanges).BuildsNothing data := by
  have hCleared : ((work.cancelTimer info.id).clearBatches info.id).BuildsNothing data :=
    (hNothing.cancelTimer info.id).map _ (.of_same rfl rfl rfl)
  unfold Work.trigger
  rw [hOff]
  exact hCleared.map (·.require info.id) (nothingDecided_require _ info.id)

/-! ### Turns that build nothing -/

theorem Work.BuildsNothing.turn (hNothing : work.BuildsNothing data) (release : Bool)
    {next : Next Stage Query}
    (hNext : ∀ later, next.stage? = some later → later.isBuild = false) :
    TurnBuildsNothing data (work.turn release next) :=
  ⟨hNothing.state, hNext, hNothing.spawned⟩

theorem Work.BuildsNothing.answer (hNothing : work.BuildsNothing data) (request : Nat)
    (result : UpdateResult) : TurnBuildsNothing data (work.answer request result) := by
  apply (hNothing.map (·.tell (.answered request result)) (nothingDecided_tell _ rfl)).turn
  intro later hLater
  cases hLater

theorem withProject_buildsNothing (hNothing : work.BuildsNothing data) (request : Nat)
    (project : String) {lookup : Lookup} {next : ProjectInfo → CoordinatorTurn}
    (hNext : ∀ info, TurnBuildsNothing data (next info)) :
    TurnBuildsNothing data (withProject work request project lookup next) := by
  cases lookup with
  | found info => exact hNext info
  | failed error => exact hNothing.answer request _
  | panicked => exact hNothing.answer request _

theorem proceed_buildsNothing (options : CoordinatorOptions) (hNothing : work.BuildsNothing data)
    (release : Bool) (chunk : Change) (info : ProjectInfo) :
    TurnBuildsNothing data (proceed options work release chunk info) := by
  unfold proceed
  split
  · apply hNothing.turn
    intro later hLater
    cases hLater
    rfl
  · apply hNothing.turn
    intro later hLater
    cases hLater
    rfl

theorem afterLoad_buildsNothing (options : CoordinatorOptions)
    (hNothing : work.BuildsNothing data) (chunk : Change) (info : ProjectInfo)
    (settings? : Option Settings) :
    TurnBuildsNothing data (afterLoad options work chunk info settings?) := by
  unfold afterLoad
  split
  · split
    · apply (hNothing.map (·.tell (.applying info.id _)) (nothingDecided_tell _ rfl)).turn
      intro later hLater
      cases hLater
      rfl
    · exact proceed_buildsNothing options hNothing false chunk info
  · exact proceed_buildsNothing options hNothing false chunk info

/-- Whether a task decides on the last of several chunks, with no other batch of the project
on its way, while changes wait that may be built. -/
def Stage.completesOver (project : String) (data : CoordinatorState) : Stage → Bool
  | .changeLocked chunk info =>
      chunk.project == project && !Decidable.decide (chunk.chunkTotal.toNat ≤ 1) &&
        info.autoBuild && data.hasChanges project &&
          (Batches.arrive chunk.timestamp chunk.chunkTotal.toNat
            (data.batches.progress project)).isEmpty
  | _ => false

/-- The decision on a chunk of settings builds nothing, unless the chunk completes a batch of
several while changes wait. -/
theorem decide_buildsNothing (options : CoordinatorOptions) (hNothing : work.BuildsNothing data)
    (hState : work.state = data) {chunk : Change} {info : ProjectInfo}
    (hSettings : isSettingsOnly options chunk = true)
    (hSpared : Stage.completesOver chunk.project data (.changeLocked chunk info) = false) :
    (decide options work chunk info).BuildsNothing data := by
  unfold decide
  dsimp only
  rw [hSettings, Bool.true_and, Bool.not_true]
  split
  · split
    · exact hNothing.armTimer chunk.project
    · exact hNothing
  · rename_i hLone
    have hSeveral : ¬ chunk.chunkTotal.toNat ≤ 1 := of_decide_eq_false (by simpa using hLone)
    have hRecorded := hNothing.record chunk
    have hProgress : (work.record chunk).state.batches.progress chunk.project =
        Batches.arrive chunk.timestamp chunk.chunkTotal.toNat
          (data.batches.progress chunk.project) := by
      rw [← hState]
      exact (Batches.progress_record _ _ _ _ _).trans (if_pos rfl)
    split
    · rename_i hComplete
      -- The last chunk of the last batch builds only what may be built.
      rw [Batches.isComplete_status_iff _ _ _ _ (fun hSingle => absurd hSingle hSeveral),
        hProgress] at hComplete
      rw [if_neg Bool.false_ne_true]
      split
      · rename_i hWaits
        have hHas : data.hasChanges chunk.project = true := by
          rw [← hState]
          exact hWaits
        apply hRecorded.trigger
        simp only [Stage.completesOver] at hSpared
        rw [hHas, hComplete] at hSpared
        simpa [hSeveral] using hSpared
      · exact hRecorded
    · exact hRecorded.armTimer chunk.project

end

/-! ### Batches of settings -/

/-- Chunks of a project that touch its settings and nothing else. -/
def SettingsOnly (options : CoordinatorOptions) (project : String) (batch : List Change) : Prop :=
  ∀ chunk ∈ batch, chunk.project = project ∧ chunk.events ≠ [] ∧
    ∀ event ∈ chunk.events, options.isSettingsEvent event = true

instance (options : CoordinatorOptions) (project : String) (batch : List Change) :
    Decidable (SettingsOnly options project batch) :=
  inferInstanceAs (Decidable (∀ chunk ∈ batch, chunk.project = project ∧ chunk.events ≠ [] ∧
    ∀ event ∈ chunk.events, options.isSettingsEvent event = true))

theorem SettingsOnly.buildEvents_eq_nil {options : CoordinatorOptions} {project : String}
    {batch : List Change} (hBatch : SettingsOnly options project batch) {chunk : Change}
    (hChunk : chunk ∈ batch) : buildEvents options chunk = [] := by
  apply List.filter_eq_nil_iff.mpr
  intro event hEvent
  simp [(hBatch chunk hChunk).2.2 event hEvent]

theorem SettingsOnly.isSettingsOnly {options : CoordinatorOptions} {project : String}
    {batch : List Change} (hBatch : SettingsOnly options project batch) {chunk : Change}
    (hChunk : chunk ∈ batch) : isSettingsOnly options chunk = true := by
  obtain ⟨_, hSome, hEvents⟩ := hBatch chunk hChunk
  obtain ⟨event, hEvent⟩ := List.exists_mem_of_ne_nil _ hSome
  have hTouches : touchesSettings options chunk = true :=
    List.any_eq_true.mpr ⟨event, hEvent, hEvents event hEvent⟩
  unfold Coordinator.isSettingsOnly
  rw [hTouches, hBatch.buildEvents_eq_nil hChunk]
  rfl

/-- Whether a task deals with a chunk of a batch, begins to wait for a quiet period, or hands
over a build that was decided on before. -/
def Stage.delivers (batch : List Change) : Stage → Bool
  | .timer _ => true
  | .build _ _ => true
  | stage => stage.change?.any batch.contains

/-- Whether an event has to do with the delivery of a batch: it is no other request, no quiet
period is over, and no build ends. -/
def Event.delivers (batch : List Change) (system : CoordinatorSystem) : Event → Bool
  | .shutdown => false
  | .poll id surrounding => (system.task? id).all fun task =>
      (system.grant? surrounding.answer task).isNone || task.stage.delivers batch
  | event => event.call?.all fun call => batch.any fun chunk => call == .notify chunk

theorem resume_buildsNothing {options : CoordinatorOptions} {project : String}
    {batch : List Change} (hBatch : SettingsOnly options project batch) (self fresh : Nat)
    {stage : Stage} (answer? : Option Answer) (data : CoordinatorState)
    (hDelivers : stage.delivers batch = true) (hSpared : stage.completesOver project data = false) :
    TurnBuildsNothing data (resume options self fresh stage answer? data) := by
  have hStart : Work.BuildsNothing data { state := data, fresh := fresh } :=
    Work.buildsNothing_start fresh
  have hGoesOn (release : Bool) (next : Next Stage Query)
      (hNext : ∀ later, next.stage? = some later → later.isBuild = false) :
      TurnBuildsNothing data (Work.turn { state := data, fresh := fresh } release next) :=
    hStart.turn release hNext
  cases stage with
  | change chunk => exact hGoesOn false _ (by rintro later ⟨⟩; rfl)
  | changeFound chunk =>
      apply withProject_buildsNothing hStart
      intro info
      exact hGoesOn false _ (by rintro later ⟨⟩; rfl)
  | changeTimer chunk info =>
      have hCancelled := hStart.cancelTimer chunk.project
      simp only [resume]
      unfold afterCancel
      split
      · exact hCancelled.turn true (by rintro later ⟨⟩; rfl)
      · exact proceed_buildsNothing options hCancelled true chunk info
  | changeLoaded chunk info => exact afterLoad_buildsNothing options hStart chunk info _
  | changeApplied chunk info =>
      simp only [resume]
      split
      · exact hGoesOn false _ (by rintro later ⟨⟩; rfl)
      · exact proceed_buildsNothing options hStart false chunk info
      · exact hStart.answer self _
  | changeRefreshed chunk =>
      apply withProject_buildsNothing hStart
      intro info
      exact proceed_buildsNothing options hStart false chunk info
  | changeBuffer chunk info =>
      have hChunk : chunk ∈ batch := List.contains_iff_mem.mp hDelivers
      simp only [resume]
      rw [hBatch.buildEvents_eq_nil hChunk]
      exact (hStart.map _ (nothingDecided_buffer data self chunk.project)).turn true
        (by rintro later ⟨⟩; rfl)
  | changeLocked chunk info =>
      have hChunk : chunk ∈ batch := List.contains_iff_mem.mp hDelivers
      rw [← (hBatch chunk hChunk).1] at hSpared
      exact (decide_buildsNothing options hStart rfl (hBatch.isSettingsOnly hChunk)
        hSpared).answer self _
  | timer asked => exact hGoesOn false _ (by rintro later ⟨⟩; rfl)
  | build info changes =>
      have hStarted := hStart.map (·.tell (.started info.id)) (nothingDecided_tell _ rfl)
      have hTold := hStarted.map (·.tell (.handed (options.operation info) changes))
        (nothingDecided_tell _ rfl)
      exact hTold.turn false (by rintro later ⟨⟩; rfl)
  | _ => cases hDelivers

/-! ### Their delivery -/

/-- Between two moments no build has begun and none is to follow one; the changes that wait
are the same, and no task was started that is to build. -/
structure BuildsNothing (before after : CoordinatorSystem) : Prop where
  state : NothingDecided before.data after.data
  tasks : ∀ task ∈ after.tasks, task.stage.isBuild = true → task ∈ before.tasks

theorem buildsNothing_of_same {before after : CoordinatorSystem} (hTasks : after.tasks = before.tasks)
    (hData : after.data = before.data) : BuildsNothing before after where
  state := by
    rw [hData]
    exact .of_same rfl rfl rfl
  tasks := by
    intro task hTask _
    rw [← hTasks]
    exact hTask

theorem TurnBuildsNothing.applyTurn {data : CoordinatorState} {turn : CoordinatorTurn}
    (hTurn : TurnBuildsNothing data turn) (system : CoordinatorSystem)
    (hData : system.data = data) (id : Nat) :
    BuildsNothing system (system.applyTurn id turn) where
  state := by
    rw [System.applyTurn_data, hData]
    exact hTurn.state
  tasks := by
    intro task hTask hBuild
    rcases System.mem_applyTurn_tasks hTask with ⟨hOld, _⟩ | ⟨_, hNext, _⟩ | ⟨_, index, hNew, _⟩
    · exact hOld
    · rw [hTurn.next _ hNext] at hBuild
      cases hBuild
    · rw [hTurn.spawned _ (List.mem_of_getElem? hNew)] at hBuild
      cases hBuild

/-- Whether an event decides on the last of several chunks, with no other batch of the project
on its way, while changes wait that may be built. -/
def Event.completesOver (project : String) (system : CoordinatorSystem) : Event → Bool
  | .poll id _ => (system.task? id).any fun task => task.stage.completesOver project system.data
  | _ => false

theorem buildsNothing_takeCall (system : CoordinatorSystem) (call? : Option Call) :
    BuildsNothing system (takeCall system call?) := by
  cases call? with
  | none => exact buildsNothing_of_same rfl rfl
  | some call =>
      constructor
      · exact .of_same rfl rfl rfl
      · intro task hTask hBuild
        rcases List.mem_append.mp hTask with hOld | hNew
        · exact hOld
        · rw [List.mem_singleton.mp hNew] at hBuild
          cases call <;> cases hBuild

theorem happen_buildsNothing {options : CoordinatorOptions} {project : String}
    {batch : List Change} (hBatch : SettingsOnly options project batch)
    {system : CoordinatorSystem} {event : Event} (hDelivers : event.delivers batch system = true)
    (hSpared : event.completesOver project system = false) :
    BuildsNothing system (happen options system event) := by
  cases event with
  | update asked => exact buildsNothing_takeCall system _
  | notify notification => exact buildsNothing_takeCall system _
  | shutdown => cases hDelivers
  | pass duration => exact buildsNothing_of_same rfl rfl
  | reorder ready => exact buildsNothing_of_same rfl rfl
  | poll id surrounding =>
      simp only [happen]
      rcases pollTask_cases options system id surrounding with ⟨locks, hPoll, _⟩ |
        ⟨locks, task, answer?, hFound, hGrant, hPoll⟩
      · rw [hPoll]
        exact buildsNothing_of_same rfl rfl
      · simp only [Event.delivers, hFound, hGrant, Option.all_some, Option.isNone_some,
          Bool.false_or] at hDelivers
        simp only [Event.completesOver, hFound, Option.any_some] at hSpared
        have hTurn := resume_buildsNothing hBatch task.id system.nextId answer? system.data
          hDelivers hSpared
        have hApplied := hTurn.applyTurn { system with locks := locks } rfl task.id
        rw [hPoll]
        exact ⟨hApplied.state, hApplied.tasks⟩

/-- A batch of settings builds nothing, whatever waits and however it came to wait.  While its
chunks are delivered, among anything that leaves the project alone, no chunk begins a build or
has one follow the build in progress, the changes of the project that wait are those from
before the batch, and so is where its builds stand.  The one exception is a batch of several
chunks that completes, with no other on its way, while changes wait that may be built. -/
theorem settings_batch_builds_nothing (options : CoordinatorOptions) (earlier : List Event)
    (project : String) (batch : List Change) (hBatch : SettingsOnly options project batch)
    (more : List Event)
    (hDelivered : (Run.after options earlier).Always options more fun system event =>
      event.delivers batch system = true ∨
        Untouched project system (happen options system event))
    (hSpared : (Run.after options earlier).Always options more fun system event =>
      event.completesOver project system = false) :
    let start := Run.after options earlier
    (start.Always options more fun system event => event.delivers batch system = true →
      BuildsNothing system (happen options system event)) ∧
    ∀ before after, more = before ++ after →
      let run := start.extend options before
      run.state.changes project = start.state.changes project ∧
        (run.state.builds.state project).inProgress =
          (start.state.builds.state project).inProgress ∧
        (run.state.builds.state project).requested =
          (start.state.builds.state project).requested := by
  intro start
  have hNothing : start.Always options more fun system event =>
      event.delivers batch system = true →
        BuildsNothing system (happen options system event) := by
    intro before event after hSplit hDelivers
    exact happen_buildsNothing hBatch hDelivers (hSpared before event after hSplit)
  refine ⟨hNothing, ?_⟩
  intro before
  -- One more event is a delivery, which builds nothing, or leaves the project alone.
  induction before using List.reverseRecOn with
  | nil =>
      intro after _
      exact ⟨rfl, rfl, rfl⟩
  | append_singleton before event ih =>
      intro after hSplit
      rw [List.append_assoc] at hSplit
      obtain ⟨hChanges, hProgress, hRequested⟩ := ih _ hSplit
      rw [Run.extend_append]
      rw [← hChanges, ← hProgress, ← hRequested]
      rcases hDelivered before event after hSplit with hDelivers | hUntouched
      · have hState := (hNothing before event after hSplit hDelivers).state
        exact ⟨hState.changes project, hState.inProgress project, hState.requested project⟩
      · have hShare := hUntouched.share
        refine ⟨congrArg Share.changes hShare, ?_, ?_⟩
        · exact congrArg (fun share => share.build.inProgress) hShare
        · exact congrArg (fun share => share.build.requested) hShare

def settingsChunk : ChangeNotification :=
  { oneChange ".cw-settings" with timestamp := some 8, chunkTotal := some 2 }

def settingsBatch : List Change := settingsChunk.change?.toList

/-- Both chunks come, one after the other, as the tasks with the given ids. -/
def deliverSettings (first second : Nat) : List Event :=
  .notify settingsChunk :: turns first 5 ++ .notify settingsChunk :: turns second 5

def chunkWaits : List Event :=
  .notify { oneChange "x" with chunkTotal := some 2 } :: turns 0 5

theorem settings_batch_builds_nothing_whileChunkWaits :
    let start := Run.after { quietPeriod := 1 } chunkWaits
    let run := start.extend { quietPeriod := 1 } (deliverSettings 2 4)
    (start.state.changes "a").length = 1 ∧ run.system.nextId = 6 ∧
      run.state.changes "a" = start.state.changes "a" := by
  refine ⟨by decide, by decide +kernel, ((settings_batch_builds_nothing { quietPeriod := 1 }
    chunkWaits "a" settingsBatch (by decide) (deliverSettings 2 4) ?_ (by decide +kernel)).2
      (deliverSettings 2 4) [] (List.append_nil _).symm).1⟩
  have hDelivered : (Run.after { quietPeriod := 1 } chunkWaits).Always { quietPeriod := 1 }
      (deliverSettings 2 4) fun system event => event.delivers settingsBatch system = true := by
    decide +kernel
  intro before event after hSplit
  exact Or.inl (hDelivered before event after hSplit)

def manual : Surrounding Id :=
  { steady none with
    lookUp := fun project =>
      .found { id := project, kind := "nodejs", location := "/" ++ project, autoBuild := false } }

/-- A change of "a" comes while the project is not built on its own. -/
def changeKept : List Event :=
  .notify (oneChange "x") :: List.replicate 5 (.poll 0 manual)

/-- A change that waits since the project was not built on its own is built by two chunks of
settings. -/
theorem settings_batch_builds_kept_change :
    let start := Run.after { quietPeriod := 1 } changeKept
    let run := start.extend { quietPeriod := 1 } (deliverSettings 1 3)
    SettingsOnly { quietPeriod := 1 } "a" settingsBatch ∧
      (start.Always { quietPeriod := 1 } (deliverSettings 1 3) fun system event =>
        event.delivers settingsBatch system = true) ∧
      (start.state.changes "a").length = 1 ∧ run.state.changes "a" = [] ∧
      (start.state.builds.state "a").inProgress = false ∧
      (run.state.builds.state "a").inProgress = true := by
  decide +kernel

end Coordinator

end BuildWatch
