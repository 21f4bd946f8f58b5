import BuildWatch.Proofs.Coordinator.Requests

/-!
What the single turns of a coordinator do with settings.  A request is known by what it has
asked of its surroundings: with a change of settings it has found its project, loaded the
settings file and had the settings applied by the time it comes to the buffer, into which it
puts its other changes.
-/

namespace BuildWatch

open BuildWatch.Tasks

namespace Coordinator

variable {options : CoordinatorOptions}

/-! ### Questions -/

structure Question where
  task : Nat
  query : Query
  answer : Answer

/-- What a task asks its surroundings, and what they answer, if they do. -/
def question? (surrounding : Surrounding Id) (task : Task Stage Query) : Option Question :=
  match task.wait with
  | .answer query => Option.map (Question.mk task.id query) (surrounding.answer query)
  | _ => none

def Event.question? (system : CoordinatorSystem) : Event → Option Question
  | .poll id surrounding => (system.task? id).bind (Coordinator.question? surrounding)
  | _ => none

/-- The questions that are answered while some events happen to a run. -/
def Run.questions (options : CoordinatorOptions) (run : Run) : List Event → List Question
  | [] => []
  | event :: rest =>
      (event.question? run.system).toList ++ (run.step options event).questions options rest

def questionsOf (options : CoordinatorOptions) (events : List Event) : List Question :=
  Run.questions options {} events

theorem Run.questions_concat (run : Run) (events : List Event) (event : Event) :
    run.questions options (events ++ [event]) =
      run.questions options events ++
        (event.question? (run.extend options events).system).toList := by
  induction events generalizing run with
  | nil => exact List.append_nil _
  | cons first rest ih =>
      rw [List.cons_append, Run.questions, Run.questions, ih, List.append_assoc]
      rfl

/-- A task that is resumed is granted what it waits for; the answer to a question is on record. -/
def Recorded (questions : List Question) (self : Nat) : Wait Query → Option Answer → Prop
  | .answer (.lookUp project), answer? =>
      ∃ lookup, answer? = some (.lookup lookup) ∧
        ⟨self, .lookUp project, .lookup lookup⟩ ∈ questions
  | .answer (.loadSettings path), answer? =>
      ∃ loaded, answer? = some (.settings loaded) ∧
        ⟨self, .loadSettings path, .settings loaded⟩ ∈ questions
  | .answer (.applySettings project settings), answer? =>
      ∃ result, answer? = some (.applied result) ∧
        ⟨self, .applySettings project settings, .applied result⟩ ∈ questions
  | _, _ => True

theorem recorded_of_grant {system : CoordinatorSystem} {surrounding : Surrounding Id} {id : Nat}
    {task : Task Stage Query} {answer? : Option Answer} (hTask : system.task? id = some task)
    (hGrant : system.grant? surrounding.answer task = some answer?) (questions : List Question) :
    Recorded (questions ++ ((Event.poll id surrounding).question? system).toList) task.id task.wait
      answer? := by
  simp only [Event.question?, hTask, Option.bind_some]
  unfold question?
  unfold System.grant? at hGrant
  cases hWait : task.wait with
  | answer query =>
      rw [hWait] at hGrant
      cases query with
      | build operation changes => trivial
      | _ => exact ⟨_, (Option.some.inj hGrant).symm, List.mem_append_right _ List.mem_cons_self⟩
  | _ => trivial

theorem Event.exists_of_question? {system : CoordinatorSystem} {event : Event}
    {question : Question} (hQuestion : event.question? system = some question) :
    ∃ task ∈ system.tasks, task.id = question.task ∧ task.wait = .answer question.query := by
  cases event with
  | poll id surrounding =>
      obtain ⟨task, hTask, hAsked⟩ := Option.bind_eq_some_iff.mp hQuestion
      refine ⟨task, List.mem_of_find?_eq_some hTask, ?_⟩
      unfold Coordinator.question? at hAsked
      cases hWait : task.wait with
      | answer query =>
          rw [hWait] at hAsked
          obtain ⟨answer, _, rfl⟩ := Option.map_eq_some_iff.mp hAsked
          exact ⟨rfl, rfl⟩
      | _ =>
          rw [hWait] at hAsked
          cases hAsked
  | _ => cases hQuestion

/-! ### What is done with settings -/

theorem touchesSettings_iff {chunk : Change} :
    touchesSettings options chunk = true ↔
      ∃ event ∈ chunk.events, options.isSettingsEvent event = true :=
  List.any_eq_true

theorem mem_buildEvents_iff {chunk : Change} {event : ChangeEvent} :
    event ∈ buildEvents options chunk ↔
      event ∈ chunk.events ∧ options.isSettingsEvent event = false := by
  unfold buildEvents
  rw [List.mem_filter, Bool.not_eq_true']

/-- A request has found its project, asked for the settings file at the project's root, and had
the settings applied that the file holds. -/
def SettingsApplied (options : CoordinatorOptions) (questions : List Question) (request : Nat)
    (project : String) : Prop :=
  ∃ info loaded,
    ⟨request, .lookUp project, .lookup (.found info)⟩ ∈ questions ∧
      ⟨request, .loadSettings (info.pathOf options.settingsFile), .settings loaded⟩ ∈ questions ∧
        ∀ settings, loaded = some settings → ∃ result,
          ⟨request, .applySettings info.id settings, .applied result⟩ ∈ questions

/-- The settings of a chunk are dealt with, and its other changes are in the buffer. -/
structure Heeded (options : CoordinatorOptions) (questions : List Question)
    (history : List Notice) (request : Nat) (chunk : Change) : Prop where
  settings : touchesSettings options chunk = true →
    SettingsApplied options questions request chunk.project
  others : buildEvents options chunk ≠ [] →
    .buffered request chunk.project (buildEvents options chunk) ∈ history

/-- What the request at a stage has asked and told so far. -/
def Stage.Heeds (options : CoordinatorOptions) (questions : List Question)
    (history : List Notice) (request : Nat) : Stage → Wait Query → Prop
  | .changeTimer chunk info, _ =>
      ⟨request, .lookUp chunk.project, .lookup (.found info)⟩ ∈ questions
  | .changeLoaded chunk info, _ =>
      touchesSettings options chunk = true ∧
        ⟨request, .lookUp chunk.project, .lookup (.found info)⟩ ∈ questions
  | .changeApplied chunk info, wait =>
      ⟨request, .lookUp chunk.project, .lookup (.found info)⟩ ∈ questions ∧
        ∀ settings, wait = .answer (.applySettings info.id settings) →
          ⟨request, .loadSettings (info.pathOf options.settingsFile), .settings (some settings)⟩ ∈
            questions
  | .changeRefreshed chunk, _ => SettingsApplied options questions request chunk.project
  | .changeBuffer chunk _, _ =>
      touchesSettings options chunk = true →
        SettingsApplied options questions request chunk.project
  | .changeLocked chunk _, _ => Heeded options questions history request chunk
  | _, _ => True

section

variable {questions more : List Question} {history later : List Notice} {request : Nat}
variable (hQuestions : questions ⊆ more) (hHistory : history ⊆ later)

include hQuestions in
theorem SettingsApplied.mono {project : String}
    (hApplied : SettingsApplied options questions request project) :
    SettingsApplied options more request project := by
  obtain ⟨info, loaded, hFound, hLoaded, hResult⟩ := hApplied
  refine ⟨info, loaded, hQuestions hFound, hQuestions hLoaded, ?_⟩
  intro settings hSome
  obtain ⟨result, hAsked⟩ := hResult settings hSome
  exact ⟨result, hQuestions hAsked⟩

include hQuestions hHistory

theorem Heeded.mono {chunk : Change}
    (hHeeded : Heeded options questions history request chunk) :
    Heeded options more later request chunk where
  settings := fun hTouches => (hHeeded.settings hTouches).mono hQuestions
  others := fun hSome => hHistory (hHeeded.others hSome)

theorem Stage.Heeds.mono {stage : Stage} {wait : Wait Query}
    (hHeeds : stage.Heeds options questions history request wait) :
    stage.Heeds options more later request wait := by
  cases stage with
  | changeTimer chunk info => exact hQuestions hHeeds
  | changeLoaded chunk info => exact ⟨hHeeds.1, hQuestions hHeeds.2⟩
  | changeApplied chunk info =>
      exact ⟨hQuestions hHeeds.1, fun settings hWait => hQuestions (hHeeds.2 settings hWait)⟩
  | changeRefreshed chunk => exact SettingsApplied.mono hQuestions hHeeds
  | changeBuffer chunk info => exact fun hTouches => (hHeeds hTouches).mono hQuestions
  | changeLocked chunk info => exact Heeded.mono hQuestions hHistory hHeeds
  | _ => trivial

end

theorem Stage.eq_changeLoaded {stage : Stage} {path : Files.Path}
    (hAwaits : stage.Awaits options (.answer (.loadSettings path))) :
    ∃ chunk info, stage = .changeLoaded chunk info := by
  cases stage with
  | changeLoaded chunk info => exact ⟨chunk, info, rfl⟩
  | changeApplied chunk info =>
      obtain ⟨settings, hWait⟩ := hAwaits
      cases hWait
  | timerElapsed project =>
      obtain ⟨due, hWait⟩ := hAwaits
      cases hWait
  | buildEnded project =>
      obtain ⟨info, changes, _, hWait⟩ := hAwaits
      cases hWait
  | _ => cases hAwaits

/-! ### The work of a turn puts nothing into a buffer -/

/-- Some work has told more, but of no request; it has put no change into a buffer and started
no task that deals with a request. -/
structure Work.BringsNothing (options : CoordinatorOptions) (work later : Work) : Prop where
  tells : work.TellsMore later
  changes : ∀ project, later.state.changes project ⊆ work.state.changes project
  spawned : ∀ new ∈ later.spawned,
    new ∈ work.spawned ∨ (new.Awaits options .turn ∧ new.call? = none)

theorem Work.bringsNothing_of_same {work later : Work} (hTells : work.TellsMore later)
    (hPending : later.state.pending = work.state.pending)
    (hSpawned : later.spawned = work.spawned) : work.BringsNothing options later where
  tells := hTells
  changes := by
    intro project
    unfold CoordinatorState.changes
    rw [hPending]
    exact List.Subset.refl _
  spawned := by
    intro new hNew
    rw [hSpawned] at hNew
    exact Or.inl hNew

theorem Work.BringsNothing.refl (work : Work) : work.BringsNothing options work :=
  Work.bringsNothing_of_same (Work.TellsMore.refl work) rfl rfl

theorem Work.BringsNothing.trans {work middle later : Work}
    (hFirst : work.BringsNothing options middle) (hSecond : middle.BringsNothing options later) :
    work.BringsNothing options later where
  tells := hFirst.tells.trans hSecond.tells
  changes := fun project =>
    List.Subset.trans (hSecond.changes project) (hFirst.changes project)
  spawned := by
    intro new hNew
    rcases hSecond.spawned new hNew with hOld | hStarted
    · exact hFirst.spawned new hOld
    · exact Or.inr hStarted

theorem Work.bringsNothing_cancelTimer (work : Work) (project : String) :
    work.BringsNothing options (work.cancelTimer project) :=
  Work.bringsNothing_of_same (Work.tellsMore_of_same rfl) rfl rfl

theorem Work.bringsNothing_require (work : Work) (project : String) :
    work.BringsNothing options (work.map (·.require project)) :=
  Work.bringsNothing_of_same (work.tellsMore_require project) rfl rfl

theorem changes_drain_subset (state : CoordinatorState) (project other : String) :
    (state.drain project).changes other ⊆ state.changes other := by
  rw [CoordinatorState.changes_drain]
  split
  · exact List.nil_subset _
  · exact List.Subset.refl _

theorem Work.bringsNothing_beginBuild (work : Work) (project : String) (info : ProjectInfo)
    (explicit : Bool) : work.BringsNothing options (work.beginBuild project info explicit) := by
  have hTells := work.tellsMore_beginBuild project info explicit
  unfold Work.beginBuild at hTells ⊢
  dsimp only at hTells ⊢
  cases hSlot : work.state.builds.slot project with
  | queued =>
      rw [hSlot] at hTells
      exact Work.bringsNothing_of_same hTells rfl rfl
  | started =>
      rw [hSlot] at hTells
      refine ⟨hTells, ?_, ?_⟩
      · intro other
        exact changes_drain_subset _ project other
      · intro new hNew
        rcases List.mem_append.mp hNew with hOld | hBuild
        · exact Or.inl hOld
        · rw [List.mem_singleton.mp hBuild]
          exact Or.inr ⟨rfl, rfl⟩

theorem Work.bringsNothing_armTimer (work : Work) (project : String) :
    work.BringsNothing options (work.armTimer project) where
  tells := Work.tellsMore_of_same rfl
  changes := fun _ => List.Subset.refl _
  spawned := by
    intro new hNew
    rcases List.mem_append.mp hNew with hOld | hTimer
    · exact Or.inl hOld
    · rw [List.mem_singleton.mp hTimer]
      exact Or.inr ⟨rfl, rfl⟩

theorem Work.bringsNothing_trigger (work : Work) (info : ProjectInfo) (requireChanges : Bool) :
    work.BringsNothing options (work.trigger info requireChanges) := by
  have hCleared : work.BringsNothing options ((work.cancelTimer info.id).clearBatches info.id) :=
    Work.bringsNothing_of_same (Work.tellsMore_of_same rfl) rfl rfl
  refine hCleared.trans ?_
  unfold Work.trigger
  dsimp only
  split
  · exact Work.bringsNothing_require _ info.id
  · split
    · exact Work.BringsNothing.refl _
    · exact Work.bringsNothing_beginBuild _ info.id info false

theorem bringsNothing_startUpdate (work : Work) (project : String) (info : ProjectInfo) :
    work.BringsNothing options (startUpdate work project info) := by
  unfold startUpdate
  dsimp only
  split
  · exact (work.bringsNothing_cancelTimer project).trans
      (Work.bringsNothing_beginBuild _ project info true)
  · exact Work.bringsNothing_beginBuild work project info true

theorem bringsNothing_decide (work : Work) (chunk : Change) (info : ProjectInfo) :
    work.BringsNothing options (decide options work chunk info) := by
  have hRecorded : work.BringsNothing options (work.record chunk) :=
    Work.bringsNothing_of_same (Work.tellsMore_of_same rfl) rfl rfl
  unfold decide
  dsimp only
  split
  · split
    · exact work.bringsNothing_armTimer chunk.project
    · exact Work.BringsNothing.refl work
  · refine hRecorded.trans ?_
    split
    · split
      · exact Work.bringsNothing_trigger _ info false
      · split
        · exact Work.bringsNothing_trigger _ info true
        · exact Work.BringsNothing.refl _
    · exact Work.bringsNothing_armTimer _ chunk.project

theorem bringsNothing_elapse (work : Work) (self : Nat) (project : String) (lookup : Lookup) :
    work.BringsNothing options (elapse work self project lookup) := by
  unfold elapse
  cases work.state.timers.claim? project self with
  | none => exact Work.BringsNothing.refl work
  | some timers =>
      have hClaimed : work.BringsNothing options
          (work.map fun state => { state with timers := timers }) :=
        Work.bringsNothing_of_same (Work.tellsMore_of_same rfl) rfl rfl
      cases lookup with
      | found info => exact hClaimed.trans (Work.bringsNothing_trigger _ info true)
      | failed error => exact hClaimed
      | panicked => exact hClaimed

/-! ### What every turn does with settings -/

/-- A turn puts no change of settings into a buffer, and the request whose turn it is goes on, or
is accepted, only with its settings dealt with. -/
structure TurnHeeds (options : CoordinatorOptions) (questions : List Question) (request : Nat)
    (stage : Stage) (data : CoordinatorState) (turn : CoordinatorTurn) : Prop where
  changes : ∀ project, ∀ event ∈ turn.data.changes project,
    event ∈ data.changes project ∨ options.isSettingsEvent event = false
  history : data.history ⊆ turn.data.history
  answered : ∀ id result, .answered id result ∈ turn.data.history →
    .answered id result ∈ data.history ∨
      id = request ∧ ∃ call, stage.call? = some call ∧
        ∀ chunk, call = .notify chunk → result = .ok () →
          Heeded options questions turn.data.history request chunk
  next : ∀ later, turn.next.stage? = some later →
    later.call? = stage.call? ∧ ∀ now, later.Awaits options (turn.next.wait now) ∧
      later.Heeds options questions turn.data.history request (turn.next.wait now)
  spawned : ∀ new ∈ turn.spawned, new.Awaits options .turn ∧ new.call? = none

theorem Stage.heeds_of_call? {questions : List Question} {history : List Notice} {request : Nat}
    {stage : Stage} (hNone : stage.call? = none) (wait : Wait Query) :
    stage.Heeds options questions history request wait := by
  cases stage <;> trivial

section

variable {questions : List Question} {self fresh : Nat} {stage : Stage}
variable {data : CoordinatorState} {work : Work}

theorem Work.BringsNothing.turn
    (hNothing : Work.BringsNothing options { state := data, fresh := fresh } work)
    (release : Bool) (next : Next Stage Query)
    (hNext : ∀ later, next.stage? = some later →
      later.call? = stage.call? ∧ ∀ now, later.Awaits options (next.wait now) ∧
        later.Heeds options questions work.state.history self (next.wait now)) :
    TurnHeeds options questions self stage data (work.turn release next) := by
  obtain ⟨quiet, hQuiet, hImpersonal⟩ := hNothing.tells
  refine ⟨?_, ?_, ?_, hNext, ?_⟩
  · intro project event hEvent
    exact Or.inl (hNothing.changes project hEvent)
  · intro notice hNotice
    exact hQuiet ▸ List.mem_append_left quiet hNotice
  · intro request result hAnswered
    change _ ∈ work.state.history at hAnswered
    rw [hQuiet] at hAnswered
    rcases List.mem_append.mp hAnswered with hOld | hNew
    · exact Or.inl hOld
    · cases hImpersonal _ hNew
  · intro new hNew
    rcases hNothing.spawned new hNew with hOld | hStarted
    · cases hOld
    · exact hStarted

theorem Work.BringsNothing.goOn
    (hNothing : Work.BringsNothing options { state := data, fresh := fresh } work)
    {later : Stage} (release : Bool) (next : Next Stage Query) (hStage : next.stage? = some later)
    (hCall : later.call? = stage.call?) (hAwaits : ∀ now, later.Awaits options (next.wait now))
    (hHeeds : ∀ now, later.Heeds options questions data.history self (next.wait now)) :
    TurnHeeds options questions self stage data (work.turn release next) := by
  refine hNothing.turn release next ?_
  intro goal hGoal
  rw [hStage] at hGoal
  cases hGoal
  obtain ⟨quiet, hQuiet, _⟩ := hNothing.tells
  refine ⟨hCall, fun now => ⟨hAwaits now, ?_⟩⟩
  exact Stage.Heeds.mono (List.Subset.refl questions)
    (hQuiet ▸ List.subset_append_left data.history quiet) (hHeeds now)

theorem Work.BringsNothing.finish
    (hNothing : Work.BringsNothing options { state := data, fresh := fresh } work) :
    TurnHeeds options questions self stage data work.finish := by
  refine hNothing.turn false .finish ?_
  intro later hLater
  cases hLater

theorem Work.BringsNothing.answer
    (hNothing : Work.BringsNothing options { state := data, fresh := fresh } work) {call : Call}
    (result : UpdateResult) (hCall : stage.call? = some call)
    (hHeeded : ∀ chunk, call = .notify chunk → result = .ok () →
      Heeded options questions data.history self chunk) :
    TurnHeeds options questions self stage data (work.answer self result) := by
  have hTurn : TurnHeeds options questions self stage data work.finish := hNothing.finish
  have hTold : work.state.history ⊆ work.state.history ++ [.answered self result] :=
    List.subset_append_left _ _
  have hKept := List.Subset.trans hTurn.history hTold
  refine ⟨hTurn.changes, hKept, ?_, ?_, hTurn.spawned⟩
  · intro request told hAnswered
    rcases List.mem_append.mp hAnswered with hEarly | hNow
    · rcases hTurn.answered request told hEarly with hOld | ⟨hSelf, other, hOther, hDone⟩
      · exact Or.inl hOld
      · refine Or.inr ⟨hSelf, other, hOther, ?_⟩
        intro chunk hChunk hOk
        exact (hDone chunk hChunk hOk).mono (List.Subset.refl _) hTold
    · cases List.mem_singleton.mp hNow
      refine Or.inr ⟨rfl, call, hCall, ?_⟩
      intro chunk hChunk hOk
      exact (hHeeded chunk hChunk hOk).mono (List.Subset.refl _) hKept
  · intro later hLater
    cases hLater

theorem Work.BringsNothing.refuse
    (hNothing : Work.BringsNothing options { state := data, fresh := fresh } work)
    (error : UpdateError) {call : Call} (hCall : stage.call? = some call) :
    TurnHeeds options questions self stage data (work.answer self (.error error)) :=
  hNothing.answer (.error error) hCall nofun

theorem withProject_heeds {project : String} {lookup : Lookup}
    {next : ProjectInfo → CoordinatorTurn} {call : Call} (hCall : stage.call? = some call)
    (hNext : ∀ info, lookup = .found info →
      TurnHeeds options questions self stage data (next info)) :
    TurnHeeds options questions self stage data
      (withProject { state := data, fresh := fresh } self project lookup next) := by
  cases lookup with
  | found info => exact hNext info rfl
  | failed error => exact (Work.BringsNothing.refl _).refuse _ hCall
  | panicked => exact (Work.BringsNothing.refl _).refuse _ hCall

theorem proceed_heeds
    (hNothing : Work.BringsNothing options { state := data, fresh := fresh } work)
    (release : Bool) {chunk : Change} (info : ProjectInfo)
    (hCall : stage.call? = some (.notify chunk))
    (hApplied : touchesSettings options chunk = true →
      SettingsApplied options questions self chunk.project) :
    TurnHeeds options questions self stage data (proceed options work release chunk info) := by
  unfold proceed
  split
  · rename_i hEmpty
    refine hNothing.goOn release _ rfl hCall.symm (fun _ => rfl) ?_
    intro now
    exact ⟨hApplied, fun hSome => absurd (List.isEmpty_iff.mp hEmpty) hSome⟩
  · exact hNothing.goOn release _ rfl hCall.symm (fun _ => rfl) fun _ => hApplied

theorem afterLoad_heeds (hApplies : options.appliesSettings = true) {chunk : Change}
    {info : ProjectInfo} (loaded : Option Settings)
    (hCall : stage.call? = some (.notify chunk))
    (hFound : ⟨self, .lookUp chunk.project, .lookup (.found info)⟩ ∈ questions)
    (hLoaded : ⟨self, .loadSettings (info.pathOf options.settingsFile), .settings loaded⟩ ∈
      questions) :
    TurnHeeds options questions self stage data
      (afterLoad options { state := data, fresh := fresh } chunk info loaded) := by
  unfold afterLoad
  cases loaded with
  | none =>
      refine proceed_heeds (Work.BringsNothing.refl _) false info hCall ?_
      intro _
      refine ⟨info, none, hFound, hLoaded, ?_⟩
      rintro settings ⟨⟩
  | some settings =>
      dsimp only
      rw [if_pos hApplies]
      have hTold : Work.BringsNothing options { state := data, fresh := fresh }
          (Work.map { state := data, fresh := fresh } (·.tell (.applying info.id settings))) :=
        Work.bringsNothing_of_same ⟨[.applying info.id settings], rfl, by simp [Notice.request?]⟩
          rfl rfl
      refine hTold.goOn false _ rfl hCall.symm (fun _ => ⟨settings, rfl⟩) ?_
      intro now
      refine ⟨hFound, ?_⟩
      intro other hWait
      cases hWait
      exact hLoaded

theorem handOver_heeds
    (hNothing : Work.BringsNothing options { state := data, fresh := fresh } work)
    (release : Bool) (info : ProjectInfo) (changes : Option (List ChangeEvent))
    (hCall : stage.call? = none) :
    TurnHeeds options questions self stage data (handOver options work release info changes) := by
  have hTold : work.BringsNothing options ((work.map (·.tell (.started info.id))).map
      (·.tell (.handed (options.operation info) changes))) :=
    Work.bringsNothing_of_same ⟨[.started info.id, .handed (options.operation info) changes],
      List.append_assoc _ [_] [_], by simp [Notice.request?]⟩ rfl rfl
  exact (hNothing.trans hTold).goOn release _ rfl hCall.symm (fun _ => ⟨info, changes, rfl, rfl⟩)
    fun _ => trivial

theorem buffer_heeds (chunk : Change) (info : ProjectInfo)
    (hApplied : touchesSettings options chunk = true →
      SettingsApplied options questions self chunk.project) :
    TurnHeeds options questions self (.changeBuffer chunk info) data
      ((Work.map { state := data, fresh := fresh }
        (·.buffer self chunk.project (buildEvents options chunk))).turn true
          (.acquire allLocks (.changeLocked chunk info))) where
  changes := by
    intro project event hEvent
    change event ∈ (data.buffer self chunk.project (buildEvents options chunk)).changes project
      at hEvent
    rw [CoordinatorState.changes_buffer] at hEvent
    split at hEvent
    · rename_i hSame
      subst hSame
      exact (List.mem_append.mp hEvent).imp_right fun hNew => (mem_buildEvents_iff.mp hNew).2
    · exact Or.inl hEvent
  history := List.subset_append_left _ _
  answered := by
    intro request result hAnswered
    rcases List.mem_append.mp hAnswered with hOld | hNew
    · exact Or.inl hOld
    · cases List.mem_singleton.mp hNew
  next := by
    rintro later ⟨⟩
    refine ⟨rfl, fun now => ⟨rfl, hApplied, fun _ => ?_⟩⟩
    exact List.mem_append_right _ List.mem_cons_self
  spawned := by
    intro new hNew
    cases hNew

end

theorem resume_heeds (hApplies : options.appliesSettings = true) {questions : List Question}
    (self fresh : Nat) {stage : Stage} {wait : Wait Query} {answer? : Option Answer}
    (data : CoordinatorState) (hAwaits : stage.Awaits options wait)
    (hHeeds : stage.Heeds options questions data.history self wait)
    (hRecorded : Recorded questions self wait answer?) :
    TurnHeeds options questions self stage data
      (resume options self fresh stage answer? data) := by
  have hStart : Work.BringsNothing options { state := data, fresh := fresh }
      { state := data, fresh := fresh } := Work.BringsNothing.refl _
  cases stage with
  | update project => exact hStart.goOn false _ rfl rfl (fun _ => rfl) fun _ => trivial
  | updateFound project =>
      refine withProject_heeds rfl ?_
      intro info _
      unfold updateWith
      split
      · exact hStart.goOn false _ rfl rfl (fun _ => rfl) fun _ => trivial
      · exact (Work.bringsNothing_require _ project).answer (.ok ()) rfl nofun
  | updateLocked project info =>
      exact (bringsNothing_startUpdate _ project info).answer (.ok ()) rfl nofun
  | change chunk => exact hStart.goOn false _ rfl rfl (fun _ => rfl) fun _ => trivial
  | changeFound chunk =>
      cases hAwaits
      obtain ⟨lookup, rfl, hAsked⟩ := hRecorded
      refine withProject_heeds rfl ?_
      rintro info ⟨⟩
      exact hStart.goOn false _ rfl rfl (fun _ => rfl) fun _ => hAsked
  | changeTimer chunk info =>
      have hCancelled : Work.BringsNothing options { state := data, fresh := fresh }
          (Work.cancelTimer { state := data, fresh := fresh } chunk.project) :=
        Work.bringsNothing_cancelTimer _ chunk.project
      simp only [resume]
      unfold afterCancel
      split
      · rename_i hTouches
        exact hCancelled.goOn true _ rfl rfl (fun _ => rfl) fun _ => ⟨hTouches, hHeeds⟩
      · rename_i hSpares
        exact proceed_heeds hCancelled true info rfl fun hTouches => absurd hTouches hSpares
  | changeLoaded chunk info =>
      cases hAwaits
      obtain ⟨loaded, rfl, hLoaded⟩ := hRecorded
      exact afterLoad_heeds hApplies loaded rfl hHeeds.2 hLoaded
  | changeApplied chunk info =>
      obtain ⟨settings, rfl⟩ := hAwaits
      obtain ⟨result, rfl, hAsked⟩ := hRecorded
      -- Whatever came of applying them, they are the settings that were loaded.
      have hApplied : SettingsApplied options questions self chunk.project := by
        refine ⟨info, some settings, hHeeds.1, hHeeds.2 settings rfl, ?_⟩
        rintro other ⟨⟩
        exact ⟨result, hAsked⟩
      cases result with
      | applied => exact hStart.goOn false _ rfl rfl (fun _ => rfl) fun _ => hApplied
      | failed => exact proceed_heeds hStart false info rfl fun _ => hApplied
      | panicked => exact hStart.refuse _ rfl
  | changeRefreshed chunk =>
      refine withProject_heeds rfl ?_
      intro info _
      exact proceed_heeds hStart false info rfl fun _ => hHeeds
  | changeBuffer chunk info => exact buffer_heeds chunk info hHeeds
  | changeLocked chunk info =>
      refine (bringsNothing_decide _ chunk info).answer (.ok ()) rfl ?_
      rintro same ⟨⟩ _
      exact hHeeds
  | timer project => exact hStart.goOn false _ rfl rfl (fun _ => ⟨_, rfl⟩) fun _ => trivial
  | timerElapsed project => exact hStart.goOn false _ rfl rfl (fun _ => rfl) fun _ => trivial
  | timerFound project =>
      simp only [resume]
      split
      · exact hStart.finish
      · exact hStart.goOn false _ rfl rfl (fun _ => rfl) fun _ => trivial
  | timerLocked project lookup => exact (bringsNothing_elapse _ self project lookup).finish
  | build info changes => exact handOver_heeds hStart false info changes rfl
  | buildEnded project =>
      have hEnded (followUp? : Option FollowUp) (result : BuildResult) :
          Work.BringsNothing options { state := data, fresh := fresh }
            (Work.map { state := data, fresh := fresh } fun state =>
              { (state.tell (.finished project result)).tell (.passedOn project followUp?) with
                builds := state.builds.finish project }) :=
        Work.bringsNothing_of_same ⟨[.finished project result, .passedOn project followUp?],
          List.append_assoc _ [_] [_], by simp [Notice.request?]⟩ rfl rfl
      simp only [resume]
      unfold endBuild
      dsimp only
      split
      · exact (hEnded _ _).goOn false _ rfl rfl (fun _ => rfl) fun _ => trivial
      · exact (hEnded _ _).finish
  | followUpFound project followUp =>
      have hAbandoned (work : Work) : work.BringsNothing options
          (work.map fun state => { state with builds := state.builds.abandon project }) :=
        Work.bringsNothing_of_same (Work.tellsMore_of_same rfl) rfl rfl
      simp only [resume]
      unfold followUpWith
      split
      · split
        · exact hStart.goOn false _ rfl rfl (fun _ => rfl) fun _ => trivial
        · exact ((Work.bringsNothing_require _ project).trans (hAbandoned _)).finish
      · exact (hAbandoned _).finish
      · exact hStart.finish
  | followUpLocked project info followUp =>
      have hDrained : Work.BringsNothing options { state := data, fresh := fresh }
          (Work.map { state := data, fresh := fresh } (·.drain project)) :=
        ⟨⟨[.drained project (data.changes project)], rfl, by simp [Notice.request?]⟩,
          fun other => changes_drain_subset data project other, fun new hNew => Or.inl hNew⟩
      exact handOver_heeds hDrained true info _ rfl

end Coordinator

end BuildWatch
