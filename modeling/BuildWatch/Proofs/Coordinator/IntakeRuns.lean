import BuildWatch.Proofs.Coordinator.BuildTasks
import BuildWatch.Proofs.Coordinator.Intake
import BuildWatch.Proofs.Coordinator.Isolation
import BuildWatch.Proofs.Coordinator.QuietPeriods

/-!
The intake of a project along a run.  While no quiet period of the project is over and no
build of it is asked for outright, every event lets a chunk come, counts one, or passes by.
-/

namespace BuildWatch

open BuildWatch.Tasks

namespace Coordinator

variable {options : CoordinatorOptions} {project : String}

/-! ### The intake of a run -/

def intakeOf (options : CoordinatorOptions) (project : String) (system : CoordinatorSystem) :
    Intake :=
  Intake.of options project (system.tasks.map Task.stage) system.data

section

variable {circumstances : Circumstances} {system : CoordinatorSystem}

theorem filterMap_kept {α : Type} (see : Stage → Option α) (tasks : List (Task Stage Query))
    (kept : Task Stage Query → Bool)
    (hUnseen : ∀ task ∈ tasks, kept task = false → see task.stage = none) :
    ((tasks.filter kept).map Task.stage).filterMap see =
      (tasks.map Task.stage).filterMap see := by
  rw [List.filterMap_map, List.filterMap_map, List.filterMap_filter]
  refine List.filterMap_congr ?_
  intro task hTask
  cases hKept : kept task with
  | true => simp
  | false => simp [hUnseen task hTask hKept]

theorem Stage.change?_of_quiet {stage : Stage} (hQuiet : stage.quiet?.isSome = true) :
    stage.change? = none := by
  cases stage <;> first | rfl | cases hQuiet

theorem Sound.intake_applyTurn (hSound : Sound circumstances options system)
    {task : Task Stage Query} {earlier later : List (Task Stage Query)} {turn : CoordinatorTurn}
    (hTasks : system.tasks = earlier ++ task :: later)
    (hTurn : TurnSound circumstances options system.nextId task.stage system.data turn) :
    intakeOf options project (system.applyTurn task.id turn) =
      turnIntake options project (earlier.map Task.stage) (later.map Task.stage) turn := by
  have hTask : task ∈ system.tasks := by simp [hTasks]
  have hStages := System.applyTurn_stages turn hTasks hSound.ids hSound.below
    (hSound.self_stays hTask hTurn)
  -- Whatever is dropped is a timer, and a timer takes in no chunk.
  have hKept {α : Type} (see : Stage → Option α)
      (hUnseen : ∀ stage : Stage, stage.change? = none → see stage = none)
      (tasks : List (Task Stage Query)) (hAmong : ∀ other ∈ tasks, other ∈ system.tasks) :
      ((tasks.filter fun other => !turn.dropped.contains other.id).map Task.stage).filterMap see =
        (tasks.map Task.stage).filterMap see := by
    refine filterMap_kept see tasks _ ?_
    intro other hOther hGone
    refine hUnseen other.stage (Stage.change?_of_quiet ?_)
    refine hSound.quiet_of_kept (hAmong other hOther) (hTurn.dropped other.id ?_)
    simpa using hGone
  have hSee {α : Type} (see : Stage → Option α)
      (hUnseen : ∀ stage : Stage, stage.change? = none → see stage = none) :
      ((system.applyTurn task.id turn).tasks.map Task.stage).filterMap see =
        (earlier.map Task.stage ++ turn.next.stage?.toList ++ later.map Task.stage ++
          turn.spawned).filterMap see := by
    rw [hStages]
    simp only [List.filterMap_append]
    rw [hKept see hUnseen earlier fun other hOther => by simp [hTasks, hOther],
      hKept see hUnseen later fun other hOther => by simp [hTasks, hOther]]
  refine Intake.ext (hSound.view_applyTurn hTasks hTurn) ?_ ?_ ?_
  · exact congrArg (fun data : CoordinatorState => data.batches.progress project)
      (System.applyTurn_data system task.id turn)
  · exact hSee _ fun _ hNone => Stage.taking?_of_none hNone
  · exact hSee _ fun _ hNone => Stage.toPour?_of_none hNone

theorem View.foldl_tell (told : List Notice) (view : View) :
    told.foldl View.tell view = { view with history := view.history ++ told } := by
  induction told generalizing view with
  | nil => simp
  | cons notice rest ih => simp [ih, View.tell]

theorem Stage.project_of_change? {stage : Stage} {chunk : Change}
    (hChange : stage.change? = some chunk) : stage.project = chunk.project := by
  cases stage <;> first | (cases hChange; rfl) | cases hChange

theorem Stage.taking?_of_ne {stage : Stage} (hOther : stage.project ≠ project) :
    stage.taking? project = none := by
  cases hChange : stage.change? with
  | none => exact Stage.taking?_of_none hChange
  | some chunk =>
      have hApart : chunk.project ≠ project := by
        rw [← Stage.project_of_change? hChange]
        exact hOther
      unfold Stage.taking?
      rw [hChange]
      simp [Option.filter, hApart]

theorem Stage.toPour?_of_ne {stage : Stage} (hOther : stage.project ≠ project) :
    stage.toPour? options project = none := by
  unfold Stage.toPour?
  rw [Stage.taking?_of_ne hOther, Option.bind_none, ite_self]

theorem filterMap_tasksOf {α : Type} (see : Stage → Option α)
    (hUnseen : ∀ stage : Stage, stage.project ≠ project → see stage = none)
    (system : CoordinatorSystem) :
    ((tasksOf project system).map Task.stage).filterMap see =
      (system.tasks.map Task.stage).filterMap see := by
  refine filterMap_kept see system.tasks _ ?_
  intro task _ hApart
  exact hUnseen task.stage (by simpa using hApart)

theorem Untouched.intake (options : CoordinatorOptions) {other : CoordinatorSystem}
    (hUntouched : Untouched project system other) :
    ∃ told, (∀ notice ∈ told, notice.project? ≠ some project) ∧
      intakeOf options project other = (intakeOf options project system).tell told := by
  obtain ⟨hShare, hTasks, told, hTold, hApart⟩ := hUntouched
  have hSee {α : Type} (see : Stage → Option α)
      (hUnseen : ∀ stage : Stage, stage.project ≠ project → see stage = none) :
      (other.tasks.map Task.stage).filterMap see = (system.tasks.map Task.stage).filterMap see := by
    rw [← filterMap_tasksOf see hUnseen, ← filterMap_tasksOf see hUnseen, hTasks]
  have hTaking := hSee (Stage.taking? project) fun _ hOther => Stage.taking?_of_ne hOther
  refine ⟨told, hApart.others, ?_⟩
  refine Intake.ext ?_ (congrArg Share.countdowns hShare) hTaking ?_
  · change _ = told.foldl View.tell (intakeOf options project system).view
    rw [View.foldl_tell]
    refine View.ext ?_ (congrArg Share.changes hShare) (congrArg Share.build hShare) ?_ ?_ hTold
    · exact congrArg (fun share => share.timer.isSome) hShare
    · exact hSee (Stage.phaseOf? project) fun _ hOther => Stage.phaseOf?_of_ne hOther
    · unfold intakeOf
      rw [Intake.changing_eq]
      exact (congrArg List.length hTaking).trans
        (Intake.changing_eq options project (system.tasks.map Task.stage) system.data).symm
  · exact hSee (Stage.toPour? options project) fun _ hOther => Stage.toPour?_of_ne hOther

end

/-! ### Events -/

def Event.chunk? (project : String) (event : Event) : Option Change :=
  match event.call? with
  | some (.notify chunk) => if chunk.project = project then some chunk else none
  | _ => none

theorem Event.chunk?_eq_some_iff (event : Event) (chunk : Change) :
    event.chunk? project = some chunk ↔
      event.call? = some (.notify chunk) ∧ chunk.project = project := by
  unfold Event.chunk?
  split
  · rename_i other hCall
    rw [hCall]
    by_cases hSame : other.project = project
    · simp only [if_pos hSame, Option.some.injEq, Call.notify.injEq]
      exact ⟨fun hOther => ⟨hOther, hOther ▸ hSame⟩, And.left⟩
    · simp only [if_neg hSame, Option.some.injEq, Call.notify.injEq]
      exact iff_of_false nofun fun hOther => hSame (hOther.1 ▸ hOther.2)
  · rename_i hNotify
    exact iff_of_false nofun fun hChunk => hNotify chunk hChunk.1

/-- A quiet period of a project is over. -/
def Elapsed (project : String) (system : CoordinatorSystem) : Prop :=
  ∃ task ∈ system.tasks, task.stage = .timerElapsed project ∧
    ∃ due, task.wait = .clock due ∧ due ≤ system.now

theorem not_elapsed_of_later {system : CoordinatorSystem} (hLater : ∀ task ∈ system.tasks,
    ∀ due ∈ System.due? task, system.now < due) : ¬ Elapsed project system := by
  rintro ⟨task, hTask, _, due, hWait, hOver⟩
  have hDue : System.due? task = some due := by
    unfold System.due?
    rw [hWait]
  exact Nat.not_lt.mpr hOver (hLater task hTask due hDue)

/-- Nothing but chunks is asked for of a project, and no quiet period of it has been taken note
of. -/
structure Undisturbed (project : String) (system : CoordinatorSystem) : Prop where
  requests : ∀ task ∈ system.tasks, task.stage.call? ≠ some (.update project)
  quiet : ∀ task ∈ system.tasks, task.stage.quiet? = some project →
    task.stage = .timer project ∨ task.stage = .timerElapsed project

section

variable {circumstances : Circumstances} {system : CoordinatorSystem}

theorem intake_come (system : CoordinatorSystem) {chunk : Change} (hProject : chunk.project = project) :
    intakeOf options project (takeCall system (some (.notify chunk))) =
      (intakeOf options project system).come options chunk := by
  have hTakes : Stage.taking? project (.change chunk) = some chunk :=
    Stage.taking?_of_change? rfl hProject
  have hPours : Stage.toPour? options project (.change chunk) = pourable? options chunk :=
    Stage.toPour?_of_change? options rfl hProject rfl
  have hDeals : Stage.dealsWith project (.change chunk) = true :=
    (Stage.dealsWith_iff project rfl).mpr hProject
  have hPhase : Stage.phaseOf? project (.change chunk) = none :=
    Stage.phaseOf?_of_phase? project rfl
  refine Intake.ext (View.ext rfl rfl rfl ?_ ?_ rfl) rfl ?_ ?_
  · simp [intakeOf, takeCall, System.spawn, Call.stage, Intake.of, View.of, Intake.come, hPhase]
  · simp [intakeOf, takeCall, System.spawn, Call.stage, Intake.of, View.of, Intake.come, hDeals]
  · simp [intakeOf, takeCall, System.spawn, Call.stage, Intake.of, Intake.come, hTakes]
  · cases hPourable : pourable? options chunk <;>
      simp [intakeOf, takeCall, System.spawn, Call.stage, Intake.of, Intake.come, hPours,
        hPourable]

theorem Stage.kinds (stage : Stage) :
    (∃ chunk, stage.change? = some chunk) ∨ stage.quiet? = some stage.project ∨
      (∃ phase, stage.phase? = some phase) ∨ stage.call? = some (.update stage.project) := by
  cases stage with
  | update project => exact Or.inr (Or.inr (Or.inr rfl))
  | updateFound project => exact Or.inr (Or.inr (Or.inr rfl))
  | updateLocked project info => exact Or.inr (Or.inr (Or.inr rfl))
  | timer project => exact Or.inr (Or.inl rfl)
  | timerElapsed project => exact Or.inr (Or.inl rfl)
  | timerFound project => exact Or.inr (Or.inl rfl)
  | timerLocked project lookup => exact Or.inr (Or.inl rfl)
  | build info changes => exact Or.inr (Or.inr (Or.inl ⟨_, rfl⟩))
  | buildEnded project => exact Or.inr (Or.inr (Or.inl ⟨_, rfl⟩))
  | followUpFound project followUp => exact Or.inr (Or.inr (Or.inl ⟨_, rfl⟩))
  | followUpLocked project info followUp => exact Or.inr (Or.inr (Or.inl ⟨_, rfl⟩))
  | _ => exact Or.inl ⟨_, rfl⟩

theorem Stage.eq_changeLocked {stage : Stage} {chunk : Change} (hPoured : stage.isPoured = true)
    (hChange : stage.change? = some chunk) : ∃ info, stage = .changeLocked chunk info := by
  cases stage with
  | changeLocked same info =>
      cases hChange
      exact ⟨info, rfl⟩
  | _ => cases hPoured

theorem Stage.call?_of_change? {stage : Stage} {chunk : Change}
    (hChange : stage.change? = some chunk) : stage.call? = some (.notify chunk) := by
  unfold Stage.call?
  rw [hChange]
  rfl

theorem Stage.change?_of_call? {stage : Stage} {chunk : Change}
    (hCall : stage.call? = some (.notify chunk)) : stage.change? = some chunk := by
  cases stage <;> first | (cases hCall; rfl) | cases hCall

/-- What holds of a run in which chunks of a project are taken in and nothing else is asked for
of it. -/
structure Run.Receives (options : CoordinatorOptions) (project : String) (run : Run) : Prop where
  sound : Sound (.dependable project) options run.system
  tended : Tended run.system
  booked : run.Booked options
  one : (run.view project).OneBuild
  behind : (run.view project).QueuesBehind
  undisturbed : Undisturbed project run.system

def Run.intake (options : CoordinatorOptions) (project : String) (run : Run) : Intake :=
  intakeOf options project run.system

/-- The timers of a project have only just begun. -/
def Renewed (project : String) (system : CoordinatorSystem) : Prop :=
  ∀ task ∈ system.tasks, task.stage.quiet? = some project → task.stage = .timer project

theorem Sound.renewed_applyTurn (hSound : Sound circumstances options system)
    {task : Task Stage Query} {turn : CoordinatorTurn}
    (hTurn : TurnSound circumstances options system.nextId task.stage system.data turn)
    (hTended : Tended (system.applyTurn task.id turn)) (hEnds : turn.next.stage? = none)
    (hFresh : ∀ id, turn.data.timers.waiting.get? project = some id → system.nextId ≤ id) :
    Renewed project (system.applyTurn task.id turn) := by
  intro other hOther hQuiet
  have hKept := hTended other hOther project hQuiet
  rw [System.applyTurn_data] at hKept
  have hNew := hFresh other.id hKept
  rcases System.mem_applyTurn_tasks hOther with ⟨hOld, _⟩ | ⟨_, hNext, _⟩ | ⟨_, index, hStage, _⟩
  · exact absurd (hSound.below other hOld) (Nat.not_lt.mpr hNew)
  · rw [hEnds] at hNext
    cases hNext
  · exact Stage.eq_timer (hTurn.spawned _ (List.mem_of_getElem? hStage)).1 hQuiet

/-! ### Turns -/

section

variable {task : Task Stage Query} {answer? : Option Answer}
variable (hSound : Sound (.dependable project) options system) (hTask : task ∈ system.tasks)
variable (hReplies : Replies (.dependable project) task.wait answer?)

include hSound hTask hReplies

theorem Sound.turnSound_resume :
    TurnSound (.dependable project) options system.nextId task.stage system.data
      (resume options task.id system.nextId task.stage answer? system.data) :=
  resume_sound task.id system.nextId system.data (hSound.awaits task hTask)
    (hSound.informed task hTask) hReplies

theorem Sound.intake_resume {earlier later : List (Task Stage Query)}
    (hTasks : system.tasks = earlier ++ task :: later) :
    let turn := resume options task.id system.nextId task.stage answer? system.data
    intakeOf options project system = Intake.of options project
        (earlier.map Task.stage ++ task.stage :: later.map Task.stage) system.data ∧
      intakeOf options project (system.applyTurn task.id turn) =
        turnIntake options project (earlier.map Task.stage) (later.map Task.stage) turn := by
  refine ⟨?_, hSound.intake_applyTurn hTasks (hSound.turnSound_resume hTask hReplies)⟩
  unfold intakeOf
  rw [hTasks, List.map_append, List.map_cons]

theorem Sound.chunk_passes {chunk : Change} (hChange : task.stage.change? = some chunk)
    (hProject : chunk.project = project) (hPoured : task.stage.isPoured = false)
    (hSome : ∀ info, task.stage = .changeBuffer chunk info → buildEvents options chunk ≠ []) :
    let turn := resume options task.id system.nextId task.stage answer? system.data
    Intake.Passes (.dependable project) project (intakeOf options project system)
      (intakeOf options project (system.applyTurn task.id turn)) := by
  obtain ⟨earlier, later, hTasks⟩ := List.append_of_mem hTask
  obtain ⟨hBefore, hAfter⟩ := hSound.intake_resume hTask hReplies hTasks
  dsimp only
  rw [hBefore, hAfter]
  exact resume_passes task.id system.nextId _ _ system.data (hSound.awaits task hTask)
    hReplies hChange hProject hPoured hSome

omit hReplies in
/-- A request that waits for its chunk to be counted has an info of its project, which is built
on its own. -/
theorem Sound.exists_info {chunk : Change} (hChange : task.stage.change? = some chunk)
    (hProject : chunk.project = project) (hPoured : task.stage.isPoured = true) :
    ∃ info, task.stage = .changeLocked chunk info ∧ info.id = project ∧ info.autoBuild = true := by
  obtain ⟨info, hStage⟩ := Stage.eq_changeLocked hPoured hChange
  have hLookup : (Circumstances.dependable project).lookup chunk.project (.found info) := by
    have hInformed := hSound.informed task hTask
    rw [hStage] at hInformed
    exact hInformed
  obtain ⟨found, hFound, hAuto⟩ := hLookup.2 hProject
  cases hFound
  exact ⟨info, hStage, (hLookup.1 info rfl).trans hProject, hAuto⟩

theorem Sound.chunk_counts {chunk : Change} (hChange : task.stage.change? = some chunk)
    (hProject : chunk.project = project) (hPoured : task.stage.isPoured = true)
    (hExpects : (intakeOf options project system).Expects options chunk)
    (hIdle : (system.data.builds.state project).inProgress = false) :
    let turn := resume options task.id system.nextId task.stage answer? system.data
    let next := system.applyTurn task.id turn
    Intake.Counts project chunk task.id (intakeOf options project system)
        (intakeOf options project next) ∧
      (Tended next → Renewed project next) := by
  have hTurn := hSound.turnSound_resume hTask hReplies
  obtain ⟨earlier, later, hTasks⟩ := List.append_of_mem hTask
  obtain ⟨hBefore, hAfter⟩ := hSound.intake_resume hTask hReplies hTasks
  obtain ⟨info, hStage, hId, hAuto⟩ := hSound.exists_info hTask hChange hProject hPoured
  dsimp only
  rw [hBefore] at hExpects ⊢
  rw [hAfter]
  rw [hStage] at hExpects
  have hCounted := resume_counts task.id system.nextId (earlier.map Task.stage)
    (later.map Task.stage) answer? system.data hProject hId hAuto hIdle hExpects
  rw [← hStage] at hCounted
  refine ⟨hCounted.1, ?_⟩
  intro hTended
  refine hSound.renewed_applyTurn hTurn hTended ?_ hCounted.2
  rw [hStage]
  rfl

end

theorem Sound.intake_apart (hSound : Sound circumstances options system)
    {task : Task Stage Query} {turn : CoordinatorTurn} (hTask : task ∈ system.tasks)
    (hTurn : TurnSound circumstances options system.nextId task.stage system.data turn)
    (hChange : task.stage.change? = none) (hBatches : turn.data.batches = system.data.batches)
    (hSpawned : turn.spawned = [])
    (hNext : ∀ later, turn.next.stage? = some later → later.change? = none) :
    intakeOf options project (system.applyTurn task.id turn) =
      { intakeOf options project system with
        view := systemView project (system.applyTurn task.id turn) } := by
  obtain ⟨earlier, later, hTasks⟩ := List.append_of_mem hTask
  have hSee {α : Type} (see : Stage → Option α)
      (hUnseen : ∀ stage : Stage, stage.change? = none → see stage = none) :
      (earlier.map Task.stage ++ turn.next.stage?.toList ++ later.map Task.stage ++
          turn.spawned).filterMap see = (system.tasks.map Task.stage).filterMap see := by
    have hGoal : turn.next.stage?.toList.filterMap see = [] := by
      cases hStage : turn.next.stage? with
      | none => rfl
      | some goal => simp [hUnseen goal (hNext goal hStage)]
    rw [hSpawned, hTasks]
    simp [hGoal, hUnseen task.stage hChange]
  have hIntake : intakeOf options project (system.applyTurn task.id turn) = turnIntake options
      project (earlier.map Task.stage) (later.map Task.stage) turn :=
    hSound.intake_applyTurn hTasks hTurn
  refine Intake.ext rfl ?_ ?_ ?_
  · rw [hIntake]
    exact congrArg (fun batches : Batches => batches.progress project) hBatches
  · rw [hIntake]
    exact hSee _ fun _ hNone => Stage.taking?_of_none hNone
  · rw [hIntake]
    exact hSee _ fun _ hNone => Stage.toPour?_of_none hNone

section

variable {task : Task Stage Query} {answer? : Option Answer}
variable (hSound : Sound (.dependable project) options system) (hTask : task ∈ system.tasks)
variable (hReplies : Replies (.dependable project) task.wait answer?)

include hSound hTask hReplies

theorem Sound.build_intake {phase : Phase} (hPhase : task.stage.phase? = some phase)
    (hProject : task.stage.project = project)
    (hOne : (systemView project system).phases.length ≤ 1) :
    let turn := resume options task.id system.nextId task.stage answer? system.data
    Intake.Passes (.dependable project) project (intakeOf options project system)
      (intakeOf options project (system.applyTurn task.id turn)) := by
  have hTurn := hSound.turnSound_resume hTask hReplies
  have hPhaseOf : task.stage.phaseOf? project = some phase :=
    (Stage.phaseOf?_eq_some_iff _ _ _).mpr ⟨hProject, hPhase⟩
  have hAdvance := hSound.advance_applyTurn hTask (hSound.informed task hTask) hReplies hTurn
    hPhaseOf hOne
  obtain ⟨hBatches, hSpawned, hNext⟩ := resume_builds options task.id system.nextId answer?
    system.data hPhase
  dsimp only
  rw [hSound.intake_apart hTask hTurn (Stage.change?_of_phase? hPhase) hBatches hSpawned hNext]
  exact .build _ _ hAdvance

theorem Sound.timer_intake (hStage : task.stage = .timer project) :
    let turn := resume options task.id system.nextId task.stage answer? system.data
    intakeOf options project (system.applyTurn task.id turn) =
      intakeOf options project system := by
  have hTurn := hSound.turnSound_resume hTask hReplies
  obtain ⟨earlier, later, hTasks⟩ := List.append_of_mem hTask
  have hView : systemView project (system.applyTurn task.id
      (resume options task.id system.nextId task.stage answer? system.data)) =
        systemView project system := by
    rw [hSound.view_applyTurn hTasks hTurn]
    unfold turnView systemView
    rw [hTasks, hStage]
    refine View.ext rfl rfl rfl ?_ ?_ rfl
    · simp [View.of, resume, Work.turn, Next.stage?, hStage, Stage.phaseOf?, Stage.phase?]
    · simp [View.of, resume, Work.turn, Next.stage?, hStage, Stage.dealsWith, Stage.change?]
  dsimp only
  rw [hSound.intake_apart hTask hTurn, hView]
  · rfl
  · rw [hStage]
    rfl
  · rw [hStage]
    rfl
  · rw [hStage]
    rfl
  · rw [hStage]
    rintro later ⟨⟩
    rfl

end

/-! ### Steps -/

theorem Sound.elapsed_of_grant (hSound : Sound circumstances options system)
    {task : Task Stage Query} {answer : Query → Option Answer} {answer? : Option Answer}
    (hTask : task ∈ system.tasks) (hStage : task.stage = .timerElapsed project)
    (hGrant : system.grant? answer task = some answer?) : Elapsed project system := by
  have hAwaits := hSound.awaits task hTask
  rw [hStage] at hAwaits
  obtain ⟨due, hWait⟩ := hAwaits
  refine ⟨task, hTask, hStage, due, hWait, ?_⟩
  unfold System.grant? at hGrant
  rw [hWait] at hGrant
  by_contra hLate
  simp only [if_neg hLate] at hGrant
  cases hGrant

theorem undisturbed_takeCall (hUndisturbed : Undisturbed project system) {call? : Option Call}
    (hNoUpdate : call? ≠ some (.update project)) :
    Undisturbed project (takeCall system call?) := by
  cases call? with
  | none => exact hUndisturbed
  | some call =>
      have hCall : call.stage.call? = some call := by cases call <;> rfl
      refine ⟨?_, ?_⟩
      · intro task hTask
        rcases List.mem_append.mp hTask with hOld | hNew
        · exact hUndisturbed.requests task hOld
        · rw [List.mem_singleton.mp hNew]
          exact hCall ▸ hNoUpdate
      · intro task hTask hQuiet
        rcases List.mem_append.mp hTask with hOld | hNew
        · exact hUndisturbed.quiet task hOld hQuiet
        · rw [List.mem_singleton.mp hNew] at hQuiet
          cases call <;> cases hQuiet

theorem Sound.undisturbed_happen (hSound : Sound (.dependable project) options system)
    (hUndisturbed : Undisturbed project system) {event : Event}
    (hWithin : event.Within (.dependable project))
    (hNoUpdate : event.call? ≠ some (.update project)) (hNotOver : ¬ Elapsed project system) :
    Undisturbed project (Coordinator.happen options system event) := by
  cases event with
  | update asked => exact undisturbed_takeCall hUndisturbed hNoUpdate
  | notify notification => exact undisturbed_takeCall hUndisturbed hNoUpdate
  | shutdown => exact hWithin.elim
  | pass duration => exact ⟨hUndisturbed.requests, hUndisturbed.quiet⟩
  | reorder ready => exact ⟨hUndisturbed.requests, hUndisturbed.quiet⟩
  | poll id surrounding =>
      simp only [Coordinator.happen]
      rcases hSound.poll_cases hWithin with ⟨locks, hPoll, _⟩ |
        ⟨locks, task, answer?, _, hTask, hGrant, hReplies, _, hTurn, hPoll⟩
      · rw [hPoll]
        exact ⟨hUndisturbed.requests, hUndisturbed.quiet⟩
      · rw [hPoll]
        refine ⟨?_, ?_⟩
        · intro other hOther
          rcases System.mem_applyTurn_tasks hOther with ⟨hOld, _⟩ | ⟨_, hNext, _⟩ |
            ⟨_, index, hStage, _⟩
          · exact hUndisturbed.requests other hOld
          · rw [resume_call? task.id system.nextId system.data (hSound.awaits task hTask) hReplies
              hNext]
            exact hUndisturbed.requests task hTask
          · rw [(hTurn.spawned _ (List.mem_of_getElem? hStage)).2.2]
            intro hUpdate
            cases hUpdate
        · intro other hOther hQuiet
          rcases System.mem_applyTurn_tasks hOther with ⟨hOld, _⟩ | ⟨_, hNext, _⟩ |
            ⟨_, index, hStage, _⟩
          · exact hUndisturbed.quiet other hOld hQuiet
          · have hBefore : task.stage.quiet? = some project :=
              (hTurn.next _ hNext).2.2 ▸ hQuiet
            rcases hUndisturbed.quiet task hTask hBefore with hTimer | hElapsed
            · rw [hTimer] at hNext
              exact Or.inr (Option.some.inj hNext).symm
            · exact absurd (hSound.elapsed_of_grant hTask hElapsed hGrant) hNotOver
          · exact Or.inl (Stage.eq_timer (hTurn.spawned _ (List.mem_of_getElem? hStage)).1 hQuiet)

theorem Event.exists_poll_of_actsFor {event : Event} (hActs : event.actsFor project system = true)
    (hNoChunk : event.chunk? project = none) (hNoUpdate : event.call? ≠ some (.update project)) :
    ∃ id surrounding, event = .poll id surrounding ∧
      ∀ task, system.task? id = some task → task.stage.project = project := by
  have hNoCall {call : Call} (hCall : event.call? = some call) : call.project ≠ project := by
    intro hSame
    cases call with
    | update asked =>
        change asked = project at hSame
        exact hNoUpdate (hSame ▸ hCall)
    | notify chunk =>
        have hChunk := (Event.chunk?_eq_some_iff event chunk).mpr ⟨hCall, hSame⟩
        rw [hNoChunk] at hChunk
        cases hChunk
  have hCalls : (event.call?.any fun call => call.project == project) = false := by
    cases hCall : event.call? with
    | none => rfl
    | some call => simpa using hNoCall hCall
  cases event with
  | poll id surrounding =>
      refine ⟨id, surrounding, rfl, ?_⟩
      intro task hFound
      simp only [Event.actsFor, hFound, Option.any_some] at hActs
      exact beq_iff_eq.mp hActs
  | update asked => exact absurd hActs (by simp [Event.actsFor, hCalls])
  | notify notification => exact absurd hActs (by simp [Event.actsFor, hCalls])
  | shutdown => cases hActs
  | pass duration => cases hActs
  | reorder ready => cases hActs

theorem Run.intake_step_come (run : Run) {event : Event} {chunk : Change}
    (hChunk : event.chunk? project = some chunk) :
    (run.step options event).intake options project =
      (run.intake options project).come options chunk := by
  obtain ⟨hCall, hProject⟩ := (Event.chunk?_eq_some_iff event chunk).mp hChunk
  have hTaken : (run.step options event).system = takeCall run.system (some (.notify chunk)) := by
    cases event with
    | notify notification => exact congrArg (takeCall run.system) hCall
    | update asked =>
        simp only [Event.call?] at hCall
        split at hCall <;> cases hCall
    | _ => cases hCall
  unfold Run.intake
  rw [hTaken]
  exact intake_come run.system hProject

theorem Run.toPour_eq_nil {run : Run} (hNone : (run.intake options project).taking = []) :
    (run.intake options project).toPour = [] := by
  have hSublist := Intake.toPour_sublist options project (run.system.tasks.map Task.stage)
    run.system.data
  change (run.intake options project).toPour.Sublist
    ((run.intake options project).taking.filterMap (pourable? options)) at hSublist
  rw [hNone, List.filterMap_nil] at hSublist
  exact List.sublist_nil.mp hSublist

namespace Run.Receives

variable {run : Run} {event : Event} (hReceives : run.Receives options project)

include hReceives

theorem step (hWithin : event.Within (.dependable project))
    (hNoUpdate : event.call? ≠ some (.update project))
    (hNotOver : ¬ Elapsed project run.system) :
    (run.step options event).Receives options project := by
  obtain ⟨hOne, hBehind⟩ := Run.view_step (fun _ _ _ hMove hBehind => hBehind.move hMove)
    (fun _ _ _ hAdvance hBehind => hBehind.advance hAdvance) hReceives.sound hWithin
    hReceives.one hReceives.behind
  exact {
    sound := hReceives.sound.happen hWithin
    tended := hReceives.sound.tended_happen hReceives.tended hWithin
    booked := hReceives.booked.step hReceives.sound hWithin
    one := hOne
    behind := hBehind
    undisturbed :=
      hReceives.sound.undisturbed_happen hReceives.undisturbed hWithin hNoUpdate hNotOver }

/-- An event that brings no chunk passes by, or it is a turn of a request that waits for its
chunk to be counted. -/
theorem step_turn (hWithin : event.Within (.dependable project))
    (hNoChunk : event.chunk? project = none)
    (hNoUpdate : event.call? ≠ some (.update project))
    (hNotOver : ¬ Elapsed project run.system) :
    Intake.Passes (.dependable project) project (run.intake options project)
        ((run.step options event).intake options project) ∨
      ∃ locks task answer? chunk,
        Sound (.dependable project) options { run.system with locks := locks } ∧
          task ∈ run.system.tasks ∧ Replies (.dependable project) task.wait answer? ∧
            task.stage.change? = some chunk ∧ chunk.project = project ∧
              task.stage.isPoured = true ∧
                (run.step options event).system =
                  ({ run.system with locks := locks } : CoordinatorSystem).applyTurn task.id
                    (resume options task.id run.system.nextId task.stage answer?
                      run.system.data) := by
  have hSound := hReceives.sound
  cases hActs : event.actsFor project run.system with
  | false =>
      have hNoShutdown : event ≠ .shutdown := by
        rintro rfl
        exact hWithin.elim
      obtain ⟨told, hApart, hSame⟩ :=
        (hSound.untouched_happen hWithin hActs hNoShutdown).intake options
      refine Or.inl ?_
      change Intake.Passes _ _ _ (intakeOf options project (happen options run.system event))
      rw [hSame]
      exact .apart _ told hApart
  | true =>
      obtain ⟨id, surrounding, rfl, hOwn⟩ :=
        Event.exists_poll_of_actsFor hActs hNoChunk hNoUpdate
      have hNext : (run.step options (.poll id surrounding)).system =
        pollTask options run.system id surrounding := rfl
      simp only [Run.intake, hNext]
      rcases hSound.poll_cases hWithin with ⟨locks, hPoll, _⟩ |
        ⟨locks, task, answer?, hFound, hTask, hGrant, hReplies, hLocked, hTurn, hPoll⟩
      · rw [hPoll]
        exact Or.inl (.stay ..)
      · rw [hPoll]
        have hProject := hOwn task hFound
        rcases Stage.kinds task.stage with ⟨chunk, hChange⟩ | hQuiet | ⟨phase, hPhase⟩ | hUpdate
        · have hChunkProject : chunk.project = project :=
            (Stage.project_of_change? hChange).symm.trans hProject
          cases hPoured : task.stage.isPoured with
          | true =>
              exact Or.inr ⟨locks, task, answer?, chunk, hLocked, hTask, hReplies, hChange,
                hChunkProject, hPoured, rfl⟩
          | false =>
              refine Or.inl (hLocked.chunk_passes hTask hReplies hChange hChunkProject hPoured ?_)
              intro info hStage
              have hBuffered := (hReceives.booked.live task hTask (.notify chunk)
                (by rw [hStage]; rfl)).buffered
              rw [hStage] at hBuffered
              exact hBuffered.2
        · rcases hReceives.undisturbed.quiet task hTask (hProject ▸ hQuiet) with hTimer | hElapsed
          · have hSame := hLocked.timer_intake hTask hReplies hTimer
            dsimp only at hSame
            refine Or.inl ?_
            rw [hSame]
            exact .stay ..
          · exact absurd (hSound.elapsed_of_grant hTask hElapsed hGrant) hNotOver
        · exact Or.inl (hLocked.build_intake hTask hReplies hPhase hProject hReceives.one.one)
        · exact absurd (hProject ▸ hUpdate) (hReceives.undisturbed.requests task hTask)

omit hReceives in
theorem mem_taking {task : Task Stage Query} {chunk : Change} (hTask : task ∈ run.system.tasks)
    (hChange : task.stage.change? = some chunk) (hProject : chunk.project = project) :
    chunk ∈ (run.intake options project).taking :=
  List.mem_filterMap.mpr ⟨task.stage, List.mem_map_of_mem hTask,
    Stage.taking?_of_change? hChange hProject⟩

/-- An event that brings no chunk passes by, or it counts one that had come. -/
theorem step_intake (hWithin : event.Within (.dependable project))
    (hNoChunk : event.chunk? project = none)
    (hNoUpdate : event.call? ≠ some (.update project))
    (hNotOver : ¬ Elapsed project run.system)
    (hExpects : ∀ chunk ∈ (run.intake options project).taking,
      (run.intake options project).Expects options chunk)
    (hIdle : (run.intake options project).taking ≠ [] →
      (run.state.builds.state project).inProgress = false) :
    let next := run.step options event
    Intake.Passes (.dependable project) project (run.intake options project)
        (next.intake options project) ∨
      ∃ chunk request, (request, Call.notify chunk) ∈ run.calls ∧
        Intake.Counts project chunk request (run.intake options project)
          (next.intake options project) ∧ Renewed project next.system := by
  rcases hReceives.step_turn hWithin hNoChunk hNoUpdate hNotOver with hPasses |
    ⟨locks, task, answer?, chunk, hLocked, hTask, hReplies, hChange, hProject, hPoured, hNext⟩
  · exact Or.inl hPasses
  · have hTended := hReceives.sound.tended_happen hReceives.tended hWithin
    have hTaking : chunk ∈ (run.intake options project).taking :=
      mem_taking hTask hChange hProject
    have hMade := (hReceives.booked.live task hTask (.notify chunk)
      (Stage.call?_of_change? hChange)).made
    obtain ⟨hCounts, hRenewed⟩ := hLocked.chunk_counts hTask hReplies hChange hProject hPoured
      (hExpects chunk hTaking) (hIdle (List.ne_nil_of_mem hTaking))
    change Tended (run.step options event).system at hTended
    refine Or.inr ⟨chunk, task.id, hMade, ?_⟩
    simp only [Run.intake]
    rw [hNext] at hTended ⊢
    exact ⟨hCounts, hRenewed hTended⟩

/-- No request for the project is half done exactly when no chunk of it is. -/
theorem calm_iff : run.Calm project ↔ (run.intake options project).taking = [] := by
  constructor
  · intro hCalm
    refine List.filterMap_eq_nil_iff.mpr ?_
    intro stage hStage
    obtain ⟨task, hTask, rfl⟩ := List.mem_map.mp hStage
    cases hChange : task.stage.change? with
    | none => exact Stage.taking?_of_none hChange
    | some chunk =>
        have hOther := hCalm task hTask _ (Stage.call?_of_change? hChange)
        refine Stage.taking?_of_ne ?_
        rw [Stage.project_of_change? hChange]
        exact hOther
  · intro hNone task hTask call hCall hProject
    cases call with
    | update asked =>
        change asked = project at hProject
        exact hReceives.undisturbed.requests task hTask (hProject ▸ hCall)
    | notify chunk =>
        have hTakes := List.filterMap_eq_nil_iff.mp hNone task.stage (List.mem_map_of_mem hTask)
        rw [Stage.taking?_of_change? (Stage.change?_of_call? hCall) hProject] at hTakes
        cases hTakes

end Run.Receives

end

/-! ### Projects at rest -/

/-- No request for a project is half done, no build of it is in progress, nothing of it waits to
be built, and no quiet period of it runs. -/
structure Run.AtRest (project : String) (run : Run) : Prop where
  calm : run.Calm project
  idle : (run.state.builds.state project).inProgress = false
  changes : run.state.changes project = []
  outstanding : run.state.batches.outstanding project = 0
  timer : run.state.timers.isPending project = false

theorem Run.AtRest.apart {run : Run} (hRest : run.AtRest project) (hTended : Tended run.system)
    (hOne : (run.view project).OneBuild) :
    ∀ task ∈ run.system.tasks, task.stage.project ≠ project := by
  intro task hTask hProject
  rcases Stage.kinds task.stage with ⟨chunk, hChange⟩ | hQuiet | ⟨phase, hPhase⟩ | hUpdate
  · refine hRest.calm task hTask _ (Stage.call?_of_change? hChange) ?_
    exact (Stage.project_of_change? hChange).symm.trans hProject
  · have hKept := hTended task hTask project (hProject ▸ hQuiet)
    have hTimer : (run.system.data.timers.waiting.get? project).isSome = false := hRest.timer
    rw [hKept] at hTimer
    cases hTimer
  · have hNone := List.filterMap_eq_nil_iff.mp (hOne.idle_phases hRest.idle) task.stage
      (List.mem_map_of_mem hTask)
    rw [(Stage.phaseOf?_eq_some_iff _ _ phase).mpr ⟨hProject, hPhase⟩] at hNone
    cases hNone
  · exact hRest.calm task hTask _ hUpdate hProject

theorem Stage.informed_of_ne {stage : Stage} (hOther : stage.project ≠ project)
    (hInformed : stage.Informed .faithfulInfos) : stage.Informed (.dependable project) := by
  have hFound {asked : String} {lookup : Lookup} (hAsked : asked ≠ project)
      (hLookup : Circumstances.faithfulInfos.lookup asked lookup) :
      (Circumstances.dependable project).lookup asked lookup :=
    ⟨hLookup, fun hSame => absurd hSame hAsked⟩
  cases stage <;> first | trivial | exact hFound hOther hInformed

/-- From a run at rest on, the chunks of the project are taken in under circumstances that can
be relied on. -/
theorem Run.AtRest.receives {events : List Event}
    (hEvents : ∀ event ∈ events, event.Within .faithfulInfos)
    (hRest : (Run.after options events).AtRest project) :
    (Run.after options events).Receives options project := by
  have hSound := Run.sound options events hEvents
  have hTended := Run.tended options events hEvents
  obtain ⟨hOne, hBehind⟩ := Run.queuesBehind options events hEvents project
  have hApart := hRest.apart hTended hOne
  exact {
    sound := {
      ids := hSound.ids
      below := hSound.below
      awaits := hSound.awaits
      informed := fun task hTask =>
        Stage.informed_of_ne (hApart task hTask) (hSound.informed task hTask)
      timers := hSound.timers }
    tended := hTended
    booked := Run.booked options events hEvents
    one := hOne
    behind := hBehind
    undisturbed := {
      requests := fun task hTask hCall => hRest.calm task hTask _ hCall rfl
      quiet := fun task hTask hQuiet =>
        absurd (Stage.project_of_quiet? hQuiet) (hApart task hTask) } }

end Coordinator

end BuildWatch
