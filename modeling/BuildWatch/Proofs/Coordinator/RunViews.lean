import BuildWatch.Proofs.Coordinator.Simulation

/-!
The view of a project along a run.  Its build is one task at most, and that task
is there only while the build counts as in progress; so every event is some moves
of the view or, if it gives the task its turn, one advance.
-/

namespace BuildWatch

open BuildWatch.Tasks

namespace Coordinator

variable {circumstances : Circumstances} {options : CoordinatorOptions} {project : String}
variable {system : CoordinatorSystem}

/-! ### Tasks that are dropped -/

theorem Stage.unseen_of_quiet {stage : Stage} (project : String)
    (hQuiet : stage.quiet?.isSome = true) :
    stage.phaseOf? project = none ∧ stage.dealsWith project = false := by
  cases stage <;> first | exact ⟨Stage.phaseOf?_of_phase? project rfl, rfl⟩ | cases hQuiet

theorem view_filter (project : String) (tasks : List (Task Stage Query))
    (kept : Task Stage Query → Bool)
    (hQuiet : ∀ task ∈ tasks, kept task = false → task.stage.quiet?.isSome = true) :
    ((tasks.filter kept).map Task.stage).filterMap (Stage.phaseOf? project) =
        (tasks.map Task.stage).filterMap (Stage.phaseOf? project) ∧
      ((tasks.filter kept).map Task.stage).countP (Stage.dealsWith project) =
        (tasks.map Task.stage).countP (Stage.dealsWith project) := by
  induction tasks with
  | nil => exact ⟨rfl, rfl⟩
  | cons task rest ih =>
      obtain ⟨hPhases, hChanging⟩ :=
        ih fun other hOther => hQuiet other (List.mem_cons_of_mem task hOther)
      cases hKept : kept task with
      | true =>
          rw [List.filter_cons_of_pos hKept]
          simp only [List.map_cons, List.filterMap_cons, List.countP_cons, hPhases, hChanging,
            and_self]
      | false =>
          obtain ⟨hPhase, hDeals⟩ :=
            Stage.unseen_of_quiet project (hQuiet task List.mem_cons_self hKept)
          rw [List.filter_cons_of_neg (by simp [hKept])]
          simp [hPhase, hDeals, hPhases, hChanging]

/-! ### Events -/

theorem Sound.view_applyTurn (hSound : Sound circumstances options system)
    {task : Task Stage Query} {earlier later : List (Task Stage Query)} {turn : CoordinatorTurn}
    (hTasks : system.tasks = earlier ++ task :: later)
    (hTurn : TurnSound circumstances options system.nextId task.stage system.data turn) :
    systemView project (system.applyTurn task.id turn) =
      turnView project (earlier.map Task.stage) (later.map Task.stage) turn := by
  have hTask : task ∈ system.tasks := by simp [hTasks]
  have hDropped : ∀ other ∈ system.tasks, (!turn.dropped.contains other.id) = false →
      other.stage.quiet?.isSome = true := by
    intro other hOther hGone
    refine hSound.quiet_of_kept hOther (hTurn.dropped other.id ?_)
    simpa using hGone
  have hEarlier := view_filter project earlier
    (fun other => !turn.dropped.contains other.id)
    (fun other hOther => hDropped other (by simp [hTasks, hOther]))
  have hLater := view_filter project later
    (fun other => !turn.dropped.contains other.id)
    (fun other hOther => hDropped other (by simp [hTasks, hOther]))
  have hStages := System.applyTurn_stages turn hTasks hSound.ids hSound.below
    (hSound.self_stays hTask hTurn)
  unfold systemView turnView
  rw [hStages, System.applyTurn_data]
  refine View.ext rfl rfl rfl ?_ ?_ rfl
  · simp only [View.of, List.filterMap_append, hEarlier.1, hLater.1]
  · simp only [View.of, List.countP_append, hEarlier.2, hLater.2]

def Event.serves (project : String) (system : CoordinatorSystem) : Event → Bool
  | .poll id surrounding =>
      (system.task? id).any fun task =>
        (task.stage.phaseOf? project).isSome && (system.grant? surrounding.answer task).isSome
  | _ => false

theorem view_takeCall (call? : Option Call) :
    Moves circumstances project (systemView project system)
      (systemView project (takeCall system call?)) := by
  cases call? with
  | none => exact .refl
  | some call =>
      have hPhase : call.stage.phaseOf? project = none := by
        cases call <;> exact Stage.phaseOf?_of_phase? project rfl
      have hView : systemView project (system.spawn call.stage) =
          { systemView project system with
            changing := (systemView project system).changing +
              if call.stage.dealsWith project then 1 else 0 } := by
        refine View.ext rfl rfl rfl ?_ ?_ rfl
        · simp [systemView, View.of, System.spawn, hPhase]
        · simp [systemView, View.of, System.spawn, List.countP_singleton]
      change Moves _ _ _ (systemView project (system.spawn call.stage))
      rw [hView]
      split
      · exact .single (.arrive _)
      · exact .refl

theorem Sound.view_shutdown (hSound : Sound circumstances options system)
    (hShutdown : circumstances.shutdown) :
    Moves circumstances project (systemView project system)
      (systemView project
        (Coordinator.shutdown { options := options, system := system }).system) := by
  have hFilter := view_filter project system.tasks
    (fun task => !system.data.timers.all.contains task.id) (by
      intro task hTask hGone
      refine hSound.quiet_of_kept hTask (Timers.exists_of_mem_all ?_)
      simpa using hGone)
  have hView : systemView project
        (Coordinator.shutdown { options := options, system := system }).system =
      { systemView project system with timer := false } := by
    unfold Coordinator.shutdown systemView
    dsimp only
    rw [System.foldl_remove_tasks, System.foldl_remove_data]
    exact View.ext rfl rfl rfl hFilter.1 hFilter.2 rfl
  rw [hView]
  exact .single (.shutdown _ hShutdown)

/-- A turn of the task that builds a project is an advance of the build, under any
circumstances under which the task could have learned what it knows. -/
theorem Sound.advance_applyTurn (hSound : Sound circumstances options system)
    {learned : Circumstances} {task : Task Stage Query} {answer? : Option Answer} {phase : Phase}
    (hTask : task ∈ system.tasks) (hInformed : task.stage.Informed learned)
    (hReplies : Replies learned task.wait answer?)
    (hTurn : TurnSound circumstances options system.nextId task.stage system.data
      (resume options task.id system.nextId task.stage answer? system.data))
    (hPhase : task.stage.phaseOf? project = some phase)
    (hOne : (systemView project system).phases.length ≤ 1) :
    Advance learned project (systemView project system)
      (systemView project (system.applyTurn task.id
        (resume options task.id system.nextId task.stage answer? system.data))) := by
  obtain ⟨earlier, later, hTasks⟩ := List.append_of_mem hTask
  have hBefore : systemView project system = View.of project
      (earlier.map Task.stage ++ task.stage :: later.map Task.stage) system.data := by
    unfold systemView
    rw [hTasks, List.map_append, List.map_cons]
  rw [hSound.view_applyTurn hTasks hTurn]
  -- As one task builds the project at most, no other stands in a phase.
  rw [hBefore] at hOne ⊢
  simp only [View.of, List.filterMap_append, List.filterMap_cons, hPhase,
    List.length_append, List.length_cons] at hOne
  have hEarlier : (earlier.map Task.stage).filterMap (Stage.phaseOf? project) = [] :=
    List.length_eq_zero_iff.mp (by omega)
  have hLater : (later.map Task.stage).filterMap (Stage.phaseOf? project) = [] :=
    List.length_eq_zero_iff.mp (by omega)
  exact turn_advances task.id system.nextId system.data (hSound.awaits task hTask)
    hInformed hReplies hPhase hEarlier hLater

/-- An event that gives the task that builds a project its turn is an advance of the build;
any other event is some moves. -/
theorem Sound.happen_view (hSound : Sound circumstances options system) {event : Event}
    (hWithin : event.Within circumstances)
    (hOne : (systemView project system).phases.length ≤ 1) :
    if event.serves project system then
      Advance circumstances project (systemView project system)
        (systemView project (Coordinator.happen options system event))
    else
      Moves circumstances project (systemView project system)
        (systemView project (Coordinator.happen options system event)) := by
  cases event with
  | update asked => exact view_takeCall _
  | notify notification => exact view_takeCall _
  | shutdown => exact hSound.view_shutdown hWithin
  | pass duration => exact .refl
  | reorder ready => exact .refl
  | poll id surrounding =>
      simp only [Coordinator.happen]
      rcases hSound.poll_cases hWithin with ⟨locks, hPoll, hWaits⟩ |
        ⟨locks, task, answer?, hFound, hTask, hGrant, hReplies, hLocked, hTurn, hPoll⟩
      · have hIdle : (Event.poll id surrounding).serves project system = false := by
          simp only [Event.serves]
          cases hFound : system.task? id with
          | none => rfl
          | some task => simp [hWaits task hFound]
        rw [hIdle, hPoll]
        exact .refl
      · have hServes : (Event.poll id surrounding).serves project system =
            (task.stage.phaseOf? project).isSome := by
          simp only [Event.serves]
          rw [hFound, Option.any_some, hGrant, Option.isSome_some, Bool.and_true]
        rw [hServes, hPoll]
        cases hPhase : task.stage.phaseOf? project with
        | none =>
            -- The view does not tell this task from the others.
            obtain ⟨earlier, later, hTasks⟩ := List.append_of_mem hTask
            have hBefore : systemView project system = View.of project
                (earlier.map Task.stage ++ task.stage :: later.map Task.stage) system.data := by
              unfold systemView
              rw [hTasks, List.map_append, List.map_cons]
            rw [hLocked.view_applyTurn hTasks hTurn, hBefore]
            exact turn_moves task.id system.nextId _ _ system.data (hSound.awaits task hTask)
              (hSound.informed task hTask) hReplies hPhase
        | some phase =>
            exact hLocked.advance_applyTurn hTask (hSound.informed task hTask) hReplies hTurn
              hPhase hOne

/-! ### One build -/

/-- At most one task builds the project, and only while its build is in progress. -/
structure View.OneBuild (view : View) : Prop where
  one : view.phases.length ≤ 1
  progress : view.phases ≠ [] → view.build.inProgress = true

theorem View.OneBuild.idle_phases {view : View} (hOne : view.OneBuild)
    (hIdle : view.build.inProgress = false) : view.phases = [] := by
  by_contra hSome
  rw [hOne.progress hSome] at hIdle
  cases hIdle

theorem View.OneBuild.move {view after : View} (hOne : view.OneBuild)
    (hMove : Move circumstances project view after) : after.OneBuild := by
  cases hMove with
  | queue explicit hProgress =>
      refine ⟨hOne.one, fun _ => ?_⟩
      simp [View.tell, BuildState.begin, hProgress]
  | take explicit hIdle =>
      have hNone := hOne.idle_phases hIdle
      refine ⟨?_, fun _ => ?_⟩
      · simp [View.tell, hNone]
      · simp [View.tell, BuildState.begin, hIdle]
  | _ => exact ⟨hOne.one, hOne.progress⟩

theorem View.OneBuild.advance {view after : View} (hOne : view.OneBuild)
    (hAdvance : Advance circumstances project view after) : after.OneBuild := by
  cases hAdvance with
  | start changes operation hPhase hProject =>
      exact ⟨Nat.le_refl 1, fun _ => hOne.progress (by simp [hPhase])⟩
  | finish result hPhase =>
      refine ⟨?_, ?_⟩
      · cases view.build.requested <;> simp [View.tell]
      · have hProgress := hOne.progress (by simp [hPhase])
        cases hRequested : view.build.requested with
        | none => simp [View.tell]
        | some followUp => simp [View.tell, BuildState.finish, hRequested, hProgress]
  | find followUp hPhase => exact ⟨Nat.le_refl 1, fun _ => hOne.progress (by simp [hPhase])⟩
  | skip followUp hPhase hOff => exact ⟨Nat.zero_le 1, fun hSome => absurd rfl hSome⟩
  | abandon followUp hPhase hFail => exact ⟨Nat.zero_le 1, fun hSome => absurd rfl hSome⟩
  | vanish followUp hPhase hPanic => exact ⟨Nat.zero_le 1, fun hSome => absurd rfl hSome⟩
  | follow followUp operation hPhase hProject =>
      exact ⟨Nat.le_refl 1, fun _ => hOne.progress (by simp [hPhase])⟩

theorem moves_keep {motive : View → Prop} {view after : View}
    (hMove : ∀ view after, view.OneBuild → Move circumstances project view after →
      motive view → motive after)
    (hMoves : Moves circumstances project view after) (hOne : view.OneBuild)
    (hHolds : motive view) : after.OneBuild ∧ motive after := by
  induction hMoves with
  | refl => exact ⟨hOne, hHolds⟩
  | tail _ hLast ih => exact ⟨ih.1.move hLast, hMove _ _ ih.1 hLast ih.2⟩

theorem View.OneBuild.moves {view after : View} (hOne : view.OneBuild)
    (hMoves : Moves circumstances project view after) : after.OneBuild :=
  (moves_keep (motive := fun _ => True) (fun _ _ _ _ _ => trivial) hMoves hOne trivial).1

theorem Run.view_step {run : Run} {event : Event} {motive : View → Prop}
    (hMove : ∀ view after, view.OneBuild → Move circumstances project view after →
      motive view → motive after)
    (hAdvance : ∀ view after, view.OneBuild → Advance circumstances project view after →
      motive view → motive after)
    (hSound : Sound circumstances options run.system) (hWithin : event.Within circumstances)
    (hOne : (run.view project).OneBuild) (hHolds : motive (run.view project)) :
    ((run.step options event).view project).OneBuild ∧
      motive ((run.step options event).view project) := by
  have hHappen : if event.serves project run.system then
      Advance circumstances project (run.view project) ((run.step options event).view project)
    else Moves circumstances project (run.view project) ((run.step options event).view project) :=
    hSound.happen_view hWithin hOne.one
  split at hHappen
  · exact ⟨hOne.advance hHappen, hAdvance _ _ hOne hHappen hHolds⟩
  · exact moves_keep hMove hHappen hOne hHolds

/-- What holds of every view at first and is kept by moves and advances holds of the views
along every run that fits the circumstances. -/
theorem Run.view_induction {motive : View → Prop} (hStart : motive (({} : Run).view project))
    (hMove : ∀ view after, view.OneBuild → Move circumstances project view after →
      motive view → motive after)
    (hAdvance : ∀ view after, view.OneBuild → Advance circumstances project view after →
      motive view → motive after)
    (events : List Event) (hEvents : ∀ event ∈ events, event.Within circumstances) :
    ((Run.after options events).view project).OneBuild ∧
      motive ((Run.after options events).view project) := by
  have hRun : Sound circumstances options (Run.after options events).system ∧
      ((Run.after options events).view project).OneBuild ∧
        motive ((Run.after options events).view project) := by
    refine Run.after_induction (motive := fun run => Sound circumstances options run.system ∧
      (run.view project).OneBuild ∧ motive (run.view project)) ?_ ?_ events hEvents
    · exact ⟨sound_start circumstances options, ⟨Nat.zero_le 1, nofun⟩, hStart⟩
    · rintro run event ⟨hSound, hOne, hHolds⟩ hWithin
      exact ⟨hSound.happen hWithin, Run.view_step hMove hAdvance hSound hWithin hOne hHolds⟩
  exact hRun.2

end Coordinator

end BuildWatch
