import BuildWatch.Proofs.Coordinator.Served
import BuildWatch.Proofs.Tasks.Claims

/-!
Nothing stands in the way of a build that is owed.  The task that builds the project may
wait for locks, but then some task is granted those it waits for; each such grant leaves
fewer to wait for, so the turn of the builder comes.
-/

namespace BuildWatch

open BuildWatch.Tasks

namespace Coordinator

variable {circumstances : Circumstances} {options : CoordinatorOptions} {project : String}
variable {system : CoordinatorSystem}

/-! ### Waiting for locks -/

/-- So often a task at a stage waits for locks before it does something else. -/
def Stage.grantsLeft : Stage → Nat
  | .changeTimer _ _ => 3
  | .changeBuffer _ _ => 2
  | .updateLocked _ _ | .changeLocked _ _ | .timerLocked _ _ | .followUpLocked _ _ _ => 1
  | _ => 0

theorem Stage.Awaits.locks_iff {stage : Stage} {wait : Wait Query}
    (hAwaits : stage.Awaits options wait) : wait = .locks ↔ 0 < stage.grantsLeft := by
  cases stage with
  | changeApplied change info =>
      obtain ⟨settings, hWait⟩ := hAwaits
      simp [hWait, Stage.grantsLeft]
  | timerElapsed asked =>
      obtain ⟨due, hWait⟩ := hAwaits
      simp [hWait, Stage.grantsLeft]
  | buildEnded asked =>
      obtain ⟨info, changes, _, hWait⟩ := hAwaits
      simp [hWait, Stage.grantsLeft]
  | _ => simp [show wait = _ from hAwaits, Stage.grantsLeft]

/-- A task that was granted locks gives them up, and it waits for locks less often from then
on. -/
structure Yields (stage : Stage) (turn : CoordinatorTurn) : Prop where
  yields : turn.release = true ∨ turn.next = .finish
  fewer : ∀ later, turn.next.stage? = some later → later.grantsLeft < stage.grantsLeft

theorem yields_finish {stage : Stage} (work : Work) : Yields stage work.finish where
  yields := Or.inr rfl
  fewer := by
    intro later hLater
    cases hLater

theorem yields_turn {stage goal : Stage} {next : Next Stage Query} (work : Work)
    (hNext : next.stage? = some goal) (hFewer : goal.grantsLeft < stage.grantsLeft) :
    Yields stage (work.turn true next) where
  yields := Or.inl rfl
  fewer := by
    intro later hLater
    cases hNext.symm.trans hLater
    exact hFewer

theorem resume_yields (options : CoordinatorOptions) (self fresh : Nat) (stage : Stage)
    (answer? : Option Answer) (data : CoordinatorState) (hWaits : 0 < stage.grantsLeft) :
    Yields stage (resume options self fresh stage answer? data) := by
  cases stage with
  | updateLocked asked info => exact yields_finish _
  | changeTimer change info =>
      simp only [resume]
      unfold afterCancel proceed
      split
      · exact yields_turn _ rfl (by simp [Stage.grantsLeft])
      · split
        · exact yields_turn _ rfl (by simp [Stage.grantsLeft])
        · exact yields_turn _ rfl (by simp [Stage.grantsLeft])
  | changeBuffer change info => exact yields_turn _ rfl (by simp [Stage.grantsLeft])
  | changeLocked change info => exact yields_finish _
  | timerLocked asked lookup => exact yields_finish _
  | followUpLocked asked info followUp => exact yields_turn _ rfl (by simp [Stage.grantsLeft])
  | _ => cases hWaits

/-! ### Claims along a run -/

theorem Sound.polled (hSound : Sound circumstances options system) (task : Task Stage Query) :
    Sound circumstances options (system.polled task) := by
  obtain ⟨locks, hPolled⟩ := system.polled_eq task
  rw [hPolled]
  exact hSound.congr rfl rfl rfl

theorem Sound.pollTask_granted (hSound : Sound circumstances options system) {id : Nat}
    {task : Task Stage Query} {surrounding : Surrounding Id} {answer? : Option Answer}
    (hWithin : (Event.poll id surrounding).Within circumstances)
    (hFound : system.task? id = some task)
    (hGrant : system.grant? surrounding.answer task = some answer?) :
    ∃ turn : CoordinatorTurn, pollTask options system id surrounding =
        (system.polled task).applyTurn task.id turn ∧
      TurnSound circumstances options (system.polled task).nextId task.stage
        (system.polled task).data turn ∧
      (task.wait = .locks → Yields task.stage turn) := by
  obtain ⟨hTask, _⟩ := (hSound.task?_eq_some_iff id task).mp hFound
  refine ⟨resume options task.id system.nextId task.stage answer? system.data, ?_, ?_, ?_⟩
  · rw [pollTask_eq]
    simp only [hFound, hGrant]
  · obtain ⟨locks, hPolled⟩ := system.polled_eq task
    rw [hPolled]
    exact resume_sound task.id system.nextId system.data (hSound.awaits task hTask)
      (hSound.informed task hTask) (replies_of_grant hWithin hGrant)
  · intro hWait
    exact resume_yields options task.id system.nextId task.stage answer? system.data
      ((hSound.awaits task hTask).locks_iff.mp hWait)

theorem orderly_takeCall (hOrderly : system.Orderly) (call? : Option Call) :
    (takeCall system call?).Orderly := by
  cases call? with
  | none => exact hOrderly
  | some call => exact hOrderly.spawn call.stage

theorem Sound.orderly_happen (hSound : Sound circumstances options system)
    (hOrderly : system.Orderly) {event : Event} (hWithin : event.Within circumstances) :
    (Coordinator.happen options system event).Orderly := by
  cases event with
  | update asked => exact orderly_takeCall hOrderly _
  | notify notification => exact orderly_takeCall hOrderly _
  | shutdown =>
      have hNoTimers : System.Orderly { system with data := { system.data with timers := {} } } :=
        hOrderly.congr rfl rfl
      exact hNoTimers.foldl_remove system.data.timers.all
  | pass duration => exact hOrderly.congr rfl rfl
  | reorder ready => exact hOrderly.congr rfl rfl
  | poll id surrounding =>
      simp only [Coordinator.happen]
      cases hFound : system.task? id with
      | none =>
          rw [pollTask_eq, hFound]
          exact hOrderly
      | some task =>
          cases hGrant : system.grant? surrounding.answer task with
          | none =>
              rw [pollTask_eq]
              simp only [hFound, hGrant]
              exact hOrderly.polled task
          | some answer? =>
              obtain ⟨turn, hPoll, hTurn, hYields⟩ :=
                hSound.pollTask_granted hWithin hFound hGrant
              obtain ⟨hTask, _⟩ := (hSound.task?_eq_some_iff id task).mp hFound
              have hMember : task ∈ (system.polled task).tasks := by
                rw [System.polled_tasks]
                exact hTask
              rw [hPoll]
              exact (hOrderly.polled task).applyTurn hMember (hSound.polled task).ids
                ((hSound.polled task).self_stays hMember hTurn)
                (fun hWait => (hYields hWait).yields)

theorem Run.orderly (options : CoordinatorOptions) (events : List Event)
    (hEvents : ∀ event ∈ events, event.Within circumstances) :
    (Run.after options events).system.Orderly := by
  have hRun : Sound circumstances options (Run.after options events).system ∧
      (Run.after options events).system.Orderly := by
    refine Run.after_induction (motive := fun run => Sound circumstances options run.system ∧
      run.system.Orderly) ?_ ?_ events hEvents
    · exact ⟨sound_start _ options, System.orderly_start _⟩
    · rintro run event ⟨hSound, hOrderly⟩ hWithin
      exact ⟨hSound.happen hWithin, hSound.orderly_happen hOrderly hWithin⟩
  exact hRun.2

/-! ### Grants that are left -/

def grantsOf : List Stage → Nat
  | [] => 0
  | stage :: rest => stage.grantsLeft + grantsOf rest

theorem grantsOf_append (stages more : List Stage) :
    grantsOf (stages ++ more) = grantsOf stages + grantsOf more := by
  induction stages with
  | nil => exact (Nat.zero_add _).symm
  | cons stage rest ih =>
      rw [List.cons_append, grantsOf, grantsOf, ih, Nat.add_assoc]

theorem grantsOf_eq_zero {stages : List Stage} (hNever : ∀ stage ∈ stages, stage.grantsLeft = 0) :
    grantsOf stages = 0 := by
  induction stages with
  | nil => rfl
  | cons stage rest ih =>
      have hRest := ih fun other hOther => hNever other (List.mem_cons_of_mem stage hOther)
      rw [grantsOf, hNever stage List.mem_cons_self, hRest]

theorem grantsOf_filter_le (tasks : List (Task Stage Query)) (kept : Task Stage Query → Bool) :
    grantsOf ((tasks.filter kept).map Task.stage) ≤ grantsOf (tasks.map Task.stage) := by
  induction tasks with
  | nil => exact Nat.le_refl 0
  | cons task rest ih =>
      rw [List.filter_cons, List.map_cons, grantsOf]
      split
      · rw [List.map_cons, grantsOf]
        omega
      · omega

def grantsLeft (system : CoordinatorSystem) : Nat :=
  grantsOf (system.tasks.map Task.stage)

theorem Sound.grantsLeft_applyTurn (hSound : Sound circumstances options system)
    {task : Task Stage Query} (hTask : task ∈ system.tasks) {turn : CoordinatorTurn}
    (hTurn : TurnSound circumstances options system.nextId task.stage system.data turn)
    (hYields : Yields task.stage turn) (hWaits : 0 < task.stage.grantsLeft) :
    grantsLeft (system.applyTurn task.id turn) < grantsLeft system := by
  obtain ⟨earlier, later, hTasks⟩ := List.append_of_mem hTask
  have hSpawned : grantsOf turn.spawned = 0 := by
    refine grantsOf_eq_zero ?_
    intro stage hStage
    have hNever : ¬ 0 < stage.grantsLeft := by
      rw [← (hTurn.spawned stage hStage).1.locks_iff]
      exact nofun
    omega
  have hNext : grantsOf turn.next.stage?.toList < task.stage.grantsLeft := by
    cases hGoal : turn.next.stage? with
    | none => exact hWaits
    | some goal => exact hYields.fewer goal hGoal
  have hEarlier := grantsOf_filter_le earlier fun other => !turn.dropped.contains other.id
  have hLater := grantsOf_filter_le later fun other => !turn.dropped.contains other.id
  unfold grantsLeft
  rw [System.applyTurn_stages turn hTasks hSound.ids hSound.below
    (hSound.self_stays hTask hTurn), hTasks, List.map_append, List.map_cons]
  simp only [grantsOf_append, grantsOf]
  omega

/-! ### The turns that are missing -/

/-- Surroundings that never fail, and in which every build has ended. -/
def finishing : Surrounding Id :=
  steady (some (.done .rebuilt))

theorem finishing_within (project : String) (task : Nat) :
    (Event.poll task finishing).Within (.automatic project) := by
  have hSteady : (Event.poll task finishing).Steady := ⟨_, rfl⟩
  refine hSteady.within ?_ trivial
  intro asked
  refine ⟨?_, fun _ => ⟨_, rfl, rfl⟩⟩
  rintro info ⟨⟩
  rfl

/-- One turn of each of some tasks among such surroundings, and nothing else. -/
def turnsOf (tasks : List Nat) : List Event :=
  tasks.map fun task => .poll task finishing

theorem grant?_finishing {task : Task Stage Query} (hAwaits : task.stage.Awaits options task.wait)
    (hBuilds : (task.stage.phaseOf? project).isSome = true) (hWait : task.wait ≠ .locks) :
    (system.grant? finishing.answer task).isSome = true := by
  obtain ⟨phase, hPhase⟩ := Option.isSome_iff_exists.mp hBuilds
  have hPhase := ((Stage.phaseOf?_eq_some_iff task.stage project phase).mp hPhase).2
  unfold System.grant?
  cases hStage : task.stage with
  | build info changes =>
      rw [hStage] at hAwaits
      rw [show task.wait = .turn from hAwaits]
      rfl
  | buildEnded asked =>
      rw [hStage] at hAwaits
      obtain ⟨info, changes, _, hAsks⟩ := hAwaits
      rw [hAsks]
      rfl
  | followUpFound asked followUp =>
      rw [hStage] at hAwaits
      rw [show task.wait = .answer (.lookUp asked) from hAwaits]
      rfl
  | followUpLocked asked info followUp =>
      rw [hStage] at hAwaits
      exact absurd hAwaits hWait
  | _ =>
      rw [hStage] at hPhase
      cases hPhase

/-- Tasks never block one another: as long as some wait for locks, one of them has its turn,
which leaves fewer grants. -/
theorem Sound.exists_grant (hSound : Sound circumstances options system)
    (hOrderly : system.Orderly) {surrounding : Surrounding Id}
    (hWithin : ∀ id, (Event.poll id surrounding).Within circumstances)
    (hWaiting : ∃ task ∈ system.tasks, task.wait = .locks) :
    ∃ id, grantsLeft (pollTask options system id surrounding) < grantsLeft system := by
  have hClaims : system.locks.claims ≠ [] := by
    obtain ⟨waiting, hWaiting, hWaits⟩ := hWaiting
    obtain ⟨claim, hClaim, _⟩ :=
      (hOrderly.claimed waiting.id).mpr ⟨waiting, hWaiting, rfl, hWaits⟩
    exact List.ne_nil_of_mem hClaim
  obtain ⟨owner, hClaimed, hHolds⟩ := hOrderly.locks.exists_granted hClaims
  obtain ⟨task, hTask, hOwner, hWait⟩ := (hOrderly.claimed owner).mp hClaimed
  have hFound := (hSound.task?_eq_some_iff owner task).mpr ⟨hTask, hOwner⟩
  have hGrant : system.grant? surrounding.answer task = some none := by
    unfold System.grant?
    rw [hWait, hOwner]
    exact if_pos hHolds
  obtain ⟨turn, hPoll, hTurn, hYields⟩ := hSound.pollTask_granted (hWithin owner) hFound hGrant
  have hMember : task ∈ (system.polled task).tasks := by
    rw [System.polled_tasks]
    exact hTask
  have hFewer := (hSound.polled task).grantsLeft_applyTurn hMember hTurn (hYields hWait)
    ((hSound.awaits task hTask).locks_iff.mp hWait)
  refine ⟨owner, ?_⟩
  rw [hPoll]
  unfold grantsLeft at hFewer ⊢
  rw [System.polled_tasks] at hFewer
  exact hFewer

/-- As long as there is a build, some turn brings it on or leaves fewer grants of locks. -/
theorem Sound.exists_turn {run : Run} (hSound : Sound (.automatic project) options run.system)
    (hOrderly : run.system.Orderly) (hBuild : run.HasBuild project) :
    ∃ id, (Event.poll id finishing).serves project run.system = true ∨
      grantsLeft (run.step options (.poll id finishing)).system < grantsLeft run.system := by
  obtain ⟨builder, hBuilder, hBuilds⟩ := hBuild
  by_cases hWaits : builder.wait = .locks
  · obtain ⟨id, hFewer⟩ := hSound.exists_grant hOrderly
      (finishing_within project) ⟨builder, hBuilder, hWaits⟩
    exact ⟨id, Or.inr hFewer⟩
  · refine ⟨builder.id, Or.inl ?_⟩
    have hFound := (hSound.task?_eq_some_iff builder.id builder).mpr ⟨hBuilder, rfl⟩
    have hGrant : (run.system.grant? finishing.answer builder).isSome = true :=
      grant?_finishing (hSound.awaits builder hBuilder) hBuilds hWaits
    simp only [Event.serves, hFound, Option.any_some, hBuilds, hGrant, Bool.and_self]

/-- A build that is owed starts once some tasks have had their turns, with no other event. -/
theorem Run.Lively.exists_start {run : Run} (hLively : run.Lively options project)
    (hOrderly : run.system.Orderly) {turns : Nat}
    (hDistance : (run.view project).distance = some turns) :
    ∃ tasks told, (run.extend options (turnsOf tasks)).history = run.history ++ told ∧
      .started project ∈ told := by
  obtain ⟨id, hNearer⟩ :=
    hLively.sound.exists_turn hOrderly (Run.hasBuild_of_distance hDistance)
  have hWithin := finishing_within project id
  obtain ⟨told, hTold, hStep⟩ := hLively.step_distance hWithin
  rcases hStep turns hDistance with hStarted | ⟨left, hLeft, hCount⟩
  · exact ⟨[id], told, hTold, hStarted⟩
  · have hFarther : left < turns ∨ left = turns ∧
        grantsLeft (run.step options (.poll id finishing)).system < grantsLeft run.system := by
      cases hServes : (Event.poll id finishing).serves project run.system with
      | true =>
          rw [hServes, Bool.toNat_true] at hCount
          exact Or.inl (by omega)
      | false =>
          rw [hServes] at hCount hNearer
          exact Or.inr ⟨hCount, hNearer.resolve_left nofun⟩
    obtain ⟨tasks, more, hMore, hStarted⟩ :=
      (hLively.step hWithin).exists_start (hLively.sound.orderly_happen hOrderly hWithin) hLeft
    refine ⟨id :: tasks, told ++ more, ?_, List.mem_append_right told hStarted⟩
    rw [← List.append_assoc, ← hTold]
    exact hMore
termination_by (turns, grantsLeft run.system)
decreasing_by
  rcases hFarther with hLess | ⟨hSame, hFewer⟩
  · exact Prod.Lex.left _ _ hLess
  · rw [hSame]
    exact Prod.Lex.right _ hFewer

end Coordinator

end BuildWatch
