import BuildWatch.Proofs.Coordinator.Turns

/-!
What is true of every single task of a run: it waits for what its stage calls for,
what it has learned could be learned under the circumstances, no other task has its
id, and it is kept as the timer of a project only while it waits for that project's
quiet period.
-/

namespace BuildWatch

open BuildWatch.Tasks

namespace Coordinator

/-- What holds of the tasks of every run. -/
structure Sound (circumstances : Circumstances) (options : CoordinatorOptions)
    (system : CoordinatorSystem) : Prop where
  ids : (system.tasks.map Task.id).Nodup
  below : ∀ task ∈ system.tasks, task.id < system.nextId
  awaits : ∀ task ∈ system.tasks, task.stage.Awaits options task.wait
  informed : ∀ task ∈ system.tasks, task.stage.Informed circumstances
  /-- A task that is kept as the timer of a project waits for its quiet period. -/
  timers : ∀ project id, system.data.timers.waiting.get? project = some id →
    id < system.nextId ∧ ∀ task ∈ system.tasks, task.id = id → task.stage.quiet? = some project

theorem sound_start (circumstances : Circumstances) (options : CoordinatorOptions) :
    Sound circumstances options ({ data := {} } : CoordinatorSystem) where
  ids := List.nodup_nil
  below := by
    intro task hTask
    cases hTask
  awaits := by
    intro task hTask
    cases hTask
  informed := by
    intro task hTask
    cases hTask
  timers := by
    intro project id hKept
    cases hKept

theorem Sound.task?_eq_some_iff {circumstances : Circumstances} {options : CoordinatorOptions}
    {system : CoordinatorSystem} (hSound : Sound circumstances options system) (id : Nat)
    (task : Task Stage Query) :
    system.task? id = some task ↔ task ∈ system.tasks ∧ task.id = id := by
  unfold System.task?
  constructor
  · intro hFind
    exact ⟨List.mem_of_find?_eq_some hFind, by simpa using List.find?_some hFind⟩
  · rintro ⟨hTask, hId⟩
    cases hFind : system.tasks.find? (fun task => task.id == id) with
    | none =>
        have hAbsent := List.find?_eq_none.mp hFind task hTask
        simp [hId] at hAbsent
    | some other =>
        have hOther := List.mem_of_find?_eq_some hFind
        have hOtherId : other.id = id := by simpa using List.find?_some hFind
        have hSame := List.inj_on_of_nodup_map hSound.ids hOther hTask (hOtherId.trans hId.symm)
        rw [hSame]

theorem pollTask_eq (options : CoordinatorOptions) (system : CoordinatorSystem) (id : Nat)
    (surrounding : Surrounding Id) :
    pollTask options system id surrounding =
      match system.task? id with
      | some task =>
          match system.grant? surrounding.answer task with
          | some answer? =>
              (system.polled task).applyTurn task.id
                (resume options task.id system.nextId task.stage answer? system.data)
          | none => system.polled task
      | none => system := by
  unfold pollTask
  cases system.task? id with
  | none => rfl
  | some task =>
      refine (System.poll_eq (program options) surrounding.answer system task).trans ?_
      obtain ⟨locks, hPolled⟩ := system.polled_eq task
      simp only [hPolled]
      cases system.grant? surrounding.answer task <;> rfl

/-- A polled task has a turn if it is granted what it waits for; else nothing happens
but that locks change hands. -/
theorem pollTask_cases (options : CoordinatorOptions) (system : CoordinatorSystem) (id : Nat)
    (surrounding : Surrounding Id) :
    (∃ locks, pollTask options system id surrounding = { system with locks := locks } ∧
      ∀ task, system.task? id = some task → system.grant? surrounding.answer task = none) ∨
    ∃ locks task answer?, system.task? id = some task ∧
      system.grant? surrounding.answer task = some answer? ∧
        pollTask options system id surrounding =
          ({ system with locks := locks } : CoordinatorSystem).applyTurn task.id
            (resume options task.id system.nextId task.stage answer? system.data) := by
  rw [pollTask_eq]
  cases hTask : system.task? id with
  | none =>
      refine Or.inl ⟨system.locks, rfl, ?_⟩
      intro task hSome
      cases hSome
  | some task =>
      obtain ⟨locks, hPolled⟩ := system.polled_eq task
      simp only [hPolled]
      cases hGrant : system.grant? surrounding.answer task with
      | none =>
          refine Or.inl ⟨locks, rfl, ?_⟩
          intro other hSame
          rw [← Option.some.inj hSame]
          exact hGrant
      | some answer? => exact Or.inr ⟨locks, task, answer?, rfl, hGrant, rfl⟩

section

variable {circumstances : Circumstances} {options : CoordinatorOptions}
variable {system : CoordinatorSystem}

theorem Sound.congr (hSound : Sound circumstances options system) {other : CoordinatorSystem}
    (hTasks : other.tasks = system.tasks) (hId : other.nextId = system.nextId)
    (hTimers : other.data.timers = system.data.timers) : Sound circumstances options other where
  ids := by
    rw [hTasks]
    exact hSound.ids
  below := by
    rw [hTasks, hId]
    exact hSound.below
  awaits := by
    rw [hTasks]
    exact hSound.awaits
  informed := by
    rw [hTasks]
    exact hSound.informed
  timers := by
    rw [hTasks, hId, hTimers]
    exact hSound.timers

theorem Sound.spawn (hSound : Sound circumstances options system) {stage : Stage}
    (hAwaits : stage.Awaits options .turn) (hInformed : stage.Informed circumstances) :
    Sound circumstances options (system.spawn stage) where
  ids := by
    simp only [System.spawn, List.map_append, List.map_cons, List.map_nil]
    rw [List.nodup_append]
    refine ⟨hSound.ids, List.nodup_singleton _, ?_⟩
    intro old hOld new hNew hSame
    obtain ⟨task, hTask, hId⟩ := List.mem_map.mp hOld
    have hBelow := hSound.below task hTask
    rw [List.mem_singleton.mp hNew] at hSame
    omega
  below := by
    intro task hTask
    change task.id < system.nextId + 1
    rcases List.mem_append.mp hTask with hOld | hNew
    · have hBelow := hSound.below task hOld
      omega
    · rw [List.mem_singleton.mp hNew]
      exact Nat.lt_succ_self _
  awaits := by
    intro task hTask
    rcases List.mem_append.mp hTask with hOld | hNew
    · exact hSound.awaits task hOld
    · rw [List.mem_singleton.mp hNew]
      exact hAwaits
  informed := by
    intro task hTask
    rcases List.mem_append.mp hTask with hOld | hNew
    · exact hSound.informed task hOld
    · rw [List.mem_singleton.mp hNew]
      exact hInformed
  timers := by
    intro project id hKept
    obtain ⟨hBelow, hQuiet⟩ := hSound.timers project id hKept
    refine ⟨Nat.lt_succ_of_lt hBelow, ?_⟩
    intro task hTask hId
    rcases List.mem_append.mp hTask with hOld | hNew
    · exact hQuiet task hOld hId
    · rw [List.mem_singleton.mp hNew] at hId
      simp only at hId
      omega

theorem Sound.shutdown (hSound : Sound circumstances options system) :
    Sound circumstances options
      (Coordinator.shutdown { options := options, system := system }).system := by
  unfold Coordinator.shutdown
  dsimp only
  have hKept : ∀ task, task ∈ (system.data.timers.all.foldl System.remove
      { system with data := { system.data with timers := {} } }).tasks → task ∈ system.tasks := by
    intro task hTask
    rw [System.foldl_remove_tasks] at hTask
    exact (List.mem_filter.mp hTask).1
  refine ⟨?_, ?_, ?_, ?_, ?_⟩
  · rw [System.foldl_remove_tasks]
    exact hSound.ids.sublist (List.filter_sublist.map Task.id)
  · rw [System.foldl_remove_nextId]
    exact fun task hTask => hSound.below task (hKept task hTask)
  · exact fun task hTask => hSound.awaits task (hKept task hTask)
  · exact fun task hTask => hSound.informed task (hKept task hTask)
  · intro project id hTimer
    rw [System.foldl_remove_data] at hTimer
    cases hTimer

theorem Sound.applyTurn (hSound : Sound circumstances options system) {task : Task Stage Query}
    (hTask : task ∈ system.tasks) {turn : CoordinatorTurn}
    (hTurn : TurnSound circumstances options system.nextId task.stage system.data turn) :
    Sound circumstances options (system.applyTurn task.id turn) where
  ids := System.applyTurn_ids_nodup task.id turn hSound.ids hSound.below
  below := by
    intro other hOther
    rw [System.applyTurn_nextId]
    rcases System.mem_applyTurn_tasks hOther with ⟨hOld, _⟩ | ⟨hId, _⟩ | ⟨_, index, hStage, hId⟩
    · have hBelow := hSound.below other hOld
      omega
    · have hBelow := hSound.below task hTask
      omega
    · have hIndex := (List.getElem?_eq_some_iff.mp hStage).1
      omega
  awaits := by
    intro other hOther
    rcases System.mem_applyTurn_tasks hOther with ⟨hOld, _⟩ | ⟨_, hNext, hWait⟩ |
      ⟨hWait, index, hStage, _⟩
    · exact hSound.awaits other hOld
    · rw [hWait]
      exact (hTurn.next _ hNext).1 _
    · rw [hWait]
      exact (hTurn.spawned _ (List.mem_of_getElem? hStage)).1
  informed := by
    intro other hOther
    rcases System.mem_applyTurn_tasks hOther with ⟨hOld, _⟩ | ⟨_, hNext, _⟩ | ⟨_, index, hStage, _⟩
    · exact hSound.informed other hOld
    · exact (hTurn.next _ hNext).2.1
    · exact (hTurn.spawned _ (List.mem_of_getElem? hStage)).2.1
  timers := by
    intro project id hKept
    rw [System.applyTurn_data] at hKept
    rw [System.applyTurn_nextId]
    -- A timer was kept before, or it is a task that the turn has started.
    rcases hTurn.timers project id hKept with hOldTimer | ⟨index, hTimer, hId⟩
    · obtain ⟨hBelow, hQuiet⟩ := hSound.timers project id hOldTimer
      refine ⟨by omega, ?_⟩
      intro other hOther hSame
      rcases System.mem_applyTurn_tasks hOther with ⟨hOld, _⟩ | ⟨hSelf, hNext, _⟩ |
        ⟨_, index, _, hNew⟩
      · exact hQuiet other hOld hSame
      · rw [(hTurn.next _ hNext).2.2]
        exact hQuiet task hTask (hSelf.symm.trans hSame)
      · omega
    · have hIndex := (List.getElem?_eq_some_iff.mp hTimer).1
      refine ⟨by omega, ?_⟩
      intro other hOther hSame
      rcases System.mem_applyTurn_tasks hOther with ⟨hOld, _⟩ | ⟨hSelf, _⟩ |
        ⟨_, position, hStage, hNew⟩
      · have hBelow := hSound.below other hOld
        omega
      · have hBelow := hSound.below task hTask
        omega
      · have hPosition : position = index := by omega
        rw [hPosition, hTimer] at hStage
        rw [← Option.some.inj hStage]
        rfl

theorem Sound.quiet_of_kept (hSound : Sound circumstances options system)
    {task : Task Stage Query} (hTask : task ∈ system.tasks)
    (hKept : ∃ asked, system.data.timers.waiting.get? asked = some task.id) :
    task.stage.quiet?.isSome = true := by
  obtain ⟨asked, hAsked⟩ := hKept
  rw [(hSound.timers asked task.id hAsked).2 task hTask rfl]
  rfl

theorem Sound.self_stays (hSound : Sound circumstances options system) {task : Task Stage Query}
    (hTask : task ∈ system.tasks) {turn : CoordinatorTurn}
    (hTurn : TurnSound circumstances options system.nextId task.stage system.data turn) :
    task.id ∉ turn.dropped ∨ turn.next.stage? = none := by
  by_cases hDropped : task.id ∈ turn.dropped
  · obtain ⟨project, hKept⟩ := hTurn.dropped task.id hDropped
    have hQuiet := (hSound.timers project task.id hKept).2 task hTask rfl
    rcases hTurn.keeps (by simp [hQuiet]) with hGone | hNone
    · exact Or.inr hGone
    · rw [hNone] at hDropped
      cases hDropped
  · exact Or.inl hDropped

theorem Sound.poll_cases (hSound : Sound circumstances options system) {id : Nat}
    {surrounding : Surrounding Id} (hWithin : (Event.poll id surrounding).Within circumstances) :
    (∃ locks, pollTask options system id surrounding = { system with locks := locks } ∧
      ∀ task, system.task? id = some task → system.grant? surrounding.answer task = none) ∨
    ∃ locks task answer?, system.task? id = some task ∧ task ∈ system.tasks ∧
      system.grant? surrounding.answer task = some answer? ∧
        Replies circumstances task.wait answer? ∧
          Sound circumstances options { system with locks := locks } ∧
            TurnSound circumstances options system.nextId task.stage system.data
              (resume options task.id system.nextId task.stage answer? system.data) ∧
              pollTask options system id surrounding =
                ({ system with locks := locks } : CoordinatorSystem).applyTurn task.id
                  (resume options task.id system.nextId task.stage answer? system.data) := by
  rcases pollTask_cases options system id surrounding with ⟨locks, hPoll, hWaits⟩ |
    ⟨locks, task, answer?, hFound, hGrant, hPoll⟩
  · exact Or.inl ⟨locks, hPoll, hWaits⟩
  · obtain ⟨hTask, _⟩ := (hSound.task?_eq_some_iff id task).mp hFound
    have hReplies := replies_of_grant hWithin hGrant
    refine Or.inr ⟨locks, task, answer?, hFound, hTask, hGrant, hReplies,
      hSound.congr rfl rfl rfl, ?_, hPoll⟩
    exact resume_sound task.id system.nextId system.data (hSound.awaits task hTask)
      (hSound.informed task hTask) hReplies

theorem Sound.takeCall (hSound : Sound circumstances options system) (call? : Option Call) :
    Sound circumstances options (takeCall system call?) := by
  cases call? with
  | none => exact hSound
  | some call =>
      cases call with
      | update project => exact hSound.spawn rfl trivial
      | notify change => exact hSound.spawn rfl trivial

theorem Sound.happen (hSound : Sound circumstances options system) {event : Event}
    (hWithin : event.Within circumstances) :
    Sound circumstances options (happen options system event) := by
  cases event with
  | update project => exact hSound.takeCall _
  | notify notification => exact hSound.takeCall _
  | shutdown => exact hSound.shutdown
  | pass duration => exact hSound.congr rfl rfl rfl
  | reorder ready => exact hSound.congr rfl rfl rfl
  | poll id surrounding =>
      simp only [Coordinator.happen]
      rcases hSound.poll_cases hWithin with ⟨locks, hPoll, _⟩ |
        ⟨locks, task, answer?, _, hTask, _, _, hLocked, hTurn, hPoll⟩
      · rw [hPoll]
        exact hSound.congr rfl rfl rfl
      · rw [hPoll]
        exact hLocked.applyTurn hTask hTurn

end

/-- Every run that fits the circumstances is sound. -/
theorem Run.sound {circumstances : Circumstances} (options : CoordinatorOptions)
    (events : List Event) (hEvents : ∀ event ∈ events, event.Within circumstances) :
    Sound circumstances options (Run.after options events).system :=
  Run.after_induction (motive := fun run => Sound circumstances options run.system)
    (sound_start circumstances options)
    (fun _ _ hSound hWithin => Sound.happen hSound hWithin) events hEvents

end Coordinator

end BuildWatch
