import BuildWatch.Proofs.Coordinator.Guards
import BuildWatch.Proofs.Coordinator.IntakeRuns
import BuildWatch.Proofs.Coordinator.PromptRuns

/-!
The law of quiet periods.  In a run in which time passes only when nothing is left to do, a
timer that is armed and left alone fires once, exactly one quiet period later, and acts on the
changes and the info of that moment.
-/

namespace BuildWatch

open BuildWatch.Tasks

namespace Coordinator

variable {circumstances : Circumstances} {options : CoordinatorOptions} {project : String}
variable {timer : Nat} {events more : List Event}

/-! ### Requests of a project that are half done -/

theorem Stage.project_of_call? {stage : Stage} {call : Call} (hCall : stage.call? = some call) :
    call.project = stage.project := by
  cases stage <;> cases hCall <;> rfl

theorem calm_step {run : Run} (hSound : Sound circumstances options run.system)
    (hCalm : run.Calm project) {event : Event} (hWithin : event.Within circumstances)
    (hOther : ∀ call ∈ event.call?, call.project ≠ project) :
    (run.step options event).Calm project := by
  have hCall (call? : Option Call) (hOthers : ∀ call ∈ call?, call.project ≠ project) :
      ∀ task ∈ (takeCall run.system call?).tasks, ∀ call ∈ task.stage.call?,
        call.project ≠ project := by
    intro task hTask
    cases call? with
    | none => exact hCalm task hTask
    | some made =>
        rcases List.mem_append.mp hTask with hOld | hNew
        · exact hCalm task hOld
        · intro call hMade
          have hStage : made.stage.call? = some made := by cases made <;> rfl
          rw [List.mem_singleton.mp hNew, hStage] at hMade
          cases hMade
          exact hOthers made rfl
  intro task hTask
  cases event with
  | update asked => exact hCall _ hOther task hTask
  | notify notification => exact hCall _ hOther task hTask
  | shutdown =>
      simp only [Run.step, happen, shutdown, System.foldl_remove_tasks] at hTask
      exact hCalm task (List.mem_filter.mp hTask).1
  | pass duration => exact hCalm task hTask
  | reorder ready => exact hCalm task hTask
  | poll id surrounding =>
      simp only [Run.step, happen] at hTask
      rcases hSound.poll_cases hWithin with ⟨locks, hPoll, _⟩ |
        ⟨locks, polled, answer?, _, hPolled, _, hReplies, _, hTurn, hPoll⟩
      · rw [hPoll] at hTask
        exact hCalm task hTask
      · rw [hPoll] at hTask
        rcases System.mem_applyTurn_tasks hTask with ⟨hOld, _⟩ | ⟨_, hNext, _⟩ |
          ⟨_, index, hStage, _⟩
        · exact hCalm task hOld
        · rw [resume_call? polled.id run.system.nextId run.system.data
            (hSound.awaits polled hPolled) hReplies hNext]
          exact hCalm polled hPolled
        · rw [(hTurn.spawned _ (List.mem_of_getElem? hStage)).2.2]
          intro call hCall
          cases hCall

/-! ### Timers that are left alone -/

/-- Whether an event neither ends every quiet period nor makes a call for a project. -/
def Event.spares (project : String) : Event → Bool
  | .shutdown => false
  | event => event.call?.all fun call => call.project != project

theorem Event.spares_iff (project : String) (event : Event) :
    event.spares project = true ↔
      event ≠ .shutdown ∧ ∀ call ∈ event.call?, call.project ≠ project := by
  cases event with
  | shutdown => simp [spares]
  | update asked => simp [spares, Option.all_eq_true]
  | notify notification => simp [spares, Option.all_eq_true]
  | _ => simp [spares, Event.call?]

/-- After a run the timer of a project is kept and no request for the project is half done, and
until it fires none is made and there is no shutdown. -/
structure LeftAlone (options : CoordinatorOptions) (project : String) (timer : Nat)
    (events more : List Event) : Prop where
  within : ∀ event ∈ events ++ more, event.Within .faithfulInfos
  prompt : Run.Always options {} (events ++ more) fun system event => event.Prompt system
  answered : Run.Always options {} (events ++ more) fun system event =>
    event.panicsTimer timer system = false
  kept : timer? project (Run.after options events).system = some timer
  calm : (Run.after options events).Calm project
  alone : Run.Always options (Run.after options events) more fun system event =>
    timer? project system = some timer → event.spares project = true

theorem LeftAlone.left {event : Event}
    (hLeft : LeftAlone options project timer events (more ++ [event])) :
    LeftAlone options project timer events more where
  within := by
    intro other hOther
    apply hLeft.within
    rw [← List.append_assoc]
    exact List.mem_append_left _ hOther
  prompt := by
    have hPrompt := hLeft.prompt
    rw [← List.append_assoc] at hPrompt
    exact hPrompt.left
  answered := by
    have hAnswered := hLeft.answered
    rw [← List.append_assoc] at hAnswered
    exact hAnswered.left
  kept := hLeft.kept
  calm := hLeft.calm
  alone := hLeft.alone.left

structure Fires (options : CoordinatorOptions) (project : String) (timer time : Nat)
    (events : List Event) (surrounding : Surrounding Id) : Prop where
  now : (Run.after options events).system.now = time
  expiry : ∃ lookup spawned, LookedUp options project timer time events lookup ∧
    let before := Run.after options events
    let after := Run.after options (events ++ [.poll timer surrounding])
    Expiry lookup (before.state.share project) (after.state.share project) spawned ∧
      after.system.tasks.map Task.stage =
        (before.system.tasks.filter fun task => task.id != timer).map Task.stage ++ spawned

/-- After some events the timer of a project, which was kept until then, has fired, and it never
does so again. -/
def Fired (options : CoordinatorOptions) (project : String) (timer time : Nat)
    (events more : List Event) : Prop :=
  ∃ first surrounding rest, more = first ++ .poll timer surrounding :: rest ∧
    Fires options project timer time (events ++ first) surrounding ∧
    (∀ part, part <+: first →
      timer? project (Run.after options (events ++ part)).system = some timer) ∧
    ∀ part, part <+: rest →
      (Run.after options (events ++ first ++ .poll timer surrounding :: part)).system.task? timer =
        none

/-! ### The turn that fires -/

section

variable {system : CoordinatorSystem} {task : Task Stage Query} {turn : CoordinatorTurn}

theorem Sound.tasks_applyTurn_finish (hSound : Sound circumstances options system)
    (hTask : task ∈ system.tasks) (hNext : turn.next = .finish) (hDropped : turn.dropped = []) :
    (system.applyTurn task.id turn).tasks.map Task.stage =
      (system.tasks.filter fun other => other.id != task.id).map Task.stage ++ turn.spawned := by
  obtain ⟨settled, since, hTurn, hTasks, _⟩ := system.applyTurn_eq task.id turn
  have hBelow := hSound.below task hTask
  have hRemaining : system.remaining turn = system.tasks := by
    unfold System.remaining
    rw [hDropped]
    exact List.filter_eq_self.mpr fun _ _ => rfl
  have hStarted : (System.started system.nextId since turn.spawned :
      List (Task Stage Query)).filter (fun other => other.id != task.id) =
        System.started system.nextId since turn.spawned := by
    apply List.filter_eq_self.mpr
    intro other hOther
    have hAbove := System.started_id_ge hOther
    rw [bne_iff_ne]
    omega
  rw [hTurn, hNext]
  change ((settled.remove task.id).tasks).map Task.stage = _
  rw [System.remove_tasks, hTasks, hRemaining, List.filter_append, hStarted, List.map_append,
    System.started_stages]

theorem Sound.gone_applyTurn (hSound : Sound circumstances options system)
    (hTask : task ∈ system.tasks) (hNone : turn.next.stage? = none) :
    ∀ other ∈ (system.applyTurn task.id turn).tasks, other.id ≠ task.id := by
  intro other hOther
  rcases System.mem_applyTurn_tasks hOther with ⟨_, hDistinct, _⟩ | ⟨_, hNext, _⟩ |
    ⟨_, index, _, hNew⟩
  · exact hDistinct
  · rw [hNone] at hNext
    cases hNext
  · have hBelow := hSound.below task hTask
    omega

theorem Sound.gone_happen (hSound : Sound circumstances options system) {event : Event}
    (hWithin : event.Within circumstances)
    (hGone : timer < system.nextId ∧ ∀ task ∈ system.tasks, task.id ≠ timer) :
    timer < (Coordinator.happen options system event).nextId ∧
      ∀ task ∈ (Coordinator.happen options system event).tasks, task.id ≠ timer := by
  have hCall (call? : Option Call) : timer < (Coordinator.takeCall system call?).nextId ∧
      ∀ task ∈ (Coordinator.takeCall system call?).tasks, task.id ≠ timer := by
    cases call? with
    | none => exact hGone
    | some call =>
        constructor
        · exact Nat.lt_succ_of_lt hGone.1
        · intro task hTask
          rcases List.mem_append.mp hTask with hOld | hNew
          · exact hGone.2 task hOld
          · rw [List.mem_singleton.mp hNew]
            exact Nat.ne_of_gt hGone.1
  cases event with
  | update asked => exact hCall _
  | notify notification => exact hCall _
  | shutdown =>
      simp only [Coordinator.happen, Coordinator.shutdown, System.foldl_remove_nextId,
        System.foldl_remove_tasks]
      constructor
      · exact hGone.1
      · intro task hTask
        exact hGone.2 task (List.mem_filter.mp hTask).1
  | pass duration => exact hGone
  | reorder ready => exact hGone
  | poll id surrounding =>
      simp only [Coordinator.happen]
      rcases hSound.poll_cases hWithin with ⟨locks, hPoll, _⟩ |
        ⟨locks, polled, answer?, _, hPolled, _, _, _, _, hPoll⟩
      · rw [hPoll]
        exact hGone
      · rw [hPoll, System.applyTurn_nextId]
        constructor
        · exact Nat.lt_add_right _ hGone.1
        · intro task hTask
          rcases System.mem_applyTurn_tasks hTask with ⟨hOld, _⟩ | ⟨hSelf, _⟩ | ⟨_, index, _, hId⟩
          · exact hGone.2 task hOld
          · rw [hSelf]
            exact hGone.2 polled hPolled
          · rw [hId]
            exact Nat.ne_of_gt (Nat.lt_add_right _ hGone.1)

end

theorem Event.call_of_actsFor {event : Event} {system : CoordinatorSystem}
    (hActs : event.actsFor project system = true) :
    (∃ id surrounding, event = .poll id surrounding) ∨
      ∃ call, event.call? = some call ∧ call.project = project := by
  cases event with
  | poll id surrounding => exact Or.inl ⟨id, surrounding, rfl⟩
  | update asked =>
      obtain ⟨call, hCall, hSame⟩ := (Option.any_eq_true _ _).mp hActs
      exact Or.inr ⟨call, hCall, beq_iff_eq.mp hSame⟩
  | notify notification =>
      obtain ⟨call, hCall, hSame⟩ := (Option.any_eq_true _ _).mp hActs
      exact Or.inr ⟨call, hCall, beq_iff_eq.mp hSame⟩
  | _ => cases hActs

theorem Sound.fires_of_turn {locks : Locks} {task : Task Stage Query} {turn : CoordinatorTurn}
    {surrounding : Surrounding Id} {time : Nat} {lookup : Lookup}
    (hSound : Sound circumstances options (Run.after options events).system)
    (hTask : task ∈ (Run.after options events).system.tasks)
    (hStep : (Run.after options (events ++ [.poll task.id surrounding])).system =
      ({ (Run.after options events).system with locks := locks } :
        CoordinatorSystem).applyTurn task.id turn)
    (hNow : (Run.after options events).system.now = time)
    (hLooked : LookedUp options project task.id time events lookup)
    (hFinish : turn.next = .finish) (hDropped : turn.dropped = [])
    (hExpiry : Expiry lookup ((Run.after options events).state.share project)
      (turn.data.share project) turn.spawned) :
    Fires options project task.id time events surrounding ∧
      ∀ other ∈ (Run.after options (events ++ [.poll task.id surrounding])).system.tasks,
        other.id ≠ task.id := by
  have hLocked : Sound circumstances options
      { (Run.after options events).system with locks := locks } := hSound.congr rfl rfl rfl
  constructor
  · refine ⟨hNow, lookup, turn.spawned, hLooked, ?_, ?_⟩
    · change Expiry _ _
        ((Run.after options (events ++ [.poll task.id surrounding])).system.data.share project) _
      rw [hStep, System.applyTurn_data]
      exact hExpiry
    · rw [hStep]
      exact hLocked.tasks_applyTurn_finish hTask hFinish hDropped
  · rw [hStep]
    apply hLocked.gone_applyTurn hTask
    rw [hFinish]
    rfl

/-- A timer that is left alone stays, unless its own task ends the quiet period. -/
theorem Sound.kept_or_fires {surrounding : Surrounding Id} {id : Nat}
    (hSound : Sound .faithfulInfos options (Run.after options events).system)
    (hTended : Tended (Run.after options events).system)
    (hWithin : (Event.poll id surrounding).Within .faithfulInfos)
    (hAnswered : (Event.poll id surrounding).panicsTimer timer
      (Run.after options events).system = false)
    (hStanding : Standing options project timer events)
    (hCalm : (Run.after options events).Calm project)
    (hKept : timer? project (Run.after options events).system = some timer) :
    let next := Run.after options (events ++ [.poll id surrounding])
    timer? project next.system = some timer ∨
      id = timer ∧
        Fires options project timer (lastArmed options project events + options.quietPeriod)
          events surrounding ∧
        ∀ task ∈ next.system.tasks, task.id ≠ timer := by
  have hStep := Run.system_after_concat options events (.poll id surrounding)
  dsimp only
  cases hActs : (Event.poll id surrounding).actsFor project (Run.after options events).system with
  | false =>
      have hUntouched := hSound.untouched_happen hWithin hActs nofun
      refine Or.inl ?_
      rw [hStep]
      exact (congrArg Share.timer hUntouched.share).trans hKept
  | true =>
      rcases hSound.poll_cases hWithin with ⟨locks, hPoll, _⟩ |
        ⟨locks, task, answer?, hFound, hTask, hGrant, _, hLocked, hTurn, hPoll⟩
      · refine Or.inl ?_
        rw [hStep, Coordinator.happen, hPoll]
        exact hKept
      · have hProject : task.stage.project = project := by
          simp only [Event.actsFor, hFound, Option.any_some] at hActs
          exact beq_iff_eq.mp hActs
        rw [Coordinator.happen, hPoll] at hStep
        have hNoCall (call : Call) (hCall : task.stage.call? = some call) : False :=
          hCalm task hTask call hCall ((Stage.project_of_call? hCall).trans hProject)
        rcases task.stage.kinds with ⟨chunk, hChange⟩ | hQuiet | ⟨phase, hPhase⟩ | hUpdate
        · exact (hNoCall _ (Stage.call?_of_change? hChange)).elim
        · -- The task is the one that is kept as the timer.
          rw [hProject] at hQuiet
          obtain rfl : task.id = timer :=
            Option.some.inj ((hTended task hTask project hQuiet).symm.trans hKept)
          obtain rfl : task.id = id := ((hSound.task?_eq_some_iff id task).mp hFound).2
          obtain ⟨own, hOwn, hOwnId, hStands⟩ := hStanding hKept
          obtain rfl := List.inj_on_of_nodup_map hSound.ids hOwn hTask hOwnId
          rcases hStands.resume hFound hGrant hAnswered (Run.after options events).system.nextId
            (Run.after options events).system.data with
            ⟨lookup, hStage, hLookup, hNow, hLooked⟩ | ⟨hDropped, later, hNext, _⟩
          · obtain ⟨hFinish, hDropped, hExpiry⟩ := hSound.expiry_resume hOwn hStage hLookup hKept
              (Run.after options events).system.nextId answer?
            exact Or.inr ⟨rfl, hSound.fires_of_turn hOwn hStep hNow hLooked hFinish hDropped
              hExpiry⟩
          · refine Or.inl ?_
            have hKeeps := (resume_tends options own.id (Run.after options events).system.nextId
              own.stage answer? (Run.after options events).system.data).kept project own.id hKept
            rw [hStep]
            unfold timer?
            rw [System.applyTurn_data]
            rcases hKeeps with hStill | hGone | ⟨_, hEnds⟩
            · exact hStill
            · rw [hDropped] at hGone
              cases hGone
            · rw [hEnds] at hNext
              cases hNext
        · refine Or.inl ?_
          rw [hStep]
          unfold timer?
          rw [System.applyTurn_data, resume_timers_of_phase options _ _ hPhase]
          exact hKept
        · exact (hNoCall _ hUpdate).elim

/-- Where a timer that is left alone has got to: it is kept still, or has fired and is gone. -/
inductive Outcome (options : CoordinatorOptions) (project : String) (timer : Nat)
    (events more : List Event) : Prop where
  | kept (hAll : ∀ part, part <+: more →
        timer? project (Run.after options (events ++ part)).system = some timer)
      (hCalm : (Run.after options (events ++ more)).Calm project)
      (hArmed : lastArmed options project (events ++ more) = lastArmed options project events) :
      Outcome options project timer events more
  | fired (hFired : Fired options project timer
        (lastArmed options project events + options.quietPeriod) events more)
      (hId : timer < (Run.after options (events ++ more)).system.nextId)
      (hGone : ∀ task ∈ (Run.after options (events ++ more)).system.tasks, task.id ≠ timer) :
      Outcome options project timer events more

theorem task?_eq_none {system : CoordinatorSystem} {id : Nat}
    (hGone : ∀ task ∈ system.tasks, task.id ≠ id) : system.task? id = none := by
  apply List.find?_eq_none.mpr
  intro task hTask
  simpa using hGone task hTask

theorem Fired.concat {time : Nat} {event : Event}
    (hFired : Fired options project timer time events more)
    (hGone : (Run.after options (events ++ (more ++ [event]))).system.task? timer = none) :
    Fired options project timer time events (more ++ [event]) := by
  obtain ⟨first, surrounding, rest, rfl, hFires, hKept, hNever⟩ := hFired
  refine ⟨first, surrounding, rest ++ [event], by simp, hFires, hKept, ?_⟩
  intro part hPart
  rcases List.prefix_concat_iff.mp hPart with hAll | hEarlier
  · rw [hAll]
    simpa using hGone
  · exact hNever part hEarlier

theorem Outcome.of_kept {event : Event}
    (hAll : ∀ part, part <+: more →
      timer? project (Run.after options (events ++ part)).system = some timer)
    (hArmed : lastArmed options project (events ++ more) = lastArmed options project events)
    (hNext : timer? project (Run.after options (events ++ (more ++ [event]))).system = some timer)
    (hCalm : (Run.after options (events ++ (more ++ [event]))).Calm project) :
    Outcome options project timer events (more ++ [event]) := by
  apply Outcome.kept
  · intro part hPart
    rcases List.prefix_concat_iff.mp hPart with hWhole | hEarlier
    · rw [hWhole]
      exact hNext
    · exact hAll part hEarlier
  · exact hCalm
  · rw [← List.append_assoc] at hNext ⊢
    rw [lastArmed_of_kept (hAll more (List.prefix_refl more)) hNext, hArmed]

/-- A turn of some task, its own included, either leaves the timer or makes it fire. -/
theorem LeftAlone.outcome_poll {id : Nat} {surrounding : Surrounding Id}
    (hLeft : LeftAlone options project timer events (more ++ [.poll id surrounding]))
    (hAll : ∀ part, part <+: more →
      timer? project (Run.after options (events ++ part)).system = some timer)
    (hCalm : (Run.after options (events ++ more)).Calm project)
    (hArmed : lastArmed options project (events ++ more) = lastArmed options project events) :
    Outcome options project timer events (more ++ [.poll id surrounding]) := by
  have hBefore := hLeft.left
  have hWithin : (Event.poll id surrounding).Within .faithfulInfos :=
    hLeft.within _ (by simp)
  have hSound := Run.sound options (events ++ more) hBefore.within
  have hKept := hAll more (List.prefix_refl more)
  have hAnswered := hLeft.answered
  rw [← List.append_assoc] at hAnswered
  rcases hSound.kept_or_fires (Run.tended options _ hBefore.within) hWithin hAnswered.last
    (Run.standing options project timer _ hBefore.within hBefore.prompt hBefore.answered) hCalm
    hKept with hNext | ⟨rfl, hFires, hGone⟩
  · rw [List.append_assoc] at hNext
    apply Outcome.of_kept hAll hArmed hNext
    rw [← List.append_assoc, Run.after_append]
    exact calm_step hSound hCalm hWithin nofun
  · rw [hArmed] at hFires
    rw [List.append_assoc] at hGone
    apply Outcome.fired
    · refine ⟨more, surrounding, [], rfl, hFires, hAll, ?_⟩
      intro part hPart
      rw [List.prefix_nil.mp hPart, List.append_assoc]
      exact task?_eq_none hGone
    · have hBelow := (hSound.timers project id hKept).1
      rw [← List.append_assoc, Run.after_append]
      exact Nat.lt_of_lt_of_le hBelow (pollTask_nextId options _ id surrounding)
    · exact hGone

theorem LeftAlone.outcome (hLeft : LeftAlone options project timer events more) :
    Outcome options project timer events more := by
  induction more using List.reverseRecOn with
  | nil =>
      apply Outcome.kept
      · intro part hPart
        rw [List.prefix_nil.mp hPart, List.append_nil]
        exact hLeft.kept
      · rw [List.append_nil]
        exact hLeft.calm
      · rw [List.append_nil]
  | append_singleton more last ih =>
      have hBefore := hLeft.left
      have hWithin : last.Within .faithfulInfos :=
        hLeft.within last (by simp)
      have hSound := Run.sound options (events ++ more) hBefore.within
      have hStep := Run.system_after_concat options (events ++ more) last
      rw [List.append_assoc] at hStep
      cases ih hBefore with
      | fired hFired hId hGone =>
          obtain ⟨hNextId, hNextGone⟩ := hSound.gone_happen hWithin ⟨hId, hGone⟩
          rw [← hStep] at hNextId hNextGone
          exact .fired (hFired.concat (task?_eq_none hNextGone)) hNextId hNextGone
      | kept hAll hCalm hArmed =>
          have hKept := hAll more (List.prefix_refl more)
          have hAlone := hLeft.alone.last
          rw [← Run.after_append] at hAlone
          obtain ⟨hNoShutdown, hOther⟩ := (Event.spares_iff project last).mp (hAlone hKept)
          by_cases hActs : last.actsFor project (Run.after options (events ++ more)).system = true
          · -- Only a turn can act for the project, as no call is made for it.
            rcases Event.call_of_actsFor hActs with ⟨id, surrounding, rfl⟩ | ⟨call, hCall, hSame⟩
            · exact hLeft.outcome_poll hAll hCalm hArmed
            · exact absurd hSame (hOther call hCall)
          · have hUntouched := hSound.untouched_happen hWithin (by simpa using hActs) hNoShutdown
            apply Outcome.of_kept hAll hArmed
            · rw [hStep]
              exact (congrArg Share.timer hUntouched.share).trans hKept
            · rw [← List.append_assoc, Run.after_append]
              exact calm_step hSound hCalm hWithin hOther

/-! ### The turns that are missing -/

/-- So many turns the task of a timer has before the one that ends the quiet period. -/
def Stage.untilDecided : Stage → Nat
  | .timer _ => 3
  | .timerElapsed _ => 2
  | .timerFound _ => 1
  | _ => 0

theorem resume_untilDecided (options : CoordinatorOptions) (self fresh : Nat)
    {stage later : Stage} (answer? : Option Answer) (data : CoordinatorState)
    (hQuiet : stage.quiet? = some project)
    (hNext : (resume options self fresh stage answer? data).next.stage? = some later) :
    later.untilDecided < stage.untilDecided := by
  cases stage with
  | timer asked =>
      cases hNext
      exact Nat.lt_succ_self 2
  | timerElapsed asked =>
      cases hNext
      exact Nat.lt_succ_self 1
  | timerFound asked =>
      simp only [resume] at hNext
      split at hNext
      · cases hNext
      · cases hNext
        exact Nat.lt_succ_self 0
  | timerLocked asked lookup => cases hNext
  | _ => cases hQuiet

def untilDecided (timer : Nat) (system : CoordinatorSystem) : Nat :=
  ((system.task? timer).map fun task => task.stage.untilDecided).getD 0

theorem Sound.untilDecided_eq {system : CoordinatorSystem} {task : Task Stage Query}
    (hSound : Sound circumstances options system) (hTask : task ∈ system.tasks) :
    untilDecided task.id system = task.stage.untilDecided := by
  unfold untilDecided
  rw [(hSound.task?_eq_some_iff task.id task).mpr ⟨hTask, rfl⟩]
  rfl

/-- The task of a timer never falls back, and its own turns bring it on. -/
theorem Sound.untilDecided_poll {system : CoordinatorSystem} {own : Task Stage Query} {id : Nat}
    {surrounding : Surrounding Id} (hSound : Sound circumstances options system)
    (hWithin : (Event.poll id surrounding).Within circumstances) (hOwn : own ∈ system.tasks)
    (hBefore : timer? project system = some own.id)
    (hAfter : timer? project (pollTask options system id surrounding) = some own.id) :
    untilDecided own.id (pollTask options system id surrounding) ≤ untilDecided own.id system ∧
      (0 < own.stage.untilDecided → id = own.id →
        (system.grant? surrounding.answer own).isSome = true →
          untilDecided own.id (pollTask options system id surrounding) <
            untilDecided own.id system) := by
  have hFoundOwn := (hSound.task?_eq_some_iff own.id own).mpr ⟨hOwn, rfl⟩
  have hNext : Sound circumstances options (pollTask options system id surrounding) :=
    hSound.happen hWithin
  rcases hSound.poll_cases hWithin with ⟨locks, hPoll, hWaits⟩ |
    ⟨locks, task, answer?, hFound, hTask, _, _, hLocked, hTurn, hPoll⟩
  · constructor
    · rw [hPoll]
      exact Nat.le_refl _
    · rintro _ rfl hGrant
      rw [hWaits own hFoundOwn] at hGrant
      cases hGrant
  · have hTaskId := ((hSound.task?_eq_some_iff id task).mp hFound).2
    have hBelow : ∀ asked kept, system.data.timers.waiting.get? asked = some kept →
        kept < system.nextId := fun asked kept hAsked => (hSound.timers asked kept hAsked).1
    rw [hPoll] at hAfter hNext
    rcases hLocked.kept_applyTurn hTask hTurn (resume_forgets options task.id _ task.stage answer?
      hBelow) hAfter with ⟨_, hStays⟩ | ⟨hNew, _⟩
    · obtain ⟨hNotDropped, hRemains⟩ := hStays own hOwn rfl
      rw [hPoll]
      by_cases hSelf : own.id = task.id
      · obtain rfl := List.inj_on_of_nodup_map hSound.ids hOwn hTask hSelf
        have hQuiet := (hSound.timers project own.id hBefore).2 own hOwn rfl
        rw [hSound.untilDecided_eq hOwn]
        cases hGoesOn : (resume options own.id system.nextId own.stage answer?
            system.data).next.stage? with
        | none =>
            unfold untilDecided
            rw [task?_eq_none (hLocked.gone_applyTurn hOwn hGoesOn)]
            exact ⟨Nat.zero_le _, fun hPositive _ _ => hPositive⟩
        | some later =>
            have hFewer := resume_untilDecided options own.id system.nextId answer? system.data
              hQuiet hGoesOn
            have hMember : own ∈ ({ system with locks := locks } : CoordinatorSystem).tasks := hOwn
            obtain ⟨resumed, hResumed, hId, hStage, _⟩ :=
              System.exists_applyTurn_self hMember hNotDropped hGoesOn
            have hRank := hNext.untilDecided_eq hResumed
            rw [hId, hStage] at hRank
            rw [hRank]
            exact ⟨Nat.le_of_lt hFewer, fun _ _ _ => hFewer⟩
      · rw [hNext.untilDecided_eq (hRemains hSelf), hSound.untilDecided_eq hOwn]
        constructor
        · exact Nat.le_refl _
        · intro _ hSame
          exact absurd (hSame.symm.trans hTaskId.symm) hSelf
    · exact absurd hBefore hNew

theorem Stands.grant?_finishing {task : Task Stage Query} {armed : Nat}
    (hStands : Stands options project timer armed events task.stage task.wait)
    (hOver : armed + options.quietPeriod ≤ (Run.after options events).system.now)
    (hWait : task.wait ≠ .locks) :
    0 < task.stage.untilDecided ∧
      ((Run.after options events).system.grant? finishing.answer task).isSome = true := by
  unfold System.grant?
  generalize task.stage = stage at hStands ⊢
  generalize task.wait = wait at hStands hWait ⊢
  cases hStands with
  | begins hNow => exact ⟨Nat.succ_pos 2, rfl⟩
  | sleeps hNow =>
      simp only [if_pos hOver]
      exact ⟨Nat.succ_pos 1, rfl⟩
  | asks hNow => exact ⟨Nat.succ_pos 0, rfl⟩
  | claims lookup hNow hLooked hAnswered => exact absurd rfl hWait

theorem finishing_faithful (id : Nat) : (Event.poll id finishing).Within .faithfulInfos := by
  have hSteady : (Event.poll id finishing).Steady := ⟨_, rfl⟩
  apply hSteady.within
  · intro asked info hFound
    cases hFound
    rfl
  · trivial

theorem LeftAlone.poll (hLeft : LeftAlone options project timer events more) (id : Nat) :
    LeftAlone options project timer events (more ++ [.poll id finishing]) where
  within := by
    intro event hEvent
    rw [← List.append_assoc] at hEvent
    rcases List.mem_append.mp hEvent with hOld | hNew
    · exact hLeft.within event hOld
    · rw [List.mem_singleton.mp hNew]
      exact finishing_faithful id
  prompt := by
    rw [← List.append_assoc]
    exact hLeft.prompt.concat trivial
  answered := by
    rw [← List.append_assoc]
    apply hLeft.answered.concat
    unfold Event.panicsTimer
    dsimp only
    cases ((Run.extend options {} (events ++ more)).system.task? id) with
    | none => rfl
    | some task =>
        rw [Option.any_some]
        split
        · exact Bool.and_false _
        · rfl
  kept := hLeft.kept
  calm := hLeft.calm
  alone := hLeft.alone.concat fun _ => rfl

/-- Once its quiet period is over some task can have a turn that brings the timer nearer to its
end: its own task, or while that waits for locks one that holds them. -/
theorem LeftAlone.exists_nearer {more : List Event}
    (hLeft : LeftAlone options project timer events more)
    (hKept : timer? project (Run.after options (events ++ more)).system = some timer)
    (hOver : lastArmed options project (events ++ more) + options.quietPeriod ≤
      (Run.after options (events ++ more)).system.now) :
    let system := (Run.after options (events ++ more)).system
    ∃ id, timer? project (pollTask options system id finishing) = some timer →
      Prod.Lex (· < ·) (· < ·)
        (untilDecided timer (pollTask options system id finishing),
          grantsLeft (pollTask options system id finishing))
        (untilDecided timer system, grantsLeft system) := by
  have hSound := Run.sound options (events ++ more) hLeft.within
  obtain ⟨own, hOwn, rfl, hStands⟩ := Run.standing options project timer _ hLeft.within
    hLeft.prompt hLeft.answered hKept
  dsimp only
  by_cases hWait : own.wait = .locks
  · obtain ⟨id, hFewer⟩ := hSound.exists_grant (Run.orderly options _ hLeft.within)
      finishing_faithful ⟨own, hOwn, hWait⟩
    refine ⟨id, fun hKeptNext => ?_⟩
    obtain ⟨hStays, _⟩ := hSound.untilDecided_poll (finishing_faithful id) hOwn hKept hKeptNext
    rcases Nat.lt_or_eq_of_le hStays with hLess | hSame
    · exact Prod.Lex.left _ _ hLess
    · rw [hSame]
      exact Prod.Lex.right _ hFewer
  · obtain ⟨hBefore, hGrant⟩ := hStands.grant?_finishing hOver hWait
    refine ⟨own.id, fun hKeptNext => ?_⟩
    obtain ⟨_, hBrings⟩ := hSound.untilDecided_poll (finishing_faithful own.id) hOwn hKept hKeptNext
    exact Prod.Lex.left _ _ (hBrings hBefore rfl hGrant)

theorem LeftAlone.exists_fired {more : List Event}
    (hLeft : LeftAlone options project timer events more)
    (hOver : lastArmed options project events + options.quietPeriod ≤
      (Run.after options (events ++ more)).system.now) :
    ∃ tasks, Fired options project timer
      (lastArmed options project events + options.quietPeriod) events (more ++ turnsOf tasks) := by
  cases hLeft.outcome with
  | fired hFired hId hGone =>
      refine ⟨[], ?_⟩
      rw [turnsOf, List.map_nil, List.append_nil]
      exact hFired
  | kept hAll hCalm hArmed =>
      obtain ⟨id, hNearer⟩ :=
        hLeft.exists_nearer (hAll more (List.prefix_refl more)) (hArmed ▸ hOver)
      have hNext := hLeft.poll id
      have hStep : (Run.after options (events ++ (more ++ [.poll id finishing]))).system =
          pollTask options (Run.after options (events ++ more)).system id finishing := by
        rw [← List.append_assoc]
        exact Run.system_after_concat options (events ++ more) _
      cases hNext.outcome with
      | fired hFired hBelow hGone => exact ⟨[id], hFired⟩
      | kept hAllNext hCalmNext hArmedNext =>
          have hKeptNext := hAllNext _ (List.prefix_refl _)
          rw [hStep] at hKeptNext
          have hMeasure := hNearer hKeptNext
          obtain ⟨tasks, hFired⟩ := hNext.exists_fired (by
            rw [hStep, pollTask_now]
            exact hOver)
          refine ⟨id :: tasks, ?_⟩
          rw [List.append_assoc] at hFired
          exact hFired
termination_by (untilDecided timer (Run.after options (events ++ more)).system,
  grantsLeft (Run.after options (events ++ more)).system)
decreasing_by
  rw [hStep]
  exact hMeasure

/-- The law of quiet periods.  A timer that is left alone, and whose lookup does not panic, is
kept up to one quiet period after the time at which it was armed, and no time passes then before
it has fired; and it fires at that very time, once, on the share of its project and on the info
of that moment. -/
theorem quiet_period_law (options : CoordinatorOptions) (events more : List Event)
    (project : String) (timer : Nat)
    (hLeft : LeftAlone options project timer events more) :
    let due := lastArmed options project events + options.quietPeriod
    let run := Run.after options (events ++ more)
    (timer? project run.system = some timer ∧ run.system.now ≤ due ∧
        (run.system.now = due →
          (∀ duration, Resting run.system duration → duration = 0) ∧
            ∃ tasks, Fired options project timer due events (more ++ turnsOf tasks))) ∨
      Fired options project timer due events more := by
  cases hLeft.outcome with
  | fired hFired hId hGone => exact Or.inr hFired
  | kept hAll hCalm hArmed =>
      have hKept := hAll more (List.prefix_refl more)
      obtain ⟨own, hOwn, hId, hStands⟩ := Run.standing options project timer _ hLeft.within
        hLeft.prompt hLeft.answered hKept
      rw [hArmed] at hStands
      refine Or.inl ⟨hKept, hStands.now_le, ?_⟩
      intro hOver
      constructor
      · intro duration hResting
        exact hStands.still hOwn (Run.orderly options _ hLeft.within) hOver hResting
      · exact hLeft.exists_fired (Nat.le_of_eq hOver.symm)

/-- The quiet period that the first of two chunks begins is left to end. -/
def elapsing : List Event :=
  turns 1 1 ++ .pass 1 :: turns 1 3

theorem steady_elapsing : ∀ event ∈ firstChunk ++ elapsing, event.Steady := by
  simp [firstChunk, elapsing, turns, Event.Steady]

theorem leftAlone_elapsing : LeftAlone { quietPeriod := 1 } "a" 1 firstChunk elapsing where
  within := by
    intro event hEvent
    apply (steady_elapsing event hEvent).within
    · intro asked info hFound
      cases hFound
      rfl
    · trivial
  prompt := by decide
  answered := by decide
  kept := by decide
  calm := by decide
  alone := by decide

theorem quiet_period_law_firstChunk :
    let run := Run.after { quietPeriod := 1 } (firstChunk ++ elapsing)
    Fired { quietPeriod := 1 } "a" 1 1 firstChunk elapsing ∧
      run.state.changes "a" = [] ∧ (run.state.builds.state "a").inProgress = true := by
  have hArmed : lastArmed { quietPeriod := 1 } "a" firstChunk = 0 := by decide
  have hLaw := quiet_period_law { quietPeriod := 1 } firstChunk elapsing "a" 1 leftAlone_elapsing
  rw [hArmed] at hLaw
  refine ⟨hLaw.resolve_left ?_, by decide, by decide⟩
  rintro ⟨hKept, _⟩
  revert hKept
  decide

/-- The lookup at the end of the quiet period panics, and more time passes. -/
def lostTimer : List Event :=
  turns 1 1 ++ .pass 1 :: turns 1 1 ++
    [.poll 1 { steady none with lookUp := fun _ => .panicked }, .pass 4]

/-- The timer is kept for ever then, with no task that could end it. -/
theorem kept_after_lostTimer :
    let options : CoordinatorOptions := { quietPeriod := 1 }
    let run := Run.after options (firstChunk ++ lostTimer)
    Run.Always options {} (firstChunk ++ lostTimer) (fun system event => event.Prompt system) ∧
      lastArmed options "a" firstChunk = 0 ∧ run.system.now = 5 ∧
        timer? "a" run.system = some 1 ∧ run.system.tasks = [] := by
  refine ⟨by decide, by decide, by decide, by decide, ?_⟩
  exact List.eq_nil_of_length_eq_zero (by decide)

end Coordinator

end BuildWatch
