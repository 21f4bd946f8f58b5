import BuildWatch.Proofs.Tasks.AlarmExecution

/-!
The law of alarms.  It is told of every run, and the operations of a scheduler are runs:
who arms or cancels an alarm drops the task of the one before, and time passes with the
tasks taking turns in one order.
-/

namespace BuildWatch.Tasks.Alarms

variable {guardNames : Option (List String)} {events : List Event}
variable {project : String} {task : Nat}

theorem Armed.standing_iff {alarm : Alarm} {armed : Nat} {later : List Event}
    (hArmed : Armed guardNames events project alarm task armed later) :
    Standing guardNames events project task ↔ ∀ event ∈ later, ¬ event.Ends project := by
  constructor
  · intro hStanding
    obtain ⟨other, time, rest, hOther, hRest⟩ := hStanding
    rw [(hArmed.unique hOther).2.2.2] at hRest
    exact hRest
  · exact fun hLater => ⟨alarm, armed, later, hArmed, hLater⟩

/-- An alarm goes off when its task claims it, provided that it was not replaced or cancelled
since it was armed. -/
theorem Armed.fires_iff {alarm : Alarm} {armed : Nat} {later : List Event}
    (hArmed : Armed guardNames events project alarm task armed later) (event : Event) :
    task ∈ firedTasks (after guardNames (events ++ [event])).data.history ↔
      task ∈ firedTasks (after guardNames events).data.history ∨
        event.claims? (after guardNames events) = some (task, project, alarm) ∧
          ∀ other ∈ later, ¬ other.Ends project := by
  rw [← hArmed.standing_iff, after_snoc, firedTasks,
    firings_happen (tidy_after guardNames events), List.map_append, List.mem_append]
  apply or_congr Iff.rfl
  constructor
  · intro hMember
    obtain ⟨⟨owner, named, which⟩, hClaim, hOwner⟩ := List.mem_map.mp hMember
    obtain ⟨hClaims, hKept⟩ := Option.filter_eq_some_iff.mp (Option.mem_toList.mp hClaim)
    have hStanding := (isKept_iff_standing hClaims).mp hKept
    obtain ⟨⟨time, rest, hSame, _⟩, _⟩ := claimed_in_time hClaims
    cases hOwner
    obtain ⟨hProject, hAlarm, _, _⟩ := hArmed.unique hSame
    subst hProject
    subst hAlarm
    exact ⟨hClaims, hStanding⟩
  · intro hBoth
    obtain ⟨hClaims, hStanding⟩ := hBoth
    apply List.mem_map.mpr
    refine ⟨(task, project, alarm), ?_, rfl⟩
    apply Option.mem_toList.mpr
    exact Option.filter_eq_some_iff.mpr ⟨hClaims, (isKept_iff_standing hClaims).mpr hStanding⟩

theorem isPending_iff (guardNames : Option (List String)) (events : List Event)
    (project : String) :
    (after guardNames events).data.timers.isPending project = true ↔
      ∃ task, Standing guardNames events project task ∧
        task ∉ firedTasks (after guardNames events).data.history := by
  unfold Timers.isPending Table.contains
  rw [Option.isSome_iff_exists]
  exact exists_congr fun task => (traced_after guardNames events).kept project task

/-- No alarm goes off that was replaced or cancelled.  After any events an alarm has gone off
at most once.  Those that have were armed; an alarm that was armed goes off when its task
claims it and neither a later alarm of the project nor a cancellation came in between, and at
no other moment.  A task claims its alarm no sooner than the delay and the preparation are
over, and has all the guard locks then; unless it is superseded it does so by its fourth turn,
and can always come so far.  An alarm is pending from the moment it is armed until it is
claimed, replaced or cancelled, and who cancels it is told so.  To arm or to cancel an alarm
leaves those of the other projects alone.  An alarm that is going off has the guard locks and
is not interrupted.

What is done to alarms are such events: to arm or to cancel is the event that says so, and
then to drop the tasks that are in the way, so that they are gone.  To settle, and to let time
pass, is to have tasks take turns until none is ready; the clock shows the time it was told to,
and no task sleeps past its own. -/
theorem alarms_never_stale (guardNames : Option (List String)) (events : List Event) :
    (firedTasks (after guardNames events).data.history).Nodup ∧
    (∀ task project alarm,
      (task, project, alarm) ∈ firings (after guardNames events).data.history →
        ∃ armed later, Armed guardNames events project alarm task armed later) ∧
    (∀ project alarm task armed later,
      Armed guardNames events project alarm task armed later →
        (∀ event, task ∈ firedTasks (after guardNames (events ++ [event])).data.history ↔
          task ∈ firedTasks (after guardNames events).data.history ∨
            event.claims? (after guardNames events) = some (task, project, alarm) ∧
              ∀ other ∈ later, ¬ other.Ends project) ∧
        (∀ event : Event,
          event.claims? (after guardNames events) = some (task, project, alarm) →
          armed + alarm.delay + alarm.prepare.getD 0 ≤ (after guardNames events).now ∧
            Guarded guardNames ((after guardNames events).locks.settle task) task) ∧
        ((∀ other ∈ later, ¬ other.Ends project) →
          (∀ more, (∀ event ∈ more, ¬ event.Ends project) →
            4 ≤ turnsTaken task (after guardNames events) more →
              task ∈ firedTasks (after guardNames (events ++ more)).data.history) ∧
          ∃ more, (∀ event ∈ more, event.Onward) ∧
            task ∈ firedTasks (after guardNames (events ++ more)).data.history)) ∧
    (∀ project, (after guardNames events).data.timers.isPending project = true ↔
      ∃ alarm task armed later, Armed guardNames events project alarm task armed later ∧
        (∀ other ∈ later, ¬ other.Ends project) ∧
          task ∉ firedTasks (after guardNames events).data.history) ∧
    (∀ project, ((after guardNames events).cancel project).2 =
      (after guardNames events).data.timers.isPending project) ∧
    (∀ project alarm,
      Spares project (after guardNames events) ((after guardNames events).arm project alarm) ∧
        Spares project (after guardNames events) ((after guardNames events).cancel project).1) ∧
    (∀ waiting ∈ (after guardNames events).tasks, ∀ project alarm,
      waiting.stage = .worked project alarm →
        Guarded guardNames (after guardNames events).locks waiting.id ∧
          ∀ event, (∀ leave?, event ≠ .poll waiting.id leave?) →
            waiting ∈ (after guardNames (events ++ [event])).tasks) ∧
    (∀ project alarm,
      (after guardNames events).arm project alarm =
        after guardNames (events ++ .arm project alarm ::
          ((after guardNames events).data.timers.stale project).map .drop) ∧
      ((after guardNames events).cancel project).1 =
        after guardNames (events ++ .cancel project ::
          ((after guardNames events).data.timers.stale project).map .drop)) ∧
    (after guardNames events).cancelAll =
      after guardNames (events ++ .cancelAll ::
        (after guardNames events).data.timers.all.map .drop) ∧
    (∀ project task, (after guardNames events).data.timers.waiting.get? project = some task →
      (∀ alarm, ∀ waiting ∈ ((after guardNames events).arm project alarm).tasks,
        waiting.id ≠ task) ∧
      (∀ waiting ∈ ((after guardNames events).cancel project).1.tasks, waiting.id ≠ task) ∧
        ∀ waiting ∈ (after guardNames events).cancelAll.tasks, waiting.id ≠ task) ∧
    (∀ leave? : String → Id (Option Leave),
      (∃ turns : List Event, (∀ event ∈ turns, event.Unasked) ∧
        after guardNames (events ++ turns) =
          Id.run ((after guardNames events).wakeAskers.settle program leave?) ∧
        (after guardNames (events ++ turns)).ready = [] ∧
          (after guardNames (events ++ turns)).now = (after guardNames events).now) ∧
      ∀ duration, ∃ turns : List Event, (∀ event ∈ turns, event.Unasked) ∧
        after guardNames (events ++ turns) =
          Id.run (System.advance program leave? duration (after guardNames events)) ∧
        (after guardNames (events ++ turns)).now = (after guardNames events).now + duration ∧
          (∀ waiting ∈ (after guardNames (events ++ turns)).tasks, ∀ due,
            waiting.wait = .clock due → (after guardNames (events ++ turns)).now < due) ∧
          ((after guardNames events).ready = [] →
            (after guardNames (events ++ turns)).ready = [])) := by
  have hTraced := traced_after guardNames events
  apply And.intro hTraced.once
  apply And.intro
  · intro task project alarm hFired
    exact (hTraced.fired task project alarm hFired).1
  apply And.intro
  · intro project alarm task armed later hArmed
    apply And.intro hArmed.fires_iff
    apply And.intro
    · intro event hClaims
      obtain ⟨⟨time, rest, hSame, hTime⟩, hGuarded⟩ := claimed_in_time hClaims
      rw [(hArmed.unique hSame).2.2.1] at hTime
      exact ⟨hTime, hGuarded⟩
    · intro hLater
      have hStanding := hArmed.standing_iff.mpr hLater
      constructor
      · intro more hMore hTurns
        exact fires_by_fourth_turn hStanding hMore hTurns
      · exact exists_firing hStanding
  apply And.intro
  · intro project
    rw [isPending_iff]
    constructor
    · intro hSome
      obtain ⟨task, ⟨alarm, armed, later, hArmed, hLater⟩, hNotYet⟩ := hSome
      exact ⟨alarm, task, armed, later, hArmed, hLater, hNotYet⟩
    · intro hSome
      obtain ⟨alarm, task, armed, later, hArmed, hLater, hNotYet⟩ := hSome
      exact ⟨task, hArmed.standing_iff.mpr hLater, hNotYet⟩
  apply And.intro
  · intro project
    unfold Scheduler.cancel Timers.isPending Table.contains
    cases (after guardNames events).data.timers.waiting.get? project <;> rfl
  apply And.intro
  · intro project alarm
    exact ⟨spares_arm guardNames events project alarm, spares_cancel guardNames events project⟩
  apply And.intro
  · intro waiting hWaiting project alarm hStage
    exact worked_undisturbed hWaiting hStage
  apply And.intro
  · intro project alarm
    exact ⟨arm_eq_after guardNames events project alarm, cancel_eq_after guardNames events project⟩
  apply And.intro (cancelAll_eq_after guardNames events)
  apply And.intro
  · intro project task hKept
    exact ⟨arm_gone hKept, cancel_gone hKept, cancelAll_gone hKept⟩
  · intro leave?
    exact ⟨exists_turns_settle leave? guardNames events,
      exists_turns_advance leave? guardNames events⟩

/-- A second alarm replaces the first while that waits for a lock that someone else has. -/
example :
    let alarm : Alarm := { label := "a", delay := 2 }
    let scheduler := after (some ["timer"]) [.arm "p" alarm, .poll 0 fun _ => none,
      .hold "h" ["timer"], .poll 1 fun _ => none, .poll 1 fun _ => none, .pass 2,
      .poll 0 fun _ => none, .arm "p" alarm, .poll 1 fun _ => some .release,
      .poll 0 fun _ => none, .poll 2 fun _ => none, .pass 2, .poll 2 fun _ => none,
      .poll 2 fun _ => none]
    scheduler.data.history = [.fired 2 "p" alarm] ∧ scheduler.now = 4 := by
  decide +kernel

end BuildWatch.Tasks.Alarms
