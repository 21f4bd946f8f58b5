import BuildWatch.Proofs.Histories
import BuildWatch.Proofs.Tasks.AlarmSteps

/-!
What has become of every alarm that was armed.  The task that is kept for a project
is that of the last alarm armed for it, unless the alarm was cancelled or has gone
off; an alarm goes off once at most, and not before its time.
-/

namespace BuildWatch.Tasks.Alarms

variable {guardNames : Option (List String)} {events later : List Event}
variable {project : String} {alarm : Alarm} {task armed : Nat}

/-! ### What was armed -/

/-- An alarm of a project was armed for a task, and some events came later. -/
def Armed (guardNames : Option (List String)) (events : List Event) (project : String)
    (alarm : Alarm) (task armed : Nat) (later : List Event) : Prop :=
  ∃ before, events = before ++ .arm project alarm :: later ∧
    (after guardNames before).nextId = task ∧ (after guardNames before).now = armed

theorem armed_snoc_arm (guardNames : Option (List String)) (events : List Event)
    (project : String) (alarm : Alarm) :
    Armed guardNames (events ++ [.arm project alarm]) project alarm
      (after guardNames events).nextId (after guardNames events).now [] :=
  ⟨events, rfl, rfl, rfl⟩

theorem Armed.snoc (hArmed : Armed guardNames events project alarm task armed later)
    (event : Event) :
    Armed guardNames (events ++ [event]) project alarm task armed (later ++ [event]) := by
  obtain ⟨before, hEvents, hTask, hTime⟩ := hArmed
  exact ⟨before, by simp [hEvents], hTask, hTime⟩

theorem armed_snoc_cases {event : Event}
    (hArmed : Armed guardNames (events ++ [event]) project alarm task armed later) :
    (later = [] ∧ event = .arm project alarm ∧ (after guardNames events).nextId = task ∧
      (after guardNames events).now = armed) ∨
    ∃ earlier, later = earlier ++ [event] ∧
      Armed guardNames events project alarm task armed earlier := by
  obtain ⟨before, hEvents, hTask, hTime⟩ := hArmed
  rcases split_concat hEvents with ⟨rfl, rfl, hLast⟩ | ⟨earlier, rfl, hEarlier⟩
  · exact Or.inl ⟨rfl, hLast.symm, hTask, hTime⟩
  · exact Or.inr ⟨earlier, rfl, before, hEarlier, hTask, hTime⟩

theorem Armed.task_lt (hArmed : Armed guardNames events project alarm task armed later) :
    task < (after guardNames events).nextId := by
  induction events using List.reverseRecOn generalizing later with
  | nil =>
      obtain ⟨before, hEvents, _⟩ := hArmed
      cases before <;> cases hEvents
  | append_singleton earlier event ih =>
      rw [after_snoc]
      cases armed_snoc_cases hArmed with
      | inl hNow =>
          rw [hNow.2.1, ← hNow.2.2.1]
          exact Nat.lt_succ_self _
      | inr hBefore =>
          obtain ⟨_, _, hBefore⟩ := hBefore
          exact Nat.lt_of_lt_of_le (ih hBefore) (nextId_le_happen _ event)

theorem Armed.time_le (hArmed : Armed guardNames events project alarm task armed later) :
    armed ≤ (after guardNames events).now := by
  induction events using List.reverseRecOn generalizing later with
  | nil =>
      obtain ⟨before, hEvents, _⟩ := hArmed
      cases before <;> cases hEvents
  | append_singleton earlier event ih =>
      rw [after_snoc]
      cases armed_snoc_cases hArmed with
      | inl hNow =>
          rw [← hNow.2.2.2]
          exact now_le_happen _ event
      | inr hBefore =>
          obtain ⟨_, _, hBefore⟩ := hBefore
          exact Nat.le_trans (ih hBefore) (now_le_happen _ event)

/-- Every task is that of one alarm only. -/
theorem Armed.unique {otherProject : String} {otherAlarm : Alarm} {otherTime : Nat}
    {otherLater : List Event}
    (hArmed : Armed guardNames events project alarm task armed later)
    (hOther : Armed guardNames events otherProject otherAlarm task otherTime otherLater) :
    otherProject = project ∧ otherAlarm = alarm ∧ otherTime = armed ∧ otherLater = later := by
  induction events using List.reverseRecOn generalizing later otherLater with
  | nil =>
      obtain ⟨before, hEvents, _⟩ := hArmed
      cases before <;> cases hEvents
  | append_singleton earlier event ih =>
      cases armed_snoc_cases hArmed with
      | inl hNow =>
          cases armed_snoc_cases hOther with
          | inl hAlso =>
              have hEvent := hNow.2.1.symm.trans hAlso.2.1
              cases hEvent
              exact ⟨rfl, rfl, hAlso.2.2.2.symm.trans hNow.2.2.2, hAlso.1.trans hNow.1.symm⟩
          | inr hBefore =>
              obtain ⟨_, _, hBefore⟩ := hBefore
              have hBelow := hBefore.task_lt
              omega
      | inr hBefore =>
          obtain ⟨first, hFirst, hBefore⟩ := hBefore
          cases armed_snoc_cases hOther with
          | inl hAlso =>
              have hBelow := hBefore.task_lt
              omega
          | inr hAlso =>
              obtain ⟨second, hSecond, hAlso⟩ := hAlso
              obtain ⟨hProject, hAlarm, hTime, hSame⟩ := ih hBefore hAlso
              exact ⟨hProject, hAlarm, hTime, by rw [hFirst, hSecond, hSame]⟩

/-- The last alarm that was armed for a project is that of a task, and it was not cancelled. -/
def Standing (guardNames : Option (List String)) (events : List Event) (project : String)
    (task : Nat) : Prop :=
  ∃ alarm armed later, Armed guardNames events project alarm task armed later ∧
    ∀ event ∈ later, ¬ event.Ends project

theorem standing_snoc_iff (guardNames : Option (List String)) (events : List Event)
    (event : Event) (project : String) (task : Nat) :
    Standing guardNames (events ++ [event]) project task ↔
      (∃ alarm, event = .arm project alarm ∧ (after guardNames events).nextId = task) ∨
        (¬ event.Ends project ∧ Standing guardNames events project task) := by
  constructor
  · intro hStanding
    obtain ⟨alarm, armed, later, hArmed, hLater⟩ := hStanding
    cases armed_snoc_cases hArmed with
    | inl hNow => exact Or.inl ⟨alarm, hNow.2.1, hNow.2.2.1⟩
    | inr hBefore =>
        obtain ⟨earlier, hSplit, hBefore⟩ := hBefore
        rw [hSplit] at hLater
        apply Or.inr
        constructor
        · exact hLater event (by simp)
        · refine ⟨alarm, armed, earlier, hBefore, ?_⟩
          exact fun other hOther => hLater other (by simp [hOther])
  · intro hEither
    cases hEither with
    | inl hNow =>
        obtain ⟨alarm, hEvent, hTask⟩ := hNow
        rw [hEvent, ← hTask]
        exact ⟨alarm, _, [], armed_snoc_arm guardNames events project alarm, List.forall_mem_nil _⟩
    | inr hBefore =>
        obtain ⟨hKept, alarm, armed, later, hArmed, hLater⟩ := hBefore
        refine ⟨alarm, armed, later ++ [event], hArmed.snoc event, ?_⟩
        intro other hOther
        cases List.mem_append.mp hOther with
        | inl hEarlier => exact hLater other hEarlier
        | inr hLast =>
            rw [List.mem_singleton.mp hLast]
            exact hKept

/-! ### What holds after any events -/

def firedTasks (history : List AlarmNotice) : List Nat :=
  (firings history).map Prod.fst

/-- What has become of the alarms that were armed. -/
structure Traced (guardNames : Option (List String)) (events : List Event)
    (scheduler : Scheduler) : Prop where
  kept : ∀ project task, scheduler.data.timers.waiting.get? project = some task ↔
    Standing guardNames events project task ∧ task ∉ firedTasks scheduler.data.history
  alive : ∀ project task, scheduler.data.timers.waiting.get? project = some task →
    ∃ waiting ∈ scheduler.tasks, waiting.id = task ∧
      ∃ alarm, waiting.stage.alarm? = some (project, alarm)
  timely : ∀ waiting ∈ scheduler.tasks, ∀ project alarm,
    waiting.stage.alarm? = some (project, alarm) →
      ∃ armed later, Armed guardNames events project alarm waiting.id armed later ∧
        Timely armed scheduler.now waiting.stage waiting.wait
  fired : ∀ task project alarm, (task, project, alarm) ∈ firings scheduler.data.history →
    (∃ armed later, Armed guardNames events project alarm task armed later) ∧
      ∀ other ∈ scheduler.tasks, other.id = task → other.stage.alarm? = none
  once : (firedTasks scheduler.data.history).Nodup

theorem Traced.fired_lt {scheduler : Scheduler} (hTraced : Traced guardNames events scheduler)
    (hFired : task ∈ firedTasks scheduler.data.history) :
    task < (after guardNames events).nextId := by
  obtain ⟨⟨first, project, alarm⟩, hMember, hTask⟩ := List.mem_map.mp hFired
  obtain ⟨⟨armed, later, hArmed⟩, _⟩ := hTraced.fired first project alarm hMember
  exact hTask ▸ hArmed.task_lt

theorem Traced.kept_project {scheduler : Scheduler} (hTidy : Tidy scheduler)
    (hTraced : Traced guardNames events scheduler) {waiting : Task Stage String}
    (hTask : waiting ∈ scheduler.tasks)
    (hAlarm : waiting.stage.alarm? = some (project, alarm)) {other : String}
    (hKept : scheduler.data.timers.waiting.get? other = some waiting.id) : other = project := by
  obtain ⟨same, hSame, hId, which, hWhich⟩ := hTraced.alive other waiting.id hKept
  rw [hTidy.unique hTask hSame hId, hAlarm] at hWhich
  cases hWhich
  rfl

theorem traced_create (guardNames : Option (List String)) :
    Traced guardNames [] (Scheduler.create guardNames) := by
  have hNone (project : String) :
      (Scheduler.create guardNames).data.timers.waiting.get? project = none := rfl
  constructor
  · intro project task
    rw [hNone]
    apply iff_of_false nofun
    intro hBoth
    obtain ⟨⟨alarm, armed, later, ⟨before, hEvents, _⟩, _⟩, _⟩ := hBoth
    cases before <;> cases hEvents
  · intro project task hKept
    rw [hNone] at hKept
    cases hKept
  · intro waiting hTask
    cases hTask
  · intro task project alarm hFired
    cases hFired
  · exact List.nodup_nil

section

variable {before next : Scheduler}

/-- A task with an alarm was there before with the same alarm, and is not too early. -/
def Continues (before next : Scheduler) : Prop :=
  ∀ waiting ∈ next.tasks, ∀ project alarm, waiting.stage.alarm? = some (project, alarm) →
    ∃ old ∈ before.tasks, old.id = waiting.id ∧ old.stage.alarm? = some (project, alarm) ∧
      ∀ armed, armed ≤ before.now → Timely armed before.now old.stage old.wait →
        Timely armed next.now waiting.stage waiting.wait

theorem continues_of_mem (hNow : before.now ≤ next.now)
    (hTasks : ∀ waiting ∈ next.tasks, waiting.stage.alarm?.isSome = true →
      waiting ∈ before.tasks) : Continues before next := by
  intro waiting hWaiting project alarm hAlarm
  have hOld := hTasks waiting hWaiting (by rw [hAlarm]; rfl)
  exact ⟨waiting, hOld, rfl, hAlarm, fun _ _ hTimely => hTimely.later hNow⟩

theorem Traced.timely_snoc (hTraced : Traced guardNames events before)
    (hBefore : before = after guardNames events) (hContinues : Continues before next)
    (event : Event) {waiting : Task Stage String} (hWaiting : waiting ∈ next.tasks)
    (hAlarm : waiting.stage.alarm? = some (project, alarm)) :
    ∃ armed later, Armed guardNames (events ++ [event]) project alarm waiting.id armed later ∧
      Timely armed next.now waiting.stage waiting.wait := by
  obtain ⟨old, hOld, hSame, hOldAlarm, hGoesOn⟩ :=
    hContinues waiting hWaiting project alarm hAlarm
  obtain ⟨armed, later, hArmed, hTimely⟩ := hTraced.timely old hOld project alarm hOldAlarm
  have hEarly := hArmed.time_le
  rw [← hBefore] at hEarly
  rw [hSame] at hArmed
  exact ⟨armed, later ++ [event], hArmed.snoc event, hGoesOn armed hEarly hTimely⟩

theorem Traced.fired_snoc (hTraced : Traced guardNames events before)
    (hContinues : Continues before next) (event : Event)
    (hFired : (task, project, alarm) ∈ firings before.data.history) :
    (∃ armed later, Armed guardNames (events ++ [event]) project alarm task armed later) ∧
      ∀ other ∈ next.tasks, other.id = task → other.stage.alarm? = none := by
  obtain ⟨⟨armed, later, hArmed⟩, hNone⟩ := hTraced.fired task project alarm hFired
  constructor
  · exact ⟨armed, later ++ [event], hArmed.snoc event⟩
  · intro other hOther hId
    cases hAlarm : other.stage.alarm? with
    | none => rfl
    | some which =>
        obtain ⟨old, hOld, hSame, hOldAlarm, _⟩ := hContinues other hOther which.1 which.2 hAlarm
        rw [hNone old hOld (hSame.trans hId)] at hOldAlarm
        cases hOldAlarm

theorem standing_snoc_of_not {event : Event} (hNeither : ∀ project, ¬ event.Ends project)
    (project : String) (task : Nat) :
    Standing guardNames (events ++ [event]) project task ↔
      Standing guardNames events project task := by
  rw [standing_snoc_iff]
  constructor
  · intro hEither
    cases hEither with
    | inl hNow =>
        obtain ⟨alarm, hEvent, _⟩ := hNow
        rw [hEvent] at hNeither
        exact absurd rfl (hNeither project)
    | inr hBefore => exact hBefore.2
  · exact fun hBefore => Or.inr ⟨hNeither project, hBefore⟩

theorem Traced.goOn (hTraced : Traced guardNames events before)
    (hBefore : before = after guardNames events) {event : Event}
    (hNeither : ∀ project, ¬ event.Ends project)
    (hTimers : next.data.timers = before.data.timers)
    (hFirings : firings next.data.history = firings before.data.history)
    (hContinues : Continues before next)
    (hStays : ∀ old ∈ before.tasks, ∀ project alarm,
      old.stage.alarm? = some (project, alarm) →
        before.data.timers.waiting.get? project = some old.id →
          ∃ waiting ∈ next.tasks, waiting.id = old.id ∧
            waiting.stage.alarm? = some (project, alarm)) :
    Traced guardNames (events ++ [event]) next := by
  constructor
  case kept =>
    intro project task
    rw [hTimers, firedTasks, hFirings, standing_snoc_of_not hNeither]
    exact hTraced.kept project task
  case alive =>
    intro project task hKept
    rw [hTimers] at hKept
    obtain ⟨old, hOld, hId, alarm, hAlarm⟩ := hTraced.alive project task hKept
    obtain ⟨waiting, hWaiting, hSame, hLater⟩ := hStays old hOld project alarm hAlarm (hId ▸ hKept)
    exact ⟨waiting, hWaiting, hSame.trans hId, alarm, hLater⟩
  case timely =>
    intro waiting hWaiting project alarm hAlarm
    exact hTraced.timely_snoc hBefore hContinues event hWaiting hAlarm
  case fired =>
    intro task project alarm hFired
    rw [hFirings] at hFired
    exact hTraced.fired_snoc hContinues event hFired
  case once =>
    rw [firedTasks, hFirings]
    exact hTraced.once

theorem Traced.goOff (hTidy : Tidy before) (hTraced : Traced guardNames events before)
    (hBefore : before = after guardNames events) {event : Event}
    (hNeither : ∀ project, ¬ event.Ends project) (hNow : before.now ≤ next.now)
    {waiting : Task Stage String} (hTask : waiting ∈ before.tasks)
    (hStage : waiting.stage = .guarded project alarm)
    (hKept : before.data.timers.waiting.get? project = some waiting.id)
    (hTimers : next.data.timers = before.data.timers.cancel project)
    (hHistory : next.data.history = before.data.history ++ [.fired waiting.id project alarm])
    (hTasks : ∀ other, other.id ≠ waiting.id → (other ∈ next.tasks ↔ other ∈ before.tasks))
    (hOwn : ∀ other ∈ next.tasks, other.id = waiting.id → other.stage.alarm? = none) :
    Traced guardNames (events ++ [event]) next := by
  have hFirings : firings next.data.history =
      firings before.data.history ++ [(waiting.id, project, alarm)] := by
    rw [hHistory, firings_append]
    rfl
  have hFiredTasks : firedTasks next.data.history =
      firedTasks before.data.history ++ [waiting.id] := by
    rw [firedTasks, hFirings, List.map_append]
    rfl
  have hAlarm : waiting.stage.alarm? = some (project, alarm) := by
    rw [hStage]
    rfl
  have hNotYet := ((hTraced.kept project waiting.id).mp hKept).2
  have hContinues : Continues before next := by
    apply continues_of_mem hNow
    intro other hOther hSome
    by_cases hSame : other.id = waiting.id
    · rw [hOwn other hOther hSame] at hSome
      cases hSome
    · exact (hTasks other hSame).mp hOther
  constructor
  case kept =>
    intro asked task
    rw [hTimers, Timers.get?_cancel, hFiredTasks, standing_snoc_of_not hNeither, List.mem_append,
      not_or, ← and_assoc, ← hTraced.kept]
    split
    · rename_i hSame
      rw [hSame]
      apply iff_of_false nofun
      intro hBoth
      rw [hKept] at hBoth
      exact hBoth.2 (by simp [Option.some.inj hBoth.1])
    · rename_i hOther
      apply (and_iff_left_of_imp _).symm
      intro hAlso hSelf
      rw [List.mem_singleton.mp hSelf] at hAlso
      exact hOther (hTraced.kept_project hTidy hTask hAlarm hAlso)
  case alive =>
    intro asked task hAsked
    rw [hTimers, Timers.get?_cancel] at hAsked
    split at hAsked
    · cases hAsked
    · rename_i hOther
      obtain ⟨old, hOld, hId, which, hWhich⟩ := hTraced.alive asked task hAsked
      refine ⟨old, (hTasks old ?_).mpr hOld, hId, which, hWhich⟩
      intro hSame
      rw [← hId, hSame] at hAsked
      exact hOther (hTraced.kept_project hTidy hTask hAlarm hAsked)
  case timely =>
    intro other hOther asked which hWhich
    exact hTraced.timely_snoc hBefore hContinues event hOther hWhich
  case fired =>
    intro task asked which hFired
    rw [hFirings] at hFired
    cases List.mem_append.mp hFired with
    | inl hEarlier => exact hTraced.fired_snoc hContinues event hEarlier
    | inr hLast =>
        cases List.mem_singleton.mp hLast
        obtain ⟨armed, later, hArmed, _⟩ := hTraced.timely waiting hTask project alarm hAlarm
        exact ⟨⟨armed, later ++ [event], hArmed.snoc event⟩, hOwn⟩
  case once =>
    rw [hFiredTasks]
    apply List.Nodup.append hTraced.once (List.nodup_singleton _)
    rw [List.disjoint_singleton]
    exact hNotYet

theorem Traced.arm (hTraced : Traced guardNames events before)
    (hBefore : before = after guardNames events) (project : String) (alarm : Alarm) :
    Traced guardNames (events ++ [.arm project alarm]) (happen before (.arm project alarm)) := by
  have hTasks (waiting : Task Stage String)
      (hWaiting : waiting ∈ (happen before (.arm project alarm)).tasks) :
      waiting ∈ before.tasks ∨
        waiting.id = before.nextId ∧ waiting.stage = .armed project alarm := by
    cases List.mem_append.mp hWaiting with
    | inl hOld => exact Or.inl hOld
    | inr hNew =>
        rw [List.mem_singleton.mp hNew]
        exact Or.inr ⟨rfl, rfl⟩
  have hArmed : Armed guardNames (events ++ [.arm project alarm]) project alarm before.nextId
      before.now [] := by
    rw [hBefore]
    exact armed_snoc_arm guardNames events project alarm
  have hNew : before.nextId ∉ firedTasks before.data.history := by
    intro hFired
    have hBelow := hTraced.fired_lt hFired
    rw [← hBefore] at hBelow
    exact Nat.lt_irrefl _ hBelow
  constructor
  case kept =>
    intro asked task
    change (before.data.timers.arm project before.nextId).waiting.get? asked = some task ↔
      _ ∧ task ∉ firedTasks before.data.history
    rw [Timers.get?_arm, standing_snoc_iff, ← hBefore]
    split
    · rename_i hSame
      subst hSame
      constructor
      · intro hTask
        cases hTask
        exact ⟨Or.inl ⟨alarm, rfl, rfl⟩, hNew⟩
      · intro hBoth
        cases hBoth.1 with
        | inl hNow =>
            obtain ⟨_, _, hTask⟩ := hNow
            rw [hTask]
        | inr hOld => exact absurd rfl hOld.1
    · rename_i hOther
      rw [hTraced.kept]
      constructor
      · intro hBoth
        exact ⟨Or.inr ⟨fun hSame => hOther hSame.symm, hBoth.1⟩, hBoth.2⟩
      · intro hBoth
        cases hBoth.1 with
        | inl hNow =>
            obtain ⟨_, hEvent, _⟩ := hNow
            cases hEvent
            exact absurd rfl hOther
        | inr hOld => exact ⟨hOld.2, hBoth.2⟩
  case alive =>
    intro asked task hAsked
    change (before.data.timers.arm project before.nextId).waiting.get? asked = some task at hAsked
    rw [Timers.get?_arm] at hAsked
    split at hAsked
    · rename_i hSame
      cases hAsked
      exact ⟨_, List.mem_append_right _ List.mem_cons_self, rfl, alarm, by rw [hSame]; rfl⟩
    · obtain ⟨old, hOld, hRest⟩ := hTraced.alive asked task hAsked
      exact ⟨old, List.mem_append_left _ hOld, hRest⟩
  case timely =>
    intro waiting hWaiting asked which hWhich
    cases hTasks waiting hWaiting with
    | inl hOld =>
        obtain ⟨armed, later, hEarlier, hTimely⟩ := hTraced.timely waiting hOld asked which hWhich
        exact ⟨armed, _, hEarlier.snoc _, hTimely⟩
    | inr hLast =>
        rw [hLast.2] at hWhich
        cases hWhich
        rw [hLast.1, hLast.2]
        exact ⟨before.now, [], hArmed, trivial⟩
  case fired =>
    intro task asked which hFired
    obtain ⟨⟨armed, later, hEarlier⟩, hNone⟩ := hTraced.fired task asked which hFired
    constructor
    · exact ⟨armed, _, hEarlier.snoc _⟩
    · intro other hOther hId
      cases hTasks other hOther with
      | inl hOld => exact hNone other hOld hId
      | inr hLast =>
          have hBelow := hEarlier.task_lt
          rw [← hBefore, ← hId, hLast.1] at hBelow
          exact absurd hBelow (Nat.lt_irrefl _)
  case once => exact hTraced.once

theorem Traced.cancel (hTraced : Traced guardNames events before) {event : Event}
    (hNot : ∀ project alarm, event ≠ .arm project alarm)
    (hTimers : ∀ project, next.data.timers.waiting.get? project =
      if event.Ends project then none else before.data.timers.waiting.get? project)
    (hHistory : next.data.history = before.data.history) (hNow : next.now = before.now)
    (hTasks : next.tasks = before.tasks) : Traced guardNames (events ++ [event]) next := by
  constructor
  case kept =>
    intro project task
    rw [hTimers, hHistory, standing_snoc_iff]
    have hNotNow : ¬ ∃ alarm, event = .arm project alarm ∧
        (after guardNames events).nextId = task := by
      intro hNow
      obtain ⟨alarm, hEvent, _⟩ := hNow
      exact hNot project alarm hEvent
    split
    · rename_i hEnds
      apply iff_of_false nofun
      intro hBoth
      cases hBoth.1 with
      | inl hArm => exact hNotNow hArm
      | inr hOld => exact hOld.1 hEnds
    · rename_i hKept
      rw [hTraced.kept, or_iff_right hNotNow, and_iff_right hKept]
  case alive =>
    intro project task hKept
    rw [hTimers] at hKept
    split at hKept
    · cases hKept
    · rw [hTasks]
      exact hTraced.alive project task hKept
  case timely =>
    intro waiting hWaiting project alarm hAlarm
    rw [hTasks] at hWaiting
    obtain ⟨armed, later, hArmed, hTimely⟩ := hTraced.timely waiting hWaiting project alarm hAlarm
    rw [hNow]
    exact ⟨armed, _, hArmed.snoc event, hTimely⟩
  case fired =>
    intro task project alarm hFired
    rw [hHistory] at hFired
    obtain ⟨⟨armed, later, hArmed⟩, hNone⟩ := hTraced.fired task project alarm hFired
    rw [hTasks]
    exact ⟨⟨armed, _, hArmed.snoc event⟩, hNone⟩
  case once =>
    rw [hHistory]
    exact hTraced.once

end

theorem Traced.step {before : Scheduler} (hTidy : Tidy before)
    (hTraced : Traced guardNames events before) (hBefore : before = after guardNames events)
    {event : Event} (hNeither : ∀ project, ¬ event.Ends project) :
    Traced guardNames (events ++ [event]) (happen before event) := by
  have hNow := now_le_happen before event
  cases step_happen hTidy event hNeither with
  | quiet hTimers hFirings hTasks =>
      apply hTraced.goOn hBefore hNeither hTimers hFirings
      · exact continues_of_mem hNow fun waiting hWaiting hSome =>
          (hTasks waiting hSome).mp hWaiting
      · intro old hOld project alarm hAlarm _
        exact ⟨old, (hTasks old (by rw [hAlarm]; rfl)).mpr hOld, rfl, hAlarm⟩
  | gone waiting project alarm hTask hAlarm hNot hTimers hFirings hTasks =>
      apply hTraced.goOn hBefore hNeither hTimers hFirings
      · exact continues_of_mem hNow fun other hOther _ => ((hTasks other).mp hOther).1
      · intro old hOld asked which hWhich hKept
        refine ⟨old, (hTasks old).mpr ⟨hOld, ?_⟩, rfl, hWhich⟩
        intro hSame
        rw [hSame] at hKept
        rw [hTraced.kept_project hTidy hTask hAlarm hKept] at hKept
        exact hNot hKept
  | moved waiting stays project alarm hTask hAlarm hSame hLater hTimely hTimers hFirings hThere
      hTasks hOwn =>
      apply hTraced.goOn hBefore hNeither hTimers hFirings
      · intro other hOther asked which hWhich
        by_cases hSelf : other.id = waiting.id
        · obtain ⟨hStage, hWait⟩ := hOwn other hOther hSelf
          rw [hStage, hLater] at hWhich
          cases hWhich
          refine ⟨waiting, hTask, hSelf.symm, hAlarm, ?_⟩
          intro armed hArmed hEarly
          rw [hStage, hWait]
          exact (hTimely armed hArmed hEarly).later hNow
        · exact ⟨other, (hTasks other hSelf).mp hOther, rfl, hWhich,
            fun _ _ hEarly => hEarly.later hNow⟩
      · intro old hOld asked which hWhich _
        by_cases hSelf : old.id = waiting.id
        · rw [hTidy.unique hTask hOld hSelf, hAlarm] at hWhich
          cases hWhich
          exact ⟨stays, hThere, hSame.trans hSelf.symm, hLater⟩
        · exact ⟨old, (hTasks old hSelf).mpr hOld, rfl, hWhich⟩
  | fired waiting project alarm hTask hStage hKept hTimers hHistory hTasks hOwn =>
      exact hTraced.goOff hTidy hBefore hNeither hNow hTask hStage hKept hTimers hHistory hTasks
        hOwn

theorem traced_after (guardNames : Option (List String)) (events : List Event) :
    Traced guardNames events (after guardNames events) := by
  induction events using List.reverseRecOn with
  | nil => exact traced_create guardNames
  | append_singleton earlier event ih =>
      have hTidy := tidy_after guardNames earlier
      rw [after_snoc]
      cases event with
      | arm project alarm => exact ih.arm rfl project alarm
      | cancel project =>
          apply ih.cancel fun _ _ hSame => by cases hSame
          · intro asked
            apply (Timers.get?_cancel _ project asked).trans
            simp [Event.Ends, eq_comm]
          · rfl
          · rfl
          · rfl
      | cancelAll =>
          apply ih.cancel fun _ _ hSame => by cases hSame
          · intro asked
            rfl
          · rfl
          · rfl
          · rfl
      | drop task => exact ih.step hTidy rfl fun _ => id
      | hold holder names => exact ih.step hTidy rfl fun _ => id
      | abort holder task => exact ih.step hTidy rfl fun _ => id
      | pass duration => exact ih.step hTidy rfl fun _ => id
      | reorder ready => exact ih.step hTidy rfl fun _ => id
      | poll task leave? => exact ih.step hTidy rfl fun _ => id

end BuildWatch.Tasks.Alarms
