import BuildWatch.Proofs.Tasks.AlarmRuns

/-!
What one event does to alarms.  A task with an alarm waits for the delay, prepares,
takes the guard locks and goes off if it is still kept; it is gone if it is not.
-/

namespace BuildWatch.Tasks.Alarms

/-! ### Going off -/

def AlarmNotice.firing? : AlarmNotice → Option (Nat × String × Alarm)
  | .fired task project alarm => some (task, project, alarm)
  | _ => none

/-- The alarms that went off, each with its task and its project. -/
def firings (history : List AlarmNotice) : List (Nat × String × Alarm) :=
  history.filterMap AlarmNotice.firing?

theorem firings_append (history more : List AlarmNotice) :
    firings (history ++ more) = firings history ++ firings more :=
  List.filterMap_append

/-- How early a task with an alarm goes on, if the alarm was armed at a time. -/
def Timely (armed now : Nat) : Stage → Wait String → Prop
  | .elapsed _ alarm, .clock due => armed + alarm.delay ≤ due
  | .prepared _ alarm, .clock due => armed + alarm.delay + alarm.prepare.getD 0 ≤ due
  | .guarded _ alarm, _ => armed + alarm.delay + alarm.prepare.getD 0 ≤ now
  | _, _ => True

theorem Timely.later {armed now later : Nat} {stage : Stage} {wait : Wait String}
    (hTimely : Timely armed now stage wait) (hLater : now ≤ later) :
    Timely armed later stage wait := by
  cases stage with
  | guarded project alarm => exact Nat.le_trans hTimely hLater
  | elapsed project alarm =>
      cases wait with
      | clock due => exact hTimely
      | _ => trivial
  | prepared project alarm =>
      cases wait with
      | clock due => exact hTimely
      | _ => trivial
  | _ => trivial

/-! ### Turns -/

section

variable {self fresh now : Nat} {stage : Stage} {answer? : Option Leave} {shared data : Shared}
variable {next : Next Stage String} {project : String} {alarm : Alarm}

/-- A task without an alarm that has yet to go off leaves alarms alone. -/
theorem resume_without (hAlarm : stage.alarm? = none)
    (hTurn : resume self fresh stage answer? shared = { data := data, next := next }) :
    data.timers = shared.timers ∧ firings data.history = firings shared.history ∧
      ∀ later, next.stage? = some later → later.alarm? = none := by
  cases stage with
  | claim holder names =>
      cases hTurn
      exact ⟨rfl, rfl, by simp [Next.stage?, Stage.alarm?]⟩
  | inside holder =>
      cases hTurn
      exact ⟨rfl, rfl, by simp [Next.stage?, Stage.alarm?]⟩
  | leave holder =>
      cases hTurn
      exact ⟨rfl, rfl, nofun⟩
  | worked project alarm =>
      cases hTurn
      exact ⟨rfl, by simp [Shared.note, firings, AlarmNotice.firing?], nofun⟩
  | _ => cases hAlarm

/-- A task goes on with its alarm until it has the guard locks, and not too early. -/
theorem resume_waiting (hAlarm : stage.alarm? = some (project, alarm))
    (hNot : stage ≠ .guarded project alarm) {wait : Wait String} {names : List String}
    {claim? : Option Claim} (hFits : stage.Fits names claim? wait)
    (hDue : ∀ due, wait = .clock due → due ≤ now)
    (hTurn : resume self fresh stage answer? shared = { data := data, next := next }) :
    data.timers = shared.timers ∧ firings data.history = firings shared.history ∧
      ∃ later, next.stage? = some later ∧ later.alarm? = some (project, alarm) ∧
        ∀ armed, armed ≤ now → Timely armed now stage wait →
          Timely armed now later (next.wait now) := by
  cases stage with
  | armed named which =>
      cases hTurn
      cases hAlarm
      refine ⟨rfl, rfl, _, rfl, rfl, ?_⟩
      intro armed hArmed _
      exact Nat.add_le_add_right hArmed _
  | elapsed named which =>
      cases hAlarm
      obtain ⟨due, hWait⟩ := hFits.1
      subst hWait
      have hElapsed := hDue due rfl
      simp only [resume, beginPreparing, takeGuard] at hTurn
      split at hTurn
      · rename_i hNone
        cases hTurn
        refine ⟨rfl, rfl, _, rfl, rfl, ?_⟩
        intro armed _ hTimely
        simp only [Timely] at hTimely
        simp only [Timely, hNone, Option.getD_none]
        omega
      · rename_i duration hSome
        cases hTurn
        refine ⟨rfl, by simp [Shared.note, firings, AlarmNotice.firing?], _, rfl,
          rfl, ?_⟩
        intro armed _ hTimely
        simp only [Timely] at hTimely
        simp only [Next.wait, Timely, hSome, Option.getD_some]
        omega
  | prepared named which =>
      cases hAlarm
      cases hTurn
      obtain ⟨due, hWait⟩ := hFits.1
      subst hWait
      have hElapsed := hDue due rfl
      refine ⟨rfl, by simp [Shared.note, firings, AlarmNotice.firing?], _, rfl,
        rfl, ?_⟩
      intro armed _ hTimely
      exact Nat.le_trans hTimely hElapsed
  | guarded named which =>
      cases hAlarm
      exact absurd rfl hNot
  | _ => cases hAlarm

/-- A task that has the guard locks goes off if it is kept, and is no longer kept then. -/
theorem resume_kept (hKept : shared.timers.waiting.get? project = some self)
    (hTurn : resume self fresh (.guarded project alarm) answer? shared =
      { data := data, next := next }) :
    data.timers = shared.timers.cancel project ∧
      data.history = shared.history ++ [.fired self project alarm] ∧
        ∀ later, next.stage? = some later → later = .worked project alarm := by
  have hClaim := (shared.timers.claim?_eq_some_iff _ project self).mpr ⟨hKept, rfl⟩
  simp only [resume, fire, hClaim] at hTurn
  split at hTurn
  · cases hTurn
    refine ⟨rfl, rfl, ?_⟩
    intro later hLater
    cases hLater
  · cases hTurn
    refine ⟨rfl, rfl, ?_⟩
    intro later hLater
    cases hLater
    rfl

theorem resume_skipped (hNot : shared.timers.waiting.get? project ≠ some self)
    (hTurn : resume self fresh (.guarded project alarm) answer? shared =
      { data := data, next := next }) : data = shared ∧ next = .finish := by
  have hClaim : shared.timers.claim? project self = none := by
    unfold Timers.claim?
    rw [if_neg hNot]
  simp only [resume, fire, hClaim] at hTurn
  cases hTurn
  exact ⟨rfl, rfl⟩

end

/-! ### Events -/

/-- What an event that neither arms nor cancels does to alarms. -/
inductive Step (before next : Scheduler) : Prop where
  | quiet
      (hTimers : next.data.timers = before.data.timers)
      (hFirings : firings next.data.history = firings before.data.history)
      (hTasks : ∀ task, task.stage.alarm?.isSome = true →
        (task ∈ next.tasks ↔ task ∈ before.tasks))
  /-- A task is gone whose alarm is not kept. -/
  | gone (task : Task Stage String) (project : String) (alarm : Alarm)
      (hTask : task ∈ before.tasks) (hAlarm : task.stage.alarm? = some (project, alarm))
      (hNot : before.data.timers.waiting.get? project ≠ some task.id)
      (hTimers : next.data.timers = before.data.timers)
      (hFirings : firings next.data.history = firings before.data.history)
      (hTasks : ∀ other, other ∈ next.tasks ↔ other ∈ before.tasks ∧ other.id ≠ task.id)
  /-- A task goes on with its alarm. -/
  | moved (task later : Task Stage String) (project : String) (alarm : Alarm)
      (hTask : task ∈ before.tasks) (hAlarm : task.stage.alarm? = some (project, alarm))
      (hSame : later.id = task.id) (hLater : later.stage.alarm? = some (project, alarm))
      (hTimely : ∀ armed, armed ≤ before.now → Timely armed before.now task.stage task.wait →
        Timely armed before.now later.stage later.wait)
      (hTimers : next.data.timers = before.data.timers)
      (hFirings : firings next.data.history = firings before.data.history)
      (hThere : later ∈ next.tasks)
      (hTasks : ∀ other, other.id ≠ task.id → (other ∈ next.tasks ↔ other ∈ before.tasks))
      (hOwn : ∀ other ∈ next.tasks, other.id = task.id →
        other.stage = later.stage ∧ other.wait = later.wait)
  /-- The alarm of a task goes off. -/
  | fired (task : Task Stage String) (project : String) (alarm : Alarm)
      (hTask : task ∈ before.tasks) (hStage : task.stage = .guarded project alarm)
      (hKept : before.data.timers.waiting.get? project = some task.id)
      (hTimers : next.data.timers = before.data.timers.cancel project)
      (hHistory : next.data.history =
        before.data.history ++ [.fired task.id project alarm])
      (hTasks : ∀ other, other.id ≠ task.id → (other ∈ next.tasks ↔ other ∈ before.tasks))
      (hOwn : ∀ other ∈ next.tasks, other.id = task.id → other.stage.alarm? = none)

variable {scheduler : Scheduler}

theorem due_of_grant {leave? : String → Option Leave} {task : Task Stage String}
    {answer? : Option Leave} (hGrant : scheduler.grant? leave? task = some answer?) {due : Nat}
    (hWait : task.wait = .clock due) : due ≤ scheduler.now := by
  unfold System.grant? at hGrant
  rw [hWait] at hGrant
  dsimp only at hGrant
  split at hGrant
  · assumption
  · cases hGrant

theorem mem_applyTurn_iff_of_ne {task other : Task Stage String} {data : Shared}
    {next : Next Stage String} (hOther : other.id ≠ task.id) :
    other ∈ (scheduler.applyTurn task.id { data := data, next := next }).tasks ↔
      other ∈ scheduler.tasks := by
  constructor
  · intro hLater
    cases mem_tasks_after hLater with
    | inl hOld => exact hOld.1
    | inr hSelf => exact absurd hSelf.1 hOther
  · intro hOld
    exact System.mem_applyTurn_of_kept hOld hOther List.not_mem_nil

theorem step_turn (hTidy : Tidy scheduler) {task : Task Stage String}
    (hTask : task ∈ scheduler.tasks) {answer? : Option Leave}
    (hDue : ∀ due, task.wait = .clock due → due ≤ scheduler.now) {fresh : Nat} :
    Step scheduler (scheduler.applyTurn task.id
      (resume task.id fresh task.stage answer? scheduler.data)) := by
  obtain ⟨data, next, hTurn, _⟩ :=
    resume_plain task.id fresh task.stage answer? scheduler.data
  rw [hTurn]
  have hData : (scheduler.applyTurn task.id { data := data, next := next }).data = data :=
    System.applyTurn_data _ _ _
  cases hAlarm : task.stage.alarm? with
  | none =>
      obtain ⟨hTimers, hFirings, hLater⟩ := resume_without hAlarm hTurn
      apply Step.quiet
      · rw [hData, hTimers]
      · rw [hData, hFirings]
      · intro other hOther
        by_cases hSame : other.id = task.id
        · constructor
          · intro hNew
            cases mem_tasks_after hNew with
            | inl hOld => exact absurd hSame hOld.2
            | inr hSelf =>
                rw [hLater other.stage hSelf.2.1] at hOther
                cases hOther
          · intro hOld
            rw [hTidy.unique hTask hOld hSame, hAlarm] at hOther
            cases hOther
        · exact mem_applyTurn_iff_of_ne hSame
  | some which =>
      obtain ⟨project, alarm⟩ := which
      by_cases hGuarded : task.stage = .guarded project alarm
      · rw [hGuarded] at hTurn
        by_cases hKept : scheduler.data.timers.waiting.get? project = some task.id
        · obtain ⟨hTimers, hHistory, hLater⟩ := resume_kept hKept hTurn
          apply Step.fired task project alarm hTask hGuarded hKept
          · rw [hData, hTimers]
          · rw [hData, hHistory]
          · exact fun other hOther => mem_applyTurn_iff_of_ne hOther
          · intro other hOther hSame
            cases mem_tasks_after hOther with
            | inl hOld => exact absurd hSame hOld.2
            | inr hSelf =>
                rw [hLater other.stage hSelf.2.1]
                rfl
        · obtain ⟨hSameData, hFinish⟩ := resume_skipped hKept hTurn
          apply Step.gone task project alarm hTask hAlarm hKept
          · rw [hData, hSameData]
          · rw [hData, hSameData]
          · intro other
            constructor
            · intro hOther
              cases mem_tasks_after hOther with
              | inl hOld => exact hOld
              | inr hSelf =>
                  rw [hFinish] at hSelf
                  cases hSelf.2.1
            · intro hOld
              exact (mem_applyTurn_iff_of_ne hOld.2).mpr hOld.1
      · obtain ⟨hTimers, hFirings, stage, hStage, hLater, hTimely⟩ :=
          resume_waiting hAlarm hGuarded (hTidy.fits task hTask) hDue hTurn
        obtain ⟨later, hThere, hSame, hLaterStage, hLaterWait⟩ := exists_self_after hTask hStage
        apply Step.moved task later project alarm hTask hAlarm hSame
        · rw [hLaterStage, hLater]
        · rw [hLaterStage, hLaterWait]
          exact hTimely
        · rw [hData, hTimers]
        · rw [hData, hFirings]
        · exact hThere
        · exact fun other hOther => mem_applyTurn_iff_of_ne hOther
        · intro other hOther hOwn
          cases mem_tasks_after hOther with
          | inl hOld => exact absurd hOwn hOld.2
          | inr hSelf =>
              rw [hStage] at hSelf
              exact ⟨(Option.some.inj hSelf.2.1).symm.trans hLaterStage.symm,
                hSelf.2.2.trans hLaterWait.symm⟩

theorem Step.of_locks {locks : Locks} {next : Scheduler}
    (hStep : Step { scheduler with locks := locks } next) : Step scheduler next := by
  cases hStep with
  | quiet hTimers hFirings hTasks => exact Step.quiet hTimers hFirings hTasks
  | gone task project alarm hTask hAlarm hNot hTimers hFirings hTasks =>
      exact Step.gone task project alarm hTask hAlarm hNot hTimers hFirings hTasks
  | moved task later project alarm hTask hAlarm hSame hLater hTimely hTimers hFirings hThere
      hTasks hOwn =>
      exact Step.moved task later project alarm hTask hAlarm hSame hLater hTimely hTimers hFirings
        hThere hTasks hOwn
  | fired task project alarm hTask hStage hKept hTimers hHistory hTasks hOwn =>
      exact Step.fired task project alarm hTask hStage hKept hTimers hHistory hTasks hOwn

theorem step_poll (hTidy : Tidy scheduler) (id : Nat) (leave? : String → Option Leave) :
    Step scheduler (pollTask scheduler id leave?) := by
  obtain ⟨_, hSame⟩ | ⟨task, hTask, _, hPoll⟩ | ⟨task, answer?, hTask, hGrant, hPoll⟩ :=
    pollTask_cases scheduler id leave?
  · rw [hSame]
    exact Step.quiet rfl rfl fun _ _ => Iff.rfl
  · obtain ⟨hTasks, hData, _, _⟩ := polled_same scheduler task
    rw [hPoll]
    apply Step.quiet
    · rw [hData]
    · rw [hData]
    · rw [hTasks]
      exact fun _ _ => Iff.rfl
  · have hMember := ((hTidy.task?_eq_some_iff id task).mp hTask).1
    have hPolledTidy := hTidy.polled hMember
    obtain ⟨locks, hPolled⟩ := scheduler.polled_eq task
    rw [hPoll]
    rw [hPolled] at hPolledTidy ⊢
    apply Step.of_locks
    exact step_turn hPolledTidy hMember fun due hWait => due_of_grant hGrant hWait

theorem step_removeIf (hTidy : Tidy scheduler) {condition : Task Stage String → Bool} {id : Nat}
    {remove : Scheduler → Scheduler}
    (hStep : ∀ task ∈ scheduler.tasks, task.id = id → condition task = true →
      Step scheduler (remove scheduler)) :
    Step scheduler (removeIf scheduler condition id remove) := by
  obtain hSame | ⟨task, hTask, hCondition, hGone⟩ := removeIf_cases scheduler condition id remove
  · rw [hSame]
    exact Step.quiet rfl rfl fun _ _ => Iff.rfl
  · obtain ⟨hMember, hId⟩ := (hTidy.task?_eq_some_iff id task).mp hTask
    rw [hGone]
    exact hStep task hMember hId hCondition

theorem mem_remove_iff (scheduler : Scheduler) (id : Nat) (task : Task Stage String) :
    task ∈ (scheduler.remove id).tasks ↔ task ∈ scheduler.tasks ∧ task.id ≠ id := by
  rw [System.remove_tasks, List.mem_filter, bne_iff_ne]

theorem step_happen (hTidy : Tidy scheduler) (event : Event)
    (hNeither : ∀ project, ¬ event.Ends project) : Step scheduler (happen scheduler event) := by
  cases event with
  | arm project alarm => exact absurd rfl (hNeither project)
  | cancel project => exact absurd rfl (hNeither project)
  | cancelAll => exact absurd trivial (hNeither "")
  | drop id =>
      apply step_removeIf hTidy
      intro task hTask hId hSuperseded
      unfold superseded at hSuperseded
      split at hSuperseded
      · rename_i project alarm hAlarm
        apply Step.gone task project alarm hTask hAlarm (bne_iff_ne.mp hSuperseded)
        · rw [System.remove_data]
        · rw [System.remove_data]
        · intro other
          rw [mem_remove_iff, hId]
      · cases hSuperseded
  | hold holder names =>
      apply Step.quiet
      · rfl
      · rfl
      · intro task hAlarm
        constructor
        · intro hTask
          cases List.mem_append.mp hTask with
          | inl hOld => exact hOld
          | inr hNew =>
              rw [List.mem_singleton.mp hNew] at hAlarm
              cases hAlarm
        · exact fun hTask => List.mem_append_left _ hTask
  | abort holder id =>
      apply step_removeIf hTidy
      intro task hTask hId hHolder
      apply Step.quiet
      · change (scheduler.remove id).data.timers = _
        rw [System.remove_data]
      · change firings (scheduler.remove id).data.history = _
        rw [System.remove_data]
      · intro other hAlarm
        apply Iff.trans (mem_remove_iff scheduler id other)
        apply and_iff_left_of_imp
        intro hOther hSame
        rw [hTidy.unique hTask hOther (hSame.trans hId.symm)] at hAlarm
        cases hStage : task.stage <;> simp [hStage, Stage.alarm?, Stage.isHolder] at hAlarm hHolder
  | pass duration => exact Step.quiet rfl rfl fun _ _ => Iff.rfl
  | reorder ready => exact Step.quiet rfl rfl fun _ _ => Iff.rfl
  | poll task leave? => exact step_poll hTidy task leave?

/-! ### Ids and time -/

theorem removeIf_same {α : Type} (read : Scheduler → α) {condition : Task Stage String → Bool}
    {id : Nat} {remove : Scheduler → Scheduler}
    (hRemove : read (remove scheduler) = read scheduler) :
    read (removeIf scheduler condition id remove) = read scheduler := by
  obtain hSame | ⟨task, _, _, hGone⟩ := removeIf_cases scheduler condition id remove
  · rw [hSame]
  · rw [hGone, hRemove]

theorem pollTask_clock (scheduler : Scheduler) (id : Nat) (leave? : String → Option Leave) :
    (pollTask scheduler id leave?).nextId = scheduler.nextId ∧
      (pollTask scheduler id leave?).now = scheduler.now := by
  obtain ⟨_, hSame⟩ | ⟨task, _, _, hPoll⟩ | ⟨task, answer?, _, _, hPoll⟩ :=
    pollTask_cases scheduler id leave?
  · rw [hSame]
    exact ⟨rfl, rfl⟩
  · rw [hPoll]
    exact (polled_same scheduler task).2.2
  · obtain ⟨data, next, hTurn, _⟩ :=
      resume_plain task.id scheduler.nextId task.stage answer? scheduler.data
    rw [hPoll, hTurn, System.applyTurn_nextId, System.applyTurn_now]
    exact (polled_same scheduler task).2.2

theorem nextId_le_happen (scheduler : Scheduler) (event : Event) :
    scheduler.nextId ≤ (happen scheduler event).nextId := by
  cases event with
  | arm project alarm => exact Nat.le_succ _
  | hold holder names => exact Nat.le_succ _
  | drop id => exact (removeIf_same System.nextId (System.remove_nextId scheduler id)).ge
  | abort holder id => exact (removeIf_same System.nextId (System.remove_nextId scheduler id)).ge
  | poll id leave? => exact (pollTask_clock scheduler id leave?).1.ge
  | _ => exact Nat.le_refl _

theorem now_le_happen (scheduler : Scheduler) (event : Event) :
    scheduler.now ≤ (happen scheduler event).now := by
  cases event with
  | pass duration => exact Nat.le_add_right _ _
  | drop id => exact (removeIf_same System.now (System.remove_now scheduler id)).ge
  | abort holder id => exact (removeIf_same System.now (System.remove_now scheduler id)).ge
  | poll id leave? => exact (pollTask_clock scheduler id leave?).2.ge
  | _ => exact Nat.le_refl _

end BuildWatch.Tasks.Alarms
