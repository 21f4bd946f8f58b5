import BuildWatch.Proofs.Tasks.AlarmTraces

/-!
When alarms go off.  A task that has waited for its delay, has prepared and has the
guard locks claims its alarm; the alarm goes off if the task is still kept.
-/

namespace BuildWatch.Tasks.Alarms

variable {scheduler : Scheduler} {guardNames : Option (List String)} {events : List Event}
variable {project : String} {alarm : Alarm} {task : Nat}

/-! ### The moment an alarm is claimed -/

/-- The alarm that a task claims in an event, having waited for its delay and prepared, now
that it has the guard locks. -/
def Event.claims? (scheduler : Scheduler) : Event → Option (Nat × String × Alarm)
  | .poll id _ =>
      match scheduler.task? id with
      | some { id := task, stage := .guarded project alarm, wait := _, since := _ } =>
          if (scheduler.locks.settle task).holds task then some (task, project, alarm) else none
      | _ => none
  | _ => none

def isKept (scheduler : Scheduler) (claim : Nat × String × Alarm) : Bool :=
  scheduler.data.timers.waiting.get? claim.2.1 == some claim.1

theorem claims?_poll_eq_some_iff (scheduler : Scheduler) (id : Nat)
    (leave? : String → Option Leave) :
    (Event.poll id leave?).claims? scheduler = some (task, project, alarm) ↔
      ∃ waiting, scheduler.task? id = some waiting ∧ waiting.id = task ∧
        waiting.stage = .guarded project alarm ∧
          (scheduler.locks.settle task).holds task = true := by
  unfold Event.claims?
  dsimp only
  split
  · rename_i owner named which wait since hTask
    constructor
    · intro hClaims
      split at hClaims
      · rename_i hHolds
        cases hClaims
        exact ⟨_, hTask, rfl, rfl, hHolds⟩
      · cases hClaims
    · intro hWaiting
      obtain ⟨waiting, hSame, hId, hStage, hHolds⟩ := hWaiting
      cases hTask.symm.trans hSame
      cases hId
      cases hStage
      rw [if_pos hHolds]
  · rename_i hOther
    apply iff_of_false nofun
    intro hWaiting
    obtain ⟨waiting, hSame, _, hStage, _⟩ := hWaiting
    obtain ⟨owner, stage, wait, since⟩ := waiting
    cases hStage
    exact hOther owner project alarm wait since hSame

theorem claims?_poll_eq_none {id : Nat} {leave? : String → Option Leave}
    (hNone : ∀ waiting, scheduler.task? id = some waiting → ∀ project alarm,
      waiting.stage = .guarded project alarm →
        (scheduler.locks.settle waiting.id).holds waiting.id = false) :
    (Event.poll id leave?).claims? scheduler = none := by
  cases hClaims : (Event.poll id leave?).claims? scheduler with
  | none => rfl
  | some claim =>
      obtain ⟨waiting, hTask, hId, hStage, hHolds⟩ :=
        (claims?_poll_eq_some_iff scheduler id leave?).mp hClaims
      rw [← hId, hNone waiting hTask _ _ hStage] at hHolds
      cases hHolds

theorem firings_poll (hTidy : Tidy scheduler) (id : Nat) (leave? : String → Option Leave) :
    firings (pollTask scheduler id leave?).data.history =
      firings scheduler.data.history ++
        (((Event.poll id leave?).claims? scheduler).filter (isKept scheduler)).toList := by
  rcases pollTask_cases scheduler id leave? with ⟨hNone, hSame⟩ |
    ⟨waiting, hTask, hGrant, hPoll⟩ | ⟨waiting, answer?, hTask, hGrant, hPoll⟩
  · rw [hSame, claims?_poll_eq_none]
    · simp
    · intro waiting hTask
      rw [hNone] at hTask
      cases hTask
  · rw [hPoll, (polled_same scheduler waiting).2.1, claims?_poll_eq_none]
    · simp
    · intro other hOther project alarm hStage
      cases hTask.symm.trans hOther
      have hFits := hTidy.fits waiting ((hTidy.task?_eq_some_iff id waiting).mp hTask).1
      rw [hStage] at hFits
      unfold System.grant? at hGrant
      rw [hFits.1] at hGrant
      dsimp only at hGrant
      split at hGrant
      · cases hGrant
      · exact Bool.not_eq_true _ ▸ ‹_›
  · obtain ⟨data, next, hTurn, _⟩ :=
      resume_plain waiting.id scheduler.nextId waiting.stage answer? scheduler.data
    have hMember := ((hTidy.task?_eq_some_iff id waiting).mp hTask).1
    rw [hPoll, System.applyTurn_data, hTurn]
    dsimp only
    by_cases hGuarded : ∃ project alarm, waiting.stage = .guarded project alarm
    · obtain ⟨project, alarm, hStage⟩ := hGuarded
      have hFits := hTidy.fits waiting hMember
      rw [hStage] at hFits hTurn
      have hHolds := holds_of_grant hGrant hFits.1
      unfold System.polled at hHolds
      rw [hFits.1] at hHolds
      rw [(claims?_poll_eq_some_iff scheduler id leave?).mpr
        ⟨waiting, hTask, rfl, hStage, hHolds⟩]
      by_cases hKept : scheduler.data.timers.waiting.get? project = some waiting.id
      · obtain ⟨_, hHistory, _⟩ := resume_kept hKept hTurn
        rw [hHistory, firings_append]
        simp [Option.filter, isKept, hKept, firings, AlarmNotice.firing?]
      · obtain ⟨hData, _⟩ := resume_skipped hKept hTurn
        rw [hData]
        simp [Option.filter, isKept, hKept]
    · rw [claims?_poll_eq_none]
      · simp only [Option.filter_none, Option.toList_none, List.append_nil]
        cases hAlarm : waiting.stage.alarm? with
        | none => exact (resume_without hAlarm hTurn).2.1
        | some which =>
            apply (resume_waiting hAlarm (fun hStage => hGuarded ⟨_, _, hStage⟩)
              (hTidy.fits waiting hMember) (fun due => due_of_grant hGrant) hTurn).2.1
      · intro other hOther project alarm hStage
        cases hTask.symm.trans hOther
        exact absurd ⟨project, alarm, hStage⟩ hGuarded

/-- An alarm goes off when its task claims it and is kept, and at no other moment. -/
theorem firings_happen (hTidy : Tidy scheduler) (event : Event) :
    firings (happen scheduler event).data.history =
      firings scheduler.data.history ++
        ((event.claims? scheduler).filter (isKept scheduler)).toList := by
  cases event with
  | poll id leave? => exact firings_poll hTidy id leave?
  | drop id =>
      simp only [Event.claims?, Option.filter_none, Option.toList_none, List.append_nil]
      exact removeIf_same (fun scheduler : Scheduler => firings scheduler.data.history)
        (by rw [System.remove_data])
  | abort holder id =>
      simp only [Event.claims?, Option.filter_none, Option.toList_none, List.append_nil]
      apply removeIf_same (fun scheduler : Scheduler => firings scheduler.data.history)
      change firings (scheduler.remove id).data.history = _
      rw [System.remove_data]
  | _ =>
      simp only [Event.claims?, Option.filter_none, Option.toList_none, List.append_nil]
      rfl

theorem mem_claims? (hTidy : Tidy scheduler) {event : Event}
    (hClaims : event.claims? scheduler = some (task, project, alarm)) :
    ∃ waiting ∈ scheduler.tasks, waiting.id = task ∧
      waiting.stage = .guarded project alarm ∧
        (scheduler.locks.settle task).holds task = true := by
  cases event with
  | poll id leave? =>
      obtain ⟨waiting, hTask, hRest⟩ := (claims?_poll_eq_some_iff scheduler id leave?).mp hClaims
      exact ⟨waiting, ((hTidy.task?_eq_some_iff id waiting).mp hTask).1, hRest⟩
  | _ => cases hClaims

/-- Whoever claims an alarm is kept unless the alarm was replaced or cancelled. -/
theorem isKept_iff_standing {event : Event}
    (hClaims : event.claims? (after guardNames events) = some (task, project, alarm)) :
    isKept (after guardNames events) (task, project, alarm) = true ↔
      Standing guardNames events project task := by
  have hTraced := traced_after guardNames events
  obtain ⟨waiting, hWaiting, hId, hStage, _⟩ := mem_claims? (tidy_after guardNames events) hClaims
  have hNotYet : task ∉ firedTasks (after guardNames events).data.history := by
    intro hFired
    obtain ⟨⟨first, named, which⟩, hMember, hFirst⟩ := List.mem_map.mp hFired
    have hNone := (hTraced.fired first named which hMember).2 waiting hWaiting
      (hId.trans hFirst.symm)
    rw [hStage] at hNone
    cases hNone
  apply Iff.trans beq_iff_eq
  rw [hTraced.kept]
  exact and_iff_left hNotYet

/-! ### Guard locks -/

theorem holder_of_holds {locks : Locks} (hSound : locks.Sound) {claim : Claim}
    (hClaim : locks.claim? task = some claim) {name : String} (hTaken : name ∈ claim.taken) :
    locks.holder? name = some task := by
  obtain ⟨hMember, hOwner⟩ := Locks.mem_of_claim? hClaim
  rw [hSound.held claim hMember name hTaken, hOwner]

def Guarded (guardNames : Option (List String)) (locks : Locks) (task : Nat) : Prop :=
  ∃ claim, locks.claim? task = some claim ∧ claim.wanted = [] ∧
    ∀ name, name ∈ guards guardNames → name ∈ claim.taken ∧ locks.holder? name = some task

theorem guarded_of_taken {locks : Locks} (hSound : locks.Sound) {claim : Claim}
    (hClaim : locks.claim? task = some claim) (hWanted : claim.wanted = [])
    (hTaken : claim.taken = orderedNames (guards guardNames)) :
    Guarded guardNames locks task := by
  refine ⟨claim, hClaim, hWanted, ?_⟩
  intro name hName
  have hMember : name ∈ claim.taken := by
    rw [hTaken, mem_orderedNames]
    exact hName
  exact ⟨hMember, holder_of_holds hSound hClaim hMember⟩

theorem guardNames_happen (scheduler : Scheduler) (event : Event) :
    (happen scheduler event).data.guardNames = scheduler.data.guardNames := by
  cases event with
  | drop id =>
      apply removeIf_same (fun scheduler : Scheduler => scheduler.data.guardNames)
      rw [System.remove_data]
  | abort holder id =>
      apply removeIf_same (fun scheduler : Scheduler => scheduler.data.guardNames)
      change (scheduler.remove id).data.guardNames = _
      rw [System.remove_data]
  | poll id leave? =>
      obtain ⟨_, hSame⟩ | ⟨waiting, _, _, hPoll⟩ | ⟨waiting, answer?, _, _, hPoll⟩ :=
        pollTask_cases scheduler id leave?
      · exact congrArg (fun scheduler : Scheduler => scheduler.data.guardNames) hSame
      · apply (congrArg (fun scheduler : Scheduler => scheduler.data.guardNames) hPoll).trans
        rw [(polled_same scheduler waiting).2.1]
      · obtain ⟨data, next, hTurn, hNames⟩ :=
          resume_plain waiting.id scheduler.nextId waiting.stage answer? scheduler.data
        apply (congrArg (fun scheduler : Scheduler => scheduler.data.guardNames) hPoll).trans
        rw [System.applyTurn_data, hTurn]
        exact hNames
  | _ => rfl

theorem guardNames_after (guardNames : Option (List String)) (events : List Event) :
    (after guardNames events).data.guardNames = guardNames := by
  induction events using List.reverseRecOn with
  | nil => rfl
  | append_singleton earlier event ih => rw [after_snoc, guardNames_happen, ih]

/-- When a task claims an alarm, the alarm has waited for its delay and has prepared, and the
task has the guard locks. -/
theorem claimed_in_time {event : Event}
    (hClaims : event.claims? (after guardNames events) = some (task, project, alarm)) :
    (∃ armed later, Armed guardNames events project alarm task armed later ∧
      armed + alarm.delay + alarm.prepare.getD 0 ≤ (after guardNames events).now) ∧
    Guarded guardNames ((after guardNames events).locks.settle task) task := by
  have hTidy := tidy_after guardNames events
  obtain ⟨waiting, hWaiting, hId, hStage, hHolds⟩ := mem_claims? hTidy hClaims
  subst hId
  constructor
  · obtain ⟨armed, later, hArmed, hTimely⟩ := (traced_after guardNames events).timely waiting
      hWaiting project alarm (by rw [hStage]; rfl)
    rw [hStage] at hTimely
    exact ⟨armed, later, hArmed, hTimely⟩
  · have hFits := hTidy.fits waiting hWaiting
    rw [hStage, guardNames_after] at hFits
    obtain ⟨claim, hClaim, hWanted⟩ := claim_of_holds hHolds
    have hAll := (hFits.settle hFits.1).2
    rw [hClaim, Option.map_some, hWanted, List.append_nil] at hAll
    exact guarded_of_taken (hTidy.locks.settle waiting.id).1 hClaim hWanted (Option.some.inj hAll)

/-- While an alarm goes off its task has the guard locks, and nothing but its own turn ends
it. -/
theorem worked_undisturbed {waiting : Task Stage String}
    (hWaiting : waiting ∈ (after guardNames events).tasks)
    (hStage : waiting.stage = .worked project alarm) :
    Guarded guardNames (after guardNames events).locks waiting.id ∧
      ∀ event, (∀ leave?, event ≠ .poll waiting.id leave?) →
        waiting ∈ (after guardNames (events ++ [event])).tasks := by
  have hTidy := tidy_after guardNames events
  constructor
  · have hFits := hTidy.fits waiting hWaiting
    rw [hStage, guardNames_after] at hFits
    obtain ⟨_, claim, hClaim, hWanted, hTaken⟩ := hFits
    exact guarded_of_taken hTidy.locks hClaim hWanted hTaken
  · intro event hOther
    rw [after_snoc]
    have hStays (condition : Task Stage String → Bool) (id : Nat)
        (hNot : condition waiting = false) {remove : Scheduler → Scheduler}
        (hRemove : (remove (after guardNames events)).tasks =
          ((after guardNames events).remove id).tasks) :
        waiting ∈ (removeIf (after guardNames events) condition id remove).tasks := by
      obtain hSame | ⟨other, hTask, hCondition, hGone⟩ :=
        removeIf_cases (after guardNames events) condition id remove
      · rw [hSame]
        exact hWaiting
      · obtain ⟨hMember, hId⟩ := (hTidy.task?_eq_some_iff id other).mp hTask
        rw [hGone, hRemove, mem_remove_iff]
        refine ⟨hWaiting, ?_⟩
        intro hSelf
        rw [hTidy.unique hMember hWaiting (hSelf.trans hId.symm), hCondition] at hNot
        cases hNot
    cases event with
    | arm project alarm => exact List.mem_append_left _ hWaiting
    | hold holder names => exact List.mem_append_left _ hWaiting
    | drop id => exact hStays _ id (by simp [superseded, hStage, Stage.alarm?]) rfl
    | abort holder id => exact hStays _ id (by simp [hStage, Stage.isHolder]) rfl
    | poll id leave? =>
        have hId : waiting.id ≠ id := by
          intro hSame
          exact hOther leave? (by rw [hSame])
        obtain ⟨_, hSame⟩ | ⟨other, _, _, hPoll⟩ | ⟨other, answer?, hTask, _, hPoll⟩ :=
          pollTask_cases (after guardNames events) id leave?
        · change waiting ∈ (pollTask _ id leave?).tasks
          rw [hSame]
          exact hWaiting
        · change waiting ∈ (pollTask _ id leave?).tasks
          rw [hPoll, (polled_same _ other).1]
          exact hWaiting
        · obtain ⟨data, next, hTurn, _⟩ := resume_plain other.id (after guardNames events).nextId
            other.stage answer? (after guardNames events).data
          have hOtherId := ((hTidy.task?_eq_some_iff id other).mp hTask).2
          change waiting ∈ (pollTask _ id leave?).tasks
          rw [hPoll, hTurn, mem_applyTurn_iff_of_ne (hOtherId ▸ hId), (polled_same _ other).1]
          exact hWaiting
    | _ => exact hWaiting

/-! ### What an operation on one project leaves alone -/

/-- The alarms of the other projects are the same, kept for the same tasks, and these stand
where they stood and claim what they claimed. -/
def Spares (project : String) (before next : Scheduler) : Prop :=
  (∀ other, other ≠ project →
    next.data.timers.waiting.get? other = before.data.timers.waiting.get? other) ∧
  (∀ waiting ∈ before.tasks, ∀ other alarm, waiting.stage.alarm? = some (other, alarm) →
    other ≠ project → waiting ∈ next.tasks ∧
      next.locks.claim? waiting.id = before.locks.claim? waiting.id) ∧
  next.data.history = before.data.history ∧ next.now = before.now

theorem spares_remove (hTidy : Tidy scheduler) {old : Task Stage String}
    (hOld : old ∈ scheduler.tasks) (hAlarm : old.stage.alarm? = some (project, alarm)) :
    Spares project scheduler (scheduler.remove old.id) := by
  refine ⟨?_, ?_, ?_, ?_⟩
  · intro other _
    rw [System.remove_data]
  · intro waiting hWaiting other which hWhich hOther
    have hDistinct : waiting.id ≠ old.id := by
      intro hSame
      rw [hTidy.unique hOld hWaiting hSame, hAlarm] at hWhich
      cases hWhich
      exact hOther rfl
    constructor
    · exact (mem_remove_iff scheduler old.id waiting).mpr ⟨hWaiting, hDistinct⟩
    · rw [System.remove_locks, hTidy.locks.claim?_release hDistinct]
  · rw [System.remove_data]
  · rw [System.remove_now]

theorem Spares.trans {before middle next : Scheduler} (hFirst : Spares project before middle)
    (hSecond : Spares project middle next) : Spares project before next := by
  obtain ⟨hTimers, hTasks, hHistory, hNow⟩ := hFirst
  obtain ⟨hTimers', hTasks', hHistory', hNow'⟩ := hSecond
  refine ⟨?_, ?_, hHistory'.trans hHistory, hNow'.trans hNow⟩
  · intro other hOther
    rw [hTimers' other hOther, hTimers other hOther]
  · intro waiting hWaiting other which hWhich hOther
    obtain ⟨hMiddle, hClaim⟩ := hTasks waiting hWaiting other which hWhich hOther
    obtain ⟨hNext, hClaim'⟩ := hTasks' waiting hMiddle other which hWhich hOther
    exact ⟨hNext, hClaim'.trans hClaim⟩

theorem spares_register (scheduler : Scheduler) (project : String) (alarm : Alarm) :
    Spares project scheduler (scheduler.register project alarm) := by
  refine ⟨?_, ?_, rfl, rfl⟩
  · intro other hOther
    apply (Timers.get?_arm _ project other _).trans
    rw [if_neg hOther]
    rfl
  · intro waiting hWaiting other which _ _
    exact ⟨List.mem_append_left _ hWaiting, rfl⟩

theorem spares_forget (scheduler : Scheduler) (project : String) :
    Spares project scheduler (scheduler.forget project) := by
  refine ⟨?_, ?_, rfl, rfl⟩
  · intro other hOther
    apply (Timers.get?_cancel _ project other).trans
    rw [if_neg hOther]
  · intro waiting hWaiting other which _ _
    exact ⟨hWaiting, rfl⟩

theorem spares_arm (guardNames : Option (List String)) (events : List Event) (project : String)
    (alarm : Alarm) :
    Spares project (after guardNames events) ((after guardNames events).arm project alarm) := by
  have hRegistered := spares_register (after guardNames events) project alarm
  unfold Scheduler.arm Timers.stale
  cases hKept : (after guardNames events).data.timers.waiting.get? project with
  | none => exact hRegistered
  | some old =>
      obtain ⟨waiting, hWaiting, hId, which, hWhich⟩ :=
        (traced_after guardNames events).alive project old hKept
      have hTidy := (tidy_after guardNames events).happen (.arm project alarm)
      apply hRegistered.trans
      rw [← hId]
      exact spares_remove hTidy (List.mem_append_left _ hWaiting) hWhich

theorem spares_cancel (guardNames : Option (List String)) (events : List Event)
    (project : String) :
    Spares project (after guardNames events) ((after guardNames events).cancel project).1 := by
  unfold Scheduler.cancel
  cases hKept : (after guardNames events).data.timers.waiting.get? project with
  | none => exact ⟨fun _ _ => rfl, fun _ hWaiting _ _ _ _ => ⟨hWaiting, rfl⟩, rfl, rfl⟩
  | some old =>
      obtain ⟨waiting, hWaiting, hId, which, hWhich⟩ :=
        (traced_after guardNames events).alive project old hKept
      have hTidy := (tidy_after guardNames events).happen (.cancel project)
      apply (spares_forget (after guardNames events) project).trans
      rw [← hId]
      exact spares_remove hTidy hWaiting hWhich

end BuildWatch.Tasks.Alarms
