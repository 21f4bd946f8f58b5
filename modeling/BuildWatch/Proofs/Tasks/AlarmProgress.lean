import BuildWatch.Proofs.Tasks.AlarmFirings
import Mathlib.Algebra.GroupWithZero.Nat

/-!
Every alarm comes to the moment when it is claimed.  Its task has few turns to take
until then; and whatever the other tasks have come to, time may pass and tasks may
take turns until the alarm goes off.
-/

namespace BuildWatch.Tasks.Alarms

variable {scheduler : Scheduler} {guardNames : Option (List String)} {events : List Event}
variable {project : String} {task : Nat}

/-! ### The turns that are left -/

def Stage.turnsLeft : Stage → Nat
  | .claim _ _ => 3
  | .inside _ => 2
  | .leave _ => 1
  | .armed _ _ => 5
  | .elapsed _ _ => 4
  | .prepared _ _ => 3
  | .guarded _ _ => 2
  | .worked _ _ => 1

theorem Stage.turnsLeft_pos (stage : Stage) : 0 < stage.turnsLeft := by
  cases stage <;> exact Nat.succ_pos _

theorem Stage.two_le_turnsLeft {stage : Stage} (hAlarm : stage.alarm?.isSome = true) :
    2 ≤ stage.turnsLeft := by
  cases stage with
  | armed project alarm => simp [Stage.turnsLeft]
  | elapsed project alarm => simp [Stage.turnsLeft]
  | prepared project alarm => simp [Stage.turnsLeft]
  | guarded project alarm => simp [Stage.turnsLeft]
  | _ => cases hAlarm

theorem resume_turnsLeft {self fresh : Nat} {stage later : Stage} {answer? : Option Leave}
    {shared data : Shared} {next : Next Stage String}
    (hTurn : resume self fresh stage answer? shared = { data := data, next := next })
    (hLater : next.stage? = some later) : later.turnsLeft < stage.turnsLeft := by
  cases stage with
  | elapsed project alarm =>
      simp only [resume, beginPreparing, takeGuard] at hTurn
      split at hTurn
      · cases hTurn
        cases hLater
        simp [Stage.turnsLeft]
      · cases hTurn
        cases hLater
        simp [Stage.turnsLeft]
  | guarded project alarm =>
      simp only [resume, fire] at hTurn
      split at hTurn
      · cases hTurn
        cases hLater
      · split at hTurn
        · cases hTurn
          cases hLater
        · cases hTurn
          cases hLater
          simp [Stage.turnsLeft]
  | leave holder =>
      cases hTurn
      cases hLater
  | worked project alarm =>
      cases hTurn
      cases hLater
  | _ =>
      cases hTurn
      cases hLater
      simp [Stage.turnsLeft]

def turnsLeft (scheduler : Scheduler) : Nat :=
  (scheduler.tasks.map fun waiting => waiting.stage.turnsLeft).sum

theorem turnsLeft_turn (scheduler : Scheduler) (hIds : (scheduler.tasks.map Task.id).Nodup)
    (hBelow : ∀ task ∈ scheduler.tasks, task.id < scheduler.nextId)
    {waiting : Task Stage String} (hWaiting : waiting ∈ scheduler.tasks) (fresh : Nat)
    (answer? : Option Leave) :
    turnsLeft (scheduler.applyTurn waiting.id
      (resume waiting.id fresh waiting.stage answer? scheduler.data)) < turnsLeft scheduler := by
  obtain ⟨data, next, hTurn, _⟩ :=
    resume_plain waiting.id fresh waiting.stage answer? scheduler.data
  obtain ⟨earlier, later, hTasks⟩ := List.append_of_mem hWaiting
  have hStages := System.applyTurn_stages { data := data, next := next } hTasks hIds
    hBelow (Or.inl List.not_mem_nil)
  have hLess : (next.stage?.toList.map Stage.turnsLeft).sum < waiting.stage.turnsLeft := by
    cases hNext : next.stage? with
    | none => exact waiting.stage.turnsLeft_pos
    | some stage => simpa using resume_turnsLeft hTurn hNext
  have hSum (system : Scheduler) :
      turnsLeft system = ((system.tasks.map Task.stage).map Stage.turnsLeft).sum := by
    rw [List.map_map]
    rfl
  rw [hTurn, hSum, hSum, hStages, hTasks]
  simp only [List.contains_nil, Bool.not_false, List.filter_true, List.append_nil, List.map_append,
    List.map_cons, List.sum_append, List.sum_cons]
  omega

/-! ### Some task can always take a turn -/

def Event.Onward : Event → Prop
  | .pass _ => True
  | .poll _ _ => True
  | _ => False

theorem Event.Onward.not_ends {event : Event} (hOnward : event.Onward) (project : String) :
    ¬ event.Ends project := by
  cases event with
  | pass duration => exact id
  | poll id leave? => exact fun hEnds => hEnds
  | _ => exact hOnward.elim

theorem claimed_of_locks (hTidy : Tidy scheduler) {waiting : Task Stage String}
    (hWaiting : waiting ∈ scheduler.tasks) (hWait : waiting.wait = .locks) :
    scheduler.locks.Claimed waiting.id := by
  have hSome : (scheduler.locks.claim? waiting.id).isSome = true := by
    have hFits := hTidy.fits waiting hWaiting
    rw [hWait] at hFits
    cases hStage : waiting.stage with
    | inside holder =>
        rw [hStage] at hFits
        exact hFits.2
    | guarded project alarm =>
        rw [hStage] at hFits
        rw [← Option.isSome_map, hFits.2]
        rfl
    | elapsed project alarm =>
        rw [hStage] at hFits
        obtain ⟨⟨due, hDue⟩, _⟩ := hFits
        cases hDue
    | prepared project alarm =>
        rw [hStage] at hFits
        obtain ⟨⟨due, hDue⟩, _⟩ := hFits
        cases hDue
    | worked project alarm =>
        rw [hStage] at hFits
        obtain ⟨⟨due, hDue⟩, _⟩ := hFits
        cases hDue
    | _ =>
        rw [hStage] at hFits
        cases hFits.1
  obtain ⟨claim, hClaim⟩ := Option.isSome_iff_exists.mp hSome
  exact ⟨claim, Locks.mem_of_claim? hClaim⟩

/-- After some time one of the tasks has what it waits for: if all of them wait for locks, one
can have all its locks. -/
theorem exists_grant (hTidy : Tidy scheduler) (hTasks : scheduler.tasks ≠ []) :
    ∃ duration, ∃ leave? : String → Option Leave, ∃ answer?, ∃ waiting ∈ scheduler.tasks,
      (happen scheduler (.pass duration)).grant? leave? waiting = some answer? := by
  by_cases hOther : ∃ waiting ∈ scheduler.tasks, waiting.wait ≠ .locks
  · obtain ⟨waiting, hWaiting, hWait⟩ := hOther
    cases hKind : waiting.wait with
    | turn => exact ⟨0, fun _ => none, none, waiting, hWaiting, by simp [System.grant?, hKind]⟩
    | clock due =>
        refine ⟨due, fun _ => none, none, waiting, hWaiting, ?_⟩
        simp [System.grant?, hKind, happen]
    | locks => exact absurd hKind hWait
    | answer holder =>
        exact ⟨0, fun _ => some .release, some .release, waiting, hWaiting,
          by simp [System.grant?, hKind]⟩
  · obtain ⟨first, hFirst⟩ := List.exists_mem_of_ne_nil _ hTasks
    have hLocks (waiting : Task Stage String) (hWaiting : waiting ∈ scheduler.tasks) :
        waiting.wait = .locks := by
      by_contra hWait
      exact hOther ⟨waiting, hWaiting, hWait⟩
    have hClaims : scheduler.locks.claims ≠ [] := by
      obtain ⟨claim, hClaim, _⟩ := claimed_of_locks hTidy hFirst (hLocks first hFirst)
      exact List.ne_nil_of_mem hClaim
    obtain ⟨owner, hClaimed, hHolds⟩ := hTidy.locks.exists_granted hClaims
    obtain ⟨waiting, hWaiting, hId⟩ := hTidy.owned owner hClaimed
    subst hId
    refine ⟨0, fun _ => none, none, waiting, hWaiting, ?_⟩
    simp [System.grant?, hLocks waiting hWaiting, happen, hHolds]

theorem exists_turn (hTidy : Tidy scheduler) (hTasks : scheduler.tasks ≠ []) :
    ∃ duration id leave?,
      turnsLeft (happen (happen scheduler (.pass duration)) (.poll id leave?)) <
        turnsLeft scheduler := by
  obtain ⟨duration, leave?, answer?, waiting, hWaiting, hGrant⟩ := exists_grant hTidy hTasks
  have hPassed := hTidy.happen (.pass duration)
  refine ⟨duration, waiting.id, leave?, ?_⟩
  have hTask : (happen scheduler (.pass duration)).task? waiting.id = some waiting :=
    (hPassed.task?_eq_some_iff waiting.id waiting).mpr ⟨hWaiting, rfl⟩
  change turnsLeft (pollTask _ waiting.id leave?) < _
  obtain ⟨hNone, _⟩ | ⟨other, hOther, hNot, _⟩ | ⟨other, answer, hOther, _, hPoll⟩ :=
    pollTask_cases (happen scheduler (.pass duration)) waiting.id leave?
  · rw [hTask] at hNone
    cases hNone
  · cases hTask.symm.trans hOther
    rw [hGrant] at hNot
    cases hNot
  · cases hTask.symm.trans hOther
    have hMember : waiting ∈ (happen scheduler (.pass duration)).tasks := hWaiting
    have hPolled := hPassed.polled hMember
    obtain ⟨hTasks, hData, _, _⟩ := polled_same (happen scheduler (.pass duration)) waiting
    rw [← hTasks] at hMember
    have hFewer := turnsLeft_turn _ hPolled.ids hPolled.below hMember
      (happen scheduler (.pass duration)).nextId answer
    rw [hPoll, ← hData]
    apply Nat.lt_of_lt_of_le hFewer
    unfold turnsLeft
    rw [hTasks]
    exact Nat.le_refl _

/-! ### Alarms that are neither replaced nor cancelled -/

theorem Standing.extend (hStanding : Standing guardNames events project task) {more : List Event}
    (hMore : ∀ event ∈ more, ¬ event.Ends project) :
    Standing guardNames (events ++ more) project task := by
  obtain ⟨alarm, armed, later, ⟨before, hEvents, hRest⟩, hLater⟩ := hStanding
  refine ⟨alarm, armed, later ++ more, ⟨before, by simp [hEvents], hRest⟩, ?_⟩
  intro event hEvent
  cases List.mem_append.mp hEvent with
  | inl hEarlier => exact hLater event hEarlier
  | inr hLast => exact hMore event hLast

theorem firedTasks_mono (guardNames : Option (List String)) (events more : List Event)
    (hFired : task ∈ firedTasks (after guardNames events).data.history) :
    task ∈ firedTasks (after guardNames (events ++ more)).data.history := by
  induction more using List.reverseRecOn with
  | nil => simpa using hFired
  | append_singleton earlier event ih =>
      rw [← List.append_assoc, after_snoc, firedTasks,
        firings_happen (tidy_after guardNames (events ++ earlier)), List.map_append]
      exact List.mem_append_left _ ih

theorem exists_waiting (hStanding : Standing guardNames events project task)
    (hNotYet : task ∉ firedTasks (after guardNames events).data.history) :
    ∃ waiting ∈ (after guardNames events).tasks, waiting.id = task ∧
      ∃ alarm, waiting.stage.alarm? = some (project, alarm) := by
  have hTraced := traced_after guardNames events
  exact hTraced.alive project task ((hTraced.kept project task).mpr ⟨hStanding, hNotYet⟩)

/-- However far the others have come, an alarm that stands can still go off.  The induction is
on the turns that are left to all tasks. -/
theorem exists_firing (hStanding : Standing guardNames events project task) :
    ∃ more, (∀ event ∈ more, event.Onward) ∧
      task ∈ firedTasks (after guardNames (events ++ more)).data.history := by
  induction hLeft : turnsLeft (after guardNames events) using Nat.strong_induction_on
      generalizing events with
  | _ left ih =>
      by_cases hFired : task ∈ firedTasks (after guardNames events).data.history
      · exact ⟨[], List.forall_mem_nil _, by simpa using hFired⟩
      · obtain ⟨waiting, hWaiting, _⟩ := exists_waiting hStanding hFired
        obtain ⟨duration, id, leave?, hFewer⟩ :=
          exists_turn (tidy_after guardNames events) (List.ne_nil_of_mem hWaiting)
        have hOnward : ∀ event ∈ [Event.pass duration, .poll id leave?], event.Onward := by
          simp [Event.Onward]
        have hStill := hStanding.extend fun event hEvent => (hOnward event hEvent).not_ends project
        have hAfter : after guardNames (events ++ [.pass duration, .poll id leave?]) =
            happen (happen (after guardNames events) (.pass duration)) (.poll id leave?) := by
          unfold after
          rw [List.foldl_append]
          rfl
        rw [← hAfter, hLeft] at hFewer
        obtain ⟨more, hMore, hGoesOff⟩ := ih _ hFewer hStill rfl
        refine ⟨[.pass duration, .poll id leave?] ++ more, ?_, ?_⟩
        · intro event hEvent
          cases List.mem_append.mp hEvent with
          | inl hFirst => exact hOnward event hFirst
          | inr hRest => exact hMore event hRest
        · rw [← List.append_assoc]
          exact hGoesOff

/-! ### The turns of one task -/

def takesTurn (scheduler : Scheduler) (task : Nat) : Event → Bool
  | .poll id leave? =>
      id == task && (scheduler.task? id).any fun waiting =>
        (scheduler.grant? leave? waiting).isSome
  | _ => false

def turnsTaken (task : Nat) : Scheduler → List Event → Nat
  | _, [] => 0
  | scheduler, event :: rest =>
      (if takesTurn scheduler task event then 1 else 0) +
        turnsTaken task (happen scheduler event) rest

/-- A task has fewer turns left after each of its turns, and never more. -/
theorem turnsLeft_happen (hTidy : Tidy scheduler) (event : Event)
    {waiting later : Task Stage String} (hWaiting : waiting ∈ scheduler.tasks)
    (hLater : later ∈ (happen scheduler event).tasks) (hSame : later.id = waiting.id) :
    later.stage.turnsLeft + (if takesTurn scheduler waiting.id event then 1 else 0) ≤
      waiting.stage.turnsLeft := by
  have hBelow := hTidy.below waiting hWaiting
  have hOld (hOne : later ∈ scheduler.tasks) :
      later.stage.turnsLeft ≤ waiting.stage.turnsLeft := by
    rw [hTidy.unique hWaiting hOne hSame]
  have hSpawned (stage : Stage) (hOne : later ∈ (scheduler.spawn stage).tasks) :
      later.stage.turnsLeft ≤ waiting.stage.turnsLeft := by
    cases List.mem_append.mp hOne with
    | inl hEarlier => exact hOld hEarlier
    | inr hNew =>
        rw [List.mem_singleton.mp hNew] at hSame
        simp only at hSame
        omega
  have hRemoved (condition : Task Stage String → Bool) (id : Nat) (remove : Scheduler → Scheduler)
      (hRemove : (remove scheduler).tasks = (scheduler.remove id).tasks)
      (hOne : later ∈ (removeIf scheduler condition id remove).tasks) :
      later.stage.turnsLeft ≤ waiting.stage.turnsLeft := by
    obtain hNot | ⟨other, _, _, hGone⟩ := removeIf_cases scheduler condition id remove
    · exact hOld (hNot ▸ hOne)
    · rw [hGone, hRemove] at hOne
      exact hOld ((mem_remove_iff scheduler id later).mp hOne).1
  cases event with
  | arm project alarm => exact hSpawned (.armed project alarm) hLater
  | hold holder names => exact hSpawned (.claim holder names) hLater
  | drop id => exact hRemoved _ id (·.remove id) rfl hLater
  | abort holder id => exact hRemoved _ id (·.abort holder id) rfl hLater
  | poll id leave? =>
      simp only [takesTurn]
      change later ∈ (pollTask scheduler id leave?).tasks at hLater
      rcases pollTask_cases scheduler id leave? with ⟨hNone, hPoll⟩ |
        ⟨other, hOther, hNot, hPoll⟩ | ⟨other, answer?, hOther, hGrant, hPoll⟩
      · rw [hPoll] at hLater
        simpa [hNone] using hOld hLater
      · rw [hPoll, (polled_same scheduler other).1] at hLater
        simpa [hOther, hNot] using hOld hLater
      · obtain ⟨hMember, hId⟩ := (hTidy.task?_eq_some_iff id other).mp hOther
        obtain ⟨data, next, hTurn, _⟩ :=
          resume_plain other.id scheduler.nextId other.stage answer? scheduler.data
        rw [hPoll, hTurn] at hLater
        cases mem_tasks_after hLater with
        | inl hEarlier =>
            rw [(polled_same scheduler other).1] at hEarlier
            have hDistinct : id ≠ waiting.id := fun hSelf =>
              hEarlier.2 (hSame.trans (hSelf.symm.trans hId.symm))
            simpa [hDistinct] using hOld hEarlier.1
        | inr hSelf =>
            have hOwn := hTidy.unique hMember hWaiting (hSame.symm.trans hSelf.1)
            rw [← hOwn] at hTurn hId
            have hOne (taken : Bool) : (if taken = true then 1 else 0) ≤ 1 := by
              cases taken <;> simp
            exact Nat.le_trans (Nat.add_le_add_left (hOne _) _) (resume_turnsLeft hTurn hSelf.2.1)
  | _ => exact hOld hLater

theorem fires_of_turns {more : List Event} (hStanding : Standing guardNames events project task)
    (hMore : ∀ event ∈ more, ¬ event.Ends project) {waiting : Task Stage String}
    (hWaiting : waiting ∈ (after guardNames events).tasks) (hId : waiting.id = task)
    (hAlarm : waiting.stage.alarm?.isSome = true)
    (hTurns : waiting.stage.turnsLeft ≤ turnsTaken task (after guardNames events) more + 1) :
    task ∈ firedTasks (after guardNames (events ++ more)).data.history := by
  induction more generalizing events waiting with
  | nil =>
      have hSome := Stage.two_le_turnsLeft hAlarm
      simp only [turnsTaken] at hTurns
      omega
  | cons event rest ih =>
      have hNext : events ++ event :: rest = (events ++ [event]) ++ rest := by simp
      have hStill : Standing guardNames (events ++ [event]) project task :=
        hStanding.extend fun other hOther =>
          hMore other (List.mem_singleton.mp hOther ▸ List.mem_cons_self)
      rw [hNext]
      by_cases hFired : task ∈ firedTasks (after guardNames (events ++ [event])).data.history
      · exact firedTasks_mono guardNames (events ++ [event]) rest hFired
      · obtain ⟨later, hLater, hLaterId, alarm, hLaterAlarm⟩ := exists_waiting hStill hFired
        apply ih hStill (fun other hOther => hMore other (List.mem_cons_of_mem event hOther))
          hLater hLaterId
        · rw [hLaterAlarm]
          rfl
        · have hFewer := turnsLeft_happen (tidy_after guardNames events) event hWaiting
            (after_snoc guardNames events event ▸ hLater) (hLaterId.trans hId.symm)
          rw [hId] at hFewer
          rw [after_snoc]
          simp only [turnsTaken] at hTurns
          omega

/-- An alarm that stands goes off by the fourth turn of its task, whatever happens in between
but that it is replaced or cancelled. -/
theorem fires_by_fourth_turn {more : List Event}
    (hStanding : Standing guardNames events project task)
    (hMore : ∀ event ∈ more, ¬ event.Ends project)
    (hTurns : 4 ≤ turnsTaken task (after guardNames events) more) :
    task ∈ firedTasks (after guardNames (events ++ more)).data.history := by
  by_cases hFired : task ∈ firedTasks (after guardNames events).data.history
  · exact firedTasks_mono guardNames events more hFired
  · obtain ⟨waiting, hWaiting, hId, alarm, hAlarm⟩ := exists_waiting hStanding hFired
    apply fires_of_turns hStanding hMore hWaiting hId (by rw [hAlarm]; rfl)
    have hMost : waiting.stage.turnsLeft ≤ 5 := by
      cases waiting.stage <;> simp [Stage.turnsLeft]
    omega

end BuildWatch.Tasks.Alarms
