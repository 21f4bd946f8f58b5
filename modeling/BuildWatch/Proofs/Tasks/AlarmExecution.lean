import BuildWatch.Proofs.Tasks.AlarmProgress
import BuildWatch.Proofs.Tasks.Settling

/-!
Alarms as they are run.  Whoever arms or cancels an alarm drops the task that waits
with the one before at once: that is the event followed by the drops it calls for.  Time
that passes, with everyone taking turns in one order, is a run in which nothing is asked
for; it comes to an end with no task asleep past its time.
-/

namespace BuildWatch.Tasks.Alarms

open Std.Do

variable {scheduler : Scheduler} {guardNames : Option (List String)} {events : List Event}

theorem after_append (guardNames : Option (List String)) (events more : List Event) :
    after guardNames (events ++ more) = more.foldl happen (after guardNames events) :=
  List.foldl_append

/-! ### Arming and cancelling -/

theorem remove_absent (hTidy : Tidy scheduler) {id : Nat} (hNone : scheduler.task? id = none) :
    scheduler.remove id = scheduler := by
  have hAbsent : ∀ waiting ∈ scheduler.tasks, waiting.id ≠ id := by
    intro waiting hWaiting hId
    rw [(hTidy.task?_eq_some_iff id waiting).mpr ⟨hWaiting, hId⟩] at hNone
    cases hNone
  have hUnclaimed : scheduler.locks.claim? id = none := by
    rw [Locks.claim?_eq_none_iff]
    intro hClaimed
    obtain ⟨waiting, hWaiting, hId⟩ := hTidy.owned id hClaimed
    exact hAbsent waiting hWaiting hId
  have hTasks : scheduler.tasks.filter (fun waiting => waiting.id != id) = scheduler.tasks :=
    List.filter_eq_self.mpr fun waiting hWaiting => bne_iff_ne.mpr (hAbsent waiting hWaiting)
  unfold System.remove System.releaseLocks
  rw [hTasks]
  simp only [Locks.heirs, Locks.release, hUnclaimed]
  rfl

/-- A task may be dropped if it is the one of an alarm that is no longer kept, or gone. -/
theorem happen_drop (hTidy : Tidy scheduler) (id : Nat)
    (hSuperseded : ∀ waiting ∈ scheduler.tasks, waiting.id = id →
      superseded scheduler waiting = true) : happen scheduler (.drop id) = scheduler.remove id := by
  simp only [happen, removeIf]
  cases hTask : scheduler.task? id with
  | none => exact (remove_absent hTidy hTask).symm
  | some waiting =>
      obtain ⟨hWaiting, hId⟩ := (hTidy.task?_eq_some_iff id waiting).mp hTask
      simp only [hSuperseded waiting hWaiting hId, if_true]

theorem foldl_drop (hTidy : Tidy scheduler) (ids : List Nat)
    (hSuperseded : ∀ waiting ∈ scheduler.tasks, waiting.id ∈ ids →
      superseded scheduler waiting = true) :
    (ids.map Event.drop).foldl happen scheduler = scheduler.dropTasks ids := by
  induction ids generalizing scheduler with
  | nil => rfl
  | cons id rest ih =>
      have hFirst := happen_drop hTidy id fun waiting hWaiting hId =>
        hSuperseded waiting hWaiting (hId ▸ List.mem_cons_self)
      rw [List.map_cons, List.foldl_cons, hFirst]
      apply ih (hTidy.remove id)
      intro waiting hWaiting hId
      have hOld := ((mem_remove_iff scheduler id waiting).mp hWaiting).1
      have hStill := hSuperseded waiting hOld (List.mem_cons_of_mem id hId)
      unfold superseded at hStill ⊢
      rw [System.remove_data]
      exact hStill

theorem alarm?_of_kept {project : String} {task : Nat}
    (hKept : (after guardNames events).data.timers.waiting.get? project = some task)
    {waiting : Task Stage String} (hWaiting : waiting ∈ (after guardNames events).tasks)
    (hId : waiting.id = task) : ∃ alarm, waiting.stage.alarm? = some (project, alarm) := by
  obtain ⟨other, hOther, hOtherId, hAlarm⟩ :=
    (traced_after guardNames events).alive project task hKept
  have hSame := (tidy_after guardNames events).unique hWaiting hOther (hOtherId.trans hId.symm)
  exact hSame ▸ hAlarm

theorem superseded_of_alarm? {waiting : Task Stage String} {project : String} {alarm : Alarm}
    (hAlarm : waiting.stage.alarm? = some (project, alarm))
    (hNot : scheduler.data.timers.waiting.get? project ≠ some waiting.id) :
    superseded scheduler waiting = true := by
  unfold superseded
  rw [hAlarm]
  exact bne_iff_ne.mpr hNot

/-- To arm an alarm is to have it take the place of the one that is pending, and then to drop
the task of that one. -/
theorem arm_eq_after (guardNames : Option (List String)) (events : List Event) (project : String)
    (alarm : Alarm) :
    (after guardNames events).arm project alarm =
      after guardNames (events ++ .arm project alarm ::
        ((after guardNames events).data.timers.stale project).map .drop) := by
  rw [after_append]
  symm
  apply foldl_drop ((tidy_after guardNames events).happen (.arm project alarm))
  intro waiting hWaiting hStale
  have hKept := (Timers.mem_stale_iff _ project waiting.id).mp hStale
  have hOld : waiting ∈ (after guardNames events).tasks := by
    cases List.mem_append.mp hWaiting with
    | inl hOld => exact hOld
    | inr hNew =>
        -- The new task is not the one that was kept.
        obtain ⟨other, hOther, hId, _⟩ :=
          (traced_after guardNames events).alive project waiting.id hKept
        have hBelow := (tidy_after guardNames events).below other hOther
        rw [hId, List.mem_singleton.mp hNew] at hBelow
        exact absurd hBelow (Nat.lt_irrefl _)
  obtain ⟨which, hWhich⟩ := alarm?_of_kept hKept hOld rfl
  apply superseded_of_alarm? hWhich
  have hBelow := (tidy_after guardNames events).below waiting hOld
  intro hNew
  have hArmed := Timers.get?_arm (after guardNames events).data.timers project project
    (after guardNames events).nextId
  rw [if_pos rfl] at hArmed
  have hSame := Option.some.inj (hArmed.symm.trans hNew)
  omega

/-- To cancel the alarm of a project is to have none pending, and then to drop its task. -/
theorem cancel_eq_after (guardNames : Option (List String)) (events : List Event)
    (project : String) :
    ((after guardNames events).cancel project).1 =
      after guardNames (events ++ .cancel project ::
        ((after guardNames events).data.timers.stale project).map .drop) := by
  rw [after_append]
  symm
  unfold Scheduler.cancel Timers.stale
  cases hKept : (after guardNames events).data.timers.waiting.get? project with
  | none =>
      have hSame := Timers.cancel_of_absent hKept
      simp only [Option.toList_none, List.map_nil, List.foldl_cons, List.foldl_nil, happen,
        Scheduler.forget, Scheduler.mapTimers, hSame]
  | some task =>
      apply foldl_drop ((tidy_after guardNames events).happen (.cancel project))
      intro waiting hWaiting hId
      obtain ⟨which, hWhich⟩ := alarm?_of_kept hKept hWaiting (List.mem_singleton.mp hId)
      apply superseded_of_alarm? hWhich
      have hGone := Timers.get?_cancel (after guardNames events).data.timers project project
      rw [if_pos rfl] at hGone
      intro hStill
      cases hGone.symm.trans hStill

theorem cancelAll_eq_after (guardNames : Option (List String)) (events : List Event) :
    (after guardNames events).cancelAll =
      after guardNames (events ++ .cancelAll ::
        (after guardNames events).data.timers.all.map .drop) := by
  rw [after_append]
  symm
  apply foldl_drop ((tidy_after guardNames events).happen .cancelAll)
  intro waiting hWaiting hAll
  obtain ⟨project, hKept⟩ := Timers.exists_of_mem_all hAll
  obtain ⟨which, hWhich⟩ := alarm?_of_kept hKept hWaiting rfl
  apply superseded_of_alarm? hWhich
  intro hStill
  cases hStill

theorem dropTasks_gone {ids : List Nat} {id : Nat} (hId : id ∈ ids) :
    ∀ waiting ∈ (scheduler.dropTasks ids).tasks, waiting.id ≠ id := by
  intro waiting hWaiting hSame
  unfold Scheduler.dropTasks at hWaiting
  rw [System.foldl_remove_tasks] at hWaiting
  have hKept := (List.mem_filter.mp hWaiting).2
  simp [hSame, hId] at hKept

section

variable {project : String} {id : Nat}

theorem arm_gone (hKept : scheduler.data.timers.waiting.get? project = some id) (alarm : Alarm) :
    ∀ waiting ∈ (scheduler.arm project alarm).tasks, waiting.id ≠ id :=
  dropTasks_gone ((Timers.mem_stale_iff _ project id).mpr hKept)

theorem cancel_gone (hKept : scheduler.data.timers.waiting.get? project = some id) :
    ∀ waiting ∈ (scheduler.cancel project).1.tasks, waiting.id ≠ id := by
  unfold Scheduler.cancel
  rw [hKept]
  exact dropTasks_gone (List.mem_singleton_self id)

theorem cancelAll_gone (hKept : scheduler.data.timers.waiting.get? project = some id) :
    ∀ waiting ∈ scheduler.cancelAll.tasks, waiting.id ≠ id :=
  dropTasks_gone (Timers.mem_all_of_kept hKept)

end

/-! ### Time that passes -/

/-- Nothing is asked for: time passes, or tasks take turns. -/
def Event.Unasked : Event → Prop
  | .pass _ => True
  | .reorder _ => True
  | .poll _ _ => True
  | _ => False

def TurnsLead (first later : Scheduler) : Prop :=
  ∃ turns : List Event, (∀ event ∈ turns, event.Unasked) ∧ turns.foldl happen first = later

theorem TurnsLead.refl (scheduler : Scheduler) : TurnsLead scheduler scheduler :=
  ⟨[], List.forall_mem_nil _, rfl⟩

theorem TurnsLead.happen {first : Scheduler} (hLead : TurnsLead first scheduler) (event : Event)
    (hUnasked : event.Unasked) : TurnsLead first (happen scheduler event) := by
  obtain ⟨turns, hTurns, hLater⟩ := hLead
  refine ⟨turns ++ [event], ?_, ?_⟩
  · intro other hOther
    cases List.mem_append.mp hOther with
    | inl hEarlier => exact hTurns other hEarlier
    | inr hLast =>
        rw [List.mem_singleton.mp hLast]
        exact hUnasked
  · rw [List.foldl_append, hLater]
    rfl

theorem TurnsLead.reorder {first : Scheduler} (hLead : TurnsLead first scheduler)
    (ready : List Nat) : TurnsLead first { scheduler with ready := ready } :=
  hLead.happen (.reorder ready) trivial

theorem TurnsLead.clock {first : Scheduler} (hLead : TurnsLead first scheduler) (time : Nat) :
    TurnsLead first { scheduler with now := max scheduler.now time } := by
  have hPass : scheduler.now + (time - scheduler.now) = max scheduler.now time := by omega
  rw [← hPass]
  exact hLead.happen (.pass (time - scheduler.now)) trivial

section

variable (leave? : String → Id (Option Leave))

theorem ensures_poll_iff {id : Nat} {waiting : Task Stage String} (rest : List Nat)
    (hTask : scheduler.task? id = some waiting) (property : Scheduler → Prop) :
    Ensures ⌜True⌝ (({ scheduler with ready := rest } : Scheduler).poll program leave? waiting)
        property ↔
      property (pollTask { scheduler with ready := rest } id leave?) := by
  have hThere : ({ scheduler with ready := rest } : Scheduler).task? id = some waiting := hTask
  rw [ensures_id_iff]
  unfold pollTask
  rw [hThere]
  rfl

theorem keeps_turnsLead (first : Scheduler) :
    System.Keeps program leave? ⌜True⌝ (TurnsLead first) where
  skip _ _ rest hLead _ _ := hLead.reorder rest
  poll earlier id rest waiting hLead _ hTask := by
    rw [ensures_poll_iff leave? rest hTask]
    exact (hLead.reorder rest).happen (.poll id leave?) trivial
  move earlier due hLead _ := by
    obtain ⟨woken, hMove, _⟩ := earlier.moveTo_eq due
    rw [hMove]
    exact (hLead.clock due).reorder _
  pass earlier target hLead _ := hLead.clock target

theorem winds_tidy :
    System.Winds program leave? ⌜True⌝ (fun _ _ => True) Tidy fun _ stage => stage.turnsLeft where
  skip _ _ _ hTidy _ _ := hTidy.congr rfl rfl rfl rfl
  poll earlier id rest waiting hTidy _ hTask := by
    have hWithout : Tidy { earlier with ready := rest } := hTidy.congr rfl rfl rfl rfl
    rw [ensures_poll_iff leave? rest hTask]
    exact hWithout.poll id leave?
  move earlier due hTidy _ := by
    obtain ⟨woken, hMove, _⟩ := earlier.moveTo_eq due
    rw [hMove]
    exact hTidy.congr rfl rfl rfl rfl
  pass _ _ hTidy _ := hTidy.congr rfl rfl rfl rfl
  answers holder := (ensures_id_iff _ _).mpr fun _ _ => trivial
  unasked _ _ := trivial
  found earlier hTidy waiting hWaiting :=
    (hTidy.task?_eq_some_iff waiting.id waiting).mpr ⟨hWaiting, rfl⟩
  locks _ hTidy := hTidy.locks
  owned _ hTidy := hTidy.owned
  least _ stage := stage.turnsLeft_pos
  most _ stage := by
    cases stage <;> simp [Stage.turnsLeft]
  resume earlier ready locks id waiting answer? hTidy hTask _ := by
    obtain ⟨data, next, hTurn, _⟩ :=
      resume_plain waiting.id earlier.nextId waiting.stage answer? earlier.data
    have hFewer := turnsLeft_turn { earlier with ready := ready, locks := locks } hTidy.ids
      hTidy.below ((hTidy.task?_eq_some_iff id waiting).mp hTask).1 earlier.nextId answer?
    have hResume : program.resume waiting.id earlier.nextId waiting.stage answer? earlier.data =
      { data := data, next := next } := hTurn
    dsimp only
    rw [hResume]
    rw [hTurn] at hFewer
    exact hFewer

/-- The tasks that are ready take turns until none is. -/
theorem exists_turns_settle (guardNames : Option (List String)) (events : List Event) :
    ∃ turns : List Event, (∀ event ∈ turns, event.Unasked) ∧
      after guardNames (events ++ turns) =
        Id.run ((after guardNames events).wakeAskers.settle program leave?) ∧
      (after guardNames (events ++ turns)).ready = [] ∧
        (after guardNames (events ++ turns)).now = (after guardNames events).now := by
  obtain ⟨woken, hWake⟩ := (after guardNames events).wakeAskers_eq
  rw [hWake]
  have hTidy : Tidy { after guardNames events with
      ready := (after guardNames events).ready ++ woken } :=
    (tidy_after guardNames events).congr rfl rfl rfl rfl
  obtain ⟨turns, hTurns, hLater⟩ := (ensures_id_iff _ _).mp
    ((keeps_turnsLead leave? (after guardNames events)).settle ((TurnsLead.refl _).reorder _))
  obtain ⟨_, hReady, hNow, _⟩ := (ensures_id_iff _ _).mp ((winds_tidy leave?).settle hTidy)
  rw [← after_append] at hLater
  rw [← hLater] at hReady hNow
  exact ⟨turns, hTurns, hLater, hReady, hNow⟩

/-- Time passes as far as it was told to, and no alarm sleeps past its time. -/
theorem exists_turns_advance (guardNames : Option (List String)) (events : List Event)
    (duration : Nat) :
    ∃ turns : List Event, (∀ event ∈ turns, event.Unasked) ∧
      after guardNames (events ++ turns) =
        Id.run (System.advance program leave? duration (after guardNames events)) ∧
      (after guardNames (events ++ turns)).now = (after guardNames events).now + duration ∧
        (∀ waiting ∈ (after guardNames (events ++ turns)).tasks, ∀ due,
          waiting.wait = .clock due → (after guardNames (events ++ turns)).now < due) ∧
        ((after guardNames events).ready = [] →
          (after guardNames (events ++ turns)).ready = []) := by
  obtain ⟨turns, hTurns, hLater⟩ := (ensures_id_iff _ _).mp
    ((keeps_turnsLead leave? (after guardNames events)).advance (TurnsLead.refl _) duration)
  obtain ⟨_, hNow, hAwake, hReady⟩ := (ensures_id_iff _ _).mp
    ((winds_tidy leave?).advance (tidy_after guardNames events) duration)
  rw [← after_append] at hLater
  rw [← hLater] at hNow hAwake hReady
  exact ⟨turns, hTurns, hLater, hNow, hAwake, hReady⟩

end

end BuildWatch.Tasks.Alarms
