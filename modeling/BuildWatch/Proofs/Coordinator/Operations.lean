import BuildWatch.Proofs.Coordinator.PromptRuns
import BuildWatch.Proofs.Coordinator.Rest

/-!
What a coordinator is asked to do, as events of a run: the call that is made, and then turns
with nothing else asked for.  As the tasks rest whenever time passes, every event of such a run
is prompt; so what is shown of runs holds of a coordinator at work.
-/

namespace BuildWatch

open BuildWatch.Tasks
open Std.Do

namespace Coordinator

variable {circumstances : Circumstances} {options : CoordinatorOptions}
variable {system : CoordinatorSystem} {run : Run} {calls : List Event}

/-! ### Runs behind a coordinator -/

/-- Whether something is asked for; else time passes, or tasks take turns. -/
def Event.asks : Event → Bool
  | .update _ | .notify _ | .shutdown => true
  | .pass _ | .reorder _ | .poll _ _ => false

def Run.coordinator (options : CoordinatorOptions) (run : Run) : Coordinator :=
  { options := options, system := run.system }

/-- After a run some calls lead to a coordinator, with turns behind them and nothing else that
is asked for.  Time passes only as long as no task can do anything. -/
def Run.LeadsTo (circumstances : Circumstances) (options : CoordinatorOptions) (run : Run)
    (calls : List Event) (coordinator : Coordinator) : Prop :=
  ∃ turns : List Event, (∀ event ∈ turns, event.asks = false ∧ event.Within circumstances) ∧
    run.Always options (calls ++ turns) (fun system event => event.Prompt system) ∧
      (run.extend options (calls ++ turns)).coordinator options = coordinator

theorem Run.leadsTo_self :
    run.LeadsTo circumstances options [] (run.coordinator options) :=
  ⟨[], List.forall_mem_nil _, Run.always_nil, rfl⟩

theorem Run.leadsTo_call {event : Event} (hPrompt : ∀ system, event.Prompt system)
    (hTaken : happen options run.system event = system) :
    run.LeadsTo circumstances options [event] { options := options, system := system } := by
  refine ⟨[], List.forall_mem_nil _, ?_, ?_⟩
  · exact Run.always_cons_iff.mpr ⟨hPrompt run.system, Run.always_nil⟩
  · exact congrArg (Coordinator.mk options) hTaken

theorem Run.LeadsTo.happen
    (hLead : run.LeadsTo circumstances options calls { options := options, system := system })
    (event : Event) (hUnasked : event.asks = false) (hWithin : event.Within circumstances)
    (hPrompt : event.Prompt system) :
    run.LeadsTo circumstances options calls
      { options := options, system := happen options system event } := by
  obtain ⟨turns, hTurns, hAlways, hLater⟩ := hLead
  have hSystem : (run.extend options (calls ++ turns)).system = system :=
    congrArg Coordinator.system hLater
  refine ⟨turns ++ [event], ?_, ?_, ?_⟩
  · intro other hOther
    cases List.mem_append.mp hOther with
    | inl hEarlier => exact hTurns other hEarlier
    | inr hLast =>
        rw [List.mem_singleton.mp hLast]
        exact ⟨hUnasked, hWithin⟩
  · rw [← List.append_assoc]
    apply hAlways.concat
    rw [hSystem]
    exact hPrompt
  · rw [← List.append_assoc, Run.extend_append, ← hSystem]
    rfl

theorem Run.LeadsTo.reorder
    (hLead : run.LeadsTo circumstances options calls { options := options, system := system })
    (ready : List Nat) :
    run.LeadsTo circumstances options calls
      { options := options, system := { system with ready := ready } } :=
  hLead.happen (.reorder ready) rfl trivial trivial

/-! ### Time that passes -/

theorem Attentive.resting (hAttentive : Attentive circumstances options system)
    (hReady : system.ready = []) {duration : Nat}
    (hDuration : ∀ task ∈ system.tasks, ∀ due, task.wait = .clock due →
      system.now < due → system.now + duration ≤ due) : Resting system duration := by
  intro task hTask
  have hIdle := (hAttentive.awake task hTask).resolve_left (hReady ▸ List.not_mem_nil)
  unfold mayWait
  rcases hIdle with ⟨due, hWait, hDue⟩ | ⟨operation, changes, hWait⟩
  · rw [hWait]
    exact decide_eq_true (hDuration task hTask due hWait hDue)
  · rw [hWait]

theorem Run.LeadsTo.clock
    (hLead : run.LeadsTo circumstances options calls { options := options, system := system })
    (hAttentive : Attentive circumstances options system) (hReady : system.ready = []) {time : Nat}
    (hTime : ∀ task ∈ system.tasks, ∀ due, task.wait = .clock due → time ≤ due) :
    run.LeadsTo circumstances options calls
      { options := options, system := { system with now := max system.now time } } := by
  have hPass : system.now + (time - system.now) = max system.now time := by omega
  have hResting : Resting system (time - system.now) := by
    refine hAttentive.resting hReady fun task hTask due hWait hDue => ?_
    have hLater := hTime task hTask due hWait
    omega
  rw [← hPass]
  exact hLead.happen (.pass (time - system.now)) rfl trivial hResting

section

variable {World : Type} {kept : World → Prop} {surrounding : Surrounding (StateM World)}
variable (hSurrounding : surrounding.Within circumstances kept)
variable {world : World} (hKept : kept world)

include hSurrounding

theorem keepsTurns_leadsTo (run : Run) (calls : List Event) :
    System.KeepsTurns (program options) surrounding.answer (fun world => ⌜kept world⌝)
      fun later => run.LeadsTo circumstances options calls
        { options := options, system := later } :=
  keepsTurns_of_poll hSurrounding (fun _ ready hLead => hLead.reorder ready)
    fun _ id moment hLead hWithin => hLead.happen (.poll id moment) rfl hWithin trivial

include hKept

theorem Run.LeadsTo.settle {coordinator : Coordinator}
    (hLead : run.LeadsTo circumstances options calls coordinator) :
    let settled := (coordinator.settle surrounding).run world
    run.LeadsTo circumstances options calls settled.1 ∧ kept settled.2 := by
  obtain ⟨own, system⟩ := coordinator
  obtain rfl : options = own := by
    obtain ⟨_, _, _, hLater⟩ := hLead
    exact congrArg Coordinator.options hLater
  obtain ⟨woken, hWake⟩ := system.wakeAskers_eq
  have hSettled := (ensures_state_iff kept _ _).mp
    ((keepsTurns_leadsTo hSurrounding run calls).settle
      (hLead.reorder (system.ready ++ woken))) world hKept
  rw [← hWake] at hSettled
  exact hSettled

/-! ### What a coordinator is asked to do -/

variable (options)

/-- To submit a request is to make its call and to have the tasks take turns; its answer is
what is told of it then. -/
theorem Run.submit_leadsTo (run : Run) {event : Event} {stage : Stage}
    (hPrompt : ∀ system, event.Prompt system)
    (hTaken : Coordinator.happen options run.system event = run.system.spawn stage) :
    let submitted := ((run.coordinator options).submit surrounding stage).run world
    run.LeadsTo circumstances options [event] submitted.1.1 ∧
      submitted.1.2 = answerTo? submitted.1.1.state.history run.system.nextId ∧
        kept submitted.2 := by
  obtain ⟨hLead, hLater⟩ := (Run.leadsTo_call hPrompt hTaken).settle hSurrounding hKept
  exact ⟨hLead, rfl, hLater⟩

theorem Run.update_leadsTo (run : Run) (project : String) :
    let updated := ((run.coordinator options).update surrounding project).run world
    run.LeadsTo circumstances options [.update project] updated.1.1 ∧
      updated.1.2 = (if project.isEmpty then some (.error .missingProject)
        else answerTo? updated.1.1.state.history run.system.nextId) ∧ kept updated.2 := by
  dsimp only
  by_cases hNamed : project.isEmpty
  · have hUpdate : (run.coordinator options).update surrounding project =
        pure (run.coordinator options, some (.error .missingProject)) := if_pos hNamed
    have hRefused : (Event.update project).call? = none := if_pos hNamed
    rw [hUpdate, if_pos hNamed]
    exact ⟨Run.leadsTo_call (fun _ => trivial) (congrArg (takeCall run.system) hRefused), rfl,
      hKept⟩
  · have hUpdate : (run.coordinator options).update surrounding project =
        (run.coordinator options).submit surrounding (.update project) := if_neg hNamed
    have hTaken : (Event.update project).call? = some (.update project) := if_neg hNamed
    rw [hUpdate, if_neg hNamed]
    exact run.submit_leadsTo options hSurrounding hKept (fun _ => trivial)
      (congrArg (takeCall run.system) hTaken)

theorem Run.notify_leadsTo (run : Run) (notification : ChangeNotification) :
    let notified := ((run.coordinator options).notify surrounding notification).run world
    run.LeadsTo circumstances options [.notify notification] notified.1.1 ∧
      notified.1.2 = (if notification.change?.isNone then some (.error .missingFields)
        else answerTo? notified.1.1.state.history run.system.nextId) ∧ kept notified.2 := by
  dsimp only
  have hCall : (Event.notify notification).call? = notification.change?.map Call.notify := rfl
  unfold Coordinator.notify
  cases hChange : notification.change? with
  | none =>
      rw [hChange] at hCall
      exact ⟨Run.leadsTo_call (fun _ => trivial) (congrArg (takeCall run.system) hCall), rfl, hKept⟩
  | some change =>
      rw [hChange] at hCall
      exact run.submit_leadsTo options hSurrounding hKept (fun _ => trivial)
        (congrArg (takeCall run.system) hCall)

theorem Run.advance_leadsTo (run : Run)
    (hQuiescent : Quiescent circumstances (run.coordinator options)) (duration : Nat) :
    let advanced := ((run.coordinator options).advance surrounding duration).run world
    run.LeadsTo circumstances options [] advanced.1 ∧ kept advanced.2 := by
  refine (ensures_state_iff kept _ _).mp ((winds_attentive options hSurrounding).advance_along
    (keepsTurns_leadsTo hSurrounding run []) ?_ ?_ hQuiescent.attentive hQuiescent.ready
    Run.leadsTo_self duration) world hKept
  · intro earlier due hAttentive hReady hNext hLead
    obtain ⟨woken, hMove, _⟩ := earlier.moveTo_eq due
    rw [hMove]
    refine (hLead.clock hAttentive hReady fun task hTask other hWait => ?_).reorder _
    exact ((earlier.nextDue?_eq_some_iff due).mp hNext).2 task hTask other hWait
  · intro earlier target hAttentive hReady hNext hLead
    refine hLead.clock hAttentive hReady fun task hTask due hWait => ?_
    exact Nat.le_of_lt (System.lt_of_nextDue? hNext hTask hWait)

omit hSurrounding hKept in
theorem Run.shutdown_leadsTo (run : Run) :
    run.LeadsTo circumstances options [.shutdown] (run.coordinator options).shutdown :=
  Run.leadsTo_call (fun _ => trivial) rfl

end

/-! ### A coordinator at work -/

/-- What a coordinator is given to do. -/
inductive Command (World : Type) where
  | update (project : String)
  | notify (notification : ChangeNotification)
  | shutdown
  | advance (duration : Nat)
  /-- The surroundings change, and the tasks that wait for answers look again. -/
  | change (later : World → World)

variable {World : Type}

def Command.perform (surrounding : Surrounding (StateM World)) (coordinator : Coordinator) :
    Command World → StateM World Coordinator
  | .update project => return (← coordinator.update surrounding project).1
  | .notify notification => return (← coordinator.notify surrounding notification).1
  | .shutdown => return coordinator.shutdown
  | .advance duration => coordinator.advance surrounding duration
  | .change later => do
      modify later
      coordinator.settle surrounding

def performAll (surrounding : Surrounding (StateM World)) :
    List (Command World) → Coordinator → StateM World Coordinator
  | [], coordinator => return coordinator
  | command :: rest, coordinator => do
      performAll surrounding rest (← command.perform surrounding coordinator)

def Command.event? : Command World → Option Event
  | .update project => some (.update project)
  | .notify notification => some (.notify notification)
  | .shutdown => some .shutdown
  | .advance _ | .change _ => none

def Command.Fits (circumstances : Circumstances) (kept : World → Prop) : Command World → Prop
  | .shutdown => circumstances.shutdown
  | .change later => ∀ world, kept world → kept (later world)
  | .update _ | .notify _ | .advance _ => True

theorem Command.event?_within (command : Command World) {kept : World → Prop}
    (hFits : command.Fits circumstances kept) {event : Event} (hEvent : event ∈ command.event?) :
    event.Within circumstances := by
  cases command with
  | shutdown =>
      cases hEvent
      exact hFits
  | advance | change => cases hEvent
  | update | notify =>
      cases hEvent
      trivial

theorem Command.filter_asks (command : Command World) :
    command.event?.toList.filter Event.asks = command.event?.toList := by
  cases command <;> rfl

section

variable {kept : World → Prop} {surrounding : Surrounding (StateM World)}
variable (hSurrounding : surrounding.Within circumstances kept)

include hSurrounding

theorem Command.perform_leadsTo (command : Command World) (hFits : command.Fits circumstances kept)
    {world : World} (hKept : kept world)
    (hQuiescent : Quiescent circumstances (run.coordinator options)) :
    let done := (command.perform surrounding (run.coordinator options)).run world
    run.LeadsTo circumstances options command.event?.toList done.1 ∧
      Quiescent circumstances done.1 ∧ kept done.2 := by
  cases command with
  | update project =>
      obtain ⟨hLead, _, hLater⟩ :=
        run.update_leadsTo options hSurrounding hKept project
      exact ⟨hLead, (hQuiescent.update hSurrounding hKept project).1, hLater⟩
  | notify notification =>
      obtain ⟨hLead, _, hLater⟩ :=
        run.notify_leadsTo options hSurrounding hKept notification
      exact ⟨hLead, (hQuiescent.notify hSurrounding hKept notification).1, hLater⟩
  | shutdown => exact ⟨run.shutdown_leadsTo options, hQuiescent.shutdown hFits, hKept⟩
  | advance duration =>
      obtain ⟨hLead, hLater⟩ := run.advance_leadsTo options hSurrounding hKept hQuiescent duration
      exact ⟨hLead, (hQuiescent.advance hSurrounding hKept duration).1, hLater⟩
  | change later =>
      have hChanged := hFits world hKept
      have hSelf : run.LeadsTo circumstances options [] (run.coordinator options) :=
        Run.leadsTo_self
      obtain ⟨hLead, hLater⟩ := hSelf.settle hSurrounding hChanged
      exact ⟨hLead, (hQuiescent.attentive.settle hSurrounding hChanged).1, hLater⟩

/-- Whatever a coordinator is given to do, it does in a run in which just that is asked for, and
in which time passes only as long as no task can do anything. -/
theorem performAll_extends (commands : List (Command World))
    (hFits : ∀ command ∈ commands, command.Fits circumstances kept) {world : World}
    (hKept : kept world) (hQuiescent : Quiescent circumstances (run.coordinator options)) :
    let done := (performAll surrounding commands (run.coordinator options)).run world
    (∃ events : List Event, (∀ event ∈ events, event.Within circumstances) ∧
      run.Always options events (fun system event => event.Prompt system) ∧
        events.filter Event.asks = commands.filterMap Command.event? ∧
          (run.extend options events).coordinator options = done.1) ∧
      Quiescent circumstances done.1 ∧ kept done.2 := by
  induction commands generalizing run world with
  | nil => exact ⟨⟨[], List.forall_mem_nil _, Run.always_nil, rfl, rfl⟩, hQuiescent, hKept⟩
  | cons command rest ih =>
      have hFirst := hFits command List.mem_cons_self
      obtain ⟨⟨turns, hTurns, hPrompt, hLater⟩, hRests, hWorld⟩ :=
        command.perform_leadsTo hSurrounding hFirst hKept hQuiescent
      rw [← hLater] at hRests
      obtain ⟨⟨events, hWithin, hAlways, hAsked, hDone⟩, hEnd⟩ :=
        ih (fun other hOther => hFits other (List.mem_cons_of_mem command hOther)) hWorld hRests
      rw [hLater] at hDone hEnd
      refine ⟨⟨command.event?.toList ++ turns ++ events, ?_, hPrompt.append hAlways, ?_, ?_⟩, hEnd⟩
      · intro event hEvent
        simp only [List.mem_append, Option.mem_toList] at hEvent
        rcases hEvent with (hCall | hTurn) | hRest
        · exact command.event?_within hFirst hCall
        · exact (hTurns event hTurn).2
        · exact hWithin event hRest
      · have hNone : turns.filter Event.asks = [] :=
          List.filter_eq_nil_iff.mpr fun event hEvent => by simp [(hTurns event hEvent).1]
        rw [List.filter_append, List.filter_append, hNone, hAsked, command.filter_asks]
        cases hEvent : command.event? <;> simp [hEvent]
      · rw [Run.extend_append]
        exact hDone

end

end Coordinator

end BuildWatch
