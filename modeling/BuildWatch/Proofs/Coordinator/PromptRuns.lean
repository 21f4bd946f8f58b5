import BuildWatch.Proofs.Coordinator.BuildTasks
import BuildWatch.Proofs.Coordinator.Expiries
import BuildWatch.Proofs.Coordinator.Progress
import BuildWatch.Proofs.Histories
import Mathlib.Data.List.Induction

/-!
Runs in which time passes only when nothing is left to do.  Lookups take no time then, and a
task is resumed at the very moment it has what it waits for; so the task of a timer that is
kept stands where the time that has passed since it was armed says.
-/

namespace BuildWatch

open BuildWatch.Tasks

namespace Coordinator

/-! ### Every event at its moment -/

theorem Run.system_after_concat (options : CoordinatorOptions) (events : List Event)
    (event : Event) :
    (Run.after options (events ++ [event])).system =
      happen options (Run.after options events).system event := by
  rw [Run.after_append]
  rfl

/-- Every event of a run fits the moment at which it comes. -/
def Run.Always (options : CoordinatorOptions) (start : Run) (events : List Event)
    (fits : CoordinatorSystem → Event → Prop) : Prop :=
  ∀ before event after, events = before ++ event :: after →
    fits (start.extend options before).system event

theorem Run.Always.left {options : CoordinatorOptions} {start : Run} {events more : List Event}
    {fits : CoordinatorSystem → Event → Prop}
    (hAlways : start.Always options (events ++ more) fits) : start.Always options events fits := by
  intro before event after hSplit
  apply hAlways before event (after ++ more)
  rw [hSplit, List.append_assoc]
  rfl

theorem Run.Always.last {options : CoordinatorOptions} {start : Run} {events : List Event}
    {event : Event} {fits : CoordinatorSystem → Event → Prop}
    (hAlways : start.Always options (events ++ [event]) fits) :
    fits (start.extend options events).system event :=
  hAlways events event [] rfl

theorem Run.always_nil {options : CoordinatorOptions} {start : Run}
    {fits : CoordinatorSystem → Event → Prop} : start.Always options [] fits := by
  intro before event after hSplit
  cases before <;> cases hSplit

theorem Run.always_cons_iff {options : CoordinatorOptions} {start : Run} {event : Event}
    {events : List Event} {fits : CoordinatorSystem → Event → Prop} :
    start.Always options (event :: events) fits ↔
      fits start.system event ∧ (start.step options event).Always options events fits := by
  constructor
  · intro hAlways
    constructor
    · exact hAlways [] event events rfl
    · intro before other after hSplit
      apply hAlways (event :: before) other after
      rw [hSplit]
      rfl
  · intro hBoth before other after hSplit
    cases before with
    | nil =>
        cases hSplit
        exact hBoth.1
    | cons first rest =>
        cases hSplit
        exact hBoth.2 rest other after rfl

instance Run.decidableAlways (options : CoordinatorOptions)
    (fits : CoordinatorSystem → Event → Prop) [∀ system event, Decidable (fits system event)] :
    (start : Run) → (events : List Event) → Decidable (start.Always options events fits)
  | _, [] => isTrue Run.always_nil
  | start, event :: events =>
      have : Decidable ((start.step options event).Always options events fits) :=
        Run.decidableAlways options fits (start.step options event) events
      decidable_of_iff _ Run.always_cons_iff.symm

theorem Run.Always.concat {options : CoordinatorOptions} {start : Run} {events : List Event}
    {event : Event} {fits : CoordinatorSystem → Event → Prop}
    (hAlways : start.Always options events fits)
    (hLast : fits (start.extend options events).system event) :
    start.Always options (events ++ [event]) fits := by
  intro before middle after hSplit
  rcases split_concat hSplit with ⟨_, rfl, rfl⟩ | ⟨rest, _, hEarlier⟩
  · exact hLast
  · exact hAlways before middle rest hEarlier

theorem Run.Always.append {options : CoordinatorOptions} {start : Run} {events more : List Event}
    {fits : CoordinatorSystem → Event → Prop} (hAlways : start.Always options events fits)
    (hMore : (start.extend options events).Always options more fits) :
    start.Always options (events ++ more) fits := by
  induction events generalizing start with
  | nil => exact hMore
  | cons event rest ih =>
      obtain ⟨hFirst, hRest⟩ := Run.always_cons_iff.mp hAlways
      exact Run.always_cons_iff.mpr ⟨hFirst, ih hRest hMore⟩

/-! ### Time that passes -/

/-- Whether a task can do nothing for some time; a lookup takes none. -/
def mayWait (system : CoordinatorSystem) (duration : Nat) (task : Task Stage Query) : Bool :=
  match task.wait with
  | .turn => false
  | .clock due => system.now + duration ≤ due
  | .locks => !(system.locks.settle task.id).holds task.id
  | .answer (.lookUp _) => false
  | .answer _ => true

/-- No task can do anything for some time. -/
def Resting (system : CoordinatorSystem) (duration : Nat) : Prop :=
  ∀ task ∈ system.tasks, mayWait system duration task = true

instance (system : CoordinatorSystem) (duration : Nat) : Decidable (Resting system duration) :=
  inferInstanceAs (Decidable (∀ task ∈ system.tasks, mayWait system duration task = true))

/-- Time passes only as long as no task can do anything. -/
def Event.Prompt (system : CoordinatorSystem) : Event → Prop
  | .pass duration => Resting system duration
  | _ => True

instance (system : CoordinatorSystem) : (event : Event) → Decidable (event.Prompt system)
  | .pass duration => inferInstanceAs (Decidable (Resting system duration))
  | .update _ | .notify _ | .shutdown | .reorder _ | .poll _ _ => isTrue trivial

/-- While time may pass no task waits for locks: one of those that do could have its turn. -/
theorem Resting.no_locks {system : CoordinatorSystem} {duration : Nat}
    (hResting : Resting system duration) (hOrderly : system.Orderly)
    {task : Task Stage Query} (hTask : task ∈ system.tasks) : task.wait ≠ .locks := by
  intro hWait
  obtain ⟨claim, hClaim, _⟩ := (hOrderly.claimed task.id).mpr ⟨task, hTask, rfl, hWait⟩
  obtain ⟨owner, hClaimed, hHolds⟩ :=
    hOrderly.locks.exists_granted (List.ne_nil_of_mem hClaim)
  obtain ⟨holder, hHolder, hOwner, hHolderWait⟩ := (hOrderly.claimed owner).mp hClaimed
  have hIdle := hResting holder hHolder
  rw [mayWait, hHolderWait, hOwner] at hIdle
  simp only [hHolds, Bool.not_true] at hIdle
  cases hIdle

/-! ### When a timer was armed -/

def timer? (project : String) (system : CoordinatorSystem) : Option Nat :=
  system.data.timers.waiting.get? project

/-- The time at which the timer of a project was last armed or given up; for one that is kept
that is the time at which it was armed. -/
def lastArmedFrom (options : CoordinatorOptions) (project : String) :
    Run → Nat → List Event → Nat
  | _, last, [] => last
  | run, last, event :: rest =>
      let next := run.step options event
      lastArmedFrom options project next
        (if timer? project next.system = timer? project run.system then last
          else next.system.now) rest

def lastArmed (options : CoordinatorOptions) (project : String) (events : List Event) : Nat :=
  lastArmedFrom options project {} 0 events

theorem lastArmedFrom_concat (options : CoordinatorOptions) (project : String) (run : Run)
    (last : Nat) (events : List Event) (event : Event) :
    lastArmedFrom options project run last (events ++ [event]) =
      let before := run.extend options events
      let next := before.step options event
      if timer? project next.system = timer? project before.system then
        lastArmedFrom options project run last events
      else next.system.now := by
  induction events generalizing run last with
  | nil => rfl
  | cons first rest ih =>
      rw [List.cons_append, lastArmedFrom, ih]
      rfl

theorem lastArmed_concat (options : CoordinatorOptions) (project : String) (events : List Event)
    (event : Event) :
    lastArmed options project (events ++ [event]) =
      if timer? project (Run.after options (events ++ [event])).system =
          timer? project (Run.after options events).system then
        lastArmed options project events
      else (Run.after options (events ++ [event])).system.now := by
  rw [Run.after_append]
  exact lastArmedFrom_concat options project {} 0 events event

/-! ### Where the task of a timer stands -/

def Event.panicsTimer (timer : Nat) (system : CoordinatorSystem) : Event → Bool
  | .poll id surrounding =>
      (system.task? id).any fun task =>
        match task.stage with
        | .timerFound asked => id == timer && Lookup.panics (surrounding.lookUp asked)
        | _ => false
  | _ => false

/-- At some time in a run the task of a timer looked its project up, with this result. -/
def LookedUp (options : CoordinatorOptions) (project : String) (timer time : Nat)
    (events : List Event) (lookup : Lookup) : Prop :=
  ∃ before surrounding after, events = before ++ .poll timer surrounding :: after ∧
    (Run.after options before).system.now = time ∧
    ((Run.after options before).system.task? timer).map Task.stage = some (.timerFound project) ∧
      lookup = surrounding.lookUp project

theorem LookedUp.concat {options : CoordinatorOptions} {project : String} {timer time : Nat}
    {events : List Event} {lookup : Lookup}
    (hLooked : LookedUp options project timer time events lookup) (event : Event) :
    LookedUp options project timer time (events ++ [event]) lookup := by
  obtain ⟨before, surrounding, after, rfl, hNow, hStage, hLookup⟩ := hLooked
  refine ⟨before, surrounding, after ++ [event], ?_, hNow, hStage, hLookup⟩
  rw [List.append_assoc]
  rfl

/-- Where the task of a timer stands that was armed at some time and is kept after a run. -/
inductive Stands (options : CoordinatorOptions) (project : String) (timer armed : Nat)
    (events : List Event) : Stage → Wait Query → Prop where
  | begins (hNow : (Run.after options events).system.now = armed) :
      Stands options project timer armed events (.timer project) .turn
  | sleeps (hNow : (Run.after options events).system.now ≤ armed + options.quietPeriod) :
      Stands options project timer armed events (.timerElapsed project)
        (.clock (armed + options.quietPeriod))
  | asks (hNow : (Run.after options events).system.now = armed + options.quietPeriod) :
      Stands options project timer armed events (.timerFound project)
        (.answer (.lookUp project))
  | claims (lookup : Lookup)
      (hNow : (Run.after options events).system.now = armed + options.quietPeriod)
      (hLooked : LookedUp options project timer (armed + options.quietPeriod) events lookup)
      (hAnswered : lookup ≠ .panicked) :
      Stands options project timer armed events (.timerLocked project lookup) .locks

section

variable {circumstances : Circumstances} {options : CoordinatorOptions} {project : String}
variable {timer armed : Nat} {events : List Event}

theorem Stands.now_le {stage : Stage} {wait : Wait Query}
    (hStands : Stands options project timer armed events stage wait) :
    (Run.after options events).system.now ≤ armed + options.quietPeriod := by
  cases hStands with
  | begins hNow => omega
  | sleeps hNow => exact hNow
  | asks hNow => exact Nat.le_of_eq hNow
  | claims lookup hNow hLooked hAnswered => exact Nat.le_of_eq hNow

theorem Stands.stays {stage : Stage} {wait : Wait Query}
    (hStands : Stands options project timer armed events stage wait) {event : Event}
    (hNow : (Run.after options (events ++ [event])).system.now =
      (Run.after options events).system.now) :
    Stands options project timer armed (events ++ [event]) stage wait := by
  cases hStands with
  | begins hBegins => exact .begins (hNow.trans hBegins)
  | sleeps hSleeps => exact .sleeps (Nat.le_trans (Nat.le_of_eq hNow) hSleeps)
  | asks hAsks => exact .asks (hNow.trans hAsks)
  | claims lookup hClaims hLooked hAnswered =>
      exact .claims lookup (hNow.trans hClaims) (hLooked.concat event) hAnswered

theorem Stands.pass {task : Task Stage Query} {duration : Nat}
    (hStands : Stands options project timer armed events task.stage task.wait)
    (hTask : task ∈ (Run.after options events).system.tasks)
    (hOrderly : (Run.after options events).system.Orderly)
    (hResting : Resting (Run.after options events).system duration) :
    Stands options project timer armed (events ++ [.pass duration]) task.stage task.wait := by
  have hMayWait := hResting task hTask
  have hNoLocks := hResting.no_locks hOrderly hTask
  unfold mayWait at hMayWait
  generalize task.stage = stage at hStands ⊢
  generalize task.wait = wait at hStands hMayWait hNoLocks ⊢
  cases hStands with
  | begins hNow => cases hMayWait
  | sleeps hNow =>
      apply Stands.sleeps
      rw [Run.after_append]
      exact of_decide_eq_true hMayWait
  | asks hNow => cases hMayWait
  | claims lookup hNow hLooked hAnswered => exact absurd rfl hNoLocks

theorem pollTask_now (options : CoordinatorOptions) (system : CoordinatorSystem) (id : Nat)
    (surrounding : Surrounding Id) :
    (pollTask options system id surrounding).now = system.now := by
  rcases pollTask_cases options system id surrounding with ⟨locks, hPoll, _⟩ |
    ⟨locks, task, answer?, _, _, hPoll⟩
  · rw [hPoll]
  · rw [hPoll, System.applyTurn_now]

theorem pollTask_nextId (options : CoordinatorOptions) (system : CoordinatorSystem) (id : Nat)
    (surrounding : Surrounding Id) :
    system.nextId ≤ (pollTask options system id surrounding).nextId := by
  rcases pollTask_cases options system id surrounding with ⟨locks, hPoll, _⟩ |
    ⟨locks, task, answer?, _, _, hPoll⟩
  · rw [hPoll]
  · rw [hPoll, System.applyTurn_nextId]
    exact Nat.le_add_right _ _

theorem after_poll_now (options : CoordinatorOptions) (events : List Event) (id : Nat)
    (surrounding : Surrounding Id) :
    (Run.after options (events ++ [.poll id surrounding])).system.now =
      (Run.after options events).system.now := by
  rw [Run.after_append]
  exact pollTask_now options _ id surrounding

/-- Once its quiet period is over no time passes until the task of a timer has ended it. -/
theorem Stands.still {task : Task Stage Query} {duration : Nat}
    (hStands : Stands options project timer armed events task.stage task.wait)
    (hTask : task ∈ (Run.after options events).system.tasks)
    (hOrderly : (Run.after options events).system.Orderly)
    (hOver : (Run.after options events).system.now = armed + options.quietPeriod)
    (hResting : Resting (Run.after options events).system duration) : duration = 0 := by
  have hLater := (hStands.pass hTask hOrderly hResting).now_le
  rw [Run.after_append] at hLater
  change (Run.after options events).system.now + duration ≤ _ at hLater
  omega

/-- A turn of the task of a timer brings it on, unless it is the one that ends the quiet
period. -/
theorem Stands.resume {task : Task Stage Query} {surrounding : Surrounding Id}
    {answer? : Option Answer}
    (hStands : Stands options project task.id armed events task.stage task.wait)
    (hFound : (Run.after options events).system.task? task.id = some task)
    (hGrant : (Run.after options events).system.grant? surrounding.answer task = some answer?)
    (hAnswered : (Event.poll task.id surrounding).panicsTimer task.id
      (Run.after options events).system = false) (fresh : Nat) (data : CoordinatorState) :
    let turn := resume options task.id fresh task.stage answer? data
    (∃ lookup, task.stage = .timerLocked project lookup ∧ lookup ≠ .panicked ∧
        (Run.after options events).system.now = armed + options.quietPeriod ∧
          LookedUp options project task.id (armed + options.quietPeriod) events lookup) ∨
      turn.dropped = [] ∧ ∃ later, turn.next.stage? = some later ∧
        Stands options project task.id armed (events ++ [.poll task.id surrounding]) later
          (turn.next.wait (Run.after options events).system.now) := by
  have hNow := after_poll_now options events task.id surrounding
  obtain ⟨id, stage, wait, since⟩ := task
  dsimp only at hStands hFound hGrant hAnswered hNow ⊢
  cases hStands with
  | begins hBegins =>
      refine Or.inr ⟨rfl, .timerElapsed project, rfl, ?_⟩
      change Stands options project id armed _ _
        (.clock ((Run.after options events).system.now + options.quietPeriod))
      rw [hBegins]
      apply Stands.sleeps
      omega
  | sleeps hSleeps =>
      refine Or.inr ⟨rfl, .timerFound project, rfl, ?_⟩
      apply Stands.asks
      rw [hNow]
      by_contra hEarly
      have hLater : ¬ armed + options.quietPeriod ≤ (Run.after options events).system.now := by
        omega
      unfold System.grant? at hGrant
      simp only [if_neg hLater] at hGrant
      cases hGrant
  | asks hAsks =>
      have hAnswer : answer? = some (.lookup (surrounding.lookUp project)) :=
        (Option.some.inj hGrant).symm
      have hCalm : Lookup.panics (surrounding.lookUp project) = false := by
        simpa [Event.panicsTimer, hFound] using hAnswered
      subst hAnswer
      refine Or.inr ?_
      simp only [Coordinator.resume, Answer.toLookup]
      cases hLookup : surrounding.lookUp project with
      | panicked =>
          rw [hLookup] at hCalm
          cases hCalm
      | found info =>
          refine ⟨rfl, _, rfl, ?_⟩
          apply Stands.claims
          · exact hNow.trans hAsks
          · exact ⟨events, surrounding, [], rfl, hAsks, by rw [hFound]; rfl, hLookup.symm⟩
          · intro hPanicked
            cases hPanicked
      | failed error =>
          refine ⟨rfl, _, rfl, ?_⟩
          apply Stands.claims
          · exact hNow.trans hAsks
          · exact ⟨events, surrounding, [], rfl, hAsks, by rw [hFound]; rfl, hLookup.symm⟩
          · intro hPanicked
            cases hPanicked
  | claims lookup hClaims hLooked hNoPanic =>
      exact Or.inl ⟨lookup, rfl, hNoPanic, hClaims, hLooked⟩

/-! ### Timers from one moment to the next -/

variable {system : CoordinatorSystem} {task : Task Stage Query} {turn : CoordinatorTurn}

theorem exists_applyTurn_spawned (hBelow : task.id < system.nextId) {index : Nat} {stage : Stage}
    (hStage : turn.spawned[index]? = some stage) :
    ∃ new ∈ (system.applyTurn task.id turn).tasks, new.id = system.nextId + index ∧
      new.stage = stage ∧ new.wait = .turn := by
  obtain ⟨settled, since, hTurn, hTasks, _⟩ := system.applyTurn_eq task.id turn
  have hStarted (id since : Nat) (stages : List Stage) (index : Nat)
      (hIndex : stages[index]? = some stage) :
      ∃ new ∈ (System.started id since stages : List (Task Stage Query)),
        new.id = id + index ∧ new.stage = stage ∧ new.wait = .turn := by
    induction stages generalizing id since index with
    | nil => cases hIndex
    | cons first rest ih =>
        cases index with
        | zero =>
            refine ⟨_, List.mem_cons_self, rfl, ?_, rfl⟩
            exact Option.some.inj hIndex
        | succ index =>
            obtain ⟨new, hNew, hId, hRest⟩ := ih (id + 1) (since + 1) index hIndex
            refine ⟨new, List.mem_cons_of_mem _ hNew, ?_, hRest⟩
            omega
  obtain ⟨new, hNew, hId, hNewStage, hWait⟩ :=
    hStarted system.nextId since turn.spawned index hStage
  have hOther : new.id ≠ task.id := by omega
  have hSettled : new ∈ settled.tasks := by
    rw [hTasks]
    exact List.mem_append_right _ hNew
  refine ⟨new, ?_, hId, hNewStage, hWait⟩
  rw [hTurn, System.conclude_tasks]
  cases turn.next.stage? with
  | none => exact List.mem_filter.mpr ⟨hSettled, by simpa using hOther⟩
  | some later => exact List.mem_map.mpr ⟨new, hSettled, System.goOn_of_ne hOther⟩

/-- A timer that is kept after a turn is kept before it, and its task stays unless it is the one
that has the turn; or else it begins with the turn. -/
theorem Sound.kept_applyTurn (hSound : Sound circumstances options system)
    (hTask : task ∈ system.tasks)
    (hTurn : TurnSound circumstances options system.nextId task.stage system.data turn)
    (hForgets : TurnForgets system.data turn)
    (hKept : timer? project (system.applyTurn task.id turn) = some timer) :
    (timer? project system = some timer ∧ ∀ own ∈ system.tasks, own.id = timer →
        own.id ∉ turn.dropped ∧
          (own.id ≠ task.id → own ∈ (system.applyTurn task.id turn).tasks)) ∨
      (timer? project system ≠ some timer ∧
        ∃ new ∈ (system.applyTurn task.id turn).tasks, new.id = timer ∧
          new.stage = .timer project ∧ new.wait = .turn) := by
  unfold timer? at hKept ⊢
  rw [System.applyTurn_data] at hKept
  rcases hTurn.timers project timer hKept with hBefore | ⟨index, hStage, hId⟩
  · refine Or.inl ⟨hBefore, ?_⟩
    intro own hOwn hTimer
    have hStays : own.id ∉ turn.dropped := by
      intro hDropped
      obtain ⟨asked, hAsked, hGone⟩ := hForgets own.id hDropped
      have hQuiet := (hSound.timers project timer hBefore).2 own hOwn hTimer
      have hAlso := (hSound.timers asked own.id hAsked).2 own hOwn rfl
      have hSame : asked = project := Option.some.inj (hAlso.symm.trans hQuiet)
      apply hGone
      rw [hSame, hTimer]
      exact hKept
    exact ⟨hStays, fun hOther => System.mem_applyTurn_of_kept hOwn hOther hStays⟩
  · obtain ⟨new, hNew, hNewId, hNewStage, hWait⟩ :=
      exists_applyTurn_spawned (hSound.below task hTask) hStage
    refine Or.inr ⟨?_, new, hNew, hNewId.trans hId.symm, hNewStage, hWait⟩
    intro hBefore
    have hBelow := (hSound.timers project timer hBefore).1
    omega

theorem Sound.expiry_resume (hSound : Sound circumstances options system)
    (hTask : task ∈ system.tasks) {lookup : Lookup}
    (hStage : task.stage = .timerLocked project lookup) (hAnswered : lookup ≠ .panicked)
    (hKept : timer? project system = some task.id) (fresh : Nat) (answer? : Option Answer) :
    let turn := resume options task.id fresh task.stage answer? system.data
    turn.next = .finish ∧ turn.dropped = [] ∧
      Expiry lookup (system.data.share project) (turn.data.share project) turn.spawned := by
  have hInformed := hSound.informed task hTask
  rw [hStage] at hInformed ⊢
  refine ⟨rfl, elapse_expiry fresh hKept ?_ hAnswered⟩
  intro info hFound
  rw [hFound] at hInformed
  exact circumstances.faithful project info hInformed

theorem Expiry.timer_eq_none {lookup : Lookup} {before after : Share} {spawned : List Stage}
    (hExpiry : Expiry lookup before after spawned) : after.timer = none := by
  cases hExpiry <;> rfl

/-- The task of a timer that is kept stands where the time since it was armed says. -/
def Standing (options : CoordinatorOptions) (project : String) (timer : Nat)
    (events : List Event) : Prop :=
  timer? project (Run.after options events).system = some timer →
    ∃ task ∈ (Run.after options events).system.tasks, task.id = timer ∧
      Stands options project timer (lastArmed options project events) events task.stage task.wait

theorem lastArmed_of_kept {event : Event}
    (hBefore : timer? project (Run.after options events).system = some timer)
    (hAfter : timer? project (Run.after options (events ++ [event])).system = some timer) :
    lastArmed options project (events ++ [event]) = lastArmed options project events := by
  rw [lastArmed_concat, if_pos (hAfter.trans hBefore.symm)]

theorem Standing.congr {event : Event} (hStanding : Standing options project timer events)
    (hTasks : ∀ task ∈ (Run.after options events).system.tasks,
      task ∈ (Run.after options (events ++ [event])).system.tasks)
    (hTimers : timer? project (Run.after options (events ++ [event])).system =
      timer? project (Run.after options events).system)
    (hNow : (Run.after options (events ++ [event])).system.now =
      (Run.after options events).system.now) :
    Standing options project timer (events ++ [event]) := by
  intro hKept
  have hBefore := hTimers.symm.trans hKept
  obtain ⟨task, hTask, hId, hStands⟩ := hStanding hBefore
  refine ⟨task, hTasks task hTask, hId, ?_⟩
  rw [lastArmed_of_kept hBefore hKept]
  exact hStands.stays hNow

theorem Sound.standing_poll {id : Nat} {surrounding : Surrounding Id}
    (hSound : Sound circumstances options (Run.after options events).system)
    (hWithin : (Event.poll id surrounding).Within circumstances)
    (hAnswered : (Event.poll id surrounding).panicsTimer timer
      (Run.after options events).system = false)
    (hStanding : Standing options project timer events) :
    Standing options project timer (events ++ [.poll id surrounding]) := by
  have hNow := after_poll_now options events id surrounding
  have hStep : (Run.after options (events ++ [.poll id surrounding])).system =
      pollTask options (Run.after options events).system id surrounding :=
    Run.system_after_concat options events _
  rcases hSound.poll_cases hWithin with ⟨locks, hPoll, _⟩ |
    ⟨locks, task, answer?, hFound, hTask, hGrant, _, hLocked, hTurn, hPoll⟩
  · rw [hPoll] at hStep
    apply hStanding.congr
    · intro task hTask
      rw [hStep]
      exact hTask
    · rw [hStep]
      rfl
    · exact hNow
  · intro hKept
    rw [hPoll] at hStep
    have hBelow : ∀ asked kept, (Run.after options events).system.data.timers.waiting.get? asked =
        some kept → kept < (Run.after options events).system.nextId :=
      fun asked kept hAsked => (hSound.timers asked kept hAsked).1
    have hKeptAfter := hKept
    rw [hStep] at hKeptAfter
    rcases hLocked.kept_applyTurn hTask hTurn (resume_forgets options task.id _ task.stage answer?
      hBelow) hKeptAfter with ⟨hBefore, hStays⟩ | ⟨hNone, new, hNew, hId, hStage, hWait⟩
    · obtain ⟨own, hOwn, hOwnId, hStands⟩ := hStanding hBefore
      obtain ⟨hNotDropped, hRemains⟩ := hStays own hOwn hOwnId
      rw [lastArmed_of_kept hBefore hKept]
      by_cases hSelf : own.id = task.id
      · obtain rfl := List.inj_on_of_nodup_map hSound.ids hOwn hTask hSelf
        obtain rfl : own.id = id := ((hSound.task?_eq_some_iff id own).mp hFound).2
        subst hOwnId
        rcases hStands.resume hFound hGrant hAnswered (Run.after options events).system.nextId
          (Run.after options events).system.data with ⟨lookup, hStage, hLookup, _⟩ |
          ⟨_, later, hNext, hLater⟩
        · -- The timer would not be kept any more.
          obtain ⟨_, _, hExpiry⟩ := hSound.expiry_resume hTask hStage hLookup hBefore
            (Run.after options events).system.nextId answer?
          have hGone := hExpiry.timer_eq_none
          rw [hStep] at hKept
          unfold timer? at hKept
          rw [System.applyTurn_data] at hKept
          cases hGone.symm.trans hKept
        · have hMember : own ∈ ({ (Run.after options events).system with
              locks := locks } : CoordinatorSystem).tasks := hTask
          obtain ⟨resumed, hResumed, hResumedId, hStage, hWait⟩ :=
            System.exists_applyTurn_self hMember hNotDropped hNext
          refine ⟨resumed, ?_, hResumedId, ?_⟩
          · rw [hStep]
            exact hResumed
          · rw [hStage, hWait]
            exact hLater
      · refine ⟨own, ?_, hOwnId, hStands.stays hNow⟩
        rw [hStep]
        exact hRemains hSelf
    · have hChanged : timer? project (Run.after options (events ++ [.poll id surrounding])).system ≠
          timer? project (Run.after options events).system := by
        rw [hKept]
        exact fun hSame => hNone hSame.symm
      refine ⟨new, ?_, hId, ?_⟩
      · rw [hStep]
        exact hNew
      · rw [hStage, hWait, lastArmed_concat, if_neg hChanged]
        exact .begins rfl

theorem Sound.standing_concat {event : Event}
    (hSound : Sound circumstances options (Run.after options events).system)
    (hOrderly : (Run.after options events).system.Orderly)
    (hWithin : event.Within circumstances)
    (hPrompt : event.Prompt (Run.after options events).system)
    (hAnswered : event.panicsTimer timer (Run.after options events).system = false)
    (hStanding : Standing options project timer events) :
    Standing options project timer (events ++ [event]) := by
  have hStep := Run.system_after_concat options events event
  have hCall (call? : Option Call)
      (hTaken : (Run.after options (events ++ [event])).system =
        Coordinator.takeCall (Run.after options events).system call?) :
      Standing options project timer (events ++ [event]) := by
    cases call? with
    | none =>
        apply hStanding.congr
        · intro task hTask
          rw [hTaken]
          exact hTask
        · rw [hTaken]
          rfl
        · rw [hTaken]
          rfl
    | some call =>
        apply hStanding.congr
        · intro task hTask
          rw [hTaken]
          exact List.mem_append_left _ hTask
        · rw [hTaken]
          rfl
        · rw [hTaken]
          rfl
  cases event with
  | update asked => exact hCall _ hStep
  | notify notification => exact hCall _ hStep
  | shutdown =>
      intro hKept
      rw [hStep] at hKept
      simp only [timer?, Coordinator.happen, Coordinator.shutdown, System.foldl_remove_data]
        at hKept
      cases hKept
  | pass duration =>
      intro hKept
      have hBefore : timer? project (Run.after options events).system = some timer := by
        rw [hStep] at hKept
        exact hKept
      obtain ⟨task, hTask, hId, hStands⟩ := hStanding hBefore
      refine ⟨task, ?_, hId, ?_⟩
      · rw [hStep]
        exact hTask
      · rw [lastArmed_of_kept hBefore hKept]
        exact hStands.pass hTask hOrderly hPrompt
  | reorder ready =>
      apply hStanding.congr
      · intro task hTask
        rw [hStep]
        exact hTask
      · rw [hStep]
        rfl
      · rw [hStep]
        rfl
  | poll id surrounding => exact hSound.standing_poll hWithin hAnswered hStanding

/-- In every run in which time passes only when nothing can go on, the task of a timer that is
kept stands where the time since it was armed says, as long as its lookup has not panicked. -/
theorem Run.standing (options : CoordinatorOptions) (project : String) (timer : Nat)
    (events : List Event) (hEvents : ∀ event ∈ events, event.Within circumstances)
    (hPrompt : Run.Always options {} events fun system event => event.Prompt system)
    (hAnswered : Run.Always options {} events fun system event =>
      event.panicsTimer timer system = false) :
    Standing options project timer events := by
  induction events using List.reverseRecOn with
  | nil => exact nofun
  | append_singleton events last ih =>
      have hBefore : ∀ event ∈ events, event.Within circumstances :=
        fun event hEvent => hEvents event (List.mem_append_left _ hEvent)
      exact (Run.sound options events hBefore).standing_concat
        (Run.orderly options events hBefore)
        (hEvents last (List.mem_append_right _ List.mem_cons_self)) hPrompt.last hAnswered.last
        (ih hBefore hPrompt.left hAnswered.left)

end

end Coordinator

end BuildWatch
