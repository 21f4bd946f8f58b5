import BuildWatch.Proofs.Coordinator.Costs
import BuildWatch.Proofs.Coordinator.Execution
import BuildWatch.Proofs.Coordinator.Progress

/-!
A coordinator at rest.  A task that is not ready sleeps or waits for a build to end, and one
that waits for locks has the next turn, so it is granted them; hence by the time no task is
ready every request is answered.
-/

namespace BuildWatch

open BuildWatch.Tasks
open Std.Do

namespace Coordinator

variable {circumstances : Circumstances} {options : CoordinatorOptions}
variable {system : CoordinatorSystem}

/-! ### What no event disturbs -/

/-- What holds of the tasks of every run, in whatever order they have their turns. -/
structure WellKept (circumstances : Circumstances) (options : CoordinatorOptions)
    (system : CoordinatorSystem) : Prop where
  sound : Sound circumstances options system
  orderly : system.Orderly
  one : ∀ project, (systemView project system).OneBuild

theorem wellKept_start (circumstances : Circumstances) (options : CoordinatorOptions) :
    WellKept circumstances options ({ data := {} } : CoordinatorSystem) where
  sound := sound_start circumstances options
  orderly := System.orderly_start _
  one _ := ⟨Nat.zero_le 1, nofun⟩

theorem WellKept.congr (hKept : WellKept circumstances options system) {other : CoordinatorSystem}
    (hTasks : other.tasks = system.tasks) (hId : other.nextId = system.nextId)
    (hLocks : other.locks = system.locks) (hTimers : other.data.timers = system.data.timers)
    (hBuilds : other.data.builds = system.data.builds) : WellKept circumstances options other where
  sound := hKept.sound.congr hTasks hId hTimers
  orderly := hKept.orderly.congr hLocks hTasks
  one project := by
    have hOne := hKept.one project
    unfold systemView at hOne ⊢
    refine ⟨?_, ?_⟩
    · simpa only [View.of, hTasks] using hOne.one
    · simpa only [View.of, hTasks, hBuilds] using hOne.progress

theorem WellKept.happen (hKept : WellKept circumstances options system) {event : Event}
    (hWithin : event.Within circumstances) :
    WellKept circumstances options (happen options system event) where
  sound := hKept.sound.happen hWithin
  orderly := hKept.sound.orderly_happen hKept.orderly hWithin
  one project := by
    have hView := hKept.sound.happen_view hWithin (hKept.one project).one
    split at hView
    · exact (hKept.one project).advance hView
    · exact (hKept.one project).moves hView

/-! ### Tasks that are not ready -/

/-- A task sleeps until a time yet to come, or it waits for a build to end. -/
def Idle (now : Nat) (task : Task Stage Query) : Prop :=
  (∃ due, task.wait = .clock due ∧ now < due) ∨
    ∃ operation changes, task.wait = .answer (.build operation changes)

theorem call?_of_idle {now : Nat} {task : Task Stage Query}
    (hAwaits : task.stage.Awaits options task.wait) (hIdle : Idle now task) :
    task.stage.call? = none := by
  cases hStage : task.stage with
  | changeApplied chunk info =>
      rw [hStage] at hAwaits
      obtain ⟨settings, hWait⟩ := hAwaits
      rcases hIdle with ⟨due, hClock, _⟩ | ⟨operation, changes, hBuild⟩
      · cases hWait.symm.trans hClock
      · cases hWait.symm.trans hBuild
  | update | updateFound | updateLocked | change | changeFound | changeTimer | changeLoaded |
      changeRefreshed | changeBuffer | changeLocked =>
      rw [hStage] at hAwaits
      rcases hIdle with ⟨due, hClock, _⟩ | ⟨operation, changes, hBuild⟩
      · cases (show task.wait = _ from hAwaits).symm.trans hClock
      · cases (show task.wait = _ from hAwaits).symm.trans hBuild
  | _ => rfl

/-- Every task that has something to do is ready, and one that waits for locks comes first. -/
structure Attentive (circumstances : Circumstances) (options : CoordinatorOptions)
    (system : CoordinatorSystem) : Prop extends WellKept circumstances options system where
  awake : ∀ task ∈ system.tasks, task.id ∈ system.ready ∨ Idle system.now task
  first : ∀ task ∈ system.tasks, task.wait = .locks → system.ready.head? = some task.id

theorem attentive_start (circumstances : Circumstances) (options : CoordinatorOptions) :
    Attentive circumstances options ({ data := {} } : CoordinatorSystem) where
  toWellKept := wellKept_start circumstances options
  awake := List.forall_mem_nil _
  first := List.forall_mem_nil _

theorem Attentive.pass (hAttentive : Attentive circumstances options system) {now : Nat}
    {woken : List Nat}
    (hPass : ∀ task ∈ system.tasks, ∀ due, task.wait = .clock due → system.now < due →
      task.id ∈ system.ready ++ woken ∨ now < due) :
    Attentive circumstances options
      { system with now := now, ready := system.ready ++ woken } where
  toWellKept := hAttentive.toWellKept.congr rfl rfl rfl rfl rfl
  awake task hTask := by
    rcases hAttentive.awake task hTask with hThere | ⟨due, hWait, hDue⟩ | hBuild
    · exact Or.inl (List.mem_append_left woken hThere)
    · exact (hPass task hTask due hWait hDue).imp_right fun hLater => Or.inl ⟨due, hWait, hLater⟩
    · exact Or.inr (Or.inr hBuild)
  first task hTask hWait := by
    have hFirst := hAttentive.first task hTask hWait
    dsimp only
    rw [List.head?_append, hFirst]
    rfl

theorem Attentive.wake (hAttentive : Attentive circumstances options system)
    (woken : List Nat) :
    Attentive circumstances options { system with ready := system.ready ++ woken } :=
  hAttentive.pass fun _ _ _ _ hDue => Or.inr hDue

theorem Attentive.takeCall (hAttentive : Attentive circumstances options system) (call : Call) :
    Attentive circumstances options (system.spawn call.stage) where
  toWellKept := by
    refine ⟨hAttentive.sound.takeCall (some call), orderly_takeCall hAttentive.orderly (some call),
      fun project => ?_⟩
    have hMoves : Moves circumstances project (systemView project system)
        (systemView project (Coordinator.takeCall system (some call))) := view_takeCall (some call)
    exact (hAttentive.one project).moves hMoves
  awake task hTask := by
    rcases List.mem_append.mp hTask with hOld | hNew
    · exact (hAttentive.awake task hOld).imp_left (List.mem_append_left _)
    · rw [List.mem_singleton.mp hNew]
      exact Or.inl (List.mem_append_right _ (List.mem_singleton_self _))
  first task hTask hWait := by
    rcases List.mem_append.mp hTask with hOld | hNew
    · have hFirst := hAttentive.first task hOld hWait
      change (system.ready ++ [system.nextId]).head? = some task.id
      rw [List.head?_append, hFirst]
      rfl
    · rw [List.mem_singleton.mp hNew] at hWait
      cases hWait

theorem Attentive.skip (hAttentive : Attentive circumstances options system) {id : Nat}
    {rest : List Nat} (hReady : system.ready = id :: rest)
    (hIdle : ∀ task ∈ system.tasks, task.id = id → Idle system.now task) :
    Attentive circumstances options { system with ready := rest } where
  toWellKept := hAttentive.toWellKept.congr rfl rfl rfl rfl rfl
  awake task hTask := by
    rcases hAttentive.awake task hTask with hThere | hIdleTask
    · rw [hReady] at hThere
      rcases List.mem_cons.mp hThere with hSame | hRest
      · exact Or.inr (hIdle task hTask hSame)
      · exact Or.inl hRest
    · exact Or.inr hIdleTask
  first task hTask hWait := by
    have hFirst := hAttentive.first task hTask hWait
    rw [hReady] at hFirst
    rcases hIdle task hTask (Option.some.inj hFirst).symm with ⟨due, hClock, _⟩ | ⟨_, _, hBuild⟩
    · cases hWait.symm.trans hClock
    · cases hWait.symm.trans hBuild

/-! ### Turns -/

theorem Attentive.idle_of_grant? (hAttentive : Attentive circumstances options system)
    {task : Task Stage Query} (hTask : task ∈ system.tasks) {moment : Surrounding Id}
    (hGrant : system.grant? moment.answer task = none) : Idle system.now task := by
  unfold System.grant? at hGrant
  cases hWait : task.wait with
  | turn =>
      rw [hWait] at hGrant
      cases hGrant
  | clock due =>
      rw [hWait] at hGrant
      refine Or.inl ⟨due, hWait, Nat.lt_of_not_le fun hOver => ?_⟩
      simp only [hOver, if_true] at hGrant
      cases hGrant
  | locks =>
      rw [hWait] at hGrant
      have hClaimed := (hAttentive.orderly.claimed task.id).mpr ⟨task, hTask, rfl, hWait⟩
      obtain ⟨claim, hClaim, _⟩ := hClaimed
      obtain ⟨owner, hOwner, hHolds⟩ :=
        hAttentive.orderly.locks.exists_granted (List.ne_nil_of_mem hClaim)
      obtain ⟨other, hOther, hId, hOtherWait⟩ := (hAttentive.orderly.claimed owner).mp hOwner
      have hFirst := hAttentive.first task hTask hWait
      rw [hAttentive.first other hOther hOtherWait, hId] at hFirst
      rw [Option.some.inj hFirst] at hHolds
      simp only [hHolds, if_true] at hGrant
      cases hGrant
  | answer query =>
      rw [hWait] at hGrant
      cases query with
      | build operation changes => exact Or.inr ⟨operation, changes, hWait⟩
      | _ => cases hGrant

/-- A task that has a turn goes on as the first, if it goes on at all. -/
theorem Attentive.applyTurn (hAttentive : Attentive circumstances options system)
    {task : Task Stage Query} {rest : List Nat} (hReady : system.ready = task.id :: rest)
    {locks : Locks} (hSound : locks.Sound)
    (hOwners : ∀ owner, locks.Claimed owner → owner ∈ system.tasks.map Task.id)
    {turn : CoordinatorTurn}
    (hKept : WellKept circumstances options
      (({ system with ready := rest, locks := locks } : CoordinatorSystem).applyTurn task.id
        turn)) :
    Attentive circumstances options
      (({ system with ready := rest, locks := locks } : CoordinatorSystem).applyTurn task.id
        turn) := by
  let earlier : CoordinatorSystem := { system with ready := rest, locks := locks }
  have hLocks : earlier.locks.Sound := hSound
  obtain ⟨woken, more, hLater, _⟩ := System.applyTurn_ready hLocks hOwners task.id turn
  dsimp only [earlier] at hLater
  refine ⟨hKept, ?_, ?_⟩
  · intro other hOther
    rw [hLater]
    rcases System.mem_applyTurn_tasks hOther with ⟨hOld, hDistinct, _⟩ | ⟨hSame, hNext, _⟩ |
      ⟨_, index, hStage, hNew⟩
    · rcases hAttentive.awake other hOld with hThere | hIdle
      · rw [hReady] at hThere
        have hRest := (List.mem_cons.mp hThere).resolve_left hDistinct
        simp [hRest]
      · rw [System.applyTurn_now]
        exact Or.inr hIdle
    · simp [hNext, hSame]
    · have hIndex := (List.getElem?_eq_some_iff.mp hStage).1
      dsimp only at hNew
      refine Or.inl ?_
      simp only [List.mem_append, List.mem_range'_1]
      omega
  · intro other hOther hWait
    rw [hLater]
    rcases System.mem_applyTurn_tasks hOther with ⟨hOld, hDistinct, _⟩ | ⟨hSame, hNext, _⟩ |
      ⟨hTurn, _⟩
    · have hFirst := hAttentive.first other hOld hWait
      rw [hReady] at hFirst
      exact absurd (Option.some.inj hFirst).symm hDistinct
    · rw [hNext, hSame]
      rfl
    · cases hTurn.symm.trans hWait

theorem Attentive.poll (hAttentive : Attentive circumstances options system) {id : Nat}
    {rest : List Nat} (hReady : system.ready = id :: rest) {moment : Surrounding Id}
    (hWithin : (Event.poll id moment).Within circumstances) :
    Attentive circumstances options (pollTask options { system with ready := rest } id moment) := by
  have hEarlier : WellKept circumstances options { system with ready := rest } :=
    hAttentive.toWellKept.congr rfl rfl rfl rfl rfl
  have hLater : WellKept circumstances options
      (pollTask options { system with ready := rest } id moment) := hEarlier.happen hWithin
  rw [pollTask_eq] at hLater ⊢
  cases hFound : ({ system with ready := rest } : CoordinatorSystem).task? id with
  | none =>
      dsimp only
      refine hAttentive.skip hReady fun task hTask hId => ?_
      have hSome := (hEarlier.sound.task?_eq_some_iff id task).mpr ⟨hTask, hId⟩
      cases hFound.symm.trans hSome
  | some task =>
      obtain ⟨hTask, rfl⟩ := (hEarlier.sound.task?_eq_some_iff id task).mp hFound
      have hOrderly := hEarlier.orderly.polled task
      obtain ⟨locks, hPolled⟩ := ({ system with ready := rest } : CoordinatorSystem).polled_eq task
      rw [hFound] at hLater
      dsimp only at hLater ⊢
      rw [hPolled] at hLater hOrderly ⊢
      cases hGrant : ({ system with ready := rest } : CoordinatorSystem).grant? moment.answer
          task with
      | none =>
          have hSkipped := hAttentive.skip hReady fun other hOther hId => by
            rw [List.inj_on_of_nodup_map hAttentive.sound.ids hOther hTask hId]
            exact hAttentive.idle_of_grant? hTask hGrant
          rw [hGrant] at hLater
          exact ⟨hLater, hSkipped.awake, hSkipped.first⟩
      | some answer? =>
          rw [hGrant] at hLater
          refine hAttentive.applyTurn hReady hOrderly.locks ?_ hLater
          intro owner hOwner
          obtain ⟨waiting, hWaiting, hId, _⟩ := (hOrderly.claimed owner).mp hOwner
          exact List.mem_map.mpr ⟨waiting, hWaiting, hId⟩

section

variable {World : Type} {kept : World → Prop} {surrounding : Surrounding (StateM World)}

theorem keeps_attentive (options : CoordinatorOptions)
    (hSurrounding : surrounding.Within circumstances kept) :
    System.Keeps (program options) surrounding.answer (fun world => ⌜kept world⌝)
      (Attentive circumstances options) where
  skip earlier id rest hAttentive hReady hGone := by
    refine hAttentive.skip hReady fun task hTask hId => ?_
    have hSome := (hAttentive.sound.task?_eq_some_iff id task).mpr ⟨hTask, hId⟩
    cases hGone.symm.trans hSome
  poll earlier id rest task hAttentive hReady hTask :=
    ensures_poll hSurrounding rest hTask fun moment hWithin => hAttentive.poll hReady hWithin
  move earlier due hAttentive hNext := by
    obtain ⟨woken, hMove, hWoken⟩ := earlier.moveTo_eq due
    rw [hMove]
    refine hAttentive.pass fun task hTask other hWait hLater => ?_
    have hLeast := ((earlier.nextDue?_eq_some_iff due).mp hNext).2 task hTask other hWait
    by_cases hSame : other = due
    · exact Or.inl (hWoken task hTask (hSame ▸ hWait))
    · exact Or.inr (Nat.max_lt.mpr ⟨hLater, by omega⟩)
  pass earlier target hAttentive hNext := by
    have hPassed : Attentive circumstances options
        { earlier with now := max earlier.now target, ready := earlier.ready ++ [] } :=
      hAttentive.pass fun task hTask due hWait hLater =>
        Or.inr (Nat.max_lt.mpr ⟨hLater, System.lt_of_nextDue? hNext hTask hWait⟩)
    rwa [List.append_nil] at hPassed

theorem grants_replies (hSurrounding : surrounding.Within circumstances kept) :
    System.Grants surrounding.answer (fun world => ⌜kept world⌝) (Replies circumstances) where
  answers query := by
    rw [ensures_state_iff]
    intro world hKept
    refine ⟨?_, hSurrounding.keeps world hKept query⟩
    intro answer hAnswer
    rw [surrounding.answer_run_fst] at hAnswer
    obtain ⟨hLookup, hSettings⟩ := hSurrounding.answers world hKept 0
    cases query with
    | lookUp project => exact ⟨_, hLookup project, hAnswer.symm⟩
    | loadSettings path => trivial
    | applySettings project settings => exact ⟨_, hSettings project settings, hAnswer.symm⟩
    | build operation changes => trivial
  unasked wait hUnasked := by
    cases wait with
    | answer query => exact absurd rfl (hUnasked query)
    | _ => trivial

/-- The tasks of a coordinator come to rest. -/
theorem winds_attentive (options : CoordinatorOptions)
    (hSurrounding : surrounding.Within circumstances kept) :
    System.Winds (program options) surrounding.answer (fun world => ⌜kept world⌝)
      (Replies circumstances) (Attentive circumstances options) weight where
  toKeeps := keeps_attentive options hSurrounding
  toGrants := grants_replies hSurrounding
  found earlier hAttentive task hTask :=
    (hAttentive.sound.task?_eq_some_iff task.id task).mpr ⟨hTask, rfl⟩
  locks earlier hAttentive := hAttentive.orderly.locks
  owned earlier hAttentive owner hClaimed := by
    obtain ⟨task, hTask, hId, _⟩ := (hAttentive.orderly.claimed owner).mp hClaimed
    exact ⟨task, hTask, hId⟩
  least data stage := Nat.lt_of_lt_of_le stage.cost_pos (cost_le_weight data stage)
  most := weight_lt
  resume earlier ready locks id task answer? hAttentive hFound hReplies := by
    obtain ⟨hTask, _⟩ := (hAttentive.sound.task?_eq_some_iff id task).mp hFound
    have hInformed := hAttentive.sound.informed task hTask
    have hSound : Sound circumstances options { earlier with ready := ready, locks := locks } :=
      hAttentive.sound.congr rfl rfl rfl
    exact hSound.effort_applyTurn (fun project => (hAttentive.one project).one) hTask
      (resume_sound task.id earlier.nextId earlier.data (hAttentive.sound.awaits task hTask)
        hInformed hReplies)
      (resume_thrifty options task.id earlier.nextId answer? earlier.data hInformed)

end

/-! ### Requests -/

def Heard (request : Nat) (system : CoordinatorSystem) : Prop :=
  (∃ task ∈ system.tasks, task.id = request ∧ task.stage.call?.isSome = true) ∨
    (answerTo? system.data.history request).isSome = true

theorem answerTo?_append {history : List Notice} {request : Nat}
    (hAnswered : (answerTo? history request).isSome = true) (more : List Notice) :
    (answerTo? (history ++ more) request).isSome = true := by
  rw [answerTo?_eq_head?] at hAnswered ⊢
  rw [answers_append, List.isSome_head?]
  exact List.append_ne_nil_of_left_ne_nil (List.isSome_head?.mp hAnswered) _

/-- A turn of the task that deals with a request goes on with it or answers it, and no other
turn drops it. -/
theorem Sound.heard_applyTurn (hSound : Sound circumstances options system)
    {task : Task Stage Query} {answer? : Option Answer} (hTask : task ∈ system.tasks)
    (hReplies : Replies circumstances task.wait answer?)
    (hTurn : TurnSound circumstances options system.nextId task.stage system.data
      (resume options task.id system.nextId task.stage answer? system.data)) {request : Nat}
    (hHeard : Heard request system) :
    Heard request (system.applyTurn task.id
      (resume options task.id system.nextId task.stage answer? system.data)) := by
  obtain ⟨quiet, deed, hHistory, _, hDeed⟩ :=
    resume_does task.id system.nextId system.data (hSound.awaits task hTask) hReplies
  have hStays := hSound.self_stays hTask hTurn
  generalize resume options task.id system.nextId task.stage answer? system.data = turn at *
  rcases hHeard with ⟨waiting, hWaiting, hRequest, hCall⟩ | hAnswered
  · by_cases hSelf : waiting.id = task.id
    · obtain rfl := List.inj_on_of_nodup_map hSound.ids hWaiting hTask hSelf
      cases hNext : turn.next.stage? with
      | some later =>
          rw [hNext] at hDeed hStays
          obtain ⟨after, hAfter, hId, hStage, _⟩ :=
            System.exists_applyTurn_self hTask (hStays.resolve_right nofun) hNext
          refine Or.inl ⟨after, hAfter, hId.trans hRequest, ?_⟩
          rw [hStage, hDeed.goes.1]
          exact hCall
      | none =>
          rw [hNext] at hDeed
          obtain ⟨call, hMade⟩ := Option.isSome_iff_exists.mp hCall
          obtain ⟨result, hResult, _⟩ := hDeed.ends hMade
          refine Or.inr ?_
          rw [System.applyTurn_data, hHistory, answerTo?_eq_head?, ← hRequest, answers_append,
            answers_append, hResult, List.isSome_head?]
          simp
    · refine Or.inl ⟨waiting, System.mem_applyTurn_of_kept hWaiting hSelf ?_, hRequest, hCall⟩
      intro hDropped
      have hQuiet := hSound.quiet_of_kept hWaiting (hTurn.dropped waiting.id hDropped)
      rw [Stage.call?_of_quiet hQuiet] at hCall
      cases hCall
  · refine Or.inr ?_
    rw [System.applyTurn_data, hHistory]
    exact answerTo?_append hAnswered _

theorem Sound.heard_poll (hSound : Sound circumstances options system) {request : Nat}
    (hHeard : Heard request system) {id : Nat} {moment : Surrounding Id}
    (hWithin : (Event.poll id moment).Within circumstances) :
    Heard request (pollTask options system id moment) := by
  rcases hSound.poll_cases hWithin with ⟨locks, hPoll, _⟩ |
    ⟨locks, task, answer?, _, hTask, _, hReplies, hLocked, hTurn, hPoll⟩
  · rw [hPoll]
    exact hHeard
  · rw [hPoll]
    exact hLocked.heard_applyTurn hTask hReplies hTurn hHeard

/-! ### A coordinator at rest -/

/-- Every task of a coordinator sleeps, or waits for a build to end. -/
structure Quiescent (circumstances : Circumstances) (coordinator : Coordinator) : Prop where
  attentive : Attentive circumstances coordinator.options coordinator.system
  ready : coordinator.system.ready = []

theorem quiescent_start (circumstances : Circumstances) (options : CoordinatorOptions) :
    Quiescent circumstances { options := options } where
  attentive := attentive_start circumstances options
  ready := rfl

section

variable {coordinator : Coordinator}

theorem Quiescent.idle (hQuiescent : Quiescent circumstances coordinator) {task : Task Stage Query}
    (hTask : task ∈ coordinator.system.tasks) : Idle coordinator.system.now task := by
  refine (hQuiescent.attentive.awake task hTask).resolve_left ?_
  rw [hQuiescent.ready]
  exact List.not_mem_nil

theorem Quiescent.answered (hQuiescent : Quiescent circumstances coordinator) {request : Nat}
    (hHeard : Heard request coordinator.system) :
    (answerTo? coordinator.state.history request).isSome = true := by
  refine hHeard.resolve_left ?_
  rintro ⟨task, hTask, _, hCall⟩
  have hAwaits := hQuiescent.attentive.sound.awaits task hTask
  rw [call?_of_idle hAwaits (hQuiescent.idle hTask)] at hCall
  cases hCall

theorem Quiescent.takeHistory (hQuiescent : Quiescent circumstances coordinator) :
    Quiescent circumstances coordinator.takeHistory.1 where
  attentive :=
    ⟨hQuiescent.attentive.toWellKept.congr rfl rfl rfl rfl rfl, hQuiescent.attentive.awake,
      hQuiescent.attentive.first⟩
  ready := hQuiescent.ready

/-- No task waits for locks, so none is woken by the end of a quiet period. -/
theorem Quiescent.shutdown (hQuiescent : Quiescent circumstances coordinator)
    (hShutdown : circumstances.shutdown) : Quiescent circumstances coordinator.shutdown := by
  have hWithin : Event.shutdown.Within circumstances := hShutdown
  have hKept : WellKept circumstances coordinator.options coordinator.shutdown.system :=
    hQuiescent.attentive.toWellKept.happen hWithin
  have hOwners : ∀ owner, coordinator.system.locks.Claimed owner → owner ∈ ([] : List Nat) := by
    intro owner hClaimed
    obtain ⟨task, hTask, _, hWait⟩ := (hQuiescent.attentive.orderly.claimed owner).mp hClaimed
    have hFirst := hQuiescent.attentive.first task hTask hWait
    rw [hQuiescent.ready] at hFirst
    cases hFirst
  have hNow : coordinator.shutdown.system.now = coordinator.system.now :=
    System.foldl_remove_now _ _
  have hTasks : coordinator.shutdown.system.tasks ⊆ coordinator.system.tasks := by
    unfold Coordinator.shutdown
    dsimp only
    rw [System.foldl_remove_tasks]
    exact List.filter_subset_self _
  obtain ⟨woken, hWoken, _, hNone⟩ := System.wakes_foldl_remove
    { coordinator.system with data := { coordinator.system.data with timers := {} } }
    hQuiescent.attentive.orderly.locks hOwners coordinator.system.data.timers.all
  have hReady : coordinator.shutdown.system.ready = [] := by
    have hEmpty : woken = [] :=
      List.eq_nil_iff_forall_not_mem.mpr fun id hId => List.not_mem_nil (hNone id hId).1
    rw [hEmpty] at hWoken
    exact hWoken.trans ((List.append_nil _).trans hQuiescent.ready)
  refine ⟨⟨hKept, ?_, ?_⟩, hReady⟩
  · exact fun task hTask => Or.inr (hNow ▸ hQuiescent.idle (hTasks hTask))
  · intro task hTask hWait
    have hFirst := hQuiescent.attentive.first task (hTasks hTask) hWait
    rw [hQuiescent.ready] at hFirst
    cases hFirst

end

section

variable {World : Type} {kept : World → Prop} {surrounding : Surrounding (StateM World)}
variable (hSurrounding : surrounding.Within circumstances kept)
variable {world : World} (hKept : kept world)

include hSurrounding

theorem keeps_heard (request : Nat) :
    System.KeepsTurns (program options) surrounding.answer (fun world => ⌜kept world⌝)
      fun later => Sound circumstances options later ∧ Heard request later :=
  keepsTurns_of_poll hSurrounding
    (fun _ _ hBoth => ⟨hBoth.1.congr rfl rfl rfl, hBoth.2⟩)
    fun earlier id moment hBoth hWithin => by
      have hPolled : Sound circumstances options
          (Coordinator.happen options earlier (.poll id moment)) := hBoth.1.happen hWithin
      exact ⟨hPolled, hBoth.1.heard_poll hBoth.2 hWithin⟩

include hKept

/-- The tasks take turns until the coordinator rests; no request is forgotten meanwhile. -/
theorem Attentive.settle (hAttentive : Attentive circumstances options system) :
    let settled := (({ options := options, system := system } : Coordinator).settle
      surrounding).run world
    Quiescent circumstances settled.1 ∧
      (∀ request, Heard request system → Heard request settled.1.system) ∧ kept settled.2 := by
  obtain ⟨woken, hWake⟩ := system.wakeAskers_eq
  have hWoken := hAttentive.wake woken
  obtain ⟨⟨hLater, hReady, _⟩, hWorld⟩ := (ensures_state_iff kept _ _).mp
    ((winds_attentive options hSurrounding).settle hWoken) world hKept
  have hHeard (request : Nat) (hBefore : Heard request system) :=
    ((ensures_state_iff kept _ _).mp
      ((keeps_heard hSurrounding request).settle ⟨hWoken.sound, hBefore⟩) world hKept).1.2
  rw [← hWake] at hLater hReady hWorld hHeard
  exact ⟨⟨hLater, hReady⟩, hHeard, hWorld⟩

variable {coordinator : Coordinator} (hQuiescent : Quiescent circumstances coordinator)

include hQuiescent

/-- The request of a call is answered by the time it returns. -/
theorem Quiescent.submit (call : Call) {stage : Stage} (hStage : call.stage = stage) :
    let submitted := (coordinator.submit surrounding stage).run world
    Quiescent circumstances submitted.1.1 ∧ submitted.1.2.isSome = true ∧ kept submitted.2 := by
  have hSpawned := hQuiescent.attentive.takeCall call
  have hCall : call.stage.call?.isSome = true := by
    cases call <;> rfl
  rw [hStage] at hSpawned hCall
  have hHeard : Heard coordinator.system.nextId (coordinator.system.spawn stage) :=
    Or.inl ⟨_, List.mem_append_right _ (List.mem_singleton_self _), rfl, hCall⟩
  obtain ⟨hLater, hStill, hWorld⟩ := hSpawned.settle hSurrounding hKept
  exact ⟨hLater, hLater.answered (hStill _ hHeard), hWorld⟩

theorem Quiescent.update (project : String) :
    let updated := (coordinator.update surrounding project).run world
    Quiescent circumstances updated.1.1 ∧ updated.1.2.isSome = true ∧ kept updated.2 := by
  dsimp only
  by_cases hNamed : project.isEmpty
  · have hUpdate : coordinator.update surrounding project =
        pure (coordinator, some (.error .missingProject)) := if_pos hNamed
    rw [hUpdate]
    exact ⟨hQuiescent, rfl, hKept⟩
  · have hUpdate : coordinator.update surrounding project =
        coordinator.submit surrounding (.update project) := if_neg hNamed
    rw [hUpdate]
    exact hQuiescent.submit hSurrounding hKept (.update project) rfl

theorem Quiescent.notify (notification : ChangeNotification) :
    let notified := (coordinator.notify surrounding notification).run world
    Quiescent circumstances notified.1.1 ∧ notified.1.2.isSome = true ∧ kept notified.2 := by
  dsimp only
  unfold Coordinator.notify
  cases notification.change? with
  | none => exact ⟨hQuiescent, rfl, hKept⟩
  | some change => exact hQuiescent.submit hSurrounding hKept (.notify change) rfl

theorem Quiescent.advance (duration : Nat) :
    let advanced := (coordinator.advance surrounding duration).run world
    Quiescent circumstances advanced.1 ∧
      advanced.1.system.now = coordinator.system.now + duration ∧ kept advanced.2 := by
  obtain ⟨⟨hLater, hNow, _, hReady⟩, hWorld⟩ := (ensures_state_iff kept _ _).mp
    ((winds_attentive coordinator.options hSurrounding).advance hQuiescent.attentive duration)
    world hKept
  exact ⟨⟨hLater, hReady hQuiescent.ready⟩, hNow, hWorld⟩

end

end Coordinator

end BuildWatch
