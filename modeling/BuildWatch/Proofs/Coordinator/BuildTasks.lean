import BuildWatch.Proofs.Coordinator.OneBuild
import Mathlib.Data.List.Induction

/-!
A build counts as in progress exactly while a task is there that builds its project, as
long as the lookup of no follow-up panics.  The task of a follow-up whose lookup does
panic is lost, and then the place of its build is never given up.
-/

namespace BuildWatch

open BuildWatch.Tasks

namespace Coordinator

variable {circumstances : Circumstances} {options : CoordinatorOptions} {project : String}

/-! ### Follow-ups that are requested -/

/-- A follow-up is requested only while a build is in progress. -/
def View.QueuesBehind (view : View) : Prop :=
  view.build.requested.isSome = true → view.build.inProgress = true

section

variable {view after : View}

theorem View.QueuesBehind.move (hBehind : view.QueuesBehind)
    (hMove : Move circumstances project view after) : after.QueuesBehind := by
  cases hMove with
  | queue explicit hProgress =>
      intro _
      simp [BuildState.begin, hProgress]
  | take explicit hIdle =>
      intro _
      simp [BuildState.begin, hIdle]
  | _ => exact hBehind

theorem View.QueuesBehind.advance (hBehind : view.QueuesBehind)
    (hAdvance : Advance circumstances project view after) : after.QueuesBehind := by
  cases hAdvance with
  | finish result hPhase =>
      intro hSome
      cases hRequested : view.build.requested with
      | none => simp [BuildState.finish, hRequested] at hSome
      | some followUp => simp [BuildState.finish, hRequested] at hSome
  | skip followUp hPhase hOff =>
      intro hSome
      cases hSome
  | abandon followUp hPhase hFail =>
      intro hSome
      cases hSome
  | _ => exact hBehind

end

theorem Run.queuesBehind (options : CoordinatorOptions) (events : List Event)
    (hEvents : ∀ event ∈ events, event.Within circumstances) (project : String) :
    ((Run.after options events).view project).OneBuild ∧
      ((Run.after options events).view project).QueuesBehind :=
  Run.view_induction (motive := View.QueuesBehind) nofun
    (fun _ _ _ hMove hBehind => hBehind.move hMove)
    (fun _ _ _ hAdvance hBehind => hBehind.advance hAdvance) events hEvents

/-! ### Builds that are attended to -/

/-- A build is in progress only while a task builds the project. -/
def View.Attended (view : View) : Prop :=
  view.build.inProgress = true → view.phases ≠ []

/-- Infos carry the id that was asked for, and lookups of one project do not panic. -/
def Circumstances.withoutPanic (project : String) : Circumstances where
  lookup asked result :=
    (∀ info, result = .found info → info.id = asked) ∧ (asked = project → result ≠ .panicked)
  settings _ := True
  shutdown := True
  faithful _ _ hLookup := hLookup.1 _ rfl

section

variable {view after : View}

theorem View.Attended.move (hAttended : view.Attended)
    (hMove : Move circumstances project view after) : after.Attended := by
  cases hMove with
  | queue explicit hProgress => exact fun _ => hAttended hProgress
  | take explicit hIdle =>
      intro _
      simp
  | _ => exact hAttended

/-- The task that builds a project ends with the build in progress, unless a lookup panics. -/
theorem Advance.attended
    (hAdvance : Advance (.withoutPanic project) project view after) : after.Attended := by
  cases hAdvance with
  | start changes operation hPhase hProject =>
      intro _
      simp
  | finish result hPhase =>
      intro hProgress
      cases hRequested : view.build.requested with
      | none => simp [BuildState.finish, hRequested] at hProgress
      | some followUp => simp
  | find followUp hPhase =>
      intro _
      simp
  | skip followUp hPhase hOff =>
      intro hProgress
      cases hProgress
  | abandon followUp hPhase hFail =>
      intro hProgress
      cases hProgress
  | vanish followUp hPhase hPanic => exact absurd rfl (hPanic.2 rfl)
  | follow followUp operation hPhase hProject =>
      intro _
      simp

end

def Lookup.panics : Lookup → Bool
  | .panicked => true
  | _ => false

def Event.panicsFollowUp (project : String) (system : CoordinatorSystem) : Event → Bool
  | .poll id surrounding =>
      (system.task? id).any fun task =>
        match task.stage with
        | .followUpFound asked _ => asked == project && Lookup.panics (surrounding.lookUp asked)
        | _ => false
  | _ => false

theorem Stage.informed_withoutPanic {stage : Stage} {phase : Phase}
    (hPhase : stage.phase? = some phase) (hInformed : stage.Informed .faithfulInfos) :
    stage.Informed (.withoutPanic project) := by
  have hFound {asked : String} {info : ProjectInfo}
      (hLookup : Circumstances.faithfulInfos.lookup asked (.found info)) :
      (Circumstances.withoutPanic project).lookup asked (.found info) :=
    ⟨hLookup, fun _ => nofun⟩
  cases stage with
  | build info changes => exact hFound hInformed
  | followUpLocked asked info followUp => exact hFound hInformed
  | buildEnded asked => trivial
  | followUpFound asked followUp => trivial
  | _ => cases hPhase

/-- The task that builds a project is resumed as it would be if no lookup could panic. -/
theorem replies_withoutPanic {system : CoordinatorSystem} {surrounding : Surrounding Id}
    {task : Task Stage Query} {id : Nat} {answer? : Option Answer} {phase : Phase}
    (hWithin : (Event.poll id surrounding).Within .faithfulInfos)
    (hFound : system.task? id = some task)
    (hGrant : system.grant? surrounding.answer task = some answer?)
    (hAwaits : task.stage.Awaits options task.wait)
    (hPhase : task.stage.phaseOf? project = some phase)
    (hCalm : (Event.poll id surrounding).panicsFollowUp project system = false) :
    Replies (.withoutPanic project) task.wait answer? := by
  obtain ⟨hProject, hKind⟩ := (Stage.phaseOf?_eq_some_iff _ _ _).mp hPhase
  simp only [Event.panicsFollowUp, hFound, Option.any_some] at hCalm
  cases hStage : task.stage with
  | build info changes =>
      rw [hStage] at hAwaits
      rw [show task.wait = .turn from hAwaits]
      trivial
  | buildEnded asked =>
      rw [hStage] at hAwaits
      obtain ⟨info, changes, _, hWait⟩ := hAwaits
      rw [hWait]
      trivial
  | followUpLocked asked info followUp =>
      rw [hStage] at hAwaits
      rw [show task.wait = .locks from hAwaits]
      trivial
  | followUpFound asked followUp =>
      rw [hStage] at hAwaits hProject hCalm
      have hWait : task.wait = .answer (.lookUp asked) := hAwaits
      obtain rfl : asked = project := hProject
      have hReplies := replies_of_grant hWithin hGrant
      unfold System.grant? at hGrant
      rw [hWait] at hGrant hReplies ⊢
      obtain ⟨lookup, hLookup, hAnswer⟩ := hReplies
      refine ⟨lookup, ⟨hLookup, ?_⟩, hAnswer⟩
      rintro _ rfl
      rw [hAnswer] at hGrant
      have hPanicked : surrounding.lookUp asked = .panicked :=
        Answer.lookup.inj (Option.some.inj (Option.some.inj hGrant))
      simp only [hPanicked, beq_self_eq_true, Lookup.panics, Bool.and_self] at hCalm
      cases hCalm
  | _ =>
      rw [hStage] at hKind
      cases hKind

theorem Sound.attended_happen {system : CoordinatorSystem}
    (hSound : Sound .faithfulInfos options system) {event : Event}
    (hWithin : event.Within .faithfulInfos)
    (hCalm : event.panicsFollowUp project system = false)
    (hOne : (systemView project system).OneBuild)
    (hAttended : (systemView project system).Attended) :
    (systemView project (Coordinator.happen options system event)).Attended := by
  have hHappen := hSound.happen_view hWithin hOne.one
  -- Only a turn of the task that builds the project can leave its build without a task.
  split at hHappen
  · rename_i hServes
    cases event with
    | poll id surrounding =>
        simp only [Coordinator.happen]
        rcases hSound.poll_cases hWithin with ⟨locks, hPoll, _⟩ |
          ⟨locks, task, answer?, hFound, hTask, hGrant, _, hLocked, hTurn, hPoll⟩
        · rw [hPoll]
          exact hAttended
        · simp only [Event.serves, hFound, Option.any_some, hGrant, Option.isSome_some,
            Bool.and_true] at hServes
          obtain ⟨phase, hPhase⟩ := Option.isSome_iff_exists.mp hServes
          have hKind := ((Stage.phaseOf?_eq_some_iff _ _ _).mp hPhase).2
          have hAdvance := hLocked.advance_applyTurn hTask
            (Stage.informed_withoutPanic hKind (hSound.informed task hTask))
            (replies_withoutPanic hWithin hFound hGrant (hSound.awaits task hTask) hPhase hCalm)
            hTurn hPhase hOne.one
          rw [hPoll]
          exact hAdvance.attended
    | _ => cases hServes
  · exact (moves_keep (motive := View.Attended) (fun _ _ _ hMove hHolds => hHolds.move hMove)
      hHappen hOne hAttended).2

/-! ### Runs -/

theorem Run.attended (options : CoordinatorOptions) (events : List Event)
    (hEvents : ∀ event ∈ events, event.Within .faithfulInfos) (project : String)
    (hCalm : ∀ before event after, events = before ++ event :: after →
      event.panicsFollowUp project (Run.after options before).system = false) :
    ((Run.after options events).view project).Attended := by
  induction events using List.reverseRecOn with
  | nil => exact nofun
  | append_singleton events last ih =>
      have hBefore : ∀ event ∈ events, event.Within .faithfulInfos :=
        fun event hEvent => hEvents event (List.mem_append_left _ hEvent)
      have hHolds := ih hBefore (by
        rintro before event after rfl
        exact hCalm before event (after ++ [last]) (by simp))
      obtain ⟨hOne, _⟩ := Run.queuesBehind options events hBefore project
      rw [Run.after_append]
      exact (Run.sound options events hBefore).attended_happen
        (hEvents last (List.mem_append_right _ List.mem_cons_self)) (hCalm events last [] rfl)
        hOne hHolds

/-- Whether a task builds a project: its build waits, is with its handler, or a follow-up to
it is being prepared. -/
def builds (project : String) (task : Task Stage Query) : Bool :=
  (task.stage.phaseOf? project).isSome

theorem Run.phases_length (project : String) (run : Run) :
    (run.view project).phases.length = run.system.tasks.countP (builds project) := by
  simp only [Run.view, systemView, View.of, List.length_filterMap_eq_countP, List.countP_map]
  rfl

/-- The mark of a build in progress never outlives its build.  As long as the lookup of no
follow-up of a project panics, a build of it is in progress just as long as one task builds it;
so no request waits behind a build that no longer exists. -/
theorem in_progress_iff_built (options : CoordinatorOptions) (events : List Event)
    (hEvents : ∀ event ∈ events, event.Within .faithfulInfos) (project : String)
    (hCalm : ∀ before event after, events = before ++ event :: after →
      event.panicsFollowUp project (Run.after options before).system = false) :
    let run := Run.after options events
    let build := run.state.builds.state project
    (build.inProgress = true ↔ run.system.tasks.countP (builds project) = 1) ∧
      (build.requested.isSome = true → run.system.tasks.countP (builds project) = 1) := by
  obtain ⟨hOne, hBehind⟩ := Run.queuesBehind options events hEvents project
  have hAttended := Run.attended options events hEvents project hCalm
  have hBuilt : ((Run.after options events).state.builds.state project).inProgress = true →
      (Run.after options events).system.tasks.countP (builds project) = 1 := by
    intro hProgress
    have hSome := List.length_pos_iff.mpr (hAttended hProgress)
    rw [← Run.phases_length]
    exact Nat.le_antisymm hOne.one hSome
  refine ⟨⟨hBuilt, ?_⟩, fun hRequested => hBuilt (hBehind hRequested)⟩
  intro hCount
  refine hOne.progress (List.length_pos_iff.mp ?_)
  rw [Run.phases_length, hCount]
  exact Nat.one_pos

theorem Event.Steady.panicsFollowUp {event : Event} (hSteady : event.Steady) (project : String)
    (system : CoordinatorSystem) : event.panicsFollowUp project system = false := by
  cases event with
  | poll id surrounding =>
      obtain ⟨result?, rfl⟩ := hSteady
      simp only [Event.panicsFollowUp]
      cases system.task? id with
      | none => rfl
      | some task =>
          rw [Option.any_some]
          split
          · exact Bool.and_false _
          · rfl
  | _ => rfl

theorem in_progress_iff_built_twoRequests :
    let run := Run.after { quietPeriod := 1 } requestDuringBuild
    let build := run.state.builds.state "a"
    (build.inProgress = true ∧ build.requested.isSome = true) ∧
      run.system.tasks.countP (builds "a") = 1 := by
  refine ⟨by decide, (in_progress_iff_built { quietPeriod := 1 } requestDuringBuild ?_ "a"
    ?_).1.mp (by decide)⟩
  · intro event hEvent
    refine (steady_twoRequests event (List.mem_append_left _ hEvent)).within ?_ trivial
    rintro project info ⟨⟩
    rfl
  · intro before event after hSplit
    refine (steady_twoRequests event (List.mem_append_left _ ?_)).panicsFollowUp "a" _
    rw [hSplit]
    exact List.mem_append_right _ List.mem_cons_self

/-- A build ends while another is requested, and the lookup of its follow-up panics. -/
def lostFollowUp : List Event :=
  requestDuringBuild ++
    [.poll 1 (steady (some (.done .rebuilt))),
      .poll 1 { steady none with lookUp := fun _ => .panicked }]

/-- Whatever is asked for later waits behind a build that no longer exists. -/
theorem in_progress_after_lostFollowUp :
    let run := Run.after { quietPeriod := 1 } (lostFollowUp ++ .update "a" :: turns 3 3)
    let build := run.state.builds.state "a"
    build.inProgress = true ∧ build.requested.isSome = true ∧
      run.system.tasks.countP (builds "a") = 0 := by
  decide

end Coordinator

end BuildWatch
