import BuildWatch.Proofs.Coordinator.Requests
import BuildWatch.Proofs.Coordinator.RunViews

/-!
Changes that wait are always seen to.  As long as lookups succeed, a quiet period runs,
or a follow-up is requested or being prepared, or the project is marked as one that has
to be built.
-/

namespace BuildWatch

open BuildWatch.Tasks

namespace Coordinator

variable {project : String}

def Phase.prepares : Phase → Bool
  | .preparing _ => true
  | .ready _ => true
  | _ => false

/-- Whether a follow-up of a project is just being prepared at a stage. -/
def Stage.preparesFollowUp (project : String) (stage : Stage) : Bool :=
  (stage.phaseOf? project).any Phase.prepares

/-- Nothing waits, something will see to it, or a request for the project is half done. -/
def View.Guarded (view : View) : Prop :=
  view.Settled ∨ view.phases.any Phase.prepares = true ∨ 0 < view.changing

section

variable {view after : View}

theorem View.Guarded.move (hGuarded : view.Guarded)
    (hMove : Move .reliable project view after) : after.Guarded := by
  cases hMove with
  | elsewhere notice hOther => exact hGuarded
  | arrive => exact Or.inr (Or.inr (Nat.succ_pos _))
  | cancel hChanging => exact Or.inr (Or.inr hChanging)
  | buffer request changes hChanging => exact Or.inr (Or.inr hChanging)
  | arm => exact Or.inl (Or.inr (Or.inl rfl))
  | require hOff => exact Or.inl (Or.inr (Or.inr (Or.inl rfl)))
  | queue explicit hProgress =>
      refine Or.inl (Or.inr (Or.inr (Or.inr ?_)))
      simp [BuildState.begin, hProgress]
  | take explicit hIdle => exact Or.inl (Or.inl rfl)
  | leave changing hChanging hSettled => exact Or.inl hSettled
  | refuse changing hChanging hFail => exact absurd hFail Circumstances.not_mayFail_reliable
  | lapse hKept =>
      refine Or.inl ?_
      rcases hKept with hNone | hKept | hFail
      · exact Or.inl hNone
      · exact Or.inr (Or.inr hKept)
      · exact absurd hFail Circumstances.not_mayFail_reliable
  | shutdown hShutdown => exact hShutdown.elim

theorem View.Guarded.advance (hGuarded : view.Guarded)
    (hAdvance : Advance .reliable project view after) : after.Guarded := by
  cases hAdvance with
  | start changes operation hPhase hProject =>
      refine hGuarded.imp_right (Or.imp_left ?_)
      intro hPrepares
      rw [hPhase] at hPrepares
      cases hPrepares
  | finish result hPhase =>
      cases hRequested : view.build.requested with
      | some followUp =>
          refine Or.inr (Or.inl ?_)
          simp [Phase.prepares]
      | none =>
          -- No follow-up was requested, so the build in progress was not what guards the changes.
          rcases hGuarded with hSettled | hPrepares | hChanging
          · refine Or.inl (hSettled.imp_right (Or.imp_right ?_))
            rintro (hRequired | ⟨_, hFollowUp⟩)
            · refine Or.inl ?_
              simpa [BuildState.finish, hRequested] using hRequired
            · rw [hRequested] at hFollowUp
              cases hFollowUp
          · rw [hPhase] at hPrepares
            cases hPrepares
          · exact Or.inr (Or.inr hChanging)
  | find followUp hPhase => exact Or.inr (Or.inl rfl)
  | skip followUp hPhase hOff => exact Or.inl (Or.inr (Or.inr (Or.inl rfl)))
  | abandon followUp hPhase hFail =>
      obtain ⟨error, info, hFound, _⟩ := hFail
      cases hFound
  | vanish followUp hPhase hPanic =>
      obtain ⟨info, hFound, _⟩ := hPanic
      cases hFound
  | follow followUp operation hPhase hProject => exact Or.inl (Or.inl rfl)

end

/-- In every run in which lookups succeed, changes of a project are guarded. -/
theorem Run.guarded (options : CoordinatorOptions) (events : List Event)
    (hEvents : ∀ event ∈ events, event.Within .reliable) (project : String) :
    ((Run.after options events).view project).OneBuild ∧
      ((Run.after options events).view project).Guarded :=
  Run.view_induction (motive := View.Guarded) (Or.inl (Or.inl rfl))
    (fun _ _ _ hMove hGuarded => hGuarded.move hMove)
    (fun _ _ _ hAdvance hGuarded => hGuarded.advance hAdvance) events hEvents

theorem Run.exists_preparesFollowUp {run : Run}
    (hPrepares : (run.view project).phases.any Phase.prepares = true) :
    ∃ task ∈ run.system.tasks, task.stage.preparesFollowUp project = true := by
  obtain ⟨phase, hPhase, hPreparesPhase⟩ := List.any_eq_true.mp hPrepares
  obtain ⟨stage, hStage, hOf⟩ := List.mem_filterMap.mp hPhase
  obtain ⟨task, hTask, rfl⟩ := List.mem_map.mp hStage
  refine ⟨task, hTask, ?_⟩
  unfold Stage.preparesFollowUp
  rw [hOf]
  exact hPreparesPhase

/-- No change is stranded.  Unless a request for the project is half done, changes that
wait have a quiet period, a follow-up that is requested or just being prepared, or the mark
that the project has to be built; so once no quiet period and no build runs, the mark is
there. -/
theorem no_change_stranded (options : CoordinatorOptions) (events : List Event)
    (hEvents : ∀ event ∈ events, event.Within .reliable) (project : String)
    (hCalm : (Run.after options events).Calm project)
    (hWaits : (Run.after options events).state.changes project ≠ []) :
    let state := (Run.after options events).state
    let build := state.builds.state project
    (state.timers.isPending project = true ∨
      (build.inProgress = true ∧ (build.requested.isSome = true ∨
        ∃ task ∈ (Run.after options events).system.tasks,
          task.stage.preparesFollowUp project = true)) ∨
      build.required = true) ∧
    (state.timers.isPending project = false → build.inProgress = false →
      build.required = true) := by
  obtain ⟨hOne, hGuarded⟩ := Run.guarded options events hEvents project
  have hGuard : (Run.after options events).state.timers.isPending project = true ∨
      (((Run.after options events).state.builds.state project).inProgress = true ∧
        (((Run.after options events).state.builds.state project).requested.isSome = true ∨
          ∃ task ∈ (Run.after options events).system.tasks,
            task.stage.preparesFollowUp project = true)) ∨
      ((Run.after options events).state.builds.state project).required = true := by
    rcases hGuarded with (hNone | hTimer | hRequired | ⟨hProgress, hRequested⟩) | hPrepares |
      hChanging
    · exact absurd hNone hWaits
    · exact Or.inl hTimer
    · exact Or.inr (Or.inr hRequired)
    · exact Or.inr (Or.inl ⟨hProgress, Or.inl hRequested⟩)
    · have hSome : ((Run.after options events).view project).phases ≠ [] := by
        intro hNone
        rw [hNone] at hPrepares
        cases hPrepares
      exact Or.inr (Or.inl ⟨hOne.progress hSome, Or.inr (Run.exists_preparesFollowUp hPrepares)⟩)
    · exact absurd hCalm.changing (Nat.ne_of_gt hChanging)
  refine ⟨hGuard, ?_⟩
  intro hNoTimer hNoBuild
  rcases hGuard with hTimer | ⟨hProgress, _⟩ | hRequired
  · rw [hNoTimer] at hTimer
    cases hTimer
  · rw [hNoBuild] at hProgress
    cases hProgress
  · exact hRequired

def firstChunk : List Event :=
  .notify { oneChange "x" with chunkTotal := some 2 } :: turns 0 5

theorem steady_firstChunk : ∀ event ∈ firstChunk, event.Steady := by
  simp [firstChunk, turns, Event.Steady]

theorem no_change_stranded_firstChunk :
    let state := (Run.after { quietPeriod := 1 } firstChunk).state
    ((state.changes "a").length = 1 ∧ state.timers.isPending "a" = true) ∧
      (state.timers.isPending "a" = false → (state.builds.state "a").inProgress = false →
        (state.builds.state "a").required = true) := by
  refine ⟨by decide, (no_change_stranded { quietPeriod := 1 } firstChunk ?_ "a" (by decide)
    (by decide)).2⟩
  intro event hEvent
  exact (steady_firstChunk event hEvent).within (fun asked => ⟨_, rfl, rfl⟩) nofun

end Coordinator

end BuildWatch
