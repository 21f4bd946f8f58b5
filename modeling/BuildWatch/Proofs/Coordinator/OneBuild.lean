import BuildWatch.Proofs.Coordinator.RunViews
import Mathlib.Data.List.Chain

/-!
At most one build of a project is with its handler at any moment, and what is
reported of the builds of a project alternates between starts and ends.
-/

namespace BuildWatch

open BuildWatch.Tasks

inductive Report where
  | started
  | finished
deriving Repr, DecidableEq

def Notice.report? (project : String) : Notice → Option Report
  | .started built => if built = project then some .started else none
  | .finished built _ => if built = project then some .finished else none
  | _ => none

theorem Notice.report?_of_ne {notice : Notice} {project : String}
    (hOther : notice.project? ≠ some project) : notice.report? project = none := by
  cases notice with
  | started built => exact if_neg (Notice.ne_of_project?_ne hOther rfl)
  | finished built result => exact if_neg (Notice.ne_of_project?_ne hOther rfl)
  | _ => rfl

namespace Coordinator

variable {circumstances : Circumstances} {project : String}

/-! ### Reports -/

def reports (project : String) (history : List Notice) : List Report :=
  history.filterMap (Notice.report? project)

theorem reports_tell (project : String) (view : View) (notice : Notice) :
    reports project (view.tell notice).history =
      reports project view.history ++ (notice.report? project).toList :=
  View.filterMap_tell (Notice.report? project) view notice

/-- Starts and ends take turns, and a start comes first. -/
def Alternating (reports : List Report) : Prop :=
  reports.IsChain (· ≠ ·) ∧ reports.head? ≠ some .finished

theorem alternating_concat_started {reports : List Report} (hAlternating : Alternating reports)
    (hLast : reports.getLast? ≠ some .started) : Alternating (reports ++ [.started]) := by
  obtain ⟨hChain, hHead⟩ := hAlternating
  refine ⟨List.isChain_append.mpr ⟨hChain, List.isChain_singleton _, ?_⟩, ?_⟩
  · intro last hLastReport next hNext hSame
    cases hNext
    rw [hSame] at hLastReport
    exact hLast hLastReport
  · cases reports with
    | nil => simp
    | cons first rest => exact hHead

theorem alternating_concat_finished {reports : List Report} (hAlternating : Alternating reports)
    (hLast : reports.getLast? = some .started) : Alternating (reports ++ [.finished]) := by
  obtain ⟨hChain, hHead⟩ := hAlternating
  refine ⟨List.isChain_append.mpr ⟨hChain, List.isChain_singleton _, ?_⟩, ?_⟩
  · intro last hLastReport next hNext hSame
    cases hNext
    rw [hSame, Option.mem_def, hLast] at hLastReport
    cases hLastReport
  · cases reports with
    | nil => cases hLast
    | cons first rest => exact hHead

/-- What was reported fits where the build stands: a start comes last exactly while the
build is with its handler. -/
structure View.Reported (project : String) (view : View) : Prop where
  alternating : Alternating (reports project view.history)
  last : (reports project view.history).getLast? = some .started ↔ view.phases = [.building]

theorem View.Reported.move {view after : View} (hReported : view.Reported project)
    (hOne : view.OneBuild) (hMove : Move circumstances project view after) :
    after.Reported project := by
  -- What is told of anything but a start or an end reports nothing.
  have hSilent {notice : Notice} {told : View} (hNotice : notice.report? project = none)
      (hHistory : told.history = view.history) (hPhases : told.phases = view.phases) :
      (told.tell notice).Reported project := by
    have hSame : reports project (told.tell notice).history = reports project view.history := by
      rw [reports_tell, hNotice, hHistory, Option.toList_none, List.append_nil]
    refine ⟨hSame ▸ hReported.alternating, ?_⟩
    rw [hSame, hReported.last, ← hPhases]
    rfl
  cases hMove with
  | elsewhere notice hOther => exact hSilent (Notice.report?_of_ne hOther) rfl rfl
  | buffer request changes hChanging => exact hSilent rfl rfl rfl
  | require hOff => exact hSilent rfl rfl rfl
  | queue explicit hProgress => exact hSilent rfl rfl rfl
  | take explicit hIdle =>
      -- No task builds the project yet, so the last report is no start.
      have hNone := hOne.idle_phases hIdle
      have hSame : reports project ((view.tell (.begun project explicit)).tell
          (.drained project view.changes)).history = reports project view.history := by
        simp [reports_tell, Notice.report?]
      refine ⟨hSame ▸ hReported.alternating, ?_⟩
      refine Iff.trans (iff_of_eq (congrArg (·.getLast? = some Report.started) hSame)) ?_
      rw [hReported.last]
      simp [View.tell, hNone]
  | _ => exact ⟨hReported.alternating, hReported.last⟩

theorem View.Reported.advance {view after : View} (hReported : view.Reported project)
    (hAdvance : Advance circumstances project view after) : after.Reported project := by
  have hIdle (hPhases : view.phases ≠ [.building]) :
      (reports project view.history).getLast? ≠ some .started :=
    fun hLast => hPhases (hReported.last.mp hLast)
  -- A step between other phases than that of the handler reports nothing.
  have hQuiet {later : View} (hHistory : reports project later.history =
      reports project view.history) (hBefore : view.phases ≠ [.building])
      (hAfter : later.phases ≠ [.building]) : later.Reported project := by
    refine ⟨hHistory ▸ hReported.alternating, ?_⟩
    rw [hHistory]
    exact iff_of_false (hIdle hBefore) hAfter
  have hStarted {later : View} (hHistory : reports project later.history =
      reports project view.history ++ [.started]) (hBefore : view.phases ≠ [.building])
      (hAfter : later.phases = [.building]) : later.Reported project := by
    refine ⟨hHistory ▸ alternating_concat_started hReported.alternating (hIdle hBefore), ?_⟩
    rw [hHistory]
    exact iff_of_true List.getLast?_concat hAfter
  have hFinished {later : View} (hHistory : reports project later.history =
      reports project view.history ++ [.finished]) (hBefore : view.phases = [.building])
      (hAfter : later.phases ≠ [.building]) : later.Reported project := by
    have hLast := hReported.last.mpr hBefore
    refine ⟨hHistory ▸ alternating_concat_finished hReported.alternating hLast, ?_⟩
    rw [hHistory, List.getLast?_concat]
    exact iff_of_false (by rintro ⟨⟩) hAfter
  cases hAdvance with
  | start changes operation hPhase hProject =>
      refine hStarted ?_ (by simp [hPhase]) rfl
      simp [reports_tell, Notice.report?]
  | finish result hPhase =>
      refine hFinished ?_ hPhase ?_
      · simp [reports_tell, Notice.report?]
      · cases view.build.requested <;> simp [View.tell]
  | find followUp hPhase => exact hQuiet rfl (by simp [hPhase]) (by rintro ⟨⟩)
  | skip followUp hPhase hOff =>
      refine hQuiet ?_ (by simp [hPhase]) (by rintro ⟨⟩)
      simp [reports_tell, Notice.report?]
  | abandon followUp hPhase hFail => exact hQuiet rfl (by simp [hPhase]) (by rintro ⟨⟩)
  | vanish followUp hPhase hPanic => exact hQuiet rfl (by simp [hPhase]) (by rintro ⟨⟩)
  | follow followUp operation hPhase hProject =>
      refine hStarted ?_ (by simp [hPhase]) rfl
      simp [reports_tell, Notice.report?]

theorem Run.reported (options : CoordinatorOptions) (events : List Event)
    (hEvents : ∀ event ∈ events, event.Within circumstances) (project : String) :
    ((Run.after options events).view project).OneBuild ∧
      ((Run.after options events).view project).Reported project :=
  Run.view_induction (motive := View.Reported project)
    ⟨⟨List.isChain_nil, nofun⟩, iff_of_false nofun nofun⟩
    (fun _ _ hOne hMove hReported => hReported.move hOne hMove)
    (fun _ _ _ hAdvance hReported => hReported.advance hAdvance) events hEvents

/-! ### Calls of the handler -/

def awaitsHandler (project : String) (task : Task Stage Query) : Bool :=
  match task.wait with
  | .answer (.build operation _) => operation.project.id == project
  | _ => false

theorem Stage.eq_buildEnded {options : CoordinatorOptions} {stage : Stage} {operation : Operation}
    {changes : Option (List ChangeEvent)}
    (hAwaits : stage.Awaits options (.answer (.build operation changes))) :
    stage = .buildEnded operation.project.id := by
  cases stage with
  | buildEnded built =>
      obtain ⟨info, handed, hId, hWait⟩ := hAwaits
      cases hWait
      exact congrArg Stage.buildEnded hId.symm
  | changeApplied chunk info =>
      obtain ⟨settings, hWait⟩ := hAwaits
      cases hWait
  | timerElapsed asked =>
      obtain ⟨due, hWait⟩ := hAwaits
      cases hWait
  | _ => cases hAwaits

theorem Sound.phase_of_awaitsHandler {options : CoordinatorOptions} {system : CoordinatorSystem}
    (hSound : Sound circumstances options system) {task : Task Stage Query}
    (hTask : task ∈ system.tasks) (hAwaits : awaitsHandler project task = true) :
    (task.stage.phaseOf? project).isSome = true := by
  have hStage := hSound.awaits task hTask
  unfold awaitsHandler at hAwaits
  split at hAwaits
  · rename_i operation changes hWait
    rw [hWait] at hStage
    rw [Stage.eq_buildEnded hStage, Stage.phaseOf?_of_eq (beq_iff_eq.mp hAwaits)]
    rfl
  · cases hAwaits

/-- At every moment at most one call of the handler is out for a project, and what is
reported of its builds alternates, beginning with a start. -/
theorem one_build_at_a_time (options : CoordinatorOptions) (events : List Event)
    (hEvents : ∀ event ∈ events, event.Within .faithfulInfos) (project : String) :
    (Run.after options events).system.tasks.countP (awaitsHandler project) ≤ 1 ∧
      Alternating (reports project (Run.after options events).history) := by
  have hSound := Run.sound options events hEvents
  obtain ⟨hOne, hReported⟩ := Run.reported options events hEvents project
  refine ⟨?_, hReported.alternating⟩
  calc (Run.after options events).system.tasks.countP (awaitsHandler project)
      ≤ (Run.after options events).system.tasks.countP
          (fun task => (task.stage.phaseOf? project).isSome) :=
        List.countP_mono_left fun task hTask hAwaits =>
          hSound.phase_of_awaitsHandler hTask hAwaits
    _ = ((Run.after options events).view project).phases.length := by
        simp only [Run.view, systemView, View.of, List.length_filterMap_eq_countP,
          List.countP_map]
        rfl
    _ ≤ 1 := hOne.one

/-- Two requests, the second of which comes while the build of the first is at work. -/
def requestDuringBuild : List Event :=
  .update "a" :: turns 0 3 ++ turns 1 1 ++ .update "a" :: turns 2 3

/-- That build ends and is followed up. -/
def endAndFollowUp : List Event :=
  .poll 1 (steady (some (.done .rebuilt))) :: turns 1 2

def twoRequests : List Event :=
  requestDuringBuild ++ endAndFollowUp

theorem steady_twoRequests : ∀ event ∈ twoRequests, event.Steady := by
  simp [twoRequests, requestDuringBuild, endAndFollowUp, turns, Event.Steady]

theorem one_build_at_a_time_twoRequests :
    ((Run.after { quietPeriod := 1 } twoRequests).system.tasks.countP (awaitsHandler "a") = 1 ∧
      reports "a" (Run.after { quietPeriod := 1 } twoRequests).history =
        [.started, .finished, .started]) ∧
      Alternating (reports "a" (Run.after { quietPeriod := 1 } twoRequests).history) :=
  ⟨by decide, (one_build_at_a_time { quietPeriod := 1 } twoRequests (fun event hEvent =>
    (steady_twoRequests event hEvent).within (by rintro project info ⟨⟩; rfl) trivial) "a").2⟩

end Coordinator

end BuildWatch
