import BuildWatch.Proofs.Coordinator.Soundness
import Mathlib.Logic.Relation

/-!
What a run looks like from a single project, and the moves by which that view can
change.  Whatever a coordinator does is a sequence of such moves for every project,
so a property of runs that concerns one project is shown move by move.
-/

namespace BuildWatch

open BuildWatch.Tasks

/-- The project that a notice is about, where it tells of builds or of changes. -/
def Notice.project? : Notice → Option String
  | .required project => some project
  | .queued project _ => some project
  | .begun project _ => some project
  | .started project => some project
  | .handed operation _ => some operation.project.id
  | .finished project _ => some project
  | .passedOn project _ => some project
  | .buffered _ project _ => some project
  | .drained project _ => some project
  | .applying _ _ => none
  | .answered _ _ => none

theorem Notice.ne_of_project?_ne {notice : Notice} {project other : String}
    (hOther : notice.project? ≠ some project) (hAbout : notice.project? = some other) :
    other ≠ project := by
  intro hSame
  rw [hSame] at hAbout
  exact hOther hAbout

namespace Coordinator

inductive Phase where
  /-- The build has not been handed over yet. -/
  | waiting (changes : Option (List ChangeEvent))
  | building
  /-- The project of a follow-up is looked up. -/
  | preparing (followUp : FollowUp)
  /-- A follow-up waits for the lock on the changes. -/
  | ready (followUp : FollowUp)
deriving DecidableEq

namespace Stage

def phase? : Stage → Option Phase
  | .build _ changes => some (.waiting changes)
  | .buildEnded _ => some .building
  | .followUpFound _ followUp => some (.preparing followUp)
  | .followUpLocked _ _ followUp => some (.ready followUp)
  | _ => none

def phaseOf? (project : String) (stage : Stage) : Option Phase :=
  if stage.project = project then stage.phase? else none

theorem phaseOf?_of_phase? {stage : Stage} (project : String) (hPhase : stage.phase? = none) :
    stage.phaseOf? project = none := by
  unfold phaseOf?
  rw [hPhase, ite_self]

theorem phaseOf?_of_ne {stage : Stage} {project : String} (hOther : stage.project ≠ project) :
    stage.phaseOf? project = none :=
  if_neg hOther

theorem phaseOf?_of_eq {stage : Stage} {project : String} (hSame : stage.project = project) :
    stage.phaseOf? project = stage.phase? :=
  if_pos hSame

theorem phaseOf?_eq_some_iff (stage : Stage) (project : String) (phase : Phase) :
    stage.phaseOf? project = some phase ↔ stage.project = project ∧ stage.phase? = some phase := by
  unfold phaseOf?
  by_cases hSame : stage.project = project <;> simp [hSame]

theorem project_ne_of_phaseOf? {stage : Stage} {project : String}
    (hPhase : stage.phaseOf? project = none) (hBuilds : stage.phase?.isSome = true) :
    project ≠ stage.project := by
  intro hSame
  unfold phaseOf? at hPhase
  rw [if_pos hSame.symm] at hPhase
  rw [hPhase] at hBuilds
  cases hBuilds

def dealsWith (project : String) (stage : Stage) : Bool :=
  stage.change?.any fun chunk => chunk.project == project

theorem dealsWith_iff {stage : Stage} {chunk : Change} (project : String)
    (hChange : stage.change? = some chunk) :
    stage.dealsWith project = true ↔ chunk.project = project := by
  unfold dealsWith
  rw [hChange]
  exact beq_iff_eq

theorem dealsWith_of_phase? {stage : Stage} {phase : Phase} (project : String)
    (hPhase : stage.phase? = some phase) : stage.dealsWith project = false := by
  cases stage <;> first | rfl | cases hPhase

end Stage

/-! ### Views -/

/-- What belongs to a project. -/
@[ext]
structure View where
  timer : Bool
  changes : List ChangeEvent
  build : BuildState
  phases : List Phase
  changing : Nat
  history : List Notice

namespace View

def of (project : String) (stages : List Stage) (data : CoordinatorState) : View where
  timer := data.timers.isPending project
  changes := data.changes project
  build := data.builds.state project
  phases := stages.filterMap (Stage.phaseOf? project)
  changing := stages.countP (Stage.dealsWith project)
  history := data.history

def tell (view : View) (notice : Notice) : View :=
  { view with history := view.history ++ [notice] }

@[simp] theorem tell_timer (view : View) (notice : Notice) :
    (view.tell notice).timer = view.timer := rfl

@[simp] theorem tell_changes (view : View) (notice : Notice) :
    (view.tell notice).changes = view.changes := rfl

@[simp] theorem tell_build (view : View) (notice : Notice) :
    (view.tell notice).build = view.build := rfl

@[simp] theorem tell_phases (view : View) (notice : Notice) :
    (view.tell notice).phases = view.phases := rfl

@[simp] theorem tell_changing (view : View) (notice : Notice) :
    (view.tell notice).changing = view.changing := rfl

theorem filterMap_tell {α : Type} (observe : Notice → Option α) (view : View) (notice : Notice) :
    (view.tell notice).history.filterMap observe =
      view.history.filterMap observe ++ (observe notice).toList := by
  change (view.history ++ [notice]).filterMap observe = _
  rw [List.filterMap_append]
  cases hNotice : observe notice <;> simp [hNotice]

/-- Changes that wait are kept in mind even if no quiet period runs. -/
def Kept (view : View) : Prop :=
  view.build.required = true ∨
    (view.build.inProgress = true ∧ view.build.requested.isSome = true)

/-- Nothing waits, or something will see to it. -/
def Settled (view : View) : Prop :=
  view.changes = [] ∨ view.timer = true ∨ view.Kept

end View

def systemView (project : String) (system : CoordinatorSystem) : View :=
  View.of project (system.tasks.map Task.stage) system.data

def Run.view (project : String) (run : Run) : View :=
  systemView project run.system

/-! ### Moves -/

def Circumstances.MaySwitchOff (circumstances : Circumstances) (project : String) : Prop :=
  ∃ info, circumstances.lookup project (.found info) ∧ info.autoBuild = false

theorem Circumstances.lookup_automatic {project : String} {result : Lookup}
    (hLookup : (automatic project).lookup project result) :
    ∃ info, result = .found info ∧ info.autoBuild = true :=
  hLookup.2 rfl

theorem Circumstances.not_failed_automatic {project : String} :
    ¬ ∃ error, (automatic project).lookup project (.failed error) := by
  rintro ⟨error, hLookup⟩
  obtain ⟨info, hFound, _⟩ := lookup_automatic hLookup
  cases hFound

theorem Circumstances.not_panicked_automatic {project : String} :
    ¬ (automatic project).lookup project .panicked := by
  intro hLookup
  obtain ⟨info, hFound, _⟩ := lookup_automatic hLookup
  cases hFound

theorem Circumstances.not_maySwitchOff_automatic {project : String} :
    ¬ (automatic project).MaySwitchOff project := by
  rintro ⟨info, hLookup, hOff⟩
  obtain ⟨found, hFound, hOn⟩ := lookup_automatic hLookup
  cases hFound
  rw [hOff] at hOn
  cases hOn

/-- What tasks that do not build a project may change in its view. -/
inductive Move (circumstances : Circumstances) (project : String) : View → View → Prop where
  | elsewhere (view : View) (notice : Notice) (hOther : notice.project? ≠ some project) :
      Move circumstances project view (view.tell notice)
  | arrive (view : View) :
      Move circumstances project view { view with changing := view.changing + 1 }
  | cancel (view : View) (hChanging : 0 < view.changing) :
      Move circumstances project view { view with timer := false }
  | buffer (view : View) (request : Nat) (changes : List ChangeEvent)
      (hChanging : 0 < view.changing) :
      Move circumstances project view
        ({ view with changes := view.changes ++ changes }.tell (.buffered request project changes))
  | arm (view : View) :
      Move circumstances project view { view with timer := true }
  | require (view : View) (hOff : circumstances.MaySwitchOff project) :
      Move circumstances project view
        ({ view with build := { view.build with required := true } }.tell (.required project))
  | queue (view : View) (explicit : Bool) (hProgress : view.build.inProgress = true) :
      Move circumstances project view
        ({ view with build := view.build.begin explicit }.tell (.queued project explicit))
  | take (view : View) (explicit : Bool) (hIdle : view.build.inProgress = false) :
      Move circumstances project view
        (({ view with
            timer := false
            changes := []
            build := view.build.begin explicit
            phases := view.phases ++ [Phase.waiting (if explicit then none else some view.changes)]
          }.tell (.begun project explicit)).tell (.drained project view.changes))
  | leave (view : View) (changing : Nat) (hChanging : view.changing = changing + 1)
      (hSettled : view.Settled) :
      Move circumstances project view { view with changing := changing }
  | refuse (view : View) (changing : Nat) (hChanging : view.changing = changing + 1)
      (hFail : circumstances.MayFail) :
      Move circumstances project view { view with changing := changing }
  | lapse (view : View) (hKept : view.changes = [] ∨ view.Kept ∨ circumstances.MayFail) :
      Move circumstances project view { view with timer := false }
  | shutdown (view : View) (hShutdown : circumstances.shutdown) :
      Move circumstances project view { view with timer := false }

abbrev Moves (circumstances : Circumstances) (project : String) : View → View → Prop :=
  Relation.ReflTransGen (Move circumstances project)

/-- What a turn of the task that builds a project changes in its view. -/
inductive Advance (circumstances : Circumstances) (project : String) : View → View → Prop where
  | start (view : View) (changes : Option (List ChangeEvent)) (operation : Operation)
      (hPhase : view.phases = [.waiting changes]) (hProject : operation.project.id = project) :
      Advance circumstances project view
        (({ view with phases := [.building] }.tell (.started project)).tell
          (.handed operation changes))
  | finish (view : View) (result : BuildResult) (hPhase : view.phases = [.building]) :
      Advance circumstances project view
        (({ view with
            build := view.build.finish
            phases := view.build.requested.toList.map .preparing
          }.tell (.finished project result)).tell (.passedOn project view.build.requested))
  | find (view : View) (followUp : FollowUp) (hPhase : view.phases = [.preparing followUp]) :
      Advance circumstances project view { view with phases := [.ready followUp] }
  | skip (view : View) (followUp : FollowUp) (hPhase : view.phases = [.preparing followUp])
      (hOff : circumstances.MaySwitchOff project) :
      Advance circumstances project view
        ({ view with
            build := { view.build with required := true }.abandon
            phases := [] }.tell (.required project))
  | abandon (view : View) (followUp : FollowUp) (hPhase : view.phases = [.preparing followUp])
      (hFail : ∃ error, circumstances.lookup project (.failed error)) :
      Advance circumstances project view { view with build := view.build.abandon, phases := [] }
  | vanish (view : View) (followUp : FollowUp) (hPhase : view.phases = [.preparing followUp])
      (hPanic : circumstances.lookup project .panicked) :
      Advance circumstances project view { view with phases := [] }
  | follow (view : View) (followUp : FollowUp) (operation : Operation)
      (hPhase : view.phases = [.ready followUp]) (hProject : operation.project.id = project) :
      Advance circumstances project view
        ((({ view with changes := [], phases := [.building] }.tell
          (.drained project view.changes)).tell (.started project)).tell
            (.handed operation (if followUp.explicit then none else some view.changes)))

end Coordinator

end BuildWatch
