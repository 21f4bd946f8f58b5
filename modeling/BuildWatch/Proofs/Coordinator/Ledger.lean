import BuildWatch.Proofs.Coordinator.Requests
import BuildWatch.Proofs.Coordinator.RunViews

/-!
Where the changes of a project go.  What accepted notifications have put into the
buffer is, in that order, what builds have taken out of it followed by what is still
there; and the lists that were taken are those that the builds are handed, one by one.
-/

namespace BuildWatch

open BuildWatch.Tasks

def Notice.appended? (project : String) : Notice → Option (Nat × List ChangeEvent)
  | .buffered request other changes => if other = project then some (request, changes) else none
  | _ => none

def Notice.drained? (project : String) : Notice → Option (List ChangeEvent)
  | .drained other changes => if other = project then some changes else none
  | _ => none

def Notice.handed? (project : String) : Notice → Option (Option (List ChangeEvent))
  | .handed operation changes => if operation.project.id = project then some changes else none
  | _ => none

namespace Coordinator

variable {circumstances : Circumstances} {options : CoordinatorOptions} {project : String}

def appended (project : String) (history : List Notice) : List (Nat × List ChangeEvent) :=
  history.filterMap (Notice.appended? project)

/-- The lists that builds of a project took from the buffer, in the order of the builds. -/
def drained (project : String) (history : List Notice) : List (List ChangeEvent) :=
  history.filterMap (Notice.drained? project)

/-- What the handler was told of in the builds of a project. -/
def handedOver (project : String) (history : List Notice) : List (Option (List ChangeEvent)) :=
  history.filterMap (Notice.handed? project)

/-- What a build that has not been handed over will tell the handler of. -/
def Phase.waiting? : Phase → Option (Option (List ChangeEvent))
  | .waiting changes => some changes
  | _ => none

/-- A build is told of the list it took, or of nothing at all if it was asked for outright. -/
def TellsOf (taken : List ChangeEvent) (handed : Option (List ChangeEvent)) : Prop :=
  handed = none ∨ handed = some taken

theorem tellsOf_taken (taken : List ChangeEvent) (explicit : Bool) :
    TellsOf taken (if explicit then none else some taken) := by
  cases explicit with
  | true => exact Or.inl rfl
  | false => exact Or.inr rfl

/-! ### The balance of a view -/

/-- The buffer of a project is balanced, and its builds are told of what they took. -/
structure View.Balanced (project : String) (view : View) : Prop where
  balance : (drained project view.history).flatten ++ view.changes =
    ((appended project view.history).map Prod.snd).flatten
  told : List.Forall₂ TellsOf (drained project view.history)
    (handedOver project view.history ++ view.phases.filterMap Phase.waiting?)

section

variable {view after : View}

theorem appended_tell (view : View) (notice : Notice) :
    appended project (view.tell notice).history =
      appended project view.history ++ (notice.appended? project).toList :=
  View.filterMap_tell _ view notice

theorem drained_tell (view : View) (notice : Notice) :
    drained project (view.tell notice).history =
      drained project view.history ++ (notice.drained? project).toList :=
  View.filterMap_tell _ view notice

theorem handedOver_tell (view : View) (notice : Notice) :
    handedOver project (view.tell notice).history =
      handedOver project view.history ++ (notice.handed? project).toList :=
  View.filterMap_tell _ view notice

theorem View.Balanced.congr (hBalanced : view.Balanced project)
    (hChanges : after.changes = view.changes)
    (hPhases : after.phases.filterMap Phase.waiting? = view.phases.filterMap Phase.waiting?)
    (hHistory : after.history = view.history) : after.Balanced project := by
  refine ⟨?_, ?_⟩
  · rw [hHistory, hChanges]
    exact hBalanced.balance
  · rw [hHistory, hPhases]
    exact hBalanced.told

theorem View.Balanced.tell (hBalanced : view.Balanced project) {notice : Notice}
    (hAppended : notice.appended? project = none) (hDrained : notice.drained? project = none)
    (hHanded : notice.handed? project = none) : (view.tell notice).Balanced project := by
  refine ⟨?_, ?_⟩
  · rw [drained_tell, appended_tell, hAppended, hDrained, Option.toList_none, List.append_nil,
      Option.toList_none, List.append_nil]
    exact hBalanced.balance
  · rw [drained_tell, handedOver_tell, hHanded, hDrained, Option.toList_none, List.append_nil,
      Option.toList_none, List.append_nil]
    exact hBalanced.told

theorem View.Balanced.tell_other (hBalanced : view.Balanced project) {notice : Notice}
    (hOther : notice.project? ≠ some project) : (view.tell notice).Balanced project := by
  refine hBalanced.tell ?_ ?_ ?_
  · cases notice with
    | buffered request other changes => exact if_neg (Notice.ne_of_project?_ne hOther rfl)
    | _ => rfl
  · cases notice with
    | drained other changes => exact if_neg (Notice.ne_of_project?_ne hOther rfl)
    | _ => rfl
  · cases notice with
    | handed operation changes => exact if_neg (Notice.ne_of_project?_ne hOther rfl)
    | _ => rfl

theorem View.Balanced.move (hBalanced : view.Balanced project) (hOne : view.OneBuild)
    (hMove : Move circumstances project view after) : after.Balanced project := by
  cases hMove with
  | elsewhere notice hOther => exact hBalanced.tell_other hOther
  | buffer request changes hChanging =>
      refine ⟨?_, ?_⟩
      · simp [drained_tell, appended_tell, Notice.drained?, Notice.appended?,
          ← hBalanced.balance]
      · simpa [drained_tell, handedOver_tell, Notice.drained?, Notice.handed?]
          using hBalanced.told
  | require hOff =>
      have hRequired : ({ view with build := { view.build with required := true } } :
          View).Balanced project := hBalanced.congr rfl rfl rfl
      exact hRequired.tell rfl rfl rfl
  | queue explicit hProgress =>
      have hQueued : ({ view with build := view.build.begin explicit } : View).Balanced project :=
        hBalanced.congr rfl rfl rfl
      exact hQueued.tell rfl rfl rfl
  | take explicit hIdle =>
      -- No build waits yet, so the list that is taken belongs to the one that comes.
      have hNone := hOne.idle_phases hIdle
      refine ⟨?_, ?_⟩
      · simp [drained_tell, appended_tell, Notice.drained?, Notice.appended?,
          ← hBalanced.balance]
      · have hTold := hBalanced.told
        rw [hNone, List.filterMap_nil, List.append_nil] at hTold
        simpa [drained_tell, handedOver_tell, Notice.drained?, Notice.handed?, hNone,
          Phase.waiting?] using List.rel_append hTold (.cons (tellsOf_taken _ _) .nil)
  | _ => exact hBalanced.congr rfl rfl rfl

theorem View.Balanced.advance (hBalanced : view.Balanced project)
    (hAdvance : Advance circumstances project view after) : after.Balanced project := by
  have hTold := hBalanced.told
  -- Only a build that starts with the changes it took changes what waits for the handler.
  have hUnmoved {later : View} (hChanges : later.changes = view.changes)
      (hBefore : view.phases.filterMap Phase.waiting? = [])
      (hAfter : later.phases.filterMap Phase.waiting? = [])
      (hHistory : later.history = view.history) : later.Balanced project :=
    hBalanced.congr hChanges (hAfter.trans hBefore.symm) hHistory
  cases hAdvance with
  | start changes operation hPhase hProject =>
      refine ⟨?_, ?_⟩
      · simpa [drained_tell, appended_tell, Notice.drained?, Notice.appended?]
          using hBalanced.balance
      · rw [hPhase] at hTold
        have hBuilding : [Phase.building].filterMap Phase.waiting? = [] := rfl
        simpa [drained_tell, handedOver_tell, Notice.drained?, Notice.handed?, hProject,
          Phase.waiting?, hBuilding] using hTold
  | finish result hPhase =>
      have hEnded : ({ view with
          build := view.build.finish
          phases := view.build.requested.toList.map .preparing } : View).Balanced project := by
        refine hUnmoved rfl (by rw [hPhase]; rfl) ?_ rfl
        cases view.build.requested <;> rfl
      exact (hEnded.tell rfl rfl rfl).tell rfl rfl rfl
  | find followUp hPhase => exact hUnmoved rfl (by rw [hPhase]; rfl) rfl rfl
  | skip followUp hPhase hOff =>
      have hSkipped : ({ view with
          build := { view.build with required := true }.abandon
          phases := [] } : View).Balanced project :=
        hUnmoved rfl (by rw [hPhase]; rfl) rfl rfl
      exact hSkipped.tell rfl rfl rfl
  | abandon followUp hPhase hFail => exact hUnmoved rfl (by rw [hPhase]; rfl) rfl rfl
  | vanish followUp hPhase hPanic => exact hUnmoved rfl (by rw [hPhase]; rfl) rfl rfl
  | follow followUp operation hPhase hProject =>
      have hReady : view.phases.filterMap Phase.waiting? = [] := by
        rw [hPhase]
        rfl
      have hBuilding : [Phase.building].filterMap Phase.waiting? = [] := rfl
      rw [hReady, List.append_nil] at hTold
      refine ⟨?_, ?_⟩
      · simp [drained_tell, appended_tell, Notice.drained?, Notice.appended?,
          ← hBalanced.balance]
      · simpa [drained_tell, handedOver_tell, Notice.drained?, Notice.handed?, hProject,
          hBuilding] using List.rel_append hTold (.cons (tellsOf_taken _ _) .nil)

end

/-! ### The requests behind the changes -/

section

variable {run : Run}

end

/-! ### The ledger of a run -/

/-- The builds of a project that have not been handed over, with what they will tell of. -/
def waitingBuilds (project : String) (run : Run) : List (Option (List ChangeEvent)) :=
  run.system.tasks.filterMap fun task =>
    match task.stage with
    | .build info changes => if info.id = project then some changes else none
    | _ => none

theorem waitingBuilds_eq (run : Run) :
    waitingBuilds project run = (run.view project).phases.filterMap Phase.waiting? := by
  unfold waitingBuilds Run.view systemView View.of
  rw [List.filterMap_filterMap, List.filterMap_map]
  refine List.filterMap_congr ?_
  intro task _
  simp only [Function.comp_apply, Stage.phaseOf?]
  cases task.stage with
  | build info changes =>
      change (if info.id = project then some changes else none) =
        (if info.id = project then some (Phase.waiting changes) else none).bind Phase.waiting?
      split <;> rfl
  | _ => exact (apply_ite (Option.bind · Phase.waiting?) _ _ _).trans (ite_self none) |>.symm

end Coordinator

end BuildWatch
