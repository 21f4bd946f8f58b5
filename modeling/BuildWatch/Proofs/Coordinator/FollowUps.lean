import BuildWatch.Proofs.Coordinator.Ledger
import BuildWatch.Proofs.Coordinator.OneBuild
import BuildWatch.Proofs.Histories

/-!
What the requests that come during a build amount to.  All of them collapse into one
follow-up; it is a full build if one of them asked for a build outright, and is told
of the whole buffer otherwise.
-/

namespace BuildWatch

open BuildWatch.Tasks

namespace Coordinator

variable {circumstances : Circumstances} {project : String}

/-! ### Requests that are queued -/

/-- The requests that came during builds of a project, each with whether it asked for a
build outright. -/
structure Tally where
  /-- Those that came since the place of the build was taken or passed on. -/
  queued : List Bool := []
  /-- Those that the build in this place is a follow-up to. -/
  served : List Bool := []

namespace Tally

def hear (project : String) (tally : Tally) : Notice → Tally
  | .begun other _ => if other = project then {} else tally
  | .queued other explicit =>
      if other = project then { tally with queued := tally.queued ++ [explicit] } else tally
  | .passedOn other _ => if other = project then { served := tally.queued } else tally
  | _ => tally

theorem hear_of_ne (tally : Tally) {notice : Notice} (hOther : notice.project? ≠ some project) :
    tally.hear project notice = tally := by
  cases notice with
  | begun other explicit => exact if_neg (Notice.ne_of_project?_ne hOther rfl)
  | queued other explicit => exact if_neg (Notice.ne_of_project?_ne hOther rfl)
  | passedOn other followUp? => exact if_neg (Notice.ne_of_project?_ne hOther rfl)
  | _ => rfl

end Tally

def tally (project : String) (history : List Notice) : Tally :=
  history.foldl (Tally.hear project) {}

theorem tally_tell (view : View) (notice : Notice) :
    tally project (view.tell notice).history =
      (tally project view.history).hear project notice := by
  change (view.history ++ [notice]).foldl (Tally.hear project) {} = _
  rw [List.foldl_append]
  rfl

/-- The follow-up that some requests collapse into. -/
def followUpFor : List Bool → Option FollowUp
  | [] => none
  | requests => some { explicit := requests.any id }

theorem requested_begin {build : BuildState} {requests : List Bool}
    (hRequested : build.requested = followUpFor requests) (hProgress : build.inProgress = true)
    (explicit : Bool) :
    (build.begin explicit).requested = followUpFor (requests ++ [explicit]) := by
  unfold BuildState.begin
  rw [if_pos hProgress]
  cases requests with
  | nil => simp [hRequested, followUpFor]
  | cons first rest => simp [hRequested, followUpFor, Bool.or_comm, Bool.or_left_comm]

/-- A tally fits where a build stands. -/
structure Tally.Fits (tally : Tally) (build : BuildState) (phases : List Phase) : Prop where
  requested : build.requested = followUpFor tally.queued
  idle : build.inProgress = false → build.requested = none
  busy : build.inProgress = true → phases ≠ []
  first : ∀ changes, .waiting changes ∈ phases → tally.served = []
  following : ∀ followUp, .preparing followUp ∈ phases ∨ .ready followUp ∈ phases →
    followUpFor tally.served = some followUp

def View.Tallied (project : String) (view : View) : Prop :=
  (tally project view.history).Fits view.build view.phases

section

variable {view after : View}

theorem View.Tallied.move (hTallied : view.Tallied project) (hOne : view.OneBuild)
    (hMove : Move circumstances project view after) : after.Tallied project := by
  obtain ⟨hRequested, hIdleNone, hBusy, hFirst, hFollowing⟩ := hTallied
  unfold View.Tallied
  cases hMove with
  | elsewhere notice hOther =>
      rw [tally_tell, Tally.hear_of_ne _ hOther]
      exact ⟨hRequested, hIdleNone, hBusy, hFirst, hFollowing⟩
  | buffer request changes hChanging =>
      rw [tally_tell]
      exact ⟨hRequested, hIdleNone, hBusy, hFirst, hFollowing⟩
  | require hOff =>
      rw [tally_tell]
      exact ⟨hRequested, hIdleNone, hBusy, hFirst, hFollowing⟩
  | queue explicit hProgress =>
      have hHear : (tally project view.history).hear project (.queued project explicit) =
          { tally project view.history with
            queued := (tally project view.history).queued ++ [explicit] } := if_pos rfl
      rw [tally_tell, hHear]
      refine ⟨requested_begin hRequested hProgress explicit, ?_, fun _ => hBusy hProgress, hFirst,
        hFollowing⟩
      intro hIdle
      simp [BuildState.begin, hProgress] at hIdle
  | take explicit hIdle =>
      have hNone := hOne.idle_phases hIdle
      have hHear : (tally project view.history).hear project (.begun project explicit) = {} :=
        if_pos rfl
      have hNoRequest : (view.build.begin explicit).requested = none := by
        simp [BuildState.begin, hIdle, hIdleNone hIdle]
      rw [tally_tell, tally_tell, hHear]
      refine ⟨hNoRequest, fun _ => hNoRequest, ?_, fun _ _ => rfl, ?_⟩
      · simp
      · intro followUp hPhase
        simp [hNone] at hPhase
  | _ => exact ⟨hRequested, hIdleNone, hBusy, hFirst, hFollowing⟩

/-- The follow-up to a build takes its place, as every lookup finds that the project is built
on its own. -/
theorem View.Tallied.advance (hTallied : view.Tallied project)
    (hAdvance : Advance (.automatic project) project view after) : after.Tallied project := by
  obtain ⟨hRequested, hIdleNone, hBusy, hFirst, hFollowing⟩ := hTallied
  unfold View.Tallied
  cases hAdvance with
  | start changes operation hPhase hProject =>
      rw [tally_tell, tally_tell]
      refine ⟨hRequested, hIdleNone, by simp, ?_, ?_⟩
      · intro waiting hWaiting
        simp at hWaiting
      · intro followUp hPhase
        simp at hPhase
  | finish result hPhase =>
      have hHear : (tally project view.history).hear project
          (.passedOn project view.build.requested) =
            { served := (tally project view.history).queued } := if_pos rfl
      rw [tally_tell, tally_tell]
      change Tally.Fits ((tally project view.history).hear project
        (.passedOn project view.build.requested)) _ _
      rw [hHear]
      -- The requests are consumed with the follow-up that they collapse into.
      have hNoRequest : view.build.finish.requested = none := by
        cases hCase : view.build.requested with
        | none => simp [BuildState.finish, hCase]
        | some followUp => simp [BuildState.finish, hCase]
      refine ⟨hNoRequest, fun _ => hNoRequest, ?_, ?_, ?_⟩
      · cases hCase : view.build.requested with
        | none => simp [BuildState.finish, hCase]
        | some followUp => simp
      · intro waiting hWaiting
        cases hCase : view.build.requested <;> simp [hCase] at hWaiting
      · intro followUp hFollowUp
        rw [← hRequested]
        cases hCase : view.build.requested <;> simp [hCase] at hFollowUp ⊢
        exact hFollowUp.symm
  | find followUp hPhase =>
      refine ⟨hRequested, hIdleNone, by simp, ?_, ?_⟩
      · intro waiting hWaiting
        simp at hWaiting
      · intro other hOther
        have hSame : other = followUp := by simpa using hOther
        subst hSame
        exact hFollowing other (Or.inl (by simp [hPhase]))
  | skip followUp hPhase hOff => exact absurd hOff Circumstances.not_maySwitchOff_automatic
  | abandon followUp hPhase hFail => exact absurd hFail Circumstances.not_failed_automatic
  | vanish followUp hPhase hPanic => exact absurd hPanic Circumstances.not_panicked_automatic
  | follow followUp operation hPhase hProject =>
      rw [tally_tell, tally_tell, tally_tell]
      refine ⟨hRequested, hIdleNone, by simp, ?_, ?_⟩
      · intro waiting hWaiting
        simp at hWaiting
      · intro followUp hPhase
        simp at hPhase

end

/-! ### What is told in its time -/

/-- Something holds of every notice and what was told before it. -/
def Told (holds : List Notice → Notice → Prop) (history : List Notice) : Prop :=
  ∀ before notice after, history = before ++ notice :: after → holds before notice

theorem told_nil (holds : List Notice → Notice → Prop) : Told holds [] := by
  intro before notice after hSplit
  simp at hSplit

theorem Told.concat {holds : List Notice → Notice → Prop} {history : List Notice}
    {notice : Notice} (hTold : Told holds history) (hLast : holds history notice) :
    Told holds (history ++ [notice]) := by
  intro before other after hSplit
  rcases split_concat hSplit with ⟨_, hBefore, hOther⟩ | ⟨rest, _, hHistory⟩
  · rw [hBefore, hOther]
    exact hLast
  · exact hTold before other rest hHistory

theorem told_singleton {holds : List Notice → Notice → Prop} {notice : Notice}
    (hHolds : holds [] notice) : Told holds [notice] :=
  (told_nil holds).concat hHolds

theorem Told.append {holds : List Notice → Notice → Prop} {history more : List Notice}
    (hTold : Told holds history)
    (hMore : Told (fun before notice => holds (history ++ before) notice) more) :
    Told holds (history ++ more) := by
  induction more using List.reverseRecOn with
  | nil =>
      rw [List.append_nil]
      exact hTold
  | append_singleton more last ih =>
      rw [← List.append_assoc]
      refine Told.concat (ih ?_) (hMore more last [] rfl)
      intro before notice after hSplit
      refine hMore before notice (after ++ [last]) ?_
      rw [hSplit, List.append_assoc, List.cons_append]

section

variable {view after : View}

theorem Told.tell {holds : List Notice → Notice → Prop} {notice : Notice}
    (hTold : Told holds view.history) (hLast : holds view.history notice) :
    Told holds (view.tell notice).history :=
  hTold.concat hLast

end

end Coordinator

end BuildWatch
