import BuildWatch.Proofs.Coordinator.Progress
import Mathlib.Algebra.GroupWithZero.Nat
import Mathlib.Algebra.Order.BigOperators.Group.List

/-!
Every request can be answered.  A request has a few turns until it is answered, and if it
waits for locks then some task is granted those it waits for; so a number of turns is enough,
with no new call and no time that passes.
-/

namespace BuildWatch

open BuildWatch.Tasks

namespace Coordinator

variable {circumstances : Circumstances} {options : CoordinatorOptions}
variable {system : CoordinatorSystem}

/-! ### Turns that are left -/

/-- So many turns a request at a stage has at most until it is answered. -/
def Stage.turnsLeft : Stage → Nat
  | .change _ => 8
  | .changeFound _ => 7
  | .changeTimer _ _ => 6
  | .changeLoaded _ _ => 5
  | .changeApplied _ _ => 4
  | .changeRefreshed _ => 3
  | .changeBuffer _ _ => 2
  | .changeLocked _ _ => 1
  | .update _ => 3
  | .updateFound _ => 2
  | .updateLocked _ _ => 1
  | _ => 0

theorem resume_turnsLeft (options : CoordinatorOptions) (self fresh : Nat) {stage later : Stage}
    (answer? : Option Answer) (data : CoordinatorState) (hRequest : 0 < stage.turnsLeft)
    (hLater : (resume options self fresh stage answer? data).next.stage? = some later) :
    later.turnsLeft < stage.turnsLeft := by
  have hProceeds {work : Work} {release : Bool} {chunk : Change} {info : ProjectInfo}
      (hNext : (proceed options work release chunk info).next.stage? = some later) :
      later.turnsLeft ≤ 2 := by
    unfold proceed at hNext
    split at hNext <;> cases hNext <;> simp [Stage.turnsLeft]
  have hLookup {work : Work} {asked : String} {lookup : Lookup} {bound : Nat}
      {next : ProjectInfo → CoordinatorTurn}
      (hNext : (withProject work self asked lookup next).next.stage? = some later)
      (hFound : ∀ info, (next info).next.stage? = some later → later.turnsLeft < bound) :
      later.turnsLeft < bound := by
    cases lookup with
    | found info => exact hFound info hNext
    | failed error => cases hNext
    | panicked => cases hNext
  cases stage with
  | update asked =>
      cases hLater
      simp [Stage.turnsLeft]
  | updateFound asked =>
      refine hLookup hLater ?_
      intro info hNext
      unfold updateWith at hNext
      split at hNext <;> cases hNext
      simp [Stage.turnsLeft]
  | updateLocked asked info => cases hLater
  | change chunk =>
      cases hLater
      simp [Stage.turnsLeft]
  | changeFound chunk =>
      refine hLookup hLater ?_
      rintro info ⟨⟩
      simp [Stage.turnsLeft]
  | changeTimer chunk info =>
      simp only [resume] at hLater
      unfold afterCancel at hLater
      split at hLater
      · cases hLater
        simp [Stage.turnsLeft]
      · exact Nat.lt_of_le_of_lt (hProceeds hLater) (by simp [Stage.turnsLeft])
  | changeLoaded chunk info =>
      simp only [resume] at hLater
      unfold afterLoad at hLater
      split at hLater
      · split at hLater
        · cases hLater
          simp [Stage.turnsLeft]
        · exact Nat.lt_of_le_of_lt (hProceeds hLater) (by simp [Stage.turnsLeft])
      · exact Nat.lt_of_le_of_lt (hProceeds hLater) (by simp [Stage.turnsLeft])
  | changeApplied chunk info =>
      simp only [resume] at hLater
      split at hLater
      · cases hLater
        simp [Stage.turnsLeft]
      · exact Nat.lt_of_le_of_lt (hProceeds hLater) (by simp [Stage.turnsLeft])
      · cases hLater
  | changeRefreshed chunk =>
      refine hLookup hLater ?_
      intro info hNext
      exact Nat.lt_of_le_of_lt (hProceeds hNext) (by simp [Stage.turnsLeft])
  | changeBuffer chunk info =>
      cases hLater
      simp [Stage.turnsLeft]
  | changeLocked chunk info => cases hLater
  | _ => cases hRequest

def turnsLeft (system : CoordinatorSystem) : Nat :=
  ((system.tasks.map Task.stage).map Stage.turnsLeft).sum

end Coordinator

end BuildWatch
