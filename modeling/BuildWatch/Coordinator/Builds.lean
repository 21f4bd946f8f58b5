import BuildWatch.Table

/-!
Builds at work.  At most one build of a project is in progress; requests that
come meanwhile collapse into one follow-up.
-/

namespace BuildWatch

inductive BuildSlot where
  /-- No build was in progress; the caller owns the one that is now. -/
  | started
  /-- A build is in progress; another will follow it. -/
  | queued
deriving Repr, DecidableEq

structure FollowUp where
  /-- Whether one of its requests asked for a build outright. -/
  explicit : Bool
deriving Repr, DecidableEq

structure BuildState where
  inProgress : Bool := false
  requested : Option FollowUp := none
  /-- Changes wait because nothing is built on its own. -/
  required : Bool := false
deriving Repr, DecidableEq

namespace BuildState

def isIdle (state : BuildState) : Bool :=
  state = {}

def begin (state : BuildState) (explicit : Bool) : BuildState :=
  if state.inProgress then
    let explicit := explicit || (state.requested.map FollowUp.explicit).getD false
    { state with requested := some { explicit := explicit } }
  else { state with inProgress := true, required := false }

/-- The state after the end of a build; a follow-up that is due takes its place. -/
def finish (state : BuildState) : BuildState :=
  match state.requested with
  | some _ => { state with requested := none }
  | none => { state with inProgress := false }

def abandon (state : BuildState) : BuildState :=
  { state with inProgress := false, requested := none }

end BuildState

/-- Where the builds of each project stand; idle projects are not kept. -/
structure Builds where
  states : Table BuildState := {}
deriving Repr, DecidableEq

namespace Builds

instance : Inhabited Builds := ⟨{}⟩

def state (builds : Builds) (project : String) : BuildState :=
  (builds.states.get? project).getD {}

def setState (builds : Builds) (project : String) (state : BuildState) : Builds :=
  { states := builds.states.put project (if state.isIdle then none else some state) }

def slot (builds : Builds) (project : String) : BuildSlot :=
  if (builds.state project).inProgress then .queued else .started

/-- Start a build, or have one follow the build in progress. -/
def begin (builds : Builds) (project : String) (explicit : Bool) : Builds :=
  builds.setState project ((builds.state project).begin explicit)

def followUp? (builds : Builds) (project : String) : Option FollowUp :=
  (builds.state project).requested

def finish (builds : Builds) (project : String) : Builds :=
  builds.setState project (builds.state project).finish

def abandon (builds : Builds) (project : String) : Builds :=
  builds.setState project (builds.state project).abandon

def require (builds : Builds) (project : String) (required : Bool) : Builds :=
  builds.setState project { builds.state project with required := required }

/-! ### What the operations do to the states kept -/

theorem state_setState (builds : Builds) (project other : String) (state : BuildState) :
    (builds.setState project state).state other =
      if other = project then state else builds.state other := by
  unfold setState Builds.state
  rw [Table.get?_put]
  by_cases hSame : other = project
  · rw [if_pos hSame, if_pos hSame]
    cases hIdle : state.isIdle with
    | true =>
        have hEmpty : state = {} := of_decide_eq_true hIdle
        rw [hEmpty]
        rfl
    | false => rfl
  · rw [if_neg hSame, if_neg hSame]

theorem state_begin (builds : Builds) (project other : String) (explicit : Bool) :
    (builds.begin project explicit).state other =
      if other = project then (builds.state project).begin explicit else builds.state other :=
  state_setState builds project other _

theorem state_finish (builds : Builds) (project other : String) :
    (builds.finish project).state other =
      if other = project then (builds.state project).finish else builds.state other :=
  state_setState builds project other _

theorem state_abandon (builds : Builds) (project other : String) :
    (builds.abandon project).state other =
      if other = project then (builds.state project).abandon else builds.state other :=
  state_setState builds project other _

theorem state_require (builds : Builds) (project other : String) (required : Bool) :
    (builds.require project required).state other =
      if other = project then { builds.state project with required := required }
      else builds.state other :=
  state_setState builds project other _

theorem slot_eq_started_iff (builds : Builds) (project : String) :
    builds.slot project = .started ↔ (builds.state project).inProgress = false := by
  unfold slot
  cases (builds.state project).inProgress <;> simp

end Builds

end BuildWatch
