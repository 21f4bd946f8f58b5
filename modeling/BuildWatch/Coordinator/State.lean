import BuildWatch.Configuration.Basic
import BuildWatch.Coordinator.Batches
import BuildWatch.Coordinator.Builds
import BuildWatch.Coordinator.Notification
import BuildWatch.Coordinator.Update
import BuildWatch.Handler.Basic
import BuildWatch.Project.InfoDirectory
import BuildWatch.Tasks.Timers

/-!
What the coordinator knows, what it asks of its surroundings, and what it tells.
-/

namespace BuildWatch

open BuildWatch.Tasks

structure CoordinatorOptions where
  /-- The quiet period after which an incomplete batch is built. -/
  quietPeriod : Nat
  /-- The settings file at the root of a project. -/
  settingsFile : String := ".cw-settings"
  /-- What the names of containers and images start with. -/
  containerPrefix : String := "mc-"
  /-- Whether settings can be applied at all. -/
  appliesSettings : Bool := true
deriving Repr, DecidableEq

namespace CoordinatorOptions

/-- The options a configuration asks for; time is counted in milliseconds. -/
def ofConfiguration (configuration : Configuration) : CoordinatorOptions :=
  { quietPeriod := configuration.coordinator.debounceMs.toNat
    settingsFile := configuration.coordinator.settingsFile
    containerPrefix := configuration.containers.namePrefix }

def operation (options : CoordinatorOptions) (info : ProjectInfo) : Operation :=
  { project := info, container := options.containerPrefix ++ info.id }

def isSettingsEvent (options : CoordinatorOptions) (event : ChangeEvent) : Bool :=
  event.isFileNamed options.settingsFile

end CoordinatorOptions

/-! ### Questions and answers -/

inductive Lookup where
  | found (info : ProjectInfo)
  | failed (error : LookupError)
  | panicked
deriving Repr, DecidableEq

inductive BuildResult where
  | done (outcome : BuildOutcome)
  | failed (failure : Failure)
  | panicked
deriving Repr, DecidableEq

def BuildResult.text : BuildResult → String
  | .done outcome => outcome.name
  | .failed failure => "error: " ++ failure.chain
  | .panicked => "error: build handler panicked"

inductive SettingsResult where
  | applied
  | failed
  | panicked
deriving Repr, DecidableEq

/-- What the coordinator asks of its surroundings. -/
inductive Query where
  | lookUp (project : String)
  | loadSettings (path : Files.Path)
  | applySettings (project : String) (settings : Settings)
  | build (operation : Operation) (changes : Option (List ChangeEvent))
deriving Repr

inductive Answer where
  | lookup (result : Lookup)
  | settings (loaded : Option Settings)
  | applied (result : SettingsResult)
  | build (result : BuildResult)
deriving Repr

namespace Answer

/-- The answer to a lookup; any other answer is none. -/
def toLookup : Option Answer → Lookup
  | some (.lookup result) => result
  | _ => .panicked

def toSettings : Option Answer → Option Settings
  | some (.settings loaded) => loaded
  | _ => none

def toApplied : Option Answer → SettingsResult
  | some (.applied result) => result
  | _ => .panicked

def toBuildResult : Option Answer → BuildResult
  | some (.build result) => result
  | _ => .panicked

end Answer

/-! ### What is told -/

inductive Notice where
  /-- Changes wait because the project is not built on its own. -/
  | required (project : String)
  /-- A build will follow the one in progress. -/
  | queued (project : String) (explicit : Bool)
  /-- A request for a build finds none in progress and begins one. -/
  | begun (project : String) (explicit : Bool)
  /-- A build starts. -/
  | started (project : String)
  /-- A build is handed to its handler. -/
  | handed (operation : Operation) (changes : Option (List ChangeEvent))
  /-- A build has ended. -/
  | finished (project : String) (result : BuildResult)
  /-- The place of a build that has ended goes to a follow-up, or is given up. -/
  | passedOn (project : String) (followUp? : Option FollowUp)
  /-- Settings are applied to a project. -/
  | applying (project : String) (settings : Settings)
  /-- A request puts changes into the buffer of a project. -/
  | buffered (request : Nat) (project : String) (changes : List ChangeEvent)
  /-- A build takes all changes from the buffer of a project. -/
  | drained (project : String) (changes : List ChangeEvent)
  /-- A request is answered. -/
  | answered (request : Nat) (result : UpdateResult)

/-! ### What is known -/

structure CoordinatorState where
  /-- The quiet periods that run. -/
  timers : Timers := {}
  /-- The changes that no build has taken yet. -/
  pending : Table (List ChangeEvent) := {}
  batches : Batches := {}
  builds : Builds := {}
  /-- What was told so far. -/
  history : List Notice := []

namespace CoordinatorState

def changes (state : CoordinatorState) (project : String) : List ChangeEvent :=
  (state.pending.get? project).getD []

def hasChanges (state : CoordinatorState) (project : String) : Bool :=
  !(state.changes project).isEmpty

def tell (state : CoordinatorState) (notice : Notice) : CoordinatorState :=
  { state with history := state.history ++ [notice] }

def buffer (state : CoordinatorState) (request : Nat) (project : String)
    (changes : List ChangeEvent) : CoordinatorState :=
  { state with pending := state.pending.set project (state.changes project ++ changes) }.tell
    (.buffered request project changes)

def drain (state : CoordinatorState) (project : String) : CoordinatorState :=
  { state with pending := state.pending.erase project }.tell
    (.drained project (state.changes project))

def require (state : CoordinatorState) (project : String) : CoordinatorState :=
  { state with builds := state.builds.require project true }.tell (.required project)

/-! ### What the operations do to the changes that wait -/

theorem changes_buffer (state : CoordinatorState) (request : Nat) (project other : String)
    (changes : List ChangeEvent) :
    (state.buffer request project changes).changes other =
      if other = project then state.changes project ++ changes else state.changes other := by
  change ((state.pending.set project (state.changes project ++ changes)).get? other).getD [] = _
  rw [Table.get?_set]
  by_cases hSame : other = project
  · rw [if_pos hSame, if_pos hSame]
    rfl
  · rw [if_neg hSame, if_neg hSame]
    rfl

theorem changes_drain (state : CoordinatorState) (project other : String) :
    (state.drain project).changes other =
      if other = project then [] else state.changes other := by
  change ((state.pending.erase project).get? other).getD [] = _
  rw [Table.get?_erase]
  by_cases hSame : other = project
  · rw [if_pos hSame, if_pos hSame]
    rfl
  · rw [if_neg hSame, if_neg hSame]
    rfl

theorem hasChanges_eq_false_iff (state : CoordinatorState) (project : String) :
    state.hasChanges project = false ↔ state.changes project = [] := by
  unfold hasChanges
  cases state.changes project <;> simp

end CoordinatorState

end BuildWatch
