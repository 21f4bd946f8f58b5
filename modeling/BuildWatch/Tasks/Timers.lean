import BuildWatch.Table

/-!
Pending timers, at most one for each project.  A timer is known by the task that
waits for it; when the time comes, that task must still be the one that is kept.
-/

namespace BuildWatch.Tasks

/-- The tasks that wait for a project's timer. -/
structure Timers where
  waiting : Table Nat := {}
deriving Repr, DecidableEq

namespace Timers

instance : Inhabited Timers := ⟨{}⟩

def isPending (timers : Timers) (project : String) : Bool :=
  timers.waiting.contains project

/-- The tasks that are in the way of a project's next timer. -/
def stale (timers : Timers) (project : String) : List Nat :=
  (timers.waiting.get? project).toList

def arm (timers : Timers) (project : String) (task : Nat) : Timers :=
  { waiting := timers.waiting.set project task }

def cancel (timers : Timers) (project : String) : Timers :=
  { waiting := timers.waiting.erase project }

def all (timers : Timers) : List Nat :=
  timers.waiting.names.filterMap timers.waiting.get?

/-- A task whose time has come forgets the timer, if it is still the one that is kept. -/
def claim? (timers : Timers) (project : String) (task : Nat) : Option Timers :=
  if timers.waiting.get? project = some task then some (timers.cancel project) else none

/-! ### What the operations do to the timers kept -/

theorem get?_arm (timers : Timers) (project other : String) (task : Nat) :
    (timers.arm project task).waiting.get? other =
      if other = project then some task else timers.waiting.get? other :=
  Table.get?_set timers.waiting project other task

theorem get?_cancel (timers : Timers) (project other : String) :
    (timers.cancel project).waiting.get? other =
      if other = project then none else timers.waiting.get? other :=
  Table.get?_erase timers.waiting project other

theorem cancel_of_absent {timers : Timers} {project : String}
    (hAbsent : timers.waiting.get? project = none) : timers.cancel project = timers := by
  unfold cancel
  rw [Table.erase_of_absent hAbsent]

theorem isPending_arm (timers : Timers) (project other : String) (task : Nat) :
    (timers.arm project task).isPending other =
      if other = project then true else timers.isPending other := by
  unfold isPending Table.contains
  rw [get?_arm]
  by_cases hSame : other = project <;> simp [hSame]

theorem isPending_cancel (timers : Timers) (project other : String) :
    (timers.cancel project).isPending other =
      if other = project then false else timers.isPending other := by
  unfold isPending Table.contains
  rw [get?_cancel]
  by_cases hSame : other = project <;> simp [hSame]

theorem mem_stale_iff (timers : Timers) (project : String) (task : Nat) :
    task ∈ timers.stale project ↔ timers.waiting.get? project = some task := by
  unfold stale
  exact Option.mem_toList

theorem exists_of_mem_all {timers : Timers} {task : Nat} (hTask : task ∈ timers.all) :
    ∃ project, timers.waiting.get? project = some task := by
  obtain ⟨project, _, hKept⟩ := List.mem_filterMap.mp hTask
  exact ⟨project, hKept⟩

theorem mem_all_of_kept {timers : Timers} {project : String} {task : Nat}
    (hKept : timers.waiting.get? project = some task) : task ∈ timers.all :=
  List.mem_filterMap.mpr ⟨project, Table.mem_names_of_get? hKept, hKept⟩

theorem claim?_eq_some_iff (timers later : Timers) (project : String) (task : Nat) :
    timers.claim? project task = some later ↔
      timers.waiting.get? project = some task ∧ later = timers.cancel project := by
  unfold claim?
  by_cases hKept : timers.waiting.get? project = some task
  · simp [hKept, eq_comm]
  · simp [hKept]

end Timers

end BuildWatch.Tasks
