import BuildWatch.Tasks.System

/-!
Running tasks in a fixed order.  Tasks that are ready run first come first
served; time passes only when none is, and then up to the next time a task
waits for.
-/

namespace BuildWatch.Tasks

namespace System

variable {Stage Query Answer Data : Type} {m : Type → Type} [Monad m]

/-- Resume a task if it has what it waits for; a question is put to the
surroundings, which may not know the answer yet. -/
def poll (program : Program Stage Query Answer Data) (answer : Query → m (Option Answer))
    (system : System Stage Query Data) (task : Task Stage Query) :
    m (System Stage Query Data) := do
  match task.wait with
  | .turn => return system.resume program task none
  | .clock due =>
      if due ≤ system.now then return system.resume program task none else return system
  | .locks =>
      let system := { system with locks := system.locks.settle task.id }
      if system.locks.holds task.id then return system.resume program task none
      else return system
  | .answer query =>
      match ← answer query with
      | some answer => return system.resume program task (some answer)
      | none => return system

/-- Run the tasks that are ready, at most `bound` turns. -/
def runReady (program : Program Stage Query Answer Data) (answer : Query → m (Option Answer)) :
    Nat → System Stage Query Data → m (System Stage Query Data)
  | 0, system => return system
  | bound + 1, system => do
      match system.ready with
      | [] => return system
      | id :: rest =>
          let system := { system with ready := rest }
          match system.task? id with
          | none => runReady program answer bound system
          | some task => runReady program answer bound (← system.poll program answer task)

/-- So many turns are enough for every task, and for what it may start and wake. -/
def turnBound (system : System Stage Query Data) : Nat :=
  let tasks := system.tasks.length + 1
  400 * (tasks * tasks) + system.ready.length

def settle (program : Program Stage Query Answer Data) (answer : Query → m (Option Answer))
    (system : System Stage Query Data) : m (System Stage Query Data) :=
  system.runReady program answer system.turnBound

/-- Wake every task that waits for an answer, the longest waiting first. -/
def wakeAskers (system : System Stage Query Data) : System Stage Query Data :=
  let asking := system.tasks.filter fun task =>
    match task.wait with
    | .answer _ => true
    | _ => false
  (asking.mergeSort (fun task other => task.since ≤ other.since)).foldl
    (fun system task => system.wake task.id) system

def due? (task : Task Stage Query) : Option Nat :=
  match task.wait with
  | .clock due => some due
  | _ => none

def nextDue? (system : System Stage Query Data) : Option Nat :=
  (system.tasks.filterMap due?).min?

/-- Let the clock show a time, as it never goes back, and wake the tasks that wait for
the time, the longest waiting first. -/
def moveTo (system : System Stage Query Data) (time : Nat) : System Stage Query Data :=
  let waiting := system.tasks.filter fun task => due? task == some time
  (waiting.mergeSort (fun task other => task.since ≤ other.since)).foldl
    (fun system task => system.wake task.id) { system with now := max system.now time }

/-- Let time pass up to a moment, at most `bound` times a task waits for. -/
def passTo (program : Program Stage Query Answer Data) (answer : Query → m (Option Answer))
    (target : Nat) : Nat → System Stage Query Data → m (System Stage Query Data)
  | 0, system => return system
  | bound + 1, system => do
      match system.nextDue? with
      | some due =>
          if due ≤ target then
            passTo program answer target bound (← (system.moveTo due).settle program answer)
          else return { system with now := max system.now target }
      | none => return { system with now := max system.now target }

def advance (program : Program Stage Query Answer Data) (answer : Query → m (Option Answer))
    (duration : Nat) (system : System Stage Query Data) : m (System Stage Query Data) :=
  system.passTo program answer (system.now + duration) system.turnBound

end System

end BuildWatch.Tasks
