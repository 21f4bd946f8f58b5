import BuildWatch.Tasks.Executor
import BuildWatch.Tasks.Timers

/-!
Alarms.  At most one alarm is pending for each project: a later one replaces it.
An alarm waits for its delay, prepares, takes the guard locks if there are any,
and goes off only if it is still the one that is kept.  Holders compete with
alarms for the locks.
-/

namespace BuildWatch.Tasks

structure Alarm where
  label : String
  delay : Nat
  /-- The time it takes to prepare; without it there is nothing to prepare. -/
  prepare : Option Nat := none
  /-- The time it takes to go off. -/
  work : Nat := 0
deriving Repr, DecidableEq

inductive Leave where
  | release
  | panic
deriving Repr, DecidableEq

inductive HolderStatus where
  | waiting
  | held
  | released
  | panicked
  | aborted
deriving Repr, DecidableEq

def HolderStatus.name : HolderStatus → String
  | .waiting => "waiting"
  | .held => "held"
  | .released => "released"
  | .panicked => "panicked"
  | .aborted => "aborted"

def Leave.status : Leave → HolderStatus
  | .release => .released
  | .panic => .panicked

inductive AlarmNotice where
  | preparing (project : String) (alarm : Alarm)
  | prepared (project : String) (alarm : Alarm)
  /-- The task of an alarm that was still kept goes off. -/
  | fired (task : Nat) (project : String) (alarm : Alarm)
  | finished (project : String) (alarm : Alarm)
deriving Repr, DecidableEq

def AlarmNotice.project : AlarmNotice → String
  | .preparing project _ => project
  | .prepared project _ => project
  | .fired _ project _ => project
  | .finished project _ => project

def AlarmNotice.text : AlarmNotice → String
  | .preparing _ alarm => "preparing " ++ alarm.label
  | .prepared _ alarm => "prepared " ++ alarm.label
  | .fired _ _ alarm =>
      match alarm.prepare with
      | none => "fired " ++ alarm.label
      | some _ => "fired " ++ alarm.label ++ " with value of " ++ alarm.label
  | .finished _ alarm => "finished " ++ alarm.label

namespace Alarms

inductive Stage where
  /-- A holder has been started. -/
  | claim (holder : String) (names : List String)
  /-- A holder has its locks. -/
  | inside (holder : String)
  /-- A holder has been told to leave. -/
  | leave (holder : String)
  /-- An alarm has been armed. -/
  | armed (project : String) (alarm : Alarm)
  /-- The delay of an alarm is over. -/
  | elapsed (project : String) (alarm : Alarm)
  /-- An alarm has prepared. -/
  | prepared (project : String) (alarm : Alarm)
  /-- An alarm has the guard locks. -/
  | guarded (project : String) (alarm : Alarm)
  /-- An alarm has gone off. -/
  | worked (project : String) (alarm : Alarm)
deriving Repr, DecidableEq

structure Shared where
  /-- The locks an alarm takes before it goes off. -/
  guardNames : Option (List String) := none
  timers : Timers := {}
  statuses : Table HolderStatus := {}
  /-- What alarms told so far. -/
  history : List AlarmNotice := []
deriving Repr, DecidableEq

namespace Shared

def note (shared : Shared) (notice : AlarmNotice) : Shared :=
  { shared with history := shared.history ++ [notice] }

def setStatus (shared : Shared) (holder : String) (status : HolderStatus) : Shared :=
  { shared with statuses := shared.statuses.set holder status }

end Shared

abbrev AlarmTurn := Turn Stage String Shared

def takeGuard (project : String) (alarm : Alarm) (shared : Shared) : AlarmTurn :=
  { data := shared
    next := .acquire (shared.guardNames.getD []) (.guarded project alarm) }

def beginPreparing (project : String) (alarm : Alarm) (shared : Shared) : AlarmTurn :=
  match alarm.prepare with
  | none => takeGuard project alarm shared
  | some duration =>
      { data := shared.note (.preparing project alarm)
        next := .sleep duration (.prepared project alarm) }

/-- An alarm that has the guard locks goes off if it is still kept. -/
def fire (self : Nat) (project : String) (alarm : Alarm) (shared : Shared) : AlarmTurn :=
  match shared.timers.claim? project self with
  | none => { data := shared, next := .finish }
  | some timers =>
      let shared := { shared with timers := timers }.note (.fired self project alarm)
      if alarm.work = 0 then { data := shared, next := .finish }
      else { data := shared, next := .sleep alarm.work (.worked project alarm) }

def resume (self _fresh : Nat) (stage : Stage) (answer? : Option Leave) (shared : Shared) :
    AlarmTurn :=
  match stage with
  | .claim holder names => { data := shared, next := .acquire names (.inside holder) }
  | .inside holder =>
      { data := shared.setStatus holder .held, next := .ask holder (.leave holder) }
  | .leave holder =>
      let leave := answer?.getD .release
      { data := shared.setStatus holder leave.status, next := .finish }
  | .armed project alarm =>
      { data := shared, next := .sleep alarm.delay (.elapsed project alarm) }
  | .elapsed project alarm => beginPreparing project alarm shared
  | .prepared project alarm =>
      takeGuard project alarm (shared.note (.prepared project alarm))
  | .guarded project alarm => fire self project alarm shared
  | .worked project alarm =>
      { data := shared.note (.finished project alarm), next := .finish }

def program : Program Stage String Leave Shared := { resume := resume }

abbrev Scheduler := System Stage String Shared

namespace Scheduler

def create (guardNames : Option (List String)) : Scheduler :=
  { data := { guardNames := guardNames } }

def dropTasks (scheduler : Scheduler) (tasks : List Nat) : Scheduler :=
  tasks.foldl System.remove scheduler

def mapTimers (scheduler : Scheduler) (change : Timers → Timers) : Scheduler :=
  { scheduler with data := { scheduler.data with timers := change scheduler.data.timers } }

/-- Keep a new task as the one that waits for a project's alarm. -/
def register (scheduler : Scheduler) (project : String) (alarm : Alarm) : Scheduler :=
  mapTimers (scheduler.spawn (.armed project alarm)) (·.arm project scheduler.nextId)

def forget (scheduler : Scheduler) (project : String) : Scheduler :=
  scheduler.mapTimers (·.cancel project)

def forgetAll (scheduler : Scheduler) : Scheduler :=
  scheduler.mapTimers fun _ => {}

def arm (scheduler : Scheduler) (project : String) (alarm : Alarm) : Scheduler :=
  (scheduler.register project alarm).dropTasks (scheduler.data.timers.stale project)

def cancel (scheduler : Scheduler) (project : String) : Scheduler × Bool :=
  match scheduler.data.timers.waiting.get? project with
  | some task => ((scheduler.forget project).remove task, true)
  | none => (scheduler, false)

def cancelAll (scheduler : Scheduler) : Scheduler :=
  scheduler.forgetAll.dropTasks scheduler.data.timers.all

def hold (scheduler : Scheduler) (holder : String) (names : List String) : Scheduler :=
  let scheduler := scheduler.spawn (.claim holder names)
  { scheduler with data := scheduler.data.setStatus holder .waiting }

/-- Drop the task of a holder, whether it has its locks or waits for them. -/
def abort (scheduler : Scheduler) (holder : String) (task : Nat) : Scheduler :=
  let scheduler := scheduler.remove task
  { scheduler with data := scheduler.data.setStatus holder .aborted }

end Scheduler

end Alarms

end BuildWatch.Tasks
