import BuildWatch.Tasks.Alarms

/-!
Rehearsing alarms and locks: operations are done one after the other, and after
each of them every task runs until it waits.
-/

namespace BuildWatch.Rehearsal

open BuildWatch.Tasks
open BuildWatch.Tasks.Alarms

inductive AlarmOperation where
  | arm (project : String) (alarm : Alarm)
  | cancel (project : String)
  | cancelAll
  | advance (duration : Nat)
  | hold (holder : String) (names : List String)
  | leave (holder : String) (how : Leave)
  | abort (holder : String)
  | other
deriving Repr, DecidableEq

structure AlarmRehearsal where
  scheduler : Scheduler
  holders : Table Nat := {}
  leaving : Table Leave := {}

namespace AlarmRehearsal

def create (guardNames : Option (List String)) : AlarmRehearsal :=
  { scheduler := Scheduler.create guardNames }

def mapScheduler (rehearsal : AlarmRehearsal) (change : Scheduler → Scheduler) : AlarmRehearsal :=
  { rehearsal with scheduler := change rehearsal.scheduler }

def answer (rehearsal : AlarmRehearsal) (holder : String) : Id (Option Leave) :=
  rehearsal.leaving.get? holder

def settle (rehearsal : AlarmRehearsal) : AlarmRehearsal :=
  rehearsal.mapScheduler fun scheduler =>
    Id.run (scheduler.wakeAskers.settle program rehearsal.answer)

def hold (rehearsal : AlarmRehearsal) (holder : String) (names : List String) : AlarmRehearsal :=
  let scheduler := rehearsal.scheduler.dropTasks (rehearsal.holders.get? holder).toList
  { scheduler := scheduler.hold holder names
    holders := rehearsal.holders.set holder scheduler.nextId
    leaving := rehearsal.leaving.erase holder }

/-- Tell a holder to leave as soon as it holds its locks. -/
def leave (rehearsal : AlarmRehearsal) (holder : String) (how : Leave) : AlarmRehearsal :=
  if rehearsal.holders.contains holder && !rehearsal.leaving.contains holder then
    { rehearsal with leaving := rehearsal.leaving.set holder how }
  else rehearsal

def abort (rehearsal : AlarmRehearsal) (holder : String) : AlarmRehearsal :=
  match rehearsal.holders.get? holder with
  | some task =>
      if rehearsal.leaving.contains holder then rehearsal
      else
        { rehearsal with
          holders := rehearsal.holders.erase holder
          scheduler := rehearsal.scheduler.abort holder task }
  | none => rehearsal

/-- Do one operation and let every task run until it waits.  The result says whether
a cancelled alarm was pending. -/
def perform (rehearsal : AlarmRehearsal) : AlarmOperation → AlarmRehearsal × Option Bool
  | .arm project alarm => ((rehearsal.mapScheduler (·.arm project alarm)).settle, none)
  | .cancel project =>
      let (scheduler, cancelled) := rehearsal.scheduler.cancel project
      ({ rehearsal with scheduler := scheduler }.settle, some cancelled)
  | .cancelAll => ((rehearsal.mapScheduler (·.cancelAll)).settle, none)
  | .advance duration =>
      let rehearsal := rehearsal.settle
      (rehearsal.mapScheduler fun scheduler =>
        Id.run (System.advance program rehearsal.answer duration scheduler), none)
  | .hold holder names => ((rehearsal.hold holder names).settle, none)
  | .leave holder how => ((rehearsal.leave holder how).settle, none)
  | .abort holder => ((rehearsal.abort holder).settle, none)
  | .other => (rehearsal, none)

def statuses (rehearsal : AlarmRehearsal) : List (String × HolderStatus) :=
  rehearsal.scheduler.data.statuses.entries

def takeLog (rehearsal : AlarmRehearsal) : AlarmRehearsal × List (String × String) :=
  (rehearsal.mapScheduler fun scheduler =>
      { scheduler with data := { scheduler.data with history := [] } },
    rehearsal.scheduler.data.history.map fun notice => (notice.project, notice.text))

end AlarmRehearsal

end BuildWatch.Rehearsal
