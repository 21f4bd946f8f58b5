import BuildWatch.Coordinator.State
import BuildWatch.Tasks.System

/-!
How changes and requests become builds.  Requests, quiet periods and builds are
tasks; everything they share of a project changes only while the locks on it are
held.  A build never keeps a request waiting.
-/

namespace BuildWatch

open BuildWatch.Tasks

namespace Coordinator

/-! ### Locks -/

def timerLock : String := "timer"

def changesLock : String := "changed-files"

def batchesLock : String := "chunk-remaining"

def allLocks : List String := [timerLock, changesLock, batchesLock]

/-! ### Stages -/

/-- How a task goes on.  A name that ends in `Found` follows a lookup of the project, and one
in `Locked` the acquisition of every lock the task needs; at `changeTimer` a request has the
lock on the quiet periods, and at `changeBuffer` that on the changes. -/
inductive Stage where
  | update (project : String)
  | updateFound (project : String)
  | updateLocked (project : String) (info : ProjectInfo)
  | change (change : Change)
  | changeFound (change : Change)
  | changeTimer (change : Change) (info : ProjectInfo)
  | changeLoaded (change : Change) (info : ProjectInfo)
  | changeApplied (change : Change) (info : ProjectInfo)
  | changeRefreshed (change : Change)
  | changeBuffer (change : Change) (info : ProjectInfo)
  | changeLocked (change : Change) (info : ProjectInfo)
  | timer (project : String)
  | timerElapsed (project : String)
  | timerFound (project : String)
  | timerLocked (project : String) (lookup : Lookup)
  | build (info : ProjectInfo) (changes : Option (List ChangeEvent))
  | buildEnded (project : String)
  | followUpFound (project : String) (followUp : FollowUp)
  | followUpLocked (project : String) (info : ProjectInfo) (followUp : FollowUp)
deriving Repr

abbrev CoordinatorTurn := Turn Stage Query CoordinatorState

/-! ### Work within a turn -/

/-- What a turn has brought about so far. -/
structure Work where
  state : CoordinatorState
  /-- The id of the first task it starts. -/
  fresh : Nat
  dropped : List Nat := []
  spawned : List Stage := []

namespace Work

def map (work : Work) (change : CoordinatorState → CoordinatorState) : Work :=
  { work with state := change work.state }

def spawn (work : Work) (stage : Stage) : Work :=
  { work with spawned := work.spawned ++ [stage] }

def cancelTimer (work : Work) (project : String) : Work :=
  { work with
    dropped := work.dropped ++ work.state.timers.stale project
    state := { work.state with timers := work.state.timers.cancel project } }

/-- Begin a quiet period of a project, in place of the one that runs. -/
def armTimer (work : Work) (project : String) : Work :=
  let id := work.fresh + work.spawned.length
  { work.spawn (.timer project) with
    dropped := work.dropped ++ work.state.timers.stale project
    state := { work.state with timers := work.state.timers.arm project id } }

def record (work : Work) (change : Change) : Work :=
  work.map fun state =>
    { state with
      batches :=
        state.batches.record change.project change.timestamp change.chunkTotal.toNat }

def clearBatches (work : Work) (project : String) : Work :=
  work.map fun state => { state with batches := state.batches.clear project }

/-- Start a build of a project, or have one follow the build in progress.  A build
that starts takes all changes; it is told of them unless it was asked for outright. -/
def beginBuild (work : Work) (project : String) (info : ProjectInfo) (explicit : Bool) : Work :=
  let state := work.state
  let begun := { state with builds := state.builds.begin project explicit }
  match state.builds.slot project with
  | .queued => { work with state := begun.tell (.queued project explicit) }
  | .started =>
      let changes := if explicit then none else some (state.changes project)
      { work with state := (begun.tell (.begun project explicit)).drain project }.spawn
        (.build info changes)

/-- Decide on the build of a project whose batches have all arrived, or whose quiet
period is over. -/
def trigger (work : Work) (info : ProjectInfo) (requireChanges : Bool) : Work :=
  let work := (work.cancelTimer info.id).clearBatches info.id
  if !info.autoBuild then work.map (·.require info.id)
  else if requireChanges && !work.state.hasChanges info.id then work
  else work.beginBuild info.id info false

def turn (work : Work) (release : Bool) (next : Next Stage Query) : CoordinatorTurn :=
  { data := work.state
    release := release
    dropped := work.dropped
    spawned := work.spawned
    next := next }

def finish (work : Work) : CoordinatorTurn :=
  work.turn false .finish

def answer (work : Work) (request : Nat) (result : UpdateResult) : CoordinatorTurn :=
  (work.map (·.tell (.answered request result))).finish

end Work

/-! ### Requests for a build -/

def lookupError (project : String) : LookupError → UpdateError
  | .notFound _ => .notFound project
  | _ => .internal project

def withProject (work : Work) (request : Nat) (project : String) (lookup : Lookup)
    (next : ProjectInfo → CoordinatorTurn) : CoordinatorTurn :=
  match lookup with
  | .found info => next info
  | .failed error => work.answer request (.error (lookupError project error))
  | .panicked => work.answer request (.error (.internal project))

def updateWith (work : Work) (request : Nat) (project : String) (info : ProjectInfo) :
    CoordinatorTurn :=
  if info.autoBuild then work.turn false (.acquire allLocks (.updateLocked project info))
  else (work.map (·.require project)).answer request (.ok ())

/-- Start the build that was asked for; a quiet period of the project is over then. -/
def startUpdate (work : Work) (project : String) (info : ProjectInfo) : Work :=
  let starts := work.state.builds.slot project = .started
  let work := if starts then work.cancelTimer project else work
  work.beginBuild project info true

/-! ### Chunks of changes -/

def buildEvents (options : CoordinatorOptions) (change : Change) : List ChangeEvent :=
  change.events.filter (fun event => !options.isSettingsEvent event)

def touchesSettings (options : CoordinatorOptions) (change : Change) : Bool :=
  change.events.any options.isSettingsEvent

def isSettingsOnly (options : CoordinatorOptions) (change : Change) : Bool :=
  touchesSettings options change && (buildEvents options change).isEmpty

def proceed (options : CoordinatorOptions) (work : Work) (release : Bool) (change : Change)
    (info : ProjectInfo) : CoordinatorTurn :=
  if (buildEvents options change).isEmpty then
    work.turn release (.acquire allLocks (.changeLocked change info))
  else work.turn release (.acquire [changesLock] (.changeBuffer change info))

def afterCancel (options : CoordinatorOptions) (work : Work) (change : Change)
    (info : ProjectInfo) : CoordinatorTurn :=
  if touchesSettings options change then
    work.turn true (.ask (.loadSettings (info.pathOf options.settingsFile))
      (.changeLoaded change info))
  else proceed options work true change info

def afterLoad (options : CoordinatorOptions) (work : Work) (change : Change)
    (info : ProjectInfo) (settings? : Option Settings) : CoordinatorTurn :=
  match settings? with
  | some settings =>
      if options.appliesSettings then
        (work.map (·.tell (.applying info.id settings))).turn false
          (.ask (.applySettings info.id settings) (.changeApplied change info))
      else proceed options work false change info
  | none => proceed options work false change info

/-- Whether a lone chunk of settings finds something that still has to be built. -/
def leavesWork (state : CoordinatorState) (project : String) : Bool :=
  state.batches.outstanding project != 0 || state.hasChanges project

def decide (options : CoordinatorOptions) (work : Work) (change : Change) (info : ProjectInfo) :
    Work :=
  let project := change.project
  let total := change.chunkTotal.toNat
  let settingsOnly := isSettingsOnly options change
  if settingsOnly && total ≤ 1 then
    if leavesWork work.state project then work.armTimer project else work
  else
    let work := work.record change
    let status := work.state.batches.status project change.timestamp total
    if status.isComplete then
      if !settingsOnly then work.trigger info false
      else if work.state.hasChanges project then work.trigger info true
      else work
    else work.armTimer project

/-! ### Quiet periods -/

def elapse (work : Work) (self : Nat) (project : String) (lookup : Lookup) : Work :=
  match work.state.timers.claim? project self with
  | none => work
  | some timers =>
      let work := work.map fun state => { state with timers := timers }
      match lookup with
      | .found info => work.trigger info true
      | _ => work

/-! ### Builds -/

def handOver (options : CoordinatorOptions) (work : Work) (release : Bool) (info : ProjectInfo)
    (changes : Option (List ChangeEvent)) : CoordinatorTurn :=
  let operation := options.operation info
  ((work.map (·.tell (.started info.id))).map (·.tell (.handed operation changes))).turn release
    (.ask (.build operation changes) (.buildEnded info.id))

def endBuild (work : Work) (project : String) (result : BuildResult) : CoordinatorTurn :=
  let followUp? := work.state.builds.followUp? project
  let work := work.map fun state =>
    { (state.tell (.finished project result)).tell (.passedOn project followUp?) with
      builds := state.builds.finish project }
  match followUp? with
  | some followUp => work.turn false (.ask (.lookUp project) (.followUpFound project followUp))
  | none => work.finish

def abandon (work : Work) (project : String) : CoordinatorTurn :=
  (work.map fun state => { state with builds := state.builds.abandon project }).finish

def followUpWith (work : Work) (project : String) (followUp : FollowUp) : Lookup → CoordinatorTurn
  | .found info =>
      if info.autoBuild then
        work.turn false (.acquire [changesLock] (.followUpLocked project info followUp))
      else abandon (work.map (·.require project)) project
  | .failed _ => abandon work project
  | .panicked => work.finish

def beginFollowUp (options : CoordinatorOptions) (work : Work) (project : String)
    (info : ProjectInfo) (followUp : FollowUp) : CoordinatorTurn :=
  let changes := if followUp.explicit then none else some (work.state.changes project)
  handOver options (work.map (·.drain project)) true info changes

/-! ### Turns -/

def resume (options : CoordinatorOptions) (self fresh : Nat) (stage : Stage)
    (answer? : Option Answer) (state : CoordinatorState) : CoordinatorTurn :=
  let work : Work := { state := state, fresh := fresh }
  match stage with
  | .update project => work.turn false (.ask (.lookUp project) (.updateFound project))
  | .updateFound project =>
      withProject work self project (Answer.toLookup answer?) (updateWith work self project)
  | .updateLocked project info => (startUpdate work project info).answer self (.ok ())
  | .change change => work.turn false (.ask (.lookUp change.project) (.changeFound change))
  | .changeFound change =>
      withProject work self change.project (Answer.toLookup answer?) fun info =>
        work.turn false (.acquire [timerLock] (.changeTimer change info))
  | .changeTimer change info =>
      afterCancel options (work.cancelTimer change.project) change info
  | .changeLoaded change info => afterLoad options work change info (Answer.toSettings answer?)
  | .changeApplied change info =>
      match Answer.toApplied answer? with
      | .applied => work.turn false (.ask (.lookUp change.project) (.changeRefreshed change))
      | .failed => proceed options work false change info
      | .panicked => work.answer self (.error (.internal change.project))
  | .changeRefreshed change =>
      withProject work self change.project (Answer.toLookup answer?)
        (proceed options work false change)
  | .changeBuffer change info =>
      (work.map (·.buffer self change.project (buildEvents options change))).turn true
        (.acquire allLocks (.changeLocked change info))
  | .changeLocked change info => (decide options work change info).answer self (.ok ())
  | .timer project => work.turn false (.sleep options.quietPeriod (.timerElapsed project))
  | .timerElapsed project => work.turn false (.ask (.lookUp project) (.timerFound project))
  | .timerFound project =>
      match Answer.toLookup answer? with
      | .panicked => work.finish
      | lookup => work.turn false (.acquire allLocks (.timerLocked project lookup))
  | .timerLocked project lookup => (elapse work self project lookup).finish
  | .build info changes => handOver options work false info changes
  | .buildEnded project => endBuild work project (Answer.toBuildResult answer?)
  | .followUpFound project followUp =>
      followUpWith work project followUp (Answer.toLookup answer?)
  | .followUpLocked project info followUp => beginFollowUp options work project info followUp

def program (options : CoordinatorOptions) : Program Stage Query Answer CoordinatorState :=
  { resume := resume options }

end Coordinator

end BuildWatch
