import BuildWatch.Tasks.Locks

/-!
Tasks on a virtual clock.  A task runs without interruption until it waits: for
a time, for locks, or for the answer to a question that it puts to its
surroundings.  What it does in between is given by a program.
-/

namespace BuildWatch.Tasks

inductive Wait (Query : Type) where
  /-- For its turn only. -/
  | turn
  /-- For a time. -/
  | clock (due : Nat)
  /-- For the locks it claims. -/
  | locks
  /-- For an answer. -/
  | answer (query : Query)
deriving Repr, DecidableEq

structure Task (Stage Query : Type) where
  id : Nat
  /-- How it goes on when it has what it waits for. -/
  stage : Stage
  wait : Wait Query
  /-- The number of waits that began earlier. -/
  since : Nat
deriving Repr, DecidableEq

inductive Next (Stage Query : Type) where
  | sleep (delay : Nat) (stage : Stage)
  | acquire (names : List String) (stage : Stage)
  | ask (query : Query) (stage : Stage)
  | finish
deriving Repr, DecidableEq

structure Turn (Stage Query Data : Type) where
  data : Data
  /-- Whether it gives up its locks. -/
  release : Bool := false
  /-- The tasks it drops. -/
  dropped : List Nat := []
  /-- The tasks it starts, in the order of their ids. -/
  spawned : List Stage := []
  next : Next Stage Query
deriving Repr, DecidableEq

/-- What tasks do: a task with an id is resumed at a stage, perhaps with an
answer; the first task it starts gets the id `fresh`. -/
structure Program (Stage Query Answer Data : Type) where
  resume : (self fresh : Nat) → Stage → Option Answer → Data → Turn Stage Query Data

structure System (Stage Query Data : Type) where
  now : Nat := 0
  nextId : Nat := 0
  nextWait : Nat := 0
  locks : Locks := {}
  tasks : List (Task Stage Query) := []
  /-- The tasks to be resumed, in this order. -/
  ready : List Nat := []
  data : Data
deriving Repr, DecidableEq

namespace System

variable {Stage Query Answer Data : Type}

def task? (system : System Stage Query Data) (id : Nat) : Option (Task Stage Query) :=
  system.tasks.find? (fun task => task.id == id)

def wake (system : System Stage Query Data) (id : Nat) : System Stage Query Data :=
  if system.ready.contains id then system
  else { system with ready := system.ready ++ [id] }

def spawn (system : System Stage Query Data) (stage : Stage) : System Stage Query Data :=
  { system with
    nextId := system.nextId + 1
    nextWait := system.nextWait + 1
    tasks := system.tasks ++
      [{ id := system.nextId, stage := stage, wait := .turn, since := system.nextWait }]
    ready := system.ready ++ [system.nextId] }

/-- Take a task's locks from it; those to whom they go are woken. -/
def releaseLocks (system : System Stage Query Data) (id : Nat) : System Stage Query Data :=
  (system.locks.heirs id).foldl wake { system with locks := system.locks.release id }

def remove (system : System Stage Query Data) (id : Nat) : System Stage Query Data :=
  { system.releaseLocks id with
    tasks := system.tasks.filter (fun task => task.id != id) }

def setWait (system : System Stage Query Data) (id : Nat) (stage : Stage) (wait : Wait Query) :
    System Stage Query Data :=
  { system with
    nextWait := system.nextWait + 1
    tasks := system.tasks.map fun task =>
      if task.id = id then { id := id, stage := stage, wait := wait, since := system.nextWait }
      else task
    ready := id :: system.ready }

def conclude (system : System Stage Query Data) (id : Nat) :
    Next Stage Query → System Stage Query Data
  | .sleep delay stage => system.setWait id stage (.clock (system.now + delay))
  | .acquire names stage =>
      { system with locks := system.locks.begin id names }.setWait id stage .locks
  | .ask query stage => system.setWait id stage (.answer query)
  | .finish => system.remove id

def applyTurn (system : System Stage Query Data) (id : Nat) (turn : Turn Stage Query Data) :
    System Stage Query Data :=
  let system := { system with data := turn.data }
  let system := if turn.release then system.releaseLocks id else system
  let system := turn.dropped.foldl remove system
  let system := turn.spawned.foldl spawn system
  system.conclude id turn.next

def resume (program : Program Stage Query Answer Data) (system : System Stage Query Data)
    (task : Task Stage Query) (answer? : Option Answer) : System Stage Query Data :=
  system.applyTurn task.id
    (program.resume task.id system.nextId task.stage answer? system.data)

end System

end BuildWatch.Tasks
