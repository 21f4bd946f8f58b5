import BuildWatch.Table

/-!
Named locks.  A task claims a group of names and takes them one by one in the
order of the names, keeping those it has; each lock goes to its claimants in the
order of their arrival.  The common order is what keeps tasks that claim
overlapping groups from waiting for one another.
-/

namespace BuildWatch.Tasks

def insertName (name : String) : List String → List String
  | [] => [name]
  | first :: rest =>
      if name < first then name :: first :: rest
      else if name = first then first :: rest
      else first :: insertName name rest

def orderedNames (names : List String) : List String :=
  names.foldr insertName []

/-- The claim of a task on a group of locks. -/
structure Claim where
  owner : Nat
  /-- The locks it has taken. -/
  taken : List String := []
  /-- The locks it still wants; it stands in the queue of the first of them. -/
  wanted : List String
deriving Repr, DecidableEq

def Claim.queued (claim : Claim) : List String :=
  claim.taken ++ claim.wanted.take 1

structure Locks where
  /-- Who holds a lock, and behind the holder who waits for it. -/
  queues : Table (List Nat) := {}
  claims : List Claim := []
deriving Repr, DecidableEq

namespace Locks

instance : Inhabited Locks := ⟨{}⟩

def queue (locks : Locks) (name : String) : List Nat :=
  (locks.queues.get? name).getD []

def holder? (locks : Locks) (name : String) : Option Nat :=
  (locks.queue name).head?

def claim? (locks : Locks) (owner : Nat) : Option Claim :=
  locks.claims.find? (fun claim => claim.owner == owner)

def holds (locks : Locks) (owner : Nat) : Bool :=
  match locks.claim? owner with
  | some claim => claim.wanted.isEmpty
  | none => false

def enqueue (locks : Locks) (name : String) (owner : Nat) : Locks :=
  { locks with queues := locks.queues.set name (locks.queue name ++ [owner]) }

/-- Put a task at the end of the queue of the first of some names. -/
def enqueueFirst (locks : Locks) (names : List String) (owner : Nat) : Locks :=
  match names with
  | [] => locks
  | name :: _ => locks.enqueue name owner

/-- Take a task out of a queue; an empty queue is not kept. -/
def dequeue (locks : Locks) (name : String) (owner : Nat) : Locks :=
  let queue := (locks.queue name).erase owner
  { locks with queues := locks.queues.put name (if queue.isEmpty then none else some queue) }

/-- Put a claim in place of the other claims of its owner. -/
def setClaim (locks : Locks) (claim : Claim) : Locks :=
  { locks with
    claims := claim :: locks.claims.filter (fun other => other.owner != claim.owner) }

def begin (locks : Locks) (owner : Nat) (names : List String) : Locks :=
  let names := orderedNames names
  (locks.setClaim { owner := owner, wanted := names }).enqueueFirst names owner

/-- Take the next lock of a claim, if it is the owner's turn. -/
def take? (locks : Locks) (owner : Nat) : Option Locks :=
  match locks.claim? owner with
  | some { owner := _, taken := taken, wanted := name :: rest } =>
      if locks.holder? name = some owner then
        some ((locks.setClaim { owner := owner, taken := taken ++ [name], wanted := rest }).enqueueFirst
          rest owner)
      else none
  | _ => none

/-- Take as many locks of a claim as possible; `bound` limits their number. -/
def takeAll (locks : Locks) (owner : Nat) : Nat → Locks
  | 0 => locks
  | bound + 1 =>
      match locks.take? owner with
      | some locks => locks.takeAll owner bound
      | none => locks

def settle (locks : Locks) (owner : Nat) : Locks :=
  match locks.claim? owner with
  | some claim => locks.takeAll owner claim.wanted.length
  | none => locks

/-- Give up the claim of a task, whether it was complete or not. -/
def release (locks : Locks) (owner : Nat) : Locks :=
  match locks.claim? owner with
  | some claim =>
      claim.queued.foldl (fun locks name => locks.dequeue name owner)
        { locks with claims := locks.claims.filter (fun other => other.owner != owner) }
  | none => locks

def heirs (locks : Locks) (owner : Nat) : List Nat :=
  match locks.claim? owner with
  | some claim =>
      claim.queued.filterMap fun name =>
        if locks.holder? name = some owner then (locks.release owner).holder? name else none
  | none => []

end Locks

end BuildWatch.Tasks
