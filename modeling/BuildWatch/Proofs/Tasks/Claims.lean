import BuildWatch.Proofs.Tasks.Locks
import BuildWatch.Proofs.Tasks.Turns

/-!
The claims of tasks.  A task claims locks as long as it waits for them and no longer,
provided that it gives up those it has before it goes on or ends.
-/

namespace BuildWatch.Tasks

namespace System

variable {Stage Query Answer Data : Type}

/-! ### Locks after a turn -/

@[simp] theorem releaseLocks_locks (system : System Stage Query Data) (id : Nat) :
    (system.releaseLocks id).locks = system.locks.release id := by
  obtain ⟨ready, hRelease⟩ := system.releaseLocks_eq id
  rw [hRelease]

@[simp] theorem remove_locks (system : System Stage Query Data) (id : Nat) :
    (system.remove id).locks = system.locks.release id :=
  system.releaseLocks_locks id

theorem foldl_remove_locks (dropped : List Nat) (system : System Stage Query Data) :
    (dropped.foldl remove system).locks = dropped.foldl Locks.release system.locks := by
  induction dropped generalizing system with
  | nil => rfl
  | cons id rest ih => rw [List.foldl_cons, ih, remove_locks, List.foldl_cons]

@[simp] theorem foldl_spawn_locks (stages : List Stage) (system : System Stage Query Data) :
    (stages.foldl spawn system).locks = system.locks := by
  induction stages generalizing system with
  | nil => rfl
  | cons stage rest ih =>
      rw [List.foldl_cons, ih]
      rfl

/-- The locks when a task that has the turn is about to go on or to end. -/
def leftLocks (system : System Stage Query Data) (id : Nat) (turn : Turn Stage Query Data) :
    Locks :=
  turn.dropped.foldl Locks.release
    (if turn.release then system.locks.release id else system.locks)

theorem applyTurn_locks (system : System Stage Query Data) (id : Nat)
    (turn : Turn Stage Query Data) :
    (system.applyTurn id turn).locks =
      match turn.next with
      | .acquire names _ => (system.leftLocks id turn).begin id names
      | .finish => (system.leftLocks id turn).release id
      | _ => system.leftLocks id turn := by
  have hLeft : (turn.spawned.foldl spawn (turn.dropped.foldl remove
      (if turn.release then ({ system with data := turn.data }).releaseLocks id
        else { system with data := turn.data }))).locks = system.leftLocks id turn := by
    rw [foldl_spawn_locks, foldl_remove_locks]
    unfold leftLocks
    split
    · rw [releaseLocks_locks]
    · rfl
  unfold applyTurn
  cases turn.next with
  | finish =>
      change (remove _ id).locks = _
      rw [remove_locks, hLeft]
  | acquire names stage => exact congrArg (fun locks => Locks.begin locks id names) hLeft
  | sleep delay stage => exact hLeft
  | ask query stage => exact hLeft

variable {system : System Stage Query Data}

/-! ### Claims along a run -/

/-- The tasks that claim locks are those that wait for them. -/
structure Orderly (system : System Stage Query Data) : Prop where
  locks : system.locks.Sound
  claimed : ∀ owner, system.locks.Claimed owner ↔
    ∃ task ∈ system.tasks, task.id = owner ∧ task.wait = .locks

theorem orderly_start (data : Data) :
    Orderly ({ data := data } : System Stage Query Data) where
  locks := Locks.sound_start
  claimed := by
    intro owner
    constructor
    · rintro ⟨claim, hClaim, _⟩
      cases hClaim
    · rintro ⟨task, hTask, _⟩
      cases hTask

theorem Orderly.congr (hOrderly : system.Orderly) {other : System Stage Query Data}
    (hLocks : other.locks = system.locks) (hTasks : other.tasks = system.tasks) :
    other.Orderly where
  locks := by
    rw [hLocks]
    exact hOrderly.locks
  claimed := by
    rw [hLocks, hTasks]
    exact hOrderly.claimed

theorem Orderly.settle (hOrderly : system.Orderly) (owner : Nat) :
    Orderly { system with locks := system.locks.settle owner } where
  locks := (hOrderly.locks.settle owner).1
  claimed := by
    intro other
    exact ((hOrderly.locks.settle owner).2 other).trans (hOrderly.claimed other)

theorem Orderly.polled (hOrderly : system.Orderly) (task : Task Stage Query) :
    (system.polled task).Orderly := by
  unfold System.polled
  cases task.wait with
  | locks => exact hOrderly.settle task.id
  | _ => exact hOrderly

theorem Orderly.spawn (hOrderly : system.Orderly) (stage : Stage) :
    (system.spawn stage).Orderly where
  locks := hOrderly.locks
  claimed := by
    intro owner
    refine (hOrderly.claimed owner).trans ?_
    constructor
    · rintro ⟨task, hTask, hWaits⟩
      exact ⟨task, List.mem_append_left _ hTask, hWaits⟩
    · rintro ⟨task, hTask, hId, hWait⟩
      rcases List.mem_append.mp hTask with hOld | hNew
      · exact ⟨task, hOld, hId, hWait⟩
      · rw [List.mem_singleton.mp hNew] at hWait
        cases hWait

theorem Orderly.foldl_remove (hOrderly : system.Orderly) (dropped : List Nat) :
    (dropped.foldl System.remove system).Orderly where
  locks := by
    rw [foldl_remove_locks]
    exact hOrderly.locks.foldl_release dropped
  claimed := by
    intro owner
    rw [foldl_remove_locks, Locks.claimed_foldl_release, foldl_remove_tasks, hOrderly.claimed]
    constructor
    · rintro ⟨hKept, task, hTask, hId, hWait⟩
      refine ⟨task, List.mem_filter.mpr ⟨hTask, ?_⟩, hId, hWait⟩
      simpa [hId] using hKept
    · rintro ⟨task, hTask, hId, hWait⟩
      obtain ⟨hOld, hKept⟩ := List.mem_filter.mp hTask
      exact ⟨by simpa [hId] using hKept, task, hOld, hId, hWait⟩

theorem claimed_leftLocks (system : System Stage Query Data) (id : Nat)
    (turn : Turn Stage Query Data) (owner : Nat) :
    (system.leftLocks id turn).Claimed owner ↔
      owner ∉ turn.dropped ∧ (turn.release = true → owner ≠ id) ∧ system.locks.Claimed owner := by
  unfold leftLocks
  rw [Locks.claimed_foldl_release]
  cases turn.release with
  | true => simp [Locks.claimed_release]
  | false => simp

theorem Orderly.not_claimed_leftLocks (hOrderly : system.Orderly) {task : Task Stage Query}
    {turn : Turn Stage Query Data} (hTask : task ∈ system.tasks)
    (hNodup : (system.tasks.map Task.id).Nodup)
    (hYields : task.wait = .locks → turn.release = true) :
    ¬ (system.leftLocks task.id turn).Claimed task.id := by
  rw [claimed_leftLocks]
  rintro ⟨_, hKept, hClaimed⟩
  obtain ⟨other, hOther, hId, hWait⟩ := (hOrderly.claimed task.id).mp hClaimed
  have hSame := List.inj_on_of_nodup_map hNodup hOther hTask hId
  exact hKept (hYields (hSame ▸ hWait)) rfl

theorem Orderly.applyTurn_locks (hOrderly : system.Orderly) {task : Task Stage Query}
    {turn : Turn Stage Query Data} (hTask : task ∈ system.tasks)
    (hNodup : (system.tasks.map Task.id).Nodup)
    (hYields : task.wait = .locks → turn.release = true ∨ turn.next = .finish) :
    (system.applyTurn task.id turn).locks.Sound ∧
      ∀ owner, (system.applyTurn task.id turn).locks.Claimed owner ↔
        (owner = task.id ∧ turn.next.wait system.now = .locks) ∨
          (owner ≠ task.id ∧ owner ∉ turn.dropped ∧ system.locks.Claimed owner) := by
  have hLeft : (system.leftLocks task.id turn).Sound := by
    unfold leftLocks
    refine Locks.Sound.foldl_release ?_ _
    split
    · exact hOrderly.locks.release task.id
    · exact hOrderly.locks
  have hOthers (owner : Nat) (hOther : owner ≠ task.id) :
      (system.leftLocks task.id turn).Claimed owner ↔
        owner ∉ turn.dropped ∧ system.locks.Claimed owner := by
    rw [claimed_leftLocks]
    simp [hOther]
  have hSelf (hGoesOn : turn.next ≠ .finish) :
      ¬ (system.leftLocks task.id turn).Claimed task.id :=
    hOrderly.not_claimed_leftLocks hTask hNodup fun hWait =>
      (hYields hWait).resolve_right hGoesOn
  have hStill (hGoesOn : turn.next ≠ .finish) (hWait : turn.next.wait system.now ≠ .locks)
      (owner : Nat) :
      (system.leftLocks task.id turn).Claimed owner ↔
        (owner = task.id ∧ turn.next.wait system.now = .locks) ∨
          (owner ≠ task.id ∧ owner ∉ turn.dropped ∧ system.locks.Claimed owner) := by
    by_cases hSame : owner = task.id
    · simp [hSame, hWait, hSelf hGoesOn]
    · simp [hSame, hOthers owner hSame]
  rw [System.applyTurn_locks]
  cases hNext : turn.next with
  | acquire names stage =>
      refine ⟨hLeft.begin (hSelf (by simp [hNext])) names, ?_⟩
      intro owner
      rw [Locks.claimed_begin]
      by_cases hSame : owner = task.id
      · simp [hSame, Next.wait]
      · simp [hSame, hOthers owner hSame]
  | finish =>
      refine ⟨hLeft.release task.id, ?_⟩
      intro owner
      rw [Locks.claimed_release]
      by_cases hSame : owner = task.id
      · simp [hSame, Next.wait]
      · simp [hSame, hOthers owner hSame]
  | sleep delay stage =>
      rw [hNext] at hStill
      exact ⟨hLeft, hStill nofun nofun⟩
  | ask query stage =>
      rw [hNext] at hStill
      exact ⟨hLeft, hStill nofun nofun⟩

/-- A turn keeps the claims in order if a task gives up the locks it has waited for. -/
theorem Orderly.applyTurn (hOrderly : system.Orderly) {task : Task Stage Query}
    {turn : Turn Stage Query Data} (hTask : task ∈ system.tasks)
    (hNodup : (system.tasks.map Task.id).Nodup)
    (hStays : task.id ∉ turn.dropped ∨ turn.next.stage? = none)
    (hYields : task.wait = .locks → turn.release = true ∨ turn.next = .finish) :
    (system.applyTurn task.id turn).Orderly := by
  obtain ⟨hLocks, hClaimed⟩ := hOrderly.applyTurn_locks hTask hNodup hYields
  refine ⟨hLocks, ?_⟩
  intro owner
  rw [hClaimed]
  constructor
  · rintro (⟨hSame, hWait⟩ | ⟨hOther, hKept, hOld⟩)
    · cases hNext : turn.next.stage? with
      | none =>
          rw [Next.eq_finish_of_stage? hNext] at hWait
          cases hWait
      | some stage =>
          have hStaying : task.id ∉ turn.dropped := by
            refine hStays.resolve_right ?_
            rw [hNext]
            exact Option.some_ne_none stage
          obtain ⟨later, hLater, hId, _, hLaterWait⟩ := exists_applyTurn_self hTask hStaying hNext
          exact ⟨later, hLater, hId.trans hSame.symm, hLaterWait.trans hWait⟩
    · obtain ⟨waiting, hWaiting, hId, hWait⟩ := (hOrderly.claimed owner).mp hOld
      refine ⟨waiting, mem_applyTurn_of_kept hWaiting ?_ ?_, hId, hWait⟩
      · exact hId ▸ hOther
      · exact hId ▸ hKept
  · rintro ⟨later, hLater, hId, hWait⟩
    rcases mem_applyTurn_tasks hLater with ⟨hOld, hOther, hKept⟩ | ⟨hSame, _, hNext⟩ | ⟨hTurn, _⟩
    · exact Or.inr ⟨hId ▸ hOther, hId ▸ hKept, (hOrderly.claimed owner).mpr
        ⟨later, hOld, hId, hWait⟩⟩
    · exact Or.inl ⟨hId.symm.trans hSame, hNext.symm.trans hWait⟩
    · rw [hTurn] at hWait
      cases hWait

end System

end BuildWatch.Tasks
