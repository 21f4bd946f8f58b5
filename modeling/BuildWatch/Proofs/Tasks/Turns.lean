import BuildWatch.Tasks.Executor
import Mathlib.Data.List.Nodup

/-!
What one turn does to the tasks of a system.  The task that has the turn goes on
at its next stage or is gone, the tasks it drops are gone, the tasks it starts
stand behind all others, and every other task stays as it was.
-/

namespace BuildWatch.Tasks

variable {Stage Query Answer Data : Type}

def Next.stage? : Next Stage Query → Option Stage
  | .sleep _ stage => some stage
  | .acquire _ stage => some stage
  | .ask _ stage => some stage
  | .finish => none

def Next.wait (now : Nat) : Next Stage Query → Wait Query
  | .sleep delay _ => .clock (now + delay)
  | .acquire _ _ => .locks
  | .ask query _ => .answer query
  | .finish => .turn

theorem Next.eq_finish_of_stage? {next : Next Stage Query} (hNone : next.stage? = none) :
    next = .finish := by
  cases next with
  | finish => rfl
  | _ => cases hNone

namespace System

/-! ### Operations that leave the tasks alone -/

theorem wake_eq (system : System Stage Query Data) (id : Nat) :
    ∃ ready, system.wake id = { system with ready := ready } := by
  unfold wake
  split
  · exact ⟨system.ready, rfl⟩
  · exact ⟨_, rfl⟩

theorem foldl_wake_eq (ids : List Nat) (system : System Stage Query Data) :
    ∃ ready, ids.foldl wake system = { system with ready := ready } := by
  induction ids generalizing system with
  | nil => exact ⟨system.ready, rfl⟩
  | cons id rest ih =>
      obtain ⟨ready, hWake⟩ := system.wake_eq id
      obtain ⟨last, hRest⟩ := ih (system.wake id)
      refine ⟨last, ?_⟩
      rw [List.foldl_cons, hRest, hWake]

theorem releaseLocks_eq (system : System Stage Query Data) (id : Nat) :
    ∃ ready, system.releaseLocks id =
      { system with locks := system.locks.release id, ready := ready } :=
  foldl_wake_eq _ _

@[simp] theorem releaseLocks_tasks (system : System Stage Query Data) (id : Nat) :
    (system.releaseLocks id).tasks = system.tasks := by
  obtain ⟨ready, hRelease⟩ := system.releaseLocks_eq id
  rw [hRelease]

@[simp] theorem releaseLocks_data (system : System Stage Query Data) (id : Nat) :
    (system.releaseLocks id).data = system.data := by
  obtain ⟨ready, hRelease⟩ := system.releaseLocks_eq id
  rw [hRelease]

@[simp] theorem releaseLocks_nextId (system : System Stage Query Data) (id : Nat) :
    (system.releaseLocks id).nextId = system.nextId := by
  obtain ⟨ready, hRelease⟩ := system.releaseLocks_eq id
  rw [hRelease]

@[simp] theorem releaseLocks_now (system : System Stage Query Data) (id : Nat) :
    (system.releaseLocks id).now = system.now := by
  obtain ⟨ready, hRelease⟩ := system.releaseLocks_eq id
  rw [hRelease]

/-! ### Dropping tasks -/

@[simp] theorem remove_tasks (system : System Stage Query Data) (id : Nat) :
    (system.remove id).tasks = system.tasks.filter (fun task => task.id != id) := rfl

@[simp] theorem remove_data (system : System Stage Query Data) (id : Nat) :
    (system.remove id).data = system.data :=
  system.releaseLocks_data id

@[simp] theorem remove_nextId (system : System Stage Query Data) (id : Nat) :
    (system.remove id).nextId = system.nextId :=
  system.releaseLocks_nextId id

@[simp] theorem remove_now (system : System Stage Query Data) (id : Nat) :
    (system.remove id).now = system.now :=
  system.releaseLocks_now id

theorem foldl_remove_tasks (dropped : List Nat) (system : System Stage Query Data) :
    (dropped.foldl remove system).tasks =
      system.tasks.filter (fun task => !dropped.contains task.id) := by
  induction dropped generalizing system with
  | nil => simp
  | cons id rest ih =>
      rw [List.foldl_cons, ih, remove_tasks, List.filter_filter]
      apply List.filter_congr
      intro task _
      by_cases hSame : task.id = id <;> simp [hSame]

@[simp] theorem foldl_remove_data (dropped : List Nat) (system : System Stage Query Data) :
    (dropped.foldl remove system).data = system.data := by
  induction dropped generalizing system with
  | nil => rfl
  | cons id rest ih => rw [List.foldl_cons, ih, remove_data]

@[simp] theorem foldl_remove_nextId (dropped : List Nat) (system : System Stage Query Data) :
    (dropped.foldl remove system).nextId = system.nextId := by
  induction dropped generalizing system with
  | nil => rfl
  | cons id rest ih => rw [List.foldl_cons, ih, remove_nextId]

@[simp] theorem foldl_remove_now (dropped : List Nat) (system : System Stage Query Data) :
    (dropped.foldl remove system).now = system.now := by
  induction dropped generalizing system with
  | nil => rfl
  | cons id rest ih => rw [List.foldl_cons, ih, remove_now]

/-! ### Starting tasks -/

def started (id wait : Nat) : List Stage → List (Task Stage Query)
  | [] => []
  | stage :: rest =>
      { id := id, stage := stage, wait := .turn, since := wait } :: started (id + 1) (wait + 1) rest

theorem started_stages (id wait : Nat) (stages : List Stage) :
    (started id wait stages : List (Task Stage Query)).map Task.stage = stages := by
  induction stages generalizing id wait with
  | nil => rfl
  | cons stage rest ih => rw [started, List.map_cons, ih]

theorem mem_started {id wait : Nat} {stages : List Stage} {task : Task Stage Query}
    (hTask : task ∈ (started id wait stages : List (Task Stage Query))) :
    task.wait = .turn ∧ ∃ index, stages[index]? = some task.stage ∧ task.id = id + index := by
  induction stages generalizing id wait with
  | nil => cases hTask
  | cons stage rest ih =>
      rcases List.mem_cons.mp hTask with hFirst | hRest
      · subst hFirst
        exact ⟨rfl, 0, rfl, rfl⟩
      · obtain ⟨hWait, index, hStage, hId⟩ := ih hRest
        refine ⟨hWait, index + 1, ?_, ?_⟩
        · rw [List.getElem?_cons_succ]
          exact hStage
        · rw [hId]
          omega

theorem started_id_ge {id wait : Nat} {stages : List Stage} {task : Task Stage Query}
    (hTask : task ∈ (started id wait stages : List (Task Stage Query))) : id ≤ task.id := by
  obtain ⟨_, index, _, hId⟩ := mem_started hTask
  omega

theorem started_ids_nodup (id wait : Nat) (stages : List Stage) :
    ((started id wait stages : List (Task Stage Query)).map Task.id).Nodup := by
  induction stages generalizing id wait with
  | nil => exact List.nodup_nil
  | cons stage rest ih =>
      rw [started, List.map_cons, List.nodup_cons]
      refine ⟨?_, ih (id + 1) (wait + 1)⟩
      intro hMember
      obtain ⟨task, hTask, hId⟩ := List.mem_map.mp hMember
      have hLater := started_id_ge hTask
      simp only at hId
      omega

theorem foldl_spawn_tasks (stages : List Stage) (system : System Stage Query Data) :
    (stages.foldl spawn system).tasks =
      system.tasks ++ started system.nextId system.nextWait stages := by
  induction stages generalizing system with
  | nil => simp [started]
  | cons stage rest ih =>
      rw [List.foldl_cons, ih]
      simp [spawn, started]

@[simp] theorem foldl_spawn_data (stages : List Stage) (system : System Stage Query Data) :
    (stages.foldl spawn system).data = system.data := by
  induction stages generalizing system with
  | nil => rfl
  | cons stage rest ih =>
      rw [List.foldl_cons, ih]
      rfl

theorem foldl_spawn_nextId (stages : List Stage) (system : System Stage Query Data) :
    (stages.foldl spawn system).nextId = system.nextId + stages.length := by
  induction stages generalizing system with
  | nil => rfl
  | cons stage rest ih =>
      rw [List.foldl_cons, ih, List.length_cons]
      simp only [spawn]
      omega

@[simp] theorem foldl_spawn_now (stages : List Stage) (system : System Stage Query Data) :
    (stages.foldl spawn system).now = system.now := by
  induction stages generalizing system with
  | nil => rfl
  | cons stage rest ih =>
      rw [List.foldl_cons, ih]
      rfl

/-! ### The end of a turn -/

def goOn (id : Nat) (stage : Stage) (wait : Wait Query) (since : Nat)
    (task : Task Stage Query) : Task Stage Query :=
  if task.id = id then { id := id, stage := stage, wait := wait, since := since } else task

theorem goOn_id (id : Nat) (stage : Stage) (wait : Wait Query) (since : Nat)
    (task : Task Stage Query) : (goOn id stage wait since task).id = task.id := by
  unfold goOn
  split
  · rename_i hSame
    exact hSame.symm
  · rfl

theorem goOn_of_ne {id : Nat} {stage : Stage} {wait : Wait Query} {since : Nat}
    {task : Task Stage Query} (hOther : task.id ≠ id) : goOn id stage wait since task = task :=
  if_neg hOther

theorem filter_map_goOn {id : Nat} {stage : Stage} {wait : Wait Query} {since : Nat}
    (kind : Stage → Bool) (hNext : kind stage = false) (tasks : List (Task Stage Query))
    (hSelf : ∀ task ∈ tasks, task.id = id → kind task.stage = false) :
    (tasks.map (goOn id stage wait since)).filter (fun task => kind task.stage) =
      tasks.filter (fun task => kind task.stage) := by
  induction tasks with
  | nil => rfl
  | cons task rest ih =>
      have hRest := ih fun other hOther => hSelf other (List.mem_cons_of_mem task hOther)
      by_cases hId : task.id = id
      · have hBefore := hSelf task List.mem_cons_self hId
        have hAfter : kind (goOn id stage wait since task).stage = false := by
          rw [goOn, if_pos hId]
          exact hNext
        rw [List.map_cons, List.filter_cons_of_neg (by simp [hAfter]),
          List.filter_cons_of_neg (by simp [hBefore])]
        exact hRest
      · rw [List.map_cons, goOn_of_ne hId, List.filter_cons, List.filter_cons, hRest]

theorem conclude_tasks (system : System Stage Query Data) (id : Nat) (next : Next Stage Query) :
    (system.conclude id next).tasks =
      match next.stage? with
      | some stage => system.tasks.map (goOn id stage (next.wait system.now) system.nextWait)
      | none => system.tasks.filter (fun task => task.id != id) := by
  cases next <;> rfl

theorem conclude_data (system : System Stage Query Data) (id : Nat) (next : Next Stage Query) :
    (system.conclude id next).data = system.data := by
  cases next with
  | finish => exact system.remove_data id
  | _ => rfl

theorem conclude_nextId (system : System Stage Query Data) (id : Nat) (next : Next Stage Query) :
    (system.conclude id next).nextId = system.nextId := by
  cases next with
  | finish => exact system.remove_nextId id
  | _ => rfl

theorem conclude_now (system : System Stage Query Data) (id : Nat) (next : Next Stage Query) :
    (system.conclude id next).now = system.now := by
  cases next with
  | finish => exact system.remove_now id
  | _ => rfl

/-! ### A whole turn -/

def remaining (system : System Stage Query Data) (turn : Turn Stage Query Data) :
    List (Task Stage Query) :=
  system.tasks.filter (fun task => !turn.dropped.contains task.id)

private theorem applyTurn_freed (system : System Stage Query Data) (id : Nat)
    (turn : Turn Stage Query Data) :
    ∃ freed : System Stage Query Data,
      system.applyTurn id turn =
        (turn.spawned.foldl spawn (turn.dropped.foldl remove freed)).conclude id turn.next ∧
      freed.tasks = system.tasks ∧ freed.data = turn.data ∧ freed.now = system.now ∧
        freed.nextId = system.nextId := by
  unfold applyTurn
  cases turn.release with
  | true =>
      refine ⟨({ system with data := turn.data }).releaseLocks id, rfl, ?_, ?_, ?_, ?_⟩
      · exact releaseLocks_tasks _ _
      · exact releaseLocks_data _ _
      · exact releaseLocks_now _ _
      · exact releaseLocks_nextId _ _
  | false => exact ⟨{ system with data := turn.data }, rfl, rfl, rfl, rfl, rfl⟩

/-- Before the task that has the turn goes on, the tasks it drops are gone and those it
starts have come. -/
theorem applyTurn_eq (system : System Stage Query Data) (id : Nat)
    (turn : Turn Stage Query Data) :
    ∃ settled : System Stage Query Data, ∃ since,
      system.applyTurn id turn = settled.conclude id turn.next ∧
        settled.tasks = system.remaining turn ++ started system.nextId since turn.spawned ∧
          settled.data = turn.data ∧ settled.now = system.now ∧
            settled.nextId = system.nextId + turn.spawned.length := by
  obtain ⟨freed, hTurn, hTasks, hData, hNow, hId⟩ := system.applyTurn_freed id turn
  refine ⟨_, (turn.dropped.foldl remove freed).nextWait, hTurn, ?_, ?_, ?_, ?_⟩
  · rw [foldl_spawn_tasks, foldl_remove_tasks, foldl_remove_nextId, hTasks, hId]
    rfl
  · rw [foldl_spawn_data, foldl_remove_data, hData]
  · rw [foldl_spawn_now, foldl_remove_now, hNow]
  · rw [foldl_spawn_nextId, foldl_remove_nextId, hId]

@[simp] theorem applyTurn_data (system : System Stage Query Data) (id : Nat)
    (turn : Turn Stage Query Data) : (system.applyTurn id turn).data = turn.data := by
  obtain ⟨settled, since, hTurn, _, hData, _⟩ := system.applyTurn_eq id turn
  rw [hTurn, conclude_data, hData]

theorem applyTurn_nextId (system : System Stage Query Data) (id : Nat)
    (turn : Turn Stage Query Data) :
    (system.applyTurn id turn).nextId = system.nextId + turn.spawned.length := by
  obtain ⟨settled, since, hTurn, _, _, _, hId⟩ := system.applyTurn_eq id turn
  rw [hTurn, conclude_nextId, hId]

theorem applyTurn_now (system : System Stage Query Data) (id : Nat)
    (turn : Turn Stage Query Data) : (system.applyTurn id turn).now = system.now := by
  obtain ⟨settled, since, hTurn, _, _, hNow, _⟩ := system.applyTurn_eq id turn
  rw [hTurn, conclude_now, hNow]

theorem mem_applyTurn_tasks {system : System Stage Query Data} {id : Nat}
    {turn : Turn Stage Query Data} {task : Task Stage Query}
    (hTask : task ∈ (system.applyTurn id turn).tasks) :
    (task ∈ system.tasks ∧ task.id ≠ id ∧ task.id ∉ turn.dropped) ∨
      (task.id = id ∧ turn.next.stage? = some task.stage ∧
        task.wait = turn.next.wait system.now) ∨
      (task.wait = .turn ∧
        ∃ index, turn.spawned[index]? = some task.stage ∧ task.id = system.nextId + index) := by
  obtain ⟨settled, since, hTurn, hTasks, _, hNow, _⟩ := system.applyTurn_eq id turn
  rw [hTurn, conclude_tasks, hTasks, hNow] at hTask
  have hSource : ∀ other : Task Stage Query,
      other ∈ system.remaining turn ++ started system.nextId since turn.spawned →
        other.id ≠ id →
          (other ∈ system.tasks ∧ other.id ≠ id ∧ other.id ∉ turn.dropped) ∨
            (other.wait = .turn ∧ ∃ index,
              turn.spawned[index]? = some other.stage ∧ other.id = system.nextId + index) := by
    intro other hOther hDistinct
    rcases List.mem_append.mp hOther with hOld | hNew
    · have hKept := List.mem_filter.mp hOld
      exact Or.inl ⟨hKept.1, hDistinct, by simpa using hKept.2⟩
    · exact Or.inr (mem_started hNew)
  cases hNext : turn.next.stage? with
  | none =>
      rw [hNext] at hTask
      obtain ⟨hMember, hDistinct⟩ := List.mem_filter.mp hTask
      rcases hSource task hMember (by simpa using hDistinct) with hOld | hNew
      · exact Or.inl hOld
      · exact Or.inr (Or.inr hNew)
  | some stage =>
      rw [hNext] at hTask
      obtain ⟨other, hMember, hTask⟩ := List.mem_map.mp hTask
      by_cases hSame : other.id = id
      · rw [goOn, if_pos hSame] at hTask
        subst hTask
        exact Or.inr (Or.inl ⟨rfl, rfl, rfl⟩)
      · rw [goOn_of_ne hSame] at hTask
        subst hTask
        rcases hSource other hMember hSame with hOld | hNew
        · exact Or.inl hOld
        · exact Or.inr (Or.inr hNew)

theorem mem_applyTurn_of_kept {system : System Stage Query Data} {id : Nat}
    {turn : Turn Stage Query Data} {task : Task Stage Query} (hTask : task ∈ system.tasks)
    (hOther : task.id ≠ id) (hKept : task.id ∉ turn.dropped) :
    task ∈ (system.applyTurn id turn).tasks := by
  obtain ⟨settled, since, hTurn, hTasks, _⟩ := system.applyTurn_eq id turn
  have hSettled : task ∈ settled.tasks := by
    rw [hTasks]
    refine List.mem_append_left _ (List.mem_filter.mpr ⟨hTask, ?_⟩)
    simpa using hKept
  rw [hTurn, conclude_tasks]
  cases turn.next.stage? with
  | none => exact List.mem_filter.mpr ⟨hSettled, by simpa using hOther⟩
  | some stage => exact List.mem_map.mpr ⟨task, hSettled, goOn_of_ne hOther⟩

theorem exists_applyTurn_self {system : System Stage Query Data} {task : Task Stage Query}
    {turn : Turn Stage Query Data} {stage : Stage} (hTask : task ∈ system.tasks)
    (hKept : task.id ∉ turn.dropped) (hNext : turn.next.stage? = some stage) :
    ∃ later ∈ (system.applyTurn task.id turn).tasks, later.id = task.id ∧ later.stage = stage ∧
      later.wait = turn.next.wait system.now := by
  obtain ⟨settled, since, hTurn, hTasks, _, hNow, _⟩ := system.applyTurn_eq task.id turn
  have hSettled : task ∈ settled.tasks := by
    rw [hTasks]
    refine List.mem_append_left _ (List.mem_filter.mpr ⟨hTask, ?_⟩)
    simpa using hKept
  rw [hTurn, conclude_tasks, hNext]
  refine ⟨_, List.mem_map_of_mem hSettled, goOn_id _ _ _ _ _, ?_, ?_⟩
  · rw [goOn, if_pos rfl]
  · rw [goOn, if_pos rfl, hNow]

/-- Ids stay distinct: new ones are taken from above all that were given. -/
theorem applyTurn_ids_nodup {system : System Stage Query Data} (id : Nat)
    (turn : Turn Stage Query Data) (hNodup : (system.tasks.map Task.id).Nodup)
    (hBelow : ∀ task ∈ system.tasks, task.id < system.nextId) :
    ((system.applyTurn id turn).tasks.map Task.id).Nodup := by
  obtain ⟨settled, since, hTurn, hTasks, _, _, _⟩ := system.applyTurn_eq id turn
  have hSettled : (settled.tasks.map Task.id).Nodup := by
    rw [hTasks, List.map_append, List.nodup_append]
    refine ⟨?_, started_ids_nodup _ _ _, ?_⟩
    · exact hNodup.sublist ((List.filter_sublist).map Task.id)
    · intro old hOld new hNew hSame
      obtain ⟨task, hTask, hTaskId⟩ := List.mem_map.mp hOld
      obtain ⟨other, hOther, hOtherId⟩ := List.mem_map.mp hNew
      have hLow := hBelow task (List.mem_filter.mp hTask).1
      have hHigh := started_id_ge hOther
      omega
  rw [hTurn, conclude_tasks]
  cases turn.next.stage? with
  | none => exact hSettled.sublist ((List.filter_sublist).map Task.id)
  | some stage =>
      rw [List.map_map]
      have hIds : Task.id ∘ goOn id stage (turn.next.wait settled.now) settled.nextWait =
          (Task.id : Task Stage Query → Nat) := by
        funext task
        exact goOn_id _ _ _ _ task
      rw [hIds]
      exact hSettled

/-- The stages after a turn, in order: the task that has the turn stays in its place. -/
theorem applyTurn_stages {system : System Stage Query Data} {task : Task Stage Query}
    {earlier later : List (Task Stage Query)} (turn : Turn Stage Query Data)
    (hTasks : system.tasks = earlier ++ task :: later)
    (hNodup : (system.tasks.map Task.id).Nodup)
    (hBelow : ∀ other ∈ system.tasks, other.id < system.nextId)
    (hStays : task.id ∉ turn.dropped ∨ turn.next.stage? = none) :
    (system.applyTurn task.id turn).tasks.map Task.stage =
      (earlier.filter (fun other => !turn.dropped.contains other.id)).map Task.stage ++
        turn.next.stage?.toList ++
          (later.filter (fun other => !turn.dropped.contains other.id)).map Task.stage ++
            turn.spawned := by
  obtain ⟨settled, since, hTurn, hSettled, _, hNow, _⟩ := system.applyTurn_eq task.id turn
  have hTaskBelow : task.id < system.nextId := hBelow task (by simp [hTasks])
  have hNewNe : ∀ other ∈ (started system.nextId since turn.spawned : List (Task Stage Query)),
      other.id ≠ task.id := by
    intro other hOther
    have hAbove := started_id_ge hOther
    omega
  rw [hTasks, List.map_append, List.map_cons, List.nodup_append] at hNodup
  obtain ⟨_, hLaterNodup, hApart⟩ := hNodup
  have hEarlierNe : ∀ other ∈ earlier, other.id ≠ task.id := fun other hOther =>
    hApart other.id (List.mem_map_of_mem hOther) task.id List.mem_cons_self
  have hLaterNe : ∀ other ∈ later, other.id ≠ task.id := by
    intro other hOther hSame
    exact (List.nodup_cons.mp hLaterNodup).1 (hSame ▸ List.mem_map_of_mem hOther)
  rw [hTurn, conclude_tasks, hSettled, remaining, hTasks]
  cases hNext : turn.next.stage? with
  | none =>
      -- Only the task itself goes now; it may have gone already.
      have hGone : ∀ kept : List (Task Stage Query), (∀ other ∈ kept, other.id ≠ task.id) →
          kept.filter (fun other => other.id != task.id) = kept := by
        intro kept hKept
        exact List.filter_eq_self.mpr fun other hOther => by simpa using hKept other hOther
      have hSelf : ((if (!turn.dropped.contains task.id) = true then [task] else []).filter
          (fun other => other.id != task.id)) = [] := by
        split <;> simp
      have hSplit : (task :: later).filter (fun other => !turn.dropped.contains other.id) =
          (if (!turn.dropped.contains task.id) = true then [task] else []) ++
            later.filter (fun other => !turn.dropped.contains other.id) := by
        rw [List.filter_cons]
        split <;> simp
      simp only [List.filter_append, hSplit, hSelf]
      rw [hGone _ fun other hOther => hEarlierNe other (List.mem_filter.mp hOther).1,
        hGone _ fun other hOther => hLaterNe other (List.mem_filter.mp hOther).1,
        hGone _ hNewNe]
      simp [started_stages]
  | some stage =>
      have hKeptSelf : task.id ∉ turn.dropped := by
        rcases hStays with hKept | hGone
        · exact hKept
        · rw [hNext] at hGone
          cases hGone
      -- Only the task itself changes, as no other has its id.
      have hSame : ∀ kept : List (Task Stage Query), (∀ other ∈ kept, other.id ≠ task.id) →
          kept.map (goOn task.id stage (turn.next.wait settled.now) settled.nextWait) = kept := by
        intro kept hKept
        exact (List.map_congr_left fun other hOther => goOn_of_ne (hKept other hOther)).trans
          (List.map_id kept)
      rw [List.filter_append, List.filter_cons_of_pos (by simpa using hKeptSelf)]
      simp only [List.map_append, List.map_cons]
      rw [hSame _ fun other hOther => hEarlierNe other (List.mem_filter.mp hOther).1,
        hSame _ fun other hOther => hLaterNe other (List.mem_filter.mp hOther).1,
        hSame _ hNewNe]
      simp [started_stages, goOn]

/-- A turn passes by the tasks of a kind that it neither drops, starts, goes on as nor belongs
to. -/
theorem applyTurn_filter {system : System Stage Query Data} {id : Nat}
    {turn : Turn Stage Query Data} (kind : Stage → Bool)
    (hSelf : ∀ task ∈ system.tasks, task.id = id → kind task.stage = false)
    (hNext : ∀ stage, turn.next.stage? = some stage → kind stage = false)
    (hDropped : ∀ task ∈ system.tasks, task.id ∈ turn.dropped → kind task.stage = false)
    (hSpawned : ∀ stage ∈ turn.spawned, kind stage = false) :
    (system.applyTurn id turn).tasks.filter (fun task => kind task.stage) =
      system.tasks.filter (fun task => kind task.stage) := by
  obtain ⟨settled, since, hTurn, hTasks, _⟩ := system.applyTurn_eq id turn
  have hStarted : (started system.nextId since turn.spawned : List (Task Stage Query)).filter
      (fun task => kind task.stage) = [] := by
    refine List.filter_eq_nil_iff.mpr ?_
    intro task hTask
    obtain ⟨_, index, hStage, _⟩ := mem_started hTask
    simp [hSpawned task.stage (List.mem_of_getElem? hStage)]
  have hSettled : settled.tasks.filter (fun task => kind task.stage) =
      system.tasks.filter (fun task => kind task.stage) := by
    rw [hTasks, List.filter_append, hStarted, List.append_nil, remaining, List.filter_filter]
    refine List.filter_congr ?_
    intro task hTask
    by_cases hGone : task.id ∈ turn.dropped
    · simp [hDropped task hTask hGone]
    · simp [hGone]
  have hOwn : ∀ task ∈ settled.tasks, task.id = id → kind task.stage = false := by
    intro task hTask hId
    rw [hTasks] at hTask
    rcases List.mem_append.mp hTask with hOld | hNew
    · exact hSelf task (List.mem_filter.mp hOld).1 hId
    · obtain ⟨_, index, hStage, _⟩ := mem_started hNew
      exact hSpawned task.stage (List.mem_of_getElem? hStage)
  rw [hTurn, conclude_tasks, ← hSettled]
  cases hStage : turn.next.stage? with
  | none =>
      dsimp only
      rw [List.filter_filter]
      refine List.filter_congr ?_
      intro task hTask
      by_cases hId : task.id = id
      · simp [hOwn task hTask hId]
      · simp [hId]
  | some stage =>
      exact filter_map_goOn kind (hNext stage hStage) settled.tasks hOwn

/-! ### Being resumed -/

/-- What a task is resumed with, if it has what it waits for. -/
def grant? (system : System Stage Query Data) (answer : Query → Option Answer)
    (task : Task Stage Query) : Option (Option Answer) :=
  match task.wait with
  | .turn => some none
  | .clock due => if due ≤ system.now then some none else none
  | .locks => if (system.locks.settle task.id).holds task.id then some none else none
  | .answer query => (answer query).map some

/-- A system in which a task has taken the locks it waits for, as far as it can. -/
def polled (system : System Stage Query Data) (task : Task Stage Query) :
    System Stage Query Data :=
  match task.wait with
  | .locks => { system with locks := system.locks.settle task.id }
  | _ => system

theorem polled_eq (system : System Stage Query Data) (task : Task Stage Query) :
    ∃ locks, system.polled task = { system with locks := locks } := by
  unfold polled
  cases task.wait with
  | locks => exact ⟨system.locks.settle task.id, rfl⟩
  | _ => exact ⟨system.locks, rfl⟩

theorem polled_tasks (system : System Stage Query Data) (task : Task Stage Query) :
    (system.polled task).tasks = system.tasks := by
  obtain ⟨locks, hPolled⟩ := system.polled_eq task
  rw [hPolled]

/-- A task is resumed if it is granted what it waits for; else at most locks change hands. -/
theorem poll_eq (program : Program Stage Query Answer Data) (answer : Query → Option Answer)
    (system : System Stage Query Data) (task : Task Stage Query) :
    Id.run (system.poll program (fun query => pure (answer query)) task) =
      match system.grant? answer task with
      | some answer? => resume program (system.polled task) task answer?
      | none => system.polled task := by
  unfold poll grant? polled
  cases task.wait with
  | turn => rfl
  | clock due =>
      by_cases hDue : due ≤ system.now
      · simp only [if_pos hDue]
        rfl
      · simp only [if_neg hDue]
        rfl
  | locks =>
      by_cases hHolds : (system.locks.settle task.id).holds task.id
      · simp only [if_pos hHolds]
        rfl
      · simp only [if_neg hHolds]
        rfl
  | answer query =>
      cases hAnswer : answer query with
      | some result =>
          simp only [hAnswer, Option.map_some]
          rfl
      | none =>
          simp only [hAnswer, Option.map_none]
          rfl

end System

end BuildWatch.Tasks
