import BuildWatch.Proofs.Tasks.Claims
import BuildWatch.Tasks.Alarms

/-!
Runs of alarms.  Alarms are armed and cancelled, holders come and go, time passes
and tasks are resumed in any order whatever.  Whoever arms or cancels an alarm may
be an alarm itself that is going off.  A task whose alarm is no longer pending may
have some more turns before it is dropped.
-/

namespace BuildWatch.Tasks.Alarms

/-! ### Where a task stands -/

/-- The project and the alarm of a task that has not gone off. -/
def Stage.alarm? : Stage → Option (String × Alarm)
  | .armed project alarm => some (project, alarm)
  | .elapsed project alarm => some (project, alarm)
  | .prepared project alarm => some (project, alarm)
  | .guarded project alarm => some (project, alarm)
  | _ => none

def Stage.isHolder : Stage → Bool
  | .claim _ _ => true
  | .inside _ => true
  | .leave _ => true
  | _ => false

/-- What a task at a stage waits for, and how much of the locks it claims: an alarm has all
the guard locks once it goes off. -/
def Stage.Fits (guards : List String) (claim? : Option Claim) (wait : Wait String) :
    Stage → Prop
  | .claim _ _ => wait = .turn ∧ claim? = none
  | .inside _ => wait = .locks ∧ claim?.isSome = true
  | .leave holder => wait = .answer holder ∧ claim?.isSome = true
  | .armed _ _ => wait = .turn ∧ claim? = none
  | .elapsed _ _ => (∃ due, wait = .clock due) ∧ claim? = none
  | .prepared _ _ => (∃ due, wait = .clock due) ∧ claim? = none
  | .guarded _ _ =>
      wait = .locks ∧ claim?.map (fun claim => claim.taken ++ claim.wanted) =
        some (orderedNames guards)
  | .worked _ _ =>
      (∃ due, wait = .clock due) ∧
        ∃ claim, claim? = some claim ∧ claim.wanted = [] ∧ claim.taken = orderedNames guards

/-! ### Events -/

inductive Event where
  | arm (project : String) (alarm : Alarm)
  | cancel (project : String)
  | cancelAll
  /-- A task is dropped if its alarm is no longer pending. -/
  | drop (task : Nat)
  | hold (holder : String) (names : List String)
  /-- A holder is dropped. -/
  | abort (holder : String) (task : Nat)
  | pass (duration : Nat)
  /-- The tasks that are ready change places. -/
  | reorder (ready : List Nat)
  /-- A task is resumed if it has what it waits for; some holders have been told to leave. -/
  | poll (task : Nat) (leave? : String → Option Leave)

/-- The alarm that is pending for a project is replaced or cancelled. -/
def Event.Ends (project : String) : Event → Prop
  | .arm other _ => other = project
  | .cancel other => other = project
  | .cancelAll => True
  | _ => False

instance (project : String) (event : Event) : Decidable (event.Ends project) := by
  cases event <;> unfold Event.Ends <;> infer_instance

/-- Whether a task is that of an alarm that is not pending. -/
def superseded (scheduler : Scheduler) (task : Task Stage String) : Bool :=
  match task.stage.alarm? with
  | some (project, _) => scheduler.data.timers.waiting.get? project != some task.id
  | none => false

def removeIf (scheduler : Scheduler) (condition : Task Stage String → Bool) (id : Nat)
    (remove : Scheduler → Scheduler) : Scheduler :=
  match scheduler.task? id with
  | some task => if condition task then remove scheduler else scheduler
  | none => scheduler

theorem removeIf_cases (scheduler : Scheduler) (condition : Task Stage String → Bool) (id : Nat)
    (remove : Scheduler → Scheduler) :
    removeIf scheduler condition id remove = scheduler ∨
      ∃ task, scheduler.task? id = some task ∧ condition task = true ∧
        removeIf scheduler condition id remove = remove scheduler := by
  unfold removeIf
  cases scheduler.task? id with
  | none => exact Or.inl rfl
  | some task =>
      cases hCondition : condition task with
      | true => exact Or.inr ⟨task, rfl, hCondition, by simp [hCondition]⟩
      | false => exact Or.inl (by simp [hCondition])

def pollTask (scheduler : Scheduler) (id : Nat) (leave? : String → Option Leave) : Scheduler :=
  match scheduler.task? id with
  | some task => Id.run (scheduler.poll program (fun holder => pure (leave? holder)) task)
  | none => scheduler

def happen (scheduler : Scheduler) : Event → Scheduler
  | .arm project alarm => scheduler.register project alarm
  | .cancel project => scheduler.forget project
  | .cancelAll => scheduler.forgetAll
  | .drop task => removeIf scheduler (superseded scheduler) task (·.remove task)
  | .hold holder names => scheduler.hold holder names
  | .abort holder task => removeIf scheduler (·.stage.isHolder) task (·.abort holder task)
  | .pass duration => { scheduler with now := scheduler.now + duration }
  | .reorder ready => { scheduler with ready := ready }
  | .poll task leave? => pollTask scheduler task leave?

def after (guardNames : Option (List String)) (events : List Event) : Scheduler :=
  events.foldl happen (Scheduler.create guardNames)

theorem after_snoc (guardNames : Option (List String)) (events : List Event) (event : Event) :
    after guardNames (events ++ [event]) = happen (after guardNames events) event := by
  unfold after
  rw [List.foldl_append]
  rfl

/-- The locks an alarm takes before it goes off. -/
def guards (guardNames : Option (List String)) : List String :=
  guardNames.getD []

/-! ### Turns -/

/-- A task only goes on or ends: it drops no other, starts no other and keeps its locks. -/
theorem resume_plain (self fresh : Nat) (stage : Stage) (answer? : Option Leave)
    (shared : Shared) :
    ∃ data next, resume self fresh stage answer? shared = { data := data, next := next } ∧
      data.guardNames = shared.guardNames := by
  cases stage with
  | elapsed project alarm =>
      simp only [resume, beginPreparing, takeGuard]
      split
      · exact ⟨_, _, rfl, rfl⟩
      · exact ⟨_, _, rfl, rfl⟩
  | guarded project alarm =>
      simp only [resume, fire]
      split
      · exact ⟨_, _, rfl, rfl⟩
      · split
        · exact ⟨_, _, rfl, rfl⟩
        · exact ⟨_, _, rfl, rfl⟩
  | _ => exact ⟨_, _, rfl, rfl⟩

theorem pollTask_cases (scheduler : Scheduler) (id : Nat) (leave? : String → Option Leave) :
    (scheduler.task? id = none ∧ pollTask scheduler id leave? = scheduler) ∨
    (∃ task, scheduler.task? id = some task ∧ scheduler.grant? leave? task = none ∧
      pollTask scheduler id leave? = scheduler.polled task) ∨
    ∃ task answer?, scheduler.task? id = some task ∧
      scheduler.grant? leave? task = some answer? ∧
        pollTask scheduler id leave? = (scheduler.polled task).applyTurn task.id
          (resume task.id scheduler.nextId task.stage answer? scheduler.data) := by
  unfold pollTask
  cases hTask : scheduler.task? id with
  | none => exact Or.inl ⟨rfl, rfl⟩
  | some task =>
      dsimp only
      rw [System.poll_eq]
      apply Or.inr
      obtain ⟨locks, hPolled⟩ := scheduler.polled_eq task
      cases hGrant : scheduler.grant? leave? task with
      | none => exact Or.inl ⟨task, rfl, hGrant, rfl⟩
      | some answer? =>
          apply Or.inr
          refine ⟨task, answer?, rfl, hGrant, ?_⟩
          simp only [hPolled]
          rfl

section

variable {scheduler : Scheduler} {task : Task Stage String} {data : Shared}
variable {next : Next Stage String}

theorem mem_tasks_after {id : Nat}
    (hTask : task ∈ (scheduler.applyTurn id { data := data, next := next }).tasks) :
    (task ∈ scheduler.tasks ∧ task.id ≠ id) ∨
      (task.id = id ∧ next.stage? = some task.stage ∧ task.wait = next.wait scheduler.now) := by
  cases System.mem_applyTurn_tasks hTask with
  | inl hOld => exact Or.inl ⟨hOld.1, hOld.2.1⟩
  | inr hRest =>
      cases hRest with
      | inl hSelf => exact Or.inr hSelf
      | inr hNew =>
          obtain ⟨_, index, hStage, _⟩ := hNew
          cases hStage

theorem exists_self_after {stage : Stage} (hTask : task ∈ scheduler.tasks)
    (hStage : next.stage? = some stage) :
    ∃ later ∈ (scheduler.applyTurn task.id { data := data, next := next }).tasks,
      later.id = task.id ∧ later.stage = stage ∧ later.wait = next.wait scheduler.now :=
  System.exists_applyTurn_self hTask List.not_mem_nil hStage

theorem locks_after (scheduler : Scheduler) (id : Nat) (data : Shared)
    (next : Next Stage String) :
    (scheduler.applyTurn id { data := data, next := next }).locks =
      match next with
      | .acquire names _ => scheduler.locks.begin id names
      | .finish => scheduler.locks.release id
      | _ => scheduler.locks := by
  rw [System.applyTurn_locks]
  cases next <;> rfl

end

/-! ### What holds of the tasks of every run -/

/-- No two tasks have the same id, each waits for what its stage calls for, and only tasks
claim locks. -/
structure Tidy (scheduler : Scheduler) : Prop where
  ids : (scheduler.tasks.map Task.id).Nodup
  below : ∀ task ∈ scheduler.tasks, task.id < scheduler.nextId
  locks : scheduler.locks.Sound
  fits : ∀ task ∈ scheduler.tasks,
    task.stage.Fits (guards scheduler.data.guardNames) (scheduler.locks.claim? task.id) task.wait
  owned : ∀ owner, scheduler.locks.Claimed owner → ∃ task ∈ scheduler.tasks, task.id = owner

theorem tidy_create (guardNames : Option (List String)) :
    Tidy (Scheduler.create guardNames) where
  ids := List.nodup_nil
  below := by
    intro task hTask
    cases hTask
  locks := Locks.sound_start
  fits := by
    intro task hTask
    cases hTask
  owned := by
    intro owner hClaimed
    obtain ⟨claim, hClaim, _⟩ := hClaimed
    cases hClaim

variable {scheduler : Scheduler}

theorem Tidy.task?_eq_some_iff (hTidy : Tidy scheduler) (id : Nat) (task : Task Stage String) :
    scheduler.task? id = some task ↔ task ∈ scheduler.tasks ∧ task.id = id := by
  unfold System.task?
  constructor
  · intro hFind
    exact ⟨List.mem_of_find?_eq_some hFind, by simpa using List.find?_some hFind⟩
  · intro hBoth
    obtain ⟨hTask, hId⟩ := hBoth
    cases hFind : scheduler.tasks.find? (fun task => task.id == id) with
    | none =>
        have hAbsent := List.find?_eq_none.mp hFind task hTask
        simp [hId] at hAbsent
    | some other =>
        have hOther := List.mem_of_find?_eq_some hFind
        have hOtherId : other.id = id := by simpa using List.find?_some hFind
        rw [List.inj_on_of_nodup_map hTidy.ids hOther hTask (hOtherId.trans hId.symm)]

theorem Tidy.unique (hTidy : Tidy scheduler) {task other : Task Stage String}
    (hTask : task ∈ scheduler.tasks) (hOther : other ∈ scheduler.tasks)
    (hSame : other.id = task.id) : other = task :=
  List.inj_on_of_nodup_map hTidy.ids hOther hTask hSame

theorem Tidy.congr (hTidy : Tidy scheduler) {other : Scheduler}
    (hTasks : other.tasks = scheduler.tasks) (hId : other.nextId = scheduler.nextId)
    (hLocks : other.locks = scheduler.locks)
    (hNames : other.data.guardNames = scheduler.data.guardNames) : Tidy other := by
  constructor
  · rw [hTasks]
    exact hTidy.ids
  · rw [hTasks, hId]
    exact hTidy.below
  · rw [hLocks]
    exact hTidy.locks
  · rw [hTasks, hLocks, hNames]
    exact hTidy.fits
  · rw [hTasks, hLocks]
    exact hTidy.owned

theorem Tidy.unclaimed (hTidy : Tidy scheduler) : ¬ scheduler.locks.Claimed scheduler.nextId := by
  intro hClaimed
  obtain ⟨task, hTask, hId⟩ := hTidy.owned _ hClaimed
  have hBelow := hTidy.below task hTask
  omega

theorem Tidy.spawn (hTidy : Tidy scheduler) {stage : Stage}
    (hFits : stage.Fits (guards scheduler.data.guardNames) none .turn) :
    Tidy (scheduler.spawn stage) := by
  have hAbsent := (Locks.claim?_eq_none_iff _ _).mpr hTidy.unclaimed
  constructor
  · simp only [System.spawn, List.map_append, List.map_cons, List.map_nil]
    apply List.Nodup.append hTidy.ids (List.nodup_singleton _)
    rw [List.disjoint_singleton]
    intro hMember
    obtain ⟨task, hTask, hId⟩ := List.mem_map.mp hMember
    have hBelow := hTidy.below task hTask
    omega
  · intro task hTask
    cases List.mem_append.mp hTask with
    | inl hOld => exact Nat.lt_succ_of_lt (hTidy.below task hOld)
    | inr hNew =>
        rw [List.mem_singleton.mp hNew]
        exact Nat.lt_succ_self _
  · exact hTidy.locks
  · intro task hTask
    cases List.mem_append.mp hTask with
    | inl hOld => exact hTidy.fits task hOld
    | inr hNew =>
        rw [List.mem_singleton.mp hNew]
        change stage.Fits _ (scheduler.locks.claim? scheduler.nextId) _
        rw [hAbsent]
        exact hFits
  · intro owner hClaimed
    obtain ⟨task, hTask, hId⟩ := hTidy.owned owner hClaimed
    exact ⟨task, List.mem_append_left _ hTask, hId⟩

theorem Tidy.remove (hTidy : Tidy scheduler) (id : Nat) : Tidy (scheduler.remove id) := by
  constructor
  · exact hTidy.ids.sublist (List.filter_sublist.map Task.id)
  · intro task hTask
    rw [System.remove_nextId]
    exact hTidy.below task (List.mem_filter.mp hTask).1
  · rw [System.remove_locks]
    exact hTidy.locks.release id
  · intro task hTask
    obtain ⟨hOld, hOther⟩ := List.mem_filter.mp hTask
    rw [System.remove_data, System.remove_locks,
      hTidy.locks.claim?_release (by simpa using hOther)]
    exact hTidy.fits task hOld
  · intro owner hClaimed
    rw [System.remove_locks, Locks.claimed_release] at hClaimed
    obtain ⟨task, hTask, hId⟩ := hTidy.owned owner hClaimed.2
    exact ⟨task, List.mem_filter.mpr ⟨hTask, by simpa [hId] using hClaimed.1⟩, hId⟩

theorem Stage.Fits.settle {stage : Stage} {names : List String} {wait : Wait String}
    {locks : Locks} {owner : Nat} (hFits : stage.Fits names (locks.claim? owner) wait)
    (hWait : wait = .locks) : stage.Fits names ((locks.settle owner).claim? owner) wait := by
  have hSame := locks.claim?_settle_self owner
  cases stage with
  | inside holder =>
      constructor
      · exact hFits.1
      · have hBefore := hFits.2
        rw [← Option.isSome_map, ← hSame, Option.isSome_map] at hBefore
        exact hBefore
  | guarded project alarm =>
      constructor
      · exact hFits.1
      · rw [hSame]
        exact hFits.2
  | claim holder names => exact absurd (hFits.1.symm.trans hWait) nofun
  | leave holder => exact absurd (hFits.1.symm.trans hWait) nofun
  | armed project alarm => exact absurd (hFits.1.symm.trans hWait) nofun
  | elapsed project alarm =>
      obtain ⟨due, hDue⟩ := hFits.1
      exact absurd (hDue.symm.trans hWait) nofun
  | prepared project alarm =>
      obtain ⟨due, hDue⟩ := hFits.1
      exact absurd (hDue.symm.trans hWait) nofun
  | worked project alarm =>
      obtain ⟨due, hDue⟩ := hFits.1
      exact absurd (hDue.symm.trans hWait) nofun

theorem Tidy.polled (hTidy : Tidy scheduler) {task : Task Stage String}
    (hTask : task ∈ scheduler.tasks) : Tidy (scheduler.polled task) := by
  unfold System.polled
  split
  · rename_i hWait
    constructor
    · exact hTidy.ids
    · exact hTidy.below
    · exact (hTidy.locks.settle task.id).1
    · intro other hOther
      by_cases hSame : other.id = task.id
      · rw [hTidy.unique hTask hOther hSame]
        exact (hTidy.fits task hTask).settle hWait
      · have hFits := hTidy.fits other hOther
        rw [← scheduler.locks.claim?_settle_of_ne hSame] at hFits
        exact hFits
    · intro owner hClaimed
      exact hTidy.owned owner (((hTidy.locks.settle task.id).2 owner).mp hClaimed)
  · exact hTidy

def claimAfter (claim? : Option Claim) (owner : Nat) : Next Stage String → Option Claim
  | .acquire names _ => some { owner := owner, wanted := orderedNames names }
  | _ => claim?

theorem Tidy.applyTurn (hTidy : Tidy scheduler) {task : Task Stage String} {data : Shared}
    {next : Next Stage String} (hTask : task ∈ scheduler.tasks)
    (hNames : data.guardNames = scheduler.data.guardNames)
    (hFresh : ∀ names stage, next = .acquire names stage →
      scheduler.locks.claim? task.id = none)
    (hFits : ∀ stage, next.stage? = some stage →
      stage.Fits (guards scheduler.data.guardNames)
        (claimAfter (scheduler.locks.claim? task.id) task.id next) (next.wait scheduler.now)) :
    Tidy (scheduler.applyTurn task.id { data := data, next := next }) := by
  have hOwn (stage : Stage) (hStage : next.stage? = some stage) :
      (scheduler.applyTurn task.id { data := data, next := next }).locks.claim? task.id =
        claimAfter (scheduler.locks.claim? task.id) task.id next := by
    rw [locks_after]
    cases next with
    | acquire names stage => simp [claimAfter, Locks.claim?_begin]
    | finish => cases hStage
    | sleep delay stage => rfl
    | ask query stage => rfl
  have hOthers (owner : Nat) (hOther : owner ≠ task.id) :
      (scheduler.applyTurn task.id { data := data, next := next }).locks.claim? owner =
        scheduler.locks.claim? owner := by
    rw [locks_after]
    cases next with
    | acquire names stage => simp [Locks.claim?_begin, hOther]
    | finish => exact hTidy.locks.claim?_release hOther
    | sleep delay stage => rfl
    | ask query stage => rfl
  constructor
  · exact System.applyTurn_ids_nodup task.id _ hTidy.ids hTidy.below
  · intro other hOther
    rw [System.applyTurn_nextId]
    cases mem_tasks_after hOther with
    | inl hOld => exact Nat.lt_of_lt_of_le (hTidy.below other hOld.1) (Nat.le_add_right _ _)
    | inr hSelf =>
        rw [hSelf.1]
        exact Nat.lt_of_lt_of_le (hTidy.below task hTask) (Nat.le_add_right _ _)
  · rw [locks_after]
    cases next with
    | acquire names stage =>
        apply hTidy.locks.begin
        exact (Locks.claim?_eq_none_iff _ _).mp (hFresh names stage rfl)
    | finish => exact hTidy.locks.release task.id
    | sleep delay stage => exact hTidy.locks
    | ask query stage => exact hTidy.locks
  · intro other hOther
    rw [System.applyTurn_data, hNames]
    cases mem_tasks_after hOther with
    | inl hOld =>
        rw [hOthers other.id hOld.2]
        exact hTidy.fits other hOld.1
    | inr hSelf =>
        rw [hSelf.1, hOwn other.stage hSelf.2.1, hSelf.2.2]
        exact hFits other.stage hSelf.2.1
  · intro owner hClaimed
    by_cases hSame : owner = task.id
    · cases hStage : next.stage? with
      | some stage =>
          obtain ⟨later, hLater, hId, _⟩ := exists_self_after hTask hStage
          exact ⟨later, hLater, hId.trans hSame.symm⟩
      | none =>
          rw [Next.eq_finish_of_stage? hStage, locks_after, Locks.claimed_release] at hClaimed
          exact absurd hSame hClaimed.1
    · have hOld : scheduler.locks.Claimed owner := by
        cases hClaim : scheduler.locks.claim? owner with
        | some claim => exact ⟨claim, Locks.mem_of_claim? hClaim⟩
        | none =>
            rw [← hOthers owner hSame] at hClaim
            exact absurd hClaimed ((Locks.claim?_eq_none_iff _ _).mp hClaim)
      obtain ⟨other, hOther, hId⟩ := hTidy.owned owner hOld
      exact ⟨other, System.mem_applyTurn_of_kept hOther (hId ▸ hSame) List.not_mem_nil, hId⟩

theorem resume_fits {self fresh : Nat} {stage : Stage} {answer? : Option Leave}
    {shared data : Shared} {next : Next Stage String} {claim? : Option Claim}
    {wait : Wait String}
    (hTurn : resume self fresh stage answer? shared = { data := data, next := next })
    (hFits : stage.Fits (guards shared.guardNames) claim? wait)
    (hHolds : wait = .locks → ∃ claim, claim? = some claim ∧ claim.wanted = []) (now : Nat) :
    (∀ names later, next = .acquire names later → claim? = none) ∧
      ∀ later, next.stage? = some later →
        later.Fits (guards shared.guardNames) (claimAfter claim? self next) (next.wait now) := by
  have hGuards (project : String) (alarm : Alarm) :
      Stage.Fits (guards shared.guardNames)
        (claimAfter claim? self (.acquire (guards shared.guardNames) (.guarded project alarm)))
        .locks (.guarded project alarm) := by
    constructor
    · rfl
    · simp [claimAfter]
  cases stage with
  | claim holder names =>
      cases hTurn
      constructor
      · exact fun _ _ _ => hFits.2
      · intro later hLater
        cases hLater
        exact ⟨rfl, rfl⟩
  | inside holder =>
      cases hTurn
      constructor
      · exact nofun
      · intro later hLater
        cases hLater
        exact ⟨rfl, hFits.2⟩
  | leave holder =>
      cases hTurn
      exact ⟨nofun, nofun⟩
  | armed project alarm =>
      cases hTurn
      constructor
      · exact nofun
      · intro later hLater
        cases hLater
        exact ⟨⟨_, rfl⟩, hFits.2⟩
  | elapsed project alarm =>
      simp only [resume, beginPreparing, takeGuard] at hTurn
      split at hTurn
      · cases hTurn
        constructor
        · exact fun _ _ _ => hFits.2
        · intro later hLater
          cases hLater
          exact hGuards project alarm
      · cases hTurn
        constructor
        · exact nofun
        · intro later hLater
          cases hLater
          exact ⟨⟨_, rfl⟩, hFits.2⟩
  | prepared project alarm =>
      cases hTurn
      constructor
      · exact fun _ _ _ => hFits.2
      · intro later hLater
        cases hLater
        exact hGuards project alarm
  | guarded project alarm =>
      simp only [resume, fire] at hTurn
      split at hTurn
      · cases hTurn
        exact ⟨nofun, nofun⟩
      · split at hTurn
        · cases hTurn
          exact ⟨nofun, nofun⟩
        · cases hTurn
          constructor
          · exact nofun
          · intro later hLater
            cases hLater
            obtain ⟨claim, hClaim, hWanted⟩ := hHolds hFits.1
            have hAll := hFits.2
            rw [hClaim, Option.map_some, hWanted, List.append_nil] at hAll
            exact ⟨⟨_, rfl⟩, claim, hClaim, hWanted, Option.some.inj hAll⟩
  | worked project alarm =>
      cases hTurn
      exact ⟨nofun, nofun⟩

theorem claim_of_holds {locks : Locks} {owner : Nat} (hHolds : locks.holds owner = true) :
    ∃ claim, locks.claim? owner = some claim ∧ claim.wanted = [] := by
  unfold Locks.holds at hHolds
  split at hHolds
  · rename_i claim hClaim
    exact ⟨claim, hClaim, List.isEmpty_iff.mp hHolds⟩
  · cases hHolds

theorem holds_of_grant {leave? : String → Option Leave} {task : Task Stage String}
    {answer? : Option Leave} (hGrant : scheduler.grant? leave? task = some answer?)
    (hWait : task.wait = .locks) : (scheduler.polled task).locks.holds task.id = true := by
  unfold System.grant? at hGrant
  unfold System.polled
  rw [hWait] at hGrant ⊢
  dsimp only at hGrant ⊢
  split at hGrant
  · rename_i hHolds
    exact hHolds
  · cases hGrant

theorem polled_same (scheduler : Scheduler) (task : Task Stage String) :
    (scheduler.polled task).tasks = scheduler.tasks ∧
      (scheduler.polled task).data = scheduler.data ∧
        (scheduler.polled task).nextId = scheduler.nextId ∧
          (scheduler.polled task).now = scheduler.now := by
  obtain ⟨locks, hPolled⟩ := scheduler.polled_eq task
  rw [hPolled]
  exact ⟨rfl, rfl, rfl, rfl⟩

theorem Tidy.poll (hTidy : Tidy scheduler) (id : Nat) (leave? : String → Option Leave) :
    Tidy (pollTask scheduler id leave?) := by
  obtain ⟨_, hSame⟩ | ⟨task, hTask, _, hPoll⟩ | ⟨task, answer?, hTask, hGrant, hPoll⟩ :=
    pollTask_cases scheduler id leave?
  · rw [hSame]
    exact hTidy
  · rw [hPoll]
    exact hTidy.polled ((hTidy.task?_eq_some_iff id task).mp hTask).1
  · have hMember := ((hTidy.task?_eq_some_iff id task).mp hTask).1
    have hPolled := hTidy.polled hMember
    obtain ⟨hTasks, hData, _, _⟩ := polled_same scheduler task
    obtain ⟨data, next, hTurn, hNames⟩ :=
      resume_plain task.id scheduler.nextId task.stage answer? scheduler.data
    have hThere : task ∈ (scheduler.polled task).tasks := by
      rw [hTasks]
      exact hMember
    have hFits := hPolled.fits task hThere
    rw [hData] at hFits
    obtain ⟨hFresh, hGoes⟩ := resume_fits hTurn hFits
      (fun hWait => claim_of_holds (holds_of_grant hGrant hWait)) (scheduler.polled task).now
    rw [hPoll, hTurn]
    apply hPolled.applyTurn hThere
    · rw [hNames, hData]
    · exact hFresh
    · rw [hData]
      exact hGoes

theorem Tidy.happen (hTidy : Tidy scheduler) (event : Event) : Tidy (happen scheduler event) := by
  have hRemoveIf (condition : Task Stage String → Bool) (id : Nat)
      (remove : Scheduler → Scheduler) (hRemove : Tidy (remove scheduler)) :
      Tidy (removeIf scheduler condition id remove) := by
    obtain hSame | ⟨task, _, _, hGone⟩ := removeIf_cases scheduler condition id remove
    · rw [hSame]
      exact hTidy
    · rw [hGone]
      exact hRemove
  cases event with
  | arm project alarm =>
      have hSpawned : Tidy (scheduler.spawn (.armed project alarm)) := hTidy.spawn ⟨rfl, rfl⟩
      exact hSpawned.congr rfl rfl rfl rfl
  | cancel project => exact hTidy.congr rfl rfl rfl rfl
  | cancelAll => exact hTidy.congr rfl rfl rfl rfl
  | drop task => exact hRemoveIf _ _ (·.remove task) (hTidy.remove task)
  | hold holder names =>
      have hSpawned : Tidy (scheduler.spawn (.claim holder names)) := hTidy.spawn ⟨rfl, rfl⟩
      exact hSpawned.congr rfl rfl rfl rfl
  | abort holder task =>
      apply hRemoveIf
      exact (hTidy.remove task).congr rfl rfl rfl rfl
  | pass duration => exact hTidy.congr rfl rfl rfl rfl
  | reorder ready => exact hTidy.congr rfl rfl rfl rfl
  | poll task leave? => exact hTidy.poll task leave?

theorem tidy_after (guardNames : Option (List String)) (events : List Event) :
    Tidy (after guardNames events) := by
  induction events using List.reverseRecOn with
  | nil => exact tidy_create guardNames
  | append_singleton earlier event ih =>
      rw [after_snoc]
      exact ih.happen event

end BuildWatch.Tasks.Alarms
