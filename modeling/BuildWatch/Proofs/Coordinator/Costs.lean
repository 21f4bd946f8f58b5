import BuildWatch.Proofs.Coordinator.RunViews
import BuildWatch.Proofs.Tasks.Settling
import Mathlib.Algebra.Order.BigOperators.Group.List

/-!
What the tasks of a coordinator have to do at most.  A request or a quiet period pays in
advance for the build it may start, or for the follow-up it may ask for; as one task builds
a project at most, every turn leaves less to do.
-/

namespace BuildWatch

open BuildWatch.Tasks

namespace Coordinator

variable {circumstances : Circumstances} {options : CoordinatorOptions}
variable {data : CoordinatorState} {system : CoordinatorSystem}

/-! ### What a task has to do -/

/-- So much a task at a stage has to do, together with what it may start and ask for. -/
def Stage.cost : Stage → Nat
  | .change _ => 19
  | .changeFound _ => 18
  | .changeTimer _ _ => 17
  | .changeLoaded _ _ => 16
  | .changeApplied _ _ => 15
  | .changeRefreshed _ => 14
  | .changeBuffer _ _ => 13
  | .changeLocked _ _ => 12
  | .timer _ => 10
  | .timerElapsed _ => 9
  | .timerFound _ => 8
  | .timerLocked _ _ => 7
  | .update _ => 9
  | .updateFound _ => 8
  | .updateLocked _ _ => 7
  | .followUpFound _ _ => 3
  | .followUpLocked _ _ _ => 2
  | .build _ _ => 2
  | .buildEnded _ => 1

def hasFollowUp (data : CoordinatorState) (project : String) : Bool :=
  (data.builds.followUp? project).isSome

/-- The task that builds a project has the follow-up to do as well. -/
def weight (data : CoordinatorState) (stage : Stage) : Nat :=
  stage.cost + if stage.phase?.isSome && hasFollowUp data stage.project then 3 else 0

theorem Stage.cost_pos (stage : Stage) : 0 < stage.cost := by
  cases stage <;> exact Nat.succ_pos _

theorem cost_le_weight (data : CoordinatorState) (stage : Stage) : stage.cost ≤ weight data stage :=
  Nat.le_add_right _ _

/-- What a task has to do at most, whatever is asked for. -/
def Stage.most (stage : Stage) : Nat :=
  stage.cost + if stage.phase?.isSome then 3 else 0

theorem weight_le_most (data : CoordinatorState) (stage : Stage) :
    weight data stage ≤ stage.most := by
  unfold weight Stage.most
  cases stage.phase?.isSome <;> cases hasFollowUp data stage.project <;> simp

theorem weight_lt (data : CoordinatorState) (stage : Stage) : weight data stage < 20 := by
  refine Nat.lt_of_le_of_lt (weight_le_most data stage) ?_
  cases stage <;> simp [Stage.most, Stage.cost, Stage.phase?]

theorem weight_of_phase? {stage : Stage} (data : CoordinatorState) (hPhase : stage.phase? = none) :
    weight data stage = stage.cost := by
  unfold weight
  rw [hPhase]
  rfl

theorem weight_le {later : CoordinatorState} {asked? : Option String}
    (hAsked : ∀ project, hasFollowUp later project = true →
      hasFollowUp data project = true ∨ asked? = some project) (stage : Stage) :
    weight later stage ≤ weight data stage +
      3 * asked?.elim 0 fun project => (stage.phaseOf? project).toList.length := by
  unfold weight
  cases hPhase : stage.phase? with
  | none => simp
  | some phase =>
      cases hLater : hasFollowUp later stage.project with
      | false =>
          simp only [Bool.and_false, Bool.false_eq_true, if_false]
          omega
      | true =>
          rcases hAsked stage.project hLater with hBefore | hAsked
          · simp [hBefore]
          · have hOf : stage.phaseOf? stage.project = some phase :=
              (Stage.phaseOf?_of_eq rfl).trans hPhase
            simp [hAsked, hOf]

/-! ### What a turn spends -/

/-- What the tasks have to do that the work of a turn starts, and that they start at all. -/
def Work.startCost (work : Work) : Nat :=
  (work.spawned.map fun stage => stage.most + 1).sum

theorem Work.startCost_spawn (work : Work) (stage : Stage) :
    (work.spawn stage).startCost = work.startCost + (stage.most + 1) := by
  unfold startCost spawn
  rw [List.map_append, List.sum_append]
  rfl

/-- The work of a turn has asked for one follow-up at most; so much it has spent on that and
on the tasks it starts. -/
def Work.Spends (data : CoordinatorState) (work : Work) (spent : Nat) : Prop :=
  ∃ asked? : Option String,
    (∀ project, hasFollowUp work.state project = true →
      hasFollowUp data project = true ∨ asked? = some project) ∧
    work.startCost + 3 * asked?.toList.length ≤ spent

section

variable {work : Work} {spent : Nat}

theorem Work.spends_start (data : CoordinatorState) (fresh : Nat) :
    Work.Spends data { state := data, fresh := fresh } 0 :=
  ⟨none, fun _ => Or.inl, Nat.le_refl 0⟩

theorem Work.Spends.mono (hSpends : work.Spends data spent) {more : Nat} (hMore : spent ≤ more) :
    work.Spends data more := by
  obtain ⟨asked?, hAsked, hSpent⟩ := hSpends
  exact ⟨asked?, hAsked, Nat.le_trans hSpent hMore⟩

theorem Work.Spends.map (hSpends : work.Spends data spent)
    (change : CoordinatorState → CoordinatorState)
    (hChange : ∀ project, hasFollowUp (change work.state) project = true →
      hasFollowUp work.state project = true) :
    (work.map change).Spends data spent := by
  obtain ⟨asked?, hAsked, hSpent⟩ := hSpends
  exact ⟨asked?, fun project hWaits => hAsked project (hChange project hWaits), hSpent⟩

theorem Work.Spends.require (hSpends : work.Spends data spent) (project : String) :
    (work.map (·.require project)).Spends data spent := by
  refine hSpends.map _ fun other hWaits => ?_
  change ((work.state.builds.require project true).state other).requested.isSome = true at hWaits
  rw [Builds.state_require] at hWaits
  split at hWaits
  · rename_i hOther
    rw [hOther]
    exact hWaits
  · exact hWaits

theorem Work.Spends.cancelTimer (hSpends : work.Spends data spent) (project : String) :
    (work.cancelTimer project).Spends data spent :=
  hSpends

theorem Work.Spends.beginBuild (hSpends : work.Spends data 0) (project : String)
    (info : ProjectInfo) (explicit : Bool) :
    (work.beginBuild project info explicit).Spends data 6 := by
  obtain ⟨asked?, hAsked, hSpent⟩ := hSpends
  obtain rfl : asked? = none := by
    cases asked? with
    | none => rfl
    | some other => simp at hSpent
  have hNone : work.startCost = 0 := Nat.le_zero.mp hSpent
  have hBefore (other : String) (hWaits : hasFollowUp work.state other = true) :=
    (hAsked other hWaits).resolve_right nofun
  have hOther (other : String) (hDistinct : other ≠ project)
      (hWaits : ((work.state.builds.begin project explicit).state other).requested.isSome = true) :
      hasFollowUp data other = true := by
    rw [Builds.state_begin, if_neg hDistinct] at hWaits
    exact hBefore other hWaits
  unfold Work.beginBuild
  dsimp only
  cases hSlot : work.state.builds.slot project with
  | queued =>
      refine ⟨some project, ?_, ?_⟩
      · intro other hWaits
        by_cases hSame : other = project
        · exact Or.inr (congrArg some hSame.symm)
        · exact Or.inl (hOther other hSame hWaits)
      · change work.startCost + 3 ≤ 6
        omega
  | started =>
      have hIdle := (Builds.slot_eq_started_iff _ _).mp hSlot
      refine ⟨none, ?_, ?_⟩
      · intro other hWaits
        refine Or.inl ?_
        by_cases hSame : other = project
        · change ((work.state.builds.begin project explicit).state other).requested.isSome = true
            at hWaits
          rw [Builds.state_begin, if_pos hSame] at hWaits
          unfold BuildState.begin at hWaits
          rw [hIdle] at hWaits
          rw [hSame]
          exact hBefore project hWaits
        · exact hOther other hSame hWaits
      · change (work.spawn (.build info _)).startCost ≤ 6
        rw [Work.startCost_spawn, hNone]
        exact Nat.le_refl 6

theorem Work.Spends.trigger (hSpends : work.Spends data 0) (info : ProjectInfo)
    (requireChanges : Bool) : (work.trigger info requireChanges).Spends data 6 := by
  have hCleared : ((work.cancelTimer info.id).clearBatches info.id).Spends data 0 :=
    (hSpends.cancelTimer info.id).map _ fun _ => id
  unfold Work.trigger
  dsimp only
  split
  · exact (hCleared.require info.id).mono (Nat.zero_le 6)
  · split
    · exact hCleared.mono (Nat.zero_le 6)
    · exact hCleared.beginBuild info.id info false

theorem Work.Spends.startUpdate (hSpends : work.Spends data 0) (project : String)
    (info : ProjectInfo) : (startUpdate work project info).Spends data 6 := by
  unfold Coordinator.startUpdate
  dsimp only
  split
  · exact (hSpends.cancelTimer project).beginBuild project info true
  · exact hSpends.beginBuild project info true

theorem Work.Spends.armTimer (hSpends : work.Spends data 0) (project : String) :
    (work.armTimer project).Spends data 11 := by
  obtain ⟨asked?, hAsked, hSpent⟩ := hSpends
  refine ⟨asked?, hAsked, ?_⟩
  change (work.spawn (.timer project)).startCost + _ ≤ _
  rw [Work.startCost_spawn]
  change work.startCost + 11 + _ ≤ 11
  omega

theorem Work.Spends.decide (hSpends : work.Spends data 0) (options : CoordinatorOptions)
    (change : Change) (info : ProjectInfo) : (decide options work change info).Spends data 11 := by
  have hRecorded : (work.record change).Spends data 0 := hSpends.map _ fun _ => id
  unfold Coordinator.decide
  dsimp only
  split
  · split
    · exact hSpends.armTimer _
    · exact hSpends.mono (Nat.zero_le 11)
  · split
    · split
      · exact (hRecorded.trigger info false).mono (by decide)
      · split
        · exact (hRecorded.trigger info true).mono (by decide)
        · exact hRecorded.mono (Nat.zero_le 11)
    · exact hRecorded.armTimer _

theorem Work.Spends.elapse (hSpends : work.Spends data 0) (self : Nat) (project : String)
    (lookup : Lookup) : (elapse work self project lookup).Spends data 6 := by
  unfold Coordinator.elapse
  cases work.state.timers.claim? project self with
  | none => exact hSpends.mono (Nat.zero_le 6)
  | some timers =>
      have hClaimed : (work.map fun state => { state with timers := timers }).Spends data 0 :=
        hSpends.map _ fun _ => id
      cases lookup with
      | found info => exact hClaimed.trigger info true
      | failed error => exact hClaimed.mono (Nat.zero_le 6)
      | panicked => exact hClaimed.mono (Nat.zero_le 6)

end

/-! ### Turns -/

/-- What a turn leaves to its task, starts and asks for is less than the task had to do. -/
def Thrifty (data : CoordinatorState) (stage : Stage) (turn : CoordinatorTurn) : Prop :=
  ∃ asked? : Option String,
    (∀ project, hasFollowUp turn.data project = true →
      hasFollowUp data project = true ∨ asked? = some project) ∧
    ((turn.next.stage?.toList ++ turn.spawned).map (weight turn.data)).sum + turn.spawned.length +
      3 * asked?.toList.length < weight data stage

section

variable {work : Work} {spent : Nat} {stage : Stage}

theorem Work.spawned_le_startCost (data : CoordinatorState) (work : Work) :
    (work.spawned.map (weight data)).sum + work.spawned.length ≤ work.startCost := by
  unfold Work.startCost
  induction work.spawned with
  | nil => exact Nat.le_refl 0
  | cons first rest ih =>
      have hFirst := weight_le_most data first
      simp only [List.map_cons, List.sum_cons, List.length_cons]
      omega

theorem Work.Spends.finish (hSpends : work.Spends data spent) (hSpent : spent < stage.cost) :
    Thrifty data stage work.finish := by
  obtain ⟨asked?, hAsked, hCost⟩ := hSpends
  refine ⟨asked?, hAsked, ?_⟩
  have hSpawned := work.spawned_le_startCost work.state
  have hStage := cost_le_weight data stage
  change (work.spawned.map (weight work.state)).sum + work.spawned.length + _ < _
  omega

theorem Work.Spends.answer (hSpends : work.Spends data spent) (hSpent : spent < stage.cost)
    (request : Nat) (result : UpdateResult) : Thrifty data stage (work.answer request result) :=
  (hSpends.map (·.tell (.answered request result)) fun _ => id).finish hSpent

theorem Work.Spends.turn (hSpends : work.Spends data 0) {later : Stage} {next : Next Stage Query}
    (hNext : next.stage? = some later) (hLess : weight work.state later < weight data stage)
    (release : Bool) : Thrifty data stage (work.turn release next) := by
  obtain ⟨asked?, hAsked, hCost⟩ := hSpends
  refine ⟨asked?, hAsked, ?_⟩
  have hSpawned := work.spawned_le_startCost work.state
  change ((next.stage?.toList ++ work.spawned).map (weight work.state)).sum +
    work.spawned.length + _ < _
  rw [hNext, Option.toList_some, List.singleton_append, List.map_cons, List.sum_cons]
  omega

theorem Work.Spends.goOn (hSpends : work.Spends data 0) {later : Stage} {next : Next Stage Query}
    (hNext : next.stage? = some later) (hPhase : later.phase? = none)
    (hCost : later.cost < stage.cost) (release : Bool) :
    Thrifty data stage (work.turn release next) := by
  refine hSpends.turn hNext ?_ release
  rw [weight_of_phase? work.state hPhase]
  exact Nat.lt_of_lt_of_le hCost (cost_le_weight data stage)

/-- A task that builds a project takes the follow-up along that it still has to do. -/
theorem weight_lt_of_phase? {later : CoordinatorState} {next : Stage}
    (hWaits : ∀ project, hasFollowUp later project = true → hasFollowUp data project = true)
    (hProject : next.project = stage.project) (hPhase : stage.phase?.isSome = true)
    (hCost : next.cost < stage.cost) : weight later next < weight data stage := by
  unfold weight
  rw [hProject, hPhase]
  cases hLater : hasFollowUp later stage.project with
  | false =>
      rw [Bool.and_false]
      simp only [Bool.false_eq_true, if_false]
      omega
  | true =>
      rw [hWaits stage.project hLater]
      split <;> simp <;> omega

theorem proceed_thrifty (hSpends : work.Spends data 0) (options : CoordinatorOptions)
    (release : Bool) (change : Change) (info : ProjectInfo) (hStage : 13 < stage.cost) :
    Thrifty data stage (proceed options work release change info) := by
  unfold proceed
  split
  · exact hSpends.goOn rfl rfl (Nat.lt_trans (Nat.lt_succ_self 12) hStage) release
  · refine hSpends.goOn rfl rfl ?_ release
    exact hStage

theorem withProject_thrifty (hSpends : work.Spends data 0) (request : Nat) (project : String)
    (lookup : Lookup) {next : ProjectInfo → CoordinatorTurn}
    (hNext : ∀ info, Thrifty data stage (next info)) :
    Thrifty data stage (withProject work request project lookup next) := by
  cases lookup with
  | found info => exact hNext info
  | failed error => exact hSpends.answer stage.cost_pos request _
  | panicked => exact hSpends.answer stage.cost_pos request _

theorem handOver_thrifty (hSpends : work.Spends data 0) (options : CoordinatorOptions)
    (release : Bool) (info : ProjectInfo) (changes : Option (List ChangeEvent))
    (hLess : weight work.state (.buildEnded info.id) < weight data stage) :
    Thrifty data stage (handOver options work release info changes) :=
  ((hSpends.map (·.tell (.started info.id)) fun _ => id).map
    (·.tell (.handed (options.operation info) changes)) fun _ => id).turn rfl hLess release

theorem abandon_thrifty (hSpends : work.Spends data 0) (project : String) :
    Thrifty data stage (abandon work project) := by
  refine (hSpends.map _ fun other hWaits => ?_).finish stage.cost_pos
  change ((work.state.builds.abandon project).state other).requested.isSome = true at hWaits
  rw [Builds.state_abandon] at hWaits
  split at hWaits
  · cases hWaits
  · exact hWaits

end

theorem followUp?_finish (builds : Builds) (project other : String)
    (hWaits : ((builds.finish project).followUp? other).isSome = true) :
    other ≠ project ∧ (builds.followUp? other).isSome = true := by
  unfold Builds.followUp? at hWaits ⊢
  rw [Builds.state_finish] at hWaits
  by_cases hSame : other = project
  · rw [if_pos hSame] at hWaits
    unfold BuildState.finish at hWaits
    split at hWaits
    · cases hWaits
    · rename_i hNone
      rw [hNone] at hWaits
      cases hWaits
  · rw [if_neg hSame] at hWaits
    exact ⟨hSame, hWaits⟩

/-- A build that ends has paid for the follow-up that takes its place. -/
theorem endBuild_thrifty (data : CoordinatorState) (fresh : Nat) (project : String)
    (result : BuildResult) :
    Thrifty data (.buildEnded project)
      (endBuild { state := data, fresh := fresh } project result) := by
  have hSpends := (Work.spends_start data fresh).map
    (fun state => { (state.tell (.finished project result)).tell
      (.passedOn project (data.builds.followUp? project)) with
        builds := state.builds.finish project })
    fun other hWaits => (followUp?_finish data.builds project other hWaits).2
  unfold endBuild
  dsimp only
  split
  · rename_i followUp hDue
    refine hSpends.turn rfl ?_ false
    have hNone : ((data.builds.finish project).followUp? project).isSome = false := by
      refine Bool.eq_false_iff.mpr fun hWaits => ?_
      exact (followUp?_finish data.builds project project hWaits).1 rfl
    have hSome : hasFollowUp data project = true := by
      unfold hasFollowUp
      rw [hDue]
      rfl
    change 3 + (if true && ((data.builds.finish project).followUp? project).isSome then 3 else 0) <
      1 + if true && hasFollowUp data project then 3 else 0
    rw [hNone, hSome]
    decide
  · exact hSpends.finish (Stage.cost_pos _)

theorem resume_thrifty (options : CoordinatorOptions) (self fresh : Nat) {stage : Stage}
    (answer? : Option Answer) (data : CoordinatorState) (hInformed : stage.Informed circumstances) :
    Thrifty data stage (resume options self fresh stage answer? data) := by
  have hStart := Work.spends_start data fresh
  cases stage with
  | update asked => exact hStart.goOn rfl rfl (by simp [Stage.cost]) false
  | updateFound asked =>
      refine withProject_thrifty hStart self asked _ fun info => ?_
      unfold updateWith
      split
      · exact hStart.goOn rfl rfl (by simp [Stage.cost]) false
      · exact (hStart.require asked).answer (by simp [Stage.cost]) self _
  | updateLocked asked info =>
      exact (hStart.startUpdate asked info).answer (by simp [Stage.cost]) self _
  | change chunk => exact hStart.goOn rfl rfl (by simp [Stage.cost]) false
  | changeFound chunk =>
      exact withProject_thrifty hStart self chunk.project _ fun info =>
        hStart.goOn rfl rfl (by simp [Stage.cost]) false
  | changeTimer chunk info =>
      simp only [resume]
      unfold afterCancel
      split
      · exact (hStart.cancelTimer chunk.project).goOn rfl rfl (by simp [Stage.cost]) true
      · exact proceed_thrifty (hStart.cancelTimer chunk.project) options true chunk info
          (by simp [Stage.cost])
  | changeLoaded chunk info =>
      simp only [resume]
      unfold afterLoad
      split
      · split
        · exact (hStart.map _ fun _ => id).goOn rfl rfl (by simp [Stage.cost]) false
        · exact proceed_thrifty hStart options false chunk info (by simp [Stage.cost])
      · exact proceed_thrifty hStart options false chunk info (by simp [Stage.cost])
  | changeApplied chunk info =>
      simp only [resume]
      split
      · exact hStart.goOn rfl rfl (by simp [Stage.cost]) false
      · exact proceed_thrifty hStart options false chunk info (by simp [Stage.cost])
      · exact hStart.answer (by simp [Stage.cost]) self _
  | changeRefreshed chunk =>
      exact withProject_thrifty hStart self chunk.project _ fun info =>
        proceed_thrifty hStart options false chunk info (by simp [Stage.cost])
  | changeBuffer chunk info =>
      exact (hStart.map _ fun _ => id).goOn rfl rfl (by simp [Stage.cost]) true
  | changeLocked chunk info =>
      exact (hStart.decide options chunk info).answer (by simp [Stage.cost]) self _
  | timer asked => exact hStart.goOn rfl rfl (by simp [Stage.cost]) false
  | timerElapsed asked => exact hStart.goOn rfl rfl (by simp [Stage.cost]) false
  | timerFound asked =>
      simp only [resume]
      split
      · exact hStart.finish (by simp [Stage.cost])
      · exact hStart.goOn rfl rfl (by simp [Stage.cost]) false
  | timerLocked asked lookup =>
      exact (hStart.elapse self asked lookup).finish (by simp [Stage.cost])
  | build info changes =>
      exact handOver_thrifty hStart options false info changes
        (weight_lt_of_phase? (fun _ => id) rfl rfl (by simp [Stage.cost]))
  | buildEnded asked =>
      exact endBuild_thrifty data fresh asked _
  | followUpFound asked followUp =>
      simp only [resume]
      cases Answer.toLookup answer? with
      | found info =>
          unfold followUpWith
          dsimp only
          split
          · refine hStart.turn rfl ?_ false
            exact weight_lt_of_phase? (fun _ => id) rfl rfl (by simp [Stage.cost])
          · exact abandon_thrifty (hStart.require asked) asked
      | failed error => exact abandon_thrifty hStart asked
      | panicked => exact hStart.finish (Stage.cost_pos _)
  | followUpLocked asked info followUp =>
      have hId : info.id = asked := circumstances.faithful asked info hInformed
      exact handOver_thrifty (hStart.map _ fun _ => id) options true info _
        (weight_lt_of_phase? (fun _ => id) hId rfl (by simp [Stage.cost]))

/-! ### The tasks together -/

theorem sum_weight_le {later : CoordinatorState} {asked? : Option String}
    (hAsked : ∀ project, hasFollowUp later project = true →
      hasFollowUp data project = true ∨ asked? = some project) (stages : List Stage) :
    (stages.map (weight later)).sum ≤ (stages.map (weight data)).sum +
      3 * asked?.elim 0 fun project => (stages.filterMap (Stage.phaseOf? project)).length := by
  induction stages with
  | nil => exact Nat.zero_le _
  | cons stage rest ih =>
      have hStage := weight_le hAsked stage
      rw [List.map_cons, List.sum_cons, List.map_cons, List.sum_cons]
      cases asked? with
      | none =>
          simp only [Option.elim_none] at ih hStage ⊢
          omega
      | some project =>
          have hPhases : ((stage :: rest).filterMap (Stage.phaseOf? project)).length =
              (stage.phaseOf? project).toList.length +
                (rest.filterMap (Stage.phaseOf? project)).length := by
            rw [List.filterMap_cons]
            cases stage.phaseOf? project with
            | none => exact (Nat.zero_add _).symm
            | some phase => exact Nat.add_comm _ _
          simp only [Option.elim_some, hPhases] at ih hStage ⊢
          omega

theorem effort_eq (system : CoordinatorSystem) :
    System.effort weight system =
      ((system.tasks.map Task.stage).map (weight system.data)).sum := by
  unfold System.effort
  rw [List.map_map]
  rfl

/-- A turn leaves less to do, what it starts included, provided that one task builds a project
at most. -/
theorem Sound.effort_applyTurn (hSound : Sound circumstances options system)
    (hOne : ∀ project, (systemView project system).phases.length ≤ 1) {task : Task Stage Query}
    (hTask : task ∈ system.tasks) {turn : CoordinatorTurn}
    (hTurn : TurnSound circumstances options system.nextId task.stage system.data turn)
    (hThrifty : Thrifty system.data task.stage turn) :
    System.effort weight (system.applyTurn task.id turn) + turn.spawned.length <
      System.effort weight system := by
  obtain ⟨earlier, later, hTasks⟩ := List.append_of_mem hTask
  obtain ⟨asked?, hAsked, hSpent⟩ := hThrifty
  -- What the tasks behind and before have to do may be more by one follow-up.
  have hKept (tasks : List (Task Stage Query)) :
      (((tasks.filter fun other => !turn.dropped.contains other.id).map Task.stage).map
        (weight turn.data)).sum ≤ ((tasks.map Task.stage).map (weight turn.data)).sum :=
    ((List.filter_sublist.map Task.stage).map (weight turn.data)).sum_le_sum fun _ _ =>
      Nat.zero_le _
  have hEarlier := hKept earlier
  have hLater := hKept later
  have hOthers := sum_weight_le hAsked (earlier.map Task.stage ++ later.map Task.stage)
  have hBuilds : (asked?.elim 0 fun project => ((earlier.map Task.stage ++
      later.map Task.stage).filterMap (Stage.phaseOf? project)).length) ≤
        asked?.toList.length := by
    cases asked? with
    | none => exact Nat.le_refl 0
    | some project =>
        refine Nat.le_trans (List.Sublist.length_le (List.Sublist.filterMap _ ?_)) (hOne project)
        rw [hTasks, List.map_append, List.map_cons]
        exact (List.sublist_cons_self _ _).append_left _
  rw [effort_eq, effort_eq, System.applyTurn_data, System.applyTurn_stages turn hTasks hSound.ids
    hSound.below (hSound.self_stays hTask hTurn), hTasks]
  simp only [List.map_append, List.map_cons, List.sum_append, List.sum_cons] at hOthers hSpent ⊢
  omega

end Coordinator

end BuildWatch
