import BuildWatch.Proofs.Coordinator.Soundness

/-!
Quiet periods and the tasks that wait for them.  A timer leaves the table only together
with its task, so a task that waits for the quiet period of a project is always the one
that is kept as its timer; there is no other.
-/

namespace BuildWatch

open BuildWatch.Tasks

namespace Coordinator

/-- A task that waits for the quiet period of a project is kept as its timer. -/
def Tended (system : CoordinatorSystem) : Prop :=
  ∀ task ∈ system.tasks, ∀ project, task.stage.quiet? = some project →
    system.data.timers.waiting.get? project = some task.id

/-- A turn that leads from some timers to others forgets none without its task, and keeps
every one that it begins. -/
structure TurnTends (owner fresh : Nat) (data : CoordinatorState) (turn : CoordinatorTurn) :
    Prop where
  kept : ∀ project id, data.timers.waiting.get? project = some id →
    turn.data.timers.waiting.get? project = some id ∨ id ∈ turn.dropped ∨
      (id = owner ∧ turn.next = .finish)
  begun : ∀ index stage project, turn.spawned[index]? = some stage →
    stage.quiet? = some project →
      turn.data.timers.waiting.get? project = some (fresh + index)

structure Work.Tends (data : CoordinatorState) (work : Work) : Prop where
  kept : ∀ project id, data.timers.waiting.get? project = some id →
    work.state.timers.waiting.get? project = some id ∨ id ∈ work.dropped
  begun : ∀ stage ∈ work.spawned, stage.quiet? = none

section

variable {data : CoordinatorState} {work : Work} {self fresh : Nat}

theorem Work.tends_start (fresh : Nat) : Work.Tends data { state := data, fresh := fresh } where
  kept := fun _ _ hKept => Or.inl hKept
  begun := List.forall_mem_nil _

theorem Work.Tends.map (hTends : work.Tends data) (change : CoordinatorState → CoordinatorState)
    (hTimers : (change work.state).timers = work.state.timers) :
    (work.map change).Tends data where
  kept := by
    intro project id hKept
    refine (hTends.kept project id hKept).imp_left ?_
    intro hStill
    exact hTimers ▸ hStill
  begun := hTends.begun

theorem Work.Tends.cancelTimer (hTends : work.Tends data) (project : String) :
    (work.cancelTimer project).Tends data where
  kept := by
    intro other id hKept
    rcases hTends.kept other id hKept with hStill | hDropped
    · by_cases hSame : other = project
      · refine Or.inr (List.mem_append_right _ ?_)
        exact (Timers.mem_stale_iff _ _ _).mpr (hSame ▸ hStill)
      · refine Or.inl ?_
        change (work.state.timers.cancel project).waiting.get? other = some id
        rw [Timers.get?_cancel, if_neg hSame]
        exact hStill
    · exact Or.inr (List.mem_append_left _ hDropped)
  begun := hTends.begun

theorem Work.Tends.beginBuild (hTends : work.Tends data) (project : String) (info : ProjectInfo)
    (explicit : Bool) : (work.beginBuild project info explicit).Tends data := by
  unfold Work.beginBuild
  dsimp only
  cases work.state.builds.slot project with
  | queued => exact ⟨hTends.kept, hTends.begun⟩
  | started =>
      refine ⟨hTends.kept, ?_⟩
      intro stage hStage
      rcases List.mem_append.mp hStage with hOld | hBuild
      · exact hTends.begun stage hOld
      · rw [List.mem_singleton.mp hBuild]
        rfl

theorem Work.Tends.trigger (hTends : work.Tends data) (info : ProjectInfo)
    (requireChanges : Bool) : (work.trigger info requireChanges).Tends data := by
  have hCleared : ((work.cancelTimer info.id).clearBatches info.id).Tends data :=
    (hTends.cancelTimer info.id).map _ rfl
  unfold Work.trigger
  dsimp only
  split
  · exact hCleared.map _ rfl
  · split
    · exact hCleared
    · exact hCleared.beginBuild info.id info false

theorem Work.Tends.startUpdate (hTends : work.Tends data) (project : String)
    (info : ProjectInfo) : (startUpdate work project info).Tends data := by
  unfold Coordinator.startUpdate
  dsimp only
  split
  · exact (hTends.cancelTimer project).beginBuild project info true
  · exact hTends.beginBuild project info true

/-! ### Turns -/

theorem Work.Tends.turn (hTends : work.Tends data) (release : Bool) (next : Next Stage Query) :
    TurnTends self fresh data (work.turn release next) where
  kept := fun project id hKept => (hTends.kept project id hKept).imp_right Or.inl
  begun := by
    intro index stage project hStage hQuiet
    rw [hTends.begun stage (List.mem_of_getElem? hStage)] at hQuiet
    cases hQuiet

theorem Work.Tends.answer (hTends : work.Tends data) (request : Nat) (result : UpdateResult) :
    TurnTends self fresh data (work.answer request result) :=
  (hTends.map _ rfl).turn false .finish

theorem Work.Tends.armTimer_answer (hTends : work.Tends data) (project : String) (request : Nat)
    (result : UpdateResult) :
    TurnTends self work.fresh data ((work.armTimer project).answer request result) where
  kept := by
    intro other id hKept
    rcases hTends.kept other id hKept with hStill | hDropped
    · by_cases hSame : other = project
      · refine Or.inr (Or.inl (List.mem_append_right _ ?_))
        exact (Timers.mem_stale_iff _ _ _).mpr (hSame ▸ hStill)
      · refine Or.inl ?_
        change (work.state.timers.arm project _).waiting.get? other = some id
        rw [Timers.get?_arm, if_neg hSame]
        exact hStill
    · exact Or.inr (Or.inl (List.mem_append_left _ hDropped))
  begun := by
    intro index stage other hStage hQuiet
    change (work.spawned ++ [Stage.timer project])[index]? = some stage at hStage
    change (work.state.timers.arm project (work.fresh + work.spawned.length)).waiting.get? other =
      some (work.fresh + index)
    rw [List.getElem?_append] at hStage
    split at hStage
    · rw [hTends.begun stage (List.mem_of_getElem? hStage)] at hQuiet
      cases hQuiet
    · -- Only the task that is begun last waits for a quiet period.
      obtain ⟨hIndex, hTimer⟩ := List.getElem?_eq_some_iff.mp hStage
      rw [List.length_singleton] at hIndex
      simp only [List.getElem_singleton] at hTimer
      subst hTimer
      cases hQuiet
      rw [Timers.get?_arm, if_pos rfl]
      congr 2
      omega

theorem decide_tends (options : CoordinatorOptions) (hTends : work.Tends data) (change : Change)
    (info : ProjectInfo) (request : Nat) (result : UpdateResult) :
    TurnTends self work.fresh data ((decide options work change info).answer request result) := by
  have hRecorded : (work.record change).Tends data := hTends.map _ rfl
  unfold decide
  dsimp only
  split
  · split
    · exact hTends.armTimer_answer _ request result
    · exact hTends.answer request result
  · split
    · split
      · exact (hRecorded.trigger info false).answer request result
      · split
        · exact (hRecorded.trigger info true).answer request result
        · exact hRecorded.answer request result
    · exact hRecorded.armTimer_answer _ request result

theorem elapse_tends (project : String) (lookup : Lookup) :
    TurnTends self fresh data
      (elapse { state := data, fresh := fresh } self project lookup).finish := by
  have hStart : Work.Tends data { state := data, fresh := fresh } := Work.tends_start fresh
  unfold elapse
  cases hClaim : data.timers.claim? project self with
  | none => exact hStart.turn false .finish
  | some timers =>
      obtain ⟨hSelf, hTimers⟩ := (Timers.claim?_eq_some_iff _ _ _ _).mp hClaim
      let claimed : Work :=
        { state := { data with timers := timers }, fresh := fresh }
      -- The one timer that is forgotten belongs to the task that ends with this turn.
      have hForgets {later : Work} (hLater : later.Tends claimed.state) :
          TurnTends self fresh data later.finish := by
        have hEnds : TurnTends self fresh claimed.state later.finish := hLater.turn false .finish
        refine ⟨?_, hEnds.begun⟩
        intro other id hKept
        by_cases hSame : other = project
        · subst hSame
          rw [hSelf] at hKept
          exact Or.inr (Or.inr ⟨(Option.some.inj hKept).symm, rfl⟩)
        · refine (hLater.kept other id ?_).imp_right Or.inl
          change timers.waiting.get? other = some id
          rw [hTimers, Timers.get?_cancel, if_neg hSame]
          exact hKept
      have hClaimed : claimed.Tends claimed.state := Work.tends_start fresh
      cases lookup with
      | found info => exact hForgets (hClaimed.trigger info true)
      | failed error => exact hForgets hClaimed
      | panicked => exact hForgets hClaimed

end

theorem proceed_tends {data : CoordinatorState} {work : Work} (options : CoordinatorOptions)
    (self fresh : Nat) (hTends : work.Tends data) (release : Bool) (change : Change)
    (info : ProjectInfo) :
    TurnTends self fresh data (proceed options work release change info) := by
  unfold proceed
  split
  · exact hTends.turn release _
  · exact hTends.turn release _

theorem withProject_tends {data : CoordinatorState} {work : Work} (self fresh : Nat)
    (hTends : work.Tends data) (request : Nat) (project : String) (lookup : Lookup)
    {next : ProjectInfo → CoordinatorTurn} (hNext : ∀ info, TurnTends self fresh data (next info)) :
    TurnTends self fresh data (withProject work request project lookup next) := by
  cases lookup with
  | found info => exact hNext info
  | failed error => exact hTends.answer request _
  | panicked => exact hTends.answer request _

theorem resume_tends (options : CoordinatorOptions) (self fresh : Nat) (stage : Stage)
    (answer? : Option Answer) (data : CoordinatorState) :
    TurnTends self fresh data (resume options self fresh stage answer? data) := by
  have hStart : Work.Tends data { state := data, fresh := fresh } := Work.tends_start fresh
  cases stage with
  | updateFound project =>
      refine withProject_tends self fresh hStart self project _ ?_
      intro info
      unfold updateWith
      split
      · exact hStart.turn false _
      · exact (hStart.map _ rfl).answer self _
  | updateLocked project info => exact (hStart.startUpdate project info).answer self _
  | changeFound change =>
      exact withProject_tends self fresh hStart self change.project _ fun _ => hStart.turn false _
  | changeTimer change info =>
      have hCancelled := hStart.cancelTimer change.project
      simp only [resume]
      unfold afterCancel
      split
      · exact hCancelled.turn true _
      · exact proceed_tends options self fresh hCancelled true change info
  | changeLoaded change info =>
      simp only [resume]
      unfold afterLoad
      split
      · split
        · exact (hStart.map _ rfl).turn false _
        · exact proceed_tends options self fresh hStart false change info
      · exact proceed_tends options self fresh hStart false change info
  | changeApplied change info =>
      simp only [resume]
      split
      · exact hStart.turn false _
      · exact proceed_tends options self fresh hStart false change info
      · exact hStart.answer self _
  | changeRefreshed change =>
      exact withProject_tends self fresh hStart self change.project _
        fun info => proceed_tends options self fresh hStart false change info
  | changeBuffer change info => exact (hStart.map _ rfl).turn true _
  | changeLocked change info => exact decide_tends options hStart change info self _
  | timerFound project =>
      simp only [resume]
      split
      · exact hStart.turn false _
      · exact hStart.turn false _
  | timerLocked project lookup => exact elapse_tends project lookup
  | build info changes => exact ((hStart.map _ rfl).map _ rfl).turn false _
  | buildEnded project =>
      simp only [resume]
      unfold endBuild
      dsimp only
      split
      · exact (hStart.map _ rfl).turn false _
      · exact (hStart.map _ rfl).turn false _
  | followUpFound project followUp =>
      simp only [resume]
      unfold followUpWith abandon
      split
      · split
        · exact hStart.turn false _
        · exact ((hStart.map _ rfl).map _ rfl).turn false _
      · exact (hStart.map _ rfl).turn false _
      · exact hStart.turn false _
  | followUpLocked project info followUp =>
      exact (((hStart.map _ rfl).map _ rfl).map _ rfl).turn true _
  | _ => exact hStart.turn false _

/-! ### Runs -/

variable {circumstances : Circumstances} {options : CoordinatorOptions}
variable {system : CoordinatorSystem}

theorem Tended.applyTurn (hTended : Tended system) {task : Task Stage Query}
    (hTask : task ∈ system.tasks) {turn : CoordinatorTurn}
    (hSound : TurnSound circumstances options system.nextId task.stage system.data turn)
    (hTurn : TurnTends task.id system.nextId system.data turn) :
    Tended (system.applyTurn task.id turn) := by
  intro other hOther project hQuiet
  rw [System.applyTurn_data]
  rcases System.mem_applyTurn_tasks hOther with ⟨hOld, hDistinct, hStays⟩ | ⟨hSelf, hNext, _⟩ |
    ⟨_, index, hStage, hId⟩
  · rcases hTurn.kept project other.id (hTended other hOld project hQuiet) with hKept | hDropped |
      ⟨hSame, _⟩
    · exact hKept
    · exact absurd hDropped hStays
    · exact absurd hSame hDistinct
  · -- A task that goes on waiting for its quiet period drops nothing, itself included.
    have hBefore : task.stage.quiet? = some project := by
      rw [← (hSound.next _ hNext).2.2]
      exact hQuiet
    rw [hSelf]
    rcases hTurn.kept project task.id (hTended task hTask project hBefore) with hKept | hDropped |
      ⟨_, hEnds⟩
    · exact hKept
    · rcases hSound.keeps (by rw [hBefore]; rfl) with hGone | hNone
      · rw [hNext] at hGone
        cases hGone
      · rw [hNone] at hDropped
        cases hDropped
    · rw [hEnds] at hNext
      cases hNext
  · rw [hId]
    exact hTurn.begun index other.stage project hStage hQuiet

theorem Tended.shutdown (hTended : Tended system) :
    Tended (Coordinator.shutdown { options := options, system := system }).system := by
  intro task hTask project hQuiet
  unfold Coordinator.shutdown at hTask
  dsimp only at hTask
  rw [System.foldl_remove_tasks] at hTask
  obtain ⟨hOld, hStays⟩ := List.mem_filter.mp hTask
  have hKept : task.id ∈ system.data.timers.all :=
    Timers.mem_all_of_kept (hTended task hOld project hQuiet)
  simp [hKept] at hStays

theorem Sound.tended_happen (hSound : Sound circumstances options system)
    (hTended : Tended system) {event : Event} (hWithin : event.Within circumstances) :
    Tended (Coordinator.happen options system event) := by
  have hCall (call? : Option Call) : Tended (Coordinator.takeCall system call?) := by
    cases call? with
    | none => exact hTended
    | some call =>
        intro task hTask project hQuiet
        rcases List.mem_append.mp hTask with hOld | hNew
        · exact hTended task hOld project hQuiet
        · rw [List.mem_singleton.mp hNew] at hQuiet
          cases call <;> cases hQuiet
  cases event with
  | update project => exact hCall _
  | notify notification => exact hCall _
  | shutdown => exact hTended.shutdown
  | pass duration => exact hTended
  | reorder ready => exact hTended
  | poll id surrounding =>
      simp only [Coordinator.happen]
      rcases hSound.poll_cases hWithin with ⟨locks, hPoll, _⟩ |
        ⟨locks, task, answer?, _, hTask, _, _, _, hTurn, hPoll⟩
      · rw [hPoll]
        exact hTended
      · have hLocked : Tended { system with locks := locks } := hTended
        rw [hPoll]
        exact hLocked.applyTurn hTask hTurn
          (resume_tends options task.id system.nextId task.stage answer? system.data)

/-- In every run the tasks that wait for quiet periods are those kept as timers. -/
theorem Run.tended (options : CoordinatorOptions) (events : List Event)
    (hEvents : ∀ event ∈ events, event.Within circumstances) :
    Tended (Run.after options events).system := by
  have hRun : Sound circumstances options (Run.after options events).system ∧
      Tended (Run.after options events).system := by
    refine Run.after_induction (motive := fun run => Sound circumstances options run.system ∧
      Tended run.system) ?_ ?_ events hEvents
    · exact ⟨sound_start circumstances options, List.forall_mem_nil _⟩
    · rintro run event ⟨hSound, hTended⟩ hWithin
      exact ⟨hSound.happen hWithin, hSound.tended_happen hTended hWithin⟩
  exact hRun.2

end Coordinator

end BuildWatch
