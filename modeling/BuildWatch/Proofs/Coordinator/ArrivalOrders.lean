import BuildWatch.Proofs.Coordinator.OneBatch
import BuildWatch.Proofs.Coordinator.Succession

/-!
The chunks of one batch in any order.  When they come one after the other, each before the
quiet period is over that the one before has begun, what becomes of the batch does not depend
on their order, unless chunks without any event come among chunks of nothing but settings: a
build of nothing is dispatched then if the last chunk to come is one of the former.
-/

namespace BuildWatch

open BuildWatch.Tasks

namespace Coordinator

variable {options : CoordinatorOptions} {project : String}
variable {timestamp : UInt64} {total : Nat}

/-! ### The decision that comes to nothing -/

/-- What happens when a chunk that touches nothing but settings is counted as the last one,
while no changes wait. -/
structure Intake.Keeps (project : String) (chunk : Change) (intake after : Intake) : Prop where
  taking : ∃ before later, intake.taking = before ++ chunk :: later ∧ after.taking = before ++ later
  countdowns : after.countdowns = []
  toPour : after.toPour = intake.toPour
  timer : after.view.timer = intake.view.timer
  changes : after.view.changes = intake.view.changes
  build : after.view.build = intake.view.build
  dispatched : after.view.dispatched project = intake.view.dispatched project

theorem decide_keeps (work : Work) {chunk : Change} (info : ProjectInfo)
    (hSeveral : 2 ≤ chunk.chunkTotal.toNat) (hSettings : isSettingsOnly options chunk = true)
    (hArrived : Batches.arrive chunk.timestamp chunk.chunkTotal.toNat
      (work.state.batches.progress chunk.project) = [])
    (hChanges : work.state.changes chunk.project = []) :
    decide options work chunk info = work.record chunk := by
  have hLone : ¬ chunk.chunkTotal.toNat ≤ 1 := by omega
  have hProgress : (work.record chunk).state.batches.progress chunk.project = [] := by
    rw [← hArrived]
    exact (Batches.progress_record _ _ _ _ _).trans (if_pos rfl)
  have hComplete := (Batches.isComplete_status_iff (work.record chunk).state.batches chunk.project
    chunk.timestamp chunk.chunkTotal.toNat (fun hSingle => absurd hSingle hLone)).mpr hProgress
  have hNone : (work.record chunk).state.hasChanges chunk.project = false :=
    (CoordinatorState.hasChanges_eq_false_iff _ _).mpr hChanges
  unfold decide
  dsimp only
  rw [hSettings, if_neg (by simpa using hLone), if_pos hComplete, hNone]
  rfl

theorem resume_keeps (self fresh : Nat) (earlier later : List Stage) (answer? : Option Answer)
    (data : CoordinatorState) {chunk : Change} (info : ProjectInfo)
    (hProject : chunk.project = project) (hSeveral : 2 ≤ chunk.chunkTotal.toNat)
    (hSettings : isSettingsOnly options chunk = true)
    (hArrived : Batches.arrive chunk.timestamp chunk.chunkTotal.toNat
      (data.batches.progress project) = [])
    (hChanges : data.changes project = []) :
    Intake.Keeps project chunk
      (Intake.of options project (earlier ++ .changeLocked chunk info :: later) data)
      (turnIntake options project earlier later
        (resume options self fresh (.changeLocked chunk info) answer? data)) := by
  have hTakes : Stage.taking? project (.changeLocked chunk info) = some chunk :=
    Stage.taking?_of_change? rfl hProject
  have hCountdowns : (data.batches.record chunk.project chunk.timestamp
      chunk.chunkTotal.toNat).progress project = [] := by
    rw [Batches.progress_record, if_pos hProject.symm, hProject]
    exact hArrived
  simp only [resume]
  rw [decide_keeps { state := data, fresh := fresh } info hSeveral hSettings (hProject ▸ hArrived)
    (hProject ▸ hChanges), answer_intake self _ hTakes rfl (List.forall_mem_nil _)]
  constructor
  · refine ⟨earlier.filterMap (Stage.taking? project), later.filterMap (Stage.taking? project),
      ?_, rfl⟩
    simp [Intake.of, hTakes]
  · exact hCountdowns
  · rfl
  · rfl
  · rfl
  · rfl
  · simp [View.dispatched, handedOver_tell, Notice.handed?, Work.view, Work.record, Work.map,
      Intake.of, View.of]

/-! ### Quiet periods that chunks have ended -/

def Stage.beforeCancel : Stage → Bool
  | .change _ => true
  | .changeFound _ => true
  | .changeTimer _ _ => true
  | _ => false

/-- While a quiet period runs, every request for a chunk has yet to end it. -/
def Cancelled (project : String) (system : CoordinatorSystem) : Prop :=
  system.data.timers.isPending project = true → ∀ task ∈ system.tasks, ∀ chunk,
    task.stage.change? = some chunk → chunk.project = project → task.stage.beforeCancel = true

theorem resume_beforeCancel (options : CoordinatorOptions) (self fresh : Nat) {stage : Stage}
    (answer? : Option Answer) (data : CoordinatorState) (hBefore : stage.beforeCancel = true)
    {later : Stage}
    (hNext : (resume options self fresh stage answer? data).next.stage? = some later) :
    later.beforeCancel = true ∨
      (resume options self fresh stage answer? data).data.timers.isPending stage.project =
        false := by
  cases stage with
  | change chunk =>
      cases hNext
      exact Or.inl rfl
  | changeFound chunk =>
      simp only [resume] at hNext
      unfold withProject at hNext
      split at hNext
      · cases hNext
        exact Or.inl rfl
      · cases hNext
      · cases hNext
  | changeTimer chunk info =>
      have hEnded : (data.timers.cancel chunk.project).isPending chunk.project = false :=
        (Timers.isPending_cancel _ _ _).trans (if_pos rfl)
      refine Or.inr ?_
      simp only [resume]
      unfold afterCancel
      split
      · exact hEnded
      · unfold proceed
        split
        · exact hEnded
        · exact hEnded
  | _ => cases hBefore

theorem cancelled_takeCall {system : CoordinatorSystem} (hCancelled : Cancelled project system)
    (call? : Option Call) : Cancelled project (takeCall system call?) := by
  cases call? with
  | none => exact hCancelled
  | some call =>
      intro hPending task hTask chunk hChange hProject
      rcases List.mem_append.mp hTask with hOld | hNew
      · exact hCancelled hPending task hOld chunk hChange hProject
      · rw [List.mem_singleton.mp hNew] at hChange ⊢
        cases call with
        | update asked => cases hChange
        | notify change => rfl

/-- A chunk ends the quiet period of its project, which begins again only when it is counted. -/
theorem Sound.cancelled_happen {system : CoordinatorSystem}
    (hSound : Sound (.dependable project) options system)
    (hCancelled : Cancelled project system) {event : Event}
    (hWithin : event.Within (.dependable project))
    (hTimer : (Coordinator.happen options system event).data.timers.isPending project = true →
      system.data.timers.isPending project = true) :
    Cancelled project (Coordinator.happen options system event) := by
  cases event with
  | update asked => exact cancelled_takeCall hCancelled _
  | notify notification => exact cancelled_takeCall hCancelled _
  | shutdown => exact hWithin.elim
  | pass duration => exact hCancelled
  | reorder ready => exact hCancelled
  | poll id surrounding =>
      intro hPending
      have hBefore := hCancelled (hTimer hPending)
      simp only [Coordinator.happen] at hPending ⊢
      rcases hSound.poll_cases hWithin with ⟨locks, hPoll, _⟩ |
        ⟨locks, task, answer?, _, hTask, _, hReplies, _, hTurn, hPoll⟩
      · rw [hPoll]
        exact hBefore
      · rw [hPoll, System.applyTurn_data] at hPending
        rw [hPoll]
        intro other hOther chunk hChange hProject
        rcases System.mem_applyTurn_tasks hOther with ⟨hOld, _⟩ | ⟨_, hNext, _⟩ |
          ⟨_, index, hNew, _⟩
        · exact hBefore other hOld chunk hChange hProject
        · -- The request goes on with the same chunk.
          have hCall := resume_call? task.id system.nextId system.data (hSound.awaits task hTask)
            hReplies hNext
          rw [Stage.call?_of_change? hChange] at hCall
          have hSame := Stage.change?_of_call? hCall.symm
          rcases resume_beforeCancel options task.id system.nextId answer? system.data
            (hBefore task hTask chunk hSame hProject) hNext with hEarly | hEnded
          · exact hEarly
          · rw [Stage.project_of_change? hSame, hProject] at hEnded
            rw [hPending] at hEnded
            cases hEnded
        · have hNoCall := (hTurn.spawned _ (List.mem_of_getElem? hNew)).2.2
          rw [Stage.call?_of_change? hChange] at hNoCall
          cases hNoCall

/-! ### A batch on its way -/

/-- Some chunks of a batch have come in turn, of which not all are counted. -/
structure Run.Awaits (options : CoordinatorOptions) (project : String) (timestamp : UInt64)
    (total : Nat) (run start : Run) (called : List Change) : Prop where
  receives : run.Receives options project
  gathering : Gathering options project timestamp total (start.intake options project)
    (run.intake options project) called
  single : (run.intake options project).taking.length ≤ 1
  build : run.state.builds.state project = start.state.builds.state project
  cancelled : Cancelled project run.system

/-- Whether a build comes of a batch: there is something to build, or the chunk that is counted
last has no settings. -/
def Builds (options : CoordinatorOptions) (chunks : List Change) (last : Change) : Prop :=
  (∃ chunk ∈ chunks, buildEvents options chunk ≠ []) ∨ touchesSettings options last = false

/-- All chunks of a batch are counted, and a build has taken all they had to build, if one comes
of the batch. -/
structure Run.Concludes (options : CoordinatorOptions) (project : String) (run start : Run)
    (called : List Change) (last : Change) : Prop where
  among : last ∈ called
  calm : run.Calm project
  changes : run.state.changes project = []
  outstanding : run.state.batches.outstanding project = 0
  timer : run.state.timers.isPending project = false
  builds : Builds options called last → ∃ changes,
    changes.Perm (called.flatMap (buildEvents options)) ∧
      dispatched project run = dispatched project start ++ [some changes] ∧
        run.state.builds.state project = (start.state.builds.state project).begin false
  keeps : ¬ Builds options called last →
    dispatched project run = dispatched project start ∧
      run.state.builds.state project = start.state.builds.state project

theorem flatten_pourable (options : CoordinatorOptions) (chunks : List Change) :
    (chunks.filterMap (pourable? options)).flatten = chunks.flatMap (buildEvents options) := by
  induction chunks with
  | nil => rfl
  | cons chunk rest ih =>
      have hOwn := flatten_pourable? options chunk
      rw [List.flatMap_cons, ← hOwn, ← ih]
      cases hPours : pourable? options chunk <;> simp [hPours]

theorem Intake.Passes.build_eq {circumstances : Circumstances} {intake after : Intake}
    (hPasses : intake.Passes circumstances project after) (hOne : intake.view.OneBuild)
    (hIdle : intake.view.build.inProgress = false) : after.view.build = intake.view.build := by
  cases hPasses with
  | apart told hApart =>
      unfold Intake.tell
      rw [View.foldl_tell]
  | cancel => rfl
  | pour request changes before later hToPour => rfl
  | build view hAdvance =>
      have hNone := hOne.idle_phases hIdle
      cases hAdvance with
      | start changes operation hPhase hProject => cases hNone.symm.trans hPhase
      | finish result hPhase => cases hNone.symm.trans hPhase
      | find followUp hPhase => cases hNone.symm.trans hPhase
      | skip followUp hPhase hOff => cases hNone.symm.trans hPhase
      | abandon followUp hPhase hFail => cases hNone.symm.trans hPhase
      | vanish followUp hPhase hPanic => cases hNone.symm.trans hPhase
      | follow followUp operation hPhase hProject => cases hNone.symm.trans hPhase

theorem Gathering.changes_perm {first intake : Intake} {called : List Change}
    (hGathering : Gathering options project timestamp total first intake called)
    (hNothing : intake.toPour = []) :
    intake.view.changes.Perm (called.flatMap (buildEvents options)) := by
  obtain ⟨entries, _, hChanges, hPoured⟩ := hGathering.poured
  rw [hNothing, List.append_nil] at hPoured
  rw [hChanges, ← flatten_pourable]
  exact hPoured.flatten

/-- If nothing is left to be put into the buffer, a chunk that touches more than settings, or
one that finds changes there, is one of a batch that has something to build. -/
theorem Gathering.builds {first intake : Intake} {called : List Change} {chunk : Change}
    (hGathering : Gathering options project timestamp total first intake called)
    (hChunk : chunk ∈ intake.taking) (hNothing : intake.toPour = [])
    (hSome : ¬ (isSettingsOnly options chunk = true ∧ intake.view.changes = [])) :
    Builds options called chunk := by
  by_contra hNoBuild
  obtain ⟨hBlank, hTouches⟩ := not_or.mp hNoBuild
  push Not at hBlank
  have hChanges := hGathering.changes_perm hNothing
  rw [List.flatMap_eq_nil_iff.mpr hBlank] at hChanges
  refine hSome ⟨?_, hChanges.eq_nil⟩
  rw [isSettingsOnly, hBlank chunk (hGathering.among chunk hChunk)]
  simpa using hTouches

theorem Intake.Counts.build_eq {chunk : Change} {request : Nat} {intake after : Intake}
    (hCounts : intake.Counts project chunk request after) :
    after.view.build =
      if after.countdowns = [] then intake.view.build.begin false else intake.view.build := by
  cases hCounts with
  | wait before later hTaking hArrived => exact (if_neg hArrived).symm
  | dispatch before later hTaking hArrived => exact (if_pos rfl).symm

namespace Run.Awaits

variable {run start : Run} {called : List Change} {event : Event}
variable (hAwaits : run.Awaits options project timestamp total start called)
variable (hWithin : event.Within (.dependable project))
variable (hNoUpdate : event.call? ≠ some (.update project))
variable (hNotOver : ¬ Elapsed project run.system)

include hAwaits hWithin hNoUpdate hNotOver

theorem come {chunk : Change} (hChunk : event.chunk? project = some chunk)
    (hCalm : run.Calm project) :
    (run.step options event).Awaits options project timestamp total start (called ++ [chunk]) := by
  have hNone := hAwaits.receives.calm_iff.mp hCalm
  have hCome : (run.step options event).intake options project =
      (run.intake options project).come options chunk := Run.intake_step_come run hChunk
  have hTimer : (run.step options event).system.data.timers.isPending project =
      run.system.data.timers.isPending project :=
    congrArg (fun intake : Intake => intake.view.timer) hCome
  constructor
  · exact hAwaits.receives.step hWithin hNoUpdate hNotOver
  · rw [hCome]
    exact hAwaits.gathering.come chunk
  · rw [hCome]
    simp [Intake.come, hNone]
  · rw [← hAwaits.build]
    exact congrArg (fun intake : Intake => intake.view.build) hCome
  · apply hAwaits.receives.sound.cancelled_happen hAwaits.cancelled hWithin
    intro hPending
    rw [← hTimer]
    exact hPending

theorem passes (hPasses : Intake.Passes (.dependable project) project (run.intake options project)
      ((run.step options event).intake options project)) :
    (run.step options event).Awaits options project timestamp total start called := by
  obtain ⟨poured, hPassesBy⟩ :=
    hPasses.passesBy hAwaits.gathering.unasked hAwaits.receives.one
  constructor
  · exact hAwaits.receives.step hWithin hNoUpdate hNotOver
  · exact hAwaits.gathering.passes hPassesBy
  · rw [hPassesBy.taking]
    exact hAwaits.single
  · rw [← hAwaits.build]
    exact hPasses.build_eq hAwaits.receives.one hAwaits.gathering.idle
  · exact hAwaits.receives.sound.cancelled_happen hAwaits.cancelled hWithin hPassesBy.timer

theorem counts {chunk : Change} {request : Nat}
    (hCounts : Intake.Counts project chunk request (run.intake options project)
      ((run.step options event).intake options project))
    (hCalled : ∀ other ∈ called, other.timestamp = timestamp ∧ other.chunkTotal.toNat = total)
    (hEnough : called.length ≤ total)
    (hBuilds : called.length = total →
      (run.intake options project).toPour = [] → Builds options called chunk) :
    (run.step options event).Awaits options project timestamp total start called ∨
      (called.length = total ∧ ¬ run.Calm project ∧
        (run.step options event).Concludes options project start called chunk) := by
  have hChunk := hCounts.mem_taking
  have hAlone := eq_singleton_of_mem hAwaits.single hChunk
  have hAmong := hAwaits.gathering.among chunk hChunk
  have hCounted := hCounts.counted hAwaits.gathering.unasked hAwaits.gathering.idle
  have hNone := eq_nil_of_split hAlone hCounted.taking
  have hBusy : ¬ run.Calm project := by
    rw [hAwaits.receives.calm_iff, hAlone]
    exact List.cons_ne_nil _ _
  have hNext := hAwaits.receives.step hWithin hNoUpdate hNotOver
  have hBuild := hCounts.build_eq
  change (run.step options event).state.builds.state project = _ at hBuild
  rcases hAwaits.gathering.counts hCounted (hCalled chunk hAmong) hEnough Run.toPour_eq_nil with
    hGathering | ⟨hAll, entries, hGathered, _⟩
  · refine Or.inl ⟨hNext, hGathering, by simp [hNone], ?_, ?_⟩
    · rw [hBuild, ← hAwaits.build]
      apply if_neg
      intro hDispatched
      have hIdle : ((run.step options event).state.builds.state project).inProgress = false :=
        hGathering.idle
      rw [hBuild, if_pos hDispatched, BuildState.begin,
        if_neg (Bool.not_eq_true _ ▸ hAwaits.gathering.idle)] at hIdle
      cases hIdle
    · intro _ task hTask other hChange hProject
      have hMember : other ∈ ((run.step options event).intake options project).taking :=
        Run.Receives.mem_taking hTask hChange hProject
      rw [hNone] at hMember
      cases hMember
  · have hNothing : (run.intake options project).toPour = [] :=
      hCounted.toPour.symm.trans hGathered.toPour
    have hSome := hBuilds hAll hNothing
    rw [if_pos hGathered.countdowns] at hBuild
    refine Or.inr ⟨hAll, hBusy, ?_⟩
    constructor
    · exact hAmong
    · exact hNext.calm_iff.mpr hNone
    · exact hGathered.changes
    · exact List.length_eq_zero_iff.mpr hGathered.countdowns
    · exact hGathered.timer
    · intro _
      refine ⟨(entries.map Prod.snd).flatten, ?_, ?_, ?_⟩
      · rw [← flatten_pourable]
        exact hGathered.poured.flatten
      · rw [dispatched_eq, dispatched_eq]
        exact hGathered.dispatched
      · rw [hBuild, ← hAwaits.build]
        rfl
    · intro hNoBuild
      exact absurd hSome hNoBuild

/-- A chunk that touches nothing but settings and is counted as the last one begins no build if
no chunk of its batch has anything to build. -/
theorem keeps {chunk : Change} (hKeeps : Intake.Keeps project chunk (run.intake options project)
      ((run.step options event).intake options project))
    (hSettings : isSettingsOnly options chunk = true)
    (hChanges : (run.intake options project).view.changes = [])
    (hQuiet : (run.intake options project).view.timer = false) :
    ¬ run.Calm project ∧
      (run.step options event).Concludes options project start called chunk := by
  have hChunk : chunk ∈ (run.intake options project).taking := by
    obtain ⟨before, later, hTaking, _⟩ := hKeeps.taking
    rw [hTaking]
    exact List.mem_append_right _ List.mem_cons_self
  have hAlone := eq_singleton_of_mem hAwaits.single hChunk
  have hNone := eq_nil_of_split hAlone hKeeps.taking
  have hNext := hAwaits.receives.step hWithin hNoUpdate hNotOver
  have hNothing : (run.intake options project).toPour = [] := by
    rw [← hKeeps.toPour]
    exact Run.toPour_eq_nil hNone
  have hBlank : called.flatMap (buildEvents options) = [] := by
    have hPerm := hAwaits.gathering.changes_perm hNothing
    rw [hChanges] at hPerm
    exact hPerm.nil_eq.symm
  constructor
  · rw [hAwaits.receives.calm_iff, hAlone]
    exact List.cons_ne_nil _ _
  · constructor
    · exact hAwaits.gathering.among chunk hChunk
    · exact hNext.calm_iff.mpr hNone
    · exact hKeeps.changes.trans hChanges
    · exact List.length_eq_zero_iff.mpr hKeeps.countdowns
    · exact hKeeps.timer.trans hQuiet
    · intro hBuilds
      rcases hBuilds with ⟨other, hOther, hSome⟩ | hUntouched
      · exact absurd (List.flatMap_eq_nil_iff.mp hBlank other hOther) hSome
      · rw [(Bool.and_eq_true_iff.mp hSettings).1] at hUntouched
        cases hUntouched
    · intro _
      constructor
      · rw [dispatched_eq, dispatched_eq]
        exact hKeeps.dispatched.trans hAwaits.gathering.dispatched
      · rw [← hAwaits.build]
        exact hKeeps.build

theorem keeps_turn {locks : Locks} {task : Task Stage Query} {answer? : Option Answer}
    {chunk : Change}
    (hLocked : Sound (.dependable project) options { run.system with locks := locks })
    (hTask : task ∈ run.system.tasks) (hReplies : Replies (.dependable project) task.wait answer?)
    (hChange : task.stage.change? = some chunk) (hProject : chunk.project = project)
    (hPoured : task.stage.isPoured = true)
    (hSystem : (run.step options event).intake options project = intakeOf options project
      (({ run.system with locks := locks } : CoordinatorSystem).applyTurn task.id
        (resume options task.id run.system.nextId task.stage answer? run.system.data)))
    (hSeveral : 2 ≤ chunk.chunkTotal.toNat)
    (hArrived : Batches.arrive chunk.timestamp chunk.chunkTotal.toNat
      (run.intake options project).countdowns = [])
    (hSettings : isSettingsOnly options chunk = true)
    (hChanges : (run.intake options project).view.changes = []) :
    ¬ run.Calm project ∧
      (run.step options event).Concludes options project start called chunk := by
  obtain ⟨earlier, later, hTasks⟩ := List.append_of_mem hTask
  obtain ⟨info, hStage, _, _⟩ := hLocked.exists_info hTask hChange hProject hPoured
  obtain ⟨hBefore, hAfter⟩ := hLocked.intake_resume hTask hReplies hTasks
  have hKeeps := resume_keeps task.id run.system.nextId (earlier.map Task.stage)
    (later.map Task.stage) answer? run.system.data info hProject hSeveral hSettings hArrived
    hChanges
  rw [← hStage, ← hAfter, ← hBefore, ← hSystem] at hKeeps
  have hQuiet : (run.intake options project).view.timer = false := by
    by_contra hTimer
    have hPending : run.system.data.timers.isPending project = true :=
      (Bool.not_eq_false _).mp hTimer
    have hEarly := hAwaits.cancelled hPending task hTask chunk hChange hProject
    rw [hStage] at hEarly
    cases hEarly
  exact hAwaits.keeps hWithin hNoUpdate hNotOver hKeeps hSettings hChanges hQuiet

/-- The last chunk that is counted concludes the batch, and every other event leaves it on its
way. -/
theorem step (hSeveral : 2 ≤ total)
    (hCalled : ∀ other ∈ called, other.timestamp = timestamp ∧ other.chunkTotal.toNat = total)
    (hEnough : called.length ≤ total)
    (hFree : (event.chunk? project).isSome = true → run.Calm project) :
    (run.step options event).Awaits options project timestamp total start
        (called ++ (event.chunk? project).toList) ∨
      (event.chunk? project = none ∧ called.length = total ∧ ¬ run.Calm project ∧
        ∃ last, (run.step options event).Concludes options project start called last) := by
  cases hChunk : event.chunk? project with
  | some chunk =>
      exact Or.inl (hAwaits.come hWithin hNoUpdate hNotOver hChunk (hFree (by rw [hChunk]; rfl)))
  | none =>
      rw [Option.toList_none, List.append_nil]
      rcases hAwaits.receives.step_turn hWithin hChunk hNoUpdate hNotOver with hPasses |
        ⟨locks, task, answer?, chunk, hLocked, hTask, hReplies, hChange, hProject, hPoured, hNext⟩
      · exact Or.inl (hAwaits.passes hWithin hNoUpdate hNotOver hPasses)
      · have hMember : chunk ∈ (run.intake options project).taking :=
          Run.Receives.mem_taking hTask hChange hProject
        obtain ⟨hTimestamp, hTotal⟩ := hCalled chunk (hAwaits.gathering.among chunk hMember)
        obtain ⟨counted, hFewer, hCount, hLeft⟩ := hAwaits.gathering.counted
        rw [eq_singleton_of_mem hAwaits.single hMember, List.length_singleton] at hCount
        have hArrived : Batches.arrive chunk.timestamp chunk.chunkTotal.toNat
            (run.intake options project).countdowns = [] ↔ called.length = total := by
          rw [hTimestamp, hTotal, hLeft, arrive_leftOf timestamp hFewer, leftOf_eq_nil_iff]
          omega
        have hSystem : (run.step options event).intake options project = intakeOf options project
            (({ run.system with locks := locks } : CoordinatorSystem).applyTurn task.id
              (resume options task.id run.system.nextId task.stage answer? run.system.data)) := by
          unfold Run.intake
          rw [hNext]
        by_cases hKept : called.length = total ∧ isSettingsOnly options chunk = true ∧
            (run.intake options project).view.changes = []
        · obtain ⟨hAll, hSettings, hChanges⟩ := hKept
          obtain ⟨hBusy, hConcludes⟩ := hAwaits.keeps_turn hWithin hNoUpdate hNotOver hLocked hTask
            hReplies hChange hProject hPoured hSystem (hTotal ▸ hSeveral) (hArrived.mpr hAll)
            hSettings hChanges
          exact Or.inr ⟨rfl, hAll, hBusy, chunk, hConcludes⟩
        · have hExpects : (run.intake options project).Expects options chunk := by
            constructor
            · intro hSingle
              omega
            · intro hSingle
              omega
            · intro hNone hSettings hChanges
              exact hKept ⟨hArrived.mp hNone, hSettings, hChanges⟩
          obtain ⟨hCounts, _⟩ := hLocked.chunk_counts hTask hReplies hChange hProject hPoured
            hExpects hAwaits.gathering.idle
          rw [← hSystem] at hCounts
          have hBuilds : called.length = total → (run.intake options project).toPour = [] →
              Builds options called chunk := by
            intro hAll hNothing
            exact hAwaits.gathering.builds hMember hNothing fun hKeeps => hKept ⟨hAll, hKeeps⟩
          rcases hAwaits.counts hWithin hNoUpdate hNotOver hCounts hCalled hEnough hBuilds with
            hOnItsWay | ⟨hAll, hBusy, hConcludes⟩
          · exact Or.inl hOnItsWay
          · exact Or.inr ⟨rfl, hAll, hBusy, chunk, hConcludes⟩

end Run.Awaits

/-! ### Runs that deliver a batch -/

/-- Some events bring all chunks of a batch to a project one after the other, and the last of
them takes in the last chunk.  No chunk comes after the quiet period is over that the one before
has begun, nothing else is asked for of the project, and its lookups and settings can be relied
on. -/
structure Run.Delivers (options : CoordinatorOptions) (project : String) (timestamp : UInt64)
    (total : Nat) (start : Run) (events : List Event) : Prop where
  within : ∀ event ∈ events, event.Within (.dependable project)
  alone : ∀ event ∈ events, event.call? ≠ some (.update project)
  free : ∀ before event after, events = before ++ event :: after →
    (event.chunk? project).isSome = true → (start.extend options before).Calm project
  quiet : ∀ before after, events = before ++ after →
    ¬ Elapsed project (start.extend options before).system
  alike : ∀ chunk ∈ chunksOf project events,
    chunk.timestamp = timestamp ∧ chunk.chunkTotal.toNat = total
  length : (chunksOf project events).length = total
  last : ∃ before event, events = before ++ [event] ∧
    ¬ (start.extend options before).Calm project ∧ (start.extend options events).Calm project

theorem Intake.Passes.taking_eq {circumstances : Circumstances} {intake after : Intake}
    (hPasses : intake.Passes circumstances project after) : after.taking = intake.taking := by
  cases hPasses with
  | apart told hApart => rfl
  | cancel => rfl
  | pour request changes before later hToPour => rfl
  | build view hAdvance => rfl

theorem Run.Receives.calm_step {run : Run} (hReceives : run.Receives options project)
    {event : Event} (hWithin : event.Within (.dependable project))
    (hNoChunk : event.chunk? project = none) (hNoUpdate : event.call? ≠ some (.update project))
    (hNotOver : ¬ Elapsed project run.system) (hCalm : run.Calm project) :
    (run.step options event).Calm project := by
  have hNone := hReceives.calm_iff.mp hCalm
  rcases hReceives.step_turn hWithin hNoChunk hNoUpdate hNotOver with hPasses |
    ⟨_, task, _, chunk, _, hTask, _, hChange, hProject, _, _⟩
  · rw [(hReceives.step hWithin hNoUpdate hNotOver).calm_iff, hPasses.taking_eq]
    exact hNone
  · have hMember : chunk ∈ (run.intake options project).taking :=
      Run.Receives.mem_taking hTask hChange hProject
    rw [hNone] at hMember
    cases hMember

namespace Run.Delivers

variable {start : Run} {events : List Event}
variable (hDelivers : start.Delivers options project timestamp total events)

include hDelivers

theorem length_le {before after : List Event} (hMoment : events = before ++ after) :
    (chunksOf project before).length + (chunksOf project after).length = total := by
  rw [← hDelivers.length, hMoment, chunksOf_append, List.length_append]

theorem alike_left {before after : List Event} (hMoment : events = before ++ after) :
    ∀ chunk ∈ chunksOf project before,
      chunk.timestamp = timestamp ∧ chunk.chunkTotal.toNat = total := by
  intro chunk hChunk
  apply hDelivers.alike
  rw [hMoment, chunksOf_append]
  exact List.mem_append_left _ hChunk

/-- At each moment the batch is on its way, or all its chunks have been taken in. -/
theorem along (hSeveral : 2 ≤ total)
    (hStart : start.Awaits options project timestamp total start [])
    {before after : List Event} (hMoment : events = before ++ after) :
    let run := start.extend options before
    run.Awaits options project timestamp total start (chunksOf project before) ∨
      (run.Receives options project ∧ run.Calm project ∧
        (chunksOf project before).length = total) := by
  induction before using List.reverseRecOn generalizing after with
  | nil => exact Or.inl hStart
  | append_singleton before event ih =>
      rw [List.append_assoc] at hMoment
      have hEvent : event ∈ events := by
        rw [hMoment]
        simp
      have hWithin := hDelivers.within event hEvent
      have hNoUpdate := hDelivers.alone event hEvent
      have hNotOver := hDelivers.quiet _ _ hMoment
      have hLength := hDelivers.length_le hMoment
      rw [chunksOf_append, chunksOf_singleton, List.length_append] at hLength
      rw [Run.extend_append, chunksOf_append, chunksOf_singleton]
      rcases ih hMoment with hAwaits | ⟨hReceives, hCalm, hAll⟩
      · rcases hAwaits.step hWithin hNoUpdate hNotOver hSeveral (hDelivers.alike_left hMoment)
          (by omega) (hDelivers.free _ _ _ hMoment) with hNext | ⟨hNone, hAll, _, last, hConcludes⟩
        · exact Or.inl hNext
        · refine Or.inr ⟨hAwaits.receives.step hWithin hNoUpdate hNotOver, hConcludes.calm, ?_⟩
          rw [hNone]
          simpa using hAll
      · have hNone : event.chunk? project = none := by
          cases hChunk : event.chunk? project with
          | none => rfl
          | some chunk =>
              rw [hChunk] at hLength
              simp only [Option.toList_some, List.length_singleton] at hLength
              omega
        refine Or.inr ⟨hReceives.step hWithin hNoUpdate hNotOver,
          hReceives.calm_step hWithin hNone hNoUpdate hNotOver hCalm, ?_⟩
        rw [hNone]
        simpa using hAll

theorem concludes (hSeveral : 2 ≤ total)
    (hStart : start.Awaits options project timestamp total start []) :
    ∃ last, (start.extend options events).Concludes options project start
      (chunksOf project events) last := by
  obtain ⟨before, event, hSplit, hBusy, hCalm⟩ := hDelivers.last
  have hEvent : event ∈ events := by
    rw [hSplit]
    simp
  have hLength := hDelivers.length_le hSplit
  have hAll := hDelivers.length
  rcases hDelivers.along hSeveral hStart hSplit with hAwaits | ⟨_, hDone, _⟩
  · have hStep := hAwaits.step (hDelivers.within event hEvent) (hDelivers.alone event hEvent)
      (hDelivers.quiet _ _ hSplit) hSeveral (hDelivers.alike_left hSplit) (by omega)
      (hDelivers.free before event [] hSplit)
    have hNext : (start.extend options before).step options event =
        start.extend options events := by
      rw [hSplit, Run.extend_append]
      rfl
    have hChunks : chunksOf project before ++ (event.chunk? project).toList =
        chunksOf project events := by
      rw [hSplit, chunksOf_append, chunksOf_singleton]
    rw [hNext, hChunks] at hStep
    rcases hStep with hOnItsWay | ⟨hNone, _, _, last, hConcludes⟩
    · -- Not all chunks would be counted then, and no request for one is left.
      obtain ⟨counted, hFewer, hCount, _⟩ := hOnItsWay.gathering.counted
      rw [hOnItsWay.receives.calm_iff.mp hCalm, List.length_nil] at hCount
      omega
    · rw [hNone, Option.toList_none, List.append_nil] at hChunks
      rw [hChunks] at hConcludes
      exact ⟨last, hConcludes⟩
  · exact absurd hDone hBusy

end Run.Delivers

theorem Run.AtRest.awaits {start : Run} (hRest : start.AtRest project)
    (hReceives : start.Receives options project) (hTotal : 0 < total) :
    start.Awaits options project timestamp total start [] := by
  have hNone := hReceives.calm_iff.mp hRest.calm
  constructor
  · exact hReceives
  · exact hRest.gathering hReceives hTotal
  · rw [hNone]
    exact Nat.zero_le 1
  · rfl
  · intro hPending
    have hTimer := hRest.timer
    change start.system.data.timers.isPending project = false at hTimer
    rw [hPending] at hTimer
    cases hTimer

/-- Whether a build comes of a batch depends on the chunk that is counted last only if chunks
without any event come among chunks of nothing but settings. -/
theorem builds_iff {chunks others : List Change} {last final : Change}
    (hOrder : chunks.Perm others) (hLast : last ∈ chunks) (hFinal : final ∈ others)
    (hUnmixed : (∃ chunk ∈ chunks, buildEvents options chunk ≠ []) ∨
      (∀ chunk ∈ chunks, chunk.events ≠ []) ∨ ∀ chunk ∈ chunks, chunk.events = []) :
    Builds options chunks last ↔ Builds options others final := by
  have hSame : (∃ chunk ∈ chunks, buildEvents options chunk ≠ []) ↔
      ∃ chunk ∈ others, buildEvents options chunk ≠ [] := by
    simp only [hOrder.mem_iff]
  by_cases hSome : ∃ chunk ∈ chunks, buildEvents options chunk ≠ []
  · exact iff_of_true (Or.inl hSome) (Or.inl (hSame.mp hSome))
  · have hFinalToo := hOrder.mem_iff.mpr hFinal
    rcases hUnmixed with hBuilds | hNoneEmpty | hAllEmpty
    · exact absurd hBuilds hSome
    · -- Every chunk touches nothing but settings.
      have hTouches : ∀ chunk ∈ chunks, touchesSettings options chunk = true := by
        intro chunk hChunk
        obtain ⟨event, hEvent⟩ := List.exists_mem_of_ne_nil _ (hNoneEmpty chunk hChunk)
        apply List.any_eq_true.mpr
        refine ⟨event, hEvent, ?_⟩
        by_contra hOther
        apply hSome
        refine ⟨chunk, hChunk, List.ne_nil_of_mem (List.mem_filter.mpr ⟨hEvent, ?_⟩)⟩
        simpa using hOther
      apply iff_of_false
      · intro hBuilds
        rcases hBuilds with hBuilds | hNo
        · exact hSome hBuilds
        · rw [hTouches last hLast] at hNo
          cases hNo
      · intro hBuilds
        rcases hBuilds with hBuilds | hNo
        · exact hSome (hSame.mpr hBuilds)
        · rw [hTouches final hFinalToo] at hNo
          cases hNo
    · have hUntouched : ∀ chunk ∈ chunks, touchesSettings options chunk = false := by
        intro chunk hChunk
        rw [touchesSettings, hAllEmpty chunk hChunk]
        rfl
      exact iff_of_true (Or.inr (hUntouched last hLast)) (Or.inr (hUntouched final hFinalToo))

/-- The order in which the chunks of a batch arrive does not matter.  From a project at rest on,
two runs that deliver the same chunks in any two orders end alike: a build has been dispatched in
both, of the same changes, or in neither; and the changes that wait, the batches on their way,
the quiet period and where the builds stand are the same.  The one exception is a batch with
nothing to build in which chunks without any event come among chunks of settings. -/
theorem arrival_order_does_not_matter (options : CoordinatorOptions) (earlier : List Event)
    (hEarlier : ∀ event ∈ earlier, event.Within .faithfulInfos) (project : String)
    (hRest : (Run.after options earlier).AtRest project) (timestamp : UInt64) (total : Nat)
    (hSeveral : 2 ≤ total) (first second : List Event)
    (hFirst : (Run.after options earlier).Delivers options project timestamp total first)
    (hSecond : (Run.after options earlier).Delivers options project timestamp total second)
    (hOrder : (chunksOf project first).Perm (chunksOf project second))
    (hUnmixed : (∃ chunk ∈ chunksOf project first, buildEvents options chunk ≠ []) ∨
      (∀ chunk ∈ chunksOf project first, chunk.events ≠ []) ∨
        ∀ chunk ∈ chunksOf project first, chunk.events = []) :
    let start := Run.after options earlier
    let run := start.extend options first
    let other := start.extend options second
    ((∃ changes others, changes.Perm others ∧
        changes.Perm ((chunksOf project first).flatMap (buildEvents options)) ∧
          dispatched project run = dispatched project start ++ [some changes] ∧
            dispatched project other = dispatched project start ++ [some others]) ∨
      (dispatched project run = dispatched project start ∧
        dispatched project other = dispatched project start)) ∧
      (run.state.changes project).Perm (other.state.changes project) ∧
        run.state.batches.outstanding project = other.state.batches.outstanding project ∧
          run.state.timers.isPending project = other.state.timers.isPending project ∧
            run.state.builds.state project = other.state.builds.state project := by
  intro start run other
  have hStart : start.Awaits options project timestamp total start [] :=
    hRest.awaits (hRest.receives hEarlier) (by omega)
  obtain ⟨last, hRun⟩ := hFirst.concludes hSeveral hStart
  obtain ⟨final, hOther⟩ := hSecond.concludes hSeveral hStart
  have hBoth := builds_iff hOrder hRun.among hOther.among hUnmixed
  have hSame : (run.state.changes project).Perm (other.state.changes project) ∧
      run.state.batches.outstanding project = other.state.batches.outstanding project ∧
        run.state.timers.isPending project = other.state.timers.isPending project := by
    refine ⟨?_, hRun.outstanding.trans hOther.outstanding.symm,
      hRun.timer.trans hOther.timer.symm⟩
    rw [hRun.changes, hOther.changes]
  obtain ⟨hChanges, hOutstanding, hTimer⟩ := hSame
  by_cases hBuilds : Builds options (chunksOf project first) last
  · obtain ⟨changes, hAll, hDispatched, hBuild⟩ := hRun.builds hBuilds
    obtain ⟨others, hOthers, hAlike, hBuildAlike⟩ := hOther.builds (hBoth.mp hBuilds)
    refine ⟨Or.inl ⟨changes, others, ?_, hAll, hDispatched, hAlike⟩, hChanges, hOutstanding, hTimer,
      hBuild.trans hBuildAlike.symm⟩
    exact (hAll.trans (hOrder.flatMap_right _)).trans hOthers.symm
  · obtain ⟨hDispatched, hBuild⟩ := hRun.keeps hBuilds
    obtain ⟨hAlike, hBuildAlike⟩ := hOther.keeps (mt hBoth.mpr hBuilds)
    exact ⟨Or.inr ⟨hDispatched, hAlike⟩, hChanges, hOutstanding, hTimer,
      hBuild.trans hBuildAlike.symm⟩

def oneOfTwo (paths : List String) : ChangeNotification :=
  { oneChange "" with
    chunkTotal := some 2
    events := some (paths.map fun path => { path := path, timestamp := 7, kind := "MODIFY" }) }

/-- Two chunks come one after the other; the first arms a timer, whose task is 1. -/
def oneAfterOther (first second : List String) (turnsOfSecond : Nat) : List Event :=
  .notify (oneOfTwo first) :: turns 0 5 ++ turns 1 1 ++
    .notify (oneOfTwo second) :: turns 2 turnsOfSecond

/-- A chunk of settings comes with one that has something to build, and with one without any
event, in both orders. -/
def inBothOrders : List (List Event) :=
  [oneAfterOther ["x"] [".cw-settings"] 5, oneAfterOther [".cw-settings"] ["x"] 5,
    oneAfterOther [] [".cw-settings"] 5, oneAfterOther [".cw-settings"] [] 4]

theorem delivers_inBothOrders : ∀ events ∈ inBothOrders,
    (Run.after { quietPeriod := 1 } []).Delivers { quietPeriod := 1 } "a" 7 2 events := by
  intro events hEvents
  have hSteady : ∀ events ∈ inBothOrders, ∀ event ∈ events, event.Steady := by
    simp [inBothOrders, oneAfterOther, turns, Event.Steady]
  have hMoments : ∀ events ∈ inBothOrders, ∀ count ≤ events.length,
      let run := (Run.after { quietPeriod := 1 } []).extend { quietPeriod := 1 }
        (events.take count)
      (∀ task ∈ run.system.tasks, ∀ due ∈ System.due? task, run.system.now < due) ∧
        ∀ next ∈ (events.drop count).head?, (next.chunk? "a").isSome = true → run.Calm "a" := by
    decide +kernel
  constructor
  · exact fun event hEvent => (hSteady events hEvents event hEvent).dependable "a"
  · revert events
    decide
  · intro before event after hSplit hChunk
    have hMoment := (hMoments events hEvents before.length (by simp [hSplit])).2
    rw [hSplit, List.drop_left, List.take_left] at hMoment
    exact hMoment event rfl hChunk
  · intro before after hSplit
    have hMoment := (hMoments events hEvents before.length (by simp [hSplit])).1
    rw [hSplit, List.take_left] at hMoment
    exact not_elapsed_of_later hMoment
  · revert events
    decide
  · revert events
    decide
  · have hNonempty : ∀ events ∈ inBothOrders, events ≠ [] := by
      simp [inBothOrders, oneAfterOther]
    have hTaken : ∀ events ∈ inBothOrders,
        ¬ ((Run.after { quietPeriod := 1 } []).extend { quietPeriod := 1 }
            events.dropLast).Calm "a" ∧
          ((Run.after { quietPeriod := 1 } []).extend { quietPeriod := 1 } events).Calm "a" := by
      decide +kernel
    refine ⟨events.dropLast, events.getLast (hNonempty events hEvents), ?_, hTaken events hEvents⟩
    exact (List.dropLast_append_getLast _).symm

theorem arrival_order_does_not_matter_inBothOrders :
    let start := Run.after { quietPeriod := 1 } []
    let run := start.extend { quietPeriod := 1 } (oneAfterOther ["x"] [".cw-settings"] 5)
    let other := start.extend { quietPeriod := 1 } (oneAfterOther [".cw-settings"] ["x"] 5)
    (dispatched "a" run = [some [{ path := "x", timestamp := 7, kind := "MODIFY" }]] ∧
      dispatched "a" other = [some [{ path := "x", timestamp := 7, kind := "MODIFY" }]]) ∧
      run.state.builds.state "a" = other.state.builds.state "a" := by
  refine ⟨by decide +kernel, (arrival_order_does_not_matter { quietPeriod := 1 } []
    (List.forall_mem_nil _) "a" ⟨by decide, rfl, rfl, rfl, rfl⟩ 7 2 (by decide) _ _
    (delivers_inBothOrders _ (.head _)) (delivers_inBothOrders _ (.tail _ (.head _))) ?_
    (Or.inl ?_)).2.2.2.2⟩
  · exact List.Perm.swap _ _ []
  · decide

/-- A chunk without any event and one of settings: a build of nothing is dispatched if the one
without any event comes last, and none otherwise. -/
theorem arrival_order_matters_ifMixed :
    let start := Run.after { quietPeriod := 1 } []
    let first := oneAfterOther [] [".cw-settings"] 5
    let second := oneAfterOther [".cw-settings"] [] 4
    (start.AtRest "a" ∧ start.Delivers { quietPeriod := 1 } "a" 7 2 first ∧
      start.Delivers { quietPeriod := 1 } "a" 7 2 second ∧
        (chunksOf "a" first).Perm (chunksOf "a" second)) ∧
      dispatched "a" (start.extend { quietPeriod := 1 } first) = [] ∧
        dispatched "a" (start.extend { quietPeriod := 1 } second) = [some []] := by
  refine ⟨⟨⟨by decide, rfl, rfl, rfl, rfl⟩, ?_, ?_, List.Perm.swap _ _ []⟩, by decide +kernel,
    by decide +kernel⟩
  · exact delivers_inBothOrders _ (.tail _ (.tail _ (.head _)))
  · exact delivers_inBothOrders _ (.tail _ (.tail _ (.tail _ (.head _))))

end Coordinator

end BuildWatch
