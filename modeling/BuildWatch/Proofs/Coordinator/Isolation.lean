import BuildWatch.Proofs.Coordinator.Requests

/-!
Projects keep to themselves.  Whatever a task does concerns its own project and the one
whose info it has at hand; as long as infos carry the id that was asked for these are the
same, and everything that is known of the other projects stays as it is.
-/

namespace BuildWatch

open BuildWatch.Tasks

/-! ### The share of a project -/

/-- What is known of one project. -/
@[ext]
structure Share where
  /-- The task that is kept as its timer. -/
  timer : Option Nat
  changes : List ChangeEvent
  countdowns : List Countdown
  build : BuildState
deriving Repr, DecidableEq

namespace CoordinatorState

def share (state : CoordinatorState) (project : String) : Share where
  timer := state.timers.waiting.get? project
  changes := state.changes project
  countdowns := state.batches.progress project
  build := state.builds.state project

section

variable {state : CoordinatorState} {project other : String} (hOther : project ≠ other)

include hOther

theorem share_cancel :
    { state with timers := state.timers.cancel other }.share project = state.share project := by
  refine Share.ext ?_ rfl rfl rfl
  exact (Timers.get?_cancel state.timers other project).trans (if_neg hOther)

theorem share_arm (task : Nat) :
    { state with timers := state.timers.arm other task }.share project = state.share project := by
  refine Share.ext ?_ rfl rfl rfl
  exact (Timers.get?_arm state.timers other project task).trans (if_neg hOther)

theorem share_record (timestamp : UInt64) (total : Nat) :
    { state with batches := state.batches.record other timestamp total }.share project =
      state.share project := by
  refine Share.ext rfl rfl ?_ rfl
  exact (Batches.progress_record state.batches other project timestamp total).trans
    (if_neg hOther)

theorem share_clear :
    { state with batches := state.batches.clear other }.share project = state.share project := by
  refine Share.ext rfl rfl ?_ rfl
  exact (Batches.progress_clear state.batches other project).trans (if_neg hOther)

theorem share_setBuild (build : BuildState) :
    { state with builds := state.builds.setState other build }.share project =
      state.share project := by
  refine Share.ext rfl rfl rfl ?_
  exact (Builds.state_setState state.builds other project build).trans (if_neg hOther)

theorem share_require : (state.require other).share project = state.share project := by
  refine Share.ext rfl rfl rfl ?_
  exact (Builds.state_require state.builds other project true).trans (if_neg hOther)

theorem share_buffer (request : Nat) (changes : List ChangeEvent) :
    (state.buffer request other changes).share project = state.share project := by
  refine Share.ext rfl ?_ rfl rfl
  exact (changes_buffer state request other project changes).trans (if_neg hOther)

theorem share_drain : (state.drain other).share project = state.share project := by
  refine Share.ext rfl ?_ rfl rfl
  exact (changes_drain state other project).trans (if_neg hOther)

end

end CoordinatorState

namespace Coordinator

def Stage.info? : Stage → Option ProjectInfo
  | .updateLocked _ info => some info
  | .changeTimer _ info => some info
  | .changeLoaded _ info => some info
  | .changeApplied _ info => some info
  | .changeBuffer _ info => some info
  | .changeLocked _ info => some info
  | .timerLocked _ (.found info) => some info
  | .build info _ => some info
  | .followUpLocked _ info _ => some info
  | _ => none

/-! ### Work that spares a project -/

/-- Notices that tell nothing of a project, and of a build only that it took all changes of
its project. -/
structure Apart (project : String) (data : CoordinatorState) (told : List Notice) : Prop where
  others : ∀ notice ∈ told, notice.project? ≠ some project
  drained : ∀ built changes, Notice.drained built changes ∈ told → changes = data.changes built

/-- What holds of the work of a turn as long as it leaves a project alone. -/
structure Work.Spares (project : String) (data : CoordinatorState) (work : Work) : Prop where
  share : work.state.share project = data.share project
  told : ∃ told, work.state.history = data.history ++ told ∧ Apart project data told
  spawned : ∀ stage ∈ work.spawned, stage.project ≠ project
  dropped : ∀ id ∈ work.dropped, ∃ other, other ≠ project ∧
    data.timers.waiting.get? other = some id

structure TurnSpares (project : String) (data : CoordinatorState) (turn : CoordinatorTurn) :
    Prop where
  share : turn.data.share project = data.share project
  told : ∃ told, turn.data.history = data.history ++ told ∧ Apart project data told
  next : ∀ later, turn.next.stage? = some later → later.project ≠ project
  spawned : ∀ stage ∈ turn.spawned, stage.project ≠ project
  dropped : ∀ id ∈ turn.dropped, ∃ other, other ≠ project ∧
    data.timers.waiting.get? other = some id

theorem apart_nil (project : String) (data : CoordinatorState) : Apart project data [] :=
  ⟨List.forall_mem_nil _, nofun⟩

theorem Apart.append {project : String} {data : CoordinatorState} {told more : List Notice}
    (hTold : Apart project data told) (hMore : Apart project data more) :
    Apart project data (told ++ more) where
  others := by
    intro notice hNotice
    rcases List.mem_append.mp hNotice with hEarly | hLate
    · exact hTold.others notice hEarly
    · exact hMore.others notice hLate
  drained := by
    intro built changes hDrained
    rcases List.mem_append.mp hDrained with hEarly | hLate
    · exact hTold.drained built changes hEarly
    · exact hMore.drained built changes hLate

section

variable {project other : String} {data : CoordinatorState} {work : Work}

theorem apart_of_about (hOther : project ≠ other) {told : List Notice}
    (hAbout : ∀ notice ∈ told, notice.project? = some other)
    (hDrained : ∀ built changes, Notice.drained built changes ∈ told →
      changes = data.changes built) : Apart project data told where
  others := by
    intro notice hNotice
    rw [hAbout notice hNotice]
    exact fun hSame => hOther (Option.some.inj hSame).symm
  drained := hDrained

theorem Work.spares_start (fresh : Nat) :
    Work.Spares project data { state := data, fresh := fresh } where
  share := rfl
  told := ⟨[], (List.append_nil _).symm, apart_nil project data⟩
  spawned := List.forall_mem_nil _
  dropped := List.forall_mem_nil _

theorem Work.Spares.map (hSpares : work.Spares project data)
    (change : CoordinatorState → CoordinatorState) (more : List Notice)
    (hShare : (change work.state).share project = work.state.share project)
    (hHistory : (change work.state).history = work.state.history ++ more)
    (hMore : Apart project data more) : (work.map change).Spares project data where
  share := hShare.trans hSpares.share
  told := by
    obtain ⟨told, hTold, hApart⟩ := hSpares.told
    refine ⟨told ++ more, ?_, hApart.append hMore⟩
    change (change work.state).history = _
    rw [hHistory, hTold, List.append_assoc]
  spawned := hSpares.spawned
  dropped := hSpares.dropped

theorem Work.Spares.tell (hSpares : work.Spares project data) (notice : Notice)
    (hAbout : notice.project? ≠ some project) (hDrains : ∀ built changes,
      notice ≠ .drained built changes) : (work.map (·.tell notice)).Spares project data := by
  refine hSpares.map _ [notice] rfl rfl ⟨?_, ?_⟩
  · intro told hTold
    rw [List.mem_singleton.mp hTold]
    exact hAbout
  · intro built changes hTold
    exact absurd (List.mem_singleton.mp hTold).symm (hDrains built changes)

theorem Work.Spares.clearBatches (hSpares : work.Spares project data) (hOther : project ≠ other) :
    (work.clearBatches other).Spares project data :=
  hSpares.map _ [] (CoordinatorState.share_clear hOther) (List.append_nil _).symm
    (apart_nil project data)

theorem Work.Spares.record (hSpares : work.Spares project data) (change : Change)
    (hOther : project ≠ change.project) : (work.record change).Spares project data :=
  hSpares.map _ [] (CoordinatorState.share_record hOther _ _) (List.append_nil _).symm
    (apart_nil project data)

theorem Work.Spares.require (hSpares : work.Spares project data) (hOther : project ≠ other) :
    (work.map (·.require other)).Spares project data :=
  hSpares.map _ [.required other] (CoordinatorState.share_require hOther) rfl
    (apart_of_about hOther (by simp [Notice.project?]) (by simp))

/-- The timers in the midst of a turn are those at its start, or fewer. -/
def Work.Keeps (data : CoordinatorState) (work : Work) : Prop :=
  ∀ asked id, work.state.timers.waiting.get? asked = some id →
    data.timers.waiting.get? asked = some id

theorem Work.Keeps.cancel {timers : Timers} (hTimers : work.state.timers = timers.cancel other)
    (hKeeps : ∀ asked id, timers.waiting.get? asked = some id →
      data.timers.waiting.get? asked = some id) : work.Keeps data := by
  intro asked id hKept
  rw [hTimers, Timers.get?_cancel] at hKept
  by_cases hSame : asked = other
  · rw [if_pos hSame] at hKept
    cases hKept
  · rw [if_neg hSame] at hKept
    exact hKeeps asked id hKept

theorem Work.Spares.dropped_stale (hSpares : work.Spares project data) (hOther : project ≠ other)
    (hKeeps : work.Keeps data) :
    ∀ id ∈ work.dropped ++ work.state.timers.stale other, ∃ asked, asked ≠ project ∧
      data.timers.waiting.get? asked = some id := by
  intro id hId
  rcases List.mem_append.mp hId with hOld | hStale
  · exact hSpares.dropped id hOld
  · exact ⟨other, hOther.symm, hKeeps other id ((Timers.mem_stale_iff _ _ _).mp hStale)⟩

theorem Work.Spares.cancelTimer (hSpares : work.Spares project data) (hOther : project ≠ other)
    (hKeeps : work.Keeps data) : (work.cancelTimer other).Spares project data where
  share := (CoordinatorState.share_cancel hOther).trans hSpares.share
  told := hSpares.told
  spawned := hSpares.spawned
  dropped := hSpares.dropped_stale hOther hKeeps

theorem Work.Spares.armTimer (hSpares : work.Spares project data) (hOther : project ≠ other)
    (hKeeps : work.Keeps data) : (work.armTimer other).Spares project data where
  share := (CoordinatorState.share_arm hOther _).trans hSpares.share
  told := hSpares.told
  spawned := by
    intro stage hStage
    rcases List.mem_append.mp hStage with hOld | hTimer
    · exact hSpares.spawned stage hOld
    · rw [List.mem_singleton.mp hTimer]
      exact hOther.symm
  dropped := hSpares.dropped_stale hOther hKeeps

theorem Work.Spares.beginBuild (hSpares : work.Spares project data) {info : ProjectInfo}
    (explicit : Bool) (hOther : project ≠ other) (hInfo : project ≠ info.id)
    (hPending : work.state.pending = data.pending) :
    (work.beginBuild other info explicit).Spares project data := by
  have hBegun : Work.Spares project data
      (work.map fun state => { state with builds := state.builds.begin other explicit }) :=
    hSpares.map _ [] (CoordinatorState.share_setBuild hOther _) (List.append_nil _).symm
      (apart_nil project data)
  unfold Work.beginBuild
  dsimp only
  cases work.state.builds.slot other with
  | queued =>
      exact hBegun.map (·.tell (.queued other explicit)) [.queued other explicit] rfl rfl
        (apart_of_about hOther (by simp [Notice.project?]) (by simp))
  | started =>
      have hDrained := hBegun.map (fun state => (state.tell (.begun other explicit)).drain other)
        [.begun other explicit, .drained other (work.state.changes other)]
        (CoordinatorState.share_drain hOther) (List.append_assoc _ [_] [_]) (by
          refine apart_of_about hOther (by simp [Notice.project?]) ?_
          intro built changes hMember
          have hTaken : built = other ∧ changes = work.state.changes other := by
            simpa using hMember
          rw [hTaken.1, hTaken.2]
          unfold CoordinatorState.changes
          rw [hPending])
      refine ⟨hDrained.share, hDrained.told, ?_, hDrained.dropped⟩
      intro stage hStage
      rcases List.mem_append.mp hStage with hOld | hBuild
      · exact hSpares.spawned stage hOld
      · rw [List.mem_singleton.mp hBuild]
        exact hInfo.symm

theorem Work.Spares.trigger (hSpares : work.Spares project data) {info : ProjectInfo}
    (requireChanges : Bool) (hInfo : project ≠ info.id) (hKeeps : work.Keeps data)
    (hPending : work.state.pending = data.pending) :
    (work.trigger info requireChanges).Spares project data := by
  have hCleared : ((work.cancelTimer info.id).clearBatches info.id).Spares project data :=
    (hSpares.cancelTimer hInfo hKeeps).clearBatches hInfo
  unfold Work.trigger
  dsimp only
  split
  · exact hCleared.require hInfo
  · split
    · exact hCleared
    · exact hCleared.beginBuild false hInfo hInfo hPending

theorem Work.Spares.startUpdate (hSpares : work.Spares project data) {info : ProjectInfo}
    (hOther : project ≠ other) (hInfo : project ≠ info.id) (hKeeps : work.Keeps data)
    (hPending : work.state.pending = data.pending) :
    (startUpdate work other info).Spares project data := by
  unfold Coordinator.startUpdate
  dsimp only
  split
  · exact (hSpares.cancelTimer hOther hKeeps).beginBuild true hOther hInfo hPending
  · exact hSpares.beginBuild true hOther hInfo hPending

theorem Work.Spares.decide (options : CoordinatorOptions) (hSpares : work.Spares project data)
    {change : Change} {info : ProjectInfo} (hOther : project ≠ change.project)
    (hInfo : project ≠ info.id) (hKeeps : work.Keeps data)
    (hPending : work.state.pending = data.pending) :
    (decide options work change info).Spares project data := by
  have hRecorded := hSpares.record change hOther
  unfold Coordinator.decide
  dsimp only
  split
  · split
    · exact hSpares.armTimer hOther hKeeps
    · exact hSpares
  · split
    · split
      · exact hRecorded.trigger false hInfo hKeeps hPending
      · split
        · exact hRecorded.trigger true hInfo hKeeps hPending
        · exact hRecorded
    · exact hRecorded.armTimer hOther hKeeps

theorem elapse_spares (self fresh : Nat) {lookup : Lookup} (hOther : project ≠ other)
    (hInfo : ∀ info, lookup = .found info → project ≠ info.id) :
    (elapse { state := data, fresh := fresh } self other lookup).Spares project data := by
  have hStart : Work.Spares project data { state := data, fresh := fresh } :=
    Work.spares_start fresh
  unfold elapse
  cases hClaim : data.timers.claim? other self with
  | none => exact hStart
  | some timers =>
      obtain ⟨_, hTimers⟩ := (Timers.claim?_eq_some_iff _ _ _ _).mp hClaim
      subst hTimers
      have hClaimed := hStart.map (fun state => { state with timers := data.timers.cancel other })
        [] (CoordinatorState.share_cancel hOther) (List.append_nil _).symm (apart_nil project data)
      cases lookup with
      | found info =>
          refine hClaimed.trigger true (hInfo info rfl) ?_ rfl
          exact Work.Keeps.cancel rfl fun _ _ hKept => hKept
      | failed error => exact hClaimed
      | panicked => exact hClaimed

/-! ### Turns that spare a project -/

theorem Work.Spares.turn (hSpares : work.Spares project data) (release : Bool)
    (next : Next Stage Query)
    (hNext : ∀ later, next.stage? = some later → later.project ≠ project) :
    TurnSpares project data (work.turn release next) :=
  ⟨hSpares.share, hSpares.told, hNext, hSpares.spawned, hSpares.dropped⟩

theorem Work.Spares.finish (hSpares : work.Spares project data) :
    TurnSpares project data work.finish :=
  hSpares.turn false .finish (by rintro later ⟨⟩)

theorem Work.Spares.answer (hSpares : work.Spares project data) (request : Nat)
    (result : UpdateResult) : TurnSpares project data (work.answer request result) :=
  (hSpares.tell (.answered request result) nofun nofun).finish

theorem withProject_spares (hSpares : work.Spares project data) (request : Nat)
    {lookup : Lookup} {next : ProjectInfo → CoordinatorTurn}
    (hNext : ∀ info, TurnSpares project data (next info)) :
    TurnSpares project data (withProject work request other lookup next) := by
  cases lookup with
  | found info => exact hNext info
  | failed error => exact hSpares.answer request _
  | panicked => exact hSpares.answer request _

theorem proceed_spares (options : CoordinatorOptions) (hSpares : work.Spares project data)
    (release : Bool) {change : Change} (info : ProjectInfo) (hOther : project ≠ change.project) :
    TurnSpares project data (proceed options work release change info) := by
  unfold proceed
  split
  · refine hSpares.turn release _ ?_
    rintro later ⟨⟩
    exact hOther.symm
  · refine hSpares.turn release _ ?_
    rintro later ⟨⟩
    exact hOther.symm

theorem afterLoad_spares (options : CoordinatorOptions) (hSpares : work.Spares project data)
    {change : Change} (info : ProjectInfo) (settings? : Option Settings)
    (hOther : project ≠ change.project) :
    TurnSpares project data (afterLoad options work change info settings?) := by
  unfold afterLoad
  split
  · split
    · refine (hSpares.tell (.applying info.id _) nofun nofun).turn false _ ?_
      rintro later ⟨⟩
      exact hOther.symm
    · exact proceed_spares options hSpares false info hOther
  · exact proceed_spares options hSpares false info hOther

theorem handOver_spares (options : CoordinatorOptions) (hSpares : work.Spares project data)
    (release : Bool) {info : ProjectInfo} (changes : Option (List ChangeEvent))
    (hInfo : project ≠ info.id) :
    TurnSpares project data (handOver options work release info changes) := by
  have hAbout : some info.id ≠ some project := fun hSame => hInfo (Option.some.inj hSame).symm
  refine ((hSpares.tell (.started info.id) hAbout nofun).tell
    (.handed (options.operation info) changes) hAbout nofun).turn release _ ?_
  rintro later ⟨⟩
  exact hInfo.symm

theorem endBuild_spares (hSpares : work.Spares project data) (result : BuildResult)
    (hOther : project ≠ other) : TurnSpares project data (endBuild work other result) := by
  have hEnded (followUp? : Option FollowUp) : Work.Spares project data (work.map fun state =>
      { (state.tell (.finished other result)).tell (.passedOn other followUp?) with
        builds := state.builds.finish other }) := by
    refine hSpares.map _ [.finished other result, .passedOn other followUp?]
      (CoordinatorState.share_setBuild hOther _) (List.append_assoc _ [_] [_]) ?_
    exact apart_of_about hOther (by simp [Notice.project?]) (by simp)
  unfold endBuild
  dsimp only
  split
  · refine (hEnded _).turn false _ ?_
    rintro later ⟨⟩
    exact hOther.symm
  · exact (hEnded _).finish

theorem abandon_spares (hSpares : work.Spares project data) (hOther : project ≠ other) :
    TurnSpares project data (abandon work other) :=
  (hSpares.map _ [] (CoordinatorState.share_setBuild hOther _) (List.append_nil _).symm
    (apart_nil project data)).finish

end

/-- A turn leaves alone every project but that of its task and that of the info at hand,
whatever the source of projects answers. -/
theorem resume_spares (options : CoordinatorOptions) (self fresh : Nat) {stage : Stage}
    (answer? : Option Answer) (data : CoordinatorState) {project : String}
    (hOther : project ≠ stage.project)
    (hInfo : ∀ info, stage.info? = some info → project ≠ info.id) :
    TurnSpares project data (resume options self fresh stage answer? data) := by
  have hStart : Work.Spares project data { state := data, fresh := fresh } :=
    Work.spares_start fresh
  have hKeeps : Work.Keeps data { state := data, fresh := fresh } := fun _ _ hKept => hKept
  have hGoesOn (work : Work) (hSpares : work.Spares project data) (release : Bool)
      (next : Next Stage Query) (hNext : ∀ later, next.stage? = some later →
        later.project = stage.project) :
      TurnSpares project data (work.turn release next) := by
    refine hSpares.turn release next ?_
    intro later hLater
    rw [hNext later hLater]
    exact hOther.symm
  cases stage with
  | updateFound asked =>
      refine withProject_spares hStart self ?_
      intro info
      unfold updateWith
      split
      · exact hGoesOn _ hStart false _ (by rintro later ⟨⟩; rfl)
      · exact (hStart.require hOther).answer self _
  | updateLocked asked info =>
      exact (hStart.startUpdate hOther (hInfo info rfl) hKeeps rfl).answer self _
  | changeFound chunk =>
      refine withProject_spares hStart self ?_
      intro info
      exact hGoesOn _ hStart false _ (by rintro later ⟨⟩; rfl)
  | changeTimer chunk info =>
      have hCancelled := hStart.cancelTimer hOther hKeeps
      simp only [resume]
      unfold afterCancel
      split
      · exact hGoesOn _ hCancelled true _ (by rintro later ⟨⟩; rfl)
      · exact proceed_spares options hCancelled true info hOther
  | changeLoaded chunk info => exact afterLoad_spares options hStart info _ hOther
  | changeApplied chunk info =>
      simp only [resume]
      split
      · exact hGoesOn _ hStart false _ (by rintro later ⟨⟩; rfl)
      · exact proceed_spares options hStart false info hOther
      · exact hStart.answer self _
  | changeRefreshed chunk =>
      exact withProject_spares hStart self fun info =>
        proceed_spares options hStart false info hOther
  | changeBuffer chunk info =>
      refine hGoesOn _ (hStart.map _ [.buffered self chunk.project (buildEvents options chunk)]
        (CoordinatorState.share_buffer hOther _ _) rfl ?_) true _ (by rintro later ⟨⟩; rfl)
      exact apart_of_about hOther (by simp [Notice.project?, Stage.project]) (by simp)
  | changeLocked chunk info =>
      exact (hStart.decide options hOther (hInfo info rfl) hKeeps rfl).answer self _
  | timerFound asked =>
      simp only [resume]
      split
      · exact hStart.finish
      · exact hGoesOn _ hStart false _ (by rintro later ⟨⟩; rfl)
  | timerLocked asked lookup =>
      refine (elapse_spares self fresh hOther ?_).finish
      rintro info rfl
      exact hInfo info rfl
  | build info changes => exact handOver_spares options hStart false changes hOther
  | buildEnded asked => exact endBuild_spares hStart _ hOther
  | followUpFound asked followUp =>
      simp only [resume]
      unfold followUpWith
      split
      · split
        · exact hGoesOn _ hStart false _ (by rintro later ⟨⟩; rfl)
        · exact abandon_spares (hStart.require hOther) hOther
      · exact abandon_spares hStart hOther
      · exact hStart.finish
  | followUpLocked asked info followUp =>
      refine handOver_spares options (hStart.map _ [.drained asked (data.changes asked)]
        (CoordinatorState.share_drain hOther) rfl ?_) true _ (hInfo info rfl)
      refine apart_of_about hOther (by simp [Notice.project?, Stage.project]) ?_
      intro built changes hDrained
      cases List.mem_singleton.mp hDrained
      rfl
  | _ => exact hGoesOn _ hStart false _ (by rintro later ⟨⟩; rfl)

/-! ### Events -/

def tasksOf (project : String) (system : CoordinatorSystem) : List (Task Stage Query) :=
  system.tasks.filter fun task => task.stage.project == project

/-- Whether an event is a call for a project or a turn of one of its tasks. -/
def Event.actsFor (project : String) (system : CoordinatorSystem) : Event → Bool
  | .poll id _ => (system.task? id).any fun task => task.stage.project == project
  | event => event.call?.any fun call => call.project == project

/-- Between two moments nothing of a project has changed, and nothing was told of it. -/
structure Untouched (project : String) (before after : CoordinatorSystem) : Prop where
  share : after.data.share project = before.data.share project
  tasks : tasksOf project after = tasksOf project before
  told : ∃ told, after.data.history = before.data.history ++ told ∧
    Apart project before.data told

theorem Stage.info_id {circumstances : Circumstances} {stage : Stage} {info : ProjectInfo}
    (hInformed : stage.Informed circumstances) (hInfo : stage.info? = some info) :
    info.id = stage.project := by
  cases stage with
  | build other changes =>
      cases hInfo
      rfl
  | timerLocked asked lookup =>
      cases lookup with
      | found other =>
          cases hInfo
          exact circumstances.faithful _ _ hInformed
      | failed error => cases hInfo
      | panicked => cases hInfo
  | updateLocked asked other =>
      cases hInfo
      exact circumstances.faithful _ _ hInformed
  | changeTimer chunk other =>
      cases hInfo
      exact circumstances.faithful _ _ hInformed
  | changeLoaded chunk other =>
      cases hInfo
      exact circumstances.faithful _ _ hInformed
  | changeApplied chunk other =>
      cases hInfo
      exact circumstances.faithful _ _ hInformed
  | changeBuffer chunk other =>
      cases hInfo
      exact circumstances.faithful _ _ hInformed
  | changeLocked chunk other =>
      cases hInfo
      exact circumstances.faithful _ _ hInformed
  | followUpLocked asked other followUp =>
      cases hInfo
      exact circumstances.faithful _ _ hInformed
  | _ => cases hInfo

theorem Stage.project_of_quiet? {stage : Stage} {project : String}
    (hQuiet : stage.quiet? = some project) : stage.project = project := by
  cases stage <;> first | exact Option.some.inj hQuiet | cases hQuiet

theorem Call.stage_project (call : Call) : call.stage.project = call.project := by
  cases call <;> rfl

section

variable {circumstances : Circumstances} {options : CoordinatorOptions}
variable {system : CoordinatorSystem} {project : String}

theorem Untouched.congr {other : CoordinatorSystem} (hTasks : other.tasks = system.tasks)
    (hData : other.data = system.data) : Untouched project system other where
  share := by rw [hData]
  tasks := by
    unfold tasksOf
    rw [hTasks]
  told := ⟨[], by rw [hData, List.append_nil], apart_nil project _⟩

theorem Sound.untouched_applyTurn (hSound : Sound circumstances options system)
    {task : Task Stage Query} (hTask : task ∈ system.tasks) {turn : CoordinatorTurn}
    (hOther : task.stage.project ≠ project) (hTurn : TurnSpares project system.data turn) :
    Untouched project system (system.applyTurn task.id turn) where
  share := by
    rw [System.applyTurn_data]
    exact hTurn.share
  tasks := by
    refine System.applyTurn_filter (fun stage : Stage => stage.project == project) ?_ ?_ ?_ ?_
    · intro same hSame hId
      rw [List.inj_on_of_nodup_map hSound.ids hSame hTask hId]
      simpa using hOther
    · intro later hLater
      simpa using hTurn.next later hLater
    · intro dropped hDropped hId
      obtain ⟨asked, hAsked, hKept⟩ := hTurn.dropped dropped.id hId
      have hQuiet := (hSound.timers asked dropped.id hKept).2 dropped hDropped rfl
      rw [Stage.project_of_quiet? hQuiet]
      simpa using hAsked
    · intro stage hStage
      simpa using hTurn.spawned stage hStage
  told := by
    rw [System.applyTurn_data]
    exact hTurn.told

theorem untouched_takeCall (system : CoordinatorSystem) {call? : Option Call}
    (hOther : (call?.any fun call => call.project == project) = false) :
    Untouched project system (takeCall system call?) := by
  cases call? with
  | none => exact Untouched.congr rfl rfl
  | some call =>
      have hCall : call.stage.project ≠ project := by
        rw [Call.stage_project]
        simpa using hOther
      refine ⟨rfl, ?_, [], (List.append_nil _).symm, apart_nil project _⟩
      simp [tasksOf, takeCall, System.spawn, hCall]

/-- An event leaves every project alone that it does not act for. -/
theorem Sound.untouched_happen (hSound : Sound circumstances options system) {event : Event}
    (hWithin : event.Within circumstances) (hOther : event.actsFor project system = false)
    (hNoShutdown : event ≠ .shutdown) :
    Untouched project system (Coordinator.happen options system event) := by
  cases event with
  | update asked => exact untouched_takeCall system hOther
  | notify notification => exact untouched_takeCall system hOther
  | shutdown => exact absurd rfl hNoShutdown
  | pass duration => exact Untouched.congr rfl rfl
  | reorder ready => exact Untouched.congr rfl rfl
  | poll id surrounding =>
      simp only [Coordinator.happen]
      rcases hSound.poll_cases hWithin with ⟨locks, hPoll, _⟩ |
        ⟨locks, task, answer?, hFound, hTask, _, _, hLocked, _, hPoll⟩
      · rw [hPoll]
        exact Untouched.congr rfl rfl
      · have hProject : task.stage.project ≠ project := by
          simp only [Event.actsFor, hFound, Option.any_some] at hOther
          simpa using hOther
        have hSpares := resume_spares options task.id system.nextId answer? system.data
          hProject.symm fun info hInfo => by
            rw [Stage.info_id (hSound.informed task hTask) hInfo]
            exact hProject.symm
        obtain ⟨hShare, hTasks, hTold⟩ := hLocked.untouched_applyTurn hTask hProject hSpares
        rw [hPoll]
        exact ⟨hShare, hTasks, hTold⟩

theorem Event.actsFor_of_ne {event : Event} {other : String} (hOther : other ≠ project)
    (hActs : event.actsFor project system = true) :
    event.actsFor other system = false ∧ event ≠ .shutdown := by
  have hOnly {value : String} (hSame : (value == project) = true) : (value == other) = false := by
    rw [beq_iff_eq.mp hSame]
    simpa using hOther.symm
  refine ⟨?_, ?_⟩
  · cases event with
    | poll id surrounding =>
        simp only [Event.actsFor] at hActs ⊢
        cases hFound : system.task? id with
        | none => rfl
        | some task =>
            rw [hFound, Option.any_some] at hActs
            exact hOnly hActs
    | update asked =>
        simp only [Event.actsFor] at hActs ⊢
        cases hCall : (Event.update asked).call? with
        | none => rfl
        | some call =>
            rw [hCall, Option.any_some] at hActs
            exact hOnly hActs
    | notify notification =>
        simp only [Event.actsFor] at hActs ⊢
        cases hCall : (Event.notify notification).call? with
        | none => rfl
        | some call =>
            rw [hCall, Option.any_some] at hActs
            exact hOnly hActs
    | _ => rfl
  · rintro rfl
    cases hActs

end

/-- Projects do not interfere as long as infos carry the id that was asked for.  A step that is
made on behalf of one project changes nothing that is known of another, neither drops nor moves
any task of it, and tells nothing of it; and a build that the step begins takes all changes of
its own project, and of no other. -/
theorem projects_do_not_interfere (options : CoordinatorOptions) (events : List Event)
    (hEvents : ∀ event ∈ events, event.Within .faithfulInfos) (event : Event)
    (hWithin : event.Within .faithfulInfos) (project : String)
    (hActs : event.actsFor project (Run.after options events).system = true) :
    let run := Run.after options events
    let next := run.step options event
    (∀ other, other ≠ project →
      next.state.share other = run.state.share other ∧
        tasksOf other next.system = tasksOf other run.system) ∧
    ∃ told, next.history = run.history ++ told ∧
      (∀ notice ∈ told, ∀ other ∈ notice.project?, other = project) ∧
      ∀ built changes, .drained built changes ∈ told →
        built = project ∧ changes = run.state.changes project := by
  have hSound := Run.sound options events hEvents
  have hUntouched (other : String) (hOther : other ≠ project) :
      Untouched other (Run.after options events).system
        ((Run.after options events).step options event).system := by
    obtain ⟨hApart, hNoShutdown⟩ := Event.actsFor_of_ne hOther hActs
    exact hSound.untouched_happen hWithin hApart hNoShutdown
  -- What is told is the same for every project that stands by.
  obtain ⟨bystander, hBystander⟩ : ∃ other : String, other ≠ project := by
    by_cases hEmpty : project = ""
    · exact ⟨"a", by simp [hEmpty]⟩
    · exact ⟨"", Ne.symm hEmpty⟩
  obtain ⟨told, hTold, hApart⟩ := (hUntouched bystander hBystander).told
  have hAbout : ∀ notice ∈ told, ∀ other ∈ notice.project?, other = project := by
    intro notice hNotice other hAbout
    by_contra hOther
    obtain ⟨same, hSame, hSpared⟩ := (hUntouched other hOther).told
    rw [hTold, List.append_cancel_left_eq] at hSame
    exact hSpared.others notice (hSame ▸ hNotice) hAbout
  refine ⟨fun other hOther => ⟨(hUntouched other hOther).share, (hUntouched other hOther).tasks⟩,
    told, hTold, hAbout, ?_⟩
  intro built changes hDrained
  have hBuilt : built = project := hAbout _ hDrained built rfl
  exact ⟨hBuilt, hBuilt ▸ hApart.drained built changes hDrained⟩

def neighbourWaits : List Event :=
  .notify { oneChange "x" with project := some "b", chunkTotal := some 2 } :: turns 0 5

/-- A lone chunk of "a" comes then, and only its decision is missing. -/
def besideNeighbour : List Event :=
  neighbourWaits ++ .notify (oneChange "y") :: turns 2 4

theorem projects_do_not_interfere_besideNeighbour :
    let run := Run.after { quietPeriod := 1 } besideNeighbour
    let next := run.step { quietPeriod := 1 } (.poll 2 (steady none))
    ((run.state.share "b").timer = some 1 ∧ (next.state.builds.state "a").inProgress = true) ∧
      next.state.share "b" = run.state.share "b" := by
  refine ⟨by decide, ((projects_do_not_interfere { quietPeriod := 1 } besideNeighbour ?_
    (.poll 2 (steady none)) ?_ "a" (by decide)).1 "b" (by decide)).1⟩
  · have hSteady : ∀ event ∈ besideNeighbour, event.Steady := by
      simp [besideNeighbour, neighbourWaits, turns, Event.Steady]
    intro event hEvent
    refine (hSteady event hEvent).within ?_ trivial
    rintro project info ⟨⟩
    rfl
  · refine ⟨?_, fun _ _ => trivial⟩
    rintro project info ⟨⟩
    rfl

/-- Surroundings that answer the info of "b" whatever project is looked up. -/
def confused : Surrounding Id :=
  { steady none with lookUp := fun _ => .found { id := "b", kind := "nodejs", location := "/b" } }

/-- A chunk of "a" whose info has the id of "b" ends the quiet period of "b", forgets its batch
and takes its changes. -/
theorem interference_of_confused :
    let run := Run.after { quietPeriod := 1 }
      (neighbourWaits ++ .notify (oneChange "y") :: List.replicate 4 (.poll 2 confused))
    let event := Event.poll 2 confused
    let next := run.step { quietPeriod := 1 } event
    event.actsFor "a" run.system = true ∧
      (run.state.share "b").timer = some 1 ∧ (next.state.share "b").timer = none ∧
      (run.state.share "b").countdowns.length = 1 ∧ (next.state.share "b").countdowns = [] ∧
      (run.state.share "b").changes.length = 1 ∧ (next.state.share "b").changes = [] := by
  decide

end Coordinator

end BuildWatch
