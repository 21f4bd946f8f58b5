import BuildWatch.Proofs.Coordinator.Isolation
import BuildWatch.Proofs.Coordinator.QuietPeriods

/-!
What the end of a quiet period does.  The task whose timer is kept claims it and decides on
the project as it finds it then; no other task is touched.  A task that is not the one kept as
the timer of a project leaves that timer to the one that is, or forgets it for good.
-/

namespace BuildWatch

open BuildWatch.Tasks

namespace Coordinator

/-- What the end of a quiet period makes of the share of a project, given what its lookup has
come to, and the tasks that are started. -/
inductive Expiry : Lookup → Share → Share → List Stage → Prop where
  | unknown (error : LookupError) (share : Share) :
      Expiry (.failed error) share { share with timer := none } []
  | switchedOff (info : ProjectInfo) (share : Share) (hOff : info.autoBuild = false) :
      Expiry (.found info) share
        { share with
          timer := none
          countdowns := []
          build := { share.build with required := true } } []
  | nothingToBuild (info : ProjectInfo) (share : Share) (hOn : info.autoBuild = true)
      (hNone : share.changes = []) :
      Expiry (.found info) share { share with timer := none, countdowns := [] } []
  | starts (info : ProjectInfo) (share : Share) (hOn : info.autoBuild = true)
      (hSome : share.changes ≠ []) (hIdle : share.build.inProgress = false) :
      Expiry (.found info) share
        { timer := none
          changes := []
          countdowns := []
          build := { share.build with inProgress := true, required := false } }
        [.build info (some share.changes)]
  | queues (info : ProjectInfo) (share : Share) (hOn : info.autoBuild = true)
      (hSome : share.changes ≠ []) (hBusy : share.build.inProgress = true) :
      Expiry (.found info) share
        { share with
          timer := none
          countdowns := []
          build := { share.build with
            requested :=
              some { explicit := (share.build.requested.map FollowUp.explicit).getD false } } } []

end Coordinator

/-! ### The share of the project that is decided on -/

namespace CoordinatorState

theorem share_require_self (state : CoordinatorState) (project : String) :
    (state.require project).share project =
      { state.share project with
        build := { (state.share project).build with required := true } } := by
  apply Share.ext
  · rfl
  · rfl
  · rfl
  · exact (Builds.state_require state.builds project project true).trans (if_pos rfl)

theorem share_begin_self (state : CoordinatorState) (project : String) (explicit : Bool) :
    { state with builds := state.builds.begin project explicit }.share project =
      { state.share project with build := (state.share project).build.begin explicit } := by
  apply Share.ext
  · rfl
  · rfl
  · rfl
  · exact (Builds.state_begin state.builds project project explicit).trans (if_pos rfl)

theorem share_drain_self (state : CoordinatorState) (project : String) :
    (state.drain project).share project = { state.share project with changes := [] } := by
  apply Share.ext
  · rfl
  · exact (changes_drain state project project).trans (if_pos rfl)
  · rfl
  · rfl

end CoordinatorState

namespace Coordinator

/-! ### The turn that ends a quiet period -/

theorem Work.beginBuild_queues (work : Work) (info : ProjectInfo)
    (hBusy : (work.state.share info.id).build.inProgress = true) :
    let begun := work.beginBuild info.id info false
    let share := work.state.share info.id
    begun.dropped = work.dropped ∧ begun.spawned = work.spawned ∧
      begun.state.share info.id =
        { share with build := { share.build with
            requested :=
              some { explicit := (share.build.requested.map FollowUp.explicit).getD false } } } := by
  have hSlot : work.state.builds.slot info.id = .queued := if_pos hBusy
  unfold Work.beginBuild
  dsimp only
  rw [hSlot]
  refine ⟨rfl, rfl, ?_⟩
  have hBegun := CoordinatorState.share_begin_self work.state info.id false
  rw [BuildState.begin, if_pos hBusy] at hBegun
  exact hBegun

theorem Work.beginBuild_starts (work : Work) (info : ProjectInfo)
    (hIdle : (work.state.share info.id).build.inProgress = false) :
    let begun := work.beginBuild info.id info false
    let share := work.state.share info.id
    begun.dropped = work.dropped ∧
      begun.spawned = work.spawned ++ [.build info (some share.changes)] ∧
        begun.state.share info.id =
          { share with
            changes := []
            build := { share.build with inProgress := true, required := false } } := by
  have hSlot : work.state.builds.slot info.id = .started :=
    (Builds.slot_eq_started_iff work.state.builds info.id).mpr hIdle
  unfold Work.beginBuild
  dsimp only
  rw [hSlot]
  refine ⟨rfl, rfl, ?_⟩
  have hBegun := CoordinatorState.share_begin_self work.state info.id false
  rw [BuildState.begin, if_neg (by simp [hIdle])] at hBegun
  refine (CoordinatorState.share_drain_self _ info.id).trans ?_
  exact congrArg (fun share : Share => { share with changes := [] }) hBegun

section

variable (data : CoordinatorState) (fresh : Nat)

def claimedWork (project : String) : Work :=
  { state := { data with timers := data.timers.cancel project }, fresh := fresh }

theorem claimedWork_cleared (project : String) :
    let cleared := ((claimedWork data fresh project).cancelTimer project).clearBatches project
    cleared.dropped = [] ∧ cleared.spawned = [] ∧
      cleared.state.share project =
        { data.share project with timer := none, countdowns := [] } := by
  refine ⟨?_, rfl, ?_⟩
  · change (data.timers.cancel project).stale project = []
    unfold Timers.stale
    rw [Timers.get?_cancel, if_pos rfl]
    rfl
  · apply Share.ext
    · change ((data.timers.cancel project).cancel project).waiting.get? project = none
      rw [Timers.get?_cancel, if_pos rfl]
    · rfl
    · change (data.batches.clear project).progress project = []
      rw [Batches.progress_clear, if_pos rfl]
    · rfl

theorem trigger_expiry (info : ProjectInfo) :
    let decided := (claimedWork data fresh info.id).trigger info true
    decided.dropped = [] ∧
      Expiry (.found info) (data.share info.id) (decided.state.share info.id) decided.spawned := by
  obtain ⟨hDropped, hSpawned, hShare⟩ := claimedWork_cleared data fresh info.id
  unfold Work.trigger
  generalize ((claimedWork data fresh info.id).cancelTimer info.id).clearBatches info.id = cleared
    at hDropped hSpawned hShare ⊢
  have hChanges : cleared.state.changes info.id = (data.share info.id).changes :=
    congrArg Share.changes hShare
  have hBuild : (cleared.state.share info.id).build = (data.share info.id).build := by
    rw [hShare]
  dsimp only
  cases hAuto : info.autoBuild with
  | false =>
      rw [Bool.not_false, if_pos rfl]
      constructor
      · exact hDropped
      · change Expiry _ _ ((cleared.state.require info.id).share info.id) cleared.spawned
        rw [CoordinatorState.share_require_self, hShare, hSpawned]
        exact .switchedOff info _ hAuto
  | true =>
      rw [Bool.not_true, if_neg Bool.false_ne_true, Bool.true_and]
      by_cases hNone : (data.share info.id).changes = []
      · have hNothing : cleared.state.hasChanges info.id = false :=
          (CoordinatorState.hasChanges_eq_false_iff _ _).mpr (hChanges.trans hNone)
        rw [hNothing, Bool.not_false, if_pos rfl, hShare, hSpawned]
        exact ⟨hDropped, .nothingToBuild info _ hAuto hNone⟩
      · have hSome : cleared.state.hasChanges info.id = true := by
          by_contra hNothing
          rw [Bool.not_eq_true, CoordinatorState.hasChanges_eq_false_iff, hChanges] at hNothing
          exact hNone hNothing
        rw [hSome, Bool.not_true, if_neg Bool.false_ne_true]
        cases hProgress : (data.share info.id).build.inProgress with
        | false =>
            obtain ⟨hBegunDropped, hBegunSpawned, hBegun⟩ :=
              cleared.beginBuild_starts info (by rw [hBuild, hProgress])
            rw [hBegunDropped, hBegunSpawned, hBegun, hSpawned, hShare]
            exact ⟨hDropped, .starts info _ hAuto hNone hProgress⟩
        | true =>
            obtain ⟨hBegunDropped, hBegunSpawned, hBegun⟩ :=
              cleared.beginBuild_queues info (by rw [hBuild, hProgress])
            rw [hBegunDropped, hBegunSpawned, hBegun, hSpawned, hShare]
            exact ⟨hDropped, .queues info _ hAuto hNone hProgress⟩

variable {data} {self : Nat} {project : String} {lookup : Lookup}

/-- The task whose timer is kept ends the quiet period, if its lookup has come to something. -/
theorem elapse_expiry (hKept : data.timers.waiting.get? project = some self)
    (hFaithful : ∀ info, lookup = .found info → info.id = project)
    (hAnswered : lookup ≠ .panicked) :
    let decided := elapse { state := data, fresh := fresh } self project lookup
    decided.dropped = [] ∧
      Expiry lookup (data.share project) (decided.state.share project) decided.spawned := by
  have hClaim : data.timers.claim? project self = some (data.timers.cancel project) :=
    (Timers.claim?_eq_some_iff _ _ _ _).mpr ⟨hKept, rfl⟩
  unfold elapse
  dsimp only
  rw [hClaim]
  cases lookup with
  | found info =>
      obtain rfl := hFaithful info rfl
      exact trigger_expiry data fresh info
  | failed error =>
      have hShare : (claimedWork data fresh project).state.share project =
          { data.share project with timer := none } := by
        apply Share.ext
        · exact (Timers.get?_cancel _ _ _).trans (if_pos rfl)
        · rfl
        · rfl
        · rfl
      constructor
      · rfl
      · change Expiry _ _ ((claimedWork data fresh project).state.share project) []
        rw [hShare]
        exact .unknown error _
  | panicked => exact absurd rfl hAnswered

end

/-! ### Timers that are dropped -/

/-- Work that forgets every timer whose task it drops. -/
structure Work.Forgets (data : CoordinatorState) (work : Work) : Prop where
  keeps : work.Keeps data
  forgets : ∀ id ∈ work.dropped, ∃ asked, data.timers.waiting.get? asked = some id ∧
    work.state.timers.waiting.get? asked = none

/-- A turn that forgets every timer whose task it drops, or has another in its place. -/
def TurnForgets (data : CoordinatorState) (turn : CoordinatorTurn) : Prop :=
  ∀ id ∈ turn.dropped, ∃ asked, data.timers.waiting.get? asked = some id ∧
    turn.data.timers.waiting.get? asked ≠ some id

section

variable {data : CoordinatorState} {work : Work} {fresh : Nat} {project : String}

theorem Work.forgets_start (fresh : Nat) : Work.Forgets data { state := data, fresh := fresh } where
  keeps := fun _ _ hKept => hKept
  forgets := List.forall_mem_nil _

theorem Work.Forgets.map (hForgets : work.Forgets data)
    (change : CoordinatorState → CoordinatorState)
    (hTimers : (change work.state).timers = work.state.timers) :
    (work.map change).Forgets data where
  keeps := by
    intro asked id hKept
    change (change work.state).timers.waiting.get? asked = some id at hKept
    rw [hTimers] at hKept
    exact hForgets.keeps asked id hKept
  forgets := by
    change ∀ id ∈ work.dropped, ∃ asked, data.timers.waiting.get? asked = some id ∧
      (change work.state).timers.waiting.get? asked = none
    rw [hTimers]
    exact hForgets.forgets

theorem Work.Forgets.cancelTimer (hForgets : work.Forgets data) (project : String) :
    (work.cancelTimer project).Forgets data where
  keeps := Work.Keeps.cancel rfl hForgets.keeps
  forgets := by
    intro id hId
    rcases List.mem_append.mp hId with hOld | hStale
    · obtain ⟨asked, hKept, hNone⟩ := hForgets.forgets id hOld
      refine ⟨asked, hKept, ?_⟩
      change (work.state.timers.cancel project).waiting.get? asked = none
      rw [Timers.get?_cancel, hNone, ite_self]
    · refine ⟨project, hForgets.keeps project id ((Timers.mem_stale_iff _ _ _).mp hStale), ?_⟩
      exact (Timers.get?_cancel _ _ _).trans (if_pos rfl)

theorem Work.Forgets.beginBuild (hForgets : work.Forgets data) (project : String)
    (info : ProjectInfo) (explicit : Bool) :
    (work.beginBuild project info explicit).Forgets data := by
  unfold Work.beginBuild
  dsimp only
  cases work.state.builds.slot project with
  | queued => exact ⟨hForgets.keeps, hForgets.forgets⟩
  | started => exact ⟨hForgets.keeps, hForgets.forgets⟩

theorem Work.Forgets.trigger (hForgets : work.Forgets data) (info : ProjectInfo)
    (requireChanges : Bool) : (work.trigger info requireChanges).Forgets data := by
  have hCleared : ((work.cancelTimer info.id).clearBatches info.id).Forgets data :=
    (hForgets.cancelTimer info.id).map _ rfl
  unfold Work.trigger
  dsimp only
  split
  · exact hCleared.map _ rfl
  · split
    · exact hCleared
    · exact hCleared.beginBuild info.id info false

theorem Work.Forgets.startUpdate (hForgets : work.Forgets data) (project : String)
    (info : ProjectInfo) : (startUpdate work project info).Forgets data := by
  unfold Coordinator.startUpdate
  dsimp only
  split
  · exact (hForgets.cancelTimer project).beginBuild project info true
  · exact hForgets.beginBuild project info true

theorem Work.Forgets.turn (hForgets : work.Forgets data) (release : Bool)
    (next : Next Stage Query) : TurnForgets data (work.turn release next) := by
  intro id hId
  obtain ⟨asked, hKept, hNone⟩ := hForgets.forgets id hId
  refine ⟨asked, hKept, ?_⟩
  change work.state.timers.waiting.get? asked ≠ some id
  rw [hNone]
  exact nofun

theorem Work.Forgets.answer (hForgets : work.Forgets data) (request : Nat)
    (result : UpdateResult) : TurnForgets data (work.answer request result) :=
  (hForgets.map _ rfl).turn false .finish

theorem Work.Forgets.armTimer_answer (hForgets : work.Forgets data)
    (hBelow : ∀ asked id, data.timers.waiting.get? asked = some id → id < work.fresh)
    (project : String) (request : Nat) (result : UpdateResult) :
    TurnForgets data ((work.armTimer project).answer request result) := by
  intro id hId
  have hArmed (asked : String) (hKept : data.timers.waiting.get? asked = some id)
      (hGone : asked ≠ project → work.state.timers.waiting.get? asked = none) :
      (work.state.timers.arm project (work.fresh + work.spawned.length)).waiting.get? asked ≠
        some id := by
    rw [Timers.get?_arm]
    by_cases hSame : asked = project
    · rw [if_pos hSame]
      intro hNew
      have hLess := hBelow asked id hKept
      have hFresh := Option.some.inj hNew
      omega
    · rw [if_neg hSame, hGone hSame]
      exact nofun
  rcases List.mem_append.mp hId with hOld | hStale
  · obtain ⟨asked, hKept, hNone⟩ := hForgets.forgets id hOld
    exact ⟨asked, hKept, hArmed asked hKept fun _ => hNone⟩
  · have hKept := hForgets.keeps project id ((Timers.mem_stale_iff _ _ _).mp hStale)
    exact ⟨project, hKept, hArmed project hKept fun hOther => absurd rfl hOther⟩

theorem Work.Forgets.decide (hForgets : work.Forgets data)
    (hBelow : ∀ asked id, data.timers.waiting.get? asked = some id → id < work.fresh)
    (options : CoordinatorOptions) (change : Change) (info : ProjectInfo) (request : Nat)
    (result : UpdateResult) :
    TurnForgets data ((decide options work change info).answer request result) := by
  have hRecorded : (work.record change).Forgets data := hForgets.map _ rfl
  unfold Coordinator.decide
  dsimp only
  split
  · split
    · exact hForgets.armTimer_answer hBelow _ request result
    · exact hForgets.answer request result
  · split
    · split
      · exact (hRecorded.trigger info false).answer request result
      · split
        · exact (hRecorded.trigger info true).answer request result
        · exact hRecorded.answer request result
    · exact hRecorded.armTimer_answer hBelow _ request result

theorem elapse_forgets (self : Nat) (lookup : Lookup) :
    (elapse { state := data, fresh := fresh } self project lookup).Forgets data := by
  have hStart : Work.Forgets data { state := data, fresh := fresh } := Work.forgets_start fresh
  unfold elapse
  cases hClaim : data.timers.claim? project self with
  | none => exact hStart
  | some timers =>
      obtain ⟨_, hTimers⟩ := (Timers.claim?_eq_some_iff _ _ _ _).mp hClaim
      have hClaimed : (Work.map { state := data, fresh := fresh } fun state =>
          { state with timers := timers }).Forgets data := by
        refine ⟨?_, List.forall_mem_nil _⟩
        exact Work.Keeps.cancel hTimers fun _ _ hKept => hKept
      cases lookup with
      | found info => exact hClaimed.trigger info true
      | failed error => exact hClaimed
      | panicked => exact hClaimed

theorem proceed_forgets (options : CoordinatorOptions) (hForgets : work.Forgets data)
    (release : Bool) (change : Change) (info : ProjectInfo) :
    TurnForgets data (proceed options work release change info) := by
  unfold proceed
  split
  · exact hForgets.turn release _
  · exact hForgets.turn release _

theorem withProject_forgets (hForgets : work.Forgets data) (request : Nat) (project : String)
    (lookup : Lookup) {next : ProjectInfo → CoordinatorTurn}
    (hNext : ∀ info, TurnForgets data (next info)) :
    TurnForgets data (withProject work request project lookup next) := by
  cases lookup with
  | found info => exact hNext info
  | failed error => exact hForgets.answer request _
  | panicked => exact hForgets.answer request _

end

/-- No turn drops the task of a timer that is kept at its end. -/
theorem resume_forgets (options : CoordinatorOptions) (self fresh : Nat) (stage : Stage)
    (answer? : Option Answer) {data : CoordinatorState}
    (hBelow : ∀ asked id, data.timers.waiting.get? asked = some id → id < fresh) :
    TurnForgets data (resume options self fresh stage answer? data) := by
  have hStart : Work.Forgets data { state := data, fresh := fresh } := Work.forgets_start fresh
  cases stage with
  | updateFound project =>
      apply withProject_forgets hStart
      intro info
      unfold updateWith
      split
      · exact hStart.turn false _
      · exact (hStart.map _ rfl).answer self _
  | updateLocked project info => exact (hStart.startUpdate project info).answer self _
  | changeFound change =>
      exact withProject_forgets hStart self change.project _ fun _ => hStart.turn false _
  | changeTimer change info =>
      have hCancelled := hStart.cancelTimer change.project
      simp only [resume]
      unfold afterCancel
      split
      · exact hCancelled.turn true _
      · exact proceed_forgets options hCancelled true change info
  | changeLoaded change info =>
      simp only [resume]
      unfold afterLoad
      split
      · split
        · exact (hStart.map _ rfl).turn false _
        · exact proceed_forgets options hStart false change info
      · exact proceed_forgets options hStart false change info
  | changeApplied change info =>
      simp only [resume]
      split
      · exact hStart.turn false _
      · exact proceed_forgets options hStart false change info
      · exact hStart.answer self _
  | changeRefreshed change =>
      exact withProject_forgets hStart self change.project _
        fun info => proceed_forgets options hStart false change info
  | changeBuffer change info => exact (hStart.map _ rfl).turn true _
  | changeLocked change info => exact hStart.decide hBelow options change info self _
  | timerFound project =>
      simp only [resume]
      split
      · exact hStart.turn false _
      · exact hStart.turn false _
  | timerLocked project lookup => exact (elapse_forgets self lookup).turn false .finish
  | build info changes => exact ((hStart.map _ rfl).map _ rfl).turn false _
  | buildEnded project =>
      simp only [resume]
      unfold endBuild
      dsimp only
      split
      · exact (hStart.map _ rfl).turn false _
      · exact (hStart.map _ rfl).turn false _
  | followUpFound project followUp =>
      simp only [resume]
      unfold followUpWith abandon
      split
      · split
        · exact hStart.turn false _
        · exact ((hStart.map _ rfl).map _ rfl).turn false _
      · exact (hStart.map _ rfl).turn false _
      · exact hStart.turn false _
  | followUpLocked project info followUp =>
      exact (((hStart.map _ rfl).map _ rfl).map _ rfl).turn true _
  | _ => exact hStart.turn false _

theorem resume_timers_of_phase (options : CoordinatorOptions) (self fresh : Nat) {stage : Stage}
    {phase : Phase} (hPhase : stage.phase? = some phase) (answer? : Option Answer)
    (data : CoordinatorState) :
    (resume options self fresh stage answer? data).data.timers = data.timers := by
  cases stage with
  | build info changes => rfl
  | buildEnded project =>
      simp only [resume]
      unfold endBuild
      dsimp only
      split <;> rfl
  | followUpFound project followUp =>
      simp only [resume]
      unfold followUpWith abandon
      split
      · split <;> rfl
      · rfl
      · rfl
  | followUpLocked project info followUp => rfl
  | _ => cases hPhase

end Coordinator

end BuildWatch
