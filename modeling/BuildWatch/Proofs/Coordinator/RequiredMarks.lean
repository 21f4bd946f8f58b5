import BuildWatch.Proofs.Coordinator.OneBuild
import BuildWatch.Proofs.Coordinator.SettingsBatches

/-!
The mark that a project has to be built.  A request, a batch, a quiet period or a follow-up
leaves it when it finds that the project is not built on its own, and the next build that is
begun takes it away; a follow-up to a build starts with the mark as it is.  The reporter is told
when the mark is left, and never that it is gone.
-/

namespace BuildWatch

open BuildWatch.Tasks

/-- Whether a notice tells that a project has to be built, that a build of it is begun, or that
one starts. -/
def Notice.isMilestone : Notice → Bool
  | .required _ => true
  | .begun _ _ => true
  | .started _ => true
  | _ => false

/-- What a notice makes of the mark that a project has to be built. -/
def Notice.mark? (project : String) : Notice → Option Bool
  | .required marked => if marked = project then some true else none
  | .begun built _ => if built = project then some false else none
  | _ => none

/-- What the reporter is told with a notice of the mark that a project has to be built. -/
def Notice.markReport? (project : String) : Notice → Option Bool
  | .required marked => if marked = project then some true else none
  | _ => none

theorem Notice.mark?_eq_true_iff (notice : Notice) (project : String) :
    notice.mark? project = some true ↔ notice = .required project := by
  cases notice with
  | required marked => by_cases hSame : marked = project <;> simp [Notice.mark?, hSame]
  | begun built explicit => by_cases hSame : built = project <;> simp [Notice.mark?, hSame]
  | _ => simp [Notice.mark?]

theorem Notice.mark?_eq_false_iff (notice : Notice) (project : String) :
    notice.mark? project = some false ↔ ∃ explicit, notice = .begun project explicit := by
  cases notice with
  | required marked => by_cases hSame : marked = project <;> simp [Notice.mark?, hSame]
  | begun built explicit => by_cases hSame : built = project <;> simp [Notice.mark?, hSame]
  | _ => simp [Notice.mark?]

theorem Notice.markReport?_eq_some_iff (notice : Notice) (project : String) (report : Bool) :
    notice.markReport? project = some report ↔ report = true ∧ notice = .required project := by
  cases notice with
  | required marked =>
      by_cases hSame : marked = project
      · simp [Notice.markReport?, hSame, eq_comm]
      · simp [Notice.markReport?, hSame]
  | _ => simp [Notice.markReport?]

theorem Notice.isMilestone_of_mark? {notice : Notice} {project : String}
    (hMark : notice.mark? project ≠ none) : notice.isMilestone = true := by
  cases notice with
  | required marked => rfl
  | begun built explicit => rfl
  | started built => rfl
  | _ => exact absurd rfl hMark

def Lookup.info? : Lookup → Option ProjectInfo
  | .found info => some info
  | _ => none

namespace Coordinator

/-! ### The mark in what was told -/

def lastMark? (project : String) (history : List Notice) : Option Bool :=
  history.reverse.findSome? (Notice.mark? project)

def lastReport? (project : String) (history : List Notice) : Option Bool :=
  history.reverse.findSome? (Notice.markReport? project)

theorem lastMark?_append (project : String) (history more : List Notice) :
    lastMark? project (history ++ more) =
      (lastMark? project more).or (lastMark? project history) := by
  unfold lastMark?
  rw [List.reverse_append, List.findSome?_append]

theorem lastMark?_cons (project : String) (notice : Notice) (history : List Notice) :
    lastMark? project (notice :: history) =
      (lastMark? project history).or (notice.mark? project) := by
  have hFirst : lastMark? project [notice] = notice.mark? project := by
    cases hMark : notice.mark? project <;> simp [lastMark?, hMark]
  rw [← List.singleton_append, lastMark?_append, hFirst]

theorem exists_mem_of_lastMark? {project : String} {history : List Notice} {required : Bool}
    (hLast : lastMark? project history = some required) :
    ∃ notice ∈ history, notice.mark? project = some required := by
  obtain ⟨notice, hNotice, hMark⟩ := List.exists_of_findSome?_eq_some hLast
  exact ⟨notice, List.mem_reverse.mp hNotice, hMark⟩

/-- The last notice of the mark is one after which no other tells the opposite. -/
theorem lastMark?_eq_some_iff (project : String) (history : List Notice) (required : Bool) :
    lastMark? project history = some required ↔
      ∃ before notice after, history = before ++ notice :: after ∧
        notice.mark? project = some required ∧
          ∀ later ∈ after, later.mark? project ≠ some (!required) := by
  constructor
  · intro hLast
    obtain ⟨after, notice, before, hSplit, hMark, hSilent⟩ := List.findSome?_eq_some_iff.mp hLast
    refine ⟨before.reverse, notice, after.reverse, ?_, hMark, ?_⟩
    · have hReversed := congrArg List.reverse hSplit
      simpa using hReversed
    · intro later hLater hOpposite
      rw [hSilent later (List.mem_reverse.mp hLater)] at hOpposite
      cases hOpposite
  · rintro ⟨before, notice, after, rfl, hMark, hNoOther⟩
    rw [lastMark?_append, lastMark?_cons, hMark]
    cases hAfter : lastMark? project after with
    | none => rfl
    | some last =>
        obtain ⟨later, hLater, hLast⟩ := exists_mem_of_lastMark? hAfter
        have hSame : last = required := by
          by_contra hDistinct
          apply hNoOther later hLater
          rw [hLast, Bool.eq_not_of_ne hDistinct]
        rw [hSame]
        rfl

theorem lastMark?_eq_true_iff (project : String) (history : List Notice) :
    lastMark? project history = some true ↔
      ∃ before after, history = before ++ .required project :: after ∧
        ∀ explicit, .begun project explicit ∉ after := by
  rw [lastMark?_eq_some_iff]
  simp only [Notice.mark?_eq_true_iff, Bool.not_true, ne_eq, Notice.mark?_eq_false_iff]
  constructor
  · rintro ⟨before, notice, after, hSplit, rfl, hNone⟩
    exact ⟨before, after, hSplit, fun explicit hBegun => hNone _ hBegun ⟨explicit, rfl⟩⟩
  · rintro ⟨before, after, hSplit, hNone⟩
    refine ⟨before, _, after, hSplit, rfl, ?_⟩
    rintro later hLater ⟨explicit, rfl⟩
    exact hNone explicit hLater

theorem lastMark?_eq_false_iff (project : String) (history : List Notice) :
    lastMark? project history = some false ↔
      ∃ before explicit after, history = before ++ .begun project explicit :: after ∧
        .required project ∉ after := by
  rw [lastMark?_eq_some_iff]
  simp only [Notice.mark?_eq_false_iff, Bool.not_false, ne_eq, Notice.mark?_eq_true_iff]
  constructor
  · rintro ⟨before, notice, after, hSplit, ⟨explicit, rfl⟩, hNone⟩
    exact ⟨before, explicit, after, hSplit, fun hRequired => hNone _ hRequired rfl⟩
  · rintro ⟨before, explicit, after, hSplit, hNone⟩
    refine ⟨before, _, after, hSplit, ⟨explicit, rfl⟩, ?_⟩
    rintro later hLater rfl
    exact hNone hLater

/-- Where a mark was told of, the last notice is of one that is there or of one that is gone. -/
theorem lastMark?_eq_false_of_mem {project : String} {history : List Notice}
    (hRequired : .required project ∈ history) (hGone : lastMark? project history ≠ some true) :
    lastMark? project history = some false := by
  cases hLast : lastMark? project history with
  | none =>
      have hSilent := List.findSome?_eq_none_iff.mp hLast _ (List.mem_reverse.mpr hRequired)
      rw [(Notice.mark?_eq_true_iff _ project).mpr rfl] at hSilent
      cases hSilent
  | some last =>
      cases last with
      | false => rfl
      | true => exact absurd hLast hGone

theorem lastReport?_getD (project : String) (history : List Notice) :
    (lastReport? project history).getD false = true ↔ .required project ∈ history := by
  constructor
  · intro hReported
    cases hLast : lastReport? project history with
    | none =>
        rw [hLast] at hReported
        cases hReported
    | some report =>
        obtain ⟨notice, hNotice, hReport⟩ := List.exists_of_findSome?_eq_some hLast
        rw [← ((notice.markReport?_eq_some_iff project report).mp hReport).2]
        exact List.mem_reverse.mp hNotice
  · intro hRequired
    cases hLast : lastReport? project history with
    | none =>
        have hSilent := List.findSome?_eq_none_iff.mp hLast _ (List.mem_reverse.mpr hRequired)
        simp [Notice.markReport?] at hSilent
    | some report =>
        obtain ⟨notice, _, hReport⟩ := List.exists_of_findSome?_eq_some hLast
        exact ((notice.markReport?_eq_some_iff project report).mp hReport).1

/-! ### Milestones -/

/-- Between two moments some milestones were told, and marks are what these have made of
them. -/
structure Milestones (stones : List Notice) (before after : CoordinatorState) : Prop where
  told : ∃ told, after.history = before.history ++ told ∧ told.filter Notice.isMilestone = stones
  required : ∀ project, (after.builds.state project).required =
    (lastMark? project stones).getD (before.builds.state project).required

theorem Milestones.trans {before middle after : CoordinatorState} {stones more : List Notice}
    (hEarly : Milestones stones before middle) (hLate : Milestones more middle after) :
    Milestones (stones ++ more) before after where
  told := by
    obtain ⟨early, hTold, hEarlyStones⟩ := hEarly.told
    obtain ⟨late, hMore, hLateStones⟩ := hLate.told
    refine ⟨early ++ late, ?_, ?_⟩
    · rw [hMore, hTold, List.append_assoc]
    · rw [List.filter_append, hEarlyStones, hLateStones]
  required := by
    intro project
    rw [hLate.required, hEarly.required, lastMark?_append]
    cases lastMark? project more <;> rfl

theorem milestones_of_same {before after : CoordinatorState}
    (hBuilds : after.builds = before.builds) (hHistory : after.history = before.history) :
    Milestones [] before after where
  told := ⟨[], hHistory.trans (List.append_nil _).symm, rfl⟩
  required := by
    intro project
    rw [hBuilds]
    rfl

theorem milestones_tell (state : CoordinatorState) {notice : Notice}
    (hPlain : notice.isMilestone = false) : Milestones [] state (state.tell notice) where
  told := ⟨[notice], rfl, by simp [hPlain]⟩
  required := fun _ => rfl

theorem milestones_pending (state : CoordinatorState) (pending : Table (List ChangeEvent))
    {notice : Notice} (hPlain : notice.isMilestone = false) :
    Milestones [] state ({ state with pending := pending }.tell notice) where
  told := ⟨[notice], rfl, by simp [hPlain]⟩
  required := fun _ => rfl

theorem milestones_started (state : CoordinatorState) (project : String) :
    Milestones [.started project] state (state.tell (.started project)) where
  told := ⟨[.started project], rfl, rfl⟩
  required := fun _ => rfl

theorem milestones_setState (state : CoordinatorState) (project : String) {build : BuildState}
    (hRequired : build.required = (state.builds.state project).required) :
    Milestones [] state { state with builds := state.builds.setState project build } where
  told := ⟨[], (List.append_nil _).symm, rfl⟩
  required := by
    intro other
    change ((state.builds.setState project build).state other).required = _
    rw [Builds.state_setState]
    by_cases hSame : other = project
    · rw [if_pos hSame, hRequired, hSame]
      rfl
    · rw [if_neg hSame]
      rfl

theorem milestones_require (state : CoordinatorState) (project : String) :
    Milestones [.required project] state (state.require project) where
  told := ⟨[.required project], rfl, rfl⟩
  required := by
    intro other
    change ((state.builds.require project true).state other).required = _
    rw [Builds.state_require, lastMark?_cons]
    by_cases hSame : other = project
    · simp [lastMark?, Notice.mark?, hSame]
    · simp [lastMark?, Notice.mark?, hSame, Ne.symm hSame]

theorem required_finish (build : BuildState) : build.finish.required = build.required := by
  unfold BuildState.finish
  cases build.requested <;> rfl

theorem required_begin_queued {build : BuildState} (hProgress : build.inProgress = true)
    (explicit : Bool) : (build.begin explicit).required = build.required := by
  simp [BuildState.begin, hProgress]

theorem milestones_begin (state : CoordinatorState) (project : String) (explicit : Bool)
    (hIdle : (state.builds.state project).inProgress = false) :
    Milestones [.begun project explicit] state
      ({ state with builds := state.builds.begin project explicit }.tell
        (.begun project explicit)) where
  told := ⟨[.begun project explicit], rfl, rfl⟩
  required := by
    intro other
    change ((state.builds.begin project explicit).state other).required = _
    rw [Builds.state_begin, lastMark?_cons]
    by_cases hSame : other = project
    · simp [lastMark?, Notice.mark?, hSame, BuildState.begin, hIdle]
    · simp [lastMark?, Notice.mark?, hSame, Ne.symm hSame]

/-! ### Turns -/

/-- Between two moments one milestone was passed at most, and only projects of some kind were
marked as ones that have to be built. -/
def PassesOne (mayMark : String → Prop) (before after : CoordinatorState) : Prop :=
  ∃ stone?, Milestones (Option.toList stone?) before after ∧
    ∀ project, stone? = some (.required project) → mayMark project

section

variable {mayMark : String → Prop} {before middle after : CoordinatorState} {work : Work}

theorem Milestones.passesOne (hNone : Milestones [] before after) :
    PassesOne mayMark before after :=
  ⟨none, hNone, nofun⟩

theorem passesOne_of_same (hBuilds : after.builds = before.builds)
    (hHistory : after.history = before.history) : PassesOne mayMark before after :=
  (milestones_of_same hBuilds hHistory).passesOne

theorem PassesOne.precede (hOne : PassesOne mayMark middle after)
    (hNone : Milestones [] before middle) : PassesOne mayMark before after := by
  obtain ⟨stone?, hStones, hMark⟩ := hOne
  exact ⟨stone?, hNone.trans hStones, hMark⟩

theorem PassesOne.follow (hOne : PassesOne mayMark before middle)
    (hNone : Milestones [] middle after) : PassesOne mayMark before after := by
  obtain ⟨stone?, hStones, hMark⟩ := hOne
  refine ⟨stone?, ?_, hMark⟩
  have hAll := hStones.trans hNone
  rw [List.append_nil] at hAll
  exact hAll

theorem passesOne_require (state : CoordinatorState) {project : String}
    (hMark : mayMark project) : PassesOne mayMark state (state.require project) := by
  refine ⟨some (.required project), milestones_require state project, ?_⟩
  intro marked hSame
  cases hSame
  exact hMark

theorem Work.passesOne_beginBuild (work : Work) (project : String) (info : ProjectInfo)
    (explicit : Bool) :
    PassesOne mayMark work.state (work.beginBuild project info explicit).state := by
  unfold Work.beginBuild
  dsimp only
  cases hProgress : (work.state.builds.state project).inProgress with
  | true =>
      have hSlot : work.state.builds.slot project = .queued := if_pos hProgress
      have hQueued := milestones_setState work.state project
        (required_begin_queued hProgress explicit)
      rw [hSlot]
      exact (hQueued.trans (milestones_tell _ rfl)).passesOne
  | false =>
      have hSlot := (Builds.slot_eq_started_iff _ _).mpr hProgress
      have hBegun := milestones_begin work.state project explicit hProgress
      rw [hSlot]
      exact ⟨some (.begun project explicit), hBegun.trans (milestones_pending _ _ rfl), nofun⟩

theorem Work.passesOne_trigger (work : Work) {info : ProjectInfo} (requireChanges : Bool)
    (hMark : info.autoBuild = false → mayMark info.id) :
    PassesOne mayMark work.state (work.trigger info requireChanges).state := by
  have hCleared : Milestones [] work.state
      ((work.cancelTimer info.id).clearBatches info.id).state := milestones_of_same rfl rfl
  unfold Work.trigger
  dsimp only
  split
  · rename_i hOff
    exact (passesOne_require _ (hMark (by simpa using hOff))).precede hCleared
  · split
    · exact hCleared.passesOne
    · exact (Work.passesOne_beginBuild _ info.id info false).precede hCleared

theorem passesOne_startUpdate (work : Work) (project : String) (info : ProjectInfo) :
    PassesOne mayMark work.state (startUpdate work project info).state := by
  unfold startUpdate
  dsimp only
  split
  · exact (Work.passesOne_beginBuild _ project info true).precede (milestones_of_same rfl rfl)
  · exact work.passesOne_beginBuild project info true

theorem passesOne_decide (options : CoordinatorOptions) (work : Work) (chunk : Change)
    {info : ProjectInfo} (hMark : info.autoBuild = false → mayMark info.id) :
    PassesOne mayMark work.state (decide options work chunk info).state := by
  have hRecorded : Milestones [] work.state (work.record chunk).state :=
    milestones_of_same rfl rfl
  unfold decide
  dsimp only
  split
  · split
    · exact passesOne_of_same rfl rfl
    · exact passesOne_of_same rfl rfl
  · split
    · split
      · exact (Work.passesOne_trigger _ false hMark).precede hRecorded
      · split
        · exact (Work.passesOne_trigger _ true hMark).precede hRecorded
        · exact hRecorded.passesOne
    · exact passesOne_of_same rfl rfl

theorem passesOne_elapse (work : Work) (self : Nat) (project : String) {lookup : Lookup}
    (hMark : ∀ info, lookup = .found info → info.autoBuild = false → mayMark info.id) :
    PassesOne mayMark work.state (elapse work self project lookup).state := by
  unfold elapse
  cases work.state.timers.claim? project self with
  | none => exact passesOne_of_same rfl rfl
  | some timers =>
      cases lookup with
      | found info =>
          exact (Work.passesOne_trigger _ true (hMark info rfl)).precede
            (milestones_of_same rfl rfl)
      | failed error => exact passesOne_of_same rfl rfl
      | panicked => exact passesOne_of_same rfl rfl

theorem PassesOne.answer (hOne : PassesOne mayMark before work.state) (request : Nat)
    (result : UpdateResult) : PassesOne mayMark before (work.answer request result).data :=
  hOne.follow (milestones_tell _ rfl)

theorem withProject_passesOne (work : Work) {request : Nat} {project : String} {lookup : Lookup}
    {next : ProjectInfo → CoordinatorTurn}
    (hNext : ∀ info, lookup = .found info → PassesOne mayMark work.state (next info).data) :
    PassesOne mayMark work.state (withProject work request project lookup next).data := by
  have hStays : PassesOne mayMark work.state work.state := passesOne_of_same rfl rfl
  cases lookup with
  | found info => exact hNext info rfl
  | failed error => exact hStays.answer request _
  | panicked => exact hStays.answer request _

theorem proceed_data (options : CoordinatorOptions) (work : Work) (release : Bool)
    (chunk : Change) (info : ProjectInfo) :
    (proceed options work release chunk info).data = work.state := by
  unfold proceed
  split <;> rfl

theorem handOver_passesOne (options : CoordinatorOptions) (work : Work) (release : Bool)
    (info : ProjectInfo) (changes : Option (List ChangeEvent)) :
    PassesOne mayMark work.state (handOver options work release info changes).data :=
  ⟨some (.started info.id), (milestones_started work.state info.id).trans (milestones_tell _ rfl),
    nofun⟩

theorem endBuild_milestones (work : Work) (project : String) (result : BuildResult) :
    Milestones [] work.state (endBuild work project result).data := by
  have hTold (followUp? : Option FollowUp) : Milestones [] work.state
      ((work.state.tell (.finished project result)).tell (.passedOn project followUp?)) :=
    (milestones_tell _ rfl).trans (milestones_tell _ rfl)
  have hEnded := (hTold (work.state.builds.followUp? project)).trans
    (milestones_setState _ project (required_finish _))
  unfold endBuild
  dsimp only
  split
  · exact hEnded
  · exact hEnded

theorem abandon_milestones (work : Work) (project : String) :
    Milestones [] work.state (abandon work project).data :=
  milestones_setState work.state project rfl

end

/-- The info of the project at hand when a task decides on a build of it. -/
def Stage.decidesOn? (answer? : Option Answer) : Stage → Option ProjectInfo
  | .updateFound _ => (Answer.toLookup answer?).info?
  | .changeLocked _ info => some info
  | .timerLocked _ lookup => lookup.info?
  | .followUpFound _ _ => (Answer.toLookup answer?).info?
  | _ => none

/-- A turn passes one milestone at most, and marks a project only when it decides on a build
of it and finds it not built on its own. -/
theorem resume_passesOne (options : CoordinatorOptions) (self fresh : Nat) {stage : Stage}
    (answer? : Option Answer) (data : CoordinatorState) {mayMark : String → Prop}
    (hMark : ∀ info, stage.decidesOn? answer? = some info → info.autoBuild = false →
      mayMark info.id ∧ mayMark stage.project) :
    PassesOne mayMark data (resume options self fresh stage answer? data).data := by
  cases stage with
  | updateFound asked =>
      refine withProject_passesOne { state := data, fresh := fresh } ?_
      intro info hFound
      unfold updateWith
      split
      · exact passesOne_of_same rfl rfl
      · rename_i hOff
        have hMarked := hMark info (by simp [Stage.decidesOn?, hFound, Lookup.info?])
          (by simpa using hOff)
        exact PassesOne.answer (passesOne_require data hMarked.2) self _
  | updateLocked asked info =>
      exact PassesOne.answer
        (passesOne_startUpdate { state := data, fresh := fresh } asked info) self _
  | changeFound chunk =>
      exact withProject_passesOne { state := data, fresh := fresh }
        fun _ _ => passesOne_of_same rfl rfl
  | changeTimer chunk info =>
      simp only [resume]
      unfold afterCancel
      split
      · exact passesOne_of_same rfl rfl
      · rw [proceed_data]
        exact passesOne_of_same rfl rfl
  | changeLoaded chunk info =>
      simp only [resume]
      unfold afterLoad
      split
      · split
        · exact (milestones_tell data rfl).passesOne
        · rw [proceed_data]
          exact passesOne_of_same rfl rfl
      · rw [proceed_data]
        exact passesOne_of_same rfl rfl
  | changeApplied chunk info =>
      simp only [resume]
      split
      · exact passesOne_of_same rfl rfl
      · rw [proceed_data]
        exact passesOne_of_same rfl rfl
      · exact (milestones_tell data rfl).passesOne
  | changeRefreshed chunk =>
      refine withProject_passesOne { state := data, fresh := fresh } ?_
      intro info _
      rw [proceed_data]
      exact passesOne_of_same rfl rfl
  | changeBuffer chunk info =>
      exact (milestones_pending data _ rfl).passesOne
  | changeLocked chunk info =>
      exact PassesOne.answer (passesOne_decide options { state := data, fresh := fresh } chunk
        fun hOff => (hMark info rfl hOff).1) self _
  | timerFound asked =>
      simp only [resume]
      split <;> exact passesOne_of_same rfl rfl
  | timerLocked asked lookup =>
      refine passesOne_elapse { state := data, fresh := fresh } self asked ?_
      intro info hFound hOff
      exact (hMark info (by simp [Stage.decidesOn?, hFound, Lookup.info?]) hOff).1
  | build info changes =>
      exact handOver_passesOne options { state := data, fresh := fresh } false info changes
  | buildEnded asked =>
      exact (endBuild_milestones { state := data, fresh := fresh } asked _).passesOne
  | followUpFound asked followUp =>
      simp only [resume]
      cases hLookup : Answer.toLookup answer? with
      | found info =>
          simp only [followUpWith]
          split
          · exact passesOne_of_same rfl rfl
          · rename_i hOff
            have hMarked := hMark info (by simp [Stage.decidesOn?, hLookup, Lookup.info?])
              (by simpa using hOff)
            exact (passesOne_require data hMarked.2).follow
              (abandon_milestones { state := data.require asked, fresh := fresh } asked)
      | failed error =>
          exact (abandon_milestones { state := data, fresh := fresh } asked).passesOne
      | panicked => exact passesOne_of_same rfl rfl
  | followUpLocked asked info followUp =>
      exact PassesOne.precede (handOver_passesOne options _ true info _)
        (milestones_pending data _ rfl)
  | _ => exact passesOne_of_same rfl rfl

/-! ### Events -/

/-- Whether an event is a turn in which a task of a project decides on a build of it and finds
that the project is not built on its own. -/
def Event.findsOff (project : String) (system : CoordinatorSystem) : Event → Bool
  | .poll id surrounding => (system.task? id).any fun task =>
      task.stage.project == project &&
        (system.grant? surrounding.answer task).any fun answer? =>
          (task.stage.decidesOn? answer?).any fun info => !info.autoBuild
  | _ => false

theorem happen_passesOne (options : CoordinatorOptions) (system : CoordinatorSystem)
    (event : Event) {mayMark : String → Prop}
    (hMark : ∀ id surrounding task answer? info, event = .poll id surrounding →
      system.task? id = some task → system.grant? surrounding.answer task = some answer? →
        task.stage.decidesOn? answer? = some info → info.autoBuild = false →
          mayMark info.id ∧ mayMark task.stage.project) :
    PassesOne mayMark system.data (happen options system event).data := by
  cases event with
  | update project =>
      simp only [happen]
      cases (Event.update project).call? <;> exact passesOne_of_same rfl rfl
  | notify notification =>
      simp only [happen]
      cases (Event.notify notification).call? <;> exact passesOne_of_same rfl rfl
  | shutdown =>
      simp only [happen, shutdown, System.foldl_remove_data]
      exact passesOne_of_same rfl rfl
  | pass duration => exact passesOne_of_same rfl rfl
  | reorder ready => exact passesOne_of_same rfl rfl
  | poll id surrounding =>
      simp only [happen]
      rcases pollTask_cases options system id surrounding with ⟨locks, hPoll, _⟩ |
        ⟨locks, task, answer?, hFound, hGrant, hPoll⟩
      · rw [hPoll]
        exact passesOne_of_same rfl rfl
      · rw [hPoll, System.applyTurn_data]
        apply resume_passesOne
        intro info hDecides hOff
        exact hMark id surrounding task answer? info rfl hFound hGrant hDecides hOff

theorem Stage.decidesOn?_id {circumstances : Circumstances} {options : CoordinatorOptions}
    {stage : Stage} {wait : Wait Query} {answer? : Option Answer} {info : ProjectInfo}
    (hAwaits : stage.Awaits options wait) (hInformed : stage.Informed circumstances)
    (hReplies : Replies circumstances wait answer?)
    (hDecides : stage.decidesOn? answer? = some info) : info.id = stage.project := by
  have hAsked (project : String) (hWait : wait = .answer (.lookUp project))
      (hInfo : (Answer.toLookup answer?).info? = some info) : info.id = project := by
    rw [hWait] at hReplies
    obtain ⟨lookup, hLookup, hAnswer⟩ := hReplies
    rw [hAnswer] at hInfo
    cases lookup with
    | found other =>
        cases hInfo
        exact circumstances.faithful _ _ hLookup
    | failed error => cases hInfo
    | panicked => cases hInfo
  cases stage with
  | updateFound project => exact hAsked project hAwaits hDecides
  | followUpFound project followUp => exact hAsked project hAwaits hDecides
  | changeLocked chunk other =>
      cases hDecides
      exact Stage.info_id hInformed rfl
  | timerLocked project lookup =>
      apply Stage.info_id hInformed
      cases lookup with
      | found other => exact hDecides
      | failed error => cases hDecides
      | panicked => cases hDecides
  | _ => cases hDecides

theorem Sound.happen_passesOne {circumstances : Circumstances} {options : CoordinatorOptions}
    {system : CoordinatorSystem} (hSound : Sound circumstances options system) {event : Event}
    (hWithin : event.Within circumstances) :
    PassesOne (fun project => event.findsOff project system = true) system.data
      (Coordinator.happen options system event).data := by
  apply Coordinator.happen_passesOne
  rintro id surrounding task answer? info rfl hFound hGrant hDecides hOff
  obtain ⟨hTask, _⟩ := (hSound.task?_eq_some_iff id task).mp hFound
  have hFinds : (Event.poll id surrounding).findsOff task.stage.project system = true := by
    simp [Event.findsOff, hFound, hGrant, hDecides, hOff]
  have hId := Stage.decidesOn?_id (hSound.awaits task hTask) (hSound.informed task hTask)
    (replies_of_grant hWithin hGrant) hDecides
  exact ⟨hId ▸ hFinds, hFinds⟩

/-! ### Runs -/

def Run.isBuildRequired (run : Run) (project : String) : Bool :=
  (run.state.builds.state project).required

theorem lastMark?_filter (project : String) (history : List Notice) :
    lastMark? project (history.filter Notice.isMilestone) = lastMark? project history := by
  induction history with
  | nil => rfl
  | cons notice rest ih =>
      rw [lastMark?_cons, List.filter_cons]
      by_cases hStone : notice.isMilestone = true
      · rw [if_pos hStone, lastMark?_cons, ih]
      · have hNone : notice.mark? project = none := by
          by_contra hMark
          exact hStone (Notice.isMilestone_of_mark? hMark)
        rw [if_neg hStone, ih, hNone, Option.or_none]

/-- A mark is at every moment what was told of it last. -/
theorem Run.isBuildRequired_eq (options : CoordinatorOptions) (events : List Event)
    (project : String) :
    (Run.after options events).isBuildRequired project =
      (lastMark? project (Run.after options events).history).getD false := by
  induction events using List.reverseRecOn with
  | nil => rfl
  | append_singleton earlier event ih =>
      have hOne : PassesOne (fun _ => True) (Run.after options earlier).state
          ((Run.after options earlier).extend options [event]).state :=
        happen_passesOne options _ event (by intros; exact ⟨trivial, trivial⟩)
      rw [Run.after_append]
      obtain ⟨stone?, hStones, _⟩ := hOne
      obtain ⟨told, hTold, hFilter⟩ := hStones.told
      have hHistory : ((Run.after options earlier).extend options [event]).history =
          (Run.after options earlier).history ++ told := hTold
      rw [hHistory, lastMark?_append, ← lastMark?_filter project told, hFilter]
      refine (hStones.required project).trans ?_
      cases lastMark? project stone?.toList with
      | none => exact ih
      | some last => rfl

theorem Run.isBuildRequired_iff (options : CoordinatorOptions) (events : List Event)
    (project : String) :
    (Run.after options events).isBuildRequired project = true ↔
      lastMark? project (Run.after options events).history = some true := by
  rw [Run.isBuildRequired_eq]
  cases lastMark? project (Run.after options events).history <;> simp

section

variable (options : CoordinatorOptions) (events : List Event)

/-- The mark that a project has to be built is there exactly if it was left since a build of the
project was begun last.  Beginning a build takes it away; the start of one, which may be a
follow-up, leaves it as it is; and it is left only when a task of the project decides on a build
and finds the project not built on its own. -/
theorem required_since_begun (hEvents : ∀ event ∈ events, event.Within .faithfulInfos)
    (project : String) :
    let run := Run.after options events
    (run.isBuildRequired project = true ↔
      ∃ before after, run.history = before ++ .required project :: after ∧
        ∀ explicit, .begun project explicit ∉ after) ∧
    ∀ event, event.Within .faithfulInfos →
      ∃ told, (run.step options event).history = run.history ++ told ∧
        (∀ explicit, .begun project explicit ∈ told →
          (run.step options event).isBuildRequired project = false) ∧
        (.started project ∈ told →
          (run.step options event).isBuildRequired project = run.isBuildRequired project) ∧
        (.required project ∈ told → event.findsOff project run.system = true) := by
  have hSound := Run.sound options events hEvents
  refine ⟨?_, ?_⟩
  · rw [Run.isBuildRequired_iff, lastMark?_eq_true_iff]
  · intro event hWithin
    obtain ⟨stone?, hStones, hMark⟩ := hSound.happen_passesOne hWithin
    obtain ⟨told, hTold, hFilter⟩ := hStones.told
    -- One event tells one milestone at most, so a milestone that it tells is all of them.
    have hOnly (stone : Notice) (hStone : stone.isMilestone = true) (hMem : stone ∈ told) :
        stone? = some stone := by
      have hStays := List.mem_filter.mpr ⟨hMem, hStone⟩
      rw [hFilter] at hStays
      exact Option.mem_toList.mp hStays
    refine ⟨told, hTold, ?_, ?_, ?_⟩
    · intro explicit hBegun
      have hRequired := hStones.required project
      rw [hOnly _ rfl hBegun] at hRequired
      exact hRequired.trans (by simp [lastMark?, Notice.mark?])
    · intro hStarted
      have hRequired := hStones.required project
      rw [hOnly _ rfl hStarted] at hRequired
      exact hRequired
    · intro hRequired
      exact hMark project (hOnly _ rfl hRequired)

/-- A request comes while the build of another is at work, and finds the project not built on
its own. -/
def markedDuringBuild : List Event :=
  .update "a" :: turns 0 3 ++ turns 1 1 ++ .update "a" :: List.replicate 2 (.poll 2 manual)

/-- A third request is queued, the build ends, and only the start of its follow-up is missing. -/
def followUpDue : List Event :=
  markedDuringBuild ++ .update "a" :: turns 3 3 ++
    .poll 1 (steady (some (.done .rebuilt))) :: turns 1 1

theorem within_followUpDue : ∀ event ∈ followUpDue, event.Within .faithfulInfos := by
  have hEach : ∀ event ∈ followUpDue, event.Steady ∨ event = .poll 2 manual := by
    simp [followUpDue, markedDuringBuild, turns, Event.Steady]
  intro event hEvent
  rcases hEach event hEvent with hSteady | rfl
  · exact hSteady.within (by rintro project info ⟨⟩; rfl) trivial
  · refine ⟨?_, fun _ _ => trivial⟩
    rintro project info ⟨⟩
    rfl

/-- The mark was left by the request in between, since the build at work was begun, and the
start of the follow-up does not touch it. -/
theorem required_since_begun_duringBuild :
    let run := Run.after { quietPeriod := 1 } followUpDue
    let next := run.step { quietPeriod := 1 } (.poll 1 (steady none))
    (run.isBuildRequired "a" = true ∧
      ∃ before after, run.history = before ++ .required "a" :: after ∧
        ∀ explicit, .begun "a" explicit ∉ after) ∧
    ∃ told, next.history = run.history ++ told ∧
      (.started "a" ∈ told → next.isBuildRequired "a" = run.isBuildRequired "a") := by
  obtain ⟨hSince, hStep⟩ := required_since_begun { quietPeriod := 1 } followUpDue
    within_followUpDue "a"
  have hRequired : (Run.after { quietPeriod := 1 } followUpDue).isBuildRequired "a" = true := by
    decide
  have hWithin : (Event.poll 1 (steady none)).Within .faithfulInfos := by
    refine ⟨?_, fun _ _ => trivial⟩
    rintro project info ⟨⟩
    rfl
  obtain ⟨told, hTold, _, hStarted, _⟩ := hStep (.poll 1 (steady none)) hWithin
  exact ⟨⟨hRequired, hSince.mp hRequired⟩, told, hTold, hStarted⟩

/-- The follow-up starts, and the project is still marked as one that has to be built. -/
theorem required_when_followUpStarts :
    let run := Run.after { quietPeriod := 1 } followUpDue
    let next := run.step { quietPeriod := 1 } (.poll 1 (steady none))
    reports "a" run.history = [.started, .finished] ∧
      reports "a" next.history = [.started, .finished, .started] ∧
      next.isBuildRequired "a" = true := by
  decide

/-- The reporter is told of every mark when it is left, so that it knows of all that are there;
and what it knows is wrong exactly if a build was begun after a mark and none was left since. -/
theorem required_reported (project : String) :
    let run := Run.after options events
    let reported := (lastReport? project run.history).getD false
    (run.isBuildRequired project = true → reported = true) ∧
      (reported ≠ run.isBuildRequired project ↔
        ∃ before explicit after, run.history = before ++ .begun project explicit :: after ∧
          .required project ∈ before ∧ .required project ∉ after) := by
  dsimp only
  have hRequired := Run.isBuildRequired_iff options events project
  generalize (Run.after options events).history = history at hRequired ⊢
  have hKnows : (Run.after options events).isBuildRequired project = true →
      (lastReport? project history).getD false = true := by
    intro hMarked
    obtain ⟨before, after, hSplit, _⟩ := (lastMark?_eq_true_iff _ _).mp (hRequired.mp hMarked)
    rw [lastReport?_getD, hSplit]
    exact List.mem_append_right _ List.mem_cons_self
  refine ⟨hKnows, ?_⟩
  constructor
  · intro hWrong
    have hUnmarked : (Run.after options events).isBuildRequired project = false := by
      by_contra hMarked
      rw [Bool.not_eq_false] at hMarked
      exact hWrong ((hKnows hMarked).trans hMarked.symm)
    rw [hUnmarked, ne_eq, Bool.not_eq_false, lastReport?_getD] at hWrong
    have hLast := lastMark?_eq_false_of_mem hWrong
      fun hLast => Bool.eq_false_iff.mp hUnmarked (hRequired.mpr hLast)
    obtain ⟨before, explicit, after, hSplit, hNone⟩ := (lastMark?_eq_false_iff _ _).mp hLast
    refine ⟨before, explicit, after, hSplit, ?_, hNone⟩
    rw [hSplit] at hWrong
    simpa [hNone] using hWrong
  · rintro ⟨before, explicit, after, hSplit, hReported, hNone⟩ hSame
    have hLast := (lastMark?_eq_false_iff project history).mpr
      ⟨before, explicit, after, hSplit, hNone⟩
    have hKnown : (lastReport? project history).getD false = true := by
      rw [lastReport?_getD, hSplit]
      exact List.mem_append_left _ hReported
    rw [hSame, hRequired, hLast] at hKnown
    cases hKnown

/-- A request finds the project not built on its own, and the next one begins a build. -/
def markedThenBegun : List Event :=
  .update "a" :: List.replicate 2 (.poll 0 manual) ++ .update "a" :: turns 1 3

/-- The mark is gone, and the reporter still holds it to be there. -/
theorem reported_after_begun :
    let run := Run.after { quietPeriod := 1 } markedThenBegun
    lastReport? "a" run.history = some true ∧ run.isBuildRequired "a" = false := by
  decide

end

end Coordinator

end BuildWatch
