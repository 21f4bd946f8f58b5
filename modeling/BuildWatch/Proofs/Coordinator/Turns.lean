import BuildWatch.Proofs.Coordinator.Runs

/-!
The single turns of a coordinator.  The stage of a task says what it waits for and
what it has learned; a turn leads to a stage that is right in both respects, drops
only tasks that wait for a quiet period, and keeps only such tasks as timers.
-/

namespace BuildWatch

open BuildWatch.Tasks

namespace Coordinator

/-! ### Stages -/

namespace Stage

def project : Stage → String
  | .update project => project
  | .updateFound project => project
  | .updateLocked project _ => project
  | .change chunk => chunk.project
  | .changeFound chunk => chunk.project
  | .changeTimer chunk _ => chunk.project
  | .changeLoaded chunk _ => chunk.project
  | .changeApplied chunk _ => chunk.project
  | .changeRefreshed chunk => chunk.project
  | .changeBuffer chunk _ => chunk.project
  | .changeLocked chunk _ => chunk.project
  | .timer project => project
  | .timerElapsed project => project
  | .timerFound project => project
  | .timerLocked project _ => project
  | .build info _ => info.id
  | .buildEnded project => project
  | .followUpFound project _ => project
  | .followUpLocked project _ _ => project

def change? : Stage → Option Change
  | .change chunk => some chunk
  | .changeFound chunk => some chunk
  | .changeTimer chunk _ => some chunk
  | .changeLoaded chunk _ => some chunk
  | .changeApplied chunk _ => some chunk
  | .changeRefreshed chunk => some chunk
  | .changeBuffer chunk _ => some chunk
  | .changeLocked chunk _ => some chunk
  | _ => none

def update? : Stage → Option String
  | .update project => some project
  | .updateFound project => some project
  | .updateLocked project _ => some project
  | _ => none

def call? (stage : Stage) : Option Call :=
  (stage.change?.map Call.notify).or (stage.update?.map Call.update)

def quiet? : Stage → Option String
  | .timer project => some project
  | .timerElapsed project => some project
  | .timerFound project => some project
  | .timerLocked project _ => some project
  | _ => none

/-- What a task at a stage waits for. -/
def Awaits (options : CoordinatorOptions) : Stage → Wait Query → Prop
  | .update _, wait => wait = .turn
  | .updateFound project, wait => wait = .answer (.lookUp project)
  | .updateLocked _ _, wait => wait = .locks
  | .change _, wait => wait = .turn
  | .changeFound chunk, wait => wait = .answer (.lookUp chunk.project)
  | .changeTimer _ _, wait => wait = .locks
  | .changeLoaded _ info, wait => wait = .answer (.loadSettings (info.pathOf options.settingsFile))
  | .changeApplied _ info, wait => ∃ settings, wait = .answer (.applySettings info.id settings)
  | .changeRefreshed chunk, wait => wait = .answer (.lookUp chunk.project)
  | .changeBuffer _ _, wait => wait = .locks
  | .changeLocked _ _, wait => wait = .locks
  | .timer _, wait => wait = .turn
  | .timerElapsed _, wait => ∃ due, wait = .clock due
  | .timerFound project, wait => wait = .answer (.lookUp project)
  | .timerLocked _ _, wait => wait = .locks
  | .build _ _, wait => wait = .turn
  | .buildEnded project, wait =>
      ∃ info changes, info.id = project ∧ wait = .answer (.build (options.operation info) changes)
  | .followUpFound project _, wait => wait = .answer (.lookUp project)
  | .followUpLocked _ _ _, wait => wait = .locks

/-- What a task has learned could be learned under the circumstances. -/
def Informed (circumstances : Circumstances) : Stage → Prop
  | .updateLocked project info => circumstances.lookup project (.found info)
  | .changeTimer chunk info => circumstances.lookup chunk.project (.found info)
  | .changeLoaded chunk info => circumstances.lookup chunk.project (.found info)
  | .changeApplied chunk info => circumstances.lookup chunk.project (.found info)
  | .changeBuffer chunk info => circumstances.lookup chunk.project (.found info)
  | .changeLocked chunk info => circumstances.lookup chunk.project (.found info)
  | .timerLocked project lookup => circumstances.lookup project lookup
  | .build info _ => circumstances.lookup info.id (.found info)
  | .followUpLocked project info _ => circumstances.lookup project (.found info)
  | _ => True

end Stage

/-! ### Answers -/

/-- An answer that a task may be resumed with under the circumstances. -/
def Replies (circumstances : Circumstances) : Wait Query → Option Answer → Prop
  | .answer (.lookUp project), answer? =>
      ∃ lookup, circumstances.lookup project lookup ∧ answer? = some (.lookup lookup)
  | .answer (.applySettings _ _), answer? =>
      ∃ result, circumstances.settings result ∧ answer? = some (.applied result)
  | _, _ => True

theorem replies_of_grant {circumstances : Circumstances} {system : CoordinatorSystem}
    {surrounding : Surrounding Id} {task : Task Stage Query} {id : Nat} {answer? : Option Answer}
    (hWithin : (Event.poll id surrounding).Within circumstances)
    (hGrant : system.grant? surrounding.answer task = some answer?) :
    Replies circumstances task.wait answer? := by
  obtain ⟨hLookup, hSettings⟩ := hWithin
  unfold System.grant? at hGrant
  cases hWait : task.wait with
  | turn => trivial
  | clock due => trivial
  | locks => trivial
  | answer query =>
      rw [hWait] at hGrant
      cases query with
      | lookUp project =>
          refine ⟨surrounding.lookUp project, hLookup project, ?_⟩
          exact (Option.some.inj hGrant).symm
      | loadSettings path => trivial
      | applySettings project settings =>
          refine ⟨surrounding.applySettings project settings, hSettings project settings, ?_⟩
          exact (Option.some.inj hGrant).symm
      | build operation changes => trivial

/-! ### Turns -/

structure TurnSound (circumstances : Circumstances) (options : CoordinatorOptions) (fresh : Nat)
    (stage : Stage) (data : CoordinatorState) (turn : CoordinatorTurn) : Prop where
  next : ∀ later, turn.next.stage? = some later →
    (∀ now, later.Awaits options (turn.next.wait now)) ∧ later.Informed circumstances ∧
      later.quiet? = stage.quiet?
  spawned : ∀ new ∈ turn.spawned,
    new.Awaits options .turn ∧ new.Informed circumstances ∧ new.call? = none
  dropped : ∀ id ∈ turn.dropped, ∃ project, data.timers.waiting.get? project = some id
  /-- A task that waits for a quiet period and goes on drops no other. -/
  keeps : stage.quiet?.isSome → turn.next.stage? = none ∨ turn.dropped = []
  timers : ∀ project id, turn.data.timers.waiting.get? project = some id →
    data.timers.waiting.get? project = some id ∨
      ∃ index, turn.spawned[index]? = some (.timer project) ∧ id = fresh + index

/-- What holds of the work of a turn as long as it begins no quiet period. -/
structure Work.Tidy (circumstances : Circumstances) (options : CoordinatorOptions)
    (data : CoordinatorState) (work : Work) : Prop where
  spawned : ∀ new ∈ work.spawned,
    new.Awaits options .turn ∧ new.Informed circumstances ∧ new.call? = none
  dropped : ∀ id ∈ work.dropped, ∃ project, data.timers.waiting.get? project = some id
  timers : ∀ project id, work.state.timers.waiting.get? project = some id →
    data.timers.waiting.get? project = some id

section

variable {circumstances : Circumstances} {options : CoordinatorOptions}
variable {data : CoordinatorState} {work : Work}

theorem Work.tidy_start (fresh : Nat) :
    Work.Tidy circumstances options data { state := data, fresh := fresh } where
  spawned := by
    intro new hNew
    cases hNew
  dropped := by
    intro id hId
    cases hId
  timers := fun _ _ hKept => hKept

theorem Work.Tidy.map (hTidy : work.Tidy circumstances options data)
    (change : CoordinatorState → CoordinatorState)
    (hTimers : (change work.state).timers = work.state.timers) :
    (work.map change).Tidy circumstances options data where
  spawned := hTidy.spawned
  dropped := hTidy.dropped
  timers := by
    intro project id hKept
    exact hTidy.timers project id (hTimers ▸ hKept)

theorem Work.Tidy.cancelTimer (hTidy : work.Tidy circumstances options data) (project : String) :
    (work.cancelTimer project).Tidy circumstances options data where
  spawned := hTidy.spawned
  dropped := by
    intro id hId
    rcases List.mem_append.mp hId with hOld | hStale
    · exact hTidy.dropped id hOld
    · exact ⟨project, hTidy.timers project id ((Timers.mem_stale_iff _ _ _).mp hStale)⟩
  timers := by
    intro other id hKept
    change (work.state.timers.cancel project).waiting.get? other = some id at hKept
    rw [Timers.get?_cancel] at hKept
    by_cases hSame : other = project
    · rw [if_pos hSame] at hKept
      cases hKept
    · rw [if_neg hSame] at hKept
      exact hTidy.timers other id hKept

theorem Work.Tidy.beginBuild (hTidy : work.Tidy circumstances options data) (project : String)
    (info : ProjectInfo) (explicit : Bool) (hInfo : circumstances.lookup info.id (.found info)) :
    (work.beginBuild project info explicit).Tidy circumstances options data := by
  unfold Work.beginBuild
  dsimp only
  cases work.state.builds.slot project with
  | queued => exact ⟨hTidy.spawned, hTidy.dropped, hTidy.timers⟩
  | started =>
      refine ⟨?_, hTidy.dropped, hTidy.timers⟩
      intro new hNew
      rcases List.mem_append.mp hNew with hOld | hBuild
      · exact hTidy.spawned new hOld
      · rw [List.mem_singleton.mp hBuild]
        exact ⟨rfl, hInfo, rfl⟩

theorem Work.Tidy.trigger (hTidy : work.Tidy circumstances options data) (info : ProjectInfo)
    (requireChanges : Bool) (hInfo : circumstances.lookup info.id (.found info)) :
    (work.trigger info requireChanges).Tidy circumstances options data := by
  have hCleared : ((work.cancelTimer info.id).clearBatches info.id).Tidy circumstances options
      data := (hTidy.cancelTimer info.id).map _ rfl
  unfold Work.trigger
  dsimp only
  split
  · exact hCleared.map _ rfl
  · split
    · exact hCleared
    · exact hCleared.beginBuild info.id info false hInfo

theorem Work.Tidy.startUpdate (hTidy : work.Tidy circumstances options data) (project : String)
    (info : ProjectInfo) (hInfo : circumstances.lookup info.id (.found info)) :
    (startUpdate work project info).Tidy circumstances options data := by
  unfold Coordinator.startUpdate
  dsimp only
  split
  · exact (hTidy.cancelTimer project).beginBuild project info true hInfo
  · exact hTidy.beginBuild project info true hInfo

theorem Work.Tidy.elapse (hTidy : work.Tidy circumstances options data) (self : Nat)
    (project : String) (lookup : Lookup) (hLookup : circumstances.lookup project lookup) :
    (elapse work self project lookup).Tidy circumstances options data := by
  unfold Coordinator.elapse
  cases hClaim : work.state.timers.claim? project self with
  | none => exact hTidy
  | some timers =>
      obtain ⟨_, hTimers⟩ := (Timers.claim?_eq_some_iff _ _ _ _).mp hClaim
      have hClaimed : (work.map fun state => { state with timers := timers }).Tidy circumstances
          options data := by
        refine ⟨hTidy.spawned, hTidy.dropped, ?_⟩
        exact hTimers ▸ (hTidy.cancelTimer project).timers
      cases lookup with
      | found info =>
          refine hClaimed.trigger info true ?_
          rw [circumstances.faithful project info hLookup]
          exact hLookup
      | failed error => exact hClaimed
      | panicked => exact hClaimed

/-! ### The turns of a coordinator -/

theorem Work.Tidy.turn (hTidy : work.Tidy circumstances options data) (fresh : Nat)
    {stage : Stage} (release : Bool) (next : Next Stage Query)
    (hNext : ∀ later, next.stage? = some later →
      (∀ now, later.Awaits options (next.wait now)) ∧ later.Informed circumstances ∧
        later.quiet? = stage.quiet?)
    (hKeeps : stage.quiet?.isSome → next.stage? = none ∨ work.dropped = []) :
    TurnSound circumstances options fresh stage data (work.turn release next) where
  next := hNext
  spawned := hTidy.spawned
  dropped := hTidy.dropped
  keeps := hKeeps
  timers := fun project id hKept => Or.inl (hTidy.timers project id hKept)

theorem Work.Tidy.finish (hTidy : work.Tidy circumstances options data) (fresh : Nat)
    (stage : Stage) :
    TurnSound circumstances options fresh stage data work.finish := by
  refine hTidy.turn fresh false .finish ?_ (fun _ => Or.inl rfl)
  intro later hLater
  cases hLater

theorem Work.Tidy.answer (hTidy : work.Tidy circumstances options data) (fresh : Nat)
    (stage : Stage) (request : Nat) (result : UpdateResult) :
    TurnSound circumstances options fresh stage data (work.answer request result) :=
  (hTidy.map _ rfl).finish fresh stage

theorem Work.Tidy.armTimer_answer {fresh : Nat} (hTidy : work.Tidy circumstances options data)
    (hFresh : work.fresh = fresh) (stage : Stage) (project : String) (request : Nat)
    (result : UpdateResult) :
    TurnSound circumstances options fresh stage data
      ((work.armTimer project).answer request result) where
  next := by
    intro later hLater
    cases hLater
  spawned := by
    intro new hNew
    rcases List.mem_append.mp hNew with hOld | hTimer
    · exact hTidy.spawned new hOld
    · have hNew := List.mem_singleton.mp hTimer
      subst hNew
      exact ⟨rfl, trivial, rfl⟩
  dropped := (hTidy.cancelTimer project).dropped
  keeps := fun _ => Or.inl rfl
  timers := by
    intro other id hKept
    change (work.state.timers.arm project (work.fresh + work.spawned.length)).waiting.get? other =
      some id at hKept
    rw [Timers.get?_arm] at hKept
    by_cases hSame : other = project
    · rw [if_pos hSame] at hKept
      refine Or.inr ⟨work.spawned.length, ?_, ?_⟩
      · subst hSame
        exact List.getElem?_concat_length
      · rw [← hFresh]
        exact (Option.some.inj hKept).symm
    · rw [if_neg hSame] at hKept
      exact Or.inl (hTidy.timers other id hKept)

theorem proceed_sound {fresh : Nat} {stage : Stage} (hTidy : work.Tidy circumstances options data)
    (release : Bool) (change : Change) (info : ProjectInfo) (hQuiet : stage.quiet? = none)
    (hInfo : circumstances.lookup change.project (.found info)) :
    TurnSound circumstances options fresh stage data
      (proceed options work release change info) := by
  have hKeeps (next : Next Stage Query) :
      stage.quiet?.isSome → next.stage? = none ∨ work.dropped = [] := by
    intro hSome
    rw [hQuiet] at hSome
    cases hSome
  unfold proceed
  split
  · refine hTidy.turn fresh release _ ?_ (hKeeps _)
    intro later hLater
    cases hLater
    exact ⟨fun _ => rfl, hInfo, hQuiet.symm⟩
  · refine hTidy.turn fresh release _ ?_ (hKeeps _)
    intro later hLater
    cases hLater
    exact ⟨fun _ => rfl, hInfo, hQuiet.symm⟩

theorem withProject_sound {fresh : Nat} {stage : Stage}
    (hTidy : work.Tidy circumstances options data) (request : Nat) (project : String)
    {lookup : Lookup} {next : ProjectInfo → CoordinatorTurn}
    (hNext : ∀ info, lookup = .found info →
      TurnSound circumstances options fresh stage data (next info)) :
    TurnSound circumstances options fresh stage data
      (withProject work request project lookup next) := by
  cases lookup with
  | found info => exact hNext info rfl
  | failed error => exact hTidy.answer fresh stage request _
  | panicked => exact hTidy.answer fresh stage request _

theorem afterLoad_sound {fresh : Nat} {stage : Stage}
    (hTidy : work.Tidy circumstances options data) (change : Change) (info : ProjectInfo)
    (settings? : Option Settings) (hQuiet : stage.quiet? = none)
    (hInfo : circumstances.lookup change.project (.found info)) :
    TurnSound circumstances options fresh stage data
      (afterLoad options work change info settings?) := by
  cases settings? with
  | none => exact proceed_sound hTidy false change info hQuiet hInfo
  | some settings =>
      unfold afterLoad
      dsimp only
      split
      · refine (hTidy.map _ rfl).turn fresh false _ ?_ ?_
        · intro later hLater
          cases hLater
          exact ⟨fun _ => ⟨settings, rfl⟩, hInfo, hQuiet.symm⟩
        · intro hSome
          rw [hQuiet] at hSome
          cases hSome
      · exact proceed_sound hTidy false change info hQuiet hInfo

theorem decide_sound {fresh : Nat} (hTidy : work.Tidy circumstances options data)
    (hFresh : work.fresh = fresh) (stage : Stage) (change : Change) (info : ProjectInfo)
    (request : Nat) (result : UpdateResult)
    (hInfo : circumstances.lookup change.project (.found info)) :
    TurnSound circumstances options fresh stage data
      ((decide options work change info).answer request result) := by
  have hOwn : circumstances.lookup info.id (.found info) := by
    rw [circumstances.faithful _ _ hInfo]
    exact hInfo
  unfold decide
  dsimp only
  split
  · split
    · exact hTidy.armTimer_answer hFresh stage _ request result
    · exact hTidy.answer fresh stage request result
  · have hRecorded : (work.record change).Tidy circumstances options data := hTidy.map _ rfl
    split
    · split
      · exact (hRecorded.trigger info false hOwn).answer fresh stage request result
      · split
        · exact (hRecorded.trigger info true hOwn).answer fresh stage request result
        · exact hRecorded.answer fresh stage request result
    · exact hRecorded.armTimer_answer hFresh stage _ request result

theorem handOver_sound {fresh : Nat} {stage : Stage}
    (hTidy : work.Tidy circumstances options data) (release : Bool) (info : ProjectInfo)
    (changes : Option (List ChangeEvent)) (hQuiet : stage.quiet? = none) :
    TurnSound circumstances options fresh stage data
      (handOver options work release info changes) := by
  refine ((hTidy.map _ rfl).map _ rfl).turn fresh release _ ?_ ?_
  · intro later hLater
    cases hLater
    exact ⟨fun _ => ⟨info, changes, rfl, rfl⟩, trivial, hQuiet.symm⟩
  · intro hSome
    rw [hQuiet] at hSome
    cases hSome

end

theorem resume_sound {circumstances : Circumstances} {options : CoordinatorOptions}
    (self fresh : Nat) {stage : Stage} {wait : Wait Query} {answer? : Option Answer}
    (data : CoordinatorState) (hAwaits : stage.Awaits options wait)
    (hInformed : stage.Informed circumstances) (hReplies : Replies circumstances wait answer?) :
    TurnSound circumstances options fresh stage data
      (resume options self fresh stage answer? data) := by
  have hStart : Work.Tidy circumstances options data { state := data, fresh := fresh } :=
    Work.tidy_start fresh
  cases stage with
  | update project =>
      refine hStart.turn fresh false _ ?_ (fun _ => Or.inr rfl)
      intro later hLater
      cases hLater
      exact ⟨fun _ => rfl, trivial, rfl⟩
  | updateFound project =>
      cases hAwaits
      obtain ⟨lookup, hLookup, rfl⟩ := hReplies
      refine withProject_sound hStart self project ?_
      intro info hFound
      change lookup = _ at hFound
      subst hFound
      unfold updateWith
      split
      · refine hStart.turn fresh false _ ?_ (fun _ => Or.inr rfl)
        intro later hLater
        cases hLater
        exact ⟨fun _ => rfl, hLookup, rfl⟩
      · exact (hStart.map _ rfl).answer fresh _ self _
  | updateLocked project info =>
      refine (hStart.startUpdate project info ?_).answer fresh _ self _
      rw [circumstances.faithful _ _ hInformed]
      exact hInformed
  | change chunk =>
      refine hStart.turn fresh false _ ?_ (fun _ => Or.inr rfl)
      intro later hLater
      cases hLater
      exact ⟨fun _ => rfl, trivial, rfl⟩
  | changeFound chunk =>
      cases hAwaits
      obtain ⟨lookup, hLookup, rfl⟩ := hReplies
      refine withProject_sound hStart self chunk.project ?_
      intro info hFound
      change lookup = _ at hFound
      subst hFound
      refine hStart.turn fresh false _ ?_ (fun _ => Or.inr rfl)
      intro later hLater
      cases hLater
      exact ⟨fun _ => rfl, hLookup, rfl⟩
  | changeTimer chunk info =>
      have hCancelled := hStart.cancelTimer chunk.project
      simp only [resume]
      unfold afterCancel
      split
      · refine hCancelled.turn fresh true _ ?_ ?_
        · intro later hLater
          cases hLater
          exact ⟨fun _ => rfl, hInformed, rfl⟩
        · intro hSome
          cases hSome
      · exact proceed_sound hCancelled true chunk info rfl hInformed
  | changeLoaded chunk info => exact afterLoad_sound hStart chunk info _ rfl hInformed
  | changeApplied chunk info =>
      simp only [resume]
      split
      · refine hStart.turn fresh false _ ?_ (fun _ => Or.inr rfl)
        intro later hLater
        cases hLater
        exact ⟨fun _ => rfl, trivial, rfl⟩
      · exact proceed_sound hStart false chunk info rfl hInformed
      · exact hStart.answer fresh _ self _
  | changeRefreshed chunk =>
      cases hAwaits
      obtain ⟨lookup, hLookup, rfl⟩ := hReplies
      refine withProject_sound hStart self chunk.project ?_
      intro info hFound
      change lookup = _ at hFound
      subst hFound
      exact proceed_sound hStart false chunk info rfl hLookup
  | changeBuffer chunk info =>
      refine (hStart.map _ rfl).turn fresh true _ ?_ (fun _ => Or.inr rfl)
      intro later hLater
      cases hLater
      exact ⟨fun _ => rfl, hInformed, rfl⟩
  | changeLocked chunk info => exact decide_sound hStart rfl _ chunk info self _ hInformed
  | timer project =>
      refine hStart.turn fresh false _ ?_ (fun _ => Or.inr rfl)
      intro later hLater
      cases hLater
      exact ⟨fun now => ⟨now + options.quietPeriod, rfl⟩, trivial, rfl⟩
  | timerElapsed project =>
      refine hStart.turn fresh false _ ?_ (fun _ => Or.inr rfl)
      intro later hLater
      cases hLater
      exact ⟨fun _ => rfl, trivial, rfl⟩
  | timerFound project =>
      cases hAwaits
      obtain ⟨lookup, hLookup, rfl⟩ := hReplies
      cases lookup with
      | panicked => exact hStart.finish fresh _
      | found info =>
          refine hStart.turn fresh false _ ?_ (fun _ => Or.inr rfl)
          intro later hLater
          cases hLater
          exact ⟨fun _ => rfl, hLookup, rfl⟩
      | failed error =>
          refine hStart.turn fresh false _ ?_ (fun _ => Or.inr rfl)
          intro later hLater
          cases hLater
          exact ⟨fun _ => rfl, hLookup, rfl⟩
  | timerLocked project lookup =>
      exact (hStart.elapse self project lookup hInformed).finish fresh _
  | build info changes => exact handOver_sound hStart false info changes rfl
  | buildEnded project =>
      simp only [resume]
      unfold endBuild
      dsimp only
      split
      · refine (hStart.map _ rfl).turn fresh false _ ?_ (fun _ => Or.inr rfl)
        intro later hLater
        cases hLater
        exact ⟨fun _ => rfl, trivial, rfl⟩
      · exact (hStart.map _ rfl).finish fresh _
  | followUpFound project followUp =>
      cases hAwaits
      obtain ⟨lookup, hLookup, rfl⟩ := hReplies
      cases lookup with
      | panicked => exact hStart.finish fresh _
      | failed error => exact (hStart.map _ rfl).finish fresh _
      | found info =>
          simp only [resume, Answer.toLookup, followUpWith]
          split
          · refine hStart.turn fresh false _ ?_ (fun _ => Or.inr rfl)
            intro later hLater
            cases hLater
            exact ⟨fun _ => rfl, hLookup, rfl⟩
          · exact ((hStart.map _ rfl).map _ rfl).finish fresh _
  | followUpLocked project info followUp =>
      exact handOver_sound (hStart.map _ rfl) true info _ rfl

end Coordinator

end BuildWatch
