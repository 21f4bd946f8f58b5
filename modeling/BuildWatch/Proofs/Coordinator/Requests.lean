import BuildWatch.Proofs.Coordinator.View

/-!
What a run does for the calls that are made.  Every call has a task of its own, and
that task ends with the one answer to the call.  The changes of a chunk are put into
the buffer once if the chunk is accepted in the end, and never if it is refused.
-/

namespace BuildWatch

open BuildWatch.Tasks

def Notice.request? : Notice → Option Nat
  | .buffered request _ _ => some request
  | .answered request _ => some request
  | _ => none

def Notice.answer? (request : Nat) : Notice → Option UpdateResult
  | .answered other result => if other = request then some result else none
  | _ => none

def Notice.buffering? (request : Nat) : Notice → Option (String × List ChangeEvent)
  | .buffered other project changes => if other = request then some (project, changes) else none
  | _ => none

namespace Coordinator

variable {circumstances : Circumstances} {options : CoordinatorOptions}

/-! ### What is told of a request -/

def answers (request : Nat) (history : List Notice) : List UpdateResult :=
  history.filterMap (Notice.answer? request)

/-- What a request has put into the buffers of projects. -/
def bufferings (request : Nat) (history : List Notice) : List (String × List ChangeEvent) :=
  history.filterMap (Notice.buffering? request)

theorem answers_append (request : Nat) (history more : List Notice) :
    answers request (history ++ more) = answers request history ++ answers request more :=
  List.filterMap_append

theorem bufferings_append (request : Nat) (history more : List Notice) :
    bufferings request (history ++ more) =
      bufferings request history ++ bufferings request more :=
  List.filterMap_append

theorem silent_of_request?_ne (request : Nat) (history : List Notice)
    (hOthers : ∀ notice ∈ history, notice.request? ≠ some request) :
    answers request history = [] ∧ bufferings request history = [] := by
  refine ⟨List.filterMap_eq_nil_iff.mpr ?_, List.filterMap_eq_nil_iff.mpr ?_⟩
  · intro notice hNotice
    have hOther := hOthers notice hNotice
    cases notice with
    | answered other result =>
        have hDistinct : other ≠ request := fun hSame => hOther (congrArg some hSame)
        exact if_neg hDistinct
    | _ => rfl
  · intro notice hNotice
    have hOther := hOthers notice hNotice
    cases notice with
    | buffered other project changes =>
        have hDistinct : other ≠ request := fun hSame => hOther (congrArg some hSame)
        exact if_neg hDistinct
    | _ => rfl

theorem answerTo?_eq_head? (history : List Notice) (request : Nat) :
    answerTo? history request = (answers request history).head? := by
  unfold answers answerTo?
  rw [List.head?_filterMap]
  congr 1

theorem mem_answers_iff (id : Nat) (history : List Notice) (result : UpdateResult) :
    result ∈ answers id history ↔ .answered id result ∈ history := by
  unfold answers
  rw [List.mem_filterMap]
  constructor
  · intro hSome
    obtain ⟨notice, hNotice, hAnswer⟩ := hSome
    cases notice with
    | answered other told =>
        obtain ⟨hSame, hTold⟩ := Option.ite_none_right_eq_some.mp hAnswer
        obtain rfl := Option.some.inj hTold
        rw [← hSame]
        exact hNotice
    | _ => cases hAnswer
  · intro hNotice
    exact ⟨_, hNotice, if_pos rfl⟩

def Call.project : Call → String
  | .update project => project
  | .notify change => change.project

def Call.contribution (options : CoordinatorOptions) : Call → List (String × List ChangeEvent)
  | .update _ => []
  | .notify change =>
      if buildEvents options change = [] then [] else [(change.project, buildEvents options change)]

/-- What the request at a stage has put into buffers so far. -/
def Stage.Buffered (options : CoordinatorOptions) (lists : List (String × List ChangeEvent)) :
    Stage → Prop
  | .changeLocked chunk _ => lists = (Call.notify chunk).contribution options
  | .changeBuffer chunk _ => lists = [] ∧ buildEvents options chunk ≠ []
  | _ => lists = []

/-! ### The work of a turn tells of no request -/

theorem Stage.call?_of_quiet {stage : Stage} (hQuiet : stage.quiet?.isSome = true) :
    stage.call? = none := by
  cases stage <;> first | rfl | cases hQuiet

/-- Some work has told more, but of no request. -/
def Work.TellsMore (work later : Work) : Prop :=
  ∃ quiet, later.state.history = work.state.history ++ quiet ∧
    ∀ notice ∈ quiet, notice.request? = none

theorem Work.TellsMore.refl (work : Work) : work.TellsMore work :=
  ⟨[], (List.append_nil _).symm, List.forall_mem_nil _⟩

theorem Work.TellsMore.trans {work middle later : Work} (hFirst : work.TellsMore middle)
    (hSecond : middle.TellsMore later) : work.TellsMore later := by
  obtain ⟨quiet, hQuiet, hImpersonal⟩ := hFirst
  obtain ⟨more, hMore, hMoreImpersonal⟩ := hSecond
  refine ⟨quiet ++ more, ?_, ?_⟩
  · rw [hMore, hQuiet, List.append_assoc]
  · intro notice hNotice
    rcases List.mem_append.mp hNotice with hEarly | hLate
    · exact hImpersonal notice hEarly
    · exact hMoreImpersonal notice hLate

theorem Work.tellsMore_of_history {work later : Work} {quiet : List Notice}
    (hHistory : later.state.history = work.state.history ++ quiet)
    (hQuiet : ∀ notice ∈ quiet, notice.request? = none) : work.TellsMore later :=
  ⟨quiet, hHistory, hQuiet⟩

theorem Work.tellsMore_of_same {work later : Work}
    (hHistory : later.state.history = work.state.history) : work.TellsMore later :=
  ⟨[], by rw [hHistory, List.append_nil], List.forall_mem_nil _⟩

theorem Work.history_beginBuild (work : Work) (project : String) (info : ProjectInfo)
    (explicit : Bool) :
    (work.beginBuild project info explicit).state.history =
        work.state.history ++ [.queued project explicit] ∨
      ∃ changes, (work.beginBuild project info explicit).state.history =
        work.state.history ++ [.begun project explicit, .drained project changes] := by
  unfold Work.beginBuild
  dsimp only
  cases work.state.builds.slot project with
  | queued => exact Or.inl rfl
  | started => exact Or.inr ⟨_, List.append_assoc _ [_] [_]⟩

theorem Work.tellsMore_beginBuild (work : Work) (project : String) (info : ProjectInfo)
    (explicit : Bool) : work.TellsMore (work.beginBuild project info explicit) := by
  rcases work.history_beginBuild project info explicit with hQueued | ⟨changes, hBegun⟩
  · exact Work.tellsMore_of_history hQueued (by simp [Notice.request?])
  · exact Work.tellsMore_of_history hBegun (by simp [Notice.request?])

theorem Work.tellsMore_require (work : Work) (project : String) :
    work.TellsMore (work.map (·.require project)) :=
  ⟨[.required project], rfl, by simp [Notice.request?]⟩

theorem Work.tellsMore_trigger (work : Work) (info : ProjectInfo) (requireChanges : Bool) :
    work.TellsMore (work.trigger info requireChanges) := by
  have hCleared : work.TellsMore ((work.cancelTimer info.id).clearBatches info.id) :=
    Work.tellsMore_of_same rfl
  refine hCleared.trans ?_
  unfold Work.trigger
  dsimp only
  split
  · exact Work.tellsMore_require _ info.id
  · split
    · exact Work.TellsMore.refl _
    · exact Work.tellsMore_beginBuild _ info.id info false

theorem tellsMore_decide (options : CoordinatorOptions) (work : Work) (change : Change)
    (info : ProjectInfo) :
    work.TellsMore (decide options work change info) := by
  have hRecorded : work.TellsMore (work.record change) := Work.tellsMore_of_same rfl
  unfold decide
  dsimp only
  split
  · split
    · exact Work.tellsMore_of_same rfl
    · exact Work.TellsMore.refl _
  · refine hRecorded.trans ?_
    split
    · split
      · exact Work.tellsMore_trigger _ info false
      · split
        · exact Work.tellsMore_trigger _ info true
        · exact Work.TellsMore.refl _
    · exact Work.tellsMore_of_same rfl

theorem tellsMore_elapse (work : Work) (self : Nat) (project : String) (lookup : Lookup) :
    work.TellsMore (elapse work self project lookup) := by
  unfold elapse
  cases work.state.timers.claim? project self with
  | none => exact Work.TellsMore.refl _
  | some timers =>
      have hClaimed : work.TellsMore (work.map fun state => { state with timers := timers }) :=
        Work.tellsMore_of_same rfl
      cases lookup with
      | found info => exact hClaimed.trans (Work.tellsMore_trigger _ info true)
      | failed error => exact hClaimed
      | panicked => exact hClaimed

/-! ### What a turn does for its request -/

/-- What a task tells of its request at the end of a turn that leads from a stage to
another or to its end, after some notices that tell of no request. -/
inductive Deed (circumstances : Circumstances) (options : CoordinatorOptions) (self : Nat) :
    Stage → Option Stage → List Notice → List Notice → Prop where
  | goOn (stage later : Stage) (quiet : List Notice) (hCall : later.call? = stage.call?)
      (hBuffered : ∀ lists, stage.Buffered options lists → later.Buffered options lists) :
      Deed circumstances options self stage (some later) quiet []
  | buffer (change : Change) (info : ProjectInfo) :
      Deed circumstances options self (.changeBuffer change info) (some (.changeLocked change info))
        [] [.buffered self change.project (buildEvents options change)]
  | answer (stage : Stage) (call : Call) (quiet : List Notice) (result : UpdateResult)
      (hCall : stage.call? = some call)
      (hBuffered : ∀ lists, stage.Buffered options lists →
        lists = if result.isOk then call.contribution options else [])
      (hDemand : ∀ project, call = .update project → result = .ok () →
        quiet = [.queued project true] ∨
          (∃ changes, quiet = [.begun project true, .drained project changes]) ∨
            circumstances.MaySwitchOff project) :
      Deed circumstances options self stage none quiet [.answered self result]
  | finish (stage : Stage) (quiet : List Notice) (hCall : stage.call? = none) :
      Deed circumstances options self stage none quiet []

def Does (circumstances : Circumstances) (options : CoordinatorOptions) (self : Nat)
    (stage : Stage) (data : CoordinatorState) (turn : CoordinatorTurn) : Prop :=
  ∃ quiet deed, turn.data.history = data.history ++ (quiet ++ deed) ∧
    (∀ notice ∈ quiet, notice.request? = none) ∧
      Deed circumstances options self stage turn.next.stage? quiet deed

section

variable {self fresh : Nat} {stage : Stage} {data : CoordinatorState} {work : Work}

theorem Work.TellsMore.goOn (hTells : Work.TellsMore { state := data, fresh := fresh } work)
    {later : Stage} (release : Bool) (next : Next Stage Query) (hNext : next.stage? = some later)
    (hCall : later.call? = stage.call?)
    (hBuffered : ∀ lists, stage.Buffered options lists → later.Buffered options lists) :
    Does circumstances options self stage data (work.turn release next) := by
  obtain ⟨quiet, hQuiet, hImpersonal⟩ := hTells
  refine ⟨quiet, [], ?_, hImpersonal, ?_⟩
  · rw [List.append_nil]
    exact hQuiet
  · change Deed circumstances options self stage next.stage? quiet []
    rw [hNext]
    exact .goOn stage later quiet hCall hBuffered

theorem Work.TellsMore.finish (hTells : Work.TellsMore { state := data, fresh := fresh } work)
    (hCall : stage.call? = none) : Does circumstances options self stage data work.finish := by
  obtain ⟨quiet, hQuiet, hImpersonal⟩ := hTells
  refine ⟨quiet, [], ?_, hImpersonal, .finish stage quiet hCall⟩
  rw [List.append_nil]
  exact hQuiet

theorem Work.TellsMore.refuse (hTells : Work.TellsMore { state := data, fresh := fresh } work)
    {call : Call} (error : UpdateError) (hCall : stage.call? = some call)
    (hBuffered : ∀ lists, stage.Buffered options lists → lists = []) :
    Does circumstances options self stage data (work.answer self (.error error)) := by
  obtain ⟨quiet, hQuiet, hImpersonal⟩ := hTells
  refine ⟨quiet, [.answered self (.error error)], ?_, hImpersonal, ?_⟩
  · rw [← List.append_assoc, ← hQuiet]
    rfl
  · exact .answer stage call quiet (.error error) hCall hBuffered nofun

theorem withProject_does (request : Stage) {project : String} {lookup : Lookup}
    {next : ProjectInfo → CoordinatorTurn} {call : Call} (hCall : request.call? = some call)
    (hBuffered : ∀ lists, request.Buffered options lists → lists = [])
    (hNext : ∀ info, lookup = .found info →
      Does circumstances options self request data (next info)) :
    Does circumstances options self request data
      (withProject { state := data, fresh := fresh } self project lookup next) := by
  cases lookup with
  | found info => exact hNext info rfl
  | failed error => exact (Work.TellsMore.refl _).refuse _ hCall hBuffered
  | panicked => exact (Work.TellsMore.refl _).refuse _ hCall hBuffered

theorem proceed_does (hTells : Work.TellsMore { state := data, fresh := fresh } work)
    {chunk : Change} (info : ProjectInfo) (release : Bool)
    (hCall : stage.call? = some (.notify chunk))
    (hBuffered : ∀ lists, stage.Buffered options lists → lists = []) :
    Does circumstances options self stage data (proceed options work release chunk info) := by
  unfold proceed
  split
  · rename_i hEmpty
    refine hTells.goOn release _ rfl hCall.symm ?_
    intro lists hLists
    rw [List.isEmpty_iff] at hEmpty
    change lists = if buildEvents options chunk = [] then [] else _
    rw [if_pos hEmpty]
    exact hBuffered lists hLists
  · rename_i hSome
    refine hTells.goOn release _ rfl hCall.symm ?_
    intro lists hLists
    exact ⟨hBuffered lists hLists, by simpa using hSome⟩

theorem handOver_does (hTells : Work.TellsMore { state := data, fresh := fresh } work)
    (release : Bool) (info : ProjectInfo) (changes : Option (List ChangeEvent))
    (hCall : stage.call? = none)
    (hBuffered : ∀ lists, stage.Buffered options lists → lists = []) :
    Does circumstances options self stage data (handOver options work release info changes) := by
  have hTold : work.TellsMore ((work.map (·.tell (.started info.id))).map
      (·.tell (.handed (options.operation info) changes))) :=
    ⟨[.started info.id, .handed (options.operation info) changes], List.append_assoc _ [_] [_],
      by simp [Notice.request?]⟩
  exact (hTells.trans hTold).goOn release _ rfl hCall.symm hBuffered

end

theorem startUpdate_does (self fresh : Nat) (project : String) (info : ProjectInfo)
    (data : CoordinatorState) :
    Does circumstances options self (.updateLocked project info) data
      ((startUpdate { state := data, fresh := fresh } project info).answer self (.ok ())) := by
  have hHistory : (startUpdate { state := data, fresh := fresh } project info).state.history =
        data.history ++ [.queued project true] ∨
      ∃ changes, (startUpdate { state := data, fresh := fresh } project info).state.history =
        data.history ++ [.begun project true, .drained project changes] := by
    unfold startUpdate
    dsimp only
    split
    · exact Work.history_beginBuild (Work.cancelTimer _ project) project info true
    · exact Work.history_beginBuild _ project info true
  have hAnswer (quiet : List Notice)
      (hQuiet : (startUpdate { state := data, fresh := fresh } project info).state.history =
        data.history ++ quiet)
      (hDemand : quiet = [.queued project true] ∨
        ∃ changes, quiet = [.begun project true, .drained project changes]) :
      Does circumstances options self (.updateLocked project info) data
        ((startUpdate { state := data, fresh := fresh } project info).answer self (.ok ())) := by
    refine ⟨quiet, [.answered self (.ok ())], ?_, ?_, ?_⟩
    · rw [← List.append_assoc, ← hQuiet]
      rfl
    · rcases hDemand with rfl | ⟨changes, rfl⟩ <;> simp [Notice.request?]
    · refine .answer _ (.update project) _ _ rfl (fun _ hLists => hLists) ?_
      rintro asked ⟨⟩ _
      exact hDemand.imp_right Or.inl
  rcases hHistory with hQueued | ⟨changes, hBegun⟩
  · exact hAnswer _ hQueued (Or.inl rfl)
  · exact hAnswer _ hBegun (Or.inr ⟨changes, rfl⟩)

/-- What every turn does for its request. -/
theorem resume_does (self fresh : Nat) {stage : Stage} {wait : Wait Query}
    {answer? : Option Answer} (data : CoordinatorState) (hAwaits : stage.Awaits options wait)
    (hReplies : Replies circumstances wait answer?) :
    Does circumstances options self stage data
      (resume options self fresh stage answer? data) := by
  have hStart : Work.TellsMore { state := data, fresh := fresh }
      { state := data, fresh := fresh } := Work.TellsMore.refl _
  cases stage with
  | update project => exact hStart.goOn false _ rfl rfl fun _ hLists => hLists
  | updateFound project =>
      cases hAwaits
      obtain ⟨lookup, hLookup, rfl⟩ := hReplies
      refine withProject_does (.updateFound project) rfl (fun _ hLists => hLists) ?_
      intro info hFound
      change lookup = _ at hFound
      subst hFound
      unfold updateWith
      split
      · exact hStart.goOn false _ rfl rfl fun _ hLists => hLists
      · rename_i hOff
        refine ⟨[.required project], [.answered self (.ok ())], ?_, by simp [Notice.request?], ?_⟩
        · exact List.append_assoc _ [_] [_]
        · refine .answer _ (.update project) _ _ rfl (fun _ hLists => hLists) ?_
          rintro asked ⟨⟩ _
          exact Or.inr (Or.inr ⟨info, hLookup, by simpa using hOff⟩)
  | updateLocked project info => exact startUpdate_does self fresh project info data
  | change chunk => exact hStart.goOn false _ rfl rfl fun _ hLists => hLists
  | changeFound chunk =>
      refine withProject_does (.changeFound chunk) rfl (fun _ hLists => hLists) ?_
      intro info _
      exact hStart.goOn false _ rfl rfl fun _ hLists => hLists
  | changeTimer chunk info =>
      have hCancelled : Work.TellsMore { state := data, fresh := fresh }
          (Work.cancelTimer { state := data, fresh := fresh } chunk.project) :=
        Work.tellsMore_of_same rfl
      simp only [resume]
      unfold afterCancel
      split
      · exact hCancelled.goOn true _ rfl rfl fun _ hLists => hLists
      · exact proceed_does hCancelled info true rfl fun _ hLists => hLists
  | changeLoaded chunk info =>
      simp only [resume]
      unfold afterLoad
      split
      · split
        · refine Work.TellsMore.goOn ⟨[.applying info.id _], rfl, by simp [Notice.request?]⟩ false _
            rfl rfl fun _ hLists => hLists
        · exact proceed_does hStart info false rfl fun _ hLists => hLists
      · exact proceed_does hStart info false rfl fun _ hLists => hLists
  | changeApplied chunk info =>
      simp only [resume]
      split
      · exact hStart.goOn false _ rfl rfl fun _ hLists => hLists
      · exact proceed_does hStart info false rfl fun _ hLists => hLists
      · exact hStart.refuse _ rfl fun _ hLists => hLists
  | changeRefreshed chunk =>
      refine withProject_does (.changeRefreshed chunk) rfl (fun _ hLists => hLists) ?_
      intro info _
      exact proceed_does hStart info false rfl fun _ hLists => hLists
  | changeBuffer chunk info => exact ⟨[], _, rfl, List.forall_mem_nil _, .buffer chunk info⟩
  | changeLocked chunk info =>
      obtain ⟨quiet, hQuiet, hImpersonal⟩ := tellsMore_decide options
        { state := data, fresh := fresh } chunk info
      refine ⟨quiet, [.answered self (.ok ())], ?_, hImpersonal, ?_⟩
      · rw [← List.append_assoc, ← hQuiet]
        rfl
      · exact .answer _ (.notify chunk) _ _ rfl (fun _ hLists => hLists) (by rintro project ⟨⟩)
  | timer project => exact hStart.goOn false _ rfl rfl fun _ hLists => hLists
  | timerElapsed project => exact hStart.goOn false _ rfl rfl fun _ hLists => hLists
  | timerFound project =>
      simp only [resume]
      split
      · exact hStart.finish rfl
      · exact hStart.goOn false _ rfl rfl fun _ hLists => hLists
  | timerLocked project lookup => exact (tellsMore_elapse _ self project lookup).finish rfl
  | build info changes => exact handOver_does hStart false info changes rfl fun _ hLists => hLists
  | buildEnded project =>
      have hEnded (followUp? : Option FollowUp) (result : BuildResult) :
          Work.TellsMore { state := data, fresh := fresh }
            (Work.map { state := data, fresh := fresh } fun state =>
              { (state.tell (.finished project result)).tell (.passedOn project followUp?) with
                builds := state.builds.finish project }) :=
        ⟨[.finished project result, .passedOn project followUp?], List.append_assoc _ [_] [_],
          by simp [Notice.request?]⟩
      simp only [resume]
      unfold endBuild
      dsimp only
      split
      · exact (hEnded _ _).goOn false _ rfl rfl fun _ hLists => hLists
      · exact (hEnded _ _).finish rfl
  | followUpFound project followUp =>
      simp only [resume]
      unfold followUpWith
      split
      · split
        · exact hStart.goOn false _ rfl rfl fun _ hLists => hLists
        · exact Work.TellsMore.finish (Work.tellsMore_require { state := data, fresh := fresh }
            project) rfl
      · exact Work.TellsMore.finish (Work.tellsMore_of_same rfl) rfl
      · exact hStart.finish rfl
  | followUpLocked project info followUp =>
      have hDrained : Work.TellsMore { state := data, fresh := fresh }
          (Work.map { state := data, fresh := fresh } (·.drain project)) :=
        ⟨[.drained project (data.changes project)], rfl, by simp [Notice.request?]⟩
      exact handOver_does hDrained true info _ rfl fun _ hLists => hLists

/-! ### The requests of a run -/

theorem ids_nodup_concat {calls : List (Nat × Call)} {fresh : Nat}
    (hIds : (calls.map Prod.fst).Nodup) (hBelow : ∀ id call, (id, call) ∈ calls → id < fresh)
    (call : Call) : ((calls ++ [(fresh, call)]).map Prod.fst).Nodup := by
  rw [List.map_append, List.nodup_append]
  refine ⟨hIds, List.nodup_singleton _, ?_⟩
  intro old hOld new hNew hSame
  obtain ⟨⟨id, made⟩, hMade, rfl⟩ := List.mem_map.mp hOld
  rw [List.mem_singleton.mp hNew] at hSame
  exact Nat.ne_of_lt (hBelow id made hMade) hSame

theorem ids_below_concat {calls : List (Nat × Call)} {fresh : Nat}
    (hBelow : ∀ id call, (id, call) ∈ calls → id < fresh) (call : Call) :
    ∀ id made, (id, made) ∈ calls ++ [(fresh, call)] → id < fresh + 1 := by
  intro id made hMade
  rcases List.mem_append.mp hMade with hOld | hNew
  · exact Nat.lt_succ_of_lt (hBelow id made hOld)
  · cases List.mem_singleton.mp hNew
    exact Nat.lt_succ_self _

/-- A request that a task deals with has not been answered. -/
structure Run.Open (options : CoordinatorOptions) (run : Run) (task : Task Stage Query)
    (call : Call) : Prop where
  made : (task.id, call) ∈ run.calls
  unanswered : answers task.id run.history = []
  buffered : task.stage.Buffered options (bufferings task.id run.history)

/-- A request has been answered once, what it has put into buffers fits the answer, and
its task has ended. -/
structure Run.Closed (options : CoordinatorOptions) (run : Run) (id : Nat) (call : Call) :
    Prop where
  gone : ∀ task ∈ run.system.tasks, task.id ≠ id
  answered : ∃ result, answers id run.history = [result] ∧
    bufferings id run.history = if result.isOk then call.contribution options else []

/-- Every call is either dealt with by its task or has been answered. -/
structure Run.Booked (options : CoordinatorOptions) (run : Run) : Prop where
  ids : (run.calls.map Prod.fst).Nodup
  below : ∀ id call, (id, call) ∈ run.calls → id < run.system.nextId
  told : ∀ notice ∈ run.history, ∀ id, notice.request? = some id →
    ∃ call, (id, call) ∈ run.calls
  live : ∀ task ∈ run.system.tasks, ∀ call, task.stage.call? = some call →
    run.Open options task call
  all : ∀ id call, (id, call) ∈ run.calls →
    (∃ task ∈ run.system.tasks, task.id = id ∧ task.stage.call? = some call) ∨
      run.Closed options id call

theorem Run.booked_start (options : CoordinatorOptions) : ({} : Run).Booked options where
  ids := List.nodup_nil
  below := by
    intro id call hCall
    cases hCall
  told := by
    intro notice hNotice
    cases hNotice
  live := by
    intro task hTask
    cases hTask
  all := by
    intro id call hCall
    cases hCall

section

variable {run : Run}

theorem Run.Booked.thin (hBooked : run.Booked options) {system : CoordinatorSystem}
    (hTasks : ∀ task ∈ system.tasks, task ∈ run.system.tasks)
    (hKept : ∀ task ∈ run.system.tasks, task.stage.call?.isSome = true → task ∈ system.tasks)
    (hId : system.nextId = run.system.nextId)
    (hHistory : system.data.history = run.system.data.history) :
    ({ run with system := system } : Run).Booked options where
  ids := hBooked.ids
  below := by
    intro id call hCall
    change id < system.nextId
    rw [hId]
    exact hBooked.below id call hCall
  told := by
    intro notice hNotice id hRequest
    change notice ∈ system.data.history at hNotice
    rw [hHistory] at hNotice
    exact hBooked.told notice hNotice id hRequest
  live := by
    intro task hTask call hCall
    obtain ⟨hMade, hUnanswered, hBuffered⟩ := hBooked.live task (hTasks task hTask) call hCall
    refine ⟨hMade, ?_, ?_⟩
    · change answers task.id system.data.history = []
      rw [hHistory]
      exact hUnanswered
    · change task.stage.Buffered options (bufferings task.id system.data.history)
      rw [hHistory]
      exact hBuffered
  all := by
    intro id call hCall
    rcases hBooked.all id call hCall with ⟨task, hTask, hTaskId, hTaskCall⟩ | hClosed
    · exact Or.inl ⟨task, hKept task hTask (by rw [hTaskCall]; rfl), hTaskId, hTaskCall⟩
    · refine Or.inr ⟨fun task hTask => hClosed.gone task (hTasks task hTask), ?_⟩
      change ∃ result, answers id system.data.history = [result] ∧
        bufferings id system.data.history = _
      rw [hHistory]
      exact hClosed.answered

theorem Run.Booked.congr (hBooked : run.Booked options) {system : CoordinatorSystem}
    (hTasks : system.tasks = run.system.tasks) (hId : system.nextId = run.system.nextId)
    (hHistory : system.data.history = run.system.data.history) :
    ({ run with system := system } : Run).Booked options := by
  refine hBooked.thin ?_ ?_ hId hHistory
  · intro task hTask
    rw [← hTasks]
    exact hTask
  · intro task hTask _
    rw [hTasks]
    exact hTask

theorem Run.Booked.call (hBooked : run.Booked options) (call : Call) :
    ({ system := run.system.spawn call.stage
       calls := run.calls ++ [(run.system.nextId, call)] } : Run).Booked options := by
  have hFresh : answers run.system.nextId run.history = [] ∧
      bufferings run.system.nextId run.history = [] := by
    refine silent_of_request?_ne _ _ ?_
    intro notice hNotice hRequest
    obtain ⟨made, hMade⟩ := hBooked.told notice hNotice _ hRequest
    exact Nat.lt_irrefl _ (hBooked.below _ made hMade)
  refine ⟨ids_nodup_concat hBooked.ids hBooked.below call, ids_below_concat hBooked.below call,
    ?_, ?_, ?_⟩
  · intro notice hNotice id hRequest
    obtain ⟨made, hMade⟩ := hBooked.told notice hNotice id hRequest
    exact ⟨made, List.mem_append_left _ hMade⟩
  · intro task hTask made hMade
    rcases List.mem_append.mp hTask with hOld | hNew
    · obtain ⟨hEntry, hUnanswered, hBuffered⟩ := hBooked.live task hOld made hMade
      exact ⟨List.mem_append_left _ hEntry, hUnanswered, hBuffered⟩
    · cases List.mem_singleton.mp hNew
      have hSame : call = made := by
        cases call <;> exact Option.some.inj hMade
      subst hSame
      refine ⟨List.mem_append_right _ List.mem_cons_self, hFresh.1, ?_⟩
      cases call <;> exact hFresh.2
  · intro id made hMade
    rcases List.mem_append.mp hMade with hOld | hNew
    · rcases hBooked.all id made hOld with ⟨task, hTask, hId, hCall⟩ | hClosed
      · exact Or.inl ⟨task, List.mem_append_left _ hTask, hId, hCall⟩
      · refine Or.inr ⟨?_, hClosed.answered⟩
        intro task hTask hId
        rcases List.mem_append.mp hTask with hOldTask | hNewTask
        · exact hClosed.gone task hOldTask hId
        · cases List.mem_singleton.mp hNewTask
          exact Nat.ne_of_gt (hBooked.below id made hOld) hId
    · cases List.mem_singleton.mp hNew
      refine Or.inl ⟨_, List.mem_append_right _ List.mem_cons_self, rfl, ?_⟩
      cases call <;> rfl

theorem Deed.of_request? {self : Nat} {stage : Stage} {next? : Option Stage}
    {quiet deed : List Notice} (hDeed : Deed circumstances options self stage next? quiet deed)
    {notice : Notice} (hOwn : notice ∈ deed) {id : Nat} (hRequest : notice.request? = some id) :
    self = id ∧ ∃ call, stage.call? = some call := by
  cases hDeed with
  | goOn => cases hOwn
  | buffer change info =>
      rw [List.mem_singleton.mp hOwn] at hRequest
      exact ⟨Option.some.inj hRequest, .notify change, rfl⟩
  | answer _ call _ result hCall hBuffered hDemand =>
      rw [List.mem_singleton.mp hOwn] at hRequest
      exact ⟨Option.some.inj hRequest, call, hCall⟩
  | finish => cases hOwn

theorem Deed.request?_ne {self : Nat} {stage : Stage} {next? : Option Stage}
    {quiet deed : List Notice} (hDeed : Deed circumstances options self stage next? quiet deed)
    {id : Nat} (hOther : id ≠ self) (hImpersonal : ∀ notice ∈ quiet, notice.request? = none) :
    ∀ notice ∈ quiet ++ deed, notice.request? ≠ some id := by
  intro notice hNotice hRequest
  rcases List.mem_append.mp hNotice with hQuiet | hOwn
  · rw [hImpersonal notice hQuiet] at hRequest
    cases hRequest
  · exact hOther (hDeed.of_request? hOwn hRequest).1.symm

theorem Deed.goes {self : Nat} {stage later : Stage} {quiet deed : List Notice}
    (hDeed : Deed circumstances options self stage (some later) quiet deed) :
    later.call? = stage.call? ∧ answers self deed = [] ∧
      ∀ lists, stage.Buffered options lists →
        later.Buffered options (lists ++ bufferings self deed) := by
  cases hDeed with
  | goOn _ _ _ hCall hBuffered =>
      refine ⟨hCall, rfl, ?_⟩
      intro lists hLists
      rw [bufferings, List.filterMap_nil, List.append_nil]
      exact hBuffered lists hLists
  | buffer change info =>
      refine ⟨rfl, rfl, ?_⟩
      rintro lists ⟨rfl, hSome⟩
      change [] ++ bufferings self [.buffered self change.project (buildEvents options change)] =
        (Call.notify change).contribution options
      simp [bufferings, Notice.buffering?, Call.contribution, hSome]

theorem resume_call? {stage later : Stage} {wait : Wait Query} {answer? : Option Answer}
    (self fresh : Nat) (data : CoordinatorState) (hAwaits : stage.Awaits options wait)
    (hReplies : Replies circumstances wait answer?)
    (hNext : (resume options self fresh stage answer? data).next.stage? = some later) :
    later.call? = stage.call? := by
  obtain ⟨quiet, deed, _, _, hDeed⟩ := resume_does self fresh data hAwaits hReplies
  rw [hNext] at hDeed
  exact hDeed.goes.1

theorem Deed.ends {self : Nat} {stage : Stage} {quiet deed : List Notice}
    (hDeed : Deed circumstances options self stage none quiet deed) {call : Call}
    (hCall : stage.call? = some call) :
    ∃ result, answers self deed = [result] ∧
      ∀ lists, stage.Buffered options lists →
        lists ++ bufferings self deed =
          if result.isOk then call.contribution options else [] := by
  cases hDeed with
  | answer _ made _ result hMade hBuffered hDemand =>
      rw [hCall] at hMade
      cases hMade
      refine ⟨result, by simp [answers, Notice.answer?], ?_⟩
      intro lists hLists
      rw [← hBuffered lists hLists]
      simp [bufferings, Notice.buffering?]
  | finish _ _ hNone =>
      rw [hCall] at hNone
      cases hNone

def Run.afterTurn (run : Run) (id : Nat) (turn : CoordinatorTurn) : Run :=
  { run with system := run.system.applyTurn id turn }

theorem Run.history_afterTurn (run : Run) (id : Nat) (turn : CoordinatorTurn) :
    (run.afterTurn id turn).history = turn.data.history :=
  congrArg CoordinatorState.history (System.applyTurn_data run.system id turn)

theorem lists_of_impersonal {quiet : List Notice}
    (hImpersonal : ∀ notice ∈ quiet, notice.request? = none) (id : Nat)
    (history deed : List Notice) :
    answers id (history ++ (quiet ++ deed)) = answers id history ++ answers id deed ∧
      bufferings id (history ++ (quiet ++ deed)) =
        bufferings id history ++ bufferings id deed := by
  have hQuiet := silent_of_request?_ne id quiet (by
    intro notice hNotice hRequest
    rw [hImpersonal notice hNotice] at hRequest
    cases hRequest)
  refine ⟨?_, ?_⟩
  · rw [answers_append, answers_append, hQuiet.1, List.nil_append]
  · rw [bufferings_append, bufferings_append, hQuiet.2, List.nil_append]

theorem Deed.lists_of_ne {self : Nat} {stage : Stage} {next? : Option Stage}
    {quiet deed : List Notice} (hDeed : Deed circumstances options self stage next? quiet deed)
    (hImpersonal : ∀ notice ∈ quiet, notice.request? = none) {id : Nat} (hOther : id ≠ self)
    (history : List Notice) :
    answers id (history ++ (quiet ++ deed)) = answers id history ∧
      bufferings id (history ++ (quiet ++ deed)) = bufferings id history := by
  have hSilent := silent_of_request?_ne id _ (hDeed.request?_ne hOther hImpersonal)
  refine ⟨?_, ?_⟩
  · rw [answers_append, hSilent.1, List.append_nil]
  · rw [bufferings_append, hSilent.2, List.append_nil]

section

variable {task : Task Stage Query} {turn : CoordinatorTurn} {quiet deed : List Notice}
variable (hBooked : run.Booked options) (hSound : Sound circumstances options run.system)
variable (hTask : task ∈ run.system.tasks)
variable (hTurn : TurnSound circumstances options run.system.nextId task.stage run.system.data turn)
variable (hHistory : turn.data.history = run.history ++ (quiet ++ deed))
variable (hImpersonal : ∀ notice ∈ quiet, notice.request? = none)
variable (hDeed : Deed circumstances options task.id task.stage turn.next.stage? quiet deed)

include hBooked hTask hTurn hHistory hImpersonal hDeed in
theorem Run.Booked.open_afterTurn {other : Task Stage Query}
    (hOther : other ∈ (run.afterTurn task.id turn).system.tasks) {call : Call}
    (hCall : other.stage.call? = some call) :
    (run.afterTurn task.id turn).Open options other call := by
  have hTold := (run.history_afterTurn task.id turn).trans hHistory
  rcases System.mem_applyTurn_tasks hOther with ⟨hOld, hDistinct, _⟩ | ⟨hSelf, hNext, _⟩ |
    ⟨_, index, hStage, _⟩
  · obtain ⟨hMade, hUnanswered, hBuffered⟩ := hBooked.live other hOld call hCall
    obtain ⟨hAnswers, hBufferings⟩ := hDeed.lists_of_ne hImpersonal hDistinct run.history
    refine ⟨hMade, ?_, ?_⟩
    · rw [hTold, hAnswers, hUnanswered]
    · rw [hTold, hBufferings]
      exact hBuffered
  · rw [hNext] at hDeed
    obtain ⟨hSame, hNone, hGoes⟩ := hDeed.goes
    rw [hSame] at hCall
    obtain ⟨hMade, hUnanswered, hBuffered⟩ := hBooked.live task hTask call hCall
    obtain ⟨hAnswers, hBufferings⟩ := lists_of_impersonal hImpersonal task.id run.history deed
    refine ⟨hSelf ▸ hMade, ?_, ?_⟩
    · rw [hTold, hSelf, hAnswers, hUnanswered, hNone, List.append_nil]
    · rw [hTold, hSelf, hBufferings]
      exact hGoes _ hBuffered
  · -- A task that has just been started deals with no request.
    rw [(hTurn.spawned _ (List.mem_of_getElem? hStage)).2.2] at hCall
    cases hCall

include hBooked hSound hTask hTurn hHistory hImpersonal hDeed in
theorem Run.Booked.own_afterTurn {call : Call} (hCall : task.stage.call? = some call) :
    (∃ later ∈ (run.afterTurn task.id turn).system.tasks,
      later.id = task.id ∧ later.stage.call? = some call) ∨
      (run.afterTurn task.id turn).Closed options task.id call := by
  cases hNext : turn.next.stage? with
  | some goal =>
      rw [hNext] at hDeed
      have hKept := (hSound.self_stays hTask hTurn).resolve_right (by simp [hNext])
      obtain ⟨later, hLater, hId, hStage, _⟩ := System.exists_applyTurn_self hTask hKept hNext
      exact Or.inl ⟨later, hLater, hId, by rw [hStage, hDeed.goes.1, hCall]⟩
  | none =>
      rw [hNext] at hDeed
      obtain ⟨result, hAnswer, hEnds⟩ := hDeed.ends hCall
      obtain ⟨_, hUnanswered, hBuffered⟩ := hBooked.live task hTask call hCall
      obtain ⟨hAnswers, hBufferings⟩ := lists_of_impersonal hImpersonal task.id run.history deed
      have hTold := (run.history_afterTurn task.id turn).trans hHistory
      refine Or.inr ⟨?_, result, ?_, ?_⟩
      · intro other hOther hId
        rcases System.mem_applyTurn_tasks hOther with ⟨_, hDistinct, _⟩ | ⟨_, hGoes, _⟩ |
          ⟨_, index, _, hAbove⟩
        · exact hDistinct hId
        · rw [hNext] at hGoes
          cases hGoes
        · have hBelow := hSound.below task hTask
          omega
      · rw [hTold, hAnswers, hUnanswered, hAnswer, List.nil_append]
      · rw [hTold, hBufferings]
        exact hEnds _ hBuffered

include hBooked hTask hHistory hImpersonal hDeed in
theorem Run.Booked.closed_afterTurn {id : Nat} {call : Call} (hMade : (id, call) ∈ run.calls)
    (hClosed : run.Closed options id call) :
    (run.afterTurn task.id turn).Closed options id call := by
  have hDistinct : id ≠ task.id := fun hSame => hClosed.gone task hTask hSame.symm
  obtain ⟨hAnswers, hBufferings⟩ := hDeed.lists_of_ne hImpersonal hDistinct run.history
  have hTold := (run.history_afterTurn task.id turn).trans hHistory
  refine ⟨?_, ?_⟩
  · intro other hOther hId
    rcases System.mem_applyTurn_tasks hOther with ⟨hOld, _⟩ | ⟨hSelf, _⟩ | ⟨_, index, _, hAbove⟩
    · exact hClosed.gone other hOld hId
    · exact hDistinct (hId.symm.trans hSelf)
    · have hBelow := hBooked.below id call hMade
      omega
  · rw [hTold, hAnswers, hBufferings]
    exact hClosed.answered

end

theorem Run.Booked.afterTurn (hBooked : run.Booked options)
    (hSound : Sound circumstances options run.system) {task : Task Stage Query}
    (hTask : task ∈ run.system.tasks) {turn : CoordinatorTurn}
    (hTurn : TurnSound circumstances options run.system.nextId task.stage run.system.data turn)
    (hDoes : Does circumstances options task.id task.stage run.system.data turn) :
    (run.afterTurn task.id turn).Booked options := by
  obtain ⟨quiet, deed, hHistory, hImpersonal, hDeed⟩ := hDoes
  refine ⟨hBooked.ids, ?_, ?_, ?_, ?_⟩
  · intro id call hCall
    change id < (run.system.applyTurn task.id turn).nextId
    rw [System.applyTurn_nextId]
    exact Nat.lt_add_right _ (hBooked.below id call hCall)
  · intro notice hNotice id hRequest
    rw [run.history_afterTurn, hHistory, List.mem_append, List.mem_append] at hNotice
    rcases hNotice with hOld | hQuiet | hOwn
    · exact hBooked.told notice hOld id hRequest
    · rw [hImpersonal notice hQuiet] at hRequest
      cases hRequest
    · obtain ⟨hSame, call, hCall⟩ := hDeed.of_request? hOwn hRequest
      exact ⟨call, hSame ▸ (hBooked.live task hTask call hCall).made⟩
  · intro other hOther call hCall
    exact hBooked.open_afterTurn hTask hTurn hHistory hImpersonal hDeed hOther hCall
  · intro id call hMade
    rcases hBooked.all id call hMade with ⟨other, hOther, hId, hCall⟩ | hClosed
    · by_cases hSame : id = task.id
      · -- Ids are distinct, so the task of the request is the one that had the turn.
        have hSelf : other = task :=
          List.inj_on_of_nodup_map hSound.ids hOther hTask (hId.trans hSame)
        subst hSelf
        subst hId
        exact hBooked.own_afterTurn hSound hTask hTurn hHistory hImpersonal hDeed hCall
      · refine Or.inl ⟨other, System.mem_applyTurn_of_kept hOther (hId ▸ hSame) ?_, hId, hCall⟩
        -- A task with a request is not the timer of any project, so no turn drops it.
        intro hDropped
        obtain ⟨asked, hAsked⟩ := hTurn.dropped other.id hDropped
        have hQuiet := (hSound.timers asked other.id hAsked).2 other hOther rfl
        rw [Stage.call?_of_quiet (by rw [hQuiet]; rfl)] at hCall
        cases hCall
    · exact Or.inr (hBooked.closed_afterTurn hTask hHistory hImpersonal hDeed hMade hClosed)

theorem Run.step_silent (run : Run) {event : Event} (hNone : event.call? = none) :
    run.step options event = { run with system := happen options run.system event } := by
  simp [Run.step, hNone]

theorem Run.Booked.step (hBooked : run.Booked options)
    (hSound : Sound circumstances options run.system) {event : Event}
    (hWithin : event.Within circumstances) : (run.step options event).Booked options := by
  have hCalls (call? : Option Call) : ({
      system := takeCall run.system call?
      calls := run.calls ++ call?.toList.map fun call => (run.system.nextId, call) } : Run).Booked
        options := by
    cases call? with
    | some call => exact hBooked.call call
    | none =>
        rw [Option.toList_none, List.map_nil, List.append_nil]
        exact hBooked
  cases event with
  | update project => exact hCalls _
  | notify notification => exact hCalls _
  | pass duration =>
      rw [run.step_silent rfl]
      exact hBooked.congr rfl rfl rfl
  | reorder ready =>
      rw [run.step_silent rfl]
      exact hBooked.congr rfl rfl rfl
  | shutdown =>
      rw [run.step_silent rfl]
      have hTasks : (happen options run.system .shutdown).tasks = run.system.tasks.filter
          (fun task => !run.system.data.timers.all.contains task.id) := by
        simp only [happen, shutdown]
        rw [System.foldl_remove_tasks]
      refine hBooked.thin ?_ ?_ ?_ ?_
      · intro task hTask
        rw [hTasks] at hTask
        exact (List.mem_filter.mp hTask).1
      · intro task hTask hRequest
        rw [hTasks]
        refine List.mem_filter.mpr ⟨hTask, ?_⟩
        by_contra hDropped
        have hQuiet := hSound.quiet_of_kept hTask
          (Timers.exists_of_mem_all (by simpa using hDropped))
        rw [Stage.call?_of_quiet hQuiet] at hRequest
        cases hRequest
      · simp only [happen, shutdown]
        rw [System.foldl_remove_nextId]
      · simp only [happen, shutdown]
        rw [System.foldl_remove_data]
  | poll id surrounding =>
      rw [run.step_silent rfl]
      simp only [happen]
      rcases hSound.poll_cases hWithin with ⟨locks, hPoll, _⟩ |
        ⟨locks, task, answer?, _, hTask, _, hReplies, hLocked, hTurn, hPoll⟩
      · rw [hPoll]
        exact hBooked.congr rfl rfl rfl
      · have hDoes := resume_does task.id run.system.nextId run.system.data
          (hSound.awaits task hTask) hReplies
        have hBookedLocked : ({ run with system := { run.system with locks := locks } } :
            Run).Booked options :=
          hBooked.congr rfl rfl rfl
        rw [hPoll]
        exact hBookedLocked.afterTurn hLocked hTask hTurn hDoes

end

/-- The requests of every run are booked. -/
theorem Run.booked (options : CoordinatorOptions) (events : List Event)
    (hEvents : ∀ event ∈ events, event.Within circumstances) :
    (Run.after options events).Booked options := by
  have hRun : Sound circumstances options (Run.after options events).system ∧
      (Run.after options events).Booked options := by
    refine Run.after_induction (motive := fun run => Sound circumstances options run.system ∧
      run.Booked options) ?_ ?_ events hEvents
    · exact ⟨sound_start circumstances options, Run.booked_start options⟩
    · rintro run event ⟨hSound, hBooked⟩ hWithin
      exact ⟨hSound.happen hWithin, hBooked.step hSound hWithin⟩
  exact hRun.2

/-- An event makes a call and tells nothing, or it tells at most what a task does in a turn. -/
theorem Run.step_does {run : Run} (hSound : Sound circumstances options run.system)
    {event : Event} (hWithin : event.Within circumstances) :
    (run.step options event).history = run.history ∨
      ((run.step options event).calls = run.calls ∧
        ∃ task ∈ run.system.tasks, ∃ next? quiet deed,
          (run.step options event).history = run.history ++ (quiet ++ deed) ∧
            (∀ notice ∈ quiet, notice.request? = none) ∧
              Deed circumstances options task.id task.stage next? quiet deed) := by
  have hCall (call? : Option Call) : (takeCall run.system call?).data.history = run.history := by
    cases call? <;> rfl
  cases event with
  | update project => exact Or.inl (hCall _)
  | notify notification => exact Or.inl (hCall _)
  | pass duration => exact Or.inl rfl
  | reorder ready => exact Or.inl rfl
  | shutdown =>
      refine Or.inl ?_
      simp only [Run.history, Run.state, Run.step, happen, shutdown]
      rw [System.foldl_remove_data]
  | poll id surrounding =>
      rcases hSound.poll_cases hWithin with ⟨locks, hPoll, _⟩ |
        ⟨locks, task, answer?, _, hTask, _, hReplies, _, _, hPoll⟩
      · refine Or.inl ?_
        simp only [Run.history, Run.state, Run.step, happen, hPoll]
      · obtain ⟨quiet, deed, hHistory, hImpersonal, hDeed⟩ := resume_does task.id
          run.system.nextId run.system.data (hSound.awaits task hTask) hReplies
        refine Or.inr ⟨List.append_nil _, task, hTask, _, quiet, deed, ?_, hImpersonal, hDeed⟩
        simp only [Run.history, Run.state, Run.step, happen, hPoll, System.applyTurn_data]
        exact hHistory

/-- No request for a project is half done. -/
def Run.Calm (project : String) (run : Run) : Prop :=
  ∀ task ∈ run.system.tasks, ∀ call ∈ task.stage.call?, call.project ≠ project

instance (project : String) (run : Run) : Decidable (run.Calm project) :=
  inferInstanceAs (Decidable
    (∀ task ∈ run.system.tasks, ∀ call ∈ task.stage.call?, call.project ≠ project))

theorem Run.Calm.changing {run : Run} {project : String} (hCalm : run.Calm project) :
    (run.view project).changing = 0 := by
  refine List.countP_eq_zero.mpr ?_
  intro stage hStage hDeals
  obtain ⟨task, hTask, rfl⟩ := List.mem_map.mp hStage
  cases hChange : task.stage.change? with
  | none =>
      unfold Stage.dealsWith at hDeals
      rw [hChange] at hDeals
      cases hDeals
  | some chunk =>
      have hCall : task.stage.call? = some (.notify chunk) := by
        unfold Stage.call?
        rw [hChange]
        rfl
      exact hCalm task hTask _ hCall ((Stage.dealsWith_iff project hChange).mp hDeals)

end Coordinator

end BuildWatch
