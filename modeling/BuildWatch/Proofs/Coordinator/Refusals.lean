import BuildWatch.Proofs.Coordinator.Guards
import BuildWatch.Proofs.Coordinator.PromptRuns

/-!
What a request leaves behind that is refused in the end.  As long as it may be refused it starts
nothing and changes no project, but for a chunk of settings, which ends the quiet period of its
project before it has the project looked up once more.  From the turn on that does change
something a request is not refused any more.
-/

namespace BuildWatch

open BuildWatch.Tasks

namespace Coordinator

variable {circumstances : Circumstances} {options : CoordinatorOptions}

/-- From here on a request may still be refused. -/
def Stage.mayBeRefused : Stage → Bool
  | .update _ | .updateFound _ | .change _ | .changeFound _ | .changeTimer _ _
  | .changeLoaded _ _ | .changeApplied _ _ | .changeRefreshed _ => true
  | _ => false

def Call.touchesSettings (options : CoordinatorOptions) : Call → Bool
  | .update _ => false
  | .notify change => Coordinator.touchesSettings options change

/-- The share of a project is as it was, or a chunk of settings has ended its quiet period. -/
def LeavesShare (options : CoordinatorOptions) (call : Call) (project : String)
    (before after : Share) : Prop :=
  after = before ∨
    project = call.project ∧ call.touchesSettings options = true ∧
      after = { before with timer := none }

/-! ### One turn -/

/-- A turn starts nothing and leaves every project as it was, its quiet period apart. -/
structure TurnLeaves (options : CoordinatorOptions) (call : Call) (data : CoordinatorState)
    (turn : CoordinatorTurn) : Prop where
  started : turn.spawned = []
  shares : ∀ project, LeavesShare options call project (data.share project)
    (turn.data.share project)

structure TurnCommits (request : Nat) (data : CoordinatorState) (turn : CoordinatorTurn) :
    Prop where
  goes : ∀ later, turn.next.stage? = some later → later.mayBeRefused = false
  tells : ∀ error, .answered request (.error error) ∈ turn.data.history →
    .answered request (.error error) ∈ data.history

section

variable {self fresh : Nat} {call : Call} {data : CoordinatorState} {work : Work}

theorem Work.TellsMore.commits (hTells : Work.TellsMore { state := data, fresh := fresh } work)
    (release : Bool) {next : Next Stage Query}
    (hGoes : ∀ later, next.stage? = some later → later.mayBeRefused = false) :
    TurnCommits self data (work.turn release next) where
  goes := hGoes
  tells := by
    intro error hTold
    obtain ⟨quiet, hQuiet, hImpersonal⟩ := hTells
    change _ ∈ work.state.history at hTold
    rw [hQuiet] at hTold
    rcases List.mem_append.mp hTold with hOld | hNew
    · exact hOld
    · cases hImpersonal _ hNew

theorem Work.TellsMore.accepts (hTells : Work.TellsMore { state := data, fresh := fresh } work) :
    TurnCommits self data (work.answer self (.ok ())) where
  goes := by
    intro later hNext
    cases hNext
  tells := by
    intro error hTold
    rcases List.mem_append.mp hTold with hEarlier | hAnswer
    · have hCommits : TurnCommits self data (work.turn false .finish) := by
        apply hTells.commits
        intro later hNext
        cases hNext
      exact hCommits.tells error hEarlier
    · cases List.mem_singleton.mp hAnswer

theorem proceed_commits (hTells : Work.TellsMore { state := data, fresh := fresh } work)
    (release : Bool) (change : Change) (info : ProjectInfo) :
    TurnCommits self data (proceed options work release change info) := by
  unfold proceed
  split
  · apply hTells.commits
    intro later hNext
    cases hNext
    rfl
  · apply hTells.commits
    intro later hNext
    cases hNext
    rfl

theorem leaves_start (release : Bool) (next : Next Stage Query) :
    TurnLeaves options call data
      (Work.turn { state := data, fresh := fresh } release next) where
  started := rfl
  shares := fun _ => Or.inl rfl

theorem leaves_refused (error : UpdateError) :
    TurnLeaves options call data
      (Work.answer { state := data, fresh := fresh } self (.error error)) where
  started := rfl
  shares := fun _ => Or.inl rfl

theorem leaves_cancelled (change : Change)
    (hSettings : Coordinator.touchesSettings options change = true) (release : Bool)
    (next : Next Stage Query) :
    TurnLeaves options (.notify change) data
      ((Work.cancelTimer { state := data, fresh := fresh } change.project).turn release next) where
  started := rfl
  shares := by
    intro project
    by_cases hOwn : project = change.project
    · refine Or.inr ⟨hOwn, hSettings, ?_⟩
      apply Share.ext
      · exact (Timers.get?_cancel _ _ _).trans (if_pos hOwn)
      · rfl
      · rfl
      · rfl
    · exact Or.inl (CoordinatorState.share_cancel hOwn)

end

/-- A turn of a request leaves every project as it was, or it commits the request. -/
theorem resume_leaves_or_commits (self fresh : Nat) {stage : Stage} {call : Call}
    (hCall : stage.call? = some call) (answer? : Option Answer) (data : CoordinatorState) :
    (stage.mayBeRefused = true ∧
        TurnLeaves options call data (resume options self fresh stage answer? data)) ∨
      TurnCommits self data (resume options self fresh stage answer? data) := by
  have hStart : Work.TellsMore { state := data, fresh := fresh }
      { state := data, fresh := fresh } := Work.TellsMore.refl _
  cases stage with
  | update project => exact Or.inl ⟨rfl, leaves_start false _⟩
  | updateFound project =>
      simp only [resume]
      cases Answer.toLookup answer? with
      | failed error => exact Or.inl ⟨rfl, leaves_refused _⟩
      | panicked => exact Or.inl ⟨rfl, leaves_refused _⟩
      | found info =>
          refine Or.inr ?_
          change TurnCommits self data
            (updateWith { state := data, fresh := fresh } self project info)
          unfold updateWith
          split
          · apply hStart.commits
            intro later hNext
            cases hNext
            rfl
          · exact (Work.tellsMore_require _ project).accepts
  | updateLocked project info =>
      have hStarted : Work.TellsMore { state := data, fresh := fresh }
          (startUpdate { state := data, fresh := fresh } project info) := by
        unfold startUpdate
        dsimp only
        split
        · exact (Work.tellsMore_of_same rfl).trans
            (Work.tellsMore_beginBuild (Work.cancelTimer _ project) project info true)
        · exact Work.tellsMore_beginBuild _ project info true
      exact Or.inr hStarted.accepts
  | change change => exact Or.inl ⟨rfl, leaves_start false _⟩
  | changeFound change =>
      simp only [resume]
      cases Answer.toLookup answer? with
      | failed error => exact Or.inl ⟨rfl, leaves_refused _⟩
      | panicked => exact Or.inl ⟨rfl, leaves_refused _⟩
      | found info => exact Or.inl ⟨rfl, leaves_start false _⟩
  | changeTimer change info =>
      obtain rfl := Option.some.inj hCall
      have hCancelled : Work.TellsMore { state := data, fresh := fresh }
          (Work.cancelTimer { state := data, fresh := fresh } change.project) :=
        Work.tellsMore_of_same rfl
      simp only [resume]
      unfold afterCancel
      split
      · rename_i hSettings
        exact Or.inl ⟨rfl, leaves_cancelled change hSettings true _⟩
      · exact Or.inr (proceed_commits hCancelled true change info)
  | changeLoaded change info =>
      simp only [resume]
      unfold afterLoad
      split
      · split
        · exact Or.inl ⟨rfl, rfl, fun _ => Or.inl rfl⟩
        · exact Or.inr (proceed_commits hStart false change info)
      · exact Or.inr (proceed_commits hStart false change info)
  | changeApplied change info =>
      simp only [resume]
      split
      · exact Or.inl ⟨rfl, leaves_start false _⟩
      · exact Or.inr (proceed_commits hStart false change info)
      · exact Or.inl ⟨rfl, leaves_refused _⟩
  | changeRefreshed change =>
      simp only [resume]
      cases Answer.toLookup answer? with
      | failed error => exact Or.inl ⟨rfl, leaves_refused _⟩
      | panicked => exact Or.inl ⟨rfl, leaves_refused _⟩
      | found info => exact Or.inr (proceed_commits hStart false change info)
  | changeBuffer change info =>
      refine Or.inr ⟨?_, ?_⟩
      · intro later hNext
        cases hNext
        rfl
      · intro error hTold
        rcases List.mem_append.mp hTold with hOld | hBuffered
        · exact hOld
        · cases List.mem_singleton.mp hBuffered
  | changeLocked change info => exact Or.inr (tellsMore_decide options _ change info).accepts
  | _ => cases hCall

/-! ### Along a run -/

/-- Nothing is started, and every project is as it was, its quiet period apart. -/
structure Leaves (options : CoordinatorOptions) (call : Call) (before after : CoordinatorSystem) :
    Prop where
  started : ∀ task ∈ after.tasks, ∃ other ∈ before.tasks, other.id = task.id
  shares : ∀ project, LeavesShare options call project (before.data.share project)
    (after.data.share project)

/-- A request that is not refused any more. -/
structure Run.Committed (run : Run) (id : Nat) : Prop where
  below : id < run.system.nextId
  stages : ∀ task ∈ run.system.tasks, task.id = id → task.stage.mayBeRefused = false
  unrefused : ∀ error, .answered id (.error error) ∉ run.history

def LeavesAlways (options : CoordinatorOptions) (id : Nat) (call : Call) (events : List Event) :
    Prop :=
  Run.Always options {} events fun system event => ∀ surrounding, event = .poll id surrounding →
    Leaves options call system (happen options system event)

theorem leaves_of_same {call : Call} {before after : CoordinatorSystem}
    (hTasks : after.tasks = before.tasks) (hData : after.data = before.data) :
    Leaves options call before after where
  started := by
    intro task hTask
    rw [hTasks] at hTask
    exact ⟨task, hTask, rfl⟩
  shares := by
    intro project
    rw [hData]
    exact Or.inl rfl

section

variable {run : Run} {id : Nat}

theorem Stage.mayBeRefused_of_call? {stage : Stage} (hNone : stage.call? = none) :
    stage.mayBeRefused = false := by
  cases stage <;> first | rfl | cases hNone

theorem Sound.refused_before (hSound : Sound circumstances options run.system)
    {task : Task Stage Query} (hTask : task ∈ run.system.tasks) {answer? : Option Answer}
    (hReplies : Replies circumstances task.wait answer?)
    (hOther : id = task.id → task.stage.call? = none) {error : UpdateError}
    (hTold : .answered id (.error error) ∈ (resume options task.id run.system.nextId task.stage
      answer? run.system.data).data.history) :
    .answered id (.error error) ∈ run.history := by
  obtain ⟨quiet, deed, hHistory, hImpersonal, hDeed⟩ := resume_does task.id run.system.nextId
    run.system.data (hSound.awaits task hTask) hReplies
  rw [hHistory] at hTold
  rcases List.mem_append.mp hTold with hOld | hNew
  · exact hOld
  · rcases List.mem_append.mp hNew with hQuiet | hOwn
    · cases hImpersonal _ hQuiet
    · obtain ⟨hSelf, call, hCall⟩ := hDeed.of_request? hOwn rfl
      rw [hOther hSelf.symm] at hCall
      cases hCall

theorem Run.Committed.step (hCommitted : run.Committed id)
    (hSound : Sound circumstances options run.system) {event : Event}
    (hWithin : event.Within circumstances) : (run.step options event).Committed id := by
  have hBelow := hCommitted.below
  have hCall (call? : Option Call) :
      (⟨takeCall run.system call?, run.calls ++
        call?.toList.map fun call => (run.system.nextId, call)⟩ : Run).Committed id := by
    cases call? with
    | none => exact ⟨hBelow, hCommitted.stages, hCommitted.unrefused⟩
    | some call =>
        refine ⟨Nat.lt_succ_of_lt hBelow, ?_, hCommitted.unrefused⟩
        intro task hTask hId
        rcases List.mem_append.mp hTask with hOld | hNew
        · exact hCommitted.stages task hOld hId
        · rw [List.mem_singleton.mp hNew] at hId
          exact absurd hId (Nat.ne_of_gt hBelow)
  cases event with
  | update asked => exact hCall _
  | notify notification => exact hCall _
  | pass duration => exact ⟨hBelow, hCommitted.stages, hCommitted.unrefused⟩
  | reorder ready => exact ⟨hBelow, hCommitted.stages, hCommitted.unrefused⟩
  | shutdown =>
      constructor
      · simp only [Run.step, happen, shutdown, System.foldl_remove_nextId]
        exact hBelow
      · intro task hTask hId
        simp only [Run.step, happen, shutdown, System.foldl_remove_tasks] at hTask
        exact hCommitted.stages task (List.mem_filter.mp hTask).1 hId
      · intro error hTold
        simp only [Run.history, Run.state, Run.step, happen, shutdown,
          System.foldl_remove_data] at hTold
        exact hCommitted.unrefused error hTold
  | poll polled surrounding =>
      rcases hSound.poll_cases hWithin with ⟨locks, hPoll, _⟩ |
        ⟨locks, task, answer?, _, hTask, _, hReplies, _, _, hPoll⟩
      · constructor
        · simp only [Run.step, happen, hPoll]
          exact hBelow
        · simp only [Run.step, happen, hPoll]
          exact hCommitted.stages
        · simp only [Run.history, Run.state, Run.step, happen, hPoll]
          exact hCommitted.unrefused
      · -- The request has committed itself, so its own turn does not open it again.
        have hOwn (call : Call) (hOwnCall : task.stage.call? = some call) (hId : task.id = id) :
            TurnCommits task.id run.system.data
              (resume options task.id run.system.nextId task.stage answer? run.system.data) := by
          apply (resume_leaves_or_commits task.id run.system.nextId hOwnCall answer? _).resolve_left
          rintro ⟨hOpen, _⟩
          rw [hCommitted.stages task hTask hId] at hOpen
          cases hOpen
        constructor
        · simp only [Run.step, happen, hPoll, System.applyTurn_nextId]
          exact Nat.lt_add_right _ hBelow
        · intro other hOther hId
          simp only [Run.step, happen, hPoll] at hOther
          rcases System.mem_applyTurn_tasks hOther with ⟨hOld, _⟩ | ⟨hSelf, hNext, _⟩ |
            ⟨_, index, _, hAbove⟩
          · exact hCommitted.stages other hOld hId
          · cases hRequest : task.stage.call? with
            | some call => exact (hOwn call hRequest (hSelf.symm.trans hId)).goes _ hNext
            | none =>
                apply Stage.mayBeRefused_of_call?
                rw [resume_call? task.id run.system.nextId run.system.data
                  (hSound.awaits task hTask) hReplies hNext]
                exact hRequest
          · change other.id = run.system.nextId + index at hAbove
            omega
        · intro error hTold
          simp only [Run.history, Run.state, Run.step, happen, hPoll,
            System.applyTurn_data] at hTold
          apply hCommitted.unrefused error
          by_cases hId : id = task.id
          · cases hRequest : task.stage.call? with
            | some call =>
                rw [hId] at hTold ⊢
                exact (hOwn call hRequest hId.symm).tells error hTold
            | none => exact hSound.refused_before hTask hReplies (fun _ => hRequest) hTold
          · exact hSound.refused_before hTask hReplies (fun hSame => absurd hSame hId) hTold

/-- A turn of a request that has been made leaves every project as it was, or it commits the
request. -/
theorem Run.Booked.leaves_or_commits (hBooked : run.Booked options)
    (hSound : Sound circumstances options run.system) {surrounding : Surrounding Id}
    (hWithin : (Event.poll id surrounding).Within circumstances) {call : Call}
    (hMade : (id, call) ∈ run.calls) :
    Leaves options call run.system (happen options run.system (.poll id surrounding)) ∨
      (run.step options (.poll id surrounding)).Committed id := by
  rcases hSound.poll_cases hWithin with ⟨locks, hPoll, _⟩ |
    ⟨locks, task, answer?, hFound, hTask, _, _, _, _, hPoll⟩
  · rw [happen, hPoll]
    exact Or.inl (leaves_of_same rfl rfl)
  · obtain rfl : task.id = id := ((hSound.task?_eq_some_iff id task).mp hFound).2
    rcases hBooked.all task.id call hMade with ⟨other, hOther, hId, hCall⟩ | hClosed
    · obtain rfl := List.inj_on_of_nodup_map hSound.ids hOther hTask hId
      have hBelow := hSound.below other hTask
      rcases resume_leaves_or_commits other.id run.system.nextId hCall answer? run.system.data with
        ⟨_, hLeaves⟩ | hCommits
      · refine Or.inl ⟨?_, ?_⟩
        · intro later hLater
          rw [happen, hPoll] at hLater
          rcases System.mem_applyTurn_tasks hLater with ⟨hOld, _⟩ | ⟨hSelf, _⟩ |
            ⟨_, index, hStage, _⟩
          · exact ⟨later, hOld, rfl⟩
          · exact ⟨other, hTask, hSelf.symm⟩
          · rw [hLeaves.started] at hStage
            cases hStage
        · intro project
          rw [happen, hPoll, System.applyTurn_data]
          exact hLeaves.shares project
      · refine Or.inr ⟨?_, ?_, ?_⟩
        · simp only [Run.step, happen, hPoll, System.applyTurn_nextId]
          exact Nat.lt_add_right _ hBelow
        · intro later hLater hSame
          simp only [Run.step, happen, hPoll] at hLater
          rcases System.mem_applyTurn_tasks hLater with ⟨_, hDistinct, _⟩ | ⟨_, hNext, _⟩ |
            ⟨_, index, _, hAbove⟩
          · exact absurd hSame hDistinct
          · exact hCommits.goes _ hNext
          · change later.id = run.system.nextId + index at hAbove
            omega
        · intro error hTold
          simp only [Run.history, Run.state, Run.step, happen, hPoll,
            System.applyTurn_data] at hTold
          have hAnswer := (mem_answers_iff _ _ _).mpr (hCommits.tells error hTold)
          change _ ∈ answers other.id run.history at hAnswer
          rw [(hBooked.live other hTask call hCall).unanswered] at hAnswer
          cases hAnswer
    · exact absurd rfl (hClosed.gone task hTask)

end

theorem nextId_le_happen (options : CoordinatorOptions) (system : CoordinatorSystem)
    (event : Event) : system.nextId ≤ (happen options system event).nextId := by
  have hCall (call? : Option Call) : system.nextId ≤ (takeCall system call?).nextId := by
    cases call? with
    | none => exact Nat.le_refl _
    | some call => exact Nat.le_succ _
  cases event with
  | update asked => exact hCall _
  | notify notification => exact hCall _
  | pass duration => exact Nat.le_refl _
  | reorder ready => exact Nat.le_refl _
  | shutdown =>
      simp only [happen, shutdown, System.foldl_remove_nextId]
      exact Nat.le_refl _
  | poll id surrounding => exact pollTask_nextId options system id surrounding

/-- A request is not refused any more, or all its turns have left the projects as they were; and
so have the turns of a task that has not been started. -/
theorem Run.committed_or_leaves (options : CoordinatorOptions) (events : List Event)
    (hEvents : ∀ event ∈ events, event.Within circumstances) (id : Nat) (call : Call)
    (hMade : (Run.after options events).system.nextId ≤ id ∨
      (id, call) ∈ (Run.after options events).calls) :
    (Run.after options events).Committed id ∨ LeavesAlways options id call events := by
  induction events using List.reverseRecOn with
  | nil => exact Or.inr Run.always_nil
  | append_singleton events last ih =>
      have hBefore : ∀ event ∈ events, event.Within circumstances :=
        fun event hEvent => hEvents event (List.mem_append_left _ hEvent)
      have hWithin := hEvents last (List.mem_append_right _ List.mem_cons_self)
      have hSound := Run.sound options events hBefore
      have hStep : Run.after options (events ++ [last]) =
          (Run.after options events).step options last :=
        Run.after_append options events [last]
      -- A task that has not been started has had no turn.
      have hUnborn (hAbove : (Run.after options events).system.nextId ≤ id) :
          LeavesAlways options id call (events ++ [last]) := by
        have hAlways := (ih hBefore (Or.inl hAbove)).resolve_left
          (fun hCommitted => Nat.not_lt_of_le hAbove hCommitted.below)
        apply hAlways.concat
        rintro surrounding rfl
        rcases hSound.poll_cases hWithin with ⟨locks, hPoll, _⟩ | ⟨_, task, _, hFound, hTask, _⟩
        · change Leaves options call _
            (pollTask options (Run.after options events).system id surrounding)
          rw [hPoll]
          exact leaves_of_same rfl rfl
        · have hBelow := hSound.below task hTask
          have hId := ((hSound.task?_eq_some_iff id task).mp hFound).2
          omega
      rw [hStep] at hMade ⊢
      rcases hMade with hAbove | hCall
      · exact Or.inr (hUnborn (Nat.le_trans (nextId_le_happen options _ last) hAbove))
      · rcases List.mem_append.mp hCall with hOld | hNew
        · rcases ih hBefore (Or.inr hOld) with hCommitted | hAlways
          · exact Or.inl (hCommitted.step hSound hWithin)
          · by_cases hOwn : ∃ surrounding, last = .poll id surrounding
            · obtain ⟨surrounding, rfl⟩ := hOwn
              rcases (Run.booked options events hBefore).leaves_or_commits hSound hWithin hOld with
                hLeaves | hCommitted
              · refine Or.inr (hAlways.concat ?_)
                rintro other ⟨⟩
                exact hLeaves
              · exact Or.inl hCommitted
            · exact Or.inr (hAlways.concat fun surrounding hPoll =>
                absurd ⟨surrounding, hPoll⟩ hOwn)
        · obtain ⟨made, _, hSame⟩ := List.mem_map.mp hNew
          cases hSame
          exact Or.inr (hUnborn (Nat.le_refl _))

/-- Every turn of a request that is refused starts nothing and leaves every project as it was; a
chunk of settings may have ended the quiet period of its project. -/
theorem refused_leaves_projects (options : CoordinatorOptions) (events : List Event)
    (hEvents : ∀ event ∈ events, event.Within circumstances) {id : Nat} {call : Call}
    {error : UpdateError} (hMade : (id, call) ∈ (Run.after options events).calls)
    (hRefused : answerTo? (Run.after options events).history id = some (.error error)) :
    LeavesAlways options id call events := by
  apply (Run.committed_or_leaves options events hEvents id call (Or.inr hMade)).resolve_left
  intro hCommitted
  rw [answerTo?_eq_head?] at hRefused
  have hAnswer := (mem_answers_iff _ _ _).mp (List.mem_of_mem_head? hRefused)
  exact hCommitted.unrefused error hAnswer

/-- While its settings are applied the project of a chunk disappears. -/
def lostProject : List Event :=
  .notify { oneChange ".cw-settings" with timestamp := some 8 } :: turns 2 3 ++
    [.poll 2 { steady none with loadSettings := fun _ => some {} }] ++ turns 2 1 ++
      [.poll 2 { steady none with lookUp := fun asked => .failed (.notFound asked) }]

/-- The chunk is refused then, and the changes that were waiting have no timer any more. -/
example :
    let run := Run.after { quietPeriod := 1 } (firstChunk ++ lostProject)
    answerTo? run.history 2 = some (.error (.notFound "a")) ∧
      (run.state.changes "a").length = 1 ∧ run.state.batches.outstanding "a" = 1 ∧
        timer? "a" run.system = none ∧ run.system.tasks.length = 0 := by
  decide

end Coordinator

end BuildWatch
