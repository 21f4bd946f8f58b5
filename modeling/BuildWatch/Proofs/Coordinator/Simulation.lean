import BuildWatch.Proofs.Coordinator.WorkMoves

/-!
Every event of a run is, for every project, either some moves of its view or one
advance of its build.  The task that has a turn changes its own stage last, so its
turn is read as the moves of its work followed by the moves of its end.
-/

namespace BuildWatch

open BuildWatch.Tasks

namespace Coordinator

variable {circumstances : Circumstances} {options : CoordinatorOptions} {project : String}

/-! ### The end of a turn -/

/-- The view of a project after a turn of a task that stands between others. -/
def turnView (project : String) (earlier later : List Stage) (turn : CoordinatorTurn) : View :=
  View.of project (earlier ++ turn.next.stage?.toList ++ later ++ turn.spawned) turn.data

section

variable {earlier later : List Stage} {stage : Stage} {work : Work} {view : View}

theorem changing_pos (work : Work) (hDeals : stage.dealsWith project = true) :
    0 < (work.view project (earlier ++ stage :: later)).changing := by
  have hMember : stage ∈ earlier ++ stage :: later ++ work.spawned := by simp
  exact List.countP_pos_iff.mpr ⟨stage, hMember, hDeals⟩

theorem goOn_moves {next : Next Stage Query} {goal : Stage} (release : Bool)
    (hNext : next.stage? = some goal) (hPhase : stage.phaseOf? project = none)
    (hGoal : goal.phaseOf? project = none)
    (hDeals : goal.dealsWith project = stage.dealsWith project)
    (hMoves : Moves circumstances project view (work.view project (earlier ++ stage :: later))) :
    Moves circumstances project view
      (turnView project earlier later (work.turn release next)) := by
  have hView : turnView project earlier later (work.turn release next) =
      work.view project (earlier ++ stage :: later) := by
    refine View.ext rfl rfl rfl ?_ ?_ rfl
    · simp [turnView, Work.turn, Work.view, View.of, hNext, hPhase, hGoal]
    · simp [turnView, Work.turn, Work.view, View.of, hNext, List.countP_cons, hDeals]
  rw [hView]
  exact hMoves

theorem finish_moves (hPhase : stage.phaseOf? project = none)
    (hLeaves : stage.dealsWith project = true →
      (work.view project (earlier ++ stage :: later)).Settled ∨ circumstances.MayFail)
    (hMoves : Moves circumstances project view (work.view project (earlier ++ stage :: later))) :
    Moves circumstances project view (turnView project earlier later work.finish) := by
  have hView (changing : Nat) (hChanging :
      ((earlier ++ later) ++ work.spawned).countP (Stage.dealsWith project) = changing) :
      turnView project earlier later work.finish =
        { work.view project (earlier ++ stage :: later) with changing := changing } := by
    refine View.ext rfl rfl rfl ?_ ?_ rfl
    · simp [turnView, Work.finish, Work.turn, Next.stage?, Work.view, View.of, hPhase]
    · simp only [← hChanging, turnView, Work.finish, Work.turn, Next.stage?, View.of,
        Option.toList_none, List.append_nil]
  have hCount : (work.view project (earlier ++ stage :: later)).changing =
      ((earlier ++ later) ++ work.spawned).countP (Stage.dealsWith project) +
        (if stage.dealsWith project = true then 1 else 0) := by
    simp only [Work.view, View.of, List.countP_append, List.countP_cons]
    omega
  rw [hView _ rfl]
  by_cases hDeals : stage.dealsWith project = true
  · rw [if_pos hDeals] at hCount
    rcases hLeaves hDeals with hSettled | hFail
    · exact hMoves.tail (.leave _ _ hCount hSettled)
    · exact hMoves.tail (.refuse _ _ hCount hFail)
  · rw [if_neg hDeals, Nat.add_zero] at hCount
    rw [← hCount]
    exact hMoves

theorem answer_moves (request : Nat) (result : UpdateResult)
    (hPhase : stage.phaseOf? project = none)
    (hLeaves : stage.dealsWith project = true →
      (work.view project (earlier ++ stage :: later)).Settled ∨ circumstances.MayFail)
    (hMoves : Moves circumstances project view (work.view project (earlier ++ stage :: later))) :
    Moves circumstances project view (turnView project earlier later
      (work.answer request result)) := by
  have hTold : Move circumstances project (work.view project (earlier ++ stage :: later))
      ((work.map (·.tell (.answered request result))).view project (earlier ++ stage :: later)) :=
    .elsewhere _ (.answered request result) nofun
  exact finish_moves hPhase hLeaves (hMoves.tail hTold)

theorem withProject_moves {lookup : Lookup} {next : ProjectInfo → CoordinatorTurn}
    (request : Nat) {asked : String} (hLookup : circumstances.lookup asked lookup)
    (hPhase : stage.phaseOf? project = none)
    (hMoves : Moves circumstances project view (work.view project (earlier ++ stage :: later)))
    (hNext : ∀ info, circumstances.lookup asked (.found info) →
      Moves circumstances project view (turnView project earlier later (next info))) :
    Moves circumstances project view
      (turnView project earlier later (withProject work request asked lookup next)) := by
  cases lookup with
  | found info => exact hNext info hLookup
  | failed error =>
      exact answer_moves request _ hPhase
        (fun _ => Or.inr (Or.inl ⟨asked, error, hLookup⟩)) hMoves
  | panicked =>
      exact answer_moves request _ hPhase
        (fun _ => Or.inr (Or.inr (Or.inl ⟨asked, hLookup⟩))) hMoves

theorem proceed_moves {change : Change} {info : ProjectInfo} (release : Bool)
    (hPhase : stage.phaseOf? project = none) (hChange : stage.change? = some change)
    (hMoves : Moves circumstances project view (work.view project (earlier ++ stage :: later))) :
    Moves circumstances project view
      (turnView project earlier later (proceed options work release change info)) := by
  have hDeals (goal : Stage) (hGoal : goal.change? = some change) :
      goal.dealsWith project = stage.dealsWith project := by
    unfold Stage.dealsWith
    rw [hGoal, hChange]
  unfold proceed
  split
  · exact goOn_moves release rfl hPhase (Stage.phaseOf?_of_phase? project rfl) (hDeals _ rfl) hMoves
  · exact goOn_moves release rfl hPhase (Stage.phaseOf?_of_phase? project rfl) (hDeals _ rfl) hMoves

theorem afterLoad_moves {change : Change} {info : ProjectInfo} (settings? : Option Settings)
    (hPhase : stage.phaseOf? project = none) (hChange : stage.change? = some change)
    (hMoves : Moves circumstances project view (work.view project (earlier ++ stage :: later))) :
    Moves circumstances project view
      (turnView project earlier later (afterLoad options work change info settings?)) := by
  unfold afterLoad
  split
  · rename_i settings
    split
    · have hTold : Move circumstances project (work.view project (earlier ++ stage :: later))
          ((work.map (·.tell (.applying info.id settings))).view project
            (earlier ++ stage :: later)) :=
        .elsewhere _ (.applying info.id settings) nofun
      refine goOn_moves false rfl hPhase (Stage.phaseOf?_of_phase? project rfl) ?_
        (hMoves.tail hTold)
      unfold Stage.dealsWith
      rw [hChange]
      rfl
    · exact proceed_moves false hPhase hChange hMoves
  · exact proceed_moves false hPhase hChange hMoves

theorem handOver_moves {info : ProjectInfo} (release : Bool)
    (changes : Option (List ChangeEvent)) (hOther : project ≠ info.id)
    (hPhase : stage.phaseOf? project = none) (hDeals : stage.dealsWith project = false)
    (hMoves : Moves circumstances project view (work.view project (earlier ++ stage :: later))) :
    Moves circumstances project view
      (turnView project earlier later (handOver options work release info changes)) := by
  refine goOn_moves release rfl hPhase ?_ hDeals.symm (hMoves.trans ?_)
  · exact Stage.phaseOf?_of_ne hOther.symm
  · exact tell_moves hOther [.started info.id, .handed (options.operation info) changes]
      (by simp [Notice.project?, CoordinatorOptions.operation]) _

theorem endBuild_moves {other : String} (result : BuildResult) (hOther : project ≠ other)
    (hPhase : stage.phaseOf? project = none) (hDeals : stage.dealsWith project = false)
    (hMoves : Moves circumstances project view (work.view project (earlier ++ stage :: later))) :
    Moves circumstances project view
      (turnView project earlier later (endBuild work other result)) := by
  have hEnded (followUp? : Option FollowUp) : Moves circumstances project view
      ((work.map fun state =>
        { (state.tell (.finished other result)).tell (.passedOn other followUp?) with
          builds := state.builds.finish other }).view project (earlier ++ stage :: later)) := by
    have hBuild : (work.state.builds.finish other).state project =
        work.state.builds.state project := by
      rw [Builds.state_finish, if_neg hOther]
    have hView : (work.map fun state =>
        { (state.tell (.finished other result)).tell (.passedOn other followUp?) with
          builds := state.builds.finish other }).view project (earlier ++ stage :: later) =
        [Notice.finished other result, .passedOn other followUp?].foldl View.tell
          (work.view project (earlier ++ stage :: later)) :=
      View.ext rfl rfl hBuild rfl rfl rfl
    rw [hView]
    exact hMoves.trans (tell_moves hOther _ (by simp [Notice.project?]) _)
  unfold endBuild
  dsimp only
  split
  · exact goOn_moves false rfl hPhase (Stage.phaseOf?_of_ne hOther.symm) hDeals.symm (hEnded _)
  · exact finish_moves hPhase (by simp [hDeals]) (hEnded _)

theorem abandon_moves {other : String} (hOther : project ≠ other)
    (hPhase : stage.phaseOf? project = none) (hDeals : stage.dealsWith project = false)
    (hMoves : Moves circumstances project view (work.view project (earlier ++ stage :: later))) :
    Moves circumstances project view (turnView project earlier later (abandon work other)) := by
  have hBuild : (work.state.builds.abandon other).state project =
      work.state.builds.state project := by
    rw [Builds.state_abandon, if_neg hOther]
  have hView : (work.map fun state =>
      { state with builds := state.builds.abandon other }).view project
        (earlier ++ stage :: later) = work.view project (earlier ++ stage :: later) :=
    View.ext rfl rfl hBuild rfl rfl rfl
  exact finish_moves hPhase (by simp [hDeals]) (hView ▸ hMoves)

end

/-- A turn of a task that does not build the project. -/
theorem turn_moves (self fresh : Nat) {stage : Stage} {wait : Wait Query} {answer? : Option Answer}
    (earlier later : List Stage) (data : CoordinatorState) (hAwaits : stage.Awaits options wait)
    (hInformed : stage.Informed circumstances) (hReplies : Replies circumstances wait answer?)
    (hPhase : stage.phaseOf? project = none) :
    Moves circumstances project (View.of project (earlier ++ stage :: later) data)
      (turnView project earlier later (resume options self fresh stage answer? data)) := by
  have hStart : Moves circumstances project (View.of project (earlier ++ stage :: later) data)
      (Work.view project (earlier ++ stage :: later) { state := data, fresh := fresh }) := by
    rw [Work.view_start]
  have hUnseen (goal : Stage) (hGoal : goal.phase? = none) : goal.phaseOf? project = none :=
    Stage.phaseOf?_of_phase? project hGoal
  cases stage with
  | update asked => exact goOn_moves false rfl hPhase (hUnseen _ rfl) rfl hStart
  | updateFound asked =>
      cases hAwaits
      obtain ⟨lookup, hLookup, rfl⟩ := hReplies
      refine withProject_moves self hLookup hPhase hStart ?_
      intro info hInfo
      unfold updateWith
      split
      · exact goOn_moves false rfl hPhase (hUnseen _ rfl) rfl hStart
      · rename_i hOff
        refine answer_moves self _ hPhase (by rintro ⟨⟩) (hStart.trans ?_)
        exact Work.require_moves ⟨info, hInfo, by simpa using hOff⟩
  | updateLocked asked info =>
      refine answer_moves self _ hPhase (by rintro ⟨⟩) (hStart.trans ?_)
      exact startUpdate_moves (circumstances.faithful _ _ hInformed)
  | change chunk => exact goOn_moves false rfl hPhase (hUnseen _ rfl) rfl hStart
  | changeFound chunk =>
      cases hAwaits
      obtain ⟨lookup, hLookup, rfl⟩ := hReplies
      refine withProject_moves self hLookup hPhase hStart ?_
      intro info _
      exact goOn_moves false rfl hPhase (hUnseen _ rfl) rfl hStart
  | changeTimer chunk info =>
      have hCancelled : Moves circumstances project
          (View.of project (earlier ++ .changeTimer chunk info :: later) data)
          ((Work.cancelTimer { state := data, fresh := fresh } chunk.project).view project
            (earlier ++ .changeTimer chunk info :: later)) := by
        refine hStart.trans ?_
        by_cases hSame : project = chunk.project
        · subst hSame
          rw [Work.view_cancelTimer_self]
          exact .single (.cancel _ (changing_pos _ ((Stage.dealsWith_iff _ rfl).mpr rfl)))
        · rw [Work.view_cancelTimer_ne hSame]
      simp only [resume]
      unfold afterCancel
      split
      · exact goOn_moves true rfl hPhase (hUnseen _ rfl) rfl hCancelled
      · exact proceed_moves true hPhase rfl hCancelled
  | changeLoaded chunk info => exact afterLoad_moves _ hPhase rfl hStart
  | changeApplied chunk info =>
      obtain ⟨settings, hWait⟩ := hAwaits
      subst hWait
      obtain ⟨result, hResult, rfl⟩ := hReplies
      cases result with
      | applied => exact goOn_moves false rfl hPhase (hUnseen _ rfl) rfl hStart
      | failed => exact proceed_moves false hPhase rfl hStart
      | panicked =>
          exact answer_moves self _ hPhase (fun _ => Or.inr (Or.inr (Or.inr hResult))) hStart
  | changeRefreshed chunk =>
      cases hAwaits
      obtain ⟨lookup, hLookup, rfl⟩ := hReplies
      refine withProject_moves self hLookup hPhase hStart ?_
      intro info _
      exact proceed_moves false hPhase rfl hStart
  | changeBuffer chunk info =>
      refine goOn_moves true rfl hPhase (hUnseen _ rfl) rfl (hStart.trans ?_)
      by_cases hSame : project = chunk.project
      · subst hSame
        rw [Work.view_buffer_self]
        exact .single (.buffer _ self _ (changing_pos _ ((Stage.dealsWith_iff _ rfl).mpr rfl)))
      · rw [Work.view_buffer_ne _ _ hSame]
        exact tell_moves hSame [.buffered self chunk.project (buildEvents options chunk)]
          (by simp [Notice.project?]) _
  | changeLocked chunk info =>
      by_cases hSame : project = chunk.project
      · subst hSame
        have hDecide := decide_moves_self options (earlier ++ .changeLocked chunk info :: later)
          { state := data, fresh := fresh } hInformed
        exact answer_moves self _ hPhase (fun _ => Or.inl hDecide.2) (hStart.trans hDecide.1)
      · have hId : info.id = chunk.project := circumstances.faithful _ _ hInformed
        refine answer_moves self _ hPhase ?_ (hStart.trans
          (decide_moves_ne options _ _ hId hSame))
        intro hDeals
        exact absurd ((Stage.dealsWith_iff _ rfl).mp hDeals).symm hSame
  | timer asked => exact goOn_moves false rfl hPhase (hUnseen _ rfl) rfl hStart
  | timerElapsed asked => exact goOn_moves false rfl hPhase (hUnseen _ rfl) rfl hStart
  | timerFound asked =>
      cases hAwaits
      obtain ⟨lookup, hLookup, rfl⟩ := hReplies
      cases lookup with
      | panicked => exact finish_moves hPhase (by rintro ⟨⟩) hStart
      | found info => exact goOn_moves false rfl hPhase (hUnseen _ rfl) rfl hStart
      | failed error => exact goOn_moves false rfl hPhase (hUnseen _ rfl) rfl hStart
  | timerLocked asked lookup =>
      refine finish_moves hPhase (by rintro ⟨⟩) (hStart.trans ?_)
      by_cases hSame : project = asked
      · subst hSame
        exact elapse_moves_self self hInformed
      · exact elapse_moves_ne self hInformed hSame
  | build info changes =>
      exact handOver_moves false changes (Stage.project_ne_of_phaseOf? hPhase rfl) hPhase rfl hStart
  | buildEnded asked =>
      exact endBuild_moves _ (Stage.project_ne_of_phaseOf? hPhase rfl) hPhase rfl hStart
  | followUpFound asked followUp =>
      have hOther : project ≠ asked := Stage.project_ne_of_phaseOf? hPhase rfl
      cases hAwaits
      obtain ⟨lookup, hLookup, rfl⟩ := hReplies
      cases lookup with
      | panicked => exact finish_moves hPhase (by rintro ⟨⟩) hStart
      | failed error => exact abandon_moves hOther hPhase rfl hStart
      | found info =>
          simp only [resume, Answer.toLookup, followUpWith]
          split
          · exact goOn_moves false rfl hPhase (Stage.phaseOf?_of_ne hOther.symm) rfl hStart
          · rename_i hOff
            refine abandon_moves hOther hPhase rfl (hStart.trans ?_)
            exact Work.require_moves ⟨info, hLookup, by simpa using hOff⟩
  | followUpLocked asked info followUp =>
      have hOther : project ≠ asked := Stage.project_ne_of_phaseOf? hPhase rfl
      have hId : info.id = asked := circumstances.faithful _ _ hInformed
      refine handOver_moves true _ (hId ▸ hOther) hPhase rfl (hStart.trans ?_)
      rw [Work.view_drain_ne hOther]
      exact tell_moves hOther [.drained asked _] (by simp [Notice.project?]) _

/-! ### The turns of a build -/

section

variable {earlier later : List Stage} {stage : Stage} {phase : Phase} (work : Work)
variable (hPhase : stage.phaseOf? project = some phase) (hSpawned : work.spawned = [])
variable (hEarlier : earlier.filterMap (Stage.phaseOf? project) = [])
variable (hLater : later.filterMap (Stage.phaseOf? project) = [])

include hPhase hSpawned hEarlier hLater

theorem goOn_view (release : Bool) (next : Next Stage Query) {goal : Stage} {entered : Phase}
    (hNext : next.stage? = some goal) (hGoal : goal.phaseOf? project = some entered) :
    turnView project earlier later (work.turn release next) =
      { View.of project (earlier ++ stage :: later) work.state with phases := [entered] } := by
  have hDeals := Stage.dealsWith_of_phase? project
    ((Stage.phaseOf?_eq_some_iff _ _ _).mp hPhase).2
  have hGoalDeals := Stage.dealsWith_of_phase? project
    ((Stage.phaseOf?_eq_some_iff _ _ _).mp hGoal).2
  refine View.ext rfl rfl rfl ?_ ?_ rfl
  · simp [turnView, View.of, Work.turn, hSpawned, hEarlier, hLater, hNext, hGoal]
  · simp [turnView, View.of, Work.turn, hSpawned, hNext, hDeals, hGoalDeals]

theorem finish_view :
    turnView project earlier later work.finish =
      { View.of project (earlier ++ stage :: later) work.state with phases := [] } := by
  have hDeals := Stage.dealsWith_of_phase? project
    ((Stage.phaseOf?_eq_some_iff _ _ _).mp hPhase).2
  refine View.ext rfl rfl rfl ?_ ?_ rfl
  · simp [turnView, View.of, Work.finish, Work.turn, Next.stage?, hSpawned, hEarlier, hLater]
  · simp [turnView, View.of, Work.finish, Work.turn, Next.stage?, hSpawned, hDeals]

theorem handOver_view (release : Bool) {info : ProjectInfo} (changes : Option (List ChangeEvent))
    (hId : info.id = project) :
    turnView project earlier later (handOver options work release info changes) =
      (({ View.of project (earlier ++ stage :: later) work.state with
          phases := [.building] }.tell (.started project)).tell
            (.handed (options.operation info) changes)) := by
  have hTurn := goOn_view
    ((work.map (·.tell (.started info.id))).map (·.tell (.handed (options.operation info) changes)))
    hPhase hSpawned hEarlier hLater release
    (.ask (.build (options.operation info) changes) (.buildEnded info.id)) rfl
    (Stage.phaseOf?_of_eq hId)
  rw [← hId] at hTurn ⊢
  exact hTurn

theorem endBuild_view (result : BuildResult) :
    turnView project earlier later (endBuild work project result) =
      ({ View.of project (earlier ++ stage :: later) work.state with
          build := (work.state.builds.state project).finish
          phases := (work.state.builds.state project).requested.toList.map .preparing
        }.tell (.finished project result)).tell
          (.passedOn project (work.state.builds.state project).requested) := by
  have hBuild : (work.state.builds.finish project).state project =
      (work.state.builds.state project).finish := by
    rw [Builds.state_finish, if_pos rfl]
  have hRequested : work.state.builds.followUp? project =
      (work.state.builds.state project).requested := rfl
  unfold endBuild
  rw [hRequested]
  dsimp only
  cases hCase : (work.state.builds.state project).requested with
  | none =>
      have hTurn := finish_view (work.map fun state =>
        { (state.tell (.finished project result)).tell (.passedOn project none) with
          builds := state.builds.finish project }) hPhase hSpawned hEarlier hLater
      refine hTurn.trans ?_
      exact View.ext rfl rfl hBuild rfl rfl rfl
  | some followUp =>
      have hTurn := goOn_view (work.map fun state =>
        { (state.tell (.finished project result)).tell (.passedOn project (some followUp)) with
          builds := state.builds.finish project }) hPhase hSpawned hEarlier hLater false
        (.ask (.lookUp project) (.followUpFound project followUp)) rfl (Stage.phaseOf?_of_eq rfl)
      refine hTurn.trans ?_
      exact View.ext rfl rfl hBuild rfl rfl rfl

theorem abandon_view :
    turnView project earlier later (abandon work project) =
      { View.of project (earlier ++ stage :: later) work.state with
        build := (work.state.builds.state project).abandon
        phases := [] } := by
  have hBuild : (work.state.builds.abandon project).state project =
      (work.state.builds.state project).abandon := by
    rw [Builds.state_abandon, if_pos rfl]
  have hTurn := finish_view (work.map fun state =>
    { state with builds := state.builds.abandon project }) hPhase hSpawned hEarlier hLater
  refine hTurn.trans ?_
  exact View.ext rfl rfl hBuild rfl rfl rfl

end

/-- A turn of the only task that builds the project. -/
theorem turn_advances (self fresh : Nat) {stage : Stage} {wait : Wait Query}
    {answer? : Option Answer} {phase : Phase} {earlier later : List Stage}
    (data : CoordinatorState) (hAwaits : stage.Awaits options wait)
    (hInformed : stage.Informed circumstances) (hReplies : Replies circumstances wait answer?)
    (hPhase : stage.phaseOf? project = some phase)
    (hEarlier : earlier.filterMap (Stage.phaseOf? project) = [])
    (hLater : later.filterMap (Stage.phaseOf? project) = []) :
    Advance circumstances project (View.of project (earlier ++ stage :: later) data)
      (turnView project earlier later (resume options self fresh stage answer? data)) := by
  have hPhases : (View.of project (earlier ++ stage :: later) data).phases = [phase] := by
    simp [View.of, hEarlier, hLater, hPhase]
  obtain ⟨hProject, hKind⟩ := (Stage.phaseOf?_eq_some_iff stage project phase).mp hPhase
  cases stage with
  | build info changes =>
      cases hKind
      rw [resume, handOver_view _ hPhase rfl hEarlier hLater false changes hProject]
      exact .start _ changes (options.operation info) hPhases hProject
  | buildEnded asked =>
      cases hKind
      change asked = project at hProject
      subst hProject
      rw [resume, endBuild_view _ hPhase rfl hEarlier hLater]
      exact .finish _ _ hPhases
  | followUpFound asked followUp =>
      cases hKind
      change asked = project at hProject
      subst hProject
      cases hAwaits
      obtain ⟨lookup, hLookup, rfl⟩ := hReplies
      cases lookup with
      | panicked =>
          simp only [resume, Answer.toLookup, followUpWith]
          rw [finish_view { state := data, fresh := fresh } hPhase rfl hEarlier hLater]
          exact .vanish _ followUp hPhases hLookup
      | failed error =>
          simp only [resume, Answer.toLookup, followUpWith]
          rw [abandon_view { state := data, fresh := fresh } hPhase rfl hEarlier hLater]
          exact .abandon _ followUp hPhases ⟨error, hLookup⟩
      | found info =>
          simp only [resume, Answer.toLookup, followUpWith]
          split
          · rw [goOn_view { state := data, fresh := fresh } hPhase rfl hEarlier hLater false
              (.acquire [changesLock] (.followUpLocked asked info followUp)) rfl
              (Stage.phaseOf?_of_eq rfl)]
            exact .find _ followUp hPhases
          · rename_i hOff
            rw [abandon_view _ hPhase rfl hEarlier hLater]
            have hBuild : (data.builds.require asked true).state asked =
                { data.builds.state asked with required := true } := by
              rw [Builds.state_require, if_pos rfl]
            convert Advance.skip _ followUp hPhases ⟨info, hLookup, by simpa using hOff⟩ using 1
            exact View.ext rfl rfl (congrArg BuildState.abandon hBuild) rfl rfl rfl
  | followUpLocked asked info followUp =>
      cases hKind
      change asked = project at hProject
      subst hProject
      have hId : info.id = asked := circumstances.faithful _ _ hInformed
      have hChanges : (data.drain asked).changes asked = [] := by
        rw [CoordinatorState.changes_drain, if_pos rfl]
      simp only [resume, beginFollowUp]
      rw [handOver_view (Work.map { state := data, fresh := fresh } (·.drain asked)) hPhase rfl
        hEarlier hLater true _ hId]
      convert Advance.follow _ followUp (options.operation info) hPhases hId using 1
      exact View.ext rfl hChanges rfl rfl rfl rfl
  | _ => cases hKind

end Coordinator

end BuildWatch
