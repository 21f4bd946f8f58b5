import BuildWatch.Proofs.Coordinator.View

/-!
What the operations within a turn do to the view of a project.  Each of them is a
sequence of moves, and those that decide on a build leave no changes unseen to.
-/

namespace BuildWatch

open BuildWatch.Tasks

namespace Coordinator

variable {circumstances : Circumstances} {options : CoordinatorOptions} {project : String}

/-! ### The view in the midst of a turn -/

def Work.view (project : String) (stages : List Stage) (work : Work) : View :=
  View.of project (stages ++ work.spawned) work.state

theorem Work.view_start (fresh : Nat) (stages : List Stage) (data : CoordinatorState) :
    Work.view project stages { state := data, fresh := fresh } = View.of project stages data := by
  unfold Work.view
  rw [List.append_nil]

section

variable {stages : List Stage} {work : Work}

theorem Work.view_cancelTimer_self :
    (work.cancelTimer project).view project stages =
      { work.view project stages with timer := false } := by
  have hTimer : (work.state.timers.cancel project).isPending project = false := by
    rw [Timers.isPending_cancel, if_pos rfl]
  exact View.ext hTimer rfl rfl rfl rfl rfl

theorem Work.view_cancelTimer_ne {other : String} (hOther : project ≠ other) :
    (work.cancelTimer other).view project stages = work.view project stages := by
  have hTimer : (work.state.timers.cancel other).isPending project =
      work.state.timers.isPending project := by
    rw [Timers.isPending_cancel, if_neg hOther]
  exact View.ext hTimer rfl rfl rfl rfl rfl

theorem Work.view_require_self :
    (work.map (·.require project)).view project stages =
      { work.view project stages with
        build := { (work.view project stages).build with required := true } }.tell
          (.required project) := by
  have hBuild : (work.state.builds.require project true).state project =
      { work.state.builds.state project with required := true } := by
    rw [Builds.state_require, if_pos rfl]
  exact View.ext rfl rfl hBuild rfl rfl rfl

theorem Work.view_require_ne {other : String} (hOther : project ≠ other) :
    (work.map (·.require other)).view project stages =
      (work.view project stages).tell (.required other) := by
  have hBuild : (work.state.builds.require other true).state project =
      work.state.builds.state project := by
    rw [Builds.state_require, if_neg hOther]
  exact View.ext rfl rfl hBuild rfl rfl rfl

theorem Work.view_buffer_self (request : Nat) (changes : List ChangeEvent) :
    (work.map (·.buffer request project changes)).view project stages =
      { work.view project stages with
        changes := (work.view project stages).changes ++ changes }.tell
          (.buffered request project changes) := by
  refine View.ext rfl ?_ rfl rfl rfl rfl
  exact (CoordinatorState.changes_buffer _ request project project changes).trans (if_pos rfl)

theorem Work.view_buffer_ne (request : Nat) (changes : List ChangeEvent) {other : String}
    (hOther : project ≠ other) :
    (work.map (·.buffer request other changes)).view project stages =
      (work.view project stages).tell (.buffered request other changes) := by
  refine View.ext rfl ?_ rfl rfl rfl rfl
  exact (CoordinatorState.changes_buffer _ request other project changes).trans (if_neg hOther)

theorem Work.view_drain_ne {other : String} (hOther : project ≠ other) :
    (work.map (·.drain other)).view project stages =
      (work.view project stages).tell (.drained other (work.state.changes other)) := by
  refine View.ext rfl ?_ rfl rfl rfl rfl
  exact (CoordinatorState.changes_drain _ other project).trans (if_neg hOther)

theorem view_spawn_timer (other : String) (data : CoordinatorState) :
    View.of project (stages ++ (work.spawned ++ [.timer other])) data =
      View.of project (stages ++ work.spawned) data := by
  rw [← List.append_assoc]
  refine View.ext rfl rfl rfl ?_ ?_ rfl
  · have hPhase : Stage.phaseOf? project (.timer other) = none :=
      Stage.phaseOf?_of_phase? project rfl
    simp [View.of, hPhase]
  · have hDeals : Stage.dealsWith project (.timer other) = false := rfl
    simp [View.of, hDeals]

theorem Work.view_armTimer_self :
    (work.armTimer project).view project stages =
      { work.view project stages with timer := true } := by
  unfold Work.view
  have hTimer : (work.armTimer project).state.timers.isPending project = true := by
    change (work.state.timers.arm project _).isPending project = true
    rw [Timers.isPending_arm, if_pos rfl]
  refine (view_spawn_timer project _).trans ?_
  exact View.ext hTimer rfl rfl rfl rfl rfl

theorem Work.view_armTimer_ne {other : String} (hOther : project ≠ other) :
    (work.armTimer other).view project stages = work.view project stages := by
  unfold Work.view
  have hTimer : (work.armTimer other).state.timers.isPending project =
      work.state.timers.isPending project := by
    change (work.state.timers.arm other _).isPending project = _
    rw [Timers.isPending_arm, if_neg hOther]
  refine (view_spawn_timer other _).trans ?_
  exact View.ext hTimer rfl rfl rfl rfl rfl

theorem Work.view_beginBuild_queued {info : ProjectInfo} {explicit : Bool}
    (hProgress : (work.view project stages).build.inProgress = true) :
    (work.beginBuild project info explicit).view project stages =
      { work.view project stages with
        build := (work.view project stages).build.begin explicit }.tell
          (.queued project explicit) := by
  have hSlot : work.state.builds.slot project = .queued := by
    unfold Builds.slot
    rw [if_pos]
    exact hProgress
  have hBuild : (work.state.builds.begin project explicit).state project =
      (work.state.builds.state project).begin explicit := by
    rw [Builds.state_begin, if_pos rfl]
  unfold Work.beginBuild
  simp only [hSlot]
  exact View.ext rfl rfl hBuild rfl rfl rfl

theorem Work.view_beginBuild_started {info : ProjectInfo} {explicit : Bool}
    (hId : info.id = project) (hIdle : (work.view project stages).build.inProgress = false) :
    (work.beginBuild project info explicit).view project stages =
      ({ work.view project stages with
          changes := []
          build := (work.view project stages).build.begin explicit
          phases := (work.view project stages).phases ++
            [Phase.waiting
              (if explicit then none else some (work.view project stages).changes)]
        }.tell (.begun project explicit)).tell
          (.drained project (work.view project stages).changes) := by
  have hSlot : work.state.builds.slot project = .started :=
    (Builds.slot_eq_started_iff _ _).mpr hIdle
  have hBuild : (work.state.builds.begin project explicit).state project =
      (work.state.builds.state project).begin explicit := by
    rw [Builds.state_begin, if_pos rfl]
  unfold Work.beginBuild
  simp only [hSlot]
  refine View.ext rfl ?_ hBuild ?_ ?_ ?_
  · exact (CoordinatorState.changes_drain _ project project).trans (if_pos rfl)
  · subst hId
    simp [Work.view, View.of, Work.spawn, Stage.phaseOf?, Stage.project, Stage.phase?,
      CoordinatorState.changes, View.tell]
  · simp [Work.view, View.of, Work.spawn, Stage.dealsWith, Stage.change?, View.tell]
  · simp [Work.view, View.of, Work.spawn, View.tell, CoordinatorState.tell,
      CoordinatorState.drain, CoordinatorState.changes]

theorem Work.view_beginBuild_ne (stages : List Stage) (work : Work) {other : String}
    {info : ProjectInfo} (explicit : Bool) (hId : info.id = other) (hOther : project ≠ other) :
    ∃ notices : List Notice, (∀ notice ∈ notices, notice.project? = some other) ∧
      (work.beginBuild other info explicit).view project stages =
        notices.foldl View.tell (work.view project stages) := by
  have hBuild : (work.state.builds.begin other explicit).state project =
      work.state.builds.state project := by
    rw [Builds.state_begin, if_neg hOther]
  unfold Work.beginBuild
  dsimp only
  cases work.state.builds.slot other with
  | queued =>
      refine ⟨[.queued other explicit], by simp [Notice.project?], ?_⟩
      exact View.ext rfl rfl hBuild rfl rfl rfl
  | started =>
      have hStage (changes : Option (List ChangeEvent)) :
          Stage.phaseOf? project (.build info changes) = none :=
        Stage.phaseOf?_of_ne fun hSame => hOther (hSame.symm.trans hId)
      refine ⟨[.begun other explicit, .drained other (work.state.changes other)],
        by simp [Notice.project?], ?_⟩
      refine View.ext rfl ?_ hBuild ?_ ?_ ?_
      · exact (CoordinatorState.changes_drain _ other project).trans (if_neg hOther)
      · simp [Work.view, View.of, View.tell, Work.spawn, hStage]
      · simp [Work.view, View.of, View.tell, Work.spawn, Stage.dealsWith, Stage.change?]
      · simp [Work.view, View.of, View.tell, Work.spawn, CoordinatorState.tell,
          CoordinatorState.drain, CoordinatorState.changes]

/-! ### Moves of a turn -/

theorem tell_moves {other : String} (hOther : project ≠ other) (notices : List Notice)
    (hNotices : ∀ notice ∈ notices, notice.project? = some other) (view : View) :
    Moves circumstances project view (notices.foldl View.tell view) := by
  induction notices generalizing view with
  | nil => exact .refl
  | cons notice rest ih =>
      have hAbout : notice.project? ≠ some project := by
        rw [hNotices notice List.mem_cons_self]
        intro hSame
        exact hOther (Option.some.inj hSame).symm
      have hRest := ih (fun later hLater => hNotices later (List.mem_cons_of_mem notice hLater))
        (view.tell notice)
      exact .head (.elsewhere view notice hAbout) hRest

theorem Work.require_moves {other : String} (hOff : circumstances.MaySwitchOff other) :
    Moves circumstances project (work.view project stages)
      ((work.map (·.require other)).view project stages) := by
  by_cases hSame : project = other
  · subst hSame
    rw [Work.view_require_self]
    exact .single (.require _ hOff)
  · rw [Work.view_require_ne hSame]
    exact tell_moves hSame [.required other] (by simp [Notice.project?]) _

theorem Work.beginBuild_moves_self (stages : List Stage) (work : Work) {info : ProjectInfo}
    (explicit timer : Bool) (hId : info.id = project)
    (hTimer : (work.view project stages).timer = false)
    (hIdle : (work.view project stages).build.inProgress = false) :
    Moves circumstances project { work.view project stages with timer := timer }
      ((work.beginBuild project info explicit).view project stages) := by
  rw [Work.view_beginBuild_started hId hIdle]
  have hTake : Move circumstances project { work.view project stages with timer := timer } _ :=
    .take _ explicit hIdle
  rw [← hTimer] at hTake
  exact .single hTake

theorem startUpdate_moves {other : String} {info : ProjectInfo} (hId : info.id = other) :
    Moves circumstances project (work.view project stages)
      ((startUpdate work other info).view project stages) := by
  unfold startUpdate
  dsimp only
  by_cases hSame : project = other
  · subst hSame
    by_cases hSlot : work.state.builds.slot project = .started
    · rw [if_pos hSlot]
      have hIdle : ((work.cancelTimer project).view project stages).build.inProgress = false :=
        (Builds.slot_eq_started_iff _ _).mp hSlot
      have hTimer : ((work.cancelTimer project).view project stages).timer = false :=
        congrArg View.timer Work.view_cancelTimer_self
      have hMoves : Moves circumstances project _ _ :=
        Work.beginBuild_moves_self stages (work.cancelTimer project) true
          (work.view project stages).timer hId hTimer hIdle
      rw [Work.view_cancelTimer_self] at hMoves
      exact hMoves
    · rw [if_neg hSlot]
      have hProgress : (work.view project stages).build.inProgress = true := by
        rw [Builds.slot_eq_started_iff, Bool.not_eq_false] at hSlot
        exact hSlot
      rw [Work.view_beginBuild_queued hProgress]
      exact .single (.queue _ _ hProgress)
  · split
    · obtain ⟨notices, hNotices, hView⟩ :=
        Work.view_beginBuild_ne stages (work.cancelTimer other) true hId hSame
      rw [hView, Work.view_cancelTimer_ne hSame]
      exact tell_moves hSame notices hNotices _
    · obtain ⟨notices, hNotices, hView⟩ := Work.view_beginBuild_ne stages work true hId hSame
      rw [hView]
      exact tell_moves hSame notices hNotices _

/-- A decision about a build ends the timer of its project.  It does not matter whether the
timer was still kept, as the changes that wait are seen to without it. -/
theorem Work.trigger_moves_self (stages : List Stage) (work : Work) {info : ProjectInfo}
    (requireChanges timer : Bool)
    (hId : info.id = project) (hInfo : circumstances.lookup project (.found info)) :
    Moves circumstances project { work.view project stages with timer := timer }
        ((work.trigger info requireChanges).view project stages) ∧
      ((work.trigger info requireChanges).view project stages).Settled := by
  -- The timer may lapse last, as it is not needed after any of the other moves.
  have hLapse (after : View)
      (hMoves : Moves circumstances project { work.view project stages with timer := timer } after)
      (hKept : after.changes = [] ∨ after.Kept) :
      Moves circumstances project { work.view project stages with timer := timer }
          { after with timer := false } ∧
        ({ after with timer := false } : View).Settled := by
    refine ⟨hMoves.tail (.lapse after ?_), ?_⟩
    · exact hKept.imp_right Or.inl
    · exact hKept.imp_right Or.inr
  have hCleared : ((work.cancelTimer project).clearBatches project).view project stages =
      { work.view project stages with timer := false } := Work.view_cancelTimer_self
  unfold Work.trigger
  rw [hId]
  dsimp only
  split
  · rename_i hOff
    have hMove : Move circumstances project { work.view project stages with timer := timer } _ :=
      .require _ ⟨info, hInfo, by simpa using hOff⟩
    rw [Work.view_require_self, hCleared]
    exact hLapse _ (.single hMove) (Or.inr (Or.inl rfl))
  · split
    · rename_i hNone
      have hChanges : (work.view project stages).changes = [] := by
        refine (CoordinatorState.hasChanges_eq_false_iff work.state project).mp ?_
        simp only [Bool.and_eq_true, Bool.not_eq_true'] at hNone
        exact hNone.2
      rw [hCleared]
      exact hLapse { work.view project stages with timer := timer } .refl (Or.inl hChanges)
    · cases hProgress : (work.view project stages).build.inProgress with
      | true =>
          rw [Work.view_beginBuild_queued (hCleared ▸ hProgress), hCleared]
          have hMove : Move circumstances project
              { work.view project stages with timer := timer } _ := .queue _ false hProgress
          refine hLapse _ (.single hMove) (Or.inr (Or.inr ?_))
          simp [View.tell, BuildState.begin, hProgress]
      | false =>
          have hTimer : (((work.cancelTimer project).clearBatches project).view project
              stages).timer = false := congrArg View.timer hCleared
          have hMoves : Moves circumstances project _ _ := Work.beginBuild_moves_self stages
            ((work.cancelTimer project).clearBatches project) false timer hId hTimer
            (hCleared ▸ hProgress)
          rw [hCleared] at hMoves
          refine ⟨hMoves, Or.inl ?_⟩
          rw [Work.view_beginBuild_started hId (hCleared ▸ hProgress)]
          rfl

theorem Work.trigger_moves_ne (stages : List Stage) (work : Work) {info : ProjectInfo}
    {other : String} (requireChanges : Bool)
    (hId : info.id = other) (hOther : project ≠ other) :
    Moves circumstances project (work.view project stages)
      ((work.trigger info requireChanges).view project stages) := by
  have hCleared : ((work.cancelTimer other).clearBatches other).view project stages =
      work.view project stages := Work.view_cancelTimer_ne hOther
  unfold Work.trigger
  rw [hId]
  dsimp only
  split
  · rw [Work.view_require_ne hOther, hCleared]
    exact tell_moves hOther [.required other] (by simp [Notice.project?]) _
  · split
    · rw [hCleared]
    · obtain ⟨notices, hNotices, hView⟩ := Work.view_beginBuild_ne stages
        ((work.cancelTimer other).clearBatches other) false hId hOther
      rw [hView, hCleared]
      exact tell_moves hOther notices hNotices _

/-- A request that has taken in its chunk leaves nothing behind that no one sees to. -/
theorem decide_moves_self (options : CoordinatorOptions) (stages : List Stage) (work : Work)
    {change : Change} {info : ProjectInfo}
    (hInfo : circumstances.lookup change.project (.found info)) :
    Moves circumstances change.project (work.view change.project stages)
        ((decide options work change info).view change.project stages) ∧
      ((decide options work change info).view change.project stages).Settled := by
  have hId : info.id = change.project := circumstances.faithful _ _ hInfo
  have hArm (before : Work) : Moves circumstances change.project
        (before.view change.project stages)
        ((before.armTimer change.project).view change.project stages) ∧
      ((before.armTimer change.project).view change.project stages).Settled := by
    rw [Work.view_armTimer_self]
    exact ⟨.single (.arm _), Or.inr (Or.inl rfl)⟩
  unfold decide
  dsimp only
  split
  · -- A lone chunk of settings only arms a timer if there is work left.
    split
    · exact hArm work
    · rename_i hLeaves
      refine ⟨.refl, Or.inl ?_⟩
      refine (CoordinatorState.hasChanges_eq_false_iff work.state change.project).mp ?_
      simp only [leavesWork, Bool.or_eq_true, not_or, Bool.not_eq_true] at hLeaves
      exact hLeaves.2
  · split
    · -- The last chunk of the last batch decides on the build.
      split
      · exact Work.trigger_moves_self stages (work.record change) false
          (work.view change.project stages).timer hId hInfo
      · split
        · exact Work.trigger_moves_self stages (work.record change) true
            (work.view change.project stages).timer hId hInfo
        · rename_i hNone
          refine ⟨.refl, Or.inl ?_⟩
          exact (CoordinatorState.hasChanges_eq_false_iff (work.record change).state _).mp
            (by simpa using hNone)
    · exact hArm _

theorem decide_moves_ne (options : CoordinatorOptions) (stages : List Stage) (work : Work)
    {change : Change} {info : ProjectInfo} (hId : info.id = change.project)
    (hOther : project ≠ change.project) :
    Moves circumstances project (work.view project stages)
      ((decide options work change info).view project stages) := by
  unfold decide
  dsimp only
  split
  · split
    · rw [Work.view_armTimer_ne hOther]
    · exact .refl
  · split
    · split
      · exact Work.trigger_moves_ne stages (work.record change) false hId hOther
      · split
        · exact Work.trigger_moves_ne stages (work.record change) true hId hOther
        · exact .refl
    · rw [Work.view_armTimer_ne hOther]
      exact .refl

/-- A quiet period that is over leaves nothing behind that no one sees to, unless the
lookup of its project has failed. -/
theorem elapse_moves_self {lookup : Lookup} (self : Nat)
    (hLookup : circumstances.lookup project lookup) :
    Moves circumstances project (work.view project stages)
      ((elapse work self project lookup).view project stages) := by
  unfold elapse
  cases hClaim : work.state.timers.claim? project self with
  | none => exact .refl
  | some timers =>
      obtain ⟨_, hTimers⟩ := (Timers.claim?_eq_some_iff _ _ _ _).mp hClaim
      subst hTimers
      dsimp only
      have hClaimed : (work.map fun state =>
            { state with timers := state.timers.cancel project }).view project stages =
          { work.view project stages with timer := false } := Work.view_cancelTimer_self
      have hFailed (hFail : circumstances.MayFail) :
          Moves circumstances project (work.view project stages)
            ((work.map fun state =>
              { state with timers := state.timers.cancel project }).view project stages) := by
        rw [hClaimed]
        exact .single (.lapse _ (Or.inr (Or.inr hFail)))
      cases lookup with
      | found info =>
          have hId : info.id = project := circumstances.faithful _ _ hLookup
          have hMoves := (Work.trigger_moves_self stages
            (work.map fun state => { state with timers := state.timers.cancel project }) true
            (work.view project stages).timer hId hLookup).1
          rw [hClaimed] at hMoves
          exact hMoves
      | failed error => exact hFailed (Or.inl ⟨project, error, hLookup⟩)
      | panicked => exact hFailed (Or.inr (Or.inl ⟨project, hLookup⟩))

theorem elapse_moves_ne {other : String} {lookup : Lookup} (self : Nat)
    (hLookup : circumstances.lookup other lookup) (hOther : project ≠ other) :
    Moves circumstances project (work.view project stages)
      ((elapse work self other lookup).view project stages) := by
  unfold elapse
  cases hClaim : work.state.timers.claim? other self with
  | none => exact .refl
  | some timers =>
      obtain ⟨_, hTimers⟩ := (Timers.claim?_eq_some_iff _ _ _ _).mp hClaim
      subst hTimers
      dsimp only
      have hClaimed : (work.map fun state =>
            { state with timers := state.timers.cancel other }).view project stages =
          work.view project stages := Work.view_cancelTimer_ne hOther
      cases lookup with
      | found info =>
          have hId : info.id = other := circumstances.faithful _ _ hLookup
          have hMoves : Moves circumstances project _ _ := Work.trigger_moves_ne stages
            (work.map fun state => { state with timers := state.timers.cancel other }) true
            hId hOther
          rw [hClaimed] at hMoves
          exact hMoves
      | failed error => exact hClaimed ▸ .refl
      | panicked => exact hClaimed ▸ .refl

end

end Coordinator

end BuildWatch
