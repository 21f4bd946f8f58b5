import BuildWatch.Proofs.Coordinator.FollowUps

/-!
Every build that is asked for starts.  While one is owed, the task that builds the
project is at most three turns away from starting it, and nothing else can put it off.
-/

namespace BuildWatch

open BuildWatch.Tasks

/-- Whether a notice tells that a build of a project is owed. -/
def Notice.asksFor (project : String) : Notice → Bool
  | .queued other _ => other == project
  | .begun other _ => other == project
  | _ => false

theorem Notice.asksFor_of_ne {notice : Notice} {project : String}
    (hOther : notice.project? ≠ some project) : notice.asksFor project = false := by
  cases notice with
  | queued other explicit => exact beq_eq_false_iff_ne.mpr (Notice.ne_of_project?_ne hOther rfl)
  | begun other explicit => exact beq_eq_false_iff_ne.mpr (Notice.ne_of_project?_ne hOther rfl)
  | _ => rfl

namespace Coordinator

variable {circumstances : Circumstances} {options : CoordinatorOptions} {project : String}

/-! ### Builds that are owed -/

/-- Every build that is asked for starts later, unless one is still to come. -/
def ServedBy (project : String) (coming : Bool) (history : List Notice) : Prop :=
  ∀ before notice after, history = before ++ notice :: after → notice.asksFor project = true →
    .started project ∈ after ∨ coming = true

theorem servedBy_coming (history : List Notice) : ServedBy project true history :=
  fun _ _ _ _ _ => Or.inr rfl

theorem ServedBy.concat {coming : Bool} {history : List Notice} {notice : Notice}
    (hServed : ServedBy project coming history) (hSilent : notice.asksFor project = false) :
    ServedBy project coming (history ++ [notice]) := by
  intro before other after hSplit hAsks
  rcases split_concat hSplit with ⟨_, _, hOther⟩ | ⟨rest, hAfter, hHistory⟩
  · rw [hOther, hSilent] at hAsks
    cases hAsks
  · refine (hServed before other rest hHistory hAsks).imp_left ?_
    intro hStarted
    rw [hAfter]
    exact List.mem_append_left _ hStarted

theorem servedBy_concat_started (coming : Bool) (history : List Notice) :
    ServedBy project coming (history ++ [.started project]) := by
  intro before other after hSplit hAsks
  rcases split_concat hSplit with ⟨_, _, hOther⟩ | ⟨rest, hAfter, _⟩
  · rw [hOther] at hAsks
    cases hAsks
  · rw [hAfter]
    exact Or.inl (List.mem_append_right _ List.mem_cons_self)

/-- The number of turns from a phase to the next start of a build, if one is owed. -/
def Phase.distance (requested : Bool) : Phase → Option Nat
  | .waiting _ => some 1
  | .building => if requested then some 3 else none
  | .preparing _ => some 2
  | .ready _ => some 1

def View.distance (view : View) : Option Nat :=
  view.phases.head?.bind (Phase.distance view.build.requested.isSome)

def View.Served (project : String) (view : View) : Prop :=
  ServedBy project view.distance.isSome view.history

section

variable {view after : View}

theorem View.distance_of_phases {phase : Phase} (hPhase : view.phases = [phase]) :
    view.distance = phase.distance view.build.requested.isSome := by
  unfold View.distance
  rw [hPhase]
  rfl

theorem Phase.distance_requested (phase : Phase) : (phase.distance true).isSome = true := by
  cases phase <;> rfl

theorem Phase.distance_mono {phase : Phase} {requested : Bool} {turns : Nat}
    (hDistance : phase.distance requested = some turns) : phase.distance true = some turns := by
  cases requested with
  | true => exact hDistance
  | false =>
      cases phase with
      | building => cases hDistance
      | _ => exact hDistance

theorem requested_begin_isSome {build : BuildState} (hProgress : build.inProgress = true)
    (explicit : Bool) : (build.begin explicit).requested.isSome = true := by
  simp [BuildState.begin, hProgress]

/-- Nothing but the task that builds the project brings its next build nearer or puts it off. -/
theorem Move.distance (hOne : view.OneBuild) (hMove : Move circumstances project view after)
    {turns : Nat} (hDistance : view.distance = some turns) : after.distance = some turns := by
  cases hMove with
  | queue explicit hProgress =>
      obtain ⟨phase, hHead, hPhase⟩ := Option.bind_eq_some_iff.mp hDistance
      refine Option.bind_eq_some_iff.mpr ⟨phase, hHead, ?_⟩
      rw [View.tell_build, requested_begin_isSome hProgress]
      exact Phase.distance_mono hPhase
  | take explicit hIdle =>
      unfold View.distance at hDistance
      rw [hOne.idle_phases hIdle] at hDistance
      cases hDistance
  | _ => exact hDistance

theorem View.Served.move (hServed : view.Served project) (hOne : view.OneBuild)
    (hTallied : view.Tallied project) (hMove : Move circumstances project view after) :
    after.Served project := by
  cases hMove with
  | elsewhere notice hOther => exact ServedBy.concat hServed (Notice.asksFor_of_ne hOther)
  | buffer request changes hChanging => exact ServedBy.concat hServed rfl
  | require hOff => exact ServedBy.concat hServed rfl
  | queue explicit hProgress =>
      have hComing : ({ view with build := view.build.begin explicit }.tell
          (.queued project explicit)).distance.isSome = true := by
        cases hPhases : view.phases with
        | nil => exact absurd hPhases (hTallied.busy hProgress)
        | cons phase rest =>
            unfold View.distance
            simp only [View.tell_phases, View.tell_build, List.head?_cons, Option.bind_some,
              requested_begin_isSome hProgress]
            exact phase.distance_requested
      unfold View.Served
      rw [hComing]
      exact servedBy_coming _
  | take explicit hIdle =>
      have hNone := hOne.idle_phases hIdle
      unfold View.Served View.distance
      simp only [View.tell_phases, hNone, List.nil_append]
      exact servedBy_coming _
  | _ => exact hServed

theorem View.Served.advance (hServed : view.Served project)
    (hAdvance : Advance (.automatic project) project view after) : after.Served project := by
  cases hAdvance with
  | start changes operation hPhase hProject =>
      exact ServedBy.concat (servedBy_concat_started _ _) rfl
  | finish result hPhase =>
      cases hRequested : view.build.requested with
      | none =>
          -- The build gives up its place only if nothing is owed any more.
          have hNone : view.distance = none := by
            rw [View.distance_of_phases hPhase, hRequested]
            rfl
          have hAll : ServedBy project false view.history := by
            unfold View.Served at hServed
            rw [hNone] at hServed
            exact hServed
          exact ServedBy.concat (ServedBy.concat hAll rfl) rfl
      | some followUp => exact servedBy_coming _
  | find followUp hPhase => exact servedBy_coming _
  | skip followUp hPhase hOff => exact absurd hOff Circumstances.not_maySwitchOff_automatic
  | abandon followUp hPhase hFail => exact absurd hFail Circumstances.not_failed_automatic
  | vanish followUp hPhase hPanic => exact absurd hPanic Circumstances.not_panicked_automatic
  | follow followUp operation hPhase hProject =>
      exact ServedBy.concat (servedBy_concat_started _ _) rfl

/-- A turn of the task that builds the project starts a build that is owed or brings it one
turn nearer. -/
theorem Advance.distance (hAdvance : Advance (.automatic project) project view after) :
    ∃ told, after.history = view.history ++ told ∧
      ∀ turns, view.distance = some turns →
        .started project ∈ told ∨ ∃ left, after.distance = some left ∧ left + 1 = turns := by
  cases hAdvance with
  | start changes operation hPhase hProject =>
      refine ⟨[.started project, .handed operation changes], List.append_assoc _ [_] [_], ?_⟩
      exact fun _ _ => Or.inl List.mem_cons_self
  | finish result hPhase =>
      refine ⟨[.finished project result, .passedOn project view.build.requested],
        List.append_assoc _ [_] [_], ?_⟩
      intro turns hDistance
      rw [View.distance_of_phases hPhase] at hDistance
      cases hRequested : view.build.requested with
      | none =>
          rw [hRequested] at hDistance
          cases hDistance
      | some followUp =>
          rw [hRequested] at hDistance
          exact Or.inr ⟨2, rfl, Option.some.inj hDistance⟩
  | find followUp hPhase =>
      refine ⟨[], (List.append_nil _).symm, ?_⟩
      intro turns hDistance
      rw [View.distance_of_phases hPhase] at hDistance
      exact Or.inr ⟨1, rfl, Option.some.inj hDistance⟩
  | skip followUp hPhase hOff => exact absurd hOff Circumstances.not_maySwitchOff_automatic
  | abandon followUp hPhase hFail => exact absurd hFail Circumstances.not_failed_automatic
  | vanish followUp hPhase hPanic => exact absurd hPanic Circumstances.not_panicked_automatic
  | follow followUp operation hPhase hProject =>
      refine ⟨[.drained project view.changes, .started project, .handed operation
        (if followUp.explicit then none else some view.changes)], ?_, ?_⟩
      · simp [View.tell]
      · exact fun _ _ => Or.inl (List.mem_cons_of_mem _ List.mem_cons_self)

theorem Move.history (hMove : Move circumstances project view after) :
    ∃ told, after.history = view.history ++ told := by
  cases hMove with
  | elsewhere notice hOther => exact ⟨[notice], rfl⟩
  | buffer request changes hChanging => exact ⟨[_], rfl⟩
  | require hOff => exact ⟨[_], rfl⟩
  | queue explicit hProgress => exact ⟨[_], rfl⟩
  | take explicit hIdle => exact ⟨[_, _], List.append_assoc _ [_] [_]⟩
  | _ => exact ⟨[], (List.append_nil _).symm⟩

theorem moves_distance (hOne : view.OneBuild) (hMoves : Moves circumstances project view after) :
    ∃ told, after.history = view.history ++ told ∧
      ∀ turns, view.distance = some turns → after.distance = some turns := by
  induction hMoves using Relation.ReflTransGen.head_induction_on with
  | refl => exact ⟨[], (List.append_nil _).symm, fun _ hDistance => hDistance⟩
  | head hFirst _ ih =>
      obtain ⟨told, hTold⟩ := hFirst.history
      obtain ⟨more, hMore, hRest⟩ := ih (hOne.move hFirst)
      refine ⟨told ++ more, ?_, ?_⟩
      · rw [hMore, hTold, List.append_assoc]
      · exact fun turns hDistance => hRest turns (hFirst.distance hOne hDistance)

end

/-! ### The way to the next build -/

def Run.servings (options : CoordinatorOptions) (project : String) : Run → List Event → Nat
  | _, [] => 0
  | run, event :: rest =>
      (event.serves project run.system).toNat +
        Run.servings options project (run.step options event) rest

def Run.HasBuild (project : String) (run : Run) : Prop :=
  ∃ task ∈ run.system.tasks, (task.stage.phaseOf? project).isSome = true

theorem Run.hasBuild_of_distance {run : Run} {turns : Nat}
    (hDistance : (run.view project).distance = some turns) : run.HasBuild project := by
  obtain ⟨phase, hHead, _⟩ := Option.bind_eq_some_iff.mp hDistance
  obtain ⟨stage, hStage, hPhase⟩ := List.mem_filterMap.mp (List.mem_of_head? hHead)
  obtain ⟨task, hTask, hSame⟩ := List.mem_map.mp hStage
  exact ⟨task, hTask, Option.isSome_iff_exists.mpr ⟨phase, hSame ▸ hPhase⟩⟩

/-- What is known of a run in which a project is always found and built on its own. -/
structure Run.Lively (options : CoordinatorOptions) (project : String) (run : Run) : Prop where
  sound : Sound (.automatic project) options run.system
  one : (run.view project).OneBuild
  tallied : (run.view project).Tallied project
  served : (run.view project).Served project

section

variable {run : Run}

theorem Run.Lively.step (hLively : run.Lively options project) {event : Event}
    (hWithin : event.Within (.automatic project)) :
    (run.step options event).Lively options project := by
  have hView := Run.view_step (motive := fun view =>
    view.Tallied project ∧ view.Served project)
    (fun view after hOne hMove hHolds =>
      ⟨hHolds.1.move hOne hMove, hHolds.2.move hOne hHolds.1 hMove⟩)
    (fun view after hOne hAdvance hHolds =>
      ⟨hHolds.1.advance hAdvance, hHolds.2.advance hAdvance⟩)
    hLively.sound hWithin hLively.one ⟨hLively.tallied, hLively.served⟩
  exact ⟨hLively.sound.happen hWithin, hView.1, hView.2.1, hView.2.2⟩

/-- An event tells more, and a build that is owed starts or comes as near as the turns that
its task is given. -/
theorem Run.Lively.step_distance (hLively : run.Lively options project) {event : Event}
    (hWithin : event.Within (.automatic project)) :
    ∃ told, (run.step options event).history = run.history ++ told ∧
      ∀ turns, (run.view project).distance = some turns → .started project ∈ told ∨
        ∃ left, ((run.step options event).view project).distance = some left ∧
          left + (event.serves project run.system).toNat = turns := by
  have hHappen : if event.serves project run.system then
      Advance (.automatic project) project (run.view project)
        ((run.step options event).view project)
    else Moves (.automatic project) project (run.view project)
        ((run.step options event).view project) :=
    hLively.sound.happen_view hWithin hLively.one.one
  cases hServes : event.serves project run.system with
  | true =>
      rw [hServes, if_pos rfl] at hHappen
      exact hHappen.distance
  | false =>
      rw [hServes, if_neg nofun] at hHappen
      obtain ⟨told, hTold, hSame⟩ := moves_distance hLively.one hHappen
      exact ⟨told, hTold, fun turns hDistance => Or.inr ⟨turns, hSame turns hDistance, rfl⟩⟩

/-- However a run goes on, a build that is owed has started after as many turns of its task as
it was away. -/
theorem Run.Lively.extend_distance (events : List Event)
    (hEvents : ∀ event ∈ events, event.Within (.automatic project))
    (hLively : run.Lively options project) :
    ∃ told, (run.extend options events).history = run.history ++ told ∧
      ∀ turns, (run.view project).distance = some turns → .started project ∈ told ∨
        ∃ left, ((run.extend options events).view project).distance = some left ∧
          left + run.servings options project events = turns := by
  induction events generalizing run with
  | nil =>
      refine ⟨[], (List.append_nil _).symm, ?_⟩
      intro turns hDistance
      exact Or.inr ⟨turns, hDistance, rfl⟩
  | cons event rest ih =>
      have hWithin := hEvents event List.mem_cons_self
      obtain ⟨told, hHistory, hStep⟩ := hLively.step_distance hWithin
      obtain ⟨more, hMore, hRest⟩ := ih
        (fun other hOther => hEvents other (List.mem_cons_of_mem event hOther))
        (hLively.step hWithin)
      refine ⟨told ++ more, ?_, ?_⟩
      · rw [← List.append_assoc, ← hHistory]
        exact hMore
      · intro turns hDistance
        rcases hStep turns hDistance with hStarted | ⟨middle, hMiddle, hCount⟩
        · exact Or.inl (List.mem_append_left _ hStarted)
        · rcases hRest middle hMiddle with hStarted | ⟨left, hLeft, hLeftCount⟩
          · exact Or.inl (List.mem_append_right _ hStarted)
          · refine Or.inr ⟨left, hLeft, ?_⟩
            unfold Run.servings
            omega

end

end Coordinator

end BuildWatch
