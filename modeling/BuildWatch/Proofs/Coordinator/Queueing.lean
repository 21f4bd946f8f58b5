import BuildWatch.Proofs.Coordinator.Progress

/-!
What becomes of builds that are asked for while another one is at work.  None of them is
forgotten, and however many they are, one follow-up serves them all.
-/

namespace BuildWatch

open BuildWatch.Tasks

namespace Coordinator

variable {options : CoordinatorOptions} {project : String} {run : Run}

/-! ### Requests that are accepted -/

/-- A request for a build that is accepted has been owed one from the same turn on. -/
def Grants (project : String) (calls : List (Nat × Call)) (before : List Notice)
    (notice : Notice) : Prop :=
  ∀ id, notice = .answered id (.ok ()) → (id, .update project) ∈ calls →
    ∃ earlier asking rest, before = earlier ++ asking :: rest ∧
      asking.asksFor project = true ∧ .started project ∉ rest

def Run.Granted (project : String) (run : Run) : Prop :=
  Told (Grants project run.calls) run.history

/-- The answer to a request for a build comes last in a turn that has the build owed. -/
theorem Deed.granted {self : Nat} {stage : Stage} {next? : Option Stage}
    {quiet deed : List Notice} {calls : List (Nat × Call)} (history : List Notice)
    (hDeed : Deed (.automatic project) options self stage next? quiet deed)
    (hImpersonal : ∀ notice ∈ quiet, notice.request? = none)
    (hCalls : ∀ call, stage.call? = some call → ∀ made, (self, made) ∈ calls → made = call) :
    Told (fun before notice => Grants project calls (history ++ before) notice)
      (quiet ++ deed) := by
  refine Told.append ?_ ?_
  · rintro before notice after hSplit id rfl
    have hNone := hImpersonal (.answered id (.ok ())) (by simp [hSplit])
    cases hNone
  · cases hDeed with
    | goOn => exact told_nil _
    | buffer change info => exact told_singleton nofun
    | answer _ call _ result hCall hBuffered hDemand =>
        refine told_singleton ?_
        rintro id hAnswer hMade
        cases hAnswer
        rcases hDemand project (hCalls call hCall _ hMade).symm rfl with hQueued |
          ⟨changes, hBegun⟩ | hOff
        · subst hQueued
          exact ⟨history, .queued project true, [], by simp, by simp [Notice.asksFor], by simp⟩
        · subst hBegun
          exact ⟨history, .begun project true, [.drained project changes], by simp,
            by simp [Notice.asksFor], by simp⟩
        · exact absurd hOff Circumstances.not_maySwitchOff_automatic
    | finish => exact told_nil _

theorem Run.Booked.call_unique (hBooked : run.Booked options) {id : Nat} {call other : Call}
    (hCall : (id, call) ∈ run.calls) (hOther : (id, other) ∈ run.calls) : call = other :=
  congrArg Prod.snd (List.inj_on_of_nodup_map hBooked.ids hCall hOther rfl)

theorem Run.Granted.step (hGranted : run.Granted project) (hBooked : run.Booked options)
    (hSound : Sound (.automatic project) options run.system) {event : Event}
    (hWithin : event.Within (.automatic project)) :
    (run.step options event).Granted project := by
  rcases Run.step_does hSound hWithin with hHistory |
    ⟨hCalls, task, hTask, next?, quiet, deed, hHistory, hImpersonal, hDeed⟩
  · intro before notice after hSplit id hNotice hMade
    rw [hHistory] at hSplit
    refine hGranted before notice after hSplit id hNotice ?_
    rcases List.mem_append.mp hMade with hOld | hNew
    · exact hOld
    · -- A call that has just been made has not been answered.
      obtain ⟨call, _, hEntry⟩ := List.mem_map.mp hNew
      cases hEntry
      subst hNotice
      obtain ⟨made, hEarlier⟩ := hBooked.told (.answered run.system.nextId (.ok ()))
        (by simp [hSplit]) _ rfl
      exact absurd (hBooked.below _ made hEarlier) (Nat.lt_irrefl _)
  · unfold Run.Granted
    rw [hHistory, hCalls]
    refine Told.append hGranted (hDeed.granted run.history hImpersonal ?_)
    intro call hCall made hMade
    exact hBooked.call_unique hMade (hBooked.live task hTask call hCall).made

/-! ### Builds that start -/

def starts (project : String) (history : List Notice) : Nat :=
  (reports project history).count .started

theorem Phase.distance_bounds {phase : Phase} {requested : Bool} {turns : Nat}
    (hDistance : phase.distance requested = some turns) : 1 ≤ turns ∧ turns ≤ 3 := by
  cases phase with
  | building =>
      cases requested with
      | true =>
          cases hDistance
          omega
      | false => cases hDistance
  | _ =>
      cases hDistance
      omega

/-- What is asked for is served by the time no build is there any more, by some turns of the
tasks, and by any three turns of the task that builds the project. -/
theorem Run.Lively.serves (hLively : run.Lively options project) (hOrderly : run.system.Orderly)
    {before after : List Notice} {notice : Notice}
    (hSplit : run.history = before ++ notice :: after)
    (hAsks : notice.asksFor project = true) :
    (¬ run.HasBuild project → .started project ∈ after) ∧
      (∃ tasks told, (run.extend options (turnsOf tasks)).history = run.history ++ told ∧
        .started project ∈ after ++ told) ∧
        ∀ more, (∀ event ∈ more, event.Within (.automatic project)) →
          3 ≤ run.servings options project more →
            ∃ told, (run.extend options more).history = run.history ++ told ∧
              .started project ∈ after ++ told := by
  rcases hLively.served before notice after hSplit hAsks with hStarted | hComing
  · refine ⟨fun _ => hStarted, ?_, ?_⟩
    · exact ⟨[], [], (List.append_nil _).symm, List.mem_append_left _ hStarted⟩
    · intro more hMore _
      obtain ⟨told, hHistory, _⟩ := hLively.extend_distance more hMore
      exact ⟨told, hHistory, List.mem_append_left _ hStarted⟩
  · obtain ⟨turns, hDistance⟩ := Option.isSome_iff_exists.mp hComing
    refine ⟨fun hNoBuild => absurd (Run.hasBuild_of_distance hDistance) hNoBuild, ?_, ?_⟩
    · obtain ⟨tasks, told, hHistory, hStarted⟩ := hLively.exists_start hOrderly hDistance
      exact ⟨tasks, told, hHistory, List.mem_append_right _ hStarted⟩
    · intro more hMore hTurns
      obtain ⟨told, hHistory, hReaches⟩ := hLively.extend_distance more hMore
      refine ⟨told, hHistory, List.mem_append_right _ ?_⟩
      refine (hReaches turns hDistance).resolve_right ?_
      rintro ⟨left, hLeft, hCount⟩
      obtain ⟨_, _, hFrom⟩ := Option.bind_eq_some_iff.mp hDistance
      obtain ⟨_, _, hTo⟩ := Option.bind_eq_some_iff.mp hLeft
      have hFar := Phase.distance_bounds hFrom
      have hNear := Phase.distance_bounds hTo
      omega

theorem Run.granted (options : CoordinatorOptions) (events : List Event)
    (hEvents : ∀ event ∈ events, event.Within (.automatic project)) :
    (Run.after options events).Granted project := by
  have hRun : Sound (.automatic project) options (Run.after options events).system ∧
      (Run.after options events).Booked options ∧ (Run.after options events).Granted project := by
    refine Run.after_induction (motive := fun run => Sound (.automatic project) options
      run.system ∧ run.Booked options ∧ run.Granted project) ?_ ?_ events hEvents
    · exact ⟨sound_start _ options, Run.booked_start options, told_nil _⟩
    · rintro run event ⟨hSound, hBooked, hGranted⟩ hWithin
      exact ⟨hSound.happen hWithin, hBooked.step hSound hWithin,
        hGranted.step hBooked hSound hWithin⟩
  exact hRun.2.2

end Coordinator

end BuildWatch
