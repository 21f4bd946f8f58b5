import BuildWatch.Proofs.Coordinator.Guards
import BuildWatch.Proofs.Coordinator.IntakeRuns
import BuildWatch.Proofs.Coordinator.Ledger

/-!
What builds are dispatched while chunks of a project are taken in.  Whatever passes by
dispatches none, and a chunk that is counted dispatches one exactly if it leaves no batch
incomplete.
-/

namespace BuildWatch

open BuildWatch.Tasks

namespace Coordinator

variable {circumstances : Circumstances} {options : CoordinatorOptions} {project : String}

def chunksOf (project : String) (events : List Event) : List Change :=
  events.filterMap (Event.chunk? project)

theorem chunksOf_append (project : String) (events more : List Event) :
    chunksOf project (events ++ more) = chunksOf project events ++ chunksOf project more :=
  List.filterMap_append

theorem chunksOf_singleton (project : String) (event : Event) :
    chunksOf project [event] = (event.chunk? project).toList := by
  unfold chunksOf
  cases hChunk : event.chunk? project <;> simp [hChunk]

/-- What the builds of a project are to tell the handler of, of those that it was told of
and of those that it has yet to be told of. -/
def dispatched (project : String) (run : Run) : List (Option (List ChangeEvent)) :=
  handedOver project run.history ++ waitingBuilds project run

def View.dispatched (project : String) (view : View) : List (Option (List ChangeEvent)) :=
  handedOver project view.history ++ view.phases.filterMap Phase.waiting?

theorem dispatched_eq (project : String) (run : Run) :
    dispatched project run = (run.view project).dispatched project := by
  unfold dispatched View.dispatched
  rw [waitingBuilds_eq]
  rfl

structure View.Unasked (view : View) : Prop where
  requested : view.build.requested = none
  unprepared : ∀ phase ∈ view.phases, phase.prepares = false

theorem View.OneBuild.unasked {view : View} (hOne : view.OneBuild) (hBehind : view.QueuesBehind)
    (hIdle : view.build.inProgress = false) : view.Unasked where
  requested := by
    cases hRequested : view.build.requested with
    | none => rfl
    | some followUp =>
        have hProgress := hBehind (by rw [hRequested]; rfl)
        rw [hIdle] at hProgress
        cases hProgress
  unprepared := by
    rw [hOne.idle_phases hIdle]
    exact List.forall_mem_nil _

/-! ### What passes by -/

/-- What is left as it is, and what is put into the buffer, by what passes by. -/
structure Intake.PassesBy (project : String) (intake after : Intake)
    (poured : List (Nat × List ChangeEvent)) : Prop where
  countdowns : after.countdowns = intake.countdowns
  taking : after.taking = intake.taking
  timer : after.view.timer = true → intake.view.timer = true
  unasked : after.view.Unasked
  idle : intake.view.build.inProgress = false → after.view.build.inProgress = false
  dispatched : after.view.dispatched project = intake.view.dispatched project
  appended : appended project after.view.history = appended project intake.view.history ++ poured
  changes : after.view.changes = intake.view.changes ++ (poured.map Prod.snd).flatten
  toPour : intake.toPour.Perm (poured.map Prod.snd ++ after.toPour)

theorem Intake.PassesBy.quiet {intake after : Intake} {poured : List (Nat × List ChangeEvent)}
    (hPasses : intake.PassesBy project after poured) (hQuiet : intake.view.timer = false) :
    after.view.timer = false := by
  by_contra hTimer
  have hBefore := hPasses.timer (by simpa using hTimer)
  rw [hQuiet] at hBefore
  cases hBefore

theorem silent_of_apart {told : List Notice}
    (hApart : ∀ notice ∈ told, notice.project? ≠ some project) :
    appended project told = [] ∧ handedOver project told = [] := by
  refine ⟨List.filterMap_eq_nil_iff.mpr ?_, List.filterMap_eq_nil_iff.mpr ?_⟩
  · intro notice hNotice
    have hOther := hApart notice hNotice
    cases notice with
    | buffered request other changes => exact if_neg (Notice.ne_of_project?_ne hOther rfl)
    | _ => rfl
  · intro notice hNotice
    have hOther := hApart notice hNotice
    cases notice with
    | handed operation changes => exact if_neg (Notice.ne_of_project?_ne hOther rfl)
    | _ => rfl

section

variable {intake after : Intake}

theorem Advance.passesBy {view : View} (hUnasked : intake.view.Unasked)
    (hOne : intake.view.OneBuild) (hAdvance : Advance circumstances project intake.view view) :
    Intake.PassesBy project intake { intake with view := view } [] := by
  have hBusy {phase : Phase} (hPhase : intake.view.phases = [phase]) :
      intake.view.build.inProgress ≠ false := by
    intro hIdle
    have hNone := hOne.idle_phases hIdle
    rw [hPhase] at hNone
    cases hNone
  have hUnprepared {phase : Phase} (hPhase : intake.view.phases = [phase]) :
      phase.prepares = false :=
    hUnasked.unprepared phase (by rw [hPhase]; exact List.mem_cons_self)
  have hPoured {told : List Notice} (hSilent : appended project told = []) :
      appended project (intake.view.history ++ told) =
        appended project intake.view.history ++ [] := by
    unfold appended at hSilent ⊢
    rw [List.filterMap_append, hSilent]
  cases hAdvance with
  | start changes operation hPhase hProject =>
      refine ⟨rfl, rfl, id, ⟨hUnasked.requested, ?_⟩, fun hIdle => absurd hIdle (hBusy hPhase), ?_,
        ?_, (List.append_nil _).symm, .refl _⟩
      · intro phase hMember
        rw [List.mem_singleton.mp hMember]
        rfl
      · have hBuilding : [Phase.building].filterMap Phase.waiting? = [] := rfl
        simp [View.dispatched, handedOver_tell, Notice.handed?, hProject, hPhase, hBuilding,
          Phase.waiting?]
      · simp [appended_tell, Notice.appended?]
  | finish result hPhase =>
      have hNone := hUnasked.requested
      refine ⟨rfl, rfl, id, ⟨?_, ?_⟩, fun hIdle => absurd hIdle (hBusy hPhase), ?_, ?_,
        (List.append_nil _).symm, .refl _⟩
      · change (intake.view.build.finish).requested = none
        simp [BuildState.finish, hNone]
      · intro phase hMember
        change phase ∈ intake.view.build.requested.toList.map Phase.preparing at hMember
        rw [hNone] at hMember
        cases hMember
      · have hBuilding : [Phase.building].filterMap Phase.waiting? = [] := rfl
        simp [View.dispatched, handedOver_tell, Notice.handed?, hNone, hPhase, hBuilding]
      · simp [appended_tell, Notice.appended?]
  -- All other steps are those of a follow-up, and none is prepared.
  | find followUp hPhase => cases hUnprepared hPhase
  | skip followUp hPhase hOff => cases hUnprepared hPhase
  | abandon followUp hPhase hFail => cases hUnprepared hPhase
  | vanish followUp hPhase hPanic => cases hUnprepared hPhase
  | follow followUp operation hPhase hProject => cases hUnprepared hPhase

theorem Intake.Passes.passesBy (hPasses : Intake.Passes circumstances project intake after)
    (hUnasked : intake.view.Unasked) (hOne : intake.view.OneBuild) :
    ∃ poured, Intake.PassesBy project intake after poured := by
  cases hPasses with
  | apart told hApart =>
      obtain ⟨hAppended, hHanded⟩ := silent_of_apart hApart
      refine ⟨[], ?_⟩
      unfold Intake.tell
      rw [View.foldl_tell]
      refine ⟨rfl, rfl, id, ⟨hUnasked.requested, hUnasked.unprepared⟩, id, ?_, ?_,
        (List.append_nil _).symm, .refl _⟩
      · unfold View.dispatched handedOver at *
        rw [List.filterMap_append, hHanded, List.append_nil]
      · unfold appended at *
        rw [List.filterMap_append, hAppended]
  | cancel =>
      exact ⟨[], rfl, rfl, nofun, ⟨hUnasked.requested, hUnasked.unprepared⟩, id, rfl,
        (List.append_nil _).symm, (List.append_nil _).symm, .refl _⟩
  | pour request changes before later hToPour =>
      refine ⟨[(request, changes)], rfl, rfl, id, ⟨hUnasked.requested, hUnasked.unprepared⟩, id,
        ?_, ?_, ?_, ?_⟩
      · simp [View.dispatched, handedOver_tell, Notice.handed?]
      · simp [appended_tell, Notice.appended?]
      · simp
      · rw [hToPour]
        exact List.perm_middle
  | build view hAdvance => exact ⟨[], hAdvance.passesBy hUnasked hOne⟩

end

/-! ### What is counted -/

/-- What a chunk that is counted brings about. -/
structure Intake.Counted (project : String) (chunk : Change) (request : Nat)
    (intake after : Intake) : Prop where
  taking : ∃ before later, intake.taking = before ++ chunk :: later ∧ after.taking = before ++ later
  countdowns : after.countdowns =
    Batches.arrive chunk.timestamp chunk.chunkTotal.toNat intake.countdowns
  toPour : after.toPour = intake.toPour
  unasked : after.view.Unasked
  appended : appended project after.view.history = appended project intake.view.history
  waits : after.countdowns ≠ [] → after.view.changes = intake.view.changes ∧
    after.view.build = intake.view.build ∧
      after.view.dispatched project = intake.view.dispatched project
  dispatches : after.countdowns = [] → after.view.timer = false ∧ after.view.changes = [] ∧
    after.view.dispatched project =
      intake.view.dispatched project ++ [some intake.view.changes] ∧
    after.view.history = intake.view.history ++
      [.begun project false, .drained project intake.view.changes, .answered request (.ok ())]

theorem Intake.Counts.counted {chunk : Change} {request : Nat} {intake after : Intake}
    (hCounts : Intake.Counts project chunk request intake after) (hUnasked : intake.view.Unasked)
    (hIdle : intake.view.build.inProgress = false) :
    Intake.Counted project chunk request intake after := by
  cases hCounts with
  | wait before later hTaking hArrived =>
      refine ⟨⟨before, later, hTaking, rfl⟩, rfl, rfl,
        ⟨hUnasked.requested, hUnasked.unprepared⟩, ?_, ?_, fun hNone => absurd hNone hArrived⟩
      · simp [appended_tell, Notice.appended?]
      · intro _
        refine ⟨rfl, rfl, ?_⟩
        simp [View.dispatched, handedOver_tell, Notice.handed?]
  | dispatch before later hTaking hArrived =>
      refine ⟨⟨before, later, hTaking, rfl⟩, hArrived.symm, rfl, ⟨?_, ?_⟩, ?_,
        fun hSome => absurd rfl hSome, ?_⟩
      · change (intake.view.build.begin false).requested = none
        simp [BuildState.begin, hIdle, hUnasked.requested]
      · intro phase hMember
        rcases List.mem_append.mp hMember with hOld | hNew
        · exact hUnasked.unprepared phase hOld
        · rw [List.mem_singleton.mp hNew]
          rfl
      · simp [appended_tell, Notice.appended?]
      · intro _
        refine ⟨rfl, rfl, ?_, ?_⟩
        · simp [View.dispatched, handedOver_tell, Notice.handed?, Phase.waiting?]
        · simp [View.tell]

end Coordinator

end BuildWatch
