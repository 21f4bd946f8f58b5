import BuildWatch.Proofs.Coordinator.Countdowns
import BuildWatch.Proofs.Coordinator.Simulation

/-!
How the chunks of a project are taken in.  A chunk first ends the quiet period, then puts
its changes into the buffer, and last it is counted: it completes all batches that have
begun and dispatches a build, or it leaves some incomplete and begins a quiet period.
-/

namespace BuildWatch

open BuildWatch.Tasks

namespace Coordinator

variable {options : CoordinatorOptions} {project : String}

theorem Circumstances.dependable_faithful (project asked : String) (info : ProjectInfo)
    (hLookup : (∀ found, Lookup.found info = .found found → found.id = asked) ∧
      (asked = project → ∃ found, Lookup.found info = .found found ∧ found.autoBuild = true)) :
    info.id = asked :=
  hLookup.1 info rfl

/-- Infos carry the id that was asked for, every lookup of one project finds that it is built
on its own, settings are applied or refused, and there is no shutdown. -/
def Circumstances.dependable (project : String) : Circumstances where
  lookup asked result :=
    (∀ info, result = .found info → info.id = asked) ∧
      (asked = project → ∃ info, result = .found info ∧ info.autoBuild = true)
  settings result := result ≠ .panicked
  shutdown := False
  faithful := dependable_faithful project

theorem Event.Within.faithful {event : Event} (hWithin : event.Within (.dependable project)) :
    event.Within .faithfulInfos := by
  cases event with
  | shutdown => exact hWithin.elim
  | poll task surrounding => exact ⟨fun asked => (hWithin.1 asked).1, fun _ _ => trivial⟩
  | _ => trivial

theorem Event.Steady.dependable {event : Event} (hSteady : event.Steady) (project : String) :
    event.Within (.dependable project) := by
  refine hSteady.within ?_ nofun
  intro asked
  refine ⟨?_, fun _ => ⟨_, rfl, rfl⟩⟩
  rintro info ⟨⟩
  rfl

/-! ### What is taken in -/

theorem buildEvents_eq_nil {chunk : Change} (hSettings : isSettingsOnly options chunk = true) :
    buildEvents options chunk = [] :=
  List.isEmpty_iff.mp (Bool.and_eq_true_iff.mp hSettings).2

/-- What a chunk has to put into the buffer, if anything. -/
def pourable? (options : CoordinatorOptions) (chunk : Change) : Option (List ChangeEvent) :=
  if buildEvents options chunk = [] then none else some (buildEvents options chunk)

namespace Stage

/-- The chunk of a project that a request at a stage takes in. -/
def taking? (project : String) (stage : Stage) : Option Change :=
  stage.change?.filter fun chunk => chunk.project == project

/-- Whether a request only waits for its chunk to be counted. -/
def isPoured : Stage → Bool
  | .changeLocked _ _ => true
  | _ => false

/-- What the request at a stage still has to put into the buffer of a project. -/
def toPour? (options : CoordinatorOptions) (project : String) (stage : Stage) :
    Option (List ChangeEvent) :=
  if stage.isPoured then none else (stage.taking? project).bind (pourable? options)

theorem isSome_taking? (project : String) (stage : Stage) :
    (stage.taking? project).isSome = stage.dealsWith project := by
  unfold taking? dealsWith
  cases stage.change? with
  | none => rfl
  | some chunk => cases hSame : chunk.project == project <;> simp [Option.filter, hSame]

theorem taking?_of_change? {stage : Stage} {chunk : Change} (hChange : stage.change? = some chunk)
    (hProject : chunk.project = project) : stage.taking? project = some chunk := by
  unfold taking?
  rw [hChange]
  simp [Option.filter, hProject]

theorem taking?_of_none {stage : Stage} (hChange : stage.change? = none) :
    stage.taking? project = none := by
  unfold taking?
  rw [hChange]
  rfl

theorem toPour?_of_none {stage : Stage} (hChange : stage.change? = none) :
    stage.toPour? options project = none := by
  unfold toPour?
  rw [taking?_of_none hChange, Option.bind_none, ite_self]

theorem toPour?_of_change? (options : CoordinatorOptions) {stage : Stage} {chunk : Change}
    (hChange : stage.change? = some chunk) (hProject : chunk.project = project)
    (hPoured : stage.isPoured = false) :
    stage.toPour? options project = pourable? options chunk := by
  unfold toPour?
  rw [hPoured, taking?_of_change? hChange hProject]
  rfl

theorem phase?_of_change? {stage : Stage} {chunk : Change} (hChange : stage.change? = some chunk) :
    stage.phase? = none := by
  cases stage <;> first | rfl | cases hChange

end Stage

/-- What is seen of a project while chunks of it are taken in. -/
@[ext]
structure Intake where
  view : View
  countdowns : List Countdown
  /-- The chunks that are half done. -/
  taking : List Change
  /-- What they still have to put into the buffer. -/
  toPour : List (List ChangeEvent)

namespace Intake

def of (options : CoordinatorOptions) (project : String) (stages : List Stage)
    (data : CoordinatorState) : Intake where
  view := View.of project stages data
  countdowns := data.batches.progress project
  taking := stages.filterMap (Stage.taking? project)
  toPour := stages.filterMap (Stage.toPour? options project)

def tell (intake : Intake) (told : List Notice) : Intake :=
  { intake with view := told.foldl View.tell intake.view }

def come (options : CoordinatorOptions) (chunk : Change) (intake : Intake) : Intake where
  view := { intake.view with changing := intake.view.changing + 1 }
  countdowns := intake.countdowns
  taking := intake.taking ++ [chunk]
  toPour := intake.toPour ++ (pourable? options chunk).toList

/-- A chunk can be counted: it finds the countdowns of its batch as its batch left them, and if
it touches nothing but settings and completes all batches there are changes that wait. -/
structure Expects (options : CoordinatorOptions) (intake : Intake) (chunk : Change) : Prop where
  lone : chunk.chunkTotal.toNat ≤ 1 → buildEvents options chunk ≠ []
  fresh : chunk.chunkTotal.toNat ≤ 1 → ofTimestamp chunk.timestamp intake.countdowns = []
  changes : Batches.arrive chunk.timestamp chunk.chunkTotal.toNat intake.countdowns = [] →
    isSettingsOnly options chunk = true → intake.view.changes ≠ []

/-- What may come before a chunk is counted, or after. -/
inductive Passes (circumstances : Circumstances) (project : String) : Intake → Intake → Prop where
  | apart (intake : Intake) (told : List Notice)
      (hApart : ∀ notice ∈ told, notice.project? ≠ some project) :
      Passes circumstances project intake (intake.tell told)
  | cancel (intake : Intake) :
      Passes circumstances project intake
        { intake with view := { intake.view with timer := false } }
  | pour (intake : Intake) (request : Nat) (changes : List ChangeEvent)
      (before after : List (List ChangeEvent)) (hToPour : intake.toPour = before ++ changes :: after) :
      Passes circumstances project intake
        { intake with
          view := { intake.view with changes := intake.view.changes ++ changes }.tell
            (.buffered request project changes)
          toPour := before ++ after }
  | build (intake : Intake) (view : View)
      (hAdvance : Advance circumstances project intake.view view) :
      Passes circumstances project intake { intake with view := view }

/-- What happens when the chunk of a request is counted. -/
inductive Counts (project : String) (chunk : Change) (request : Nat) : Intake → Intake → Prop where
  | wait (intake : Intake) (before after : List Change)
      (hTaking : intake.taking = before ++ chunk :: after)
      (hArrived : Batches.arrive chunk.timestamp chunk.chunkTotal.toNat intake.countdowns ≠ []) :
      Counts project chunk request intake
        { intake with
          view := { intake.view with
            timer := true
            changing := (before ++ after).length }.tell (.answered request (.ok ()))
          countdowns := Batches.arrive chunk.timestamp chunk.chunkTotal.toNat intake.countdowns
          taking := before ++ after }
  | dispatch (intake : Intake) (before after : List Change)
      (hTaking : intake.taking = before ++ chunk :: after)
      (hArrived : Batches.arrive chunk.timestamp chunk.chunkTotal.toNat intake.countdowns = []) :
      Counts project chunk request intake
        { intake with
          view := (({ intake.view with
              timer := false
              changes := []
              build := intake.view.build.begin false
              phases := intake.view.phases ++ [Phase.waiting (some intake.view.changes)]
              changing := (before ++ after).length }.tell (.begun project false)).tell
                (.drained project intake.view.changes)).tell (.answered request (.ok ()))
          countdowns := []
          taking := before ++ after }

theorem Counts.mem_taking {chunk : Change} {request : Nat} {intake after : Intake}
    (hCounts : Counts project chunk request intake after) : chunk ∈ intake.taking := by
  cases hCounts with
  | wait before later hTaking hArrived =>
      rw [hTaking]
      exact List.mem_append_right _ List.mem_cons_self
  | dispatch before later hTaking hArrived =>
      rw [hTaking]
      exact List.mem_append_right _ List.mem_cons_self

theorem changing_eq (options : CoordinatorOptions) (project : String) (stages : List Stage)
    (data : CoordinatorState) :
    (of options project stages data).view.changing =
      (of options project stages data).taking.length := by
  unfold of View.of
  dsimp only
  rw [List.length_filterMap_eq_countP]
  refine List.countP_congr ?_
  intro stage _
  rw [Stage.isSome_taking?]

theorem toPour_sublist (options : CoordinatorOptions) (project : String) (stages : List Stage)
    (data : CoordinatorState) :
    (of options project stages data).toPour.Sublist
      ((of options project stages data).taking.filterMap (pourable? options)) := by
  unfold of
  dsimp only
  rw [List.filterMap_filterMap]
  induction stages with
  | nil => exact List.Sublist.slnil
  | cons stage rest ih =>
      rw [List.filterMap_cons, List.filterMap_cons]
      unfold Stage.toPour?
      cases stage.isPoured with
      | true =>
          simp only [if_true]
          split
          · exact ih
          · exact ih.cons _
      | false =>
          simp only [Bool.false_eq_true, if_false]
          split
          · exact ih
          · exact ih.cons_cons _

theorem Passes.stay (circumstances : Circumstances) (project : String) (intake : Intake) :
    Passes circumstances project intake intake :=
  .apart intake [] (List.forall_mem_nil _)

end Intake

/-! ### Turns of a request that takes in a chunk -/

def turnIntake (options : CoordinatorOptions) (project : String) (earlier later : List Stage)
    (turn : CoordinatorTurn) : Intake :=
  Intake.of options project (earlier ++ turn.next.stage?.toList ++ later ++ turn.spawned) turn.data

section

variable {earlier later : List Stage} {stage : Stage} {work : Work} {chunk : Change}

theorem turn_intake {next : Next Stage Query} {goal : Stage} (release : Bool)
    (hSpawned : work.spawned = []) (hNext : next.stage? = some goal)
    (hChange : stage.change? = some chunk) (hGoal : goal.change? = some chunk) :
    turnIntake options project earlier later (work.turn release next) =
      { Intake.of options project (earlier ++ stage :: later) work.state with
        toPour := (earlier ++ goal :: later).filterMap (Stage.toPour? options project) } := by
  have hPhase : stage.phaseOf? project = none :=
    Stage.phaseOf?_of_phase? project (Stage.phase?_of_change? hChange)
  have hGoalPhase : goal.phaseOf? project = none :=
    Stage.phaseOf?_of_phase? project (Stage.phase?_of_change? hGoal)
  have hDeals : goal.dealsWith project = stage.dealsWith project := by
    unfold Stage.dealsWith
    rw [hGoal, hChange]
  have hTaking : goal.taking? project = stage.taking? project := by
    unfold Stage.taking?
    rw [hGoal, hChange]
  refine Intake.ext (View.ext rfl rfl rfl ?_ ?_ rfl) rfl ?_ ?_
  · simp [turnIntake, Work.turn, Intake.of, View.of, hSpawned, hNext, hPhase, hGoalPhase]
  · simp [turnIntake, Work.turn, Intake.of, View.of, hSpawned, hNext, List.countP_cons, hDeals]
  · simp [turnIntake, Work.turn, Intake.of, hSpawned, hNext, List.filterMap_cons, hTaking]
  · simp [turnIntake, Work.turn, Intake.of, hSpawned, hNext]

theorem goOn_intake {next : Next Stage Query} {goal : Stage} (release : Bool)
    (hSpawned : work.spawned = []) (hNext : next.stage? = some goal)
    (hChange : stage.change? = some chunk) (hGoal : goal.change? = some chunk)
    (hToPour : goal.toPour? options project = stage.toPour? options project) :
    turnIntake options project earlier later (work.turn release next) =
      Intake.of options project (earlier ++ stage :: later) work.state := by
  rw [turn_intake release hSpawned hNext hChange hGoal]
  refine Intake.ext rfl rfl rfl ?_
  simp only [Intake.of, List.filterMap_append, List.filterMap_cons, hToPour]

theorem proceed_intake (release : Bool) (info : ProjectInfo) (hSpawned : work.spawned = [])
    (hChange : stage.change? = some chunk) (hProject : chunk.project = project)
    (hPoured : stage.isPoured = false) :
    turnIntake options project earlier later (proceed options work release chunk info) =
      Intake.of options project (earlier ++ stage :: later) work.state := by
  have hToPour := Stage.toPour?_of_change? options hChange hProject hPoured
  unfold proceed
  split
  · rename_i hEmpty
    refine goOn_intake release hSpawned rfl hChange rfl ?_
    rw [hToPour, pourable?, if_pos (List.isEmpty_iff.mp hEmpty)]
    rfl
  · refine goOn_intake release hSpawned rfl hChange rfl ?_
    rw [hToPour]
    exact Stage.toPour?_of_change? options rfl hProject rfl

theorem answer_intake (request : Nat) (result : UpdateResult)
    (hTaking : stage.taking? project = some chunk) (hPoured : stage.isPoured = true)
    (hSpawned : ∀ new ∈ work.spawned, new.change? = none) :
    turnIntake options project earlier later (work.answer request result) =
      { view := { work.view project (earlier ++ stage :: later) with
          changing := (earlier.filterMap (Stage.taking? project) ++
            later.filterMap (Stage.taking? project)).length }.tell (.answered request result)
        countdowns := work.state.batches.progress project
        taking := earlier.filterMap (Stage.taking? project) ++
          later.filterMap (Stage.taking? project)
        toPour := (earlier ++ stage :: later).filterMap (Stage.toPour? options project) } := by
  have hPhase : stage.phaseOf? project = none := by
    refine Stage.phaseOf?_of_phase? project ?_
    obtain ⟨hChange, _⟩ := Option.filter_eq_some_iff.mp hTaking
    exact Stage.phase?_of_change? hChange
  have hNoneTaking : work.spawned.filterMap (Stage.taking? project) = [] :=
    List.filterMap_eq_nil_iff.mpr fun new hNew => Stage.taking?_of_none (hSpawned new hNew)
  have hNonePour : work.spawned.filterMap (Stage.toPour? options project) = [] :=
    List.filterMap_eq_nil_iff.mpr fun new hNew => Stage.toPour?_of_none (hSpawned new hNew)
  have hToPour : stage.toPour? options project = none := if_pos hPoured
  have hTakingAfter : (turnIntake options project earlier later (work.answer request result)).taking =
      earlier.filterMap (Stage.taking? project) ++ later.filterMap (Stage.taking? project) := by
    simp [turnIntake, Work.answer, Work.finish, Work.turn, Work.map, Next.stage?, Intake.of,
      hNoneTaking]
  refine Intake.ext (View.ext rfl rfl rfl ?_ ?_ rfl) rfl hTakingAfter ?_
  · simp [turnIntake, Work.answer, Work.finish, Work.turn, Work.map, Next.stage?, Intake.of,
      Work.view, View.of, View.tell, hPhase]
  · rw [turnIntake, Intake.changing_eq]
    exact congrArg List.length hTakingAfter
  · simp [turnIntake, Work.answer, Work.finish, Work.turn, Work.map, Next.stage?, Intake.of,
      hNonePour, hToPour]

end

theorem resume_passes (self fresh : Nat) {wait : Wait Query} {answer? : Option Answer}
    (earlier later : List Stage) (data : CoordinatorState) {chunk : Change}
    (hAwaits : stage.Awaits options wait) (hReplies : Replies (.dependable project) wait answer?)
    (hChange : stage.change? = some chunk) (hProject : chunk.project = project)
    (hPoured : stage.isPoured = false)
    (hSome : ∀ info, stage = .changeBuffer chunk info → buildEvents options chunk ≠ []) :
    Intake.Passes (.dependable project) project
      (Intake.of options project (earlier ++ stage :: later) data)
      (turnIntake options project earlier later
        (resume options self fresh stage answer? data)) := by
  let start : Work := { state := data, fresh := fresh }
  have hStays {release : Bool} {next : Next Stage Query} {goal : Stage}
      (hNext : next.stage? = some goal) (hGoal : goal.change? = some chunk)
      (hLeft : goal.isPoured = false) :
      Intake.Passes (.dependable project) project
        (Intake.of options project (earlier ++ stage :: later) data)
        (turnIntake options project earlier later (start.turn release next)) := by
    rw [goOn_intake release rfl hNext hChange hGoal]
    · exact .stay ..
    · rw [Stage.toPour?_of_change? options hChange hProject hPoured,
        Stage.toPour?_of_change? options hGoal hProject hLeft]
  have hProceeds (info : ProjectInfo) :
      Intake.Passes (.dependable project) project
        (Intake.of options project (earlier ++ stage :: later) data)
        (turnIntake options project earlier later (proceed options start false chunk info)) := by
    rw [proceed_intake false info rfl hChange hProject hPoured]
    exact .stay ..
  cases stage with
  | change same =>
      cases hChange
      exact hStays rfl rfl rfl
  | changeFound same =>
      cases hChange
      cases hAwaits
      obtain ⟨lookup, hLookup, rfl⟩ := hReplies
      obtain ⟨info, rfl, _⟩ := hLookup.2 hProject
      exact hStays rfl rfl rfl
  | changeTimer same info =>
      cases hChange
      have hCancelled : Intake.of options project (earlier ++ .changeTimer chunk info :: later)
          (start.cancelTimer chunk.project).state =
          { Intake.of options project (earlier ++ .changeTimer chunk info :: later) data with
            view := { View.of project (earlier ++ .changeTimer chunk info :: later) data with
              timer := false } } := by
        refine Intake.ext (View.ext ?_ rfl rfl rfl rfl rfl) rfl rfl rfl
        exact (Timers.isPending_cancel _ _ _).trans (if_pos hProject.symm)
      have hAfter : turnIntake options project earlier later
          (afterCancel options (start.cancelTimer chunk.project) chunk info) =
            Intake.of options project (earlier ++ .changeTimer chunk info :: later)
              (start.cancelTimer chunk.project).state := by
        unfold afterCancel
        split
        · refine goOn_intake true rfl rfl rfl rfl ?_
          exact (Stage.toPour?_of_change? options rfl hProject rfl).trans
            (Stage.toPour?_of_change? options rfl hProject rfl).symm
        · exact proceed_intake true info rfl rfl hProject rfl
      simp only [resume]
      rw [hAfter, hCancelled]
      exact .cancel _
  | changeLoaded same info =>
      cases hChange
      simp only [resume]
      unfold afterLoad
      split
      · rename_i settings hLoaded
        split
        · have hApplying : turnIntake options project earlier later
              ((start.map (·.tell (.applying info.id settings))).turn false
                (.ask (.applySettings info.id settings) (.changeApplied chunk info))) =
              (Intake.of options project (earlier ++ .changeLoaded chunk info :: later) data).tell
                [.applying info.id settings] := by
            refine goOn_intake false rfl rfl rfl rfl ?_
            exact (Stage.toPour?_of_change? options rfl hProject rfl).trans
              (Stage.toPour?_of_change? options rfl hProject rfl).symm
          rw [hApplying]
          exact .apart _ _ (by simp [Notice.project?])
        · exact hProceeds info
      · exact hProceeds info
  | changeApplied same info =>
      cases hChange
      obtain ⟨settings, rfl⟩ := hAwaits
      obtain ⟨result, hResult, rfl⟩ := hReplies
      cases result with
      | applied => exact hStays rfl rfl rfl
      | failed => exact hProceeds info
      | panicked => exact absurd rfl hResult
  | changeRefreshed same =>
      cases hChange
      cases hAwaits
      obtain ⟨lookup, hLookup, rfl⟩ := hReplies
      obtain ⟨info, rfl, _⟩ := hLookup.2 hProject
      exact hProceeds info
  | changeBuffer same info =>
      cases hChange
      have hEvents := hSome info rfl
      have hToPour : Stage.toPour? options project (.changeBuffer chunk info) =
          some (buildEvents options chunk) := by
        rw [Stage.toPour?_of_change? options rfl hProject rfl, pourable?, if_neg hEvents]
      have hBuffered : View.of project (earlier ++ .changeBuffer chunk info :: later)
          (data.buffer self chunk.project (buildEvents options chunk)) =
          { View.of project (earlier ++ Stage.changeBuffer chunk info :: later) data with
            changes := data.changes project ++ buildEvents options chunk }.tell
              (.buffered self project (buildEvents options chunk)) := by
        subst hProject
        refine View.ext rfl ?_ rfl rfl rfl rfl
        exact (CoordinatorState.changes_buffer data self _ _ _).trans (if_pos rfl)
      let poured := start.map (·.buffer self chunk.project (buildEvents options chunk))
      have hTurn : turnIntake options project earlier later
          (poured.turn true (.acquire allLocks (.changeLocked chunk info))) =
          { Intake.of options project (earlier ++ .changeBuffer chunk info :: later)
              poured.state with
            toPour := (earlier ++ .changeLocked chunk info :: later).filterMap
              (Stage.toPour? options project) } := turn_intake true rfl rfl rfl rfl
      have hLeft : (earlier ++ Stage.changeLocked chunk info :: later).filterMap
          (Stage.toPour? options project) =
            earlier.filterMap (Stage.toPour? options project) ++
              later.filterMap (Stage.toPour? options project) := by
        simp [Stage.toPour?, Stage.isPoured]
      simp only [resume]
      rw [hTurn, hLeft]
      convert Intake.Passes.pour
        (Intake.of options project (earlier ++ .changeBuffer chunk info :: later) data) self
        (buildEvents options chunk) (earlier.filterMap (Stage.toPour? options project))
        (later.filterMap (Stage.toPour? options project)) (by simp [Intake.of, hToPour]) using 1
      exact Intake.ext hBuffered rfl rfl rfl
  | changeLocked same info => cases hPoured
  | _ => cases hChange

/-! ### The decision about a chunk -/

section

variable {work : Work} {chunk : Change} {info : ProjectInfo}

/-- A decision to build does so if the project is built on its own and there is something to
build. -/
theorem Work.trigger_eq_beginBuild (work : Work) (requireChanges : Bool) (hAuto : info.autoBuild = true)
    (hChanges : requireChanges = true → work.state.changes info.id ≠ []) :
    work.trigger info requireChanges =
      ((work.cancelTimer info.id).clearBatches info.id).beginBuild info.id info false := by
  unfold Work.trigger
  dsimp only
  rw [if_neg (by simp [hAuto]), if_neg]
  intro hNone
  obtain ⟨hRequire, hEmpty⟩ := Bool.and_eq_true_iff.mp hNone
  refine hChanges hRequire ((CoordinatorState.hasChanges_eq_false_iff work.state info.id).mp ?_)
  have hNo : (!work.state.hasChanges info.id) = true := hEmpty
  simpa using hNo

/-- A chunk that is counted when it should be dispatches a build if it leaves no batch
incomplete, and begins a quiet period otherwise. -/
theorem decide_eq (work : Work) {stages : List Stage} (hProject : chunk.project = project)
    (hId : info.id = project) (hAuto : info.autoBuild = true)
    (hExpects : (Intake.of options project stages work.state).Expects options chunk) :
    decide options work chunk info =
      if Batches.arrive chunk.timestamp chunk.chunkTotal.toNat
          (work.state.batches.progress project) = [] then
        (((work.record chunk).cancelTimer project).clearBatches project).beginBuild project info
          false
      else (work.record chunk).armTimer project := by
  subst hProject
  have hArrived : (work.record chunk).state.batches.progress chunk.project =
      Batches.arrive chunk.timestamp chunk.chunkTotal.toNat
        (work.state.batches.progress chunk.project) :=
    (Batches.progress_record _ _ _ _ _).trans (if_pos rfl)
  -- A lone chunk has something to build, so its request does not end with its settings.
  have hLone : ¬ (isSettingsOnly options chunk && Decidable.decide (chunk.chunkTotal.toNat ≤ 1)) =
      true := by
    intro hBoth
    obtain ⟨hSettings, hSingle⟩ := Bool.and_eq_true_iff.mp hBoth
    exact hExpects.lone (of_decide_eq_true hSingle) (buildEvents_eq_nil hSettings)
  have hComplete : ((work.record chunk).state.batches.status chunk.project chunk.timestamp
      chunk.chunkTotal.toNat).isComplete = true ↔
        Batches.arrive chunk.timestamp chunk.chunkTotal.toNat
          (work.state.batches.progress chunk.project) = [] := by
    rw [Batches.isComplete_status_iff, hArrived]
    intro hSingle
    rw [hArrived, Batches.arrive, if_pos hSingle]
    exact hExpects.fresh hSingle
  unfold Coordinator.decide
  dsimp only
  rw [if_neg hLone]
  by_cases hNone : Batches.arrive chunk.timestamp chunk.chunkTotal.toNat
      (work.state.batches.progress chunk.project) = []
  · rw [if_pos (hComplete.mpr hNone), if_pos hNone]
    have hBegins (requireChanges : Bool) (hChanges : requireChanges = true →
        (work.record chunk).state.changes info.id ≠ []) :=
      Work.trigger_eq_beginBuild (work.record chunk) requireChanges hAuto hChanges
    rw [hId] at hBegins
    cases hSettings : isSettingsOnly options chunk with
    | false =>
        apply hBegins false
        intro hRequired
        cases hRequired
    | true =>
        have hChanges : (work.record chunk).state.changes chunk.project ≠ [] :=
          hExpects.changes hNone hSettings
        have hWaits : (work.record chunk).state.hasChanges chunk.project = true := by
          by_contra hNoChanges
          exact hChanges ((CoordinatorState.hasChanges_eq_false_iff _ _).mp
            (Bool.not_eq_true _ ▸ hNoChanges))
        rw [if_neg (by simp), if_pos hWaits]
        exact hBegins true fun _ => hChanges
  · rw [if_neg (mt hComplete.mp hNone), if_neg hNone]

theorem Work.beginBuild_started (work : Work) (info : ProjectInfo) (explicit : Bool)
    (hIdle : (work.state.builds.state project).inProgress = false) :
    (work.beginBuild project info explicit).state.batches = work.state.batches ∧
      (work.beginBuild project info explicit).state.timers = work.state.timers ∧
        ∃ changes, (work.beginBuild project info explicit).spawned =
          work.spawned ++ [.build info changes] := by
  have hSlot : work.state.builds.slot project = .started :=
    (Builds.slot_eq_started_iff _ _).mpr hIdle
  unfold Work.beginBuild
  simp only [hSlot]
  exact ⟨rfl, rfl, _, rfl⟩

/-- The turn in which a chunk is counted.  Whatever timer is kept after it was begun by it. -/
theorem resume_counts (self fresh : Nat) (earlier later : List Stage) (answer? : Option Answer)
    (data : CoordinatorState) (hProject : chunk.project = project) (hId : info.id = project)
    (hAuto : info.autoBuild = true)
    (hIdle : (data.builds.state project).inProgress = false)
    (hExpects : (Intake.of options project (earlier ++ .changeLocked chunk info :: later)
      data).Expects options chunk) :
    let turn := resume options self fresh (.changeLocked chunk info) answer? data
    Intake.Counts project chunk self
        (Intake.of options project (earlier ++ .changeLocked chunk info :: later) data)
        (turnIntake options project earlier later turn) ∧
      ∀ id, turn.data.timers.waiting.get? project = some id → fresh ≤ id := by
  let start : Work := { state := data, fresh := fresh }
  let stages := earlier ++ Stage.changeLocked chunk info :: later
  have hStart : start.view project stages = View.of project stages data := Work.view_start ..
  have hTakes : Stage.taking? project (.changeLocked chunk info) = some chunk :=
    Stage.taking?_of_change? rfl hProject
  have hTaking : stages.filterMap (Stage.taking? project) =
      earlier.filterMap (Stage.taking? project) ++
        chunk :: later.filterMap (Stage.taking? project) := by
    simp [stages, hTakes]
  have hRecorded : (start.record chunk).state.batches.progress project =
      Batches.arrive chunk.timestamp chunk.chunkTotal.toNat (data.batches.progress project) := by
    rw [← hProject]
    exact (Batches.progress_record _ _ _ _ _).trans (if_pos rfl)
  simp only [resume]
  rw [decide_eq start hProject hId hAuto hExpects]
  split
  · rename_i hArrived
    let cleared := ((start.record chunk).cancelTimer project).clearBatches project
    have hCleared : cleared.view project stages =
        { View.of project stages data with timer := false } := by
      rw [← hStart]
      exact Work.view_cancelTimer_self
    obtain ⟨hBatches, hTimers, changes, hSpawned⟩ :=
      Work.beginBuild_started cleared info false hIdle
    have hNone : cleared.state.batches.progress project = [] :=
      (Batches.progress_clear _ _ _).trans (if_pos rfl)
    have hQuiet : ∀ new ∈ (cleared.beginBuild project info false).spawned,
        new.change? = none := by
      intro new hNew
      rw [hSpawned] at hNew
      rw [List.mem_singleton.mp hNew]
      rfl
    refine ⟨?_, ?_⟩
    · rw [answer_intake self _ hTakes rfl hQuiet,
        Work.view_beginBuild_started hId (by rw [hCleared]; exact hIdle), hCleared, hBatches, hNone]
      exact .dispatch _ _ _ hTaking hArrived
    · intro id hKept
      change (cleared.beginBuild project info false).state.timers.waiting.get? project =
        some id at hKept
      rw [hTimers] at hKept
      have hCancelled : cleared.state.timers.waiting.get? project = none :=
        (Timers.get?_cancel _ _ _).trans (if_pos rfl)
      rw [hCancelled] at hKept
      cases hKept
  · rename_i hArrived
    refine ⟨?_, ?_⟩
    · have hSpawned : ∀ new ∈ ((start.record chunk).armTimer project).spawned,
          new.change? = none := by
        intro new hNew
        rw [List.mem_singleton.mp hNew]
        rfl
      have hView : ((start.record chunk).armTimer project).view project stages =
          { View.of project stages data with timer := true } := by
        rw [← hStart]
        exact Work.view_armTimer_self
      rw [answer_intake self _ hTakes rfl hSpawned, hView]
      have hCounted : ((start.record chunk).armTimer project).state.batches.progress project = _ :=
        hRecorded
      rw [hCounted]
      exact .wait _ _ _ hTaking hArrived
    · intro id hKept
      have hArmed : ((start.record chunk).armTimer project).state.timers.waiting.get? project =
          some fresh := (Timers.get?_arm _ _ _ _).trans (if_pos rfl)
      have hSame : some fresh = some id := hArmed.symm.trans hKept
      exact Nat.le_of_eq (Option.some.inj hSame)

end

/-! ### Turns of other tasks -/

theorem resume_builds (options : CoordinatorOptions) (self fresh : Nat) {stage : Stage}
    {phase : Phase} (answer? : Option Answer) (data : CoordinatorState)
    (hPhase : stage.phase? = some phase) :
    let turn := resume options self fresh stage answer? data
    turn.data.batches = data.batches ∧ turn.spawned = [] ∧
      ∀ later, turn.next.stage? = some later → later.change? = none := by
  cases stage with
  | build info changes => exact ⟨rfl, rfl, by rintro later ⟨⟩; rfl⟩
  | buildEnded asked =>
      simp only [resume]
      unfold endBuild
      dsimp only
      split
      · exact ⟨rfl, rfl, by rintro later ⟨⟩; rfl⟩
      · exact ⟨rfl, rfl, by rintro later ⟨⟩⟩
  | followUpFound asked followUp =>
      simp only [resume]
      unfold followUpWith
      split
      · split
        · exact ⟨rfl, rfl, by rintro later ⟨⟩; rfl⟩
        · exact ⟨rfl, rfl, by rintro later ⟨⟩⟩
      · exact ⟨rfl, rfl, by rintro later ⟨⟩⟩
      · exact ⟨rfl, rfl, by rintro later ⟨⟩⟩
  | followUpLocked asked info followUp => exact ⟨rfl, rfl, by rintro later ⟨⟩; rfl⟩
  | _ => cases hPhase

theorem Stage.change?_of_phase? {stage : Stage} {phase : Phase}
    (hPhase : stage.phase? = some phase) : stage.change? = none := by
  cases stage <;> first | rfl | cases hPhase

theorem Stage.eq_timer {stage : Stage} (hAwaits : stage.Awaits options .turn)
    (hQuiet : stage.quiet? = some project) : stage = .timer project := by
  cases stage with
  | timer asked =>
      cases hQuiet
      rfl
  | timerElapsed asked =>
      obtain ⟨due, hWait⟩ := hAwaits
      cases hWait
  | timerFound asked => cases hAwaits
  | timerLocked asked lookup => cases hAwaits
  | _ => cases hQuiet

end Coordinator

end BuildWatch
