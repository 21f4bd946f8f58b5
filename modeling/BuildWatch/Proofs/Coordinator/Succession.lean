import BuildWatch.Proofs.Coordinator.Answers
import BuildWatch.Proofs.Coordinator.Dispatches

/-!
Chunks that come one after the other.  As long as none comes later than a quiet period after
the one before, a build is dispatched exactly when every batch that has begun has arrived, and
it takes what has come since the last one.
-/

namespace BuildWatch

open BuildWatch.Tasks

namespace Coordinator

variable {options : CoordinatorOptions} {project : String}

/-- Some chunks are those of whole batches, in each of which there is something to build. -/
structure WholeBatches (options : CoordinatorOptions) (chunks : List Change) : Prop where
  alike : ∀ chunk ∈ chunks, ∀ other ∈ chunks, other.timestamp = chunk.timestamp →
    other.chunkTotal = chunk.chunkTotal
  arrived : AllArrived chunks
  builds : ∀ chunk ∈ chunks, ∃ other ∈ chunks, other.timestamp = chunk.timestamp ∧
    buildEvents options other ≠ []

theorem WholeBatches.ofBatches {chunks more : List Change}
    (hWhole : WholeBatches options (chunks ++ more)) : OfBatches chunks :=
  OfBatches.left ⟨hWhole.alike, fun chunk hChunk => Nat.le_of_eq (hWhole.arrived chunk hChunk)⟩

/-! ### The account of the chunks -/

/-- What is to become of some chunks that are taken in one after the other. -/
structure Account where
  taken : List Change := []
  /-- Those that came since the last build. -/
  opened : List Change := []
  builds : List (List ChangeEvent) := []

namespace Account

/-- A chunk after which every batch that has begun has arrived has all that built that came
since the last build. -/
def take (options : CoordinatorOptions) (account : Account) (chunk : Change) : Account :=
  let taken := account.taken ++ [chunk]
  let opened := account.opened ++ [chunk]
  if AllArrived taken then
    { taken := taken
      opened := []
      builds := account.builds ++ [opened.flatMap (buildEvents options)] }
  else { taken := taken, opened := opened, builds := account.builds }

def of (options : CoordinatorOptions) (chunks : List Change) : Account :=
  chunks.foldl (take options) {}

variable {chunks : List Change} {chunk : Change}

theorem of_concat (options : CoordinatorOptions) (chunks : List Change) (chunk : Change) :
    of options (chunks ++ [chunk]) = (of options chunks).take options chunk :=
  List.foldl_append

theorem taken_of (options : CoordinatorOptions) (chunks : List Change) :
    (of options chunks).taken = chunks := by
  induction chunks using List.reverseRecOn with
  | nil => rfl
  | append_singleton chunks chunk ih =>
      rw [of_concat, take]
      split <;> rw [ih]

theorem of_concat_arrived (hArrived : AllArrived (chunks ++ [chunk])) :
    of options (chunks ++ [chunk]) =
      { taken := chunks ++ [chunk]
        opened := []
        builds := (of options chunks).builds ++
          [((of options chunks).opened ++ [chunk]).flatMap (buildEvents options)] } := by
  rw [of_concat, take, taken_of]
  exact if_pos hArrived

theorem of_concat_waiting (hWaiting : ¬ AllArrived (chunks ++ [chunk])) :
    of options (chunks ++ [chunk]) =
      { taken := chunks ++ [chunk]
        opened := (of options chunks).opened ++ [chunk]
        builds := (of options chunks).builds } := by
  rw [of_concat, take, taken_of]
  exact if_neg hWaiting

theorem exists_before_opened (options : CoordinatorOptions) (chunks : List Change) :
    ∃ before, chunks = before ++ (of options chunks).opened ∧ AllArrived before := by
  induction chunks using List.reverseRecOn with
  | nil => exact ⟨[], rfl, List.forall_mem_nil _⟩
  | append_singleton chunks chunk ih =>
      by_cases hArrived : AllArrived (chunks ++ [chunk])
      · rw [of_concat_arrived hArrived]
        exact ⟨chunks ++ [chunk], (List.append_nil _).symm, hArrived⟩
      · rw [of_concat_waiting hArrived]
        obtain ⟨before, hChunks, hBefore⟩ := ih
        refine ⟨before, ?_, hBefore⟩
        rw [← List.append_assoc, ← hChunks]

end Account

theorem arrivals_append (timestamp : UInt64) (chunks more : List Change) :
    arrivals timestamp (chunks ++ more) = arrivals timestamp chunks + arrivals timestamp more :=
  List.countP_append

/-- The chunk that completes all batches has something to build, or one that is open does. -/
theorem WholeBatches.exists_opened {counted rest : List Change} {chunk : Change}
    (hWhole : WholeBatches options (counted ++ [chunk] ++ rest))
    (hArrived : AllArrived (counted ++ [chunk])) (hEmpty : buildEvents options chunk = []) :
    ∃ other ∈ (Account.of options counted).opened, buildEvents options other ≠ [] := by
  have hChunk : chunk ∈ counted ++ [chunk] := List.mem_append_right _ List.mem_cons_self
  obtain ⟨other, hOther, hSame, hBuilds⟩ := hWhole.builds chunk (List.mem_append_left _ hChunk)
  obtain ⟨before, hCounted, hBefore⟩ := Account.exists_before_opened options counted
  have hAll := hWhole.arrived chunk (List.mem_append_left _ hChunk)
  have hOwn := hArrived chunk hChunk
  rw [arrivals_append] at hAll
  -- The batch of the chunk has no chunk that is still to come, and none that was built.
  have hNotLater : other ∉ rest := by
    intro hRest
    have hPositive := (arrivals_pos_iff chunk.timestamp rest).mpr ⟨other, hRest, hSame⟩
    omega
  have hNotBefore : other ∉ before := by
    intro hOld
    have hTotal := hWhole.alike chunk (List.mem_append_left _ hChunk) other hOther hSame
    have hFull := hBefore other hOld
    rw [hSame, hTotal] at hFull
    rw [arrivals_concat_self, hCounted, arrivals_append] at hOwn
    omega
  refine ⟨other, ?_, hBuilds⟩
  rcases List.mem_append.mp hOther with hCome | hRest
  · rcases List.mem_append.mp hCome with hOld | hLast
    · rw [hCounted] at hOld
      exact (List.mem_append.mp hOld).resolve_left hNotBefore
    · rw [List.mem_singleton.mp hLast] at hBuilds
      exact absurd hEmpty hBuilds
  · exact absurd hRest hNotLater

/-! ### One chunk after the other -/

/-- The chunks of a project are taken in one after the other, as their account has it. -/
structure Following (options : CoordinatorOptions) (project : String) (first intake : Intake)
    (counted : List Change) : Prop where
  single : intake.taking.length ≤ 1
  countdowns : intake.countdowns = countdownsAfter counted
  idle : intake.taking ≠ [] → intake.view.build.inProgress = false
  unasked : intake.view.Unasked
  changes : intake.view.changes ++ intake.toPour.flatten =
    ((Account.of options counted).opened ++ intake.taking).flatMap (buildEvents options)
  dispatched : intake.view.dispatched project =
    first.view.dispatched project ++ (Account.of options counted).builds.map some
  quiet : intake.taking = [] → AllArrived counted → intake.view.timer = false

theorem flatten_pourable? (options : CoordinatorOptions) (chunk : Change) :
    (pourable? options chunk).toList.flatten = buildEvents options chunk := by
  unfold pourable?
  by_cases hEmpty : buildEvents options chunk = []
  · rw [if_pos hEmpty, hEmpty]
    rfl
  · rw [if_neg hEmpty]
    simp

namespace Following

variable {first intake after : Intake} {counted : List Change} {chunk : Change}
variable (hFollowing : Following options project first intake counted)

include hFollowing

theorem come (hNone : intake.taking = []) (hIdle : intake.view.build.inProgress = false) :
    Following options project first (intake.come options chunk) counted where
  single := by simp [Intake.come, hNone]
  countdowns := hFollowing.countdowns
  idle := fun _ => hIdle
  unasked := ⟨hFollowing.unasked.requested, hFollowing.unasked.unprepared⟩
  changes := by
    have hBefore := hFollowing.changes
    simp only [Intake.come]
    rw [List.flatten_append, ← List.append_assoc, hBefore, flatten_pourable?]
    simp
  dispatched := hFollowing.dispatched
  quiet := fun hEmpty => absurd hEmpty (by simp [Intake.come])

theorem passes {poured : List (Nat × List ChangeEvent)}
    (hPasses : intake.PassesBy project after poured)
    (hToPour : intake.toPour.Sublist (intake.taking.filterMap (pourable? options))) :
    Following options project first after counted where
  single := hPasses.taking ▸ hFollowing.single
  countdowns := hPasses.countdowns.trans hFollowing.countdowns
  idle := by
    rw [hPasses.taking]
    exact fun hSome => hPasses.idle (hFollowing.idle hSome)
  unasked := hPasses.unasked
  changes := by
    -- There is one list at most that can be put into the buffer, so its order does not matter.
    have hShort : intake.toPour.length ≤ 1 :=
      Nat.le_trans hToPour.length_le
        (Nat.le_trans (List.length_filterMap_le _ _) hFollowing.single)
    have hSame : intake.toPour = poured.map Prod.snd ++ after.toPour := by
      have hPoured := hPasses.toPour
      rcases Nat.le_one_iff_eq_zero_or_eq_one.mp hShort with hZero | hOne
      · rw [List.length_eq_zero_iff.mp hZero] at hPoured ⊢
        exact hPoured.nil_eq
      · obtain ⟨only, hOnly⟩ := List.length_eq_one_iff.mp hOne
        rw [hOnly] at hPoured ⊢
        exact (List.perm_singleton.mp hPoured.symm).symm
    have hBefore := hFollowing.changes
    rw [hSame, List.flatten_append, ← List.append_assoc, ← hPasses.changes] at hBefore
    rw [hPasses.taking]
    exact hBefore
  dispatched := hPasses.dispatched.trans hFollowing.dispatched
  quiet := by
    rw [hPasses.taking]
    exact fun hNone hArrived => hPasses.quiet (hFollowing.quiet hNone hArrived)

theorem taking_eq (hChunk : chunk ∈ intake.taking) : intake.taking = [chunk] :=
  eq_singleton_of_mem hFollowing.single hChunk

/-- A chunk dispatches a build exactly if every batch that has begun has arrived with it. -/
theorem counts {request : Nat} (hCounted : intake.Counted project chunk request after)
    (hBatches : OfBatches (counted ++ [chunk])) (hToPour : after.taking = [] → after.toPour = []) :
    after.taking = [] ∧ Following options project first after (counted ++ [chunk]) := by
  have hChunk : chunk ∈ intake.taking := by
    obtain ⟨before, later, hTaking, _⟩ := hCounted.taking
    rw [hTaking]
    exact List.mem_append_right _ List.mem_cons_self
  have hAlone : intake.taking = [chunk] := hFollowing.taking_eq hChunk
  have hNone : after.taking = [] := eq_nil_of_split hAlone hCounted.taking
  have hNothing : after.toPour = [] := hToPour hNone
  have hChanges : intake.view.changes =
      ((Account.of options counted).opened ++ [chunk]).flatMap (buildEvents options) := by
    have hBefore := hFollowing.changes
    rw [← hCounted.toPour, hNothing, List.flatten_nil, List.append_nil, hAlone] at hBefore
    exact hBefore
  have hCountdowns : after.countdowns = countdownsAfter (counted ++ [chunk]) := by
    rw [countdownsAfter_concat, ← hFollowing.countdowns]
    exact hCounted.countdowns
  have hWhole : after.countdowns = [] ↔ AllArrived (counted ++ [chunk]) :=
    hCountdowns ▸ hBatches.countdownsAfter_eq_nil_iff
  refine ⟨hNone, ?_⟩
  by_cases hArrived : AllArrived (counted ++ [chunk])
  · obtain ⟨hTimer, hDrained, hDispatched, _⟩ := hCounted.dispatches (hWhole.mpr hArrived)
    exact {
      single := by simp [hNone]
      countdowns := hCountdowns
      idle := fun hSome => absurd hNone hSome
      unasked := hCounted.unasked
      changes := by
        rw [hDrained, hNothing, hNone, Account.of_concat_arrived hArrived]
        rfl
      dispatched := by
        rw [hDispatched, hFollowing.dispatched, hChanges, Account.of_concat_arrived hArrived]
        simp
      quiet := fun _ _ => hTimer }
  · obtain ⟨hSame, hBuild, hDispatched⟩ := hCounted.waits (mt hWhole.mp hArrived)
    exact {
      single := by simp [hNone]
      countdowns := hCountdowns
      idle := fun hSome => absurd hNone hSome
      unasked := hCounted.unasked
      changes := by
        rw [hSame, hChanges, hNothing, hNone, Account.of_concat_waiting hArrived]
        simp
      dispatched := by
        rw [hDispatched, hFollowing.dispatched, Account.of_concat_waiting hArrived]
      quiet := fun _ hAll => absurd hAll hArrived }

theorem expects {rest : List Change} (hWhole : WholeBatches options (counted ++ [chunk] ++ rest))
    (hToPour : intake.toPour.Sublist (intake.taking.filterMap (pourable? options)))
    (hChunk : chunk ∈ intake.taking) : intake.Expects options chunk := by
  have hAlone := hFollowing.taking_eq hChunk
  have hBatches : OfBatches (counted ++ [chunk]) := hWhole.ofBatches
  have hMember : chunk ∈ counted ++ [chunk] := List.mem_append_right _ List.mem_cons_self
  have hEnough := hBatches.enough chunk hMember
  rw [arrivals_concat_self] at hEnough
  refine ⟨?_, ?_, ?_⟩
  · intro hSingle hEmpty
    have hArrived : arrivals chunk.timestamp (counted ++ [chunk] ++ rest) = 1 := by
      have hAll := hWhole.arrived chunk (List.mem_append_left _ hMember)
      rw [arrivals_append, arrivals_concat_self] at hAll ⊢
      omega
    obtain ⟨other, hOther, hSame, hBuilds⟩ := hWhole.builds chunk (List.mem_append_left _ hMember)
    have hNoOther : other ∉ counted ∧ other ∉ rest := by
      rw [arrivals_append, arrivals_concat_self] at hArrived
      refine ⟨?_, ?_⟩
      · intro hOld
        have hPositive := (arrivals_pos_iff chunk.timestamp counted).mpr ⟨other, hOld, hSame⟩
        omega
      · intro hRest
        have hPositive := (arrivals_pos_iff chunk.timestamp rest).mpr ⟨other, hRest, hSame⟩
        omega
    simp only [List.mem_append, List.mem_singleton, hNoOther.1, hNoOther.2, false_or,
      or_false] at hOther
    exact hBuilds (hOther ▸ hEmpty)
  · intro hSingle
    have hOwn : ∀ other ∈ counted, other.timestamp = chunk.timestamp →
        other.chunkTotal.toNat = chunk.chunkTotal.toNat := by
      intro other hOther hSame
      rw [hBatches.total chunk hMember other (List.mem_append_left _ hOther) hSame]
    rw [hFollowing.countdowns, BuildWatch.ofTimestamp_countdownsAfter hOwn (by omega),
      (leftOf_eq_nil_iff ..).mpr (Or.inl (by omega))]
  · intro hNone hSettings
    have hEmpty := buildEvents_eq_nil hSettings
    rw [hFollowing.countdowns, ← countdownsAfter_concat,
      hBatches.countdownsAfter_eq_nil_iff] at hNone
    obtain ⟨other, hOther, hBuilds⟩ := hWhole.exists_opened hNone hEmpty
    have hNothing : intake.toPour = [] := by
      rw [hAlone] at hToPour
      simpa [pourable?, hEmpty] using hToPour
    have hChanges := hFollowing.changes
    rw [hNothing, List.flatten_nil, List.append_nil] at hChanges
    rw [hChanges]
    intro hFlat
    exact hBuilds (List.flatMap_eq_nil_iff.mp hFlat other (List.mem_append_left _ hOther))

end Following

/-! ### Quiet periods that are not over -/

theorem happen_now (options : CoordinatorOptions) (system : CoordinatorSystem) (event : Event) :
    system.now ≤ (Coordinator.happen options system event).now := by
  have hCall (call? : Option Call) : system.now ≤ (takeCall system call?).now := by
    cases call? <;> exact Nat.le_refl _
  cases event with
  | update asked => exact hCall _
  | notify notification => exact hCall _
  | shutdown =>
      simp only [happen, shutdown, System.foldl_remove_now]
      exact Nat.le_refl _
  | pass duration => exact Nat.le_add_right _ _
  | reorder ready => exact Nat.le_refl _
  | poll id surrounding =>
      simp only [happen]
      rcases pollTask_cases options system id surrounding with ⟨locks, hPoll, _⟩ |
        ⟨locks, task, answer?, _, _, hPoll⟩
      · rw [hPoll]
      · rw [hPoll, System.applyTurn_now]

/-- The quiet periods of a project that run began when its last chunk was taken in, or later. -/
structure Timely (options : CoordinatorOptions) (project : String) (last? : Option Nat)
    (system : CoordinatorSystem) : Prop where
  past : ∀ last ∈ last?, last ≤ system.now
  due : ∀ last ∈ last?, ∀ task ∈ system.tasks, task.stage.quiet? = some project →
    task.stage = .timer project ∨
      ∃ due, task.wait = .clock due ∧ last + options.quietPeriod ≤ due
  never : last? = none → system.data.timers.isPending project = false

theorem Renewed.timely {system : CoordinatorSystem} (hRenewed : Renewed project system) :
    Timely options project (some system.now) system where
  past := by
    rintro last ⟨⟩
    exact Nat.le_refl _
  due := fun _ _ task hTask hQuiet => Or.inl (hRenewed task hTask hQuiet)
  never := nofun

theorem Sound.timely_happen {system : CoordinatorSystem}
    (hSound : Sound (.dependable project) options system) {last? : Option Nat}
    (hTimely : Timely options project last? system)
    (hUndisturbed : Undisturbed project system) {event : Event}
    (hWithin : event.Within (.dependable project)) (hNotOver : ¬ Elapsed project system)
    (hTimer : (Coordinator.happen options system event).data.timers.isPending project = true →
      system.data.timers.isPending project = true) :
    Timely options project last? (Coordinator.happen options system event) where
  past := fun last hLast => Nat.le_trans (hTimely.past last hLast) (happen_now options system event)
  never := by
    intro hNone
    by_contra hPending
    have hBefore := hTimer (by simpa using hPending)
    rw [hTimely.never hNone] at hBefore
    cases hBefore
  due := by
    intro last hLast other hOther hQuiet
    have hCall (call? : Option Call)
        (hMember : other ∈ (Coordinator.takeCall system call?).tasks) : other ∈ system.tasks := by
      cases call? with
      | none => exact hMember
      | some call =>
          rcases List.mem_append.mp hMember with hOld | hNew
          · exact hOld
          · rw [List.mem_singleton.mp hNew] at hQuiet
            cases call <;> cases hQuiet
    cases event with
    | update asked => exact hTimely.due last hLast other (hCall _ hOther) hQuiet
    | notify notification => exact hTimely.due last hLast other (hCall _ hOther) hQuiet
    | shutdown => exact hWithin.elim
    | pass duration => exact hTimely.due last hLast other hOther hQuiet
    | reorder ready => exact hTimely.due last hLast other hOther hQuiet
    | poll id surrounding =>
        simp only [Coordinator.happen] at hOther
        rcases hSound.poll_cases hWithin with ⟨locks, hPoll, _⟩ |
          ⟨locks, task, answer?, _, hTask, hGrant, _, _, hTurn, hPoll⟩
        · rw [hPoll] at hOther
          exact hTimely.due last hLast other hOther hQuiet
        · rw [hPoll] at hOther
          rcases System.mem_applyTurn_tasks hOther with ⟨hOld, _⟩ | ⟨_, hNext, hWait⟩ |
            ⟨_, index, hStage, _⟩
          · exact hTimely.due last hLast other hOld hQuiet
          · -- A quiet period that begins now lasts as long as any that began earlier.
            have hBefore : task.stage.quiet? = some project := (hTurn.next _ hNext).2.2 ▸ hQuiet
            rcases hUndisturbed.quiet task hTask hBefore with hBegins | hElapsed
            · rw [hBegins] at hWait
              refine Or.inr ⟨system.now + options.quietPeriod, hWait, ?_⟩
              exact Nat.add_le_add_right (hTimely.past last hLast) _
            · exact absurd (hSound.elapsed_of_grant hTask hElapsed hGrant) hNotOver
          · exact Or.inl (Stage.eq_timer (hTurn.spawned _ (List.mem_of_getElem? hStage)).1 hQuiet)

theorem Timely.not_elapsed {system : CoordinatorSystem} {last? : Option Nat}
    (hTimely : Timely options project last? system) (hTended : Tended system)
    (hSoon : system.data.timers.isPending project = true →
      ∀ last ∈ last?, system.now < last + options.quietPeriod) :
    ¬ Elapsed project system := by
  rintro ⟨task, hTask, hStage, due, hWait, hDue⟩
  have hQuiet : task.stage.quiet? = some project := by
    rw [hStage]
    rfl
  have hPending : system.data.timers.isPending project = true := by
    have hKept := hTended task hTask project hQuiet
    exact Option.isSome_of_eq_some hKept
  cases last? with
  | none =>
      have hNever := hTimely.never rfl
      rw [hPending] at hNever
      cases hNever
  | some last =>
      have hBefore := hSoon hPending last rfl
      rcases hTimely.due last rfl task hTask hQuiet with hTimer | ⟨other, hOther, hLate⟩
      · rw [hStage] at hTimer
        cases hTimer
      · cases hWait.symm.trans hOther
        omega

/-! ### Runs in which chunks come one after the other -/

/-- The time at which the last chunk of a project was taken in, which is when the request for it
was answered. -/
def Run.lastTaken? (options : CoordinatorOptions) (project : String) :
    Run → Option Nat → List Event → Option Nat
  | _, last?, [] => last?
  | run, last?, event :: rest =>
      let next := run.step options event
      lastTaken? options project next
        (if ¬ run.Calm project ∧ next.Calm project then some next.system.now else last?) rest

theorem Run.lastTaken?_concat (options : CoordinatorOptions) (project : String) (run : Run)
    (last? : Option Nat) (events : List Event) (event : Event) :
    run.lastTaken? options project last? (events ++ [event]) =
      let before := run.extend options events
      let next := before.step options event
      if ¬ before.Calm project ∧ next.Calm project then some next.system.now
      else run.lastTaken? options project last? events := by
  induction events generalizing run last? with
  | nil => rfl
  | cons first rest ih =>
      rw [List.cons_append, lastTaken?, ih]
      rfl

/-- Along a run the chunks of a project are taken in one after the other, and in time. -/
structure Run.Follows (options : CoordinatorOptions) (project : String) (run start : Run)
    (called : List Change) (last? : Option Nat) : Prop where
  receives : run.Receives options project
  timely : Timely options project last? run.system
  following : ∃ counted, called = counted ++ (run.intake options project).taking ∧
    Following options project (start.intake options project) (run.intake options project) counted

namespace Run.Follows

variable {run start : Run} {called : List Change} {last? : Option Nat}
variable (hFollows : run.Follows options project start called last?)

include hFollows

theorem not_elapsed {rest : List Change} (hWhole : WholeBatches options (called ++ rest))
    (hSpaced : ¬ run.Calm project ∨ rest ≠ [] → run.state.timers.isPending project = true →
      ∀ last ∈ last?, run.system.now < last + options.quietPeriod) :
    ¬ Elapsed project run.system := by
  refine hFollows.timely.not_elapsed hFollows.receives.tended ?_
  intro hPending
  refine hSpaced ?_ hPending
  by_contra hLeft
  push Not at hLeft
  obtain ⟨hCalm, hNoMore⟩ := hLeft
  obtain ⟨counted, hCalled, hFollowing⟩ := hFollows.following
  have hNone := hFollows.receives.calm_iff.mp hCalm
  rw [hNone, List.append_nil] at hCalled
  have hArrived : AllArrived counted := by
    have hAll := hWhole.arrived
    rw [hNoMore, List.append_nil, hCalled] at hAll
    exact hAll
  have hTimer : run.system.data.timers.isPending project = false :=
    hFollowing.quiet hNone hArrived
  rw [hPending] at hTimer
  cases hTimer

theorem step {event : Event} (hWithin : event.Within (.dependable project))
    (hNoUpdate : event.call? ≠ some (.update project)) (hNotOver : ¬ Elapsed project run.system)
    {rest : List Change}
    (hWhole : WholeBatches options (called ++ (event.chunk? project).toList ++ rest))
    (hFree : (event.chunk? project).isSome = true →
      run.Calm project ∧ (run.state.builds.state project).inProgress = false) :
    let next := run.step options event
    next.Follows options project start (called ++ (event.chunk? project).toList)
      (if ¬ run.Calm project ∧ next.Calm project then some next.system.now else last?) := by
  obtain ⟨hReceives, hTimely, counted, hCalled, hFollowing⟩ := hFollows
  have hNext := hReceives.step hWithin hNoUpdate hNotOver
  have hSublist := Intake.toPour_sublist options project (run.system.tasks.map Task.stage)
    run.system.data
  have hStays (hTimer : ((run.step options event).intake options project).view.timer = true →
      (run.intake options project).view.timer = true) :
      Timely options project last? (run.step options event).system :=
    hReceives.sound.timely_happen hTimely hReceives.undisturbed hWithin hNotOver hTimer
  cases hChunk : event.chunk? project with
  | some chunk =>
      obtain ⟨hCalm, hIdle⟩ := hFree (by rw [hChunk]; rfl)
      have hNone := hReceives.calm_iff.mp hCalm
      have hCome : (run.step options event).intake options project =
          (run.intake options project).come options chunk := Run.intake_step_come run hChunk
      dsimp only
      rw [if_neg fun hBoth => hBoth.1 hCalm]
      refine ⟨hNext, hStays ?_, counted, ?_, ?_⟩
      · rw [hCome]
        exact id
      · rw [hCome, hCalled, hNone, List.append_nil]
        simp [Intake.come, hNone]
      · rw [hCome]
        exact hFollowing.come hNone hIdle
  | none =>
      rw [hChunk, Option.toList_none, List.append_nil] at hWhole
      rw [Option.toList_none, List.append_nil]
      have hOpen (chunk : Change) (hMember : chunk ∈ (run.intake options project).taking) :
          WholeBatches options (counted ++ [chunk] ++ rest) := by
        rw [hCalled, hFollowing.taking_eq hMember] at hWhole
        exact hWhole
      rcases hReceives.step_intake hWithin hChunk hNoUpdate hNotOver
        (fun chunk hMember => hFollowing.expects (hOpen chunk hMember) hSublist hMember)
        hFollowing.idle with hPasses | ⟨chunk, request, _, hCounts, hRenewed⟩
      · obtain ⟨poured, hPassesBy⟩ := hPasses.passesBy hFollowing.unasked hReceives.one
        have hSame : ¬ (¬ run.Calm project ∧ (run.step options event).Calm project) := by
          rw [hReceives.calm_iff, hNext.calm_iff, hPassesBy.taking]
          exact fun hBoth => hBoth.1 hBoth.2
        dsimp only
        rw [if_neg hSame]
        refine ⟨hNext, hStays hPassesBy.timer, counted, ?_, ?_⟩
        · rw [hPassesBy.taking]
          exact hCalled
        · exact hFollowing.passes hPassesBy hSublist
      · have hMember := hCounts.mem_taking
        have hAlone := hFollowing.taking_eq hMember
        obtain ⟨hNone, hCounted⟩ := hFollowing.counts
          (hCounts.counted hFollowing.unasked (hFollowing.idle (List.ne_nil_of_mem hMember)))
          (hOpen chunk hMember).ofBatches Run.toPour_eq_nil
        have hTaken : ¬ run.Calm project ∧ (run.step options event).Calm project := by
          rw [hReceives.calm_iff, hNext.calm_iff, hAlone]
          exact ⟨by simp, hNone⟩
        dsimp only
        rw [if_pos hTaken]
        refine ⟨hNext, hRenewed.timely, counted ++ [chunk], ?_, hCounted⟩
        rw [hNone, List.append_nil, hCalled, hAlone]

end Run.Follows

theorem Run.AtRest.follows {run : Run} (hRest : run.AtRest project)
    (hReceives : run.Receives options project) :
    run.Follows options project run [] none := by
  have hNone : (run.intake options project).taking = [] := hReceives.calm_iff.mp hRest.calm
  refine ⟨hReceives, ⟨nofun, nofun, fun _ => hRest.timer⟩, [], by rw [hNone]; rfl, ?_⟩
  exact {
    single := by simp [hNone]
    countdowns := List.length_eq_zero_iff.mp hRest.outstanding
    idle := fun _ => hRest.idle
    unasked := hReceives.one.unasked hReceives.behind hRest.idle
    changes := by
      have hChanges : (run.intake options project).view.changes = [] := hRest.changes
      rw [hChanges, Run.toPour_eq_nil hNone, hNone]
      rfl
    dispatched := (List.append_nil _).symm
    quiet := fun _ _ => hRest.timer }

theorem Run.Follows.along {start : Run} (hStart : start.Follows options project start [] none)
    {more : List Event} (hMore : ∀ event ∈ more, event.Within (.dependable project))
    (hAlone : ∀ event ∈ more, event.call? ≠ some (.update project))
    (hWhole : WholeBatches options (chunksOf project more))
    (hFree : ∀ before event after, more = before ++ event :: after →
      (event.chunk? project).isSome = true →
        let run := start.extend options before
        run.Calm project ∧ (run.state.builds.state project).inProgress = false)
    (hSpaced : ∀ before after, more = before ++ after →
      let run := start.extend options before
      ¬ run.Calm project ∨ chunksOf project after ≠ [] →
        run.state.timers.isPending project = true →
          ∀ last ∈ start.lastTaken? options project none before,
            run.system.now < last + options.quietPeriod)
    {before after : List Event} (hMoment : more = before ++ after) :
    (start.extend options before).Follows options project start (chunksOf project before)
      (start.lastTaken? options project none before) := by
  induction before using List.reverseRecOn generalizing after with
  | nil => exact hStart
  | append_singleton before event ih =>
      have hEvent : event ∈ more := by
        rw [hMoment]
        simp
      have hChunks : chunksOf project more = chunksOf project before ++
          (event.chunk? project).toList ++ chunksOf project after := by
        rw [hMoment, chunksOf_append, chunksOf_append, chunksOf_singleton]
      rw [List.append_assoc] at hMoment
      have hFollows := ih hMoment
      rw [hChunks] at hWhole
      have hNotOver : ¬ Elapsed project (start.extend options before).system := by
        refine hFollows.not_elapsed (List.append_assoc _ _ _ ▸ hWhole) ?_
        rw [← chunksOf_singleton, ← chunksOf_append]
        exact hSpaced _ _ hMoment
      rw [Run.extend_append, chunksOf_append, chunksOf_singleton, Run.lastTaken?_concat]
      exact hFollows.step (hMore event hEvent) (hAlone event hEvent) hNotOver hWhole
        (hFree _ _ _ hMoment)

end Coordinator

end BuildWatch
