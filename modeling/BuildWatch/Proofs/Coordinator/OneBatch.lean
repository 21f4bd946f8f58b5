import BuildWatch.Proofs.Coordinator.Answers
import BuildWatch.Proofs.Coordinator.Dispatches

/-!
The chunks of one batch that come at once.  However the requests for them take turns, no
build is dispatched before all chunks are counted, and then one is, which takes all that they
have put into the buffer.
-/

namespace BuildWatch

open BuildWatch.Tasks

namespace Coordinator

variable {circumstances : Circumstances} {options : CoordinatorOptions} {project : String}
variable {timestamp : UInt64} {total : Nat}

/-- Some chunks are all those of one batch, in which there is something to build. -/
structure WholeBatch (options : CoordinatorOptions) (timestamp : UInt64) (total : Nat)
    (chunks : List Change) : Prop where
  alike : ∀ chunk ∈ chunks, chunk.timestamp = timestamp ∧ chunk.chunkTotal.toNat = total
  length : chunks.length = total
  builds : ∃ chunk ∈ chunks, buildEvents options chunk ≠ []

/-! ### A batch on its way -/

/-- Some chunks of a batch have come, of which not all are counted. -/
structure Gathering (options : CoordinatorOptions) (project : String) (timestamp : UInt64)
    (total : Nat) (first intake : Intake) (called : List Change) : Prop where
  counted : ∃ counted, counted < total ∧ counted + intake.taking.length = called.length ∧
    intake.countdowns = leftOf timestamp total counted
  among : ∀ chunk ∈ intake.taking, chunk ∈ called
  idle : intake.view.build.inProgress = false
  unasked : intake.view.Unasked
  dispatched : intake.view.dispatched project = first.view.dispatched project
  poured : ∃ entries, appended project intake.view.history =
      appended project first.view.history ++ entries ∧
    intake.view.changes = (entries.map Prod.snd).flatten ∧
      (entries.map Prod.snd ++ intake.toPour).Perm (called.filterMap (pourable? options))

/-- All chunks of a batch are counted, and one build has taken what they had to build. -/
structure Gathered (options : CoordinatorOptions) (project : String) (first intake : Intake)
    (called : List Change) (entries : List (Nat × List ChangeEvent)) : Prop where
  taking : intake.taking = []
  toPour : intake.toPour = []
  timer : intake.view.timer = false
  countdowns : intake.countdowns = []
  changes : intake.view.changes = []
  unasked : intake.view.Unasked
  appended : appended project intake.view.history =
    appended project first.view.history ++ entries
  dispatched : intake.view.dispatched project =
    first.view.dispatched project ++ [some (entries.map Prod.snd).flatten]
  poured : (entries.map Prod.snd).Perm (called.filterMap (pourable? options))

section

variable {first intake after : Intake} {called : List Change} {chunk : Change}

namespace Gathering

variable (hGathering : Gathering options project timestamp total first intake called)

include hGathering

theorem come (chunk : Change) :
    Gathering options project timestamp total first (intake.come options chunk)
      (called ++ [chunk]) := by
  obtain ⟨counted, hCounted, hCount, hLeft⟩ := hGathering.counted
  obtain ⟨entries, hAppended, hChanges, hPoured⟩ := hGathering.poured
  exact {
    counted := by
      refine ⟨counted, hCounted, ?_, hLeft⟩
      simp only [Intake.come, List.length_append, List.length_singleton]
      omega
    among := by
      intro other hOther
      rcases List.mem_append.mp hOther with hOld | hNew
      · exact List.mem_append_left _ (hGathering.among other hOld)
      · exact List.mem_append_right _ hNew
    idle := hGathering.idle
    unasked := ⟨hGathering.unasked.requested, hGathering.unasked.unprepared⟩
    dispatched := hGathering.dispatched
    poured := by
      refine ⟨entries, hAppended, hChanges, ?_⟩
      have hNew : [chunk].filterMap (pourable? options) = (pourable? options chunk).toList := by
        cases hPourable : pourable? options chunk <;> simp [hPourable]
      simp only [Intake.come]
      rw [List.filterMap_append, hNew, ← List.append_assoc]
      exact hPoured.append_right _ }

theorem passes {poured : List (Nat × List ChangeEvent)}
    (hPasses : intake.PassesBy project after poured) :
    Gathering options project timestamp total first after called := by
  obtain ⟨counted, hCounted, hCount, hLeft⟩ := hGathering.counted
  obtain ⟨entries, hAppended, hChanges, hPoured⟩ := hGathering.poured
  exact {
    counted := ⟨counted, hCounted, by rw [hPasses.taking]; exact hCount,
      by rw [hPasses.countdowns]; exact hLeft⟩
    among := by
      rw [hPasses.taking]
      exact hGathering.among
    idle := hPasses.idle hGathering.idle
    unasked := hPasses.unasked
    dispatched := hPasses.dispatched.trans hGathering.dispatched
    poured := by
      refine ⟨entries ++ poured, ?_, ?_, ?_⟩
      · rw [hPasses.appended, hAppended, List.append_assoc]
      · rw [hPasses.changes, hChanges, List.map_append, List.flatten_append]
      · rw [List.map_append, List.append_assoc]
        exact (hPasses.toPour.symm.append_left _).trans hPoured }

theorem counts {request : Nat} (hCounted : intake.Counted project chunk request after)
    (hAlike : chunk.timestamp = timestamp ∧ chunk.chunkTotal.toNat = total)
    (hEnough : called.length ≤ total) (hToPour : after.taking = [] → after.toPour = []) :
    Gathering options project timestamp total first after called ∨
      (called.length = total ∧ ∃ entries,
        Gathered options project first after called entries ∧
          after.view.history = intake.view.history ++
            [.begun project false, .drained project (entries.map Prod.snd).flatten,
              .answered request (.ok ())]) := by
  obtain ⟨counted, hFewer, hCount, hLeft⟩ := hGathering.counted
  obtain ⟨entries, hAppended, hChanges, hPoured⟩ := hGathering.poured
  obtain ⟨before, later, hTaking, hTaken⟩ := hCounted.taking
  have hLength : intake.taking.length = after.taking.length + 1 := by
    rw [hTaking, hTaken]
    simp only [List.length_append, List.length_cons]
    omega
  have hArrived : after.countdowns = leftOf timestamp total (counted + 1) := by
    rw [hCounted.countdowns, hAlike.1, hAlike.2, hLeft]
    exact arrive_leftOf timestamp hFewer
  by_cases hLast : counted + 1 < total
  · have hSome : after.countdowns ≠ [] := by
      rw [hArrived]
      intro hNone
      rcases (leftOf_eq_nil_iff ..).mp hNone with hZero | hFull
      · omega
      · omega
    obtain ⟨hSame, hBuild, hNothing⟩ := hCounted.waits hSome
    refine Or.inl {
      counted := ⟨counted + 1, hLast, by omega, hArrived⟩
      among := ?_
      idle := by rw [hBuild]; exact hGathering.idle
      unasked := hCounted.unasked
      dispatched := hNothing.trans hGathering.dispatched
      poured := ⟨entries, hCounted.appended.trans hAppended, hSame.trans hChanges, ?_⟩ }
    · intro other hOther
      refine hGathering.among other ?_
      rw [hTaken] at hOther
      rw [hTaking]
      rcases List.mem_append.mp hOther with hBefore | hLater
      · exact List.mem_append_left _ hBefore
      · exact List.mem_append_right _ (List.mem_cons_of_mem chunk hLater)
    · rw [hCounted.toPour]
      exact hPoured
  · have hNone : after.countdowns = [] := by
      rw [hArrived]
      exact (leftOf_eq_nil_iff ..).mpr (Or.inr (by omega))
    have hEmpty : after.taking = [] := List.length_eq_zero_iff.mp (by omega)
    have hNothing : intake.toPour = [] := hCounted.toPour.symm.trans (hToPour hEmpty)
    obtain ⟨hTimer, hDrained, hDispatched, hTold⟩ := hCounted.dispatches hNone
    rw [hNothing, List.append_nil] at hPoured
    rw [hChanges] at hDispatched hTold
    exact Or.inr ⟨by omega, entries, {
      taking := hEmpty
      toPour := hToPour hEmpty
      timer := hTimer
      countdowns := hNone
      changes := hDrained
      unasked := hCounted.unasked
      appended := hCounted.appended.trans hAppended
      dispatched := hDispatched.trans (by rw [hGathering.dispatched])
      poured := hPoured }, hTold⟩

theorem expects {chunks : List Change} (hBatch : WholeBatch options timestamp total chunks)
    (hCalled : called.Sublist chunks)
    (hToPour : intake.toPour.Sublist (intake.taking.filterMap (pourable? options)))
    (hChunk : chunk ∈ intake.taking) : intake.Expects options chunk := by
  obtain ⟨counted, hFewer, hCount, hLeft⟩ := hGathering.counted
  obtain ⟨entries, _, hChanges, hPoured⟩ := hGathering.poured
  have hMember : chunk ∈ chunks := hCalled.subset (hGathering.among chunk hChunk)
  obtain ⟨hTimestamp, hTotal⟩ := hBatch.alike chunk hMember
  have hEnough : called.length ≤ total := hBatch.length ▸ hCalled.length_le
  obtain ⟨builder, hBuilder, hBuilds⟩ := hBatch.builds
  refine ⟨?_, ?_, ?_⟩
  · intro hSingle
    have hOnly : chunks.length = 1 := by
      have hPositive := List.length_pos_of_mem hMember
      have hLength := hBatch.length
      omega
    obtain ⟨only, rfl⟩ := List.length_eq_one_iff.mp hOnly
    rw [List.mem_singleton.mp hMember, ← List.mem_singleton.mp hBuilder]
    exact hBuilds
  · intro hSingle
    rw [hLeft, (leftOf_eq_nil_iff ..).mpr (Or.inl (by omega))]
    rfl
  · intro hNone hSettings
    have hEmpty := buildEvents_eq_nil hSettings
    -- The chunk is the last to be counted, so all others have put into the buffer what they had.
    rw [hTimestamp, hTotal, hLeft, arrive_leftOf timestamp hFewer] at hNone
    have hLast : total ≤ counted + 1 := by
      rcases (leftOf_eq_nil_iff ..).mp hNone with hZero | hFull
      · omega
      · exact hFull
    have hAll : called = chunks := by
      refine hCalled.eq_of_length ?_
      have hPositive := List.length_pos_of_mem hChunk
      have hLength := hBatch.length
      omega
    have hAlone : intake.taking = [chunk] := eq_singleton_of_mem (by omega) hChunk
    have hNothing : intake.toPour = [] := by
      rw [hAlone] at hToPour
      simpa [pourable?, hEmpty] using hToPour
    rw [hNothing, List.append_nil, hAll] at hPoured
    have hEntry : buildEvents options builder ∈ entries.map Prod.snd := by
      refine hPoured.symm.subset (List.mem_filterMap.mpr ⟨builder, hBuilder, ?_⟩)
      exact if_neg hBuilds
    rw [hChanges]
    intro hFlat
    exact hBuilds (List.flatten_eq_nil_iff.mp hFlat _ hEntry)

end Gathering

theorem Gathered.passes {entries : List (Nat × List ChangeEvent)}
    (hGathered : Gathered options project first intake called entries)
    {poured : List (Nat × List ChangeEvent)} (hPasses : intake.PassesBy project after poured) :
    Gathered options project first after called entries := by
  have hEmpty : poured.map Prod.snd ++ after.toPour = [] := by
    have hToPour := hPasses.toPour
    rw [hGathered.toPour] at hToPour
    exact hToPour.nil_eq.symm
  obtain ⟨hNone, hLeft⟩ := List.append_eq_nil_iff.mp hEmpty
  have hNothing : poured = [] := List.map_eq_nil_iff.mp hNone
  exact {
    taking := hPasses.taking.trans hGathered.taking
    toPour := hLeft
    timer := hPasses.quiet hGathered.timer
    countdowns := hPasses.countdowns.trans hGathered.countdowns
    changes := by
      rw [hPasses.changes, hGathered.changes, hNone]
      rfl
    unasked := hPasses.unasked
    appended := by rw [hPasses.appended, hGathered.appended, hNothing, List.append_nil]
    dispatched := hPasses.dispatched.trans hGathered.dispatched
    poured := hGathered.poured }

end

/-! ### Runs in which a batch comes -/

/-- A request for one of some chunks began a build of some changes, in the turn that answered
it. -/
def Run.DispatchedBy (project : String) (called : List Change) (changes : List ChangeEvent)
    (run : Run) : Prop :=
  ∃ request, ∃ chunk ∈ called, (request, Call.notify chunk) ∈ run.calls ∧
    [.begun project false, .drained project changes, .answered request (.ok ())] <:+: run.history

theorem Run.DispatchedBy.step {run : Run} {called : List Change} {changes : List ChangeEvent}
    (hDispatched : run.DispatchedBy project called changes)
    (hSound : Sound circumstances options run.system) {event : Event}
    (hWithin : event.Within circumstances) :
    (run.step options event).DispatchedBy project called changes := by
  obtain ⟨request, chunk, hChunk, hMade, hTold⟩ := hDispatched
  refine ⟨request, chunk, hChunk, List.mem_append_left _ hMade, ?_⟩
  rcases Run.step_does hSound hWithin with hSame | ⟨_, _, _, _, quiet, deed, hMore, _⟩
  · rw [hSame]
    exact hTold
  · rw [hMore]
    exact hTold.trans (List.prefix_append _ _).isInfix

theorem Run.AtRest.gathering {run : Run} (hRest : run.AtRest project)
    (hReceives : run.Receives options project) (hTotal : 0 < total) :
    Gathering options project timestamp total (run.intake options project)
      (run.intake options project) [] := by
  have hNone : (run.intake options project).taking = [] := hReceives.calm_iff.mp hRest.calm
  exact {
    counted := by
      refine ⟨0, hTotal, ?_, ?_⟩
      · rw [hNone]
        rfl
      · rw [(leftOf_eq_nil_iff ..).mpr (Or.inl rfl)]
        exact List.length_eq_zero_iff.mp hRest.outstanding
    among := by
      rw [hNone]
      exact List.forall_mem_nil _
    idle := hRest.idle
    unasked := hReceives.one.unasked hReceives.behind hRest.idle
    dispatched := rfl
    poured := by
      refine ⟨[], (List.append_nil _).symm, hRest.changes, ?_⟩
      rw [Run.toPour_eq_nil hNone]
      exact .refl _ }

end Coordinator

end BuildWatch
