import BuildWatch.Proofs.Coordinator.Rest
import BuildWatch.Proofs.Project.InfoDirectory
import BuildWatch.Rehearsal.Coordinator

/-!
Rehearsals come to rest.  As long as every project is stored under its own id, the scripted
surroundings answer as a run may expect; so between two steps of a rehearsal no task is ready,
and each request has its answer.
-/

namespace BuildWatch

open BuildWatch.Coordinator

namespace Rehearsal

/-! ### Scripted surroundings -/

namespace CoordinatorWorld

/-- Every project in memory is kept under its own id. -/
def Faithful (world : CoordinatorWorld) : Prop :=
  ∀ project info, world.lookUp project = .found info → info.id = project

theorem lookUp_applySettings (world : CoordinatorWorld) (project other : String)
    (settings : Settings) :
    (world.applySettings project settings).lookUp other = world.lookUp other ∨
      ∃ info, world.lookUp other = .found info ∧
        (world.applySettings project settings).lookUp other = .found (settings.applyTo info) := by
  unfold applySettings
  split
  · rename_i info _ hStored
    by_cases hSame : other = project
    · refine Or.inr ⟨info, ?_, ?_⟩
      · unfold lookUp
        rw [hSame, hStored]
      · unfold lookUp
        rw [Table.get?_set, if_pos hSame]
    · refine Or.inl ?_
      unfold lookUp
      rw [Table.get?_set, if_neg hSame]
  · exact Or.inl rfl

theorem Faithful.answer {world : CoordinatorWorld} (hFaithful : world.Faithful) (query : Query) :
    Faithful ((surrounding.answer query).run world).2 := by
  cases query with
  | lookUp project => exact hFaithful
  | loadSettings path =>
      have hLoad : ((surrounding.answer (.loadSettings path)).run world).2 = world := by
        change ((Settings.load files path).run world).2 = world
        unfold Settings.load
        rw [InfoDirectory.run_bind, InfoDirectory.readText_run]
        cases (((files.read path).run world).1.bind Files.FileSystem.textOf) <;> rfl
      rw [hLoad]
      exact hFaithful
  | applySettings project settings =>
      intro other info hFound
      rcases world.lookUp_applySettings project other settings with
        hSame | ⟨before, hBefore, hAfter⟩
      · exact hFaithful other info (hSame.symm.trans hFound)
      · cases hAfter.symm.trans hFound
        exact hFaithful other before hBefore
  | build operation changes =>
      change Faithful (world.build operation).2
      unfold CoordinatorWorld.build
      dsimp only
      split
      · exact hFaithful
      · split <;> exact hFaithful

/-- Such surroundings answer as infos with their own ids allow. -/
theorem within_faithfulInfos : surrounding.Within .faithfulInfos Faithful where
  answers world hFaithful task := by
    refine ⟨fun project info hFound => hFaithful project info hFound, fun _ _ => trivial⟩
  keeps world hFaithful := hFaithful.answer

end CoordinatorWorld

/-! ### Steps of a rehearsal -/

namespace CoordinatorRehearsal

structure Quiescent (rehearsal : CoordinatorRehearsal) : Prop where
  coordinator : Coordinator.Quiescent .faithfulInfos rehearsal.coordinator
  world : rehearsal.world.Faithful

theorem quiescent_start (options : CoordinatorOptions) {world : CoordinatorWorld}
    (hWorld : world.Faithful) (reports : Bool) :
    Quiescent { coordinator := { options := options }, world := world, reports := reports } where
  coordinator := Coordinator.quiescent_start _ options
  world := hWorld

variable {rehearsal : CoordinatorRehearsal}

theorem Quiescent.settle (hQuiescent : rehearsal.Quiescent) : rehearsal.settle.Quiescent := by
  obtain ⟨hLater, _, hWorld⟩ :=
    hQuiescent.coordinator.attentive.settle CoordinatorWorld.within_faithfulInfos hQuiescent.world
  exact ⟨hLater, hWorld⟩

theorem Quiescent.change (hQuiescent : rehearsal.Quiescent)
    {change : CoordinatorWorld → CoordinatorWorld} (hChange : (change rehearsal.world).Faithful) :
    (rehearsal.change change).Quiescent := by
  have hChanged : Quiescent { rehearsal with world := change rehearsal.world } :=
    ⟨hQuiescent.coordinator, hChange⟩
  exact hChanged.settle

theorem Quiescent.update (hQuiescent : rehearsal.Quiescent) (project : String) :
    (rehearsal.update project).1.Quiescent ∧ (rehearsal.update project).2.isSome = true := by
  obtain ⟨hLater, hAnswered, hWorld⟩ :=
    hQuiescent.coordinator.update CoordinatorWorld.within_faithfulInfos hQuiescent.world project
  exact ⟨⟨hLater, hWorld⟩, hAnswered⟩

theorem Quiescent.notify (hQuiescent : rehearsal.Quiescent) (notification : ChangeNotification) :
    (rehearsal.notify notification).1.Quiescent ∧
      (rehearsal.notify notification).2.isSome = true := by
  obtain ⟨hLater, hAnswered, hWorld⟩ :=
    hQuiescent.coordinator.notify CoordinatorWorld.within_faithfulInfos hQuiescent.world
      notification
  exact ⟨⟨hLater, hWorld⟩, hAnswered⟩

theorem Quiescent.advance (hQuiescent : rehearsal.Quiescent) (duration : Nat) :
    (rehearsal.advance duration).Quiescent := by
  obtain ⟨hLater, _, hWorld⟩ :=
    hQuiescent.coordinator.advance CoordinatorWorld.within_faithfulInfos hQuiescent.world duration
  exact ⟨hLater, hWorld⟩

theorem Quiescent.shutdown (hQuiescent : rehearsal.Quiescent) : rehearsal.shutdown.Quiescent := by
  have hEnded : Quiescent { rehearsal with coordinator := rehearsal.coordinator.shutdown } :=
    ⟨hQuiescent.coordinator.shutdown trivial, hQuiescent.world⟩
  exact hEnded.settle

theorem Quiescent.takeLog (hQuiescent : rehearsal.Quiescent) : rehearsal.takeLog.1.Quiescent :=
  ⟨hQuiescent.coordinator.takeHistory, hQuiescent.world⟩

end CoordinatorRehearsal

end Rehearsal

end BuildWatch
