import BuildWatch.Proofs.Coordinator.Runs
import BuildWatch.Proofs.Tasks.Settling

/-!
The coordinator among its surroundings.  It has its tasks take turns in one order of many, and
asks the surroundings as they are at the moment; so each turn is a poll of a run.
-/

namespace BuildWatch

open BuildWatch.Tasks
open Std.Do

variable {World : Type}

/-! ### Surroundings at a moment -/

namespace Surrounding

/-- What surroundings that change would answer at one moment. -/
def atMoment (surrounding : Surrounding (StateM World)) (world : World) : Surrounding Id where
  lookUp project := ((surrounding.lookUp project).run world).1
  loadSettings path := ((surrounding.loadSettings path).run world).1
  applySettings project settings := ((surrounding.applySettings project settings).run world).1
  build operation changes := ((surrounding.build operation changes).run world).1

theorem answer_run_fst (surrounding : Surrounding (StateM World)) (world : World) (query : Query) :
    ((surrounding.answer query).run world).1 = (surrounding.atMoment world).answer query := by
  cases query <;> rfl

/-- As long as the world is as assumed the surroundings answer as the circumstances allow, and
whatever they do keeps it so. -/
structure Within (circumstances : Coordinator.Circumstances) (kept : World → Prop)
    (surrounding : Surrounding (StateM World)) : Prop where
  answers : ∀ world, kept world → ∀ task,
    (Coordinator.Event.poll task (surrounding.atMoment world)).Within circumstances
  keeps : ∀ world, kept world → ∀ query, kept ((surrounding.answer query).run world).2

end Surrounding

namespace Coordinator

variable {circumstances : Circumstances} {options : CoordinatorOptions} {kept : World → Prop}
variable {system : CoordinatorSystem} {surrounding : Surrounding (StateM World)}

/-! ### Turns -/

theorem poll_run (options : CoordinatorOptions) (surrounding : Surrounding (StateM World))
    (system : CoordinatorSystem) (task : Task Stage Query) (world : World) :
    ((system.poll (program options) surrounding.answer task).run world).1 =
        Id.run (system.poll (program options) (surrounding.atMoment world).answer task) ∧
      (((system.poll (program options) surrounding.answer task).run world).2 = world ∨
        ∃ query, ((system.poll (program options) surrounding.answer task).run world).2 =
          ((surrounding.answer query).run world).2) := by
  unfold System.poll
  cases task.wait with
  | turn => exact ⟨rfl, Or.inl rfl⟩
  | clock due =>
      dsimp only
      split <;> exact ⟨rfl, Or.inl rfl⟩
  | locks =>
      dsimp only
      split <;> exact ⟨rfl, Or.inl rfl⟩
  | answer query =>
      have hAnswer := surrounding.answer_run_fst world query
      dsimp only
      rw [StateT.run_bind, ← hAnswer]
      cases hRun : (surrounding.answer query).run world with
      | mk answer? later =>
          refine ⟨?_, Or.inr ⟨query, ?_⟩⟩
          · cases answer? <;> rfl
          · rw [hRun]
            cases answer? <;> rfl

theorem ensures_poll (hSurrounding : surrounding.Within circumstances kept) {id : Nat}
    {task : Task Stage Query} (rest : List Nat) (hTask : system.task? id = some task)
    {property : CoordinatorSystem → Prop}
    (hProperty : ∀ moment, (Event.poll id moment).Within circumstances →
      property (pollTask options { system with ready := rest } id moment)) :
    Ensures (fun world => ⌜kept world⌝) (({ system with ready := rest } : CoordinatorSystem).poll
      (program options) surrounding.answer task) property := by
  rw [ensures_state_iff]
  intro world hKept
  obtain ⟨hPoll, hWorld⟩ := poll_run options surrounding { system with ready := rest } task world
  constructor
  · have hPolled := hProperty _ (hSurrounding.answers world hKept id)
    have hThere : ({ system with ready := rest } : CoordinatorSystem).task? id = some task := hTask
    unfold pollTask at hPolled
    rw [hThere] at hPolled
    rw [hPoll]
    exact hPolled
  · rcases hWorld with hSame | ⟨query, hAnswered⟩
    · rw [hSame]
      exact hKept
    · rw [hAnswered]
      exact hSurrounding.keeps world hKept query

/-- What every poll keeps is kept by tasks that take turns, if their order does not matter. -/
theorem keepsTurns_of_poll (hSurrounding : surrounding.Within circumstances kept)
    {inv : CoordinatorSystem → Prop}
    (hReorder : ∀ system ready, inv system → inv { system with ready := ready })
    (hPoll : ∀ system id moment, inv system → (Event.poll id moment).Within circumstances →
      inv (pollTask options system id moment)) :
    System.KeepsTurns (program options) surrounding.answer (fun world => ⌜kept world⌝) inv where
  skip earlier _ rest hInv _ _ := hReorder earlier rest hInv
  poll earlier id rest _ hInv _ hTask :=
    ensures_poll hSurrounding rest hTask fun moment hWithin =>
      hPoll _ id moment (hReorder earlier rest hInv) hWithin

end Coordinator

end BuildWatch
