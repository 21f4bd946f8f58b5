import BuildWatch.Daemon.Services
import BuildWatch.Proofs.Coordinator.Rest

/-!
Requests that build are answered with what came of them.  A coordinator that rests has the
answer by the time it rests again, so the response is never the one that stands in for an
answer that is missing.
-/

namespace BuildWatch

open BuildWatch.Coordinator

namespace Services

theorem updateResponse_of_isSome {result? : Option UpdateResult}
    (hAnswered : result?.isSome = true) (project : String) :
    ∃ result, result? = some result ∧ updateResponse project result? = .ofUpdate result := by
  obtain ⟨result, rfl⟩ := Option.isSome_iff_exists.mp hAnswered
  exact ⟨result, rfl, rfl⟩

section

variable {World : Type} {circumstances : Circumstances} {kept : World → Prop}
variable (services : Services (StateM World))
variable (hSurrounding : services.surrounding.Within circumstances kept)
variable {world : World} (hKept : kept world)
variable {coordinator : Coordinator} (hQuiescent : Quiescent circumstances coordinator)

include hSurrounding hKept hQuiescent

theorem handle_update (project : Option String) :
    let handled := (services.handle coordinator (.update project)).run world
    (∃ result, ((coordinator.update services.surrounding (project.getD "")).run world).1.2 =
        some result ∧ handled.1.2 = .ofUpdate result) ∧
      Quiescent circumstances handled.1.1 ∧ kept handled.2 := by
  obtain ⟨hLater, hAnswered, hWorld⟩ :=
    hQuiescent.update hSurrounding hKept (project.getD "")
  exact ⟨updateResponse_of_isSome hAnswered (project.getD ""), hLater, hWorld⟩

theorem handle_notify (notification : ChangeNotification) (packed : Option String)
    {events : Option (List ChangeEvent)} (hEvents : eventsOf notification packed = .ok events) :
    let handled := (services.handle coordinator (.notify notification packed)).run world
    (∃ result, ((coordinator.notify services.surrounding
        { notification with events := events }).run world).1.2 = some result ∧
          handled.1.2 = .ofUpdate result) ∧
      Quiescent circumstances handled.1.1 ∧ kept handled.2 := by
  obtain ⟨hLater, hAnswered, hWorld⟩ :=
    hQuiescent.notify hSurrounding hKept { notification with events := events }
  simp only [handle, hEvents]
  exact ⟨updateResponse_of_isSome hAnswered (notification.project.getD ""), hLater, hWorld⟩

end

end Services

end BuildWatch
