import BuildWatch.Coordinator.Service
import BuildWatch.Proofs.Tasks.Turns

/-!
Runs of a coordinator.  Calls come in, time passes and tasks are resumed in any
order whatever; each time a task is resumed its surroundings may answer anything
that the circumstances of the run allow.
-/

namespace BuildWatch

open BuildWatch.Tasks

abbrev CoordinatorSystem := System Coordinator.Stage Query CoordinatorState

namespace Coordinator

/-! ### Events -/

/-- A call that a task of its own deals with. -/
inductive Call where
  | update (project : String)
  | notify (change : Change)
deriving Repr, DecidableEq

def Call.stage : Call → Stage
  | .update project => .update project
  | .notify change => .change change

inductive Event where
  | update (project : String)
  | notify (notification : ChangeNotification)
  /-- Every quiet period is ended. -/
  | shutdown
  | pass (duration : Nat)
  /-- The tasks that are ready change places. -/
  | reorder (ready : List Nat)
  /-- A task is resumed if it has what it waits for among the surroundings of the moment. -/
  | poll (task : Nat) (surrounding : Surrounding Id)

/-- The call that an event makes; one that lacks a field is refused without a task. -/
def Event.call? : Event → Option Call
  | .update project => if project.isEmpty then none else some (.update project)
  | .notify notification => notification.change?.map Call.notify
  | _ => none

def pollTask (options : CoordinatorOptions) (system : CoordinatorSystem) (id : Nat)
    (surrounding : Surrounding Id) : CoordinatorSystem :=
  match system.task? id with
  | some task => Id.run (system.poll (program options) surrounding.answer task)
  | none => system

def takeCall (system : CoordinatorSystem) : Option Call → CoordinatorSystem
  | some call => system.spawn call.stage
  | none => system

def happen (options : CoordinatorOptions) (system : CoordinatorSystem) (event : Event) :
    CoordinatorSystem :=
  match event with
  | .update _ | .notify _ => takeCall system event.call?
  | .shutdown => (shutdown { options := options, system := system }).system
  | .pass duration => { system with now := system.now + duration }
  | .reorder ready => { system with ready := ready }
  | .poll task surrounding => pollTask options system task surrounding

/-! ### Runs -/

structure Run where
  system : CoordinatorSystem := { data := {} }
  /-- The calls that were made, with the tasks that deal with them. -/
  calls : List (Nat × Call) := []

namespace Run

def step (options : CoordinatorOptions) (run : Run) (event : Event) : Run :=
  { system := happen options run.system event
    calls := run.calls ++ event.call?.toList.map fun call => (run.system.nextId, call) }

def extend (options : CoordinatorOptions) (run : Run) (events : List Event) : Run :=
  events.foldl (step options) run

def after (options : CoordinatorOptions) (events : List Event) : Run :=
  extend options {} events

def state (run : Run) : CoordinatorState := run.system.data

def history (run : Run) : List Notice := run.state.history

theorem extend_append (options : CoordinatorOptions) (run : Run) (events more : List Event) :
    run.extend options (events ++ more) = (run.extend options events).extend options more :=
  List.foldl_append

theorem after_append (options : CoordinatorOptions) (events more : List Event) :
    after options (events ++ more) = (after options events).extend options more :=
  extend_append options {} events more

end Run

/-! ### Circumstances -/

/-- What the surroundings may answer in a run, and whether it may be shut down.  An
info that is found carries the id that was asked for. -/
structure Circumstances where
  lookup : String → Lookup → Prop
  settings : SettingsResult → Prop
  /-- Whether every quiet period may be ended at once. -/
  shutdown : Prop
  faithful : ∀ project info, lookup project (.found info) → info.id = project

def Event.Within (circumstances : Circumstances) : Event → Prop
  | .shutdown => circumstances.shutdown
  | .poll _ surrounding =>
      (∀ project, circumstances.lookup project (surrounding.lookUp project)) ∧
        ∀ project settings, circumstances.settings (surrounding.applySettings project settings)
  | _ => True

namespace Circumstances

/-- Infos carry the id that was asked for; lookups may fail or panic, and so may
applying settings. -/
def faithfulInfos : Circumstances where
  lookup project result := ∀ info, result = .found info → info.id = project
  settings _ := True
  shutdown := True
  faithful _ _ hLookup := hLookup _ rfl

/-- Every lookup finds an info with the id asked for, applying settings does not
panic, and there is no shutdown. -/
def reliable : Circumstances where
  lookup project result := ∃ info, result = .found info ∧ info.id = project
  settings result := result ≠ .panicked
  shutdown := False
  faithful _ _ hLookup := by
    obtain ⟨info, hFound, hId⟩ := hLookup
    cases hFound
    exact hId

/-- Infos carry the id that was asked for, and every lookup of one project finds that
it is built on its own. -/
def automatic (project : String) : Circumstances where
  lookup asked result :=
    (∀ info, result = .found info → info.id = asked) ∧
      (asked = project → ∃ info, result = .found info ∧ info.autoBuild = true)
  settings _ := True
  shutdown := True
  faithful _ _ hLookup := hLookup.1 _ rfl

def MayFail (circumstances : Circumstances) : Prop :=
  (∃ project error, circumstances.lookup project (.failed error)) ∨
    (∃ project, circumstances.lookup project .panicked) ∨ circumstances.settings .panicked

theorem not_mayFail_reliable : ¬ reliable.MayFail := by
  rintro (⟨project, error, info, hFound, _⟩ | ⟨project, info, hFound, _⟩ | hPanicked)
  · cases hFound
  · cases hFound
  · exact hPanicked rfl

end Circumstances

theorem Run.after_induction {options : CoordinatorOptions} {circumstances : Circumstances}
    {motive : Run → Prop} (hStart : motive {})
    (hStep : ∀ run event, motive run → event.Within circumstances →
      motive (run.step options event))
    (events : List Event) (hEvents : ∀ event ∈ events, event.Within circumstances) :
    motive (Run.after options events) := by
  unfold Run.after
  generalize ({} : Run) = run at hStart ⊢
  induction events generalizing run with
  | nil => exact hStart
  | cons event rest ih =>
      refine ih (fun other hOther => hEvents other (List.mem_cons_of_mem event hOther))
        (run.step options event) ?_
      exact hStep run event hStart (hEvents event List.mem_cons_self)

/-! ### Surroundings that never fail -/

/-- Every project is found and built on its own, settings are applied, and builds are as
far as given. -/
def steady (result? : Option BuildResult) : Surrounding Id where
  lookUp project := .found { id := project, kind := "nodejs", location := "/" ++ project }
  loadSettings _ := none
  applySettings _ _ := .applied
  build _ _ := result?

def oneChange (path : String) : ChangeNotification where
  project := some "a"
  timestamp := some 7
  chunk := some 1
  chunkTotal := some 1
  events := some [{ path := path, timestamp := 7, kind := "MODIFY" }]

def turns (task count : Nat) : List Event :=
  List.replicate count (.poll task (steady none))

def Event.Steady : Event → Prop
  | .shutdown => False
  | .poll _ surrounding => ∃ result?, surrounding = steady result?
  | _ => True

theorem Event.Steady.within {circumstances : Circumstances} {event : Event}
    (hSteady : event.Steady)
    (hLookup : ∀ project, circumstances.lookup project ((steady none).lookUp project))
    (hSettings : circumstances.settings .applied) : event.Within circumstances := by
  cases event with
  | shutdown => exact hSteady.elim
  | poll task surrounding =>
      obtain ⟨result?, hSurrounding⟩ := hSteady
      subst hSurrounding
      exact ⟨hLookup, fun _ _ => hSettings⟩
  | _ => trivial

end Coordinator

end BuildWatch
