import BuildWatch.Container.Runtime

/-!
A container runtime that notes its calls.  Nothing is known of the runtime beneath: each call may
answer anything, another time something else, and may fail.  So what is shown of the noted calls
holds for every runtime.
-/

namespace BuildWatch

/-- A call of a container runtime, with what was answered. -/
inductive RuntimeCall where
  | inspect (container : String) (answer : Except Failure (Option ContainerDetails))
  | state (container : String) (answer : Except Failure ContainerState)
  | build (container : String) (directory : Files.Path) (options : List String)
      (answer : Except Failure Unit)
  | run (container : String) (answer : Except Failure Unit)
  | restart (container : String) (answer : Except Failure Unit)
  | remove (container : String) (answer : Except Failure Unit)

namespace RuntimeCall

def failureOf {α : Type} : Except Failure α → Option Failure
  | .error failure => some failure
  | .ok _ => none

def failure? : RuntimeCall → Option Failure
  | .inspect _ answer => failureOf answer
  | .state _ answer => failureOf answer
  | .build _ _ _ answer => failureOf answer
  | .run _ answer => failureOf answer
  | .restart _ answer => failureOf answer
  | .remove _ answer => failureOf answer

end RuntimeCall

/-- Actions in a world, beside which calls are noted. -/
abbrev Noting (World : Type) : Type → Type := StateM (World × List RuntimeCall)

namespace Noting

variable {World : Type}

def noted {α : Type} (entry : Except Failure α → RuntimeCall)
    (call : ExceptT Failure (StateM World) α) : ExceptT Failure (Noting World) α :=
  ExceptT.mk fun (world, calls) =>
    let (answer, world) := call.run.run world
    (answer, (world, calls ++ [entry answer]))

/-! ### What holds once an action has ended -/

section

variable {α β : Type}

/-- Begun after some calls, an action ends with an answer and calls of which something holds,
whatever the world is like. -/
def Ends (action : ExceptT Failure (Noting World) α) (made : List RuntimeCall)
    (post : Except Failure α → List RuntimeCall → Prop) : Prop :=
  ∀ world, post (action.run.run (world, made)).1 (action.run.run (world, made)).2.2

variable {made : List RuntimeCall}

theorem ends_pure {post : Except Failure α → List RuntimeCall → Prop} {value : α}
    (hPost : post (.ok value) made) : Ends (pure value : ExceptT Failure (Noting World) α) made post :=
  fun _ => hPost

theorem run_bind (first : ExceptT Failure (Noting World) α)
    (second : α → ExceptT Failure (Noting World) β) (start : World × List RuntimeCall) :
    (first >>= second).run.run start =
      match first.run.run start with
      | (.ok value, next) => (second value).run.run next
      | (.error failure, next) => (.error failure, next) := by
  rw [ExceptT.run_bind, StateT.run_bind]
  generalize first.run.run start = ran
  cases ran with
  | mk answer next => cases answer <;> rfl

/-- After its first part, a sequence goes on with the second part or ends in the failure. -/
theorem ends_bind {post : Except Failure β → List RuntimeCall → Prop}
    {first : ExceptT Failure (Noting World) α} {second : α → ExceptT Failure (Noting World) β}
    (hFirst : Ends first made fun answer calls =>
      match answer with
      | .ok value => Ends (second value) calls post
      | .error failure => post (.error failure) calls) :
    Ends (first >>= second) made post := by
  intro world
  have hWorld := hFirst world
  rw [run_bind]
  cases hRun : first.run.run (world, made) with
  | mk answer next =>
      rw [hRun] at hWorld
      cases answer with
      | ok value => exact hWorld next.1
      | error failure => exact hWorld

theorem ends_adapt {post : Except Failure α → List RuntimeCall → Prop}
    {action : ExceptT Failure (Noting World) α} {told : Failure → Failure}
    (hAction : Ends action made fun answer calls => post (answer.mapError told) calls) :
    Ends (ExceptT.adapt told action) made post :=
  hAction

theorem adapt_id (action : ExceptT Failure (Noting World) α) : ExceptT.adapt id action = action := by
  have hSame : Except.mapError id = (id : Except Failure α → Except Failure α) := by
    funext answer
    cases answer <;> rfl
  change ExceptT.mk (Except.mapError id <$> action.run) = action
  rw [hSame, id_map]
  rfl

theorem ends_noted {post : Except Failure α → List RuntimeCall → Prop}
    {entry : Except Failure α → RuntimeCall} {call : ExceptT Failure (StateM World) α}
    (hPost : ∀ answer, post answer (made ++ [entry answer])) : Ends (noted entry call) made post :=
  fun world => hPost (call.run.run world).1

end

end Noting

def ContainerRuntime.noting {World : Type} (runtime : ContainerRuntime (StateM World)) :
    ContainerRuntime (Noting World) where
  inspect container := Noting.noted (.inspect container) (runtime.inspect container)
  state container := Noting.noted (.state container) (runtime.state container)
  build container directory options :=
    Noting.noted (.build container directory options) (runtime.build container directory options)
  run container := Noting.noted (.run container) (runtime.run container)
  restart container := Noting.noted (.restart container) (runtime.restart container)
  remove container := Noting.noted (.remove container) (runtime.remove container)

end BuildWatch
