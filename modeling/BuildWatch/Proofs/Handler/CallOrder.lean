import BuildWatch.Handler.Builtin
import BuildWatch.Proofs.Container.NotedCalls
import BuildWatch.Proofs.Histories
import BuildWatch.Proofs.Project.FileNames

/-!
The order of the calls that an update of a project makes of the container runtime.  A container is
removed only where one was found, its image is built only where none is left, a container is
started only from an image that was built, and is restarted only where it was found active and no
file of its image changed.  An update ends with the first call that fails.
-/

namespace BuildWatch

open BuildWatch.Files

/-- Files changed, but none of those that an image depends on. -/
def ImageCanStay (triggers? : Option (List String)) (changed : Option (List ChangeEvent)) : Prop :=
  ∃ triggers events, triggers? = some triggers ∧ changed = some events ∧
    ∀ event ∈ events, ∀ trigger ∈ triggers, ¬ event.Touches trigger

namespace RuntimeCall

variable (operation : Operation) (canStay : Prop)

/-- What an update may call, and directly after which call. -/
def MayFollow (previous : Option RuntimeCall) : RuntimeCall → Prop
  | .inspect _ _ => False
  | .state container _ => container = operation.container
  | .remove container _ => container = operation.container ∧
      ∃ state, state ≠ .notFound ∧ previous = some (.state container (.ok state))
  | .build container directory options _ => container = operation.container ∧
      directory = operation.project.location ∧ options = [] ∧
      (previous = some (.state container (.ok .notFound)) ∨
        previous = some (.remove container (.ok ())))
  | .run container _ => container = operation.container ∧
      ∃ directory options, previous = some (.build container directory options (.ok ()))
  | .restart container _ => container = operation.container ∧ canStay ∧
      previous = some (.state container (.ok .active))

def told (failure : Failure) : RuntimeCall → Failure
  | .build _ _ _ _ =>
      failure.context ("Image build failed for project " ++ operation.project.id)
  | .run _ _ => failure.context ("Container start failed for project " ++ operation.project.id)
  | _ => failure

end RuntimeCall

namespace Lifecycle

/-- The calls of an update are in order, and its answer is what they came to. -/
structure Orderly (operation : Operation) (canStay : Prop) (answer : Except Failure BuildOutcome)
    (calls : List RuntimeCall) : Prop where
  /-- Each call may stand where it stands. -/
  follows : ∀ before call after, calls = before ++ call :: after →
    call.MayFollow operation canStay before.getLast?
  /-- A call that failed is the last one, and its failure is the answer. -/
  failed : ∀ before call after failure, calls = before ++ call :: after →
    call.failure? = some failure → after = [] ∧ answer = .error (call.told operation failure)
  /-- Where none failed, the last call has started or restarted the container. -/
  succeeded : (∀ call ∈ calls, call.failure? = none) →
    calls.getLast? = some (.run operation.container (.ok ())) ∧ answer = .ok .rebuilt ∨
    calls.getLast? = some (.restart operation.container (.ok ())) ∧ answer = .ok .restarted

/-- The calls that an update has made so far are in order, and none has failed. -/
structure UnderWay (operation : Operation) (canStay : Prop) (calls : List RuntimeCall) : Prop where
  follows : ∀ before call after, calls = before ++ call :: after →
    call.MayFollow operation canStay before.getLast?
  succeeded : ∀ call ∈ calls, call.failure? = none

variable {operation : Operation} {canStay : Prop} {calls : List RuntimeCall} {call : RuntimeCall}

theorem underWay_nil : UnderWay operation canStay [] where
  follows := by
    intro before call after hSplit
    simp at hSplit
  succeeded := by simp

namespace UnderWay

theorem follows_concat (hCalls : UnderWay operation canStay calls)
    (hCall : call.MayFollow operation canStay calls.getLast?) :
    ∀ before entry after, calls ++ [call] = before ++ entry :: after →
      entry.MayFollow operation canStay before.getLast? := by
  intro before entry after hSplit
  rcases split_concat hSplit with ⟨_, hBefore, hEntry⟩ | ⟨rest, _, hEarlier⟩
  · rw [hBefore, hEntry]
    exact hCall
  · exact hCalls.follows before entry rest hEarlier

theorem goesOn (hCalls : UnderWay operation canStay calls)
    (hCall : call.MayFollow operation canStay calls.getLast?) (hGood : call.failure? = none) :
    UnderWay operation canStay (calls ++ [call]) where
  follows := hCalls.follows_concat hCall
  succeeded := by
    intro entry hEntry
    rcases List.mem_append.mp hEntry with hEarlier | hLast
    · exact hCalls.succeeded entry hEarlier
    · rw [List.mem_singleton.mp hLast]
      exact hGood

theorem fails (hCalls : UnderWay operation canStay calls)
    (hCall : call.MayFollow operation canStay calls.getLast?) {failure : Failure}
    (hFailure : call.failure? = some failure) :
    Orderly operation canStay (.error (call.told operation failure)) (calls ++ [call]) where
  follows := hCalls.follows_concat hCall
  failed := by
    intro before entry after other hSplit hOther
    rcases split_concat hSplit with ⟨hAfter, _, hEntry⟩ | ⟨rest, _, hEarlier⟩
    · rw [hEntry, hFailure] at hOther
      rw [hEntry, Option.some.inj hOther]
      exact ⟨hAfter, rfl⟩
    · have hMember : entry ∈ calls := by
        rw [hEarlier]
        exact List.mem_append_right before List.mem_cons_self
      rw [hCalls.succeeded entry hMember] at hOther
      cases hOther
  succeeded := by
    intro hNone
    have hLast := hNone call (List.mem_append_right calls List.mem_cons_self)
    rw [hFailure] at hLast
    cases hLast

theorem ends (hCalls : UnderWay operation canStay calls) {outcome : BuildOutcome}
    (hLast : calls.getLast? = some (.run operation.container (.ok ())) ∧ outcome = .rebuilt ∨
      calls.getLast? = some (.restart operation.container (.ok ())) ∧ outcome = .restarted) :
    Orderly operation canStay (.ok outcome) calls where
  follows := hCalls.follows
  failed := by
    intro before entry after failure hSplit hFailure
    have hMember : entry ∈ calls := by
      rw [hSplit]
      exact List.mem_append_right before List.mem_cons_self
    rw [hCalls.succeeded entry hMember] at hFailure
    cases hFailure
  succeeded := by
    intro _
    rcases hLast with ⟨hRun, rfl⟩ | ⟨hRestart, rfl⟩
    · exact Or.inl ⟨hRun, rfl⟩
    · exact Or.inr ⟨hRestart, rfl⟩

end UnderWay

/-! ### What the steps of an update call -/

section

variable {World α : Type} {entry : Except Failure α → RuntimeCall}
  {call : ExceptT Failure (StateM World) α} {next : α → ExceptT Failure (Noting World) BuildOutcome}

theorem ends_toldCall (hCalls : UnderWay operation canStay calls) {told : Failure → Failure}
    (hCall : ∀ answer, (entry answer).MayFollow operation canStay calls.getLast?)
    (hFailure : ∀ answer, (entry answer).failure? = RuntimeCall.failureOf answer)
    (hTold : ∀ failure, told failure = (entry (.error failure)).told operation failure)
    (hNext : ∀ value, UnderWay operation canStay (calls ++ [entry (.ok value)]) →
      Noting.Ends (next value) (calls ++ [entry (.ok value)]) (Orderly operation canStay)) :
    Noting.Ends (ExceptT.adapt told (Noting.noted entry call) >>= next) calls
      (Orderly operation canStay) := by
  apply Noting.ends_bind
  apply Noting.ends_adapt
  apply Noting.ends_noted
  intro answer
  cases answer with
  | ok value => exact hNext value (hCalls.goesOn (hCall _) (hFailure _))
  | error failure =>
      change Orderly operation canStay (.error (told failure)) _
      rw [hTold failure]
      exact hCalls.fails (hCall _) (hFailure _)

theorem ends_call (hCalls : UnderWay operation canStay calls)
    (hCall : ∀ answer, (entry answer).MayFollow operation canStay calls.getLast?)
    (hFailure : ∀ answer, (entry answer).failure? = RuntimeCall.failureOf answer)
    (hTold : ∀ failure, failure = (entry (.error failure)).told operation failure)
    (hNext : ∀ value, UnderWay operation canStay (calls ++ [entry (.ok value)]) →
      Noting.Ends (next value) (calls ++ [entry (.ok value)]) (Orderly operation canStay)) :
    Noting.Ends (Noting.noted entry call >>= next) calls (Orderly operation canStay) := by
  rw [← Noting.adapt_id (Noting.noted entry call)]
  exact ends_toldCall hCalls hCall hFailure hTold hNext

end

variable {World : Type} (runtime : ContainerRuntime (StateM World))

theorem ends_of_gone (hCalls : UnderWay operation canStay calls)
    (hGone : calls.getLast? = some (.state operation.container (.ok .notFound)) ∨
      calls.getLast? = some (.remove operation.container (.ok ()))) :
    Noting.Ends (do
      ExceptT.adapt (Failure.context · (buildContext operation))
        (runtime.noting.build operation.container operation.project.location [])
      ExceptT.adapt (Failure.context · (startContext operation))
        (runtime.noting.run operation.container)
      return .rebuilt) calls (Orderly operation canStay) := by
  refine ends_toldCall hCalls (fun _ => ⟨rfl, rfl, rfl, hGone⟩) (fun _ => rfl) (fun _ => rfl) ?_
  intro _ hBuilt
  refine ends_toldCall hBuilt (fun _ => ⟨rfl, _, _, List.getLast?_concat⟩) (fun _ => rfl)
    (fun _ => rfl) ?_
  intro _ hStarted
  apply Noting.ends_pure
  exact hStarted.ends (Or.inl ⟨List.getLast?_concat, rfl⟩)

theorem rebuild_ends (hCalls : UnderWay operation canStay calls) :
    Noting.Ends (rebuild runtime.noting operation) calls (Orderly operation canStay) := by
  refine ends_call hCalls (fun _ => rfl) (fun _ => rfl) (fun _ => rfl) ?_
  intro state hFound
  by_cases hNone : state = .notFound
  · subst hNone
    exact ends_of_gone runtime hFound (Or.inl List.getLast?_concat)
  · rw [if_pos hNone]
    refine ends_call hFound (fun _ => ⟨rfl, state, hNone, List.getLast?_concat⟩) (fun _ => rfl)
      (fun _ => rfl) ?_
    intro _ hRemoved
    exact ends_of_gone runtime hRemoved (Or.inr List.getLast?_concat)

theorem imageCanStay_of_needsRebuild {triggers : List String} {changed : Option (List ChangeEvent)}
    (hKept : needsRebuild triggers changed = false) : ImageCanStay (some triggers) changed := by
  cases changed with
  | none => cases hKept
  | some events =>
      refine ⟨triggers, events, rfl, rfl, ?_⟩
      intro event hEvent trigger hTrigger hTouches
      rw [needsRebuild, List.any_eq_false] at hKept
      have hNone := hKept event hEvent
      rw [List.any_eq_true] at hNone
      exact hNone ⟨trigger, hTrigger, ChangeEvent.isFileNamed_iff.mpr hTouches⟩

theorem restartOrRebuild_ends (triggers : List String) (changed : Option (List ChangeEvent))
    (hCalls : UnderWay operation (ImageCanStay (some triggers) changed) calls) :
    Noting.Ends (restartOrRebuild runtime.noting triggers operation changed) calls
      (Orderly operation (ImageCanStay (some triggers) changed)) := by
  unfold restartOrRebuild
  cases hNeeds : needsRebuild triggers changed with
  | true => exact rebuild_ends runtime hCalls
  | false =>
      have hStay := imageCanStay_of_needsRebuild hNeeds
      refine ends_call hCalls (fun _ => rfl) (fun _ => rfl) (fun _ => rfl) ?_
      intro state hFound
      by_cases hActive : state = .active
      · subst hActive
        refine ends_call hFound (fun _ => ⟨rfl, hStay, List.getLast?_concat⟩) (fun _ => rfl)
          (fun _ => rfl) ?_
        intro _ hRestarted
        apply Noting.ends_pure
        exact hRestarted.ends (Or.inr ⟨List.getLast?_concat, rfl⟩)
      · rw [if_neg hActive]
        -- The rebuild asks for the state anew and goes by that answer, whatever this one was.
        exact rebuild_ends runtime hFound

end Lifecycle

namespace Handler

/-- The files whose change makes a built-in handler build its image anew, by its project type; of
the other types every change does. -/
def imageFiles? (kind : String) : Option (List String) :=
  if kind = "liberty" then some libertyTriggers
  else if kind = "spring" then some springTriggers
  else if kind = "nodejs" then some nodejsTriggers
  else none

variable {World : Type}

/-- Whatever a runtime answers and wherever it fails, the calls of an update by a built-in handler
are in order. -/
theorem calls_in_order (runtime : ContainerRuntime (StateM World))
    (files : FileSystem (Noting World)) {handler : Handler (Noting World)}
    (hHandler : handler ∈ builtins files runtime.noting ++ [generic files runtime.noting])
    (operation : Operation) (changed : Option (List ChangeEvent)) (world : World) :
    Lifecycle.Orderly operation (ImageCanStay (imageFiles? handler.kind) changed)
      ((handler.update operation changed).run.run (world, [])).1
      ((handler.update operation changed).run.run (world, [])).2.2 := by
  simp only [builtins, List.cons_append, List.nil_append, List.mem_cons, List.not_mem_nil,
    or_false] at hHandler
  rcases hHandler with rfl | rfl | rfl | rfl | rfl
  · exact Lifecycle.restartOrRebuild_ends runtime libertyTriggers changed Lifecycle.underWay_nil world
  · exact Lifecycle.restartOrRebuild_ends runtime springTriggers changed Lifecycle.underWay_nil world
  · exact Lifecycle.rebuild_ends runtime Lifecycle.underWay_nil world
  · exact Lifecycle.restartOrRebuild_ends runtime nodejsTriggers changed Lifecycle.underWay_nil world
  · exact Lifecycle.rebuild_ends runtime Lifecycle.underWay_nil world

/-- A runtime that is asked for a container's state finds one after the other, and can build no
image. -/
def crowdedRuntime : ContainerRuntime (StateM (List ContainerState)) where
  inspect _ := return none
  state _ := ExceptT.mk fun states => (.ok (states.headD .notFound), states.tail)
  build _ _ _ := throw (Failure.of "no space left on device")
  run _ := return
  restart _ := return
  remove _ := return

def noFiles {m : Type → Type} [Monad m] : FileSystem m where
  read _ := return .error .notFound
  write _ _ := return .error .refused
  kind _ := return .error .notFound

/-- A container is stopped while an update looks whether it may be restarted. -/
theorem calls_in_order_stoppedMeanwhile :
    let handler := nodejs noFiles crowdedRuntime.noting
    let operation : Operation :=
      { project := { id := "p1", kind := "nodejs", location := "/w/p1" }, container := "mc-p1" }
    let changed := some [{ path := "/w/p1/server.js", timestamp := 1, kind := "MODIFY" }]
    let ended := (handler.update operation changed).run.run ([.starting, .stopped], [])
    handler ∈ builtins noFiles crowdedRuntime.noting ++ [generic noFiles crowdedRuntime.noting] ∧
      ended.2.2 = [.state "mc-p1" (.ok .starting), .state "mc-p1" (.ok .stopped),
        .remove "mc-p1" (.ok ()),
        .build "mc-p1" "/w/p1" [] (.error { messages := ["no space left on device"] })] ∧
      ended.1 = .error
        { messages := ["Image build failed for project p1", "no space left on device"] } ∧
      Lifecycle.Orderly operation (ImageCanStay (imageFiles? handler.kind) changed)
        ended.1 ended.2.2 := by
  intro handler operation changed ended
  have hHandler : handler ∈
      builtins noFiles crowdedRuntime.noting ++ [generic noFiles crowdedRuntime.noting] := by
    simp [handler, builtins]
  refine ⟨hHandler, ?_, ?_, ?_⟩
  · rfl
  · rfl
  · exact calls_in_order crowdedRuntime noFiles hHandler operation changed [.starting, .stopped]

end Handler

end BuildWatch
