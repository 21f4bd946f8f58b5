import BuildWatch.Proofs.Coordinator.FollowUps
import Mathlib.Data.List.DropRight

/-!
Whatever is asked of the builds of projects, the answers follow from what was asked and answered
before.  The reference keeps all of it and forgets nothing; of the builds only those of projects
are kept that are in progress, asked for or required.
-/

namespace BuildWatch

inductive BuildCall where
  | begin (project : String) (explicit : Bool)
  | finish (project : String)
  | abandon (project : String)
  | require (project : String) (required : Bool)
deriving Repr, DecidableEq

namespace BuildCall

def project : BuildCall → String
  | .begin project _ => project
  | .finish project => project
  | .abandon project => project
  | .require project _ => project

def change : BuildCall → BuildState → BuildState
  | .begin _ explicit, state => state.begin explicit
  | .finish _, state => state.finish
  | .abandon _, state => state.abandon
  | .require _ required, state => { state with required := required }

end BuildCall

inductive BuildAnswer where
  | slot (slot : BuildSlot)
  | followUp (followUp : Option FollowUp)
  | nothing
deriving Repr, DecidableEq

/-! ### The reference -/

/-- What was asked of builds and what was answered, from the first call on. -/
abbrev BuildHistory := List (BuildCall × BuildAnswer)

namespace BuildHistory

def about (project : String) (history : BuildHistory) : BuildHistory :=
  history.filter fun entry => entry.1.project = project

/-- The entries after the last one of a kind. -/
def since (isOfKind : BuildCall × BuildAnswer → Bool) (history : BuildHistory) : BuildHistory :=
  history.rtakeWhile fun entry => !isOfKind entry

def starts : BuildCall × BuildAnswer → Bool
  | (.begin _ _, .slot .started) => true
  | _ => false

def ends : BuildCall × BuildAnswer → Bool
  | (.finish _, .followUp none) => true
  | (.abandon _, _) => true
  | _ => false

/-- The place of the build was taken, passed on or given up. -/
def turns : BuildCall × BuildAnswer → Bool
  | (.begin _ _, .slot .started) => true
  | (.finish _, _) => true
  | (.abandon _, _) => true
  | _ => false

def queued? : BuildCall × BuildAnswer → Option Bool
  | (.begin _ explicit, .slot .queued) => some explicit
  | _ => none

def marks : BuildCall × BuildAnswer → Bool
  | (.require _ true, _) => true
  | _ => false

/-- What was required is no longer, or is built. -/
def clears : BuildCall × BuildAnswer → Bool
  | (.require _ false, _) => true
  | (.begin _ _, .slot .started) => true
  | _ => false

/-- The place of the build was taken since it was last given up. -/
def inProgress (own : BuildHistory) : Bool :=
  (own.since ends).any starts

/-- The requests that were queued since the place of the build was last taken, passed on or given
up, each with whether it asked for a build outright. -/
def waiting (own : BuildHistory) : List Bool :=
  (own.since turns).filterMap queued?

/-- A build was noted to be required since the last note that none is and the last start. -/
def required (own : BuildHistory) : Bool :=
  (own.since clears).any marks

/-- What a call is told, from the history of its project. -/
def answer (own : BuildHistory) : BuildCall → BuildAnswer
  | .begin _ _ => .slot (if own.inProgress then .queued else .started)
  | .finish _ => .followUp (Coordinator.followUpFor own.waiting)
  | .abandon _ => .nothing
  | .require _ _ => .nothing

def call (history : BuildHistory) (call : BuildCall) : BuildHistory :=
  history ++ [(call, (history.about call.project).answer call)]

def after (calls : List BuildCall) : BuildHistory :=
  calls.foldl call []

theorem after_concat (calls : List BuildCall) (call : BuildCall) :
    after (calls ++ [call]) = (after calls).call call := by
  simp [after]

theorem about_call_self (history : BuildHistory) (call : BuildCall) :
    (history.call call).about call.project =
      history.about call.project ++ [(call, (history.about call.project).answer call)] := by
  simp [BuildHistory.call, about]

theorem about_call_other {call : BuildCall} {project : String} (hOther : call.project ≠ project)
    (history : BuildHistory) : (history.call call).about project = history.about project := by
  simp [BuildHistory.call, about, hOther]

theorem since_concat (isOfKind : BuildCall × BuildAnswer → Bool) (history : BuildHistory)
    (entry : BuildCall × BuildAnswer) :
    since isOfKind (history ++ [entry]) =
      if isOfKind entry then [] else history.since isOfKind ++ [entry] := by
  unfold since
  cases hKind : isOfKind entry with
  | false => simp [hKind]
  | true => simp [hKind]

theorem inProgress_concat (own : BuildHistory) (entry : BuildCall × BuildAnswer) :
    inProgress (own ++ [entry]) = (!ends entry && (own.inProgress || starts entry)) := by
  unfold inProgress
  rw [since_concat]
  cases ends entry <;> simp

theorem waiting_concat (own : BuildHistory) (entry : BuildCall × BuildAnswer) :
    waiting (own ++ [entry]) =
      if turns entry then [] else own.waiting ++ (queued? entry).toList := by
  unfold waiting
  rw [since_concat]
  cases turns entry with
  | false => cases hQueued : queued? entry <;> simp [hQueued]
  | true => simp

theorem required_concat (own : BuildHistory) (entry : BuildCall × BuildAnswer) :
    required (own ++ [entry]) = (!clears entry && (own.required || marks entry)) := by
  unfold required
  rw [since_concat]
  cases clears entry <;> simp

end BuildHistory

/-- What is kept of the builds of a project is what their history tells. -/
structure BuildState.Fits (state : BuildState) (own : BuildHistory) : Prop where
  inProgress : state.inProgress = own.inProgress
  requested : state.requested = Coordinator.followUpFor own.waiting
  required : state.required = own.required
  /-- Requests wait behind a build only. -/
  behind : state.inProgress = false → own.waiting = []

namespace BuildState.Fits

open BuildHistory

variable {state : BuildState} {own : BuildHistory}

theorem nil : BuildState.Fits {} [] :=
  ⟨rfl, rfl, rfl, fun _ => rfl⟩

theorem begin (hFits : state.Fits own) (project : String) (explicit : Bool) :
    (state.begin explicit).Fits
      (own ++ [(.begin project explicit, own.answer (.begin project explicit))]) := by
  obtain ⟨hProgress, hRequested, hRequired, hBehind⟩ := hFits
  cases hBusy : state.inProgress with
  | true =>
      have hAnswer : own.answer (.begin project explicit) = .slot .queued := by
        rw [BuildHistory.answer, ← hProgress, hBusy, if_pos rfl]
      rw [hAnswer]
      constructor
      · simp [BuildState.begin, hBusy, inProgress_concat, ← hProgress, ends]
      · simpa [waiting_concat, turns, queued?]
          using Coordinator.requested_begin hRequested hBusy explicit
      · simp [BuildState.begin, hBusy, required_concat, ← hRequired, clears, marks]
      · intro hIdle
        simp [BuildState.begin, hBusy] at hIdle
  | false =>
      have hAnswer : own.answer (.begin project explicit) = .slot .started := by
        rw [BuildHistory.answer, ← hProgress, hBusy, if_neg Bool.false_ne_true]
      rw [hAnswer]
      constructor
      · simp [BuildState.begin, hBusy, inProgress_concat, ends, starts]
      · simp [BuildState.begin, hBusy, waiting_concat, turns, hRequested, hBehind hBusy]
      · simp [BuildState.begin, hBusy, required_concat, clears]
      · intro hIdle
        simp [BuildState.begin, hBusy] at hIdle

theorem finish (hFits : state.Fits own) (project : String) :
    state.finish.Fits (own ++ [(.finish project, own.answer (.finish project))]) := by
  obtain ⟨hProgress, hRequested, hRequired, hBehind⟩ := hFits
  have hTurns (answer : BuildAnswer) : waiting (own ++ [(.finish project, answer)]) = [] := by
    simp [waiting_concat, turns]
  rw [BuildHistory.answer, ← hRequested]
  cases hNext : state.requested with
  | none =>
      constructor
      · simp [BuildState.finish, hNext, inProgress_concat, ends]
      · rw [hTurns, BuildState.finish, hNext]
        rfl
      · simp [BuildState.finish, hNext, required_concat, ← hRequired, clears, marks]
      · exact fun _ => hTurns _
  | some followUp =>
      constructor
      · simp [BuildState.finish, hNext, inProgress_concat, ← hProgress, ends, starts]
      · rw [hTurns, BuildState.finish, hNext]
        rfl
      · simp [BuildState.finish, hNext, required_concat, ← hRequired, clears, marks]
      · exact fun _ => hTurns _

theorem abandon (hFits : state.Fits own) (project : String) :
    state.abandon.Fits (own ++ [(.abandon project, .nothing)]) where
  inProgress := by simp [BuildState.abandon, inProgress_concat, ends]
  requested := by simp [BuildState.abandon, waiting_concat, turns, Coordinator.followUpFor]
  required := by simp [BuildState.abandon, required_concat, clears, marks, hFits.required]
  behind := by simp [waiting_concat, turns]

theorem require (hFits : state.Fits own) (project : String) (required : Bool) :
    BuildState.Fits { state with required := required }
      (own ++ [(.require project required, .nothing)]) where
  inProgress := by simp [inProgress_concat, ends, starts, hFits.inProgress]
  requested := by simp [waiting_concat, turns, queued?, hFits.requested]
  required := by cases required <;> simp [required_concat, clears, marks]
  behind := by simpa [waiting_concat, turns, queued?] using hFits.behind

theorem call (hFits : state.Fits own) (call : BuildCall) :
    (call.change state).Fits (own ++ [(call, own.answer call)]) := by
  cases call with
  | begin project explicit => exact hFits.begin project explicit
  | finish project => exact hFits.finish project
  | abandon project => exact hFits.abandon project
  | require project required => exact hFits.require project required

theorem busy (hFits : state.Fits own) (hWaiting : own.waiting ≠ []) : state.inProgress = true := by
  by_contra hIdle
  exact hWaiting (hFits.behind (Bool.eq_false_iff.mpr hIdle))

theorem requested_isSome (hFits : state.Fits own) :
    state.requested.isSome = !own.waiting.isEmpty := by
  rw [hFits.requested]
  cases own.waiting <;> rfl

/-- A build that ends while requests wait stays in progress on behalf of them. -/
theorem finish_busy (hFits : state.Fits own) (hWaiting : own.waiting ≠ []) :
    state.finish.inProgress = true := by
  have hSome := hFits.requested_isSome
  have hProgress := hFits.busy hWaiting
  rw [List.isEmpty_eq_false_iff.mpr hWaiting] at hSome
  unfold BuildState.finish
  split
  · exact hProgress
  · rename_i hNone
    rw [hNone] at hSome
    cases hSome

end BuildState.Fits

/-! ### Tables -/

namespace Table

variable {α : Type}

theorem mem_names_iff (table : Table α) (name : String) :
    name ∈ table.names ↔ (table.get? name).isSome = true := by
  constructor
  · intro hName
    obtain ⟨entry, hEntry, rfl⟩ := List.mem_map.mp hName
    rw [get?, Option.isSome_map, List.find?_isSome]
    exact ⟨entry, hEntry, beq_self_eq_true entry.1⟩
  · intro hSome
    obtain ⟨value, hValue⟩ := Option.isSome_iff_exists.mp hSome
    exact mem_names_of_get? hValue

theorem names_erase (table : Table α) (name : String) :
    (table.erase name).names = table.names.filter (· != name) := by
  rw [names, names, erase, List.filter_map]
  rfl

theorem nodup_names_put {table : Table α} (hDistinct : table.names.Nodup) (name : String)
    (value? : Option α) : (table.put name value?).names.Nodup := by
  have hErased : (table.erase name).names.Nodup := by
    rw [names_erase]
    exact hDistinct.filter _
  cases value? with
  | none => exact hErased
  | some value =>
      refine List.nodup_cons.mpr ⟨?_, hErased⟩
      intro hName
      rw [← names, mem_names_iff, get?_erase_self] at hName
      cases hName

end Table

/-! ### Calls -/

namespace Builds

def call (builds : Builds) : BuildCall → Builds
  | .begin project explicit => builds.begin project explicit
  | .finish project => builds.finish project
  | .abandon project => builds.abandon project
  | .require project required => builds.require project required

def answer (builds : Builds) : BuildCall → BuildAnswer
  | .begin project _ => .slot (builds.slot project)
  | .finish project => .followUp (builds.followUp? project)
  | .abandon _ => .nothing
  | .require _ _ => .nothing

def after (calls : List BuildCall) : Builds :=
  calls.foldl call {}

def told (builds : Builds) : List BuildCall → BuildHistory
  | [] => []
  | call :: rest => (call, builds.answer call) :: (builds.call call).told rest

theorem after_concat (calls : List BuildCall) (call : BuildCall) :
    after (calls ++ [call]) = (after calls).call call := by
  simp [after]

theorem told_concat (builds : Builds) (calls : List BuildCall) (call : BuildCall) :
    builds.told (calls ++ [call]) =
      builds.told calls ++ [(call, (calls.foldl Builds.call builds).answer call)] := by
  induction calls generalizing builds with
  | nil => rfl
  | cons first rest ih => rw [List.cons_append, told, ih, told, List.cons_append, List.foldl_cons]

theorem state_call (builds : Builds) (call : BuildCall) (project : String) :
    (builds.call call).state project =
      if project = call.project then call.change (builds.state call.project)
      else builds.state project := by
  cases call with
  | begin other explicit => exact builds.state_begin other project explicit
  | finish other => exact builds.state_finish other project
  | abandon other => exact builds.state_abandon other project
  | require other required => exact builds.state_require other project required

theorem state_call_other {call : BuildCall} {project : String} (hOther : call.project ≠ project)
    (builds : Builds) : (builds.call call).state project = builds.state project :=
  (builds.state_call call project).trans (if_neg fun hSame => hOther hSame.symm)

theorem answer_of_fits {builds : Builds} {own : BuildHistory} (call : BuildCall)
    (hFits : (builds.state call.project).Fits own) : builds.answer call = own.answer call := by
  cases call with
  | begin project explicit =>
      exact congrArg (fun busy : Bool => BuildAnswer.slot (if busy then .queued else .started))
        hFits.inProgress
  | finish project => exact congrArg BuildAnswer.followUp hFits.requested
  | abandon project => rfl
  | require project required => rfl

theorem fits_after (calls : List BuildCall) (project : String) :
    ((after calls).state project).Fits ((BuildHistory.after calls).about project) := by
  induction calls using List.reverseRecOn generalizing project with
  | nil => exact BuildState.Fits.nil
  | append_singleton calls call ih =>
      rw [after_concat, BuildHistory.after_concat, state_call]
      split
      · rename_i hOwn
        rw [hOwn, BuildHistory.about_call_self]
        exact (ih call.project).call call
      · rename_i hOther
        rw [BuildHistory.about_call_other fun hSame => hOther hSame.symm]
        exact ih project

/-! ### What is kept -/

/-- Of each project with builds that are not idle there is one state, of others there is none. -/
structure IsTrim (builds : Builds) : Prop where
  distinct : builds.states.names.Nodup
  kept : ∀ project, project ∈ builds.states.names ↔ builds.state project ≠ {}

theorem isTrim_empty : IsTrim {} := by
  refine ⟨List.nodup_nil, ?_⟩
  intro project
  exact iff_of_false List.not_mem_nil (fun hSome => hSome rfl)

theorem IsTrim.setState {builds : Builds} (hTrim : builds.IsTrim) (project : String)
    (state : BuildState) : (builds.setState project state).IsTrim where
  distinct := Table.nodup_names_put hTrim.distinct project _
  kept := by
    intro other
    rw [Table.mem_names_iff, state_setState, Builds.setState, Table.get?_put]
    by_cases hSame : other = project
    · rw [if_pos hSame, if_pos hSame]
      cases hIdle : state.isIdle with
      | true => simp [of_decide_eq_true hIdle]
      | false => simp [of_decide_eq_false hIdle]
    · rw [if_neg hSame, if_neg hSame, ← Table.mem_names_iff]
      exact hTrim.kept other

theorem IsTrim.call {builds : Builds} (hTrim : builds.IsTrim) (call : BuildCall) :
    (builds.call call).IsTrim := by
  cases call <;> exact hTrim.setState _ _

theorem isTrim_after (calls : List BuildCall) : (after calls).IsTrim := by
  induction calls using List.reverseRecOn with
  | nil => exact isTrim_empty
  | append_singleton calls call ih =>
      rw [after_concat]
      exact ih.call call

/-- The builds answer as the reference does. -/
theorem told_eq_after (calls : List BuildCall) :
    ({} : Builds).told calls = BuildHistory.after calls := by
  induction calls using List.reverseRecOn with
  | nil => rfl
  | append_singleton calls call ih =>
      have hAnswer := answer_of_fits call (fits_after calls call.project)
      rw [told_concat, BuildHistory.after_concat, BuildHistory.call, ih, ← hAnswer]
      rfl

theorem kept_iff (calls : List BuildCall) (project : String) :
    project ∈ (after calls).states.names ↔
      ((after calls).state project).inProgress = true ∨
      ((after calls).state project).requested ≠ none ∨
      ((after calls).state project).required = true := by
  rw [(isTrim_after calls).kept]
  obtain ⟨inProgress, requested, required⟩ := (after calls).state project
  cases inProgress <;> cases requested <;> cases required <;> simp

theorem answer_finish {builds : Builds} {own : BuildHistory} {project : String}
    (hFits : (builds.state project).Fits own) :
    builds.answer (.finish project) =
      .followUp (if own.waiting = [] then none else some { explicit := own.waiting.any id }) := by
  rw [answer_of_fits (.finish project) hFits, BuildHistory.answer]
  cases own.waiting <;> rfl

/-- Whatever is asked of the builds of projects, they answer as a reference does that keeps all
that was asked and answered.  A request starts a build unless one is in progress; the end of a
build is followed by another if requests were queued since the place of the build was last taken,
passed on or given up, outright if one of them asked so; requests wait behind a build only; no
call matters to other projects; and there is one entry for each project whose builds are in
progress, asked for or required, and for no other. -/
theorem answers_follow_history (calls : List BuildCall) :
    let builds := after calls
    let history := ({} : Builds).told calls
    history = BuildHistory.after calls ∧ builds.states.names.Nodup ∧
    ∀ project,
      let state := builds.state project
      let own := history.about project
      (∀ explicit, builds.answer (.begin project explicit) =
        .slot (if own.inProgress then .queued else .started)) ∧
      builds.answer (.finish project) =
        .followUp (if own.waiting = [] then none else some { explicit := own.waiting.any id }) ∧
      (own.waiting ≠ [] → ((builds.call (.finish project)).state project).inProgress = true) ∧
      state.inProgress = own.inProgress ∧
      state.requested.isSome = !own.waiting.isEmpty ∧
      (state.requested ≠ none → state.inProgress = true) ∧
      state.required = own.required ∧
      (∀ call, call.project ≠ project → (builds.call call).state project = state) ∧
      (project ∈ builds.states.names ↔
        state.inProgress = true ∨ state.requested ≠ none ∨ state.required = true) := by
  intro builds history
  have hHistory : history = BuildHistory.after calls := told_eq_after calls
  refine ⟨hHistory, (isTrim_after calls).distinct, ?_⟩
  intro project state own
  have hOwn : own = (BuildHistory.after calls).about project :=
    congrArg (BuildHistory.about project) hHistory
  have hFits : state.Fits own := by
    rw [hOwn]
    exact fits_after calls project
  refine ⟨?_, ?_, ?_, hFits.inProgress, hFits.requested_isSome, ?_, hFits.required, ?_,
    kept_iff calls project⟩
  · intro explicit
    exact answer_of_fits (.begin project explicit) hFits
  · exact answer_finish hFits
  · intro hWaiting
    exact (congrArg BuildState.inProgress ((state_call ..).trans (if_pos rfl))).trans
      (hFits.finish_busy hWaiting)
  · intro hRequested
    apply hFits.busy
    intro hNone
    rw [hFits.requested, hNone] at hRequested
    exact hRequested rfl
  · intro call hOther
    exact state_call_other hOther builds

/-- Three requests come during a build; one of them asks for a build outright. -/
example :
    ({} : Builds).told
      [.begin "p" false, .begin "p" false, .begin "p" true, .finish "q", .begin "p" false,
       .finish "p", .finish "p"] =
      [(.begin "p" false, .slot .started), (.begin "p" false, .slot .queued),
       (.begin "p" true, .slot .queued), (.finish "q", .followUp none),
       (.begin "p" false, .slot .queued), (.finish "p", .followUp (some { explicit := true })),
       (.finish "p", .followUp none)] := by
  decide

end Builds

end BuildWatch
