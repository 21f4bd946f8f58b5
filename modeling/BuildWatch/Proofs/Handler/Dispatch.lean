import BuildWatch.Proofs.Handler.RegistryChanges
import BuildWatch.Proofs.Histories

/-!
Which handler a registry has for a project type.  A type is served by the handler that was added
last for it, else by the first of the initial ones, else by the fallback.  What a directory is taken
for depends on the same handlers; what is advertised makes no difference.
-/

namespace BuildWatch

open BuildWatch.Files

variable {m : Type → Type}

def NoneAdded (changes : List (RegistryChange m)) (kind : String) : Prop :=
  ∀ handler, .registerHandler handler ∈ changes → handler.kind ≠ kind

/-- Whether a handler serves a project type in a registry that began with some handlers and a
fallback, and then changed. -/
inductive Serves (handlers : List (Handler m)) (fallback : Handler m)
    (changes : List (RegistryChange m)) (kind : String) : Handler m → Prop where
  | added {before after : List (RegistryChange m)} {handler : Handler m}
      (hChanges : changes = before ++ .registerHandler handler :: after)
      (hKind : handler.kind = kind) (hLast : NoneAdded after kind) :
      Serves handlers fallback changes kind handler
  | initial {before after : List (Handler m)} {handler : Handler m}
      (hNone : NoneAdded changes kind) (hHandlers : handlers = before ++ handler :: after)
      (hKind : handler.kind = kind) (hFirst : ∀ earlier ∈ before, earlier.kind ≠ kind) :
      Serves handlers fallback changes kind handler
  | fallback (hNone : NoneAdded changes kind) (hOther : ∀ handler ∈ handlers, handler.kind ≠ kind) :
      Serves handlers fallback changes kind fallback

section

variable {handlers : List (Handler m)} {fallback : Handler m} {changes : List (RegistryChange m)}
  {change : RegistryChange m} {kind : String} {handler : Handler m}

theorem noneAdded_nil : NoneAdded ([] : List (RegistryChange m)) kind := by
  intro handler hAdded
  cases hAdded

theorem noneAdded_concat_iff :
    NoneAdded (changes ++ [change]) kind ↔ NoneAdded changes kind ∧ NoneAdded [change] kind := by
  simp only [NoneAdded, List.mem_append, or_imp, forall_and]

theorem noneAdded_or_added (change : RegistryChange m) (kind : String) :
    NoneAdded [change] kind ∨ ∃ handler, change = .registerHandler handler ∧ handler.kind = kind := by
  by_cases hNone : NoneAdded [change] kind
  · exact Or.inl hNone
  · simp only [NoneAdded, List.mem_singleton, not_forall, not_not] at hNone
    obtain ⟨handler, hChange, hKind⟩ := hNone
    exact Or.inr ⟨handler, hChange.symm, hKind⟩

theorem serves_concat_of_added (hKind : handler.kind = kind) {other : Handler m} :
    Serves handlers fallback (changes ++ [.registerHandler handler]) kind other ↔
      other = handler := by
  have hAdded : ¬ NoneAdded (changes ++ [.registerHandler handler]) kind := fun hNone =>
    hNone handler (List.mem_append_right changes List.mem_cons_self) hKind
  constructor
  · intro hServes
    cases hServes with
    | added hChanges _ hLast =>
        rcases split_concat hChanges with ⟨_, _, hSame⟩ | ⟨rest, hAfter, _⟩
        · cases hSame
          rfl
        · rw [hAfter] at hLast
          exact absurd hKind (hLast handler (List.mem_append_right rest List.mem_cons_self))
    | initial hNone => exact absurd hNone hAdded
    | fallback hNone => exact absurd hNone hAdded
  · rintro rfl
    exact .added rfl hKind noneAdded_nil

theorem serves_concat_of_noneAdded (hChange : NoneAdded [change] kind) :
    Serves handlers fallback (changes ++ [change]) kind handler ↔
      Serves handlers fallback changes kind handler := by
  constructor
  · intro hServes
    cases hServes with
    | added hChanges hKind hLast =>
        rcases split_concat hChanges with ⟨_, _, hSame⟩ | ⟨rest, hAfter, hEarlier⟩
        · subst hSame
          exact absurd hKind (hChange handler List.mem_cons_self)
        · rw [hAfter, noneAdded_concat_iff] at hLast
          exact .added hEarlier hKind hLast.1
    | initial hNone hHandlers hKind hFirst =>
        exact .initial (noneAdded_concat_iff.mp hNone).1 hHandlers hKind hFirst
    | fallback hNone hOther => exact .fallback (noneAdded_concat_iff.mp hNone).1 hOther
  · intro hServes
    cases hServes with
    | @added before after _ hChanges hKind hLast =>
        have hLonger : changes ++ [change] =
            before ++ .registerHandler handler :: (after ++ [change]) := by
          rw [hChanges, List.append_assoc, List.cons_append]
        exact .added hLonger hKind (noneAdded_concat_iff.mpr ⟨hLast, hChange⟩)
    | initial hNone hHandlers hKind hFirst =>
        exact .initial (noneAdded_concat_iff.mpr ⟨hNone, hChange⟩) hHandlers hKind hFirst
    | fallback hNone hOther =>
        exact .fallback (noneAdded_concat_iff.mpr ⟨hNone, hChange⟩) hOther

end

namespace Registry

section

variable {registry : Registry m} {handlers : List (Handler m)} {fallback : Handler m}
  {change : RegistryChange m} {kind : String} {handler : Handler m}

theorem resolve_ofHandlers :
    (ofHandlers handlers fallback).resolve kind = handler ↔
      Serves handlers fallback [] kind handler := by
  unfold resolve ofHandlers
  constructor
  · intro hResolved
    cases hFound : handlers.find? (fun handler => handler.kind == kind) with
    | none =>
        rw [hFound] at hResolved
        subst hResolved
        exact .fallback noneAdded_nil (by simpa using hFound)
    | some found =>
        rw [hFound] at hResolved
        subst hResolved
        obtain ⟨hKind, before, after, hHandlers, hFirst⟩ := List.find?_eq_some_iff_append.mp hFound
        exact .initial noneAdded_nil hHandlers (by simpa using hKind) (by simpa using hFirst)
  · intro hServes
    cases hServes with
    | added hChanges => simp at hChanges
    | @initial before after _ _ hHandlers hKind hFirst =>
        have hFound : handlers.find? (fun handler => handler.kind == kind) = some handler :=
          List.find?_eq_some_iff_append.mpr
            ⟨by simpa using hKind, before, after, hHandlers, by simpa using hFirst⟩
        rw [hFound]
        rfl
    | fallback _ hOther =>
        have hFound : handlers.find? (fun handler => handler.kind == kind) = none := by
          simpa using hOther
        rw [hFound]
        rfl

theorem resolve_change_of_added (hKind : handler.kind = kind) :
    (registry.change (.registerHandler handler)).resolve kind = handler := by
  rw [resolve, change_handlers]
  simp [RegistryChange.added?, hKind]

theorem resolve_change_of_noneAdded (hChange : NoneAdded [change] kind) :
    (registry.change change).resolve kind = registry.resolve kind := by
  rw [resolve, resolve, change_handlers, change_fallback]
  cases change with
  | registerHandler handler =>
      have hOther := hChange handler List.mem_cons_self
      simp [RegistryChange.added?, hOther]
  | register _ => rfl
  | unregister _ => rfl

/-- The handler of a type is the one that serves it. -/
theorem resolve_after_iff (changes : List (RegistryChange m)) :
    ((ofHandlers handlers fallback).after changes).resolve kind = handler ↔
      Serves handlers fallback changes kind handler := by
  induction changes using List.reverseRecOn with
  | nil => exact resolve_ofHandlers
  | append_singleton changes change ih =>
      rw [after_concat]
      -- The newest change settles the type if it adds a handler of it; else nothing has changed.
      rcases noneAdded_or_added change kind with hChange | ⟨newest, rfl, hKind⟩
      · rw [resolve_change_of_noneAdded hChange, serves_concat_of_noneAdded hChange]
        exact ih
      · rw [resolve_change_of_added hKind, serves_concat_of_added hKind]
        exact eq_comm

end

/-! ### What a registry tells of its project types -/

variable [Monad m]

structure SameAnswers (registry other : Registry m) : Prop where
  resolve : ∀ kind, registry.resolve kind = other.resolve kind
  capabilitiesFor : ∀ kind, registry.capabilitiesFor kind = other.capabilitiesFor kind
  detect : ∀ (files : FileSystem m) location,
    registry.detect files location = other.detect files location

theorem sameAnswers_of_handlers {registry other : Registry m}
    (hHandlers : registry.handlers = other.handlers) (hFallback : registry.fallback = other.fallback) :
    SameAnswers registry other := by
  have hResolve : ∀ kind, registry.resolve kind = other.resolve kind := by
    intro kind
    rw [resolve, resolve, hHandlers, hFallback]
  constructor
  · exact hResolve
  · intro kind
    rw [capabilitiesFor, capabilitiesFor, hResolve]
  · intro files location
    rw [detect, detect, hHandlers]

/-! ### What a directory is taken for -/

def chosen {α : Type} (items : List α) (answers : List Bool) : List α :=
  ((items.zip answers).filter Prod.snd).map Prod.fst

variable [LawfulMonad m]

/-- Items are asked in turn, each once; those that agree are kept. -/
theorem run_filterAuxM {α : Type} (ask : α → m Bool) (items kept : List α) :
    (List.filterAuxM (fun item => liftM (ask item)) items kept : ExceptT Failure m (List α)).run =
      (fun answers => .ok ((chosen items answers).reverse ++ kept)) <$> items.mapM ask := by
  induction items generalizing kept with
  | nil => simp [List.filterAuxM, chosen]
  | cons item items ih =>
      rw [List.filterAuxM, ExceptT.run_bind, ExceptT.run_liftM, List.mapM_cons, bind_map_left,
        map_bind]
      apply bind_congr
      intro answer
      simp only [ih, map_eq_pure_bind]
      cases answer <;> simp [chosen]

theorem run_filterM {α : Type} (ask : α → m Bool) (items : List α) :
    (items.filterM (fun item => liftM (ask item)) : ExceptT Failure m (List α)).run =
      (fun answers => .ok (chosen items answers)) <$> items.mapM ask := by
  rw [List.filterM, ExceptT.run_bind, run_filterAuxM, bind_map_left, map_eq_pure_bind]
  simp

theorem detect_run (registry : Registry m) (files : FileSystem m) (location : Path) :
    (registry.detect files location).run = do
      match ← files.kind location with
      | .error fault => return .error (missingLocation location fault)
      | .ok .directory =>
          let answers ← registry.handlers.mapM (·.accepts location)
          return .ok ((chosen registry.handlers answers).map Handler.kind)
      | .ok _ => return .ok [] := by
  rw [detect, ExceptT.run_bind, ExceptT.run_liftM, bind_map_left]
  apply bind_congr
  intro found
  cases found with
  | error fault => rfl
  | ok kind =>
      cases kind with
      | file => rfl
      | other => rfl
      | directory =>
          simp only [ExceptT.run_bind, run_filterM, bind_map_left]
          rfl

/-- What a registry does for a project type follows from the handlers that it began with and those
that were added, newest first. -/
theorem dispatch_follows_handlers (handlers : List (Handler m)) (fallback : Handler m)
    (changes : List (RegistryChange m)) :
    let registry := (ofHandlers handlers fallback).after changes
    (∀ kind handler, registry.resolve kind = handler ↔
      Serves handlers fallback changes kind handler) ∧
    (∀ kind, SameAnswers (registry.register kind) registry ∧
      SameAnswers (registry.unregister kind) registry) ∧
    (∀ kind, registry.capabilitiesFor kind = (registry.resolve kind).capabilities) ∧
    (∀ (files : FileSystem m) location, (registry.detect files location).run = do
      match ← files.kind location with
      | .error fault => return .error (missingLocation location fault)
      | .ok .directory =>
          let answers ← (newestFirst changes handlers).mapM (·.accepts location)
          return .ok ((chosen (newestFirst changes handlers) answers).map Handler.kind)
      | .ok _ => return .ok []) := by
  intro registry
  refine ⟨fun kind handler => resolve_after_iff changes, fun kind => ⟨?_, ?_⟩, fun _ => rfl, ?_⟩
  · exact sameAnswers_of_handlers (register_handlers ..) (register_fallback ..)
  · exact sameAnswers_of_handlers (unregister_handlers ..) (unregister_fallback ..)
  · intro files location
    have hHandlers : registry.handlers = newestFirst changes handlers := after_handlers ..
    rw [← hHandlers]
    exact detect_run registry files location

def allDirectories : FileSystem Id where
  read _ := .error .isADirectory
  write _ _ := .error .isADirectory
  kind _ := .ok .directory

/-- A new handler of a type serves it in place of the one that was there, both are asked what a
directory is, and neither ceases to be once the type is not advertised. -/
theorem dispatch_follows_handlers_shadowed :
    let newest := { stubHandler "nodejs" false with capabilities := { startModes := [.debug] } }
    let changes := [.registerHandler newest, .unregister "nodejs", .unregister "swift"]
    let registry :=
      (ofHandlers [stubHandler "swift" true, stubHandler "nodejs" true]
        (stubHandler "docker" true)).after changes
    registry.resolve "nodejs" = newest ∧
      (registry.capabilitiesFor "nodejs").startModes = [.debug] ∧
      (registry.detect allDirectories "/w/p1").run = .ok ["swift", "nodejs"] := by
  intro newest changes registry
  obtain ⟨hResolve, _, hCapabilities, hDetect⟩ := dispatch_follows_handlers
    [stubHandler "swift" true, stubHandler "nodejs" true] (stubHandler "docker" true) changes
  have hChanges : changes =
      [] ++ .registerHandler newest :: [.unregister "nodejs", .unregister "swift"] := rfl
  have hLast : NoneAdded (m := Id) [.unregister "nodejs", .unregister "swift"] "nodejs" := by
    simp [NoneAdded]
  have hNewest := (hResolve "nodejs" newest).mpr (.added hChanges rfl hLast)
  refine ⟨hNewest, ?_, ?_⟩
  · exact (congrArg Capabilities.startModes (hCapabilities "nodejs")).trans
      (congrArg (fun handler => handler.capabilities.startModes) hNewest)
  · exact hDetect allDirectories "/w/p1"

end Registry

end BuildWatch
