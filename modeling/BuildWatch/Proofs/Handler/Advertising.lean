import BuildWatch.Proofs.Handler.RegistryChanges

/-!
The project types that a registry advertises, and the two ways to ask for them.  Registering a type
adds it where it is missing and unregistering takes one entry away, so that a type which at most one
of the initial handlers has is listed at most once; the entries of all other types stay as they are,
in their order.  The fallback's type is always listed and the generic one is always supported, which
is the same thing only where the fallback is generic.
-/

namespace BuildWatch

namespace Registry

variable {m : Type → Type}

section

variable (registry : Registry m) (kind : String) (handler : Handler m)

/-! ### What is advertised -/

theorem register_advertised : (registry.register kind).advertised =
    if kind ∈ registry.advertised then registry.advertised
    else registry.advertised ++ [kind] := by
  unfold register
  by_cases hListed : kind ∈ registry.advertised <;> simp [hListed]

theorem registerHandler_advertised : (registry.registerHandler handler).advertised =
    (registry.register handler.kind).advertised := by
  rw [registerHandler, register_advertised, register_advertised]

theorem mem_register_iff {other : String} :
    other ∈ (registry.register kind).advertised ↔ other ∈ registry.advertised ∨ other = kind := by
  rw [register_advertised]
  split
  · next hListed =>
      constructor
      · exact Or.inl
      · rintro (hOther | rfl)
        · exact hOther
        · exact hListed
  · rw [List.mem_append, List.mem_singleton]

theorem count_register :
    (registry.register kind).advertised.count kind = max 1 (registry.advertised.count kind) := by
  rw [register_advertised]
  split
  · next hListed =>
      have hPositive := List.count_pos_iff.mpr hListed
      omega
  · next hMissing =>
      rw [List.count_append, List.count_eq_zero.mpr hMissing, List.count_singleton_self]
      rfl

theorem count_unregister :
    (registry.unregister kind).advertised.count kind = registry.advertised.count kind - 1 :=
  List.count_erase_self

theorem filter_register (kept : String → Bool) (hKind : kept kind = false) :
    (registry.register kind).advertised.filter kept = registry.advertised.filter kept := by
  rw [register_advertised]
  split
  · rfl
  · rw [List.filter_append, List.filter_cons_of_neg (by simp [hKind]), List.filter_nil,
      List.append_nil]

theorem filter_unregister (kept : String → Bool) (hKind : kept kind = false) :
    (registry.unregister kind).advertised.filter kept = registry.advertised.filter kept := by
  rw [unregister, ← List.erase_filter]
  apply List.erase_of_not_mem
  intro hListed
  rw [(List.mem_filter.mp hListed).2] at hKind
  cases hKind

theorem filter_change (change : RegistryChange m) :
    ((registry.change change).advertised.filter fun other => other ≠ change.kind) =
      registry.advertised.filter fun other => other ≠ change.kind := by
  have hKind : decide (change.kind ≠ change.kind) = false := by simp
  cases change with
  | registerHandler handler =>
      rw [Registry.change, registerHandler_advertised]
      exact filter_register registry handler.kind _ hKind
  | register kind => exact filter_register registry kind _ hKind
  | unregister kind => exact filter_unregister registry kind _ hKind

theorem count_change_of_ne (change : RegistryChange m) (hOther : kind ≠ change.kind) :
    (registry.change change).advertised.count kind = registry.advertised.count kind := by
  have hKept : decide (kind ≠ change.kind) = true := by simpa using hOther
  have hBefore := List.count_filter (l := registry.advertised)
    (p := fun other => decide (other ≠ change.kind)) hKept
  have hAfter := List.count_filter (l := (registry.change change).advertised)
    (p := fun other => decide (other ≠ change.kind)) hKept
  rw [← hBefore, ← hAfter, filter_change]

/-- No change lists a type anew that is listed. -/
theorem count_change_le (change : RegistryChange m) :
    (registry.change change).advertised.count kind ≤ max 1 (registry.advertised.count kind) := by
  by_cases hKind : kind = change.kind
  · subst hKind
    cases change with
    | registerHandler handler =>
        rw [Registry.change, registerHandler_advertised]
        exact Nat.le_of_eq (count_register registry handler.kind)
    | register kind => exact Nat.le_of_eq (count_register registry kind)
    | unregister kind =>
        have hLess := count_unregister registry kind
        change (registry.unregister kind).advertised.count kind ≤
          max 1 (registry.advertised.count kind)
        omega
  · rw [count_change_of_ne registry kind change hKind]
    exact Nat.le_max_right ..

theorem count_after_le (changes : List (RegistryChange m)) :
    (registry.after changes).advertised.count kind ≤ max 1 (registry.advertised.count kind) := by
  induction changes using List.reverseRecOn with
  | nil => exact Nat.le_max_right ..
  | append_singleton changes change ih =>
      rw [after_concat]
      have hStep := count_change_le (registry.after changes) kind change
      omega

/-! ### What is listed -/

/-- The types are listed that would be advertised, were the fallback's type registered. -/
theorem supportedTypes_eq :
    registry.supportedTypes = (registry.register registry.fallback.kind).advertised := by
  rw [supportedTypes, register_advertised]
  by_cases hListed : registry.fallback.kind ∈ registry.advertised <;> simp [hListed]

theorem mem_supportedTypes_iff :
    kind ∈ registry.supportedTypes ↔ kind ∈ registry.advertised ∨ kind = registry.fallback.kind := by
  rw [supportedTypes_eq, mem_register_iff]

theorem isSupported_iff :
    registry.isSupported kind = true ↔ kind = genericType ∨ kind ∈ registry.advertised := by
  rw [isSupported, Bool.or_eq_true, beq_iff_eq, List.contains_iff_mem]

theorem count_supportedTypes : registry.supportedTypes.count kind =
    if kind = registry.fallback.kind then max 1 (registry.advertised.count kind)
    else registry.advertised.count kind := by
  rw [supportedTypes_eq]
  split
  · next hFallback =>
      rw [← hFallback]
      exact count_register registry kind
  · next hOther =>
      exact count_change_of_ne registry kind (.register registry.fallback.kind) hOther

theorem registerHandler_supportedTypes : (registry.registerHandler handler).supportedTypes =
    (registry.register handler.kind).supportedTypes := by
  rw [supportedTypes, supportedTypes, registerHandler_advertised, registerHandler_fallback,
    register_fallback]

theorem filter_supportedTypes (kept : String → Bool) : registry.supportedTypes.filter kept =
    if kept registry.fallback.kind = true ∧
        registry.fallback.kind ∉ registry.advertised.filter kept
    then registry.advertised.filter kept ++ [registry.fallback.kind]
    else registry.advertised.filter kept := by
  rw [supportedTypes_eq]
  cases hFallback : kept registry.fallback.kind with
  | false =>
      rw [filter_register registry _ kept hFallback]
      simp
  | true =>
      rw [register_advertised]
      by_cases hListed : registry.fallback.kind ∈ registry.advertised <;>
        simp [hListed, hFallback]

theorem exists_after_withdrawn :
    ∃ changes : List (RegistryChange m), kind ∉ (registry.after changes).advertised := by
  have hWithdrawn : ∀ times, (registry.after (List.replicate times (.unregister kind))).advertised.count
      kind = registry.advertised.count kind - times := by
    intro times
    induction times with
    | zero => rfl
    | succ times ih =>
        rw [List.replicate_succ', after_concat]
        have hOneLess := count_unregister (registry.after (List.replicate times (.unregister kind))) kind
        exact hOneLess.trans (by omega)
  refine ⟨List.replicate (registry.advertised.count kind) (.unregister kind), ?_⟩
  rw [← List.count_eq_zero, hWithdrawn, Nat.sub_self]

end

/-! ### Whether a type is supported -/

/-- A registry says of a type that it is supported where it lists it, and only there. -/
def AgreesOn (registry : Registry m) (kind : String) : Prop :=
  registry.isSupported kind = true ↔ kind ∈ registry.supportedTypes

theorem agreesOn_iff (registry : Registry m) (kind : String) : registry.AgreesOn kind ↔
    registry.fallback.kind = genericType ∨ kind ∈ registry.advertised ∨
      (kind ≠ genericType ∧ kind ≠ registry.fallback.kind) := by
  rw [AgreesOn, isSupported_iff, mem_supportedTypes_iff]
  by_cases hListed : kind ∈ registry.advertised
  · simp [hListed]
  · by_cases hGeneric : kind = genericType
    · subst hGeneric
      simp [hListed, eq_comm]
    · by_cases hFallback : kind = registry.fallback.kind
      · subst hFallback
        simp [hListed, hGeneric]
      · simp [hListed, hGeneric, hFallback]

/-- With the generic fallback the two queries agree on every type after all changes, and with no
other.  They differ on the generic type and on the fallback's, while these are not advertised. -/
theorem queries_agree_iff (handlers : List (Handler m)) (fallback : Handler m) :
    ((∀ changes kind, ((ofHandlers handlers fallback).after changes).AgreesOn kind) ↔
      fallback.kind = genericType) ∧
    (∀ changes kind, ((ofHandlers handlers fallback).after changes).AgreesOn kind ↔
      fallback.kind = genericType ∨
      kind ∈ ((ofHandlers handlers fallback).after changes).advertised ∨
      (kind ≠ genericType ∧ kind ≠ fallback.kind)) := by
  have hAfter : ∀ changes, ((ofHandlers handlers fallback).after changes).fallback = fallback :=
    fun changes => after_fallback (ofHandlers handlers fallback) changes
  refine ⟨⟨?_, ?_⟩, ?_⟩
  · intro hAgree
    -- Once the fallback's type is not advertised, only the generic one is supported unlisted.
    obtain ⟨changes, hWithdrawn⟩ :=
      exists_after_withdrawn (ofHandlers handlers fallback) fallback.kind
    have hFallback := (agreesOn_iff _ fallback.kind).mp (hAgree changes fallback.kind)
    rw [hAfter] at hFallback
    rcases hFallback with hGeneric | hListed | ⟨_, hOther⟩
    · exact hGeneric
    · exact absurd hListed hWithdrawn
    · exact absurd rfl hOther
  · intro hGeneric changes kind
    exact (agreesOn_iff _ kind).mpr (.inl ((congrArg Handler.kind (hAfter changes)).trans hGeneric))
  · intro changes kind
    rw [agreesOn_iff, hAfter]

/-- The type of a custom fallback is listed without being supported. -/
theorem queries_differ_ofCustomFallback :
    let registry := ofHandlers [stubHandler "nodejs" true] (stubHandler "custom" true)
    registry.isSupported "custom" = false ∧ "custom" ∈ registry.supportedTypes ∧
      ¬ registry.AgreesOn "custom" := by
  intro registry
  have hUnsupported : registry.isSupported "custom" = false := by decide
  have hListed : "custom" ∈ registry.supportedTypes := by decide
  refine ⟨hUnsupported, hListed, fun hAgree => ?_⟩
  rw [hAgree.mpr hListed] at hUnsupported
  cases hUnsupported

/-! ### How often a type is listed -/

/-- A registry lists a type like a set would: once at most, not once it was withdrawn, unless the
fallback has it, and once when it was just registered, with a handler or without. -/
structure ListsOnce (registry : Registry m) (kind : String) : Prop where
  once : registry.supportedTypes.count kind ≤ 1
  withdrawn : kind ≠ registry.fallback.kind → kind ∉ (registry.unregister kind).supportedTypes
  registered : (registry.register kind).supportedTypes.count kind = 1
  handled : ∀ handler : Handler m, handler.kind = kind →
    (registry.registerHandler handler).supportedTypes.count kind = 1

theorem count_register_supportedTypes (registry : Registry m) (kind : String) :
    (registry.register kind).supportedTypes.count kind =
      max 1 (registry.advertised.count kind) := by
  rw [count_supportedTypes, count_register]
  split <;> omega

theorem listsOnce_iff (registry : Registry m) (kind : String) :
    registry.ListsOnce kind ↔ registry.advertised.count kind ≤ 1 := by
  constructor
  · intro hLists
    have hRegistered := hLists.registered
    rw [count_register_supportedTypes] at hRegistered
    omega
  · intro hCount
    have hRegistered : (registry.register kind).supportedTypes.count kind = 1 := by
      rw [count_register_supportedTypes]
      omega
    constructor
    · rw [count_supportedTypes]
      split <;> omega
    · intro hOther
      rw [mem_supportedTypes_iff, ← List.count_pos_iff, count_unregister]
      rintro (hLeft | hFallback)
      · omega
      · exact hOther hFallback
    · exact hRegistered
    · rintro handler rfl
      rw [registerHandler_supportedTypes]
      exact hRegistered

/-- A type is listed like in a set after all changes, exactly if at most one of the initial handlers
has it.  Whatever is done with a type, the others stay listed as they were, in their order. -/
theorem types_listed_once_iff (handlers : List (Handler m)) (fallback : Handler m) :
    (∀ kind, (∀ changes, ((ofHandlers handlers fallback).after changes).ListsOnce kind) ↔
      (handlers.map Handler.kind).count kind ≤ 1) ∧
    (∀ changes change,
      let registry := (ofHandlers handlers fallback).after changes
      ((registry.change change).supportedTypes.filter fun other => other ≠ change.kind) =
        registry.supportedTypes.filter fun other => other ≠ change.kind) := by
  constructor
  · intro kind
    constructor
    · intro hLists
      exact (listsOnce_iff (ofHandlers handlers fallback) kind).mp (hLists [])
    · intro hCount changes
      -- No change raises a count above one, so the bound on the initial list carries over.
      have hAfter := count_after_le (ofHandlers handlers fallback) kind changes
      have hBefore : (ofHandlers handlers fallback).advertised.count kind ≤ 1 := hCount
      rw [listsOnce_iff]
      omega
  · intro changes change registry
    rw [filter_supportedTypes, filter_supportedTypes, filter_change, change_fallback]

/-- A type that two of the initial handlers have is listed twice, and still once it was
unregistered. -/
theorem repeated_type_remains :
    let registry := ofHandlers [stubHandler "web" true, stubHandler "web" true]
      (stubHandler "docker" true)
    registry.supportedTypes = ["web", "web", "docker"] ∧
      (registry.unregister "web").supportedTypes = ["web", "docker"] ∧
      (registry.unregister "web").isSupported "web" = true ∧
      ¬ registry.ListsOnce "web" := by
  intro registry
  refine ⟨by decide, by decide, by decide, fun hLists => ?_⟩
  have hTwice : registry.supportedTypes.count "web" = 2 := by decide
  have hOnce := hLists.once
  omega

end Registry

end BuildWatch
