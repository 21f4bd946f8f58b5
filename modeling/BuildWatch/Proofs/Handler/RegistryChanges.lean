import BuildWatch.Handler.Registry
import Mathlib.Data.List.Induction

/-!
The changes that a registry undergoes.  Handlers are only ever added, each before all that were
there; what is advertised changes beside them, and the fallback stays.
-/

namespace BuildWatch

variable {m : Type → Type}

inductive RegistryChange (m : Type → Type) where
  | registerHandler (handler : Handler m)
  | register (kind : String)
  | unregister (kind : String)

namespace RegistryChange

def kind : RegistryChange m → String
  | .registerHandler handler => handler.kind
  | .register kind => kind
  | .unregister kind => kind

def added? : RegistryChange m → Option (Handler m)
  | .registerHandler handler => some handler
  | .register _ => none
  | .unregister _ => none

end RegistryChange

/-- The handlers that some changes have added, the newest first, before those that there were. -/
def newestFirst (changes : List (RegistryChange m)) (handlers : List (Handler m)) :
    List (Handler m) :=
  (changes.filterMap RegistryChange.added?).reverse ++ handlers

namespace Registry

def change (registry : Registry m) : RegistryChange m → Registry m
  | .registerHandler handler => registry.registerHandler handler
  | .register kind => registry.register kind
  | .unregister kind => registry.unregister kind

def after (registry : Registry m) (changes : List (RegistryChange m)) : Registry m :=
  changes.foldl change registry

theorem after_concat (registry : Registry m) (changes : List (RegistryChange m))
    (change : RegistryChange m) :
    registry.after (changes ++ [change]) = (registry.after changes).change change :=
  List.foldl_append

/-! ### What each change leaves as it is -/

section

variable (registry : Registry m) (kind : String) (handler : Handler m)
  (change : RegistryChange m) (changes : List (RegistryChange m))

@[simp] theorem register_handlers : (registry.register kind).handlers = registry.handlers := by
  unfold register
  split <;> rfl

@[simp] theorem register_fallback : (registry.register kind).fallback = registry.fallback := by
  unfold register
  split <;> rfl

@[simp] theorem unregister_handlers : (registry.unregister kind).handlers = registry.handlers := rfl

@[simp] theorem unregister_fallback : (registry.unregister kind).fallback = registry.fallback := rfl

@[simp] theorem registerHandler_handlers :
    (registry.registerHandler handler).handlers = handler :: registry.handlers :=
  register_handlers ..

@[simp] theorem registerHandler_fallback :
    (registry.registerHandler handler).fallback = registry.fallback :=
  register_fallback ..

theorem change_handlers :
    (registry.change change).handlers = change.added?.toList ++ registry.handlers := by
  cases change <;> simp [Registry.change, RegistryChange.added?]

theorem change_fallback : (registry.change change).fallback = registry.fallback := by
  cases change <;> simp [Registry.change]

theorem after_fallback : (registry.after changes).fallback = registry.fallback := by
  induction changes using List.reverseRecOn with
  | nil => rfl
  | append_singleton changes change ih => rw [after_concat, change_fallback, ih]

theorem after_handlers :
    (registry.after changes).handlers = newestFirst changes registry.handlers := by
  induction changes using List.reverseRecOn with
  | nil => rfl
  | append_singleton changes change ih =>
      rw [after_concat, change_handlers, ih, newestFirst, newestFirst, ← List.append_assoc,
        List.filterMap_append, List.reverse_append]
      cases change <;> rfl

end

end Registry

/-- A handler that takes every directory for a project of its type, or none, and builds
nothing. -/
def stubHandler (kind : String) (accepting : Bool) : Handler Id where
  kind := kind
  accepts _ := accepting
  update _ _ := return .rebuilt

end BuildWatch
