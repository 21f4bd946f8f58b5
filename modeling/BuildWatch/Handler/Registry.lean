import BuildWatch.Handler.Builtin

/-!
The registry of project types.  Every type has a handler, if only the generic
one.  Which types are advertised is kept apart from which handlers there are.
-/

namespace BuildWatch

open BuildWatch.Files

structure Registry (m : Type → Type) where
  handlers : List (Handler m)
  fallback : Handler m
  advertised : List String

namespace Registry

variable {m : Type → Type}

def ofHandlers (handlers : List (Handler m)) (fallback : Handler m) : Registry m :=
  { handlers := handlers, fallback := fallback, advertised := handlers.map Handler.kind }

def builtin [Monad m] (files : FileSystem m) (runtime : ContainerRuntime m) : Registry m :=
  ofHandlers (Handler.builtins files runtime) (Handler.generic files runtime)

def resolve (registry : Registry m) (kind : String) : Handler m :=
  (registry.handlers.find? (fun handler => handler.kind == kind)).getD registry.fallback

def register (registry : Registry m) (kind : String) : Registry m :=
  if registry.advertised.contains kind then registry
  else { registry with advertised := registry.advertised ++ [kind] }

def registerHandler (registry : Registry m) (handler : Handler m) : Registry m :=
  { registry with handlers := handler :: registry.handlers }.register handler.kind

def unregister (registry : Registry m) (kind : String) : Registry m :=
  { registry with advertised := registry.advertised.erase kind }

def isSupported (registry : Registry m) (kind : String) : Bool :=
  kind == genericType || registry.advertised.contains kind

def supportedTypes (registry : Registry m) : List String :=
  if registry.advertised.contains registry.fallback.kind then registry.advertised
  else registry.advertised ++ [registry.fallback.kind]

def capabilitiesFor (registry : Registry m) (kind : String) : Capabilities :=
  (registry.resolve kind).capabilities

def missingLocation (location : Path) (fault : FileError) : Failure :=
  Failure.of ("The location does not exist: " ++ location ++ " (" ++ fault.message ++ ")")

/-- The types whose handlers accept a location; only directories are accepted. -/
def detect [Monad m] (registry : Registry m) (files : FileSystem m) (location : Path) :
    ExceptT Failure m (List String) := do
  match ← files.kind location with
  | .error fault => throw (missingLocation location fault)
  | .ok .directory =>
      let accepting ← registry.handlers.filterM fun handler => liftM (handler.accepts location)
      return accepting.map Handler.kind
  | .ok _ => return []

end Registry

end BuildWatch
