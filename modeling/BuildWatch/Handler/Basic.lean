import BuildWatch.Container.Runtime
import BuildWatch.Project.ChangeEvent

/-!
Handlers: each knows how projects of one type are recognised and built.
-/

namespace BuildWatch

open BuildWatch.Files

structure Operation where
  project : ProjectInfo
  container : String
deriving Repr, DecidableEq

inductive BuildOutcome where
  | rebuilt
  | restarted
deriving Repr, DecidableEq

def BuildOutcome.name : BuildOutcome → String
  | .rebuilt => "Rebuilt"
  | .restarted => "Restarted"

/-- The type of projects that only have to hold a container file. -/
def genericType : String := "docker"

structure Handler (m : Type → Type) where
  kind : String
  /-- Whether a directory looks like a project of the type. -/
  accepts : Path → m Bool
  capabilities : Capabilities := {}
  /-- Build a project; where no changed files are given the build was asked for. -/
  update : Operation → Option (List ChangeEvent) → ExceptT Failure m BuildOutcome

end BuildWatch
