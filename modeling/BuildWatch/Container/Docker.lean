import BuildWatch.Container.Runtime
import BuildWatch.Text.Blank

/-!
A container runtime that runs the docker command.
-/

namespace BuildWatch

open BuildWatch.Json

structure CommandOutput where
  status : Nat := 0
  stdout : List UInt8 := []
  stderr : List UInt8 := []
deriving Repr, DecidableEq

/-- Run a command with some arguments; there is no output if it cannot be started. -/
abbrev CommandRunner (m : Type → Type) := String → List String → m (Option CommandOutput)

structure Docker where
  binary : String
  network : String
  label : String
deriving Repr, DecidableEq

namespace Docker

/-! ### Reading what `docker inspect` prints -/

structure Inspection where
  id : String
  name : String
  status : String
  ip : String
  ports : PortTable
deriving Repr, DecidableEq

def statusOfDocument? (document : Document) : Option String := do
  match ← document.fields? [{ name := "Status" }] with
  | [status] => orElse "" Document.string? status
  | _ => none

def addressOfDocument? (document : Document) : Option String := do
  match ← document.fields? [{ name := "IPAddress" }] with
  | [address] => orElse "" Document.string? address
  | _ => none

/-- The entry with the least key, the last of several. -/
def leastEntry (entries : List (String × String)) : Option (String × String) :=
  entries.foldl
    (fun least? entry =>
      match least? with
      | some least => if least.1 < entry.1 then some least else some entry
      | none => some entry)
    none

def firstAddress? : Document → Option String
  | .object members => do
      let entries ← members.mapM fun member => do
        let key ← member.1.text?
        let address ← addressOfDocument? member.2
        return (key, address)
      return ((leastEntry entries).map Prod.snd).getD ""
  | _ => none

/-- The room for host bindings inside the printed list. -/
def portRoom : Nat := nestingLimit - 5

def networkOfDocument? (document : Document) : Option (String × PortTable) := do
  match ← document.fields? [{ name := "Networks" }, { name := "Ports" }] with
  | [networks, ports] =>
      return (← orElse "" firstAddress? networks,
        ← orElse {} (PortTable.ofDocument? portRoom) ports)
  | _ => none

def fields : List Field :=
  [{ name := "Id" }, { name := "Name" }, { name := "State" }, { name := "NetworkSettings" }]

def Inspection.ofDocument? (document : Document) : Option Inspection := do
  match ← document.fields? fields with
  | [id, name, state, network] =>
      let id ← required Document.string? id
      let name ← orElse "" Document.string? name
      let status ← orElse "" statusOfDocument? state
      let (ip, ports) ← orElse ("", {}) networkOfDocument? network
      return { id, name, status, ip, ports }
  | _ => none

def inspectionsOf? (bytes : List UInt8) : Option (List Inspection) := do
  (← Document.ofBytes? bytes).list? Inspection.ofDocument?

/-- The container of a name, which is printed with a slash before it. -/
def Inspection.isNamed (inspection : Inspection) (name : String) : Bool :=
  inspection.name == "/" ++ name || inspection.name == name

def Inspection.details (inspection : Inspection) : ContainerDetails :=
  { id := inspection.id, ip := inspection.ip, ports := inspection.ports }

/-! ### Failures -/

def commandFailure (arguments : List String) (output : CommandOutput) : Failure :=
  Failure.of ("docker " ++ " ".intercalate arguments ++ " failed (exit status: " ++
    toString output.status ++ "): " ++ Text.trim (Text.Utf8.lossyText output.stderr))

def spawnFailure (binary : String) : Failure :=
  { messages := ["Failed to spawn " ++ binary, ioTag] }

def unreadableFailure : Failure :=
  { messages := ["Failed to parse docker inspect output", jsonTag] }

def saysMissing (output : CommandOutput) : Bool :=
  Text.occursIn "No such".toList (Text.Utf8.lossyText output.stderr).toList

/-! ### Commands -/

def inspectArguments (name : String) : List String :=
  ["inspect", "--type", "container", name]

def buildArguments (docker : Docker) (image : String) (directory : Files.Path)
    (options : List String) : List String :=
  ["build", "--label", docker.label, "-t", image] ++ options ++ [directory]

def runArguments (docker : Docker) (name : String) : List String :=
  ["run", "--label", docker.label, "--name", name, "--network=" ++ docker.network, "-P", "-dt",
    name]

def readInspection (name : String) (output : CommandOutput) :
    Except Failure (Option Inspection) :=
  if output.status = 0 then
    match inspectionsOf? output.stdout with
    | some inspections => .ok (inspections.find? (·.isNamed name))
    | none => .error unreadableFailure
  else if saysMissing output then .ok none
  else .error (commandFailure ["inspect", name] output)

variable {m : Type → Type} [Monad m]

def output (docker : Docker) (runner : CommandRunner m) (arguments : List String) :
    ExceptT Failure m CommandOutput := do
  match ← runner docker.binary arguments with
  | some output => return output
  | none => throw (spawnFailure docker.binary)

def command (docker : Docker) (runner : CommandRunner m) (arguments : List String) :
    ExceptT Failure m Unit := do
  let output ← docker.output runner arguments
  if output.status ≠ 0 then throw (commandFailure arguments output)

def commandFor (docker : Docker) (runner : CommandRunner m) (purpose : String)
    (arguments : List String) : ExceptT Failure m Unit :=
  ExceptT.adapt (Failure.context · purpose) (docker.command runner arguments)

def inspection (docker : Docker) (runner : CommandRunner m) (name : String) :
    ExceptT Failure m (Option Inspection) := do
  let output ← docker.output runner (inspectArguments name)
  ExceptT.mk (pure (readInspection name output))

def runtime (docker : Docker) (runner : CommandRunner m) : ContainerRuntime m where
  inspect name := do
    let inspection? ← docker.inspection runner name
    return (inspection?.filter (·.status == "running")).map Inspection.details
  state name := do
    match ← docker.inspection runner name with
    | some inspection => return ContainerState.ofStatus inspection.status
    | none => return .notFound
  build image directory options :=
    docker.command runner (docker.buildArguments image directory options)
  run name := docker.command runner (docker.runArguments name)
  restart name := docker.command runner ["restart", name]
  remove name := do
    docker.commandFor runner "Error removing container" ["rm", "-f", name]
    docker.commandFor runner "Error removing image" ["rmi", "-f", name]

end Docker

end BuildWatch
