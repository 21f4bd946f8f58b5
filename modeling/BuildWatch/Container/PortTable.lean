import BuildWatch.Json.Reader

/-!
Tables of published ports, in the order in which they are reported: the order
decides which port is taken where nothing else does.
-/

namespace BuildWatch

open BuildWatch.Json

structure PortBinding where
  key : String
  hostPorts : List String
deriving Repr, DecidableEq

namespace PortBinding

def internalPort (binding : PortBinding) : String :=
  String.ofList (binding.key.toList.takeWhile (· != '/'))

def hostPort? (binding : PortBinding) : Option String :=
  binding.hostPorts.head?.filter (fun port => !port.isEmpty)

end PortBinding

structure PortTable where
  bindings : List PortBinding := []
deriving Repr, DecidableEq

namespace PortTable

def ofPairs (pairs : List (String × List String)) : PortTable :=
  { bindings := pairs.map fun pair => { key := pair.1, hostPorts := pair.2 } }

def pairs (table : PortTable) : List (String × List String) :=
  table.bindings.map fun binding => (binding.key, binding.hostPorts)

/-- The first binding of a port inside the container. -/
def find? (table : PortTable) (port : String) : Option PortBinding :=
  table.bindings.find? (fun binding => binding.internalPort == port)

def internalPorts (table : PortTable) : List String :=
  table.bindings.map PortBinding.internalPort

/-! ### Reading -/

def hostFields : List Field := [{ name := "HostPort" }]

/-- A port of the host: a text, or an object with the port as one of its members.
It may hold further values, at most `room` levels deep. -/
def hostPortOfDocument? (room : Nat) (document : Document) : Option String := do
  let _ ← document.value? room
  match document with
  | .string literal => literal.text?
  | .object _ =>
      match ← document.fields? hostFields with
      | [port] => orElse "" Document.string? port
      | _ => none
  | _ => none

def bindingOfMember? (room : Nat) (member : Literal × Document) : Option PortBinding := do
  let key ← member.1.text?
  let hostPorts ← member.2.orNull? (·.list? (hostPortOfDocument? room))
  return { key := key, hostPorts := hostPorts.getD [] }

/-- Read a table of which each host binding may be `room` levels deep. -/
def ofDocument? (room : Nat) : Document → Option PortTable
  | .null => some {}
  | .object members => (members.mapM (bindingOfMember? room)).map fun bindings => { bindings }
  | _ => none

/-- The room for host bindings in a table that is a text of its own. -/
def textRoom : Nat := nestingLimit - 2

def ofText? (text : String) : Option PortTable := do
  ofDocument? textRoom (← Document.ofText? text)

/-! ### What reading and rebuilding keep -/

theorem ofPairs_pairs (table : PortTable) : ofPairs table.pairs = table := by
  cases table with
  | mk bindings =>
      simp only [ofPairs, pairs, List.map_map, PortTable.mk.injEq]
      exact List.map_id' bindings

end PortTable

end BuildWatch
