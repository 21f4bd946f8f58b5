import BuildWatch.Json.Printer
import BuildWatch.Json.Reader

/-!
How the application of a project can be started and controlled.
-/

namespace BuildWatch

open BuildWatch.Json

inductive StartMode where
  | run
  | debug
  | debugNoInit
deriving Repr, DecidableEq

namespace StartMode

def name : StartMode → String
  | .run => "run"
  | .debug => "debug"
  | .debugNoInit => "debugNoInit"

def all : List StartMode := [.run, .debug, .debugNoInit]

def isDebug : StartMode → Bool
  | .run => false
  | .debug => true
  | .debugNoInit => true

def toJson (mode : StartMode) : Value := .string mode.name

def ofDocument? (document : Document) : Option StartMode :=
  document.oneOf? (all.map fun mode => (mode.name, mode))

end StartMode

inductive ControlCommand where
  | start
  | stop
  | restart
deriving Repr, DecidableEq

namespace ControlCommand

def name : ControlCommand → String
  | .start => "start"
  | .stop => "stop"
  | .restart => "restart"

def all : List ControlCommand := [.start, .stop, .restart]

def toJson (command : ControlCommand) : Value := .string command.name

def ofDocument? (document : Document) : Option ControlCommand :=
  document.oneOf? (all.map fun command => (command.name, command))

end ControlCommand

structure Capabilities where
  startModes : List StartMode := [.run]
  controlCommands : List ControlCommand := [.start, .stop, .restart]
deriving Repr, DecidableEq

namespace Capabilities

def supports (capabilities : Capabilities) (mode : StartMode) : Bool :=
  capabilities.startModes.contains mode

def toJson (capabilities : Capabilities) : Value :=
  .object
    [("startModes", .array (capabilities.startModes.map StartMode.toJson)),
     ("controlCommands", .array (capabilities.controlCommands.map ControlCommand.toJson))]

def fields : List Field := [{ name := "startModes" }, { name := "controlCommands" }]

def ofDocument? (document : Document) : Option Capabilities := do
  match ← document.fields? fields with
  | [startModes, controlCommands] =>
      return {
        startModes := ← required (·.list? StartMode.ofDocument?) startModes
        controlCommands := ← required (·.list? ControlCommand.ofDocument?) controlCommands }
  | _ => none

end Capabilities

end BuildWatch
